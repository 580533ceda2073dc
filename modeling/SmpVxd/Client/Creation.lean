import SmpVxd.Client.ThreadInfo

/-!
# The race on the node of a new thread

The thread that creates another one and the new thread both use the node of the new
thread, and the new thread frees it. What each thread relies on is stated per program
point; a step of one thread keeps what the others rely on, provided that it does not
free the node of a call that has not returned.
-/

namespace SmpVxd.ThreadInfo

open Heap Transition

/-- The nodes of the list, with nothing that counts besides their order. -/
abbrev Chain := List (NodePtr × Unit)

def Chain.nodes (chain : Chain) : List NodePtr := chain.map Prod.fst

/-- The list as a store of cells. -/
def Proc.store (s : Proc) : Store Unit NodePtr Unit where
  head _ := s.threads
  cell t := if s.Live t then some ⟨(), (s.node t.addr).prev⟩ else none

/-- The list consists of the nodes of `chain`. -/
def Proc.Lists (s : Proc) (chain : Chain) : Prop := Represents s.store fun _ => chain

/-- The contents of a node besides its place in the list. -/
def ThreadNode.core (n : ThreadNode) : ThreadNode := { n with prev := none }

theorem ThreadNode.task_eq {n m : ThreadNode} (same : n.core = m.core) : n.task = m.task := by
  change n.core.task = m.core.task
  rw [same]

/-- The number of a statement of a creating function. -/
def CreatePc.rank : CreatePc → Nat
  | .heapAlloc => 0
  | .memset _ => 1
  | .enter _ => 2
  | .setPrev _ => 3
  | .setThreads _ => 4
  | .leave _ => 5
  | .setTmain _ => 6
  | .setTmainType _ => 7
  | .setParam _ => 8
  | .createThread _ => 9
  | .setHandle _ _ => 10
  | .testHandle _ _ => 11
  | .readId _ _ => 12
  | .ret _ _ _ => 13

def CreatePc.given : CreatePc → Option Given
  | .setHandle _ given | .testHandle _ given | .readId _ given | .ret _ given _ => given
  | _ => none

/-- The handle is none of the special values. -/
def Given.Proper (g : Given) : Prop :=
  g.handle ≠ 0 ∧ g.handle ≠ invalidHandleValue ∧ g.handle ≠ getCurrentThread

/-- What a creating function relies on at each of its statements. -/
structure CreateOk (s : Proc) (chain : Chain) (tid : Dword) (c : Call) (p : CreatePc)
    (t : NodePtr) : Prop where
  live : s.Live t
  creator : t.creator = tid
  unlinked : p.rank ≤ 4 → t ∉ chain.nodes
  linked : 5 ≤ p.rank → p.rank ≤ 9 → t ∈ chain.nodes
  prev : p.rank = 4 → (s.node t.addr).prev = s.threads
  cs : 3 ≤ p.rank → p.rank ≤ 5 → s.cs = some tid
  threadId : 2 ≤ p.rank → (s.node t.addr).threadId = (p.given.map Given.id).getD 0
  threadHandle : 2 ≤ p.rank → (s.node t.addr).threadHandle =
    if p.rank ≤ 10 then 0 else (p.given.map Given.handle).getD 0
  tmain : 7 ≤ p.rank → (s.node t.addr).tmain = c.tmain
  tmainType : 8 ≤ p.rank → (s.node t.addr).tmainType = c.tmainType
  param : 9 ≤ p.rank → (s.node t.addr).param = c.param
  proper : ∀ g, p.given = some g → g.Proper
  asked : p.rank = 12 → c.wantsId = true
  stored : ∀ given stored, p = .ret t given stored → stored =
    if c.wantsId then some ((given.map Given.id).getD 0) else none

/-- What a new thread relies on until it calls the thread function. -/
structure MainOk (s : Proc) (chain : Chain) (tid : Dword) (c : Call) (p : MainPc) : Prop where
  linked : p.node ∈ chain.nodes
  threadId : (s.node p.node.addr).threadId = tid
  task : (s.node p.node.addr).task = c.task
  type : ∀ t type, p = .tmain t type → type = c.tmainType
  start : ∀ t type start, p = .param t type start → type = c.tmainType ∧ start = c.tmain

/-- The pointer is the place of the list that leads to `after`. -/
def Place (chain : Chain) (t : Link) (after : Chain) : Prop :=
  ∃ before, chain = before ++ after ∧ t = linkAfter () before

/-- What a thread that ends relies on. -/
def DetachOk (s : Proc) (chain : Chain) (tid : Dword) : DetachPc → Prop
  | .enter => True
  | .whileCond t => s.cs = some tid ∧ ∃ after, Place chain t after
  | .testHandle t | .testId t | .advance t => s.cs = some tid ∧ ∃ p after, Place chain t ((p, ()) :: after)
  | .setGarbage t => s.cs = some tid ∧ ∃ p after, Place chain t ((p, ()) :: after) ∧
      (s.node p.addr).threadId = tid
  | .unlink t garbage => s.cs = some tid ∧ ∃ after, Place chain t ((garbage, ()) :: after) ∧
      (s.node garbage.addr).threadId = tid
  | .heapFree t garbage => s.cs = some tid ∧ s.Live garbage ∧ garbage ∉ chain.nodes ∧
      ∃ after, Place chain t after
  | .leave => s.cs = some tid

def GetOk (s : Proc) (chain : Chain) (tid : Dword) : GetPc → Prop
  | .enter => True
  | .init | .leave _ => s.cs = some tid
  | .forCond t => s.cs = some tid ∧ ∀ p, t = some p → p ∈ chain.nodes
  | .readId t | .advance t => s.cs = some tid ∧ t ∈ chain.nodes

/-- What a thread relies on. -/
def PcOk (s : Proc) (chain : Chain) (tid : Dword) : Pc → Prop
  | .user | .faulted => True
  | .create c p => ∀ t, p.node = some t → CreateOk s chain tid c p t
  | .main c p => MainOk s chain tid c p
  | .detach p => DetachOk s chain tid p
  | .getThreadId _ p => GetOk s chain tid p

/-- The invariant of the runs in which no node is freed early. -/
structure Proc.Ok (s : Proc) (chain : Chain) : Prop where
  lists : s.Lists chain
  handles : ∀ t ∈ chain.nodes, (s.node t.addr).threadHandle ≠ getCurrentThread
  nobody : s.pc 0 = none
  threads : ∀ tid pc, s.pc tid = some pc → PcOk s chain tid pc

/-- What a step of another thread leaves to thread `tid`. -/
structure Kept (s s' : Proc) (chain chain' : Chain) (tid : Dword) : Prop where
  locked : s.cs = some tid →
    s'.cs = some tid ∧ s'.threads = s.threads ∧ chain' = chain ∧ ∀ t, s.Live t → s'.Live t
  live : ∀ t, t.creator = tid → s.inCall t = true → s.Live t → s'.Live t
  outside : ∀ t, t.creator = tid → s.Live t → t ∉ chain.nodes →
    t ∉ chain'.nodes ∧ (s'.node t.addr).prev = (s.node t.addr).prev
  inside : ∀ t, t.creator = tid → t ∈ chain.nodes → (s.node t.addr).threadId = 0 → t ∈ chain'.nodes
  core : ∀ t, t.creator = tid → s.Live t → (s'.node t.addr).core = (s.node t.addr).core
  own : ∀ t ∈ chain.nodes, (s.node t.addr).threadId = tid →
    t ∈ chain'.nodes ∧ (s'.node t.addr).threadId = tid ∧ (s'.node t.addr).task = (s.node t.addr).task

variable {s s' : Proc} {chain chain' : Chain} {tid actor : Dword} {c : Call} {t u : NodePtr}
variable {f : ThreadNode → ThreadNode} {pc : Pc} {l : Link} {a : Action}

/-! ## The list -/

theorem Proc.Lists.live (h : s.Lists chain) (member : t ∈ chain.nodes) : s.Live t := by
  obtain ⟨⟨t, ⟨⟩⟩, entry, rfl⟩ := List.mem_map.mp member
  obtain ⟨before, after, split⟩ := List.append_of_mem entry
  have found := h.cell_eq (i := ()) split
  by_contra dead
  simp [Proc.store, dead] at found

/-- Two blocks of the heap have different addresses. -/
theorem Proc.Live.eq (ht : s.Live t) (hu : s.Live u) (same : t.addr = u.addr) : t = u := by
  rw [Proc.Live, same, hu] at ht
  exact (Option.some.inj ht).symm

theorem Proc.Lists.unused (outside : t ∉ chain.nodes) : Unused (fun _ : Unit => chain) t :=
  fun _ => outside

theorem Proc.Lists.congr (h : s.Lists chain) (same : s'.store = s.store) : s'.Lists chain := by
  rw [Proc.Lists, same]
  exact h

theorem Proc.store_eq (threads : s'.threads = s.threads) (block : s'.block = s.block)
    (node : s'.node = s.node) : s'.store = s.store := by
  cases s
  cases s'
  cases threads
  cases block
  cases node
  rfl

@[simp] theorem Proc.setNode_same : (s.setNode t f).node t.addr = f (s.node t.addr) :=
  Function.update_self ..

@[simp] theorem Proc.goto_pc_self : (s.goto tid pc).pc tid = some pc := Function.update_self ..

theorem Proc.goto_pc_ne (ne : tid ≠ actor) : (s.goto actor pc).pc tid = s.pc tid :=
  Function.update_of_ne ne ..

theorem Proc.setNode_other {addr : Dword} (ne : addr ≠ t.addr) :
    (s.setNode t f).node addr = s.node addr :=
  Function.update_of_ne ne ..

theorem Proc.setNode_ne (ht : s.Live t) (hu : s.Live u) (ne : u ≠ t) :
    (s.setNode t f).node u.addr = s.node u.addr :=
  Proc.setNode_other fun same => ne (hu.eq ht same)

theorem Proc.store_setNode (live : s.Live t) :
    (s.setNode t f).store = s.store.setCell t (some ⟨(), (f (s.node t.addr)).prev⟩) := by
  simp only [Proc.store, Store.setCell, Store.mk.injEq]
  refine ⟨rfl, ?_⟩
  funext u
  by_cases same : u = t
  · subst same
    have live' : (s.setNode u f).Live u := live
    simp [live']
  · rw [Function.update_of_ne same]
    by_cases hu : s.Live u
    · have hu' : (s.setNode t f).Live u := hu
      simp [hu, hu', Proc.setNode_ne live hu same]
    · have hu' : ¬ (s.setNode t f).Live u := hu
      simp [hu, hu']

/-- Only the links of the nodes of the list count. -/
theorem Proc.Lists.memory {node : Dword → ThreadNode} (h : s.Lists chain)
    (same : ∀ t ∈ chain.nodes, (node t.addr).prev = (s.node t.addr).prev) :
    ({ s with node := node } : Proc).Lists chain := by
  refine ⟨fun i => (h.linked i).congr fun t member => ?_, Represents.nodup h, h.apart⟩
  simp only [Proc.store, same t member]
  rfl

/-- Only the list may be changed through `prev` of its nodes. -/
theorem Proc.Lists.setNode (h : s.Lists chain) (live : s.Live t)
    (prev : t ∈ chain.nodes → (f (s.node t.addr)).prev = (s.node t.addr).prev) :
    (s.setNode t f).Lists chain := by
  by_cases member : t ∈ chain.nodes
  · refine h.congr ?_
    rw [Proc.store_setNode live, prev member]
    simp only [Store.setCell, Proc.store]
    congr 1
    rw [Function.update_eq_self_iff]
    simp [live]
  · rw [Proc.Lists, Proc.store_setNode live]
    exact h.setCell (Proc.Lists.unused member) _

theorem update_unit (chain chain' : Chain) :
    Function.update (fun _ : Unit => chain) () chain' = fun _ => chain' := by
  funext i
  exact Function.update_self ..

/-- A node that is not in the list and leads to it becomes its first one. -/
theorem Proc.Lists.push (h : s.Lists chain) (live : s.Live t) (outside : t ∉ chain.nodes)
    (prev : (s.node t.addr).prev = s.threads) :
    ({ s with threads := some t } : Proc).Lists ((t, ()) :: chain) := by
  have found : s.store.cell t = some ⟨(), s.threads⟩ := by
    simp [Proc.store, live, prev]
  have pushed := Represents.push (i := ()) h (Proc.Lists.unused outside) found
  rw [update_unit] at pushed
  have same : s.store.write (.head ()) (some t) = ({ s with threads := some t } : Proc).store := by
    simp only [Store.write, Proc.store, Store.mk.injEq]
    refine ⟨?_, rfl⟩
    funext i
    exact Function.update_self ..
  rw [same] at pushed
  exact pushed

/-- The address at a place of the list. -/
theorem Proc.Lists.read (h : s.Lists chain) {after : Chain} (place : Place chain l after) :
    s.read l = first after := by
  obtain ⟨before, split, rfl⟩ := place
  have found := h.read_linkAfter (i := ()) split
  obtain rfl | ⟨front, e, rfl⟩ := before.eq_nil_or_concat
  · exact Option.some.inj found
  · have member : e.1 ∈ chain.nodes := by
      rw [split]
      simp [Chain.nodes]
    have live := h.live member
    simpa [linkAfter, Proc.store, Store.read, Proc.read, live] using found

theorem Proc.Lists.map_read {g : NodePtr → Proc} {after : Chain} (h : s.Lists chain)
    (place : Place chain l ((t, ()) :: after)) (read : (s.read l).map g = some s') : s' = g t := by
  rw [h.read place] at read
  exact (Option.some.inj read).symm

theorem Proc.store_write {r : Option NodePtr} (live : ∀ p, l = .next p → s.Live p) :
    (s.write l r).store = s.store.write l r := by
  cases l with
  | head i =>
      simp only [Proc.write, Store.write, Proc.store, Store.mk.injEq]
      refine ⟨?_, rfl⟩
      funext j
      exact (Function.update_self (f := fun _ : Unit => s.threads) ..).symm
  | next p =>
      have found : s.store.cell p = some ⟨(), (s.node p.addr).prev⟩ := by
        simp [Proc.store, live p rfl]
      rw [Proc.write, Proc.store_setNode (live p rfl), Store.write, found]
      rfl

theorem Place.live {after : Chain} (h : s.Lists chain) (place : Place chain l after) (p : NodePtr)
    (next : l = .next p) : s.Live p := by
  obtain ⟨before, split, rfl⟩ := place
  by_contra dead
  have outside : p ∉ before.map Prod.fst := by
    intro member
    refine dead (h.live ?_)
    rw [split, Chain.nodes, List.map_append]
    exact List.mem_append_left _ member
  exact linkAfter_ne outside next

/-- The garbage is taken off the list. -/
theorem Proc.Lists.unlink {before after : Chain} (h : s.Lists chain)
    (split : chain = before ++ (t, ()) :: after) :
    (s.write (linkAfter () before) (s.node t.addr).prev).Lists (before ++ after) := by
  have cell : s.store.cell t = some ⟨(), first after⟩ := h.cell_eq (i := ()) split
  have live : s.Live t := by
    by_contra dead
    simp [Proc.store, dead] at cell
  have prev : (s.node t.addr).prev = first after := by simpa [Proc.store, live] using cell
  have unlinked := Represents.unlink (i := ()) h split
  rw [update_unit] at unlinked
  rw [Proc.Lists, prev, Proc.store_write (Place.live h ⟨before, split, rfl⟩)]
  exact unlinked

theorem Proc.Lists.nodup (h : s.Lists chain) : chain.nodes.Nodup := Represents.nodup h ()

/-- A block that is not in the list is allocated or freed. -/
theorem Proc.Lists.setBlock {addr : Dword} {b : Option NodePtr} (h : s.Lists chain)
    (outside : ∀ u ∈ chain.nodes, u.addr ≠ addr) : (s.setBlock addr b).Lists chain := by
  refine ⟨fun i => (h.linked i).congr fun u member => ?_, Represents.nodup h, h.apart⟩
  have live : (s.setBlock addr b).Live u ↔ s.Live u := by
    simp [Proc.Live, Proc.setBlock, Function.update_of_ne (outside u member)]
  have hu := h.live member
  simp only [Proc.store, live, hu, if_true]
  rfl

/-! ## What the other threads keep -/

theorem CreatePc.given_none {p : CreatePc} (early : p.rank ≤ 9) : p.given = none := by
  cases p with
  | setHandle t given => cases Nat.not_succ_le_self 9 early
  | testHandle t given => exact absurd early (by simp [CreatePc.rank])
  | readId t given => exact absurd early (by simp [CreatePc.rank])
  | ret t given stored => exact absurd early (by simp [CreatePc.rank])
  | _ => rfl

theorem CreateOk.frame {p : CreatePc} (ok : CreateOk s chain tid c p t)
    (kept : Kept s s' chain chain' tid) (inCall : s.inCall t = true) :
    CreateOk s' chain' tid c p t := by
  have core := kept.core t ok.creator ok.live
  constructor
  case live => exact kept.live t ok.creator inCall ok.live
  case creator => exact ok.creator
  case unlinked => exact fun early => (kept.outside t ok.creator ok.live (ok.unlinked early)).1
  case linked =>
    intro low high
    refine kept.inside t ok.creator (ok.linked low high) ?_
    rw [ok.threadId (by omega), CreatePc.given_none high]
    rfl
  case prev =>
    intro here
    have outside := kept.outside t ok.creator ok.live (ok.unlinked (by omega))
    have locked := kept.locked (ok.cs (by omega) (by omega))
    rw [outside.2, ok.prev here, locked.2.1]
  case cs => exact fun low high => (kept.locked (ok.cs low high)).1
  case threadId => exact fun low => (congrArg ThreadNode.threadId core).trans (ok.threadId low)
  case threadHandle =>
    exact fun low => (congrArg ThreadNode.threadHandle core).trans (ok.threadHandle low)
  case tmain => exact fun low => (congrArg ThreadNode.tmain core).trans (ok.tmain low)
  case tmainType => exact fun low => (congrArg ThreadNode.tmainType core).trans (ok.tmainType low)
  case param => exact fun low => (congrArg ThreadNode.param core).trans (ok.param low)
  case proper => exact ok.proper
  case asked => exact ok.asked
  case stored => exact ok.stored

theorem MainOk.frame {p : MainPc} (ok : MainOk s chain tid c p)
    (kept : Kept s s' chain chain' tid) : MainOk s' chain' tid c p := by
  obtain ⟨linked, threadId, task⟩ := kept.own _ ok.linked ok.threadId
  exact ⟨linked, threadId, task.trans ok.task, ok.type, ok.start⟩

/-- A place that leads to a node is the place of a node of the list. -/
theorem Place.mem {after : Chain} (place : Place chain l ((t, ()) :: after)) : t ∈ chain.nodes := by
  obtain ⟨before, rfl, -⟩ := place
  simp [Chain.nodes]

theorem DetachOk.frame {p : DetachPc} (ok : DetachOk s chain tid p)
    (kept : Kept s s' chain chain' tid) : DetachOk s' chain' tid p := by
  cases p with
  | enter => trivial
  | whileCond t =>
      obtain ⟨cs, place⟩ := ok
      obtain ⟨cs', -, rfl, -⟩ := kept.locked cs
      exact ⟨cs', place⟩
  | testHandle t | testId t | advance t =>
      obtain ⟨cs, place⟩ := ok
      obtain ⟨cs', -, rfl, -⟩ := kept.locked cs
      exact ⟨cs', place⟩
  | setGarbage t =>
      obtain ⟨cs, p, after, place, threadId⟩ := ok
      obtain ⟨cs', -, rfl, -⟩ := kept.locked cs
      exact ⟨cs', p, after, place, (kept.own p place.mem threadId).2.1⟩
  | unlink t garbage =>
      obtain ⟨cs, after, place, threadId⟩ := ok
      obtain ⟨cs', -, rfl, -⟩ := kept.locked cs
      exact ⟨cs', after, place, (kept.own garbage place.mem threadId).2.1⟩
  | heapFree t garbage =>
      obtain ⟨cs, live, outside, place⟩ := ok
      obtain ⟨cs', -, rfl, lives⟩ := kept.locked cs
      exact ⟨cs', lives garbage live, outside, place⟩
  | leave => exact (kept.locked ok).1

theorem GetOk.frame {p : GetPc} (ok : GetOk s chain tid p)
    (kept : Kept s s' chain chain' tid) : GetOk s' chain' tid p := by
  cases p with
  | enter => trivial
  | init | leave rc => exact (kept.locked ok).1
  | forCond t | readId t | advance t =>
      obtain ⟨cs, member⟩ := ok
      obtain ⟨cs', -, rfl, -⟩ := kept.locked cs
      exact ⟨cs', member⟩

theorem PcOk.frame (ok : PcOk s chain tid pc) (found : s.pc tid = some pc)
    (kept : Kept s s' chain chain' tid) : PcOk s' chain' tid pc := by
  cases pc with
  | user | faulted => trivial
  | create c p =>
      intro t node
      have before : CreateOk s chain tid c p t := ok t node
      refine before.frame kept ?_
      simp [Proc.inCall, before.creator, found, node]
  | main c p => exact MainOk.frame ok kept
  | detach p => exact DetachOk.frame ok kept
  | getThreadId h p => exact GetOk.frame ok kept

/-- A step, when what it leaves to the threads and what the threads rely on that it
moves are known. -/
theorem Proc.Ok.moveAll (ok : s.Ok chain) (lists : s'.Lists chain')
    (handles : ∀ t ∈ chain'.nodes, (s'.node t.addr).threadHandle ≠ getCurrentThread)
    (nobody : s'.pc 0 = none)
    (threads : ∀ tid pc, s'.pc tid = some pc → PcOk s' chain' tid pc ∨
      s.pc tid = some pc ∧ (tid ≠ 0 → Kept s s' chain chain' tid)) : s'.Ok chain' := by
  refine ⟨lists, handles, nobody, fun tid pc found => ?_⟩
  obtain moved | ⟨before, kept⟩ := threads tid pc found
  · exact moved
  · have ne : tid ≠ 0 := by
      rintro rfl
      rw [nobody] at found
      cases found
    exact (ok.threads tid pc before).frame before (kept ne)

theorem Kept.goto (kept : Kept s s' chain chain' tid) : Kept s (s'.goto actor pc) chain chain' tid :=
  ⟨kept.locked, kept.live, kept.outside, kept.inside, kept.core, kept.own⟩

/-- A step that moves one thread. -/
theorem Proc.Ok.move (ok : s.Ok chain) (here : actor ≠ 0) (pcs : s'.pc = s.pc)
    (lists : s'.Lists chain')
    (handles : ∀ t ∈ chain'.nodes, (s'.node t.addr).threadHandle ≠ getCurrentThread)
    (kept : ∀ tid, tid ≠ 0 → tid ≠ actor → Kept s s' chain chain' tid)
    (own : PcOk (s'.goto actor pc) chain' actor pc) : (s'.goto actor pc).Ok chain' := by
  refine ok.moveAll lists handles ?_ fun tid pc' found => ?_
  · rw [Proc.goto_pc_ne here.symm, pcs]
    exact ok.nobody
  · by_cases same : tid = actor
    · subst same
      rw [Proc.goto_pc_self, Option.some.injEq] at found
      exact .inl (found ▸ own)
    · rw [Proc.goto_pc_ne same, pcs] at found
      exact .inr ⟨found, fun ne => (kept tid ne same).goto⟩

/-- The memory and the list stay as they are. -/
theorem Kept.same (node : s'.node = s.node) (block : s'.block = s.block)
    (threads : s'.threads = s.threads) (cs : s.cs = some tid → s'.cs = some tid) :
    Kept s s' chain chain tid where
  locked h := ⟨cs h, threads, rfl, fun t live => by rwa [Proc.Live, block]⟩
  live t _ _ live := by rwa [Proc.Live, block]
  outside t _ _ outside := ⟨outside, by rw [node]⟩
  inside t _ member _ := member
  core t _ _ := by rw [node]
  own t member threadId := ⟨member, by rw [node, threadId], by rw [node]⟩

/-- A creating function writes to its own node. -/
theorem Kept.setNode (lists : s.Lists chain) (zero : tid ≠ 0) (ne : tid ≠ actor) (live : s.Live t)
    (owner : t.creator = actor)
    (same : t ∈ chain.nodes → (s.node t.addr).threadId = 0 ∨
      (f (s.node t.addr)).threadId = (s.node t.addr).threadId ∧
      (f (s.node t.addr)).task = (s.node t.addr).task) :
    Kept s (s.setNode t f) chain chain tid := by
  have other : ∀ u, u.creator = tid → u ≠ t := by
    rintro u creator rfl
    exact ne (creator.symm.trans owner)
  constructor
  case locked => exact fun cs => ⟨cs, rfl, rfl, fun _ live => live⟩
  case live => exact fun _ _ _ live => live
  case outside =>
    exact fun u creator hu outside => ⟨outside, by rw [Proc.setNode_ne live hu (other u creator)]⟩
  case inside => exact fun _ _ member _ => member
  case core => exact fun u creator hu => by rw [Proc.setNode_ne live hu (other u creator)]
  case own =>
    intro u member threadId
    by_cases here : u = t
    · subst here
      obtain unset | ⟨sameId, sameTask⟩ := same member
      · exact absurd (threadId.symm.trans unset) zero
      · rw [Proc.setNode_same]
        exact ⟨member, sameId.trans threadId, sameTask⟩
    · rw [Proc.setNode_ne live (lists.live member) here]
      exact ⟨member, threadId, rfl⟩

theorem Kept.push (cs : s.cs = some actor) (ne : tid ≠ actor) (owner : t.creator = actor) :
    Kept s { s with threads := some t } chain ((t, ()) :: chain) tid := by
  constructor
  case locked => exact fun mine => absurd (Option.some.inj (mine.symm.trans cs)) ne
  case live => exact fun _ _ _ live => live
  case outside =>
    intro u creator _ outside
    refine ⟨fun member => ?_, rfl⟩
    obtain here | inside := List.mem_cons.mp member
    · subst here
      exact ne (creator.symm.trans owner)
    · exact outside inside
  case inside => exact fun _ _ member _ => List.mem_cons_of_mem _ member
  case core => exact fun _ _ _ => rfl
  case own => exact fun _ member threadId => ⟨List.mem_cons_of_mem _ member, threadId, rfl⟩

/-- Links do not concern the contents of a node. -/
theorem Proc.write_core (addr : Dword) (r : Option NodePtr) :
    ((s.write l r).node addr).core = (s.node addr).core := by
  cases l with
  | head i => rfl
  | next p =>
      by_cases same : addr = p.addr
      · subst same
        rw [Proc.write, Proc.setNode_same]
        rfl
      · rw [Proc.write, Proc.setNode_other same]

theorem Proc.write_threadId (addr : Dword) (r : Option NodePtr) :
    ((s.write l r).node addr).threadId = (s.node addr).threadId := by
  have core : ((s.write l r).node addr).core = (s.node addr).core := Proc.write_core addr r
  injection core

theorem Proc.write_cs (r : Option NodePtr) : (s.write l r).cs = s.cs := by
  cases l <;> rfl

theorem Proc.write_block (r : Option NodePtr) : (s.write l r).block = s.block := by
  cases l <;> rfl

theorem Proc.write_pc (r : Option NodePtr) : (s.write l r).pc = s.pc := by
  cases l <;> rfl

/-- A thread that ends takes its own node off the list. -/
theorem Kept.unlink {before after : Chain} {r : Option NodePtr} (lists : s.Lists chain)
    (cs : s.cs = some actor) (zero : actor ≠ 0) (ne : tid ≠ actor)
    (split : chain = before ++ (t, ()) :: after) (threadId : (s.node t.addr).threadId = actor) :
    Kept s (s.write (linkAfter () before) r) chain (before ++ after) tid := by
  have stays : ∀ u ∈ chain.nodes, (s.node u.addr).threadId ≠ actor →
      u ∈ Chain.nodes (before ++ after) := by
    intro u member other
    have apart : u ≠ t := by
      rintro rfl
      exact other threadId
    simpa [split, Chain.nodes, apart] using member
  have sub : ∀ u, u ∈ Chain.nodes (before ++ after) → u ∈ chain.nodes := by
    intro u member
    simp only [split, Chain.nodes, List.map_append, List.map_cons, List.mem_append,
      List.mem_cons] at member ⊢
    exact member.imp_right .inr
  constructor
  case locked => exact fun mine => absurd (Option.some.inj (mine.symm.trans cs)) ne
  case live => exact fun u _ _ live => by rwa [Proc.Live, Proc.write_block]
  case outside =>
    intro u _ live outside
    refine ⟨fun member => outside (sub u member), ?_⟩
    have apart : ∀ p, linkAfter () before = .next p → u.addr ≠ p.addr := by
      intro p next same
      have front : p ∈ before.map Prod.fst := by
        by_contra absent
        exact linkAfter_ne absent next
      have member : p ∈ chain.nodes := by
        rw [split, Chain.nodes, List.map_append]
        exact List.mem_append_left _ front
      rw [live.eq (lists.live member) same] at outside
      exact outside member
    cases place : linkAfter () before with
    | head i => rfl
    | next p => rw [Proc.write, Proc.setNode_other (apart p place)]
  case inside =>
    intro u _ member unset
    exact stays u member (by rw [unset]; exact zero.symm)
  case core => exact fun u _ _ => Proc.write_core u.addr r
  case own =>
    intro u member mine
    refine ⟨stays u member (by rw [mine]; exact ne), ?_, ?_⟩
    · rw [Proc.write_threadId, mine]
    · exact ThreadNode.task_eq (Proc.write_core u.addr r)

/-- A block comes to an address where none is. -/
theorem Kept.heapAlloc {addr : Dword} (free : s.block addr = none) :
    Kept s (s.heapAlloc actor addr) chain chain tid := by
  have lives : ∀ u, s.Live u → (s.heapAlloc actor addr).Live u := by
    intro u live
    have apart : u.addr ≠ addr := by
      rintro rfl
      rw [Proc.Live, free] at live
      cases live
    simpa [Proc.Live, Proc.heapAlloc, Proc.setBlock, apart] using live
  exact ⟨fun cs => ⟨cs, rfl, rfl, lives⟩, fun u _ _ live => lives u live,
    fun _ _ _ outside => ⟨outside, rfl⟩, fun _ _ member _ => member, fun _ _ _ => rfl,
    fun _ member threadId => ⟨member, threadId, rfl⟩⟩

/-- A node is freed that no call needs. -/
theorem Kept.heapFree (cs : s.cs = some actor) (ne : tid ≠ actor) (live : s.Live t)
    (returned : s.inCall t = false) : Kept s (s.setBlock t.addr none) chain chain tid := by
  constructor
  case locked => exact fun mine => absurd (Option.some.inj (mine.symm.trans cs)) ne
  case live =>
    intro u _ inCall hu
    have apart : u.addr ≠ t.addr := by
      intro same
      rw [hu.eq live same, returned] at inCall
      cases inCall
    simpa [Proc.Live, Proc.setBlock, apart] using hu
  case outside => exact fun _ _ _ outside => ⟨outside, rfl⟩
  case inside => exact fun _ _ member _ => member
  case core => exact fun _ _ _ => rfl
  case own => exact fun _ member threadId => ⟨member, threadId, rfl⟩

/-- Memory outside of the blocks is not used. -/
theorem Kept.otherMemory {addr : Dword} {n : ThreadNode} (lists : s.Lists chain)
    (free : s.block addr = none) :
    Kept s { s with node := Function.update s.node addr n } chain chain tid := by
  have same : ∀ u, s.Live u → Function.update s.node addr n u.addr = s.node u.addr := by
    intro u live
    refine Function.update_of_ne ?_ ..
    rintro rfl
    rw [Proc.Live, free] at live
    cases live
  constructor
  case locked => exact fun cs => ⟨cs, rfl, rfl, fun _ live => live⟩
  case live => exact fun _ _ _ live => live
  case outside => exact fun u _ live outside => ⟨outside, congrArg ThreadNode.prev (same u live)⟩
  case inside => exact fun _ _ member _ => member
  case core => exact fun u _ live => congrArg ThreadNode.core (same u live)
  case own =>
    intro u member threadId
    have kept := same u (lists.live member)
    exact ⟨member, (congrArg ThreadNode.threadId kept).trans threadId,
      congrArg ThreadNode.task kept⟩

/-! ## The statements -/

attribute [local simp] CreatePc.rank CreatePc.given CreatePc.node getCurrentThread
  ThreadNode.zero ThreadNode.task

theorem Proc.Ok.own (ok : s.Ok chain) {p : CreatePc} (found : s.pc tid = some (.create c p))
    (node : p.node = some t) : CreateOk s chain tid c p t :=
  ok.threads tid _ found t node

theorem Proc.Ok.somebody (ok : s.Ok chain) (found : s.pc tid = some pc) : tid ≠ 0 := by
  rintro rfl
  rw [ok.nobody] at found
  cases found

/-- A statement that changes at most the owner of the critical section. -/
theorem Proc.Ok.stay {pc' : Pc} (ok : s.Ok chain) (found : s.pc actor = some pc) (new : Proc)
    (node : new.node = s.node) (block : new.block = s.block) (threads : new.threads = s.threads)
    (pcs : new.pc = s.pc) (cs : ∀ tid, tid ≠ actor → s.cs = some tid → new.cs = some tid)
    (own : PcOk (new.goto actor pc') chain actor pc') : (new.goto actor pc').Ok chain := by
  refine ok.move (ok.somebody found) pcs (ok.lists.congr (Proc.store_eq threads block node)) ?_
    (fun tid _ ne => .same node block threads (cs tid ne)) own
  rw [node]
  exact ok.handles

theorem Proc.Ok.goto {pc' : Pc} (ok : s.Ok chain) (found : s.pc actor = some pc)
    (own : PcOk (s.goto actor pc') chain actor pc') : (s.goto actor pc').Ok chain :=
  ok.stay found s rfl rfl rfl rfl (fun _ _ mine => mine) own

/-- `EnterCriticalSection` -/
theorem Proc.Ok.enterCs {pc' : Pc} (ok : s.Ok chain) (found : s.pc actor = some pc)
    (h : s.enterCs actor pc' = some s')
    (own : PcOk ({ s with cs := some actor }.goto actor pc') chain actor pc') : s'.Ok chain := by
  obtain ⟨free, same⟩ := Option.ite_none_right_eq_some.mp h
  obtain rfl := Option.some.inj same
  refine ok.stay found { s with cs := some actor } rfl rfl rfl rfl (fun tid _ mine => ?_) own
  rw [free] at mine
  cases mine

/-- `LeaveCriticalSection` -/
theorem Proc.Ok.leaveCs {pc' : Pc} (ok : s.Ok chain) (found : s.pc actor = some pc)
    (mine : s.cs = some actor) (own : PcOk (s.leaveCs.goto actor pc') chain actor pc') :
    (s.leaveCs.goto actor pc').Ok chain :=
  ok.stay found s.leaveCs rfl rfl rfl rfl
    (fun _ ne other => absurd (Option.some.inj (other.symm.trans mine)) ne) own

theorem Proc.Ok.handles_setNode (ok : s.Ok chain) (live : s.Live t)
    (handle : t ∈ chain.nodes → (f (s.node t.addr)).threadHandle ≠ getCurrentThread) :
    ∀ u ∈ chain.nodes, ((s.setNode t f).node u.addr).threadHandle ≠ getCurrentThread := by
  intro u member
  by_cases same : u = t
  · subst same
    rw [Proc.setNode_same]
    exact handle member
  · rw [Proc.setNode_ne live (ok.lists.live member) same]
    exact ok.handles u member

/-- A creating function writes to its own node and goes on. -/
theorem Proc.Ok.write {p q : CreatePc} (ok : s.Ok chain) (found : s.pc tid = some (.create c p))
    (node : p.node = some t) (next : q.node = some t)
    (same : t ∈ chain.nodes → (f (s.node t.addr)).prev = (s.node t.addr).prev ∧
      ((s.node t.addr).threadId = 0 ∨ (f (s.node t.addr)).threadId = (s.node t.addr).threadId ∧
        (f (s.node t.addr)).task = (s.node t.addr).task) ∧
      (f (s.node t.addr)).threadHandle ≠ getCurrentThread)
    (own : CreateOk (s.setNode t f) chain tid c q t) :
    ((s.setNode t f).goto tid (.create c q)).Ok chain := by
  have before := ok.own found node
  refine ok.move (ok.somebody found) rfl (ok.lists.setNode before.live fun member => (same member).1)
    (ok.handles_setNode before.live fun member => (same member).2.2)
    (fun other zero ne => .setNode ok.lists zero ne before.live before.creator
      fun member => (same member).2.1) ?_
  intro u node'
  obtain rfl : t = u := Option.some.inj (next.symm.trans node')
  exact ⟨own.live, own.creator, own.unlinked, own.linked, own.prev, own.cs, own.threadId,
    own.threadHandle, own.tmain, own.tmainType, own.param, own.proper, own.asked, own.stored⟩

/-- Before `CreateThread`, the node does not belong to a thread. -/
theorem CreateOk.idle {p : CreatePc} (ok : CreateOk s chain tid c p t) (low : 2 ≤ p.rank)
    (high : p.rank ≤ 9) : (s.node t.addr).threadId = 0 ∧ (s.node t.addr).threadHandle = 0 := by
  constructor
  · rw [ok.threadId low, CreatePc.given_none high]
    rfl
  · rw [ok.threadHandle low, if_pos (by omega)]

/-- After `CreateThread` and the store of the handle, the statements only read the node. -/
theorem CreateOk.skip {p q : CreatePc} (ok : CreateOk s chain tid c p t)
    (given : q.given = p.given) (late : 11 ≤ p.rank ∧ p.rank < q.rank)
    (asked : q.rank = 12 → c.wantsId = true)
    (stored : ∀ given stored, q = .ret t given stored → stored =
      if c.wantsId then some ((given.map Given.id).getD 0) else none) :
    CreateOk (s.goto actor pc) chain tid c q t := by
  have early : ¬ q.rank ≤ 10 := by omega
  have own : ¬ p.rank ≤ 10 := by omega
  constructor
  case live => exact ok.live
  case creator => exact ok.creator
  case unlinked => exact fun _ => by omega
  case linked => exact fun _ _ => by omega
  case prev => exact fun _ => by omega
  case cs => exact fun _ _ => by omega
  case threadId => exact fun _ => given ▸ ok.threadId (by omega)
  case threadHandle =>
    intro _
    rw [if_neg early, given]
    have handle := ok.threadHandle (by omega)
    rwa [if_neg own] at handle
  case tmain => exact fun _ => ok.tmain (by omega)
  case tmainType => exact fun _ => ok.tmainType (by omega)
  case param => exact fun _ => ok.param (by omega)
  case proper => exact given ▸ ok.proper
  case asked => exact asked
  case stored => exact stored

/-- The list after a statement of a creating function. -/
def CreatePc.after (chain : Chain) : CreatePc → Chain
  | .setThreads t => (t, ()) :: chain
  | _ => chain

/-- The list after a statement of `smp9x_thread_info_detach`. -/
def DetachPc.after (chain : Chain) : DetachPc → Chain
  | .unlink _ garbage => chain.filter (·.1 ≠ garbage)
  | _ => chain

/-- The list after an action. -/
def listAfter (s : Proc) (chain : Chain) : Action → Chain
  | .next tid => match s.pc tid with
      | some (.create _ p) => p.after chain
      | some (.detach p) => p.after chain
      | _ => chain
  | _ => chain

theorem Proc.Ok.createStep {p : CreatePc} (ok : s.Ok chain) (found : s.pc tid = some (.create c p))
    (h : createStep s tid c p = some s') : s'.Ok (p.after chain) := by
  cases p with
  | heapAlloc => cases h
  | memset t =>
      obtain rfl := Option.some.inj h
      have own := ok.own found rfl
      have outside := own.unlinked (by simp)
      refine ok.write found rfl rfl (fun member => absurd member outside) ?_
      constructor
      case live => exact own.live
      all_goals simp [own.creator, outside]
  | setPrev t =>
      obtain rfl := Option.some.inj h
      have own := ok.own found rfl
      have outside := own.unlinked (by simp)
      have cs := own.cs (by simp) (by simp)
      obtain ⟨id, handle⟩ := own.idle (by simp) (by simp)
      refine ok.write found rfl rfl (fun member => absurd member outside) ?_
      constructor
      case live => exact own.live
      case cs => exact fun _ _ => cs
      case prev => exact fun _ => by rw [Proc.setNode_same]; rfl
      all_goals simp [own.creator, outside, id, handle]
  | setTmain t =>
      obtain rfl := Option.some.inj h
      have own := ok.own found rfl
      obtain ⟨id, handle⟩ := own.idle (by simp) (by simp)
      have linked := own.linked (by simp) (by simp)
      refine ok.write found rfl rfl (by simp [id, handle]) ?_
      constructor
      case live => exact own.live
      all_goals simp [own.creator, linked, id, handle]
  | setTmainType t =>
      obtain rfl := Option.some.inj h
      have own := ok.own found rfl
      obtain ⟨id, handle⟩ := own.idle (by simp) (by simp)
      have linked := own.linked (by simp) (by simp)
      have tmain := own.tmain (by simp)
      refine ok.write found rfl rfl (by simp [id, handle]) ?_
      constructor
      case live => exact own.live
      all_goals simp [own.creator, linked, id, handle, tmain]
  | setParam t =>
      obtain rfl := Option.some.inj h
      have own := ok.own found rfl
      obtain ⟨id, handle⟩ := own.idle (by simp) (by simp)
      have linked := own.linked (by simp) (by simp)
      have tmain := own.tmain (by simp)
      have type := own.tmainType (by simp)
      refine ok.write found rfl rfl (by simp [id, handle]) ?_
      constructor
      case live => exact own.live
      all_goals simp [own.creator, linked, id, handle, tmain, type]
  | createThread t => cases h
  | setHandle t given =>
      obtain rfl := Option.some.inj h
      have own := ok.own found rfl
      have id := own.threadId (by simp)
      have tmain := own.tmain (by simp)
      have type := own.tmainType (by simp)
      have param := own.param (by simp)
      refine ok.write found rfl rfl (fun _ => ⟨rfl, .inr ⟨rfl, rfl⟩, ?_⟩) ?_
      · cases given with
        | none => simp
        | some g => simpa using (own.proper g rfl).2.2
      · constructor
        case live => exact own.live
        case proper => exact own.proper
        case threadId => exact fun _ => by rw [Proc.setNode_same]; exact id
        all_goals simp [own.creator, tmain, type, param]
  | enter t =>
      have own := ok.own found rfl
      have outside := own.unlinked (by simp)
      obtain ⟨id, handle⟩ := own.idle (by simp) (by simp)
      refine ok.enterCs found h ?_
      rintro t' ⟨⟩
      constructor
      case live => exact own.live
      case cs => exact fun _ _ => rfl
      case threadId => exact fun _ => id
      case threadHandle => exact fun _ => handle
      all_goals simp [own.creator, outside]
  | setThreads t =>
      obtain rfl := Option.some.inj h
      have own := ok.own found rfl
      have outside := own.unlinked (by simp)
      have cs := own.cs (by simp) (by simp)
      obtain ⟨id, handle⟩ := own.idle (by simp) (by simp)
      refine ok.move (ok.somebody found) rfl
        (ok.lists.push own.live outside (own.prev rfl)) ?_
        (fun tid _ ne => .push cs ne own.creator) ?_
      · intro u member
        obtain here | inside := List.mem_cons.mp member
        · subst here
          rw [handle]
          decide
        · exact ok.handles u inside
      · rintro t' ⟨⟩
        constructor
        case live => exact own.live
        case cs => exact fun _ _ => cs
        case linked => exact fun _ _ => List.mem_cons_self
        case threadId => exact fun _ => id
        case threadHandle => exact fun _ => handle
        all_goals simp [own.creator]
  | leave t =>
      obtain rfl := Option.some.inj h
      have own := ok.own found rfl
      have cs := own.cs (by simp) (by simp)
      have linked := own.linked (by simp) (by simp)
      obtain ⟨id, handle⟩ := own.idle (by simp) (by simp)
      refine ok.leaveCs found cs ?_
      rintro t' ⟨⟩
      constructor
      case live => exact own.live
      case threadId => exact fun _ => id
      case threadHandle => exact fun _ => handle
      all_goals simp [own.creator, linked]
  | testHandle t given =>
      have own := ok.own found rfl
      simp only [ThreadInfo.createStep] at h
      split at h
      · obtain rfl := Option.some.inj h
        refine ok.goto found ?_
        cases asked : c.wantsId with
        | true =>
            rintro t' ⟨⟩
            exact own.skip rfl (by simp) (fun _ => asked) (by simp)
        | false =>
            rintro t' ⟨⟩
            exact own.skip rfl (by simp) (by simp) (by simp [asked])
      · obtain rfl := Option.some.inj h
        exact ok.goto found trivial
  | readId t given =>
      obtain rfl := Option.some.inj h
      have own := ok.own found rfl
      have asked := own.asked rfl
      have id := own.threadId (by simp)
      refine ok.goto found ?_
      rintro t' ⟨⟩
      exact own.skip rfl (by simp) (by simp) (by simp [asked, id])
  | ret t given stored =>
      obtain rfl := Option.some.inj h
      exact ok.goto found trivial

theorem Proc.Ok.heapAlloc {result : Option Dword} (ok : s.Ok chain)
    (found : s.pc tid = some (.create c .heapAlloc))
    (h : heapAllocStep s tid c result = some s') : s'.Ok chain := by
  cases result with
  | none =>
      obtain rfl := Option.some.inj h
      exact ok.goto found trivial
  | some addr =>
      obtain ⟨⟨_, free⟩, same⟩ := Option.ite_none_right_eq_some.mp h
      obtain rfl := Option.some.inj same
      have apart : ∀ u ∈ chain.nodes, u.addr ≠ addr := by
        rintro u member rfl
        have live := ok.lists.live member
        rw [Proc.Live, free] at live
        cases live
      refine ok.move (ok.somebody found) rfl (ok.lists.setBlock apart)
        ok.handles (fun _ _ _ => .heapAlloc free) ?_
      rintro t ⟨⟩
      constructor
      case live => exact Function.update_self ..
      case unlinked => exact fun _ member => apart _ member rfl
      all_goals simp

/-- `CreateThread` stores the id of the new thread, which then relies on the node. -/
theorem Proc.Ok.createThread {result : Option Given} (ok : s.Ok chain)
    (found : s.pc tid = some (.create c (.createThread t)))
    (h : createThreadStep s tid c t result = some s') : s'.Ok chain := by
  have own := ok.own found rfl
  have linked := own.linked (by simp) (by simp)
  obtain ⟨id, handle⟩ := own.idle (by simp) (by simp)
  have tmain := own.tmain (by simp)
  have type := own.tmainType (by simp)
  have param := own.param (by simp)
  cases result with
  | none =>
      obtain rfl := Option.some.inj h
      refine ok.goto found ?_
      rintro t' ⟨⟩
      constructor
      case live => exact own.live
      case threadId => exact fun _ => id
      case threadHandle => exact fun _ => handle
      case tmain => exact fun _ => tmain
      case tmainType => exact fun _ => type
      case param => exact fun _ => param
      all_goals simp [own.creator]
  | some g =>
      obtain ⟨⟨zero, unusedId, proper⟩, same⟩ := Option.ite_none_right_eq_some.mp h
      obtain rfl := Option.some.inj same
      have lists := ok.lists.setNode (f := fun n => { n with threadId := g.id }) own.live fun _ => rfl
      have handles : ∀ u ∈ chain.nodes, ((s.setNode t fun n =>
          { n with threadId := g.id }).node u.addr).threadHandle ≠ getCurrentThread := by
        refine ok.handles_setNode own.live fun _ => ?_
        rw [handle]
        decide
      have node : (s.setNode t fun n => { n with threadId := g.id }).node t.addr =
          { s.node t.addr with threadId := g.id } := Proc.setNode_same
      refine ok.moveAll lists handles ?_ fun tid' pc' found' => ?_
      · rw [Proc.goto_pc_ne (ok.somebody found).symm, Proc.goto_pc_ne zero.symm]
        exact ok.nobody
      · by_cases here : tid' = tid
        · subst here
          rw [Proc.goto_pc_self, Option.some.injEq] at found'
          subst found'
          refine .inl ?_
          rintro t' ⟨⟩
          constructor
          case live => exact own.live
          case proper => rintro _ ⟨⟩; exact proper
          case threadId => exact fun _ => congrArg ThreadNode.threadId node
          case threadHandle => exact fun _ => (congrArg ThreadNode.threadHandle node).trans handle
          case tmain => exact fun _ => (congrArg ThreadNode.tmain node).trans tmain
          case tmainType => exact fun _ => (congrArg ThreadNode.tmainType node).trans type
          case param => exact fun _ => (congrArg ThreadNode.param node).trans param
          all_goals simp [own.creator]
        · rw [Proc.goto_pc_ne here] at found'
          by_cases new : tid' = g.id
          · subst new
            rw [Proc.goto_pc_self, Option.some.injEq] at found'
            subst found'
            refine .inl ⟨linked, ?_, ?_, ?_, ?_⟩
            · exact congrArg ThreadNode.threadId node
            · refine (congrArg ThreadNode.task node).trans ?_
              simp [Call.task, tmain, type, param]
            · rintro _ _ ⟨⟩
            · rintro _ _ _ ⟨⟩
          · rw [Proc.goto_pc_ne new] at found'
            exact .inr ⟨found', fun zero => (Kept.setNode ok.lists zero here own.live own.creator
              fun _ => .inl id).goto.goto⟩

theorem Proc.Ok.mainStep {p : MainPc} (ok : s.Ok chain) (found : s.pc tid = some (.main c p)) :
    (mainStep s tid c p).Ok chain := by
  have own : MainOk s chain tid c p := ok.threads tid _ found
  have task := own.task
  simp only [ThreadNode.task, Call.task, Prod.mk.injEq] at task
  cases p with
  | tmainType t =>
      refine ok.goto found ?_
      split
      · refine ⟨own.linked, own.threadId, own.task, ?_, ?_⟩
        · rintro t' type ⟨⟩
          exact task.1
        · rintro t' type start ⟨⟩
      · trivial
  | tmain t type =>
      refine ok.goto found ⟨own.linked, own.threadId, own.task, ?_, ?_⟩
      · rintro t' type' ⟨⟩
      · rintro t' type' start ⟨⟩
        exact ⟨own.type t type rfl, task.2.1⟩
  | param t type start => exact ok.goto found trivial

/-- The place after a node. -/
theorem Place.next {after : Chain} (place : Place chain l ((t, ()) :: after)) :
    Place chain (.next t) after := by
  obtain ⟨before, split, -⟩ := place
  exact ⟨before ++ [(t, ())], by simp [split], by simp [linkAfter]⟩

theorem Place.sub {before after : Chain} (split : chain = before ++ (t, ()) :: after)
    (member : u ∈ Chain.nodes (before ++ after)) : u ∈ chain.nodes := by
  simp only [split, Chain.nodes, List.map_append, List.map_cons, List.mem_append,
    List.mem_cons] at member ⊢
  exact member.imp_right .inr

/-- Taking a node off the list leaves the others in their order. -/
theorem filter_split {before after : Chain} (split : chain = before ++ (t, ()) :: after)
    (nodup : chain.nodes.Nodup) : chain.filter (·.1 ≠ t) = before ++ after := by
  rw [split, Chain.nodes, List.map_append, List.map_cons, List.nodup_middle, List.nodup_cons,
    List.mem_append, not_or] at nodup
  obtain ⟨⟨front, back⟩, -⟩ := nodup
  have stays {part : Chain} (absent : t ∉ part.nodes) : part.filter (·.1 ≠ t) = part := by
    refine List.filter_eq_self.mpr fun e member => decide_eq_true ?_
    rintro rfl
    exact absent (List.mem_map_of_mem member)
  rw [split, List.filter_append, List.filter_cons_of_neg (by simp), stays front, stays back]

/-- `smp9x_thread_info_detach` works on the list, and frees no node of a call that has
not returned. -/
theorem Proc.Ok.detachStep {p : DetachPc} (ok : s.Ok chain) (found : s.pc tid = some (.detach p))
    (returned : ∀ t garbage, p = .heapFree t garbage → s.inCall garbage = false)
    (h : detachStep s tid p = some s') : s'.Ok (p.after chain) := by
  have own : DetachOk s chain tid p := ok.threads tid _ found
  have zero := ok.somebody found
  cases p with
  | enter =>
      exact ok.enterCs found h ⟨rfl, chain, [], rfl, rfl⟩
  | whileCond t =>
      obtain ⟨cs, after, place⟩ := own
      obtain rfl := Option.some.inj h
      refine ok.goto found ?_
      have read := ok.lists.read place
      cases after with
      | nil =>
          have null : s.read t = none := read
          rw [if_pos null]
          exact cs
      | cons e after =>
          rw [read, if_neg (by simp [first])]
          exact ⟨cs, e.1, after, place⟩
  | testHandle t =>
      obtain ⟨cs, p, after, place⟩ := own
      obtain rfl := ok.lists.map_read place h
      refine ok.goto found ?_
      rw [if_neg (ok.handles p place.mem)]
      exact ⟨cs, p, after, place⟩
  | testId t =>
      obtain ⟨cs, p, after, place⟩ := own
      obtain rfl := ok.lists.map_read place h
      refine ok.goto found ?_
      split
      · rename_i mine
        exact ⟨cs, p, after, place, mine⟩
      · exact ⟨cs, p, after, place⟩
  | setGarbage t =>
      obtain ⟨cs, p, after, place, mine⟩ := own
      obtain rfl := ok.lists.map_read place h
      exact ok.goto found ⟨cs, after, place, mine⟩
  | unlink t garbage =>
      obtain ⟨cs, after, ⟨before, split, rfl⟩, mine⟩ := own
      obtain rfl := Option.some.inj h
      have live : s.Live garbage := by
        refine ok.lists.live ?_
        simp [split, Chain.nodes]
      have apart : garbage ∉ Chain.nodes (before ++ after) := by
        have nodup := ok.lists.nodup
        rw [split, Chain.nodes, List.map_append, List.map_cons, List.nodup_middle,
          List.nodup_cons] at nodup
        simpa [Chain.nodes] using nodup.1
      rw [DetachPc.after, filter_split split ok.lists.nodup]
      refine ok.move zero (Proc.write_pc _) (ok.lists.unlink split) ?_
        (fun _ _ ne => .unlink ok.lists cs zero ne split mine) ?_
      · intro u member
        have core := Proc.write_core (s := s) (l := linkAfter () before) u.addr
          (s.node garbage.addr).prev
        have handle := congrArg ThreadNode.threadHandle core
        exact handle.trans_ne (ok.handles u (Place.sub split member))
      · refine ⟨(Proc.write_cs _).trans cs, ?_, apart, after, before, rfl, rfl⟩
        exact (congrFun (Proc.write_block _) garbage.addr).trans live
  | heapFree t garbage =>
      obtain ⟨cs, live, outside, after, place⟩ := own
      obtain rfl := Option.some.inj h
      have apart : ∀ u ∈ chain.nodes, u.addr ≠ garbage.addr := by
        intro u member same
        rw [(ok.lists.live member).eq live same] at member
        exact outside member
      exact ok.move zero rfl (ok.lists.setBlock apart) ok.handles
        (fun _ _ ne => .heapFree cs ne live (returned t garbage rfl)) ⟨cs, after, place⟩
  | advance t =>
      obtain ⟨cs, p, after, place⟩ := own
      obtain rfl := ok.lists.map_read place h
      exact ok.goto found ⟨cs, after, place.next⟩
  | leave =>
      obtain rfl := Option.some.inj h
      refine ok.moveAll (ok.lists.congr (Proc.store_eq rfl rfl rfl)) ok.handles ?_
        fun tid' pc' found' => ?_
      · exact (Function.update_of_ne zero.symm ..).trans ok.nobody
      · by_cases here : tid' = tid
        · subst here
          change Function.update s.pc tid' none tid' = some pc' at found'
          rw [Function.update_self] at found'
          cases found'
        · change Function.update s.pc tid none tid' = some pc' at found'
          rw [Function.update_of_ne here] at found'
          refine .inr ⟨found', fun _ => .same rfl rfl rfl fun mine => ?_⟩
          exact absurd (Option.some.inj (mine.symm.trans own)) here

theorem Proc.Ok.getThreadIdStep {h : Dword} {p : GetPc} (ok : s.Ok chain)
    (found : s.pc tid = some (.getThreadId h p)) (step : getThreadIdStep s tid h p = some s') :
    s'.Ok chain := by
  have own : GetOk s chain tid p := ok.threads tid _ found
  cases p with
  | enter => exact ok.enterCs found step rfl
  | init =>
      obtain rfl := Option.some.inj step
      refine ok.goto found ⟨own, fun p head => ?_⟩
      rw [show s.threads = first chain from Represents.head_eq ok.lists ()] at head
      exact List.mem_of_mem_head? (by simpa [Chain.nodes, first] using head)
  | forCond t =>
      cases t with
      | none =>
          obtain rfl := Option.some.inj step
          exact ok.goto found own.1
      | some t =>
          obtain rfl := Option.some.inj step
          refine ok.goto found ?_
          have member := own.2 t rfl
          split
          · exact ⟨own.1, member⟩
          · exact ⟨own.1, member⟩
  | readId t =>
      obtain rfl := Option.some.inj step
      exact ok.goto found own.1
  | advance t =>
      obtain rfl := Option.some.inj step
      refine ok.goto found ⟨own.1, fun p prev => ?_⟩
      obtain ⟨⟨t, ⟨⟩⟩, entry, rfl⟩ := List.mem_map.mp own.2
      obtain ⟨before, after, split⟩ := List.append_of_mem entry
      have live := ok.lists.live own.2
      have found := Represents.cell_eq (i := ()) ok.lists split
      have next : (s.node t.addr).prev = first after := by simpa [Proc.store, live] using found
      rw [next] at prev
      have behind : p ∈ Chain.nodes after :=
        List.mem_of_mem_head? (by simpa [Chain.nodes, first] using prev)
      rw [split, Chain.nodes, List.map_append, List.map_cons]
      exact List.mem_append_right _ (List.mem_cons_of_mem _ behind)
  | leave rc =>
      obtain rfl := Option.some.inj step
      exact ok.leaveCs found own trivial

theorem Proc.Ok.next (ok : s.Ok chain) (found : s.pc tid = some pc)
    (good : freesReturned s (.next tid) = true) (h : nextStep s tid pc = some s') :
    s'.Ok (listAfter s chain (.next tid)) := by
  rw [listAfter, found]
  cases pc with
  | user | faulted => cases h
  | create c p => exact ok.createStep found h
  | main c p =>
      obtain rfl := Option.some.inj h
      exact ok.mainStep found
  | detach p =>
      refine ok.detachStep found ?_ h
      rintro t garbage rfl
      simpa [freesReturned, found] using good
  | getThreadId handle p => exact ok.getThreadIdStep found h

theorem Proc.Ok.step (ok : s.Ok chain) (good : freesReturned s a = true) (h : Step s a s') :
    s'.Ok (listAfter s chain a) := by
  change ThreadInfo.step s a = some s' at h
  cases a with
  | foreignThread tid =>
      obtain ⟨⟨zero, _⟩, same⟩ := Option.ite_none_right_eq_some.mp h
      obtain rfl := Option.some.inj same
      refine ok.move zero rfl ok.lists ok.handles (fun _ _ _ => ?_) trivial
      exact .same rfl rfl rfl fun mine => mine
  | otherMemory addr n =>
      obtain ⟨free, same⟩ := Option.ite_none_right_eq_some.mp h
      obtain rfl := Option.some.inj same
      have kept : ∀ t, s.Live t → Function.update s.node addr n t.addr = s.node t.addr := by
        intro t live
        refine Function.update_of_ne ?_ ..
        rintro rfl
        rw [Proc.Live, free] at live
        cases live
      refine ok.moveAll (ok.lists.memory fun t member => ?_) ?_ ok.nobody
        fun tid pc found => .inr ⟨found, fun _ => .otherMemory ok.lists free⟩
      · exact congrArg ThreadNode.prev (kept t (ok.lists.live member))
      · intro t member
        have handle := congrArg ThreadNode.threadHandle (kept t (ok.lists.live member))
        exact handle.trans_ne (ok.handles t member)
  | call tid c =>
      obtain ⟨found, same⟩ := Option.ite_none_right_eq_some.mp h
      obtain rfl := Option.some.inj same
      refine ok.goto found ?_
      rintro t ⟨⟩
  | getThreadId tid handle =>
      obtain ⟨found, same⟩ := Option.ite_none_right_eq_some.mp h
      obtain rfl := Option.some.inj same
      exact ok.goto found trivial
  | exit tid =>
      obtain ⟨found, same⟩ := Option.ite_none_right_eq_some.mp h
      obtain rfl := Option.some.inj same
      exact ok.goto found trivial
  | heapAlloc tid result =>
      simp only [ThreadInfo.step] at h
      split at h
      · rename_i c found
        exact ok.heapAlloc found h
      · cases h
  | createThread tid result =>
      simp only [ThreadInfo.step] at h
      split at h
      · rename_i c t found
        exact ok.createThread found h
      · cases h
  | next tid =>
      obtain ⟨pc, found, h⟩ := Option.bind_eq_some_iff.mp h
      exact ok.next found good h

theorem Proc.ok_initial : Proc.initial.Ok [] where
  lists := ⟨fun _ => rfl, fun _ => .nil, fun _ _ _ _ _ => rfl⟩
  handles _ member := by cases member
  nobody := rfl
  threads _ _ found := by cases found

/-! ## The accesses and the results -/

theorem CreatePc.node_of_touches {p : CreatePc} (member : t ∈ p.touches) : p.node = some t := by
  cases p with
  | heapAlloc | enter u | setThreads u | leave u => cases member
  | _ =>
      rw [List.mem_singleton.mp member]
      rfl

theorem Place.live_of_mem {after : Chain} (lists : s.Lists chain) (place : Place chain l after)
    (member : t ∈ nodeOf l) : s.Live t := by
  cases l with
  | head i => cases member
  | next p =>
      rw [List.mem_singleton.mp member]
      exact place.live lists p rfl

/-- A thread accesses nodes that are not freed. -/
theorem Proc.Ok.touches (ok : s.Ok chain) (found : s.pc tid = some pc) (member : t ∈ pc.touches s) :
    s.Live t := by
  have own := ok.threads tid pc found
  cases pc with
  | user | faulted => cases member
  | create c p => exact (ok.own found (CreatePc.node_of_touches member)).live
  | main c p =>
      rw [List.mem_singleton.mp member]
      exact ok.lists.live own.linked
  | detach p =>
      cases p with
      | enter | leave => cases member
      | whileCond l =>
          obtain ⟨_, after, place⟩ := own
          exact place.live_of_mem ok.lists member
      | testHandle l | testId l =>
          obtain ⟨_, p, after, place⟩ := own
          have read : s.read l = some p := ok.lists.read place
          obtain link | node := List.mem_append.mp member
          · exact place.live_of_mem ok.lists link
          · rw [read] at node
            rw [List.mem_singleton.mp node]
            exact ok.lists.live place.mem
      | setGarbage l =>
          obtain ⟨_, p, after, place, _⟩ := own
          exact place.live_of_mem ok.lists member
      | advance l =>
          obtain ⟨_, p, after, place⟩ := own
          exact place.live_of_mem ok.lists member
      | unlink l garbage =>
          obtain ⟨_, after, place, _⟩ := own
          obtain here | link := List.mem_cons.mp member
          · exact here ▸ ok.lists.live place.mem
          · exact place.live_of_mem ok.lists link
      | heapFree l garbage =>
          rw [List.mem_singleton.mp member]
          exact own.2.1
  | getThreadId h p =>
      cases p with
      | enter | init | leave rc => cases member
      | forCond u => exact ok.lists.live (own.2 t (Option.mem_toList.mp member))
      | readId u | advance u =>
          rw [List.mem_singleton.mp member]
          exact ok.lists.live own.2

theorem CreateOk.given_eq {p : CreatePc} {g : Given} (own : CreateOk s chain tid c p t)
    (given : p.given = some g) (late : 11 ≤ p.rank) :
    (s.node t.addr).threadHandle = g.handle ∧ (s.node t.addr).threadId = g.id := by
  have handle := own.threadHandle (by omega)
  have id := own.threadId (by omega)
  rw [if_neg (by omega), given] at handle
  rw [given] at id
  exact ⟨handle, id⟩

theorem Call.failure_ne {g : Given} (proper : g.Proper) (c : Call) : g.handle ≠ c.failure := by
  cases c with
  | createThread start param wants => exact proper.1
  | beginthread start param | beginthreadex start param wants => exact proper.2.1

/-- A creating function returns what the system gave to its thread. -/
theorem Proc.Ok.outcome {o : Outcome} (ok : s.Ok chain) (returned : outcome s a = some o) :
    o.Right := by
  cases a with
  | next tid =>
      simp only [ThreadInfo.outcome] at returned
      split at returned
      · rename_i c t given found
        have own := ok.own found rfl
        obtain ⟨failed, same⟩ := Option.ite_none_right_eq_some.mp returned
        obtain rfl := Option.some.inj same
        intro g given'
        have handle := (own.given_eq given' (by simp)).1
        exact absurd (handle.symm.trans failed) (Call.failure_ne (own.proper g given') c)
      · rename_i c t given stored found
        have own := ok.own found rfl
        obtain rfl := Option.some.inj returned
        intro g given'
        refine ⟨(own.given_eq given' (by simp)).1, fun asked => ?_⟩
        have kept := own.stored given stored rfl
        rw [if_pos asked] at kept
        subst given'
        exact kept
      · cases returned
  | _ => cases returned

/-- The new thread calls the function that its creator was called with. -/
theorem Proc.Ok.starts {task : Dword × Dword × Dword} (ok : s.Ok chain)
    (started : starts s a = some (c, task)) : task = c.task := by
  cases a with
  | next tid =>
      simp only [ThreadInfo.starts] at started
      split at started
      · rename_i c' t type start found
        have own : MainOk s chain tid c' (.param t type start) := ok.threads tid _ found
        have task := own.task
        simp only [ThreadNode.task, Call.task, MainPc.node, Prod.mk.injEq] at task
        obtain ⟨rfl, rfl⟩ := own.start t type start rfl
        cases started
        rw [task.2.2]
        rfl
      · cases started
  | _ => cases started

theorem exists_ok {as : List Action}
    (run : Run (restrict Step fun s a => freesReturned s a = true) .initial as s) :
    ∃ chain, s.Ok chain := by
  refine run.invariant (P := fun s => ∃ chain, s.Ok chain) ?_ ⟨[], Proc.ok_initial⟩
  rintro s a t ⟨chain, ok⟩ ⟨good, step⟩
  exact ⟨_, ok.step good step⟩

/-- As long as no thread frees the node of a call that has not returned, nothing accesses
a node that is freed, and each caller receives the handle and the id of its thread. -/
theorem creation_race_free {as : List Action}
    (run : Run (restrict Step fun s a => freesReturned s a = true) .initial as s) (a : Action) :
    (∀ t ∈ touches s a, s.Live t) ∧ ∀ o, outcome s a = some o → o.Right := by
  obtain ⟨chain, ok⟩ := exists_ok run
  refine ⟨fun t member => ?_, fun o returned => ok.outcome returned⟩
  unfold touches at member
  split at member
  · rename_i pc found
    obtain ⟨tid, _, found⟩ := Option.bind_eq_some_iff.mp found
    exact ok.touches found member
  · cases member

def statements (n : Nat) (tid : Dword) : List Action := List.replicate n (.next tid)

/-- A thread calls `smp9x_CreateThread`, up to `CreateThread`. -/
def creation (tid start param addr : Dword) (g : Given) : List Action :=
  [.call tid (.createThread start param true), .heapAlloc tid (some addr)] ++ statements 8 tid ++
    [.createThread tid (some g)]

/-- A new thread runs to its end, with its node first in the list. -/
def lifetime (tid : Dword) (rest : Nat) : List Action :=
  statements 3 tid ++ [.exit tid] ++ statements (7 + rest) tid

/-- Thread 1 creates thread 2, which ends after the call has returned, and then thread 4,
whose node comes to the same address. -/
def lateExit : List Action :=
  [.foreignThread 1] ++ creation 1 0x401000 7 0x1000 ⟨0x20, 2⟩ ++ statements 4 1 ++ lifetime 2 2 ++
    creation 1 0x402000 9 0x1000 ⟨0x40, 4⟩ ++ statements 3 1

theorem creation_race_free_late : ∃ s,
    Run (restrict Step fun s a => freesReturned s a = true) .initial lateExit s ∧
      (∃ o, outcome s (.next 1) = some o ∧ o.given = some ⟨0x40, 4⟩ ∧ o.Right) ∧
      touches s (.next 1) ≠ [] ∧ ∀ t ∈ touches s (.next 1), s.Live t := by
  have computed : (exec (guard step freesReturned) .initial lateExit).any (fun s =>
      outcome s (.next 1) = some ⟨.createThread 0x402000 9 true, some ⟨0x40, 4⟩, 0x40, some 4⟩ &&
        touches s (.next 1) ≠ []) = true := by
    decide +kernel
  obtain ⟨s, run, checked⟩ := exists_run_restrict computed
  simp only [Bool.and_eq_true, decide_eq_true_eq] at checked
  have safe := creation_race_free run (.next 1)
  exact ⟨s, run, ⟨_, checked.1, rfl, safe.2 _ checked.1⟩, checked.2, safe.1⟩

/-- Thread 1 creates thread 2, which ends before the call has stored the handle. Then
thread 3 creates thread 4 with a node at the same address, and both calls go on. -/
def earlyExit : List Action :=
  [.foreignThread 1, .foreignThread 3] ++ creation 1 0x401000 7 0x1000 ⟨0x20, 2⟩ ++ lifetime 2 2 ++
    creation 3 0x402000 9 0x1000 ⟨0x40, 4⟩ ++ statements 3 1 ++ statements 1 3

/-- The call of thread 1 reads the node of thread 4 instead of its own, which is freed,
and returns the handle and the id of thread 4. -/
theorem creation_races : ∃ s t, Run Step .initial earlyExit s ∧ Step s (.next 1) t ∧
    (∃ u ∈ touches s (.next 1), ¬ s.Live u) ∧ ∃ o, outcome s (.next 1) = some o ∧
      o.given = some ⟨0x20, 2⟩ ∧ o.result = 0x40 ∧ o.stored = some 4 ∧ ¬ o.Right := by
  have computed : (exec step .initial earlyExit).any (fun s =>
      outcome s (.next 1) = some ⟨.createThread 0x401000 7 true, some ⟨0x20, 2⟩, 0x40, some 4⟩ &&
        (touches s (.next 1)).any (fun u => !s.Live u) && (step s (.next 1)).isSome) = true := by
    decide +kernel
  obtain ⟨s, run, checked⟩ := exists_run computed
  simp only [Bool.and_eq_true, decide_eq_true_eq, List.any_eq_true, Bool.not_eq_true',
    decide_eq_false_iff_not] at checked
  obtain ⟨⟨returned, freed⟩, enabled⟩ := checked
  obtain ⟨t, taken⟩ := Option.isSome_iff_exists.mp enabled
  refine ⟨s, t, run, taken, freed, _, returned, rfl, rfl, rfl, fun right => ?_⟩
  have wrong := (right ⟨0x20, 2⟩ rfl).1
  revert wrong
  decide

/-- What a violation of the condition leads to: the next statement of a call whose node is
freed after `CreateThread` accesses the node. -/
theorem early_free_touched {p : CreatePc} (found : s.pc t.creator = some (.create c p))
    (node : p.node = some t) (late : 10 ≤ p.rank) : t ∈ touches s (.next t.creator) := by
  simp only [touches, Action.statement, Option.bind_some, found]
  cases p with
  | setHandle u given | testHandle u given | readId u given | ret u given stored =>
      cases node
      exact List.mem_singleton_self _
  | _ => exact absurd late (by simp)

end SmpVxd.ThreadInfo
