import SmpVxd.Client.Creation
import Mathlib.Data.List.Lattice

/-!
# The thread list and the threads that live

When creations and exits run one at a time and nothing fails, the list `threads` is that
of the threads that are created and have not ended. At each statement it is known
how far the list is behind: a node may be on it whose thread is not yet created, and the
nodes from a place on may still hold the thread that ends.
-/

namespace SmpVxd.ThreadInfo

open Heap Transition

/-! ## One call at a time -/

/-- The thread creates another one or ends. -/
def Pc.working : Pc → Bool
  | .create _ _ | .detach _ => true
  | .user | .faulted | .main _ _ | .getThreadId _ _ => false

/-- A process, the thread that creates another one or ends, and the threads that the
library has created and that have not ended, newest first. -/
structure Session where
  proc : Proc
  active : Option Dword
  live : List Given

def Session.initial : Session := ⟨.initial, none, []⟩

def activeAfter (s : Session) (t : Proc) : Action → Option Dword
  | .call tid _ | .exit tid => some tid
  | _ => s.active.filter fun tid => (t.pc tid).any Pc.working

def liveAfter (live : List Given) : Action → List Given
  | .createThread _ (some g) => g :: live
  | .exit tid => live.filter (·.id ≠ tid)
  | _ => live

def Session.step (s : Session) (a : Action) : Option Session :=
  (ThreadInfo.step s.proc a).map fun t => ⟨t, activeAfter s t a, liveAfter s.live a⟩

/-- A call or an exit begins when no other one is on its way, and the system gives a
thread an id and a handle that no other thread of the library has. -/
def oneAtATime (s : Session) : Action → Bool
  | .call _ _ | .exit _ => s.active.isNone
  | .createThread _ (some g) => s.live.all fun l => g.handle ≠ l.handle && g.id ≠ l.id
  | _ => true

/-- Neither `HeapAlloc` nor `CreateThread` fails. -/
def succeeds : Action → Bool
  | .heapAlloc _ none | .createThread _ none => false
  | _ => true

abbrev SessionStep : Session → Action → Session → Prop :=
  restrict (graph Session.step) fun s a => oneAtATime s a = true

/-! ## The books -/

/-- What the node says about its thread. -/
def Proc.given (s : Proc) (t : NodePtr) : Given :=
  ⟨(s.node t.addr).threadHandle, (s.node t.addr).threadId⟩

def Proc.listed (s : Proc) (chain : Chain) : List Given := chain.nodes.map s.given

/-- Up to the place, the thread that ends is taken off the list. -/
def Scan (s : Proc) (chain : Chain) (live : List Given) (tid : Dword) (l : Link) : Prop :=
  ∃ before after, chain = before ++ after ∧ l = linkAfter () before ∧
    s.listed before ++ (s.listed after).filter (·.id ≠ tid) = live

/-- How the list is related to the live threads while one is created. -/
def CreatePc.books (s : Proc) (chain : Chain) (live : List Given) : CreatePc → Prop
  | .heapAlloc | .memset _ | .enter _ | .setPrev _ | .setThreads _ => s.listed chain = live
  | .leave t | .setTmain t | .setTmainType t | .setParam t | .createThread t =>
      ∃ rest, chain = (t, ()) :: rest ∧ s.listed rest = live
  | .setHandle t given =>
      ∃ rest g, chain = (t, ()) :: rest ∧ given = some g ∧ g :: s.listed rest = live
  | .testHandle _ given | .readId _ given | .ret _ given _ => given ≠ none ∧ s.listed chain = live

/-- The same while thread `tid` ends. -/
def DetachPc.books (s : Proc) (chain : Chain) (live : List Given) (tid : Dword) : DetachPc → Prop
  | .enter => (s.listed chain).filter (·.id ≠ tid) = live
  | .whileCond t | .testHandle t | .testId t | .setGarbage t | .unlink t _ | .heapFree t _ =>
      Scan s chain live tid t
  | .advance t => ∃ before e after, chain = before ++ e :: after ∧ t = linkAfter () before ∧
      s.listed (before ++ [e]) ++ (s.listed after).filter (·.id ≠ tid) = live
  | .leave => s.listed chain = live

def Pc.books (s : Proc) (chain : Chain) (live : List Given) (tid : Dword) : Pc → Prop
  | .create _ p => p.books s chain live
  | .detach p => p.books s chain live tid
  | .user | .faulted | .main _ _ | .getThreadId _ _ => s.listed chain = live

/-- The thread is in the critical section. -/
def Pc.inCs : Pc → Bool
  | .create _ p => 3 ≤ p.rank && p.rank ≤ 5
  | .detach p => p ≠ .enter
  | .getThreadId _ p => p ≠ .enter
  | .user | .faulted | .main _ _ => false

/-- The invariant of the runs in which nothing fails. -/
structure Session.Ok (s : Session) (chain : Chain) : Prop where
  proc : s.proc.Ok chain
  working : ∀ tid pc, s.proc.pc tid = some pc → pc.working = true → s.active = some tid
  active : ∀ tid, s.active = some tid → ∃ pc, s.proc.pc tid = some pc ∧ pc.working = true
  idle : s.active = none → s.proc.listed chain = s.live
  books : ∀ tid pc, s.active = some tid → s.proc.pc tid = some pc →
    pc.books s.proc chain s.live tid
  cs : ∀ tid, s.proc.cs = some tid → ∃ pc, s.proc.pc tid = some pc ∧ pc.inCs = true
  handles : (s.live.map Given.handle).Nodup
  safe : ∀ tid, s.proc.pc tid ≠ some .faulted

variable {s t : Proc} {chain chain' : Chain} {live : List Given} {tid actor : Dword} {c : Call}
variable {u v : NodePtr} {f : ThreadNode → ThreadNode} {pc pc' : Pc} {l : Link} {a : Action}

theorem listed_congr (same : ∀ u ∈ chain.nodes, t.given u = s.given u) :
    t.listed chain = s.listed chain := List.map_congr_left same

theorem Proc.listed_append (s : Proc) (before after : Chain) :
    s.listed (before ++ after) = s.listed before ++ s.listed after := by
  simp [Proc.listed, Chain.nodes]

/-- The books concern the nodes of the list only. -/
theorem Pc.books_congr (same : ∀ u ∈ chain.nodes, t.given u = s.given u)
    (h : pc.books s chain live tid) : pc.books t chain live tid := by
  have whole := listed_congr same
  have part {before after : Chain} (split : chain = before ++ after) :
      t.listed before = s.listed before ∧ t.listed after = s.listed after := by
    have member : ∀ u ∈ before.nodes ++ after.nodes, t.given u = s.given u := by
      intro u member
      refine same u ?_
      rw [split, Chain.nodes, List.map_append]
      exact member
    exact ⟨listed_congr fun u front => member u (List.mem_append_left _ front),
      listed_congr fun u back => member u (List.mem_append_right _ back)⟩
  cases pc with
  | user | faulted | main _ _ | getThreadId _ _ => exact whole.trans h
  | create c p =>
      cases p with
      | heapAlloc | memset _ | enter _ | setPrev _ | setThreads _ => exact whole.trans h
      | leave u | setTmain u | setTmainType u | setParam u | createThread u =>
          obtain ⟨rest, split, listed⟩ := h
          have split' : chain = [(u, ())] ++ rest := split
          exact ⟨rest, split, (part split').2.trans listed⟩
      | setHandle u _ =>
          obtain ⟨rest, g, split, given, listed⟩ := h
          have split' : chain = [(u, ())] ++ rest := split
          refine ⟨rest, g, split, given, ?_⟩
          rw [(part split').2, listed]
      | testHandle _ _ | readId _ _ | ret _ _ _ => exact ⟨h.1, whole.trans h.2⟩
  | detach p =>
      cases p with
      | enter =>
          rw [Pc.books, DetachPc.books, whole]
          exact h
      | whileCond _ | testHandle _ | testId _ | setGarbage _ | unlink _ _ | heapFree _ _ =>
          obtain ⟨before, after, split, link, listed⟩ := h
          refine ⟨before, after, split, link, ?_⟩
          rw [(part split).1, (part split).2, listed]
      | advance _ =>
          obtain ⟨before, e, after, split, link, listed⟩ := h
          refine ⟨before, e, after, split, link, ?_⟩
          have split' : chain = (before ++ [e]) ++ after := by rw [split, List.append_assoc]; rfl
          rw [(part split').1, (part split').2, listed]
      | leave => exact whole.trans h

theorem given_setNode (ht : s.Live u) (hv : s.Live v) (ne : v ≠ u) :
    (s.setNode u f).given v = s.given v := by
  rw [Proc.given, Proc.setNode_ne ht hv ne]
  rfl

/-- A node that is not in the list may be written. -/
theorem listed_setNode (lists : s.Lists chain) (live : s.Live u) (outside : u ∉ chain.nodes) :
    ((s.setNode u f).goto tid pc).listed chain = s.listed chain := by
  refine listed_congr fun v member => given_setNode live (lists.live member) ?_
  rintro rfl
  exact outside member

/-- So may the first node, for the rest of the list. -/
theorem listed_rest {rest : Chain} (lists : s.Lists chain) (split : chain = (u, ()) :: rest) :
    ((s.setNode u f).goto tid pc).listed rest = s.listed rest := by
  have nodup := lists.nodup
  rw [split, Chain.nodes, List.map_cons, List.nodup_cons] at nodup
  have live : s.Live u := lists.live (by rw [split]; exact List.mem_cons_self)
  refine listed_congr fun v member => given_setNode live (lists.live ?_) ?_
  · rw [split]
    exact List.mem_cons_of_mem _ member
  · rintro rfl
    exact nodup.1 member

/-! ## What a statement does -/

/-- Thread `tid` goes from one program point to another. -/
structure Moves (s t : Proc) (tid : Dword) (pc pc' : Pc) : Prop where
  moved : t.pc = Function.update s.pc tid (some pc')
  cs : ∀ owner, t.cs = some owner →
    owner = tid ∧ pc'.inCs = true ∨ s.cs = some owner ∧ (pc.inCs = true → pc'.inCs = true)
  safe : pc' ≠ .faulted

attribute [local simp] CreatePc.rank Pc.inCs

theorem Moves.goto {new : Proc} (pcs : new.pc = s.pc) (cs : new.cs = s.cs)
    (inCs : pc.inCs = true → pc'.inCs = true) (safe : pc' ≠ .faulted) :
    Moves s (new.goto tid pc') tid pc pc' := by
  refine ⟨?_, ?_, safe⟩
  · rw [Proc.goto, pcs]
  · intro owner owned
    exact .inr ⟨cs.symm.trans owned, inCs⟩

theorem Moves.enterCs (entered : s.enterCs tid pc' = some t) (inCs : pc'.inCs = true) :
    Moves s t tid pc pc' := by
  obtain ⟨-, same⟩ := Option.ite_none_right_eq_some.mp entered
  obtain rfl := Option.some.inj same
  refine ⟨rfl, ?_, ?_⟩
  · intro owner owned
    exact .inl ⟨(Option.some.inj owned).symm, inCs⟩
  · rintro rfl
    cases inCs

theorem Moves.leaveCs (safe : pc' ≠ .faulted) : Moves s (s.leaveCs.goto tid pc') tid pc pc' := by
  refine ⟨rfl, ?_, safe⟩
  rintro owner ⟨⟩

theorem listed_enterCs (entered : s.enterCs tid pc' = some t) : t.listed chain = s.listed chain := by
  obtain ⟨-, same⟩ := Option.ite_none_right_eq_some.mp entered
  obtain rfl := Option.some.inj same
  rfl

theorem CreatePc.books_step {p : CreatePc} (ok : s.Ok chain) (found : s.pc tid = some (.create c p))
    (books : p.books s chain live) (h : createStep s tid c p = some t) :
    ∃ pc', Moves s t tid (.create c p) pc' ∧ pc'.books t (p.after chain) live tid := by
  cases p with
  | heapAlloc | createThread u => cases h
  | memset u =>
      obtain rfl := Option.some.inj h
      have own := ok.own found rfl
      refine ⟨_, .goto rfl rfl (by simp) (by rintro ⟨⟩), ?_⟩
      change Proc.listed _ chain = live
      exact (listed_setNode ok.lists own.live (own.unlinked (by simp))).trans books
  | enter u => exact ⟨_, .enterCs h (by simp), (listed_enterCs h).trans books⟩
  | setPrev u =>
      obtain rfl := Option.some.inj h
      have own := ok.own found rfl
      refine ⟨_, .goto rfl rfl (by simp) (by rintro ⟨⟩), ?_⟩
      change Proc.listed _ chain = live
      exact (listed_setNode ok.lists own.live (own.unlinked (by simp))).trans books
  | setThreads u =>
      obtain rfl := Option.some.inj h
      exact ⟨_, .goto rfl rfl (by simp) (by rintro ⟨⟩), chain, rfl, books⟩
  | leave u =>
      obtain rfl := Option.some.inj h
      exact ⟨_, .leaveCs (by rintro ⟨⟩), books⟩
  | setTmain u | setTmainType u | setParam u =>
      obtain rfl := Option.some.inj h
      obtain ⟨rest, split, listed⟩ := books
      refine ⟨_, .goto rfl rfl (by simp) (by rintro ⟨⟩), rest, split, ?_⟩
      exact (listed_rest ok.lists split).trans listed
  | setHandle u given =>
      obtain rfl := Option.some.inj h
      obtain ⟨rest, g, rfl, rfl, listed⟩ := books
      have own := ok.own found rfl
      have id : (s.node u.addr).threadId = g.id := own.threadId (by simp)
      refine ⟨_, .goto rfl rfl (by simp) (by rintro ⟨⟩), by simp, ?_⟩
      -- The node says now what the system has given.
      have written : (s.setNode u fun n => { n with threadHandle := g.handle }).given u = g := by
        rw [Proc.given, Proc.setNode_same, id]
      refine Eq.trans ?_ listed
      exact congrArg₂ List.cons written (listed_rest ok.lists rfl)
  | testHandle u given =>
      simp only [ThreadInfo.createStep] at h
      split at h
      · obtain rfl := Option.some.inj h
        refine ⟨_, .goto rfl rfl (by simp) (by rintro ⟨⟩), ?_⟩
        split
        · exact books
        · exact books
      · obtain rfl := Option.some.inj h
        exact ⟨_, .goto rfl rfl (by simp) (by rintro ⟨⟩), books.2⟩
  | readId u given =>
      obtain rfl := Option.some.inj h
      exact ⟨_, .goto rfl rfl (by simp) (by rintro ⟨⟩), books⟩
  | ret u given stored =>
      obtain rfl := Option.some.inj h
      exact ⟨_, .goto rfl rfl (by simp) (by rintro ⟨⟩), books.2⟩

/-- The node at the place of a thread that ends. -/
theorem Scan.cons (lists : s.Lists chain) (scan : Scan s chain live tid l) (read : s.read l = some u) :
    ∃ before after, chain = before ++ (u, ()) :: after ∧ l = linkAfter () before ∧
      s.listed before ++ (s.listed ((u, ()) :: after)).filter (·.id ≠ tid) = live := by
  obtain ⟨before, after, split, link, listed⟩ := scan
  have here : s.read l = first after := lists.read ⟨before, split, link⟩
  rw [read] at here
  cases after with
  | nil => cases here
  | cons e after =>
      cases here
      exact ⟨before, after, split, link, listed⟩

theorem given_write (v : NodePtr) (r : Option NodePtr) : (s.write l r).given v = s.given v := by
  have core : ((s.write l r).node v.addr).core = (s.node v.addr).core := Proc.write_core v.addr r
  change Given.mk ((s.write l r).node v.addr).core.threadHandle
    ((s.write l r).node v.addr).core.threadId = _
  rw [core]
  rfl

theorem DetachPc.books_step {p : DetachPc} (ok : s.Ok chain) (found : s.pc tid = some (.detach p))
    (books : p.books s chain live tid) (ends : p ≠ .leave) (h : detachStep s tid p = some t) :
    ∃ pc', Moves s t tid (.detach p) pc' ∧ pc'.books t (p.after chain) live tid := by
  have own : DetachOk s chain tid p := ok.threads tid _ found
  cases p with
  | enter =>
      refine ⟨_, .enterCs h (by simp), [], chain, rfl, rfl, ?_⟩
      change (t.listed chain).filter (·.id ≠ tid) = live
      rw [listed_enterCs h]
      exact books
  | whileCond l =>
      obtain rfl := Option.some.inj h
      refine ⟨_, .goto rfl rfl (by split <;> simp) (by rintro ⟨⟩), ?_⟩
      obtain ⟨before, after, split, link, listed⟩ := books
      have read : s.read l = first after := ok.lists.read ⟨before, split, link⟩
      cases after with
      | nil =>
          have null : s.read l = none := read
          rw [if_pos null]
          change s.listed chain = live
          rw [split, List.append_nil, ← listed]
          exact (List.append_nil _).symm
      | cons e after =>
          rw [read, if_neg (by simp [first])]
          exact ⟨before, e :: after, split, link, listed⟩
  | testHandle l =>
      obtain ⟨-, u, after, place⟩ := own
      obtain rfl := ok.lists.map_read place h
      rw [if_neg (ok.handles u place.mem)]
      exact ⟨_, .goto rfl rfl (by simp) (by rintro ⟨⟩), books⟩
  | testId l =>
      obtain ⟨-, u, after, place⟩ := own
      obtain rfl := ok.lists.map_read place h
      by_cases mine : (s.node u.addr).threadId = tid
      · rw [if_pos mine]
        exact ⟨_, .goto rfl rfl (by simp) (by rintro ⟨⟩), books⟩
      · rw [if_neg mine]
        obtain ⟨before, after, split, link, listed⟩ :=
          Scan.cons ok.lists books (ok.lists.read place)
        refine ⟨_, .goto rfl rfl (by simp) (by rintro ⟨⟩), before, (u, ()), after, split, link, ?_⟩
        have stays : (s.given u).id ≠ tid := mine
        rw [← listed]
        change s.listed (before ++ [(u, ())]) ++ (s.listed after).filter (·.id ≠ tid) =
          s.listed before ++ (s.given u :: s.listed after).filter (·.id ≠ tid)
        rw [Proc.listed_append, List.append_assoc, List.filter_cons_of_pos (by simpa using stays)]
        rfl
  | setGarbage l =>
      obtain ⟨-, u, after, place, -⟩ := own
      obtain rfl := ok.lists.map_read place h
      exact ⟨_, .goto rfl rfl (by simp) (by rintro ⟨⟩), books⟩
  | unlink l garbage =>
      obtain ⟨-, after, place, mine⟩ := own
      obtain rfl := Option.some.inj h
      obtain ⟨before, after, split, link, listed⟩ :=
        Scan.cons ok.lists books (ok.lists.read place)
      refine ⟨_, .goto (Proc.write_pc _) (Proc.write_cs _) (by simp) (by rintro ⟨⟩), ?_⟩
      rw [DetachPc.after, filter_split split ok.lists.nodup]
      refine ⟨before, after, rfl, link, ?_⟩
      have given (part : Chain) : ((s.write l (s.node garbage.addr).prev).goto tid
          (.detach (.heapFree l garbage))).listed part = s.listed part :=
        listed_congr fun v _ => given_write v _
      have goes : (s.given garbage).id = tid := mine
      rw [given, given, ← listed]
      change _ = s.listed before ++ (s.given garbage :: s.listed after).filter (·.id ≠ tid)
      rw [List.filter_cons_of_neg (by simpa using goes)]
  | heapFree l garbage =>
      obtain rfl := Option.some.inj h
      exact ⟨_, .goto rfl rfl (by simp) (by rintro ⟨⟩), books⟩
  | advance l =>
      obtain ⟨before, e, after, split, link, listed⟩ := books
      obtain rfl := ok.lists.map_read ⟨before, split, link⟩ h
      refine ⟨_, .goto rfl rfl (by simp) (by rintro ⟨⟩), before ++ [e], after, ?_, ?_, listed⟩
      · rw [split, List.append_assoc]
        rfl
      · simp [linkAfter]
  | leave => exact absurd rfl ends

/-- A new thread only reads its node. -/
theorem mainStep_goto (s : Proc) (tid : Dword) (c : Call) (p : MainPc) :
    ∃ pc' : Pc, pc'.working = false ∧ pc' ≠ .faulted ∧ mainStep s tid c p = s.goto tid pc' := by
  cases p with
  | tmainType u =>
      simp only [mainStep]
      split
      · exact ⟨_, rfl, by rintro ⟨⟩, rfl⟩
      · exact ⟨_, rfl, by rintro ⟨⟩, rfl⟩
  | tmain u type | param u type start => exact ⟨_, rfl, by rintro ⟨⟩, rfl⟩

/-- `smp9x_GetThreadId` only reads the list. -/
theorem getThreadIdStep_moves {h : Dword} {p : GetPc} (step : getThreadIdStep s tid h p = some t) :
    ∃ pc' : Pc, pc'.working = false ∧ Moves s t tid (.getThreadId h p) pc' ∧
      ∀ u, t.given u = s.given u := by
  cases p with
  | enter =>
      refine ⟨_, rfl, .enterCs step (by simp), fun u => ?_⟩
      obtain ⟨-, same⟩ := Option.ite_none_right_eq_some.mp step
      obtain rfl := Option.some.inj same
      rfl
  | init | readId u | advance u =>
      obtain rfl := Option.some.inj step
      exact ⟨_, rfl, .goto rfl rfl (by simp) (by rintro ⟨⟩), fun _ => rfl⟩
  | forCond u =>
      cases u with
      | none =>
          obtain rfl := Option.some.inj step
          exact ⟨_, rfl, .goto rfl rfl (by simp) (by rintro ⟨⟩), fun _ => rfl⟩
      | some u =>
          obtain rfl := Option.some.inj step
          refine ⟨_, rfl, .goto rfl rfl ?_ (by rintro ⟨⟩), fun _ => rfl⟩
          split
          · simp
          · simp
  | leave rc =>
      obtain rfl := Option.some.inj step
      exact ⟨_, rfl, .leaveCs (by rintro ⟨⟩), fun _ => rfl⟩

/-! ## The actions -/

theorem Pc.listed_of_books (idle : pc.working = false) (books : pc.books s chain live tid) :
    s.listed chain = live := by
  cases pc with
  | user | faulted | main c p | getThreadId h p => exact books
  | create c p | detach p => cases idle

/-- The invariant after an action that begins neither a call nor an exit. -/
theorem Session.Ok.afterwards {active : Option Dword} (proc : t.Ok chain)
    (others : ∀ tid pc, active ≠ some tid → t.pc tid = some pc →
      pc.working = false ∧ pc ≠ .faulted)
    (books : ∀ tid pc, active = some tid → t.pc tid = some pc →
      pc ≠ .faulted ∧ pc.books t chain live tid)
    (ended : ∀ tid, active = some tid → t.pc tid = none → t.listed chain = live)
    (idle : active = none → t.listed chain = live)
    (cs : ∀ tid, t.cs = some tid → ∃ pc, t.pc tid = some pc ∧ pc.inCs = true)
    (handles : (live.map Given.handle).Nodup) :
    Session.Ok ⟨t, active.filter fun tid => (t.pc tid).any Pc.working, live⟩ chain := by
  constructor
  case proc => exact proc
  case cs => exact cs
  case handles => exact handles
  case working =>
    intro tid pc found working
    by_cases here : active = some tid
    · refine Option.filter_eq_some_iff.mpr ⟨here, ?_⟩
      change t.pc tid = some pc at found
      rw [found]
      exact working
    · have idle := (others tid pc here found).1
      rw [working] at idle
      cases idle
  case active =>
    intro tid here
    obtain ⟨-, working⟩ := Option.filter_eq_some_iff.mp here
    obtain ⟨pc, found, working⟩ := (Option.any_eq_true _ _).mp working
    exact ⟨pc, found, working⟩
  case idle =>
    intro none
    cases here : active with
    | none => exact idle here
    | some tid =>
        cases found : t.pc tid with
        | none => exact ended tid here found
        | some pc =>
            refine Pc.listed_of_books ?_ (books tid pc here found).2
            simpa [here, found] using none
  case books =>
    intro tid pc here found
    obtain ⟨here, -⟩ := Option.filter_eq_some_iff.mp here
    exact (books tid pc here found).2
  case safe =>
    intro tid found
    by_cases here : active = some tid
    · exact (books tid _ here found).1 rfl
    · exact (others tid _ here found).2 rfl

theorem Moves.cs_kept (m : Moves s t tid pc pc') (found : s.pc tid = some pc)
    (cs : ∀ tid, s.cs = some tid → ∃ pc, s.pc tid = some pc ∧ pc.inCs = true) (owner : Dword)
    (owned : t.cs = some owner) : ∃ pc, t.pc owner = some pc ∧ pc.inCs = true := by
  rw [m.moved]
  obtain ⟨rfl, inCs⟩ | ⟨before, inCs⟩ := m.cs owner owned
  · exact ⟨pc', Function.update_self .., inCs⟩
  · obtain ⟨pc₀, found₀, inCs₀⟩ := cs owner before
    by_cases here : owner = tid
    · subst here
      obtain rfl := Option.some.inj (found.symm.trans found₀)
      exact ⟨pc', Function.update_self .., inCs inCs₀⟩
    · exact ⟨pc₀, (Function.update_of_ne here ..).trans found₀, inCs₀⟩

theorem Session.Ok.calm {s : Session} (ok : s.Ok chain) (other : s.active ≠ some tid)
    (found : s.proc.pc tid = some pc) : pc.working = false ∧ pc ≠ .faulted := by
  constructor
  · by_contra busy
    exact other (ok.working tid pc found (by simpa using busy))
  · rintro rfl
    exact ok.safe tid found

/-- The same when thread `tid` was at work. -/
theorem Session.Ok.goesOn (proc : t.Ok chain)
    (others : ∀ tid' pc, tid' ≠ tid → t.pc tid' = some pc → pc.working = false ∧ pc ≠ .faulted)
    (books : ∀ pc, t.pc tid = some pc → pc ≠ .faulted ∧ pc.books t chain live tid)
    (ended : t.pc tid = none → t.listed chain = live)
    (cs : ∀ tid, t.cs = some tid → ∃ pc, t.pc tid = some pc ∧ pc.inCs = true)
    (handles : (live.map Given.handle).Nodup) :
    Session.Ok ⟨t, (some tid).filter fun tid => (t.pc tid).any Pc.working, live⟩ chain := by
  refine .afterwards proc ?_ ?_ ?_ ?_ cs handles
  · intro tid' pc other
    apply others
    rintro rfl
    exact other rfl
  · rintro tid' pc ⟨⟩
    exact books pc
  · rintro tid' ⟨⟩
    exact ended
  · rintro ⟨⟩

/-- The thread at work executes a statement. -/
theorem Session.Ok.work {s : Session} (ok : s.Ok chain) (proc : t.Ok chain')
    (found : s.proc.pc tid = some pc) (working : pc.working = true) (m : Moves s.proc t tid pc pc')
    (books : pc'.books t chain' s.live tid) :
    Session.Ok ⟨t, s.active.filter fun tid => (t.pc tid).any Pc.working, s.live⟩ chain' := by
  have here := ok.working tid pc found working
  rw [here]
  refine .goesOn proc ?_ ?_ ?_ (m.cs_kept found ok.cs) ok.handles
  · intro tid' pc₀ ne found'
    rw [m.moved, Function.update_of_ne ne] at found'
    exact ok.calm (by simp [here, ne.symm]) found'
  · intro pc₀ found'
    rw [m.moved, Function.update_self] at found'
    obtain rfl := Option.some.inj found'
    exact ⟨m.safe, books⟩
  · intro none
    rw [m.moved, Function.update_self] at none
    cases none

/-- The thread at work stays where it is, and so do the nodes. -/
theorem Session.Ok.aside {s : Session} (ok : s.Ok chain) (proc : t.Ok chain)
    (active : ∀ tid, s.active = some tid → t.pc tid = s.proc.pc tid)
    (others : ∀ tid pc, t.pc tid = some pc →
      s.proc.pc tid = some pc ∨ pc.working = false ∧ pc ≠ .faulted)
    (cs : ∀ tid, t.cs = some tid → ∃ pc, t.pc tid = some pc ∧ pc.inCs = true)
    (same : ∀ u ∈ chain.nodes, t.given u = s.proc.given u) :
    Session.Ok ⟨t, s.active.filter fun tid => (t.pc tid).any Pc.working, s.live⟩ chain := by
  refine .afterwards proc ?_ ?_ ?_ ?_ cs ok.handles
  · intro tid pc other found
    obtain before | calm := others tid pc found
    · exact ok.calm other before
    · exact calm
  · intro tid pc here found
    rw [active tid here] at found
    refine ⟨?_, Pc.books_congr same (ok.books tid pc here found)⟩
    rintro rfl
    exact ok.safe tid found
  · intro tid here found
    obtain ⟨pc, before, -⟩ := ok.active tid here
    rw [active tid here, before] at found
    cases found
  · intro none
    exact (listed_congr same).trans (ok.idle none)

/-- A thread that is not at work executes a statement. -/
theorem Session.Ok.besides {s : Session} (ok : s.Ok chain) (proc : t.Ok chain)
    (found : s.proc.pc tid = some pc) (idle : pc.working = false) (m : Moves s.proc t tid pc pc')
    (idle' : pc'.working = false) (same : ∀ u ∈ chain.nodes, t.given u = s.proc.given u) :
    Session.Ok ⟨t, s.active.filter fun tid => (t.pc tid).any Pc.working, s.live⟩ chain := by
  refine ok.aside proc ?_ ?_ (m.cs_kept found ok.cs) same
  · intro tid' here
    rw [m.moved]
    refine Function.update_of_ne ?_ ..
    rintro rfl
    obtain ⟨pc₀, found₀, working⟩ := ok.active tid' here
    obtain rfl := Option.some.inj (found.symm.trans found₀)
    rw [idle] at working
    cases working
  · intro tid' pc₀ found'
    rw [m.moved] at found'
    by_cases here : tid' = tid
    · subst here
      rw [Function.update_self] at found'
      obtain rfl := Option.some.inj found'
      exact .inr ⟨idle', m.safe⟩
    · rw [Function.update_of_ne here] at found'
      exact .inl found'

/-- A call or an exit begins. -/
theorem Session.Ok.begin {s : Session} (ok : s.Ok chain) (proc : (s.proc.goto tid pc').Ok chain)
    (none : s.active = none) (found : s.proc.pc tid = some .user) (working : pc'.working = true)
    (books : pc'.books (s.proc.goto tid pc') chain live tid)
    (handles : (live.map Given.handle).Nodup) :
    Session.Ok ⟨s.proc.goto tid pc', some tid, live⟩ chain := by
  have others {tid' : Dword} {pc : Pc} (ne : tid' ≠ tid)
      (found' : (s.proc.goto tid pc').pc tid' = some pc) : pc.working = false ∧ pc ≠ .faulted := by
    rw [Proc.goto_pc_ne ne] at found'
    exact ok.calm (by simp [none]) found'
  have safe : pc' ≠ .faulted := by
    rintro rfl
    cases working
  have m : Moves s.proc (s.proc.goto tid pc') tid .user pc' := .goto rfl rfl (by simp) safe
  constructor
  case proc => exact proc
  case handles => exact handles
  case cs => exact m.cs_kept found ok.cs
  case working =>
    intro tid' pc found' busy
    by_cases here : tid' = tid
    · rw [here]
    · rw [(others here found').1] at busy
      cases busy
  case active =>
    rintro tid' ⟨⟩
    exact ⟨pc', Proc.goto_pc_self, working⟩
  case idle => rintro ⟨⟩
  case books =>
    rintro tid' pc ⟨⟩ found'
    obtain rfl := Option.some.inj (Proc.goto_pc_self.symm.trans found')
    exact books
  case safe =>
    intro tid' found'
    by_cases here : tid' = tid
    · subst here
      exact safe (Option.some.inj (Proc.goto_pc_self.symm.trans found'))
    · exact (others here found').2 rfl

/-- Only the thread at work frees nodes, and it is not in a call that creates a thread. -/
theorem Session.Ok.freesReturned {s : Session} (ok : s.Ok chain) (a : Action) :
    freesReturned s.proc a = true := by
  cases a with
  | next tid =>
      simp only [ThreadInfo.freesReturned]
      split
      · rename_i l garbage found
        cases inCall : s.proc.inCall garbage with
        | false => rfl
        | true =>
            simp only [Proc.inCall] at inCall
            split at inCall
            · rename_i c p calls
              have first := ok.working _ _ found rfl
              have second := ok.working _ _ calls rfl
              obtain rfl := Option.some.inj (first.symm.trans second)
              rw [found] at calls
              cases calls
            · cases inCall
      · rfl
  | _ => rfl

theorem Session.Ok.createThread {s : Session} {g : Given} (ok : s.Ok chain)
    (found : s.proc.pc tid = some (.create c (.createThread u))) (proc : t.Ok chain)
    (fresh : g.handle ∉ s.live.map Given.handle)
    (h : createThreadStep s.proc tid c u (some g) = some t) :
    Session.Ok ⟨t, s.active.filter fun tid => (t.pc tid).any Pc.working, g :: s.live⟩ chain := by
  have here := ok.working tid _ found rfl
  obtain ⟨rest, split, listed⟩ := ok.books tid _ here found
  obtain ⟨⟨-, unused, -⟩, same⟩ := Option.ite_none_right_eq_some.mp h
  obtain rfl := Option.some.inj same
  rw [here]
  refine .goesOn proc ?_ ?_ ?_ ?_ (List.nodup_cons.mpr ⟨fresh, ok.handles⟩)
  · intro tid' pc ne found'
    rw [Proc.goto_pc_ne ne] at found'
    by_cases new : tid' = g.id
    · subst new
      obtain rfl := Option.some.inj (Proc.goto_pc_self.symm.trans found')
      exact ⟨rfl, by rintro ⟨⟩⟩
    · rw [Proc.goto_pc_ne new] at found'
      exact ok.calm (by simp [here, ne.symm]) found'
  · intro pc found'
    obtain rfl := Option.some.inj (Proc.goto_pc_self.symm.trans found')
    have kept : ((s.proc.setNode u fun n => { n with threadId := g.id }).goto g.id
        (.main c (.tmainType u))).listed rest = s.proc.listed rest :=
      listed_rest ok.proc.lists split
    exact ⟨by rintro ⟨⟩, rest, g, split, rfl, congrArg (g :: ·) (kept.trans listed)⟩
  · intro none
    cases Proc.goto_pc_self.symm.trans none
  · intro owner owned
    obtain ⟨pc, before, inCs⟩ := ok.cs owner owned
    refine ⟨pc, ?_, inCs⟩
    have ne : owner ≠ tid := by
      rintro rfl
      obtain rfl := Option.some.inj (found.symm.trans before)
      simp at inCs
    have old : owner ≠ g.id := by
      rintro rfl
      rw [unused] at before
      cases before
    rw [Proc.goto_pc_ne ne, Proc.goto_pc_ne old]
    exact before

/-- The end of a thread. -/
theorem Session.Ok.leave {s : Session} (ok : s.Ok chain)
    (found : s.proc.pc tid = some (.detach .leave)) (proc : (s.proc.leaveCs.finish tid).Ok chain) :
    Session.Ok ⟨s.proc.leaveCs.finish tid,
      s.active.filter fun tid' => ((s.proc.leaveCs.finish tid).pc tid').any Pc.working, s.live⟩
      chain := by
  have here := ok.working tid _ found rfl
  have gone : (s.proc.leaveCs.finish tid).pc tid = none := Function.update_self ..
  rw [here]
  refine .goesOn proc ?_ ?_ ?_ ?_ ok.handles
  · intro tid' pc ne found'
    exact ok.calm (by simp [here, ne.symm]) ((Function.update_of_ne ne ..).symm.trans found')
  · intro pc found'
    rw [gone] at found'
    cases found'
  · intro _
    exact ok.books tid _ here found
  · rintro owner ⟨⟩

theorem Session.Ok.next {s : Session} (ok : s.Ok chain) (found : s.proc.pc tid = some pc)
    (proc : t.Ok (listAfter s.proc chain (.next tid))) (h : nextStep s.proc tid pc = some t) :
    Session.Ok ⟨t, s.active.filter fun tid => (t.pc tid).any Pc.working, s.live⟩
      (listAfter s.proc chain (.next tid)) := by
  rw [listAfter, found] at proc ⊢
  cases pc with
  | user | faulted => cases h
  | create c p =>
      obtain ⟨pc', m, books⟩ :=
        CreatePc.books_step ok.proc found (ok.books tid _ (ok.working tid _ found rfl) found) h
      exact ok.work proc found rfl m books
  | detach p =>
      by_cases ends : p = .leave
      · subst ends
        obtain rfl := Option.some.inj h
        exact ok.leave found proc
      · obtain ⟨pc', m, books⟩ :=
          DetachPc.books_step ok.proc found (ok.books tid _ (ok.working tid _ found rfl) found) ends h
        exact ok.work proc found rfl m books
  | main c p =>
      obtain rfl := Option.some.inj h
      obtain ⟨pc', idle, safe, same⟩ := mainStep_goto s.proc tid c p
      rw [same] at proc ⊢
      exact ok.besides proc found rfl (.goto rfl rfl (by simp) safe) idle fun _ _ => rfl
  | getThreadId handle p =>
      obtain ⟨pc', idle, m, same⟩ := getThreadIdStep_moves h
      exact ok.besides proc found rfl m idle fun u _ => same u

theorem Session.Ok.step {s s' : Session} (ok : s.Ok chain) (good : succeeds a = true)
    (h : SessionStep s a s') : s'.Ok (listAfter s.proc chain a) := by
  obtain ⟨one, taken⟩ := h
  obtain ⟨t, h, rfl⟩ := Option.map_eq_some_iff.mp taken
  have proc := ok.proc.step (ok.freesReturned a) h
  cases a with
  | foreignThread tid =>
      obtain ⟨⟨-, unused⟩, same⟩ := Option.ite_none_right_eq_some.mp h
      obtain rfl := Option.some.inj same
      have old : ∀ tid' pc, s.proc.pc tid' = some pc → tid' ≠ tid := by
        rintro tid' pc found rfl
        rw [unused] at found
        cases found
      refine ok.aside proc ?_ ?_ ?_ fun _ _ => rfl
      · intro tid' here
        obtain ⟨pc, found, -⟩ := ok.active tid' here
        exact Proc.goto_pc_ne (old tid' pc found)
      · intro tid' pc found
        by_cases here : tid' = tid
        · subst here
          obtain rfl := Option.some.inj (Proc.goto_pc_self.symm.trans found)
          exact .inr ⟨rfl, by rintro ⟨⟩⟩
        · exact .inl ((Proc.goto_pc_ne here).symm.trans found)
      · intro owner owned
        obtain ⟨pc, found, inCs⟩ := ok.cs owner owned
        exact ⟨pc, (Proc.goto_pc_ne (old owner pc found)).trans found, inCs⟩
  | otherMemory addr n =>
      obtain ⟨free, same⟩ := Option.ite_none_right_eq_some.mp h
      obtain rfl := Option.some.inj same
      refine ok.aside proc (fun _ _ => rfl) (fun _ _ found => .inl found) ok.cs ?_
      intro u member
      have live : s.proc.block u.addr = some u := ok.proc.lists.live member
      have ne : u.addr ≠ addr := by
        rintro rfl
        rw [free] at live
        cases live
      have kept : Function.update s.proc.node addr n u.addr = s.proc.node u.addr :=
        Function.update_of_ne ne ..
      exact congrArg₂ Given.mk (congrArg ThreadNode.threadHandle kept)
        (congrArg ThreadNode.threadId kept)
  | call tid c =>
      obtain ⟨found, same⟩ := Option.ite_none_right_eq_some.mp h
      obtain rfl := Option.some.inj same
      have none := Option.isNone_iff_eq_none.mp one
      exact ok.begin proc none found rfl (ok.idle none) ok.handles
  | getThreadId tid handle =>
      obtain ⟨found, same⟩ := Option.ite_none_right_eq_some.mp h
      obtain rfl := Option.some.inj same
      exact ok.besides proc found rfl (.goto rfl rfl (by simp) (by rintro ⟨⟩)) rfl fun _ _ => rfl
  | exit tid =>
      obtain ⟨found, same⟩ := Option.ite_none_right_eq_some.mp h
      obtain rfl := Option.some.inj same
      have none := Option.isNone_iff_eq_none.mp one
      refine ok.begin proc none found rfl ?_ (ok.handles.sublist ((List.filter_sublist).map _))
      exact congrArg (List.filter (·.id ≠ tid)) (ok.idle none)
  | heapAlloc tid result =>
      simp only [ThreadInfo.step] at h
      split at h
      · rename_i c found
        cases result with
        | none => cases good
        | some addr =>
            obtain ⟨-, same⟩ := Option.ite_none_right_eq_some.mp h
            obtain rfl := Option.some.inj same
            refine ok.work proc found rfl (.goto rfl rfl (by simp) (by rintro ⟨⟩)) ?_
            exact ok.books tid _ (ok.working tid _ found rfl) found
      · cases h
  | createThread tid result =>
      simp only [ThreadInfo.step] at h
      split at h
      · rename_i c u found
        cases result with
        | none => cases good
        | some g =>
            refine ok.createThread found proc ?_ h
            intro member
            obtain ⟨l, live, same⟩ := List.mem_map.mp member
            have apart := List.all_eq_true.mp one l live
            simp [same] at apart
      · cases h
  | next tid =>
      obtain ⟨pc, found, h⟩ := Option.bind_eq_some_iff.mp h
      exact ok.next found proc h

theorem Session.ok_initial : Session.initial.Ok [] where
  proc := Proc.ok_initial
  working _ _ found := by cases found
  active _ here := by cases here
  idle _ := rfl
  books _ _ here := by cases here
  cs _ owned := by cases owned
  handles := List.nodup_nil
  safe _ found := by cases found

/-! ## The answers -/

/-- The id of the first thread with the handle, 0 without one. -/
def idOf (live : List Given) (h : Dword) : Dword :=
  ((live.find? (·.handle = h)).map Given.id).getD 0

theorem idOf_member {g : Given} (nodup : (live.map Given.handle).Nodup) (member : g ∈ live) :
    idOf live g.handle = g.id := by
  rw [idOf]
  cases found : live.find? (·.handle = g.handle) with
  | none =>
      have absent := List.find?_eq_none.mp found g member
      simp at absent
  | some g' =>
      have same : g'.handle = g.handle := by simpa using List.find?_some found
      have member' := List.mem_of_find?_eq_some found
      rw [List.inj_on_of_nodup_map nodup member' member same]
      rfl

theorem idOf_absent {h : Dword} (absent : ∀ g ∈ live, g.handle ≠ h) : idOf live h = 0 := by
  have none : live.find? (·.handle = h) = none := by
    refine List.find?_eq_none.mpr fun g member => ?_
    simpa using absent g member
  rw [idOf, none]
  rfl

/-- `smp9x_GetThreadId`, called by the thread for the handle, returns `rc`. -/
def Proc.GetThreadIdReturns (s : Proc) (tid h rc : Dword) : Prop :=
  ∃ n t, Run Step s (.getThreadId tid h :: statements n tid) t ∧
    t.pc tid = some (.getThreadId h (.leave rc))

theorem next_step {h : Dword} {p : GetPc} (found : s.pc tid = some (.getThreadId h p))
    (taken : getThreadIdStep s tid h p = some t) : Step s (.next tid) t := by
  change (s.pc tid).bind (nextStep s tid) = some t
  rw [found]
  exact taken

theorem goto_step (s : Proc) (tid h : Dword) (p : GetPc)
    (taken : getThreadIdStep (s.goto tid (.getThreadId h p)) tid h p = some t) :
    Step (s.goto tid (.getThreadId h p)) (.next tid) t :=
  next_step Proc.goto_pc_self taken

/-- The loop goes through the rest of the list. -/
theorem forCond_returns {h : Dword} {before after : Chain}
    (found : s.pc tid = some (.getThreadId h (.forCond (first after)))) (lists : s.Lists chain)
    (split : chain = before ++ after) :
    ∃ n t, Run Step s (statements n tid) t ∧
      t.pc tid = some (.getThreadId h (.leave (idOf (s.listed after) h))) := by
  induction after generalizing s before with
  | nil => exact ⟨1, _, .single (next_step found rfl), Proc.goto_pc_self⟩
  | cons e rest ih =>
      obtain ⟨u, ⟨⟩⟩ := e
      have taken := next_step found rfl
      by_cases here : (s.node u.addr).threadHandle = h
      · have same : idOf (s.listed ((u, ()) :: rest)) h = (s.node u.addr).threadId := by
          have given : (s.given u).handle = h := here
          change idOf (s.given u :: s.listed rest) h = _
          rw [idOf, List.find?_cons_of_pos (by simpa using given)]
          rfl
        rw [if_pos here] at taken
        rw [same]
        have second := goto_step s tid h (.readId u) rfl
        exact ⟨2, _, .cons taken (.single second), Proc.goto_pc_self⟩
      · have same : idOf (s.listed ((u, ()) :: rest)) h = idOf (s.listed rest) h := by
          have given : (s.given u).handle ≠ h := here
          change idOf (s.given u :: s.listed rest) h = _
          rw [idOf, List.find?_cons_of_neg (by simpa using given)]
          rfl
        rw [if_neg here] at taken
        rw [same]
        have second := goto_step s tid h (.advance u) rfl
        have member : u ∈ chain.nodes := by
          rw [split]
          simp [Chain.nodes]
        have live := lists.live member
        have cell := Represents.cell_eq (i := ()) lists split
        have prev : (s.node u.addr).prev = first rest := by simpa [Proc.store, live] using cell
        have split' : chain = (before ++ [(u, ())]) ++ rest := by
          rw [split, List.append_assoc]
          rfl
        have ready : ((s.goto tid (.getThreadId h (.advance u))).goto tid
            (.getThreadId h (.forCond (s.node u.addr).prev))).pc tid =
              some (.getThreadId h (.forCond (first rest))) := by
          rw [← prev]
          exact Proc.goto_pc_self
        obtain ⟨n, t, run, returns⟩ := ih ready (lists.congr (Proc.store_eq rfl rfl rfl)) split'
        exact ⟨n + 2, t, .cons taken (.cons second run), returns⟩

/-- Without another thread in the critical section, the answer is what the list says. -/
theorem getThreadId_returns (h : Dword) (lists : s.Lists chain) (free : s.cs = none)
    (found : s.pc tid = some .user) :
    s.GetThreadIdReturns tid h (idOf (s.listed chain) h) := by
  have call : Step s (.getThreadId tid h) (s.goto tid (.getThreadId h .enter)) :=
    if_pos found
  have enter := goto_step s tid h .enter (if_pos free)
  have init := goto_step { s.goto tid (.getThreadId h .enter) with cs := some tid } tid h .init rfl
  have ready : (({ s.goto tid (.getThreadId h .enter) with cs := some tid }.goto tid
      (.getThreadId h .init)).goto tid (.getThreadId h (.forCond s.threads))).pc tid =
        some (.getThreadId h (.forCond (first chain))) := by
    rw [← Represents.head_eq lists ()]
    exact Proc.goto_pc_self
  obtain ⟨n, t, run, returns⟩ := forCond_returns ready
    (lists.congr (Proc.store_eq rfl rfl rfl)) (List.nil_append chain).symm
  exact ⟨n + 2, t, .cons call (.cons enter (.cons init run)), returns⟩

/-! ## The list and the threads -/

/-- No creating function returns without a thread. -/
theorem Session.Ok.created {s : Session} {o : Outcome} (ok : s.Ok chain)
    (returned : outcome s.proc a = some o) : o.given ≠ none := by
  cases a with
  | next tid =>
      simp only [outcome] at returned
      split at returned
      · rename_i c u given found
        obtain ⟨-, same⟩ := Option.ite_none_right_eq_some.mp returned
        obtain rfl := Option.some.inj same
        exact (ok.books tid _ (ok.working tid _ found rfl) found).1
      · rename_i c u given stored found
        obtain rfl := Option.some.inj returned
        exact (ok.books tid _ (ok.working tid _ found rfl) found).1
      · cases returned
  | _ => cases returned

/-- When neither `HeapAlloc` nor `CreateThread` fails, nothing accesses address 0, each call
that creates a thread returns its handle and its id, and between the calls the list consists
of the threads that live, newest first, and `smp9x_GetThreadId` finds exactly these. -/
theorem thread_list_exact {as : List Action} {s : Session}
    (run : Run (restrict SessionStep fun _ a => succeeds a = true) .initial as s) :
    (∀ tid, s.proc.pc tid ≠ some .faulted) ∧
    (∀ a o, outcome s.proc a = some o → o.given ≠ none ∧ o.Right) ∧
    (s.active = none → ∃ chain, s.proc.Lists chain ∧ s.proc.listed chain = s.live ∧
      (∀ owner, s.proc.cs = some owner → ∃ h p, s.proc.pc owner = some (.getThreadId h p)) ∧
      ∀ tid h, s.proc.cs = none → s.proc.pc tid = some .user →
        (∀ g ∈ s.live, g.handle = h → s.proc.GetThreadIdReturns tid h g.id) ∧
        ((∀ g ∈ s.live, g.handle ≠ h) → s.proc.GetThreadIdReturns tid h 0)) := by
  obtain ⟨chain, ok⟩ : ∃ chain, s.Ok chain := by
    refine run.invariant (P := fun s => ∃ chain, s.Ok chain) ?_ ⟨[], Session.ok_initial⟩
    rintro s a t ⟨chain, ok⟩ ⟨good, step⟩
    exact ⟨_, ok.step good step⟩
  refine ⟨ok.safe, fun a o returned => ⟨ok.created returned, ok.proc.outcome returned⟩, ?_⟩
  intro none
  refine ⟨chain, ok.proc.lists, ok.idle none, ?_, ?_⟩
  · intro owner owned
    obtain ⟨pc, found, inCs⟩ := ok.cs owner owned
    cases pc with
    | getThreadId h p => exact ⟨h, p, found⟩
    | user | faulted | main c p => cases inCs
    | create c p | detach p =>
        have busy := ok.working owner _ found rfl
        rw [none] at busy
        cases busy
  · intro tid h free found
    have answer := getThreadId_returns h ok.proc.lists free found
    rw [ok.idle none] at answer
    refine ⟨?_, ?_⟩
    · rintro g member rfl
      rw [← idOf_member ok.handles member]
      exact answer
    · intro absent
      rw [← idOf_absent absent]
      exact answer

/-- Thread 1 creates threads 2 and 3, and thread 2 ends, whose node is the second one. -/
def oneEnds : List Action :=
  [.foreignThread 1] ++ creation 1 0x401000 7 0x1000 ⟨0x20, 2⟩ ++ statements 4 1 ++
    [.call 1 (.beginthreadex 0x402000 9 true), .heapAlloc 1 (some 0x2000)] ++ statements 8 1 ++
    [.createThread 1 (some ⟨0x24, 3⟩)] ++ statements 4 1 ++ lifetime 2 6

theorem thread_list_exact_one : ∃ s,
    Run (restrict SessionStep fun _ a => succeeds a = true) .initial oneEnds s ∧
      s.active = none ∧ s.live = [⟨0x24, 3⟩] ∧ (∃ u, s.proc.Lists [(u, ())]) ∧
      s.proc.GetThreadIdReturns 1 0x24 3 ∧ s.proc.GetThreadIdReturns 1 0x20 0 := by
  have computed : (exec (guard Session.step fun s a => oneAtATime s a && succeeds a) .initial
      oneEnds).any (fun s => s.active = none && s.live = [⟨0x24, 3⟩] && s.proc.cs = none &&
        s.proc.pc 1 = some .user) = true := by
    decide +kernel
  obtain ⟨s, run, checked⟩ := exists_run_restrict computed
  simp only [Bool.and_eq_true, decide_eq_true_eq] at checked
  obtain ⟨⟨⟨idle, live⟩, free⟩, user⟩ := checked
  have run : Run (restrict SessionStep fun _ a => succeeds a = true) .initial oneEnds s := by
    refine run.mono fun s a t h => ?_
    obtain ⟨good, step⟩ := h
    obtain ⟨one, good⟩ := (Bool.and_eq_true _ _).mp good
    exact ⟨good, one, step⟩
  obtain ⟨-, -, between⟩ := thread_list_exact run
  obtain ⟨chain, lists, listed, -, answers⟩ := between idle
  rw [live] at listed answers
  have one : ∃ u, chain = [(u, ())] := by
    have length := congrArg List.length listed
    simp only [Proc.listed, Chain.nodes, List.length_map, List.length_singleton] at length
    obtain ⟨⟨u, ⟨⟩⟩, single⟩ := List.length_eq_one_iff.mp length
    exact ⟨u, single⟩
  obtain ⟨u, rfl⟩ := one
  refine ⟨s, run, idle, live, ⟨u, lists⟩, ?_, ?_⟩
  · exact (answers 1 0x24 free user).1 _ (List.mem_singleton_self _) rfl
  · refine (answers 1 0x20 free user).2 ?_
    simp

/-- Thread 1 calls `smp9x__beginthreadex`, and `CreateThread` fails. -/
def refused : List Action :=
  [.foreignThread 1, .call 1 (.beginthreadex 0x402000 9 true), .heapAlloc 1 (some 0x2000)] ++
    statements 8 1 ++ [.createThread 1 none] ++ statements 3 1

/-- `memset` clears address 0 when `HeapAlloc` fails. When `CreateThread` fails, the node
stays on the list, and `smp9x__beginthreadex` stores 0 through `thrdaddr`. -/
theorem thread_list_inexact :
    (∃ s, Run SessionStep .initial [.foreignThread 1, .call 1 (.createThread 0x401000 7 true),
      .heapAlloc 1 none] s ∧ s.proc.pc 1 = some .faulted) ∧
    ∃ s t, Run SessionStep .initial refused s ∧ SessionStep s (.next 1) t ∧
      outcome s.proc (.next 1) = some ⟨.beginthreadex 0x402000 9 true, none, 0, some 0⟩ ∧
      t.active = none ∧ t.live = [] ∧ ∀ chain, t.proc.Lists chain → t.proc.listed chain ≠ t.live := by
  constructor
  · have computed : (exec (guard Session.step oneAtATime) .initial [.foreignThread 1,
        .call 1 (.createThread 0x401000 7 true), .heapAlloc 1 none]).any
        (fun s => s.proc.pc 1 = some .faulted) = true := by
      decide +kernel
    obtain ⟨s, run, faulted⟩ := exists_run_restrict computed
    exact ⟨s, run, of_decide_eq_true faulted⟩
  · have computed : (exec (guard Session.step oneAtATime) .initial refused).any (fun s =>
        outcome s.proc (.next 1) = some ⟨.beginthreadex 0x402000 9 true, none, 0, some 0⟩ &&
          (s.step (.next 1)).any fun t =>
            t.active = none && t.live = [] && t.proc.threads ≠ none) = true := by
      decide +kernel
    obtain ⟨s, run, checked⟩ := exists_run_restrict computed
    simp only [Bool.and_eq_true, decide_eq_true_eq, Option.any_eq_true] at checked
    obtain ⟨returned, t, taken, ⟨idle, live⟩, threads⟩ := checked
    refine ⟨s, t, run, ⟨rfl, taken⟩, returned, idle, live, ?_⟩
    intro chain lists listed
    rw [live] at listed
    have head : t.proc.threads = first chain := Represents.head_eq lists ()
    have empty : chain = [] := by simpa [Proc.listed, Chain.nodes] using listed
    rw [empty] at head
    exact threads head

end SmpVxd.ThreadInfo
