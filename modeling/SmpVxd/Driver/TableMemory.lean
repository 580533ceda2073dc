import SmpVxd.Driver.ThreadTable
import SmpVxd.Heap.Chain
import SmpVxd.Transition.Basic
import SmpVxd.Transition.Fuel

/-!
# The thread table in memory

The three routines of the thread table as they walk over the pages of the records:
`tindex` is the link they stand at, and every access to a page that is not allocated is
a fault. Between two calls the memory holds a `TsHt`, and the routines are its operations.
-/

namespace SmpVxd

open Heap Transition

abbrev TsStore := Store Nat Dword TsThread

/-- Why a call has not come back. -/
inductive TsStop where
  | fuel
  | fault

/-- `ts_ht` and the allocated pages with records; `freed` is a record of the calls of
`_PageFree`, each with the memory it found. -/
structure TsMemory where
  store : TsStore
  freed : List (Dword × TsStore)

/-- A page that `_PageAllocate` has just zeroed. -/
def TsThread.zeroed (addr : Dword) : TsThread where
  addr := addr
  tid := 0
  smpStatus := 0
  smpApid := 0
  smpBspIdleProc := 0
  smpBspIdleLock := 0
  dirty := 0
  data := 0
  mode := 0
  pagefault := 0
  fpuState := .zero

/-- The fields that `ts_thread_create` stores before it looks for a place. -/
def TsThread.prepare (tid : Dword) (ts : TsThread) : TsThread :=
  { ts with
    tid := tid
    smpStatus := 0
    smpApid := 0
    smpBspIdleProc := 0
    smpBspIdleLock := 0
    dirty := 1
    data := ts.addr + 0x640
    mode := smpModeSystem }

namespace TsMemory

/-- `ts_ht` is zero when the driver is loaded. -/
def boot : TsMemory := ⟨.empty, []⟩

/-- `*tindex` -/
def load (m : TsMemory) (tindex : Link Nat Dword) : Except TsStop (Option Dword) :=
  match m.store.read tindex with
  | none => .error .fault
  | some ts => .ok ts

/-- `*tindex = ts` -/
def save (m : TsMemory) (tindex : Link Nat Dword) (ts : Option Dword) : Except TsStop TsMemory :=
  match m.store.read tindex with
  | none => .error .fault
  | some _ => .ok { m with store := m.store.write tindex ts }

/-- The fields of a record. -/
def record (m : TsMemory) (ts : Dword) : Except TsStop (Cell Dword TsThread) :=
  match m.store.cell ts with
  | none => .error .fault
  | some c => .ok c

/-- `_PageAllocate` with the page it returns. -/
def pageAllocate (m : TsMemory) (ts : Dword) : TsMemory :=
  { m with store := m.store.setCell ts (some ⟨.zeroed ts, none⟩) }

/-- `_PageFree` -/
def pageFree (m : TsMemory) (ts : Dword) : Except TsStop TsMemory :=
  match m.store.cell ts with
  | none => .error .fault
  | some _ => .ok { store := m.store.setCell ts none, freed := (ts, m.store) :: m.freed }

end TsMemory

/-- The loop of `ts_thread_create`. The extra data behind the record is zero already
when `memset` stores to it. -/
def createLoop : Nat → TsMemory → Link Nat Dword → Dword → Dword → Except TsStop (TsMemory × Option Dword)
  | 0, _, _, _, _ => .error .fuel
  | fuel + 1, m, tindex, ts, tid => do
      match ← m.load tindex with
      | none => return (← m.save tindex (some ts), some ts)
      | some p =>
          if (← m.record p).key.tid = tid then
            let m ← m.pageFree ts
            return (m, ← m.load tindex)
          else
            createLoop fuel m (.next p) ts tid

/-- `ts_thread_create` with the outcome of `_PageAllocate`. -/
def tsThreadCreate (fuel : Nat) (m : TsMemory) (page : Option Dword) (tid : Dword) :
    Except TsStop (TsMemory × Option Dword) :=
  match page with
  | none => .ok (m, none)
  | some ts => do
      let m := m.pageAllocate ts
      let c ← m.record ts
      let m := { m with store := m.store.setCell ts (some ⟨c.key.prepare tid, none⟩) }
      createLoop fuel m (.head (tsHash tid)) ts tid

/-- The loop of `ts_thread_destroy`. -/
def destroyLoop : Nat → TsMemory → Link Nat Dword → Dword → Except TsStop TsMemory
  | 0, _, _, _ => .error .fuel
  | fuel + 1, m, tindex, tid => do
      match ← m.load tindex with
      | none => return m
      | some garbage =>
          let c ← m.record garbage
          if c.key.tid = tid then
            (← m.save tindex c.next).pageFree garbage
          else
            destroyLoop fuel m (.next garbage) tid

/-- `ts_thread_destroy` -/
def tsThreadDestroy (fuel : Nat) (m : TsMemory) (tid : Dword) : Except TsStop TsMemory :=
  destroyLoop fuel m (.head (tsHash tid)) tid

/-- The loop of `ts_thread_get`. -/
def getLoop : Nat → TsMemory → Option Dword → Dword → Except TsStop (Option Dword)
  | 0, _, _, _ => .error .fuel
  | fuel + 1, m, tindex, tid =>
      match tindex with
      | none => return none
      | some p => do
          let c ← m.record p
          if c.key.tid = tid then
            return some p
          else
            getLoop fuel m c.next tid

/-- `ts_thread_get` -/
def tsThreadGet (fuel : Nat) (m : TsMemory) (tid : Dword) : Except TsStop (Option Dword) := do
  getLoop fuel m (← m.load (.head (tsHash tid))) tid

inductive TsCall where
  | create (page : Option Dword) (tid : Dword)
  | destroy (tid : Dword)
  | get (tid : Dword)
  deriving DecidableEq

/-- What a call does to the memory, and the pointer it returns. -/
def TsCall.perform (fuel : Nat) (m : TsMemory) : TsCall → Except TsStop (TsMemory × Option Dword)
  | .create page tid => tsThreadCreate fuel m page tid
  | .destroy tid => do return (← tsThreadDestroy fuel m tid, none)
  | .get tid => do return (m, ← tsThreadGet fuel m tid)

/-- `_PageAllocate` does not return a page that is in use. -/
def TsMemory.Fresh (m : TsMemory) : TsCall → Prop
  | .create (some ts) _ => m.store.cell ts = none
  | _ => True

/-- A call that comes back. -/
def TsMemory.Step (m : TsMemory) (call : TsCall) (m' : TsMemory) : Prop :=
  m.Fresh call ∧ ∃ fuel result, call.perform fuel m = .ok (m', result)

/-! ## The loops -/

section Loops

variable {m : TsMemory} {chain : Nat → List (Dword × TsThread)} {b fuel : Nat} {tid ts p : Dword} {k : TsThread}
variable {before mid after : List (Dword × TsThread)}

theorem TsMemory.load_eq (rep : Represents m.store chain) (split : chain b = before ++ after) :
    m.load (linkAfter b before) = .ok (first after) := by
  rw [load, rep.read_linkAfter split]

theorem TsMemory.save_eq (rep : Represents m.store chain) (split : chain b = before ++ after) (q : Option Dword) :
    m.save (linkAfter b before) q = .ok { m with store := m.store.write (linkAfter b before) q } := by
  rw [save, rep.read_linkAfter split]

theorem TsMemory.record_eq (rep : Represents m.store chain) (split : chain b = before ++ (p, k) :: after) :
    m.record p = .ok ⟨k, first after⟩ := by
  rw [record, rep.cell_eq split]

theorem createLoop_pass (rep : Represents m.store chain) (split : chain b = before ++ (p, k) :: after)
    (other : k.tid ≠ tid) : createLoop (fuel + 1) m (linkAfter b before) ts tid =
      createLoop fuel m (linkAfter b (before ++ [(p, k)])) ts tid := by
  rw [createLoop, TsMemory.load_eq rep split, linkAfter_append_singleton]
  show (do if (← m.record p).key.tid = tid then _ else _) = _
  rw [TsMemory.record_eq rep split]
  exact if_neg other

theorem createLoop_end (rep : Represents m.store chain) (split : chain b = before ++ []) :
    createLoop (fuel + 1) m (linkAfter b before) ts tid =
      .ok ({ m with store := m.store.write (linkAfter b before) (some ts) }, some ts) := by
  rw [createLoop, TsMemory.load_eq rep split]
  show (do return (← m.save (linkAfter b before) (some ts), some ts)) = _
  rw [TsMemory.save_eq rep split]
  rfl

/-- The new page is given back when the id is found. -/
theorem createLoop_hit (rep : Represents m.store chain) (split : chain b = before ++ (p, k) :: after)
    (here : k.tid = tid) {c : Cell Dword TsThread} (page : m.store.cell ts = some c) (unused : Unused chain ts) :
    createLoop (fuel + 1) m (linkAfter b before) ts tid =
      .ok ({ store := m.store.setCell ts none, freed := (ts, m.store) :: m.freed }, some p) := by
  have free : m.pageFree ts = .ok ⟨m.store.setCell ts none, (ts, m.store) :: m.freed⟩ := by
    rw [TsMemory.pageFree, page]
  have again : TsMemory.load ⟨m.store.setCell ts none, (ts, m.store) :: m.freed⟩ (linkAfter b before) =
      .ok (some p) := TsMemory.load_eq (rep.setCell unused none) split
  rw [createLoop, TsMemory.load_eq rep split]
  show (do if (← m.record p).key.tid = tid then _ else _) = _
  rw [TsMemory.record_eq rep split]
  refine (if_pos here).trans ?_
  rw [free]
  show (do return (_, ← TsMemory.load _ (linkAfter b before))) = _
  rw [again]
  rfl

theorem destroyLoop_pass (rep : Represents m.store chain) (split : chain b = before ++ (p, k) :: after)
    (other : k.tid ≠ tid) : destroyLoop (fuel + 1) m (linkAfter b before) tid =
      destroyLoop fuel m (linkAfter b (before ++ [(p, k)])) tid := by
  rw [destroyLoop, TsMemory.load_eq rep split, linkAfter_append_singleton]
  show (do let c ← m.record p; if c.key.tid = tid then _ else _) = _
  rw [TsMemory.record_eq rep split]
  exact if_neg other

theorem destroyLoop_end (rep : Represents m.store chain) (split : chain b = before ++ []) :
    destroyLoop (fuel + 1) m (linkAfter b before) tid = .ok m := by
  rw [destroyLoop, TsMemory.load_eq rep split]
  rfl

/-- The record is unlinked, and its page is freed then. -/
theorem destroyLoop_hit (rep : Represents m.store chain) (split : chain b = before ++ (p, k) :: after)
    (here : k.tid = tid) : destroyLoop (fuel + 1) m (linkAfter b before) tid =
      .ok { store := (m.store.write (linkAfter b before) (first after)).setCell p none
            freed := (p, m.store.write (linkAfter b before) (first after)) :: m.freed } := by
  obtain ⟨d, found, -⟩ := Store.write_key (l := linkAfter b before) (r := first after) (rep.cell_eq split)
  rw [destroyLoop, TsMemory.load_eq rep split]
  show (do let c ← m.record p; if c.key.tid = tid then _ else _) = _
  rw [TsMemory.record_eq rep split]
  refine (if_pos here).trans ?_
  rw [TsMemory.save_eq rep split]
  show TsMemory.pageFree _ p = _
  rw [TsMemory.pageFree, found]

theorem getLoop_pass (rep : Represents m.store chain) (split : chain b = before ++ (p, k) :: after)
    (other : k.tid ≠ tid) : getLoop (fuel + 1) m (some p) tid = getLoop fuel m (first after) tid := by
  rw [getLoop, TsMemory.record_eq rep split]
  exact if_neg other

theorem getLoop_hit (rep : Represents m.store chain) (split : chain b = before ++ (p, k) :: after)
    (here : k.tid = tid) : getLoop (fuel + 1) m (some p) tid = .ok (some p) := by
  rw [getLoop, TsMemory.record_eq rep split]
  exact if_pos here

end Loops

/-! ## The memory of a table -/

/-- The chains of the table with the pages of the records. -/
def TsHt.pages (ht : TsHt) (b : Nat) : List (Dword × TsThread) := (ht.chain b).map fun ts => (ts.addr, ts)

/-- The chains in memory are those of the table, and no other page is allocated. -/
structure TsMemory.Holds (m : TsMemory) (ht : TsHt) : Prop where
  chains : Represents m.store ht.pages
  covers : Covers ht.pages m.store

/-- The page is allocated, and no chain leads to it. -/
def Detached (p : Dword) (s : TsStore) : Prop := s.cell p ≠ none ∧ ∀ b, ¬ s.Reach b p

namespace TsHt

variable {ht : TsHt} {b : Nat} {tid page : Dword} {before after : List TsThread} {ts : TsThread}

theorem pages_split (split : ht.chain b = before ++ ts :: after) :
    ht.pages b = before.map (fun t => (t.addr, t)) ++ (ts.addr, ts) :: after.map (fun t => (t.addr, t)) := by
  rw [pages, split, List.map_append, List.map_cons]

theorem pages_absent (absent : ht.get tid = none) : ∀ e ∈ ht.pages (tsHash tid), e.2.tid ≠ tid := by
  intro e member
  obtain ⟨t, inside, rfl⟩ := List.mem_map.mp member
  exact chainFind_eq_none.mp absent t inside

theorem pages_miss (misses : ∀ t ∈ before, t.tid ≠ tid) :
    ∀ e ∈ before.map fun t => (t.addr, t), e.2.tid ≠ tid := by
  intro e member
  obtain ⟨t, inside, rfl⟩ := List.mem_map.mp member
  exact misses t inside

/-- Where a record is in its bucket. -/
theorem get_split (found : ht.get tid = some ts) : ∃ before after,
    ht.chain (tsHash tid) = before ++ ts :: after ∧ ∀ t ∈ before, t.tid ≠ tid :=
  chainFind_split found

theorem chain_create (absent : ht.get tid = none) : (ht.create (some page) tid).chain =
    Function.update ht.chain (tsHash tid) (ht.chain (tsHash tid) ++ [.new page tid]) := by
  rw [create, ← chainInsert_of_new]
  exact chainFind_eq_none.mp absent

theorem create_of_found (found : ht.get tid = some ts) : ht.create (some page) tid = ht := by
  have same : chainInsert (.new page tid) (ht.chain (tsHash tid)) = ht.chain (tsHash tid) :=
    chainInsert_of_found found
  cases ht with
  | mk chain bucket unique =>
      simp only [create, TsHt.mk.injEq]
      rw [same, Function.update_eq_self]

theorem destroy_of_absent (absent : ht.get tid = none) : ht.destroy tid = ht := by
  have same := chainRemove_of_absent (chainFind_eq_none.mp absent)
  cases ht with
  | mk chain bucket unique =>
      simp only [destroy, TsHt.mk.injEq]
      rw [same, Function.update_eq_self]

theorem chain_destroy (split : ht.chain (tsHash tid) = before ++ ts :: after)
    (first : ∀ t ∈ before, t.tid ≠ tid) (here : ts.tid = tid) :
    (ht.destroy tid).chain = Function.update ht.chain (tsHash tid) (before ++ after) := by
  show Function.update ht.chain (tsHash tid) (chainRemove tid (ht.chain (tsHash tid))) = _
  rw [split, chainRemove_of_split first here]

theorem pages_update {ht' : TsHt} {chain : List TsThread} (same : ht'.chain = Function.update ht.chain b chain) :
    ht'.pages = Function.update ht.pages b (chain.map fun t => (t.addr, t)) := by
  funext b'
  rw [pages, same]
  by_cases h : b' = b
  · subst h
    rw [Function.update_self, Function.update_self]
  · rw [Function.update_of_ne h, Function.update_of_ne h]
    rfl

end TsHt

namespace TsMemory.Holds

variable {m : TsMemory} {ht : TsHt} {tid page : Dword} {ts : TsThread}

theorem boot : TsMemory.boot.Holds .empty where
  chains := represents_empty
  covers _ used := absurd rfl used

/-- A record of the table is in the page of its address. -/
theorem cell_eq (h : m.Holds ht) (found : ht.get tid = some ts) :
    ∃ next, m.store.cell ts.addr = some ⟨ts, next⟩ := by
  obtain ⟨before, after, split, -⟩ := TsHt.get_split found
  exact ⟨_, h.chains.cell_eq (TsHt.pages_split split)⟩

/-- The loop of `ts_thread_get` behind a prefix of the bucket. -/
theorem get (h : m.Holds ht) (tid : Dword) : Finishes (.error .fuel) (fun fuel => tsThreadGet fuel m tid)
    (.ok ((ht.get tid).map (·.addr))) := by
  let all := ht.pages (tsHash tid)
  let loop : Nat → List (Dword × TsThread) → Except TsStop (Option Dword) :=
    fun fuel before => getLoop fuel m (first (all.drop before.length)) tid
  have behind : ∀ fuel before after, all = before ++ after → loop fuel before = getLoop fuel m (first after) tid := by
    intro fuel before after split
    simp only [loop, split, List.drop_left]
  have round : ∀ before (e : Dword × TsThread) rest fuel, all = before ++ e :: rest → e.2.tid ≠ tid →
      loop (fuel + 1) before = loop fuel (before ++ [e]) := by
    intro before e rest fuel split other
    rw [behind _ _ _ split, behind _ _ rest (by simpa using split)]
    exact getLoop_pass h.chains split other
  have start : (fun fuel => tsThreadGet fuel m tid) = fun fuel => loop fuel [] := by
    have load : m.load (linkAfter (tsHash tid) []) = .ok (first all) := TsMemory.load_eq h.chains rfl
    funext fuel
    rw [tsThreadGet]
    exact congrArg (fun tindex => tindex >>= fun p => getLoop fuel m p tid) load
  rw [start]
  cases found : ht.get tid with
  | none =>
      have split : all = all ++ [] := (List.append_nil all).symm
      refine Finishes.scan (fun _ => rfl) round split (TsHt.pages_absent found) (.now rfl ?_)
      intro fuel
      exact behind _ _ [] split
  | some ts =>
      obtain ⟨before, after, split, misses⟩ := TsHt.get_split found
      have pages := TsHt.pages_split split
      refine Finishes.scan (fun _ => rfl) round pages (TsHt.pages_miss misses) (.now rfl ?_)
      intro fuel
      exact (behind _ _ _ pages).trans (getLoop_hit h.chains pages (TsHt.get_tid found))

/-- `ts_thread_destroy` of an id without a record -/
theorem destroy_absent (h : m.Holds ht) (absent : ht.get tid = none) :
    Finishes (.error .fuel) (fun fuel => tsThreadDestroy fuel m tid) (.ok m) := by
  have split := (List.append_nil (ht.pages (tsHash tid))).symm
  refine Finishes.scan (f := fun fuel before => destroyLoop fuel m (linkAfter (tsHash tid) before) tid)
    (fun _ => rfl) (fun _ _ _ _ => destroyLoop_pass h.chains) split (TsHt.pages_absent absent) (.now rfl ?_)
  intro fuel
  exact destroyLoop_end h.chains split

/-- `ts_thread_destroy` of a record -/
theorem destroy_found (h : m.Holds ht) (found : ht.get tid = some ts) : ∃ m' s,
    Finishes (.error .fuel) (fun fuel => tsThreadDestroy fuel m tid) (.ok m') ∧
      m'.Holds (ht.destroy tid) ∧ m'.freed = (ts.addr, s) :: m.freed ∧ Detached ts.addr s := by
  obtain ⟨before, after, split, misses⟩ := TsHt.get_split found
  have here := TsHt.get_tid found
  have pages := TsHt.pages_split split
  have rest : (ht.destroy tid).pages = _ := TsHt.pages_update (TsHt.chain_destroy split misses here)
  rw [List.map_append] at rest
  have unlinked := h.chains.unlink pages
  have unused := h.chains.unused_unlink pages
  have covers := Represents.covers_unlink h.covers pages
  rw [← rest] at unlinked unused covers
  have ends := Finishes.scan (f := fun fuel before => destroyLoop fuel m (linkAfter (tsHash tid) before) tid)
    (fun _ => rfl) (fun _ _ _ _ => destroyLoop_pass h.chains) pages (TsHt.pages_miss misses)
    (.now rfl fun fuel => destroyLoop_hit h.chains pages here)
  refine ⟨_, _, ends, ⟨unlinked.setCell unused none, covers _ _⟩, rfl, ?_, ?_⟩
  · rw [Ne, Store.write_cell_eq_none, h.chains.cell_eq pages]
    rintro ⟨⟩
  · intro b reach
    exact unused b (unlinked.reach_iff.mp reach)

/-- The page of a new record, not yet linked. -/
def prepared (m : TsMemory) (page tid : Dword) : TsMemory :=
  ⟨m.store.setCell page (some ⟨.new page tid, none⟩), m.freed⟩

/-- `ts_thread_create` up to its loop -/
theorem create_eq (fuel : Nat) (m : TsMemory) (page tid : Dword) : tsThreadCreate fuel m (some page) tid =
    createLoop fuel (prepared m page tid) (.head (tsHash tid)) page tid := by
  have found : (m.pageAllocate page).record page = .ok ⟨.zeroed page, none⟩ := by
    simp [TsMemory.record, TsMemory.pageAllocate, Store.setCell]
  have twice : (m.pageAllocate page).store.setCell page (some ⟨(TsThread.zeroed page).prepare tid, none⟩) =
      (prepared m page tid).store := Store.setCell_setCell ..
  rw [tsThreadCreate]
  show ((m.pageAllocate page).record page >>= _) = _
  rw [found]
  show createLoop _ ⟨(m.pageAllocate page).store.setCell page _, _⟩ _ _ _ = _
  rw [twice]
  rfl

theorem prepared_cell : (prepared m page tid).store.cell page = some ⟨.new page tid, none⟩ :=
  Function.update_self ..

/-- `ts_thread_create` of an id that has a record -/
theorem create_found (h : m.Holds ht) (fresh : m.store.cell page = none) (found : ht.get tid = some ts) :
    Finishes (.error .fuel) (fun fuel => tsThreadCreate fuel m (some page) tid)
      (.ok (⟨m.store, (page, (prepared m page tid).store) :: m.freed⟩, some ts.addr)) ∧
      Detached page (prepared m page tid).store := by
  obtain ⟨before, after, split, misses⟩ := TsHt.get_split found
  have pages := TsHt.pages_split split
  have unused := h.chains.unused_of_none fresh
  have new : Represents (prepared m page tid).store ht.pages := h.chains.setCell unused _
  have ends := Finishes.scan (f := fun fuel before => createLoop fuel (prepared m page tid)
      (linkAfter (tsHash tid) before) page tid)
    (fun _ => rfl) (fun _ _ _ _ => createLoop_pass new) pages (TsHt.pages_miss misses)
    (.now rfl fun fuel => createLoop_hit new pages (TsHt.get_tid found) prepared_cell unused)
  have dropped : (prepared m page tid).store.setCell page none = m.store := by
    rw [prepared, Store.setCell_setCell, Store.setCell_of_eq fresh]
  simp only [create_eq]
  rw [dropped] at ends
  refine ⟨ends, ?_, ?_⟩
  · rw [prepared_cell]
    rintro ⟨⟩
  · intro b reach
    exact unused b (new.reach_iff.mp reach)

/-- `ts_thread_create` of a new id -/
theorem create_new (h : m.Holds ht) (fresh : m.store.cell page = none) (absent : ht.get tid = none) :
    ∃ m', Finishes (.error .fuel) (fun fuel => tsThreadCreate fuel m (some page) tid) (.ok (m', some page)) ∧
      m'.Holds (ht.create (some page) tid) ∧ m'.freed = m.freed := by
  have unused := h.chains.unused_of_none fresh
  have new : Represents (prepared m page tid).store ht.pages := h.chains.setCell unused _
  have split := (List.append_nil (ht.pages (tsHash tid))).symm
  have linked := new.link (i := tsHash tid) unused prepared_cell
  have covers := Represents.covers_link (i := tsHash tid) (p := page) (k := .new page tid) h.covers
    (some ⟨.new page tid, none⟩) (linkAfter (tsHash tid) (ht.pages (tsHash tid))) (some page)
  have rest : (ht.create (some page) tid).pages = _ := TsHt.pages_update (TsHt.chain_create absent)
  rw [List.map_append] at rest
  have ends := Finishes.scan (f := fun fuel before => createLoop fuel (prepared m page tid)
      (linkAfter (tsHash tid) before) page tid)
    (fun _ => rfl) (fun _ _ _ _ => createLoop_pass new) split (TsHt.pages_absent absent)
    (.now rfl fun fuel => createLoop_end new split)
  simp only [create_eq]
  refine ⟨_, ends, ⟨?_, ?_⟩, rfl⟩
  · rw [rest]
    exact linked
  · rw [rest]
    exact covers

end TsMemory.Holds

/-! ## Calls -/

namespace TsCall

/-- The page that a call may make a record of the id in. -/
def pageFor (tid : Dword) : TsCall → Option Dword
  | .create page tid' => if tid' = tid then page else none
  | .destroy _ => none
  | .get _ => none

/-- The record of the first `ts_thread_create` of the id that got a page, since the last
`ts_thread_destroy` of the id; `past` are the calls so far, newest first. -/
def made (tid : Dword) (past : List TsCall) : Option TsThread :=
  ((past.takeWhile (· ≠ .destroy tid)).reverse.findSome? (pageFor tid)).map fun page => .new page tid

/-- What a call returns and does, in terms of the table that the memory holds. -/
def Effect (ht : TsHt) (m : TsMemory) (result : Option Dword) (m' : TsMemory) : TsCall → Prop
  | .create none _ => result = none ∧ m' = m
  | .create (some page) tid =>
      (∀ ts, ht.get tid = some ts → result = some ts.addr ∧ m'.store = m.store) ∧
        (ht.get tid = none → result = some page ∧ ∃ ht', m'.Holds ht' ∧ ht'.chain =
          Function.update ht.chain (tsHash tid) (ht.chain (tsHash tid) ++ [.new page tid]))
  | .destroy tid =>
      (ht.get tid = none → m' = m) ∧
        ∀ ts, ht.get tid = some ts → ∃ before after, ht.chain (tsHash tid) = before ++ ts :: after ∧
          ∃ ht', m'.Holds ht' ∧ ht'.chain = Function.update ht.chain (tsHash tid) (before ++ after)
  | .get tid => result = (ht.get tid).map (·.addr) ∧ m' = m

/-- The table after a call. -/
def apply (ht : TsHt) : TsCall → TsHt
  | .create page tid => ht.create page tid
  | .destroy tid => ht.destroy tid
  | .get _ => ht

variable {m : TsMemory} {ht : TsHt} {call : TsCall} {tid : Dword} {past : List TsCall}

theorem made_cons_destroy : made tid (.destroy tid :: past) = none := by
  simp [made]

theorem made_cons (other : call ≠ .destroy tid) : made tid (call :: past) =
    (made tid past).or ((call.pageFor tid).map fun page => .new page tid) := by
  simp only [made, List.takeWhile_cons, decide_eq_true other, if_true, List.reverse_cons, List.findSome?_append,
    List.findSome?_singleton, Option.map_or]

/-- The history of an id follows the table. -/
theorem made_apply (same : ∀ tid, ht.get tid = made tid past) (tid : Dword) :
    (call.apply ht).get tid = made tid (call :: past) := by
  cases call with
  | create page tid' =>
      rw [made_cons (by rintro ⟨⟩), ← same tid]
      by_cases here : tid = tid'
      · subst here
        cases page with
        | none => simp [apply, pageFor]
        | some page =>
            rw [apply, TsHt.get_create_self]
            cases ht.get tid <;> simp [pageFor]
      · simp [apply, TsHt.get_create_ne page here, pageFor, Ne.symm here]
  | destroy tid' =>
      by_cases here : tid = tid'
      · subst here
        rw [apply, TsHt.get_destroy_self, made_cons_destroy]
      · have other : TsCall.destroy tid' ≠ .destroy tid := by
          rintro ⟨⟩
          exact here rfl
        rw [apply, TsHt.get_destroy_ne here, made_cons other, same tid]
        simp [pageFor]
  | get tid' =>
      rw [made_cons (by rintro ⟨⟩), ← same tid]
      simp [apply, pageFor]

end TsCall

/-- One call on a memory that holds a table. -/
theorem TsMemory.Holds.perform {m : TsMemory} {ht : TsHt} {call : TsCall} (h : m.Holds ht) (fresh : m.Fresh call) :
    ∃ m' result, Finishes (.error .fuel) (fun fuel => call.perform fuel m) (.ok (m', result)) ∧
      m'.Holds (call.apply ht) ∧ call.Effect ht m result m' ∧
      ∀ e ∈ m'.freed, e ∈ m.freed ∨ Detached e.1 e.2 := by
  cases call with
  | create page tid =>
      cases page with
      | none => exact ⟨m, none, .const _, h, ⟨rfl, rfl⟩, fun e member => .inl member⟩
      | some page =>
          cases found : ht.get tid with
          | none =>
              obtain ⟨m', ends, holds, freed⟩ := h.create_new fresh found
              refine ⟨m', some page, ends, holds, ⟨?_, ?_⟩, ?_⟩
              · intro ts here
                rw [found] at here
                cases here
              · intro _
                exact ⟨rfl, _, holds, TsHt.chain_create found⟩
              · intro e member
                exact .inl (freed ▸ member)
          | some ts =>
              obtain ⟨ends, detached⟩ := h.create_found fresh found
              have same : ht.create (some page) tid = ht := TsHt.create_of_found found
              refine ⟨_, _, ends, ?_, ⟨?_, ?_⟩, ?_⟩
              · rw [TsCall.apply, same]
                exact ⟨h.chains, h.covers⟩
              · intro ts' here
                cases found.symm.trans here
                exact ⟨rfl, rfl⟩
              · intro absent
                rw [found] at absent
                cases absent
              · intro e member
                obtain rfl | earlier := List.mem_cons.mp member
                · exact .inr detached
                · exact .inl earlier
  | destroy tid =>
      cases found : ht.get tid with
      | none =>
          have same : ht.destroy tid = ht := TsHt.destroy_of_absent found
          refine ⟨m, none, (h.destroy_absent found).map fun r => r.map fun m => (m, none), ?_, ⟨?_, ?_⟩, ?_⟩
          · rwa [TsCall.apply, same]
          · intro _
            rfl
          · intro ts here
            rw [found] at here
            cases here
          · intro e member
            exact .inl member
      | some ts =>
          obtain ⟨m', s, ends, holds, freed, detached⟩ := h.destroy_found found
          obtain ⟨before, after, split, misses⟩ := TsHt.get_split found
          refine ⟨m', none, ends.map fun r => r.map fun m => (m, none), holds, ⟨?_, ?_⟩, ?_⟩
          · intro absent
            rw [found] at absent
            cases absent
          · intro ts' here
            cases found.symm.trans here
            exact ⟨before, after, split, _, holds, TsHt.chain_destroy split misses (TsHt.get_tid found)⟩
          · intro e member
            rw [freed] at member
            obtain rfl | earlier := List.mem_cons.mp member
            · exact .inr detached
            · exact .inl earlier
  | get tid => exact ⟨m, _, (h.get tid).map fun r => r.map fun ts => (m, ts), h, ⟨rfl, rfl⟩, fun e member => .inl member⟩

/-- The memory after some calls, and the calls so far. -/
structure TsMemory.After (past : List TsCall) (m : TsMemory) : Prop where
  table : ∃ ht : TsHt, m.Holds ht ∧ ∀ tid, ht.get tid = TsCall.made tid past
  freed : ∀ e ∈ m.freed, Detached e.1 e.2

theorem TsMemory.After.step {past : List TsCall} {m m' : TsMemory} {call : TsCall} (h : m.After past)
    (step : m.Step call m') : m'.After (call :: past) := by
  obtain ⟨fresh, fuel, result, ended⟩ := step
  obtain ⟨ht, holds, made⟩ := h.table
  obtain ⟨m'', result', ends, holds', -, freed⟩ := holds.perform fresh
  have finished : call.perform fuel m ≠ .error .fuel := by
    rw [ended]
    rintro ⟨⟩
  cases ended.symm.trans (ends.eq_of_ne finished)
  refine ⟨⟨_, holds', TsCall.made_apply made⟩, ?_⟩
  intro e member
  obtain earlier | detached := freed e member
  · exact h.freed e earlier
  · exact detached

/-- The thread table is a map: after any calls its chains are those of a `TsHt` that has the
records of the history, every page freed was detached, and the next call comes back with
its effect. -/
theorem thread_table_map {calls : List TsCall} {m : TsMemory} (run : Run TsMemory.Step .boot calls m) :
    ∃ ht : TsHt, m.Holds ht ∧ (∀ tid, ht.get tid = TsCall.made tid calls.reverse) ∧
      (∀ b p c, m.store.Reach b p → m.store.cell p = some c → c.key.tid.toNat % 113 = b) ∧
      (∀ tid ts, ht.get tid = some ts → ∃ next, m.store.cell ts.addr = some ⟨ts, next⟩) ∧
      (∀ e ∈ m.freed, Detached e.1 e.2) ∧
      ∀ call, m.Fresh call → ∃ m' result,
        Finishes (.error .fuel) (fun fuel => call.perform fuel m) (.ok (m', result)) ∧
          call.Effect ht m result m' := by
  have start : TsMemory.boot.After [] :=
    ⟨⟨.empty, .boot, fun _ => rfl⟩, fun _ member => absurd member List.not_mem_nil⟩
  have after := run.invariant_past (P := fun past m => m.After past) (fun _ _ _ _ h => h.step) start
  rw [List.append_nil] at after
  obtain ⟨ht, holds, made⟩ := after.table
  refine ⟨ht, holds, made, ?_, fun _ _ => holds.cell_eq, after.freed, ?_⟩
  · intro b p c reach found
    obtain ⟨⟨q, k⟩, member, rfl⟩ := List.mem_map.mp (holds.chains.reach_iff.mp reach)
    obtain ⟨before, rest, split⟩ := List.append_of_mem member
    cases (holds.chains.cell_eq split).symm.trans found
    obtain ⟨ts, inside, same⟩ := List.mem_map.mp member
    obtain ⟨-, rfl⟩ := Prod.mk.inj same
    exact ht.bucket b ts inside
  · intro call fresh
    obtain ⟨m', result, ends, -, effect, -⟩ := holds.perform fresh
    exact ⟨m', result, ends, effect⟩

/-- Two threads in one bucket, a thread created twice, and a thread destroyed. -/
theorem thread_table_map_collision : ∃ m, Run TsMemory.Step .boot
      [.create (some 0x1000) 5, .create (some 0x2000) 118, .create (some 0x3000) 5, .destroy 5] m ∧
    ∃ ht : TsHt, m.Holds ht ∧ ht.get 5 = none ∧ ht.get 118 = some (.new 0x2000 118) := by
  have returns : ∃ m, Run TsMemory.Step .boot
      [.create (some 0x1000) 5, .create (some 0x2000) 118, .create (some 0x3000) 5, .destroy 5] m :=
    ⟨_, .cons ⟨rfl, 3, _, rfl⟩ (.cons ⟨rfl, 3, _, rfl⟩ (.cons ⟨rfl, 3, _, rfl⟩
      (.cons ⟨trivial, 3, _, rfl⟩ (.nil _))))⟩
  obtain ⟨m, run⟩ := returns
  obtain ⟨ht, holds, made, -⟩ := thread_table_map run
  exact ⟨m, run, ht, holds, (made 5).trans rfl, (made 118).trans rfl⟩

end SmpVxd
