import SmpVxd.Driver.Fpu
import Mathlib.Data.List.Nodup

/-!
# The thread table

`ts_ht` is a hash table of chains. Here a chain is the list of its records in
order, and a record carries the address of its page, so that a pointer to it is
that address. `TsHt` keeps the two facts about chains that the walks rely on:
a record is in the bucket of its thread id, and no chain has an id twice.
-/

namespace SmpVxd

/-- `ts_thread_t`; `addr` is the page the record lives in, and the `next` pointer
is the order of the chain. A null lock pointer is `0`. -/
structure TsThread where
  addr : Dword
  tid : Dword
  smpStatus : Dword
  smpApid : Nat
  smpBspIdleProc : Dword
  smpBspIdleLock : Dword
  dirty : Dword
  data : Dword
  mode : Dword
  pagefault : Dword
  fpuState : ExtState

def thtPrime : Nat := 113

/-- `TS_HASH` -/
def tsHash (id : Dword) : Nat := id.toNat % thtPrime

/-- The record that `ts_thread_create` prepares in a zeroed page. -/
def TsThread.new (addr tid : Dword) : TsThread where
  addr := addr
  tid := tid
  smpStatus := 0
  smpApid := 0
  smpBspIdleProc := 0
  smpBspIdleLock := 0
  dirty := 1
  data := addr + 0x640
  mode := smpModeSystem
  pagefault := 0
  fpuState := .zero

/-- The walk of `ts_thread_create`: append, unless the id is met on the way. -/
def chainInsert (ts : TsThread) : List TsThread → List TsThread
  | [] => [ts]
  | t :: rest => if t.tid = ts.tid then t :: rest else t :: chainInsert ts rest

/-- The walk of `ts_thread_destroy`: unlink the first record with the id. -/
def chainRemove (tid : Dword) : List TsThread → List TsThread
  | [] => []
  | t :: rest => if t.tid = tid then rest else t :: chainRemove tid rest

/-- The walk of `ts_thread_get`. -/
def chainFind (tid : Dword) : List TsThread → Option TsThread
  | [] => none
  | t :: rest => if t.tid = tid then some t else chainFind tid rest

/-- Store into the record with the id. -/
def chainModify (tid : Dword) (f : TsThread → TsThread) (chain : List TsThread) : List TsThread :=
  chain.map fun t => if t.tid = tid then f t else t

theorem chainFind_tid {tid : Dword} {chain : List TsThread} {ts : TsThread}
    (found : chainFind tid chain = some ts) : ts.tid = tid := by
  induction chain with
  | nil => cases found
  | cons t rest ih =>
      simp only [chainFind] at found
      split at found
      · cases found
        assumption
      · exact ih found

theorem chainFind_eq_none {tid : Dword} {chain : List TsThread} :
    chainFind tid chain = none ↔ ∀ ts ∈ chain, ts.tid ≠ tid := by
  induction chain with
  | nil => simp [chainFind]
  | cons t rest ih =>
      simp only [chainFind, List.mem_cons, forall_eq_or_imp]
      by_cases h : t.tid = tid <;> simp [h, ih]

theorem chainFind_mem {tid : Dword} {chain : List TsThread} {ts : TsThread}
    (found : chainFind tid chain = some ts) : ts ∈ chain := by
  induction chain with
  | nil => cases found
  | cons t rest ih =>
      simp only [chainFind] at found
      split at found
      · cases found
        exact List.mem_cons_self
      · exact List.mem_cons_of_mem _ (ih found)

theorem mem_chainInsert {ts t : TsThread} {chain : List TsThread} :
    t ∈ chainInsert ts chain → t = ts ∨ t ∈ chain := by
  induction chain with
  | nil => simp [chainInsert]
  | cons u rest ih =>
      simp only [chainInsert]
      split
      · exact Or.inr
      · intro member
        obtain rfl | member := List.mem_cons.mp member
        · exact .inr List.mem_cons_self
        · exact (ih member).imp_right (List.mem_cons_of_mem _)

theorem chainRemove_sublist (tid : Dword) (chain : List TsThread) :
    (chainRemove tid chain).Sublist chain := by
  induction chain with
  | nil => exact .slnil
  | cons t rest ih =>
      simp only [chainRemove]
      split
      · exact List.sublist_cons_self t rest
      · exact ih.cons_cons t

theorem chainFind_insert_self (ts : TsThread) (chain : List TsThread) :
    chainFind ts.tid (chainInsert ts chain) = some ((chainFind ts.tid chain).getD ts) := by
  induction chain with
  | nil => simp [chainInsert, chainFind]
  | cons t rest ih =>
      by_cases h : t.tid = ts.tid <;> simp [chainInsert, chainFind, h, ih]

theorem chainFind_insert_ne {tid : Dword} (ts : TsThread) (chain : List TsThread)
    (ne : tid ≠ ts.tid) : chainFind tid (chainInsert ts chain) = chainFind tid chain := by
  induction chain with
  | nil => simp [chainInsert, chainFind, ne.symm]
  | cons t rest ih =>
      by_cases h : t.tid = ts.tid
      · simp [chainInsert, h]
      · simp only [chainInsert, h, if_false, chainFind, ih]

theorem chainFind_remove_ne {tid tid' : Dword} (chain : List TsThread) (ne : tid' ≠ tid) :
    chainFind tid' (chainRemove tid chain) = chainFind tid' chain := by
  induction chain with
  | nil => rfl
  | cons t rest ih =>
      by_cases h : t.tid = tid
      · simp [chainRemove, chainFind, h, ne.symm]
      · simp only [chainRemove, h, if_false, chainFind, ih]

theorem chainFind_remove_self {tid : Dword} {chain : List TsThread}
    (unique : (chain.map (·.tid)).Nodup) : chainFind tid (chainRemove tid chain) = none := by
  induction chain with
  | nil => rfl
  | cons t rest ih =>
      simp only [List.map_cons, List.nodup_cons, List.mem_map, not_exists, not_and] at unique
      by_cases h : t.tid = tid
      · simp only [chainRemove, h, if_true]
        exact chainFind_eq_none.mpr fun ts member same => unique.1 ts member (same.trans h.symm)
      · simp only [chainRemove, h, if_false, chainFind, ih unique.2]

theorem chainFind_modify {tid tid' : Dword} {f : TsThread → TsThread}
    (keeps : ∀ t, (f t).tid = t.tid) (chain : List TsThread) :
    chainFind tid' (chainModify tid f chain) =
      if tid' = tid then (chainFind tid' chain).map f else chainFind tid' chain := by
  induction chain with
  | nil => simp [chainModify, chainFind]
  | cons t rest ih =>
      simp only [chainModify, List.map_cons] at ih ⊢
      by_cases h : t.tid = tid
      · by_cases h' : tid' = tid
        · simp [chainFind, keeps, h, h']
        · simp [chainFind, keeps, h, h', ih, Ne.symm h']
      · by_cases h' : tid' = tid <;> by_cases h'' : t.tid = tid' <;> simp_all [chainFind]

theorem chainModify_tids {tid : Dword} {f : TsThread → TsThread}
    (keeps : ∀ t, (f t).tid = t.tid) (chain : List TsThread) :
    (chainModify tid f chain).map (·.tid) = chain.map (·.tid) := by
  induction chain with
  | nil => rfl
  | cons t rest ih =>
      simp only [chainModify, List.map_cons] at ih ⊢
      rw [ih]
      split <;> simp [keeps]

theorem chainInsert_tids_nodup {ts : TsThread} {chain : List TsThread}
    (unique : (chain.map (·.tid)).Nodup) : ((chainInsert ts chain).map (·.tid)).Nodup := by
  induction chain with
  | nil => simp [chainInsert]
  | cons t rest ih =>
      simp only [List.map_cons, List.nodup_cons, List.mem_map, not_exists, not_and] at unique
      simp only [chainInsert]
      split
      · simpa using unique
      · rename_i ne
        simp only [List.map_cons, List.nodup_cons, List.mem_map, not_exists, not_and]
        refine ⟨fun u member same => ?_, ih unique.2⟩
        obtain rfl | member := mem_chainInsert member
        · exact ne same.symm
        · exact unique.1 u member same

theorem chainInsert_of_new {ts : TsThread} {chain : List TsThread} (new : ∀ t ∈ chain, t.tid ≠ ts.tid) :
    chainInsert ts chain = chain ++ [ts] := by
  induction chain with
  | nil => rfl
  | cons t rest ih =>
      rw [chainInsert, if_neg (new t List.mem_cons_self), ih fun u member => new u (List.mem_cons_of_mem _ member)]
      rfl

/-- An id that is in the chain is not inserted again. -/
theorem chainInsert_of_found {ts t : TsThread} {chain : List TsThread}
    (found : chainFind ts.tid chain = some t) : chainInsert ts chain = chain := by
  induction chain with
  | nil => cases found
  | cons u rest ih =>
      rw [chainInsert]
      split
      · rfl
      · rename_i other
        rw [chainFind, if_neg other] at found
        rw [ih found]

theorem chainRemove_of_absent {tid : Dword} {chain : List TsThread} (absent : ∀ t ∈ chain, t.tid ≠ tid) :
    chainRemove tid chain = chain := by
  induction chain with
  | nil => rfl
  | cons t rest ih =>
      rw [chainRemove, if_neg (absent t List.mem_cons_self), ih fun u member => absent u (List.mem_cons_of_mem _ member)]

theorem chainRemove_of_split {tid : Dword} {before after : List TsThread} {ts : TsThread}
    (first : ∀ t ∈ before, t.tid ≠ tid) (here : ts.tid = tid) :
    chainRemove tid (before ++ ts :: after) = before ++ after := by
  induction before with
  | nil => rw [List.nil_append, chainRemove, if_pos here, List.nil_append]
  | cons t rest ih =>
      rw [List.cons_append, chainRemove, if_neg (first t List.mem_cons_self),
        ih fun u member => first u (List.mem_cons_of_mem _ member), List.cons_append]

/-- Where the walk of `ts_thread_get` stops. -/
theorem chainFind_split {tid : Dword} {chain : List TsThread} {ts : TsThread}
    (found : chainFind tid chain = some ts) :
    ∃ before after, chain = before ++ ts :: after ∧ ∀ t ∈ before, t.tid ≠ tid := by
  induction chain with
  | nil => cases found
  | cons t rest ih =>
      rw [chainFind] at found
      split at found
      · cases found
        exact ⟨[], rest, rfl, fun t member => absurd member List.not_mem_nil⟩
      · rename_i other
        obtain ⟨before, after, rfl, misses⟩ := ih found
        refine ⟨t :: before, after, rfl, ?_⟩
        intro u member
        obtain rfl | inside := List.mem_cons.mp member
        · exact other
        · exact misses u inside

/-- `ts_ht`, with what every walk over it relies on. -/
structure TsHt where
  chain : Nat → List TsThread
  bucket : ∀ b, ∀ ts ∈ chain b, tsHash ts.tid = b
  unique : ∀ b, ((chain b).map (·.tid)).Nodup

namespace TsHt

/-- `ts_init` -/
def empty : TsHt where
  chain _ := []
  bucket := by simp
  unique := by simp

/-- `ts_thread_get` -/
def get (ht : TsHt) (tid : Dword) : Option TsThread := chainFind tid (ht.chain (tsHash tid))

/-- `ts_thread_create` with the outcome of `_PageAllocate`; a failed allocation
and an id that exists leave the table as it is. -/
def create (ht : TsHt) (page : Option Dword) (tid : Dword) : TsHt :=
  match page with
  | none => ht
  | some addr =>
      { chain := Function.update ht.chain (tsHash tid)
          (chainInsert (.new addr tid) (ht.chain (tsHash tid)))
        bucket := by
          intro b ts member
          by_cases h : b = tsHash tid
          · subst h
            rw [Function.update_self] at member
            rcases mem_chainInsert member with rfl | member
            · rfl
            · exact ht.bucket _ ts member
          · rw [Function.update_of_ne h] at member
            exact ht.bucket b ts member
        unique := by
          intro b
          by_cases h : b = tsHash tid
          · subst h
            rw [Function.update_self]
            exact chainInsert_tids_nodup (ht.unique _)
          · rw [Function.update_of_ne h]
            exact ht.unique b }

/-- `ts_thread_destroy` -/
def destroy (ht : TsHt) (tid : Dword) : TsHt where
  chain := Function.update ht.chain (tsHash tid) (chainRemove tid (ht.chain (tsHash tid)))
  bucket := by
    intro b ts member
    by_cases h : b = tsHash tid
    · subst h
      rw [Function.update_self] at member
      exact ht.bucket _ ts ((chainRemove_sublist tid _).subset member)
    · rw [Function.update_of_ne h] at member
      exact ht.bucket b ts member
  unique := by
    intro b
    by_cases h : b = tsHash tid
    · subst h
      rw [Function.update_self]
      exact (ht.unique _).sublist ((chainRemove_sublist tid _).map _)
    · rw [Function.update_of_ne h]
      exact ht.unique b

/-- A store through the pointer that `ts_thread_get` returned; the id of a
record is never stored to again. -/
def modify (ht : TsHt) (tid : Dword) (f : TsThread → TsThread)
    (keeps : ∀ t, (f t).tid = t.tid) : TsHt where
  chain := Function.update ht.chain (tsHash tid) (chainModify tid f (ht.chain (tsHash tid)))
  bucket := by
    intro b ts member
    by_cases h : b = tsHash tid
    · subst h
      rw [Function.update_self] at member
      obtain ⟨t, old, rfl⟩ := List.mem_map.mp member
      split
      · rw [keeps]
        exact ht.bucket _ t old
      · exact ht.bucket _ t old
    · rw [Function.update_of_ne h] at member
      exact ht.bucket b ts member
  unique := by
    intro b
    by_cases h : b = tsHash tid
    · subst h
      rw [Function.update_self, chainModify_tids keeps]
      exact ht.unique _
    · rw [Function.update_of_ne h]
      exact ht.unique b

variable {ht : TsHt} {tid tid' : Dword}

theorem get_tid {ts : TsThread} (found : ht.get tid = some ts) : ts.tid = tid :=
  chainFind_tid found

@[simp] theorem get_empty (tid : Dword) : empty.get tid = none := rfl

@[simp] theorem create_none : ht.create none tid = ht := rfl

theorem get_create_self (page : Dword) :
    (ht.create (some page) tid).get tid = some ((ht.get tid).getD (.new page tid)) := by
  simp only [get, create, Function.update_self]
  exact chainFind_insert_self (.new page tid) (ht.chain (tsHash tid))

theorem get_create_ne (page : Option Dword) (ne : tid' ≠ tid) :
    (ht.create page tid).get tid' = ht.get tid' := by
  cases page with
  | none => rfl
  | some page =>
      by_cases h : tsHash tid' = tsHash tid
      · simp only [get, create, h, Function.update_self]
        exact chainFind_insert_ne _ _ ne
      · simp only [get, create, Function.update_of_ne h]

theorem get_destroy_self : (ht.destroy tid).get tid = none := by
  simpa only [get, destroy, Function.update_self] using chainFind_remove_self (ht.unique _)

theorem get_destroy_ne (ne : tid' ≠ tid) : (ht.destroy tid).get tid' = ht.get tid' := by
  by_cases h : tsHash tid' = tsHash tid
  · simp only [get, destroy, h, Function.update_self]
    exact chainFind_remove_ne _ ne
  · simp only [get, destroy, Function.update_of_ne h]

theorem get_modify {f : TsThread → TsThread} {keeps : ∀ t, (f t).tid = t.tid} :
    (ht.modify tid f keeps).get tid' =
      if tid' = tid then (ht.get tid').map f else ht.get tid' := by
  by_cases h : tsHash tid' = tsHash tid
  · simp only [get, modify, h, Function.update_self]
    exact chainFind_modify keeps _
  · have ne : tid' ≠ tid := by
      rintro rfl
      exact h rfl
    simp only [get, modify, Function.update_of_ne h, if_neg ne]

theorem get_modify_self {f : TsThread → TsThread} {keeps : ∀ t, (f t).tid = t.tid} :
    (ht.modify tid f keeps).get tid = (ht.get tid).map f := by
  rw [get_modify, if_pos rfl]

theorem get_modify_ne {f : TsThread → TsThread} {keeps : ∀ t, (f t).tid = t.tid}
    (ne : tid' ≠ tid) : (ht.modify tid f keeps).get tid' = ht.get tid' := by
  rw [get_modify, if_neg ne]

end TsHt

/-- A record without the fields that only the BSP's own switching looks at. -/
def TsThread.core (ts : TsThread) : TsThread :=
  { ts with dirty := 0, pagefault := 0, fpuState := .zero }

namespace TsHt

/-- The tables differ at most in fields outside of the cores. -/
def SameCore (ht ht' : TsHt) : Prop :=
  ∀ tid, (ht'.get tid).map TsThread.core = (ht.get tid).map TsThread.core

variable {ht ht' : TsHt}

theorem SameCore.refl (ht : TsHt) : SameCore ht ht := fun _ => rfl

/-- Whatever is read from the cores is the same in both tables. -/
theorem SameCore.map {β : Type*} (same : SameCore ht ht') (g : TsThread → β)
    (ofCore : ∀ ts, g ts.core = g ts) (tid : Dword) :
    (ht'.get tid).map g = (ht.get tid).map g := by
  have h := congrArg (Option.map g) (same tid)
  simpa only [Option.map_map, Function.comp_def, ofCore] using h

theorem SameCore.symm (same : SameCore ht ht') : SameCore ht' ht := fun tid => (same tid).symm

theorem SameCore.get (same : SameCore ht ht') {tid : Dword} {ts : TsThread}
    (found : ht.get tid = some ts) : ∃ ts', ht'.get tid = some ts' ∧ ts'.core = ts.core := by
  have h := same tid
  rw [found] at h
  exact Option.map_eq_some_iff.mp h

theorem SameCore.modify (ht : TsHt) {tid : Dword} {f : TsThread → TsThread}
    (keeps : ∀ t, (f t).tid = t.tid) (core : ∀ ts, (f ts).core = ts.core) :
    SameCore ht (ht.modify tid f keeps) := by
  intro tid'
  rw [get_modify]
  split
  · simp only [Option.map_map, Function.comp_def, core]
  · rfl

/-- The records that the table holds. -/
def Live (ht : TsHt) (ts : TsThread) : Prop := ∃ b, ts ∈ ht.chain b

theorem live_iff {ts : TsThread} : ht.Live ts ↔ ht.get ts.tid = some ts := by
  constructor
  · rintro ⟨b, member⟩
    obtain rfl := ht.bucket b ts member
    cases found : ht.get ts.tid with
    | none => exact absurd rfl (chainFind_eq_none.mp found ts member)
    | some ts' =>
        have same := List.inj_on_of_nodup_map (ht.unique _) (chainFind_mem found) member
          (get_tid found)
        rw [same]
  · intro found
    exact ⟨_, chainFind_mem found⟩

/-- All records of `ts_ht`, bucket by bucket. -/
def records (ht : TsHt) : List TsThread := (List.range thtPrime).flatMap ht.chain

theorem mem_records {ts : TsThread} : ts ∈ ht.records ↔ ht.Live ts := by
  simp only [records, List.mem_flatMap, List.mem_range]
  constructor
  · rintro ⟨b, _, member⟩
    exact ⟨b, member⟩
  · rintro ⟨b, member⟩
    refine ⟨b, ?_, member⟩
    rw [← ht.bucket b ts member]
    exact Nat.mod_lt _ (by decide)

end TsHt

end SmpVxd
