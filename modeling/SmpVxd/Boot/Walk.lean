import SmpVxd.Boot.SmpInit
import Mathlib.Algebra.Order.Ring.Int

/-!
# The walk over the configuration table

The loop of `smp_init` as a function of the table alone: the offsets at which it
finds entries, the local APIC ids it takes for APs, and what registering one of them
does to the state. `listCpus_ok` and `listCpus_error` say what the loop does for every
content of the memory and every outcome of the page allocations.
-/

namespace SmpVxd.Boot

variable {env : Env} {m : X86.Mem} {ct : Dword} {s t : State}

/-! ## The table -/

/-- `ct->length` -/
def tableLength (m : X86.Mem) (ct : Dword) : Nat := (word m (ct + 4)).toNat

/-- The step to the next entry, by the type of the entry at `off`. -/
def entrySize (m : X86.Mem) (ct : Dword) (off : Nat) : Nat :=
  if m (ct + .ofNat 32 off) = 0 then mpSizeProcessor else mpSizeApic

theorem entrySize_pos (m : X86.Mem) (ct : Dword) (off : Nat) : 0 < entrySize m ct off := by
  rw [entrySize]
  split <;> decide

/-- The offsets of the entries that the loop visits from `off` on. -/
def entriesFrom (m : X86.Mem) (ct : Dword) (off : Nat) : List Nat :=
  if off < tableLength m ct then off :: entriesFrom m ct (off + entrySize m ct off) else []
termination_by tableLength m ct - off
decreasing_by have := entrySize_pos m ct off; omega

/-- The local APIC id of an entry that is a processor, enabled, and not flagged as
the boot processor. -/
def apOf (m : X86.Mem) (ct : Dword) (off : Nat) : Option Nat :=
  let cpu := ct + .ofNat 32 off
  if m cpu = 0 ∧ m (cpu + 3) &&& 1 ≠ 0 ∧ m (cpu + 3) &&& 2 = 0 then some (m (cpu + 1)).toNat
  else none

def apIdsFrom (m : X86.Mem) (ct : Dword) (off : Nat) : List Nat :=
  (entriesFrom m ct off).filterMap (apOf m ct)

/-- The APs that fit under `max_cpus` when `apCount` are there. -/
def registeredFrom (env : Env) (ct : Dword) (off apCount : Nat) : List Nat :=
  (apIdsFrom env.firstMb ct off).take (env.maxCpus - 1 - apCount).toNat

theorem apIdsFrom_of_lt {off : Nat} (more : off < tableLength m ct) :
    apIdsFrom m ct off =
      (apOf m ct off).toList ++ apIdsFrom m ct (off + entrySize m ct off) := by
  rw [apIdsFrom, entriesFrom, if_pos more, List.filterMap_cons]
  cases apOf m ct off <;> rfl

theorem apIdsFrom_of_ge {off : Nat} (done : ¬off < tableLength m ct) : apIdsFrom m ct off = [] := by
  rw [apIdsFrom, entriesFrom, if_neg done, List.filterMap_nil]

theorem apIdsFrom_lt {off : Nat} : ∀ i ∈ apIdsFrom m ct off, i < maxCores := by
  intro i mem
  obtain ⟨off, -, found⟩ := List.mem_filterMap.1 mem
  simp only [apOf, Option.ite_none_right_eq_some, Option.some.injEq] at found
  rw [← found.2]
  exact BitVec.isLt _

/-! ## One AP -/

/-- The entries that were visited on the way, and what was read there. -/
def State.log (s : State) (cpus as : List Dword) : State := (s.visit cpus).read as

theorem State.log_nil (as : List Dword) : s.log [] as = s.read as := by
  simp only [log, visit, List.append_nil]

theorem State.log_read (cpus as bs : List Dword) : (s.log cpus as).read bs = s.log cpus (as ++ bs) :=
  State.read_read ..

theorem State.log_log (cpus cpus' as bs : List Dword) :
    (s.log cpus as).log cpus' bs = s.log (cpus ++ cpus') (as ++ bs) := by
  simp only [log, visit, read, List.append_assoc]

/-- `ttable[apid]` after the loop has met its AP. -/
def newItem (env : Env) (apCount allocs : Nat) : Titem where
  stack := env.page allocs
  data := (Tdata.alloc (env.page (allocs + 1))).map
    (Tdata.setup env (env.page allocs) (env.phy (allocs + 1)) apCount)

/-- What the loop does to the state for an AP within the limit. -/
def State.register (env : Env) (apid apCount : Nat) (s : State) : State :=
  (s.allocated.allocated.setItem apid (newItem env apCount s.allocs)).raiseMax apid

section

variable {apid apCount : Nat}

@[simp] theorem State.register_allocs : (s.register env apid apCount).allocs = s.allocs + 2 := rfl

@[simp] theorem State.register_items : (s.register env apid apCount).items =
    Function.update s.items apid (newItem env apCount s.allocs) := rfl

@[simp] theorem State.register_ttableMax :
    (s.register env apid apCount).ttableMax = max s.ttableMax apid := by
  change (if apid > s.ttableMax then apid else s.ttableMax) = _
  split <;> omega

theorem State.register_log (cpus as : List Dword) :
    (s.log cpus as).register env apid apCount = (s.register env apid apCount).log cpus as := rfl

end

def State.registerAll (env : Env) : List Nat → Nat → State → State
  | [], _, s => s
  | apid :: rest, apCount, s => registerAll env rest (apCount + 1) (s.register env apid apCount)

/-- The table and the pages for `k` more APs are there. -/
def Supplied (env : Env) (s : State) (k : Nat) : Prop :=
  k = 0 ∨ s.ttable ≠ 0 ∧ ∀ i < 2 * k, env.page (s.allocs + i) ≠ 0

theorem Tdata.alloc_of_ne {mem : Dword} (ne : mem ≠ 0) : ∃ data, Tdata.alloc mem = some data := by
  rw [alloc, if_neg ne]
  exact ⟨_, rfl⟩

theorem Supplied.one_iff :
    Supplied env s 1 ↔ s.ttable ≠ 0 ∧ env.page s.allocs ≠ 0 ∧ env.page (s.allocs + 1) ≠ 0 := by
  constructor
  · rintro (none | ⟨table, pages⟩)
    · cases none
    · exact ⟨table, pages 0 (by decide), pages 1 (by decide)⟩
  · rintro ⟨table, stack, data⟩
    refine .inr ⟨table, fun i lt => ?_⟩
    match i, lt with
    | 0, _ => exact stack
    | 1, _ => exact data

theorem Supplied.succ_iff (apid apCount : Nat) {k : Nat} :
    Supplied env s (k + 1) ↔ Supplied env s 1 ∧ Supplied env (s.register env apid apCount) k := by
  constructor
  · rintro (none | ⟨table, pages⟩)
    · cases none
    · refine ⟨.inr ⟨table, fun i lt => pages i (by omega)⟩, .inr ⟨table, fun i lt => ?_⟩⟩
      rw [show (s.register env apid apCount).allocs + i = s.allocs + (i + 2) by
        rw [State.register_allocs]; omega]
      exact pages (i + 2) (by omega)
  · rintro ⟨first, rest⟩
    obtain ⟨table, -⟩ := Supplied.one_iff.1 first
    refine .inr ⟨table, fun i lt => ?_⟩
    obtain low | high := Nat.lt_or_ge i 2
    · obtain none | ⟨-, pages⟩ := first
      · cases none
      · exact pages i low
    · obtain none | ⟨-, pages⟩ := rest
      · omega
      · have page := pages (i - 2) (by omega)
        rwa [show (s.register env apid apCount).allocs + (i - 2) = s.allocs + i by
          rw [State.register_allocs]; omega] at page

section

variable {apid apCount : Nat}

@[simp] theorem State.allocated_allocs : s.allocated.allocs = s.allocs + 1 := rfl

@[simp] theorem State.allocated_setItem (item : Titem) :
    (s.setItem apid item).allocated = s.allocated.setItem apid item := rfl

@[simp] theorem State.setItem_allocs (item : Titem) : (s.setItem apid item).allocs = s.allocs := rfl

@[simp] theorem State.setItem_self (item : Titem) : (s.setItem apid item).items apid = item :=
  Function.update_self ..

@[simp] theorem State.setItem_setItem (item item' : Titem) :
    (s.setItem apid item).setItem apid item' = s.setItem apid item' := by
  simp only [setItem, Function.update_idem]

theorem pageCode_run : (pageCode env).run s =
    .ok (env.page s.allocs, env.phy s.allocs) s.allocated := rfl

theorem storeItem_ok (f : Titem → Titem) (table : s.ttable ≠ 0) : (storeItem apid f).run s =
    .ok () (s.setItem apid (f (s.items apid))) := by
  rw [storeItem, bind_get, if_neg table]
  rfl

theorem storeItem_error (f : Titem → Titem) (null : s.ttable = 0) :
    (storeItem apid f).run s = .error .nullStore s := by
  rw [storeItem, bind_get, if_pos null]
  rfl

theorem storeData_ok (f : Tdata → Tdata) (data : Tdata) (block : (s.items apid).data = some data) :
    (storeData apid f).run s =
      .ok () (s.setItem apid { s.items apid with data := some (f data) }) := by
  rw [storeData, bind_get, block]
  rfl

theorem storeData_error (f : Tdata → Tdata) (null : (s.items apid).data = none) :
    (storeData apid f).run s = .error .nullStore s := by
  rw [storeData, bind_get, null]
  rfl

theorem storePages_ok {p : Dword} (ne : p ≠ 0) : (storePages p).run s = .ok () s := by
  rw [storePages, if_neg ne]
  rfl

theorem storePages_error {p : Dword} (null : p = 0) :
    (storePages p).run s = .error .nullStore s := by
  rw [storePages, if_pos null]
  rfl

theorem setupAp_ok (supplied : Supplied env s 1) :
    (setupAp env apid apCount).run s = .ok () (s.register env apid apCount) := by
  obtain ⟨table, stack, mem⟩ := Supplied.one_iff.1 supplied
  obtain ⟨data, block⟩ := Tdata.alloc_of_ne mem
  rw [setupAp, bind_ok pageCode_run]
  dsimp only
  rw [bind_ok (storeItem_ok _ (by exact table)), bind_ok (storePages_ok stack), bind_ok pageCode_run]
  dsimp only
  rw [bind_ok (storeItem_ok _ (by exact table)), bind_ok (storeData_ok _ data (by simp [block]))]
  simp only [State.allocated_setItem, State.setItem_setItem, State.setItem_self, State.setItem_allocs,
    State.allocated_allocs]
  rw [State.register, newItem, block, Option.map_some]
  rfl

variable (apid apCount) in
theorem setupAp_error (missing : ¬Supplied env s 1) :
    ∃ t, (setupAp env apid apCount).run s = .error .nullStore t ∧ t.started = s.started := by
  rw [setupAp, bind_ok pageCode_run]
  dsimp only
  by_cases table : s.ttable = 0
  · exact ⟨_, bind_error (storeItem_error _ (by exact table)), rfl⟩
  rw [bind_ok (storeItem_ok _ (by exact table))]
  by_cases stack : env.page s.allocs = 0
  · exact ⟨_, bind_error (storePages_error stack), rfl⟩
  rw [bind_ok (storePages_ok stack), bind_ok pageCode_run]
  dsimp only
  rw [bind_ok (storeItem_ok _ (by exact table))]
  have mem : env.page (s.allocs + 1) = 0 := by
    by_contra mem
    exact missing (Supplied.one_iff.2 ⟨table, stack, mem⟩)
  refine ⟨_, bind_error (storeData_error _ ?_), rfl⟩
  rw [State.setItem_self, Tdata.alloc, State.setItem_allocs, State.allocated_allocs, if_pos mem]

end

/-! ## The loop -/

/-- The reads that `visitProcessor` does for the entry at `cpu`. -/
def flagReads (m : X86.Mem) (cpu : Dword) : List Dword :=
  (cpu + 3) :: if m (cpu + 3) &&& 1 ≠ 0 then
    (cpu + 3) :: if m (cpu + 3) &&& 2 = 0 then [cpu + 1] else []
  else []

def entryReads (m : X86.Mem) (ct : Dword) (off : Nat) : List Dword :=
  let cpu := ct + .ofNat 32 off
  cpu :: if m cpu = 0 then flagReads m cpu else []

def lengthReads (ct : Dword) : List Dword := [ct + 4, ct + 4 + 1]

/-- The values of `cpu` on the way. -/
def cpusFrom (m : X86.Mem) (ct : Dword) (off : Nat) : List Dword :=
  (entriesFrom m ct off).map fun off => ct + .ofNat 32 off

def walkReads (m : X86.Mem) (ct : Dword) (off : Nat) : List Dword :=
  (entriesFrom m ct off).flatMap (fun off => lengthReads ct ++ entryReads m ct off) ++ lengthReads ct

theorem visitProcessor_run (env : Env) (s : State) (cpu : Dword) (apCount : Nat) :
    (visitProcessor env cpu apCount).run s =
      if env.firstMb (cpu + 3) &&& 1 ≠ 0 ∧ env.firstMb (cpu + 3) &&& 2 = 0 ∧
          (apCount : Int) + 1 < env.maxCpus then
        (setupAp env (env.firstMb (cpu + 1)).toNat apCount >>= fun _ => pure (apCount + 1)).run
          (s.read (flagReads env.firstMb cpu))
      else .ok apCount (s.read (flagReads env.firstMb cpu)) := by
  rw [visitProcessor, flagReads, bind_ok (reading_byte env (cpu + 3) s)]
  by_cases enabled : env.firstMb (cpu + 3) &&& 1 ≠ 0
  · rw [if_pos enabled, if_pos enabled, bind_ok (reading_byte env (cpu + 3) _)]
    by_cases ap : env.firstMb (cpu + 3) &&& 2 = 0
    · rw [if_pos ap, if_pos ap, bind_ok (reading_byte env (cpu + 1) _)]
      simp only [State.read_read]
      by_cases room : (apCount : Int) + 1 < env.maxCpus
      · rw [if_pos room, if_pos ⟨enabled, ap, room⟩]
        rfl
      · rw [if_neg room, if_neg fun h => room h.2.2]
        rfl
    · rw [if_neg ap, if_neg ap, if_neg fun h => ap h.2.1, State.read_read]
      rfl
  · rw [if_neg enabled, if_neg enabled, if_neg fun h => enabled h.1]
    rfl

section

variable {off apCount apid : Nat}

theorem reading_length :
    Reading (readWord env (ct + 4)) (word env.firstMb (ct + 4)) (lengthReads ct) :=
  reading_word env (ct + 4)

theorem listCpus_of_ge (done : ¬off < tableLength env.firstMb ct) :
    (listCpus env ct off apCount).run s = .ok apCount (s.log [] (lengthReads ct)) := by
  rw [listCpus, bind_ok (reading_length s),
    dif_neg (show ¬off < (word env.firstMb (ct + 4)).toNat from done), State.log_nil]
  rfl

theorem listCpus_of_lt (more : off < tableLength env.firstMb ct) :
    (listCpus env ct off apCount).run s =
      (if env.firstMb (ct + .ofNat 32 off) = 0 then do
          let apCount ← visitProcessor env (ct + .ofNat 32 off) apCount
          listCpus env ct (off + entrySize env.firstMb ct off) apCount
        else listCpus env ct (off + entrySize env.firstMb ct off) apCount).run
        (s.log [ct + .ofNat 32 off] (lengthReads ct ++ [ct + .ofNat 32 off])) := by
  rw [listCpus, bind_ok (reading_length s),
    dif_pos (show off < (word env.firstMb (ct + 4)).toNat from more)]
  dsimp only
  rw [bind_modify, bind_ok (reading_byte env _ _), entrySize,
    show (s.read (lengthReads ct)).visit [ct + .ofNat 32 off] =
      s.log [ct + .ofNat 32 off] (lengthReads ct) from rfl, State.log_read]
  split <;> rfl

/-- An entry that is no AP, or for which there is no room. -/
theorem listCpus_skip (more : off < tableLength env.firstMb ct)
    (skipped : apOf env.firstMb ct off = none ∨ ¬(apCount : Int) + 1 < env.maxCpus) :
    (listCpus env ct off apCount).run s =
      (listCpus env ct (off + entrySize env.firstMb ct off) apCount).run
        (s.log [ct + .ofNat 32 off] (lengthReads ct ++ entryReads env.firstMb ct off)) := by
  rw [listCpus_of_lt more, entryReads]
  by_cases processor : env.firstMb (ct + .ofNat 32 off) = 0
  · have visited := visitProcessor_run env (s.log [ct + .ofNat 32 off] (lengthReads ct ++ [ct + .ofNat 32 off]))
      (ct + .ofNat 32 off) apCount
    rw [if_neg ?_, State.log_read, List.append_assoc] at visited
    · rw [if_pos processor, if_pos processor, bind_ok visited]
      rfl
    · rintro ⟨enabled, ap, room⟩
      obtain none | full := skipped
      · rw [apOf, if_pos ⟨processor, enabled, ap⟩] at none
        cases none
      · exact full room
  · rw [if_neg processor, if_neg processor]

theorem listCpus_ap (more : off < tableLength env.firstMb ct)
    (ap : apOf env.firstMb ct off = some apid) (room : (apCount : Int) + 1 < env.maxCpus) :
    (listCpus env ct off apCount).run s =
      (setupAp env apid apCount >>= fun _ =>
          listCpus env ct (off + entrySize env.firstMb ct off) (apCount + 1)).run
        (s.log [ct + .ofNat 32 off] (lengthReads ct ++ entryReads env.firstMb ct off)) := by
  simp only [apOf, Option.ite_none_right_eq_some, Option.some.injEq] at ap
  obtain ⟨⟨processor, enabled, ap⟩, rfl⟩ := ap
  have visited := visitProcessor_run env (s.log [ct + .ofNat 32 off] (lengthReads ct ++ [ct + .ofNat 32 off]))
    (ct + .ofNat 32 off) apCount
  rw [if_pos ⟨enabled, ap, room⟩, State.log_read, List.append_assoc] at visited
  rw [listCpus_of_lt more, entryReads, if_pos processor, if_pos processor]
  cases prepared : (setupAp env (env.firstMb (ct + .ofNat 32 off + 1)).toNat apCount).run
      (s.log [ct + .ofNat 32 off]
        (lengthReads ct ++ (ct + .ofNat 32 off) :: flagReads env.firstMb (ct + .ofNat 32 off))) with
  | ok _ t =>
      rw [bind_ok prepared]
      rw [List.singleton_append, bind_ok prepared] at visited
      rw [bind_ok visited]
  | error e t =>
      rw [bind_error prepared]
      rw [List.singleton_append, bind_error prepared] at visited
      rw [bind_error visited]

theorem registeredFrom_of_full (full : ¬(apCount : Int) + 1 < env.maxCpus) :
    registeredFrom env ct off apCount = [] := by
  rw [registeredFrom, show (env.maxCpus - 1 - apCount).toNat = 0 by omega, List.take_zero]

theorem registeredFrom_skip (more : off < tableLength env.firstMb ct)
    (skipped : apOf env.firstMb ct off = none ∨ ¬(apCount : Int) + 1 < env.maxCpus) :
    registeredFrom env ct off apCount =
      registeredFrom env ct (off + entrySize env.firstMb ct off) apCount := by
  obtain none | full := skipped
  · rw [registeredFrom, apIdsFrom_of_lt more, none]
    rfl
  · rw [registeredFrom_of_full full, registeredFrom_of_full full]

theorem registeredFrom_ap (more : off < tableLength env.firstMb ct)
    (ap : apOf env.firstMb ct off = some apid) (room : (apCount : Int) + 1 < env.maxCpus) :
    registeredFrom env ct off apCount =
      apid :: registeredFrom env ct (off + entrySize env.firstMb ct off) (apCount + 1) := by
  rw [registeredFrom, apIdsFrom_of_lt more, ap,
    show (env.maxCpus - 1 - apCount).toNat = (env.maxCpus - 1 - (apCount + 1 : Nat)).toNat + 1 by
      omega]
  rfl

/-- A skipped entry, or one whose AP is registered. -/
theorem skipped_or_ap (env : Env) (ct : Dword) (off apCount : Nat) :
    (apOf env.firstMb ct off = none ∨ ¬(apCount : Int) + 1 < env.maxCpus) ∨
      ∃ apid, apOf env.firstMb ct off = some apid ∧ (apCount : Int) + 1 < env.maxCpus := by
  cases ap : apOf env.firstMb ct off with
  | none => exact .inl (.inl rfl)
  | some apid =>
      by_cases room : (apCount : Int) + 1 < env.maxCpus
      · exact .inr ⟨apid, rfl, room⟩
      · exact .inl (.inr room)

theorem walk_of_lt (more : off < tableLength m ct) :
    (s.log [ct + .ofNat 32 off] (lengthReads ct ++ entryReads m ct off)).log
        (cpusFrom m ct (off + entrySize m ct off)) (walkReads m ct (off + entrySize m ct off)) =
      s.log (cpusFrom m ct off) (walkReads m ct off) := by
  rw [State.log_log, walkReads, walkReads, cpusFrom, cpusFrom, entriesFrom.eq_1 m ct off, if_pos more,
    List.flatMap_cons, List.append_assoc (lengthReads ct ++ entryReads m ct off)]
  rfl

theorem walk_of_ge (done : ¬off < tableLength m ct) :
    s.log (cpusFrom m ct off) (walkReads m ct off) = s.log [] (lengthReads ct) := by
  rw [walkReads, cpusFrom, entriesFrom, if_neg done]
  rfl

theorem registeredFrom_of_ge (done : ¬off < tableLength env.firstMb ct) :
    registeredFrom env ct off apCount = [] := by
  rw [registeredFrom, apIdsFrom_of_ge done, List.take_nil]

theorem State.registerAll_log (ids : List Nat) (cpus as : List Dword) :
    (s.log cpus as).registerAll env ids apCount = (s.registerAll env ids apCount).log cpus as := by
  induction ids generalizing s apCount with
  | nil => rfl
  | cons apid rest ih => rw [registerAll, register_log, ih, registerAll]

theorem Supplied.log_iff {k : Nat} {cpus as : List Dword} :
    Supplied env (s.log cpus as) k ↔ Supplied env s k := Iff.rfl

/-- The loop with all the pages it asks for. -/
theorem listCpus_ok (supplied : Supplied env s (registeredFrom env ct off apCount).length) :
    (listCpus env ct off apCount).run s =
      .ok (apCount + (registeredFrom env ct off apCount).length)
        ((s.registerAll env (registeredFrom env ct off apCount) apCount).log
          (cpusFrom env.firstMb ct off) (walkReads env.firstMb ct off)) := by
  induction off using entriesFrom.induct env.firstMb ct generalizing s apCount with
  | case1 off more ih =>
      rw [← walk_of_lt more]
      obtain skipped | ⟨apid, ap, room⟩ := skipped_or_ap env ct off apCount
      · rw [listCpus_skip more skipped]
        rw [registeredFrom_skip more skipped] at supplied ⊢
        rw [ih (Supplied.log_iff.2 supplied), State.registerAll_log]
      · rw [listCpus_ap more ap room]
        rw [registeredFrom_ap more ap room] at supplied ⊢
        obtain ⟨here, rest⟩ := (Supplied.succ_iff apid apCount).1 supplied
        rw [bind_ok (setupAp_ok (Supplied.log_iff.2 here)), State.register_log,
          ih (Supplied.log_iff.2 rest), State.registerAll_log, State.registerAll, List.length_cons,
          Nat.add_assoc, Nat.add_comm 1]
  | case2 off done =>
      rw [listCpus_of_ge done, registeredFrom_of_ge done, walk_of_ge done]
      rfl

/-- The loop without one of these pages. -/
theorem listCpus_error (missing : ¬Supplied env s (registeredFrom env ct off apCount).length) :
    ∃ t, (listCpus env ct off apCount).run s = .error .nullStore t ∧ t.started = s.started := by
  induction off using entriesFrom.induct env.firstMb ct generalizing s apCount with
  | case1 off more ih =>
      obtain skipped | ⟨apid, ap, room⟩ := skipped_or_ap env ct off apCount
      · rw [listCpus_skip more skipped]
        rw [registeredFrom_skip more skipped] at missing
        exact ih fun supplied => missing (Supplied.log_iff.1 supplied)
      · rw [listCpus_ap more ap room]
        rw [registeredFrom_ap more ap room, List.length_cons, Supplied.succ_iff apid apCount] at missing
        by_cases here : Supplied env s 1
        · rw [bind_ok (setupAp_ok (Supplied.log_iff.2 here)), State.register_log]
          exact ih fun rest => missing ⟨here, Supplied.log_iff.1 rest⟩
        · obtain ⟨t, failed, started⟩ := setupAp_error apid apCount
            fun supplied => here (Supplied.log_iff.1 supplied)
          exact ⟨t, bind_error failed, started⟩
  | case2 off done =>
      rw [registeredFrom_of_ge done] at missing
      exact absurd (.inl rfl) missing

end

end SmpVxd.Boot
