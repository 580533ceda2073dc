import SmpVxd.Boot.Counting
import SmpVxd.Client.Device

/-!
# The usage of a processor

`DIOC_SMP_CPU_STATS` asks for a processor by its number. The driver looks for the AP with
this number in the slots from 0 on, which are numbered by APIC ids, and takes for granted
that none of the slots on the way is empty.
-/

namespace SmpVxd.Boot

open ThreadInfo (invalidHandleValue)

/-! ## The request -/

def apUsageLoop : Nat → Dword → Dword → Dword
  | 0, _, r => r
  | i + 1, stats, r => apUsageLoop i (stats >>> 1) (if stats &&& 0x1 = 1 then r + 5 else r)

def apUsage (stats : Dword) : Dword := apUsageLoop 20 stats 0

/-- What the registry holds: `none` for a key that cannot be opened, and `some none` for
one without the value. -/
structure PerfStats where
  startStat : Option (Option Dword)
  statData : Option (Option Dword)

def bspUsage (perf : PerfStats) : Dword :=
  let result := 0xFFFFFFFF
  if perf.startStat = some none then result
  else match perf.statData with
    | some (some data) => data
    | _ => result

/-- What the driver returns, and stores in the output buffer. -/
structure Reply where
  rc : Dword
  out : Option Dword
  deriving DecidableEq

/-- The loop over the slots from `i` on; `none` when it reads through a null pointer. -/
def findUsage (s : State) (id : Dword) : Nat → Nat → Option Reply
  | 0, _ => some ⟨1, none⟩
  | n + 1, i => match (s.items i).data with
      | none => none
      | some data =>
          if data.index = id.toNat then some ⟨0, some (apUsage data.statsUsage)⟩
          else findUsage s id n (i + 1)

/-- The case `DIOC_SMP_CPU_STATS` of `Device_IO_Control`. -/
def cpuStats (s : State) (perf : PerfStats) (id : Dword) : Option Reply :=
  if id = 0 then some ⟨0, some (bspUsage perf)⟩
  else if s.ttable = 0 then none
  else findUsage s id (s.ttableMax + 1) 0

/-- `monitor_proc` has changed the statistics of the APs. -/
def State.monitored (usage : Nat → Dword) (s : State) : State :=
  { s with
    items := fun i =>
      { s.items i with
        data := (s.items i).data.map fun data => { data with statsUsage := usage i } } }

/-- `smp9x_stats` for a processor, answered by the driver. -/
def stats (s : State) (perf : PerfStats) (lib : Device.Lib) (unit : Nat) :
    Option (Bool × Option Dword) :=
  (cpuStats s perf (.ofNat 32 unit)).map fun reply =>
    (Device.smp9xStats Device.smpStatCpu (.ofNat 32 unit) true
      (if reply.rc = 0 then reply.out else none) lib).2

/-! ## What is expected of it -/

/-- The driver answers with the usage of the BSP or of the AP with this number, or fails
and stores nothing. -/
structure Answers (s : State) (perf : PerfStats) (id : Dword) : Prop where
  bsp : id = 0 → cpuStats s perf id = some ⟨0, some (bspUsage perf)⟩
  ap : id ≠ 0 → ∀ i data, (s.items i).data = some data → data.index = id.toNat →
    cpuStats s perf id = some ⟨0, some (apUsage data.statsUsage)⟩
  absent : id ≠ 0 → (∀ i data, (s.items i).data = some data → data.index ≠ id.toNat) →
    cpuStats s perf id = some ⟨1, none⟩

/-- The first `n` processors have a usage, and the one after them has none. -/
def CountsUnits (s : State) (perf : PerfStats) (lib : Device.Lib) (n : Nat) : Prop :=
  (∀ unit < n, ∃ v, stats s perf lib unit = some (true, some v)) ∧
    stats s perf lib n = some (false, none)

/-- The AP in slot `i` has the number `id`. -/
def State.HasIndex (s : State) (id : Dword) (i : Nat) : Prop :=
  (s.items i).data.map Tdata.index = some id.toNat

/-- No slot is empty up to that of the AP, or to the last one if there is no such AP. -/
def State.NoHole (s : State) (id : Dword) : Prop :=
  ∀ i ≤ s.ttableMax, (∀ j < i, ¬s.HasIndex id j) → (s.items i).data.isSome = true

variable {env : Env} {ct : Dword} {s t : State} {ids : List Nat} {id : Dword} {n i : Nat} {r : Bool}
variable {perf : PerfStats} {reply : Reply} {lib : Device.Lib} {data : Tdata}

theorem State.hasIndex_iff (block : (s.items i).data = some data) :
    s.HasIndex id i ↔ data.index = id.toNat := by
  rw [HasIndex, block, Option.map_some, Option.some.injEq]

/-! ## The loop -/

/-- A loop that does not fault has met no empty slot before the one it looks for. -/
theorem isSome_of_findUsage (found : findUsage s id n i = some reply) {j : Nat} (low : i ≤ j)
    (high : j < i + n) (first : ∀ k, i ≤ k → k < j → ¬s.HasIndex id k) :
    (s.items j).data.isSome = true := by
  induction n generalizing i with
  | zero => omega
  | succ n ih =>
      rw [findUsage] at found
      cases block : (s.items i).data with
      | none =>
          rw [block] at found
          cases found
      | some data =>
          rw [block] at found
          obtain rfl | after := Nat.eq_or_lt_of_le low
          · rw [block]
            rfl
          · have other := mt (State.hasIndex_iff block).2 (first i (Nat.le_refl i) after)
            dsimp only at found
            rw [if_neg other] at found
            refine ih found after (by omega) fun k below above => ?_
            exact first k (by omega) above

/-- The loop passes filled slots with other numbers. -/
theorem findUsage_found {j : Nat} (low : i ≤ j) (high : j < i + n)
    (block : (s.items j).data = some data) (here : data.index = id.toNat)
    (before : ∀ k, i ≤ k → k < j → (s.items k).data.isSome = true ∧ ¬s.HasIndex id k) :
    findUsage s id n i = some ⟨0, some (apUsage data.statsUsage)⟩ := by
  induction n generalizing i with
  | zero => omega
  | succ n ih =>
      rw [findUsage]
      obtain rfl | after := Nat.eq_or_lt_of_le low
      · rw [block]
        exact if_pos here
      · obtain ⟨isSome, other⟩ := before i (Nat.le_refl i) after
        obtain ⟨data', block'⟩ := Option.isSome_iff_exists.1 isSome
        rw [block']
        dsimp only
        rw [if_neg (mt (State.hasIndex_iff block').2 other)]
        refine ih after (by omega) fun k below above => ?_
        exact before k (by omega) above

theorem findUsage_absent
    (all : ∀ k, i ≤ k → k < i + n → (s.items k).data.isSome = true ∧ ¬s.HasIndex id k) :
    findUsage s id n i = some ⟨1, none⟩ := by
  induction n generalizing i with
  | zero => rfl
  | succ n ih =>
      obtain ⟨isSome, other⟩ := all i (Nat.le_refl i) (by omega)
      obtain ⟨data, block⟩ := Option.isSome_iff_exists.1 isSome
      rw [findUsage, block]
      dsimp only
      rw [if_neg (mt (State.hasIndex_iff block).2 other)]
      exact ih fun k below above => all k (by omega) (by omega)

/-- A loop that finds nothing has met filled slots with other numbers only. -/
theorem not_hasIndex_of_findUsage (failed : findUsage s id n i = some ⟨1, none⟩) {j : Nat}
    (low : i ≤ j) (high : j < i + n) : ¬s.HasIndex id j := by
  induction n generalizing i with
  | zero => omega
  | succ n ih =>
      rw [findUsage] at failed
      cases block : (s.items i).data with
      | none =>
          rw [block] at failed
          cases failed
      | some data =>
          rw [block] at failed
          dsimp only at failed
          split at failed
          next => cases failed
          next other =>
            obtain rfl | after := Nat.eq_or_lt_of_le low
            · exact mt (State.hasIndex_iff block).1 other
            · exact ih failed after (by omega)

theorem findUsage_cases (replied : findUsage s id n i = some reply) :
    reply = ⟨1, none⟩ ∨ (∃ j, s.HasIndex id j) ∧ ∃ v, reply = ⟨0, some v⟩ := by
  induction n generalizing i with
  | zero => exact .inl (Option.some.inj replied).symm
  | succ n ih =>
      rw [findUsage] at replied
      cases block : (s.items i).data with
      | none =>
          rw [block] at replied
          cases replied
      | some data =>
          rw [block] at replied
          dsimp only at replied
          split at replied
          next here =>
            cases replied
            exact .inr ⟨⟨i, (State.hasIndex_iff block).2 here⟩, _, rfl⟩
          next => exact ih replied

/-- What a reply says about the table. -/
theorem cpuStats_cases (replied : cpuStats s perf id = some reply) :
    ((id = 0 ∨ ∃ i, s.HasIndex id i) ∧ ∃ v, reply = ⟨0, some v⟩) ∨
      s.ttable ≠ 0 ∧ (∀ i ≤ s.ttableMax, (s.items i).data.isSome = true) ∧ reply = ⟨1, none⟩ := by
  rw [cpuStats] at replied
  split at replied
  next zero =>
    cases replied
    exact .inl ⟨.inl zero, _, rfl⟩
  next =>
    split at replied
    next => cases replied
    next table =>
      obtain rfl | ⟨has, success⟩ := findUsage_cases replied
      · refine .inr ⟨table, fun i le => ?_, rfl⟩
        refine isSome_of_findUsage replied (Nat.zero_le i) (by omega) fun k _ lt => ?_
        exact not_hasIndex_of_findUsage replied (Nat.zero_le k) (by omega)
      · exact .inl ⟨.inr has, success⟩

/-! ## The table that is built -/

/-- The slots in use are those of `ids`, and each AP has the number of its last entry. -/
structure Built (ids : List Nat) (s : State) : Prop where
  isSome : ∀ i ∈ ids, (s.items i).data.isSome = true
  index : ∀ i data, (s.items i).data = some data → ∃ k, ids[k]? = some i ∧ data.index = k + 1
  below : ∀ i ∈ ids, i ≤ s.ttableMax
  short : ids.length < 2 ^ 16

namespace Built

theorem hasIndex (built : Built ids s) (has : s.HasIndex id i) :
    ∃ k, ids[k]? = some i ∧ id.toNat = k + 1 := by
  obtain ⟨data, block, same⟩ := Option.map_eq_some_iff.1 has
  obtain ⟨k, here, index⟩ := built.index i data block
  exact ⟨k, here, same.symm.trans index⟩

/-- No two APs have one number. -/
theorem hasIndex_unique (built : Built ids s) {j : Nat} (hi : s.HasIndex id i)
    (hj : s.HasIndex id j) : i = j := by
  obtain ⟨k, here, index⟩ := built.hasIndex hi
  obtain ⟨k', here', index'⟩ := built.hasIndex hj
  obtain rfl : k = k' := by omega
  exact Option.some.inj (here.symm.trans here')

theorem hasIndex_le (built : Built ids s) (has : s.HasIndex id i) : i ≤ s.ttableMax := by
  obtain ⟨k, here, -⟩ := built.hasIndex has
  exact built.below i (List.mem_of_getElem? here)

theorem answers_iff (built : Built ids s) :
    Answers s perf id ↔ id = 0 ∨ s.ttable ≠ 0 ∧ s.NoHole id := by
  by_cases zero : id = 0
  · refine iff_of_true ⟨fun _ => if_pos zero, fun ne => absurd zero ne, fun ne => absurd zero ne⟩ ?_
    exact .inl zero
  have request : cpuStats s perf id =
      if s.ttable = 0 then none else findUsage s id (s.ttableMax + 1) 0 := if_neg zero
  constructor
  · intro answers
    have replies : ∃ reply, cpuStats s perf id = some reply := by
      by_cases there : ∃ i, s.HasIndex id i
      · obtain ⟨i, has⟩ := there
        obtain ⟨data, block, same⟩ := Option.map_eq_some_iff.1 has
        exact ⟨_, answers.ap zero i data block same⟩
      · refine ⟨_, answers.absent zero fun i data block same => there ⟨i, ?_⟩⟩
        exact (State.hasIndex_iff block).2 same
    obtain ⟨reply, replied⟩ := replies
    rw [request] at replied
    by_cases table : s.ttable = 0
    · rw [if_pos table] at replied
      cases replied
    · rw [if_neg table] at replied
      refine .inr ⟨table, fun i le first => ?_⟩
      exact isSome_of_findUsage replied (Nat.zero_le i) (by omega) fun k _ before => first k before
  · intro there
    obtain ⟨table, noHole⟩ := there.resolve_left zero
    rw [if_neg table] at request
    refine ⟨fun same => absurd same zero, fun _ i data block same => ?_, fun _ none => ?_⟩
    · have has := (State.hasIndex_iff block).2 same
      have le := built.hasIndex_le has
      rw [request]
      refine findUsage_found (Nat.zero_le i) (by omega) block same fun k _ before => ?_
      have other {j : Nat} (lt : j < i) : ¬s.HasIndex id j := by
        intro has'
        have eq := built.hasIndex_unique has has'
        omega
      exact ⟨noHole k (by omega) fun j lt => other (lt.trans before), other before⟩
    · have other (j : Nat) : ¬s.HasIndex id j := by
        intro has
        obtain ⟨data, block, same⟩ := Option.map_eq_some_iff.1 has
        exact none j data block same
      rw [request]
      refine findUsage_absent fun k _ lt => ⟨noHole k (by omega) fun j _ => other j, other k⟩

end Built

theorem entriesFrom_length (m : X86.Mem) (ct : Dword) (off : Nat) :
    (entriesFrom m ct off).length ≤ tableLength m ct - off := by
  induction off using entriesFrom.induct m ct with
  | case1 off more ih =>
      have pos := entrySize_pos m ct off
      rw [entriesFrom, if_pos more, List.length_cons]
      omega
  | case2 off done =>
      rw [entriesFrom, if_neg done]
      exact Nat.zero_le _

theorem registered_length : (registered env ct).length < 2 ^ 16 := by
  have walk : (apIdsFrom env.firstMb ct mpctSize).length ≤ (entriesFrom env.firstMb ct mpctSize).length :=
    List.length_filterMap_le ..
  have entries := entriesFrom_length env.firstMb ct mpctSize
  have taken : (registered env ct).length ≤ (apIdsFrom env.firstMb ct mpctSize).length :=
    List.length_take_le' ..
  have length : tableLength env.firstMb ct < 2 ^ 16 := BitVec.isLt _
  omega

theorem built_walked {as bs : List Dword} {apCount : Nat}
    (supplied : Supplied env ((State.initial.read as).prepared env) (registered env ct).length)
    (frame : Frame ((((State.initial.read as).walked env ct).counters apCount).read bs) t) :
    Built (registered env ct) t := by
  have fills := ((fills_walked as supplied).counters apCount bs).frame frame
  refine ⟨fun i => (fills.data i).2, fun i data block => ?_, fun i mem => ?_, registered_length⟩
  · have mem : i ∈ registered env ct := by
      rw [← fills.data, block]
      rfl
    obtain ⟨k, here, item⟩ := State.registerAll_items_of_mem env
      ((State.initial.read as).prepared env) 0 mem
    have same := frame.data i
    rw [block] at same
    obtain ⟨data', block', fixed⟩ := Option.map_eq_some_iff.1 same.symm
    change ((((State.initial.read as).prepared env).registerAll env (registered env ct) 0).items i).data =
      some data' at block'
    rw [item] at block'
    obtain ⟨block, -, rfl⟩ := Option.map_eq_some_iff.1 block'
    have index : 0 + k + 1 = data.index := congrArg Tdata.index fixed
    exact ⟨k, here, by omega⟩
  · rw [frame.ttableMax]
    exact State.le_registerAll_ttableMax.2 i mem

theorem smpInitTable_built {as : List Dword}
    (ran : (smpInitTable env ct).run (State.initial.read as) = .ok r t) :
    (∀ i, (t.items i).data = none) ∨
      Built (registered env ct) t ∧ t.cpuCount = (registered env ct).length + 1 := by
  by_cases kernel : env.page 1 = 0
  · rw [smpInitTable_kernel _ ct kernel] at ran
    cases ran
    exact .inl fun i => rfl
  by_cases bootPde : env.page 2 = 0
  · obtain ⟨u, failed, -⟩ := smpInitTable_bootPde (State.initial.read as) ct kernel bootPde
    rw [failed] at ran
    cases ran
  by_cases supplied : Supplied env ((State.initial.read as).prepared env) (registered env ct).length
  · obtain ⟨bs, frame⟩ := smpInitTable_frame kernel bootPde supplied
    rw [ran] at frame
    exact .inr ⟨built_walked supplied frame, frame.cpuCount⟩
  · obtain ⟨u, failed, -⟩ := smpInitTable_error _ ct kernel bootPde supplied
    rw [failed] at ran
    cases ran

/-- What `smp_init` has built when it returns: no slot at all, or those of its table. -/
theorem smpInit_built (ran : (smpInit env).run .initial = .ok r t) :
    (∀ i, (t.items i).data = none) ∨
      Built (tableAps env) t ∧ t.cpuCount = (tableAps env).length + 1 := by
  cases found : mpfpOf env.firstMb with
  | none =>
      obtain ⟨as, -, ran'⟩ := smpInit_none env found
      rw [ran'] at ran
      cases ran
      exact .inl fun i => rfl
  | some fp =>
      obtain ⟨as, -, ran'⟩ := smpInit_some found
      rw [ran'] at ran
      rw [tableAps, found]
      split at ran
      next => exact smpInitTable_built ran
      next =>
        cases ran
        exact .inl fun i => rfl

theorem built_of_empty (empty : ∀ i, (s.items i).data = none) : Built [] s :=
  ⟨fun i mem => absurd mem List.not_mem_nil, fun i data block => by simp [empty i] at block,
    fun i mem => absurd mem List.not_mem_nil, by decide⟩

theorem monitored_data (usage : Nat → Dword) (s : State) (i : Nat) :
    ((s.monitored usage).items i).data =
      (s.items i).data.map fun data => { data with statsUsage := usage i } := rfl

theorem Built.monitored (built : Built ids s) (usage : Nat → Dword) :
    Built ids (s.monitored usage) where
  isSome i mem := by
    rw [monitored_data, Option.isSome_map]
    exact built.isSome i mem
  index i data block := by
    obtain ⟨data', block', rfl⟩ := Option.map_eq_some_iff.1 block
    exact built.index i data' block'
  below := built.below
  short := built.short

/-! ## Counting -/

/-- What `smp9x_stats` makes of a reply. -/
theorem stats_eq (opened : lib.smpVxd ≠ invalidHandleValue) (unit : Nat) :
    stats s perf lib unit = (cpuStats s perf (.ofNat 32 unit)).map fun reply =>
      (reply.rc = 0 && reply.out.isSome, if reply.rc = 0 then reply.out else none) := by
  rw [stats]
  congr 1
  funext reply
  rw [Device.smp9xStats, if_neg opened]
  by_cases success : reply.rc = 0
  · rw [if_pos success, decide_eq_true success]
    cases reply.out with
    | none => rfl
    | some v => rfl
  · rw [if_neg success, decide_eq_false success]
    rfl

theorem number_toNat {unit : Nat} (small : unit < 2 ^ 32) : (BitVec.ofNat 32 unit).toNat = unit := by
  rw [BitVec.toNat_ofNat]
  exact Nat.mod_eq_of_lt small

/-- A processor that is counted is the BSP or an AP with this number. -/
theorem hasIndex_of_stats (opened : lib.smpVxd ≠ invalidHandleValue) {unit : Nat} {v : Dword}
    (counted : stats s perf lib unit = some (true, some v)) :
    .ofNat 32 unit = (0 : Dword) ∨ ∃ i, s.HasIndex (.ofNat 32 unit) i := by
  rw [stats_eq opened] at counted
  obtain ⟨reply, replied, same⟩ := Option.map_eq_some_iff.1 counted
  obtain ⟨there, -⟩ | ⟨-, -, rfl⟩ := cpuStats_cases replied
  · exact there
  · cases same

theorem filled_of_stats (opened : lib.smpVxd ≠ invalidHandleValue) {unit : Nat}
    (failed : stats s perf lib unit = some (false, none)) :
    s.ttable ≠ 0 ∧ ∀ i ≤ s.ttableMax, (s.items i).data.isSome = true := by
  rw [stats_eq opened] at failed
  obtain ⟨reply, replied, same⟩ := Option.map_eq_some_iff.1 failed
  obtain ⟨-, v, rfl⟩ | ⟨table, filled, -⟩ := cpuStats_cases replied
  · cases same
  · exact ⟨table, filled⟩

theorem Built.countsUnits_iff (built : Built ids s) (opened : lib.smpVxd ≠ invalidHandleValue) :
    CountsUnits s perf lib (ids.length + 1) ↔
      s.ttable ≠ 0 ∧ (∀ i ≤ s.ttableMax, (s.items i).data.isSome = true) ∧ ids.Nodup := by
  have short := built.short
  have number {k : Nat} (lt : k < ids.length + 1) : (BitVec.ofNat 32 (k + 1)).toNat = k + 1 :=
    number_toNat (by omega)
  have nonzero {k : Nat} (lt : k < ids.length + 1) : .ofNat 32 (k + 1) ≠ (0 : Dword) := by
    intro zero
    have toNat := number lt
    rw [zero] at toNat
    cases toNat
  constructor
  · rintro ⟨units, last⟩
    obtain ⟨table, filled⟩ := filled_of_stats opened last
    -- the AP that was given the number `k + 1` is the one in its slot
    have has (k : Nat) (lt : k < ids.length) : s.HasIndex (.ofNat 32 (k + 1)) ids[k] := by
      obtain ⟨v, counted⟩ := units (k + 1) (by omega)
      obtain ⟨i, has⟩ := (hasIndex_of_stats opened counted).resolve_left (nonzero (by omega))
      obtain ⟨k', here, index⟩ := built.hasIndex has
      rw [number (by omega)] at index
      obtain rfl : k = k' := by omega
      obtain ⟨lt', rfl⟩ := List.getElem?_eq_some_iff.1 here
      exact has
    refine ⟨table, filled, List.nodup_iff_injective_get.2 fun k l same => ?_⟩
    have hk := has k k.isLt
    have hl := has l l.isLt
    rw [show ids[k.val] = ids[l.val] from same, State.HasIndex, hl, Option.some.injEq,
      number (by omega), number (by omega)] at hk
    exact Fin.ext (by omega)
  · rintro ⟨table, filled, nodup⟩
    have answers (id : Dword) : Answers s perf id :=
      built.answers_iff.2 (.inr ⟨table, fun i le _ => filled i le⟩)
    refine ⟨fun unit lt => ?_, ?_⟩
    · rw [stats_eq opened]
      cases unit with
      | zero => exact ⟨_, by rw [(answers (.ofNat 32 0)).bsp rfl]; rfl⟩
      | succ k =>
          have lt : k < ids.length := by omega
          have mem := List.getElem_mem lt
          obtain ⟨data, block⟩ := Option.isSome_iff_exists.1 (built.isSome _ mem)
          obtain ⟨k', here, index⟩ := built.index _ data block
          obtain ⟨lt', same⟩ := List.getElem?_eq_some_iff.1 here
          obtain rfl : k' = k := (List.Nodup.getElem_inj_iff nodup).1 same
          have found := (answers (.ofNat 32 (k' + 1))).ap (nonzero (by omega)) _ data block
            (by rw [number (by omega), index])
          exact ⟨_, by rw [found]; rfl⟩
    · rw [stats_eq opened, (answers _).absent (nonzero (by omega))]
      · rfl
      · intro i data block same
        obtain ⟨k, here, index⟩ := built.index i data block
        obtain ⟨lt, -⟩ := List.getElem?_eq_some_iff.1 here
        rw [number (by omega)] at same
        omega

/-- A request is answered as it should unless the loop meets an empty slot, and the
processors can be counted when there is none and the table names every AP once. -/
theorem cpu_stats_answers (ran : (smpInit env).run .initial = .ok r t) (usage : Nat → Dword)
    (perf : PerfStats) :
    (∀ id, Answers (t.monitored usage) perf id ↔
      id = 0 ∨ t.ttable ≠ 0 ∧ (t.monitored usage).NoHole id) ∧
    ∀ lib : Device.Lib, lib.smpVxd ≠ invalidHandleValue →
      (CountsUnits (t.monitored usage) perf lib t.cpuCount ↔
        t.ttable ≠ 0 ∧ (∀ i ≤ t.ttableMax, (t.items i).data.isSome = true) ∧ (tableAps env).Nodup) := by
  have same (i : Nat) : ((t.monitored usage).items i).data.isSome = (t.items i).data.isSome := by
    rw [monitored_data, Option.isSome_map]
  obtain empty | ⟨built, count⟩ := smpInit_built ran
  · refine ⟨fun id => ((built_of_empty empty).monitored usage).answers_iff, fun lib opened => ?_⟩
    have hole : ¬∀ i ≤ t.ttableMax, (t.items i).data.isSome = true := by
      intro filled
      have first := filled 0 (Nat.zero_le _)
      rw [empty 0] at first
      cases first
    refine iff_of_false (fun counted => hole fun i le => ?_) fun there => hole there.2.1
    rw [← same i]
    exact (filled_of_stats opened counted.2).2 i le
  · refine ⟨fun id => (built.monitored usage).answers_iff, fun lib opened => ?_⟩
    rw [count, (built.monitored usage).countsUnits_iff opened]
    simp only [same]
    rfl

/-- Processor 2 boots the system; the APs are 0 and 1. -/
def lateBsp : Env :=
  { machine (processorEntry 0 1 ++ processorEntry 1 1 ++ processorEntry 2 3) with bspid := 2 }

def noPerfStats : PerfStats := ⟨none, none⟩

def openLib : Device.Lib := ⟨0x10, 0xC0110000, 3, 0, 2, []⟩

theorem cpu_stats_answers_late : ∃ t, (smpInit lateBsp).run .initial = .ok true t ∧
    Answers (t.monitored fun _ => 1) noPerfStats 2 ∧
    CountsUnits (t.monitored fun _ => 1) noPerfStats openLib t.cpuCount := by
  have computed : (match (smpInit lateBsp).run .initial with
      | .ok true t => decide (t.ttable ≠ 0 ∧ t.ttableMax = 1) &&
          (t.items 0).data.isSome && (t.items 1).data.isSome
      | _ => false) = true := by decide +kernel
  split at computed
  next t ran =>
      simp only [Bool.and_eq_true, decide_eq_true_eq] at computed
      obtain ⟨⟨⟨table, max⟩, first⟩, second⟩ := computed
      have filled : ∀ i ≤ t.ttableMax, (t.items i).data.isSome = true := by
        intro i le
        rw [max] at le
        obtain rfl | rfl : i = 0 ∨ i = 1 := by omega
        · exact first
        · exact second
      obtain ⟨answers, counts⟩ := cpu_stats_answers ran (fun _ => 1) noPerfStats
      refine ⟨t, ran, (answers 2).2 (.inr ⟨table, fun i le _ => ?_⟩), ?_⟩
      · rw [monitored_data, Option.isSome_map]
        exact filled i le
      · exact (counts openLib (by decide)).2 ⟨table, filled, by decide +kernel⟩
  next => cases computed

/-- On a machine whose boot processor has the id 0, the request for the first AP reads
through the null pointer in slot 0. -/
theorem cpu_stats_faults : ∃ t, (smpInit twoAps).run .initial = .ok true t ∧
    cpuStats t noPerfStats 1 = none ∧ ¬Answers t noPerfStats 1 := by
  have computed : (match (smpInit twoAps).run .initial with
      | .ok true t => decide (cpuStats t noPerfStats 1 = none ∧
          (t.items 1).data.map Tdata.index = some 1)
      | _ => false) = true := by decide +kernel
  split at computed
  next t ran =>
      obtain ⟨faults, there⟩ := of_decide_eq_true computed
      obtain ⟨data, block, index⟩ := Option.map_eq_some_iff.1 there
      refine ⟨t, ran, faults, fun answers => ?_⟩
      have replied := answers.ap (by decide) 1 data block index
      rw [faults] at replied
      cases replied
  next => cases computed

end SmpVxd.Boot
