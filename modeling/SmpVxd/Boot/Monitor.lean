import SmpVxd.Boot.Usage
import SmpVxd.Words.ShiftRegister

/-!
# Sampling the processors

At each tick of its timer `monitor_proc` shifts one bit into the statistics of every AP.
The status words change under it at any time; they are what a tick finds.
-/

namespace SmpVxd.Boot

open Words

def sBusy : Dword := 0
def sSleep : Dword := 2

/-- `s > S_SLEEP || s == S_BUSY` -/
def sampledActive (s : Dword) : Bool := sSleep < s || s = sBusy

def Tdata.sample (s : Dword) (data : Tdata) : Tdata :=
  let shifted := data.statsUsage <<< 1
  { data with statsUsage := if sampledActive s then shifted ||| 1 else shifted }

/-- One round of the loop of `monitor_proc`. -/
def State.sampleItem (status : Nat → Dword) (s : State) (i : Nat) : State :=
  match (s.items i).data with
  | none => s
  | some data => s.setItem i { s.items i with data := some (data.sample (status i)) }

/-- The loop over `n` slots from `i` on. -/
def monitorLoop (status : Nat → Dword) : Nat → Nat → State → State
  | 0, _, s => s
  | n + 1, i, s => monitorLoop status n (i + 1) (s.sampleItem status i)

/-- The statistics part of `monitor_proc`; without a table it reads through a null pointer. -/
def monitorUsage (status : Nat → Dword) (s : State) : Option State :=
  if s.ttable = 0 then none else some (monitorLoop status (s.ttableMax + 1) 0 s)

/-- One tick after the other. -/
def monitorTicks : List (Nat → Dword) → State → Option State
  | [], s => some s
  | status :: rest, s => monitorUsage status s >>= monitorTicks rest

/-- What `DIOC_SMP_CPU_STATS` says of the AP in slot `i` after these ticks. -/
def usageAfter (ticks : List (Nat → Dword)) (s : State) (i : Nat) : Option Dword := do
  let data ← ((← monitorTicks ticks s).items i).data
  return apUsage data.statsUsage

/-- The bit of each sample, oldest first. -/
def activity (ticks : List (Nat → Dword)) (i : Nat) : List Bool :=
  ticks.map fun status => sampledActive (status i)

/-- In how many of the last `k` samples the AP was at work. -/
def recentlyActive (k : Nat) (ticks : List (Nat → Dword)) (i : Nat) : Nat :=
  (activity (ticks.drop (ticks.length - k)) i).count true

variable {status : Nat → Dword} {s t : State} {ticks : List (Nat → Dword)} {data : Tdata} {i n : Nat}

/-! ## What a tick does -/

theorem sampleItem_self : ((s.sampleItem status i).items i).data =
    (s.items i).data.map (Tdata.sample (status i)) := by
  rw [State.sampleItem]
  cases block : (s.items i).data with
  | none => exact block
  | some data =>
      change ((s.setItem i _).items i).data = _
      rw [State.setItem_self]
      rfl

theorem sampleItem_other {j : Nat} (other : j ≠ i) :
    (s.sampleItem status i).items j = s.items j := by
  rw [State.sampleItem]
  split
  · rfl
  · exact Function.update_of_ne other ..

theorem sampleItem_globals : (s.sampleItem status i).ttable = s.ttable ∧
    (s.sampleItem status i).ttableMax = s.ttableMax := by
  rw [State.sampleItem]
  split <;> exact ⟨rfl, rfl⟩

theorem monitorLoop_globals : (monitorLoop status n i s).ttable = s.ttable ∧
    (monitorLoop status n i s).ttableMax = s.ttableMax := by
  induction n generalizing i s with
  | zero => exact ⟨rfl, rfl⟩
  | succ n ih =>
      obtain ⟨table, max⟩ := @sampleItem_globals status s i
      obtain ⟨table', max'⟩ := ih (i := i + 1) (s := s.sampleItem status i)
      exact ⟨table'.trans table, max'.trans max⟩

theorem monitorLoop_before {j : Nat} (before : j < i) :
    (monitorLoop status n i s).items j = s.items j := by
  induction n generalizing i s with
  | zero => rfl
  | succ n ih =>
      have rest := ih (i := i + 1) (s := s.sampleItem status i) (by omega)
      exact rest.trans (sampleItem_other (by omega))

/-- Each slot that the loop passes gets its own sample. -/
theorem monitorLoop_data {j : Nat} (low : i ≤ j) (high : j < i + n) :
    ((monitorLoop status n i s).items j).data = (s.items j).data.map (Tdata.sample (status j)) := by
  induction n generalizing i s with
  | zero => omega
  | succ n ih =>
      change ((monitorLoop status n (i + 1) (s.sampleItem status i)).items j).data = _
      obtain rfl | after := Nat.eq_or_lt_of_le low
      · rw [monitorLoop_before (Nat.lt_succ_self i), sampleItem_self]
      · rw [ih after (by omega), sampleItem_other (by omega)]

/-! ## A run of ticks -/

/-- The AP of a slot after a run of ticks: its own samples have been shifted in. -/
theorem monitorTicks_data (table : s.ttable ≠ 0) (below : i ≤ s.ttableMax)
    (block : (s.items i).data = some data) :
    ∃ t data', monitorTicks ticks s = some t ∧ (t.items i).data = some data' ∧
      data'.statsUsage = pushBits data.statsUsage (activity ticks i) := by
  induction ticks generalizing s data with
  | nil => exact ⟨s, data, rfl, block, rfl⟩
  | cons status rest ih =>
      obtain ⟨table', max⟩ := @monitorLoop_globals status s 0 (s.ttableMax + 1)
      have sampled := @monitorLoop_data status s 0 _ i (Nat.zero_le i)
        (by omega : i < 0 + (s.ttableMax + 1))
      rw [block] at sampled
      obtain ⟨t, data', ran, block', usage⟩ := ih (by rwa [table']) (by rwa [max]) sampled
      refine ⟨t, data', ?_, block', usage⟩
      rw [monitorTicks, monitorUsage, if_neg table]
      exact ran

theorem usageAfter_eq (table : s.ttable ≠ 0) (below : i ≤ s.ttableMax)
    (block : (s.items i).data = some data) :
    usageAfter ticks s i = some (apUsage (pushBits data.statsUsage (activity ticks i))) := by
  obtain ⟨t, data', ran, block', usage⟩ := @monitorTicks_data s ticks data i table below block
  rw [usageAfter, ran, Option.bind_eq_bind, Option.bind_some, block', ← usage]
  rfl

/-! ## What ap_usage counts -/

theorem apUsageLoop_toNat {k : Nat} {stats r : Dword} (small : r.toNat + 5 * k < 2 ^ 32) :
    (apUsageLoop k stats r).toNat = r.toNat + 5 * (lowBits stats k).count true := by
  induction k generalizing stats r with
  | zero => rfl
  | succ k ih =>
      have bit : stats &&& 0x1 = 1 ↔ stats.getLsbD 0 = true := by
        rw [show stats &&& 0x1 = _ from BitVec.and_one_eq_setWidth_ofBool_getLsbD]
        cases stats.getLsbD 0 <;> decide
      rw [apUsageLoop, lowBits, List.count_cons]
      by_cases one : stats.getLsbD 0 = true
      · have five : (r + 5).toNat = r.toNat + 5 := by
          rw [BitVec.toNat_add]
          exact Nat.mod_eq_of_lt (by change r.toNat + 5 < _; omega)
        rw [if_pos (bit.2 one), one, ih (by omega), five]
        simp only [beq_self_eq_true, if_true]
        omega
      · rw [if_neg (mt bit.1 one), ih (by omega), Bool.eq_false_iff.2 one]
        rfl

theorem apUsage_toNat (stats : Dword) : (apUsage stats).toNat = 5 * (lowBits stats 20).count true := by
  rw [apUsage, apUsageLoop_toNat (by decide)]
  exact Nat.zero_add _

theorem activity_window {k : Nat} :
    ((activity ticks i).reverse.take k).count true = recentlyActive k ticks i := by
  rw [recentlyActive, activity, activity, List.map_drop, List.take_reverse, List.count_reverse,
    List.length_map]

/-- After twenty ticks the usage of an AP counts the last twenty samples of its own status
word and nothing else. -/
theorem usage_window (table : s.ttable ≠ 0) (below : i ≤ s.ttableMax)
    (block : (s.items i).data = some data) (many : 20 ≤ ticks.length) :
    ∃ usage, usageAfter ticks s i = some usage ∧
      usage.toNat = 5 * recentlyActive 20 ticks i ∧ usage.toNat ≤ 100 ∧
      ∀ ticks', ticks'.map (fun status => status i) = ticks.map (fun status => status i) →
        usageAfter ticks' s i = some usage := by
  have window : (activity ticks i).length = ticks.length := List.length_map _
  refine ⟨_, usageAfter_eq table below block, ?_, ?_, fun ticks' same => ?_⟩
  · rw [apUsage_toNat, lowBits_pushBits (by omega) (by decide), activity_window]
  · have le := List.count_le_length (a := true)
      (l := lowBits (pushBits data.statsUsage (activity ticks i)) 20)
    rw [length_lowBits] at le
    rw [apUsage_toNat]
    omega
  · have own := congrArg (List.map sampledActive) same
    rw [List.map_map, List.map_map] at own
    rw [usageAfter_eq table below block, activity, activity]
    exact congrArg (fun bits => some (apUsage (pushBits data.statsUsage bits))) own

/-- One AP, whose statistics are all ones. -/
def oneAp : State :=
  { State.initial with
    ttable := 0x1000
    items := fun i => ⟨0, if i = 0 then
        (Tdata.alloc 0x2000).map fun data => { data with statsUsage := 0xFFFFFFFF }
      else none⟩ }

/-- The AP is busy at first and has nothing to do for the last fifteen ticks. -/
def calmingDown : List (Nat → Dword) :=
  List.replicate 10 (fun _ => sBusy) ++ List.replicate 15 (fun _ => 1)

theorem usage_window_calming_down : ∃ usage, usageAfter calmingDown oneAp 0 = some usage ∧
    usage.toNat = 25 := by
  obtain ⟨usage, read, count, -⟩ := usage_window (by decide : oneAp.ttable ≠ 0)
    (Nat.zero_le oneAp.ttableMax) rfl (by decide : 20 ≤ calmingDown.length)
  exact ⟨usage, read, count.trans (by decide)⟩

end SmpVxd.Boot
