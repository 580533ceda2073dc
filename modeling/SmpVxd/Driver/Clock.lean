import SmpVxd.Driver.Timer
import SmpVxd.Transition.Fuel
import SmpVxd.Words.Halves

/-!
# The clock of the driver

`tsc_ms_clock` and `tsc_us_clock` are guesses first, then perhaps what CPUID says, then
what `monitor_proc` measures. They scale the delays and the time after which an AP falls
asleep, and all comparisons of time stamps are made on two words.
-/

namespace SmpVxd

open Words Transition

theorem lowDword_toNat (x : BitVec 64) : (lowDword x).toNat = x.toNat % 2 ^ 32 :=
  BitVec.toNat_setWidth ..

theorem highDword_toNat (x : BitVec 64) : (highDword x).toNat = x.toNat / 2 ^ 32 := by
  have bound := x.isLt
  rw [highDword, BitVec.toNat_setWidth, BitVec.toNat_ushiftRight, Nat.shiftRight_eq_div_pow]
  omega

/-- The two words of a sum, as `add` and `adc` compute them. -/
def addLow (x : BitVec 64) (y : Dword) : Dword := lowDword x + y
def addHigh (x : BitVec 64) (y : Dword) : Dword :=
  highDword x + (if 2 ^ 32 ≤ (lowDword x).toNat + y.toNat then 1 else 0)

/-- `cmp` and `jb` on both words of a reading. -/
def wordsPast (now : BitVec 64) (high low : Dword) : Bool := !(highDword now < high) && !(lowDword now < low)

theorem addLow_toNat (x : BitVec 64) (y : Dword) : (addLow x y).toNat = (x.toNat + y.toNat) % 2 ^ 32 := by
  rw [addLow, BitVec.toNat_add, lowDword_toNat]
  omega

theorem addHigh_toNat {x : BitVec 64} {y : Dword} (fits : x.toNat + y.toNat < 2 ^ 64) :
    (addHigh x y).toNat = (x.toNat + y.toNat) / 2 ^ 32 := by
  have bound := y.isLt
  rw [addHigh, BitVec.toNat_add, lowDword_toNat, highDword_toNat]
  split
  · rw [show (1 : Dword).toNat = 1 from rfl]
    omega
  · rw [show (0 : Dword).toNat = 0 from rfl]
    omega

theorem wordsPast_iff {x now : BitVec 64} {y : Dword} (fits : x.toNat + y.toNat < 2 ^ 64) :
    wordsPast now (addHigh x y) (addLow x y) = true ↔ Past (2 ^ 32) (x.toNat + y.toNat) now.toNat := by
  simp only [wordsPast, Bool.and_eq_true, Bool.not_eq_true', decide_eq_false_iff_not, BitVec.lt_def, not_lt,
    addHigh_toNat fits, addLow_toNat, lowDword_toNat, highDword_toNat, Past]

theorem tscRing_eq (counter : BitVec 64) (extraTicks : Dword) (now : BitVec 64) :
    tscRing counter extraTicks now = wordsPast now (addHigh counter extraTicks) (addLow counter extraTicks) := rfl

/-- `tsc_ring` compares 64-bit numbers, except where the high word of the reading is above
the deadline and the low word below it. -/
theorem tscRing_compares {counter now : BitVec 64} {extraTicks : Dword}
    (fits : counter.toNat + extraTicks.toNat < 2 ^ 64) :
    (tscRing counter extraTicks now = true ↔ counter.toNat + extraTicks.toNat ≤ now.toNat) ↔
      ¬ ((counter.toNat + extraTicks.toNat) / 2 ^ 32 < now.toNat / 2 ^ 32 ∧
        now.toNat % 2 ^ 32 < (counter.toNat + extraTicks.toNat) % 2 ^ 32) := by
  rw [tscRing_eq, wordsPast_iff fits]
  exact past_iff_le_iff

theorem tscRing_compares_soon : (tscRing 0xFFFFFFF0 0x20 0x1_0000_0010 = true ↔
    (0xFFFFFFF0 : BitVec 64).toNat + (0x20 : Dword).toNat ≤ (0x1_0000_0010 : BitVec 64).toNat) :=
  (tscRing_compares (by decide)).mpr (by decide)

/-- The low word has just wrapped, and the deadline lies a while back. -/
theorem tscRing_late : (0xF000_0000 : BitVec 64).toNat + (0x1000 : Dword).toNat < 2 ^ 64 ∧
    ¬ (tscRing 0xF000_0000 0x1000 0x1_0000_0000 = true ↔
      (0xF000_0000 : BitVec 64).toNat + (0x1000 : Dword).toNat ≤ (0x1_0000_0000 : BitVec 64).toNat) := by
  decide

/-! ## Delays -/

/-- `tsc_ms_clock` and `tsc_us_clock` -/
structure TscClock where
  ms : Dword
  us : Dword
  deriving DecidableEq

def TscClock.default : TscClock := ⟨3000000, 3000⟩

/-- The polls of `delay_loop` from poll `k` on; the result is the poll that ends it. -/
def delayPoll : Nat → (Nat → BitVec 64) → Nat → Dword → Dword → Option Nat
  | 0, _, _, _, _ => none
  | fuel + 1, samples, k, edi, esi =>
      if wordsPast (samples k) edi esi then some k else delayPoll fuel samples (k + 1) edi esi

/-- `delay_loop`, with the reading at its start and those of its polls. -/
def delayLoop (fuel : Nat) (repeats : Dword) (start : BitVec 64) (samples : Nat → BitVec 64) : Option Nat :=
  delayPoll fuel samples 0 (addHigh start repeats) (addLow start repeats)

def mdelay (fuel : Nat) (clock : TscClock) (ms : Dword) : BitVec 64 → (Nat → BitVec 64) → Option Nat :=
  delayLoop fuel (ms * clock.ms)

def udelay (fuel : Nat) (clock : TscClock) (us : Dword) : BitVec 64 → (Nat → BitVec 64) → Option Nat :=
  delayLoop fuel (us * clock.us)

section Delay

variable {samples : Nat → BitVec 64} {edi esi : Dword} {j k fuel : Nat}

/-- The loop is left at the first poll that passes. -/
theorem delayPoll_returns (passes : wordsPast (samples j) edi esi = true) (le : k ≤ j)
    (earlier : ∀ i, k ≤ i → i < j → wordsPast (samples i) edi esi = false) :
    Finishes none (fun fuel => delayPoll fuel samples k edi esi) (some j) := by
  induction left : j - k generalizing k with
  | zero =>
      obtain rfl : k = j := by omega
      refine .now rfl ?_
      intro fuel
      rw [delayPoll, if_pos passes]
  | succ n ih =>
      have here := earlier k (Nat.le_refl k) (by omega)
      refine .later (g := fun fuel => delayPoll fuel samples (k + 1) edi esi) rfl ?_ (ih (by omega) ?_ (by omega))
      · intro fuel
        rw [delayPoll, if_neg (by rw [here]; decide)]
      · intro i above below
        exact earlier i (by omega) below

theorem delayPoll_eq_some (left : delayPoll fuel samples k edi esi = some j) :
    k ≤ j ∧ wordsPast (samples j) edi esi = true ∧
      ∀ i, k ≤ i → i < j → wordsPast (samples i) edi esi = false := by
  induction fuel generalizing k with
  | zero => cases left
  | succ fuel ih =>
      rw [delayPoll] at left
      split at left
      · rename_i passes
        cases left
        refine ⟨Nat.le_refl _, passes, ?_⟩
        intro i above below
        omega
      · rename_i fails
        obtain ⟨above, passes, earlier⟩ := ih left
        refine ⟨by omega, passes, ?_⟩
        intro i le below
        obtain rfl | later := Nat.eq_or_lt_of_le le
        · exact Bool.eq_false_of_not_eq_true fails
        · exact earlier i later below

theorem delayPoll_returns_iff : Finishes none (fun fuel => delayPoll fuel samples 0 edi esi) (some j) ↔
    wordsPast (samples j) edi esi = true ∧ ∀ i < j, wordsPast (samples i) edi esi = false := by
  constructor
  · intro returns
    obtain ⟨fuel, left⟩ := returns.exists_eq
    obtain ⟨-, passes, earlier⟩ := delayPoll_eq_some left
    exact ⟨passes, fun i below => earlier i (Nat.zero_le i) below⟩
  · rintro ⟨passes, earlier⟩
    exact delayPoll_returns passes (Nat.zero_le j) fun i _ below => earlier i below

end Delay

/-- The sample `j`, the first at or after `start + ticks`, ends the wait for `ticks` that
are kept in one word. -/
def DelayExact (start ticks : Nat) (samples : Nat → BitVec 64) (j : Nat) : Prop :=
  if ticks < 2 ^ 32 then ¬ Crossed (2 ^ 32) (start + ticks) (samples j).toNat
  else (start + ticks) % 2 ^ 32 ≤ (samples j).toNat % 2 ^ 32 ∧
    ∀ i < j, (samples i).toNat < start + ticks % 2 ^ 32 ∨
      (samples i).toNat % 2 ^ 32 < (start + ticks) % 2 ^ 32

theorem delayLoop_exact {repeats : Dword} {start : BitVec 64} {samples : Nat → BitVec 64} {ticks j : Nat}
    (word : repeats.toNat = ticks % 2 ^ 32)
    (first : IsLeast {i | start.toNat + ticks ≤ (samples i).toNat} j) :
    Finishes none (fun fuel => delayLoop fuel repeats start samples) (some j) ↔
      DelayExact start.toNat ticks samples j := by
  have reached : start.toNat + ticks ≤ (samples j).toNat := first.1
  have before : ∀ i < j, (samples i).toNat < start.toNat + ticks := by
    intro i below
    by_contra late
    exact absurd (first.2 (Nat.le_of_not_lt late)) (Nat.not_le.mpr below)
  have bound := (samples j).isLt
  have wrapped := Nat.mod_le ticks (2 ^ 32)
  have fits : start.toNat + repeats.toNat < 2 ^ 64 := by omega
  have polls : Finishes none (fun fuel => delayLoop fuel repeats start samples) (some j) ↔
      Past (2 ^ 32) (start.toNat + ticks % 2 ^ 32) (samples j).toNat ∧
        ∀ i < j, ¬ Past (2 ^ 32) (start.toNat + ticks % 2 ^ 32) (samples i).toNat := by
    refine delayPoll_returns_iff.trans ?_
    simp only [← Bool.not_eq_true, wordsPast_iff fits, word]
  rw [polls, DelayExact]
  by_cases short : ticks < 2 ^ 32
  · rw [if_pos short, Nat.mod_eq_of_lt short, past_iff_not_crossed reached, and_iff_left]
    intro i below past
    exact absurd past.le (Nat.not_le.mpr (before i below))
  · have low : (start.toNat + ticks % 2 ^ 32) % 2 ^ 32 = (start.toNat + ticks) % 2 ^ 32 := Nat.add_mod_mod ..
    have le : start.toNat + ticks % 2 ^ 32 ≤ (samples j).toNat := by omega
    simp only [if_neg short, past_iff, low, le, true_and, not_and_or, not_le]

/-- `mdelay` and `udelay` wait as long as asked and no longer, exactly when the first sample
at or after the deadline is not crossed with it, or, for a product of more than one word,
has a low word that is large enough and no sample before has that. -/
theorem delays_exact {clock : TscClock} {n : Dword} {start : BitVec 64} {samples : Nat → BitVec 64} {j : Nat} :
    (IsLeast {i | start.toNat + n.toNat * clock.ms.toNat ≤ (samples i).toNat} j →
      (Finishes none (fun fuel => mdelay fuel clock n start samples) (some j) ↔
        DelayExact start.toNat (n.toNat * clock.ms.toNat) samples j)) ∧
    (IsLeast {i | start.toNat + n.toNat * clock.us.toNat ≤ (samples i).toNat} j →
      (Finishes none (fun fuel => udelay fuel clock n start samples) (some j) ↔
        DelayExact start.toNat (n.toNat * clock.us.toNat) samples j)) :=
  ⟨fun first => delayLoop_exact (BitVec.toNat_mul ..) first, fun first => delayLoop_exact (BitVec.toNat_mul ..) first⟩

/-- Polls every 100000 ticks. -/
def evenSamples (i : Nat) : BitVec 64 := BitVec.ofNat 64 (100000 * i)

theorem delays_exact_even : Finishes none (fun fuel => udelay fuel .default 200 0 evenSamples) (some 6) := by
  have reached : (0 : BitVec 64).toNat + (200 : Dword).toNat * TscClock.default.us.toNat ≤ (evenSamples 6).toNat := by
    decide
  have early : ∀ i < 6, ¬ (0 : BitVec 64).toNat + (200 : Dword).toNat * TscClock.default.us.toNat ≤
      (evenSamples i).toNat := by decide
  refine (delays_exact.2 ⟨reached, fun i late => Nat.le_of_not_lt fun less => early i less late⟩).mpr ?_
  rw [DelayExact, if_pos (by decide)]
  decide

/-- One poll is too early, and the low word has wrapped before the next. -/
def wrappingSamples : Nat → BitVec 64
  | 0 => 0xFFF0_1000
  | 1 => 0x1_0000_0000
  | _ => 0x1_FFFF_FFFF

/-- A delay of 200 us is not over when it should be, and one of 10 ms ends too early with
the clock that is stored for a processor of 3 GHz. -/
theorem delays_wrong :
    (IsLeast {i | (0xFFF0_0000 : BitVec 64).toNat + (200 : Dword).toNat * TscClock.default.us.toNat ≤
        (wrappingSamples i).toNat} 1 ∧
      ¬ Finishes none (fun fuel => udelay fuel .default 200 0xFFF0_0000 wrappingSamples) (some 1)) ∧
    mdelay 1 ⟨3000000000, 3000000⟩ 10 0 (fun _ => 4230196224) = some 0 ∧
      (4230196224 : BitVec 64).toNat < (0 : BitVec 64).toNat + (10 : Dword).toNat * (3000000000 : Dword).toNat := by
  have reached : (0xFFF0_0000 : BitVec 64).toNat + (200 : Dword).toNat * TscClock.default.us.toNat ≤
      (wrappingSamples 1).toNat := by decide
  have early : ∀ i < 1, ¬ (0xFFF0_0000 : BitVec 64).toNat + (200 : Dword).toNat * TscClock.default.us.toNat ≤
      (wrappingSamples i).toNat := by decide
  have first : IsLeast {i | (0xFFF0_0000 : BitVec 64).toNat + (200 : Dword).toNat * TscClock.default.us.toNat ≤
      (wrappingSamples i).toNat} 1 :=
    ⟨reached, fun i late => Nat.le_of_not_lt fun less => early i less late⟩
  refine ⟨⟨first, ?_⟩, by decide, by decide⟩
  rw [show (fun fuel => udelay fuel .default 200 0xFFF0_0000 wrappingSamples) =
    fun fuel => delayLoop fuel (200 * TscClock.default.us) 0xFFF0_0000 wrappingSamples from rfl,
    delayLoop_exact (by decide) first, DelayExact, if_pos (by decide)]
  decide

/-! ## Calibration -/

/-- `tsc_cmp`: `sub` of the low words, `sbb` of the high ones. -/
def tscCmp (a b : BitVec 64) : BitVec 64 :=
  let low := lowDword a - lowDword b
  let high := highDword a - highDword b - (if lowDword a < lowDword b then 1 else 0)
  high ++ low

/-- `div`: a quotient of more than one word is a divide error. -/
def divDword (edx eax ecx : Dword) : Option Dword :=
  let quotient := (edx.toNat * 2 ^ 32 + eax.toNat) / ecx.toNat
  if ecx = 0 ∨ 2 ^ 32 ≤ quotient then none else some (BitVec.ofNat 32 quotient)

/-- `tsc_div` -/
def tscDiv (a : BitVec 64) (b : Dword) : Option Dword :=
  if b = 0 then some 0 else divDword (highDword a) (lowDword a) b

/-- `AP_MONITOR_TIMEOUT` -/
def apMonitorTimeout : Dword := 125

/-- The clock in `monitor_proc`: the new `tsc_last` and the clock, or a divide error. -/
def monitorProc (tscLast tscAct : BitVec 64) (tardiness : Dword) : Option (BitVec 64 × TscClock) := do
  let msTick ← tscDiv (tscCmp tscAct tscLast) (apMonitorTimeout + tardiness)
  return (tscAct, ⟨msTick, msTick / 1000⟩)

theorem tscCmp_toNat {a b : BitVec 64} (le : b.toNat ≤ a.toNat) : (tscCmp a b).toNat = a.toNat - b.toNat := by
  have boundA := a.isLt
  have boundB := b.isLt
  have low : (lowDword a - lowDword b).toNat = (a.toNat - b.toNat) % 2 ^ 32 := by
    rw [BitVec.toNat_sub, lowDword_toNat, lowDword_toNat]
    omega
  have high : (highDword a - highDword b - (if lowDword a < lowDword b then 1 else 0)).toNat =
      (a.toNat - b.toNat) / 2 ^ 32 := by
    rw [BitVec.toNat_sub, BitVec.toNat_sub, highDword_toNat, highDword_toNat]
    simp only [BitVec.lt_def, lowDword_toNat]
    split
    · rw [show (1 : Dword).toNat = 1 from rfl]
      omega
    · rw [show (0 : Dword).toNat = 0 from rfl]
      omega
  rw [tscCmp, BitVec.toNat_append, high, low, Nat.shiftLeft_eq, Nat.mul_comm, ← Nat.two_pow_add_eq_or_of_lt]
  · exact Nat.div_add_mod _ _
  · exact Nat.mod_lt _ (by decide)

theorem divDword_eq {a : BitVec 64} {b : Dword} (nonzero : b ≠ 0) : divDword (highDword a) (lowDword a) b =
    if a.toNat / b.toNat < 2 ^ 32 then some (BitVec.ofNat 32 (a.toNat / b.toNat)) else none := by
  have words : (highDword a).toNat * 2 ^ 32 + (lowDword a).toNat = a.toNat := by
    rw [highDword_toNat, lowDword_toNat, Nat.mul_comm]
    exact Nat.div_add_mod _ _
  rw [divDword, words]
  by_cases fits : a.toNat / b.toNat < 2 ^ 32
  · rw [if_pos fits, if_neg (not_or.mpr ⟨nonzero, Nat.not_le.mpr fits⟩)]
  · rw [if_neg fits, if_pos (.inr (Nat.le_of_not_lt fits))]

theorem divDword_toNat {a : BitVec 64} {b : Dword} (nonzero : b ≠ 0) (x : Nat) :
    (∃ q, divDword (highDword a) (lowDword a) b = some q ∧ q.toNat = x) ↔
      a.toNat / b.toNat < 2 ^ 32 ∧ a.toNat / b.toNat = x := by
  rw [divDword_eq nonzero]
  constructor
  · rintro ⟨q, divided, rfl⟩
    obtain ⟨fits, same⟩ := Option.ite_none_right_eq_some.mp divided
    cases same
    rw [BitVec.toNat_ofNat, Nat.mod_eq_of_lt fits]
    exact ⟨fits, rfl⟩
  · rintro ⟨fits, rfl⟩
    exact ⟨_, if_pos fits, by rw [BitVec.toNat_ofNat, Nat.mod_eq_of_lt fits]⟩

/-- Dividing by the period in one word gives the quotient by the period. -/
def Calibrates (diff period : Nat) : Prop :=
  period < 2 ^ 32 ∧ diff < period * 2 ^ 32 ∨ period = 2 ^ 32 ∧ diff < 2 ^ 32 ∨
    2 ^ 32 < period ∧ diff < period - 2 ^ 32

instance (diff period : Nat) : Decidable (Calibrates diff period) := inferInstanceAs (Decidable (_ ∨ _ ∨ _))

/-- A divisor that is a word too small gives the same quotient only when both are zero. -/
theorem div_eq_div_add (diff : Nat) {r : Nat} (positive : 0 < r) (small : r < 2 ^ 32) :
    diff / r = diff / (2 ^ 32 + r) ↔ diff < r := by
  constructor
  · intro same
    by_contra above
    have one : 1 ≤ diff / r := Nat.div_pos (Nat.le_of_not_lt above) positive
    have upper : diff < r * (diff / r + 1) := Nat.lt_mul_div_succ diff positive
    have lower : (2 ^ 32 + r) * (diff / r) ≤ diff := same ▸ Nat.mul_div_le diff (2 ^ 32 + r)
    rw [Nat.mul_succ] at upper
    rw [Nat.add_mul] at lower
    omega
  · intro below
    rw [Nat.div_eq_of_lt below, Nat.div_eq_of_lt (by omega)]

/-- The quotient of `tsc_div` by a period that is kept in one word. -/
theorem tscDiv_period {a : BitVec 64} {b : Dword} {period : Nat} (word : b.toNat = period % 2 ^ 32)
    (positive : 0 < period) (bound : period < 2 ^ 33) :
    (∃ q, tscDiv a b = some q ∧ q.toNat = a.toNat / period) ↔ Calibrates a.toNat period := by
  rw [Calibrates, tscDiv]
  obtain short | whole | long := Nat.lt_trichotomy period (2 ^ 32)
  · have divisor : b.toNat = period := by omega
    have nonzero : b ≠ 0 := by
      rintro rfl
      exact absurd divisor (Nat.ne_of_lt positive)
    have fits : a.toNat / period < 2 ^ 32 ↔ a.toNat < period * 2 ^ 32 := by
      rw [Nat.div_lt_iff_lt_mul positive, Nat.mul_comm]
    rw [if_neg nonzero, divDword_toNat nonzero, divisor, fits]
    omega
  · -- the sum is zero, and the guard of `tsc_div` gives zero
    have zero : b = 0 := by
      apply BitVec.eq_of_toNat_eq
      rw [word, whole]
      rfl
    have quotient : 0 = a.toNat / period ↔ a.toNat < 2 ^ 32 := by
      rw [eq_comm, whole, Nat.div_eq_zero_iff]
      omega
    have value : (∃ q, some (0 : Dword) = some q ∧ q.toNat = a.toNat / period) ↔ 0 = a.toNat / period := by
      simp
    rw [if_pos zero, value, quotient]
    omega
  · obtain ⟨r, rfl⟩ := Nat.exists_eq_add_of_le (Nat.le_of_lt long)
    have divisor : b.toNat = r := by omega
    have nonzero : b ≠ 0 := by
      rintro rfl
      exact absurd divisor (by rw [show (0 : Dword).toNat = 0 from rfl]; omega)
    have same := div_eq_div_add a.toNat (r := r) (by omega) (by omega)
    have fits : a.toNat < r → a.toNat / r < 2 ^ 32 := by
      intro below
      rw [Nat.div_eq_of_lt below]
      decide
    rw [if_neg nonzero, divDword_toNat nonzero, divisor, same]
    constructor
    · rintro ⟨-, below⟩
      omega
    · intro calibrated
      have below : a.toNat < r := by omega
      exact ⟨fits below, below⟩

/-- `monitor_proc` calibrates the clock, without a divide error, exactly when the period fits
in one word and the quotient too, or the quotient is zero in either case. -/
theorem monitorProc_calibrates {tscLast tscAct : BitVec 64} {tardiness : Dword} (le : tscLast.toNat ≤ tscAct.toNat) :
    (∃ clock, monitorProc tscLast tscAct tardiness = some (tscAct, clock) ∧
      clock.ms.toNat = (tscAct.toNat - tscLast.toNat) / (125 + tardiness.toNat) ∧
      clock.us.toNat = clock.ms.toNat / 1000) ↔
      Calibrates (tscAct.toNat - tscLast.toNat) (125 + tardiness.toNat) := by
  have bound := tardiness.isLt
  have word : (apMonitorTimeout + tardiness).toNat = (125 + tardiness.toNat) % 2 ^ 32 := BitVec.toNat_add ..
  rw [← tscCmp_toNat le, ← tscDiv_period word (by omega) (by omega)]
  constructor
  · rintro ⟨clock, ended, ms, -⟩
    obtain ⟨q, divided, same⟩ := Option.bind_eq_some_iff.mp ended
    cases same
    exact ⟨q, divided, ms⟩
  · rintro ⟨q, divided, ms⟩
    refine ⟨⟨q, q / 1000⟩, ?_, ms, BitVec.toNat_udiv⟩
    rw [monitorProc, divided]
    rfl

/-- One second late, at 3 GHz. -/
theorem monitorProc_calibrates_late : ∃ clock, monitorProc 0 3375000000 1000 = some (3375000000, clock) ∧
    clock.ms.toNat = (3375000000 - 0) / (125 + 1000) ∧ clock.us.toNat = clock.ms.toNat / 1000 :=
  (monitorProc_calibrates (by decide)).mpr (by decide)

/-- After a pause in which 125 * 2^32 ticks have gone by, the division faults. -/
theorem monitorProc_faults : (0 : BitVec 64).toNat ≤ (536870912000 : BitVec 64).toNat ∧
    monitorProc 0 536870912000 0 = none := by decide

/-! ## The frequency from CPUID -/

/-- What CPUID says of the time stamp counter and of the features that are required. -/
structure CpuidTsc where
  /-- The instruction exists. -/
  supported : Bool
  /-- leaf 0 -/
  maxLeaf : Dword
  /-- leaf 1 -/
  edx1 : Dword
  eax15 : Dword
  ebx15 : Dword
  ecx15 : Dword
  eax16 : Dword
  deriving DecidableEq

/-- `cpuid_tsc_freq`: kHz, or zero when leaf 15h and leaf 16h do not say or a product overflows.
The high dividends are zero, so both quotients fit. -/
def cpuidTscFreq (c : CpuidTsc) : Dword :=
  if c.eax15 = 0 then 0
  else if c.ecx15 ≠ 0 then
    if 2 ^ 32 ≤ (c.ecx15 / 1000).toNat * c.ebx15.toNat then 0
    else c.ecx15 / 1000 * c.ebx15 / c.eax15
  else if c.eax16 = 0 then 0
  else if 2 ^ 32 ≤ c.eax16.toNat * (1000 : Dword).toNat then 0
  else c.eax16 * 1000

/-- `CPUID_EDX_FXSR | CPUID_EDX_MMX | CPUID_EDX_TSC | CPUID_EDX_MSR` -/
def requiredEdx : Dword := 0x01800060

/-- The clock after `Device_Init_proc`. -/
def deviceInitClock (c : CpuidTsc) (clock : TscClock) : TscClock :=
  if c.supported = false then clock
  else if 1 ≤ c.maxLeaf then
    if c.edx1 &&& requiredEdx ≠ requiredEdx then clock
    else if 0x16 ≤ c.maxLeaf then
      let tscFreq := cpuidTscFreq c
      if tscFreq ≠ 0 then ⟨tscFreq * 1000, tscFreq⟩ else clock
    else clock
  else clock

/-- `Device_Init_proc` gets as far as to read the frequency. -/
def CpuidTsc.reads (c : CpuidTsc) : Prop :=
  c.supported = true ∧ c.edx1 &&& requiredEdx = requiredEdx ∧ 0x16 ≤ c.maxLeaf

/-- The clock of a processor of `freq` kHz, in ticks for a millisecond and a microsecond, as
`monitor_proc` also measures it over any period. -/
structure TscClock.Of (freq : Dword) (clock : TscClock) : Prop where
  ms : clock.ms = freq
  us : clock.us = freq / 1000
  ratio : clock.us = clock.ms / 1000
  measured : ∀ (tscLast tscAct : BitVec 64) (tardiness : Dword), 125 + tardiness.toNat < 2 ^ 32 →
    tscAct.toNat = tscLast.toNat + freq.toNat * (125 + tardiness.toNat) →
    monitorProc tscLast tscAct tardiness = some (tscAct, clock)

theorem deviceInitClock_of_reads {c : CpuidTsc} (reads : c.reads) (nonzero : cpuidTscFreq c ≠ 0) (clock : TscClock) :
    deviceInitClock c clock = ⟨cpuidTscFreq c * 1000, cpuidTscFreq c⟩ := by
  obtain ⟨supported, features, leaf⟩ := reads
  have one : (1 : Dword) ≤ c.maxLeaf := BitVec.le_trans (by decide) leaf
  rw [deviceInitClock, if_neg (by simp [supported]), if_pos one, if_neg (not_not.mpr features), if_pos leaf]
  exact if_pos nonzero

theorem deviceInitClock_of_not_reads {c : CpuidTsc} (skips : ¬ c.reads) (clock : TscClock) :
    deviceInitClock c clock = clock := by
  rw [deviceInitClock]
  split
  · rfl
  · rename_i supported
    split
    · split
      · rfl
      · rename_i features
        rw [if_neg]
        intro leaf
        exact skips ⟨by simpa using supported, by simpa using features, leaf⟩
    · rfl

/-- Over any period `monitor_proc` finds the frequency of the processor. -/
theorem monitorProc_freq {freq : Dword} {tscLast tscAct : BitVec 64} {tardiness : Dword}
    (short : 125 + tardiness.toNat < 2 ^ 32)
    (elapsed : tscAct.toNat = tscLast.toNat + freq.toNat * (125 + tardiness.toNat)) :
    monitorProc tscLast tscAct tardiness = some (tscAct, ⟨freq, freq / 1000⟩) := by
  have diff : (tscCmp tscAct tscLast).toNat = freq.toNat * (125 + tardiness.toNat) := by
    rw [tscCmp_toNat (by omega)]
    omega
  have word : (apMonitorTimeout + tardiness).toNat = (125 + tardiness.toNat) % 2 ^ 32 := BitVec.toNat_add ..
  have fits : Calibrates (tscCmp tscAct tscLast).toNat (125 + tardiness.toNat) := by
    refine .inl ⟨short, ?_⟩
    rw [diff, Nat.mul_comm]
    exact Nat.mul_lt_mul_of_pos_left freq.isLt (by omega)
  obtain ⟨q, divided, value⟩ := (tscDiv_period word (by omega) (by omega)).mpr fits
  rw [diff, Nat.mul_div_cancel _ (by omega)] at value
  obtain rfl := BitVec.eq_of_toNat_eq value
  rw [monitorProc, divided]
  rfl

/-- `Device_Init_proc` sets the clock of a processor of the frequency that CPUID gives only
when it does not read it and the default happens to be right. -/
theorem deviceInitClock_units {c : CpuidTsc} (nonzero : cpuidTscFreq c ≠ 0) :
    (deviceInitClock c .default).Of (cpuidTscFreq c) ↔ ¬ c.reads ∧ cpuidTscFreq c = 3000000 := by
  constructor
  · intro units
    by_cases reads : c.reads
    · have us := units.us
      rw [deviceInitClock_of_reads reads nonzero] at us
      have value := congrArg BitVec.toNat us
      rw [BitVec.toNat_udiv] at value
      have zero : (cpuidTscFreq c).toNat = 0 := by
        rw [show (1000 : Dword).toNat = 1000 from rfl] at value
        dsimp only at value
        omega
      exact absurd (BitVec.eq_of_toNat_eq zero) nonzero
    · refine ⟨reads, ?_⟩
      rw [← units.ms, deviceInitClock_of_not_reads reads]
      rfl
  · rintro ⟨skips, freq⟩
    rw [deviceInitClock_of_not_reads skips, freq]
    refine ⟨rfl, by decide, by decide, ?_⟩
    intro tscLast tscAct tardiness short elapsed
    exact monitorProc_freq short elapsed

/-- A processor of 3 GHz whose largest leaf is 15h. -/
def cpuid15 : CpuidTsc := ⟨true, 0x15, 0x01800060, 2, 240, 25000000, 0⟩

theorem deviceInitClock_units_default : (deviceInitClock cpuid15 .default).Of 3000000 :=
  (deviceInitClock_units (c := cpuid15) (by decide)).mpr ⟨fun reads => absurd reads.2.2 (by decide), by decide⟩

/-- A processor of 2 GHz that gives its frequency. -/
def cpuid16 : CpuidTsc := ⟨true, 0x16, 0x01800060, 2, 0, 0, 2000⟩

/-- The two clocks are a thousand times what `monitor_proc` measures. -/
theorem deviceInitClock_factor : cpuidTscFreq cpuid16 = 2000000 ∧
    deviceInitClock cpuid16 .default = ⟨2000000000, 2000000⟩ ∧
    monitorProc 0 250000000 0 = some (250000000, ⟨2000000, 2000⟩) ∧
    ¬ (deviceInitClock cpuid16 .default).Of (cpuidTscFreq cpuid16) := by
  refine ⟨by decide, by decide, by decide, ?_⟩
  intro units
  exact absurd units.ms (by decide)

end SmpVxd
