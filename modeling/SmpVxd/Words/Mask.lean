import Mathlib.Data.BitVec

/-!
# Tests with a mask

A mask is the union of words with one bit each. A word meets the mask of one bit exactly
when it has the bit, and it covers a union exactly when it covers every part.
-/

namespace Words

variable {w n : Nat} {x a b : BitVec w}

theorem bit_ne_zero (lt : n < w) : (1#w <<< n) ≠ 0#w := by
  intro zero
  have bit := congrArg (BitVec.getLsbD · n) zero
  simp [lt] at bit

theorem and_bit (x : BitVec w) (n : Nat) :
    x &&& (1#w <<< n) = if x.getLsbD n then 1#w <<< n else 0#w := by
  rw [← BitVec.twoPow_eq]
  exact BitVec.and_twoPow x n

theorem and_bit_ne_zero (lt : n < w) : x &&& (1#w <<< n) ≠ 0#w ↔ x.getLsbD n = true := by
  rw [and_bit]
  cases x.getLsbD n with
  | false => simp
  | true => simp only [if_true, iff_true]; exact bit_ne_zero lt

theorem covers_bit (lt : n < w) : x &&& (1#w <<< n) = 1#w <<< n ↔ x.getLsbD n = true := by
  rw [and_bit]
  cases x.getLsbD n with
  | false =>
      have apart := bit_ne_zero lt
      simpa using apart.symm
  | true => simp

theorem covers_or : x &&& (a ||| b) = a ||| b ↔ x &&& a = a ∧ x &&& b = b := by
  simp only [BitVec.eq_of_getLsbD_eq_iff, BitVec.getLsbD_and, BitVec.getLsbD_or]
  have bit (i : Nat) : (x.getLsbD i && (a.getLsbD i || b.getLsbD i)) = (a.getLsbD i || b.getLsbD i) ↔
      (x.getLsbD i && a.getLsbD i) = a.getLsbD i ∧ (x.getLsbD i && b.getLsbD i) = b.getLsbD i := by
    cases x.getLsbD i <;> cases a.getLsbD i <;> cases b.getLsbD i <;> decide
  simp only [bit]
  constructor
  · intro all
    exact ⟨fun i lt => (all i lt).1, fun i lt => (all i lt).2⟩
  · rintro ⟨left, right⟩ i lt
    exact ⟨left i lt, right i lt⟩

theorem meets_or : x &&& (a ||| b) ≠ 0#w ↔ x &&& a ≠ 0#w ∨ x &&& b ≠ 0#w := by
  rw [BitVec.and_or_distrib_left, Ne, BitVec.or_eq_zero_iff, not_and_or]

end Words
