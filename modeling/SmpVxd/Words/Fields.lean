import Mathlib.Data.BitVec

/-!
# Fields of a word

A field is a run of bits. A mask keeps a field or clears it, a union takes it from the word
that has it, and a shift moves it.
-/

namespace Words

variable {w s k n : Nat} {x m : BitVec w}

theorem field_kept (full : m.extractLsb' k n = BitVec.allOnes n) :
    (x &&& m).extractLsb' k n = x.extractLsb' k n := by
  rw [BitVec.extractLsb'_and, full, BitVec.and_allOnes]

theorem field_cleared (clear : m.extractLsb' k n = 0#n) : (x &&& m).extractLsb' k n = 0#n := by
  rw [BitVec.extractLsb'_and, clear, BitVec.and_zero]

theorem field_or_right (clear : m.extractLsb' k n = 0#n) :
    (x ||| m).extractLsb' k n = x.extractLsb' k n := by
  rw [BitVec.extractLsb'_or, clear, BitVec.or_zero]

theorem field_or_left (clear : x.extractLsb' k n = 0#n) :
    (x ||| m).extractLsb' k n = m.extractLsb' k n := by
  rw [BitVec.extractLsb'_or, clear, BitVec.zero_or]

theorem field_ushiftRight : (x >>> s).extractLsb' k n = x.extractLsb' (s + k) n := by
  apply BitVec.eq_of_getLsbD_eq
  intro i lt
  simp only [BitVec.getLsbD_extractLsb', BitVec.getLsbD_ushiftRight, Nat.add_assoc]

theorem field_shiftLeft (above : s ≤ k) (fits : k + n ≤ w) :
    (x <<< s).extractLsb' k n = x.extractLsb' (k - s) n := by
  apply BitVec.eq_of_getLsbD_eq
  intro i lt
  have here : k + i < w := by omega
  have moved : ¬k + i < s := by omega
  have same : k + i - s = k - s + i := by omega
  simp only [BitVec.getLsbD_extractLsb', BitVec.getLsbD_shiftLeft, here, moved, same, decide_true,
    decide_false, Bool.not_false, Bool.true_and]

theorem field_shiftLeft_below (below : k + n ≤ s) : (x <<< s).extractLsb' k n = 0#n := by
  apply BitVec.eq_of_getLsbD_eq
  intro i lt
  have out : k + i < s := by omega
  simp only [BitVec.getLsbD_extractLsb', BitVec.getLsbD_shiftLeft, out, decide_true, Bool.not_true,
    Bool.and_false, Bool.false_and, BitVec.getLsbD_zero]

end Words
