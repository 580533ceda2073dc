import Mathlib.Data.Nat.Basic
import Mathlib.Order.Bounds.Basic

/-!
# Numbers in two words

A number is kept in a high and a low word of base `B`. The order is lexicographic in the
words; a comparison that asks each word to be large enough on its own is stronger than it,
and `past_iff_le_iff` says where the two differ.
-/

namespace Words

variable {B d t : Nat}

/-- Each word of `t` is at least the word of `d`. -/
def Past (B d t : Nat) : Prop := d / B ≤ t / B ∧ d % B ≤ t % B

/-- `t` is above `d` in its high word and below it in its low word. -/
def Crossed (B d t : Nat) : Prop := d / B < t / B ∧ t % B < d % B

instance (B d t : Nat) : Decidable (Crossed B d t) := inferInstanceAs (Decidable (_ ∧ _))

theorem Past.le (h : Past B d t) : d ≤ t := by
  have high : B * (d / B) ≤ B * (t / B) := Nat.mul_le_mul_left B h.1
  calc
    d = B * (d / B) + d % B := (Nat.div_add_mod d B).symm
    _ ≤ B * (t / B) + t % B := Nat.add_le_add high h.2
    _ = t := Nat.div_add_mod t B

/-- Of a later number only the low word is to be compared. -/
theorem past_iff : Past B d t ↔ d ≤ t ∧ d % B ≤ t % B := by
  constructor
  · intro past
    exact ⟨past.le, past.2⟩
  · rintro ⟨le, low⟩
    exact ⟨Nat.div_le_div_right le, low⟩

theorem Crossed.not_past (h : Crossed B d t) : ¬ Past B d t := fun past =>
  absurd past.2 (Nat.not_le.mpr h.2)

/-- In one high word the low words decide. -/
theorem past_of_le_of_high_eq (le : d ≤ t) (same : t / B = d / B) : Past B d t := by
  refine ⟨same.ge, ?_⟩
  have whole := Nat.div_add_mod d B
  have whole' := Nat.div_add_mod t B
  rw [same] at whole'
  omega

theorem past_iff_not_crossed (le : d ≤ t) : Past B d t ↔ ¬ Crossed B d t := by
  constructor
  · intro past crossed
    exact crossed.not_past past
  · intro straight
    have high : d / B ≤ t / B := Nat.div_le_div_right le
    obtain less | same := Nat.lt_or_eq_of_le high
    · exact ⟨high, Nat.le_of_not_lt fun low => straight ⟨less, low⟩⟩
    · exact past_of_le_of_high_eq le same.symm

theorem Crossed.le (h : Crossed B d t) : d ≤ t := by
  by_contra above
  exact absurd h.1 (Nat.not_lt.mpr (Nat.div_le_div_right (Nat.le_of_not_le above)))

/-- The comparison by words is the order, unless the words go different ways. -/
theorem past_iff_le_iff : (Past B d t ↔ d ≤ t) ↔ ¬ Crossed B d t := by
  constructor
  · intro same crossed
    exact crossed.not_past (same.mpr crossed.le)
  · intro straight
    exact ⟨Past.le, fun le => (past_iff_not_crossed le).mpr straight⟩

end Words
