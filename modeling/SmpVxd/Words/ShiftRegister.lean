import Mathlib.Data.BitVec
import Mathlib.Data.List.Basic

/-!
# Shift registers

Bits are moved into a word from the right. The low bits of the word are then the bits that
came last; what was in the word before, and the bits that have left it, do not show there.
-/

namespace Words

variable {w k : Nat} {r : BitVec w} {b : Bool}

def pushBit (r : BitVec w) (b : Bool) : BitVec w := if b then r <<< 1 ||| 1#w else r <<< 1

def pushBits (r : BitVec w) (bs : List Bool) : BitVec w := bs.foldl pushBit r

/-- The `k` low bits, from bit 0 on. -/
def lowBits (r : BitVec w) : Nat → List Bool
  | 0 => []
  | k + 1 => r.getLsbD 0 :: lowBits (r >>> 1) k

theorem length_lowBits : (lowBits r k).length = k := by
  induction k generalizing r with
  | zero => rfl
  | succ k ih => rw [lowBits, List.length_cons, ih]

theorem getLsbD_pushBit_zero (pos : 0 < w) : (pushBit r b).getLsbD 0 = b := by
  cases b <;> simp [pushBit, pos]

theorem getLsbD_pushBit_succ {i : Nat} (lt : i + 1 < w) :
    (pushBit r b).getLsbD (i + 1) = r.getLsbD i := by
  have shifted : (r <<< 1).getLsbD (i + 1) = r.getLsbD i := by
    have above : ¬i + 1 < 1 := by omega
    rw [BitVec.getLsbD_shiftLeft, decide_eq_true lt, decide_eq_false above, Nat.add_sub_cancel]
    rfl
  cases b with
  | false => exact shifted
  | true =>
      have other : (1#w).getLsbD (i + 1) = false := by
        rw [BitVec.getLsbD_one, decide_eq_false (by omega : ¬i + 1 = 0), Bool.and_false]
      rw [pushBit, if_pos rfl, BitVec.getLsbD_or, shifted, other, Bool.or_false]

theorem lowBits_congr {s : BitVec w} (same : ∀ i < k, r.getLsbD i = s.getLsbD i) :
    lowBits r k = lowBits s k := by
  induction k generalizing r s with
  | zero => rfl
  | succ k ih =>
      rw [lowBits, lowBits, same 0 (Nat.succ_pos k), ih]
      intro i lt
      rw [BitVec.getLsbD_ushiftRight, BitVec.getLsbD_ushiftRight]
      exact same (1 + i) (by omega)

theorem lowBits_pushBit (fits : k + 1 ≤ w) : lowBits (pushBit r b) (k + 1) = b :: lowBits r k := by
  rw [lowBits, getLsbD_pushBit_zero (by omega)]
  congr 1
  apply lowBits_congr
  intro i lt
  rw [BitVec.getLsbD_ushiftRight, Nat.add_comm]
  exact getLsbD_pushBit_succ (by omega)

theorem pushBits_append (r : BitVec w) (bs : List Bool) (b : Bool) :
    pushBits r (bs ++ [b]) = pushBit (pushBits r bs) b := by
  rw [pushBits, List.foldl_append]
  rfl

/-- The low bits are the last bits, the latest first. -/
theorem lowBits_pushBits {bs : List Bool} (many : k ≤ bs.length) (fits : k ≤ w) :
    lowBits (pushBits r bs) k = bs.reverse.take k := by
  induction k generalizing bs with
  | zero => rfl
  | succ k ih =>
      obtain rfl | ⟨bs, b, rfl⟩ := bs.eq_nil_or_concat
      · cases many
      · rw [List.concat_eq_append, pushBits_append, lowBits_pushBit fits, List.reverse_append]
        rw [List.length_concat] at many
        rw [ih (by omega) (by omega)]
        rfl

end Words
