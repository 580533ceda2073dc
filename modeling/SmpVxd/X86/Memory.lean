import Mathlib.Data.BitVec

/-!
# Memory of bytes

A memory maps addresses to bytes, and a word is read and written as four bytes,
little end first. Addresses wrap around, so the position of an address within a
region is the difference to its base; `Apart` says in these terms that two regions
do not overlap, and `AgreeOn` that two memories have the same bytes in a region.
-/

namespace X86

abbrev Word := BitVec 32

abbrev Mem := Word → BitVec 8

namespace Mem

def read (m : Mem) (a : Word) : Word := m (a + 3) ++ m (a + 2) ++ m (a + 1) ++ m a

def write (m : Mem) (a v : Word) : Mem := fun b =>
  if (b - a).toNat < 4 then v.extractLsb' (8 * (b - a).toNat) 8 else m b

def set (m : Mem) (a : Word) (v : BitVec 8) : Mem := fun b => if b = a then v else m b

/-- Copy `n` bytes from `src` to `dst`. -/
def copy (m : Mem) (dst src : Word) (n : Nat) : Mem := fun b =>
  if (b - dst).toNat < n then m (src + (b - dst)) else m b

/-- The bytes from `a` on. -/
def image (m : Mem) (a : Word) : Nat → BitVec 8 := fun i => m (a + BitVec.ofNat 32 i)

/-- Store the first `n` bytes of `bytes` at `a`. -/
def blit (m : Mem) (a : Word) (n : Nat) (bytes : Nat → BitVec 8) : Mem := fun b =>
  if (b - a).toNat < n then bytes (b - a).toNat else m b

end Mem

/-- The `n` bytes from `p` and the `k` bytes from `q` do not overlap. -/
def Apart (p : Word) (n : Nat) (q : Word) (k : Nat) : Prop := n ≤ (q - p).toNat ∧ k ≤ (p - q).toNat

instance (p q : Word) (n k : Nat) : Decidable (Apart p n q k) := inferInstanceAs (Decidable (_ ∧ _))

/-- The memories have the same `n` bytes from `p`. -/
def AgreeOn (p : Word) (n : Nat) (m m' : Mem) : Prop := ∀ a, (a - p).toNat < n → m' a = m a

variable {m m' m'' : Mem} {a b p q v : Word} {n k : Nat}

namespace Apart

theorem symm (h : Apart p n q k) : Apart q k p n := ⟨h.2, h.1⟩

/-- Parts of regions that do not overlap do not overlap. -/
theorem sub (h : Apart p n q k) {n' k' : Nat} (ha : (a - p).toNat + n' ≤ n)
    (hb : (b - q).toNat + k' ≤ k) (pos : 0 < n') (pos' : 0 < k') : Apart a n' b k' := by
  obtain ⟨h₁, h₂⟩ := h
  constructor <;> bv_omega

end Apart

namespace AgreeOn

theorem refl (p : Word) (n : Nat) (m : Mem) : AgreeOn p n m m := fun _ _ => rfl

theorem trans (h : AgreeOn p n m m') (h' : AgreeOn p n m' m'') : AgreeOn p n m m'' :=
  fun a inside => (h' a inside).trans (h a inside)

theorem read (h : AgreeOn p n m m') {i : Word} (hi : i.toNat + 4 ≤ n) :
    m'.read (p + i) = m.read (p + i) := by
  simp only [Mem.read]
  rw [h, h, h, h]
  all_goals bv_omega

theorem read_base (h : AgreeOn p n m m') (hn : 4 ≤ n) : m'.read p = m.read p := by
  simpa using h.read (i := 0) hn

theorem read_add {i j : Word} (h : AgreeOn (p + j) n m m') (hi : i.toNat + 4 ≤ n) :
    m'.read (p + (j + i)) = m.read (p + (j + i)) := by
  rw [← BitVec.add_assoc]
  exact h.read hi

theorem sub (h : AgreeOn p n m m') {i : Word} (hi : i.toNat + k ≤ n) : AgreeOn (p + i) k m m' := by
  intro a inside
  apply h
  bv_omega

end AgreeOn

/-- A byte of a word that is put together from four. -/
theorem extract_bytes (f : Nat → BitVec 8) {j : Nat} (lt : j < 4) :
    (f 3 ++ f 2 ++ f 1 ++ f 0).extractLsb' (8 * j) 8 = f j := by
  apply BitVec.eq_of_getLsbD_eq
  intro i small
  rw [BitVec.getLsbD_extractLsb', decide_eq_true small, Bool.true_and]
  simp only [BitVec.getLsbD_append]
  obtain rfl | rfl | rfl | rfl : j = 0 ∨ j = 1 ∨ j = 2 ∨ j = 3 := by omega
  · rw [if_pos (by omega)]
    congr 1
    omega
  · rw [if_neg (by omega), if_pos (by omega)]
    congr 1
    omega
  · rw [if_neg (by omega), if_neg (by omega), if_pos (by omega)]
    congr 1
    omega
  · rw [if_neg (by omega), if_neg (by omega), if_neg (by omega)]
    congr 1
    omega

namespace Mem

theorem write_apply (outside : 4 ≤ (b - a).toNat) : m.write a v b = m b := if_neg (by omega)

@[simp] theorem read_write_self : (m.write a v).read a = v := by
  have offset (j : Word) : a + j - a = j := by rw [BitVec.add_comm, BitVec.add_sub_cancel]
  simp only [read, write, offset, BitVec.sub_self]
  change v.extractLsb' (8 * 3) 8 ++ v.extractLsb' (8 * 2) 8 ++ v.extractLsb' (8 * 1) 8 ++
    v.extractLsb' (8 * 0) 8 = v
  simp only [BitVec.extractLsb'_append_extractLsb'_eq_extractLsb']
  simp

theorem agreeOn_write (apart : Apart p n a 4) : AgreeOn p n m (m.write a v) := by
  intro b inside
  apply write_apply
  obtain ⟨h₁, h₂⟩ := apart
  bv_omega

theorem read_write_apart (apart : Apart a 4 b 4) : (m.write b v).read a = m.read a := by
  have h := (agreeOn_write (m := m) (v := v) apart).read (i := 0) (by decide)
  simpa using h

theorem agreeOn_set {x : BitVec 8} (outside : n ≤ (a - p).toNat) : AgreeOn p n m (m.set a x) := by
  intro b inside
  refine if_neg fun same => ?_
  rw [same] at inside
  omega

theorem read_copy {i : Word} (src : Word) (hi : i.toNat + 4 ≤ n) :
    (m.copy p src n).read (p + i) = m.read (src + i) := by
  have byte (j : Word) (hj : j.toNat < 4) : m.copy p src n (p + i + j) = m (src + i + j) := by
    simp only [copy]
    rw [if_pos (by bv_omega)]
    congr 1
    bv_omega
  have first : m.copy p src n (p + i) = m (src + i) := by simpa using byte 0 (by decide)
  simp only [read, first, byte _ (show (1 : Word).toNat < 4 by decide),
    byte _ (show (2 : Word).toNat < 4 by decide), byte _ (show (3 : Word).toNat < 4 by decide)]

end Mem

end X86
