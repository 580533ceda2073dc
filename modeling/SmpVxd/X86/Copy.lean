import SmpVxd.X86.Memory

/-!
# Copying memory

A copy that is under way: of the `n` bytes that go from `src` to `dst`, those at the positions
from `lo` to `hi` have gone. A chunk that follows on either side comes out of the source as it
was, as long as nothing has been written there.
-/

namespace X86

def Mem.copyPart (m : Mem) (dst src : Word) (lo hi : Nat) : Mem := fun b =>
  if lo ≤ (b - dst).toNat ∧ (b - dst).toNat < hi then m (src + (b - dst)) else m b

/-- The bytes from `dst` are those that were at `src` in `m`, and all others are as in `m`. -/
structure Moved (m m' : Mem) (dst src : Word) (n : Nat) : Prop where
  copied : ∀ i < n, m' (dst + .ofNat 32 i) = m (src + .ofNat 32 i)
  kept : ∀ b, (∀ i < n, b ≠ dst + .ofNat 32 i) → m' b = m b

variable {m m' : Mem} {a b dst src : Word} {n t c lo hi lo' hi' : Nat}

theorem Mem.copyPart_self : m.copyPart dst src t t = m := by
  funext b
  exact if_neg (by omega)

theorem Mem.copyPart_apply (outside : ¬(lo ≤ (b - dst).toNat ∧ (b - dst).toNat < hi)) :
    m.copyPart dst src lo hi b = m b := if_neg outside

/-- The address at a position. -/
theorem add_position (dst b : Word) : dst + .ofNat 32 (b - dst).toNat = b := by
  rw [BitVec.ofNat_toNat, BitVec.setWidth_eq, BitVec.add_comm, BitVec.sub_add_cancel]

theorem position_add (dst : Word) {i : Nat} (lt : i < 2 ^ 32) : (dst + .ofNat 32 i - dst).toNat = i := by
  rw [BitVec.add_comm, BitVec.add_sub_cancel, BitVec.toNat_ofNat, Nat.mod_eq_of_lt lt]

theorem Mem.copyPart_zero : m.copyPart dst src 0 n = m.copy dst src n := by
  funext b
  rw [copyPart, copy]
  simp only [Nat.zero_le, true_and]

theorem moved_copy (fits : n ≤ 2 ^ 32) : Moved m (m.copy dst src n) dst src n where
  copied := by
    intro i lt
    have position : (dst + .ofNat 32 i - dst).toNat = i := position_add dst (by omega)
    rw [Mem.copy, position, if_pos lt, BitVec.add_comm dst, BitVec.add_sub_cancel]
  kept := by
    intro b apart
    apply if_neg
    intro lt
    exact apart _ lt (add_position dst b).symm

/-- A chunk of `c` bytes at the position `t`. -/
theorem Mem.blit_copyPart (fits : t + c ≤ 2 ^ 32)
    (unread : ∀ i, t ≤ i → i < t + c →
      ¬(lo ≤ (src + .ofNat 32 i - dst).toNat ∧ (src + .ofNat 32 i - dst).toNat < hi))
    (join : ∀ i, lo' ≤ i ∧ i < hi' ↔ (lo ≤ i ∧ i < hi) ∨ (t ≤ i ∧ i < t + c)) :
    (m.copyPart dst src lo hi).blit (dst + .ofNat 32 t) c
        ((m.copyPart dst src lo hi).image (src + .ofNat 32 t)) =
      m.copyPart dst src lo' hi' := by
  funext b
  have bound := (b - dst).isLt
  have position : (b - (dst + .ofNat 32 t)).toNat < c ↔ t ≤ (b - dst).toNat ∧ (b - dst).toNat < t + c := by
    constructor
    · intro inside
      constructor <;> bv_omega
    · rintro ⟨low, high⟩
      bv_omega
  by_cases inside : t ≤ (b - dst).toNat ∧ (b - dst).toNat < t + c
  · have source : src + .ofNat 32 t + .ofNat 32 (b - (dst + .ofNat 32 t)).toNat =
        src + .ofNat 32 (b - dst).toNat := by
      have offset : (b - (dst + .ofNat 32 t)).toNat = (b - dst).toNat - t := by bv_omega
      rw [offset, BitVec.add_assoc, ← BitVec.ofNat_add, Nat.add_sub_cancel' inside.1]
    rw [blit, if_pos (position.2 inside), image, source, copyPart_apply (unread _ inside.1 inside.2),
      copyPart, if_pos ((join _).2 (.inr inside)), BitVec.ofNat_toNat, BitVec.setWidth_eq]
  · rw [blit, if_neg (fun h => inside (position.1 h))]
    by_cases before : lo ≤ (b - dst).toNat ∧ (b - dst).toNat < hi
    · rw [copyPart, copyPart, if_pos before, if_pos ((join _).2 (.inl before))]
    · rw [copyPart, copyPart, if_neg before, if_neg]
      rw [join, not_or]
      exact ⟨before, inside⟩

theorem Mem.set_eq_blit (s : Word) : m.set a (m' s) = m.blit a 1 (m'.image s) := by
  funext b
  by_cases same : b = a
  · rw [set, blit, if_pos same, same, BitVec.sub_self, if_pos (by decide), image]
    exact congrArg m' (BitVec.add_zero s).symm
  · have apart : ¬(b - a).toNat < 1 := by
      intro zero
      apply same
      bv_omega
    rw [set, blit, if_neg same, if_neg apart]

theorem Mem.extract_read (m : Mem) (a : Word) {j : Nat} (lt : j < 4) :
    (m.read a).extractLsb' (8 * j) 8 = m (a + .ofNat 32 j) := by
  have word : m.read a = m.image a 3 ++ m.image a 2 ++ m.image a 1 ++ m.image a 0 := by
    rw [read, image, image, image, image, BitVec.add_zero]
    rfl
  rw [word]
  exact extract_bytes (m.image a) lt

theorem Mem.write_read_eq_blit (s : Word) : m.write a (m'.read s) = m.blit a 4 (m'.image s) := by
  funext b
  by_cases inside : (b - a).toNat < 4
  · rw [write, blit, if_pos inside, if_pos inside, extract_read m' s inside]
    rfl
  · rw [write, blit, if_neg inside, if_neg inside]

end X86
