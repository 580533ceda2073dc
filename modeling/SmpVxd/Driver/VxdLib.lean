import SmpVxd.X86.Copy
import SmpVxd.Driver.Memset
import SmpVxd.Boot.FirstMb

/-!
# memcpy, memcmp and memmove

The functions of vxd_lib.c on blocks of memory, with their loops as the driver has them. A loop
with `n` turns left is a recursion on `n`.
-/

namespace SmpVxd.VxdLib

open X86

/-! ## vxd_lib.c -/

/-- The first loop of `memcpy`, with `i` from its current value. -/
def dwordLoop (dst src : Word) : Nat → Nat → Mem → Mem
  | 0, _, m => m
  | n + 1, i, m =>
      dwordLoop dst src n (i + 1) (m.write (dst + .ofNat 32 (4 * i)) (m.read (src + .ofNat 32 (4 * i))))

/-- The second loop of `memcpy`. -/
def byteLoop (dst src : Word) : Nat → Nat → Mem → Mem
  | 0, _, m => m
  | n + 1, i, m => byteLoop dst src n (i + 1) (m.set (dst + .ofNat 32 i) (m (src + .ofNat 32 i)))

/-- The result comes with the memory after the call. -/
def memcpy (m : Mem) (dst src size : Word) : Word × Mem :=
  let dwCount := size >>> 2
  let dwSize := size &&& 0xFFFFFFFC
  (dst, byteLoop dst src (size.toNat - dwSize.toNat) dwSize.toNat
    (dwordLoop dst src dwCount.toNat 0 m))

/-- `while(num--) *dst++ = *src++;` -/
def upLoop : Nat → Word → Word → Mem → Mem
  | 0, _, _, m => m
  | num + 1, dst, src, m => upLoop num (dst + 1) (src + 1) (m.set dst (m src))

/-- `while(num--) *--dst = *--src;` -/
def downLoop : Nat → Word → Word → Mem → Mem
  | 0, _, _, m => m
  | num + 1, dst, src, m => downLoop num (dst - 1) (src - 1) (m.set (dst - 1) (m (src - 1)))

def memmove (m : Mem) (destination source num : Word) : Word × Mem :=
  (destination,
    if source.toNat > destination.toNat then upLoop num.toNat destination source m
    else if source.toNat < destination.toNat then
      downLoop num.toNat (destination + num) (source + num) m
    else m)

/-- `while(num > 1 && *p1 == *p2)`: where the pointers stop, and the addresses that have been
read on the way. -/
def cmpLoop (m : Mem) : Nat → Word → Word → Word × Word × List Word
  | num + 2, p1, p2 =>
      if m p1 = m p2 then
        let (q1, q2, reads) := cmpLoop m (num + 1) (p1 + 1) (p2 + 1)
        (q1, q2, p1 :: p2 :: reads)
      else (p1, p2, [p1, p2])
  | _, p1, p2 => (p1, p2, [])

/-- The result, and the addresses that are read. -/
def memcmp (m : Mem) (ptr1 ptr2 num : Word) : Int × List Word :=
  if num = 0 then (0, [])
  else
    let (p1, p2, reads) := cmpLoop m num.toNat ptr1 ptr2
    (((m p1).toNat : Int) - (m p2).toNat, reads ++ [p1, p2])

variable {m : Mem} {dst src p q : Word} {n k i : Nat}

/-! ## Copies -/

/-- No byte of the source is overwritten before it is read, if the first bytes go first. -/
def Ahead (dst src : Word) (n : Nat) : Prop := ∀ i < n, i ≤ (src + .ofNat 32 i - dst).toNat

/-- The same, if the last bytes go first. -/
def Behind (dst src : Word) (n : Nat) : Prop :=
  ∀ i < n, (src + .ofNat 32 i - dst).toNat ≤ i ∨ n ≤ (src + .ofNat 32 i - dst).toNat

theorem dwordLoop_eq (ahead : Ahead dst src n) (fits : n ≤ 2 ^ 32) (room : 4 * (i + k) ≤ n) :
    dwordLoop dst src k i (m.copyPart dst src 0 (4 * i)) = m.copyPart dst src 0 (4 * (i + k)) := by
  induction k generalizing i with
  | zero => rfl
  | succ k ih =>
      have stored : (m.copyPart dst src 0 (4 * i)).write (dst + .ofNat 32 (4 * i))
          ((m.copyPart dst src 0 (4 * i)).read (src + .ofNat 32 (4 * i))) =
            m.copyPart dst src 0 (4 * (i + 1)) := by
        rw [Mem.write_read_eq_blit]
        apply Mem.blit_copyPart (by omega)
        · intro j low high
          have unread := ahead j (by omega)
          omega
        · intro j
          omega
      rw [dwordLoop, stored, ih (by omega), Nat.add_right_comm]
      rfl

/-- One byte after those that have been copied. -/
theorem set_copyPart (ahead : Ahead dst src n) (fits : n ≤ 2 ^ 32) (lt : i < n) :
    (m.copyPart dst src 0 i).set (dst + .ofNat 32 i) (m.copyPart dst src 0 i (src + .ofNat 32 i)) =
      m.copyPart dst src 0 (i + 1) := by
  rw [Mem.set_eq_blit]
  apply Mem.blit_copyPart (by omega)
  · intro j low high
    have unread := ahead j (by omega)
    omega
  · intro j
    omega

theorem byteLoop_eq (ahead : Ahead dst src n) (fits : n ≤ 2 ^ 32) (room : i + k ≤ n) :
    byteLoop dst src k i (m.copyPart dst src 0 i) = m.copyPart dst src 0 (i + k) := by
  induction k generalizing i with
  | zero => rfl
  | succ k ih =>
      rw [byteLoop, set_copyPart ahead fits (by omega), ih (by omega), Nat.add_right_comm]
      rfl

theorem upLoop_eq (ahead : Ahead dst src n) (fits : n ≤ 2 ^ 32) (room : i + k ≤ n) :
    upLoop k (dst + .ofNat 32 i) (src + .ofNat 32 i) (m.copyPart dst src 0 i) =
      m.copyPart dst src 0 (i + k) := by
  induction k generalizing i with
  | zero => rfl
  | succ k ih =>
      have next (p : Word) : p + .ofNat 32 i + 1 = p + .ofNat 32 (i + 1) := by
        rw [BitVec.add_assoc, BitVec.ofNat_add]
        rfl
      rw [upLoop, set_copyPart ahead fits (by omega), next, next, ih (by omega), Nat.add_right_comm]
      rfl

theorem downLoop_eq (behind : Behind dst src n) (fits : n ≤ 2 ^ 32) (room : k ≤ n) :
    downLoop k (dst + .ofNat 32 k) (src + .ofNat 32 k) (m.copyPart dst src k n) =
      m.copyPart dst src 0 n := by
  induction k with
  | zero => rfl
  | succ k ih =>
      have back (p : Word) : p + .ofNat 32 (k + 1) - 1 = p + .ofNat 32 k := by
        rw [BitVec.ofNat_add, ← BitVec.add_assoc]
        exact BitVec.add_sub_cancel _ _
      have stored : (m.copyPart dst src (k + 1) n).set (dst + .ofNat 32 k)
          (m.copyPart dst src (k + 1) n (src + .ofNat 32 k)) = m.copyPart dst src k n := by
        rw [Mem.set_eq_blit]
        apply Mem.blit_copyPart (by omega)
        · intro j low high
          have unread := behind j (by omega)
          omega
        · intro j
          omega
      rw [downLoop, back, back, stored, ih (by omega)]

/-! ## The copies as a whole -/

/-- The `n` bytes from `p` end below the end of the addresses. -/
def NoWrap (p : Word) (n : Nat) : Prop := p.toNat + n ≤ 2 ^ 32

/-- The two blocks of `n` bytes have no byte in common. -/
def NoOverlap (dst src : Word) (n : Nat) : Prop := dst.toNat + n ≤ src.toNat ∨ src.toNat + n ≤ dst.toNat

theorem ahead_of_le (le : dst.toNat ≤ src.toNat) (room : NoWrap src n) : Ahead dst src n := by
  intro i lt
  rw [NoWrap] at room
  bv_omega

theorem ahead_of_noOverlap (room : NoWrap dst n) (room' : NoWrap src n) (apart : NoOverlap dst src n) :
    Ahead dst src n := by
  obtain before | behind := apart
  · exact ahead_of_le (by omega) room'
  · intro i lt
    rw [NoWrap] at room
    bv_omega

theorem behind_of_lt (lt : src.toNat < dst.toNat) (room : NoWrap dst n) : Behind dst src n := by
  intro i small
  rw [NoWrap] at room
  bv_omega

theorem memcpy_eq {size : Word} (ahead : Ahead dst src size.toNat) :
    memcpy m dst src size = (dst, m.copy dst src size.toNat) := by
  have bound := size.isLt
  have words := @dwordLoop_eq m dst src size.toNat (size.toNat / 4) 0 ahead (by omega) (by omega)
  rw [Nat.mul_zero, Mem.copyPart_self, Nat.zero_add] at words
  rw [memcpy, Memset.toNat_quarter, Memset.toNat_words, words, byteLoop_eq ahead (by omega) (by omega),
    ← Mem.copyPart_zero]
  congr 2
  omega

theorem memmove_eq {num : Word} (room : NoWrap dst num.toNat) (room' : NoWrap src num.toNat) :
    memmove m dst src num = (dst, m.copy dst src num.toNat) := by
  have bound := num.isLt
  rw [memmove]
  by_cases up : src.toNat > dst.toNat
  · have ahead := ahead_of_le (Nat.le_of_lt up) room'
    have whole := @upLoop_eq m dst src num.toNat num.toNat 0 ahead (by omega) (by omega)
    rw [Mem.copyPart_self, Nat.zero_add, Mem.copyPart_zero] at whole
    rw [if_pos up, ← whole]
    congr 2 <;> exact (BitVec.add_zero _).symm
  · by_cases down : src.toNat < dst.toNat
    · have whole := @downLoop_eq m dst src num.toNat num.toNat (behind_of_lt down room) (by omega)
        (Nat.le_refl _)
      rw [Mem.copyPart_self, Mem.copyPart_zero, BitVec.ofNat_toNat, BitVec.setWidth_eq] at whole
      rw [if_neg up, if_pos down, whole]
    · have same : dst = src := BitVec.eq_of_toNat_eq (by omega)
      have copied : m.copy dst src num.toNat = m := by
        funext b
        rw [Mem.copy, same, BitVec.add_comm, BitVec.sub_add_cancel]
        split <;> rfl
      rw [if_neg up, if_neg down, copied]

/-! ## The comparison -/

/-- The place `k` where the comparison of `n` bytes stops: the first difference, or the last byte. -/
structure Stops (m : Mem) (p q : Word) (n k : Nat) : Prop where
  lt : k < n
  same : ∀ j < k, m (p + .ofNat 32 j) = m (q + .ofNat 32 j)
  stop : k + 1 = n ∨ m (p + .ofNat 32 k) ≠ m (q + .ofNat 32 k)

/-- The address is one of the `n` bytes of a block. -/
def Within (p q : Word) (n : Nat) (a : Word) : Prop := ∃ i < n, a = p + .ofNat 32 i ∨ a = q + .ofNat 32 i

theorem add_ofNat_zero (p : Word) : p + .ofNat 32 0 = p := BitVec.add_zero p

theorem add_one_add (p : Word) (i : Nat) : p + 1 + .ofNat 32 i = p + .ofNat 32 (i + 1) := by
  rw [BitVec.add_assoc, Nat.add_comm i 1, BitVec.ofNat_add]
  rfl

theorem Within.next {a : Word} (inside : Within (p + 1) (q + 1) n a) : Within p q (n + 1) a := by
  obtain ⟨i, lt, place⟩ := inside
  rw [add_one_add, add_one_add] at place
  exact ⟨i + 1, Nat.succ_lt_succ lt, place⟩

theorem within_first (p q : Word) (n : Nat) : ∀ a ∈ [p, q], Within p q (n + 1) a := by
  intro a mem
  refine ⟨0, Nat.succ_pos n, ?_⟩
  rw [add_ofNat_zero, add_ofNat_zero]
  obtain first | second := List.mem_cons.1 mem
  · exact .inl first
  · exact .inr (List.mem_singleton.1 second)

theorem Stops.next (equal : m p = m q) (stops : Stops m (p + 1) (q + 1) n k) :
    Stops m p q (n + 1) (k + 1) where
  lt := Nat.succ_lt_succ stops.lt
  same := by
    intro j lt
    cases j with
    | zero =>
        rw [add_ofNat_zero, add_ofNat_zero]
        exact equal
    | succ j =>
        rw [← add_one_add, ← add_one_add]
        exact stops.same j (Nat.lt_of_succ_lt_succ lt)
  stop := by
    rw [← add_one_add, ← add_one_add]
    obtain last | differs := stops.stop
    · exact .inl (congrArg Nat.succ last)
    · exact .inr differs

theorem cmpLoop_stops (m : Mem) (p q : Word) (n : Nat) : ∃ k reads, Stops m p q (n + 1) k ∧
    cmpLoop m (n + 1) p q = (p + .ofNat 32 k, q + .ofNat 32 k, reads) ∧
      ∀ a ∈ reads, Within p q (n + 1) a := by
  induction n generalizing p q with
  | zero =>
      refine ⟨0, [], ⟨Nat.one_pos, fun j lt => absurd lt (Nat.not_lt_zero j), .inl rfl⟩, ?_, ?_⟩
      · rw [add_ofNat_zero, add_ofNat_zero]
        rfl
      · exact fun a mem => absurd mem List.not_mem_nil
  | succ n ih =>
      rw [cmpLoop]
      by_cases equal : m p = m q
      · obtain ⟨k, reads, stops, ran, inside⟩ := ih (p + 1) (q + 1)
        refine ⟨k + 1, p :: q :: reads, stops.next equal, ?_, ?_⟩
        · rw [if_pos equal, ran]
          simp only [add_one_add]
        · intro a mem
          have split : a ∈ [p, q] ++ reads := mem
          obtain first | later := List.mem_append.1 split
          · exact within_first p q (n + 1) a first
          · exact (inside a later).next
      · refine ⟨0, [p, q], ⟨Nat.succ_pos _, fun j lt => absurd lt (Nat.not_lt_zero j), .inr ?_⟩, ?_,
          within_first p q (n + 1)⟩
        · rw [add_ofNat_zero, add_ofNat_zero]
          exact equal
        · rw [if_neg equal, add_ofNat_zero, add_ofNat_zero]

theorem memcmp_stops (m : Mem) (p q : Word) {num : Word} (pos : num ≠ 0) : ∃ k reads,
    Stops m p q num.toNat k ∧
      memcmp m p q num = (((m (p + .ofNat 32 k)).toNat : Int) - (m (q + .ofNat 32 k)).toNat, reads) ∧
      ∀ a ∈ reads, Within p q num.toNat a := by
  have nonzero : num.toNat ≠ 0 := by
    intro zero
    exact pos (BitVec.eq_of_toNat_eq zero)
  obtain ⟨n, size⟩ := Nat.exists_eq_succ_of_ne_zero nonzero
  obtain ⟨k, reads, stops, ran, inside⟩ := cmpLoop_stops m p q n
  rw [size]
  refine ⟨k, reads ++ [p + .ofNat 32 k, q + .ofNat 32 k], stops, ?_, ?_⟩
  · rw [memcmp, if_neg pos, size, Nat.succ_eq_add_one, ran]
  · intro a mem
    obtain loop | last := List.mem_append.1 mem
    · exact inside a loop
    · refine ⟨k, stops.lt, ?_⟩
      obtain first | second := List.mem_cons.1 last
      · exact .inl first
      · exact .inr (List.mem_singleton.1 second)

theorem memcmp_eq_zero_iff (m : Mem) (p q num : Word) :
    (memcmp m p q num).1 = 0 ↔ ∀ i < num.toNat, m (p + .ofNat 32 i) = m (q + .ofNat 32 i) := by
  by_cases none : num = 0
  · subst none
    exact iff_of_true rfl fun i lt => absurd lt (Nat.not_lt_zero i)
  · obtain ⟨k, reads, stops, ran, -⟩ := memcmp_stops m p q none
    rw [ran, Boot.byte_sub_eq_zero]
    constructor
    · intro equal i lt
      obtain last | differs := stops.stop
      · obtain before | rfl := Nat.lt_or_eq_of_le (Nat.le_of_lt_succ (last ▸ lt))
        · exact stops.same i before
        · exact equal
      · exact absurd equal differs
    · intro all
      exact all k stops.lt

/-- The difference of the first bytes that are not the same. -/
theorem memcmp_differs {num : Word} (lt : i < num.toNat)
    (same : ∀ j < i, m (p + .ofNat 32 j) = m (q + .ofNat 32 j))
    (differs : m (p + .ofNat 32 i) ≠ m (q + .ofNat 32 i)) :
    (memcmp m p q num).1 = ((m (p + .ofNat 32 i)).toNat : Int) - (m (q + .ofNat 32 i)).toNat := by
  have pos : num ≠ 0 := by
    rintro rfl
    exact absurd lt (Nat.not_lt_zero i)
  obtain ⟨k, reads, stops, ran, -⟩ := memcmp_stops m p q pos
  have reached : ¬i < k := fun before => differs (stops.same i before)
  have passed : ¬k < i := by
    intro before
    obtain last | here := stops.stop
    · omega
    · exact here (same k before)
  obtain rfl : i = k := by omega
  rw [ran]

theorem memcmp_reads (m : Mem) (p q num : Word) :
    ∀ a ∈ (memcmp m p q num).2, Within p q num.toNat a := by
  by_cases none : num = 0
  · subst none
    exact fun a mem => absurd mem List.not_mem_nil
  · obtain ⟨k, reads, -, ran, inside⟩ := memcmp_stops m p q none
    rw [ran]
    exact inside

/-! ## The three functions -/

/-- `memmove` moves every block, `memcpy` those that do not overlap or are the same, and `memcmp`
tells whether two blocks are equal and where they differ first, from their own bytes. -/
theorem blocks_copied_and_compared (m : Mem) (p q n : Word) (room : NoWrap p n.toNat)
    (room' : NoWrap q n.toNat) :
    Moved m (memmove m p q n).2 p q n.toNat ∧
    (NoOverlap p q n.toNat ∨ p = q → Moved m (memcpy m p q n).2 p q n.toNat) ∧
    ((memcmp m p q n).1 = 0 ↔ ∀ i < n.toNat, m (p + .ofNat 32 i) = m (q + .ofNat 32 i)) ∧
    (∀ i < n.toNat, (∀ j < i, m (p + .ofNat 32 j) = m (q + .ofNat 32 j)) →
      m (p + .ofNat 32 i) ≠ m (q + .ofNat 32 i) →
      (memcmp m p q n).1.sign =
        (((m (p + .ofNat 32 i)).toNat : Int) - (m (q + .ofNat 32 i)).toNat).sign) ∧
    ∀ a ∈ (memcmp m p q n).2, Within p q n.toNat a := by
  have bound := n.isLt
  refine ⟨?_, ?_, memcmp_eq_zero_iff m p q n, ?_, memcmp_reads m p q n⟩
  · rw [memmove_eq room room']
    exact moved_copy (Nat.le_of_lt bound)
  · intro apart
    have ahead : Ahead p q n.toNat := by
      obtain apart | rfl := apart
      · exact ahead_of_noOverlap room room' apart
      · exact ahead_of_le (Nat.le_refl _) room'
    rw [memcpy_eq ahead]
    exact moved_copy (Nat.le_of_lt bound)
  · intro i lt same differs
    rw [memcmp_differs lt same differs]

/-- Two blocks of seven bytes that share five. -/
theorem blocks_copied_and_compared_overlap :
    Moved (fun a => a.setWidth 8) (memmove (fun a => a.setWidth 8) 0x1002 0x1000 7).2 0x1002 0x1000 7 ∧
      ((memcmp (fun a => a.setWidth 8) 0x1002 0x1000 7).1 = 0 ↔
        ∀ i < 7, (0x1002 + BitVec.ofNat 32 i).setWidth 8 = (0x1000 + BitVec.ofNat 32 i).setWidth 8) := by
  obtain ⟨moved, -, equal, -⟩ := blocks_copied_and_compared (fun a => a.setWidth 8) 0x1002 0x1000 7
    (by unfold NoWrap; decide) (by unfold NoWrap; decide)
  exact ⟨moved, equal⟩

end SmpVxd.VxdLib
