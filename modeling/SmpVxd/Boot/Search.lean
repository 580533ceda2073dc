import SmpVxd.Boot.FirstMb
import Mathlib.Order.Basic

/-!
# Which floating pointer is found

The search goes through three windows of the first mebibyte in steps of 16 bytes. A slot
whose signature is right and whose checksum is wrong is passed like any other.
-/

namespace SmpVxd.Boot

/-! ## Searching an increasing list -/

theorem find?_increasing {α : Type*} [Preorder α] {l : List α} {p : α → Bool} {a : α}
    (increasing : l.Pairwise (· < ·)) :
    l.find? p = some a ↔ a ∈ l ∧ p a = true ∧ ∀ b ∈ l, b < a → p b = false := by
  rw [List.find?_eq_some_iff_append]
  constructor
  · rintro ⟨holds, before, after, rfl, none⟩
    refine ⟨List.mem_append_right _ (List.mem_cons_self ..), holds, fun b mem lt => ?_⟩
    obtain ⟨-, later, -⟩ := List.pairwise_append.1 increasing
    obtain inside | inside := List.mem_append.1 mem
    · simpa using none b inside
    · obtain rfl | inside := List.mem_cons.1 inside
      · exact absurd lt (lt_irrefl b)
      · exact absurd lt (lt_asymm ((List.pairwise_cons.1 later).1 b inside))
  · rintro ⟨mem, holds, first⟩
    obtain ⟨before, after, rfl⟩ := List.append_of_mem mem
    obtain ⟨-, -, earlier⟩ := List.pairwise_append.1 increasing
    refine ⟨holds, before, after, rfl, fun b inside => ?_⟩
    rw [first b (List.mem_append_left _ inside) (earlier b inside a (List.mem_cons_self ..))]
    rfl

/-! ## The windows -/

structure Window where
  start : Nat
  stop : Nat

def windows : List Window := [⟨0x9F000, 0x9FFFF⟩, ⟨0x7FC00, 0x7FCFF⟩, ⟨0xF0000, 0xFFFFF⟩]

/-- A place where the search of this window looks. -/
def Window.Slot (win : Window) (off : Nat) : Prop :=
  16 ∣ off ∧ win.start ≤ off ∧ off < win.stop

/-- The bytes of the first mebibyte from `off` on are a floating pointer structure. -/
structure IsMpfp (m : X86.Mem) (off : Nat) : Prop where
  signature : ∀ i c, mpfpMagic[i]? = some c → m (.ofNat 32 (off + i)) = c
  checksum : ((List.range 16).map fun i => (m (.ofNat 32 (off + i))).toNat).sum % 256 = 0

variable {m : X86.Mem} {env : Env} {win : Window} {off : Nat}

theorem startsWith_iff {p : Dword} {cs : List Byte} :
    startsWith m p cs = true ↔ ∀ i c, cs[i]? = some c → m (p + .ofNat 32 i) = c := by
  induction cs generalizing p with
  | nil => exact iff_of_true rfl fun i c there => by cases there
  | cons c rest ih =>
      rw [startsWith, Bool.and_eq_true, decide_eq_true_iff, ih]
      constructor
      · rintro ⟨here, tail⟩ i d there
        cases i with
        | zero =>
            obtain rfl : c = d := Option.some.inj there
            exact (congrArg m (BitVec.add_zero p)).trans here
        | succ i =>
            rw [Nat.add_comm, BitVec.ofNat_add, ← BitVec.add_assoc]
            exact tail i d there
      · intro all
        refine ⟨?_, fun i d there => ?_⟩
        · exact (congrArg m (BitVec.add_zero p)).symm.trans (all 0 c rfl)
        · have next := all (i + 1) d there
          rwa [Nat.add_comm, BitVec.ofNat_add, ← BitVec.add_assoc] at next

theorem toNat_sum (bytes : List Byte) : bytes.sum.toNat = (bytes.map BitVec.toNat).sum % 256 := by
  induction bytes with
  | nil => rfl
  | cons b rest ih =>
      rw [List.sum_cons, BitVec.toNat_add, ih, List.map_cons, List.sum_cons]
      exact Nat.add_mod_mod ..

theorem isMpfp_iff : isMpfp m off = true ↔ IsMpfp m off := by
  have sum : byteSum m (.ofNat 32 off) 16 = 0 ↔
      ((List.range 16).map fun i => (m (.ofNat 32 (off + i))).toNat).sum % 256 = 0 := by
    rw [← BitVec.toNat_inj, byteSum, toNat_sum, span, List.map_map, List.map_map]
    simp only [Function.comp_def, BitVec.ofNat_add]
    rfl
  rw [isMpfp, Bool.and_eq_true, decide_eq_true_iff, sum, startsWith_iff]
  simp only [← BitVec.ofNat_add]
  constructor
  · rintro ⟨signature, checksum⟩
    exact ⟨signature, checksum⟩
  · rintro ⟨signature, checksum⟩
    exact ⟨signature, checksum⟩

theorem slots_increasing (ptr stop : Nat) : (slots ptr stop).Pairwise (· < ·) :=
  List.pairwise_lt_range' _ (by decide)

theorem mem_slots {ptr stop : Nat} (aligned : 16 ∣ ptr) :
    off ∈ slots ptr stop ↔ Window.Slot ⟨ptr, stop⟩ off := by
  rw [slots, List.mem_range', Window.Slot]
  dsimp only
  constructor
  · rintro ⟨i, lt, rfl⟩
    omega
  · rintro ⟨aligned', low, high⟩
    exact ⟨(off - ptr) / 16, by omega, by omega⟩

theorem windows_aligned (mem : win ∈ windows) : 16 ∣ win.start := by
  simp only [windows, List.mem_cons, List.not_mem_nil, or_false] at mem
  obtain rfl | rfl | rfl := mem <;> decide

/-- The structure that the scan of one window finds. -/
theorem find_window (mem : win ∈ windows) :
    (slots win.start win.stop).find? (isMpfp m) = some off ↔
      win.Slot off ∧ IsMpfp m off ∧ ∀ off' < off, win.Slot off' → ¬IsMpfp m off' := by
  have aligned := windows_aligned mem
  rw [find?_increasing (slots_increasing ..), mem_slots aligned, isMpfp_iff]
  simp only [mem_slots aligned, ← isMpfp_iff, Bool.not_eq_true]
  constructor
  · rintro ⟨slot, holds, first⟩
    exact ⟨slot, holds, fun off' lt slot' => first off' slot' lt⟩
  · rintro ⟨slot, holds, first⟩
    exact ⟨slot, holds, fun off' slot' lt => first off' lt slot'⟩

theorem find_window_none (mem : win ∈ windows) :
    (slots win.start win.stop).find? (isMpfp m) = none ↔ ∀ off, win.Slot off → ¬IsMpfp m off := by
  rw [List.find?_eq_none]
  simp only [mem_slots (windows_aligned mem), isMpfp_iff]

theorem mpfpOf_eq : mpfpOf m =
    windows.findSome? fun win => (slots win.start win.stop).find? (isMpfp m) := by
  rw [← List.find?_flatMap, mpfpOf, windows]
  simp only [List.flatMap_cons, List.flatMap_nil, List.append_nil, List.append_assoc]

/-! ## The result of the search -/

/-- The search returns null when no window has a structure, and otherwise the lowest one
of the first window that has any. -/
theorem smp_get_mpfp_first (env : Env) (s : State) :
    ∃ r as, (smpGetMpfp env).run s = .ok r (s.read as) ∧
      (r = none ↔ ∀ win ∈ windows, ∀ off, win.Slot off → ¬IsMpfp env.firstMb off) ∧
      ∀ fp, r = some fp → ∃ before win after off,
        windows = before ++ win :: after ∧ fp = .ofNat 32 off ∧
        win.Slot off ∧ IsMpfp env.firstMb off ∧
        (∀ off' < off, win.Slot off' → ¬IsMpfp env.firstMb off') ∧
        ∀ win' ∈ before, ∀ off', win'.Slot off' → ¬IsMpfp env.firstMb off' := by
  obtain ⟨as, reading, -⟩ := smpGetMpfp_reading env
  refine ⟨_, as, reading s, ?_, fun fp found => ?_⟩
  · rw [Option.map_eq_none_iff, mpfpOf_eq, List.findSome?_eq_none_iff]
    constructor
    · intro none win mem
      exact (find_window_none mem).1 (none win mem)
    · intro none win mem
      exact (find_window_none mem).2 (none win mem)
  · obtain ⟨off, first, rfl⟩ := Option.map_eq_some_iff.1 found
    rw [mpfpOf_eq] at first
    obtain ⟨before, win, after, split, here, none⟩ := List.findSome?_eq_some_iff.1 first
    have inside {win' : Window} (mem : win' ∈ before ++ win :: after) : win' ∈ windows := by
      rwa [split]
    obtain ⟨slot, holds, lowest⟩ :=
      (find_window (inside (List.mem_append_right _ (List.mem_cons_self ..)))).1 here
    refine ⟨before, win, after, off, split, rfl, slot, holds, lowest, fun win' mem => ?_⟩
    exact (find_window_none (inside (List.mem_append_left _ mem))).1 (none win' mem)

end SmpVxd.Boot
