import SmpVxd.X86.Block

/-!
# Filling memory

A region that holds one byte everywhere. Stores that go through it by words or by bytes add
to it at its end, and so do the string instructions.
-/

namespace X86

def Mem.fill (m : Mem) (a : Word) (n : Nat) (v : BitVec 8) : Mem := fun b =>
  if (b - a).toNat < n then v else m b

/-- A byte in all four places of a word. -/
def spread (v : BitVec 8) : Word := v ++ v ++ v ++ v

variable {m : Mem} {a b w : Word} {n k : Nat} {v : BitVec 8}

@[simp] theorem Mem.fill_zero : m.fill a 0 v = m := rfl

theorem Mem.fill_congr {m' : Mem} (same : m b = m' b) : m.fill a n v b = m'.fill a n v b := by
  rw [fill, fill, same]

/-- A region and the one after it. -/
theorem Mem.fill_fill (fits : n + k ≤ 2 ^ 32) :
    (m.fill a n v).fill (a + .ofNat 32 n) k v = m.fill a (n + k) v := by
  funext b
  simp only [fill]
  by_cases low : (b - a).toNat < n
  · rw [if_pos low, if_pos (by omega : (b - a).toNat < n + k)]
    split <;> rfl
  · have position : (b - (a + .ofNat 32 n)).toNat = (b - a).toNat - n := by
      have bound := (b - a).isLt
      bv_omega
    rw [if_neg low, position]
    by_cases high : (b - a).toNat < n + k
    · rw [if_pos high, if_pos (by omega)]
    · rw [if_neg high, if_neg (by omega)]

theorem extract_spread {j : Nat} (lt : j < 4) : (spread v).extractLsb' (8 * j) 8 = v :=
  extract_bytes (fun _ => v) lt

theorem setWidth_spread : (spread v).setWidth 8 = v := by
  rw [BitVec.setWidth_eq_extractLsb' (by decide)]
  exact extract_spread (Nat.zero_lt_succ 3)

theorem Mem.write_spread : m.write a (spread v) = m.fill a 4 v := by
  funext b
  simp only [write, fill]
  by_cases inside : (b - a).toNat < 4
  · rw [if_pos inside, if_pos inside, extract_spread inside]
  · rw [if_neg inside, if_neg inside]

theorem Mem.set_eq_fill : m.set a v = m.fill a 1 v := by
  funext b
  simp only [set, fill]
  by_cases same : b = a
  · rw [if_pos same, if_pos (by rw [same, BitVec.sub_self]; decide)]
  · rw [if_neg same, if_neg (by bv_omega)]

/-- A region apart from the one that is filled stays. -/
theorem Mem.agreeOn_fill {p : Word} (apart : ∀ i < n, k ≤ (a + .ofNat 32 i - p).toNat) :
    AgreeOn p k m (m.fill a n v) := by
  intro b inside
  refine if_neg fun lt => ?_
  have here := apart (b - a).toNat lt
  rw [BitVec.ofNat_toNat, BitVec.setWidth_eq, BitVec.add_comm, BitVec.sub_add_cancel] at here
  omega

namespace Block

variable {ξ : Type} {s t u : X86.State ξ}

/-- The `n` bytes from EDI on have been filled. -/
structure Filled (n : Nat) (v : BitVec 8) (s t : X86.State ξ) : Prop where
  mem : t.mem = s.mem.fill (s.reg .edi) n v
  edi : t.reg .edi = s.reg .edi + .ofNat 32 n
  reg : ∀ r, r ≠ .edi → r ≠ .ecx → t.reg r = s.reg r
  eflags : t.eflags = s.eflags
  seg : t.seg = s.seg

theorem Filled.trans (fits : n + k ≤ 2 ^ 32) (h : Filled n v s t) (h' : Filled k v t u) :
    Filled (n + k) v s u where
  mem := by rw [h'.mem, h.mem, h.edi, Mem.fill_fill fits]
  edi := by rw [h'.edi, h.edi, BitVec.add_assoc, BitVec.ofNat_add]
  reg r edi ecx := (h'.reg r edi ecx).trans (h.reg r edi ecx)
  eflags := h'.eflags.trans h.eflags
  seg := h'.seg.trans h.seg

theorem stride_clear {flags : Word} (clear : directionFlag flags = false) : stride flags w = w := by
  rw [stride, clear]
  rfl

theorem filled_zero (v : BitVec 8) (w : Word) : Filled 0 v s (s.setReg .ecx w) where
  mem := rfl
  edi := (BitVec.add_zero _).symm
  reg _ _ ecx := setReg_other ecx
  eflags := rfl
  seg := rfl

theorem filled_step (clear : directionFlag s.eflags = false) {mem : Mem}
    (stored : mem = s.mem.fill (s.reg .edi) n v) :
    Filled n v s (({ s with mem := mem }).setReg .edi (s.reg .edi + stride s.eflags (.ofNat 32 n))) where
  mem := stored
  edi := by rw [stride_clear clear, setReg_self]
  reg _ edi _ := setReg_other edi
  eflags := rfl
  seg := rfl

theorem fillWords_filled (clear : directionFlag s.eflags = false) (value : s.reg .eax = spread v)
    (fits : 4 * n ≤ 2 ^ 32) : Filled (4 * n) v s (fillWords s n) := by
  induction n generalizing s with
  | zero => exact filled_zero v 0
  | succ n ih =>
      have stored : s.mem.write (s.reg .edi) (s.reg .eax) = s.mem.fill (s.reg .edi) 4 v := by
        rw [value, Mem.write_spread]
      have first := filled_step clear stored
      have rest := ih (by rwa [first.eflags]) ((first.reg .eax (by decide) (by decide)).trans value)
        (by omega)
      rw [show 4 * (n + 1) = 4 + 4 * n by omega]
      exact first.trans (by omega) rest

theorem fillBytes_filled (clear : directionFlag s.eflags = false)
    (value : (s.reg .eax).setWidth 8 = v) (fits : n ≤ 2 ^ 32) : Filled n v s (fillBytes s n) := by
  induction n generalizing s with
  | zero => exact filled_zero v 0
  | succ n ih =>
      have stored : s.mem.set (s.reg .edi) ((s.reg .eax).setWidth 8) =
          s.mem.fill (s.reg .edi) 1 v := by
        rw [value, Mem.set_eq_fill]
      have first := filled_step clear stored
      have eax := first.reg .eax (by decide) (by decide)
      have rest := ih (by rwa [first.eflags]) (by rwa [eax]) (by omega)
      have whole := first.trans (by omega) rest
      rw [Nat.add_comm 1 n] at whole
      exact whole

/-- `rep movsd` changes no memory apart from its destination, and its three registers only. -/
theorem copyWords_frame (clear : directionFlag s.eflags = false) {p : Word}
    (apart : ∀ i < 4 * n, k ≤ (s.reg .edi + .ofNat 32 i - p).toNat) :
    AgreeOn p k s.mem (s.copyWords n).mem ∧ (s.copyWords n).eflags = s.eflags ∧
      ∀ r, r ≠ .esi → r ≠ .edi → r ≠ .ecx → (s.copyWords n).reg r = s.reg r := by
  induction n generalizing s with
  | zero => exact ⟨AgreeOn.refl p k s.mem, rfl, fun r _ _ ecx => setReg_other ecx⟩
  | succ n ih =>
      let t := ((s.store (s.reg .edi) (s.mem.read (s.reg .esi))).setReg .esi (s.reg .esi + 4)).setReg
        .edi (s.reg .edi + 4)
      have round : s.copyWords (n + 1) = t.copyWords n := by
        rw [X86.State.copyWords, clear]
        rfl
      have edi : t.reg .edi = s.reg .edi + 4 := setReg_self
      have next : ∀ i < 4 * n, k ≤ (t.reg .edi + .ofNat 32 i - p).toNat := by
        intro i lt
        have later := apart (i + 4) (by omega)
        rwa [edi, show s.reg .edi + 4 + .ofNat 32 i = s.reg .edi + .ofNat 32 (i + 4) by bv_omega]
      obtain ⟨kept, eflags, reg⟩ := ih (s := t) clear next
      have stored : AgreeOn p k s.mem t.mem := by
        intro a inside
        apply Mem.write_apply
        by_contra near
        have here := apart (a - s.reg .edi).toNat (by omega)
        rw [BitVec.ofNat_toNat, BitVec.setWidth_eq, BitVec.add_comm, BitVec.sub_add_cancel] at here
        omega
      rw [round]
      refine ⟨stored.trans kept, eflags, fun r esi edi ecx => (reg r esi edi ecx).trans ?_⟩
      exact (setReg_other edi).trans (setReg_other esi)

end Block

end X86
