import SmpVxd.X86.Symbolic

/-!
# Soundness of symbolic execution

`View.Fits` relates a view to a state. Each operation on views keeps it along with
the operation on states it is for, so does an instruction (`exec_sound`), and what
`verify` accepts runs to an end that `post` accepts (`verify_sound`).
-/

namespace X86

/-- The environment after one more `cpuid`. -/
def Env.answered (ρ : Env) (c : Word → CpuidRegs) : Env := { ρ with seen := ρ.seen ++ [c] }

variable {L : Layout} {ρ : Env} {A B : View} {e : Exp} {a b : Value} {u v w : Word} {x : Nat}
  {o : Alu} {k : Word} {ξ : Type} {s : State ξ}

namespace Exp

theorem eval_answered {c : Word → CpuidRegs} (h : e.eval ρ = some v) :
    e.eval (ρ.answered c) = some v := by
  induction e generalizing v with
  | lit | var | load => exact h
  | cpuid i leaf r =>
      simp only [eval, Option.map_eq_some_iff] at h ⊢
      obtain ⟨c', seen, rfl⟩ := h
      refine ⟨c', ?_, rfl⟩
      have inside := (List.getElem?_eq_some_iff.mp seen).1
      simpa only [Env.answered, List.getElem?_append_left inside] using seen
  | op o a b iha ihb =>
      simp only [eval, Option.bind_eq_some_iff, Option.map_eq_some_iff] at h ⊢
      obtain ⟨u, hu, w, hw, rfl⟩ := h
      exact ⟨u, iha hu, w, ihb hw, rfl⟩

theorem eval_offset : (e.offset k).eval ρ = (e.eval ρ).map (· + k) := by
  unfold offset
  split
  · rfl
  · rename_i a j
    cases h : a.eval ρ with
    | none => simp [eval, h]
    | some u => simp [eval, h, Alu.apply, BitVec.add_assoc]
  · cases h : e.eval ρ <;> simp [eval, h, Alu.apply]

theorem eval_mk {a b : Exp} : (mk o a b).eval ρ = (op o a b).eval ρ := by
  unfold mk
  split
  · rw [eval_offset]
    cases h : a.eval ρ <;> simp [eval, h, Alu.apply]
  · rw [eval_offset]
    cases h : a.eval ρ <;> simp [eval, h, Alu.apply, BitVec.sub_eq_add_neg]
  · rfl
  · rfl

theorem eval_split : e.eval ρ = (e.split.1.eval ρ).map (· + e.split.2) := by
  unfold split
  split
  · rename_i a j
    cases h : a.eval ρ <;> simp [eval, h, Alu.apply]
  · cases h : e.eval ρ <;> simp

end Exp

/-- The word is one the value stands for. -/
def Value.Denotes (L : Layout) (ρ : Env) : Value → Word → Prop
  | .any, _ => True
  | .eq e, v => e.eval ρ = some v
  | .mod e, v => ∃ w, e.eval ρ = some w ∧ v &&& ~~~L.volatile = w &&& ~~~L.volatile

namespace Value.Denotes

theorem answered {c : Word → CpuidRegs} (h : a.Denotes L ρ v) : a.Denotes L (ρ.answered c) v := by
  cases a with
  | any => trivial
  | eq e => exact Exp.eval_answered h
  | mod e =>
      obtain ⟨w, he, same⟩ := h
      exact ⟨w, Exp.eval_answered he, same⟩

theorem lit : (Value.eq (.lit v)).Denotes L ρ v := rfl

theorem op (ha : a.Denotes L ρ u) (hb : b.Denotes L ρ v) :
    (Value.op o a b).Denotes L ρ (o.apply u v) := by
  cases a with
  | any | mod => trivial
  | eq e =>
      cases b with
      | any | mod => trivial
      | eq e' =>
          change (Exp.mk o e e').eval ρ = some _
          simp only [Denotes] at ha hb
          simp only [Exp.eval_mk, Exp.eval, ha, hb, Option.bind_some, Option.map_some]

end Value.Denotes

namespace Layout

/-- The regions do not overlap, and the facts hold. -/
structure Valid (L : Layout) (ρ : Env) : Prop where
  tracked : ∀ x, L.size x ≤ L.extent x
  ordered : ∀ y < L.regions.length, ∀ x < y, Apart (ρ.var x) (L.extent x) (ρ.var y) (L.extent y)
  facts : ∀ f ∈ L.facts, ∀ v, f.1.eval ρ = some v → v = ρ.var f.2.1 + f.2.2

theorem Valid.apart (valid : L.Valid ρ) {x y : Nat} (hx : x < L.regions.length)
    (hy : y < L.regions.length) (ne : x ≠ y) : Apart (ρ.var x) (L.extent x) (ρ.var y) (L.extent y) := by
  obtain h | h := Nat.lt_or_gt_of_ne ne
  · exact valid.ordered y hy x h
  · exact (valid.ordered x hx y h).symm

/-- The word at an offset of a region is tracked. -/
def Tracked (L : Layout) (c : Nat × Word) : Prop := c.2.toNat % 4 = 0 ∧ c.2.toNat + 4 ≤ L.size c.1

instance (L : Layout) (c : Nat × Word) : Decidable (L.Tracked c) := inferInstanceAs (Decidable (_ ∧ _))

theorem Tracked.region {c : Nat × Word} (h : L.Tracked c) : c.1 < L.regions.length := by
  by_contra outside
  have none : L.regions[c.1]? = none := List.getElem?_eq_none (by omega)
  have bound := h.2
  simp only [size, none, Option.getD_none] at bound
  omega

theorem resolve_sound (valid : L.Valid ρ) (h : L.resolve e = some (x, k)) (he : e.eval ρ = some v) :
    v = ρ.var x + k := by
  rw [Exp.eval_split] at he
  unfold resolve at h
  split at h
  · rename_i y j hsplit
    split at h
    · cases h
      rw [hsplit] at he
      exact (Option.some.inj he).symm
    · cases h
  · rename_i e' j _ hsplit
    rw [hsplit] at he
    obtain ⟨f, found, hf⟩ := Option.map_eq_some_iff.mp h
    obtain ⟨w, hw, rfl⟩ := Option.map_eq_some_iff.mp he
    have same : f.1 = e' := by simpa using List.find?_some found
    have base := valid.facts f (List.mem_of_find?_eq_some found) w (same ▸ hw)
    cases hf
    rw [base, BitVec.add_assoc]

theorem cell_sound (valid : L.Valid ρ) {c : Nat × Word} (h : L.cell a = some c) (ha : a.Denotes L ρ v) :
    L.Tracked c ∧ v = ρ.var c.1 + c.2 := by
  unfold cell at h
  split at h
  · split at h
    · rename_i x k hr
      split at h
      · rename_i inside
        cases h
        exact ⟨inside, resolve_sound valid hr ha⟩
      · cases h
    · cases h
  · cases h

theorem Valid.cells_apart (valid : L.Valid ρ) {c d : Nat × Word} (hc : L.Tracked c) (hd : L.Tracked d)
    (ne : c ≠ d) : Apart (ρ.var c.1 + c.2) 4 (ρ.var d.1 + d.2) 4 := by
  obtain ⟨x, k⟩ := c
  obtain ⟨y, j⟩ := d
  by_cases same : x = y
  · subst same
    have hkj : k ≠ j := fun h => ne (by rw [h])
    obtain ⟨h₁, -⟩ := hc
    obtain ⟨h₂, -⟩ := hd
    constructor <;> simp only at h₁ h₂ ⊢ <;> bv_omega
  · have hx := valid.tracked x
    have hy := valid.tracked y
    have h₁ : k.toNat + 4 ≤ L.size x := hc.2
    have h₂ : j.toNat + 4 ≤ L.size y := hd.2
    have inside (p j : Word) : p + j - p = j := by rw [BitVec.add_comm, BitVec.add_sub_cancel]
    exact (valid.apart hc.region hd.region same).sub (by rw [inside]; exact h₁.trans hx)
      (by rw [inside]; exact h₂.trans hy) (by decide) (by decide)

end Layout

/-- What a status says of ZF and CF. -/
def FlagStatus.Holds (ρ : Env) (zero carry : Bool) : FlagStatus → Prop
  | .unknown => True
  | .res e => ∃ v, e.eval ρ = some v ∧ zero = (v == 0)
  | .sub a b => ∃ u v, a.eval ρ = some u ∧ b.eval ρ = some v ∧ zero = (u == v) ∧ carry = (u < v : Bool)

/-- A branch was taken, or not, as the status says. -/
def Branched (ρ : Env) (p : FlagStatus × Cond × Bool) : Prop :=
  ∃ zero carry, p.1.Holds ρ zero carry ∧ p.2.1.holds zero carry = p.2.2

theorem FlagStatus.Holds.answered {st : FlagStatus} {zero carry : Bool} (h : st.Holds ρ zero carry)
    (c : Word → CpuidRegs) : st.Holds (ρ.answered c) zero carry := by
  cases st with
  | unknown => trivial
  | res e =>
      obtain ⟨v, he, hz⟩ := h
      exact ⟨v, Exp.eval_answered he, hz⟩
  | sub a b =>
      obtain ⟨u, v, ha, hb, flags⟩ := h
      exact ⟨u, v, Exp.eval_answered ha, Exp.eval_answered hb, flags⟩

theorem Branched.answered {p : FlagStatus × Cond × Bool} (h : Branched ρ p) (c : Word → CpuidRegs) :
    Branched (ρ.answered c) p := by
  obtain ⟨zero, carry, holds, taken⟩ := h
  exact ⟨zero, carry, holds.answered c, taken⟩

/-- The state is one the view describes. -/
structure View.Fits (L : Layout) (ρ : Env) (A : View) (s : State ξ) : Prop where
  reg : ∀ r, (A.reg r).Denotes L ρ (s.reg r)
  eip : A.eip.eval ρ = some s.eip
  flags : ((A.flags.map Value.mod).getD .any).Denotes L ρ s.eflags
  status : A.status.Holds ρ (zeroFlag s.eflags) (carryFlag s.eflags)
  up : A.up = true → directionFlag s.eflags = false
  seg : ∀ g v, A.seg g = some v → s.seg g = v
  cr3 : A.cr3.Denotes L ρ s.cr3
  mem : ∀ c, L.Tracked c → (A.word c).Denotes L ρ (s.mem.read (ρ.var c.1 + c.2))
  path : ∀ p ∈ A.path, Branched ρ p
  count : A.count = ρ.seen.length

/-! ## Operations -/

namespace State

@[simp] theorem write_eflags (s : State ξ) (dst : Operand) : (s.write v dst).eflags = s.eflags := by
  cases dst <;> rfl

end State

namespace View.Fits

theorem goto (fits : A.Fits L ρ s) (k : Word) : (A.goto k).Fits L ρ (s.goto (ρ.var 0 + k)) :=
  { fits with eip := rfl }

theorem setReg (fits : A.Fits L ρ s) {r : Reg} (hv : a.Denotes L ρ v) :
    (A.setReg r a).Fits L ρ (s.setReg r v) := by
  refine { fits with reg := fun x => ?_ }
  by_cases h : x = r
  · subst h
    simpa [View.setReg, State.setReg] using hv
  · simpa [View.setReg, State.setReg, Function.update_of_ne h, h] using fits.reg x

theorem setSeg (fits : A.Fits L ρ s) {g : SReg} {known : Option Selector} {v : Selector}
    (hv : ∀ w, known = some w → v = w) : (A.setSeg g known).Fits L ρ (s.setSeg g v) := by
  refine { fits with seg := fun x w h => ?_ }
  by_cases hx : x = g
  · subst hx
    simpa [State.setSeg] using hv w (by simpa [View.setSeg] using h)
  · simpa [State.setSeg, Function.update_of_ne hx] using
      fits.seg x w (by simpa [View.setSeg, hx] using h)

theorem word (fits : A.Fits L ρ s) (valid : L.Valid ρ) {c : Nat × Word} (h : L.cell a = some c)
    (ha : a.Denotes L ρ v) : (A.word c).Denotes L ρ (s.mem.read v) := by
  obtain ⟨tracked, rfl⟩ := Layout.cell_sound valid h ha
  exact fits.mem c tracked

theorem load (fits : A.Fits L ρ s) (valid : L.Valid ρ) (ha : a.Denotes L ρ v) :
    (A.load L a).Denotes L ρ (s.mem.read v) := by
  unfold View.load
  split
  · rename_i c h
    exact fits.word valid h ha
  · trivial

theorem store (fits : A.Fits L ρ s) (valid : L.Valid ρ) (ha : a.Denotes L ρ u)
    (hb : b.Denotes L ρ v) (h : A.store L a b = some B) : B.Fits L ρ (s.store u v) := by
  obtain ⟨c, hc, rfl⟩ := Option.map_eq_some_iff.mp h
  obtain ⟨tracked, rfl⟩ := Layout.cell_sound valid hc ha
  refine { fits with mem := fun d hd => ?_ }
  by_cases same : c = d
  · subst same
    simpa [View.word, State.store] using hb
  · have apart := valid.cells_apart hd tracked (Ne.symm same)
    simpa [View.word, State.store, same, Mem.read_write_apart apart] using fits.mem d hd

theorem blit (fits : A.Fits L ρ s) (valid : L.Valid ρ) {n m : Nat} {bytes : Nat → BitVec 8}
    (ha : a.Denotes L ρ v) (h : A.blit L a m = some B) (hn : n ≤ m) :
    B.Fits L ρ { s with mem := s.mem.blit v n bytes } := by
  unfold View.blit at h
  split at h
  · split at h
    · rename_i x k hr
      split at h
      · rename_i inside
        cases h
        have hv := Layout.resolve_sound valid hr ha
        subst hv
        refine { fits with mem := fun c hc => ?_ }
        have keeps : AgreeOn (ρ.var c.1 + c.2) 4 s.mem (s.mem.blit (ρ.var x + k) n bytes) := by
          intro p hp
          apply if_neg
          have bound := hc.2
          have tracked := valid.tracked c.1
          by_cases same : c.1 = x
          · rw [same] at hp bound
            bv_omega
          · by_cases region : x < L.regions.length
            · obtain ⟨h₁, h₂⟩ := valid.apart hc.region region same
              bv_omega
            · have none : L.regions[x]? = none := List.getElem?_eq_none (by omega)
              have empty : L.extent x = 0 := by simp [Layout.extent, none]
              omega
        have same := keeps.read (i := 0) (by decide)
        rw [show ρ.var c.1 + c.2 + 0 = ρ.var c.1 + c.2 by simp] at same
        exact same ▸ fits.mem c hc
      · cases h
    · cases h
  · cases h

theorem at_ (fits : A.Fits L ρ s) (r : Reg) (d : Word) : (A.at_ r d).Denotes L ρ (s.reg r + d) :=
  (fits.reg r).op .lit

theorem value (fits : A.Fits L ρ s) (valid : L.Valid ρ) (src : Operand) :
    (A.value L src).Denotes L ρ (s.read src) := by
  cases src with
  | reg r => exact fits.reg r
  | imm v => rfl
  | mem r d => exact fits.load valid (fits.at_ r d)

theorem write (fits : A.Fits L ρ s) (valid : L.Valid ρ) {dst : Operand} (ha : a.Denotes L ρ v)
    (h : A.write L a dst = some B) : B.Fits L ρ (s.write v dst) := by
  cases dst with
  | reg r =>
      cases h
      exact fits.setReg ha
  | imm w =>
      cases h
      exact fits
  | mem r d => exact fits.store valid (fits.at_ r d) ha h

theorem push (fits : A.Fits L ρ s) (valid : L.Valid ρ) (ha : a.Denotes L ρ v)
    (h : A.push L a = some B) : B.Fits L ρ (s.push v) := by
  obtain ⟨C, stored, rfl⟩ := Option.map_eq_some_iff.mp h
  have esp := fits.at_ .esp (-4)
  rw [← BitVec.sub_eq_add_neg] at esp
  exact (fits.store valid esp ha stored).setReg esp

theorem pushAll (valid : L.Valid ρ) {vs : List Value} {ws : List Word}
    (denote : List.Forall₂ (fun a v => a.Denotes L ρ v) vs ws) {A : View} {s : State ξ}
    (fits : A.Fits L ρ s) (h : A.pushAll L vs = some B) : B.Fits L ρ (s.pushAll ws) := by
  induction denote generalizing A s with
  | nil =>
      cases h
      exact fits
  | cons hv _ ih =>
      obtain ⟨C, pushed, rest⟩ := Option.bind_eq_some_iff.mp h
      exact ih (fits.push valid hv pushed) rest

theorem slot (fits : A.Fits L ρ s) (valid : L.Valid ρ) (k : Word) :
    (A.slot L k).Denotes L ρ (s.slot k) := fits.load valid (fits.at_ .esp k)

theorem drop (fits : A.Fits L ρ s) (k : Word) : (A.drop k).Fits L ρ (s.drop k) :=
  fits.setReg (fits.at_ .esp k)

theorem popad (fits : A.Fits L ρ s) (valid : L.Valid ρ) : (A.popad L).Fits L ρ s.popad := by
  have edi := fits.setReg (r := .edi) (fits.slot valid 0)
  have esi := edi.setReg (r := .esi) (fits.slot valid 4)
  have ebp := esi.setReg (r := .ebp) (fits.slot valid 8)
  have ebx := ebp.setReg (r := .ebx) (fits.slot valid 16)
  have edx := ebx.setReg (r := .edx) (fits.slot valid 20)
  have ecx := edx.setReg (r := .ecx) (fits.slot valid 24)
  have eax := ecx.setReg (r := .eax) (fits.slot valid 28)
  exact eax.drop 32

theorem setStatus (fits : A.Fits L ρ s) {st : FlagStatus} {flags : Word}
    (status : st.Holds ρ (zeroFlag flags) (carryFlag flags))
    (up : directionFlag flags = directionFlag s.eflags) :
    (A.setStatus st).Fits L ρ (s.setFlags flags) :=
  { fits with flags := trivial, status, up := fun h => up.trans (fits.up h) }

theorem setFlags (fits : A.Fits L ρ s) {flags : Word} (ha : a.Denotes L ρ v)
    (same : flags &&& ~~~L.volatile = v &&& ~~~L.volatile) :
    (A.setFlags a).Fits L ρ (s.setFlags flags) := by
  refine { fits with flags := ?_, status := trivial, up := fun h => by cases h }
  cases a with
  | any => trivial
  | eq e => exact ⟨v, ha, same⟩
  | mod e =>
      obtain ⟨w, he, hw⟩ := ha
      exact ⟨w, he, same.trans hw⟩

/-- Flags change that nothing is known of, other than DF. -/
theorem dropFlags (fits : A.Fits L ρ s) {flags : Word} {up : Bool}
    (zero : zeroFlag flags = zeroFlag s.eflags) (carry : carryFlag flags = carryFlag s.eflags)
    (hup : up = true → directionFlag flags = false) :
    View.Fits L ρ { A with flags := none, up := up } (s.setFlags flags) :=
  { fits with
    flags := trivial
    status := by simpa only [State.setFlags, zero, carry] using fits.status
    up := hup }

/-- Volatile flags change. -/
theorem changeFlags (fits : A.Fits L ρ s) {flags : Word} (steady : L.volatile &&& 0x441 = 0)
    (same : flags &&& ~~~L.volatile = s.eflags &&& ~~~L.volatile) :
    A.Fits L ρ (s.setFlags flags) := by
  have bit (i : Nat) (hi : i < 32) (known : (0x441 : Word)[i] = true) :
      flags.getLsbD i = s.eflags.getLsbD i := by
    have steady_i : (L.volatile &&& 0x441)[i] = (0 : Word)[i] := by rw [steady]
    have same_i : (flags &&& ~~~L.volatile)[i] = (s.eflags &&& ~~~L.volatile)[i] := by rw [same]
    have zero : (0 : Word)[i] = false := by simp
    simp only [BitVec.getElem_and, BitVec.getElem_not, known, zero] at steady_i same_i
    rw [BitVec.getLsbD_eq_getElem hi, BitVec.getLsbD_eq_getElem hi]
    grind
  refine { fits with flags := ?_, status := ?_, up := fun up => ?_ }
  · have known := fits.flags
    cases hf : A.flags with
    | none => trivial
    | some e =>
        rw [hf] at known
        obtain ⟨w, value, hw⟩ := known
        exact ⟨w, value, same.trans hw⟩
  · have zero : zeroFlag flags = zeroFlag s.eflags := bit 6 (by decide) rfl
    have carry : carryFlag flags = carryFlag s.eflags := bit 0 (by decide) rfl
    simpa only [State.setFlags, zero, carry] using fits.status
  · exact (bit 10 (by decide) rfl).trans (fits.up up)

theorem copyWords (valid : L.Valid ρ) {n : Nat} {A : View} {s : State ξ} (fits : A.Fits L ρ s)
    (up : A.up = true) (h : A.copyWords L n = some B) : B.Fits L ρ (s.copyWords n) := by
  induction n generalizing A s with
  | zero =>
      cases h
      exact fits.setReg rfl
  | succ n ih =>
      obtain ⟨C, stored, rest⟩ := Option.bind_eq_some_iff.mp h
      have same : C.up = A.up := by
        obtain ⟨c, -, rfl⟩ := Option.map_eq_some_iff.mp stored
        rfl
      have copied := fits.store valid (fits.reg .edi) (fits.load valid (fits.reg .esi)) stored
      have moved := (copied.setReg (r := .esi) (fits.at_ .esi 4)).setReg (r := .edi) (fits.at_ .edi 4)
      simp only [State.copyWords, fits.up up, Bool.false_eq_true, if_false]
      exact ih moved (same.trans up) rest

theorem kernel (fits : A.Fits L ρ s) (h : A.kernel = true) : s.cpl = 0 := by
  unfold View.kernel at h
  split at h
  · rename_i cs known
    simpa [State.cpl, fits.seg _ _ known] using h
  · cases h

theorem ret (fits : A.Fits L ρ s) (valid : L.Valid ρ) (h : A.ret L = some B) :
    B.Fits L ρ ((s.drop 4).goto (s.slot 0)) := by
  have top := fits.slot valid 0
  unfold View.ret at h
  split at h
  · rename_i e he
    cases h
    rw [he] at top
    exact { fits.drop 4 with eip := top }
  · cases h

theorem iret (fits : A.Fits L ρ s) (valid : L.Valid ρ) (h : A.iret L = some B) :
    s.cpl = 0 ∧ B.Fits L ρ s.iret := by
  have eip := fits.slot valid 0
  have cs := fits.slot valid 4
  have flags := fits.setFlags (fits.slot valid 8) rfl
  unfold View.iret at h
  split at h
  · rename_i e w ring he hw
    rw [he] at eip
    rw [hw] at cs
    have cs : w = s.slot 4 := Option.some.inj cs
    subst cs
    have entered := flags.setSeg (g := .cs) (v := (s.slot 4).setWidth 16) fun _ h => Option.some.inj h
    have left : View.Fits L ρ { (A.setFlags (A.slot L 8)).setSeg .cs (some ((s.slot 4).setWidth 16)) with
        eip := e } (((s.goto (s.slot 0)).setSeg .cs ((s.slot 4).setWidth 16)).setFlags (s.slot 8)) :=
      { entered with eip }
    refine ⟨fits.kernel ring, ?_⟩
    dsimp only at h
    unfold State.iret
    split at h
    · rename_i ring
      cases h
      rw [if_pos ring]
      exact left.drop 12
    · rename_i ring
      cases h
      rw [if_neg ring]
      refine (left.setReg (fits.slot valid 12)).setSeg fun v known => ?_
      have ss := fits.slot valid 16
      split at known
      · rename_i u hu
        rw [hu] at ss
        cases known
        rw [← Option.some.inj ss]
      · cases known
  · cases h

theorem answered (fits : A.Fits L ρ s) (c : Word → CpuidRegs) :
    View.Fits L (ρ.answered c) { A with count := A.count + 1 } s where
  reg r := (fits.reg r).answered
  eip := Exp.eval_answered fits.eip
  flags := fits.flags.answered
  status := fits.status.answered c
  up := fits.up
  seg := fits.seg
  cr3 := fits.cr3.answered
  mem d hd := (fits.mem d hd).answered
  path p hp := (fits.path p hp).answered c
  count := by simp [Env.answered, fits.count]

theorem answer (fits : A.Fits L ρ s) (r : Reg) :
    (A.answer r).Denotes L (ρ.answered s.cpuid) ((s.cpuid (s.reg .eax)).get r) := by
  have eax := fits.reg .eax
  unfold View.answer
  split
  · rename_i leaf h
    rw [h] at eax
    cases Option.some.inj eax
    simp [Value.Denotes, Exp.eval, Env.answered, fits.count]
  · trivial

end View.Fits

/-! ## Instructions -/

theorem FlagStatus.ofResult_holds {flags : Word} (ha : a.Denotes L ρ v) (zero : zeroFlag flags = (v == 0)) :
    (FlagStatus.ofResult a).Holds ρ (zeroFlag flags) (carryFlag flags) := by
  cases a with
  | any | mod => trivial
  | eq e => exact ⟨v, ha, zero⟩

theorem FlagStatus.ofCmp_holds {flags : Word} (ha : a.Denotes L ρ u) (hb : b.Denotes L ρ v) :
    (FlagStatus.ofCmp a b).Holds ρ (zeroFlag (Alu.sub.flags flags u v))
      (carryFlag (Alu.sub.flags flags u v)) := by
  cases a with
  | any | mod => trivial
  | eq e =>
      cases b with
      | any | mod => trivial
      | eq e' =>
          refine ⟨u, v, ha, hb, ?_, carryFlag_sub⟩
          rw [zeroFlag_flags (by decide) (by decide)]
          simp only [Alu.apply, beq_eq_beq]
          constructor <;> intro h <;> bv_omega

theorem FlagStatus.decides_sound {st : FlagStatus} {zero carry taken : Bool} {c : Cond} (h : st.Holds ρ zero carry)
    (decided : st.decides c = some taken) : c.holds zero carry = taken := by
  unfold FlagStatus.decides at decided
  split at decided
  · obtain ⟨v, hv, rfl⟩ := h
    cases Option.some.inj hv
    split at decided
    · exact Option.some.inj decided
    · exact Option.some.inj decided
    · cases decided
  · obtain ⟨u, v, hu, hv, rfl, rfl⟩ := h
    cases Option.some.inj hu
    cases Option.some.inj hv
    exact Option.some.inj decided
  · cases decided

theorem and_not_of_subset {part all volatile : Word} (h : all &&& ~~~volatile = 0)
    (sub : part &&& ~~~all = 0) : part &&& ~~~volatile = 0 := by
  ext i hi
  have h_i : (all &&& ~~~volatile)[i] = (0 : Word)[i] := by rw [h]
  have sub_i : (part &&& ~~~all)[i] = (0 : Word)[i] := by rw [sub]
  simp only [BitVec.getElem_and, BitVec.getElem_not] at h_i sub_i ⊢
  grind

theorem popfdKeeps_subset (cpl : Nat) (flags : Word) : popfdKeeps cpl flags &&& ~~~0x1B3200 = 0 := by
  unfold popfdKeeps
  split <;> split <;> rfl

/-- Outside of the volatile bits `popfd` loads the image. -/
theorem popfdFlags_volatile {cpl : Nat} {flags image volatile : Word}
    (h : 0x1B3200 &&& ~~~volatile = 0) :
    popfdFlags cpl flags image &&& ~~~volatile = image &&& ~~~volatile := by
  have keeps := and_not_of_subset h (popfdKeeps_subset cpl flags)
  have rf : (0x10000 : Word) &&& ~~~volatile = 0 := and_not_of_subset h rfl
  unfold popfdFlags
  generalize popfdKeeps cpl flags = keep at *
  ext i hi
  have keep_i : (keep &&& ~~~volatile)[i] = (0 : Word)[i] := by rw [keeps]
  have rf_i : ((0x10000 : Word) &&& ~~~volatile)[i] = (0 : Word)[i] := by rw [rf]
  have zero : (0 : Word)[i] = false := by simp
  simp only [BitVec.getElem_and, BitVec.getElem_or, BitVec.getElem_not, zero] at keep_i rf_i ⊢
  grind

/-- The environment after an instruction. -/
def Env.after (ρ : Env) (s : State ξ) : Instr → Env
  | .cpuid => ρ.answered s.cpuid
  | _ => ρ

namespace View.Fits

theorem branch (fits : A.Fits L ρ s) (c : Cond) (target next : Word) :
    ∃ B ∈ A.branch c target next, B.Fits L ρ (s.goto
      (if c.holds (zeroFlag s.eflags) (carryFlag s.eflags) then ρ.var 0 + target else ρ.var 0 + next)) := by
  unfold View.branch
  cases taken : c.holds (zeroFlag s.eflags) (carryFlag s.eflags) with
  | false =>
      split
      · rename_i decided
        cases taken.symm.trans (FlagStatus.decides_sound fits.status decided)
      · exact ⟨_, List.mem_singleton_self _, fits.goto next⟩
      · refine ⟨_, List.mem_cons_of_mem _ (List.mem_singleton_self _), View.Fits.goto ?_ next⟩
        refine { fits with path := fun p hp => ?_ }
        cases hp with
        | head => exact ⟨_, _, fits.status, taken⟩
        | tail _ hp => exact fits.path p hp
  | true =>
      split
      · exact ⟨_, List.mem_singleton_self _, fits.goto target⟩
      · rename_i decided
        cases taken.symm.trans (FlagStatus.decides_sound fits.status decided)
      · refine ⟨_, List.mem_cons_self, View.Fits.goto ?_ target⟩
        refine { fits with path := fun p hp => ?_ }
        cases hp with
        | head => exact ⟨_, _, fits.status, taken⟩
        | tail _ hp => exact fits.path p hp

end View.Fits

/-- Symbolic execution of an instruction follows the processor. -/
theorem exec_sound [ExtUnit ξ] (valid : L.Valid ρ) (ext : ExtUnit.size ξ ≤ L.ext)
    (fits : A.Fits L ρ s) {i : Instr} {next : Word} {Bs : List View} (h : A.exec L next i = some Bs) :
    ∃ s', exec (ρ.var 0) (ρ.var 0 + next) s i = some s' ∧
      ∃ B ∈ Bs, B.Fits L (ρ.after s i) s' := by
  cases i with
  | mov dst src =>
      obtain ⟨C, written, rfl⟩ := Option.map_eq_some_iff.mp h
      have fits := fits.write valid (fits.value valid src) written
      exact ⟨_, rfl, _, List.mem_singleton_self _, fits.goto next⟩
  | lea dst b d =>
      cases h
      exact ⟨_, rfl, _, List.mem_singleton_self _, (fits.setReg (fits.at_ b d)).goto next⟩
  | alu o dst src =>
      obtain ⟨C, written, rfl⟩ := Option.map_eq_some_iff.mp h
      have value : Value.Denotes L ρ (if o = .xor ∧ dst = src then .eq (.lit 0)
          else .op o (A.value L dst) (A.value L src)) (o.apply (s.read dst) (s.read src)) := by
        split
        · rename_i zero
          obtain ⟨rfl, rfl⟩ := zero
          simp [Value.Denotes, Exp.eval, Alu.apply]
        · exact (fits.value valid dst).op (fits.value valid src)
      have fits := fits.write valid value written
      refine ⟨_, rfl, _, List.mem_singleton_self _, View.Fits.goto (fits.setStatus ?_ ?_) next⟩
      · split
        · trivial
        · rename_i shift
          exact FlagStatus.ofResult_holds value (zeroFlag_flags (fun h => shift (.inl h)) fun h => shift (.inr h))
      · simp
  | cmp a b =>
      cases h
      refine ⟨_, rfl, _, List.mem_singleton_self _, View.Fits.goto (fits.setStatus ?_ ?_) next⟩
      · exact FlagStatus.ofCmp_holds (fits.value valid a) (fits.value valid b)
      · simp
  | test a b =>
      cases h
      refine ⟨_, rfl, _, List.mem_singleton_self _, View.Fits.goto (fits.setStatus ?_ ?_) next⟩
      · exact FlagStatus.ofResult_holds ((fits.value valid a).op (fits.value valid b))
          (zeroFlag_flags (by decide) (by decide))
      · simp
  | dec dst =>
      obtain ⟨C, written, rfl⟩ := Option.map_eq_some_iff.mp h
      have value := (fits.value valid dst).op (o := .sub) (b := .eq (.lit 1)) .lit
      have fits := fits.write valid value written
      refine ⟨_, rfl, _, List.mem_singleton_self _, View.Fits.goto (fits.setStatus ?_ ?_) next⟩
      · exact FlagStatus.ofResult_holds value zeroFlag_setStatus
      · simp
  | push src =>
      obtain ⟨C, pushed, rfl⟩ := Option.map_eq_some_iff.mp h
      exact ⟨_, rfl, _, List.mem_singleton_self _,
        (fits.push valid (fits.value valid src) pushed).goto next⟩
  | pop dst =>
      cases h
      exact ⟨_, rfl, _, List.mem_singleton_self _,
        ((fits.drop 4).setReg (fits.slot valid 0)).goto next⟩
  | pushad =>
      obtain ⟨C, pushed, rfl⟩ := Option.map_eq_some_iff.mp h
      have registers (rs : List Reg) :
          List.Forall₂ (fun a v => Value.Denotes L ρ a v) (rs.map A.reg) (rs.map s.reg) := by
        simp only [List.forall₂_map_left_iff, List.forall₂_map_right_iff, List.forall₂_same]
        exact fun r _ => fits.reg r
      exact ⟨_, rfl, _, List.mem_singleton_self _, (View.Fits.pushAll valid (registers _) fits pushed).goto next⟩
  | popad =>
      cases h
      exact ⟨_, rfl, _, List.mem_singleton_self _, (fits.popad valid).goto next⟩
  | pushfd =>
      obtain ⟨C, pushed, rfl⟩ := Option.map_eq_some_iff.mp h
      exact ⟨_, rfl, _, List.mem_singleton_self _, (fits.push valid fits.flags pushed).goto next⟩
  | popfd =>
      simp only [View.exec] at h
      split at h
      · rename_i covered
        cases h
        exact ⟨_, rfl, _, List.mem_singleton_self _,
          ((fits.drop 4).setFlags (fits.slot valid 0) (popfdFlags_volatile covered)).goto next⟩
      · cases h
  | call target =>
      obtain ⟨C, pushed, rfl⟩ := Option.map_eq_some_iff.mp h
      have value : (Value.eq (.op .add (.var 0) (.lit next))).Denotes L ρ (ρ.var 0 + next) := rfl
      exact ⟨_, rfl, _, List.mem_singleton_self _, (fits.push valid value pushed).goto target⟩
  | ret =>
      obtain ⟨C, left, rfl⟩ := Option.map_eq_some_iff.mp h
      exact ⟨_, rfl, _, List.mem_singleton_self _, fits.ret valid left⟩
  | jmp target =>
      cases h
      exact ⟨_, rfl, _, List.mem_singleton_self _, fits.goto target⟩
  | jcc c target =>
      cases h
      obtain ⟨B, hB, fits⟩ := fits.branch c target next
      exact ⟨_, rfl, B, hB, fits⟩
  | iret =>
      obtain ⟨C, left, rfl⟩ := Option.map_eq_some_iff.mp h
      obtain ⟨ring, fits⟩ := fits.iret valid left
      exact ⟨_, if_pos ring, _, List.mem_singleton_self _, fits⟩
  | int3 => cases h
  | cpuid =>
      cases h
      have eax := (fits.answered s.cpuid).setReg (r := .eax) (fits.answer .eax)
      have ebx := eax.setReg (r := .ebx) (fits.answer .ebx)
      have ecx := ebx.setReg (r := .ecx) (fits.answer .ecx)
      have edx := ecx.setReg (r := .edx) (fits.answer .edx)
      exact ⟨_, rfl, _, List.mem_singleton_self _, edx.goto next⟩
  | repMovsd =>
      have ecx := fits.reg .ecx
      simp only [View.exec] at h
      split at h
      · rename_i n up hn
        obtain ⟨C, copied, rfl⟩ := Option.map_eq_some_iff.mp h
        rw [hn] at ecx
        cases Option.some.inj ecx
        exact ⟨_, rfl, _, List.mem_singleton_self _, (View.Fits.copyWords valid fits up copied).goto next⟩
      · cases h
  | cld =>
      cases h
      have flags : directionFlag (s.eflags &&& ~~~0x400) = false := by simp [directionFlag]
      exact ⟨_, rfl, _, List.mem_singleton_self _,
        (fits.dropFlags (by simp [zeroFlag]) (by simp [carryFlag]) fun _ => flags).goto next⟩
  | cli =>
      simp only [View.exec] at h
      split at h
      · rename_i ring
        cases h
        have flags : directionFlag (s.eflags &&& ~~~0x200) = directionFlag s.eflags := by
          simp [directionFlag]
        exact ⟨_, if_pos (fits.kernel ring), _, List.mem_singleton_self _,
          (fits.dropFlags (by simp [zeroFlag]) (by simp [carryFlag])
            fun up => flags.trans (fits.up up)).goto next⟩
      · cases h
  | movSeg dst src =>
      cases h
      refine ⟨_, rfl, _, List.mem_singleton_self _, View.Fits.goto (fits.setSeg fun v known => ?_) next⟩
      have value := fits.reg src
      split at known
      · rename_i w hw
        rw [hw] at value
        cases known
        rw [← Option.some.inj value]
      · cases known
  | movCr3 src =>
      simp only [View.exec] at h
      split at h
      · rename_i ring
        cases h
        exact ⟨_, if_pos (fits.kernel ring), _, List.mem_singleton_self _,
          { fits with eip := rfl, cr3 := fits.reg src }⟩
      · cases h
  | fxsave b =>
      obtain ⟨C, written, rfl⟩ := Option.map_eq_some_iff.mp h
      exact ⟨_, rfl, _, List.mem_singleton_self _,
        (fits.blit valid (fits.reg b) written le_rfl).goto next⟩
  | fxrstor b =>
      cases h
      exact ⟨_, rfl, _, List.mem_singleton_self _, { fits with eip := rfl }⟩
  | xsave b =>
      obtain ⟨C, written, rfl⟩ := Option.map_eq_some_iff.mp h
      exact ⟨_, rfl, _, List.mem_singleton_self _, (fits.blit valid (fits.reg b) written ext).goto next⟩
  | xrstor b =>
      cases h
      exact ⟨_, rfl, _, List.mem_singleton_self _, { fits with eip := rfl }⟩

namespace State

@[simp] theorem write_cpuid (s : State ξ) (dst : Operand) : (s.write v dst).cpuid = s.cpuid := by
  cases dst <;> rfl

@[simp] theorem copyWords_cpuid (s : State ξ) (n : Nat) : (s.copyWords n).cpuid = s.cpuid := by
  induction n generalizing s with
  | zero => rfl
  | succ n ih => exact ih _

@[simp] theorem iret_cpuid (s : State ξ) : s.iret.cpuid = s.cpuid := by
  unfold iret
  dsimp only
  split <;> rfl

end State

/-- Code does not change the processor it is on. -/
theorem exec_cpuid [ExtUnit ξ] {base next : Word} {i : Instr} {s' : State ξ}
    (h : exec base next s i = some s') : s'.cpuid = s.cpuid := by
  cases i with
  | int3 => cases h
  | iret | cli | movCr3 =>
      simp only [exec] at h
      split at h <;> cases h
      simp [State.goto, State.setFlags]
  | mov | alu | dec | repMovsd =>
      cases h
      simp [State.goto, State.setFlags]
  | _ =>
      cases h
      rfl

/-! ## Listings -/

theorem View.Fits.eip_eq (fits : A.Fits L ρ s) {k : Word} (h : A.offset = some k) :
    s.eip = ρ.var 0 + k := by
  have eip := fits.eip
  unfold View.offset at h
  split at h
  · rename_i o he
    cases h
    rw [he] at eip
    exact (Option.some.inj eip).symm
  · cases h

theorem View.Fits.reg_eq (fits : A.Fits L ρ s) {r : Reg} (h : A.reg r = .eq e) :
    e.eval ρ = some (s.reg r) := by
  have value := fits.reg r
  rwa [h] at value

/-- Without volatile bits the flags are known exactly. -/
theorem View.Fits.eflags_eq (fits : A.Fits L ρ s) (stable : L.volatile = 0) (h : A.flags = some e) :
    e.eval ρ = some s.eflags := by
  have flags := fits.flags
  rw [h] at flags
  obtain ⟨w, value, same⟩ := flags
  have all (v : Word) : v &&& ~~~(0 : Word) = v := BitVec.and_allOnes
  rw [stable, all, all] at same
  rw [value, same]

/-- What `verify` accepts has left the listing, or is at an instruction that `ok`
accepts. -/
theorem verify_at {code : Listing} {ok : View → Instr → Bool} {post : View → Bool} {n : Nat}
    (h : verify L code ok post n A = true) :
    A.offset = none ∧ post A = true ∨
      ∃ k i next, A.offset = some k ∧ fetch code k = some (i, next) ∧ ok A i = true := by
  cases n with
  | zero => cases h
  | succ n =>
      cases at_k : A.offset with
      | none =>
          simp only [verify, at_k] at h
          exact .inl ⟨rfl, h⟩
      | some k =>
          cases fetched : fetch code k with
          | none => simp [verify, at_k, fetched] at h
          | some p =>
              simp only [verify, at_k, fetched, Bool.and_eq_true] at h
              exact .inr ⟨k, p.1, p.2, rfl, fetched, h.1⟩

/-- The view after a breakpoint. -/
theorem verify_int3 {code : Listing} {ok : View → Instr → Bool} {post : View → Bool} {n : Nat}
    (h : verify L code ok post (n + 1) A = true) {k next : Word} (at_k : A.offset = some k)
    (fetched : fetch code k = some (.int3, next)) : verify L code ok post n (A.goto next) = true := by
  simp only [verify, at_k, fetched, Bool.and_eq_true] at h
  exact h.2

/-- At an instruction other than a breakpoint `verify` checks what the instruction does. -/
theorem verify_exec {code : Listing} {ok : View → Instr → Bool} {post : View → Bool} {n : Nat}
    (h : verify L code ok post (n + 1) A = true) {k next : Word} {i : Instr} (at_k : A.offset = some k)
    (fetched : fetch code k = some (i, next)) (plain : i ≠ .int3) :
    ∃ Bs, A.exec L next i = some Bs ∧ Bs.all (verify L code ok post n) = true := by
  simp only [verify, at_k, fetched, Bool.and_eq_true] at h
  obtain ⟨-, h⟩ := h
  cases hexec : A.exec L next i with
  | none => cases i <;> first | contradiction | simp [hexec] at h
  | some Bs =>
      refine ⟨Bs, rfl, ?_⟩
      cases i <;> first | contradiction | simpa only [hexec] using h

/-- At an instruction other than a breakpoint the processor takes a step to a state of
a view that `verify` accepts with less fuel. -/
theorem verify_step [ExtUnit ξ] {code : Listing} {ok : View → Instr → Bool} {post : View → Bool}
    {n : Nat} (valid : L.Valid ρ) (ext : ExtUnit.size ξ ≤ L.ext) (fits : A.Fits L ρ s)
    (h : verify L code ok post (n + 1) A = true) {k next : Word} {i : Instr} (at_k : A.offset = some k)
    (fetched : fetch code k = some (i, next)) (plain : i ≠ .int3) :
    ∃ s', step (ρ.var 0) code s = some s' ∧
      ∃ B, verify L code ok post n B = true ∧ B.Fits L (ρ.after s i) s' := by
  have offset : s.eip - ρ.var 0 = k := by rw [fits.eip_eq at_k]; simp
  obtain ⟨Bs, hexec, follows⟩ := verify_exec h at_k fetched plain
  obtain ⟨s', executed, B, hB, fits'⟩ := exec_sound valid ext fits hexec
  refine ⟨s', ?_, B, List.all_eq_true.mp follows B hB, fits'⟩
  simp only [step, offset, fetched, executed]

theorem step_cpuid [ExtUnit ξ] {base : Word} {code : Listing} {s' : State ξ}
    (h : step base code s = some s') : s'.cpuid = s.cpuid := by
  simp only [step] at h
  split at h
  · exact exec_cpuid h
  · cases h

theorem Env.after_seen (ρ : Env) (s : State ξ) (i : Instr) (seen : ∀ c ∈ ρ.seen, c = s.cpuid) :
    ∃ seen', (∀ c ∈ seen', c = s.cpuid) ∧ ρ.after s i = { ρ with seen := seen' } := by
  cases i with
  | cpuid =>
      refine ⟨ρ.seen ++ [s.cpuid], fun c hc => ?_, rfl⟩
      obtain hc | hc := List.mem_append.mp hc
      · exact seen c hc
      · exact List.mem_singleton.mp hc
  | _ => exact ⟨ρ.seen, seen, rfl⟩

/-- What `verify` accepts without breakpoints runs to a state of a view that `post`
accepts. The facts of the layout may depend on the answers of the processor. -/
theorem verify_sound [ExtUnit ξ] {code : Listing} {post : View → Bool} {n : Nat}
    (ext : ExtUnit.size ξ ≤ L.ext)
    (valid : ∀ seen, (∀ c ∈ seen, c = s.cpuid) → L.Valid { ρ with seen := seen })
    (seen : ∀ c ∈ ρ.seen, c = s.cpuid) (fits : A.Fits L ρ s)
    (h : verify L code plain post n A = true) :
    ∃ m s', run (ρ.var 0) code m s = some s' ∧ s'.cpuid = s.cpuid ∧
      ∃ B seen', post B = true ∧ (∀ c ∈ seen', c = s.cpuid) ∧ B.Fits L { ρ with seen := seen' } s' := by
  induction n generalizing A s ρ with
  | zero => cases h
  | succ n ih =>
      obtain ⟨-, hpost⟩ | ⟨k, i, next, at_k, fetched, ok⟩ := verify_at h
      · exact ⟨0, s, rfl, rfl, A, ρ.seen, hpost, seen, fits⟩
      · have ne : i ≠ .int3 := by simpa [plain] using ok
        obtain ⟨s₁, stepped, B, hB, fits₁⟩ := verify_step (valid _ seen) ext fits h at_k fetched ne
        have same := step_cpuid stepped
        obtain ⟨seen₁, hseen₁, after⟩ := ρ.after_seen s i seen
        rw [after] at fits₁
        rw [← same] at hseen₁ valid
        obtain ⟨m, s', ran, cpu, C, seen', hC, hseen', fits'⟩ :=
          ih (ρ := { ρ with seen := seen₁ }) valid hseen₁ fits₁ hB
        refine ⟨m + 1, s', ?_, cpu.trans same, C, seen', hC, ?_, fits'⟩
        · simp only [run, stepped, Option.bind_some]
          exact ran
        · rwa [same] at hseen'

end X86
