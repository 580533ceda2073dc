import SmpVxd.X86.Soundness

/-!
# What code leaves alone

Code that `verify` accepts writes to the regions of its layout only. It can be followed
to the first state that is not inside of it any more, whatever is found in memory there.
-/

namespace X86

variable {ξ : Type} {L : Layout} {ρ : Env} {A B : View} {s s' : State ξ} {a b : Value} {u v p : Word}

/-- The byte is in none of the regions. -/
def Layout.Clear (L : Layout) (ρ : Env) (p : Word) : Prop :=
  ∀ x < L.regions.length, L.extent x ≤ (p - ρ.var x).toNat

namespace Layout

theorem Clear.outside (clear : L.Clear ρ p) {x : Nat} (hx : x < L.regions.length) {k : Word} {n : Nat}
    (inside : k.toNat + n ≤ L.extent x) : n ≤ (p - (ρ.var x + k)).toNat := by
  have far := clear x hx
  bv_omega

/-- A range apart from all regions. -/
theorem clear_of_apart {q : Word} {n : Nat} (h : ∀ x < L.regions.length, Apart q n (ρ.var x) (L.extent x))
    (inside : (p - q).toNat < n) : L.Clear ρ p := by
  intro x hx
  obtain ⟨h₁, h₂⟩ := h x hx
  by_contra near
  bv_omega

end Layout

namespace View.Fits

/-! ## Stores -/

theorem store_frame (valid : L.Valid ρ) (clear : L.Clear ρ p) (ha : a.Denotes L ρ u)
    (h : A.store L a b = some B) : (s.store u v).mem p = s.mem p := by
  obtain ⟨c, hc, -⟩ := Option.map_eq_some_iff.mp h
  obtain ⟨tracked, rfl⟩ := Layout.cell_sound valid hc ha
  apply Mem.write_apply
  exact clear.outside tracked.region (tracked.2.trans (valid.tracked c.1))

theorem write_frame (fits : A.Fits L ρ s) (valid : L.Valid ρ) (clear : L.Clear ρ p) {dst : Operand}
    (h : A.write L a dst = some B) : (s.write v dst).mem p = s.mem p := by
  cases dst with
  | reg r => rfl
  | imm w => rfl
  | mem r d => exact store_frame valid clear (fits.at_ r d) h

theorem push_frame (fits : A.Fits L ρ s) (valid : L.Valid ρ) (clear : L.Clear ρ p)
    (h : A.push L a = some B) : (s.push v).mem p = s.mem p := by
  obtain ⟨C, stored, -⟩ := Option.map_eq_some_iff.mp h
  have esp := fits.at_ .esp (-4)
  rw [← BitVec.sub_eq_add_neg] at esp
  exact store_frame (v := v) valid clear esp stored

theorem pushAll_frame (valid : L.Valid ρ) (clear : L.Clear ρ p) {vs : List Value} {ws : List Word}
    (denote : List.Forall₂ (fun a v => a.Denotes L ρ v) vs ws) {A : View} {s : State ξ}
    (fits : A.Fits L ρ s) (h : A.pushAll L vs = some B) : (s.pushAll ws).mem p = s.mem p := by
  induction denote generalizing A s with
  | nil => rfl
  | cons hv _ ih =>
      obtain ⟨C, pushed, rest⟩ := Option.bind_eq_some_iff.mp h
      exact (ih (fits.push valid hv pushed) rest).trans (fits.push_frame valid clear pushed)

theorem copyWords_frame (valid : L.Valid ρ) (clear : L.Clear ρ p) {n : Nat} {A : View} {s : State ξ}
    (fits : A.Fits L ρ s) (up : A.up = true) (h : A.copyWords L n = some B) :
    (s.copyWords n).mem p = s.mem p := by
  induction n generalizing A s with
  | zero => rfl
  | succ n ih =>
      obtain ⟨C, stored, rest⟩ := Option.bind_eq_some_iff.mp h
      have same : C.up = A.up := by
        obtain ⟨c, -, rfl⟩ := Option.map_eq_some_iff.mp stored
        rfl
      have load := fits.load valid (fits.reg .esi)
      have copied := fits.store valid (fits.reg .edi) load stored
      have moved := (copied.setReg (r := .esi) (fits.at_ .esi 4)).setReg (r := .edi) (fits.at_ .edi 4)
      simp only [State.copyWords, fits.up up, Bool.false_eq_true, if_false]
      exact (ih moved (same.trans up) rest).trans (store_frame valid clear (fits.reg .edi) stored)

theorem blit_frame (valid : L.Valid ρ) (clear : L.Clear ρ p) {n m : Nat}
    {bytes : Nat → BitVec 8} (ha : a.Denotes L ρ v) (h : A.blit L a m = some B) (hn : n ≤ m) :
    s.mem.blit v n bytes p = s.mem p := by
  unfold View.blit at h
  split at h
  · split at h
    · rename_i x k hr
      split at h
      · rename_i inside
        obtain rfl := Layout.resolve_sound valid hr ha
        apply if_neg
        by_cases region : x < L.regions.length
        · have far := clear.outside region inside.2.1
          omega
        · have none : L.regions[x]? = none := List.getElem?_eq_none (by omega)
          have empty : L.extent x = 0 := by simp [Layout.extent, none]
          omega
      · cases h
    · cases h
  · cases h

end View.Fits

/-! ## Instructions -/

/-- An instruction that symbolic execution follows leaves the rest of the memory alone. -/
theorem exec_frame [ExtUnit ξ] (valid : L.Valid ρ) (ext : ExtUnit.size ξ ≤ L.ext) (clear : L.Clear ρ p)
    (fits : A.Fits L ρ s) {i : Instr} {next : Word} {Bs : List View} (h : A.exec L next i = some Bs)
    {base next' : Word} (executed : exec base next' s i = some s') : s'.mem p = s.mem p := by
  cases i with
  | mov dst src =>
      obtain ⟨C, written, -⟩ := Option.map_eq_some_iff.mp h
      cases executed
      exact fits.write_frame valid clear written
  | alu o dst src =>
      obtain ⟨C, written, -⟩ := Option.map_eq_some_iff.mp h
      cases executed
      exact fits.write_frame valid clear written
  | dec dst =>
      obtain ⟨C, written, -⟩ := Option.map_eq_some_iff.mp h
      cases executed
      exact fits.write_frame valid clear written
  | push src =>
      obtain ⟨C, pushed, -⟩ := Option.map_eq_some_iff.mp h
      cases executed
      exact fits.push_frame valid clear pushed
  | pushfd =>
      obtain ⟨C, pushed, -⟩ := Option.map_eq_some_iff.mp h
      cases executed
      exact fits.push_frame valid clear pushed
  | call target =>
      obtain ⟨C, pushed, -⟩ := Option.map_eq_some_iff.mp h
      cases executed
      exact fits.push_frame valid clear pushed
  | pushad =>
      obtain ⟨C, pushed, -⟩ := Option.map_eq_some_iff.mp h
      cases executed
      have denote (rs : List Reg) :
          List.Forall₂ (fun a v => Value.Denotes L ρ a v) (rs.map A.reg) (rs.map s.reg) := by
        simp only [List.forall₂_map_left_iff, List.forall₂_map_right_iff, List.forall₂_same]
        exact fun r _ => fits.reg r
      exact View.Fits.pushAll_frame valid clear (denote _) fits pushed
  | repMovsd =>
      simp only [View.exec] at h
      split at h
      · rename_i n up count
        obtain ⟨C, copied, -⟩ := Option.map_eq_some_iff.mp h
        cases executed
        have ecx := fits.reg_eq count
        obtain rfl : n = s.reg .ecx := Option.some.inj ecx
        exact View.Fits.copyWords_frame valid clear fits up copied
      · cases h
  | fxsave b =>
      obtain ⟨C, stored, -⟩ := Option.map_eq_some_iff.mp h
      cases executed
      exact View.Fits.blit_frame valid clear (fits.reg b) stored (Nat.le_refl _)
  | xsave b =>
      obtain ⟨C, stored, -⟩ := Option.map_eq_some_iff.mp h
      cases executed
      exact View.Fits.blit_frame valid clear (fits.reg b) stored ext
  | int3 => cases h
  | iret =>
      simp only [exec] at executed
      split at executed
      · cases executed
        unfold State.iret
        dsimp only
        split
        · rfl
        · rfl
      · cases executed
  | cli =>
      simp only [exec] at executed
      split at executed
      · cases executed
        rfl
      · cases executed
  | movCr3 src =>
      simp only [exec] at executed
      split at executed
      · cases executed
        rfl
      · cases executed
  | _ =>
      cases executed
      rfl

theorem verify_step_frame [ExtUnit ξ] {code : Listing} {ok : View → Instr → Bool} {post : View → Bool}
    {n : Nat} (valid : L.Valid ρ) (ext : ExtUnit.size ξ ≤ L.ext) (clear : L.Clear ρ p) (fits : A.Fits L ρ s)
    (h : verify L code ok post (n + 1) A = true) {k next : Word} {i : Instr} (at_k : A.offset = some k)
    (fetched : fetch code k = some (i, next)) (plain : i ≠ .int3)
    (stepped : step (ρ.var 0) code s = some s') :
    s'.mem p = s.mem p := by
  have offset : s.eip - ρ.var 0 = k := by rw [fits.eip_eq at_k]; simp
  obtain ⟨Bs, hexec, -⟩ := verify_exec h at_k fetched plain
  simp only [step, offset, fetched] at stepped
  exact exec_frame valid ext clear fits hexec stepped

/-! ## Runs inside of the code -/

/-- Run while the state is inside, with fuel. -/
def runInside [ExtUnit ξ] (base : Word) (code : Listing) (inside : State ξ → Bool) :
    Nat → State ξ → Option (State ξ)
  | 0, _ => none
  | n + 1, s =>
      if inside s then (step base code s).bind (runInside base code inside n) else some s

/-- The state after the run does not depend on the fuel. -/
theorem runInside_unique [ExtUnit ξ] {base : Word} {code : Listing} {inside : State ξ → Bool} {n k : Nat}
    {t u : State ξ} (h : runInside base code inside n s = some t)
    (h' : runInside base code inside k s = some u) :
    t = u := by
  induction n generalizing s k with
  | zero => cases h
  | succ n ih =>
      cases k with
      | zero => cases h'
      | succ k =>
          simp only [runInside] at h h'
          split at h
          · rename_i within
            rw [if_pos within] at h'
            obtain ⟨v, stepped, rest⟩ := Option.bind_eq_some_iff.mp h
            obtain ⟨v', stepped', rest'⟩ := Option.bind_eq_some_iff.mp h'
            cases stepped.symm.trans stepped'
            exact ih rest rest'
          · rename_i out
            rw [if_neg out] at h'
            exact (Option.some.inj h).symm.trans (Option.some.inj h')

/-- All states of the view are on one side. -/
def View.Inside (A : View) (L : Layout) (ρ : Env) (inside : State ξ → Bool) (side : Bool) : Prop :=
  ∀ seen (s : State ξ), A.Fits L { ρ with seen := seen } s → inside s = side

/-- What `verify` accepts runs to its end through states that are inside, and leaves alone
what is in none of the regions. -/
theorem verify_runInside [ExtUnit ξ] {code : Listing} {ok : View → Instr → Bool}
    {post : View → Bool} {n : Nat}
    {inside : State ξ → Bool} (ext : ExtUnit.size ξ ≤ L.ext)
    (enters : ∀ A i k next, ok A i = true → A.offset = some k → fetch code k = some (i, next) →
      i ≠ .int3 ∧ A.Inside L ρ inside true)
    (leaves : ∀ A, post A = true → A.Inside L ρ inside false)
    (valid : ∀ seen, (∀ c ∈ seen, c = s.cpuid) → L.Valid { ρ with seen := seen })
    (seen : ∀ c ∈ ρ.seen, c = s.cpuid) (fits : A.Fits L ρ s) (h : verify L code ok post n A = true) :
    ∃ m s', runInside (ρ.var 0) code inside m s = some s' ∧ s'.cpuid = s.cpuid ∧
      (∀ p, L.Clear ρ p → s'.mem p = s.mem p) ∧
      ∃ B seen', post B = true ∧ (∀ c ∈ seen', c = s.cpuid) ∧ B.Fits L { ρ with seen := seen' } s' := by
  induction n generalizing A s ρ with
  | zero => cases h
  | succ n ih =>
      obtain ⟨-, hpost⟩ | ⟨k, i, next, at_k, fetched, accepted⟩ := verify_at h
      · have left := leaves A hpost ρ.seen s fits
        refine ⟨1, s, ?_, rfl, fun _ _ => rfl, A, ρ.seen, hpost, seen, fits⟩
        simp [runInside, left]
      · obtain ⟨ne, within⟩ := enters A i k next accepted at_k fetched
        obtain ⟨s₁, stepped, B, hB, fits₁⟩ := verify_step (valid _ seen) ext fits h at_k fetched ne
        have same := step_cpuid stepped
        obtain ⟨seen₁, hseen₁, after⟩ := ρ.after_seen s i seen
        rw [after] at fits₁
        rw [← same] at hseen₁
        obtain ⟨m, s', ran, cpu, frame, C, seen', hC, hseen', fits'⟩ :=
          ih (ρ := { ρ with seen := seen₁ }) enters leaves (same ▸ valid) hseen₁ fits₁ hB
        refine ⟨m + 1, s', ?_, cpu.trans same, fun p clear => ?_, C, seen', hC, ?_, fits'⟩
        · simp only [runInside, within ρ.seen s fits, if_true, stepped, Option.bind_some]
          exact ran
        · have first := verify_step_frame (valid _ seen) ext clear fits h at_k fetched ne stepped
          exact (frame p clear).trans first
        · rwa [same] at hseen'

end X86
