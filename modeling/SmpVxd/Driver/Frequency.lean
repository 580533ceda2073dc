import SmpVxd.Driver.Clock
import SmpVxd.X86.Block
import Mathlib.Data.Rat.Cast.Order
import Mathlib.Tactic.Ring
import Mathlib.Tactic.Linarith
import Mathlib.Tactic.FieldSimp
import Mathlib.Tactic.Positivity

/-!
# Two times cpuid_tsc_freq

The driver has the frequency computed by assembly inside of a C function, the library by
an assembly function of its own. Both read leaf 15h, or leaf 16h when the crystal clock is
not given, and divide by 1000 before they multiply.
-/

namespace SmpVxd.Frequency

open X86 X86.Block

variable {ξ : Type} [ExtUnit ξ]

inductive Var where
  | freq
  deriving DecidableEq

inductive Label where
  | tscDone | tscFail | read16h
  deriving DecidableEq

abbrev Code := List (Item Var Empty Label)

/-- `cpuid_tsc_freq` of cpuid.c. -/
def cpuidTscFreqC : Code :=
  [.push .ebx, .push .edi, .push .esi,
    .movImm .eax 0x15, .cpuid,
    .test .eax, .jump .jz .tscDone,
    .test .ecx, .jump .jz .read16h,
      .mov .esi .eax, .mov .edi .ebx,
      .mov .eax .ecx, .xor .edx, .movImm .ebx 1000, .op (.div .ebx),
      .xor .edx, .op (.mul .edi), .jump .jo .tscDone,
      .op (.div .esi), .op (.store .freq (.reg .eax)), .jump .jmp .tscDone,
    .label .read16h,
      .movImm .eax 0x16, .cpuid,
      .test .eax, .jump .jz .tscDone,
      .movImm .ecx 1000, .op (.mul .ecx), .jump .jo .tscDone,
      .op (.store .freq (.reg .eax)),
    .label .tscDone,
    .pop .esi, .pop .edi, .pop .ebx]

/-- `_cpuid_tsc_freq` of cpuinfo.asm, up to `retn`. -/
def cpuidTscFreqAsm : Code :=
  [.push .ebx, .push .edi, .push .esi,
    .movImm .eax 0x15, .cpuid,
    .test .eax, .jump .jz .tscFail,
    .test .ecx, .jump .jz .read16h,
      .mov .esi .eax, .mov .edi .ebx,
      .mov .eax .ecx, .xor .edx, .movImm .ebx 1000, .op (.div .ebx),
      .xor .edx, .op (.mul .edi), .jump .jo .tscFail,
      .op (.div .esi), .jump .jmp .tscDone,
    .label .read16h,
      .movImm .eax 0x16, .cpuid,
      .test .eax, .jump .jz .tscFail,
      .movImm .ecx 1000, .op (.mul .ecx), .jump .jo .tscFail, .jump .jmp .tscDone,
    .label .tscFail,
      .xor .eax,
    .label .tscDone,
    .pop .esi, .pop .edi, .pop .ebx, .ret]

/-- The blocks call no services. -/
def services (f : Empty) (_ : X86.State ξ) : X86.State ξ := f.elim

/-- The C function: `freq` is a variable that is returned at the end. -/
def runC (b : Block.State ξ Var) : Option Dword :=
  (runItems services cpuidTscFreqC none (b.setVar .freq 0)).map fun t => t.var .freq

/-- The assembly function returns its result in EAX. -/
def runAsm (b : Block.State ξ Var) : Option Dword :=
  (runItems services cpuidTscFreqAsm none b).map fun t => t.cpu.reg .eax

/-- What the processor says of its frequency. -/
def tscOf (f : Word → CpuidRegs) : CpuidTsc where
  supported := true
  maxLeaf := (f 0).eax
  edx1 := (f 1).edx
  eax15 := (f 0x15).eax
  ebx15 := (f 0x15).ebx
  ecx15 := (f 0x15).ecx
  eax16 := (f 0x16).eax

variable {b : Block.State ξ Var} {f : Word → CpuidRegs} {k : Code} {l : Label}

/-! ## The parts of the blocks -/

/-- The processor has answered this leaf. -/
structure Answered (f : Word → CpuidRegs) (leaf : Word) (b : Block.State ξ Var) : Prop where
  eax : b.cpu.reg .eax = (f leaf).eax
  ebx : b.cpu.reg .ebx = (f leaf).ebx
  ecx : b.cpu.reg .ecx = (f leaf).ecx
  cpuid : b.cpu.cpuid = f

theorem run_cpuid (leaf : Word) : ∃ b',
    runItems services (.movImm .eax leaf :: .cpuid :: k) none b = runItems services k none b' ∧
      Answered b.cpu.cpuid leaf b' ∧ b'.var = b.var :=
  ⟨_, rfl, ⟨rfl, rfl, rfl, rfl⟩, rfl⟩

/-- `test r, r` and `jz l` -/
theorem run_test {leaf : Word} (r : Reg) (answered : Answered f leaf b) : ∃ b',
    runItems services (.test r :: .jump .jz l :: k) none b =
        runItems services k (if b.cpu.reg r = 0 then some l else none) b' ∧
      Answered f leaf b' ∧ b'.var = b.var := by
  let flags := Alu.and.flags b.cpu.eflags (b.cpu.reg r) (b.cpu.reg r)
  refine ⟨b.setCpu ((b.cpu.setFlags flags).goto 0), ?_, ?_, rfl⟩
  · rw [Item.test, run_op rfl, runItems]
    congr 1
    change (if zeroFlag flags = true then some l else none) = _
    rw [zeroFlag_test]
    simp only [decide_eq_true_eq]
  · exact ⟨answered.eax, answered.ebx, answered.ecx, answered.cpuid⟩

/-- The registers before the division by 1000. -/
theorem run_moves (b : Block.State ξ Var) : ∃ b',
    runItems services (.mov .esi .eax :: .mov .edi .ebx :: .mov .eax .ecx :: .xor .edx ::
        .movImm .ebx 1000 :: k) none b = runItems services k none b' ∧
      b'.cpu.reg .eax = b.cpu.reg .ecx ∧ b'.cpu.reg .edx = 0 ∧ b'.cpu.reg .ebx = 1000 ∧
      b'.cpu.reg .esi = b.cpu.reg .eax ∧ b'.cpu.reg .edi = b.cpu.reg .ebx ∧ b'.var = b.var :=
  ⟨_, rfl, rfl, BitVec.xor_self, rfl, rfl, rfl, rfl⟩

theorem run_xor (b : Block.State ξ Var) (r : Reg) : ∃ b',
    runItems services (.xor r :: k) none b = runItems services k none b' ∧
      b'.cpu.reg r = 0 ∧ (∀ r', r' ≠ r → b'.cpu.reg r' = b.cpu.reg r') ∧ b'.var = b.var := by
  refine ⟨_, rfl, ?_, fun r' other => setReg_other other, rfl⟩
  exact setReg_self.trans BitVec.xor_self

theorem run_div (b : Block.State ξ Var) {r : Reg} (high : b.cpu.reg .edx = 0)
    (nonzero : b.cpu.reg r ≠ 0) : ∃ b',
    runItems services (.op (.div r) :: k) none b = runItems services k none b' ∧
      b'.cpu.reg .eax = b.cpu.reg .eax / b.cpu.reg r ∧
      (∀ r, r ≠ .eax → r ≠ .edx → b'.cpu.reg r = b.cpu.reg r) ∧ b'.var = b.var := by
  obtain ⟨s, divided, eax, -, other⟩ := divide_small high nonzero
  refine ⟨b.setCpu s, run_op ?_, eax, other, rfl⟩
  rw [Op.exec, divided]
  rfl

/-- `mul r` and `jo l` -/
theorem run_mul (b : Block.State ξ Var) (r : Reg) (l : Label) : ∃ b',
    runItems services (.op (.mul r) :: .jump .jo l :: k) none b =
        runItems services k
          (if 2 ^ 32 ≤ (b.cpu.reg .eax).toNat * (b.cpu.reg r).toNat then some l else none) b' ∧
      b'.cpu.reg .eax = b.cpu.reg .eax * b.cpu.reg r ∧
      ((b.cpu.reg .eax).toNat * (b.cpu.reg r).toNat < 2 ^ 32 → b'.cpu.reg .edx = 0) ∧
      (∀ r, r ≠ .eax → r ≠ .edx → b'.cpu.reg r = b.cpu.reg r) ∧ b'.var = b.var := by
  obtain ⟨eax, edx, carry, -, other⟩ := multiply_spec (s := b.cpu) (v := b.cpu.reg r)
  refine ⟨b.setCpu (multiply b.cpu (b.cpu.reg r)), ?_, eax, edx, other, rfl⟩
  rw [run_op rfl, runItems]
  congr 1
  change (if overflowFlag (multiply b.cpu (b.cpu.reg r)).eflags = true then some l else none) = _
  rw [carry]
  simp only [decide_eq_true_eq]

/-- The division by 1000, the product, and the last division, with the exit between them. -/
theorem run_leaf15 (answered : Answered f 0x15 b) (nonzero : (f 0x15).eax ≠ 0) (l : Label) :
    ∃ b', runItems services (.mov .esi .eax :: .mov .edi .ebx :: .mov .eax .ecx :: .xor .edx ::
        .movImm .ebx 1000 :: .op (.div .ebx) :: .xor .edx :: .op (.mul .edi) :: .jump .jo l ::
        .op (.div .esi) :: k) none b =
      runItems services k
        (if 2 ^ 32 ≤ ((f 0x15).ecx / 1000).toNat * (f 0x15).ebx.toNat then some l else none) b' ∧
      b'.var = b.var ∧
      (((f 0x15).ecx / 1000).toNat * (f 0x15).ebx.toNat < 2 ^ 32 →
        b'.cpu.reg .eax = (f 0x15).ecx / 1000 * (f 0x15).ebx / (f 0x15).eax) := by
  obtain ⟨b₁, moved, eax₁, edx₁, ebx₁, esi₁, edi₁, var₁⟩ := run_moves (k := .op (.div .ebx) ::
    .xor .edx :: .op (.mul .edi) :: .jump .jo l :: .op (.div .esi) :: k) b
  rw [answered.ecx] at eax₁
  rw [answered.eax] at esi₁
  rw [answered.ebx] at edi₁
  obtain ⟨b₂, divided, eax₂, other₂, var₂⟩ := run_div (k := .xor .edx :: .op (.mul .edi) ::
    .jump .jo l :: .op (.div .esi) :: k) b₁ edx₁ (ebx₁.trans_ne (by decide))
  obtain ⟨b₃, cleared, edx₃, other₃, var₃⟩ := run_xor (k := .op (.mul .edi) ::
    .jump .jo l :: .op (.div .esi) :: k) b₂ .edx
  obtain ⟨b₄, multiplied, eax₄, edx₄, other₄, var₄⟩ :=
    run_mul (k := .op (.div .esi) :: k) b₃ .edi l
  have factor : b₃.cpu.reg .eax = (f 0x15).ecx / 1000 := by
    rw [other₃ .eax (by decide), eax₂, eax₁, ebx₁]
  have factor' : b₃.cpu.reg .edi = (f 0x15).ebx := by
    rw [other₃ .edi (by decide), other₂ .edi (by decide) (by decide), edi₁]
  have divisor : b₄.cpu.reg .esi = (f 0x15).eax := by
    rw [other₄ .esi (by decide) (by decide), other₃ .esi (by decide),
      other₂ .esi (by decide) (by decide), esi₁]
  have var : b₄.var = b.var := var₄.trans (var₃.trans (var₂.trans var₁))
  rw [factor, factor'] at multiplied edx₄ eax₄
  rw [moved, divided, cleared, multiplied]
  by_cases carry : 2 ^ 32 ≤ ((f 0x15).ecx / 1000).toNat * (f 0x15).ebx.toNat
  · rw [if_pos carry]
    exact ⟨b₄, rfl, var, fun small => absurd small (Nat.not_lt.2 carry)⟩
  · obtain ⟨b₅, quotient, eax₅, -, var₅⟩ :=
      run_div (k := k) b₄ (edx₄ (by omega)) (divisor.trans_ne nonzero)
    rw [if_neg carry]
    refine ⟨b₅, quotient, var₅.trans var, fun _ => ?_⟩
    rw [eax₅, eax₄, divisor]

/-- The product with 1000. -/
theorem run_leaf16 (answered : Answered f 0x16 b) (l : Label) :
    ∃ b', runItems services (.movImm .ecx 1000 :: .op (.mul .ecx) :: .jump .jo l :: k) none b =
      runItems services k
        (if 2 ^ 32 ≤ (f 0x16).eax.toNat * (1000 : Dword).toNat then some l else none) b' ∧
      b'.var = b.var ∧ b'.cpu.reg .eax = (f 0x16).eax * 1000 := by
  let b₁ := b.setCpu ((b.cpu.setReg .ecx 1000).goto 0)
  have eax₁ : b₁.cpu.reg .eax = (f 0x16).eax := answered.eax
  have ecx₁ : b₁.cpu.reg .ecx = 1000 := rfl
  obtain ⟨b₂, multiplied, eax₂, -, -, var₂⟩ := run_mul (k := k) b₁ .ecx l
  rw [eax₁, ecx₁] at multiplied eax₂
  exact ⟨b₂, multiplied, var₂, eax₂⟩

/-! ## The two functions -/

/-- What the two have in common: the exit label, and the code after each of the results. -/
def frequencyCode (fail : Label) (k₁ k₂ : Code) : Code :=
  [.push .ebx, .push .edi, .push .esi, .movImm .eax 0x15, .cpuid,
    .test .eax, .jump .jz fail, .test .ecx, .jump .jz .read16h,
    .mov .esi .eax, .mov .edi .ebx, .mov .eax .ecx, .xor .edx, .movImm .ebx 1000, .op (.div .ebx),
    .xor .edx, .op (.mul .edi), .jump .jo fail, .op (.div .esi)] ++ k₁ ++
  [.label .read16h, .movImm .eax 0x16, .cpuid, .test .eax, .jump .jz fail,
    .movImm .ecx 1000, .op (.mul .ecx), .jump .jo fail] ++ k₂

theorem run_start (b : Block.State ξ Var) : ∃ b',
    runItems services (.push .ebx :: .push .edi :: .push .esi :: k) none b = runItems services k none b' ∧
      b'.cpu.cpuid = b.cpu.cpuid ∧ b'.var = b.var :=
  ⟨_, rfl, rfl, rfl⟩

/-- Where the code arrives with the result `v`. -/
inductive Arrives (fail : Label) (k₁ k₂ : Code) (b : Block.State ξ Var) (v : Dword)
    (r : Option (Block.State ξ Var)) : Prop where
  | fails (b' : Block.State ξ Var) (var : b'.var = b.var) (zero : v = 0)
      (here : r = runItems services k₂ (some fail) b')
  | leaf15 (b' : Block.State ξ Var) (var : b'.var = b.var) (eax : b'.cpu.reg .eax = v) (k : Code)
      (plain : ∀ l, .label l ∉ k)
      (here : r = runItems services (k₁ ++ .label .read16h :: (k ++ k₂)) none b')
  | leaf16 (b' : Block.State ξ Var) (var : b'.var = b.var) (eax : b'.cpu.reg .eax = v)
      (here : r = runItems services k₂ none b')

section

variable {fail : Label} {k₁ k₂ : Code}

/-- The code after the branch of leaf 15h, up to the end of the product. -/
def leaf16Code (fail : Label) : Code :=
  [.movImm .eax 0x16, .cpuid, .test .eax, .jump .jz fail,
    .movImm .ecx 1000, .op (.mul .ecx), .jump .jo fail]

theorem leaf16Code_plain (fail l : Label) : .label l ∉ leaf16Code fail := by
  simp [leaf16Code, Item.movImm, Item.cpuid, Item.test]

/-- The product of leaf 16h, or the exit when there is none. -/
theorem run_leaf16Code (same : b.cpu.cpuid = f) : ∃ b', b'.var = b.var ∧
    if (f 0x16).eax = 0 ∨ 2 ^ 32 ≤ (f 0x16).eax.toNat * (1000 : Dword).toNat then
      runItems services (leaf16Code fail ++ k) none b = runItems services k (some fail) b'
    else b'.cpu.reg .eax = (f 0x16).eax * 1000 ∧
      runItems services (leaf16Code fail ++ k) none b = runItems services k none b' := by
  let product : Code := .movImm .ecx 1000 :: .op (.mul .ecx) :: .jump .jo fail :: k
  obtain ⟨b₁, asked, answered₁, var₁⟩ :=
    run_cpuid (b := b) (k := .test .eax :: .jump .jz fail :: product) 0x16
  rw [same] at answered₁
  obtain ⟨b₂, tested, answered₂, var₂⟩ := run_test (k := product) (l := fail) .eax answered₁
  obtain ⟨b₃, multiplied, var₃, eax₃⟩ := run_leaf16 (k := k) answered₂ fail
  have code : runItems services (leaf16Code fail ++ k) none b = _ := asked.trans tested
  rw [code, answered₁.eax]
  by_cases absent : (f 0x16).eax = 0
  · refine ⟨b₂, var₂.trans var₁, ?_⟩
    rw [if_pos absent, if_pos (.inl absent)]
    rfl
  · refine ⟨b₃, var₃.trans (var₂.trans var₁), ?_⟩
    rw [if_neg absent, multiplied]
    by_cases carry : 2 ^ 32 ≤ (f 0x16).eax.toNat * (1000 : Dword).toNat
    · rw [if_pos carry, if_pos (.inr carry)]
    · rw [if_neg carry, if_neg (not_or.2 ⟨absent, carry⟩)]
      exact ⟨eax₃, rfl⟩

theorem freq_leaf15 {c : CpuidTsc} (there : c.eax15 ≠ 0) (crystal : c.ecx15 ≠ 0) :
    cpuidTscFreq c = if 2 ^ 32 ≤ (c.ecx15 / 1000).toNat * c.ebx15.toNat then 0
      else c.ecx15 / 1000 * c.ebx15 / c.eax15 := by
  rw [cpuidTscFreq, if_neg there, if_pos crystal]

theorem freq_leaf16 {c : CpuidTsc} (there : c.eax15 ≠ 0) (crystal : c.ecx15 = 0) :
    cpuidTscFreq c = if c.eax16 = 0 ∨ 2 ^ 32 ≤ c.eax16.toNat * (1000 : Dword).toNat then 0
      else c.eax16 * 1000 := by
  rw [cpuidTscFreq, if_neg there, if_neg (not_not.2 crystal)]
  by_cases absent : c.eax16 = 0
  · rw [if_pos absent, if_pos (.inl absent)]
  · rw [if_neg absent]
    simp only [absent, false_or]

theorem frequencyCode_arrives (other : fail ≠ .read16h) (plain : ∀ l, .label l ∉ k₁)
    (b : Block.State ξ Var) :
    Arrives fail k₁ k₂ b (cpuidTscFreq (tscOf b.cpu.cpuid))
      (runItems services (frequencyCode fail k₁ k₂) none b) := by
  obtain ⟨f, same⟩ : ∃ f, b.cpu.cpuid = f := ⟨_, rfl⟩
  let tail := k₁ ++ .label .read16h :: (leaf16Code fail ++ k₂)
  let leaf15 : Code := .mov .esi .eax :: .mov .edi .ebx :: .mov .eax .ecx :: .xor .edx ::
    .movImm .ebx 1000 :: .op (.div .ebx) :: .xor .edx :: .op (.mul .edi) :: .jump .jo fail ::
    .op (.div .esi) :: tail
  have failing (b : Block.State ξ Var) : runItems services tail (some fail) b =
      runItems services k₂ (some fail) b := by
    refine (runItems_pass plain).trans ?_
    rw [runItems, if_neg (by simpa using other)]
    exact runItems_pass (leaf16Code_plain fail)
  obtain ⟨b₀, start, same₀, var₀⟩ := run_start (k := .movImm .eax 0x15 :: .cpuid :: .test .eax ::
    .jump .jz fail :: .test .ecx :: .jump .jz .read16h :: leaf15) b
  obtain ⟨b₁, asked, answered₁, var₁⟩ := run_cpuid (b := b₀) (k := .test .eax ::
    .jump .jz fail :: .test .ecx :: .jump .jz .read16h :: leaf15) 0x15
  rw [same₀, same] at answered₁
  obtain ⟨b₂, tested₂, answered₂, var₂⟩ :=
    run_test (k := .test .ecx :: .jump .jz .read16h :: leaf15) (l := fail) .eax answered₁
  obtain ⟨b₃, tested₃, answered₃, var₃⟩ := run_test (k := leaf15) (l := .read16h) .ecx answered₂
  have code : runItems services (frequencyCode fail k₁ k₂) none b =
      runItems services (.movImm .eax 0x15 :: .cpuid :: .test .eax ::
    .jump .jz fail :: .test .ecx :: .jump .jz .read16h :: leaf15) none b₀ := by
    rw [← start, frequencyCode, List.append_assoc, List.append_assoc]
    rfl
  have before₂ : b₂.var = b.var := var₂.trans (var₁.trans var₀)
  rw [code, asked, tested₂, answered₁.eax, same]
  by_cases absent : (f 0x15).eax = 0
  · refine .fails b₂ before₂ (if_pos absent) ?_
    rw [if_pos absent]
    exact failing b₂
  rw [if_neg absent, tested₃, answered₂.ecx]
  have before₃ : b₃.var = b.var := var₃.trans before₂
  by_cases crystal : (f 0x15).ecx = 0
  · obtain ⟨b₄, var₄, outcome⟩ := @run_leaf16Code _ _ _ _ k₂ fail answered₃.cpuid
    have value := freq_leaf16 (c := tscOf f) absent crystal
    have skipped : runItems services leaf15 (some .read16h) b₃ =
        runItems services (leaf16Code fail ++ k₂) none b₃ := runItems_pass plain
    rw [if_pos crystal, skipped, value]
    change if _ then _ else _ at outcome
    split at outcome
    next none => exact .fails b₄ (var₄.trans before₃) (if_pos none) outcome
    next some =>
      refine .leaf16 b₄ (var₄.trans before₃) ?_ outcome.2
      exact outcome.1.trans (if_neg some).symm
  · obtain ⟨b₄, divided, var₄, eax₄⟩ := run_leaf15 (k := tail) answered₃ absent fail
    have value := freq_leaf15 (c := tscOf f) absent crystal
    rw [if_neg crystal, divided, value]
    by_cases carry : 2 ^ 32 ≤ ((f 0x15).ecx / 1000).toNat * (f 0x15).ebx.toNat
    · rw [if_pos carry]
      exact .fails b₄ (var₄.trans before₃) (if_pos carry) (failing b₄)
    · rw [if_neg carry]
      refine .leaf15 b₄ (var₄.trans before₃) ?_ (leaf16Code fail) (leaf16Code_plain fail) rfl
      exact (eax₄ (by omega)).trans (if_neg carry).symm

end

theorem runC_eq (b : Block.State ξ Var) : runC b = some (cpuidTscFreq (tscOf b.cpu.cpuid)) := by
  let k₁ : Code := [.op (.store .freq (.reg .eax)), .jump .jmp .tscDone]
  let done : Code := [.label .tscDone, .pop .esi, .pop .edi, .pop .ebx]
  have plain : ∀ l, .label l ∉ k₁ := by simp [k₁]
  have arrives : Arrives .tscDone k₁ (.op (.store .freq (.reg .eax)) :: done) (b.setVar .freq 0)
      (cpuidTscFreq (tscOf b.cpu.cpuid)) (runItems services cpuidTscFreqC none (b.setVar .freq 0)) :=
    frequencyCode_arrives (by decide) plain (b.setVar .freq 0)
  rw [runC]
  cases arrives with
  | fails b' var zero here =>
      have kept : b'.var .freq = 0 := congrFun var .freq
      rw [here, zero, ← kept]
      rfl
  | leaf15 b' var eax k plain' here =>
      let b₁ := b'.setVar .freq (b'.cpu.reg .eax)
      have jumped : runItems services (k₁ ++ .label .read16h ::
            (k ++ .op (.store .freq (.reg .eax)) :: done)) none b' =
          runItems services (k ++ .op (.store .freq (.reg .eax)) :: done) (some .tscDone) b₁ := rfl
      rw [here, jumped, runItems_pass plain', ← eax]
      rfl
  | leaf16 b' var eax here =>
      rw [here, ← eax]
      rfl

theorem runAsm_eq (b : Block.State ξ Var) : runAsm b = some (cpuidTscFreq (tscOf b.cpu.cpuid)) := by
  let k₁ : Code := [.jump .jmp .tscDone]
  let done : Code := [.label .tscFail, .xor .eax, .label .tscDone, .pop .esi, .pop .edi, .pop .ebx,
    .ret]
  have plain : ∀ l, .label l ∉ k₁ := by simp [k₁]
  have arrives : Arrives .tscFail k₁ (.jump .jmp .tscDone :: done) b
      (cpuidTscFreq (tscOf b.cpu.cpuid)) (runItems services cpuidTscFreqAsm none b) :=
    frequencyCode_arrives (by decide) plain b
  rw [runAsm]
  cases arrives with
  | fails b' var zero here =>
      have cleared : b'.cpu.reg .eax ^^^ b'.cpu.reg .eax = 0 := BitVec.xor_self
      rw [here, zero, ← cleared]
      rfl
  | leaf15 b' var eax k plain' here =>
      have jumped : runItems services (k₁ ++ .label .read16h ::
            (k ++ .jump .jmp .tscDone :: done)) none b' =
          runItems services (k ++ .jump .jmp .tscDone :: done) (some .tscDone) b' := rfl
      rw [here, jumped, runItems_pass plain', ← eax]
      rfl
  | leaf16 b' var eax here =>
      rw [here, ← eax]
      rfl

/-! ## The exact frequency -/

/-- Leaf 15h says everything. -/
def Complete (c : CpuidTsc) : Prop := c.eax15 ≠ 0 ∧ c.ebx15 ≠ 0 ∧ c.ecx15 ≠ 0

/-- kHz, without rounding. -/
def exactFreq (c : CpuidTsc) : ℚ := c.ecx15.toNat * c.ebx15.toNat / c.eax15.toNat / 1000

/-- The product before the last division. -/
def roundedProduct (c : CpuidTsc) : Nat := c.ecx15.toNat / 1000 * c.ebx15.toNat

/-- Two truncations cost less than `b / a + 1`. -/
theorem truncations {a b c q r : Nat} (pos : 0 < a) (low : 1000 * q ≤ c) (high : c < 1000 * q + 1000)
    (low' : r * a ≤ q * b) (high' : q * b < r * a + a) :
    |(c * b / a / 1000 : ℚ) - r| < b / a + 1 := by
  have pos : (0 : ℚ) < a := Nat.cast_pos.2 pos
  have below : r * a * 1000 ≤ c * b := by
    calc
      r * a * 1000 ≤ q * b * 1000 := Nat.mul_le_mul_right 1000 low'
      _ = 1000 * q * b := by ring
      _ ≤ c * b := Nat.mul_le_mul_right b low
  have above : c * b < r * a * 1000 + (b + a) * 1000 := by
    have most : c * b ≤ (1000 * q + 1000) * b := Nat.mul_le_mul_right b (Nat.le_of_lt high)
    nlinarith
  have difference : (c * b / a / 1000 : ℚ) - r = (c * b - r * a * 1000) / (a * 1000) := by
    field_simp
  have bound : (b / a + 1 : ℚ) = (b + a) * 1000 / (a * 1000) := by
    field_simp
  have below : (r * a * 1000 : ℚ) ≤ c * b := by exact_mod_cast below
  have above : (c * b : ℚ) < r * a * 1000 + (b + a) * 1000 := by exact_mod_cast above
  rw [difference, bound, abs_of_nonneg (div_nonneg (by linarith) (by positivity))]
  exact div_lt_div_of_pos_right (by linarith) (by positivity)

theorem freq_complete {c : CpuidTsc} (complete : Complete c) :
    (cpuidTscFreq c).toNat =
      if roundedProduct c < 2 ^ 32 then roundedProduct c / c.eax15.toNat else 0 := by
  obtain ⟨there, -, crystal⟩ := complete
  have value : (c.ecx15 / 1000).toNat * c.ebx15.toNat = roundedProduct c := by
    rw [BitVec.toNat_udiv]
    rfl
  rw [freq_leaf15 there crystal, value]
  by_cases fits : roundedProduct c < 2 ^ 32
  · rw [if_pos fits, if_neg (Nat.not_le.2 fits), BitVec.toNat_udiv, BitVec.toNat_mul, value,
      Nat.mod_eq_of_lt fits]
  · rw [if_neg fits, if_pos (Nat.not_lt.1 fits)]
    rfl

/-- Both functions return the same number. With a complete leaf 15h it is not zero exactly when
the product of the rounded clock fits and is not below the divisor, and is then close to
the exact frequency. -/
theorem tsc_freq_of_cpuid (b : Block.State ξ Var) : ∃ freq, runC b = some freq ∧
    runAsm b = some freq ∧ (Complete (tscOf b.cpu.cpuid) →
      (freq ≠ 0 ↔ (tscOf b.cpu.cpuid).eax15.toNat ≤ roundedProduct (tscOf b.cpu.cpuid) ∧
        roundedProduct (tscOf b.cpu.cpuid) < 2 ^ 32) ∧
      (freq ≠ 0 → |exactFreq (tscOf b.cpu.cpuid) - freq.toNat| <
        (tscOf b.cpu.cpuid).ebx15.toNat / (tscOf b.cpu.cpuid).eax15.toNat + 1)) := by
  refine ⟨_, runC_eq b, runAsm_eq b, fun complete => ?_⟩
  generalize tscOf b.cpu.cpuid = c at complete ⊢
  have value := freq_complete complete
  have pos : 0 < c.eax15.toNat := by
    have nonzero := complete.1
    bv_omega
  have nonzero : cpuidTscFreq c ≠ 0 ↔ (cpuidTscFreq c).toNat ≠ 0 := by
    rw [ne_eq, ← BitVec.toNat_inj]
    rfl
  by_cases fits : roundedProduct c < 2 ^ 32
  · rw [if_pos fits] at value
    constructor
    · rw [nonzero, value, Nat.div_ne_zero_iff]
      simp only [fits, and_true, pos.ne', ne_eq, not_false_eq_true, true_and]
    · intro _
      have rounded := Nat.div_add_mod c.ecx15.toNat 1000
      have divided := Nat.div_add_mod (roundedProduct c) c.eax15.toNat
      have rest := Nat.mod_lt (roundedProduct c) pos
      rw [value]
      refine truncations (q := c.ecx15.toNat / 1000) pos (by omega) (by omega) ?_ ?_
      · exact Nat.div_mul_le_self ..
      · change roundedProduct c < _
        rw [Nat.mul_comm] at divided
        omega
  · rw [if_neg fits] at value
    have zero : ¬cpuidTscFreq c ≠ 0 := by
      rw [nonzero, value]
      exact not_not.2 rfl
    exact ⟨iff_of_false zero fun there => fits there.2, fun there => absurd there zero⟩

/-- A crystal of 999 Hz and a ratio of 2000. -/
def slowCrystal (leaf : Word) : CpuidRegs := if leaf = 0x15 then ⟨1, 2000, 999, 0⟩ else ⟨0, 0, 0, 0⟩

def slowMachine : Block.State Unit Var where
  cpu := { blank with cpuid := slowCrystal }
  var := fun _ => 0
  msr := fun _ => 0

/-- The frequency is 1998 kHz, and both functions find none. -/
theorem tsc_freq_slow_crystal :
    Complete (tscOf slowMachine.cpu.cpuid) ∧ exactFreq (tscOf slowMachine.cpu.cpuid) = 1998 ∧
      runC slowMachine = some 0 ∧ runAsm slowMachine = some 0 := by
  have none : cpuidTscFreq (tscOf slowMachine.cpu.cpuid) = 0 := by decide
  refine ⟨⟨by decide, by decide, by decide⟩, ?_, ?_, ?_⟩
  · change (((999 : Nat) : ℚ) * (2000 : Nat) / (1 : Nat) / 1000) = 1998
    norm_num
  · rw [runC_eq, none]
  · rw [runAsm_eq, none]

end SmpVxd.Frequency
