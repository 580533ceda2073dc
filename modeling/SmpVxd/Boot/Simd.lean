import SmpVxd.Boot.Counting

/-!
# The control bits of SSE and AVX

`enable_simd` sets bits of CR4 and XCR0 on the boot processor, and `init_xsave` does so
on every AP, with the value that `smp_init` has stored for it. A processor accepts a
bit only with the feature that the bit belongs to.
-/

namespace SmpVxd.Boot

/-! ## The features -/

def cpuidEcxXsave : Dword := 1 <<< 26
def cpuidEcxOsxsave : Dword := 1 <<< 27
def cpuidEcxAvx : Dword := 1 <<< 28
def cpuidEdxTsc : Dword := 1 <<< 5
def cpuidEdxMsr : Dword := 1 <<< 6
def cpuidEdxMmx : Dword := 1 <<< 23
def cpuidEdxFxsr : Dword := 1 <<< 24
def cpuidEdxSse : Dword := 1 <<< 25
def cpuidEdxHtt : Dword := 1 <<< 28

/-- The feature words of CPUID leaf 1. -/
structure Leaf1 where
  ecx : Dword
  edx : Dword

namespace Leaf1

variable (leaf : Leaf1)

def fxsr : Bool := leaf.edx &&& cpuidEdxFxsr ≠ 0
def sse : Bool := leaf.edx &&& cpuidEdxSse ≠ 0
def xsave : Bool := leaf.ecx &&& cpuidEcxXsave ≠ 0
def avx : Bool := leaf.ecx &&& cpuidEcxAvx ≠ 0

end Leaf1

inductive ControlReg where
  | cr4
  | xcr0
  deriving DecidableEq

/-- A `mov` to CR4, or the low half of what `xsetbv` writes to XCR0. -/
structure RegWrite where
  reg : ControlReg
  value : Dword

/-- The control registers of a CPU, with the writes to them, newest first. -/
structure Cpu where
  cr4 : Dword
  xcr0 : Dword
  writes : List RegWrite

namespace Cpu

variable (c : Cpu)

def movCr4 (value : Dword) : Cpu := { c with cr4 := value, writes := ⟨.cr4, value⟩ :: c.writes }

def xsetbv (value : Dword) : Cpu := { c with xcr0 := value, writes := ⟨.xcr0, value⟩ :: c.writes }

end Cpu

def osfxsr : Nat := 9
def osxmmexcpt : Nat := 10
def osxsave : Nat := 18

/-- Leaf 1 as `cpuid` returns it; one bit of it shows CR4.OSXSAVE. -/
def cpuid (leaf : Leaf1) (c : Cpu) : Leaf1 :=
  { leaf with
    ecx :=
      if c.cr4.getLsbD osxsave then leaf.ecx ||| cpuidEcxOsxsave else leaf.ecx &&& ~~~cpuidEcxOsxsave }

/-- The boot processor and the variables that `enable_simd` sets. -/
structure Simd where
  cpu : Cpu
  cpuFlags : Leaf1
  xsaveFlags : Dword
  noSysFxsave : Bool

variable (leaf : Leaf1)

/-- `Device_Init_proc` calls `enable_simd`. -/
def Simd.initial (cr4 xcr0 : Dword) : Simd := ⟨⟨cr4, xcr0, []⟩, cpuid leaf ⟨cr4, xcr0, []⟩, 0, false⟩

def enableSimd (vmmVer : Dword) (noavx nosse : Bool) (s : Simd) : Simd :=
  if s.cpuFlags.edx &&& cpuidEdxFxsr ≠ 0 then
    let s := { s with noSysFxsave := if vmmVer < 0x40A then true else s.noSysFxsave }
    if s.cpuFlags.ecx &&& cpuidEcxXsave ≠ 0 ∧ noavx = false then
      let cpu := s.cpu.movCr4 (s.cpu.cr4 ||| 0x40600)
      let cpu := cpu.xsetbv (cpu.xcr0 ||| 0x7)
      -- reread CPUID
      let flags := cpuid leaf cpu
      { s with
        cpu := cpu
        cpuFlags := flags
        xsaveFlags := if flags.ecx &&& cpuidEcxAvx ≠ 0 then 0x7 else s.xsaveFlags }
    else if nosse = false then { s with cpu := s.cpu.movCr4 (s.cpu.cr4 ||| 0x600) }
    else s
  else s

/-- The tests of `Device_Init_proc` on the way to `smp_init`. -/
def Simd.callsSmpInit (s : Simd) (maxCpus : Int) : Bool :=
  s.cpuFlags.edx &&& (cpuidEdxFxsr ||| cpuidEdxMmx ||| cpuidEdxTsc ||| cpuidEdxMsr) =
      cpuidEdxFxsr ||| cpuidEdxMmx ||| cpuidEdxTsc ||| cpuidEdxMsr &&
    s.cpuFlags.edx &&& cpuidEdxHtt ≠ 0 && maxCpus > 1

/-- `init_xsave` on an AP, with the field `cpu_cr4` of its data block. -/
def initXsave (cpuCr4 : Dword) (c : Cpu) : Cpu :=
  let c := c.movCr4 (c.cr4 ||| cpuCr4)
  if c.cr4.getLsbD osxsave then c.xsetbv (c.xcr0 ||| 7) else c

/-- The processor accepts the write: it has the feature of every bit that is set. -/
def Leaf1.Accepts (w : RegWrite) : Prop :=
  match w.reg with
  | .cr4 => (w.value.getLsbD osfxsr = true → leaf.fxsr = true) ∧
      (w.value.getLsbD osxmmexcpt = true → leaf.sse = true) ∧
      (w.value.getLsbD osxsave = true → leaf.xsave = true)
  | .xcr0 => w.value.getLsbD 2 = true → leaf.avx = true

/-- What `enable_simd` needs of the processor. -/
def Leaf1.Suits (noavx nosse : Bool) (cr4 : Dword) : Prop :=
  leaf.fxsr = true →
    if leaf.xsave = true ∧ noavx = false then leaf.sse = true ∧ leaf.avx = true
    else nosse = false → leaf.sse = true ∧ (cr4.getLsbD osxsave = true → leaf.xsave = true)

/-- What `init_xsave` needs of a processor on which `smp_init` is called. -/
def Leaf1.SuitsAp (cr4 : Dword) : Prop :=
  leaf.sse = true ∧ (cr4.getLsbD osxsave = true → leaf.xsave = true ∧ leaf.avx = true)

variable {leaf : Leaf1} {c : Cpu} {vmmVer cr4 xcr0 v : Dword} {noavx nosse : Bool}
variable {env : Env} {ct : Dword} {t : State} {i : Nat}

/-! ## CPUID -/

theorem cpuid_ecx_and {mask : Dword} (apart : cpuidEcxOsxsave &&& mask = 0) :
    (cpuid leaf c).ecx &&& mask = leaf.ecx &&& mask := by
  have bit (i : Nat) (set : mask.getLsbD i = true) : cpuidEcxOsxsave.getLsbD i = false := by
    have zero := congrArg (BitVec.getLsbD · i) apart
    simpa [set] using zero
  apply BitVec.eq_of_getLsbD_eq
  intro i lt
  cases set : mask.getLsbD i with
  | false => simp [set]
  | true =>
      rw [cpuid]
      split
      · simp [bit i set]
      · simp only [BitVec.getLsbD_and, BitVec.getLsbD_not, bit i set, lt, decide_true, Bool.not_false,
          Bool.and_true]

theorem cpuid_xsave : (cpuid leaf c).ecx &&& cpuidEcxXsave ≠ 0 ↔ leaf.xsave = true := by
  rw [cpuid_ecx_and (by decide), Leaf1.xsave, decide_eq_true_iff]

theorem cpuid_avx : (cpuid leaf c).ecx &&& cpuidEcxAvx ≠ 0 ↔ leaf.avx = true := by
  rw [cpuid_ecx_and (by decide), Leaf1.avx, decide_eq_true_iff]

theorem cpuid_fxsr : (cpuid leaf c).edx &&& cpuidEdxFxsr ≠ 0 ↔ leaf.fxsr = true := by
  rw [Leaf1.fxsr, decide_eq_true_iff]
  rfl

/-! ## The boot processor -/

/-- The bits of `0x40600` are set in CR4, and those of `7` in XCR0. -/
theorem accepts_extended : (leaf.Accepts ⟨.cr4, v ||| 0x40600⟩ ↔
      leaf.fxsr = true ∧ leaf.sse = true ∧ leaf.xsave = true) ∧
    (leaf.Accepts ⟨.xcr0, v ||| 0x7⟩ ↔ leaf.avx = true) := by
  simp [Leaf1.Accepts, osfxsr, osxmmexcpt, osxsave]

theorem accepts_sse : leaf.Accepts ⟨.cr4, v ||| 0x600⟩ ↔
    leaf.fxsr = true ∧ leaf.sse = true ∧ (v.getLsbD osxsave = true → leaf.xsave = true) := by
  simp [Leaf1.Accepts, osfxsr, osxmmexcpt, osxsave]

/-- The boot processor after `enable_simd`. -/
def bootSimd (leaf : Leaf1) (vmmVer : Dword) (noavx nosse : Bool) (cr4 xcr0 : Dword) : Simd :=
  enableSimd leaf vmmVer noavx nosse (.initial leaf cr4 xcr0)

/-- What `enable_simd` does: two writes with XSAVE, one without, or none. -/
theorem bootSimd_cases (leaf : Leaf1) (vmmVer : Dword) (noavx nosse : Bool) (cr4 xcr0 : Dword) :
    (bootSimd leaf vmmVer noavx nosse cr4 xcr0).cpuFlags.edx = leaf.edx ∧
    (bootSimd leaf vmmVer noavx nosse cr4 xcr0).cpu.writes =
      (if leaf.fxsr = true then
        if leaf.xsave = true ∧ noavx = false then [⟨.xcr0, xcr0 ||| 0x7⟩, ⟨.cr4, cr4 ||| 0x40600⟩]
        else if nosse = false then [⟨.cr4, cr4 ||| 0x600⟩]
        else []
      else []) ∧
    ((bootSimd leaf vmmVer noavx nosse cr4 xcr0).xsaveFlags ≠ 0 →
      leaf.xsave = true ∧ leaf.avx = true) := by
  rw [bootSimd, enableSimd, Simd.initial]
  simp only [cpuid_fxsr, cpuid_xsave]
  split
  · split
    · rename_i extended
      refine ⟨rfl, rfl, fun used => ⟨extended.1, ?_⟩⟩
      by_contra avx
      simp only [cpuid_avx, if_neg avx] at used
      exact used rfl
    · split
      · exact ⟨rfl, rfl, fun used => absurd rfl used⟩
      · exact ⟨rfl, rfl, fun used => absurd rfl used⟩
  · exact ⟨rfl, rfl, fun used => absurd rfl used⟩

theorem bootSimd_accepts :
    (∀ w ∈ (bootSimd leaf vmmVer noavx nosse cr4 xcr0).cpu.writes, leaf.Accepts w) ↔
      leaf.Suits noavx nosse cr4 := by
  obtain ⟨-, writes, -⟩ := bootSimd_cases leaf vmmVer noavx nosse cr4 xcr0
  rw [writes, Leaf1.Suits]
  by_cases fxsr : leaf.fxsr = true
  · rw [if_pos fxsr]
    by_cases extended : leaf.xsave = true ∧ noavx = false
    · rw [if_pos extended, if_pos extended, List.forall_mem_cons, List.forall_mem_singleton,
        accepts_extended.1, accepts_extended.2]
      simp [fxsr, extended.1, and_comm]
    · rw [if_neg extended, if_neg extended]
      by_cases sse : nosse = false
      · rw [if_pos sse, List.forall_mem_singleton, accepts_sse]
        simp [fxsr, sse]
      · rw [if_neg sse]
        simp [sse]
  · rw [if_neg fxsr]
    simp [fxsr]

/-! ## The APs -/

/-- What `smp_init` stores in `cpu_cr4`. -/
def apCr4 (xsaveFlags : Dword) : Dword := if xsaveFlags ≠ 0 then 0x40600 else 0x600

theorem initXsave_accepts {xsaveFlags : Dword} (fxsr : leaf.fxsr = true)
    (extended : xsaveFlags ≠ 0 → leaf.xsave = true ∧ leaf.avx = true) :
    (∀ w ∈ (initXsave (apCr4 xsaveFlags) ⟨cr4, xcr0, []⟩).writes, leaf.Accepts w) ↔
      leaf.SuitsAp cr4 := by
  rw [initXsave, Leaf1.SuitsAp, apCr4]
  by_cases used : xsaveFlags ≠ 0
  · obtain ⟨xsave, avx⟩ := extended used
    have set : (cr4 ||| 0x40600 : Dword).getLsbD osxsave = true := by simp [osxsave]
    rw [if_pos used]
    simp only [Cpu.movCr4, set, if_true, Cpu.xsetbv]
    rw [List.forall_mem_cons, List.forall_mem_singleton, accepts_extended.1, accepts_extended.2]
    simp [fxsr, xsave, avx]
  · have same : (cr4 ||| 0x600 : Dword).getLsbD osxsave = cr4.getLsbD osxsave := by simp [osxsave]
    rw [if_neg used]
    simp only [Cpu.movCr4, same]
    cases set : cr4.getLsbD osxsave with
    | false =>
        rw [if_neg Bool.false_ne_true, List.forall_mem_singleton, accepts_sse]
        simp [fxsr, set]
    | true =>
        rw [if_pos rfl, Cpu.xsetbv, List.forall_mem_cons, List.forall_mem_singleton, accepts_sse,
          accepts_extended.2]
        simp [fxsr, set]
        tauto

theorem newItem_cpuCr4 {apCount allocs : Nat} {data : Tdata}
    (block : (newItem env apCount allocs).data = some data) :
    data.cpuCr4 = apCr4 env.xsaveFlags := by
  obtain ⟨data, -, rfl⟩ := Option.map_eq_some_iff.1 block
  rfl

/-- A slot with a data block after the walk. -/
theorem walked_newItem {as : List Dword} {data : Tdata}
    (block : (((State.initial.read as).walked env ct).items i).data = some data) :
    ∃ apCount allocs,
      ((State.initial.read as).walked env ct).items i = newItem env apCount allocs := by
  change ((((State.initial.read as).prepared env).registerAll env (registered env ct) 0).items i).data =
    some data at block
  by_cases mem : i ∈ registered env ct
  · obtain ⟨k, -, item⟩ := State.registerAll_items_of_mem env ((State.initial.read as).prepared env) 0 mem
    exact ⟨_, _, item⟩
  · rw [State.registerAll_items_of_notMem mem] at block
    cases block

/-- When `smp_init` comes to start the APs, it has walked the table to its end. -/
theorem smpInitTable_started {as : List Dword}
    (started : (last ((smpInitTable env ct).run (State.initial.read as))).started ≠ []) :
    (smpInitTable env ct).run (State.initial.read as) =
      (finish env (registered env ct).length).run ((State.initial.read as).walked env ct) := by
  by_cases kernel : env.page 1 = 0
  · rw [smpInitTable_kernel _ ct kernel] at started
    exact absurd rfl started
  by_cases bootPde : env.page 2 = 0
  · obtain ⟨t, ran, -, same⟩ := smpInitTable_bootPde (State.initial.read as) ct kernel bootPde
    rw [ran] at started
    exact absurd same started
  by_cases supplied : Supplied env ((State.initial.read as).prepared env) (registered env ct).length
  · exact smpInitTable_ok _ ct kernel bootPde supplied
  · obtain ⟨t, ran, same⟩ := smpInitTable_error (State.initial.read as) ct kernel bootPde supplied
    rw [ran] at started
    exact absurd same started

/-- When an AP has been started, `smp_init` has come through its table. -/
theorem smpInit_started {vars : ApbootVars}
    (started : (i, vars) ∈ (last ((smpInit env).run .initial)).started) :
    ∃ ct as, last ((smpInit env).run .initial) =
      last ((finish env (registered env ct).length).run ((State.initial.read as).walked env ct)) := by
  cases found : mpfpOf env.firstMb with
  | none =>
      obtain ⟨as, -, ran⟩ := smpInit_none env found
      rw [ran] at started
      cases started
  | some fp =>
      obtain ⟨as, -, ran⟩ := smpInit_some found
      rw [ran] at started ⊢
      split at started
      next magic =>
        rw [if_pos magic]
        exact ⟨_, _, congrArg last (smpInitTable_started (List.ne_nil_of_mem started))⟩
      next => cases started

/-- The slot of an AP that has been started. -/
theorem started_newItem {vars : ApbootVars} {data : Tdata}
    (started : (i, vars) ∈ (last ((smpInit env).run .initial)).started)
    (block : ((last ((smpInit env).run .initial)).items i).data = some data) :
    ∃ apCount allocs data', (newItem env apCount allocs).data = some data' ∧
      data.fixed = data'.fixed ∧
      ((last ((smpInit env).run .initial)).items i).stack = (newItem env apCount allocs).stack := by
  obtain ⟨ct, as, ran⟩ := smpInit_started started
  obtain ⟨bs, frame⟩ := finish_frame
    (show ((State.initial.read as).walked env ct).apFreeCnt = 0 from walked_apFreeCnt)
    (registered env ct).length
  rw [ran] at block ⊢
  have same := frame.data i
  rw [block] at same
  obtain ⟨data', block', fixed⟩ := Option.map_eq_some_iff.1 same.symm
  obtain ⟨apCount, allocs, item⟩ := walked_newItem block'
  refine ⟨apCount, allocs, data', ?_, fixed.symm, ?_⟩
  · rw [← item]
    exact block'
  · rw [← item]
    exact frame.stack i

/-- The data block of an AP that has been started. -/
theorem started_cpuCr4 {vars : ApbootVars} {data : Tdata}
    (started : (i, vars) ∈ (last ((smpInit env).run .initial)).started)
    (block : ((last ((smpInit env).run .initial)).items i).data = some data) :
    data.cpuCr4 = apCr4 env.xsaveFlags := by
  obtain ⟨apCount, allocs, data', block', fixed, -⟩ := started_newItem started block
  have same : data.fixed.cpuCr4 = data'.fixed.cpuCr4 := by rw [fixed]
  have stored : data'.cpuCr4 = apCr4 env.xsaveFlags := newItem_cpuCr4 block'
  exact same.trans stored

theorem fxsr_of_callsSmpInit {s : Simd} {maxCpus : Int} (same : s.cpuFlags.edx = leaf.edx)
    (called : s.callsSmpInit maxCpus = true) : leaf.fxsr = true := by
  simp only [Simd.callsSmpInit, Bool.and_eq_true, decide_eq_true_eq, same] at called
  obtain ⟨⟨needed, -⟩, -⟩ := called
  rw [Leaf1.fxsr, decide_eq_true_iff]
  intro zero
  have set := congrArg (BitVec.getLsbD · 24) needed
  have clear := congrArg (BitVec.getLsbD · 24) zero
  rw [BitVec.getLsbD_and] at set clear
  rw [show cpuidEdxFxsr.getLsbD 24 = true from rfl] at clear
  rw [show (cpuidEdxFxsr ||| cpuidEdxMmx ||| cpuidEdxTsc ||| cpuidEdxMsr).getLsbD 24 = true from rfl,
    clear] at set
  cases set

/-- The processor accepts the writes of `enable_simd`, and those of `init_xsave` on an AP
that is started, exactly when it suits them. -/
theorem simd_bits_supported (leaf : Leaf1) (vmmVer : Dword) (noavx nosse : Bool) (cr4 xcr0 : Dword) :
    ((∀ w ∈ (bootSimd leaf vmmVer noavx nosse cr4 xcr0).cpu.writes, leaf.Accepts w) ↔
      leaf.Suits noavx nosse cr4) ∧
    ∀ env : Env, env.xsaveFlags = (bootSimd leaf vmmVer noavx nosse cr4 xcr0).xsaveFlags →
      (bootSimd leaf vmmVer noavx nosse cr4 xcr0).callsSmpInit env.maxCpus = true →
      ∀ i vars data, (i, vars) ∈ (last ((smpInit env).run .initial)).started →
        ((last ((smpInit env).run .initial)).items i).data = some data → ∀ apCr4 apXcr0,
          (∀ w ∈ (initXsave data.cpuCr4 ⟨apCr4, apXcr0, []⟩).writes, leaf.Accepts w) ↔
            leaf.SuitsAp apCr4 := by
  refine ⟨bootSimd_accepts, fun env flags called i vars data started block apCr4 apXcr0 => ?_⟩
  obtain ⟨edx, -, extended⟩ := bootSimd_cases leaf vmmVer noavx nosse cr4 xcr0
  rw [started_cpuCr4 started block, flags]
  exact initXsave_accepts (fxsr_of_callsSmpInit edx called) extended

/-- A processor with SSE and AVX, and two APs like it. -/
def avxLeaf : Leaf1 := ⟨0x14000000, 0x13800060⟩

def avxMachine : Env := { twoAps with xsaveFlags := 0x7 }

/-- An AP that has been started, with the data it was started on. -/
theorem exists_started {s : State} {i : Nat} (started : i ∈ s.started.map Prod.fst)
    (isSome : (s.items i).data.isSome = true) :
    ∃ vars data, (i, vars) ∈ s.started ∧ (s.items i).data = some data := by
  obtain ⟨⟨j, vars⟩, mem, same⟩ := List.mem_map.1 started
  obtain rfl : j = i := same
  obtain ⟨data, block⟩ := Option.isSome_iff_exists.1 isSome
  exact ⟨vars, data, mem, block⟩

theorem simd_bits_supported_avx :
    (∀ w ∈ (bootSimd avxLeaf 0x40A false false 0 1).cpu.writes, avxLeaf.Accepts w) ∧
      ∃ vars data, (1, vars) ∈ (last ((smpInit avxMachine).run .initial)).started ∧
        ((last ((smpInit avxMachine).run .initial)).items 1).data = some data ∧
        ∀ w ∈ (initXsave data.cpuCr4 ⟨0, 1, []⟩).writes, avxLeaf.Accepts w := by
  obtain ⟨bsp, aps⟩ := simd_bits_supported avxLeaf 0x40A false false 0 1
  have started : 1 ∈ (last ((smpInit avxMachine).run .initial)).started.map Prod.fst := by
    decide +kernel
  have isSome : ((last ((smpInit avxMachine).run .initial)).items 1).data.isSome = true := by
    decide +kernel
  obtain ⟨vars, data, mem, block⟩ := exists_started started isSome
  have ap := aps avxMachine (by decide) (by decide) 1 vars data mem block 0 1
  refine ⟨bsp.2 ?_, vars, data, mem, block, ap.2 ⟨by decide, ?_⟩⟩
  · intro _
    rw [if_pos (by decide)]
    decide
  · intro set
    cases set

/-- A processor with FXSR and without SSE. -/
def fxsrLeaf : Leaf1 := ⟨0, 0x11800060⟩

theorem simd_bits_without_sse :
    ¬∀ (leaf : Leaf1) (vmmVer : Dword) (noavx nosse : Bool) (cr4 xcr0 : Dword),
      ∀ w ∈ (bootSimd leaf vmmVer noavx nosse cr4 xcr0).cpu.writes, leaf.Accepts w := by
  intro all
  have writes : (bootSimd fxsrLeaf 0x40A false false 0 1).cpu.writes = [⟨.cr4, 0x600⟩] := rfl
  have accepted := all fxsrLeaf 0x40A false false 0 1
  rw [writes, List.forall_mem_singleton] at accepted
  have sse : fxsrLeaf.sse = true := accepted.2.1 rfl
  revert sse
  decide

end SmpVxd.Boot
