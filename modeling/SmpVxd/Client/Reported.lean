import SmpVxd.Client.Device
import SmpVxd.Client.Features
import SmpVxd.Protocol.Extended

/-!
# The features that are reported to programs

The driver answers the library, and the library filters by that answer what `cpuid` says. A
program takes a feature for usable then: the system or the driver must have turned it on, on
every processor on which the program can run, and must keep its registers in a thread switch.
-/

namespace SmpVxd.Reported

open Boot Features Device
open ThreadInfo (invalidHandleValue)

def smpCpuSmpvxd : Dword := 0x01
def smpCpuMmx : Dword := 0x04
def smpCpuSse : Dword := 0x08
def smpCpuAvx : Dword := 0x10
def smpCpuAvx512 : Dword := 0x20

/-! ## The answers -/

/-- `Device_IO_Control` on `DIOC_OPEN` gives out a handle. -/
def diocOpen (d : Boot.Device) : Bool := d.smpInitSucc

/-- `Device_IO_Control` on `DIOC_SMP_CPU_FEATURES` -/
def cpuFeatures (d : Boot.Device) : Dword :=
  let features := smpCpuSmpvxd
  let features :=
    if d.simd.cpuFlags.edx &&& cpuidEdxMmx ≠ 0 then features ||| smpCpuMmx else features
  let features :=
    if d.simd.cpuFlags.edx &&& cpuidEdxSse ≠ 0 then features ||| smpCpuSse else features
  if d.simd.xsaveFlags ≠ 0 then features ||| smpCpuAvx else features

/-- A program that has opened the driver is told of the feature. -/
def Reports (d : Boot.Device) (feature : Dword) : Prop :=
  diocOpen d = true ∧ cpuFeatures d &&& feature ≠ 0

/-- The cases of the first `switch`. -/
def sseFeatures : List ProcessorFeature :=
  [.xmmiInstructionsAvailable, .xmmi64InstructionsAvailable, .sse3InstructionsAvailable,
    .ssse3InstructionsAvailable, .sse41InstructionsAvailable, .sse42InstructionsAvailable]

/-- The cases of the second `switch` that ask for AVX. -/
def avxFeatures : List ProcessorFeature :=
  [.xsaveEnabled, .avxInstructionsAvailable, .avx2InstructionsAvailable]

def majorVersion (dwVersion : Dword) : Dword := dwVersion &&& 0xFF

def minorVersion (dwVersion : Dword) : Dword := dwVersion >>> 8 &&& 0xFF

/-- `ipfp` is the function of the system, if it has one. -/
def smp9xIsProcessorFeaturePresent (dwVersion cpuFeatures : Dword)
    (ipfp : Option (ProcessorFeature → Bool)) (getCpuid : Dword → CpuidResult → CpuidResult)
    (f : ProcessorFeature) : Bool :=
  if majorVersion dwVersion = 4 ∨ cpuFeatures ≠ 0 ∨ ipfp.isNone then
    let test := isProcessorFeaturePresentCPUID getCpuid f
    if majorVersion dwVersion = 4 then
      -- Win95
      if minorVersion dwVersion < 0xA ∧ f ∈ sseFeatures ∧ cpuFeatures &&& smpCpuSse = 0 then false
      -- Win95,98,Me
      else if f ∈ avxFeatures then if cpuFeatures &&& smpCpuAvx = 0 then false else test
      else if f = .avx512fInstructionsAvailable then
        if cpuFeatures &&& smpCpuAvx512 = 0 then false else test
      else test
    else test
  else (ipfp.map (· f)).getD false

/-- A program that has called `smp9x_init`, perhaps other functions after it, and asks for
the features now. -/
structure Program where
  idleProc : Dword
  answers : Answers
  calls : List Call
  dwVersion : Dword
  ipfp : Option (ProcessorFeature → Bool)
  getCpuid : Dword → CpuidResult → CpuidResult

namespace Program

variable (p : Program)

def lib : Lib := session p.idleProc p.answers p.calls

def isProcessorFeaturePresent (f : ProcessorFeature) : Bool :=
  smp9xIsProcessorFeaturePresent p.dwVersion p.lib.cpuFeatures p.ipfp p.getCpuid f

/-- The system lets the driver answer. -/
structure RunsOn (d : Boot.Device) : Prop where
  opened : p.answers.createFile ≠ invalidHandleValue → diocOpen d = true
  features : ∀ features, p.answers.features = some features → features = cpuFeatures d

/-- Windows 95, 98 or Me -/
def Windows9x : Prop := majorVersion p.dwVersion = 4

def Windows95 : Prop := p.Windows9x ∧ minorVersion p.dwVersion < 0xA

end Program

/-! ## Usable features -/

/-- `thread_switch` saves the component of a ring-3 thread that has a record, and restores it
from a record that has been saved. -/
structure Kept (cfg : Config) (c : Component) : Prop where
  saved : ∀ s curTid oldTid cbsNew cbsOld ts, s.tsHt.get oldTid = some ts → cbsOld.ring3 →
    ∃ ts', (threadSwitch cfg s curTid oldTid cbsNew cbsOld).tsHt.get oldTid = some ts' ∧
      ts'.dirty = 0 ∧ ts'.fpuState.component c = s.fpu.component c
  restored : ∀ s curTid cbsNew ts, s.tsHt.get curTid = some ts → cbsNew.ring3 → ts.dirty = 0 →
    (switchIn cfg s curTid cbsNew).fpu.component c = ts.fpuState.component c

/-- The driver is called at thread switches, and keeps the component there. -/
def Switched (d : Boot.Device) (c : Component) : Prop :=
  d.tsInit = true ∧ ∀ cfg : Config, cfg.xsaveFlags = d.simd.xsaveFlags →
    cfg.noSysFxsave = d.simd.noSysFxsave → Kept cfg c

structure SseUsable (d : Boot.Device) : Prop where
  osfxsr : d.simd.cpu.cr4.getLsbD osfxsr = true
  switched : Switched d .sse

/-- A processor with CR4.OSXSAVE and bits 1 and 2 of XCR0. -/
structure AvxOn (c : Cpu) : Prop where
  osxsave : c.cr4.getLsbD osxsave = true
  sse : c.xcr0.getLsbD 1 = true
  avx : c.xcr0.getLsbD 2 = true

structure AvxUsable (d : Boot.Device) : Prop where
  bsp : AvxOn d.simd.cpu
  aps : ∀ env : Env, env.xsaveFlags = d.simd.xsaveFlags →
    ∀ i vars data, (i, vars) ∈ (last ((smpInit env).run .initial)).started →
      ((last ((smpInit env).run .initial)).items i).data = some data →
      ∀ c : Cpu, AvxOn (initXsave data.cpuCr4 c)
  switched : Switched d .avx

variable {d : Boot.Device} {p : Program} {set : Settings} {host : Host} {cfg : Config}

/-! ## The filter of the library -/

theorem exec_cpuFeatures (idleProc : Dword) (s : Lib) (c : Call) :
    (c.exec idleProc s).cpuFeatures = s.cpuFeatures := by
  have step := call_step idleProc s c
  generalize c.exec idleProc s = t at step ⊢
  cases step <;> rfl

theorem session_cpuFeatures (idleProc : Dword) (w : Answers) (calls : List Call) :
    (session idleProc w calls).cpuFeatures = (smp9xInit w .initial).cpuFeatures := by
  rw [session]
  induction calls using List.reverseRecOn with
  | nil => rfl
  | append_singleton calls c ih => rw [List.foldl_append, List.foldl_cons, List.foldl_nil,
      exec_cpuFeatures, ih]

theorem probe_cpuFeatures (w : Answers) (s : Lib) : (probe w s).1.cpuFeatures = s.cpuFeatures := by
  rw [probe]
  cases w.cpuCount with
  | none => rfl
  | some n =>
      dsimp only
      split
      · rw [probeAddress]
        cases w.address with
        | none => rfl
        | some a =>
            dsimp only
            split
            · rfl
            · rfl
      · rfl

/-- The library has what the driver has answered, or nothing. -/
theorem smp9xInit_cpuFeatures (w : Answers) : (smp9xInit w .initial).cpuFeatures =
    if w.createFile ≠ invalidHandleValue then w.features.getD 0 else 0 := by
  rw [smp9xInit]
  dsimp only
  split
  · have kept := probe_cpuFeatures w (Lib.emit { Lib.initial with smpVxd := w.createFile }
      (.opened w.createFile))
    split
    · exact congrArg (w.features.getD ·) kept
    · exact congrArg (w.features.getD ·) kept
  · rfl

theorem Program.RunsOn.reports (runs : p.RunsOn d) {feature : Dword}
    (told : p.lib.cpuFeatures &&& feature ≠ 0) : Reports d feature := by
  rw [Program.lib, session_cpuFeatures, smp9xInit_cpuFeatures] at told
  by_cases opened : p.answers.createFile ≠ invalidHandleValue
  · rw [if_pos opened] at told
    cases answered : p.answers.features with
    | none =>
        rw [answered] at told
        exact absurd BitVec.zero_and told
    | some features =>
        rw [answered, Option.getD_some, runs.features features answered] at told
        exact ⟨runs.opened opened, told⟩
  · rw [if_neg opened] at told
    exact absurd BitVec.zero_and told

/-- The filter on Windows 95, 98 and Me. -/
theorem present_windows9x {dwVersion features : Dword} {ipfp : Option (ProcessorFeature → Bool)}
    {getCpuid : Dword → CpuidResult → CpuidResult} {f : ProcessorFeature} (major : majorVersion dwVersion = 4) :
    smp9xIsProcessorFeaturePresent dwVersion features ipfp getCpuid f =
      if minorVersion dwVersion < 0xA ∧ f ∈ sseFeatures ∧ features &&& smpCpuSse = 0 then false
      else if f ∈ avxFeatures then
        if features &&& smpCpuAvx = 0 then false else isProcessorFeaturePresentCPUID getCpuid f
      else if f = .avx512fInstructionsAvailable then
        if features &&& smpCpuAvx512 = 0 then false else isProcessorFeaturePresentCPUID getCpuid f
      else isProcessorFeaturePresentCPUID getCpuid f := by
  rw [smp9xIsProcessorFeaturePresent, if_pos (.inl major)]
  dsimp only
  rw [if_pos major]

theorem avxFeatures_apart : ∀ f ∈ avxFeatures, f ∉ sseFeatures := by decide

namespace Program

variable {f : ProcessorFeature}

theorem asked_sse (win95 : p.Windows95) (sse : f ∈ sseFeatures)
    (present : p.isProcessorFeaturePresent f = true) : p.lib.cpuFeatures &&& smpCpuSse ≠ 0 := by
  intro none
  rw [isProcessorFeaturePresent, present_windows9x win95.1, if_pos ⟨win95.2, sse, none⟩] at present
  cases present

theorem asked_avx (win9x : p.Windows9x) (avx : f ∈ avxFeatures)
    (present : p.isProcessorFeaturePresent f = true) : p.lib.cpuFeatures &&& smpCpuAvx ≠ 0 := by
  intro none
  have notSse : f ∉ sseFeatures := avxFeatures_apart f avx
  rw [isProcessorFeaturePresent, present_windows9x win9x, if_neg (fun old => notSse old.2.1),
    if_pos avx, if_pos none] at present
  cases present

theorem asked_avx512 (win9x : p.Windows9x)
    (present : p.isProcessorFeaturePresent .avx512fInstructionsAvailable = true) :
    p.lib.cpuFeatures &&& smpCpuAvx512 ≠ 0 := by
  intro none
  have notSse : .avx512fInstructionsAvailable ∉ sseFeatures := by decide
  have notAvx : .avx512fInstructionsAvailable ∉ avxFeatures := by decide
  rw [isProcessorFeaturePresent, present_windows9x win9x, if_neg (fun old => notSse old.2.1),
    if_neg notAvx, if_pos rfl, if_pos none] at present
  cases present

end Program

/-! ## What the driver reports -/

theorem cpuFeatures_sse : cpuFeatures d &&& smpCpuSse ≠ 0 ↔
    d.simd.cpuFlags.edx &&& cpuidEdxSse ≠ 0 := by
  rw [cpuFeatures]
  by_cases mmx : d.simd.cpuFlags.edx &&& cpuidEdxMmx ≠ 0 <;>
    by_cases sse : d.simd.cpuFlags.edx &&& cpuidEdxSse ≠ 0 <;>
    by_cases avx : d.simd.xsaveFlags ≠ 0 <;>
    simp only [mmx, sse, avx, ne_eq, not_false_eq_true, if_true, if_false] <;> decide

theorem cpuFeatures_avx : cpuFeatures d &&& smpCpuAvx ≠ 0 ↔ d.simd.xsaveFlags ≠ 0 := by
  rw [cpuFeatures]
  by_cases mmx : d.simd.cpuFlags.edx &&& cpuidEdxMmx ≠ 0 <;>
    by_cases sse : d.simd.cpuFlags.edx &&& cpuidEdxSse ≠ 0 <;>
    by_cases avx : d.simd.xsaveFlags ≠ 0 <;>
    simp only [mmx, sse, avx, ne_eq, not_false_eq_true, if_true, if_false] <;> decide

theorem cpuFeatures_avx512 : cpuFeatures d &&& smpCpuAvx512 = 0 := by
  rw [cpuFeatures]
  split <;> split <;> split <;> decide

/-! ## What is kept in a thread switch -/

theorem kept_of_restored {c : Component} (covered : cfg.restoreSet.covers c = true) : Kept cfg c where
  saved := by
    intro s curTid oldTid cbsNew cbsOld ts found ring3
    have saves : fpuNeedExtraSave cfg.xsaveFlags cfg.noSysFxsave false = true ∧
        cbsOld.tcbFlags &&& thflagRing0Thread = 0 := ⟨fpuNeedExtraSave_save, ring3⟩
    refine ⟨{ ts with
      fpuState := fpuSave cfg.xsaveFlags cfg.noSysFxsave true s.fpu ts.fpuState, dirty := 0 }, ?_, rfl, ?_⟩
    · have own : (ThreadEvent.switchedOut oldTid cbsOld s.fpu).tid = oldTid := rfl
      rw [threadSwitch_get, ThreadEvent.after_own _ own, found]
      simp only [ThreadEvent.update, Option.map_some, if_pos saves]
    · have agrees := SaveMethod.copy_agrees cfg.migrationSet s.fpu ts.fpuState
      dsimp only
      rw [fpuSave, fpuSaveMethod_save]
      exact agrees c (Config.restoreSet_covers covered)
  restored := fun s curTid cbsNew ts found ring3 clean =>
    switchIn_restores found ring3 clean c covered

theorem restoreSet_eq (cfg : Config) : cfg.restoreSet =
    if cfg.xsaveFlags = 0 then if cfg.noSysFxsave then .saveFxsave else .saveNop
    else if cfg.noSysFxsave then .saveXsaveAll else .saveXsaveAvx := by
  rw [Config.restoreSet, fpuSaveMethod]
  cases cfg.noSysFxsave <;> by_cases legacy : cfg.xsaveFlags = 0 <;>
    simp only [legacy, Bool.not_true, Bool.and_false, Bool.false_eq_true, if_false, if_true, and_true,
      and_false, ne_eq, not_true, not_false_eq_true]

theorem restoreSet_sse (old : cfg.noSysFxsave = true) : cfg.restoreSet.covers .sse = true := by
  rw [restoreSet_eq, old]
  split
  · rfl
  · rfl

theorem restoreSet_avx (used : cfg.xsaveFlags ≠ 0) : cfg.restoreSet.covers .avx = true := by
  rw [restoreSet_eq, if_neg used]
  split
  · rfl
  · rfl

/-- `init_xsave` turns AVX on whatever the AP has before. -/
theorem initXsave_avxOn {flags : Dword} (used : flags ≠ 0) (c : Cpu) : AvxOn (initXsave (apCr4 flags) c) := by
  have set : (c.cr4 ||| 0x40600).getLsbD osxsave = true := by simp [osxsave]
  rw [apCr4, if_pos used, initXsave]
  simp only [Cpu.movCr4, set, if_true, Cpu.xsetbv]
  exact ⟨set, by simp, by simp⟩

/-! ## Reported features are usable -/

/-- Windows 95 with `nosse`: the report of SSE is right if CR4.OSFXSR was set before. -/
def SseBacked (set : Settings) (host : Host) : Prop :=
  ∀ page, host.cpuid = some page → Starts page → (leaf1Of page).sse = true →
    host.vmmVer < 0x40A → set.nosse = true → host.cr4.getLsbD osfxsr = true

/-- AVX without SSE: the thread switches are hooked if there are several CPUs. -/
def AvxBacked (set : Settings) (host : Host) : Prop :=
  ∀ page, host.cpuid = some page → Starts page →
    (leaf1Of page).xsave = true → (leaf1Of page).avx = true → set.noavx = false → set.nosse = false →
    (leaf1Of page).sse = true ∨ (page 1).edx &&& cpuidEdxHtt ≠ 0 ∧ 1 < set.maxCpus

theorem fxsr_of_starts {page : Dword → CpuidResult} (starts : Starts page) :
    (leaf1Of page).fxsr = true := by
  rw [Leaf1.fxsr, decide_eq_true_iff]
  exact (Words.and_bit_ne_zero (by decide)).2 (covers_minimum.1 starts.2).1

/-- A driver that reports has come to the end of its start. -/
theorem Reports.starts {feature : Dword} (reports : Reports (deviceInitProc set host) feature) :
    ∃ page, host.cpuid = some page ∧ Starts page :=
  smpInitSucc_iff.1 reports.1

section

variable {page : Dword → CpuidResult} (found : host.cpuid = some page) (starts : Starts page)

include found starts

theorem reports_sse : Reports (deviceInitProc set host) smpCpuSse ↔ (leaf1Of page).sse = true := by
  rw [Reports, cpuFeatures_sse, diocOpen, deviceInitProc_of_starts found starts]
  dsimp only
  rw [Host.simd_edx, and_iff_right rfl, Leaf1.sse, decide_eq_true_iff]
  rfl

theorem reports_avx : Reports (deviceInitProc set host) smpCpuAvx ↔
    ((leaf1Of page).xsave = true ∧ (set.noavx || set.nosse) = false) ∧ (leaf1Of page).avx = true := by
  rw [Reports, cpuFeatures_avx, diocOpen, deviceInitProc_of_starts found starts]
  dsimp only
  rw [and_iff_right rfl, Host.simd, bootSimd_xsaveFlags (fxsr_of_starts starts)]

theorem tsInit_iff : (deviceInitProc set host).tsInit = true ↔
    (leaf1Of page).sse = true ∨ (page 1).edx &&& cpuidEdxHtt ≠ 0 ∧ 1 < set.maxCpus := by
  rw [deviceInitProc_of_starts found starts]
  simp only [Bool.or_eq_true, Bool.and_eq_true, decide_eq_true_eq, Leaf1.sse]
  exact or_comm

theorem sseUsable_iff (old : host.vmmVer < 0x40A) (sse : (leaf1Of page).sse = true) :
    SseUsable (deviceInitProc set host) ↔ (set.nosse = true → host.cr4.getLsbD osfxsr = true) := by
  have simd : (deviceInitProc set host).simd = host.simd set page := by
    rw [deviceInitProc_of_starts found starts]
  have on : (host.simd set page).cpu.cr4.getLsbD osfxsr = true ↔
      (set.nosse = true → host.cr4.getLsbD osfxsr = true) := bootSimd_osfxsr (fxsr_of_starts starts)
  have noSys : (host.simd set page).noSysFxsave = true := by
    rw [Host.simd, bootSimd_noSysFxsave (fxsr_of_starts starts)]
    exact decide_eq_true old
  constructor
  · intro usable
    have set := usable.osfxsr
    rw [simd] at set
    exact on.1 set
  · intro backed
    refine ⟨?_, (tsInit_iff found starts).2 (.inl sse), ?_⟩
    · rw [simd]
      exact on.2 backed
    · intro cfg _ same
      rw [simd, noSys] at same
      exact kept_of_restored (restoreSet_sse same)

theorem avxUsable_iff (reports : Reports (deviceInitProc set host) smpCpuAvx) :
    AvxUsable (deviceInitProc set host) ↔
      (leaf1Of page).sse = true ∨ (page 1).edx &&& cpuidEdxHtt ≠ 0 ∧ 1 < set.maxCpus := by
  have simd : (deviceInitProc set host).simd = host.simd set page := by
    rw [deviceInitProc_of_starts found starts]
  have used : (deviceInitProc set host).simd.xsaveFlags ≠ 0 := cpuFeatures_avx.1 reports.2
  constructor
  · intro usable
    exact (tsInit_iff found starts).1 usable.switched.1
  · intro hooked
    obtain ⟨extended, avx⟩ := (reports_avx found starts).1 reports
    obtain ⟨cr4, xcr0, -, -⟩ := @bootSimd_extended _ host.vmmVer host.cr4 host.xcr0 _ set.nosse
      (fxsr_of_starts starts) extended
    refine ⟨?_, ?_, (tsInit_iff found starts).2 hooked, ?_⟩
    · rw [simd, Host.simd]
      refine ⟨?_, ?_, ?_⟩
      · rw [cr4]
        simp [osxsave]
      · rw [xcr0]
        simp
      · rw [xcr0]
        simp
    · intro env same i vars data started block c
      rw [started_cpuCr4 started block, same]
      exact initXsave_avxOn used c
    · intro cfg same _
      rw [← same] at used
      exact kept_of_restored (restoreSet_avx used)

end

/-- SSE that is reported on Windows 95 is usable, and AVX that is reported on Windows 95, 98
and Me, each exactly where the driver has the means; AVX-512 is never reported. -/
theorem reported_features_usable (set : Settings) (host : Host) :
    (((host.vmmVer < 0x40A → Reports (deviceInitProc set host) smpCpuSse →
          SseUsable (deviceInitProc set host)) ∧
        ∀ p : Program, p.RunsOn (deviceInitProc set host) → p.Windows95 → host.vmmVer < 0x40A →
          ∀ f ∈ sseFeatures, p.isProcessorFeaturePresent f = true →
            SseUsable (deviceInitProc set host)) ↔
      SseBacked set host) ∧
    (((Reports (deviceInitProc set host) smpCpuAvx → AvxUsable (deviceInitProc set host)) ∧
        ∀ p : Program, p.RunsOn (deviceInitProc set host) → p.Windows9x →
          ∀ f ∈ avxFeatures, p.isProcessorFeaturePresent f = true →
            AvxUsable (deviceInitProc set host)) ↔
      AvxBacked set host) ∧
    ¬Reports (deviceInitProc set host) smpCpuAvx512 ∧
    ∀ p : Program, p.RunsOn (deviceInitProc set host) → p.Windows9x →
      p.isProcessorFeaturePresent .avx512fInstructionsAvailable = false := by
  have never : ¬Reports (deviceInitProc set host) smpCpuAvx512 :=
    fun reports => reports.2 cpuFeatures_avx512
  refine ⟨⟨?_, ?_⟩, ⟨?_, ?_⟩, never, ?_⟩
  · rintro ⟨usable, -⟩ page found starts sse old
    exact (sseUsable_iff found starts old sse).1 (usable old ((reports_sse found starts).2 sse))
  · intro backed
    have usable (old : host.vmmVer < 0x40A) (reports : Reports (deviceInitProc set host) smpCpuSse) :
        SseUsable (deviceInitProc set host) := by
      obtain ⟨page, found, starts⟩ := reports.starts
      have sse := (reports_sse found starts).1 reports
      exact (sseUsable_iff found starts old sse).2 (backed page found starts sse old)
    refine ⟨usable, ?_⟩
    intro p runs win95 old f asked present
    exact usable old (runs.reports (p.asked_sse win95 asked present))
  · rintro ⟨usable, -⟩ page found starts xsave avx noavx nosse
    have allowed : (set.noavx || set.nosse) = false := by rw [noavx, nosse]; rfl
    have reports := (reports_avx found starts).2 ⟨⟨xsave, allowed⟩, avx⟩
    exact (avxUsable_iff found starts reports).1 (usable reports)
  · intro backed
    have usable (reports : Reports (deviceInitProc set host) smpCpuAvx) :
        AvxUsable (deviceInitProc set host) := by
      obtain ⟨page, found, starts⟩ := reports.starts
      obtain ⟨⟨xsave, allowed⟩, avx⟩ := (reports_avx found starts).1 reports
      obtain ⟨noavx, nosse⟩ := Bool.or_eq_false_iff.1 allowed
      exact (avxUsable_iff found starts reports).2 (backed page found starts xsave avx noavx nosse)
    refine ⟨usable, ?_⟩
    intro p runs win9x f asked present
    exact usable (runs.reports (p.asked_avx win9x asked present))
  · intro p runs win9x
    by_contra present
    exact never (runs.reports (p.asked_avx512 win9x (eq_true_of_ne_false present)))

/-- Windows 95 with `nosse` on a processor with SSE. -/
def nosseWin95 : Host := ⟨some (plainPage 0 0x078003FF), 0x400, 0, 1, false, 1⟩

theorem reported_features_nosse :
    ¬∀ (set : Settings) (host : Host), host.vmmVer < 0x40A →
      Reports (deviceInitProc set host) smpCpuSse → SseUsable (deviceInitProc set host) := by
  intro all
  have usable := all ⟨false, true, false, 1⟩ nosseWin95 (by decide) ⟨by decide, by decide⟩
  have on := usable.osfxsr
  revert on
  decide

end SmpVxd.Reported
