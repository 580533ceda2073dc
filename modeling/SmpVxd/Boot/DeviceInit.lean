import SmpVxd.Boot.Simd
import SmpVxd.Words.Mask

/-!
# `Device_Init_proc`

The driver reads its settings, asks the processor for its features, turns SSE and AVX on and
tests the features it cannot do without. After that it hooks the thread switches and starts
the APs, and tells the user what it has found. A handle is given out only if it came to the end.
-/

namespace SmpVxd.Boot

def cpuidEcxSse3 : Dword := 1 <<< 0
def cpuidEcxSsse3 : Dword := 1 <<< 9
def cpuidEcxSse41 : Dword := 1 <<< 19
def cpuidEcxSse42 : Dword := 1 <<< 20
def cpuidEdxFpu : Dword := 1 <<< 1
def cpuidEdxSse2 : Dword := 1 <<< 26
def cpuidEbxAvx2 : Dword := 1 <<< 5

/-- The registers after `cpuid`. -/
structure CpuidResult where
  eax : Dword
  ebx : Dword
  ecx : Dword
  edx : Dword

/-- The leaves of a processor; `none` without `cpuid`. -/
abbrev Cpuid := Option (Dword → CpuidResult)

/-- The settings of the profile. -/
structure Settings where
  noavx : Bool
  nosse : Bool
  quiet : Bool
  maxCpus : Int

/-- What `Device_Init_proc` meets: the processor, the version of the VMM, the control
registers of the BSP, and how `smp_init` ends. -/
structure Host where
  cpuid : Cpuid
  vmmVer : Dword
  cr4 : Dword
  xcr0 : Dword
  smpInit : Bool
  cpuCount : Int

/-- A call of `alertf`. -/
structure Alert where
  format : String
  args : List Int
  deriving DecidableEq

/-- The variables after `Device_Init_proc`; `tsInit` tells whether it has called `ts_init`. -/
structure Device where
  simd : Simd
  tsInit : Bool
  smpValid : Bool
  smpInitSucc : Bool
  alerts : List Alert

def leaf1Of (page : Dword → CpuidResult) : Leaf1 := ⟨(page 1).ecx, (page 1).edx⟩

/-- CPUID_EDX_FXSR | CPUID_EDX_MMX | CPUID_EDX_TSC | CPUID_EDX_MSR -/
def minimumEdx : Dword := cpuidEdxFxsr ||| cpuidEdxMmx ||| cpuidEdxTsc ||| cpuidEdxMsr

def alertSse (flags : Leaf1) : List Alert :=
  if flags.ecx &&& cpuidEcxSse42 ≠ 0 then [⟨", SSE4.2", []⟩]
  else if flags.ecx &&& cpuidEcxSse41 ≠ 0 then [⟨", SSE4.1", []⟩]
  else if flags.ecx &&& (cpuidEcxSse3 ||| cpuidEcxSsse3) ≠ 0 then
    if flags.ecx &&& (cpuidEcxSse3 ||| cpuidEcxSsse3) = cpuidEcxSse3 ||| cpuidEcxSsse3 then
      [⟨", SSE3+SSSE3", []⟩]
    else if flags.ecx &&& cpuidEcxSse3 ≠ 0 then [⟨", SSE3", []⟩]
    else [⟨", SSSE3", []⟩]
  else if flags.edx &&& cpuidEdxSse2 ≠ 0 then [⟨", SSE2", []⟩]
  else [⟨", SSE", []⟩]

/-- "print info for user" -/
def banner (page : Dword → CpuidResult) (simd : Simd) (smpValid : Bool) (cpuCount : Int) :
    List Alert :=
  let flags := simd.cpuFlags
  (if smpValid then [⟨"SMP: multi-CPU system, CPUs=%d", [cpuCount]⟩]
    else [⟨"SMP: single-CPU system", []⟩]) ++
  (if flags.edx &&& cpuidEdxFpu ≠ 0 then [⟨", x87", []⟩] else []) ++
  (if flags.edx &&& cpuidEdxMmx ≠ 0 then [⟨", MMX", []⟩] else []) ++
  (if flags.edx &&& cpuidEdxSse ≠ 0 then alertSse flags else []) ++
  (if simd.xsaveFlags ≠ 0 ∧ flags.ecx &&& cpuidEcxAvx ≠ 0 then
    if (page 7).ebx &&& cpuidEbxAvx2 ≠ 0 then [⟨", AVX2", []⟩] else [⟨", AVX", []⟩]
  else []) ++
  [⟨"\n", []⟩]

/-- The way out of `Device_Init_proc` before its end. -/
def Device.refused (set : Settings) (simd : Simd) (format : String) : Device where
  simd := simd
  tsInit := false
  smpValid := false
  smpInitSucc := false
  alerts := if set.quiet then [] else [⟨format, []⟩]

def deviceInitProc (set : Settings) (host : Host) : Device :=
  let noavx := set.noavx || set.nosse
  let unread : Simd := ⟨⟨host.cr4, host.xcr0, []⟩, ⟨0, 0⟩, 0, false⟩
  match host.cpuid with
  | none => .refused set unread "SMP: CPUID not supported! Sorry.\n"
  | some page =>
      if 1 ≤ (page 0).eax then
        let simd := bootSimd (leaf1Of page) host.vmmVer noavx set.nosse host.cr4 host.xcr0
        if simd.cpuFlags.edx &&& minimumEdx ≠ minimumEdx then
          .refused set simd "SMP: needs support in CPU at minimum: MSR, MMX, FXSR, RSC. Sorry.\n"
        else
          let smp := simd.cpuFlags.edx &&& cpuidEdxHtt ≠ 0 && set.maxCpus > 1
          let smpValid := smp && host.smpInit
          { simd := simd
            tsInit := smp || simd.cpuFlags.edx &&& cpuidEdxSse ≠ 0
            smpValid := smpValid
            smpInitSucc := true
            alerts := if set.quiet then [] else banner page simd smpValid host.cpuCount }
      else .refused set unread "SMP: CPUID is supported, but only leaf 00H, sorry.\n"

variable {set : Settings} {host : Host} {page : Dword → CpuidResult}

/-! ## The end of the procedure -/

/-- The SSE and AVX set-up of a run that comes to leaf 1. -/
def Host.simd (set : Settings) (host : Host) (page : Dword → CpuidResult) : Simd :=
  bootSimd (leaf1Of page) host.vmmVer (set.noavx || set.nosse) set.nosse host.cr4 host.xcr0

theorem Host.simd_edx : (host.simd set page).cpuFlags.edx = (page 1).edx :=
  (bootSimd_cases _ _ _ _ _ _).1

/-- The start-up test passes. -/
def Starts (page : Dword → CpuidResult) : Prop :=
  1 ≤ (page 0).eax ∧ (page 1).edx &&& minimumEdx = minimumEdx

instance (page : Dword → CpuidResult) : Decidable (Starts page) :=
  inferInstanceAs (Decidable (_ ∧ _))

theorem covers_minimum {edx : Dword} : edx &&& minimumEdx = minimumEdx ↔
    edx.getLsbD 24 = true ∧ edx.getLsbD 23 = true ∧ edx.getLsbD 5 = true ∧
      edx.getLsbD 6 = true := by
  rw [minimumEdx, Words.covers_or, Words.covers_or, Words.covers_or, and_assoc, and_assoc]
  exact and_congr (Words.covers_bit (by decide)) (and_congr (Words.covers_bit (by decide))
    (and_congr (Words.covers_bit (by decide)) (Words.covers_bit (by decide))))

/-- The texts with which the driver refuses to work. -/
def refusals : List String :=
  ["SMP: CPUID not supported! Sorry.\n",
    "SMP: needs support in CPU at minimum: MSR, MMX, FXSR, RSC. Sorry.\n",
    "SMP: CPUID is supported, but only leaf 00H, sorry.\n"]

/-- A run that does not come to the end. -/
theorem deviceInitProc_refused (out : ¬∃ page, host.cpuid = some page ∧ Starts page) :
    ∃ simd, ∃ format ∈ refusals, deviceInitProc set host = .refused set simd format := by
  rw [deviceInitProc]
  cases found : host.cpuid with
  | none => exact ⟨_, _, List.mem_cons_self, rfl⟩
  | some page =>
      have edx : (host.simd set page).cpuFlags.edx = (page 1).edx := Host.simd_edx
      rw [Host.simd] at edx
      simp only [edx]
      by_cases leaf : 1 ≤ (page 0).eax
      · have minimum : (page 1).edx &&& minimumEdx ≠ minimumEdx :=
          fun minimum => out ⟨page, found, leaf, minimum⟩
        rw [if_pos leaf, if_pos minimum]
        exact ⟨_, _, List.mem_cons_of_mem _ List.mem_cons_self, rfl⟩
      · rw [if_neg leaf]
        exact ⟨_, _, List.mem_cons_of_mem _ (List.mem_cons_of_mem _ List.mem_cons_self), rfl⟩

/-- The driver after a run that comes to the end. -/
theorem deviceInitProc_of_starts (found : host.cpuid = some page) (starts : Starts page) :
    deviceInitProc set host =
      { simd := host.simd set page
        tsInit := (((page 1).edx &&& cpuidEdxHtt ≠ 0 && set.maxCpus > 1) ||
          (page 1).edx &&& cpuidEdxSse ≠ 0 : Bool)
        smpValid := ((page 1).edx &&& cpuidEdxHtt ≠ 0 && set.maxCpus > 1) && host.smpInit
        smpInitSucc := true
        alerts := if set.quiet then [] else
          banner page (host.simd set page)
            (((page 1).edx &&& cpuidEdxHtt ≠ 0 && set.maxCpus > 1) && host.smpInit)
            host.cpuCount } := by
  have edx : (host.simd set page).cpuFlags.edx = (page 1).edx := Host.simd_edx
  rw [Host.simd] at edx
  rw [deviceInitProc, found]
  simp only [edx]
  rw [if_pos starts.1, if_neg (not_not_intro starts.2)]
  rfl

theorem smpInitSucc_iff : (deviceInitProc set host).smpInitSucc = true ↔
    ∃ page, host.cpuid = some page ∧ Starts page := by
  constructor
  · intro succ
    by_contra out
    obtain ⟨simd, format, -, refused⟩ := @deviceInitProc_refused set host out
    rw [refused] at succ
    cases succ
  · rintro ⟨page, found, starts⟩
    rw [deviceInitProc_of_starts found starts]

/-! ## The banner -/

/-- What the alerts say about SSE3; a text on SSE4 says nothing about it. -/
def alertedSse3 (alerts : List Alert) : Option Bool :=
  if ⟨", SSE3", []⟩ ∈ alerts ∨ ⟨", SSE3+SSSE3", []⟩ ∈ alerts then some true
  else if ⟨", SSSE3", []⟩ ∈ alerts ∨ ⟨", SSE2", []⟩ ∈ alerts ∨ ⟨", SSE", []⟩ ∈ alerts then some false
  else none

/-- The banner comes to its test of SSE3. -/
def AsksSse3 (leaf : Leaf1) : Prop :=
  leaf.edx &&& cpuidEdxSse ≠ 0 ∧ leaf.ecx &&& cpuidEcxSse42 = 0 ∧ leaf.ecx &&& cpuidEcxSse41 = 0

instance (leaf : Leaf1) : Decidable (AsksSse3 leaf) := inferInstanceAs (Decidable (_ ∧ _))

theorem bootSimd_cpuFlags (leaf : Leaf1) (vmmVer : Dword) (noavx nosse : Bool) (cr4 xcr0 : Dword) :
    ∃ c, (bootSimd leaf vmmVer noavx nosse cr4 xcr0).cpuFlags = cpuid leaf c := by
  rw [bootSimd, enableSimd]
  split
  · dsimp only
    split
    · exact ⟨_, rfl⟩
    · split
      · exact ⟨_, rfl⟩
      · exact ⟨_, rfl⟩
  · exact ⟨_, rfl⟩

/-! ## What `enable_simd` leaves -/

section

variable {leaf : Leaf1} {vmmVer cr4 xcr0 : Dword} {noavx nosse : Bool}

/-- SSE and AVX are turned on. -/
theorem bootSimd_extended (fxsr : leaf.fxsr = true) (extended : leaf.xsave = true ∧ noavx = false) :
    (bootSimd leaf vmmVer noavx nosse cr4 xcr0).cpu.cr4 = cr4 ||| 0x40600 ∧
    (bootSimd leaf vmmVer noavx nosse cr4 xcr0).cpu.xcr0 = xcr0 ||| 0x7 ∧
    (bootSimd leaf vmmVer noavx nosse cr4 xcr0).xsaveFlags = (if leaf.avx = true then 0x7 else 0) ∧
    (bootSimd leaf vmmVer noavx nosse cr4 xcr0).noSysFxsave = decide (vmmVer < 0x40A) := by
  rw [bootSimd, enableSimd, Simd.initial]
  simp only [cpuid_fxsr, cpuid_xsave, cpuid_avx]
  rw [if_pos fxsr, if_pos extended]
  refine ⟨rfl, rfl, rfl, ?_⟩
  simp

/-- SSE alone is turned on, or nothing. -/
theorem bootSimd_legacy (fxsr : leaf.fxsr = true) (legacy : ¬(leaf.xsave = true ∧ noavx = false)) :
    (bootSimd leaf vmmVer noavx nosse cr4 xcr0).cpu.cr4 = (if nosse = false then cr4 ||| 0x600 else cr4) ∧
    (bootSimd leaf vmmVer noavx nosse cr4 xcr0).xsaveFlags = 0 ∧
    (bootSimd leaf vmmVer noavx nosse cr4 xcr0).noSysFxsave = decide (vmmVer < 0x40A) := by
  rw [bootSimd, enableSimd, Simd.initial]
  simp only [cpuid_fxsr, cpuid_xsave, cpuid_avx]
  rw [if_pos fxsr, if_neg legacy]
  have old : (if vmmVer < 0x40A then true else false) = decide (vmmVer < 0x40A) := by
    simp
  split
  · exact ⟨rfl, rfl, old⟩
  · exact ⟨rfl, rfl, old⟩

/-- `nosse` sets `noavx`. -/
theorem bootSimd_osfxsr (fxsr : leaf.fxsr = true) :
    (bootSimd leaf vmmVer (noavx || nosse) nosse cr4 xcr0).cpu.cr4.getLsbD osfxsr = true ↔
      (nosse = true → cr4.getLsbD osfxsr = true) := by
  by_cases extended : leaf.xsave = true ∧ (noavx || nosse) = false
  · rw [(bootSimd_extended fxsr extended).1]
    have allowed : nosse = false := (Bool.or_eq_false_iff.1 extended.2).2
    simp [allowed, osfxsr]
  · rw [(bootSimd_legacy fxsr extended).1]
    cases nosse with
    | false => simp [osfxsr]
    | true => simp

theorem bootSimd_xsaveFlags (fxsr : leaf.fxsr = true) :
    (bootSimd leaf vmmVer noavx nosse cr4 xcr0).xsaveFlags ≠ 0 ↔
      (leaf.xsave = true ∧ noavx = false) ∧ leaf.avx = true := by
  by_cases extended : leaf.xsave = true ∧ noavx = false
  · rw [(bootSimd_extended fxsr extended).2.2.1, and_iff_right extended]
    by_cases avx : leaf.avx = true
    · rw [if_pos avx]
      exact iff_of_true (by decide) avx
    · rw [if_neg avx]
      exact iff_of_false (not_not_intro rfl) avx
  · rw [(bootSimd_legacy fxsr extended).2.1]
    exact iff_of_false (not_not_intro rfl) (fun both => extended both.1)

theorem bootSimd_noSysFxsave (fxsr : leaf.fxsr = true) :
    (bootSimd leaf vmmVer noavx nosse cr4 xcr0).noSysFxsave = decide (vmmVer < 0x40A) := by
  by_cases extended : leaf.xsave = true ∧ noavx = false
  · exact (bootSimd_extended fxsr extended).2.2.2
  · exact (bootSimd_legacy fxsr extended).2.2

end

/-! ## The texts of the banner -/

/-- The texts of the banner from which a user reads whether there is SSE3. -/
def sse3Alerts : List Alert :=
  [⟨", SSE3", []⟩, ⟨", SSE3+SSSE3", []⟩, ⟨", SSSE3", []⟩, ⟨", SSE2", []⟩, ⟨", SSE", []⟩]

theorem mem_banner {simd : Simd} {smpValid : Bool} {cpuCount : Int} {a : Alert}
    (text : a ∈ sse3Alerts) : a ∈ banner page simd smpValid cpuCount ↔
      simd.cpuFlags.edx &&& cpuidEdxSse ≠ 0 ∧ a ∈ alertSse simd.cpuFlags := by
  have alone {p : Prop} [Decidable p] {b c : Alert} (neb : a ≠ b) (nec : a ≠ c) :
      a ∉ if p then [b] else [c] := by
    split
    · exact fun mem => neb (List.mem_singleton.1 mem)
    · exact fun mem => nec (List.mem_singleton.1 mem)
  have optional {p : Prop} [Decidable p] {l : List Alert} (out : p → a ∉ l) :
      a ∉ if p then l else [] := by
    split
    next holds => exact out holds
    next => exact List.not_mem_nil
  have multi : a ≠ ⟨"SMP: multi-CPU system, CPUs=%d", [cpuCount]⟩ := by
    rintro rfl
    simp [sse3Alerts] at text
  have other : ∀ b ∈ ([⟨"SMP: single-CPU system", []⟩, ⟨", x87", []⟩, ⟨", MMX", []⟩,
      ⟨", AVX2", []⟩, ⟨", AVX", []⟩, ⟨"\n", []⟩] : List Alert), a ≠ b := by
    clear multi alone optional
    revert a
    decide
  simp only [List.forall_mem_cons] at other
  obtain ⟨single, x87, mmx, avx2, avx, line, -⟩ := other
  have kind := alone multi single (p := smpValid = true)
  have fpu := optional (p := simd.cpuFlags.edx &&& cpuidEdxFpu ≠ 0) (fun _ => mt List.mem_singleton.1 x87)
  have mmx := optional (p := simd.cpuFlags.edx &&& cpuidEdxMmx ≠ 0) (fun _ => mt List.mem_singleton.1 mmx)
  have avx := optional (p := simd.xsaveFlags ≠ 0 ∧ simd.cpuFlags.ecx &&& cpuidEcxAvx ≠ 0)
    (fun _ => alone avx2 avx (p := (page 7).ebx &&& cpuidEbxAvx2 ≠ 0))
  have line := mt List.mem_singleton.1 line
  simp only [banner, List.mem_append, kind, fpu, mmx, avx, line, false_or, or_false]
  split
  next sse => exact (and_iff_right sse).symm
  next sse => exact iff_of_false List.not_mem_nil (fun told => sse told.1)

theorem alertedSse3_alertSse (flags : Leaf1) : alertedSse3 (alertSse flags) =
    if flags.ecx &&& cpuidEcxSse42 = 0 ∧ flags.ecx &&& cpuidEcxSse41 = 0 then
      some (flags.ecx &&& cpuidEcxSse3 ≠ 0 : Bool)
    else none := by
  rw [alertSse]
  split
  next sse42 =>
    rw [if_neg (fun both => sse42 both.1)]
    rfl
  next sse42 =>
    split
    next sse41 =>
      rw [if_neg (fun both => sse41 both.2)]
      rfl
    next sse41 =>
      have neither : flags.ecx &&& cpuidEcxSse42 = 0 ∧ flags.ecx &&& cpuidEcxSse41 = 0 :=
        ⟨not_not.1 sse42, not_not.1 sse41⟩
      rw [if_pos neither]
      split
      next =>
        split
        next full =>
          have sse3 : flags.ecx &&& cpuidEcxSse3 ≠ 0 := by
            rw [(Words.covers_or.1 full).1]
            decide
          rw [decide_eq_true sse3]
          rfl
        next =>
          split
          next sse3 =>
            rw [decide_eq_true sse3]
            rfl
          next sse3 =>
            rw [decide_eq_false sse3]
            rfl
      next absent =>
        have sse3 : ¬flags.ecx &&& cpuidEcxSse3 ≠ 0 := fun sse3 => absent (Words.meets_or.2 (.inl sse3))
        rw [decide_eq_false sse3]
        split
        · rfl
        · rfl

/-- What a user reads from the banner. -/
theorem alertedSse3_banner {simd : Simd} {smpValid : Bool} {cpuCount : Int} :
    alertedSse3 (banner page simd smpValid cpuCount) =
      if AsksSse3 simd.cpuFlags then some (simd.cpuFlags.ecx &&& cpuidEcxSse3 ≠ 0 : Bool)
      else none := by
  have told : ∀ a ∈ sse3Alerts, a ∈ banner page simd smpValid cpuCount ↔
      simd.cpuFlags.edx &&& cpuidEdxSse ≠ 0 ∧ a ∈ alertSse simd.cpuFlags := fun a text => mem_banner text
  simp only [sse3Alerts, List.forall_mem_cons] at told
  obtain ⟨sse3, both, ssse3, sse2, sse1, -⟩ := told
  have own := alertedSse3_alertSse simd.cpuFlags
  rw [alertedSse3] at own ⊢
  simp only [sse3, both, ssse3, sse2, sse1, AsksSse3]
  by_cases sse : simd.cpuFlags.edx &&& cpuidEdxSse ≠ 0
  · simp only [sse, ne_eq, not_false_eq_true, true_and]
    exact own
  · simp only [sse, false_and, or_false, if_false]

end SmpVxd.Boot
