import SmpVxd.Boot.DeviceInit

/-!
# The features of the processor

`IsProcessorFeaturePresentCPUID` of the client library answers from leaves 1, 7 and 80000001h,
with a mask for each feature. The architecture puts every feature at a place of its own: a leaf,
a register and a bit. The same masks serve the start-up test and the banner of the driver.
-/

namespace SmpVxd.Features

open Boot

def cpuidEcxVmx : Dword := 1 <<< 5
def cpuidEcxCmpxchg16b : Dword := 1 <<< 13
def cpuidEcxRdrand : Dword := 1 <<< 30
def cpuidEdxMce : Dword := 1 <<< 8
def cpuidEbxAvx512F : Dword := 1 <<< 16
def cpuidEcxRdpid : Dword := 1 <<< 22
def cpuidEdxRdtscp : Dword := 1 <<< 27
def cpuidEdx3dnow : Dword := 1 <<< 31
def cpuidEcxMonitorx : Dword := 1 <<< 29

/-- The PF_ numbers; `unknown` stands for those without a case. -/
inductive ProcessorFeature where
  | floatingPointPrecisionErrata
  | floatingPointEmulated
  | compareExchangeDouble
  | mmxInstructionsAvailable
  | xmmiInstructionsAvailable
  | threeDNowInstructionsAvailable
  | rdtscInstructionAvailable
  | paeEnabled
  | xmmi64InstructionsAvailable
  | nxEnabled
  | sse3InstructionsAvailable
  | compareExchange128
  | compare64Exchange128
  | channelsEnabled
  | xsaveEnabled
  | secondLevelAddressTranslation
  | virtFirmwareEnabled
  | rdwrfsgsbaseAvailable
  | fastfailAvailable
  | rdrandInstructionAvailable
  | rdtscpInstructionAvailable
  | rdpidInstructionAvailable
  | monitorxInstructionAvailable
  | ssse3InstructionsAvailable
  | sse41InstructionsAvailable
  | sse42InstructionsAvailable
  | avxInstructionsAvailable
  | avx2InstructionsAvailable
  | avx512fInstructionsAvailable
  | ppcMovemem64bitOk
  | alphaByteInstructions
  | ermsAvailable
  | armVfp32RegistersAvailable
  | armNeonInstructionsAvailable
  | armDivideInstructionAvailable
  | arm64bitLoadstoreAtomic
  | armExternalCacheAvailable
  | armFmacInstructionsAvailable
  | armV8InstructionsAvailable
  | armV8CryptoInstructionsAvailable
  | armV8Crc32InstructionsAvailable
  | armV81AtomicInstructionsAvailable
  | armV82DpInstructionsAvailable
  | armV83JscvtInstructionsAvailable
  | unknown
  deriving DecidableEq

/-! ## The `cpuid` of the compiler -/

/-- The processor does not have the leaf: it is above the maximum of its range. -/
def Missing (cpuid : Cpuid) (leaf : Dword) : Prop :=
  match cpuid with
  | none => True
  | some page => (page (leaf &&& 0x80000000)).eax = 0 ∨ (page (leaf &&& 0x80000000)).eax < leaf

instance (cpuid : Cpuid) (leaf : Dword) : Decidable (Missing cpuid leaf) :=
  match cpuid with
  | none => isTrue trivial
  | some _ => inferInstanceAs (Decidable (_ ∨ _))

/-- The instruction, with its leaf and ECX, of a processor that has the leaves `cpuid` where
ECX is zero. ECX selects a sub-leaf of leaf 7; leaves 1 and 80000001h have no sub-leaves. -/
structure Instruction (cpuid : Cpuid) where
  regs : Dword → Dword → CpuidResult
  regs_zero : ∀ page, cpuid = some page → ∀ leaf, regs leaf 0 = page leaf
  regs_leaf1 : ∀ ecx, regs 1 ecx = regs 1 0
  regs_leaf81 : ∀ ecx, regs 0x80000001 ecx = regs 0x80000001 0

/-- `__get_cpuid` of the compiler: a leaf that the processor does not have leaves the result
as it is, and the instruction is executed with what ECX happens to hold. -/
structure GetCpuid (cpuid : Cpuid) extends Instruction cpuid where
  call : Dword → CpuidResult → CpuidResult
  /-- ECX at the instruction, for each leaf -/
  ecx : Dword → Dword
  call_missing : ∀ leaf result, Missing cpuid leaf → call leaf result = result
  call_found : ∀ leaf result, ¬Missing cpuid leaf → call leaf result = regs leaf (ecx leaf)

/-! ## The library -/

/-- `FCHECK` -/
def fcheck (reg f : Dword) : Bool := reg &&& f ≠ 0

/-- `getCpuid` is `__get_cpuid`. -/
def isProcessorFeaturePresentCPUID (getCpuid : Dword → CpuidResult → CpuidResult)
    (processorFeature : ProcessorFeature) : Bool :=
  let leaf1 := getCpuid 0x00000001 ⟨0, 0, 0, 0⟩
  let leaf7 := getCpuid 0x00000007 ⟨0, 0, 0, 0⟩
  let leaf81 := getCpuid 0x80000001 ⟨0, 0, 0, 0⟩
  match processorFeature with
  | .floatingPointPrecisionErrata => false
  | .floatingPointEmulated => false
  | .compareExchangeDouble => fcheck leaf1.edx cpuidEdxMce
  | .mmxInstructionsAvailable => fcheck leaf1.edx cpuidEdxMmx
  | .xmmiInstructionsAvailable => fcheck leaf1.edx cpuidEdxSse
  | .threeDNowInstructionsAvailable => fcheck leaf81.edx cpuidEdx3dnow
  | .rdtscInstructionAvailable => fcheck leaf1.edx cpuidEdxTsc
  | .paeEnabled => false
  | .xmmi64InstructionsAvailable => fcheck leaf1.edx cpuidEdxSse2
  | .nxEnabled => false
  -- leaf 80000001h, although the mask is one of leaf 1
  | .sse3InstructionsAvailable => fcheck leaf81.ecx cpuidEcxSse3
  | .compareExchange128 => fcheck leaf1.ecx cpuidEcxCmpxchg16b
  | .compare64Exchange128 => fcheck leaf1.ecx cpuidEcxCmpxchg16b
  | .channelsEnabled => true
  | .xsaveEnabled => fcheck leaf1.ecx cpuidEcxOsxsave
  | .secondLevelAddressTranslation => true
  | .virtFirmwareEnabled => fcheck leaf1.ecx cpuidEcxVmx
  | .rdwrfsgsbaseAvailable => false
  | .fastfailAvailable => false
  | .rdrandInstructionAvailable => fcheck leaf1.ecx cpuidEcxRdrand
  | .rdtscpInstructionAvailable => fcheck leaf81.edx cpuidEdxRdtscp
  | .rdpidInstructionAvailable => fcheck leaf7.ecx cpuidEcxRdpid
  | .monitorxInstructionAvailable => fcheck leaf81.ecx cpuidEcxMonitorx
  | .ssse3InstructionsAvailable => fcheck leaf1.ecx cpuidEcxSsse3
  | .sse41InstructionsAvailable => fcheck leaf1.ecx cpuidEcxSse41
  | .sse42InstructionsAvailable => fcheck leaf1.ecx cpuidEcxSse42
  | .avxInstructionsAvailable => fcheck leaf1.ecx cpuidEcxAvx
  | .avx2InstructionsAvailable => fcheck leaf7.ebx cpuidEbxAvx2
  | .avx512fInstructionsAvailable => fcheck leaf7.ebx cpuidEbxAvx512F
  | _ => false

/-! ## The architecture -/

/-- A leaf, in sub-leaf 0; one that the processor does not have is zero. -/
def leafWords (cpuid : Cpuid) (leaf : Dword) : CpuidResult :=
  if Missing cpuid leaf then ⟨0, 0, 0, 0⟩ else (cpuid.map (· leaf)).getD ⟨0, 0, 0, 0⟩

/-- The leaves in which the features are. -/
structure Leaves where
  leaf1 : CpuidResult
  leaf7 : CpuidResult
  leaf81 : CpuidResult

def Leaves.read (cpuid : Cpuid) : Leaves where
  leaf1 := leafWords cpuid 1
  leaf7 := leafWords cpuid 7
  leaf81 := leafWords cpuid 0x80000001

inductive Register where
  | leaf1Ecx
  | leaf1Edx
  | leaf7Ebx
  | leaf7Ecx
  | leaf81Ecx
  | leaf81Edx

def Leaves.register (l : Leaves) : Register → Dword
  | .leaf1Ecx => l.leaf1.ecx
  | .leaf1Edx => l.leaf1.edx
  | .leaf7Ebx => l.leaf7.ebx
  | .leaf7Ecx => l.leaf7.ecx
  | .leaf81Ecx => l.leaf81.ecx
  | .leaf81Edx => l.leaf81.edx

/-- Where the architecture has the bit of a feature that is answered from `cpuid`. -/
def architectural : ProcessorFeature → Option (Register × Nat)
  | .rdtscInstructionAvailable => some (.leaf1Edx, 4)
  | .compareExchangeDouble => some (.leaf1Edx, 8)
  | .mmxInstructionsAvailable => some (.leaf1Edx, 23)
  | .xmmiInstructionsAvailable => some (.leaf1Edx, 25)
  | .xmmi64InstructionsAvailable => some (.leaf1Edx, 26)
  | .sse3InstructionsAvailable => some (.leaf1Ecx, 0)
  | .virtFirmwareEnabled => some (.leaf1Ecx, 5)
  | .ssse3InstructionsAvailable => some (.leaf1Ecx, 9)
  | .compareExchange128 => some (.leaf1Ecx, 13)
  | .compare64Exchange128 => some (.leaf1Ecx, 13)
  | .sse41InstructionsAvailable => some (.leaf1Ecx, 19)
  | .sse42InstructionsAvailable => some (.leaf1Ecx, 20)
  | .xsaveEnabled => some (.leaf1Ecx, 27)
  | .avxInstructionsAvailable => some (.leaf1Ecx, 28)
  | .rdrandInstructionAvailable => some (.leaf1Ecx, 30)
  | .avx2InstructionsAvailable => some (.leaf7Ebx, 5)
  | .avx512fInstructionsAvailable => some (.leaf7Ebx, 16)
  | .rdpidInstructionAvailable => some (.leaf7Ecx, 22)
  | .monitorxInstructionAvailable => some (.leaf81Ecx, 29)
  | .rdtscpInstructionAvailable => some (.leaf81Edx, 27)
  | .threeDNowInstructionsAvailable => some (.leaf81Edx, 31)
  | _ => none

def Leaves.bit (l : Leaves) (place : Register × Nat) : Bool := (l.register place.1).getLsbD place.2

/-- MSR, MMX, FXSR and TSC are there. -/
def Leaves.Minimum (l : Leaves) : Prop :=
  l.bit (.leaf1Edx, 5) = true ∧ l.bit (.leaf1Edx, 23) = true ∧ l.bit (.leaf1Edx, 24) = true ∧
    l.bit (.leaf1Edx, 4) = true

/-! ## Where the tests read another bit -/

/-- The sub-leaf of leaf 7 that ECX happens to select has the bit of sub-leaf 0. -/
def GetCpuid.Selects {cpuid : Cpuid} (g : GetCpuid cpuid) (reg : CpuidResult → Dword) (n : Nat) : Prop :=
  ¬Missing cpuid 7 → (reg (g.regs 7 (g.ecx 7))).getLsbD n = (reg (g.regs 7 0)).getLsbD n

/-- Bit 5 of EDX is tested for TSC, bit 0 of leaf 80000001h for SSE3, and any sub-leaf for the
features of leaf 7. -/
def GetCpuid.OwnBit {cpuid : Cpuid} (g : GetCpuid cpuid) : ProcessorFeature → Prop
  | .rdtscInstructionAvailable => (Leaves.read cpuid).bit (.leaf1Edx, 5) =
    (Leaves.read cpuid).bit (.leaf1Edx, 4)
  | .sse3InstructionsAvailable => (Leaves.read cpuid).bit (.leaf81Ecx, 0) =
    (Leaves.read cpuid).bit (.leaf1Ecx, 0)
  | .avx2InstructionsAvailable => g.Selects (·.ebx) 5
  | .avx512fInstructionsAvailable => g.Selects (·.ebx) 16
  | .rdpidInstructionAvailable => g.Selects (·.ecx) 22
  | _ => True

/-- Bits 5 and 6 of EDX are tested for TSC and MSR, in place of 4 and 5. -/
def Leaves.OwnMinimum (l : Leaves) : Prop :=
  l.bit (.leaf1Edx, 24) = true → l.bit (.leaf1Edx, 23) = true → l.bit (.leaf1Edx, 5) = true →
    l.bit (.leaf1Edx, 6) = l.bit (.leaf1Edx, 4)

/-- The banner shows whether there is SSE3. -/
def Leaves.Tells (l : Leaves) (quiet : Bool) : Prop :=
  quiet = false ∧ l.leaf1.edx &&& minimumEdx = minimumEdx ∧ AsksSse3 ⟨l.leaf1.ecx, l.leaf1.edx⟩

instance (l : Leaves) (quiet : Bool) : Decidable (l.Tells quiet) :=
  inferInstanceAs (Decidable (_ ∧ _))

variable {cpuid : Cpuid} {page : Dword → CpuidResult} {set : Settings} {host : Host} {g : GetCpuid cpuid}

theorem fcheck_iff {r : Dword} {n : Nat} (lt : n < 32) :
    fcheck r (1 <<< n) = true ↔ r.getLsbD n = true := by
  rw [fcheck, decide_eq_true_iff]
  exact Words.and_bit_ne_zero lt

/-! ## What the library reads -/

theorem leafWords_found {leaf : Dword} (found : ¬Missing cpuid leaf) :
    leafWords cpuid leaf = g.regs leaf 0 := by
  rw [leafWords, if_neg found]
  cases cpuid with
  | none => exact absurd trivial found
  | some page => exact (g.regs_zero page rfl leaf).symm

/-- What is read of a leaf is its sub-leaf 0, if ECX makes no difference. -/
theorem call_plain {leaf : Dword} (plain : ∀ ecx, g.regs leaf ecx = g.regs leaf 0) :
    g.call leaf ⟨0, 0, 0, 0⟩ = leafWords cpuid leaf := by
  by_cases missing : Missing cpuid leaf
  · rw [g.call_missing leaf _ missing, leafWords, if_pos missing]
  · rw [g.call_found leaf _ missing, leafWords_found (g := g) missing]
    exact plain _

theorem call_leaf1 : g.call 1 ⟨0, 0, 0, 0⟩ = (Leaves.read cpuid).leaf1 := call_plain g.regs_leaf1

theorem call_leaf81 : g.call 0x80000001 ⟨0, 0, 0, 0⟩ = (Leaves.read cpuid).leaf81 :=
  call_plain g.regs_leaf81

/-- A bit of leaf 7 is read right exactly where the selected sub-leaf has it. -/
theorem leaf7_iff {reg : CpuidResult → Dword} {n : Nat} (zero : reg ⟨0, 0, 0, 0⟩ = 0) (lt : n < 32) :
    ((fcheck (reg (g.call 7 ⟨0, 0, 0, 0⟩)) (1 <<< n) = true ↔
        (reg (Leaves.read cpuid).leaf7).getLsbD n = true) ↔ g.Selects reg n) := by
  rw [fcheck_iff lt, GetCpuid.Selects]
  by_cases missing : Missing cpuid 7
  · have read : (Leaves.read cpuid).leaf7 = ⟨0, 0, 0, 0⟩ := if_pos missing
    rw [g.call_missing 7 _ missing, read, zero]
    exact iff_of_true Iff.rfl fun found => absurd missing found
  · have read : (Leaves.read cpuid).leaf7 = g.regs 7 0 := leafWords_found missing
    rw [g.call_found 7 _ missing, read, ← Bool.eq_iff_iff]
    exact ⟨fun same _ => same, fun same => same missing⟩

theorem present_tsc : isProcessorFeaturePresentCPUID g.call .rdtscInstructionAvailable =
    (Leaves.read cpuid).bit (.leaf1Edx, 5) := by
  rw [Bool.eq_iff_iff, isProcessorFeaturePresentCPUID, call_leaf1]
  exact fcheck_iff (by decide)

theorem present_sse3 : isProcessorFeaturePresentCPUID g.call .sse3InstructionsAvailable =
    (Leaves.read cpuid).bit (.leaf81Ecx, 0) := by
  rw [Bool.eq_iff_iff, isProcessorFeaturePresentCPUID, call_leaf81]
  exact fcheck_iff (by decide)

/-- A feature is answered from its architectural bit exactly where `OwnBit` says so. -/
theorem present_iff (f : ProcessorFeature) {place : Register × Nat} (known : architectural f = some place) :
    (isProcessorFeaturePresentCPUID g.call f = true ↔ (Leaves.read cpuid).bit place = true) ↔
      g.OwnBit f := by
  cases f with
  | rdtscInstructionAvailable =>
      cases known
      rw [present_tsc, ← Bool.eq_iff_iff]
      rfl
  | sse3InstructionsAvailable =>
      cases known
      rw [present_sse3, ← Bool.eq_iff_iff]
      rfl
  | avx2InstructionsAvailable | avx512fInstructionsAvailable | rdpidInstructionAvailable =>
      cases known
      exact leaf7_iff rfl (by decide)
  | _ =>
      refine iff_of_true ?_ trivial
      unfold isProcessorFeaturePresentCPUID
      rw [call_leaf1, call_leaf81]
      -- the features without a bit of their own are not `known`
      first
        | cases known; exact fcheck_iff (by decide)
        | cases known

/-! ## The driver -/

theorem leaf1_none : (Leaves.read none).leaf1 = ⟨0, 0, 0, 0⟩ := rfl

theorem leaf1_some : (Leaves.read (some page)).leaf1 =
    if 1 ≤ (page 0).eax then page 1 else ⟨0, 0, 0, 0⟩ := by
  have missing : Missing (some page) 1 ↔ ¬1 ≤ (page 0).eax := by
    simp only [Missing, show (1 : Dword) &&& 0x80000000 = 0 from rfl]
    bv_omega
  rw [Leaves.read, leafWords]
  by_cases leaf : 1 ≤ (page 0).eax
  · rw [if_pos leaf, if_neg (fun out => missing.1 out leaf)]
    rfl
  · rw [if_neg leaf, if_pos (missing.2 leaf)]

theorem starts_iff : (∃ page, cpuid = some page ∧ Starts page) ↔
    (Leaves.read cpuid).leaf1.edx &&& minimumEdx = minimumEdx := by
  cases cpuid with
  | none =>
      rw [leaf1_none]
      refine iff_of_false ?_ (by decide)
      rintro ⟨page, found, -⟩
      cases found
  | some page =>
      rw [leaf1_some]
      by_cases leaf : 1 ≤ (page 0).eax
      · rw [if_pos leaf]
        constructor
        · rintro ⟨page', found, starts⟩
          cases found
          exact starts.2
        · intro minimum
          exact ⟨page, rfl, leaf, minimum⟩
      · rw [if_neg leaf]
        refine iff_of_false ?_ (by decide)
        rintro ⟨page', found, starts⟩
        cases found
        exact leaf starts.1

theorem leaf1_of_starts (starts : Starts page) : (Leaves.read (some page)).leaf1 = page 1 := by
  rw [leaf1_some, if_pos starts.1]

theorem startUp_iff : ((deviceInitProc set host).smpInitSucc = true ↔ (Leaves.read host.cpuid).Minimum) ↔
    (Leaves.read host.cpuid).OwnMinimum := by
  rw [smpInitSucc_iff, starts_iff, covers_minimum, Leaves.Minimum, Leaves.OwnMinimum]
  simp only [Leaves.bit, Leaves.register]
  generalize (Leaves.read host.cpuid).leaf1.edx = edx
  cases edx.getLsbD 24 <;> cases edx.getLsbD 23 <;> cases edx.getLsbD 5 <;>
    cases edx.getLsbD 6 <;> cases edx.getLsbD 4 <;> decide

theorem asksSse3_cpuid (leaf : Leaf1) (c : Cpu) : AsksSse3 (Boot.cpuid leaf c) ↔ AsksSse3 leaf := by
  rw [AsksSse3, AsksSse3, cpuid_ecx_and (by decide), cpuid_ecx_and (by decide)]
  rfl

/-- The banner that a run of the driver leaves. -/
theorem alertedSse3_device : alertedSse3 (deviceInitProc set host).alerts =
    if (Leaves.read host.cpuid).Tells set.quiet then some ((Leaves.read host.cpuid).bit (.leaf1Ecx, 0))
    else none := by
  by_cases started : ∃ page, host.cpuid = some page ∧ Starts page
  · have minimum := starts_iff.1 started
    obtain ⟨page, found, starts⟩ := started
    rw [deviceInitProc_of_starts found starts]
    simp only [found] at minimum ⊢
    cases quiet : set.quiet with
    | true =>
        have silent : ¬(Leaves.read (some page)).Tells true := fun tells => Bool.noConfusion tells.1
        rw [if_pos rfl, if_neg silent]
        rfl
    | false =>
        obtain ⟨c, flags⟩ := bootSimd_cpuFlags (leaf1Of page) host.vmmVer (set.noavx || set.nosse)
          set.nosse host.cr4 host.xcr0
        rw [if_neg Bool.false_ne_true, alertedSse3_banner, Host.simd, flags]
        have asks : AsksSse3 (Boot.cpuid (leaf1Of page) c) ↔ (Leaves.read (some page)).Tells false := by
          rw [asksSse3_cpuid, Leaves.Tells, leaf1_of_starts starts, and_iff_right rfl,
            and_iff_right starts.2]
          rfl
        have bit : (decide ((Boot.cpuid (leaf1Of page) c).ecx &&& cpuidEcxSse3 ≠ 0)) =
            (Leaves.read (some page)).bit (.leaf1Ecx, 0) := by
          rw [cpuid_ecx_and (by decide), Leaves.bit, Leaves.register, leaf1_of_starts starts,
            Bool.eq_iff_iff, decide_eq_true_iff]
          exact Words.and_bit_ne_zero (by decide)
        simp only [asks, bit]
  · have silent : ¬(Leaves.read host.cpuid).Tells set.quiet :=
      fun tells => started (starts_iff.2 tells.2.1)
    obtain ⟨simd, format, text, refused⟩ := @deviceInitProc_refused set host started
    rw [refused, if_neg silent, Device.refused]
    cases set.quiet with
    | true => rfl
    | false =>
        have mute : ∀ text ∈ refusals, alertedSse3 [⟨text, []⟩] = none := by decide
        exact mute format text

/-- A feature is answered from its architectural bit, the start-up test passes exactly with
the features it names, and the banner agrees with the library on SSE3, each exactly where the
bit that is read instead is the same. -/
theorem feature_bits (set : Settings) (host : Host) (g : GetCpuid host.cpuid) :
    (∀ f place, architectural f = some place →
      ((isProcessorFeaturePresentCPUID g.call f = true ↔ (Leaves.read host.cpuid).bit place = true) ↔
        g.OwnBit f)) ∧
    (((deviceInitProc set host).smpInitSucc = true ↔ (Leaves.read host.cpuid).Minimum) ↔
      (Leaves.read host.cpuid).OwnMinimum) ∧
    ((∀ told, alertedSse3 (deviceInitProc set host).alerts = some told →
        told = isProcessorFeaturePresentCPUID g.call .sse3InstructionsAvailable) ↔
      ((Leaves.read host.cpuid).Tells set.quiet → g.OwnBit .sse3InstructionsAvailable)) := by
  refine ⟨fun f place known => present_iff f known, startUp_iff, ?_⟩
  rw [alertedSse3_device, present_sse3]
  by_cases tells : (Leaves.read host.cpuid).Tells set.quiet
  · rw [if_pos tells]
    constructor
    · intro agrees _
      exact (agrees _ rfl).symm
    · intro own told same
      cases same
      exact (own tells).symm
  · rw [if_neg tells]
    refine iff_of_true ?_ (fun asked => absurd asked tells)
    intro told none
    cases none

/-- A processor on which leaf 7 has the sub-leaves `leaf7`, and ECX holds `ecx`. -/
def onProcessor (page leaf7 : Dword → CpuidResult) (zero : leaf7 0 = page 7) (ecx : Dword) :
    GetCpuid (some page) where
  regs leaf ecx := if leaf = 7 then leaf7 ecx else page leaf
  regs_zero := by
    intro page' same leaf
    cases same
    split
    · rename_i leaf
      rw [leaf, zero]
    · rfl
  regs_leaf1 _ := rfl
  regs_leaf81 _ := rfl
  call leaf result := if Missing (some page) leaf then result else if leaf = 7 then leaf7 ecx else page leaf
  ecx _ := ecx
  call_missing _ _ missing := if_pos missing
  call_found _ _ found := if_neg found

/-- The leaves of a processor without the extended features. -/
def plainPage (ecx edx leaf : Dword) : CpuidResult :=
  if leaf = 0 then ⟨5, 0, 0, 0⟩
  else if leaf = 1 then ⟨0, 0, ecx, edx⟩
  else if leaf = 0x80000000 then ⟨0x80000004, 0, 0, 0⟩
  else ⟨0, 0, 0, 0⟩

/-- With SSE3, and without the bit of LAHF in leaf 80000001h. -/
def prescott : Host := ⟨some (plainPage 0x441D 0xBFEBFBFF), 0x40A, 0, 1, false, 1⟩

/-- With MSR, MMX, FXSR and TSC, and without PAE. -/
def banias : Host := ⟨some (plainPage 0x180 0xA7E9F9BF), 0x40A, 0, 1, false, 1⟩

def haswellPage (leaf : Dword) : CpuidResult :=
  if leaf = 0 then ⟨0xD, 0, 0, 0⟩
  else if leaf = 1 then ⟨0, 0, 0x7FFAFBFF, 0xBFEBFBFF⟩
  else if leaf = 7 then ⟨0, 0x27AB, 0, 0⟩
  else ⟨0, 0, 0, 0⟩

/-- With AVX2. -/
def haswell : Host := ⟨some haswellPage, 0x40A, 0, 1, false, 1⟩

/-- Leaf 7 has one sub-leaf only. -/
def onHaswell (ecx : Dword) : GetCpuid haswell.cpuid :=
  onProcessor haswellPage (fun ecx => if ecx = 0 then haswellPage 7 else ⟨0, 0, 0, 0⟩) rfl ecx

/-- With ECX zero AVX2 is found. -/
theorem feature_bits_cleared :
    isProcessorFeaturePresentCPUID (onHaswell 0).call .avx2InstructionsAvailable = true := by
  have own : (onHaswell 0).OwnBit .avx2InstructionsAvailable := fun _ => rfl
  have there : (Leaves.read haswell.cpuid).bit (.leaf7Ebx, 5) = true := by decide
  exact (((feature_bits ⟨false, false, false, 1⟩ haswell (onHaswell 0)).1 .avx2InstructionsAvailable
    (.leaf7Ebx, 5) rfl).2 own).2 there

theorem feature_bits_misread :
    (¬∀ cpuid (g : GetCpuid cpuid) f place, architectural f = some place →
      (isProcessorFeaturePresentCPUID g.call f = true ↔ (Leaves.read cpuid).bit place = true)) ∧
    (¬∀ set host, (deviceInitProc set host).smpInitSucc = true ↔ (Leaves.read host.cpuid).Minimum) ∧
    (¬∀ set host (g : GetCpuid host.cpuid) told, alertedSse3 (deviceInitProc set host).alerts = some told →
      told = isProcessorFeaturePresentCPUID g.call .sse3InstructionsAvailable) ∧
    ¬∀ cpuid (g : GetCpuid cpuid), isProcessorFeaturePresentCPUID g.call .avx2InstructionsAvailable = true ↔
      (Leaves.read cpuid).bit (.leaf7Ebx, 5) = true := by
  let onPrescott : GetCpuid prescott.cpuid :=
    onProcessor (plainPage 0x441D 0xBFEBFBFF) (fun _ => plainPage 0x441D 0xBFEBFBFF 7) rfl 0
  refine ⟨?_, ?_, ?_, ?_⟩
  · intro all
    have wrong := all _ onPrescott .sse3InstructionsAvailable (.leaf1Ecx, 0) rfl
    revert wrong
    decide
  · intro all
    have wrong := all ⟨false, false, false, 1⟩ banias
    have there : (Leaves.read banias.cpuid).Minimum := ⟨by decide, by decide, by decide, by decide⟩
    have succ := wrong.2 there
    revert succ
    decide
  · intro all
    have wrong := all ⟨false, false, false, 1⟩ prescott onPrescott true (by decide)
    revert wrong
    decide
  · intro all
    -- `cpuid` of leaf 0, by which the maximum is read, leaves four letters of its vendor in ECX
    have wrong := all _ (onHaswell 0x6C65746E)
    revert wrong
    decide

end SmpVxd.Features
