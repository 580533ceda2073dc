import SmpVxd.X86.Soundness
import SmpVxd.ApKernel.Code
import Mathlib.Tactic.IntervalCases

/-!
# Context switches of an AP

The path of a thread's registers to an AP and back, on the code: the copy of
`switch_to_ap`, `_switchtask`, the thread in ring 3, an interrupt handler with
`switch_back`, and the copy of `switch_to_bsp`. The functions `switchTask` and
`switchBack` on register structures are what the code computes.
-/

namespace SmpVxd.ApKernel

open X86

/-! ## Register structures in memory -/

/-- The part of a client register structure that is copied. -/
def readCrs (m : Mem) (p : Word) : Crs where
  clientEdi := m.read (p + clientEdi)
  clientEsi := m.read (p + clientEsi)
  clientEbp := m.read (p + clientEbp)
  dwReserved1 := m.read (p + dwReserved1)
  clientEbx := m.read (p + clientEbx)
  clientEdx := m.read (p + clientEdx)
  clientEcx := m.read (p + clientEcx)
  clientEax := m.read (p + clientEax)
  clientError := m.read (p + clientError)
  clientEip := m.read (p + clientEip)
  clientCs := m.read (p + clientCs)
  clientEFlags := m.read (p + clientEFlags)
  clientEsp := m.read (p + clientEsp)
  clientSs := m.read (p + clientSs)
  clientEs := m.read (p + clientEs)
  clientDs := m.read (p + clientDs)
  clientFs := m.read (p + clientFs)
  clientGs := m.read (p + clientGs)

def crs32EfectiveSize : Nat := 0x48

theorem readCrs_copy (m : Mem) (dst src : Word) :
    readCrs (m.copy dst src crs32EfectiveSize) dst = readCrs m src := by
  have field (k : Word) (hk : k.toNat + 4 ≤ crs32EfectiveSize) :
      (m.copy dst src crs32EfectiveSize).read (dst + k) = m.read (src + k) := Mem.read_copy src hk
  simp only [readCrs, Crs.mk.injEq]
  and_intros <;> exact field _ (by decide)

theorem readCrs_agree {m m' : Mem} {p : Word} (h : AgreeOn p crs32EfectiveSize m m') :
    readCrs m' p = readCrs m p := by
  have field (k : Word) (hk : k.toNat + 4 ≤ crs32EfectiveSize) : m'.read (p + k) = m.read (p + k) :=
    h.read hk
  simp only [readCrs, Crs.mk.injEq]
  and_intros <;> exact field _ (by decide)

/-- The registers of a thread. -/
def userRegs {ξ : Type} (s : State ξ) : UserRegs where
  eax := s.reg .eax
  ecx := s.reg .ecx
  edx := s.reg .edx
  ebx := s.reg .ebx
  esp := s.reg .esp
  ebp := s.reg .ebp
  esi := s.reg .esi
  edi := s.reg .edi
  eip := s.eip
  eflags := s.eflags

/-! ## The pages of an AP -/

/-- The kernel page, the table and the pages of the AP with an APIC id. -/
structure Pages where
  kernel : Word
  ttable : Word
  data : Word
  stack : Word
  apid : BitVec 8
  kernel_ttable : Apart kernel 0x1000 ttable 0x1000
  kernel_data : Apart kernel 0x1000 data 0x2000
  kernel_stack : Apart kernel 0x1000 stack 0x8000
  ttable_data : Apart ttable 0x1000 data 0x2000
  ttable_stack : Apart ttable 0x1000 stack 0x8000
  data_stack : Apart data 0x2000 stack 0x8000

namespace Pages

variable (a : Pages)

/-- `ttable[apid]`. -/
def titem : Word := a.ttable + (a.apid.setWidth 32 <<< 3)

def esp0 : Word := a.stack + stackOffTss

def procState : Word := a.data + tdataProcState

/-- A stack pointer of the AP kernel outside of interrupt handlers, with place for the
frames of `_switchtask` and `switch_back`. -/
def OnKernelStack (esp : Word) : Prop :=
  56 ≤ (esp - a.stack).toNat ∧ (esp - a.stack).toNat ≤ stackOffKernel.toNat

/-- What `smp_init` and `_kernel_boot` have stored. -/
structure SetUp (m : Mem) : Prop where
  ttable : m.read (a.kernel + ApKernel.ttable) = a.ttable
  data : m.read (a.titem + 4) = a.data
  esp0 : m.read (a.data + (tdataProcTss + 4)) = a.esp0
  initEsp : a.OnKernelStack (m.read (a.data + (tdataInitState + clientEsp)))

/-- Everything the switches rely on is the same. -/
structure Kept (m m' : Mem) : Prop where
  kernel : AgreeOn a.kernel 0x1000 m m'
  ttable : AgreeOn a.ttable 0x1000 m m'
  data : AgreeOn (a.data + tdataInitState) 384 m m'

theorem titem_inside : (a.titem - a.ttable).toNat + 8 ≤ 0x1000 := by
  have small := a.apid.isLt
  have entry : (a.apid.setWidth 32 <<< 3).toNat = a.apid.toNat * 8 := by
    simp only [BitVec.toNat_shiftLeft, BitVec.toNat_setWidth, Nat.shiftLeft_eq]
    omega
  have offset : a.titem - a.ttable = a.apid.setWidth 32 <<< 3 := by
    rw [titem, BitVec.add_comm, BitVec.add_sub_cancel]
  rw [offset, entry]
  omega

theorem self_inside {p : Word} {n k : Nat} (h : n ≤ k) : (p - p).toNat + n ≤ k := by simpa using h

end Pages

/-! ## `_switchtask` -/

section Switchtask

/-- The entry of `ttable` as the code computes it. -/
def titemExp : Exp :=
  .op .add (.load 0 ttable) (.op .shl (.op .shr (.cpuid 0 1 .ebx) (.lit 24)) (.lit 3))

/-- Regions: the kernel page, the entry of the table, `tdata` with the area of the
extended state behind it, and the frame of `_switchtask`. -/
def switchtaskLayout : Layout where
  regions := [(0x70C, 0x1000), (8, 8), (576, 2112), (52, 52)]
  facts := [(titemExp, 1, 0), (.load 1 4, 2, 0)]
  volatile := 0
  ext := 1536

def switchtaskView : View where
  reg r := if r = .esp then .eq (.op .add (.var 3) (.lit 52)) else .any
  eip := .op .add (.var 0) (.lit switchtask)
  flags := none
  status := .unknown
  up := false
  seg g := if g = .cs then some 8 else none
  cr3 := .any
  cells := []
  path := []
  count := 0

/-- A field of `proc_state`. -/
def proc (k : Word) : Exp := .load 2 (tdataProcState + k)

/-- Nothing is known to be written outside of the region. -/
def writesOnly (x : Nat) (A : View) : Bool := A.cells.all fun c => c.1.1 == x

def switchtaskPost (A : View) : Bool :=
  A.eip = proc clientEip && A.reg .eax = .eq (proc clientEax) && A.reg .ecx = .eq (proc clientEcx) &&
    A.reg .edx = .eq (proc clientEdx) && A.reg .ebx = .eq (proc clientEbx) &&
    A.reg .esp = .eq (proc clientEsp) && A.reg .ebp = .eq (proc clientEbp) &&
    A.reg .esi = .eq (proc clientEsi) && A.reg .edi = .eq (proc clientEdi) &&
    A.flags = some (.op .and (.op .or (proc clientEFlags) (.lit eflagsSet)) (.lit (~~~eflagsClr))) &&
    A.seg .cs = some 0x1B && writesOnly 3 A

theorem switchtask_verified :
    verify switchtaskLayout code plain switchtaskPost 80 switchtaskView = true := by
  decide +kernel

variable {ξ : Type} {a : Pages} {s : State ξ}

/-- The AP is about to execute `_switchtask` in its kernel. -/
structure AtSwitchtask (a : Pages) (s : State ξ) : Prop where
  eip : s.eip = a.kernel + switchtask
  ring : s.seg .cs = 8
  esp : a.OnKernelStack (s.reg .esp)
  apid : (s.cpuid 1).ebx >>> 24 = a.apid.setWidth 32
  setUp : a.SetUp s.mem

def switchtaskEnv (a : Pages) (s : State ξ) : Env where
  var
    | 0 => a.kernel
    | 1 => a.titem
    | 2 => a.data
    | _ => s.reg .esp - 52
  mem := s.mem
  seen := []

theorem switchtask_fits (entry : AtSwitchtask a s) :
    switchtaskView.Fits switchtaskLayout (switchtaskEnv a s) s where
  reg r := by
    by_cases h : r = .esp
    · subst h
      exact congrArg some (BitVec.sub_add_cancel (s.reg .esp) 52)
    · simp [switchtaskView, h, Value.Denotes]
  eip := congrArg some entry.eip.symm
  flags := trivial
  status := trivial
  up h := by cases h
  seg g v h := by
    by_cases cs : g = .cs
    · subst cs
      exact entry.ring.trans (Option.some.inj h)
    · simp [switchtaskView, cs] at h
  cr3 := trivial
  mem _ _ := rfl
  path _ h := absurd h List.not_mem_nil
  count := rfl

/-- The entry of `ttable` is where the code computes it to be. -/
theorem titemExp_sound {ρ : Env} (setUp : a.SetUp ρ.mem) (kernel : ρ.var 0 = a.kernel)
    {cpuid : Word → CpuidRegs} (apid : (cpuid 1).ebx >>> 24 = a.apid.setWidth 32)
    (seen : ∀ c ∈ ρ.seen, c = cpuid) {v : Word} (h : titemExp.eval ρ = some v) : v = a.titem := by
  cases answer : ρ.seen[0]? with
  | none => simp [titemExp, Exp.eval, answer] at h
  | some c =>
      cases seen c (List.mem_of_getElem? answer)
      simp only [titemExp, Exp.eval, answer, kernel, setUp.ttable, Option.map_some, Option.bind_some,
        Option.some.injEq] at h
      rw [← h, Pages.titem, ← apid]
      rfl

theorem switchtask_valid (entry : AtSwitchtask a s) (seen : List (Word → CpuidRegs))
    (answers : ∀ c ∈ seen, c = s.cpuid) :
    switchtaskLayout.Valid { switchtaskEnv a s with seen := seen } where
  tracked x := by
    match x with
    | 0 | 1 | 2 | 3 => decide
    | x + 4 => exact Nat.le_refl 0
  ordered y hy x hx := by
    have esp : (s.reg .esp - 52 - a.stack).toNat + 52 ≤ 0x8000 := by
      obtain ⟨low, high⟩ := entry.esp
      have top : stackOffKernel.toNat = 0x3FFC := rfl
      bv_omega
    have four : y < 4 := hy
    interval_cases y <;> interval_cases x
    · exact a.kernel_ttable.sub (Pages.self_inside (by decide)) a.titem_inside (by decide) (by decide)
    · exact a.kernel_data.sub (Pages.self_inside (by decide)) (Pages.self_inside (by decide))
        (by decide) (by decide)
    · exact a.ttable_data.sub a.titem_inside (Pages.self_inside (by decide)) (by decide) (by decide)
    · exact a.kernel_stack.sub (Pages.self_inside (by decide)) esp (by decide) (by decide)
    · exact a.ttable_stack.sub a.titem_inside esp (by decide) (by decide)
    · exact a.data_stack.sub (Pages.self_inside (by decide)) esp (by decide) (by decide)
  facts f hf v hv := by
    obtain rfl | hf := List.mem_cons.mp hf
    · have titem := titemExp_sound (a := a) entry.setUp rfl entry.apid answers hv
      exact titem.trans (BitVec.add_zero a.titem).symm
    · cases List.mem_singleton.mp hf
      have data : s.mem.read (a.titem + 4) = v := Option.some.inj hv
      exact (data.symm.trans entry.setUp.data).trans (BitVec.add_zero a.data).symm

theorem Pages.procState_add (a : Pages) (k : Word) : a.procState + k = a.data + (tdataProcState + k) :=
  BitVec.add_assoc ..

/-- A word that no write is known of is the one at the start. -/
theorem word_of_writesOnly {A : View} {x : Nat} {c : Nat × Word} (h : writesOnly x A = true)
    (ne : c.1 ≠ x) : A.word c = .eq (.load c.1 c.2) := by
  have none : A.cells.find? (·.1 = c) = none := by
    refine List.find?_eq_none.mpr fun f hf same => ne ?_
    have only := List.all_eq_true.mp h f hf
    simp only [decide_eq_true_eq] at same
    simpa [same] using only
  simp only [View.word, none]

/-- `_switchtask` installs `proc_state` in ring 3. -/
theorem switchtask_run [ExtUnit ξ] (ext : ExtUnit.size ξ ≤ 1536) (entry : AtSwitchtask a s) :
    ∃ n s', run a.kernel code n s = some s' ∧ s'.cpuid = s.cpuid ∧ s'.cpl = 3 ∧
      userRegs s' = switchTask (readCrs s.mem a.procState) ∧
      readCrs s'.mem a.procState = readCrs s.mem a.procState ∧ a.SetUp s'.mem := by
  obtain ⟨n, s', ran, cpu, B, seen, post, -, fits⟩ :=
    verify_sound ext (switchtask_valid entry) (fun _ h => absurd h List.not_mem_nil) (switchtask_fits entry)
      switchtask_verified
  simp only [switchtaskPost, Bool.and_eq_true, decide_eq_true_eq] at post
  obtain ⟨⟨⟨⟨⟨⟨⟨⟨⟨⟨⟨eip, eax⟩, ecx⟩, edx⟩, ebx⟩, esp⟩, ebp⟩, esi⟩, edi⟩, eflags⟩, cs⟩, only⟩ := post
  have same {c : Nat × Word} (tracked : switchtaskLayout.Tracked c) (ne : c.1 ≠ 3) :
      s'.mem.read ((switchtaskEnv a s).var c.1 + c.2) = s.mem.read ((switchtaskEnv a s).var c.1 + c.2) := by
    have word := fits.mem c tracked
    rw [word_of_writesOnly only ne] at word
    exact (Option.some.inj word).symm
  have field {k v : Word} (h : some (s.mem.read (a.data + (tdataProcState + k))) = some v) :
      v = s.mem.read (a.procState + k) := by
    rw [a.procState_add]
    exact (Option.some.inj h).symm
  refine ⟨n, s', ran, cpu, ?_, ?_, ?_, ?_⟩
  · simp [State.cpl, fits.seg _ _ cs]
  · simp only [userRegs, switchTask, UserRegs.mk.injEq]
    refine ⟨field (fits.reg_eq eax), field (fits.reg_eq ecx), field (fits.reg_eq edx),
      field (fits.reg_eq ebx), field (fits.reg_eq esp), field (fits.reg_eq ebp),
      field (fits.reg_eq esi), field (fits.reg_eq edi), field ?_, ?_⟩
    · rw [← fits.eip, eip]
      rfl
    · have flags : (s.mem.read (a.data + (tdataProcState + clientEFlags)) ||| eflagsSet) &&& ~~~eflagsClr =
          s'.eflags := Option.some.inj (fits.eflags_eq rfl eflags)
      rw [← a.procState_add] at flags
      exact flags.symm
  · have field (k : Word) (hk : switchtaskLayout.Tracked (2, tdataProcState + k)) :
        s'.mem.read (a.procState + k) = s.mem.read (a.procState + k) := by
      rw [a.procState_add]
      exact same (c := (2, tdataProcState + k)) hk (show 2 ≠ 3 by decide)
    simp only [readCrs, Crs.mk.injEq]
    and_intros <;> exact field _ (by decide)
  · have setUp := entry.setUp
    exact {
      ttable := (same (c := (0, ttable)) (by decide) (by decide)).trans setUp.ttable
      data := (same (c := (1, 4)) (by decide) (by decide)).trans setUp.data
      esp0 := (same (c := (2, tdataProcTss + 4)) (by decide) (by decide)).trans setUp.esp0
      initEsp := (same (c := (2, tdataInitState + clientEsp)) (by decide) (by decide)).symm ▸ setUp.initEsp }

end Switchtask

/-! ## The interrupt handlers and `switch_back` -/

section SwitchBack

/-- The handler of a trap in the interrupt table. -/
def gate (kernel : Word) : Trap → Gate
  | .error => ⟨8, kernel + errorIsr, true⟩
  | .errorCode => ⟨8, kernel + errorIsrCode, true⟩
  | .int3 => ⟨8, kernel + int3Isr, false⟩

/-- The error code that the processor pushes. -/
def errorCode (error : Word) : Trap → Option Word
  | .errorCode => some error
  | _ => none

/-- The processor enters the handler. -/
def enterIsr {ξ : Type} (a : Pages) (trap : Trap) (error : Word) (s : State ξ) : State ξ :=
  s.interrupt (a.data + tdataProcTss) (gate a.kernel trap) (errorCode error trap)

/-- Regions: as for `_switchtask`, with the frame of the handler and the one on the
stack of `init_state`. -/
def isrLayout : Layout where
  regions := [(0x70C, 0x1000), (8, 8), (576, 2112), (60, 60), (44, 44)]
  facts := [(titemExp, 1, 0), (.load 1 4, 2, 0), (.load 2 (tdataInitState + clientEsp), 4, 44)]
  volatile := 0
  ext := 1536

/-- The view at an entry, with ESP at an offset of the frame. -/
def isrView (entry esp : Word) : View where
  reg
    | .eax => .eq (.var 5)
    | .ecx => .eq (.var 6)
    | .edx => .eq (.var 7)
    | .ebx => .eq (.var 8)
    | .esp => .eq (.op .add (.var 3) (.lit esp))
    | .ebp => .eq (.var 9)
    | .esi => .eq (.var 10)
    | .edi => .eq (.var 11)
  eip := .op .add (.var 0) (.lit entry)
  flags := none
  status := .unknown
  up := false
  seg g := if g = .cs then some 8 else none
  cr3 := .any
  cells := []
  path := []
  count := 0

/-- EIP, EFLAGS and ESP in the frame that the processor has pushed. -/
def frameEip : Exp := .load 3 40
def frameEflags : Exp := .load 3 48
def frameEsp : Exp := .load 3 52

/-- What `switch_back` leaves in the fields of `proc_state`. -/
def switchBackFields (eip : Exp) : List (Word × Exp) :=
  [(clientEdi, .var 11), (clientEsi, .var 10), (clientEbp, .var 9),
   (dwReserved1, .op .add (.var 3) (.lit 36)), (clientEbx, .var 8), (clientEdx, .var 7),
   (clientEcx, .var 6), (clientEax, .var 5), (clientError, proc clientError), (clientEip, eip),
   (clientCs, proc clientCs),
   (clientEFlags, .op .or (.op .and frameEflags (.lit (~~~eflagsMask)))
      (.op .and (proc clientEFlags) (.lit eflagsMask))),
   (clientEsp, frameEsp), (clientSs, proc clientSs), (clientEs, proc clientEs),
   (clientDs, proc clientDs), (clientFs, proc clientFs), (clientGs, proc clientGs)]

def switchedBack (eip : Exp) (A : View) : Bool :=
  (switchBackFields eip).all fun f => A.word (2, tdataProcState + f.1) = .eq f.2

/-- The tests of `_int3_isr` on EIP. -/
def belowLand : FlagStatus := .sub frameEip (.op .add (.var 0) (.lit land))
def belowEnd : FlagStatus := .sub frameEip (.op .add (.var 0) (.lit (land + fnBlockSize)))

def int3Post (A : View) : Bool :=
  (switchedBack frameEip A && (belowLand, Cond.b, false) ∈ A.path && (belowEnd, Cond.ae, false) ∈ A.path) ||
  (switchedBack (.op .add frameEip (.lit (-1))) A &&
    ((belowLand, Cond.b, true) ∈ A.path || (belowEnd, Cond.ae, true) ∈ A.path))

theorem errorIsr_verified :
    verify isrLayout code plain (switchedBack frameEip) 80 (isrView errorIsr 40) = true := by
  decide +kernel

theorem errorIsrCode_verified :
    verify isrLayout code plain (switchedBack frameEip) 80 (isrView errorIsrCode 36) = true := by
  decide +kernel

theorem int3Isr_verified :
    verify isrLayout code plain int3Post 80 (isrView int3Isr 40) = true := by
  decide +kernel

variable {ξ : Type} {a : Pages} {s : State ξ} {m m' : Mem} {trap : Trap} {error : Word}

namespace Pages

theorem SetUp.kept (setUp : a.SetUp m) (h : a.Kept m m') : a.SetUp m' where
  ttable := (h.kernel.read (by decide)).trans setUp.ttable
  data := by
    have inside := a.titem_inside
    have offset : a.titem - a.ttable = a.apid.setWidth 32 <<< 3 := by
      rw [titem, BitVec.add_comm, BitVec.add_sub_cancel]
    rw [offset] at inside
    exact ((h.ttable.sub (k := 8) inside).read (i := 4) (by decide)).trans setUp.data
  esp0 := by
    have same := h.data.read (i := 260) (by decide)
    rw [BitVec.add_assoc] at same
    exact same.trans setUp.esp0
  initEsp := by
    have same := h.data.read (i := clientEsp) (by decide)
    rw [BitVec.add_assoc] at same
    exact same.symm ▸ setUp.initEsp

theorem Kept.readCrs (h : a.Kept m m') : readCrs m' a.procState = readCrs m a.procState := by
  have agree := h.data.sub (i := 128) (k := crs32EfectiveSize) (by decide)
  rw [BitVec.add_assoc] at agree
  exact readCrs_agree agree

end Pages

/-- The state after the entry of a handler, with the words of its frame. -/
def entered (a : Pages) (g : Gate) (frame : List Word) (s : State ξ) : State ξ :=
  s.enter (a.data + tdataProcTss) g frame

variable {g : Gate} {frame : List Word} {entry off : Word}

theorem Pages.SetUp.read_esp0 (setUp : a.SetUp m) : m.read (a.data + tdataProcTss + 4) = a.esp0 := by
  rw [BitVec.add_assoc]
  exact setUp.esp0

/-- The frame of the handler is on the AP's own stack. -/
theorem entered_kept (setUp : a.SetUp s.mem) (pos : 0 < frame.length) (small : frame.length ≤ 6) :
    a.Kept s.mem (entered a g frame s).mem := by
  have inside : (a.esp0 - BitVec.ofNat 32 (4 * frame.length) - a.stack).toNat + 4 * frame.length ≤ 0x8000 := by
    have top : a.esp0 = a.stack + 0x7FFC := rfl
    bv_omega
  have keeps {p q : Word} {n k : Nat} (apart : Apart p n a.stack 0x8000) (part : (q - p).toNat + k ≤ n)
      (hk : 0 < k) : AgreeOn q k s.mem (entered a g frame s).mem := by
    refine State.enter_agree (by omega) ?_
    rw [setUp.read_esp0]
    exact apart.sub part inside hk (by omega)
  refine ⟨keeps a.kernel_stack (Pages.self_inside (by decide)) (by decide),
    keeps a.ttable_stack (Pages.self_inside (by decide)) (by decide),
    keeps a.data_stack ?_ (by decide)⟩
  have offset : a.data + tdataInitState - a.data = tdataInitState := by
    rw [BitVec.add_comm, BitVec.add_sub_cancel]
  rw [offset]
  decide

def isrEnv (a : Pages) (s : State ξ) (m : Mem) : Env where
  var
    | 0 => a.kernel
    | 1 => a.titem
    | 2 => a.data
    | 3 => a.esp0 - 60
    | 4 => m.read (a.data + (tdataInitState + clientEsp)) - 44
    | 5 => s.reg .eax
    | 6 => s.reg .ecx
    | 7 => s.reg .edx
    | 8 => s.reg .ebx
    | 9 => s.reg .ebp
    | 10 => s.reg .esi
    | _ => s.reg .edi
  mem := m
  seen := []

theorem isr_fits (setUp : a.SetUp s.mem) (selector : g.selector = 8) (offset : g.offset = a.kernel + entry)
    (hoff : a.esp0 - 60 + off = a.esp0 - BitVec.ofNat 32 (4 * frame.length)) :
    (isrView entry off).Fits isrLayout (isrEnv a s (entered a g frame s).mem) (entered a g frame s) where
  reg r := by
    cases r with
    | esp =>
        have esp : (entered a g frame s).reg .esp = a.esp0 - 60 + off := by
          rw [hoff, ← setUp.read_esp0]
          exact State.enter_esp
        exact congrArg some esp.symm
    | _ => exact congrArg some (State.enter_reg (by decide)).symm
  eip := congrArg some offset.symm
  flags := trivial
  status := trivial
  up h := by cases h
  seg r v h := by
    by_cases cs : r = .cs
    · subst cs
      exact (State.enter_cs.trans selector).trans (Option.some.inj h)
    · simp [isrView, cs] at h
  cr3 := trivial
  mem _ _ := rfl
  path _ h := absurd h List.not_mem_nil
  count := rfl

theorem isr_valid (setUp : a.SetUp m) {cpuid : Word → CpuidRegs}
    (apid : (cpuid 1).ebx >>> 24 = a.apid.setWidth 32) (seen : List (Word → CpuidRegs))
    (answers : ∀ c ∈ seen, c = cpuid) : isrLayout.Valid { isrEnv a s m with seen := seen } where
  tracked x := by
    match x with
    | 0 | 1 | 2 | 3 | 4 => decide
    | x + 5 => exact Nat.le_refl 0
  ordered y hy x hx := by
    have top : stackOffKernel.toNat = 0x3FFC := rfl
    have esp0 : (a.esp0 - 60 - a.stack).toNat = 0x7FC0 := by
      have top : a.esp0 = a.stack + 0x7FFC := rfl
      bv_omega
    obtain ⟨low, high⟩ := setUp.initEsp
    generalize hesp : m.read (a.data + (tdataInitState + clientEsp)) = esp at low high
    have frame : (a.esp0 - 60 - a.stack).toNat + 60 ≤ 0x8000 := by omega
    have init : (esp - 44 - a.stack).toNat + 44 ≤ 0x8000 := by bv_omega
    have five : y < 5 := hy
    interval_cases y <;> interval_cases x
    · exact a.kernel_ttable.sub (Pages.self_inside (by decide)) a.titem_inside (by decide) (by decide)
    · exact a.kernel_data.sub (Pages.self_inside (by decide)) (Pages.self_inside (by decide))
        (by decide) (by decide)
    · exact a.ttable_data.sub a.titem_inside (Pages.self_inside (by decide)) (by decide) (by decide)
    · exact a.kernel_stack.sub (Pages.self_inside (by decide)) frame (by decide) (by decide)
    · exact a.ttable_stack.sub a.titem_inside frame (by decide) (by decide)
    · exact a.data_stack.sub (Pages.self_inside (by decide)) frame (by decide) (by decide)
    all_goals change Apart _ _ (m.read (a.data + (tdataInitState + clientEsp)) - 44) _; rw [hesp]
    · exact a.kernel_stack.sub (Pages.self_inside (by decide)) init (by decide) (by decide)
    · exact a.ttable_stack.sub a.titem_inside init (by decide) (by decide)
    · exact a.data_stack.sub (Pages.self_inside (by decide)) init (by decide) (by decide)
    · change Apart (a.esp0 - 60) 60 _ 44
      constructor <;> bv_omega
  facts f hf v hv := by
    obtain rfl | hf := List.mem_cons.mp hf
    · have titem := titemExp_sound (a := a) setUp rfl apid answers hv
      exact titem.trans (BitVec.add_zero a.titem).symm
    obtain rfl | hf := List.mem_cons.mp hf
    · have data : m.read (a.titem + 4) = v := Option.some.inj hv
      exact (data.symm.trans setUp.data).trans (BitVec.add_zero a.data).symm
    · cases List.mem_singleton.mp hf
      have esp : m.read (a.data + (tdataInitState + clientEsp)) = v := Option.some.inj hv
      exact esp.symm.trans (BitVec.sub_add_cancel _ 44).symm

/-- The words in the frame that `switch_back` takes. -/
structure Framed (a : Pages) (s : State ξ) (m : Mem) : Prop where
  eip : m.read (a.esp0 - 60 + 40) = s.eip
  eflags : m.read (a.esp0 - 60 + 48) = s.eflags
  esp : m.read (a.esp0 - 60 + 52) = s.reg .esp

theorem entered_framed (setUp : a.SetUp s.mem) {code : Option Word} (h : frame = s.trapFrame code) :
    Framed a s (entered a g frame s).mem := by
  have length : 5 ≤ frame.length ∧ frame.length ≤ 6 := by
    subst h
    cases code <;> simp [State.trapFrame]
  have read {i : Nat} (hi : i < frame.length) :
      (entered a g frame s).mem.read (a.esp0 - BitVec.ofNat 32 (4 * (i + 1))) = frame[i] := by
    rw [← setUp.read_esp0]
    exact State.enter_read (by omega) hi
  have eip := read (i := 4) (by omega)
  have eflags := read (i := 2) (by omega)
  have esp := read (i := 1) (by omega)
  have offset (k j : Word) (hk : k - 60 = -j) : a.esp0 - 60 + k = a.esp0 - j := by
    rw [BitVec.sub_eq_add_neg, BitVec.add_assoc, BitVec.add_comm (-60) k, ← BitVec.sub_eq_add_neg k, hk,
      ← BitVec.sub_eq_add_neg]
  simp only [h] at eip eflags esp
  exact {
    eip := by rw [offset 40 20 rfl]; exact h ▸ eip
    eflags := by rw [offset 48 12 rfl]; exact h ▸ eflags
    esp := by rw [offset 52 8 rfl]; exact h ▸ esp }

theorem switchedBack_sound {A : View} {s' : State ξ} {seen : List (Word → CpuidRegs)} {e : Exp}
    (fits : A.Fits isrLayout { isrEnv a s m with seen := seen } s') (framed : Framed a s m)
    (h : switchedBack e A = true)
    (he : e.eval { isrEnv a s m with seen := seen } = some (trap.eip a.kernel s.eip)) :
    readCrs s'.mem a.procState =
      switchBack a.kernel trap (userRegs s) (a.esp0 - 24) (readCrs m a.procState) := by
  have field (i : Nat) {k : Word} {x : Exp} (hi : (switchBackFields e)[i]? = some (k, x))
      (tracked : isrLayout.Tracked (2, tdataProcState + k)) {v : Word}
      (hv : x.eval { isrEnv a s m with seen := seen } = some v) : s'.mem.read (a.procState + k) = v := by
    have word := of_decide_eq_true (List.all_eq_true.mp h _ (List.mem_of_getElem? hi))
    have value := fits.mem _ tracked
    rw [word] at value
    rw [a.procState_add]
    exact Option.some.inj (value.symm.trans hv)
  have kept (k : Word) : (proc k).eval { isrEnv a s m with seen := seen } =
      some (m.read (a.procState + k)) := by
    rw [a.procState_add]
    rfl
  have eflags : (Exp.op .or (.op .and frameEflags (.lit (~~~eflagsMask)))
      (.op .and (proc clientEFlags) (.lit eflagsMask))).eval { isrEnv a s m with seen := seen } =
      some (switchBackEflags (m.read (a.procState + clientEFlags)) s.eflags) := by
    have flags : frameEflags.eval { isrEnv a s m with seen := seen } = some s.eflags :=
      congrArg some framed.eflags
    simp only [Exp.eval, kept, flags, Option.bind_some, Option.map_some]
    rfl
  have sp : a.esp0 - 60 + 36 = a.esp0 - 24 := by bv_omega
  simp only [readCrs, switchBack, userRegs, Crs.mk.injEq]
  refine ⟨field 0 rfl (by decide) rfl, field 1 rfl (by decide) rfl, field 2 rfl (by decide) rfl,
    field 3 rfl (by decide) (congrArg some sp), field 4 rfl (by decide) rfl, field 5 rfl (by decide) rfl,
    field 6 rfl (by decide) rfl, field 7 rfl (by decide) rfl, field 8 rfl (by decide) (kept _),
    field 9 rfl (by decide) he, field 10 rfl (by decide) (kept _), field 11 rfl (by decide) eflags,
    field 12 rfl (by decide) (congrArg some framed.esp), field 13 rfl (by decide) (kept _),
    field 14 rfl (by decide) (kept _), field 15 rfl (by decide) (kept _),
    field 16 rfl (by decide) (kept _), field 17 rfl (by decide) (kept _)⟩

/-- What a comparison of `_int3_isr` says of EIP. -/
theorem branched_below {seen : List (Word → CpuidRegs)} {off : Word} {c : Cond} {taken : Bool}
    (framed : Framed a s m)
    (h : Branched { isrEnv a s m with seen := seen }
      (.sub frameEip (.op .add (.var 0) (.lit off)), c, taken)) :
    ∃ zero, c.holds zero (decide (s.eip < a.kernel + off)) = taken := by
  obtain ⟨zero, carry, ⟨u, v, hu, hv, -, below⟩, branch⟩ := h
  have eip : u = s.eip := (Option.some.inj hu).symm.trans framed.eip
  have bound : v = a.kernel + off := (Option.some.inj hv).symm
  have branch : c.holds zero carry = taken := branch
  rw [below, eip, bound] at branch
  exact ⟨zero, branch⟩

section

variable {kernel eip : Word}

theorem eip_int3_inside (low : kernel + land ≤ eip) (high : eip < kernel + (land + fnBlockSize)) :
    Trap.eip kernel .int3 eip = eip := by
  rw [← BitVec.add_assoc] at high
  simp only [Trap.eip]
  exact if_pos ⟨low, high⟩

theorem eip_int3_outside (h : ¬ (kernel + land ≤ eip ∧ eip < kernel + (land + fnBlockSize))) :
    Trap.eip kernel .int3 eip = eip - 1 := by
  rw [← BitVec.add_assoc] at h
  simp only [Trap.eip]
  exact if_neg h

end

/-- A trap of ring 3 leaves its registers in `proc_state`. -/
theorem switch_back_run [ExtUnit ξ] (ext : ExtUnit.size ξ ≤ 1536) (setUp : a.SetUp s.mem)
    (apid : (s.cpuid 1).ebx >>> 24 = a.apid.setWidth 32) (trap : Trap) (error : Word) :
    ∃ n s', run a.kernel code n (enterIsr a trap error s) = some s' ∧
      readCrs s'.mem a.procState =
        switchBack a.kernel trap (userRegs s) (a.esp0 - 24) (readCrs s.mem a.procState) := by
  obtain ⟨frame, hframe⟩ : ∃ frame, frame = s.trapFrame (errorCode error trap) := ⟨_, rfl⟩
  have start : enterIsr a trap error s = entered a (gate a.kernel trap) frame s := by
    rw [hframe]
    rfl
  have length : frame.length = if trap = .errorCode then 6 else 5 := by
    rw [hframe]
    cases trap <;> rfl
  have kept : a.Kept s.mem (entered a (gate a.kernel trap) frame s).mem :=
    entered_kept setUp (by rw [length]; split <;> decide) (by rw [length]; split <;> decide)
  have framed : Framed a s (entered a (gate a.kernel trap) frame s).mem := entered_framed setUp hframe
  have cpu : (entered a (gate a.kernel trap) frame s).cpuid = s.cpuid := State.enter_cpuid
  have valid := isr_valid (s := s) (setUp.kept kept) (cpu ▸ apid)
  have fits {entry off : Word} (offset : (gate a.kernel trap).offset = a.kernel + entry)
      (hoff : a.esp0 - 60 + off = a.esp0 - BitVec.ofNat 32 (4 * frame.length)) :=
    isr_fits (g := gate a.kernel trap) setUp (by cases trap <;> rfl) offset hoff
  have eip := framed.eip
  rw [start, ← kept.readCrs]
  cases trap with
  | error =>
      have hoff : a.esp0 - 60 + 40 = a.esp0 - BitVec.ofNat 32 (4 * frame.length) := by
        rw [show frame.length = 5 from length]
        bv_omega
      obtain ⟨n, s', ran, -, B, seen, post, -, final⟩ :=
        verify_sound ext valid (fun _ h => absurd h List.not_mem_nil) (fits rfl hoff) errorIsr_verified
      exact ⟨n, s', ran, switchedBack_sound final framed post (congrArg some eip)⟩
  | errorCode =>
      have hoff : a.esp0 - 60 + 36 = a.esp0 - BitVec.ofNat 32 (4 * frame.length) := by
        rw [show frame.length = 6 from length]
        bv_omega
      obtain ⟨n, s', ran, -, B, seen, post, -, final⟩ :=
        verify_sound ext valid (fun _ h => absurd h List.not_mem_nil) (fits rfl hoff) errorIsrCode_verified
      exact ⟨n, s', ran, switchedBack_sound final framed post (congrArg some eip)⟩
  | int3 =>
      have hoff : a.esp0 - 60 + 40 = a.esp0 - BitVec.ofNat 32 (4 * frame.length) := by
        rw [show frame.length = 5 from length]
        bv_omega
      obtain ⟨n, s', ran, -, B, seen, post, -, final⟩ :=
        verify_sound ext valid (fun _ h => absurd h List.not_mem_nil) (fits rfl hoff) int3Isr_verified
      refine ⟨n, s', ran, ?_⟩
      simp only [int3Post, Bool.or_eq_true, Bool.and_eq_true, decide_eq_true_eq] at post
      obtain ⟨⟨back, low⟩, high⟩ | ⟨back, outside⟩ := post
      · obtain ⟨_, low⟩ := branched_below framed (final.path _ low)
        obtain ⟨_, high⟩ := branched_below framed (final.path _ high)
        simp only [Cond.holds, decide_eq_false_iff_not, Bool.not_eq_false', decide_eq_true_eq] at low high
        have stays := eip_int3_inside (BitVec.not_lt.mp low) high
        exact switchedBack_sound final framed back (congrArg some (eip.trans stays.symm))
      · have moves : Trap.eip a.kernel .int3 s.eip = s.eip - 1 := by
          refine eip_int3_outside fun inside => ?_
          obtain low | high := outside
          · obtain ⟨_, low⟩ := branched_below framed (final.path _ low)
            simp only [Cond.holds, decide_eq_true_eq] at low
            exact BitVec.not_lt.mpr inside.1 low
          · obtain ⟨_, high⟩ := branched_below framed (final.path _ high)
            simp only [Cond.holds, Bool.not_eq_true', decide_eq_false_iff_not] at high
            exact high inside.2
        refine switchedBack_sound final framed back ?_
        rw [moves, BitVec.sub_eq_add_neg, ← eip]
        rfl

end SwitchBack

/-! ## The way of a context -/

section RoundTrip

variable {ξ : Type} [ExtUnit ξ]

/-- The thread runs in ring 3 from one state to a trap in another. Its registers change
arbitrarily, and so does the memory other than what the switches rely on. -/
structure Ring3 (a : Pages) (s s' : State ξ) : Prop where
  cpuid : s'.cpuid = s.cpuid
  kept : a.Kept s.mem s'.mem

/-- `switch_to_ap` has stored the structure at `crs`, and the AP enters `_switchtask`:
it installs the registers of the structure with the flags that threads have on an AP.
Whatever the thread does until a trap, the handler and `switch_back` then store its
registers, and the copy that `switch_to_bsp` makes at `crs'` consists of these, of the
flags of the BSP under the mask, and of the other fields of the first structure. -/
theorem context_round_trip (a : Pages) (ext : ExtUnit.size ξ ≤ 1536) (m : Mem) (crs : Word)
    (s : State ξ) (entry : AtSwitchtask a s)
    (stored : AgreeOn a.procState crs32EfectiveSize (m.copy a.procState crs crs32EfectiveSize) s.mem) :
    ∃ n s₁, run a.kernel code n s = some s₁ ∧ s₁.cpl = 3 ∧ userRegs s₁ = switchTask (readCrs m crs) ∧
      ∀ s₂ trap error, Ring3 a s₁ s₂ →
        ∃ k s₃, run a.kernel code k (enterIsr a trap error s₂) = some s₃ ∧
          ∀ m' crs', AgreeOn a.procState crs32EfectiveSize s₃.mem m' →
            readCrs (m'.copy crs' a.procState crs32EfectiveSize) crs' =
                switchBack a.kernel trap (userRegs s₂) (a.esp0 - 24) (readCrs m crs) ∧
              ∀ b, crs32EfectiveSize ≤ (b - crs').toNat →
                m'.copy crs' a.procState crs32EfectiveSize b = m' b := by
  have proc : readCrs s.mem a.procState = readCrs m crs := by
    rw [readCrs_agree stored, readCrs_copy]
  obtain ⟨n, s₁, ran, cpu, ring, regs, kept, setUp⟩ := switchtask_run ext entry
  refine ⟨n, s₁, ran, ring, proc ▸ regs, fun s₂ trap error thread => ?_⟩
  have apid : (s₂.cpuid 1).ebx >>> 24 = a.apid.setWidth 32 := by
    rw [thread.cpuid, cpu, entry.apid]
  obtain ⟨k, s₃, returned, back⟩ := switch_back_run ext (setUp.kept thread.kept) apid trap error
  refine ⟨k, s₃, returned, fun m' crs' same => ⟨?_, fun b outside => ?_⟩⟩
  · rw [readCrs_copy, readCrs_agree same, back, thread.kept.readCrs, kept, proc]
  · exact if_neg (by omega)

/-- An extended state in the form of its image: x87 in the first 160 bytes, SSE up to
512, AVX behind the header. -/
def ExtImage : Type := Nat → BitVec 8

instance : ExtUnit ExtImage where
  size := 832
  fxsave st _ := st
  fxrstor image st := fun i => if i < fxsaveSize then image i else st i
  xsave _ lo st image := fun i =>
    if lo.getLsbD (if i < 160 then 0 else if i < 512 then 1 else 2) then st i else image i
  xrstor _ lo image st := fun i =>
    if lo.getLsbD (if i < 160 then 0 else if i < 512 then 1 else 2) then image i else st i

def firstAp : Pages where
  kernel := 0xC0100000
  ttable := 0xC0101000
  data := 0xC0102000
  stack := 0xC0104000
  apid := 1
  kernel_ttable := by decide
  kernel_data := by decide
  kernel_stack := by decide
  ttable_data := by decide
  ttable_stack := by decide
  data_stack := by decide

def firstCrs : Word := 0xC0200000

def emptyMem : Mem := fun _ => 0

/-- A memory with an AP set up and a structure with EBX, EIP and EFLAGS. -/
def firstMem : Mem :=
  [(firstAp.kernel + ttable, firstAp.ttable), (firstAp.titem + 4, firstAp.data),
   (firstAp.data + (tdataProcTss + 4), firstAp.esp0),
   (firstAp.data + (tdataInitState + clientEsp), 0xC0107FF0), (firstCrs + clientEbx, 5),
   (firstCrs + clientEip, 0x00401000), (firstCrs + clientEFlags, 0x246)].foldl
    (fun m w => m.write w.1 w.2) emptyMem

def firstState : State ExtImage where
  reg r := if r = .esp then 0xC0107FEC else 0
  eip := firstAp.kernel + switchtask
  eflags := 0x202
  seg _ := 8
  cr3 := 0
  mem := firstMem.copy firstAp.procState firstCrs crs32EfectiveSize
  ext := fun _ => 0
  cpuid _ := ⟨0, 0x01000000, 0, 0⟩

theorem firstState_entry : AtSwitchtask firstAp firstState where
  eip := rfl
  ring := rfl
  esp := ⟨by decide, by decide⟩
  apid := by decide
  setUp := {
    ttable := by decide +kernel
    data := by decide +kernel
    esp0 := by decide +kernel
    initEsp := ⟨by decide +kernel, by decide +kernel⟩ }

/-- A thread that sets EAX to 42 and executes a breakpoint of its own. -/
theorem context_round_trip_int3 : ∃ n s₁ k s₃, run firstAp.kernel code n firstState = some s₁ ∧
    userRegs s₁ = switchTask (readCrs firstMem firstCrs) ∧
    run firstAp.kernel code k (enterIsr firstAp .int3 0
      { s₁ with reg := Function.update s₁.reg .eax 42, eip := 0x00401006 }) = some s₃ ∧
    (readCrs (s₃.mem.copy firstCrs firstAp.procState crs32EfectiveSize) firstCrs).clientEax = 42 ∧
    (readCrs (s₃.mem.copy firstCrs firstAp.procState crs32EfectiveSize) firstCrs).clientEip = 0x00401005 ∧
    (readCrs (s₃.mem.copy firstCrs firstAp.procState crs32EfectiveSize) firstCrs).clientEFlags = 0x246 := by
  obtain ⟨n, s₁, ran, -, regs, rest⟩ := context_round_trip firstAp (ξ := ExtImage) (by decide) firstMem
    firstCrs firstState firstState_entry (AgreeOn.refl _ _ _)
  have thread : Ring3 firstAp s₁
      { s₁ with reg := Function.update s₁.reg .eax 42, eip := 0x00401006 } :=
    ⟨rfl, AgreeOn.refl _ _ _, AgreeOn.refl _ _ _, AgreeOn.refl _ _ _⟩
  obtain ⟨k, s₃, returned, last⟩ := rest _ .int3 0 thread
  obtain ⟨back, -⟩ := last s₃.mem firstCrs (AgreeOn.refl _ _ _)
  have eip : Trap.eip firstAp.kernel .int3 0x00401006 = 0x00401005 := by decide
  have stored : (readCrs firstMem firstCrs).clientEFlags = 0x246 := by decide +kernel
  have eflags : s₁.eflags = switchTaskEflags 0x246 := by
    rw [← stored]
    exact congrArg UserRegs.eflags regs
  refine ⟨n, s₁, k, s₃, ran, regs, returned, ?_, ?_, ?_⟩
  · rw [back]
    simp [switchBack, userRegs]
  · rw [back]
    exact eip
  · rw [back]
    simp only [switchBack, userRegs, stored, eflags]
    decide

end RoundTrip

end SmpVxd.ApKernel
