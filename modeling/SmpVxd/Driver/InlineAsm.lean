import SmpVxd.X86.Fill
import SmpVxd.Transition.Fuel

/-!
# The inline assembly of the driver

The blocks push registers, load others, call services of the VMM and pop again. The
compiler takes for granted that a block leaves the stack, the registers it has pushed and
the interrupt flag as they were.
-/

namespace SmpVxd.InlineAsm

open X86 X86.Block

/-- The variables of the functions around the blocks. -/
inductive Var where
  | sysPd | destPd | ver | exception | callback | prevHook | rc | msrLo | msrHi
  deriving DecidableEq

inductive Service where
  | getVmmVersion | hookPmFault | unhookPmFault | hookInvalidPageFault | unhookInvalidPageFault
  deriving DecidableEq

/-- The registers in which a service returns something. -/
def Service.outputs : Service → List Reg
  | .getVmmVersion => [.eax, .ecx]
  | .hookPmFault => [.esi]
  | .unhookPmFault | .hookInvalidPageFault | .unhookInvalidPageFault => []

inductive Label where
  | notInstalled
  deriving DecidableEq

abbrev Code := List (Item Var Service Label)

def load (dst : Reg) (v : Var) : Item Var Service Label := .op (.load dst v)
def store (v : Var) (src : Reg) : Item Var Service Label := .op (.store v (.reg src))
def call (f : Service) : Item Var Service Label := .op (.service f)

/-- The block of `copy_pd`. -/
def copyPd : Code :=
  [.push .esi, .push .edi, .pushfd, .cld, .movImm .ecx 1024, load .esi .sysPd, load .edi .destPd,
    .op (.core .repMovsd), .popfd, .pop .esi, .pop .edi]

def getVmmVersion : Code :=
  [.push .ecx, .push .eax, .xor .eax, call .getVmmVersion, .op (.storeHalf .ver .eax),
    .pop .ecx, .pop .eax]

def hookPmFault : Code :=
  [.push .eax, .push .esi, .xor .eax, .op (.loadByte .eax .exception), load .esi .callback,
    call .hookPmFault, store .prevHook .esi, .pop .esi, .pop .eax]

def unhookPmFault : Code :=
  [.push .eax, .push .esi, .xor .eax, .op (.loadByte .eax .exception), load .esi .callback,
    call .unhookPmFault]

def hookInvalidPageFault : Code :=
  [.push .esi, load .esi .callback, call .hookInvalidPageFault, .jump .jc .notInstalled,
    .op (.store .rc (.imm 1)), .label .notInstalled, .pop .esi]

def unhookInvalidPageFault : Code :=
  [.push .esi, load .esi .callback, call .unhookInvalidPageFault, .pop .esi]

/-! ## smp_wakeup -/

def ia32ApicBase : Word := 0x1B
def apicGlobalEnable : Word := 0x00000800

/-- The first block of `smp_wakeup`. -/
def enableApic : Code :=
  [.op (.core .cli), .movImm .ecx ia32ApicBase, .op .rdmsr, store .msrLo .eax, store .msrHi .edx,
    .op (.core (.alu .or (.reg .eax) (.imm apicGlobalEnable))), .op .wrmsr]

/-- The second one. -/
def restoreApic : Code :=
  [.movImm .ecx ia32ApicBase, load .eax .msrLo, load .edx .msrHi, .op .wrmsr, .op .sti]

/-- The local APIC: what its command register is found to hold at each read, and the
commands it was sent. -/
structure Lapic where
  base : Word
  icr : Nat → Word
  reads : Nat
  icrHigh : Word
  commands : List (Word × Word)

def deliveryStatus : Word := 1 <<< 12

/-- `do pause while (lapic32[0x300/4] & (1 << 12))`; the number of reads afterwards. -/
def waitDelivery (icr : Nat → Word) : Nat → Nat → Option Nat
  | 0, _ => none
  | fuel + 1, n => if icr n &&& deliveryStatus ≠ 0 then waitDelivery icr fuel (n + 1) else some (n + 1)

section

variable {ξ : Type} [ExtUnit ξ] (services : Service → X86.State ξ → X86.State ξ)

/-- The statements between the two blocks use no register that the second one reads. -/
def smpWakeup (fuel : Nat) (apid : Word) (b : Block.State ξ Var) (l : Lapic) :
    Option (Block.State ξ Var × Lapic × Bool) :=
  if l.base ≠ 0 then do
    let b ← runItems services enableApic none b
    let n ← waitDelivery l.icr fuel l.reads
    let high := (l.icrHigh &&& 0x00FFFFFF) ||| (apid <<< 24)
    let low := (l.icr n &&& 0xFFF00000) ||| 0x005400
    let n ← waitDelivery l.icr fuel (n + 1)
    let b ← runItems services restoreApic none b
    return (b, { l with reads := n, icrHigh := high, commands := l.commands ++ [(high, low)] }, true)
  else return (b, l, false)

end

/-! ## What the compiler relies on -/

def pushedRegs (code : Code) : List Reg :=
  code.filterMap fun
    | .op (.core (.push (.reg r))) => some r
    | _ => none

/-- The caller finds its state again, and these registers. -/
structure Restored {ξ : Type} (regs : List Reg) (s t : X86.State ξ) : Prop where
  esp : t.reg .esp = s.reg .esp
  reg : ∀ r ∈ regs, t.reg r = s.reg r
  interrupts : interruptFlag t.eflags = interruptFlag s.eflags

/-- A service changes only the registers in which it returns something, the status flags,
and no word that its caller has pushed. -/
structure Documented {ξ : Type} (outputs : List Reg) (service : X86.State ξ → X86.State ξ) : Prop where
  reg : ∀ s, ∀ r ∉ outputs, (service s).reg r = s.reg r
  flags : ∀ s, SameControl s.eflags (service s).eflags
  stack : ∀ s, AgreeOn (s.reg .esp) 8 s.mem (service s).mem

section

variable {ξ : Type} [ExtUnit ξ] {services : Service → X86.State ξ → X86.State ξ}
variable {b : Block.State ξ Var} {s t u : X86.State ξ} {code k : Code} {vs : List Word}

variable (services) in
def LeavesIntact (code : Code) (b : Block.State ξ Var) : Prop :=
  ∃ b', runItems services code none b = some b' ∧ Restored (pushedRegs code) b.cpu b'.cpu

variable (services) in
def WakeupLeavesIntact (apid : Word) (b : Block.State ξ Var) (l : Lapic) : Prop :=
  ∃ fuel b' l' rc, smpWakeup services fuel apid b l = some (b', l', rc) ∧ Restored [] b.cpu b'.cpu

/-- The page that `copy_pd` writes is apart from the three words below the stack pointer. -/
def PageApart (b : Block.State ξ Var) : Prop :=
  ∀ i < 4096, 12 ≤ (b.var .destPd + .ofNat 32 i - (b.cpu.reg .esp - 12)).toNat

/-! ## Pushes and pops -/

variable (services)

/-- The code in between keeps the stack of the state it began in. -/
structure Keeps (s t : X86.State ξ) : Prop where
  esp : t.reg .esp = s.reg .esp
  stack : AgreeOn (s.reg .esp) 8 s.mem t.mem
  interrupts : interruptFlag t.eflags = interruptFlag s.eflags

omit [ExtUnit ξ] in
theorem Keeps.trans (h : Keeps s t) (h' : Keeps t u) : Keeps s u where
  esp := h'.esp.trans h.esp
  stack := h.stack.trans (h.esp ▸ h'.stack)
  interrupts := h'.interrupts.trans h.interrupts

omit [ExtUnit ξ] in
theorem Documented.keeps {outputs : List Reg} {service : X86.State ξ → X86.State ξ}
    (documented : Documented outputs service) (other : .esp ∉ outputs) (s : X86.State ξ) :
    Keeps s (service s) where
  esp := documented.reg s .esp other
  stack := documented.stack s
  interrupts := (documented.flags s).interruptFlag

omit [ExtUnit ξ] in
theorem Keeps.on_stack (h : Keeps s t) (stack : Stack vs s) (few : vs.length ≤ 2) : Stack vs t := by
  apply stack.agree h.esp _ (by omega)
  intro a inside
  exact h.stack a (by omega)

theorem run_push (stack : Stack vs b.cpu) (few : vs.length ≤ 2) (r : Reg) : ∃ b',
    runItems services (.push r :: k) none b = runItems services k none b' ∧
      b'.cpu.reg .esp = b.cpu.reg .esp - 4 ∧ (∀ r', r' ≠ .esp → b'.cpu.reg r' = b.cpu.reg r') ∧
      Stack (b.cpu.reg r :: vs) b'.cpu ∧ b'.cpu.eflags = b.cpu.eflags ∧ b'.var = b.var := by
  have stack' : Stack (b.cpu.reg r :: vs) (b.cpu.push (b.cpu.reg r)) := stack.push (by omega)
  have esp : (b.cpu.push (b.cpu.reg r)).reg .esp = b.cpu.reg .esp - 4 := State.push_esp
  have reg (r' : Reg) (other : r' ≠ .esp) : (b.cpu.push (b.cpu.reg r)).reg r' = b.cpu.reg r' :=
    State.push_reg other
  exact ⟨_, rfl, esp, reg, stack'.congr rfl rfl, rfl, rfl⟩

theorem run_pop {v : Word} (stack : Stack (v :: vs) b.cpu) {q : Reg} (other : q ≠ .esp) : ∃ b',
    runItems services (.pop q :: k) none b = runItems services k none b' ∧
      b'.cpu.reg .esp = b.cpu.reg .esp + 4 ∧ b'.cpu.reg q = v ∧
      (∀ r, r ≠ q → r ≠ .esp → b'.cpu.reg r = b.cpu.reg r) ∧ Stack vs b'.cpu ∧
      b'.cpu.eflags = b.cpu.eflags := by
  have esp : ((b.cpu.drop 4).setReg q (b.cpu.slot 0)).reg .esp = (b.cpu.drop 4).reg .esp :=
    setReg_other (Ne.symm other)
  refine ⟨_, rfl, esp.trans setReg_self, setReg_self.trans stack.top, ?_, ?_, rfl⟩
  · intro r ne ne_esp
    exact (setReg_other ne).trans (setReg_other ne_esp)
  · exact stack.drop.congr esp rfl

/-- Two registers are pushed; `k` begins in a state with both on the stack. -/
theorem run_pushes (b : Block.State ξ Var) (r₁ : Reg) {r₂ : Reg} (other : r₂ ≠ .esp) : ∃ b',
    runItems services (.push r₁ :: .push r₂ :: k) none b = runItems services k none b' ∧
      b'.cpu.reg .esp = b.cpu.reg .esp - 8 ∧ Stack [b.cpu.reg r₂, b.cpu.reg r₁] b'.cpu ∧
      b'.cpu.eflags = b.cpu.eflags ∧ b'.var = b.var := by
  have empty : Stack [] b.cpu := fun i v there => absurd there (by simp)
  obtain ⟨b₁, ran₁, esp₁, reg₁, stack₁, flags₁, var₁⟩ :=
    run_push services (k := .push r₂ :: k) empty (by simp) r₁
  obtain ⟨b₂, ran₂, esp₂, -, stack₂, flags₂, var₂⟩ :=
    run_push services (k := k) stack₁ (by simp) r₂
  refine ⟨b₂, ran₁.trans ran₂, ?_, ?_, flags₂.trans flags₁, var₂.trans var₁⟩
  · rw [esp₂, esp₁, BitVec.sub_sub]
    rfl
  · rwa [reg₁ r₂ other] at stack₂

/-- The end of a block whose body has kept what was pushed. -/
theorem run_pops {b₁ b₂ : Block.State ξ Var} {r₁ r₂ q₁ q₂ : Reg}
    (esp : b₁.cpu.reg .esp = b.cpu.reg .esp - 8) (stack : Stack [b.cpu.reg r₂, b.cpu.reg r₁] b₁.cpu)
    (flags : b₁.cpu.eflags = b.cpu.eflags) (keeps : Keeps b₁.cpu b₂.cpu) (ne : q₁ ≠ q₂)
    (other₁ : q₁ ≠ .esp) (other₂ : q₂ ≠ .esp) : ∃ b',
    runItems services ([.pop q₁, .pop q₂] : Code) none b₂ = some b' ∧
      b'.cpu.reg .esp = b.cpu.reg .esp ∧ b'.cpu.reg q₁ = b.cpu.reg r₂ ∧
      b'.cpu.reg q₂ = b.cpu.reg r₁ ∧
      interruptFlag b'.cpu.eflags = interruptFlag b.cpu.eflags := by
  obtain ⟨b₃, ran₃, esp₃, first, -, stack₃, flags₃⟩ := run_pop services
    (k := [.pop q₂]) (keeps.on_stack stack (Nat.le_refl 2)) other₁
  obtain ⟨b₄, ran₄, esp₄, second, reg₄, -, flags₄⟩ :=
    run_pop services (k := []) stack₃ other₂
  refine ⟨b₄, ran₃.trans ran₄, ?_, (reg₄ q₁ ne other₁).trans first, second, ?_⟩
  · rw [esp₄, esp₃, keeps.esp, esp]
    bv_omega
  · rw [flags₄, flags₃, keeps.interrupts, flags]

/-! ## The bodies -/

omit [ExtUnit ξ] in
/-- `xor eax, eax` -/
theorem Keeps.xor (s : X86.State ξ) (v f : Word) :
    Keeps s (((s.setReg .eax v).setFlags (Alu.xor.flags s.eflags f f)).goto 0) where
  esp := rfl
  stack := AgreeOn.refl _ _ s.mem
  interrupts := (SameControl.flags .xor f f).interruptFlag

omit [ExtUnit ξ] in
theorem Keeps.refl (s : X86.State ξ) : Keeps s s := ⟨rfl, AgreeOn.refl _ _ s.mem, rfl⟩

omit [ExtUnit ξ] in
theorem Keeps.setReg (h : Keeps s t) {r : Reg} (other : .esp ≠ r) (v : Word) : Keeps s (t.setReg r v) where
  esp := (setReg_other other).trans h.esp
  stack := h.stack
  interrupts := h.interrupts

theorem run_getVmmVersion (documented : ∀ f, Documented f.outputs (services f)) : ∃ b',
    runItems services (.xor .eax :: call .getVmmVersion :: .op (.storeHalf .ver .eax) :: k) none b =
      runItems services k none b' ∧ Keeps b.cpu b'.cpu :=
  ⟨_, rfl, (Keeps.xor ..).trans ((documented .getVmmVersion).keeps (by decide) _)⟩

/-- The argument registers of the PM fault services are loaded, and one of them is called. -/
theorem run_pmFault {f : Service} (documented : Documented f.outputs (services f))
    (other : .esp ∉ f.outputs) : ∃ b',
    runItems services (.xor .eax :: .op (.loadByte .eax .exception) :: load .esi .callback ::
        call f :: k) none b = runItems services k none b' ∧ Keeps b.cpu b'.cpu := by
  refine ⟨_, rfl, Keeps.trans ?_ (documented.keeps other _)⟩
  exact ((Keeps.xor ..).setReg (by decide) _).setReg (by decide) _

theorem run_invalidPageFault {f : Service} (documented : Documented f.outputs (services f))
    (other : .esp ∉ f.outputs) : ∃ b',
    runItems services (load .esi .callback :: call f :: k) none b = runItems services k none b' ∧
      Keeps b.cpu b'.cpu := by
  refine ⟨_, rfl, Keeps.trans ?_ (documented.keeps other _)⟩
  exact (Keeps.refl b.cpu).setReg (by decide) _

/-- The jump over the store to `rc`. -/
theorem run_rc : ∃ b', runItems services (.jump .jc .notInstalled :: .op (.store .rc (.imm 1)) ::
    .label .notInstalled :: k) none b = runItems services k none b' ∧ b'.cpu = b.cpu := by
  cases carry : Jump.jc.taken b.cpu.eflags with
  | true =>
      refine ⟨b, ?_, rfl⟩
      rw [run_jump carry]
      rfl
  | false =>
      refine ⟨b.setVar .rc 1, ?_, rfl⟩
      rw [run_stay carry]
      rfl

/-- The state before `rep movsd`. -/
theorem run_copyPd_start (b : Block.State ξ Var) : ∃ b',
    runItems services (.pushfd :: .cld :: .movImm .ecx 1024 :: load .esi .sysPd ::
        load .edi .destPd :: k) none b = runItems services k none b' ∧
      b'.cpu.reg .esp = b.cpu.reg .esp - 4 ∧ b'.cpu.reg .edi = b.var .destPd ∧
      b'.cpu.reg .ecx = 1024 ∧ b'.cpu.mem = b.cpu.mem.write (b.cpu.reg .esp - 4) b.cpu.eflags ∧
      b'.cpu.eflags = b.cpu.eflags &&& ~~~0x400 := by
  have esp : (b.cpu.push b.cpu.eflags).reg .esp = b.cpu.reg .esp - 4 := State.push_esp
  exact ⟨_, rfl, esp, rfl, rfl, rfl, rfl⟩

theorem run_repMovsd (b : Block.State ξ Var) :
    runItems services (.op (.core .repMovsd) :: k) none b = runItems services k none
      (b.setCpu ((b.cpu.copyWords (b.cpu.reg .ecx).toNat).goto 0)) := run_op rfl

theorem run_popfd (b : Block.State ξ Var) :
    runItems services (.popfd :: k) none b = runItems services k none (b.setCpu
      (((b.cpu.drop 4).setFlags (popfdFlags b.cpu.cpl b.cpu.eflags (b.cpu.slot 0))).goto 0)) :=
  run_op rfl

theorem run_copyPd (b : Block.State ξ Var)
    (apart : ∀ i < 4096, 12 ≤ (b.var .destPd + .ofNat 32 i - (b.cpu.reg .esp - 4)).toNat) : ∃ b',
    runItems services (.pushfd :: .cld :: .movImm .ecx 1024 :: load .esi .sysPd ::
        load .edi .destPd :: .op (.core .repMovsd) :: .popfd :: k) none b =
      runItems services k none b' ∧ Keeps b.cpu b'.cpu := by
  obtain ⟨b₁, ran, esp, edi, ecx, mem, eflags⟩ := run_copyPd_start services
    (k := .op (.core .repMovsd) :: .popfd :: k) b
  have clear : directionFlag b₁.cpu.eflags = false := by
    rw [eflags, directionFlag, BitVec.getLsbD_and]
    exact Bool.and_false _
  obtain ⟨n, count, bytes⟩ : ∃ n, (b₁.cpu.reg .ecx).toNat = n ∧ 4 * n = 4096 := by
    rw [ecx]
    exact ⟨1024, rfl, rfl⟩
  obtain ⟨kept, flags', reg⟩ := copyWords_frame (n := n) clear (p := b.cpu.reg .esp - 4) (k := 12)
    (by rwa [edi, bytes])
  let b₂ := b₁.setCpu ((b₁.cpu.copyWords n).goto 0)
  have copied : runItems services (.op (.core .repMovsd) :: .popfd :: k) none b₁ =
      runItems services (.popfd :: k) none b₂ := by
    rw [run_repMovsd services, count]
  have esp₂ : b₂.cpu.reg .esp = b.cpu.reg .esp - 4 :=
    (reg .esp (by decide) (by decide) (by decide)).trans esp
  have image : b₂.cpu.slot 0 = b.cpu.eflags := by
    have here : b.cpu.reg .esp - 4 + 0 = b.cpu.reg .esp - 4 := BitVec.add_zero _
    have word := kept.read (i := 0) (by decide)
    rw [here, mem, Mem.read_write_self] at word
    rw [State.slot, esp₂, here]
    exact word
  have control : SameControl b.cpu.eflags b₂.cpu.eflags := by
    rw [show b₂.cpu.eflags = _ from flags', eflags]
    exact SameControl.cld
  let t := ((b₂.cpu.drop 4).setFlags (popfdFlags b₂.cpu.cpl b₂.cpu.eflags (b₂.cpu.slot 0))).goto 0
  have esp₃ : t.reg .esp = b₂.cpu.reg .esp + 4 := by
    rw [show t.reg .esp = (b₂.cpu.drop 4).reg .esp from rfl, State.drop, setReg_self]
  have eflags₃ : t.eflags = b.cpu.eflags &&& ~~~0x10000 := by
    change popfdFlags b₂.cpu.cpl b₂.cpu.eflags (b₂.cpu.slot 0) = _
    rw [image, control.popfd]
  refine ⟨b₂.setCpu t, ran.trans (copied.trans (run_popfd services b₂)), ?_, fun a inside => ?_, ?_⟩
  · rw [show (b₂.setCpu t).cpu = t from rfl, esp₃, esp₂, BitVec.sub_add_cancel]
  · have pushed : b₁.cpu.mem a = b.cpu.mem a := by
      rw [mem]
      exact Mem.write_apply (by bv_omega)
    exact (kept a (by bv_omega)).trans pushed
  · rw [show (b₂.setCpu t).cpu = t from rfl, eflags₃, interruptFlag, BitVec.getLsbD_and]
    exact Bool.and_true _

/-! ## The blocks of smp_wakeup -/

section

variable (ring : b.cpu.cpl = 0)

include ring

theorem run_cli : runItems services (.op (.core .cli) :: k) none b = runItems services k none
    (b.setCpu ((b.cpu.setFlags (b.cpu.eflags &&& ~~~0x200)).goto 0)) := by
  apply run_op
  rw [Op.exec, X86.exec, if_pos ring]
  rfl

theorem run_sti : runItems services (.op .sti :: k) none b = runItems services k none
    (b.setCpu (b.cpu.setFlags (b.cpu.eflags ||| 0x200))) := by
  apply run_op
  rw [Op.exec, if_pos ring]

theorem run_rdmsr : ∃ b', runItems services (.op .rdmsr :: k) none b = runItems services k none b' ∧
    b'.cpu.reg .esp = b.cpu.reg .esp ∧ b'.cpu.cpl = 0 := by
  let v := b.msr (b.cpu.reg .ecx)
  have done : (Op.rdmsr : Op Var Service).exec services b =
      some ((b.setReg .eax (v.setWidth 32)).setReg .edx ((v >>> 32).setWidth 32)) := if_pos ring
  exact ⟨_, run_op done, rfl, ring⟩

theorem run_wrmsr : ∃ b', runItems services (.op .wrmsr :: k) none b = runItems services k none b' ∧
    b'.cpu = b.cpu := by
  have done : (Op.wrmsr : Op Var Service).exec services b = some { b with
      msr := Function.update b.msr (b.cpu.reg .ecx) (b.cpu.reg .edx ++ b.cpu.reg .eax) } := if_pos ring
  exact ⟨_, run_op done, rfl⟩

theorem run_enableApic : ∃ b', runItems services enableApic none b = some b' ∧
    b'.cpu.reg .esp = b.cpu.reg .esp ∧ b'.cpu.cpl = 0 := by
  let b₁ := b.setCpu ((b.cpu.setFlags (b.cpu.eflags &&& ~~~0x200)).goto 0)
  have cleared : runItems services enableApic none b = runItems services (enableApic.drop 1) none b₁ :=
    run_cli services ring
  let b₂ := b₁.setCpu ((b₁.cpu.setReg .ecx ia32ApicBase).goto 0)
  obtain ⟨b₃, read, esp₃, ring₃⟩ := run_rdmsr services (k := enableApic.drop 3) (b := b₂) ring
  have moved : ∃ b₄, runItems services (enableApic.drop 3) none b₃ =
      runItems services (enableApic.drop 6) none b₄ ∧ b₄.cpu.reg .esp = b₃.cpu.reg .esp ∧
        b₄.cpu.cpl = b₃.cpu.cpl := ⟨_, rfl, rfl, rfl⟩
  obtain ⟨b₄, moved, esp₄, ring₄⟩ := moved
  obtain ⟨b₅, written, cpu⟩ := run_wrmsr services (k := []) (ring₄.trans ring₃)
  refine ⟨b₅, cleared.trans (read.trans (moved.trans written)), ?_, ?_⟩
  · rw [cpu, esp₄, esp₃]
    rfl
  · rw [cpu, ring₄, ring₃]

theorem run_restoreApic : ∃ b', runItems services restoreApic none b = some b' ∧
    b'.cpu.reg .esp = b.cpu.reg .esp ∧ interruptFlag b'.cpu.eflags = true := by
  have moved : ∃ b₁, runItems services restoreApic none b =
      runItems services (restoreApic.drop 3) none b₁ ∧ b₁.cpu.reg .esp = b.cpu.reg .esp ∧
        b₁.cpu.cpl = b.cpu.cpl := ⟨_, rfl, rfl, rfl⟩
  obtain ⟨b₁, moved, esp₁, ring₁⟩ := moved
  obtain ⟨b₂, written, cpu⟩ := run_wrmsr services (k := restoreApic.drop 4) (ring₁.trans ring)
  have ring₂ : b₂.cpu.cpl = 0 := by rw [cpu, ring₁, ring]
  refine ⟨_, moved.trans (written.trans (run_sti services (k := []) ring₂)), ?_, ?_⟩
  · rw [← esp₁, ← cpu]
    rfl
  · change (b₂.cpu.eflags ||| 0x200).getLsbD 9 = true
    rw [BitVec.getLsbD_or]
    exact Bool.or_true _

end

/-! ## Which blocks leave the state of the caller intact -/

variable {services}

theorem leavesIntact_iff {b' : Block.State ξ Var} (ran : runItems services code none b = some b')
    (esp : b'.cpu.reg .esp = b.cpu.reg .esp)
    (interrupts : interruptFlag b'.cpu.eflags = interruptFlag b.cpu.eflags) :
    LeavesIntact services code b ↔ ∀ r ∈ pushedRegs code, b'.cpu.reg r = b.cpu.reg r := by
  constructor
  · rintro ⟨b'', ran', restored⟩
    obtain rfl : b' = b'' := Option.some.inj (ran.symm.trans ran')
    exact restored.reg
  · intro reg
    exact ⟨b', ran, esp, reg, interrupts⟩

/-- Two registers that are popped in the order in which they were pushed. -/
theorem leavesIntact_swapped {b' : Block.State ξ Var} {r₁ r₂ : Reg}
    (ran : runItems services code none b = some b') (regs : pushedRegs code = [r₁, r₂])
    (esp : b'.cpu.reg .esp = b.cpu.reg .esp) (first : b'.cpu.reg r₁ = b.cpu.reg r₂)
    (second : b'.cpu.reg r₂ = b.cpu.reg r₁)
    (interrupts : interruptFlag b'.cpu.eflags = interruptFlag b.cpu.eflags) :
    LeavesIntact services code b ↔ b.cpu.reg r₁ = b.cpu.reg r₂ := by
  rw [leavesIntact_iff ran esp interrupts, regs]
  simp only [List.forall_mem_cons, first, second]
  constructor
  · intro same
    exact same.2.1
  · intro same
    exact ⟨same.symm, same, fun r mem => absurd mem List.not_mem_nil⟩

theorem copyPd_intact (apart : PageApart b) :
    LeavesIntact services copyPd b ↔ b.cpu.reg .esi = b.cpu.reg .edi := by
  obtain ⟨b₁, pushed, esp₁, stack₁, flags₁, var₁⟩ :=
    run_pushes services (k := copyPd.drop 2) b .esi (by decide : Reg.edi ≠ .esp)
  have apart₁ : ∀ i < 4096, 12 ≤ (b₁.var .destPd + .ofNat 32 i - (b₁.cpu.reg .esp - 4)).toNat := by
    rw [var₁, esp₁, BitVec.sub_sub]
    exact apart
  obtain ⟨b₂, copied, keeps⟩ := run_copyPd services (k := [.pop .esi, .pop .edi]) b₁ apart₁
  obtain ⟨b₃, popped, esp, esi, edi, interrupts⟩ := run_pops services esp₁ stack₁ flags₁ keeps
    (by decide : Reg.esi ≠ .edi) (by decide) (by decide)
  exact leavesIntact_swapped (pushed.trans (copied.trans popped)) rfl esp esi edi interrupts

theorem getVmmVersion_intact (documented : ∀ f, Documented f.outputs (services f)) :
    LeavesIntact services getVmmVersion b ↔ b.cpu.reg .ecx = b.cpu.reg .eax := by
  obtain ⟨b₁, pushed, esp₁, stack₁, flags₁, -⟩ :=
    run_pushes services (k := getVmmVersion.drop 2) b .ecx (by decide : Reg.eax ≠ .esp)
  obtain ⟨b₂, called, keeps⟩ :=
    run_getVmmVersion services (b := b₁) (k := [.pop .ecx, .pop .eax]) documented
  obtain ⟨b₃, popped, esp, ecx, eax, interrupts⟩ := run_pops services esp₁ stack₁ flags₁ keeps
    (by decide : Reg.ecx ≠ .eax) (by decide) (by decide)
  exact leavesIntact_swapped (pushed.trans (called.trans popped)) rfl esp ecx eax interrupts

theorem hookPmFault_intact (documented : ∀ f, Documented f.outputs (services f)) :
    LeavesIntact services hookPmFault b := by
  obtain ⟨b₁, pushed, esp₁, stack₁, flags₁, -⟩ :=
    run_pushes services (k := hookPmFault.drop 2) b .eax (by decide : Reg.esi ≠ .esp)
  obtain ⟨b₂, called, keeps⟩ := run_pmFault services (b := b₁) (k := hookPmFault.drop 6)
    (documented .hookPmFault) (by decide)
  let b₃ := b₂.setVar .prevHook (b₂.cpu.reg .esi)
  have keeps₃ : Keeps b₁.cpu b₃.cpu := keeps
  have stored : runItems services (hookPmFault.drop 6) none b₂ =
      runItems services [.pop .esi, .pop .eax] none b₃ := run_op rfl
  obtain ⟨b₄, popped, esp, esi, eax, interrupts⟩ := run_pops services esp₁ stack₁ flags₁ keeps₃
    (by decide : Reg.esi ≠ .eax) (by decide) (by decide)
  have ran : runItems services hookPmFault none b = some b₄ :=
    pushed.trans (called.trans (stored.trans popped))
  rw [leavesIntact_iff ran esp interrupts, show pushedRegs hookPmFault = [.eax, .esi] from rfl]
  simp only [List.forall_mem_cons, eax, esi, true_and]
  exact fun r mem => absurd mem List.not_mem_nil

/-- The two registers stay on the stack. -/
theorem unhookPmFault_intact (documented : ∀ f, Documented f.outputs (services f)) :
    ¬LeavesIntact services unhookPmFault b := by
  obtain ⟨b₁, pushed, esp₁, stack₁, flags₁, -⟩ :=
    run_pushes services (k := unhookPmFault.drop 2) b .eax (by decide : Reg.esi ≠ .esp)
  obtain ⟨b₂, called, keeps⟩ := run_pmFault services (b := b₁) (k := [])
    (documented .unhookPmFault) (by decide)
  rintro ⟨b', ran, restored⟩
  obtain rfl : b₂ = b' := Option.some.inj ((pushed.trans called).symm.trans ran)
  have esp := restored.esp
  rw [keeps.esp, esp₁] at esp
  bv_omega

/-- One register is pushed around a call of a page fault service. -/
theorem invalidPageFault_intact {f : Service} (documented : Documented f.outputs (services f))
    (other : .esp ∉ f.outputs) {c : Code}
    (code_eq : code = .push .esi :: load .esi .callback :: call f :: (c ++ [.pop .esi]))
    (regs : pushedRegs code = [.esi])
    (runs : ∀ b₂ : Block.State ξ Var, ∃ b₃, runItems services (c ++ [.pop .esi]) none b₂ =
      runItems services ([.pop .esi] : Code) none b₃ ∧ b₃.cpu = b₂.cpu) :
    LeavesIntact services code b := by
  have empty : Stack [] b.cpu := fun i v there => absurd there (by simp)
  obtain ⟨b₁, pushed, esp₁, -, stack₁, flags₁, -⟩ := run_push services
    (k := load .esi .callback :: call f :: (c ++ [.pop .esi])) empty (by simp) .esi
  obtain ⟨b₂, called, keeps⟩ := run_invalidPageFault services (b := b₁) (k := c ++ [.pop .esi])
    documented other
  obtain ⟨b₃, passed, cpu⟩ := runs b₂
  have keeps₃ : Keeps b₁.cpu b₃.cpu := cpu ▸ keeps
  obtain ⟨b₄, popped, esp₄, esi, -, -, flags₄⟩ := run_pop services (k := [])
    (keeps₃.on_stack stack₁ (by simp)) (by decide : Reg.esi ≠ .esp)
  have ran : runItems services code none b = some b₄ := by
    rw [code_eq]
    exact pushed.trans (called.trans (passed.trans popped))
  have esp : b₄.cpu.reg .esp = b.cpu.reg .esp := by
    rw [esp₄, keeps₃.esp, esp₁, BitVec.sub_add_cancel]
  have interrupts : interruptFlag b₄.cpu.eflags = interruptFlag b.cpu.eflags := by
    rw [flags₄, keeps₃.interrupts, flags₁]
  rw [leavesIntact_iff ran esp interrupts, regs]
  simp only [List.forall_mem_cons, esi, true_and]
  exact fun r mem => absurd mem List.not_mem_nil

theorem hookInvalidPageFault_intact (documented : ∀ f, Documented f.outputs (services f)) :
    LeavesIntact services hookInvalidPageFault b := by
  let c : Code := [.jump .jc .notInstalled, .op (.store .rc (.imm 1)), .label .notInstalled]
  exact invalidPageFault_intact (documented .hookInvalidPageFault) (by decide) (c := c) rfl rfl
    fun b₂ => run_rc services

theorem unhookInvalidPageFault_intact (documented : ∀ f, Documented f.outputs (services f)) :
    LeavesIntact services unhookInvalidPageFault b :=
  invalidPageFault_intact (documented .unhookInvalidPageFault) (by decide) (c := []) rfl rfl
    fun b₂ => ⟨b₂, rfl, rfl⟩

/-! ## The wait for the local APIC -/

/-- Whenever it is looked at, the last command is delivered some time later. -/
def Delivers (l : Lapic) : Prop := ∀ n, ∃ k, n ≤ k ∧ l.icr k &&& deliveryStatus = 0

theorem waitDelivery_finishes {icr : Nat → Word} {n d : Nat} (ready : icr (n + d) &&& deliveryStatus = 0) :
    ∃ m, Transition.Finishes none (fun fuel => waitDelivery icr fuel n) (some m) := by
  induction d generalizing n with
  | zero =>
      refine ⟨n + 1, .now rfl fun fuel => ?_⟩
      exact if_neg (not_not.2 ready)
  | succ d ih =>
      by_cases now : icr n &&& deliveryStatus = 0
      · refine ⟨n + 1, .now rfl fun fuel => ?_⟩
        rw [waitDelivery, if_neg (not_not.2 now)]
      · obtain ⟨m, rest⟩ := ih (n := n + 1) (by rwa [Nat.add_assoc, Nat.add_comm 1 d])
        refine ⟨m, .later rfl (fun fuel => ?_) rest⟩
        rw [waitDelivery, if_pos now]

theorem Delivers.waits {l : Lapic} (delivers : Delivers l) (n : Nat) :
    ∃ m least, ∀ fuel ≥ least, waitDelivery l.icr fuel n = some m := by
  obtain ⟨k, le, ready⟩ := delivers n
  obtain ⟨m, least, ends⟩ := @waitDelivery_finishes l.icr n (k - n)
    (by rwa [Nat.add_sub_cancel' le])
  refine ⟨m, least, fun fuel enough => ?_⟩
  exact (ends fuel).trans (if_pos enough)

theorem smpWakeup_eq {b₁ b₂ : Block.State ξ Var} {apid : Word} {l : Lapic} (there : l.base ≠ 0)
    (enabled : runItems services enableApic none b = some b₁)
    (restored : runItems services restoreApic none b₁ = some b₂) (fuel : Nat) :
    smpWakeup services fuel apid b l = (waitDelivery l.icr fuel l.reads).bind fun n =>
      let high := (l.icrHigh &&& 0x00FFFFFF) ||| (apid <<< 24)
      let low := (l.icr n &&& 0xFFF00000) ||| 0x005400
      (waitDelivery l.icr fuel (n + 1)).map fun n' => (b₂,
        { l with reads := n', icrHigh := high, commands := l.commands ++ [(high, low)] }, true) := by
  rw [smpWakeup, if_pos there, enabled]
  simp only [restored, Option.bind_eq_bind, Option.bind_some, Option.pure_def, Option.map_eq_bind]
  rfl

/-- `smp_wakeup` leaves interrupts enabled. -/
theorem smpWakeup_intact {apid : Word} {l : Lapic} (ring : b.cpu.cpl = 0) (delivers : Delivers l) :
    WakeupLeavesIntact services apid b l ↔ interruptFlag b.cpu.eflags = true ∨ l.base = 0 := by
  by_cases none : l.base = 0
  · refine iff_of_true ⟨0, b, l, false, ?_, rfl, fun r mem => absurd mem List.not_mem_nil, rfl⟩ (.inr none)
    exact if_neg (not_not.2 none)
  obtain ⟨b₁, enabled, esp₁, ring₁⟩ := run_enableApic services ring
  obtain ⟨b₂, restored, esp₂, on₂⟩ := run_restoreApic services ring₁
  constructor
  · rintro ⟨fuel, b', l', rc, ran, intact⟩
    rw [smpWakeup_eq none enabled restored] at ran
    obtain ⟨n, -, ran⟩ := Option.bind_eq_some_iff.1 ran
    obtain ⟨n', -, same⟩ := Option.map_eq_some_iff.1 ran
    obtain rfl : b₂ = b' := congrArg Prod.fst same
    exact .inl (intact.interrupts.symm.trans on₂)
  · intro on
    replace on := on.resolve_right none
    obtain ⟨n, least, first⟩ := delivers.waits l.reads
    obtain ⟨n', least', second⟩ := delivers.waits (n + 1)
    have ends : ∃ l', smpWakeup services (max least least') apid b l = some (b₂, l', true) := by
      rw [smpWakeup_eq none enabled restored, first _ (Nat.le_max_left ..), Option.bind_some,
        second _ (Nat.le_max_right ..)]
      exact ⟨_, rfl⟩
    obtain ⟨l', ran⟩ := ends
    refine ⟨_, b₂, l', true, ran, esp₂.trans esp₁, ?_, on₂.trans on.symm⟩
    exact fun r mem => absurd mem List.not_mem_nil

/-- The blocks that leave the state of their caller intact, and those that do so only when what
they mix up is equal, or never. -/
theorem inline_assembly_intact (documented : ∀ f, Documented f.outputs (services f)) {l : Lapic}
    (ring : b.cpu.cpl = 0) (delivers : Delivers l) (apid : Word) (apart : PageApart b) :
    (LeavesIntact services copyPd b ↔ b.cpu.reg .esi = b.cpu.reg .edi) ∧
      (LeavesIntact services getVmmVersion b ↔ b.cpu.reg .ecx = b.cpu.reg .eax) ∧
      LeavesIntact services hookPmFault b ∧ ¬LeavesIntact services unhookPmFault b ∧
      LeavesIntact services hookInvalidPageFault b ∧ LeavesIntact services unhookInvalidPageFault b ∧
      (WakeupLeavesIntact services apid b l ↔
        interruptFlag b.cpu.eflags = true ∨ l.base = 0) :=
  ⟨copyPd_intact apart, getVmmVersion_intact documented, hookPmFault_intact documented,
    unhookPmFault_intact documented, hookInvalidPageFault_intact documented,
    unhookInvalidPageFault_intact documented, smpWakeup_intact ring delivers⟩

end

/-- Services that do nothing. -/
def idle (_ : Service) (s : X86.State Unit) : X86.State Unit := s

theorem idle_documented (f : Service) : Documented f.outputs (idle f) where
  reg _ _ _ := rfl
  flags s := SameControl.refl s.eflags
  stack s := AgreeOn.refl _ _ s.mem

/-- A caller with these values in the registers that are pushed. -/
def caller (eax ecx esi edi eflags : Word) : Block.State Unit Var where
  cpu :=
    { blank with
      eflags := eflags
      reg := fun
        | .eax => eax
        | .ecx => ecx
        | .esi => esi
        | .edi => edi
        | _ => 0x1000 }
  var := fun v => if v = .destPd then 0x4000 else 0
  msr := fun _ => 0

theorem caller_apart (eax ecx esi edi eflags : Word) : PageApart (caller eax ecx esi edi eflags) := by
  intro i lt
  change 12 ≤ (0x4000 + .ofNat 32 i - (0x1000 - 12) : Word).toNat
  bv_omega

/-- A local APIC that delivers at once. -/
def lapicAt (base : Word) : Lapic := ⟨base, fun _ => 0, 0, 0, []⟩

theorem lapicAt_delivers (base : Word) : Delivers (lapicAt base) := fun n =>
  ⟨n, Nat.le_refl n, BitVec.zero_and⟩

theorem inline_assembly_intact_equal : LeavesIntact idle copyPd (caller 3 3 5 5 0x202) ∧
    LeavesIntact idle getVmmVersion (caller 3 3 5 5 0x202) ∧
    WakeupLeavesIntact idle 1 (caller 3 3 5 5 0x202) (lapicAt 0xFEE00000) := by
  obtain ⟨copy, version, -, -, -, -, wakeup⟩ := inline_assembly_intact
    (b := caller 3 3 5 5 0x202) idle_documented rfl (lapicAt_delivers 0xFEE00000) 1
    (caller_apart 3 3 5 5 0x202)
  exact ⟨copy.2 rfl, version.2 rfl, wakeup.2 (.inl rfl)⟩

/-- With different values in ESI and EDI, or in EAX and ECX, they come back exchanged; the
words that Unhook_PM_Fault has pushed stay on the stack; and interrupts that were disabled
are enabled. -/
theorem inline_assembly_exchanges : ¬LeavesIntact idle copyPd (caller 3 4 1 2 0x2) ∧
    ¬LeavesIntact idle getVmmVersion (caller 3 4 1 2 0x2) ∧
    ¬LeavesIntact idle unhookPmFault (caller 3 4 1 2 0x2) ∧
    ¬WakeupLeavesIntact idle 1 (caller 3 4 1 2 0x2) (lapicAt 0xFEE00000) := by
  refine ⟨fun intact => ?_, fun intact => ?_, unhookPmFault_intact idle_documented, fun intact => ?_⟩
  · have same := (copyPd_intact (caller_apart 3 4 1 2 0x2)).1 intact
    exact absurd same (by decide)
  · have same := (getVmmVersion_intact idle_documented).1 intact
    exact absurd same (by decide)
  · have on := (smpWakeup_intact rfl (lapicAt_delivers 0xFEE00000)).1 intact
    exact absurd on (by decide)

end SmpVxd.InlineAsm
