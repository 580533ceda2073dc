import SmpVxd.Boot.SmpInit
import SmpVxd.Transition.Basic
import SmpVxd.X86.Machine

/-!
# The start of the APs

`smp_init_bsp` borrows 512 bytes of low memory, puts the boot code and its variables
there, and starts one AP after the other with interprocessor interrupts of its local
APIC. An AP that is started loads the variables while the BSP waits for it. Every
statement of the BSP, every instruction of the boot code and every delivery of an
interrupt is a step of its own.
-/

namespace SmpVxd.Startup

open X86
open Boot (Byte)

def apBootVarOff : Word := 0x0180
def apbootLen : Nat := 508
def apicGlobalEnable : Word := 0x800

/-! ## Processors -/

/-- What a processor does as far as the start is concerned. `lost` stands for any code
that is not the boot code or the kernel. -/
inductive CpuPc where
  | halted
  | waitSipi
  | boot (n : Nat)
  | kernelBoot
  | running
  | lost
  deriving DecidableEq

structure Cpu where
  pc : CpuPc
  reg : Reg → Word
  eip : Word
  seg : SReg → Selector
  tr : Selector
  cr0 : Word
  cr3 : Word
  gdtr : BitVec 16 × Word
  idtr : BitVec 16 × Word

/-- A message of the local APIC. -/
inductive Ipi where
  | init
  | initDeassert
  | startup (vector : Byte)
  | other
  deriving DecidableEq

/-- The message that the low half of the interrupt command register describes; a
destination shorthand and a logical destination are not used. -/
def Ipi.decode (icr : Word) : Ipi :=
  if icr &&& 0xC0800 ≠ 0 then .other
  else if icr &&& 0x700 = 0x500 then if icr &&& 0x4000 ≠ 0 then .init else .initDeassert
  else if icr &&& 0x700 = 0x600 then .startup (icr.setWidth 8)
  else .other

/-- The effect of a message. INIT keeps CD and NW of CR0; a start-up message is for a
processor that waits for it. -/
def Cpu.accept (c : Cpu) : Ipi → Cpu
  | .init =>
      { c with
        pc := .waitSipi
        reg := fun _ => 0
        cr0 := (c.cr0 &&& 0x60000000) ||| 0x10
        cr3 := 0
        gdtr := (0xFFFF, 0)
        idtr := (0xFFFF, 0)
        tr := 0 }
  | .startup vector =>
      if c.pc = .waitSipi then
        { c with
          pc := if vector = 8 then .boot 0 else .lost
          eip := 0
          seg := Function.update (fun _ => 0) .cs (vector.setWidth 16 <<< 8) }
      else c
  | .initDeassert | .other => c

/-! ## The boot code -/

/-- The instructions of `apboot.asm`, with the addresses of their operands. -/
inductive BootInstr where
  | cli
  | cld
  | xorAx
  | movAx (v : Selector)
  | movSeg (dst : SReg)
  | load (dst : Reg) (a : Word)
  | store (a : Word) (src : Reg)
  | orEax (v : Word)
  | andEax (v : Word)
  | movEaxCr0
  | movCr0Eax
  | movCr3Eax
  | lgdt (a : Word)
  | lidt (a : Word)
  | ltr
  /-- To the code at `0x8100`. -/
  | jmpFar (cs : Selector)
  /-- To the address that is found in the instruction. -/
  | jmpKernel (cs : Selector)

def gdtValue : Word := 0x8180
def idtValue : Word := 0x8186
def sysCr3 : Word := 0x818C
def sysStart : Word := 0x8190
def sysStack : Word := 0x8194
def bspId : Word := 0x8198
def ttable : Word := 0x819C
def gdata : Word := 0x81A0
def gdtValueTmp : Word := 0x81C4
def farJmpAddress : Word := 0x8148

def apBoot16 : List BootInstr :=
  [.cli, .cld, .xorAx, .movSeg .ds,
    -- temporary GDT when is PG=0
    .lgdt gdtValueTmp,
    .load .eax sysCr3, .load .ecx sysStart, .load .esp sysStack, .load .esi bspId,
    .load .edi ttable, .load .edx gdata,
    .movCr3Eax, .movEaxCr0, .orEax 0x00000001, .movCr0Eax, .jmpFar 0x8]

def apBoot32 : List BootInstr :=
  [.movAx 0x10, .movSeg .ds, .movSeg .ss, .movSeg .es, .movSeg .fs, .movSeg .gs,
    .store farJmpAddress .ecx,
    -- PG MP NE, then -WP -EM
    .movEaxCr0, .orEax 0x80000022, .andEax 0xFFFEFFFB, .movCr0Eax,
    .lgdt gdtValue, .lidt idtValue,
    .movAx 0x10, .movSeg .ds, .movSeg .ss, .movSeg .es, .movSeg .fs, .movSeg .gs,
    .movAx 0x28, .ltr, .jmpKernel 0x8]

def bootCode : List BootInstr := apBoot16 ++ apBoot32

def readHalf (m : Mem) (a : Word) : BitVec 16 := m (a + 1) ++ m a

def Cpu.setReg (c : Cpu) (r : Reg) (v : Word) : Cpu := { c with reg := Function.update c.reg r v }

/-- `mov ax, v` -/
def Cpu.setAx (c : Cpu) (v : Selector) : Cpu :=
  c.setReg .eax ((c.reg .eax &&& 0xFFFF0000) ||| v.setWidth 32)

/-- One instruction on the low memory and the processor. -/
def BootInstr.exec : Mem × Cpu → BootInstr → Mem × Cpu
  | (m, c), .cli | (m, c), .cld => (m, c)
  | (m, c), .xorAx => (m, c.setAx 0)
  | (m, c), .movAx v => (m, c.setAx v)
  | (m, c), .movSeg dst => (m, { c with seg := Function.update c.seg dst ((c.reg .eax).setWidth 16) })
  | (m, c), .load dst a => (m, c.setReg dst (m.read a))
  | (m, c), .store a src => (m.write a (c.reg src), c)
  | (m, c), .orEax v => (m, c.setReg .eax (c.reg .eax ||| v))
  | (m, c), .andEax v => (m, c.setReg .eax (c.reg .eax &&& v))
  | (m, c), .movEaxCr0 => (m, c.setReg .eax c.cr0)
  | (m, c), .movCr0Eax => (m, { c with cr0 := c.reg .eax })
  | (m, c), .movCr3Eax => (m, { c with cr3 := c.reg .eax })
  | (m, c), .lgdt a => (m, { c with gdtr := (readHalf m a, m.read (a + 2)) })
  | (m, c), .lidt a => (m, { c with idtr := (readHalf m a, m.read (a + 2)) })
  | (m, c), .ltr => (m, { c with tr := (c.reg .eax).setWidth 16 })
  | (m, c), .jmpFar cs => (m, { c with seg := Function.update c.seg .cs cs, eip := 0x8100 })
  | (m, c), .jmpKernel cs =>
      (m, { c with seg := Function.update c.seg .cs cs, eip := m.read farJmpAddress })

/-! ## The BSP -/

/-- What `smp_init` has prepared when it calls `smp_init_bsp`, and what the machine
holds then. A slot without an AP has no stack. -/
structure Setup where
  ttableMax : Nat
  ttableMax_lt : ttableMax < maxCores
  /-- `ttable[i].stack` and the address in `ttable[i].data` -/
  stack : Nat → Dword
  data : Nat → Dword
  cpuCr3 : Nat → Dword
  bspid : Byte
  kernelFlat : Dword
  ttable : Dword
  gdata : Dword
  bootPdePhy : Dword
  sysPd : Nat → Dword
  /-- The array that the assembler has made of `apboot.asm`. -/
  apboot : List Byte
  apboot_len : apboot.length = apbootLen
  firstMb : Mem
  apicBase : Word × Word
  /-- Spurious interrupt vector register and both halves of the interrupt command register. -/
  svr : Word
  icr : Word × Word
  cpu : Nat → Cpu

variable (cfg : Setup)

/-- The slots that the loop of `smp_init_bsp` does not skip. -/
def Setup.registered (i : Nat) : Bool := cfg.stack i ≠ 0 ∧ i ≠ cfg.bspid.toNat

def Setup.vars (i : Nat) : Boot.ApbootVars where
  gdtSize := 47
  gdtAddress := cfg.data i + Boot.tdataGdt
  idtSize := 256 * 8 - 1
  idtAddress := cfg.kernelFlat + Boot.apKernelIsrOff
  sysCr3 := cfg.cpuCr3 i
  kernelAddr := cfg.kernelFlat
  stackAddr := cfg.stack i + stackOffKernel
  bspId := cfg.bspid
  ttable := cfg.ttable
  gdata := cfg.gdata

/-- A field of `apboot_vars_t`: its offset, its size and its value. -/
def fields (vars : Boot.ApbootVars) : List (Word × Nat × Word) :=
  [(0, 2, vars.gdtSize.setWidth 32), (2, 4, vars.gdtAddress), (6, 2, vars.idtSize.setWidth 32),
    (8, 4, vars.idtAddress), (12, 4, vars.sysCr3), (16, 4, vars.kernelAddr), (20, 4, vars.stackAddr),
    (24, 4, vars.bspId.setWidth 32), (28, 4, vars.ttable), (32, 4, vars.gdata)]

/-- Store the low `n` bytes of a word. -/
def storeField (m : Mem) (a : Word) (n : Nat) (v : Word) : Mem :=
  m.blit a n fun k => v.extractLsb' (8 * k) 8

/-- The statements for one slot. `send keep v` writes the low half of the command
register, with the bits of `keep` as they are. -/
inductive Stmt where
  | copyPd
  | mapBoot
  | field (a : Word) (n : Nat) (v : Word)
  | select
  | send (keep v : Word)
  | clearErrors
  | delay
  | waitDelivery
  | waitReady

def prepareCode (i : Nat) : List Stmt :=
  [.copyPd, .mapBoot] ++
    (fields (cfg.vars i)).map fun f => .field (Boot.apBootAddr + apBootVarOff + f.1) f.2.1 f.2.2

def ipiCode : List Stmt :=
  [
    -- send INIT IPI
    .select, .send 0xfff00000 0x00C500, .waitDelivery,
    -- deassert
    .select, .send 0xfff00000 0x008500, .waitDelivery, .delay,
    -- send STARTUP IPI (twice)
    .clearErrors, .select, .send 0xfff0f800 0x000608, .delay, .waitDelivery,
    .clearErrors, .select, .send 0xfff0f800 0x000608, .delay, .waitDelivery,
    -- wait for CPU boot
    .waitReady]

def slotCode (i : Nat) : List Stmt := prepareCode cfg i ++ ipiCode

/-- Program points of `smp_init_bsp`; `slot i k` is statement `k` of the loop body. -/
inductive BspPc where
  | apicBase
  | backup (k : Nat)
  | install (k : Nat)
  | svr
  | waitIdle
  | slot (i k : Nat)
  | restore (k : Nat)
  | restoreBase
  | returned
  deriving DecidableEq

structure State where
  low : Mem
  pageBackup : Nat → Byte
  apicBase : Word × Word
  msr : Word × Word
  svr : Word
  icrHigh : Word
  icrLow : Word
  /-- The message that the APIC of the BSP is about to deliver, with its destination. -/
  flight : Option (Nat × Ipi)
  pd : Nat → Nat → Dword
  status : Nat → Status
  cpu : Nat → Cpu
  bsp : BspPc

def State.setCpu (s : State) (i : Nat) (c : Cpu) : State := { s with cpu := Function.update s.cpu i c }

/-- `lapic32[0x300/4]`: bit 12 reads as 1 until the message is delivered. -/
def State.icr (s : State) : Word :=
  (s.icrLow &&& ~~~0x1000) ||| if s.flight.isSome then 0x1000 else 0

/-- Statement `k` for slot `i`, which goes on at `next`. -/
def Stmt.exec (s : State) (i : Nat) (next : BspPc) : Stmt → State
  | .copyPd => { s with pd := Function.update s.pd i cfg.sysPd, bsp := next }
  | .mapBoot =>
      { s with
        pd := Function.update s.pd i (Function.update (s.pd i) 0 (cfg.bootPdePhy ||| 0x7))
        bsp := next }
  | .field a n v => { s with low := storeField s.low a n v, bsp := next }
  | .select => { s with icrHigh := (s.icrHigh &&& 0x00ffffff) ||| (BitVec.ofNat 32 i <<< 24), bsp := next }
  | .send keep v =>
      let icrLow := (s.icr &&& keep) ||| v
      { s with
        icrLow := icrLow
        flight := some ((s.icrHigh >>> 24).toNat, .decode icrLow)
        bsp := next }
  | .clearErrors | .delay => { s with bsp := next }
  | .waitDelivery => if s.icr &&& 0x1000 ≠ 0 then s else { s with bsp := next }
  | .waitReady => if s.status i = .busy then s else { s with bsp := next }

/-- One statement of `smp_init_bsp`; the copies are made byte by byte. -/
def bspStep (s : State) : Option State :=
  match s.bsp with
  | .apicBase =>
      some { s with
        msr := s.apicBase
        apicBase := (s.apicBase.1 ||| apicGlobalEnable, s.apicBase.2)
        bsp := .backup 0 }
  | .backup k =>
      if k < Boot.pageBackupSize then
        some { s with
          pageBackup := Function.update s.pageBackup k (s.low (Boot.apBootAddr + .ofNat 32 k))
          bsp := .backup (k + 1) }
      else some { s with bsp := .install 0 }
  | .install k => match cfg.apboot[k]? with
      | some b =>
          some { s with low := s.low.set (Boot.apBootAddr + .ofNat 32 k) b, bsp := .install (k + 1) }
      | none => some { s with bsp := .svr }
  | .svr => some { s with svr := s.svr ||| 0x100, bsp := .waitIdle }
  | .waitIdle => if s.icr &&& 0x1000 ≠ 0 then some s else some { s with bsp := .slot 0 0 }
  | .slot i k =>
      if cfg.ttableMax < i then some { s with bsp := .restore 0 }
      else if cfg.registered i then
        match (slotCode cfg i)[k]? with
        | some stmt => some (stmt.exec cfg s i (.slot i (k + 1)))
        | none => some { s with bsp := .slot (i + 1) 0 }
      else some { s with bsp := .slot (i + 1) 0 }
  | .restore k =>
      if k < Boot.pageBackupSize then
        some { s with
          low := s.low.set (Boot.apBootAddr + .ofNat 32 k) (s.pageBackup k)
          bsp := .restore (k + 1) }
      else some { s with bsp := .restoreBase }
  | .restoreBase => some { s with apicBase := s.msr, bsp := .returned }
  | .returned => none

/-- One instruction of processor `i`. The whole of `_kernel_boot` is the step that ends with
the exchange of `S_READY`. -/
def cpuStep (s : State) (i : Nat) : Option State :=
  match (s.cpu i).pc with
  | .boot n =>
      match bootCode[n]? with
      | some instr =>
          let (low, c) := instr.exec (s.low, s.cpu i)
          let pc :=
            if n + 1 < bootCode.length then .boot (n + 1)
            else if c.eip = cfg.kernelFlat then .kernelBoot else .lost
          some { s.setCpu i { c with pc := pc } with low := low }
      | none => none
  | .kernelBoot =>
      some { s.setCpu i { s.cpu i with pc := .running } with
        status := Function.update s.status i .ready }
  | _ => none

/-- The message arrives. -/
def deliverStep (s : State) : Option State :=
  match s.flight with
  | some (i, ipi) => some { s.setCpu i ((s.cpu i).accept ipi) with flight := none }
  | none => none

inductive Action where
  | bsp
  | cpu (i : Nat)
  | deliver
  deriving DecidableEq

def step (s : State) : Action → Option State
  | .bsp => bspStep cfg s
  | .cpu i => cpuStep cfg s i
  | .deliver => deliverStep s

abbrev Step : State → Action → State → Prop := Transition.graph (step cfg)

/-- The state in which `smp_init` calls `smp_init_bsp`: the firmware has halted the APs, and
their words are `S_BUSY`. -/
def start : State where
  low := cfg.firstMb
  pageBackup _ := 0
  apicBase := cfg.apicBase
  msr := (0, 0)
  svr := cfg.svr
  icrHigh := cfg.icr.1
  icrLow := cfg.icr.2
  flight := none
  pd _ _ := 0
  status _ := .busy
  cpu i := { cfg.cpu i with pc := .halted }
  bsp := .apicBase

/-- The message that a statement sends. -/
def Stmt.message (s : State) : Stmt → Option (Nat × Ipi)
  | .send keep v => some ((s.icrHigh >>> 24).toNat, .decode ((s.icr &&& keep) ||| v))
  | _ => none

/-- The messages of a run. -/
def ipiEvent (s : State) : Action → Option (Nat × Ipi)
  | .bsp => match s.bsp with
      | .slot i k =>
          if i ≤ cfg.ttableMax ∧ cfg.registered i then (slotCode cfg i)[k]?.bind (Stmt.message s) else none
      | _ => none
  | _ => none

end SmpVxd.Startup
