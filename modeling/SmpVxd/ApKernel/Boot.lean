import SmpVxd.ApKernel.Switch

/-!
# The start of the AP kernel

`_kernel_boot` fills `ap_data` and `init_state` and leaves three words on the stack that
stay there for good.
-/

namespace SmpVxd.ApKernel

open X86

/-! ## `_kernel_boot` -/

/-- The address after the call of `init_xsave`. -/
def initXsaveDone : Word := 0x3B
def goentry : Word := 0x9A

def tdataEntry : Word := 8
def tdataCpuCr4 : Word := 16
def sReady : Word := 1

section Code

variable {ξ : Type}

/-- A processor with CR4 and both halves of XCR0. -/
structure BootCpu (ξ : Type) where
  state : State ξ
  cr4 : Word
  xcr0 : Word × Word

/-- Store a register of 16 bits. -/
def writeHalf (m : Mem) (a : Word) (v : Selector) : Mem := m.blit a 2 fun k => v.extractLsb' (8 * k) 8

/-- `init_xsave`, with ESP at its return address. -/
def initXsave (m : Mem) (esi ecx esp cr4 : Word) (xcr0 : Word × Word) : Mem × Word × Word × Word :=
  let cr4 := cr4 ||| m.read (esi + tdataCpuCr4)
  if cr4.getLsbD 18 then (m.write (esp - 4) ecx, cr4, xcr0.1, xcr0.2 ||| 7)
  else (m, cr4, xcr0)

/-- `ap_data`, and the APIC id on the stack; ECX is there during `cpuid`. -/
def bootApData (s : State ξ) : Mem :=
  let m := s.mem.write (s.reg .ecx + bspId) (s.reg .esi)
  let m := m.write (s.reg .ecx + ttable) (s.reg .edi)
  let m := m.write (s.reg .ecx + gdata) (s.reg .edx)
  let m := m.write (s.reg .esp - 4) (s.reg .ecx)
  m.write (s.reg .esp - 4) ((s.cpuid 1).ebx >>> 24)

/-- The flags at `pushfd`: all status flags are those of the addition to ECX. -/
def bootFlags (s : State ξ) : Word := Alu.add.flags s.eflags (s.reg .ecx) goentry

/-- IOPL 3. -/
def bootImage (s : State ξ) : Word := bootFlags s ||| 0x3000

def bootInitState (s : State ξ) (data : Word) (m : Mem) : Mem :=
  let m := m.write (data + (tdataInitState + clientEbx)) data
  let m := m.write (data + (tdataInitState + clientEdx)) (data + tdataEntry)
  let m := m.write (data + (tdataInitState + clientEip)) (s.reg .ecx + goentry)
  let m := writeHalf m (data + (tdataInitState + clientCs)) (sysCs.setWidth 16)
  let m := writeHalf m (data + (tdataInitState + clientSs)) (s.seg .ss)
  -- pushfd, and push eax for popfd
  let m := m.write (s.reg .esp - 8) (bootFlags s)
  let m := m.write (s.reg .esp - 8) (bootImage s)
  let m := m.write (data + (tdataInitState + clientEFlags)) (bootImage s)
  let m := writeHalf m (data + (tdataInitState + clientDs)) (s.seg .ds)
  let m := writeHalf m (data + (tdataInitState + clientEs)) (s.seg .es)
  let m := writeHalf m (data + (tdataInitState + clientFs)) (s.seg .fs)
  writeHalf m (data + (tdataInitState + clientGs)) (s.seg .gs)

/-- The order on the stack is exchanged. -/
def bootStack (s : State ξ) (data : Word) (m : Mem) : Mem :=
  let eax := m.read (s.reg .esp - 4)
  let m := m.write (s.reg .esp - 4) data
  let m := m.write (s.reg .esp - 8) (data + tdataEntry)
  let m := m.write (s.reg .esp - 12) eax
  m.write (data + (tdataInitState + clientEsp)) (s.reg .esp - 12)

/-- `_kernel_boot`, up to `goentry`, as one function; the exchange that unlocks the AP leaves the
old word in EAX. -/
def kernelBoot (c : BootCpu ξ) : BootCpu ξ :=
  let s := c.state
  let edi := s.reg .edi + ((s.cpuid 1).ebx >>> 24) <<< 3
  let m := bootApData s
  let data := m.read (edi + 4)
  let m := m.write (s.reg .esp - 8) (s.eip + initXsaveDone)
  let x := initXsave m data (s.reg .ecx) (s.reg .esp - 8) c.cr4 c.xcr0
  let m := bootStack s data (bootInitState s data x.1)
  { state := { s with
      reg := fun
        | .eax => m.read data
        | .ecx => s.reg .ecx + goentry
        | .edx => data + tdataEntry
        | .ebx => data
        | .esp => s.reg .esp - 12
        | .ebp => s.reg .ecx + apData
        | .esi => data + tdataInitState
        | .edi => edi
      eip := s.eip + goentry
      eflags := popfdFlags s.cpl (Alu.or.flags (bootFlags s) (bootFlags s) 0x3000) (bootImage s) ||| 0x200
      mem := m.write data sReady }
    cr4 := x.2.1
    xcr0 := x.2.2 }

end Code

/-! ## What the loop finds -/

namespace Pages

variable (a : Pages)

/-- The stack pointer of the loop. -/
def loopEsp : Word := a.stack + (stackOffKernel - 12)

/-- What `smp_init` and `_kernel_boot` have stored for the loop, with the address of
`smp_ap_main`. -/
structure Booted (main : Word) (m : Mem) : Prop where
  ttable : m.read (a.kernel + ApKernel.ttable) = a.ttable
  data : m.read (a.titem + 4) = a.data
  esp0 : m.read (a.data + (tdataProcTss + 4)) = a.esp0
  entry : m.read (a.data + tdataEntry) = main
  initEsp : m.read (a.data + (tdataInitState + clientEsp)) = a.loopEsp
  initEip : m.read (a.data + (tdataInitState + clientEip)) = a.kernel + goentry
  initEdx : m.read (a.data + (tdataInitState + clientEdx)) = a.data + tdataEntry
  /-- The argument of `smp_ap_main`. -/
  argument : m.read a.loopEsp = a.apid.setWidth 32
  /-- The place from which EDX is loaded again. -/
  pointer : m.read (a.loopEsp + 4) = a.data + tdataEntry

end Pages

variable {ξ : Type} {a : Pages} {main : Word} {m : Mem}

/-- The boot code has entered the kernel. -/
structure AtKernel (a : Pages) (main : Word) (s : State ξ) : Prop where
  eip : s.eip = a.kernel
  ring : s.seg .cs = 8
  ecx : s.reg .ecx = a.kernel
  esp : s.reg .esp = a.stack + stackOffKernel
  edi : s.reg .edi = a.ttable
  apid : (s.cpuid 1).ebx >>> 24 = a.apid.setWidth 32
  data : s.mem.read (a.titem + 4) = a.data
  esp0 : s.mem.read (a.data + (tdataProcTss + 4)) = a.esp0
  entry : s.mem.read (a.data + tdataEntry) = main

/-- The AP is about to call its idle function. -/
structure AtGoentry (a : Pages) (main : Word) (s : State ξ) : Prop where
  eip : s.eip = a.kernel + goentry
  ring : s.seg .cs = 8
  esp : s.reg .esp = a.loopEsp
  edx : s.reg .edx = a.data + tdataEntry
  apid : (s.cpuid 1).ebx >>> 24 = a.apid.setWidth 32
  booted : a.Booted main s.mem

variable {s : State ξ} {v i j p : Word} {x : Selector} {n : Nat}

theorem Pages.top_sub (a : Pages) (k : Word) :
    a.stack + stackOffKernel - k = a.stack + (stackOffKernel - k) := by
  bv_omega

/-! ## Stores in other pages -/

theorem offset_inside {k : Nat} (h : i.toNat + n ≤ k) : (p + i - p).toNat + n ≤ k := by
  rwa [BitVec.add_comm, BitVec.add_sub_cancel]

namespace AtKernel

theorem apData (h : AtKernel a main s) : bootApData s =
    ((((s.mem.write (a.kernel + bspId) (s.reg .esi)).write (a.kernel + ttable) a.ttable).write
      (a.kernel + gdata) (s.reg .edx)).write (a.stack + (stackOffKernel - 4)) a.kernel).write
        (a.stack + (stackOffKernel - 4)) (a.apid.setWidth 32) := by
  simp only [bootApData, h.ecx, h.esp, h.edi, h.apid, a.top_sub]

end AtKernel

end SmpVxd.ApKernel
