import Mathlib.Data.BitVec

/-!
# States, constants and register contexts of the driver

The status word of an AP takes the values `S_BUSY` to `S_DIRCARD`; `S_BUSY` is at
the same time the lock bit of the word. `Crs` is the part of the client register
structure that the driver copies (`CRS_32_EFECTIVE_SIZE` bytes). The functions at
the end say on registers what the ring changes of the AP kernel do to a context;
the instruction sequences themselves are executed in `SmpVxd.ApKernel`.
-/

namespace SmpVxd

abbrev Dword := BitVec 32

/-- The values of `tdata.status`. -/
inductive Status where
  | busy
  | ready
  | sleep
  | loaded
  | running
  | cargo
  | dircard
  deriving DecidableEq, Repr

namespace Status

/-- The AP is free to take work. -/
def free : Status → Bool
  | .ready | .sleep => true
  | _ => false

/-- The AP holds the context of a thread. -/
def hosting : Status → Bool
  | .loaded | .running | .cargo => true
  | _ => false

/-- A value the status word may be given back with, from the value taken. -/
def Legal (v w : Status) : Prop :=
  v = w ∨ (v, w) ∈ [(ready, sleep), (ready, loaded), (sleep, loaded), (loaded, running),
    (running, cargo), (cargo, ready), (loaded, dircard), (running, dircard), (cargo, dircard),
    (dircard, ready)]

instance (v w : Status) : Decidable (Legal v w) := inferInstanceAs (Decidable (_ ∨ _))

end Status

def maxCores : Nat := 256

def smpModeSystem : Dword := 0
def smpModeAutorun : Dword := 2

def smpOffsetFly : Dword := 0x300
def smpOffsetLand : Dword := 0x400
def smpOffsetReattach : Dword := 0x500
def smpOffsetTrampoline : Dword := 0x580
def smpFnBlockSize : Dword := 0x100

def thflagThreadBlocked : Dword := 1 <<< 0x0A
def thflagRing0Thread : Dword := 1 <<< 0x1C

def pSize : Dword := 0x1000
def stackOffKernel : Dword := pSize * 4 - 4
def stackOffPlaceholder : Dword := pSize * 6 - 4
def stackOffTss : Dword := pSize * 8 - 4

/-- tagCRS_32 up to `CRS_32_EFECTIVE_SIZE`; the 16-bit selectors are kept
together with the padding that is copied with them. -/
structure Crs where
  clientEdi : Dword
  clientEsi : Dword
  clientEbp : Dword
  dwReserved1 : Dword
  clientEbx : Dword
  clientEdx : Dword
  clientEcx : Dword
  clientEax : Dword
  clientError : Dword
  clientEip : Dword
  clientCs : Dword
  clientEFlags : Dword
  clientEsp : Dword
  clientSs : Dword
  clientEs : Dword
  clientDs : Dword
  clientFs : Dword
  clientGs : Dword
  deriving DecidableEq, Repr

/-- The registers a thread sees in ring 3, segments apart. -/
structure UserRegs where
  eax : Dword
  ecx : Dword
  edx : Dword
  ebx : Dword
  esp : Dword
  ebp : Dword
  esi : Dword
  edi : Dword
  eip : Dword
  eflags : Dword
  deriving DecidableEq, Repr

/-- The thread control block fields that the driver reads. -/
structure Tcb where
  tcbFlags : Dword
  tcbClientPtr : Crs

/-- IOPL and IF, which a thread gets on an AP. -/
def eflagsSet : Dword := 0x00003200

/-- VIP, VIF, AC, VM, RF, NT and TF, which a thread loses on an AP. -/
def eflagsClr : Dword := 0x001F4100

def eflagsMask : Dword := eflagsSet ||| eflagsClr

def switchTaskEflags (eflags : Dword) : Dword := (eflags ||| eflagsSet) &&& ~~~eflagsClr

/-- On the way back the masked flags are those that the thread had on the BSP. -/
def switchBackEflags (saved eflags : Dword) : Dword :=
  (eflags &&& ~~~eflagsMask) ||| (saved &&& eflagsMask)

/-- The ring-3 registers that `_switchtask` installs from `proc_state`. -/
def switchTask (proc : Crs) : UserRegs where
  eax := proc.clientEax
  ecx := proc.clientEcx
  edx := proc.clientEdx
  ebx := proc.clientEbx
  esp := proc.clientEsp
  ebp := proc.clientEbp
  esi := proc.clientEsi
  edi := proc.clientEdi
  eip := proc.clientEip
  eflags := switchTaskEflags proc.clientEFlags

/-- The three entry points of the AP's interrupt table that lead to `switch_back`:
`_error_isr`, `_error_isr_code` and `_int3_isr`. -/
inductive Trap where
  | error
  | errorCode
  | int3
  deriving DecidableEq, Repr

/-- `_int3_isr` steps back over the breakpoint unless it is the one of `_land`. -/
def Trap.eip (kernelFlat : Dword) : Trap → Dword → Dword
  | .int3, eip =>
      if kernelFlat + smpOffsetLand ≤ eip ∧
          eip < kernelFlat + smpOffsetLand + smpFnBlockSize then eip
      else eip - 1
  | _, eip => eip

/-- What `switch_back` leaves in `proc_state` when the interrupted registers were
`u` and `pushad` was executed at the stack pointer `sp`. -/
def switchBack (kernelFlat : Dword) (trap : Trap) (u : UserRegs) (sp : Dword) (proc : Crs) : Crs :=
  { proc with
    clientEdi := u.edi
    clientEsi := u.esi
    clientEbp := u.ebp
    dwReserved1 := sp
    clientEbx := u.ebx
    clientEdx := u.edx
    clientEcx := u.ecx
    clientEax := u.eax
    clientEip := trap.eip kernelFlat u.eip
    clientEFlags := switchBackEflags proc.clientEFlags u.eflags
    clientEsp := u.esp }

end SmpVxd
