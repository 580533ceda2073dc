import SmpVxd.Driver.ThreadTable
import SmpVxd.Driver.Timer
import Mathlib.Data.Finset.Range

/-!
# The state of the machine

One BSP and the APs that `smp_init` registered share the thread table, the global
data and the per-AP data blocks. The BSP executes one driver operation at a time
(ring 0 of the VMM is not preempted); each AP loops through `smp_ap_main`. Every
CPU has a program point, and between two program points it makes at most one
access to data that another CPU may be using at that time.

The lock words of the threads live in ring-3 memory of their own (`mem`), apart
from the driver's data, as the user guide of the driver demands of them.
-/

namespace SmpVxd

/-- What `smp_init` fixes: the slots of `ttable` with their data pages, the kernel
page and the extended state in use. The slot of the boot processor is empty. -/
structure Config where
  ttableMax : Nat
  /-- `ttable[i].data != NULL` -/
  present : Nat → Bool
  present_le : ∀ i, present i = true → i ≤ ttableMax
  ttableMax_lt : ttableMax < maxCores
  /-- `ttable[i].stack` -/
  stack : Nat → Dword
  kernelFlat : Dword
  kernelFlat_page : kernelFlat.toNat % pSize.toNat = 0
  xsaveFlags : Dword
  noSysFxsave : Bool

/-- The slots of the APs. -/
def Config.slots (cfg : Config) : Finset Nat :=
  (Finset.range (cfg.ttableMax + 1)).filter fun i => cfg.present i = true

theorem Config.mem_slots {cfg : Config} {i : Nat} : i ∈ cfg.slots ↔ cfg.present i = true := by
  simp only [slots, Finset.mem_filter, Finset.mem_range, and_iff_right_iff_imp]
  intro present
  exact Nat.lt_succ_of_le (cfg.present_le i present)

/-- Program points of an AP: start-up, the statements of `smp_ap_main`, and what
the AP kernel does with its result. The argument of `switch` and the first one of
`atomicUnlock` is the local variable `s`, the second one of the latter is `rc`. -/
inductive ApPc where
  | off
  | kernelBoot
  | atomicLock
  | switch (s : Status)
  | clearIdleLock (lock : Dword)
  | incLoad
  | incStore (cnt : Dword)
  | atomicUnlock (s : Status) (rc : Bool)
  | sti
  | hlt
  | halted
  | switchtask
  | ring3 (tid : Dword)
  deriving DecidableEq

/-- The value of the status word that an AP keeps while it holds the word: the
local `s` as it will be written back. An AP that has not booted is the owner of
the word it starts with, and gives it back as `S_READY`. -/
def ApPc.held : ApPc → Option Status
  | .off | .kernelBoot => some .ready
  | .switch s => some s
  | .clearIdleLock _ => some .running
  | .incLoad | .incStore _ => some .ready
  | .atomicUnlock s _ => some s
  | .atomicLock | .sti | .hlt | .halted | .switchtask | .ring3 _ => none

/-- `tdata_t` of an AP together with its CPU. `nmi` counts the wake-up interrupts
that are in flight to it. -/
structure Ap where
  status : Status
  threadId : Dword
  threadPtr : Dword
  procState : Crs
  fpuState : ExtState
  pd : Nat → Dword
  lastActive : BitVec 64
  pc : ApPc
  fpu : ExtState
  nmi : Nat

/-- Who called `switch_to_ap`: `callback_int3` for `fly`, or `thread_switch`, which
goes on with the thread that is switched in. -/
inductive Caller where
  | int3
  | threadSwitch (curTid : Dword) (cbsNew : Tcb)

/-- The local variables of `switch_to_ap`. -/
structure ToAp where
  caller : Caller
  threadId : Dword
  crs : Crs
  cpu : Nat
  found : Bool
  wakeup : Bool

/-- The local variables of `switch_to_bsp`. -/
structure ToBsp where
  threadId : Dword
  crs : Crs
  cpu : Nat

/-- Program points of the BSP: the wait for the APs at start-up, then the driver
operations. A `Status` argument is the local `s` while the word is held. -/
inductive Bsp where
  | smpInitBsp (i : Nat)
  | idle
  -- Device_Thread_Destroy
  | destroyLock (tid : Dword) (cpu : Nat)
  | destroyDiscard (tid : Dword) (cpu : Nat) (s : Status)
  | destroyUnlock (tid : Dword) (cpu : Nat) (s : Status)
  | destroyFree (tid : Dword)
  -- switch_to_ap
  | apLoop (l : ToAp)
  | apLock (l : ToAp)
  | apSwitch (l : ToAp) (s : Status)
  | apStore (l : ToAp) (s : Status)
  | apWakeup (l : ToAp) (s : Status)
  | apUnlock (l : ToAp) (s : Status)
  | decLoad (l : ToAp)
  | decStore (l : ToAp) (cnt : Dword)
  -- switch_to_bsp
  | bspLock (l : ToBsp)
  | bspTest (l : ToBsp) (s : Status)
  | incLoad (l : ToBsp)
  | incStore (l : ToBsp) (cnt : Dword)
  | bspUnlock (l : ToBsp) (s : Status) (rc : Bool)
  -- the rest of thread_switch, and Restore_Client_State in callback_int3
  | switchIn (curTid : Dword) (cbsNew : Tcb)
  | restoreClient (crs : Crs) (rc : Bool)

/-- The slot whose status word the BSP holds, with the value to be written back. -/
def Bsp.lock : Bsp → Option (Nat × Status)
  | .destroyDiscard _ cpu s | .destroyUnlock _ cpu s => some (cpu, s)
  | .apSwitch l s | .apStore l s | .apWakeup l s | .apUnlock l s => some (l.cpu, s)
  | .bspTest l s | .bspUnlock l s _ => some (l.cpu, s)
  | .incLoad l | .incStore l _ => some (l.cpu, .ready)
  | .smpInitBsp _ | .idle | .destroyLock _ _ | .destroyFree _ | .apLoop _ | .apLock _
  | .decLoad _ | .decStore _ _ | .bspLock _ | .switchIn _ _ | .restoreClient _ _ => none

/-- The value that the BSP keeps for slot `i` while it holds the word of `i`. -/
def Bsp.held (b : Bsp) (i : Nat) : Option Status :=
  b.lock.bind fun (cpu, s) => if cpu = i then some s else none

/-- No driver operation is in progress. -/
def Bsp.isIdle : Bsp → Bool
  | .idle => true
  | _ => false

theorem Bsp.isIdle_iff {b : Bsp} : b.isIdle = true ↔ b = .idle := by
  cases b <;> simp [Bsp.isIdle]

/-- The whole machine. `bspThread` and `apFreeCnt` are `gdata`, a null pointer is
`0`; `fpu` is the live extended state of the BSP and `pageDir` the page directory
that `copy_pd` finds there. -/
structure Sys where
  ap : Nat → Ap
  tsHt : TsHt
  actTid : Dword
  bspThread : Dword
  apFreeCnt : Dword
  mem : Dword → Dword
  fpu : ExtState
  pageDir : Nat → Dword
  bsp : Bsp

namespace Sys

def setAp (s : Sys) (i : Nat) (a : Ap) : Sys := { s with ap := Function.update s.ap i a }

variable (s : Sys) (i : Nat) (a : Ap)

@[simp] theorem setAp_self : (s.setAp i a).ap i = a := Function.update_self ..

theorem setAp_ne {j : Nat} (ne : j ≠ i) : (s.setAp i a).ap j = s.ap j :=
  Function.update_of_ne ne ..

theorem setAp_apply (j : Nat) : (s.setAp i a).ap j = if j = i then a else s.ap j :=
  Function.update_apply ..

@[simp] theorem setAp_tsHt : (s.setAp i a).tsHt = s.tsHt := rfl
@[simp] theorem setAp_actTid : (s.setAp i a).actTid = s.actTid := rfl
@[simp] theorem setAp_apFreeCnt : (s.setAp i a).apFreeCnt = s.apFreeCnt := rfl
@[simp] theorem setAp_mem : (s.setAp i a).mem = s.mem := rfl
@[simp] theorem setAp_bsp : (s.setAp i a).bsp = s.bsp := rfl

/-- The value of the status word of slot `i` as the protocol sees it: the value
its holder will write back, or the word itself when nobody holds it. -/
def value (s : Sys) (i : Nat) : Status :=
  match (s.ap i).pc.held with
  | some v => v
  | none => (s.bsp.held i).getD (s.ap i).status

end Sys

end SmpVxd
