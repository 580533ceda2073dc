import SmpVxd.System.State
import SmpVxd.Transition.Basic

/-!
# The steps of the machine

`apStep` and `bspStep` execute one statement of an AP and of the BSP; `bspCall`
starts a driver operation on an idle BSP. The remaining actions are the delivery
of a wake-up interrupt, an exception raised by ring-3 code on an AP, and what ring
3 and the operating system may change on the BSP between two operations.
-/

namespace SmpVxd

variable (cfg : Config)

/-- `copy_pd(dest, 0)`: the page directory, with a trap on the kernel32 range. -/
def copyPd (pageDir : Nat → Dword) : Nat → Dword :=
  Function.update pageDir 0x2FF 0

/-- One statement of AP `i`. `now` is the time stamp it reads and `msClock` the
value of `tsc_ms_clock` at that moment. A failed exchange leaves everything as it
is, since it writes `S_BUSY` over `S_BUSY`. -/
def apStep (s : Sys) (i : Nat) (now : BitVec 64) (msClock : Dword) : Option Sys :=
  let a := s.ap i
  match a.pc with
  | .off => none
  | .kernelBoot => some (s.setAp i { a with status := .ready, pc := .atomicLock })
  | .atomicLock =>
      if a.status = .busy then some s
      else some (s.setAp i { a with status := .busy, pc := .switch a.status })
  | .switch .ready =>
      let s' := if tscRing a.lastActive (msClock * sleepDelayMs) now then .sleep else .ready
      some (s.setAp i { a with pc := .atomicUnlock s' false })
  | .switch .loaded => some (s.setAp i { a with pc := .atomicUnlock .running true })
  | .switch .running =>
      -- notify idle proc, that task is ready for switch back
      match s.tsHt.get a.threadId with
      | some ts =>
          if ts.smpBspIdleLock ≠ 0 then
            some (s.setAp i { a with pc := .clearIdleLock ts.smpBspIdleLock })
          else some (s.setAp i { a with pc := .atomicUnlock .cargo false })
      | none => some (s.setAp i { a with pc := .atomicUnlock .cargo false })
  | .switch .cargo =>
      some (s.setAp i { a with lastActive := now, pc := .atomicUnlock .cargo false })
  | .switch .dircard => some (s.setAp i { a with lastActive := now, pc := .incLoad })
  | .switch s' => some (s.setAp i { a with pc := .atomicUnlock s' false })
  | .clearIdleLock lock =>
      some { s.setAp i { a with pc := .atomicUnlock .cargo false } with
        mem := Function.update s.mem lock 0 }
  | .incLoad => some (s.setAp i { a with pc := .incStore s.apFreeCnt })
  | .incStore cnt =>
      some { s.setAp i { a with pc := .atomicUnlock .ready false } with apFreeCnt := cnt + 1 }
  | .atomicUnlock s' rc =>
      -- only an S_SLEEP falls into smp_sleep, and only rc = 1 leads to _switchtask
      let pc := if s' = .sleep then .sti else if rc then .switchtask else .atomicLock
      some (s.setAp i { a with status := s', pc := pc })
  | .sti => some (s.setAp i { a with pc := .hlt })
  | .hlt => some (s.setAp i { a with pc := .halted })
  | .halted => none
  | .switchtask =>
      some (s.setAp i { a with
        fpu := (apSaveMethod cfg.xsaveFlags).copy a.fpuState a.fpu, pc := .ring3 a.threadId })
  | .ring3 _ => none

/-- `_dummy_isr`: a delivered wake-up interrupt ends a `hlt` and does nothing else. -/
def nmiStep (s : Sys) (i : Nat) : Option Sys :=
  let a := s.ap i
  if a.nmi = 0 then none
  else
    let pc := if a.pc = .halted then .atomicLock else a.pc
    some (s.setAp i { a with nmi := a.nmi - 1, pc := pc })

/-- Save the interrupted registers `u` and the extended state `x` and restart the
AP kernel at `goentry`. -/
def Ap.switchBack (a : Ap) (trap : Trap) (u : UserRegs) (sp : Dword) (x : ExtState) : Ap :=
  { a with
    procState := SmpVxd.switchBack cfg.kernelFlat trap u sp a.procState
    fpuState := (apSaveMethod cfg.xsaveFlags).copy x a.fpuState
    fpu := x
    pc := .atomicLock }

/-- The stack pointer at the `pushad` of a trap from ring 3: ESP0 less the six
dwords that the processor and the entry code have pushed. -/
def trapSp (i : Nat) : Dword := cfg.stack i + stackOffTss - 24

/-- An exception of the thread that runs on AP `i`. -/
def trapStep (s : Sys) (i : Nat) (trap : Trap) (u : UserRegs) (x : ExtState) : Option Sys :=
  match (s.ap i).pc with
  | .ring3 _ => some (s.setAp i ((s.ap i).switchBack cfg trap u (trapSp cfg i) x))
  | _ => none

/-- The operations that the operating system or ring 3 starts on the BSP. -/
inductive BspOp where
  /-- `Device_Thread_Init`, with what `_PageAllocate` returns. -/
  | threadInit (tid : Dword) (page : Option Dword)
  /-- `Device_Thread_Destroy` -/
  | threadDestroy (tid : Dword)
  /-- `smp_elevate`, for the current thread. -/
  | smpElevate (proc lockaddr mode : Dword)
  /-- `thread_switch` with the control blocks of both threads. -/
  | threadSwitch (curTid oldTid : Dword) (cbsNew cbsOld : Tcb)
  /-- A breakpoint of the current thread, with its client registers. -/
  | int3 (crs : Crs)
  /-- `callback_pf`, for the current thread. -/
  | pageFault

/-- Where a finished `switch_to_ap` returns to. -/
def switchToApReturn (l : ToAp) (rc : Bool) : Bsp :=
  match l.caller with
  | .int3 => .restoreClient l.crs rc
  | .threadSwitch curTid cbsNew => .switchIn curTid cbsNew

/-- The entry of `switch_to_ap`, up to the loop over the slots. -/
def switchToAp (s : Sys) (caller : Caller) (crs : Crs) (threadId : Dword) : Bsp :=
  let l : ToAp := ⟨caller, threadId, crs, 0, false, false⟩
  match s.tsHt.get threadId with
  | some ts =>
      if ts.smpStatus = 0 ∧ ts.smpBspIdleProc ≠ 0 then .apLoop l else switchToApReturn l false
  | none => switchToApReturn l false

/-- The entry of `switch_to_bsp`. -/
def switchToBsp (s : Sys) (crs : Crs) (threadId : Dword) : Bsp :=
  match s.tsHt.get threadId with
  | some ts =>
      if ts.smpStatus ≠ 0 then .bspLock ⟨threadId, crs, ts.smpApid⟩ else .restoreClient crs false
  | none => .restoreClient crs false

/-- The blocks whose breakpoints `callback_int3` handles. -/
inductive Int3Target where
  | fly
  | reattach
  | next
  deriving DecidableEq, Repr

/-- The address test of `callback_int3`. -/
def int3Target (kernelFlat eip : Dword) : Int3Target :=
  if kernelFlat + smpOffsetFly ≤ eip ∧ eip < kernelFlat + smpOffsetFly + smpFnBlockSize then .fly
  else if kernelFlat + smpOffsetReattach ≤ eip ∧
      eip < kernelFlat + smpOffsetReattach + smpFnBlockSize then .reattach
  else .next

/-- `callback_int3`, up to the call; `next` returns 0 and changes nothing. -/
def callbackInt3 (s : Sys) (crs : Crs) : Sys :=
  match int3Target cfg.kernelFlat crs.clientEip with
  | .fly => { s with bsp := switchToAp s .int3 crs s.actTid }
  | .reattach => { s with bsp := switchToBsp s crs s.actTid }
  | .next => s

/-- The tests of `thread_switch` on the thread that is switched out, with the
counter as read there. -/
def migrates (ts : TsThread) (cbs : Tcb) (apFreeCnt : Dword) : Bool :=
  ts.mode = smpModeAutorun && ts.smpStatus = 0 &&
    cbs.tcbFlags &&& thflagThreadBlocked = 0 && ts.pagefault = 0 &&
    0x00100000 ≤ cbs.tcbClientPtr.clientEip && cbs.tcbClientPtr.clientEip < 0x80000000 &&
    0 < apFreeCnt

/-- The extra save of `thread_switch` for the thread that is switched out. -/
def saveOld (s : Sys) (oldTid : Dword) (cbs : Tcb) : TsHt :=
  if fpuNeedExtraSave cfg.xsaveFlags cfg.noSysFxsave false ∧
      cbs.tcbFlags &&& thflagRing0Thread = 0 then
    s.tsHt.modify oldTid (fun ts => { ts with
      fpuState := fpuSave cfg.xsaveFlags cfg.noSysFxsave true s.fpu ts.fpuState, dirty := 0 })
      (fun _ => rfl)
  else s.tsHt

/-- `thread_switch`, up to the call of `switch_to_ap`. The TS flag of CR0, which is
cleared around the saves and set back, changes nothing here. -/
def threadSwitch (s : Sys) (curTid oldTid : Dword) (cbsNew cbsOld : Tcb) : Sys :=
  match s.tsHt.get oldTid with
  | none => { s with bsp := .switchIn curTid cbsNew }
  | some ts =>
      let s' := { s with tsHt := saveOld cfg s oldTid cbsOld }
      if migrates ts cbsOld s.apFreeCnt then
        { s' with bsp := switchToAp s' (.threadSwitch curTid cbsNew) cbsOld.tcbClientPtr oldTid }
      else { s' with bsp := .switchIn curTid cbsNew }

/-- The second half of `thread_switch`, for the thread that is switched in. -/
def switchIn (s : Sys) (curTid : Dword) (cbsNew : Tcb) : Sys :=
  match s.tsHt.get curTid with
  | none => { s with bspThread := 0, actTid := curTid, bsp := .idle }
  | some ts =>
      { s with
        fpu :=
          if fpuNeedExtraSave cfg.xsaveFlags cfg.noSysFxsave true ∧
              cbsNew.tcbFlags &&& thflagRing0Thread = 0 ∧ ts.dirty = 0 then
            fpuRestore cfg.xsaveFlags cfg.noSysFxsave true ts.fpuState s.fpu
          else s.fpu
        tsHt := s.tsHt.modify curTid (fun ts => { ts with pagefault := 0 }) (fun _ => rfl)
        bspThread := ts.addr
        actTid := curTid
        bsp := .idle }

/-- `smp_elevate` -/
def smpElevate (s : Sys) (proc lockaddr mode : Dword) : Sys :=
  { s with
    tsHt := s.tsHt.modify s.actTid (fun ts =>
      if mode ≠ smpModeSystem then
        { ts with smpBspIdleProc := proc, smpBspIdleLock := lockaddr, mode := mode }
      else { ts with smpBspIdleProc := 0, smpBspIdleLock := 0, mode := mode })
      (fun ts => by split <;> rfl) }

/-- Start an operation. -/
def bspCall (s : Sys) : BspOp → Sys
  | .threadInit tid page => { s with tsHt := s.tsHt.create page tid }
  | .threadDestroy tid =>
      match s.tsHt.get tid with
      | some ts =>
          if ts.smpStatus ≠ 0 then { s with bsp := .destroyLock tid ts.smpApid }
          else { s with bsp := .destroyFree tid }
      | none => { s with bsp := .destroyFree tid }
  | .smpElevate proc lockaddr mode => smpElevate s proc lockaddr mode
  | .threadSwitch curTid oldTid cbsNew cbsOld => threadSwitch cfg s curTid oldTid cbsNew cbsOld
  | .int3 crs => callbackInt3 cfg s crs
  | .pageFault =>
      { s with tsHt := s.tsHt.modify s.actTid (fun ts => { ts with pagefault := 1 }) (fun _ => rfl) }

/-- The record after the hand-off in `switch_to_ap`. -/
def TsThread.onAp (cpu : Nat) (ts : TsThread) : TsThread := { ts with smpStatus := 1, smpApid := cpu }

/-- The record after it was taken back in `switch_to_bsp`. -/
def TsThread.onBsp (ts : TsThread) : TsThread := { ts with smpStatus := 0 }

theorem TsThread.onAp_tid (cpu : Nat) (ts : TsThread) : (ts.onAp cpu).tid = ts.tid := rfl

theorem TsThread.onBsp_tid (ts : TsThread) : ts.onBsp.tid = ts.tid := rfl

/-- The caller's registers after the hand-off: the thread goes on as the placeholder,
on the stack that the AP reserves for it. -/
def placeholder (cpu : Nat) (ts : TsThread) (crs : Crs) : Crs :=
  { crs with
    clientEsp := cfg.stack cpu + stackOffPlaceholder
    clientEcx := ts.smpBspIdleProc
    clientEax := ts.smpBspIdleLock
    clientEip := cfg.kernelFlat + smpOffsetTrampoline }

/-- The stores of `switch_to_ap` under the lock of the AP, the lock word apart. -/
def handOff (s : Sys) (l : ToAp) (old : Status) (ts : TsThread) : Sys :=
  let a := s.ap l.cpu
  { s.setAp l.cpu { a with
      threadId := l.threadId
      fpuState := fpuSave cfg.xsaveFlags cfg.noSysFxsave false s.fpu a.fpuState
      procState := l.crs
      pd := copyPd s.pageDir
      threadPtr := ts.addr } with
    tsHt := s.tsHt.modify l.threadId (TsThread.onAp l.cpu) (TsThread.onAp_tid l.cpu)
    bsp := .apWakeup
      { l with
        crs := placeholder cfg l.cpu ts l.crs
        wakeup := l.wakeup || old = .sleep
        found := true } .loaded }

/-- The stores of `switch_to_bsp` under the lock of the AP, the counter apart. -/
def takeBack (s : Sys) (l : ToBsp) : Sys :=
  let a := s.ap l.cpu
  { s with
    fpu := fpuRestore cfg.xsaveFlags cfg.noSysFxsave false a.fpuState s.fpu
    tsHt := s.tsHt.modify l.threadId TsThread.onBsp TsThread.onBsp_tid
    bsp := .incLoad { l with crs := a.procState } }

/-- Take the status word of slot `cpu`; the BSP goes on at `next` with the value
taken, or repeats the exchange when it returned `S_BUSY`. -/
def bspLock (s : Sys) (cpu : Nat) (next : Status → Bsp) : Sys :=
  let a := s.ap cpu
  if a.status = .busy then s
  else { s.setAp cpu { a with status := .busy } with bsp := next a.status }

def bspUnlock (s : Sys) (cpu : Nat) (v : Status) (next : Bsp) : Sys :=
  { s.setAp cpu { s.ap cpu with status := v } with bsp := next }

/-- One statement of the BSP. -/
def bspStep (s : Sys) : Option Sys :=
  match s.bsp with
  | .idle => none
  | .smpInitBsp i =>
      if cfg.ttableMax < i then some { s with bsp := .idle }
      else if cfg.present i = false then some { s with bsp := .smpInitBsp (i + 1) }
      else if (s.ap i).pc = .off then some (s.setAp i { s.ap i with pc := .kernelBoot })
      else if (s.ap i).status = .busy then some s
      else some { s with bsp := .smpInitBsp (i + 1) }
  | .destroyLock tid cpu => some (bspLock s cpu (.destroyDiscard tid cpu))
  | .destroyDiscard tid cpu _ => some { s with bsp := .destroyUnlock tid cpu .dircard }
  | .destroyUnlock tid cpu v => some (bspUnlock s cpu v (.destroyFree tid))
  | .destroyFree tid => some { s with tsHt := s.tsHt.destroy tid, bsp := .idle }
  | .apLoop l =>
      if cfg.ttableMax < l.cpu then some { s with bsp := switchToApReturn l false }
      else if cfg.present l.cpu then some { s with bsp := .apLock l }
      else some { s with bsp := .apLoop { l with cpu := l.cpu + 1 } }
  | .apLock l => some (bspLock s l.cpu (.apSwitch l))
  | .apSwitch l v =>
      if v.free then
        match s.tsHt.get l.threadId with
        | some ts =>
            if ts.smpBspIdleLock ≠ 0 then
              some { s with mem := Function.update s.mem ts.smpBspIdleLock 1, bsp := .apStore l v }
            else some { s with bsp := .apStore l v }
        | none => none
      else some { s with bsp := .apWakeup l v }
  | .apStore l v =>
      match s.tsHt.get l.threadId with
      | some ts => some (handOff cfg s l v ts)
      | none => none
  | .apWakeup l v =>
      -- must be before unlock to prevent deadlock
      if l.wakeup then
        let a := s.ap l.cpu
        some { s.setAp l.cpu { a with nmi := a.nmi + 1 } with bsp := .apUnlock l v }
      else some { s with bsp := .apUnlock l v }
  | .apUnlock l v =>
      some (bspUnlock s l.cpu v
        (if l.found then .decLoad l else .apLoop { l with cpu := l.cpu + 1 }))
  | .decLoad l => some { s with bsp := .decStore l s.apFreeCnt }
  | .decStore l cnt => some { s with apFreeCnt := cnt - 1, bsp := switchToApReturn l true }
  | .bspLock l => some (bspLock s l.cpu (.bspTest l))
  | .bspTest l v =>
      if v = .cargo then some (takeBack cfg s l)
      else some { s with bsp := .bspUnlock l v false }
  | .incLoad l => some { s with bsp := .incStore l s.apFreeCnt }
  | .incStore l cnt => some { s with apFreeCnt := cnt + 1, bsp := .bspUnlock l .ready true }
  | .bspUnlock l v rc => some (bspUnlock s l.cpu v (.restoreClient l.crs rc))
  | .switchIn curTid cbsNew => some (switchIn cfg s curTid cbsNew)
  | .restoreClient _ _ => some { s with bsp := .idle }

/-- Everything that can happen. `compute` is ring-3 code on the BSP changing the
extended state, `rebuildPd` the operating system changing the page directory. -/
inductive Action where
  | call (op : BspOp)
  | bsp
  | ap (i : Nat) (now : BitVec 64) (msClock : Dword)
  | nmi (i : Nat)
  | trap (i : Nat) (trap : Trap) (u : UserRegs) (x : ExtState)
  | compute (x : ExtState)
  | rebuildPd (pageDir : Nat → Dword)

/-- One action; `none` when it is not enabled. -/
def step (s : Sys) : Action → Option Sys
  | .call op => match s.bsp with
      | .idle => some (bspCall cfg s op)
      | _ => none
  | .bsp => bspStep cfg s
  | .ap i now msClock => if cfg.present i then apStep cfg s i now msClock else none
  | .nmi i => if cfg.present i then nmiStep s i else none
  | .trap i trap u x => if cfg.present i then trapStep cfg s i trap u x else none
  | .compute x => match s.bsp with
      | .idle => some { s with fpu := x }
      | _ => none
  | .rebuildPd pageDir => match s.bsp with
      | .idle => some { s with pageDir := pageDir }
      | _ => none

/-- The transition relation of the machine. -/
abbrev Step : Sys → Action → Sys → Prop := Transition.graph (step cfg)

def Crs.zero : Crs := ⟨0, 0, 0, 0, 0, 0, 0, 0, 0, 0, 0, 0, 0, 0, 0, 0, 0, 0⟩

/-- A data page as `smp_init` prepares it, up to the status and the CPU. -/
def Ap.initial (status : Status) (pc : ApPc) : Ap where
  status := status
  threadId := 0
  threadPtr := 0
  procState := .zero
  fpuState := .zero
  pd _ := 0
  lastActive := 0
  pc := pc
  fpu := .zero
  nmi := 0

/-- The number of APs, which `smp_init` stores as the free count. -/
def Config.apCount : Nat := cfg.slots.card

private def start (ap : Ap) (bsp : Bsp) : Sys where
  ap _ := ap
  tsHt := .empty
  actTid := -1
  bspThread := 0
  apFreeCnt := BitVec.ofNat 32 cfg.apCount
  mem _ := 0
  fpu := .zero
  pageDir _ := 0
  bsp := bsp

/-- The state in which `smp_init_bsp` begins: no AP runs, all words are `S_BUSY`. -/
def boot : Sys := start cfg (.initial .busy .off) (.smpInitBsp 0)

/-- The state after a successful `smp_init`: every AP is `S_READY` and about to
enter `smp_ap_main`, and there are no thread records. -/
def initialised : Sys := start cfg (.initial .ready .atomicLock) .idle

end SmpVxd
