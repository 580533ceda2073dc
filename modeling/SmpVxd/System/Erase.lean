import SmpVxd.System.Step
import SmpVxd.Transition.TwoRun

/-!
# Extended state does not direct the machine

Nothing that the driver decides depends on a value in an extended state: erasing all of
them from the machine and from an action commutes with the step.
-/

namespace SmpVxd

open Transition

def TsThread.erase (ts : TsThread) : TsThread := { ts with fpuState := .zero }

/-- All records of the table without their extended states. -/
def TsHt.erase (ht : TsHt) : TsHt where
  chain b := (ht.chain b).map TsThread.erase
  bucket b ts member := by
    obtain ⟨ts', member', rfl⟩ := List.mem_map.mp member
    exact ht.bucket b ts' member'
  unique b := by
    rw [List.map_map]
    exact ht.unique b

def Ap.erase (a : Ap) : Ap := { a with fpuState := .zero, fpu := .zero }

def Sys.erase (s : Sys) : Sys :=
  { s with ap := fun i => (s.ap i).erase, tsHt := s.tsHt.erase, fpu := .zero }

def Action.erase : Action → Action
  | .trap i kind u _ => .trap i kind u .zero
  | .compute _ => .compute .zero
  | a => a

@[simp] theorem TsThread.erase_tid (ts : TsThread) : ts.erase.tid = ts.tid := rfl

theorem SaveMethod.copy_zero (m : SaveMethod) : m.copy .zero .zero = .zero := by
  cases m <;> rfl

/-! ### The table -/

theorem TsHt.ext {ht ht' : TsHt} (chain : ∀ b, ht.chain b = ht'.chain b) : ht = ht' := by
  cases ht
  cases ht'
  congr
  exact funext chain

theorem chainFind_erase (tid : Dword) (chain : List TsThread) :
    chainFind tid (chain.map TsThread.erase) = (chainFind tid chain).map TsThread.erase := by
  induction chain with
  | nil => rfl
  | cons ts rest ih =>
      simp only [List.map_cons, chainFind, TsThread.erase_tid, ih]
      split <;> rfl

theorem chainInsert_erase (ts : TsThread) (chain : List TsThread) :
    (chainInsert ts chain).map TsThread.erase =
      chainInsert ts.erase (chain.map TsThread.erase) := by
  induction chain with
  | nil => rfl
  | cons ts' rest ih =>
      simp only [List.map_cons, chainInsert, TsThread.erase_tid, ← ih]
      split <;> rfl

theorem chainRemove_erase (tid : Dword) (chain : List TsThread) :
    (chainRemove tid chain).map TsThread.erase = chainRemove tid (chain.map TsThread.erase) := by
  induction chain with
  | nil => rfl
  | cons ts rest ih =>
      simp only [List.map_cons, chainRemove, TsThread.erase_tid, ← ih]
      split <;> rfl

namespace TsHt

variable {ht : TsHt} {tid : Dword}

theorem erase_get (ht : TsHt) (tid : Dword) : ht.erase.get tid = (ht.get tid).map TsThread.erase :=
  chainFind_erase tid _

theorem erase_create (page : Option Dword) : (ht.create page tid).erase = ht.erase.create page tid := by
  cases page with
  | none => rfl
  | some page =>
      refine TsHt.ext fun b => ?_
      by_cases own : b = tsHash tid
      · subst own
        simp only [erase, create, Function.update_self]
        exact chainInsert_erase (.new page tid) _
      · simp only [erase, create, Function.update_of_ne own]

theorem erase_destroy : (ht.destroy tid).erase = ht.erase.destroy tid := by
  refine TsHt.ext fun b => ?_
  by_cases own : b = tsHash tid
  · subst own
    simp only [erase, destroy, Function.update_self]
    exact chainRemove_erase tid _
  · simp only [erase, destroy, Function.update_of_ne own]

theorem erase_modify {f f' : TsThread → TsThread} (keeps : ∀ t, (f t).tid = t.tid)
    (keeps' : ∀ t, (f' t).tid = t.tid) (same : ∀ ts, (f ts).erase = f' ts.erase) :
    (ht.modify tid f keeps).erase = ht.erase.modify tid f' keeps' := by
  refine TsHt.ext fun b => ?_
  by_cases own : b = tsHash tid
  · subst own
    simp only [erase, modify, Function.update_self, chainModify, List.map_map]
    refine List.map_congr_left fun ts _ => ?_
    simp only [Function.comp_apply, apply_ite TsThread.erase, same]
    rfl
  · simp only [erase, modify, Function.update_of_ne own]

end TsHt

/-! ### The machine -/

namespace Sys

variable {s : Sys} {i : Nat} {a : Ap}

theorem erase_setAp : (s.setAp i a).erase = s.erase.setAp i a.erase := by
  unfold erase setAp
  congr 1
  funext j
  by_cases own : j = i
  · subst own
    simp
  · simp [Function.update_of_ne own]

@[simp] theorem erase_ap : s.erase.ap i = (s.ap i).erase := rfl
@[simp] theorem erase_bsp : s.erase.bsp = s.bsp := rfl
@[simp] theorem erase_actTid : s.erase.actTid = s.actTid := rfl
@[simp] theorem erase_tsHt : s.erase.tsHt = s.tsHt.erase := rfl
@[simp] theorem erase_fpu : s.erase.fpu = .zero := rfl

end Sys

variable {cfg : Config} {s : Sys} {i : Nat}

theorem apStep_erase (now : BitVec 64) (msClock : Dword) :
    (apStep cfg s i now msClock).map Sys.erase = apStep cfg s.erase i now msClock := by
  have pc_erase : (s.erase.ap i).pc = (s.ap i).pc := rfl
  have status : (s.erase.ap i).status = (s.ap i).status := rfl
  have threadId : (s.erase.ap i).threadId = (s.ap i).threadId := rfl
  unfold apStep
  dsimp only
  rw [pc_erase, status, threadId]
  cases pc : (s.ap i).pc with
  | off => rfl
  | halted => rfl
  | ring3 tid => rfl
  | kernelBoot => exact congrArg some Sys.erase_setAp
  | atomicLock =>
      dsimp only
      split
      · rfl
      · exact congrArg some Sys.erase_setAp
  | switch v =>
      cases v with
      | running =>
          dsimp only
          rw [Sys.erase_tsHt, TsHt.erase_get]
          cases s.tsHt.get (s.ap i).threadId with
          | none => exact congrArg some Sys.erase_setAp
          | some ts =>
              have lock : ts.erase.smpBspIdleLock = ts.smpBspIdleLock := rfl
              dsimp only [Option.map_some]
              rw [lock]
              split <;> exact congrArg some Sys.erase_setAp
      | _ => exact congrArg some Sys.erase_setAp
  | clearIdleLock lock =>
      exact congrArg (fun t : Sys => some { t with mem := Function.update s.mem lock 0 }) Sys.erase_setAp
  | incLoad => exact congrArg some Sys.erase_setAp
  | incStore cnt => exact congrArg (fun t : Sys => some { t with apFreeCnt := cnt + 1 }) Sys.erase_setAp
  | atomicUnlock v rc => exact congrArg some Sys.erase_setAp
  | sti => exact congrArg some Sys.erase_setAp
  | hlt => exact congrArg some Sys.erase_setAp
  | switchtask =>
      refine congrArg some (Sys.erase_setAp.trans ?_)
      exact congrArg (fun x => s.erase.setAp i { (s.ap i).erase with
        fpu := x, pc := .ring3 (s.ap i).threadId }) (SaveMethod.copy_zero _).symm

theorem nmiStep_erase : (nmiStep s i).map Sys.erase = nmiStep s.erase i := by
  have nmi : (s.erase.ap i).nmi = (s.ap i).nmi := rfl
  unfold nmiStep
  dsimp only
  rw [nmi]
  split
  · rfl
  · exact congrArg some Sys.erase_setAp

theorem trapStep_erase (trap : Trap) (u : UserRegs) (x : ExtState) :
    (trapStep cfg s i trap u x).map Sys.erase = trapStep cfg s.erase i trap u .zero := by
  have pc_erase : (s.erase.ap i).pc = (s.ap i).pc := rfl
  unfold trapStep
  rw [pc_erase]
  cases (s.ap i).pc with
  | ring3 tid =>
      refine congrArg some (Sys.erase_setAp.trans ?_)
      refine congrArg (s.erase.setAp i) ?_
      exact congrArg (fun y => { (s.ap i).switchBack cfg trap u (trapSp cfg i) x with
        fpuState := y, fpu := .zero }) (SaveMethod.copy_zero _).symm
  | _ => rfl

theorem switchToAp_erase (caller : Caller) (crs : Crs) (tid : Dword) :
    switchToAp s.erase caller crs tid = switchToAp s caller crs tid := by
  unfold switchToAp
  rw [Sys.erase_tsHt, TsHt.erase_get]
  cases s.tsHt.get tid <;> rfl

theorem switchToBsp_erase (crs : Crs) (tid : Dword) :
    switchToBsp s.erase crs tid = switchToBsp s crs tid := by
  unfold switchToBsp
  rw [Sys.erase_tsHt, TsHt.erase_get]
  cases s.tsHt.get tid <;> rfl

theorem callbackInt3_erase (crs : Crs) :
    (callbackInt3 cfg s crs).erase = callbackInt3 cfg s.erase crs := by
  unfold callbackInt3
  rw [switchToAp_erase, switchToBsp_erase]
  split <;> rfl

theorem saveOld_erase (oldTid : Dword) (cbs : Tcb) :
    (saveOld cfg s oldTid cbs).erase = saveOld cfg s.erase oldTid cbs := by
  unfold saveOld
  split
  · refine TsHt.erase_modify _ _ fun ts => ?_
    exact congrArg (fun y => { ts with fpuState := y, dirty := 0 }) (SaveMethod.copy_zero _).symm
  · rfl

theorem threadSwitch_erase (curTid oldTid : Dword) (cbsNew cbsOld : Tcb) :
    (threadSwitch cfg s curTid oldTid cbsNew cbsOld).erase =
      threadSwitch cfg s.erase curTid oldTid cbsNew cbsOld := by
  unfold threadSwitch
  rw [Sys.erase_tsHt, TsHt.erase_get]
  cases s.tsHt.get oldTid with
  | none => rfl
  | some ts =>
      have tests : migrates ts.erase cbsOld s.erase.apFreeCnt = migrates ts cbsOld s.apFreeCnt := rfl
      dsimp only [Option.map_some]
      rw [tests, ← saveOld_erase]
      split
      · exact congrArg (fun b => { s.erase with tsHt := (saveOld cfg s oldTid cbsOld).erase, bsp := b })
          (switchToAp_erase (s := { s with tsHt := saveOld cfg s oldTid cbsOld }) _ _ _).symm
      · rfl

theorem bspCall_erase (op : BspOp) : (bspCall cfg s op).erase = bspCall cfg s.erase op := by
  cases op with
  | threadInit tid page =>
      exact congrArg (fun ht => { s.erase with tsHt := ht }) (TsHt.erase_create page)
  | threadDestroy tid =>
      unfold bspCall
      dsimp only
      rw [Sys.erase_tsHt, TsHt.erase_get]
      cases s.tsHt.get tid with
      | none => rfl
      | some ts =>
          have status : ts.erase.smpStatus = ts.smpStatus := rfl
          dsimp only [Option.map_some]
          rw [status]
          split <;> rfl
  | smpElevate proc lockaddr mode =>
      unfold bspCall SmpVxd.smpElevate
      refine congrArg (fun ht => { s.erase with tsHt := ht }) ?_
      refine TsHt.erase_modify ?_ _ fun ts => ?_
      · intro ts
        split <;> rfl
      · simp only [apply_ite TsThread.erase]
        rfl
  | threadSwitch curTid oldTid cbsNew cbsOld => exact threadSwitch_erase curTid oldTid cbsNew cbsOld
  | int3 crs =>
      change (callbackInt3 cfg s crs).erase = callbackInt3 cfg s.erase crs
      exact callbackInt3_erase crs
  | pageFault =>
      unfold bspCall
      refine congrArg (fun ht => { s.erase with tsHt := ht }) ?_
      exact TsHt.erase_modify (fun _ => by rfl) _ fun ts => rfl

theorem switchIn_erase (curTid : Dword) (cbsNew : Tcb) :
    (switchIn cfg s curTid cbsNew).erase = switchIn cfg s.erase curTid cbsNew := by
  unfold switchIn
  rw [Sys.erase_tsHt, TsHt.erase_get]
  cases s.tsHt.get curTid with
  | none => rfl
  | some ts =>
      have fpu : (if fpuNeedExtraSave cfg.xsaveFlags cfg.noSysFxsave true ∧
          cbsNew.tcbFlags &&& thflagRing0Thread = 0 ∧ ts.dirty = 0 then
          fpuRestore cfg.xsaveFlags cfg.noSysFxsave true .zero .zero else ExtState.zero) = .zero := by
        split
        · exact SaveMethod.copy_zero _
        · rfl
      refine congr_arg₂ (fun x ht => { s.erase with
        fpu := x, tsHt := ht, bspThread := ts.addr, actTid := curTid, bsp := .idle }) fpu.symm ?_
      exact TsHt.erase_modify (fun _ => by rfl) _ fun ts => rfl

theorem bspLock_erase (cpu : Nat) (next : Status → Bsp) :
    (bspLock s cpu next).erase = bspLock s.erase cpu next := by
  have status : (s.erase.ap cpu).status = (s.ap cpu).status := rfl
  unfold bspLock
  dsimp only
  rw [status]
  split
  · rfl
  · exact congrArg (fun t : Sys => { t with bsp := next (s.ap cpu).status }) Sys.erase_setAp

theorem bspUnlock_erase (cpu : Nat) (v : Status) (next : Bsp) :
    (bspUnlock s cpu v next).erase = bspUnlock s.erase cpu v next :=
  congrArg (fun t : Sys => { t with bsp := next }) Sys.erase_setAp

theorem handOff_erase (l : ToAp) (v : Status) (ts : TsThread) :
    (handOff cfg s l v ts).erase = handOff cfg s.erase l v ts.erase := by
  have ap : (s.setAp l.cpu { s.ap l.cpu with
      threadId := l.threadId
      fpuState := fpuSave cfg.xsaveFlags cfg.noSysFxsave false s.fpu (s.ap l.cpu).fpuState
      procState := l.crs
      pd := copyPd s.pageDir
      threadPtr := ts.addr }).erase = s.erase.setAp l.cpu { (s.ap l.cpu).erase with
      threadId := l.threadId
      fpuState := fpuSave cfg.xsaveFlags cfg.noSysFxsave false .zero .zero
      procState := l.crs
      pd := copyPd s.pageDir
      threadPtr := ts.addr } := by
    refine Sys.erase_setAp.trans (congrArg (s.erase.setAp l.cpu) ?_)
    exact congrArg (fun x => { (s.ap l.cpu).erase with
      threadId := l.threadId
      fpuState := x
      procState := l.crs
      pd := copyPd s.pageDir
      threadPtr := ts.addr }) (SaveMethod.copy_zero _).symm
  refine congr_arg₂ (fun (t : Sys) ht => { t with tsHt := ht, bsp := (handOff cfg s l v ts).bsp }) ap ?_
  exact TsHt.erase_modify (TsThread.onAp_tid l.cpu) _ fun ts => rfl

theorem takeBack_erase (l : ToBsp) : (takeBack cfg s l).erase = takeBack cfg s.erase l := by
  refine congr_arg₂ (fun x ht => { s.erase with fpu := x, tsHt := ht, bsp := (takeBack cfg s l).bsp })
    (SaveMethod.copy_zero _).symm ?_
  exact TsHt.erase_modify TsThread.onBsp_tid _ fun ts => rfl

theorem bspStep_erase : (bspStep cfg s).map Sys.erase = bspStep cfg s.erase := by
  unfold bspStep
  rw [Sys.erase_bsp]
  cases pc : s.bsp with
  | idle => rfl
  | smpInitBsp i =>
      have pc_erase : (s.erase.ap i).pc = (s.ap i).pc := rfl
      have status : (s.erase.ap i).status = (s.ap i).status := rfl
      dsimp only
      rw [pc_erase, status]
      split
      · rfl
      · split
        · rfl
        · split
          · exact congrArg some Sys.erase_setAp
          · split <;> rfl
  | destroyLock tid cpu => exact congrArg some (bspLock_erase _ _)
  | destroyDiscard tid cpu v => rfl
  | destroyUnlock tid cpu v => exact congrArg some (bspUnlock_erase _ _ _)
  | destroyFree tid =>
      exact congrArg (fun ht => some { s.erase with tsHt := ht, bsp := .idle }) TsHt.erase_destroy
  | apLoop l =>
      dsimp only
      split
      · rfl
      · split <;> rfl
  | apLock l => exact congrArg some (bspLock_erase _ _)
  | apSwitch l v =>
      dsimp only
      rw [Sys.erase_tsHt, TsHt.erase_get]
      split
      · cases s.tsHt.get l.threadId with
        | none => rfl
        | some ts =>
            have lock : ts.erase.smpBspIdleLock = ts.smpBspIdleLock := rfl
            dsimp only [Option.map_some]
            rw [lock]
            split <;> rfl
      · rfl
  | apStore l v =>
      dsimp only
      rw [Sys.erase_tsHt, TsHt.erase_get]
      cases s.tsHt.get l.threadId with
      | none => rfl
      | some ts => exact congrArg some (handOff_erase l v ts)
  | apWakeup l v =>
      dsimp only
      split
      · exact congrArg (fun t : Sys => some { t with bsp := .apUnlock l v }) Sys.erase_setAp
      · rfl
  | apUnlock l v => exact congrArg some (bspUnlock_erase _ _ _)
  | decLoad l => rfl
  | decStore l cnt => rfl
  | bspLock l => exact congrArg some (bspLock_erase _ _)
  | bspTest l v =>
      dsimp only
      split
      · exact congrArg some (takeBack_erase l)
      · rfl
  | incLoad l => rfl
  | incStore l cnt => rfl
  | bspUnlock l v rc => exact congrArg some (bspUnlock_erase _ _ _)
  | switchIn curTid cbsNew => exact congrArg some (switchIn_erase curTid cbsNew)
  | restoreClient crs rc => rfl

/-- The machine without extended states computes its own next state. -/
theorem step_commutes (cfg : Config) : Commutes (step cfg) Sys.erase Action.erase (step cfg) := by
  intro s a
  cases a with
  | call op =>
      simp only [step, Action.erase, Sys.erase_bsp]
      split
      · exact congrArg some (bspCall_erase op)
      · rfl
  | bsp => exact bspStep_erase
  | ap i now msClock =>
      simp only [step, Action.erase]
      split
      · exact apStep_erase now msClock
      · rfl
  | nmi i =>
      simp only [step, Action.erase]
      split
      · exact nmiStep_erase
      · rfl
  | trap i trap u x =>
      simp only [step, Action.erase]
      split
      · exact trapStep_erase trap u x
      · rfl
  | compute x =>
      simp only [step, Action.erase, Sys.erase_bsp]
      split <;> rfl
  | rebuildPd pageDir =>
      simp only [step, Action.erase, Sys.erase_bsp]
      split <;> rfl

end SmpVxd
