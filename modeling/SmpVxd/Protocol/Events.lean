import SmpVxd.Protocol.Dispatch

/-!
# The record of a thread and its history

Every step either leaves the record of a thread alone or is an event of this thread,
and the event says what becomes of the record. So the table is a function of the
history of events, and what a field of a record is worth can be read off the events
since the record was created.
-/

namespace SmpVxd

open Transition

/-- What happens to a thread. -/
inductive ThreadEvent where
  /-- `ts_thread_create` links a record. It does nothing for a thread that has one. -/
  | created (tid page : Dword)
  /-- `ts_thread_destroy` -/
  | destroyed (tid : Dword)
  /-- `smp_elevate` -/
  | elevated (tid proc lockaddr mode : Dword)
  /-- `callback_pf` finds the record of the thread. -/
  | pageFault (tid : Dword)
  /-- `thread_switch` begins, with the extended state that is live. -/
  | switchedOut (tid : Dword) (cbs : Tcb) (live : ExtState)
  /-- `thread_switch` ends. -/
  | switchedIn (tid : Dword)
  /-- `switch_to_ap` moves the thread, with the extended state that is live. -/
  | handedOff (tid : Dword) (cpu : Nat) (live : ExtState)
  /-- `switch_to_bsp` moves the thread. -/
  | takenBack (tid : Dword)
  /-- `switch_back` on an AP saves the extended state of the thread. -/
  | trapped (tid : Dword) (cpu : Nat) (x : ExtState)

namespace ThreadEvent

def tid : ThreadEvent → Dword
  | .created tid _ | .destroyed tid | .elevated tid _ _ _ | .pageFault tid | .switchedOut tid _ _
  | .switchedIn tid | .handedOff tid _ _ | .takenBack tid | .trapped tid _ _ => tid

/-- What the event does to the record of its thread. -/
def update (cfg : Config) : ThreadEvent → Option TsThread → Option TsThread
  | .created tid page, _ => some (.new page tid)
  | .destroyed _, _ => none
  | .elevated _ proc lockaddr mode, r => r.map fun ts =>
      if mode ≠ smpModeSystem then
        { ts with smpBspIdleProc := proc, smpBspIdleLock := lockaddr, mode := mode }
      else { ts with smpBspIdleProc := 0, smpBspIdleLock := 0, mode := mode }
  | .pageFault _, r => r.map fun ts => { ts with pagefault := 1 }
  | .switchedOut _ cbs live, r => r.map fun ts =>
      if fpuNeedExtraSave cfg.xsaveFlags cfg.noSysFxsave false ∧
          cbs.tcbFlags &&& thflagRing0Thread = 0 then
        { ts with
          fpuState := fpuSave cfg.xsaveFlags cfg.noSysFxsave true live ts.fpuState, dirty := 0 }
      else ts
  | .switchedIn _, r => r.map fun ts => { ts with pagefault := 0 }
  | .handedOff _ cpu _, r => r.map (TsThread.onAp cpu)
  | .takenBack _, r => r.map TsThread.onBsp
  | .trapped _ _ _, r => r

end ThreadEvent

/-- The event of a step. -/
def threadEvent (s : Sys) : Action → Option ThreadEvent
  | .call (.threadInit tid (some page)) =>
      if (s.tsHt.get tid).isNone then some (.created tid page) else none
  | .call (.smpElevate proc lockaddr mode) => some (.elevated s.actTid proc lockaddr mode)
  | .call (.threadSwitch _ oldTid _ cbsOld) => some (.switchedOut oldTid cbsOld s.fpu)
  | .call .pageFault =>
      if (s.tsHt.get s.actTid).isSome then some (.pageFault s.actTid) else none
  | .bsp => match s.bsp with
      | .destroyFree tid => some (.destroyed tid)
      | .switchIn curTid _ => some (.switchedIn curTid)
      | .apStore l _ => some (.handedOff l.threadId l.cpu s.fpu)
      | .bspTest l .cargo => some (.takenBack l.threadId)
      | _ => none
  | .trap i _ _ x => some (.trapped (s.ap i).threadId i x)
  | _ => none

/-- The record of a thread after an event. -/
def ThreadEvent.after (cfg : Config) (tid : Dword) (e : ThreadEvent) (r : Option TsThread) :
    Option TsThread :=
  if e.tid = tid then e.update cfg r else r

/-- The record that a history leads to, newest event first. -/
def recordOf (cfg : Config) (tid : Dword) : List ThreadEvent → Option TsThread
  | [] => none
  | e :: h => e.after cfg tid (recordOf cfg tid h)

variable {cfg : Config} {s t : Sys} {a : Action} {tid : Dword} {ts : TsThread}
  {h : List ThreadEvent} {e : ThreadEvent}

theorem ThreadEvent.after_own (e : ThreadEvent) {r : Option TsThread} (own : e.tid = tid) :
    e.after cfg tid r = e.update cfg r :=
  if_pos own

theorem ThreadEvent.after_other (e : ThreadEvent) {r : Option TsThread} (other : e.tid ≠ tid) :
    e.after cfg tid r = r :=
  if_neg other

theorem TsHt.get_modify_after {ht : TsHt} {f : TsThread → TsThread}
    (keeps : ∀ t, (f t).tid = t.tid) {owner : Dword} (e : ThreadEvent) (of : e.tid = owner)
    (same : ∀ r, e.update cfg r = r.map f) :
    (ht.modify owner f keeps).get tid = e.after cfg tid (ht.get tid) := by
  subst of
  rw [get_modify]
  by_cases own : tid = e.tid
  · rw [if_pos own, e.after_own own.symm, same]
  · rw [if_neg own, e.after_other (Ne.symm own)]

/-- What a step does to the record of a thread. -/
def Told (cfg : Config) (s : Sys) (a : Action) (t : Sys) : Prop :=
  ∀ tid, t.tsHt.get tid = match threadEvent s a with
    | some e => e.after cfg tid (s.tsHt.get tid)
    | none => s.tsHt.get tid

theorem told_none (none : threadEvent s a = none) (table : t.tsHt = s.tsHt) : Told cfg s a t := by
  intro tid
  rw [none, table]

theorem told_some (some : threadEvent s a = some e)
    (get : ∀ tid, t.tsHt.get tid = e.after cfg tid (s.tsHt.get tid)) : Told cfg s a t := by
  intro tid
  rw [some, get]

theorem BspGoto.event {b : Bsp} (h : BspGoto cfg s s.bsp b) : threadEvent s .bsp = none := by
  unfold threadEvent
  dsimp only
  generalize s.bsp = c at h
  cases h with
  | notCargo l v other =>
      cases v with
      | cargo => exact absurd rfl other
      | _ => rfl
  | _ => rfl

theorem LockAt.event {cpu : Nat} {next : Status → Bsp} (h : LockAt s.bsp cpu next) :
    threadEvent s .bsp = none := by
  unfold threadEvent
  dsimp only
  generalize s.bsp = c at h
  cases h <;> rfl

theorem UnlockAt.event {cpu : Nat} {v : Status} {b : Bsp} (h : UnlockAt s.bsp cpu v b) :
    threadEvent s .bsp = none := by
  unfold threadEvent
  dsimp only
  generalize s.bsp = c at h
  cases h <;> rfl

theorem switchIn_get (curTid : Dword) (cbsNew : Tcb) (tid : Dword) :
    (switchIn cfg s curTid cbsNew).tsHt.get tid =
      (ThreadEvent.switchedIn curTid).after cfg tid (s.tsHt.get tid) := by
  unfold switchIn
  split
  · rename_i absent
    by_cases own : curTid = tid
    · rw [(ThreadEvent.switchedIn curTid).after_own own, ← own, absent]
      rfl
    · rw [(ThreadEvent.switchedIn curTid).after_other own]
  · exact TsHt.get_modify_after (fun _ => by rfl) (.switchedIn curTid) rfl fun _ => rfl

theorem BspStep.told (h : BspStep cfg s t) : Told cfg s .bsp t := by
  cases h with
  | goto b h => exact told_none h.event rfl
  | startAp i pc _ _ => exact told_none (by simp [threadEvent, pc]) rfl
  | awaitAp i pc => exact told_none (by simp [threadEvent, pc]) rfl
  | spin cpu next at_ _ => exact told_none at_.event rfl
  | lock cpu next at_ _ => exact told_none at_.event rfl
  | unlock cpu v b at_ => exact told_none at_.event rfl
  | discard tid cpu v pc => exact told_none (by simp [threadEvent, pc]) rfl
  | free tid pc =>
      refine told_some (e := .destroyed tid) (by simp [threadEvent, pc]) fun tid' => ?_
      by_cases own : tid = tid'
      · subst own
        exact TsHt.get_destroy_self.trans ((ThreadEvent.destroyed tid).after_own rfl).symm
      · exact (TsHt.get_destroy_ne (Ne.symm own)).trans
          ((ThreadEvent.destroyed tid).after_other own).symm
  | setIdleLock l v ts pc _ _ _ => exact told_none (by simp [threadEvent, pc]) rfl
  | handOff l v ts pc found =>
      refine told_some (e := .handedOff l.threadId l.cpu s.fpu) (by simp [threadEvent, pc]) fun tid => ?_
      exact TsHt.get_modify_after (TsThread.onAp_tid l.cpu) (.handedOff l.threadId l.cpu s.fpu) rfl fun _ => rfl
  | wakeup l v pc _ => exact told_none (by simp [threadEvent, pc]) rfl
  | decStore l cnt pc => exact told_none (by simp [threadEvent, pc]) rfl
  | takeBack l pc =>
      refine told_some (e := .takenBack l.threadId) (by simp [threadEvent, pc]) fun tid => ?_
      exact TsHt.get_modify_after TsThread.onBsp_tid (.takenBack l.threadId) rfl fun _ => rfl
  | incStore l cnt pc => exact told_none (by simp [threadEvent, pc]) rfl
  | switchIn curTid cbsNew pc =>
      exact told_some (e := .switchedIn curTid) (by simp [threadEvent, pc]) (switchIn_get curTid cbsNew)

theorem saveOld_get (oldTid : Dword) (cbs : Tcb) (tid : Dword) :
    (saveOld cfg s oldTid cbs).get tid =
      (ThreadEvent.switchedOut oldTid cbs s.fpu).after cfg tid (s.tsHt.get tid) := by
  unfold saveOld
  split
  · rename_i saves
    refine TsHt.get_modify_after (fun _ => by rfl) (.switchedOut oldTid cbs s.fpu) rfl fun r => ?_
    simp only [ThreadEvent.update, if_pos saves]
  · rename_i skips
    simp only [ThreadEvent.after, ThreadEvent.update, if_neg skips, Option.map_id', ite_self]

theorem threadSwitch_get (curTid oldTid : Dword) (cbsNew cbsOld : Tcb) (tid : Dword) :
    (threadSwitch cfg s curTid oldTid cbsNew cbsOld).tsHt.get tid =
      (ThreadEvent.switchedOut oldTid cbsOld s.fpu).after cfg tid (s.tsHt.get tid) := by
  unfold threadSwitch
  split
  · rename_i absent
    by_cases own : oldTid = tid
    · rw [(ThreadEvent.switchedOut oldTid cbsOld s.fpu).after_own own, ← own, absent]
      rfl
    · rw [(ThreadEvent.switchedOut oldTid cbsOld s.fpu).after_other own]
  · dsimp only
    split <;> exact saveOld_get oldTid cbsOld tid

theorem bspCall_told (op : BspOp) : Told cfg s (.call op) (bspCall cfg s op) := by
  cases op with
  | threadInit tid page =>
      cases page with
      | none => exact told_none rfl rfl
      | some page =>
          cases found : s.tsHt.get tid with
          | none =>
              refine told_some (e := .created tid page) (by simp [threadEvent, found]) fun tid' => ?_
              by_cases own : tid = tid'
              · rw [(ThreadEvent.created tid page).after_own own, ← own]
                refine (TsHt.get_create_self page).trans ?_
                rw [found]
                rfl
              · refine (TsHt.get_create_ne (some page) (Ne.symm own)).trans ?_
                exact ((ThreadEvent.created tid page).after_other own).symm
          | some ts =>
              intro tid'
              simp only [threadEvent, found, Option.isNone_some, Bool.false_eq_true, if_false]
              by_cases own : tid' = tid
              · subst own
                refine (TsHt.get_create_self page).trans ?_
                rw [found]
                rfl
              · exact TsHt.get_create_ne (some page) own
  | threadDestroy tid =>
      refine told_none rfl ?_
      unfold bspCall
      dsimp only
      split
      · split <;> rfl
      · rfl
  | smpElevate proc lockaddr mode =>
      refine told_some (e := .elevated s.actTid proc lockaddr mode) rfl fun tid => ?_
      change (smpElevate s proc lockaddr mode).tsHt.get tid = _
      exact TsHt.get_modify_after (fun _ => by split <;> rfl)
        (.elevated s.actTid proc lockaddr mode) rfl fun _ => rfl
  | threadSwitch curTid oldTid cbsNew cbsOld =>
      exact told_some (e := .switchedOut oldTid cbsOld s.fpu) rfl
        (threadSwitch_get curTid oldTid cbsNew cbsOld)
  | int3 crs =>
      refine told_none rfl ?_
      change (callbackInt3 cfg s crs).tsHt = s.tsHt
      exact callbackInt3_tsHt crs
  | pageFault =>
      have get (tid : Dword) : (bspCall cfg s .pageFault).tsHt.get tid =
          (ThreadEvent.pageFault s.actTid).after cfg tid (s.tsHt.get tid) := by
        unfold bspCall
        exact TsHt.get_modify_after (fun _ => by rfl) (.pageFault s.actTid) rfl fun _ => rfl
      cases found : s.tsHt.get s.actTid with
      | some ts => exact told_some (e := .pageFault s.actTid) (by simp [threadEvent, found]) get
      | none =>
          intro tid
          rw [get]
          simp only [threadEvent, found, Option.isSome_none, Bool.false_eq_true, if_false]
          by_cases own : s.actTid = tid
          · rw [(ThreadEvent.pageFault s.actTid).after_own own, ← own, found]
            rfl
          · exact (ThreadEvent.pageFault s.actTid).after_other own

theorem step_call {op : BspOp} (h : Step cfg s (.call op) t) : s.bsp = .idle ∧ t = bspCall cfg s op := by
  change step cfg s _ = some t at h
  simp only [step] at h
  split at h
  · cases h
    exact ⟨‹_›, rfl⟩
  · cases h

/-- A step either is an event, which says what becomes of the record of its thread, or
leaves all records alone. -/
theorem Step.told (h : Step cfg s a t) : Told cfg s a t := by
  cases a with
  | call op =>
      rw [(step_call h).2]
      exact bspCall_told op
  | bsp => exact (bspStep_outcome h).told
  | ap i now msClock =>
      cases h.outcome with
      | ap _ _ _ _ present h => exact told_none rfl h.frame.tsHt
  | nmi i =>
      cases h.outcome with
      | nmi _ _ present h => exact told_none rfl h.frame.tsHt
  | trap i trap u x =>
      cases h.outcome with
      | trap _ _ _ _ tid present pc =>
          refine told_some (e := .trapped (s.ap i).threadId i x) rfl fun tid => ?_
          simp [ThreadEvent.after, ThreadEvent.update]
  | compute x =>
      cases h.outcome with
      | compute _ idle => exact told_none rfl rfl
  | rebuildPd pageDir =>
      cases h.outcome with
      | rebuildPd _ idle => exact told_none rfl rfl

/-- The thread table is a function of the history. -/
theorem record_eq_recordOf {as : List Action}
    (run : Run (Transition.record (Step cfg) threadEvent) (initialised cfg, []) as (s, h))
    (tid : Dword) : s.tsHt.get tid = recordOf cfg tid h := by
  refine run.invariant (P := fun p => ∀ tid, p.1.tsHt.get tid = recordOf cfg tid p.2)
    (fun p a q same step tid => ?_) (fun _ => rfl) tid
  rw [step.2, step.1.told tid, same]
  cases threadEvent p.1 a <;> rfl

end SmpVxd
