import SmpVxd.Protocol.Release

/-!
# The threads of the client library

`smp9x_CreateThread`, `smp9x__beginthread` and `smp9x__beginthreadex` all start
`smp9x_winthread_main`, which elevates the thread with the address of a variable on
its own stack. The library takes this elevation never back, so the driver may store
through the address for as long as the record of the thread lives.
-/

namespace SmpVxd

open Transition

/-- Program points of `smp9x_winthread_main`: the statement that is executed next. -/
inductive WinthreadPc where
  | elevate
  | fly
  | tmain
  | land
  | ret
  | returned
  deriving DecidableEq

/-- A thread that the library has started, with the address of its variable `lock`. -/
structure Winthread where
  pc : WinthreadPc
  lock : Dword

/-- The machine and the threads of the library that are not destroyed. -/
structure Client where
  sys : Sys
  winthread : Dword → Option Winthread

inductive ClientAction where
  | driver (a : Action)
  | createThread (tid lock : Dword)
  /-- Thread `tid` executes the next statement of `smp9x_winthread_main`. -/
  | winthread (tid : Dword)

/-- The thread itself executes on the BSP, not its placeholder. -/
def onBsp (s : Sys) (tid : Dword) : Bool :=
  s.bsp.isIdle && s.actTid = tid && match s.tsHt.get tid with
    | some ts => ts.smpStatus = 0
    | none => true

/-- The thread executes on some CPU. -/
def executes (cfg : Config) (s : Sys) (tid : Dword) : Bool :=
  onBsp s tid || decide (∃ i ∈ cfg.slots, (s.ap i).pc = .ring3 tid)

def Client.setPc (c : Client) (tid : Dword) (w : Winthread) (pc : WinthreadPc) : Client :=
  { c with winthread := Function.update c.winthread tid (some { w with pc := pc }) }

/-- One statement of `smp9x_winthread_main`. What happens inside of `fly`, of the
thread function and of `land` are actions of the machine; here the calls return, and
`land` does so on the BSP only. `idleProc` is `smp9x_thread_idle_proc`. -/
def winthreadStep (cfg : Config) (idleProc : Dword) (c : Client) (tid : Dword) : Option Client :=
  match c.winthread tid with
  | none => none
  | some w => match w.pc with
      | .elevate =>
          if onBsp c.sys tid then
            (step cfg c.sys (.call (.smpElevate idleProc w.lock smpModeAutorun))).map fun t =>
              { c.setPc tid w .fly with sys := t }
          else none
      | .fly => if executes cfg c.sys tid then some (c.setPc tid w .tmain) else none
      | .tmain => if executes cfg c.sys tid then some (c.setPc tid w .land) else none
      | .land => if onBsp c.sys tid then some (c.setPc tid w .ret) else none
      | .ret => if executes cfg c.sys tid then some (c.setPc tid w .returned) else none
      | .returned => none

/-- The threads after an action of the machine: `Destroy_Thread` ends the life of one. -/
def Client.forget (c : Client) : Action → Dword → Option Winthread
  | .call (.threadDestroy tid) => Function.update c.winthread tid none
  | _ => c.winthread

def clientStep (cfg : Config) (idleProc : Dword) (c : Client) : ClientAction → Option Client
  | .driver a => (step cfg c.sys a).map fun t => { sys := t, winthread := c.forget a }
  | .createThread tid lock => match c.winthread tid with
      | none => some { c with winthread := Function.update c.winthread tid (some ⟨.elevate, lock⟩) }
      | some _ => none
  | .winthread tid => winthreadStep cfg idleProc c tid

abbrev ClientStep (cfg : Config) (idleProc : Dword) : Client → ClientAction → Client → Prop :=
  graph (clientStep cfg idleProc)

def Client.initial (cfg : Config) : Client := ⟨initialised cfg, fun _ => none⟩

/-- `smp9x_winthread_main` has returned, so its variable `lock` is dead. -/
def Client.returned (c : Client) (tid : Dword) : Bool :=
  match c.winthread tid with
  | some w => w.pc = .returned
  | none => false

/-- The thread through whose `smp_bsp_idle_lock` an action stores. -/
def storesLock (s : Sys) : Action → Option Dword
  | .bsp => match s.bsp with
      | .apSwitch l v =>
          if v.free ∧ (s.tsHt.get l.threadId).any (·.smpBspIdleLock ≠ 0) then some l.threadId
          else none
      | _ => none
  | .ap i _ _ => match (s.ap i).pc with
      | .clearIdleLock _ => some (s.ap i).threadId
      | _ => none
  | _ => none

/-- The action does not start to move `tid` to an AP: neither does `thread_switch` find
it worth migrating, nor does it execute the breakpoint of `fly`. -/
def staysOnBsp (cfg : Config) (tid : Dword) (s : Sys) : Action → Bool
  | .call (.threadSwitch _ oldTid _ cbsOld) =>
      oldTid ≠ tid || !(s.tsHt.get tid).any (migrates · cbsOld s.apFreeCnt)
  | .call (.int3 crs) => s.actTid ≠ tid || int3Target cfg.kernelFlat crs.clientEip ≠ .fly
  | _ => true

/-- A thread returns from `smp9x_winthread_main` on the BSP, and stays there. -/
def returnsForGood (cfg : Config) (c : Client) : ClientAction → Bool
  | .driver a => match a with
      | .call (.threadSwitch _ oldTid _ _) => !c.returned oldTid || staysOnBsp cfg oldTid c.sys a
      | .call (.int3 _) => !c.returned c.sys.actTid || staysOnBsp cfg c.sys.actTid c.sys a
      | _ => true
  | .winthread tid => match c.winthread tid with
      | some w => w.pc ≠ .ret || onBsp c.sys tid
      | none => true
  | .createThread _ _ => true

/-- The thread that `switch_to_ap` works for. -/
def Bsp.carries : Bsp → Option Dword
  | .apLoop l | .apLock l | .apSwitch l _ | .apStore l _ | .apWakeup l _ | .apUnlock l _
  | .decLoad l | .decStore l _ => some l.threadId
  | _ => none

/-- The thread is on the BSP and not about to leave it. -/
structure Grounded (tid : Dword) (s : Sys) : Prop where
  record : ∀ ts, s.tsHt.get tid = some ts → ts.smpStatus = 0
  carries : s.bsp.carries ≠ some tid

variable {cfg : Config} {idleProc : Dword} {s t : Sys} {a : Action} {i : Nat} {v : Status}
variable {tid : Dword} {c d : Client}

theorem switchToApReturn_carries (l : ToAp) (rc : Bool) :
    (switchToApReturn l rc).carries = none := by
  unfold switchToApReturn
  split <;> rfl

/-- `switch_to_ap` works for one thread. -/
theorem BspStep.carries (h : BspStep cfg s t) :
    t.bsp.carries = s.bsp.carries ∨ t.bsp.carries = none := by
  cases h with
  | goto b h =>
      generalize s.bsp = c at h
      cases h with
      | noAp l _ => exact .inr (switchToApReturn_carries l false)
      | tryAp l _ => exact .inl rfl
      | nextAp l _ => exact .inl rfl
      | noLock l v ts _ _ _ => exact .inl rfl
      | notFree l v _ => exact .inl rfl
      | noWakeup l v _ => exact .inl rfl
      | decLoad l => exact .inl rfl
      | _ => exact .inr rfl
  | startAp j pc _ _ => exact .inl rfl
  | awaitAp j pc => exact .inl rfl
  | spin cpu next at_ _ => exact .inl rfl
  | lock cpu next at_ _ =>
      generalize s.bsp = c at at_
      cases at_ with
      | toAp l => exact .inl rfl
      | destroy tid cpu => exact .inr rfl
      | toBsp l => exact .inr rfl
  | unlock cpu w b at_ =>
      generalize s.bsp = c at at_
      cases at_ with
      | handedOff l v _ => exact .inl rfl
      | nextAp l v _ => exact .inl rfl
      | destroy tid cpu v => exact .inr rfl
      | toBsp l v rc => exact .inr rfl
  | setIdleLock l w ts pc _ _ _ => exact .inl (by rw [pc]; rfl)
  | handOff l w ts pc _ => exact .inl (by rw [pc]; rfl)
  | wakeup l w pc _ => exact .inl (by rw [pc]; rfl)
  | decStore l cnt pc => exact .inr (switchToApReturn_carries l true)
  | switchIn curTid cbsNew pc =>
      refine .inr ?_
      rw [switchIn_bsp]
      rfl
  | _ => exact .inr rfl

theorem TsHt.SameCore.smpStatus {ht ht' : TsHt} (same : ht.SameCore ht') {ts' : TsThread}
    (found' : ht'.get tid = some ts') : ∃ ts, ht.get tid = some ts ∧ ts.smpStatus = ts'.smpStatus := by
  obtain ⟨ts, found, core⟩ := same.symm.get found'
  have status : ts.core.smpStatus = ts'.core.smpStatus := congrArg TsThread.smpStatus core
  exact ⟨ts, found, status⟩

theorem BspStep.grounded (g : Grounded tid s) (h : BspStep cfg s t) : Grounded tid t := by
  have carries : t.bsp.carries ≠ some tid := by
    obtain same | none := h.carries
    · rw [same]
      exact g.carries
    · simp [none]
  refine ⟨fun ts' found' => ?_, carries⟩
  cases h with
  | free tid' pc =>
      by_cases same : tid = tid'
      · rw [same, TsHt.get_destroy_self] at found'
        cases found'
      · rw [TsHt.get_destroy_ne same] at found'
        exact g.record ts' found'
  | handOff l v ts pc found =>
      have ne : tid ≠ l.threadId := by
        rintro rfl
        exact g.carries (by rw [pc]; rfl)
      simp only [SmpVxd.handOff, TsHt.get_modify_ne ne] at found'
      exact g.record ts' found'
  | takeBack l pc =>
      by_cases same : tid = l.threadId
      · simp only [SmpVxd.takeBack, same, TsHt.get_modify_self] at found'
        obtain ⟨ts, _, rfl⟩ := Option.map_eq_some_iff.mp found'
        rfl
      · simp only [SmpVxd.takeBack, TsHt.get_modify_ne same] at found'
        exact g.record ts' found'
  | switchIn curTid cbsNew pc =>
      obtain ⟨ts, found, status⟩ := (switchIn_core curTid cbsNew).smpStatus found'
      exact status ▸ g.record ts found
  | _ => exact g.record ts' found'

theorem CallStep.grounded {op : BspOp} (g : Grounded tid s) (idle : s.bsp = .idle)
    (stays : staysOnBsp cfg tid s (.call op) = true) (h : CallStep cfg s op t) : Grounded tid t := by
  cases h with
  | create tid' page =>
      refine ⟨fun ts' found' => ?_, by rw [idle]; simp [Bsp.carries]⟩
      cases page with
      | none => exact g.record ts' found'
      | some addr =>
          by_cases same : tid = tid'
          · subst same
            rw [TsHt.get_create_self, Option.some.injEq] at found'
            subst found'
            cases found : s.tsHt.get tid with
            | none => rfl
            | some ts => exact g.record ts found
          · rw [TsHt.get_create_ne _ same] at found'
            exact g.record ts' found'
  | elevate proc lockaddr mode =>
      refine ⟨fun ts' found' => ?_, g.carries⟩
      by_cases same : tid = s.actTid
      · rw [same] at found'
        simp only [smpElevate, TsHt.get_modify_self] at found'
        obtain ⟨ts, found, rfl⟩ := Option.map_eq_some_iff.mp found'
        have zero := g.record ts (same ▸ found)
        split <;> exact zero
      · simp only [smpElevate, TsHt.get_modify_ne same] at found'
        exact g.record ts' found'
  | enter op b ht entry core =>
      refine ⟨fun ts' found' => ?_, ?_⟩
      · obtain ⟨ts, found, status⟩ := core.smpStatus found'
        exact status ▸ g.record ts found
      · change b.carries ≠ some tid
        cases entry with
        | migrate curTid oldTid cbsNew cbsOld ts found migrating _ _ =>
            rintro ⟨⟩
            simp [staysOnBsp, found, migrating] at stays
        | fly crs ts target _ _ _ =>
            rintro ⟨⟩
            simp [staysOnBsp, target] at stays
        | _ => simp [Bsp.carries]

theorem Grounded.step (g : Grounded tid s) (stays : staysOnBsp cfg tid s a = true)
    (h : Step cfg s a t) : Grounded tid t := by
  cases h.outcome with
  | call op t idle call => exact call.grounded g idle stays
  | bsp t h => exact (bspStep_outcome h).grounded g
  | ap j now msClock t present h =>
      exact ⟨by rw [h.frame.tsHt]; exact g.record, by rw [h.frame.bsp]; exact g.carries⟩
  | nmi j t present h =>
      exact ⟨by rw [h.frame.tsHt]; exact g.record, by rw [h.frame.bsp]; exact g.carries⟩
  | trap j trap u x tid' present pc => exact ⟨g.record, g.carries⟩
  | compute x idle => exact ⟨g.record, g.carries⟩
  | rebuildPd pageDir idle => exact ⟨g.record, g.carries⟩

/-- No store goes through the lock pointer of a thread that stays on the BSP. -/
theorem Grounded.not_stored (g : Grounded tid s) (inv : Consistent cfg s) (a : Action) :
    storesLock s a ≠ some tid := by
  cases a with
  | bsp =>
      simp only [storesLock]
      split
      · rename_i l v pc
        split
        · rintro ⟨⟩
          exact g.carries (by rw [pc]; rfl)
        · simp
      · simp
  | ap i now msClock =>
      simp only [storesLock]
      split
      · rename_i lock pc
        rintro ⟨⟩
        have running : s.value i = .running := value_of_ap (by rw [pc]; rfl)
        obtain ⟨ts, found, one, _⟩ := inv.record_of_hosting (i := i) (by rw [running]; rfl)
        rw [g.record ts found] at one
        cases one
      · simp
  | _ => simp [storesLock]

theorem grounded_of_onBsp (h : onBsp s tid = true) : Grounded tid s := by
  simp only [onBsp, Bool.and_eq_true, Bsp.isIdle_iff] at h
  obtain ⟨⟨idle, _⟩, status⟩ := h
  refine ⟨fun ts found => ?_, by rw [idle]; simp [Bsp.carries]⟩
  rw [found] at status
  exact of_decide_eq_true status

/-- What holds of the client in every run whose threads return for good. -/
structure Client.Safe (cfg : Config) (c : Client) : Prop where
  consistent : Consistent cfg c.sys
  grounded : ∀ tid, c.returned tid = true → Grounded tid c.sys

theorem Client.returned_setPc {w : Winthread} {pc : WinthreadPc} (tid' : Dword) :
    (c.setPc tid w pc).returned tid' =
      if tid' = tid then decide (pc = .returned) else c.returned tid' := by
  by_cases same : tid' = tid
  · simp [Client.returned, Client.setPc, same]
  · simp [Client.returned, Client.setPc, same]

theorem Client.forget_cases (c : Client) (a : Action) (tid : Dword) :
    c.forget a tid = none ∨ c.forget a tid = c.winthread tid := by
  unfold Client.forget
  split
  · rename_i tid'
    by_cases same : tid = tid'
    · simp [same]
    · simp [same]
  · exact .inr rfl

/-- The condition on a client step, for each thread that has returned. -/
theorem returnsForGood_driver (ok : returnsForGood cfg c (.driver a) = true)
    (returned : c.returned tid = true) : staysOnBsp cfg tid c.sys a = true := by
  unfold returnsForGood at ok
  cases a with
  | call op =>
      cases op with
      | threadSwitch curTid oldTid cbsNew cbsOld =>
          by_cases same : oldTid = tid
          · subst same
            simpa [returned] using ok
          · simp [staysOnBsp, same]
      | int3 crs =>
          by_cases same : c.sys.actTid = tid
          · subst same
            simpa [returned] using ok
          · simp [staysOnBsp, same]
      | _ => rfl
  | _ => rfl

/-- A statement that does not return moves no thread. -/
theorem Client.Safe.setPc (safe : c.Safe cfg) {w : Winthread} {pc : WinthreadPc}
    (goesOn : pc ≠ .returned) : (c.setPc tid w pc).Safe cfg where
  consistent := safe.consistent
  grounded tid' returned := by
    rw [Client.returned_setPc] at returned
    split at returned
    · exact absurd (of_decide_eq_true returned) goesOn
    · exact safe.grounded tid' returned

theorem Client.Safe.winthread (safe : c.Safe cfg)
    (ok : returnsForGood cfg c (.winthread tid) = true)
    (h : winthreadStep cfg idleProc c tid = some d) : d.Safe cfg := by
  unfold winthreadStep at h
  cases found : c.winthread tid with
  | none =>
      rw [found] at h
      cases h
  | some w =>
      rw [found] at h
      dsimp only at h
      cases pc : w.pc with
      | elevate =>
          simp only [pc, Option.ite_none_right_eq_some] at h
          obtain ⟨t, step, rfl⟩ := Option.map_eq_some_iff.mp h.2
          have moved : (c.setPc tid w .fly).Safe cfg := safe.setPc (by decide)
          exact ⟨safe.consistent.step step, fun tid' returned =>
            (moved.grounded tid' returned).step rfl step⟩
      | fly =>
          simp only [pc, Option.ite_none_right_eq_some, Option.some.injEq] at h
          exact h.2 ▸ safe.setPc (by decide)
      | tmain =>
          simp only [pc, Option.ite_none_right_eq_some, Option.some.injEq] at h
          exact h.2 ▸ safe.setPc (by decide)
      | land =>
          simp only [pc, Option.ite_none_right_eq_some, Option.some.injEq] at h
          exact h.2 ▸ safe.setPc (by decide)
      | ret =>
          simp only [pc, Option.ite_none_right_eq_some, Option.some.injEq] at h
          obtain ⟨_, rfl⟩ := h
          refine ⟨safe.consistent, fun tid' returned => ?_⟩
          rw [Client.returned_setPc] at returned
          split at returned
          · rename_i same
            subst same
            simp only [returnsForGood, found, pc] at ok
            exact grounded_of_onBsp ok
          · exact safe.grounded tid' returned
      | returned =>
          simp only [pc] at h
          cases h

theorem Client.Safe.step (safe : c.Safe cfg) {a : ClientAction} (ok : returnsForGood cfg c a = true)
    (h : ClientStep cfg idleProc c a d) : d.Safe cfg := by
  change clientStep cfg idleProc c a = some d at h
  cases a with
  | driver a =>
      obtain ⟨t, step, rfl⟩ := Option.map_eq_some_iff.mp h
      refine ⟨safe.consistent.step step, fun tid returned => ?_⟩
      have before : c.returned tid = true := by
        simp only [Client.returned] at returned ⊢
        obtain none | same := c.forget_cases a tid
        · rw [none] at returned
          cases returned
        · rwa [same] at returned
      exact (safe.grounded tid before).step (returnsForGood_driver ok before) step
  | createThread tid lock =>
      simp only [clientStep] at h
      split at h
      · cases h
        refine ⟨safe.consistent, fun tid' returned => safe.grounded tid' ?_⟩
        by_cases same : tid' = tid
        · simp [Client.returned, same] at returned
        · simpa [Client.returned, same] using returned
      · cases h
  | winthread tid =>
      exact safe.winthread ok h

theorem Client.safe_initial : (Client.initial cfg).Safe cfg :=
  ⟨consistent_initialised, fun tid returned => by cases returned⟩

/-- The driver does not store through the lock pointer of a thread whose
`smp9x_winthread_main` has returned, provided that the thread returns on the BSP and is
not moved to an AP any more. -/
theorem no_dead_lock_store {as : List ClientAction}
    (run : Run (restrict (ClientStep cfg idleProc) fun c a => returnsForGood cfg c a = true)
      (.initial cfg) as c)
    (returned : c.returned tid = true) (a : Action) : storesLock c.sys a ≠ some tid := by
  have safe : c.Safe cfg := run.invariant (fun _ _ _ safe step => safe.step step.1 step.2)
    Client.safe_initial
  exact (safe.grounded tid returned).not_stored safe.consistent a

/-- Thread 5 is started by the library, flies to the AP, calls `land` there, is taken
back and returns. -/
def winthreadLife : List ClientAction :=
  let tcb : Tcb := ⟨0, .zero⟩
  let away : List Action := flight ++ List.replicate 4 (.ap 1 0 0)
  let back : List Action :=
    .trap 1 .int3 { switchTask .zero with eip := 0xC1000412 } .zero ::
      List.replicate 4 (.ap 1 0 0) ++
    .call (.int3 { Crs.zero with clientEip := 0xC100050A }) :: List.replicate 6 .bsp
  [.driver (.call (.threadInit 5 (some 0x1000))), .createThread 5 0x9000,
    .driver (.call (.threadSwitch 5 0 tcb tcb)), .driver .bsp, .winthread 5] ++
  away.map .driver ++ [.winthread 5, .winthread 5] ++ back.map .driver ++
  [.winthread 5, .winthread 5]

/-- The switch from thread 5 to thread 6, with thread 5 at `eip`, and the statements of
`switch_to_ap` until it has the word of the AP. -/
def switchAway (eip : Dword) : List ClientAction :=
  [.driver (.call (.threadSwitch 6 5 ⟨0, .zero⟩ ⟨0, { Crs.zero with clientEip := eip }⟩)),
    .driver .bsp]

theorem no_dead_lock_store_kernel :
    ∃ c, Run (restrict (ClientStep oneAp 0x500) fun c a => returnsForGood oneAp c a = true)
        (.initial oneAp) (winthreadLife ++ switchAway 0xBFF70000) c ∧
      c.returned 5 = true ∧ storesLock c.sys .bsp ≠ some 5 := by
  have computed : (exec (guard (clientStep oneAp 0x500) (returnsForGood oneAp)) (.initial oneAp)
      (winthreadLife ++ switchAway 0xBFF70000)).any (fun c => c.returned 5) = true := by
    decide +kernel
  obtain ⟨c, run, returned⟩ := exists_run_restrict computed
  exact ⟨c, run, returned, no_dead_lock_store run returned .bsp⟩

/-- A DLL routine of thread 5 is switched away from below 2 GB: the thread is migrated
and `switch_to_ap` stores 1 to the dead variable on its stack. -/
theorem dead_lock_stored :
    ∃ c d, Run (ClientStep oneAp 0x500) (.initial oneAp)
        (winthreadLife ++ switchAway 0x00401000 ++ List.replicate 2 (.driver .bsp)) c ∧
      c.returned 5 = true ∧ storesLock c.sys .bsp = some 5 ∧
      ClientStep oneAp 0x500 c (.driver .bsp) d ∧
      c.sys.mem 0x9000 = 0 ∧ d.sys.mem 0x9000 = 1 := by
  have computed : (exec (clientStep oneAp 0x500) (.initial oneAp)
      (winthreadLife ++ switchAway 0x00401000 ++ List.replicate 2 (.driver .bsp))).any
      (fun c => c.returned 5 && storesLock c.sys .bsp = some 5 && c.sys.mem 0x9000 = 0 &&
        (clientStep oneAp 0x500 c (.driver .bsp)).any fun d => d.sys.mem 0x9000 = 1) = true := by
    decide +kernel
  obtain ⟨c, run, checked⟩ := exists_run computed
  simp only [Bool.and_eq_true, decide_eq_true_eq, Option.any_eq_true] at checked
  obtain ⟨⟨⟨returned, stores⟩, before⟩, d, step, after⟩ := checked
  exact ⟨c, d, run, returned, stores, step, before, after⟩

end SmpVxd
