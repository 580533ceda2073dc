import SmpVxd.Protocol.Extended
import SmpVxd.System.Erase

/-!
# What a thread sees of the extended state of others

Two runs take the same steps, and only the values that other threads compute differ.
The machine without its extended states is the same in both. A thread that has been
switched out since its record was created finds its own values again; before that,
`thread_switch` leaves the live state alone.
-/

namespace SmpVxd

open Transition

/-- The actions of two runs. Only the extended states that other threads than `tid`
compute may differ. -/
inductive Twin (tid : Dword) (s : Sys) : Action → Action → Prop where
  | same (a : Action) : Twin tid s a a
  | compute (x y : ExtState) : s.actTid ≠ tid → Twin tid s (.compute x) (.compute y)
  | trap (i : Nat) (kind : Trap) (u : UserRegs) (x y : ExtState) : (s.ap i).threadId ≠ tid →
      Twin tid s (.trap i kind u x) (.trap i kind u y)

/-- The record of the thread has an extended state. -/
def Sys.saved (s : Sys) (tid : Dword) : Bool := (s.tsHt.get tid).any fun ts => ts.dirty = 0

/-- The operating system switches a ring-3 thread, and its calls are chained: a thread
that has been switched out before is the current one when it is switched out again. -/
def ring3Calls (tid : Dword) (s : Sys) : Action → Bool
  | .call (.threadSwitch _ oldTid _ cbsOld) =>
      oldTid ≠ tid || decide cbsOld.ring3 && (s.actTid = tid || !s.saved tid)
  | .bsp => match s.bsp with
      | .switchIn curTid cbsNew => curTid ≠ tid || decide cbsNew.ring3
      | _ => true
  | _ => true

/-- Two runs for a thread `tid`. -/
abbrev TwinStep (cfg : Config) (tid : Dword) : Sys × Sys → Action × Action → Sys × Sys → Prop :=
  paired (restrict (Step cfg) fun s a => ring3Calls tid s a = true) (Twin tid)

def switchesOut (tid : Dword) (a : Action) : Prop :=
  ∃ curTid cbsNew cbsOld, a = .call (.threadSwitch curTid tid cbsNew cbsOld)

/-- When the thread is switched out for the first time since its record was created, its
values are the same in both runs, as they are when it has computed them. -/
def sameFirst (cfg : Config) (tid : Dword) (p : Sys × Sys) (a : Action × Action) : Prop :=
  switchesOut tid a.1 → p.1.saved tid = false → cfg.restoreSet.Agrees p.1.fpu p.2.fpu

variable {cfg : Config} {s s' t t' : Sys} {a b : Action} {i : Nat} {tid : Dword} {ts : TsThread}

/-! ### One run -/

theorem CallStep.live {op : BspOp} (h : CallStep cfg s op t) : t.fpu = s.fpu ∧ t.actTid = s.actTid := by
  cases h <;> exact ⟨rfl, rfl⟩

/-- The steps that change the live state. -/
inductive LiveStep (s : Sys) : Action → Prop where
  | takeBack (l : ToBsp) : s.bsp = .bspTest l .cargo → LiveStep s .bsp
  | switchIn (curTid : Dword) (cbsNew : Tcb) : s.bsp = .switchIn curTid cbsNew → LiveStep s .bsp
  | compute (x : ExtState) : LiveStep s (.compute x)

theorem BspStep.live (h : BspStep cfg s t) (other : ¬LiveStep s .bsp) :
    t.fpu = s.fpu ∧ t.actTid = s.actTid := by
  cases h with
  | takeBack l pc => exact absurd (.takeBack l pc) other
  | switchIn curTid cbsNew pc => exact absurd (.switchIn curTid cbsNew pc) other
  | _ => exact ⟨rfl, rfl⟩

theorem Outcome.live (h : Outcome cfg s a t) (other : ¬LiveStep s a) :
    t.fpu = s.fpu ∧ t.actTid = s.actTid := by
  cases h with
  | call op t idle call => exact call.live
  | bsp t h => exact (bspStep_outcome h).live other
  | ap i now msClock t present h => exact ⟨h.frame.fpu, h.frame.actTid⟩
  | nmi i t present h => exact ⟨h.frame.fpu, h.frame.actTid⟩
  | trap i trap u x tid present pc => exact ⟨rfl, rfl⟩
  | compute x idle => exact absurd (.compute x) other
  | rebuildPd pageDir idle => exact ⟨rfl, rfl⟩

/-- The thread that `switch_to_bsp` is about to take back. -/
def Bsp.fetching : Bsp → Option Dword
  | .bspLock l | .bspTest l _ => some l.threadId
  | _ => none

theorem LockAt.fetching {b : Bsp} {cpu : Nat} {next : Status → Bsp} (h : LockAt b cpu next)
    (v : Status) : (next v).fetching = b.fetching := by
  cases h <;> rfl

theorem UnlockAt.fetching {b c : Bsp} {cpu : Nat} {v : Status} (h : UnlockAt b cpu v c) :
    c.fetching = none := by
  cases h <;> rfl

theorem switchToApReturn_fetching (l : ToAp) (rc : Bool) : (switchToApReturn l rc).fetching = none := by
  unfold switchToApReturn
  split <;> rfl

theorem BspStep.fetching (h : BspStep cfg s t) :
    t.bsp.fetching = none ∨ t.bsp.fetching = s.bsp.fetching ∧ t.actTid = s.actTid := by
  cases h with
  | goto b h =>
      left
      generalize s.bsp = c at h
      cases h with
      | noAp l _ => exact switchToApReturn_fetching l false
      | _ => rfl
  | startAp j pc _ _ => exact .inr ⟨rfl, rfl⟩
  | awaitAp j pc => exact .inr ⟨rfl, rfl⟩
  | spin cpu next at_ _ => exact .inr ⟨rfl, rfl⟩
  | lock cpu next at_ _ => exact .inr ⟨at_.fetching _, rfl⟩
  | unlock cpu v b at_ => exact .inl at_.fetching
  | decStore l cnt pc => exact .inl (switchToApReturn_fetching l true)
  | switchIn curTid cbsNew pc => exact .inl (by rw [switchIn_bsp]; rfl)
  | _ => exact .inl rfl

/-- `switch_to_bsp` is called for the current thread. -/
def FetchesCurrent (s : Sys) : Prop := ∀ tid, s.bsp.fetching = some tid → tid = s.actTid

theorem Outcome.fetchesCurrent (h : Outcome cfg s a t) (fetches : FetchesCurrent s) : FetchesCurrent t := by
  have stays (bsp : t.bsp = s.bsp) (actTid : t.actTid = s.actTid) : FetchesCurrent t := by
    intro tid fetching
    rw [actTid]
    exact fetches tid (bsp ▸ fetching)
  cases h with
  | call op t idle call =>
      cases call with
      | create tid page => exact stays rfl rfl
      | elevate proc lockaddr mode => exact stays rfl rfl
      | enter op b ht entry core =>
          intro tid fetching
          change b.fetching = some tid at fetching
          cases entry with
          | reattach crs ts _ _ _ =>
              cases fetching
              rfl
          | _ => cases fetching
  | bsp t h =>
      intro tid fetching
      obtain none | ⟨same, actTid⟩ := (bspStep_outcome h).fetching
      · cases none.symm.trans fetching
      · rw [actTid]
        exact fetches tid (same.symm.trans fetching)
  | ap i now msClock t present h => exact stays h.frame.bsp h.frame.actTid
  | nmi i t present h => exact stays h.frame.bsp h.frame.actTid
  | trap i trap u x tid present pc => exact stays rfl rfl
  | compute x idle => exact stays rfl rfl
  | rebuildPd pageDir idle => exact stays rfl rfl

theorem switchIn_actTid (curTid : Dword) (cbsNew : Tcb) :
    (switchIn cfg s curTid cbsNew).actTid = curTid := by
  unfold switchIn
  split <;> rfl

theorem switchIn_first {curTid : Dword} {cbsNew : Tcb} (found : s.tsHt.get curTid = some ts)
    (new : ts.dirty ≠ 0) : (switchIn cfg s curTid cbsNew).fpu = s.fpu := by
  unfold switchIn
  rw [found]
  exact if_neg fun restores => new restores.2.2

theorem threadEvent_switchOut {e : ThreadEvent} {out : Tcb × ExtState} (event : threadEvent s a = some e)
    (switches : e.switchOut tid = some out) : switchesOut tid a := by
  cases e with
  | switchedOut tid' cbs live =>
      simp only [ThreadEvent.switchOut, Option.ite_none_right_eq_some] at switches
      obtain ⟨rfl, -⟩ := switches
      unfold threadEvent at event
      split at event
      · split at event <;> cases event
      · cases event
      · cases event
        exact ⟨_, _, _, rfl⟩
      · split at event <;> cases event
      · split at event <;> cases event
      · cases event
      · cases event
  | _ => cases switches

theorem ThreadEvent.update_none {e : ThreadEvent} (owner : e.tid = tid) (old : e.isCreated tid = false) :
    e.update cfg none = none := by
  cases e with
  | created tid' page => exact absurd owner (of_decide_eq_false old)
  | _ => rfl

/-- What a step leaves in the record of a ring-3 thread: the live state at a switch-out,
nothing in a new record, and else what it had. -/
theorem Step.saved (step : Step cfg s a t) (ring3 : ring3Calls tid s a = true)
    (found : t.tsHt.get tid = some ts) (clean : ts.dirty = 0) :
    (switchesOut tid a ∧ cfg.migrationSet.Agrees ts.fpuState s.fpu) ∨
      ¬switchesOut tid a ∧ ∃ old, s.tsHt.get tid = some old ∧ old.dirty = 0 ∧
        ts.fpuState = old.fpuState := by
  have told := step.told tid
  rw [found] at told
  by_cases out : switchesOut tid a
  · left
    refine ⟨out, ?_⟩
    obtain ⟨curTid, cbsNew, cbsOld, rfl⟩ := out
    have own : (ThreadEvent.switchedOut tid cbsOld s.fpu).tid = tid := rfl
    have updated : some ts = (ThreadEvent.switchedOut tid cbsOld s.fpu).update cfg (s.tsHt.get tid) :=
      told.trans (ThreadEvent.after_own _ own)
    cases before : s.tsHt.get tid with
    | none =>
        rw [before] at updated
        cases updated
    | some old =>
        rw [before] at updated
        have saved := ThreadEvent.update_saved own rfl updated.symm
        simp only [ThreadEvent.switchOut, if_true] at saved
        have flag : cbsOld.ring3 := by
          simp only [ring3Calls, ne_eq, not_true, decide_false, Bool.false_or, Bool.and_eq_true,
            decide_eq_true_eq] at ring3
          exact ring3.1
        exact (saved cbsOld s.fpu rfl flag).2
  · right
    refine ⟨out, ?_⟩
    cases event : threadEvent s a with
    | none =>
        rw [event] at told
        exact ⟨ts, told.symm, clean, rfl⟩
    | some e =>
        rw [event] at told
        by_cases own : e.tid = tid
        · have updated : e.update cfg (s.tsHt.get tid) = some ts := ((e.after_own own).symm.trans told.symm)
          cases kind : e.isCreated tid with
          | true =>
              cases e with
              | created tid' page =>
                  cases updated
                  cases clean
              | _ => cases kind
          | false =>
              cases before : s.tsHt.get tid with
              | none =>
                  rw [before, ThreadEvent.update_none own kind] at updated
                  cases updated
              | some old =>
                  rw [before] at updated
                  have saved := ThreadEvent.update_saved own kind updated
                  cases switches : e.switchOut tid with
                  | none =>
                      rw [switches] at saved
                      exact ⟨old, rfl, saved.1.symm.trans clean, saved.2⟩
                  | some found => exact absurd (threadEvent_switchOut event switches) out
        · exact ⟨ts, (told.trans (e.after_other own)).symm, clean, rfl⟩

/-! ### Two runs -/

theorem Twin.erase (twin : Twin tid s a b) : a.erase = b.erase := by
  cases twin <;> rfl

/-- The two runs look the same to `tid` once its record has been saved. -/
structure Private (cfg : Config) (tid : Dword) (s s' : Sys) : Prop where
  same : s.erase = s'.erase
  fetches : FetchesCurrent s
  live : s.actTid = tid → s.saved tid = true → cfg.restoreSet.Agrees s.fpu s'.fpu
  record : ∀ ts ts', s.tsHt.get tid = some ts → s'.tsHt.get tid = some ts' → ts.dirty = 0 →
    cfg.restoreSet.Agrees ts.fpuState ts'.fpuState
  page : ∀ i, s.Returned i → (s.ap i).threadId = tid →
    cfg.restoreSet.Agrees (s.ap i).fpuState (s'.ap i).fpuState

namespace Private

theorem record_erase (same : s.erase = s'.erase) (found : s.tsHt.get tid = some ts) :
    ∃ ts', s'.tsHt.get tid = some ts' ∧ ts'.dirty = ts.dirty := by
  have get : s.erase.tsHt.get tid = s'.erase.tsHt.get tid := by rw [same]
  rw [Sys.erase_tsHt, Sys.erase_tsHt, TsHt.erase_get, TsHt.erase_get, found] at get
  obtain ⟨ts', found', erased⟩ := Option.map_eq_some_iff.mp get.symm
  have dirty : ts'.erase.dirty = ts.erase.dirty := by rw [erased]
  exact ⟨ts', found', dirty⟩

theorem returned_iff (same : s.erase = s'.erase) : s.Returned i ↔ s'.Returned i := by
  have erased (s : Sys) : s.erase.Returned i ↔ s.Returned i := Iff.rfl
  rw [← erased s, same, erased]

variable (priv : Private cfg tid s s')
include priv

/-- At a switch-out of the thread its live state is the same in both runs. -/
theorem live_at_switchOut (ring3 : ring3Calls tid s a = true)
    (first : sameFirst cfg tid (s, s') (a, b)) (out : switchesOut tid a) :
    cfg.restoreSet.Agrees s.fpu s'.fpu := by
  cases saved : s.saved tid with
  | false => exact first out saved
  | true =>
      obtain ⟨curTid, cbsNew, cbsOld, rfl⟩ := out
      simp only [ring3Calls, saved, ne_eq, not_true, decide_false, Bool.false_or, Bool.not_true,
        Bool.or_false, Bool.and_eq_true, decide_eq_true_eq] at ring3
      exact priv.live ring3.2 saved

/-- The records after a step agree as long as they are not new. -/
theorem record_step (twin : Twin tid s a b) (ring3 : ring3Calls tid s a = true)
    (ring3' : ring3Calls tid s' b = true) (first : sameFirst cfg tid (s, s') (a, b))
    (step : Step cfg s a t) (step' : Step cfg s' b t') (same : t.erase = t'.erase) {ts' : TsThread}
    (found : t.tsHt.get tid = some ts) (found' : t'.tsHt.get tid = some ts') (clean : ts.dirty = 0) :
    cfg.restoreSet.Agrees ts.fpuState ts'.fpuState := by
  have clean' : ts'.dirty = 0 := by
    obtain ⟨_, other, dirty⟩ := record_erase same found
    cases found'.symm.trans other
    exact dirty.trans clean
  obtain ⟨out, agrees⟩ | ⟨stays, old, before, dirty, kept⟩ := step.saved ring3 found clean
  · have out' : switchesOut tid b := by
      obtain ⟨curTid, cbsNew, cbsOld, rfl⟩ := out
      cases twin
      exact ⟨_, _, _, rfl⟩
    obtain ⟨-, agrees'⟩ | ⟨stays, -⟩ := step'.saved ring3' found' clean'
    · refine (agrees.mono fun _ => Config.restoreSet_covers).trans ?_
      refine (priv.live_at_switchOut ring3 first out).trans ?_
      exact (agrees'.mono fun _ => Config.restoreSet_covers).symm
    · exact absurd out' stays
  · obtain ⟨out, -⟩ | ⟨-, old', before', -, kept'⟩ := step'.saved ring3' found' clean'
    · obtain ⟨curTid, cbsNew, cbsOld, rfl⟩ := out
      cases twin
      exact absurd ⟨_, _, _, rfl⟩ stays
    · rw [kept, kept']
      exact priv.record old old' before before' dirty

/-- The data pages of APs that the thread has come back to agree. -/
theorem page_step (sound : Sound cfg s) (sound' : Sound cfg s') (twin : Twin tid s a b)
    (step : Step cfg s a t) (step' : Step cfg s' b t') (same : t.erase = t'.erase)
    (back : t.Returned i) (hosts : (t.ap i).threadId = tid) :
    cfg.restoreSet.Agrees (t.ap i).fpuState (t'.ap i).fpuState := by
  by_cases trap : ∃ kind u x, a = .trap i kind u x
  · obtain ⟨kind, u, x, rfl⟩ := trap
    have stored {s t : Sys} (step : Step cfg s (.trap i kind u x) t) :
        (t.ap i).threadId = (s.ap i).threadId ∧ cfg.restoreSet.Agrees (t.ap i).fpuState x := by
      cases step.outcome with
      | trap _ _ _ _ tid present pc =>
          rw [Sys.setAp_self]
          exact ⟨rfl, (SaveMethod.copy_agrees _ _ _).mono fun _ => Config.restoreSet_covers⟩
    obtain ⟨owner, agrees⟩ := stored step
    cases twin with
    | same => exact agrees.trans (stored step').2.symm
    | trap _ _ _ _ y other => exact absurd (owner.symm.trans hosts) other
  · have trap' : ¬∃ kind u x, b = .trap i kind u x := by
      rintro ⟨kind, u, x, rfl⟩
      cases twin <;> exact trap ⟨_, _, _, rfl⟩
    have back' : t'.Returned i := (returned_iff same).mp back
    obtain ⟨before, context⟩ :=
      (step.outcome.returned sound.consistent (sound.engaged i) back).resolve_right trap
    obtain ⟨-, context'⟩ :=
      (step'.outcome.returned sound'.consistent (sound'.engaged i) back').resolve_right trap'
    rw [context.fpuState, context'.fpuState]
    exact priv.page i before (context.threadId.symm.trans hosts)

theorem liveStep_twin (twin : Twin tid s a b) (h : LiveStep s' b) : LiveStep s a := by
  have bsp : s.erase.bsp = s'.erase.bsp := by rw [priv.same]
  cases h with
  | takeBack l pc =>
      cases twin
      exact .takeBack l (bsp.trans pc)
  | switchIn curTid cbsNew pc =>
      cases twin
      exact .switchIn curTid cbsNew (bsp.trans pc)
  | compute x => cases twin <;> exact .compute _

theorem live_step (sound : Sound cfg s) (twin : Twin tid s a b)
    (ring3 : ring3Calls tid s a = true) (first : sameFirst cfg tid (s, s') (a, b))
    (step : Step cfg s a t) (step' : Step cfg s' b t')
    (current : t.actTid = tid) (saved : t.saved tid = true) :
    cfg.restoreSet.Agrees t.fpu t'.fpu := by
  have bsp : s.erase.bsp = s'.erase.bsp := by rw [priv.same]
  obtain ⟨ts, found, clean⟩ := (Option.any_eq_true _ _).mp saved
  have clean : ts.dirty = 0 := of_decide_eq_true clean
  by_cases kind : LiveStep s a
  · cases kind with
    | takeBack l pc =>
        cases twin
        have pc' : s'.bsp = .bspTest l .cargo := bsp.symm.trans pc
        obtain ⟨returned, owner⟩ := sound.returned_of_bspTest pc
        rw [bspStep_bspTest pc step] at current ⊢
        rw [bspStep_bspTest pc' step']
        have hosts : (s.ap l.cpu).threadId = tid := by
          rw [owner, priv.fetches l.threadId (by rw [pc]; rfl)]
          exact current
        have restored (s : Sys) : cfg.restoreSet.Agrees (takeBack cfg s l).fpu (s.ap l.cpu).fpuState := by
          simp only [takeBack, fpuRestore, fpuSaveMethod_user]
          exact (SaveMethod.copy_agrees _ _ _).mono fun _ => Config.restoreSet_covers
        exact (restored s).trans ((priv.page l.cpu returned hosts).trans (restored s').symm)
    | switchIn curTid cbsNew pc =>
        cases twin
        have pc' : s'.bsp = .switchIn curTid cbsNew := bsp.symm.trans pc
        obtain ⟨⟨_, _, _, other⟩, -⟩ | ⟨-, old, before, dirty, -⟩ := step.saved ring3 found clean
        · cases other
        · rw [bspStep_switchIn pc step] at current ⊢
          rw [bspStep_switchIn pc' step']
          have own : curTid = tid := (switchIn_actTid curTid cbsNew).symm.trans current
          subst own
          have flag : cbsNew.ring3 := by simpa [ring3Calls, pc] using ring3
          obtain ⟨old', before', sameDirty⟩ := record_erase priv.same before
          have dirty' : old'.dirty = 0 := sameDirty.trans dirty
          refine (switchIn_restores before flag dirty).trans ?_
          exact (priv.record old old' before before' dirty).trans
            (switchIn_restores before' flag dirty').symm
    | compute x =>
        have computed {s t : Sys} {y : ExtState} (step : Step cfg s (.compute y) t) :
            t.fpu = y ∧ t.actTid = s.actTid := by
          cases step.outcome with
          | compute _ idle => exact ⟨rfl, rfl⟩
        cases twin with
        | same =>
            rw [(computed step).1, (computed step').1]
            exact .refl _ x
        | compute _ y other => exact absurd ((computed step).2.symm.trans current) other
  · obtain ⟨fpu, actTid⟩ := step.outcome.live kind
    obtain ⟨fpu', -⟩ := step'.outcome.live fun kind' => kind (priv.liveStep_twin twin kind')
    rw [fpu, fpu']
    obtain ⟨out, -⟩ | ⟨-, old, before, dirty, -⟩ := step.saved ring3 found clean
    · exact priv.live_at_switchOut ring3 first out
    · refine priv.live (actTid.symm.trans current) ?_
      simp [Sys.saved, before, dirty]

/-- Matching steps keep the two runs alike for the thread. -/
theorem step_step (sound : Sound cfg s) (sound' : Sound cfg s') (twin : Twin tid s a b)
    (ring3 : ring3Calls tid s a = true) (ring3' : ring3Calls tid s' b = true)
    (first : sameFirst cfg tid (s, s') (a, b))
    (step : Step cfg s a t) (step' : Step cfg s' b t') : Private cfg tid t t' := by
  have same : t.erase = t'.erase := (step_commutes cfg).same_view priv.same twin.erase step step'
  exact {
    same := same
    fetches := step.outcome.fetchesCurrent priv.fetches
    live := priv.live_step sound twin ring3 first step step'
    record := fun _ _ => priv.record_step twin ring3 ring3' first step step' same
    page := fun i => priv.page_step sound sound' twin step step' same }

end Private

theorem private_initialised : Private cfg tid (initialised cfg) (initialised cfg) where
  same := rfl
  fetches _ h := by cases h
  live _ _ := .refl _ _
  record _ _ found := by cases found
  page _ _ _ := .refl _ _

/-- Two runs that differ only in the values that other threads compute. Whenever a
ring-3 thread is made current that has been switched out since its record was created, and
whose values were its own when this happened first, everything that `thread_switch`
restores is the same in both. Before that, `thread_switch` leaves the live state as the
previous thread left it. -/
theorem extended_state_private {as : List (Action × Action)} {cbsNew : Tcb}
    (run : Run (restrict (TwinStep cfg tid) (sameFirst cfg tid)) (initialised cfg, initialised cfg) as
      (s, s'))
    (pc : s.bsp = .switchIn tid cbsNew) (ring3 : cbsNew.ring3) (found : s.tsHt.get tid = some ts)
    (step : Step cfg s .bsp t) (step' : Step cfg s' .bsp t') :
    (ts.dirty = 0 → cfg.restoreSet.Agrees t.fpu t'.fpu) ∧
      (ts.dirty ≠ 0 → t.fpu = s.fpu ∧ t'.fpu = s'.fpu) := by
  have invariant : (Sound cfg s ∧ Sound cfg s') ∧ Private cfg tid s s' := by
    refine run.invariant_with (I := fun p => Sound cfg p.1 ∧ Sound cfg p.2)
      (P := fun p => Private cfg tid p.1 p.2) ?_ ?_ ⟨sound_initialised, sound_initialised⟩
      private_initialised
    · rintro p a q ⟨sound, sound'⟩ ⟨-, -, left, right⟩
      exact ⟨sound.step left.2, sound'.step right.2⟩
    · rintro p a q ⟨sound, sound'⟩ priv ⟨first, twin, left, right⟩
      exact priv.step_step sound sound' twin left.1 right.1 first left.2 right.2
  obtain ⟨-, priv⟩ := invariant
  have pc' : s'.bsp = .switchIn tid cbsNew := by
    have bsp : s.erase.bsp = s'.erase.bsp := by rw [priv.same]
    exact bsp.symm.trans pc
  obtain ⟨ts', found', dirty⟩ := Private.record_erase priv.same found
  rw [bspStep_switchIn pc step, bspStep_switchIn pc' step']
  refine ⟨fun clean => ?_, fun new => ⟨switchIn_first found new, switchIn_first found' (dirty ▸ new)⟩⟩
  refine (switchIn_restores found ring3 clean).trans ?_
  exact (priv.record ts ts' found found' clean).trans (switchIn_restores found' ring3 (dirty.trans clean)).symm

/-- A step of both runs: the same action, or two computations. -/
def twinActions : Action ⊕ ExtState × ExtState → Action × Action
  | .inl a => (a, a)
  | .inr (x, y) => (.compute x, .compute y)

/-- Only thread 7 computes different values, and thread 5 is switched out with the same
live state on both sides. -/
def twinOk (p : Sys × Sys) : Action ⊕ ExtState × ExtState → Bool
  | .inl (.call (.threadSwitch _ oldTid _ _)) => oldTid ≠ 5 || p.1.fpu = p.2.fpu
  | .inl _ => true
  | .inr _ => p.1.actTid = 7

theorem twinOk_sound (cfg : Config) (p : Sys × Sys) (b : Action ⊕ ExtState × ExtState) (ok : twinOk p b = true) :
    Twin 5 p.1 (twinActions b).1 (twinActions b).2 ∧ sameFirst cfg 5 p (twinActions b) := by
  cases b with
  | inl a =>
      refine ⟨.same a, ?_⟩
      rintro ⟨curTid, cbsNew, cbsOld, rfl⟩ _
      have same : p.1.fpu = p.2.fpu := by simpa [twinOk] using ok
      rw [same]
      exact .refl _ _
  | inr values =>
      refine ⟨.compute _ _ fun own => ?_, fun out => ?_⟩
      · have current : p.1.actTid = 7 := by simpa [twinOk] using ok
        exact absurd (own.symm.trans current) (by decide)
      · obtain ⟨_, _, _, other⟩ := out
        cases other

/-- The BSP is about to make thread `tid` current, with the flags of a ring-3 thread. -/
def Sys.switchesTo (s : Sys) (tid : Dword) : Bool :=
  match s.bsp with
  | .switchIn curTid cbsNew => curTid = tid && decide cbsNew.ring3
  | _ => false

theorem Sys.switchesTo_spec (h : s.switchesTo tid = true) :
    ∃ cbsNew : Tcb, s.bsp = .switchIn tid cbsNew ∧ cbsNew.ring3 ∧
      Step cfg s .bsp (switchIn cfg s tid cbsNew) := by
  unfold Sys.switchesTo at h
  split at h
  · rename_i curTid cbsNew pc
    simp only [Bool.and_eq_true, decide_eq_true_eq] at h
    obtain ⟨rfl, ring3⟩ := h
    refine ⟨cbsNew, pc, ring3, ?_⟩
    change bspStep cfg s = some (switchIn cfg s curTid cbsNew)
    simp only [bspStep, pc]
  · cases h

/-- Thread 7 computes different values in the two runs, and thread 5 is about to be
switched in for the first time. -/
def firstActivation : List (Action ⊕ ExtState × ExtState) :=
  [.inl (.call (.threadInit 5 (some 0x1000))), .inl (.call (.threadSwitch 7 0 runnable runnable)),
    .inl .bsp, .inr (⟨4, 5, 6⟩, ⟨7, 8, 9⟩), .inl (.call (.threadSwitch 5 7 runnable runnable))]

/-- The same, and thread 5 had computed and was switched out before. -/
def secondActivation : List (Action ⊕ ExtState × ExtState) :=
  [.inl (.call (.threadInit 5 (some 0x1000))), .inl (.call (.threadSwitch 5 0 runnable runnable)),
    .inl .bsp, .inl (.compute ⟨1, 2, 3⟩), .inl (.call (.threadSwitch 7 5 runnable runnable)),
    .inl .bsp, .inr (⟨4, 5, 6⟩, ⟨7, 8, 9⟩), .inl (.call (.threadSwitch 5 7 runnable runnable))]

theorem extended_state_private_second : ∃ as s s' t t',
    Run (restrict (TwinStep noFxsave 5) (sameFirst noFxsave 5)) (initialised noFxsave, initialised noFxsave)
      as (s, s') ∧
    s.fpu = ⟨4, 5, 6⟩ ∧ s'.fpu = ⟨7, 8, 9⟩ ∧ Step noFxsave s .bsp t ∧ Step noFxsave s' .bsp t' ∧
    noFxsave.restoreSet.Agrees t.fpu t'.fpu := by
  have computed : (exec (pairStep (guard (step noFxsave) (ring3Calls 5)) twinActions twinOk)
      (initialised noFxsave, initialised noFxsave) secondActivation).any
        (fun p => p.1.switchesTo 5 && p.2.switchesTo 5 && p.1.saved 5 &&
          p.1.fpu = ⟨4, 5, 6⟩ && p.2.fpu = ⟨7, 8, 9⟩) = true := by decide +kernel
  obtain ⟨⟨s, s'⟩, run, checked⟩ := exists_run_paired (twinOk_sound noFxsave) computed
  simp only [Bool.and_eq_true, decide_eq_true_eq] at checked
  obtain ⟨⟨⟨⟨left, right⟩, saved⟩, fpu⟩, fpu'⟩ := checked
  obtain ⟨cbsNew, pc, ring3, step⟩ := Sys.switchesTo_spec left
  obtain ⟨_, -, -, step'⟩ := Sys.switchesTo_spec right
  obtain ⟨ts, found, clean⟩ := (Option.any_eq_true _ _).mp saved
  exact ⟨_, s, s', _, _, run, fpu, fpu', step, step',
    (extended_state_private run pc ring3 found step step').1 (of_decide_eq_true clean)⟩

/-- Thread 5 is switched in for the first time, and sees what thread 7 has computed. -/
theorem extended_state_leak : ∃ as s s' t t' cbsNew,
    Run (TwinStep noFxsave 5) (initialised noFxsave, initialised noFxsave) as (s, s') ∧
    s.bsp = .switchIn 5 cbsNew ∧ cbsNew.ring3 ∧ (s.tsHt.get 5).isSome ∧
    Step noFxsave s .bsp t ∧ Step noFxsave s' .bsp t' ∧
    noFxsave.restoreSet.covers .sse = true ∧ t.fpu.component .sse ≠ t'.fpu.component .sse := by
  have computed : (exec (pairStep (guard (step noFxsave) (ring3Calls 5)) twinActions twinOk)
      (initialised noFxsave, initialised noFxsave) firstActivation).any
        (fun p => p.1.switchesTo 5 && p.2.switchesTo 5 && (p.1.tsHt.get 5).any (·.dirty = 1) &&
          (p.2.tsHt.get 5).any (·.dirty = 1) && p.1.fpu = ⟨4, 5, 6⟩ && p.2.fpu = ⟨7, 8, 9⟩) = true := by
    decide +kernel
  obtain ⟨⟨s, s'⟩, run, checked⟩ := exists_run_paired (twinOk_sound noFxsave) computed
  simp only [Bool.and_eq_true, decide_eq_true_eq] at checked
  obtain ⟨⟨⟨⟨⟨left, right⟩, new⟩, new'⟩, fpu⟩, fpu'⟩ := checked
  obtain ⟨cbsNew, pc, ring3, step⟩ := Sys.switchesTo_spec left
  obtain ⟨_, -, -, step'⟩ := Sys.switchesTo_spec right
  obtain ⟨ts, found, dirty⟩ := (Option.any_eq_true _ _).mp new
  obtain ⟨ts', found', dirty'⟩ := (Option.any_eq_true _ _).mp new'
  have first : ts.dirty ≠ 0 := by rw [of_decide_eq_true dirty]; decide
  have first' : ts'.dirty ≠ 0 := by rw [of_decide_eq_true dirty']; decide
  refine ⟨_, s, s', _, _, cbsNew, run.of_restrict, pc, ring3, by rw [found]; rfl, step, step', by decide, ?_⟩
  rw [switchIn_first found first, switchIn_first found' first', fpu, fpu']
  decide

end SmpVxd
