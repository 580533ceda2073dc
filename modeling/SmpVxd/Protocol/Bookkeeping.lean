import SmpVxd.Protocol.Value

/-!
# The thread table during a driver operation

Only the BSP changes the thread table, one operation at a time. `Ledger` says that
every record is either on the BSP or on a registered AP, and what an operation in
progress may rely on about the record it works for.
-/

namespace SmpVxd

open Transition

/-- The thread is on the BSP and may be handed to an AP. -/
def TsHt.Ready (ht : TsHt) (tid : Dword) : Prop :=
  ∃ ts, ht.get tid = some ts ∧ ts.smpStatus = 0 ∧ ts.smpBspIdleProc ≠ 0

/-- The record says that the thread is on the AP of slot `cpu`. -/
def TsHt.Hosted (ht : TsHt) (tid : Dword) (cpu : Nat) : Prop :=
  ∃ ts, ht.get tid = some ts ∧ ts.smpStatus = 1 ∧ ts.smpApid = cpu

variable (cfg : Config)

/-- What the locals of the operation in progress have to do with the table. -/
def BspOk (ht : TsHt) : Bsp → Prop
  | .smpInitBsp _ | .idle | .destroyFree _ | .switchIn _ _ | .restoreClient _ _ => True
  | .destroyLock tid cpu | .destroyDiscard tid cpu _ => ht.Hosted tid cpu
  | .destroyUnlock _ _ v => v = .dircard
  | .apLoop l => ht.Ready l.threadId ∧ l.found = false ∧ l.wakeup = false
  | .apLock l | .apSwitch l _ =>
      ht.Ready l.threadId ∧ l.found = false ∧ l.wakeup = false ∧ cfg.present l.cpu = true
  | .apStore l v =>
      ht.Ready l.threadId ∧ l.found = false ∧ l.wakeup = false ∧ cfg.present l.cpu = true ∧
        v.free = true
  | .apWakeup l v | .apUnlock l v =>
      cfg.present l.cpu = true ∧
        (l.found = true ∧ v = .loaded ∨
          ht.Ready l.threadId ∧ l.found = false ∧ l.wakeup = false ∧ v.free = false)
  | .decLoad l | .decStore l _ => l.found = true ∧ cfg.present l.cpu = true
  | .bspLock l | .bspTest l _ => ht.Hosted l.threadId l.cpu
  | .incLoad l | .incStore l _ | .bspUnlock l _ _ => cfg.present l.cpu = true

/-- Every record names a registered AP if it names one. -/
def Records (ht : TsHt) : Prop :=
  ∀ tid ts, ht.get tid = some ts →
    ts.smpStatus = 0 ∨ ts.smpStatus = 1 ∧ cfg.present ts.smpApid = true

structure Ledger (s : Sys) : Prop where
  records : Records cfg s.tsHt
  bsp : BspOk cfg s.tsHt s.bsp

variable {cfg} {s t : Sys} {a : Action} {ht ht' : TsHt} {tid : Dword} {cpu : Nat}

theorem TsHt.Ready.congr (ready : ht.Ready tid) (same : ht.SameCore ht') : ht'.Ready tid := by
  obtain ⟨ts, found, status, proc⟩ := ready
  obtain ⟨ts', found', core⟩ := same.get found
  have statusEq : ts'.core.smpStatus = ts.core.smpStatus := congrArg TsThread.smpStatus core
  have procEq : ts'.core.smpBspIdleProc = ts.core.smpBspIdleProc :=
    congrArg TsThread.smpBspIdleProc core
  exact ⟨ts', found', statusEq.trans status, fun null => proc (procEq.symm.trans null)⟩

theorem TsHt.Hosted.congr (hosted : ht.Hosted tid cpu) (same : ht.SameCore ht') :
    ht'.Hosted tid cpu := by
  obtain ⟨ts, found, status, apid⟩ := hosted
  obtain ⟨ts', found', core⟩ := same.get found
  have statusEq : ts'.core.smpStatus = ts.core.smpStatus := congrArg TsThread.smpStatus core
  have apidEq : ts'.core.smpApid = ts.core.smpApid := congrArg TsThread.smpApid core
  exact ⟨ts', found', statusEq.trans status, apidEq.trans apid⟩

theorem TsHt.Hosted.present (hosted : ht.Hosted tid cpu) (records : Records cfg ht) :
    cfg.present cpu = true := by
  obtain ⟨ts, found, status, rfl⟩ := hosted
  obtain zero | ⟨_, present⟩ := records tid ts found
  · rw [zero] at status
    cases status
  · exact present

theorem Records.hosted (records : Records cfg ht) {ts : TsThread} (found : ht.get tid = some ts)
    (status : ts.smpStatus ≠ 0) : ht.Hosted tid ts.smpApid := by
  obtain zero | ⟨one, _⟩ := records tid ts found
  · exact absurd zero status
  · exact ⟨ts, found, one, rfl⟩

theorem Records.congr (records : Records cfg ht) (same : ht.SameCore ht') : Records cfg ht' := by
  intro tid ts' found'
  obtain ⟨ts, found, core⟩ := same.symm.get found'
  have statusEq : ts.core.smpStatus = ts'.core.smpStatus := congrArg TsThread.smpStatus core
  have apidEq : ts.core.smpApid = ts'.core.smpApid := congrArg TsThread.smpApid core
  have old := records tid ts found
  rwa [show ts.smpStatus = ts'.smpStatus from statusEq,
    show ts.smpApid = ts'.smpApid from apidEq] at old

/-- A change of one record. -/
theorem Records.modify (records : Records cfg ht) {f : TsThread → TsThread}
    (keeps : ∀ ts, (f ts).tid = ts.tid)
    (ok : ∀ ts, ht.get tid = some ts →
      (f ts).smpStatus = 0 ∨ (f ts).smpStatus = 1 ∧ cfg.present (f ts).smpApid = true) :
    Records cfg (ht.modify tid f keeps) := by
  intro tid' ts' found'
  by_cases same : tid' = tid
  · subst same
    rw [TsHt.get_modify_self] at found'
    obtain ⟨ts, found, rfl⟩ := Option.map_eq_some_iff.mp found'
    exact ok ts found
  · rw [TsHt.get_modify_ne same] at found'
    exact records tid' ts' found'

theorem Records.create (records : Records cfg ht) (page : Option Dword) :
    Records cfg (ht.create page tid) := by
  cases page with
  | none => exact records
  | some addr =>
      intro tid' ts' found'
      by_cases same : tid' = tid
      · subst same
        rw [TsHt.get_create_self] at found'
        cases found : ht.get tid' with
        | none =>
            rw [found] at found'
            cases found'
            exact .inl rfl
        | some ts =>
            rw [found] at found'
            cases found'
            exact records tid' ts found
      · rw [TsHt.get_create_ne _ same] at found'
        exact records tid' ts' found'

theorem Records.destroy (records : Records cfg ht) : Records cfg (ht.destroy tid) := by
  intro tid' ts' found'
  by_cases same : tid' = tid
  · subst same
    rw [TsHt.get_destroy_self] at found'
    cases found'
  · rw [TsHt.get_destroy_ne same] at found'
    exact records tid' ts' found'

/-- A record change outside of the hosting fields. -/
theorem smpElevate_records (records : Records cfg s.tsHt) (proc lockaddr mode : Dword) :
    Records cfg (smpElevate s proc lockaddr mode).tsHt := by
  refine records.modify (fun ts => by split <;> rfl) fun ts found => ?_
  have old := records s.actTid ts found
  split <;> exact old

theorem switchIn_core (curTid : Dword) (cbsNew : Tcb) :
    s.tsHt.SameCore (switchIn cfg s curTid cbsNew).tsHt := by
  unfold switchIn
  split
  · exact .refl _
  · exact .modify _ (fun _ => by rfl) fun _ => rfl

theorem BspGoto.ok {b : Bsp} (records : Records cfg s.tsHt) (h : BspGoto cfg s s.bsp b)
    (ok : BspOk cfg s.tsHt s.bsp) : BspOk cfg s.tsHt b := by
  generalize s.bsp = c at h ok
  cases h with
  | booted i _ => trivial
  | empty i _ => trivial
  | ready i _ _ => trivial
  | noAp l _ =>
      unfold switchToApReturn
      split <;> trivial
  | tryAp l present => exact ⟨ok.1, ok.2.1, ok.2.2, present⟩
  | nextAp l _ => exact ok
  | noLock l v ts free _ _ => exact ⟨ok.1, ok.2.1, ok.2.2.1, ok.2.2.2, free⟩
  | notFree l v used => exact ⟨ok.2.2.2, .inr ⟨ok.1, ok.2.1, ok.2.2.1, used⟩⟩
  | noWakeup l v _ => exact ok
  | decLoad l => exact ok
  | notCargo l v _ => exact ok.present records
  | incLoad l => exact ok
  | restored crs rc => trivial

theorem LockAt.ok {b : Bsp} {next : Status → Bsp} (h : LockAt b cpu next) (ok : BspOk cfg ht b)
    (v : Status) : BspOk cfg ht (next v) := by
  cases h <;> exact ok

theorem UnlockAt.ok {b c : Bsp} {v : Status} (h : UnlockAt b cpu v c) (ok : BspOk cfg ht b) :
    BspOk cfg ht c := by
  cases h with
  | destroy tid cpu v => trivial
  | handedOff l v found => exact ⟨found, ok.1⟩
  | nextAp l v notFound =>
      obtain ⟨found, _⟩ | ⟨ready, _, asleep, _⟩ := ok.2
      · cases found.symm.trans notFound
      · exact ⟨ready, notFound, asleep⟩
  | toBsp l v rc => trivial

theorem BspEntry.ok {op : BspOp} {b : Bsp} (h : BspEntry cfg s op b)
    (records : Records cfg s.tsHt) : BspOk cfg s.tsHt b := by
  cases h with
  | destroyHosted tid ts found status => exact records.hosted found status
  | destroyOther tid _ => trivial
  | migrate curTid oldTid cbsNew cbsOld ts found _ status proc =>
      exact ⟨⟨ts, found, status, proc⟩, rfl, rfl⟩
  | stayOnBsp curTid oldTid cbsNew cbsOld => trivial
  | fly crs ts _ found status proc => exact ⟨⟨ts, found, status, proc⟩, rfl, rfl⟩
  | flyRefused crs _ => trivial
  | reattach crs ts _ found status => exact records.hosted found status
  | reattachRefused crs _ _ => trivial
  | otherInt3 crs _ => trivial
  | pageFault => trivial

theorem BspOk.congr {b : Bsp} (ok : BspOk cfg ht b) (same : ht.SameCore ht') : BspOk cfg ht' b := by
  cases b with
  | smpInitBsp i => trivial
  | idle => trivial
  | destroyLock tid cpu => exact TsHt.Hosted.congr ok same
  | destroyDiscard tid cpu v => exact TsHt.Hosted.congr ok same
  | destroyUnlock tid cpu v => exact ok
  | destroyFree tid => trivial
  | apLoop l => exact ⟨ok.1.congr same, ok.2⟩
  | apLock l => exact ⟨ok.1.congr same, ok.2⟩
  | apSwitch l v => exact ⟨ok.1.congr same, ok.2⟩
  | apStore l v => exact ⟨ok.1.congr same, ok.2⟩
  | apWakeup l v => exact ⟨ok.1, ok.2.imp_right fun h => ⟨h.1.congr same, h.2⟩⟩
  | apUnlock l v => exact ⟨ok.1, ok.2.imp_right fun h => ⟨h.1.congr same, h.2⟩⟩
  | decLoad l => exact ok
  | decStore l cnt => exact ok
  | bspLock l => exact TsHt.Hosted.congr ok same
  | bspTest l v => exact TsHt.Hosted.congr ok same
  | incLoad l => exact ok
  | incStore l cnt => exact ok
  | bspUnlock l v rc => exact ok
  | switchIn curTid cbsNew => trivial
  | restoreClient crs rc => trivial

theorem BspStep.ledger (ledger : Ledger cfg s) (h : BspStep cfg s t) : Ledger cfg t := by
  obtain ⟨records, ok⟩ := ledger
  cases h with
  | goto b h =>
      have next := h.ok records ok
      exact ⟨records, next⟩
  | startAp j pc _ _ => exact ⟨records, ok⟩
  | awaitAp j pc => exact ⟨records, ok⟩
  | spin cpu next at_ _ => exact ⟨records, ok⟩
  | lock cpu next at_ _ => exact ⟨records, at_.ok ok _⟩
  | unlock cpu v b at_ => exact ⟨records, at_.ok ok⟩
  | discard tid cpu v pc => exact ⟨records, rfl⟩
  | free tid pc => exact ⟨records.destroy, trivial⟩
  | setIdleLock l v ts pc free found lock =>
      rw [pc] at ok
      exact ⟨records, ok.1, ok.2.1, ok.2.2.1, ok.2.2.2, free⟩
  | handOff l v ts pc found =>
      rw [pc] at ok
      exact ⟨records.modify (fun _ => by rfl) fun _ _ => .inr ⟨rfl, ok.2.2.2.1⟩, ok.2.2.2.1, .inl ⟨rfl, rfl⟩⟩
  | wakeup l v pc wakeup =>
      rw [pc] at ok
      exact ⟨records, ok⟩
  | decStore l cnt pc =>
      refine ⟨records, ?_⟩
      simp only [switchToApReturn]
      split <;> trivial
  | takeBack l pc =>
      rw [pc] at ok
      exact ⟨records.modify (fun _ => by rfl) fun _ _ => .inl rfl, TsHt.Hosted.present ok records⟩
  | incStore l cnt pc =>
      rw [pc] at ok
      exact ⟨records, ok⟩
  | switchIn curTid cbsNew pc =>
      refine ⟨records.congr (switchIn_core curTid cbsNew), ?_⟩
      rw [switchIn_bsp]
      trivial

theorem ApFrame.ledger {j : Nat} (ledger : Ledger cfg s) (h : ApFrame j s t) : Ledger cfg t := by
  obtain ⟨records, ok⟩ := ledger
  exact ⟨h.tsHt ▸ records, by rw [h.tsHt, h.bsp]; exact ok⟩

theorem CallStep.ledger {op : BspOp} (ledger : Ledger cfg s) (idle : s.bsp = .idle)
    (h : CallStep cfg s op t) : Ledger cfg t := by
  obtain ⟨records, ok⟩ := ledger
  cases h with
  | create tid page => exact ⟨records.create page, by rw [idle]; trivial⟩
  | elevate proc lockaddr mode =>
      refine ⟨smpElevate_records records proc lockaddr mode, ?_⟩
      change BspOk cfg _ s.bsp
      rw [idle]
      trivial
  | enter op b ht entry same => exact ⟨records.congr same, (entry.ok records).congr same⟩

theorem Ledger.step (ledger : Ledger cfg s) (h : Step cfg s a t) : Ledger cfg t := by
  cases h.outcome with
  | call op t idle call => exact call.ledger ledger idle
  | bsp t h => exact (bspStep_outcome h).ledger ledger
  | ap j now msClock t present h => exact h.frame.ledger ledger
  | nmi j t present h => exact h.frame.ledger ledger
  | trap j trap u x tid present pc => exact ⟨ledger.records, ledger.bsp⟩
  | compute x idle => exact ⟨ledger.records, ledger.bsp⟩
  | rebuildPd pageDir idle => exact ⟨ledger.records, ledger.bsp⟩

theorem records_empty : Records cfg .empty := by
  intro tid ts found
  cases (TsHt.get_empty tid).symm.trans found

theorem ledger_boot : Ledger cfg (boot cfg) := ⟨records_empty, trivial⟩

theorem ledger_initialised : Ledger cfg (initialised cfg) := ⟨records_empty, trivial⟩

end SmpVxd
