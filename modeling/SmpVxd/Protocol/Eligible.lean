import SmpVxd.Protocol.Events

/-!
# Which threads migrate

The tests of a migration are spread over `thread_switch` and `switch_to_ap`, and what
they look at is set by `smp_elevate`, `callback_pf` and earlier switches. Here the
fields of the record are read off the history, and the tests of the two functions are
followed to the move itself.
-/

namespace SmpVxd

open Transition

/-- The part of a history, newest first, since the newest event of a kind. -/
def since {α : Type*} (kind : α → Bool) (h : List α) : List α := h.takeWhile fun a => !kind a

namespace ThreadEvent

def isCreated (tid : Dword) : ThreadEvent → Bool
  | .created tid' _ => tid' = tid
  | _ => false

def isSwitchedIn (tid : Dword) : ThreadEvent → Bool
  | .switchedIn tid' => tid' = tid
  | _ => false

def isPageFault (tid : Dword) : ThreadEvent → Bool
  | .pageFault tid' => tid' = tid
  | _ => false

/-- The placeholder procedure and the mode of a call of `smp_elevate`. -/
def elevation (tid : Dword) : ThreadEvent → Option (Dword × Dword)
  | .elevated tid' proc _ mode => if tid' = tid then some (proc, mode) else none
  | _ => none

/-- The old thread of a call of `thread_switch`. -/
def oldThread : ThreadEvent → Option (Dword × Tcb)
  | .switchedOut tid cbs _ => some (tid, cbs)
  | _ => none

end ThreadEvent

/-- The events since the record of the thread was created. -/
def life (tid : Dword) (h : List ThreadEvent) : List ThreadEvent := since (·.isCreated tid) h

/-- The latest call of `smp_elevate` by the thread. -/
def lastElevation (tid : Dword) (h : List ThreadEvent) : Option (Dword × Dword) :=
  h.findSome? (·.elevation tid)

/-- The latest call of `thread_switch`. -/
def lastSwitch (h : List ThreadEvent) : Option (Dword × Tcb) := h.findSome? ThreadEvent.oldThread

/-- `callback_pf` has seen a fault of the thread since it was last switched in. -/
def faulted (tid : Dword) (h : List ThreadEvent) : Bool :=
  (since (·.isSwitchedIn tid) h).any (·.isPageFault tid)

variable {cfg : Config} {s t : Sys} {a : Action} {tid : Dword} {ts : TsThread}
  {h : List ThreadEvent} {e : ThreadEvent}

theorem ThreadEvent.isCreated_ne (other : e.tid ≠ tid) : e.isCreated tid = false := by
  cases e with
  | created tid' page => exact decide_eq_false other
  | _ => rfl

theorem life_cons (old : e.isCreated tid = false) : life tid (e :: h) = e :: life tid h := by
  simp [life, since, old]

/-- What holds of a new record, and is kept by the events of the thread, holds of the
record and of the events since its creation. -/
theorem recordOf_life {P : TsThread → List ThreadEvent → Prop}
    (born : ∀ page, P (.new page tid) [])
    (own : ∀ e ts ts' h, e.tid = tid → e.isCreated tid = false →
      e.update cfg (some ts) = some ts' → P ts h → P ts' (e :: h))
    (other : ∀ e ts h, e.tid ≠ tid → P ts h → P ts (e :: h))
    (found : recordOf cfg tid h = some ts) : (∃ e ∈ h, e.isCreated tid = true) ∧ P ts (life tid h) := by
  induction h generalizing ts with
  | nil => cases found
  | cons e h ih =>
      rw [recordOf] at found
      by_cases owner : e.tid = tid
      · rw [e.after_own owner] at found
        cases kind : e.isCreated tid with
        | true =>
            refine ⟨⟨e, List.mem_cons_self, kind⟩, ?_⟩
            have empty : life tid (e :: h) = [] := by simp [life, since, kind]
            rw [empty]
            cases e with
            | created tid' page =>
                cases owner
                cases found
                exact born page
            | _ => cases kind
        | false =>
            cases before : recordOf cfg tid h with
            | none =>
                rw [before] at found
                cases e with
                | created tid' page => exact absurd owner (of_decide_eq_false kind)
                | _ => cases found
            | some ts' =>
                rw [before] at found
                obtain ⟨⟨c, member, creates⟩, held⟩ := ih before
                rw [life_cons kind]
                exact ⟨⟨c, List.mem_cons_of_mem _ member, creates⟩, own e ts' ts _ owner kind found held⟩
      · rw [e.after_other owner] at found
        obtain ⟨⟨c, member, creates⟩, held⟩ := ih found
        rw [life_cons (ThreadEvent.isCreated_ne owner)]
        exact ⟨⟨c, List.mem_cons_of_mem _ member, creates⟩, other e ts _ owner held⟩

/-- The mode and the procedure that the latest call of `smp_elevate` leaves in a record. -/
def elevatedTo : Option (Dword × Dword) → Dword × Dword
  | none => (smpModeSystem, 0)
  | some (proc, mode) => (mode, if mode ≠ smpModeSystem then proc else 0)

namespace ThreadEvent

variable {ts' : TsThread}

theorem update_elevation (owner : e.tid = tid) (old : e.isCreated tid = false)
    (updated : e.update cfg (some ts) = some ts') :
    (ts'.mode, ts'.smpBspIdleProc) =
      match e.elevation tid with
      | none => (ts.mode, ts.smpBspIdleProc)
      | some call => elevatedTo (some call) := by
  cases e with
  | created tid' page => exact absurd owner (of_decide_eq_false old)
  | destroyed tid' => cases updated
  | elevated tid' proc lockaddr mode =>
      cases updated
      rw [elevation, if_pos (show tid' = tid from owner)]
      simp only [elevatedTo]
      split <;> rfl
  | switchedOut tid' cbs live =>
      cases updated
      simp only [elevation]
      split <;> rfl
  | _ =>
      cases updated
      rfl

theorem update_pagefault (owner : e.tid = tid) (old : e.isCreated tid = false)
    (updated : e.update cfg (some ts) = some ts') :
    ts'.pagefault = if e.isSwitchedIn tid then 0 else if e.isPageFault tid then 1 else ts.pagefault := by
  cases e with
  | created tid' page => exact absurd owner (of_decide_eq_false old)
  | destroyed tid' => cases updated
  | elevated tid' proc lockaddr mode =>
      cases updated
      simp only [isSwitchedIn, isPageFault, Bool.false_eq_true, if_false]
      split <;> rfl
  | switchedOut tid' cbs live =>
      cases updated
      simp only [isSwitchedIn, isPageFault, Bool.false_eq_true, if_false]
      split <;> rfl
  | pageFault tid' =>
      cases updated
      simp [isSwitchedIn, isPageFault, show tid' = tid from owner]
  | switchedIn tid' =>
      cases updated
      simp [isSwitchedIn, show tid' = tid from owner]
  | _ =>
      cases updated
      rfl

theorem elevation_ne (other : e.tid ≠ tid) : e.elevation tid = none := by
  cases e with
  | elevated tid' proc lockaddr mode => exact if_neg other
  | _ => rfl

theorem isSwitchedIn_ne (other : e.tid ≠ tid) : e.isSwitchedIn tid = false := by
  cases e with
  | switchedIn tid' => exact decide_eq_false other
  | _ => rfl

theorem isPageFault_ne (other : e.tid ≠ tid) : e.isPageFault tid = false := by
  cases e with
  | pageFault tid' => exact decide_eq_false other
  | _ => rfl

end ThreadEvent

theorem recordOf_elevation (found : recordOf cfg tid h = some ts) :
    (ts.mode, ts.smpBspIdleProc) = elevatedTo (lastElevation tid (life tid h)) := by
  refine (recordOf_life
    (P := fun ts h => (ts.mode, ts.smpBspIdleProc) = elevatedTo (lastElevation tid h))
    (fun page => rfl) (fun e ts ts' h owner old updated held => ?_)
    (fun e ts h other held => ?_) found).2
  · rw [ThreadEvent.update_elevation owner old updated, lastElevation, List.findSome?_cons]
    cases e.elevation tid with
    | none => exact held
    | some call => rfl
  · rw [lastElevation, List.findSome?_cons, ThreadEvent.elevation_ne other]
    exact held

theorem recordOf_pagefault (found : recordOf cfg tid h = some ts) (clear : ts.pagefault = 0) :
    faulted tid (life tid h) = false := by
  refine (recordOf_life (P := fun ts h => ts.pagefault = 0 → faulted tid h = false)
    (fun page _ => rfl) (fun e ts ts' h owner old updated held clear => ?_)
    (fun e ts h other held clear => ?_) found).2 clear
  · rw [ThreadEvent.update_pagefault owner old updated] at clear
    cases switched : e.isSwitchedIn tid with
    | true => simp [faulted, since, switched]
    | false =>
        cases fault : e.isPageFault tid with
        | true => simp [switched, fault] at clear
        | false =>
            simp only [switched, fault, Bool.false_eq_true, if_false] at clear
            simpa [faulted, since, switched, fault] using held clear
  · simpa [faulted, since, ThreadEvent.isSwitchedIn_ne other, ThreadEvent.isPageFault_ne other]
      using held clear

/-! ### From the tests to the move -/

/-- The local variables of `switch_to_ap` before the move. -/
def Bsp.moving : Bsp → Option ToAp
  | .apLoop l | .apLock l | .apSwitch l _ | .apStore l _ => some l
  | .apWakeup l _ | .apUnlock l _ => if l.found then none else some l
  | _ => none

/-- The tests of `thread_switch` on the control block of the old thread. -/
structure Tcb.Migrates (cbs : Tcb) : Prop where
  blocked : cbs.tcbFlags &&& thflagThreadBlocked = 0
  low : 0x00100000 ≤ cbs.tcbClientPtr.clientEip
  high : cbs.tcbClientPtr.clientEip < 0x80000000

/-- What the tests leave behind for the move of `l`. -/
structure Pending (s : Sys) (h : List ThreadEvent) (l : ToAp) (ts : TsThread) : Prop where
  found : s.tsHt.get l.threadId = some ts
  onBsp : ts.smpStatus = 0
  proc : ts.smpBspIdleProc ≠ 0
  switched : ∀ curTid cbsNew, l.caller = .threadSwitch curTid cbsNew →
    ts.mode = smpModeAutorun ∧ ts.pagefault = 0 ∧
      ∃ cbs : Tcb, lastSwitch h = some (l.threadId, cbs) ∧ cbs.Migrates ∧ l.crs = cbs.tcbClientPtr

/-- The steps of `switch_to_ap` before the move keep its arguments. -/
structure ToAp.Same (l l' : ToAp) : Prop where
  caller : l'.caller = l.caller
  threadId : l'.threadId = l.threadId
  crs : l'.crs = l.crs

theorem ToAp.Same.refl (l : ToAp) : l.Same l := ⟨rfl, rfl, rfl⟩

theorem switchToApReturn_moving (l : ToAp) (rc : Bool) : (switchToApReturn l rc).moving = none := by
  unfold switchToApReturn
  split <;> rfl

theorem BspGoto.moving {b : Bsp} {l : ToAp} (h : BspGoto cfg s s.bsp b) (moving : b.moving = some l) :
    ∃ l', s.bsp.moving = some l' ∧ l'.Same l := by
  generalize s.bsp = c at h
  cases h with
  | noAp l' _ =>
      rw [switchToApReturn_moving] at moving
      cases moving
  | nextAp l' _ =>
      cases moving
      exact ⟨l', rfl, rfl, rfl, rfl⟩
  | noWakeup l' v _ => exact ⟨l, moving, .refl l⟩
  | notFree l' v _ =>
      simp only [Bsp.moving, Option.ite_none_left_eq_some] at moving
      exact ⟨l', rfl, Option.some.inj moving.2 ▸ .refl l'⟩
  | _ => cases moving <;> exact ⟨l, rfl, .refl l⟩

theorem LockAt.moving {cpu : Nat} {next : Status → Bsp} {v : Status} {l : ToAp}
    (h : LockAt s.bsp cpu next) (moving : (next v).moving = some l) :
    ∃ l', s.bsp.moving = some l' ∧ l'.Same l := by
  generalize s.bsp = c at h
  cases h with
  | toAp l' => exact ⟨l, moving, .refl l⟩
  | _ => cases moving

theorem UnlockAt.moving {cpu : Nat} {v : Status} {b : Bsp} {l : ToAp}
    (h : UnlockAt s.bsp cpu v b) (moving : b.moving = some l) :
    ∃ l', s.bsp.moving = some l' ∧ l'.Same l := by
  generalize s.bsp = c at h
  cases h with
  | nextAp l' v searching =>
      cases moving
      exact ⟨l', by simp [Bsp.moving, searching], rfl, rfl, rfl⟩
  | _ => cases moving

/-- A step of the BSP that comes closer to a move has no event. -/
theorem BspStep.moving {l : ToAp} (h : BspStep cfg s t) (moving : t.bsp.moving = some l) :
    (∃ l', s.bsp.moving = some l' ∧ l'.Same l) ∧ threadEvent s .bsp = none ∧ t.tsHt = s.tsHt := by
  cases h with
  | goto b h => exact ⟨h.moving moving, h.event, rfl⟩
  | startAp i pc _ _ =>
      change s.bsp.moving = some l at moving
      rw [pc] at moving
      cases moving
  | awaitAp i pc =>
      rw [pc] at moving
      cases moving
  | spin cpu next at_ _ => exact ⟨⟨l, moving, .refl l⟩, at_.event, rfl⟩
  | lock cpu next at_ _ => exact ⟨at_.moving moving, at_.event, rfl⟩
  | unlock cpu v b at_ => exact ⟨at_.moving moving, at_.event, rfl⟩
  | setIdleLock l' v ts pc _ _ _ =>
      cases moving
      exact ⟨⟨l, by rw [pc]; rfl, .refl l⟩, by simp [threadEvent, pc], rfl⟩
  | wakeup l' v pc _ => exact ⟨⟨l, by rw [pc]; exact moving, .refl l⟩, by simp [threadEvent, pc], rfl⟩
  | decStore l' cnt pc =>
      rw [switchToApReturn_moving] at moving
      cases moving
  | switchIn curTid cbsNew pc =>
      unfold SmpVxd.switchIn at moving
      split at moving <;> cases moving
  | _ => cases moving

/-- What `switch_to_ap` has looked up when it enters its loop. -/
theorem switchToAp_moving {caller : Caller} {crs : Crs} {l : ToAp}
    (moving : (switchToAp s caller crs tid).moving = some l) :
    l = ⟨caller, tid, crs, 0, false, false⟩ ∧
      ∃ ts, s.tsHt.get tid = some ts ∧ ts.smpStatus = 0 ∧ ts.smpBspIdleProc ≠ 0 := by
  unfold switchToAp at moving
  dsimp only at moving
  split at moving
  · rename_i ts found
    split at moving
    · rename_i ready
      cases moving
      exact ⟨rfl, ts, found, ready.1, ready.2⟩
    · rw [switchToApReturn_moving] at moving
      cases moving
  · rw [switchToApReturn_moving] at moving
    cases moving

theorem migrates_spec {cbs : Tcb} {cnt : Dword} (migrating : migrates ts cbs cnt = true) :
    ts.mode = smpModeAutorun ∧ ts.pagefault = 0 ∧ cbs.Migrates := by
  simp only [migrates, Bool.and_eq_true, decide_eq_true_eq] at migrating
  obtain ⟨⟨⟨⟨⟨⟨mode, -⟩, blocked⟩, pagefault⟩, low⟩, high⟩, -⟩ := migrating
  exact ⟨mode, pagefault, blocked, low, high⟩

/-- The extra save stores to no field that a test looks at. -/
theorem saveOld_tests {cbs : Tcb} {ts' : TsThread} (found : s.tsHt.get tid = some ts)
    (saved : (saveOld cfg s tid cbs).get tid = some ts') :
    ts'.mode = ts.mode ∧ ts'.pagefault = ts.pagefault := by
  have own : (ThreadEvent.switchedOut tid cbs s.fpu).tid = tid := rfl
  rw [saveOld_get, found, ThreadEvent.after_own _ own, ThreadEvent.update, Option.map_some] at saved
  cases saved
  split <;> exact ⟨rfl, rfl⟩

/-- A call that enters the loop of `switch_to_ap` has passed the tests. -/
theorem bspCall_pending {op : BspOp} {l : ToAp} (idle : s.bsp = .idle)
    (moving : (bspCall cfg s op).bsp.moving = some l) :
    ∃ ts, Pending (bspCall cfg s op) ((threadEvent s (.call op)).toList ++ h) l ts := by
  have idle_moving : s.bsp.moving = none := by
    rw [idle]
    rfl
  cases op with
  | threadInit tid page => cases idle_moving.symm.trans moving
  | threadDestroy tid =>
      unfold bspCall at moving
      dsimp only at moving
      split at moving
      · split at moving <;> cases moving
      · cases moving
  | smpElevate proc lockaddr mode => cases idle_moving.symm.trans moving
  | pageFault => cases idle_moving.symm.trans moving
  | int3 crs =>
      change (callbackInt3 cfg s crs).bsp.moving = some l at moving
      change ∃ ts, Pending (callbackInt3 cfg s crs) _ l ts
      unfold callbackInt3 at moving ⊢
      split at moving
      · obtain ⟨rfl, ts, found, onBsp, proc⟩ := switchToAp_moving moving
        exact ⟨ts, found, onBsp, proc, fun _ _ other => by cases other⟩
      · unfold switchToBsp at moving
        dsimp only at moving
        split at moving
        · split at moving <;> cases moving
        · cases moving
      · cases idle_moving.symm.trans moving
  | threadSwitch curTid oldTid cbsNew cbsOld =>
      change (threadSwitch cfg s curTid oldTid cbsNew cbsOld).bsp.moving = some l at moving
      change ∃ ts, Pending (threadSwitch cfg s curTid oldTid cbsNew cbsOld) _ l ts
      unfold threadSwitch at moving ⊢
      cases found : s.tsHt.get oldTid with
      | none =>
          rw [found] at moving
          cases moving
      | some ts =>
          rw [found] at moving
          dsimp only at moving ⊢
          split at moving
          · rename_i migrating
            rw [if_pos migrating]
            obtain ⟨rfl, ts', saved, onBsp, proc⟩ := switchToAp_moving moving
            obtain ⟨mode, pagefault, eligible⟩ := migrates_spec migrating
            obtain ⟨sameMode, samePagefault⟩ := saveOld_tests found saved
            refine ⟨ts', saved, onBsp, proc, fun _ _ _ => ⟨sameMode.trans mode, samePagefault.trans pagefault, ?_⟩⟩
            exact ⟨cbsOld, rfl, eligible, rfl⟩
          · cases moving

theorem Pending.congr {l l' : ToAp} {h' : List ThreadEvent} (pending : Pending s h l ts)
    (same : l.Same l') (table : t.tsHt = s.tsHt) (switches : lastSwitch h' = lastSwitch h) :
    Pending t h' l' ts where
  found := by rw [table, same.threadId, pending.found]
  onBsp := pending.onBsp
  proc := pending.proc
  switched curTid cbsNew caller := by
    rw [same.caller] at caller
    obtain ⟨mode, pagefault, cbs, latest, eligible, crs⟩ := pending.switched curTid cbsNew caller
    exact ⟨mode, pagefault, cbs, by rw [switches, same.threadId, latest], eligible, same.crs.trans crs⟩

/-- Until the move, the tests hold on. -/
theorem Step.pending {l : ToAp} (step : Step cfg s a t)
    (pending : ∀ l, s.bsp.moving = some l → ∃ ts, Pending s h l ts) (moving : t.bsp.moving = some l) :
    ∃ ts, Pending t ((threadEvent s a).toList ++ h) l ts := by
  have stays (bsp : t.bsp = s.bsp) (table : t.tsHt = s.tsHt)
      (switches : lastSwitch ((threadEvent s a).toList ++ h) = lastSwitch h) :
      ∃ ts, Pending t ((threadEvent s a).toList ++ h) l ts := by
    rw [bsp] at moving
    obtain ⟨ts, before⟩ := pending l moving
    exact ⟨ts, before.congr (.refl l) table switches⟩
  cases a with
  | call op =>
      obtain ⟨idle, rfl⟩ := step_call step
      exact bspCall_pending idle moving
  | bsp =>
      obtain ⟨⟨l', before, same⟩, none, table⟩ := (bspStep_outcome step).moving moving
      obtain ⟨ts, pending⟩ := pending l' before
      exact ⟨ts, pending.congr same table (by rw [none]; rfl)⟩
  | ap i now msClock =>
      cases step.outcome with
      | ap _ _ _ _ present h => exact stays h.frame.bsp h.frame.tsHt rfl
  | nmi i =>
      cases step.outcome with
      | nmi _ _ present h => exact stays h.frame.bsp h.frame.tsHt rfl
  | trap i trap u x =>
      cases step.outcome with
      | trap _ _ _ _ tid present pc => exact stays rfl rfl rfl
  | compute x =>
      cases step.outcome with
      | compute _ idle => exact stays rfl rfl rfl
  | rebuildPd pageDir =>
      cases step.outcome with
      | rebuildPd _ idle => exact stays rfl rfl rfl

/-- The thread may migrate: it has elevated itself since its record was created, and the
latest time with a placeholder procedure. A move by `thread_switch` needs more. -/
structure Eligible (s : Sys) (h : List ThreadEvent) (l : ToAp) : Prop where
  record : ∃ ts, s.tsHt.get l.threadId = some ts ∧ ts.smpStatus = 0
  created : ∃ e ∈ h, e.isCreated l.threadId = true
  elevated : ∃ proc mode, lastElevation l.threadId (life l.threadId h) = some (proc, mode) ∧
    mode ≠ smpModeSystem ∧ proc ≠ 0
  switched : ∀ curTid cbsNew, l.caller = .threadSwitch curTid cbsNew →
    (∃ proc, lastElevation l.threadId (life l.threadId h) = some (proc, smpModeAutorun)) ∧
    (∃ cbs : Tcb, lastSwitch h = some (l.threadId, cbs) ∧ cbs.Migrates ∧ l.crs = cbs.tcbClientPtr) ∧
    faulted l.threadId (life l.threadId h) = false

theorem elevatedTo_proc {elevation : Option (Dword × Dword)} {m p : Dword}
    (h : (m, p) = elevatedTo elevation) (ne : p ≠ 0) :
    ∃ proc, elevation = some (proc, m) ∧ m ≠ smpModeSystem ∧ proc ≠ 0 := by
  cases elevation with
  | none => exact absurd (congrArg Prod.snd h) ne
  | some call =>
      obtain ⟨proc, mode⟩ := call
      have mode_eq : m = mode := congrArg Prod.fst h
      have proc_eq : p = if mode ≠ smpModeSystem then proc else 0 := congrArg Prod.snd h
      subst mode_eq
      split at proc_eq
      · rename_i elevates
        exact ⟨proc, rfl, elevates, proc_eq ▸ ne⟩
      · exact absurd proc_eq ne

theorem Pending.eligible {l : ToAp} (pending : Pending s h l ts)
    (recorded : s.tsHt.get l.threadId = recordOf cfg l.threadId h) : Eligible s h l := by
  have found : recordOf cfg l.threadId h = some ts := recorded.symm.trans pending.found
  obtain ⟨proc, elevation, elevates, ne⟩ := elevatedTo_proc (recordOf_elevation found) pending.proc
  refine ⟨⟨ts, pending.found, pending.onBsp⟩, ?_, ⟨proc, ts.mode, elevation, elevates, ne⟩, ?_⟩
  · exact (recordOf_life (P := fun _ _ => True) (fun _ => trivial) (fun _ _ _ _ _ _ _ _ => trivial)
      (fun _ _ _ _ _ => trivial) found).1
  · intro curTid cbsNew caller
    obtain ⟨mode, pagefault, switched⟩ := pending.switched curTid cbsNew caller
    rw [mode] at elevation
    exact ⟨⟨proc, elevation⟩, switched, recordOf_pagefault found pagefault⟩

/-- Only eligible threads migrate: whatever happened before, the thread that
`switch_to_ap` is about to move is one that may. -/
theorem migration_eligible {as : List Action} {l : ToAp} {v : Status}
    (run : Run (Transition.record (Step cfg) threadEvent) (initialised cfg, []) as (s, h))
    (move : s.bsp = .apStore l v) : Eligible s h l := by
  have pending : ∀ l, s.bsp.moving = some l → ∃ ts, Pending s h l ts :=
    run.invariant (P := fun p => ∀ l, p.1.bsp.moving = some l → ∃ ts, Pending p.1 p.2 l ts)
      (fun p a q before step l moving => by
        rw [step.2]
        exact step.1.pending before moving)
      (fun l moving => by cases moving)
  obtain ⟨ts, pending⟩ := pending l (by rw [move]; rfl)
  exact pending.eligible (record_eq_recordOf run l.threadId)

/-- A control block of a thread that waits for nothing, in its own code. -/
def runnable : Tcb := ⟨0, { Crs.zero with clientEip := 0x00401000 }⟩

/-- Thread 5 is switched out after it has asked for automatic migration. -/
def autorun : List Action :=
  elevation 5 0x500 0x9000 2 ++ .call (.threadSwitch 7 5 runnable runnable) :: List.replicate 4 .bsp

theorem migration_eligible_autorun : ∃ as s h l v,
    Run (Transition.record (Step oneAp) threadEvent) (initialised oneAp, []) as (s, h) ∧
    s.bsp = .apStore l v ∧ l.threadId = 5 ∧ faulted 5 (life 5 h) = false := by
  have computed : (exec (step oneAp) (initialised oneAp) autorun).any
      (fun s => match s.bsp with
        | .apStore l _ => l.threadId = 5 && match l.caller with
            | .threadSwitch curTid _ => curTid = 7
            | _ => false
        | _ => false) = true := by decide +kernel
  obtain ⟨s, run, checked⟩ := exists_run computed
  split at checked
  · rename_i l v move
    simp only [Bool.and_eq_true, decide_eq_true_eq] at checked
    obtain ⟨own, switching⟩ := checked
    split at switching
    · rename_i curTid cbsNew caller
      obtain ⟨h, recorded⟩ := run.record threadEvent []
      have eligible := migration_eligible recorded move
      have clear := (eligible.switched curTid cbsNew caller).2.2
      rw [own] at clear
      exact ⟨_, s, h, l, v, recorded, move, own, clear⟩
    · cases switching
  · cases checked

/-- The record of the current thread is destroyed after a page fault. The new record of
the same thread knows nothing of the fault, and the thread migrates before it is
switched in again. -/
theorem migration_after_fault : ∃ as s h l v curTid cbsNew,
    Run (Transition.record (Step oneAp) threadEvent) (initialised oneAp, []) as (s, h) ∧
    s.bsp = .apStore l v ∧ l.caller = .threadSwitch curTid cbsNew ∧
    faulted l.threadId h = true := by
  have computed : (exec (fun q a => (guard (step oneAp) (fun _ _ => true) q.1 a).map fun t =>
      (t, (threadEvent q.1 a).toList ++ q.2)) (initialised oneAp, [])
      (elevation 5 0x500 0x9000 2 ++
        [.call .pageFault, .call (.threadDestroy 5), .bsp, .call (.threadInit 5 (some 0x2000)),
          .call (.smpElevate 0x500 0x9000 2)] ++
        .call (.threadSwitch 7 5 runnable runnable) :: List.replicate 4 .bsp)).any
      (fun q => match q.1.bsp with
        | .apStore l _ => faulted l.threadId q.2 && match l.caller with
            | .threadSwitch _ _ => true
            | _ => false
        | _ => false) = true := by decide +kernel
  obtain ⟨⟨s, h⟩, run, checked⟩ := exists_run_record computed
  have run : Run (Transition.record (Step oneAp) threadEvent) (initialised oneAp, []) _ (s, h) :=
    run.mono fun p a q step => ⟨step.1.2, step.2⟩
  dsimp only at checked
  split at checked
  · rename_i l v move
    simp only [Bool.and_eq_true] at checked
    obtain ⟨fault, switching⟩ := checked
    split at switching
    · exact ⟨_, s, h, l, v, _, _, run, move, ‹_›, fault⟩
    · cases switching
  · cases checked

end SmpVxd
