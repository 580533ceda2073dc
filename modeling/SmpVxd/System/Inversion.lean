import SmpVxd.System.Step

/-!
# What a step can do

One inductive relation for each kind of action lists its outcomes with the guards
that lead to them and the state that results. `Step.outcome` says that every step
has such an outcome, so no later proof unfolds the step functions. Statements of
the BSP that only branch are collected in `BspGoto`, and the three places where it
takes a status word, and gives one back, in `LockAt` and `UnlockAt`.
-/

namespace SmpVxd

variable (cfg : Config)

/-- The cases of `smp_ap_main` that only choose the value to be written back. -/
inductive ApBranch : Status → Status → Bool → Prop where
  | stay (v) : v ≠ .loaded → v ≠ .running → v ≠ .dircard → ApBranch v v false
  | sleep : ApBranch .ready .sleep false
  | load : ApBranch .loaded .running true

/-- The outcomes of a statement of AP `i`. -/
inductive ApStep (i : Nat) (s : Sys) : Sys → Prop where
  | kernelBoot : (s.ap i).pc = .kernelBoot →
      ApStep i s (s.setAp i { s.ap i with status := .ready, pc := .atomicLock })
  | spin : (s.ap i).pc = .atomicLock → (s.ap i).status = .busy → ApStep i s s
  | lock : (s.ap i).pc = .atomicLock → (s.ap i).status ≠ .busy →
      ApStep i s (s.setAp i { s.ap i with status := .busy, pc := .switch (s.ap i).status })
  | branch (v w rc now) : (s.ap i).pc = .switch v → ApBranch v w rc →
      ApStep i s (s.setAp i { s.ap i with lastActive := now, pc := .atomicUnlock w rc })
  | notify (ts) : (s.ap i).pc = .switch .running → s.tsHt.get (s.ap i).threadId = some ts →
      ts.smpBspIdleLock ≠ 0 →
      ApStep i s (s.setAp i { s.ap i with pc := .clearIdleLock ts.smpBspIdleLock })
  | silent : (s.ap i).pc = .switch .running →
      (∀ ts, s.tsHt.get (s.ap i).threadId = some ts → ts.smpBspIdleLock = 0) →
      ApStep i s (s.setAp i { s.ap i with pc := .atomicUnlock .cargo false })
  | discard (now) : (s.ap i).pc = .switch .dircard →
      ApStep i s (s.setAp i { s.ap i with lastActive := now, pc := .incLoad })
  | clearIdleLock (lock) : (s.ap i).pc = .clearIdleLock lock →
      ApStep i s { s.setAp i { s.ap i with pc := .atomicUnlock .cargo false } with
        mem := Function.update s.mem lock 0 }
  | incLoad : (s.ap i).pc = .incLoad →
      ApStep i s (s.setAp i { s.ap i with pc := .incStore s.apFreeCnt })
  | incStore (cnt) : (s.ap i).pc = .incStore cnt →
      ApStep i s { s.setAp i { s.ap i with pc := .atomicUnlock .ready false } with
        apFreeCnt := cnt + 1 }
  | unlock (v rc) : (s.ap i).pc = .atomicUnlock v rc →
      ApStep i s (s.setAp i { s.ap i with
        status := v, pc := if v = .sleep then .sti else if rc then .switchtask else .atomicLock })
  | sti : (s.ap i).pc = .sti → ApStep i s (s.setAp i { s.ap i with pc := .hlt })
  | hlt : (s.ap i).pc = .hlt → ApStep i s (s.setAp i { s.ap i with pc := .halted })
  | switchtask (fpu) : (s.ap i).pc = .switchtask →
      ApStep i s (s.setAp i { s.ap i with fpu := fpu, pc := .ring3 (s.ap i).threadId })

/-- The outcomes of the delivery of a wake-up interrupt. -/
inductive NmiStep (i : Nat) (s : Sys) : Sys → Prop where
  | wake : (s.ap i).nmi ≠ 0 → (s.ap i).pc = .halted →
      NmiStep i s (s.setAp i { s.ap i with nmi := (s.ap i).nmi - 1, pc := .atomicLock })
  | dummy : (s.ap i).nmi ≠ 0 → (s.ap i).pc ≠ .halted →
      NmiStep i s (s.setAp i { s.ap i with nmi := (s.ap i).nmi - 1 })

/-- Statements of the BSP that change nothing but its program point. -/
inductive BspGoto (s : Sys) : Bsp → Bsp → Prop where
  | booted (i) : cfg.ttableMax < i → BspGoto s (.smpInitBsp i) .idle
  | empty (i) : cfg.present i = false → BspGoto s (.smpInitBsp i) (.smpInitBsp (i + 1))
  | ready (i) : cfg.present i = true → (s.ap i).status ≠ .busy →
      BspGoto s (.smpInitBsp i) (.smpInitBsp (i + 1))
  | noAp (l) : cfg.ttableMax < l.cpu → BspGoto s (.apLoop l) (switchToApReturn l false)
  | tryAp (l) : cfg.present l.cpu = true → BspGoto s (.apLoop l) (.apLock l)
  | nextAp (l) : cfg.present l.cpu = false →
      BspGoto s (.apLoop l) (.apLoop { l with cpu := l.cpu + 1 })
  | noLock (l v ts) : v.free = true → s.tsHt.get l.threadId = some ts → ts.smpBspIdleLock = 0 →
      BspGoto s (.apSwitch l v) (.apStore l v)
  | notFree (l v) : v.free = false → BspGoto s (.apSwitch l v) (.apWakeup l v)
  | noWakeup (l v) : l.wakeup = false → BspGoto s (.apWakeup l v) (.apUnlock l v)
  | decLoad (l) : BspGoto s (.decLoad l) (.decStore l s.apFreeCnt)
  | notCargo (l v) : v ≠ .cargo → BspGoto s (.bspTest l v) (.bspUnlock l v false)
  | incLoad (l) : BspGoto s (.incLoad l) (.incStore l s.apFreeCnt)
  | restored (crs rc) : BspGoto s (.restoreClient crs rc) .idle

/-- Where the BSP takes the word of a slot, and how it goes on. -/
inductive LockAt : Bsp → Nat → (Status → Bsp) → Prop where
  | destroy (tid cpu) : LockAt (.destroyLock tid cpu) cpu (.destroyDiscard tid cpu)
  | toAp (l) : LockAt (.apLock l) l.cpu (.apSwitch l)
  | toBsp (l) : LockAt (.bspLock l) l.cpu (.bspTest l)

/-- Where the BSP gives a word back, and how it goes on. -/
inductive UnlockAt : Bsp → Nat → Status → Bsp → Prop where
  | destroy (tid cpu v) : UnlockAt (.destroyUnlock tid cpu v) cpu v (.destroyFree tid)
  | handedOff (l v) : l.found = true → UnlockAt (.apUnlock l v) l.cpu v (.decLoad l)
  | nextAp (l v) : l.found = false →
      UnlockAt (.apUnlock l v) l.cpu v (.apLoop { l with cpu := l.cpu + 1 })
  | toBsp (l v rc) : UnlockAt (.bspUnlock l v rc) l.cpu v (.restoreClient l.crs rc)

/-- The outcomes of a statement of the BSP. -/
inductive BspStep (s : Sys) : Sys → Prop where
  | goto (b) : BspGoto cfg s s.bsp b → BspStep s { s with bsp := b }
  | startAp (i) : s.bsp = .smpInitBsp i → cfg.present i = true → (s.ap i).pc = .off →
      BspStep s (s.setAp i { s.ap i with pc := .kernelBoot })
  | awaitAp (i) : s.bsp = .smpInitBsp i → BspStep s s
  | spin (cpu next) : LockAt s.bsp cpu next → (s.ap cpu).status = .busy → BspStep s s
  | lock (cpu next) : LockAt s.bsp cpu next → (s.ap cpu).status ≠ .busy →
      BspStep s { s.setAp cpu { s.ap cpu with status := .busy } with bsp := next (s.ap cpu).status }
  | unlock (cpu v b) : UnlockAt s.bsp cpu v b →
      BspStep s { s.setAp cpu { s.ap cpu with status := v } with bsp := b }
  | discard (tid cpu v) : s.bsp = .destroyDiscard tid cpu v →
      BspStep s { s with bsp := .destroyUnlock tid cpu .dircard }
  | free (tid) : s.bsp = .destroyFree tid →
      BspStep s { s with tsHt := s.tsHt.destroy tid, bsp := .idle }
  | setIdleLock (l v ts) : s.bsp = .apSwitch l v → v.free = true →
      s.tsHt.get l.threadId = some ts → ts.smpBspIdleLock ≠ 0 →
      BspStep s { s with mem := Function.update s.mem ts.smpBspIdleLock 1, bsp := .apStore l v }
  | handOff (l v ts) : s.bsp = .apStore l v → s.tsHt.get l.threadId = some ts →
      BspStep s (handOff cfg s l v ts)
  | wakeup (l v) : s.bsp = .apWakeup l v → l.wakeup = true →
      BspStep s { s.setAp l.cpu { s.ap l.cpu with nmi := (s.ap l.cpu).nmi + 1 } with
        bsp := .apUnlock l v }
  | decStore (l cnt) : s.bsp = .decStore l cnt →
      BspStep s { s with apFreeCnt := cnt - 1, bsp := switchToApReturn l true }
  | takeBack (l) : s.bsp = .bspTest l .cargo → BspStep s (takeBack cfg s l)
  | incStore (l cnt) : s.bsp = .incStore l cnt →
      BspStep s { s with apFreeCnt := cnt + 1, bsp := .bspUnlock l .ready true }
  | switchIn (curTid cbsNew) : s.bsp = .switchIn curTid cbsNew →
      BspStep s (switchIn cfg s curTid cbsNew)

/-- Where a driver operation starts. -/
inductive BspEntry (s : Sys) : BspOp → Bsp → Prop where
  | destroyHosted (tid ts) : s.tsHt.get tid = some ts → ts.smpStatus ≠ 0 →
      BspEntry s (.threadDestroy tid) (.destroyLock tid ts.smpApid)
  | destroyOther (tid) : (∀ ts, s.tsHt.get tid = some ts → ts.smpStatus = 0) →
      BspEntry s (.threadDestroy tid) (.destroyFree tid)
  | migrate (curTid oldTid cbsNew cbsOld ts) : s.tsHt.get oldTid = some ts →
      migrates ts cbsOld s.apFreeCnt = true → ts.smpStatus = 0 → ts.smpBspIdleProc ≠ 0 →
      BspEntry s (.threadSwitch curTid oldTid cbsNew cbsOld)
        (.apLoop ⟨.threadSwitch curTid cbsNew, oldTid, cbsOld.tcbClientPtr, 0, false, false⟩)
  | stayOnBsp (curTid oldTid cbsNew cbsOld) :
      BspEntry s (.threadSwitch curTid oldTid cbsNew cbsOld) (.switchIn curTid cbsNew)
  | fly (crs ts) : int3Target cfg.kernelFlat crs.clientEip = .fly →
      s.tsHt.get s.actTid = some ts → ts.smpStatus = 0 → ts.smpBspIdleProc ≠ 0 →
      BspEntry s (.int3 crs) (.apLoop ⟨.int3, s.actTid, crs, 0, false, false⟩)
  | flyRefused (crs) : int3Target cfg.kernelFlat crs.clientEip = .fly →
      BspEntry s (.int3 crs) (.restoreClient crs false)
  | reattach (crs ts) : int3Target cfg.kernelFlat crs.clientEip = .reattach →
      s.tsHt.get s.actTid = some ts → ts.smpStatus ≠ 0 →
      BspEntry s (.int3 crs) (.bspLock ⟨s.actTid, crs, ts.smpApid⟩)
  | reattachRefused (crs) : int3Target cfg.kernelFlat crs.clientEip = .reattach →
      (∀ ts, s.tsHt.get s.actTid = some ts → ts.smpStatus = 0) →
      BspEntry s (.int3 crs) (.restoreClient crs false)
  | otherInt3 (crs) : int3Target cfg.kernelFlat crs.clientEip = .next →
      BspEntry s (.int3 crs) .idle
  | pageFault : BspEntry s .pageFault .idle

/-- The outcomes of starting an operation. -/
inductive CallStep (s : Sys) : BspOp → Sys → Prop where
  | create (tid page) : CallStep s (.threadInit tid page) { s with tsHt := s.tsHt.create page tid }
  | elevate (proc lockaddr mode) :
      CallStep s (.smpElevate proc lockaddr mode) (smpElevate s proc lockaddr mode)
  | enter (op b ht) : BspEntry cfg s op b → s.tsHt.SameCore ht →
      CallStep s op { s with tsHt := ht, bsp := b }

/-- The outcomes of an action. -/
inductive Outcome (s : Sys) : Action → Sys → Prop where
  | call (op t) : s.bsp = .idle → CallStep cfg s op t → Outcome s (.call op) t
  | bsp (t) : bspStep cfg s = some t → Outcome s .bsp t
  | ap (i now msClock t) : cfg.present i = true → ApStep i s t → Outcome s (.ap i now msClock) t
  | nmi (i t) : cfg.present i = true → NmiStep i s t → Outcome s (.nmi i) t
  | trap (i trap u x tid) : cfg.present i = true → (s.ap i).pc = .ring3 tid →
      Outcome s (.trap i trap u x)
        (s.setAp i ((s.ap i).switchBack cfg trap u (trapSp cfg i) x))
  | compute (x) : s.bsp = .idle → Outcome s (.compute x) { s with fpu := x }
  | rebuildPd (pageDir) : s.bsp = .idle → Outcome s (.rebuildPd pageDir) { s with pageDir := pageDir }

variable {cfg} {s t : Sys} {i : Nat}

theorem apStep_outcome {now : BitVec 64} {msClock : Dword}
    (h : apStep cfg s i now msClock = some t) : ApStep i s t := by
  simp only [apStep] at h
  generalize pc : (s.ap i).pc = p at h
  split at h
  · cases h
  · cases h
    exact .kernelBoot pc
  · split at h
    · cases h
      exact .spin pc ‹_›
    · cases h
      exact .lock pc ‹_›
  · cases h
    refine .branch .ready _ false (s.ap i).lastActive pc ?_
    split
    · exact .sleep
    · exact .stay _ (by decide) (by decide) (by decide)
  · cases h
    exact .branch _ _ true (s.ap i).lastActive pc .load
  · split at h
    · rename_i ts found
      split at h
      · cases h
        exact .notify ts pc found ‹_›
      · rename_i null
        cases h
        exact .silent pc fun ts' found' => by
          rw [found] at found'
          cases found'
          exact not_not.mp null
    · rename_i absent
      cases h
      exact .silent pc fun ts found => by
        rw [absent] at found
        cases found
  · cases h
    exact .branch _ _ false now pc (.stay _ (by decide) (by decide) (by decide))
  · cases h
    exact .discard now pc
  · rename_i v _ loaded running _ dircard
    cases h
    exact .branch v v false (s.ap i).lastActive pc (.stay v loaded running dircard)
  · cases h
    exact .clearIdleLock _ pc
  · cases h
    exact .incLoad pc
  · cases h
    exact .incStore _ pc
  · cases h
    exact .unlock _ _ pc
  · cases h
    exact .sti pc
  · cases h
    exact .hlt pc
  · cases h
  · cases h
    exact .switchtask _ pc
  · cases h

theorem nmiStep_outcome (h : nmiStep s i = some t) : NmiStep i s t := by
  simp only [nmiStep] at h
  split at h
  · cases h
  · split at h
    · cases h
      exact .wake ‹_› ‹_›
    · cases h
      exact .dummy ‹_› ‹_›

theorem bspLock_outcome {cpu : Nat} {next : Status → Bsp} (at_ : LockAt s.bsp cpu next) :
    BspStep cfg s (bspLock s cpu next) := by
  simp only [bspLock]
  split
  · exact .spin cpu next at_ ‹_›
  · exact .lock cpu next at_ ‹_›

theorem bspStep_outcome (h : bspStep cfg s = some t) : BspStep cfg s t := by
  unfold bspStep at h
  split at h
  · cases h
  · rename_i i pc
    split at h
    · cases h
      exact .goto _ (pc ▸ .booted i ‹_›)
    · split at h
      · cases h
        exact .goto _ (pc ▸ .empty i ‹_›)
      · have present : cfg.present i = true := by simpa using ‹¬cfg.present i = false›
        split at h
        · cases h
          exact .startAp i pc present ‹_›
        · split at h
          · cases h
            exact .awaitAp i pc
          · cases h
            exact .goto _ (pc ▸ .ready i present ‹_›)
  · rename_i tid cpu pc
    cases h
    exact bspLock_outcome (pc ▸ .destroy tid cpu)
  · cases h
    exact .discard _ _ _ ‹_›
  · rename_i tid cpu v pc
    cases h
    exact .unlock cpu v _ (pc ▸ .destroy tid cpu v)
  · cases h
    exact .free _ ‹_›
  · rename_i l pc
    split at h
    · cases h
      exact .goto _ (pc ▸ .noAp l ‹_›)
    · split at h
      · cases h
        exact .goto _ (pc ▸ .tryAp l ‹_›)
      · cases h
        exact .goto _ (pc ▸ .nextAp l (by simpa using ‹¬cfg.present l.cpu = true›))
  · rename_i l pc
    cases h
    exact bspLock_outcome (pc ▸ .toAp l)
  · rename_i l v pc
    split at h
    · split at h
      · rename_i ts found
        split at h
        · cases h
          exact .setIdleLock l v ts pc ‹_› found ‹_›
        · cases h
          exact .goto _ (pc ▸ .noLock l v ts ‹_› found (not_not.mp ‹_›))
      · cases h
    · cases h
      exact .goto _ (pc ▸ .notFree l v (by simpa using ‹¬v.free = true›))
  · rename_i l v pc
    split at h
    · cases h
      exact .handOff l v _ pc ‹_›
    · cases h
  · rename_i l v pc
    split at h
    · cases h
      exact .wakeup l v pc ‹_›
    · cases h
      exact .goto _ (pc ▸ .noWakeup l v (by simpa using ‹¬l.wakeup = true›))
  · rename_i l v pc
    cases h
    refine .unlock l.cpu v _ ?_
    rw [pc]
    split
    · exact .handedOff l v ‹_›
    · exact .nextAp l v (by simpa using ‹¬l.found = true›)
  · rename_i l pc
    cases h
    exact .goto _ (pc ▸ .decLoad l)
  · cases h
    exact .decStore _ _ ‹_›
  · rename_i l pc
    cases h
    exact bspLock_outcome (pc ▸ .toBsp l)
  · rename_i l v pc
    split at h
    · rename_i cargo
      subst cargo
      cases h
      exact .takeBack l pc
    · cases h
      exact .goto _ (pc ▸ .notCargo l v ‹_›)
  · rename_i l pc
    cases h
    exact .goto _ (pc ▸ .incLoad l)
  · cases h
    exact .incStore _ _ ‹_›
  · rename_i l v rc pc
    cases h
    exact .unlock l.cpu v _ (pc ▸ .toBsp l v rc)
  · cases h
    exact .switchIn _ _ ‹_›
  · cases h
    exact .goto _ (‹s.bsp = _› ▸ .restored _ _)

theorem saveOld_core (oldTid : Dword) (cbs : Tcb) : s.tsHt.SameCore (saveOld cfg s oldTid cbs) := by
  simp only [saveOld]
  split
  · exact .modify _ (fun _ => by rfl) fun _ => rfl
  · exact .refl _

theorem migrates_smpStatus {ts : TsThread} {cbs : Tcb} {cnt : Dword}
    (h : migrates ts cbs cnt = true) : ts.smpStatus = 0 := by
  simp only [migrates, Bool.and_eq_true, decide_eq_true_eq] at h
  exact h.1.1.1.1.1.2

theorem threadSwitch_outcome {curTid oldTid : Dword} {cbsNew cbsOld : Tcb} :
    CallStep cfg s (.threadSwitch curTid oldTid cbsNew cbsOld)
      (threadSwitch cfg s curTid oldTid cbsNew cbsOld) := by
  simp only [threadSwitch]
  split
  · exact .enter _ _ s.tsHt (.stayOnBsp _ _ _ _) (.refl _)
  · rename_i ts found
    split
    · rename_i migrating
      have same : s.tsHt.SameCore (saveOld cfg s oldTid cbsOld) := saveOld_core oldTid cbsOld
      obtain ⟨ts', found', core⟩ := same.get found
      simp only [switchToAp, found']
      split
      · rename_i ready
        have proc : ts'.core.smpBspIdleProc = ts.core.smpBspIdleProc :=
          congrArg TsThread.smpBspIdleProc core
        exact .enter _ _ _ (.migrate _ _ _ _ ts found migrating (migrates_smpStatus migrating)
          (proc ▸ ready.2)) same
      · exact .enter _ _ _ (.stayOnBsp _ _ _ _) (saveOld_core oldTid cbsOld)
    · exact .enter _ _ _ (.stayOnBsp _ _ _ _) (saveOld_core oldTid cbsOld)

theorem callbackInt3_tsHt (crs : Crs) : (callbackInt3 cfg s crs).tsHt = s.tsHt := by
  unfold callbackInt3
  split <;> rfl

theorem int3_outcome {crs : Crs} (idle : s.bsp = .idle) :
    CallStep cfg s (.int3 crs) (callbackInt3 cfg s crs) := by
  unfold callbackInt3
  cases target : int3Target cfg.kernelFlat crs.clientEip with
  | fly =>
      refine .enter _ _ s.tsHt ?_ (.refl _)
      simp only [switchToAp]
      split
      · rename_i ts found
        split
        · exact .fly crs ts target found (And.left ‹_›) (And.right ‹_›)
        · exact .flyRefused crs target
      · exact .flyRefused crs target
  | reattach =>
      refine .enter _ _ s.tsHt ?_ (.refl _)
      simp only [switchToBsp]
      split
      · rename_i ts found
        split
        · exact .reattach crs ts target found ‹_›
        · exact .reattachRefused crs target fun ts' found' => by
            cases found.symm.trans found'
            exact not_not.mp ‹_›
      · rename_i absent
        exact .reattachRefused crs target fun ts found => by cases absent.symm.trans found
  | next =>
      have same : CallStep cfg s (.int3 crs) { s with bsp := .idle } :=
        .enter _ _ s.tsHt (.otherInt3 crs target) (.refl _)
      rwa [← idle] at same

theorem bspCall_outcome {op : BspOp} (idle : s.bsp = .idle) :
    CallStep cfg s op (bspCall cfg s op) := by
  cases op with
  | threadInit tid page => exact .create tid page
  | threadDestroy tid =>
      unfold bspCall
      dsimp only
      split
      · rename_i ts found
        split
        · exact .enter _ _ s.tsHt (.destroyHosted tid ts found ‹_›) (.refl _)
        · exact .enter _ _ s.tsHt (.destroyOther tid fun ts' found' => by
            cases found.symm.trans found'
            exact not_not.mp ‹_›) (.refl _)
      · rename_i absent
        exact .enter _ _ s.tsHt
          (.destroyOther tid fun ts found => by cases absent.symm.trans found) (.refl _)
  | smpElevate proc lockaddr mode => exact .elevate proc lockaddr mode
  | threadSwitch curTid oldTid cbsNew cbsOld => exact threadSwitch_outcome
  | int3 crs => exact int3_outcome idle
  | pageFault =>
      have entered : CallStep cfg s .pageFault { s with
          tsHt := s.tsHt.modify s.actTid (fun ts => { ts with pagefault := 1 }) (fun _ => rfl)
          bsp := .idle } :=
        .enter _ _ _ .pageFault (.modify _ (fun _ => by rfl) fun _ => rfl)
      rwa [← idle] at entered

theorem trapStep_outcome {trap : Trap} {u : UserRegs} {x : ExtState}
    (h : trapStep cfg s i trap u x = some t) :
    ∃ tid, (s.ap i).pc = .ring3 tid ∧
      t = s.setAp i ((s.ap i).switchBack cfg trap u (trapSp cfg i) x) := by
  unfold trapStep at h
  split at h
  · rename_i tid pc
    cases h
    exact ⟨tid, pc, rfl⟩
  · cases h

/-- Every step of the machine is one of the outcomes. -/
theorem Step.outcome {a : Action} (h : Step cfg s a t) : Outcome cfg s a t := by
  change step cfg s a = some t at h
  cases a with
  | call op =>
      simp only [step] at h
      split at h
      · rename_i idle
        cases h
        exact .call op _ idle (bspCall_outcome idle)
      · cases h
  | bsp => exact .bsp t h
  | ap i now msClock =>
      simp only [step, Option.ite_none_right_eq_some] at h
      exact .ap i now msClock t h.1 (apStep_outcome h.2)
  | nmi i =>
      simp only [step, Option.ite_none_right_eq_some] at h
      exact .nmi i t h.1 (nmiStep_outcome h.2)
  | trap i trap u x =>
      simp only [step, Option.ite_none_right_eq_some] at h
      obtain ⟨tid, pc, rfl⟩ := trapStep_outcome h.2
      exact .trap i trap u x tid h.1 pc
  | compute x =>
      simp only [step] at h
      split at h
      · cases h
        exact .compute x ‹_›
      · cases h
  | rebuildPd pageDir =>
      simp only [step] at h
      split at h
      · cases h
        exact .rebuildPd pageDir ‹_›
      · cases h

/-! ### The statements under the lock, by their program point -/

theorem bspStep_apStore {l : ToAp} {v : Status} (pc : s.bsp = .apStore l v)
    (h : bspStep cfg s = some t) :
    ∃ ts, s.tsHt.get l.threadId = some ts ∧ t = handOff cfg s l v ts := by
  simp only [bspStep, pc] at h
  split at h
  · cases h
    exact ⟨_, ‹_›, rfl⟩
  · cases h

theorem bspStep_bspTest {l : ToBsp} (pc : s.bsp = .bspTest l .cargo)
    (h : bspStep cfg s = some t) : t = takeBack cfg s l := by
  simp only [bspStep, pc] at h
  cases h
  rfl

end SmpVxd
