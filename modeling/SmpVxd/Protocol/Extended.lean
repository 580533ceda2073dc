import SmpVxd.Protocol.Eligible
import SmpVxd.Protocol.Reattach

/-!
# The extended state of a thread

`thread_switch` keeps the extended state of a thread in its record, and the migrations
keep it in the data page of the AP. The record says what was live when the thread was
switched out for the last time; the data page says what was live at the hand-off, or,
once the thread has come back from ring 3, what the AP saved then.
-/

namespace SmpVxd

open Transition

/-- What `thread_switch` restores. -/
def Config.restoreSet (cfg : Config) : SaveMethod :=
  fpuSaveMethod cfg.xsaveFlags cfg.noSysFxsave true true

/-- What a migration carries over. -/
def Config.migrationSet (cfg : Config) : SaveMethod := apSaveMethod cfg.xsaveFlags

theorem Config.restoreSet_covers {cfg : Config} {c : Component}
    (covered : cfg.restoreSet.covers c = true) : cfg.migrationSet.covers c = true :=
  fpuSaveMethod_restore_covers c covered

/-- The thread of the control block runs in ring 3. -/
def Tcb.ring3 (cbs : Tcb) : Prop := cbs.tcbFlags &&& thflagRing0Thread = 0

instance (cbs : Tcb) : Decidable cbs.ring3 := inferInstanceAs (Decidable (_ = _))

/-- Which CPU has stored the context in the data page of an AP. -/
inductive StoredBy where
  | switchToAp
  | switchBack
  deriving DecidableEq

namespace ThreadEvent

/-- The control block and the extended state of a thread that is switched out. -/
def switchOut (tid : Dword) : ThreadEvent → Option (Tcb × ExtState)
  | .switchedOut tid' cbs live => if tid' = tid then some (cbs, live) else none
  | _ => none

/-- The thread and the extended state that are stored in the data page of AP `i`. -/
def context (i : Nat) : ThreadEvent → Option (Dword × StoredBy × ExtState)
  | .handedOff tid cpu live => if cpu = i then some (tid, .switchToAp, live) else none
  | .trapped tid cpu x => if cpu = i then some (tid, .switchBack, x) else none
  | _ => none

end ThreadEvent

/-- The latest switch-out of the thread. -/
def lastSwitchOut (tid : Dword) (h : List ThreadEvent) : Option (Tcb × ExtState) :=
  h.findSome? (·.switchOut tid)

/-- The latest store of an extended state in the data page of AP `i`. -/
def lastContext (i : Nat) (h : List ThreadEvent) : Option (Dword × StoredBy × ExtState) :=
  h.findSome? (·.context i)

variable {cfg : Config} {s t : Sys} {a : Action} {i : Nat} {tid : Dword} {ts : TsThread}
  {h : List ThreadEvent} {e : ThreadEvent}

/-! ### The record -/

/-- The record has the extended state of the latest switch-out. -/
def TsThread.Saved (cfg : Config) (ts : TsThread) (out : Option (Tcb × ExtState)) : Prop :=
  ∀ cbs live, out = some (cbs, live) → cbs.ring3 → ts.dirty = 0 ∧ cfg.migrationSet.Agrees ts.fpuState live

theorem ThreadEvent.switchOut_ne (other : e.tid ≠ tid) : e.switchOut tid = none := by
  cases e with
  | switchedOut tid' cbs live => exact if_neg other
  | _ => rfl

theorem ThreadEvent.update_saved {ts' : TsThread} (owner : e.tid = tid)
    (old : e.isCreated tid = false) (updated : e.update cfg (some ts) = some ts') :
    match e.switchOut tid with
    | none => ts'.dirty = ts.dirty ∧ ts'.fpuState = ts.fpuState
    | some out => ts'.Saved cfg (some out) := by
  cases e with
  | created tid' page => exact absurd owner (of_decide_eq_false old)
  | destroyed tid' => cases updated
  | elevated tid' proc lockaddr mode =>
      cases updated
      simp only [switchOut]
      split <;> exact ⟨rfl, rfl⟩
  | switchedOut tid' cbs live =>
      rw [switchOut, if_pos (show tid' = tid from owner)]
      rintro cbs' live' ⟨⟩ ring3
      have saves : fpuNeedExtraSave cfg.xsaveFlags cfg.noSysFxsave false = true ∧
          cbs.tcbFlags &&& thflagRing0Thread = 0 := ⟨fpuNeedExtraSave_save, ring3⟩
      cases updated
      simp only [if_pos saves]
      refine ⟨trivial, ?_⟩
      rw [fpuSave, fpuSaveMethod_save]
      exact SaveMethod.copy_agrees _ _ _
  | _ =>
      cases updated
      exact ⟨rfl, rfl⟩

theorem recordOf_saved (found : recordOf cfg tid h = some ts) :
    ts.Saved cfg (lastSwitchOut tid (life tid h)) := by
  refine (recordOf_life (P := fun ts h => ts.Saved cfg (lastSwitchOut tid h))
    (fun page _ _ none => by cases none) (fun e ts ts' h owner old updated held => ?_)
    (fun e ts h other held => ?_) found).2
  · have saved := ThreadEvent.update_saved owner old updated
    rw [lastSwitchOut, List.findSome?_cons]
    cases out : e.switchOut tid with
    | none =>
        rw [out] at saved
        intro cbs live latest ring3
        rw [saved.1, saved.2]
        exact held cbs live latest ring3
    | some out' =>
        rw [out] at saved
        exact saved
  · rw [lastSwitchOut, List.findSome?_cons, ThreadEvent.switchOut_ne other]
    exact held

/-- The end of `thread_switch` brings back what is in the record of a ring-3 thread. -/
theorem switchIn_restores {curTid : Dword} {cbsNew : Tcb} (found : s.tsHt.get curTid = some ts)
    (ring3 : cbsNew.ring3) (clean : ts.dirty = 0) :
    cfg.restoreSet.Agrees (switchIn cfg s curTid cbsNew).fpu ts.fpuState := by
  intro c covered
  have needed : fpuNeedExtraSave cfg.xsaveFlags cfg.noSysFxsave true = true := by
    rw [fpuNeedExtraSave, bne_iff_ne]
    intro nop
    rw [Config.restoreSet, nop] at covered
    cases covered
  unfold switchIn
  rw [found]
  dsimp only
  rw [if_pos ⟨needed, ring3, clean⟩]
  exact SaveMethod.copy_agrees cfg.restoreSet _ _ c covered

/-- The end of `thread_switch` brings back what was live when the thread was switched
out for the last time. -/
theorem switchIn_agrees {curTid : Dword} {cbsNew cbs : Tcb} {live : ExtState}
    (found : s.tsHt.get curTid = some ts) (ring3 : cbsNew.ring3)
    (saved : ts.Saved cfg (some (cbs, live))) (was : cbs.ring3) :
    cfg.restoreSet.Agrees (switchIn cfg s curTid cbsNew).fpu live := by
  obtain ⟨clean, agrees⟩ := saved cbs live rfl was
  exact (switchIn_restores found ring3 clean).trans (agrees.mono fun _ => Config.restoreSet_covers)

/-! ### The data page of an AP -/

/-- The AP is about to load a context, or has loaded it. -/
def ApPc.away : ApPc → Bool
  | .atomicUnlock _ rc => rc
  | .switchtask | .ring3 _ => true
  | _ => false

/-- The AP has a context that has not come back from ring 3. -/
def Sys.Outbound (s : Sys) (i : Nat) : Prop := s.value i = .loaded ∨ (s.ap i).pc.away = true

/-- The AP has a context that has come back from ring 3. -/
def Sys.Returned (s : Sys) (i : Nat) : Prop :=
  (s.value i = .running ∨ s.value i = .cargo) ∧ (s.ap i).pc.away = false

theorem ApStep.away (engaged : Engaged s i) (h : ApStep i s t) :
    (t.ap i).pc.away = true ↔ (s.ap i).pc.away = true ∨ (s.ap i).pc = .switch .loaded := by
  cases h with
  | branch v w rc now pc branch =>
      rw [pc]
      cases branch with
      | load => simp [ApPc.away]
      | sleep => simp [ApPc.away]
      | stay _ loaded _ _ => simp [ApPc.away, loaded]
  | unlock v rc pc =>
      rw [pc]
      simp only [Sys.setAp_self]
      cases rc with
      | false => split <;> simp [ApPc.away]
      | true =>
          have running := engaged.unlock v pc
          subst running
          simp [ApPc.away]
  | spin pc busy => simp [pc]
  | discard now pc => simp [pc, ApPc.away]
  | clearIdleLock lock pc => simp [Sys.setAp, pc, ApPc.away]
  | incStore cnt pc => simp [Sys.setAp, pc, ApPc.away]
  | notify ts pc found lock => simp [pc, ApPc.away]
  | silent pc absent => simp [pc, ApPc.away]
  | switchtask fpu pc => simp [pc, ApPc.away]
  | kernelBoot pc => simp [pc, ApPc.away]
  | lock pc free => simp [pc, ApPc.away]
  | incLoad pc => simp [pc, ApPc.away]
  | sti pc => simp [pc, ApPc.away]
  | hlt pc => simp [pc, ApPc.away]

/-- The thread and the extended state in the data page of AP `i` stay. -/
structure SameContext (s t : Sys) (i : Nat) : Prop where
  threadId : (t.ap i).threadId = (s.ap i).threadId
  fpuState : (t.ap i).fpuState = (s.ap i).fpuState

theorem SameContext.of_ap (same : t.ap i = s.ap i) : SameContext s t i := by
  constructor <;> rw [same]

/-- A context is stored by `switch_to_ap` and by `switch_back` only. -/
theorem Outcome.context (h : Outcome cfg s a t) (i : Nat) :
    SameContext s t i ∨ (∃ l v, a = .bsp ∧ s.bsp = .apStore l v ∧ l.cpu = i) ∨
      ∃ trap u x, a = .trap i trap u x := by
  cases h with
  | call op t idle call => exact .inl (.of_ap (by rw [call.ap]))
  | bsp t h =>
      obtain same | ⟨l, v, pc, cpu, -⟩ := (bspStep_outcome h).context i
      · exact .inl ⟨same.1, same.2.2⟩
      · exact .inr (.inl ⟨l, v, rfl, pc, cpu⟩)
  | ap j now msClock t present h =>
      by_cases same : i = j
      · subst same
        exact .inl ⟨h.frame.threadId, h.context.2⟩
      · exact .inl (.of_ap (h.frame.others i same))
  | nmi j t present h =>
      by_cases same : i = j
      · subst same
        cases h with
        | wake _ halted => exact .inl (by constructor <;> simp)
        | dummy _ _ => exact .inl (by constructor <;> simp)
      · exact .inl (.of_ap (h.frame.others i same))
  | trap j trap u x tid present pc =>
      by_cases same : i = j
      · exact .inr (.inr ⟨trap, u, x, by rw [same]⟩)
      · exact .inl (.of_ap (Sys.setAp_ne _ _ _ same))
  | compute x idle => exact .inl (.of_ap rfl)
  | rebuildPd pageDir idle => exact .inl (.of_ap rfl)

theorem ApMove.not_loaded {pc : ApPc} {v : Status} : ¬ ApMove pc v .loaded := by
  rintro ⟨⟩

theorem ApStep.outbound (locks : Locks s) (engaged : Engaged s i) (h : ApStep i s t)
    (out : t.Outbound i) : s.Outbound i := by
  obtain loaded | away := out
  · obtain same | move := h.value locks
    · exact .inl (same.symm.trans loaded)
    · rw [loaded] at move
      exact absurd move ApMove.not_loaded
  · obtain away | pc := (h.away engaged).mp away
    · exact .inr away
    · exact .inl (value_of_ap (by rw [pc]; rfl))

/-- Without a hand-off to AP `i`, the BSP may end the hosting of a thread there. -/
theorem BspStep.unstored (inv : Consistent cfg s) (h : BspStep cfg s t)
    (store : ¬∃ l v, s.bsp = .apStore l v ∧ l.cpu = i) :
    (t.value i = s.value i ∨ t.value i = .ready ∨ t.value i = .dircard) ∧ SameContext s t i := by
  refine ⟨(h.value inv.locks i).imp_right fun move => ?_, ?_⟩
  · generalize s.bsp = b at move store
    generalize t.value i = w at move ⊢
    generalize s.value i = v at move
    cases move with
    | handOff l v cpu => exact absurd ⟨l, v, rfl, cpu⟩ store
    | takeBack l cpu => exact .inl rfl
    | discard tid v => exact .inr rfl
  · obtain same | ⟨l, v, pc, cpu, -⟩ := h.context i
    · exact ⟨same.1, same.2.2⟩
    · exact absurd ⟨l, v, pc, cpu⟩ store

theorem Engaged.trap_inbound {trap : Trap} {u : UserRegs} {x : ExtState} (engaged : Engaged s i)
    (pc : (s.ap i).pc = .ring3 tid) :
    ¬(s.setAp i ((s.ap i).switchBack cfg trap u (trapSp cfg i) x)).Outbound i := by
  rintro (loaded | away)
  · rw [trap_value cfg pc trap u x] at loaded
    rcases engaged.value (by rw [pc]; rfl) with value | value <;> cases value.symm.trans loaded
  · simp [Ap.switchBack, ApPc.away] at away

/-- A context that is on its way to ring 3 was on its way before, or is the one that
`switch_to_ap` stores. -/
theorem Outcome.outbound (inv : Consistent cfg s) (engaged : Engaged s i) (h : Outcome cfg s a t)
    (out : t.Outbound i) :
    s.Outbound i ∧ SameContext s t i ∨ ∃ l v, a = .bsp ∧ s.bsp = .apStore l v ∧ l.cpu = i := by
  have stays (value : t.value i = s.value i) (ap : t.ap i = s.ap i) :
      s.Outbound i ∧ SameContext s t i := by
    refine ⟨?_, .of_ap ap⟩
    rw [Sys.Outbound, value, ap] at out
    exact out
  cases h with
  | call op t idle call => exact .inl (stays (call.value idle i) (by rw [call.ap]))
  | bsp t h =>
      by_cases store : ∃ l v, s.bsp = .apStore l v ∧ l.cpu = i
      · obtain ⟨l, v, pc, cpu⟩ := store
        exact .inr ⟨l, v, rfl, pc, cpu⟩
      · obtain ⟨value, same⟩ := (bspStep_outcome h).unstored inv store
        refine .inl ⟨?_, same⟩
        obtain loaded | away := out
        · obtain value | gone := value
          · exact .inl (value.symm.trans loaded)
          · rcases gone with gone | gone <;> cases gone.symm.trans loaded
        · obtain pc | ⟨-, boot⟩ := (bspStep_outcome h).pc i
          · exact .inr (pc ▸ away)
          · rw [boot] at away
            cases away
  | ap j now msClock t present h =>
      by_cases same : i = j
      · subst same
        exact .inl ⟨h.outbound inv.locks engaged out, h.frame.threadId, h.context.2⟩
      · exact .inl (stays (h.frame.value same) (h.frame.others i same))
  | nmi j t present h =>
      by_cases same : i = j
      · subst same
        have value := h.value i
        cases h with
        | wake _ halted =>
            refine .inl ⟨.inl ?_, by constructor <;> simp⟩
            obtain loaded | away := out
            · exact value.symm.trans loaded
            · simp [ApPc.away] at away
        | dummy _ _ =>
            refine .inl ⟨?_, by constructor <;> simp⟩
            rw [Sys.Outbound, value] at out
            exact out.imp id fun away => by simpa using away
      · exact .inl (stays (h.frame.value same) (h.frame.others i same))
  | trap j trap u x tid present pc =>
      by_cases same : i = j
      · subst same
        exact absurd out (engaged.trap_inbound pc)
      · exact .inl (stays ((trap_frame cfg s j trap u x).value same) (Sys.setAp_ne _ _ _ same))
  | compute x idle => exact .inl (stays rfl rfl)
  | rebuildPd pageDir idle => exact .inl (stays rfl rfl)

theorem ApStep.returned (locks : Locks s) (engaged : Engaged s i) (h : ApStep i s t)
    (back : t.Returned i) : s.Returned i := by
  obtain ⟨value, away⟩ := back
  have stayed : ¬((s.ap i).pc.away = true ∨ (s.ap i).pc = .switch .loaded) := by
    rw [← h.away engaged, away]
    decide
  rw [not_or, Bool.not_eq_true] at stayed
  refine ⟨?_, stayed.1⟩
  obtain same | move := h.value locks
  · rwa [same] at value
  · have loading := stayed.2
    generalize (s.ap i).pc = pc at move loading
    generalize s.value i = v at move ⊢
    generalize t.value i = w at move value
    cases move with
    | load => exact absurd rfl loading
    | finish => exact .inl rfl
    | notify lock => exact .inl rfl
    | sleep => rcases value with h | h <;> cases h
    | discard => rcases value with h | h <;> cases h

/-- A context that has come back from ring 3 had done so before, or is the one that
`switch_back` stores. -/
theorem Outcome.returned (inv : Consistent cfg s) (engaged : Engaged s i) (h : Outcome cfg s a t)
    (back : t.Returned i) :
    s.Returned i ∧ SameContext s t i ∨ ∃ trap u x, a = .trap i trap u x := by
  have stays (value : t.value i = s.value i) (ap : t.ap i = s.ap i) :
      s.Returned i ∧ SameContext s t i := by
    refine ⟨?_, .of_ap ap⟩
    rw [Sys.Returned, value, ap] at back
    exact back
  cases h with
  | call op t idle call => exact .inl (stays (call.value idle i) (by rw [call.ap]))
  | bsp t h =>
      have step := bspStep_outcome h
      by_cases store : ∃ l v, s.bsp = .apStore l v ∧ l.cpu = i
      · obtain ⟨l, v, pc, rfl⟩ := store
        have free := inv.free_of_apStore pc
        have value := back.1
        obtain same | move := step.value inv.locks l.cpu
        · rw [same] at value
          rcases value with value | value <;> cases value ▸ free
        · rw [pc] at move
          generalize t.value l.cpu = w at move value
          cases move
          rcases value with value | value <;> cases value
      · obtain ⟨value, same⟩ := step.unstored inv store
        refine .inl ⟨⟨?_, ?_⟩, same⟩
        · obtain value | gone := value
          · exact value ▸ back.1
          · rcases back.1 with back | back <;> rcases gone with gone | gone <;> cases gone.symm.trans back
        · obtain pc | ⟨off, -⟩ := step.pc i
          · exact pc ▸ back.2
          · rw [off]
            rfl
  | ap j now msClock t present h =>
      by_cases same : i = j
      · subst same
        exact .inl ⟨h.returned inv.locks engaged back, h.frame.threadId, h.context.2⟩
      · exact .inl (stays (h.frame.value same) (h.frame.others i same))
  | nmi j t present h =>
      by_cases same : i = j
      · subst same
        have value := h.value i
        rw [Sys.Returned, value] at back
        cases h with
        | wake _ halted =>
            exact .inl ⟨⟨back.1, by rw [halted]; rfl⟩, by constructor <;> simp⟩
        | dummy _ _ => exact .inl ⟨⟨back.1, by simpa using back.2⟩, by constructor <;> simp⟩
      · exact .inl (stays (h.frame.value same) (h.frame.others i same))
  | trap j trap u x tid present pc =>
      by_cases same : i = j
      · exact .inr ⟨trap, u, x, by rw [same]⟩
      · exact .inl (stays ((trap_frame cfg s j trap u x).value same) (Sys.setAp_ne _ _ _ same))
  | compute x idle => exact .inl (stays rfl rfl)
  | rebuildPd pageDir idle => exact .inl (stays rfl rfl)

/-- The data page of AP `i` has what the history says. -/
structure Tracked (cfg : Config) (s : Sys) (h : List ThreadEvent) (i : Nat) : Prop where
  stored : ∀ tid source x, lastContext i h = some (tid, source, x) →
    cfg.migrationSet.Agrees (s.ap i).fpuState x
  outbound : s.Outbound i → ∃ x, lastContext i h = some ((s.ap i).threadId, .switchToAp, x)
  returned : s.Returned i → ∃ x, lastContext i h = some ((s.ap i).threadId, .switchBack, x)

theorem lastContext_event {e : Option ThreadEvent} :
    lastContext i (e.toList ++ h) = match e.bind (·.context i) with
      | some found => some found
      | none => lastContext i h := by
  cases e with
  | none => rfl
  | some e =>
      change List.findSome? _ (e :: h) = _
      rw [List.findSome?_cons, Option.bind_some]
      cases e.context i <;> rfl

/-- Only the two stores of a context are recorded for an AP. -/
theorem threadEvent_context (store : ¬∃ l v, a = .bsp ∧ s.bsp = .apStore l v ∧ l.cpu = i)
    (trap : ¬∃ trap u x, a = .trap i trap u x) : (threadEvent s a).bind (·.context i) = none := by
  cases event : threadEvent s a with
  | none => rfl
  | some e =>
      rw [Option.bind_some]
      unfold threadEvent at event
      split at event
      · split at event <;> cases event
        rfl
      · cases event
        rfl
      · cases event
        rfl
      · split at event <;> cases event
        rfl
      · split at event
        · cases event
          rfl
        · cases event
          rfl
        · rename_i l v pc
          cases event
          exact if_neg fun cpu => store ⟨l, v, rfl, pc, cpu⟩
        · cases event
          rfl
        · cases event
      · rename_i j trap' u x
        cases event
        refine if_neg fun cpu => trap ⟨trap', u, x, by rw [cpu]⟩
      · cases event

theorem Step.tracked (inv : Consistent cfg s) (engaged : Engaged s i) (step : Step cfg s a t)
    (tracked : Tracked cfg s h i) : Tracked cfg t ((threadEvent s a).toList ++ h) i := by
  by_cases store : ∃ l v, a = .bsp ∧ s.bsp = .apStore l v ∧ l.cpu = i
  · obtain ⟨l, v, rfl, pc, rfl⟩ := store
    obtain ⟨ts, found, rfl⟩ := bspStep_apStore pc step
    have latest : lastContext l.cpu ((threadEvent s .bsp).toList ++ h) =
        some (l.threadId, .switchToAp, s.fpu) := by
      rw [lastContext_event]
      simp [threadEvent, pc, ThreadEvent.context]
    have ap : ((handOff cfg s l v ts).ap l.cpu).threadId = l.threadId := by
      simp [handOff, Sys.setAp]
    refine ⟨fun tid source x same => ?_, fun _ => ⟨s.fpu, by rw [latest, ap]⟩, fun back => ?_⟩
    · cases latest.symm.trans same
      simp only [handOff, Sys.setAp, Function.update_self, fpuSave, fpuSaveMethod_save]
      exact SaveMethod.copy_agrees _ _ _
    · obtain ⟨before, -⟩ | ⟨_, _, _, other⟩ := step.outcome.returned inv engaged back
      · have free := inv.free_of_apStore pc
        rcases before.1 with value | value <;> cases value ▸ free
      · cases other
  · by_cases trap : ∃ trap u x, a = .trap i trap u x
    · obtain ⟨trap, u, x, rfl⟩ := trap
      have latest : lastContext i ((threadEvent s (.trap i trap u x)).toList ++ h) =
          some ((s.ap i).threadId, .switchBack, x) := by
        rw [lastContext_event]
        simp [threadEvent, ThreadEvent.context]
      have out := step.outcome
      cases out with
      | trap _ _ _ _ tid present pc =>
          refine ⟨fun tid source y same => ?_, fun out => absurd out (engaged.trap_inbound pc),
            fun _ => ⟨x, ?_⟩⟩
          · cases latest.symm.trans same
            rw [Sys.setAp_self]
            exact SaveMethod.copy_agrees _ _ _
          · rw [latest, Sys.setAp_self]
            rfl
    · have same : SameContext s t i := (step.outcome.context i).resolve_right (not_or.mpr ⟨store, trap⟩)
      have latest : lastContext i ((threadEvent s a).toList ++ h) = lastContext i h := by
        rw [lastContext_event, threadEvent_context store trap]
      refine ⟨fun tid source x found => ?_, fun out => ?_, fun back => ?_⟩
      · rw [same.fpuState]
        exact tracked.stored tid source x (latest.symm.trans found)
      · rw [latest, same.threadId]
        exact tracked.outbound ((step.outcome.outbound inv engaged out).resolve_right store).1
      · rw [latest, same.threadId]
        exact tracked.returned ((step.outcome.returned inv engaged back).resolve_right trap).1

theorem Engaged.value_of_away (engaged : Engaged s i) (away : (s.ap i).pc.away = true) :
    s.value i = .running ∨ s.value i = .dircard := by
  cases pc : (s.ap i).pc with
  | atomicUnlock v rc =>
      rw [pc] at away
      cases away
      rw [value_of_ap (by rw [pc]; rfl)]
      exact .inl (engaged.unlock v pc)
  | switchtask => exact engaged.value (by rw [pc]; rfl)
  | ring3 tid => exact engaged.value (by rw [pc]; rfl)
  | _ =>
      rw [pc] at away
      cases away

/-- `switch_to_bsp` takes a context that has come back from ring 3, the one of its thread. -/
theorem Sound.returned_of_bspTest (sound : Sound cfg s) {l : ToBsp} (pc : s.bsp = .bspTest l .cargo) :
    s.Returned l.cpu ∧ (s.ap l.cpu).threadId = l.threadId := by
  have inv := sound.consistent
  have held : s.bsp.held l.cpu = some .cargo := by
    rw [pc]
    exact Bsp.held_of_lock rfl
  have value : s.value l.cpu = .cargo := inv.locks.value_of_bsp held
  refine ⟨⟨.inr value, ?_⟩, ?_⟩
  · cases away : (s.ap l.cpu).pc.away with
    | false => rfl
    | true =>
        rcases (sound.engaged l.cpu).value_of_away away with other | other <;> cases value.symm.trans other
  · have ok := inv.ledger.bsp
    rw [pc] at ok
    exact inv.target_threadId ok (by rw [pc]; rfl)

/-- The extended state follows its thread, in all that the driver saves and restores:
through a thread switch, to an AP and back. -/
structure Follows (cfg : Config) (s : Sys) (h : List ThreadEvent) : Prop where
  switchedIn : ∀ curTid cbsNew ts cbs live t, s.bsp = .switchIn curTid cbsNew →
    s.tsHt.get curTid = some ts → cbsNew.ring3 →
    lastSwitchOut curTid (life curTid h) = some (cbs, live) → cbs.ring3 →
    Step cfg s .bsp t → cfg.restoreSet.Agrees t.fpu live
  loaded : ∀ i now msClock t, (s.ap i).pc = .switchtask → Step cfg s (.ap i now msClock) t →
    ∃ live, lastContext i h = some ((s.ap i).threadId, .switchToAp, live) ∧
      cfg.migrationSet.Agrees (t.ap i).fpu live
  takenBack : ∀ l t, s.bsp = .bspTest l .cargo → Step cfg s .bsp t →
    ∃ x, lastContext l.cpu h = some (l.threadId, .switchBack, x) ∧ cfg.migrationSet.Agrees t.fpu x

theorem bspStep_switchIn {curTid : Dword} {cbsNew : Tcb} (pc : s.bsp = .switchIn curTid cbsNew)
    (step : bspStep cfg s = some t) : t = switchIn cfg s curTid cbsNew := by
  simp only [bspStep, pc, Option.some.injEq] at step
  exact step.symm

theorem apStep_switchtask {now : BitVec 64} {msClock : Dword} (pc : (s.ap i).pc = .switchtask)
    (step : apStep cfg s i now msClock = some t) :
    (t.ap i).fpu = cfg.migrationSet.copy (s.ap i).fpuState (s.ap i).fpu := by
  simp only [apStep, pc, Option.some.injEq] at step
  subst step
  simp [Config.migrationSet]

theorem Sound.follows (sound : Sound cfg s) (tracked : ∀ i, Tracked cfg s h i)
    (recorded : ∀ tid, s.tsHt.get tid = recordOf cfg tid h) : Follows cfg s h where
  switchedIn curTid cbsNew ts cbs live t pc found ring3 latest was step := by
    rw [bspStep_switchIn pc step]
    have saved := recordOf_saved ((recorded curTid).symm.trans found)
    rw [latest] at saved
    exact switchIn_agrees found ring3 saved was
  loaded i now msClock t pc taken := by
    change SmpVxd.step cfg s _ = some t at taken
    simp only [SmpVxd.step, Option.ite_none_right_eq_some] at taken
    obtain ⟨live, latest⟩ := (tracked i).outbound (.inr (by rw [pc]; rfl))
    refine ⟨live, latest, ?_⟩
    rw [apStep_switchtask pc taken.2]
    exact (SaveMethod.copy_agrees _ _ _).trans ((tracked i).stored _ _ _ latest)
  takenBack l t pc step := by
    obtain ⟨returned, owner⟩ := sound.returned_of_bspTest pc
    obtain ⟨x, latest⟩ := (tracked l.cpu).returned returned
    rw [owner] at latest
    refine ⟨x, latest, ?_⟩
    rw [bspStep_bspTest pc step]
    simp only [takeBack, fpuRestore, fpuSaveMethod_user]
    exact (SaveMethod.copy_agrees _ _ _).trans ((tracked l.cpu).stored _ _ _ latest)

theorem tracked_initialised : Tracked cfg (initialised cfg) [] i where
  stored _ _ _ none := by cases none
  outbound out := by
    obtain loaded | away := out
    · cases loaded
    · cases away
  returned back := by rcases back.1 with value | value <;> cases value

/-- Whatever the order of thread switches and migrations, the extended state follows its
thread. -/
theorem extended_state_follows {as : List Action}
    (run : Run (Transition.record (Step cfg) threadEvent) (initialised cfg, []) as (s, h)) :
    Follows cfg s h := by
  obtain ⟨sound, tracked⟩ := run.invariant_with (I := fun p => Sound cfg p.1)
    (P := fun p => ∀ i, Tracked cfg p.1 p.2 i)
    (fun p a q sound step => sound.step step.1)
    (fun p a q sound tracked step i => by
      rw [step.2]
      exact step.1.tracked sound.consistent (sound.engaged i) (tracked i))
    sound_initialised (fun i => tracked_initialised)
  exact sound.follows tracked (record_eq_recordOf run)

/-- A machine whose Windows saves no SSE state. -/
def noFxsave : Config := { oneAp with noSysFxsave := true }

/-- Thread 5 computes, thread 7 computes, and thread 5 is about to be switched in. -/
def switchedBack : List Action :=
  let tcb : Tcb := ⟨0, .zero⟩
  [.call (.threadInit 5 (some 0x1000)), .call (.threadSwitch 5 0 tcb tcb), .bsp, .compute ⟨1, 2, 3⟩,
    .call (.threadSwitch 7 5 tcb tcb), .bsp, .compute ⟨4, 5, 6⟩, .call (.threadSwitch 5 7 tcb tcb)]

theorem extended_state_follows_switch : ∃ as s h t,
    Run (Transition.record (Step noFxsave) threadEvent) (initialised noFxsave, []) as (s, h) ∧
    s.fpu = ⟨4, 5, 6⟩ ∧ Step noFxsave s .bsp t ∧ noFxsave.restoreSet.Agrees t.fpu ⟨1, 2, 3⟩ := by
  have computed : (exec (fun q a => (guard (step noFxsave) (fun _ _ => true) q.1 a).map fun t =>
      (t, (threadEvent q.1 a).toList ++ q.2)) (initialised noFxsave, []) switchedBack).any
      (fun q => (match q.1.bsp with
        | .switchIn curTid cbsNew => curTid = 5 && decide cbsNew.ring3
        | _ => false) && q.1.fpu = ⟨4, 5, 6⟩ && (q.1.tsHt.get 5).isSome &&
          match lastSwitchOut 5 (life 5 q.2) with
          | some (cbs, live) => decide cbs.ring3 && live = ⟨1, 2, 3⟩
          | none => false) = true := by decide +kernel
  obtain ⟨⟨s, h⟩, run, checked⟩ := exists_run_record computed
  have run : Run (Transition.record (Step noFxsave) threadEvent) (initialised noFxsave, []) _ (s, h) :=
    run.mono fun p a q step => ⟨step.1.2, step.2⟩
  simp only [Bool.and_eq_true, decide_eq_true_eq, Option.isSome_iff_exists] at checked
  obtain ⟨⟨⟨switching, fpu⟩, ts, found⟩, out⟩ := checked
  split at switching
  · rename_i curTid cbsNew pc
    split at out
    · rename_i cbs live latest
      simp only [Bool.and_eq_true, decide_eq_true_eq] at switching out
      obtain ⟨rfl, ring3⟩ := switching
      obtain ⟨was, rfl⟩ := out
      have taken : Step noFxsave s .bsp (switchIn noFxsave s 5 cbsNew) := by
        change bspStep noFxsave s = _
        simp only [bspStep, pc]
      exact ⟨_, s, h, _, run, fpu, taken,
        (extended_state_follows run).switchedIn 5 cbsNew ts cbs _ _ pc found ring3 latest was taken⟩
    · cases out
  · cases switching

end SmpVxd
