import SmpVxd.Protocol.History

/-!
# Which context an AP dispatches

`smp_ap_main` returns 1 after it has given the word back as `S_RUNNING`, and
`_switchtask` loads the context only then. `Engaged` says what an AP on this way may
rely on. The history of hand-offs, destroyed threads and dispatches shows whether a
dispatched context still belongs to a thread.
-/

namespace SmpVxd

open Transition

/-- The AP executes the context of a thread, or is about to load it. -/
def ApPc.engaged : ApPc → Bool
  | .switchtask | .ring3 _ => true
  | _ => false

/-- An AP that executes a context has been told so by `S_LOADED`, and nobody but
`Device_Thread_Destroy` has changed its word since. -/
structure Engaged (s : Sys) (i : Nat) : Prop where
  value : (s.ap i).pc.engaged = true → s.value i = .running ∨ s.value i = .dircard
  unlock : ∀ v, (s.ap i).pc = .atomicUnlock v true → v = .running
  tid : ∀ tid, (s.ap i).pc = .ring3 tid → tid = (s.ap i).threadId

variable {cfg : Config} {s t : Sys} {a : Action} {i j : Nat} {v w : Status}

theorem Engaged.congr (engaged : Engaged s i) (pc : (t.ap i).pc = (s.ap i).pc)
    (value : t.value i = s.value i) (threadId : (t.ap i).threadId = (s.ap i).threadId) :
    Engaged t i where
  value := by
    rw [pc, value]
    exact engaged.value
  unlock := by
    rw [pc]
    exact engaged.unlock
  tid := by
    rw [pc, threadId]
    exact engaged.tid

/-- The AP is not on its way to a context. -/
theorem engaged_of_free (engaged : (t.ap i).pc.engaged = false)
    (unlock : ∀ v, (t.ap i).pc ≠ .atomicUnlock v true) : Engaged t i where
  value h := by cases engaged.symm.trans h
  unlock v h := absurd h (unlock v)
  tid tid h := by
    rw [h] at engaged
    cases engaged

theorem ApStep.engaged (locks : Locks s) (engaged : Engaged s i) (h : ApStep i s t) :
    Engaged t i := by
  have value := h.value locks
  cases h with
  | branch v w rc now pc branch =>
      refine ⟨fun h => ?_, fun x h => ?_, fun tid h => ?_⟩
      · simp [ApPc.engaged] at h
      · simp only [Sys.setAp_self, ApPc.atomicUnlock.injEq] at h
        obtain ⟨rfl, rfl⟩ := h
        cases branch
        rfl
      · simp at h
  | unlock v rc pc =>
      have same := value.resolve_right (by rw [pc]; rintro ⟨⟩)
      refine ⟨fun h => ?_, fun x h => ?_, fun tid h => ?_⟩
      · rw [same, value_of_ap (by rw [pc]; rfl)]
        simp only [Sys.setAp_self] at h
        split at h
        · cases h
        · split at h
          · rename_i loaded
            subst loaded
            exact .inl (engaged.unlock v pc)
          · cases h
      · simp only [Sys.setAp_self] at h
        split at h
        · cases h
        · split at h <;> cases h
      · simp only [Sys.setAp_self] at h
        split at h
        · cases h
        · split at h <;> cases h
  | switchtask fpu pc =>
      have same := value.resolve_right (by rw [pc]; rintro ⟨⟩)
      refine ⟨fun _ => ?_, fun x h => ?_, fun tid h => ?_⟩
      · rw [same]
        exact engaged.value (by rw [pc]; rfl)
      · simp at h
      · simp only [Sys.setAp_self, ApPc.ring3.injEq] at h ⊢
        exact h.symm
  | spin pc busy => exact engaged
  | kernelBoot pc => exact engaged_of_free (by simp [ApPc.engaged]) (by simp)
  | lock pc free => exact engaged_of_free (by simp [ApPc.engaged]) (by simp)
  | notify ts pc found lock => exact engaged_of_free (by simp [ApPc.engaged]) (by simp)
  | silent pc absent => exact engaged_of_free (by simp [ApPc.engaged]) (by simp)
  | discard now pc => exact engaged_of_free (by simp [ApPc.engaged]) (by simp)
  | clearIdleLock lock pc =>
      exact engaged_of_free (by simp [Sys.setAp, ApPc.engaged]) (by simp [Sys.setAp])
  | incLoad pc => exact engaged_of_free (by simp [ApPc.engaged]) (by simp)
  | incStore cnt pc =>
      exact engaged_of_free (by simp [Sys.setAp, ApPc.engaged]) (by simp [Sys.setAp])
  | sti pc => exact engaged_of_free (by simp [ApPc.engaged]) (by simp)
  | hlt pc => exact engaged_of_free (by simp [ApPc.engaged]) (by simp)

theorem ApFrame.engaged (engaged : Engaged s i) (h : ApFrame j s t) (ne : i ≠ j) : Engaged t i :=
  engaged.congr (by rw [h.others i ne]) (h.value ne) (by rw [h.others i ne])

/-- `smp_ap_main` leaves the context in the page of the AP alone. -/
theorem ApStep.context (h : ApStep i s t) :
    (t.ap i).procState = (s.ap i).procState ∧ (t.ap i).fpuState = (s.ap i).fpuState := by
  cases h with
  | spin pc _ => exact ⟨rfl, rfl⟩
  | clearIdleLock lock pc => simp [Sys.setAp]
  | incStore cnt pc => simp [Sys.setAp]
  | _ => simp

/-- On the BSP, only a hand-off changes the thread and the context in the page of an AP. -/
theorem BspStep.context (h : BspStep cfg s t) (i : Nat) :
    ((t.ap i).threadId = (s.ap i).threadId ∧ (t.ap i).procState = (s.ap i).procState ∧
        (t.ap i).fpuState = (s.ap i).fpuState) ∨
      ∃ l v, s.bsp = .apStore l v ∧ l.cpu = i ∧
        (t.ap i).threadId = l.threadId ∧ (t.ap i).procState = l.crs := by
  cases h with
  | handOff l v ts pc found =>
      by_cases same : l.cpu = i
      · subst same
        exact .inr ⟨l, v, pc, rfl, by simp [SmpVxd.handOff, Sys.setAp]⟩
      · exact .inl (by simp [SmpVxd.handOff, Sys.setAp, Function.update_of_ne (Ne.symm same)])
  | startAp j pc _ _ =>
      by_cases same : i = j
      · simp [same]
      · simp [Sys.setAp_ne _ _ _ same]
  | lock cpu next at_ _ =>
      by_cases same : i = cpu
      · simp [Sys.setAp, same]
      · simp [Sys.setAp, Function.update_of_ne same]
  | unlock cpu v b at_ =>
      by_cases same : i = cpu
      · simp [Sys.setAp, same]
      · simp [Sys.setAp, Function.update_of_ne same]
  | wakeup l v pc _ =>
      by_cases same : i = l.cpu
      · simp [Sys.setAp, same]
      · simp [Sys.setAp, Function.update_of_ne same]
  | switchIn curTid cbsNew pc => exact .inl (by rw [switchIn_ap]; exact ⟨rfl, rfl, rfl⟩)
  | _ => exact .inl ⟨rfl, rfl, rfl⟩

theorem BspStep.threadId (h : BspStep cfg s t) (i : Nat) :
    (t.ap i).threadId = (s.ap i).threadId ∨
      ∃ l v, s.bsp = .apStore l v ∧ l.cpu = i ∧ (t.ap i).threadId = l.threadId := by
  obtain same | ⟨l, v, pc, cpu, threadId, _⟩ := h.context i
  · exact .inl same.1
  · exact .inr ⟨l, v, pc, cpu, threadId⟩

/-- A hand-off finds the AP free, so it does not touch an AP that is engaged. -/
theorem Consistent.free_of_apStore (inv : Consistent cfg s) {l : ToAp}
    (pc : s.bsp = .apStore l v) : (s.value l.cpu).free = true := by
  have ok := inv.ledger.bsp
  rw [pc] at ok
  rw [inv.locks.value_of_bsp (by rw [pc]; exact Bsp.held_of_lock rfl)]
  exact ok.2.2.2.2

theorem BspStep.engaged (inv : Consistent cfg s) (engaged : Engaged s i) (h : BspStep cfg s t) :
    Engaged t i := by
  obtain same | ⟨_, boot⟩ := h.pc i
  · cases now : (s.ap i).pc.engaged with
    | false =>
        refine ⟨fun h => ?_, fun v h => ?_, fun tid h => ?_⟩
        · rw [same, now] at h
          cases h
        · exact engaged.unlock v (same.symm.trans h)
        · rw [same] at h
          rw [h] at now
          cases now
    | true =>
        have before := engaged.value now
        have threadId : (t.ap i).threadId = (s.ap i).threadId := by
          obtain kept | ⟨l, v, pc, rfl, _⟩ := h.threadId i
          · exact kept
          · have free := inv.free_of_apStore pc
            rcases before with value | value <;> cases value ▸ free
        obtain value | move := h.value inv.locks i
        · exact engaged.congr same value threadId
        · refine ⟨fun _ => ?_, fun v h => engaged.unlock v (same.symm.trans h), fun tid h => ?_⟩
          · have ok := inv.ledger.bsp
            generalize t.value i = w at move ⊢
            generalize s.value i = v at move before
            generalize s.bsp = b at move ok
            cases move with
            | handOff l v cpu =>
                have free := ok.2.2.2.2
                rcases before with value | value <;> cases value ▸ free
            | takeBack l cpu => rcases before with h | h <;> cases h
            | discard tid v => exact .inr rfl
          · rw [threadId]
            exact engaged.tid tid (same.symm.trans h)
  · exact engaged_of_free (by rw [boot]; rfl) (by simp [boot])

theorem Outcome.engaged (inv : Consistent cfg s) (engaged : Engaged s i) (h : Outcome cfg s a t) :
    Engaged t i := by
  cases h with
  | call op t idle call =>
      exact engaged.congr (by rw [call.ap]) (call.value idle i) (by rw [call.ap])
  | bsp t h => exact (bspStep_outcome h).engaged inv engaged
  | ap j now msClock t present h =>
      by_cases same : i = j
      · subst same
        exact h.engaged inv.locks engaged
      · exact h.frame.engaged engaged same
  | nmi j t present h =>
      by_cases same : i = j
      · subst same
        have value := h.value i
        have threadId := h.frame.threadId
        cases h with
        | wake _ halted => exact engaged_of_free (by simp [ApPc.engaged]) (by simp)
        | dummy _ _ => exact engaged.congr (by simp) value threadId
      · exact h.frame.engaged engaged same
  | trap j trap u x tid present pc =>
      by_cases same : i = j
      · subst same
        exact engaged_of_free (by simp [Ap.switchBack, ApPc.engaged]) (by simp [Ap.switchBack])
      · exact (trap_frame cfg s j trap u x).engaged engaged same
  | compute x idle => exact engaged.congr rfl rfl rfl
  | rebuildPd pageDir idle => exact engaged.congr rfl rfl rfl

theorem engaged_initialised : Engaged (initialised cfg) i :=
  engaged_of_free rfl fun v h => by cases h

/-- The events that concern the context in an AP's data page. -/
inductive ContextEvent where
  /-- `switch_to_ap` stores the context of a thread. -/
  | handOff (i : Nat) (tid : Dword)
  /-- `Device_Thread_Destroy` returns. -/
  | destroyed (tid : Dword)
  /-- The AP executes `_switchtask`. -/
  | dispatch (i : Nat)
  deriving DecidableEq

def contextEvent (s : Sys) : Action → Option ContextEvent
  | .ap i _ _ => if (s.ap i).pc = .switchtask then some (.dispatch i) else none
  | .bsp => match s.bsp with
      | .apStore l _ => some (.handOff l.cpu l.threadId)
      | .destroyFree tid => some (.destroyed tid)
      | _ => none
  | _ => none

/-- The thread whose context AP `i` has, unless it was destroyed since. The history
is newest first. -/
def context (i : Nat) : List ContextEvent → Option Dword
  | [] => none
  | .handOff j tid :: h => if j = i then some tid else context i h
  | .destroyed tid :: h => if context i h = some tid then none else context i h
  | .dispatch _ :: h => context i h

/-- The context was stored for `tid`, nothing was stored over it, and `tid` was not
destroyed since. -/
theorem context_eq_some {tid : Dword} {h : List ContextEvent} (found : context i h = some tid) :
    ∃ later earlier, h = later ++ .handOff i tid :: earlier ∧
      (∀ tid', .handOff i tid' ∉ later) ∧ .destroyed tid ∉ later := by
  induction h with
  | nil => cases found
  | cons e h ih =>
      have extend (older : context i h = some tid) (other : ∀ tid', e ≠ .handOff i tid')
          (alive : e ≠ .destroyed tid) : ∃ later earlier,
            e :: h = later ++ .handOff i tid :: earlier ∧
              (∀ tid', .handOff i tid' ∉ later) ∧ .destroyed tid ∉ later := by
        obtain ⟨later, earlier, rfl, stored, kept⟩ := ih older
        refine ⟨e :: later, earlier, rfl, fun tid' member => ?_, fun member => ?_⟩
        · obtain same | member := List.mem_cons.mp member
          · exact other tid' same.symm
          · exact stored tid' member
        · obtain same | member := List.mem_cons.mp member
          · exact alive same.symm
          · exact kept member
      cases e with
      | handOff j tid' =>
          simp only [context] at found
          split at found
          · rename_i same
            cases found
            subst same
            exact ⟨[], h, rfl, by simp, by simp⟩
          · rename_i ne
            refine extend found (fun tid' same => ?_) (by simp)
            cases same
            exact ne rfl
      | destroyed tid' =>
          simp only [context] at found
          split at found
          · cases found
          · rename_i alive
            refine extend found (by simp) fun same => ?_
            cases same
            exact alive found
      | dispatch j => exact extend found (by simp) (by simp)

/-- `Device_Thread_Destroy` does not return while an AP that has been told to run the
thread has not loaded its context yet. -/
def returnsInTime (cfg : Config) (s : Sys) : Action → Bool
  | .bsp => match s.bsp with
      | .destroyFree tid =>
          decide (∀ i ∈ cfg.slots, (s.ap i).pc = .switchtask → (s.ap i).threadId ≠ tid)
      | _ => true
  | _ => true

/-- The history knows the context of every AP that may still dispatch it, and every
dispatch so far was one of a living thread. -/
structure Alive (cfg : Config) (s : Sys) (h : List ContextEvent) : Prop where
  hosting : ∀ i, (s.value i).hosting = true → context i h = some (s.ap i).threadId
  switching : ∀ i ∈ cfg.slots, (s.ap i).pc = .switchtask → context i h = some (s.ap i).threadId
  past : ∀ newer i older, h = newer ++ .dispatch i :: older → ∃ tid, context i older = some tid

/-- An event that neither stores over the context nor destroys its thread. -/
theorem context_event {h : List ContextEvent} {tid : Dword} (found : context i h = some tid)
    {e : Option ContextEvent} (stored : ∀ tid', e ≠ some (.handOff i tid'))
    (kept : e ≠ some (.destroyed tid)) : context i (e.toList ++ h) = some tid := by
  cases e with
  | none => exact found
  | some e =>
      change context i (e :: h) = some tid
      cases e with
      | handOff j tid' =>
          have ne : j ≠ i := by
            rintro rfl
            exact stored tid' rfl
          rw [context, if_neg ne, found]
      | destroyed tid' =>
          have alive : context i h ≠ some tid' := by
            intro same
            rw [found] at same
            cases same
            exact kept rfl
          rw [context, if_neg alive, found]
      | dispatch j => exact found

theorem ApMove.hosting {pc : ApPc} (h : ApMove pc v w) (hosting : w.hosting = true) :
    v.hosting = true := by
  cases h <;> first | rfl | cases hosting

theorem ApStep.switching (engaged : Engaged s i) (h : ApStep i s t)
    (switching : (t.ap i).pc = .switchtask) :
    (s.ap i).pc = .switchtask ∨ (s.value i).hosting = true := by
  cases h with
  | unlock v rc pc =>
      simp only [Sys.setAp_self] at switching
      split at switching
      · cases switching
      · split at switching
        · rename_i loaded
          subst loaded
          rw [value_of_ap (by rw [pc]; rfl), engaged.unlock v pc]
          exact .inr rfl
        · cases switching
  | spin pc _ => exact .inl switching
  | clearIdleLock lock pc => simp [Sys.setAp] at switching
  | incStore cnt pc => simp [Sys.setAp] at switching
  | _ => simp at switching

/-- Without a hand-off to AP `i` its thread stays, and it neither begins to host nor
begins to dispatch anything that it did not host before. -/
theorem Outcome.carry (inv : Consistent cfg s) (engaged : Engaged s i) (h : Outcome cfg s a t)
    (unstored : ∀ tid, contextEvent s a ≠ some (.handOff i tid)) :
    (t.ap i).threadId = (s.ap i).threadId ∧
      ((t.value i).hosting = true → (s.value i).hosting = true) ∧
      ((t.ap i).pc = .switchtask → (s.ap i).pc = .switchtask ∨ (s.value i).hosting = true) := by
  have same (ap : t.ap i = s.ap i) (value : t.value i = s.value i) :
      (t.ap i).threadId = (s.ap i).threadId ∧
        ((t.value i).hosting = true → (s.value i).hosting = true) ∧
        ((t.ap i).pc = .switchtask → (s.ap i).pc = .switchtask ∨ (s.value i).hosting = true) := by
    rw [ap, value]
    exact ⟨rfl, id, .inl⟩
  cases h with
  | call op t idle call => exact same (by rw [call.ap]) (call.value idle i)
  | bsp t h =>
      have out := bspStep_outcome h
      have notHere : ∀ {l v}, s.bsp = .apStore l v → l.cpu ≠ i := by
        rintro l v pc rfl
        exact unstored l.threadId (by simp only [contextEvent, pc])
      refine ⟨(out.threadId i).resolve_right ?_, fun hosting => ?_, fun switching => ?_⟩
      · rintro ⟨l, v, pc, cpu, _⟩
        exact notHere pc cpu
      · obtain value | move := out.value inv.locks i
        · rwa [value] at hosting
        · generalize t.value i = w at move hosting
          generalize s.value i = v at move ⊢
          generalize s.bsp = b at move notHere
          cases move with
          | handOff l v cpu => exact absurd cpu (notHere rfl)
          | takeBack l cpu => rfl
          | discard tid v => cases hosting
      · obtain pc | ⟨_, boot⟩ := out.pc i
        · exact .inl (pc.symm.trans switching)
        · cases boot.symm.trans switching
  | ap j now msClock t present h =>
      by_cases this : i = j
      · subst this
        refine ⟨h.frame.threadId, fun hosting => ?_, h.switching engaged⟩
        obtain value | move := h.value inv.locks
        · rwa [value] at hosting
        · exact move.hosting hosting
      · exact same (h.frame.others i this) (h.frame.value this)
  | nmi j t present h =>
      have value := h.value i
      by_cases this : i = j
      · subst this
        refine ⟨h.frame.threadId, by rw [value]; exact id, fun switching => .inl ?_⟩
        cases h with
        | wake _ _ => simp at switching
        | dummy _ _ => simpa using switching
      · exact same (h.frame.others i this) value
  | trap j trap u x tid present pc =>
      have value := trap_value cfg pc trap u x i
      by_cases this : i = j
      · subst this
        exact ⟨by simp [Ap.switchBack], by rw [value]; exact id,
          fun switching => by simp [Ap.switchBack] at switching⟩
      · exact same (Sys.setAp_ne _ _ _ this) value
  | compute x idle => exact same rfl rfl
  | rebuildPd pageDir idle => exact same rfl rfl

theorem contextEvent_handOff {tid : Dword} (h : contextEvent s a = some (.handOff i tid)) :
    a = .bsp ∧ ∃ l v, s.bsp = .apStore l v ∧ l.cpu = i ∧ l.threadId = tid := by
  cases a with
  | bsp =>
      simp only [contextEvent] at h
      split at h
      · rename_i l v pc
        cases h
        exact ⟨rfl, l, v, pc, rfl, rfl⟩
      · cases h
      · cases h
  | ap j now msClock =>
      simp only [contextEvent] at h
      split at h <;> cases h
  | _ => cases h

theorem contextEvent_destroyed {tid : Dword} (h : contextEvent s a = some (.destroyed tid)) :
    a = .bsp ∧ s.bsp = .destroyFree tid := by
  cases a with
  | bsp =>
      simp only [contextEvent] at h
      split at h
      · cases h
      · rename_i tid' pc
        cases h
        exact ⟨rfl, pc⟩
      · cases h
  | ap j now msClock =>
      simp only [contextEvent] at h
      split at h <;> cases h
  | _ => cases h

theorem contextEvent_dispatch (h : contextEvent s a = some (.dispatch i)) :
    (s.ap i).pc = .switchtask ∧ ∃ now msClock, a = .ap i now msClock := by
  cases a with
  | bsp =>
      simp only [contextEvent] at h
      split at h <;> cases h
  | ap j now msClock =>
      simp only [contextEvent] at h
      split at h
      · cases h
        exact ⟨‹_›, now, msClock, rfl⟩
      · cases h
  | _ => cases h

/-- A thread whose record is about to be freed is not hosted any more. -/
theorem Consistent.not_leaving (inv : Consistent cfg s) (hosting : (s.value i).hosting = true)
    {tid : Dword} (leaving : s.bsp.leaving = some tid) : (s.ap i).threadId ≠ tid := by
  intro same
  have home := inv.coherent.home_of_hosting (h := i) (Status.phase_hosting.mpr hosting)
  change s.hosting.home (s.ap i).threadId = _ at home
  rw [same, home_leaving leaving] at home
  cases home

theorem Alive.step (inv : Consistent cfg s) (engaged : ∀ i, Engaged s i)
    {h : List ContextEvent} (alive : Alive cfg s h) (inTime : returnsInTime cfg s a = true)
    (out : Outcome cfg s a t) : Alive cfg t ((contextEvent s a).toList ++ h) := by
  -- a hand-off stores the new thread together with the context
  have stored : ∀ {i tid}, contextEvent s a = some (.handOff i tid) →
      context i ((contextEvent s a).toList ++ h) = some (t.ap i).threadId := by
    intro i tid event
    obtain ⟨rfl, l, v, pc, rfl, rfl⟩ := contextEvent_handOff event
    cases out with
    | bsp t h =>
        obtain ⟨ts, _, rfl⟩ := bspStep_apStore pc h
        simp [event, context, handOff, Sys.setAp]
  -- the thread of an AP that hosts it is still the one of the last context
  have hosted : ∀ {i}, (s.value i).hosting = true →
      (∀ tid, contextEvent s a ≠ some (.handOff i tid)) →
      context i ((contextEvent s a).toList ++ h) = some (s.ap i).threadId := by
    intro i hosting unstored
    refine context_event (alive.hosting i hosting) unstored fun event => ?_
    obtain ⟨_, pc⟩ := contextEvent_destroyed event
    exact inv.not_leaving hosting (by rw [pc]; rfl) rfl
  refine ⟨fun i hosting => ?_, fun i member switching => ?_, ?_⟩
  · by_cases here : ∃ tid, contextEvent s a = some (.handOff i tid)
    · obtain ⟨tid, event⟩ := here
      exact stored event
    · have unstored : ∀ tid, contextEvent s a ≠ some (.handOff i tid) := not_exists.mp here
      obtain ⟨threadId, back, _⟩ := out.carry inv (engaged i) unstored
      rw [threadId]
      exact hosted (back hosting) unstored
  · by_cases here : ∃ tid, contextEvent s a = some (.handOff i tid)
    · obtain ⟨tid, event⟩ := here
      exact stored event
    · have unstored : ∀ tid, contextEvent s a ≠ some (.handOff i tid) := not_exists.mp here
      obtain ⟨threadId, _, back⟩ := out.carry inv (engaged i) unstored
      rw [threadId]
      obtain pc | hosting := back switching
      · refine context_event (alive.switching i member pc) unstored fun event => ?_
        obtain ⟨rfl, leaving⟩ := contextEvent_destroyed event
        simp only [returnsInTime, leaving, decide_eq_true_eq] at inTime
        exact inTime i member pc rfl
      · exact hosted hosting unstored
  · intro newer i older split
    cases event : contextEvent s a with
    | none =>
        rw [event] at split
        exact alive.past newer i older split
    | some e =>
        rw [event] at split
        cases newer with
        | nil =>
            obtain ⟨rfl, rfl⟩ := List.cons.inj split
            obtain ⟨pc, now, msClock, rfl⟩ := contextEvent_dispatch event
            cases out with
            | ap i now msClock t present h =>
                exact ⟨_, alive.switching i (Config.mem_slots.mpr present) pc⟩
        | cons e' newer => exact alive.past newer i older (List.cons.inj split).2

theorem alive_initialised : Alive cfg (initialised cfg) [] := by
  refine ⟨fun i hosting => ?_, fun i _ pc => ?_, fun newer i older split => ?_⟩
  · cases hosting
  · cases pc
  · cases newer <;> cases split

/-- A context is dispatched only for a thread that has not been destroyed since the
context was stored, provided that `Device_Thread_Destroy` never returns between the
`atomic_unlock` of an AP that is told to run and its `_switchtask`. -/
theorem no_late_dispatch {as : List Action} {events newer older : List ContextEvent}
    (run : Run (record (restrict (Step cfg) fun s a => returnsInTime cfg s a = true) contextEvent)
      (initialised cfg, []) as (t, events))
    (dispatched : events = newer ++ .dispatch i :: older) :
    ∃ tid later earlier, older = later ++ .handOff i tid :: earlier ∧
      (∀ tid', .handOff i tid' ∉ later) ∧ .destroyed tid ∉ later := by
  obtain ⟨_, alive⟩ := run.invariant_with
    (I := fun p => Consistent cfg p.1 ∧ ∀ i, Engaged p.1 i) (P := fun p => Alive cfg p.1 p.2)
    (fun p a q inv step => ⟨inv.1.step step.1.2, fun i => step.1.2.outcome.engaged inv.1 (inv.2 i)⟩)
    (fun p a q inv alive step => by
      rw [step.2]
      exact alive.step inv.1 inv.2 step.1.1 step.1.2.outcome)
    ⟨consistent_initialised, fun _ => engaged_initialised⟩ alive_initialised
  obtain ⟨tid, found⟩ := alive.past newer i older dispatched
  obtain ⟨later, earlier, split, stored, kept⟩ := context_eq_some found
  exact ⟨tid, later, earlier, split, stored, kept⟩

/-- The AP takes the context of the thread that was handed to it and dispatches it. -/
theorem no_late_dispatch_living :
    ∃ as t, Run (record (restrict (Step oneAp) fun s a => returnsInTime oneAp s a = true)
        contextEvent) (initialised oneAp, []) as (t, [.dispatch 1, .handOff 1 5]) ∧
      ∃ tid later earlier, [.handOff 1 5] = later ++ ContextEvent.handOff 1 tid :: earlier ∧
        (∀ tid', .handOff 1 tid' ∉ later) ∧ .destroyed tid ∉ later := by
  have computed : (exec (fun q a => (guard (step oneAp) (returnsInTime oneAp) q.1 a).map fun t =>
      (t, (contextEvent q.1 a).toList ++ q.2)) (initialised oneAp, [])
      (elevation 5 0x500 0x9000 1 ++ flight ++ List.replicate 4 (.ap 1 0 0))).any
      (fun q => q.2 = [.dispatch 1, .handOff 1 5]) = true := by
    decide +kernel
  obtain ⟨⟨t, events⟩, run, checked⟩ := exists_run_record computed
  simp only [decide_eq_true_eq] at checked
  subst checked
  have split : [ContextEvent.dispatch 1, .handOff 1 5] = [] ++ .dispatch 1 :: [.handOff 1 5] := rfl
  exact ⟨_, t, run, no_late_dispatch run split⟩

/-- Thread 5 is destroyed between the `atomic_unlock` of the AP and its `_switchtask`:
the AP dispatches the context of a thread that no longer exists. -/
theorem dispatched_after_destroy :
    ∃ as t, Run (record (Step oneAp) contextEvent) (initialised oneAp, []) as
        (t, [.dispatch 1, .destroyed 5, .handOff 1 5]) ∧
      (t.ap 1).pc = .ring3 5 ∧ t.tsHt.get 5 = none := by
  have computed : (exec (fun q a => (guard (step oneAp) (fun _ _ => true) q.1 a).map fun t =>
      (t, (contextEvent q.1 a).toList ++ q.2)) (initialised oneAp, [])
      (elevation 5 0x500 0x9000 1 ++ flight ++ List.replicate 3 (.ap 1 0 0) ++
        .call (.threadDestroy 5) :: List.replicate 4 .bsp ++ [.ap 1 0 0])).any
      (fun q => q.2 = [.dispatch 1, .destroyed 5, .handOff 1 5] && (q.1.ap 1).pc = .ring3 5 &&
        (q.1.tsHt.get 5).isNone) = true := by
    decide +kernel
  obtain ⟨⟨t, events⟩, run, checked⟩ := exists_run_record computed
  simp only [Bool.and_eq_true, decide_eq_true_eq, Option.isNone_iff_eq_none] at checked
  obtain ⟨⟨rfl, pc⟩, absent⟩ := checked
  exact ⟨_, t, run.mono fun p a q step => ⟨step.1.2, step.2⟩, pc, absent⟩

end SmpVxd
