import SmpVxd.Protocol.Reattach
import SmpVxd.Transition.Progress

/-!
# The way home

A thread that was handed to an AP can come home unless the AP has lost its wake-up. An AP
that has lost it does nothing any more: no hand-off finds it free, and nobody else sends
it an interrupt.
-/

namespace SmpVxd

open Transition

/-- The AP has been handed a thread, and no interrupt is on the way that would wake it. -/
structure Stranded (s : Sys) (i : Nat) : Prop where
  asleep : (s.ap i).pc.asleep = true
  value : s.value i = .loaded
  uncalled : ¬ s.Called i

/-- The same with the thread destroyed since, or still there. -/
structure OutOfService (s : Sys) (i : Nat) : Prop where
  asleep : (s.ap i).pc.asleep = true
  value : s.value i = .loaded ∨ s.value i = .dircard
  uncalled : ¬ s.Called i

/-- The action does not destroy thread `tid`. -/
def spares (tid : Dword) : Action → Bool
  | .call (.threadDestroy tid') => tid' ≠ tid
  | _ => true

variable {cfg : Config} {s t : Sys} {a : Action} {i j : Nat} {tid : Dword} {v : Status} {rc : Bool}

/-! ## Out of service -/

theorem waking_lock {b : Bsp} (waking : b.waking i = true) : ∃ v, b.lock = some (i, v) := by
  obtain ⟨l, v, rfl, rfl, _⟩ := Bsp.waking_iff.mp waking
  exact ⟨v, rfl⟩

theorem switchToApReturn_waking (l : ToAp) (rc : Bool) : (switchToApReturn l rc).waking i = false := by
  unfold switchToApReturn
  split
  · rfl
  · rfl

theorem nmi_setAp {x : Ap} (nmi : x.nmi = (s.ap j).nmi) : ((s.setAp j x).ap i).nmi = (s.ap i).nmi := by
  rw [Sys.setAp_apply]
  split
  · subst i
    exact nmi
  · rfl

/-- The BSP sends interrupts only to an AP that it has found free. -/
theorem BspStep.uncalled (inv : Consistent cfg s) (taken : (s.value i).free = false)
    (uncalled : ¬ s.Called i) (h : BspStep cfg s t) : ¬ t.Called i := by
  have none : (s.ap i).nmi = 0 := Nat.eq_zero_of_not_pos fun pos => uncalled (.inl pos)
  have quiet (nmi : (t.ap i).nmi = (s.ap i).nmi) (waking : t.bsp.waking i = false) : ¬ t.Called i := by
    rintro (pos | waking')
    · omega
    · cases waking.symm.trans waking'
  have ok := inv.ledger.bsp
  cases h with
  | goto b go =>
      refine quiet rfl ?_
      generalize pc : s.bsp = c at go ok
      cases go with
      | notFree l v _ =>
          have asleep : l.wakeup = false := ok.2.2.1
          simp [Bsp.waking, asleep]
      | noAp l _ => exact switchToApReturn_waking l false
      | _ => rfl
  | awaitAp _ _ => exact uncalled
  | spin cpu next _ _ => exact uncalled
  | startAp j pc _ _ => exact quiet (nmi_setAp rfl) (by simp [Sys.setAp, pc, Bsp.waking])
  | lock cpu next at_ _ =>
      refine quiet (nmi_setAp rfl) ?_
      generalize s.bsp = b at at_
      cases at_ with
      | _ => rfl
  | unlock cpu v b at_ =>
      refine quiet (nmi_setAp rfl) ?_
      generalize s.bsp = b at at_
      cases at_ with
      | _ => rfl
  | handOff l v ts pc found =>
      have free := inv.free_of_apStore pc
      have other : l.cpu ≠ i := by
        rintro rfl
        cases taken.symm.trans free
      refine quiet (nmi_setAp rfl) ?_
      simp [SmpVxd.handOff, Bsp.waking, other]
  | wakeup l v pc wakes =>
      have other : l.cpu ≠ i := by
        rintro rfl
        exact uncalled (.inr (Bsp.waking_iff.mpr ⟨l, v, pc, rfl, wakes⟩))
      refine quiet ?_ rfl
      change ((s.setAp l.cpu _).ap i).nmi = _
      rw [Sys.setAp_ne _ _ _ other.symm]
  | decStore l cnt pc => exact quiet rfl (switchToApReturn_waking l true)
  | switchIn curTid cbsNew pc =>
      refine quiet (by rw [switchIn_ap]) ?_
      rw [switchIn_bsp]
      rfl
  | discard tid cpu v pc => exact quiet rfl rfl
  | free tid pc => exact quiet rfl rfl
  | setIdleLock l v ts pc _ _ _ => exact quiet rfl rfl
  | takeBack l pc => exact quiet rfl rfl
  | incStore l cnt pc => exact quiet rfl rfl

theorem CallStep.uncalled {op : BspOp} (idle : s.bsp = .idle) (uncalled : ¬ s.Called i)
    (h : CallStep cfg s op t) : ¬ t.Called i := by
  rintro (pos | waking)
  · rw [h.ap] at pos
    exact uncalled (.inl pos)
  · obtain ⟨v, lock⟩ := waking_lock waking
    cases (h.lock idle).symm.trans lock

theorem ApFrame.uncalled (uncalled : ¬ s.Called i) (h : ApFrame j s t) (ne : i ≠ j) : ¬ t.Called i := by
  unfold Sys.Called at uncalled ⊢
  rwa [h.others i ne, h.bsp]

theorem OutOfService.not_free (out : OutOfService s i) : (s.value i).free = false := by
  obtain loaded | dircard := out.value
  · rw [loaded]
    rfl
  · rw [dircard]
    rfl

/-- The AP executes nothing but the rest of `smp_sleep`. -/
theorem OutOfService.apStep (locks : Locks s) (out : OutOfService s i) (h : ApStep i s t) :
    (t.ap i).pc.asleep = true ∧ (t.ap i).nmi = (s.ap i).nmi ∧ t.value i = s.value i := by
  have sleeps := out.asleep
  have value := h.value locks
  cases h with
  | sti pc =>
      refine ⟨?_, ?_, value.resolve_right (by rw [pc]; rintro ⟨⟩)⟩
      · rw [Sys.setAp_self]
        rfl
      · rw [Sys.setAp_self]
  | hlt pc =>
      refine ⟨?_, ?_, value.resolve_right (by rw [pc]; rintro ⟨⟩)⟩
      · rw [Sys.setAp_self]
        rfl
      · rw [Sys.setAp_self]
  | kernelBoot pc | spin pc _ | lock pc _ | branch _ _ _ _ pc _ | notify _ pc _ _ | silent pc _
  | discard _ pc | clearIdleLock _ pc | incLoad pc | incStore _ pc | unlock _ _ pc | switchtask _ pc =>
      rw [pc] at sleeps
      cases sleeps

/-- What the BSP still does to the value. -/
theorem OutOfService.bspStep (inv : Consistent cfg s) (out : OutOfService s i) (h : BspStep cfg s t) :
    t.value i = s.value i ∨ (∃ tid v, s.bsp = .destroyDiscard tid i v) ∧ t.value i = .dircard := by
  refine (h.value inv.locks i).imp_right fun move => ?_
  have before := out.value
  have ok := inv.ledger.bsp
  generalize t.value i = w at move ⊢
  generalize s.value i = v at move before
  generalize s.bsp = b at move ok ⊢
  cases move with
  | handOff l v cpu =>
      have free : v.free = true := ok.2.2.2.2
      obtain rfl | rfl := before
      · cases free
      · cases free
  | takeBack l cpu =>
      obtain other | other := before
      · cases other
      · cases other
  | discard tid v => exact ⟨⟨tid, v, rfl⟩, rfl⟩

/-- Nothing brings the AP back, and only the end of its thread changes its value. -/
theorem OutOfService.step (inv : Consistent cfg s) (out : OutOfService s i) (h : Step cfg s a t) :
    OutOfService t i ∧ (t.value i = s.value i ∨ ∃ tid v, s.bsp = .destroyDiscard tid i v) ∧
      (t.ap i).threadId = (s.ap i).threadId := by
  have sleeps := out.asleep
  have same (value : t.value i = s.value i) : t.value i = .loaded ∨ t.value i = .dircard := by
    rw [value]
    exact out.value
  have frame {j : Nat} (ap : ApFrame j s t) (ne : i ≠ j) : OutOfService t i ∧
      (t.value i = s.value i ∨ ∃ tid v, s.bsp = .destroyDiscard tid i v) ∧
      (t.ap i).threadId = (s.ap i).threadId := by
    refine ⟨⟨?_, same (ap.value ne), ap.uncalled out.uncalled ne⟩, .inl (ap.value ne), ?_⟩
    · rw [ap.others i ne]
      exact sleeps
    · rw [ap.others i ne]
  cases h.outcome with
  | call op t idle call =>
      refine ⟨⟨?_, same (call.value idle i), call.uncalled idle out.uncalled⟩, .inl (call.value idle i), ?_⟩
      · rw [call.ap]
        exact sleeps
      · rw [call.ap]
  | bsp t taken =>
      have step := bspStep_outcome taken
      have uncalled := step.uncalled inv out.not_free out.uncalled
      have asleep : (t.ap i).pc.asleep = true := by
        obtain pc | ⟨off, _⟩ := step.pc i
        · rw [pc]
          exact sleeps
        · rw [off] at sleeps
          cases sleeps
      have threadId : (t.ap i).threadId = (s.ap i).threadId := by
        obtain kept | ⟨l, v, pc, rfl, _⟩ := step.context i
        · exact kept.1
        · cases out.not_free.symm.trans (inv.free_of_apStore pc)
      obtain value | ⟨discards, value⟩ := out.bspStep inv step
      · exact ⟨⟨asleep, same value, uncalled⟩, .inl value, threadId⟩
      · exact ⟨⟨asleep, .inr value, uncalled⟩, .inr discards, threadId⟩
  | ap j now msClock t present step =>
      by_cases ne : i = j
      · subst ne
        obtain ⟨asleep, nmi, value⟩ := out.apStep inv.locks step
        refine ⟨⟨asleep, same value, ?_⟩, .inl value, step.frame.threadId⟩
        unfold Sys.Called
        rw [nmi, step.frame.bsp]
        exact out.uncalled
      · exact frame step.frame ne
  | nmi j t present step =>
      by_cases ne : i = j
      · subst ne
        have pending : 0 < (s.ap i).nmi := by
          cases step with
          | wake nmi _ => exact Nat.pos_of_ne_zero nmi
          | dummy nmi _ => exact Nat.pos_of_ne_zero nmi
        exact absurd (.inl pending) out.uncalled
      · exact frame step.frame ne
  | trap j trap u x tid present pc =>
      by_cases ne : i = j
      · subst ne
        rw [pc] at sleeps
        cases sleeps
      · exact frame (trap_frame cfg s j trap u x) ne
  | compute x idle => exact ⟨⟨sleeps, out.value, out.uncalled⟩, .inl rfl, rfl⟩
  | rebuildPd pageDir idle => exact ⟨⟨sleeps, out.value, out.uncalled⟩, .inl rfl, rfl⟩

theorem OutOfService.run {as : List Action} (inv : Consistent cfg s) (out : OutOfService s i)
    (run : Run (Step cfg) s as t) : OutOfService t i :=
  (run.invariant_with (I := Consistent cfg) (P := fun s => OutOfService s i)
    (fun _ _ _ inv step => inv.step step) (fun _ _ _ inv out step => (out.step inv step).1) inv out).2

theorem Stranded.outOfService (stranded : Stranded s i) : OutOfService s i :=
  ⟨stranded.asleep, .inl stranded.value, stranded.uncalled⟩

/-! ## The AP is done with its thread -/

/-- What an AP does with a value that it has to give back. -/
structure Steady (s : Sys) (i : Nat) : Prop where
  asleep : (s.ap i).pc.asleep = true → s.value i = .sleep ∨ s.value i = .dircard ∨ s.value i = .loaded
  unlock : ∀ v rc, (s.ap i).pc = .atomicUnlock v rc → v ≠ .loaded ∧ (v = .running → rc = true)

theorem Steady.congr (steady : Steady s i) (pc : (t.ap i).pc = (s.ap i).pc)
    (value : t.value i = s.value i) :
    Steady t i where
  asleep := by
    rw [pc, value]
    exact steady.asleep
  unlock := by
    rw [pc]
    exact steady.unlock

/-- The AP is neither in `smp_sleep` nor about to unlock. -/
theorem steady_of_busy (asleep : (t.ap i).pc.asleep = false)
    (unlock : ∀ v rc, (t.ap i).pc ≠ .atomicUnlock v rc) :
    Steady t i where
  asleep h := by cases asleep.symm.trans h
  unlock v rc h := absurd h (unlock v rc)

theorem steady_of_unlock (pc : (t.ap i).pc = .atomicUnlock v rc) (loaded : v ≠ .loaded)
    (running : v = .running → rc = true) : Steady t i where
  asleep h := by
    rw [pc] at h
    cases h
  unlock v' rc' h := by
    cases pc.symm.trans h
    exact ⟨loaded, running⟩

theorem ApStep.steady (locks : Locks s) (steady : Steady s i) (h : ApStep i s t) : Steady t i := by
  have value := h.value locks
  cases h with
  | spin pc busy => exact steady
  | kernelBoot pc => exact steady_of_busy (by simp [ApPc.asleep]) (by simp)
  | lock pc free => exact steady_of_busy (by simp [ApPc.asleep]) (by simp)
  | notify ts pc found lock => exact steady_of_busy (by simp [ApPc.asleep]) (by simp)
  | discard now pc => exact steady_of_busy (by simp [ApPc.asleep]) (by simp)
  | incLoad pc => exact steady_of_busy (by simp [ApPc.asleep]) (by simp)
  | switchtask fpu pc => exact steady_of_busy (by simp [ApPc.asleep]) (by simp)
  | branch v w rc now pc branch =>
      cases branch with
      | stay _ loaded running _ =>
          exact steady_of_unlock (by rw [Sys.setAp_self]) loaded fun same => absurd same running
      | sleep => exact steady_of_unlock (by rw [Sys.setAp_self]) (by decide) (by decide)
      | load => exact steady_of_unlock (by rw [Sys.setAp_self]) (by decide) fun _ => rfl
  | silent pc absent => exact steady_of_unlock (by rw [Sys.setAp_self]) (by decide) (by decide)
  | clearIdleLock lock pc =>
      exact steady_of_unlock (show _ = ApPc.atomicUnlock .cargo false by simp [Sys.setAp])
        (by decide) (by decide)
  | incStore cnt pc =>
      exact steady_of_unlock (show _ = ApPc.atomicUnlock .ready false by simp [Sys.setAp])
        (by decide) (by decide)
  | unlock v rc pc =>
      have same := value.resolve_right (by rw [pc]; rintro ⟨⟩)
      refine ⟨fun asleep => ?_, fun v' rc' pc' => ?_⟩
      · rw [same, value_of_ap (by rw [pc]; rfl)]
        left
        by_contra awake
        rw [Sys.setAp_self] at asleep
        simp only [if_neg awake] at asleep
        split at asleep
        · cases asleep
        · cases asleep
      · rw [Sys.setAp_self] at pc'
        dsimp only at pc'
        split at pc'
        · cases pc'
        · split at pc'
          · cases pc'
          · cases pc'
  | sti pc =>
      have same := value.resolve_right (by rw [pc]; rintro ⟨⟩)
      refine ⟨fun _ => ?_, by simp⟩
      rw [same]
      exact steady.asleep (by rw [pc]; rfl)
  | hlt pc =>
      have same := value.resolve_right (by rw [pc]; rintro ⟨⟩)
      refine ⟨fun _ => ?_, by simp⟩
      rw [same]
      exact steady.asleep (by rw [pc]; rfl)

theorem BspStep.steady (locks : Locks s) (steady : Steady s i) (h : BspStep cfg s t) : Steady t i := by
  obtain pc | ⟨_, boots⟩ := h.pc i
  · obtain same | move := h.value locks i
    · exact steady.congr pc same
    · refine ⟨fun asleep => ?_, ?_⟩
      · rw [pc] at asleep
        have before := steady.asleep asleep
        generalize t.value i = w at move ⊢
        generalize s.value i = v at move before
        generalize s.bsp = b at move
        cases move with
        | handOff l v cpu => exact .inr (.inr rfl)
        | takeBack l cpu => rcases before with h | h | h <;> cases h
        | discard tid v => exact .inr (.inl rfl)
      · rw [pc]
        exact steady.unlock
  · exact steady_of_busy (by rw [boots]; rfl) (by rw [boots]; rintro v rc ⟨⟩)

theorem Steady.step (inv : Consistent cfg s) (steady : Steady s i) (h : Step cfg s a t) : Steady t i := by
  have frame {j : Nat} (ap : ApFrame j s t) (ne : i ≠ j) : Steady t i :=
    steady.congr (by rw [ap.others i ne]) (ap.value ne)
  cases h.outcome with
  | call op t idle call => exact steady.congr (by rw [call.ap]) (call.value idle i)
  | bsp t taken => exact (bspStep_outcome taken).steady inv.locks steady
  | ap j now msClock t present step =>
      by_cases same : i = j
      · subst same
        exact step.steady inv.locks steady
      · exact frame step.frame same
  | nmi j t present step =>
      by_cases same : i = j
      · subst same
        have value := step.value i
        cases step with
        | wake _ halted => exact steady_of_busy (by simp [ApPc.asleep]) (by simp)
        | dummy _ _ => exact steady.congr (by rw [Sys.setAp_self]) value
      · exact frame step.frame same
  | trap j trap u x tid present pc =>
      by_cases same : i = j
      · subst same
        exact steady_of_busy (by simp [Ap.switchBack, ApPc.asleep]) (by simp [Ap.switchBack])
      · exact frame (trap_frame cfg s j trap u x) same
  | compute x idle => exact ⟨steady.asleep, steady.unlock⟩
  | rebuildPd pageDir idle => exact ⟨steady.asleep, steady.unlock⟩

theorem steady_initialised : Steady (initialised cfg) i := steady_of_busy rfl (by rintro v rc ⟨⟩)

theorem Consistent.value_of_hosted (inv : Consistent cfg s) (idle : s.bsp = .idle)
    (hosted : s.tsHt.Hosted tid i) :
    s.value i = .loaded ∨ s.value i = .running ∨ s.value i = .cargo := by
  obtain ⟨ts, found, one, rfl⟩ := hosted
  have hosting := (inv.hosting_of_record (by rw [idle]; rfl) found (by rw [one]; decide)).1
  generalize s.value ts.smpApid = v at hosting ⊢
  cases v <;> simp_all [Status.hosting]

/-- The AP works for thread `tid`, and nothing happens on the BSP. -/
structure Working (cfg : Config) (tid : Dword) (i : Nat) (s : Sys) : Prop where
  sound : Sound cfg s
  steady : Steady s i
  idle : s.bsp = .idle
  hosted : s.tsHt.Hosted tid i
  nmi : (s.ap i).pc.asleep = true → 0 < (s.ap i).nmi

/-- The steps of the AP that are left for the part of the work that its word tells. -/
def ApPc.steps : ApPc → Nat
  | .sti => 10
  | .hlt => 9
  | .halted => 8
  | .atomicUnlock _ rc => if rc then 7 else 1
  | .switchtask => 6
  | .ring3 _ => 5
  | .atomicLock => 4
  | .switch _ => 3
  | .clearIdleLock _ => 2
  | _ => 1

/-- The parts of the work. -/
def Status.parts : Status → Nat
  | .loaded => 2
  | .running => 1
  | _ => 0

def Sys.toCargo (s : Sys) (i : Nat) : Nat := 11 * (s.value i).parts + (s.ap i).pc.steps

theorem Working.hosting (w : Working cfg tid i s) :
    s.value i = .loaded ∨ s.value i = .running ∨ s.value i = .cargo :=
  w.sound.consistent.value_of_hosted w.idle w.hosted

theorem Working.present (w : Working cfg tid i s) : cfg.present i = true :=
  w.hosted.present w.sound.consistent.ledger.records

/-- The next step of the AP. -/
theorem Working.next (w : Working cfg tid i s) (h : Step cfg s a t) (frame : ApFrame i s t)
    (nmi : (t.ap i).pc.asleep = true → 0 < (t.ap i).nmi) : Working cfg tid i t where
  sound := w.sound.step h
  steady := w.steady.step w.sound.consistent h
  idle := frame.bsp.trans w.idle
  hosted := frame.tsHt ▸ w.hosted
  nmi := nmi

/-- An AP is stopped only by `hlt`, and leaves ring 3 only by a trap. -/
theorem apStep_goes (off : (s.ap i).pc ≠ .off) (halted : (s.ap i).pc ≠ .halted)
    (away : ∀ tid, (s.ap i).pc ≠ .ring3 tid) : ∃ t, apStep cfg s i 0 0 = some t := by
  cases held : (s.ap i).pc.held with
  | some v => exact apStep_enabled cfg held off 0 0
  | none =>
      cases pc : (s.ap i).pc with
      | atomicLock =>
          simp only [apStep, pc]
          split
          · exact ⟨_, rfl⟩
          · exact ⟨_, rfl⟩
      | sti => simp [apStep, pc]
      | hlt => simp [apStep, pc]
      | switchtask => simp [apStep, pc]
      | halted => exact absurd pc halted
      | ring3 tid => exact absurd pc (away tid)
      | _ =>
          rw [pc] at held
          cases held

/-- Where an AP changes its copy of the value. -/
def ApPc.moves : ApPc → Bool
  | .switch _ | .clearIdleLock _ => true
  | _ => false

theorem ApMove.moves {pc : ApPc} {w : Status} (h : ApMove pc v w) : pc.moves = true := by
  cases h <;> rfl

theorem ApStep.value_same (locks : Locks s) (h : ApStep i s t) (still : (s.ap i).pc.moves = false) :
    t.value i = s.value i :=
  (h.value locks).resolve_right fun move => by cases still.symm.trans move.moves

theorem ApPc.steps_le (pc : ApPc) : pc.steps ≤ 10 := by
  cases pc with
  | atomicUnlock v rc =>
      cases rc with
      | false => exact Nat.le_of_ble_eq_true rfl
      | true => exact Nat.le_of_ble_eq_true rfl
  | _ => exact Nat.le_of_ble_eq_true rfl

theorem toCargo_step (value : t.value i = s.value i) (steps : (t.ap i).pc.steps < (s.ap i).pc.steps) :
    t.toCargo i < s.toCargo i := by
  unfold Sys.toCargo
  rw [value]
  exact Nat.add_lt_add_left steps _

theorem toCargo_part (parts : (t.value i).parts < (s.value i).parts) : t.toCargo i < s.toCargo i := by
  unfold Sys.toCargo
  have bound := (t.ap i).pc.steps_le
  omega

/-- Each statement of the AP is one less on the way to `S_CARGO`. -/
theorem ApStep.toCargo (w : Working cfg tid i s) (short : s.value i ≠ .cargo) (h : ApStep i s t) :
    t.toCargo i < s.toCargo i ∧ ((t.ap i).pc.asleep = true → 0 < (t.ap i).nmi) := by
  have locks := w.sound.consistent.locks
  have same := h.value_same locks
  have hosting := w.hosting
  have held {v : Status} (at_ : (s.ap i).pc.held = some v) : s.value i = v := value_of_ap at_
  have awake (pc : (t.ap i).pc.asleep = false) : (t.ap i).pc.asleep = true → 0 < (t.ap i).nmi :=
    fun asleep => by cases pc.symm.trans asleep
  cases h with
  | kernelBoot pc =>
      rw [held (by rw [pc]; rfl)] at hosting
      rcases hosting with h | h | h <;> cases h
  | spin pc busy =>
      obtain word | ⟨_, other⟩ := w.sound.consistent.status_or_held w.idle i
      · rw [← word, busy] at hosting
        rcases hosting with h | h | h <;> cases h
      · rw [pc] at other
        cases other
  | lock pc free =>
      refine ⟨toCargo_step (same (by rw [pc]; rfl)) ?_, awake (by rw [Sys.setAp_self]; rfl)⟩
      rw [pc, Sys.setAp_self]
      exact Nat.lt_succ_self 3
  | branch v w' rc now pc branch =>
      have here := held (by rw [pc]; rfl)
      rw [here] at hosting short
      cases branch with
      | stay _ loaded running _ => rcases hosting with h | h | h <;> contradiction
      | sleep => rcases hosting with h | h | h <;> cases h
      | load =>
          refine ⟨toCargo_part ?_, awake (by rw [Sys.setAp_self]; rfl)⟩
          rw [here, value_of_ap (v := .running) (by rw [Sys.setAp_self]; rfl)]
          exact Nat.lt_succ_self 1
  | notify ts pc found lock =>
      refine ⟨toCargo_step ?_ ?_, awake (by rw [Sys.setAp_self]; rfl)⟩
      · rw [held (by rw [pc]; rfl), value_of_ap (v := .running) (by rw [Sys.setAp_self]; rfl)]
      · rw [pc, Sys.setAp_self]
        exact Nat.lt_succ_self 2
  | silent pc absent =>
      refine ⟨toCargo_part ?_, awake (by rw [Sys.setAp_self]; rfl)⟩
      rw [held (by rw [pc]; rfl), value_of_ap (v := .cargo) (by rw [Sys.setAp_self]; rfl)]
      exact Nat.one_pos
  | discard now pc =>
      rw [held (by rw [pc]; rfl)] at hosting
      rcases hosting with h | h | h <;> cases h
  | clearIdleLock lock pc =>
      have after := congrArg Ap.pc (Sys.setAp_self s i { s.ap i with pc := .atomicUnlock .cargo false })
      refine ⟨toCargo_part ?_, awake (congrArg ApPc.asleep after)⟩
      have value := value_of_ap (v := .cargo) (congrArg ApPc.held after)
      rw [held (by rw [pc]; rfl)]
      exact (congrArg Status.parts value).trans_lt Nat.one_pos
  | incLoad pc =>
      rw [held (by rw [pc]; rfl)] at hosting
      rcases hosting with h | h | h <;> cases h
  | incStore cnt pc =>
      rw [held (by rw [pc]; rfl)] at hosting
      rcases hosting with h | h | h <;> cases h
  | unlock v rc pc =>
      have here := held (by rw [pc]; rfl)
      obtain ⟨loaded, resumes⟩ := w.steady.unlock v rc pc
      rw [here] at hosting short
      obtain rfl : v = .running := by
        rcases hosting with h | h | h
        · exact absurd h loaded
        · exact h
        · exact absurd h short
      obtain rfl := resumes rfl
      refine ⟨toCargo_step (same (by rw [pc]; rfl)) ?_, awake (by rw [Sys.setAp_self]; rfl)⟩
      rw [pc, Sys.setAp_self]
      exact Nat.lt_succ_self 6
  | sti pc =>
      refine ⟨toCargo_step (same (by rw [pc]; rfl)) ?_, fun _ => ?_⟩
      · rw [pc, Sys.setAp_self]
        exact Nat.lt_succ_self 9
      · rw [Sys.setAp_self]
        exact w.nmi (by rw [pc]; rfl)
  | hlt pc =>
      refine ⟨toCargo_step (same (by rw [pc]; rfl)) ?_, fun _ => ?_⟩
      · rw [pc, Sys.setAp_self]
        exact Nat.lt_succ_self 8
      · rw [Sys.setAp_self]
        exact w.nmi (by rw [pc]; rfl)
  | switchtask fpu pc =>
      refine ⟨toCargo_step (same (by rw [pc]; rfl)) ?_, awake (by rw [Sys.setAp_self]; rfl)⟩
      rw [pc, Sys.setAp_self]
      exact Nat.lt_succ_self 5

/-- An AP that is short of `S_CARGO` has a step that brings it closer. -/
theorem Working.closer (w : Working cfg tid i s) (short : s.value i ≠ .cargo) :
    ∃ a t, spares tid a = true ∧ Step cfg s a t ∧ Working cfg tid i t ∧ t.toCargo i < s.toCargo i := by
  have present := w.present
  by_cases halted : (s.ap i).pc = .halted
  · have pending := w.nmi (by rw [halted]; rfl)
    have step : Step cfg s (.nmi i)
        (s.setAp i { s.ap i with nmi := (s.ap i).nmi - 1, pc := .atomicLock }) := by
      change SmpVxd.step cfg s (.nmi i) = _
      simp only [SmpVxd.step, nmiStep, present, halted, Nat.pos_iff_ne_zero.mp pending, if_true, if_false]
    have wakes : NmiStep i s (s.setAp i { s.ap i with nmi := (s.ap i).nmi - 1, pc := .atomicLock }) :=
      .wake (Nat.ne_of_gt pending) halted
    refine ⟨.nmi i, _, rfl, step, w.next step (.setAp rfl rfl) fun asleep => ?_,
      toCargo_step (wakes.value i) ?_⟩
    · rw [Sys.setAp_self] at asleep
      cases asleep
    · rw [halted, Sys.setAp_self]
      exact Nat.le_of_ble_eq_true rfl
  · by_cases away : ∃ tid, (s.ap i).pc = .ring3 tid
    · obtain ⟨tid', pc⟩ := away
      let u : UserRegs := ⟨0, 0, 0, 0, 0, 0, 0, 0, 0, 0⟩
      have step : Step cfg s (.trap i .error u .zero)
          (s.setAp i ((s.ap i).switchBack cfg .error u (trapSp cfg i) .zero)) := by
        change SmpVxd.step cfg s (.trap i .error u .zero) = _
        simp only [SmpVxd.step, trapStep, present, pc, if_true]
      refine ⟨.trap i .error u .zero, _, rfl, step,
        w.next step (trap_frame cfg s i .error u .zero) fun asleep => ?_,
        toCargo_step (trap_value cfg pc .error u .zero i) ?_⟩
      · rw [Sys.setAp_self] at asleep
        cases asleep
      · rw [pc, Sys.setAp_self]
        exact Nat.lt_succ_self 4
    · have off : (s.ap i).pc ≠ .off := by
        intro off
        have hosting := w.hosting
        rw [value_of_ap (v := .ready) (by rw [off]; rfl)] at hosting
        rcases hosting with h | h | h <;> cases h
      obtain ⟨t, taken⟩ : ∃ t, apStep cfg s i 0 0 = some t := apStep_goes off halted (not_exists.mp away)
      have step : Step cfg s (.ap i 0 0) t := by
        change SmpVxd.step cfg s (.ap i 0 0) = _
        simp only [SmpVxd.step, present, if_true, taken]
      have out := apStep_outcome taken
      obtain ⟨less, nmi⟩ := out.toCargo w short
      exact ⟨.ap i 0 0, t, rfl, step, w.next step out.frame nmi, less⟩

/-- The AP can finish what it does for its thread. -/
theorem Working.cargo (w : Working cfg tid i s) :
    ∃ as t, Run (restrict (Step cfg) fun _ a => spares tid a = true) s as t ∧ Working cfg tid i t ∧
      t.value i = .cargo := by
  refine exists_run_of_rank (fun s => s.toCargo i) (fun s w => ?_) w
  by_cases done : s.value i = .cargo
  · exact .inl done
  · obtain ⟨a, t, spared, step, next, less⟩ := w.closer done
    exact .inr ⟨[a], t, .single ⟨spared, step⟩, next, less⟩

/-! ## The thread comes home -/

/-- `reattach` is where `callback_int3` looks for it. -/
theorem int3Target_reattach (cfg : Config) :
    int3Target cfg.kernelFlat (cfg.kernelFlat + smpOffsetReattach) = .reattach := by
  have aligned := cfg.kernelFlat_page
  have page : pSize.toNat = 4096 := rfl
  rw [page] at aligned
  unfold int3Target smpOffsetFly smpOffsetReattach smpFnBlockSize
  rw [if_neg (by bv_omega), if_pos (by bv_omega)]

/-- The operating system can always switch to a thread, away from a blocked one. -/
theorem Sound.switch (sound : Sound cfg s) (idle : s.bsp = .idle) (tid : Dword) :
    ∃ as t, Run (restrict (Step cfg) fun _ a => spares tid a = true) s as t ∧ Sound cfg t ∧ t.bsp = .idle ∧
      t.actTid = tid ∧ ∀ i crs x tid', Delivered tid' i crs x s → Delivered tid' i crs x t := by
  let new : Tcb := ⟨0, .zero⟩
  let old : Tcb := ⟨thflagThreadBlocked, .zero⟩
  have call : Step cfg s (.call (.threadSwitch tid s.actTid new old))
      (threadSwitch cfg s tid s.actTid new old) := by
    change SmpVxd.step cfg s _ = _
    simp only [SmpVxd.step, idle, bspCall]
  have called : (threadSwitch cfg s tid s.actTid new old).bsp = .switchIn tid new := by
    unfold threadSwitch
    split
    · rfl
    · rename_i ts _
      have stays : migrates ts old s.apFreeCnt = false := by
        simp [migrates, old, thflagThreadBlocked]
      rw [stays]
      rfl
  generalize threadSwitch cfg s tid s.actTid new old = u at call called
  have sound' := sound.step call
  have taken : Step cfg u .bsp (switchIn cfg u tid new) := by
    change bspStep cfg u = _
    simp only [bspStep, called]
  have bsp : (switchIn cfg u tid new).bsp = .idle := switchIn_bsp tid new
  have current : (switchIn cfg u tid new).actTid = tid := by
    unfold switchIn
    split
    · rfl
    · rfl
  refine ⟨_, _, .cons ⟨rfl, call⟩ (.single ⟨rfl, taken⟩), sound'.step taken, bsp, current,
    fun i crs x tid' d => ?_⟩
  have there := call.outcome.delivered sound.consistent (sound.engaged i) d (by rintro ⟨⟩)
  exact taken.outcome.delivered sound'.consistent (sound'.engaged i) there
    fun _ => by rw [called]; rintro ⟨⟩

/-- While nothing is called, the BSP does not start anything. -/
theorem idle_stays (uncalled : ∀ op, a ≠ .call op) (idle : s.bsp = .idle) (h : Step cfg s a t) :
    t.bsp = .idle := by
  cases h.outcome with
  | call op t _ _ => exact absurd rfl (uncalled op)
  | bsp t taken =>
      rw [bspStep, idle] at taken
      cases taken
  | ap j now msClock t present step => exact step.frame.bsp.trans idle
  | nmi j t present step => exact step.frame.bsp.trans idle
  | trap j trap u x tid present pc => exact idle
  | compute x idle => exact idle
  | rebuildPd pageDir idle => exact idle

/-- `switch_to_bsp` on its way. -/
theorem Returning.run {crs : Crs} {x : ExtState} {as : List Action} (sound : Sound cfg s)
    (r : Returning cfg tid i crs x s) (uncalled : ∀ a ∈ as, ∀ op, a ≠ .call op)
    (run : Run (Step cfg) s as t)
    (busy : t.bsp ≠ .idle) : Returning cfg tid i crs x t := by
  induction run with
  | nil => exact r
  | @cons s a u as t head rest ih =>
      obtain ⟨first, later⟩ := List.forall_mem_cons.mp uncalled
      have called : s.bsp.isIdle = false := by
        refine Bool.eq_false_of_not_eq_true fun idle => busy ?_
        have after := idle_stays first (Bsp.isIdle_iff.mp idle) head
        exact (rest.restrict_of_forall later).invariant (P := fun u => u.bsp = .idle)
          (fun _ _ _ idle step => idle_stays step.1 idle step.2) after
      exact ih (sound.step head) (r.step sound.consistent (sound.engaged i) called head) later busy

/-- The handler is entered for a thread that an AP is done with. -/
theorem Delivered.called {crs client : Crs} {x : ExtState} (d : Delivered tid i crs x s)
    (inv : Consistent cfg s)
    (current : s.actTid = tid) (target : int3Target cfg.kernelFlat client.clientEip = .reattach) :
    (callbackInt3 cfg s client).bsp.isIdle = false := by
  obtain ⟨ts, found, one, _⟩ := inv.record_of_hosting (i := i) (by rw [d.value]; rfl)
  rw [d.threadId, ← current] at found
  have calls : callbackInt3 cfg s client = { s with bsp := switchToBsp s client s.actTid } := by
    unfold callbackInt3
    rw [target]
  have away : switchToBsp s client s.actTid = .bspLock ⟨s.actTid, client, ts.smpApid⟩ := by
    unfold switchToBsp
    rw [found]
    exact if_pos (by rw [one]; decide)
  rw [calls]
  exact congrArg Bsp.isIdle away

/-- A thread whose AP is done with it comes home. -/
theorem Working.home (w : Working cfg tid i s) (cargo : s.value i = .cargo) :
    ∃ as t crs, Run (restrict (Step cfg) fun _ a => spares tid a = true) s as t ∧
      t.bsp = .restoreClient crs true ∧ ∃ ts, t.tsHt.get tid = some ts ∧ ts.smpStatus = 0 := by
  have threadId := w.sound.consistent.target_threadId w.hosted (by rw [w.idle]; rfl)
  obtain ⟨as, u, switched, sound, idle, current, keeps⟩ := w.sound.switch w.idle tid
  have delivered := keeps i (s.ap i).procState (s.ap i).fpuState tid ⟨cargo, threadId, rfl, rfl⟩
  -- the placeholder executes `reattach`
  obtain ⟨client, target⟩ : ∃ client : Crs, int3Target cfg.kernelFlat client.clientEip = .reattach :=
    ⟨{ Crs.zero with clientEip := cfg.kernelFlat + smpOffsetReattach }, int3Target_reattach cfg⟩
  obtain ⟨v, call, called⟩ : ∃ v, Step cfg u (.call (.int3 client)) v ∧ v.bsp.isIdle = false := by
    refine ⟨callbackInt3 cfg u client, ?_, delivered.called sound.consistent current target⟩
    change SmpVxd.step cfg u _ = _
    simp only [SmpVxd.step, idle, bspCall]
  have returning := delivered.reattach sound.consistent current target call
  obtain ⟨n, m, t, return_, pc⟩ := returning.returns (sound.step call).consistent called
  have quiet : ∀ a ∈ List.replicate n (Action.ap i 0 0) ++ List.replicate m .bsp, ∀ op, a ≠ .call op := by
    intro a member op
    obtain member | member := List.mem_append.mp member
    · rw [List.eq_of_mem_replicate member]
      rintro ⟨⟩
    · rw [List.eq_of_mem_replicate member]
      rintro ⟨⟩
  have there := returning.run (sound.step call) quiet return_ (by rw [pc]; rintro ⟨⟩)
  rw [Returning, pc] at there
  have spared : ∀ a ∈ List.replicate n (Action.ap i 0 0) ++ List.replicate m .bsp, spares tid a = true := by
    intro a member
    obtain member | member := List.mem_append.mp member
    · rw [List.eq_of_mem_replicate member]
      rfl
    · rw [List.eq_of_mem_replicate member]
      rfl
  have reattaches :
      restrict (Step cfg) (fun _ a => spares tid a = true) u (.call (.int3 client)) v := ⟨rfl, call⟩
  exact ⟨_, t, _, switched.append (.cons reattaches (return_.restrict_of_forall spared)), pc,
    there.2.2.record⟩

/-! ## Stranded for good -/

/-- The thread that the operation in progress destroys. -/
def Bsp.destroying : Bsp → Option Dword
  | .destroyLock tid _ | .destroyDiscard tid _ _ | .destroyUnlock tid _ _ | .destroyFree tid => some tid
  | _ => none

theorem BspStep.destroying (h : BspStep cfg s t) :
    t.bsp.destroying = s.bsp.destroying ∨ t.bsp.destroying = none := by
  cases h with
  | goto b go =>
      generalize s.bsp = c at go
      cases go with
      | noAp l _ =>
          right
          dsimp only
          unfold switchToApReturn
          split
          · rfl
          · rfl
      | _ => exact .inr rfl
  | startAp _ _ _ _ => exact .inl rfl
  | awaitAp _ _ => exact .inl rfl
  | spin _ _ _ _ => exact .inl rfl
  | lock cpu next at_ _ =>
      generalize s.bsp = c at at_
      cases at_ with
      | destroy tid cpu => exact .inl rfl
      | _ => exact .inr rfl
  | unlock cpu v b at_ =>
      generalize s.bsp = c at at_
      cases at_ with
      | destroy tid cpu v => exact .inl rfl
      | _ => exact .inr rfl
  | discard tid cpu v pc => exact .inl (by rw [pc]; rfl)
  | decStore l cnt pc =>
      right
      dsimp only
      unfold switchToApReturn
      split
      · rfl
      · rfl
  | switchIn curTid cbsNew pc =>
      right
      rw [switchIn_bsp]
      rfl
  | _ => exact .inr rfl

theorem Outcome.destroying (h : Outcome cfg s a t) (spared : spares tid a = true)
    (away : s.bsp.destroying ≠ some tid) : t.bsp.destroying ≠ some tid := by
  cases h with
  | call op t idle call =>
      rw [idle] at away
      cases call with
      | create tid page => exact idle ▸ away
      | elevate proc lockaddr mode => exact idle ▸ away
      | enter op b ht entry core =>
          cases entry with
          | destroyHosted tid' ts _ _ =>
              simp only [spares, decide_eq_true_eq] at spared
              rintro ⟨⟩
              exact spared rfl
          | destroyOther tid' _ =>
              simp only [spares, decide_eq_true_eq] at spared
              rintro ⟨⟩
              exact spared rfl
          | _ => rintro ⟨⟩
  | bsp t taken =>
      obtain same | none := (bspStep_outcome taken).destroying
      · rwa [same]
      · rw [none]
        rintro ⟨⟩
  | ap j now msClock t present step => rwa [step.frame.bsp]
  | nmi j t present step => rwa [step.frame.bsp]
  | trap j trap u x tid' present pc => exact away
  | compute x idle => exact away
  | rebuildPd pageDir idle => exact away

/-- The AP keeps the thread, which nobody can take from it but by destroying it. -/
structure StillThere (cfg : Config) (tid : Dword) (i : Nat) (s : Sys) : Prop where
  consistent : Consistent cfg s
  stranded : Stranded s i
  threadId : (s.ap i).threadId = tid
  spared : s.bsp.destroying ≠ some tid

theorem StillThere.step (kept : StillThere cfg tid i s) (spared : spares tid a = true)
    (h : Step cfg s a t) :
    StillThere cfg tid i t := by
  obtain ⟨out, value, threadId⟩ := kept.stranded.outOfService.step kept.consistent h
  have loaded : t.value i = .loaded := by
    obtain same | ⟨tid', v, pc⟩ := value
    · rw [same]
      exact kept.stranded.value
    · have ok := kept.consistent.ledger.bsp
      rw [pc] at ok
      have named := kept.consistent.target_threadId ok (by rw [pc]; rfl)
      exact absurd (by rw [pc, ← kept.threadId, named]; rfl) kept.spared
  exact ⟨kept.consistent.step h, ⟨out.asleep, loaded, out.uncalled⟩, threadId.trans kept.threadId,
    h.outcome.destroying spared kept.spared⟩

theorem StillThere.hosted (kept : StillThere cfg tid i s) : s.tsHt.Hosted tid i := by
  obtain ⟨ts, found, one, apid, _⟩ :=
    kept.consistent.record_of_hosting (i := i) (by rw [kept.stranded.value]; rfl)
  rw [kept.threadId] at found
  exact ⟨ts, found, one, apid⟩

/-- A thread that an AP has is either stranded there or can come home. It can come home
exactly if its AP has not lost the wake-up; if the AP has, it never executes anything again
but the rest of `smp_sleep`, whatever happens, and is never found free. -/
theorem comes_home_iff {as : List Action} (run : Run (Step cfg) (initialised cfg) as s)
    (idle : s.bsp = .idle)
    (hosted : s.tsHt.Hosted tid i) :
    ((∃ bs t crs, Run (restrict (Step cfg) fun _ a => spares tid a = true) s bs t ∧
        t.bsp = .restoreClient crs true ∧ ∃ ts, t.tsHt.get tid = some ts ∧ ts.smpStatus = 0) ↔
      ¬ Stranded s i) ∧
    (Stranded s i → ∀ bs t, Run (Step cfg) s bs t → OutOfService t i) := by
  obtain ⟨sound, steady⟩ := run.invariant_with (I := Sound cfg) (P := fun s => Steady s i)
    (fun _ _ _ sound step => sound.step step)
    (fun _ _ _ sound steady step => steady.step sound.consistent step) sound_initialised steady_initialised
  refine ⟨⟨?_, fun free => ?_⟩, fun stranded bs t rest => stranded.outOfService.run sound.consistent rest⟩
  · rintro ⟨bs, t, crs, back, _, ts, found, home⟩ stranded
    have kept : StillThere cfg tid i s := ⟨sound.consistent, stranded,
      sound.consistent.target_threadId hosted (by rw [idle]; rfl), by rw [idle]; rintro ⟨⟩⟩
    have still := back.invariant (P := StillThere cfg tid i)
      (fun _ _ _ kept step => kept.step step.1 step.2) kept
    obtain ⟨ts', found', one, _⟩ := still.hosted
    cases found.symm.trans found'
    cases home.symm.trans one
  · have wakes : (s.ap i).pc.asleep = true → 0 < (s.ap i).nmi := by
      intro asleep
      refine Nat.pos_of_ne_zero fun none => free ⟨asleep, ?_, ?_⟩
      · have before := steady.asleep asleep
        rcases sound.consistent.value_of_hosted idle hosted with h | h | h
        · exact h
        · rw [h] at before
          rcases before with h | h | h <;> cases h
        · rw [h] at before
          rcases before with h | h | h <;> cases h
      · rintro (pending | waking)
        · omega
        · rw [idle] at waking
          cases waking
    have working : Working cfg tid i s := ⟨sound, steady, idle, hosted, wakes⟩
    obtain ⟨bs, u, first, w, cargo⟩ := working.cargo
    obtain ⟨cs, t, crs, second, pc, record⟩ := w.home cargo
    exact ⟨bs ++ cs, t, crs, first.append second, pc, record⟩

/-- Thread 5 comes home from an AP that was awake when it was handed over. From the AP whose
interrupt came between `sti` and `hlt` it never does. -/
theorem comes_home_iff_flight :
    (∃ s, Run (Step oneAp) (initialised oneAp) (elevation 5 0x500 0x9000 1 ++ flight) s ∧
      ∃ bs t crs, Run (restrict (Step oneAp) fun _ a => spares 5 a = true) s bs t ∧
        t.bsp = .restoreClient crs true ∧ ∃ ts, t.tsHt.get 5 = some ts ∧ ts.smpStatus = 0) ∧
    ∃ s, Run (Step oneAp) (initialised oneAp)
        (fallAsleep ++ elevation 5 0x500 0x9000 1 ++ flight ++ [.nmi 1, .ap 1 0 0, .ap 1 0 0]) s ∧
      (∀ bs t, Run (Step oneAp) s bs t → OutOfService t 1) ∧
      ¬ ∃ bs t crs, Run (restrict (Step oneAp) fun _ a => spares 5 a = true) s bs t ∧
        t.bsp = .restoreClient crs true ∧ ∃ ts, t.tsHt.get 5 = some ts ∧ ts.smpStatus = 0 := by
  constructor
  · have computed : (exec (step oneAp) (initialised oneAp) (elevation 5 0x500 0x9000 1 ++ flight)).any
        (fun s => s.bsp.isIdle && !(s.ap 1).pc.asleep &&
          (s.tsHt.get 5).any fun ts => ts.smpStatus = 1 && ts.smpApid == 1) = true := by decide +kernel
    obtain ⟨s, run, checked⟩ := exists_run computed
    simp only [Bool.and_eq_true, Bool.not_eq_true', Option.any_eq_true, decide_eq_true_eq, beq_iff_eq,
      Bsp.isIdle_iff] at checked
    obtain ⟨⟨idle, awake⟩, ts, found, one, apid⟩ := checked
    refine ⟨s, run, (comes_home_iff run idle ⟨ts, found, one, apid⟩).1.mpr fun stranded => ?_⟩
    cases awake.symm.trans stranded.asleep
  · have computed : (exec (step oneAp) (initialised oneAp)
        (fallAsleep ++ elevation 5 0x500 0x9000 1 ++ flight ++ [.nmi 1, .ap 1 0 0, .ap 1 0 0])).any
        (fun s => s.bsp.isIdle && (s.ap 1).pc.asleep && s.value 1 = .loaded && (s.ap 1).nmi == 0 &&
          (s.tsHt.get 5).any fun ts => ts.smpStatus = 1 && ts.smpApid == 1) = true := by decide +kernel
    obtain ⟨s, run, checked⟩ := exists_run computed
    simp only [Bool.and_eq_true, Option.any_eq_true, decide_eq_true_eq, beq_iff_eq,
      Bsp.isIdle_iff] at checked
    obtain ⟨⟨⟨⟨idle, asleep⟩, loaded⟩, none⟩, ts, found, one, apid⟩ := checked
    have stranded : Stranded s 1 := by
      refine ⟨asleep, loaded, ?_⟩
      rintro (pending | waking)
      · exact Nat.lt_irrefl 0 (none ▸ pending)
      · rw [idle] at waking
        cases waking
    obtain ⟨home, out⟩ := comes_home_iff run idle ⟨ts, found, one, apid⟩
    exact ⟨s, run, out stranded, fun back => home.mp back stranded⟩

end SmpVxd
