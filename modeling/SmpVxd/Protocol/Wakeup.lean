import SmpVxd.Protocol.Ownership

/-!
# The wake-up interrupt

An AP gives its word back as `S_SLEEP` before it executes `sti` and `hlt`, and the
BSP sends the wake-up interrupt before it gives the word back as `S_LOADED`. While
the AP is on its way into `hlt` or halted, a thread that was handed to it has an
interrupt in flight or one that the BSP is about to send, unless the interrupt is
delivered on that way: `_dummy_isr` then consumes it and the AP halts all the same.
-/

namespace SmpVxd

open Transition

/-- The AP is inside `smp_sleep`. -/
def ApPc.asleep : ApPc → Bool
  | .sti | .hlt | .halted => true
  | _ => false

/-- The BSP still has to send a wake-up interrupt to slot `i`. -/
def Bsp.waking (i : Nat) : Bsp → Bool
  | .apWakeup l _ => l.cpu == i && l.wakeup
  | _ => false

/-- An interrupt for AP `i` is in flight or about to be sent. -/
def Sys.Called (s : Sys) (i : Nat) : Prop := 0 < (s.ap i).nmi ∨ s.bsp.waking i = true

/-- An AP inside `smp_sleep` has nothing to do, or will be woken. -/
def Awaited (s : Sys) (i : Nat) : Prop :=
  (s.ap i).pc.asleep = true →
    s.value i = .sleep ∨ s.value i = .dircard ∨ s.value i = .loaded ∧ s.Called i

/-- The action does not deliver the only interrupt of an AP that has been handed a
thread while this AP is between its `atomic_unlock` and the end of its `hlt`. -/
def deliveredInTime (s : Sys) : Action → Bool
  | .nmi i =>
      !(((s.ap i).pc = .sti || (s.ap i).pc = .hlt) && s.value i = .loaded && (s.ap i).nmi == 1 &&
        !s.bsp.waking i)
  | _ => true

variable {cfg : Config} {s t : Sys} {a : Action} {i j : Nat}

theorem Awaited.mono (awaited : Awaited s i)
    (asleep : (t.ap i).pc.asleep = true → (s.ap i).pc.asleep = true)
    (value : t.value i = s.value i) (called : s.Called i → t.Called i) : Awaited t i := by
  intro h
  rw [value]
  exact (awaited (asleep h)).imp_right fun h => h.imp_right fun h => ⟨h.1, called h.2⟩

theorem awaited_of_awake (awake : (t.ap i).pc.asleep = false) : Awaited t i := by
  intro asleep
  cases awake.symm.trans asleep

theorem ApStep.awaited (locks : Locks s) (awaited : Awaited s i) (h : ApStep i s t) :
    Awaited t i := by
  have value := h.value locks
  cases h with
  | kernelBoot pc => exact awaited_of_awake (by simp [ApPc.asleep])
  | spin pc busy => exact awaited
  | lock pc free => exact awaited_of_awake (by simp [ApPc.asleep])
  | branch v w rc now pc branch => exact awaited_of_awake (by simp [ApPc.asleep])
  | notify ts pc found lock => exact awaited_of_awake (by simp [ApPc.asleep])
  | silent pc absent => exact awaited_of_awake (by simp [ApPc.asleep])
  | discard now pc => exact awaited_of_awake (by simp [ApPc.asleep])
  | clearIdleLock lock pc => exact awaited_of_awake (by simp [Sys.setAp, ApPc.asleep])
  | incLoad pc => exact awaited_of_awake (by simp [ApPc.asleep])
  | incStore cnt pc => exact awaited_of_awake (by simp [Sys.setAp, ApPc.asleep])
  | unlock v rc pc =>
      have same := value.resolve_right (by rw [pc]; rintro ⟨⟩)
      intro asleep
      rw [same, value_of_ap (by rw [pc]; rfl)]
      left
      by_contra awake
      rw [Sys.setAp_self] at asleep
      simp only [if_neg awake] at asleep
      split at asleep <;> cases asleep
  | sti pc =>
      have same := value.resolve_right (by rw [pc]; rintro ⟨⟩)
      exact awaited.mono (by simp [pc, ApPc.asleep]) same fun called => by
        simpa [Sys.Called] using called
  | hlt pc =>
      have same := value.resolve_right (by rw [pc]; rintro ⟨⟩)
      exact awaited.mono (by simp [pc, ApPc.asleep]) same fun called => by
        simpa [Sys.Called] using called
  | switchtask fpu pc => exact awaited_of_awake (by simp [ApPc.asleep])

theorem ApFrame.awaited (awaited : Awaited s i) (h : ApFrame j s t) (ne : i ≠ j) :
    Awaited t i :=
  awaited.mono (by rw [h.others i ne]; exact id) (h.value ne) (by
    simp only [Sys.Called, h.others i ne, h.bsp]
    exact id)

theorem BspStep.nmi_le (h : BspStep cfg s t) (i : Nat) : (s.ap i).nmi ≤ (t.ap i).nmi := by
  cases h with
  | startAp j pc _ _ =>
      rw [Sys.setAp_apply]
      split <;> simp_all
  | lock cpu next at_ _ =>
      simp only [Sys.setAp, Function.update_apply]
      split <;> simp_all
  | unlock cpu v b at_ =>
      simp only [Sys.setAp, Function.update_apply]
      split <;> simp_all
  | handOff l v ts pc found => exact (handOff_ap cfg s l v ts i).2.2.ge
  | wakeup l v pc _ =>
      simp only [Sys.setAp, Function.update_apply]
      split <;> simp_all
  | switchIn curTid cbsNew pc => rw [switchIn_ap]
  | _ => exact le_rfl

theorem Bsp.waking_iff {b : Bsp} :
    b.waking i = true ↔ ∃ l v, b = .apWakeup l v ∧ l.cpu = i ∧ l.wakeup = true := by
  cases b <;> simp [Bsp.waking]

/-- The BSP takes no interrupt back, and it sends the one that it has to send. -/
theorem BspStep.called (h : BspStep cfg s t) (called : s.Called i) : t.Called i := by
  obtain pos | waking := called
  · exact .inl (pos.trans_le (h.nmi_le i))
  · obtain ⟨l, v, pc, rfl, wakeup⟩ := Bsp.waking_iff.mp waking
    have pcs : ∀ b, s.bsp = b → b = .apWakeup l v := fun b h => h.symm.trans pc
    cases h with
    | goto b h =>
        rw [pc] at h
        cases h with
        | noWakeup _ _ asleep => cases wakeup.symm.trans asleep
    | spin cpu next at_ _ =>
        rw [pc] at at_
        cases at_
    | lock cpu next at_ _ =>
        rw [pc] at at_
        cases at_
    | unlock cpu v b at_ =>
        rw [pc] at at_
        cases at_
    | wakeup l' v' pc' _ =>
        cases pcs _ pc'
        refine .inl ?_
        simp [Sys.setAp]
    | startAp _ pc' _ _ => cases pcs _ pc'
    | awaitAp _ pc' => cases pcs _ pc'
    | discard _ _ _ pc' => cases pcs _ pc'
    | free _ pc' => cases pcs _ pc'
    | setIdleLock _ _ _ pc' _ _ _ => cases pcs _ pc'
    | handOff _ _ _ pc' _ => cases pcs _ pc'
    | decStore _ _ pc' => cases pcs _ pc'
    | takeBack _ pc' => cases pcs _ pc'
    | incStore _ _ pc' => cases pcs _ pc'
    | switchIn _ _ pc' => cases pcs _ pc'

/-- A hand-off to an AP inside `smp_sleep` finds `S_SLEEP`, so the BSP will send the
interrupt before it gives the word back. -/
theorem bspStep_awaited (locks : Locks s) (ledger : Ledger cfg s) (awaited : Awaited s i)
    (h : bspStep cfg s = some t) : Awaited t i := by
  have out := bspStep_outcome h
  have asleep : (t.ap i).pc.asleep = true → (s.ap i).pc.asleep = true := by
    obtain same | ⟨_, boot⟩ := out.pc i
    · rw [same]
      exact id
    · rw [boot]
      rintro ⟨⟩
  obtain same | move := out.value locks i
  · exact awaited.mono asleep same out.called
  · intro now
    have before := awaited (asleep now)
    have ok := ledger.bsp
    generalize after : t.value i = w at move ⊢
    generalize value : s.value i = v at move before
    generalize pc : s.bsp = b at move ok
    cases move with
    | handOff l v cpu =>
        have free := ok.2.2.2.2
        have sleeping : v = .sleep := by
          obtain same | other | ⟨other, _⟩ := before
          · exact same
          · cases other ▸ free
          · cases other ▸ free
        obtain ⟨ts, _, rfl⟩ := bspStep_apStore pc h
        refine .inr (.inr ⟨rfl, .inr ?_⟩)
        simp [handOff, Bsp.waking, cpu, sleeping]
    | takeBack l cpu => rcases before with h | h | ⟨h, _⟩ <;> cases h
    | discard tid v => exact .inr (.inl rfl)

theorem NmiStep.awaited (awaited : Awaited s i) (inTime : deliveredInTime s (.nmi i) = true)
    (h : NmiStep i s t) : Awaited t i := by
  have value := h.value i
  cases h with
  | wake _ halted => exact awaited_of_awake (by simp [ApPc.asleep])
  | dummy nmi running =>
      intro asleep
      rw [Sys.setAp_self] at asleep
      change (s.ap i).pc.asleep = true at asleep
      rw [value]
      refine (awaited asleep).imp_right fun h => h.imp_right fun known => ⟨known.1, ?_⟩
      obtain ⟨loaded, called⟩ := known
      obtain pos | waking := called
      · -- the interrupt is consumed, so it must not be the only one
        have entering : (s.ap i).pc = .sti ∨ (s.ap i).pc = .hlt := by
          generalize (s.ap i).pc = pc at asleep running ⊢
          cases pc <;> simp_all [ApPc.asleep]
        by_cases waking : s.bsp.waking i = true
        · exact .inr waking
        · have several : (s.ap i).nmi ≠ 1 := by
            intro one
            rcases entering with pc | pc <;>
              simp [deliveredInTime, pc, loaded, one, waking] at inTime
          refine .inl ?_
          simp only [Sys.setAp_self]
          omega
      · exact .inr waking

theorem Outcome.awaited (inv : Consistent cfg s) (inTime : deliveredInTime s a = true)
    (h : Outcome cfg s a t) (awaited : Awaited s i) : Awaited t i := by
  cases h with
  | call op t idle call =>
      refine awaited.mono (by rw [call.ap]; exact id) (call.value idle i) fun called => ?_
      obtain pos | waking := called
      · exact .inl (call.ap ▸ pos)
      · rw [idle] at waking
        cases waking
  | bsp t h => exact bspStep_awaited inv.locks inv.ledger awaited h
  | ap j now msClock t present h =>
      by_cases same : i = j
      · subst same
        exact h.awaited inv.locks awaited
      · exact h.frame.awaited awaited same
  | nmi j t present h =>
      by_cases same : i = j
      · subst same
        exact h.awaited awaited inTime
      · exact h.frame.awaited awaited same
  | trap j trap u x tid present pc =>
      by_cases same : i = j
      · subst same
        exact awaited_of_awake (by simp [Ap.switchBack, ApPc.asleep])
      · exact (trap_frame cfg s j trap u x).awaited awaited same
  | compute x idle => exact awaited
  | rebuildPd pageDir idle => exact awaited

/-- No thread is stranded on a sleeping AP, provided that no wake-up interrupt is lost
between `atomic_unlock` and `hlt`. -/
theorem no_lost_wakeup {as : List Action}
    (run : Run (restrict (Step cfg) fun s a => deliveredInTime s a = true) (initialised cfg) as t)
    (i : Nat) :
    ¬((t.ap i).pc = .halted ∧ (t.ap i).nmi = 0 ∧ t.bsp.held i = none ∧
      (t.ap i).status = .loaded) := by
  have start : Awaited (initialised cfg) i := awaited_of_awake rfl
  obtain ⟨inv, awaited⟩ := run.invariant_with (I := Consistent cfg) (P := fun s => Awaited s i)
    (fun s a t inv step => inv.step step.2)
    (fun s a t inv awaited step => step.2.outcome.awaited inv step.1 awaited)
    consistent_initialised start
  rintro ⟨halted, none, released, loaded⟩
  have value : t.value i = .loaded := by
    rw [inv.locks.value_of_free (by rw [loaded]; decide), loaded]
  obtain h | h | ⟨_, pos | waking⟩ := awaited (by rw [halted]; rfl)
  · cases value.symm.trans h
  · cases value.symm.trans h
  · omega
  · obtain ⟨l, v, pc, rfl, _⟩ := Bsp.waking_iff.mp waking
    rw [pc] at released
    cases (Bsp.held_of_lock rfl).symm.trans released

/-- AP 1 finds nothing to do and gives its word back as `S_SLEEP`. -/
def fallAsleep : List Action := List.replicate 3 (.ap 1 0 0)

/-- A thread is handed to the AP, which then halts and is woken. -/
theorem no_lost_wakeup_woken :
    ∃ as t, Run (restrict (Step oneAp) fun s a => deliveredInTime s a = true)
        (initialised oneAp) as t ∧
      (t.ap 1).pc = .atomicLock ∧ (t.ap 1).status = .loaded ∧
      ¬((t.ap 1).pc = .halted ∧ (t.ap 1).nmi = 0 ∧ t.bsp.held 1 = none ∧
        (t.ap 1).status = .loaded) := by
  have computed : (exec (guard (step oneAp) deliveredInTime) (initialised oneAp)
      (fallAsleep ++ elevation 5 0x500 0x9000 1 ++ flight ++
        [.ap 1 0 0, .ap 1 0 0, .nmi 1])).any
      (fun t => (t.ap 1).pc = .atomicLock && (t.ap 1).status = .loaded) = true := by
    decide +kernel
  obtain ⟨t, run, checked⟩ := exists_run_restrict computed
  simp only [Bool.and_eq_true, decide_eq_true_eq] at checked
  exact ⟨_, t, run, checked.1, checked.2, no_lost_wakeup run 1⟩

/-- The interrupt is delivered before `hlt`: the AP halts with a loaded thread, and
nothing in flight will ever wake it. -/
theorem wakeup_lost :
    ∃ as t, Run (Step oneAp) (initialised oneAp) as t ∧
      (t.ap 1).pc = .halted ∧ (t.ap 1).nmi = 0 ∧ t.bsp.held 1 = none ∧
        (t.ap 1).status = .loaded := by
  have computed : (exec (step oneAp) (initialised oneAp)
      (fallAsleep ++ elevation 5 0x500 0x9000 1 ++ flight ++
        [.nmi 1, .ap 1 0 0, .ap 1 0 0])).any
      (fun t => (t.ap 1).pc = .halted && (t.ap 1).nmi == 0 && t.bsp.held 1 = none &&
        (t.ap 1).status = .loaded) = true := by
    decide +kernel
  obtain ⟨t, run, checked⟩ := exists_run computed
  simp only [Bool.and_eq_true, decide_eq_true_eq, beq_iff_eq] at checked
  exact ⟨_, t, run, checked.1.1.1, checked.1.1.2, checked.1.2, checked.2⟩

end SmpVxd
