import SmpVxd.Protocol.Release

/-!
# Exceptions in the AP kernel

The interrupt table of an AP leads every exception to `switch_back`, which does not
look at the saved CS. An exception of the thread that runs on the AP is what it is
made for. One that `smp_ap_main` raises itself is saved as if it were the context
of the thread, and the AP begins again at `goentry` with whatever it held.
-/

namespace SmpVxd

open Transition WordLock

/-- The AP executes `smp_ap_main`, or `smp_sleep` for it. -/
def ApPc.inMain : ApPc → Bool
  | .atomicLock | .switch _ | .clearIdleLock _ | .incLoad | .incStore _ | .atomicUnlock _ _
  | .sti | .hlt => true
  | .off | .kernelBoot | .halted | .switchtask | .ring3 _ => false

/-- The actions of the machine, and an exception in ring 0 of an AP. -/
inductive FaultAction where
  | base (a : Action)
  | exception (i : Nat) (trap : Trap) (u : UserRegs) (sp : Dword) (x : ExtState)

/-- `u` and `x` are the registers of the kernel at the statement that faults, and `sp`
is its stack pointer at the `pushad`. -/
def faultStep (cfg : Config) (s : Sys) : FaultAction → Option Sys
  | .base a => step cfg s a
  | .exception i trap u sp x =>
      if cfg.present i ∧ (s.ap i).pc.inMain then
        some (s.setAp i ((s.ap i).switchBack cfg trap u sp x))
      else none

abbrev FaultStep (cfg : Config) : Sys → FaultAction → Sys → Prop := graph (faultStep cfg)

/-- No exception is raised in ring 0. -/
def FaultAction.inRing3 : FaultAction → Bool
  | .base _ => true
  | .exception _ _ _ _ _ => false

variable {cfg : Config} {s t : Sys} {a : Action} {i : Nat} {v : Status}

/-- The stores to the context of an AP: the one of the thread that is handed over, and
the one of the thread that traps there. -/
theorem Outcome.procState (engaged : Engaged s i) (h : Outcome cfg s a t) :
    (t.ap i).procState = (s.ap i).procState ∨
      (∃ l v, a = .bsp ∧ s.bsp = .apStore l v ∧ l.cpu = i ∧
        (t.ap i).threadId = l.threadId ∧ (t.ap i).procState = l.crs) ∨
      ∃ trap u x, a = .trap i trap u x ∧ (s.ap i).pc = .ring3 (s.ap i).threadId ∧
        (t.ap i).procState =
          switchBack cfg.kernelFlat trap u (trapSp cfg i) (s.ap i).procState := by
  cases h with
  | call op t idle call => exact .inl (by rw [call.ap])
  | bsp t h =>
      obtain same | ⟨l, v, pc, cpu, threadId, stored⟩ := (bspStep_outcome h).context i
      · exact .inl same.2.1
      · exact .inr (.inl ⟨l, v, rfl, pc, cpu, threadId, stored⟩)
  | ap j now msClock t present h =>
      by_cases same : i = j
      · subst same
        exact .inl h.context.1
      · exact .inl (by rw [h.frame.others i same])
  | nmi j t present h =>
      by_cases same : i = j
      · subst same
        refine .inl ?_
        cases h <;> simp
      · exact .inl (by rw [h.frame.others i same])
  | trap j trap u x tid present pc =>
      by_cases same : i = j
      · subst same
        refine .inr (.inr ⟨trap, u, x, rfl, ?_, ?_⟩)
        · rw [pc, engaged.tid tid pc]
        · rw [Sys.setAp_self]
          rfl
      · exact .inl (by rw [Sys.setAp_ne _ _ _ same])
  | compute x idle => exact .inl rfl
  | rebuildPd pageDir idle => exact .inl rfl

/-- Nothing that any CPU may do gives back a word that nobody holds. -/
theorem FaultStep.orphaned {a : FaultAction} (h : FaultStep cfg s a t)
    (orphaned : Orphaned .busy (s.word i)) : Orphaned .busy (t.word i) := by
  change faultStep cfg s a = some t at h
  cases a with
  | base a => exact orphaned.step ((Step.outcome h).word i)
  | exception j trap u sp x =>
      simp only [faultStep, Option.ite_none_right_eq_some, Option.some.injEq] at h
      obtain ⟨_, rfl⟩ := h
      by_cases same : i = j
      · subst same
        refine ⟨?_, ?_⟩
        · simpa [Sys.word, Ap.switchBack] using orphaned.1
        · rintro (_ | _)
          · simp [Sys.word, Ap.switchBack, ApPc.held]
          · exact orphaned.2 .bsp
      · refine orphaned.step (word_stay ?_ ?_ rfl)
        · rw [Sys.setAp_ne _ _ _ same]
        · rw [Sys.setAp_ne _ _ _ same]

/-- A word is taken by exactly one CPU, and this CPU gives it back by executing alone. -/
def Returns (cfg : Config) (s : Sys) (i : Nat) : Prop :=
  ∃! agent, ∃ v, (s.word i).held agent = some v ∧
    ∃ n t, Run (FaultStep cfg) s (List.replicate n (.base (match agent with
      | .ap => .ap i 0 0
      | .bsp => .bsp))) t ∧ (t.ap i).status ≠ .busy

theorem faultRun_base {n : Nat} (run : Run (Step cfg) s (List.replicate n a) t) :
    Run (FaultStep cfg) s (List.replicate n (.base a)) t := by
  induction n generalizing s with
  | zero =>
      cases run
      exact .nil _
  | succ n ih =>
      cases run with
      | cons head rest => exact .cons head (ih rest)

theorem Sound.returns (sound : Sound cfg s) (present : cfg.present i = true)
    (busy : (s.ap i).status = .busy) : Returns cfg s i := by
  obtain ⟨agent, v, held⟩ := (sound.consistent.locks i).held_of_busy busy
  refine ⟨agent, ⟨v, held, ?_⟩, fun other returns =>
    (sound.consistent.locks i).unique returns.choose_spec.1 held⟩
  cases agent with
  | ap =>
      have started : (s.ap i).pc ≠ .off := by
        intro off
        have booted := sound.booted i
        rw [off] at booted
        cases booted
      obtain ⟨n, t, run, free, _⟩ := sound.consistent.ap_release (K := fun _ => True)
        (fun _ _ _ _ _ => trivial) present started held trivial
      exact ⟨n, t, faultRun_base run, free⟩
  | bsp =>
      obtain ⟨n, t, run, free⟩ := sound.consistent.bsp_release (Bsp.lock_of_held held)
      exact ⟨n, t, faultRun_base run, free⟩

/-- Without an exception in ring 0, the context of an AP is overwritten only with the
registers of the thread that is handed over to it or that traps on it, and a word
that is taken is always given back. Every exception in ring 0 does overwrite the
context with the registers of the kernel. -/
theorem no_ring0_fault {as : List FaultAction}
    (run : Run (restrict (FaultStep cfg) fun _ a => a.inRing3 = true) (initialised cfg) as s) :
    (∀ a t i, a.inRing3 = true → FaultStep cfg s a t →
      (t.ap i).procState = (s.ap i).procState ∨
        (∃ l v, a = .base .bsp ∧ s.bsp = .apStore l v ∧ l.cpu = i ∧
          (t.ap i).threadId = l.threadId ∧ (t.ap i).procState = l.crs) ∨
        ∃ trap u x, a = .base (.trap i trap u x) ∧ (s.ap i).pc = .ring3 (s.ap i).threadId ∧
          (t.ap i).procState =
            switchBack cfg.kernelFlat trap u (trapSp cfg i) (s.ap i).procState) ∧
    (∀ i, cfg.present i = true → (s.ap i).status = .busy → Returns cfg s i) ∧
    ∀ i trap u sp x t, FaultStep cfg s (.exception i trap u sp x) t →
      (∀ tid, (s.ap i).pc ≠ .ring3 tid) ∧
        (t.ap i).procState = switchBack cfg.kernelFlat trap u sp (s.ap i).procState := by
  have sound : Sound cfg s := run.invariant
    (fun s a t sound step => by
      obtain ⟨ring3, step⟩ := step
      cases a with
      | base a => exact sound.step step
      | exception i trap u sp x => cases ring3)
    sound_initialised
  refine ⟨fun a t i ring3 h => ?_, fun i present busy => sound.returns present busy,
    fun i trap u sp x t h => ?_⟩
  · cases a with
    | exception j trap u sp x => cases ring3
    | base a =>
        rcases (Step.outcome h).procState (sound.engaged i) with
          same | ⟨l, v, rfl, rest⟩ | ⟨trap, u, x, rfl, rest⟩
        · exact .inl same
        · exact .inr (.inl ⟨l, v, rfl, rest⟩)
        · exact .inr (.inr ⟨trap, u, x, rfl, rest⟩)
  · change faultStep cfg s _ = some t at h
    simp only [faultStep, Option.ite_none_right_eq_some, Option.some.injEq] at h
    obtain ⟨⟨_, inMain⟩, rfl⟩ := h
    refine ⟨fun tid pc => ?_, ?_⟩
    · rw [pc] at inMain
      cases inMain
    · rw [Sys.setAp_self]
      rfl

theorem no_ring0_fault_notification :
    ∃ s, Run (restrict (FaultStep oneAp) fun _ a => a.inRing3 = true) (initialised oneAp)
        (notification.map .base) s ∧
      (s.ap 1).status = .busy ∧ Returns oneAp s 1 := by
  have computed : (exec (guard (faultStep oneAp) fun _ a => a.inRing3) (initialised oneAp)
      (notification.map .base)).any (fun s => (s.ap 1).status = .busy) = true := by decide +kernel
  obtain ⟨s, run, busy⟩ := exists_run_restrict computed
  simp only [decide_eq_true_eq] at busy
  exact ⟨s, run, busy, (no_ring0_fault run).2.1 1 rfl busy⟩

/-- The registers of the kernel where it stores to the lock word. -/
def kernelRegs : UserRegs := ⟨0x9000, 0, 0, 0, 0xC1007F00, 0xC1007F20, 0, 0, 0xC0412345, 0x206⟩

/-- The store to the lock word of thread 5 faults. The context of the thread is lost,
and no continuation ever gives the word of the AP back. -/
theorem fault_orphans_word :
    ∃ s t, Run (FaultStep oneAp) (initialised oneAp) (notification.map .base) s ∧
      (s.ap 1).pc = .clearIdleLock 0x9000 ∧
      FaultStep oneAp s (.exception 1 .errorCode kernelRegs 0xC1007F00 .zero) t ∧
      (s.ap 1).procState.clientEip = 0xC1000412 ∧ (t.ap 1).procState.clientEip = kernelRegs.eip ∧
      ∀ as r, Run (FaultStep oneAp) t as r → (r.ap 1).status = .busy := by
  have computed : (exec (faultStep oneAp) (initialised oneAp) (notification.map .base)).any
      (fun s => (s.ap 1).pc = .clearIdleLock 0x9000 && (s.ap 1).status = .busy && s.bsp.isIdle &&
        (s.ap 1).procState.clientEip = 0xC1000412) = true := by decide +kernel
  obtain ⟨s, run, checked⟩ := exists_run computed
  simp only [Bool.and_eq_true, decide_eq_true_eq, Bsp.isIdle_iff] at checked
  obtain ⟨⟨⟨pc, busy⟩, idle⟩, eip⟩ := checked
  refine ⟨s, s.setAp 1 ((s.ap 1).switchBack oneAp .errorCode kernelRegs 0xC1007F00 .zero), run, pc,
    ?_, eip, ?_, fun as r later => ?_⟩
  · change faultStep oneAp s _ = some _
    rw [faultStep, if_pos ⟨rfl, by rw [pc]; rfl⟩]
  · rw [Sys.setAp_self]
    rfl
  · refine (later.invariant (P := fun s => Orphaned .busy (s.word 1))
      (fun _ _ _ orphaned step => FaultStep.orphaned step orphaned) ⟨?_, ?_⟩).1
    · simpa [Sys.word, Ap.switchBack] using busy
    · rintro (_ | _)
      · simp [Sys.word, Ap.switchBack, ApPc.held]
      · simp [Sys.word, idle, Bsp.held, Bsp.lock]

end SmpVxd
