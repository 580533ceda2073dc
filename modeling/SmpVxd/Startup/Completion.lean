import SmpVxd.Startup.Safety
import SmpVxd.Transition.Progress
import Mathlib.Algebra.BigOperators.Intervals

/-!
# `smp_init_bsp` returns

The loops of `smp_init_bsp` that wait have no bound of their own. What is left to do is
counted here: statements of the BSP, instructions of the APs and messages. Every step but a
failed poll is one less.
-/

namespace SmpVxd.Startup

open X86 Transition

variable (cfg : Setup)

/-- The statements for a slot, the test of the loop, four messages, the boot code and
`_kernel_boot`. -/
def Setup.slotMoves (i : Nat) : Nat :=
  if cfg.registered i then slotLength + 1 + 4 + (bootCode.length + 1) else 1

def Setup.movesFrom (i : Nat) : Nat := ∑ j ∈ Finset.Ico i (cfg.ttableMax + 1), cfg.slotMoves j

/-- What is left when all slots are done. -/
def epilogue : Nat := Boot.pageBackupSize + 3

def Setup.totalMoves : Nat :=
  1 + (Boot.pageBackupSize + 1) + (apbootLen + 1) + 2 + cfg.movesFrom 0 + epilogue

/-- The instructions that the processor has still to execute. -/
def CpuPc.work : CpuPc → Nat
  | .halted | .waitSipi => bootCode.length + 1
  | .boot n => bootCode.length + 1 - n
  | .kernelBoot => 1
  | .running | .lost => 0

/-- The messages that are to be sent to the AP of the slot, and the one in flight. -/
def owed (k : Nat) (flight : Bool) : Nat := 4 - sentCount k + flight.toNat

def left (s : State) : Nat :=
  match s.bsp with
  | .apicBase => cfg.totalMoves
  | .backup k => (Boot.pageBackupSize + 1 - k) + (apbootLen + 1) + 2 + cfg.movesFrom 0 + epilogue
  | .install k => (apbootLen + 1 - k) + 2 + cfg.movesFrom 0 + epilogue
  | .svr => 2 + cfg.movesFrom 0 + epilogue
  | .waitIdle => 1 + cfg.movesFrom 0 + epilogue
  | .slot i k =>
      if i ≤ cfg.ttableMax ∧ cfg.registered i = true then
        (slotLength + 1 - k) + owed k s.flight.isSome + (s.cpu i).pc.work + cfg.movesFrom (i + 1) + epilogue
      else cfg.movesFrom i + epilogue
  | .restore k => Boot.pageBackupSize + 2 - k
  | .restoreBase => 1
  | .returned => 0

/-- The counters of the loops. -/
def InRange (s : State) : Prop :=
  match s.bsp with
  | .backup k | .restore k => k ≤ Boot.pageBackupSize
  | .install k => k ≤ apbootLen
  | .slot i k => i ≤ cfg.ttableMax + 1 ∧ k ≤ slotLength
  | _ => True

/-- A statement of the BSP that stays where it is has polled in vain. -/
def moved (s : State) : Action → Option Action
  | .bsp => if (bspStep cfg s).any (fun t => t.bsp = s.bsp) then none else some .bsp
  | a => some a

variable {cfg} {s t : State} {a : Action} {i j k : Nat} {sent : List (Nat × Ipi)}

theorem movesFrom_succ (within : i ≤ cfg.ttableMax) :
    cfg.movesFrom i = cfg.slotMoves i + cfg.movesFrom (i + 1) :=
  Finset.sum_eq_sum_Ico_succ_bot (Nat.lt_succ_of_le within) _

theorem movesFrom_past (past : cfg.ttableMax < i) : cfg.movesFrom i = 0 := by
  unfold Setup.movesFrom
  rw [Finset.Ico_eq_empty (by omega), Finset.sum_empty]

theorem left_slot (pc : s.bsp = .slot i k) (within : i ≤ cfg.ttableMax) (reg : cfg.registered i = true) :
    left cfg s = (slotLength + 1 - k) + owed k s.flight.isSome + (s.cpu i).pc.work +
      cfg.movesFrom (i + 1) + epilogue := by
  simp only [left, pc, within, reg, and_self, if_true]

/-- At the start of a slot everything of it is left. -/
theorem left_first (pc : s.bsp = .slot i 0) (idle : s.flight = none)
    (reached : Reached cfg s i (stage cfg s i)) : left cfg s = cfg.movesFrom i + epilogue := by
  by_cases started : i ≤ cfg.ttableMax ∧ cfg.registered i = true
  · obtain ⟨within, reg⟩ := started
    rw [stage_slot pc within reg] at reached
    have halted : (s.cpu i).pc = .halted := reached.1
    rw [left_slot pc within reg, movesFrom_succ within, idle, halted]
    simp only [Setup.slotMoves, reg, if_true]
    rfl
  · simp only [left, pc, started, if_false]

theorem InRange.step (range : InRange cfg s) (h : Step cfg s a t) : InRange cfg t := by
  have quiet (bsp : t.bsp = s.bsp) : InRange cfg t := by
    unfold InRange at range ⊢
    rw [bsp]
    exact range
  cases a with
  | bsp =>
      have out : BspStep cfg s t := bspStep_outcome h
      cases out with
      | poll _ _ => exact range
      | apicBase _ | backedUp _ _ _ | past _ _ _ _ => exact Nat.zero_le _
      | installed _ _ _ | svr _ | restored _ _ _ | restoreBase _ => trivial
      | idle _ => exact ⟨Nat.zero_le _, Nat.zero_le _⟩
      | backup k _ lt | restore k _ lt => exact lt
      | install k b _ found =>
          have lt := (List.getElem?_eq_some_iff.mp found).1
          rw [cfg.apboot_len] at lt
          exact lt
      | skip i k _ within _ | next i k _ within _ _ => exact ⟨Nat.succ_le_succ within, Nat.zero_le _⟩
      | stmt i k x pc within _ at_ =>
          obtain same | ⟨next, _⟩ := (slotCode_at at_).progress (s := s)
          · exact quiet (congrArg State.bsp same)
          · have lt := (slotCode_at at_).lt
            simp only [InRange, next]
            exact ⟨Nat.le_succ_of_le within, lt⟩
  | cpu i =>
      have out : CpuStep cfg s i t := cpuStep_outcome h
      exact quiet out.frame.1.1
  | deliver =>
      obtain ⟨d, ipi, out⟩ := deliverStep_outcome h
      exact quiet out.bsp

/-! ## Every step counts -/

/-- What a statement that polls waits for: a message is in flight, or the AP of the slot has
not come to its word yet. -/
def Blocked (cfg : Setup) (s : State) : Prop :=
  s.flight.isSome = true ∨ ∃ i, Reached cfg s i .started ∧ s.status i = .busy

/-- A message that is sent is owed no longer, but in flight. -/
theorem StmtAt.owed {x : Stmt} (h : StmtAt cfg i k x) (idle : pending k = none → s.flight = none) :
    x.exec cfg s i (.slot i (k + 1)) = s ∧ (s.flight.isSome = true ∨ k = 29 ∧ s.status i = .busy) ∨
      (x.exec cfg s i (.slot i (k + 1))).bsp = .slot i (k + 1) ∧
        Startup.owed (k + 1) (x.exec cfg s i (.slot i (k + 1))).flight.isSome =
          Startup.owed k s.flight.isSome := by
  cases h with
  | copyPd => exact .inr ⟨rfl, rfl⟩
  | mapBoot => exact .inr ⟨rfl, rfl⟩
  | waitReady =>
      simp only [Stmt.exec]
      split
      · exact .inl ⟨rfl, .inr ⟨trivial, ‹_›⟩⟩
      · exact .inr ⟨rfl, rfl⟩
  | field j f found =>
      have below : j < 10 := (List.getElem?_eq_some_iff.mp found).1
      refine .inr ⟨rfl, ?_⟩
      simp only [Startup.owed, sentCount, Stmt.exec]
      rw [if_pos (by omega), if_pos (by omega)]
  | select _ k_ =>
      refine .inr ⟨rfl, ?_⟩
      obtain rfl | rfl | rfl | rfl := k_ <;> rfl
  | clearErrors _ k_ =>
      refine .inr ⟨rfl, ?_⟩
      obtain rfl | rfl := k_ <;> rfl
  | delay _ k_ =>
      refine .inr ⟨rfl, ?_⟩
      obtain rfl | rfl | rfl := k_ <;> rfl
  | waitDelivery _ k_ =>
      simp only [Stmt.exec]
      split
      · exact .inl ⟨rfl, .inl ((icr_pending s).mp ‹_›)⟩
      · refine .inr ⟨rfl, ?_⟩
        obtain rfl | rfl | rfl | rfl := k_ <;> rfl
  | init | deassert =>
      rw [idle rfl]
      exact .inr ⟨rfl, rfl⟩
  | startup _ k_ =>
      obtain rfl | rfl := k_ <;>
      · rw [idle rfl]
        exact .inr ⟨rfl, rfl⟩

theorem BspStep.left (safe : Safe cfg s sent) (range : InRange cfg s) (after : Safe cfg t sent')
    (h : BspStep cfg s t) : t = s ∧ Blocked cfg s ∨ t.bsp ≠ s.bsp ∧ left cfg t + 1 = left cfg s := by
  cases h with
  | poll _ delivering => exact .inl ⟨rfl, .inl ((icr_pending s).mp delivering)⟩
  | apicBase pc =>
      refine .inr ⟨by simp [pc], ?_⟩
      simp only [Startup.left, pc, Setup.totalMoves]
      omega
  | backup k pc lt =>
      refine .inr ⟨by simp [pc], ?_⟩
      simp only [Startup.left, pc]
      omega
  | backedUp k pc le =>
      refine .inr ⟨by simp [pc], ?_⟩
      simp only [InRange, pc] at range
      simp only [Startup.left, pc]
      omega
  | install k b pc found =>
      have lt := (List.getElem?_eq_some_iff.mp found).1
      rw [cfg.apboot_len] at lt
      refine .inr ⟨by simp [pc], ?_⟩
      simp only [Startup.left, pc]
      omega
  | installed k pc le =>
      refine .inr ⟨by simp [pc], ?_⟩
      simp only [InRange, pc] at range
      simp only [Startup.left, pc]
      omega
  | svr pc =>
      refine .inr ⟨by simp [pc], ?_⟩
      simp only [Startup.left, pc]
      omega
  | idle pc =>
      refine .inr ⟨by simp [pc], ?_⟩
      rw [left_first rfl (after.apic.idle rfl rfl) (after.reached 0)]
      simp only [Startup.left, pc]
      omega
  | past i k pc past =>
      refine .inr ⟨by simp [pc], ?_⟩
      simp only [Startup.left, pc, Nat.not_le.mpr past, false_and, if_false, movesFrom_past past, epilogue]
      omega
  | skip i k pc within unregistered =>
      refine .inr ⟨by simp [pc], ?_⟩
      rw [left_first rfl (after.apic.idle rfl rfl) (after.reached (i + 1))]
      simp only [Startup.left, pc, unregistered, Bool.false_eq_true, and_false, if_false,
        movesFrom_succ within, Setup.slotMoves]
      omega
  | next i k pc within reg late =>
      refine .inr ⟨by simp [pc], ?_⟩
      simp only [InRange, pc] at range
      obtain rfl : k = slotLength := Nat.le_antisymm range.2 late
      have reached := safe.reached i
      rw [stage_slot pc within reg, progress_late late] at reached
      rw [left_first rfl (after.apic.idle rfl rfl) (after.reached (i + 1)), left_slot pc within reg,
        safe.apic.idle pc rfl, reached.2.1]
      have sent : Startup.owed slotLength false = 0 := rfl
      have runs : CpuPc.running.work = 0 := rfl
      simp only [Option.isSome_none, sent, runs]
      omega
  | stmt i k x pc within reg at_ =>
      obtain ⟨cpu, _⟩ := (slotCode_at at_).frame (s := s)
      obtain ⟨same, waits⟩ | ⟨next, owed⟩ := (slotCode_at at_).owed (safe.apic.idle pc)
      · refine .inl ⟨same, ?_⟩
        obtain sent | ⟨rfl, busy⟩ := waits
        · exact .inl sent
        · have reached := safe.reached i
          rw [stage_slot pc within reg, safe.apic.idle pc rfl] at reached
          exact .inr ⟨i, reached, busy⟩
      · have lt := (slotCode_at at_).lt
        refine .inr ⟨by simp [pc, next], ?_⟩
        rw [left_slot next within reg, left_slot pc within reg, owed, cpu]
        omega
  | restore k pc lt =>
      refine .inr ⟨by simp [pc], ?_⟩
      simp only [Startup.left, pc]
      omega
  | restored k pc le =>
      refine .inr ⟨by simp [pc], ?_⟩
      simp only [InRange, pc] at range
      simp only [Startup.left, pc]
      omega
  | restoreBase pc =>
      refine .inr ⟨by simp [pc], ?_⟩
      simp only [Startup.left, pc]

theorem CpuStep.left (safe : Safe cfg s sent) (h : CpuStep cfg s i t) : left cfg t + 1 = left cfg s := by
  have started := h.started (safe.reached i)
  obtain ⟨within, reg, k, pc, _⟩ := stage_started started
  obtain ⟨⟨bsp, flight, _⟩, _⟩ := h.frame
  have known := (h.reached safe.reached i).not_lost
  have work : (t.cpu i).pc.work + 1 = (s.cpu i).pc.work := by
    cases h with
    | boot n instr here found =>
        have lt := (List.getElem?_eq_some_iff.mp found).1
        simp only [State.setCpu, Function.update_self] at known ⊢
        rw [here]
        by_cases more : n + 1 < bootCode.length
        · rw [if_pos more]
          simp only [CpuPc.work]
          omega
        · rw [if_neg more] at known ⊢
          by_cases entry : (instr.exec (s.low, s.cpu i)).2.eip = cfg.kernelFlat
          · rw [if_pos entry]
            simp only [CpuPc.work]
            omega
          · rw [if_neg entry] at known
            exact absurd rfl known
    | kernelBoot here =>
        simp only [State.setCpu, Function.update_self, here]
        rfl
  rw [left_slot (bsp.trans pc) within reg, left_slot pc within reg, flight]
  omega

theorem Arrival.left {d : Nat} {ipi : Ipi} (safe : Safe cfg s sent) (h : Arrival s t d ipi) :
    left cfg t + 1 = left cfg s := by
  obtain ⟨k, pc, within, reg, here⟩ := safe.apic.flight d ipi h.sent
  have reached := safe.reached d
  rw [stage_slot pc within reg, h.sent] at reached
  have work : ((s.cpu d).accept ipi).pc.work = (s.cpu d).pc.work := by
    obtain ⟨rfl, rfl⟩ | ⟨rfl, rfl⟩ | ⟨k_, rfl⟩ | ⟨k_, rfl⟩ := pending_cases here
    · have halted : (s.cpu d).pc = .halted := reached.1
      rw [halted]
      rfl
    · rfl
    · have waits : (s.cpu d).pc = .waitSipi := by
        obtain rfl | rfl := k_
        · exact reached.1
        · exact reached.1
      rw [accept_startup waits, waits]
      rfl
    · have started : Reached cfg s d .started := by
        obtain rfl | rfl := k_
        · exact reached
        · exact reached
      rw [accept_ignored started.not_waiting]
  rw [left_slot (h.bsp.trans pc) within reg, left_slot pc within reg, h.flight, h.sent, h.cpu,
    Function.update_self, work]
  simp only [owed, Option.isSome_none, Option.isSome_some, Bool.toNat_false, Bool.toNat_true]
  omega

/-- A step that is not counted is a failed poll, and the others count once. -/
theorem step_left (safe : Safe cfg s sent) (range : InRange cfg s) (h : Step cfg s a t) :
    moved cfg s a = none ∧ t = s ∧ Blocked cfg s ∨ moved cfg s a = some a ∧
      left cfg t + 1 = left cfg s := by
  have after := safe.step h
  cases a with
  | bsp =>
      have taken : bspStep cfg s = some t := h
      have out := bspStep_outcome taken
      obtain ⟨rfl, waits⟩ | ⟨goes, less⟩ := out.left safe range after
      · refine .inl ⟨?_, rfl, waits⟩
        simp [moved, taken]
      · refine .inr ⟨?_, less⟩
        simp [moved, taken, goes]
  | cpu i =>
      have out : CpuStep cfg s i t := cpuStep_outcome h
      exact .inr ⟨rfl, out.left safe⟩
  | deliver =>
      obtain ⟨d, ipi, out⟩ := deliverStep_outcome h
      exact .inr ⟨rfl, out.left safe⟩

/-! ## Somebody can always go on -/

theorem bspStep_enabled (goes : s.bsp ≠ .returned) : ∃ t, bspStep cfg s = some t := by
  unfold bspStep
  split
  · exact ⟨_, rfl⟩
  · split
    · exact ⟨_, rfl⟩
    · exact ⟨_, rfl⟩
  · split
    · exact ⟨_, rfl⟩
    · exact ⟨_, rfl⟩
  · exact ⟨_, rfl⟩
  · split
    · exact ⟨_, rfl⟩
    · exact ⟨_, rfl⟩
  · split
    · exact ⟨_, rfl⟩
    · split
      · split
        · exact ⟨_, rfl⟩
        · exact ⟨_, rfl⟩
      · exact ⟨_, rfl⟩
  · split
    · exact ⟨_, rfl⟩
    · exact ⟨_, rfl⟩
  · exact ⟨_, rfl⟩
  · exact absurd ‹_› goes

theorem deliver_enabled (sent : s.flight.isSome = true) : ∃ t, Step cfg s .deliver t := by
  obtain ⟨⟨d, ipi⟩, sent⟩ := Option.isSome_iff_exists.mp sent
  have step (t : State) : Step cfg s .deliver t ↔ deliverStep s = some t := Iff.rfl
  simp only [step, deliverStep, sent]
  exact ⟨_, rfl⟩

/-- While the BSP waits for an AP, the AP executes. -/
theorem Reached.enabled (reached : Reached cfg s i .started) (busy : s.status i = .busy) :
    ∃ t, Step cfg s (.cpu i) t := by
  have step (t : State) : Step cfg s (.cpu i) t ↔ cpuStep cfg s i = some t := Iff.rfl
  simp only [step]
  unfold cpuStep
  obtain ⟨⟨n, m, c, pc, lt, _⟩, _⟩ | ⟨_, ⟨pc, _⟩ | ⟨_, ready⟩⟩ := reached
  · have found := List.getElem?_eq_getElem lt
    simp only [pc, found]
    exact ⟨_, rfl⟩
  · simp only [pc]
    exact ⟨_, rfl⟩
  · cases busy.symm.trans ready

/-- Until `smp_init_bsp` has returned, some step counts. -/
theorem exists_step (safe : Safe cfg s sent) (range : InRange cfg s) (goes : s.bsp ≠ .returned) :
    ∃ a t, Step cfg s a t ∧ left cfg t + 1 = left cfg s := by
  obtain ⟨t, step⟩ : ∃ t, Step cfg s .bsp t := bspStep_enabled goes
  obtain ⟨_, _, sent | ⟨i, started, busy⟩⟩ | ⟨_, less⟩ := step_left safe range step
  · obtain ⟨u, delivery⟩ : ∃ u, Step cfg s .deliver u := deliver_enabled sent
    obtain ⟨d, ipi, arrival⟩ := deliverStep_outcome delivery
    exact ⟨.deliver, u, delivery, arrival.left safe⟩
  · obtain ⟨u, executed⟩ := started.enabled busy
    have out : CpuStep cfg s i u := cpuStep_outcome executed
    exact ⟨.cpu i, u, executed, out.left safe⟩
  · exact ⟨.bsp, t, step, less⟩

theorem left_pos (range : InRange cfg s) (goes : s.bsp ≠ .returned) : 0 < left cfg s := by
  unfold InRange at range
  unfold left epilogue
  split
  · unfold Setup.totalMoves
    omega
  · omega
  · omega
  · omega
  · omega
  · split
    · omega
    · omega
  · rename_i k pc
    simp only [pc] at range
    omega
  · exact Nat.one_pos
  · exact absurd ‹_› goes

/-- The continuation that takes every step that counts. -/
theorem exists_return (safe : Safe cfg s sent) (range : InRange cfg s) :
    ∃ as t, Run (Step cfg) s as t ∧ t.bsp = .returned := by
  have progress : ∀ s, (∃ sent, Safe cfg s sent) ∧ InRange cfg s → s.bsp = .returned ∨
      ∃ as t, Run (Step cfg) s as t ∧ ((∃ sent, Safe cfg t sent) ∧ InRange cfg t) ∧
        left cfg t < left cfg s := by
    rintro s ⟨⟨sent, safe⟩, range⟩
    by_cases done : s.bsp = .returned
    · exact .inl done
    · obtain ⟨a, t, step, less⟩ := exists_step safe range done
      exact .inr ⟨[a], t, .single step, ⟨⟨_, safe.step step⟩, range.step step⟩, by omega⟩
  obtain ⟨as, t, run, _, returned⟩ := exists_run_of_rank (left cfg) progress ⟨⟨sent, safe⟩, range⟩
  exact ⟨as, t, run, returned⟩

/-- `smp_init_bsp` returns. In every run the steps that are no failed polls are as many as
have been made of `totalMoves`; all of them are made exactly when it has returned; before
that somebody can make one, and a failed poll changes nothing. -/
theorem startup_ends {as moves : List Action}
    (run : Run (record (Step cfg) (moved cfg)) (start cfg, []) as (s, moves)) :
    moves.length ≤ cfg.totalMoves ∧
    (s.bsp = .returned ↔ moves.length = cfg.totalMoves) ∧
    (s.bsp ≠ .returned → ∃ a t, Step cfg s a t ∧ moved cfg s a = some a) ∧
    (∀ a t, Step cfg s a t → moved cfg s a = none → t = s) ∧
    ∃ bs t, Run (Step cfg) s bs t ∧ t.bsp = .returned := by
  have kept : ∀ p a q, ((∃ sent, Safe cfg p.1 sent) ∧ InRange cfg p.1 ∧
      p.2.length + left cfg p.1 = cfg.totalMoves) → record (Step cfg) (moved cfg) p a q →
      (∃ sent, Safe cfg q.1 sent) ∧ InRange cfg q.1 ∧ q.2.length + left cfg q.1 = cfg.totalMoves := by
    rintro p a q ⟨⟨sent, safe⟩, range, counted⟩ ⟨step, recorded⟩
    refine ⟨⟨_, safe.step step⟩, range.step step, ?_⟩
    rw [recorded]
    obtain ⟨poll, same, _⟩ | ⟨counts, less⟩ := step_left safe range step
    · rw [poll, same]
      exact counted
    · rw [counts]
      simp only [Option.toList_some, List.length_append, List.length_singleton]
      omega
  obtain ⟨⟨sent, safe⟩, range, counted⟩ : (∃ sent, Safe cfg s sent) ∧ InRange cfg s ∧
      moves.length + left cfg s = cfg.totalMoves :=
    run.invariant kept ⟨⟨[], safe_start⟩, trivial, Nat.zero_add _⟩
  refine ⟨by omega, ⟨fun pc => ?_, fun all => ?_⟩, fun goes => ?_, fun a t step poll => ?_,
    exists_return safe range⟩
  · have nothing : left cfg s = 0 := by simp only [left, pc]
    omega
  · by_contra goes
    have something := left_pos range goes
    omega
  · obtain ⟨a, t, step, less⟩ := exists_step safe range goes
    obtain ⟨_, rfl, _⟩ | ⟨counts, _⟩ := step_left safe range step
    · omega
    · exact ⟨a, t, step, counts⟩
  · obtain ⟨_, same, _⟩ | ⟨counts, _⟩ := step_left safe range step
    · exact same
    · cases poll.symm.trans counts

/-- With one AP `smp_init_bsp` returns after 1615 steps that are no failed polls. -/
theorem startup_ends_oneAp : ∃ as s moves,
    Run (record (Step oneAp) (moved oneAp)) (start oneAp, []) as (s, moves) ∧ s.bsp = .returned ∧
      moves.length = 1615 := by
  obtain ⟨as, s, run, returned⟩ := exists_return (safe_start : Safe oneAp _ _) trivial
  obtain ⟨moves, recorded⟩ := run.record (moved oneAp) []
  exact ⟨as, s, moves, recorded, returned, (startup_ends recorded).2.1.mp returned⟩

end SmpVxd.Startup
