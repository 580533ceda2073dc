import SmpVxd.Protocol.Ownership
import SmpVxd.Startup.Completion
import SmpVxd.System.Step
import SmpVxd.Transition.Mapping

/-!
# The start as the machine sees it

`boot` and `smpInitBsp` of the machine start an AP in one step and wait for its word in
another. The handshake does the same under a mapping that forgets the page, the messages
and the registers: what is proved of every run from `boot` holds of a started system.
-/

namespace SmpVxd.Startup

open X86 Transition

/-- The machine has an AP wherever `smp_init_bsp` starts one. -/
structure Matches (cfg : Setup) (conf : Config) : Prop where
  ttableMax : conf.ttableMax = cfg.ttableMax
  present : ∀ i, conf.present i = true ↔ i ≤ cfg.ttableMax ∧ cfg.registered i = true

def CpuPc.view : CpuPc → ApPc
  | .halted | .waitSipi | .lost => .off
  | .boot _ | .kernelBoot => .kernelBoot
  | .running => .atomicLock

variable (cfg : Setup) (conf : Config)

def BspPc.view : BspPc → Bsp
  | .apicBase | .backup _ | .install _ | .svr | .waitIdle => .smpInitBsp 0
  | .slot i _ => .smpInitBsp i
  | .restore _ | .restoreBase => .smpInitBsp (cfg.ttableMax + 1)
  | .returned => .idle

def State.view (s : State) : Sys :=
  { SmpVxd.boot conf with
    ap := fun j => { (SmpVxd.boot conf).ap j with status := s.status j, pc := (s.cpu j).pc.view }
    bsp := s.bsp.view cfg }

variable {cfg conf} {s t : State} {a : Action} {i j k : Nat} {sent : List (Nat × Ipi)}

theorem view_congr (bsp : t.bsp.view cfg = s.bsp.view cfg) (pc : ∀ j, (t.cpu j).pc.view = (s.cpu j).pc.view)
    (status : t.status = s.status) : t.view cfg conf = s.view cfg conf := by
  simp only [State.view, bsp, pc, status]

/-- A step that is seen in the program point of the BSP only. -/
theorem seen_bsp {b : Bsp}
    (taken : SmpVxd.bspStep conf (s.view cfg conf) = some { s.view cfg conf with bsp := b })
    (bsp : t.bsp.view cfg = b) (cpu : t.cpu = s.cpu) (status : t.status = s.status) :
    StepOrSame (SmpVxd.Step conf) (s.view cfg conf) (t.view cfg conf) := by
  refine .inr ⟨.bsp, ?_⟩
  change SmpVxd.bspStep conf (s.view cfg conf) = _
  rw [taken]
  simp only [State.view, bsp, cpu, status]

/-- A step that is seen in one AP. -/
theorem view_setAp {x : Ap}
    (others : ∀ j, j ≠ i → (t.cpu j).pc.view = (s.cpu j).pc.view ∧ t.status j = s.status j)
    (self : x = { (s.view cfg conf).ap i with status := t.status i, pc := (t.cpu i).pc.view })
    (bsp : t.bsp = s.bsp) : t.view cfg conf = (s.view cfg conf).setAp i x := by
  subst self
  have aps : (t.view cfg conf).ap = Function.update (s.view cfg conf).ap i
      { (s.view cfg conf).ap i with status := t.status i, pc := (t.cpu i).pc.view } := by
    funext j
    by_cases same : j = i
    · subst same
      rw [Function.update_self]
      rfl
    · obtain ⟨pc, status⟩ := others j same
      rw [Function.update_of_ne same]
      simp only [State.view, pc, status]
  have whole : t.view cfg conf = { s.view cfg conf with ap := (t.view cfg conf).ap } := by
    simp only [State.view, bsp]
  rw [whole, aps]
  rfl

theorem BspStep.seen (matching : Matches cfg conf) (safe : Safe cfg s sent) (h : BspStep cfg s t) :
    StepOrSame (SmpVxd.Step conf) (s.view cfg conf) (t.view cfg conf) := by
  have silent (bsp : t.bsp.view cfg = s.bsp.view cfg) (cpu : t.cpu = s.cpu) (status : t.status = s.status) :
      StepOrSame (SmpVxd.Step conf) (s.view cfg conf) (t.view cfg conf) :=
    .inl (view_congr bsp (fun j => by rw [cpu]) status)
  cases h with
  | apicBase pc | backup _ pc _ | backedUp _ pc _ | install _ _ pc _ | installed _ pc _ | svr pc | idle pc
  | restore _ pc _ | restored _ pc _ => exact silent (by rw [pc]; rfl) rfl rfl
  | poll _ _ => exact .inl rfl
  | past i k pc past =>
      have sent := safe.sent
      simp only [SentOk, pc] at sent
      obtain rfl : i = cfg.ttableMax + 1 := Nat.le_antisymm sent.1 past
      exact silent (by rw [pc]; rfl) rfl rfl
  | skip i k pc within unregistered =>
      refine seen_bsp (b := .smpInitBsp (i + 1)) ?_ rfl rfl rfl
      have here : (s.view cfg conf).bsp = .smpInitBsp i := congrArg (BspPc.view cfg) pc
      have absent : conf.present i = false := by
        refine Bool.eq_false_of_not_eq_true fun present => ?_
        cases unregistered.symm.trans ((matching.present i).mp present).2
      have below : ¬ conf.ttableMax < i := by
        rw [matching.ttableMax]
        exact Nat.not_lt.mpr within
      simp only [SmpVxd.bspStep, here, below, absent, if_true, if_false]
  | stmt i k x pc _ _ at_ =>
      obtain ⟨cpu, status, _⟩ := (slotCode_at at_).frame (s := s)
      obtain same | ⟨next, _⟩ := (slotCode_at at_).progress (s := s)
      · exact .inl (congrArg (State.view cfg conf) same)
      · exact silent (by rw [next, pc]; rfl) cpu status
  | next i k pc within reg late =>
      refine seen_bsp (b := .smpInitBsp (i + 1)) ?_ rfl rfl rfl
      have here : (s.view cfg conf).bsp = .smpInitBsp i := congrArg (BspPc.view cfg) pc
      have present : conf.present i = true := (matching.present i).mpr ⟨within, reg⟩
      have below : ¬ conf.ttableMax < i := by
        rw [matching.ttableMax]
        exact Nat.not_lt.mpr within
      have reached := safe.reached i
      rw [stage_slot pc within reg, progress_late late] at reached
      obtain ⟨_, running, ready⟩ := reached
      have on : ((s.view cfg conf).ap i).pc = .atomicLock := congrArg CpuPc.view running
      have free : ((s.view cfg conf).ap i).status = .ready := ready
      simp [SmpVxd.bspStep, here, below, present, on, free]
  | restoreBase pc =>
      refine seen_bsp (b := .idle) ?_ rfl rfl rfl
      have here : (s.view cfg conf).bsp = .smpInitBsp (cfg.ttableMax + 1) := congrArg (BspPc.view cfg) pc
      have past : conf.ttableMax < cfg.ttableMax + 1 := by
        rw [matching.ttableMax]
        exact Nat.lt_succ_self _
      simp only [SmpVxd.bspStep, here, past, if_true]

theorem CpuStep.seen (matching : Matches cfg conf) (safe : Safe cfg s sent) (h : CpuStep cfg s i t) :
    StepOrSame (SmpVxd.Step conf) (s.view cfg conf) (t.view cfg conf) := by
  obtain ⟨⟨bsp, _⟩, others⟩ := h.frame
  obtain ⟨within, reg, _⟩ := stage_started (h.started (safe.reached i))
  have known := (h.reached safe.reached i).not_lost
  cases h with
  | boot n instr pc _ =>
      refine .inl (view_congr (by rw [bsp]) (fun j => ?_) rfl)
      by_cases same : j = i
      · subst same
        rw [pc]
        simp only [State.setCpu, Function.update_self] at known ⊢
        by_cases more : n + 1 < bootCode.length
        · rw [if_pos more]
          rfl
        · rw [if_neg more] at known ⊢
          by_cases entry : (instr.exec (s.low, s.cpu j)).2.eip = cfg.kernelFlat
          · rw [if_pos entry]
            rfl
          · rw [if_neg entry] at known
            exact absurd rfl known
      · rw [(others j same).1]
  | kernelBoot pc =>
      refine .inr ⟨.ap i 0 0, ?_⟩
      have present : conf.present i = true := (matching.present i).mpr ⟨within, reg⟩
      have here : ((s.view cfg conf).ap i).pc = .kernelBoot := congrArg CpuPc.view pc
      change SmpVxd.step conf (s.view cfg conf) (.ap i 0 0) = _
      simp only [SmpVxd.step, present, if_true, apStep, here]
      refine congrArg some (view_setAp (fun j ne => ?_) ?_ bsp).symm
      · rw [(others j ne).1, (others j ne).2]
        exact ⟨rfl, rfl⟩
      · simp [State.setCpu, CpuPc.view]

theorem Arrival.seen {d : Nat} {ipi : Ipi} (matching : Matches cfg conf) (safe : Safe cfg s sent)
    (h : Arrival s t d ipi) : StepOrSame (SmpVxd.Step conf) (s.view cfg conf) (t.view cfg conf) := by
  obtain ⟨k, pc, within, reg, here⟩ := safe.apic.flight d ipi h.sent
  have reached := safe.reached d
  rw [stage_slot pc within reg, h.sent] at reached
  have silent (same : ((s.cpu d).accept ipi).pc.view = (s.cpu d).pc.view) :
      StepOrSame (SmpVxd.Step conf) (s.view cfg conf) (t.view cfg conf) := by
    refine .inl (view_congr (by rw [h.bsp]) (fun j => ?_) h.status)
    rw [h.cpu]
    by_cases target : j = d
    · rw [target, Function.update_self, same]
    · rw [Function.update_of_ne target]
  obtain ⟨rfl, rfl⟩ | ⟨rfl, rfl⟩ | ⟨k_, rfl⟩ | ⟨k_, rfl⟩ := pending_cases here
  · refine silent ?_
    rw [reached.1]
    rfl
  · exact silent rfl
  · have waiting : Reached cfg s d .waiting := by obtain rfl | rfl := k_ <;> exact reached
    obtain ⟨waits, _, _⟩ := waiting
    refine .inr ⟨.bsp, ?_⟩
    have at_ : (s.view cfg conf).bsp = .smpInitBsp d := congrArg (BspPc.view cfg) pc
    have present : conf.present d = true := (matching.present d).mpr ⟨within, reg⟩
    have below : ¬ conf.ttableMax < d := by
      rw [matching.ttableMax]
      exact Nat.not_lt.mpr within
    have off : ((s.view cfg conf).ap d).pc = .off := congrArg CpuPc.view waits
    change SmpVxd.bspStep conf (s.view cfg conf) = _
    simp only [SmpVxd.bspStep, at_, below, present, off, if_true, if_false]
    refine congrArg some (view_setAp (fun j ne => ?_) ?_ h.bsp).symm
    · rw [h.cpu, h.status, Function.update_of_ne ne]
      exact ⟨rfl, rfl⟩
    · have started : (t.cpu d).pc = .boot 0 := by
        rw [h.cpu, Function.update_self]
        exact accept_startup waits
      simp [h.status, started, CpuPc.view, State.view]
  · have started : Reached cfg s d .started := by obtain rfl | rfl := k_ <;> exact reached
    exact silent (by rw [accept_ignored started.not_waiting])

/-- The handshake implements the start of the machine. When `smp_init_bsp` returns, the
machine is idle, and every AP is at the start of `smp_ap_main` with its word `S_READY`. -/
theorem startup_refines {as : List Action} (matching : Matches cfg conf)
    (run : Run (Step cfg) (start cfg) as s) :
    (∃ bs, Run (SmpVxd.Step conf) (SmpVxd.boot conf) bs (s.view cfg conf)) ∧
      (s.bsp = .returned → (s.view cfg conf).bsp = .idle ∧ ∀ i, conf.present i = true →
        ((s.view cfg conf).ap i).pc = .atomicLock ∧ ((s.view cfg conf).ap i).status = .ready) := by
  have kept : ∀ s a t, (∃ sent, Safe cfg s sent) → Step cfg s a t → ∃ sent, Safe cfg t sent := by
    rintro s a t ⟨sent, safe⟩ step
    exact ⟨_, safe.step step⟩
  have seen : ∀ s a t, (∃ sent, Safe cfg s sent) → Step cfg s a t →
      StepOrSame (SmpVxd.Step conf) (s.view cfg conf) (t.view cfg conf) := by
    rintro s a t ⟨sent, safe⟩ step
    cases a with
    | bsp =>
        have out : BspStep cfg s t := bspStep_outcome step
        exact out.seen matching safe
    | cpu i =>
        have out : CpuStep cfg s i t := cpuStep_outcome step
        exact out.seen matching safe
    | deliver =>
        obtain ⟨d, ipi, out⟩ := deliverStep_outcome step
        exact out.seen matching safe
  refine ⟨run.mapped kept seen ⟨[], safe_start⟩, fun pc => ⟨?_, fun i present => ?_⟩⟩
  · simp [State.view, pc, BspPc.view]
  · obtain ⟨sent, safe⟩ := run.invariant kept ⟨[], safe_start⟩
    obtain ⟨within, reg⟩ := (matching.present i).mp present
    have done : stage cfg s i = .done := by
      unfold stage
      rw [if_neg (by simp [reg, within]), pc]
    have reached := safe.reached i
    rw [done] at reached
    exact ⟨congrArg CpuPc.view reached.2.1, reached.2.2⟩

theorem oneAp_matches : Matches oneAp SmpVxd.oneAp where
  ttableMax := rfl
  present i := by
    have there : SmpVxd.oneAp.present i = (i == 1) := rfl
    rw [there, beq_iff_eq]
    constructor
    · rintro rfl
      decide
    · rintro ⟨_, reg⟩
      by_contra other
      have none : oneAp.stack i = 0 := if_neg other
      simp [Setup.registered, none] at reg

/-- The machine with one AP is idle when its handshake is over. -/
theorem startup_refines_oneAp : ∃ as s bs, Run (Step oneAp) (start oneAp) as s ∧ s.bsp = .returned ∧
    Run (SmpVxd.Step SmpVxd.oneAp) (SmpVxd.boot SmpVxd.oneAp) bs (s.view oneAp SmpVxd.oneAp) ∧
    ((s.view oneAp SmpVxd.oneAp).ap 1).status = .ready := by
  obtain ⟨as, s, run, returned⟩ := exists_return (safe_start : Safe oneAp _ _) trivial
  obtain ⟨⟨bs, mapped⟩, idle⟩ := startup_refines oneAp_matches run
  exact ⟨as, s, bs, run, returned, mapped, ((idle returned).2 1 rfl).2⟩

end SmpVxd.Startup
