import SmpVxd.Protocol.Release
import SmpVxd.Transition.Progress

/-!
# Driver operations come to an end

The BSP executes a driver operation with bounded work, whatever the APs do meanwhile.
It repeats a statement only while the AP of the slot holds the word that it waits for,
and no CPU keeps a word for more than four statements of its own.
-/

namespace SmpVxd

open Transition

variable (cfg : Config)

/-- The slot whose word must be free for the next statement of the BSP: an exchange, or
the poll of `smp_init_bsp` for an AP that it has started. -/
def Sys.awaits (s : Sys) : Option Nat :=
  match s.bsp with
  | .smpInitBsp i =>
      if i ≤ cfg.ttableMax ∧ cfg.present i = true ∧ (s.ap i).pc ≠ .off then some i else none
  | b => b.atomicLock

/-- The next statement of the BSP fails and is repeated. -/
def Sys.spins (s : Sys) : Prop := ∃ i, s.awaits cfg = some i ∧ (s.ap i).status = .busy

instance (s : Sys) : Decidable (s.spins cfg) :=
  decidable_of_iff ((s.awaits cfg).any (fun i => (s.ap i).status = .busy) = true) (by
    simp [Sys.spins, Option.any_eq_true])

/-- A bound on the statements up to the end of the operation, those that fail not
counted. Six of them belong to one round of the search for an AP. -/
def Bsp.work : Bsp → Nat
  | .idle => 0
  | .switchIn _ _ | .restoreClient _ _ | .destroyFree _ => 1
  | .destroyUnlock _ _ _ | .bspUnlock _ _ _ | .decStore _ _ => 2
  | .destroyDiscard _ _ _ | .incStore _ _ | .decLoad _ => 3
  | .destroyLock _ _ | .incLoad _ => 4
  | .bspTest _ _ => 5
  | .bspLock _ => 6
  | .apLoop l => 6 * (cfg.ttableMax + 1 - l.cpu) + 3
  | .apLock l => 6 * (cfg.ttableMax - l.cpu) + 8
  | .apSwitch l _ => 6 * (cfg.ttableMax - l.cpu) + 7
  | .apStore l _ => 6 * (cfg.ttableMax - l.cpu) + 6
  | .apWakeup l _ => 6 * (cfg.ttableMax - l.cpu) + 5
  | .apUnlock l _ => 6 * (cfg.ttableMax - l.cpu) + 4
  | .smpInitBsp i => 2 * (cfg.ttableMax + 1 - i) + 1

/-- The same for the machine: an AP that waits to be started costs one statement more. -/
def Sys.work (s : Sys) : Nat :=
  s.bsp.work cfg + match s.bsp with
    | .smpInitBsp i => if (s.ap i).pc = .off then 1 else 0
    | _ => 0

/-- A statement of the BSP that does not fail. -/
def advance (s : Sys) : Action → Option Unit
  | .bsp => if s.spins cfg then none else some ()
  | _ => none

/-- A statement of one of the users of the word of slot `i`. -/
def ownStatement (i : Nat) (agent : Agent) (_ : Sys) : Action → Option Unit
  | .bsp => if agent = .bsp then some () else none
  | .ap j _ _ => if agent = .ap ∧ j = i then some () else none
  | _ => none

/-- The user holds the word, and is not an AP that still waits for its start. -/
def Sys.keeps (s : Sys) (i : Nat) (agent : Agent) : Prop :=
  (s.word i).held agent ≠ none ∧ (s.ap i).pc ≠ .off

/-- An AP is switched off only until `smp_init_bsp` comes to its slot. -/
def Started (s : Sys) : Prop :=
  ∀ i, cfg.present i = true → (s.ap i).pc = .off → ∃ n ≤ i, s.bsp = .smpInitBsp n

variable {cfg} {s t : Sys} {a : Action} {i j : Nat} {v w : Status}

theorem ApStep.off (h : ApStep i s t) (off : (t.ap i).pc = .off) : (s.ap i).pc = .off := by
  cases h with
  | spin _ _ => exact off
  | unlock v rc pc =>
      rw [Sys.setAp_self] at off
      dsimp only at off
      split at off
      · cases off
      · split at off <;> cases off
  | clearIdleLock lock pc =>
      rw [show ({ s.setAp i _ with mem := _ } : Sys).ap = (s.setAp i _).ap from rfl, Sys.setAp_self] at off
      cases off
  | incStore cnt pc =>
      rw [show ({ s.setAp i _ with apFreeCnt := _ } : Sys).ap = (s.setAp i _).ap from rfl,
        Sys.setAp_self] at off
      cases off
  | _ =>
      rw [Sys.setAp_self] at off
      cases off

theorem NmiStep.off (h : NmiStep i s t) (off : (t.ap i).pc = .off) : (s.ap i).pc = .off := by
  cases h with
  | wake _ _ =>
      rw [Sys.setAp_self] at off
      cases off
  | dummy _ _ => rwa [Sys.setAp_self] at off

theorem Outcome.off (h : Outcome cfg s a t) (off : (t.ap i).pc = .off) : (s.ap i).pc = .off := by
  cases h with
  | call op t idle call => cases call <;> exact off
  | bsp t h =>
      obtain same | ⟨before, _⟩ := (bspStep_outcome h).pc i
      · exact same.symm.trans off
      · exact before
  | ap j now msClock t present h =>
      by_cases same : i = j
      · subst same
        exact h.off off
      · rwa [h.frame.others i same] at off
  | nmi j t present h =>
      by_cases same : i = j
      · subst same
        exact h.off off
      · rwa [h.frame.others i same] at off
  | trap j trap u x tid present pc =>
      by_cases same : i = j
      · subst same
        rw [Sys.setAp_self] at off
        cases off
      · rwa [Sys.setAp_ne _ _ _ same] at off
  | compute x idle => exact off
  | rebuildPd pageDir idle => exact off

/-- What `smp_init_bsp` does with the slot that it has come to. -/
theorem smpInitBsp_step (h : bspStep cfg s = some t) (pc : s.bsp = .smpInitBsp i) :
    cfg.ttableMax < i ∧ t = { s with bsp := .idle } ∨
      i ≤ cfg.ttableMax ∧
        ((cfg.present i = false ∨ cfg.present i = true ∧ (s.ap i).pc ≠ .off ∧ (s.ap i).status ≠ .busy) ∧
            t = { s with bsp := .smpInitBsp (i + 1) } ∨
          cfg.present i = true ∧ (s.ap i).pc = .off ∧
            t = s.setAp i { s.ap i with pc := .kernelBoot } ∨
          cfg.present i = true ∧ (s.ap i).pc ≠ .off ∧ (s.ap i).status = .busy ∧ t = s) := by
  simp only [bspStep, pc] at h
  split at h
  · cases h
    exact .inl ⟨‹_›, rfl⟩
  · have below : i ≤ cfg.ttableMax := Nat.le_of_not_lt ‹_›
    split at h
    · cases h
      exact .inr ⟨below, .inl ⟨.inl ‹_›, rfl⟩⟩
    · have present : cfg.present i = true := by simpa using ‹¬cfg.present i = false›
      split at h
      · cases h
        exact .inr ⟨below, .inr (.inl ⟨present, ‹_›, rfl⟩)⟩
      · split at h
        · cases h
          exact .inr ⟨below, .inr (.inr ⟨present, ‹_›, ‹_›, rfl⟩)⟩
        · cases h
          exact .inr ⟨below, .inl ⟨.inr ⟨present, ‹_›, ‹_›⟩, rfl⟩⟩

theorem Started.step (started : Started cfg s) (h : Step cfg s a t) : Started cfg t := by
  intro i present off
  obtain ⟨n, le, pc⟩ := started i present (h.outcome.off off)
  cases h.outcome with
  | call op t idle call => cases idle.symm.trans pc
  | bsp t taken =>
      obtain ⟨past, _⟩ | ⟨below, ⟨passed, rfl⟩ | ⟨_, _, rfl⟩ | ⟨_, _, _, rfl⟩⟩ := smpInitBsp_step taken pc
      · exact absurd (Nat.lt_of_lt_of_le past le) (Nat.not_lt.mpr (cfg.present_le i present))
      · refine ⟨n + 1, Nat.lt_of_le_of_ne le ?_, rfl⟩
        rintro rfl
        obtain absent | ⟨_, on, _⟩ := passed
        · cases absent.symm.trans present
        · exact on off
      · exact ⟨n, le, pc⟩
      · exact ⟨n, le, pc⟩
  | ap j now msClock t _ h => exact ⟨n, le, h.frame.bsp.trans pc⟩
  | nmi j t _ h => exact ⟨n, le, h.frame.bsp.trans pc⟩
  | trap j trap u x tid _ _ => exact ⟨n, le, pc⟩
  | compute x idle => cases idle.symm.trans pc
  | rebuildPd pageDir idle => cases idle.symm.trans pc

theorem started_boot : Started cfg (boot cfg) := fun i _ _ => ⟨0, Nat.zero_le i, rfl⟩

/-- Outside of `smp_init_bsp` the work left is that of the program point. -/
theorem Sys.work_eq (running : ∀ i, s.bsp ≠ .smpInitBsp i) : s.work cfg = s.bsp.work cfg := by
  unfold Sys.work
  split
  · exact absurd ‹_› (running _)
  · rfl

theorem Sys.work_init (pc : s.bsp = .smpInitBsp i) :
    s.work cfg = 2 * (cfg.ttableMax + 1 - i) + 1 + if (s.ap i).pc = .off then 1 else 0 := by
  rw [Sys.work, pc]
  rfl

theorem switchToApReturn_work (l : ToAp) (rc : Bool) : (switchToApReturn l rc).work cfg = 1 := by
  unfold switchToApReturn
  split <;> rfl

theorem switchToApReturn_running (l : ToAp) (rc : Bool) (i : Nat) :
    switchToApReturn l rc ≠ .smpInitBsp i := by
  unfold switchToApReturn
  split <;> simp

theorem init_work (h : bspStep cfg s = some t) (pc : s.bsp = .smpInitBsp i) (goes : ¬ s.spins cfg) :
    t.work cfg < s.work cfg := by
  rw [Sys.work_init pc]
  obtain ⟨past, rfl⟩ | ⟨below, ⟨passed, rfl⟩ | ⟨present, off, rfl⟩ | ⟨present, on, busy, rfl⟩⟩ :=
    smpInitBsp_step h pc
  · rw [Sys.work_eq (by simp)]
    simp [Bsp.work]
  · rw [Sys.work_init (i := i + 1) rfl]
    split <;> omega
  · have here : (s.setAp i { s.ap i with pc := .kernelBoot }).bsp = .smpInitBsp i := pc
    rw [Sys.work_init here, Sys.setAp_self, off]
    simp
  · refine absurd ⟨i, ?_, busy⟩ goes
    simp only [Sys.awaits, pc]
    rw [if_pos ⟨below, present, on⟩]

theorem loop_work {l : ToAp} (h : bspStep cfg s = some t) (pc : s.bsp = .apLoop l) :
    t.work cfg < s.work cfg := by
  rw [Sys.work_eq (s := s) (by simp [pc]), pc]
  simp only [bspStep, pc] at h
  split at h
  · cases h
    rw [Sys.work_eq (switchToApReturn_running l false)]
    change (switchToApReturn l false).work cfg < _
    rw [switchToApReturn_work]
    simp [Bsp.work]
  · have within : l.cpu ≤ cfg.ttableMax := Nat.le_of_not_lt ‹_›
    split at h
    · cases h
      rw [Sys.work_eq (by simp)]
      simp only [Bsp.work]
      omega
    · cases h
      rw [Sys.work_eq (by simp)]
      simp only [Bsp.work]
      omega

/-- A statement that only moves the program point, outside of the two loops over the slots. -/
theorem BspGoto.work {b c : Bsp} (h : BspGoto cfg s b c) (init : ∀ i, b ≠ .smpInitBsp i)
    (loop : ∀ l, b ≠ .apLoop l) : (∀ i, c ≠ .smpInitBsp i) ∧ c.work cfg < b.work cfg := by
  cases h with
  | booted i _ => exact absurd rfl (init i)
  | empty i _ => exact absurd rfl (init i)
  | ready i _ _ => exact absurd rfl (init i)
  | noAp l _ => exact absurd rfl (loop l)
  | tryAp l _ => exact absurd rfl (loop l)
  | nextAp l _ => exact absurd rfl (loop l)
  | _ => simp [Bsp.work]

theorem LockAt.work {b : Bsp} {cpu : Nat} {next : Status → Bsp} (h : LockAt b cpu next) (v : Status) :
    (∀ i, next v ≠ .smpInitBsp i) ∧ (next v).work cfg < b.work cfg := by
  cases h <;> simp [Bsp.work]

theorem UnlockAt.work {b c : Bsp} {cpu : Nat} (h : UnlockAt b cpu v c) :
    (∀ i, c ≠ .smpInitBsp i) ∧ c.work cfg < b.work cfg := by
  cases h with
  | handedOff l v _ =>
      refine ⟨by simp, ?_⟩
      simp only [Bsp.work]
      omega
  | nextAp l v _ =>
      refine ⟨by simp, ?_⟩
      simp only [Bsp.work]
      omega
  | _ => simp [Bsp.work]

theorem LockAt.spins {cpu : Nat} {next : Status → Bsp} (h : LockAt s.bsp cpu next)
    (busy : (s.ap cpu).status = .busy) : s.spins cfg := by
  refine ⟨cpu, ?_, busy⟩
  have exchange := h.atomicLock
  unfold Sys.awaits
  split
  · rename_i pc
    rw [pc] at exchange
    cases exchange
  · exact exchange

/-- Every statement of the BSP that does not fail lowers the work left. -/
theorem bspStep_work (h : bspStep cfg s = some t) (goes : ¬ s.spins cfg) : t.work cfg < s.work cfg := by
  by_cases init : ∃ i, s.bsp = .smpInitBsp i
  · obtain ⟨i, pc⟩ := init
    exact init_work h pc goes
  by_cases loop : ∃ l, s.bsp = .apLoop l
  · obtain ⟨l, pc⟩ := loop
    exact loop_work h pc
  have running : ∀ i, s.bsp ≠ .smpInitBsp i := fun i pc => init ⟨i, pc⟩
  have outside : ∀ l, s.bsp ≠ .apLoop l := fun l pc => loop ⟨l, pc⟩
  -- outside of the loops the work is a function of the program point alone
  have less : (∀ i, t.bsp ≠ .smpInitBsp i) ∧ t.bsp.work cfg < s.bsp.work cfg := by
    cases bspStep_outcome h with
    | goto b go => exact go.work running outside
    | startAp i pc _ _ => exact absurd pc (running i)
    | awaitAp i pc => exact absurd pc (running i)
    | spin cpu next at_ busy => exact absurd (at_.spins busy) goes
    | lock cpu next at_ _ => exact at_.work _
    | unlock cpu v b at_ => exact at_.work
    | decStore l cnt pc =>
        refine ⟨switchToApReturn_running l true, ?_⟩
        change (switchToApReturn l true).work cfg < _
        rw [switchToApReturn_work, pc]
        simp [Bsp.work]
    | handOff l v ts pc _ => simp [SmpVxd.handOff, pc, Bsp.work]
    | takeBack l pc => simp [SmpVxd.takeBack, pc, Bsp.work]
    | switchIn curTid cbsNew pc => simp [switchIn_bsp, pc, Bsp.work]
    | discard tid cpu v pc => simp [pc, Bsp.work]
    | free tid pc => simp [pc, Bsp.work]
    | setIdleLock l v ts pc _ _ _ => simp [pc, Bsp.work]
    | wakeup l v pc _ => simp [pc, Bsp.work]
    | incStore l cnt pc => simp [pc, Bsp.work]
  rw [Sys.work_eq running, Sys.work_eq less.1]
  exact less.2

theorem spins_same (h : bspStep cfg s = some t) (spins : s.spins cfg) : t = s := by
  obtain ⟨i, awaits, busy⟩ := spins
  unfold Sys.awaits at awaits
  split at awaits
  · rename_i n pc
    obtain ⟨⟨within, present, on⟩, same⟩ := Option.ite_none_right_eq_some.mp awaits
    cases same
    obtain ⟨past, _⟩ | ⟨_, ⟨absent | ⟨_, _, free⟩, _⟩ | ⟨_, off, _⟩ | ⟨_, _, _, same⟩⟩ :=
      smpInitBsp_step h pc
    · exact absurd past (Nat.not_lt.mpr within)
    · cases absent.symm.trans present
    · exact absurd busy free
    · exact absurd off on
    · exact same
  · cases pc : s.bsp with
    | destroyLock tid cpu =>
        rw [pc] at awaits
        cases awaits
        simp only [bspStep, pc, bspLock, busy, if_true] at h
        exact (Option.some.inj h).symm
    | apLock l =>
        rw [pc] at awaits
        cases awaits
        simp only [bspStep, pc, bspLock, busy, if_true] at h
        exact (Option.some.inj h).symm
    | bspLock l =>
        rw [pc] at awaits
        cases awaits
        simp only [bspStep, pc, bspLock, busy, if_true] at h
        exact (Option.some.inj h).symm
    | _ =>
        rw [pc] at awaits
        cases awaits

/-- Nobody else makes more work for the operation in progress. -/
theorem Sys.work_le (bsp : t.bsp = s.bsp) (off : ∀ i, (t.ap i).pc = .off → (s.ap i).pc = .off) :
    t.work cfg ≤ s.work cfg := by
  by_cases init : ∃ i, s.bsp = .smpInitBsp i
  · obtain ⟨i, pc⟩ := init
    rw [Sys.work_init pc, Sys.work_init (bsp.trans pc)]
    by_cases switched : (t.ap i).pc = .off
    · rw [if_pos switched, if_pos (off i switched)]
    · rw [if_neg switched]
      omega
  · have running : ∀ i, s.bsp ≠ .smpInitBsp i := fun i pc => init ⟨i, pc⟩
    rw [Sys.work_eq running, Sys.work_eq (bsp ▸ running), bsp]

/-- While an operation is in progress, each step pays for the statement it executes. -/
theorem Step.work (h : Step cfg s a t) (busy : s.bsp ≠ .idle) :
    t.work cfg + (advance cfg s a).toList.length ≤ s.work cfg := by
  have off := fun i => h.outcome.off (i := i)
  cases h.outcome with
  | call op t idle call => exact absurd idle busy
  | bsp t taken =>
      by_cases spins : s.spins cfg
      · rw [spins_same taken spins]
        simp [advance, spins]
      · have less := bspStep_work taken spins
        simp only [advance, spins, if_false, Option.toList_some, List.length_singleton]
        exact less
  | ap j now msClock t _ out => exact Sys.work_le out.frame.bsp off
  | nmi j t _ out => exact Sys.work_le out.frame.bsp off
  | trap j trap u x tid _ _ => exact Sys.work_le rfl off
  | compute x idle => exact absurd idle busy
  | rebuildPd pageDir idle => exact absurd idle busy

theorem Sys.work_bound (s : Sys) : s.work cfg ≤ 6 * cfg.ttableMax + 9 := by
  by_cases init : ∃ i, s.bsp = .smpInitBsp i
  · obtain ⟨i, pc⟩ := init
    rw [Sys.work_init pc]
    split <;> omega
  · rw [Sys.work_eq fun i pc => init ⟨i, pc⟩]
    cases s.bsp <;> simp only [Bsp.work] <;> omega

/-- Every program point of an operation has a next statement. -/
theorem bspStep_goes (ledger : Ledger cfg s) (busy : s.bsp ≠ .idle) : ∃ t, bspStep cfg s = some t := by
  cases lock : s.bsp.lock with
  | some held => exact bspStep_enabled ledger lock
  | none =>
      cases pc : s.bsp with
      | idle => exact absurd pc busy
      | smpInitBsp i =>
          simp only [bspStep, pc]
          split
          · exact ⟨_, rfl⟩
          · split
            · exact ⟨_, rfl⟩
            · split
              · exact ⟨_, rfl⟩
              · split <;> exact ⟨_, rfl⟩
      | apLoop l =>
          simp only [bspStep, pc]
          split
          · exact ⟨_, rfl⟩
          · split <;> exact ⟨_, rfl⟩
      | destroyLock tid cpu => simp [bspStep, pc]
      | destroyFree tid => simp [bspStep, pc]
      | apLock l => simp [bspStep, pc]
      | decLoad l => simp [bspStep, pc]
      | decStore l cnt => simp [bspStep, pc]
      | bspLock l => simp [bspStep, pc]
      | switchIn curTid cbsNew => simp [bspStep, pc]
      | restoreClient crs rc => simp [bspStep, pc]
      | _ =>
          rw [pc] at lock
          cases lock

/-- The BSP repeats a statement only while the AP of the slot holds the word. -/
theorem Consistent.holder (inv : Consistent cfg s) (started : Started cfg s)
    (awaits : s.awaits cfg = some i) (busy : (s.ap i).status = .busy) :
    cfg.present i = true ∧ s.keeps i .ap := by
  have facts : cfg.present i = true ∧ (s.ap i).pc ≠ .off ∧ s.bsp.lock = none := by
    unfold Sys.awaits at awaits
    split at awaits
    · rename_i n pc
      obtain ⟨⟨_, present, on⟩, same⟩ := Option.ite_none_right_eq_some.mp awaits
      cases same
      exact ⟨present, on, by rw [pc]; rfl⟩
    · rename_i running
      have ok := inv.ledger.bsp
      have facts : cfg.present i = true ∧ s.bsp.lock = none := by
        generalize s.bsp = b at awaits ok
        cases b with
        | destroyLock tid cpu =>
            cases awaits
            exact ⟨TsHt.Hosted.present ok inv.ledger.records, rfl⟩
        | apLock l =>
            cases awaits
            exact ⟨ok.2.2.2, rfl⟩
        | bspLock l =>
            cases awaits
            exact ⟨TsHt.Hosted.present ok inv.ledger.records, rfl⟩
        | _ => cases awaits
      refine ⟨facts.1, fun off => ?_, facts.2⟩
      obtain ⟨n, _, pc⟩ := started i facts.1 off
      exact running n pc
  obtain ⟨present, on, free⟩ := facts
  obtain ⟨agent, v, held⟩ := (inv.locks i).held_of_busy busy
  cases agent with
  | ap => exact ⟨present, by rw [held]; simp, on⟩
  | bsp => cases (Bsp.held_of_none free i).symm.trans held

/-- A statement under the lock comes closer to the `atomic_unlock`, or is it. -/
theorem ApStep.rank (h : ApStep i s t) (held : (s.ap i).pc.held ≠ none) :
    (t.ap i).pc.rank < (s.ap i).pc.rank := by
  cases h with
  | unlock v rc pc =>
      simp only [Sys.setAp_self, pc]
      split
      · simp [ApPc.rank]
      · split <;> simp [ApPc.rank]
  | clearIdleLock lock pc => simp [Sys.setAp, pc, ApPc.rank]
  | incStore cnt pc => simp [Sys.setAp, pc, ApPc.rank]
  | kernelBoot pc | branch _ _ _ _ pc _ | notify _ pc _ _ | silent pc _ | discard _ pc | incLoad pc =>
      simp [pc, ApPc.rank]
  | spin pc _ | lock pc _ | sti pc | hlt pc | switchtask _ pc => exact absurd (by rw [pc]; rfl) held

theorem UnlockAt.rank {b c : Bsp} {cpu : Nat} (h : UnlockAt b cpu v c) : c.rank < b.rank := by
  cases h <;> simp [Bsp.rank]

theorem BspStep.rank (h : BspStep cfg s t) (lock : s.bsp.lock ≠ none) : t.bsp.rank < s.bsp.rank := by
  cases h with
  | goto b go => exact go.rank lock
  | startAp j pc _ _ => exact absurd (by rw [pc]; rfl) lock
  | awaitAp j pc => exact absurd (by rw [pc]; rfl) lock
  | spin cpu next at_ _ => exact absurd at_.lock.1 lock
  | lock cpu next at_ _ => exact absurd at_.lock.1 lock
  | unlock cpu v b at_ => exact at_.rank
  | discard tid cpu v pc => simp [pc, Bsp.rank]
  | free tid pc => exact absurd (by rw [pc]; rfl) lock
  | setIdleLock l v ts pc _ _ _ => simp [pc, Bsp.rank]
  | handOff l v ts pc _ => simp [SmpVxd.handOff, pc, Bsp.rank]
  | wakeup l v pc _ => simp [pc, Bsp.rank]
  | decStore l cnt pc => exact absurd (by rw [pc]; rfl) lock
  | takeBack l pc => simp [SmpVxd.takeBack, pc, Bsp.rank]
  | incStore l cnt pc => simp [pc, Bsp.rank]
  | switchIn curTid cbsNew pc => exact absurd (by rw [pc]; rfl) lock

/-- The statements that a user of the word of slot `i` has left before it gives the word back. -/
def Sys.left (s : Sys) (i : Nat) : Agent → Nat
  | .ap => (s.ap i).pc.rank
  | .bsp => s.bsp.rank

theorem Sys.left_le (s : Sys) (i : Nat) (agent : Agent) : s.left i agent ≤ 4 := by
  cases agent with
  | ap =>
      simp only [Sys.left]
      generalize (s.ap i).pc = pc
      cases pc <;> simp [ApPc.rank]
  | bsp =>
      simp only [Sys.left]
      generalize s.bsp = b
      cases b <;> simp [Bsp.rank]

/-- What the others do leaves an AP at its program point while it holds its word. -/
theorem Outcome.apPc (h : Outcome cfg s a t) (keeps : s.keeps i .ap)
    (others : ownStatement i .ap s a = none) : (t.ap i).pc = (s.ap i).pc := by
  obtain ⟨held, on⟩ := keeps
  cases h with
  | call op t idle call => cases call <;> rfl
  | bsp t h =>
      obtain same | ⟨off, _⟩ := (bspStep_outcome h).pc i
      · exact same
      · exact absurd off on
  | ap j now msClock t present h =>
      have ne : i ≠ j := by
        rintro rfl
        simp [ownStatement] at others
      rw [h.frame.others i ne]
  | nmi j t present h =>
      by_cases same : i = j
      · subst same
        cases h with
        | wake _ halted => exact absurd (by simp [Sys.word, halted, ApPc.held]) held
        | dummy _ _ => rw [Sys.setAp_self]
      · rw [h.frame.others i same]
  | trap j trap u x tid present pc =>
      have ne : i ≠ j := by
        rintro rfl
        exact held (by simp [Sys.word, pc, ApPc.held])
      rw [Sys.setAp_ne _ _ _ ne]
  | compute x idle => rfl
  | rebuildPd pageDir idle => rfl

/-- Each statement of the holder is paid for. -/
theorem Step.left (h : Step cfg s a t) (agent : Agent) (keeps : s.keeps i agent) :
    t.left i agent + (ownStatement i agent s a).toList.length ≤ s.left i agent := by
  cases agent with
  | ap =>
      by_cases others : ownStatement i .ap s a = none
      · simp only [Sys.left, others, Option.toList_none, List.length_nil, Nat.add_zero]
        exact Nat.le_of_eq (congrArg ApPc.rank (h.outcome.apPc keeps others))
      · cases h.outcome with
        | ap j now msClock t present out =>
            by_cases same : j = i
            · subst same
              have less := out.rank keeps.1
              simp only [ownStatement, Sys.left, and_self, if_true, Option.toList_some,
                List.length_singleton]
              exact less
            · exact absurd (by simp [ownStatement, same]) others
        | bsp t _ => exact absurd rfl others
        | call op t _ _ => exact absurd rfl others
        | nmi j t _ _ => exact absurd rfl others
        | trap j trap u x tid _ _ => exact absurd rfl others
        | compute x _ => exact absurd rfl others
        | rebuildPd pageDir _ => exact absurd rfl others
  | bsp =>
      have lock : s.bsp.lock ≠ none := fun none => keeps.1 (Bsp.held_of_none none i)
      cases h.outcome with
      | bsp t taken =>
          have less := (bspStep_outcome taken).rank lock
          simp only [ownStatement, Sys.left, if_true, Option.toList_some, List.length_singleton]
          exact less
      | call op t idle call => exact absurd (by rw [idle]; rfl) lock
      | ap j now msClock t present out => simp [ownStatement, Sys.left, out.frame.bsp]
      | nmi j t present out => simp [ownStatement, Sys.left, out.frame.bsp]
      | trap j trap u x tid present pc => exact Nat.le_refl _
      | compute x idle => exact absurd (by rw [idle]; rfl) lock
      | rebuildPd pageDir idle => exact absurd (by rw [idle]; rfl) lock

/-- The next statement of the holder of a word can be executed. -/
theorem Consistent.holder_goes (inv : Consistent cfg s) {agent : Agent} (present : cfg.present i = true)
    (keeps : s.keeps i agent) :
    ∃ a t, Step cfg s a t ∧ ownStatement i agent s a = some () := by
  obtain ⟨held, on⟩ := keeps
  obtain ⟨v, held⟩ := Option.ne_none_iff_exists'.mp held
  cases agent with
  | ap =>
      obtain ⟨t, enabled⟩ := apStep_enabled cfg held on 0 0
      refine ⟨.ap i 0 0, t, ?_, by simp [ownStatement]⟩
      change SmpVxd.step cfg s (.ap i 0 0) = some t
      simp only [SmpVxd.step, present, if_true, enabled]
  | bsp =>
      obtain ⟨t, enabled⟩ := bspStep_enabled inv.ledger (Bsp.lock_of_held held)
      exact ⟨.bsp, t, enabled, by simp [ownStatement]⟩

/-- The slot that the BSP waits for is a matter of its program point. -/
theorem awaits_unique (bsp : t.bsp = s.bsp) (before : s.awaits cfg = some i)
    (after : t.awaits cfg = some j) :
    j = i := by
  unfold Sys.awaits at before after
  rw [bsp] at after
  generalize s.bsp = b at before after
  cases b with
  | smpInitBsp n =>
      cases (Option.ite_none_right_eq_some.mp before).2
      cases (Option.ite_none_right_eq_some.mp after).2
      rfl
  | _ => exact Option.some.inj (after.symm.trans before)

/-- The AP gives the word back that the BSP waits for, and nothing else has changed for the BSP. -/
theorem Consistent.unblock (inv : Consistent cfg s) (started : Started cfg s) :
    ∃ as u, Run (Step cfg) s as u ∧ Consistent cfg u ∧ Started cfg u ∧ u.bsp = s.bsp ∧
      u.work cfg ≤ s.work cfg ∧ ¬ u.spins cfg := by
  by_cases spins : s.spins cfg
  · obtain ⟨i, awaits, busy⟩ := spins
    obtain ⟨present, held, on⟩ := inv.holder started awaits busy
    obtain ⟨v, held⟩ := Option.ne_none_iff_exists'.mp held
    have kept : ∀ u w, Consistent cfg u →
        (u.bsp = s.bsp ∧ ∀ j, (u.ap j).pc = .off → (s.ap j).pc = .off) → ApStep i u w →
        w.bsp = s.bsp ∧ ∀ j, (w.ap j).pc = .off → (s.ap j).pc = .off := by
      rintro u w _ ⟨bsp, off⟩ out
      refine ⟨out.frame.bsp.trans bsp, fun j switched => off j ?_⟩
      by_cases same : j = i
      · subst same
        exact out.off switched
      · rwa [out.frame.others j same] at switched
    obtain ⟨n, u, run, free, inv', bsp, off⟩ :=
      inv.ap_release kept present on held ⟨rfl, fun _ off => off⟩
    refine ⟨_, u, run, inv', ?_, bsp, Sys.work_le bsp off, ?_⟩
    · exact run.invariant (fun _ _ _ started step => Started.step started step) started
    · rintro ⟨j, awaits', busy'⟩
      cases awaits_unique bsp awaits awaits'
      exact free busy'
  · exact ⟨[], s, .nil s, inv, started, rfl, Nat.le_refl _, spins⟩

/-- From every state the operation in progress can be finished. -/
theorem Consistent.finish (inv : Consistent cfg s) (started : Started cfg s) :
    ∃ as t, Run (Step cfg) s as t ∧ t.bsp = .idle := by
  have progress : ∀ s, Consistent cfg s ∧ Started cfg s → s.bsp = .idle ∨
      ∃ as t, Run (Step cfg) s as t ∧ (Consistent cfg t ∧ Started cfg t) ∧ t.work cfg < s.work cfg := by
    rintro s ⟨inv, started⟩
    by_cases idle : s.bsp = .idle
    · exact .inl idle
    · obtain ⟨as, u, run, inv, started, bsp, le, goes⟩ := inv.unblock started
      obtain ⟨t, taken⟩ := bspStep_goes inv.ledger (bsp ▸ idle)
      have step : Step cfg u .bsp t := taken
      exact .inr ⟨as ++ [.bsp], t, run.append (.single step), ⟨inv.step step, started.step step⟩,
        Nat.lt_of_lt_of_le (bspStep_work taken goes) le⟩
  obtain ⟨as, t, run, _, idle⟩ := exists_run_of_rank (Sys.work cfg) progress ⟨inv, started⟩
  exact ⟨as, t, run, idle⟩

/-- Driver operations do not hang. In every state that is reached from the start of the
machine: while an operation is in progress, the BSP executes only so many statements, the
repeated ones apart; it repeats one only while the AP of the slot holds its word; the
holder of a word can go on, and gives the word back within four statements of its own;
and there is a way to the end of the operation. -/
theorem operations_end {as : List Action} (run : Run (Step cfg) (boot cfg) as s) :
    (∀ bs t h, Run (record (restrict (Step cfg) fun s _ => s.bsp ≠ .idle) (advance cfg)) (s, []) bs (t, h) →
      h.length ≤ 6 * cfg.ttableMax + 9) ∧
    (∀ i, s.awaits cfg = some i → (s.ap i).status = .busy →
      cfg.present i = true ∧ s.keeps i .ap) ∧
    (∀ i agent, cfg.present i = true → s.keeps i agent →
      ∃ a t, Step cfg s a t ∧ ownStatement i agent s a = some ()) ∧
    (∀ i agent bs t h,
      Run (record (restrict (Step cfg) fun s _ => s.keeps i agent) (ownStatement i agent)) (s, [])
        bs (t, h) →
      h.length ≤ 4) ∧
    ∃ bs t, Run (Step cfg) s bs t ∧ t.bsp = .idle := by
  obtain ⟨inv, started⟩ := run.invariant (P := fun s => Consistent cfg s ∧ Started cfg s)
    (fun s a t known step => ⟨known.1.step step, known.2.step step⟩) ⟨consistent_boot, started_boot⟩
  refine ⟨?_, fun i => inv.holder started, ?_, ?_, inv.finish started⟩
  · intro bs t h segment
    have paid := segment.events_le_rank (P := fun _ => True) (Sys.work cfg)
      (fun s a t _ step => ⟨trivial, step.2.work step.1⟩) trivial
    have bound : s.work cfg ≤ 6 * cfg.ttableMax + 9 := s.work_bound
    simp only [List.length_nil, Nat.zero_add] at paid
    omega
  · intro i agent present keeps
    exact inv.holder_goes present keeps
  · intro i agent bs t h segment
    have paid := segment.events_le_rank (P := fun _ => True) (fun s => s.left i agent)
      (fun s a t _ step => ⟨trivial, Step.left step.2 agent step.1⟩) trivial
    have bound := s.left_le i agent
    simp only [List.length_nil, Nat.zero_add] at paid
    omega

/-- The APs are started; then `switch_to_ap` finds the word of the AP taken. -/
theorem operations_end_waiting :
    ∃ as s, Run (Step oneAp) (boot oneAp) as s ∧ s.awaits oneAp = some 1 ∧ (s.ap 1).status = .busy ∧
      ∃ bs t, Run (Step oneAp) s bs t ∧ t.bsp = .idle := by
  have computed : (exec (step oneAp) (boot oneAp)
      ([.bsp, .bsp, .ap 1 0 0, .bsp, .bsp] ++ elevation 5 0x500 0x9000 1 ++
        [.ap 1 0 0, .call (.int3 { Crs.zero with clientEip := 0xC1000335 }), .bsp, .bsp])).any
      (fun s => s.awaits oneAp == some 1 && (s.ap 1).status = .busy) = true := by
    decide +kernel
  obtain ⟨s, run, checked⟩ := exists_run computed
  simp only [Bool.and_eq_true, decide_eq_true_eq, beq_iff_eq] at checked
  exact ⟨_, s, run, checked.1, checked.2, (operations_end run).2.2.2.2⟩

end SmpVxd
