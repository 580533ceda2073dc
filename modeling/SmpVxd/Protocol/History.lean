import SmpVxd.Protocol.Counter

/-!
# The history of a status word

From the start of the machine on, the events on a status word are: the exchange of
`_kernel_boot`, and then successful locks and unlocks in turn. Each holder changes
the value it took at most once, and only to a legal successor. The overwrite by
`Device_Thread_Destroy` is legal since the record of a thread names an AP that
holds this thread.
-/

namespace SmpVxd

open Transition WordLock

/-- The local `s` is still the value that was taken from the word. -/
def ApPc.fresh : ApPc → Bool
  | .switch _ | .clearIdleLock _ => true
  | _ => false

def Bsp.fresh : Bsp → Bool
  | .destroyDiscard _ _ _ | .apSwitch _ _ | .apStore _ _ | .bspTest _ _ => true
  | _ => false

def Sys.fresh (s : Sys) (i : Nat) : Agent → Prop
  | .ap => (s.ap i).pc.fresh = true
  | .bsp => s.bsp.fresh = true

/-- The AP has not executed the exchange of `_kernel_boot` yet. -/
def ApPc.unbooted : ApPc → Bool
  | .off | .kernelBoot => true
  | _ => false

variable {cfg : Config} {s t : Sys} {a : Action} {i j : Nat} {v w : Status}

/-- An AP keeps its copy, or replaces a fresh one by a legal successor. -/
theorem ApStep.kept (h : ApStep i s t) (before : (s.ap i).pc.held = some v)
    (after : (t.ap i).pc.held = some w) :
    v = w ∧ (t.fresh i .ap → s.fresh i .ap) ∨
      s.fresh i .ap ∧ Status.Legal v w ∧ ¬t.fresh i .ap := by
  have frame := h.frame
  simp only [Sys.fresh]
  cases h with
  | kernelBoot pc => simp [ApPc.held] at after
  | spin pc busy => simp [pc, ApPc.held] at before
  | lock pc free => simp [pc, ApPc.held] at before
  | branch x y rc now pc branch =>
      simp only [pc, ApPc.held, Sys.setAp_self, Option.some.injEq] at before after
      subst before after
      cases branch with
      | stay _ _ _ _ => exact .inl ⟨rfl, by simp [ApPc.fresh]⟩
      | sleep => exact .inr ⟨by simp [pc, ApPc.fresh], by decide, by simp [ApPc.fresh]⟩
      | load => exact .inr ⟨by simp [pc, ApPc.fresh], by decide, by simp [ApPc.fresh]⟩
  | notify ts pc found lock =>
      simp only [pc, ApPc.held, Sys.setAp_self, Option.some.injEq] at before after
      subst before after
      exact .inl ⟨rfl, by simp [pc, ApPc.fresh]⟩
  | silent pc absent =>
      simp only [pc, ApPc.held, Sys.setAp_self, Option.some.injEq] at before after
      subst before after
      exact .inr ⟨by simp [pc, ApPc.fresh], by decide, by simp [ApPc.fresh]⟩
  | discard now pc =>
      simp only [pc, ApPc.held, Sys.setAp_self, Option.some.injEq] at before after
      subst before after
      exact .inr ⟨by simp [pc, ApPc.fresh], by decide, by simp [ApPc.fresh]⟩
  | clearIdleLock lock pc =>
      simp only [Sys.setAp, Function.update_self, pc, ApPc.held, Option.some.injEq] at before after
      subst before after
      exact .inr ⟨by simp [pc, ApPc.fresh], by decide, by simp [Sys.setAp, ApPc.fresh]⟩
  | incLoad pc =>
      simp only [pc, ApPc.held, Sys.setAp_self, Option.some.injEq] at before after
      subst before after
      exact .inl ⟨rfl, by simp [ApPc.fresh]⟩
  | incStore cnt pc =>
      simp only [Sys.setAp, Function.update_self, pc, ApPc.held, Option.some.injEq] at before after
      subst before after
      exact .inl ⟨rfl, by simp [Sys.setAp, ApPc.fresh]⟩
  | unlock x rc pc =>
      simp only [Sys.setAp_self] at after
      split at after
      · cases after
      · split at after <;> cases after
  | sti pc => simp [pc, ApPc.held] at before
  | hlt pc => simp [pc, ApPc.held] at before
  | switchtask fpu pc => simp [pc, ApPc.held] at before

theorem BspMove.fresh {b : Bsp} (h : BspMove i b v w) : b.fresh = true := by
  cases h <;> rfl

theorem BspGoto.fresh {b c : Bsp} (h : BspGoto cfg s b c) (fresh : c.fresh = true) :
    b.fresh = true := by
  cases h with
  | noLock l v ts _ _ _ => rfl
  | noAp l _ =>
      simp only [switchToApReturn] at fresh
      split at fresh <;> cases fresh
  | _ => cases fresh

/-- The successor that the BSP writes back is legal. For the hand-off and for the
overwrite of a destroyed thread this rests on what the operation knows. -/
theorem Consistent.bspMove_legal (inv : Consistent cfg s) (move : BspMove i s.bsp v w)
    (value : s.value i = v) : Status.Legal v w := by
  have ok := inv.ledger.bsp
  have record : s.bsp.leaving = none → ∀ tid ts, s.tsHt.get tid = some ts → ts.smpStatus ≠ 0 →
      (s.value ts.smpApid).hosting = true := fun leaving tid ts found status =>
    (inv.hosting_of_record leaving found status).1
  generalize s.bsp = b at move ok record
  cases move with
  | handOff l v cpu =>
      have free := ok.2.2.2.2
      cases v <;> first | decide | cases free
  | takeBack l cpu => decide
  | discard tid v =>
      obtain ⟨ts, found, one, rfl⟩ := ok
      have hosting := record rfl tid ts found (by rw [one]; decide)
      rw [value] at hosting
      cases v <;> first | decide | cases hosting

/-- While the BSP holds a word, its copy is fresh only if it was so before. -/
theorem BspStep.fresh (h : BspStep cfg s t) (held : s.bsp.lock ≠ none)
    (fresh : t.bsp.fresh = true) : s.bsp.fresh = true ∧ t.bsp.lock = s.bsp.lock := by
  cases h with
  | goto b h => exact ⟨h.fresh fresh, h.lock⟩
  | startAp j pc _ _ => exact absurd (by rw [pc]; rfl) held
  | awaitAp j pc => exact absurd (by rw [pc]; rfl) held
  | spin cpu next at_ _ => exact absurd at_.lock.1 held
  | lock cpu next at_ _ => exact absurd at_.lock.1 held
  | unlock cpu v b at_ =>
      generalize s.bsp = c at at_
      cases at_ <;> cases fresh
  | discard tid cpu v pc => cases fresh
  | free tid pc => cases fresh
  | setIdleLock l v ts pc _ _ _ =>
      rw [pc]
      exact ⟨rfl, rfl⟩
  | handOff l v ts pc found => cases fresh
  | wakeup l v pc _ => cases fresh
  | decStore l cnt pc => exact absurd (by rw [pc]; rfl) held
  | takeBack l pc => cases fresh
  | incStore l cnt pc => cases fresh
  | switchIn curTid cbsNew pc => exact absurd (by rw [pc]; rfl) held

theorem BspStep.kept (inv : Consistent cfg s) (h : BspStep cfg s t)
    (before : s.bsp.held i = some v) (after : t.bsp.held i = some w) :
    v = w ∧ (t.fresh i .bsp → s.fresh i .bsp) ∨
      s.fresh i .bsp ∧ Status.Legal v w ∧ ¬t.fresh i .bsp := by
  have lock := Bsp.lock_of_held before
  have held : s.bsp.lock ≠ none := by simp [lock]
  have keep (same : t.bsp.lock = s.bsp.lock) : v = w := by
    rw [Bsp.held_congr same, before] at after
    exact Option.some.inj after
  obtain none | none | same | ⟨cpu, x, y, first, second, move⟩ := h.lock_cases
  · exact absurd none held
  · cases (Bsp.held_of_none none i).symm.trans after
  · exact .inl ⟨keep same, fun fresh => (h.fresh held fresh).1⟩
  · cases lock.symm.trans first
    cases (Bsp.held_of_lock second).symm.trans after
    by_cases fresh : t.bsp.fresh = true
    · exact .inl ⟨keep (h.fresh held fresh).2, fun _ => (h.fresh held fresh).1⟩
    · exact .inr ⟨move.fresh, inv.bspMove_legal move (inv.locks.value_of_bsp before), fresh⟩

theorem Status.Legal.refl (v : Status) : Status.Legal v v := .inl rfl

/-- What a step does to the copy of an agent: it is kept, or a fresh one is replaced
by a legal successor. -/
def Kept (s t : Sys) (i : Nat) (agent : Agent) : Prop :=
  ∀ v w, (s.word i).held agent = some v → (t.word i).held agent = some w →
    v = w ∧ (t.fresh i agent → s.fresh i agent) ∨
      s.fresh i agent ∧ Status.Legal v w ∧ ¬t.fresh i agent

theorem kept_ap (same : (t.ap i).pc = (s.ap i).pc) : Kept s t i .ap := by
  intro v w before after
  simp only [Sys.word, same] at before after
  exact .inl ⟨Option.some.inj (before.symm.trans after), by simp only [Sys.fresh, same, imp_self]⟩

theorem kept_bsp (same : t.bsp = s.bsp) : Kept s t i .bsp := by
  intro v w before after
  simp only [Sys.word, same] at before after
  exact .inl ⟨Option.some.inj (before.symm.trans after), by simp only [Sys.fresh, same, imp_self]⟩

theorem kept_of_none {agent : Agent} (none : (s.word i).held agent = none) : Kept s t i agent :=
  fun v w before _ => by cases none.symm.trans before

theorem Outcome.kept (inv : Consistent cfg s) (h : Outcome cfg s a t) (agent : Agent) :
    Kept s t i agent := by
  cases h with
  | call op t idle call =>
      cases agent with
      | ap => exact kept_ap (by rw [call.ap])
      | bsp => exact kept_of_none (Bsp.held_of_none (by rw [idle]; rfl) i)
  | bsp t h =>
      have out := bspStep_outcome h
      cases agent with
      | ap =>
          obtain same | ⟨off, boot⟩ := out.pc i
          · exact kept_ap same
          · intro v w before after
            simp only [Sys.word, off, boot, ApPc.held] at before after
            exact .inl ⟨Option.some.inj (before.symm.trans after),
              by simp [Sys.fresh, boot, ApPc.fresh]⟩
      | bsp => exact fun v w before after => out.kept inv before after
  | ap j now msClock t present h =>
      cases agent with
      | ap =>
          by_cases same : i = j
          · subst same
            exact fun v w before after => h.kept before after
          · exact kept_ap (by rw [h.frame.others i same])
      | bsp => exact kept_bsp h.frame.bsp
  | nmi j t present h =>
      cases agent with
      | ap =>
          by_cases same : i = j
          · subst same
            cases h with
            | wake _ halted => exact kept_of_none (by simp [Sys.word, halted, ApPc.held])
            | dummy _ _ => exact kept_ap (by simp)
          · exact kept_ap (by rw [h.frame.others i same])
      | bsp => exact kept_bsp h.frame.bsp
  | trap j trap u x tid present pc =>
      cases agent with
      | ap =>
          by_cases same : i = j
          · subst same
            exact kept_of_none (by simp [Sys.word, pc, ApPc.held])
          · exact kept_ap (by rw [Sys.setAp_ne _ _ _ same])
      | bsp => exact kept_bsp rfl
  | compute x idle =>
      cases agent with
      | ap => exact kept_ap rfl
      | bsp => exact kept_bsp rfl
  | rebuildPd pageDir idle =>
      cases agent with
      | ap => exact kept_ap rfl
      | bsp => exact kept_bsp rfl

/-- The history so far fits the word of slot `i`; before the exchange of
`_kernel_boot` there is none. -/
def Chronicle (i : Nat) (s : Sys) (h : List (Event Status)) : Prop :=
  if (s.ap i).pc.unbooted = true then h = []
  else Logged Status.Legal (s.fresh i) (s.word i) h

theorem unbooted_held (h : (s.ap i).pc.unbooted = true) : (s.ap i).pc.held = some .ready := by
  generalize (s.ap i).pc = pc at h ⊢
  cases pc <;> first | rfl | cases h

theorem ApStep.unbooted (h : ApStep i s t) (now : BitVec 64) (msClock : Dword) :
    (t.ap i).pc.unbooted = (s.ap i).pc.unbooted ∨
      (s.ap i).pc.unbooted = true ∧ (t.ap i).pc.unbooted = false ∧
        wordEvent i s (.ap i now msClock) = some (.write .ready) := by
  cases h with
  | kernelBoot pc => exact .inr ⟨by rw [pc]; rfl, by simp [ApPc.unbooted], by simp [wordEvent, pc]⟩
  | unlock v rc pc =>
      left
      simp only [Sys.setAp_self, pc]
      split
      · rfl
      · split <;> rfl
  | spin pc _ => exact .inl rfl
  | lock pc _ => exact .inl (by simp [pc, ApPc.unbooted])
  | branch v w rc now pc _ => exact .inl (by simp [pc, ApPc.unbooted])
  | notify ts pc _ _ => exact .inl (by simp [pc, ApPc.unbooted])
  | silent pc _ => exact .inl (by simp [pc, ApPc.unbooted])
  | discard now pc => exact .inl (by simp [pc, ApPc.unbooted])
  | clearIdleLock lock pc => exact .inl (by simp [Sys.setAp, pc, ApPc.unbooted])
  | incLoad pc => exact .inl (by simp [pc, ApPc.unbooted])
  | incStore cnt pc => exact .inl (by simp [Sys.setAp, pc, ApPc.unbooted])
  | sti pc => exact .inl (by simp [pc, ApPc.unbooted])
  | hlt pc => exact .inl (by simp [pc, ApPc.unbooted])
  | switchtask fpu pc => exact .inl (by simp [pc, ApPc.unbooted])

/-- An AP boots once, with the exchange of `_kernel_boot`. -/
theorem Outcome.unbooted (h : Outcome cfg s a t) :
    (t.ap i).pc.unbooted = (s.ap i).pc.unbooted ∨
      (s.ap i).pc.unbooted = true ∧ (t.ap i).pc.unbooted = false ∧
        wordEvent i s a = some (.write .ready) := by
  cases h with
  | call op t idle call => exact .inl (by rw [call.ap])
  | bsp t h =>
      obtain same | ⟨off, boot⟩ := (bspStep_outcome h).pc i
      · exact .inl (by rw [same])
      · exact .inl (by rw [off, boot]; rfl)
  | ap j now msClock t present h =>
      by_cases same : i = j
      · subst same
        exact h.unbooted now msClock
      · exact .inl (by rw [h.frame.others i same])
  | nmi j t present h =>
      by_cases same : i = j
      · subst same
        cases h with
        | wake _ halted => exact .inl (by simp [halted, ApPc.unbooted])
        | dummy _ _ => exact .inl (by simp)
      · exact .inl (by rw [h.frame.others i same])
  | trap j trap u x tid present pc =>
      by_cases same : i = j
      · subst same
        exact .inl (by simp [Ap.switchBack, pc, ApPc.unbooted])
      · exact .inl (by rw [Sys.setAp_ne _ _ _ same])
  | compute x idle => exact .inl rfl
  | rebuildPd pageDir idle => exact .inl rfl

theorem Outcome.chronicle (inv : Consistent cfg s) (h : Outcome cfg s a t)
    {events : List (Event Status)} (chronicle : Chronicle i s events) :
    Chronicle i t ((wordEvent i s a).toList ++ events) := by
  have word := h.word i
  have exclusive := inv.locks i
  unfold Chronicle at chronicle ⊢
  obtain same | ⟨before, after, event⟩ := h.unbooted (i := i)
  · rw [same]
    split at chronicle
    · rename_i unbooted
      subst chronicle
      rw [if_pos unbooted, List.append_nil]
      -- the word stays with the AP, so there is no event
      have holds : (s.word i).held .ap = some .ready := unbooted_held unbooted
      have held : (t.word i).held .ap = some .ready := unbooted_held (same.trans unbooted)
      generalize wordEvent i s a = event at word ⊢
      cases word with
      | stay _ _ => rfl
      | take b free _ _ _ _ => exact absurd (exclusive.busy_of_held holds) free
      | move _ _ _ _ _ _ _ _ => rfl
      | write b v holds' _ gone _ =>
          obtain rfl := exclusive.unique holds' holds
          cases gone.symm.trans held
    · rename_i booted
      rw [if_neg booted]
      exact chronicle.step Status.Legal.refl exclusive word
        fun agent v w held now => h.kept inv agent v w held now
  · rw [if_pos before] at chronicle
    rw [after, if_neg (by decide), chronicle, event, List.append_nil]
    rw [event] at word
    have opened : (∀ b, (t.word i).held b = none) ∧ (t.word i).word = .ready := by
      generalize ev : some (Event.write Status.ready) = e at word
      cases word with
      | write b v holds written gone others =>
          cases ev
          refine ⟨fun c => ?_, written⟩
          by_cases same : c = b
          · rw [same, gone]
          · rw [others c same, exclusive.others holds same]
      | stay _ _ => cases ev
      | take _ _ _ _ _ _ => cases ev
      | move _ _ _ _ _ _ _ _ => cases ev
    have first : Logged Status.Legal (t.fresh i) (t.word i) [.write (t.word i).word] :=
      .first opened.1
    rwa [opened.2] at first

/-- Every status word is a lock and a state at once. Whatever the order of the steps
from the start of the machine on: at most one CPU holds the word of an AP; once the
AP has booted, the word is `S_BUSY` exactly while somebody holds it; every holder
writes back a legal successor of what it took; and the values taken are the values
written, in the same order, the newest write apart if nobody holds the word. -/
theorem status_word {as : List Action} {events : List (Event Status)} (i : Nat)
    (run : Run (record (Step cfg) (wordEvent i)) (boot cfg, []) as (t, events)) :
    (∀ x y v w, (t.word i).held x = some v → (t.word i).held y = some w → x = y) ∧
    ((t.ap i).pc.unbooted = false →
      ((t.ap i).status = .busy ↔ ∃ x v, (t.word i).held x = some v)) ∧
    (∀ exchange ∈ exchanges events, Status.Legal exchange.1 exchange.2) ∧
    ((t.ap i).pc.unbooted = false →
      written events = if (t.ap i).status = .busy then taken events
        else (t.ap i).status :: taken events) := by
  have start : Chronicle i (boot cfg) [] := by
    have unbooted : ((boot cfg).ap i).pc.unbooted = true := rfl
    unfold Chronicle
    rw [if_pos unbooted]
  obtain ⟨inv, chronicle⟩ := run.invariant_with (I := fun p => Consistent cfg p.1)
    (P := fun p => Chronicle i p.1 p.2) (fun p a q inv step => inv.step step.1)
    (fun p a q inv chronicle step => by
      rw [step.2]
      exact step.1.outcome.chronicle inv chronicle)
    consistent_boot start
  have exclusive := inv.locks i
  have logged (booted : (t.ap i).pc.unbooted = false) :
      Logged Status.Legal (t.fresh i) (t.word i) events := by
    simpa [Chronicle, booted] using chronicle
  refine ⟨fun _ _ _ _ => exclusive.unique, fun _ => exclusive.busy_iff, ?_, fun booted => ?_⟩
  · cases booted : (t.ap i).pc.unbooted with
    | true =>
        have none : events = [] := by simpa [Chronicle, booted] using chronicle
        simp [none, exchanges]
    | false => exact (logged booted).history.legal
  · have log := logged booted
    split
    · rename_i busy
      obtain ⟨x, v, held⟩ := exclusive.held_of_busy busy
      obtain ⟨u, g, rfl, _⟩ := log.holding x v held
      exact log.history.taken_eq_written.symm
    · rename_i free
      obtain ⟨g, rfl⟩ := log.released (exclusive.none_of_ne free)
      exact log.history.written_eq_cons

/-- The AP is started, boots, and finds nothing to do. -/
theorem status_word_boot :
    ∃ as t events, Run (record (Step oneAp) (wordEvent 1)) (boot oneAp, []) as (t, events) ∧
      (t.ap 1).status = .sleep ∧ written events = .sleep :: taken events := by
  have computed : (exec (step oneAp) (boot oneAp)
      ([.bsp, .bsp, .ap 1 0 0, .bsp, .bsp] ++ List.replicate 3 (.ap 1 0 0))).any
      (fun t => (t.ap 1).pc.unbooted == false && (t.ap 1).status = .sleep) = true := by
    decide +kernel
  obtain ⟨t, run, checked⟩ := exists_run computed
  simp only [Bool.and_eq_true, decide_eq_true_eq, beq_iff_eq] at checked
  obtain ⟨events, recorded⟩ := run.record (wordEvent 1) []
  have last := (status_word 1 recorded).2.2.2 checked.1
  rw [checked.2] at last
  exact ⟨_, t, events, recorded, checked.2, last⟩

end SmpVxd
