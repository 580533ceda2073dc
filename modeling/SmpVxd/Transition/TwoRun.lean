import SmpVxd.Transition.Basic

/-!
# Two runs of one system

A property of two runs is one of a run of pairs: both sides take a step at a time, and
the actions match. What a step function computes from a view of the state alone is the
same on both sides as long as the views of the actions are.
-/

namespace Transition

universe u v w

variable {σ : Type u} {α : Type v} {τ : Type w} {β : Type*}

/-- Both sides take a step, with actions that match in the state on the left. -/
def paired (R : σ → α → σ → Prop) (twin : σ → α → α → Prop) :
    σ × σ → α × α → σ × σ → Prop :=
  fun p a q => twin p.1 a.1 a.2 ∧ R p.1 a.1 q.1 ∧ R p.2 a.2 q.2

/-- A step on both sides, for a pair of actions that is coded so that whether it may be
taken can be computed. -/
def pairStep (step : σ → α → Option σ) (acts : β → α × α) (good : σ × σ → β → Bool) (p : σ × σ)
    (b : β) : Option (σ × σ) :=
  if good p b then
    (step p.1 (acts b).1).bind fun q => (step p.2 (acts b).2).map fun q' => (q, q')
  else none

/-- A run of pairs that is found by computation. -/
theorem exists_run_paired {step : σ → α → Option σ} {ok : σ → α → Bool} {twin : σ → α → α → Prop}
    {acts : β → α × α} {good : σ × σ → β → Bool} {first : σ × σ → α × α → Prop} {p : σ × σ}
    {bs : List β} {check : σ × σ → Bool}
    (sound : ∀ p b, good p b = true → twin p.1 (acts b).1 (acts b).2 ∧ first p (acts b))
    (h : (exec (pairStep (guard step ok) acts good) p bs).any check = true) :
    ∃ q, Run (restrict (paired (restrict (graph step) fun s a => ok s a = true) twin) first) p
      (bs.map acts) q ∧ check q = true := by
  obtain ⟨q, run, holds⟩ := exists_run h
  refine ⟨q, ?_, holds⟩
  clear h holds
  induction run with
  | nil => exact .nil _
  | @cons p b u bs q head _ ih =>
      refine .cons ?_ ih
      obtain ⟨taken, head⟩ := Option.ite_none_right_eq_some.mp head
      obtain ⟨left, leftStep, head⟩ := Option.bind_eq_some_iff.mp head
      obtain ⟨right, rightStep, rfl⟩ := Option.map_eq_some_iff.mp head
      obtain ⟨matching, condition⟩ := sound p b taken
      exact ⟨condition, matching, Option.ite_none_right_eq_some.mp leftStep,
        Option.ite_none_right_eq_some.mp rightStep⟩

/-- The step function computes the view of the next state from the views of the state
and of the action. -/
def Commutes (step : σ → α → Option σ) (view : σ → τ) (act : α → β) (step' : τ → β → Option τ) : Prop :=
  ∀ s a, (step s a).map view = step' (view s) (act a)

/-- States that look the same do so after steps that look the same. -/
theorem Commutes.same_view {step : σ → α → Option σ} {view : σ → τ} {act : α → β}
    {step' : τ → β → Option τ} (commutes : Commutes step view act step') {s s' t t' : σ} {a a' : α}
    (same : view s = view s') (matching : act a = act a') (h : step s a = some t)
    (h' : step s' a' = some t') : view t = view t' := by
  have left := commutes s a
  have right := commutes s' a'
  rw [h, same, matching] at left
  rw [h'] at right
  exact Option.some.inj (left.trans right.symm)

end Transition
