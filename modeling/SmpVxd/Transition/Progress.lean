import SmpVxd.Transition.Basic

/-!
# Progress by a rank

A natural number that no step raises and certain steps lower bounds how many of these
steps a run can take, whatever else happens in between. And when every state short of
the goal has a run that lowers the rank, the goal can be reached.
-/

namespace Transition

universe u v

variable {σ : Type u} {α : Type v} {ε : Type*} {R : σ → α → σ → Prop}

/-- Every event of the run is paid for by the rank. -/
theorem Run.events_le_rank {event : σ → α → Option ε} {P : σ → Prop} (rank : σ → Nat)
    (pays : ∀ s a t, P s → R s a t → P t ∧ rank t + (event s a).toList.length ≤ rank s)
    {s t : σ} {h h' : List ε} {as : List α} (run : Run (Transition.record R event) (s, h) as (t, h'))
    (start : P s) : h'.length + rank t ≤ h.length + rank s := by
  have kept := run.invariant (P := fun p => P p.1 ∧ p.2.length + rank p.1 ≤ h.length + rank s) ?_
    ⟨start, Nat.le_refl _⟩
  · exact kept.2
  · rintro p a q ⟨holds, bound⟩ ⟨step, recorded⟩
    obtain ⟨next, paid⟩ := pays p.1 a q.1 holds step
    refine ⟨next, ?_⟩
    rw [recorded, List.length_append]
    omega

/-- From each state that has not reached the goal, some run lowers the rank. -/
theorem exists_run_of_rank {P Q : σ → Prop} (rank : σ → Nat)
    (progress : ∀ s, P s → Q s ∨ ∃ as t, Run R s as t ∧ P t ∧ rank t < rank s) {s : σ} (start : P s) :
    ∃ as t, Run R s as t ∧ P t ∧ Q t := by
  induction bound : rank s using Nat.strongRecOn generalizing s with
  | ind n ih =>
      obtain done | ⟨as, t, run, again, less⟩ := progress s start
      · exact ⟨[], s, .nil s, start, done⟩
      · obtain ⟨bs, u, rest, holds, done⟩ := ih (rank t) (bound ▸ less) again rfl
        exact ⟨as ++ bs, u, run.append rest, holds, done⟩

end Transition
