import SmpVxd.Transition.Basic

/-!
# Refinement mappings

A function from the states of a detailed system to those of an abstract one, under which
every detailed step is an abstract step or none at all. Runs are then mapped to runs, and
what holds in all reachable abstract states holds of the images of the reachable ones.
-/

namespace Transition

universe u v

variable {σ : Type u} {α : Type v} {τ β : Type*} {R : σ → α → σ → Prop} {Q : τ → β → τ → Prop}

/-- A step is seen as one of the abstract system, or is not seen. -/
def StepOrSame (Q : τ → β → τ → Prop) (x y : τ) : Prop := y = x ∨ ∃ b, Q x b y

theorem StepOrSame.run {x y : τ} (h : StepOrSame Q x y) : ∃ bs, Run Q x bs y := by
  obtain rfl | ⟨b, step⟩ := h
  · exact ⟨[], .nil y⟩
  · exact ⟨[b], .single step⟩

/-- A mapping may rely on what every step preserves. -/
theorem Run.mapped {f : σ → τ} {P : σ → Prop} {s t : σ} {as : List α} (run : Run R s as t)
    (known : ∀ s a t, P s → R s a t → P t) (seen : ∀ s a t, P s → R s a t → StepOrSame Q (f s) (f t))
    (start : P s) : ∃ bs, Run Q (f s) bs (f t) := by
  induction run with
  | nil s => exact ⟨[], .nil _⟩
  | cons head _ ih =>
      obtain ⟨first, here⟩ := (seen _ _ _ start head).run
      obtain ⟨rest, there⟩ := ih (known _ _ _ start head)
      exact ⟨first ++ rest, here.append there⟩

end Transition
