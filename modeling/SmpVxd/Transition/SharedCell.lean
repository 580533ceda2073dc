import Mathlib.Tactic.ByContra

/-!
# Unlocked read-modify-writes on a shared cell

An agent reads the cell into a copy of its own and later stores a value computed
from this copy. Nothing protects the cell in between. If no agent reads while
another one has a copy, then every stored value is computed from the value that is
in the cell at that time, as if the read and the store were one step.
-/

namespace Transition.SharedCell

variable {A V : Type*}

/-- The cell, and the copies of the agents between their read and their store. -/
structure State (A V : Type*) where
  cell : V
  copy : A → Option V

inductive Step (s t : State A V) : Prop where
  | stay : t.cell = s.cell → (∀ a, t.copy a = s.copy a) → Step s t
  | load (a) : t.cell = s.cell → t.copy a = some s.cell → (∀ b, b ≠ a → t.copy b = s.copy b) →
      Step s t
  | store (a v) : s.copy a = some v → t.copy a = none → (∀ b, b ≠ a → t.copy b = s.copy b) →
      Step s t

/-- At most one agent has a copy, and this copy is what the cell contains. -/
structure Atomic (s : State A V) : Prop where
  unique : ∀ {a b v w}, s.copy a = some v → s.copy b = some w → a = b
  current : ∀ {a v}, s.copy a = some v → v = s.cell

/-- The step reads the cell while nobody has a copy, or it does not read. -/
def Uncontended (s t : State A V) : Prop :=
  (∃ a, s.copy a = none ∧ (t.copy a).isSome = true) → ∀ b, s.copy b = none

namespace Atomic

variable {s t : State A V}

theorem of_none (none : ∀ a, s.copy a = none) : Atomic s := by
  refine ⟨fun {a b v w} ha _ => ?_, fun {a v} ha => ?_⟩ <;> cases (none a).symm.trans ha

/-- Without contention, copies stay current until they are stored. -/
theorem step (h : Atomic s) (step : Step s t) (quiet : Uncontended s t) : Atomic t := by
  classical
  cases step with
  | stay cell copy =>
      refine ⟨fun {a b v w} ha hb => ?_, fun {a v} ha => ?_⟩
      · rw [copy] at ha hb
        exact h.unique ha hb
      · rw [copy] at ha
        rw [cell]
        exact h.current ha
  | load a cell self others =>
      have others' : ∀ b, b ≠ a → t.copy b = none := by
        intro b ne
        rw [others b ne]
        cases old : s.copy a with
        | none => exact quiet ⟨a, old, by rw [self]; rfl⟩ b
        | some v =>
            cases other : s.copy b with
            | none => rfl
            | some w => exact absurd (h.unique other old) ne
      have only : ∀ {b v}, t.copy b = some v → b = a := by
        intro b v hb
        by_contra ne
        cases (others' b ne).symm.trans hb
      refine ⟨fun ha hb => (only ha).trans (only hb).symm, fun {b v} hb => ?_⟩
      obtain rfl := only hb
      rw [self] at hb
      cases hb
      exact cell.symm
  | store a v holds self others =>
      refine .of_none fun b => ?_
      by_cases same : b = a
      · rw [same, self]
      · rw [others b same]
        cases other : s.copy b with
        | none => rfl
        | some w => exact absurd (h.unique other holds) same

end Atomic

end Transition.SharedCell
