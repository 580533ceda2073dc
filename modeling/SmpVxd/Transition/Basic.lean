import Mathlib.Data.List.Basic

/-!
# Runs of labelled transition systems

A system is a relation `R s a t`: action `a` takes state `s` to state `t`.
`Run R s as t` means exactly that the actions `as` lead from `s` to `t`. An
executable system is given by a partial step function, and `exec` computes the
run of such a system, so that concrete runs can be evaluated.

Restricting a system to the steps that meet a condition, and recording the
events of a run in a history, are both again systems, so the invariant and
simulation rules below serve all of them.
-/

namespace Transition

universe u v w

variable {σ : Type u} {α : Type v} {τ : Type w} {ε : Type*}

/-- Exactly the actions `as`, in this order, lead from `s` to `t`. -/
inductive Run (R : σ → α → σ → Prop) : σ → List α → σ → Prop where
  | nil (s) : Run R s [] s
  | cons {s a u as t} : R s a u → Run R u as t → Run R s (a :: as) t

namespace Run

variable {R S : σ → α → σ → Prop}

theorem single {s t : σ} {a : α} (h : R s a t) : Run R s [a] t := .cons h (.nil t)

theorem eq_of_nil {s t : σ} (run : Run R s [] t) : t = s := by
  cases run
  rfl

/-- Run segments compose. -/
theorem append {s u t : σ} {as bs : List α} (first : Run R s as u) (second : Run R u bs t) :
    Run R s (as ++ bs) t := by
  induction first with
  | nil => exact second
  | cons head _ ih => exact .cons head (ih second)

theorem mono {s t : σ} {as : List α} (sub : ∀ s a t, R s a t → S s a t)
    (run : Run R s as t) : Run S s as t := by
  induction run with
  | nil => exact .nil _
  | cons head _ ih => exact .cons (sub _ _ _ head) ih

/-- What every step preserves holds at the end of every run. -/
theorem invariant {P : σ → Prop} {s t : σ} {as : List α} (run : Run R s as t)
    (preserves : ∀ s a t, P s → R s a t → P t) (initial : P s) : P t := by
  induction run with
  | nil => exact initial
  | cons head _ ih => exact ih (preserves _ _ _ initial head)

/-- The same for a property of the state and the actions before it, newest first. -/
theorem invariant_past {P : List α → σ → Prop} {s t : σ} {as past : List α} (run : Run R s as t)
    (preserves : ∀ past s a t, P past s → R s a t → P (a :: past) t) (initial : P past s) :
    P (as.reverse ++ past) t := by
  induction run generalizing past with
  | nil => exact initial
  | cons head _ ih => simpa using ih (preserves _ _ _ _ initial head)

/-- A forward simulation: each step of the run is matched by a run of the
abstract system between related states. -/
theorem simulate {Q : τ → α → τ → Prop} {rel : σ → τ → Prop} {s t : σ} {as : List α}
    (run : Run R s as t)
    (matched : ∀ s a t x, rel s x → R s a t → ∃ y, Q x a y ∧ rel t y)
    {x : τ} (initial : rel s x) : ∃ y, Run Q x as y ∧ rel t y := by
  induction run generalizing x with
  | nil => exact ⟨x, .nil x, initial⟩
  | cons head _ ih =>
      obtain ⟨y, step, related⟩ := matched _ _ _ _ initial head
      obtain ⟨z, rest, final⟩ := ih related
      exact ⟨z, .cons step rest, final⟩

end Run

/-- Repeating one action that comes closer to the goal each time reaches it. -/
theorem exists_run_replicate {R : σ → α → σ → Prop} {a : α} {P Q : σ → Prop} (rank : σ → Nat)
    (progress : ∀ s, P s → ∃ t, R s a t ∧ (Q t ∨ P t ∧ rank t < rank s)) {s : σ} (start : P s) :
    ∃ n t, Run R s (List.replicate n a) t ∧ Q t := by
  induction bound : rank s using Nat.strongRecOn generalizing s with
  | ind k ih =>
      obtain ⟨t, step, done | ⟨again, less⟩⟩ := progress s start
      · exact ⟨1, t, .single step, done⟩
      · obtain ⟨n, u, run, done⟩ := ih (rank t) (bound ▸ less) again rfl
        exact ⟨n + 1, u, .cons step run, done⟩

/-- Whatever actions of a kind are taken, and one can be taken until then, `Q` is reached. -/
inductive Inevitable (R : σ → α → σ → Prop) (kind : α → Prop) (Q : σ → Prop) : σ → Prop where
  | now {s} : Q s → Inevitable R kind Q s
  | next {s} : (∃ a t, kind a ∧ R s a t) →
      (∀ a t, kind a → R s a t → Inevitable R kind Q t) → Inevitable R kind Q s

/-- Actions that can be taken until `Q` holds and lower a rank lead to `Q`. -/
theorem inevitable_of_rank {R : σ → α → σ → Prop} {kind : α → Prop} {Q : σ → Prop}
    {P : Nat → σ → Prop}
    (progress : ∀ n s, P n s → Q s ∨ (∃ a t, kind a ∧ R s a t) ∧
      ∀ a t, kind a → R s a t → ∃ m < n, P m t) {n : Nat} {s : σ} (start : P n s) :
    Inevitable R kind Q s := by
  induction n using Nat.strongRecOn generalizing s with
  | ind n ih =>
      obtain done | ⟨enabled, lower⟩ := progress n s start
      · exact .now done
      · refine .next enabled fun a t ha step => ?_
        obtain ⟨m, less, again⟩ := lower a t ha step
        exact ih m less again

/-- The steps of `R` that meet the condition `ok`. -/
def restrict (R : σ → α → σ → Prop) (ok : σ → α → Prop) : σ → α → σ → Prop :=
  fun s a t => ok s a ∧ R s a t

theorem Run.of_restrict {R : σ → α → σ → Prop} {ok : σ → α → Prop} {s t : σ} {as : List α}
    (run : Run (restrict R ok) s as t) : Run R s as t :=
  run.mono fun _ _ _ h => h.2

/-- A run of actions that all meet a condition. -/
theorem Run.restrict_of_forall {R : σ → α → σ → Prop} {ok : α → Prop} {s t : σ} {as : List α}
    (run : Run R s as t) (all : ∀ a ∈ as, ok a) : Run (restrict R fun _ a => ok a) s as t := by
  induction run with
  | nil => exact .nil _
  | cons head _ ih =>
      obtain ⟨first, rest⟩ := List.forall_mem_cons.mp all
      exact .cons ⟨first, head⟩ (ih rest)

/-- Two conditions on the steps of one run may be proved one after the other. -/
theorem Run.invariant_with {R : σ → α → σ → Prop} {I P : σ → Prop} {s t : σ} {as : List α}
    (run : Run R s as t) (known : ∀ s a t, I s → R s a t → I t)
    (preserves : ∀ s a t, I s → P s → R s a t → P t) (hI : I s) (hP : P s) : I t ∧ P t :=
  run.invariant (P := fun s => I s ∧ P s)
    (fun s a t h step => ⟨known s a t h.1 step, preserves s a t h.1 h.2 step⟩) ⟨hI, hP⟩

/-- The system with a history of the events its steps emit, newest first. -/
def record (R : σ → α → σ → Prop) (event : σ → α → Option ε) :
    σ × List ε → α → σ × List ε → Prop :=
  fun p a q => R p.1 a q.1 ∧ q.2 = (event p.1 a).toList ++ p.2

/-- Recording never blocks a run: every run has its history. -/
theorem Run.record {R : σ → α → σ → Prop} {s t : σ} {as : List α} (run : Run R s as t)
    (event : σ → α → Option ε) (h : List ε) :
    ∃ h', Run (record R event) (s, h) as (t, h') := by
  have matched : ∀ s a t (p : σ × List ε), p.1 = s → R s a t →
      ∃ q, Transition.record R event p a q ∧ q.1 = t := fun s a t p same step =>
    ⟨(t, (event p.1 a).toList ++ p.2), ⟨by rw [same]; exact step, rfl⟩, rfl⟩
  obtain ⟨⟨t', h'⟩, recorded, same⟩ := run.simulate matched (x := (s, h)) rfl
  cases same
  exact ⟨h', recorded⟩

/-- A partial step function seen as a relation. -/
def graph (step : σ → α → Option σ) : σ → α → σ → Prop := fun s a t => step s a = some t

/-- Perform the actions one after the other; `none` when one is not enabled. -/
def exec (step : σ → α → Option σ) : σ → List α → Option σ
  | s, [] => some s
  | s, a :: as => (step s a).bind fun t => exec step t as

theorem exec_iff {step : σ → α → Option σ} {s t : σ} {as : List α} :
    exec step s as = some t ↔ Run (graph step) s as t := by
  induction as generalizing s with
  | nil =>
      constructor
      · intro h
        cases h
        exact .nil _
      · intro h
        cases h
        rfl
  | cons a as ih =>
      constructor
      · intro h
        obtain ⟨u, head, rest⟩ := Option.bind_eq_some_iff.mp h
        exact .cons head (ih.mp rest)
      · intro h
        cases h with
        | cons head rest => exact Option.bind_eq_some_iff.mpr ⟨_, head, ih.mpr rest⟩

/-- A run that is found by computation. -/
theorem exists_run {step : σ → α → Option σ} {s : σ} {as : List α} {p : σ → Bool}
    (h : (exec step s as).any p = true) : ∃ t, Run (graph step) s as t ∧ p t = true := by
  obtain ⟨t, found, holds⟩ := (Option.any_eq_true p _).mp h
  exact ⟨t, exec_iff.mp found, holds⟩

/-- The steps of a step function that meet a condition. -/
def guard (step : σ → α → Option σ) (ok : σ → α → Bool) : σ → α → Option σ :=
  fun s a => if ok s a then step s a else none

/-- A restricted run that is found by computation. -/
theorem exists_run_restrict {step : σ → α → Option σ} {ok : σ → α → Bool} {s : σ} {as : List α}
    {p : σ → Bool} (h : (exec (guard step ok) s as).any p = true) :
    ∃ t, Run (restrict (graph step) fun s a => ok s a = true) s as t ∧ p t = true := by
  obtain ⟨t, run, holds⟩ := exists_run h
  refine ⟨t, run.mono fun s a t step => ?_, holds⟩
  exact Option.ite_none_right_eq_some.mp step

/-- A recorded and restricted run that is found by computation. -/
theorem exists_run_record {step : σ → α → Option σ} {ok : σ → α → Bool} {event : σ → α → Option ε}
    {s : σ} {as : List α} {p : σ × List ε → Bool}
    (h : (exec (fun q a => (guard step ok q.1 a).map fun t =>
      (t, (event q.1 a).toList ++ q.2)) (s, []) as).any p = true) :
    ∃ q, Run (record (restrict (graph step) fun s a => ok s a = true) event) (s, []) as q ∧
      p q = true := by
  obtain ⟨q, run, holds⟩ := exists_run h
  refine ⟨q, run.mono fun p a q step => ?_, holds⟩
  obtain ⟨t, taken, rfl⟩ := Option.map_eq_some_iff.mp step
  exact ⟨Option.ite_none_right_eq_some.mp taken, rfl⟩

end Transition
