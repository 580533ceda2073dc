import Mathlib.Data.List.Basic

/-!
# Loops with fuel

A loop that may run on is a function of the number of rounds it is given, with a
special value `stuck` for when they are used up. `Finishes stuck f out` says that
enough rounds give `out`, and fewer give nothing else than `stuck`.
-/

namespace Transition

universe u v

variable {γ : Type u} {δ : Type v} {stuck out : γ} {f g : Nat → γ}

/-- From some number of rounds on the loop ends with `out`. -/
def Finishes (stuck : γ) (f : Nat → γ) (out : γ) : Prop :=
  ∃ n, ∀ fuel, f fuel = if n ≤ fuel then out else stuck

namespace Finishes

theorem const (out : γ) : Finishes stuck (fun _ => out) out :=
  ⟨0, fun fuel => (if_pos fuel.zero_le).symm⟩

/-- The loop ends in its first round. -/
theorem now (start : f 0 = stuck) (round : ∀ fuel, f (fuel + 1) = out) : Finishes stuck f out := by
  refine ⟨1, ?_⟩
  intro fuel
  cases fuel with
  | zero => exact start
  | succ fuel => simpa using round fuel

/-- The first round leads to a loop that ends. -/
theorem later (start : f 0 = stuck) (round : ∀ fuel, f (fuel + 1) = g fuel)
    (rest : Finishes stuck g out) : Finishes stuck f out := by
  obtain ⟨n, ends⟩ := rest
  refine ⟨n + 1, ?_⟩
  intro fuel
  cases fuel with
  | zero => simpa using start
  | succ fuel =>
      rw [round, ends]
      simp

theorem exists_eq (h : Finishes stuck f out) : ∃ fuel, f fuel = out := by
  obtain ⟨n, ends⟩ := h
  exact ⟨n, by rw [ends, if_pos (Nat.le_refl n)]⟩

/-- Whatever the number of rounds, nothing else comes out. -/
theorem eq_or_stuck (h : Finishes stuck f out) (fuel : Nat) : f fuel = out ∨ f fuel = stuck := by
  obtain ⟨n, ends⟩ := h
  rw [ends]
  split
  · exact .inl rfl
  · exact .inr rfl

theorem eq_of_ne (h : Finishes stuck f out) {fuel : Nat} (ne : f fuel ≠ stuck) : f fuel = out :=
  (h.eq_or_stuck fuel).resolve_right ne

theorem map (h : Finishes stuck f out) (φ : γ → δ) : Finishes (φ stuck) (fun fuel => φ (f fuel)) (φ out) := by
  obtain ⟨n, ends⟩ := h
  refine ⟨n, ?_⟩
  intro fuel
  simp only [ends]
  split <;> rfl

/-- A loop over a list passes the elements that it does not stop at; `f fuel before` is the
loop behind the elements `before`. -/
theorem pass {f : Nat → List δ → γ} {miss : δ → Prop} {all before mid after : List δ}
    (start : ∀ before, f 0 before = stuck)
    (round : ∀ before e rest fuel, all = before ++ e :: rest → miss e →
      f (fuel + 1) before = f fuel (before ++ [e]))
    (split : all = before ++ mid ++ after) (misses : ∀ e ∈ mid, miss e)
    (rest : Finishes stuck (fun fuel => f fuel (before ++ mid)) out) :
    Finishes stuck (fun fuel => f fuel before) out := by
  induction mid generalizing before with
  | nil => simpa using rest
  | cons e mid ih =>
      have here : all = before ++ e :: (mid ++ after) := by simpa using split
      refine later (start before) (fun fuel => round before e _ fuel here (misses e List.mem_cons_self)) ?_
      refine ih (by simpa using split) (fun e member => misses e (List.mem_cons_of_mem _ member)) ?_
      simpa using rest

/-- The same from the start of the list. -/
theorem scan {f : Nat → List δ → γ} {miss : δ → Prop} {all mid after : List δ}
    (start : ∀ before, f 0 before = stuck)
    (round : ∀ before e rest fuel, all = before ++ e :: rest → miss e →
      f (fuel + 1) before = f fuel (before ++ [e]))
    (split : all = mid ++ after) (misses : ∀ e ∈ mid, miss e)
    (rest : Finishes stuck (fun fuel => f fuel mid) out) : Finishes stuck (fun fuel => f fuel []) out :=
  pass start round (by simpa using split) misses (by simpa using rest)

end Finishes

end Transition
