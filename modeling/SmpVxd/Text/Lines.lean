import Mathlib.Data.List.Nodup
import Mathlib.Data.List.Flatten

/-!
# Files made of lines

A generated file has the lines of each of its entries. Where the entries have different keys,
the lines about one key are those of its entry.
-/

namespace Text

variable {α ε κ : Type*}

/-! ## Words of a line -/

variable {sep : α} {x y s t : List α}

/-- The first word of a line. -/
theorem append_cons_inj (absent : sep ∉ x) (absent' : sep ∉ y) (same : x ++ sep :: s = y ++ sep :: t) :
    x = y ∧ s = t := by
  induction x generalizing y with
  | nil =>
      cases y with
      | nil => exact ⟨rfl, List.tail_eq_of_cons_eq same⟩
      | cons c y => exact absurd (List.head_eq_of_cons_eq same) (List.ne_of_not_mem_cons absent')
  | cons d x ih =>
      cases y with
      | nil => exact absurd (List.head_eq_of_cons_eq same).symm (List.ne_of_not_mem_cons absent)
      | cons c y =>
          obtain ⟨rfl, rest⟩ := List.cons_eq_cons.1 same
          obtain ⟨rfl, after⟩ := ih (List.not_mem_of_not_mem_cons absent)
            (List.not_mem_of_not_mem_cons absent') rest
          exact ⟨rfl, after⟩

/-- The last word of a line. -/
theorem concat_inj (absent : sep ∉ x) (absent' : sep ∉ y) (same : s ++ sep :: x = t ++ sep :: y) :
    s = t ∧ x = y := by
  have flipped := congrArg List.reverse same
  simp only [List.reverse_append, List.reverse_cons, List.append_assoc, List.singleton_append] at flipped
  obtain ⟨words, rest⟩ := append_cons_inj (List.mem_reverse.not.2 absent) (List.mem_reverse.not.2 absent')
    flipped
  exact ⟨List.reverse_injective rest, List.reverse_injective words⟩

/-! ## Lines of entries -/

variable {key : ε → κ} {lines : ε → List α} {p : α → Bool} {es : List ε} {e : ε}

theorem countP_flatMap_eq_zero (none : ∀ e ∈ es, (lines e).countP p = 0) :
    (es.flatMap lines).countP p = 0 := by
  induction es with
  | nil => rfl
  | cons e es ih =>
      rw [List.flatMap_cons, List.countP_append, none e List.mem_cons_self, Nat.zero_add]
      exact ih fun e' mem => none e' (List.mem_cons_of_mem e mem)

theorem countP_flatMap_of_nodup (nodup : (es.map key).Nodup) (mem : e ∈ es)
    (others : ∀ e' ∈ es, key e' ≠ key e → (lines e').countP p = 0) :
    (es.flatMap lines).countP p = (lines e).countP p := by
  induction es with
  | nil => exact absurd mem List.not_mem_nil
  | cons head es ih =>
      rw [List.map_cons, List.nodup_cons] at nodup
      rw [List.flatMap_cons, List.countP_append]
      obtain rfl | tail := List.mem_cons.1 mem
      · rw [countP_flatMap_eq_zero, Nat.add_zero]
        intro e' mem'
        apply others e' (List.mem_cons_of_mem e mem')
        intro same
        exact nodup.1 (same ▸ List.mem_map_of_mem mem')
      · have apart : key head ≠ key e := by
          intro same
          exact nodup.1 (same ▸ List.mem_map_of_mem tail)
        rw [others head List.mem_cons_self apart, Nat.zero_add]
        exact ih nodup.2 tail fun e' mem' => others e' (List.mem_cons_of_mem head mem')

end Text
