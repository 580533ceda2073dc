import Mathlib.Data.List.Infix
import Mathlib.Data.List.TakeWhile

/-!
# Functions of the C library on strings

`strchr` and `strrchr` give the index of what they find. `atoi` is defined by C only where the
number is an `int`; what it returns elsewhere is a parameter.
-/

namespace Text

variable {α : Type*}

section

variable [DecidableEq α]

/-- The first place of `c`. -/
def strchr (c : α) : List α → Option Nat
  | [] => none
  | d :: s => if d = c then some 0 else (strchr c s).map (· + 1)

/-- The last place of `c`. -/
def strrchr (c : α) : List α → Option Nat
  | [] => none
  | d :: s =>
      match strrchr c s with
      | some k => some (k + 1)
      | none => if d = c then some 0 else none

/-- `strstr(s, pat) != NULL` -/
def strstr (s pat : List α) : Bool := pat <:+: s

variable {c : α} {s t : List α}

theorem strchr_of_not_mem (absent : c ∉ s) : strchr c s = none := by
  induction s with
  | nil => rfl
  | cons d s ih =>
      rw [List.mem_cons, not_or] at absent
      rw [strchr, if_neg (Ne.symm absent.1), ih absent.2]
      rfl

theorem strchr_append (absent : c ∉ s) : strchr c (s ++ c :: t) = some s.length := by
  induction s with
  | nil => exact if_pos rfl
  | cons d s ih =>
      rw [List.mem_cons, not_or] at absent
      rw [List.cons_append, strchr, if_neg (Ne.symm absent.1), ih absent.2]
      rfl

theorem strrchr_of_not_mem (absent : c ∉ s) : strrchr c s = none := by
  induction s with
  | nil => rfl
  | cons d s ih =>
      rw [List.mem_cons, not_or] at absent
      rw [strrchr, ih absent.2]
      exact if_neg (Ne.symm absent.1)

theorem strrchr_append (absent : c ∉ t) : strrchr c (s ++ c :: t) = some s.length := by
  induction s with
  | nil =>
      rw [List.nil_append, strrchr, strrchr_of_not_mem absent]
      exact if_pos rfl
  | cons d s ih =>
      rw [List.cons_append, strrchr, ih]
      rfl

end

/-! ## A pattern without the separator -/

variable {sep : α} {pat s t : List α}

theorem prefix_append_cons (absent : sep ∉ pat) : pat <+: s ++ sep :: t ↔ pat <+: s := by
  induction s generalizing pat with
  | nil =>
      cases pat with
      | nil => exact iff_of_true List.nil_prefix List.nil_prefix
      | cons c pat =>
          rw [List.mem_cons, not_or] at absent
          rw [List.nil_append, List.cons_prefix_cons]
          apply iff_of_false
          · rintro ⟨same, -⟩
            exact absent.1 same.symm
          · exact fun pre => absurd (List.prefix_nil.1 pre) (List.cons_ne_nil c pat)
  | cons d s ih =>
      cases pat with
      | nil => exact iff_of_true List.nil_prefix List.nil_prefix
      | cons c pat =>
          rw [List.mem_cons, not_or] at absent
          rw [List.cons_append, List.cons_prefix_cons, List.cons_prefix_cons, ih absent.2]

/-- It lies on one side of each separator. -/
theorem infix_append_cons (absent : sep ∉ pat) : pat <:+: s ++ sep :: t ↔ pat <:+: s ∨ pat <:+: t := by
  induction s with
  | nil =>
      have pre := @prefix_append_cons α sep pat [] t absent
      rw [List.nil_append] at pre
      rw [List.nil_append, List.infix_cons_iff, pre, List.prefix_nil, List.infix_nil]
  | cons d s ih =>
      have pre := @prefix_append_cons α sep pat (d :: s) t absent
      rw [List.cons_append] at pre
      rw [List.cons_append, List.infix_cons_iff, pre, ih, List.infix_cons_iff, or_assoc]

theorem infix_cons_sep (absent : sep ∉ pat) (word : pat ≠ []) : pat <:+: sep :: t ↔ pat <:+: t := by
  have split := @infix_append_cons α sep pat [] t absent
  rw [List.nil_append, List.infix_nil] at split
  rw [split]
  exact or_iff_right word

/-! ## Numbers -/

def isspace (c : Char) : Bool := c ∈ [' ', '\t', '\n', Char.ofNat 11, Char.ofNat 12, '\r']

def isdigit (c : Char) : Bool := 48 ≤ c.toNat ∧ c.toNat ≤ 57

/-- The number that begins a string. -/
def number (s : List Char) : Nat :=
  (s.takeWhile isdigit).foldl (fun n c => n * 10 + (c.toNat - 48)) 0

def signed : List Char → Int
  | '-' :: s => -number s
  | '+' :: s => number s
  | s => number s

def intMax : Int := 2147483647
def intMin : Int := -2147483648

def atoi (undefined : List Char → Int) (s : List Char) : Int :=
  let n := signed (s.dropWhile isspace)
  if intMin ≤ n ∧ n ≤ intMax then n else undefined s

def digitText (ds : List (Fin 10)) : List Char := ds.map fun d : Fin 10 => Nat.digitChar d

/-- The number with the digits `ds`. -/
def digitsValue (ds : List (Fin 10)) : Nat := ds.foldl (fun (n : Nat) (d : Fin 10) => n * 10 + d) 0

theorem digitChar_facts : ∀ d : Fin 10, isdigit (Nat.digitChar d) = true ∧ isspace (Nat.digitChar d) = false ∧
    (Nat.digitChar d).toNat - 48 = d ∧ Nat.digitChar d ≠ '-' ∧ Nat.digitChar d ≠ '+' := by decide

theorem number_digitText (ds : List (Fin 10)) : number (digitText ds) = digitsValue ds := by
  have all : ∀ c ∈ digitText ds, isdigit c = true := by
    intro c mem
    obtain ⟨d, -, rfl⟩ := List.mem_map.1 mem
    exact (digitChar_facts d).1
  rw [number, List.takeWhile_eq_self_iff.2 all, digitText, List.foldl_map, digitsValue]
  congr 1
  funext n d
  rw [(digitChar_facts d).2.2.1]

theorem atoi_digitText (undefined : List Char → Int) (ds : List (Fin 10)) :
    atoi undefined (digitText ds) =
      if (digitsValue ds : Int) ≤ intMax then (digitsValue ds : Int) else undefined (digitText ds) := by
  have plain : (digitText ds).dropWhile isspace = digitText ds := by
    cases ds with
    | nil => rfl
    | cons d ds => exact List.dropWhile_cons_of_neg (by rw [(digitChar_facts d).2.1]; decide)
  have value : signed (digitText ds) = digitsValue ds := by
    rw [← number_digitText]
    cases ds with
    | nil => rfl
    | cons d ds =>
        rw [digitText, List.map_cons, signed]
        · exact fun s same => absurd (List.cons_eq_cons.1 same).1 (digitChar_facts d).2.2.2.1
        · exact fun s same => absurd (List.cons_eq_cons.1 same).1 (digitChar_facts d).2.2.2.2
  have low : intMin ≤ (digitsValue ds : Int) := by
    rw [intMin]
    omega
  rw [atoi, plain, value]
  simp only [low, true_and]

end Text
