import SmpVxd.Generator.Lines

/-!
# parse_list on a file

The lists after the whole file, from what each line does, and when they are what the file
says whatever C leaves open.
-/

namespace SmpVxd.Generator

open Text

variable {env : Env} {s : State}

/-! ## All lines -/

theorem run_ended (clean : Clean s) {line : Line} (stop : LineEnd) (fits : line.Fits) :
    ∃ t, run env s (line.text ++ stop.text) = some t ∧ Clean t ∧ t.libs = absorb env s.libs line := by
  obtain ⟨t, u, read, ended, after, libs⟩ := @run_line env s clean line fits
  refine ⟨u, ?_, after, libs⟩
  rw [run_append, read, Option.bind_some]
  cases stop with
  | lf =>
      change (endLine env t).bind _ = _
      rw [ended]
      rfl
  | crlf =>
      change (endLine env t).bind _ = _
      rw [ended]
      rfl

theorem run_lines (clean : Clean s) {ended : List (Line × LineEnd)} (fits : ∀ l ∈ ended, l.1.Fits) :
    ∃ t, run env s (ended.flatMap fun l => l.1.text ++ l.2.text) = some t ∧ Clean t ∧
      t.libs = (ended.map Prod.fst).foldl (absorb env) s.libs := by
  induction ended generalizing s with
  | nil => exact ⟨s, rfl, clean, rfl⟩
  | cons l ended ih =>
      obtain ⟨t, first, between, libs⟩ := @run_ended env s clean l.1 l.2 (fits l List.mem_cons_self)
      obtain ⟨u, rest, after, all⟩ := ih between fun l' mem => fits l' (List.mem_cons_of_mem l mem)
      refine ⟨u, ?_, after, ?_⟩
      · rw [List.flatMap_cons, run_append, first, Option.bind_some, rest]
      · rw [all, libs]
        rfl

theorem parseList_eq (env : Env) (file : ListFile) (fits : ∀ line ∈ file.lines, line.Fits) :
    parseList env (some file.text) = some (file.lines.foldl (absorb env) []) := by
  have begin : Clean start := ⟨rfl, rfl, rfl⟩
  have fits_ended : ∀ l ∈ file.ended, l.1.Fits := by
    intro l mem
    exact fits l.1 (List.mem_append_left _ (List.mem_map_of_mem mem))
  obtain ⟨t, read, clean, libs⟩ := @run_lines env start begin file.ended fits_ended
  have whole : parseList env (some file.text) =
      ((run env start file.text).bind (endLine env)).map State.libs := by
    have eof (s : State) : [none].foldlM (step env) s = endLine env s := by
      change (endLine env s).bind _ = _
      cases endLine env s <;> rfl
    change ((file.text.map some ++ [none]).foldlM (step env) start).map State.libs = _
    rw [List.foldlM_append, funext eof]
    rfl
  rw [whole, ListFile.text, ListFile.lines, run_append, read, Option.bind_some, List.foldl_append]
  cases last : file.last with
  | none =>
      obtain ⟨u, ended, -, same⟩ := @endLine_empty env t clean.buf
      change ((endLine env t)).map State.libs = _
      rw [ended, Option.map_some, same, libs]
      rfl
  | some line =>
      have fits_last : line.Fits := by
        apply fits line
        rw [ListFile.lines, last]
        exact List.mem_append_right _ List.mem_cons_self
      obtain ⟨u, v, read', ended, -, same⟩ := @run_line env t clean line fits_last
      change ((run env t line.text).bind (endLine env)).map State.libs = _
      rw [read', Option.bind_some, ended, Option.map_some, same, libs]
      rfl

/-! ## From lines to sections -/

/-- What the code makes of a section; `k` libraries come before it. -/
def Section.read (env : Env) (k : Nat) (s : Section) : LibList :=
  ⟨s.lib.text, baseOf (env.heap k) s.lib.text, (s.functions.map (Function.read env)).reverse⟩

/-- More functions for the latest library. -/
def extend (env : Env) (fs : List Function) : List LibList → List LibList
  | [] => []
  | lib :: libs => { lib with func := (fs.map (Function.read env)).reverse ++ lib.func } :: libs

theorem extend_nil (env : Env) (libs : List LibList) : extend env [] libs = libs := by
  cases libs <;> rfl

theorem extend_cons (env : Env) (f : Function) (fs : List Function) (b : Blank) (more : List Blank)
    (libs : List LibList) (kept : f.ignored = false) :
    extend env fs (absorb env libs (.function b more f)) = extend env (f :: fs) libs := by
  cases libs with
  | nil => rfl
  | cons lib libs =>
      rw [absorb, if_neg (Bool.eq_false_iff.1 kept), extend, extend, List.map_cons, List.reverse_cons,
        List.append_assoc]
      rfl

theorem absorb_ignored (env : Env) (f : Function) (b : Blank) (more : List Blank) (libs : List LibList)
    (ignored : f.ignored = true) : absorb env libs (.function b more f) = libs := by
  cases libs with
  | nil => rfl
  | cons lib libs => rw [absorb, if_pos ignored]

theorem functions_cons (b : Blank) (more : List Blank) (f : Function) (lines : List Line) :
    functions (.function b more f :: lines) =
      if f.ignored then functions lines else f :: functions lines := by
  change (Line.function b more f :: lines.takeWhile _).filterMap Line.function? = _
  rw [List.filterMap_cons, Line.function?]
  cases f.ignored <;> rfl

theorem length_absorb_function (env : Env) (libs : List LibList) (b : Blank) (more : List Blank)
    (f : Function) : (absorb env libs (.function b more f)).length = libs.length := by
  cases libs with
  | nil => rfl
  | cons lib libs =>
      rw [absorb]
      split <;> rfl

theorem foldl_absorb (env : Env) (libs : List LibList) (lines : List Line) :
    lines.foldl (absorb env) libs =
      ((sections lines).mapIdx fun i s => s.read env (libs.length + i)).reverse ++
        extend env (functions lines) libs := by
  induction lines generalizing libs with
  | nil =>
      rw [functions]
      exact (extend_nil env libs).symm
  | cons line lines ih =>
      rw [List.foldl_cons, ih]
      cases line with
      | library lib =>
          have none : functions (.library lib :: lines) = [] := rfl
          rw [none, extend_nil, sections, List.mapIdx_cons, List.reverse_cons, List.append_assoc]
          congr 2
          · congr 1
            funext i s
            rw [absorb, List.length_cons]
            congr 1
            omega
          · rw [absorb, extend, List.append_nil]
            rfl
      | function b more f =>
          have same : sections (.function b more f :: lines) = sections lines := rfl
          rw [length_absorb_function, same, functions_cons]
          congr 1
          cases ignored : f.ignored with
          | true =>
              rw [if_pos rfl, absorb_ignored env f b more libs ignored]
          | false =>
              rw [if_neg Bool.false_ne_true, extend_cons env f _ b more libs ignored]
      | blank bs => rfl

/-! ## Sections that come out right -/

/-- The library has an extension, and the byte counts are `int`s. -/
def Section.Sound (s : Section) : Prop :=
  '.' ∈ s.lib.text ∧ ∀ f ∈ s.functions, (f.count : Int) ≤ intMax

theorem read_of_sound {s : Section} (sound : s.Sound) (env : Env) (k : Nat) : s.read env k = s.entry := by
  have same : s.functions.map (Function.read env) = s.functions.map Function.entry := by
    apply List.map_congr_left
    intro f mem
    rw [Function.read, countOf, if_pos (sound.2 f mem)]
    rfl
  rw [Section.read, baseOf, if_pos sound.1, same, Section.entry, withoutExtension, if_pos sound.1]

/-- Blocks with zeros in them, and -1 for a number that is too large. -/
def bare : Env := ⟨fun _ _ => nul, fun _ => -1⟩

theorem sound_of_read {s : Section} {k : Nat} (same : s.read bare k = s.entry) : s.Sound := by
  constructor
  · by_contra dotless
    have base := congrArg LibList.base same
    change baseOf _ _ = withoutExtension _ at base
    rw [baseOf, if_neg dotless, withoutExtension, if_neg dotless] at base
    exact List.cons_ne_nil _ _ base.symm
  · have func := List.reverse_injective (congrArg LibList.func same)
    intro f mem
    have params := congrArg FuncList.params (List.map_inj_left.1 func f mem)
    change countOf bare f = f.count at params
    rw [countOf] at params
    by_contra large
    rw [if_neg large] at params
    change (-1 : Int) = f.count at params
    omega

/-- The lists are what the file says, whatever C leaves open, exactly when all sections are sound. -/
theorem parseList_iff (file : ListFile) (fits : ∀ line ∈ file.lines, line.Fits) :
    (∀ env, parseList env (some file.text) = some ((sections file.lines).map Section.entry).reverse) ↔
      ∀ s ∈ sections file.lines, s.Sound := by
  have parsed (env : Env) : parseList env (some file.text) =
      some ((sections file.lines).mapIdx fun i s => s.read env i).reverse := by
    rw [parseList_eq env file fits, foldl_absorb, extend, List.append_nil]
    simp only [List.length_nil, Nat.zero_add]
  simp only [parsed, Option.some_inj, List.reverse_inj]
  constructor
  · intro all s mem
    obtain ⟨i, lt, rfl⟩ := List.mem_iff_getElem.1 mem
    have nth := congrArg (·[i]?) (all bare)
    simp only [List.getElem?_mapIdx, List.getElem?_map, List.getElem?_eq_getElem lt, Option.map_some,
      Option.some_inj] at nth
    exact sound_of_read nth
  · intro sound env
    apply List.ext_getElem
    · rw [List.length_mapIdx, List.length_map]
    · intro i lt lt'
      rw [List.getElem_mapIdx, List.getElem_map]
      exact read_of_sound (sound _ (List.getElem_mem _)) env i

end SmpVxd.Generator
