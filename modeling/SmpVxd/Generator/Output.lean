import SmpVxd.Generator.Sections
import SmpVxd.Text.Lines

/-!
# The files of the generator

`main` writes the assembler file and the .def file from the lists, line by line. The two loops
test the flags each in its own way, yet every hook that is exported has its one body.
-/

namespace SmpVxd.Generator

open Text

/-- A line of a file, without its end. -/
abbrev TextLine := List Char

/-! ## main -/

def header : List TextLine :=
  ["format MS COFF".toList, [], "section '.text' code readable executable".toList, []]

def foot : List TextLine := ["section '.data' data readable writeable".toList]

def importLine (linkName funcName : List Char) : TextLine :=
  "extrn '__imp__".toList ++ linkName ++ "' as ".toList ++ funcName ++ ":dword".toList

def publicLine (funcName : List Char) : TextLine := "public _hook_".toList ++ funcName

def label (funcName : List Char) : TextLine := "_hook_".toList ++ funcName ++ [':']

def jmpLine (funcName : List Char) : TextLine := "    jmp [".toList ++ funcName ++ [']']

def retLine (stackArgs : Int) : TextLine :=
  if stackArgs ≠ 0 then "  ret ".toList ++ (toString stackArgs).toList else "  ret".toList

def writeFn (funcName linkName : List Char) : List TextLine :=
  [importLine linkName funcName, publicLine funcName, [], label funcName, jmpLine funcName, []]

def writeStub (funcName : List Char) (stackArgs : Int) : List TextLine :=
  [publicLine funcName, label funcName, retLine stackArgs, []]

/-- What the first loop writes for a function. -/
def asmLines (b : FuncList) : List TextLine :=
  if b.flags &&& fStub ≠ 0 then writeStub b.name b.params
  else if b.flags &&& (fHasBody ||| fRedirect ||| fData ||| fNoCrt) = 0 then writeFn b.name b.linkname
  else []

def hookLine (name : List Char) : TextLine := ['\t'] ++ name ++ " = hook_".toList ++ name

/-- What the second loop writes for a function of the library `a`. -/
def defLines (a : LibList) (b : FuncList) : List TextLine :=
  if b.flags &&& (fHasBody ||| fData ||| fRedirect ||| fNoCrt) = 0 then [hookLine b.name]
  else if b.flags &&& (fData ||| fRedirect) = fData ||| fRedirect then
    [['\t'] ++ b.name ++ " = ".toList ++ a.base ++ ['.'] ++ b.name ++ " DATA".toList]
  else if b.flags &&& fNoCrt ≠ 0 then [['\t'] ++ b.name ++ " = nocrt_".toList ++ b.name]
  else if b.flags &&& fRedirect ≠ 0 then
    [['\t'] ++ b.name ++ " = ".toList ++ a.base ++ ['.'] ++ b.name]
  else []

def asmFile (libs : List LibList) : List TextLine :=
  header ++ (libs.flatMap fun a => a.func.flatMap asmLines) ++ foot

def defFile (libs : List LibList) : List TextLine :=
  "EXPORTS".toList :: libs.flatMap fun a => a.func.flatMap (defLines a)

/-! ## What the files should be -/

/-- All functions, each with its library. -/
def entries (libs : List LibList) : List (LibList × FuncList) :=
  libs.flatMap fun a => a.func.map fun b => (a, b)

/-- The body of the hook of `b`: the only one, a `ret` for a stub, else a jump through its own
and only import. -/
def Hooked (asm : List TextLine) (b : FuncList) : Prop :=
  asm.count (label b.name) = 1 ∧
    if b.flags &&& fStub ≠ 0 then [label b.name, retLine b.params] <:+: asm
    else [label b.name, jmpLine b.name] <:+: asm ∧
      ∀ linkName, importLine linkName b.name ∈ asm ↔ linkName = b.linkname

/-- The line exports `name`. -/
def exportsName (name : List Char) (line : TextLine) : Bool := ['\t'] ++ name ++ " = ".toList <+: line

/-- The files agree on the functions, if their names are distinct. -/
def Consistent (libs : List LibList) : Prop :=
  ((entries libs).map fun e => e.2.name).Nodup →
    (∀ name, ' ' ∉ name → hookLine name ∈ defFile libs →
      ∃ e ∈ entries libs, e.2.name = name ∧ Hooked (asmFile libs) e.2) ∧
    ∀ e ∈ entries libs, (defFile libs).countP (exportsName e.2.name) ≤ 1

/-! ## The lines -/

theorem label_inj {x y : List Char} (same : label x = label y) : x = y := by
  have names : "_hook_".toList ++ x = "_hook_".toList ++ y := List.append_cancel_right same
  exact List.append_cancel_left names

theorem label_ne (name : List Char) {line : TextLine} (other : line.head? ≠ some '_') : line ≠ label name := by
  rintro rfl
  exact other rfl

theorem importLine_inj {linkName linkName' x y : List Char} (blank : ' ' ∉ x) (blank' : ' ' ∉ y)
    (same : importLine linkName x = importLine linkName' y) : linkName = linkName' ∧ x = y := by
  have words := List.append_cancel_right same
  have tails (l z : List Char) : "extrn '__imp__".toList ++ l ++ "' as ".toList ++ z =
      ("extrn '__imp__".toList ++ (l ++ "' as".toList)) ++ ' ' :: z := by simp
  rw [tails, tails] at words
  obtain ⟨links, rfl⟩ := concat_inj blank blank' words
  exact ⟨List.append_cancel_right (List.append_cancel_left links), rfl⟩

theorem importLine_head (linkName x : List Char) : (importLine linkName x).head? = some 'e' := rfl

theorem publicLine_head (x : List Char) : (publicLine x).head? = some 'p' := rfl

theorem label_head (x : List Char) : (label x).head? = some '_' := rfl

theorem jmpLine_head (x : List Char) : (jmpLine x).head? = some ' ' := rfl

theorem retLine_head (n : Int) : (retLine n).head? = some ' ' := by
  rw [retLine]
  split <;> rfl

/-- The same flags, in another order. -/
theorem hook_mask : fHasBody ||| fData ||| fRedirect ||| fNoCrt = fHasBody ||| fRedirect ||| fData ||| fNoCrt := by
  decide

variable {libs : List LibList} {b : FuncList} {e : LibList × FuncList} {x : List Char}

theorem flatMap_entries (lines : LibList → FuncList → List TextLine) (libs : List LibList) :
    (libs.flatMap fun a => a.func.flatMap (lines a)) = (entries libs).flatMap fun e => lines e.1 e.2 := by
  rw [entries, List.flatMap_assoc]
  congr 1
  funext a
  rw [List.flatMap_map]

theorem asmFile_eq (libs : List LibList) :
    asmFile libs = header ++ ((entries libs).flatMap fun e => asmLines e.2) ++ foot := by
  rw [asmFile, flatMap_entries fun _ b => asmLines b]

theorem defFile_eq (libs : List LibList) :
    defFile libs = "EXPORTS".toList :: (entries libs).flatMap fun e => defLines e.1 e.2 := by
  rw [defFile, flatMap_entries]

/-! ## The assembler file -/

theorem count_writeFn (x y linkName : List Char) : (writeFn y linkName).count (label x) = if y = x then 1 else 0 := by
  have first : importLine linkName y ≠ label x := label_ne x (by rw [importLine_head]; decide)
  have second : publicLine y ≠ label x := label_ne x (by rw [publicLine_head]; decide)
  have blank : [] ≠ label x := label_ne x (by decide)
  have last : jmpLine y ≠ label x := label_ne x (by rw [jmpLine_head]; decide)
  rw [writeFn, List.count_cons_of_ne first, List.count_cons_of_ne second, List.count_cons_of_ne blank]
  by_cases same : y = x
  · rw [same, if_pos rfl, List.count_cons_self, List.count_cons_of_ne (same ▸ last),
      List.count_cons_of_ne blank, List.count_nil]
  · have apart : label y ≠ label x := fun eq => same (label_inj eq)
    rw [if_neg same, List.count_cons_of_ne apart, List.count_cons_of_ne last, List.count_cons_of_ne blank,
      List.count_nil]

theorem count_writeStub (x y : List Char) (n : Int) :
    (writeStub y n).count (label x) = if y = x then 1 else 0 := by
  have first : publicLine y ≠ label x := label_ne x (by rw [publicLine_head]; decide)
  have blank : [] ≠ label x := label_ne x (by decide)
  have last : retLine n ≠ label x := label_ne x (by rw [retLine_head]; decide)
  rw [writeStub, List.count_cons_of_ne first]
  by_cases same : y = x
  · rw [same, if_pos rfl, List.count_cons_self, List.count_cons_of_ne last, List.count_cons_of_ne blank,
      List.count_nil]
  · have apart : label y ≠ label x := fun eq => same (label_inj eq)
    rw [if_neg same, List.count_cons_of_ne apart, List.count_cons_of_ne last, List.count_cons_of_ne blank,
      List.count_nil]

/-- A function that is exported as a hook. -/
def Exported (b : FuncList) : Prop := b.flags &&& (fHasBody ||| fData ||| fRedirect ||| fNoCrt) = 0

theorem asmLines_exported (exported : Exported b) : asmLines b =
    if b.flags &&& fStub ≠ 0 then writeStub b.name b.params else writeFn b.name b.linkname := by
  rw [Exported, hook_mask] at exported
  rw [asmLines, if_pos exported]

theorem count_asmLines_self (exported : Exported b) : (asmLines b).count (label b.name) = 1 := by
  rw [asmLines_exported exported]
  split
  · rw [count_writeStub, if_pos rfl]
  · rw [count_writeFn, if_pos rfl]

theorem count_asmLines_other (other : b.name ≠ x) : (asmLines b).count (label x) = 0 := by
  rw [asmLines]
  split
  · rw [count_writeStub, if_neg other]
  · split
    · rw [count_writeFn, if_neg other]
    · rfl

theorem count_label (distinct : ((entries libs).map fun e => e.2.name).Nodup) (mem : e ∈ entries libs)
    (exported : Exported e.2) : (asmFile libs).count (label e.2.name) = 1 := by
  have outer (lines : List TextLine) (other : ∀ line ∈ lines, line.head? ≠ some '_') :
      lines.count (label e.2.name) = 0 := by
    rw [List.count_eq_zero]
    intro mem
    exact other _ mem rfl
  have inner := @countP_flatMap_of_nodup _ _ _ (fun e : LibList × FuncList => e.2.name)
    (fun e => asmLines e.2) (· == label e.2.name) _ e distinct mem
    fun e' _ apart => count_asmLines_other apart
  rw [asmFile_eq, List.count_append, List.count_append, outer header (by decide), outer foot (by decide),
    Nat.zero_add, Nat.add_zero]
  exact inner.trans (count_asmLines_self exported)

theorem mem_writeFn {line : TextLine} (other : line.head? = some 'e') (y linkName : List Char) :
    line ∈ writeFn y linkName ↔ line = importLine linkName y := by
  constructor
  · intro mem
    simp only [writeFn, List.mem_cons, List.not_mem_nil, or_false] at mem
    obtain same | rfl | rfl | rfl | rfl | rfl := mem
    · exact same
    · rw [publicLine_head] at other
      exact absurd other (by decide)
    · exact absurd other (by decide)
    · rw [label_head] at other
      exact absurd other (by decide)
    · rw [jmpLine_head] at other
      exact absurd other (by decide)
    · exact absurd other (by decide)
  · rintro rfl
    exact List.mem_cons_self

theorem not_mem_writeStub {line : TextLine} (other : line.head? = some 'e') (y : List Char) (n : Int) :
    line ∉ writeStub y n := by
  intro mem
  simp only [writeStub, List.mem_cons, List.not_mem_nil, or_false] at mem
  obtain rfl | rfl | rfl | rfl := mem
  · rw [publicLine_head] at other
    exact absurd other (by decide)
  · rw [label_head] at other
    exact absurd other (by decide)
  · rw [retLine_head] at other
    exact absurd other (by decide)
  · exact absurd other (by decide)

/-- Where an import comes from. -/
theorem mem_asmFile_import {line : TextLine} (head : line.head? = some 'e') (mem : line ∈ asmFile libs) :
    ∃ e ∈ entries libs, line = importLine e.2.linkname e.2.name := by
  rw [asmFile_eq, List.mem_append, List.mem_append] at mem
  have outer (lines : List TextLine) (other : ∀ line ∈ lines, line.head? ≠ some 'e') : line ∉ lines :=
    fun mem => other line mem head
  obtain (begins | inner) | ends := mem
  · exact absurd begins (outer header (by decide))
  · obtain ⟨e, mem, own⟩ := List.mem_flatMap.1 inner
    refine ⟨e, mem, ?_⟩
    rw [asmLines] at own
    split at own
    · exact absurd own (not_mem_writeStub head _ _)
    · split at own
      · exact (mem_writeFn head _ _).1 own
      · exact absurd own List.not_mem_nil
  · exact absurd ends (outer foot (by decide))

theorem asmLines_infix (mem : e ∈ entries libs) : asmLines e.2 <:+: asmFile libs := by
  rw [asmFile_eq, List.flatMap_def]
  have inner : asmLines e.2 ∈ (entries libs).map fun e => asmLines e.2 := List.mem_map_of_mem mem
  exact (List.infix_of_mem_flatten inner).trans (List.infix_append _ _ _)

theorem eq_of_name (distinct : ((entries libs).map fun e => e.2.name).Nodup) {e e' : LibList × FuncList}
    (mem : e ∈ entries libs) (mem' : e' ∈ entries libs) (same : e.2.name = e'.2.name) : e = e' :=
  List.inj_on_of_nodup_map distinct mem mem' same

theorem hooked (distinct : ((entries libs).map fun e => e.2.name).Nodup)
    (solid : ∀ e ∈ entries libs, ' ' ∉ e.2.name) (mem : e ∈ entries libs) (exported : Exported e.2) :
    Hooked (asmFile libs) e.2 := by
  have whole := asmLines_infix mem
  rw [asmLines_exported exported] at whole
  refine ⟨count_label distinct mem exported, ?_⟩
  by_cases stub : e.2.flags &&& fStub ≠ 0
  · rw [if_pos stub] at whole ⊢
    exact List.IsInfix.trans ⟨[publicLine e.2.name], [[]], rfl⟩ whole
  · rw [if_neg stub] at whole ⊢
    refine ⟨List.IsInfix.trans ⟨[importLine e.2.linkname e.2.name, publicLine e.2.name, []], [[]], rfl⟩ whole,
      ?_⟩
    intro linkName
    constructor
    · intro found
      obtain ⟨e', mem', same⟩ := mem_asmFile_import (importLine_head linkName e.2.name) found
      obtain ⟨rfl, names⟩ := importLine_inj (solid e mem) (solid e' mem') same
      rw [eq_of_name distinct mem mem' names]
    · rintro rfl
      exact whole.subset List.mem_cons_self

/-! ## The .def file -/

/-- What a function is exported as, `rest`, stands behind its name. -/
theorem mem_defLines {a : LibList} {line : TextLine} (mem : line ∈ defLines a b) :
    ∃ rest, line = '\t' :: (b.name ++ ' ' :: ("= ".toList ++ rest)) ∧
      (Exported b ∧ rest = "hook_".toList ++ b.name ∨
        rest = a.base ++ ['.'] ++ b.name ++ " DATA".toList ∨
        rest = "nocrt_".toList ++ b.name ∨
        rest = a.base ++ ['.'] ++ b.name) := by
  have line_eq (rest : List Char) : ['\t'] ++ b.name ++ " = ".toList ++ rest =
      '\t' :: (b.name ++ ' ' :: ("= ".toList ++ rest)) := by simp
  rw [defLines] at mem
  split at mem
  next exported =>
    obtain rfl := List.mem_singleton.1 mem
    refine ⟨_, ?_, .inl ⟨exported, rfl⟩⟩
    rw [← line_eq, hookLine, List.append_assoc, List.append_assoc, List.append_assoc]
    rfl
  next =>
    split at mem
    · obtain rfl := List.mem_singleton.1 mem
      refine ⟨_, ?_, .inr (.inl rfl)⟩
      rw [← line_eq]
      simp only [List.append_assoc]
    · split at mem
      · obtain rfl := List.mem_singleton.1 mem
        refine ⟨_, ?_, .inr (.inr (.inl rfl))⟩
        rw [← line_eq, List.append_assoc, List.append_assoc, List.append_assoc]
        rfl
      · split at mem
        · obtain rfl := List.mem_singleton.1 mem
          refine ⟨_, ?_, .inr (.inr (.inr rfl))⟩
          rw [← line_eq]
          simp only [List.append_assoc]
        · exact absurd mem List.not_mem_nil

theorem length_defLines (a : LibList) (b : FuncList) : (defLines a b).length ≤ 1 := by
  rw [defLines]
  split
  · exact Nat.le_refl 1
  · split
    · exact Nat.le_refl 1
    · split
      · exact Nat.le_refl 1
      · split
        · exact Nat.le_refl 1
        · exact Nat.zero_le 1

theorem hookLine_eq (x : List Char) :
    hookLine x = '\t' :: (x ++ ' ' :: ("= ".toList ++ ("hook_".toList ++ x))) := by
  rw [hookLine, List.append_assoc]
  rfl

theorem exportsName_iff (line : TextLine) : exportsName x line ↔ ∃ rest, line = '\t' :: (x ++ ' ' :: ("= ".toList ++ rest)) := by
  rw [exportsName, decide_eq_true_eq]
  constructor
  · rintro ⟨rest, rfl⟩
    exact ⟨rest, by simp⟩
  · rintro ⟨rest, rfl⟩
    exact ⟨rest, by simp⟩

theorem count_defFile (distinct : ((entries libs).map fun e => e.2.name).Nodup)
    (solid : ∀ e ∈ entries libs, ' ' ∉ e.2.name) (mem : e ∈ entries libs) :
    (defFile libs).countP (exportsName e.2.name) ≤ 1 := by
  have first : exportsName e.2.name "EXPORTS".toList = false := by
    rw [Bool.eq_false_iff, Ne, exportsName_iff]
    rintro ⟨rest, same⟩
    exact absurd (List.head_eq_of_cons_eq same) (by decide)
  have others (e' : LibList × FuncList) (mem' : e' ∈ entries libs) (apart : e'.2.name ≠ e.2.name) :
      (defLines e'.1 e'.2).countP (exportsName e.2.name) = 0 := by
    rw [List.countP_eq_zero]
    intro line own exported
    obtain ⟨rest, rfl, -⟩ := mem_defLines own
    obtain ⟨rest', same⟩ := (exportsName_iff _).1 exported
    exact apart (append_cons_inj (solid e' mem') (solid e mem) (List.tail_eq_of_cons_eq same)).1
  have inner := @countP_flatMap_of_nodup _ _ _ (fun e : LibList × FuncList => e.2.name)
    (fun e => defLines e.1 e.2) (exportsName e.2.name) _ e distinct mem others
  rw [defFile_eq, List.countP_cons_of_neg (by rw [first]; decide), inner]
  exact Nat.le_trans List.countP_le_length (length_defLines e.1 e.2)

/-- Only a hook is exported as one. -/
theorem exported_of_mem {a : LibList} (blank : ' ' ∉ x) (solid : ' ' ∉ b.name)
    (mem : hookLine x ∈ defLines a b) : b.name = x ∧ Exported b := by
  obtain ⟨rest, begins, cases⟩ := mem_defLines mem
  rw [hookLine_eq] at begins
  obtain ⟨rfl, behind⟩ := append_cons_inj blank solid (List.tail_eq_of_cons_eq begins)
  have same : "hook_".toList ++ b.name = rest := List.append_cancel_left behind
  refine ⟨rfl, ?_⟩
  obtain ⟨exported, -⟩ | data | nocrt | redirect := cases
  · exact exported
  · -- a blank comes in front of DATA
    have inside : ' ' ∈ "hook_".toList ++ b.name := by
      rw [same, data]
      exact List.mem_append_right _ List.mem_cons_self
    obtain hook | name := List.mem_append.1 inside
    · exact absurd hook (by decide)
    · exact absurd name solid
  · rw [nocrt] at same
    exact absurd (List.head_eq_of_cons_eq same) (by decide)
  · rw [redirect] at same
    have prefixes := congrArg List.getLast? (List.append_cancel_right same)
    rw [List.getLast?_concat] at prefixes
    exact absurd prefixes (by decide)

theorem consistent (solid : ∀ e ∈ entries libs, ' ' ∉ e.2.name) : Consistent libs := by
  intro distinct
  constructor
  · intro name blank mem
    rw [defFile_eq, List.mem_cons] at mem
    obtain first | inner := mem
    · exact absurd (List.head_eq_of_cons_eq first) (by decide)
    · obtain ⟨e, mem, own⟩ := List.mem_flatMap.1 inner
      obtain ⟨same, exported⟩ := exported_of_mem blank (solid e mem) own
      exact ⟨e, mem, same, hooked distinct solid mem exported⟩
  · exact fun e mem => count_defFile distinct solid mem

/-! ## The generator on a file -/

theorem solid_entry {ss : List Section} (mem : e ∈ entries (ss.map Section.entry).reverse) : ' ' ∉ e.2.name := by
  obtain ⟨lib, libs, inner⟩ := List.mem_flatMap.1 mem
  obtain ⟨b, func, rfl⟩ := List.mem_map.1 inner
  obtain ⟨s, -, rfl⟩ := List.mem_map.1 (List.mem_reverse.1 libs)
  obtain ⟨f, -, rfl⟩ := List.mem_map.1 (List.mem_reverse.1 func)
  intro blank
  exact (f.name.solid ' ' blank).1.2.1 rfl

/-- The lists are what the file says, and the two files agree on them. -/
def Faithful (env : Env) (file : ListFile) : Prop :=
  ∃ libs, parseList env (some file.text) = some libs ∧
    libs = ((sections file.lines).map Section.entry).reverse ∧ Consistent libs

theorem faithful_iff (env : Env) (file : ListFile) : Faithful env file ↔
    parseList env (some file.text) = some ((sections file.lines).map Section.entry).reverse := by
  constructor
  · rintro ⟨libs, parsed, rfl, -⟩
    exact parsed
  · intro parsed
    exact ⟨_, parsed, rfl, consistent fun _ mem => solid_entry mem⟩

/-- Whatever C leaves open, the generator is faithful exactly to the files whose libraries have an
extension each, with byte counts that are `int`s. -/
theorem generator_faithful (file : ListFile) (fits : ∀ line ∈ file.lines, line.Fits) :
    (∀ env, Faithful env file) ↔ ∀ s ∈ sections file.lines, s.Sound := by
  rw [← parseList_iff file fits]
  exact forall_congr' fun env => faithful_iff env file

/-- A library line with two functions. -/
def user32 (lib : LibName) : ListFile where
  ended :=
    [(.library lib, .crlf),
      (.function .tab [] {
        name := ⟨"MessageBeep".toList, by decide, forall_of_all (by decide)⟩
        bytes := some [4]
        fields := []
        trailing := [] }, .crlf)]
  last := some (.function .space [.tab] {
    name := ⟨"wsprintfA".toList, by decide, forall_of_all (by decide)⟩
    bytes := none
    fields := [⟨.space, [], .stub⟩]
    trailing := [.space] })

def user32Dll : LibName := ⟨'u', "ser32.dll".toList, by decide, forall_of_all (by decide)⟩

def user32Bare : LibName := ⟨'u', "ser32".toList, by decide, forall_of_all (by decide)⟩

theorem generator_faithful_user32 : Faithful bare (user32 user32Dll) :=
  (generator_faithful (user32 user32Dll) (by decide)).2 (by unfold Section.Sound; decide) bare

theorem generator_unfaithful : ¬∀ (env : Env) (file : ListFile), (∀ line ∈ file.lines, line.Fits) →
    Faithful env file := by
  intro all
  have fits : ∀ line ∈ (user32 user32Bare).lines, line.Fits := by decide
  have parsed (env : Env) := (faithful_iff env (user32 user32Bare)).1 (all env (user32 user32Bare) fits)
  have sound := (parseList_iff (user32 user32Bare) fits).1 parsed _ List.mem_cons_self
  exact absurd sound.1 (by decide)

end SmpVxd.Generator
