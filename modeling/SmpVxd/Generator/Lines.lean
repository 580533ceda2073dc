import SmpVxd.Generator.ListFile

/-!
# parse_list on a line

What the loop of `parse_list` does on each kind of line, from the state at its beginning to
the state after its end.
-/

namespace SmpVxd.Generator

open Text

/-! ## Flags -/

theorem blank_not_mem (b : Blank) (flag : Flag) : b.char ∉ flag.text := by
  cases b <;> cases flag <;> decide

theorem flag_infix_iff (flag other : Flag) : flag.text <:+: other.text ↔ flag = other := by
  cases flag <;> cases other <;> decide

theorem flag_ne_nil (flag : Flag) : flag.text ≠ [] := by
  cases flag <;> decide

theorem infix_blanks_append (flag : Flag) (bs : List Blank) (s : List Char) :
    flag.text <:+: blanks bs ++ s ↔ flag.text <:+: s := by
  induction bs with
  | nil => exact Iff.rfl
  | cons b bs ih =>
      rw [← ih]
      exact infix_cons_sep (blank_not_mem b flag) (flag_ne_nil flag)

theorem infix_blanks (flag : Flag) (bs : List Blank) : ¬flag.text <:+: blanks bs := by
  rw [← List.append_nil (blanks bs), infix_blanks_append, List.infix_nil]
  exact flag_ne_nil flag

theorem infix_fields (flag : Flag) (fields : List FlagField) (trailing : List Blank) :
    flag.text <:+: fields.flatMap FlagField.text ++ blanks trailing ↔
      flag ∈ fields.map FlagField.flag := by
  induction fields with
  | nil => exact iff_of_false (infix_blanks flag trailing) List.not_mem_nil
  | cons field fields ih =>
      have word (s : List Char) : flag.text <:+: field.text ++ s ↔ flag.text <:+: field.flag.text ++ s := by
        rw [FlagField.text, List.cons_append, infix_cons_sep (blank_not_mem _ flag) (flag_ne_nil flag),
          List.append_assoc, infix_blanks_append]
      rw [List.flatMap_cons, List.append_assoc, word, List.map_cons, List.mem_cons, ← ih,
        ← flag_infix_iff]
      -- a blank comes next, or the end
      have next : (fields.flatMap FlagField.text ++ blanks trailing = []) ∨
          ∃ b rest, fields.flatMap FlagField.text ++ blanks trailing = Blank.char b :: rest := by
        cases fields with
        | nil =>
            cases trailing with
            | nil => exact .inl rfl
            | cons b bs => exact .inr ⟨b, _, rfl⟩
        | cons other fields => exact .inr ⟨other.blank, _, rfl⟩
      obtain none | ⟨b, rest, more⟩ := next
      · rw [none, List.append_nil, List.infix_nil]
        exact (or_iff_left (flag_ne_nil flag)).symm
      · rw [more, infix_append_cons (blank_not_mem b flag),
          infix_cons_sep (blank_not_mem b flag) (flag_ne_nil flag)]

/-- The code looks at the line behind the first blank. -/
theorem strstr_tail (f : Function) (flag : Flag) :
    strstr f.tail.tail flag.text = decide (flag ∈ f.flags) := by
  rw [strstr, decide_eq_decide]
  refine Iff.trans ?_ (infix_fields flag f.fields f.trailing)
  change _ ↔ flag.text <:+: f.tail
  cases f with
  | mk name bytes fields trailing =>
      cases fields with
      | nil =>
          cases trailing with
          | nil => exact Iff.rfl
          | cons b bs => exact (infix_cons_sep (blank_not_mem b flag) (flag_ne_nil flag)).symm
      | cons field fields =>
          exact (infix_cons_sep (blank_not_mem field.blank flag) (flag_ne_nil flag)).symm

/-- The word with the flags that `p` has. -/
def Flag.collect (p : Flag → Bool) : Flags :=
  let f := 0
  let f := if p .ignore then f ||| fIgnore else f
  let f := if p .hasBody then f ||| fHasBody else f
  let f := if p .stub then f ||| fStub else f
  let f := if p .data then f ||| fData else f
  let f := if p .redirect then f ||| fRedirect else f
  if p .noCrt then f ||| fNoCrt else f

theorem collect_insert (p : Flag → Bool) (flag : Flag) :
    Flag.collect (fun other => decide (other = flag) || p other) = flag.mask ||| Flag.collect p := by
  rw [Flag.collect, Flag.collect]
  generalize p .ignore = a
  generalize p .hasBody = b
  generalize p .stub = c
  generalize p .data = d
  generalize p .redirect = e
  generalize p .noCrt = g
  revert a b c d e g
  cases flag <;> decide

theorem word_eq_collect (flags : List Flag) : Flag.word flags = Flag.collect fun flag => decide (flag ∈ flags) := by
  induction flags with
  | nil => rfl
  | cons flag flags ih =>
      have same : (fun other => decide (other ∈ flag :: flags)) =
          fun other => decide (other = flag) || decide (other ∈ flags) := by
        funext other
        rw [← Bool.decide_or, decide_eq_decide]
        exact List.mem_cons
      rw [same, collect_insert, ← ih]
      rfl

theorem parseFlags_tail (f : Function) : parseFlags f.tail.tail = Flag.word f.flags := by
  have same : (fun flag : Flag => strstr f.tail.tail flag.text) = fun flag => decide (flag ∈ f.flags) :=
    funext (strstr_tail f)
  rw [word_eq_collect, ← same]
  rfl

theorem collect_ignore (p : Flag → Bool) : Flag.collect p &&& fIgnore = 0 ↔ p .ignore = false := by
  rw [Flag.collect]
  generalize p .ignore = a
  generalize p .hasBody = b
  generalize p .stub = c
  generalize p .data = d
  generalize p .redirect = e
  generalize p .noCrt = g
  revert a b c d e g
  decide

theorem ignored_iff (f : Function) : Flag.word f.flags &&& fIgnore = 0 ↔ f.ignored = false := by
  rw [word_eq_collect, collect_ignore]
  exact Iff.rfl

/-! ## The lists after a line -/

theorem exists_extension {name : List Char} (dot : '.' ∈ name) :
    ∃ stem ext, '.' ∉ ext ∧ withoutExtension name = stem ∧ name = stem ++ '.' :: ext := by
  have last : name.rdropWhile (· ≠ '.') ≠ [] := by
    intro none
    rw [List.rdropWhile_eq_nil_iff] at none
    exact absurd rfl (of_decide_eq_true (none '.' dot))
  have ends : (name.rdropWhile (· ≠ '.')).getLast last = '.' := by
    have stop := List.rdropWhile_last_not (· ≠ '.') name last
    rw [decide_eq_true_eq, not_not] at stop
    exact stop
  have split : (name.rdropWhile (· ≠ '.')).dropLast ++ ['.'] = name.rdropWhile (· ≠ '.') := by
    have whole := List.dropLast_append_getLast last
    rw [ends] at whole
    exact whole
  refine ⟨(name.rdropWhile (· ≠ '.')).dropLast, name.rtakeWhile (· ≠ '.'), ?_, if_pos dot, ?_⟩
  · intro mem
    have ne := @List.mem_rtakeWhile_imp Char (· ≠ '.') name '.' mem
    exact absurd rfl (of_decide_eq_true ne)
  · rw [← List.singleton_append, ← List.append_assoc, split]
    exact List.rdropWhile_append_rtakeWhile.symm

/-- The `base` of a library, where `junk` is in its block before. -/
def baseOf (junk : Nat → Char) (name : List Char) : List Char :=
  if '.' ∈ name then withoutExtension name else (⟨junk, 0⟩ : Buffer nameMax).string

theorem libBase_eq (junk : Nat → Char) {name : List Char} (short : name.length < nameMax)
    (plain : nul ∉ name) : libBase junk name = some (baseOf junk name) := by
  rw [libBase, baseOf]
  by_cases dot : '.' ∈ name
  · obtain ⟨stem, ext, absent, same, split⟩ := exists_extension dot
    rw [if_pos dot, same, split, strrchr_append absent]
    rw [split, List.length_append] at short
    rw [split, List.mem_append, not_or] at plain
    have empty : (⟨junk, 0⟩ : Buffer nameMax).text = [] := rfl
    obtain ⟨base, copied⟩ := @Buffer.emitAll_of_fits nameMax ⟨junk, 0⟩ stem (by
      rw [empty, List.length_nil]
      omega)
    have text := Buffer.text_emitAll copied
    rw [empty, List.nil_append] at text
    obtain ⟨base', ended⟩ := @Buffer.put_of_room nameMax base (by rw [text]; omega) nul
    have string := Buffer.string_put_nul (text ▸ plain.1) ended
    dsimp only
    rw [List.take_left, copied, Option.bind_eq_bind, Option.bind_some, ended, Option.bind_some, string,
      text]
  · rw [if_neg dot, strrchr_of_not_mem dot]

/-- The count that the code gets for a function. -/
def countOf (env : Env) (f : Function) : Int :=
  if (f.count : Int) ≤ intMax then f.count else env.overflow (digitText (f.bytes.getD []))

def Function.read (env : Env) (f : Function) : FuncList :=
  ⟨f.name.text, f.link, countOf env f, Flag.word f.flags⟩

theorem newFunc_eq (env : Env) (f : Function) (short : f.link.length < nameMax) :
    newFunc env f.link (Flag.word f.flags) = some (f.read env) := by
  have absent : '@' ∉ f.name.text := fun mem => (f.name.solid '@' mem).2 rfl
  rw [newFunc, copyName, if_pos short, Option.bind_eq_bind, Option.bind_some]
  cases bytes : f.bytes with
  | none =>
      have link : f.link = f.name.text := by
        rw [Function.link, bytes]
        exact List.append_nil _
      have zero : countOf env f = 0 := by
        rw [countOf, Function.count, bytes]
        rfl
      rw [link] at short ⊢
      rw [strchr_of_not_mem absent]
      dsimp only
      rw [copyName, if_pos short, Option.bind_some, Function.read, link, zero]
  | some ds =>
      have link : f.link = f.name.text ++ '@' :: digitText ds := by
        rw [Function.link, bytes]
        rfl
      have count : countOf env f = atoi env.overflow (digitText ds) := by
        rw [countOf, Function.count, bytes, atoi_digitText]
        rfl
      have room : f.name.text.length < nameMax := by
        rw [link, List.length_append] at short
        omega
      have drop : (f.name.text ++ '@' :: digitText ds).drop (f.name.text.length + 1) = digitText ds := by
        rw [List.drop_append]
        simp
      rw [Function.read, count, link, strchr_append absent]
      dsimp only
      rw [List.take_left, copyName, if_pos room, Option.bind_some, drop]

/-- The lists after a line. -/
def absorb (env : Env) (libs : List LibList) : Line → List LibList
  | .library lib => ⟨lib.text, baseOf (env.heap libs.length) lib.text, []⟩ :: libs
  | .function _ _ f =>
      match libs with
      | [] => []
      | lib :: libs =>
          if f.ignored then lib :: libs else { lib with func := f.read env :: lib.func } :: libs
  | .blank _ => libs

theorem nul_not_mem_library (lib : LibName) : nul ∉ lib.text := by
  intro mem
  obtain first | rest := List.mem_cons.1 mem
  · exact lib.solid.1.2.2 first.symm
  · exact (lib.inLine nul rest).2.2 rfl

theorem addLine_library (env : Env) (libs : List LibList) (lib : LibName)
    (short : lib.text.length < nameMax) :
    addLine env .lib lib.text [] libs = some (absorb env libs (.library lib)) := by
  change newLib env lib.text libs = _
  rw [newLib, copyName, if_pos short, libBase_eq _ short (nul_not_mem_library lib)]
  rfl

theorem addLine_function (env : Env) (libs : List LibList) (b : Blank) (more : List Blank) (f : Function)
    {fsm : Fsm} (inner : fsm ≠ .lib) (short : f.link.length < nameMax) :
    addLine env fsm f.link f.tail.tail libs = some (absorb env libs (.function b more f)) := by
  cases libs with
  | nil =>
      cases fsm with
      | lib => exact absurd rfl inner
      | func | funcParam => rfl
  | cons lib libs =>
      have same : addLine env fsm f.link f.tail.tail (lib :: libs) =
          if parseFlags f.tail.tail &&& fIgnore = 0 then
            (newFunc env f.link (parseFlags f.tail.tail)).map fun fl =>
              { lib with func := fl :: lib.func } :: libs
          else some (lib :: libs) := by
        cases fsm with
        | lib => exact absurd rfl inner
        | func | funcParam => rfl
      rw [same, parseFlags_tail, newFunc_eq env f short, absorb]
      cases ignored : f.ignored with
      | true =>
          rw [if_neg (by rw [ignored_iff, ignored]; decide)]
          rfl
      | false =>
          rw [if_pos ((ignored_iff f).2 ignored)]
          rfl

/-! ## The characters of a line -/

variable {env : Env} {s t : State} {c : Char} {cs : List Char}

def run (env : Env) (s : State) (cs : List Char) : Option State := (cs.map some).foldlM (step env) s

theorem run_cons (env : Env) (s : State) (c : Char) (cs : List Char) :
    run env s (c :: cs) = (step env s (some c)).bind (run env · cs) := List.foldlM_cons ..

theorem run_append (env : Env) (s : State) (cs ds : List Char) :
    run env s (cs ++ ds) = (run env s cs).bind (run env · ds) := by
  rw [run, List.map_append]
  exact List.foldlM_append ..

theorem step_inLine (inLine : InLine c) (blank : c = ' ' ∨ c = '\t' → s.buf.out ≠ 0)
    (lib : s.fsm = .lib ∨ s.fsm = .func ∧ c ≠ ' ' ∧ c ≠ '\t') : step env s (some c) = s.push c := by
  rw [step, if_neg inLine.1, if_neg inLine.2.1]
  by_cases space : c = ' ' ∨ c = '\t'
  · obtain fsm | ⟨-, h⟩ := lib
    · rw [if_pos space, if_neg (blank space), fsm]
    · exact absurd space (not_or.2 h)
  · rw [if_neg space]
    obtain fsm | ⟨fsm, -⟩ := lib
    · rw [fsm]
    · rw [fsm]

theorem step_param (inLine : InLine c) (begun : s.buf.out ≠ 0) (fsm : s.fsm = .funcParam) :
    step env s (some c) = s.pushParam c := by
  rw [step, if_neg inLine.1, if_neg inLine.2.1, fsm]
  by_cases space : c = ' ' ∨ c = '\t'
  · rw [if_pos space, if_neg begun]
  · rw [if_neg space]

theorem step_blank (b : Blank) : step env s (some b.char) =
    if s.buf.out = 0 then some { s with fsm := .func }
    else
      match s.fsm with
      | .lib => s.push b.char
      | .func => some { s with fsm := .funcParam }
      | .funcParam => s.pushParam b.char := by
  cases b <;> rfl

/-- The blanks that begin a line. -/
theorem run_blanks (bs : List Blank) (fsm : s.fsm = .func) (empty : s.buf.out = 0) :
    run env s (blanks bs) = some s := by
  induction bs with
  | nil => rfl
  | cons b bs ih =>
      have same : ({ s with fsm := .func } : State) = s := by rw [← fsm]
      rw [blanks, List.map_cons, run_cons, step_blank, if_pos empty, Option.bind_some, same]
      exact ih

theorem run_push (pushes : ∀ c ∈ cs, ∀ buf : Buffer bufMax, s.buf.out ≤ buf.out →
    step env { s with buf := buf } (some c) = State.push { s with buf := buf } c) :
    run env s cs = (s.buf.emitAll cs).map fun buf => { s with buf := buf } := by
  induction cs generalizing s with
  | nil => rfl
  | cons c cs ih =>
      rw [run_cons, pushes c List.mem_cons_self s.buf (Nat.le_refl _), State.push, Buffer.emitAll,
        List.foldlM_cons]
      change ((s.buf.emit c).map _).bind _ = ((s.buf.emit c).bind _).map _
      cases first : s.buf.emit c with
      | none => rfl
      | some buf =>
          obtain ⟨-, moved⟩ := Buffer.emit_iff.1 first
          have after : s.buf.out ≤ buf.out := by
            rw [← moved]
            exact Nat.le_succ _
          apply ih
          intro d mem buf' le
          exact pushes d (List.mem_cons_of_mem c mem) buf' (Nat.le_trans after le)

theorem run_pushParam (inLine : ∀ c ∈ cs, InLine c) (begun : s.buf.out ≠ 0) (fsm : s.fsm = .funcParam) :
    run env s cs = (s.bufParam.emitAll cs).map fun bufParam => { s with bufParam := bufParam } := by
  induction cs generalizing s with
  | nil => rfl
  | cons c cs ih =>
      rw [run_cons, step_param (inLine c List.mem_cons_self) begun fsm, State.pushParam, Buffer.emitAll,
        List.foldlM_cons]
      change ((s.bufParam.emit c).map _).bind _ = ((s.bufParam.emit c).bind _).map _
      cases s.bufParam.emit c with
      | none => rfl
      | some bufParam => exact ih (fun d mem => inLine d (List.mem_cons_of_mem c mem)) begun fsm

/-! ## The end of a line -/

/-- The state between two lines. -/
structure Clean (s : State) : Prop where
  fsm : s.fsm = .lib
  buf : s.buf.out = 0
  bufParam : s.bufParam.out = 0

theorem Clean.buf_text (clean : Clean s) : s.buf.text = [] :=
  List.length_eq_zero_iff.1 (Buffer.length_text.trans clean.buf)

theorem Clean.bufParam_text (clean : Clean s) : s.bufParam.text = [] :=
  List.length_eq_zero_iff.1 (Buffer.length_text.trans clean.bufParam)

theorem endLine_empty (empty : s.buf.out = 0) :
    ∃ t, endLine env s = some t ∧ Clean t ∧ t.libs = s.libs := by
  rw [endLine, if_neg (not_not.2 empty)]
  exact ⟨_, rfl, ⟨rfl, rfl, rfl⟩, rfl⟩

theorem endLine_entry {libs : List LibList} (begun : s.buf.text ≠ []) (room : s.buf.text.length < bufMax)
    (roomParam : s.bufParam.text.length < bufMax) (plain : nul ∉ s.buf.text)
    (plainParam : nul ∉ s.bufParam.text)
    (added : addLine env s.fsm s.buf.text s.bufParam.text s.libs = some libs) :
    ∃ t, endLine env s = some t ∧ Clean t ∧ t.libs = libs := by
  obtain ⟨buf, ended⟩ := Buffer.put_of_room room nul
  obtain ⟨bufParam, endedParam⟩ := Buffer.put_of_room roomParam nul
  have nonempty : s.buf.out ≠ 0 := by
    intro zero
    rw [← Buffer.length_text] at zero
    exact begun (List.length_eq_zero_iff.1 zero)
  rw [endLine, if_pos nonempty]
  simp only [Option.bind_eq_bind, ended, endedParam, Option.bind_some,
    Buffer.string_put_nul plain ended, Buffer.string_put_nul plainParam endedParam, added]
  exact ⟨_, rfl, ⟨rfl, rfl, rfl⟩, rfl⟩

/-! ## One line -/

theorem emitAll_clean {b : Buffer bufMax} (empty : b.text = []) (room : cs.length < bufMax) :
    ∃ b', b.emitAll cs = some b' ∧ b'.text = cs := by
  obtain ⟨b', written⟩ := @Buffer.emitAll_of_fits bufMax b cs (by
    rw [empty, List.length_nil, Nat.zero_add]
    exact Nat.le_of_lt room)
  refine ⟨b', written, ?_⟩
  rw [Buffer.text_emitAll written, empty, List.nil_append]

theorem run_library (clean : Clean s) (lib : LibName) (room : lib.text.length < bufMax) :
    ∃ t, run env s lib.text = some t ∧ t.fsm = .lib ∧ t.buf.text = lib.text ∧ t.bufParam.text = [] ∧
      t.libs = s.libs := by
  obtain ⟨b, written, text⟩ := emitAll_clean clean.buf_text room
  obtain ⟨u, first, rest⟩ := Option.bind_eq_some_iff.1 written
  refine ⟨{ s with buf := b }, ?_, clean.fsm, text, clean.bufParam_text, rfl⟩
  have pushed : s.push lib.first = some { s with buf := u } := by
    rw [State.push, first]
    rfl
  have begun : 0 < u.out := by
    obtain ⟨-, rfl⟩ := Buffer.emit_iff.1 first
    exact Nat.succ_pos _
  have notBlank : lib.first = ' ' ∨ lib.first = '\t' → s.buf.out ≠ 0 :=
    fun blank => absurd blank (not_or.2 lib.solid.2)
  rw [LibName.text, run_cons, step_inLine lib.solid.1 notBlank (.inl clean.fsm), pushed,
    Option.bind_some, run_push]
  · change (u.emitAll lib.rest).map _ = _
    rw [Buffer.emitAll, rest]
    rfl
  · intro c mem buf le
    exact step_inLine (lib.inLine c mem) (fun _ => Nat.ne_of_gt (Nat.lt_of_lt_of_le begun le))
      (.inl clean.fsm)

theorem forall_of_all {p : Char → Prop} [DecidablePred p] (all : cs.all (p ·) = true) : ∀ c ∈ cs, p c := by
  intro c mem
  exact of_decide_eq_true (List.all_eq_true.1 all c mem)

theorem link_solid (f : Function) : ∀ c ∈ f.link, Solid c := by
  intro c mem
  obtain name | bytes := List.mem_append.1 mem
  · exact (f.name.solid c name).1
  · have digit : ∀ d : Fin 10, Solid (Nat.digitChar d) := by decide
    cases given : f.bytes with
    | none =>
        rw [given] at bytes
        exact absurd bytes List.not_mem_nil
    | some ds =>
        rw [given] at bytes
        obtain rfl | digits := List.mem_cons.1 bytes
        · decide
        · obtain ⟨d, -, rfl⟩ := List.mem_map.1 digits
          exact digit d

theorem blanks_inLine (bs : List Blank) : ∀ c ∈ blanks bs, InLine c := by
  intro c mem
  obtain ⟨b, -, rfl⟩ := List.mem_map.1 mem
  cases b <;> decide

theorem tail_inLine (f : Function) : ∀ c ∈ f.tail, InLine c := by
  have word (flag : Flag) : ∀ c ∈ flag.text, InLine c := by
    apply forall_of_all
    cases flag <;> decide
  intro c mem
  obtain fields | trailing := List.mem_append.1 mem
  · obtain ⟨field, -, text⟩ := List.mem_flatMap.1 fields
    obtain rfl | more := List.mem_cons.1 text
    · exact blanks_inLine [field.blank] _ List.mem_cons_self
    · obtain blank | flag := List.mem_append.1 more
      · exact blanks_inLine field.more c blank
      · exact word field.flag c flag
  · exact blanks_inLine f.trailing c trailing

/-- The line behind the name begins with a blank. -/
theorem tail_cases (f : Function) : f.tail = [] ∨ ∃ b rest, f.tail = Blank.char b :: rest := by
  cases f with
  | mk name bytes fields trailing =>
      cases fields with
      | nil =>
          cases trailing with
          | nil => exact .inl rfl
          | cons b bs => exact .inr ⟨b, _, rfl⟩
      | cons field fields => exact .inr ⟨field.blank, _, rfl⟩

theorem link_ne_nil (f : Function) : f.link ≠ [] := by
  intro none
  exact f.name.nonempty (List.append_eq_nil_iff.1 none).1

/-- The state behind the name of a function. -/
theorem run_link (clean : Clean s) (b : Blank) (more : List Blank) (f : Function)
    (room : f.link.length < bufMax) :
    ∃ buf : Buffer bufMax, run env s (b.char :: (blanks more ++ f.link)) =
        some { s with fsm := .func, buf := buf } ∧ buf.text = f.link := by
  obtain ⟨buf, written, text⟩ := emitAll_clean clean.buf_text room
  refine ⟨buf, ?_, text⟩
  have leading : run env { s with fsm := .func } (blanks more) = some { s with fsm := .func } :=
    run_blanks more rfl clean.buf
  rw [run_cons, step_blank, if_pos clean.buf, Option.bind_some, run_append, leading, Option.bind_some,
    run_push]
  · change (s.buf.emitAll f.link).map _ = _
    rw [written]
    rfl
  · intro c mem buf' le
    have solid := link_solid f c mem
    exact step_inLine solid.1 (fun blank => absurd blank (not_or.2 solid.2)) (.inr ⟨rfl, solid.2⟩)

theorem run_function (clean : Clean s) (b : Blank) (more : List Blank) (f : Function)
    (room : f.link.length < bufMax) (roomParam : f.tail.length < bufMax) :
    ∃ t, run env s (Line.function b more f).text = some t ∧ t.fsm ≠ .lib ∧ t.buf.text = f.link ∧
      t.bufParam.text = f.tail.tail ∧ t.libs = s.libs := by
  obtain ⟨buf, name, text⟩ := @run_link env s clean b more f room
  have split : (Line.function b more f).text = (b.char :: (blanks more ++ f.link)) ++ f.tail := by
    rw [List.cons_append, List.append_assoc]
    rfl
  rw [split, run_append, name, Option.bind_some]
  obtain none | ⟨sep, rest, tail⟩ := tail_cases f
  · rw [none]
    exact ⟨_, rfl, Fsm.noConfusion, text, clean.bufParam_text, rfl⟩
  · have begun : buf.out ≠ 0 := by
      rw [← Buffer.length_text, text]
      intro zero
      exact link_ne_nil f (List.length_eq_zero_iff.1 zero)
    rw [tail, List.length_cons] at roomParam
    obtain ⟨bufParam, written, textParam⟩ := @emitAll_clean rest s.bufParam clean.bufParam_text (by omega)
    refine ⟨{ s with fsm := .funcParam, buf := buf, bufParam := bufParam }, ?_, Fsm.noConfusion, text, ?_,
      rfl⟩
    · rw [tail, run_cons, step_blank, if_neg begun]
      dsimp only
      rw [Option.bind_some, run_pushParam _ begun rfl]
      · change (s.bufParam.emitAll rest).map _ = _
        rw [written]
        rfl
      · intro c mem
        apply tail_inLine f
        rw [tail]
        exact List.mem_cons_of_mem _ mem
    · rw [tail]
      exact textParam

theorem run_line (clean : Clean s) (line : Line) (fits : line.Fits) :
    ∃ t u, run env s line.text = some t ∧ endLine env t = some u ∧ Clean u ∧
      u.libs = absorb env s.libs line := by
  cases line with
  | library lib =>
      obtain ⟨room, short⟩ := fits
      obtain ⟨t, read, fsm, text, none, same⟩ := @run_library env s clean lib room
      obtain ⟨u, ended, after, libs⟩ := @endLine_entry env t (absorb env s.libs (.library lib))
        (by rw [text]; exact List.cons_ne_nil _ _) (by rw [text]; exact room) (by rw [none]; decide)
        (by rw [text]; exact nul_not_mem_library lib) (by rw [none]; exact List.not_mem_nil)
        (by rw [fsm, text, none, same]; exact addLine_library env s.libs lib short)
      exact ⟨t, u, read, ended, after, libs⟩
  | function b more f =>
      obtain ⟨room, short⟩ := fits
      have whole : (Line.function b more f).text.length =
          1 + (more.length + (f.link.length + f.tail.length)) := by
        rw [Line.text, List.length_cons, List.length_append, List.length_append, blanks, List.length_map,
          Nat.add_comm]
      obtain ⟨t, read, fsm, text, param, same⟩ := @run_function env s clean b more f (by omega) (by omega)
      have less : f.tail.tail.length ≤ f.tail.length := by
        rw [List.length_tail]
        exact Nat.sub_le _ _
      obtain ⟨u, ended, after, libs⟩ := @endLine_entry env t (absorb env s.libs (.function b more f))
        (by rw [text]; exact link_ne_nil f) (by rw [text]; omega) (by rw [param]; omega)
        (by rw [text]; exact fun mem => (link_solid f nul mem).1.2.2 rfl)
        (by rw [param]; exact fun mem => (tail_inLine f nul (List.mem_of_mem_tail mem)).2.2 rfl)
        (by rw [text, param, same]; exact addLine_function env s.libs b more f fsm short)
      exact ⟨t, u, read, ended, after, libs⟩
  | blank bs =>
      have read : ∃ t, run env s (blanks bs) = some t ∧ t.buf.out = 0 ∧ t.libs = s.libs := by
        cases bs with
        | nil => exact ⟨s, rfl, clean.buf, rfl⟩
        | cons b bs =>
            refine ⟨{ s with fsm := .func }, ?_, clean.buf, rfl⟩
            rw [blanks, List.map_cons, run_cons, step_blank, if_pos clean.buf, Option.bind_some]
            exact run_blanks bs rfl clean.buf
      obtain ⟨t, read, empty, same⟩ := read
      obtain ⟨u, ended, after, libs⟩ := @endLine_empty env t empty
      exact ⟨t, u, read, ended, after, libs.trans same⟩

end SmpVxd.Generator
