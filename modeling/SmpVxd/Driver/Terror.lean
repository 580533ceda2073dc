import SmpVxd.Text.Printf
import Mathlib.Tactic.IntervalCases

/-!
# terrorvf

The formatted messages of the driver. `terrorvf` goes through the format with one character
at a time; a conversion collects its padding and its width on the way, and a printer for each
kind of number collects the characters from the right in a buffer of its own.
-/

namespace SmpVxd.Terror

open Text

def terrorMax : Nat := 256
def terrorMaxNum : Nat := 64

def hexLower : List Char := "0123456789abcdef".toList
def hexUpper : List Char := "0123456789ABCDEF".toList

/-! ## The printers of numbers -/

/-- The buffer of a printer, from `ptr` down to `buf`. -/
abbrev Digits := List Char

/-- `*ptr = c; ptr++` -/
def Digits.push (buf : Digits) (c : Char) : Option Digits :=
  if buf.length < terrorMaxNum then some (c :: buf) else none

/-- `k + '0'` -/
def digit (k : Nat) : Char := Char.ofNat (k + 48)

/-- The loop of `terrorf_d` over the digits. -/
def digitsD (n : Int) (buf : Digits) : Option Digits :=
  if _h : n ≠ 0 then
    let k := n.tmod 10
    let k := if k < 0 then -k else k
    match buf.push (digit k.toNat) with
    | none => none
    | some buf => digitsD (n.tdiv 10) buf
  else some buf
termination_by n.natAbs
decreasing_by
  rw [Int.natAbs_tdiv]
  exact Nat.div_lt_self (Int.natAbs_pos.2 _h) (by decide)

/-- The loop of `terrorf_u` and `terrorf_x` over the digits; `length` counts down. The base is
10 or 16. -/
def digitsU (base : Nat) (char : Nat → Char) (n : Nat) (length : Int) (buf : Digits) :
    Option (Int × Digits) :=
  if _h : n ≠ 0 ∧ 1 < base then
    match buf.push (char (n % base)) with
    | none => none
    | some buf => digitsU base char (n / base) (length - 1) buf
  else some (length, buf)
termination_by n
decreasing_by exact Nat.div_lt_self (Nat.pos_of_ne_zero _h.1) _h.2

/-- `while(length > 0)`, for `n` turns. -/
def pad (c : Char) : Nat → Digits → Option Digits
  | 0, buf => some buf
  | n + 1, buf => (buf.push c).bind (pad c n)

variable (out : Buffer terrorMax)

def terrorfD (d : BitVec 32) (length : Int) (padding : Char) : Option (Buffer terrorMax) :=
  if d = 0 then out.emit '0'
  else do
    let buf ← digitsD d.toInt []
    let length := if d.toInt < 0 then length - 1 else length
    let buf ← pad padding length.toNat buf
    let buf ← if d.toInt < 0 then buf.push '-' else some buf
    out.emitAll buf

def terrorfU (d : BitVec 32) (length : Int) (padding : Char) : Option (Buffer terrorMax) :=
  if d = 0 then out.emit '0'
  else do
    let (length, buf) ← digitsU 10 digit d.toNat length []
    let buf ← pad padding length.toNat buf
    out.emitAll buf

def terrorfX (x : BitVec 32) (upper : Bool) (length : Int) (padding : Char) :
    Option (Buffer terrorMax) := do
  let hex := if upper then hexUpper else hexLower
  let (length, buf) ← if x = 0 then (Digits.push [] '0').map (length - 1, ·) else some (length, [])
  let (length, buf) ← digitsU 16 (fun k => hex.getD k '0') x.toNat length buf
  let buf ← pad padding length.toNat buf
  out.emitAll buf

def terrorfS (s : List Char) : Option (Buffer terrorMax) := out.emitAll s

/-! ## The format -/

/-- The variables of the loop. -/
structure State where
  inCommand : Bool
  cmdPad : Char
  length : Int
  va : List Arg
  out : Buffer terrorMax

/-- `va_arg(va, long)` -/
def vaLong : List Arg → Option (BitVec 32 × List Arg)
  | .long value :: va => some (value, va)
  | _ => none

/-- `va_arg(va, const char *)` -/
def vaString : List Arg → Option (List Char × List Arg)
  | .string s :: va => some (s, va)
  | _ => none

/-- The body of the loop. -/
def step (s : State) (c : Char) : Option State :=
  if s.inCommand = false then
    if c = '%' then some { s with inCommand := true, cmdPad := ' ', length := 0 }
    else (s.out.emit c).map fun out => { s with out := out }
  else if c = '%' then
    -- no out++
    (s.out.put '%').map fun out => { s with out := out, inCommand := false }
  else if c = '0' then
    if s.length = 0 then some { s with cmdPad := '0' } else some { s with length := s.length * 10 }
  else if c ∈ ['1', '2', '3', '4', '5', '6', '7', '8', '9'] then
    some { s with length := s.length * 10 + (c.toNat - 48) }
  else if c = 'i' ∨ c = 'd' then do
    let (d, va) ← vaLong s.va
    let out ← terrorfD s.out d s.length s.cmdPad
    some { s with va := va, out := out, inCommand := false }
  else if c = 'u' then do
    let (u, va) ← vaLong s.va
    let out ← terrorfU s.out u s.length s.cmdPad
    some { s with va := va, out := out, inCommand := false }
  else if c = 's' then do
    let (str, va) ← vaString s.va
    let out ← terrorfS s.out str
    some { s with va := va, out := out, inCommand := false }
  else if c = 'x' ∨ c = 'X' then do
    let (u, va) ← vaLong s.va
    let out ← terrorfX s.out u (c = 'X') s.length s.cmdPad
    some { s with va := va, out := out, inCommand := false }
  else some s

/-- The string that goes to `terror`; `none` if a write is outside of its buffer. `junk` is
what is in `fmtbuffer` before. -/
def terrorvf (junk : Nat → Char) (fmt : List Char) (va : List Arg) : Option (List Char) := do
  let s ← fmt.foldlM step ⟨false, ' ', 0, va, ⟨junk, 0⟩⟩
  let out ← s.out.put nul
  some out.string

variable {out out' : Buffer terrorMax} {buf : Digits} {c : Char} {n k width : Nat} {s t : State}
variable {d : BitVec 32}

/-! ## What the printers write -/

theorem push_of_room (room : buf.length < terrorMaxNum) : buf.push c = some (c :: buf) := if_pos room

theorem pad_eq (fits : buf.length ≤ terrorMaxNum) : pad c n buf =
    if n + buf.length ≤ terrorMaxNum then some (List.replicate n c ++ buf) else none := by
  induction n generalizing buf with
  | zero =>
      rw [Nat.zero_add, if_pos fits]
      rfl
  | succ n ih =>
      rw [pad, Digits.push]
      by_cases room : buf.length < terrorMaxNum
      · rw [if_pos room, Option.bind_some, ih (by rw [List.length_cons]; omega), List.length_cons]
        have same : n + (buf.length + 1) = n + 1 + buf.length := by omega
        rw [same, List.replicate_succ', List.append_assoc, List.singleton_append]
      · rw [if_neg room, if_neg (by omega)]
        rfl

/-- The loop of `terrorf_u` and `terrorf_x`. -/
theorem digitsU_eq {base : Nat} {char : Nat → Char} {up : Char → Char} (big : 1 < base)
    (table : ∀ k < base, char k = up (Nat.digitChar k)) (nonzero : n ≠ 0) (length : Int)
    (fits : (Nat.toDigits base n).length + buf.length ≤ terrorMaxNum) :
    digitsU base char n length buf =
      some (length - (Nat.toDigits base n).length, (Nat.toDigits base n).map up ++ buf) := by
  induction n using Nat.strong_induction_on generalizing buf length with
  | _ n ih =>
      have pos : 0 < (Nat.toDigits base n).length := Nat.length_toDigits_pos
      rw [digitsU, dif_pos ⟨nonzero, big⟩, push_of_room (by omega)]
      dsimp only
      rw [table _ (Nat.mod_lt n (by omega))]
      rw [Nat.toDigits_eq_if big] at fits ⊢
      by_cases small : n < base
      · rw [if_pos small, Nat.div_eq_of_lt small, digitsU, dif_neg (fun h => h.1 rfl),
          Nat.mod_eq_of_lt small]
        rfl
      · rw [if_neg small] at fits ⊢
        rw [List.length_append, List.length_singleton] at fits
        have less : n / base < n := Nat.div_lt_self (by omega) big
        have rest : n / base ≠ 0 := by
          intro zero
          rw [Nat.div_eq_zero_iff] at zero
          omega
        rw [ih (n / base) less rest (length - 1) (by rw [List.length_cons]; omega), List.length_append,
          List.map_append, List.append_assoc]
        simp only [List.length_singleton, List.map_cons, List.map_nil, List.singleton_append]
        congr 2
        omega

theorem digit_eq : ∀ k < 10, digit k = Nat.digitChar k := by decide

theorem digitsD_eq {n : Int} (nonzero : n ≠ 0)
    (fits : (Nat.toDigits 10 n.natAbs).length + buf.length ≤ terrorMaxNum) :
    digitsD n buf = some (Nat.toDigits 10 n.natAbs ++ buf) := by
  induction hm : n.natAbs using Nat.strong_induction_on generalizing n buf with
  | _ m ih =>
      subst hm
      have pos : 0 < (Nat.toDigits 10 n.natAbs).length := Nat.length_toDigits_pos
      have last : (if n.tmod 10 < 0 then -n.tmod 10 else n.tmod 10).toNat = n.natAbs % 10 := by
        have abs : (n.tmod 10).natAbs = n.natAbs % 10 := Int.natAbs_tmod n 10
        split <;> omega
      have room : buf.length < terrorMaxNum := by omega
      rw [digitsD, dif_pos nonzero]
      dsimp only
      rw [push_of_room room]
      dsimp only
      rw [last, digit_eq _ (Nat.mod_lt _ (by decide))]
      rw [Nat.toDigits_eq_if (by decide)] at fits ⊢
      have rest : (n.tdiv 10).natAbs = n.natAbs / 10 := Int.natAbs_tdiv n 10
      by_cases small : n.natAbs < 10
      · have zero : n.tdiv 10 = 0 := by
          rw [← Int.natAbs_eq_zero, rest]
          omega
        rw [if_pos small, zero, digitsD, dif_neg (fun h => h rfl), Nat.mod_eq_of_lt small]
        rfl
      · rw [if_neg small] at fits ⊢
        rw [List.length_append, List.length_singleton] at fits
        have more : n.tdiv 10 ≠ 0 := by
          intro zero
          rw [zero, Int.natAbs_zero] at rest
          omega
        rw [← rest] at fits ⊢
        rw [ih _ (by omega) more (by rw [List.length_cons]; omega) rfl, List.append_assoc,
          List.singleton_append]

/-- A numeral with its padding, as the printers build it up. -/
def built (sign pads digits : List Char) : Option (List Char) :=
  if (sign ++ pads ++ digits).length ≤ terrorMaxNum then some (sign ++ pads ++ digits) else none

/-- What the printer of a kind writes. -/
def printed (value : BitVec 32) (width : Nat) (c : Char) : Kind → Option (List Char)
  | .d | .i =>
      if value = 0 then some ['0']
      else
        -- the digits are not taken off the width
        let n := if value.toInt < 0 then width - 1 else width
        built (sign value) (List.replicate n c) (Nat.toDigits 10 value.toInt.natAbs)
  | .u =>
      if value = 0 then some ['0']
      else
        let digits := Nat.toDigits 10 value.toNat
        built [] (List.replicate (width - digits.length) c) digits
  | kind =>
      let digits := kind.digits value
      built [] (List.replicate (width - digits.length) c) digits

theorem pad_built (fits : buf.length ≤ terrorMaxNum) :
    pad c n buf = built [] (List.replicate n c) buf := by
  rw [pad_eq fits, built, List.nil_append, List.length_append, List.length_replicate]

theorem sign_built (fits : buf.length ≤ terrorMaxNum) :
    (pad c n buf).bind (·.push '-') = built ['-'] (List.replicate n c) buf := by
  rw [pad_eq fits, built, List.length_append, List.length_append, List.length_replicate,
    List.length_singleton]
  by_cases room : n + buf.length < terrorMaxNum
  · rw [if_pos (Nat.le_of_lt room), if_pos (by omega), Option.bind_some, push_of_room]
    · rfl
    · rw [List.length_append, List.length_replicate]
      exact room
  · have long : ¬1 + n + buf.length ≤ terrorMaxNum := by omega
    rw [if_neg long]
    by_cases full : n + buf.length ≤ terrorMaxNum
    · rw [if_pos full, Option.bind_some]
      refine if_neg ?_
      rw [List.length_append, List.length_replicate]
      exact room
    · rw [if_neg full]
      rfl

theorem emit_eq (c : Char) : out.emit c = out.emitAll [c] := by
  rw [Buffer.emitAll, List.foldlM_cons]
  cases out.emit c <;> rfl

theorem length_digits10 {m : Nat} (lt : m < 2 ^ 32) : (Nat.toDigits 10 m).length ≤ 10 := by
  rw [Nat.length_toDigits_le_iff (by decide) (by decide)]
  omega

theorem length_digits16 {m : Nat} (lt : m < 2 ^ 32) : (Nat.toDigits 16 m).length ≤ 8 := by
  rw [Nat.length_toDigits_le_iff (by decide) (by decide)]
  omega

theorem length_digitsD (d : BitVec 32) : (Nat.toDigits 10 d.toInt.natAbs).length ≤ 10 := by
  apply length_digits10
  have low := d.le_toInt
  have high := d.toInt_lt
  omega

theorem terrorfD_eq (width : Nat) :
    terrorfD out d width c = (printed d width c .d).bind out.emitAll := by
  rw [terrorfD, printed]
  by_cases zero : d = 0
  · rw [if_pos zero, if_pos zero, emit_eq]
    rfl
  · have nonzero : d.toInt ≠ 0 := by
      intro h
      exact zero (BitVec.eq_of_toInt_eq h)
    have short := length_digitsD d
    have first : digitsD d.toInt [] = some (Nat.toDigits 10 d.toInt.natAbs) := by
      rw [digitsD_eq nonzero (by rw [terrorMaxNum, List.length_nil]; omega), List.append_nil]
    rw [if_neg zero, if_neg zero, first]
    simp only [Option.bind_eq_bind, Option.bind_some, sign]
    have fits : (Nat.toDigits 10 d.toInt.natAbs).length ≤ terrorMaxNum := Nat.le_trans short (by decide)
    by_cases negative : d.toInt < 0
    · have count : ((width : Int) - 1).toNat = width - 1 := by omega
      simp only [if_pos negative, count]
      rw [← sign_built fits, Option.bind_assoc]
    · simp only [if_neg negative, Int.toNat_natCast]
      rw [pad_built fits]

theorem table_lower : ∀ k < 16, hexLower.getD k '0' = Nat.digitChar k := by decide

theorem table_upper : ∀ k < 16, hexUpper.getD k '0' = (Nat.digitChar k).toUpper := by decide

theorem terrorfU_eq (width : Nat) :
    terrorfU out d width c = (printed d width c .u).bind out.emitAll := by
  rw [terrorfU, printed]
  by_cases zero : d = 0
  · rw [if_pos zero, if_pos zero, emit_eq]
    rfl
  · have nonzero : d.toNat ≠ 0 := by
      intro h
      exact zero (BitVec.eq_of_toNat_eq h)
    have short : (Nat.toDigits 10 d.toNat).length ≤ 10 := length_digits10 d.isLt
    have fits : (Nat.toDigits 10 d.toNat).length ≤ terrorMaxNum := Nat.le_trans short (by decide)
    have count : ((width : Int) - (Nat.toDigits 10 d.toNat).length).toNat =
        width - (Nat.toDigits 10 d.toNat).length := by omega
    have table : ∀ k < 10, digit k = id (Nat.digitChar k) := digit_eq
    have digits := digitsU_eq (by decide) table nonzero width
      (by rw [List.length_nil]; exact fits : (Nat.toDigits 10 d.toNat).length + ([] : Digits).length ≤ _)
    rw [List.map_id, List.append_nil] at digits
    rw [if_neg zero, if_neg zero, digits]
    simp only [Option.bind_eq_bind, Option.bind_some, count]
    rw [pad_built fits]

theorem digitsU_zero {base : Nat} {char : Nat → Char} (length : Int) (buf : Digits) :
    digitsU base char 0 length buf = some (length, buf) := by
  rw [digitsU, dif_neg (fun h => h.1 rfl)]

/-- The digits of `terrorf_x`, with what is left of the width. -/
theorem digitsX_eq (upper : Bool) (width : Nat) :
    ((if d = 0 then (Digits.push [] '0').map ((width : Int) - 1, ·) else some ((width : Int), [])).bind
      fun r => digitsU 16 (fun k => (if upper then hexUpper else hexLower).getD k '0') d.toNat r.1 r.2) =
    some ((width : Int) - (Nat.toDigits 16 d.toNat).length,
      (if upper then Kind.upperX else Kind.x).digits d) := by
  have up : ∀ k < 16, (if upper then hexUpper else hexLower).getD k '0' =
      (if upper then Char.toUpper else id) (Nat.digitChar k) := by
    cases upper with
    | true => exact table_upper
    | false => exact table_lower
  have mapped : (Nat.toDigits 16 d.toNat).map (if upper then Char.toUpper else id) =
      (if upper then Kind.upperX else Kind.x).digits d := by
    cases upper with
    | true => rfl
    | false => exact List.map_id _
  by_cases zero : d = 0
  · subst zero
    rw [if_pos rfl, ← mapped]
    change digitsU 16 _ 0 _ _ = _
    rw [digitsU_zero]
    cases upper <;> rfl
  · have nonzero : d.toNat ≠ 0 := by
      intro h
      exact zero (BitVec.eq_of_toNat_eq h)
    have short : (Nat.toDigits 16 d.toNat).length ≤ 8 := length_digits16 d.isLt
    have digits := digitsU_eq (by decide) up nonzero width
      (Nat.le_trans short (by decide) : (Nat.toDigits 16 d.toNat).length + ([] : Digits).length ≤ _)
    rw [if_neg zero, Option.bind_some, digits, mapped, List.append_nil]

theorem length_digitsX (upper : Bool) :
    ((if upper then Kind.upperX else Kind.x).digits d).length = (Nat.toDigits 16 d.toNat).length := by
  cases upper with
  | true => exact List.length_map _
  | false => rfl

theorem terrorfX_eq (upper : Bool) (width : Nat) :
    terrorfX out d upper width c = (printed d width c (if upper then .upperX else .x)).bind out.emitAll := by
  have short : ((if upper then Kind.upperX else Kind.x).digits d).length ≤ terrorMaxNum := by
    rw [length_digitsX]
    exact Nat.le_trans (length_digits16 d.isLt) (by decide)
  have count : ((width : Int) - (Nat.toDigits 16 d.toNat).length).toNat =
      width - ((if upper then Kind.upperX else Kind.x).digits d).length := by
    rw [length_digitsX]
    omega
  have same : printed d width c (if upper then .upperX else .x) =
      built [] (List.replicate (width - ((if upper then Kind.upperX else Kind.x).digits d).length) c)
        ((if upper then Kind.upperX else Kind.x).digits d) := by
    cases upper <;> rfl
  rw [same, ← pad_built short, terrorfX]
  simp only [Option.bind_eq_bind]
  have digits := @digitsX_eq d upper width
  by_cases zero : d = 0
  · rw [if_pos zero] at digits ⊢
    rw [← Option.bind_assoc, digits, Option.bind_some, count]
  · rw [if_neg zero, Option.bind_some] at digits ⊢
    rw [digits, Option.bind_some, count]

/-! ## One item of a format -/

/-- What the code writes for an item; `none` if it does not fit the buffer of the printer. -/
def written : Item → Option (List Char)
  | .ordinary c _ => some [c]
  -- overwritten by the next character
  | .percent => some []
  | .number zero width _ kind value => printed value width (if zero then '0' else ' ') kind
  | .string s _ => some s

def run (s : State) (fmt : List Char) : Option State := fmt.foldlM step s

theorem run_cons (s : State) (c : Char) (fmt : List Char) : run s (c :: fmt) = (step s c).bind (run · fmt) :=
  List.foldlM_cons ..

theorem run_append (s : State) (fmt fmt' : List Char) :
    run s (fmt ++ fmt') = (run s fmt).bind (run · fmt') := List.foldlM_append ..

section

variable {p : Char} {l : Int} {va : List Arg}

/-- A digit of the width, but for a zero in front of it. -/
theorem step_digit (small : k < 10) (inner : l ≠ 0 ∨ k ≠ 0) :
    step ⟨true, p, l, va, out⟩ (Nat.digitChar k) = some ⟨true, p, l * 10 + k, va, out⟩ := by
  interval_cases k
  · obtain length | zero := inner
    · change (if l = 0 then _ else some (⟨true, p, l * 10, va, out⟩ : State)) = _
      rw [if_neg length]
      simp
    · exact absurd rfl zero
  all_goals rfl

theorem run_width (pos : width ≠ 0) :
    run ⟨true, p, 0, va, out⟩ (Nat.toDigits 10 width) = some ⟨true, p, width, va, out⟩ := by
  induction width using Nat.strong_induction_on with
  | _ w ih =>
      rw [Nat.toDigits_eq_if (by decide)]
      by_cases small : w < 10
      · rw [if_pos small, run_cons, step_digit small (.inr pos), Option.bind_some, Int.zero_mul, Int.zero_add]
        rfl
      · have less : w / 10 < w := by omega
        have rest : w / 10 ≠ 0 := by omega
        have begun : ((w / 10 : Nat) : Int) ≠ 0 := by omega
        have whole : ((w / 10 : Nat) : Int) * 10 + ((w % 10 : Nat) : Int) = (w : Int) := by omega
        rw [if_neg small, run_append, ih _ less rest, Option.bind_some, run_cons,
          step_digit (Nat.mod_lt _ (by decide)) (.inl begun), Option.bind_some, whole]
        rfl

/-- The state in front of the letter of a conversion. -/
theorem run_prefix (zero long : Bool) (width : Nat) :
    run ⟨true, ' ', 0, va, out⟩
        ((if zero then ['0'] else []) ++ widthText width ++ (if long then ['l'] else [])) =
      some ⟨true, if zero then '0' else ' ', width, va, out⟩ := by
  have first : run ⟨true, ' ', 0, va, out⟩ (if zero then ['0'] else []) =
      some ⟨true, if zero then '0' else ' ', 0, va, out⟩ := by
    cases zero <;> rfl
  have digits (p : Char) : run ⟨true, p, 0, va, out⟩ (widthText width) = some ⟨true, p, width, va, out⟩ := by
    rw [widthText]
    by_cases none : width = 0
    · rw [if_pos none, none]
      rfl
    · rw [if_neg none, run_width none]
  have last (p : Char) : run ⟨true, p, width, va, out⟩ (if long then ['l'] else []) =
      some ⟨true, p, width, va, out⟩ := by
    cases long <;> rfl
  rw [run_append, run_append, first, Option.bind_some, digits, Option.bind_some, last]

/-- The letter of a conversion of a number. -/
theorem step_letter (kind : Kind) (value : BitVec 32) :
    step ⟨true, p, width, .long value :: va, out⟩ kind.letter =
      ((printed value width p kind).bind out.emitAll).map fun out => ⟨false, p, width, va, out⟩ := by
  have mapped (o : Option (Buffer terrorMax)) :
      (o.bind fun out => some (⟨false, p, width, va, out⟩ : State)) =
        o.map fun out => ⟨false, p, width, va, out⟩ := by
    cases o <;> rfl
  cases kind with
  | d =>
      rw [← terrorfD_eq, ← mapped]
      rfl
  | i =>
      have same : printed value width p .i = printed value width p .d := rfl
      rw [same, ← terrorfD_eq, ← mapped]
      rfl
  | u =>
      rw [← terrorfU_eq, ← mapped]
      rfl
  | x =>
      have lower : terrorfX out value false width p = (printed value width p .x).bind out.emitAll :=
        terrorfX_eq false width
      rw [← lower, ← mapped]
      rfl
  | upperX =>
      have upper : terrorfX out value true width p = (printed value width p .upperX).bind out.emitAll :=
        terrorfX_eq true width
      rw [← upper, ← mapped]
      rfl

theorem run_number (zero long : Bool) (width : Nat) (kind : Kind) (value : BitVec 32) :
    run ⟨false, p, l, .long value :: va, out⟩ (Item.number zero width long kind value).format =
      ((printed value width (if zero then '0' else ' ') kind).bind out.emitAll).map fun out =>
        ⟨false, if zero then '0' else ' ', width, va, out⟩ := by
  rw [Item.format, run_cons]
  change run ⟨true, ' ', 0, .long value :: va, out⟩ _ = _
  rw [run_append, run_prefix, Option.bind_some, run_cons, step_letter]
  cases ((printed value width (if zero then '0' else ' ') kind).bind out.emitAll) <;> rfl

theorem run_string (str : List Char) (plain : nul ∉ str) :
    run ⟨false, p, l, .string str :: va, out⟩ (Item.string str plain).format =
      (out.emitAll str).map fun out => ⟨false, ' ', 0, va, out⟩ := by
  change ((out.emitAll str).bind _).bind _ = _
  cases out.emitAll str <;> rfl

theorem run_percent : run ⟨false, p, l, va, out⟩ Item.percent.format =
    (out.put '%').map fun out => ⟨false, ' ', 0, va, out⟩ := by
  change ((out.put '%').map _).bind _ = _
  cases out.put '%' <;> rfl

theorem run_ordinary (c : Char) (plain : c ≠ '%' ∧ c ≠ nul) :
    run ⟨false, p, l, va, out⟩ (Item.ordinary c plain).format =
      (out.emitAll [c]).map fun out => ⟨false, p, l, va, out⟩ := by
  rw [Item.format, run_cons, step, if_pos rfl, if_neg plain.1, ← emit_eq]
  cases out.emit c <;> rfl

theorem run_item {item : Item} {t : State} (done : run ⟨false, p, l, item.args ++ va, out⟩ item.format = some t) :
    ∃ cs, written item = some cs ∧ t.inCommand = false ∧ t.va = va ∧ t.out.text = out.text ++ cs := by
  cases item with
  | ordinary c plain =>
      rw [Item.args, List.nil_append, run_ordinary, Option.map_eq_some_iff] at done
      obtain ⟨out', all, rfl⟩ := done
      exact ⟨[c], rfl, rfl, rfl, Buffer.text_emitAll all⟩
  | percent =>
      rw [Item.args, List.nil_append, run_percent, Option.map_eq_some_iff] at done
      obtain ⟨out', put, rfl⟩ := done
      refine ⟨[], rfl, rfl, rfl, ?_⟩
      rw [List.append_nil]
      exact Buffer.text_put put
  | number zero width long kind value =>
      rw [Item.args, List.singleton_append, run_number, Option.map_eq_some_iff] at done
      obtain ⟨out', whole, rfl⟩ := done
      obtain ⟨cs, number, all⟩ := Option.bind_eq_some_iff.1 whole
      exact ⟨cs, number, rfl, rfl, Buffer.text_emitAll all⟩
  | string str plain =>
      rw [Item.args, List.singleton_append, run_string, Option.map_eq_some_iff] at done
      obtain ⟨out', all, rfl⟩ := done
      exact ⟨str, rfl, rfl, rfl, Buffer.text_emitAll all⟩

theorem run_item_of_fits {item : Item} {cs : List Char} (text : written item = some cs)
    (room : out.text.length + cs.length < terrorMax) :
    ∃ t, run ⟨false, p, l, item.args ++ va, out⟩ item.format = some t := by
  obtain ⟨out', all⟩ := Buffer.emitAll_of_fits (Nat.le_of_lt room)
  cases item with
  | ordinary c plain =>
      cases text
      rw [Item.args, List.nil_append, run_ordinary, all]
      exact ⟨_, rfl⟩
  | percent =>
      cases text
      obtain ⟨out'', put⟩ := Buffer.put_of_room room '%'
      rw [Item.args, List.nil_append, run_percent, put]
      exact ⟨_, rfl⟩
  | number zero width long kind value =>
      rw [written] at text
      rw [Item.args, List.singleton_append, run_number, text, Option.bind_some, all]
      exact ⟨_, rfl⟩
  | string str plain =>
      cases text
      rw [Item.args, List.singleton_append, run_string, all]
      exact ⟨_, rfl⟩

end

/-! ## All items of a format -/

def writtenAll : List Item → Option (List Char)
  | [] => some []
  | item :: items => (written item).bind fun cs => (writtenAll items).map (cs ++ ·)

variable {items : List Item} {item : Item} {cs : List Char}

theorem run_items (idle : s.inCommand = false) (args : s.va = items.flatMap Item.args)
    (done : run s (items.flatMap Item.format) = some t) :
    ∃ cs, writtenAll items = some cs ∧ t.out.text = s.out.text ++ cs := by
  induction items generalizing s with
  | nil =>
      cases done
      exact ⟨[], rfl, (List.append_nil _).symm⟩
  | cons item items ih =>
      obtain ⟨command, p, l, va, out⟩ := s
      change command = false at idle
      change va = _ at args
      subst idle args
      rw [List.flatMap_cons, List.flatMap_cons, run_append] at done
      obtain ⟨u, one, more⟩ := Option.bind_eq_some_iff.1 done
      obtain ⟨first, text, idle, args, grown⟩ := run_item one
      obtain ⟨rest, texts, whole⟩ := ih idle args more
      refine ⟨first ++ rest, ?_, ?_⟩
      · rw [writtenAll, text, Option.bind_some, texts]
        rfl
      · rw [whole, grown, List.append_assoc]

theorem run_items_of_fits (idle : s.inCommand = false) (args : s.va = items.flatMap Item.args)
    (texts : writtenAll items = some cs) (room : s.out.text.length + cs.length < terrorMax) :
    ∃ t, run s (items.flatMap Item.format) = some t := by
  induction items generalizing s cs with
  | nil => exact ⟨s, rfl⟩
  | cons item items ih =>
      obtain ⟨command, p, l, va, out⟩ := s
      change command = false at idle
      change va = _ at args
      change out.text.length + _ < _ at room
      subst idle args
      rw [writtenAll] at texts
      obtain ⟨first, text, more⟩ := Option.bind_eq_some_iff.1 texts
      obtain ⟨rest, others, rfl⟩ := Option.map_eq_some_iff.1 more
      rw [List.length_append] at room
      have fits : out.text.length + first.length < terrorMax := by omega
      obtain ⟨u, one⟩ := @run_item_of_fits out p l (items.flatMap Item.args) item first text fits
      obtain ⟨same, text', idle, args, grown⟩ := run_item one
      cases text.symm.trans text'
      obtain ⟨t, done⟩ := ih idle args others (by rw [grown, List.length_append]; omega)
      refine ⟨t, ?_⟩
      rw [List.flatMap_cons, List.flatMap_cons, run_append, one, Option.bind_some, done]

/-! ## No end of the string before its end -/

theorem digit_of_mem {base : Nat} (big : 1 < base) (mem : c ∈ Nat.toDigits base n) :
    ∃ k < base, c = Nat.digitChar k := by
  induction n using Nat.strong_induction_on with
  | _ n ih =>
      rw [Nat.toDigits_eq_if big] at mem
      by_cases small : n < base
      · rw [if_pos small] at mem
        exact ⟨n, small, List.mem_singleton.1 mem⟩
      · rw [if_neg small] at mem
        obtain first | last := List.mem_append.1 mem
        · exact ih (n / base) (Nat.div_lt_self (by omega) big) first
        · exact ⟨n % base, Nat.mod_lt n (by omega), List.mem_singleton.1 last⟩

theorem digitChar_ne_nul : ∀ k < 16, Nat.digitChar k ≠ nul ∧ (Nat.digitChar k).toUpper ≠ nul := by decide

theorem nul_not_mem_digits (kind : Kind) : nul ∉ kind.digits d := by
  intro mem
  cases kind with
  | d | i | u =>
      obtain ⟨k, small, same⟩ := digit_of_mem (by decide) mem
      exact (digitChar_ne_nul k (by omega)).1 same.symm
  | x =>
      obtain ⟨k, small, same⟩ := digit_of_mem (by decide) mem
      exact (digitChar_ne_nul k small).1 same.symm
  | upperX =>
      obtain ⟨c, digit, upper⟩ := List.mem_map.1 mem
      obtain ⟨k, small, rfl⟩ := digit_of_mem (by decide) digit
      exact (digitChar_ne_nul k small).2 upper

theorem built_eq {sign pads digits : List Char} (text : built sign pads digits = some cs) :
    cs = sign ++ pads ++ digits ∧ (sign ++ pads ++ digits).length ≤ terrorMaxNum := by
  rw [built, Option.ite_none_right_eq_some, Option.some_inj] at text
  exact ⟨text.2.symm, text.1⟩

theorem nul_not_mem_built {sign digits : List Char} (signs : nul ∉ sign) (pads : c ≠ nul)
    (plain : nul ∉ digits) (text : built sign (List.replicate n c) digits = some cs) : nul ∉ cs := by
  rw [(built_eq text).1, List.mem_append, List.mem_append]
  rintro ((mem | mem) | mem)
  · exact signs mem
  · exact pads (List.eq_of_mem_replicate mem).symm
  · exact plain mem

theorem nul_not_mem_sign : nul ∉ sign d := by
  rw [sign]
  split <;> decide

theorem nul_not_mem_printed {kind : Kind} (pads : c ≠ nul) (text : printed d width c kind = some cs) :
    nul ∉ cs := by
  have zero : nul ∉ ['0'] := by decide
  have none : nul ∉ ([] : List Char) := List.not_mem_nil
  cases kind with
  | d | i =>
      rw [printed] at text
      split at text
      · cases text
        exact zero
      · exact nul_not_mem_built nul_not_mem_sign pads (nul_not_mem_digits .d) text
  | u =>
      rw [printed] at text
      split at text
      · cases text
        exact zero
      · exact nul_not_mem_built none pads (nul_not_mem_digits .u) text
  | x => exact nul_not_mem_built none pads (nul_not_mem_digits .x) text
  | upperX => exact nul_not_mem_built none pads (nul_not_mem_digits .upperX) text

theorem nul_not_mem_written (text : written item = some cs) : nul ∉ cs := by
  cases item with
  | ordinary c plain =>
      cases text
      intro mem
      exact plain.2 (List.mem_singleton.1 mem).symm
  | percent =>
      cases text
      exact List.not_mem_nil
  | number zero width long kind value =>
      have pads : (if zero then '0' else ' ') ≠ nul := by
        cases zero <;> decide
      exact nul_not_mem_printed pads text
  | string str plain =>
      cases text
      exact plain

theorem nul_not_mem_writtenAll (texts : writtenAll items = some cs) : nul ∉ cs := by
  induction items generalizing cs with
  | nil =>
      cases texts
      exact List.not_mem_nil
  | cons item items ih =>
      rw [writtenAll] at texts
      obtain ⟨first, text, more⟩ := Option.bind_eq_some_iff.1 texts
      obtain ⟨rest, others, rfl⟩ := Option.map_eq_some_iff.1 more
      rw [List.mem_append]
      rintro (mem | mem)
      · exact nul_not_mem_written text mem
      · exact ih others mem

/-- What the call passes on, from what its items write. -/
theorem terrorvf_iff (junk : Nat → Char) (str : List Char) :
    terrorvf junk (items.flatMap Item.format) (items.flatMap Item.args) = some str ↔
      writtenAll items = some str ∧ str.length < terrorMax := by
  have start : (⟨junk, 0⟩ : Buffer terrorMax).text = [] := rfl
  constructor
  · intro passed
    obtain ⟨t, done, more⟩ := Option.bind_eq_some_iff.1 passed
    obtain ⟨out, put, last⟩ := Option.bind_eq_some_iff.1 more
    cases last
    obtain ⟨cs, texts, whole⟩ := run_items rfl rfl done
    change t.out.text = Buffer.text _ ++ cs at whole
    rw [start, List.nil_append] at whole
    have room : t.out.text.length < terrorMax := by
      rw [Buffer.length_text]
      exact (Buffer.put_iff.1 put).1
    have plain : nul ∉ t.out.text := by
      rw [whole]
      exact nul_not_mem_writtenAll texts
    rw [Buffer.string_put_nul plain put, whole]
    rw [whole] at room
    exact ⟨texts, room⟩
  · rintro ⟨texts, room⟩
    obtain ⟨t, done⟩ := @run_items_of_fits ⟨false, ' ', 0, items.flatMap Item.args, ⟨junk, 0⟩⟩ items str
      rfl rfl texts (by
        rw [start, List.length_nil, Nat.zero_add]
        exact room)
    obtain ⟨cs, texts', whole⟩ := run_items rfl rfl done
    cases texts.symm.trans texts'
    change t.out.text = Buffer.text _ ++ str at whole
    rw [start, List.nil_append] at whole
    obtain ⟨out, put⟩ := Buffer.put_of_room (whole ▸ room) nul
    have plain : nul ∉ t.out.text := by
      rw [whole]
      exact nul_not_mem_writtenAll texts
    rw [← whole, ← Buffer.string_put_nul plain put]
    exact Option.bind_eq_some_iff.2 ⟨t, done, Option.bind_eq_some_iff.2 ⟨out, put, rfl⟩⟩

/-! ## The conversions that come out right -/

/-- The conversions that `terrorvf` writes as printf does. -/
def handled : Item → Prop
  | .ordinary _ _ => True
  | .percent => False
  | .number _ width _ .d value => width ≤ if 0 < value.toInt then 0 else 1
  | .number _ width _ .i value => width ≤ if 0 < value.toInt then 0 else 1
  | .number _ width _ .u value => width ≤ if value = 0 then 1 else terrorMaxNum
  | .number _ width _ .x _ => width ≤ terrorMaxNum
  | .number _ width _ .upperX _ => width ≤ terrorMaxNum
  | .string _ _ => True

theorem length_padded (zero : Bool) (width : Nat) (sign digits : List Char) :
    (padded zero width sign digits).length = max width (sign.length + digits.length) := by
  cases zero <;> simp only [padded, List.length_append, List.length_replicate, if_true, if_false,
    Bool.false_eq_true] <;> omega

/-- Without a sign, zeros and blanks go to the same place. -/
theorem padded_unsigned (zero : Bool) (width : Nat) (digits : List Char) :
    padded zero width [] digits =
      List.replicate (width - digits.length) (if zero then '0' else ' ') ++ digits := by
  cases zero <;> simp [padded]

/-- No padding. -/
theorem padded_of_le (zero : Bool) {width : Nat} {sign digits : List Char}
    (le : width ≤ sign.length + digits.length) : padded zero width sign digits = sign ++ digits := by
  have none : width - (sign.length + digits.length) = 0 := Nat.sub_eq_zero_of_le le
  cases zero <;> simp [padded, none]

theorem built_unsigned_iff (zero : Bool) {digits : List Char} (short : digits.length ≤ terrorMaxNum) :
    built [] (List.replicate (width - digits.length) (if zero then '0' else ' ')) digits =
      some (padded zero width [] digits) ↔ width ≤ terrorMaxNum := by
  rw [padded_unsigned, built, Option.ite_none_right_eq_some]
  simp only [List.nil_append, List.length_append, List.length_replicate, and_true]
  omega

/-- Any padding of a signed number is too much. -/
theorem built_signed_iff (zero : Bool) {sign digits : List Char} (enough : width ≤ n + sign.length)
    (some_digit : 0 < digits.length) (short : sign.length + digits.length ≤ terrorMaxNum) :
    built sign (List.replicate n c) digits = some (padded zero width sign digits) ↔ n = 0 := by
  constructor
  · intro text
    have same := congrArg List.length (built_eq text).1
    rw [length_padded, List.length_append, List.length_append, List.length_replicate] at same
    omega
  · rintro rfl
    rw [padded_of_le zero (by omega), built, if_pos]
    · rw [List.replicate_zero, List.append_nil]
    · rw [List.replicate_zero, List.append_nil, List.length_append]
      exact short

/-- Zero is written without padding. -/
theorem zero_iff (zero : Bool) : some ['0'] = some (padded zero width [] ['0']) ↔ width ≤ 1 := by
  constructor
  · intro text
    have same := congrArg List.length (Option.some_inj.1 text)
    rw [length_padded] at same
    change 1 = max width (0 + 1) at same
    omega
  · intro le
    rw [padded_of_le zero (by exact le)]
    rfl

theorem printed_d_iff (zero : Bool) : printed d width (if zero then '0' else ' ') .d =
    some (padded zero width (sign d) (Kind.d.digits d)) ↔ width ≤ if 0 < d.toInt then 0 else 1 := by
  have digits : 0 < (Nat.toDigits 10 d.toInt.natAbs).length := Nat.length_toDigits_pos
  have short := length_digitsD d
  have room : 1 + (Nat.toDigits 10 d.toInt.natAbs).length ≤ terrorMaxNum := by
    rw [terrorMaxNum]
    omega
  rw [printed]
  by_cases zero' : d = 0
  · subst zero'
    exact zero_iff zero
  · have nonzero : d.toInt ≠ 0 := by
      intro h
      exact zero' (BitVec.eq_of_toInt_eq h)
    rw [if_neg zero']
    by_cases negative : d.toInt < 0
    · have signs : sign d = ['-'] := if_pos negative
      have minus : ¬0 < d.toInt := by omega
      rw [if_neg minus, signs]
      simp only [if_pos negative]
      refine Iff.trans (built_signed_iff zero ?_ digits room) ?_
      · rw [List.length_singleton]
        omega
      · omega
    · have signs : sign d = [] := if_neg negative
      have plus : 0 < d.toInt := by omega
      rw [if_pos plus, signs]
      simp only [if_neg negative]
      refine Iff.trans (built_signed_iff zero (Nat.le_add_right width _) digits ?_) ?_
      · rw [List.length_nil]
        omega
      · exact Nat.le_zero.symm

theorem printed_u_iff (zero : Bool) : printed d width (if zero then '0' else ' ') .u =
    some (padded zero width [] (Kind.u.digits d)) ↔ width ≤ if d = 0 then 1 else terrorMaxNum := by
  rw [printed]
  by_cases zero' : d = 0
  · subst zero'
    exact zero_iff zero
  · have short : (Nat.toDigits 10 d.toNat).length ≤ 10 := length_digits10 d.isLt
    rw [if_neg zero', if_neg zero']
    exact built_unsigned_iff zero (Nat.le_trans short (by decide))

theorem printed_x_iff (zero upper : Bool) :
    printed d width (if zero then '0' else ' ') (if upper then .upperX else .x) =
      some (padded zero width [] ((if upper then Kind.upperX else Kind.x).digits d)) ↔
        width ≤ terrorMaxNum := by
  have short : ((if upper then Kind.upperX else Kind.x).digits d).length ≤ terrorMaxNum := by
    rw [length_digitsX]
    exact Nat.le_trans (length_digits16 d.isLt) (by decide)
  rw [← built_unsigned_iff zero short]
  cases upper <;> rfl

theorem written_iff_handled : written item = some item.rendering ↔ handled item := by
  cases item with
  | ordinary c plain => exact iff_of_true rfl trivial
  | percent => exact iff_of_false (by decide) id
  | string str plain => exact iff_of_true rfl trivial
  | number zero width long kind value =>
      cases kind with
      | d => exact printed_d_iff zero
      | i => exact printed_d_iff zero
      | u => exact printed_u_iff zero
      | x => exact printed_x_iff zero false
      | upperX => exact printed_x_iff zero true

theorem writtenAll_append (pre post : List Item) : writtenAll (pre ++ post) =
    (writtenAll pre).bind fun cs => (writtenAll post).map (cs ++ ·) := by
  induction pre with
  | nil =>
      rw [List.nil_append, writtenAll, Option.bind_some]
      exact Option.map_id'.symm
  | cons item pre ih =>
      rw [List.cons_append, writtenAll, writtenAll, ih]
      cases written item with
      | none => rfl
      | some first =>
          cases writtenAll pre with
          | none => rfl
          | some cs =>
              cases writtenAll post with
              | none => rfl
              | some rest => exact congrArg some (List.append_assoc first cs rest).symm

theorem writtenAll_of_handled (all : ∀ item ∈ items, handled item) :
    writtenAll items = some (items.flatMap Item.rendering) := by
  induction items with
  | nil => rfl
  | cons item items ih =>
      have first := written_iff_handled.2 (all item List.mem_cons_self)
      have rest := ih fun other mem => all other (List.mem_cons_of_mem item mem)
      rw [writtenAll, first, Option.bind_some, rest, List.flatMap_cons]
      rfl

/-- Among conversions that come out right, one that does not shows. -/
theorem writtenAll_iff {pre post : List Item} (others : ∀ other ∈ pre ++ post, handled other) :
    writtenAll (pre ++ item :: post) = some ((pre ++ item :: post).flatMap Item.rendering) ↔
      handled item := by
  have before := @writtenAll_of_handled pre fun other mem => others other (List.mem_append_left post mem)
  have after := @writtenAll_of_handled post fun other mem => others other (List.mem_append_right pre mem)
  rw [← written_iff_handled, writtenAll_append, before, Option.bind_some, writtenAll, after,
    List.flatMap_append, List.flatMap_cons]
  cases written item with
  | none =>
      constructor
      · intro text
        cases text
      · intro text
        cases text
  | some cs =>
      change some _ = some _ ↔ _
      rw [Option.some_inj, Option.some_inj, List.append_cancel_left_eq, List.append_cancel_right_eq]

/-- `terrorvf` passes on what printf writes. -/
def passes (junk : Nat → Char) (items : List Item) : Prop :=
  terrorvf junk (items.flatMap Item.format) (items.flatMap Item.args) =
    some (items.flatMap Item.rendering)

theorem passes_iff (junk : Nat → Char) (short : (items.flatMap Item.rendering).length < terrorMax) :
    passes junk items ↔ writtenAll items = some (items.flatMap Item.rendering) := by
  rw [passes, terrorvf_iff]
  exact and_iff_left short

/-- A message and all its beginnings come out as from printf exactly when each conversion is one
that `terrorvf` handles; where all the others are, the message alone tells of the last one. -/
theorem terrorvf_formats (junk : Nat → Char) (items : List Item)
    (short : (items.flatMap Item.rendering).length < terrorMax) :
    ((∀ called, called <+: items → passes junk called) ↔ ∀ item ∈ items, handled item) ∧
      ∀ pre item post, items = pre ++ item :: post → (∀ other ∈ pre ++ post, handled other) →
        (passes junk items ↔ handled item) := by
  have shorter {called : List Item} (pre : called <+: items) :
      (called.flatMap Item.rendering).length < terrorMax := by
    obtain ⟨rest, rfl⟩ := pre
    rw [List.flatMap_append, List.length_append] at short
    omega
  refine ⟨⟨?_, ?_⟩, ?_⟩
  · intro all
    have handles (called : List Item) (pre : called <+: items) : ∀ item ∈ called, handled item := by
      induction called using List.reverseRecOn with
      | nil => exact fun item mem => absurd mem List.not_mem_nil
      | append_singleton called last ih =>
          have before := ih ((List.prefix_append called [last]).trans pre)
          have passed := (passes_iff junk (shorter pre)).1 (all _ pre)
          intro item mem
          obtain first | same := List.mem_append.1 mem
          · exact before item first
          · rw [List.mem_singleton.1 same]
            exact (writtenAll_iff (by rw [List.append_nil]; exact before)).1 passed
    exact handles items List.prefix_rfl
  · intro all called pre
    rw [passes_iff junk (shorter pre)]
    exact writtenAll_of_handled fun item mem => all item (pre.subset mem)
  · rintro pre item post rfl others
    rw [passes_iff junk short]
    exact writtenAll_iff others

/-- `CPU%%%u`, with its number -/
def cpuPercent (cpu : BitVec 32) : List Item :=
  [.ordinary 'C' (by decide), .ordinary 'P' (by decide), .ordinary 'U' (by decide), .percent,
    .number false 0 false .u cpu]

theorem terrorvf_percent : ¬∀ (junk : Nat → Char) (items : List Item),
    (items.flatMap Item.rendering).length < terrorMax → passes junk items := by
  intro all
  have short : ((cpuPercent 1).flatMap Item.rendering).length < terrorMax := by decide
  have passed := (passes_iff _ short).1 (all (fun _ => nul) (cpuPercent 1) short)
  revert passed
  decide

/-- `%u of %08X`, say. -/
theorem terrorvf_formats_hex :
    ((∀ called, called <+: [.number false 0 false .u 2, .number true 8 true .upperX 0xBEEF] →
        passes (fun _ => nul) called) ↔
      ∀ item ∈ [.number false 0 false .u 2, .number true 8 true .upperX 0xBEEF], handled item) ∧
    ∀ pre item post, [.number false 0 false .u 2, .number true 8 true .upperX 0xBEEF] =
        pre ++ item :: post → (∀ other ∈ pre ++ post, handled other) →
      (passes (fun _ => nul) [.number false 0 false .u 2, .number true 8 true .upperX 0xBEEF] ↔
        handled item) :=
  terrorvf_formats (fun _ => nul) [.number false 0 false .u 2, .number true 8 true .upperX 0xBEEF]
    (by decide)

end SmpVxd.Terror
