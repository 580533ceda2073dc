import SmpVxd.Generator.ParseList
import Mathlib.Data.List.DropRight

/-!
# List files

The lines a list file is made of, and what the generator should have of them: a library for
each library line, with the functions up to the next one.
-/

namespace SmpVxd.Generator

open Text

inductive Blank where
  | space
  | tab

def Blank.char : Blank → Char
  | space => ' '
  | tab => '\t'

def blanks (bs : List Blank) : List Char := bs.map Blank.char

inductive Flag where
  | ignore
  | hasBody
  | stub
  | data
  | redirect
  | noCrt
  deriving DecidableEq

namespace Flag

def text : Flag → List Char
  | ignore => "IGNORE".toList
  | hasBody => "HASBODY".toList
  | stub => "STUB".toList
  | data => "DATA".toList
  | redirect => "REDIRECT".toList
  | noCrt => "NOCRT".toList

def mask : Flag → Flags
  | ignore => fIgnore
  | hasBody => fHasBody
  | stub => fStub
  | data => fData
  | redirect => fRedirect
  | noCrt => fNoCrt

/-- The word with the given flags. -/
def word (flags : List Flag) : Flags := flags.foldr (fun flag f => flag.mask ||| f) 0

end Flag

/-- A character of a line. -/
def InLine (c : Char) : Prop := c ≠ '\n' ∧ c ≠ '\r' ∧ c ≠ nul

instance : DecidablePred InLine := fun _ => inferInstanceAs (Decidable (_ ∧ _))

/-- A character of a line that is no blank. -/
def Solid (c : Char) : Prop := InLine c ∧ c ≠ ' ' ∧ c ≠ '\t'

instance : DecidablePred Solid := fun _ => inferInstanceAs (Decidable (_ ∧ _))

/-- A library line. -/
structure LibName where
  first : Char
  rest : List Char
  solid : Solid first
  inLine : ∀ c ∈ rest, InLine c

def LibName.text (lib : LibName) : List Char := lib.first :: lib.rest

structure Name where
  text : List Char
  nonempty : text ≠ []
  solid : ∀ c ∈ text, Solid c ∧ c ≠ '@'

/-- A flag with the blanks in front of it. -/
structure FlagField where
  blank : Blank
  more : List Blank
  flag : Flag

def FlagField.text (field : FlagField) : List Char :=
  field.blank.char :: (blanks field.more ++ field.flag.text)

/-- A function line, without the blanks that begin it. -/
structure Function where
  name : Name
  bytes : Option (List (Fin 10))
  fields : List FlagField
  trailing : List Blank

namespace Function

/-- The name with the byte count. -/
def link (f : Function) : List Char :=
  f.name.text ++ (f.bytes.map fun ds => '@' :: digitText ds).getD []

/-- The line behind the name. -/
def tail (f : Function) : List Char := f.fields.flatMap FlagField.text ++ blanks f.trailing

def flags (f : Function) : List Flag := f.fields.map FlagField.flag

/-- The byte count, 0 if there is none. -/
def count (f : Function) : Nat := digitsValue (f.bytes.getD [])

def ignored (f : Function) : Bool := .ignore ∈ f.flags

end Function

inductive Line where
  | library (lib : LibName)
  | function (b : Blank) (more : List Blank) (f : Function)
  | blank (bs : List Blank)

namespace Line

def text : Line → List Char
  | library lib => lib.text
  | function b more f => b.char :: (blanks more ++ (f.link ++ f.tail))
  | blank bs => blanks bs

/-- Lines shorter than `buf`, names shorter than those of the lists. -/
def Fits (line : Line) : Prop :=
  line.text.length < bufMax ∧
    match line with
    | library lib => lib.text.length < nameMax
    | function _ _ f => f.link.length < nameMax
    | blank _ => True

instance : DecidablePred Fits
  | library _ => inferInstanceAs (Decidable (_ ∧ _))
  | function _ _ _ => inferInstanceAs (Decidable (_ ∧ _))
  | blank _ => inferInstanceAs (Decidable (_ ∧ True))

def isLibrary : Line → Bool
  | library _ => true
  | _ => false

/-- The function of a line that is not ignored. -/
def function? : Line → Option Function
  | function _ _ f => if f.ignored then none else some f
  | _ => none

end Line

inductive LineEnd where
  | lf
  | crlf

def LineEnd.text : LineEnd → List Char
  | lf => ['\n']
  | crlf => ['\r', '\n']

/-- The last line may have no end. -/
structure ListFile where
  ended : List (Line × LineEnd)
  last : Option Line

def ListFile.text (file : ListFile) : List Char :=
  file.ended.flatMap (fun l => l.1.text ++ l.2.text) ++ (file.last.map Line.text).getD []

def ListFile.lines (file : ListFile) : List Line := file.ended.map Prod.fst ++ file.last.toList

/-! ## What a list file says -/

/-- The functions up to the next library line, without the ignored ones. -/
def functions (lines : List Line) : List Function :=
  (lines.takeWhile fun line => !line.isLibrary).filterMap Line.function?

/-- A library with its functions. -/
structure Section where
  lib : LibName
  functions : List Function

def sections : List Line → List Section
  | [] => []
  | .library lib :: lines => ⟨lib, functions lines⟩ :: sections lines
  | _ :: lines => sections lines

/-- The name without its last extension. -/
def withoutExtension (name : List Char) : List Char :=
  if '.' ∈ name then (name.rdropWhile (· ≠ '.')).dropLast else name

def Function.entry (f : Function) : FuncList := ⟨f.name.text, f.link, f.count, Flag.word f.flags⟩

def Section.entry (s : Section) : LibList :=
  ⟨s.lib.text, withoutExtension s.lib.text, (s.functions.map Function.entry).reverse⟩

end SmpVxd.Generator
