import SmpVxd.Text.Buffer
import SmpVxd.Text.CString

/-!
# parse_list

The generator reads a list file with one character at a time, into two buffers that it uses
again for each line. `none` stands for a write outside of a buffer.
-/

namespace SmpVxd.Generator

open Text

def nameMax : Nat := 128

/-- The size of `buf` and `buf_param`. -/
def bufMax : Nat := 4096

abbrev Flags := BitVec 32

def fIgnore : Flags := 1
def fHasBody : Flags := 2
def fStub : Flags := 4
def fData : Flags := 8
def fRedirect : Flags := 16
def fNoCrt : Flags := 32

structure FuncList where
  name : List Char
  linkname : List Char
  params : Int
  flags : Flags
  deriving DecidableEq

structure LibList where
  file : List Char
  base : List Char
  func : List FuncList
  deriving DecidableEq

inductive Fsm where
  | lib
  | func
  | funcParam

/-- What C leaves open: what is in the `base` of the next `lib_list_t` that comes from
`malloc`, by the number of the ones before, and `atoi` of what is no `int`. -/
structure Env where
  heap : Nat → Nat → Char
  overflow : List Char → Int

structure State where
  fsm : Fsm
  buf : Buffer bufMax
  bufParam : Buffer bufMax
  libs : List LibList

def parseFlags (bufParam : List Char) : Flags :=
  let f := 0
  let f := if strstr bufParam "IGNORE".toList then f ||| fIgnore else f
  let f := if strstr bufParam "HASBODY".toList then f ||| fHasBody else f
  let f := if strstr bufParam "STUB".toList then f ||| fStub else f
  let f := if strstr bufParam "DATA".toList then f ||| fData else f
  let f := if strstr bufParam "REDIRECT".toList then f ||| fRedirect else f
  if strstr bufParam "NOCRT".toList then f ||| fNoCrt else f

/-- `strcpy` and `memcpy` into a name of a list. -/
def copyName (s : List Char) : Option (List Char) := if s.length < nameMax then some s else none

/-- `ll->base`, in a block with `junk` in it -/
def libBase (junk : Nat → Char) (buf : List Char) : Option (List Char) :=
  let base : Buffer nameMax := ⟨junk, 0⟩
  match strrchr '.' buf with
  | some s => do
      let base ← base.emitAll (buf.take s)
      let base ← base.put nul
      some base.string
  | none => some base.string

/-- The new library of a line. -/
def newLib (env : Env) (buf : List Char) (libs : List LibList) : Option (List LibList) := do
  let file ← copyName buf
  let base ← libBase (env.heap libs.length) buf
  some (⟨file, base, []⟩ :: libs)

/-- The new function of a line. -/
def newFunc (env : Env) (buf : List Char) (flags : Flags) : Option FuncList := do
  let linkname ← copyName buf
  match strchr '@' linkname with
  | some nameLen =>
      let name ← copyName (linkname.take nameLen)
      some ⟨name, linkname, atoi env.overflow (linkname.drop (nameLen + 1)), flags⟩
  | none =>
      let name ← copyName linkname
      some ⟨name, linkname, 0, flags⟩

/-- What the end of a line does to the lists. -/
def addLine (env : Env) (fsm : Fsm) (buf bufParam : List Char) (libs : List LibList) :
    Option (List LibList) :=
  match fsm, libs with
  | .lib, libs => newLib env buf libs
  -- no lib
  | _, [] => some []
  | _, lib :: libs =>
      let flags := parseFlags bufParam
      if flags &&& fIgnore = 0 then
        (newFunc env buf flags).map fun fl => { lib with func := fl :: lib.func } :: libs
      else some (lib :: libs)

/-- `case EOF: case '\n':` -/
def endLine (env : Env) (s : State) : Option State := do
  let s ←
    if s.buf.out ≠ 0 then do
      let buf ← s.buf.put nul
      let bufParam ← s.bufParam.put nul
      let libs ← addLine env s.fsm buf.string bufParam.string s.libs
      some { s with buf := buf, bufParam := bufParam, libs := libs }
    else some s
  some ⟨.lib, { s.buf with out := 0 }, { s.bufParam with out := 0 }, s.libs⟩

def State.push (s : State) (c : Char) : Option State :=
  (s.buf.emit c).map fun buf => { s with buf := buf }

def State.pushParam (s : State) (c : Char) : Option State :=
  (s.bufParam.emit c).map fun bufParam => { s with bufParam := bufParam }

/-- The body of the loop; `none` is `EOF`. -/
def step (env : Env) (s : State) : Option Char → Option State
  | none => endLine env s
  | some c =>
      if c = '\n' then endLine env s
      else if c = '\r' then some s
      else if c = ' ' ∨ c = '\t' then
        if s.buf.out = 0 then some { s with fsm := .func }
        else
          match s.fsm with
          | .lib => s.push c
          | .func => some { s with fsm := .funcParam }
          | .funcParam => s.pushParam c
      else
        match s.fsm with
        | .funcParam => s.pushParam c
        | _ => s.push c

def start : State := ⟨.lib, ⟨fun _ => nul, 0⟩, ⟨fun _ => nul, 0⟩, []⟩

/-- The lists after `parse_list`, with the contents of the file if it opens. -/
def parseList (env : Env) (fr : Option (List Char)) : Option (List LibList) :=
  match fr with
  | none => some []
  | some text => ((text.map some ++ [none]).foldlM (step env) start).map State.libs

end SmpVxd.Generator
