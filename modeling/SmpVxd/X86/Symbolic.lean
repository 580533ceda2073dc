import SmpVxd.X86.Machine

/-!
# Symbolic execution

A `View` says what is known about a state in terms of an environment: the values of
variables, the memory at the start and the answers `cpuid` has given so far. Memory is
known in regions, each with a variable as its base; what lies elsewhere may be read,
without anything known of the value, but not written. `View.exec` executes an
instruction on a view, with a view for each way a branch may go, and `verify` follows
a listing from a view, checking the views on the way and those in which the listing is
left.
-/

namespace X86

/-- A value in terms of an environment. -/
inductive Exp where
  | lit (v : Word)
  | var (x : Nat)
  /-- The word at an offset of a region, as it was at the start. -/
  | load (x : Nat) (k : Word)
  /-- What the `i`-th `cpuid` left in a register. -/
  | cpuid (i : Nat) (leaf : Word) (r : Reg)
  | op (o : Alu) (a b : Exp)
  deriving DecidableEq

def CpuidRegs.get (c : CpuidRegs) : Reg → Word
  | .eax => c.eax
  | .ebx => c.ebx
  | .ecx => c.ecx
  | _ => c.edx

structure Env where
  var : Nat → Word
  mem : Mem
  seen : List (Word → CpuidRegs)

namespace Exp

def eval (ρ : Env) : Exp → Option Word
  | .lit v => some v
  | .var x => some (ρ.var x)
  | .load x k => some (ρ.mem.read (ρ.var x + k))
  | .cpuid i leaf r => ρ.seen[i]?.map fun c => (c leaf).get r
  | .op o a b => (a.eval ρ).bind fun u => (b.eval ρ).map fun v => o.apply u v

/-- Add a constant. -/
def offset (e : Exp) (k : Word) : Exp :=
  match e with
  | .lit v => .lit (v + k)
  | .op .add a (.lit j) => .op .add a (.lit (j + k))
  | e => .op .add e (.lit k)

/-- An operation, with constants folded. -/
def mk (o : Alu) (a b : Exp) : Exp :=
  match o, a, b with
  | .add, a, .lit k => a.offset k
  | .sub, a, .lit k => a.offset (-k)
  | o, .lit u, .lit v => .lit (o.apply u v)
  | o, a, b => .op o a b

/-- The expression without a constant added to it, and this constant. -/
def split : Exp → Exp × Word
  | .op .add e (.lit k) => (e, k)
  | e => (e, 0)

end Exp

/-- What is known of a word; `mod` is up to the volatile bits. -/
inductive Value where
  | any
  | eq (e : Exp)
  | mod (e : Exp)
  deriving DecidableEq

/-- What is known of ZF and CF: nothing, or they are those of a result or a comparison. -/
inductive FlagStatus where
  | unknown
  | res (e : Exp)
  | sub (a b : Exp)
  deriving DecidableEq

/-- Branches are compared by their contents. -/
instance : LawfulBEq (FlagStatus × Cond × Bool) := inferInstance

/-- The regions, each with the number of bytes that are tracked and the number of bytes
that it has, the words known to be addresses in them, the flags that may change between
instructions, and a bound for the size of the extended state. The listing is in
region 0. -/
structure Layout where
  regions : List (Nat × Nat)
  facts : List (Exp × Nat × Word)
  volatile : Word
  ext : Nat

structure View where
  reg : Reg → Value
  eip : Exp
  flags : Option Exp
  status : FlagStatus
  /-- DF is known to be clear. -/
  up : Bool
  seg : SReg → Option Selector
  cr3 : Value
  cells : List ((Nat × Word) × Value)
  /-- The branches taken. -/
  path : List (FlagStatus × Cond × Bool)
  /-- How many times `cpuid` was executed. -/
  count : Nat

namespace Layout

variable (L : Layout)

def size (x : Nat) : Nat := (L.regions[x]?.getD (0, 0)).1

def extent (x : Nat) : Nat := (L.regions[x]?.getD (0, 0)).2

/-- An expression that is an address in a region. -/
def resolve (e : Exp) : Option (Nat × Word) :=
  match e.split with
  | (.var x, k) => if x < L.regions.length then some (x, k) else none
  | (e, k) => (L.facts.find? (·.1 = e)).map fun f => (f.2.1, f.2.2 + k)

/-- The address of a tracked word. -/
def cell : Value → Option (Nat × Word)
  | .eq e =>
      match L.resolve e with
      | some (x, k) => if k.toNat % 4 = 0 ∧ k.toNat + 4 ≤ L.size x then some (x, k) else none
      | none => none
  | _ => none

end Layout

namespace Value

def op (o : Alu) : Value → Value → Value
  | .eq a, .eq b => .eq (.mk o a b)
  | _, _ => .any

def exp? : Value → Option Exp
  | .eq e | .mod e => some e
  | .any => none

end Value

namespace FlagStatus

/-- The way a branch goes, where the flags are constant. -/
def decides (c : Cond) : FlagStatus → Option Bool
  | .res (.lit v) =>
      match c with
      | .z => some (v == 0)
      | .nz => some (v != 0)
      | _ => none
  | .sub (.lit u) (.lit v) => some (c.holds (u == v) (u < v))
  | _ => none

def ofResult : Value → FlagStatus
  | .eq e => .res e
  | _ => .unknown

def ofCmp : Value → Value → FlagStatus
  | .eq a, .eq b => .sub a b
  | _, _ => .unknown

end FlagStatus

namespace View

variable (L : Layout) (A : View)

def setReg (r : Reg) (v : Value) : View := { A with reg := fun x => if x = r then v else A.reg x }

def setSeg (g : SReg) (v : Option Selector) : View :=
  { A with seg := fun x => if x = g then v else A.seg x }

def goto (o : Word) : View := { A with eip := .op .add (.var 0) (.lit o) }

/-- The offset of the next instruction in the listing. -/
def offset : Option Word :=
  match A.eip with
  | .op .add (.var 0) (.lit o) => some o
  | _ => none

def word (c : Nat × Word) : Value :=
  match A.cells.find? (·.1 = c) with
  | some f => f.2
  | none => .eq (.load c.1 c.2)

def load (a : Value) : Value :=
  match L.cell a with
  | some c => A.word c
  | none => .any

def store (a v : Value) : Option View :=
  (L.cell a).map fun c => { A with cells := (c, v) :: A.cells }

/-- Bytes are written that are not tracked. -/
def blit (a : Value) (n : Nat) : Option View :=
  match a with
  | .eq e =>
      match L.resolve e with
      | some (x, k) =>
          if L.size x ≤ k.toNat ∧ k.toNat + n ≤ L.extent x ∧ L.extent x ≤ 2 ^ 32 then some A else none
      | none => none
  | _ => none

def at_ (b : Reg) (d : Word) : Value := .op .add (A.reg b) (.eq (.lit d))

def value : Operand → Value
  | .reg r => A.reg r
  | .imm v => .eq (.lit v)
  | .mem b d => A.load L (A.at_ b d)

def write (v : Value) : Operand → Option View
  | .reg r => some (A.setReg r v)
  | .imm _ => some A
  | .mem b d => A.store L (A.at_ b d) v

def setStatus (st : FlagStatus) : View := { A with status := st, flags := none }

def push (v : Value) : Option View :=
  (A.store L (A.at_ .esp (-4)) v).map fun B => B.setReg .esp (A.at_ .esp (-4))

def pushAll (A : View) : List Value → Option View
  | [] => some A
  | v :: vs => (A.push L v).bind fun B => B.pushAll vs

def slot (k : Word) : Value := A.load L (A.at_ .esp k)

def drop (n : Word) : View := A.setReg .esp (A.at_ .esp n)

def popad : View :=
  (((((((A.setReg .edi (A.slot L 0)).setReg .esi (A.slot L 4)).setReg .ebp (A.slot L 8)).setReg .ebx
    (A.slot L 16)).setReg .edx (A.slot L 20)).setReg .ecx (A.slot L 24)).setReg .eax (A.slot L 28)).drop 32

/-- Take all flags from a value. -/
def setFlags (v : Value) : View := { A with flags := v.exp?, status := .unknown, up := false }

def copyWords (A : View) : Nat → Option View
  | 0 => some (A.setReg .ecx (.eq (.lit 0)))
  | n + 1 =>
      (A.store L (A.reg .edi) (A.load L (A.reg .esi))).bind fun B =>
        ((B.setReg .esi (A.at_ .esi 4)).setReg .edi (A.at_ .edi 4)).copyWords n

/-- In ring 0. -/
def kernel : Bool :=
  match A.seg .cs with
  | some cs => cs.toNat % 4 == 0
  | none => false

def ret : Option View :=
  match A.slot L 0 with
  | .eq e => some { A.drop 4 with eip := e }
  | _ => none

def iret : Option View :=
  match A.kernel, A.slot L 0, A.slot L 4 with
  | true, .eq e, .eq (.lit cs) =>
      let cs : Selector := cs.setWidth 16
      let B := { (A.setFlags (A.slot L 8)).setSeg .cs (some cs) with eip := e }
      if cs.toNat % 4 = 0 then some (B.drop 12)
      else
        let ss := match A.slot L 16 with
          | .eq (.lit ss) => some (ss.setWidth 16)
          | _ => none
        some ((B.setReg .esp (A.slot L 12)).setSeg .ss ss)
  | _, _, _ => none

/-- The answer of `cpuid` in a register. -/
def answer (r : Reg) : Value :=
  match A.reg .eax with
  | .eq (.lit leaf) => .eq (.cpuid A.count leaf r)
  | _ => .any

def branch (c : Cond) (target next : Word) : List View :=
  match A.status.decides c with
  | some true => [A.goto target]
  | some false => [A.goto next]
  | none =>
      [{ A with path := (A.status, c, true) :: A.path }.goto target,
       { A with path := (A.status, c, false) :: A.path }.goto next]

/-- The views after an instruction; `none` where too little is known. -/
def exec (next : Word) : Instr → Option (List View)
  | .mov dst src => (A.write L (A.value L src) dst).map fun B => [B.goto next]
  | .lea dst b d => some [(A.setReg dst (A.at_ b d)).goto next]
  | .alu o dst src =>
      let v := if o = .xor ∧ dst = src then .eq (.lit 0) else .op o (A.value L dst) (A.value L src)
      let st := if o = .shl ∨ o = .shr then .unknown else FlagStatus.ofResult v
      (A.write L v dst).map fun B => [(B.setStatus st).goto next]
  | .cmp a b => some [(A.setStatus (.ofCmp (A.value L a) (A.value L b))).goto next]
  | .test a b => some [(A.setStatus (.ofResult (.op .and (A.value L a) (A.value L b)))).goto next]
  | .dec dst =>
      let v := Value.op .sub (A.value L dst) (.eq (.lit 1))
      (A.write L v dst).map fun B => [(B.setStatus (.ofResult v)).goto next]
  | .push src => (A.push L (A.value L src)).map fun B => [B.goto next]
  | .pop dst => some [((A.drop 4).setReg dst (A.slot L 0)).goto next]
  | .pushad =>
      (A.pushAll L ([.eax, .ecx, .edx, .ebx, .esp, .ebp, .esi, .edi].map A.reg)).map fun B => [B.goto next]
  | .popad => some [(A.popad L).goto next]
  | .pushfd => (A.push L ((A.flags.map .mod).getD .any)).map fun B => [B.goto next]
  | .popfd =>
      if 0x1B3200 &&& ~~~L.volatile = 0 then some [((A.drop 4).setFlags (A.slot L 0)).goto next] else none
  | .call target => (A.push L (.eq (.op .add (.var 0) (.lit next)))).map fun B => [B.goto target]
  | .ret => (A.ret L).map fun B => [B]
  | .jmp target => some [A.goto target]
  | .jcc c target => some (A.branch c target next)
  | .iret => (A.iret L).map fun B => [B]
  | .int3 => none
  | .cpuid =>
      some [{ (((A.setReg .eax (A.answer .eax)).setReg .ebx (A.answer .ebx)).setReg .ecx
        (A.answer .ecx)).setReg .edx (A.answer .edx) with count := A.count + 1 }.goto next]
  | .repMovsd =>
      match A.up, A.reg .ecx with
      | true, .eq (.lit n) => (A.copyWords L n.toNat).map fun B => [B.goto next]
      | _, _ => none
  | .cld => some [{ A with up := true, flags := none }.goto next]
  | .cli => if A.kernel then some [{ A with flags := none }.goto next] else none
  | .movSeg dst src =>
      let v := match A.reg src with
        | .eq (.lit w) => some (w.setWidth 16)
        | _ => none
      some [(A.setSeg dst v).goto next]
  | .movCr3 src => if A.kernel then some [{ A with cr3 := A.reg src }.goto next] else none
  | .fxsave b => (A.blit L (A.reg b) fxsaveSize).map fun B => [B.goto next]
  | .xsave b => (A.blit L (A.reg b) L.ext).map fun B => [B.goto next]
  | .fxrstor _ | .xrstor _ => some [A.goto next]

end View

/-- Follow a listing from a view. Each view and the instruction it is at are checked
with `ok`, breakpoints have no effect, and `post` is checked where the listing is left. -/
def verify (L : Layout) (code : Listing) (ok : View → Instr → Bool) (post : View → Bool) :
    Nat → View → Bool
  | 0, _ => false
  | n + 1, A =>
      match A.offset with
      | none => post A
      | some o =>
          match fetch code o with
          | none => false
          | some (i, next) =>
              ok A i &&
                match i with
                | .int3 => verify L code ok post n (A.goto next)
                | i =>
                    match A.exec L next i with
                    | some As => As.all (verify L code ok post n)
                    | none => false

/-- A check that refuses breakpoints. -/
def plain (_ : View) (i : Instr) : Bool := i != .int3

end X86
