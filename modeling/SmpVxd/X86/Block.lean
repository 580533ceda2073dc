import SmpVxd.X86.Machine

/-!
# Code blocks

Assembly that stands inside a function of another language, or a short function of its
own: instructions in a row with labels, and jumps that only go forward. Beside the
processor a block sees the variables of the function around it and the model-specific
registers, and it may call services of the system, of which only a description is given.
-/

namespace X86.Block

structure State (ξ V : Type) where
  cpu : X86.State ξ
  var : V → Word
  msr : Word → BitVec 64

/-- The instructions of a block. `core` is one of the machine that does not jump. -/
inductive Op (V S : Type) where
  | core (i : Instr)
  | load (dst : Reg) (v : V)
  | store (v : V) (src : Operand)
  /-- The low byte of a register, `mov al, [v]`. -/
  | loadByte (dst : Reg) (v : V)
  /-- The low half of a register, `mov [v], ax`. -/
  | storeHalf (v : V) (src : Reg)
  /-- `mov ah, al` -/
  | movHigh (dst src : Reg)
  /-- `mov ax, cx` -/
  | movHalf (dst src : Reg)
  | bswap (dst : Reg)
  | mul (src : Reg)
  | div (src : Reg)
  | repStosd
  | repStosb
  | sti
  | rdmsr
  | wrmsr
  | service (f : S)

inductive Jump where
  | jmp | jz | jc | jo
  deriving DecidableEq, Repr

inductive Item (V S L : Type) where
  | op (o : Op V S)
  | label (l : L)
  | jump (c : Jump) (l : L)

namespace Item

variable {V S L : Type}

def mov (dst src : Reg) : Item V S L := .op (.core (.mov (.reg dst) (.reg src)))
def movImm (dst : Reg) (v : Word) : Item V S L := .op (.core (.mov (.reg dst) (.imm v)))
def push (r : Reg) : Item V S L := .op (.core (.push (.reg r)))
def pop (r : Reg) : Item V S L := .op (.core (.pop r))
def pushfd : Item V S L := .op (.core .pushfd)
def popfd : Item V S L := .op (.core .popfd)
def cld : Item V S L := .op (.core .cld)
def test (r : Reg) : Item V S L := .op (.core (.test (.reg r) (.reg r)))
def xor (r : Reg) : Item V S L := .op (.core (.alu .xor (.reg r) (.reg r)))
def cpuid : Item V S L := .op (.core .cpuid)
def ret : Item V S L := .op (.core .ret)

end Item

def overflowFlag (flags : Word) : Bool := flags.getLsbD 11

def interruptFlag (flags : Word) : Bool := flags.getLsbD 9

def Jump.taken (flags : Word) : Jump → Bool
  | .jmp => true
  | .jz => zeroFlag flags
  | .jc => carryFlag flags
  | .jo => overflowFlag flags

/-! ## Parts of registers -/

def withLow (w : Word) (b : BitVec 8) : Word := w &&& 0xFFFFFF00 ||| b.setWidth 32
def withHigh (w : Word) (b : BitVec 8) : Word := w &&& 0xFFFF00FF ||| b.setWidth 32 <<< 8
def withHalf (w : Word) (h : BitVec 16) : Word := w &&& 0xFFFF0000 ||| h.setWidth 32

def byteSwap (w : Word) : Word :=
  w.extractLsb' 0 8 ++ w.extractLsb' 8 8 ++ w.extractLsb' 16 8 ++ w.extractLsb' 24 8

/-! ## Execution -/

/-- CF and OF say whether the high half of a product is in use. -/
def mulFlags (flags : Word) (carry : Bool) : Word :=
  (flags &&& ~~~0x8D5) ||| if carry then 0x801 else 0

section Execution

variable {ξ V S L : Type}

def stride (flags : Word) (n : Word) : Word := if directionFlag flags then -n else n

/-- `rep stosd`, word by word. -/
def fillWords (s : X86.State ξ) : Nat → X86.State ξ
  | 0 => s.setReg .ecx 0
  | n + 1 =>
      fillWords ((s.store (s.reg .edi) (s.reg .eax)).setReg .edi
        (s.reg .edi + stride s.eflags 4)) n

/-- `rep stosb`, byte by byte. -/
def fillBytes (s : X86.State ξ) : Nat → X86.State ξ
  | 0 => s.setReg .ecx 0
  | n + 1 =>
      fillBytes (({ s with mem := s.mem.set (s.reg .edi) ((s.reg .eax).setWidth 8) }).setReg .edi
        (s.reg .edi + stride s.eflags 1)) n

/-- The product goes to EDX and EAX. -/
def multiply (s : X86.State ξ) (v : Word) : X86.State ξ :=
  let p := (s.reg .eax).toNat * v.toNat
  ((s.setReg .eax (.ofNat 32 p)).setReg .edx (.ofNat 32 (p / 2 ^ 32))).setFlags
    (mulFlags s.eflags (2 ^ 32 ≤ p))

/-- `none` is a divide error. -/
def divide (s : X86.State ξ) (v : Word) : Option (X86.State ξ) :=
  let n := (s.reg .edx).toNat * 2 ^ 32 + (s.reg .eax).toNat
  if v = 0 ∨ 2 ^ 32 ≤ n / v.toNat then none
  else some (((s.setReg .eax (.ofNat 32 (n / v.toNat))).setReg .edx
    (.ofNat 32 (n % v.toNat))).setFlags (s.eflags &&& ~~~0x8D5))

namespace State

def setCpu (b : State ξ V) (s : X86.State ξ) : State ξ V := { b with cpu := s }

def setReg (b : State ξ V) (r : Reg) (v : Word) : State ξ V := b.setCpu (b.cpu.setReg r v)

def setVar [DecidableEq V] (b : State ξ V) (v : V) (w : Word) : State ξ V :=
  { b with var := Function.update b.var v w }

end State

variable [ExtUnit ξ] [DecidableEq V] (services : S → X86.State ξ → X86.State ξ)

def Op.exec (b : State ξ V) : Op V S → Option (State ξ V)
  | .core i => (X86.exec 0 0 b.cpu i).map b.setCpu
  | .load dst v => some (b.setReg dst (b.var v))
  | .store v src => some (b.setVar v (b.cpu.read src))
  | .loadByte dst v => some (b.setReg dst (withLow (b.cpu.reg dst) ((b.var v).setWidth 8)))
  | .storeHalf v src => some (b.setVar v (withHalf (b.var v) ((b.cpu.reg src).setWidth 16)))
  | .movHigh dst src =>
      some (b.setReg dst (withHigh (b.cpu.reg dst) ((b.cpu.reg src).setWidth 8)))
  | .movHalf dst src =>
      some (b.setReg dst (withHalf (b.cpu.reg dst) ((b.cpu.reg src).setWidth 16)))
  | .bswap dst => some (b.setReg dst (byteSwap (b.cpu.reg dst)))
  | .mul src => some (b.setCpu (multiply b.cpu (b.cpu.reg src)))
  | .div src => (divide b.cpu (b.cpu.reg src)).map b.setCpu
  | .repStosd => some (b.setCpu (fillWords b.cpu (b.cpu.reg .ecx).toNat))
  | .repStosb => some (b.setCpu (fillBytes b.cpu (b.cpu.reg .ecx).toNat))
  | .sti =>
      if b.cpu.cpl = 0 then some (b.setCpu (b.cpu.setFlags (b.cpu.eflags ||| 0x200))) else none
  | .rdmsr =>
      if b.cpu.cpl = 0 then
        let v := b.msr (b.cpu.reg .ecx)
        some ((b.setReg .eax (v.setWidth 32)).setReg .edx ((v >>> 32).setWidth 32))
      else none
  | .wrmsr =>
      if b.cpu.cpl = 0 then
        some { b with
          msr := Function.update b.msr (b.cpu.reg .ecx) (b.cpu.reg .edx ++ b.cpu.reg .eax) }
      else none
  | .service f => some (b.setCpu (services f b.cpu))

variable [DecidableEq L]

/-- Execute a block. After a jump the items up to its label are passed over; a label that
does not come is an error. -/
def runItems : List (Item V S L) → Option L → State ξ V → Option (State ξ V)
  | [], none, b => some b
  | [], some _, _ => none
  | .label l :: rest, skip, b => runItems rest (if skip = some l then none else skip) b
  | .op o :: rest, none, b => (o.exec services b).bind (runItems rest none)
  | .op _ :: rest, some l, b => runItems rest (some l) b
  | .jump c l :: rest, none, b =>
      runItems rest (if c.taken b.cpu.eflags then some l else none) b
  | .jump _ _ :: rest, some l, b => runItems rest (some l) b

end Execution

/-- A processor without extended state. -/
instance : ExtUnit Unit where
  size := 0
  fxsave _ image := image
  fxrstor _ _ := ()
  xsave _ _ _ image := image
  xrstor _ _ _ _ := ()

/-- Everything is zero but the reserved bit of EFLAGS. -/
def blank : X86.State Unit where
  reg := fun _ => 0
  eip := 0
  eflags := 2
  seg := fun _ => 0
  cr3 := 0
  mem := fun _ => 0
  ext := ()
  cpuid := fun _ => ⟨0, 0, 0, 0⟩

/-! ## Runs -/

section Runs

variable {ξ V S L : Type} [ExtUnit ξ] [DecidableEq V] [DecidableEq L]
variable {services : S → X86.State ξ → X86.State ξ} {b b' : State ξ V}
variable {o : Op V S} {rest : List (Item V S L)} {c : Jump} {l : L}

theorem run_op (done : o.exec services b = some b') :
    runItems services (.op o :: rest) none b = runItems services rest none b' := by
  rw [runItems, done, Option.bind_some]

theorem run_jump (taken : c.taken b.cpu.eflags = true) :
    runItems services (.jump c l :: rest) none b = runItems services rest (some l) b := by
  rw [runItems, if_pos taken]

theorem run_stay (stays : c.taken b.cpu.eflags = false) :
    runItems services (.jump c l :: rest) none b = runItems services rest none b := by
  rw [runItems, if_neg (Bool.eq_false_iff.1 stays)]

/-- After a jump, code without labels is passed over. -/
theorem runItems_pass {code : List (Item V S L)} (plain : ∀ l', .label l' ∉ code) :
    runItems services (code ++ rest) (some l) b = runItems services rest (some l) b := by
  induction code with
  | nil => rfl
  | cons item code ih =>
      have tail := ih fun l' mem => plain l' (List.mem_cons_of_mem _ mem)
      cases item with
      | op o => exact tail
      | label l' => exact absurd (List.mem_cons_self ..) (plain l')
      | jump c l' => exact tail

end Runs

section Flags

variable {flags v : Word} {carry : Bool}

@[simp] theorem overflowFlag_mulFlags : overflowFlag (mulFlags flags carry) = carry := by
  cases carry
  · simp [overflowFlag, mulFlags]
  · simp [overflowFlag, mulFlags]

theorem zeroFlag_test : zeroFlag (Alu.and.flags flags v v) = decide (v = 0) := by
  rw [zeroFlag_flags (by decide) (by decide), show Alu.and.apply v v = v from BitVec.and_self]
  rfl

end Flags

/-! ## Flags that are restored -/

/-- The flags differ in the status flags and DF only. -/
def SameControl (flags flags' : Word) : Prop := flags' &&& ~~~0xCD5 = flags &&& ~~~0xCD5

namespace SameControl

variable {f f' f'' r : Word} {cf of af : Bool} {cpl : Nat}

theorem refl (f : Word) : SameControl f f := rfl

theorem trans (h : SameControl f f') (h' : SameControl f' f'') : SameControl f f'' := Eq.trans h' h

theorem bit (h : SameControl f f') {i : Nat} (other : (0xCD5 : Word).getLsbD i = false) (lt : i < 32) :
    f'.getLsbD i = f.getLsbD i := by
  have same := congrArg (fun w => w.getLsbD i) h
  simp only [BitVec.getLsbD_and, BitVec.getLsbD_not, other, decide_eq_true lt, Bool.not_false,
    Bool.and_true] at same
  exact same

theorem interruptFlag (h : SameControl f f') : interruptFlag f' = interruptFlag f :=
  h.bit rfl (by decide)

theorem of_bits (bits : ∀ i < 32, (0xCD5 : Word).getLsbD i = false → f'.getLsbD i = f.getLsbD i) :
    SameControl f f' := by
  apply BitVec.eq_of_getLsbD_eq
  intro i lt
  rw [BitVec.getLsbD_and, BitVec.getLsbD_and, BitVec.getLsbD_not]
  cases other : (0xCD5 : Word).getLsbD i with
  | false => rw [bits i lt other]
  | true => simp only [Bool.not_true, Bool.and_false]

theorem setStatus : SameControl f (setStatus f r cf of af) := by
  apply of_bits
  intro i lt other
  have status : (0x8D5 : Word).getLsbD i = false := by
    rw [show (0x8D5 : Word) = 0xCD5 &&& 0x8D5 from rfl, BitVec.getLsbD_and, other, Bool.false_and]
  have ne {j : Nat} (inside : (0xCD5 : Word).getLsbD j = true) : decide (i = j) = false := by
    apply decide_eq_false
    rintro rfl
    rw [inside] at other
    cases other
  rw [setStatus_bit, BitVec.getLsbD_not, decide_eq_true lt, status, ne rfl, ne rfl, ne rfl, ne rfl,
    ne rfl, ne rfl]
  simp only [Bool.not_false, Bool.and_true, Bool.and_false, Bool.or_false]

theorem flags (o : Alu) (a b : Word) : SameControl f (o.flags f a b) := by
  cases o with
  | add | sub | and | or | xor => exact setStatus
  | shl | shr =>
      simp only [Alu.flags]
      split
      · exact refl f
      · exact setStatus

theorem cld : SameControl f (f &&& ~~~0x400) := by
  rw [SameControl, BitVec.and_assoc]
  rfl

/-- `popfd` after `pushfd` restores what was pushed, but for RF, which it clears. -/
theorem popfd (h : SameControl f f') : popfdFlags cpl f' f = f &&& ~~~0x10000 := by
  have inside : ~~~0xCD5 &&& popfdKeeps cpl f' = popfdKeeps cpl f' := by
    rw [popfdKeeps]
    split <;> split <;> decide
  have kept : f' &&& popfdKeeps cpl f' = f &&& popfdKeeps cpl f' := by
    rw [← inside, ← BitVec.and_assoc, ← BitVec.and_assoc, h]
  rw [popfdFlags, kept, ← BitVec.and_or_distrib_left, BitVec.not_or_self, BitVec.and_allOnes]

end SameControl

section Registers

variable {ξ : Type} {s : X86.State ξ} {r r' : Reg} {v : Word}

@[simp] theorem setReg_self : (s.setReg r v).reg r = v := Function.update_self ..

theorem setReg_other (other : r' ≠ r) : (s.setReg r v).reg r' = s.reg r' :=
  Function.update_of_ne other ..

theorem divide_small (high : s.reg .edx = 0) (nonzero : v ≠ 0) :
    ∃ t, divide s v = some t ∧ t.reg .eax = s.reg .eax / v ∧ t.cpuid = s.cpuid ∧
      ∀ r, r ≠ .eax → r ≠ .edx → t.reg r = s.reg r := by
  have low : (s.reg .edx).toNat * 2 ^ 32 + (s.reg .eax).toNat = (s.reg .eax).toNat := by
    rw [high]
    exact Nat.zero_add _
  have small : (s.reg .eax).toNat / v.toNat < 2 ^ 32 :=
    (Nat.div_le_self ..).trans_lt (BitVec.isLt _)
  have fine : ¬(v = 0 ∨ 2 ^ 32 ≤ (s.reg .eax).toNat / v.toNat) := by
    rintro (zero | large)
    · exact nonzero zero
    · omega
  simp only [divide, low, if_neg fine]
  refine ⟨_, rfl, ?_, rfl, fun r eax edx => ?_⟩
  · have quotient : BitVec.ofNat 32 ((s.reg .eax).toNat / v.toNat) = s.reg .eax / v := by
      apply BitVec.eq_of_toNat_eq
      rw [BitVec.toNat_ofNat, BitVec.toNat_udiv, Nat.mod_eq_of_lt small]
    exact quotient
  · exact (setReg_other edx).trans (setReg_other eax)

theorem multiply_spec : (multiply s v).reg .eax = s.reg .eax * v ∧
    ((s.reg .eax).toNat * v.toNat < 2 ^ 32 → (multiply s v).reg .edx = 0) ∧
    overflowFlag (multiply s v).eflags = decide (2 ^ 32 ≤ (s.reg .eax).toNat * v.toNat) ∧
    (multiply s v).cpuid = s.cpuid ∧
    ∀ r, r ≠ .eax → r ≠ .edx → (multiply s v).reg r = s.reg r := by
  refine ⟨?_, fun small => ?_, overflowFlag_mulFlags, rfl, fun r eax edx => ?_⟩
  · have product : BitVec.ofNat 32 ((s.reg .eax).toNat * v.toNat) = s.reg .eax * v := by
      apply BitVec.eq_of_toNat_eq
      rw [BitVec.toNat_ofNat, BitVec.toNat_mul]
    exact product
  · exact congrArg (BitVec.ofNat 32) (Nat.div_eq_of_lt small)
  · exact (setReg_other edx).trans (setReg_other eax)

end Registers

/-! ## The stack -/

/-- These words are on the stack, the first one at its top. -/
def Stack {ξ : Type} (vs : List Word) (s : X86.State ξ) : Prop :=
  ∀ i v, vs[i]? = some v → s.slot (.ofNat 32 (4 * i)) = v

theorem stack_iff {ξ : Type} {s : X86.State ξ} {vs : List Word} :
    Stack vs s ↔ ∀ i (lt : i < vs.length), s.slot (.ofNat 32 (4 * i)) = vs[i] := by
  constructor
  · intro stack i lt
    exact stack i vs[i] (List.getElem?_eq_getElem lt)
  · intro slots i v there
    obtain ⟨lt, rfl⟩ := List.getElem?_eq_some_iff.1 there
    exact slots i lt

namespace Stack

variable {ξ : Type} {s t : X86.State ξ} {vs : List Word} {v w : Word}

theorem top (h : Stack (v :: vs) s) : s.slot 0 = v := h 0 v rfl

theorem congr (h : Stack vs s) (esp : t.reg .esp = s.reg .esp) (mem : t.mem = s.mem) : Stack vs t := by
  intro i v there
  rw [X86.State.slot, esp, mem]
  exact h i v there

/-- The words stay when the memory does from ESP on. -/
theorem agree (h : Stack vs s) (esp : t.reg .esp = s.reg .esp)
    (kept : AgreeOn (s.reg .esp) (4 * vs.length) s.mem t.mem) (small : 4 * vs.length ≤ 2 ^ 32) :
    Stack vs t := by
  intro i v there
  obtain ⟨lt, -⟩ := List.getElem?_eq_some_iff.1 there
  have offset : (BitVec.ofNat 32 (4 * i)).toNat = 4 * i := by
    rw [BitVec.toNat_ofNat, Nat.mod_eq_of_lt (by omega)]
  rw [X86.State.slot, esp, kept.read (by omega)]
  exact h i v there

theorem push (h : Stack vs s) (small : 4 * vs.length + 4 ≤ 2 ^ 32) : Stack (v :: vs) (s.push v) := by
  intro i w there
  rw [X86.State.slot, X86.State.push_esp]
  cases i with
  | zero =>
      obtain rfl : v = w := Option.some.inj there
      rw [show s.reg .esp - 4 + .ofNat 32 (4 * 0) = s.reg .esp - 4 from BitVec.add_zero _]
      exact Mem.read_write_self
  | succ i =>
      have there : vs[i]? = some w := there
      obtain ⟨lt, -⟩ := List.getElem?_eq_some_iff.1 there
      have address : s.reg .esp - 4 + .ofNat 32 (4 * (i + 1)) = s.reg .esp + .ofNat 32 (4 * i) := by
        bv_omega
      rw [address]
      exact (Mem.read_write_apart ⟨by bv_omega, by bv_omega⟩).trans (h i w there)

theorem drop (h : Stack (v :: vs) s) : Stack vs (s.drop 4) := by
  intro i w there
  have address : s.reg .esp + 4 + .ofNat 32 (4 * i) = s.reg .esp + .ofNat 32 (4 * (i + 1)) := by
    bv_omega
  have esp : (s.drop 4).reg .esp = s.reg .esp + 4 := setReg_self
  rw [X86.State.slot, esp, address]
  exact h (i + 1) w there

end Stack

end X86.Block
