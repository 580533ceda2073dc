import SmpVxd.X86.Memory

/-!
# A 32-bit x86 processor

Flat segments, no paging and no virtual-8086 mode: memory is the one linear space
that all code considered shares. `exec` is one instruction, `step` fetches it from a
listing and `run` repeats this; an instruction that is not possible at the current
privilege level, and `int3`, have no next state. `State.interrupt` enters a handler
from ring 3 through the task state segment.

The instructions are those that the listings need. Status flags that the manual
leaves undefined are cleared.
-/

namespace X86

abbrev Selector := BitVec 16

inductive Reg where
  | eax | ecx | edx | ebx | esp | ebp | esi | edi
  deriving DecidableEq, Repr

inductive SReg where
  | es | cs | ss | ds | fs | gs
  deriving DecidableEq, Repr

/-- The registers that `cpuid` loads. -/
structure CpuidRegs where
  eax : Word
  ebx : Word
  ecx : Word
  edx : Word

/-- How the processor stores its extended state `ξ`, given the bytes that are there,
and loads it. The mask is that of EDX and EAX. -/
class ExtUnit (ξ : Type) where
  /-- The number of bytes `xsave` may write. -/
  size : Nat
  fxsave : ξ → (Nat → BitVec 8) → Nat → BitVec 8
  fxrstor : (Nat → BitVec 8) → ξ → ξ
  xsave : Word → Word → ξ → (Nat → BitVec 8) → Nat → BitVec 8
  xrstor : Word → Word → (Nat → BitVec 8) → ξ → ξ

/-- The number of bytes `fxsave` writes. -/
def fxsaveSize : Nat := 512

structure State (ξ : Type) where
  reg : Reg → Word
  eip : Word
  eflags : Word
  seg : SReg → Selector
  cr3 : Word
  mem : Mem
  ext : ξ
  /-- The answers of the processor the code is on. -/
  cpuid : Word → CpuidRegs

/-! ## Flags -/

/-- Set CF, PF, AF, ZF, SF and OF for the result `r`. -/
def setStatus (flags r : Word) (cf of af : Bool) : Word :=
  let bit (i : Nat) (b : Bool) : Word := if b then BitVec.twoPow 32 i else 0
  (flags &&& ~~~0x8D5) ||| bit 0 cf ||| bit 2 ((List.range 8).countP r.getLsbD % 2 == 0) |||
    bit 4 af ||| bit 6 (r == 0) ||| bit 7 r.msb ||| bit 11 of

inductive Alu where
  | add | sub | and | or | xor | shl | shr
  deriving DecidableEq, Repr

def Alu.apply : Alu → Word → Word → Word
  | .add, a, b => a + b
  | .sub, a, b => a - b
  | .and, a, b => a &&& b
  | .or, a, b => a ||| b
  | .xor, a, b => a ^^^ b
  | .shl, a, b => a <<< (b &&& 31).toNat
  | .shr, a, b => a >>> (b &&& 31).toNat

def Alu.flags (o : Alu) (flags a b : Word) : Word :=
  let r := o.apply a b
  let n := (b &&& 31).toNat
  match o with
  | .add => setStatus flags r (r < a) (BitVec.saddOverflow a b) (r &&& 15 < a &&& 15)
  | .sub => setStatus flags r (a < b) (BitVec.ssubOverflow a b) (a &&& 15 < b &&& 15)
  | .and | .or | .xor => setStatus flags r false false false
  | .shl =>
      if n = 0 then flags
      else setStatus flags r (a.getLsbD (32 - n)) (r.msb != a.getLsbD (32 - n)) false
  | .shr => if n = 0 then flags else setStatus flags r (a.getLsbD (n - 1)) a.msb false

def carryFlag (flags : Word) : Bool := flags.getLsbD 0
def zeroFlag (flags : Word) : Bool := flags.getLsbD 6
def directionFlag (flags : Word) : Bool := flags.getLsbD 10

section Status

variable {flags r a b : Word} {cf of af : Bool} {o : Alu}

theorem setStatus_bit (i : Nat) :
    (setStatus flags r cf of af).getLsbD i =
      ((flags.getLsbD i && (~~~(0x8D5 : Word)).getLsbD i) || (cf && i = 0) ||
        ((List.range 8).countP r.getLsbD % 2 == 0 && i = 2) || (af && i = 4) ||
        (r == 0 && i = 6) || (r.msb && i = 7) || (of && i = 11)) := by
  have bit (j : Nat) (hj : j < 32) (b : Bool) :
      (if b then BitVec.twoPow 32 j else 0 : Word).getLsbD i = (b && decide (i = j)) := by
    cases b
    · simp
    · simp only [if_true, BitVec.getLsbD_twoPow, Bool.true_and]
      by_cases h : i = j <;> simp [h, hj, eq_comm]
  simp only [setStatus, BitVec.getLsbD_or, BitVec.getLsbD_and]
  rw [bit 0 (by decide), bit 2 (by decide), bit 4 (by decide), bit 6 (by decide), bit 7 (by decide),
    bit 11 (by decide)]

@[simp] theorem carryFlag_setStatus : carryFlag (setStatus flags r cf of af) = cf := by
  simp only [carryFlag, setStatus_bit]
  simp

@[simp] theorem zeroFlag_setStatus : zeroFlag (setStatus flags r cf of af) = (r == 0) := by
  simp only [zeroFlag, setStatus_bit]
  simp

@[simp] theorem directionFlag_setStatus :
    directionFlag (setStatus flags r cf of af) = directionFlag flags := by
  simp only [directionFlag, setStatus_bit]
  simp

@[simp] theorem directionFlag_flags : directionFlag (o.flags flags a b) = directionFlag flags := by
  cases o <;> simp only [Alu.flags, directionFlag_setStatus]
  all_goals
    split <;> simp only [directionFlag_setStatus]

theorem zeroFlag_flags (shl : o ≠ .shl) (shr : o ≠ .shr) :
    zeroFlag (o.flags flags a b) = (o.apply a b == 0) := by
  cases o <;> first | contradiction | exact zeroFlag_setStatus

theorem carryFlag_sub : carryFlag (Alu.sub.flags flags a b) = decide (a < b) := carryFlag_setStatus

end Status

inductive Cond where
  | z | nz | b | ae
  deriving DecidableEq, Repr

def Cond.holds (zero carry : Bool) : Cond → Bool
  | .z => zero
  | .nz => !zero
  | .b => carry
  | .ae => !carry

/-- The bits that `popfd` leaves alone or clears: RF, VM, VIF and VIP always, IOPL
outside of ring 0, and IF where the ring is above the IOPL. -/
def popfdKeeps (cpl : Nat) (flags : Word) : Word :=
  0x1B0000 ||| (if cpl = 0 then 0 else 0x3000) |||
    (if cpl ≤ ((flags >>> 12) &&& 3).toNat then 0 else 0x200)

def popfdFlags (cpl : Nat) (flags image : Word) : Word :=
  ((image &&& ~~~popfdKeeps cpl flags) ||| (flags &&& popfdKeeps cpl flags)) &&& ~~~0x10000

/-! ## Instructions -/

inductive Operand where
  | reg (r : Reg)
  | imm (v : Word)
  | mem (base : Reg) (disp : Word)
  deriving DecidableEq, Repr

/-- Jump and call targets are offsets from the base of the listing. -/
inductive Instr where
  | mov (dst src : Operand)
  | lea (dst base : Reg) (disp : Word)
  | alu (o : Alu) (dst src : Operand)
  | cmp (a b : Operand)
  | test (a b : Operand)
  | dec (dst : Operand)
  | push (src : Operand)
  | pop (dst : Reg)
  | pushad
  | popad
  | pushfd
  | popfd
  | call (target : Word)
  | ret
  | jmp (target : Word)
  | jcc (c : Cond) (target : Word)
  | iret
  | int3
  | cpuid
  | repMovsd
  | cld
  | cli
  | movSeg (dst : SReg) (src : Reg)
  | movCr3 (src : Reg)
  | fxsave (base : Reg)
  | fxrstor (base : Reg)
  | xsave (base : Reg)
  | xrstor (base : Reg)
  deriving DecidableEq, Repr

/-- The instructions of a program in the order of their offsets. -/
abbrev Listing := List (Word × Instr)

/-- The instruction at an offset, and the offset of the following one. -/
def fetch : Listing → Word → Option (Instr × Word)
  | [], _ => none
  | (o, i) :: rest, at_ => if o = at_ then some (i, (rest.head?.map Prod.fst).getD o) else fetch rest at_

section Execution

variable {ξ : Type}

namespace State

def cpl (s : State ξ) : Nat := (s.seg .cs).toNat % 4

def setReg (s : State ξ) (r : Reg) (v : Word) : State ξ := { s with reg := Function.update s.reg r v }

def store (s : State ξ) (a v : Word) : State ξ := { s with mem := s.mem.write a v }

def goto (s : State ξ) (eip : Word) : State ξ := { s with eip := eip }

def push (s : State ξ) (v : Word) : State ξ :=
  (s.store (s.reg .esp - 4) v).setReg .esp (s.reg .esp - 4)

/-- Drop `n` bytes from the stack. -/
def drop (s : State ξ) (n : Word) : State ξ := s.setReg .esp (s.reg .esp + n)

/-- The word `k` bytes above ESP. -/
def slot (s : State ξ) (k : Word) : Word := s.mem.read (s.reg .esp + k)

def read (s : State ξ) : Operand → Word
  | .reg r => s.reg r
  | .imm v => v
  | .mem b d => s.mem.read (s.reg b + d)

def write (s : State ξ) (v : Word) : Operand → State ξ
  | .reg r => s.setReg r v
  | .imm _ => s
  | .mem b d => s.store (s.reg b + d) v

def setFlags (s : State ξ) (flags : Word) : State ξ := { s with eflags := flags }

def setSeg (s : State ξ) (g : SReg) (v : Selector) : State ξ := { s with seg := Function.update s.seg g v }

def pushAll (s : State ξ) : List Word → State ξ
  | [] => s
  | v :: vs => (s.push v).pushAll vs

/-- `pushad` pushes the registers as they were before it. -/
def pushad (s : State ξ) : State ξ :=
  s.pushAll ([.eax, .ecx, .edx, .ebx, .esp, .ebp, .esi, .edi].map s.reg)

/-- `popad` skips the place of ESP. -/
def popad (s : State ξ) : State ξ :=
  (((((((s.setReg .edi (s.slot 0)).setReg .esi (s.slot 4)).setReg .ebp (s.slot 8)).setReg .ebx
    (s.slot 16)).setReg .edx (s.slot 20)).setReg .ecx (s.slot 24)).setReg .eax (s.slot 28)).drop 32

/-- `iret` in ring 0; it takes ESP and SS from the stack only when it leaves the ring. -/
def iret (s : State ξ) : State ξ :=
  let cs : Selector := (s.slot 4).setWidth 16
  let s' := ((s.goto (s.slot 0)).setSeg .cs cs).setFlags (s.slot 8)
  if cs.toNat % 4 = 0 then s'.drop 12
  else (s'.setReg .esp (s.slot 12)).setSeg .ss ((s.slot 16).setWidth 16)

/-- `rep movsd`, word by word. -/
def copyWords (s : State ξ) : Nat → State ξ
  | 0 => s.setReg .ecx 0
  | n + 1 =>
      let δ : Word := if directionFlag s.eflags then -4 else 4
      copyWords (((s.store (s.reg .edi) (s.mem.read (s.reg .esi))).setReg .esi
        (s.reg .esi + δ)).setReg .edi (s.reg .edi + δ)) n

end State

variable [ExtUnit ξ]

/-- Execute an instruction of a listing at `base`, followed by the one at `next`. -/
def exec (base next : Word) (s : State ξ) : Instr → Option (State ξ)
  | .mov dst src => some ((s.write (s.read src) dst).goto next)
  | .lea dst b d => some ((s.setReg dst (s.reg b + d)).goto next)
  | .alu o dst src =>
      some (((s.write (o.apply (s.read dst) (s.read src)) dst).setFlags
        (o.flags s.eflags (s.read dst) (s.read src))).goto next)
  | .cmp a b => some ((s.setFlags (Alu.sub.flags s.eflags (s.read a) (s.read b))).goto next)
  | .test a b => some ((s.setFlags (Alu.and.flags s.eflags (s.read a) (s.read b))).goto next)
  | .dec dst =>
      let v := s.read dst
      some (((s.write (v - 1) dst).setFlags (setStatus s.eflags (v - 1) (carryFlag s.eflags)
        (BitVec.ssubOverflow v 1) (v &&& 15 == 0))).goto next)
  | .push src => some ((s.push (s.read src)).goto next)
  | .pop dst => some (((s.drop 4).setReg dst (s.slot 0)).goto next)
  | .pushad => some (s.pushad.goto next)
  | .popad => some (s.popad.goto next)
  | .pushfd => some ((s.push s.eflags).goto next)
  | .popfd => some (((s.drop 4).setFlags (popfdFlags s.cpl s.eflags (s.slot 0))).goto next)
  | .call target => some ((s.push next).goto (base + target))
  | .ret => some ((s.drop 4).goto (s.slot 0))
  | .jmp target => some (s.goto (base + target))
  | .jcc c target =>
      some (s.goto (if c.holds (zeroFlag s.eflags) (carryFlag s.eflags) then base + target else next))
  | .iret => if s.cpl = 0 then some s.iret else none
  | .int3 => none
  | .cpuid =>
      let c := s.cpuid (s.reg .eax)
      some (((((s.setReg .eax c.eax).setReg .ebx c.ebx).setReg .ecx c.ecx).setReg .edx c.edx).goto next)
  | .repMovsd => some ((s.copyWords (s.reg .ecx).toNat).goto next)
  | .cld => some ((s.setFlags (s.eflags &&& ~~~0x400)).goto next)
  | .cli => if s.cpl = 0 then some ((s.setFlags (s.eflags &&& ~~~0x200)).goto next) else none
  | .movSeg dst src => some ((s.setSeg dst ((s.reg src).setWidth 16)).goto next)
  | .movCr3 src => if s.cpl = 0 then some { s with cr3 := s.reg src, eip := next } else none
  | .fxsave b =>
      some { s with
        mem := s.mem.blit (s.reg b) fxsaveSize (ExtUnit.fxsave s.ext (s.mem.image (s.reg b)))
        eip := next }
  | .fxrstor b => some { s with ext := ExtUnit.fxrstor (s.mem.image (s.reg b)) s.ext, eip := next }
  | .xsave b =>
      some { s with
        mem := s.mem.blit (s.reg b) (ExtUnit.size ξ)
          (ExtUnit.xsave (s.reg .edx) (s.reg .eax) s.ext (s.mem.image (s.reg b)))
        eip := next }
  | .xrstor b =>
      some { s with
        ext := ExtUnit.xrstor (s.reg .edx) (s.reg .eax) (s.mem.image (s.reg b)) s.ext
        eip := next }

/-- The instruction at EIP. -/
def step (base : Word) (code : Listing) (s : State ξ) : Option (State ξ) :=
  match fetch code (s.eip - base) with
  | some (i, next) => exec base (base + next) s i
  | none => none

def run (base : Word) (code : Listing) : Nat → State ξ → Option (State ξ)
  | 0, s => some s
  | n + 1, s => (step base code s).bind (run base code n)

end Execution

/-! ## Pushes -/

namespace State

variable {ξ : Type} {s : State ξ} {vs : List Word} {p v : Word} {n : Nat}

@[simp] theorem push_esp : (s.push v).reg .esp = s.reg .esp - 4 := by
  simp [push, setReg]

theorem pushAll_esp : (s.pushAll vs).reg .esp = s.reg .esp - BitVec.ofNat 32 (4 * vs.length) := by
  induction vs generalizing s with
  | nil => simp [pushAll]
  | cons v vs ih =>
      simp only [pushAll, ih, push_esp, List.length_cons]
      bv_omega

theorem push_reg {r : Reg} (h : r ≠ .esp) : (s.push v).reg r = s.reg r :=
  Function.update_of_ne h _ _

theorem pushAll_reg {r : Reg} (h : r ≠ .esp) : (s.pushAll vs).reg r = s.reg r := by
  induction vs generalizing s with
  | nil => rfl
  | cons v vs ih => exact ih.trans (push_reg h)

/-- A region apart from the words pushed stays. -/
theorem pushAll_agree (small : 4 * vs.length < 2 ^ 32)
    (apart : Apart p n (s.reg .esp - BitVec.ofNat 32 (4 * vs.length)) (4 * vs.length)) :
    AgreeOn p n s.mem (s.pushAll vs).mem := by
  induction vs generalizing s with
  | nil => exact AgreeOn.refl p n s.mem
  | cons v vs ih =>
      simp only [List.length_cons] at small apart
      obtain ⟨h₁, h₂⟩ := apart
      have first : AgreeOn p n s.mem (s.push v).mem := by
        intro a ha
        apply Mem.write_apply
        bv_omega
      refine first.trans (ih (by omega) ⟨?_, ?_⟩)
      · rw [push_esp]
        bv_omega
      · rw [push_esp]
        bv_omega

/-- The words pushed are found below the old stack pointer. -/
theorem pushAll_read (small : 4 * vs.length < 2 ^ 32) {i : Nat} (hi : i < vs.length) :
    (s.pushAll vs).mem.read (s.reg .esp - BitVec.ofNat 32 (4 * (i + 1))) = vs[i] := by
  induction vs generalizing s i with
  | nil => cases hi
  | cons v vs ih =>
      simp only [List.length_cons] at small hi
      cases i with
      | zero =>
          have top : (s.push v).mem.read (s.reg .esp - 4) = v := Mem.read_write_self
          by_cases last : vs.length = 0
          · cases List.length_eq_zero_iff.mp last
            exact top
          · have kept : AgreeOn (s.reg .esp - 4) 4 (s.push v).mem ((s.push v).pushAll vs).mem :=
              pushAll_agree (by omega) ⟨by rw [push_esp]; bv_omega, by rw [push_esp]; bv_omega⟩
            have read := kept.read (i := 0) (by decide)
            rw [show s.reg .esp - 4 + 0 = s.reg .esp - 4 by simp] at read
            exact read.trans top
      | succ i =>
          have rest := ih (s := s.push v) (i := i) (by omega) (by omega)
          rw [push_esp] at rest
          rw [show s.reg .esp - BitVec.ofNat 32 (4 * (i + 1 + 1)) =
            s.reg .esp - 4 - BitVec.ofNat 32 (4 * (i + 1)) by bv_omega]
          exact rest

end State

/-! ## Interrupts -/

/-- The part of a gate that the entry depends on; an interrupt gate clears IF. -/
structure Gate where
  selector : Selector
  offset : Word
  clearsIf : Bool

namespace State

variable {ξ : Type}

/-- Enter a handler of ring 0 from ring 3, with words on its stack, which is the one in
the task state segment at `tss`. -/
def enter (s : State ξ) (tss : Word) (gate : Gate) (frame : List Word) : State ξ :=
  ((((s.setReg .esp (s.mem.read (tss + 4))).pushAll frame).setSeg .ss
    ((s.mem.read (tss + 8)).setWidth 16)).setSeg .cs gate.selector).setFlags
    (s.eflags &&& ~~~(0x34100 ||| if gate.clearsIf then 0x200 else 0)) |>.goto gate.offset

/-- The words on the stack of a handler, with an error code if there is one. -/
def trapFrame (s : State ξ) (code : Option Word) : List Word :=
  [(s.seg .ss).setWidth 32, s.reg .esp, s.eflags, (s.seg .cs).setWidth 32, s.eip] ++ code.toList

def interrupt (s : State ξ) (tss : Word) (gate : Gate) (code : Option Word) : State ξ :=
  s.enter tss gate (s.trapFrame code)

variable {s : State ξ} {tss p : Word} {gate : Gate} {vs : List Word} {n : Nat}

theorem pushAll_cpuid : (s.pushAll vs).cpuid = s.cpuid := by
  induction vs generalizing s with
  | nil => rfl
  | cons v vs ih => exact ih

theorem enter_cpuid : (s.enter tss gate vs).cpuid = s.cpuid := pushAll_cpuid

theorem enter_reg {r : Reg} (h : r ≠ .esp) : (s.enter tss gate vs).reg r = s.reg r :=
  (pushAll_reg h).trans (Function.update_of_ne h _ _)

theorem setReg_esp {v : Word} : (s.setReg .esp v).reg .esp = v := by simp [setReg]

theorem enter_esp :
    (s.enter tss gate vs).reg .esp = s.mem.read (tss + 4) - BitVec.ofNat 32 (4 * vs.length) :=
  pushAll_esp.trans (by rw [setReg_esp])

theorem enter_cs : (s.enter tss gate vs).seg .cs = gate.selector := by
  simp [enter, setSeg, setFlags, goto]

/-- A region apart from the frame stays. -/
theorem enter_agree (small : 4 * vs.length < 2 ^ 32)
    (apart : Apart p n (s.mem.read (tss + 4) - BitVec.ofNat 32 (4 * vs.length)) (4 * vs.length)) :
    AgreeOn p n s.mem (s.enter tss gate vs).mem :=
  pushAll_agree (s := s.setReg .esp (s.mem.read (tss + 4))) small (by rwa [setReg_esp])

/-- The words of the frame. -/
theorem enter_read (small : 4 * vs.length < 2 ^ 32) {i : Nat} (hi : i < vs.length) :
    (s.enter tss gate vs).mem.read (s.mem.read (tss + 4) - BitVec.ofNat 32 (4 * (i + 1))) = vs[i] := by
  have read := pushAll_read (s := s.setReg .esp (s.mem.read (tss + 4))) small hi
  rwa [setReg_esp] at read

end State

end X86
