import SmpVxd.X86.Fill
import Mathlib.Tactic.IntervalCases

/-!
# Two times memset

The C function of the driver and the assembly function of the library spread the low byte of
their argument over a word, fill by words, and then fill what is left by bytes.
-/

namespace SmpVxd.Memset

open X86 X86.Block

/-! ## vxd_lib.c -/

/-- The first loop, with `i` from its current value. -/
def dwordLoop (dst par : Word) : Nat → Nat → Mem → Mem
  | 0, _, m => m
  | n + 1, i, m => dwordLoop dst par n (i + 1) (m.write (dst + .ofNat 32 (4 * i)) par)

/-- The second loop. -/
def byteLoop (dst : Word) (c : BitVec 8) : Nat → Nat → Mem → Mem
  | 0, _, m => m
  | n + 1, i, m => byteLoop dst c n (i + 1) (m.set (dst + .ofNat 32 i) c)

def memset (m : Mem) (dst c size : Word) : Mem :=
  let c := c &&& 0xFF
  let par := c <<< 24 ||| c <<< 16 ||| c <<< 8 ||| c
  let dwCount := size >>> 2
  let dwSize := size &&& 0xFFFFFFFC
  byteLoop dst (c.setWidth 8) (size.toNat - dwSize.toNat) dwSize.toNat
    (dwordLoop dst par dwCount.toNat 0 m)

/-! ## copy.asm -/

/-- Arguments are read through ESP, two words below the return address. -/
def arg (r : Reg) (disp : Word) : Item Empty Empty Empty := .op (.core (.mov (.reg r) (.mem .esp disp)))

def fastMemset : List (Item Empty Empty Empty) :=
  [.pushfd, .push .edi, .cld,
    arg .eax 16,
    .op (.movHigh .eax .eax), .mov .ecx .eax,
    .op (.bswap .eax), .op (.movHalf .eax .ecx),
    arg .edi 12, arg .ecx 20,
    .op (.core (.alu .shr (.reg .ecx) (.imm 2))), .op .repStosd,
    arg .ecx 20,
    .op (.core (.alu .and (.reg .ecx) (.imm 3))), .op .repStosb,
    arg .eax 12,
    .pop .edi, .popfd, .ret]

variable {m : Mem} {dst c size par : Word} {v : BitVec 8} {n k i : Nat}

/-! ## The pattern -/

theorem getLsbD_spread {j : Nat} (quarter : j < 4) (lt : i < 8) :
    (spread v).getLsbD (8 * j + i) = v.getLsbD i := by
  have bit := congrArg (fun b => b.getLsbD i) (extract_spread (v := v) quarter)
  rw [BitVec.getLsbD_extractLsb', decide_eq_true lt, Bool.true_and] at bit
  exact bit

theorem eq_spread {w : Word} (bytes : ∀ j < 4, ∀ i < 8, w.getLsbD (8 * j + i) = v.getLsbD i) :
    w = spread v := by
  apply BitVec.eq_of_getLsbD_eq
  intro i lt
  have quarter : i / 8 < 4 := by omega
  have low : i % 8 < 8 := by omega
  have bit := (bytes (i / 8) quarter (i % 8) low).trans (getLsbD_spread quarter low).symm
  rwa [Nat.div_add_mod] at bit

theorem par_eq (c : Word) :
    (c &&& 0xFF) <<< 24 ||| (c &&& 0xFF) <<< 16 ||| (c &&& 0xFF) <<< 8 ||| (c &&& 0xFF) =
      spread (c.setWidth 8) := by
  apply eq_spread
  intro j quarter i lt
  interval_cases j <;> interval_cases i <;> simp

theorem getLsbD_byteSwap {w : Word} {j : Nat} (quarter : j < 4) (lt : i < 8) :
    (byteSwap w).getLsbD (8 * j + i) = w.getLsbD (8 * (3 - j) + i) := by
  rw [byteSwap]
  simp only [BitVec.getLsbD_append, BitVec.getLsbD_extractLsb']
  interval_cases j <;> interval_cases i <;> rfl

theorem pattern_eq (w : Word) :
    withHalf (byteSwap (withHigh w (w.setWidth 8))) ((withHigh w (w.setWidth 8)).setWidth 16) =
      spread (w.setWidth 8) := by
  apply eq_spread
  intro j quarter i lt
  rw [withHalf, BitVec.getLsbD_or, BitVec.getLsbD_and, getLsbD_byteSwap quarter lt]
  interval_cases j <;> interval_cases i <;> simp [withHigh]

/-! ## The loops of the C function -/

theorem dwordLoop_eq (fits : 4 * (i + n) ≤ 2 ^ 32) :
    dwordLoop dst (spread v) n i (m.fill dst (4 * i) v) = m.fill dst (4 * (i + n)) v := by
  induction n generalizing i with
  | zero => rfl
  | succ n ih =>
      have stored : (m.fill dst (4 * i) v).write (dst + .ofNat 32 (4 * i)) (spread v) =
          m.fill dst (4 * (i + 1)) v := by
        rw [Mem.write_spread, Mem.fill_fill (by omega)]
        rfl
      rw [dwordLoop, stored, ih (by omega), Nat.add_right_comm]
      rfl

theorem byteLoop_eq (fits : i + n ≤ 2 ^ 32) :
    byteLoop dst v n i (m.fill dst i v) = m.fill dst (i + n) v := by
  induction n generalizing i with
  | zero => rfl
  | succ n ih =>
      have stored : (m.fill dst i v).set (dst + .ofNat 32 i) v = m.fill dst (i + 1) v := by
        rw [Mem.set_eq_fill, Mem.fill_fill (by omega)]
      rw [byteLoop, stored, ih (by omega), Nat.add_right_comm]
      rfl

theorem toNat_quarter (size : Word) : (size >>> 2).toNat = size.toNat / 4 := by
  rw [BitVec.toNat_ushiftRight, Nat.shiftRight_eq_div_pow]

theorem toNat_words (size : Word) : (size &&& 0xFFFFFFFC).toNat = 4 * (size.toNat / 4) := by
  have words : size &&& (0xFFFFFFFC : Word) = (size >>> 2) <<< 2 := by
    apply BitVec.eq_of_getLsbD_eq
    intro i lt
    interval_cases i <;> simp
  have bound := size.isLt
  rw [words, BitVec.toNat_shiftLeft, toNat_quarter, Nat.shiftLeft_eq]
  omega

theorem toNat_tail (size : Word) : (size &&& 3).toNat = size.toNat % 4 := by
  rw [BitVec.toNat_and]
  exact Nat.and_two_pow_sub_one_eq_mod size.toNat 2

theorem memset_eq (m : Mem) (dst c size : Word) :
    memset m dst c size = m.fill dst size.toNat (c.setWidth 8) := by
  have bound := size.isLt
  have low : (c &&& 0xFF).setWidth 8 = c.setWidth 8 := by
    apply BitVec.eq_of_getLsbD_eq
    intro i lt
    interval_cases i <;> simp
  have words := @dwordLoop_eq m dst (c.setWidth 8) (size.toNat / 4) 0 (by omega)
  rw [Nat.zero_add, Mem.fill_zero] at words
  rw [memset, par_eq, low, toNat_quarter, toNat_words, words, byteLoop_eq (by omega)]
  congr 1
  omega

/-! ## The assembly function -/

section

variable {ξ : Type} [ExtUnit ξ] {b : Block.State ξ Empty} {s u : X86.State ξ}
variable (code : List (Item Empty Empty Empty))

def services (f : Empty) (_ : X86.State ξ) : X86.State ξ := f.elim

/-- None of the bytes to be filled is in the two words that are pushed, the return address
or the arguments. -/
def ApartFromCall (s : X86.State ξ) (dst size : Word) : Prop :=
  ∀ i < size.toNat, 24 ≤ (dst + .ofNat 32 i - (s.reg .esp - 8)).toNat

/-- Between the pushes and the pops of the call that began with `s`: these words are on
the stack, and the string instructions go upwards. -/
structure Inside (s : X86.State ξ) (words : List Word) (u : X86.State ξ) : Prop where
  esp : u.reg .esp = s.reg .esp - 8
  stack : Stack words u
  flags : SameControl s.eflags u.eflags
  clear : directionFlag u.eflags = false

variable {words : List Word}

theorem run_pushes (stack : Stack words b.cpu) (small : words.length ≤ 4) : ∃ b',
    runItems services (.pushfd :: .push .edi ::
        .cld :: code) none b = runItems services code none b' ∧
      Inside b.cpu (b.cpu.reg .edi :: b.cpu.eflags :: words) b'.cpu ∧
      ∀ a, 8 ≤ (a - (b.cpu.reg .esp - 8)).toNat → b'.cpu.mem a = b.cpu.mem a := by
  have stack₁ : Stack (b.cpu.eflags :: words) (b.cpu.push b.cpu.eflags) := stack.push (by omega)
  have stack₂ : Stack (b.cpu.reg .edi :: b.cpu.eflags :: words)
      ((b.cpu.push b.cpu.eflags).push (b.cpu.reg .edi)) := by
    apply stack₁.push
    rw [List.length_cons]
    omega
  have esp : ((b.cpu.push b.cpu.eflags).push (b.cpu.reg .edi)).reg .esp = b.cpu.reg .esp - 8 := by
    rw [State.push_esp, State.push_esp, BitVec.sub_sub]
    rfl
  refine ⟨_, rfl, ⟨esp, stack₂.congr rfl rfl, SameControl.cld, ?_⟩, fun a outside => ?_⟩
  · change (b.cpu.eflags &&& ~~~0x400).getLsbD 10 = false
    rw [BitVec.getLsbD_and]
    exact Bool.and_false _
  · change ((b.cpu.mem.write (b.cpu.reg .esp - 4) b.cpu.eflags).write
      ((b.cpu.push b.cpu.eflags).reg .esp - 4) (b.cpu.reg .edi)) a = _
    rw [State.push_esp, Mem.write_apply (by bv_omega), Mem.write_apply (by bv_omega)]

theorem run_alu (inside : Inside s words b.cpu) (o : Alu) {r : Reg} (other : r ≠ .esp) (v : Word) :
    ∃ b', runItems services (.op (.core (.alu o (.reg r) (.imm v))) :: code) none b =
        runItems services code none b' ∧
      Inside s words b'.cpu ∧ b'.cpu.mem = b.cpu.mem ∧
      (∀ r', r' ≠ r → b'.cpu.reg r' = b.cpu.reg r') ∧
      b'.cpu.reg r = o.apply (b.cpu.reg r) v := by
  have esp : (b.cpu.setReg r (o.apply (b.cpu.reg r) v)).reg .esp = b.cpu.reg .esp :=
    setReg_other (Ne.symm other)
  refine ⟨_, rfl, ⟨esp.trans inside.esp, inside.stack.congr esp rfl, ?_, ?_⟩, rfl, ?_, setReg_self⟩
  · exact inside.flags.trans (SameControl.flags o _ v)
  · exact directionFlag_flags.trans inside.clear
  · intro r' other
    exact setReg_other other

/-- The arguments are taken and the low byte of the second one is spread. -/
theorem run_args {edi flags ret dst c size : Word}
    (inside : Inside s [edi, flags, ret, dst, c, size] b.cpu) : ∃ b',
    runItems services (arg .eax 16 :: .op (.movHigh .eax .eax) ::
        .mov .ecx .eax :: .op (.bswap .eax) :: .op (.movHalf .eax .ecx) ::
        arg .edi 12 :: arg .ecx 20 :: code) none b = runItems services code none b' ∧
      Inside s [edi, flags, ret, dst, c, size] b'.cpu ∧ b'.cpu.mem = b.cpu.mem ∧
      b'.cpu.reg .eax = spread (c.setWidth 8) ∧ b'.cpu.reg .edi = dst ∧ b'.cpu.reg .ecx = size := by
  have c_eq : b.cpu.slot 16 = c := inside.stack 4 c rfl
  refine ⟨_, rfl, ⟨inside.esp, inside.stack.congr rfl rfl, inside.flags, inside.clear⟩, rfl, ?_,
    inside.stack 3 dst rfl, inside.stack 5 size rfl⟩
  rw [← c_eq]
  exact pattern_eq _

theorem run_size {edi flags ret dst c size : Word}
    (inside : Inside s [edi, flags, ret, dst, c, size] b.cpu) : ∃ b',
    runItems services (arg .ecx 20 :: code) none b = runItems services code none b' ∧
      Inside s [edi, flags, ret, dst, c, size] b'.cpu ∧ b'.cpu.mem = b.cpu.mem ∧
      (∀ r, r ≠ .ecx → b'.cpu.reg r = b.cpu.reg r) ∧ b'.cpu.reg .ecx = size := by
  refine ⟨_, rfl, ⟨inside.esp, inside.stack.congr rfl rfl, inside.flags, inside.clear⟩, rfl, ?_,
    inside.stack 5 size rfl⟩
  intro r other
  exact setReg_other other

theorem run_stosd (b : Block.State ξ Empty) :
    runItems services (.op .repStosd :: code) none b =
      runItems services code none (b.setCpu (fillWords b.cpu (b.cpu.reg .ecx).toNat)) := run_op rfl

theorem run_stosb (b : Block.State ξ Empty) :
    runItems services (.op .repStosb :: code) none b =
      runItems services code none (b.setCpu (fillBytes b.cpu (b.cpu.reg .ecx).toNat)) := run_op rfl

omit [ExtUnit ξ] in
/-- The string instructions leave the frame alone. -/
theorem Inside.filled {n : Nat} {v : BitVec 8} {w : X86.State ξ} (inside : Inside s words u)
    (fill : Filled n v u w) (small : words.length ≤ 6)
    (apart : ∀ i < n, 4 * words.length ≤ (u.reg .edi + .ofNat 32 i - (s.reg .esp - 8)).toNat) :
    Inside s words w where
  esp := (fill.reg .esp (by decide) (by decide)).trans inside.esp
  stack := by
    apply inside.stack.agree (fill.reg .esp (by decide) (by decide)) _ (by omega)
    rw [fill.mem, inside.esp]
    exact Mem.agreeOn_fill apart
  flags := by rw [fill.eflags]; exact inside.flags
  clear := by rw [fill.eflags]; exact inside.clear

theorem run_pops {edi ret dst : Word}
    (inside : Inside s (edi :: s.eflags :: ret :: dst :: words) b.cpu) :
    ∃ b', runItems services [arg .eax 12, .pop .edi, .popfd,
        .ret] none b = some b' ∧
      b'.cpu.mem = b.cpu.mem ∧ b'.cpu.reg .eax = dst ∧ b'.cpu.reg .edi = edi ∧
      b'.cpu.eflags = s.eflags &&& ~~~0x10000 ∧ b'.cpu.reg .esp = s.reg .esp + 4 ∧
      b'.cpu.eip = ret := by
  have stack₁ := inside.stack.drop
  have stack₂ := stack₁.drop
  refine ⟨_, rfl, rfl, inside.stack 3 dst rfl, inside.stack.top, ?_, ?_, stack₂.top⟩
  · have image : (b.cpu.drop 4).slot 0 = s.eflags := stack₁.top
    have restored := @inside.flags.popfd _ _ b.cpu.cpl
    rw [← image] at restored ⊢
    exact restored
  · have esp : b.cpu.reg .esp + 4 + 4 + 4 = s.reg .esp + 4 := by
      rw [inside.esp]
      bv_omega
    exact esp

theorem fastMemset_run {ret dst c size : Word} (call : Stack [ret, dst, c, size] b.cpu)
    (apart : ApartFromCall b.cpu dst size) :
    ∃ b', runItems services fastMemset none b = some b' ∧
      (∀ a, 8 ≤ (a - (b.cpu.reg .esp - 8)).toNat →
        b'.cpu.mem a = b.cpu.mem.fill dst size.toNat (c.setWidth 8) a) ∧
      b'.cpu.reg .eax = dst ∧ b'.cpu.reg .edi = b.cpu.reg .edi ∧
      b'.cpu.eflags = b.cpu.eflags &&& ~~~0x10000 ∧
      b'.cpu.reg .esp = b.cpu.reg .esp + 4 ∧ b'.cpu.eip = ret := by
  have bound := size.isLt
  obtain ⟨b₁, run₁, inside₁, mem₁⟩ :=
    run_pushes (fastMemset.drop 3) call (Nat.le_refl 4)
  obtain ⟨b₂, run₂, inside₂, mem₂, eax₂, edi₂, ecx₂⟩ := run_args (fastMemset.drop 10) inside₁
  obtain ⟨b₃, run₃, inside₃, mem₃, reg₃, ecx₃⟩ :=
    run_alu (r := .ecx) (fastMemset.drop 11) inside₂ .shr (by decide) 2
  have count₃ : (b₃.cpu.reg .ecx).toNat = size.toNat / 4 := by
    rw [ecx₃, ecx₂]
    exact toNat_quarter size
  have eax₃ := (reg₃ .eax (by decide)).trans eax₂
  have edi₃ := (reg₃ .edi (by decide)).trans edi₂
  let b₄ := b₃.setCpu (fillWords b₃.cpu (b₃.cpu.reg .ecx).toNat)
  have fill₄ : Filled (4 * (size.toNat / 4)) (c.setWidth 8) b₃.cpu b₄.cpu := by
    rw [← count₃]
    exact fillWords_filled inside₃.clear eax₃ (by omega)
  have inside₄ := inside₃.filled fill₄ (Nat.le_refl 6) fun i lt => by
    rw [edi₃]
    exact apart i (by omega)
  obtain ⟨b₅, run₅, inside₅, mem₅, reg₅, ecx₅⟩ := run_size (fastMemset.drop 13) inside₄
  obtain ⟨b₆, run₆, inside₆, mem₆, reg₆, ecx₆⟩ :=
    run_alu (r := .ecx) (fastMemset.drop 14) inside₅ .and (by decide) 3
  have count₆ : (b₆.cpu.reg .ecx).toNat = size.toNat % 4 := by
    rw [ecx₆, ecx₅]
    exact toNat_tail size
  have edi₆ : b₆.cpu.reg .edi = dst + .ofNat 32 (4 * (size.toNat / 4)) := by
    rw [reg₆ .edi (by decide), reg₅ .edi (by decide), fill₄.edi, edi₃]
  have eax₆ : (b₆.cpu.reg .eax).setWidth 8 = c.setWidth 8 := by
    rw [reg₆ .eax (by decide), reg₅ .eax (by decide), fill₄.reg .eax (by decide) (by decide), eax₃]
    exact setWidth_spread
  let b₇ := b₆.setCpu (fillBytes b₆.cpu (b₆.cpu.reg .ecx).toNat)
  have fill₇ : Filled (size.toNat % 4) (c.setWidth 8) b₆.cpu b₇.cpu := by
    rw [← count₆]
    exact fillBytes_filled inside₆.clear eax₆ (by omega)
  have inside₇ := inside₆.filled fill₇ (Nat.le_refl 6) fun i lt => by
    rw [edi₆, BitVec.add_assoc, ← BitVec.ofNat_add]
    exact apart _ (by omega)
  obtain ⟨b₈, run₈, mem₈, eax₈, edi₈, flags₈, esp₈, eip₈⟩ := run_pops inside₇
  refine ⟨b₈, ?_, fun a outside => ?_, eax₈, edi₈, flags₈, esp₈, eip₈⟩
  · have words := run_stosd (fastMemset.drop 12) b₃
    have bytes := run_stosb (fastMemset.drop 15) b₆
    exact run₁.trans (run₂.trans (run₃.trans (words.trans (run₅.trans (run₆.trans
      (bytes.trans run₈))))))
  · have filled : b₈.cpu.mem = b₁.cpu.mem.fill dst size.toNat (c.setWidth 8) := by
      rw [mem₈, fill₇.mem, edi₆, mem₆, mem₅, fill₄.mem, edi₃, mem₃, mem₂, Mem.fill_fill (by omega),
        Nat.div_add_mod]
    rw [filled]
    exact Mem.fill_congr (mem₁ a outside)

/-- Both functions set the bytes of the region to the low byte of their argument and change no
other byte; the words that the assembly function pushes are its own. It returns the
destination and leaves EDI and the flags as they were, where RF is clear after every
instruction. -/
theorem memset_fills :
    (∀ (m : Mem) (dst c size a : Word),
      memset m dst c size a = if (a - dst).toNat < size.toNat then c.setWidth 8 else m a) ∧
    ∀ (b : Block.State ξ Empty) (ret dst c size : Word),
      Stack [ret, dst, c, size] b.cpu → ApartFromCall b.cpu dst size →
      ∃ b', runItems services fastMemset none b = some b' ∧
        (∀ a, 8 ≤ (a - (b.cpu.reg .esp - 8)).toNat →
          b'.cpu.mem a = if (a - dst).toNat < size.toNat then c.setWidth 8 else b.cpu.mem a) ∧
        b'.cpu.reg .eax = dst ∧ b'.cpu.reg .edi = b.cpu.reg .edi ∧
        b'.cpu.eflags = b.cpu.eflags &&& ~~~0x10000 ∧
        b'.cpu.reg .esp = b.cpu.reg .esp + 4 ∧ b'.cpu.eip = ret := by
  refine ⟨fun m dst c size a => ?_, fun b ret dst c size call apart => fastMemset_run call apart⟩
  rw [memset_eq, Mem.fill]

end

/-- Seven bytes at 0x2000, to be filled with 0x1FF. -/
def sevenBytes : Block.State Unit Empty where
  cpu :=
    { blank with
      reg := fun r => if r = .esp then 0x1000 else 0x77
      mem := (((Mem.write (fun _ => 0) 0x1000 0x42).write 0x1004 0x2000).write 0x1008 0x1FF).write
        0x100C 7 }
  var := fun f => f.elim
  msr := fun _ => 0

theorem memset_fills_seven : ∃ b', runItems services fastMemset none sevenBytes = some b' ∧
    b'.cpu.mem 0x2006 = 0xFF ∧ b'.cpu.mem 0x2007 = 0 ∧ b'.cpu.reg .edi = 0x77 := by
  have call : Stack [0x42, 0x2000, 0x1FF, 7] sevenBytes.cpu := stack_iff.2 (by decide)
  have apart : ApartFromCall sevenBytes.cpu 0x2000 7 := by
    change ∀ i < 7, _
    decide
  obtain ⟨b', ran, mem, -, edi, -⟩ := memset_fills.2 sevenBytes 0x42 0x2000 0x1FF 7 call apart
  have last : b'.cpu.mem 0x2006 = 0xFF := mem 0x2006 (by decide)
  have next : b'.cpu.mem 0x2007 = 0 := mem 0x2007 (by decide)
  exact ⟨b', ran, last, next, edi⟩

end SmpVxd.Memset
