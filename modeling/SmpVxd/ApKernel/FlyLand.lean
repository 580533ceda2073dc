import SmpVxd.ApKernel.Switch
import SmpVxd.System.Step
import SmpVxd.Transition.Basic

/-!
# `fly` and `land` on a thread that is moved

A thread calls `fly` or `land`, and between any two instructions of the call it may be
moved to an AP or back to the BSP, and other code may write to memory that is not its
own. A move changes the flags of the mask only, as `context_round_trip` says. On an AP
a breakpoint is consumed by `_int3_isr`, which returns the thread to the BSP; on the
BSP `callback_int3` consumes it where `int3Target` says so.
-/

namespace SmpVxd.ApKernel

open X86 Transition

/-- The processors, `none` for the BSP, with what `cpuid` answers on them. -/
structure Processors where
  bspId : Word
  cpuid : Option Nat → Word → CpuidRegs
  bsp_iff : ∀ c, (cpuid c 1).ebx >>> 24 = bspId ↔ c = none

inductive Routine where
  | fly
  | land
  deriving DecidableEq

def Routine.offset : Routine → Word
  | .fly => ApKernel.fly
  | .land => ApKernel.land

/-- A call, with the state at its first instruction. -/
structure Call (ξ : Type) where
  cpus : Processors
  kernel : Word
  routine : Routine
  entry : State ξ
  page : kernel.toNat % 0x1000 = 0
  eip : entry.eip = kernel + routine.offset
  bspId : entry.mem.read (kernel + bspId) = cpus.bspId
  apart : Apart kernel 0x1000 (entry.reg .esp - 32) 36

/-- The thread during the call: the flags of the BSP while it is on an AP, and the
processor on which it has executed `cpuid`. -/
structure Thread (ξ : Type) where
  state : State ξ
  cpu : Option Nat
  saved : Word
  seen : Option (Option Nat)

inductive CallAction where
  /-- The next instruction, which is not a breakpoint. -/
  | exec
  | toAp (n : Nat)
  | toBsp
  /-- Another processor or thread writes a byte. -/
  | others (a : Word) (v : BitVec 8)
  /-- A breakpoint on an AP. -/
  | trap
  /-- A breakpoint on the BSP, with the AP that `switch_to_ap` finds. -/
  | int3 (found : Option Nat)

/-- The actions other than moves and writes of others. -/
def CallAction.Own : CallAction → Prop
  | .exec | .trap | .int3 _ => True
  | _ => False

section Thread

variable {ξ : Type} (c : Call ξ) (t : Thread ξ)

namespace Thread

def instr : Option (Instr × Word) := fetch code (t.state.eip - c.kernel)

/-- The thread is at a breakpoint, followed by the instruction at the offset. -/
def breakpoint : Option Word :=
  match t.instr c with
  | some (.int3, next) => some next
  | _ => none

def goto (eip : Word) : Thread ξ := { t with state := t.state.goto eip }

/-- The thread goes on on a processor. -/
def on (cpu : Option Nat) (flags : Word) : Thread ξ :=
  { t with state := { t.state.setFlags flags with cpuid := c.cpus.cpuid cpu }, cpu := cpu }

def toAp (n : Nat) : Thread ξ :=
  { t.on c (some n) (switchTaskEflags t.state.eflags) with saved := t.state.eflags }

def toBsp : Thread ξ := t.on c none (switchBackEflags t.saved t.state.eflags)

end Thread

def Call.ret : Word := c.entry.mem.read (c.entry.reg .esp)

/-- The call has returned to its caller. -/
def Returned : Prop := t.state.eip = c.ret ∧ t.state.reg .esp = c.entry.reg .esp + 4

instance : Decidable (Returned c t) := inferInstanceAs (Decidable (_ ∧ _))

/-- The registers are those before the call; of the flags, all but the mask. -/
structure Restored : Prop where
  reg : ∀ r, r ≠ .esp → t.state.reg r = c.entry.reg r
  eflags : t.state.eflags &&& ~~~eflagsMask = c.entry.eflags &&& ~~~eflagsMask

/-- The driver consumes a breakpoint on the processor on which it is executed. -/
def Consumed (next : Word) : Prop := t.cpu ≠ none ∨ int3Target c.kernel (c.kernel + next) ≠ .next

/-- The thread is in `land` before its breakpoint, the test has found an AP, and the
thread is back on the BSP. -/
def Stale : Prop :=
  c.routine = .land ∧ (∃ n, t.seen = some (some n)) ∧ t.cpu = none ∧
    t.state.eip ≠ c.kernel + 0x412 ∧ ¬ Returned c t

end Thread

variable {ξ : Type}

/-- One action of the thread or its surroundings, until the call has returned. A
breakpoint that the driver does not consume is left to the next handler. -/
def callStep [ExtUnit ξ] (c : Call ξ) (t : Thread ξ) : CallAction → Option (Thread ξ)
  | a =>
    if Returned c t then none
    else match a with
      | .exec =>
          if t.breakpoint c = none then
            (X86.step c.kernel code t.state).map fun s =>
              { t with
                state := s
                seen := if (t.instr c).any (·.1 = .cpuid) then some t.cpu else t.seen }
          else none
      | .toAp n => if t.cpu = none then some (t.toAp c n) else none
      | .toBsp => if t.cpu = none then none else some (t.toBsp c)
      | .others a v =>
          if 0x1000 ≤ (a - c.kernel).toNat ∧ 36 ≤ (a - (c.entry.reg .esp - 32)).toNat then
            some { t with state := { t.state with mem := t.state.mem.set a v } }
          else none
      | .trap =>
          match t.cpu, t.breakpoint c with
          | some _, some next => some ((t.goto (Trap.eip c.kernel .int3 (c.kernel + next))).toBsp c)
          | _, _ => none
      | .int3 found =>
          match t.cpu, t.breakpoint c with
          | none, some next =>
              match int3Target c.kernel (c.kernel + next), found with
              | .next, _ => none
              | .fly, some n => some ((t.goto (c.kernel + next)).toAp c n)
              | .fly, none | .reattach, _ => some (t.goto (c.kernel + next))
          | _, _ => none

/-- The thread at the call, on some processor. -/
def Call.start (c : Call ξ) (cpu : Option Nat) (saved : Word) : Thread ξ where
  state := { c.entry with cpuid := c.cpus.cpuid cpu }
  cpu := cpu
  saved := saved
  seen := none

/-! ## Views of the call -/

/-- Regions: the kernel page and the part of the stack that the call uses. -/
def callLayout : Layout where
  regions := [(0x70C, 0x1000), (36, 36)]
  facts := []
  volatile := eflagsMask
  ext := 1536

def callView (r : Routine) : View where
  reg
    | .eax => .eq (.var 2)
    | .ecx => .eq (.var 3)
    | .edx => .eq (.var 4)
    | .ebx => .eq (.var 5)
    | .esp => .eq (.op .add (.var 1) (.lit 32))
    | .ebp => .eq (.var 6)
    | .esi => .eq (.var 7)
    | .edi => .eq (.var 8)
  eip := .op .add (.var 0) (.lit r.offset)
  flags := some (.var 9)
  status := .unknown
  up := false
  seg _ := none
  cr3 := .any
  cells := []
  path := []
  count := 0

def callEnv (c : Call ξ) (seen : Option (Option Nat)) : Env where
  var
    | 0 => c.kernel
    | 1 => c.entry.reg .esp - 32
    | 2 => c.entry.reg .eax
    | 3 => c.entry.reg .ecx
    | 4 => c.entry.reg .edx
    | 5 => c.entry.reg .ebx
    | 6 => c.entry.reg .ebp
    | 7 => c.entry.reg .esi
    | 8 => c.entry.reg .edi
    | _ => c.entry.eflags
  mem := c.entry.mem
  seen := seen.toList.map c.cpus.cpuid

/-- The call uses its part of the stack only. -/
def onFrame : Value → Bool
  | .eq (.op .add (.var 1) (.lit k)) => k.toNat ≤ 32
  | _ => false

/-- The branch of `is_bsp` on another processor than the BSP. -/
def testedAp : FlagStatus × Cond × Bool :=
  (.sub (.op .shr (.cpuid 0 1 .ebx) (.lit 24)) (.load 0 bspId), .nz, true)

def callPost (A : View) : Bool :=
  A.eip = .load 1 32 && A.reg .esp = .eq (.op .add (.var 1) (.lit 36)) &&
    A.reg .eax = .eq (.var 2) && A.reg .ecx = .eq (.var 3) && A.reg .edx = .eq (.var 4) &&
    A.reg .ebx = .eq (.var 5) && A.reg .ebp = .eq (.var 6) && A.reg .esi = .eq (.var 7) &&
    A.reg .edi = .eq (.var 8) && A.flags = some (.var 9)

/-- `cpuid` is executed once, and the breakpoints are that of `fly` and, where the test
has found an AP, that of `land`, which a return follows. -/
def callOk (r : Routine) (A : View) (i : Instr) : Bool :=
  onFrame (A.reg .esp) &&
    match i, r with
    | .cpuid, _ => A.count = 0
    | .int3, .fly => A.offset = some 0x334
    | .int3, .land => A.offset = some 0x411 && testedAp ∈ A.path
    | .ret, .land => A.offset ≠ some 0x412 || (A.ret callLayout).any callPost
    | _, _ => true

theorem call_verified (r : Routine) :
    verify callLayout code (callOk r) callPost 60 (callView r) = true := by
  cases r <;> decide +kernel

/-! ## The invariant -/

section Invariant

variable {c : Call ξ} {t u : Thread ξ} {A : View} {n : Nat}

/-- The state is one of a view from which at most `n` instructions are left. -/
def Traced (c : Call ξ) (n : Nat) (t : Thread ξ) : Prop :=
  t.state.cpuid = c.cpus.cpuid t.cpu ∧
    ∃ A, verify callLayout code (callOk c.routine) callPost n A = true ∧
      A.Fits callLayout (callEnv c t.seen) t.state

theorem call_valid (c : Call ξ) (seen : Option (Option Nat)) : callLayout.Valid (callEnv c seen) where
  tracked x := by
    match x with
    | 0 | 1 => decide
    | x + 2 => exact Nat.le_refl 0
  ordered y hy x hx := by
    have two : y < 2 := hy
    interval_cases y <;> interval_cases x
    exact c.apart
  facts _ h := absurd h List.not_mem_nil

theorem traced_start (c : Call ξ) (cpu : Option Nat) (saved : Word) : Traced c 60 (c.start cpu saved) := by
  refine ⟨rfl, callView c.routine, call_verified c.routine, ?_⟩
  exact {
    reg := fun r => by
      cases r with
      | esp => exact congrArg some (BitVec.sub_add_cancel (c.entry.reg .esp) 32)
      | _ => rfl
    eip := congrArg some c.eip.symm
    flags := ⟨_, rfl, rfl⟩
    status := trivial
    up := fun h => by cases h
    seg := fun _ _ h => by cases h
    cr3 := trivial
    mem := fun _ _ => rfl
    path := fun _ h => absurd h List.not_mem_nil
    count := rfl }

theorem instr_eq {seen : Option (Option Nat)} (fits : A.Fits callLayout (callEnv c seen) t.state)
    {k next : Word} {i : Instr} (at_k : A.offset = some k) (fetched : fetch code k = some (i, next)) :
    t.instr c = some (i, next) := by
  have eip : t.state.eip = c.kernel + k := fits.eip_eq at_k
  have offset : t.state.eip - c.kernel = k := by rw [eip]; simp
  simp only [Thread.instr, offset, fetched]

/-- Inside of the listing the call has not returned. -/
theorem not_returned {seen : Option (Option Nat)} (fits : A.Fits callLayout (callEnv c seen) t.state)
    {i : Instr} (ok : callOk c.routine A i = true) : ¬ Returned c t := by
  rintro ⟨-, esp⟩
  simp only [callOk, Bool.and_eq_true] at ok
  have frame := ok.1
  unfold onFrame at frame
  split at frame
  · rename_i k hk
    have value : c.entry.reg .esp - 32 + k = t.state.reg .esp := Option.some.inj (fits.reg_eq hk)
    rw [esp] at value
    have small : k.toNat ≤ 32 := of_decide_eq_true frame
    bv_omega
  · cases frame

/-- Where the listing is left, the call has returned with its registers restored. -/
theorem post_returned {seen : Option (Option Nat)} (fits : A.Fits callLayout (callEnv c seen) t.state)
    (post : callPost A = true) : Returned c t ∧ Restored c t := by
  simp only [callPost, Bool.and_eq_true, decide_eq_true_eq] at post
  obtain ⟨⟨⟨⟨⟨⟨⟨⟨⟨eip, esp⟩, eax⟩, ecx⟩, edx⟩, ebx⟩, ebp⟩, esi⟩, edi⟩, flags⟩ := post
  have eip_eq := fits.eip
  rw [eip] at eip_eq
  have flags_eq := fits.flags
  rw [flags] at flags_eq
  obtain ⟨w, hw, same⟩ := flags_eq
  refine ⟨⟨?_, ?_⟩, ⟨fun r hr => ?_, ?_⟩⟩
  · have ret : c.entry.mem.read (c.entry.reg .esp - 32 + 32) = t.state.eip := Option.some.inj eip_eq
    rw [BitVec.sub_add_cancel] at ret
    exact ret.symm
  · have value : c.entry.reg .esp - 32 + 36 = t.state.reg .esp := Option.some.inj (fits.reg_eq esp)
    rw [← value]
    bv_omega
  · cases r with
    | esp => contradiction
    | eax => exact (Option.some.inj (fits.reg_eq eax)).symm
    | ecx => exact (Option.some.inj (fits.reg_eq ecx)).symm
    | edx => exact (Option.some.inj (fits.reg_eq edx)).symm
    | ebx => exact (Option.some.inj (fits.reg_eq ebx)).symm
    | ebp => exact (Option.some.inj (fits.reg_eq ebp)).symm
    | esi => exact (Option.some.inj (fits.reg_eq esi)).symm
    | edi => exact (Option.some.inj (fits.reg_eq edi)).symm
  · cases Option.some.inj hw
    exact same

/-- A thread in the call has returned, with its registers restored, or is at an
instruction of the listing. -/
theorem Traced.cases (h : Traced c n t) :
    Returned c t ∧ Restored c t ∨
      ¬ Returned c t ∧ ∃ m A k i next, n = m + 1 ∧
        verify callLayout code (callOk c.routine) callPost (m + 1) A = true ∧
        A.Fits callLayout (callEnv c t.seen) t.state ∧ A.offset = some k ∧
        fetch code k = some (i, next) ∧ callOk c.routine A i = true := by
  obtain ⟨-, A, verified, fits⟩ := h
  cases n with
  | zero => cases verified
  | succ m =>
      obtain ⟨-, post⟩ | ⟨k, i, next, at_k, fetched, ok⟩ := verify_at verified
      · exact .inl (post_returned fits post)
      · exact .inr ⟨not_returned fits ok, m, A, k, i, next, rfl, verified, fits, at_k, fetched, ok⟩

/-! ## Moves -/

theorem switchTaskEflags_mask (flags : Word) :
    switchTaskEflags flags &&& ~~~eflagsMask = flags &&& ~~~eflagsMask := by
  unfold switchTaskEflags eflagsMask
  generalize eflagsSet = set
  generalize eflagsClr = clear
  ext i hi
  simp only [BitVec.getElem_and, BitVec.getElem_or, BitVec.getElem_not]
  grind

theorem switchBackEflags_mask (saved flags : Word) :
    switchBackEflags saved flags &&& ~~~eflagsMask = flags &&& ~~~eflagsMask := by
  unfold switchBackEflags
  generalize eflagsMask = mask
  ext i hi
  simp only [BitVec.getElem_and, BitVec.getElem_or, BitVec.getElem_not]
  grind

theorem Traced.on (h : Traced c n t) (cpu : Option Nat) {flags : Word}
    (same : flags &&& ~~~eflagsMask = t.state.eflags &&& ~~~eflagsMask) :
    Traced c n (t.on c cpu flags) := by
  obtain ⟨-, A, verified, fits⟩ := h
  refine ⟨rfl, A, verified, ?_⟩
  exact { fits.changeFlags (by decide) same with }

theorem Traced.toAp (h : Traced c n t) (cpu : Nat) : Traced c n (t.toAp c cpu) :=
  h.on (some cpu) (switchTaskEflags_mask t.state.eflags)

theorem Traced.toBsp (h : Traced c n t) : Traced c n (t.toBsp c) :=
  h.on none (switchBackEflags_mask t.saved t.state.eflags)

/-- Other code writes outside of the kernel page and of the part of the stack. -/
theorem Traced.others (h : Traced c n t) {a : Word} {v : BitVec 8}
    (kernel : 0x1000 ≤ (a - c.kernel).toNat) (frame : 36 ≤ (a - (c.entry.reg .esp - 32)).toNat) :
    Traced c n { t with state := { t.state with mem := t.state.mem.set a v } } := by
  obtain ⟨cpu, A, verified, fits⟩ := h
  refine ⟨cpu, A, verified, { fits with mem := fun d tracked => ?_ }⟩
  have same : (t.state.mem.set a v).read ((callEnv c t.seen).var d.1 + d.2) =
      t.state.mem.read ((callEnv c t.seen).var d.1 + d.2) := by
    obtain ⟨x, k⟩ := d
    have two : x < 2 := tracked.region
    have bound := tracked.2
    interval_cases x
    · have tracked : callLayout.size 0 ≤ 0x1000 := by decide
      exact (Mem.agreeOn_set kernel).read (bound.trans tracked)
    · exact (Mem.agreeOn_set frame).read bound
  rw [same]
  exact fits.mem d tracked

/-! ## Breakpoints -/

/-- At a breakpoint: that of `fly`, or that of `land` where the test has found an AP. -/
def AtBreakpoint (c : Call ξ) (t : Thread ξ) (next : Word) : Prop :=
  (c.routine = .fly ∧ t.state.eip = c.kernel + 0x334 ∧ next = 0x335) ∨
    (c.routine = .land ∧ t.state.eip = c.kernel + 0x411 ∧ next = 0x412 ∧
      ∃ k, t.seen = some (some k))

/-- Where the branch of `is_bsp` was taken, `cpuid` was executed on an AP. -/
theorem tested_seen (seen : Option (Option Nat)) (h : Branched (callEnv c seen) testedAp) :
    ∃ k, seen = some (some k) := by
  obtain ⟨zero, carry, ⟨a, b, ha, hb, hzero, -⟩, taken⟩ := h
  cases seen with
  | none => cases ha
  | some cpu =>
      have id : (c.cpus.cpuid cpu 1).ebx >>> 24 = a := Option.some.inj ha
      have bsp : c.cpus.bspId = b := by
        rw [← c.bspId]
        exact Option.some.inj hb
      cases cpu with
      | some k => exact ⟨k, rfl⟩
      | none =>
          have same := (c.cpus.bsp_iff none).mpr rfl
          rw [id, bsp] at same
          have taken : (!zero) = true := taken
          rw [hzero, same] at taken
          simp at taken

theorem Traced.breakpoint (h : Traced c n t) (inside : ¬ Returned c t) {next : Word}
    (bp : t.breakpoint c = some next) :
    AtBreakpoint c t next ∧ ∃ m, n = m + 1 ∧ Traced c m (t.goto (c.kernel + next)) := by
  obtain ⟨returned, -⟩ | ⟨-, m, A, k, i, next', rfl, verified, fits, at_k, fetched, ok⟩ := h.cases
  · exact absurd returned inside
  · have eip := fits.eip_eq at_k
    have instr := instr_eq fits at_k fetched
    simp only [Thread.breakpoint, instr] at bp
    split at bp
    · rename_i int3
      cases bp
      cases int3
      refine ⟨?_, m, rfl, h.1, A.goto next, verify_int3 verified at_k fetched, fits.goto next⟩
      simp only [callOk, Bool.and_eq_true] at ok
      have site := ok.2
      cases routine : c.routine with
      | fly =>
          rw [routine] at site
          have offset : A.offset = some 0x334 := of_decide_eq_true site
          cases Option.some.inj (at_k.symm.trans offset)
          have target : fetch code 0x334 = some (.int3, 0x335) := by decide
          cases Option.some.inj (fetched.symm.trans target)
          exact .inl ⟨routine, eip, rfl⟩
      | land =>
          rw [routine] at site
          simp only [Bool.and_eq_true, decide_eq_true_eq] at site
          cases Option.some.inj (at_k.symm.trans site.1)
          have target : fetch code 0x411 = some (.int3, 0x412) := by decide
          cases Option.some.inj (fetched.symm.trans target)
          exact .inr ⟨routine, eip, rfl, tested_seen t.seen (fits.path _ site.2)⟩
    · cases bp

/-- The address that `_int3_isr` stores: the breakpoint of `fly` is executed again on the
BSP, that of `land` is not. -/
theorem trap_eip_fly (c : Call ξ) : Trap.eip c.kernel .int3 (c.kernel + 0x335) = c.kernel + 0x334 := by
  have page := c.page
  rw [eip_int3_outside]
  · bv_omega
  · simp only [land, fnBlockSize]
    bv_omega

theorem trap_eip_land (c : Call ξ) : Trap.eip c.kernel .int3 (c.kernel + 0x412) = c.kernel + 0x412 := by
  have page := c.page
  apply eip_int3_inside
  · simp only [land]
    bv_omega
  · simp only [land, fnBlockSize]
    bv_omega

theorem int3Target_fly (c : Call ξ) : int3Target c.kernel (c.kernel + 0x335) = .fly := by
  have page := c.page
  have inside : c.kernel + smpOffsetFly ≤ c.kernel + 0x335 ∧
      c.kernel + 0x335 < c.kernel + smpOffsetFly + smpFnBlockSize := by
    simp only [smpOffsetFly, smpFnBlockSize]
    bv_omega
  exact if_pos inside

theorem int3Target_land (c : Call ξ) : int3Target c.kernel (c.kernel + 0x412) = .next := by
  have page := c.page
  have not_fly : ¬ (c.kernel + smpOffsetFly ≤ c.kernel + 0x412 ∧
      c.kernel + 0x412 < c.kernel + smpOffsetFly + smpFnBlockSize) := by
    simp only [smpOffsetFly, smpFnBlockSize]
    bv_omega
  have not_reattach : ¬ (c.kernel + smpOffsetReattach ≤ c.kernel + 0x412 ∧
      c.kernel + 0x412 < c.kernel + smpOffsetReattach + smpFnBlockSize) := by
    simp only [smpOffsetReattach, smpFnBlockSize]
    bv_omega
  exact (if_neg not_fly).trans (if_neg not_reattach)

/-- Unless its test is stale, the driver consumes the breakpoint of a thread. -/
theorem Traced.consumed (h : Traced c n t) (fresh : ¬ Stale c t) (inside : ¬ Returned c t) {next : Word}
    (bp : t.breakpoint c = some next) : Consumed c t next := by
  obtain ⟨-, -, rfl⟩ | ⟨routine, eip, rfl, seen⟩ := (h.breakpoint inside bp).1
  · right
    rw [int3Target_fly c]
    decide
  · left
    intro on_bsp
    refine fresh ⟨routine, seen, on_bsp, ?_, inside⟩
    rw [eip]
    bv_omega

/-! ## Steps -/

theorem callEnv_after {i : Instr} (here : t.state.cpuid = c.cpus.cpuid t.cpu)
    (first : i = .cpuid → t.seen = none) :
    (callEnv c t.seen).after t.state i =
      callEnv c (if i = .cpuid then some t.cpu else t.seen) := by
  by_cases h : i = .cpuid
  · subst h
    simp only [Env.after, Env.answered, callEnv, first rfl, here, if_true]
    rfl
  · rw [if_neg h]
    cases i <;> first | rfl | contradiction

section Steps

variable [ExtUnit ξ]

/-- An instruction other than a breakpoint. -/
theorem Traced.exec (ext : ExtUnit.size ξ ≤ 1536) (h : Traced c n t) (inside : ¬ Returned c t)
    (plain : t.breakpoint c = none) :
    ∃ m u, n = m + 1 ∧ callStep c t .exec = some u ∧ Traced c m u ∧ u.cpu = t.cpu := by
  obtain ⟨returned, -⟩ | ⟨-, m, A, k, i, next, rfl, verified, fits, at_k, fetched, ok⟩ := h.cases
  · exact absurd returned inside
  · have instr := instr_eq fits at_k fetched
    have ne : i ≠ .int3 := by
      rintro rfl
      simp [Thread.breakpoint, instr] at plain
    have first : i = .cpuid → t.seen = none := by
      rintro rfl
      simp only [callOk, Bool.and_eq_true, decide_eq_true_eq] at ok
      have count := fits.count
      rw [ok.2] at count
      cases seen : t.seen with
      | none => rfl
      | some cpu => simp [callEnv, seen] at count
    obtain ⟨s', stepped, B, hB, fits'⟩ := verify_step (call_valid c t.seen) ext fits verified at_k fetched ne
    have stepped : X86.step c.kernel code t.state = some s' := stepped
    refine ⟨m, { t with state := s', seen := if i = .cpuid then some t.cpu else t.seen }, rfl, ?_, ?_, rfl⟩
    · simp [callStep, inside, plain, stepped, instr]
    · refine ⟨(step_cpuid stepped).trans h.1, B, hB, ?_⟩
      rw [callEnv_after h.1 first] at fits'
      exact fits'

/-- After the breakpoint of `land` the call returns. -/
theorem Traced.exec_ret (h : Traced c n t) (inside : ¬ Returned c t) (routine : c.routine = .land)
    (behind : t.state.eip = c.kernel + 0x412) (step : callStep c t .exec = some u) : Returned c u := by
  obtain ⟨returned, -⟩ | ⟨-, m, A, k, i, next, rfl, -, fits, at_k, fetched, ok⟩ := h.cases
  · exact absurd returned inside
  · have offset : k = 0x412 := by
      have eip := fits.eip_eq at_k
      rw [behind] at eip
      exact (BitVec.add_right_inj c.kernel).mp eip.symm
    subst offset
    have return_here : fetch code 0x412 = some (.ret, 0x413) := by decide
    cases Option.some.inj (fetched.symm.trans return_here)
    have instr := instr_eq fits at_k fetched
    simp only [callOk, Bool.and_eq_true, routine, at_k] at ok
    obtain ⟨B, hB, post⟩ : ∃ B, A.ret callLayout = some B ∧ callPost B = true := by
      simpa [Option.any_eq_true] using ok.2
    have stepped : X86.step c.kernel code t.state = some ((t.state.drop 4).goto (t.state.slot 0)) := by
      have fetched : fetch code (t.state.eip - c.kernel) = some (.ret, 0x413) := instr
      simp only [X86.step, fetched, X86.exec]
    have plain : t.breakpoint c = none := by simp [Thread.breakpoint, instr]
    simp [callStep, inside, plain, stepped, instr] at step
    subst step
    have fits' := fits.ret (call_valid c t.seen) hB
    exact (post_returned (t := { t with state := (t.state.drop 4).goto (t.state.slot 0) }) fits' post).1

theorem Traced.exec_fresh (h : Traced c n t) (inside : ¬ Returned c t) (fresh : ¬ Stale c t)
    (step : callStep c t .exec = some u) (cpu : u.cpu = t.cpu) : ¬ Stale c u := by
  rintro ⟨routine, ⟨k, seen⟩, on_bsp, -, back⟩
  have on_bsp : t.cpu = none := cpu ▸ on_bsp
  have tested : t.seen = some (some k) := by
    simp only [callStep, inside, if_false] at step
    split at step
    · obtain ⟨s', -, rfl⟩ := Option.map_eq_some_iff.mp step
      dsimp only at seen
      split at seen
      · rw [on_bsp] at seen
        cases seen
      · exact seen
    · cases step
  by_cases behind : t.state.eip = c.kernel + 0x412
  · exact back (h.exec_ret inside routine behind step)
  · exact fresh ⟨routine, ⟨k, tested⟩, on_bsp, behind, inside⟩

/-- A breakpoint on an AP: `fly` executes its own again on the BSP, and `land` goes on. -/
theorem Traced.trap (h : Traced c n t) (step : callStep c t .trap = some u) :
    t.cpu ≠ none ∧ u.cpu = none ∧ ¬ Stale c u ∧ ∃ m ≤ n, Traced c m u := by
  simp only [callStep] at step
  split at step
  · cases step
  · rename_i inside
    split at step
    · rename_i k next on_ap bp
      obtain ⟨site, m, rfl, next⟩ := h.breakpoint inside bp
      cases step
      refine ⟨by simp [on_ap], rfl, ?_⟩
      obtain ⟨routine, eip, rfl⟩ | ⟨routine, -, rfl, -⟩ := site
      · rw [trap_eip_fly, ← eip]
        refine ⟨?_, m + 1, Nat.le_refl _, h.toBsp⟩
        rintro ⟨land, -⟩
        rw [show c.routine = .land from land] at routine
        cases routine
      · rw [trap_eip_land]
        refine ⟨?_, m, Nat.le_succ m, next.toBsp⟩
        rintro ⟨-, -, -, elsewhere, -⟩
        exact elsewhere rfl
    · cases step

/-- A breakpoint on the BSP: that of `fly` is the last one. -/
theorem Traced.int3 (h : Traced c n t) {found : Option Nat}
    (step : callStep c t (.int3 found) = some u) :
    t.cpu = none ∧ ¬ Stale c u ∧ ∃ m, n = m + 1 ∧ Traced c m u := by
  simp only [callStep] at step
  split at step
  · cases step
  · rename_i inside
    split at step
    · rename_i on_bsp bp
      obtain ⟨site, m, rfl, next⟩ := h.breakpoint inside bp
      obtain ⟨routine, -, rfl⟩ | ⟨routine, -, rfl, -⟩ := site
      · have fresh (v : Thread ξ) : ¬ Stale c v := by
          rintro ⟨land, -⟩
          rw [routine] at land
          cases land
        simp only [int3Target_fly c] at step
        refine ⟨on_bsp, fresh u, m, rfl, ?_⟩
        cases found with
        | some k =>
            obtain rfl := Option.some.inj step
            exact next.toAp k
        | none =>
            obtain rfl := Option.some.inj step
            exact next
      · simp only [int3Target_land c] at step
        cases step
    · cases step

/-- Every action keeps the call inside of its listing. -/
theorem Traced.step (ext : ExtUnit.size ξ ≤ 1536) (h : Traced c n t) {a : CallAction}
    (step : callStep c t a = some u) : ∃ m ≤ n, Traced c m u := by
  have inside : ¬ Returned c t := by
    intro returned
    simp [callStep, returned] at step
  cases a with
  | exec =>
      have plain : t.breakpoint c = none := by
        by_contra bp
        simp [callStep, inside, bp] at step
      obtain ⟨m, v, rfl, stepped, traced, -⟩ := h.exec ext inside plain
      cases Option.some.inj (step.symm.trans stepped)
      exact ⟨m, Nat.le_succ m, traced⟩
  | toAp k =>
      simp only [callStep, inside, if_false, Option.ite_none_right_eq_some, Option.some.injEq] at step
      exact ⟨n, Nat.le_refl n, step.2 ▸ h.toAp k⟩
  | toBsp =>
      simp only [callStep, inside, if_false, Option.ite_none_left_eq_some, Option.some.injEq] at step
      exact ⟨n, Nat.le_refl n, step.2 ▸ h.toBsp⟩
  | others a v =>
      simp only [callStep, inside, if_false, Option.ite_none_right_eq_some, Option.some.injEq] at step
      exact ⟨n, Nat.le_refl n, step.2 ▸ h.others step.1.1 step.1.2⟩
  | trap =>
      obtain ⟨-, -, -, traced⟩ := h.trap step
      exact traced
  | int3 found =>
      obtain ⟨-, -, m, rfl, traced⟩ := h.int3 step
      exact ⟨m, Nat.le_succ m, traced⟩

/-- The instructions that are left; a breakpoint of `fly` on an AP is executed twice. -/
def Left (c : Call ξ) (l : Nat) (t : Thread ξ) : Prop :=
  ∃ n, l = 2 * n + (if t.cpu = none then 0 else 1) ∧ Traced c n t ∧ ¬ Stale c t

/-- Until the call has returned the thread can go on, and then fewer instructions are left. -/
theorem Left.progress (ext : ExtUnit.size ξ ≤ 1536) (l : Nat) (t : Thread ξ) (h : Left c l t) :
    Returned c t ∨ (∃ a u, CallAction.Own a ∧ graph (callStep c) t a u) ∧
      ∀ a u, CallAction.Own a → graph (callStep c) t a u → ∃ m < l, Left c m u := by
  obtain ⟨n, rfl, traced, fresh⟩ := h
  by_cases inside : Returned c t
  · exact .inl inside
  refine .inr ⟨?_, fun a u own step => ?_⟩
  · cases bp : t.breakpoint c with
    | none =>
        obtain ⟨-, u, -, stepped, -⟩ := traced.exec ext inside bp
        exact ⟨.exec, u, trivial, stepped⟩
    | some next =>
        cases cpu : t.cpu with
        | some k => exact ⟨.trap, _, trivial, by simp [graph, callStep, inside, cpu, bp]; rfl⟩
        | none =>
            have consumed := traced.consumed fresh inside bp
            obtain ⟨-, -, rfl⟩ | ⟨-, -, rfl, -⟩ := (traced.breakpoint inside bp).1
            · refine ⟨.int3 none, t.goto (c.kernel + 0x335), trivial, ?_⟩
              simp only [graph, callStep, inside, cpu, bp, if_false]
              simp only [int3Target_fly c]
            · obtain away | target := consumed
              · exact absurd cpu away
              · exact absurd (int3Target_land c) target
  · cases a with
    | exec =>
        have plain : t.breakpoint c = none := by
          by_contra bp
          simp [graph, callStep, inside, bp] at step
        obtain ⟨m, v, rfl, stepped, traced', cpu⟩ := traced.exec ext inside plain
        cases Option.some.inj (step.symm.trans stepped)
        exact ⟨_, by rw [cpu]; omega, m, rfl, traced', traced.exec_fresh inside fresh step cpu⟩
    | trap =>
        obtain ⟨on_ap, on_bsp, fresh', m, le, traced'⟩ := traced.trap step
        exact ⟨_, by simp [on_ap, on_bsp]; omega, m, rfl, traced', fresh'⟩
    | int3 found =>
        obtain ⟨on_bsp, fresh', m, rfl, traced'⟩ := traced.int3 step
        exact ⟨_, by simp [on_bsp]; split <;> omega, m, rfl, traced', fresh'⟩
    | toAp | toBsp | others => cases own

end Steps

end Invariant

/-! ## The calls -/

/-- However the thread is moved during a call of `fly` or `land`: where the call has
returned, the registers are restored, and the flags outside of the mask. Unless the
thread is back on the BSP with the test of `land` made on an AP, a breakpoint is
consumed on the processor where it is executed, and the call returns however the
thread goes on. -/
theorem fly_land_moved [ExtUnit ξ] (ext : ExtUnit.size ξ ≤ 1536) (c : Call ξ)
    (cpu : Option Nat) (saved : Word) {as : List CallAction} {t : Thread ξ}
    (run : Run (graph (callStep c)) (c.start cpu saved) as t) :
    (Returned c t → Restored c t) ∧
      (¬ Stale c t →
        (∀ next, ¬ Returned c t → t.breakpoint c = some next → Consumed c t next) ∧
        Inevitable (graph (callStep c)) CallAction.Own (Returned c) t) := by
  obtain ⟨n, traced⟩ : ∃ n, Traced c n t :=
    run.invariant (P := fun t => ∃ n, Traced c n t)
      (fun _ _ _ before step => by
        obtain ⟨_, h⟩ := before
        obtain ⟨m, -, traced⟩ := h.step ext step
        exact ⟨m, traced⟩)
      ⟨60, traced_start c cpu saved⟩
  refine ⟨fun returned => ?_, fun fresh => ⟨fun next inside bp => traced.consumed fresh inside bp, ?_⟩⟩
  · obtain ⟨-, restored⟩ | ⟨inside, -⟩ := traced.cases
    · exact restored
    · exact absurd returned inside
  · exact inevitable_of_rank (P := Left c) (Left.progress ext) ⟨n, rfl, traced, fresh⟩

/-- The BSP has identifier 0 and the APs have 1. -/
def firstProcessors : Processors where
  bspId := 0
  cpuid cpu _ := ⟨0, if cpu = none then 0 else 0x01000000, 0, 0⟩
  bsp_iff cpu := by cases cpu <;> simp

def firstLand : Call ExtImage where
  cpus := firstProcessors
  kernel := 0xC0100000
  routine := .land
  entry := {
    reg := fun r => if r = .esp then 0x00120000 else 7
    eip := 0xC0100400
    eflags := 0x246
    seg := fun _ => 0x1B
    cr3 := 0
    mem := emptyMem.write 0x00120000 0x00401234
    ext := fun _ => 0
    cpuid := fun _ => ⟨0, 0, 0, 0⟩ }
  page := by decide
  eip := rfl
  bspId := by decide +kernel
  apart := ⟨by decide +kernel, by decide +kernel⟩

/-- A thread on an AP lands: the call returns on the BSP with its registers. -/
theorem fly_land_moved_land : ∃ as t, Run (graph (callStep firstLand)) (firstLand.start (some 0) 0x246) as t ∧
    t.cpu = none ∧ Returned firstLand t ∧ Restored firstLand t := by
  have computed : (exec (callStep firstLand) (firstLand.start (some 0) 0x246)
      (List.replicate 26 .exec ++ [.trap, .exec])).any
        (fun t => t.cpu = none && Returned firstLand t) = true := by decide +kernel
  obtain ⟨t, run, reached⟩ := exists_run computed
  simp only [Bool.and_eq_true, decide_eq_true_eq] at reached
  have restored := (fly_land_moved (by decide) firstLand (some 0) 0x246 run).1 reached.2
  exact ⟨_, t, run, reached.1, reached.2, restored⟩

def firstFly : Call ExtImage where
  cpus := firstProcessors
  kernel := 0xC0100000
  routine := .fly
  entry := {
    reg := fun r => if r = .esp then 0x00120000 else 7
    eip := 0xC0100300
    eflags := 0x246
    seg := fun _ => 0x1B
    cr3 := 0
    -- the return address, `gdata`, a record with an idle procedure, and one free AP
    mem := ((((emptyMem.write 0x00120000 0x00401234).write 0xC0100708 0xC0200000).write 0xC0200000
      0xC0201000).write 0xC0200004 1).write 0xC0201010 0x00402000
    ext := fun _ => 0
    cpuid := fun _ => ⟨0, 0, 0, 0⟩ }
  page := by decide
  eip := rfl
  bspId := by decide +kernel
  apart := ⟨by decide +kernel, by decide +kernel⟩

/-- A thread flies with IOPL 0, and the call returns on the AP with IOPL 3. -/
theorem fly_land_moved_flags : ∃ as t, Run (graph (callStep firstFly)) (firstFly.start none 0) as t ∧
    Returned firstFly t ∧ t.state.eflags ≠ firstFly.entry.eflags := by
  have computed : (exec (callStep firstFly) (firstFly.start none 0)
      (List.replicate 40 .exec ++ [.int3 (some 1), .exec])).any
        (fun t => decide (Returned firstFly t) && t.state.eflags = 0x3246) = true := by decide +kernel
  obtain ⟨t, run, reached⟩ := exists_run computed
  simp only [Bool.and_eq_true, decide_eq_true_eq] at reached
  refine ⟨_, t, run, reached.1, ?_⟩
  rw [reached.2]
  decide

end SmpVxd.ApKernel
