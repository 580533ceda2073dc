import SmpVxd.ApKernel.Boot
import SmpVxd.Startup.Safety
import SmpVxd.Transition.Basic
import SmpVxd.X86.Frame

/-!
# The loop of the AP kernel

From `goentry` on an AP calls its idle function, dispatches a thread when the function
asks for it, and comes back to `goentry` at a trap of the thread. The loop is a relation
between the points at which it leaves the code of the kernel page; between them the
instructions of the listing are executed one by one. `_kernel_boot` before it is one function.
-/

namespace SmpVxd.ApKernel

open X86 Transition

/-! ## Code -/

/-- The address after the call of the idle function. -/
def idleDone : Word := 0x9C
def skipSt : Word := 0xA5

/-- The loop, after the call of the idle function. -/
def loopCode : Listing :=
  [(idleDone, .test (.reg .eax) (.reg .eax)),
   (0x9E, .jcc .z skipSt),
   (0xA0, .call switchtask),
   -- restore regs from stack
   (skipSt, .mov (.reg .edx) (.mem .esp 4)),
   (0xA9, .jmp goentry)]

def kernelCode : Listing := loopCode ++ code

section Steps

variable {ξ : Type} (a : Pages)

/-- In the kernel, before the call of the idle function. -/
def Pages.inKernel (s : State ξ) : Bool := s.cpl = 0 && s.eip ≠ a.kernel + goentry

/-- What the loop relies on is the same. -/
structure Pages.Quiet (m m' : Mem) : Prop where
  kernel : AgreeOn a.kernel 0x1000 m m'
  ttable : AgreeOn a.ttable 0x1000 m m'
  entry : AgreeOn (a.data + tdataEntry) 4 m m'
  init : AgreeOn (a.data + tdataInitState) 128 m m'
  tss : AgreeOn (a.data + tdataProcTss) 12 m m'
  /-- The argument of the idle function and the word above it. -/
  words : AgreeOn a.loopEsp 8 m m'

/-- `call dword [edx]` -/
def callIdle (s : State ξ) : State ξ := (s.push (a.kernel + idleDone)).goto (s.mem.read (s.reg .edx))

/-- The idle function has returned. Meanwhile it and the other processors have changed
registers and memory, but nothing that the loop relies on. -/
structure IdleDone (s u : State ξ) : Prop where
  eip : u.eip = s.slot 0
  esp : u.reg .esp = s.reg .esp + 4
  ring : u.seg .cs = s.seg .cs
  cpuid : u.cpuid = s.cpuid
  quiet : a.Quiet s.mem u.mem

/-- A thread has run in ring 3, and so have the other processors. -/
structure ThreadRan (s u : State ξ) : Prop where
  cpl : u.cpl = 3
  cpuid : u.cpuid = s.cpuid
  quiet : a.Quiet s.mem u.mem

inductive Phase where
  | goentry
  | idle
  | ring3
  deriving DecidableEq

inductive LoopAction where
  | call
  | done
  | thread
  | trap (trap : Trap) (error : Word)

/-- Where the processor is when it has left the code. -/
def left (s : State ξ) : Phase × State ξ := (if s.cpl = 0 then .goentry else .ring3, s)

inductive LoopStep [ExtUnit ξ] : Phase × State ξ → LoopAction → Phase × State ξ → Prop where
  | call (s : State ξ) : LoopStep (.goentry, s) .call (.idle, callIdle a s)
  | done {s u t : State ξ} {n : Nat} (returned : IdleDone a s u)
      (ran : runInside a.kernel kernelCode a.inKernel n u = some t) : LoopStep (.idle, s) .done (left t)
  | thread {s t : State ξ} (ran : ThreadRan a s t) : LoopStep (.ring3, s) .thread (.ring3, t)
  | trap {s t : State ξ} {n : Nat} (trap : Trap) (error : Word)
      (ran : runInside a.kernel kernelCode a.inKernel n (enterIsr a trap error s) = some t) :
      LoopStep (.ring3, s) (.trap trap error) (left t)

end Steps

variable {ξ : Type} {a : Pages} {main : Word} {s t u : State ξ} {m m' : Mem} {p v : Word} {n : Nat}

/-! ## What stays -/

namespace Pages

theorem Booted.quiet (booted : a.Booted main m) (h : a.Quiet m m') : a.Booted main m' where
  ttable := (h.kernel.read (by decide)).trans booted.ttable
  data := by
    have inside := a.titem_inside
    have offset : a.ttable + (a.titem - a.ttable) = a.titem := by bv_omega
    have same := h.ttable.read (i := a.titem - a.ttable + 4) (by bv_omega)
    rw [← BitVec.add_assoc, offset] at same
    exact same.trans booted.data
  esp0 := (h.tss.read_add (by decide)).trans booted.esp0
  entry := (h.entry.read_base (by decide)).trans booted.entry
  initEsp := (h.init.read_add (by decide)).trans booted.initEsp
  initEip := (h.init.read_add (by decide)).trans booted.initEip
  initEdx := (h.init.read_add (by decide)).trans booted.initEdx
  argument := (h.words.read_base (by decide)).trans booted.argument
  pointer := (h.words.read (by decide)).trans booted.pointer

theorem Booted.setUp (booted : a.Booted main m) : a.SetUp m where
  ttable := booted.ttable
  data := booted.data
  esp0 := booted.esp0
  initEsp := by
    rw [booted.initEsp]
    have offset : a.loopEsp - a.stack = stackOffKernel - 12 := by
      unfold loopEsp
      bv_omega
    constructor
    · rw [offset]
      decide
    · rw [offset]
      decide

/-- Everything the loop relies on in the other pages is outside of the stack. -/
theorem quiet_of_stack (keeps : ∀ {p q : Word} {n k : Nat}, Apart p n a.stack 0x8000 →
    (q - p).toNat + k ≤ n →
      0 < k → AgreeOn q k m m') (words : AgreeOn a.loopEsp 8 m m') : a.Quiet m m' where
  kernel := keeps a.kernel_stack (self_inside (by decide)) (by decide)
  ttable := keeps a.ttable_stack (self_inside (by decide)) (by decide)
  entry := keeps a.data_stack (offset_inside (by decide)) (by decide)
  init := keeps a.data_stack (offset_inside (by decide)) (by decide)
  tss := keeps a.data_stack (offset_inside (by decide)) (by decide)
  words := words

theorem loopEsp_sub : a.loopEsp - 4 = a.stack + (stackOffKernel - 16) := by
  unfold loopEsp
  bv_omega

/-- A push below the words of the loop. -/
theorem push_agree (esp : s.reg .esp = a.loopEsp) {q : Word} {k : Nat} (apart : Apart p n a.stack 0x8000)
    (part : (q - p).toNat + k ≤ n) (pos : 0 < k) : AgreeOn q k s.mem (s.push v).mem := by
  apply Mem.agreeOn_write
  rw [esp, loopEsp_sub]
  exact apart.sub part (offset_inside (by decide)) pos (by decide)

theorem quiet_push (esp : s.reg .esp = a.loopEsp) : a.Quiet s.mem (s.push v).mem := by
  refine quiet_of_stack (fun apart part pos => push_agree esp apart part pos) ?_
  apply Mem.agreeOn_write
  rw [esp]
  constructor <;> bv_omega

end Pages

/-! ## The call of the idle function -/

/-- At the first instruction of `smp_ap_main`, with its argument. -/
structure InIdle (a : Pages) (main : Word) (s : State ξ) : Prop where
  eip : s.eip = main
  ring : s.seg .cs = 8
  esp : s.reg .esp = a.loopEsp - 4
  ret : s.slot 0 = a.kernel + idleDone
  argument : s.slot 4 = a.apid.setWidth 32
  apid : (s.cpuid 1).ebx >>> 24 = a.apid.setWidth 32
  booted : a.Booted main s.mem

theorem AtGoentry.call (h : AtGoentry a main s) : InIdle a main (callIdle a s) := by
  have quiet : a.Quiet s.mem (callIdle a s).mem := Pages.quiet_push h.esp
  have booted := h.booted.quiet quiet
  have esp : (callIdle a s).reg .esp = a.loopEsp - 4 := by
    change (s.push (a.kernel + idleDone)).reg .esp = _
    rw [State.push_esp, h.esp]
  exact {
    eip := by
      change s.mem.read (s.reg .edx) = main
      rw [h.edx]
      exact h.booted.entry
    ring := h.ring
    esp := esp
    ret := by
      change (callIdle a s).mem.read ((callIdle a s).reg .esp + 0) = _
      have top : a.loopEsp - 4 + 0 = s.reg .esp - 4 := by rw [h.esp]; exact BitVec.add_zero _
      rw [esp, top]
      exact Mem.read_write_self
    argument := by
      change (callIdle a s).mem.read ((callIdle a s).reg .esp + 4) = _
      rw [esp, BitVec.sub_add_cancel]
      exact booted.argument
    apid := h.apid
    booted := booted }

/-- The code goes on after the call. -/
structure AfterIdle (a : Pages) (main : Word) (s : State ξ) : Prop where
  eip : s.eip = a.kernel + idleDone
  ring : s.seg .cs = 8
  esp : s.reg .esp = a.loopEsp
  apid : (s.cpuid 1).ebx >>> 24 = a.apid.setWidth 32
  booted : a.Booted main s.mem

theorem InIdle.done (h : InIdle a main s) (returned : IdleDone a s u) : AfterIdle a main u where
  eip := returned.eip.trans h.ret
  ring := returned.ring.trans h.ring
  esp := by rw [returned.esp, h.esp, BitVec.sub_add_cancel]
  apid := by rw [returned.cpuid, h.apid]
  booted := h.booted.quiet returned.quiet

/-! ## One turn of the loop -/

theorem fetch_goentry : fetch kernelCode goentry = none := by decide

theorem cpl_zero (ring : s.seg .cs = 8) : s.cpl = 0 := by
  simp [State.cpl, ring]

/-- An instruction of the listing, in ring 0. -/
theorem inKernel_at {k next : Word} {i : Instr} (eip : s.eip = a.kernel + k) (cpl : s.cpl = 0)
    (fetched : fetch kernelCode k = some (i, next)) : a.inKernel s = true := by
  have away : s.eip ≠ a.kernel + goentry := by
    intro same
    have at_ : k = goentry := by
      rw [eip] at same
      bv_omega
    rw [at_] at fetched
    cases fetch_goentry.symm.trans fetched
  simp [Pages.inKernel, cpl, away]

theorem inKernel_goentry (eip : s.eip = a.kernel + goentry) : a.inKernel s = false := by
  simp [Pages.inKernel, eip]

/-! ## Views of the loop -/

/-- The words of the regions that the loop relies on. -/
def loopCells : List (Nat × Word) :=
  [(0, ttable), (1, 4), (2, tdataProcTss + 4), (2, tdataEntry), (2, tdataInitState + clientEsp),
    (2, tdataInitState + clientEip), (2, tdataInitState + clientEdx)]

def unchanged (A : View) : Bool := loopCells.all fun c => A.word c = .eq (.load c.1 c.2)

/-- In ring 0, and not at a breakpoint. -/
def kernelOk (A : View) (i : Instr) : Bool := plain A i && A.kernel

theorem switchtask_leaves :
    verify switchtaskLayout kernelCode kernelOk
      (fun A => switchtaskPost A && unchanged A) 80 switchtaskView = true := by
  decide +kernel

section Views

variable {L : Layout} {ρ : Env} {A B : View}

/-- Wherever `verify` executes an instruction the processor is inside. -/
theorem kernelOk_inside (base : ρ.var 0 = a.kernel) {i : Instr} {k next : Word} (ok : kernelOk A i = true)
    (at_k : A.offset = some k) (fetched : fetch kernelCode k = some (i, next)) :
    i ≠ .int3 ∧ A.Inside L ρ (a.inKernel (ξ := ξ)) true := by
  simp only [kernelOk, plain, Bool.and_eq_true, bne_iff_ne] at ok
  obtain ⟨ne, kernel⟩ := ok
  refine ⟨ne, fun seen s fits => ?_⟩
  exact inKernel_at ((fits.eip_eq at_k).trans (congrArg (· + k) base)) (fits.kernel kernel) fetched

/-- The words that the loop relies on are those at the start. -/
theorem unchanged_read (fits : B.Fits L ρ t)
    (h : unchanged B = true) {c : Nat × Word} (member : c ∈ loopCells)
    (tracked : L.Tracked c) : t.mem.read (ρ.var c.1 + c.2) = ρ.mem.read (ρ.var c.1 + c.2) := by
  have word := fits.mem c tracked
  rw [of_decide_eq_true (List.all_eq_true.mp h c member)] at word
  exact (Option.some.inj word).symm

theorem Pages.Booted.cells (booted : a.Booted main ρ.mem) (kernel : ρ.var 0 = a.kernel)
    (item : ρ.var 1 = a.titem)
    (data : ρ.var 2 = a.data) (tracked : ∀ c ∈ loopCells, L.Tracked c) (fits : B.Fits L ρ t)
    (h : unchanged B = true) (words : AgreeOn a.loopEsp 8 ρ.mem t.mem) : a.Booted main t.mem := by
  have same (x : Nat) (k : Word) (member : (x, k) ∈ loopCells) :
      t.mem.read (ρ.var x + k) = ρ.mem.read (ρ.var x + k) :=
        unchanged_read (c := (x, k)) fits h member (tracked _ member)
  have item_same := same 1 4 (by simp [loopCells])
  have kernel_same := same 0 ApKernel.ttable (by simp [loopCells])
  have data_same (k : Word) (member : (2, k) ∈ loopCells) :
      t.mem.read (a.data + k) = ρ.mem.read (a.data + k) := data ▸ same 2 k member
  rw [item] at item_same
  rw [kernel] at kernel_same
  exact {
    ttable := kernel_same.trans booted.ttable
    data := item_same.trans booted.data
    esp0 := (data_same (tdataProcTss + 4) (by simp [loopCells])).trans booted.esp0
    entry := (data_same tdataEntry (by simp [loopCells])).trans booted.entry
    initEsp := (data_same (tdataInitState + clientEsp) (by simp [loopCells])).trans booted.initEsp
    initEip := (data_same (tdataInitState + clientEip) (by simp [loopCells])).trans booted.initEip
    initEdx := (data_same (tdataInitState + clientEdx) (by simp [loopCells])).trans booted.initEdx
    argument := (words.read_base (by decide)).trans booted.argument
    pointer := (words.read (by decide)).trans booted.pointer }

end Views

/-- A thread is in ring 3. -/
structure InThread (a : Pages) (main : Word) (s : State ξ) : Prop where
  cpl : s.cpl = 3
  apid : (s.cpuid 1).ebx >>> 24 = a.apid.setWidth 32
  booted : a.Booted main s.mem

/-- The words of the loop are in none of the regions of `_switchtask`. -/
theorem switchtask_clear (esp : s.reg .esp = a.loopEsp - 4) (inside : (p - a.loopEsp).toNat < 8) :
    switchtaskLayout.Clear (switchtaskEnv a s) p := by
  refine Layout.clear_of_apart (q := a.loopEsp) (n := 8) (fun x hx => ?_) inside
  have words : (a.loopEsp - a.stack).toNat + 8 ≤ 0x8000 := offset_inside (by decide)
  have four : x < 4 := hx
  interval_cases x
  · exact (a.kernel_stack.sub (Pages.self_inside (by decide)) words (by decide) (by decide)).symm
  · exact (a.ttable_stack.sub a.titem_inside words (by decide) (by decide)).symm
  · exact (a.data_stack.sub (Pages.self_inside (by decide)) words (by decide) (by decide)).symm
  · change Apart a.loopEsp 8 (s.reg .esp - 52) 52
    rw [esp]
    constructor <;> bv_omega

/-- What `_switchtask` has loaded where it leaves the listing. -/
theorem switchtaskPost_regs {B : View} {seen : List (Word → CpuidRegs)}
    (fits : B.Fits switchtaskLayout { switchtaskEnv a s with seen := seen } t)
    (post : switchtaskPost B = true) :
    t.cpl = 3 ∧ userRegs t = switchTask (readCrs s.mem a.procState) ∧
      readCrs t.mem a.procState = readCrs s.mem a.procState := by
  simp only [switchtaskPost, Bool.and_eq_true, decide_eq_true_eq] at post
  obtain ⟨⟨⟨⟨⟨⟨⟨⟨⟨⟨⟨eip, eax⟩, ecx⟩, edx⟩, ebx⟩, esp⟩, ebp⟩, esi⟩, edi⟩, eflags⟩, cs⟩, only⟩ := post
  have field {k v : Word} (h : some (s.mem.read (a.data + (tdataProcState + k))) = some v) :
      v = s.mem.read (a.procState + k) := by
    rw [a.procState_add]
    exact (Option.some.inj h).symm
  refine ⟨by simp [State.cpl, fits.seg _ _ cs], ?_, ?_⟩
  · simp only [userRegs, switchTask, UserRegs.mk.injEq]
    refine ⟨field (fits.reg_eq eax), field (fits.reg_eq ecx), field (fits.reg_eq edx),
      field (fits.reg_eq ebx), field (fits.reg_eq esp), field (fits.reg_eq ebp),
      field (fits.reg_eq esi), field (fits.reg_eq edi), field ?_, ?_⟩
    · rw [← fits.eip, eip]
      rfl
    · have flags : (s.mem.read (a.data + (tdataProcState + clientEFlags)) ||| eflagsSet) &&& ~~~eflagsClr =
          t.eflags := Option.some.inj (fits.eflags_eq rfl eflags)
      rw [← a.procState_add] at flags
      exact flags.symm
  · have word (k : Word) (tracked : switchtaskLayout.Tracked (2, tdataProcState + k)) :
        t.mem.read (a.procState + k) = s.mem.read (a.procState + k) := by
      have known := fits.mem (2, tdataProcState + k) tracked
      rw [word_of_writesOnly only (show 2 ≠ 3 by decide)] at known
      rw [a.procState_add]
      exact (Option.some.inj known).symm
    simp only [readCrs, Crs.mk.injEq]
    and_intros <;> exact word _ (by decide)

theorem loopCells_switchtask : ∀ c ∈ loopCells, switchtaskLayout.Tracked c := by decide

theorem inKernel_ring3 (cpl : s.cpl = 3) : a.inKernel s = false := by
  simp [Pages.inKernel, cpl]

/-! ## Views of the return -/

/-- Where `switch_back` leaves the listing it has loaded `init_state`. -/
def initLoaded (A : View) : Bool :=
  A.eip = .load 2 (tdataInitState + clientEip) &&
    A.reg .esp = .eq (.op .add (.load 2 (tdataInitState + clientEsp)) (.lit 0)) &&
    A.reg .edx = .eq (.load 2 (tdataInitState + clientEdx)) && A.seg .cs = some 8 && unchanged A

/-- The handler of a trap, and ESP in its frame. -/
def isrEntry : Trap → Word × Word
  | .error => (errorIsr, 40)
  | .errorCode => (errorIsrCode, 36)
  | .int3 => (int3Isr, 40)

def isrPost : Trap → View → Bool
  | .int3 => int3Post
  | .error | .errorCode => switchedBack frameEip

theorem isr_returns (trap : Trap) :
    verify isrLayout kernelCode kernelOk (fun A => isrPost trap A && initLoaded A) 80
      (isrView (isrEntry trap).1 (isrEntry trap).2) = true := by
  cases trap <;> decide +kernel

theorem loopCells_isr : ∀ c ∈ loopCells, isrLayout.Tracked c := by decide

section Returns

variable {trap : Trap} {error : Word} {B : View} {seen : List (Word → CpuidRegs)}

/-- What any handler leaves in `proc_state`. -/
theorem isrPost_regs (framed : Framed a s m) (fits : B.Fits isrLayout { isrEnv a s m with seen := seen } t)
    (post : isrPost trap B = true) :
    readCrs t.mem a.procState =
      switchBack a.kernel trap (userRegs s) (a.esp0 - 24) (readCrs m a.procState) := by
  have eip := framed.eip
  cases trap with
  | error => exact switchedBack_sound fits framed post (congrArg some eip)
  | errorCode => exact switchedBack_sound fits framed post (congrArg some eip)
  | int3 =>
      simp only [isrPost, int3Post, Bool.or_eq_true, Bool.and_eq_true, decide_eq_true_eq] at post
      obtain ⟨⟨back, low⟩, high⟩ | ⟨back, outside⟩ := post
      · obtain ⟨_, low⟩ := branched_below framed (fits.path _ low)
        obtain ⟨_, high⟩ := branched_below framed (fits.path _ high)
        simp only [Cond.holds, decide_eq_false_iff_not, Bool.not_eq_false', decide_eq_true_eq] at low high
        have stays := eip_int3_inside (BitVec.not_lt.mp low) high
        exact switchedBack_sound fits framed back (congrArg some (eip.trans stays.symm))
      · have moves : Trap.eip a.kernel .int3 s.eip = s.eip - 1 := by
          apply eip_int3_outside
          intro inside
          obtain low | high := outside
          · obtain ⟨_, low⟩ := branched_below framed (fits.path _ low)
            simp only [Cond.holds, decide_eq_true_eq] at low
            exact BitVec.not_lt.mpr inside.1 low
          · obtain ⟨_, high⟩ := branched_below framed (fits.path _ high)
            simp only [Cond.holds, Bool.not_eq_true', decide_eq_false_iff_not] at high
            exact high inside.2
        refine switchedBack_sound fits framed back ?_
        rw [moves, BitVec.sub_eq_add_neg, ← eip]
        rfl

/-- The registers of the loop come from `init_state`. -/
theorem initLoaded_regs (booted : a.Booted main m)
    (fits : B.Fits isrLayout { isrEnv a s m with seen := seen } t)
    (h : initLoaded B = true) :
    t.eip = a.kernel + goentry ∧ t.reg .esp = a.loopEsp ∧ t.reg .edx = a.data + tdataEntry ∧
      t.seg .cs = 8 := by
  simp only [initLoaded, Bool.and_eq_true, decide_eq_true_eq] at h
  obtain ⟨⟨⟨⟨eip, esp⟩, edx⟩, cs⟩, -⟩ := h
  have eip_read := fits.eip
  rw [eip] at eip_read
  have esp_read : m.read (a.data + (tdataInitState + clientEsp)) + 0 = t.reg .esp :=
    Option.some.inj (fits.reg_eq esp)
  have edx_read : m.read (a.data + (tdataInitState + clientEdx)) = t.reg .edx :=
    Option.some.inj (fits.reg_eq edx)
  refine ⟨(Option.some.inj eip_read).symm.trans booted.initEip, ?_,
    edx_read.symm.trans booted.initEdx, fits.seg _ _ cs⟩
  rw [← esp_read, booted.initEsp]
  exact BitVec.add_zero _

/-- The words of the loop are in none of the regions of the handlers. -/
theorem isr_clear (booted : a.Booted main m) (inside : (p - a.loopEsp).toNat < 8) :
    isrLayout.Clear (isrEnv a s m) p := by
  refine Layout.clear_of_apart (q := a.loopEsp) (n := 8) (fun x hx => ?_) inside
  have words : (a.loopEsp - a.stack).toNat + 8 ≤ 0x8000 := offset_inside (by decide)
  have five : x < 5 := hx
  interval_cases x
  · exact (a.kernel_stack.sub (Pages.self_inside (by decide)) words (by decide) (by decide)).symm
  · exact (a.ttable_stack.sub a.titem_inside words (by decide) (by decide)).symm
  · exact (a.data_stack.sub (Pages.self_inside (by decide)) words (by decide) (by decide)).symm
  · change Apart a.loopEsp 8 (a.esp0 - 60) 60
    have loop : a.loopEsp = a.stack + 0x3FF0 := rfl
    have esp0 : a.esp0 = a.stack + 0x7FFC := rfl
    rw [loop, esp0]
    constructor <;> bv_omega
  · change Apart a.loopEsp 8 (m.read (a.data + (tdataInitState + clientEsp)) - 44) 44
    rw [booted.initEsp]
    constructor <;> bv_omega

/-- The frame of a handler is on another part of the stack. -/
theorem entered_quiet {g : Gate} {frame : List Word} (booted : a.Booted main s.mem) (pos : 0 < frame.length)
    (small : frame.length ≤ 6) : a.Quiet s.mem (entered a g frame s).mem := by
  have esp0 : a.esp0 = a.stack + 0x7FFC := rfl
  have top : s.mem.read (a.data + tdataProcTss + 4) = a.esp0 := booted.setUp.read_esp0
  refine Pages.quiet_of_stack (fun {p q n k} apart part pos' => ?_) ?_
  · refine State.enter_agree (by omega) ?_
    rw [top]
    exact apart.sub part (by bv_omega) pos' (by omega)
  · refine State.enter_agree (by omega) ?_
    have loop : a.loopEsp = a.stack + 0x3FF0 := rfl
    rw [top, loop, esp0]
    constructor <;> bv_omega

end Returns

variable [ExtUnit ξ]

theorem runInside_step {k : Word} {i : Instr} {next : Word} (eip : s.eip = a.kernel + k)
    (ring : s.seg .cs = 8) (fetched : fetch kernelCode k = some (i, next))
    (executed : X86.exec a.kernel (a.kernel + next) s i = some u) :
    runInside a.kernel kernelCode a.inKernel (n + 1) s = runInside a.kernel kernelCode a.inKernel n u := by
  have offset : s.eip - a.kernel = k := by rw [eip]; simp
  simp only [runInside, inKernel_at eip (cpl_zero ring) fetched, if_true, X86.step, offset, fetched,
    executed, Option.bind_some]

theorem runInside_left (out : a.inKernel s = false) :
    runInside a.kernel kernelCode a.inKernel 1 s = some s := by
  simp [runInside, out]

/-- `test eax, eax` -/
def tested (a : Pages) (s : State ξ) : State ξ :=
  (s.setFlags (Alu.and.flags s.eflags (s.reg .eax) (s.reg .eax))).goto (a.kernel + 0x9E)

theorem AfterIdle.test (h : AfterIdle a main s) (target : Word)
    (branch : (if s.reg .eax = 0 then a.kernel + skipSt else a.kernel + 0xA0) = target) :
    runInside a.kernel kernelCode a.inKernel (n + 2) s =
      runInside a.kernel kernelCode a.inKernel n ((tested a s).goto target) := by
  have zero : zeroFlag (Alu.and.flags s.eflags (s.reg .eax) (s.reg .eax)) = (s.reg .eax == 0) := by
    rw [zeroFlag_flags (by decide) (by decide), Alu.apply, BitVec.and_self]
  have jump : X86.exec a.kernel (a.kernel + 0xA0) (tested a s) (.jcc .z skipSt) =
      some ((tested a s).goto target) := by
    have flags : (tested a s).eflags = Alu.and.flags s.eflags (s.reg .eax) (s.reg .eax) := rfl
    simp only [X86.exec, Cond.holds, flags, zero, beq_iff_eq, branch]
  have test : X86.exec a.kernel (a.kernel + 0x9E) s (.test (.reg .eax) (.reg .eax)) =
      some (tested a s) := rfl
  rw [runInside_step h.eip h.ring rfl test]
  exact runInside_step (s := tested a s) (k := 0x9E) rfl h.ring rfl jump

/-- The idle function wants no dispatch. -/
theorem AfterIdle.again (h : AfterIdle a main s) (zero : s.reg .eax = 0) :
    ∃ n t, runInside a.kernel kernelCode a.inKernel n s = some t ∧ AtGoentry a main t ∧ t.mem = s.mem := by
  obtain ⟨u, hu⟩ : ∃ u, u = (tested a s).goto (a.kernel + skipSt) := ⟨_, rfl⟩
  obtain ⟨t, ht⟩ : ∃ t, t = (u.setReg .edx (s.mem.read (a.loopEsp + 4))).goto (a.kernel + goentry) :=
    ⟨_, rfl⟩
  have at_ : AtGoentry a main t := by
    subst ht hu
    exact {
      eip := rfl
      ring := h.ring
      esp := h.esp
      edx := by
        change s.mem.read (a.loopEsp + 4) = _
        exact h.booted.pointer
      apid := h.apid
      booted := h.booted }
  refine ⟨5, t, ?_, at_, by subst ht hu; rfl⟩
  rw [h.test (a.kernel + skipSt) (if_pos zero), ← hu]
  have load : X86.exec a.kernel (a.kernel + 0xA9) u (.mov (.reg .edx) (.mem .esp 4)) =
      some ((u.setReg .edx (s.mem.read (a.loopEsp + 4))).goto (a.kernel + 0xA9)) := by
    subst hu
    simp only [X86.exec, State.read, State.write, tested, State.goto, State.setFlags, h.esp]
  have jump : X86.exec a.kernel (a.kernel + switchtask)
      ((u.setReg .edx (s.mem.read (a.loopEsp + 4))).goto (a.kernel + 0xA9)) (.jmp goentry) = some t := by
    rw [ht]
    rfl
  rw [runInside_step (s := u) (k := skipSt) (by rw [hu]; rfl) (by rw [hu]; exact h.ring) rfl load,
    runInside_step (k := 0xA9) rfl (by rw [hu]; exact h.ring) (by rfl) jump]
  exact runInside_left (inKernel_goentry at_.eip)

/-! ## The dispatch -/

/-- `_switchtask`, entered from the loop. -/
theorem switchtask_runInside (ext : ExtUnit.size ξ ≤ 1536) (entry : AtSwitchtask a s)
    (booted : a.Booted main s.mem)
    (esp : s.reg .esp = a.loopEsp - 4) :
    ∃ n t, runInside a.kernel kernelCode a.inKernel n s = some t ∧ InThread a main t ∧
      userRegs t = switchTask (readCrs s.mem a.procState) ∧
      readCrs t.mem a.procState = readCrs s.mem a.procState := by
  have leaves (A : View) (post : (switchtaskPost A && unchanged A) = true) :
      A.Inside switchtaskLayout (switchtaskEnv a s) (a.inKernel (ξ := ξ)) false := fun seen u fits =>
    inKernel_ring3 (switchtaskPost_regs fits (Bool.and_eq_true_iff.mp post).1).1
  obtain ⟨n, t, ran, cpu, frame, B, seen, post, -, fits⟩ :=
    verify_runInside ext (fun A i k next ok at_k fetched => kernelOk_inside rfl ok at_k fetched) leaves
      (switchtask_valid entry) (fun _ h => absurd h List.not_mem_nil)
        (switchtask_fits entry) switchtask_leaves
  simp only [Bool.and_eq_true] at post
  obtain ⟨cpl, regs, kept⟩ := switchtaskPost_regs fits post.1
  have words : AgreeOn a.loopEsp 8 s.mem t.mem := fun p inside => frame p (switchtask_clear esp inside)
  refine ⟨n, t, ran, ⟨cpl, ?_, ?_⟩, regs, kept⟩
  · rw [cpu, entry.apid]
  · exact Pages.Booted.cells (ρ := { switchtaskEnv a s with seen := seen }) booted rfl rfl rfl loopCells_switchtask
      fits post.2 words

/-- The idle function wants a dispatch. -/
theorem AfterIdle.dispatch (ext : ExtUnit.size ξ ≤ 1536) (h : AfterIdle a main s)
    (nonzero : s.reg .eax ≠ 0) :
    ∃ n t, runInside a.kernel kernelCode a.inKernel n s = some t ∧ InThread a main t ∧
      userRegs t = switchTask (readCrs s.mem a.procState) ∧
      readCrs t.mem a.procState = readCrs s.mem a.procState := by
  obtain ⟨u, hu⟩ : ∃ u, u = (tested a s).goto (a.kernel + 0xA0) := ⟨_, rfl⟩
  obtain ⟨t, ht⟩ : ∃ t, t = (u.push (a.kernel + skipSt)).goto (a.kernel + switchtask) := ⟨_, rfl⟩
  have esp : u.reg .esp = a.loopEsp := by rw [hu]; exact h.esp
  have mem : u.mem = s.mem := by rw [hu]; rfl
  have quiet : a.Quiet s.mem t.mem := by
    rw [ht, ← mem]
    exact Pages.quiet_push esp
  have booted := h.booted.quiet quiet
  have pushed : t.reg .esp = a.loopEsp - 4 := by
    rw [ht]
    change (u.push (a.kernel + skipSt)).reg .esp = _
    rw [State.push_esp, esp]
  have entry : AtSwitchtask a t := {
    eip := by rw [ht]; rfl
    ring := by rw [ht, hu]; exact h.ring
    esp := by
      have offset : a.loopEsp - 4 - a.stack = stackOffKernel - 16 := by
        rw [Pages.loopEsp_sub]
        bv_omega
      rw [pushed]
      constructor
      · rw [offset]
        decide
      · rw [offset]
        decide
    apid := by rw [ht, hu]; exact h.apid
    setUp := booted.setUp }
  have proc : readCrs t.mem a.procState = readCrs s.mem a.procState := by
    refine readCrs_agree ?_
    rw [ht, ← mem]
    exact Pages.push_agree esp a.data_stack (offset_inside (by decide)) (by decide)
  obtain ⟨n, w, ran, thread, regs, kept⟩ := switchtask_runInside ext entry booted pushed
  rw [proc] at regs kept
  refine ⟨n + 3, w, ?_, thread, regs, kept⟩
  have call : X86.exec a.kernel (a.kernel + skipSt) u (.call switchtask) = some t := by
    rw [ht]
    rfl
  rw [h.test (a.kernel + 0xA0) (if_neg nonzero), ← hu,
    runInside_step (k := 0xA0) (by rw [hu]; rfl) (by rw [hu]; exact h.ring) rfl call]
  exact ran

/-! ## The return -/

/-- A trap of the thread ends at the loop. -/
theorem InThread.back (ext : ExtUnit.size ξ ≤ 1536) (h : InThread a main s) (trap : Trap) (error : Word) :
    ∃ n t, runInside a.kernel kernelCode a.inKernel n (enterIsr a trap error s) = some t ∧
      AtGoentry a main t ∧
      readCrs t.mem a.procState =
        switchBack a.kernel trap (userRegs s) (a.esp0 - 24) (readCrs s.mem a.procState) := by
  obtain ⟨frame, hframe⟩ : ∃ frame, frame = s.trapFrame (errorCode error trap) := ⟨_, rfl⟩
  obtain ⟨u, hu⟩ : ∃ u, u = entered a (gate a.kernel trap) frame s := ⟨_, rfl⟩
  have start : enterIsr a trap error s = u := by
    rw [hu, hframe]
    rfl
  have length : frame.length = if trap = .errorCode then 6 else 5 := by
    rw [hframe]
    cases trap <;> rfl
  have pos : 0 < frame.length := by rw [length]; split <;> decide
  have small : frame.length ≤ 6 := by rw [length]; split <;> decide
  have kept : a.Kept s.mem u.mem := hu ▸ entered_kept h.booted.setUp pos small
  have booted : a.Booted main u.mem := h.booted.quiet (hu ▸ entered_quiet h.booted pos small)
  have framed : Framed a s u.mem := hu ▸ entered_framed h.booted.setUp hframe
  have cpu : u.cpuid = s.cpuid := hu ▸ State.enter_cpuid
  have fits : (isrView (isrEntry trap).1 (isrEntry trap).2).Fits isrLayout (isrEnv a s u.mem) u := by
    rw [hu]
    refine isr_fits h.booted.setUp (by cases trap <;> rfl) (by cases trap <;> rfl) ?_
    rw [length]
    cases trap with
    | error | errorCode | int3 =>
        simp only [isrEntry, reduceCtorEq, if_true, if_false]
        bv_omega
  have leaves (A : View) (post : (isrPost trap A && initLoaded A) = true) :
      A.Inside isrLayout (isrEnv a s u.mem) (a.inKernel (ξ := ξ)) false := fun seen w fits =>
    inKernel_goentry (initLoaded_regs booted fits (Bool.and_eq_true_iff.mp post).2).1
  obtain ⟨n, t, ran, same, clear, B, seen, post, -, final⟩ :=
    verify_runInside ext (fun A i k next ok at_k fetched => kernelOk_inside rfl ok at_k fetched) leaves
      (isr_valid (s := s) booted.setUp (cpu ▸ h.apid))
        (fun _ h => absurd h List.not_mem_nil) fits (isr_returns trap)
  obtain ⟨regs, loaded⟩ := Bool.and_eq_true_iff.mp post
  obtain ⟨eip, esp, edx, ring⟩ := initLoaded_regs booted final loaded
  have words : AgreeOn a.loopEsp 8 u.mem t.mem := fun p inside => clear p (isr_clear booted inside)
  refine ⟨n, t, start ▸ ran, ⟨eip, ring, esp, edx, ?_, ?_⟩, ?_⟩
  · rw [same, cpu, h.apid]
  · simp only [initLoaded, Bool.and_eq_true] at loaded
    exact Pages.Booted.cells (ρ := { isrEnv a s u.mem with seen := seen }) booted rfl rfl rfl loopCells_isr final
      loaded.2 words
  · rw [isrPost_regs framed final regs, kept.readCrs]

/-! ## The run of an AP -/

/-- What holds at the points where the kernel is left. -/
def AtLoop (a : Pages) (main : Word) : Phase × State ξ → Prop
  | (.goentry, s) => AtGoentry a main s
  | (.idle, s) => InIdle a main s
  | (.ring3, s) => InThread a main s

omit [ExtUnit ξ] in
theorem AtGoentry.atLoop (h : AtGoentry a main t) : AtLoop a main (left t) := by
  have phase : left t = (.goentry, t) := by
    unfold left
    rw [if_pos (cpl_zero h.ring)]
  rw [phase]
  exact h

omit [ExtUnit ξ] in
theorem InThread.atLoop (h : InThread a main t) : AtLoop a main (left t) := by
  have phase : left t = (.ring3, t) := by
    unfold left
    rw [if_neg (by rw [h.cpl]; decide)]
  rw [phase]
  exact h

theorem AtLoop.step (ext : ExtUnit.size ξ ≤ 1536) {p q : Phase × State ξ} {act : LoopAction}
    (h : AtLoop a main p) (step : LoopStep a p act q) : AtLoop a main q := by
  cases step with
  | call s => exact AtGoentry.call h
  | @done s u t n returned ran =>
      have after := InIdle.done h returned
      by_cases zero : u.reg .eax = 0
      · obtain ⟨k, t', ran', again, -⟩ := after.again zero
        cases runInside_unique ran ran'
        exact again.atLoop
      · obtain ⟨k, t', ran', thread, -⟩ := after.dispatch ext zero
        cases runInside_unique ran ran'
        exact thread.atLoop
  | @thread s t ran =>
      have before : InThread a main s := h
      exact ⟨ran.cpl, by rw [ran.cpuid, before.apid], before.booted.quiet ran.quiet⟩
  | @trap s t n trap error ran =>
      obtain ⟨k, t', ran', again, -⟩ := InThread.back ext h trap error
      cases runInside_unique ran ran'
      exact again.atLoop

omit [ExtUnit ξ] in
/-- The boot code enters the kernel as `_kernel_boot` needs it, with the words that
`smp_init` has stored for the AP. -/
theorem AtKernel.of_entered {cfg : Startup.Setup} {i : Nat} {cpu : Startup.Cpu}
    (entered : Startup.Entered cfg i cpu)
    (kernel : a.kernel = cfg.kernelFlat) (table : a.ttable = cfg.ttable) (stack : a.stack = cfg.stack i)
    (reg : s.reg = cpu.reg) (eip : s.eip = cpu.eip) (seg : s.seg = cpu.seg)
    (apid : (s.cpuid 1).ebx >>> 24 = a.apid.setWidth 32) (data : s.mem.read (a.titem + 4) = a.data)
    (esp0 : s.mem.read (a.data + (tdataProcTss + 4)) = a.esp0)
    (entry : s.mem.read (a.data + tdataEntry) = main) :
    AtKernel a main s where
  eip := by rw [eip, entered.eip, kernel]
  ring := by rw [seg, entered.seg]; rfl
  ecx := by rw [reg, entered.ecx, kernel]
  esp := by rw [reg, entered.esp, stack]
  edi := by rw [reg, entered.edi, table]
  apid := apid
  data := data
  esp0 := esp0
  entry := entry

end SmpVxd.ApKernel
