import SmpVxd.Driver.Context
import SmpVxd.X86.Memory
import Mathlib.Logic.Function.Basic
import Mathlib.Data.List.Basic

/-!
# The first mebibyte and the search for the MP floating pointer

`smp_init` works on the memory behind `smp_first_mb` and on its global variables.
Addresses are offsets from that pointer; they wrap around as pointers do. The state
keeps a log of the offsets that are read. A statement that cannot be left by a return
of the function (a store through a null pointer, a wait that never ends) halts.
-/

namespace SmpVxd.Boot

abbrev Byte := BitVec 8

/-- `isr_desc32_t`, a gate of the interrupt descriptor table. -/
structure IsrDesc where
  offsetLow : BitVec 16
  selector : BitVec 16
  zero : Byte
  typeAttributes : Byte
  offsetHigh : BitVec 16

/-- The fields of `tdata_t` that `smp_init` fills, and the page directory that follows
it on the second data page. `addr` is the address of the block. -/
structure Tdata where
  addr : Dword
  status : Status
  entry : Dword
  cpuCr3 : Dword
  cpuCr4 : Dword
  pd : Dword
  index : Nat
  xsaveflags : Dword
  gdt : Nat → Dword
  tss : Nat → Dword
  statsUsage : Dword
  lastActive : BitVec 64
  pageDir : Nat → Dword

/-- A data block as `_PageCode` returns it: zeroed, or no block at all. -/
def Tdata.alloc (mem : Dword) : Option Tdata :=
  if mem = 0 then none
  else some
    { addr := mem, status := .busy, entry := 0, cpuCr3 := 0, cpuCr4 := 0, pd := 0, index := 0
      xsaveflags := 0, gdt := fun _ => 0, tss := fun _ => 0, statsUsage := 0, lastActive := 0
      pageDir := fun _ => 0 }

/-- `titem_t`; a null `data` is `none`. -/
structure Titem where
  stack : Dword
  data : Option Tdata

/-- `apboot_vars_t`, what the boot code of an AP finds at `AP_BOOT_VAR_OFF`. -/
structure ApbootVars where
  gdtSize : BitVec 16
  gdtAddress : Dword
  idtSize : BitVec 16
  idtAddress : Dword
  sysCr3 : Dword
  kernelAddr : Dword
  stackAddr : Dword
  bspId : Byte
  ttable : Dword
  gdata : Dword

/-- What `smp_init` finds: the memory of the firmware, the answers of the page
allocator, the settings, and which processors come up when they are started. -/
structure Env where
  firstMb : X86.Mem
  /-- The address that the `n`-th call of `_PageCode` returns, `0` when it fails. -/
  page : Nat → Dword
  phys : Nat → Dword
  maxCpus : Int
  xsaveFlags : Dword
  smpApMain : Dword
  gdata : Dword
  apkernelIdt : Nat → IsrDesc
  sysPd : Nat → Dword
  /-- `CPUID.1:EBX[31:24]` on the boot processor. -/
  bspid : Byte
  /-- The AP with this id leaves `S_BUSY` after its start-up interrupts. -/
  boots : Nat → Bool

/-- The global variables of the driver, with a log of the reads from the first
mebibyte, of the values of the local variable `cpu`, and of the APs that were sent
start-up interrupts. -/
structure State where
  reads : List Dword
  cpus : List Dword
  allocs : Nat
  ttable : Dword
  items : Nat → Titem
  ttableMax : Nat
  kernel : Dword
  kernelFlat : Dword
  isr : Nat → IsrDesc
  bootPde : Dword
  bootPdePhy : Dword
  bootPt : Nat → Dword
  cpuCount : Nat
  apFreeCnt : Nat
  bspid : Byte
  started : List (Nat × ApbootVars)

/-- The globals as the loader leaves them, with the pages still to be allocated. -/
def State.initial : State where
  reads := []
  cpus := []
  allocs := 0
  ttable := 0
  items := fun _ => ⟨0, none⟩
  ttableMax := 0
  kernel := 0
  kernelFlat := 0
  isr := fun _ => ⟨0, 0, 0, 0, 0⟩
  bootPde := 0
  bootPdePhy := 0
  bootPt := fun _ => 0
  cpuCount := 0
  apFreeCnt := 0
  bspid := 0
  started := []

/-- How an execution ends inside the function. -/
inductive Halt where
  | nullStore
  | waits
  deriving DecidableEq

abbrev Init := EStateM Halt State

section Bind

variable {α β : Type} {x : Init α} {f : α → Init β} {s t : State} {a : α} {e : Halt}

theorem bind_ok (h : x.run s = .ok a t) : (x >>= f).run s = (f a).run t := by
  simp only [EStateM.run] at h
  simp only [EStateM.run, bind, EStateM.bind, h]

theorem bind_error (h : x.run s = .error e t) : (x >>= f).run s = .error e t := by
  simp only [EStateM.run] at h
  simp only [EStateM.run, bind, EStateM.bind, h]

theorem bind_get (f : State → Init β) : (get >>= f).run s = (f s).run s := rfl

theorem bind_modify (g : State → State) (f : Unit → Init β) :
    (modify g >>= f).run s = (f ()).run (g s) := rfl

end Bind

/-! ## Reading -/

def State.read (s : State) (as : List Dword) : State := { s with reads := s.reads ++ as }

@[simp] theorem State.read_nil (s : State) : s.read [] = s := by
  simp only [read, List.append_nil]

@[simp] theorem State.read_read (s : State) (as bs : List Dword) :
    (s.read as).read bs = s.read (as ++ bs) := by
  simp only [read, List.append_assoc]

/-- The computation changes nothing: it returns `v` and has read `as`. -/
def Reading {α : Type} (x : Init α) (v : α) (as : List Dword) : Prop :=
  ∀ s, x.run s = .ok v (s.read as)

namespace Reading

variable {α β : Type} {x : Init α} {f : α → Init β} {v : α} {w : β} {as bs : List Dword}

theorem pure (v : α) : Reading (Pure.pure v : Init α) v [] := fun s => by
  rw [State.read_nil]
  rfl

theorem bind (hx : Reading x v as) (hf : Reading (f v) w bs) : Reading (x >>= f) w (as ++ bs) := by
  intro s
  rw [bind_ok (hx s), hf, State.read_read]

theorem map (hx : Reading x v as) (g : α → β) : Reading (x >>= fun a => Pure.pure (g a)) (g v) as := by
  simpa only [List.append_nil] using hx.bind (f := fun a => Pure.pure (g a)) (Reading.pure (g v))

end Reading

variable (env : Env)

def readByte (a : Dword) : Init Byte := do
  modify (State.read · [a])
  return env.firstMb a

def readWord (a : Dword) : Init (BitVec 16) := do
  let lo ← readByte env a
  let hi ← readByte env (a + 1)
  return hi ++ lo

def readDword (a : Dword) : Init Dword := do
  let b₀ ← readByte env a
  let b₁ ← readByte env (a + 1)
  let b₂ ← readByte env (a + 2)
  let b₃ ← readByte env (a + 3)
  return b₃ ++ b₂ ++ b₁ ++ b₀

/-- The 16-bit word at an address. -/
def word (m : X86.Mem) (a : Dword) : BitVec 16 := m (a + 1) ++ m a

theorem reading_byte (a : Dword) : Reading (readByte env a) (env.firstMb a) [a] := fun _ => rfl

theorem reading_word (a : Dword) : Reading (readWord env a) (word env.firstMb a) [a, a + 1] :=
  (reading_byte env a).bind ((reading_byte env (a + 1)).map _)

/-- The bytes of a 32-bit field. -/
def dwordReads (a : Dword) : List Dword := [a, a + 1, a + 2, a + 3]

theorem reading_dword (a : Dword) : Reading (readDword env a) (env.firstMb.read a) (dwordReads a) :=
  (reading_byte env a).bind <| (reading_byte env (a + 1)).bind <|
    (reading_byte env (a + 2)).bind <| (reading_byte env (a + 3)).map _

/-! ## vxd_lib.c and the search -/

/-- `memcmp` with a constant: the bytes are compared one at a time, up to the first
difference or the last byte, and then subtracted. -/
def memcmp (ptr1 : Dword) : List Byte → Init Int
  | [] => return 0
  | [c] => do return (← readByte env ptr1).toNat - c.toNat
  | c :: c' :: rest => do
      if (← readByte env ptr1) = c then memcmp (ptr1 + 1) (c' :: rest)
      else return (← readByte env ptr1).toNat - c.toNat

/-- `mp_checksum`, with the sum so far. -/
def mpChecksumFrom (ptr : Dword) (sum : Byte) : Nat → Init Byte
  | 0 => return sum
  | len + 1 => do mpChecksumFrom (ptr + 1) (sum + (← readByte env ptr)) len

def mpChecksum (ptr : Dword) (len : Nat) : Init Byte := mpChecksumFrom env ptr 0 len

/-- `"_MP_"` -/
def mpfpMagic : List Byte := [0x5F, 0x4D, 0x50, 0x5F]

/-- `"PCMP"` -/
def mpctMagic : List Byte := [0x50, 0x43, 0x4D, 0x50]

/-- The loop of `smp_scan_mpfp`; both bounds are offsets below one mebibyte. -/
def smpScanMpfp (ptr stop : Nat) : Init (Option Dword) :=
  if ptr < stop then do
    if (← memcmp env (.ofNat 32 ptr) mpfpMagic) = 0 then
      if (← mpChecksum env (.ofNat 32 ptr) 16) = 0 then return some (.ofNat 32 ptr)
      else smpScanMpfp (ptr + 16) stop
    else smpScanMpfp (ptr + 16) stop
  else return none
termination_by stop - ptr

def smpGetMpfp : Init (Option Dword) := do
  match ← smpScanMpfp env 0x9F000 0x9FFFF with
  | some fp => return some fp
  | none =>
      match ← smpScanMpfp env 0x7FC00 0x7FCFF with
      | some fp => return some fp
      | none => smpScanMpfp env 0xF0000 0xFFFFF

/-! ## What the search finds -/

section

variable {env : Env} {m : X86.Mem}

/-- The bytes from `p` on. -/
def span (p : Dword) (len : Nat) : List Dword := (List.range len).map fun i => p + .ofNat 32 i

theorem mem_span {p a : Dword} {len : Nat} : a ∈ span p len ↔ ∃ i < len, p + .ofNat 32 i = a := by
  simp only [span, List.mem_map, List.mem_range]

theorem span_succ (p : Dword) (len : Nat) : span p (len + 1) = p :: span (p + 1) len := by
  simp only [span, List.range_succ_eq_map, List.map_cons, List.map_map]
  congr 1
  · exact BitVec.add_zero p
  · apply List.map_congr_left
    intro i _
    simp only [Function.comp_apply, Nat.succ_eq_add_one, Nat.add_comm i 1, BitVec.ofNat_add]
    exact (BitVec.add_assoc ..).symm

def byteSum (m : X86.Mem) (p : Dword) (len : Nat) : Byte := ((span p len).map m).sum

/-- The constant stands at `p`. -/
def startsWith (m : X86.Mem) (p : Dword) : List Byte → Bool
  | [] => true
  | c :: rest => m p = c && startsWith m (p + 1) rest

/-- The bytes that `memcmp` reads. -/
def cmpReads (m : X86.Mem) (p : Dword) : List Byte → List Dword
  | [] => []
  | [_] => [p]
  | c :: c' :: rest => p :: if m p = c then cmpReads m (p + 1) (c' :: rest) else [p]

theorem byte_sub_eq_zero {a b : Byte} : (a.toNat : Int) - b.toNat = 0 ↔ a = b := by
  rw [Int.sub_eq_zero, Int.ofNat_inj, BitVec.toNat_inj]

variable (env) in
theorem memcmp_spec (p : Dword) (cs : List Byte) :
    ∃ v, Reading (memcmp env p cs) v (cmpReads env.firstMb p cs) ∧
      (v = 0 ↔ startsWith env.firstMb p cs = true) := by
  induction cs generalizing p with
  | nil => exact ⟨0, Reading.pure 0, by simp only [startsWith]⟩
  | cons c rest ih =>
      cases rest with
      | nil =>
          refine ⟨_, (reading_byte env p).map _, ?_⟩
          rw [byte_sub_eq_zero]
          simp only [startsWith, Bool.and_true, decide_eq_true_eq]
      | cons c' rest =>
          by_cases same : env.firstMb p = c
          · obtain ⟨v, reading, zero⟩ := ih (p + 1)
            refine ⟨v, ?_, ?_⟩
            · rw [cmpReads, if_pos same]
              apply (reading_byte env p).bind
              rw [if_pos same]
              exact reading
            · rw [zero, startsWith.eq_2 _ _ c, decide_eq_true same, Bool.true_and]
          · refine ⟨(env.firstMb p).toNat - c.toNat, ?_, ?_⟩
            · rw [cmpReads, if_neg same]
              apply (reading_byte env p).bind
              rw [if_neg same]
              exact (reading_byte env p).map _
            · rw [byte_sub_eq_zero, startsWith, decide_eq_false same, Bool.false_and]
              simp only [same, Bool.false_eq_true]

variable (env) in
theorem mpChecksumFrom_reading (p : Dword) (sum : Byte) (len : Nat) :
    Reading (mpChecksumFrom env p sum len) (sum + byteSum env.firstMb p len) (span p len) := by
  induction len generalizing p sum with
  | zero =>
      rw [show sum + byteSum env.firstMb p 0 = sum from BitVec.add_zero sum]
      exact Reading.pure sum
  | succ len ih =>
      rw [span_succ]
      apply (reading_byte env p).bind
      have rest := ih (p + 1) (sum + env.firstMb p)
      rwa [BitVec.add_assoc, show env.firstMb p + byteSum env.firstMb (p + 1) len =
        byteSum env.firstMb p (len + 1) by simp only [byteSum, span_succ, List.map_cons,
          List.sum_cons]] at rest

variable (env) in
theorem mpChecksum_reading (p : Dword) (len : Nat) :
    Reading (mpChecksum env p len) (byteSum env.firstMb p len) (span p len) := by
  have reading := mpChecksumFrom_reading env p 0 len
  rwa [show (0 : Byte) + byteSum env.firstMb p len = _ from BitVec.zero_add _] at reading

/-- A floating pointer structure stands at this offset. -/
def isMpfp (m : X86.Mem) (off : Nat) : Bool :=
  startsWith m (.ofNat 32 off) mpfpMagic && byteSum m (.ofNat 32 off) 16 = 0

/-- The offsets that a scan looks at. -/
def slots (ptr stop : Nat) : List Nat := List.range' ptr ((stop + 15 - ptr) / 16) 16

theorem slots_of_lt {ptr stop : Nat} (more : ptr < stop) :
    slots ptr stop = ptr :: slots (ptr + 16) stop := by
  rw [slots, slots, ← List.range'_succ]
  congr 1
  omega

theorem slots_of_ge {ptr stop : Nat} (done : ¬ptr < stop) : slots ptr stop = [] := by
  rw [slots, show (stop + 15 - ptr) / 16 = 0 by omega]
  rfl

/-- The first structure in the three windows, in the order of the search. -/
def mpfpOf (m : X86.Mem) : Option Nat :=
  (slots 0x9F000 0x9FFFF ++ slots 0x7FC00 0x7FCFF ++ slots 0xF0000 0xFFFFF).find? (isMpfp m)

def firstMbSize : Nat := 0x100000

theorem cmpReads_subset {p : Dword} {cs : List Byte} : cmpReads m p cs ⊆ span p cs.length := by
  induction cs generalizing p with
  | nil => exact List.nil_subset _
  | cons c rest ih =>
      rw [List.length_cons, span_succ]
      cases rest with
      | nil => exact List.cons_subset_cons _ (List.nil_subset _)
      | cons c' rest =>
          rw [cmpReads]
          split
          · exact List.cons_subset_cons _ ih
          · simp

theorem span_lt {off len : Nat} (fits : off + len ≤ firstMbSize) :
    ∀ a ∈ span (.ofNat 32 off) len, a.toNat < firstMbSize := by
  intro a inside
  obtain ⟨i, lt, rfl⟩ := mem_span.1 inside
  have small : firstMbSize < 2 ^ 32 := by decide
  rw [← BitVec.ofNat_add, BitVec.toNat_ofNat, Nat.mod_eq_of_lt (by omega)]
  omega

theorem dwordReads_lt {a : Dword} (fits : a.toNat + 3 < firstMbSize) :
    ∀ b ∈ dwordReads a, b.toNat < firstMbSize := by
  intro b inside
  simp only [dwordReads, List.mem_cons, List.not_mem_nil, or_false] at inside
  simp only [firstMbSize] at fits ⊢
  rcases inside with rfl | rfl | rfl | rfl <;> bv_omega

/-- The reads of a scan over these offsets. -/
def scanReads (m : X86.Mem) : List Nat → List Dword
  | [] => []
  | off :: rest =>
      cmpReads m (.ofNat 32 off) mpfpMagic ++
        ((if startsWith m (.ofNat 32 off) mpfpMagic then span (.ofNat 32 off) 16 else []) ++
          if isMpfp m off then [] else scanReads m rest)

theorem scanReads_lt {offs : List Nat} (fits : ∀ off ∈ offs, off + 16 ≤ firstMbSize) :
    ∀ a ∈ scanReads m offs, a.toNat < firstMbSize := by
  induction offs with
  | nil => exact fun _ inside => absurd inside List.not_mem_nil
  | cons off rest ih =>
      have here := span_lt (fits off (List.mem_cons_self ..))
      intro a inside
      rw [scanReads, List.mem_append, List.mem_append] at inside
      obtain inside | inside | inside := inside
      · obtain ⟨i, lt, same⟩ := mem_span.1 (cmpReads_subset inside)
        have lt : i < 4 := lt
        exact here a (mem_span.2 ⟨i, by omega, same⟩)
      · split at inside
        · exact here a inside
        · cases inside
      · split at inside
        · cases inside
        · exact ih (fun off mem => fits off (List.mem_cons_of_mem _ mem)) a inside

variable (env) in
theorem smpScanMpfp_reading (ptr stop : Nat) :
    Reading (smpScanMpfp env ptr stop)
      (((slots ptr stop).find? (isMpfp env.firstMb)).map (.ofNat 32))
      (scanReads env.firstMb (slots ptr stop)) := by
  induction ptr using smpScanMpfp.induct stop with
  | case1 ptr more ih =>
      obtain ⟨v, compare, zero⟩ := memcmp_spec env (.ofNat 32 ptr) mpfpMagic
      rw [smpScanMpfp, if_pos more, slots_of_lt more, scanReads, List.find?_cons]
      apply compare.bind
      by_cases magic : startsWith env.firstMb (.ofNat 32 ptr) mpfpMagic = true
      · rw [if_pos (zero.2 magic), if_pos magic]
        apply (mpChecksum_reading env (.ofNat 32 ptr) 16).bind
        by_cases ok : byteSum env.firstMb (.ofNat 32 ptr) 16 = 0
        · simp only [isMpfp, magic, ok]
          exact Reading.pure _
        · simp only [isMpfp, magic, ok]
          exact ih
      · rw [if_neg fun h => magic (zero.1 h), if_neg magic]
        simp only [isMpfp, magic]
        exact ih
  | case2 ptr done =>
      rw [smpScanMpfp, if_neg done, slots_of_ge done]
      exact Reading.pure none

theorem slots_fit {ptr stop : Nat} (aligned : 16 ∣ ptr) (le : stop ≤ firstMbSize) :
    ∀ off ∈ slots ptr stop, off + 16 ≤ firstMbSize := by
  intro off mem
  obtain ⟨i, lt, rfl⟩ := List.mem_range'.1 mem
  simp only [firstMbSize] at le ⊢
  omega

variable (env) in
theorem smpGetMpfp_reading :
    ∃ as, Reading (smpGetMpfp env) ((mpfpOf env.firstMb).map (.ofNat 32)) as ∧
      ∀ a ∈ as, a.toNat < firstMbSize := by
  have low (ptr stop : Nat) (aligned : 16 ∣ ptr) (le : stop ≤ firstMbSize) :=
    scanReads_lt (m := env.firstMb) (slots_fit aligned le)
  have low₁ := low 0x9F000 0x9FFFF (by decide) (by decide)
  have low₂ := low 0x7FC00 0x7FCFF (by decide) (by decide)
  have low₃ := low 0xF0000 0xFFFFF (by decide) (by decide)
  have scan₁ := smpScanMpfp_reading env 0x9F000 0x9FFFF
  have scan₂ := smpScanMpfp_reading env 0x7FC00 0x7FCFF
  have scan₃ := smpScanMpfp_reading env 0xF0000 0xFFFFF
  rw [mpfpOf, List.find?_append, List.find?_append]
  cases found₁ : (slots 0x9F000 0x9FFFF).find? (isMpfp env.firstMb) with
  | some off =>
      rw [found₁] at scan₁
      exact ⟨_, scan₁.bind (Reading.pure _), by simpa only [List.append_nil] using low₁⟩
  | none =>
      rw [found₁] at scan₁
      cases found₂ : (slots 0x7FC00 0x7FCFF).find? (isMpfp env.firstMb) with
      | some off =>
          rw [found₂] at scan₂
          refine ⟨_, scan₁.bind (scan₂.bind (Reading.pure _)), ?_⟩
          simp only [List.append_nil, List.forall_mem_append]
          exact ⟨low₁, low₂⟩
      | none =>
          rw [found₂] at scan₂
          refine ⟨_, scan₁.bind (scan₂.bind scan₃), ?_⟩
          simp only [List.forall_mem_append]
          exact ⟨low₁, low₂, low₃⟩

theorem mpfpOf_fits {off : Nat} (found : mpfpOf m = some off) : off + 16 ≤ firstMbSize := by
  have mem := List.mem_of_find?_eq_some found
  simp only [List.mem_append] at mem
  obtain (mem | mem) | mem := mem
  · exact slots_fit (by decide) (by decide) off mem
  · exact slots_fit (by decide) (by decide) off mem
  · exact slots_fit (by decide) (by decide) off mem

end

end SmpVxd.Boot
