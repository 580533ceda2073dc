import SmpVxd.Startup.Inversion

/-!
# The start is safe

Only one AP at a time executes the boot code, and while it does so the page holds the
variables of its own slot. What each processor may have reached is a function of the
statement of the BSP and of the message in flight, and the invariant of a run says so.
-/

namespace SmpVxd.Startup

open X86 Transition
open Boot (Byte)

/-! ## What the boot code computes -/

/-- The processor has entered the kernel for slot `i`. -/
structure Entered (cfg : Setup) (i : Nat) (c : Cpu) : Prop where
  eip : c.eip = cfg.kernelFlat
  ecx : c.reg .ecx = cfg.kernelFlat
  esp : c.reg .esp = cfg.stack i + stackOffKernel
  esi : c.reg .esi = cfg.bspid.setWidth 32
  edi : c.reg .edi = cfg.ttable
  edx : c.reg .edx = cfg.gdata
  cr3 : c.cr3 = cfg.cpuCr3 i
  gdtr : c.gdtr = (47, cfg.data i + Boot.tdataGdt)
  idtr : c.idtr = (256 * 8 - 1, cfg.kernelFlat + Boot.apKernelIsrOff)
  seg : ∀ g, c.seg g = if g = .cs then 0x8 else 0x10
  tr : c.tr = 0x28
  /-- PG, NE, ET, MP and PE are set; of the other flags only CD and NW may be. -/
  cr0 : c.cr0 &&& 0x9FFFFFFF = 0x80000033

/-- The variables are in the page. -/
def Stored (m : Mem) (vars : Boot.ApbootVars) : Prop :=
  ∀ f ∈ fields vars, Held m (Boot.apBootAddr + apBootVarOff + f.1) f.2.1 f.2.2

variable {cfg : Setup} {s t : State} {i j k n : Nat} {m : Mem} {c : Cpu} {a : Action}

theorem Stored.word (h : Stored m (cfg.vars i)) {f : Word × Nat × Word} (member : f ∈ fields (cfg.vars i))
    (size : f.2.1 = 4) : m.read (Boot.apBootAddr + apBootVarOff + f.1) = f.2.2 :=
  Held.read (size ▸ h f member)

theorem Stored.half (h : Stored m (cfg.vars i)) {f : Word × Nat × Word} (member : f ∈ fields (cfg.vars i))
    (size : f.2.1 = 2) : readHalf m (Boot.apBootAddr + apBootVarOff + f.1) = f.2.2.setWidth 16 :=
  Held.readHalf (size ▸ h f member)

theorem readHalf_write {a b v : Word} (apart : Apart a 2 b 4) :
    readHalf (m.write b v) a = readHalf m a := by
  obtain ⟨h₁, h₂⟩ := apart
  rw [readHalf, readHalf, Mem.write_apply (by bv_omega), Mem.write_apply (by bv_omega)]

theorem cr0_protected {x : Word} (before : x &&& 0x9FFFFFFF = 0x10) :
    (x ||| 0x00000001 ||| 0x80000022) &&& 0xFFFEFFFB &&& 0x9FFFFFFF = 0x80000033 := by
  have masks : (x ||| 0x00000001 ||| 0x80000022) &&& 0xFFFEFFFB &&& 0x9FFFFFFF =
      (x &&& 0x9FFFFFFF) &&& 0xFFFEFFFB ||| 0x80000023 := by
    ext i lt
    simp only [BitVec.getElem_and, BitVec.getElem_or]
    interval_cases i <;> simp
  rw [masks, before]
  rfl

theorem ax_read (x : Word) (v : Selector) : ((x &&& 0xFFFF0000) ||| v.setWidth 32).setWidth 16 = v := by
  ext i lt
  simp only [BitVec.getElem_setWidth, BitVec.getLsbD_or, BitVec.getLsbD_and, BitVec.getLsbD_setWidth]
  interval_cases i <;> simp

theorem boot_enters (stored : Stored m (cfg.vars i)) (cr0 : c.cr0 &&& 0x9FFFFFFF = 0x10) :
    Entered cfg i (bootRun bootCode.length (m, c)).2 where
  eip :=
    have jump : (bootRun bootCode.length (m, c)).2.eip =
        (m.write farJmpAddress (m.read sysStart)).read farJmpAddress := rfl
    jump.trans (Mem.read_write_self.trans
      (stored.word (f := (16, 4, cfg.kernelFlat)) (by simp [fields, Setup.vars]) rfl))
  ecx := stored.word (f := (16, 4, cfg.kernelFlat)) (by simp [fields, Setup.vars]) rfl
  esp := stored.word (f := (20, 4, cfg.stack i + stackOffKernel)) (by simp [fields, Setup.vars]) rfl
  esi := stored.word (f := (24, 4, cfg.bspid.setWidth 32)) (by simp [fields, Setup.vars]) rfl
  edi := stored.word (f := (28, 4, cfg.ttable)) (by simp [fields, Setup.vars]) rfl
  edx := stored.word (f := (32, 4, cfg.gdata)) (by simp [fields, Setup.vars]) rfl
  cr3 := stored.word (f := (12, 4, cfg.cpuCr3 i)) (by simp [fields, Setup.vars]) rfl
  gdtr := by
    have load : (bootRun bootCode.length (m, c)).2.gdtr =
        (readHalf (m.write farJmpAddress (m.read sysStart)) gdtValue,
          (m.write farJmpAddress (m.read sysStart)).read (gdtValue + 2)) := rfl
    rw [load, readHalf_write (by decide), Mem.read_write_apart (by decide)]
    have size := stored.half (f := (0, 2, (47 : BitVec 16).setWidth 32)) (by simp [fields, Setup.vars]) rfl
    have address := stored.word (f := (2, 4, cfg.data i + Boot.tdataGdt)) (by simp [fields, Setup.vars]) rfl
    exact Prod.ext size address
  idtr := by
    have load : (bootRun bootCode.length (m, c)).2.idtr =
        (readHalf (m.write farJmpAddress (m.read sysStart)) idtValue,
          (m.write farJmpAddress (m.read sysStart)).read (idtValue + 2)) := rfl
    rw [load, readHalf_write (by decide), Mem.read_write_apart (by decide)]
    have size := stored.half (f := (6, 2, (256 * 8 - 1 : BitVec 16).setWidth 32))
      (by simp [fields, Setup.vars]) rfl
    have address := stored.word (f := (8, 4, cfg.kernelFlat + Boot.apKernelIsrOff))
      (by simp [fields, Setup.vars]) rfl
    exact Prod.ext size address
  seg g := by
    cases g with
    | cs => rfl
    | _ => exact ax_read _ 0x10
  tr := ax_read _ 0x28
  cr0 := cr0_protected cr0

/-! ## The page -/

/-- A distance from the first byte of the page. -/
def offset (a : Word) : Nat := (a - Boot.apBootAddr).toNat

theorem offset_add (lt : k < 2 ^ 32) : offset (Boot.apBootAddr + .ofNat 32 k) = k := by
  unfold offset
  bv_omega

theorem eq_of_offset {a : Word} (h : offset a = k) : a = Boot.apBootAddr + .ofNat 32 k := by
  unfold offset at h
  bv_omega

/-- The operand of the last jump, which the boot code itself writes. -/
def inFarJmp (a : Word) : Prop := (a - farJmpAddress).toNat < 4

def inVars (a : Word) : Prop := 0x180 ≤ offset a ∧ offset a < 0x1A4

/-- The bytes of the page that hold the boot code and its temporary tables. -/
def CodeIntact (cfg : Setup) (m : Mem) : Prop :=
  ∀ a, offset a < apbootLen → ¬ inVars a → ¬ inFarJmp a → cfg.apboot[offset a]? = some (m a)

/-- Everything behind the page is as the firmware has left it. -/
def OutsideIntact (cfg : Setup) (m : Mem) : Prop := ∀ a, apbootLen ≤ offset a → m a = cfg.firstMb a

def Saved (cfg : Setup) (n : Nat) (backup : Nat → Byte) : Prop :=
  ∀ k < n, backup k = cfg.firstMb (Boot.apBootAddr + .ofNat 32 k)

/-- The low memory at each statement of the BSP. -/
def LowOk (cfg : Setup) (s : State) : Prop :=
  match s.bsp with
  | .apicBase => s.low = cfg.firstMb
  | .backup k => s.low = cfg.firstMb ∧ Saved cfg k s.pageBackup
  | .install k =>
      Saved cfg Boot.pageBackupSize s.pageBackup ∧ (∀ a, k ≤ offset a → s.low a = cfg.firstMb a) ∧
        ∀ a, offset a < k → cfg.apboot[offset a]? = some (s.low a)
  | .svr | .waitIdle =>
      Saved cfg Boot.pageBackupSize s.pageBackup ∧ OutsideIntact cfg s.low ∧ CodeIntact cfg s.low
  | .slot i k =>
      Saved cfg Boot.pageBackupSize s.pageBackup ∧ OutsideIntact cfg s.low ∧ CodeIntact cfg s.low ∧
        ∀ f ∈ (fields (cfg.vars i)).take (k - 2),
          Held s.low (Boot.apBootAddr + apBootVarOff + f.1) f.2.1 f.2.2
  | .restore k =>
      Saved cfg Boot.pageBackupSize s.pageBackup ∧ OutsideIntact cfg s.low ∧
        ∀ a, offset a < k → s.low a = cfg.firstMb a
  | .restoreBase | .returned => s.low = cfg.firstMb

theorem Held.storeField {a b v w : Word} (h : Held m a n v) (apart : Apart a n b k) :
    Held (Startup.storeField m b k w) a n v := by
  obtain ⟨h₁, h₂⟩ := apart
  intro j lt
  rw [storeField_apply (by bv_omega)]
  exact h j lt

/-- The offset and the size of each field. -/
def layout : List (Nat × Nat) :=
  [(0, 2), (2, 4), (6, 2), (8, 4), (12, 4), (16, 4), (20, 4), (24, 4), (28, 4), (32, 4)]

theorem fields_layout (vars : Boot.ApbootVars) :
    (fields vars).map (fun f => (f.1.toNat, f.2.1)) = layout := rfl

theorem field_layout {vars : Boot.ApbootVars} {f : Word × Nat × Word} (h : (fields vars)[j]? = some f) :
    layout[j]? = some (f.1.toNat, f.2.1) := by
  rw [← fields_layout vars, List.getElem?_map, h]
  rfl

theorem field_bounds {vars : Boot.ApbootVars} {f : Word × Nat × Word} (h : (fields vars)[j]? = some f) :
    0 < f.2.1 ∧ f.2.1 ≤ 4 ∧ f.1.toNat + f.2.1 ≤ 36 := by
  have all : ∀ e ∈ layout, 0 < e.2 ∧ e.2 ≤ 4 ∧ e.1 + e.2 ≤ 36 := by decide
  exact all _ (List.mem_of_getElem? (field_layout h))

/-- The fields lie one behind the other. -/
theorem fields_apart {vars : Boot.ApbootVars} {f g : Word × Nat × Word} (hf : (fields vars)[j]? = some f)
    (hg : (fields vars)[k]? = some g) (lt : j < k) :
    Apart (Boot.apBootAddr + apBootVarOff + f.1) f.2.1 (Boot.apBootAddr + apBootVarOff + g.1) g.2.1 := by
  have ordered : layout.Pairwise fun e e' => e.1 + e.2 ≤ e'.1 := by decide
  obtain ⟨hj, ej⟩ := List.getElem?_eq_some_iff.mp (field_layout hf)
  obtain ⟨hk, ek⟩ := List.getElem?_eq_some_iff.mp (field_layout hg)
  have behind := List.pairwise_iff_getElem.mp ordered j k hj hk lt
  rw [ej, ek] at behind
  obtain ⟨_, _, hfb⟩ := field_bounds hf
  obtain ⟨_, _, hgb⟩ := field_bounds hg
  dsimp only at behind
  constructor <;> bv_omega

theorem Saved.succ {backup : Nat → Byte} (saved : Saved cfg n backup) :
    Saved cfg (n + 1) (Function.update backup n (cfg.firstMb (Boot.apBootAddr + .ofNat 32 n))) := by
  intro k lt
  by_cases same : k = n
  · rw [same, Function.update_self]
  · rw [Function.update_of_ne same]
    exact saved k (by omega)

theorem set_apply {a b : Word} {v : Byte} (small : k < 2 ^ 32) (b_eq : b = Boot.apBootAddr + .ofNat 32 k)
    (m : Mem) : m.set b v a = if offset a = k then v else m a := by
  subst b_eq
  unfold Mem.set
  by_cases here : offset a = k
  · rw [if_pos here, if_pos (eq_of_offset here)]
  · rw [if_neg here, if_neg]
    rintro rfl
    exact here (offset_add small)

/-- A field is stored; those before it stay, and so does the rest of the page. -/
theorem fields_stored {f : Word × Nat × Word} {vars : Boot.ApbootVars} (found : (fields vars)[j]? = some f)
    (before : ∀ g ∈ (fields vars).take j, Held m (Boot.apBootAddr + apBootVarOff + g.1) g.2.1 g.2.2) :
    ∀ g ∈ (fields vars).take (j + 1),
      Held (storeField m (Boot.apBootAddr + apBootVarOff + f.1) f.2.1 f.2.2)
        (Boot.apBootAddr + apBootVarOff + g.1) g.2.1 g.2.2 := by
  intro g member
  rw [List.take_add_one, found] at member
  obtain earlier | last := List.mem_append.mp member
  · obtain ⟨l, lt, at_⟩ := List.mem_take_iff_getElem.mp earlier
    have here : (fields vars)[l]? = some g := List.getElem?_eq_some_iff.mpr ⟨by omega, at_⟩
    exact (before g earlier).storeField (fields_apart here found (by omega))
  · cases List.mem_singleton.mp last
    exact held_storeField (field_bounds found).2.1

theorem field_outside {f : Word × Nat × Word} {vars : Boot.ApbootVars} (found : (fields vars)[j]? = some f)
    {a v : Word} (outside : ¬ inVars a) :
    storeField m (Boot.apBootAddr + apBootVarOff + f.1) f.2.1 v a = m a := by
  apply storeField_apply
  obtain ⟨_, _, bound⟩ := field_bounds found
  unfold inVars offset at outside
  simp only [Boot.apBootAddr, apBootVarOff] at outside ⊢
  bv_omega

theorem not_inVars {a : Word} (far : apbootLen ≤ offset a) : ¬ inVars a := by
  rintro ⟨_, lt⟩
  unfold apbootLen at far
  omega

theorem CodeIntact.congr {m' : Mem} (code : CodeIntact cfg m)
    (same : ∀ a, ¬ inVars a → ¬ inFarJmp a → m' a = m a) : CodeIntact cfg m' := by
  intro a below vars jump
  rw [same a vars jump]
  exact code a below vars jump

theorem OutsideIntact.congr {m' : Mem} (rest : OutsideIntact cfg m)
    (same : ∀ a, apbootLen ≤ offset a → m' a = m a) : OutsideIntact cfg m' := by
  intro a far
  rw [same a far]
  exact rest a far

/-- The fields that are stored before statement `k + 1`, when statement `k` stores none. -/
theorem take_field {f : Word × Nat × Word} {vars : Boot.ApbootVars} (k_ : k < 2 ∨ 12 ≤ k)
    (member : f ∈ (fields vars).take (k + 1 - 2)) : f ∈ (fields vars).take (k - 2) := by
  obtain early | late := k_
  · rw [show k + 1 - 2 = 0 by omega] at member
    cases member
  · rw [List.take_of_length_le (by rw [fields_length]; omega)] at member ⊢
    exact member

theorem StmtAt.lowOk {x : Stmt} (h : StmtAt cfg i k x) (pc : s.bsp = .slot i k) (low : LowOk cfg s) :
    LowOk cfg (x.exec cfg s i (.slot i (k + 1))) := by
  have before := low
  simp only [LowOk, pc] at low
  obtain ⟨saved, rest, code, held⟩ := low
  have plain (k_ : k < 2 ∨ 12 ≤ k) {t : State} (backup : t.pageBackup = s.pageBackup) (same : t.low = s.low)
      (next : t.bsp = .slot i (k + 1)) : LowOk cfg t := by
    simp only [LowOk, next, backup, same]
    exact ⟨saved, rest, code, fun f member => held f (take_field k_ member)⟩
  cases h with
  | copyPd => exact plain (by decide) rfl rfl rfl
  | mapBoot => exact plain (by decide) rfl rfl rfl
  | field j f found =>
      refine ⟨saved, rest.congr fun a far => field_outside found (not_inVars far),
        code.congr fun a vars _ => field_outside found vars, ?_⟩
      rw [show j + 2 + 1 - 2 = j + 1 by omega]
      exact fields_stored found held
  | select _ k_ => exact plain (by omega) rfl rfl rfl
  | init => exact plain (by decide) rfl rfl rfl
  | deassert => exact plain (by decide) rfl rfl rfl
  | startup _ k_ => exact plain (by omega) rfl rfl rfl
  | clearErrors _ k_ => exact plain (by omega) rfl rfl rfl
  | delay _ k_ => exact plain (by omega) rfl rfl rfl
  | waitDelivery _ k_ =>
      simp only [Stmt.exec]
      split
      · exact before
      · exact plain (by omega) rfl rfl rfl
  | waitReady =>
      simp only [Stmt.exec]
      split
      · exact before
      · exact plain (by decide) rfl rfl rfl

theorem BspStep.lowOk (h : BspStep cfg s t) (low : LowOk cfg s) : LowOk cfg t := by
  cases h with
  | apicBase pc =>
      simp only [LowOk, pc] at low
      exact ⟨low, fun k lt => absurd lt (Nat.not_lt_zero k)⟩
  | backup k pc lt =>
      simp only [LowOk, pc] at low
      refine ⟨low.1, ?_⟩
      rw [low.1]
      exact low.2.succ
  | backedUp k pc le =>
      simp only [LowOk, pc] at low
      refine ⟨fun j lt => low.2 j (Nat.lt_of_lt_of_le lt le), fun a _ => congrFun low.1 a, fun a lt => ?_⟩
      exact absurd lt (Nat.not_lt_zero _)
  | install k b pc found =>
      simp only [LowOk, pc] at low
      obtain ⟨saved, above, below⟩ := low
      have inside : k < 2 ^ 32 := by
        have lt := (List.getElem?_eq_some_iff.mp found).1
        rw [cfg.apboot_len] at lt
        exact Nat.lt_trans lt (by decide)
      refine ⟨saved, fun a far => ?_, fun a near => ?_⟩
      · dsimp only
        rw [set_apply inside rfl, if_neg (by omega)]
        exact above a (by omega)
      · dsimp only
        rw [set_apply inside rfl]
        split
        · rename_i here
          rw [here, found]
        · exact below a (by omega)
  | installed k pc le =>
      simp only [LowOk, pc] at low
      obtain ⟨saved, above, below⟩ := low
      refine ⟨saved, fun a far => ?_, fun a near _ _ => below a (Nat.lt_of_lt_of_le near le)⟩
      by_cases stored : offset a < k
      · have within := (List.getElem?_eq_some_iff.mp (below a stored)).1
        rw [cfg.apboot_len] at within
        exact absurd within (Nat.not_lt.mpr far)
      · exact above a (Nat.le_of_not_lt stored)
  | svr pc =>
      simp only [LowOk, pc] at low
      exact low
  | poll _ _ => exact low
  | idle pc =>
      simp only [LowOk, pc] at low
      obtain ⟨saved, rest, code⟩ := low
      refine ⟨saved, rest, code, fun f member => ?_⟩
      cases member
  | past i k pc _ =>
      simp only [LowOk, pc] at low
      obtain ⟨saved, rest, _⟩ := low
      exact ⟨saved, rest, fun a lt => absurd lt (Nat.not_lt_zero _)⟩
  | skip i k pc _ _ =>
      simp only [LowOk, pc] at low
      obtain ⟨saved, rest, code, _⟩ := low
      refine ⟨saved, rest, code, fun f member => ?_⟩
      cases member
  | stmt i k x pc _ _ at_ => exact (slotCode_at at_).lowOk pc low
  | next i k pc _ _ _ =>
      simp only [LowOk, pc] at low
      obtain ⟨saved, rest, code, _⟩ := low
      refine ⟨saved, rest, code, fun f member => ?_⟩
      cases member
  | restore k pc lt =>
      simp only [LowOk, pc] at low
      obtain ⟨saved, rest, done⟩ := low
      have inside : k < 2 ^ 32 := Nat.lt_trans lt (by decide)
      have stored : ∀ a, s.low.set (Boot.apBootAddr + .ofNat 32 k) (s.pageBackup k) a =
          if offset a = k then cfg.firstMb a else s.low a := by
        intro a
        rw [set_apply inside rfl]
        split
        · rename_i here
          rw [saved k lt, eq_of_offset here]
        · rfl
      refine ⟨saved, fun a far => ?_, fun a near => ?_⟩
      · dsimp only
        rw [stored]
        split
        · rfl
        · exact rest a far
      · dsimp only
        rw [stored]
        split
        · rfl
        · exact done a (by omega)
  | restored k pc le =>
      simp only [LowOk, pc] at low
      obtain ⟨_, rest, done⟩ := low
      funext a
      by_cases near : offset a < k
      · exact done a near
      · refine rest a (Nat.le_trans ?_ (Nat.le_of_not_lt near))
        exact Nat.le_trans (by decide) le
  | restoreBase pc =>
      simp only [LowOk, pc] at low
      exact low

/-! ## The local APIC -/

/-- The message that may be in flight at statement `k`. -/
def pending (k : Nat) : Option Ipi :=
  if k = 14 then some .init
  else if k = 17 then some .initDeassert
  else if k = 22 ∨ k = 23 ∨ k = 27 ∨ k = 28 then some (.startup 8)
  else none

/-- Messages go to the slot that the loop has come to, one at a time. -/
structure ApicOk (cfg : Setup) (s : State) : Prop where
  flight : ∀ d ipi, s.flight = some (d, ipi) →
    ∃ k, s.bsp = .slot d k ∧ d ≤ cfg.ttableMax ∧ cfg.registered d = true ∧ pending k = some ipi
  icrHigh : ∀ i k, s.bsp = .slot i k → 13 ≤ k → (s.icrHigh >>> 24).toNat = i
  icrLow : ∀ i k, s.bsp = .slot i k → 17 ≤ k → s.icrLow &&& 0x800 = 0

theorem icr_pending (s : State) : s.icr &&& 0x1000 ≠ 0 ↔ s.flight.isSome = true := by
  have bit : s.icr &&& 0x1000 = if s.flight.isSome then 0x1000 else 0 := by
    unfold State.icr
    split <;>
    · ext i lt
      simp only [BitVec.getElem_and, BitVec.getElem_or, BitVec.getElem_not]
      interval_cases i <;> simp
  rw [bit]
  split
  · simp_all
  · simp_all

theorem masked_or {x keep v mask : Word} (apart : keep &&& mask = 0) :
    ((x &&& keep) ||| v) &&& mask = v &&& mask := by
  rw [BitVec.and_or_distrib_right, BitVec.and_assoc, apart]
  simp

theorem low_byte {x keep v : Word} (apart : keep.setWidth 8 = 0#8) :
    ((x &&& keep) ||| v).setWidth 8 = v.setWidth 8 := by
  rw [BitVec.setWidth_or, BitVec.setWidth_and, apart]
  simp

theorem decode_init (x : Word) : Ipi.decode ((x &&& 0xfff00000) ||| 0x00C500) = .init := by
  unfold Ipi.decode
  rw [masked_or (by decide), masked_or (by decide), masked_or (by decide)]
  rfl

theorem decode_deassert (x : Word) : Ipi.decode ((x &&& 0xfff00000) ||| 0x008500) = .initDeassert := by
  unfold Ipi.decode
  rw [masked_or (by decide), masked_or (by decide), masked_or (by decide)]
  rfl

/-- The mask of the start-up message keeps the bit of a logical destination. -/
theorem startup_logical {x : Word} (physical : x &&& 0x800 = 0) :
    ((x &&& 0xfff0f800) ||| 0x000608) &&& 0xC0800 = 0 := by
  rw [BitVec.and_or_distrib_right, BitVec.and_assoc, show (0xfff0f800 : Word) &&& 0xC0800 = 0x800 from rfl,
    physical]
  decide

theorem decode_startup {x : Word} (physical : x &&& 0x800 = 0) :
    Ipi.decode ((x &&& 0xfff0f800) ||| 0x000608) = .startup 8 := by
  unfold Ipi.decode
  rw [startup_logical physical, masked_or (by decide), low_byte (by decide)]
  rfl

theorem select_dest (x : Word) (small : i < 256) :
    (((x &&& (0x00ffffff : Word)) ||| (BitVec.ofNat 32 i <<< 24)) >>> 24).toNat = i := by
  have low : (x &&& (0x00ffffff : Word)) >>> 24 = 0#32 := by
    ext k lt
    simp only [BitVec.getElem_ushiftRight, BitVec.getLsbD_and]
    interval_cases k <;> simp
  have high : ((BitVec.ofNat 32 i <<< 24) >>> 24).toNat = i := by
    simp only [BitVec.toNat_ushiftRight, BitVec.toNat_shiftLeft, BitVec.toNat_ofNat, Nat.shiftLeft_eq,
      Nat.shiftRight_eq_div_pow]
    omega
  rw [BitVec.ushiftRight_or_distrib, low, BitVec.zero_or]
  exact high

theorem icr_physical (s : State) : s.icr &&& 0x800 = s.icrLow &&& 0x800 := by
  unfold State.icr
  split <;>
  · ext i lt
    simp only [BitVec.getElem_and, BitVec.getElem_or, BitVec.getElem_not]
    interval_cases i <;> simp

/-- A statement that sends nothing and leaves the command register alone. -/
theorem ApicOk.quiet (ok : ApicOk cfg s) (pc : s.bsp = .slot i k) (next : t.bsp = .slot i (k + 1))
    (none : s.flight = none ∨ pending (k + 1) = pending k) (flight : t.flight = s.flight)
    (icrLow : t.icrLow = s.icrLow) (icrHigh : t.icrHigh = s.icrHigh) (not13 : k ≠ 12) (not17 : k ≠ 16) :
    ApicOk cfg t where
  flight d ipi sent := by
    rw [flight] at sent
    obtain ⟨k', pc', within, reg, here⟩ := ok.flight d ipi sent
    cases pc.symm.trans pc'
    obtain none | same := none
    · cases none.symm.trans sent
    · exact ⟨k + 1, next, within, reg, same.trans here⟩
  icrHigh i' k' pc' le := by
    cases next.symm.trans pc'
    rw [icrHigh]
    exact ok.icrHigh i k pc (by omega)
  icrLow i' k' pc' le := by
    cases next.symm.trans pc'
    rw [icrLow]
    exact ok.icrLow i k pc (by omega)

theorem ApicOk.idle (ok : ApicOk cfg s) (pc : s.bsp = .slot i k) (no : pending k = none) :
    s.flight = none := by
  cases f : s.flight with
  | none => rfl
  | some m =>
      obtain ⟨k', pc', _, _, sent⟩ := ok.flight m.1 m.2 f
      cases pc.symm.trans pc'
      cases no.symm.trans sent

/-- A message is sent to the slot. -/
theorem ApicOk.sent {ipi : Ipi} (ok : ApicOk cfg s) (pc : s.bsp = .slot i k)
    (next : t.bsp = .slot i (k + 1))
    (within : i ≤ cfg.ttableMax) (reg : cfg.registered i = true) (late : 13 ≤ k)
    (flight : t.flight = some ((s.icrHigh >>> 24).toNat, ipi)) (expected : pending (k + 1) = some ipi)
    (icrHigh : t.icrHigh = s.icrHigh) (physical : 16 ≤ k → t.icrLow &&& 0x800 = 0) : ApicOk cfg t where
  flight d ipi' sent := by
    cases flight.symm.trans sent
    rw [ok.icrHigh i k pc late]
    exact ⟨k + 1, next, within, reg, expected⟩
  icrHigh i' k' pc' le := by
    cases next.symm.trans pc'
    rw [icrHigh]
    exact ok.icrHigh i k pc late
  icrLow i' k' pc' le := by
    cases next.symm.trans pc'
    exact physical (by omega)

theorem StmtAt.apicOk {x : Stmt} (h : StmtAt cfg i k x) (pc : s.bsp = .slot i k)
    (within : i ≤ cfg.ttableMax) (reg : cfg.registered i = true) (ok : ApicOk cfg s) :
    ApicOk cfg (x.exec cfg s i (.slot i (k + 1))) := by
  cases h with
  | copyPd => exact ok.quiet pc rfl (.inr rfl) rfl rfl rfl (by decide) (by decide)
  | mapBoot => exact ok.quiet pc rfl (.inr rfl) rfl rfl rfl (by decide) (by decide)
  | field j f found =>
      have below : j < 10 := (List.getElem?_eq_some_iff.mp found).1
      have silent : ∀ l < 13, pending l = none := by decide
      refine ok.quiet pc rfl (.inr ?_) rfl rfl rfl (by omega) (by omega)
      rw [silent _ (by omega), silent _ (by omega)]
  | select _ k_ =>
      have idle : s.flight = none := ok.idle pc (by obtain rfl | rfl | rfl | rfl := k_ <;> rfl)
      refine ⟨fun d ipi sent => ?_, fun i' k' pc' _ => ?_, fun i' k' pc' le => ?_⟩
      · cases idle.symm.trans sent
      · cases pc'
        exact select_dest s.icrHigh (Nat.lt_of_le_of_lt within cfg.ttableMax_lt)
      · cases pc'
        exact ok.icrLow i k pc (by omega)
  | init =>
      have expected : pending 14 = some .init := rfl
      refine ok.sent pc rfl within reg (by decide) ?_ expected rfl (by omega)
      simp only [Stmt.exec, decode_init]
  | deassert =>
      have expected : pending 17 = some .initDeassert := rfl
      refine ok.sent pc rfl within reg (by decide) ?_ expected rfl fun _ => ?_
      · simp only [Stmt.exec, decode_deassert]
      · exact masked_or (by decide)
  | startup _ k_ =>
      have late : 17 ≤ k := by omega
      have physical : s.icr &&& 0x800 = 0 := (icr_physical s).trans (ok.icrLow i k pc late)
      have expected : pending (k + 1) = some (.startup 8) := by obtain rfl | rfl := k_ <;> rfl
      refine ok.sent pc rfl within reg (by omega) ?_ expected rfl fun _ => ?_
      · simp only [Stmt.exec, decode_startup physical]
      · simp only [Stmt.exec]
        rw [BitVec.and_or_distrib_right, BitVec.and_assoc,
          show (0xfff0f800 : Word) &&& 0x800 = 0x800 from rfl,
          physical]
        rfl
  | clearErrors _ k_ =>
      refine ok.quiet pc rfl (.inr ?_) rfl rfl rfl (by omega) (by omega)
      obtain rfl | rfl := k_ <;> rfl
  | delay _ k_ =>
      refine ok.quiet pc rfl (.inr ?_) rfl rfl rfl (by omega) (by omega)
      obtain rfl | rfl | rfl := k_ <;> rfl
  | waitDelivery _ k_ =>
      simp only [Stmt.exec]
      split
      · exact ok
      · rename_i delivered
        rw [icr_pending, Bool.not_eq_true, Option.isSome_eq_false_iff,
          Option.isNone_iff_eq_none] at delivered
        exact ok.quiet pc rfl (.inl delivered) rfl rfl rfl (by omega) (by omega)
  | waitReady =>
      simp only [Stmt.exec]
      split
      · exact ok
      · exact ok.quiet pc rfl (.inr rfl) rfl rfl rfl (by decide) (by decide)

/-- A step between two slots, or outside of the loop. -/
theorem ApicOk.between (idle : s.flight = none) (flight : t.flight = s.flight)
    (next : ∀ i k, t.bsp = .slot i k → k = 0) : ApicOk cfg t where
  flight d ipi sent := by
    cases (flight.trans idle).symm.trans sent
  icrHigh i k pc le := by
    cases next i k pc
    cases le
  icrLow i k pc le := by
    cases next i k pc
    cases le

theorem ApicOk.none_of (ok : ApicOk cfg s)
    (away : ∀ d k, s.bsp = .slot d k → d ≤ cfg.ttableMax → cfg.registered d = true → pending k = none) :
    s.flight = none := by
  cases f : s.flight with
  | none => rfl
  | some m =>
      obtain ⟨k, pc, within, reg, sent⟩ := ok.flight m.1 m.2 f
      cases (away m.1 k pc within reg).symm.trans sent

theorem pending_late (le : slotLength ≤ k) : pending k = none := by
  unfold slotLength at le
  unfold pending
  rw [if_neg (by omega), if_neg (by omega), if_neg (by omega)]

theorem BspStep.apicOk (h : BspStep cfg s t) (ok : ApicOk cfg s) : ApicOk cfg t := by
  cases h with
  | stmt i k x pc within reg at_ => exact (slotCode_at at_).apicOk pc within reg ok
  | poll _ _ => exact ok
  | past i k pc past =>
      refine .between (ok.none_of fun d k' pc' within _ => ?_) rfl (by rintro i k ⟨⟩)
      cases pc.symm.trans pc'
      exact absurd past (Nat.not_lt.mpr within)
  | skip i k pc _ unregistered =>
      refine .between (ok.none_of fun d k' pc' _ reg => ?_) rfl (by rintro i k ⟨⟩; rfl)
      cases pc.symm.trans pc'
      cases unregistered.symm.trans reg
  | next i k pc _ _ le =>
      refine .between (ok.none_of fun d k' pc' _ _ => ?_) rfl (by rintro i k ⟨⟩; rfl)
      cases pc.symm.trans pc'
      exact pending_late le
  | idle pc =>
      refine .between (ok.none_of fun d k' pc' => ?_) rfl (by rintro i k ⟨⟩; rfl)
      cases pc.symm.trans pc'
  | apicBase pc | backup _ pc _ | backedUp _ pc _ | install _ _ pc _ | installed _ pc _ | svr pc
  | restore _ pc _ | restored _ pc _ | restoreBase pc =>
      refine .between (ok.none_of fun d k' pc' => ?_) rfl (by rintro i k ⟨⟩)
      cases pc.symm.trans pc'

/-! ## The processors -/

/-- How far a processor may have come. -/
inductive Stage where
  | firmware
  | waiting
  | started
  | done
  deriving DecidableEq

/-- The stage of the AP whose slot the loop has come to, by its statement, and whether a
message is on its way. -/
def progress (k : Nat) (sent : Bool) : Stage :=
  if k ≤ 13 ∨ k = 14 ∧ sent = true then .firmware
  else if k ≤ 21 ∨ k ≤ 23 ∧ sent = true then .waiting
  else if k < slotLength then .started
  else .done

def stage (cfg : Setup) (s : State) (j : Nat) : Stage :=
  if cfg.ttableMax < j ∨ cfg.registered j = false then .firmware
  else match s.bsp with
    | .slot i k => if j < i then .done else if i < j then .firmware else progress k s.flight.isSome
    | .restore _ | .restoreBase | .returned => .done
    | _ => .firmware

/-- The processor has executed some of the boot code, alone, with the variables of slot `j`. -/
def Booting (cfg : Setup) (s : State) (j : Nat) : Prop :=
  ∃ n m c, (s.cpu j).pc = .boot n ∧ n < bootCode.length ∧ Stored m (cfg.vars j) ∧
    c.cr0 &&& 0x9FFFFFFF = 0x10 ∧ c.pc = .waitSipi ∧
    (s.low, { s.cpu j with pc := .waitSipi }) = bootRun n (m, c)

def Reached (cfg : Setup) (s : State) (j : Nat) : Stage → Prop
  | .firmware => (s.cpu j).pc = .halted ∧ s.status j = .busy
  | .waiting => (s.cpu j).pc = .waitSipi ∧ (s.cpu j).cr0 &&& 0x9FFFFFFF = 0x10 ∧ s.status j = .busy
  | .started =>
      Booting cfg s j ∧ s.status j = .busy ∨
        Entered cfg j (s.cpu j) ∧
          ((s.cpu j).pc = .kernelBoot ∧ s.status j = .busy ∨ (s.cpu j).pc = .running ∧ s.status j = .ready)
  | .done => Entered cfg j (s.cpu j) ∧ (s.cpu j).pc = .running ∧ s.status j = .ready

theorem stage_started (h : stage cfg s j = .started) :
    j ≤ cfg.ttableMax ∧ cfg.registered j = true ∧ ∃ k, s.bsp = .slot j k ∧ 22 ≤ k ∧ k < slotLength := by
  unfold stage at h
  split at h
  · cases h
  · rename_i known
    obtain ⟨within, reg⟩ := not_or.mp known
    refine ⟨Nat.le_of_not_lt within, by simpa using reg, ?_⟩
    split at h
    · rename_i i k pc
      split at h
      · cases h
      · split at h
        · cases h
        · obtain rfl : i = j := by omega
          unfold progress at h
          split at h
          · cases h
          · split at h
            · cases h
            · split at h
              · exact ⟨k, pc, by omega, ‹_›⟩
              · cases h
    · cases h
    · cases h
    · cases h
    · cases h

theorem stage_slot (pc : s.bsp = .slot i k) (within : i ≤ cfg.ttableMax) (reg : cfg.registered i = true) :
    stage cfg s i = progress k s.flight.isSome := by
  unfold stage
  rw [if_neg (by simp [reg, within]), pc]
  simp

/-- The stage of the others does not depend on the statement of the slot. -/
theorem stage_other (pc : s.bsp = .slot i k) (pc' : t.bsp = .slot i n) (ne : j ≠ i) :
    stage cfg t j = stage cfg s j := by
  unfold stage
  rw [pc, pc']
  split
  · rfl
  · obtain lt | gt := Nat.lt_or_gt_of_ne ne
    · simp [lt]
    · simp [gt, Nat.lt_asymm gt]

/-- What a processor has reached stays so when nothing of it changes. -/
theorem Reached.congr {x : Stage} (h : Reached cfg s j x) (cpu : t.cpu j = s.cpu j)
    (status : t.status j = s.status j) (low : x = .started → t.low = s.low) : Reached cfg t j x := by
  cases x with
  | started =>
      simp only [Reached, Booting] at h ⊢
      rw [cpu, status, low rfl]
      exact h
  | _ =>
      simp only [Reached] at h ⊢
      rw [cpu, status]
      exact h

/-- No statement for a slot but the last one moves the AP to another stage. -/
theorem StmtAt.progress {x : Stmt} (h : StmtAt cfg i k x) :
    x.exec cfg s i (.slot i (k + 1)) = s ∨
      (x.exec cfg s i (.slot i (k + 1))).bsp = .slot i (k + 1) ∧
        (Startup.progress (k + 1) (x.exec cfg s i (.slot i (k + 1))).flight.isSome =
            Startup.progress k s.flight.isSome ∨
          k = 29 ∧ s.status i ≠ .busy) := by
  cases h with
  | waitDelivery _ k_ =>
      simp only [Stmt.exec]
      split
      · exact .inl rfl
      · rename_i delivered
        rw [icr_pending, Bool.not_eq_true] at delivered
        refine .inr ⟨rfl, .inl ?_⟩
        dsimp only
        rw [delivered]
        obtain rfl | rfl | rfl | rfl := k_ <;> rfl
  | waitReady =>
      simp only [Stmt.exec]
      split
      · exact .inl rfl
      · exact .inr ⟨rfl, .inr ⟨trivial, ‹_›⟩⟩
  | field j f found =>
      have below : j < 10 := (List.getElem?_eq_some_iff.mp found).1
      refine .inr ⟨rfl, .inl ?_⟩
      unfold Startup.progress
      rw [if_pos (.inl (by omega)), if_pos (.inl (by omega))]
  | copyPd => exact .inr ⟨rfl, .inl rfl⟩
  | mapBoot => exact .inr ⟨rfl, .inl rfl⟩
  | select _ k_ =>
      refine .inr ⟨rfl, .inl ?_⟩
      obtain rfl | rfl | rfl | rfl := k_ <;> rfl
  | init => exact .inr ⟨rfl, .inl rfl⟩
  | deassert => exact .inr ⟨rfl, .inl rfl⟩
  | startup _ k_ =>
      refine .inr ⟨rfl, .inl ?_⟩
      obtain rfl | rfl := k_ <;> rfl
  | clearErrors _ k_ =>
      refine .inr ⟨rfl, .inl ?_⟩
      obtain rfl | rfl := k_ <;> rfl
  | delay _ k_ =>
      refine .inr ⟨rfl, .inl ?_⟩
      dsimp only [Stmt.exec]
      obtain rfl | rfl | rfl := k_ <;> cases s.flight.isSome <;> rfl

theorem StmtAt.frame {x : Stmt} (h : StmtAt cfg i k x) :
    (x.exec cfg s i (.slot i (k + 1))).cpu = s.cpu ∧ (x.exec cfg s i (.slot i (k + 1))).status = s.status ∧
      (12 ≤ k → (x.exec cfg s i (.slot i (k + 1))).low = s.low) := by
  cases h with
  | field j f found =>
      have below : j < 10 := (List.getElem?_eq_some_iff.mp found).1
      exact ⟨rfl, rfl, fun le => by omega⟩
  | waitDelivery _ _ =>
      simp only [Stmt.exec]
      split <;> simp
  | waitReady =>
      simp only [Stmt.exec]
      split <;> simp
  | _ => exact ⟨rfl, rfl, fun _ => rfl⟩

theorem StmtAt.reached {x : Stmt} (h : StmtAt cfg i k x) (pc : s.bsp = .slot i k)
    (within : i ≤ cfg.ttableMax)
    (reg : cfg.registered i = true) (reached : ∀ j, Reached cfg s j (stage cfg s j)) (j : Nat) :
    Reached cfg (x.exec cfg s i (.slot i (k + 1))) j (stage cfg (x.exec cfg s i (.slot i (k + 1))) j) := by
  obtain ⟨cpu, status, low⟩ := h.frame (s := s)
  obtain same | ⟨next, stays⟩ := h.progress (s := s)
  · rw [same]
    exact reached j
  · by_cases here : j = i
    · subst here
      have before := reached j
      rw [stage_slot pc within reg] at before
      rw [stage_slot next within reg]
      obtain same | ⟨rfl, ready⟩ := stays
      · rw [same]
        refine before.congr (congrFun cpu j) (congrFun status j) fun started => low ?_
        have stage : stage cfg s j = .started := (stage_slot pc within reg).trans started
        obtain ⟨_, _, k', pc', le, _⟩ := stage_started stage
        cases pc.symm.trans pc'
        omega
      · obtain ⟨_, busy⟩ | ⟨entered, ⟨_, busy⟩ | running⟩ := before
        · exact absurd busy ready
        · exact absurd busy ready
        · have after : Reached cfg s j .done := ⟨entered, running⟩
          exact after.congr (congrFun cpu j) (congrFun status j) (by rintro ⟨⟩)
    · rw [stage_other pc next here]
      refine (reached j).congr (congrFun cpu j) (congrFun status j) fun started => ?_
      obtain ⟨_, _, k', pc', _⟩ := stage_started started
      cases pc.symm.trans pc'
      exact absurd rfl here

theorem progress_late {sent : Bool} (le : slotLength ≤ k) : progress k sent = .done := by
  unfold slotLength at le
  unfold progress slotLength
  rw [if_neg (by omega), if_neg (by omega), if_neg (by omega)]

/-- The loop goes on to the next slot. -/
theorem stage_next {p q : Bool} (ne : j ≠ i) :
    (if j < i then Stage.done else if i < j then .firmware else progress k p) =
      if j < i + 1 then .done else if i + 1 < j then .firmware else progress 0 q := by
  obtain lt | gt := Nat.lt_or_gt_of_ne ne
  · rw [if_pos lt, if_pos (by omega)]
  · rw [if_neg (by omega), if_pos gt, if_neg (by omega)]
    split
    · rfl
    · rfl

/-- Between two slots nobody is in the boot code. -/
theorem Reached.between (reached : Reached cfg s j (stage cfg s j)) (same : stage cfg t j = stage cfg s j)
    (away : stage cfg s j ≠ .started) (cpu : t.cpu = s.cpu) (status : t.status = s.status) :
    Reached cfg t j (stage cfg t j) := by
  rw [same]
  exact reached.congr (congrFun cpu j) (congrFun status j) fun started => absurd started away

theorem BspStep.reached (h : BspStep cfg s t) (reached : ∀ j, Reached cfg s j (stage cfg s j))
    (j : Nat) : Reached cfg t j (stage cfg t j) := by
  have away (not : ∀ i k, s.bsp = .slot i k →
      i ≤ cfg.ttableMax → cfg.registered i = true → slotLength ≤ k) :
      stage cfg s j ≠ .started := by
    intro started
    obtain ⟨within, reg, k, pc, _, lt⟩ := stage_started started
    exact absurd lt (Nat.not_lt.mpr (not j k pc within reg))
  cases h with
  | stmt i k x pc within reg at_ => exact (slotCode_at at_).reached pc within reg reached j
  | poll _ _ => exact reached j
  | past i k pc past =>
      refine (reached j).between ?_ (away ?_) rfl rfl
      · unfold stage
        rw [pc]
        split
        · rfl
        · dsimp only
          rw [if_pos (by omega)]
      · intro i' k' pc' within _
        cases pc.symm.trans pc'
        exact absurd past (Nat.not_lt.mpr within)
  | skip i k pc within unregistered =>
      refine (reached j).between ?_ (away ?_) rfl rfl
      · unfold stage
        rw [pc]
        split
        · rfl
        · rename_i known
          have ne : j ≠ i := by
            rintro rfl
            exact known (.inr unregistered)
          exact (stage_next ne).symm
      · intro i' k' pc' _ reg
        cases pc.symm.trans pc'
        cases unregistered.symm.trans reg
  | next i k pc within reg le =>
      refine (reached j).between ?_ (away ?_) rfl rfl
      · unfold stage
        rw [pc]
        split
        · rfl
        · dsimp only
          by_cases same : j = i
          · subst same
            rw [if_pos (by omega), if_neg (by omega), if_neg (by omega), progress_late le]
          · exact (stage_next same).symm
      · intro i' k' pc' _ _
        cases pc.symm.trans pc'
        exact le
  | idle pc =>
      refine (reached j).between ?_ (away ?_) rfl rfl
      · unfold stage
        rw [pc]
        split
        · rfl
        · dsimp only
          rw [if_neg (by omega)]
          split
          · rfl
          · rfl
      · intro i k pc'
        cases pc.symm.trans pc'
  | apicBase pc | backup _ pc _ | backedUp _ pc _ | install _ _ pc _ | installed _ pc _ | svr pc
  | restore _ pc _ | restored _ pc _ | restoreBase pc =>
      refine (reached j).between ?_ (away ?_) rfl rfl
      · unfold stage
        rw [pc]
      · intro i k pc'
        cases pc.symm.trans pc'

/-! ## Steps of the processors and of the APIC -/

theorem Entered.withPc (h : Entered cfg i c) (pc : CpuPc) : Entered cfg i { c with pc := pc } :=
  ⟨h.eip, h.ecx, h.esp, h.esi, h.edi, h.edx, h.cr3, h.gdtr, h.idtr, h.seg, h.tr, h.cr0⟩

/-- The one store of the boot code goes to its last jump. -/
theorem bootCode_mem {instr : BootInstr} (h : bootCode[n]? = some instr) (m : Mem) (c : Cpu) {a : Word}
    (outside : ¬ inFarJmp a) : (instr.exec (m, c)).1 a = m a := by
  have below : n < 38 := (List.getElem?_eq_some_iff.mp h).1
  have shape : (∀ m c, (instr.exec (m, c)).1 = m) ∨ instr = .store farJmpAddress .ecx := by
    interval_cases n <;> cases h <;> first | exact .inr rfl | exact .inl fun _ _ => rfl
  obtain same | rfl := shape
  · rw [same]
  · exact Mem.write_apply (Nat.le_of_not_lt outside)

theorem farJmp_offset {a : Word} (h : inFarJmp a) : 0x148 ≤ offset a ∧ offset a < 0x14C := by
  unfold inFarJmp farJmpAddress at h
  unfold offset Boot.apBootAddr
  constructor <;> bv_omega

theorem LowOk.farJmp (low : LowOk cfg s) (pc : s.bsp = .slot i k) (next : t.bsp = .slot i k)
    (backup : t.pageBackup = s.pageBackup) (same : ∀ a, ¬ inFarJmp a → t.low a = s.low a) :
    LowOk cfg t := by
  simp only [LowOk, pc] at low
  obtain ⟨saved, rest, code, held⟩ := low
  simp only [LowOk, next, backup]
  refine ⟨saved, rest.congr fun a far => same a fun jump => ?_, code.congr fun a _ jump => same a jump,
    fun f member j lt => ?_⟩
  · have bound := (farJmp_offset jump).2
    unfold apbootLen at far
    omega
  · rw [same _ fun jump => ?_]
    · exact held f member j lt
    · obtain ⟨l, found⟩ := List.mem_iff_getElem?.mp (List.mem_of_mem_take member)
      obtain ⟨_, _, bound⟩ := field_bounds found
      have past := (farJmp_offset jump).2
      unfold offset at past
      simp only [Boot.apBootAddr, apBootVarOff] at past
      bv_omega

theorem Stored.of_lowOk (low : LowOk cfg s) (pc : s.bsp = .slot i k) (late : 12 ≤ k) :
    Stored s.low (cfg.vars i) := by
  simp only [LowOk, pc] at low
  obtain ⟨_, _, _, held⟩ := low
  intro f member
  refine held f ?_
  rwa [List.take_of_length_le (by rw [fields_length]; omega)]

/-- A processor that executes is the one whose slot the loop has come to. -/
theorem executing (reached : Reached cfg s i (stage cfg s i)) (halted : (s.cpu i).pc ≠ .halted)
    (waits : (s.cpu i).pc ≠ .waitSipi) (running : (s.cpu i).pc ≠ .running) : stage cfg s i = .started := by
  cases here : stage cfg s i with
  | started => rfl
  | firmware =>
      rw [here] at reached
      exact absurd reached.1 halted
  | waiting =>
      rw [here] at reached
      exact absurd reached.1 waits
  | done =>
      rw [here] at reached
      exact absurd reached.2.1 running

theorem stage_same (bsp : t.bsp = s.bsp) (flight : t.flight.isSome = s.flight.isSome) :
    stage cfg t j = stage cfg s j := by
  unfold stage
  rw [bsp, flight]

theorem CpuStep.frame (h : CpuStep cfg s i t) :
    (t.bsp = s.bsp ∧ t.flight = s.flight ∧ t.pageBackup = s.pageBackup ∧ t.icrHigh = s.icrHigh ∧
        t.icrLow = s.icrLow ∧ t.pd = s.pd ∧ t.msr = s.msr ∧ t.apicBase = s.apicBase) ∧
      ∀ j, j ≠ i → t.cpu j = s.cpu j ∧ t.status j = s.status j := by
  cases h with
  | boot n instr _ _ =>
      exact ⟨⟨rfl, rfl, rfl, rfl, rfl, rfl, rfl, rfl⟩, fun j ne => ⟨Function.update_of_ne ne _ _, rfl⟩⟩
  | kernelBoot _ =>
      exact ⟨⟨rfl, rfl, rfl, rfl, rfl, rfl, rfl, rfl⟩,
        fun j ne => ⟨Function.update_of_ne ne _ _, Function.update_of_ne ne _ _⟩⟩

theorem CpuStep.started (h : CpuStep cfg s i t) (reached : Reached cfg s i (stage cfg s i)) :
    stage cfg s i = .started := by
  have pc : (s.cpu i).pc = .kernelBoot ∨ ∃ n, (s.cpu i).pc = .boot n := by
    cases h with
    | boot n instr pc _ => exact .inr ⟨n, pc⟩
    | kernelBoot pc => exact .inl pc
  refine executing reached ?_ ?_ ?_ <;>
  · obtain pc | ⟨n, pc⟩ := pc <;> simp [pc]

theorem CpuStep.lowOk (h : CpuStep cfg s i t) (reached : Reached cfg s i (stage cfg s i))
    (low : LowOk cfg s) :
    LowOk cfg t := by
  obtain ⟨⟨bsp, _, backup, _⟩, _⟩ := h.frame
  obtain ⟨_, _, k, pc, _⟩ := stage_started (h.started reached)
  refine low.farJmp pc (bsp.trans pc) backup fun a outside => ?_
  cases h with
  | boot n instr _ found => exact bootCode_mem found s.low (s.cpu i) outside
  | kernelBoot _ => rfl

/-- The next instruction of the boot code. -/
theorem Booting.next {instr : BootInstr} (booting : Booting cfg s i) (pc : (s.cpu i).pc = .boot n)
    (found : bootCode[n]? = some instr) :
    ∃ m c, Stored m (cfg.vars i) ∧ c.cr0 &&& 0x9FFFFFFF = 0x10 ∧ c.pc = .waitSipi ∧
      ((instr.exec (s.low, s.cpu i)).1, { (instr.exec (s.low, s.cpu i)).2 with pc := .waitSipi }) =
        bootRun (n + 1) (m, c) := by
  obtain ⟨n', m, c, pc', _, stored, cr0, waits, run⟩ := booting
  cases pc.symm.trans pc'
  refine ⟨m, c, stored, cr0, waits, ?_⟩
  rw [bootRun_succ found, ← run]
  exact (exec_pc instr s.low (s.cpu i) .waitSipi).symm

theorem CpuStep.reached (h : CpuStep cfg s i t) (reached : ∀ j, Reached cfg s j (stage cfg s j)) (j : Nat) :
    Reached cfg t j (stage cfg t j) := by
  have started := h.started (reached i)
  obtain ⟨⟨bsp, flight, _⟩, others⟩ := h.frame
  rw [stage_same bsp (by rw [flight])]
  by_cases same : j = i
  · subst same
    have before := reached j
    rw [started] at before ⊢
    cases h with
    | boot n instr pc found =>
        obtain ⟨booting, busy⟩ | ⟨_, ⟨pc', _⟩ | ⟨pc', _⟩⟩ := before
        · obtain ⟨m, c, stored, cr0, waits, run⟩ := booting.next pc found
          by_cases more : n + 1 < bootCode.length
          · refine .inl ⟨⟨n + 1, m, c, ?_, more, stored, cr0, waits, ?_⟩, busy⟩
            · simp [State.setCpu, more]
            · simpa [State.setCpu] using run
          · have last : n + 1 = bootCode.length :=
              Nat.le_antisymm (List.getElem?_eq_some_iff.mp found).1 (Nat.le_of_not_lt more)
            have entered := boot_enters (c := c) stored cr0
            rw [← last, ← run] at entered
            refine .inr ⟨?_, .inl ⟨?_, busy⟩⟩
            · simpa [State.setCpu] using entered.withPc _
            · have eip : (instr.exec (s.low, s.cpu j)).2.eip = cfg.kernelFlat := entered.eip
              simp [State.setCpu, more, eip]
        · cases pc.symm.trans pc'
        · cases pc.symm.trans pc'
    | kernelBoot pc =>
        obtain ⟨⟨n, m, c, pc', _⟩, _⟩ | ⟨entered, _⟩ := before
        · cases pc.symm.trans pc'
        · refine .inr ⟨?_, .inr ⟨?_, ?_⟩⟩
          · simpa [State.setCpu] using entered.withPc .running
          · simp [State.setCpu]
          · simp
  · refine (reached j).congr (others j same).1 (others j same).2 fun too => ?_
    obtain ⟨_, _, k, pc, _⟩ := stage_started started
    obtain ⟨_, _, k', pc', _⟩ := stage_started too
    cases pc.symm.trans pc'
    exact absurd rfl same

theorem pending_cases {ipi : Ipi} (h : pending k = some ipi) :
    k = 14 ∧ ipi = .init ∨ k = 17 ∧ ipi = .initDeassert ∨ (k = 22 ∨ k = 23) ∧ ipi = .startup 8 ∨
      (k = 27 ∨ k = 28) ∧ ipi = .startup 8 := by
  unfold pending at h
  split at h
  · cases h
    exact .inl ⟨‹_›, rfl⟩
  · split at h
    · cases h
      exact .inr (.inl ⟨‹_›, rfl⟩)
    · split at h
      · rename_i k_
        cases h
        obtain rfl | rfl | rfl | rfl := k_
        · exact .inr (.inr (.inl ⟨.inl rfl, rfl⟩))
        · exact .inr (.inr (.inl ⟨.inr rfl, rfl⟩))
        · exact .inr (.inr (.inr ⟨.inl rfl, rfl⟩))
        · exact .inr (.inr (.inr ⟨.inr rfl, rfl⟩))
      · cases h

/-- What the arrival of a message changes. -/
structure Arrival (s t : State) (d : Nat) (ipi : Ipi) : Prop where
  sent : s.flight = some (d, ipi)
  flight : t.flight = none
  cpu : t.cpu = Function.update s.cpu d ((s.cpu d).accept ipi)
  low : t.low = s.low
  status : t.status = s.status
  bsp : t.bsp = s.bsp
  pageBackup : t.pageBackup = s.pageBackup
  icr : t.icrHigh = s.icrHigh ∧ t.icrLow = s.icrLow
  rest : t.pd = s.pd ∧ t.msr = s.msr ∧ t.apicBase = s.apicBase

theorem deliverStep_outcome (h : deliverStep s = some t) : ∃ d ipi, Arrival s t d ipi := by
  unfold deliverStep at h
  split at h
  · rename_i d ipi sent
    cases h
    exact ⟨d, ipi, sent, rfl, rfl, rfl, rfl, rfl, rfl, ⟨rfl, rfl⟩, rfl, rfl, rfl⟩
  · cases h

theorem accept_startup (waits : c.pc = .waitSipi) : (c.accept (.startup 8)).pc = .boot 0 := by
  simp [Cpu.accept, waits]

/-- A start-up message is lost on a processor that is not waiting for it. -/
theorem accept_ignored {vector : Byte} (goes : c.pc ≠ .waitSipi) : c.accept (.startup vector) = c :=
  if_neg goes

theorem Reached.not_waiting (h : Reached cfg s i .started) : (s.cpu i).pc ≠ .waitSipi := by
  obtain ⟨⟨n, m, c, pc, _⟩, _⟩ | ⟨_, ⟨pc, _⟩ | ⟨pc, _⟩⟩ := h <;> simp [pc]

theorem init_cr0 (x : Word) : ((x &&& 0x60000000) ||| 0x10) &&& 0x9FFFFFFF = 0x10 := by
  rw [masked_or (by decide)]
  rfl

/-- The AP to which the message goes. -/
theorem Arrival.target {d : Nat} {ipi : Ipi} (h : Arrival s t d ipi) (low : LowOk cfg s)
    (pc : s.bsp = .slot d k)
    (here : pending k = some ipi) (before : Reached cfg s d (progress k true)) :
    Reached cfg t d (progress k false) := by
  have cpu : t.cpu d = (s.cpu d).accept ipi := by rw [h.cpu, Function.update_self]
  have status : t.status d = s.status d := by rw [h.status]
  obtain ⟨rfl, rfl⟩ | ⟨rfl, rfl⟩ | ⟨k_, rfl⟩ | ⟨k_, rfl⟩ := pending_cases here
  · have after : (t.cpu d).pc = .waitSipi ∧ (t.cpu d).cr0 &&& 0x9FFFFFFF = 0x10 := by
      rw [cpu]
      exact ⟨rfl, init_cr0 _⟩
    exact ⟨after.1, after.2, status.trans before.2⟩
  · exact before.congr cpu status fun _ => h.low
  · have waiting : Reached cfg s d .waiting := by obtain rfl | rfl := k_ <;> exact before
    have started : progress k false = .started := by obtain rfl | rfl := k_ <;> rfl
    obtain ⟨waits, cr0, busy⟩ := waiting
    rw [started]
    refine .inl ⟨⟨0, s.low, { t.cpu d with pc := .waitSipi }, ?_, by decide,
      .of_lowOk low pc (by omega), ?_, rfl,
      by rw [h.low]; rfl⟩, status.trans busy⟩
    · rw [cpu]
      exact accept_startup waits
    · rw [cpu]
      simp only [Cpu.accept, waits, if_true]
      exact cr0
  · have started : Reached cfg s d .started := by obtain rfl | rfl := k_ <;> exact before
    have goes := started.not_waiting
    have stays : progress k false = progress k true := by obtain rfl | rfl := k_ <;> rfl
    rw [stays]
    exact before.congr (cpu.trans (accept_ignored goes)) status fun _ => h.low

theorem Arrival.reached {d : Nat} {ipi : Ipi} (h : Arrival s t d ipi) (ok : ApicOk cfg s)
    (low : LowOk cfg s)
    (reached : ∀ j, Reached cfg s j (stage cfg s j)) (j : Nat) : Reached cfg t j (stage cfg t j) := by
  obtain ⟨k, pc, within, reg, here⟩ := ok.flight d ipi h.sent
  by_cases same : j = d
  · subst same
    have before := reached j
    rw [stage_slot pc within reg, h.sent] at before
    rw [stage_slot (h.bsp.trans pc) within reg, h.flight]
    exact h.target low pc here before
  · rw [stage_other pc (h.bsp.trans pc) same]
    refine (reached j).congr ?_ (congrFun h.status j) fun _ => h.low
    rw [h.cpu, Function.update_of_ne same]

/-! ## The rest of the machine -/

/-- The page directory with the start of memory mapped where it is. -/
def Setup.bootPd (cfg : Setup) : Nat → Dword := Function.update cfg.sysPd 0 (cfg.bootPdePhy ||| 0x7)

/-- The page directory of slot `j` has been filled. -/
def BspPc.prepared (j : Nat) : BspPc → Prop
  | .slot i k => j < i ∨ j = i ∧ 2 ≤ k
  | .restore _ | .restoreBase | .returned => True
  | _ => False

structure PdOk (cfg : Setup) (s : State) : Prop where
  prepared : ∀ j, j ≤ cfg.ttableMax → cfg.registered j = true → s.bsp.prepared j → s.pd j = cfg.bootPd
  copied : ∀ i, s.bsp = .slot i 1 → s.pd i = cfg.sysPd

theorem PdOk.keep (ok : PdOk cfg s) (pd : t.pd = s.pd)
    (prepared : ∀ j, j ≤ cfg.ttableMax → cfg.registered j = true → t.bsp.prepared j → s.bsp.prepared j)
    (copied : ∀ i, t.bsp = .slot i 1 → s.bsp = .slot i 1) : PdOk cfg t where
  prepared j within reg done := by
    rw [pd]
    exact ok.prepared j within reg (prepared j within reg done)
  copied i pc := by
    rw [pd]
    exact ok.copied i (copied i pc)

theorem StmtAt.pdOk {x : Stmt} (h : StmtAt cfg i k x) (pc : s.bsp = .slot i k) (ok : PdOk cfg s) :
    PdOk cfg (x.exec cfg s i (.slot i (k + 1))) := by
  have plain (late : 2 ≤ k) {t : State} (pd : t.pd = s.pd) (next : t.bsp = .slot i (k + 1)) :
      PdOk cfg t := by
    refine ok.keep pd (fun j _ _ done => ?_) fun i' pc' => ?_
    · rw [pc]
      rw [next] at done
      obtain before | ⟨same, _⟩ := done
      · exact .inl before
      · exact .inr ⟨same, late⟩
    · cases next.symm.trans pc'
      omega
  cases h with
  | copyPd =>
      refine ⟨fun j within reg done => ?_, fun i' pc' => ?_⟩
      · obtain before | ⟨_, le⟩ := done
        · refine (Function.update_of_ne (Nat.ne_of_lt before) _ _).trans (ok.prepared j within reg ?_)
          rw [pc]
          exact .inl before
        · omega
      · cases pc'
        exact Function.update_self ..
  | mapBoot =>
      refine ⟨fun j within reg done => ?_, fun i' pc' => by cases pc'⟩
      obtain before | ⟨rfl, _⟩ := done
      · refine (Function.update_of_ne (Nat.ne_of_lt before) _ _).trans (ok.prepared j within reg ?_)
        rw [pc]
        exact .inl before
      · simp only [Stmt.exec, Function.update_self]
        rw [ok.copied j pc]
        rfl
  | field j f found => exact plain (by omega) rfl rfl
  | select _ k_ => exact plain (by omega) rfl rfl
  | init => exact plain (by decide) rfl rfl
  | deassert => exact plain (by decide) rfl rfl
  | startup _ k_ => exact plain (by omega) rfl rfl
  | clearErrors _ k_ => exact plain (by omega) rfl rfl
  | delay _ k_ => exact plain (by omega) rfl rfl
  | waitDelivery _ k_ =>
      simp only [Stmt.exec]
      split
      · exact ok
      · exact plain (by omega) rfl rfl
  | waitReady =>
      simp only [Stmt.exec]
      split
      · exact ok
      · exact plain (by decide) rfl rfl

theorem BspStep.pdOk (h : BspStep cfg s t) (ok : PdOk cfg s) : PdOk cfg t := by
  cases h with
  | stmt i k x pc _ _ at_ => exact (slotCode_at at_).pdOk pc ok
  | poll _ _ => exact ok
  | past i k pc past =>
      refine ok.keep rfl (fun j within _ _ => ?_) (by rintro i ⟨⟩)
      rw [pc]
      exact .inl (Nat.lt_of_le_of_lt within past)
  | skip i k pc _ unregistered =>
      refine ok.keep rfl (fun j _ reg done => ?_) (by rintro i ⟨⟩)
      rw [pc]
      obtain before | ⟨_, le⟩ := done
      · refine .inl (Nat.lt_of_le_of_ne (Nat.le_of_lt_succ before) ?_)
        rintro rfl
        cases unregistered.symm.trans reg
      · cases le
  | next i k pc _ _ le =>
      refine ok.keep rfl (fun j _ _ done => ?_) (by rintro i ⟨⟩)
      rw [pc]
      obtain before | ⟨_, le⟩ := done
      · obtain less | same := Nat.lt_or_eq_of_le (Nat.le_of_lt_succ before)
        · exact .inl less
        · exact .inr ⟨same, Nat.le_trans (by decide) le⟩
      · cases le
  | idle pc =>
      refine ok.keep rfl (fun j _ _ done => ?_) (by rintro i ⟨⟩)
      obtain before | ⟨_, le⟩ := done
      · cases before
      · cases le
  | restore k pc _ | restored k pc _ | restoreBase pc =>
      refine ok.keep rfl (fun j _ _ _ => ?_) (by rintro i ⟨⟩)
      rw [pc]
      trivial
  | apicBase pc | backup _ pc _ | backedUp _ pc _ | install _ _ pc _ | installed _ pc _ | svr pc =>
      refine ok.keep rfl (fun j _ _ done => ?_) (by rintro i ⟨⟩)
      cases done

/-- The APIC base register, and the value to which it is set back. -/
def MsrOk (cfg : Setup) (s : State) : Prop :=
  match s.bsp with
  | .apicBase | .returned => s.apicBase = cfg.apicBase
  | _ => s.msr = cfg.apicBase

theorem StmtAt.msr {x : Stmt} (h : StmtAt cfg i k x) : (x.exec cfg s i (.slot i (k + 1))).msr = s.msr := by
  cases h with
  | waitDelivery _ _ | waitReady =>
      simp only [Stmt.exec]
      split <;> rfl
  | _ => rfl

theorem BspStep.msrOk (h : BspStep cfg s t) (ok : MsrOk cfg s) : MsrOk cfg t := by
  cases h with
  | stmt i k x pc _ _ at_ =>
      simp only [MsrOk, pc] at ok
      have msr := (slotCode_at at_).msr (s := s)
      obtain same | ⟨next, _⟩ := (slotCode_at at_).progress (s := s)
      · rw [same]
        simpa only [MsrOk, pc] using ok
      · simpa only [MsrOk, next, msr] using ok
  | poll _ _ => exact ok
  | apicBase pc | backup _ pc _ | backedUp _ pc _ | install _ _ pc _ | installed _ pc _ | svr pc | idle pc
  | past _ _ pc _ | skip _ _ pc _ _ | next _ _ pc _ _ _ | restore _ pc _ | restored _ pc _ | restoreBase pc =>
      simpa only [MsrOk, pc] using ok

/-! ## The messages that are sent -/

/-- The messages to one AP. -/
def messages (i : Nat) : List (Nat × Ipi) :=
  [(i, .init), (i, .initDeassert), (i, .startup 8), (i, .startup 8)]

/-- The messages to the registered APs of the slots below `n`. -/
def Setup.messagesTo (cfg : Setup) (n : Nat) : List (Nat × Ipi) :=
  ((List.range n).filter cfg.registered).flatMap messages

def sentCount (k : Nat) : Nat :=
  if k ≤ 13 then 0 else if k ≤ 16 then 1 else if k ≤ 21 then 2 else if k ≤ 26 then 3 else 4

def SentOk (cfg : Setup) (s : State) (sent : List (Nat × Ipi)) : Prop :=
  match s.bsp with
  | .slot i k =>
      i ≤ cfg.ttableMax + 1 ∧ (cfg.ttableMax < i → k = 0) ∧
        sent.reverse = cfg.messagesTo i ++ if cfg.registered i then (messages i).take (sentCount k) else []
  | .restore _ | .restoreBase | .returned => sent.reverse = cfg.messagesTo (cfg.ttableMax + 1)
  | _ => sent = []

theorem messagesTo_succ : cfg.messagesTo (i + 1) =
    cfg.messagesTo i ++ if cfg.registered i then messages i else [] := by
  unfold Setup.messagesTo
  rw [List.range_succ, List.filter_append, List.flatMap_append]
  congr 1
  by_cases reg : cfg.registered i = true
  · simp [reg]
  · simp [reg]

theorem ipiEvent_stmt {x : Stmt} (pc : s.bsp = .slot i k) (within : i ≤ cfg.ttableMax)
    (reg : cfg.registered i = true) (at_ : (slotCode cfg i)[k]? = some x) :
    ipiEvent cfg s .bsp = x.message s := by
  simp only [ipiEvent, pc, at_]
  rw [if_pos ⟨within, reg⟩]
  rfl

/-- What a statement for a slot sends. -/
theorem StmtAt.sends {x : Stmt} (h : StmtAt cfg i k x) (pc : s.bsp = .slot i k) (ok : ApicOk cfg s)
    (event : ipiEvent cfg s .bsp = x.message s) :
    x.exec cfg s i (.slot i (k + 1)) = s ∧ ipiEvent cfg s .bsp = none ∨
      (x.exec cfg s i (.slot i (k + 1))).bsp = .slot i (k + 1) ∧
        (messages i).take (sentCount (k + 1)) =
          (messages i).take (sentCount k) ++ (ipiEvent cfg s .bsp).toList := by
  cases h with
  | copyPd | mapBoot => exact .inr ⟨rfl, by rw [event]; rfl⟩
  | field j f found =>
      have below : j < 10 := (List.getElem?_eq_some_iff.mp found).1
      refine .inr ⟨rfl, ?_⟩
      rw [event, sentCount, sentCount, if_pos (by omega), if_pos (by omega)]
      rfl
  | select _ k_ =>
      refine .inr ⟨rfl, ?_⟩
      rw [event]
      obtain rfl | rfl | rfl | rfl := k_ <;> rfl
  | init =>
      refine .inr ⟨rfl, ?_⟩
      rw [event]
      dsimp only [Stmt.message]
      rw [decode_init, ok.icrHigh i 13 pc (by decide)]
      rfl
  | deassert =>
      refine .inr ⟨rfl, ?_⟩
      rw [event]
      dsimp only [Stmt.message]
      rw [decode_deassert, ok.icrHigh i 16 pc (by decide)]
      rfl
  | startup _ k_ =>
      have physical : s.icr &&& 0x800 = 0 := (icr_physical s).trans (ok.icrLow i k pc (by omega))
      refine .inr ⟨rfl, ?_⟩
      rw [event]
      dsimp only [Stmt.message]
      rw [decode_startup physical, ok.icrHigh i k pc (by omega)]
      obtain rfl | rfl := k_ <;> rfl
  | clearErrors _ k_ =>
      refine .inr ⟨rfl, ?_⟩
      rw [event]
      obtain rfl | rfl := k_ <;> rfl
  | delay _ k_ =>
      refine .inr ⟨rfl, ?_⟩
      rw [event]
      obtain rfl | rfl | rfl := k_ <;> rfl
  | waitDelivery _ k_ =>
      simp only [Stmt.exec]
      split
      · exact .inl ⟨rfl, event⟩
      · refine .inr ⟨rfl, ?_⟩
        rw [event]
        obtain rfl | rfl | rfl | rfl := k_ <;> rfl
  | waitReady =>
      simp only [Stmt.exec]
      split
      · exact .inl ⟨rfl, event⟩
      · refine .inr ⟨rfl, ?_⟩
        rw [event]
        rfl

theorem ipiEvent_outside (away : ∀ i k, s.bsp = .slot i k →
    cfg.ttableMax < i ∨ cfg.registered i = false ∨ slotLength ≤ k) : ipiEvent cfg s .bsp = none := by
  simp only [ipiEvent]
  split
  · rename_i i k pc
    split
    · rename_i known
      obtain past | unregistered | late := away i k pc
      · exact absurd known.1 (Nat.not_le.mpr past)
      · cases unregistered.symm.trans known.2
      · rw [List.getElem?_eq_none (by exact late)]
        rfl
    · rfl
  · rfl

theorem BspStep.sentOk {sent : List (Nat × Ipi)} (h : BspStep cfg s t) (apic : ApicOk cfg s)
    (ok : SentOk cfg s sent) : SentOk cfg t ((ipiEvent cfg s .bsp).toList ++ sent) := by
  cases h with
  | stmt i k x pc within reg at_ =>
      simp only [SentOk, pc, reg, if_true] at ok
      obtain ⟨below, _, before⟩ := ok
      obtain ⟨same, silent⟩ | ⟨next, sends⟩ :=
        (slotCode_at at_).sends pc apic (ipiEvent_stmt pc within reg at_)
      · rw [same, silent]
        simp only [SentOk, pc, reg, if_true]
        exact ⟨below, fun past => absurd past (Nat.not_lt.mpr within), before⟩
      · simp only [SentOk, next, reg, if_true, List.reverse_append]
        refine ⟨below, fun past => absurd past (Nat.not_lt.mpr within), ?_⟩
        rw [before, sends, List.append_assoc]
        congr 2
        cases ipiEvent cfg s .bsp <;> rfl
  | past i k pc past =>
      rw [ipiEvent_outside fun i' k' pc' => by cases pc.symm.trans pc'; exact .inl past]
      simp only [SentOk, pc] at ok
      obtain ⟨below, first, before⟩ := ok
      obtain rfl : i = cfg.ttableMax + 1 := Nat.le_antisymm below past
      rw [first past] at before
      simpa [SentOk, sentCount] using before
  | skip i k pc within unregistered =>
      rw [ipiEvent_outside fun i' k' pc' => by cases pc.symm.trans pc'; exact .inr (.inl unregistered)]
      simp only [SentOk, pc, unregistered] at ok
      refine ⟨Nat.succ_le_succ within, fun _ => rfl, ?_⟩
      simpa [messagesTo_succ, unregistered, sentCount] using ok.2.2
  | next i k pc within reg le =>
      rw [ipiEvent_outside fun i' k' pc' => by cases pc.symm.trans pc'; exact .inr (.inr le)]
      simp only [SentOk, pc, reg, if_true] at ok
      refine ⟨Nat.succ_le_succ within, fun _ => rfl, ?_⟩
      have all : (messages i).take (sentCount k) = messages i := by
        unfold slotLength at le
        rw [sentCount, if_neg (by omega), if_neg (by omega), if_neg (by omega), if_neg (by omega)]
        rfl
      rw [all] at ok
      simpa [messagesTo_succ, reg, sentCount] using ok.2.2
  | idle pc =>
      rw [ipiEvent_outside fun i' k' pc' => by cases pc.symm.trans pc']
      simp only [SentOk, pc] at ok
      refine ⟨Nat.zero_le _, fun _ => rfl, ?_⟩
      simp [ok, Setup.messagesTo, sentCount]
  | apicBase pc | backup _ pc _ | backedUp _ pc _ | install _ _ pc _ | installed _ pc _ | svr pc
  | poll pc _ | restore _ pc _ | restored _ pc _ | restoreBase pc =>
      rw [ipiEvent_outside fun i' k' pc' => by cases pc.symm.trans pc']
      simpa only [SentOk, pc, Option.toList_none, List.nil_append] using ok

theorem messagesTo_mono (le : i ≤ n) : cfg.messagesTo i <+: cfg.messagesTo n := by
  induction le with
  | refl => exact List.prefix_refl _
  | step _ ih =>
      rw [messagesTo_succ]
      exact ih.trans (List.prefix_append _ _)

theorem SentOk.inOrder {sent : List (Nat × Ipi)} (ok : SentOk cfg s sent) :
    sent.reverse <+: cfg.messagesTo (cfg.ttableMax + 1) := by
  unfold SentOk at ok
  split at ok
  · rename_i i k pc
    obtain ⟨below, first, sent⟩ := ok
    rw [sent]
    by_cases past : cfg.ttableMax < i
    · rw [first past]
      simpa [sentCount] using messagesTo_mono below
    · refine List.IsPrefix.trans ?_ (messagesTo_mono (Nat.succ_le_succ (Nat.le_of_not_lt past)))
      rw [messagesTo_succ, List.prefix_append_right_inj]
      split
      · exact List.take_prefix _ _
      · exact List.prefix_refl _
  · rw [ok]
  · rw [ok]
  · rw [ok]
  · rw [ok]
    exact List.nil_prefix

/-! ## Runs -/

/-- What holds in every state of the start. -/
structure Safe (cfg : Setup) (s : State) (sent : List (Nat × Ipi)) : Prop where
  apic : ApicOk cfg s
  low : LowOk cfg s
  pd : PdOk cfg s
  msr : MsrOk cfg s
  sent : SentOk cfg s sent
  reached : ∀ j, Reached cfg s j (stage cfg s j)

theorem ApicOk.same (ok : ApicOk cfg s) (bsp : t.bsp = s.bsp)
    (flight : t.flight = s.flight ∨ t.flight = none) (icrHigh : t.icrHigh = s.icrHigh)
    (icrLow : t.icrLow = s.icrLow) : ApicOk cfg t where
  flight d ipi sent := by
    obtain same | none := flight
    · rw [same] at sent
      rw [bsp]
      exact ok.flight d ipi sent
    · cases none.symm.trans sent
  icrHigh i k pc := by
    rw [icrHigh]
    exact ok.icrHigh i k (bsp ▸ pc)
  icrLow i k pc := by
    rw [icrLow]
    exact ok.icrLow i k (bsp ▸ pc)

theorem Safe.step {sent : List (Nat × Ipi)} (safe : Safe cfg s sent) (h : Step cfg s a t) :
    Safe cfg t ((ipiEvent cfg s a).toList ++ sent) := by
  have quiet (bsp : t.bsp = s.bsp) (pd : t.pd = s.pd) (msr : t.msr = s.msr)
      (base : t.apicBase = s.apicBase) :
      PdOk cfg t ∧ MsrOk cfg t ∧ SentOk cfg t sent := by
    refine ⟨safe.pd.keep pd (by rw [bsp]; exact fun _ _ _ done => done)
      (by rw [bsp]; exact fun _ pc => pc), ?_, ?_⟩
    · have ok := safe.msr
      simp only [MsrOk, bsp, msr, base] at ok ⊢
      exact ok
    · have ok := safe.sent
      simp only [SentOk, bsp] at ok ⊢
      exact ok
  cases a with
  | bsp =>
      have out : BspStep cfg s t := bspStep_outcome h
      exact ⟨out.apicOk safe.apic, out.lowOk safe.low, out.pdOk safe.pd, out.msrOk safe.msr,
        out.sentOk safe.apic safe.sent, out.reached safe.reached⟩
  | cpu i =>
      have out : CpuStep cfg s i t := cpuStep_outcome h
      obtain ⟨⟨bsp, flight, _, icrHigh, icrLow, pd, msr, base⟩, _⟩ := out.frame
      obtain ⟨pdOk, msrOk, sentOk⟩ := quiet bsp pd msr base
      exact ⟨safe.apic.same bsp (.inl flight) icrHigh icrLow, out.lowOk (safe.reached i) safe.low,
        pdOk, msrOk,
        sentOk, out.reached safe.reached⟩
  | deliver =>
      obtain ⟨d, ipi, out⟩ := deliverStep_outcome h
      obtain ⟨pdOk, msrOk, sentOk⟩ := quiet out.bsp out.rest.1 out.rest.2.1 out.rest.2.2
      refine ⟨safe.apic.same out.bsp (.inr out.flight) out.icr.1 out.icr.2, ?_, pdOk, msrOk, sentOk,
        out.reached safe.apic safe.low safe.reached⟩
      have low := safe.low
      simp only [LowOk, out.bsp, out.low, out.pageBackup] at low ⊢
      exact low

theorem stage_start : stage cfg (start cfg) j = .firmware := by
  unfold stage
  split <;> rfl

theorem safe_start : Safe cfg (start cfg) [] where
  apic := .between rfl rfl (by rintro i k ⟨⟩)
  low := rfl
  pd := by
    refine ⟨fun j _ _ done => ?_, by rintro i ⟨⟩⟩
    cases done
  msr := rfl
  sent := rfl
  reached j := by
    rw [stage_start]
    exact ⟨rfl, rfl⟩

/-- Who is past the firmware has been prepared. -/
theorem prepared_of_stage (h : stage cfg s j ≠ .firmware) :
    j ≤ cfg.ttableMax ∧ cfg.registered j = true ∧ s.bsp.prepared j := by
  unfold stage at h
  split at h
  · exact absurd rfl h
  · rename_i known
    obtain ⟨within, reg⟩ := not_or.mp known
    refine ⟨Nat.le_of_not_lt within, by simpa using reg, ?_⟩
    split at h
    · rename_i i k pc
      rw [pc]
      split at h
      · exact .inl ‹_›
      · split at h
        · exact absurd rfl h
        · refine .inr ⟨by omega, ?_⟩
          unfold progress at h
          split at h
          · exact absurd rfl h
          · omega
    · rename_i k pc
      rw [pc]
      trivial
    · rename_i pc
      rw [pc]
      trivial
    · rename_i pc
      rw [pc]
      trivial
    · exact absurd rfl h

theorem Safe.past {sent : List (Nat × Ipi)} (safe : Safe cfg s sent) (goes : (s.cpu i).pc ≠ .halted) :
    stage cfg s i ≠ .firmware := by
  intro here
  have reached := safe.reached i
  rw [here] at reached
  exact goes reached.1

theorem Reached.not_lost {x : Stage} (h : Reached cfg s i x) : (s.cpu i).pc ≠ .lost := by
  cases x with
  | firmware => simp [h.1]
  | waiting => simp [h.1]
  | started =>
      obtain ⟨⟨n, m, c, pc, _⟩, _⟩ | ⟨_, ⟨pc, _⟩ | ⟨pc, _⟩⟩ := h <;> simp [pc]
  | done => simp [h.2.1]

theorem Safe.booting {sent : List (Nat × Ipi)} (safe : Safe cfg s sent) (pc : (s.cpu i).pc = .boot n) :
    ∃ k, s.bsp = .slot i k ∧ 22 ≤ k := by
  have started : stage cfg s i = .started := by
    refine executing (safe.reached i) ?_ ?_ ?_ <;> simp [pc]
  obtain ⟨_, _, k, pc, le, _⟩ := stage_started started
  exact ⟨k, pc, le⟩

theorem Reached.entered {x : Stage} (h : Reached cfg s i x)
    (pc : (s.cpu i).pc = .kernelBoot ∨ (s.cpu i).pc = .running) : Entered cfg i (s.cpu i) := by
  cases x with
  | firmware =>
      have halted := h.1
      obtain pc | pc := pc <;> cases pc.symm.trans halted
  | waiting =>
      have waits := h.1
      obtain pc | pc := pc <;> cases pc.symm.trans waits
  | started =>
      obtain ⟨⟨n, m, c, boots, _⟩, _⟩ | ⟨entered, _⟩ := h
      · obtain pc | pc := pc <;> cases pc.symm.trans boots
      · exact entered
  | done => exact h.1

/-- The start of the APs. Whatever the order in which the BSP, the APs and the messages
between them make their steps: the registered APs get their messages one after the other,
and nobody else gets any; an AP executes the boot code alone, which is intact, with the
variables and the page directory of its slot; it enters the kernel with what they say;
and when `smp_init_bsp` returns, all registered APs are `S_READY` and the low memory and
the APIC base register are as the firmware has left them. -/
theorem startup_safe {as : List Action} {sent : List (Nat × Ipi)}
    (run : Run (record (Step cfg) (ipiEvent cfg)) (start cfg, []) as (s, sent)) :
    sent.reverse <+: cfg.messagesTo (cfg.ttableMax + 1) ∧
    (∀ i, (s.cpu i).pc ≠ .halted →
      i ≤ cfg.ttableMax ∧ cfg.registered i = true ∧ (s.cpu i).pc ≠ .lost ∧ s.pd i = cfg.bootPd) ∧
    (∀ i n, (s.cpu i).pc = .boot n →
      CodeIntact cfg s.low ∧ Stored s.low (cfg.vars i) ∧ ∀ j m, (s.cpu j).pc = .boot m → j = i) ∧
    (∀ i, (s.cpu i).pc = .kernelBoot ∨ (s.cpu i).pc = .running → Entered cfg i (s.cpu i)) ∧
    (s.bsp = .returned → s.low = cfg.firstMb ∧ s.apicBase = cfg.apicBase ∧
      sent.reverse = cfg.messagesTo (cfg.ttableMax + 1) ∧
      ∀ i ≤ cfg.ttableMax, cfg.registered i = true → (s.cpu i).pc = .running ∧ s.status i = .ready) := by
  have safe : Safe cfg s sent := run.invariant (P := fun p => Safe cfg p.1 p.2)
    (fun p a q safe step => by
      rw [step.2]
      exact safe.step step.1) safe_start
  refine ⟨safe.sent.inOrder, ?_, ?_, ?_, ?_⟩
  · intro i goes
    obtain ⟨within, reg, prepared⟩ := prepared_of_stage (safe.past goes)
    exact ⟨within, reg, (safe.reached i).not_lost, safe.pd.prepared i within reg prepared⟩
  · intro i n pc
    obtain ⟨k, here, late⟩ := safe.booting pc
    have low := safe.low
    refine ⟨?_, .of_lowOk low here (by omega), fun j m pc' => ?_⟩
    · simp only [LowOk, here] at low
      exact low.2.2.1
    · obtain ⟨k', here', _⟩ := safe.booting pc'
      cases here.symm.trans here'
      rfl
  · intro i pc
    exact (safe.reached i).entered pc
  · intro pc
    have low := safe.low
    have msr := safe.msr
    have sent := safe.sent
    simp only [LowOk, MsrOk, SentOk, pc] at low msr sent
    refine ⟨low, msr, sent, fun i within reg => ?_⟩
    have reached := safe.reached i
    have done : stage cfg s i = .done := by
      unfold stage
      rw [if_neg (by simp [reg, within]), pc]
    rw [done] at reached
    exact reached.2

theorem oneAp_lt : 1 < maxCores := by decide

theorem apboot_nops : (List.replicate apbootLen (0x90 : Byte)).length = apbootLen := List.length_replicate

/-- One AP in slot 1, and a boot image of `nop` instructions. -/
def oneAp : Setup where
  ttableMax := 1
  ttableMax_lt := oneAp_lt
  stack i := if i = 1 then 0x00800000 else 0
  data i := if i = 1 then 0xC2000000 else 0
  cpuCr3 _ := 0x00123000
  bspid := 0
  kernelFlat := 0xC1000000
  ttable := 0xC3000000
  gdata := 0xC4000000
  bootPdePhy := 0x00077000
  sysPd _ := 0
  apboot := List.replicate apbootLen 0x90
  apboot_len := apboot_nops
  firstMb _ := 0
  apicBase := (0xFEE00100, 0)
  svr := 0xF
  icr := (0, 0)
  cpu _ := ⟨.halted, fun _ => 0, 0, fun _ => 0, 0, 0x60000010, 0, (0, 0), (0, 0)⟩

/-- The AP is started and enters the kernel. -/
def kernelEntry : List Action :=
  List.replicate 1040 .bsp ++ [.deliver, .bsp, .bsp, .bsp, .deliver] ++ List.replicate 5 .bsp ++
    .deliver :: List.replicate 38 (.cpu 1)

theorem startup_safe_kernelEntry : ∃ s sent,
    Run (record (Step oneAp) (ipiEvent oneAp)) (start oneAp, []) kernelEntry (s, sent) ∧
      (s.cpu 1).pc = .kernelBoot ∧ Entered oneAp 1 (s.cpu 1) := by
  have computed : (exec (step oneAp) (start oneAp) kernelEntry).any
      (fun s => (s.cpu 1).pc = .kernelBoot) = true := by
    decide +kernel
  obtain ⟨s, run, checked⟩ := exists_run computed
  have pc : (s.cpu 1).pc = .kernelBoot := of_decide_eq_true checked
  obtain ⟨sent, recorded⟩ := run.record (ipiEvent oneAp) []
  exact ⟨s, sent, recorded, pc, (startup_safe recorded).2.2.2.1 1 (.inl pc)⟩

end SmpVxd.Startup
