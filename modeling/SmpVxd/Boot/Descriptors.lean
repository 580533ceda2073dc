import SmpVxd.ApKernel.Code
import SmpVxd.Boot.Simd
import SmpVxd.Words.Fields

/-!
# Gates, descriptors and the task state of an AP

`smp_init` moves the gates of the kernel to the page where the kernel is, and writes the
address of the task state into a descriptor of every AP. The processor puts these fields
together again from the places that the architecture gives them.
-/

namespace SmpVxd.Boot

open ApKernel (sysCs errorIsr errorIsrCode int3Isr)

/-! ## What the processor reads -/

/-- The entry point of a gate. -/
def IsrDesc.offset (gate : IsrDesc) : Dword := gate.offsetHigh ++ gate.offsetLow

def IsrDesc.present (gate : IsrDesc) : Bool := gate.typeAttributes.getLsbD 7

/-- A segment descriptor; `access` has type, S, DPL and P, `flags` has AVL, L, D/B and G. -/
structure Segment where
  base : Dword
  limit : BitVec 20
  access : Byte
  flags : BitVec 4

namespace Segment

def decode (low high : Dword) : Segment where
  base := high.extractLsb' 24 8 ++ high.extractLsb' 0 8 ++ low.extractLsb' 16 16
  limit := high.extractLsb' 16 4 ++ low.extractLsb' 0 16
  access := high.extractLsb' 8 8
  flags := high.extractLsb' 20 4

/-- The descriptor of a selector into the table. -/
def select (gdt : Nat → Dword) (selector : Nat) : Segment :=
  decode (gdt (2 * (selector / 8))) (gdt (2 * (selector / 8) + 1))

/-- An available 32-bit TSS: present, of the system, type 9. -/
def availableTss (base : Dword) (limit : BitVec 20) : Segment := ⟨base, limit, 0x89, 0⟩

end Segment

/-- Fields of a 32-bit TSS. -/
def tssEsp0 (tss : Nat → Dword) : Dword := tss 1
def tssSs0 (tss : Nat → Dword) : BitVec 16 := (tss 2).extractLsb' 0 16
/-- The high half of the dword at offset 100. -/
def tssIoMapBase (tss : Nat → Dword) : BitVec 16 := (tss 25).extractLsb' 16 16

/-! ## The interrupt table of the kernel -/

def IsrDesc.ofWords (low high : Dword) : IsrDesc where
  offsetLow := low.extractLsb' 0 16
  selector := low.extractLsb' 16 16
  zero := high.extractLsb' 0 8
  typeAttributes := high.extractLsb' 8 8
  offsetHigh := high.extractLsb' 16 16

/-- The macro `IDTEntry` -/
def idtEntry (isr type : Dword) : IsrDesc :=
  .ofWords ((isr &&& 0x0000FFFF) ||| (sysCs <<< 16)) ((isr &&& 0xFFFF0000) ||| type)

def dummyIsr : Dword := 0x600
def intGate : Dword := 0x8E00
def swGate : Dword := 0xEF00

/-- `_idt`: the offset of the handler in the kernel and the type of each gate. -/
def apkernelGates : List (Option (Dword × Dword)) :=
  [some (errorIsr, intGate), some (errorIsr, intGate), some (dummyIsr, intGate),
    some (int3Isr, swGate), some (errorIsr, intGate), some (errorIsr, intGate),
    some (errorIsr, intGate), some (dummyIsr, intGate), some (errorIsrCode, intGate),
    some (errorIsr, intGate), some (errorIsrCode, intGate), some (errorIsrCode, intGate),
    some (errorIsrCode, intGate), some (errorIsrCode, intGate), some (errorIsrCode, intGate),
    none, some (errorIsr, intGate), some (errorIsrCode, intGate), some (errorIsr, intGate),
    some (errorIsr, intGate), some (errorIsr, intGate), some (errorIsrCode, intGate)] ++
  List.replicate 10 (some (dummyIsr, intGate)) ++ List.replicate 224 (some (errorIsr, intGate))

/-- The table in the image of the kernel. -/
def kernelIdt (n : Nat) : IsrDesc :=
  match apkernelGates.getD n none with
  | none => .ofWords 0 0
  | some (handler, type) => idtEntry (apKernelBase + handler) type

variable {env : Env} {gate : IsrDesc} {a kernelFlat tss stack : Dword} {s t : State} {i : Nat}

/-! ## Gates -/

theorem mergeAddress_eq (gate : IsrDesc) : gate.mergeAddress = gate.offset := by
  rw [IsrDesc.mergeAddress, IsrDesc.offset]
  apply BitVec.eq_of_getLsbD_eq
  intro i lt
  rw [BitVec.getLsbD_or, BitVec.getLsbD_shiftLeft, BitVec.getLsbD_setWidth, BitVec.getLsbD_setWidth,
    BitVec.getLsbD_append]
  by_cases low : i < 16
  · simp [low, lt]
  · have none : gate.offsetLow.getLsbD i = false := BitVec.getLsbD_of_ge _ i (by omega)
    have near : i - 16 < 32 := by omega
    simp [low, lt, none, near]

theorem splitAddress_offset (gate : IsrDesc) (a : Dword) : (gate.splitAddress a).offset = a := by
  have high : (a >>> 16).setWidth 16 = a.extractLsb' 16 16 := by
    rw [BitVec.setWidth_eq_extractLsb' (by decide), Words.field_ushiftRight]
  have low : (a &&& 0xFFFF).setWidth 16 = a.extractLsb' 0 16 := by
    rw [BitVec.setWidth_eq_extractLsb' (by decide), Words.field_kept (by decide)]
  rw [IsrDesc.offset, IsrDesc.splitAddress, high, low]
  exact BitVec.extractLsb'_append_extractLsb'

theorem relocate_offset (kernelFlat : Dword) (gate : IsrDesc) :
    (gate.relocate kernelFlat).offset = kernelFlat + (gate.offset - apKernelBase) := by
  rw [IsrDesc.relocate, splitAddress_offset, mergeAddress_eq, BitVec.add_comm]

/-- A gate of the macro leads to its handler, is for the code segment of the kernel, and
has the type it was given. -/
theorem idtEntry_spec {isr type : Dword} (high : type.extractLsb' 16 16 = 0) :
    (idtEntry isr type).offset = isr ∧ (idtEntry isr type).selector = 0x8 ∧
      (idtEntry isr type).zero = type.extractLsb' 0 8 ∧
      (idtEntry isr type).typeAttributes = type.extractLsb' 8 8 := by
  have low : ((isr &&& 0x0000FFFF) ||| (sysCs <<< 16)).extractLsb' 0 16 = isr.extractLsb' 0 16 := by
    rw [Words.field_or_right (Words.field_shiftLeft_below (by decide)), Words.field_kept (by decide)]
  have selector : ((isr &&& 0x0000FFFF) ||| (sysCs <<< 16)).extractLsb' 16 16 = 0x8 := by
    rw [Words.field_or_left (Words.field_cleared (by decide))]
    rfl
  have zero : ((isr &&& 0xFFFF0000) ||| type).extractLsb' 0 8 = type.extractLsb' 0 8 :=
    Words.field_or_left (Words.field_cleared (by decide))
  have attributes : ((isr &&& 0xFFFF0000) ||| type).extractLsb' 8 8 = type.extractLsb' 8 8 :=
    Words.field_or_left (Words.field_cleared (by decide))
  have above : ((isr &&& 0xFFFF0000) ||| type).extractLsb' 16 16 = isr.extractLsb' 16 16 := by
    rw [Words.field_or_right high, Words.field_kept (by decide)]
  refine ⟨?_, selector, zero, attributes⟩
  rw [IsrDesc.offset, idtEntry, IsrDesc.ofWords, low, above]
  exact BitVec.extractLsb'_append_extractLsb'

/-! ## Descriptors -/

theorem apGdt_template {n : Nat} (other : n < 10) : apGdt tss n = defGdt.getD n 0 := by
  rw [apGdt, if_neg (by omega), if_neg (by omega)]

theorem select_apGdt : Segment.select (apGdt tss) 0x28 = .availableTss tss 0x67 := by
  have low : apGdt tss 10 = (0x67 : Dword) ||| ((tss &&& 0x0000FFFF) <<< 16) := rfl
  have high : apGdt tss 11 =
    (0x8900 : Dword) ||| (tss &&& (0xFF000000 : Dword)) ||| ((tss &&& (0x00FF0000 : Dword)) >>> 16) := rfl
  have base₀ : (apGdt tss 10).extractLsb' 16 16 = tss.extractLsb' 0 16 := by
    rw [low, Words.field_or_left (by decide), Words.field_shiftLeft (by decide) (by decide),
      Words.field_kept (by decide)]
  have limit : (apGdt tss 10).extractLsb' 0 16 = 0x67 := by
    rw [low, Words.field_or_right (Words.field_shiftLeft_below (by decide))]
    rfl
  have base₁ : (apGdt tss 11).extractLsb' 0 8 = tss.extractLsb' 16 8 := by
    rw [high, Words.field_or_left, Words.field_ushiftRight, Words.field_kept (by decide)]
    rw [Words.field_or_left (by decide), Words.field_cleared (by decide)]
  have base₂ : (apGdt tss 11).extractLsb' 24 8 = tss.extractLsb' 24 8 := by
    rw [high, Words.field_or_right, Words.field_or_left (by decide), Words.field_kept (by decide)]
    rw [Words.field_ushiftRight, Words.field_cleared (by decide)]
  have access : (apGdt tss 11).extractLsb' 8 8 = 0x89 := by
    rw [high, Words.field_or_right, Words.field_or_right (Words.field_cleared (by decide))]
    · rfl
    · rw [Words.field_ushiftRight, Words.field_cleared (by decide)]
  have above {k : Nat} (kept : ((tss &&& (0x00FF0000 : Dword)) >>> 16).extractLsb' k 4 = 0#4)
      (clear : (tss &&& (0xFF000000 : Dword)).extractLsb' k 4 = 0#4)
      (template : (0x8900 : Dword).extractLsb' k 4 = 0#4) : (apGdt tss 11).extractLsb' k 4 = 0#4 := by
    rw [high, Words.field_or_right kept, Words.field_or_right clear, template]
  have limit' : (apGdt tss 11).extractLsb' 16 4 = 0#4 := by
    apply above
    · rw [Words.field_ushiftRight, Words.field_cleared (by decide)]
    · exact Words.field_cleared (by decide)
    · decide
  have flags : (apGdt tss 11).extractLsb' 20 4 = 0#4 := by
    apply above
    · rw [Words.field_ushiftRight, Words.field_cleared (by decide)]
    · exact Words.field_cleared (by decide)
    · decide
  have base : tss.extractLsb' 24 8 ++ tss.extractLsb' 16 8 ++ tss.extractLsb' 0 16 = tss := by
    have upper : tss.extractLsb' 24 8 ++ tss.extractLsb' 16 8 = tss.extractLsb' 16 16 :=
      BitVec.extractLsb'_append_extractLsb'_eq_extractLsb' rfl
    rw [upper]
    exact BitVec.extractLsb'_append_extractLsb'
  rw [Segment.select, show 2 * (0x28 / 8) = 10 from rfl, show 10 + 1 = 11 from rfl, Segment.decode,
    base₀, base₁, base₂, base, limit, limit', access, flags]
  rfl

/-! ## A prepared AP -/

/-- The data block of an AP as `smp_init` prepares it, with the stack of the AP. -/
structure Prepared (stack : Dword) (data : Tdata) : Prop where
  gdt : data.gdt = apGdt (data.addr + tdataTss)
  tss : data.tss = apTss stack

theorem newItem_prepared {apCount allocs : Nat} {data : Tdata}
    (block : (newItem env apCount allocs).data = some data) :
    Prepared (newItem env apCount allocs).stack data := by
  obtain ⟨alloc, -, rfl⟩ := Option.map_eq_some_iff.1 block
  exact ⟨rfl, rfl⟩

/-- The AP of a call of the set-up. -/
theorem setupAp_prepared {apid apCount : Nat} (ran : (setupAp env apid apCount).run s = .ok () t) :
    ∃ data, (t.items apid).data = some data ∧ Prepared (t.items apid).stack data := by
  by_cases supplied : Supplied env s 1
  · obtain ⟨-, -, mem⟩ := Supplied.one_iff.1 supplied
    obtain ⟨data, block, -⟩ := newItem_data apCount mem
    rw [setupAp_ok supplied] at ran
    cases ran
    refine ⟨data, ?_, ?_⟩
    · rw [State.register_items, Function.update_self, block]
    · rw [State.register_items, Function.update_self]
      exact newItem_prepared block
  · obtain ⟨u, failed, -⟩ := setupAp_error apid apCount supplied
    rw [failed] at ran
    cases ran

theorem fixed_fields {data data' : Tdata} (fixed : data.fixed = data'.fixed) :
    data.gdt = data'.gdt ∧ data.tss = data'.tss ∧ data.addr = data'.addr := by
  simp only [Tdata.fixed, Tdata.mk.injEq] at fixed
  obtain ⟨addr, -, -, -, -, -, -, -, gdt, tss, -⟩ := fixed
  exact ⟨gdt, tss, addr⟩

theorem started_prepared {vars : ApbootVars} {data : Tdata}
    (started : (i, vars) ∈ (last ((smpInit env).run .initial)).started)
    (block : ((last ((smpInit env).run .initial)).items i).data = some data) :
    Prepared ((last ((smpInit env).run .initial)).items i).stack data := by
  obtain ⟨apCount, allocs, data', block', fixed, stack⟩ := started_newItem started block
  have prepared : Prepared (newItem env apCount allocs).stack data' := newItem_prepared block'
  obtain ⟨gdt, tss, addr⟩ := fixed_fields fixed
  rw [stack]
  refine ⟨?_, ?_⟩
  · rw [gdt, addr]
    exact prepared.gdt
  · rw [tss]
    exact prepared.tss

/-! ## The kernel -/

/-- Where the kernel is, and its gates. -/
def State.gates (s : State) : Dword × (Nat → IsrDesc) := (s.kernelFlat, s.isr)

theorem startAp_gates : (last ((startAp env i).run s)).gates = s.gates := by
  by_cases starts : s.starts i = true
  · cases block : (s.items i).data with
    | none =>
        rw [startAp_null starts block]
        rfl
    | some data =>
        by_cases boots : env.boots i = true
        · rw [startAp_launch starts block boots]
          rfl
        · rw [startAp_waits starts block boots]
          rfl
  · rw [startAp_skip starts]
    rfl

theorem startAps_gates (ids : List Nat) : (last ((startAps env ids).run s)).gates = s.gates := by
  induction ids generalizing s with
  | nil => rfl
  | cons i rest ih =>
      have first : (last ((startAp env i).run s)).gates = s.gates := startAp_gates
      rw [startAps]
      cases ran : (startAp env i).run s with
      | ok _ t =>
          rw [ran] at first
          rw [bind_ok ran]
          exact ih.trans first
      | error e t =>
          rw [ran] at first
          rwa [bind_error ran]

theorem finish_gates (apCount : Nat) : (last ((finish env apCount).run s)).gates = s.gates := by
  obtain rfl | pos := Nat.eq_zero_or_pos apCount
  · rfl
  · rw [finish_pos pos]
    have same := @startAps_gates env (s.counted env apCount) (List.range (s.ttableMax + 1))
    cases ran : (startAps env (List.range (s.ttableMax + 1))).run (s.counted env apCount) with
    | ok _ u =>
        rw [ran] at same
        rw [bind_ok ran]
        exact same
    | error e u =>
        rw [ran] at same
        rw [bind_error ran]
        exact same

theorem registerAll_gates (ids : List Nat) (apCount : Nat) :
    (s.registerAll env ids apCount).gates = s.gates := by
  induction ids generalizing s apCount with
  | nil => rfl
  | cons apid rest ih => exact ih (apCount + 1)

/-- The gates that an AP finds that has been started. -/
theorem started_gates {vars : ApbootVars}
    (started : (i, vars) ∈ (last ((smpInit env).run .initial)).started) {n : Nat} (lt : n < maxCores) :
    (last ((smpInit env).run .initial)).isr n =
      (env.apkernelIdt n).relocate (last ((smpInit env).run .initial)).kernelFlat := by
  obtain ⟨ct, as, ran⟩ := smpInit_started started
  have same : (last ((smpInit env).run .initial)).gates = ((State.initial.read as).prepared env).gates := by
    rw [ran, finish_gates]
    exact registerAll_gates (registered env ct) 0
  have flat : (last ((smpInit env).run .initial)).kernelFlat = env.page 1 := congrArg Prod.fst same
  have gates : (last ((smpInit env).run .initial)).isr =
      ((State.initial.read as).prepared env).isr := congrArg Prod.snd same
  rw [flat, gates]
  exact if_pos lt

/-! ## What an AP reads -/

/-- What the processor reads from the descriptors and the task state. -/
structure Decoded (stack : Dword) (data : Tdata) : Prop where
  tss : Segment.select data.gdt 0x28 = .availableTss (data.addr + tdataTss) 0x67
  others : ∀ n < 10, data.gdt n = defGdt.getD n 0
  esp0 : tssEsp0 data.tss = stack + stackOffTss
  ss0 : tssSs0 data.tss = 0x10

/-- There is no I/O permission bitmap: it would begin past the limit of the task state. -/
def NoIoMap (tss : Nat → Dword) : Prop := 104 ≤ (tssIoMapBase tss).toNat

theorem Prepared.decoded {data : Tdata} (prepared : Prepared stack data) : Decoded stack data where
  tss := by
    rw [prepared.gdt]
    exact select_apGdt
  others := by
    intro n lt
    rw [prepared.gdt]
    exact apGdt_template lt
  esp0 := by
    rw [prepared.tss]
    rfl
  ss0 := by
    rw [prepared.tss]
    rfl

/-- The dword at offset 100 is left zero: the store meant for it goes to offset 64. -/
theorem Prepared.ioMap {data : Tdata} (prepared : Prepared stack data) : ¬NoIoMap data.tss := by
  have zero : tssIoMapBase data.tss = 0 := by
    have dword : apTss stack 25 = 0 := rfl
    rw [prepared.tss, tssIoMapBase, dword]
    rfl
  rw [NoIoMap, zero]
  decide

theorem apkernelGates_type : ∀ p ∈ apkernelGates.filterMap id,
    p.2.extractLsb' 16 16 = 0#16 ∧ (p.2.extractLsb' 8 8).getLsbD 7 = true := by
  have all : (apkernelGates.filterMap id).all (fun p =>
      p.2.extractLsb' 16 16 = 0#16 ∧ (p.2.extractLsb' 8 8).getLsbD 7 = true) = true := by
    decide +kernel
  intro p mem
  exact of_decide_eq_true (List.all_eq_true.1 all p mem)

/-- A gate of the kernel, moved to where the kernel is. -/
theorem kernelIdt_relocate {n : Nat} {handler type : Dword}
    (entry : apkernelGates.getD n none = some (handler, type)) :
    ((kernelIdt n).relocate kernelFlat).present = true ∧
      ((kernelIdt n).relocate kernelFlat).offset = kernelFlat + handler ∧
      ((kernelIdt n).relocate kernelFlat).selector = 0x8 ∧
      ((kernelIdt n).relocate kernelFlat).typeAttributes = type.extractLsb' 8 8 := by
  have mem : (handler, type) ∈ apkernelGates.filterMap id := by
    rw [List.mem_filterMap]
    refine ⟨_, ?_, rfl⟩
    rw [List.getD_eq_getElem?_getD] at entry
    cases found : apkernelGates[n]? with
    | none =>
        rw [found] at entry
        cases entry
    | some g =>
        rw [found] at entry
        obtain rfl : g = some (handler, type) := entry
        exact List.mem_of_getElem? found
  obtain ⟨high, present⟩ := apkernelGates_type _ mem
  have same : kernelIdt n = idtEntry (apKernelBase + handler) type := by
    rw [kernelIdt, entry]
  obtain ⟨offset, selector, -, attributes⟩ := @idtEntry_spec (apKernelBase + handler) type high
  rw [same]
  refine ⟨?_, ?_, selector, attributes⟩
  · change (idtEntry (apKernelBase + handler) type).typeAttributes.getLsbD 7 = true
    rw [attributes]
    exact present
  · rw [relocate_offset, offset, BitVec.add_comm apKernelBase, BitVec.add_sub_cancel]

/-- What an AP reads from its gates, its descriptors and its task state is what the code means,
but for the I/O map, whose base is below the limit for every AP. -/
theorem ap_descriptors (env : Env) :
    (∀ (s t : State) (apid apCount : Nat), (setupAp env apid apCount).run s = .ok () t →
      ∃ data, (t.items apid).data = some data ∧ Decoded (t.items apid).stack data ∧
        ¬NoIoMap data.tss) ∧
    ∀ i vars data, (i, vars) ∈ (last ((smpInit env).run .initial)).started →
      ((last ((smpInit env).run .initial)).items i).data = some data →
      Decoded ((last ((smpInit env).run .initial)).items i).stack data ∧ ¬NoIoMap data.tss ∧
      ∀ n < maxCores,
        (((last ((smpInit env).run .initial)).isr n).offset =
            (last ((smpInit env).run .initial)).kernelFlat + ((env.apkernelIdt n).offset - apKernelBase) ∧
          ((last ((smpInit env).run .initial)).isr n).selector = (env.apkernelIdt n).selector ∧
          ((last ((smpInit env).run .initial)).isr n).typeAttributes =
            (env.apkernelIdt n).typeAttributes) ∧
        (env.apkernelIdt n = kernelIdt n → ∀ handler type,
          apkernelGates.getD n none = some (handler, type) →
          ((last ((smpInit env).run .initial)).isr n).present = true ∧
          ((last ((smpInit env).run .initial)).isr n).offset =
            (last ((smpInit env).run .initial)).kernelFlat + handler ∧
          ((last ((smpInit env).run .initial)).isr n).selector = 0x8 ∧
          ((last ((smpInit env).run .initial)).isr n).typeAttributes = type.extractLsb' 8 8) := by
  constructor
  · intro s t apid apCount ran
    obtain ⟨data, block, prepared⟩ := setupAp_prepared ran
    exact ⟨data, block, prepared.decoded, prepared.ioMap⟩
  · intro i vars data started block
    have prepared := started_prepared started block
    refine ⟨prepared.decoded, prepared.ioMap, ?_⟩
    intro n lt
    rw [started_gates started lt]
    refine ⟨⟨relocate_offset _ _, rfl, rfl⟩, ?_⟩
    intro image handler type entry
    rw [image]
    exact kernelIdt_relocate entry

/-- Two APs, with the table of the kernel. -/
def kernelMachine : Env := { twoAps with apkernelIdt := kernelIdt }

theorem ap_io_map : ¬∀ (env : Env) (i : Nat) (vars : ApbootVars) (data : Tdata),
    (i, vars) ∈ (last ((smpInit env).run .initial)).started →
    ((last ((smpInit env).run .initial)).items i).data = some data → NoIoMap data.tss := by
  intro all
  have started : 1 ∈ (last ((smpInit kernelMachine).run .initial)).started.map Prod.fst := by
    decide +kernel
  have isSome : ((last ((smpInit kernelMachine).run .initial)).items 1).data.isSome = true := by
    decide +kernel
  have clear : ((last ((smpInit kernelMachine).run .initial)).items 1).data.map (fun d => d.tss 25) =
      some 0 := by
    decide +kernel
  obtain ⟨vars, data, mem, block⟩ := exists_started started isSome
  rw [block] at clear
  have zero : data.tss 25 = 0 := Option.some.inj clear
  have base := all kernelMachine 1 vars data mem block
  rw [NoIoMap, tssIoMapBase, zero] at base
  revert base
  decide

end SmpVxd.Boot
