import SmpVxd.Startup.Handshake
import Mathlib.Tactic.IntervalCases

/-!
# The steps of the start, one by one

The statements for a slot by their position, the outcomes of a statement of the BSP, and
what the boot code does when nobody else writes to the page.
-/

namespace SmpVxd.Startup

open X86

variable (cfg : Setup)

/-- The statements of the loop body with their positions. -/
inductive StmtAt (i : Nat) : Nat → Stmt → Prop where
  | copyPd : StmtAt i 0 .copyPd
  | mapBoot : StmtAt i 1 .mapBoot
  | field (j f) : (fields (cfg.vars i))[j]? = some f →
      StmtAt i (j + 2) (.field (Boot.apBootAddr + apBootVarOff + f.1) f.2.1 f.2.2)
  | select (k) : k = 12 ∨ k = 15 ∨ k = 20 ∨ k = 25 → StmtAt i k .select
  | init : StmtAt i 13 (.send 0xfff00000 0x00C500)
  | deassert : StmtAt i 16 (.send 0xfff00000 0x008500)
  | startup (k) : k = 21 ∨ k = 26 → StmtAt i k (.send 0xfff0f800 0x000608)
  | clearErrors (k) : k = 19 ∨ k = 24 → StmtAt i k .clearErrors
  | delay (k) : k = 18 ∨ k = 22 ∨ k = 27 → StmtAt i k .delay
  | waitDelivery (k) : k = 14 ∨ k = 17 ∨ k = 23 ∨ k = 28 → StmtAt i k .waitDelivery
  | waitReady : StmtAt i 29 .waitReady

/-- The number of statements for a slot. -/
def slotLength : Nat := 30

/-- The outcomes of a statement of the BSP. -/
inductive BspStep (s : State) : State → Prop where
  | apicBase : s.bsp = .apicBase → BspStep s { s with
      msr := s.apicBase
      apicBase := (s.apicBase.1 ||| apicGlobalEnable, s.apicBase.2)
      bsp := .backup 0 }
  | backup (k) : s.bsp = .backup k → k < Boot.pageBackupSize → BspStep s { s with
      pageBackup := Function.update s.pageBackup k (s.low (Boot.apBootAddr + .ofNat 32 k))
      bsp := .backup (k + 1) }
  | backedUp (k) : s.bsp = .backup k → Boot.pageBackupSize ≤ k → BspStep s { s with bsp := .install 0 }
  | install (k b) : s.bsp = .install k → cfg.apboot[k]? = some b → BspStep s { s with
      low := s.low.set (Boot.apBootAddr + .ofNat 32 k) b
      bsp := .install (k + 1) }
  | installed (k) : s.bsp = .install k → apbootLen ≤ k → BspStep s { s with bsp := .svr }
  | svr : s.bsp = .svr → BspStep s { s with svr := s.svr ||| 0x100, bsp := .waitIdle }
  | poll : s.bsp = .waitIdle → s.icr &&& 0x1000 ≠ 0 → BspStep s s
  | idle : s.bsp = .waitIdle → BspStep s { s with bsp := .slot 0 0 }
  | past (i k) : s.bsp = .slot i k → cfg.ttableMax < i → BspStep s { s with bsp := .restore 0 }
  | skip (i k) : s.bsp = .slot i k → i ≤ cfg.ttableMax → cfg.registered i = false →
      BspStep s { s with bsp := .slot (i + 1) 0 }
  | stmt (i k x) : s.bsp = .slot i k → i ≤ cfg.ttableMax → cfg.registered i = true →
      (slotCode cfg i)[k]? = some x →
      BspStep s (x.exec cfg s i (.slot i (k + 1)))
  | next (i k) : s.bsp = .slot i k → i ≤ cfg.ttableMax → cfg.registered i = true → slotLength ≤ k →
      BspStep s { s with bsp := .slot (i + 1) 0 }
  | restore (k) : s.bsp = .restore k → k < Boot.pageBackupSize → BspStep s { s with
      low := s.low.set (Boot.apBootAddr + .ofNat 32 k) (s.pageBackup k)
      bsp := .restore (k + 1) }
  | restored (k) : s.bsp = .restore k → Boot.pageBackupSize ≤ k → BspStep s { s with bsp := .restoreBase }
  | restoreBase : s.bsp = .restoreBase → BspStep s { s with apicBase := s.msr, bsp := .returned }

variable {cfg} {i j k n : Nat} {stmt : Stmt}

theorem fields_length (vars : Boot.ApbootVars) : (fields vars).length = 10 := rfl

theorem ipiCode_at (h : ipiCode[k]? = some stmt) : StmtAt cfg i (12 + k) stmt := by
  have below : k < 18 := (List.getElem?_eq_some_iff.mp h).1
  interval_cases k <;> cases h
  · exact .select 12 (by decide)
  · exact .init
  · exact .waitDelivery 14 (by decide)
  · exact .select 15 (by decide)
  · exact .deassert
  · exact .waitDelivery 17 (by decide)
  · exact .delay 18 (by decide)
  · exact .clearErrors 19 (by decide)
  · exact .select 20 (by decide)
  · exact .startup 21 (by decide)
  · exact .delay 22 (by decide)
  · exact .waitDelivery 23 (by decide)
  · exact .clearErrors 24 (by decide)
  · exact .select 25 (by decide)
  · exact .startup 26 (by decide)
  · exact .delay 27 (by decide)
  · exact .waitDelivery 28 (by decide)
  · exact .waitReady

theorem slotCode_at (h : (slotCode cfg i)[k]? = some stmt) : StmtAt cfg i k stmt := by
  by_cases prepare : k < 12
  · rw [slotCode, List.getElem?_append_left (by exact prepare)] at h
    match k with
    | 0 =>
        cases h
        exact .copyPd
    | 1 =>
        cases h
        exact .mapBoot
    | j + 2 =>
        rw [prepareCode, List.getElem?_append_right (by simp)] at h
        simp only [List.length_cons, List.length_nil, Nat.add_sub_cancel, List.getElem?_map,
          Option.map_eq_some_iff] at h
        obtain ⟨f, found, rfl⟩ := h
        exact .field j f found
  · rw [slotCode, List.getElem?_append_right (by exact Nat.le_of_not_lt prepare)] at h
    have here : StmtAt cfg i _ stmt := ipiCode_at h
    rwa [show 12 + (k - (prepareCode cfg i).length) = k from
      Nat.add_sub_cancel' (Nat.le_of_not_lt prepare)] at here

theorem StmtAt.lt (h : StmtAt cfg i k stmt) : k < slotLength := by
  cases h with
  | field j f found =>
      have below : j < 10 := (List.getElem?_eq_some_iff.mp found).1
      unfold slotLength
      omega
  | _ =>
      unfold slotLength
      omega

theorem bspStep_outcome {s t : State} (h : bspStep cfg s = some t) : BspStep cfg s t := by
  unfold bspStep at h
  split at h
  · cases h
    exact .apicBase ‹_›
  · split at h
    · cases h
      exact .backup _ ‹_› ‹_›
    · cases h
      exact .backedUp _ ‹_› (Nat.le_of_not_lt ‹_›)
  · split at h
    · cases h
      exact .install _ _ ‹_› ‹_›
    · rename_i none
      cases h
      have past := List.getElem?_eq_none_iff.mp none
      rw [cfg.apboot_len] at past
      exact .installed _ ‹_› past
  · cases h
    exact .svr ‹_›
  · split at h
    · cases h
      exact .poll ‹_› ‹_›
    · cases h
      exact .idle ‹_›
  · split at h
    · cases h
      exact .past _ _ ‹_› ‹_›
    · have within := Nat.le_of_not_lt ‹¬cfg.ttableMax < _›
      split at h
      · split at h
        · cases h
          exact .stmt _ _ _ ‹_› within ‹_› ‹_›
        · rename_i none
          cases h
          exact .next _ _ ‹_› within ‹_› (List.getElem?_eq_none_iff.mp none)
      · cases h
        exact .skip _ _ ‹_› within (Bool.eq_false_of_not_eq_true ‹_›)
  · split at h
    · cases h
      exact .restore _ ‹_› ‹_›
    · cases h
      exact .restored _ ‹_› (Nat.le_of_not_lt ‹_›)
  · cases h
    exact .restoreBase ‹_›
  · cases h

/-- What a processor that executes can do. -/
inductive CpuStep (cfg : Setup) (s : State) (i : Nat) : State → Prop where
  | boot (n instr) : (s.cpu i).pc = .boot n → bootCode[n]? = some instr →
      CpuStep cfg s i { s.setCpu i { (instr.exec (s.low, s.cpu i)).2 with
          pc := if n + 1 < bootCode.length then .boot (n + 1)
            else if (instr.exec (s.low, s.cpu i)).2.eip = cfg.kernelFlat then .kernelBoot else .lost } with
        low := (instr.exec (s.low, s.cpu i)).1 }
  | kernelBoot : (s.cpu i).pc = .kernelBoot →
      CpuStep cfg s i { s.setCpu i { s.cpu i with pc := .running } with
        status := Function.update s.status i .ready }

theorem cpuStep_outcome {s t : State} (h : cpuStep cfg s i = some t) : CpuStep cfg s i t := by
  unfold cpuStep at h
  split at h
  · split at h
    · cases h
      exact .boot _ _ ‹_› ‹_›
    · cases h
  · cases h
    exact .kernelBoot ‹_›
  · cases h

/-! ## The boot code on its own -/

/-- The first `n` instructions. -/
def bootRun (n : Nat) (p : Mem × Cpu) : Mem × Cpu := (bootCode.take n).foldl BootInstr.exec p

theorem bootRun_succ {instr : BootInstr} (h : bootCode[n]? = some instr) (p : Mem × Cpu) :
    bootRun (n + 1) p = instr.exec (bootRun n p) := by
  have split : bootCode.take (n + 1) = bootCode.take n ++ [instr] := by
    rw [List.take_add_one, h]
    rfl
  rw [bootRun, split, List.foldl_append]
  rfl

/-- The instructions do not depend on what stands for the program counter. -/
theorem exec_pc (instr : BootInstr) (m : Mem) (c : Cpu) (pc : CpuPc) :
    instr.exec (m, { c with pc := pc }) =
      ((instr.exec (m, c)).1, { (instr.exec (m, c)).2 with pc := pc }) := by
  cases instr <;> rfl

/-- The bytes of a field are in memory. -/
def Held (m : Mem) (a : Word) (n : Nat) (v : Word) : Prop :=
  ∀ j < n, m (a + .ofNat 32 j) = v.extractLsb' (8 * j) 8

theorem Held.read {m : Mem} {a v : Word} (h : Held m a 4 v) : m.read a = v := by
  have b (j : Nat) (lt : j < 4) : m (a + .ofNat 32 j) = v.extractLsb' (8 * j) 8 := h j lt
  have b0 : m a = v.extractLsb' 0 8 := by simpa using b 0 (by decide)
  simp only [Mem.read]
  rw [b0, show m (a + 1) = _ from b 1 (by decide), show m (a + 2) = _ from b 2 (by decide),
    show m (a + 3) = _ from b 3 (by decide)]
  simp only [Nat.mul_one, Nat.reduceMul, BitVec.extractLsb'_append_extractLsb'_eq_extractLsb']
  simp

theorem Held.readHalf {m : Mem} {a v : Word} (h : Held m a 2 v) : readHalf m a = v.setWidth 16 := by
  have b0 : m a = v.extractLsb' 0 8 := by simpa using h 0 (by decide)
  rw [Startup.readHalf, b0, show m (a + 1) = _ from h 1 (by decide)]
  simp only [Nat.mul_one, BitVec.extractLsb'_append_extractLsb'_eq_extractLsb']
  exact (BitVec.setWidth_eq_extractLsb' (by decide)).symm

theorem held_storeField {m : Mem} {a v : Word} (small : n ≤ 4) : Held (storeField m a n v) a n v := by
  intro j lt
  have offset : (a + .ofNat 32 j - a).toNat = j := by bv_omega
  simp only [storeField, Mem.blit]
  rw [offset, if_pos lt]

theorem storeField_apply {m : Mem} {a b v : Word} (outside : n ≤ (b - a).toNat) :
    storeField m a n v b = m b := if_neg (by omega)

end SmpVxd.Startup
