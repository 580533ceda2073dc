import SmpVxd.Protocol.Wakeup
import SmpVxd.Transition.SharedCell
import Mathlib.Algebra.BigOperators.Group.Finset.Piecewise
import Mathlib.Algebra.Order.BigOperators.Group.Finset
import Mathlib.Algebra.Group.Action.Defs

/-!
# The free-AP counter

`gdata.ap_free_cnt` is read and stored by the BSP and by every AP, without a lock.
Each slot gives the counter a credit: one for a free AP that has been counted, and
one for a hand-off that has not been subtracted yet. As long as no CPU reads the
counter while another one is between its read and its store, the counter is the sum
of the credits.
-/

namespace SmpVxd

open Transition

/-- The AP is free again, but has not been counted yet. -/
def ApPc.counting : ApPc → Bool
  | .incLoad | .incStore _ => true
  | _ => false

/-- The BSP has freed AP `i`, but has not counted it yet. -/
def Bsp.taking (i : Nat) : Bsp → Bool
  | .incLoad l | .incStore l _ => l.cpu == i
  | _ => false

/-- The BSP has handed a thread to AP `i`, but has not subtracted the AP yet. -/
def Bsp.giving (i : Nat) : Bsp → Bool
  | .apWakeup l _ | .apUnlock l _ => l.cpu == i && l.found
  | .decLoad l | .decStore l _ => l.cpu == i
  | _ => false

def Sys.counted (s : Sys) (i : Nat) : Bool :=
  (s.value i).free && !(s.ap i).pc.counting && !s.bsp.taking i

/-- What slot `i` contributes to the counter. -/
def Sys.credit (s : Sys) (i : Nat) : Nat := (s.counted i).toNat + (s.bsp.giving i).toNat

def ApPc.cntCopy : ApPc → Option Dword
  | .incStore cnt => some cnt
  | _ => none

def Bsp.cntCopy : Bsp → Option Dword
  | .decStore _ cnt | .incStore _ cnt => some cnt
  | _ => none

/-- The counter with the copies of the CPUs; `none` is the BSP. -/
def Sys.freeCell (s : Sys) : SharedCell.State (Option Nat) Dword where
  cell := s.apFreeCnt
  copy
    | none => s.bsp.cntCopy
    | some i => (s.ap i).pc.cntCopy

/-- The action reads the counter in order to change it. -/
def loadsCnt (s : Sys) : Action → Bool
  | .ap i _ _ => (s.ap i).pc = .incLoad
  | .bsp => match s.bsp with
      | .decLoad _ | .incLoad _ => true
      | _ => false
  | _ => false

/-- Some CPU is between its read of the counter and its store. -/
def Sys.storing (cfg : Config) (s : Sys) : Bool :=
  s.bsp.cntCopy.isSome ||
    (List.range (cfg.ttableMax + 1)).any fun i => (s.ap i).pc.cntCopy.isSome

/-- The action does not read the counter while a CPU is about to store it. -/
def uncontended (cfg : Config) (s : Sys) (a : Action) : Bool := !(loadsCnt s a && s.storing cfg)

/-- What a step does to the counter, to the copies of it and to the credits. -/
inductive Account (cfg : Config) (s : Sys) (a : Action) (t : Sys) : Prop where
  | keep : t.apFreeCnt = s.apFreeCnt → (∀ i, t.credit i = s.credit i) →
      (∀ c, t.freeCell.copy c = s.freeCell.copy c) → Account cfg s a t
  | load (c) : loadsCnt s a = true → t.apFreeCnt = s.apFreeCnt →
      (∀ i, t.credit i = s.credit i) → t.freeCell.copy c = some s.apFreeCnt →
      (∀ d, d ≠ c → t.freeCell.copy d = s.freeCell.copy d) → Account cfg s a t
  | inc (c v i) : s.freeCell.copy c = some v → t.freeCell.copy c = none →
      (∀ d, d ≠ c → t.freeCell.copy d = s.freeCell.copy d) → i ∈ cfg.slots →
      t.apFreeCnt = v + 1 → t.credit i = s.credit i + 1 →
      (∀ j, j ≠ i → t.credit j = s.credit j) → Account cfg s a t
  | dec (c v i) : s.freeCell.copy c = some v → t.freeCell.copy c = none →
      (∀ d, d ≠ c → t.freeCell.copy d = s.freeCell.copy d) → i ∈ cfg.slots →
      t.apFreeCnt = v - 1 → t.credit i + 1 = s.credit i →
      (∀ j, j ≠ i → t.credit j = s.credit j) → Account cfg s a t

variable {cfg : Config} {s t : Sys} {a : Action} {i j : Nat}

theorem credit_congr (free : (t.value i).free = (s.value i).free)
    (counting : (t.ap i).pc.counting = (s.ap i).pc.counting)
    (taking : t.bsp.taking i = s.bsp.taking i) (giving : t.bsp.giving i = s.bsp.giving i) :
    t.credit i = s.credit i := by
  simp only [Sys.credit, Sys.counted, free, counting, taking, giving]

theorem ApFrame.credit (h : ApFrame j s t) (ne : i ≠ j) : t.credit i = s.credit i :=
  credit_congr (by rw [h.value ne]) (by rw [h.others i ne]) (by rw [h.bsp]) (by rw [h.bsp])

theorem ApFrame.copy (h : ApFrame j s t) (c : Option Nat) (ne : c ≠ some j) :
    t.freeCell.copy c = s.freeCell.copy c := by
  cases c with
  | none => simp only [Sys.freeCell, h.bsp]
  | some i =>
      have ne' : i ≠ j := fun same => ne (congrArg some same)
      simp only [Sys.freeCell, h.others i ne']

/-- A step of an AP that has nothing to do with the counter. -/
theorem ApFrame.keep (h : ApFrame j s t) (cnt : t.apFreeCnt = s.apFreeCnt)
    (free : (t.value j).free = (s.value j).free)
    (counting : (t.ap j).pc.counting = (s.ap j).pc.counting)
    (copy : (t.ap j).pc.cntCopy = (s.ap j).pc.cntCopy) : Account cfg s a t := by
  refine .keep cnt (fun i => ?_) fun c => ?_
  · by_cases same : i = j
    · subst same
      exact credit_congr free counting (by rw [h.bsp]) (by rw [h.bsp])
    · exact h.credit same
  · by_cases same : c = some j
    · subst same
      exact copy
    · exact h.copy c same

/-- The BSP is not counting an AP that holds its own word. -/
theorem Locks.not_taking (locks : Locks s) {v : Status} (held : (s.ap i).pc.held = some v) :
    s.bsp.taking i = false := by
  cases taking : s.bsp.taking i with
  | false => rfl
  | true =>
      have lock : s.bsp.held i = some .ready := by
        generalize s.bsp = b at taking
        cases b <;> simp_all [Bsp.taking, Bsp.held, Bsp.lock]
      have free := (locks i).others (a := .bsp) lock (b := .ap) (by decide)
      cases free.symm.trans held

/-- Only the end of `S_DIRCARD` makes an AP free. -/
theorem ApStep.free (locks : Locks s) (h : ApStep j s t) (ne : (s.ap j).pc ≠ .switch .dircard) :
    (t.value j).free = (s.value j).free := by
  obtain same | move := h.value locks
  · rw [same]
  · generalize (s.ap j).pc = pc at move ne
    generalize s.value j = v at move ⊢
    generalize t.value j = w at move ⊢
    cases move <;> first | rfl | exact absurd rfl ne

theorem ApStep.account (locks : Locks s) (present : cfg.present j = true) (h : ApStep j s t)
    (now : BitVec 64) (msClock : Dword) : Account cfg s (.ap j now msClock) t := by
  have frame := h.frame
  have free := h.free locks
  have others : ∀ i, i ≠ j → t.credit i = s.credit i := fun i ne => frame.credit ne
  have copies : ∀ c, c ≠ some j → t.freeCell.copy c = s.freeCell.copy c := frame.copy
  cases h with
  | kernelBoot pc =>
      exact frame.keep rfl (free (by rw [pc]; rintro ⟨⟩)) (by simp [pc, ApPc.counting])
        (by simp [pc, ApPc.cntCopy])
  | spin pc busy => exact .keep rfl (fun _ => rfl) fun _ => rfl
  | lock pc _ =>
      exact frame.keep rfl (free (by rw [pc]; rintro ⟨⟩)) (by simp [pc, ApPc.counting])
        (by simp [pc, ApPc.cntCopy])
  | branch v w rc now pc branch =>
      refine frame.keep rfl (free ?_) (by simp [pc, ApPc.counting]) (by simp [pc, ApPc.cntCopy])
      rw [pc]
      cases branch with
      | stay _ _ _ notDircard => exact fun same => notDircard (ApPc.switch.inj same)
      | sleep => rintro ⟨⟩
      | load => rintro ⟨⟩
  | notify ts pc found lock =>
      exact frame.keep rfl (free (by rw [pc]; rintro ⟨⟩)) (by simp [pc, ApPc.counting])
        (by simp [pc, ApPc.cntCopy])
  | silent pc absent =>
      exact frame.keep rfl (free (by rw [pc]; rintro ⟨⟩)) (by simp [pc, ApPc.counting])
        (by simp [pc, ApPc.cntCopy])
  | discard now pc =>
      -- the AP is free from here on, and owes the counter an increment
      refine .keep rfl (fun i => ?_) fun c => ?_
      · by_cases same : i = j
        · subst same
          have before : s.value i = .dircard := value_of_ap (by rw [pc]; rfl)
          simp [Sys.credit, Sys.counted, before, Status.free, ApPc.counting]
        · exact others i same
      · by_cases same : c = some j
        · subst same
          simp [Sys.freeCell, pc, ApPc.cntCopy]
        · exact copies c same
  | clearIdleLock lock pc =>
      exact frame.keep rfl (free (by rw [pc]; rintro ⟨⟩)) (by simp [Sys.setAp, pc, ApPc.counting])
        (by simp [Sys.setAp, pc, ApPc.cntCopy])
  | incLoad pc =>
      refine .load (some j) (by simp [loadsCnt, pc]) rfl (fun i => ?_) ?_ copies
      · by_cases same : i = j
        · subst same
          exact credit_congr (free (by rw [pc]; rintro ⟨⟩)) (by simp [pc, ApPc.counting]) rfl rfl
        · exact others i same
      · simp [Sys.freeCell, ApPc.cntCopy]
  | incStore cnt pc =>
      have held : (s.ap j).pc.held = some .ready := by rw [pc]; rfl
      have untaken := locks.not_taking held
      refine .inc (some j) cnt j ?_ ?_ copies (Config.mem_slots.mpr present) rfl ?_ others
      · simp [Sys.freeCell, pc, ApPc.cntCopy]
      · simp [Sys.freeCell, Sys.setAp, ApPc.cntCopy]
      · have before : s.value j = .ready := value_of_ap held
        have after := free (by rw [pc]; rintro ⟨⟩)
        rw [before] at after
        simp only [Sys.credit, Sys.counted, after, before]
        simp [Sys.setAp, pc, ApPc.counting, Status.free, untaken, Nat.add_comm]
  | unlock v rc pc =>
      refine frame.keep rfl (free (by rw [pc]; rintro ⟨⟩)) ?_ ?_
      · simp only [Sys.setAp_self, pc]
        split
        · rfl
        · split <;> rfl
      · simp only [Sys.setAp_self, pc]
        split
        · rfl
        · split <;> rfl
  | sti pc =>
      exact frame.keep rfl (free (by rw [pc]; rintro ⟨⟩)) (by simp [pc, ApPc.counting])
        (by simp [pc, ApPc.cntCopy])
  | hlt pc =>
      exact frame.keep rfl (free (by rw [pc]; rintro ⟨⟩)) (by simp [pc, ApPc.counting])
        (by simp [pc, ApPc.cntCopy])
  | switchtask fpu pc =>
      exact frame.keep rfl (free (by rw [pc]; rintro ⟨⟩)) (by simp [pc, ApPc.counting])
        (by simp [pc, ApPc.cntCopy])

theorem switchToApReturn_counter (l : ToAp) (rc : Bool) (i : Nat) :
    (switchToApReturn l rc).taking i = false ∧ (switchToApReturn l rc).giving i = false ∧
      (switchToApReturn l rc).cntCopy = none := by
  unfold switchToApReturn
  split <;> exact ⟨rfl, rfl, rfl⟩

theorem BspStep.counting (h : BspStep cfg s t) (i : Nat) :
    (t.ap i).pc.counting = (s.ap i).pc.counting ∧ (t.ap i).pc.cntCopy = (s.ap i).pc.cntCopy := by
  obtain same | ⟨off, boot⟩ := h.pc i
  · rw [same]
    exact ⟨rfl, rfl⟩
  · rw [off, boot]
    exact ⟨rfl, rfl⟩

theorem BspStep.copy (h : BspStep cfg s t) (c : Option Nat) (ne : c ≠ none) :
    t.freeCell.copy c = s.freeCell.copy c := by
  cases c with
  | none => exact absurd rfl ne
  | some i => exact (h.counting i).2

/-- A step of the BSP that has nothing to do with the counter. -/
theorem BspStep.keep (locks : Locks s) (h : BspStep cfg s t) (still : s.bsp.moves = false)
    (cnt : t.apFreeCnt = s.apFreeCnt) (taking : ∀ i, t.bsp.taking i = s.bsp.taking i)
    (giving : ∀ i, t.bsp.giving i = s.bsp.giving i) (copy : t.bsp.cntCopy = s.bsp.cntCopy) :
    Account cfg s a t := by
  refine .keep cnt (fun i => ?_) fun c => ?_
  · exact credit_congr (by rw [h.value_same locks still i]) (h.counting i).1 (taking i) (giving i)
  · by_cases same : c = none
    · subst same
      exact copy
    · exact h.copy c same

theorem BspGoto.account {b : Bsp} (locks : Locks s) (ok : BspOk cfg s.tsHt s.bsp)
    (h : BspGoto cfg s s.bsp b) : Account cfg s .bsp { s with bsp := b } := by
  have step : BspStep cfg s { s with bsp := b } := .goto b h
  have still := h.moves
  have keep (taking : ∀ i, b.taking i = s.bsp.taking i) (giving : ∀ i, b.giving i = s.bsp.giving i)
      (copy : b.cntCopy = s.bsp.cntCopy) : Account cfg s .bsp { s with bsp := b } :=
    step.keep locks still rfl taking giving copy
  have credit (taking : ∀ i, b.taking i = s.bsp.taking i)
      (giving : ∀ i, b.giving i = s.bsp.giving i) :
      ∀ i, ({ s with bsp := b } : Sys).credit i = s.credit i := fun i =>
    credit_congr (by rw [step.value_same locks still i]) rfl (taking i) (giving i)
  generalize pc : s.bsp = c at h ok keep credit
  cases h with
  | booted i _ => exact keep (fun _ => rfl) (fun _ => rfl) rfl
  | empty i _ => exact keep (fun _ => rfl) (fun _ => rfl) rfl
  | ready i _ _ => exact keep (fun _ => rfl) (fun _ => rfl) rfl
  | noAp l _ =>
      exact keep (fun i => (switchToApReturn_counter l false i).1)
        (fun i => (switchToApReturn_counter l false i).2.1)
        (switchToApReturn_counter l false 0).2.2
  | tryAp l _ => exact keep (fun _ => rfl) (fun _ => rfl) rfl
  | nextAp l _ => exact keep (fun _ => rfl) (fun _ => rfl) rfl
  | noLock l v ts _ _ _ => exact keep (fun _ => rfl) (fun _ => rfl) rfl
  | notFree l v _ => exact keep (fun _ => rfl) (fun i => by simp [Bsp.giving, ok.2.1]) rfl
  | noWakeup l v _ => exact keep (fun _ => rfl) (fun _ => rfl) rfl
  | decLoad l =>
      refine .load none (by simp [loadsCnt, pc]) rfl (credit (fun _ => rfl) fun _ => rfl) rfl ?_
      exact fun c ne => step.copy c ne
  | notCargo l v _ => exact keep (fun _ => rfl) (fun _ => rfl) rfl
  | incLoad l =>
      refine .load none (by simp [loadsCnt, pc]) rfl (credit (fun _ => rfl) fun _ => rfl) rfl ?_
      exact fun c ne => step.copy c ne
  | restored crs rc => exact keep (fun _ => rfl) (fun _ => rfl) rfl

theorem LockAt.counter {b : Bsp} {cpu : Nat} {next : Status → Bsp} (h : LockAt b cpu next)
    (v : Status) (i : Nat) : (next v).taking i = b.taking i ∧ (next v).giving i = b.giving i ∧
      (next v).cntCopy = b.cntCopy := by
  cases h <;> exact ⟨rfl, rfl, rfl⟩

theorem UnlockAt.counter {b c : Bsp} {cpu : Nat} {v : Status} (h : UnlockAt b cpu v c) (i : Nat) :
    c.taking i = b.taking i ∧ c.giving i = b.giving i ∧ c.cntCopy = b.cntCopy := by
  cases h with
  | destroy tid cpu v => exact ⟨rfl, rfl, rfl⟩
  | handedOff l v found => exact ⟨rfl, by simp [Bsp.giving, found], rfl⟩
  | nextAp l v notFound => exact ⟨rfl, by simp [Bsp.giving, notFound], rfl⟩
  | toBsp l v rc => exact ⟨rfl, rfl, rfl⟩

/-- While the BSP holds the word of an AP, this AP counts nothing. -/
theorem Locks.not_counting (locks : Locks s) {v : Status} (lock : s.bsp.lock = some (i, v)) :
    (s.ap i).pc.counting = false := by
  have free : (s.ap i).pc.held = none :=
    (locks i).others (a := .bsp) (Bsp.held_of_lock lock) (b := .ap) (by decide)
  generalize (s.ap i).pc = pc at free
  cases pc <;> first | rfl | cases free

/-- A step of the BSP that changes the credit of the slot whose word it holds. -/
theorem BspStep.credit_ne (locks : Locks s) (h : BspStep cfg s t) {cpu : Nat} {v : Status}
    (lock : s.bsp.lock = some (cpu, v))
    (bsp : ∀ i, i ≠ cpu → t.bsp.taking i = s.bsp.taking i ∧ t.bsp.giving i = s.bsp.giving i)
    (i : Nat) (ne : i ≠ cpu) : t.credit i = s.credit i :=
  credit_congr (by rw [h.value_ne locks lock ne]) (h.counting i).1 (bsp i ne).1 (bsp i ne).2

theorem BspStep.account (inv : Consistent cfg s) (h : BspStep cfg s t) : Account cfg s .bsp t := by
  have locks := inv.locks
  have locks' : Locks t := fun i => (locks i).step (h.word i)
  have ok := inv.ledger.bsp
  have full := h
  cases h with
  | goto b h => exact h.account locks ok
  | startAp j pc _ _ =>
      exact full.keep locks (by rw [pc]; rfl) rfl (fun _ => rfl) (fun _ => rfl) rfl
  | awaitAp j pc => exact .keep rfl (fun _ => rfl) fun _ => rfl
  | spin cpu next at_ _ => exact .keep rfl (fun _ => rfl) fun _ => rfl
  | lock cpu next at_ _ =>
      exact full.keep locks at_.moves rfl (fun i => (at_.counter _ i).1)
        (fun i => (at_.counter _ i).2.1) (at_.counter _ 0).2.2
  | unlock cpu v b at_ =>
      exact full.keep locks at_.moves rfl (fun i => (at_.counter i).1)
        (fun i => (at_.counter i).2.1) (at_.counter 0).2.2
  | discard tid cpu v pc =>
      rw [pc] at ok
      obtain ⟨ts, found, one, rfl⟩ := ok
      have hosting := (inv.hosting_of_record (by rw [pc]; rfl) found (by rw [one]; decide)).1
      have lock : s.bsp.lock = some (ts.smpApid, v) := by rw [pc]; rfl
      have before : s.value ts.smpApid = v := locks.value_of_bsp (Bsp.held_of_lock lock)
      have after : Sys.value _ ts.smpApid = .dircard := locks'.value_of_bsp (Bsp.held_of_lock rfl)
      rw [before] at hosting
      refine .keep rfl (fun i => ?_) fun c => ?_
      · by_cases same : i = ts.smpApid
        · subst same
          refine credit_congr ?_ rfl (by rw [pc]; rfl) (by rw [pc]; rfl)
          rw [before, after]
          cases v <;> first | rfl | cases hosting
        · exact full.credit_ne locks lock (fun _ _ => by rw [pc]; exact ⟨rfl, rfl⟩) i same
      · by_cases same : c = none
        · subst same
          simp only [Sys.freeCell, pc, Bsp.cntCopy]
        · exact full.copy c same
  | free tid pc =>
      exact full.keep locks (by rw [pc]; rfl) rfl (fun _ => by rw [pc]; rfl)
        (fun _ => by rw [pc]; rfl) (by rw [pc]; rfl)
  | setIdleLock l v ts pc free found lock =>
      exact full.keep locks (by rw [pc]; rfl) rfl (fun _ => by rw [pc]; rfl)
        (fun _ => by rw [pc]; rfl) (by rw [pc]; rfl)
  | handOff l v ts pc found =>
      rw [pc] at ok
      have free := ok.2.2.2.2
      have lock : s.bsp.lock = some (l.cpu, v) := by rw [pc]; rfl
      have before : s.value l.cpu = v := locks.value_of_bsp (Bsp.held_of_lock lock)
      have after : Sys.value _ l.cpu = .loaded :=
        locks'.value_of_bsp (Bsp.held_of_lock (handOff_lock l v ts))
      have giving : ∀ i, (SmpVxd.handOff cfg s l v ts).bsp.giving i = (l.cpu == i) := fun i => by
        simp [SmpVxd.handOff, Bsp.giving]
      refine .keep rfl (fun i => ?_) fun c => ?_
      · by_cases same : i = l.cpu
        · subst same
          simp only [Sys.credit, Sys.counted, before, after, free, giving, locks.not_counting lock]
          simp [pc, Bsp.taking, Bsp.giving, Status.free]
        · refine full.credit_ne locks lock (fun i ne => ⟨?_, ?_⟩) i same
          · rw [pc]
            rfl
          · rw [giving, pc]
            simp [Bsp.giving, ne.symm]
      · by_cases same : c = none
        · subst same
          simp [Sys.freeCell, SmpVxd.handOff, pc, Bsp.cntCopy]
        · exact full.copy c same
  | wakeup l v pc _ =>
      exact full.keep locks (by rw [pc]; rfl) rfl (fun _ => by rw [pc]; rfl)
        (fun _ => by rw [pc]; rfl) (by rw [pc]; rfl)
  | decStore l cnt pc =>
      rw [pc] at ok
      have returned := switchToApReturn_counter l true
      have value := full.value_same locks (by rw [pc]; rfl)
      refine .dec none cnt l.cpu ?_ (returned 0).2.2 full.copy (Config.mem_slots.mpr ok.2) rfl ?_ ?_
      · simp only [Sys.freeCell, pc, Bsp.cntCopy]
      · simp only [Sys.credit, Sys.counted, value, returned, pc]
        simp [Bsp.taking, Bsp.giving]
      · intro i ne
        refine credit_congr (by rw [value]) rfl ?_ ?_
        · rw [(returned i).1, pc]
          rfl
        · rw [(returned i).2.1, pc]
          simp [Bsp.giving, ne.symm]
  | takeBack l pc =>
      have lock : s.bsp.lock = some (l.cpu, .cargo) := by rw [pc]; rfl
      have before : s.value l.cpu = .cargo := locks.value_of_bsp (Bsp.held_of_lock lock)
      have taking : ∀ i, (SmpVxd.takeBack cfg s l).bsp.taking i = (l.cpu == i) := fun i => rfl
      refine .keep rfl (fun i => ?_) fun c => ?_
      · by_cases same : i = l.cpu
        · subst same
          simp only [Sys.credit, Sys.counted, before, taking]
          simp [pc, SmpVxd.takeBack, Bsp.giving, Status.free]
        · refine full.credit_ne locks lock (fun i ne => ⟨?_, ?_⟩) i same
          · rw [taking, pc]
            simp [Bsp.taking, ne.symm]
          · rw [pc]
            rfl
      · by_cases same : c = none
        · subst same
          simp [Sys.freeCell, SmpVxd.takeBack, pc, Bsp.cntCopy]
        · exact full.copy c same
  | incStore l cnt pc =>
      rw [pc] at ok
      have lock : s.bsp.lock = some (l.cpu, .ready) := by rw [pc]; rfl
      have before : s.value l.cpu = .ready := locks.value_of_bsp (Bsp.held_of_lock lock)
      have value := full.value_same locks (by rw [pc]; rfl)
      refine .inc none cnt l.cpu ?_ rfl full.copy (Config.mem_slots.mpr ok) rfl ?_ ?_
      · simp only [Sys.freeCell, pc, Bsp.cntCopy]
      · simp only [Sys.credit, Sys.counted, value, before, locks.not_counting lock]
        simp [pc, Bsp.taking, Bsp.giving, Status.free]
      · intro i ne
        refine credit_congr (by rw [value]) rfl ?_ (by rw [pc]; rfl)
        rw [pc]
        simp [Bsp.taking, ne.symm]
  | switchIn curTid cbsNew pc =>
      refine full.keep locks (by rw [pc]; rfl) ?_ ?_ ?_ ?_
      · unfold SmpVxd.switchIn
        split <;> rfl
      · intro i
        rw [switchIn_bsp, pc]
        rfl
      · intro i
        rw [switchIn_bsp, pc]
        rfl
      · rw [switchIn_bsp, pc]
        rfl

theorem Outcome.account (inv : Consistent cfg s) (h : Outcome cfg s a t) : Account cfg s a t := by
  cases h with
  | call op t idle call =>
      have quiet : ∀ i, t.bsp.taking i = false ∧ t.bsp.giving i = false ∧ t.bsp.cntCopy = none := by
        intro i
        cases call with
        | create tid page =>
            dsimp only
            rw [idle]
            exact ⟨rfl, rfl, rfl⟩
        | elevate proc lockaddr mode =>
            dsimp only [smpElevate]
            rw [idle]
            exact ⟨rfl, rfl, rfl⟩
        | enter op b ht entry same => cases entry <;> exact ⟨rfl, rfl, rfl⟩
      refine .keep ?_ (fun i => ?_) fun c => ?_
      · cases call <;> rfl
      · refine credit_congr (by rw [call.value idle]) (by rw [call.ap]) ?_ ?_
        · rw [(quiet i).1, idle]
          rfl
        · rw [(quiet i).2.1, idle]
          rfl
      · cases c with
        | none => exact (quiet 0).2.2.trans (by simp only [Sys.freeCell, idle, Bsp.cntCopy])
        | some i => simp only [Sys.freeCell, call.ap]
  | bsp t h => exact (bspStep_outcome h).account inv
  | ap j now msClock t present h => exact h.account inv.locks present now msClock
  | nmi j t present h =>
      refine h.frame.keep (by cases h <;> rfl) (by rw [h.value]) ?_ ?_
      · cases h with
        | wake _ halted => simp [halted, ApPc.counting]
        | dummy _ _ => simp
      · cases h with
        | wake _ halted => simp [halted, ApPc.cntCopy]
        | dummy _ _ => simp
  | trap j trap u x tid present pc =>
      refine (trap_frame cfg s j trap u x).keep rfl (by rw [trap_value cfg pc]) ?_ ?_
      · simp [Ap.switchBack, pc, ApPc.counting]
      · simp [Ap.switchBack, pc, ApPc.cntCopy]
  | compute x idle => exact .keep rfl (fun _ => rfl) fun _ => rfl
  | rebuildPd pageDir idle => exact .keep rfl (fun _ => rfl) fun _ => rfl

theorem Account.cell (h : Account cfg s a t) : SharedCell.Step s.freeCell t.freeCell := by
  cases h with
  | keep cnt _ copy => exact .stay cnt copy
  | load c _ cnt _ self others => exact .load c cnt self others
  | inc c v i holds self others _ _ _ _ => exact .store c v holds self others
  | dec c v i holds self others _ _ _ _ => exact .store c v holds self others

theorem credit_le (s : Sys) (i : Nat) : s.credit i ≤ 2 :=
  Nat.add_le_add (Bool.toNat_le _) (Bool.toNat_le _)

theorem Config.card_slots_le (cfg : Config) : cfg.slots.card ≤ maxCores := by
  have range := Finset.card_filter_le (Finset.range (cfg.ttableMax + 1)) fun i => cfg.present i = true
  rw [Finset.card_range] at range
  exact range.trans cfg.ttableMax_lt

theorem sum_credit_lt (cfg : Config) (s : Sys) : ∑ i ∈ cfg.slots, s.credit i < 2 ^ 32 - 1 := by
  have sum : ∑ i ∈ cfg.slots, s.credit i ≤ cfg.slots.card • 2 :=
    Finset.sum_le_card_nsmul _ _ _ fun i _ => credit_le s i
  have card := cfg.card_slots_le
  simp only [smul_eq_mul, maxCores] at sum card
  omega

/-- The sum of the credits when only slot `i` changes. -/
theorem sum_credit (member : i ∈ cfg.slots) (others : ∀ j, j ≠ i → t.credit j = s.credit j) :
    ∑ j ∈ cfg.slots, t.credit j + s.credit i = ∑ j ∈ cfg.slots, s.credit j + t.credit i := by
  have rest : ∑ j ∈ cfg.slots.erase i, t.credit j = ∑ j ∈ cfg.slots.erase i, s.credit j :=
    Finset.sum_congr rfl fun j mem => others j (Finset.ne_of_mem_erase mem)
  rw [← Finset.add_sum_erase _ _ member, ← Finset.add_sum_erase _ s.credit member, rest]
  omega

/-- The counter is right: it is the sum of the credits, and every copy of it is
current. -/
structure Counted (cfg : Config) (s : Sys) : Prop where
  total : s.apFreeCnt.toNat = ∑ i ∈ cfg.slots, s.credit i
  atomic : SharedCell.Atomic s.freeCell
  absent : ∀ i, cfg.present i = false → (s.ap i).pc.cntCopy = none

theorem Account.total (h : Account cfg s a t) (atomic : SharedCell.Atomic s.freeCell)
    (total : s.apFreeCnt.toNat = ∑ i ∈ cfg.slots, s.credit i) :
    t.apFreeCnt.toNat = ∑ i ∈ cfg.slots, t.credit i := by
  cases h with
  | keep cnt credit _ => rw [cnt, total, Finset.sum_congr rfl fun i _ => credit i]
  | load c _ cnt credit _ _ => rw [cnt, total, Finset.sum_congr rfl fun i _ => credit i]
  | inc c v i holds _ _ member cnt self others =>
      have current : v = s.apFreeCnt := atomic.current holds
      have bound := sum_credit_lt cfg s
      have sum := sum_credit member others
      have one : (1 : Dword).toNat = 1 := rfl
      rw [cnt, current, BitVec.toNat_add, total, one]
      omega
  | dec c v i holds _ _ member cnt self others =>
      have current : v = s.apFreeCnt := atomic.current holds
      have bound := sum_credit_lt cfg s
      have sum := sum_credit member others
      have one : (1 : Dword).toNat = 1 := rfl
      rw [cnt, current, BitVec.toNat_sub, total, one]
      omega

theorem Outcome.absent (h : Outcome cfg s a t) (absent : cfg.present i = false) :
    (t.ap i).pc.cntCopy = (s.ap i).pc.cntCopy := by
  have other : ∀ {j}, cfg.present j = true → i ≠ j := by
    rintro j present rfl
    cases absent.symm.trans present
  cases h with
  | call op t idle call => rw [call.ap]
  | bsp t h => exact ((bspStep_outcome h).counting i).2
  | ap j now msClock t present h => rw [h.frame.others i (other present)]
  | nmi j t present h => rw [h.frame.others i (other present)]
  | trap j trap u x tid present pc => rw [Sys.setAp_ne _ _ _ (other present)]
  | compute x idle => rfl
  | rebuildPd pageDir idle => rfl

theorem Counted.copy_none (counted : Counted cfg s) (quiet : s.storing cfg = false) :
    ∀ c, s.freeCell.copy c = none := by
  simp only [Sys.storing, Bool.or_eq_false_iff, List.any_eq_false, List.mem_range] at quiet
  rintro (_ | i)
  · simpa [Sys.freeCell] using quiet.1
  · cases present : cfg.present i with
    | false => exact counted.absent i present
    | true => simpa [Sys.freeCell] using quiet.2 i (Nat.lt_succ_of_le (cfg.present_le i present))

theorem Counted.step (inv : Consistent cfg s) (counted : Counted cfg s)
    (quiet : uncontended cfg s a = true) (h : Outcome cfg s a t) : Counted cfg t := by
  have account := h.account inv
  refine ⟨account.total counted.atomic counted.total,
    counted.atomic.step account.cell ?_, fun i absent => ?_⟩
  · rintro ⟨c, free, taken⟩
    cases account with
    | keep _ _ copy =>
        rw [copy, free] at taken
        cases taken
    | load d loads _ _ _ _ =>
        simp only [uncontended, loads, Bool.true_and, Bool.not_eq_true'] at quiet
        exact counted.copy_none quiet
    | inc d v i holds gone others _ _ _ _ =>
        by_cases same : c = d
        · rw [same, gone] at taken
          cases taken
        · rw [others c same, free] at taken
          cases taken
    | dec d v i holds gone others _ _ _ _ =>
        by_cases same : c = d
        · rw [same, gone] at taken
          cases taken
        · rw [others c same, free] at taken
          cases taken
  · rw [h.absent absent, counted.absent i absent]

theorem counted_initialised : Counted cfg (initialised cfg) := by
  refine ⟨?_, .of_none ?_, fun i _ => rfl⟩
  · have card := cfg.card_slots_le
    have one : ∀ i ∈ cfg.slots, (initialised cfg).credit i = 1 := fun i _ => rfl
    rw [Finset.sum_congr rfl one, Finset.sum_const, smul_eq_mul, mul_one]
    change (BitVec.ofNat 32 cfg.slots.card).toNat = _
    rw [BitVec.toNat_ofNat, Nat.mod_eq_of_lt]
    simp only [maxCores] at card
    omega
  · rintro (_ | i) <;> rfl

/-- No CPU is between a change of a status and the change of the counter that belongs
to it. -/
def Quiet (cfg : Config) (s : Sys) : Prop :=
  ∀ i ∈ cfg.slots, (s.ap i).pc.counting = false ∧ s.bsp.taking i = false ∧ s.bsp.giving i = false

instance : Decidable (Quiet cfg s) :=
  inferInstanceAs (Decidable (∀ i ∈ cfg.slots, _ ∧ _ ∧ _))

theorem Counted.card (counted : Counted cfg s) (quiet : Quiet cfg s) :
    s.apFreeCnt.toNat = (cfg.slots.filter fun i => (s.value i).free = true).card := by
  rw [counted.total, Finset.card_filter]
  refine Finset.sum_congr rfl fun i member => ?_
  obtain ⟨counting, taking, giving⟩ := quiet i member
  simp only [Sys.credit, Sys.counted, counting, taking, giving]
  cases (s.value i).free <;> rfl

/-- The counter is the number of free APs whenever no CPU is changing it together with
a status, and it is never decremented below zero, provided that no CPU reads it while
another one is between its read and its store. -/
theorem free_ap_count {as : List Action}
    (run : Run (restrict (Step cfg) fun s a => uncontended cfg s a = true)
      (initialised cfg) as t) :
    (Quiet cfg t →
      t.apFreeCnt.toNat = (cfg.slots.filter fun i => (t.value i).free = true).card ∧
      ((∀ i ∈ cfg.slots, (t.ap i).status ≠ .busy) →
        t.apFreeCnt.toNat = (cfg.slots.filter fun i => (t.ap i).status.free = true).card) ∧
      ∀ i ∈ cfg.slots, (t.value i).free = true → t.apFreeCnt ≠ 0) ∧
    ∀ l cnt, t.bsp = .decStore l cnt → cnt ≠ 0 := by
  obtain ⟨inv, counted⟩ := run.invariant_with (I := Consistent cfg) (P := Counted cfg)
    (fun s a t inv step => inv.step step.2)
    (fun s a t inv counted step => counted.step inv step.1 step.2.outcome)
    consistent_initialised counted_initialised
  refine ⟨fun quiet => ⟨counted.card quiet, fun free => ?_, fun i member free zero => ?_⟩,
    fun l cnt pc zero => ?_⟩
  · rw [counted.card quiet]
    congr 1
    refine Finset.filter_congr fun i member => ?_
    rw [inv.locks.value_of_free (free i member)]
  · have card := counted.card quiet
    rw [zero] at card
    have empty := Finset.card_eq_zero.mp card.symm
    exact Finset.filter_eq_empty_iff.mp empty member free
  · have ok := inv.ledger.bsp
    rw [pc] at ok
    have current : cnt = t.apFreeCnt :=
      counted.atomic.current (a := none) (v := cnt) (by simp only [Sys.freeCell, pc, Bsp.cntCopy])
    have one : 1 ≤ t.credit l.cpu := by
      simp [Sys.credit, pc, Bsp.giving]
    have le := Finset.single_le_sum (f := t.credit) (fun _ _ => Nat.zero_le _)
      (Config.mem_slots.mpr ok.2)
    have total := counted.total
    have none : (0 : Dword).toNat = 0 := rfl
    rw [← current, zero, none] at total
    omega

/-- A machine with two APs, in slots 1 and 2. -/
def twoAps : Config where
  ttableMax := 2
  present i := i == 1 || i == 2
  present_le i h := by
    rcases (Bool.or_eq_true _ _).mp h with h | h <;> rw [beq_iff_eq.mp h] <;> decide
  ttableMax_lt := by decide
  stack _ := 0x00800000
  kernelFlat := 0xC1000000
  kernelFlat_page := oneAp.kernelFlat_page
  xsaveFlags := 0
  noSysFxsave := false

/-- Thread 5 is destroyed on AP 1, and thread 6 is handed to AP 2, up to the store of
the decremented counter. -/
def destroyAndFly : List Action :=
  elevation 5 0x500 0x9000 1 ++ flight ++ .call (.threadDestroy 5) :: List.replicate 4 .bsp ++
    elevation 6 0x500 0x9004 1 ++
    .call (.int3 { Crs.zero with clientEip := 0xC1000335 }) :: List.replicate 13 .bsp

/-- The store of the counter and the end of the hand-off come before the AP reads it. -/
theorem free_ap_count_quiet :
    ∃ as t, Run (restrict (Step twoAps) fun s a => uncontended twoAps s a = true)
        (initialised twoAps) as t ∧
      Quiet twoAps t ∧ (t.ap 1).status = .ready ∧
      t.apFreeCnt.toNat = (twoAps.slots.filter fun i => (t.value i).free = true).card := by
  have computed : (exec (guard (step twoAps) (uncontended twoAps)) (initialised twoAps)
      (destroyAndFly ++ [.bsp, .bsp] ++ List.replicate 5 (.ap 1 0 0))).any
      (fun t => Quiet twoAps t && (t.ap 1).status = .ready) = true := by
    decide +kernel
  obtain ⟨t, run, checked⟩ := exists_run_restrict computed
  simp only [Bool.and_eq_true, decide_eq_true_eq] at checked
  exact ⟨_, t, run, checked.1, checked.2, ((free_ap_count run).1 checked.1).1⟩

/-- AP 1 counts itself between the read and the store of the BSP. Its increment is
lost: the counter is zero although AP 1 is free and no CPU is changing anything. -/
theorem free_ap_lost :
    ∃ as t, Run (Step twoAps) (initialised twoAps) as t ∧
      Quiet twoAps t ∧ t.bsp = .idle ∧ (∀ i ∈ twoAps.slots, (t.ap i).status ≠ .busy) ∧
      t.apFreeCnt = 0 ∧ (twoAps.slots.filter fun i => (t.ap i).status.free = true).card = 1 := by
  have computed : (exec (step twoAps) (initialised twoAps)
      (destroyAndFly ++ List.replicate 5 (.ap 1 0 0) ++ [.bsp, .bsp])).any
      (fun t => Quiet twoAps t && t.bsp.isIdle && (∀ i ∈ twoAps.slots, (t.ap i).status ≠ .busy) &&
        t.apFreeCnt = 0 &&
        (twoAps.slots.filter fun i => (t.ap i).status.free = true).card = 1) = true := by
    decide +kernel
  obtain ⟨t, run, checked⟩ := exists_run computed
  simp only [Bool.and_eq_true, decide_eq_true_eq, Bsp.isIdle_iff] at checked
  obtain ⟨⟨⟨⟨quiet, idle⟩, free⟩, zero⟩, card⟩ := checked
  exact ⟨_, t, run, quiet, idle, free, zero, card⟩

end SmpVxd
