import SmpVxd.System.Inversion
import SmpVxd.Transition.WordLock

/-!
# The status words as locks

The status word of a slot is shared by two agents, the AP of the slot and the BSP.
Every step of the machine is a step of the word discipline on each of the words, so
each word is held by at most one CPU and is `S_BUSY` exactly while it is held. An AP
that has not booted counts as the holder of the `S_BUSY` it was allocated with.
-/

namespace SmpVxd

open Transition WordLock

inductive Agent where
  | ap
  | bsp
  deriving DecidableEq, Repr

/-- The status word of slot `i` with the local copies of its two users. -/
def Sys.word (s : Sys) (i : Nat) : WordLock.State Agent Status where
  word := (s.ap i).status
  held
    | .ap => (s.ap i).pc.held
    | .bsp => s.bsp.held i

/-- The slot whose word the BSP is about to take. -/
def Bsp.atomicLock : Bsp → Option Nat
  | .destroyLock _ cpu => some cpu
  | .apLock l => some l.cpu
  | .bspLock l => some l.cpu
  | _ => none

/-- The slot whose word the BSP is about to give back, and the value. -/
def Bsp.atomicUnlock : Bsp → Option (Nat × Status)
  | .destroyUnlock _ cpu v => some (cpu, v)
  | .apUnlock l v => some (l.cpu, v)
  | .bspUnlock l v _ => some (l.cpu, v)
  | _ => none

/-- What an action does to the word of slot `i`: a successful `atomic_lock`, an
`atomic_unlock`, or the exchange of `_kernel_boot`. -/
def wordEvent (i : Nat) (s : Sys) : Action → Option (Event Status)
  | .ap j _ _ =>
      if j = i then
        match (s.ap i).pc with
        | .kernelBoot => some (.write .ready)
        | .atomicLock =>
            if (s.ap i).status = .busy then none else some (.take (s.ap i).status)
        | .atomicUnlock v _ => some (.write v)
        | _ => none
      else none
  | .bsp =>
      match s.bsp.atomicLock, s.bsp.atomicUnlock with
      | some cpu, _ =>
          if cpu = i ∧ (s.ap i).status ≠ .busy then some (.take (s.ap i).status) else none
      | none, some (cpu, v) => if cpu = i then some (.write v) else none
      | none, none => none
  | _ => none

/-- Every status word is used as a lock. -/
def Locks (s : Sys) : Prop := ∀ i, Exclusive .busy (s.word i)

variable {cfg : Config} {s t : Sys} {a : Action} {i j : Nat} {v w : Status}

theorem Bsp.held_of_lock {b : Bsp} (h : b.lock = some (i, v)) : b.held i = some v := by
  simp [Bsp.held, h]

theorem Bsp.held_ne_of_lock {b : Bsp} (h : b.lock = some (i, v)) (ne : j ≠ i) :
    b.held j = none := by
  simp [Bsp.held, h, ne.symm]

theorem Bsp.held_of_none {b : Bsp} (h : b.lock = none) (i : Nat) : b.held i = none := by
  simp [Bsp.held, h]

theorem Bsp.lock_of_held {b : Bsp} (h : b.held i = some v) : b.lock = some (i, v) := by
  obtain ⟨⟨cpu, w⟩, lock, same⟩ := Option.bind_eq_some_iff.mp h
  simp only [Option.ite_none_right_eq_some, Option.some.injEq] at same
  rw [lock, same.1, same.2]

theorem Bsp.held_congr {b c : Bsp} (h : c.lock = b.lock) (i : Nat) : c.held i = b.held i := by
  simp only [Bsp.held, h]

@[simp] theorem switchToApReturn_lock (l : ToAp) (rc : Bool) : (switchToApReturn l rc).lock = none := by
  unfold switchToApReturn
  split <;> rfl

theorem LockAt.lock {b : Bsp} {cpu : Nat} {next : Status → Bsp} (h : LockAt b cpu next) :
    b.lock = none ∧ ∀ v, (next v).lock = some (cpu, v) := by
  cases h <;> exact ⟨rfl, fun _ => rfl⟩

theorem LockAt.atomicLock {b : Bsp} {cpu : Nat} {next : Status → Bsp} (h : LockAt b cpu next) :
    b.atomicLock = some cpu := by
  cases h <;> rfl

theorem UnlockAt.lock {b c : Bsp} {cpu : Nat} (h : UnlockAt b cpu v c) :
    b.lock = some (cpu, v) ∧ c.lock = none := by
  cases h <;> exact ⟨rfl, rfl⟩

theorem UnlockAt.atomicUnlock {b c : Bsp} {cpu : Nat} (h : UnlockAt b cpu v c) :
    b.atomicLock = none ∧ b.atomicUnlock = some (cpu, v) := by
  cases h <;> exact ⟨rfl, rfl⟩

theorem BspGoto.lock {b c : Bsp} (h : BspGoto cfg s b c) : c.lock = b.lock := by
  cases h <;> first | rfl | exact switchToApReturn_lock _ _

theorem BspEntry.lock {op : BspOp} {b : Bsp} (h : BspEntry cfg s op b) : b.lock = none := by
  cases h <;> rfl

/-- A step of AP `j` or of its interrupts concerns no other slot. -/
structure ApFrame (j : Nat) (s t : Sys) : Prop where
  others : ∀ i, i ≠ j → t.ap i = s.ap i
  bsp : t.bsp = s.bsp
  tsHt : t.tsHt = s.tsHt
  actTid : t.actTid = s.actTid
  fpu : t.fpu = s.fpu
  threadId : (t.ap j).threadId = (s.ap j).threadId
  threadPtr : (t.ap j).threadPtr = (s.ap j).threadPtr

theorem ApFrame.setAp {x : Ap} (threadId : x.threadId = (s.ap j).threadId)
    (threadPtr : x.threadPtr = (s.ap j).threadPtr) : ApFrame j s (s.setAp j x) where
  others _ ne := s.setAp_ne j x ne
  bsp := rfl
  tsHt := rfl
  actTid := rfl
  fpu := rfl
  threadId := by simpa using threadId
  threadPtr := by simpa using threadPtr

theorem ApStep.frame (h : ApStep j s t) : ApFrame j s t := by
  cases h with
  | spin _ _ => exact ⟨fun _ _ => rfl, rfl, rfl, rfl, rfl, rfl, rfl⟩
  | clearIdleLock lock pc =>
      have frame := ApFrame.setAp (s := s) (j := j)
        (x := { s.ap j with pc := .atomicUnlock .cargo false }) rfl rfl
      exact ⟨frame.others, rfl, rfl, rfl, rfl, frame.threadId, frame.threadPtr⟩
  | incStore cnt pc =>
      have frame := ApFrame.setAp (s := s) (j := j)
        (x := { s.ap j with pc := .atomicUnlock .ready false }) rfl rfl
      exact ⟨frame.others, rfl, rfl, rfl, rfl, frame.threadId, frame.threadPtr⟩
  | _ => exact .setAp rfl rfl

theorem NmiStep.frame (h : NmiStep j s t) : ApFrame j s t := by
  cases h <;> exact .setAp rfl rfl

/-- Nothing that the word discipline sees has changed. -/
theorem word_stay (status : (t.ap i).status = (s.ap i).status)
    (ap : (t.ap i).pc.held = (s.ap i).pc.held) (bsp : t.bsp.held i = s.bsp.held i) :
    WordLock.Step .busy (s.word i) (t.word i) none :=
  .stay status fun
    | .ap => ap
    | .bsp => bsp

/-- AP `i` turns its copy of the value into another one. -/
theorem word_moveAp (v w) (holds : (s.ap i).pc.held = some v) (ne : w ≠ .busy)
    (status : (t.ap i).status = (s.ap i).status) (ap : (t.ap i).pc.held = some w)
    (bsp : t.bsp = s.bsp) : WordLock.Step .busy (s.word i) (t.word i) none :=
  .move .ap v w holds ne status ap fun
    | .ap, ne => absurd rfl ne
    | .bsp, _ => congrArg (·.held i) bsp

theorem word_moveBsp (v w) (holds : s.bsp.held i = some v) (ne : w ≠ .busy)
    (bsp : t.bsp.held i = some w) (status : (t.ap i).status = (s.ap i).status)
    (ap : (t.ap i).pc = (s.ap i).pc) : WordLock.Step .busy (s.word i) (t.word i) none :=
  .move .bsp v w holds ne status bsp fun
    | .ap, _ => congrArg ApPc.held ap
    | .bsp, ne => absurd rfl ne

theorem ApStep.word (now : BitVec 64) (msClock : Dword) (h : ApStep i s t) :
    WordLock.Step .busy (s.word i) (t.word i) (wordEvent i s (.ap i now msClock)) := by
  cases h with
  | kernelBoot pc =>
      simp only [wordEvent, pc, if_true]
      refine WordLock.Step.write Agent.ap Status.ready ?_ ?_ ?_ ?_
      · simp [Sys.word, pc, ApPc.held]
      · simp [Sys.word]
      · simp [Sys.word, ApPc.held]
      · rintro (_ | _) ne
        · exact absurd rfl ne
        · rfl
  | spin pc busy =>
      simp only [wordEvent, pc, busy, if_true]
      exact word_stay rfl rfl rfl
  | lock pc free =>
      simp only [wordEvent, pc, free, if_true, if_false]
      refine WordLock.Step.take Agent.ap free ?_ ?_ ?_ ?_
      · simp [Sys.word, pc, ApPc.held]
      · simp [Sys.word]
      · simp [Sys.word, ApPc.held]
      · rintro (_ | _) ne
        · exact absurd rfl ne
        · rfl
  | branch v w rc now pc branch =>
      simp only [wordEvent, pc, if_true]
      cases branch with
      | stay _ _ _ _ => exact word_stay (by simp) (by simp [pc, ApPc.held]) rfl
      | sleep =>
          exact word_moveAp .ready .sleep (by rw [pc]; rfl) (by decide) (by simp) (by simp [ApPc.held]) rfl
      | load =>
          exact word_moveAp .loaded .running (by rw [pc]; rfl) (by decide) (by simp) (by simp [ApPc.held]) rfl
  | notify ts pc found lock =>
      simp only [wordEvent, pc, if_true]
      exact word_stay (by simp) (by simp [pc, ApPc.held]) rfl
  | silent pc absent =>
      simp only [wordEvent, pc, if_true]
      exact word_moveAp .running .cargo (by rw [pc]; rfl) (by decide) (by simp) (by simp [ApPc.held]) rfl
  | discard now pc =>
      simp only [wordEvent, pc, if_true]
      exact word_moveAp .dircard .ready (by rw [pc]; rfl) (by decide) (by simp) (by simp [ApPc.held]) rfl
  | clearIdleLock lock pc =>
      simp only [wordEvent, pc, if_true]
      exact word_moveAp .running .cargo (by rw [pc]; rfl) (by decide) (by simp [Sys.setAp])
        (by simp [Sys.setAp, ApPc.held]) rfl
  | incLoad pc =>
      simp only [wordEvent, pc, if_true]
      exact word_stay (by simp) (by simp [pc, ApPc.held]) rfl
  | incStore cnt pc =>
      simp only [wordEvent, pc, if_true]
      exact word_stay (by simp [Sys.setAp]) (by simp [Sys.setAp, pc, ApPc.held]) rfl
  | unlock v rc pc =>
      simp only [wordEvent, pc, if_true]
      refine WordLock.Step.write Agent.ap v ?_ ?_ ?_ ?_
      · simp [Sys.word, pc, ApPc.held]
      · simp [Sys.word]
      · simp only [Sys.word, Sys.setAp_self]
        split
        · rfl
        · split <;> rfl
      · rintro (_ | _) ne
        · exact absurd rfl ne
        · rfl
  | sti pc =>
      simp only [wordEvent, pc, if_true]
      exact word_stay (by simp) (by simp [pc, ApPc.held]) rfl
  | hlt pc =>
      simp only [wordEvent, pc, if_true]
      exact word_stay (by simp) (by simp [pc, ApPc.held]) rfl
  | switchtask fpu pc =>
      simp only [wordEvent, pc, if_true]
      exact word_stay (by simp) (by simp [pc, ApPc.held]) rfl

theorem BspGoto.wordEvent {b : Bsp} (h : BspGoto cfg s s.bsp b) : wordEvent i s .bsp = none := by
  have silent : s.bsp.atomicLock = none ∧ s.bsp.atomicUnlock = none := by
    generalize s.bsp = c at h
    cases h <;> exact ⟨rfl, rfl⟩
  simp only [SmpVxd.wordEvent, silent]

theorem handOff_ap (cfg : Config) (s : Sys) (l : ToAp) (v : Status) (ts : TsThread) (i : Nat) :
    ((handOff cfg s l v ts).ap i).status = (s.ap i).status ∧
      ((handOff cfg s l v ts).ap i).pc = (s.ap i).pc ∧
      ((handOff cfg s l v ts).ap i).nmi = (s.ap i).nmi := by
  by_cases same : i = l.cpu
  · subst same
    simp [handOff, Sys.setAp]
  · simp [handOff, Sys.setAp, Function.update_of_ne same]

theorem handOff_lock (l : ToAp) (v : Status) (ts : TsThread) :
    (handOff cfg s l v ts).bsp.lock = some (l.cpu, .loaded) := rfl

theorem takeBack_lock (l : ToBsp) : (takeBack cfg s l).bsp.lock = some (l.cpu, .ready) := rfl

theorem switchIn_bsp (curTid : Dword) (cbsNew : Tcb) :
    (switchIn cfg s curTid cbsNew).bsp = .idle := by
  unfold switchIn
  split <;> rfl

theorem switchIn_ap (curTid : Dword) (cbsNew : Tcb) :
    (switchIn cfg s curTid cbsNew).ap = s.ap := by
  unfold switchIn
  split <;> rfl

theorem BspStep.word (h : BspStep cfg s t) (i : Nat) :
    WordLock.Step .busy (s.word i) (t.word i) (wordEvent i s .bsp) := by
  cases h with
  | goto b h =>
      rw [h.wordEvent]
      exact word_stay rfl rfl (Bsp.held_congr h.lock i)
  | startAp j pc present off =>
      simp only [wordEvent, pc, Bsp.atomicLock, Bsp.atomicUnlock]
      by_cases same : i = j
      · subst same
        exact word_stay (by simp) (by simp [off, ApPc.held]) rfl
      · exact word_stay (by rw [Sys.setAp_ne _ _ _ same]) (by rw [Sys.setAp_ne _ _ _ same]) rfl
  | awaitAp j pc =>
      simp only [wordEvent, pc, Bsp.atomicLock, Bsp.atomicUnlock]
      exact word_stay rfl rfl rfl
  | spin cpu next at_ busy =>
      have none : wordEvent i s .bsp = none := by
        simp only [wordEvent, at_.atomicLock]
        split
        · rename_i taken
          exact absurd busy (taken.1 ▸ taken.2)
        · rfl
      rw [none]
      exact word_stay rfl rfl rfl
  | lock cpu next at_ free =>
      obtain ⟨before, after⟩ := at_.lock
      simp only [wordEvent, at_.atomicLock]
      by_cases same : cpu = i
      · subst same
        rw [if_pos ⟨rfl, free⟩]
        refine WordLock.Step.take Agent.bsp free (Bsp.held_of_none before _) ?_
          (Bsp.held_of_lock (after _)) ?_
        · simp [Sys.word, Sys.setAp]
        · rintro (_ | _) ne
          · simp [Sys.word, Sys.setAp]
          · exact absurd rfl ne
      · rw [if_neg fun taken => same taken.1]
        refine word_stay ?_ ?_ ?_
        · simp [Sys.setAp, Function.update_of_ne (Ne.symm same)]
        · simp [Sys.setAp, Function.update_of_ne (Ne.symm same)]
        · exact (Bsp.held_ne_of_lock (after _) (Ne.symm same)).trans (Bsp.held_of_none before i).symm
  | unlock cpu v b at_ =>
      obtain ⟨before, after⟩ := at_.lock
      simp only [wordEvent, at_.atomicUnlock]
      by_cases same : cpu = i
      · subst same
        rw [if_pos rfl]
        refine WordLock.Step.write Agent.bsp v (Bsp.held_of_lock before) ?_
          (Bsp.held_of_none after _) ?_
        · simp [Sys.word, Sys.setAp]
        · rintro (_ | _) ne
          · simp [Sys.word, Sys.setAp]
          · exact absurd rfl ne
      · rw [if_neg same]
        refine word_stay ?_ ?_ ?_
        · simp [Sys.setAp, Function.update_of_ne (Ne.symm same)]
        · simp [Sys.setAp, Function.update_of_ne (Ne.symm same)]
        · exact (Bsp.held_of_none after i).trans (Bsp.held_ne_of_lock before (Ne.symm same)).symm
  | discard tid cpu v pc =>
      simp only [wordEvent, pc, Bsp.atomicLock, Bsp.atomicUnlock]
      by_cases same : cpu = i
      · subst same
        exact word_moveBsp v .dircard (by simp [pc, Bsp.held, Bsp.lock]) (by decide)
          (by simp [Bsp.held, Bsp.lock]) rfl rfl
      · exact word_stay rfl rfl (by simp [pc, Bsp.held, Bsp.lock, same])
  | free tid pc =>
      simp only [wordEvent, pc, Bsp.atomicLock, Bsp.atomicUnlock]
      exact word_stay rfl rfl (by simp [pc, Bsp.held, Bsp.lock])
  | setIdleLock l v ts pc free found lock =>
      simp only [wordEvent, pc, Bsp.atomicLock, Bsp.atomicUnlock]
      exact word_stay rfl rfl (by simp [pc, Bsp.held, Bsp.lock])
  | handOff l v ts pc found =>
      simp only [wordEvent, pc, Bsp.atomicLock, Bsp.atomicUnlock]
      obtain ⟨status, apPc, _⟩ := handOff_ap cfg s l v ts i
      by_cases same : l.cpu = i
      · subst same
        exact word_moveBsp v .loaded (by simp [pc, Bsp.held, Bsp.lock]) (by decide)
          (Bsp.held_of_lock (handOff_lock l v ts)) status apPc
      · refine word_stay status (congrArg ApPc.held apPc) ?_
        rw [Bsp.held_ne_of_lock (handOff_lock l v ts) (Ne.symm same)]
        simp [pc, Bsp.held, Bsp.lock, same]
  | wakeup l v pc wakeup =>
      simp only [wordEvent, pc, Bsp.atomicLock, Bsp.atomicUnlock]
      refine word_stay ?_ ?_ (by simp [pc, Bsp.held, Bsp.lock])
      · by_cases same : i = l.cpu
        · simp [Sys.setAp, same]
        · simp [Sys.setAp, Function.update_of_ne same]
      · by_cases same : i = l.cpu
        · simp [Sys.setAp, same]
        · simp [Sys.setAp, Function.update_of_ne same]
  | decStore l cnt pc =>
      simp only [wordEvent, pc, Bsp.atomicLock, Bsp.atomicUnlock]
      exact word_stay rfl rfl (Bsp.held_congr (by rw [switchToApReturn_lock, pc]; rfl) i)
  | takeBack l pc =>
      simp only [wordEvent, pc, Bsp.atomicLock, Bsp.atomicUnlock]
      by_cases same : l.cpu = i
      · subst same
        exact word_moveBsp .cargo .ready (by simp [pc, Bsp.held, Bsp.lock]) (by decide)
          (Bsp.held_of_lock (takeBack_lock l)) rfl rfl
      · refine word_stay rfl rfl ?_
        rw [Bsp.held_ne_of_lock (takeBack_lock l) (Ne.symm same)]
        simp [pc, Bsp.held, Bsp.lock, same]
  | incStore l cnt pc =>
      simp only [wordEvent, pc, Bsp.atomicLock, Bsp.atomicUnlock]
      exact word_stay rfl rfl (by simp [pc, Bsp.held, Bsp.lock])
  | switchIn curTid cbsNew pc =>
      simp only [wordEvent, pc, Bsp.atomicLock, Bsp.atomicUnlock]
      refine word_stay ?_ ?_ ?_
      · rw [switchIn_ap]
      · rw [switchIn_ap]
      · rw [switchIn_bsp, pc]
        rfl

/-- Every step of the machine obeys the word discipline on every word. -/
theorem Outcome.word (h : Outcome cfg s a t) (i : Nat) :
    WordLock.Step .busy (s.word i) (t.word i) (wordEvent i s a) := by
  cases h with
  | call op t idle call =>
      cases call with
      | create tid page => exact word_stay rfl rfl rfl
      | elevate proc lockaddr mode => exact word_stay rfl rfl rfl
      | enter op b ht entry core =>
          exact word_stay rfl rfl (Bsp.held_congr (by rw [entry.lock, idle]; rfl) i)
  | bsp t h => exact (bspStep_outcome h).word i
  | ap j now msClock t present h =>
      by_cases same : j = i
      · subst same
        exact h.word now msClock
      · have frame := h.frame.others i (Ne.symm same)
        simp only [wordEvent, same, if_false]
        exact word_stay (by rw [frame]) (by rw [frame]) (by rw [h.frame.bsp])
  | nmi j t present h =>
      refine word_stay ?_ ?_ (by rw [h.frame.bsp])
      · by_cases same : i = j
        · subst same
          cases h <;> simp
        · rw [h.frame.others i same]
      · by_cases same : i = j
        · subst same
          cases h with
          | wake _ halted => simp [halted, ApPc.held]
          | dummy _ _ => simp
        · rw [h.frame.others i same]
  | trap j trap u x tid present pc =>
      refine word_stay ?_ ?_ rfl
      · by_cases same : i = j
        · simp [same, Ap.switchBack]
        · rw [Sys.setAp_ne _ _ _ same]
      · by_cases same : i = j
        · simp [same, Ap.switchBack, pc, ApPc.held]
        · rw [Sys.setAp_ne _ _ _ same]
  | compute x idle => exact word_stay rfl rfl rfl
  | rebuildPd pageDir idle => exact word_stay rfl rfl rfl

theorem Locks.step (locks : Locks s) (h : Step cfg s a t) : Locks t :=
  fun i => (locks i).step (h.outcome.word i)

theorem locks_boot : Locks (boot cfg) := fun _ => by
  refine ⟨?_, ?_, ?_, ?_⟩
  · rintro (_ | _) (_ | _) v w ha hb
    · rfl
    · cases hb
    · cases ha
    · rfl
  · intro a v held
    rfl
  · intro busy
    exact ⟨.ap, .ready, rfl⟩
  · rintro (_ | _) v held <;> cases held
    decide

theorem locks_initialised : Locks (initialised cfg) := fun _ => by
  refine ⟨?_, ?_, ?_, ?_⟩
  · rintro (_ | _) b v w held <;> cases held
  · rintro (_ | _) v held <;> cases held
  · intro busy
    cases busy
  · rintro (_ | _) v held <;> cases held

end SmpVxd
