import SmpVxd.Protocol.Reattach

/-!
# The visits of threads to an AP

A thread visits an AP: `switch_to_ap` stores its registers in the data page,
`_switchtask` loads them from there, a trap saves those that the thread has reached, and
`switch_to_bsp` gives them to the client of the BSP. Whatever the other CPUs do
meanwhile, the events at one AP come in this order, each with the registers that the
event before it has left, and a visit is over before the next one begins. The visit of a
thread that is destroyed meanwhile ends when `smp_ap_main` finds `S_DIRCARD`.
-/

namespace SmpVxd

open Transition

/-- What happens to the registers in the data page of AP `i`. -/
inductive VisitEvent where
  /-- `switch_to_ap` stores the registers of a thread and copies the page directory. -/
  | handedOff (i : Nat) (tid : Dword) (crs : Crs) (pageDir : Nat → Dword)
  /-- `_switchtask` loads the registers, under the page directory `pd` of the AP. -/
  | dispatched (i : Nat) (crs : Crs) (pd : Nat → Dword)
  /-- `switch_back` saves the registers `u` that the trap has interrupted. -/
  | trapped (i : Nat) (trap : Trap) (u : UserRegs)
  /-- `switch_to_bsp` gives the AP back as `S_READY` and returns 1 with the client registers
  `crs`. -/
  | returned (i : Nat) (tid : Dword) (crs : Crs)
  /-- `Device_Thread_Destroy` decides on `S_DIRCARD` for the AP of the thread. -/
  | destroyed (i : Nat) (tid : Dword)
  /-- `smp_ap_main` finds `S_DIRCARD` and gives up the registers. -/
  | discarded (i : Nat)

def VisitEvent.cpu : VisitEvent → Nat
  | .handedOff i _ _ _ | .dispatched i _ _ | .trapped i _ _ | .returned i _ _ | .destroyed i _
  | .discarded i => i

def visitEvent (s : Sys) : Action → Option VisitEvent
  | .ap i _ _ => match (s.ap i).pc with
      | .switchtask => some (.dispatched i (s.ap i).procState (s.ap i).pd)
      | .switch .dircard => some (.discarded i)
      | _ => none
  | .trap i trap u _ => some (.trapped i trap u)
  | .bsp => match s.bsp with
      | .apStore l _ => some (.handedOff l.cpu l.threadId l.crs s.pageDir)
      | .bspUnlock l .ready resumes => if resumes then some (.returned l.cpu l.threadId l.crs) else none
      | .destroyDiscard tid cpu _ => some (.destroyed cpu tid)
      | _ => none
  | _ => none

/-- The events at AP `i`. -/
def eventsAt (i : Nat) (events : List VisitEvent) : List VisitEvent :=
  events.filter fun e => e.cpu = i

/-- How far the visit at an AP has come: the thread, and its registers in the data page. -/
inductive Visit where
  | vacant
  | stored (tid : Dword) (crs : Crs) (pageDir : Nat → Dword)
  | loaded (tid : Dword) (crs : Crs)
  | saved (tid : Dword) (crs : Crs)

/-- The thread that visits. -/
def Visit.tid : Visit → Option Dword
  | .vacant => none
  | .stored tid _ _ | .loaded tid _ | .saved tid _ => some tid

/-- The events at AP `i`, newest first, and the visit that is going on after them, with
`gone` if its thread is destroyed. A visit begins when the one before it has ended: the
thread was fetched back, or it was destroyed and what it left is discarded. -/
inductive Visits (cfg : Config) (i : Nat) : Visit → Bool → List VisitEvent → Prop where
  | nil : Visits cfg i .vacant false []
  | handedOff (tid crs pageDir) {h} : Visits cfg i .vacant false h →
      Visits cfg i (.stored tid crs pageDir) false (.handedOff i tid crs pageDir :: h)
  | dispatched {tid crs pageDir gone h} : Visits cfg i (.stored tid crs pageDir) gone h →
      Visits cfg i (.loaded tid crs) gone (.dispatched i crs (copyPd pageDir) :: h)
  | trapped (trap u) {tid crs gone h} : Visits cfg i (.loaded tid crs) gone h →
      Visits cfg i (.saved tid (switchBack cfg.kernelFlat trap u (trapSp cfg i) crs)) gone
        (.trapped i trap u :: h)
  | returned {tid crs h} : Visits cfg i (.saved tid crs) false h →
      Visits cfg i .vacant false (.returned i tid crs :: h)
  | destroyed {v : Visit} {tid h} : v.tid = some tid → Visits cfg i v false h →
      Visits cfg i v true (.destroyed i tid :: h)
  | discarded {v h} : (∀ tid crs, v ≠ .loaded tid crs) → Visits cfg i v true h →
      Visits cfg i .vacant false (.discarded i :: h)

/-- The AP has been told to run a thread and has not loaded it yet. -/
def ApPc.loading : ApPc → Bool
  | .atomicUnlock _ rc => rc
  | .switchtask => true
  | _ => false

/-- The AP has no thread loaded and does not go to load one. -/
def ApPc.settled : ApPc → Bool
  | .atomicUnlock _ rc => !rc
  | .switchtask | .ring3 _ => false
  | _ => true

/-- The thread on the AP was interrupted, and its registers are in the page. -/
def Sys.carries (s : Sys) (i : Nat) : Prop :=
  s.value i = .cargo ∨ s.value i = .running ∧ (s.ap i).pc.settled = true

/-- `switch_to_bsp` has taken the registers and has not returned yet. -/
def Bsp.taken : Bsp → Option ToBsp
  | .incLoad l | .incStore l _ => some l
  | .bspUnlock l .ready resumes => if resumes then some l else none
  | _ => none

/-- `switch_to_bsp` takes the registers from AP `i`. -/
def Sys.TakenFrom (s : Sys) (i : Nat) : Prop := ∃ l, s.bsp.taken = some l ∧ l.cpu = i

/-- The events at an AP, and what the machine still has of the visit that is going on. -/
structure Visiting (cfg : Config) (i : Nat) (s : Sys) (v : Visit) (gone : Bool)
    (h : List VisitEvent) : Prop where
  visits : Visits cfg i v gone h
  gone : gone = true ↔ s.value i = .dircard
  free : (s.value i).free = true → v = .vacant ∨ s.TakenFrom i
  stored : s.value i = .loaded ∨ (s.ap i).pc.loading = true →
    ∃ pageDir, v = .stored (s.ap i).threadId (s.ap i).procState pageDir ∧ (s.ap i).pd = copyPd pageDir
  loaded : ∀ tid, (s.ap i).pc = .ring3 tid → v = .loaded (s.ap i).threadId (s.ap i).procState
  saved : s.carries i → v = .saved (s.ap i).threadId (s.ap i).procState
  left : s.value i = .dircard → (s.ap i).pc.settled = true → ∀ tid crs, v ≠ .loaded tid crs
  taken : ∀ l, s.bsp.taken = some l → l.cpu = i → v = .saved l.threadId l.crs

/-- Some visit is going on, or none, after the events at the AP. -/
def InVisit (cfg : Config) (i : Nat) (s : Sys) (h : List VisitEvent) : Prop :=
  ∃ v gone, Visiting cfg i s v gone h

variable {cfg : Config} {s t : Sys} {a : Action} {i j : Nat} {v w : Status} {x : Visit} {gone : Bool}
  {h : List VisitEvent}

theorem eventsAt_own {e : VisitEvent} (own : e.cpu = i) : eventsAt i (some e).toList = [e] := by
  simp [eventsAt, own]

theorem eventsAt_other {e : VisitEvent} (other : e.cpu ≠ i) : eventsAt i (some e).toList = [] := by
  simp [eventsAt, other]

/-- A step that changes nothing of the page of AP `i` and brings it into no new phase. -/
theorem Visiting.keep (visiting : Visiting cfg i s x gone h)
    (page : (t.ap i).threadId = (s.ap i).threadId ∧ (t.ap i).procState = (s.ap i).procState ∧
      (t.ap i).pd = (s.ap i).pd)
    (dircard : t.value i = .dircard ↔ s.value i = .dircard)
    (free : (t.value i).free = true → (s.value i).free = true)
    (stored : t.value i = .loaded ∨ (t.ap i).pc.loading = true →
      s.value i = .loaded ∨ (s.ap i).pc.loading = true)
    (loaded : ∀ tid, (t.ap i).pc = .ring3 tid → (s.ap i).pc = .ring3 tid)
    (saved : t.carries i → s.carries i)
    (settled : (t.ap i).pc.settled = true → (s.ap i).pc.settled = true)
    (taken : ∀ l, l.cpu = i → (t.bsp.taken = some l ↔ s.bsp.taken = some l)) :
    Visiting cfg i t x gone h := by
  obtain ⟨threadId, procState, pd⟩ := page
  constructor
  case visits => exact visiting.visits
  case gone => exact visiting.gone.trans dircard.symm
  case free =>
    intro phase
    obtain vacant | ⟨l, pc, cpu⟩ := visiting.free (free phase)
    · exact .inl vacant
    · exact .inr ⟨l, (taken l cpu).2 pc, cpu⟩
  case stored =>
    intro phase
    rw [threadId, procState, pd]
    exact visiting.stored (stored phase)
  case loaded =>
    intro tid pc
    rw [threadId, procState]
    exact visiting.loaded tid (loaded tid pc)
  case saved =>
    intro phase
    rw [threadId, procState]
    exact visiting.saved (saved phase)
  case left => exact fun phase now => visiting.left (dircard.1 phase) (settled now)
  case taken => exact fun l pc cpu => visiting.taken l ((taken l cpu).1 pc) cpu

/-- The same where also the program point and the value stay. -/
theorem Visiting.still (visiting : Visiting cfg i s x gone h) (ap : t.ap i = s.ap i)
    (value : t.value i = s.value i)
    (taken : ∀ l, l.cpu = i → (t.bsp.taken = some l ↔ s.bsp.taken = some l)) :
    Visiting cfg i t x gone h := by
  apply visiting.keep
  case page => rw [ap]; exact ⟨rfl, rfl, rfl⟩
  case dircard => rw [value]
  case free => rw [value]; exact id
  case stored => rw [ap, value]; exact id
  case loaded => rw [ap]; exact fun _ pc => pc
  case saved =>
    unfold Sys.carries
    rw [ap, value]
    exact id
  case settled => rw [ap]; exact id
  case taken => exact taken

/-- The thread of a visit is destroyed only while the AP has `S_DIRCARD`. -/
theorem Visiting.alive (visiting : Visiting cfg i s x gone h) (value : s.value i ≠ .dircard) :
    Visits cfg i x false h := by
  have alive : gone = false := by
    by_contra destroyed
    exact value (visiting.gone.1 (eq_true_of_ne_false destroyed))
  exact alive ▸ visiting.visits

theorem Bsp.taken_lock {b : Bsp} {l : ToBsp} (taken : b.taken = some l) :
    b.lock = some (l.cpu, .ready) := by
  unfold Bsp.taken at taken
  split at taken
  · cases taken
    rfl
  · cases taken
    rfl
  · split at taken
    · cases taken
      rfl
    · cases taken
  · cases taken

theorem Locks.value_of_taken (locks : Locks s) {l : ToBsp} (taken : s.bsp.taken = some l) :
    s.value l.cpu = .ready :=
  locks.value_of_bsp (Bsp.held_of_lock (Bsp.taken_lock taken))

/-- The registers are taken from an AP that is free. -/
theorem Locks.not_takenFrom (locks : Locks s) (started : s.value i = .running ∨ s.value i = .dircard) :
    ∀ l, s.bsp.taken = some l → l.cpu ≠ i := by
  rintro l taken rfl
  have free := locks.value_of_taken taken
  rcases started with h | h <;> cases h.symm.trans free

theorem ApStep.page (h : ApStep i s t) : (t.ap i).pd = (s.ap i).pd := by
  cases h with
  | spin pc _ => rfl
  | clearIdleLock lock pc => simp [Sys.setAp]
  | incStore cnt pc => simp [Sys.setAp]
  | _ => simp

/-- An AP begins to load a thread when it finds `S_LOADED`. -/
theorem ApStep.loading (h : ApStep i s t) (loading : (t.ap i).pc.loading = true) :
    s.value i = .loaded ∨ (s.ap i).pc.loading = true := by
  cases h with
  | branch v w rc now pc branch =>
      rw [Sys.setAp_self] at loading
      cases branch with
      | load => exact .inl (value_of_ap (by rw [pc]; rfl))
      | stay _ _ _ _ => cases loading
      | sleep => cases loading
  | unlock v rc pc =>
      rw [Sys.setAp_self] at loading
      dsimp only at loading
      split at loading
      · cases loading
      · split at loading
        · rename_i told
          exact .inr (by rw [pc, told]; rfl)
        · cases loading
  | spin pc _ => exact .inr loading
  | clearIdleLock lock pc => simp [Sys.setAp, ApPc.loading] at loading
  | incStore cnt pc => simp [Sys.setAp, ApPc.loading] at loading
  | _ => simp [ApPc.loading] at loading

/-- An AP that has a thread to load goes on until the thread is loaded. -/
theorem ApStep.settled (engaged : Engaged s i) (h : ApStep i s t)
    (settled : (t.ap i).pc.settled = true) : (s.ap i).pc.settled = true := by
  cases h with
  | unlock v rc pc =>
      rw [pc]
      cases rc with
      | false => rfl
      | true =>
          have running := engaged.unlock v pc
          rw [Sys.setAp_self, running] at settled
          cases settled
  | switchtask fpu pc =>
      rw [Sys.setAp_self] at settled
      cases settled
  | spin pc _ => exact settled
  | kernelBoot pc => rw [pc]; rfl
  | lock pc _ => rw [pc]; rfl
  | branch v w rc now pc branch => rw [pc]; rfl
  | notify ts pc _ _ => rw [pc]; rfl
  | silent pc _ => rw [pc]; rfl
  | discard now pc => rw [pc]; rfl
  | clearIdleLock lock pc => rw [pc]; rfl
  | incLoad pc => rw [pc]; rfl
  | incStore cnt pc => rw [pc]; rfl
  | sti pc => rw [pc]; rfl
  | hlt pc => rw [pc]; rfl

theorem ApStep.settled_load (h : ApStep i s t) (pc : (s.ap i).pc = .switch .loaded) :
    (t.ap i).pc.settled = false := by
  cases h with
  | branch v w rc now pc' branch =>
      cases pc.symm.trans pc'
      cases branch with
      | load => rw [Sys.setAp_self]; rfl
      | stay _ loaded _ _ => exact absurd rfl loaded
  | _ => cases pc.symm.trans ‹(s.ap i).pc = _›

/-- `smp_ap_main` finds registers in the page, it does not put them there. -/
theorem ApStep.carries (locks : Locks s) (engaged : Engaged s i) (h : ApStep i s t)
    (carries : t.carries i) : s.carries i := by
  obtain same | move := h.value locks
  · obtain cargo | ⟨running, settled⟩ := carries
    · exact .inl (same.symm.trans cargo)
    · exact .inr ⟨same.symm.trans running, h.settled engaged settled⟩
  · generalize before : s.value i = v at move
    generalize after : t.value i = w at move
    generalize pc : (s.ap i).pc = p at move
    cases move with
    | load =>
        obtain cargo | ⟨_, settled⟩ := carries
        · cases after.symm.trans cargo
        · cases (h.settled_load pc).symm.trans settled
    | finish => exact .inr ⟨before, by rw [pc]; rfl⟩
    | notify lock => exact .inr ⟨before, by rw [pc]; rfl⟩
    | sleep => obtain cargo | ⟨running, _⟩ := carries <;> cases after.symm.trans ‹_›
    | discard => obtain cargo | ⟨running, _⟩ := carries <;> cases after.symm.trans ‹_›

theorem ApStep.at_switchtask (h : ApStep i s t) (pc : (s.ap i).pc = .switchtask) :
    ∃ fpu, t = s.setAp i { s.ap i with fpu := fpu, pc := .ring3 (s.ap i).threadId } := by
  cases h with
  | switchtask fpu _ => exact ⟨fpu, rfl⟩
  | _ => cases pc.symm.trans ‹(s.ap i).pc = _›

theorem ApStep.ne_ring3 (h : ApStep i s t) (pc : (s.ap i).pc ≠ .switchtask) {tid : Dword}
    (ring3 : (t.ap i).pc = .ring3 tid) : (s.ap i).pc = .ring3 tid := by
  cases h with
  | switchtask fpu pc' => exact absurd pc' pc
  | spin _ _ => exact ring3
  | unlock v rc pc' =>
      rw [Sys.setAp_self] at ring3
      dsimp only at ring3
      split at ring3
      · cases ring3
      · split at ring3 <;> cases ring3
  | clearIdleLock lock _ => simp [Sys.setAp] at ring3
  | incStore cnt _ => simp [Sys.setAp] at ring3
  | _ => simp at ring3

theorem ApStep.at_dircard (h : ApStep i s t) (pc : (s.ap i).pc = .switch .dircard) :
    ∃ now, t = s.setAp i { s.ap i with lastActive := now, pc := .incLoad } := by
  cases h with
  | discard now _ => exact ⟨now, rfl⟩
  | branch v w rc now pc' branch =>
      cases pc.symm.trans pc'
      cases branch with
      | stay _ _ _ dircard => exact absurd rfl dircard
  | _ => cases pc.symm.trans ‹(s.ap i).pc = _›

/-- A free AP is in no visit, except that the BSP may be taking the registers. -/
theorem Visiting.vacant (visits : Visits cfg i x false h) (engaged : Engaged s i)
    (free : s.value i = .ready)
    (out : x = .vacant ∨ s.TakenFrom i)
    (taken : ∀ l, s.bsp.taken = some l → l.cpu = i → x = .saved l.threadId l.crs) :
    Visiting cfg i s x false h := by
  have notEngaged : (s.ap i).pc.engaged = false := by
    cases now : (s.ap i).pc.engaged with
    | false => rfl
    | true => rcases engaged.value now with h | h <;> cases h.symm.trans free
  constructor
  case visits => exact visits
  case gone =>
    rw [free]
    decide
  case free => exact fun _ => out
  case stored =>
    rintro (loaded | loading)
    · cases free.symm.trans loaded
    · cases pc : (s.ap i).pc with
      | atomicUnlock v rc =>
          rw [pc] at loading
          cases rc with
          | false => cases loading
          | true =>
              cases engaged.unlock v pc
              have running := value_of_ap (s := s) (i := i) (by rw [pc]; rfl)
              cases free.symm.trans running
      | switchtask =>
          rw [pc] at notEngaged
          cases notEngaged
      | _ =>
          rw [pc] at loading
          cases loading
  case loaded =>
    intro tid pc
    rw [pc] at notEngaged
    cases notEngaged
  case saved =>
    rintro (cargo | ⟨running, _⟩)
    · cases free.symm.trans cargo
    · cases free.symm.trans running
  case left =>
    intro dircard
    cases free.symm.trans dircard
  case taken => exact taken

/-! ## The APs -/

theorem dispatch_visiting (locks : Locks s) (engaged : Engaged s i) (visiting : Visiting cfg i s x gone h)
    (pc : (s.ap i).pc = .switchtask) (out : ApStep i s t) :
    Visiting cfg i t (.loaded (s.ap i).threadId (s.ap i).procState) gone
      (.dispatched i (s.ap i).procState (s.ap i).pd :: h) := by
  have value := (out.value locks).resolve_right (by rw [pc]; rintro ⟨⟩)
  have started : s.value i = .running ∨ s.value i = .dircard := engaged.value (by rw [pc]; rfl)
  obtain ⟨pageDir, rfl, copied⟩ := visiting.stored (.inr (by rw [pc]; rfl))
  obtain ⟨fpu, rfl⟩ := out.at_switchtask pc
  constructor
  case visits =>
    rw [copied]
    exact visiting.visits.dispatched
  case gone =>
    rw [value]
    exact visiting.gone
  case free =>
    intro free
    rw [value] at free
    rcases started with h | h <;> rw [h] at free <;> cases free
  case stored =>
    rw [value]
    rintro (loaded | loading)
    · rcases started with h | h <;> cases h.symm.trans loaded
    · simp [ApPc.loading] at loading
  case loaded =>
    intro tid _
    simp
  case saved =>
    rintro (cargo | ⟨_, settled⟩)
    · rw [value] at cargo
      rcases started with h | h <;> cases h.symm.trans cargo
    · simp [ApPc.settled] at settled
  case left =>
    intro _ settled
    simp [ApPc.settled] at settled
  case taken => exact fun l taken cpu => absurd cpu (locks.not_takenFrom started l taken)

theorem discard_visiting (locks : Locks s) (engaged : Engaged s i) (visiting : Visiting cfg i s x gone h)
    (pc : (s.ap i).pc = .switch .dircard) (out : ApStep i s t) :
    Visiting cfg i t .vacant false (.discarded i :: h) := by
  have dircard : s.value i = .dircard := value_of_ap (by rw [pc]; rfl)
  have destroyed : gone = true := visiting.gone.2 dircard
  have stopped := visiting.left dircard (by rw [pc]; rfl)
  have engaged' := out.engaged locks engaged
  obtain ⟨now, rfl⟩ := out.at_dircard pc
  have visits := visiting.visits
  rw [destroyed] at visits
  apply Visiting.vacant (.discarded stopped visits) engaged'
  case free =>
    apply value_of_ap
    simp [ApPc.held]
  case out => exact .inl rfl
  case taken => exact fun l taken cpu => absurd cpu (locks.not_takenFrom (.inr dircard) l taken)

/-- A statement of the AP that is no event. -/
theorem ApStep.quiet_visiting (locks : Locks s) (engaged : Engaged s i)
    (visiting : Visiting cfg i s x gone h) (out : ApStep i s t) (undispatched : (s.ap i).pc ≠ .switchtask)
    (undiscarded : (s.ap i).pc ≠ .switch .dircard) : Visiting cfg i t x gone h := by
  have moves : t.value i = s.value i ∨ t.value i ≠ .dircard ∧ s.value i ≠ .dircard ∧
      t.value i ≠ .loaded ∧ ((t.value i).free = true → (s.value i).free = true) := by
    refine (out.value locks).imp_right fun move => ?_
    generalize s.value i = v at move
    generalize t.value i = w at move
    generalize (s.ap i).pc = p at move undiscarded
    cases move with
    | discard => exact absurd rfl undiscarded
    | _ => exact ⟨by decide, by decide, by decide, by decide⟩
  apply visiting.keep
  case page => exact ⟨out.frame.threadId, out.context.1, out.page⟩
  case dircard =>
    obtain same | ⟨after, before, -⟩ := moves
    · rw [same]
    · exact iff_of_false after before
  case free =>
    obtain same | ⟨-, -, -, free⟩ := moves
    · rw [same]
      exact id
    · exact free
  case stored =>
    rintro (loaded | loading)
    · obtain same | ⟨-, -, unloaded, -⟩ := moves
      · exact .inl (same.symm.trans loaded)
      · exact absurd loaded unloaded
    · exact out.loading loading
  case loaded => exact fun tid => out.ne_ring3 undispatched
  case saved => exact out.carries locks engaged
  case settled => exact out.settled engaged
  case taken =>
    intro l _
    rw [out.frame.bsp]

theorem ApStep.visiting (locks : Locks s) (engaged : Engaged s i) (visiting : Visiting cfg i s x gone h)
    (out : ApStep i s t) (now : BitVec 64) (msClock : Dword) :
    InVisit cfg i t (eventsAt i (visitEvent s (.ap i now msClock)).toList ++ h) := by
  by_cases dispatch : (s.ap i).pc = .switchtask
  · have event : visitEvent s (.ap i now msClock) =
        some (.dispatched i (s.ap i).procState (s.ap i).pd) := by
      simp only [visitEvent, dispatch]
    rw [event, eventsAt_own (i := i) rfl]
    exact ⟨_, _, dispatch_visiting locks engaged visiting dispatch out⟩
  by_cases discard : (s.ap i).pc = .switch .dircard
  · have event : visitEvent s (.ap i now msClock) = some (.discarded i) := by
      simp only [visitEvent, discard]
    rw [event, eventsAt_own (i := i) rfl]
    exact ⟨_, _, discard_visiting locks engaged visiting discard out⟩
  have event : visitEvent s (.ap i now msClock) = none := by
    unfold visitEvent
    dsimp only
    split
    · exact absurd ‹_› dispatch
    · exact absurd ‹_› discard
    · rfl
  rw [event]
  exact ⟨x, gone, out.quiet_visiting locks engaged visiting dispatch discard⟩

theorem NmiStep.visiting (visiting : Visiting cfg i s x gone h) (out : NmiStep i s t) :
    Visiting cfg i t x gone h := by
  have value := out.value i
  have bsp := out.frame.bsp
  have page : (t.ap i).procState = (s.ap i).procState ∧ (t.ap i).pd = (s.ap i).pd := by
    cases out <;> simp
  -- an interrupt that ends `hlt` finds the AP in no phase of a visit
  have pcs : (t.ap i).pc = (s.ap i).pc ∨ (s.ap i).pc.settled = true ∧ (t.ap i).pc = .atomicLock := by
    cases out with
    | wake _ halted => exact .inr ⟨by rw [halted]; rfl, by simp⟩
    | dummy _ _ => exact .inl (by simp)
  apply visiting.keep
  case page => exact ⟨out.frame.threadId, page⟩
  case dircard => rw [value]
  case free => rw [value]; exact id
  case stored =>
    rw [value]
    obtain same | ⟨_, awake⟩ := pcs
    · rw [same]
      exact id
    · rw [awake]
      exact fun phase => phase.imp_right fun loading => by cases loading
  case loaded =>
    obtain same | ⟨_, awake⟩ := pcs
    · rw [same]
      exact fun _ => id
    · rw [awake]
      exact fun _ pc => by cases pc
  case saved =>
    unfold Sys.carries
    rw [value]
    obtain same | ⟨settled, _⟩ := pcs
    · rw [same]
      exact id
    · exact fun phase => phase.imp_right fun running => ⟨running.1, settled⟩
  case settled =>
    obtain same | ⟨settled, _⟩ := pcs
    · rw [same]
      exact id
    · exact fun _ => settled
  case taken =>
    intro l _
    rw [bsp]

theorem trap_visiting (locks : Locks s) (engaged : Engaged s i) (visiting : Visiting cfg i s x gone h)
    {tid : Dword} (pc : (s.ap i).pc = .ring3 tid) (trap : Trap) (u : UserRegs) (y : ExtState) :
    Visiting cfg i (s.setAp i ((s.ap i).switchBack cfg trap u (trapSp cfg i) y))
      (.saved (s.ap i).threadId (switchBack cfg.kernelFlat trap u (trapSp cfg i) (s.ap i).procState)) gone
      (.trapped i trap u :: h) := by
  have value := trap_value cfg pc trap u y i
  have started : s.value i = .running ∨ s.value i = .dircard := engaged.value (by rw [pc]; rfl)
  obtain rfl := visiting.loaded tid pc
  constructor
  case visits => exact visiting.visits.trapped trap u
  case gone =>
    rw [value]
    exact visiting.gone
  case free =>
    intro free
    rw [value] at free
    rcases started with h | h <;> rw [h] at free <;> cases free
  case stored =>
    rw [value, Sys.setAp_self]
    rintro (loaded | loading)
    · rcases started with h | h <;> cases h.symm.trans loaded
    · cases loading
  case loaded =>
    intro tid' pc'
    rw [Sys.setAp_self] at pc'
    cases pc'
  case saved =>
    intro _
    rw [Sys.setAp_self]
    rfl
  case left => exact fun _ _ _ _ same => by cases same
  case taken => exact fun l taken cpu => absurd cpu (locks.not_takenFrom started l taken)

/-! ## The BSP -/

/-- On the BSP, only a hand-off changes the page of an AP. -/
theorem BspStep.page (out : BspStep cfg s t) (i : Nat) :
    ((t.ap i).threadId = (s.ap i).threadId ∧ (t.ap i).procState = (s.ap i).procState ∧
        (t.ap i).pd = (s.ap i).pd) ∨
      ∃ l v ts, s.bsp = .apStore l v ∧ l.cpu = i ∧ t = SmpVxd.handOff cfg s l v ts := by
  cases out with
  | handOff l v ts pc found =>
      by_cases same : l.cpu = i
      · exact .inr ⟨l, v, ts, pc, same, rfl⟩
      · exact .inl (by simp [SmpVxd.handOff, Sys.setAp, Function.update_of_ne (Ne.symm same)])
  | startAp j pc _ _ =>
      by_cases same : i = j
      · simp [same]
      · simp [Sys.setAp_ne _ _ _ same]
  | lock cpu next at_ _ =>
      by_cases same : i = cpu
      · simp [Sys.setAp, same]
      · simp [Sys.setAp, Function.update_of_ne same]
  | unlock cpu v b at_ =>
      by_cases same : i = cpu
      · simp [Sys.setAp, same]
      · simp [Sys.setAp, Function.update_of_ne same]
  | wakeup l v pc _ =>
      by_cases same : i = l.cpu
      · simp [Sys.setAp, same]
      · simp [Sys.setAp, Function.update_of_ne same]
  | switchIn curTid cbsNew pc => exact .inl (by rw [switchIn_ap]; exact ⟨rfl, rfl, rfl⟩)
  | _ => exact .inl ⟨rfl, rfl, rfl⟩

theorem switchToApReturn_taken (l : ToAp) (rc : Bool) : (switchToApReturn l rc).taken = none := by
  unfold switchToApReturn
  split <;> rfl

theorem BspStep.taken (out : BspStep cfg s t) {l : ToBsp} (taken : t.bsp.taken = some l) :
    s.bsp.taken = some l ∨ ∃ l', s.bsp = .bspTest l' .cargo ∧ t = SmpVxd.takeBack cfg s l' := by
  cases out with
  | takeBack l' pc => exact .inr ⟨l', pc, rfl⟩
  | goto b go =>
      left
      generalize s.bsp = c at go
      cases go with
      | incLoad l' => exact taken
      | notCargo l' v _ => cases v <;> cases taken
      | noAp l' _ => cases (switchToApReturn_taken l' false).symm.trans taken
      | _ => cases taken
  | lock cpu next at_ _ =>
      generalize s.bsp = c at at_
      cases at_ <;> cases taken
  | unlock cpu v b at_ =>
      generalize s.bsp = c at at_
      cases at_ <;> cases taken
  | incStore l' cnt pc =>
      rw [pc]
      exact .inl taken
  | decStore l' cnt pc => cases (switchToApReturn_taken l' true).symm.trans taken
  | switchIn curTid cbsNew pc =>
      rw [switchIn_bsp] at taken
      cases taken
  | startAp j pc _ _ => exact .inl taken
  | awaitAp j pc => exact .inl taken
  | spin cpu next at_ _ => exact .inl taken
  | wakeup l' v pc _ => cases taken
  | discard tid cpu v pc => cases taken
  | free tid pc => cases taken
  | setIdleLock l' v ts pc _ _ _ => cases taken
  | handOff l' v ts pc found => cases taken

theorem BspStep.taken_kept (out : BspStep cfg s t) {l : ToBsp} (taken : s.bsp.taken = some l) :
    t.bsp.taken = some l ∨ s.bsp = .bspUnlock l .ready true := by
  obtain pc | ⟨cnt, pc⟩ | pc : s.bsp = .incLoad l ∨ (∃ cnt, s.bsp = .incStore l cnt) ∨
      s.bsp = .bspUnlock l .ready true := by
    unfold Bsp.taken at taken
    split at taken
    · cases taken
      exact .inl ‹_›
    · cases taken
      exact .inr (.inl ⟨_, ‹_›⟩)
    · split at taken
      · rename_i unlock resumes
        cases taken
        exact .inr (.inr (by rw [unlock, resumes]))
      · cases taken
    · cases taken
  · left
    cases out with
    | goto b go =>
        rw [pc] at go
        cases go
        rfl
    | spin cpu next at_ _ | lock cpu next at_ _ | unlock cpu v b at_ =>
        rw [pc] at at_
        cases at_
    | _ => cases pc.symm.trans ‹s.bsp = _›
  · left
    cases out with
    | goto b go =>
        rw [pc] at go
        cases go
    | spin cpu next at_ _ | lock cpu next at_ _ | unlock cpu v b at_ =>
        rw [pc] at at_
        cases at_
    | incStore l' cnt' pc' =>
        cases pc.symm.trans pc'
        rfl
    | _ => cases pc.symm.trans ‹s.bsp = _›
  · exact .inr pc

/-- The statements of the BSP that are an event at AP `i` or take the registers from there. -/
def Sys.Visited (s : Sys) (i : Nat) : Prop :=
  (∃ l v, s.bsp = .apStore l v ∧ l.cpu = i) ∨ (∃ l, s.bsp = .bspUnlock l .ready true ∧ l.cpu = i) ∨
    (∃ tid v, s.bsp = .destroyDiscard tid i v) ∨ ∃ l, s.bsp = .bspTest l .cargo ∧ l.cpu = i

theorem BspStep.quiet_visiting (inv : Consistent cfg s) (visiting : Visiting cfg i s x gone h)
    (out : BspStep cfg s t) (quiet : ¬ s.Visited i) : Visiting cfg i t x gone h := by
  simp only [Sys.Visited, not_or, not_exists, not_and] at quiet
  obtain ⟨unstored, unreturned, undestroyed, untaken⟩ := quiet
  have page := (out.page i).resolve_right (by
    rintro ⟨l, v, ts, pc, cpu, _⟩
    exact unstored l v pc cpu)
  have value : t.value i = s.value i := by
    refine (out.value inv.locks i).resolve_right fun move => ?_
    generalize t.value i = w at move
    generalize s.value i = v at move
    generalize pc : s.bsp = b at move
    cases move with
    | handOff l v cpu => exact unstored l v pc cpu
    | takeBack l cpu => exact untaken l pc cpu
    | discard tid v => exact undestroyed tid v pc
  have taken (l : ToBsp) (cpu : l.cpu = i) : t.bsp.taken = some l ↔ s.bsp.taken = some l := by
    constructor
    · intro taken
      obtain old | ⟨l', pc, rfl⟩ := out.taken taken
      · exact old
      · cases taken
        exact absurd cpu (untaken l' pc)
    · intro taken
      exact (out.taken_kept taken).resolve_right fun pc => unreturned l pc cpu
  obtain same | ⟨off, boot⟩ := out.pc i
  · apply visiting.keep page
    case dircard => rw [value]
    case free => rw [value]; exact id
    case stored => rw [value, same]; exact id
    case loaded => rw [same]; exact fun _ => id
    case saved =>
      unfold Sys.carries
      rw [value, same]
      exact id
    case settled => rw [same]; exact id
    case taken => exact taken
  · apply visiting.keep page
    case dircard => rw [value]
    case free => rw [value]; exact id
    case stored =>
      rw [value, boot]
      exact fun phase => phase.imp_right fun loading => by cases loading
    case loaded =>
      intro tid ring3
      cases boot.symm.trans ring3
    case saved =>
      unfold Sys.carries
      rw [value, off]
      exact fun phase => phase.imp_right fun running => ⟨running.1, rfl⟩
    case settled =>
      rw [off]
      exact fun _ => rfl
    case taken => exact taken

theorem handOff_visiting (engaged : Engaged s i)
    (visiting : Visiting cfg i s x gone h) {l : ToAp} {v : Status}
    (pc : s.bsp = .apStore l v) (free : (s.value i).free = true) (cpu : l.cpu = i) (ts : TsThread)
    (value : (handOff cfg s l v ts).value i = .loaded) :
    Visiting cfg i (handOff cfg s l v ts) (.stored l.threadId l.crs s.pageDir) false
      (.handedOff i l.threadId l.crs s.pageDir :: h) := by
  subst cpu
  have stays : ((handOff cfg s l v ts).ap l.cpu).pc = (s.ap l.cpu).pc := (handOff_ap cfg s l v ts l.cpu).2.1
  obtain rfl : x = .vacant := by
    refine (visiting.free free).resolve_right ?_
    rintro ⟨l', taken, _⟩
    rw [pc] at taken
    cases taken
  have visits := visiting.alive fun dircard => by
    rw [dircard] at free
    cases free
  constructor
  case visits => exact visits.handedOff l.threadId l.crs s.pageDir
  case gone =>
    rw [value]
    decide
  case free =>
    intro now
    rw [value] at now
    cases now
  case stored =>
    intro _
    refine ⟨s.pageDir, ?_⟩
    simp [handOff, Sys.setAp]
  case loaded =>
    intro tid ring3
    rcases engaged.value (by rw [← stays, ring3]; rfl) with h | h <;> rw [h] at free <;> cases free
  case saved =>
    rintro (cargo | ⟨running, _⟩)
    · cases value.symm.trans cargo
    · cases value.symm.trans running
  case left =>
    intro dircard
    cases value.symm.trans dircard
  case taken =>
    intro l' taken
    cases taken

theorem takeBack_visiting (inv : Consistent cfg s) (visiting : Visiting cfg i s x gone h) {l : ToBsp}
    (pc : s.bsp = .bspTest l .cargo) (cpu : l.cpu = i) (inv' : Consistent cfg (takeBack cfg s l))
    (engaged : Engaged (takeBack cfg s l) i) : Visiting cfg i (takeBack cfg s l) x false h := by
  have ok := inv.ledger.bsp
  rw [pc] at ok
  have cargo : s.value l.cpu = .cargo :=
    inv.locks.value_of_bsp (by rw [pc]; exact Bsp.held_of_lock rfl)
  have threadId := inv.target_threadId ok (by rw [pc]; rfl)
  have ready : (takeBack cfg s l).value l.cpu = .ready :=
    inv'.locks.value_of_bsp (Bsp.held_of_lock (takeBack_lock l))
  subst cpu
  have saved := visiting.saved (.inl cargo)
  have visits := visiting.alive fun dircard => by cases cargo.symm.trans dircard
  apply Visiting.vacant visits engaged ready
  case out => exact .inr ⟨_, rfl, rfl⟩
  case taken =>
    intro l' taken _
    cases taken
    rw [threadId] at saved
    exact saved

/-- The thread that an AP has for the BSP visits it. -/
theorem Visiting.tid (visiting : Visiting cfg i s x gone h) (hosting : (s.value i).hosting = true) :
    x.tid = some (s.ap i).threadId := by
  cases value : s.value i with
  | loaded =>
      obtain ⟨pageDir, rfl, -⟩ := visiting.stored (.inl value)
      rfl
  | cargo =>
      obtain rfl := visiting.saved (.inl value)
      rfl
  | running =>
      cases settled : (s.ap i).pc.settled with
      | true =>
          obtain rfl := visiting.saved (.inr ⟨value, settled⟩)
          rfl
      | false =>
          have stored (loading : (s.ap i).pc.loading = true) : x.tid = some (s.ap i).threadId := by
            obtain ⟨pageDir, rfl, -⟩ := visiting.stored (.inr loading)
            rfl
          cases pc : (s.ap i).pc with
          | ring3 tid =>
              obtain rfl := visiting.loaded tid pc
              rfl
          | switchtask => exact stored (by rw [pc]; rfl)
          | atomicUnlock v rc =>
              rw [pc] at settled
              apply stored
              rw [pc]
              cases rc with
              | false => cases settled
              | true => rfl
          | _ =>
              rw [pc] at settled
              cases settled
  | _ =>
      rw [value] at hosting
      cases hosting

theorem destroy_visiting (inv : Consistent cfg s) (visiting : Visiting cfg i s x gone h) {tid : Dword}
    {v : Status} (pc : s.bsp = .destroyDiscard tid i v)
    (value : ({ s with bsp := .destroyUnlock tid i .dircard } : Sys).value i = .dircard) :
    Visiting cfg i { s with bsp := .destroyUnlock tid i .dircard } x true (.destroyed i tid :: h) := by
  have ok := inv.ledger.bsp
  rw [pc] at ok
  obtain ⟨ts, found, one, rfl⟩ := ok
  have status : ts.smpStatus ≠ 0 := by
    rw [one]
    decide
  obtain ⟨hosting, threadId⟩ := inv.hosting_of_record (by rw [pc]; rfl) found status
  have visits := visiting.alive fun dircard => by
    rw [dircard] at hosting
    cases hosting
  have named := visiting.tid hosting
  rw [threadId] at named
  constructor
  case visits => exact visits.destroyed named
  case gone => exact iff_of_true rfl value
  case free =>
    intro free
    rw [value] at free
    cases free
  case stored =>
    rintro (loaded | loading)
    · cases value.symm.trans loaded
    · exact visiting.stored (.inr loading)
  case loaded => exact visiting.loaded
  case saved =>
    rintro (cargo | ⟨running, _⟩)
    · cases value.symm.trans cargo
    · cases value.symm.trans running
  case left =>
    intro _ settled
    cases before : s.value ts.smpApid with
    | loaded =>
        obtain ⟨pageDir, rfl, -⟩ := visiting.stored (.inl before)
        exact fun _ _ same => by cases same
    | cargo =>
        obtain rfl := visiting.saved (.inl before)
        exact fun _ _ same => by cases same
    | running =>
        obtain rfl := visiting.saved (.inr ⟨before, settled⟩)
        exact fun _ _ same => by cases same
    | _ =>
        rw [before] at hosting
        cases hosting
  case taken =>
    intro l taken
    cases taken

theorem return_visiting (inv : Consistent cfg s) (inv' : Consistent cfg t) (engaged' : Engaged t i)
    (visiting : Visiting cfg i s x gone h) {l : ToBsp} (pc : s.bsp = .bspUnlock l .ready true)
    (cpu : l.cpu = i) (step : bspStep cfg s = some t) :
    Visiting cfg i t .vacant false (.returned i l.threadId l.crs :: h) := by
  have out := bspStep_outcome step
  have taken : s.bsp.taken = some l := by rw [pc]; rfl
  have free : s.value i = .ready := cpu ▸ inv.locks.value_of_taken taken
  have value := out.value_same inv.locks (by rw [pc]; rfl) i
  have visits := visiting.alive fun dircard => by cases free.symm.trans dircard
  obtain rfl := visiting.taken l taken cpu
  apply Visiting.vacant (.returned visits) engaged' (value.trans free) (.inl rfl)
  intro l' taken' _
  simp only [bspStep, pc, Option.some.injEq] at step
  subst step
  cases taken'

/-- A statement of the BSP that does nothing at AP `i` is no event there. -/
theorem visitEvent_quiet (quiet : ¬ s.Visited i) : eventsAt i (visitEvent s .bsp).toList = [] := by
  simp only [Sys.Visited, not_or, not_exists, not_and] at quiet
  obtain ⟨unstored, unreturned, undestroyed, -⟩ := quiet
  unfold visitEvent
  dsimp only
  split
  · rename_i l v pc
    exact eventsAt_other (e := .handedOff l.cpu l.threadId l.crs s.pageDir) (unstored l v pc)
  · rename_i l resumes pc
    cases resumes with
    | false => rfl
    | true => exact eventsAt_other (e := .returned l.cpu l.threadId l.crs) (unreturned l pc)
  · rename_i tid cpu v pc
    apply eventsAt_other (e := .destroyed cpu tid)
    rintro rfl
    exact undestroyed tid v pc
  · rfl

theorem bspStep_visiting (inv : Consistent cfg s) (inv' : Consistent cfg t) (engaged : Engaged s i)
    (engaged' : Engaged t i) (visiting : Visiting cfg i s x gone h) (step : bspStep cfg s = some t) :
    InVisit cfg i t (eventsAt i (visitEvent s .bsp).toList ++ h) := by
  have out := bspStep_outcome step
  by_cases quiet : ¬ s.Visited i
  · rw [visitEvent_quiet quiet]
    exact ⟨x, gone, out.quiet_visiting inv visiting quiet⟩
  obtain ⟨l, v, pc, cpu⟩ | ⟨l, pc, cpu⟩ | ⟨tid, v, pc⟩ | ⟨l, pc, cpu⟩ := not_not.1 quiet
  · obtain ⟨ts, _, rfl⟩ := bspStep_apStore pc step
    have event : visitEvent s .bsp = some (.handedOff l.cpu l.threadId l.crs s.pageDir) := by
      simp only [visitEvent, pc]
    have free := inv.free_of_apStore pc
    subst cpu
    rw [event, eventsAt_own (i := l.cpu) rfl]
    exact ⟨_, _, handOff_visiting engaged visiting pc free rfl ts
      (inv'.locks.value_of_bsp (Bsp.held_of_lock (handOff_lock l v ts)))⟩
  · have event : visitEvent s .bsp = some (.returned l.cpu l.threadId l.crs) := by
      simp only [visitEvent, pc, if_true]
    have visiting' := return_visiting inv inv' engaged' visiting pc cpu step
    subst cpu
    rw [event, eventsAt_own (i := l.cpu) rfl]
    exact ⟨_, _, visiting'⟩
  · have event : visitEvent s .bsp = some (.destroyed i tid) := by
      simp only [visitEvent, pc]
    rw [event, eventsAt_own (i := i) rfl]
    simp only [bspStep, pc, Option.some.injEq] at step
    subst step
    exact ⟨_, _, destroy_visiting inv visiting pc (inv'.locks.value_of_bsp (Bsp.held_of_lock rfl))⟩
  · have event : visitEvent s .bsp = none := by
      simp only [visitEvent, pc]
    obtain rfl := bspStep_bspTest pc step
    rw [event]
    exact ⟨_, _, takeBack_visiting inv visiting pc cpu inv' engaged'⟩

theorem CallStep.taken {op : BspOp} (out : CallStep cfg s op t) (idle : s.bsp = .idle) :
    t.bsp.taken = none := by
  cases out with
  | create tid page => rw [idle]; rfl
  | elevate proc lockaddr mode =>
      change s.bsp.taken = none
      rw [idle]
      rfl
  | enter op b ht entry same => cases entry <;> rfl

theorem Outcome.visiting (inv : Consistent cfg s) (inv' : Consistent cfg t) (engaged : Engaged s i)
    (engaged' : Engaged t i) (visiting : Visiting cfg i s x gone h) (out : Outcome cfg s a t) :
    InVisit cfg i t (eventsAt i (visitEvent s a).toList ++ h) := by
  cases out with
  | call op t idle call =>
      refine ⟨x, gone, visiting.still (by rw [call.ap]) (call.value idle i) fun l _ => ?_⟩
      rw [call.taken idle, idle]
      rfl
  | bsp t step => exact bspStep_visiting inv inv' engaged engaged' visiting step
  | ap j now msClock t present out =>
      by_cases same : j = i
      · subst same
        exact out.visiting inv.locks engaged visiting now msClock
      · have none : eventsAt i (visitEvent s (.ap j now msClock)).toList = [] := by
          unfold visitEvent
          dsimp only
          split
          · exact eventsAt_other (e := .dispatched j _ _) same
          · exact eventsAt_other (e := .discarded j) same
          · rfl
        rw [none]
        refine ⟨x, gone, visiting.still (out.frame.others i (Ne.symm same))
          (out.frame.value (Ne.symm same)) ?_⟩
        rw [out.frame.bsp]
        exact fun _ _ => Iff.rfl
  | nmi j t present out =>
      refine ⟨x, gone, ?_⟩
      by_cases same : j = i
      · subst same
        exact out.visiting visiting
      · refine visiting.still (out.frame.others i (Ne.symm same)) (out.frame.value (Ne.symm same)) ?_
        rw [out.frame.bsp]
        exact fun _ _ => Iff.rfl
  | trap j trap u y tid present pc =>
      by_cases same : j = i
      · subst same
        rw [show visitEvent s (.trap j trap u y) = some (.trapped j trap u) from rfl,
          eventsAt_own (i := j) rfl]
        exact ⟨_, _, trap_visiting inv.locks engaged visiting pc trap u y⟩
      · rw [show visitEvent s (.trap j trap u y) = some (.trapped j trap u) from rfl,
          eventsAt_other (e := .trapped j trap u) same]
        exact ⟨x, gone, visiting.still (Sys.setAp_ne _ _ _ (Ne.symm same)) (trap_value cfg pc trap u y i)
          fun _ _ => Iff.rfl⟩
  | compute y idle => exact ⟨x, gone, visiting.still rfl rfl fun _ _ => Iff.rfl⟩
  | rebuildPd pageDir idle => exact ⟨x, gone, visiting.still rfl rfl fun _ _ => Iff.rfl⟩

theorem visiting_initialised : Visiting cfg i (initialised cfg) .vacant false [] :=
  .vacant .nil engaged_initialised rfl (.inl rfl) fun l taken => by cases taken

/-- The registers of a thread are neither lost nor mixed up nor loaded twice, in any
interleaving: at every AP the events are visits one after the other, and a free AP is in
no visit. `_switchtask` loads once what `switch_to_ap` has stored, under the page directory
of that moment less the kernel32 range, and what `switch_to_bsp` returns is what the one
trap of this visit has saved over the registers that were loaded. -/
theorem visits_in_order {as : List Action} {events : List VisitEvent}
    (run : Run (record (Step cfg) visitEvent) (initialised cfg, []) as (t, events)) (i : Nat) :
    ∃ v gone, Visits cfg i v gone (eventsAt i events) ∧
      (t.bsp = .idle → (t.value i).free = true → v = .vacant) := by
  have reached := run.invariant
    (P := fun p => (Consistent cfg p.1 ∧ Engaged p.1 i) ∧ InVisit cfg i p.1 (eventsAt i p.2)) ?_
    ⟨⟨consistent_initialised, engaged_initialised⟩, ⟨_, _, visiting_initialised⟩⟩
  · obtain ⟨-, v, gone, visiting⟩ := reached
    refine ⟨v, gone, visiting.visits, ?_⟩
    intro idle free
    refine (visiting.free free).resolve_right ?_
    rintro ⟨l, taken, _⟩
    rw [idle] at taken
    cases taken
  · rintro p a q ⟨⟨inv, engaged⟩, ⟨v, gone, visiting⟩⟩ ⟨step, recorded⟩
    have out := step.outcome
    have inv' := inv.step step
    have engaged' := out.engaged inv engaged
    refine ⟨⟨inv', engaged'⟩, ?_⟩
    have appended : eventsAt i q.2 = eventsAt i (visitEvent p.1 a).toList ++ eventsAt i p.2 := by
      rw [recorded]
      exact List.filter_append ..
    rw [appended]
    exact out.visiting inv inv' engaged engaged' visiting

def VisitEvent.isReturn : VisitEvent → Bool
  | .returned _ _ _ => true
  | _ => false

/-- Thread 5 flies, runs, lands and is taken back. -/
theorem visits_in_order_return :
    ∃ as t e events, Run (record (Step oneAp) visitEvent) (initialised oneAp, []) as (t, e :: events) ∧
      e.isReturn = true ∧ ∃ v gone, Visits oneAp 1 v gone (eventsAt 1 (e :: events)) ∧
        (t.bsp = .idle → (t.value 1).free = true → v = .vacant) := by
  have computed : (exec (fun q a => (guard (step oneAp) (fun _ _ => true) q.1 a).map fun t =>
      (t, (visitEvent q.1 a).toList ++ q.2)) (initialised oneAp, [])
      (notification ++ .ap 1 0 0 :: .call (.int3 reattachClient) :: reattachSteps)).any
      (fun q => q.2.head?.any VisitEvent.isReturn) = true := by
    decide +kernel
  obtain ⟨⟨t, events⟩, run, checked⟩ := exists_run_record computed
  obtain ⟨e, head, returned⟩ := (Option.any_eq_true _ _).mp checked
  obtain ⟨rest, rfl⟩ := List.head?_eq_some_iff.mp head
  have free : Run (record (Step oneAp) visitEvent) (initialised oneAp, []) _ (t, e :: rest) :=
    run.mono fun p a q step => ⟨step.1.2, step.2⟩
  exact ⟨_, t, e, rest, free, returned, visits_in_order free 1⟩

end SmpVxd
