import SmpVxd.Protocol.Release

/-!
# The lock words of the placeholders

While a thread is on an AP, its placeholder on the BSP polls the lock word of the
thread. `switch_to_ap` sets the word before it hands the thread over, and the AP
clears it, under the lock of its status word, when it has the thread back from
ring 3. `Handshake` says that the word follows the logical value of the AP.

This needs what the library promises: every elevated thread has a lock word of its
own, and a thread elevates itself, so never while it is on an AP.
-/

namespace SmpVxd

open Transition

/-- Every elevated thread has its own lock word. -/
def TsHt.ownLocks (ht : TsHt) : Bool :=
  ht.records.all fun ts => ts.smpBspIdleProc = 0 || (ts.smpBspIdleLock ≠ 0 &&
    ht.records.all fun ts' =>
      ts'.smpBspIdleProc = 0 || ts'.tid = ts.tid || ts'.smpBspIdleLock ≠ ts.smpBspIdleLock)

/-- `smp_elevate` is called by the thread itself, not by its placeholder, which only
executes `smp9x_thread_idle_proc`. -/
def elevatesItself (s : Sys) : Action → Bool
  | .call (.smpElevate _ _ _) => match s.tsHt.get s.actTid with
      | some ts => ts.smpStatus = 0
      | none => true
  | _ => true

def ownLocks (s : Sys) (a : Action) : Bool := s.tsHt.ownLocks && elevatesItself s a

/-- A record that is on an AP afterwards was so before, with the same placeholder. -/
def TsHt.Stays (ht ht' : TsHt) (tid : Dword) : Prop :=
  ∀ ts', ht'.get tid = some ts' → ts'.smpStatus ≠ 0 →
    ∃ ts, ht.get tid = some ts ∧ ts.smpStatus = ts'.smpStatus ∧
      ts.smpBspIdleProc = ts'.smpBspIdleProc ∧ ts.smpBspIdleLock = ts'.smpBspIdleLock

/-- The lock words follow the logical values. `store` is the moment between the store
of 1 and the hand-off, `clear` the one before the store of 0. -/
structure Handshake (s : Sys) : Prop where
  elevated : ∀ tid ts, s.tsHt.get tid = some ts → ts.smpStatus ≠ 0 → ts.smpBspIdleProc ≠ 0
  word : ∀ i ts, (s.value i).hosting = true → s.tsHt.get (s.ap i).threadId = some ts →
    s.mem ts.smpBspIdleLock = if s.value i = .cargo then 0 else 1
  store : ∀ l v ts, s.bsp = .apStore l v → s.tsHt.get l.threadId = some ts →
    s.mem ts.smpBspIdleLock = 1
  clear : ∀ i lock, (s.ap i).pc = .clearIdleLock lock →
    ∃ ts, s.tsHt.get (s.ap i).threadId = some ts ∧ ts.smpBspIdleLock = lock

variable {cfg : Config} {s t : Sys} {a : Action} {i j : Nat} {v w : Status}
variable {ht ht' : TsHt} {tid tid' : Dword} {ts ts' : TsThread}

theorem TsHt.ownLocks_spec (own : ht.ownLocks = true) (found : ht.get tid = some ts)
    (elevated : ts.smpBspIdleProc ≠ 0) :
    ts.smpBspIdleLock ≠ 0 ∧ ∀ tid' ts', ht.get tid' = some ts' → ts'.smpBspIdleProc ≠ 0 →
      tid' ≠ tid → ts'.smpBspIdleLock ≠ ts.smpBspIdleLock := by
  have member : ∀ {tid ts}, ht.get tid = some ts → ts ∈ ht.records := by
    intro tid ts found
    rw [mem_records, live_iff, get_tid found, found]
  have this := List.all_eq_true.mp own ts (member found)
  simp only [elevated, decide_false, Bool.false_or, Bool.and_eq_true, decide_eq_true_eq] at this
  refine ⟨this.1, fun tid' ts' found' elevated' ne => ?_⟩
  have other := List.all_eq_true.mp this.2 ts' (member found')
  simp only [elevated', get_tid found, get_tid found', ne, decide_false, Bool.false_or,
    decide_eq_true_eq] at other
  exact other

theorem TsHt.Stays.refl (ht : TsHt) (tid : Dword) : ht.Stays ht tid :=
  fun ts found _ => ⟨ts, found, rfl, rfl, rfl⟩

theorem TsHt.Stays.of_get (same : ht'.get tid = ht.get tid) : ht.Stays ht' tid :=
  fun ts found _ => ⟨ts, same.symm.trans found, rfl, rfl, rfl⟩

theorem TsHt.SameCore.stays (same : ht.SameCore ht') (tid : Dword) : ht.Stays ht' tid := by
  intro ts' found' _
  obtain ⟨ts, found, core⟩ := same.symm.get found'
  have status : ts.core.smpStatus = ts'.core.smpStatus := congrArg TsThread.smpStatus core
  have proc : ts.core.smpBspIdleProc = ts'.core.smpBspIdleProc :=
    congrArg TsThread.smpBspIdleProc core
  have lock : ts.core.smpBspIdleLock = ts'.core.smpBspIdleLock :=
    congrArg TsThread.smpBspIdleLock core
  exact ⟨ts, found, status, proc, lock⟩

theorem TsHt.stays_create (page : Option Dword) (tid' : Dword) :
    ht.Stays (ht.create page tid) tid' := by
  cases page with
  | none => exact .refl ht tid'
  | some addr =>
      by_cases same : tid' = tid
      · subst same
        intro ts' found' hosted
        rw [get_create_self] at found'
        cases found : ht.get tid' with
        | none =>
            rw [found] at found'
            cases found'
            exact absurd rfl hosted
        | some ts =>
            rw [found] at found'
            cases found'
            exact ⟨ts, rfl, rfl, rfl, rfl⟩
      · exact .of_get (get_create_ne _ same)

theorem TsHt.stays_destroy (tid' : Dword) : ht.Stays (ht.destroy tid) tid' := by
  by_cases same : tid' = tid
  · subst same
    intro ts' found' _
    rw [get_destroy_self] at found'
    cases found'
  · exact .of_get (get_destroy_ne same)

/-- A store to a record that is on the BSP afterwards. -/
theorem TsHt.stays_modify {f : TsThread → TsThread} (keeps : ∀ ts, (f ts).tid = ts.tid)
    (home : ∀ ts, ht.get tid = some ts → (f ts).smpStatus = 0) (tid' : Dword) :
    ht.Stays (ht.modify tid f keeps) tid' := by
  by_cases same : tid' = tid
  · subst same
    intro ts' found' hosted
    rw [get_modify_self] at found'
    obtain ⟨ts, found, rfl⟩ := Option.map_eq_some_iff.mp found'
    exact absurd (home ts found) hosted
  · exact .of_get (get_modify_ne same)

theorem smpElevate_stays {proc lockaddr mode : Dword}
    (own : elevatesItself s (.call (.smpElevate proc lockaddr mode)) = true) (tid : Dword) :
    s.tsHt.Stays (smpElevate s proc lockaddr mode).tsHt tid := by
  refine TsHt.stays_modify (fun ts => by split <;> rfl) (fun ts found => ?_) tid
  simp only [elevatesItself, found, decide_eq_true_eq] at own
  split <;> exact own

/-- The value of a hosting AP, as far as the lock word shows it. -/
def SameCargo (s t : Sys) (i : Nat) : Prop :=
  (t.value i).hosting = true → (s.value i).hosting = true ∧ (t.value i = .cargo ↔ s.value i = .cargo)

theorem SameCargo.of_eq (same : t.value i = s.value i) : SameCargo s t i := by
  intro hosting
  rw [same] at hosting ⊢
  exact ⟨hosting, Iff.rfl⟩

namespace Handshake

theorem elevated_stays (h : Handshake s) (table : ∀ tid, s.tsHt.Stays t.tsHt tid) :
    ∀ tid ts, t.tsHt.get tid = some ts → ts.smpStatus ≠ 0 → ts.smpBspIdleProc ≠ 0 := by
  intro tid ts found hosted
  obtain ⟨ts₀, found₀, status, proc, _⟩ := table tid ts found hosted
  exact proc ▸ h.elevated tid ts₀ found₀ (status ▸ hosted)

/-- An AP that goes on hosting the same thread keeps its lock word, if the step does
not store to it. -/
theorem word_stays (h : Handshake s) (inv' : Consistent cfg t) (hosting : (t.value i).hosting = true)
    (same : SameCargo s t i) (threadId : (t.ap i).threadId = (s.ap i).threadId)
    (table : s.tsHt.Stays t.tsHt (s.ap i).threadId) (found : t.tsHt.get (t.ap i).threadId = some ts)
    (mem : t.mem ts.smpBspIdleLock = s.mem ts.smpBspIdleLock) :
    t.mem ts.smpBspIdleLock = if t.value i = .cargo then 0 else 1 := by
  obtain ⟨ts', found', one, _⟩ := inv'.record_of_hosting hosting
  cases found.symm.trans found'
  rw [threadId] at found
  obtain ⟨ts₀, found₀, _, _, lock⟩ := table ts found (by rw [one]; decide)
  obtain ⟨before, cargo⟩ := same hosting
  rw [mem, ← lock, h.word i ts₀ before found₀]
  simp only [cargo]

/-- An AP that is about to clear a lock word still has the record with this word. -/
theorem clear_stays (h : Handshake s) (inv' : Consistent cfg t) {lock : Dword}
    (after : (t.ap i).pc = .clearIdleLock lock) (before : (s.ap i).pc = .clearIdleLock lock)
    (threadId : (t.ap i).threadId = (s.ap i).threadId)
    (table : s.tsHt.Stays t.tsHt (s.ap i).threadId) :
    ∃ ts, t.tsHt.get (t.ap i).threadId = some ts ∧ ts.smpBspIdleLock = lock := by
  have running : t.value i = .running := value_of_ap (by rw [after]; rfl)
  obtain ⟨ts, found, one, _⟩ := inv'.record_of_hosting (i := i) (by rw [running]; rfl)
  refine ⟨ts, found, ?_⟩
  rw [threadId] at found
  obtain ⟨ts₀, found₀, _, _, same⟩ := table ts found (by rw [one]; decide)
  obtain ⟨ts₁, found₁, lock₁⟩ := h.clear i lock before
  cases found₀.symm.trans found₁
  exact same.symm.trans lock₁

/-- A step that stores to no lock word and hands no thread over. -/
theorem keep (h : Handshake s) (inv' : Consistent cfg t) (table : ∀ tid, s.tsHt.Stays t.tsHt tid)
    (same : ∀ i, SameCargo s t i) (threadId : ∀ i, (t.ap i).threadId = (s.ap i).threadId)
    (mem : t.mem = s.mem)
    (store : ∀ l v, t.bsp = .apStore l v → s.bsp = .apStore l v ∧ t.tsHt = s.tsHt)
    (clear : ∀ i lock, (t.ap i).pc = .clearIdleLock lock → (s.ap i).pc = .clearIdleLock lock) :
    Handshake t where
  elevated := h.elevated_stays table
  word i ts hosting found :=
    h.word_stays inv' hosting (same i) (threadId i) (table _) found (by rw [mem])
  store l v ts pc found := by
    obtain ⟨before, ht⟩ := store l v pc
    rw [mem]
    exact h.store l v ts before (ht ▸ found)
  clear i lock after := h.clear_stays inv' after (clear i lock after) (threadId i) (table _)

end Handshake

theorem ApMove.of_cargo {pc : ApPc} (h : ApMove pc .cargo w) : False := by
  cases h

/-- A store to the lock word of one elevated thread leaves those of the others alone. -/
theorem TsHt.update_lock (mem : Dword → Dword) (x : Dword) (own : ht.ownLocks = true)
    (found : ht.get tid = some ts) (elevated : ts.smpBspIdleProc ≠ 0)
    (found' : ht.get tid' = some ts') (elevated' : ts'.smpBspIdleProc ≠ 0) (ne : tid' ≠ tid) :
    Function.update mem ts.smpBspIdleLock x ts'.smpBspIdleLock = mem ts'.smpBspIdleLock :=
  Function.update_of_ne ((ownLocks_spec own found elevated).2 tid' ts' found' elevated' ne) ..

/-- The record of a thread that is hosted, and its placeholder. -/
theorem Handshake.hosted (h : Handshake s) (inv : Consistent cfg s)
    (hosting : (s.value i).hosting = true) :
    ∃ ts, s.tsHt.get (s.ap i).threadId = some ts ∧ ts.smpStatus = 1 ∧ ts.smpBspIdleProc ≠ 0 := by
  obtain ⟨ts, found, one, _⟩ := inv.record_of_hosting hosting
  exact ⟨ts, found, one, h.elevated _ ts found (by rw [one]; decide)⟩

/-- The record of the thread that `switch_to_ap` works for. -/
theorem Consistent.ready_of_apStore (inv : Consistent cfg s) {l : ToAp} (pc : s.bsp = .apStore l v) :
    s.tsHt.Ready l.threadId := by
  have ok := inv.ledger.bsp
  rw [pc] at ok
  exact ok.1

/-- A thread that is hosted is not ready to be handed over. -/
theorem TsHt.Ready.ne (ready : ht.Ready tid) (found : ht.get tid' = some ts)
    (hosted : ts.smpStatus = 1) : tid' ≠ tid := by
  rintro rfl
  obtain ⟨ts', found', zero, _⟩ := ready
  cases found.symm.trans found'
  rw [zero] at hosted
  cases hosted

theorem ApStep.handshake (inv : Consistent cfg s) (inv' : Consistent cfg t) (h : Handshake s)
    (own : s.tsHt.ownLocks = true) (step : ApStep i s t) : Handshake t := by
  have frame := step.frame
  have value := step.value inv.locks
  have threadId : ∀ j, (t.ap j).threadId = (s.ap j).threadId := by
    intro j
    by_cases this : j = i
    · rw [this, frame.threadId]
    · rw [frame.others j this]
  have table : ∀ tid, s.tsHt.Stays t.tsHt tid := fun tid => by
    rw [frame.tsHt]
    exact .refl _ tid
  have same (quiet : t.value i = .cargo → s.value i = .cargo) (j : Nat) : SameCargo s t j := by
    by_cases this : j = i
    · subst this
      obtain kept | move := value
      · exact .of_eq kept
      · refine fun hosting => ⟨move.hosting hosting, quiet, fun cargo => ?_⟩
        rw [cargo] at move
        exact move.of_cargo.elim
    · exact .of_eq (frame.value this)
  have elsewhere {j : Nat} (ne : j ≠ i) {lock : Dword} (after : (t.ap j).pc = .clearIdleLock lock) :
      (s.ap j).pc = .clearIdleLock lock := by rwa [frame.others j ne] at after
  have keep (quiet : t.value i = .cargo → s.value i = .cargo) (mem : t.mem = s.mem)
      (clear : ∀ lock, (t.ap i).pc ≠ .clearIdleLock lock) : Handshake t := by
    refine h.keep inv' table (same quiet) threadId mem
      (fun l v pc => ⟨frame.bsp ▸ pc, frame.tsHt⟩) fun j lock after => ?_
    by_cases this : j = i
    · exact absurd (this ▸ after) (clear lock)
    · exact elsewhere this after
  have still (unmoved : ¬ApMove (s.ap i).pc (s.value i) (t.value i)) :
      t.value i = .cargo → s.value i = .cargo := fun cargo =>
    (value.resolve_right unmoved) ▸ cargo
  cases step with
  | spin pc _ => exact h
  | branch v w rc now pc branch =>
      refine keep (fun cargo => ?_) rfl (by simp)
      rw [value_of_ap (by rw [Sys.setAp_self]; rfl)] at cargo
      rw [value_of_ap (by rw [pc]; rfl)]
      cases branch with
      | stay _ _ _ _ => exact cargo
      | sleep => cases cargo
      | load => cases cargo
  | notify ts pc found lock =>
      refine ⟨h.elevated_stays table, fun j ts' hosting found' => ?_,
        fun l v ts' pc' found' => h.store l v ts' pc' found', fun j lock' after => ?_⟩
      · have running := value_of_ap (i := i)
          (s := s.setAp i { s.ap i with pc := .clearIdleLock ts.smpBspIdleLock })
          (by rw [Sys.setAp_self]; rfl)
        exact h.word_stays inv' hosting (same (fun cargo => by cases running.symm.trans cargo) j)
          (threadId j) (table _) found' rfl
      · by_cases this : j = i
        · subst this
          simp only [Sys.setAp_self, ApPc.clearIdleLock.injEq] at after ⊢
          exact ⟨ts, found, after⟩
        · exact h.clear_stays inv' after (elsewhere this after) (threadId j) (table _)
  | silent pc absent =>
      -- the record of the thread is there, with a lock word
      obtain ⟨ts, found, _, elevated⟩ := h.hosted (i := i) inv (by
        rw [value_of_ap (by rw [pc]; rfl)]
        rfl)
      exact absurd (absent ts found) (TsHt.ownLocks_spec own found elevated).1
  | clearIdleLock lock pc =>
      have running : s.value i = .running := value_of_ap (by rw [pc]; rfl)
      obtain ⟨ts, found, one, elevated⟩ := h.hosted (i := i) inv (by rw [running]; rfl)
      obtain ⟨ts', found', rfl⟩ := h.clear i lock pc
      cases found.symm.trans found'
      refine ⟨h.elevated_stays table, fun j ts' hosting found' => ?_,
        fun l v ts' pc' found' => ?_, fun j lock' after => ?_⟩
      · by_cases this : j = i
        · subst this
          have cargo := value_of_ap (s := { s.setAp j { s.ap j with pc := .atomicUnlock .cargo false }
            with mem := Function.update s.mem ts.smpBspIdleLock 0 }) (i := j)
            (by simp only [Sys.setAp, Function.update_self]; rfl)
          rw [threadId j] at found'
          cases found.symm.trans found'
          rw [if_pos cargo]
          exact Function.update_self ..
        · have before : (s.value j).hosting = true := by
            rwa [frame.value this] at hosting
          have ne : (s.ap j).threadId ≠ (s.ap i).threadId := fun shared =>
            this (inv.coherent.host_unique (Status.phase_hosting.mpr before)
              (Status.phase_hosting.mpr (running ▸ rfl)) shared)
          obtain ⟨ts'', found'', _, elevated''⟩ := h.hosted inv before
          rw [threadId j] at found'
          cases found'.symm.trans found''
          have kept := TsHt.update_lock s.mem 0 own found elevated found' elevated'' ne
          exact h.word_stays inv' hosting (.of_eq (frame.value this)) (threadId j) (table _)
            (threadId j ▸ found') kept
      · obtain ⟨ts'', found'', zero, elevated''⟩ := inv.ready_of_apStore pc'
        cases found'.symm.trans found''
        refine (TsHt.update_lock _ _ own found elevated found' elevated'' ?_).trans
          (h.store l v ts' pc' found')
        exact (TsHt.Ready.ne (inv.ready_of_apStore pc') found one).symm
      · by_cases this : j = i
        · subst this
          simp [Sys.setAp] at after
        · exact h.clear_stays inv' after (elsewhere this after) (threadId j) (table _)
  | unlock v rc pc =>
      refine keep (still (by rw [pc]; rintro ⟨⟩)) rfl fun lock after => ?_
      simp only [Sys.setAp_self] at after
      split at after
      · cases after
      · split at after <;> cases after
  | discard now pc =>
      refine keep (fun cargo => ?_) rfl (by simp)
      rw [value_of_ap (by rw [Sys.setAp_self]; rfl)] at cargo
      cases cargo
  | kernelBoot pc => exact keep (still (by rw [pc]; rintro ⟨⟩)) rfl (by simp)
  | lock pc _ => exact keep (still (by rw [pc]; rintro ⟨⟩)) rfl (by simp)
  | incLoad pc => exact keep (still (by rw [pc]; rintro ⟨⟩)) rfl (by simp)
  | incStore cnt pc => exact keep (still (by rw [pc]; rintro ⟨⟩)) rfl (by simp [Sys.setAp])
  | sti pc => exact keep (still (by rw [pc]; rintro ⟨⟩)) rfl (by simp)
  | hlt pc => exact keep (still (by rw [pc]; rintro ⟨⟩)) rfl (by simp)
  | switchtask fpu pc => exact keep (still (by rw [pc]; rintro ⟨⟩)) rfl (by simp)

theorem switchToApReturn_ne (l l' : ToAp) (rc : Bool) : switchToApReturn l rc ≠ .apStore l' v := by
  unfold switchToApReturn
  split <;> simp

/-- The hand-off is reached only with a lock word that is null or has been set. -/
theorem BspGoto.apStore {b : Bsp} {l : ToAp} (h : BspGoto cfg s b (.apStore l v)) :
    ∃ ts, b = .apSwitch l v ∧ s.tsHt.get l.threadId = some ts ∧ ts.smpBspIdleLock = 0 := by
  generalize after : Bsp.apStore l v = c at h
  cases h with
  | noLock l v ts _ found null =>
      cases after
      exact ⟨ts, rfl, found, null⟩
  | noAp l' _ => exact absurd after.symm (switchToApReturn_ne l' l false)
  | _ => cases after

theorem BspGoto.ne_apStore {b : Bsp} {l : ToAp} (h : BspGoto cfg s (.apStore l v) b) : False := by
  cases h

theorem LockAt.ne_apStore {b : Bsp} {cpu : Nat} {next : Status → Bsp} (h : LockAt b cpu next)
    (l : ToAp) (v w : Status) : b ≠ .apStore l v ∧ next w ≠ .apStore l v := by
  cases h <;> simp

theorem UnlockAt.ne_apStore {b c : Bsp} {cpu : Nat} (h : UnlockAt b cpu v c) (l : ToAp)
    (w : Status) : b ≠ .apStore l w ∧ c ≠ .apStore l w := by
  cases h <;> simp

theorem BspEntry.ne_apStore {op : BspOp} {b : Bsp} (h : BspEntry cfg s op b) (l : ToAp)
    (v : Status) : b ≠ .apStore l v := by
  cases h <;> simp

theorem BspStep.handshake (inv : Consistent cfg s) (inv' : Consistent cfg t) (h : Handshake s)
    (own : s.tsHt.ownLocks = true) (step : BspStep cfg s t) : Handshake t := by
  have step' := step
  have value := step.value inv.locks
  have threadId := step.threadId
  have clear {i : Nat} {lock : Dword} (after : (t.ap i).pc = .clearIdleLock lock) :
      (s.ap i).pc = .clearIdleLock lock := by
    obtain same | ⟨_, boot⟩ := step.pc i
    · exact same.symm.trans after
    · cases boot.symm.trans after
  have same (before : ∀ l v, s.bsp ≠ .apStore l v) (i : Nat) : SameCargo s t i := by
    obtain kept | move := value i
    · exact .of_eq kept
    · intro hosting
      generalize t.value i = w at move hosting
      generalize s.value i = v at move
      generalize s.bsp = b at move before
      cases move with
      | handOff l v _ => exact absurd rfl (before l v)
      | takeBack l _ => cases hosting
      | discard tid v => cases hosting
  have keep (before : ∀ l v, s.bsp ≠ .apStore l v) (after : ∀ l v, t.bsp ≠ .apStore l v)
      (table : ∀ tid, s.tsHt.Stays t.tsHt tid) (mem : t.mem = s.mem) : Handshake t := by
    refine h.keep inv' table (same before) (fun i => (threadId i).resolve_right ?_) mem
      (fun l v pc => absurd pc (after l v)) fun i lock => clear
    rintro ⟨l, v, pc, _⟩
    exact before l v pc
  have refl (tid : Dword) : s.tsHt.Stays s.tsHt tid := .refl _ tid
  cases step with
  | goto b goto =>
      refine keep (fun l v pc => (pc ▸ goto : BspGoto cfg s (.apStore l v) b).ne_apStore)
        (fun l v pc => ?_) refl rfl
      obtain ⟨ts, before, found, null⟩ := (show BspGoto cfg s s.bsp (.apStore l v) from pc ▸ goto).apStore
      have ok := inv.ledger.bsp
      rw [before] at ok
      obtain ⟨ts', found', _, elevated⟩ := ok.1
      cases found.symm.trans found'
      exact (TsHt.ownLocks_spec own found elevated).1 null
  | startAp j pc _ _ => exact keep (by simp [pc]) (by simp [pc]) refl rfl
  | awaitAp j pc => exact h
  | spin cpu next at_ _ => exact h
  | lock cpu next at_ _ =>
      exact keep (fun l v => (at_.ne_apStore l v v).1) (fun l v => (at_.ne_apStore l v _).2) refl rfl
  | unlock cpu w b at_ =>
      exact keep (fun l v => (at_.ne_apStore l v).1) (fun l v => (at_.ne_apStore l v).2) refl rfl
  | discard tid cpu w pc => exact keep (by simp [pc]) (by simp) refl rfl
  | free tid pc => exact keep (by simp [pc]) (by simp) TsHt.stays_destroy rfl
  | setIdleLock l w ts pc free found lock =>
      have ok := inv.ledger.bsp
      rw [pc] at ok
      have ready : s.tsHt.Ready l.threadId := ok.1
      have ⟨ts', found', _, elevated⟩ := ready
      cases found.symm.trans found'
      have kept := step'.value_same inv.locks (by rw [pc]; rfl)
      refine ⟨h.elevated, fun i ts' hosting found' => ?_, fun l' v ts' pc' found' => ?_,
        fun i lock after => h.clear i lock (clear after)⟩
      · rw [kept i] at hosting
        obtain ⟨ts'', found'', one, elevated'⟩ := h.hosted inv hosting
        cases found'.symm.trans found''
        rw [kept i]
        exact (TsHt.update_lock _ _ own found elevated found' elevated' (ready.ne found' one)).trans
          (h.word i ts' hosting found')
      · cases pc'
        cases found.symm.trans found'
        exact Function.update_self ..
  | handOff l w ts pc found =>
      have ready : s.tsHt.Ready l.threadId := inv.ready_of_apStore pc
      have ⟨ts', found', _, elevated⟩ := ready
      cases found.symm.trans found'
      have table : (SmpVxd.handOff cfg s l w ts).tsHt =
          s.tsHt.modify l.threadId (TsThread.onAp l.cpu) (TsThread.onAp_tid l.cpu) := rfl
      have free := inv.free_of_apStore pc
      have others {i : Nat} (ne : i ≠ l.cpu) :
          ((SmpVxd.handOff cfg s l w ts).ap i).threadId = (s.ap i).threadId := by
        simp [SmpVxd.handOff, Sys.setAp, Function.update_of_ne ne]
      have stays {tid : Dword} (ne : tid ≠ l.threadId) :
          s.tsHt.Stays (SmpVxd.handOff cfg s l w ts).tsHt tid :=
        .of_get (by rw [table, TsHt.get_modify_ne ne])
      -- a thread that is hosted elsewhere is not the one handed over
      have elsewhere {i : Nat} (ne : i ≠ l.cpu)
          (hosting : ((SmpVxd.handOff cfg s l w ts).value i).hosting = true) :
          (s.ap i).threadId ≠ l.threadId := by
        rw [step'.value_ne inv.locks (by rw [pc]; rfl) ne] at hosting
        obtain ⟨ts', found', one, _⟩ := h.hosted inv hosting
        exact ready.ne found' one
      refine ⟨fun tid ts' found' hosted => ?_, fun i ts' hosting found' => ?_,
        fun l' v ts' pc' => (by cases pc'), fun i lock after => ?_⟩
      · by_cases this : tid = l.threadId
        · subst this
          rw [table, TsHt.get_modify_self, found] at found'
          cases found'
          exact elevated
        · rw [table, TsHt.get_modify_ne this] at found'
          exact h.elevated tid ts' found' hosted
      · by_cases this : i = l.cpu
        · subst this
          have loaded : (SmpVxd.handOff cfg s l w ts).value l.cpu = .loaded :=
            inv'.locks.value_of_bsp (Bsp.held_of_lock (handOff_lock l w ts))
          have guest : ((SmpVxd.handOff cfg s l w ts).ap l.cpu).threadId = l.threadId := by
            simp [SmpVxd.handOff, Sys.setAp]
          rw [guest, table, TsHt.get_modify_self, found] at found'
          cases found'
          rw [loaded]
          exact h.store l w ts pc found
        · exact h.word_stays inv' hosting (.of_eq (step'.value_ne inv.locks (by rw [pc]; rfl) this))
            (others this) (stays (elsewhere this hosting)) found' rfl
      · have running : (SmpVxd.handOff cfg s l w ts).value i = .running :=
          value_of_ap (by rw [after]; rfl)
        have ne : i ≠ l.cpu := by
          rintro rfl
          rw [value_of_ap (v := .running) (by rw [clear after]; rfl)] at free
          cases free
        exact h.clear_stays inv' after (clear after) (others ne)
          (stays (elsewhere ne (by rw [running]; rfl)))
  | wakeup l w pc _ => exact keep (by simp [pc]) (by simp) refl rfl
  | decStore l cnt pc =>
      exact keep (by simp [pc]) (fun l' v => switchToApReturn_ne l l' true) refl rfl
  | takeBack l pc =>
      exact keep (by simp [pc]) (by simp [SmpVxd.takeBack])
        (TsHt.stays_modify TsThread.onBsp_tid fun _ _ => rfl) rfl
  | incStore l cnt pc => exact keep (by simp [pc]) (by simp) refl rfl
  | switchIn curTid cbsNew pc =>
      refine keep (by simp [pc]) (by simp [switchIn_bsp]) (switchIn_core curTid cbsNew).stays ?_
      unfold SmpVxd.switchIn
      split <;> rfl

theorem CallStep.handshake {op : BspOp} (inv' : Consistent cfg t) (h : Handshake s)
    (idle : s.bsp = .idle) (own : elevatesItself s (.call op) = true) (step : CallStep cfg s op t) :
    Handshake t := by
  have same (i : Nat) : SameCargo s t i := .of_eq (step.value idle i)
  cases step with
  | create tid page =>
      exact h.keep inv' (TsHt.stays_create page) same (fun _ => rfl) rfl
        (fun l v pc => by cases idle.symm.trans pc) fun _ _ => id
  | elevate proc lockaddr mode =>
      exact h.keep inv' (smpElevate_stays own) same (fun _ => rfl) rfl
        (fun l v pc => by cases idle.symm.trans pc) fun _ _ => id
  | enter op b ht entry core =>
      exact h.keep inv' core.stays same (fun _ => rfl) rfl
        (fun l v pc => absurd pc (entry.ne_apStore l v)) fun _ _ => id

theorem Handshake.step (h : Handshake s) (inv : Consistent cfg s) (own : SmpVxd.ownLocks s a = true)
    (step : Step cfg s a t) : Handshake t := by
  have inv' := inv.step step
  have refl (tid : Dword) : s.tsHt.Stays s.tsHt tid := .refl _ tid
  obtain ⟨locks, elevates⟩ := Bool.and_eq_true_iff.mp own
  cases step.outcome with
  | call op t idle call => exact call.handshake inv' h idle elevates
  | bsp t step => exact (bspStep_outcome step).handshake inv inv' h locks
  | ap i now msClock t present step => exact step.handshake inv inv' h locks
  | nmi j t present nmi =>
      have frame := nmi.frame
      refine h.keep inv' (fun tid => by rw [frame.tsHt]; exact refl tid)
        (fun i => .of_eq (nmi.value i)) (fun i => ?_) ?_
        (fun l v pc => ⟨frame.bsp ▸ pc, frame.tsHt⟩) fun i lock after => ?_
      · by_cases this : i = j
        · rw [this, frame.threadId]
        · rw [frame.others i this]
      · cases nmi <;> rfl
      · by_cases this : i = j
        · subst this
          cases nmi <;> simp_all
        · rwa [frame.others i this] at after
  | trap j trap u x tid present pc =>
      refine h.keep inv' refl (fun i => .of_eq (trap_value cfg pc trap u x i)) (fun i => ?_) rfl
        (fun l v pc => ⟨pc, rfl⟩) fun i lock after => ?_
      · by_cases this : i = j
        · subst this
          simp [Ap.switchBack]
        · rw [Sys.setAp_ne _ _ _ this]
      · by_cases this : i = j
        · subst this
          simp [Ap.switchBack] at after
        · rwa [Sys.setAp_ne _ _ _ this] at after
  | compute x idle =>
      exact h.keep inv' refl (fun _ => .of_eq rfl) (fun _ => rfl) rfl (fun l v pc => ⟨pc, rfl⟩)
        fun _ _ => id
  | rebuildPd pageDir idle =>
      exact h.keep inv' refl (fun _ => .of_eq rfl) (fun _ => rfl) rfl (fun l v pc => ⟨pc, rfl⟩)
        fun _ _ => id

theorem handshake_initialised : Handshake (initialised cfg) := by
  refine ⟨fun tid ts found => ?_, fun i ts hosting => ?_, fun l v ts pc => ?_, fun i lock pc => ?_⟩
  · cases (TsHt.get_empty tid).symm.trans found
  · cases hosting
  · cases pc
  · cases pc

end SmpVxd
