import SmpVxd.Protocol.Ownership

/-!
# A call of `switch_to_ap`

While the BSP searches the slots and hands a thread over, the APs go on. What the call
itself does is seen in the states in which the words that it holds are given back: there
most of its statements change nothing, and the others are listed in `Own`. `Stage` says
which of them have been made at each program point of the call.
-/

namespace SmpVxd

open Transition

/-- A visible step of `switch_to_ap`. -/
inductive Own where
  /-- The status word of a slot is taken with its value. -/
  | examine (i : Nat) (v : Status)
  | setLock (lock : Dword)
  /-- The thread is stored into the data page of a slot. -/
  | give (i : Nat)
  | wake (i : Nat)
  | load (cnt : Dword)
  | store (cnt : Dword)
  deriving DecidableEq

/-- The state with the word that the BSP holds given back, and outside of the call. -/
def Sys.released (s : Sys) : Sys :=
  match s.bsp.lock with
  | none => { s with bsp := .idle }
  | some (i, v) => { s.setAp i { s.ap i with status := v } with bsp := .idle }

/-- The thread `tid` on AP `i`, with the registers `crs`. -/
def Sys.given (cfg : Config) (s : Sys) (tid : Dword) (crs : Crs) (i : Nat) (ts : TsThread) : Sys :=
  { s.setAp i { s.ap i with
      status := .loaded
      threadId := tid
      fpuState := fpuSave cfg.xsaveFlags cfg.noSysFxsave false s.fpu (s.ap i).fpuState
      procState := crs
      pd := copyPd s.pageDir
      threadPtr := ts.addr } with
    tsHt := s.tsHt.modify tid (TsThread.onAp i) (TsThread.onAp_tid i) }

def Sys.woken (s : Sys) (i : Nat) : Sys := s.setAp i { s.ap i with nmi := (s.ap i).nmi + 1 }

/-- What a visible step does. -/
def Own.Step (cfg : Config) (tid : Dword) (crs : Crs) (s : Sys) (e : Own) (t : Sys) : Prop :=
  match e with
  | .examine i v => (s.ap i).status = v ∧ v ≠ .busy ∧ t = s
  | .setLock lock => t = { s with mem := Function.update s.mem lock 1 }
  | .give i => ∃ ts, s.tsHt.get tid = some ts ∧ t = s.given cfg tid crs i ts
  | .wake i => t = s.woken i
  | .load cnt => s.apFreeCnt = cnt ∧ t = s
  | .store cnt => t = { s with apFreeCnt := cnt - 1 }

/-- The BSP executes `switch_to_ap`. -/
def Bsp.inSwitchToAp : Bsp → Bool
  | .apLoop _ | .apLock _ | .apSwitch _ _ | .apStore _ _ | .apWakeup _ _ | .apUnlock _ _
  | .decLoad _ | .decStore _ _ => true
  | _ => false

/-- The slots below `n` as they were examined in order. -/
def passed (cfg : Config) (vals : Nat → Status) (n : Nat) : List Own :=
  ((List.range n).filter fun i => cfg.present i).map fun i => .examine i (vals i)

def NoneFree (cfg : Config) (vals : Nat → Status) (n : Nat) : Prop :=
  ∀ i < n, cfg.present i = true → (vals i).free = false

/-- AP `n` is found with the value `v`, and the lock word of the thread is set. -/
def taking (ts : TsThread) (n : Nat) (v : Status) : List Own :=
  .examine n v :: if ts.smpBspIdleLock ≠ 0 then [.setLock ts.smpBspIdleLock] else []

def waking (n : Nat) (v : Status) : List Own := if v = .sleep then [.wake n] else []

/-- The local variables of the call while it searches, and after the hand-off. -/
def ToAp.searching (caller : Caller) (tid : Dword) (crs : Crs) (n : Nat) : ToAp :=
  ⟨caller, tid, crs, n, false, false⟩

def ToAp.handed (cfg : Config) (caller : Caller) (tid : Dword) (crs : Crs) (ts : TsThread) (n : Nat)
    (v : Status) : ToAp where
  caller := caller
  threadId := tid
  crs := { crs with
    clientEsp := cfg.stack n + stackOffPlaceholder
    clientEcx := ts.smpBspIdleProc
    clientEax := ts.smpBspIdleLock
    clientEip := cfg.kernelFlat + smpOffsetTrampoline }
  cpu := n
  found := true
  wakeup := v = .sleep

section Call

variable (cfg : Config) (caller : Caller) (tid : Dword) (crs : Crs) (ts : TsThread)

/-- A program point of the call with the visible steps that led to it. -/
inductive Stage : TsHt → Bsp → List Own → Prop where
  | loop {ht vals n} : ht.get tid = some ts → n ≤ cfg.ttableMax + 1 → NoneFree cfg vals n →
      Stage ht (.apLoop (.searching caller tid crs n)) (passed cfg vals n)
  | lock {ht vals n} : ht.get tid = some ts → cfg.present n = true → NoneFree cfg vals n →
      Stage ht (.apLock (.searching caller tid crs n)) (passed cfg vals n)
  | switch {ht vals n v} : ht.get tid = some ts → cfg.present n = true → NoneFree cfg vals n → v ≠ .busy →
      Stage ht (.apSwitch (.searching caller tid crs n) v) (passed cfg vals n ++ [.examine n v])
  | skip {ht vals n v} : ht.get tid = some ts → cfg.present n = true → NoneFree cfg vals n → v ≠ .busy →
      v.free = false →
      Stage ht (.apWakeup (.searching caller tid crs n) v) (passed cfg vals n ++ [.examine n v])
  | unlockSkipped {ht vals n v} : ht.get tid = some ts → cfg.present n = true → NoneFree cfg vals n →
      v ≠ .busy → v.free = false →
      Stage ht (.apUnlock (.searching caller tid crs n) v) (passed cfg vals n ++ [.examine n v])
  | store {ht vals n v} : ht.get tid = some ts → cfg.present n = true → NoneFree cfg vals n →
      v.free = true → Stage ht (.apStore (.searching caller tid crs n) v)
        (passed cfg vals n ++ taking ts n v)
  | wakeup {ht vals n v} : cfg.present n = true → NoneFree cfg vals n → v.free = true →
      Stage ht (.apWakeup (.handed cfg caller tid crs ts n v) .loaded) (passed cfg vals n ++ taking ts n v ++ [.give n])
  | unlock {ht vals n v} : cfg.present n = true → NoneFree cfg vals n → v.free = true →
      Stage ht (.apUnlock (.handed cfg caller tid crs ts n v) .loaded)
        (passed cfg vals n ++ taking ts n v ++ [.give n] ++ waking n v)
  | decLoad {ht vals n v} : cfg.present n = true → NoneFree cfg vals n → v.free = true →
      Stage ht (.decLoad (.handed cfg caller tid crs ts n v))
        (passed cfg vals n ++ taking ts n v ++ [.give n] ++ waking n v)
  | decStore {ht vals n v cnt} : cfg.present n = true → NoneFree cfg vals n → v.free = true →
      Stage ht (.decStore (.handed cfg caller tid crs ts n v) cnt)
        (passed cfg vals n ++ taking ts n v ++ [.give n] ++ waking n v ++ [.load cnt])

/-- Where the loop leads, with the local variables and the result it ends with. -/
inductive Ended : ToAp → Bool → List Own → Prop where
  | noneFree {vals} : NoneFree cfg vals (cfg.ttableMax + 1) →
      Ended (.searching caller tid crs (cfg.ttableMax + 1)) false (passed cfg vals (cfg.ttableMax + 1))
  | handedOff {vals n v cnt} : cfg.present n = true → NoneFree cfg vals n → v.free = true →
      Ended (.handed cfg caller tid crs ts n v) true
        (passed cfg vals n ++ taking ts n v ++ [.give n] ++ waking n v ++ [.load cnt, .store cnt])

end Call

/-- The thread may be handed over. -/
def Sys.handable (s : Sys) (tid : Dword) (ts : TsThread) : Prop :=
  s.tsHt.get tid = some ts ∧ ts.smpStatus = 0 ∧ ts.smpBspIdleProc ≠ 0

/-- What a call that is entered in state `s` ends with. -/
inductive HandOff (cfg : Config) (caller : Caller) (tid : Dword) (crs : Crs) (s : Sys) :
    ToAp → Bool → List Own → Prop where
  | refused : (∀ ts, ¬ s.handable tid ts) →
      HandOff cfg caller tid crs s (.searching caller tid crs 0) false []
  | ended {ts l rc own} : s.handable tid ts → Ended cfg caller tid crs ts l rc own →
      HandOff cfg caller tid crs s l rc own

section Step

variable {cfg : Config} {caller : Caller} {tid : Dword} {crs : Crs} {ts : TsThread} {s t : Sys}
variable {own : List Own} {n : Nat} {v : Status} {vals : Nat → Status}

theorem passed_absent (absent : cfg.present n = false) : passed cfg vals (n + 1) = passed cfg vals n := by
  simp [passed, List.range_succ, absent]

theorem passed_present (present : cfg.present n = true) :
    passed cfg (Function.update vals n v) (n + 1) = passed cfg vals n ++ [.examine n v] := by
  have same : ∀ i ∈ (List.range n).filter fun i => cfg.present i,
      Own.examine i (Function.update vals n v i) = .examine i (vals i) := by
    intro i member
    have below := List.mem_range.mp (List.mem_filter.mp member).1
    rw [Function.update_of_ne (Nat.ne_of_lt below)]
  simp [passed, List.range_succ, present, List.map_congr_left same]

theorem NoneFree.absent (h : NoneFree cfg vals n) (absent : cfg.present n = false) : NoneFree cfg vals (n + 1) := by
  intro i below present
  obtain less | rfl := Nat.lt_succ_iff_lt_or_eq.mp below
  · exact h i less present
  · rw [absent] at present
    cases present

theorem NoneFree.present (h : NoneFree cfg vals n) (notFree : v.free = false) :
    NoneFree cfg (Function.update vals n v) (n + 1) := by
  intro i below present
  obtain less | rfl := Nat.lt_succ_iff_lt_or_eq.mp below
  · rw [Function.update_of_ne (Nat.ne_of_lt less)]
    exact h i less present
  · rwa [Function.update_self]

theorem Sys.released_of_none (free : s.bsp.lock = none) : s.released = { s with bsp := .idle } := by
  rw [released, free]

theorem Sys.released_of_some {i : Nat} (held : s.bsp.lock = some (i, v)) :
    s.released = { s.setAp i { s.ap i with status := v } with bsp := .idle } := by
  rw [released, held]

/-- The call goes on, or has returned. -/
def Goes (cfg : Config) (caller : Caller) (tid : Dword) (crs : Crs) (ts : TsThread) (t : Sys) (own : List Own) : Prop :=
  Stage cfg caller tid crs ts t.tsHt t.bsp own ∨
    ∃ l rc, t.bsp = switchToApReturn l rc ∧ Ended cfg caller tid crs ts l rc own

/-- A statement with the visible steps that it makes. -/
def Makes (cfg : Config) (tid : Dword) (crs : Crs) (s : Sys) (more : List Own) (t : Sys) : Prop :=
  Run (fun s e t => Own.Step cfg tid crs s e t) s.released more t.released

theorem Makes.silent (same : t.released = s.released) : Makes cfg tid crs s [] t := by
  rw [Makes, same]
  exact .nil _

theorem Makes.visible {e : Own} (step : e.Step cfg tid crs s.released t.released) : Makes cfg tid crs s [e] t :=
  .single step

/-- The exchange that takes the word of a slot changes nothing that is visible. -/
theorem released_lock (next : Status → Bsp) (pc : s.bsp.lock = none)
    (holds : ∀ v, (next v).lock = some (n, v)) (free : (s.ap n).status ≠ .busy) :
    (bspLock s n next).released = s.released := by
  rw [bspLock, if_neg free, Sys.released_of_some (holds _), Sys.released_of_none pc]
  simp [Sys.setAp]

theorem released_unlock {next : Bsp} (pc : s.bsp.lock = some (n, v)) (free : next.lock = none) :
    (bspUnlock s n v next).released = s.released := by
  rw [bspUnlock, Sys.released_of_none free, Sys.released_of_some pc]

/-- A statement that only moves the program point. -/
theorem released_goto {b : Bsp} (same : b.lock = s.bsp.lock) : { s with bsp := b }.released = s.released := by
  rw [Sys.released, Sys.released, same]
  split <;> rfl

theorem loop_step (found : s.tsHt.get tid = some ts) (bound : n ≤ cfg.ttableMax + 1) (noneFree : NoneFree cfg vals n)
    (pc : s.bsp = .apLoop (.searching caller tid crs n)) (step : bspStep cfg s = some t) :
    Makes cfg tid crs s [] t ∧ Goes cfg caller tid crs ts t (passed cfg vals n) := by
  simp only [bspStep, pc] at step
  split at step
  · rename_i past
    cases step
    obtain rfl : n = cfg.ttableMax + 1 := Nat.le_antisymm bound past
    refine ⟨.silent (released_goto ?_), .inr ⟨_, _, rfl, .noneFree noneFree⟩⟩
    rw [pc, switchToApReturn_lock]
    rfl
  · rename_i within
    split at step
    · rename_i present
      cases step
      exact ⟨.silent (released_goto (by rw [pc]; rfl)), .inl (.lock found present noneFree)⟩
    · rename_i absent
      have absent : cfg.present n = false := Bool.eq_false_of_not_eq_true absent
      cases step
      refine ⟨.silent (released_goto (by rw [pc]; rfl)), ?_⟩
      rw [← passed_absent absent]
      exact .inl (.loop found (Nat.succ_le_succ (Nat.le_of_not_lt within)) (noneFree.absent absent))

theorem lock_step (found : s.tsHt.get tid = some ts) (present : cfg.present n = true) (noneFree : NoneFree cfg vals n)
    (pc : s.bsp = .apLock (.searching caller tid crs n)) (step : bspStep cfg s = some t) :
    ∃ more, Makes cfg tid crs s more t ∧ Goes cfg caller tid crs ts t (passed cfg vals n ++ more) := by
  simp only [bspStep, pc] at step
  cases step
  by_cases busy : (s.ap n).status = .busy
  · refine ⟨[], .silent ?_, .inl ?_⟩
    · exact congrArg _ (if_pos busy)
    · show Stage _ _ _ _ _ (bspLock s n _).tsHt (bspLock s n _).bsp _
      rw [bspLock, if_pos busy, pc, List.append_nil]
      exact .lock found present noneFree
  · have same := released_lock (.apSwitch (.searching caller tid crs n)) (by rw [pc]; rfl) (fun _ => rfl) busy
    refine ⟨[.examine n (s.ap n).status], .visible ⟨?_, busy, same⟩, .inl ?_⟩
    · rw [Sys.released_of_none (by rw [pc]; rfl)]
    · show Stage _ _ _ _ _ (bspLock s n _).tsHt (bspLock s n _).bsp _
      rw [bspLock, if_neg busy]
      exact .switch found present noneFree busy

theorem switch_step (found : s.tsHt.get tid = some ts) (present : cfg.present n = true) (noneFree : NoneFree cfg vals n)
    (taken : v ≠ .busy) (pc : s.bsp = .apSwitch (.searching caller tid crs n) v) (step : bspStep cfg s = some t) :
    ∃ more, Makes cfg tid crs s more t ∧
      Goes cfg caller tid crs ts t (passed cfg vals n ++ [.examine n v] ++ more) := by
  have lookup : s.tsHt.get (ToAp.searching caller tid crs n).threadId = some ts := found
  simp only [bspStep, pc, lookup] at step
  split at step
  · rename_i free
    split at step
    · rename_i locks
      cases step
      have own : taking ts n v = [.examine n v, .setLock ts.smpBspIdleLock] := by rw [taking, if_pos locks]
      have before : s.released = _ := Sys.released_of_some (i := n) (v := v) (by rw [pc]; rfl)
      refine ⟨[.setLock ts.smpBspIdleLock], .visible ?_, .inl ?_⟩
      · rw [before]
        rfl
      · rw [List.append_assoc, List.singleton_append, ← own]
        exact .store found present noneFree free
    · rename_i locks
      cases step
      have own : taking ts n v = [.examine n v] := by rw [taking, if_neg locks]
      refine ⟨[], .silent (released_goto (by rw [pc]; rfl)), .inl ?_⟩
      rw [List.append_nil, ← own]
      exact .store found present noneFree free
  · rename_i notFree
    cases step
    refine ⟨[], .silent (released_goto (by rw [pc]; rfl)), .inl ?_⟩
    rw [List.append_nil]
    exact .skip found present noneFree taken (Bool.eq_false_of_not_eq_true notFree)

theorem unlockSkipped_step (found : s.tsHt.get tid = some ts) (present : cfg.present n = true)
    (noneFree : NoneFree cfg vals n) (notFree : v.free = false)
    (pc : s.bsp = .apUnlock (.searching caller tid crs n) v) (step : bspStep cfg s = some t) :
    Makes cfg tid crs s [] t ∧ Goes cfg caller tid crs ts t (passed cfg vals n ++ [.examine n v]) := by
  simp only [bspStep, pc] at step
  cases step
  refine ⟨.silent (released_unlock (by rw [pc]; rfl) rfl), .inl ?_⟩
  rw [← passed_present present]
  exact .loop found (Nat.succ_le_succ (cfg.present_le n present)) (noneFree.present notFree)

theorem store_step (found : s.tsHt.get tid = some ts) (present : cfg.present n = true) (noneFree : NoneFree cfg vals n)
    (free : v.free = true) (pc : s.bsp = .apStore (.searching caller tid crs n) v) (step : bspStep cfg s = some t) :
    Makes cfg tid crs s [.give n] t ∧
      Goes cfg caller tid crs ts t (passed cfg vals n ++ taking ts n v ++ [.give n]) := by
  have lookup : s.tsHt.get (ToAp.searching caller tid crs n).threadId = some ts := found
  simp only [bspStep, pc, lookup] at step
  cases step
  refine ⟨.visible ⟨ts, ?_, ?_⟩, .inl ?_⟩
  · rw [Sys.released_of_some (by rw [pc]; rfl)]
    exact found
  · rw [Sys.released_of_some (i := n) (v := .loaded) rfl, Sys.released_of_some (by rw [pc]; rfl)]
    simp [handOff, Sys.given, Sys.setAp, ToAp.searching]
  · have flags : (false || decide (v = .sleep)) = decide (v = .sleep) := Bool.false_or _
    show Stage _ _ _ _ _ _ (.apWakeup ⟨caller, tid, placeholder cfg n ts crs, n, true,
      false || decide (v = .sleep)⟩ .loaded) _
    rw [flags]
    exact .wakeup present noneFree free

theorem wakeup_step (present : cfg.present n = true) (noneFree : NoneFree cfg vals n) (free : v.free = true)
    (pc : s.bsp = .apWakeup (.handed cfg caller tid crs ts n v) .loaded) (step : bspStep cfg s = some t) :
    Makes cfg tid crs s (waking n v) t ∧
      Goes cfg caller tid crs ts t (passed cfg vals n ++ taking ts n v ++ [.give n] ++ waking n v) := by
  simp only [bspStep, pc] at step
  split at step
  · rename_i sleeping
    have own : waking n v = [.wake n] := if_pos (of_decide_eq_true sleeping)
    have before : s.released = _ := Sys.released_of_some (i := n) (v := .loaded) (by rw [pc]; rfl)
    cases step
    refine ⟨?_, .inl (.unlock present noneFree free)⟩
    rw [own]
    refine .visible ?_
    rw [before]
    show Sys.released _ = _
    rw [Sys.released_of_some (i := n) (v := .loaded) rfl]
    simp [Sys.woken, Sys.setAp, ToAp.handed]
  · rename_i awake
    have own : waking n v = [] := if_neg fun sleeping => awake (decide_eq_true sleeping)
    cases step
    refine ⟨?_, .inl (.unlock present noneFree free)⟩
    rw [own]
    exact .silent (released_goto (by rw [pc]; rfl))

theorem unlock_step (present : cfg.present n = true) (noneFree : NoneFree cfg vals n) (free : v.free = true)
    (pc : s.bsp = .apUnlock (.handed cfg caller tid crs ts n v) .loaded) (step : bspStep cfg s = some t) :
    Makes cfg tid crs s [] t ∧
      Goes cfg caller tid crs ts t (passed cfg vals n ++ taking ts n v ++ [.give n] ++ waking n v) := by
  simp only [bspStep, pc] at step
  cases step
  exact ⟨.silent (released_unlock (by rw [pc]; rfl) rfl), .inl (.decLoad present noneFree free)⟩

theorem decLoad_step (present : cfg.present n = true) (noneFree : NoneFree cfg vals n) (free : v.free = true)
    (pc : s.bsp = .decLoad (.handed cfg caller tid crs ts n v)) (step : bspStep cfg s = some t) :
    Makes cfg tid crs s [.load s.apFreeCnt] t ∧ Goes cfg caller tid crs ts t
      (passed cfg vals n ++ taking ts n v ++ [.give n] ++ waking n v ++ [.load s.apFreeCnt]) := by
  simp only [bspStep, pc] at step
  cases step
  refine ⟨.visible ⟨?_, released_goto (by rw [pc]; rfl)⟩, .inl (.decStore present noneFree free)⟩
  rw [Sys.released_of_none (by rw [pc]; rfl)]

theorem decStore_step {cnt : Dword} (present : cfg.present n = true) (noneFree : NoneFree cfg vals n)
    (free : v.free = true) (pc : s.bsp = .decStore (.handed cfg caller tid crs ts n v) cnt)
    (step : bspStep cfg s = some t) : Makes cfg tid crs s [.store cnt] t ∧ Goes cfg caller tid crs ts t
      (passed cfg vals n ++ taking ts n v ++ [.give n] ++ waking n v ++ [.load cnt, .store cnt]) := by
  have before : s.released = _ := Sys.released_of_none (by rw [pc]; rfl)
  simp only [bspStep, pc] at step
  cases step
  refine ⟨.visible ?_, .inr ⟨_, _, rfl, .handedOff present noneFree free⟩⟩
  rw [before]
  exact Sys.released_of_none (switchToApReturn_lock _ _)

/-- One statement of the call. -/
theorem Stage.step (stage : Stage cfg caller tid crs ts s.tsHt s.bsp own) (step : bspStep cfg s = some t) :
    ∃ more, Makes cfg tid crs s more t ∧ Goes cfg caller tid crs ts t (own ++ more) := by
  generalize pc : s.bsp = b at stage
  generalize table : s.tsHt = ht at stage
  cases stage with
  | loop found bound noneFree =>
      obtain ⟨makes, goes⟩ := loop_step (table ▸ found) bound noneFree pc step
      exact ⟨_, makes, by rwa [List.append_nil]⟩
  | lock found present noneFree => exact lock_step (table ▸ found) present noneFree pc step
  | switch found present noneFree taken => exact switch_step (table ▸ found) present noneFree taken pc step
  | skip found present noneFree taken notFree =>
      simp only [bspStep, pc] at step
      cases step
      refine ⟨[], .silent (released_goto (by rw [pc]; rfl)), .inl ?_⟩
      rw [List.append_nil]
      exact .unlockSkipped (table ▸ found) present noneFree taken notFree
  | unlockSkipped found present noneFree taken notFree =>
      obtain ⟨makes, goes⟩ := unlockSkipped_step (table ▸ found) present noneFree notFree pc step
      exact ⟨_, makes, by rwa [List.append_nil]⟩
  | store found present noneFree free => exact ⟨_, store_step (table ▸ found) present noneFree free pc step⟩
  | wakeup present noneFree free => exact ⟨_, wakeup_step present noneFree free pc step⟩
  | unlock present noneFree free =>
      obtain ⟨makes, goes⟩ := unlock_step present noneFree free pc step
      exact ⟨_, makes, by rwa [List.append_nil]⟩
  | decLoad present noneFree free => exact ⟨_, decLoad_step present noneFree free pc step⟩
  | decStore present noneFree free =>
      obtain ⟨makes, goes⟩ := decStore_step present noneFree free pc step
      exact ⟨_, makes, by simpa using goes⟩

/-! ## Progress -/

/-- A bound for the statements that are left when no word is found taken. -/
def Bsp.left (cfg : Config) : Bsp → Nat
  | .apLoop l => (cfg.ttableMax + 2 - l.cpu) * 8 + 7
  | .apLock l => (cfg.ttableMax + 2 - l.cpu) * 8 + 6
  | .apSwitch l _ => (cfg.ttableMax + 2 - l.cpu) * 8 + 5
  | .apStore l _ => (cfg.ttableMax + 2 - l.cpu) * 8 + 4
  | .apWakeup l _ => (cfg.ttableMax + 2 - l.cpu) * 8 + 3
  | .apUnlock l _ => (cfg.ttableMax + 2 - l.cpu) * 8 + 2
  | .decLoad _ => 1
  | _ => 0

theorem switchToApReturn_out (l : ToAp) (rc : Bool) : (switchToApReturn l rc).inSwitchToAp = false := by
  rw [switchToApReturn]
  split <;> rfl

/-- Unless the word is taken, a statement of the call brings it closer to its end. -/
theorem Stage.progress (stage : Stage cfg caller tid crs ts s.tsHt s.bsp own)
    (free : ∀ i, cfg.present i = true → (s.released.ap i).status ≠ .busy) :
    ∃ t, bspStep cfg s = some t ∧ (t.bsp.inSwitchToAp = false ∨ t.bsp.left cfg < s.bsp.left cfg) := by
  generalize pc : s.bsp = b at stage
  generalize table : s.tsHt = ht at stage
  cases stage with
  | @loop vals n found bound noneFree =>
      simp only [bspStep, pc, ToAp.searching]
      by_cases past : cfg.ttableMax < n
      · rw [if_pos past]
        exact ⟨_, rfl, .inl (switchToApReturn_out _ _)⟩
      · rw [if_neg past]
        split
        · exact ⟨_, rfl, .inr (by simp only [Bsp.left]; omega)⟩
        · exact ⟨_, rfl, .inr (by simp only [Bsp.left]; omega)⟩
  | @lock vals n found present noneFree =>
      have word : (s.ap n).status ≠ .busy := by
        have released := free n present
        rwa [Sys.released_of_none (by rw [pc]; rfl)] at released
      simp only [bspStep, pc, bspLock, ToAp.searching, if_neg word]
      exact ⟨_, rfl, .inr (by simp only [Bsp.left]; omega)⟩
  | @switch vals n v found present noneFree taken =>
      simp only [bspStep, pc, ToAp.searching, table, found]
      split
      · split
        · exact ⟨_, rfl, .inr (by simp only [Bsp.left]; omega)⟩
        · exact ⟨_, rfl, .inr (by simp only [Bsp.left]; omega)⟩
      · exact ⟨_, rfl, .inr (by simp only [Bsp.left]; omega)⟩
  | @skip vals n v found present noneFree taken notFree =>
      simp only [bspStep, pc]
      exact ⟨_, rfl, .inr (by simp only [Bsp.left]; omega)⟩
  | @unlockSkipped vals n v found present noneFree taken notFree =>
      have bound := cfg.present_le n present
      simp only [bspStep, pc, bspUnlock, ToAp.searching]
      refine ⟨_, rfl, .inr ?_⟩
      simp only [Bool.false_eq_true, if_false, Bsp.left]
      omega
  | @store vals n v found present noneFree isFree =>
      simp only [bspStep, pc, ToAp.searching, table, found]
      exact ⟨_, rfl, .inr (by simp only [Bsp.left, handOff]; omega)⟩
  | @wakeup vals n v present noneFree isFree =>
      simp only [bspStep, pc]
      split
      · exact ⟨_, rfl, .inr (by simp only [Bsp.left]; omega)⟩
      · exact ⟨_, rfl, .inr (by simp only [Bsp.left]; omega)⟩
  | @unlock vals n v present noneFree isFree =>
      have bound := cfg.present_le n present
      simp only [bspStep, pc, bspUnlock, ToAp.handed, if_true]
      refine ⟨_, rfl, .inr ?_⟩
      simp only [Bsp.left]
      omega
  | @decLoad vals n v present noneFree isFree =>
      simp only [bspStep, pc]
      exact ⟨_, rfl, .inr Nat.one_pos⟩
  | @decStore vals n v cnt present noneFree isFree =>
      simp only [bspStep, pc]
      exact ⟨_, rfl, .inl (switchToApReturn_out _ _)⟩

/-- No visible step leaves a word taken. -/
theorem Own.Step.free {e : Own} (step : e.Step cfg tid crs s t) (free : ∀ i, (s.ap i).status = .busy → cfg.present i = false)
    (i : Nat) (busy : (t.ap i).status = .busy) : cfg.present i = false := by
  cases e with
  | examine j v =>
      obtain ⟨-, -, rfl⟩ := step
      exact free i busy
  | setLock lock =>
      cases step
      exact free i busy
  | give j =>
      obtain ⟨ts, -, rfl⟩ := step
      by_cases here : i = j
      · subst here
        simp [Sys.given] at busy
      · refine free i ?_
        simpa [Sys.given, Sys.setAp_ne _ _ _ here] using busy
  | wake j =>
      cases step
      refine free i ?_
      by_cases here : i = j
      · subst here
        simpa [Sys.woken] using busy
      · simpa [Sys.woken, Sys.setAp_ne _ _ _ here] using busy
  | load cnt =>
      obtain ⟨-, rfl⟩ := step
      exact free i busy
  | store cnt =>
      cases step
      exact free i busy

/-! ## Runs of the call -/

/-- The steps while the BSP executes the call. -/
def duringCall (s : Sys) (_ : Action) : Prop := s.bsp.inSwitchToAp = true

def Action.isOther : Action → Bool
  | .bsp => false
  | _ => true

/-- What is seen of a call that is interleaved with the other processors. -/
inductive Label where
  | other (a : Action)
  | own (e : Own)

def Label.action? : Label → Option Action
  | .other a => some a
  | .own _ => none

def Label.own? : Label → Option Own
  | .other _ => none
  | .own e => some e

/-- The visible steps, between states in which the words of the BSP are given back. -/
inductive Visible (cfg : Config) (tid : Dword) (crs : Crs) : Sys → Label → Sys → Prop where
  | other {a s t} : a.isOther = true → Step cfg s a t → Visible cfg tid crs s.released (.other a) t.released
  | own {e s t} : e.Step cfg tid crs s t → Visible cfg tid crs s (.own e) t

theorem Goes.out (goes : Goes cfg caller tid crs ts s own) (out : s.bsp.inSwitchToAp = false) :
    ∃ l rc, s.bsp = switchToApReturn l rc ∧ Ended cfg caller tid crs ts l rc own := by
  obtain stage | ended := goes
  · generalize s.bsp = b at stage out
    cases stage <;> cases out
  · exact ended

theorem Goes.stage (goes : Goes cfg caller tid crs ts s own) (inCall : s.bsp.inSwitchToAp = true) :
    Stage cfg caller tid crs ts s.tsHt s.bsp own := by
  obtain stage | ⟨l, rc, pc, -⟩ := goes
  · exact stage
  · rw [pc, switchToApReturn_out] at inCall
    cases inCall

/-- The other processors do not take part in the call. -/
theorem Step.other {a : Action} (step : Step cfg s a t) (inCall : s.bsp.inSwitchToAp = true)
    (other : a.isOther = true) : t.bsp = s.bsp ∧ t.tsHt = s.tsHt := by
  cases step.outcome with
  | call op t idle _ =>
      rw [idle] at inCall
      cases inCall
  | bsp t _ => cases other
  | ap i now msClock t _ h => cases h <;> exact ⟨rfl, rfl⟩
  | nmi i t _ h => cases h <;> exact ⟨rfl, rfl⟩
  | trap i trap u x tid _ _ => exact ⟨rfl, rfl⟩
  | compute x idle =>
      rw [idle] at inCall
      cases inCall
  | rebuildPd pageDir idle =>
      rw [idle] at inCall
      cases inCall

theorem Stage.inCall (stage : Stage cfg caller tid crs ts s.tsHt s.bsp own) : s.bsp.inSwitchToAp = true := by
  generalize s.bsp = b at stage
  cases stage <;> rfl

/-- What is seen of the actions `as`, and where the call is. -/
def Seen (cfg : Config) (caller : Caller) (tid : Dword) (crs : Crs) (ts : TsThread) (s₀ : Sys)
    (as : List Action) (s : Sys) : Prop :=
  ∃ trace, Run (Visible cfg tid crs) s₀.released trace s.released ∧
    trace.filterMap Label.action? = as.filter Action.isOther ∧
    Goes cfg caller tid crs ts s (trace.filterMap Label.own?)

theorem run_own {more : List Own} (run : Run (fun s e t => Own.Step cfg tid crs s e t) s more t) :
    Run (Visible cfg tid crs) s (more.map .own) t := by
  induction run with
  | nil => exact .nil _
  | cons head _ ih => exact .cons (.own head) ih

theorem Seen.step {s₀ : Sys} {as : List Action} {a : Action} (seen : Seen cfg caller tid crs ts s₀ as s)
    (step : restrict (Step cfg) duringCall s a t) : Seen cfg caller tid crs ts s₀ (as ++ [a]) t := by
  obtain ⟨trace, run, others, goes⟩ := seen
  obtain ⟨inCall, step⟩ := step
  cases other : a.isOther with
  | false =>
      cases a with
      | bsp =>
          obtain ⟨more, makes, goes⟩ := (goes.stage inCall).step step
          refine ⟨trace ++ more.map .own, run.append (run_own makes), ?_, ?_⟩
          · have none : (more.map Label.own).filterMap Label.action? = [] := by
              rw [List.filterMap_map, List.filterMap_eq_nil_iff]
              intro e _
              rfl
            rw [List.filterMap_append, none, List.append_nil, List.filter_append, others]
            exact (List.append_nil _).symm
          · have all : (more.map Label.own).filterMap Label.own? = more := by
              rw [List.filterMap_map]
              exact List.filterMap_some
            rwa [List.filterMap_append, all]
      | _ => cases other
  | true =>
      obtain ⟨pc, table⟩ := step.other inCall other
      refine ⟨trace ++ [.other a], run.append (.single (.other other step)), ?_, ?_⟩
      · rw [List.filterMap_append, List.filter_append, others, List.filter_cons_of_pos other]
        rfl
      · rw [List.filterMap_append]
        show Goes _ _ _ _ _ _ (_ ++ [])
        rw [List.append_nil, Goes, pc, table]
        exact goes

theorem Seen.run {s₀ : Sys} {as bs : List Action} (run : Run (restrict (Step cfg) duringCall) s bs t)
    (seen : Seen cfg caller tid crs ts s₀ as s) : Seen cfg caller tid crs ts s₀ (as ++ bs) t := by
  induction run generalizing as with
  | nil => rwa [List.append_nil]
  | cons head _ ih => simpa using ih (seen.step head)

/-! ## The call as a whole -/

/-- The state after a hand-off that nobody interrupts. -/
def Sys.handedOver (cfg : Config) (s : Sys) (tid : Dword) (crs : Crs) (ts : TsThread) (n : Nat) : Sys :=
  { s with
    ap := Function.update s.ap n { s.ap n with
      status := .loaded
      threadId := tid
      threadPtr := ts.addr
      fpuState := fpuSave cfg.xsaveFlags cfg.noSysFxsave false s.fpu (s.ap n).fpuState
      procState := crs
      pd := copyPd s.pageDir
      nmi := (s.ap n).nmi + if (s.ap n).status = .sleep then 1 else 0 }
    tsHt := s.tsHt.modify tid (TsThread.onAp n) (TsThread.onAp_tid n)
    mem := if ts.smpBspIdleLock ≠ 0 then Function.update s.mem ts.smpBspIdleLock 1 else s.mem
    apFreeCnt := s.apFreeCnt - 1 }

theorem run_examined {is : List Nat} {rest : List Own}
    (run : Run (fun s e t => Own.Step cfg tid crs s e t) s ((is.map fun i => .examine i (vals i)) ++ rest) t) :
    Run (fun s e t => Own.Step cfg tid crs s e t) s rest t ∧ ∀ i ∈ is, (s.ap i).status = vals i := by
  induction is with
  | nil => exact ⟨run, fun i member => absurd member List.not_mem_nil⟩
  | cons i is ih =>
      cases run with
      | cons head tail =>
          obtain ⟨here, -, rfl⟩ := head
          obtain ⟨rest, examined⟩ := ih tail
          refine ⟨rest, ?_⟩
          intro j member
          obtain rfl | later := List.mem_cons.mp member
          · exact here
          · exact examined j later

theorem run_passed {rest : List Own}
    (run : Run (fun s e t => Own.Step cfg tid crs s e t) s (passed cfg vals n ++ rest) t) :
    Run (fun s e t => Own.Step cfg tid crs s e t) s rest t ∧
      ∀ i < n, cfg.present i = true → (s.ap i).status = vals i := by
  obtain ⟨rest, examined⟩ := run_examined run
  refine ⟨rest, ?_⟩
  intro i below present
  exact examined i (List.mem_filter.mpr ⟨List.mem_range.mpr below, present⟩)

theorem run_taken {rest : List Own}
    (run : Run (fun s e t => Own.Step cfg tid crs s e t) s (taking ts n v ++ rest) t) :
    (s.ap n).status = v ∧ Run (fun s e t => Own.Step cfg tid crs s e t)
      { s with mem := if ts.smpBspIdleLock ≠ 0 then Function.update s.mem ts.smpBspIdleLock 1 else s.mem } rest t := by
  cases run with
  | cons head tail =>
      obtain ⟨here, -, rfl⟩ := head
      refine ⟨here, ?_⟩
      by_cases locks : ts.smpBspIdleLock ≠ 0
      · rw [if_pos locks] at tail ⊢
        cases tail with
        | cons set rest =>
            cases set
            exact rest
      · rw [if_neg locks] at tail ⊢
        exact tail

theorem run_woken {rest : List Own}
    (run : Run (fun s e t => Own.Step cfg tid crs s e t) s (waking n v ++ rest) t) :
    Run (fun s e t => Own.Step cfg tid crs s e t) (if v = .sleep then s.woken n else s) rest t := by
  by_cases sleeping : v = .sleep
  · rw [waking, if_pos sleeping] at run
    rw [if_pos sleeping]
    cases run with
    | cons wake rest =>
        cases wake
        exact rest
  · rw [waking, if_neg sleeping] at run
    rwa [if_neg sleeping]

theorem run_counted {cnt : Dword}
    (run : Run (fun s e t => Own.Step cfg tid crs s e t) s [.load cnt, .store cnt] t) :
    t = { s with apFreeCnt := s.apFreeCnt - 1 } := by
  cases run with
  | cons load rest =>
      obtain ⟨rfl, rfl⟩ := load
      cases rest with
      | cons store rest =>
          cases store
          cases rest
          rfl

/-- The stores of a hand-off in one. -/
theorem run_handed {cnt : Dword} (found : s.tsHt.get tid = some ts)
    (run : Run (fun s e t => Own.Step cfg tid crs s e t) s
      (taking ts n v ++ .give n :: (waking n v ++ [.load cnt, .store cnt])) t) :
    (s.ap n).status = v ∧ t = s.handedOver cfg tid crs ts n := by
  obtain ⟨here, run⟩ := run_taken run
  refine ⟨here, ?_⟩
  cases run with
  | cons give rest =>
      obtain ⟨ts', found', rfl⟩ := give
      cases found.symm.trans found'
      rw [run_counted (run_woken rest), Sys.handedOver, here]
      by_cases sleeping : v = .sleep
      · simp [sleeping, Sys.woken, Sys.given, Sys.setAp]
      · simp [sleeping, Sys.given, Sys.setAp]

theorem own_of_visible {trace : List Label} (run : Run (Visible cfg tid crs) s trace t)
    (alone : trace.filterMap Label.action? = []) :
    Run (fun s e t => Own.Step cfg tid crs s e t) s (trace.filterMap Label.own?) t := by
  induction run with
  | nil => exact .nil _
  | cons head _ ih =>
      cases head with
      | other _ _ => cases alone
      | own step => exact .cons step (ih alone)

theorem switchToAp_handable (ready : s.handable tid ts) :
    switchToAp s caller crs tid = .apLoop (.searching caller tid crs 0) := by
  simp only [switchToAp, ready.1]
  exact if_pos ready.2

theorem switchToAp_refused (refused : ∀ ts, ¬ s.handable tid ts) :
    switchToAp s caller crs tid = switchToApReturn (.searching caller tid crs 0) false := by
  rw [switchToAp]
  split
  · rename_i ts found
    exact if_neg fun ready => refused ts ⟨found, ready⟩
  · rfl

/-- A call from its entry in `s` to its return in `t`, with the actions `as` in between. -/
structure Called (cfg : Config) (caller : Caller) (tid : Dword) (crs : Crs) (s : Sys) (as : List Action) (t : Sys)
    (l : ToAp) (rc : Bool) : Prop where
  returned : t.bsp = switchToApReturn l rc
  /-- What the call does itself is to hand the thread over to one AP, or nothing. -/
  seen : ∃ trace, Run (Visible cfg tid crs) s.released trace t.released ∧
    trace.filterMap Label.action? = as.filter Action.isOther ∧
    HandOff cfg caller tid crs s l rc (trace.filterMap Label.own?)
  /-- A failed call leaves the client registers as they are, and `fly` ends with it. -/
  failed : rc = false → l.crs = crs ∧
    (caller = .int3 → t.bsp = .restoreClient crs false ∧ Step cfg t .bsp t.released)
  /-- When no other processor acts, nothing has changed then. -/
  unchanged : rc = false → as.filter Action.isOther = [] → t.released = s.released ∧
    ∀ ts, s.handable tid ts → ∀ i, cfg.present i = true → (s.ap i).status.free = false
  /-- A call that nobody interrupts succeeds at the first AP that is free. -/
  handed : rc = true → as.filter Action.isOther = [] → ∃ ts n, s.handable tid ts ∧
    cfg.present n = true ∧ (s.ap n).status.free = true ∧
    (∀ i < n, cfg.present i = true → (s.ap i).status.free = false) ∧
    l.crs = { crs with
      clientEsp := cfg.stack n + stackOffPlaceholder
      clientEcx := ts.smpBspIdleProc
      clientEax := ts.smpBspIdleLock
      clientEip := cfg.kernelFlat + smpOffsetTrampoline } ∧
    t.released = s.released.handedOver cfg tid crs ts n

theorem released_ap (entry : s.bsp = switchToAp s caller crs tid) : s.released.ap = s.ap := by
  have free : s.bsp.lock = none := by
    rw [entry, switchToAp]
    split
    · split
      · rfl
      · exact switchToApReturn_lock _ _
    · exact switchToApReturn_lock _ _
  rw [Sys.released_of_none free]

theorem released_tsHt : s.released.tsHt = s.tsHt := by
  rw [Sys.released]
  split <;> rfl

theorem fly_returns {l : ToAp} (pc : t.bsp = switchToApReturn l false) (int3 : l.caller = .int3) :
    t.bsp = .restoreClient l.crs false ∧ Step cfg t .bsp t.released := by
  have here : t.bsp = .restoreClient l.crs false := by rw [pc, switchToApReturn, int3]
  refine ⟨here, ?_⟩
  show bspStep cfg t = some t.released
  rw [Sys.released_of_none (by rw [here]; rfl), bspStep, here]

theorem called_refused (refused : ∀ ts, ¬ s.handable tid ts) (pc : s.bsp = switchToApReturn (.searching caller tid crs 0) false) :
    Called cfg caller tid crs s [] s (.searching caller tid crs 0) false where
  returned := pc
  seen := ⟨[], .nil _, rfl, .refused refused⟩
  failed _ := ⟨rfl, fun int3 => fly_returns pc int3⟩
  unchanged _ _ := ⟨rfl, fun ts ready => absurd ready (refused ts)⟩
  handed rc := by cases rc

theorem called_noneFree {as : List Action} {trace : List Label} (ready : s.handable tid ts)
    (entry : s.bsp = switchToAp s caller crs tid)
    (run : Run (Visible cfg tid crs) s.released trace t.released)
    (others : trace.filterMap Label.action? = as.filter Action.isOther)
    (own : trace.filterMap Label.own? = passed cfg vals (cfg.ttableMax + 1))
    (noneFree : NoneFree cfg vals (cfg.ttableMax + 1))
    (pc : t.bsp = switchToApReturn (.searching caller tid crs (cfg.ttableMax + 1)) false) :
    Called cfg caller tid crs s as t (.searching caller tid crs (cfg.ttableMax + 1)) false where
  returned := pc
  seen := ⟨trace, run, others, by rw [own]; exact .ended ready (.noneFree noneFree)⟩
  failed _ := ⟨rfl, fun int3 => fly_returns pc int3⟩
  unchanged _ alone := by
    have steps := own_of_visible run (others.trans alone)
    rw [own, ← List.append_nil (passed cfg vals _)] at steps
    obtain ⟨rest, examined⟩ := run_passed steps
    refine ⟨rest.eq_of_nil, ?_⟩
    intro ts _ i present
    have below := Nat.lt_succ_of_le (cfg.present_le i present)
    rw [← released_ap entry, examined i below present]
    exact noneFree i below present
  handed rc := by cases rc

theorem called_handedOff {as : List Action} {trace : List Label} {cnt : Dword} (ready : s.handable tid ts)
    (entry : s.bsp = switchToAp s caller crs tid)
    (run : Run (Visible cfg tid crs) s.released trace t.released)
    (others : trace.filterMap Label.action? = as.filter Action.isOther)
    (own : trace.filterMap Label.own? =
      passed cfg vals n ++ taking ts n v ++ [.give n] ++ waking n v ++ [.load cnt, .store cnt])
    (present : cfg.present n = true) (noneFree : NoneFree cfg vals n) (free : v.free = true)
    (pc : t.bsp = switchToApReturn (.handed cfg caller tid crs ts n v) true) :
    Called cfg caller tid crs s as t (.handed cfg caller tid crs ts n v) true where
  returned := pc
  seen := ⟨trace, run, others, by rw [own]; exact .ended ready (.handedOff present noneFree free)⟩
  failed rc := by cases rc
  unchanged rc := by cases rc
  handed _ alone := by
    have steps := own_of_visible run (others.trans alone)
    simp only [own, List.append_assoc] at steps
    obtain ⟨rest, examined⟩ := run_passed steps
    obtain ⟨here, final⟩ := run_handed (by rw [released_tsHt]; exact ready.1) rest
    rw [released_ap entry] at here examined
    refine ⟨ts, n, ready, present, by rw [here]; exact free, ?_, rfl, final⟩
    intro i below present
    rw [examined i below present]
    exact noneFree i below present

/-- Unless a word stays taken, the call returns. -/
theorem Stage.returns (stage : Stage cfg caller tid crs ts s.tsHt s.bsp own)
    (free : ∀ i, cfg.present i = true → (s.released.ap i).status ≠ .busy) :
    ∃ k u, Run (restrict (Step cfg) duringCall) s (List.replicate k .bsp) u ∧ u.bsp.inSwitchToAp = false := by
  let P : Sys → Prop := fun s => (∃ own, Stage cfg caller tid crs ts s.tsHt s.bsp own) ∧
    ∀ i, cfg.present i = true → (s.released.ap i).status ≠ .busy
  refine exists_run_replicate (P := P) (fun s => s.bsp.left cfg) ?_ ⟨⟨own, stage⟩, free⟩
  rintro s ⟨⟨own, stage⟩, free⟩
  obtain ⟨t, step, less⟩ := stage.progress free
  obtain ⟨more, makes, goes⟩ := stage.step step
  refine ⟨t, ⟨stage.inCall, step⟩, ?_⟩
  cases inCall : t.bsp.inSwitchToAp with
  | false => exact .inl rfl
  | true =>
      have closer := less.resolve_left (by rw [inCall]; rintro ⟨⟩)
      refine .inr ⟨⟨⟨_, goes.stage inCall⟩, ?_⟩, closer⟩
      have kept := Run.invariant (P := fun s => ∀ i, (s.ap i).status = .busy → cfg.present i = false) makes
        (fun _ _ _ held step => step.free held) fun i busy => by
          by_contra present
          exact free i (Bool.eq_true_of_not_eq_false present) busy
      intro i present busy
      rw [kept i busy] at present
      cases present

/-- `switch_to_ap` is all or nothing: however the other processors act meanwhile, it hands
the thread over to the first AP that it finds free or leaves everything alone, and it
returns unless a word stays taken. -/
theorem switch_to_ap_all_or_nothing (cfg : Config) {s : Sys} {caller : Caller} {crs : Crs} {tid : Dword}
    (entry : s.bsp = switchToAp s caller crs tid) :
    (∀ as t, Run (restrict (Step cfg) duringCall) s as t → t.bsp.inSwitchToAp = false →
      ∃ l rc, Called cfg caller tid crs s as t l rc) ∧
    ∀ as t, Run (restrict (Step cfg) duringCall) s as t →
      (∀ i, cfg.present i = true → (t.released.ap i).status ≠ .busy) →
      ∃ k u, Run (restrict (Step cfg) duringCall) t (List.replicate k .bsp) u ∧ u.bsp.inSwitchToAp = false := by
  by_cases eligible : ∃ ts, s.handable tid ts
  · obtain ⟨ts, ready⟩ := eligible
    have start : Seen cfg caller tid crs ts s [] s := by
      refine ⟨[], .nil _, rfl, .inl ?_⟩
      rw [entry, switchToAp_handable ready]
      have none : NoneFree cfg (fun _ => .busy) 0 := fun i below => absurd below (Nat.not_lt_zero i)
      exact .loop ready.1 (Nat.zero_le _) none
    refine ⟨?_, ?_⟩
    · intro as t run out
      obtain ⟨trace, seen, others, goes⟩ := start.run run
      obtain ⟨l, rc, pc, ended⟩ := goes.out out
      generalize own : trace.filterMap Label.own? = made at ended
      cases ended with
      | noneFree noneFree => exact ⟨_, _, called_noneFree ready entry seen others own noneFree pc⟩
      | handedOff present noneFree free =>
          exact ⟨_, _, called_handedOff ready entry seen others own present noneFree free pc⟩
    · intro as t run free
      obtain ⟨trace, -, -, goes⟩ := start.run run
      cases inCall : t.bsp.inSwitchToAp with
      | false => exact ⟨0, t, .nil t, inCall⟩
      | true => exact (goes.stage inCall).returns free
  · have refused : ∀ ts, ¬ s.handable tid ts := fun ts ready => eligible ⟨ts, ready⟩
    have pc := entry.trans (switchToAp_refused refused)
    have out : s.bsp.inSwitchToAp = false := by rw [pc, switchToApReturn_out]
    -- the call has returned at once, and no action belongs to it
    have ended : ∀ as t, Run (restrict (Step cfg) duringCall) s as t → as = [] ∧ t = s := by
      intro as t run
      cases run with
      | nil => exact ⟨rfl, rfl⟩
      | cons head _ => exact absurd head.1 (by rw [duringCall, out]; decide)
    refine ⟨?_, ?_⟩
    · intro as t run _
      obtain ⟨rfl, rfl⟩ := ended as t run
      exact ⟨_, _, called_refused refused pc⟩
    · intro as t run _
      obtain ⟨rfl, rfl⟩ := ended as t run
      exact ⟨0, t, .nil t, out⟩

/-- `fly` of thread 5, with AP 1 ready. -/
theorem switch_to_ap_all_or_nothing_fly : ∃ s t,
    s.bsp = switchToAp s .int3 .zero 5 ∧
    Run (restrict (Step oneAp) duringCall) s (List.replicate 9 .bsp) t ∧ (t.ap 1).threadId = 5 ∧
    ∃ l rc, Called oneAp .int3 5 .zero s (List.replicate 9 .bsp) t l rc := by
  have computed : (exec (step oneAp) (initialised oneAp) (elevation 5 0x500 0x9000 2)).any (fun s =>
      (exec (guard (step oneAp) fun s _ => s.bsp.inSwitchToAp) { s with bsp := switchToAp s .int3 .zero 5 }
        (List.replicate 9 .bsp)).any fun t => !t.bsp.inSwitchToAp && (t.ap 1).threadId = 5) = true := by
    decide +kernel
  obtain ⟨s, -, computed⟩ := exists_run computed
  obtain ⟨t, run, checked⟩ := exists_run_restrict computed
  rw [Bool.and_eq_true, Bool.not_eq_true', decide_eq_true_eq] at checked
  have called := (switch_to_ap_all_or_nothing oneAp rfl).1 _ t run checked.1
  exact ⟨_, t, rfl, run, checked.2, called⟩

end Step

end SmpVxd
