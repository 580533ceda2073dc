import SmpVxd.Client.ThreadInfo

/-!
# The device handle of the client library

`smp9x_init` opens the driver and asks it whether it can be used. `smp9x_stats` and
`smp9x_thread_elevate` send requests on the handle later on, and `smp9x_close` gives it
back. Two variables tell whether there is a handle, `smp_vxd` and `smp9x_address`, and
the system answers every call as it likes.
-/

namespace SmpVxd.Device

open ThreadInfo (invalidHandleValue)

def diocSmpCpuCount : Dword := 2
def diocSmpGetAddress : Dword := 3
def diocSmpElevate : Dword := 4
def diocSmpCpuFeatures : Dword := 5
def diocSmpCpuStats : Dword := 6
def diocSmpCpuBspid : Dword := 7

def smpStatCpu : Dword := 0

/-- A call of the system that concerns a handle, or the return of `smp9x_stats`. -/
inductive Event where
  | opened (h : Dword)
  | request (h code : Dword) (input : List Dword)
  | closed (h : Dword)
  | returned (rc : Bool)
  deriving DecidableEq

/-- The variables of the library, with a log of the events, newest first. -/
structure Lib where
  smpVxd : Dword
  smp9xAddress : Dword
  cpuCount : Dword
  cpuFeatures : Dword
  bspid : Dword
  log : List Event

/-- What the system answers during `smp9x_init`: the handle, and for each request the
value that it stores, if it succeeds. -/
structure Answers where
  createFile : Dword
  cpuCount : Option Dword
  address : Option Dword
  bspid : Option Dword
  features : Option Dword

namespace Lib

def initial : Lib := ⟨invalidHandleValue, 0, 0, 0, 0, []⟩

variable (s : Lib)

def emit (e : Event) : Lib := { s with log := e :: s.log }

/-- `DeviceIoControl` on `smp_vxd`. -/
def deviceIoControl (code : Dword) (input : List Dword) : Lib :=
  s.emit (.request s.smpVxd code input)

/-- `CloseHandle(smp_vxd)` -/
def closeHandle : Lib := s.emit (.closed s.smpVxd)

end Lib

/-- The inner tests of `smp9x_init`; the flag is `smp_usable`. -/
def probeAddress (w : Answers) (s : Lib) : Lib × Bool :=
  let s := s.deviceIoControl diocSmpGetAddress []
  match w.address with
  | none => (s, false)
  | some a =>
      let s := { s with smp9xAddress := a }
      if a ≠ 0 then
        let s := s.deviceIoControl diocSmpCpuBspid []
        ({ s with bspid := w.bspid.getD s.bspid }, true)
      else (s, false)

/-- The nested tests of `smp9x_init`. -/
def probe (w : Answers) (s : Lib) : Lib × Bool :=
  let s := s.deviceIoControl diocSmpCpuCount []
  match w.cpuCount with
  | none => (s, false)
  | some n =>
      let s := { s with cpuCount := n }
      if 2 ≤ n then probeAddress w s else (s, false)

def smp9xInit (w : Answers) (s : Lib) : Lib :=
  let s := { s with smpVxd := w.createFile }
  if s.smpVxd ≠ invalidHandleValue then
    let (s, usable) := probe w (s.emit (.opened s.smpVxd))
    let s := s.deviceIoControl diocSmpCpuFeatures []
    let s := { s with cpuFeatures := w.features.getD s.cpuFeatures }
    if usable then s
    else
      -- the handle stays in `smp_vxd`
      Lib.closeHandle { s with smp9xAddress := 0 }
  else s

def smp9xClose (s : Lib) : Lib :=
  let s := { s with smp9xAddress := 0 }
  if s.smpVxd ≠ invalidHandleValue then { s.closeHandle with smpVxd := invalidHandleValue } else s

/-- `isBsp` is what `is_bsp` returns, `idleProc` the address of `smp9x_thread_idle_proc`. -/
def smp9xThreadElevate (idleProc : Dword) (isBsp : Bool) (lockPtr mode : Dword) (s : Lib) : Lib :=
  if s.smp9xAddress ≠ 0 then
    if isBsp then s.deviceIoControl diocSmpElevate [idleProc, lockPtr, mode] else s
  else s

/-- Returns what `smp9x_stats` returns and stores to `*ret`; `ret` tells whether the
pointer is not null, and `answer` is the value that a successful request stores. -/
def smp9xStats (type unit : Dword) (ret : Bool) (answer : Option Dword) (s : Lib) :
    Lib × Bool × Option Dword :=
  if s.smpVxd = invalidHandleValue then (s.emit (.returned false), false, none)
  else
    let (s, rc, result) :=
      if type = smpStatCpu then
        (s.deviceIoControl diocSmpCpuStats [unit], answer.isSome, answer.getD 0)
      else (s, false, 0)
    (s.emit (.returned rc), rc, if rc && ret then some result else none)

/-- A call after `smp9x_init`, with what the system answers. -/
inductive Call where
  | stats (type unit : Dword) (ret : Bool) (answer : Option Dword)
  | threadElevate (isBsp : Bool) (lockPtr mode : Dword)
  | close

def Call.exec (idleProc : Dword) (s : Lib) : Call → Lib
  | stats type unit ret answer => (smp9xStats type unit ret answer s).1
  | threadElevate isBsp lockPtr mode => smp9xThreadElevate idleProc isBsp lockPtr mode s
  | close => smp9xClose s

/-- `smp9x_init`, followed by calls. -/
def session (idleProc : Dword) (w : Answers) (calls : List Call) : Lib :=
  calls.foldl (Call.exec idleProc) (smp9xInit w .initial)

/-! ## The discipline -/

/-- Every handle that was obtained is closed. -/
def NoHandle (past : List Event) : Prop := ∀ h, .opened h ∈ past → .closed h ∈ past

/-- What an event must obey after the events of the past. -/
def Event.Proper (past : List Event) : Event → Prop
  | opened _ => True
  | request h _ _ => h ≠ invalidHandleValue ∧ .closed h ∉ past
  | closed h => .closed h ∉ past
  | returned rc => NoHandle past → rc = false

def Disciplined : List Event → Prop
  | [] => True
  | e :: past => e.Proper past ∧ Disciplined past

/-- The driver has at least two CPUs and a kernel. -/
def Answers.usable (w : Answers) : Bool :=
  w.cpuCount.any (2 ≤ ·) && w.address.any (· ≠ 0)

/-- The call uses a handle that is not `INVALID_HANDLE_VALUE`. -/
def Call.usesHandle : Call → Bool
  | stats type _ _ _ => type = smpStatCpu
  | threadElevate .. => false
  | close => true

variable {idleProc : Dword} {w : Answers} {s t u : Lib} {log past : List Event} {c : Call}
variable {calls : List Call}

theorem Disciplined.of_append (h : Disciplined (log ++ past)) : Disciplined past := by
  induction log with
  | nil => exact h
  | cons e rest ih => exact ih h.2

/-! ## Requests -/

/-- Between the two states only requests are sent, on the handle that is in `smp_vxd`. -/
structure Asks (s t : Lib) : Prop where
  smpVxd : t.smpVxd = s.smpVxd
  log : ∃ requests, t.log = requests ++ s.log ∧
    ∀ e ∈ requests, ∃ code input, e = .request s.smpVxd code input

namespace Asks

theorem refl (s : Lib) : Asks s s := ⟨rfl, [], rfl, fun _ mem => absurd mem List.not_mem_nil⟩

/-- The other variables do not matter. -/
theorem set (h : Asks s t) (smpVxd : u.smpVxd = t.smpVxd) (log : u.log = t.log) : Asks s u := by
  obtain ⟨same, requests, log', sent⟩ := h
  exact ⟨smpVxd.trans same, requests, log.trans log', sent⟩

theorem deviceIoControl (h : Asks s t) (code : Dword) (input : List Dword) :
    Asks s (t.deviceIoControl code input) := by
  obtain ⟨same, requests, log, sent⟩ := h
  refine ⟨same, .request t.smpVxd code input :: requests, congrArg _ log, ?_⟩
  refine List.forall_mem_cons.mpr ⟨⟨code, input, ?_⟩, sent⟩
  rw [same]

theorem trans (first : Asks s t) (second : Asks t u) : Asks s u := by
  obtain ⟨same, as, log, sent⟩ := first
  obtain ⟨same', bs, log', sent'⟩ := second
  refine ⟨same'.trans same, bs ++ as, by rw [log', log, List.append_assoc], fun e mem => ?_⟩
  obtain late | early := List.mem_append.mp mem
  · rw [← same]
    exact sent' e late
  · exact sent e early

theorem closed_iff (h : Asks s t) (handle : Dword) : .closed handle ∈ t.log ↔ .closed handle ∈ s.log := by
  obtain ⟨-, requests, log, sent⟩ := h
  rw [log, List.mem_append]
  refine or_iff_right fun mem => ?_
  obtain ⟨code, input, same⟩ := sent _ mem
  cases same

theorem opened (h : Asks s t) {handle : Dword} (before : .opened handle ∈ s.log) :
    .opened handle ∈ t.log := by
  obtain ⟨-, requests, log, -⟩ := h
  rw [log]
  exact List.mem_append_right _ before

/-- On a handle that is open, requests are in order. -/
theorem disciplined (h : Asks s t) (valid : s.smpVxd ≠ invalidHandleValue)
    (alive : .closed s.smpVxd ∉ s.log) (before : Disciplined s.log) : Disciplined t.log := by
  obtain ⟨-, requests, log, sent⟩ := h
  rw [log]
  clear log
  induction requests with
  | nil => exact before
  | cons e rest ih =>
      have later := ih fun e mem => sent e (List.mem_cons_of_mem _ mem)
      obtain ⟨code, input, rfl⟩ := sent e List.mem_cons_self
      refine ⟨⟨valid, fun mem => ?_⟩, later⟩
      obtain new | old := List.mem_append.mp mem
      · obtain ⟨code, input, same⟩ := sent _ (List.mem_cons_of_mem _ new)
        cases same
      · exact alive old

end Asks

/-! ## smp9x_init -/

theorem probeAddress_asks (w : Answers) (s : Lib) : Asks s (probeAddress w s).1 := by
  have address := (Asks.refl s).deviceIoControl diocSmpGetAddress []
  unfold probeAddress
  cases w.address with
  | none => exact address
  | some a =>
      have known : Asks s { s.deviceIoControl diocSmpGetAddress [] with smp9xAddress := a } :=
        address.set rfl rfl
      dsimp only
      split
      · exact (known.deviceIoControl diocSmpCpuBspid []).set rfl rfl
      · exact known

theorem probeAddress_usable (w : Answers) (s : Lib) :
    (probeAddress w s).2 = w.address.any (· ≠ 0) ∧
      ((probeAddress w s).2 = true → (probeAddress w s).1.smp9xAddress ≠ 0) := by
  unfold probeAddress
  cases w.address with
  | none => exact ⟨rfl, fun usable => absurd usable Bool.false_ne_true⟩
  | some a =>
      dsimp only
      split
      · rename_i nonzero
        exact ⟨(decide_eq_true nonzero).symm, fun _ => nonzero⟩
      · rename_i zero
        exact ⟨(decide_eq_false zero).symm, fun usable => absurd usable Bool.false_ne_true⟩

theorem probe_asks (w : Answers) (s : Lib) : Asks s (probe w s).1 := by
  have count := (Asks.refl s).deviceIoControl diocSmpCpuCount []
  unfold probe
  cases w.cpuCount with
  | none => exact count
  | some n =>
      have known : Asks s { s.deviceIoControl diocSmpCpuCount [] with cpuCount := n } :=
        count.set rfl rfl
      dsimp only
      split
      · exact known.trans (probeAddress_asks w _)
      · exact known

theorem probe_usable (w : Answers) (s : Lib) : (probe w s).2 = w.usable ∧
    ((probe w s).2 = true → (probe w s).1.smp9xAddress ≠ 0) := by
  unfold probe Answers.usable
  cases w.cpuCount with
  | none => exact ⟨rfl, fun usable => absurd usable Bool.false_ne_true⟩
  | some n =>
      dsimp only
      split
      · rename_i enough
        rw [Option.any_some, decide_eq_true enough, Bool.true_and]
        exact probeAddress_usable w _
      · rename_i few
        rw [Option.any_some, decide_eq_false few, Bool.false_and]
        exact ⟨rfl, fun usable => absurd usable Bool.false_ne_true⟩

/-- As long as the driver can be used, the two variables tell the truth. -/
structure Tidy (s : Lib) : Prop where
  log : Disciplined s.log
  handle : s.smpVxd ≠ invalidHandleValue → .opened s.smpVxd ∈ s.log ∧ .closed s.smpVxd ∉ s.log
  address : s.smp9xAddress ≠ 0 → s.smpVxd ≠ invalidHandleValue

/-- The handle is closed and still in `smp_vxd`. -/
structure Stale (s : Lib) : Prop where
  log : Disciplined s.log
  valid : s.smpVxd ≠ invalidHandleValue
  closed : .closed s.smpVxd ∈ s.log
  address : s.smp9xAddress = 0

/-- The state after `CreateFileA`. -/
def opening (w : Answers) : Lib := ⟨w.createFile, 0, 0, 0, 0, [.opened w.createFile]⟩

/-- What `smp9x_init` does with a handle. -/
theorem smp9xInit_asks (valid : w.createFile ≠ invalidHandleValue) :
    ∃ t, Asks (opening w) t ∧ (w.usable = true → t.smp9xAddress ≠ 0) ∧
      smp9xInit w .initial =
        if w.usable then t else Lib.closeHandle { t with smp9xAddress := 0 } := by
  obtain ⟨usable, address⟩ := probe_usable w (opening w)
  have asks := (probe_asks w (opening w)).deviceIoControl diocSmpCpuFeatures []
  refine ⟨{ (probe w (opening w)).1.deviceIoControl diocSmpCpuFeatures [] with
    cpuFeatures := w.features.getD (probe w (opening w)).1.cpuFeatures }, asks.set rfl rfl, ?_, ?_⟩
  · rw [← usable]
    exact address
  · rw [← usable, smp9xInit]
    exact if_pos valid

theorem smp9xInit_tidy (good : w.createFile = invalidHandleValue ∨ w.usable = true) :
    Tidy (smp9xInit w .initial) := by
  by_cases invalid : w.createFile = invalidHandleValue
  · unfold smp9xInit
    rw [if_neg (not_not.mpr invalid)]
    exact ⟨trivial, fun valid => absurd invalid valid, fun address => absurd rfl address⟩
  · have usable := good.resolve_left invalid
    obtain ⟨t, asks, address, same⟩ := smp9xInit_asks invalid
    rw [if_pos usable] at same
    rw [same]
    have alive : .closed w.createFile ∉ [Event.opened w.createFile] := by simp
    refine ⟨asks.disciplined invalid alive ⟨trivial, trivial⟩, fun _ => ?_, fun _ => ?_⟩
    · rw [asks.smpVxd, asks.closed_iff]
      exact ⟨asks.opened List.mem_cons_self, alive⟩
    · rw [asks.smpVxd]
      exact invalid

theorem smp9xInit_stale (valid : w.createFile ≠ invalidHandleValue) (unusable : w.usable = false) :
    Stale (smp9xInit w .initial) := by
  obtain ⟨t, asks, -, same⟩ := smp9xInit_asks valid
  rw [unusable, if_neg Bool.false_ne_true] at same
  rw [same]
  have alive : .closed w.createFile ∉ [Event.opened w.createFile] := by simp
  have now : .closed t.smpVxd ∉ t.log := by
    rw [asks.smpVxd, asks.closed_iff]
    exact alive
  refine ⟨⟨now, asks.disciplined valid alive ⟨trivial, trivial⟩⟩, ?_, List.mem_cons_self, rfl⟩
  exact fun same => valid (asks.smpVxd.symm.trans same)

/-! ## The calls after it -/

/-- What a call does. -/
inductive CallStep (idleProc : Dword) (s : Lib) : Call → Lib → Prop where
  | unavailable (type unit : Dword) (ret : Bool) (answer : Option Dword) :
      s.smpVxd = invalidHandleValue →
      CallStep idleProc s (.stats type unit ret answer) (s.emit (.returned false))
  | stats (unit : Dword) (ret : Bool) (answer : Option Dword) : s.smpVxd ≠ invalidHandleValue →
      CallStep idleProc s (.stats smpStatCpu unit ret answer)
        ((s.deviceIoControl diocSmpCpuStats [unit]).emit (.returned answer.isSome))
  | otherStats (type unit : Dword) (ret : Bool) (answer : Option Dword) :
      s.smpVxd ≠ invalidHandleValue → type ≠ smpStatCpu →
      CallStep idleProc s (.stats type unit ret answer) (s.emit (.returned false))
  | elevate (lockPtr mode : Dword) : s.smp9xAddress ≠ 0 →
      CallStep idleProc s (.threadElevate true lockPtr mode)
        (s.deviceIoControl diocSmpElevate [idleProc, lockPtr, mode])
  | stay (isBsp : Bool) (lockPtr mode : Dword) : (s.smp9xAddress ≠ 0 → isBsp = false) →
      CallStep idleProc s (.threadElevate isBsp lockPtr mode) s
  | close : s.smpVxd ≠ invalidHandleValue → CallStep idleProc s .close
      { s.closeHandle with smp9xAddress := 0, smpVxd := invalidHandleValue }
  | notOpen : s.smpVxd = invalidHandleValue → CallStep idleProc s .close { s with smp9xAddress := 0 }

theorem call_step (idleProc : Dword) (s : Lib) (c : Call) :
    CallStep idleProc s c (c.exec idleProc s) := by
  cases c with
  | stats type unit ret answer =>
      rw [Call.exec, smp9xStats]
      by_cases valid : s.smpVxd = invalidHandleValue
      · rw [if_pos valid]
        exact .unavailable type unit ret answer valid
      · by_cases cpu : type = smpStatCpu
        · subst cpu
          rw [if_neg valid, if_pos rfl]
          exact .stats unit ret answer valid
        · rw [if_neg valid, if_neg cpu]
          exact .otherStats type unit ret answer valid cpu
  | threadElevate isBsp lockPtr mode =>
      rw [Call.exec, smp9xThreadElevate]
      by_cases address : s.smp9xAddress ≠ 0
      · rw [if_pos address]
        cases isBsp with
        | true => exact .elevate lockPtr mode address
        | false => exact .stay false lockPtr mode fun _ => rfl
      · rw [if_neg address]
        exact .stay isBsp lockPtr mode fun nonzero => absurd nonzero address
  | close =>
      rw [Call.exec, smp9xClose]
      by_cases valid : s.smpVxd ≠ invalidHandleValue
      · rw [if_pos valid]
        exact .close valid
      · rw [if_neg valid]
        exact .notOpen (not_not.mp valid)

theorem Tidy.request (h : Tidy s) (valid : s.smpVxd ≠ invalidHandleValue) (code : Dword)
    (input : List Dword) : Tidy (s.deviceIoControl code input) := by
  obtain ⟨opened, alive⟩ := h.handle valid
  have asks := (Asks.refl s).deviceIoControl code input
  refine ⟨asks.disciplined valid alive h.log, fun _ => ?_, h.address⟩
  exact ⟨asks.opened opened, mt (asks.closed_iff _).mp alive⟩

/-- Without a handle `smp9x_stats` returns `FALSE`. -/
theorem Tidy.returned {rc : Bool} (h : Tidy s)
    (right : s.smpVxd = invalidHandleValue → rc = false) : Tidy (s.emit (.returned rc)) := by
  refine ⟨⟨fun none => ?_, h.log⟩, fun valid => ?_, h.address⟩
  · by_cases invalid : s.smpVxd = invalidHandleValue
    · exact right invalid
    · obtain ⟨opened, alive⟩ := h.handle invalid
      exact absurd (none _ opened) alive
  · obtain ⟨opened, alive⟩ := h.handle valid
    refine ⟨List.mem_cons_of_mem _ opened, fun mem => alive ?_⟩
    simpa [Lib.emit] using mem

theorem Tidy.step (h : Tidy s) (step : CallStep idleProc s c t) : Tidy t := by
  cases step with
  | unavailable type unit ret answer invalid => exact h.returned fun _ => rfl
  | stats unit ret answer valid =>
      exact (h.request valid _ _).returned fun invalid => absurd invalid valid
  | otherStats type unit ret answer valid other => exact h.returned fun _ => rfl
  | elevate lockPtr mode address => exact h.request (h.address address) _ _
  | stay isBsp lockPtr mode _ => exact h
  | close valid =>
      obtain ⟨-, alive⟩ := h.handle valid
      exact ⟨⟨alive, h.log⟩, fun valid => absurd rfl valid, fun address => absurd rfl address⟩
  | notOpen invalid => exact ⟨h.log, h.handle, fun address => absurd rfl address⟩

theorem Stale.step (h : Stale s) (unused : c.usesHandle = false) (step : CallStep idleProc s c t) :
    Stale t := by
  cases step with
  | unavailable type unit ret answer invalid => exact absurd invalid h.valid
  | stats unit ret answer valid => cases unused
  | otherStats type unit ret answer valid other =>
      exact ⟨⟨fun _ => rfl, h.log⟩, h.valid, List.mem_cons_of_mem _ h.closed, h.address⟩
  | elevate lockPtr mode address => exact absurd h.address address
  | stay isBsp lockPtr mode _ => exact h
  | close valid => cases unused
  | notOpen invalid => exact absurd invalid h.valid

/-- A call that uses the stale handle sends a request on it, or closes it again. -/
theorem Stale.violated (h : Stale s) (used : c.usesHandle = true) (step : CallStep idleProc s c t) :
    ¬ Disciplined t.log := by
  intro disciplined
  cases step with
  | unavailable type unit ret answer invalid => exact h.valid invalid
  | stats unit ret answer valid => exact disciplined.2.1.2 h.closed
  | otherStats type unit ret answer valid other => exact other (of_decide_eq_true used)
  | elevate lockPtr mode address => cases used
  | stay isBsp lockPtr mode _ => cases used
  | close valid => exact disciplined.1 h.closed
  | notOpen invalid => exact h.valid invalid

/-- The log only grows. -/
theorem CallStep.log_eq (step : CallStep idleProc s c t) : ∃ new, t.log = new ++ s.log := by
  cases step with
  | stay isBsp lockPtr mode _ => exact ⟨[], rfl⟩
  | notOpen invalid => exact ⟨[], rfl⟩
  | stats unit ret answer valid => exact ⟨[_, _], rfl⟩
  | _ => exact ⟨[_], rfl⟩

theorem disciplined_of_foldl (h : Disciplined (calls.foldl (Call.exec idleProc) s).log) :
    Disciplined s.log := by
  induction calls generalizing s with
  | nil => exact h
  | cons c rest ih =>
      obtain ⟨new, log⟩ := (call_step idleProc s c).log_eq
      have next : Disciplined (c.exec idleProc s).log := ih h
      rw [log] at next
      exact next.of_append

theorem Tidy.foldl (h : Tidy s) : Tidy (calls.foldl (Call.exec idleProc) s) := by
  induction calls generalizing s with
  | nil => exact h
  | cons c rest ih => exact ih (h.step (call_step idleProc s c))

theorem Stale.foldl_iff (h : Stale s) : Disciplined (calls.foldl (Call.exec idleProc) s).log ↔
    ∀ c ∈ calls, c.usesHandle = false := by
  induction calls generalizing s with
  | nil => exact iff_of_true h.log fun c mem => absurd mem List.not_mem_nil
  | cons c rest ih =>
      have step := call_step idleProc s c
      rw [List.forall_mem_cons, List.foldl_cons]
      cases used : c.usesHandle with
      | false =>
          rw [ih (h.step used step)]
          exact (and_iff_right rfl).symm
      | true =>
          refine iff_of_false (fun disciplined => ?_) fun all => Bool.noConfusion all.1
          exact h.violated used step (disciplined_of_foldl disciplined)

/-- The handle of a driver that cannot be used is closed and stays in `smp_vxd`. Every
later call that takes it from there breaks the discipline. -/
theorem device_handle_disciplined (idleProc : Dword) (w : Answers) (calls : List Call) :
    Disciplined (session idleProc w calls).log ↔
      w.createFile = invalidHandleValue ∨ w.usable = true ∨ ∀ c ∈ calls, c.usesHandle = false := by
  by_cases invalid : w.createFile = invalidHandleValue
  · exact iff_of_true (smp9xInit_tidy (.inl invalid)).foldl.log (.inl invalid)
  · cases usable : w.usable with
    | true => exact iff_of_true (smp9xInit_tidy (.inr usable)).foldl.log (.inr (.inl rfl))
    | false =>
        rw [session, (smp9xInit_stale invalid usable).foldl_iff]
        simp [invalid]

/-- A machine with one CPU on which the driver is loaded. -/
def oneCpu : Answers := ⟨0x10, some 1, some 0xC0100000, some 0, some 1⟩

theorem device_handle_closed_twice :
    ¬ ∀ (idleProc : Dword) (w : Answers) (calls : List Call),
      Disciplined (session idleProc w calls).log := by
  intro all
  have stale : Stale (smp9xInit oneCpu .initial) := smp9xInit_stale (by decide) (by decide)
  exact stale.violated rfl (call_step 0x401000 _ .close) (all 0x401000 oneCpu [.close])

end SmpVxd.Device
