import SmpVxd.Protocol.Bookkeeping
import SmpVxd.Transition.Hosting

/-!
# Who hosts which thread

The bookkeeping of the driver, seen as guests on hosts: the APs are the hosts, the
phase of a host is the logical value of its status word, and the home table is the
thread table, in which a record that `Device_Thread_Destroy` is about to free no
longer counts. Every step of the machine is a step of the abstract bookkeeping, so
both sides agree in every reachable state.
-/

namespace SmpVxd

open Transition

def Status.phase : Status → Hosting.Phase
  | .ready | .sleep => .free
  | .loaded | .running | .cargo => .hosting
  | .busy | .dircard => .discarding

theorem Status.phase_free {v : Status} (h : v.free = true) : v.phase = .free := by
  cases v <;> first | rfl | cases h

theorem Status.phase_hosting {v : Status} : v.phase = .hosting ↔ v.hosting = true := by
  cases v <;> simp [Status.phase, Status.hosting]

/-- Where a record says its thread is. -/
def TsThread.home (ts : TsThread) : Dword × Option Nat :=
  (ts.addr, if ts.smpStatus = 0 then none else some ts.smpApid)

/-- The thread whose record is about to be freed. -/
def Bsp.leaving : Bsp → Option Dword
  | .destroyUnlock tid _ _ | .destroyFree tid => some tid
  | _ => none

/-- The machine as a bookkeeping of guests on hosts. -/
def Sys.hosting (s : Sys) : Hosting.State Nat Dword Dword where
  phase i := (s.value i).phase
  guest i := ((s.ap i).threadId, (s.ap i).threadPtr)
  home tid := if s.bsp.leaving = some tid then none else (s.tsHt.get tid).map TsThread.home

variable {cfg : Config} {s t : Sys} {a : Action} {i : Nat} {tid : Dword}

theorem home_of_not_leaving (h : s.bsp.leaving = none) :
    s.hosting.home tid = (s.tsHt.get tid).map TsThread.home := by
  simp [Sys.hosting, h]

theorem home_leaving (h : s.bsp.leaving = some tid) : s.hosting.home tid = none := by
  simp [Sys.hosting, h]

theorem home_not_leaving {tid' : Dword} (h : s.bsp.leaving = some tid) (ne : tid' ≠ tid) :
    s.hosting.home tid' = (s.tsHt.get tid').map TsThread.home := by
  simp [Sys.hosting, h, ne.symm]

theorem TsHt.Hosted.home {ht : TsHt} {cpu : Nat} (hosted : ht.Hosted tid cpu) :
    ∃ addr, (ht.get tid).map TsThread.home = some (addr, some cpu) := by
  obtain ⟨ts, found, status, rfl⟩ := hosted
  exact ⟨ts.addr, by simp [found, TsThread.home, status]⟩

theorem TsHt.SameCore.home {ht ht' : TsHt} (same : ht.SameCore ht') (tid : Dword) :
    (ht'.get tid).map TsThread.home = (ht.get tid).map TsThread.home :=
  same.map TsThread.home (fun _ => rfl) tid

/-- No logical value, no hosted thread and no entry of the table has changed. -/
theorem hosting_stay (value : ∀ i, t.value i = s.value i)
    (guest : ∀ i, t.hosting.guest i = s.hosting.guest i)
    (home : ∀ tid, t.hosting.home tid = s.hosting.home tid) :
    Hosting.Step s.hosting t.hosting :=
  .stay (fun i => congrArg Status.phase (value i)) guest home

theorem ApFrame.guest {j : Nat} (h : ApFrame j s t) (i : Nat) :
    t.hosting.guest i = s.hosting.guest i := by
  by_cases same : i = j
  · subst same
    exact Prod.ext h.threadId h.threadPtr
  · simp only [Sys.hosting, h.others i same]

theorem ApFrame.home {j : Nat} (h : ApFrame j s t) (tid : Dword) :
    t.hosting.home tid = s.hosting.home tid := by
  simp only [Sys.hosting, h.bsp, h.tsHt]

/-- The moves of an AP stay within a phase, except for the end of `S_DIRCARD`. -/
theorem ApStep.hosting (locks : Locks s) (h : ApStep i s t) :
    Hosting.Step s.hosting t.hosting := by
  have others : ∀ j, j ≠ i → t.hosting.phase j = s.hosting.phase j := fun j ne =>
    congrArg Status.phase (h.frame.value ne)
  have stay (phase : t.hosting.phase i = s.hosting.phase i) : Hosting.Step s.hosting t.hosting := by
    refine .stay (fun j => ?_) h.frame.guest h.frame.home
    by_cases same : j = i
    · rw [same, phase]
    · exact others j same
  obtain same | move := h.value locks
  · exact stay (congrArg Status.phase same)
  · change t.hosting.phase i = s.hosting.phase i → _ at stay
    simp only [Sys.hosting] at stay
    generalize before : s.value i = v at move stay
    generalize after : t.value i = w at move stay
    generalize (s.ap i).pc = pc at move
    cases move with
    | sleep => exact stay rfl
    | load => exact stay rfl
    | finish => exact stay rfl
    | notify lock => exact stay rfl
    | discard =>
        exact .recycle i (congrArg Status.phase before) (congrArg Status.phase after)
          h.frame.home fun j ne => ⟨others j ne, h.frame.guest j⟩

theorem switchToApReturn_leaving (l : ToAp) (rc : Bool) :
    (switchToApReturn l rc).leaving = none := by
  unfold switchToApReturn
  split <;> rfl

theorem BspGoto.leaving {b : Bsp} (h : BspGoto cfg s s.bsp b) :
    s.bsp.leaving = none ∧ b.leaving = none := by
  generalize s.bsp = c at h
  cases h with
  | noAp l _ => exact ⟨rfl, switchToApReturn_leaving l false⟩
  | _ => exact ⟨rfl, rfl⟩

theorem LockAt.leaving {b : Bsp} {cpu : Nat} {next : Status → Bsp} (h : LockAt b cpu next)
    (v : Status) : (next v).leaving = b.leaving := by
  cases h <;> rfl

theorem UnlockAt.leaving {b c : Bsp} {cpu : Nat} {v : Status} (h : UnlockAt b cpu v c) :
    c.leaving = b.leaving := by
  cases h <;> rfl

/-- Storing into a data page of an AP anything but a thread. -/
theorem guest_setAp {x : Ap} {b : Bsp} {j : Nat} (threadId : x.threadId = (s.ap j).threadId)
    (threadPtr : x.threadPtr = (s.ap j).threadPtr) (i : Nat) :
    ({ s.setAp j x with bsp := b } : Sys).hosting.guest i = s.hosting.guest i := by
  by_cases same : i = j
  · subst same
    simp [Sys.hosting, Sys.setAp, threadId, threadPtr]
  · simp [Sys.hosting, Sys.setAp, Function.update_of_ne same]

theorem BspStep.hosting (locks : Locks s) (ledger : Ledger cfg s) (h : BspStep cfg s t) :
    Hosting.Step s.hosting t.hosting := by
  have locks' : Locks t := fun j => (locks j).step (h.word j)
  have ok := ledger.bsp
  have full := h
  cases h with
  | goto b h =>
      obtain ⟨before, after⟩ := h.leaving
      refine hosting_stay (full.value_same locks h.moves) (fun _ => rfl) fun tid => ?_
      rw [home_of_not_leaving after, home_of_not_leaving before]
  | startAp j pc present off =>
      exact hosting_stay (full.value_same locks (by rw [pc]; rfl)) (guest_setAp rfl rfl) fun _ => rfl
  | awaitAp j pc =>
      exact .stay (fun _ => rfl) (fun _ => rfl) fun _ => rfl
  | spin cpu next at_ busy =>
      exact .stay (fun _ => rfl) (fun _ => rfl) fun _ => rfl
  | lock cpu next at_ free =>
      refine hosting_stay (full.value_same locks at_.moves) (guest_setAp rfl rfl) fun tid => ?_
      simp only [Sys.hosting, at_.leaving]
      rfl
  | unlock cpu v b at_ =>
      refine hosting_stay (full.value_same locks at_.moves) (guest_setAp rfl rfl) fun tid => ?_
      simp only [Sys.hosting, at_.leaving]
      rfl
  | discard tid cpu v pc =>
      rw [pc] at ok
      obtain ⟨addr, home⟩ := TsHt.Hosted.home ok
      refine .discard tid addr cpu ?_ ?_ ?_ ?_ ?_
      · rw [home_of_not_leaving (by rw [pc]; rfl), home]
      · exact home_leaving rfl
      · exact congrArg Status.phase (locks'.value_of_bsp (Bsp.held_of_lock rfl))
      · intro tid' ne
        rw [home_not_leaving (s := { s with bsp := .destroyUnlock tid cpu .dircard }) rfl ne,
          home_of_not_leaving (by rw [pc]; rfl)]
      · exact fun i ne => ⟨congrArg Status.phase (full.value_ne locks (by rw [pc]; rfl) ne), rfl⟩
  | free tid pc =>
      refine hosting_stay (full.value_same locks (by rw [pc]; rfl)) (fun _ => rfl) fun tid' => ?_
      · have leaving : s.bsp.leaving = some tid := by rw [pc]; rfl
        rw [home_of_not_leaving (s := { s with tsHt := _, bsp := _ }) rfl]
        by_cases same : tid' = tid
        · rw [same, home_leaving leaving, TsHt.get_destroy_self]
          rfl
        · rw [home_not_leaving leaving same, TsHt.get_destroy_ne same]
  | setIdleLock l v ts pc free found lock =>
      refine hosting_stay (full.value_same locks (by rw [pc]; rfl)) (fun _ => rfl) fun tid' => ?_
      rw [home_of_not_leaving rfl, home_of_not_leaving (by rw [pc]; rfl)]
  | handOff l v ts pc found =>
      rw [pc] at ok
      obtain ⟨⟨ts', found', status, _⟩, _, _, _, free⟩ := ok
      cases found.symm.trans found'
      have leaving : (SmpVxd.handOff cfg s l v ts).bsp.leaving = none := rfl
      have table : (SmpVxd.handOff cfg s l v ts).tsHt =
          s.tsHt.modify l.threadId (TsThread.onAp l.cpu) (TsThread.onAp_tid l.cpu) := rfl
      refine .handOff l.threadId ts.addr l.cpu ?_ ?_ ?_ ?_ ?_ ?_ ?_
      · rw [home_of_not_leaving (by rw [pc]; rfl), found]
        simp [TsThread.home, status]
      · have held : s.bsp.held l.cpu = some v := by rw [pc]; exact Bsp.held_of_lock rfl
        exact (congrArg Status.phase (locks.value_of_bsp held)).trans (Status.phase_free free)
      · rw [home_of_not_leaving leaving, table, TsHt.get_modify_self, found]
        simp [TsThread.home, TsThread.onAp]
      · exact congrArg Status.phase (locks'.value_of_bsp (Bsp.held_of_lock (handOff_lock l v ts)))
      · simp [Sys.hosting, SmpVxd.handOff, Sys.setAp]
      · intro tid' ne
        rw [home_of_not_leaving leaving, table, TsHt.get_modify_ne ne,
          home_of_not_leaving (by rw [pc]; rfl)]
      · intro i ne
        refine ⟨congrArg Status.phase (full.value_ne locks (by rw [pc]; rfl) ne), ?_⟩
        simp [Sys.hosting, SmpVxd.handOff, Sys.setAp, Function.update_of_ne ne]
  | wakeup l v pc wakeup =>
      refine hosting_stay (full.value_same locks (by rw [pc]; rfl)) (guest_setAp rfl rfl)
        fun tid' => ?_
      rw [home_of_not_leaving rfl, home_of_not_leaving (by rw [pc]; rfl)]
      rfl
  | decStore l cnt pc =>
      refine hosting_stay (full.value_same locks (by rw [pc]; rfl)) (fun _ => rfl) fun tid' => ?_
      rw [home_of_not_leaving (switchToApReturn_leaving l true),
        home_of_not_leaving (by rw [pc]; rfl)]
  | takeBack l pc =>
      rw [pc] at ok
      obtain ⟨ts, found, status, apid⟩ := ok
      have leaving : (SmpVxd.takeBack cfg s l).bsp.leaving = none := rfl
      have table : (SmpVxd.takeBack cfg s l).tsHt =
          s.tsHt.modify l.threadId TsThread.onBsp TsThread.onBsp_tid := rfl
      refine .takeBack l.threadId ts.addr l.cpu ?_ ?_ ?_ ?_ ?_
      · rw [home_of_not_leaving (by rw [pc]; rfl), found]
        simp [TsThread.home, status, apid]
      · rw [home_of_not_leaving leaving, table, TsHt.get_modify_self, found]
        simp [TsThread.home, TsThread.onBsp]
      · exact congrArg Status.phase (locks'.value_of_bsp (Bsp.held_of_lock (takeBack_lock l)))
      · intro tid' ne
        rw [home_of_not_leaving leaving, table, TsHt.get_modify_ne ne,
          home_of_not_leaving (by rw [pc]; rfl)]
      · intro i ne
        exact ⟨congrArg Status.phase (full.value_ne locks (by rw [pc]; rfl) ne), rfl⟩
  | incStore l cnt pc =>
      refine hosting_stay (full.value_same locks (by rw [pc]; rfl)) (fun _ => rfl) fun tid' => ?_
      rw [home_of_not_leaving rfl, home_of_not_leaving (by rw [pc]; rfl)]
  | switchIn curTid cbsNew pc =>
      refine hosting_stay (full.value_same locks (by rw [pc]; rfl)) (fun i => ?_) fun tid' => ?_
      · simp only [Sys.hosting, switchIn_ap]
      · rw [home_of_not_leaving (by rw [switchIn_bsp]; rfl), home_of_not_leaving (by rw [pc]; rfl),
          (switchIn_core curTid cbsNew).home]

theorem CallStep.hosting {op : BspOp} (idle : s.bsp = .idle) (h : CallStep cfg s op t) :
    Hosting.Step s.hosting t.hosting := by
  have before : ∀ tid, s.hosting.home tid = (s.tsHt.get tid).map TsThread.home := fun tid =>
    home_of_not_leaving (by rw [idle]; rfl)
  have value := h.value idle
  cases h with
  | create tid page =>
      have after : ∀ tid', ({ s with tsHt := s.tsHt.create page tid } : Sys).hosting.home tid' =
          ((s.tsHt.create page tid).get tid').map TsThread.home := fun tid' =>
        home_of_not_leaving (by rw [idle]; rfl)
      have others : ∀ tid', tid' ≠ tid →
          ({ s with tsHt := s.tsHt.create page tid } : Sys).hosting.home tid' =
            s.hosting.home tid' := by
        intro tid' ne
        rw [after, before, TsHt.get_create_ne page ne]
      cases page with
      | none => exact .stay (fun _ => rfl) (fun _ => rfl) fun _ => rfl
      | some addr =>
          cases found : s.tsHt.get tid with
          | none =>
              refine .create tid addr ?_ ?_ others (fun _ => rfl) fun _ => rfl
              · rw [before, found]
                rfl
              · rw [after, TsHt.get_create_self, found]
                rfl
          | some ts =>
              refine .stay (fun _ => rfl) (fun _ => rfl) fun tid' => ?_
              by_cases same : tid' = tid
              · rw [same, after, before, TsHt.get_create_self, found]
                rfl
              · exact others tid' same
  | elevate proc lockaddr mode =>
      refine .stay (fun _ => rfl) (fun _ => rfl) fun tid => ?_
      have leaving : (smpElevate s proc lockaddr mode).bsp.leaving = none := by
        change s.bsp.leaving = none
        rw [idle]
        rfl
      rw [home_of_not_leaving leaving, before]
      by_cases same : tid = s.actTid
      · simp only [smpElevate, same, TsHt.get_modify_self, Option.map_map]
        congr 1
        funext ts
        simp only [Function.comp_apply]
        split <;> rfl
      · simp only [smpElevate, TsHt.get_modify_ne same]
  | enter op b ht entry same =>
      have table : ∀ tid, (ht.get tid).map TsThread.home = s.hosting.home tid := fun tid =>
        (same.home tid).trans (before tid).symm
      by_cases leaving : b.leaving = none
      · exact hosting_stay value (fun _ => rfl) fun tid =>
          (home_of_not_leaving leaving).trans (table tid)
      · -- only the record of a thread that is on the BSP is freed without further ado
        cases entry with
        | destroyOther tid atHome =>
            refine .forget tid ?_ (home_leaving rfl) ?_ (fun i => congrArg Status.phase (value i))
              fun _ => rfl
            · intro r h
              rw [before]
              cases found : s.tsHt.get tid with
              | none => simp
              | some ts => simp [TsThread.home, atHome ts found]
            · intro tid' ne
              rw [home_not_leaving (s := { s with tsHt := ht, bsp := .destroyFree tid }) rfl ne, table]
        | _ => exact absurd rfl leaving

theorem Outcome.hosting (locks : Locks s) (ledger : Ledger cfg s) (h : Outcome cfg s a t) :
    Hosting.Step s.hosting t.hosting := by
  cases h with
  | call op t idle call => exact call.hosting idle
  | bsp t h => exact (bspStep_outcome h).hosting locks ledger
  | ap i now msClock t present h => exact h.hosting locks
  | nmi i t present h => exact hosting_stay h.value h.frame.guest h.frame.home
  | trap i trap u x tid present pc =>
      have frame := trap_frame cfg s i trap u x
      exact hosting_stay (trap_value cfg pc trap u x) frame.guest frame.home
  | compute x idle => exact .stay (fun _ => rfl) (fun _ => rfl) fun _ => rfl
  | rebuildPd pageDir idle => exact .stay (fun _ => rfl) (fun _ => rfl) fun _ => rfl

/-- What every reachable state satisfies: the words are locks, the table agrees with
the operation in progress, and the APs agree with the table. -/
structure Consistent (cfg : Config) (s : Sys) : Prop where
  locks : Locks s
  ledger : Ledger cfg s
  coherent : Hosting.Coherent s.hosting

theorem Consistent.step (inv : Consistent cfg s) (h : Step cfg s a t) : Consistent cfg t where
  locks := inv.locks.step h
  ledger := inv.ledger.step h
  coherent := inv.coherent.step (h.outcome.hosting inv.locks inv.ledger)

private theorem coherent_of_ready (value : ∀ i, s.value i = .ready) (table : s.tsHt = .empty)
    (leaving : s.bsp.leaving = none) : Hosting.Coherent s.hosting := by
  refine ⟨fun {i} hosting => ?_, fun {tid r i} entry => ?_⟩
  · rw [show s.hosting.phase i = .free from congrArg Status.phase (value i)] at hosting
    cases hosting
  · rw [home_of_not_leaving leaving, table, TsHt.get_empty] at entry
    cases entry

theorem consistent_boot : Consistent cfg (boot cfg) :=
  ⟨locks_boot, ledger_boot, coherent_of_ready (fun _ => rfl) rfl rfl⟩

theorem consistent_initialised : Consistent cfg (initialised cfg) :=
  ⟨locks_initialised, ledger_initialised, coherent_of_ready (fun _ => rfl) rfl rfl⟩

theorem Consistent.run {as : List Action} (inv : Consistent cfg s) (run : Run (Step cfg) s as t) :
    Consistent cfg t :=
  run.invariant (fun _ _ _ inv step => inv.step step) inv

/-- The record of the thread that an AP hosts. -/
theorem Consistent.record_of_hosting (inv : Consistent cfg s) (hosting : (s.value i).hosting = true) :
    ∃ ts, s.tsHt.get (s.ap i).threadId = some ts ∧ ts.smpStatus = 1 ∧ ts.smpApid = i ∧
      (s.ap i).threadPtr = ts.addr := by
  have home := inv.coherent.home_of_hosting (h := i) (Status.phase_hosting.mpr hosting)
  simp only [Sys.hosting] at home
  split at home
  · cases home
  · obtain ⟨ts, found, entry⟩ := Option.map_eq_some_iff.mp home
    obtain ⟨addr, host⟩ := Prod.ext_iff.mp entry
    have nonzero : ts.smpStatus ≠ 0 := by
      intro zero
      simp [TsThread.home, zero] at host
    obtain ⟨ts', found', one, _⟩ := inv.ledger.records.hosted found nonzero
    cases found.symm.trans found'
    simp only [TsThread.home, if_neg nonzero, Option.some.injEq] at host
    exact ⟨ts, found, one, host, addr.symm⟩

/-- The AP that a record names. -/
theorem Consistent.hosting_of_record (inv : Consistent cfg s) (leaving : s.bsp.leaving = none)
    {ts : TsThread} (found : s.tsHt.get tid = some ts) (status : ts.smpStatus ≠ 0) :
    (s.value ts.smpApid).hosting = true ∧ (s.ap ts.smpApid).threadId = tid := by
  have entry : s.hosting.home tid = some (ts.addr, some ts.smpApid) := by
    rw [home_of_not_leaving leaving, found]
    simp only [TsThread.home, if_neg status, Option.map_some]
  obtain ⟨hosting, guest⟩ := inv.coherent.hosting_of_home entry
  exact ⟨Status.phase_hosting.mp hosting, congrArg Prod.fst guest⟩

/-- With the BSP between two operations, a value that is not in the word is held by
the AP of the slot. -/
theorem Consistent.status_or_held (inv : Consistent cfg s) (idle : s.bsp = .idle) (i : Nat) :
    (s.ap i).status = s.value i ∨ (s.ap i).status = .busy ∧ (s.ap i).pc.held = some (s.value i) := by
  obtain ⟨_ | _, held⟩ | ⟨_, word⟩ := carries_value s i
  · exact .inr ⟨(inv.locks i).busy_of_held held, held⟩
  · simp [Sys.word, idle, Bsp.held, Bsp.lock] at held
  · exact .inl word

/-- A machine with one AP, in slot 1. -/
def oneAp : Config where
  ttableMax := 1
  present i := i == 1
  present_le i h := by
    rw [beq_iff_eq.mp h]
  ttableMax_lt := by decide
  stack _ := 0x00800000
  kernelFlat := 0xC1000000
  kernelFlat_page := by decide
  xsaveFlags := 0
  noSysFxsave := false

/-- Thread `tid` is created, switched in and elevates itself. -/
def elevation (tid proc lockaddr mode : Dword) : List Action :=
  let tcb : Tcb := ⟨0, .zero⟩
  [.call (.threadInit tid (some 0x1000)), .call (.threadSwitch tid 0 tcb tcb), .bsp,
    .call (.smpElevate proc lockaddr mode)]

/-- The breakpoint at the end of `fly`, and `switch_to_ap` up to its end. -/
def flight : List Action :=
  .call (.int3 { Crs.zero with clientEip := 0xC1000335 }) :: List.replicate 10 .bsp

/-- Thread 5 runs on the AP until its call of `land`, and the AP takes its word
to tell the placeholder. -/
def notification : List Action :=
  elevation 5 0x500 0x9000 1 ++ flight ++ List.replicate 4 (.ap 1 0 0) ++
    [.trap 1 .int3 { switchTask .zero with eip := 0xC1000412 } .zero, .ap 1 0 0, .ap 1 0 0]

/-- Between two driver operations the APs and the thread table agree: every AP that
holds a context has exactly one record, every record on an AP is the one of the
thread there, and neither side names anything twice. -/
theorem ap_ownership {as : List Action} (run : Run (Step cfg) (initialised cfg) as t)
    (idle : t.bsp = .idle) :
    (∀ i, (t.ap i).status.hosting = true →
      ∃! ts, t.tsHt.Live ts ∧ ts.tid = (t.ap i).threadId ∧ ts.smpStatus = 1 ∧ ts.smpApid = i ∧
        (t.ap i).threadPtr = ts.addr) ∧
    (∀ ts, t.tsHt.Live ts → ts.smpStatus = 1 →
      cfg.present ts.smpApid = true ∧ (t.ap ts.smpApid).threadId = ts.tid ∧
        ((t.ap ts.smpApid).status.hosting = true ∨
          (t.ap ts.smpApid).status = .busy ∧
            ∃ v, (t.ap ts.smpApid).pc.held = some v ∧ v.hosting = true)) ∧
    (∀ i j, (t.value i).hosting = true → (t.value j).hosting = true →
      (t.ap i).threadId = (t.ap j).threadId → i = j) ∧
    (∀ ts ts', t.tsHt.Live ts → t.tsHt.Live ts' → ts.smpStatus = 1 → ts'.smpStatus = 1 →
      ts.smpApid = ts'.smpApid → ts = ts') := by
  have inv : Consistent cfg t := consistent_initialised.run run
  have leaving : t.bsp.leaving = none := by rw [idle]; rfl
  have nonzero : ∀ ts : TsThread, ts.smpStatus = 1 → ts.smpStatus ≠ 0 := by
    intro ts one
    rw [one]
    decide
  refine ⟨fun i hosting => ?_, fun ts live one => ?_, fun i j hosting hosting' same => ?_,
    fun ts ts' live live' one one' same => ?_⟩
  · have free : (t.ap i).status ≠ .busy := by
      intro busy
      rw [busy] at hosting
      cases hosting
    rw [← inv.locks.value_of_free free] at hosting
    obtain ⟨ts, found, one, apid, addr⟩ := inv.record_of_hosting hosting
    have tid := TsHt.get_tid found
    refine ⟨ts, ⟨TsHt.live_iff.mpr (tid ▸ found), tid, one, apid, addr⟩, ?_⟩
    rintro ts' ⟨live', tid', _⟩
    have found' := TsHt.live_iff.mp live'
    rw [tid', found] at found'
    exact (Option.some.inj found').symm
  · have found := TsHt.live_iff.mp live
    obtain ⟨hosting, tid⟩ := inv.hosting_of_record leaving found (nonzero ts one)
    refine ⟨(inv.ledger.records.hosted found (nonzero ts one)).present inv.ledger.records, tid, ?_⟩
    obtain word | ⟨busy, held⟩ := inv.status_or_held idle ts.smpApid
    · exact .inl (word ▸ hosting)
    · exact .inr ⟨busy, _, held, hosting⟩
  · exact inv.coherent.host_unique (Status.phase_hosting.mpr hosting)
      (Status.phase_hosting.mpr hosting') same
  · have found := TsHt.live_iff.mp live
    have found' := TsHt.live_iff.mp live'
    have tid := (inv.hosting_of_record leaving found (nonzero ts one)).2
    have tid' := (inv.hosting_of_record leaving found' (nonzero ts' one')).2
    rw [same, tid'] at tid
    rw [← tid, found'] at found
    exact (Option.some.inj found).symm

theorem ap_ownership_flight :
    ∃ t, Run (Step oneAp) (initialised oneAp) (elevation 5 0x500 0x9000 1 ++ flight) t ∧
      (t.ap 1).status = .loaded ∧
      ∃! ts, t.tsHt.Live ts ∧ ts.tid = (t.ap 1).threadId ∧ ts.smpStatus = 1 ∧ ts.smpApid = 1 ∧
        (t.ap 1).threadPtr = ts.addr := by
  have computed : (exec (step oneAp) (initialised oneAp)
      (elevation 5 0x500 0x9000 1 ++ flight)).any
        (fun t => t.bsp.isIdle && (t.ap 1).status = .loaded) = true := by decide +kernel
  obtain ⟨t, run, checked⟩ := exists_run computed
  simp only [Bool.and_eq_true, decide_eq_true_eq, Bsp.isIdle_iff] at checked
  exact ⟨t, run, checked.2, (ap_ownership run checked.1).1 1 (by rw [checked.2]; rfl)⟩

end SmpVxd
