import SmpVxd.Protocol.Release

/-!
# Cached record pointers

Besides the thread table, `gdata.bsp_thread` and the `thread_ptr` of an AP hold the
address of a record; `fly` and `thread_data` go through them without a look at the
table. `switch_to_ap` and the second half of `thread_switch` store these pointers;
the other operations that change the table leave them as they are.
-/

namespace SmpVxd

open Transition

namespace TsHt

/-- The pointer that `ts_thread_get` returns. -/
def ptr (ht : TsHt) (tid : Dword) : Dword := ((ht.get tid).map (·.addr)).getD 0

/-- The record in a page; `none` where there is no record. -/
def deref (ht : TsHt) (page : Dword) : Option TsThread := ht.records.find? (·.addr = page)

/-- No page is null, and no page holds two records. -/
structure Pages (ht : TsHt) : Prop where
  nonzero : ∀ ts, ht.Live ts → ts.addr ≠ 0
  unique : ∀ ts ts', ht.Live ts → ht.Live ts' → ts.addr = ts'.addr → ts = ts'

variable {ht : TsHt} {tid : Dword} {ts : TsThread}

theorem live_of_get (found : ht.get tid = some ts) : ht.Live ts := by
  rw [live_iff, get_tid found]
  exact found

theorem ptr_of_get (found : ht.get tid = some ts) : ht.ptr tid = ts.addr := by
  simp [ptr, found]

theorem ptr_of_absent (absent : ht.get tid = none) : ht.ptr tid = 0 := by simp [ptr, absent]

/-- Reading through the address of a record that is still in the table. -/
theorem deref_of_unique (unique : ∀ ts', ht.Live ts' → ts'.addr = ts.addr → ts' = ts) (live : ht.Live ts) :
    ht.deref ts.addr = some ts := by
  cases result : ht.deref ts.addr with
  | none =>
      have absent := List.find?_eq_none.mp result ts (mem_records.mpr live)
      simp at absent
  | some ts' =>
      have member := mem_records.mp (List.mem_of_find?_eq_some result)
      have same : ts'.addr = ts.addr := by simpa using List.find?_some result
      rw [unique ts' member same]

theorem Pages.deref (pages : ht.Pages) (found : ht.get tid = some ts) : ht.deref ts.addr = some ts :=
  deref_of_unique (fun ts' live same => pages.unique ts' ts live (live_of_get found) same) (live_of_get found)

end TsHt

/-- `thread_data` on the BSP or on the AP of a slot: null without a record, and `none`
when it reads a page that is not the one of a record. -/
def threadData (s : Sys) (cpu : Option Nat) : Option Dword :=
  let ptr := match cpu with
    | none => s.bspThread
    | some i => (s.ap i).threadPtr
  if ptr = 0 then some 0 else (s.tsHt.deref ptr).map (·.data)

/-- `smp_bsp_idle_proc` as `fly` reads it on the BSP, null without a record. -/
def flyIdleProc (s : Sys) : Option Dword :=
  if s.bspThread = 0 then some 0 else (s.tsHt.deref s.bspThread).map (·.smpBspIdleProc)

/-- The AP holds the context of a thread or still executes one. -/
def Sys.mayExecute (s : Sys) (i : Nat) : Bool := (s.value i).hosting || (s.ap i).pc.engaged

/-- The cached pointers are those of the table. -/
structure Coherent (cfg : Config) (s : Sys) : Prop where
  bspThread : s.bspThread = s.tsHt.ptr s.actTid
  threadPtr : ∀ i ∈ cfg.slots, s.mayExecute i = true →
    ∃ ts, s.tsHt.get (s.ap i).threadId = some ts ∧ (s.ap i).threadPtr = ts.addr

/-- `_PageAllocate` returns a page that is not in use. -/
def freshPage (s : Sys) : Action → Bool
  | .call (.threadInit _ (some page)) => page ≠ 0 && s.tsHt.records.all fun ts => ts.addr ≠ page
  | _ => true

/-- The current thread neither gets nor loses a record, and no thread loses its record
while an AP executes it. -/
def keepsPointers (cfg : Config) (s : Sys) : Action → Bool
  | .call (.threadInit tid (some _)) => tid ≠ s.actTid || (s.tsHt.get tid).isSome
  | .bsp => match s.bsp with
      | .destroyFree tid =>
          (s.tsHt.get tid).isNone ||
            tid ≠ s.actTid && decide (∀ i ∈ cfg.slots,
              (s.ap i).pc.engaged = true → (s.ap i).threadId ≠ tid)
      | _ => true
  | _ => true

variable {cfg : Config} {s t : Sys} {a : Action} {i : Nat} {tid : Dword}

/-! ## What a step does to the table -/

/-- The page of a record, if the thread has one. -/
def TsHt.page (ht : TsHt) (tid : Dword) : Option Dword := (ht.get tid).map (·.addr)

theorem TsHt.page_modify {ht : TsHt} {tid' : Dword} {f : TsThread → TsThread}
    (keeps : ∀ t, (f t).tid = t.tid) (addr : ∀ t, (f t).addr = t.addr) :
    (ht.modify tid' f keeps).page tid = ht.page tid := by
  unfold page
  rw [get_modify]
  split
  · rw [Option.map_map]
    exact congrArg (fun g => (ht.get tid).map g) (funext addr)
  · rfl

theorem TsHt.SameCore.page {ht ht' : TsHt} (same : ht.SameCore ht') (tid : Dword) :
    ht'.page tid = ht.page tid :=
  same.map (·.addr) (fun _ => rfl) tid

/-- Records appear in `Device_Thread_Init`, disappear in `Device_Thread_Destroy` and
stay where they are. -/
theorem Outcome.page (h : Outcome cfg s a t) (tid : Dword) :
    t.tsHt.page tid = s.tsHt.page tid ∨
      (∃ page, a = .call (.threadInit tid (some page)) ∧ s.tsHt.get tid = none ∧
        t.tsHt.page tid = some page) ∨
      a = .bsp ∧ s.bsp = .destroyFree tid ∧ t.tsHt.get tid = none := by
  cases h with
  | call op t idle call =>
      cases call with
      | create tid' page =>
          by_cases same : tid = tid'
          · subst same
            cases page with
            | none => exact .inl rfl
            | some page =>
                cases found : s.tsHt.get tid with
                | none =>
                    have new : (s.tsHt.create (some page) tid).page tid = some page := by
                      simp [TsHt.page, TsHt.get_create_self, found, TsThread.new]
                    exact .inr (.inl ⟨page, rfl, rfl, new⟩)
                | some ts => exact .inl (by simp [TsHt.page, TsHt.get_create_self, found])
          · exact .inl (congrArg (Option.map _) (TsHt.get_create_ne page same))
      | elevate proc lockaddr mode =>
          refine .inl ?_
          simp only [smpElevate]
          exact TsHt.page_modify _ fun ts => by split <;> rfl
      | enter op b ht entry same => exact .inl (same.page tid)
  | bsp t h =>
      cases bspStep_outcome h with
      | free tid' pc =>
          by_cases same : tid = tid'
          · subst same
            exact .inr (.inr ⟨rfl, pc, TsHt.get_destroy_self⟩)
          · exact .inl (congrArg (Option.map _) (TsHt.get_destroy_ne same))
      | handOff l v ts pc found =>
          exact .inl (TsHt.page_modify (TsThread.onAp_tid l.cpu) fun _ => rfl)
      | takeBack l pc => exact .inl (TsHt.page_modify TsThread.onBsp_tid fun _ => rfl)
      | switchIn curTid cbsNew pc => exact .inl ((switchIn_core curTid cbsNew).page tid)
      | _ => exact .inl rfl
  | ap i now msClock t present h => exact .inl (by rw [h.frame.tsHt])
  | nmi i t present h => exact .inl (by rw [h.frame.tsHt])
  | _ => exact .inl rfl

/-- The current thread and the pointer to its record change together. -/
theorem Outcome.current (h : Outcome cfg s a t) :
    t.bspThread = s.bspThread ∧ t.actTid = s.actTid ∨ t.bspThread = t.tsHt.ptr t.actTid := by
  cases h with
  | call op t idle call => cases call <;> exact .inl ⟨rfl, rfl⟩
  | bsp t h =>
      cases bspStep_outcome h with
      | switchIn curTid cbsNew pc =>
          right
          unfold switchIn
          split
          · rename_i absent
            exact (TsHt.ptr_of_absent absent).symm
          · rename_i ts found
            simp [TsHt.ptr, TsHt.get_modify_self, found]
      | _ => exact .inl ⟨rfl, rfl⟩
  | ap i now msClock t present h =>
      cases h <;> exact .inl ⟨rfl, rfl⟩
  | nmi i t present h => cases h <;> exact .inl ⟨rfl, rfl⟩
  | _ => exact .inl ⟨rfl, rfl⟩

/-! ## Pages -/

theorem TsHt.page_eq_some {ht : TsHt} {page : Dword} :
    ht.page tid = some page ↔ ∃ ts, ht.get tid = some ts ∧ ts.addr = page := Option.map_eq_some_iff

theorem TsHt.pages_iff {ht : TsHt} : ht.Pages ↔
    (∀ tid page, ht.page tid = some page → page ≠ 0) ∧
      ∀ tid tid' page, ht.page tid = some page → ht.page tid' = some page → tid = tid' := by
  constructor
  · intro pages
    constructor
    · intro tid page h
      obtain ⟨ts, found, rfl⟩ := page_eq_some.mp h
      exact pages.nonzero ts (live_of_get found)
    · intro tid tid' page h h'
      obtain ⟨ts, found, rfl⟩ := page_eq_some.mp h
      obtain ⟨ts', found', same⟩ := page_eq_some.mp h'
      cases pages.unique ts ts' (live_of_get found) (live_of_get found') same.symm
      exact (get_tid found).symm.trans (get_tid found')
  · rintro ⟨nonzero, unique⟩
    constructor
    · intro ts live
      exact nonzero ts.tid ts.addr (page_eq_some.mpr ⟨ts, live_iff.mp live, rfl⟩)
    · intro ts ts' live live' same
      have tid := unique ts.tid ts'.tid ts.addr (page_eq_some.mpr ⟨ts, live_iff.mp live, rfl⟩)
        (page_eq_some.mpr ⟨ts', live_iff.mp live', same.symm⟩)
      have found := live_iff.mp live
      rw [tid, live_iff.mp live'] at found
      exact (Option.some.inj found).symm

theorem freshPage_spec {page : Dword} (fresh : freshPage s (.call (.threadInit tid (some page))) = true) :
    page ≠ 0 ∧ ∀ tid', s.tsHt.page tid' ≠ some page := by
  simp only [freshPage, Bool.and_eq_true, decide_eq_true_eq, List.all_eq_true] at fresh
  refine ⟨fresh.1, fun tid' h => ?_⟩
  obtain ⟨ts, found, same⟩ := TsHt.page_eq_some.mp h
  exact fresh.2 ts (TsHt.mem_records.mpr (TsHt.live_of_get found)) same

/-- A page is the one of a record that stays, or was just allocated for a new record. -/
theorem Outcome.page_cases (h : Outcome cfg s a t) {page : Dword} (after : t.tsHt.page tid = some page) :
    s.tsHt.page tid = some page ∨ a = .call (.threadInit tid (some page)) := by
  obtain same | ⟨page', rfl, -, new⟩ | ⟨-, -, gone⟩ := h.page tid
  · exact .inl (same ▸ after)
  · cases new.symm.trans after
    exact .inr rfl
  · simp [TsHt.page, gone] at after

theorem Outcome.pages (h : Outcome cfg s a t) (pages : s.tsHt.Pages) (fresh : freshPage s a = true) :
    t.tsHt.Pages := by
  obtain ⟨nonzero, unique⟩ := TsHt.pages_iff.mp pages
  refine TsHt.pages_iff.mpr ⟨fun tid page after => ?_, fun tid tid' page after after' => ?_⟩
  · obtain before | rfl := h.page_cases after
    · exact nonzero tid page before
    · exact (freshPage_spec fresh).1
  · obtain before | rfl := h.page_cases after
    · obtain before' | rfl := h.page_cases after'
      · exact unique tid tid' page before before'
      · exact absurd before ((freshPage_spec fresh).2 tid)
    · obtain before' | same := h.page_cases after'
      · exact absurd before' ((freshPage_spec fresh).2 tid')
      · cases same
        rfl

/-! ## The pointers -/

/-- In a state with coherent pointers an operation keeps `gdata.bsp_thread`. -/
theorem Outcome.bspThread (h : Outcome cfg s a t) (before : s.bspThread = s.tsHt.ptr s.actTid)
    (keeps : keepsPointers cfg s a = true) : t.bspThread = t.tsHt.ptr t.actTid := by
  obtain ⟨bspThread, actTid⟩ | stored := h.current
  · rw [bspThread, actTid, before]
    obtain same | ⟨page, rfl, absent, -⟩ | ⟨rfl, pc, gone⟩ := h.page s.actTid
    · exact congrArg (Option.getD · 0) same.symm
    · simp [keepsPointers, absent] at keeps
    · simp only [keepsPointers, pc, Bool.or_eq_true, Bool.and_eq_true, decide_eq_true_eq] at keeps
      obtain absent | ⟨ne, -⟩ := keeps
      · rw [TsHt.ptr_of_absent gone, TsHt.ptr_of_absent (Option.isNone_iff_eq_none.mp absent)]
      · exact absurd rfl ne
  · exact stored

/-- On the BSP, only a hand-off changes what an AP executes. -/
theorem BspStep.threadPtr (h : BspStep cfg s t) (i : Nat) :
    (t.ap i).threadId = (s.ap i).threadId ∧ (t.ap i).threadPtr = (s.ap i).threadPtr ∨
      ∃ l v, s.bsp = .apStore l v ∧ l.cpu = i := by
  cases h with
  | handOff l v ts pc found =>
      by_cases same : l.cpu = i
      · exact .inr ⟨l, v, pc, same⟩
      · exact .inl (by simp [SmpVxd.handOff, Sys.setAp, Function.update_of_ne (Ne.symm same)])
  | startAp j pc _ _ =>
      by_cases same : i = j
      · simp [same]
      · simp [Sys.setAp_ne _ _ _ same]
  | lock cpu next at_ _ =>
      by_cases same : i = cpu
      · simp [Sys.setAp, same]
      · simp [Sys.setAp, Function.update_of_ne same]
  | unlock cpu v b at_ =>
      by_cases same : i = cpu
      · simp [Sys.setAp, same]
      · simp [Sys.setAp, Function.update_of_ne same]
  | wakeup l v pc _ =>
      by_cases same : i = l.cpu
      · simp [Sys.setAp, same]
      · simp [Sys.setAp, Function.update_of_ne same]
  | switchIn curTid cbsNew pc => exact .inl (by rw [switchIn_ap]; exact ⟨rfl, rfl⟩)
  | _ => exact .inl ⟨rfl, rfl⟩

/-- An AP comes to execute a context with its word at `S_RUNNING`. -/
theorem ApStep.still_engaged (locks : Locks s) (engaged : Engaged s i) (h : ApStep i s t)
    (after : (t.ap i).pc.engaged = true) (value : t.value i ≠ .running) :
    (s.ap i).pc.engaged = true := by
  have move := h.value locks
  cases h with
  | spin pc busy => exact after
  | unlock v rc pc =>
      have same := move.resolve_right (by rw [pc]; rintro ⟨⟩)
      simp only [Sys.setAp_self] at after
      split at after
      · cases after
      · split at after
        · rename_i loaded
          subst loaded
          rw [same, value_of_ap (by rw [pc]; rfl)] at value
          exact absurd (engaged.unlock v pc) value
        · cases after
  | switchtask fpu pc => rw [pc]; rfl
  | clearIdleLock lock pc => simp [Sys.setAp, ApPc.engaged] at after
  | incStore cnt pc => simp [Sys.setAp, ApPc.engaged] at after
  | _ => simp [ApPc.engaged] at after

theorem Outcome.still_engaged (inv : Consistent cfg s) (engaged : Engaged s i) (h : Outcome cfg s a t)
    (after : (t.ap i).pc.engaged = true) (value : t.value i ≠ .running) :
    (s.ap i).pc.engaged = true ∧ (t.ap i).threadId = (s.ap i).threadId ∧
      (t.ap i).threadPtr = (s.ap i).threadPtr := by
  -- other processors leave the AP as it is
  have frame {j : Nat} (h : ApFrame j s t) (same : i = j → (s.ap i).pc.engaged = true) :
      (s.ap i).pc.engaged = true ∧ (t.ap i).threadId = (s.ap i).threadId ∧
        (t.ap i).threadPtr = (s.ap i).threadPtr := by
    by_cases this : i = j
    · refine ⟨same this, ?_⟩
      subst this
      exact ⟨h.threadId, h.threadPtr⟩
    · rw [h.others i this] at after ⊢
      exact ⟨after, rfl, rfl⟩
  cases h with
  | call op t idle call =>
      rw [call.ap] at after ⊢
      exact ⟨after, rfl, rfl⟩
  | bsp t h =>
      have step := bspStep_outcome h
      have pc : (s.ap i).pc.engaged = true := by
        obtain same | ⟨-, boot⟩ := step.pc i
        · rwa [← same]
        · rw [boot] at after
          cases after
      refine ⟨pc, ?_⟩
      obtain same | ⟨l, v, store, rfl⟩ := step.threadPtr i
      · exact same
      · have free := inv.free_of_apStore store
        obtain running | dircard := engaged.value pc
        · rw [running] at free
          cases free
        · rw [dircard] at free
          cases free
  | ap j now msClock t present h =>
      refine frame h.frame fun this => ?_
      subst this
      exact h.still_engaged inv.locks engaged after value
  | nmi j t present h =>
      refine frame h.frame fun this => ?_
      subst this
      cases h with
      | wake _ _ => simp [ApPc.engaged] at after
      | dummy _ _ => simpa using after
  | trap j trap u x tid present pc =>
      refine frame (trap_frame cfg s j trap u x) fun this => ?_
      subst this
      simp [Ap.switchBack, ApPc.engaged] at after
  | compute x idle => exact ⟨after, rfl, rfl⟩
  | rebuildPd pageDir idle => exact ⟨after, rfl, rfl⟩

/-- An AP that holds a context is in agreement with the table; one that only executes
what is left of it is as long as the record is not freed. -/
theorem Sound.threadPtr (sound : Sound cfg s) (coherent : Coherent cfg s) (step : Step cfg s a t)
    (keeps : keepsPointers cfg s a = true) (member : i ∈ cfg.slots) (may : t.mayExecute i = true) :
    ∃ ts, t.tsHt.get (t.ap i).threadId = some ts ∧ (t.ap i).threadPtr = ts.addr := by
  have sound' := sound.step step
  have out := step.outcome
  by_cases hosting : (t.value i).hosting = true
  · obtain ⟨ts, found, -, -, addr⟩ := sound'.consistent.record_of_hosting hosting
    exact ⟨ts, found, addr⟩
  · have after : (t.ap i).pc.engaged = true := by
      simpa [Sys.mayExecute, hosting] using may
    have value : t.value i ≠ .running := by
      intro running
      rw [running] at hosting
      exact hosting rfl
    obtain ⟨before, threadId, threadPtr⟩ :=
      out.still_engaged sound.consistent (sound.engaged i) after value
    obtain ⟨ts, found, addr⟩ := coherent.threadPtr i member (by simp [Sys.mayExecute, before])
    rw [threadId, threadPtr, addr]
    obtain same | ⟨page, -, absent, -⟩ | ⟨rfl, pc, -⟩ := out.page (s.ap i).threadId
    · obtain ⟨ts', found', addr'⟩ := TsHt.page_eq_some.mp (same.trans (TsHt.page_eq_some.mpr ⟨ts, found, rfl⟩))
      exact ⟨ts', found', addr'.symm⟩
    · cases absent.symm.trans found
    · simp only [keepsPointers, pc, found, Option.isNone_some, Bool.false_or, Bool.and_eq_true,
        decide_eq_true_eq] at keeps
      exact absurd rfl (keeps.2 i member before)

theorem Sound.coherent_step (sound : Sound cfg s) (coherent : Coherent cfg s) (step : Step cfg s a t)
    (keeps : keepsPointers cfg s a = true) : Coherent cfg t where
  bspThread := step.outcome.bspThread coherent.bspThread keeps
  threadPtr _ member may := sound.threadPtr coherent step keeps member may

/-- The other steps leave a pointer behind that is not the one of the table. -/
theorem Coherent.broken (coherent : Coherent cfg s) (pages : s.tsHt.Pages) (step : Step cfg s a t)
    (fresh : freshPage s a = true) (loses : keepsPointers cfg s a = false) : ¬ Coherent cfg t := by
  intro coherent'
  cases step.outcome with
  | call op t idle call =>
      cases call with
      | create tid page =>
          cases page with
          | none => cases loses
          | some page =>
              simp only [keepsPointers, Bool.or_eq_false_iff, decide_eq_false_iff_not, not_not,
                Option.isSome_eq_false_iff, Option.isNone_iff_eq_none] at loses
              obtain ⟨rfl, absent⟩ := loses
              have stored := coherent'.bspThread
              have new : (s.tsHt.create (some page) s.actTid).ptr s.actTid = page := by
                simp [TsHt.ptr, TsHt.get_create_self, absent, TsThread.new]
              dsimp only at stored
              rw [new, coherent.bspThread, TsHt.ptr_of_absent absent] at stored
              exact (freshPage_spec fresh).1 stored.symm
      | elevate proc lockaddr mode => cases loses
      | enter op b ht entry same => cases entry <;> cases loses
  | bsp t h =>
      cases pc : s.bsp with
      | destroyFree tid =>
          simp only [bspStep, pc, Option.some.injEq] at h
          subst h
          simp only [keepsPointers, pc, Bool.or_eq_false_iff, Option.isNone_eq_false_iff,
            Bool.and_eq_false_iff, decide_eq_false_iff_not, not_not] at loses
          obtain ⟨present, own | executed⟩ := loses
          · subst own
            obtain ⟨ts, found⟩ := Option.isSome_iff_exists.mp present
            have stored := coherent'.bspThread
            dsimp only at stored
            rw [TsHt.ptr_of_absent TsHt.get_destroy_self, coherent.bspThread, TsHt.ptr_of_get found] at stored
            exact pages.nonzero ts (TsHt.live_of_get found) stored
          · simp only [not_forall, not_not] at executed
            obtain ⟨i, member, engaged, rfl⟩ := executed
            obtain ⟨ts, found, -⟩ := coherent'.threadPtr i member (by simp [Sys.mayExecute, engaged])
            cases TsHt.get_destroy_self.symm.trans found
      | _ => simp [keepsPointers, pc] at loses
  | _ => cases loses

/-- `fly` and `thread_data` read the record of the thread that calls them. -/
structure OwnRecord (cfg : Config) (s : Sys) : Prop where
  fly : flyIdleProc s = some ((s.tsHt.get s.actTid).elim 0 (·.smpBspIdleProc))
  onBsp : threadData s none = some ((s.tsHt.get s.actTid).elim 0 (·.data))
  onAp : ∀ i ∈ cfg.slots, ∀ tid, (s.ap i).pc = .ring3 tid →
    ∃ ts, s.tsHt.get tid = some ts ∧ threadData s (some i) = some ts.data

theorem Coherent.ownRecord (coherent : Coherent cfg s) (pages : s.tsHt.Pages)
    (engaged : ∀ i, Engaged s i) : OwnRecord cfg s where
  fly := by
    rw [flyIdleProc, coherent.bspThread]
    cases found : s.tsHt.get s.actTid with
    | none => simp [TsHt.ptr_of_absent found]
    | some ts =>
        rw [TsHt.ptr_of_get found, if_neg (pages.nonzero ts (TsHt.live_of_get found)), pages.deref found]
        rfl
  onBsp := by
    simp only [threadData, coherent.bspThread]
    cases found : s.tsHt.get s.actTid with
    | none => simp [TsHt.ptr_of_absent found]
    | some ts =>
        rw [TsHt.ptr_of_get found, if_neg (pages.nonzero ts (TsHt.live_of_get found)), pages.deref found]
        rfl
  onAp i member tid pc := by
    obtain ⟨ts, found, addr⟩ := coherent.threadPtr i member (by simp [Sys.mayExecute, pc, ApPc.engaged])
    rw [← (engaged i).tid tid pc] at found
    refine ⟨ts, found, ?_⟩
    simp only [threadData, addr]
    rw [if_neg (pages.nonzero ts (TsHt.live_of_get found)), pages.deref found]
    rfl

/-- As long as the current thread neither gets nor loses a record and no thread loses
its record while an AP executes it, the cached pointers are those of the table, and
`fly` and `thread_data` act on the record of their caller. The first operation that
does otherwise leaves a pointer behind that is not. -/
theorem pointers_coherent {as : List Action}
    (run : Run (restrict (Step cfg) fun s a => (freshPage s a && keepsPointers cfg s a) = true)
      (initialised cfg) as s) :
    (Coherent cfg s ∧ OwnRecord cfg s) ∧
      ∀ a t, Step cfg s a t → freshPage s a = true → keepsPointers cfg s a = false →
        ¬ Coherent cfg t := by
  have invariant : Sound cfg s ∧ s.tsHt.Pages ∧ Coherent cfg s := by
    refine run.invariant (P := fun s => Sound cfg s ∧ s.tsHt.Pages ∧ Coherent cfg s) ?_ ?_
    · rintro s a t ⟨sound, pages, coherent⟩ ⟨ok, step⟩
      simp only [Bool.and_eq_true] at ok
      exact ⟨sound.step step, step.outcome.pages pages ok.1, sound.coherent_step coherent step ok.2⟩
    · refine ⟨sound_initialised, ⟨fun ts live => ?_, fun ts ts' live => ?_⟩, rfl, fun i _ may => ?_⟩
      · obtain ⟨b, member⟩ := live
        cases member
      · obtain ⟨b, member⟩ := live
        cases member
      · cases may
  obtain ⟨sound, pages, coherent⟩ := invariant
  exact ⟨⟨coherent, coherent.ownRecord pages sound.engaged⟩,
    fun a t step fresh loses => coherent.broken pages step fresh loses⟩

/-- Thread 5 is switched in and asks for its data. -/
theorem pointers_coherent_created : ∃ as s,
    Run (restrict (Step oneAp) fun s a => (freshPage s a && keepsPointers oneAp s a) = true)
      (initialised oneAp) as s ∧
    s.actTid = 5 ∧ Coherent oneAp s ∧ threadData s none = some 0x1640 := by
  have computed : (exec (guard (step oneAp) fun s a => freshPage s a && keepsPointers oneAp s a)
      (initialised oneAp) (elevation 5 0x500 0x9000 1)).any
        (fun s => s.actTid = 5 && decide ((s.tsHt.get s.actTid).elim 0 (·.data) = 0x1640)) = true := by
    decide +kernel
  obtain ⟨s, run, checked⟩ := exists_run_restrict computed
  simp only [Bool.and_eq_true, decide_eq_true_eq] at checked
  obtain ⟨coherent, own⟩ := (pointers_coherent run).1
  exact ⟨_, s, run, checked.1, coherent, by rw [own.onBsp, checked.2]⟩

/-- The current thread is destroyed: `gdata.bsp_thread` is the address of a freed page,
and `fly` and `thread_data` read it. -/
theorem pointers_dangling : ∃ as s,
    Run (restrict (Step oneAp) fun s a => freshPage s a = true) (initialised oneAp) as s ∧
    s.bsp = .idle ∧ s.bspThread ≠ s.tsHt.ptr s.actTid ∧ flyIdleProc s = none ∧
    threadData s none = none := by
  have computed : (exec (guard (step oneAp) freshPage) (initialised oneAp)
      (elevation 5 0x500 0x9000 1 ++ [.call (.threadDestroy 5), .bsp])).any
        (fun s => s.bsp.isIdle && s.bspThread ≠ s.tsHt.ptr s.actTid && (flyIdleProc s).isNone &&
          (threadData s none).isNone) = true := by
    decide +kernel
  obtain ⟨s, run, checked⟩ := exists_run_restrict computed
  simp only [Bool.and_eq_true, decide_eq_true_eq, Bsp.isIdle_iff, Option.isNone_iff_eq_none] at checked
  obtain ⟨⟨⟨idle, stale⟩, fly⟩, data⟩ := checked
  exact ⟨_, s, run, idle, stale, fly, data⟩

end SmpVxd
