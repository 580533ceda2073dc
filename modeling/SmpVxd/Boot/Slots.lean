import SmpVxd.Boot.Outcome

/-!
# The slots after the walk

`State.registerAll` fills one slot for each id of its list, the last of equal ids
winning. With all pages supplied the slots that the walk fills are exactly those of
`registered`, and none is half filled.
-/

namespace SmpVxd.Boot

variable {env : Env} {m : X86.Mem} {ct : Dword} {s t : State} {ids : List Nat} {apCount i : Nat}

/-! ## Registering a list of APs -/

namespace State

@[simp] theorem registerAll_cons (apid : Nat) : s.registerAll env (apid :: ids) apCount =
    (s.register env apid apCount).registerAll env ids (apCount + 1) := rfl

theorem registerAll_items_of_notMem (absent : i ∉ ids) :
    (s.registerAll env ids apCount).items i = s.items i := by
  induction ids generalizing s apCount with
  | nil => rfl
  | cons apid rest ih =>
      rw [List.mem_cons, not_or] at absent
      rw [registerAll_cons, ih absent.2, register_items, Function.update_of_ne absent.1]

variable (env s apCount) in
/-- The slot of an id is as the last of its entries has left it. -/
theorem registerAll_items_of_mem (mem : i ∈ ids) :
    ∃ k, ids[k]? = some i ∧
      (s.registerAll env ids apCount).items i = newItem env (apCount + k) (s.allocs + 2 * k) := by
  induction ids generalizing s apCount with
  | nil => cases mem
  | cons apid rest ih =>
      rw [registerAll_cons]
      by_cases later : i ∈ rest
      · obtain ⟨k, here, item⟩ := ih (s.register env apid apCount) (apCount + 1) later
        refine ⟨k + 1, here, ?_⟩
        rw [item, register_allocs]
        congr 1 <;> omega
      · obtain rfl : i = apid := by simpa [later] using mem
        refine ⟨0, rfl, ?_⟩
        rw [registerAll_items_of_notMem later, register_items, Function.update_self]
        rfl

theorem registerAll_items_getElem (nodup : ids.Nodup) {k : Nat} (lt : k < ids.length) :
    (s.registerAll env ids apCount).items ids[k] = newItem env (apCount + k) (s.allocs + 2 * k) := by
  obtain ⟨j, here, item⟩ := registerAll_items_of_mem env s apCount (List.getElem_mem lt)
  obtain ⟨lt', same⟩ := List.getElem?_eq_some_iff.1 here
  obtain rfl : j = k := (List.Nodup.getElem_inj_iff nodup).1 same
  exact item

theorem le_registerAll_ttableMax : s.ttableMax ≤ (s.registerAll env ids apCount).ttableMax ∧
    ∀ i ∈ ids, i ≤ (s.registerAll env ids apCount).ttableMax := by
  induction ids generalizing s apCount with
  | nil => exact ⟨Nat.le_refl _, fun i mem => absurd mem List.not_mem_nil⟩
  | cons apid rest ih =>
      obtain ⟨below, all⟩ := @ih (s.register env apid apCount) (apCount + 1)
      rw [register_ttableMax, Nat.max_le] at below
      exact ⟨below.1, List.forall_mem_cons.2 ⟨below.2, all⟩⟩

variable (env s ids apCount) in
theorem registerAll_ttableMax_mem : (s.registerAll env ids apCount).ttableMax = s.ttableMax ∨
    (s.registerAll env ids apCount).ttableMax ∈ ids := by
  induction ids generalizing s apCount with
  | nil => exact .inl rfl
  | cons apid rest ih =>
      rw [registerAll_cons]
      obtain same | mem := ih (s.register env apid apCount) (apCount + 1)
      · rw [register_ttableMax] at same
        obtain le | le := Nat.le_total s.ttableMax apid
        · rw [Nat.max_eq_right le] at same
          exact .inr (List.mem_cons.2 (.inl same))
        · exact .inl (same.trans (Nat.max_eq_left le))
      · exact .inr (List.mem_cons_of_mem _ mem)

/-- Registering leaves the counters and the record of the started APs alone. -/
theorem registerAll_counts : (s.registerAll env ids apCount).cpuCount = s.cpuCount ∧
    (s.registerAll env ids apCount).apFreeCnt = s.apFreeCnt ∧
    (s.registerAll env ids apCount).started = s.started ∧
    (s.registerAll env ids apCount).cpus = s.cpus ∧ (s.registerAll env ids apCount).reads = s.reads := by
  induction ids generalizing s apCount with
  | nil => exact ⟨rfl, rfl, rfl, rfl, rfl⟩
  | cons apid rest ih => exact ih

end State

/-! ## With the pages it needs -/

/-- The slots in use are those of `ids`, each with a stack and a data block. -/
structure Fills (ids : List Nat) (s : State) : Prop where
  stack : ∀ i, (s.items i).stack ≠ 0 ↔ i ∈ ids
  data : ∀ i, (s.items i).data.isSome = true ↔ i ∈ ids

namespace Fills

theorem frame (h : Fills ids s) (frame : Frame s t) : Fills ids t where
  stack i := by rw [frame.stack, h.stack]
  data i := by rw [frame.isSome, h.data]

theorem counters (h : Fills ids s) (apCount : Nat) (as : List Dword) :
    Fills ids ((s.counters apCount).read as) :=
  ⟨h.stack, h.data⟩

theorem complete (h : Fills ids s) : s.Complete := fun i stack => (h.data i).2 ((h.stack i).1 stack)

/-- No slot has one of the two without the other. -/
theorem iff (h : Fills ids s) (i : Nat) : (s.items i).stack ≠ 0 ↔ (s.items i).data.isSome = true := by
  rw [h.stack, h.data]

end Fills

theorem newItem_data (apCount : Nat) {allocs : Nat} (mem : env.page (allocs + 1) ≠ 0) :
    ∃ data, (newItem env apCount allocs).data = some data ∧ data.index = apCount + 1 ∧
      data.status = .busy := by
  obtain ⟨block, alloc⟩ := Tdata.alloc_of_ne mem
  exact ⟨Tdata.setup env (env.page allocs) (env.phy (allocs + 1)) apCount block,
    by rw [newItem, alloc, Option.map_some], rfl, rfl⟩

variable (apCount) in
/-- A slot that is filled is busy until its AP has booted. -/
theorem registerAll_item (supplied : Supplied env s ids.length) (mem : i ∈ ids) :
    ((s.registerAll env ids apCount).items i).stack ≠ 0 ∧
      ∃ data, ((s.registerAll env ids apCount).items i).data = some data ∧ data.status = .busy := by
  obtain ⟨k, here, item⟩ := State.registerAll_items_of_mem env s apCount mem
  obtain ⟨lt, -⟩ := List.getElem?_eq_some_iff.1 here
  obtain none | ⟨-, pages⟩ := supplied
  · omega
  · obtain ⟨data, block, -, busy⟩ := newItem_data (apCount + k) (pages (2 * k + 1) (by omega))
    rw [item]
    exact ⟨pages (2 * k) (by omega), data, block, busy⟩

variable (apCount) in
theorem fills_registerAll (empty : ∀ i, s.items i = ⟨0, none⟩) (supplied : Supplied env s ids.length) :
    Fills ids (s.registerAll env ids apCount) where
  stack i := by
    by_cases mem : i ∈ ids
    · exact iff_of_true (registerAll_item apCount supplied mem).1 mem
    · rw [State.registerAll_items_of_notMem mem, empty i]
      exact iff_of_false (not_not.2 rfl) mem
  data i := by
    by_cases mem : i ∈ ids
    · obtain ⟨-, data, block, -⟩ := registerAll_item apCount supplied mem
      rw [block]
      exact iff_of_true rfl mem
    · rw [State.registerAll_items_of_notMem mem, empty i]
      exact iff_of_false Bool.false_ne_true mem

/-! ## From the initial state -/

/-- What the walk needs when it begins in the initial state. -/
theorem supplied_initial (as : List Dword) {k : Nat} :
    Supplied env ((State.initial.read as).prepared env) k ↔
      k = 0 ∨ env.page 0 ≠ 0 ∧ ∀ i < 2 * k, env.page (3 + i) ≠ 0 := Iff.rfl

theorem supplied_of_pages (pages : ∀ n, env.page n ≠ 0) (table : s.ttable ≠ 0) (k : Nat) :
    Supplied env s k := .inr ⟨table, fun _ _ => pages _⟩

theorem fills_walked (as : List Dword)
    (supplied : Supplied env ((State.initial.read as).prepared env) (registered env ct).length) :
    Fills (registered env ct) ((State.initial.read as).walked env ct) := by
  have fills := fills_registerAll 0 (fun _ => rfl) supplied
  exact ⟨fills.stack, fills.data⟩

theorem walked_apFreeCnt : (s.walked env ct).apFreeCnt = s.apFreeCnt :=
  State.registerAll_counts.2.1

theorem walked_cpus {as : List Dword} :
    ((State.initial.read as).walked env ct).cpus = cpusFrom env.firstMb ct mpctSize :=
  congrArg (· ++ _) State.registerAll_counts.2.2.2.1

/-- The end of `smp_init` sets the counters, and leaves the rest to `smp_init_bsp`. -/
theorem finish_frame (free : s.apFreeCnt = 0) (apCount : Nat) :
    ∃ as, Frame ((s.counters apCount).read as) (last ((finish env apCount).run s)) := by
  obtain rfl | pos := Nat.eq_zero_or_pos apCount
  · rw [finish_zero]
    exact ⟨[], (List.append_nil _).symm, rfl, rfl, rfl, free, fun _ => rfl, fun _ => rfl⟩
  · rw [finish_pos pos]
    have frame := startAps_frame env (s := s.counted env apCount) (List.range (s.ttableMax + 1))
    cases ran : (startAps env (List.range (s.ttableMax + 1))).run (s.counted env apCount) with
    | ok _ u =>
        rw [ran] at frame
        rw [bind_ok ran]
        exact ⟨_, frame.reads, frame.cpus, frame.ttableMax, frame.cpuCount, frame.apFreeCnt,
          frame.stack, frame.data⟩
    | error e u =>
        rw [ran] at frame
        rw [bind_error ran]
        exact ⟨_, frame.reads, frame.cpus, frame.ttableMax, frame.cpuCount, frame.apFreeCnt,
          frame.stack, frame.data⟩

/-- What `smp_init` does with the table, when it has its pages. -/
theorem smpInitTable_frame {as : List Dword} (kernel : env.page 1 ≠ 0) (bootPde : env.page 2 ≠ 0)
    (supplied : Supplied env ((State.initial.read as).prepared env) (registered env ct).length) :
    ∃ bs, Frame ((((State.initial.read as).walked env ct).counters
        (registered env ct).length).read bs)
      (last ((smpInitTable env ct).run (State.initial.read as))) := by
  rw [smpInitTable_ok _ ct kernel bootPde supplied]
  exact finish_frame walked_apFreeCnt _

/-- With all its pages, `smp_init` ends as the walk over its table has left it. -/
theorem smpInit_walked {fp : Nat} (found : mpfpOf env.firstMb = some fp)
    (ct_eq : configurationTable env.firstMb fp = ct)
    (signature : startsWith env.firstMb ct mpctMagic = true) (pages : ∀ n, env.page n ≠ 0) :
    ∃ as bs, Frame ((((State.initial.read (as ++ cmpReads env.firstMb ct mpctMagic)).walked env
      ct).counters (registered env ct).length).read bs) (last ((smpInit env).run .initial)) := by
  obtain ⟨as, -, ran⟩ := smpInit_some found
  subst ct_eq
  rw [if_pos signature] at ran
  rw [ran]
  exact ⟨_, smpInitTable_frame (pages 1) (pages 2) (supplied_of_pages pages (pages 0) _)⟩

theorem walked_reads {as : List Dword} : ((State.initial.read as).walked env ct).reads =
    as ++ walkReads env.firstMb ct mpctSize ++ dwordReads (ct + 36) :=
  congrArg (· ++ _ ++ _) State.registerAll_counts.2.2.2.2

end SmpVxd.Boot
