import SmpVxd.Boot.Failure
import Mathlib.Data.Finset.Card

/-!
# The number of processors

`smp_init` counts the APs of the table, `smp_init_bsp` starts the slots with a stack
other than that of the running processor. The two agree where the table names every
AP once and the running processor not at all.
-/

namespace SmpVxd.Boot

variable {env : Env} {ct : Dword} {s t : State} {ids : List Nat} {i : Nat}

/-! ## A start that returns -/

theorem startAp_returned (ran : (startAp env i).run s = .ok () t) :
    (s.starts i = false ∧ t = s) ∨
      ∃ data, s.starts i = true ∧ (s.items i).data = some data ∧ t = s.launch env i data := by
  by_cases starts : s.starts i = true
  · cases block : (s.items i).data with
    | none =>
        rw [startAp_null starts block] at ran
        cases ran
    | some data =>
        by_cases boots : env.boots i = true
        · rw [startAp_launch starts block boots] at ran
          cases ran
          exact .inr ⟨data, starts, rfl, rfl⟩
        · rw [startAp_waits starts block boots] at ran
          cases ran
  · rw [startAp_skip starts] at ran
    cases ran
    exact .inl ⟨Bool.eq_false_iff.2 starts, rfl⟩

theorem starts_launch {data : Tdata} (block : (s.items i).data = some data) :
    (s.launch env i data).starts = s.starts := by
  funext j
  rw [State.starts, State.starts, (frame_launch block).stack]
  rfl

/-- What the loop of `smp_init_bsp` has done when it comes to its end. -/
theorem startAps_returned (nodup : ids.Nodup) (ran : (startAps env ids).run s = .ok () t) :
    t.started.map Prod.fst = s.started.map Prod.fst ++ ids.filter s.starts ∧
    (∀ i ∈ ids, s.starts i = true → ∃ data, (t.items i).data = some data ∧ data.status = .ready) ∧
    ∀ i, i ∉ ids → t.items i = s.items i := by
  induction ids generalizing s with
  | nil =>
      cases ran
      exact ⟨(List.append_nil _).symm, by simp, fun _ _ => rfl⟩
  | cons j rest ih =>
      obtain ⟨fresh, nodup⟩ := List.nodup_cons.1 nodup
      rw [startAps] at ran
      cases first : (startAp env j).run s with
      | error e u =>
          rw [bind_error first] at ran
          cases ran
      | ok _ u =>
          rw [bind_ok first] at ran
          obtain ⟨started, ready, same⟩ := ih nodup ran
          obtain ⟨skip, rfl⟩ | ⟨data, starts, block, rfl⟩ := startAp_returned first
          · refine ⟨?_, List.forall_mem_cons.2 ⟨?_, ready⟩, fun i absent => ?_⟩
            · rw [started, List.filter_cons_of_neg (Bool.eq_false_iff.1 skip)]
            · rw [skip]
              simp
            · exact same i fun mem => absent (List.mem_cons_of_mem _ mem)
          · rw [starts_launch block] at started ready
            refine ⟨?_, List.forall_mem_cons.2 ⟨fun _ => ?_, ready⟩, fun i absent => ?_⟩
            · rw [started, List.filter_cons_of_pos starts]
              change (s.started ++ [(j, _)]).map Prod.fst ++ _ = _
              rw [List.map_append, List.append_assoc]
              rfl
            · rw [same j fresh]
              change ∃ data, ((s.setItem j _).items j).data = some data ∧ _
              rw [State.setItem_self]
              exact ⟨_, rfl, rfl⟩
            · rw [same i fun mem => absent (List.mem_cons_of_mem _ mem)]
              apply Function.update_of_ne
              rintro rfl
              exact absent (List.mem_cons_self ..)

/-! ## The counters -/

/-- The number of slots with a data block. -/
def State.inUse (s : State) : Nat :=
  (List.range maxCores).countP fun i => (s.items i).data.isSome

/-- The slots, the started APs and the two counters agree, and no slot is left busy. -/
structure Counted (s : State) : Prop where
  started : s.started.length = s.inUse
  apFreeCnt : s.apFreeCnt = s.inUse
  cpuCount : s.cpuCount = s.inUse + 1
  ready : ∀ i data, (s.items i).data = some data → data.status ≠ .busy

/-- The ids of the APs in the table that the search finds, up to the limit. -/
def tableAps (env : Env) : List Nat :=
  match mpfpOf env.firstMb with
  | some fp => registered env (configurationTable env.firstMb fp)
  | none => []

theorem countP_range {n : Nat} {p : Nat → Bool} {S : Finset Nat} (h : ∀ i, p i = true ↔ i ∈ S)
    (lt : ∀ i ∈ S, i < n) : (List.range n).countP p = S.card := by
  rw [List.countP_eq_length_filter, ← List.toFinset_card_of_nodup (List.nodup_range.filter p)]
  congr 1
  ext i
  simp only [List.mem_toFinset, List.mem_filter, List.mem_range, h]
  exact ⟨And.right, fun mem => ⟨lt i mem, mem⟩⟩

theorem smpInitTable_true {as : List Dword}
    (returned : (smpInitTable env ct).run (State.initial.read as) = .ok true t) :
    ∃ s, Fills (registered env ct) s ∧ s.apFreeCnt = (registered env ct).length ∧
      s.cpuCount = (registered env ct).length + 1 ∧ s.bspid = env.bspid ∧ s.started = [] ∧
      (∀ i ∈ registered env ct, i ≤ s.ttableMax) ∧
      (startAps env (List.range (s.ttableMax + 1))).run s = .ok () t := by
  by_cases kernel : env.page 1 = 0
  · rw [smpInitTable_kernel _ ct kernel] at returned
    cases returned
  by_cases bootPde : env.page 2 = 0
  · obtain ⟨u, ran, -⟩ := smpInitTable_bootPde (State.initial.read as) ct kernel bootPde
    rw [ran] at returned
    cases returned
  by_cases supplied : Supplied env ((State.initial.read as).prepared env) (registered env ct).length
  · rw [smpInitTable_ok _ ct kernel bootPde supplied] at returned
    obtain none | pos := Nat.eq_zero_or_pos (registered env ct).length
    · rw [none, finish_zero] at returned
      cases returned
    · rw [finish_pos pos] at returned
      refine ⟨((State.initial.read as).walked env ct).counted env (registered env ct).length,
        ⟨(fills_walked as supplied).stack, (fills_walked as supplied).data⟩, rfl, rfl, rfl,
        State.registerAll_counts.2.2.1, State.le_registerAll_ttableMax.2, ?_⟩
      cases ran : (startAps env (List.range (((State.initial.read as).walked env ct).ttableMax + 1))).run
          (((State.initial.read as).walked env ct).counted env (registered env ct).length) with
      | ok _ u =>
          rw [bind_ok ran] at returned
          cases returned
          exact ran
      | error e u =>
          rw [bind_error ran] at returned
          cases returned
  · obtain ⟨u, ran, -⟩ := smpInitTable_error _ ct kernel bootPde supplied
    rw [ran] at returned
    cases returned

/-- What has happened when `smp_init` returns `TRUE`. -/
theorem smpInit_true (returned : (smpInit env).run .initial = .ok true t) :
    ∃ s, Fills (tableAps env) s ∧ s.apFreeCnt = (tableAps env).length ∧
      s.cpuCount = (tableAps env).length + 1 ∧ s.bspid = env.bspid ∧ s.started = [] ∧
      (∀ i ∈ tableAps env, i ≤ s.ttableMax) ∧
      (startAps env (List.range (s.ttableMax + 1))).run s = .ok () t := by
  cases found : mpfpOf env.firstMb with
  | none =>
      obtain ⟨as, -, ran⟩ := smpInit_none env found
      rw [ran] at returned
      cases returned
  | some fp =>
      obtain ⟨as, -, ran⟩ := smpInit_some found
      have aps : tableAps env = registered env (configurationTable env.firstMb fp) := by
        rw [tableAps, found]
      rw [aps]
      rw [ran] at returned
      split at returned
      next => exact smpInitTable_true returned
      next => cases returned

theorem tableAps_lt : ∀ i ∈ tableAps env, i < maxCores := by
  intro i mem
  rw [tableAps] at mem
  split at mem
  · exact apIdsFrom_lt i (List.mem_of_mem_take mem)
  · cases mem

theorem inUse_eq (fills : Fills ids s) (lt : ∀ i ∈ ids, i < maxCores) :
    s.inUse = ids.toFinset.card :=
  countP_range (fun i => by rw [fills.data, List.mem_toFinset])
    fun i mem => lt i (List.mem_toFinset.1 mem)

/-- A successful `smp_init` counts the APs rightly exactly where the ids in the table are distinct
and the boot processor is not among the APs. -/
theorem smp_init_counts (returned : (smpInit env).run .initial = .ok true t) :
    Counted t ↔ (tableAps env).Nodup ∧ env.bspid.toNat ∉ tableAps env := by
  obtain ⟨s, fills, free, count, bsp, none, below, ran⟩ := smpInit_true returned
  have frame : Frame s t := by
    have frame := startAps_frame env (s := s) (List.range (s.ttableMax + 1))
    rwa [ran] at frame
  obtain ⟨started, ready, -⟩ := startAps_returned List.nodup_range ran
  have used := inUse_eq (fills.frame frame) tableAps_lt
  have launched : t.started.length = ((tableAps env).toFinset.erase env.bspid.toNat).card := by
    rw [← List.length_map, started, none, List.map_nil, List.nil_append,
      ← List.countP_eq_length_filter]
    apply countP_range
    · intro i
      rw [State.starts_iff, fills.stack, bsp, Finset.mem_erase, List.mem_toFinset, and_comm]
    · intro i mem
      exact Nat.lt_succ_of_le (below i (List.mem_toFinset.1 (Finset.mem_of_mem_erase mem)))
  constructor
  · intro counted
    constructor
    · have same := counted.apFreeCnt
      rw [frame.apFreeCnt, free, used] at same
      exact Multiset.toFinset_card_eq_card_iff_nodup.1 same.symm
    · intro mem
      have fewer := Finset.card_erase_lt_of_mem (List.mem_toFinset.2 mem)
      have same := counted.started
      rw [launched, used] at same
      omega
  · rintro ⟨nodup, absent⟩
    have card := List.toFinset_card_of_nodup nodup
    refine ⟨?_, ?_, ?_, fun i data block => ?_⟩
    · rw [launched, used, Finset.erase_eq_of_notMem fun mem => absent (List.mem_toFinset.1 mem)]
    · rw [frame.apFreeCnt, free, used, card]
    · rw [frame.cpuCount, count, used, card]
    · have mem : i ∈ tableAps env := by
        rw [← fills.data, ← frame.isSome, block]
        rfl
      have starts : s.starts i = true := by
        rw [State.starts_iff, fills.stack, bsp]
        exact ⟨mem, fun same => absent (same ▸ mem)⟩
      obtain ⟨data', block', status⟩ := ready i
        (List.mem_range.2 (Nat.lt_succ_of_le (below i mem))) starts
      obtain rfl : data = data' := Option.some.inj (block.symm.trans block')
      rw [status]
      decide

/-- The processor `0` and two APs. -/
def twoAps : Env := machine (processorEntry 0 3 ++ processorEntry 1 1 ++ processorEntry 2 1)

theorem smp_init_counts_two : ∃ t, (smpInit twoAps).run .initial = .ok true t ∧ Counted t := by
  have computed : (match (smpInit twoAps).run .initial with
      | .ok true _ => true
      | _ => false) = true := by decide +kernel
  split at computed
  next t ran => exact ⟨t, ran, (smp_init_counts ran).2 (by decide +kernel)⟩
  next => cases computed

/-- A table in which the entry of the running processor lacks the BSP flag. -/
def unflagged : Env := machine (processorEntry 0 1 ++ processorEntry 1 1)

theorem smp_init_counts_unflagged :
    ∃ t, (smpInit unflagged).run .initial = .ok true t ∧ ¬Counted t := by
  have computed : (match (smpInit unflagged).run .initial with
      | .ok true t => t.apFreeCnt == 2 && t.started.length == 1
      | _ => false) = true := by decide +kernel
  split at computed
  next t ran =>
      rw [Bool.and_eq_true, beq_iff_eq, beq_iff_eq] at computed
      refine ⟨t, ran, fun counted => ?_⟩
      have started := counted.started
      have free := counted.apFreeCnt
      omega
  next => cases computed

end SmpVxd.Boot
