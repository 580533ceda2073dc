import SmpVxd.Boot.Slots

/-!
# smp_init when pages are missing

`smp_init` tests one of its allocations, the kernel page. What is left of a failed
initialisation is therefore decided by which page is missing first.
-/

namespace SmpVxd.Boot

variable {env : Env} {ct : Dword} {s t : State} {ids : List Nat}

/-- No store has gone through a null pointer, and a call that returns `FALSE` has left
one CPU, no free AP, and no slot with one half of what it needs. -/
def Clean (r : EStateM.Result Halt State Bool) : Prop :=
  (∀ t, r ≠ .error .nullStore t) ∧
    ∀ t, r = .ok false t → t.cpuCount = 1 ∧ t.apFreeCnt = 0 ∧
      ∀ i, (t.items i).stack ≠ 0 ↔ (t.items i).data.isSome = true

/-- A floating pointer leads to a table with its signature, and all pages that are
asked for are there: the kernel, the boot page table and, if there is an AP, `ttable`
and the stack and the data of every AP. -/
def PagesThere (env : Env) : Prop :=
  ∀ fp, mpfpOf env.firstMb = some fp →
    startsWith env.firstMb (configurationTable env.firstMb fp) mpctMagic = true ∧
    env.page 1 ≠ 0 ∧ env.page 2 ≠ 0 ∧
    (registered env (configurationTable env.firstMb fp) = [] ∨
      env.page 0 ≠ 0 ∧
      ∀ i < 2 * (registered env (configurationTable env.firstMb fp)).length, env.page (3 + i) ≠ 0)

theorem not_clean_null : ¬Clean (.error .nullStore t) := fun clean => clean.1 t rfl

theorem not_clean_uncounted (count : t.cpuCount = 0) : ¬Clean (.ok false t) := by
  intro clean
  have one := (clean.2 t rfl).1
  omega

theorem finish_clean (fills : Fills ids s) (free : s.apFreeCnt = 0) (apCount : Nat) :
    Clean ((finish env apCount).run s) := by
  obtain rfl | pos := Nat.eq_zero_or_pos apCount
  · rw [finish_zero]
    refine ⟨by simp, ?_⟩
    rintro t ⟨⟩
    exact ⟨rfl, free, fills.iff⟩
  · rw [finish_pos pos]
    have complete : (s.counted env apCount).Complete := fills.complete
    cases ran : (startAps env (List.range (s.ttableMax + 1))).run (s.counted env apCount) with
    | ok _ u =>
        rw [bind_ok ran]
        exact ⟨by simp, by simp⟩
    | error e u =>
        rw [bind_error ran]
        refine ⟨?_, by simp⟩
        rintro t ⟨⟩
        exact startAps_safe complete _ ran

theorem smpInitTable_clean (ct : Dword) (as : List Dword) :
    Clean ((smpInitTable env ct).run (State.initial.read as)) ↔
      env.page 1 ≠ 0 ∧ env.page 2 ≠ 0 ∧ (registered env ct = [] ∨
        env.page 0 ≠ 0 ∧ ∀ i < 2 * (registered env ct).length, env.page (3 + i) ≠ 0) := by
  by_cases kernel : env.page 1 = 0
  · rw [smpInitTable_kernel _ ct kernel]
    exact iff_of_false (not_clean_uncounted rfl) fun there => there.1 kernel
  by_cases bootPde : env.page 2 = 0
  · obtain ⟨t, ran, -⟩ := smpInitTable_bootPde (State.initial.read as) ct kernel bootPde
    rw [ran]
    exact iff_of_false not_clean_null fun there => there.2.1 bootPde
  rw [← List.length_eq_zero_iff, ← supplied_initial as]
  by_cases supplied : Supplied env ((State.initial.read as).prepared env) (registered env ct).length
  · rw [smpInitTable_ok _ ct kernel bootPde supplied]
    exact iff_of_true (finish_clean (fills_walked as supplied) walked_apFreeCnt _)
      ⟨kernel, bootPde, supplied⟩
  · obtain ⟨t, ran, -⟩ := smpInitTable_error _ ct kernel bootPde supplied
    rw [ran]
    exact iff_of_false not_clean_null fun there => supplied there.2.2

/-- `smp_init` stores through no null pointer and leaves a single-CPU system where it fails,
exactly where all pages that it asks for are there. -/
theorem smp_init_fails_cleanly (env : Env) :
    Clean ((smpInit env).run .initial) ↔ PagesThere env := by
  cases found : mpfpOf env.firstMb with
  | none =>
      obtain ⟨as, -, ran⟩ := smpInit_none env found
      rw [ran, PagesThere, found]
      refine iff_of_true ⟨by simp, ?_⟩ (by simp)
      rintro t ⟨⟩
      exact ⟨rfl, rfl, fun i => iff_of_false (not_not.2 rfl) Bool.false_ne_true⟩
  | some fp =>
      obtain ⟨as, -, ran⟩ := smpInit_some found
      rw [ran, PagesThere, found]
      simp only [Option.some.injEq, forall_eq']
      by_cases magic : startsWith env.firstMb (configurationTable env.firstMb fp) mpctMagic = true
      · rw [if_pos magic, smpInitTable_clean]
        exact (and_iff_right magic).symm
      · rw [if_neg magic]
        exact iff_of_false (not_clean_uncounted rfl) fun there => magic there.1

/-- A machine with one AP whose second allocation, the kernel page, fails. -/
def noKernel : Env :=
  let env := machine (processorEntry 0 3 ++ processorEntry 1 1)
  { env with page := fun n => if n = 1 then 0 else env.page n }

theorem smp_init_no_kernel : ¬Clean ((smpInit noKernel).run .initial) := by
  have computed : (match (smpInit noKernel).run .initial with
      | .ok false t => t.cpuCount == 0
      | _ => false) = true := by decide +kernel
  split at computed
  next t ran =>
      rw [ran]
      exact not_clean_uncounted (beq_iff_eq.1 computed)
  next => cases computed

end SmpVxd.Boot
