import SmpVxd.Protocol.IdleLock

/-!
# The placeholder takes its thread back

A placeholder that has read 0 from its lock word knows that the AP is done with the
thread. From then on the AP keeps the context until the BSP fetches it for this
thread, so the `reattach` that follows finds it, whatever else happens between.
-/

namespace SmpVxd

open Transition

/-- The thread that the operation in progress is about to take from its AP. -/
def Bsp.target : Bsp → Option Dword
  | .destroyLock tid _ | .destroyDiscard tid _ _ => some tid
  | .bspLock l | .bspTest l _ => some l.threadId
  | _ => none

/-- AP `i` is done with thread `tid` and keeps its context. -/
structure Delivered (tid : Dword) (i : Nat) (crs : Crs) (x : ExtState) (s : Sys) : Prop where
  value : s.value i = .cargo
  threadId : (s.ap i).threadId = tid
  procState : (s.ap i).procState = crs
  fpuState : (s.ap i).fpuState = x

/-- The context of thread `tid` is on the BSP. -/
structure Restored (cfg : Config) (tid : Dword) (x : ExtState) (s : Sys) : Prop where
  record : ∃ ts, s.tsHt.get tid = some ts ∧ ts.smpStatus = 0
  fpu : ∃ y, s.fpu = fpuRestore cfg.xsaveFlags cfg.noSysFxsave false x y

/-- `switch_to_bsp` for thread `tid` from AP `i` before and after it takes the context:
what it relies on at each of its statements. -/
def Bsp.returning (tid : Dword) (i : Nat) (crs : Crs) (delivered restored : Prop) : Bsp → Prop
  | .idle => True
  | .bspLock l | .bspTest l _ => l.threadId = tid ∧ l.cpu = i ∧ delivered
  | .incLoad l | .incStore l _ => l.crs = crs ∧ restored
  | .bspUnlock l _ rc => rc = true ∧ l.crs = crs ∧ restored
  | .restoreClient crs' rc => rc = true ∧ crs' = crs ∧ restored
  | _ => False

def Returning (cfg : Config) (tid : Dword) (i : Nat) (crs : Crs) (x : ExtState) (s : Sys) : Prop :=
  s.bsp.returning tid i crs (Delivered tid i crs x s) (Restored cfg tid x s)

/-- What happens while the placeholder of `tid` is about to execute `reattach`: the
thread is not destroyed, and the `reattach` is the next one that it executes. -/
def awaitsReattach (cfg : Config) (tid : Dword) (s : Sys) : Action → Bool
  | .call (.threadDestroy tid') => tid' ≠ tid
  | .call (.int3 crs) =>
      s.actTid ≠ tid || int3Target cfg.kernelFlat crs.clientEip ≠ .reattach
  | _ => true

variable {cfg : Config} {s t : Sys} {a : Action} {i j : Nat} {v w : Status}
variable {tid : Dword} {crs : Crs} {x : ExtState}

/-- An operation that is about to take a thread from its AP takes it from the AP that
hosts it. -/
theorem Consistent.target_threadId (inv : Consistent cfg s) {cpu : Nat}
    (hosted : s.tsHt.Hosted tid cpu) (leaving : s.bsp.leaving = none) :
    (s.ap cpu).threadId = tid := by
  obtain ⟨ts, found, one, rfl⟩ := hosted
  exact (inv.hosting_of_record leaving found (by rw [one]; decide)).2

theorem Delivered.congr (d : Delivered tid i crs x s) (value : t.value i = s.value i)
    (threadId : (t.ap i).threadId = (s.ap i).threadId)
    (procState : (t.ap i).procState = (s.ap i).procState)
    (fpuState : (t.ap i).fpuState = (s.ap i).fpuState) : Delivered tid i crs x t where
  value := value.trans d.value
  threadId := threadId.trans d.threadId
  procState := procState.trans d.procState
  fpuState := fpuState.trans d.fpuState

/-- The BSP finds `S_CARGO` in the word. -/
theorem Delivered.cargo_of_lock (d : Delivered tid i crs x s) (locks : Locks s)
    (lock : s.bsp.lock = some (i, v)) : v = .cargo := by
  rw [← d.value, locks.value_of_bsp (Bsp.held_of_lock lock)]

theorem BspStep.delivered (inv : Consistent cfg s) (d : Delivered tid i crs x s)
    (target : s.bsp.target ≠ some tid) (h : BspStep cfg s t) : Delivered tid i crs x t := by
  have ok := inv.ledger.bsp
  have busyElsewhere : ∀ l v, s.bsp = .apStore l v → l.cpu ≠ i := by
    rintro l v pc rfl
    have free := inv.free_of_apStore pc
    rw [d.value] at free
    cases free
  have value : t.value i = s.value i := by
    refine (h.value inv.locks i).resolve_right fun move => ?_
    have hosted : ∀ tid', s.bsp.target = some tid' → s.bsp.leaving = none →
        s.tsHt.Hosted tid' i → False := fun tid' this leaving hosted => by
      rw [← d.threadId, inv.target_threadId hosted leaving] at target
      exact target this
    generalize t.value i = v at move
    generalize s.value i = w at move
    generalize s.bsp = b at move ok hosted busyElsewhere
    cases move with
    | handOff l _ cpu => exact busyElsewhere l _ rfl cpu
    | takeBack l cpu =>
        subst cpu
        exact hosted l.threadId rfl rfl ok
    | discard tid' v => exact hosted tid' rfl rfl ok
  obtain same | ⟨l, v, pc, cpu, _⟩ := h.context i
  · exact d.congr value same.1 same.2.1 same.2.2
  · exact absurd cpu (busyElsewhere l v pc)

/-- The AP waits until the context is fetched. -/
theorem ApStep.delivered (inv : Consistent cfg s) (d : Delivered tid i crs x s) (h : ApStep i s t) :
    Delivered tid i crs x t := by
  refine d.congr ((h.value inv.locks).resolve_right fun move => ?_) h.frame.threadId
    h.context.1 h.context.2
  rw [d.value] at move
  exact move.of_cargo

/-- Only the operations on the thread itself take the context from the AP. -/
theorem Outcome.delivered (inv : Consistent cfg s) (engaged : Engaged s i)
    (d : Delivered tid i crs x s) (target : a = .bsp → s.bsp.target ≠ some tid)
    (h : Outcome cfg s a t) : Delivered tid i crs x t := by
  cases h with
  | call op t idle call =>
      exact d.congr (call.value idle i) (by rw [call.ap]) (by rw [call.ap]) (by rw [call.ap])
  | bsp t h => exact (bspStep_outcome h).delivered inv d (target rfl)
  | ap j now msClock t present h =>
      by_cases this : i = j
      · subst this
        exact h.delivered inv d
      · have others := h.frame.others i this
        exact d.congr (h.frame.value this) (by rw [others]) (by rw [others]) (by rw [others])
  | nmi j t present h =>
      have value := h.value i
      by_cases this : i = j
      · subst this
        have threadId := h.frame.threadId
        refine d.congr value threadId ?_ ?_
        · cases h <;> simp
        · cases h <;> simp
      · have others := h.frame.others i this
        exact d.congr value (by rw [others]) (by rw [others]) (by rw [others])
  | trap j trap u y tid' present pc =>
      have value := trap_value cfg pc trap u y i
      have ne : i ≠ j := by
        -- an AP that executes a context has not put it down
        rintro rfl
        have busy := engaged.value (by rw [pc]; rfl)
        rw [d.value] at busy
        rcases busy with busy | busy <;> cases busy
      have others := Sys.setAp_ne s j ((s.ap j).switchBack cfg trap u (trapSp cfg j) y) ne
      exact d.congr value (by rw [others]) (by rw [others]) (by rw [others])
  | compute y idle => exact d.congr rfl rfl rfl rfl
  | rebuildPd pageDir idle => exact d.congr rfl rfl rfl rfl

theorem LockAt.target {b : Bsp} {cpu : Nat} {next : Status → Bsp} (h : LockAt b cpu next)
    (v : Status) : (next v).target = b.target ∨ (next v).target = none := by
  cases h with
  | destroy tid cpu => exact .inl rfl
  | toAp l => exact .inl rfl
  | toBsp l => exact .inl rfl

theorem UnlockAt.target {b c : Bsp} {cpu : Nat} (h : UnlockAt b cpu v c) : c.target = none := by
  cases h <;> rfl

theorem switchToApReturn_target (l : ToAp) (rc : Bool) : (switchToApReturn l rc).target = none := by
  unfold switchToApReturn
  split <;> rfl

/-- An operation does not turn to another thread. -/
theorem BspStep.target (h : BspStep cfg s t) : t.bsp.target = s.bsp.target ∨ t.bsp.target = none := by
  cases h with
  | goto b h =>
      generalize s.bsp = c at h
      cases h with
      | noAp l _ => exact .inr (switchToApReturn_target l false)
      | _ => exact .inr rfl
  | startAp j pc _ _ => exact .inl rfl
  | awaitAp j pc => exact .inl rfl
  | spin cpu next at_ _ => exact .inl rfl
  | lock cpu next at_ _ => exact at_.target _
  | unlock cpu w b at_ => exact .inr at_.target
  | decStore l cnt pc => exact .inr (switchToApReturn_target l true)
  | switchIn curTid cbsNew pc =>
      refine .inr ?_
      rw [switchIn_bsp]
      rfl
  | _ => exact .inr rfl

theorem Outcome.target (h : Outcome cfg s a t) (awaits : awaitsReattach cfg tid s a = true)
    (before : s.bsp.target ≠ some tid) : t.bsp.target ≠ some tid := by
  cases h with
  | call op t idle call =>
      cases call with
      | create tid' page => exact before
      | elevate proc lockaddr mode => exact before
      | enter op b ht entry core =>
          change b.target ≠ some tid
          cases entry with
          | destroyHosted tid' ts _ _ => simpa [Bsp.target, awaitsReattach] using awaits
          | reattach crs ts target _ _ => simpa [Bsp.target, awaitsReattach, target] using awaits
          | _ => simp [Bsp.target]
  | bsp t h =>
      obtain same | none := (bspStep_outcome h).target
      · rwa [same]
      · simp [none]
  | ap j now msClock t present h => rwa [h.frame.bsp]
  | nmi j t present h => rwa [h.frame.bsp]
  | trap j trap u y tid' present pc => exact before
  | compute y idle => exact before
  | rebuildPd pageDir idle => exact before

theorem BspStep.delivered_still (inv : Consistent cfg s) (d : Delivered tid i crs x s)
    (still : s.bsp.moves = false) (h : BspStep cfg s t) : Delivered tid i crs x t := by
  obtain same | ⟨l, v, pc, _⟩ := h.context i
  · exact d.congr (h.value_same inv.locks still i) same.1 same.2.1 same.2.2
  · rw [pc] at still
    cases still

/-- A statement of `switch_to_bsp`, with the AP done with the thread. -/
theorem bspStep_returning (inv : Consistent cfg s) (h : bspStep cfg s = some t)
    (r : Returning cfg tid i crs x s) : Returning cfg tid i crs x t := by
  have out := bspStep_outcome h
  unfold Returning at r
  cases pc : s.bsp with
  | bspLock l =>
      rw [pc] at r
      have delivered := out.delivered_still inv r.2.2 (by rw [pc]; rfl)
      simp only [bspStep, pc, bspLock, Option.some.injEq] at h
      split at h
      · subst h
        rw [Returning, pc]
        exact r
      · subst h
        exact ⟨r.1, r.2.1, delivered⟩
  | bspTest l v =>
      rw [pc] at r
      obtain ⟨rfl, rfl, delivered⟩ := r
      obtain rfl := delivered.cargo_of_lock inv.locks (v := v) (by rw [pc]; rfl)
      obtain ⟨ts, found, _⟩ : s.tsHt.Hosted l.threadId l.cpu := by
        have ok := inv.ledger.bsp
        rwa [pc] at ok
      rw [bspStep_bspTest pc h]
      refine ⟨delivered.procState, ⟨ts.onBsp, ?_, rfl⟩, s.fpu, ?_⟩
      · simp only [takeBack, TsHt.get_modify_self, found, Option.map_some]
      · simp only [takeBack, delivered.fpuState]
  | incLoad l =>
      rw [pc] at r
      simp only [bspStep, pc, Option.some.injEq] at h
      subst h
      exact ⟨r.1, r.2.record, r.2.fpu⟩
  | incStore l cnt =>
      rw [pc] at r
      simp only [bspStep, pc, Option.some.injEq] at h
      subst h
      exact ⟨rfl, r.1, r.2.record, r.2.fpu⟩
  | bspUnlock l v rc =>
      rw [pc] at r
      simp only [bspStep, pc, Option.some.injEq] at h
      subst h
      exact ⟨r.1, r.2.1, r.2.2.record, r.2.2.fpu⟩
  | restoreClient crs' rc =>
      simp only [bspStep, pc, Option.some.injEq] at h
      subst h
      trivial
  | idle =>
      simp only [bspStep, pc] at h
      cases h
  | _ =>
      rw [pc] at r
      exact r.elim

theorem Bsp.returning_mono {b : Bsp} {delivered delivered' restored restored' : Prop}
    (h : b.returning tid i crs delivered restored) (ap : delivered → delivered')
    (bsp : restored → restored') : b.returning tid i crs delivered' restored' := by
  cases b with
  | idle => trivial
  | bspLock l => exact ⟨h.1, h.2.1, ap h.2.2⟩
  | bspTest l v => exact ⟨h.1, h.2.1, ap h.2.2⟩
  | incLoad l => exact ⟨h.1, bsp h.2⟩
  | incStore l cnt => exact ⟨h.1, bsp h.2⟩
  | bspUnlock l v rc => exact ⟨h.1, h.2.1, bsp h.2.2⟩
  | restoreClient crs' rc => exact ⟨h.1, h.2.1, bsp h.2.2⟩
  | _ => exact h

theorem Restored.congr (r : Restored cfg tid x s) (table : t.tsHt = s.tsHt) (fpu : t.fpu = s.fpu) :
    Restored cfg tid x t where
  record := table ▸ r.record
  fpu := fpu ▸ r.fpu

/-- The call of `switch_to_bsp` keeps its course, whatever the APs do meanwhile. -/
theorem Returning.step (inv : Consistent cfg s) (engaged : Engaged s i)
    (r : Returning cfg tid i crs x s) (called : s.bsp.isIdle = false) (h : Step cfg s a t) :
    Returning cfg tid i crs x t := by
  have busy : s.bsp ≠ .idle := fun idle => by
    rw [idle] at called
    cases called
  have out := h.outcome
  have ap (bsp : t.bsp = s.bsp) (table : t.tsHt = s.tsHt) (fpu : t.fpu = s.fpu) (other : a ≠ .bsp) :
      Returning cfg tid i crs x t := by
    rw [Returning, bsp]
    exact Bsp.returning_mono r (fun d => out.delivered inv engaged d fun this => absurd this other)
      fun restored => restored.congr table fpu
  cases out with
  | call op t idle call => exact absurd idle busy
  | bsp t h => exact bspStep_returning inv h r
  | ap j now msClock t present h => exact ap h.frame.bsp h.frame.tsHt h.frame.fpu (by simp)
  | nmi j t present h => exact ap h.frame.bsp h.frame.tsHt h.frame.fpu (by simp)
  | trap j trap u y tid' present pc => exact ap rfl rfl rfl (by simp)
  | compute y idle => exact absurd idle busy
  | rebuildPd pageDir idle => exact absurd idle busy

/-- The statements that `switch_to_bsp` still has to execute. -/
def Bsp.toBspRank : Bsp → Nat
  | .bspLock _ => 5
  | .bspTest _ _ => 4
  | .incLoad _ => 3
  | .incStore _ _ => 2
  | .bspUnlock _ _ _ => 1
  | _ => 0

/-- Once the word is free, or taken by the BSP itself, `switch_to_bsp` returns. -/
theorem Returning.finish (inv : Consistent cfg s) (r : Returning cfg tid i crs x s)
    (started : 0 < s.bsp.toBspRank) (free : ∀ l, s.bsp = .bspLock l → (s.ap i).status ≠ .busy) :
    ∃ n t, Run (Step cfg) s (List.replicate n .bsp) t ∧ t.bsp = .restoreClient crs true := by
  refine exists_run_replicate
    (P := fun s => Consistent cfg s ∧ Returning cfg tid i crs x s ∧ 0 < s.bsp.toBspRank ∧
      ∀ l, s.bsp = .bspLock l → (s.ap i).status ≠ .busy)
    (Q := fun s => s.bsp = .restoreClient crs true) (fun s => s.bsp.toBspRank) ?_
    ⟨inv, r, started, free⟩
  rintro s ⟨inv, r, started, free⟩
  have next {t : Sys} (h : bspStep cfg s = some t) (later : 0 < t.bsp.toBspRank)
      (ahead : ∀ l, t.bsp ≠ .bspLock l) (less : t.bsp.toBspRank < s.bsp.toBspRank) :
      ∃ t, Step cfg s .bsp t ∧ (t.bsp = .restoreClient crs true ∨
        (Consistent cfg t ∧ Returning cfg tid i crs x t ∧ 0 < t.bsp.toBspRank ∧
          ∀ l, t.bsp = .bspLock l → (t.ap i).status ≠ .busy) ∧
        t.bsp.toBspRank < s.bsp.toBspRank) := by
    have taken : Step cfg s .bsp t := h
    exact ⟨t, taken, .inr ⟨⟨inv.step taken, bspStep_returning inv h r, later,
      fun l pc => absurd pc (ahead l)⟩, less⟩⟩
  cases pc : s.bsp with
  | bspLock l =>
      have free := free l pc
      rw [Returning, pc] at r
      obtain ⟨rfl, rfl, _⟩ := r
      rw [← pc]
      refine next (t := { s.setAp l.cpu { s.ap l.cpu with status := .busy } with
        bsp := .bspTest l (s.ap l.cpu).status }) ?_ (by simp [Bsp.toBspRank]) (by simp)
        (by simp [pc, Bsp.toBspRank])
      simp only [bspStep, pc, bspLock, if_neg free]
  | bspTest l v =>
      have delivered := (show Returning cfg tid i crs x s from r)
      rw [Returning, pc] at delivered
      obtain ⟨rfl, rfl, delivered⟩ := delivered
      obtain rfl := delivered.cargo_of_lock inv.locks (v := v) (by rw [pc]; rfl)
      rw [← pc]
      refine next (t := takeBack cfg s l) ?_ (by simp [takeBack, Bsp.toBspRank])
        (by simp [takeBack]) (by simp [takeBack, pc, Bsp.toBspRank])
      simp only [bspStep, pc, if_true]
  | incLoad l =>
      rw [← pc]
      refine next (t := { s with bsp := .incStore l s.apFreeCnt }) ?_ (by simp [Bsp.toBspRank])
        (by simp) (by simp [pc, Bsp.toBspRank])
      simp only [bspStep, pc]
  | incStore l cnt =>
      rw [← pc]
      refine next (t := { s with apFreeCnt := cnt + 1, bsp := .bspUnlock l .ready true }) ?_
        (by simp [Bsp.toBspRank]) (by simp) (by simp [pc, Bsp.toBspRank])
      simp only [bspStep, pc]
  | bspUnlock l v rc =>
      rw [Returning, pc] at r
      obtain ⟨rfl, rfl, _⟩ := r
      refine ⟨bspUnlock s l.cpu v (.restoreClient l.crs true), ?_, .inl rfl⟩
      change bspStep cfg s = some _
      simp only [bspStep, pc]
  | _ =>
      rw [pc] at started
      cases started

/-- The `reattach` of a thread that its AP is done with. -/
theorem Delivered.reattach (inv : Consistent cfg s) (d : Delivered tid i crs x s)
    (current : s.actTid = tid) {client : Crs}
    (target : int3Target cfg.kernelFlat client.clientEip = .reattach)
    (h : Step cfg s (.call (.int3 client)) t) : Returning cfg tid i crs x t := by
  obtain ⟨ts, found, one, apid, _⟩ := inv.record_of_hosting (i := i) (by rw [d.value]; rfl)
  rw [d.threadId, ← current] at found
  cases h.outcome with
  | call op t idle call =>
      have delivered : Delivered tid i crs x t :=
        d.congr (call.value idle i) (by rw [call.ap]) (by rw [call.ap]) (by rw [call.ap])
      cases call with
      | enter op b ht entry core =>
          cases entry with
          | reattach client ts' _ found' status =>
              cases found.symm.trans found'
              exact ⟨current, apid, delivered⟩
          | reattachRefused client _ home =>
              rw [home ts found] at one
              cases one
          | fly client ts' other _ _ _ => cases target.symm.trans other
          | flyRefused client other => cases target.symm.trans other
          | otherInt3 client other => cases target.symm.trans other

/-- The call of `switch_to_bsp` returns: the AP gives the word back if it has it, and
then the BSP takes it. -/
theorem Returning.returns (inv : Consistent cfg s) (r : Returning cfg tid i crs x s)
    (called : s.bsp.isIdle = false) :
    ∃ n m t, Run (Step cfg) s (List.replicate n (.ap i 0 0) ++ List.replicate m .bsp) t ∧
      t.bsp = .restoreClient crs true := by
  by_cases started : 0 < s.bsp.toBspRank
  · by_cases held : ∃ l v, s.bsp = .bspLock l ∧ (s.ap i).pc.held = some v
    · obtain ⟨l, v, pc, held⟩ := held
      have now := r
      rw [Returning, pc] at now
      obtain ⟨rfl, rfl, delivered⟩ := now
      obtain ⟨ts, found, one, apid, _⟩ :=
        inv.record_of_hosting (i := l.cpu) (by rw [delivered.value]; rfl)
      have present : cfg.present l.cpu = true :=
        TsHt.Hosted.present ⟨ts, found, one, apid⟩ inv.ledger.records
      have running : (s.ap l.cpu).pc ≠ .off := fun off => by
        have value := delivered.value
        rw [value_of_ap (v := .ready) (by rw [off]; rfl)] at value
        cases value
      obtain ⟨n, u, first, free, inv', pc', delivered'⟩ := inv.ap_release
        (K := fun u => u.bsp = .bspLock l ∧ Delivered l.threadId l.cpu crs x u)
        (fun s t inv kept step => ⟨step.frame.bsp.trans kept.1, step.delivered inv kept.2⟩)
        present running held ⟨pc, delivered⟩
      have r' : Returning cfg l.threadId l.cpu crs x u := by
        rw [Returning, pc']
        exact ⟨rfl, rfl, delivered'⟩
      obtain ⟨m, t, second, done⟩ := r'.finish inv' (by simp [pc', Bsp.toBspRank]) fun _ _ => free
      exact ⟨n, m, t, first.append second, done⟩
    · have free : ∀ l, s.bsp = .bspLock l → (s.ap i).status ≠ .busy := by
        intro l pc busy
        obtain ⟨agent, v, owner⟩ := (inv.locks i).held_of_busy busy
        cases agent with
        | ap => exact held ⟨l, v, pc, owner⟩
        | bsp =>
            rw [show (s.word i).held .bsp = s.bsp.held i from rfl, pc] at owner
            cases owner
      obtain ⟨m, t, run, done⟩ := r.finish inv started free
      exact ⟨0, m, t, run, done⟩
  · -- only `Restore_Client_State` is left
    refine ⟨0, 0, s, .nil s, ?_⟩
    cases pc : s.bsp with
    | restoreClient crs' rc =>
        rw [Returning, pc] at r
        rw [r.1, r.2.1]
    | idle =>
        rw [pc] at called
        cases called
    | bspLock | bspTest | incLoad | incStore | bspUnlock =>
        exact absurd (by simp [pc, Bsp.toBspRank]) started
    | _ =>
        rw [Returning, pc] at r
        exact r.elim

/-- The lock word of a thread on an AP is 1 while the AP has still work to do for it and
0 when it is done; and a placeholder that reads 0 takes its thread back with its next
`reattach`, whatever the machine does between, unless the thread is destroyed. -/
theorem idle_lock_handshake {as : List Action}
    (run : Run (restrict (Step cfg) fun s a => ownLocks s a = true) (initialised cfg) as s) :
    (∀ i, (s.ap i).status.hosting = true →
      ∃ ts, s.tsHt.get (s.ap i).threadId = some ts ∧ ts.smpStatus = 1 ∧ ts.smpApid = i ∧
        s.mem ts.smpBspIdleLock = if (s.ap i).status = .cargo then 0 else 1) ∧
    ∀ ts, s.tsHt.Live ts → ts.smpStatus = 1 → s.bsp = .idle → s.mem ts.smpBspIdleLock = 0 →
      ∀ as₁ s₁ client s₂ as₂ s₃,
        Run (restrict (Step cfg) fun s a => awaitsReattach cfg ts.tid s a = true) s as₁ s₁ →
        s₁.actTid = ts.tid → int3Target cfg.kernelFlat client.clientEip = .reattach →
        Step cfg s₁ (.call (.int3 client)) s₂ →
        Run (restrict (Step cfg) fun s _ => s.bsp.isIdle = false) s₂ as₂ s₃ →
        (∀ crs rc, s₃.bsp = .restoreClient crs rc →
          rc = true ∧ crs = (s.ap ts.smpApid).procState ∧
            Restored cfg ts.tid (s.ap ts.smpApid).fpuState s₃) ∧
        (s₃.bsp.isIdle = false → ∃ n m t,
          Run (Step cfg) s₃
            (List.replicate n (.ap ts.smpApid 0 0) ++ List.replicate m .bsp) t ∧
          t.bsp = .restoreClient (s.ap ts.smpApid).procState true) := by
  have sound : Sound cfg s := run.of_restrict.invariant
    (fun _ _ _ sound step => sound.step step) sound_initialised
  have handshake : Handshake s := (run.invariant_with (P := Handshake)
    (fun _ _ _ sound step => Sound.step sound step.2)
    (fun _ _ _ sound handshake step => handshake.step sound.consistent step.1 step.2)
    sound_initialised handshake_initialised).2
  refine ⟨fun i hosting => ?_, fun ts live one idle zero as₁ s₁ client s₂ as₂ s₃ wait current
    target call return_ => ?_⟩
  · have free : (s.ap i).status ≠ .busy := by
      intro busy
      rw [busy] at hosting
      cases hosting
    have value := sound.consistent.locks.value_of_free free
    rw [← value] at hosting ⊢
    obtain ⟨ts, found, one, apid, _⟩ := sound.consistent.record_of_hosting hosting
    exact ⟨ts, found, one, apid, handshake.word i ts hosting found⟩
  · have found := TsHt.live_iff.mp live
    obtain ⟨hosting, threadId⟩ := sound.consistent.hosting_of_record (by rw [idle]; rfl) found
      (by rw [one]; decide)
    -- the AP is done with the thread
    have delivered : Delivered ts.tid ts.smpApid (s.ap ts.smpApid).procState
        (s.ap ts.smpApid).fpuState s := by
      refine ⟨?_, threadId, rfl, rfl⟩
      have word := handshake.word ts.smpApid ts hosting (threadId ▸ found)
      rw [zero] at word
      by_contra other
      rw [if_neg other] at word
      cases word
    obtain ⟨sound₁, delivered₁, _⟩ : Sound cfg s₁ ∧ Delivered ts.tid ts.smpApid
        (s.ap ts.smpApid).procState (s.ap ts.smpApid).fpuState s₁ ∧ s₁.bsp.target ≠ some ts.tid := by
      refine wait.invariant (P := fun u => Sound cfg u ∧ Delivered ts.tid ts.smpApid
        (s.ap ts.smpApid).procState (s.ap ts.smpApid).fpuState u ∧ u.bsp.target ≠ some ts.tid) ?_
        ⟨sound, delivered, by rw [idle]; simp [Bsp.target]⟩
      rintro s a t ⟨sound, d, away⟩ ⟨awaits, step⟩
      exact ⟨sound.step step,
        step.outcome.delivered sound.consistent (sound.engaged _) d fun _ => away,
        step.outcome.target awaits away⟩
    have returning₂ := delivered₁.reattach sound₁.consistent current target call
    have returned := return_.invariant
      (P := fun u => Sound cfg u ∧ Returning cfg ts.tid ts.smpApid (s.ap ts.smpApid).procState
        (s.ap ts.smpApid).fpuState u) ?_ ⟨sound₁.step call, returning₂⟩
    rotate_left
    · rintro s a t ⟨sound, r⟩ ⟨called, step⟩
      exact ⟨sound.step step, r.step sound.consistent (sound.engaged _) called step⟩
    obtain ⟨sound₃, returning₃⟩ := returned
    refine ⟨fun crs rc pc => ?_, returning₃.returns sound₃.consistent⟩
    rw [Returning, pc] at returning₃
    exact returning₃

/-- The client registers after the breakpoint of `reattach`. -/
def reattachClient : Crs := { Crs.zero with clientEip := 0xC100050A }

/-- `switch_to_bsp` finds the word of the AP taken, and waits for it. -/
def reattachSteps : List Action := [.bsp, .ap 1 0 0] ++ List.replicate 5 .bsp

def Bsp.restores : Bsp → Bool
  | .restoreClient _ _ => true
  | _ => false

theorem idle_lock_handshake_reattach :
    ∃ s s₂ s₃, Run (restrict (Step oneAp) fun s a => ownLocks s a = true) (initialised oneAp)
        (notification ++ [.ap 1 0 0]) s ∧
      s.mem 0x9000 = 0 ∧ Step oneAp s (.call (.int3 reattachClient)) s₂ ∧
      Run (restrict (Step oneAp) fun s _ => s.bsp.isIdle = false) s₂ reattachSteps s₃ ∧
      s₃.bsp = .restoreClient (s.ap 1).procState true := by
  have computed : (exec (guard (step oneAp) ownLocks) (initialised oneAp)
      (notification ++ [.ap 1 0 0])).any (fun s => s.mem 0x9000 = 0 && s.bsp.isIdle &&
        s.actTid = 5 && (s.tsHt.get 5).any (fun ts => ts.smpStatus = 1 && ts.smpApid = 1 &&
          ts.smpBspIdleLock = 0x9000) &&
        (step oneAp s (.call (.int3 reattachClient))).any fun s₂ =>
          (exec (guard (step oneAp) fun s _ => !s.bsp.isIdle) s₂ reattachSteps).any
            (·.bsp.restores)) = true := by
    decide +kernel
  obtain ⟨s, run, checked⟩ := exists_run_restrict computed
  simp only [Bool.and_eq_true, decide_eq_true_eq, Bsp.isIdle_iff, Option.any_eq_true] at checked
  obtain ⟨⟨⟨⟨zero, idle⟩, current⟩, ts, found, ⟨one, apid⟩, lock⟩, s₂, call, computed'⟩ := checked
  obtain ⟨s₃, return_, restores⟩ :=
    exists_run_restrict ((Option.any_eq_true _ _).mpr computed')
  have tid := TsHt.get_tid found
  obtain ⟨taken, _⟩ := (idle_lock_handshake run).2 ts (TsHt.live_iff.mpr (tid ▸ found)) one idle
    (lock ▸ zero) [] s reattachClient s₂ reattachSteps s₃ (.nil s) (current.trans tid.symm) (by decide)
    call (return_.mono fun _ _ _ step => ⟨by simpa using step.1, step.2⟩)
  refine ⟨s, s₂, s₃, run, zero, call,
    return_.mono fun _ _ _ step => ⟨by simpa using step.1, step.2⟩, ?_⟩
  cases pc : s₃.bsp with
  | restoreClient crs rc =>
      obtain ⟨rfl, rfl, _⟩ := taken crs rc pc
      rw [apid]
  | _ =>
      rw [pc] at restores
      cases restores

end SmpVxd
