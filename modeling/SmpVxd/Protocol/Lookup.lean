import SmpVxd.System.Shared

/-!
# Looking a thread up while the table changes

`Device_Thread_Destroy` takes the word of the AP that hosts the thread, but the records
of other threads in the same chain are unlinked and freed while APs walk over them. An
AP that stands at an unlinked record still gets on to its thread, as long as the page
is not freed before it has read the next pointer.
-/

namespace SmpVxd

open Heap Transition

/-! ## The chains of the table -/

namespace TsHt

/-- The chain of a bucket, as far as walks read it. -/
def entries (ht : TsHt) (b : Nat) : List (Dword × Dword) := (ht.chain b).map fun ts => (ts.addr, ts.tid)

variable {ht : TsHt} {tid page : Dword} {before after : List (Dword × Dword)}

theorem mem_entries_of_get {ts : TsThread} (found : ht.get tid = some ts) :
    (ts.addr, tid) ∈ ht.entries (tsHash tid) := by
  have tid_eq := get_tid found
  have member := List.mem_map_of_mem (f := fun ts : TsThread => (ts.addr, ts.tid)) (chainFind_mem found)
  rwa [tid_eq] at member

theorem mem_entries_of_live {ts : TsThread} (live : ht.Live ts) :
    (ts.addr, ts.tid) ∈ ht.entries (tsHash ts.tid) :=
  mem_entries_of_get (live_iff.mp live)

/-- An id occurs once in its chain. -/
theorem get_of_mem_entries {p : Dword} (member : (p, tid) ∈ ht.entries (tsHash tid)) :
    ∃ ts, ht.get tid = some ts ∧ ts.addr = p := by
  obtain ⟨ts, here, same⟩ := List.mem_map.mp member
  obtain ⟨rfl, rfl⟩ := Prod.mk.inj same
  exact ⟨ts, live_iff.mp ⟨_, here⟩, rfl⟩

theorem entries_modify {f : TsThread → TsThread} (keeps : ∀ t, (f t).tid = t.tid)
    (addr : ∀ t, (f t).addr = t.addr) : (ht.modify tid f keeps).entries = ht.entries := by
  funext b
  simp only [entries, modify]
  by_cases same : b = tsHash tid
  · subst same
    rw [Function.update_self, chainModify, List.map_map]
    refine List.map_congr_left fun ts _ => ?_
    dsimp only [Function.comp_apply]
    split
    · rw [addr, keeps]
    · rfl
  · rw [Function.update_of_ne same]

theorem entries_create (new : tid ∉ (ht.entries (tsHash tid)).map Prod.snd) :
    (ht.create (some page) tid).entries =
      Function.update ht.entries (tsHash tid) (ht.entries (tsHash tid) ++ [(page, tid)]) := by
  have absent : ∀ t ∈ ht.chain (tsHash tid), t.tid ≠ (TsThread.new page tid).tid := by
    intro t member same
    refine new ?_
    rw [entries, List.map_map]
    exact List.mem_map.mpr ⟨t, member, same⟩
  funext b
  simp only [entries, create]
  by_cases same : b = tsHash tid
  · subst same
    rw [Function.update_self, Function.update_self, chainInsert_of_new absent, List.map_append]
    rfl
  · rw [Function.update_of_ne same, Function.update_of_ne same]
    rfl

theorem chainRemove_entries {chain : List TsThread} {entry : TsThread → Dword × Dword}
    (snd : ∀ ts, (entry ts).2 = ts.tid) {q : Dword} (split : chain.map entry = before ++ (q, tid) :: after)
    (first : tid ∉ before.map Prod.snd) : (chainRemove tid chain).map entry = before ++ after := by
  induction before generalizing chain with
  | nil =>
      obtain ⟨ts, rest, rfl, here, behind⟩ := List.map_eq_cons_iff.mp split
      have same : ts.tid = tid := by rw [← snd, here]
      rw [chainRemove, if_pos same, behind]
      rfl
  | cons e front ih =>
      obtain ⟨ts, rest, rfl, here, behind⟩ := List.map_eq_cons_iff.mp split
      rw [List.map_cons, List.mem_cons, not_or] at first
      have other : ts.tid ≠ tid := by
        intro same
        exact first.1 (by rw [← here, snd, same])
      rw [chainRemove, if_neg other, List.map_cons, ih behind first.2, here]
      rfl

theorem entries_destroy {q : Dword} (split : ht.entries (tsHash tid) = before ++ (q, tid) :: after)
    (first : tid ∉ before.map Prod.snd) :
    (ht.destroy tid).entries = Function.update ht.entries (tsHash tid) (before ++ after) := by
  funext b
  simp only [entries, destroy]
  by_cases same : b = tsHash tid
  · subst same
    rw [Function.update_self, Function.update_self]
    exact chainRemove_entries (fun _ => rfl) split first
  · rw [Function.update_of_ne same, Function.update_of_ne same]
    rfl

theorem entries_destroy_absent (absent : tid ∉ (ht.entries (tsHash tid)).map Prod.snd) :
    (ht.destroy tid).entries = ht.entries := by
  funext b
  simp only [entries, destroy]
  by_cases same : b = tsHash tid
  · subst same
    rw [Function.update_self, chainRemove_of_absent]
    intro t member same
    refine absent ?_
    rw [entries, List.map_map]
    exact List.mem_map.mpr ⟨t, member, same⟩
  · rw [Function.update_of_ne same]

end TsHt

section Machine

variable {cfg : Config} {s t : Sys} {a : Action} {i : Nat}

theorem saveOld_entries (oldTid : Dword) (cbs : Tcb) :
    (saveOld cfg s oldTid cbs).entries = s.tsHt.entries := by
  simp only [saveOld]
  split
  · exact TsHt.entries_modify _ fun _ => rfl
  · rfl

theorem bspCall_entries {op : BspOp} (notCreate : ∀ tid page, op ≠ .threadInit tid (some page)) :
    (bspCall cfg s op).tsHt.entries = s.tsHt.entries := by
  cases op with
  | threadInit tid page =>
      cases page with
      | none => rfl
      | some page => exact absurd rfl (notCreate tid page)
  | threadDestroy tid =>
      simp only [bspCall]
      split
      · split <;> rfl
      · rfl
  | smpElevate proc lockaddr mode =>
      simp only [bspCall, smpElevate]
      exact TsHt.entries_modify _ fun ts => by split <;> rfl
  | threadSwitch curTid oldTid cbsNew cbsOld =>
      simp only [bspCall, threadSwitch]
      split
      · rfl
      · split
        · exact saveOld_entries oldTid cbsOld
        · exact saveOld_entries oldTid cbsOld
  | int3 crs =>
      change (callbackInt3 cfg s crs).tsHt.entries = s.tsHt.entries
      rw [callbackInt3_tsHt]
  | pageFault =>
      simp only [bspCall]
      exact TsHt.entries_modify _ fun _ => rfl

/-- Only `ts_thread_create` and `ts_thread_destroy` change chains. -/
theorem Step.entries (h : Step cfg s a t) (notCreate : ∀ tid page, a ≠ .call (.threadInit tid (some page)))
    (notDestroy : a = .bsp → ∀ tid, s.bsp ≠ .destroyFree tid) : t.tsHt.entries = s.tsHt.entries := by
  cases h.outcome with
  | call op t idle call =>
      have taken : bspCall cfg s op = t := by
        have h : step cfg s (.call op) = some t := h
        simpa [step, idle] using h
      rw [← taken]
      exact bspCall_entries fun tid page same => notCreate tid page (congrArg _ same)
  | bsp t h =>
      cases bspStep_outcome h with
      | free tid pc => exact absurd pc (notDestroy rfl tid)
      | handOff l v ts pc found => exact TsHt.entries_modify (TsThread.onAp_tid l.cpu) fun _ => rfl
      | takeBack l pc => exact TsHt.entries_modify TsThread.onBsp_tid fun _ => rfl
      | switchIn curTid cbsNew pc =>
          simp only [switchIn]
          split
          · rfl
          · exact TsHt.entries_modify (fun _ => by rfl) fun _ => rfl
      | _ => rfl
  | ap i now msClock t present h => rw [h.frame.tsHt]
  | nmi i t present h => rw [h.frame.tsHt]
  | _ => rfl

/-- An AP in the case `S_RUNNING` stays there, with its thread, while others go on. -/
theorem Step.running (inv : Consistent cfg s) (h : Step cfg s a t) (pc : (s.ap i).pc = .switch .running)
    (others : ∀ now msClock, a ≠ .ap i now msClock) :
    (t.ap i).pc = .switch .running ∧ (t.ap i).threadId = (s.ap i).threadId := by
  have frame {j : Nat} (h : ApFrame j s t) (ne : i ≠ j) :
      (t.ap i).pc = .switch .running ∧ (t.ap i).threadId = (s.ap i).threadId := by
    rw [h.others i ne]
    exact ⟨pc, rfl⟩
  cases h.outcome with
  | call op t idle call =>
      rw [call.ap]
      exact ⟨pc, rfl⟩
  | bsp t h =>
      have step := bspStep_outcome h
      refine ⟨?_, ?_⟩
      · obtain same | ⟨off, -⟩ := step.pc i
        · rw [same, pc]
        · cases pc.symm.trans off
      · obtain same | ⟨l, v, store, rfl, -⟩ := step.threadId i
        · exact same
        · have free := inv.free_of_apStore store
          rw [value_of_ap (by rw [pc]; rfl)] at free
          cases free
  | ap j now msClock t present h =>
      refine frame h.frame ?_
      rintro rfl
      exact others now msClock rfl
  | nmi j t present h =>
      by_cases same : i = j
      · subst same
        cases h with
        | wake _ halted => cases pc.symm.trans halted
        | dummy _ _ => simpa using pc
      · exact frame h.frame same
  | trap j trap u x tid present ring3 =>
      refine frame (trap_frame cfg s j trap u x) ?_
      rintro rfl
      cases pc.symm.trans ring3
  | compute x idle => exact ⟨pc, rfl⟩
  | rebuildPd pageDir idle => exact ⟨pc, rfl⟩

/-- The thread of an AP in the case `S_RUNNING` has its record in the table, and that
record is not the one that `Device_Thread_Destroy` frees. -/
theorem Consistent.hosted_running (inv : Consistent cfg s) (pc : (s.ap i).pc = .switch .running) :
    (∃ ts, s.tsHt.get (s.ap i).threadId = some ts) ∧
      ∀ tid, s.bsp = .destroyFree tid → (s.ap i).threadId ≠ tid := by
  have hosting : (s.value i).hosting = true := by
    rw [value_of_ap (by rw [pc]; rfl)]
    rfl
  obtain ⟨ts, found, -⟩ := inv.record_of_hosting hosting
  refine ⟨⟨ts, found⟩, fun tid leaving => inv.not_leaving hosting ?_⟩
  rw [leaving]
  rfl

end Machine

/-! ## The invariant -/

namespace Shared

/-- The local `tindex` of a table function: the records before it have other ids. -/
def Reached (s : Shared) (tid : Dword) (tindex : Link Nat Dword) : Prop :=
  ∃ before after, s.sys.tsHt.entries (tsHash tid) = before ++ after ∧
    tindex = linkAfter (tsHash tid) before ∧ tid ∉ before.map Prod.snd

/-- What a table function in progress may rely on. -/
def OpOk (s : Shared) : TableOp → Prop
  | .createWalk tid page tindex =>
      s.sys.bsp = .idle ∧ Unused s.sys.tsHt.entries page ∧ s.links.cell page = some ⟨tid, none⟩ ∧
        s.Reached tid tindex
  | .destroyWalk tid tindex => s.sys.bsp = .destroyFree tid ∧ s.Reached tid tindex
  | .pageFree page => Unused s.sys.tsHt.entries page

/-- The thread that the AP hosts, and the chain that it looks the thread up in. -/
def hosted (s : Shared) (i : Nat) : Dword := (s.sys.ap i).threadId

def chain (s : Shared) (i : Nat) : List (Dword × Dword) := s.sys.tsHt.entries (tsHash (s.hosted i))

/-- A record that was unlinked and is about to be freed still leads to the thread. -/
def Leaving (s : Shared) (i : Nat) (p : Dword) : Prop :=
  s.op = some (.pageFree p) ∧
    ∃ c, s.links.cell p = some c ∧ c.key ≠ s.hosted i ∧ Ahead (s.chain i) (s.hosted i) c.next

def WalkOk (s : Shared) (i : Nat) : Walk → Prop
  | .test p => Ahead (s.chain i) (s.hosted i) p ∨ ∃ q, p = some q ∧ s.Leaving i q
  | .next p =>
      (∃ c, s.links.cell p = some c ∧ c.key ≠ s.hosted i) ∧
        (Ahead (s.chain i) (s.hosted i) (some p) ∨ s.Leaving i p)
  | .ret p => (p, s.hosted i) ∈ s.chain i

end Shared

/-- The chains in memory are those of the table, and every walk is ahead of its thread. -/
structure Shared.Ok (cfg : Config) (s : Shared) : Prop where
  sound : Sound cfg s.sys
  links : Represents s.links s.sys.tsHt.entries
  op : ∀ o, s.op = some o → s.OpOk o
  running : ∀ i w, s.walk i = some w → cfg.present i = true ∧ (s.sys.ap i).pc = .switch .running
  walk : ∀ i w, s.walk i = some w → s.WalkOk i w

/-- No page is freed at which an AP stands. -/
def keepsWalked (cfg : Config) (s : Shared) : SharedAction → Bool
  | .table => match s.op with
      | some (.pageFree page) => decide (∀ i ∈ cfg.slots, s.reads i ≠ some page)
      | _ => true
  | _ => true

namespace Shared

variable {cfg : Config} {s t : Shared} {i : Nat} {tid page p : Dword} {w : Walk}

/-- Walks depend on the chains, on the threads of the APs and on the keys of the cells. -/
theorem WalkOk.congr (ok : s.WalkOk i w) (entries : t.sys.tsHt.entries = s.sys.tsHt.entries)
    (threadId : (t.sys.ap i).threadId = (s.sys.ap i).threadId) (links : t.links = s.links)
    (op : ∀ p, s.Leaving i p → t.op = s.op) : t.WalkOk i w := by
  have tid : t.hosted i = s.hosted i := threadId
  have chain : t.chain i = s.chain i := by rw [Shared.chain, tid, entries]; rfl
  have leaving (q : Dword) (h : s.Leaving i q) : t.Leaving i q := by
    obtain ⟨c, found, other, ahead⟩ := h.2
    exact ⟨(op q h).trans h.1, c, by rw [links, found], by rwa [tid], by rwa [tid, chain]⟩
  cases w with
  | test p =>
      refine ok.imp (fun ahead => ?_) ?_
      · rwa [tid, chain]
      · rintro ⟨q, same, h⟩
        exact ⟨q, same, leaving q h⟩
  | next p =>
      obtain ⟨⟨c, found, other⟩, stands⟩ := ok
      refine ⟨⟨c, by rw [links, found], by rwa [tid]⟩, stands.imp (fun ahead => ?_) (leaving p)⟩
      rwa [tid, chain]
  | ret p =>
      change (p, t.hosted i) ∈ t.chain i
      rwa [tid, chain]

/-- While nothing is being freed, a walk stands in its chain. -/
theorem WalkOk.ahead (ok : s.WalkOk i w) (op : ∀ p, s.op ≠ some (.pageFree p)) :
    match w with
    | .test p => Ahead (s.chain i) (s.hosted i) p
    | .next p => (∃ c, s.links.cell p = some c ∧ c.key ≠ s.hosted i) ∧ Ahead (s.chain i) (s.hosted i) (some p)
    | .ret p => (p, s.hosted i) ∈ s.chain i := by
  cases w with
  | test p =>
      refine ok.resolve_right ?_
      rintro ⟨q, _, leaving⟩
      exact op q leaving.1
  | next p => exact ⟨ok.1, ok.2.resolve_right fun leaving => op p leaving.1⟩
  | ret p => exact ok

/-- A statement that leaves the machine and the cells alone. -/
theorem Ok.goto (ok : s.Ok cfg) (o : Option TableOp) (before : ∀ p, s.op ≠ some (.pageFree p))
    (opOk : ∀ o', o = some o' → ({ s with op := o } : Shared).OpOk o') : ({ s with op := o } : Shared).Ok cfg where
  sound := ok.sound
  links := ok.links
  op := opOk
  running := ok.running
  walk i w here := (ok.walk i w here).congr rfl rfl rfl fun p leaving => absurd leaving.1 (before p)

theorem OpOk.congr {o : TableOp} (ok : s.OpOk o) (entries : t.sys.tsHt.entries = s.sys.tsHt.entries)
    (bsp : t.sys.bsp = s.sys.bsp) (links : t.links = s.links) : t.OpOk o := by
  cases o with
  | createWalk tid page tindex =>
      simp only [OpOk, Reached, entries, bsp, links] at ok ⊢
      exact ok
  | destroyWalk tid tindex =>
      simp only [OpOk, Reached, entries, bsp] at ok ⊢
      exact ok
  | pageFree page =>
      simp only [OpOk, entries] at ok ⊢
      exact ok

/-- While a table function runs, the other actions leave the BSP where it is. -/
theorem permits_bsp {a : Action} {sys : Sys} (permitted : s.permits a = true) (busy : s.op ≠ none)
    (step : Step cfg s.sys a sys) : sys.bsp = s.sys.bsp := by
  have blocked : s.op.isNone = false := by
    cases op : s.op with
    | none => exact absurd op busy
    | some o => rfl
  cases step.outcome with
  | call op t idle call =>
      cases op with
      | threadInit tid page => cases page <;> simp [permits, blocked] at permitted
      | _ => simp [permits, blocked] at permitted
  | bsp t h => simp [permits, blocked] at permitted
  | ap j now msClock t present h => exact h.frame.bsp
  | nmi j t present h => exact h.frame.bsp
  | trap j trap u x tid present pc => rfl
  | compute x idle => simp [permits, blocked] at permitted
  | rebuildPd pageDir idle => simp [permits, blocked] at permitted

theorem Ok.sys (ok : s.Ok cfg) {a : Action} {sys : Sys} (permitted : s.permits a = true)
    (step : Step cfg s.sys a sys) : ({ s with sys := sys } : Shared).Ok cfg := by
  have entries : sys.tsHt.entries = s.sys.tsHt.entries := by
    refine step.entries ?_ ?_
    · rintro tid page rfl
      cases permitted
    · rintro rfl tid destroying
      simp [permits, destroying] at permitted
  have stays : ∀ i w, s.walk i = some w →
      (sys.ap i).pc = .switch .running ∧ (sys.ap i).threadId = (s.sys.ap i).threadId := by
    intro i w here
    refine step.running ok.sound.consistent (ok.running i w here).2 ?_
    rintro now msClock rfl
    simp [permits, (ok.running i w here).2] at permitted
  exact {
    sound := ok.sound.step step
    links := entries ▸ ok.links
    op := fun o here => by
      have busy : s.op ≠ none := by
        rw [show s.op = some o from here]
        simp
      exact (ok.op o here).congr entries (permits_bsp permitted busy step) rfl
    running := fun i w here => ⟨(ok.running i w here).1, (stays i w here).1⟩
    walk := fun i w here => (ok.walk i w here).congr entries (stays i w here).2 rfl fun _ _ => rfl }

/-- A cell of a chain is allocated. -/
theorem Ok.unused (ok : s.Ok cfg) (free : s.links.cell page = none) : Unused s.sys.tsHt.entries page := by
  intro b member
  obtain ⟨⟨q, k⟩, here, rfl⟩ := List.mem_map.mp member
  obtain ⟨before, after, split⟩ := List.append_of_mem here
  cases free.symm.trans (ok.links.cell_eq split)

/-- `ts_thread_create` prepares a record that nobody else knows. -/
theorem Ok.create (ok : s.Ok cfg) (quiet : s.op = none) (idle : s.sys.bsp = .idle)
    (free : s.links.cell page = none) :
    ({ s with
      links := s.links.setCell page (some ⟨tid, none⟩)
      op := some (.createWalk tid page (.head (tsHash tid))) } : Shared).Ok cfg where
  sound := ok.sound
  links := ok.links.setCell (ok.unused free) _
  op o here := by
    cases here
    exact ⟨idle, ok.unused free, Function.update_self .., [], _, rfl, rfl, List.not_mem_nil⟩
  running := ok.running
  walk i w here := by
    have before := (ok.walk i w here).ahead fun p => by simp [quiet]
    cases w with
    | test p => exact .inl before
    | next p =>
        obtain ⟨⟨c, found, other⟩, ahead⟩ := before
        refine ⟨⟨c, ?_, other⟩, .inl ahead⟩
        refine (Function.update_of_ne ?_ ..).trans found
        rintro rfl
        cases free.symm.trans found
    | ret p => exact before

/-- A store of a chain pointer leaves a walk ahead of its thread, or at a record that is
about to be freed. -/
theorem WalkOk.write (ok : s.WalkOk i w) (quiet : ∀ p, s.op ≠ some (.pageFree p))
    (ap : t.sys.ap = s.sys.ap) {l : Link Nat Dword} {r : Option Dword} (links : t.links = s.links.write l r)
    {entries : List (Dword × Dword)} (chain : t.chain i = entries)
    (ahead : ∀ p, Ahead (s.chain i) (s.hosted i) p →
      Ahead entries (s.hosted i) p ∨ ∃ q, p = some q ∧ t.op = some (.pageFree q) ∧
        ∃ c, t.links.cell q = some c ∧ c.key ≠ s.hosted i ∧ Ahead entries (s.hosted i) c.next)
    (kept : ∀ p, (p, s.hosted i) ∈ s.chain i → (p, s.hosted i) ∈ entries) : t.WalkOk i w := by
  have hosted : t.hosted i = s.hosted i := by
    unfold Shared.hosted
    rw [ap]
  rw [← chain, ← hosted] at ahead kept
  have before := ok.ahead quiet
  rw [← hosted] at before
  cases w with
  | test p => exact ahead p before
  | next p =>
      obtain ⟨⟨c, found, other⟩, stands⟩ := before
      obtain ⟨d, found', key⟩ := Store.write_key (l := l) (r := r) found
      refine ⟨⟨d, by rw [links, found'], by rw [key]; exact other⟩, ?_⟩
      refine (ahead (some p) stands).imp id ?_
      rintro ⟨q, same, leaving⟩
      cases same
      exact leaving
  | ret p => exact kept p before

/-- `*tindex = ts`, at the end of the chain. -/
theorem Ok.link (ok : s.Ok cfg) {tindex : Link Nat Dword} (op : s.op = some (.createWalk tid page tindex))
    (null : s.links.read tindex = some none) :
    ({ s with
      sys := bspCall cfg s.sys (.threadInit tid (some page))
      links := s.links.write tindex (some page)
      op := none } : Shared).Ok cfg := by
  obtain ⟨idle, unused, new, before, after, split, rfl, other⟩ := ok.op _ op
  have step : Step cfg s.sys (.call (.threadInit tid (some page))) (bspCall cfg s.sys (.threadInit tid (some page))) := by
    change SmpVxd.step cfg s.sys _ = _
    simp only [SmpVxd.step, idle]
  have last : after = [] := by
    cases after with
    | nil => rfl
    | cons e rest => cases (ok.links.read_linkAfter split).symm.trans null
  rw [last, List.append_nil] at split
  subst split
  have table : (s.sys.tsHt.create (some page) tid).entries = _ := TsHt.entries_create other
  have quiet (p : Dword) : s.op ≠ some (.pageFree p) := by simp [op]
  exact {
    sound := ok.sound.step step
    links := by
      rw [show (bspCall cfg s.sys (.threadInit tid (some page))).tsHt.entries = _ from table]
      exact ok.links.link unused new
    op := fun _ h => by cases h
    running := ok.running
    walk := fun i w here => by
      have chain := congrFun table (tsHash (s.hosted i))
      by_cases same : tsHash (s.hosted i) = tsHash tid
      · rw [same, Function.update_self, ← same] at chain
        exact (ok.walk i w here).write quiet rfl rfl chain (fun p ahead => .inl ahead.append)
          fun p member => List.mem_append_left _ member
      · rw [Function.update_of_ne same] at chain
        exact (ok.walk i w here).write quiet rfl rfl chain (fun p ahead => .inl ahead) fun p member => member }

/-- The record that `*tindex` points at is the next one of the chain. -/
theorem Ok.target (ok : s.Ok cfg) {tindex : Link Nat Dword} (reached : s.Reached tid tindex) {q : Dword}
    {c : Cell Dword Dword} (read : s.links.read tindex = some (some q)) (found : s.links.cell q = some c) :
    ∃ before after, s.sys.tsHt.entries (tsHash tid) = before ++ (q, c.key) :: after ∧
      tindex = linkAfter (tsHash tid) before ∧ tid ∉ before.map Prod.snd ∧ c.next = first after := by
  obtain ⟨before, after, split, rfl, other⟩ := reached
  have next := (ok.links.read_linkAfter split).symm.trans read
  cases after with
  | nil => cases next
  | cons e rest =>
      obtain ⟨q', k⟩ := e
      cases next
      cases found.symm.trans (ok.links.cell_eq split)
      exact ⟨before, rest, split, rfl, other, rfl⟩

theorem Ok.advance (ok : s.Ok cfg) {tindex : Link Nat Dword} (reached : s.Reached tid tindex) {q : Dword}
    {c : Cell Dword Dword} (read : s.links.read tindex = some (some q)) (found : s.links.cell q = some c)
    (other : c.key ≠ tid) : s.Reached tid (.next q) := by
  obtain ⟨before, after, split, -, front, -⟩ := ok.target reached read found
  refine ⟨before ++ [(q, c.key)], after, by simp [split], by simp [linkAfter], ?_⟩
  rw [List.map_append, List.mem_append, not_or]
  exact ⟨front, by simpa using Ne.symm other⟩

theorem Ok.createStep (ok : s.Ok cfg) {tindex : Link Nat Dword}
    (op : s.op = some (.createWalk tid page tindex)) (h : s.createStep cfg tid page tindex = some t) :
    t.Ok cfg := by
  have quiet (p : Dword) : s.op ≠ some (.pageFree p) := by simp [op]
  obtain ⟨idle, unused, new, reached⟩ := ok.op _ op
  simp only [Shared.createStep] at h
  split at h
  · cases h
  · cases h
    exact ok.link op ‹_›
  · rename_i q read
    split at h
    · cases h
    · rename_i c found
      split at h
      · cases h
        refine ok.goto _ quiet fun o' here => ?_
        cases here
        exact unused
      · rename_i other
        cases h
        refine ok.goto _ quiet fun o' here => ?_
        cases here
        exact ⟨idle, unused, new, ok.advance reached read found other⟩

/-- `*tindex = garbage->next` -/
theorem Ok.unlink (ok : s.Ok cfg) {tindex : Link Nat Dword} (op : s.op = some (.destroyWalk tid tindex))
    {q : Dword} {c : Cell Dword Dword} (read : s.links.read tindex = some (some q))
    (found : s.links.cell q = some c) (key : c.key = tid) {sys : Sys} (step : bspStep cfg s.sys = some sys) :
    ({ s with sys := sys, links := s.links.write tindex c.next, op := some (.pageFree q) } : Shared).Ok cfg := by
  obtain ⟨destroying, reached⟩ := ok.op _ op
  obtain ⟨before, after, split, rfl, front, next⟩ := ok.target reached read found
  have sound := ok.sound.step (show Step cfg s.sys .bsp sys from step)
  simp only [bspStep, destroying, Option.some.injEq] at step
  subst step
  subst key
  have table := TsHt.entries_destroy split front
  have quiet (p : Dword) : s.op ≠ some (.pageFree p) := by simp [op]
  have links : Represents (s.links.write (linkAfter (tsHash c.key) before) c.next)
      (Function.update s.sys.tsHt.entries (tsHash c.key) (before ++ after)) := by
    rw [next]
    exact ok.links.unlink split
  -- the record is no longer in a chain, and still leads to the one behind it
  have nodup := ok.links.nodup (tsHash c.key)
  rw [split, List.map_append, List.map_cons] at nodup
  have outside : q ∉ before.map Prod.fst ∧ q ∉ after.map Prod.fst := by
    have middle := (List.nodup_cons.mp (List.nodup_middle.mp nodup)).1
    rwa [List.mem_append, not_or] at middle
  have cell : (s.links.write (linkAfter (tsHash c.key) before) c.next).cell q = some c :=
    (Store.write_cell_of_ne (linkAfter_ne outside.1)).trans found
  exact {
    sound := sound
    links := by
      rw [show (s.sys.tsHt.destroy c.key).entries = _ from table]
      exact links
    op := fun o here => by
      cases here
      intro b member
      rw [show (s.sys.tsHt.destroy c.key).entries = _ from table] at member
      by_cases same : b = tsHash c.key
      · rw [same, Function.update_self, List.map_append, List.mem_append] at member
        exact member.elim outside.1 outside.2
      · rw [Function.update_of_ne same] at member
        refine same (ok.links.apart b _ q member ?_)
        rw [split]
        simp
    running := ok.running
    walk := fun i w here => by
      have other : c.key ≠ s.hosted i :=
        Ne.symm ((ok.sound.consistent.hosted_running (ok.running i w here).2).2 c.key destroying)
      have chain := congrFun table (tsHash (s.hosted i))
      by_cases same : tsHash (s.hosted i) = tsHash c.key
      · have before_eq : s.chain i = before ++ (q, c.key) :: after := by
          unfold Shared.chain
          rw [same, split]
        rw [same, Function.update_self, ← same] at chain
        refine (ok.walk i w here).write quiet rfl rfl chain (fun p ahead => ?_) fun p member => ?_
        · rw [before_eq] at ahead
          refine (ahead.remove other).imp id ?_
          rintro ⟨rfl, behind⟩
          exact ⟨q, rfl, rfl, c, cell, other, by rwa [next]⟩
        · rw [before_eq, List.mem_append, List.mem_cons] at member
          rw [List.mem_append]
          obtain front | here | back := member
          · exact .inl front
          · exact absurd (Prod.mk.inj here).2.symm other
          · exact .inr back
      · rw [Function.update_of_ne same] at chain
        exact (ok.walk i w here).write quiet rfl rfl chain (fun p ahead => .inl ahead) fun p member => member }

theorem Ok.destroyStep (ok : s.Ok cfg) {tindex : Link Nat Dword}
    (op : s.op = some (.destroyWalk tid tindex)) (h : s.destroyStep cfg tid tindex = some t) : t.Ok cfg := by
  have quiet (p : Dword) : s.op ≠ some (.pageFree p) := by simp [op]
  obtain ⟨destroying, reached⟩ := ok.op _ op
  simp only [Shared.destroyStep] at h
  split at h
  · cases h
  · rename_i null
    -- the walk has seen the whole chain, and no record is destroyed
    obtain ⟨before, after, split, rfl, other⟩ := reached
    have last : after = [] := by
      cases after with
      | nil => rfl
      | cons e rest => cases (ok.links.read_linkAfter split).symm.trans null
    rw [last, List.append_nil] at split
    subst split
    obtain ⟨sys, step, rfl⟩ := Option.map_eq_some_iff.mp h
    have sound := ok.sound.step (show Step cfg s.sys .bsp sys from step)
    simp only [bspStep, destroying, Option.some.injEq] at step
    subst step
    have table : (s.sys.tsHt.destroy tid).entries = s.sys.tsHt.entries := TsHt.entries_destroy_absent other
    exact {
      sound := sound
      links := table ▸ ok.links
      op := fun _ h => by cases h
      running := ok.running
      walk := fun i w here => (ok.walk i w here).congr table rfl rfl fun p leaving => absurd leaving.1 (quiet p) }
  · rename_i q read
    split at h
    · cases h
    · rename_i c found
      split at h
      · rename_i key
        obtain ⟨sys, step, rfl⟩ := Option.map_eq_some_iff.mp h
        exact ok.unlink op read found key step
      · rename_i other
        cases h
        refine ok.goto _ quiet fun o' here => ?_
        cases here
        exact ⟨destroying, ok.advance reached read found other⟩

/-- `_PageFree` of a record at which no AP stands. -/
theorem Ok.pageFree (ok : s.Ok cfg) (op : s.op = some (.pageFree page))
    (clear : ∀ i, s.reads i ≠ some page) :
    ({ s with links := s.links.setCell page none, op := none } : Shared).Ok cfg where
  sound := ok.sound
  links := ok.links.setCell (ok.op _ op) none
  op _ h := by cases h
  running := ok.running
  walk i w here := by
    have stands (p : Dword) (reads : s.reads i = some p) : ¬ s.Leaving i p := by
      rintro ⟨leaving, -⟩
      cases op.symm.trans leaving
      exact clear i reads
    have here : s.walk i = some w := here
    have before := ok.walk i w here
    cases w with
    | test p =>
        refine .inl (before.resolve_right ?_)
        rintro ⟨q, rfl, leaving⟩
        exact stands q (by simp [reads, here]) leaving
    | next p =>
        have reads : s.reads i = some p := by simp [Shared.reads, here]
        obtain ⟨⟨c, found, other⟩, ahead⟩ := before
        refine ⟨⟨c, ?_, other⟩, .inl (ahead.resolve_right (stands p reads))⟩
        refine (Function.update_of_ne ?_ ..).trans found
        rintro rfl
        exact clear i reads
    | ret p => exact before

theorem Ok.tableStep (ok : s.Ok cfg) (h : s.tableStep cfg = some t)
    (clear : ∀ page, s.op = some (.pageFree page) → ∀ i, s.reads i ≠ some page) : t.Ok cfg := by
  unfold Shared.tableStep at h
  split at h
  · rename_i quiet
    split at h
    · rename_i tid destroying
      cases h
      refine ok.goto _ (fun p => by simp [quiet]) fun o' here => ?_
      cases here
      exact ⟨destroying, [], _, rfl, rfl, List.not_mem_nil⟩
    · cases h
  · exact ok.createStep ‹_› h
  · exact ok.destroyStep ‹_› h
  · rename_i page op
    cases h
    exact ok.pageFree op (clear page op)

/-- `apRunning` is the case `S_RUNNING` with the record that is looked up. -/
theorem apRunning_step (sys : Sys) (present : cfg.present i = true) (pc : (sys.ap i).pc = .switch .running) :
    Step cfg sys (.ap i 0 0) (apRunning sys i (sys.tsHt.get (sys.ap i).threadId)) := by
  change SmpVxd.step cfg sys _ = _
  cases found : sys.tsHt.get (sys.ap i).threadId with
  | none => simp [SmpVxd.step, present, apStep, pc, apRunning, found]
  | some ts =>
      simp only [SmpVxd.step, present, if_true, apStep, pc, apRunning, found]
      exact (apply_ite some _ _ _).symm

theorem Ok.deref (ok : s.Ok cfg) {ts : TsThread} (found : s.sys.tsHt.get tid = some ts) :
    s.sys.tsHt.deref ts.addr = some ts := by
  refine TsHt.deref_of_unique (fun ts' live same => ?_) (TsHt.live_of_get found)
  have here := TsHt.mem_entries_of_live (TsHt.live_of_get found)
  have there := TsHt.mem_entries_of_live live
  rw [same] at there
  have bucket := ok.links.apart _ _ ts.addr (List.mem_map_of_mem here) (List.mem_map_of_mem there)
  rw [← bucket] at there
  have nodup := ok.links.nodup (tsHash ts.tid)
  have tid_eq := (Prod.mk.inj (List.inj_on_of_nodup_map nodup here there rfl)).2
  have found' := TsHt.live_iff.mp live
  rw [← tid_eq, TsHt.live_iff.mp (TsHt.live_of_get found)] at found'
  exact (Option.some.inj found').symm

theorem Ok.setWalk (ok : s.Ok cfg) (present : cfg.present i = true) (pc : (s.sys.ap i).pc = .switch .running)
    (wok : s.WalkOk i w) : (s.setWalk i (some w)).Ok cfg where
  sound := ok.sound
  links := ok.links
  op o here := (ok.op o here).congr rfl rfl rfl
  running j w' here := by
    by_cases same : j = i
    · subst same
      exact ⟨present, pc⟩
    · rw [setWalk_ne s _ same] at here
      exact ok.running j w' here
  walk j w' here := by
    by_cases same : j = i
    · subst same
      rw [setWalk_self] at here
      cases here
      exact wok.congr rfl rfl rfl fun _ _ => rfl
    · rw [setWalk_ne s _ same] at here
      exact (ok.walk j w' here).congr rfl rfl rfl fun _ _ => rfl

/-- The end of the case `S_RUNNING`. -/
theorem Ok.finish (ok : s.Ok cfg) (present : cfg.present i = true) (pc : (s.sys.ap i).pc = .switch .running) :
    ({ s.setWalk i none with
      sys := apRunning s.sys i (s.sys.tsHt.get (s.hosted i)) } : Shared).Ok cfg := by
  have step := apRunning_step s.sys present pc
  have frame : ApFrame i s.sys (apRunning s.sys i (s.sys.tsHt.get (s.hosted i))) := by
    cases step.outcome with
    | ap i now msClock t present h => exact h.frame
  have other (j : Nat) (w : Walk) (here : (s.setWalk i none).walk j = some w) : j ≠ i ∧ s.walk j = some w := by
    by_cases same : j = i
    · subst same
      rw [setWalk_self] at here
      cases here
    · rw [setWalk_ne s _ same] at here
      exact ⟨same, here⟩
  exact {
    sound := ok.sound.step step
    links := by
      rw [show (apRunning s.sys i (s.sys.tsHt.get (s.hosted i))).tsHt = _ from frame.tsHt]
      exact ok.links
    op := fun o here => (ok.op o here).congr (congrArg TsHt.entries frame.tsHt) frame.bsp rfl
    running := fun j w here => by
      obtain ⟨ne, here⟩ := other j w here
      have before := ok.running j w here
      exact ⟨before.1, by rw [show _ = s.sys.ap j from frame.others j ne]; exact before.2⟩
    walk := fun j w here => by
      obtain ⟨ne, here⟩ := other j w here
      exact (ok.walk j w here).congr (congrArg TsHt.entries frame.tsHt)
        (congrArg Ap.threadId (frame.others j ne)) rfl fun _ _ => rfl }

/-- A walk comes upon a record until it has found its own. -/
theorem Ok.test_ne_null (ok : s.Ok cfg) : s.walk i ≠ some (.test none) := by
  intro here
  obtain ahead | ⟨q, same, -⟩ := ok.walk i _ here
  · obtain ⟨_, _, _, _, _, same, _⟩ := ahead.exists_entry
    cases same
  · cases same

theorem Ok.found (ok : s.Ok cfg) (here : s.walk i = some (.ret p)) :
    ∃ ts, s.sys.tsHt.get (s.hosted i) = some ts ∧ ts.addr = p ∧ s.sys.tsHt.deref p = some ts := by
  obtain ⟨ts, found, rfl⟩ := TsHt.get_of_mem_entries (ok.walk i _ here)
  exact ⟨ts, found, rfl, ok.deref found⟩

theorem Ok.walkStep (ok : s.Ok cfg) (present : cfg.present i = true)
    (pc : (s.sys.ap i).pc = .switch .running) (h : s.walkStep i = some t) : t.Ok cfg := by
  unfold Shared.walkStep at h
  dsimp only at h
  split at h
  · cases h
    obtain ⟨ts, found⟩ := (ok.sound.consistent.hosted_running pc).1
    refine ok.setWalk present pc (.inl ?_)
    rw [ok.links.head_eq]
    exact Ahead.start (List.mem_map_of_mem (TsHt.mem_entries_of_get found))
  · rename_i here
    exact absurd here ok.test_ne_null
  · rename_i p here
    obtain ⟨c, found, rfl⟩ := Option.map_eq_some_iff.mp h
    refine ok.setWalk present pc ?_
    obtain ahead | ⟨q, same, leaving⟩ := ok.walk i _ here
    · obtain ⟨c', found', own, -⟩ := ahead.cell ok.links
      cases found.symm.trans found'
      split
      · rename_i key
        exact own key
      · rename_i key
        exact ⟨⟨c, found, key⟩, .inl ahead⟩
    · cases same
      obtain ⟨c', found', other, -⟩ := leaving.2
      cases found.symm.trans found'
      rw [if_neg (show c.key ≠ (s.sys.ap i).threadId from other)]
      exact ⟨⟨c, found, other⟩, .inr leaving⟩
  · rename_i p here
    obtain ⟨c, found, rfl⟩ := Option.map_eq_some_iff.mp h
    refine ok.setWalk present pc (.inl ?_)
    obtain ⟨⟨c', found', other⟩, ahead | leaving⟩ := ok.walk i _ here
    · cases found.symm.trans found'
      obtain ⟨c', found', -, next⟩ := ahead.cell ok.links
      cases found.symm.trans found'
      exact next other
    · obtain ⟨-, c', found', -, ahead⟩ := leaving
      cases found.symm.trans found'
      exact ahead
  · rename_i p here
    obtain ⟨ts, found, -, deref⟩ := ok.found here
    rw [deref] at h
    cases h
    dsimp only
    rw [← found]
    exact ok.finish present pc

theorem Ok.step (ok : s.Ok cfg) {a : SharedAction} (keeps : keepsWalked cfg s a = true)
    (h : sharedStep cfg s a = some t) : t.Ok cfg := by
  cases a with
  | sys a =>
      simp only [sharedStep, Option.ite_none_right_eq_some] at h
      obtain ⟨permitted, h⟩ := h
      obtain ⟨sys, step, rfl⟩ := Option.map_eq_some_iff.mp h
      exact ok.sys permitted step
  | create tid page =>
      simp only [sharedStep, Option.ite_none_right_eq_some, Option.some.injEq, Bsp.isIdle_iff] at h
      obtain ⟨⟨quiet, idle, free⟩, rfl⟩ := h
      exact ok.create quiet idle free
  | table =>
      refine ok.tableStep h fun page op i reads => ?_
      simp only [keepsWalked, op, decide_eq_true_eq] at keeps
      have here : ∃ w, s.walk i = some w := by
        cases walk : s.walk i with
        | none => simp [Shared.reads, walk] at reads
        | some w => exact ⟨w, rfl⟩
      obtain ⟨w, here⟩ := here
      exact keeps i (Config.mem_slots.mpr (ok.running i w here).1) reads
  | walk i =>
      simp only [sharedStep, Option.ite_none_right_eq_some] at h
      exact ok.walkStep h.1.1 h.1.2 h.2

theorem ok_initialised : (sharedInitialised cfg).Ok cfg where
  sound := sound_initialised
  links := represents_empty
  op _ h := by cases h
  running _ _ h := by cases h
  walk _ _ h := by cases h

/-- The page that an AP reads next is the one of a record, or of one about to be freed. -/
theorem Ok.allocated (ok : s.Ok cfg) (reads : s.reads i = some p) : s.links.cell p ≠ none := by
  have stands (h : Ahead (s.chain i) (s.hosted i) (some p) ∨ s.Leaving i p) : s.links.cell p ≠ none := by
    obtain ahead | ⟨-, c, found, -⟩ := h
    · obtain ⟨c, found, -⟩ := ahead.cell ok.links
      simp [found]
    · simp [found]
  cases here : s.walk i with
  | none => simp [Shared.reads, here] at reads
  | some w =>
      have walk := ok.walk i w here
      cases w with
      | test q =>
          simp only [Shared.reads, here] at reads
          subst reads
          refine stands (walk.imp id ?_)
          rintro ⟨q, same, leaving⟩
          cases same
          exact leaving
      | next q =>
          simp only [Shared.reads, here, Option.some.injEq] at reads
          subst reads
          exact stands walk.2
      | ret q =>
          simp only [Shared.reads, here, Option.some.injEq] at reads
          subst reads
          obtain ⟨before, after, split⟩ := List.append_of_mem (show (q, s.hosted i) ∈ s.chain i from walk)
          simp [ok.links.cell_eq split]

end Shared

/-- No AP reads a page that has been freed, `ts_thread_get` returns the record of the
thread that the AP hosts, and only with this record does the AP leave the case
`S_RUNNING`, by way of its idle lock. -/
structure SafeLookup (cfg : Config) (s : Shared) : Prop where
  allocated : ∀ i p, s.reads i = some p → s.links.cell p ≠ none
  found : ∀ i p, s.walk i = some (.ret p) → ∃ ts, s.sys.tsHt.get (s.sys.ap i).threadId = some ts ∧ ts.addr = p
  present : ∀ i, s.walk i ≠ some (.test none)
  notified : ∀ i t, sharedStep cfg s (.walk i) = some t → (t.sys.ap i).pc ≠ .switch .running →
    ∃ ts, s.sys.tsHt.get (s.sys.ap i).threadId = some ts ∧
      (t.sys.ap i).pc = if ts.smpBspIdleLock ≠ 0 then .clearIdleLock ts.smpBspIdleLock
        else .atomicUnlock .cargo false

section SafeLookup

variable {cfg : Config} {s t : Shared}

theorem Shared.Ok.safeLookup (ok : s.Ok cfg) : SafeLookup cfg s where
  allocated _ _ reads := ok.allocated reads
  found i p here := by
    obtain ⟨ts, found, addr, -⟩ := ok.found here
    exact ⟨ts, found, addr⟩
  present _ := ok.test_ne_null
  notified i t h left := by
    simp only [sharedStep, Option.ite_none_right_eq_some] at h
    obtain ⟨⟨present, pc⟩, h⟩ := h
    unfold Shared.walkStep at h
    dsimp only at h
    split at h
    · cases h
      exact absurd pc left
    · exact absurd ‹_› ok.test_ne_null
    · obtain ⟨c, -, rfl⟩ := Option.map_eq_some_iff.mp h
      exact absurd pc left
    · obtain ⟨c, -, rfl⟩ := Option.map_eq_some_iff.mp h
      exact absurd pc left
    · rename_i p here
      obtain ⟨ts, found, -, deref⟩ := ok.found here
      rw [deref] at h
      cases h
      refine ⟨ts, found, ?_⟩
      simp only [apRunning]
      split <;> simp

/-- A page that is freed while an AP stands there is what the AP reads next. -/
theorem SafeLookup.broken {a : SharedAction} (h : sharedStep cfg s a = some t)
    (loses : keepsWalked cfg s a = false) : ¬ SafeLookup cfg t := by
  intro safe
  cases a with
  | table =>
      cases op : s.op with
      | none => simp [keepsWalked, op] at loses
      | some o =>
          cases o with
          | pageFree page =>
              simp only [keepsWalked, op, decide_eq_false_iff_not, not_forall, not_not] at loses
              obtain ⟨i, -, reads⟩ := loses
              simp only [sharedStep, Shared.tableStep, op, Option.some.injEq] at h
              subst h
              exact safe.allocated i page reads (Function.update_self ..)
          | _ => simp [keepsWalked, op] at loses
  | _ => cases loses

/-- As long as no page is freed at which an AP stands, `ts_thread_get` on an AP is safe
and finds the thread of the AP, whatever the BSP does to the table at the same time. -/
theorem lookup_safe {as : List SharedAction}
    (run : Run (restrict (graph (sharedStep cfg)) fun s a => keepsWalked cfg s a = true)
      (sharedInitialised cfg) as s) :
    SafeLookup cfg s ∧
      ∀ a t, sharedStep cfg s a = some t → keepsWalked cfg s a = false → ¬ SafeLookup cfg t := by
  have ok : s.Ok cfg :=
    run.invariant (P := Shared.Ok cfg) (fun s a t ok step => ok.step step.1 step.2) Shared.ok_initialised
  exact ⟨ok.safeLookup, fun a t h loses => SafeLookup.broken h loses⟩

end SafeLookup

/-- Threads 5 and 118 share a chain. Thread 118 runs on the AP until its call of `land`,
and the AP takes its word to look the thread up. -/
def sharedChain : List SharedAction :=
  let tcb : Tcb := ⟨0, .zero⟩
  let running : List Action :=
    [.call (.threadSwitch 118 0 tcb tcb), .bsp, .call (.smpElevate 0x500 0x9000 1)] ++ flight ++
      List.replicate 4 (.ap 1 0 0) ++
      [.trap 1 .int3 { switchTask .zero with eip := 0xC1000412 } .zero, .ap 1 0 0]
  [.create 5 0x1000, .table, .create 118 0x2000, .table, .table] ++ running.map .sys

/-- The AP finds thread 118 behind thread 5. -/
theorem lookup_safe_shared_chain : ∃ as s,
    Run (restrict (graph (sharedStep oneAp)) fun s a => keepsWalked oneAp s a = true)
      (sharedInitialised oneAp) as s ∧
    s.walk 1 = some (.ret 0x2000) ∧
    ∃ ts, s.sys.tsHt.get (s.sys.ap 1).threadId = some ts ∧ ts.addr = 0x2000 := by
  have computed : (exec (guard (sharedStep oneAp) (keepsWalked oneAp)) (sharedInitialised oneAp)
      (sharedChain ++ List.replicate 4 (.walk 1))).any
        (fun s => s.walk 1 = some (.ret 0x2000)) = true := by
    decide +kernel
  obtain ⟨s, run, checked⟩ := exists_run_restrict computed
  have here : s.walk 1 = some (.ret 0x2000) := of_decide_eq_true checked
  exact ⟨_, s, run, here, (lookup_safe run).1.found 1 _ here⟩

/-- The AP stands at the record of thread 5, which does not run on any AP, when the BSP
destroys this thread. -/
theorem lookup_freed_page : ∃ as s,
    Run (graph (sharedStep oneAp)) (sharedInitialised oneAp) as s ∧
    (s.sys.ap 1).pc = .switch .running ∧ (s.sys.ap 1).threadId = 118 ∧
    (s.sys.ap 1).status = .busy ∧ s.reads 1 = some 0x1000 ∧ s.links.cell 0x1000 = none := by
  have computed : (exec (sharedStep oneAp) (sharedInitialised oneAp)
      (sharedChain ++ [.walk 1, .sys (.call (.threadDestroy 5)), .table, .table, .table])).any
        (fun s => (s.sys.ap 1).pc = .switch .running && (s.sys.ap 1).threadId = 118 &&
          (s.sys.ap 1).status = .busy && s.reads 1 = some 0x1000 &&
          (s.links.cell 0x1000).isNone) = true := by
    decide +kernel
  obtain ⟨s, run, checked⟩ := exists_run computed
  simp only [Bool.and_eq_true, decide_eq_true_eq, Option.isNone_iff_eq_none] at checked
  obtain ⟨⟨⟨⟨pc, hosted⟩, held⟩, stands⟩, freed⟩ := checked
  exact ⟨_, s, run, pc, hosted, held, stands, freed⟩

end SmpVxd
