import SmpVxd.Boot.Slots
import Mathlib.Data.Set.Function
import Mathlib.Order.Bounds.Basic

/-!
# Well-formed configuration tables

A table here is a list of entries of two sizes, and `TableAt` says that it stands in
memory behind a header with its length. For a table with distinct ids the walk visits
its entries one by one, and numbers the APs that it takes in their order.
-/

namespace SmpVxd.Boot

variable {env : Env} {m : X86.Mem} {ct : Dword} {s t : State}

/-- An entry as far as `smp_init` looks at it: `mp_processor_t`, or 8 bytes of another
type. -/
inductive MpEntry where
  | processor (apid flags : Byte)
  | other (type : Byte) (ne : type ≠ 0)

namespace MpEntry

def size : MpEntry → Nat
  | processor .. => mpSizeProcessor
  | other .. => mpSizeApic

/-- The entry stands at `cpu`. -/
def At (m : X86.Mem) (cpu : Dword) : MpEntry → Prop
  | processor apid flags => m cpu = 0 ∧ m (cpu + 1) = apid ∧ m (cpu + 3) = flags
  | other type _ => m cpu = type

/-- The id of a processor. -/
def apid : MpEntry → Option Byte
  | processor apid _ => some apid
  | other .. => none

/-- The id of a processor that is enabled and not flagged as the boot processor. -/
def ap : MpEntry → Option Nat
  | processor apid flags => if flags &&& 1 ≠ 0 ∧ flags &&& 2 = 0 then some apid.toNat else none
  | other .. => none

end MpEntry

def EntriesAt (m : X86.Mem) (ct : Dword) : Nat → List MpEntry → Prop
  | _, [] => True
  | off, e :: rest => e.At m (ct + .ofNat 32 off) ∧ EntriesAt m ct (off + e.size) rest

/-- The addresses of the entries of a table. -/
def entryAddrs (ct : Dword) : Nat → List MpEntry → List Dword
  | _, [] => []
  | off, e :: rest => (ct + .ofNat 32 off) :: entryAddrs ct (off + e.size) rest

structure TableAt (m : X86.Mem) (ct : Dword) (es : List MpEntry) : Prop where
  signature : startsWith m ct mpctMagic = true
  length : tableLength m ct = mpctSize + (es.map MpEntry.size).sum
  entries : EntriesAt m ct mpctSize es

/-- The first `max_cpus - 1` APs of a table. -/
def filled (env : Env) (es : List MpEntry) : List Nat :=
  (es.filterMap MpEntry.ap).take (env.maxCpus - 1).toNat

/-- What `_cpuindex` returns on the CPU with this id. -/
def cpuindex (bspid : Byte) (s : State) (apid : Nat) : Option Nat :=
  if apid = bspid.toNat then some 0 else (s.items apid).data.map Tdata.index

/-! ## The walk over such a table -/

theorem MpEntry.At.entrySize {e : MpEntry} {off : Nat} (here : e.At m (ct + .ofNat 32 off)) :
    entrySize m ct off = e.size := by
  cases e with
  | processor apid flags => rw [Boot.entrySize, if_pos here.1, size]
  | other type ne =>
      rw [Boot.entrySize, if_neg, size]
      rwa [show m (ct + .ofNat 32 off) = type from here]

theorem MpEntry.At.apOf {e : MpEntry} {off : Nat} (here : e.At m (ct + .ofNat 32 off)) :
    apOf m ct off = e.ap := by
  cases e with
  | processor apid flags =>
      obtain ⟨type, rfl, rfl⟩ := here
      simp only [Boot.apOf, type, true_and, ap]
  | other type ne =>
      have type : m (ct + .ofNat 32 off) = type := here
      simp only [Boot.apOf, type, ne, false_and, if_false, ap]

theorem entriesFrom_of_entriesAt {es : List MpEntry} {off : Nat} (entries : EntriesAt m ct off es)
    (length : tableLength m ct = off + (es.map MpEntry.size).sum) :
    cpusFrom m ct off = entryAddrs ct off es ∧ apIdsFrom m ct off = es.filterMap MpEntry.ap := by
  induction es generalizing off with
  | nil =>
      have done : ¬off < tableLength m ct := by
        rw [length]
        exact Nat.lt_irrefl off
      rw [apIdsFrom_of_ge done, cpusFrom, entriesFrom, if_neg done]
      exact ⟨rfl, rfl⟩
  | cons e rest ih =>
      obtain ⟨here, entries⟩ := entries
      have more : off < tableLength m ct := by
        rw [length, List.map_cons, List.sum_cons]
        cases e <;> simp only [MpEntry.size, mpSizeProcessor, mpSizeApic] <;> omega
      rw [List.map_cons, List.sum_cons, ← Nat.add_assoc] at length
      obtain ⟨cpus, aps⟩ := ih entries length
      constructor
      · rw [cpusFrom, entriesFrom, if_pos more, here.entrySize, List.map_cons]
        exact congrArg _ cpus
      · rw [apIdsFrom_of_lt more, here.apOf, here.entrySize, aps, List.filterMap_cons]
        cases e.ap <;> rfl

theorem TableAt.registered_eq {es : List MpEntry} (table : TableAt env.firstMb ct es) :
    registered env ct = filled env es := by
  rw [registered, registeredFrom, (entriesFrom_of_entriesAt table.entries table.length).2, filled]
  congr 2
  omega

theorem TableAt.cpusFrom_eq {es : List MpEntry} (table : TableAt m ct es) :
    cpusFrom m ct mpctSize = entryAddrs ct mpctSize es :=
  (entriesFrom_of_entriesAt table.entries table.length).1

/-! ## The result -/

/-- What `smp_init` has made of a table. -/
structure Parsed (env : Env) (ct : Dword) (es : List MpEntry) (t : State) : Prop where
  visited : t.cpus = entryAddrs ct mpctSize es
  slots : Fills (filled env es) t
  index : ∀ k (lt : k < (filled env es).length),
    (t.items (filled env es)[k]).data.map Tdata.index = some (k + 1)
  cpuindex : Set.BijOn (cpuindex env.bspid t) (insert env.bspid.toNat {i | i ∈ filled env es})
    (some '' Set.Iio t.cpuCount)
  ttableMax : filled env es ≠ [] → IsGreatest {i | i ∈ filled env es} t.ttableMax
  cpuCount : t.cpuCount = (filled env es).length + 1

theorem cpuindex_bijOn {bspid : Byte} {ids : List Nat} (absent : bspid.toNat ∉ ids)
    (index : ∀ k (lt : k < ids.length), (t.items ids[k]).data.map Tdata.index = some (k + 1)) :
    Set.BijOn (cpuindex bspid t) (insert bspid.toNat {i | i ∈ ids})
      (some '' Set.Iio (ids.length + 1)) := by
  have bsp : cpuindex bspid t bspid.toNat = some 0 := if_pos rfl
  have ap (k : Nat) (lt : k < ids.length) : cpuindex bspid t ids[k] = some (k + 1) := by
    rw [cpuindex, if_neg fun same : ids[k] = bspid.toNat => absent (same ▸ List.getElem_mem lt),
      index k lt]
  refine ⟨?_, ?_, ?_⟩
  · rintro i (rfl | mem)
    · exact ⟨0, Nat.succ_pos _, bsp.symm⟩
    · obtain ⟨k, lt, rfl⟩ := List.mem_iff_getElem.1 mem
      exact ⟨k + 1, Nat.succ_lt_succ lt, (ap k lt).symm⟩
  · rintro i (rfl | mem) j (rfl | mem') same
    · rfl
    · obtain ⟨k, lt, rfl⟩ := List.mem_iff_getElem.1 mem'
      rw [bsp, ap k lt] at same
      cases same
    · obtain ⟨k, lt, rfl⟩ := List.mem_iff_getElem.1 mem
      rw [bsp, ap k lt] at same
      cases same
    · obtain ⟨k, lt, rfl⟩ := List.mem_iff_getElem.1 mem
      obtain ⟨l, lt', rfl⟩ := List.mem_iff_getElem.1 mem'
      rw [ap k lt, ap l lt'] at same
      cases same
      rfl
  · rintro _ ⟨n, lt, rfl⟩
    cases n with
    | zero => exact ⟨bspid.toNat, .inl rfl, bsp⟩
    | succ k =>
        have lt : k < ids.length := Nat.lt_of_succ_lt_succ lt
        exact ⟨ids[k], .inr (List.getElem_mem lt), ap k lt⟩

theorem filterMap_ap_sublist (es : List MpEntry) :
    (es.filterMap MpEntry.ap).Sublist ((es.filterMap MpEntry.apid).map BitVec.toNat) := by
  induction es with
  | nil => exact List.Sublist.slnil
  | cons e rest ih =>
      cases e with
      | other type ne => exact ih
      | processor apid flags =>
          rw [List.filterMap_cons, List.filterMap_cons, MpEntry.ap]
          split
          next none => exact ih.cons _
          next i ap =>
              split at ap
              · cases ap
                exact ih.cons_cons _
              · cases ap

theorem filled_nodup {es : List MpEntry} (distinct : (es.filterMap MpEntry.apid).Nodup) :
    (filled env es).Nodup :=
  (distinct.map fun _ _ => BitVec.eq_of_toNat_eq).sublist
    ((List.take_sublist _ _).trans (filterMap_ap_sublist es))

theorem bspid_notMem_filled {es : List MpEntry} {bspid : Byte}
    (flagged : ∀ flags, .processor bspid flags ∈ es → flags &&& 2 ≠ 0) :
    bspid.toNat ∉ filled env es := by
  intro mem
  obtain ⟨e, entry, ap⟩ := List.mem_filterMap.1 (List.mem_of_mem_take mem)
  cases e with
  | other type ne => cases ap
  | processor apid flags =>
      simp only [MpEntry.ap, Option.ite_none_right_eq_some, Option.some.injEq] at ap
      obtain ⟨⟨-, notBsp⟩, same⟩ := ap
      obtain rfl := BitVec.eq_of_toNat_eq same
      exact flagged flags entry notBsp

/-- The numbers of the APs, as the walk hands them out and as they stay. -/
theorem walked_index {as bs : List Dword} {apCount : Nat} (nodup : (registered env ct).Nodup)
    (pages : ∀ n, env.page n ≠ 0)
    (frame : Frame ((((State.initial.read as).walked env ct).counters apCount).read bs) t) (k : Nat)
    (lt : k < (registered env ct).length) :
    (t.items (registered env ct)[k]).data.map Tdata.index = some (k + 1) := by
  have item : ((((State.initial.read as).walked env ct).counters apCount).read bs).items
      (registered env ct)[k] = newItem env (0 + k) (3 + 2 * k) :=
    State.registerAll_items_getElem nodup lt
  obtain ⟨data, block, index, -⟩ := newItem_data (0 + k) (pages (3 + 2 * k + 1))
  have same := congrArg (Option.map Tdata.index) (frame.data (registered env ct)[k])
  rw [item, block, Option.map_map, Option.map_map] at same
  rw [show Tdata.index = Tdata.index ∘ Tdata.fixed from rfl, same]
  exact congrArg some (index.trans (by omega))

theorem walked_isGreatest {as : List Dword} (some : registered env ct ≠ []) :
    IsGreatest {i | i ∈ registered env ct} ((State.initial.read as).walked env ct).ttableMax := by
  have below : ∀ i ∈ registered env ct, i ≤ ((State.initial.read as).walked env ct).ttableMax :=
    State.le_registerAll_ttableMax.2
  refine ⟨?_, below⟩
  obtain zero | mem := State.registerAll_ttableMax_mem env ((State.initial.read as).prepared env)
    (registered env ct) 0
  · have zero : ((State.initial.read as).walked env ct).ttableMax = 0 := zero
    obtain ⟨i, mem⟩ := List.exists_mem_of_ne_nil _ some
    have least := below i mem
    rw [zero] at least ⊢
    rwa [Nat.le_zero.1 least] at mem
  · exact mem

/-- Of a well-formed table `smp_init` visits every entry once, and gives its processors up to the
limit their slots, their indices and the counters. -/
theorem smp_init_parses {fp : Nat} {es : List MpEntry} (found : mpfpOf env.firstMb = some fp)
    (table : TableAt env.firstMb (configurationTable env.firstMb fp) es)
    (distinct : (es.filterMap MpEntry.apid).Nodup)
    (flagged : ∀ flags, .processor env.bspid flags ∈ es → flags &&& 2 ≠ 0)
    (pages : ∀ n, env.page n ≠ 0) :
    Parsed env (configurationTable env.firstMb fp) es (last ((smpInit env).run .initial)) := by
  obtain ⟨as, bs, frame⟩ := smpInit_walked found rfl table.signature pages
  have aps := table.registered_eq
  have fills : Fills (filled env es) (last ((smpInit env).run .initial)) := by
    rw [← aps]
    exact ((fills_walked _ (supplied_of_pages pages (pages 0) _)).counters _ bs).frame frame
  have cpuCount : (last ((smpInit env).run .initial)).cpuCount = (filled env es).length + 1 := by
    rw [frame.cpuCount, aps]
    rfl
  have index := walked_index (aps ▸ filled_nodup distinct) pages frame
  rw [aps] at index
  exact {
    visited := by rw [frame.cpus, ← table.cpusFrom_eq]; exact walked_cpus
    slots := fills
    index := index
    cpuindex := by
      rw [cpuCount]
      exact cpuindex_bijOn (bspid_notMem_filled flagged) index
    ttableMax := fun some => by
      rw [frame.ttableMax, ← aps]
      exact walked_isGreatest (aps ▸ some)
    cpuCount := cpuCount }

/-- Three processors with an I/O APIC between their entries. -/
def mixedTable : List MpEntry :=
  [.processor 0 3, .other 2 (by decide), .processor 1 1, .processor 3 1]

def mixedMachine : Env :=
  machine (processorEntry 0 3 ++ [2, 8, 0x11, 1, 0, 0, 0xC0, 0xFE] ++ processorEntry 1 1 ++
    processorEntry 3 1)

theorem smp_init_parses_mixed :
    Parsed mixedMachine (configurationTable mixedMachine.firstMb 0x9F000) mixedTable
      (last ((smpInit mixedMachine).run .initial)) := by
  refine smp_init_parses (by decide +kernel) ⟨by decide +kernel, by decide +kernel, ?_⟩
    (by decide) ?_ (machine_page _)
  · simp only [mixedTable, EntriesAt, MpEntry.At]
    decide +kernel
  · intro flags mem
    have mem : MpEntry.processor 0 flags ∈ mixedTable := mem
    obtain rfl : flags = 3 := by simpa [mixedTable] using mem
    decide

end SmpVxd.Boot
