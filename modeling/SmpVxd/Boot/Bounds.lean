import SmpVxd.Boot.Slots

/-!
# Reads outside the first mebibyte

Three fields of the firmware are added up without a check: the address of the table,
its length, and with it the offset of the last entry. The search itself stays inside
the mebibyte; whether the rest does is a condition on the table.
-/

namespace SmpVxd.Boot

variable {env : Env} {m : X86.Mem} {ct : Dword} {s t : State} {apCount : Nat}

/-! ## Computations that read low offsets -/

def State.Low (s : State) : Prop := ∀ a ∈ s.reads, a.toNat < firstMbSize

/-- From a state with low reads only, the computation gets to another one. -/
def LowReads {α : Type} (x : Init α) : Prop := ∀ s, s.Low → (last (x.run s)).Low

section

variable {α β : Type} {x : Init α} {f : α → Init β} {v : α} {as : List Dword}

theorem lowReads_pure (v : α) : LowReads (pure v) := fun _ low => low

theorem lowReads_throw (e : Halt) : LowReads (throw e : Init α) := fun _ low => low

theorem lowReads_get : LowReads get := fun _ low => low

theorem lowReads_modify {g : State → State} (keeps : ∀ s, (g s).reads = s.reads) :
    LowReads (modify g) := by
  intro s low a mem
  exact low a (keeps s ▸ mem)

theorem LowReads.bind (hx : LowReads x) (hf : ∀ v, LowReads (f v)) : LowReads (x >>= f) := by
  intro s low
  have first := hx s low
  cases ran : x.run s with
  | ok v t =>
      rw [ran] at first
      rw [bind_ok ran]
      exact hf v t first
  | error e t =>
      rw [ran] at first
      rwa [bind_error ran]

theorem LowReads.modify_bind {g : State → State} {f : Unit → Init β}
    (hf : LowReads (f ())) (keeps : ∀ s, (g s).reads = s.reads) : LowReads (modify g >>= f) :=
  (lowReads_modify keeps).bind fun _ => hf

theorem LowReads.reading_bind (hf : LowReads (f v)) (hx : Reading x v as)
    (low : ∀ a ∈ as, a.toNat < firstMbSize) : LowReads (x >>= f) := by
  intro s lowS
  rw [bind_ok (hx s)]
  exact hf _ (List.forall_mem_append.2 ⟨lowS, low⟩)

end

theorem lowReads_pageCode : LowReads (pageCode env) := by
  refine lowReads_get.bind fun s => ?_
  exact (lowReads_pure _).modify_bind fun _ => rfl

theorem lowReads_storeItem (apid : Nat) (f : Titem → Titem) : LowReads (storeItem apid f) := by
  refine lowReads_get.bind fun s => ?_
  split
  · exact lowReads_throw _
  · exact lowReads_modify fun _ => rfl

theorem lowReads_storeData (apid : Nat) (f : Tdata → Tdata) : LowReads (storeData apid f) := by
  refine lowReads_get.bind fun s => ?_
  split
  · exact lowReads_throw _
  · exact lowReads_modify fun _ => rfl

theorem lowReads_storePages (p : Dword) : LowReads (storePages p) := by
  rw [storePages]
  split
  · exact lowReads_throw _
  · exact lowReads_pure ()

theorem lowReads_setupAp (apid : Nat) : LowReads (setupAp env apid apCount) := by
  refine lowReads_pageCode.bind fun _ => ?_
  refine (lowReads_storeItem _ _).bind fun _ => (lowReads_storePages _).bind fun _ => ?_
  refine lowReads_pageCode.bind fun _ => ?_
  refine (lowReads_storeItem _ _).bind fun _ => (lowReads_storeData _ _).bind fun _ => ?_
  exact lowReads_modify fun _ => rfl

theorem lowReads_startAp (i : Nat) : LowReads (startAp env i) := by
  refine lowReads_get.bind fun s => ?_
  split
  · exact lowReads_pure ()
  split
  · exact lowReads_pure ()
  split
  · exact lowReads_throw _
  · refine (lowReads_storeData _ _).bind fun _ => LowReads.modify_bind ?_ fun _ => rfl
    split
    · exact lowReads_storeData _ _
    · exact lowReads_throw _

theorem lowReads_startAps (ids : List Nat) : LowReads (startAps env ids) := by
  induction ids with
  | nil => exact lowReads_pure ()
  | cons i rest ih => exact (lowReads_startAp i).bind fun _ => ih

theorem lowReads_finish : LowReads (finish env apCount) := by
  have backup : ∀ a ∈ span apBootAddr pageBackupSize, a.toNat < firstMbSize := by
    rw [show apBootAddr = .ofNat 32 0x8000 from rfl]
    exact span_lt (by decide)
  rw [finish]
  split
  · refine LowReads.modify_bind (LowReads.modify_bind ?_ fun _ => rfl) fun _ => rfl
    refine LowReads.reading_bind (lowReads_get.bind fun s => ?_) (readBytes_reading _ _) backup
    exact (lowReads_startAps _).bind fun _ => lowReads_pure true
  · exact (lowReads_pure false).modify_bind fun _ => rfl

/-! ## The walk -/

theorem State.Low.log (low : s.Low) (cpus : List Dword) {as : List Dword} (lowAs : ∀ a ∈ as, a.toNat < firstMbSize) :
    (s.log cpus as).Low := List.forall_mem_append.2 ⟨low, lowAs⟩

theorem walkReads_of_lt {off : Nat} (more : off < tableLength m ct) :
    walkReads m ct off =
      (lengthReads ct ++ entryReads m ct off) ++ walkReads m ct (off + entrySize m ct off) := by
  rw [walkReads, walkReads, entriesFrom.eq_1 m ct off, if_pos more, List.flatMap_cons,
    List.append_assoc]

theorem walkReads_of_ge {off : Nat} (done : ¬off < tableLength m ct) :
    walkReads m ct off = lengthReads ct := by
  rw [walkReads, entriesFrom, if_neg done]
  rfl

theorem lowReads_listCpus {off : Nat}
    (low : ∀ a ∈ walkReads env.firstMb ct off, a.toNat < firstMbSize) :
    LowReads (listCpus env ct off apCount) := by
  induction off using entriesFrom.induct env.firstMb ct generalizing apCount with
  | case1 off more ih =>
      rw [walkReads_of_lt more, List.forall_mem_append] at low
      intro s lowS
      have lowS := lowS.log [ct + .ofNat 32 off] low.1
      obtain skipped | ⟨apid, ap, room⟩ := skipped_or_ap env ct off apCount
      · rw [listCpus_skip more skipped]
        exact ih low.2 _ lowS
      · rw [listCpus_ap more ap room]
        exact ((lowReads_setupAp apid).bind fun _ => ih low.2) _ lowS
  | case2 off done =>
      rw [walkReads_of_ge done] at low
      intro s lowS
      rw [listCpus_of_ge done]
      exact lowS.log [] low

theorem lowReads_smpInitTable
    (walk : ∀ a ∈ walkReads env.firstMb ct mpctSize, a.toNat < firstMbSize)
    (lapic : ∀ a ∈ dwordReads (ct + 36), a.toNat < firstMbSize) : LowReads (smpInitTable env ct) := by
  refine lowReads_pageCode.bind fun _ => LowReads.modify_bind ?_ fun _ => rfl
  refine lowReads_pageCode.bind fun _ => LowReads.modify_bind ?_ fun _ => rfl
  refine lowReads_pageCode.bind fun _ => LowReads.modify_bind ?_ fun _ => rfl
  split
  · exact lowReads_pure false
  · refine LowReads.modify_bind ?_ fun _ => rfl
    refine (lowReads_storePages _).bind fun _ => LowReads.modify_bind ?_ fun _ => rfl
    refine (lowReads_listCpus walk).bind fun apCount => ?_
    exact LowReads.reading_bind lowReads_finish (reading_dword env _) lapic

/-- The header of the table up to `lapic_address`, the type of every entry, and the
flags of every processor lie below one mebibyte. -/
def TableInside (m : X86.Mem) (ct : Dword) : Prop :=
  ct.toNat + 39 < firstMbSize ∧
    ∀ off ∈ entriesFrom m ct mpctSize,
      ct.toNat + off + (if m (ct + .ofNat 32 off) = 0 then 3 else 0) < firstMbSize

theorem lt_of_mem_entriesFrom {start off : Nat} (mem : off ∈ entriesFrom m ct start) :
    off < tableLength m ct := by
  induction start using entriesFrom.induct m ct with
  | case1 start more ih =>
      rw [entriesFrom, if_pos more, List.mem_cons] at mem
      obtain rfl | mem := mem
      · exact more
      · exact ih mem
  | case2 start done =>
      rw [entriesFrom, if_neg done] at mem
      cases mem

theorem mem_flagReads {cpu a : Dword} (mem : a ∈ flagReads m cpu) : a = cpu + 3 ∨ a = cpu + 1 := by
  rw [flagReads, List.mem_cons] at mem
  obtain rfl | mem := mem
  · exact .inl rfl
  split at mem
  · rw [List.mem_cons] at mem
    obtain rfl | mem := mem
    · exact .inl rfl
    split at mem
    · exact .inr (List.mem_singleton.1 mem)
    · cases mem
  · cases mem

theorem entryReads_low_iff {off : Nat} (low : ct.toNat < firstMbSize) (short : off < 0x10000) :
    (∀ a ∈ entryReads m ct off, a.toNat < firstMbSize) ↔
      ct.toNat + off + (if m (ct + .ofNat 32 off) = 0 then 3 else 0) < firstMbSize := by
  have small : firstMbSize = 0x100000 := rfl
  have cpu : (ct + .ofNat 32 off).toNat = ct.toNat + off := by bv_omega
  rw [entryReads, List.forall_mem_cons, cpu]
  split
  next processor =>
    constructor
    · rintro ⟨-, flags⟩
      have last := flags _ (List.mem_cons_self ..)
      bv_omega
    · intro inside
      refine ⟨by omega, fun a mem => ?_⟩
      rcases mem_flagReads mem with rfl | rfl <;> bv_omega
  next other =>
    exact ⟨And.left, fun inside => ⟨inside, by simp⟩⟩

theorem tableInside_iff (low : ct.toNat < firstMbSize) :
    TableInside m ct ↔ (∀ a ∈ walkReads m ct mpctSize, a.toNat < firstMbSize) ∧
      ∀ a ∈ dwordReads (ct + 36), a.toNat < firstMbSize := by
  have short {off : Nat} (mem : off ∈ entriesFrom m ct mpctSize) : off < 0x10000 :=
    (lt_of_mem_entriesFrom mem).trans (BitVec.isLt _)
  have small : firstMbSize = 0x100000 := rfl
  constructor
  · rintro ⟨header, entries⟩
    have length : ∀ a ∈ lengthReads ct, a.toNat < firstMbSize := by
      intro a mem
      simp only [lengthReads, List.mem_cons, List.not_mem_nil, or_false] at mem
      rcases mem with rfl | rfl <;> bv_omega
    refine ⟨List.forall_mem_append.2 ⟨fun a mem => ?_, length⟩, dwordReads_lt (by bv_omega)⟩
    obtain ⟨off, entry, mem⟩ := List.mem_flatMap.1 mem
    obtain mem | mem := List.mem_append.1 mem
    · exact length a mem
    · exact (entryReads_low_iff low (short entry)).2 (entries off entry) a mem
  · rintro ⟨walk, lapic⟩
    constructor
    · have last := lapic (ct + 36 + 3) (by simp [dwordReads])
      bv_omega
    · intro off entry
      refine (entryReads_low_iff low (short entry)).1 fun a mem => walk a ?_
      exact List.mem_append_left _ (List.mem_flatMap.2 ⟨off, entry, List.mem_append_right _ mem⟩)

/-! ## The signature -/

/-- How far `memcmp` advances: over the bytes that agree, but not past the last one. -/
def matched (m : X86.Mem) (p : Dword) : List Byte → Nat
  | [] | [_] => 0
  | c :: c' :: rest => if m p = c then matched m (p + 1) (c' :: rest) + 1 else 0

theorem cmpReads_low_iff (p : Dword) (c : Byte) (rest : List Byte) :
    (∀ a ∈ cmpReads m p (c :: rest), a.toNat < firstMbSize) ↔
      p.toNat + matched m p (c :: rest) < firstMbSize := by
  have small : firstMbSize = 0x100000 := rfl
  induction rest generalizing p c with
  | nil => simp [cmpReads, matched]
  | cons c' rest ih =>
      rw [cmpReads, matched, List.forall_mem_cons]
      split
      next =>
        have rest := ih (p + 1) c'
        constructor
        · rintro ⟨here, inside⟩
          have inside := rest.1 inside
          bv_omega
        · intro inside
          exact ⟨by omega, rest.2 (by bv_omega)⟩
      next => simp

/-! ## The condition -/

/-- Slot `i` has been given a stack or a data block. -/
def State.Registered (s : State) (i : Nat) : Prop :=
  (s.items i).stack ≠ 0 ∨ (s.items i).data.isSome = true

/-- Only offsets of the first mebibyte have been read, and an AP has been registered
only from a table with its signature and a correct checksum. -/
def Bounded (env : Env) : Prop :=
  (last ((smpInit env).run .initial)).Low ∧
    ∀ i, (last ((smpInit env).run .initial)).Registered i →
      ∃ fp, mpfpOf env.firstMb = some fp ∧
        startsWith env.firstMb (configurationTable env.firstMb fp) mpctMagic = true ∧
        byteSum env.firstMb (configurationTable env.firstMb fp)
          (tableLength env.firstMb (configurationTable env.firstMb fp)) = 0

/-- The signature at `ct` is inside the mebibyte as far as it agrees, and if all of it
agrees then the rest of the table is, too; and the table has a correct checksum or
names no AP within the limit. -/
def TableSound (m : X86.Mem) (maxCpus : Int) (ct : Dword) : Prop :=
  ct.toNat + matched m ct mpctMagic < firstMbSize ∧
    (startsWith m ct mpctMagic = true → TableInside m ct ∧
      (byteSum m ct (tableLength m ct) = 0 ∨
        (apIdsFrom m ct mpctSize).take (maxCpus - 1).toNat = []))

theorem registered_eq_take : registered env ct =
    (apIdsFrom env.firstMb ct mpctSize).take (env.maxCpus - 1).toNat := by
  rw [registered, registeredFrom]
  congr 2
  omega

theorem low_initial {as : List Dword} :
    (State.initial.read as).Low ↔ ∀ a ∈ as, a.toNat < firstMbSize := Iff.rfl

theorem not_registered_initial {i : Nat} (items : t.items i = ⟨0, none⟩) : ¬t.Registered i := by
  rintro (stack | data)
  · exact stack (by rw [items])
  · rw [items] at data
    cases data

theorem smpInitTable_none (none : registered env ct = []) (as : List Dword) (i : Nat) :
    ¬(last ((smpInitTable env ct).run (State.initial.read as))).Registered i := by
  apply not_registered_initial
  by_cases kernel : env.page 1 = 0
  · rw [smpInitTable_kernel _ ct kernel]
    rfl
  by_cases bootPde : env.page 2 = 0
  · obtain ⟨t, ran, items, -⟩ := smpInitTable_bootPde (State.initial.read as) ct kernel bootPde
    rw [ran]
    exact congrFun items i
  rw [smpInitTable_ok _ ct kernel bootPde (.inl (by rw [none]; rfl)), none]
  change (((State.initial.read as).prepared env).registerAll env (registered env ct) 0).items i = _
  rw [none]
  rfl

/-- What a table that is walked with all its pages must be like. -/
theorem tableSound_of_bounded (env : Env) {fp : Nat} (found : mpfpOf env.firstMb = some fp)
    (pages : ∀ n, env.page n ≠ 0) (bounded : Bounded env) :
    TableSound env.firstMb env.maxCpus (configurationTable env.firstMb fp) := by
  obtain ⟨low, checked⟩ := bounded
  by_cases magic : startsWith env.firstMb (configurationTable env.firstMb fp) mpctMagic = true
  · obtain ⟨as, bs, frame⟩ := smpInit_walked found rfl magic pages
    have reads : ∀ a ∈ as ++ cmpReads env.firstMb (configurationTable env.firstMb fp) mpctMagic ++
        walkReads env.firstMb (configurationTable env.firstMb fp) mpctSize ++
        dwordReads (configurationTable env.firstMb fp + 36) ++ bs, a.toNat < firstMbSize := by
      rw [← walked_reads]
      intro a mem
      exact low a (frame.reads ▸ mem)
    simp only [List.forall_mem_append] at reads
    obtain ⟨⟨⟨⟨-, signature⟩, walk⟩, lapic⟩, -⟩ := reads
    have signature := (cmpReads_low_iff _ _ _).1 signature
    refine ⟨signature, fun _ => ⟨(tableInside_iff (by omega)).2 ⟨walk, lapic⟩, ?_⟩⟩
    rw [← registered_eq_take]
    by_cases some : registered env (configurationTable env.firstMb fp) = []
    · exact .inr some
    · obtain ⟨i, mem⟩ := List.exists_mem_of_ne_nil _ some
      have fills := ((fills_walked _ (supplied_of_pages pages (pages 0) _)).counters _ bs).frame frame
      obtain ⟨fp', found', -, sum⟩ := checked i (.inr ((fills.data i).2 mem))
      cases found.symm.trans found'
      exact .inl sum
  · obtain ⟨as, -, ran⟩ := smpInit_some found
    rw [if_neg magic] at ran
    rw [ran] at low
    have signature := (List.forall_mem_append.1 (low_initial.1 low)).2
    exact ⟨(cmpReads_low_iff _ _ _).1 signature, fun yes => absurd yes magic⟩

/-- `smp_init` reads inside of the first mebibyte, and uses only tables with a correct checksum,
exactly where the table that the search finds is sound. -/
theorem smp_init_stays_inside (m : X86.Mem) (maxCpus : Int) :
    (∀ env : Env, env.firstMb = m → env.maxCpus = maxCpus → Bounded env) ↔
      ∀ fp, mpfpOf m = some fp → TableSound m maxCpus (configurationTable m fp) := by
  constructor
  · intro bounded fp found
    exact tableSound_of_bounded { machine [] with firstMb := m, maxCpus := maxCpus } found
      (machine_page []) (bounded _ rfl rfl)
  · rintro sound env rfl rfl
    cases found : mpfpOf env.firstMb with
    | none =>
        obtain ⟨as, low, ran⟩ := smpInit_none env found
        rw [Bounded, ran]
        exact ⟨low, fun i registered => absurd registered (not_registered_initial rfl)⟩
    | some fp =>
        obtain ⟨signature, table⟩ := sound fp found
        obtain ⟨as, low, ran⟩ := smpInit_some found
        have low : (State.initial.read (as ++ cmpReads env.firstMb
            (configurationTable env.firstMb fp) mpctMagic)).Low :=
          low_initial.2 (List.forall_mem_append.2 ⟨low, (cmpReads_low_iff _ _ _).2 signature⟩)
        rw [Bounded, ran]
        by_cases magic : startsWith env.firstMb (configurationTable env.firstMb fp) mpctMagic = true
        · obtain ⟨inside, checked⟩ := table magic
          obtain ⟨walk, lapic⟩ := (tableInside_iff (by omega)).1 inside
          rw [if_pos magic]
          refine ⟨lowReads_smpInitTable walk lapic _ low, fun i registered => ?_⟩
          obtain sum | none := checked
          · exact ⟨fp, found, magic, sum⟩
          · exact absurd registered (smpInitTable_none (registered_eq_take.trans none) _ i)
        · rw [if_neg magic]
          exact ⟨low, fun i registered => absurd registered (not_registered_initial rfl)⟩

/-- A floating pointer to a table at `0x100000`, the end of the first mebibyte. -/
def farTable : X86.Mem := fun a =>
  (mpfpMagic ++ [0x00, 0x00, 0x10, 0x00, 0x01, 0x04, 0x90]).getD (a - 0x9F000).toNat 0

theorem smp_init_reads_beyond :
    ¬∀ env : Env, env.firstMb = farTable → env.maxCpus = 256 → Bounded env := by
  intro bounded
  have low := (bounded { machine [] with firstMb := farTable } rfl rfl).1
  have read : 0x100000 ∈ (last ((smpInit { machine [] with firstMb := farTable }).run
      .initial)).reads := by decide +kernel
  exact absurd (low _ read) (by decide)

end SmpVxd.Boot
