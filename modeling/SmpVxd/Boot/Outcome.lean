import SmpVxd.Boot.Walk

/-!
# How smp_init ends

The statements around the walk: the search for the table with its early exits, the
pages that are allocated before it, and `smp_init_bsp` after it. `smp_init_bsp` leaves
all fields alone that `smp_init` has computed, whether or not the APs come up.
-/

namespace SmpVxd.Boot

variable {env : Env} {m : X86.Mem} {ct : Dword} {s t u : State}

/-- The state in which an execution ends. -/
def last {α : Type} : EStateM.Result Halt State α → State
  | .ok _ s => s
  | .error _ s => s

/-! ## smp_init_bsp -/

/-- The part of a data block that only `smp_init` writes. -/
def Tdata.fixed (data : Tdata) : Tdata := { data with status := .busy, pageDir := fun _ => 0 }

/-- `smp_init_bsp` has led from `s` to `t`. -/
structure Frame (s t : State) : Prop where
  reads : t.reads = s.reads
  cpus : t.cpus = s.cpus
  ttableMax : t.ttableMax = s.ttableMax
  cpuCount : t.cpuCount = s.cpuCount
  apFreeCnt : t.apFreeCnt = s.apFreeCnt
  stack : ∀ i, (t.items i).stack = (s.items i).stack
  data : ∀ i, (t.items i).data.map Tdata.fixed = (s.items i).data.map Tdata.fixed

namespace Frame

theorem refl (s : State) : Frame s s := ⟨rfl, rfl, rfl, rfl, rfl, fun _ => rfl, fun _ => rfl⟩

theorem trans (h : Frame s t) (h' : Frame t u) : Frame s u where
  reads := h'.reads.trans h.reads
  cpus := h'.cpus.trans h.cpus
  ttableMax := h'.ttableMax.trans h.ttableMax
  cpuCount := h'.cpuCount.trans h.cpuCount
  apFreeCnt := h'.apFreeCnt.trans h.apFreeCnt
  stack i := (h'.stack i).trans (h.stack i)
  data i := (h'.data i).trans (h.data i)

theorem isSome (h : Frame s t) (i : Nat) : (t.items i).data.isSome = (s.items i).data.isSome := by
  have same := congrArg Option.isSome (h.data i)
  simpa only [Option.isSome_map] using same

end Frame

/-- `smp_init_bsp` starts this slot. -/
def State.starts (s : State) (i : Nat) : Bool := (s.items i).stack ≠ 0 && i ≠ s.bspid.toNat

/-- Slot `i` has been sent its start-up interrupts. -/
def State.send (env : Env) (s : State) (i : Nat) (data : Tdata) : State :=
  let block := { data with pageDir := Function.update env.sysPd 0 (s.bootPdePhy ||| 0x7) }
  (s.setItem i { s.items i with data := some block }).start i (apbootVars env s i data)

section

variable {i : Nat} {data : Tdata}

theorem State.starts_iff : s.starts i = true ↔ (s.items i).stack ≠ 0 ∧ i ≠ s.bspid.toNat := by
  simp only [starts, Bool.and_eq_true, decide_eq_true_eq]

theorem startAp_skip (skip : ¬s.starts i = true) : (startAp env i).run s = .ok () s := by
  rw [State.starts_iff, not_and_or, not_not, not_not] at skip
  rw [startAp, bind_get]
  obtain stack | bsp := skip
  · rw [if_pos stack]
    rfl
  · by_cases stack : (s.items i).stack = 0
    · rw [if_pos stack]
      rfl
    · rw [if_neg stack, if_pos bsp]
      rfl

theorem startAp_send (starts : s.starts i = true) (block : (s.items i).data = some data) :
    (startAp env i).run s =
      (if env.boots i then storeData i fun data => { data with status := .ready }
        else throw .waits : Init Unit).run (s.send env i data) := by
  obtain ⟨stack, bsp⟩ := State.starts_iff.1 starts
  rw [startAp, bind_get, if_neg stack, if_neg bsp, block]
  dsimp only
  rw [bind_ok (storeData_ok _ data block), bind_modify]
  rfl

theorem startAp_null (starts : s.starts i = true) (block : (s.items i).data = none) :
    (startAp env i).run s = .error .nullStore s := by
  obtain ⟨stack, bsp⟩ := State.starts_iff.1 starts
  rw [startAp, bind_get, if_neg stack, if_neg bsp, block]
  rfl

/-- Slot `i` has been started, and its AP has come up. -/
def State.launch (env : Env) (s : State) (i : Nat) (data : Tdata) : State :=
  let block :=
    { data with status := .ready, pageDir := Function.update env.sysPd 0 (s.bootPdePhy ||| 0x7) }
  (s.setItem i { s.items i with data := some block }).start i (apbootVars env s i data)

theorem startAp_launch (starts : s.starts i = true) (block : (s.items i).data = some data)
    (boots : env.boots i = true) : (startAp env i).run s = .ok () (s.launch env i data) := by
  have sent : ((s.send env i data).items i).data =
      some { data with pageDir := Function.update env.sysPd 0 (s.bootPdePhy ||| 0x7) } := by
    change ((s.setItem i _).items i).data = _
    rw [State.setItem_self]
  rw [startAp_send starts block, if_pos boots, storeData_ok _ _ sent]
  congr 1
  change ((s.setItem i _).setItem i { (s.setItem i _).items i with data := _ }).start i _ = _
  rw [State.setItem_setItem, State.setItem_self]
  rfl

theorem startAp_waits (starts : s.starts i = true) (block : (s.items i).data = some data)
    (hangs : ¬env.boots i = true) : (startAp env i).run s = .error .waits (s.send env i data) := by
  rw [startAp_send starts block, if_neg hangs]
  rfl

theorem frame_setItem (vars : ApbootVars) {data' : Tdata} (block : (s.items i).data = some data)
    (fixed : data'.fixed = data.fixed) :
    Frame s ((s.setItem i { s.items i with data := some data' }).start i vars) where
  reads := rfl
  cpus := rfl
  ttableMax := rfl
  cpuCount := rfl
  apFreeCnt := rfl
  stack j := by
    change (Function.update s.items i _ j).stack = _
    rw [Function.update_apply]
    split
    next same => rw [same]
    next => rfl
  data j := by
    change (Function.update s.items i _ j).data.map _ = _
    rw [Function.update_apply]
    split
    next same => rw [same, block, Option.map_some, Option.map_some, fixed]
    next => rfl

theorem frame_send (block : (s.items i).data = some data) : Frame s (s.send env i data) :=
  frame_setItem _ block rfl

theorem frame_launch (block : (s.items i).data = some data) : Frame s (s.launch env i data) :=
  frame_setItem _ block rfl

variable (env s i) in
theorem startAp_frame : Frame s (last ((startAp env i).run s)) := by
  by_cases starts : s.starts i = true
  · cases block : (s.items i).data with
    | none =>
        rw [startAp_null starts block]
        exact Frame.refl s
    | some data =>
        by_cases boots : env.boots i = true
        · rw [startAp_launch starts block boots]
          exact frame_launch block
        · rw [startAp_waits starts block boots]
          exact frame_send block
  · rw [startAp_skip starts]
    exact Frame.refl s

end

variable (env) in
theorem startAps_frame (ids : List Nat) : Frame s (last ((startAps env ids).run s)) := by
  induction ids generalizing s with
  | nil => exact Frame.refl s
  | cons i rest ih =>
      have first := startAp_frame env s i
      rw [startAps]
      cases ran : (startAp env i).run s with
      | ok _ t =>
          rw [ran] at first
          rw [bind_ok ran]
          exact first.trans ih
      | error e t =>
          rw [ran] at first
          rwa [bind_error ran]

/-- Every slot with a stack has its data block. -/
def State.Complete (s : State) : Prop := ∀ i, (s.items i).stack ≠ 0 → (s.items i).data.isSome = true

theorem State.Complete.frame (complete : s.Complete) (h : Frame s t) : t.Complete := by
  intro i stack
  rw [h.stack i] at stack
  rw [h.isSome i]
  exact complete i stack

/-- Over complete slots the start of the APs never stores through a null pointer. -/
theorem startAps_safe (complete : s.Complete) (ids : List Nat) :
    (startAps env ids).run s ≠ .error .nullStore t := by
  induction ids generalizing s with
  | nil => rintro ⟨⟩
  | cons i rest ih =>
      rw [startAps]
      have first := startAp_frame env s i
      cases ran : (startAp env i).run s with
      | ok _ u =>
          rw [ran] at first
          rw [bind_ok ran]
          exact ih (complete.frame first)
      | error e u =>
          rw [bind_error ran]
          rintro ⟨⟩
          by_cases starts : s.starts i = true
          · obtain ⟨data, block⟩ := Option.isSome_iff_exists.1
              (complete i (State.starts_iff.1 starts).1)
            by_cases boots : env.boots i = true
            · rw [startAp_launch starts block boots] at ran
              cases ran
            · rw [startAp_waits starts block boots] at ran
              cases ran
          · rw [startAp_skip starts] at ran
            cases ran

/-! ## smp_init -/

theorem readBytes_reading (a : Dword) (len : Nat) : Reading (readBytes env a len) () (span a len) := by
  induction len generalizing a with
  | zero => exact Reading.pure ()
  | succ len ih =>
      rw [span_succ]
      exact (reading_byte env a).bind (ih (a + 1))

def State.counters (apCount : Nat) (s : State) : State :=
  { s with cpuCount := apCount + 1, apFreeCnt := apCount }

/-- The counters are set, and `smp_init_bsp` is about to start the APs. -/
def State.counted (env : Env) (apCount : Nat) (s : State) : State :=
  { s.counters apCount with bspid := env.bspid }.read (span apBootAddr pageBackupSize)

theorem finish_pos {apCount : Nat} (pos : 0 < apCount) :
    (finish env apCount).run s =
      (startAps env (List.range (s.ttableMax + 1)) >>= fun _ => pure true).run
        (s.counted env apCount) := by
  rw [finish, if_pos pos, bind_modify, smpInitBsp, bind_modify, bind_ok (readBytes_reading _ _ _),
    bind_get]
  rfl

theorem finish_zero : (finish env 0).run s = .ok false { s with cpuCount := 1 } := rfl

/-- The pages for `ttable`, the kernel and the boot page table have been asked for. -/
def State.tables (env : Env) (s : State) : State :=
  { s with
    allocs := s.allocs + 3
    ttable := env.page s.allocs
    kernel := env.page (s.allocs + 1)
    bootPde := env.page (s.allocs + 2)
    bootPdePhy := env.phy (s.allocs + 2) }

/-- The kernel and the boot page table are in place, and the walk begins. -/
def State.prepared (env : Env) (s : State) : State :=
  { s.tables env with
    kernelFlat := env.page (s.allocs + 1)
    isr := fun i =>
      if i < maxCores then (env.apkernelIdt i).relocate (env.page (s.allocs + 1))
      else env.apkernelIdt i
    bootPt := Function.update s.bootPt (0x8000 >>> 12) (0x8000 ||| 0x107) }

theorem smpInitTable_kernel (s : State) (ct : Dword) (null : env.page (s.allocs + 1) = 0) :
    (smpInitTable env ct).run s = .ok false (s.tables env) := by
  rw [smpInitTable, bind_ok pageCode_run, bind_modify, bind_ok pageCode_run, bind_modify,
    bind_ok pageCode_run, bind_modify, if_pos (by exact null)]
  rfl

theorem smpInitTable_bootPde (s : State) (ct : Dword) (kernel : env.page (s.allocs + 1) ≠ 0)
    (null : env.page (s.allocs + 2) = 0) :
    ∃ t, (smpInitTable env ct).run s = .error .nullStore t ∧ t.items = s.items ∧
      t.started = s.started := by
  rw [smpInitTable, bind_ok pageCode_run, bind_modify, bind_ok pageCode_run, bind_modify,
    bind_ok pageCode_run, bind_modify, if_neg (by exact kernel), bind_modify]
  exact ⟨_, bind_error (storePages_error (by exact null)), rfl, rfl⟩

theorem smpInitTable_prepared (kernel : env.page (s.allocs + 1) ≠ 0)
    (bootPde : env.page (s.allocs + 2) ≠ 0) :
    (smpInitTable env ct).run s =
      (listCpus env ct mpctSize 0 >>= fun apCount =>
        readDword env (ct + 36) >>= fun _ => finish env apCount).run (s.prepared env) := by
  rw [smpInitTable, bind_ok pageCode_run, bind_modify, bind_ok pageCode_run, bind_modify,
    bind_ok pageCode_run, bind_modify, if_neg (by exact kernel), bind_modify,
    bind_ok (storePages_ok (by exact bootPde)), bind_modify]
  rfl

/-- The APs that `smp_init` registers, in the order of the table. -/
def registered (env : Env) (ct : Dword) : List Nat := registeredFrom env ct mpctSize 0

/-- The walk is over, and nothing has been counted yet. -/
def State.walked (env : Env) (ct : Dword) (s : State) : State :=
  (((s.prepared env).registerAll env (registered env ct) 0).log (cpusFrom env.firstMb ct mpctSize)
    (walkReads env.firstMb ct mpctSize)).read (dwordReads (ct + 36))

theorem smpInitTable_ok (s : State) (ct : Dword) (kernel : env.page (s.allocs + 1) ≠ 0) (bootPde : env.page (s.allocs + 2) ≠ 0)
    (supplied : Supplied env (s.prepared env) (registered env ct).length) :
    (smpInitTable env ct).run s = (finish env (registered env ct).length).run (s.walked env ct) := by
  rw [smpInitTable_prepared kernel bootPde, bind_ok (listCpus_ok supplied),
    bind_ok (reading_dword env _ _), Nat.zero_add]
  rfl

theorem smpInitTable_error (s : State) (ct : Dword) (kernel : env.page (s.allocs + 1) ≠ 0)
    (bootPde : env.page (s.allocs + 2) ≠ 0)
    (missing : ¬Supplied env (s.prepared env) (registered env ct).length) :
    ∃ t, (smpInitTable env ct).run s = .error .nullStore t ∧ t.started = s.started := by
  obtain ⟨t, failed, started⟩ := listCpus_error missing
  rw [smpInitTable_prepared kernel bootPde]
  exact ⟨t, bind_error failed, started⟩

/-- `mpfp->configuration_table` -/
def configurationTable (m : X86.Mem) (fp : Nat) : Dword := m.read (.ofNat 32 fp + 4)

theorem reading_configurationTable (fp : Nat) :
    Reading (readDword env (.ofNat 32 fp + 4)) (configurationTable env.firstMb fp)
      (dwordReads (.ofNat 32 fp + 4)) :=
  reading_dword env _

variable (env) in
theorem smpInit_none (none : mpfpOf env.firstMb = none) :
    ∃ as, (∀ a ∈ as, a.toNat < firstMbSize) ∧
      (smpInit env).run .initial = .ok false { State.initial.read as with cpuCount := 1 } := by
  obtain ⟨as, search, low⟩ := smpGetMpfp_reading env
  rw [none] at search
  refine ⟨as, low, ?_⟩
  rw [smpInit, bind_ok (search _)]
  rfl

/-- The search reads low offsets only, and the pointer to the table lies there. -/
theorem smpInit_some {fp : Nat} (found : mpfpOf env.firstMb = some fp) :
    ∃ as, (∀ a ∈ as, a.toNat < firstMbSize) ∧
      (smpInit env).run .initial =
        (if startsWith env.firstMb (configurationTable env.firstMb fp) mpctMagic then
          smpInitTable env (configurationTable env.firstMb fp)
        else return false).run
          (State.initial.read (as ++ cmpReads env.firstMb (configurationTable env.firstMb fp) mpctMagic)) := by
  obtain ⟨as, search, low⟩ := smpGetMpfp_reading env
  obtain ⟨v, compare, zero⟩ := memcmp_spec env (configurationTable env.firstMb fp) mpctMagic
  rw [found] at search
  refine ⟨as ++ dwordReads (.ofNat 32 fp + 4), ?_, ?_⟩
  · have fits := mpfpOf_fits found
    refine List.forall_mem_append.2 ⟨low, dwordReads_lt ?_⟩
    simp only [firstMbSize] at fits ⊢
    bv_omega
  · rw [smpInit, bind_ok (search _)]
    dsimp only [Option.map_some]
    rw [bind_ok (reading_configurationTable fp _), bind_ok (compare _), State.read_read,
      State.read_read]
    by_cases magic : startsWith env.firstMb (configurationTable env.firstMb fp) mpctMagic = true
    · rw [if_pos magic, if_neg (not_not.2 (zero.2 magic)), List.append_assoc]
    · rw [if_neg magic, if_pos fun null => magic (zero.1 null), List.append_assoc]

/-! ## A machine -/

/-- A processor entry with these flags. -/
def processorEntry (apid flags : Byte) : List Byte := [0, apid, 0x14, flags] ++ List.replicate 16 0

/-- A configuration table with these entries; the local APIC is at `0xFEE00000`. -/
def tableBytes (entries : List Byte) : List Byte :=
  let head : List Byte := mpctMagic ++ [.ofNat 8 (mpctSize + entries.length), 0, 4]
  let rest : List Byte := List.replicate 28 0 ++ [0, 0, 0xE0, 0xFE, 0, 0, 0, 0] ++ entries
  head ++ -(head.sum + rest.sum) :: rest

/-- A floating pointer at `0x9F000`, and the table right behind it. -/
def firmware (entries : List Byte) : X86.Mem := fun a =>
  (mpfpMagic ++ [0x10, 0xF0, 0x09, 0x00, 0x01, 0x04, 0x97, 0, 0, 0, 0, 0] ++
    tableBytes entries).getD (a - 0x9F000).toNat 0

/-- A machine whose processor `0` boots the system, and whose pages never run out. -/
def machine (entries : List Byte) : Env where
  firstMb := firmware entries
  page n := 0xC0100000 + .ofNat 32 (n % 0x1000 * 0x10000)
  phys n := 0x100000 + .ofNat 32 (n % 0x1000 * 0x10000)
  maxCpus := 256
  xsaveFlags := 0
  smpApMain := 0xC0001000
  gdata := 0xC0002000
  apkernelIdt := fun _ => ⟨0, 8, 0, 0x8E, 0xC000⟩
  sysPd := fun _ => 0
  bspid := 0
  boots := fun _ => true

theorem machine_page (entries : List Byte) (n : Nat) : (machine entries).page n ≠ 0 := by
  change (0xC0100000 : Dword) + .ofNat 32 (n % 0x1000 * 0x10000) ≠ 0
  bv_omega

end SmpVxd.Boot
