import SmpVxd.Boot.FirstMb

/-!
# smp_init

`smp_init` walks the MP configuration table, prepares a stack and a data block for
every AP within the limit, and leaves the start of the APs to `smp_init_bsp`. The
statements are in the order of the source; the hardware is reduced to what the rest
of the function sees of it, that an AP that is started leaves `S_BUSY` or does not.
-/

namespace SmpVxd.Boot

def apBootAddr : Dword := 0x8000
def apKernelIsrOff : Dword := 0x800
def apKernelBase : Dword := 0xC0000000
def pageBackupSize : Nat := 512

/-- `sizeof(mpct_t)` -/
def mpctSize : Nat := 44
def mpSizeProcessor : Nat := 20
def mpSizeApic : Nat := 8

/-- The offset of `tss` in `tdata_t`. -/
def tdataTss : Dword := 416
/-- The offset of `gdt` in `tdata_t`. -/
def tdataGdt : Dword := 32

def defGdt : List Dword :=
  [0x00000000, 0x00000000, 0x0000FFFF, 0x00CF9A00, 0x0000FFFF, 0x00CF9200, 0x0000FFFF, 0x00CFFA00,
    0x0000FFFF, 0x00CFF200, 0x00000067, 0x00008900]

/-- `ISR_MERGE_ADDRESS` -/
def IsrDesc.mergeAddress (isr : IsrDesc) : Dword :=
  (isr.offsetHigh.setWidth 32 <<< 16) ||| isr.offsetLow.setWidth 32

/-- `ISR_SPLIT_ADDRESS` -/
def IsrDesc.splitAddress (isr : IsrDesc) (a : Dword) : IsrDesc :=
  { isr with offsetHigh := (a >>> 16).setWidth 16, offsetLow := (a &&& 0xFFFF).setWidth 16 }

/-- One turn of the relocation loop. -/
def IsrDesc.relocate (kernelFlat : Dword) (isr : IsrDesc) : IsrDesc :=
  isr.splitAddress (isr.mergeAddress - apKernelBase + kernelFlat)

/-- The template followed by zeros, with the base of the TSS in its last descriptor. -/
def apGdt (tssFlat : Dword) : Nat → Dword := fun i =>
  let gdt := defGdt.getD i 0
  if i = 11 then gdt ||| (tssFlat &&& 0xFF000000) ||| ((tssFlat &&& 0x00FF0000) >>> 16)
  else if i = 10 then gdt ||| ((tssFlat &&& 0x0000FFFF) <<< 16)
  else gdt

def apTss (stack : Dword) : Nat → Dword := fun i =>
  if i = 1 then stack + stackOffTss
  else if i = 2 then 0x10
  else if i = 16 then 104 <<< 16
  else 0

variable (env : Env)

/-- The assignments to the fields of `ttable[apid].data`. -/
def Tdata.setup (stack phy : Dword) (apCount : Nat) (data : Tdata) : Tdata :=
  { data with
    gdt := apGdt (data.addr + tdataTss)
    tss := apTss stack
    cpuCr3 := phy + pSize
    pd := data.addr + pSize
    -- OSFXSR, OSXMMEXCPT and OSXSAVE
    cpuCr4 := if env.xsaveFlags ≠ 0 then 1 <<< 9 ||| 1 <<< 10 ||| 1 <<< 18 else 1 <<< 9 ||| 1 <<< 10
    xsaveflags := env.xsaveFlags
    index := apCount + 1
    entry := env.smpApMain
    status := .busy
    statsUsage := 0
    lastActive := 0 }

def State.allocated (s : State) : State := { s with allocs := s.allocs + 1 }

def State.raiseMax (s : State) (apid : Nat) : State :=
  { s with ttableMax := if apid > s.ttableMax then apid else s.ttableMax }

def State.setItem (s : State) (apid : Nat) (item : Titem) : State :=
  { s with items := Function.update s.items apid item }

/-- The physical address that `_PageCode` stores; a caller's variable keeps its `0`
when the allocation fails. -/
def Env.phy (n : Nat) : Dword := if env.page n = 0 then 0 else env.phys n

def pageCode : Init (Dword × Dword) := do
  let n := (← get).allocs
  modify State.allocated
  return (env.page n, env.phy n)

/-- A store to `ttable[apid]`. -/
def storeItem (apid : Nat) (f : Titem → Titem) : Init Unit := do
  if (← get).ttable = 0 then throw .nullStore
  else modify fun s => s.setItem apid (f (s.items apid))

/-- A store to `*ttable[apid].data`. -/
def storeData (apid : Nat) (f : Tdata → Tdata) : Init Unit := do
  match ((← get).items apid).data with
  | none => throw .nullStore
  | some data => modify fun s => s.setItem apid { s.items apid with data := some (f data) }

/-- A store to the pages at `p`, whose contents nothing reads here. -/
def storePages (p : Dword) : Init Unit := do
  if p = 0 then throw .nullStore

/-- The block of `smp_init` for an AP within the limit. -/
def setupAp (apid apCount : Nat) : Init Unit := do
  let (stack, _) ← pageCode env
  storeItem apid fun item => { item with stack := stack }
  storePages stack
  let (mem, phy) ← pageCode env
  storeItem apid fun item => { item with data := Tdata.alloc mem }
  storeData apid (Tdata.setup env stack phy apCount)
  modify fun s => s.raiseMax apid

/-- The body of the loop for the entry at `cpu`; returns the new `ap_count`. -/
def visitProcessor (cpu : Dword) (apCount : Nat) : Init Nat := do
  if (← readByte env (cpu + 3)) &&& 1 ≠ 0 then
    if (← readByte env (cpu + 3)) &&& 2 = 0 then
      let apid := (← readByte env (cpu + 1)).toNat
      if (apCount : Int) + 1 < env.maxCpus then
        setupAp env apid apCount
        return apCount + 1
      else return apCount
    else return apCount
  else return apCount

def State.visit (s : State) (cpus : List Dword) : State := { s with cpus := s.cpus ++ cpus }

/-- The loop of `smp_init` from `off` on. The length is a 16-bit field. -/
def listCpus (ct : Dword) (off apCount : Nat) : Init Nat := do
  let length ← readWord env (ct + 4)
  if h : off < length.toNat then
    let cpu := ct + .ofNat 32 off
    modify (State.visit · [cpu])
    if (← readByte env cpu) = 0 then
      let apCount ← visitProcessor env cpu apCount
      listCpus ct (off + mpSizeProcessor) apCount
    else listCpus ct (off + mpSizeApic) apCount
  else return apCount
termination_by 0x10000 - off
decreasing_by all_goals have := length.isLt; simp only [mpSizeProcessor, mpSizeApic]; omega

/-- The variables that the boot code of slot `i` finds. -/
def apbootVars (s : State) (i : Nat) (data : Tdata) : ApbootVars where
  gdtSize := 47
  gdtAddress := data.addr + tdataGdt
  idtSize := 256 * 8 - 1
  idtAddress := s.kernelFlat + apKernelIsrOff
  sysCr3 := data.cpuCr3
  kernelAddr := s.kernelFlat
  stackAddr := (s.items i).stack + stackOffKernel
  bspId := s.bspid
  ttable := s.ttable
  gdata := env.gdata

def State.start (s : State) (i : Nat) (vars : ApbootVars) : State :=
  { s with started := s.started ++ [(i, vars)] }

/-- The body of the loop of `smp_init_bsp`. The kernel that an AP boots gives the
status word back as `S_READY`. -/
def startAp (i : Nat) : Init Unit := do
  let s ← get
  if (s.items i).stack = 0 then return
  else if i = s.bspid.toNat then return
  else
    match (s.items i).data with
    | none => throw .nullStore
    | some data =>
        storeData i fun data =>
          { data with pageDir := Function.update env.sysPd 0 (s.bootPdePhy ||| 0x7) }
        modify (State.start · i (apbootVars env s i data))
        -- while(ttable[i].data->status == S_BUSY)
        if env.boots i then storeData i fun data => { data with status := .ready }
        else throw .waits

def startAps : List Nat → Init Unit
  | [] => return
  | i :: rest => do
      startAp env i
      startAps rest

/-- `memcpy` from the first mebibyte. -/
def readBytes (a : Dword) : Nat → Init Unit
  | 0 => return
  | len + 1 => do
      let _ ← readByte env a
      readBytes (a + 1) len

def smpInitBsp : Init Bool := do
  modify fun s => { s with bspid := env.bspid }
  readBytes env apBootAddr pageBackupSize
  startAps env (List.range ((← get).ttableMax + 1))
  return true

/-- The end of `smp_init`. -/
def finish (apCount : Nat) : Init Bool := do
  if apCount > 0 then
    modify fun s => { s with cpuCount := apCount + 1, apFreeCnt := apCount }
    smpInitBsp env
  else
    modify fun s => { s with cpuCount := 1 }
    return false

/-- The statements after the table is found to have its signature. -/
def smpInitTable (ct : Dword) : Init Bool := do
  let (ttable, _) ← pageCode env
  modify fun s => { s with ttable := ttable }
  let (kernel, _) ← pageCode env
  modify fun s => { s with kernel := kernel }
  let (bootPde, bootPdePhy) ← pageCode env
  modify fun s => { s with bootPde := bootPde, bootPdePhy := bootPdePhy }
  if kernel = 0 then return false
  else
    modify fun s =>
      { s with
        kernelFlat := kernel
        isr := fun i =>
          if i < maxCores then (env.apkernelIdt i).relocate kernel else env.apkernelIdt i }
    storePages bootPde
    modify fun s => { s with bootPt := Function.update s.bootPt (0x8000 >>> 12) (0x8000 ||| 0x107) }
    let apCount ← listCpus env ct mpctSize 0
    -- ct->lapic_address
    let _ ← readDword env (ct + 36)
    finish env apCount

def smpInit : Init Bool := do
  match ← smpGetMpfp env with
  | none => finish env 0
  | some mpfp =>
      let ct ← readDword env (mpfp + 4)
      if (← memcmp env ct mpctMagic) ≠ 0 then
        -- return NULL
        return false
      else smpInitTable env ct

end SmpVxd.Boot
