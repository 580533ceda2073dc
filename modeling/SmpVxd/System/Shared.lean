import SmpVxd.Heap.Chain
import SmpVxd.Protocol.Pointers

/-!
# The thread table in memory

`Sys` takes `ts_thread_get`, `ts_thread_create` and `ts_thread_destroy` for single
steps. Here the chains of `ts_ht` lie in memory, and the three functions take one step
for each read of a chain pointer with the thread id behind it, each store of a chain
pointer and each `_PageFree`. An AP looks its thread up in the case `S_RUNNING` of
`smp_ap_main`; meanwhile the BSP goes on. `sys` has the other fields of the records
and everything else.
-/

namespace SmpVxd

open Heap

/-- `ts_thread_get` on an AP, by the statement that comes next. -/
inductive Walk where
  /-- `while(tindex != NULL) if(tindex->tid == tid)` -/
  | test (tindex : Option Dword)
  /-- `tindex = tindex->next` -/
  | next (tindex : Dword)
  /-- `return tindex` -/
  | ret (tindex : Dword)
  deriving DecidableEq

/-- `ts_thread_create` and `ts_thread_destroy` on the BSP, by the statement that comes
next, with the local `tindex`. -/
inductive TableOp where
  | createWalk (tid page : Dword) (tindex : Link Nat Dword)
  | destroyWalk (tid : Dword) (tindex : Link Nat Dword)
  | pageFree (page : Dword)
  deriving DecidableEq

structure Shared where
  sys : Sys
  links : Store Nat Dword Dword
  walk : Nat → Option Walk
  op : Option TableOp

/-- `Action` less those that read or change chains, and the statements that do. -/
inductive SharedAction where
  | sys (a : Action)
  /-- `ts_thread_create` with the page that `_PageAllocate` returns. -/
  | create (tid page : Dword)
  /-- The next statement of `ts_thread_create` or `ts_thread_destroy`. -/
  | table
  /-- The next statement of the case `S_RUNNING` on an AP. -/
  | walk (i : Nat)

variable (cfg : Config) (s : Shared)

/-- The case `S_RUNNING` of `smp_ap_main` with the result of `ts_thread_get`. -/
def apRunning (s : Sys) (i : Nat) (ts : Option TsThread) : Sys :=
  match ts with
  | some ts =>
      if ts.smpBspIdleLock ≠ 0 then
        s.setAp i { s.ap i with pc := .clearIdleLock ts.smpBspIdleLock }
      else s.setAp i { s.ap i with pc := .atomicUnlock .cargo false }
  | none => s.setAp i { s.ap i with pc := .atomicUnlock .cargo false }

namespace Shared

/-- The actions of `Sys` that read no chain. While a table function runs, the BSP does
nothing else. -/
def permits : Action → Bool
  | .call (.threadInit _ (some _)) => false
  | .call _ | .compute _ | .rebuildPd _ => s.op.isNone
  | .bsp => s.op.isNone && match s.sys.bsp with
      | .destroyFree _ => false
      | _ => true
  | .ap i _ _ => (s.sys.ap i).pc ≠ .switch .running
  | .nmi _ | .trap _ _ _ _ => true

/-- `ts_thread_create`: link the new record, or give its page back. -/
def createStep (tid page : Dword) (tindex : Link Nat Dword) : Option Shared :=
  match s.links.read tindex with
  | none => none
  | some none =>
      some { s with
        sys := bspCall cfg s.sys (.threadInit tid (some page))
        links := s.links.write tindex (some page)
        op := none }
  | some (some q) =>
      match s.links.cell q with
      | none => none
      | some c =>
          if c.key = tid then some { s with op := some (.pageFree page) }
          else some { s with op := some (.createWalk tid page (.next q)) }

/-- `ts_thread_destroy`: unlink the record, whose page is freed afterwards. -/
def destroyStep (tid : Dword) (tindex : Link Nat Dword) : Option Shared :=
  match s.links.read tindex with
  | none => none
  | some none => (bspStep cfg s.sys).map fun sys => { s with sys := sys, op := none }
  | some (some q) =>
      match s.links.cell q with
      | none => none
      | some c =>
          if c.key = tid then
            (bspStep cfg s.sys).map fun sys =>
              { s with sys := sys, links := s.links.write tindex c.next, op := some (.pageFree q) }
          else some { s with op := some (.destroyWalk tid (.next q)) }

def tableStep : Option Shared :=
  match s.op with
  | none => match s.sys.bsp with
      | .destroyFree tid => some { s with op := some (.destroyWalk tid (.head (tsHash tid))) }
      | _ => none
  | some (.createWalk tid page tindex) => s.createStep cfg tid page tindex
  | some (.destroyWalk tid tindex) => s.destroyStep cfg tid tindex
  | some (.pageFree page) => some { s with links := s.links.setCell page none, op := none }

def setWalk (i : Nat) (w : Option Walk) : Shared := { s with walk := Function.update s.walk i w }

@[simp] theorem setWalk_self (i : Nat) (w : Option Walk) : (s.setWalk i w).walk i = w :=
  Function.update_self ..

theorem setWalk_ne {i j : Nat} (w : Option Walk) (ne : j ≠ i) : (s.setWalk i w).walk j = s.walk j :=
  Function.update_of_ne ne ..

/-- A read of a page that has been freed has no successor. -/
def walkStep (i : Nat) : Option Shared :=
  let tid := (s.sys.ap i).threadId
  match s.walk i with
  | none => some (s.setWalk i (some (.test (s.links.head (tsHash tid)))))
  | some (.test none) => some { s.setWalk i none with sys := apRunning s.sys i none }
  | some (.test (some p)) => (s.links.cell p).map fun c =>
      s.setWalk i (some (if c.key = tid then .ret p else .next p))
  | some (.next p) => (s.links.cell p).map fun c => s.setWalk i (some (.test c.next))
  | some (.ret p) => (s.sys.tsHt.deref p).map fun ts =>
      { s.setWalk i none with sys := apRunning s.sys i (some ts) }

/-- The page that the next statement of an AP reads. -/
def reads (i : Nat) : Option Dword :=
  match s.walk i with
  | some (.test p) => p
  | some (.next p) | some (.ret p) => some p
  | none => none

end Shared

def sharedStep (s : Shared) : SharedAction → Option Shared
  | .sys a => if s.permits a then (step cfg s.sys a).map fun sys => { s with sys := sys } else none
  | .create tid page =>
      if s.op = none ∧ s.sys.bsp.isIdle ∧ s.links.cell page = none then
        some { s with
          links := s.links.setCell page (some ⟨tid, none⟩)
          op := some (.createWalk tid page (.head (tsHash tid))) }
      else none
  | .table => s.tableStep cfg
  | .walk i =>
      if cfg.present i ∧ (s.sys.ap i).pc = .switch .running then s.walkStep i else none

/-- The state after `smp_init`: the chains are empty. -/
def sharedInitialised : Shared := ⟨initialised cfg, Store.empty, fun _ => none, none⟩

end SmpVxd
