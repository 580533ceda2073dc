import SmpVxd.Driver.Context
import SmpVxd.Heap.Chain
import SmpVxd.Transition.Basic

/-!
# The thread list of the client library

`smp9x_CreateThread`, `smp9x__beginthread` and `smp9x__beginthreadex` put a node for the
new thread on the list `threads`, and `smp9x_thread_info_detach` takes the nodes of a
thread that ends off it. Any number of threads execute these functions at once, one
statement at a time. The critical section `cs` covers the list, not the contents of
its nodes.
-/

namespace SmpVxd.ThreadInfo

open Heap Transition

/-- The address of a node. The call of `HeapAlloc` it is from, given by a number and the
thread that made it, tells a node from a later one at the same address; nothing that is
executed depends on it. -/
structure NodePtr where
  addr : Dword
  creator : Dword
  serial : Nat
  deriving DecidableEq

/-- `smp9x_thread_t`. -/
structure ThreadNode where
  tmain : Dword
  tmainType : Dword
  param : Dword
  threadId : Dword
  threadHandle : Dword
  prev : Option NodePtr
  deriving DecidableEq

/-- The bytes that `memset` leaves. -/
def ThreadNode.zero : ThreadNode := ⟨0, 0, 0, 0, 0, none⟩

/-- What the new thread has to do. -/
def ThreadNode.task (n : ThreadNode) : Dword × Dword × Dword := (n.tmainType, n.tmain, n.param)

def ttStd : Dword := 0
def ttBt : Dword := 1
def ttBtx : Dword := 2

def invalidHandleValue : Dword := 0xFFFFFFFF

/-- The pseudo handle that `GetCurrentThread` returns to every thread. -/
def getCurrentThread : Dword := 0xFFFFFFFE

/-- A call of a function that creates a thread. The flag says whether the caller asks
for the id, that is whether `lpThreadId` or `thrdaddr` is not null. -/
inductive Call where
  | createThread (lpStartAddress pParameter : Dword) (lpThreadId : Bool)
  | beginthread (startAddress arglist : Dword)
  | beginthreadex (startAddress arglist : Dword) (thrdaddr : Bool)
  deriving DecidableEq

namespace Call

def tmain : Call → Dword
  | createThread start _ _ | beginthread start _ | beginthreadex start _ _ => start

def tmainType : Call → Dword
  | createThread .. => ttStd
  | beginthread .. => ttBt
  | beginthreadex .. => ttBtx

def param : Call → Dword
  | createThread _ param _ | beginthread _ param | beginthreadex _ param _ => param

def task (c : Call) : Dword × Dword × Dword := (c.tmainType, c.tmain, c.param)

def wantsId : Call → Bool
  | createThread _ _ wants | beginthreadex _ _ wants => wants
  | beginthread .. => false

/-- The value that the function compares the result of `CreateThread` with. -/
def failure : Call → Dword
  | createThread .. => 0
  | beginthread .. | beginthreadex .. => invalidHandleValue

end Call

/-- What the system gives to a new thread. -/
structure Given where
  handle : Dword
  id : Dword
  deriving DecidableEq

/-- Program points of a creating function, the first six within `thread_alloc`. From
`CreateThread` on, `given` is what the system gave to the thread, if there is one. -/
inductive CreatePc where
  | heapAlloc
  | memset (t : NodePtr)
  | enter (t : NodePtr)
  | setPrev (t : NodePtr)
  | setThreads (t : NodePtr)
  | leave (t : NodePtr)
  | setTmain (t : NodePtr)
  | setTmainType (t : NodePtr)
  | setParam (t : NodePtr)
  | createThread (t : NodePtr)
  | setHandle (t : NodePtr) (given : Option Given)
  | testHandle (t : NodePtr) (given : Option Given)
  | readId (t : NodePtr) (given : Option Given)
  | ret (t : NodePtr) (given : Option Given) (stored : Option Dword)
  deriving DecidableEq

/-- Program points of `smp9x_winthread_main` up to the call of the thread function, with
the values already read from the node. -/
inductive MainPc where
  | tmainType (t : NodePtr)
  | tmain (t : NodePtr) (type : Dword)
  | param (t : NodePtr) (type start : Dword)
  deriving DecidableEq

/-- A pointer to a pointer to a node, that is `&threads` or `&p->prev`. -/
abbrev Link := Heap.Link Unit NodePtr

/-- Program points of `smp9x_thread_info_detach`. -/
inductive DetachPc where
  | enter
  | whileCond (t : Link)
  | testHandle (t : Link)
  | testId (t : Link)
  | setGarbage (t : Link)
  | unlink (t : Link) (garbage : NodePtr)
  | heapFree (t : Link) (garbage : NodePtr)
  | advance (t : Link)
  | leave
  deriving DecidableEq

/-- Program points of `smp9x_GetThreadId`. -/
inductive GetPc where
  | enter
  | init
  | forCond (t : Option NodePtr)
  | readId (t : NodePtr)
  | advance (t : NodePtr)
  | leave (rc : Dword)
  deriving DecidableEq

inductive Pc where
  /-- The thread executes code that is not modelled. -/
  | user
  /-- The thread has accessed address 0. -/
  | faulted
  | create (c : Call) (p : CreatePc)
  /-- `c` is the call that created the thread. -/
  | main (c : Call) (p : MainPc)
  | detach (p : DetachPc)
  | getThreadId (h : Dword) (p : GetPc)
  deriving DecidableEq

/-- A process that uses the library. -/
structure Proc where
  /-- The contents of the memory, seen as a node at each address. -/
  node : Dword → ThreadNode
  /-- The block of the heap at an address. -/
  block : Dword → Option NodePtr
  serial : Nat
  threads : Option NodePtr
  /-- The owner of the critical section. -/
  cs : Option Dword
  /-- Where the thread with an id is; `none` when there is no such thread. -/
  pc : Dword → Option Pc

namespace Proc

variable (s : Proc) (tid : Dword)

def initial : Proc := ⟨fun _ => .zero, fun _ => none, 0, none, none, fun _ => none⟩

/-- The node is allocated and not freed. -/
def Live (t : NodePtr) : Prop := s.block t.addr = some t

instance (t : NodePtr) : Decidable (s.Live t) := inferInstanceAs (Decidable (_ = _))

def goto (pc : Pc) : Proc := { s with pc := Function.update s.pc tid (some pc) }

/-- The thread ends. -/
def finish : Proc := { s with pc := Function.update s.pc tid none }

def setNode (t : NodePtr) (f : ThreadNode → ThreadNode) : Proc :=
  { s with node := Function.update s.node t.addr (f (s.node t.addr)) }

/-- `*t` -/
def read : Link → Option NodePtr
  | .head _ => s.threads
  | .next p => (s.node p.addr).prev

/-- `*t = q` -/
def write : Link → Option NodePtr → Proc
  | .head _, q => { s with threads := q }
  | .next p, q => s.setNode p fun n => { n with prev := q }

def setBlock (addr : Dword) (t : Option NodePtr) : Proc :=
  { s with block := Function.update s.block addr t }

/-- `HeapAlloc` at an address where no block is; the memory is not cleared. -/
def heapAlloc (addr : Dword) : Proc :=
  { s.setBlock addr (some ⟨addr, tid, s.serial⟩) with serial := s.serial + 1 }

/-- `EnterCriticalSection`, which waits until there is no owner. -/
def enterCs (pc : Pc) : Option Proc :=
  if s.cs = none then some ({ s with cs := some tid }.goto tid pc) else none

def leaveCs : Proc := { s with cs := none }

end Proc

/-- The next statement of a function that creates a thread. -/
def createStep (s : Proc) (tid : Dword) (c : Call) : CreatePc → Option Proc
  | .heapAlloc => none
  | .memset t => some ((s.setNode t fun _ => .zero).goto tid (.create c (.enter t)))
  | .enter t => s.enterCs tid (.create c (.setPrev t))
  | .setPrev t => some ((s.setNode t fun n => { n with prev := s.threads }).goto tid
      (.create c (.setThreads t)))
  | .setThreads t => some ({ s with threads := some t }.goto tid (.create c (.leave t)))
  | .leave t => some (s.leaveCs.goto tid (.create c (.setTmain t)))
  | .setTmain t => some ((s.setNode t fun n => { n with tmain := c.tmain }).goto tid
      (.create c (.setTmainType t)))
  | .setTmainType t => some ((s.setNode t fun n => { n with tmainType := c.tmainType }).goto tid
      (.create c (.setParam t)))
  | .setParam t => some ((s.setNode t fun n => { n with param := c.param }).goto tid
      (.create c (.createThread t)))
  | .createThread _ => none
  | .setHandle t given => some ((s.setNode t fun n =>
      { n with threadHandle := (given.map Given.handle).getD 0 }).goto tid
      (.create c (.testHandle t given)))
  | .testHandle t given =>
      if (s.node t.addr).threadHandle ≠ c.failure then
        some (s.goto tid (.create c (if c.wantsId then .readId t given else .ret t given none)))
      else some (s.goto tid .user)
  | .readId t given =>
      some (s.goto tid (.create c (.ret t given (some (s.node t.addr).threadId))))
  | .ret _ _ _ => some (s.goto tid .user)

/-- The result of `HeapAlloc`. Without memory, `memset` clears 24 bytes at address 0. -/
def heapAllocStep (s : Proc) (tid : Dword) (c : Call) : Option Dword → Option Proc
  | some addr =>
      if addr ≠ 0 ∧ s.block addr = none then
        some ((s.heapAlloc tid addr).goto tid (.create c (.memset ⟨addr, tid, s.serial⟩)))
      else none
  | none => some (s.goto tid .faulted)

/-- The result of `CreateThread`, which stores the id in the node. A thread has an id that
no other thread has, and a handle that is not one of the special values. -/
def createThreadStep (s : Proc) (tid : Dword) (c : Call) (t : NodePtr) :
    Option Given → Option Proc
  | some g =>
      if g.id ≠ 0 ∧ s.pc g.id = none ∧ g.handle ≠ 0 ∧ g.handle ≠ invalidHandleValue ∧
          g.handle ≠ getCurrentThread then
        some (((s.setNode t fun n => { n with threadId := g.id }).goto g.id
          (.main c (.tmainType t))).goto tid (.create c (.setHandle t (some g))))
      else none
  | none => some (s.goto tid (.create c (.setHandle t none)))

/-- The next access of `smp9x_winthread_main` to the node. -/
def mainStep (s : Proc) (tid : Dword) (c : Call) : MainPc → Proc
  | .tmainType t =>
      let type := (s.node t.addr).tmainType
      s.goto tid (if type ∈ [ttStd, ttBt, ttBtx] then .main c (.tmain t type) else .user)
  | .tmain t type => s.goto tid (.main c (.param t type (s.node t.addr).tmain))
  | .param _ _ _ => s.goto tid .user

/-- The next statement of `smp9x_thread_info_detach`, after which the thread ends. -/
def detachStep (s : Proc) (tid : Dword) : DetachPc → Option Proc
  | .enter => s.enterCs tid (.detach (.whileCond (.head ())))
  | .whileCond t => some (s.goto tid (.detach (if s.read t = none then .leave else .testHandle t)))
  | .testHandle t => (s.read t).map fun p => s.goto tid (.detach
      (if (s.node p.addr).threadHandle = getCurrentThread then .setGarbage t else .testId t))
  | .testId t => (s.read t).map fun p => s.goto tid (.detach
      (if (s.node p.addr).threadId = tid then .setGarbage t else .advance t))
  | .setGarbage t => (s.read t).map fun p => s.goto tid (.detach (.unlink t p))
  | .unlink t garbage => some ((s.write t (s.node garbage.addr).prev).goto tid
      (.detach (.heapFree t garbage)))
  | .heapFree t garbage => some ((s.setBlock garbage.addr none).goto tid (.detach (.whileCond t)))
  | .advance t => (s.read t).map fun p => s.goto tid (.detach (.whileCond (.next p)))
  | .leave => some (s.leaveCs.finish tid)

/-- The next statement of `smp9x_GetThreadId`. -/
def getThreadIdStep (s : Proc) (tid h : Dword) : GetPc → Option Proc
  | .enter => s.enterCs tid (.getThreadId h .init)
  | .init => some (s.goto tid (.getThreadId h (.forCond s.threads)))
  | .forCond none => some (s.goto tid (.getThreadId h (.leave 0)))
  | .forCond (some t) => some (s.goto tid (.getThreadId h
      (if (s.node t.addr).threadHandle = h then .readId t else .advance t)))
  | .readId t => some (s.goto tid (.getThreadId h (.leave (s.node t.addr).threadId)))
  | .advance t => some (s.goto tid (.getThreadId h (.forCond (s.node t.addr).prev)))
  | .leave _ => some (s.leaveCs.goto tid .user)

inductive Action where
  /-- A thread that the library has not created. -/
  | foreignThread (tid : Dword)
  /-- Memory that is not a block of the heap changes. -/
  | otherMemory (addr : Dword) (n : ThreadNode)
  | call (tid : Dword) (c : Call)
  | getThreadId (tid h : Dword)
  /-- The thread function returns or calls `ExitThread`. -/
  | exit (tid : Dword)
  | heapAlloc (tid : Dword) (result : Option Dword)
  | createThread (tid : Dword) (result : Option Given)
  /-- Every other statement. -/
  | next (tid : Dword)
  deriving DecidableEq

def nextStep (s : Proc) (tid : Dword) : Pc → Option Proc
  | .user | .faulted => none
  | .create c p => createStep s tid c p
  | .main c p => some (mainStep s tid c p)
  | .detach p => detachStep s tid p
  | .getThreadId h p => getThreadIdStep s tid h p

def step (s : Proc) : Action → Option Proc
  | .foreignThread tid => if tid ≠ 0 ∧ s.pc tid = none then some (s.goto tid .user) else none
  | .otherMemory addr n =>
      if s.block addr = none then some { s with node := Function.update s.node addr n } else none
  | .call tid c => if s.pc tid = some .user then some (s.goto tid (.create c .heapAlloc)) else none
  | .getThreadId tid h =>
      if s.pc tid = some .user then some (s.goto tid (.getThreadId h .enter)) else none
  | .exit tid => if s.pc tid = some .user then some (s.goto tid (.detach .enter)) else none
  | .heapAlloc tid result => match s.pc tid with
      | some (.create c .heapAlloc) => heapAllocStep s tid c result
      | _ => none
  | .createThread tid result => match s.pc tid with
      | some (.create c (.createThread t)) => createThreadStep s tid c t result
      | _ => none
  | .next tid => (s.pc tid).bind (nextStep s tid)

abbrev Step : Proc → Action → Proc → Prop := graph step

/-! ## What is observed -/

/-- The node whose field the pointer points to. -/
def nodeOf : Link → List NodePtr
  | .head _ => []
  | .next p => [p]

def CreatePc.touches : CreatePc → List NodePtr
  | .heapAlloc | .enter _ | .setThreads _ | .leave _ => []
  | .memset t | .setPrev t | .setTmain t | .setTmainType t | .setParam t | .createThread t
  | .setHandle t _ | .testHandle t _ | .readId t _ | .ret t _ _ => [t]

def MainPc.node : MainPc → NodePtr
  | .tmainType t | .tmain t _ | .param t _ _ => t

def DetachPc.touches (s : Proc) : DetachPc → List NodePtr
  | .enter | .leave => []
  | .whileCond t | .setGarbage t | .advance t => nodeOf t
  | .testHandle t | .testId t => nodeOf t ++ (s.read t).toList
  | .unlink t garbage => garbage :: nodeOf t
  | .heapFree _ garbage => [garbage]

def GetPc.touches : GetPc → List NodePtr
  | .enter | .init | .leave _ => []
  | .forCond t => t.toList
  | .readId t | .advance t => [t]

def Pc.touches (s : Proc) : Pc → List NodePtr
  | .user | .faulted => []
  | .create _ p => p.touches
  | .main _ p => [p.node]
  | .detach p => p.touches s
  | .getThreadId _ p => p.touches

/-- The thread whose statement an action executes. -/
def Action.statement : Action → Option Dword
  | .heapAlloc tid _ | .createThread tid _ | .next tid => some tid
  | _ => none

/-- The nodes that an action reads, writes or frees. -/
def touches (s : Proc) (a : Action) : List NodePtr :=
  match a.statement.bind s.pc with
  | some pc => pc.touches s
  | none => []

/-- What a creating function returns, and the id it has stored for its caller. -/
structure Outcome where
  call : Call
  given : Option Given
  result : Dword
  stored : Option Dword
  deriving DecidableEq

/-- The return of a creating function. -/
def outcome (s : Proc) : Action → Option Outcome
  | .next tid => match s.pc tid with
      | some (.create c (.testHandle t given)) =>
          if (s.node t.addr).threadHandle = c.failure then some ⟨c, given, 0, none⟩ else none
      | some (.create c (.ret t given stored)) =>
          some ⟨c, given, (s.node t.addr).threadHandle, stored⟩
      | _ => none
  | _ => none

/-- The caller receives the handle, and the id if it asks for it, that the system gave to
its thread. -/
def Outcome.Right (o : Outcome) : Prop :=
  ∀ g, o.given = some g → o.result = g.handle ∧ (o.call.wantsId → o.stored = some g.id)

/-- The call of the thread function, that is its type, its address and its parameter,
beside the call that created the thread. -/
def starts (s : Proc) : Action → Option (Call × Dword × Dword × Dword)
  | .next tid => match s.pc tid with
      | some (.main c (.param t type start)) => some (c, type, start, (s.node t.addr).param)
      | _ => none
  | _ => none

/-- The node that a creating function works on. -/
def CreatePc.node : CreatePc → Option NodePtr
  | .heapAlloc => none
  | .memset t | .enter t | .setPrev t | .setThreads t | .leave t | .setTmain t | .setTmainType t
  | .setParam t | .createThread t | .setHandle t _ | .testHandle t _ | .readId t _
  | .ret t _ _ => some t

/-- The call that allocated the node has not returned. -/
def Proc.inCall (s : Proc) (t : NodePtr) : Bool :=
  match s.pc t.creator with
  | some (.create _ p) => p.node = some t
  | _ => false

/-- The action does not free a node whose creating call has not returned. -/
def freesReturned (s : Proc) : Action → Bool
  | .next tid => match s.pc tid with
      | some (.detach (.heapFree _ garbage)) => !s.inCall garbage
      | _ => true
  | _ => true

end SmpVxd.ThreadInfo
