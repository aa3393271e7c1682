import Mathlib.Logic.Function.Basic
import MiscProjects.Library.Runs

/-!
# Socket contexts and overlapped operations of the LSP

The contexts (`SOCK_INFO`), the socket handles that lead to them, the
overlapped structures (`WSAOVERLAPPEDPLUS`) and the threads that run the `WSP*`
entry points, the extension functions and the overlapped manager.  Every
section under `gCriticalSection` or under the `SockCritSec` of a context is one
step; a section that returns without releasing the `SockCritSec` leaves it to
its thread.

What the lower provider answers, which operation completes next and which
address the heap returns is part of the action.  A step that would touch freed
memory or wait for a `SockCritSec` is `none`.

`refs` records the references obtained from `FindAndLockSocketContext` and not
released yet, and `serial` tells the contexts at one address apart; the code
has neither.
-/

namespace MiscProjects.Lsp

abbrev Socket := ℕ

abbrev Addr := ℕ

abbrev Thread := ℕ

abbrev OpId := ℕ

/-- A `SOCK_INFO`.  `hIocp` tells whether the provider socket is associated
with the completion port, `lockedBy` is the thread that has left its
`SockCritSec` locked. -/
structure SockInfo where
  serial : ℕ
  layeredSocket : Option Socket
  providerOpen : Bool
  hIocp : Bool
  dwOutstandingAsync : BitVec 32
  bClosing : Bool
  refCount : BitVec 32
  lockedBy : Option Thread
deriving DecidableEq

inductive Operation
  | ioctl
  | recv
  | recvFrom
  | send
  | sendTo
  | transmitFile
  | acceptEx (sAcceptSocket : Socket)
  | connectEx
  | disconnectEx
  | transmitPackets
  | wsaRecvMsg
deriving DecidableEq

/-- The `Ext*` functions. -/
def Operation.isExtension : Operation → Bool
  | .ioctl | .recv | .recvFrom | .send | .sendTo => false
  | _ => true

/-- A `WSAOVERLAPPEDPLUS` in use; `completionRoutine` tells whether the caller
has supplied one. -/
structure Overlapped where
  sockInfo : Addr
  serial : ℕ
  callerSocket : Socket
  operation : Operation
  completionRoutine : Bool
deriving DecidableEq

def Overlapped.acceptSocket (o : Overlapped) : Option Socket :=
  match o.operation with
  | .acceptEx sAcceptSocket => some sAcceptSocket
  | _ => none

/-- `WSARecvMsg` hands the routine of the caller down to the lower provider,
which calls it instead of posting the completion. -/
def Overlapped.routineBelow (o : Overlapped) : Bool :=
  o.operation == .wsaRecvMsg && o.completionRoutine

/-- Where a thread is.  `held` are the contexts that the entry point has still
to unlock before it returns, the next one first. -/
inductive Pc
  | returning (held : List Addr)
  /-- `WSPSetSockOpt(SO_UPDATE_ACCEPT_CONTEXT)` before the second lookup. -/
  | setSockOpt (optval : Socket) (a : Addr)
  /-- `WSPCloseSocket` before its section, and before it frees the context. -/
  | closing (s : Socket) (a : Addr)
  | freeing (a : Addr)
  /-- `ExtAcceptEx` before the second lookup, for a call with or without an
  `OVERLAPPED`. -/
  | acceptEx (s : Socket) (a : Addr) (sAcceptSocket : Socket)
      (hasOverlapped : Bool)
  /-- An overlapped call before `GetOverlappedStructure`, and after it. -/
  | take (s : Socket) (a : Addr) (operation : Operation)
      (completionRoutine : Bool) (others : List Addr)
  | start (op : OpId) (held : List Addr)
  /-- `IntermediateCompletionRoutine`: before the lookup, the accounting, the
  unlock and the report. -/
  | routine (op : OpId) (ok : Bool) (held : List Addr)
  | account (op : OpId) (a : Addr) (held : List Addr)
  | unlock (op : OpId) (a : Addr) (held : List Addr)
  | report (op : OpId) (held : List Addr)
  /-- `CheckForContextCleanup`: before the lookup, the section and the
  unlock. -/
  | cleanup (op : OpId) (held : List Addr)
  | cleanupSection (op : OpId) (a : Addr) (held : List Addr)
  | cleanupUnlock (op : OpId) (a : Addr) (held : List Addr)
deriving DecidableEq

/-- A thread that runs nothing. -/
def Pc.idle : Pc := .returning []

/-- A reference that has been obtained and not released. -/
structure Ref where
  thread : Thread
  addr : Addr
  serial : ℕ
deriving DecidableEq

/-- A report to the application, by `WPUQueueApc` or by
`WPUCompleteOverlappedRequest`. -/
structure Report where
  op : OpId
  byApc : Bool
deriving DecidableEq

structure LspState where
  heap : Addr → Option SockInfo
  handles : Socket → Option Addr
  nextSerial : ℕ
  ops : OpId → Option Overlapped
  nextOp : OpId
  pending : List OpId
  atLower : List OpId
  answered : List OpId
  reports : List Report
  threads : Thread → Pc
  refs : List Ref

def LspState.create : LspState :=
  { heap := fun _ => none, handles := fun _ => none, nextSerial := 0,
    ops := fun _ => none, nextOp := 0, pending := [], atLower := [],
    answered := [], reports := [], threads := fun _ => .idle, refs := [] }

def LspState.setInfo (t : LspState) (a : Addr) (si : Option SockInfo) : LspState :=
  { t with heap := Function.update t.heap a si }

def LspState.setPc (t : LspState) (T : Thread) (pc : Pc) : LspState :=
  { t with threads := Function.update t.threads T pc }

@[simp]
theorem LspState.setInfo_heap_self (t : LspState) (a : Addr)
    (si : Option SockInfo) : (t.setInfo a si).heap a = si :=
  Function.update_self ..

theorem LspState.setInfo_heap_of_ne {a b : Addr} (hne : b ≠ a) (t : LspState)
    (si : Option SockInfo) : (t.setInfo a si).heap b = t.heap b :=
  Function.update_of_ne hne ..

@[simp]
theorem LspState.setPc_threads_self (t : LspState) (T : Thread) (pc : Pc) :
    (t.setPc T pc).threads T = pc :=
  Function.update_self ..

theorem LspState.setPc_threads_of_ne {T T' : Thread} (hne : T' ≠ T)
    (t : LspState) (pc : Pc) : (t.setPc T pc).threads T' = t.threads T' :=
  Function.update_of_ne hne ..

/-- The thread can enter the `SockCritSec` of the context. -/
def SockInfo.CanEnter (si : SockInfo) (T : Thread) : Prop :=
  si.lockedBy = none ∨ si.lockedBy = some T

instance (si : SockInfo) (T : Thread) : Decidable (si.CanEnter T) :=
  inferInstanceAs (Decidable (_ ∨ _))

/-! ## Contexts -/

/-- `CreateSockInfo`, with the handle that is created for it. -/
def createSockInfo (serial : ℕ) (s : Socket) : SockInfo :=
  { serial := serial, layeredSocket := some s, providerOpen := true,
    hIocp := false, dwOutstandingAsync := 0, bClosing := false, refCount := 0,
    lockedBy := none }

/-- The thread gets a reference, which is counted. -/
def LspState.addRef (t : LspState) (T : Thread) (a : Addr) (si : SockInfo) :
    LspState :=
  { t.setInfo a (some { si with refCount := si.refCount + 1 }) with
    refs := ⟨T, a, si.serial⟩ :: t.refs }

def findAndLockSocketContext (T : Thread) (s : Socket) (t : LspState) :
    Option (LspState × Option Addr) :=
  match t.handles s with
  | none => some (t, none)
  | some a =>
      match t.heap a with
      | none => none
      | some si => some (t.addRef T a si, some a)

def wpuCloseSocketHandle (s : Option Socket) (t : LspState) : LspState :=
  match s with
  | none => t
  | some s => { t with handles := Function.update t.handles s none }

/-- The thread gives up a reference. -/
def release (T : Thread) (a : Addr) (t : LspState) : LspState :=
  { t with refs := t.refs.eraseP fun r => r.thread == T && r.addr == a }

def unlockSocketContext (T : Thread) (a : Addr) (t : LspState) : Option LspState :=
  match t.heap a with
  | none => none
  | some si =>
      let newval := si.refCount - 1
      if newval = 0 ∧ si.bClosing = true then
        some (wpuCloseSocketHandle si.layeredSocket
          ((release T a t).setInfo a none))
      else some ((release T a t).setInfo a (some { si with refCount := newval }))

/-- The section of `WSPCloseSocket`.  `lowerCloses` tells whether the lower
provider closes its socket; the returns that follow an unlock leave the
`SockCritSec` locked. -/
def closeSection (T : Thread) (s : Socket) (a : Addr) (lowerCloses : Bool)
    (t : LspState) : Option LspState :=
  match t.heap a with
  | none => none
  | some si =>
      if ¬ si.CanEnter T ∨ (lowerCloses = true ∧ si.providerOpen = false) then
        none
      else if si.dwOutstandingAsync ≠ 0 ∨ si.refCount ≠ 1 then
        let closing := { si with
          bClosing := true, lockedBy := some T,
          providerOpen := si.providerOpen && !lowerCloses }
        (unlockSocketContext T a (t.setInfo a (some closing))).map
          (·.setPc T .idle)
      else if lowerCloses = false then
        let left := { si with lockedBy := some T }
        (unlockSocketContext T a (t.setInfo a (some left))).map (·.setPc T .idle)
      else
        let closed := { si with providerOpen := false }
        some ((wpuCloseSocketHandle (some s) (t.setInfo a (some closed))).setPc T
          (.freeing a))

/-- `HeapFree` at the end of `WSPCloseSocket`. -/
def freeClosed (T : Thread) (a : Addr) (t : LspState) : LspState :=
  ((release T a t).setInfo a none).setPc T .idle

/-! ## Overlapped structures -/

/-- `GetOverlappedStructure`; `found` tells whether there was a structure.  The
structure is filled in for the call. -/
def getOverlappedStructure (T : Thread) (s : Socket) (a : Addr)
    (operation : Operation) (completionRoutine : Bool) (others : List Addr)
    (found : Bool) (t : LspState) : Option LspState :=
  match t.heap a with
  | none => none
  | some si =>
      if ¬ si.CanEnter T then none
      else
        let counted := t.setInfo a (some { si with
          dwOutstandingAsync := si.dwOutstandingAsync + 1 })
        if found then
          some ({ counted with
            ops := Function.update t.ops t.nextOp (some
              ⟨a, si.serial, s, operation, completionRoutine⟩),
            nextOp := t.nextOp + 1 }.setPc T (.start t.nextOp (a :: others)))
        else some (counted.setPc T (.returning (a :: others)))

/-- `PutbackOverlappedStructure`, and on to what is left to unlock. -/
def putbackOverlappedStructure (T : Thread) (op : OpId) (held : List Addr)
    (t : LspState) : LspState :=
  { t with ops := Function.update t.ops op none }.setPc T (.returning held)

/-! ## Executing an operation -/

/-- What the lower provider answers to a call. -/
inductive LowerResult
  | success
  | pending
  | failed
deriving DecidableEq

/-- The provider sockets of the operation are still open. -/
def socketsOpen (t : LspState) (o : Overlapped) : Bool :=
  (match t.heap o.sockInfo with
    | none => false
    | some si => si.serial == o.serial && si.providerOpen) &&
  (match o.acceptSocket with
    | none => true
    | some s =>
        match (t.handles s).bind t.heap with
        | none => false
        | some si => si.providerOpen)

/-- `ExecuteOverlappedOperation` takes the result for a success.  For
`WSARecvMsg` the success and the failure of a `BOOL` function are told apart
the wrong way round. -/
def takenAsSuccess (operation : Operation) (result : LowerResult) : Bool :=
  match operation, result with
  | .wsaRecvMsg, .success => false
  | .wsaRecvMsg, _ => true
  | _, .success => true
  | _, _ => false

/-- It takes the result for `WSA_IO_PENDING`. -/
def takenAsPending (operation : Operation) (result : LowerResult) : Bool :=
  match operation, result with
  | .wsaRecvMsg, _ => false
  | _, .pending => true
  | _, _ => false

/-- The result of the call is `WSA_IO_PENDING`. -/
def answersPending (operation : Operation) (result : LowerResult)
    (bSynchronous : Bool) : Bool :=
  takenAsPending operation result ||
    (takenAsSuccess operation result && !bSynchronous)

/-- `ExecuteOverlappedOperation`.  The lower provider accepts nothing on a
socket that is closed; `notified` tells whether it lets the LSP know when the
operation completes. -/
def executeOverlappedOperation (T : Thread) (op : OpId) (o : Overlapped)
    (result : LowerResult) (notified : Bool) (held : List Addr) (t : LspState) :
    Option LspState :=
  if result ≠ LowerResult.failed ∧ socketsOpen t o = false then none
  else
    let executed := { t with
      atLower :=
        if result ≠ LowerResult.failed ∧ notified = true then t.atLower ++ [op]
        else t.atLower }
    if takenAsSuccess o.operation result || takenAsPending o.operation result then
      some (executed.setPc T (.returning held))
    else some (executed.setPc T (.cleanup op held))

/-- What `CreateIoCompletionPort` does with the provider socket: associate it,
fail with `ERROR_INVALID_PARAMETER` or fail otherwise. -/
inductive Association
  | made
  | invalidParameter
  | failed
deriving DecidableEq

/-- `QueueOverlappedOperation`: associate the socket with the completion port,
when there is one, and execute the operation; enqueue it for the worker thread
otherwise. -/
def queueOverlappedOperation (iocp : Bool) (T : Thread) (op : OpId)
    (association : Association) (result : LowerResult) (held : List Addr)
    (t : LspState) : Option LspState :=
  match t.ops op with
  | none => none
  | some o =>
      if iocp then
        match t.heap o.sockInfo with
        | none => none
        | some si =>
            if ¬ si.CanEnter T then none
            else
              let hIocp := si.hIocp || association == .made
              let bSynchronous := !si.hIocp && association == .invalidParameter
              let associated := t.setInfo o.sockInfo
                (some { si with hIocp := hIocp })
              executeOverlappedOperation T op o result
                (hIocp && !bSynchronous && !o.routineBelow) held
                { associated with
                  answered :=
                    if answersPending o.operation result bSynchronous then
                      t.answered ++ [op]
                    else t.answered }
      else
        some ({ t with
          pending := t.pending ++ [op],
          answered := t.answered ++ [op] }.setPc T (.returning held))

/-! ## Completing an operation -/

/-- The accounting of `IntermediateCompletionRoutine`: for an accept also on
the accept socket, whose context is taken to be there. -/
def accountSection (T : Thread) (op : OpId) (a : Addr) (held : List Addr)
    (t : LspState) : Option LspState :=
  match t.ops op, t.heap a with
  | some o, some si =>
      if ¬ si.CanEnter T then none
      else
        match o.acceptSocket with
        | none => some (t.setPc T (.unlock op a held))
        | some s => do
            match ← findAndLockSocketContext T s t with
            | (_, none) => none
            | (t, some b) => do
                let t ← unlockSocketContext T b t
                some (t.setPc T (.unlock op a held))
  | _, _ => none

/-- The section of `CheckForContextCleanup`.  It locks and tests the context
that the structure points to, and unlocks and frees the one it has looked
up. -/
def cleanupSection (T : Thread) (op : OpId) (a : Addr) (held : List Addr)
    (t : LspState) : Option LspState :=
  match t.ops op with
  | none => none
  | some o =>
      match t.heap o.sockInfo with
      | none => none
      | some si =>
          if ¬ si.CanEnter T then none
          else
            let counted : SockInfo := { si with
              dwOutstandingAsync := si.dwOutstandingAsync - 1 }
            if counted.bClosing = true ∧ counted.dwOutstandingAsync = 0 ∧
                counted.refCount = 1 then
              let closed := wpuCloseSocketHandle (some o.callerSocket)
                (t.setInfo o.sockInfo
                  (some { counted with layeredSocket := none }))
              some (putbackOverlappedStructure T op held
                ((release T a closed).setInfo a none))
            else
              let left : SockInfo := { counted with
                lockedBy := if o.sockInfo = a then si.lockedBy else some T }
              some ((t.setInfo o.sockInfo (some left)).setPc T
                (.cleanupUnlock op a held))

/-! ## The system -/

/-- What an application thread calls.  `plain` stands for the entry points that
look the context up, call the lower provider and unlock. -/
inductive Entry
  | plain (s : Socket)
  | setSockOpt (s optval : Socket)
  | closeSocket (s : Socket)
  | acceptEx (s sAcceptSocket : Socket) (hasOverlapped : Bool)
  | overlapped (s : Socket) (operation : Operation) (completionRoutine : Bool)
deriving DecidableEq

def Entry.socket : Entry → Socket
  | .plain s => s
  | .setSockOpt s _ => s
  | .closeSocket s => s
  | .acceptEx s _ _ => s
  | .overlapped s _ _ => s

/-- Where an entry point goes on when the context has been found. -/
def Entry.found (a : Addr) : Entry → Pc
  | .plain _ => .returning [a]
  | .setSockOpt _ optval => .setSockOpt optval a
  | .closeSocket s => .closing s a
  | .acceptEx s sAcceptSocket hasOverlapped =>
      .acceptEx s a sAcceptSocket hasOverlapped
  | .overlapped s operation completionRoutine =>
      .take s a operation completionRoutine []

inductive Action
  | socket (s : Socket) (a : Addr)
  | call (T : Thread) (entry : Entry)
  | close (T : Thread) (lowerCloses : Bool)
  | take (T : Thread) (found : Bool)
  | start (T : Thread) (association : Association) (result : LowerResult)
  /-- `SIO_QUERY_TARGET_PNP_HANDLE` runs the completion routine itself. -/
  | startInline (T : Thread)
  | dequeue (T : Thread) (result : LowerResult)
  | complete (T : Thread) (op : OpId) (ok : Bool)
  | go (T : Thread)
deriving DecidableEq

/-- A lookup and where the thread goes on. -/
def lookup (T : Thread) (s : Socket) (missing : LspState → LspState)
    (found : Addr → Pc) (t : LspState) : Option LspState :=
  (findAndLockSocketContext T s t).map fun
    | (t, none) => missing t
    | (t, some a) => t.setPc T (found a)

/-- The next step of a thread that has no choice. -/
def go (T : Thread) (t : LspState) : Option LspState :=
  match t.threads T with
  | .returning [] => none
  | .returning (a :: rest) =>
      (unlockSocketContext T a t).map (·.setPc T (.returning rest))
  | .setSockOpt optval a =>
      -- a handle that is not found leaves the first context locked
      lookup T optval (·.setPc T .idle) (fun b => .returning [b, a]) t
  | .closing _ _ => none
  | .freeing a => some (freeClosed T a t)
  | .acceptEx s a sAcceptSocket hasOverlapped =>
      lookup T sAcceptSocket (·.setPc T (.returning [a]))
        (fun b =>
          if hasOverlapped then .take s a (.acceptEx sAcceptSocket) false [b]
          else .returning [a, b]) t
  | .take _ _ _ _ _ => none
  | .start _ _ => none
  | .routine op ok held =>
      match t.ops op with
      | none => none
      | some o =>
          lookup T o.callerSocket (putbackOverlappedStructure T op held)
            (fun a => if ok then .account op a held else .unlock op a held) t
  | .account op a held => accountSection T op a held t
  | .unlock op a held =>
      (unlockSocketContext T a t).map (·.setPc T (.report op held))
  | .report op held =>
      match t.ops op with
      | none => none
      | some o =>
          let reported : Report := ⟨op, o.completionRoutine⟩
          some ({ t with reports := t.reports ++ [reported] }.setPc T
            (.cleanup op held))
  | .cleanup op held =>
      match t.ops op with
      | none => none
      | some o =>
          lookup T o.callerSocket (putbackOverlappedStructure T op held)
            (fun a => .cleanupSection op a held) t
  | .cleanupSection op a held => cleanupSection T op a held t
  | .cleanupUnlock op a held =>
      (unlockSocketContext T a t).map (putbackOverlappedStructure T op held)

/-- One step of the LSP, with or without a completion port. -/
def lspStep (iocp : Bool) (t : LspState) : Action → Option LspState
  | .socket s a =>
      if t.handles s = none ∧ t.heap a = none then
        some { t with
          heap := Function.update t.heap a
            (some (createSockInfo t.nextSerial s)),
          handles := Function.update t.handles s (some a),
          nextSerial := t.nextSerial + 1 }
      else none
  | .call T entry =>
      if t.threads T = .idle then lookup T entry.socket id (entry.found ·) t
      else none
  | .close T lowerCloses =>
      match t.threads T with
      | .closing s a => closeSection T s a lowerCloses t
      | _ => none
  | .take T found =>
      match t.threads T with
      | .take s a operation completionRoutine others =>
          getOverlappedStructure T s a operation completionRoutine others found t
      | _ => none
  | .start T association result =>
      match t.threads T with
      | .start op held =>
          queueOverlappedOperation iocp T op association result held t
      | _ => none
  | .startInline T =>
      match t.threads T with
      | .start op held =>
          if (t.ops op).any (·.operation == .ioctl) then
            some (t.setPc T (.routine op true held))
          else none
      | _ => none
  | .dequeue T result =>
      match t.threads T, t.pending with
      | .returning [], op :: rest =>
          match t.ops op with
          | none => none
          | some o =>
              -- only the calls of the provider table get the completion routine
              executeOverlappedOperation T op o result
                (!o.operation.isExtension) [] { t with pending := rest }
      | _, _ => none
  | .complete T op ok =>
      if t.threads T = .idle ∧ op ∈ t.atLower then
        some ({ t with atLower := t.atLower.erase op }.setPc T
          (.routine op ok []))
      else none
  | .go T => go T t

end MiscProjects.Lsp
