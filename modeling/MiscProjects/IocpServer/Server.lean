import Mathlib.Algebra.Ring.Nat
import Mathlib.Data.Int.Notation
import MiscProjects.Library.Runs
import MiscProjects.Library.SinglyLinked

/-!
# The scalable server over an I/O completion port

The objects of the server in memory, the completion threads inside `HandleIo` and
the main thread that posts the `AcceptEx` requests.  A step is one critical
section, one interlocked operation or one read or write of a shared field; what
a thread is about to do next is its `Pc`.

Pointers are numbers, `BUFFER_OBJ` and `SOCKET_OBJ` being allocated in turn and
never given back to the heap.  A `BUFFER_OBJ` has one `next` field for all the
lists it can be in.  A socket is the number of the `socket` call that made it;
`some 0` is what a zeroed field holds and `none` is `INVALID_SOCKET`.

The provider, the peers and the heap answer each step as the action says.  A
step that dereferences `NULL`, takes an object of one type for one of another or
never returns is `none`.
-/

namespace MiscProjects.IocpServer

open Function (update)
open SinglyLinked (search)

abbrev BufferPtr := ℕ
abbrev SocketPtr := ℕ
abbrev ListenPtr := ℕ
abbrev ThreadId := ℕ

/-! ## The objects -/

inductive Operation
  | opAccept
  | opRead
  | opWrite
deriving DecidableEq

/-- A `BUFFER_OBJ`.  `buf` is the leading bytes of the buffer; the bytes behind
them are zero. -/
structure BufferObj where
  sclient : Option ℕ
  buf : List UInt8
  buflen : ℕ
  operation : Operation
  sock : Option SocketPtr
  next : Option BufferPtr
deriving DecidableEq

/-- A `SOCKET_OBJ`. -/
structure SocketObj where
  s : Option ℕ
  bClosing : Bool
  outstandingRecv : ℤ
  outstandingSend : ℤ
  pendingSend : ℤ
  next : Option SocketPtr
deriving DecidableEq

/-- A `LISTEN_OBJ`; `repostAccept` tells whether the event is signalled. -/
structure ListenObj where
  pendingAccepts : Option BufferPtr
  pendingAcceptCount : ℤ
  repostCount : ℤ
  repostAccept : Bool
deriving DecidableEq

def BufferObj.zeroed : BufferObj := ⟨some 0, [], 0, .opAccept, none, none⟩

def SocketObj.zeroed : SocketObj := ⟨some 0, false, 0, 0, 0, none⟩

/-- The `buflen` bytes that a send takes from the buffer. -/
def BufferObj.bytes (b : BufferObj) : List UInt8 :=
  (b.buf.rightpad b.buflen 0).take b.buflen

/-- The provider has put `data` into the buffer. -/
def BufferObj.fill (b : BufferObj) (data : List UInt8) : BufferObj :=
  { b with buf := data ++ b.buf.drop data.length }

/-- A request that the provider has accepted, with the socket it is for. -/
inductive Request
  | acceptEx (listen : ListenPtr) (s : ℕ) (len : ℕ)
  | wsaRecv (s : ℕ) (len : ℕ)
  | wsaSend (s : ℕ)
deriving DecidableEq

/-! ## The threads -/

/-- The locals that `HandleIo` still needs after `ProcessPendingOperations`. -/
structure Tail where
  sockobj : Option SocketPtr
  bCleanupSocket : Bool
deriving DecidableEq

/-- Where `FreeBufferObj` returns to. -/
inductive AfterFree
  | done
  | repost (listenobj : ListenPtr)
  | testLast (sockobj : SocketPtr)
  | tail (k : Tail)

/-- What a completion thread does next. -/
inductive Pc
  | idle
  -- the error path
  | readFailed (sockobj : SocketPtr) (buf : BufferPtr)
  | readFailedTest (sockobj : SocketPtr) (buf : BufferPtr)
  | writeFailed (sockobj : SocketPtr) (buf : BufferPtr)
  | writeFailedTest (sockobj : SocketPtr) (buf : BufferPtr)
  | acceptFailed (buf : BufferPtr)
  -- `OP_ACCEPT`
  | acceptDone (listenobj : ListenPtr) (buf : BufferPtr) (bytesTransfered : ℕ)
  | removeAccept (listenobj : ListenPtr) (buf : BufferPtr) (bytesTransfered : ℕ)
  | newSocketObj (listenobj : ListenPtr) (buf : BufferPtr) (bytesTransfered : ℕ)
  | closeClient (listenobj : ListenPtr) (buf : BufferPtr)
  | associate (listenobj : ListenPtr) (buf : BufferPtr) (bytesTransfered : ℕ)
      (clientobj : SocketPtr)
  | repost (listenobj : ListenPtr)
  | signalRepost (listenobj : ListenPtr)
  -- `OP_READ`
  | readDone (sockobj : SocketPtr) (buf : BufferPtr) (bytesTransfered : ℕ)
  | setClosing (sockobj : SocketPtr) (buf : BufferPtr)
  | testLast (sockobj : SocketPtr)
  -- `OP_WRITE`
  | writeDone (sockobj : SocketPtr) (buf : BufferPtr)
  | writeDoneGlobal (sockobj : SocketPtr) (buf : BufferPtr)
  | testClosing (sockobj : SocketPtr) (buf : BufferPtr)
  | postRecv (sockobj : SocketPtr) (buf : BufferPtr)
  -- `EnqueuePendingOperation`, for an accepted connection or a receive
  | enqueue (sockobj : SocketPtr) (buf : BufferPtr) (bytesTransfered : ℕ)
      (listenobj : Option ListenPtr)
  -- `ProcessPendingOperations`
  | process (k : Tail)
  | dequeue (k : Tail)
  | postSend (sendobj : BufferPtr) (k : Tail)
  -- the closing test
  | testSend (sockobj : SocketPtr) (bCleanupSocket : Bool)
  | testRecv (sockobj : SocketPtr) (bCleanupSocket : Bool)
  | testCloses (sockobj : SocketPtr) (bCleanupSocket : Bool)
  | closeSocket (sockobj : SocketPtr)
  -- `FreeSocketObj` and `FreeBufferObj`
  | freeSocketObj (obj : SocketPtr) (buf : Option BufferPtr)
  | pushSocketObj (obj : SocketPtr) (buf : Option BufferPtr)
  | freeBufferObj (obj : BufferPtr) (k : AfterFree)

/-- The locals of the loops that post `AcceptEx` requests: the initial one, and
the one after an event. -/
structure Round where
  listenobj : ListenPtr
  i : ℤ
  limit : ℤ
  initial : Bool

/-- What the main thread does next. -/
inductive MainPc
  | waiting
  | exchange (listenobj : ListenPtr)
  | reset (listenobj : ListenPtr) (limit : ℤ)
  | test (r : Round)
  | getBufferObj (r : Round)
  | insert (r : Round) (acceptobj : BufferPtr)
  | createSocket (r : Round) (acceptobj : BufferPtr)
  | acceptEx (r : Round) (acceptobj : BufferPtr)
  | count (r : Round)
  | exited

/-- The command line, the number of completion threads and the number of addresses
to listen on. -/
structure Config where
  gBufferSize : ℕ
  gInitialAccepts : ℤ
  gMaxAccepts : ℤ
  gMaxSends : ℤ
  threads : ℕ
  listeners : ℕ

/-- The state.  `buffers`, `sockets` and `handles` count the objects allocated and
the sockets created; `key` is the completion key of a socket associated with the
port and `requests b` are the requests in flight on the `WSAOVERLAPPED` of `b`.

The last fields record a run: what has been received on a socket, what has been
handed to `WSASend` for it, how often it has been closed, and how often an object
has been got from and put back to the list of free ones. -/
structure State where
  buffer : BufferPtr → BufferObj
  buffers : ℕ
  gFreeBufferList : Option BufferPtr
  socket : SocketPtr → SocketObj
  sockets : ℕ
  gFreeSocketList : Option SocketPtr
  gPendingSendList : Option BufferPtr
  gPendingSendListEnd : Option BufferPtr
  listener : ListenPtr → ListenObj
  gOutstandingSends : ℤ
  handles : ℕ
  key : ℕ → Option SocketPtr
  requests : BufferPtr → List Request
  thread : ThreadId → Pc
  main : MainPc
  received : ℕ → List (List UInt8)
  handed : ℕ → List (List UInt8)
  closes : ℕ → ℕ
  gets : SocketPtr → ℕ
  frees : SocketPtr → ℕ

def State.start (c : Config) : State where
  buffer := fun _ => .zeroed
  buffers := 0
  gFreeBufferList := none
  socket := fun _ => .zeroed
  sockets := 0
  gFreeSocketList := none
  gPendingSendList := none
  gPendingSendListEnd := none
  listener := fun _ => ⟨none, 0, 0, false⟩
  gOutstandingSends := 0
  handles := 0
  key := fun _ => none
  requests := fun _ => []
  thread := fun _ => .idle
  main := if 0 < c.listeners then .test ⟨0, 0, c.gInitialAccepts, true⟩ else .waiting
  received := fun _ => []
  handed := fun _ => []
  closes := fun _ => 0
  gets := fun _ => 0
  frees := fun _ => 0

section Updates
variable (s : State)

def State.setBuffer (b : BufferPtr) (obj : BufferObj) : State :=
  { s with buffer := update s.buffer b obj }

def State.setSocket (o : SocketPtr) (obj : SocketObj) : State :=
  { s with socket := update s.socket o obj }

def State.setListener (l : ListenPtr) (obj : ListenObj) : State :=
  { s with listener := update s.listener l obj }

def State.goto (t : ThreadId) (pc : Pc) : State := { s with thread := update s.thread t pc }

/-- The `next` fields. -/
def State.next (b : BufferPtr) : Option BufferPtr := (s.buffer b).next

/-- The socket has been created and not been closed. -/
def State.IsOpen (h : ℕ) : Prop := 0 < h ∧ h ≤ s.handles ∧ s.closes h = 0

instance (h : ℕ) : Decidable (s.IsOpen h) := inferInstanceAs (Decidable (_ ∧ _ ∧ _))

end Updates

/-! ## The lists -/

section Functions
variable (s : State)

/-- Both callers pass `OP_WRITE`. -/
def enqueuePendingOperation (obj : BufferPtr) : Option State :=
  match (s.buffer obj).sock with
  | none => none
  | some sock =>
      let so := s.socket sock
      let s := s.setSocket sock { so with pendingSend := so.pendingSend + 1 }
      let s := s.setBuffer obj { s.buffer obj with next := none }
      match s.gPendingSendListEnd with
      | some last =>
          some { s.setBuffer last { s.buffer last with next := some obj } with
            gPendingSendListEnd := some obj }
      | none =>
          some { s with gPendingSendList := some obj, gPendingSendListEnd := some obj }

def dequeuePendingOperation : Option (Option BufferPtr × State) :=
  match s.gPendingSendList with
  | none => some (none, s)
  | some obj =>
      match (s.buffer obj).sock with
      | none => none
      | some sock =>
          let so := s.socket sock
          some (some obj,
            { s.setSocket sock { so with pendingSend := so.pendingSend - 1 } with
              gPendingSendList := (s.buffer obj).next
              gPendingSendListEnd :=
                if (s.buffer obj).next = none then none else s.gPendingSendListEnd })

def insertPendingAccept (listenobj : ListenPtr) (obj : BufferPtr) : State :=
  let s := s.setBuffer obj { s.buffer obj with next := none }
  let lo := s.listener listenobj
  match lo.pendingAccepts with
  | none => s.setListener listenobj { lo with pendingAccepts := some obj }
  | some first =>
      (s.setBuffer obj { s.buffer obj with next := some first }).setListener listenobj
        { lo with pendingAccepts := some obj }

/-- A search that passes more nodes than there are goes round for ever. -/
def removePendingAccept (listenobj : ListenPtr) (obj : BufferPtr) : Option State :=
  let lo := s.listener listenobj
  match search s.next obj (s.buffers + 1) none lo.pendingAccepts with
  | none => none
  | some (some prev) =>
      some (s.setBuffer prev { s.buffer prev with next := (s.buffer obj).next })
  | some none =>
      some (s.setListener listenobj { lo with pendingAccepts := (s.buffer obj).next })

/-- `alloc` is the answer of `HeapAlloc`. -/
def getBufferObj (buflen : ℕ) (alloc : Bool) : Option BufferPtr × State :=
  match s.gFreeBufferList with
  | none =>
      if alloc then
        (some s.buffers,
          { s.setBuffer s.buffers { BufferObj.zeroed with buflen := buflen } with
            buffers := s.buffers + 1 })
      else (none, s)
  | some newobj =>
      (some newobj,
        { s.setBuffer newobj { s.buffer newobj with next := none, buflen := buflen } with
          gFreeBufferList := (s.buffer newobj).next })

def freeBufferObj (obj : BufferPtr) : State :=
  { s.setBuffer obj { BufferObj.zeroed with next := s.gFreeBufferList } with
    gFreeBufferList := some obj }

def getSocketObj (sock : Option ℕ) (alloc : Bool) : Option SocketPtr × State :=
  match s.gFreeSocketList with
  | none =>
      if alloc then
        (some s.sockets,
          { s.setSocket s.sockets { SocketObj.zeroed with s := sock } with
            sockets := s.sockets + 1
            gets := update s.gets s.sockets (s.gets s.sockets + 1) })
      else (none, s)
  | some sockobj =>
      (some sockobj,
        { s.setSocket sockobj { s.socket sockobj with next := none, s := sock } with
          gFreeSocketList := (s.socket sockobj).next
          gets := update s.gets sockobj (s.gets sockobj + 1) })

/-- The part of `FreeSocketObj` in the critical section. -/
def pushSocketObj (obj : SocketPtr) : State :=
  { s.setSocket obj { SocketObj.zeroed with next := s.gFreeSocketList } with
    gFreeSocketList := some obj
    frees := update s.frees obj (s.frees obj + 1) }

def closesocket : Option ℕ → State
  | none => s
  | some h => { s with closes := update s.closes h (s.closes h + 1) }

/-! ## Posting requests -/

/-- `ok` is the answer of `WSARecv`, which fails on a socket that is not open. -/
def postRecv (sock : SocketPtr) (recvobj : BufferPtr) (ok : Bool) : State :=
  let buf := s.buffer recvobj
  let s := s.setBuffer recvobj { buf with operation := .opRead }
  let so := s.socket sock
  match so.s with
  | none => s
  | some h =>
      if ok ∧ s.IsOpen h then
        { s.setSocket sock { so with outstandingRecv := so.outstandingRecv + 1 } with
          requests := update s.requests recvobj (s.requests recvobj ++ [.wsaRecv h buf.buflen]) }
      else s

/-- `ok` is the answer of `WSASend`; the result tells whether the send was posted. -/
def postSend (sock : SocketPtr) (sendobj : BufferPtr) (ok : Bool) : Bool × State :=
  let buf := s.buffer sendobj
  let s := s.setBuffer sendobj { buf with operation := .opWrite }
  let so := s.socket sock
  match so.s with
  | none => (false, s)
  | some h =>
      let s := { s with handed := update s.handed h (s.handed h ++ [buf.bytes]) }
      if ok ∧ s.IsOpen h then
        (true,
          { s.setSocket sock { so with outstandingSend := so.outstandingSend + 1 } with
            gOutstandingSends := s.gOutstandingSends + 1
            requests := update s.requests sendobj (s.requests sendobj ++ [.wsaSend h]) })
      else (false, s)

/-! ## `HandleIo` -/

/-- How a request completes: with an error, or with the bytes transferred. -/
abbrev Result := Option (List UInt8)

/-- The first branch that `HandleIo` takes, for the completion key and the
`operation` of the buffer. -/
def handleIo (buf : BufferPtr) (bytesTransfered : Option ℕ) :
    ListenPtr ⊕ SocketPtr → Option Pc
  | .inl listenobj =>
      match (s.buffer buf).operation, bytesTransfered with
      | .opAccept, none => some (.acceptFailed buf)
      | .opAccept, some n => some (.acceptDone listenobj buf n)
      | _, _ => none
  | .inr sockobj =>
      match (s.buffer buf).operation, bytesTransfered with
      | .opRead, none => some (.readFailed sockobj buf)
      | .opRead, some n => some (.readDone sockobj buf n)
      | .opWrite, none => some (.writeFailed sockobj buf)
      | .opWrite, some _ => some (.writeDone sockobj buf)
      | .opAccept, _ => none

/-- The provider puts the data of a receive or an accept into the buffer. -/
def receive (buf : BufferPtr) (h : ℕ) (data : List UInt8) : State :=
  { s.setBuffer buf ((s.buffer buf).fill data) with
    received := update s.received h (s.received h ++ [data]) }

/-- A request of `buf` completes: the provider fills the buffer, and the completion
has the key that the socket has been associated with. -/
def arrive (buf : BufferPtr) :
    Request → Result → Option (State × (ListenPtr ⊕ SocketPtr) × Option ℕ)
  | .acceptEx listen _ _, none => some (s, .inl listen, none)
  | .acceptEx listen h len, some data =>
      if data.length ≤ len then some (receive s buf h data, .inl listen, some data.length)
      else none
  | .wsaRecv h _, none => (s.key h).map fun o => (s, .inr o, none)
  | .wsaRecv h len, some data =>
      if data.length ≤ len then
        (s.key h).map fun o => (receive s buf h data, .inr o, some data.length)
      else none
  | .wsaSend h, none => (s.key h).map fun o => (s, .inr o, none)
  | .wsaSend h, some data => (s.key h).map fun o => (s, .inr o, some data.length)

/-- `GetQueuedCompletionStatus` gives the thread the completion of the `i`-th
request of `buf`. -/
def complete (t : ThreadId) (buf : BufferPtr) (i : ℕ) (result : Result) : Option State :=
  match s.thread t, (s.requests buf)[i]? with
  | .idle, some request =>
      match arrive { s with requests := update s.requests buf ((s.requests buf).eraseIdx i) }
          buf request result with
      | none => none
      | some (s, key, bytesTransfered) =>
          (handleIo s buf bytesTransfered key).map fun pc => s.goto t pc
  | _, _ => none

/-- The test at the end of `HandleIo` is made if there is a `SOCKET_OBJ`. -/
def Tail.pc : Tail → Pc
  | ⟨none, _⟩ => .idle
  | ⟨some sockobj, bCleanupSocket⟩ => .testSend sockobj bCleanupSocket

/-- Behind the test the socket is cleaned up if `bCleanupSocket` has been set. -/
def cleanup (sockobj : SocketPtr) (bCleanupSocket : Bool) : Pc :=
  if bCleanupSocket then .closeSocket sockobj else .idle

def AfterFree.pc : AfterFree → Pc
  | .done => .idle
  | .repost listenobj => .repost listenobj
  | .testLast sockobj => .testLast sockobj
  | .tail k => k.pc

/-- Behind `FreeSocketObj` the error path frees the buffer. -/
def afterFreeSocket : Option BufferPtr → Pc
  | none => .idle
  | some buf => .freeBufferObj buf .done

/-- Behind `EnqueuePendingOperation` an accept is reported to the main thread. -/
def afterEnqueue (sockobj : SocketPtr) : Option ListenPtr → Pc
  | some listenobj => .repost listenobj
  | none => .process ⟨some sockobj, false⟩

/-- The next step of a completion thread; `ok` is the answer of `HeapAlloc`,
`CreateIoCompletionPort`, `WSARecv` or `WSASend`. -/
def advance (c : Config) (t : ThreadId) (ok : Bool) : Option State :=
  match s.thread t with
  | .idle => none
  | .readFailed sockobj buf =>
      let so := s.socket sockobj
      let s := s.setSocket sockobj { so with outstandingRecv := so.outstandingRecv - 1 }
      some (s.goto t (if so.outstandingRecv - 1 = 0 then .readFailedTest sockobj buf
        else .freeBufferObj buf .done))
  | .readFailedTest sockobj buf =>
      some (s.goto t (if (s.socket sockobj).outstandingSend = 0
        then .freeSocketObj sockobj (some buf) else .freeBufferObj buf .done))
  | .writeFailed sockobj buf =>
      let so := s.socket sockobj
      let s := s.setSocket sockobj { so with outstandingSend := so.outstandingSend - 1 }
      some (s.goto t (if so.outstandingSend - 1 = 0 then .writeFailedTest sockobj buf
        else .freeBufferObj buf .done))
  | .writeFailedTest sockobj buf =>
      some (s.goto t (if (s.socket sockobj).outstandingRecv = 0
        then .freeSocketObj sockobj (some buf) else .freeBufferObj buf .done))
  | .acceptFailed buf =>
      let s := closesocket s (s.buffer buf).sclient
      let s := s.setBuffer buf { s.buffer buf with sclient := none }
      some (s.goto t (.freeBufferObj buf .done))
  | .acceptDone listenobj buf n =>
      let lo := s.listener listenobj
      let s := s.setListener listenobj { lo with pendingAcceptCount := lo.pendingAcceptCount - 1 }
      some (s.goto t (.removeAccept listenobj buf n))
  | .removeAccept listenobj buf n =>
      (removePendingAccept s listenobj buf).map fun s => s.goto t (.newSocketObj listenobj buf n)
  | .newSocketObj listenobj buf n =>
      match getSocketObj s (s.buffer buf).sclient ok with
      | (some clientobj, s) => some (s.goto t (.associate listenobj buf n clientobj))
      | (none, s) => some (s.goto t (.closeClient listenobj buf))
  | .closeClient listenobj buf =>
      let s := closesocket s (s.buffer buf).sclient
      let s := s.setBuffer buf { s.buffer buf with sclient := none }
      some (s.goto t (.freeBufferObj buf (.repost listenobj)))
  | .associate listenobj buf n clientobj =>
      match (s.socket clientobj).s with
      | none => some (s.goto t .idle)
      | some h =>
          if ok ∧ s.IsOpen h then
            some ({ s with key := update s.key h (some clientobj) }.goto t
              (.enqueue clientobj buf n (some listenobj)))
          else some (s.goto t .idle)
  | .repost listenobj =>
      let lo := s.listener listenobj
      let s := s.setListener listenobj { lo with repostCount := lo.repostCount + 1 }
      some (s.goto t (.signalRepost listenobj))
  | .signalRepost listenobj =>
      let s := s.setListener listenobj { s.listener listenobj with repostAccept := true }
      some (s.goto t (.process ⟨none, false⟩))
  | .readDone sockobj buf n =>
      let so := s.socket sockobj
      let s := s.setSocket sockobj { so with outstandingRecv := so.outstandingRecv - 1 }
      some (s.goto t (if 0 < n then .enqueue sockobj buf n none else .setClosing sockobj buf))
  | .setClosing sockobj buf =>
      let s := s.setSocket sockobj { s.socket sockobj with bClosing := true }
      some (s.goto t (.freeBufferObj buf (.testLast sockobj)))
  | .testLast sockobj =>
      let so := s.socket sockobj
      some (s.goto t (.process ⟨some sockobj, so.outstandingSend = 0 ∧ so.outstandingRecv = 0⟩))
  | .writeDone sockobj buf =>
      let so := s.socket sockobj
      let s := s.setSocket sockobj { so with outstandingSend := so.outstandingSend - 1 }
      some (s.goto t (.writeDoneGlobal sockobj buf))
  | .writeDoneGlobal sockobj buf =>
      let s := { s with gOutstandingSends := s.gOutstandingSends - 1 }
      let s := s.setBuffer buf { s.buffer buf with buflen := c.gBufferSize }
      some (s.goto t (.testClosing sockobj buf))
  | .testClosing sockobj buf =>
      some (s.goto t (if (s.socket sockobj).bClosing then .process ⟨some sockobj, false⟩
        else .postRecv sockobj buf))
  | .postRecv sockobj buf =>
      let s := s.setBuffer buf { s.buffer buf with sock := some sockobj }
      some ((IocpServer.postRecv s sockobj buf ok).goto t (.process ⟨some sockobj, false⟩))
  | .enqueue sockobj buf n listenobj =>
      let s := s.setBuffer buf { s.buffer buf with buflen := n, sock := some sockobj }
      (enqueuePendingOperation s buf).map fun s => s.goto t (afterEnqueue sockobj listenobj)
  | .process k =>
      some (s.goto t (if s.gOutstandingSends < c.gMaxSends then .dequeue k else k.pc))
  | .dequeue k =>
      match dequeuePendingOperation s with
      | none => none
      | some (none, s) => some (s.goto t k.pc)
      | some (some sendobj, s) => some (s.goto t (.postSend sendobj k))
  | .postSend sendobj k =>
      match (s.buffer sendobj).sock with
      | none => none
      | some sock =>
          match IocpServer.postSend s sock sendobj ok with
          | (true, s) => some (s.goto t (.process k))
          | (false, s) => some (s.goto t (.freeBufferObj sendobj (.tail k)))
  | .testSend sockobj bCleanup =>
      some (s.goto t (if (s.socket sockobj).outstandingSend = 0 then .testRecv sockobj bCleanup
        else cleanup sockobj bCleanup))
  | .testRecv sockobj bCleanup =>
      some (s.goto t (if (s.socket sockobj).outstandingRecv = 0 then .testCloses sockobj bCleanup
        else cleanup sockobj bCleanup))
  | .testCloses sockobj bCleanup =>
      some (s.goto t (cleanup sockobj (bCleanup || (s.socket sockobj).bClosing)))
  | .closeSocket sockobj =>
      let s := closesocket s (s.socket sockobj).s
      let s := s.setSocket sockobj { s.socket sockobj with s := none }
      some (s.goto t (.freeSocketObj sockobj none))
  | .freeSocketObj obj buf =>
      let s := closesocket s (s.socket obj).s
      let s := s.setSocket obj { s.socket obj with s := none }
      some (s.goto t (.pushSocketObj obj buf))
  | .pushSocketObj obj buf =>
      some ((IocpServer.pushSocketObj s obj).goto t (afterFreeSocket buf))
  | .freeBufferObj obj k => some ((IocpServer.freeBufferObj s obj).goto t k.pc)

/-! ## The main thread -/

/-- Where a round of posting ends: the initial one goes on with the next address. -/
def Round.finish (c : Config) (r : Round) : MainPc :=
  if r.initial ∧ r.listenobj + 1 < c.listeners then
    .test ⟨r.listenobj + 1, 0, c.gInitialAccepts, true⟩
  else .waiting

/-- The next step of the main thread; `ok` is the answer of `HeapAlloc`, `socket`
or `AcceptEx`. -/
def advanceMain (c : Config) (ok : Bool) : Option State :=
  match s.main with
  | .waiting | .exited => none
  | .exchange l =>
      let lo := s.listener l
      some { s.setListener l { lo with repostCount := 0 } with main := .reset l lo.repostCount }
  | .reset l limit =>
      some { s.setListener l { s.listener l with repostAccept := false } with
        main := .test ⟨l, 0, limit, false⟩ }
  | .test r =>
      some { s with main :=
        if r.i < r.limit ∧ (r.initial ∨ (s.listener r.listenobj).pendingAcceptCount < c.gMaxAccepts)
        then .getBufferObj { r with i := r.i + 1 } else r.finish c }
  | .getBufferObj r =>
      match getBufferObj s c.gBufferSize ok with
      | (some acceptobj, s) => some { s with main := .insert r acceptobj }
      | (none, s) => some { s with main := if r.initial then .exited else .test r }
  | .insert r acceptobj =>
      some { insertPendingAccept s r.listenobj acceptobj with main := .createSocket r acceptobj }
  | .createSocket r acceptobj =>
      let buf := { s.buffer acceptobj with operation := .opAccept }
      if ok then
        some { s.setBuffer acceptobj { buf with sclient := some (s.handles + 1) } with
          handles := s.handles + 1
          main := .acceptEx r acceptobj }
      else some { s.setBuffer acceptobj { buf with sclient := none } with main := .test r }
  | .acceptEx r acceptobj =>
      match ok, (s.buffer acceptobj).sclient with
      | true, some h =>
          some { s with
            requests := update s.requests acceptobj (s.requests acceptobj ++
              [.acceptEx r.listenobj h ((s.buffer acceptobj).buflen - (128 + 16) * 2)])
            main := .count r }
      | _, _ => some { s with main := .test r }
  | .count r =>
      let lo := s.listener r.listenobj
      some { s.setListener r.listenobj { lo with pendingAcceptCount := lo.pendingAcceptCount + 1 }
        with main := .test r }

/-- The walk through `PendingAccepts` that closes the connections which are `stale`;
`none` when the list goes round. -/
def closeStale (stale : BufferPtr → Bool) : ℕ → Option BufferPtr → State → Option State
  | 0, _, _ => none
  | _ + 1, none, s => some s
  | fuel + 1, some obj, s =>
      let s' :=
        if stale obj ∧ (s.buffer obj).sclient ≠ none then
          (closesocket s (s.buffer obj).sclient).setBuffer obj
            { s.buffer obj with sclient := none }
        else s
      closeStale stale fuel (s'.buffer obj).next s'

end Functions

/-! ## The system -/

inductive Action
  | complete (t : ThreadId) (buf : BufferPtr) (i : ℕ) (result : Result)
  | thread (t : ThreadId) (ok : Bool)
  | main (ok : Bool)
  -- the main thread has waited: for an `FD_ACCEPT`, for `RepostAccept`, too long
  | burst (listenobj : ListenPtr)
  | wake (listenobj : ListenPtr)
  | interval (listenobj : ListenPtr) (stale : List BufferPtr)

def burstAcceptCount : ℤ := 100

def step (c : Config) (s : State) : Action → Option State
  | .complete t buf i result => if t < c.threads then complete s t buf i result else none
  | .thread t ok => advance s c t ok
  | .main ok => advanceMain s c ok
  | .burst l =>
      match s.main with
      | .waiting =>
          if l < c.listeners then some { s with main := .test ⟨l, 0, burstAcceptCount, false⟩ }
          else none
      | _ => none
  | .wake l =>
      match s.main with
      | .waiting =>
          if l < c.listeners ∧ (s.listener l).repostAccept then some { s with main := .exchange l }
          else none
      | _ => none
  | .interval l stale =>
      match s.main with
      | .waiting =>
          if l < c.listeners then
            closeStale (fun b => decide (b ∈ stale)) (s.buffers + 1) (s.listener l).pendingAccepts s
          else none
      | _ => none

/-! ## Runs -/

def Pc.isIdle : Pc → Bool
  | .idle => true
  | _ => false

/-- The calls of `HandleIo` come one after another. -/
def OneAtATime (c : Config) (s : State) : Action → Prop
  | .complete _ _ _ _ => ∀ t < c.threads, (s.thread t).isIdle = true
  | _ => True

instance (c : Config) (s : State) (a : Action) : Decidable (OneAtATime c s a) :=
  match a with
  | .complete _ _ _ _ => inferInstanceAs (Decidable (∀ t < c.threads, _))
  | .thread _ _ | .main _ | .burst _ | .wake _ | .interval _ _ => isTrue trivial

/-- An accept completes with an error. -/
def acceptFails (s : State) : Action → Bool
  | .complete _ buf i none =>
      match (s.requests buf)[i]? with
      | some (.acceptEx _ _ _) => true
      | _ => false
  | _ => false

/-- The closing test of a thread finds that another thread has set `bClosing`. -/
def findsClosing (s : State) : Action → Bool
  | .thread t _ =>
      match s.thread t with
      | .testCloses sockobj bCleanupSocket => (s.socket sockobj).bClosing && !bCleanupSocket
      | _ => false
  | _ => false

end MiscProjects.IocpServer
