import MiscProjects.IocpServer.Server
import MiscProjects.Library.Pairing

/-!
# Who has what

The server is right because every object has one owner at a time.  A `BUFFER_OBJ`
is at one `Place`: in one of the lists, with the provider, or in the hands of one
thread.  A `SOCKET_OBJ` is in one `Phase`, which also says what its counters are;
a connection in use has one buffer, or one thread that is handling its last
completion.  A socket has one `Owner`.

`Owned s g` says that the state is as the places, phases and owners say.
-/

namespace MiscProjects.IocpServer

open SinglyLinked Pairing

/-! ## Places, phases and owners -/

/-- The counters of a `SOCKET_OBJ`. -/
structure Counts where
  outstandingRecv : ℤ
  outstandingSend : ℤ
  pendingSend : ℤ
  bClosing : Bool

def Counts.zero : Counts := ⟨0, 0, 0, false⟩

def SocketObj.counts (so : SocketObj) : Counts :=
  ⟨so.outstandingRecv, so.outstandingSend, so.pendingSend, so.bClosing⟩

inductive Holder
  | thread (t : ThreadId)
  | main
deriving DecidableEq

/-- How far the `AcceptEx` of a buffer in `PendingAccepts` has come; `client` is the
`sclient` of the buffer, which the main thread may close. -/
inductive Await
  | inserted
  | idle (client : Option ℕ)
  | inFlight (h : ℕ) (len : ℕ) (client : Option ℕ)
  | done (t : ThreadId) (client : Option ℕ) (data : List UInt8)

/-- Where a `BUFFER_OBJ` is. -/
inductive Place
  | fresh
  | free
  | spare
  | listed (l : ListenPtr) (w : Await)
  | accepted (t : ThreadId) (client : Option ℕ) (data : List UInt8)
  | held (t : ThreadId) (data : List UInt8)
  | pending (o : SocketPtr) (h : ℕ) (data : List UInt8)
  | dequeued (t : ThreadId) (o : SocketPtr) (data : List UInt8)
  | receiving (o : SocketPtr) (h : ℕ) (len : ℕ)
  | sending (o : SocketPtr) (h : ℕ)

/-- The one that works for a connection: a thread, or the provider or the queue
with a buffer. -/
inductive Worker
  | thread (t : ThreadId)
  | buffer (b : BufferPtr)

/-- How a `SOCKET_OBJ` is used.  `unsent` is what has been received on its socket
and not been handed on.  A thread that gives a connection up, a request having
failed, keeps it for ever. -/
inductive Phase
  | fresh
  | free
  | taken (t : ThreadId) (h : ℕ) (unsent : List (List UInt8))
  | live (w : Worker) (h : ℕ) (unsent : List (List UInt8)) (c : Counts)
  | invalid (t : ThreadId)
  | shut (t : ThreadId)

inductive Owner
  | fresh
  | buffer (b : BufferPtr) (unsent : List (List UInt8))
  | socket (o : SocketPtr) (unsent : List (List UInt8))
  | gone

structure Ghost where
  place : BufferPtr → Place
  phase : SocketPtr → Phase
  owner : ℕ → Owner

/-! ## What a place says -/

inductive ListId
  | free
  | pending
  | accepts (l : ListenPtr)
deriving DecidableEq

def Place.list : Place → Option ListId
  | .free => some .free
  | .pending _ _ _ => some .pending
  | .listed l _ => some (.accepts l)
  | _ => none

def Place.requests : Place → List Request
  | .listed l (.inFlight h len _) => [.acceptEx l h len]
  | .receiving _ h len => [.wsaRecv h len]
  | .sending _ h => [.wsaSend h]
  | _ => []

/-- The socket of an accept, and what has been received on it. -/
def Place.client : Place → Option (ℕ × List (List UInt8))
  | .listed _ (.idle c) => c.map (·, [])
  | .listed _ (.inFlight _ _ c) => c.map (·, [])
  | .listed _ (.done _ c data) => c.map (·, [data])
  | .accepted _ c data => c.map (·, [data])
  | _ => none

/-- The connection that a buffer works for. -/
def Place.work : Place → Option (SocketPtr × ℕ × List (List UInt8) × Counts)
  | .pending o h data => some (o, h, [data], ⟨0, 0, 1, false⟩)
  | .receiving o h _ => some (o, h, [], ⟨1, 0, 0, false⟩)
  | .sending o h => some (o, h, [], ⟨0, 1, 0, false⟩)
  | _ => none

def Place.holder : Place → Option Holder
  | .spare | .listed _ .inserted | .listed _ (.idle _) => some .main
  | .listed _ (.done t _ _) | .accepted t _ _ | .held t _ | .dequeued t _ _ => some (.thread t)
  | _ => none

def Place.Describes (obj : BufferObj) : Place → Prop
  | .listed _ (.idle c) => obj.sclient = c ∧ obj.operation = .opAccept
  | .listed _ (.inFlight h _ c) =>
      obj.sclient = c ∧ obj.operation = .opAccept ∧ (c = some h ∨ c = none)
  | .listed _ (.done _ c data) | .accepted _ c data => obj.sclient = c ∧ data <+: obj.buf
  | .held _ data => data <+: obj.buf
  | .pending o _ data | .dequeued _ o data => obj.sock = some o ∧ obj.bytes = data
  | .receiving _ _ _ => obj.operation = .opRead
  | .sending _ _ => obj.operation = .opWrite
  | _ => True

/-! ## What a phase says -/

def Phase.link : Phase → Option (ℕ × List (List UInt8))
  | .taken _ h unsent | .live _ h unsent _ => some (h, unsent)
  | _ => none

def Phase.work : Phase → Option (BufferPtr × ℕ × List (List UInt8) × Counts)
  | .live (.buffer b) h unsent c => some (b, h, unsent, c)
  | _ => none

def Phase.holder : Phase → Option Holder
  | .taken t _ _ | .live (.thread t) _ _ _ | .invalid t | .shut t => some (.thread t)
  | _ => none

/-- The thread that is going to free the object. -/
def Phase.closer : Phase → Option ThreadId
  | .live (.thread t) _ _ c => if c.bClosing then some t else none
  | .shut t => some t
  | _ => none

def Phase.InUse : Phase → Prop
  | .fresh | .free => False
  | _ => True

def Phase.Describes (so : SocketObj) : Phase → Prop
  | .fresh | .free => so.counts = .zero
  | .taken _ h _ => so.s = some h ∧ so.counts = .zero
  | .live _ h _ c => so.s = some h ∧ so.counts = c
  | .invalid _ => so.s = none ∧ so.counts = .zero
  | .shut _ => so.s = none

/-- The socket is associated with the completion port under the object's address. -/
def Phase.Keyed (key : ℕ → Option SocketPtr) (o : SocketPtr) : Phase → Prop
  | .live _ h _ _ => key h = some o
  | _ => True

/-! ## What an owner says -/

def Owner.client : Owner → Option (BufferPtr × List (List UInt8))
  | .buffer b unsent => some (b, unsent)
  | _ => none

def Owner.link : Owner → Option (SocketPtr × List (List UInt8))
  | .socket o unsent => some (o, unsent)
  | _ => none

/-- What has been received and handed on, as far as the socket is in use. -/
def Owner.Logged (received handed : List (List UInt8)) : Owner → Prop
  | .fresh => received = [] ∧ handed = []
  | .buffer _ unsent | .socket _ unsent => received = handed ++ unsent
  | .gone => handed <+: received

def Owner.closes : Owner → ℕ
  | .gone => 1
  | _ => 0

/-! ## What a thread has in hand -/

/-- What the holder of a buffer may rely on: while the buffer is in `PendingAccepts`
its socket may be closed. -/
def Place.seen : Place → Place
  | .listed l (.done t _ data) => .listed l (.done t none data)
  | p => p

/-- What `w` holds of the things that `f` describes. -/
def inHand {α δ : Type*} (holder : δ → Option Holder) (seen : δ → δ) (f : α → δ) (w : Holder)
    (a : α) : Option δ :=
  if holder (f a) = some w then some (seen (f a)) else none

/-- The part of the ghost state that one thread holds. -/
structure Hand where
  place : BufferPtr → Option Place
  phase : SocketPtr → Option Phase

def Ghost.hand (g : Ghost) (w : Holder) : Hand where
  place := inHand Place.holder Place.seen g.place w
  phase := inHand Phase.holder id g.phase w

section Hands
variable {H : Hand} {t : ThreadId}

/-- The thread works for the connection. -/
def Hand.Works (H : Hand) (t : ThreadId) (o : SocketPtr) (unsent : List (List UInt8))
    (c : Counts) : Prop :=
  ∃ h, H.phase o = some (.live (.thread t) h unsent c)

def Hand.Holds (H : Hand) (t : ThreadId) (b : BufferPtr) : Prop :=
  ∃ data, H.place b = some (.held t data)

/-- A thread that cleans up has the object for itself. -/
def Hand.Cleans (H : Hand) (t : ThreadId) (o : SocketPtr) : Prop :=
  ∃ unsent, H.Works t o unsent ⟨0, 0, 0, true⟩

def Hand.Tail (H : Hand) (t : ThreadId) (k : Tail) : Prop :=
  k.bCleanupSocket = true → ∃ o, k.sockobj = some o ∧ H.Cleans t o

def Hand.AfterFree (H : Hand) (t : ThreadId) : AfterFree → Prop
  | .done | .repost _ => True
  | .testLast o => H.Cleans t o
  | .tail k => H.Tail t k

/-- What a thread has in hand when it is about to do the step `pc`. -/
def Hand.At (H : Hand) (t : ThreadId) : Pc → Prop
  | .idle | .repost _ | .signalRepost _ => True
  | .readFailed o b => (∃ u, H.Works t o u ⟨1, 0, 0, false⟩) ∧ H.Holds t b
  | .writeFailed o b => (∃ u, H.Works t o u ⟨0, 1, 0, false⟩) ∧ H.Holds t b
  | .readFailedTest o b | .writeFailedTest o b => (∃ u, H.Works t o u .zero) ∧ H.Holds t b
  | .acceptFailed _ => False
  | .acceptDone l b n | .removeAccept l b n =>
      ∃ data, H.place b = some (.listed l (.done t none data)) ∧ data.length = n
  | .newSocketObj _ b n => ∃ c data, H.place b = some (.accepted t c data) ∧ data.length = n
  | .closeClient _ b => ∃ c data, H.place b = some (.accepted t c data)
  | .associate _ b n o =>
      ∃ data, H.place b = some (.held t data) ∧ data.length = n ∧
        ((∃ h, H.phase o = some (.taken t h [data])) ∨ H.phase o = some (.invalid t))
  | .enqueue o b n _ =>
      ∃ data, H.place b = some (.held t data) ∧ data.length = n ∧ H.Works t o [data] .zero
  | .readDone o b n =>
      ∃ data, H.place b = some (.held t data) ∧ data.length = n ∧
        H.Works t o [data] ⟨1, 0, 0, false⟩
  | .setClosing o b => (∃ u, H.Works t o u .zero) ∧ H.Holds t b
  | .writeDone o b => H.Works t o [] ⟨0, 1, 0, false⟩ ∧ H.Holds t b
  | .writeDoneGlobal o b | .testClosing o b | .postRecv o b =>
      H.Works t o [] .zero ∧ H.Holds t b
  | .testLast o | .closeSocket o => H.Cleans t o
  | .process k | .dequeue k => H.Tail t k
  | .postSend b k =>
      (∃ o data, H.place b = some (.dequeued t o data) ∧ H.Works t o [data] .zero) ∧ H.Tail t k
  | .testSend o c | .testRecv o c | .testCloses o c => H.Tail t ⟨some o, c⟩
  | .freeSocketObj o b =>
      ((∃ u c, H.Works t o u c) ∨ H.phase o = some (.shut t)) ∧ ∀ b' ∈ b, H.Holds t b'
  | .pushSocketObj o b => H.phase o = some (.shut t) ∧ ∀ b' ∈ b, H.Holds t b'
  | .freeBufferObj b k => H.Holds t b ∧ H.AfterFree t k

/-- What the main thread has in hand. -/
def Hand.AtMain (H : Hand) : MainPc → Prop
  | .insert _ b => H.place b = some .spare
  | .createSocket r b => H.place b = some (.listed r.listenobj .inserted)
  | .acceptEx r b => ∃ h, H.place b = some (.listed r.listenobj (.idle (some h)))
  | _ => True

def Tail.cleans : Tail → Option SocketPtr
  | ⟨o, bCleanupSocket⟩ => if bCleanupSocket then o else none

/-- The object that a thread is going to free. -/
def Pc.cleans : Pc → Option SocketPtr
  | .testLast o | .closeSocket o | .freeSocketObj o _
  | .pushSocketObj o _ | .freeBufferObj _ (.testLast o) => some o
  | .process k | .dequeue k | .postSend _ k | .freeBufferObj _ (.tail k) => k.cleans
  | .testSend o c | .testRecv o c | .testCloses o c => if c then some o else none
  | _ => none

end Hands

/-! ## The invariant -/

/-- The buffers are as their places say. -/
structure BuffersOk (requests : BufferPtr → List Request) (buffer : BufferPtr → BufferObj)
    (buffers : ℕ) (place : BufferPtr → Place) : Prop where
  requests : ∀ b, requests b = (place b).requests
  describes : ∀ b, (place b).Describes (buffer b)
  fresh : ∀ b, place b = .fresh ↔ buffers ≤ b

/-- The `SOCKET_OBJ`s are as their phases say. -/
structure SocketsOk (socket : SocketPtr → SocketObj) (key : ℕ → Option SocketPtr)
    (sockets : ℕ) (phase : SocketPtr → Phase) : Prop where
  describes : ∀ o, (phase o).Describes (socket o)
  keyed : ∀ o, (phase o).Keyed key o
  fresh : ∀ o, phase o = .fresh ↔ sockets ≤ o

/-- Places, phases and owners agree with each other. -/
structure Agreed (g : Ghost) : Prop where
  client : Paired (Place.client ∘ g.place) (Owner.client ∘ g.owner)
  link : Paired (Phase.link ∘ g.phase) (Owner.link ∘ g.owner)
  work : Paired (Place.work ∘ g.place) (Phase.work ∘ g.phase)
  stale : ∀ b l h len, g.place b = .listed l (.inFlight h len none) → g.owner h = .gone

/-- The sockets and the record of the run are as the owners say. -/
structure HandlesOk (received handed : ℕ → List (List UInt8)) (closes : ℕ → ℕ) (handles : ℕ)
    (key : ℕ → Option SocketPtr) (owner : ℕ → Owner) : Prop where
  logged : ∀ h, (owner h).Logged (received h) (handed h)
  closes : ∀ h, closes h = (owner h).closes
  fresh : ∀ h, owner h = .fresh ↔ h = 0 ∨ handles < h
  keys : ∀ h o, key h = some o → owner h = .gone ∨ ∃ u, owner h = .socket o u

def State.heads (s : State) : ListId → Option BufferPtr
  | .free => s.gFreeBufferList
  | .pending => s.gPendingSendList
  | .accepts l => (s.listener l).pendingAccepts

/-- The lists of buffers are as the places say. -/
def ListsOk (buffer : BufferPtr → BufferObj) (heads : ListId → Option BufferPtr)
    (last : Option BufferPtr) (place : BufferPtr → Place) : Prop :=
  ∃ content, Lists (BufferObj.next ∘ buffer) heads (Place.list ∘ place) content ∧
    last = (content .pending).getLast?

/-- The list of free `SOCKET_OBJ`s, and how often each has been got and put back. -/
structure FreeSocketsOk (socket : SocketPtr → SocketObj) (head : Option SocketPtr)
    (gets frees : SocketPtr → ℕ) (phase : SocketPtr → Phase) : Prop where
  chain : ∃ free, Chain (SocketObj.next ∘ socket) head free ∧ ∀ o, o ∈ free ↔ phase o = .free
  inUse : ∀ o, (phase o).InUse → gets o = frees o + 1
  notInUse : ∀ o, ¬ (phase o).InUse → gets o = frees o

structure ThreadsOk (thread : ThreadId → Pc) (g : Ghost) : Prop where
  at_pc : ∀ t, (g.hand (.thread t)).At t (thread t)
  cleans : ∀ o t, (g.phase o).closer = some t → (thread t).cleans = some o

structure MainOk (main : MainPc) (g : Ghost) : Prop where
  at_pc : (g.hand .main).AtMain main
  inserted : ∀ b l, g.place b = .listed l .inserted → ∃ r, main = .createSocket r b

/-- The objects are as the ghost state says. -/
structure Memory (s : State) (g : Ghost) : Prop where
  buffers : BuffersOk s.requests s.buffer s.buffers g.place
  sockets : SocketsOk s.socket s.key s.sockets g.phase
  agreed : Agreed g
  handles : HandlesOk s.received s.handed s.closes s.handles s.key g.owner
  lists : ListsOk s.buffer s.heads s.gPendingSendListEnd g.place
  freeSockets : FreeSocketsOk s.socket s.gFreeSocketList s.gets s.frees g.phase

/-- The objects and the threads are as the ghost state says. -/
structure Owned (s : State) (g : Ghost) : Prop where
  memory : Memory s g
  threads : ThreadsOk s.thread g
  main : MainOk s.main g

end MiscProjects.IocpServer
