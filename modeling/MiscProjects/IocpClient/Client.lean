import Mathlib.Algebra.Ring.Nat
import Mathlib.Data.Int.Notation
import Mathlib.Logic.Function.Basic
import MiscProjects.Library.Runs

/-!
# The client over an I/O completion port

One connection of the client: its `SOCKET_OBJ`, the operations in flight on it, the threads
inside `HandleIo` and the thread that limits the rate of the sends.  A step is one interlocked
operation, one call of the provider or one read or write of a field that the threads share.

A send is a `WSASend`, or a `TransmitFile` with `gTransmitFile`: the two branches of `HandleIo`
differ in nothing else.  The main thread is the only one that calls `HandleIo`, when it has
posted all connects; the number of the threads that do is a parameter all the same.
-/

namespace MiscProjects.IocpClient

open Function (update)

abbrev ThreadId := ℕ

/-- The command line, and the number of the threads that call `HandleIo`. -/
structure Config where
  gBufferSize : ℤ
  gConnectionCount : ℤ
  gOverlappedCount : ℤ
  gRateLimit : ℤ
  gSendCount : ℤ
  gTransmitFile : Bool
  threads : ℕ

/-- The command line without options. -/
def defaults : Config where
  gBufferSize := 4096
  gConnectionCount := 10
  gOverlappedCount := 1
  gRateLimit := -1
  gSendCount := 100
  gTransmitFile := false
  threads := 1

/-- `gOverlappedCount` behind its check in `main`. -/
def Config.overlappedCount (c : Config) : ℤ :=
  if c.gTransmitFile ∧ c.gOverlappedCount > 1 then 1 else c.gOverlappedCount

def Config.rateLimited (c : Config) : Bool := c.gRateLimit ≠ -1

/-- A division by zero ends the program; here it gives zero. -/
def Config.gTimeout (c : Config) : ℤ :=
  if c.gRateLimit ≠ -1 then
    let gTimeout := (((c.gConnectionCount * c.gBufferSize).tdiv c.gRateLimit) * 1000).tdiv
      c.gConnectionCount
    if c.gRateLimit ≥ 1000000 then gTimeout.tdiv 2 else gTimeout
  else 0

inductive Operation
  | opConnect
  | opRead
  | opWrite
deriving DecidableEq

/-- Who calls `PostRecv` or `PostSend`: the loops of the connect handler, or the handler of a
completed receive or send. -/
inductive Caller
  | connect (i : ℤ)
  | completion
deriving DecidableEq

/-- What a thread in `HandleIo` does next. -/
inductive Pc
  | idle
  -- the error path
  | failed (operation : Operation)
  | testFailed
  | removeSocketObj
  | freeSocketObj
  -- `OP_CONNECT`, with `PostRecv` and `PostSend`
  | loopRecvs (i : ℤ)
  | postRecv (caller : Caller)
  | recvPosted (caller : Caller)
  | loopSends (i : ℤ)
  | postSend (caller : Caller)
  | sendPosted (caller : Caller)
  | sendCounted (caller : Caller)
  | testCount (i : ℤ)
  -- `OP_READ`
  | readDone (bytesTransfered : ℕ)
  -- `OP_WRITE` and `OP_TRANSMIT`
  | enter
  | testSends
  | queue
  | shutdown
  | leave (bCleanupSocket : Bool)
  -- the end
  | decrement (bCleanupSocket : Bool)
  | testClosing (bCleanupSocket : Bool)
  | cleanup
deriving DecidableEq

/-- What `SendThread` does next with the connection. -/
inductive SendPc
  | walking
  | testRepost
  | postSend
  | sendPosted
  | sendCounted
  | leave
  | freeing
  | exited
deriving DecidableEq

inductive MainPc
  | postConnect
  | sleep
  | work
deriving DecidableEq

/-- A connection.  `isOpen` tells that `s` is not `INVALID_SOCKET`, `repost` is the length of
`Repost`, and `sockCritSec` tells whether somebody is in the critical section.

`connects`, `recvs` and `sends` count the operations posted whose completions nobody has taken
yet.  The last fields record a run: how many sends have been posted, whether the sending side
has been shut down, whether the object is in `gConnectionList`, and how often it has been
removed and freed. -/
structure State where
  isOpen : Bool
  outstandingOps : ℤ
  sendCount : ℤ
  bClosing : Bool
  repost : ℕ
  sockCritSec : Bool
  connects : ℕ
  recvs : ℕ
  sends : ℕ
  main : MainPc
  thread : ThreadId → Pc
  sender : SendPc
  posted : ℕ
  shut : Bool
  listed : Bool
  removals : ℕ
  frees : ℕ

/-- The connection before `PostConnect`. -/
def State.start (c : Config) : State where
  isOpen := true
  outstandingOps := 0
  sendCount := c.gSendCount
  bClosing := false
  repost := 0
  sockCritSec := false
  connects := 0
  recvs := 0
  sends := 0
  main := .postConnect
  thread := fun _ => .idle
  sender := .walking
  posted := 0
  shut := false
  listed := true
  removals := 0
  frees := 0

def State.inFlight (s : State) : ℕ := s.connects + s.recvs + s.sends

def State.goto (s : State) (t : ThreadId) (pc : Pc) : State :=
  { s with thread := update s.thread t pc }

/-! ## The main thread and the completions -/

/-- The main thread posts the connect, and sleeps if the rate is limited; a time of `-1` never
passes. -/
def mainStep (c : Config) (s : State) (ok : Bool) : Option State :=
  match s.main with
  | .postConnect =>
      if ok then
        some { s with connects := 1, outstandingOps := s.outstandingOps + 1, main := .sleep }
      else some { s with main := .sleep }
  | .sleep =>
      if c.rateLimited ∧ c.gTimeout = -1 then none else some { s with main := .work }
  | .work => none

/-- How an operation completes: with an error, or with a number of bytes. -/
abbrev Result := Option ℕ

/-- The first branch of `HandleIo`. -/
def handleIo : Operation → Result → Pc
  | operation, none => .failed operation
  | .opConnect, some _ => .loopRecvs 0
  | .opRead, some bytesTransfered => .readDone bytesTransfered
  | .opWrite, some _ => .enter

/-- The completion of an operation is taken from the port. -/
def dequeue (s : State) : Operation → Option State
  | .opConnect => if 0 < s.connects then some { s with connects := s.connects - 1 } else none
  | .opRead => if 0 < s.recvs then some { s with recvs := s.recvs - 1 } else none
  | .opWrite => if 0 < s.sends then some { s with sends := s.sends - 1 } else none

/-- `GetQueuedCompletionStatus` gives a completion to a thread. -/
def complete (c : Config) (s : State) (t : ThreadId) (operation : Operation) (result : Result) :
    Option State :=
  if t < c.threads ∧ s.main = .work ∧ s.thread t = .idle then
    (dequeue s operation).map fun s => s.goto t (handleIo operation result)
  else none

/-- The loop of `main` does nothing with the completion of an operation that has failed. -/
def drop (s : State) (operation : Operation) : Option State :=
  if s.main = .work then dequeue s operation else none

/-! ## `HandleIo` -/

/-- Where the callers go on. -/
def Caller.recvSucceeds : Caller → Pc
  | .connect i => .loopRecvs (i + 1)
  | .completion => .decrement false

def Caller.sendFails : Caller → Pc
  | .connect _ => .decrement true
  | .completion => .leave true

def Caller.sendSucceeds : Caller → Pc
  | .connect i => .testCount i
  | .completion => .leave false

def freeSocketObj (s : State) : State :=
  if s.outstandingOps ≠ 0 then s
  else { s with isOpen := false, frees := s.frees + 1 }

/-- The next step of a thread in `HandleIo`; `ok` is the answer of the provider, which refuses
a socket that is not open. -/
def advance (c : Config) (s : State) (t : ThreadId) (ok : Bool) : Option State :=
  match s.thread t with
  | .idle => none
  | .failed operation =>
      let s := { s with isOpen := false }
      some (s.goto t (if operation = .opConnect then .removeSocketObj else .testFailed))
  | .testFailed => some (s.goto t (if s.outstandingOps = 0 then .removeSocketObj else .idle))
  | .removeSocketObj =>
      let s := { s with listed := false, removals := s.removals + 1 }
      some (s.goto t .freeSocketObj)
  | .freeSocketObj => some ((IocpClient.freeSocketObj s).goto t .idle)
  | .loopRecvs i =>
      some (s.goto t (if i < c.overlappedCount then .postRecv (.connect i) else .loopSends 0))
  | .postRecv caller =>
      if ok ∧ s.isOpen then some ({ s with recvs := s.recvs + 1 }.goto t (.recvPosted caller))
      else some (s.goto t (.decrement true))
  | .recvPosted caller =>
      some ({ s with outstandingOps := s.outstandingOps + 1 }.goto t caller.recvSucceeds)
  | .loopSends i =>
      some (s.goto t (if i < c.overlappedCount then .postSend (.connect i) else .decrement false))
  | .postSend caller =>
      if ok ∧ s.isOpen then
        some ({ s with sends := s.sends + 1, posted := s.posted + 1 }.goto t (.sendPosted caller))
      else some (s.goto t caller.sendFails)
  | .sendPosted caller =>
      some ({ s with outstandingOps := s.outstandingOps + 1 }.goto t (.sendCounted caller))
  | .sendCounted caller =>
      some ({ s with sendCount := s.sendCount - 1 }.goto t caller.sendSucceeds)
  | .testCount i =>
      some (s.goto t (if s.sendCount = 0 then .decrement false else .loopSends (i + 1)))
  | .readDone bytesTransfered =>
      if bytesTransfered > 0 ∧ s.bClosing = false then some (s.goto t (.postRecv .completion))
      else some ({ s with bClosing := true }.goto t (.decrement false))
  | .enter =>
      if s.sockCritSec then none else some ({ s with sockCritSec := true }.goto t .testSends)
  | .testSends =>
      some (s.goto t (if s.sendCount > 0 then
        if c.rateLimited then .queue else .postSend .completion
      else .shutdown))
  | .queue => some ({ s with repost := s.repost + 1 }.goto t (.leave false))
  | .shutdown => some ({ s with shut := true }.goto t (.leave false))
  | .leave bCleanupSocket =>
      some ({ s with sockCritSec := false }.goto t (.decrement bCleanupSocket))
  | .decrement bCleanupSocket =>
      let s := { s with outstandingOps := s.outstandingOps - 1 }
      some (s.goto t (if s.outstandingOps = 0 then .testClosing bCleanupSocket
        else if bCleanupSocket then .cleanup else .idle))
  | .testClosing bCleanupSocket =>
      some (s.goto t (if bCleanupSocket || s.bClosing then .cleanup else .idle))
  | .cleanup =>
      if s.sockCritSec then none
      else
        some ({ s with isOpen := false }.goto t
          (if c.gTimeout = -1 then .removeSocketObj else .idle))

/-! ## `SendThread` -/

/-- The next step of `SendThread`, which is there if the rate is limited. -/
def advanceSender (c : Config) (s : State) (ok : Bool) : Option State :=
  if c.rateLimited ∧ s.main = .work then
    match s.sender with
    | .walking =>
        if s.sockCritSec then none else some { s with sockCritSec := true, sender := .testRepost }
    | .testRepost =>
        if s.isOpen ∧ 0 < s.repost then
          some { s with repost := s.repost - 1, sender := .postSend }
        else some { s with sender := .leave }
    | .postSend =>
        if ok ∧ s.isOpen then
          some { s with sends := s.sends + 1, posted := s.posted + 1, sender := .sendPosted }
        else some { s with sender := .leave }
    | .sendPosted =>
        some { s with outstandingOps := s.outstandingOps + 1, sender := .sendCounted }
    | .sendCounted => some { s with sendCount := s.sendCount - 1, sender := .leave }
    | .leave => some { s with sockCritSec := false, sender := .walking }
    | .freeing => some { (if s.listed then freeSocketObj s else s) with sender := .exited }
    | .exited => none
  else none

/-- `SendThread` leaves its loop when `gConnectionList` is empty. -/
def finishSender (c : Config) (s : State) : Option State :=
  if c.rateLimited ∧ s.main = .work ∧ s.sender = .walking ∧ s.listed = false then
    some { s with sender := .freeing }
  else none

/-! ## The system -/

inductive Action
  | main (ok : Bool)
  | complete (t : ThreadId) (operation : Operation) (result : Result)
  | drop (operation : Operation)
  | thread (t : ThreadId) (ok : Bool)
  | sender (ok : Bool)
  | finish
deriving DecidableEq

def step (c : Config) (s : State) : Action → Option State
  | .main ok => mainStep c s ok
  | .complete t operation result => complete c s t operation result
  | .drop operation => drop s operation
  | .thread t ok => advance c s t ok
  | .sender ok => advanceSender c s ok
  | .finish => finishSender c s

end MiscProjects.IocpClient
