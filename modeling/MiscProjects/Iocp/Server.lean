import Mathlib.Algebra.Ring.Nat
import Mathlib.Data.Int.Notation
import MiscProjects.Library.Runs

/-!
# The echo server over an I/O completion port

One socket of the server: the sequence numbers of its `SOCKET_OBJ`, the list of
out-of-order sends, the receives and sends in flight, and the completions as
`HandleIo` handles them.  `HandleIo` runs under the socket's critical section,
so one call is one step; the thread that accepted the connection (or created
the UDP socket) posts the first receives beside it.

What the network and the provider do is an `Env`: how each posted receive is
filled, in the order of posting, and which posts succeed.  A step that would
touch freed memory is `none`.
-/

namespace MiscProjects.Iocp

inductive Protocol
  | tcp
  | udp
deriving DecidableEq

/-- The command line, the peer and the provider.  The `n`-th receive posted on
the socket completes with `fill n`, or with an error. -/
structure Env where
  gProtocol : Protocol
  gOverlappedCount : ℕ
  acceptData : List UInt8
  fill : ℕ → Option (List UInt8)
  recvPosts : ℕ → Bool
  sendPosts : ℕ → Bool

/-- A `BUFFER_OBJ` that has been filled: `receive` is the number of the receive
that filled it, or `none` for the data of the accept. -/
structure BufferObj where
  ioOrder : BitVec 32
  receive : Option ℕ
  buf : List UInt8
deriving DecidableEq

/-- A `BUFFER_OBJ` posted for a receive: its sequence number and which of the
receives it is. -/
structure RecvObj where
  ioOrder : BitVec 32
  receive : ℕ
deriving DecidableEq

/-- The `SOCKET_OBJ` members in use. -/
structure SocketObj where
  bClosing : Bool
  outstandingOps : ℤ
  lastSendIssued : BitVec 32
  ioCountIssued : BitVec 32
  outOfOrderSends : List BufferObj
deriving DecidableEq

/-- The state of one socket.  `dangling` tells that the head of the
out-of-order list has been freed, `counting` that the posting thread has still
to count the operation it posted last, and `toPost` how many of the first
receives it has still to post. -/
structure Server where
  sock : SocketObj
  freed : Bool
  dangling : Bool
  counting : Bool
  toPost : ℕ
  recvCalls : ℕ
  sendCalls : ℕ
  inFlight : List RecvObj
  sendsInFlight : ℕ
  handed : List BufferObj
deriving DecidableEq

/-! ## Posting -/

/-- `PostRecv` up to the end of its critical section. -/
def postRecv (env : Env) (t : Server) : Server × Bool :=
  let posted := env.recvPosts t.recvCalls
  ({ t with
     sock := { t.sock with ioCountIssued := t.sock.ioCountIssued + 1 },
     recvCalls := t.recvCalls + 1,
     inFlight :=
       if posted then
         t.inFlight ++ [⟨t.sock.ioCountIssued, t.recvCalls⟩]
       else t.inFlight }, posted)

/-- `PostSend` up to the end of its critical section: `LastSendIssued` is
incremented whether or not the send can be issued. -/
def postSend (env : Env) (sendobj : BufferObj) (t : Server) : Server × Bool :=
  let posted := env.sendPosts t.sendCalls
  ({ t with
     sock := { t.sock with lastSendIssued := t.sock.lastSendIssued + 1 },
     sendCalls := t.sendCalls + 1,
     sendsInFlight :=
       if posted then t.sendsInFlight + 1 else t.sendsInFlight,
     handed := t.handed ++ [sendobj] }, posted)

/-- `InterlockedIncrement(&sock->OutstandingOps)` after a post that succeeded. -/
def countPost (posted : Server × Bool) : Server × Bool :=
  if posted.2 then
    ({ posted.1 with sock :=
        { posted.1.sock with
          outstandingOps := posted.1.sock.outstandingOps + 1 } }, true)
  else posted

/-! ## Out-of-order sends -/

/-- The insertion of `InsertPendingSend`: before the first buffer with a larger
sequence number. -/
def insertSend (send : BufferObj) : List BufferObj → List BufferObj
  | [] => [send]
  | ptr :: rest =>
      if send.ioOrder < ptr.ioOrder then send :: ptr :: rest
      else ptr :: insertSend send rest

def insertPendingSend (send : BufferObj) (t : Server) : Server :=
  { t with sock :=
    { t.sock with
      outOfOrderSends := insertSend send t.sock.outOfOrderSends } }

/-- The loop of `DoSends`.  A buffer whose send fails is freed and stays linked
at the head of the list. -/
def sendLoop (env : Env) : List BufferObj → Server → Server × Bool
  | [], t => ({ t with sock := { t.sock with outOfOrderSends := [] } }, true)
  | sendobj :: rest, t =>
      if sendobj.ioOrder = t.sock.lastSendIssued then
        let posted := countPost (postSend env sendobj t)
        if posted.2 then sendLoop env rest posted.1
        else
          ({ posted.1 with
             sock := { posted.1.sock with outOfOrderSends := sendobj :: rest },
             dangling := true }, false)
      else
        ({ t with sock := { t.sock with outOfOrderSends := sendobj :: rest } },
          true)

/-- `DoSends`; reading the sequence number of a freed buffer is `none`. -/
def doSends (env : Env) (t : Server) : Option (Server × Bool) :=
  if t.dangling then none
  else some (sendLoop env t.sock.outOfOrderSends t)

/-! ## Handling a completion -/

/-- `FreeSocketObj`: nothing happens while operations are outstanding. -/
def freeSocketObj (t : Server) : Server :=
  if t.sock.outstandingOps = 0 then { t with freed := true } else t

def setClosing (t : Server) : Server :=
  { t with sock := { t.sock with bClosing := true } }

/-- `InterlockedDecrement(&sock->OutstandingOps)`. -/
def decrementOps (t : Server) : Server :=
  { t with sock :=
    { t.sock with outstandingOps := t.sock.outstandingOps - 1 } }

/-- The end of `HandleIo`: note an error, count the operation as done, and
clean the socket up or try to send once more. -/
def finishIo (env : Env) (bCleanupSocket error : Bool) (t : Server) :
    Option Server :=
  let noted := decrementOps (if error then setClosing t else t)
  if noted.sock.outstandingOps = 0 ∧ noted.sock.bClosing = true ∧
      noted.sock.outOfOrderSends = [] then
    some (freeSocketObj noted)
  else
    match doSends env noted with
    | none => none
    | some (sent, ok) =>
        if bCleanupSocket || !ok then some (freeSocketObj sent) else some sent

/-- The branch of `HandleIo` for an error on a TCP socket. -/
def tcpError (t : Server) : Server :=
  let counted := decrementOps t
  if counted.sock.outstandingOps = 0 then freeSocketObj counted else counted

/-- The branch of `HandleIo` for a receive that completed with data: queue the
buffer, send what is in order and post another receive. -/
def handleData (env : Env) (recvobj : RecvObj) (bytes : List UInt8)
    (t : Server) : Option Server :=
  if t.dangling then none
  else
    let queued :=
      insertPendingSend ⟨recvobj.ioOrder, some recvobj.receive, bytes⟩ t
    match doSends env queued with
    | none => none
    | some (sent, true) =>
        let posted := countPost (postRecv env sent)
        finishIo env false (!posted.2) posted.1
    | some (sent, false) => finishIo env false true sent

/-- The branch of `HandleIo` for a TCP receive of zero bytes. -/
def handleClose (env : Env) (t : Server) : Option Server :=
  match doSends env (setClosing t) with
  | none => none
  | some (sent, ok) =>
      finishIo env
        (decide (sent.sock.outstandingOps = 0 ∧
          sent.sock.outOfOrderSends = []))
        (!ok) sent

/-- `HandleIo` on a completed receive. -/
def handleRead (env : Env) (recvobj : RecvObj) (t : Server) : Option Server :=
  match env.gProtocol, env.fill recvobj.receive with
  | .tcp, none => some (tcpError t)
  | .udp, none =>
      -- the receive is posted again, but the error code is still set
      finishIo env false true (countPost (postRecv env t)).1
  | .tcp, some [] => handleClose env t
  | .tcp, some (byte :: bytes) => handleData env recvobj (byte :: bytes) t
  | .udp, some bytes => handleData env recvobj bytes t

/-- `HandleIo` on a completed send. -/
def handleWrite (env : Env) (error : Bool) (t : Server) : Option Server :=
  if error = true ∧ env.gProtocol = .tcp then some (tcpError t)
  else
    match doSends env t with
    | none => none
    | some (sent, ok) => finishIo env false (error || !ok) sent

/-! ## The system -/

/-- `GetSocketObj`: a connection keeps number 0 for the data of the accept. -/
def getSocketObj (gProtocol : Protocol) : SocketObj :=
  { bClosing := false, outstandingOps := 0, lastSendIssued := 0,
    ioCountIssued := if gProtocol = .tcp then 1 else 0,
    outOfOrderSends := [] }

/-- A new socket, with nothing posted on it. -/
def Server.idle (env : Env) : Server :=
  { sock := getSocketObj env.gProtocol,
    freed := false, dangling := false, counting := false,
    toPost := env.gOverlappedCount, recvCalls := 0, sendCalls := 0,
    inFlight := [], sendsInFlight := 0, handed := [] }

/-- The socket when its first receives are about to be posted.  An accepted
connection has already been handed the data of the accept. -/
def Server.create (env : Env) : Server :=
  match env.gProtocol with
  | .udp => .idle env
  | .tcp =>
      let posted := postSend env ⟨0, none, env.acceptData⟩ (.idle env)
      if posted.2 then { posted.1 with counting := true }
      else freeSocketObj { posted.1 with toPost := 0 }

inductive IoAction
  | postFirst
  | countFirst
  | recvCompletes (recvobj : RecvObj)
  | sendCompletes (error : Bool)
deriving DecidableEq

/-- The posting thread posts one of the first receives.  If that fails on a
connection, the connection is closed or marked as closing. -/
def postFirst (env : Env) (t : Server) : Server :=
  let posted := postRecv env { t with toPost := t.toPost - 1 }
  if posted.2 then { posted.1 with counting := true }
  else
    match env.gProtocol with
    | .udp => posted.1
    | .tcp =>
        if posted.1.sock.outstandingOps = 0 then
          freeSocketObj { posted.1 with toPost := 0 }
        else setClosing { posted.1 with toPost := 0 }

/-- One step: the posting thread goes on, or a completion is handled. -/
def ioStep (env : Env) (t : Server) (a : IoAction) : Option Server :=
  if t.freed then none
  else
    match a with
    | .postFirst =>
        if 0 < t.toPost ∧ t.counting = false then some (postFirst env t)
        else none
    | .countFirst =>
        if t.counting then
          some { t with
            counting := false,
            sock := { t.sock with
              outstandingOps := t.sock.outstandingOps + 1 } }
        else none
    | .recvCompletes recvobj =>
        if recvobj ∈ t.inFlight then
          handleRead env recvobj
            { t with inFlight := t.inFlight.erase recvobj }
        else none
    | .sendCompletes error =>
        if 0 < t.sendsInFlight then
          handleWrite env error
            { t with sendsInFlight := t.sendsInFlight - 1 }
        else none

end MiscProjects.Iocp
