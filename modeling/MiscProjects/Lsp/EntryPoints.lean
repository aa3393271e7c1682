import MiscProjects.Lsp.Programs

/-!
# The entry points

The program of each `WSP*` and `Ext*` function, of the completion routine and of
the worker thread.  Their parameters are the arguments, and the results of the
lower provider, of the upcalls and of the heap, as far as the socket contexts
depend on them.  What is passed through to the lower provider and what only the
result depends on is left out.
-/

namespace MiscProjects.Lsp.Calls

/-! ## Overlapped operations -/

/-- `CheckForContextCleanup` for an operation of the context `own` on the socket
`callerSocket`. -/
def checkForContextCleanup (callerSocket : Socket) (own : Addr) (k : Prog) : Prog :=
  .find callerSocket fun
    | none => k
    | some a =>
        .acquireSocketLock own <| .count own (-1) <| .inspect own fun si =>
          if si.bClosing = true ∧ si.dwOutstandingAsync = 0 ∧ si.refCount = 1 then
            .closeHandle callerSocket fun _ => .releaseSocketLock own <| .free a k
          else .releaseFound own a <| .unlock a false k

/-- `ExecuteOverlappedOperation`; `fails` tells whether the lower provider
fails without `WSA_IO_PENDING`. -/
def executeOverlappedOperation (callerSocket : Socket) (own : Addr) (fails : Bool)
    (k : Prog) : Prog :=
  if fails then checkForContextCleanup callerSocket own k else k

/-- `QueueOverlappedOperation`, with or without a completion port. -/
def queueOverlappedOperation (iocp : Bool) (callerSocket : Socket) (own : Addr)
    (fails : Bool) (k : Prog) : Prog :=
  if iocp then
    .acquireSocketLock own <| .releaseSocketLock own <|
      executeOverlappedOperation callerSocket own fails k
  else k

def getOverlappedStructure (a : Addr) (k : Prog) : Prog :=
  .acquireSocketLock a <| .count a 1 <| .releaseSocketLock a k

/-- How a call is made and what comes of it: whether there is an `OVERLAPPED`,
a structure for it, a completion port, and an immediate failure. -/
structure OverlappedCall where
  lpOverlapped : Bool
  found : Bool
  iocp : Bool
  fails : Bool
deriving DecidableEq

/-- The part of a call that differs with `lpOverlapped`. -/
def overlapped (s : Socket) (a : Addr) (call : OverlappedCall) (k : Prog) : Prog :=
  if call.lpOverlapped then
    getOverlappedStructure a <|
      if call.found then queueOverlappedOperation call.iocp s a call.fails k else k
  else k

/-- `IntermediateCompletionRoutine`; `ok` tells whether the operation has
succeeded, `acceptSocket` is the accept socket of an `AcceptEx`. -/
def intermediateCompletionRoutine (callerSocket : Socket) (own : Addr)
    (acceptSocket : Option Socket) (ok : Bool) (k : Prog) : Prog :=
  .find callerSocket fun
    | none => k
    | some a =>
        let rest : Prog := .unlock a false <| checkForContextCleanup callerSocket own k
        if ok then
          .acquireSocketLock a <|
            match acceptSocket with
            | none => .releaseSocketLock a rest
            | some s =>
                .find s fun
                  | none => .crash
                  | some b => .unlock b false <| .releaseSocketLock a rest
        else rest

/-! ## Calls of the provider table -/

/-- The entry points that look the context up, call the lower provider or read
the context, and unlock. -/
def withContext (s : Socket) (body : Addr → Prog → Prog) : Prog :=
  .find s fun
    | none => .ret
    | some a => body a (.unlock a false .ret)

/-- Nothing happens to the context. -/
def untouched (_ : Addr) (k : Prog) : Prog := k

/-- `CreateSockInfo` and `WPUCreateSocketHandle`; `alloc` and `newSocket` are
their results, `failed` is what follows when there is no handle. -/
def newContext (alloc : Option Addr) (newSocket : Option Socket)
    (failed : Addr → Prog → Prog) (k : Prog) : Prog :=
  match alloc with
  | none => k
  | some b =>
      .create b <|
        match newSocket with
        | none => failed b k
        | some ns => .createHandle ns b k

def wspAccept (s : Socket) (accepted : Bool) (alloc : Option Addr)
    (newSocket : Option Socket) : Prog :=
  withContext s fun _ k =>
    if accepted then newContext alloc newSocket (fun _ k => k) k else k

def wspAddressToString : Prog := .ret

def wspAsyncSelect (s : Socket) (isWindow validEvents : Bool) : Prog :=
  if isWindow && validEvents then withContext s untouched else .ret

def wspBind (s : Socket) : Prog := withContext s untouched

/-- The test for a provider is the wrong way round. -/
def wspCancelBlockingCall (blocking : Bool) : Prog :=
  if blocking then .ret else .crash

/-- `lastCleanup` tells whether the entry count gets to 0. -/
def wspCleanup (lastCleanup : Bool) : Prog :=
  if lastCleanup then .freeAll .ret else .ret

/-- `WSPCloseSocket` in the `SockCritSec`. -/
def closeLocked (s : Socket) (a : Addr) (lowerCloses : Bool) (si : SockInfo) : Prog :=
  if si.dwOutstandingAsync ≠ 0 ∨ si.refCount ≠ 1 then
    .setClosing a <| .unlock a true .ret
  else if lowerCloses then
    .closeHandle s fun closed =>
      .releaseSocketLock a <| if closed then .free a .ret else .ret
  else .unlock a true .ret

def wspCloseSocket (s : Socket) (lowerCloses : Bool) : Prog :=
  .find s fun
    | none => .ret
    | some a => .acquireSocketLock a <| .inspect a <| closeLocked s a lowerCloses

def wspConnect (s : Socket) : Prog := withContext s untouched

def wspDuplicateSocket (s : Socket) : Prog := withContext s untouched

def wspEnumNetworkEvents (s : Socket) : Prog := withContext s untouched

def wspEventSelect (s : Socket) : Prog := withContext s untouched

def wspGetOverlappedResult : Prog := .ret

def wspGetPeerName (s : Socket) : Prog := withContext s untouched

def wspGetSockName (s : Socket) : Prog := withContext s untouched

def wspGetSockOpt (s : Socket) : Prog := withContext s untouched

def wspGetQOSByName (s : Socket) : Prog := withContext s untouched

/-- The control codes that `WSPIoctl` tells apart; the address of
`GetAcceptExSockaddrs` is asked for like any other. -/
inductive ControlCode
  | getExtensionFunctionPointer
  | queryTargetPnpHandle
  | other
deriving DecidableEq

def wspIoctl (s : Socket) (dwIoControlCode : ControlCode) (call : OverlappedCall) : Prog :=
  withContext s fun a k =>
    match dwIoControlCode with
    | .getExtensionFunctionPointer => k
    | .queryTargetPnpHandle =>
        if call.lpOverlapped then
          getOverlappedStructure a <|
            if call.found then intermediateCompletionRoutine s a none true k else k
        else k
    | .other => overlapped s a call k

/-- `isNew` tells whether the lower provider returns another socket. -/
def wspJoinLeaf (s : Socket) (isNew : Bool) (alloc : Option Addr)
    (newSocket : Option Socket) : Prog :=
  withContext s fun _ k =>
    if isNew then newContext alloc newSocket (fun b k => .free b k) k else k

def wspListen (s : Socket) : Prog := withContext s untouched

def wspRecv (s : Socket) (call : OverlappedCall) : Prog :=
  withContext s fun a k => overlapped s a call k

def wspRecvDisconnect (s : Socket) : Prog := withContext s untouched

def wspRecvFrom (s : Socket) (call : OverlappedCall) : Prog :=
  withContext s fun a k => overlapped s a call k

/-- The size of the arrays of `WSPSelect`. -/
def FD_SETSIZE : ℕ := 64

/-- The translation of one set; `last` is the context that was looked up last. -/
def translateHandles (last : Option Addr) (k : Option Addr → Prog) : List Socket → Prog
  | [] => k last
  | s :: fds =>
      .find s fun
        | none => .ret
        | some a => .inspect a fun _ => .unlock a false <| translateHandles (some a) k fds

def translateSet (set : Option (List Socket)) (last : Option Addr)
    (k : Option Addr → Prog) : Prog :=
  match set with
  | none => k last
  | some fds => if FD_SETSIZE < fds.length then .ret else translateHandles last k fds

def wspSelect (readfds writefds exceptfds : Option (List Socket)) : Prog :=
  if readfds = none ∧ writefds = none ∧ exceptfds = none then .ret
  else
    translateSet readfds none fun last =>
      translateSet writefds last fun last =>
        translateSet exceptfds last fun
          | none => .ret
          | some a => .inspect a fun _ => .ret

def wspSend (s : Socket) (call : OverlappedCall) : Prog :=
  withContext s fun a k => overlapped s a call k

def wspSendDisconnect (s : Socket) : Prog := withContext s untouched

def wspSendTo (s : Socket) (call : OverlappedCall) : Prog :=
  withContext s fun a k => overlapped s a call k

/-- `acceptSocket` is the option value of `SO_UPDATE_ACCEPT_CONTEXT`.  If it is no
socket, the first context is not unlocked; if it is one, its context is read
after it was unlocked. -/
def wspSetSockOpt (s : Socket) (acceptSocket : Option Socket) : Prog :=
  match acceptSocket with
  | none => withContext s untouched
  | some optval =>
      .find s fun
        | none => .ret
        | some a =>
            .find optval fun
              | none => .ret
              | some b => .unlock b false <| .inspect b fun _ => .unlock a false .ret

def wspShutdown (s : Socket) : Prog := withContext s untouched

/-- `created` tells whether a provider is found and creates its socket.  A context
without a handle is freed and then written to. -/
def wspSocket (created : Bool) (alloc : Option Addr) (newSocket : Option Socket) : Prog :=
  if created then
    newContext alloc newSocket (fun b _ => .free b <| .inspect b fun _ => .ret) .ret
  else .ret

def wspStartup : Prog := .ret

def wspStringToAddress : Prog := .ret

/-! ## Extension functions -/

/-- The extension functions on one socket; `loaded` tells whether the lower
provider's function is there. -/
def extension (s : Socket) (loaded : Bool) (call : OverlappedCall) : Prog :=
  withContext s fun a k => if loaded then overlapped s a call k else k

def extTransmitFile (hSocket : Socket) (loaded : Bool) (call : OverlappedCall) : Prog :=
  extension hSocket loaded call

def extAcceptEx (sListenSocket sAcceptSocket : Socket) (loaded : Bool)
    (call : OverlappedCall) : Prog :=
  .find sListenSocket fun
    | none => .ret
    | some a =>
        .find sAcceptSocket fun
          | none => .unlock a false .ret
          | some b =>
              let k : Prog := .unlock a false <| .unlock b false .ret
              if loaded then overlapped sListenSocket a call k else k

def extConnectEx (s : Socket) (loaded : Bool) (call : OverlappedCall) : Prog :=
  extension s loaded call

def extTransmitPackets (hSocket : Socket) (loaded : Bool) (call : OverlappedCall) : Prog :=
  extension hSocket loaded call

def extDisconnectEx (s : Socket) (loaded : Bool) (call : OverlappedCall) : Prog :=
  extension s loaded call

def extWSARecvMsg (s : Socket) (loaded : Bool) (call : OverlappedCall) : Prog :=
  extension s loaded call

/-! ## All of them -/

/-- An entry point with its arguments and results. -/
inductive EntryPoint
  | accept (s : Socket) (accepted : Bool) (alloc : Option Addr) (newSocket : Option Socket)
  | addressToString
  | asyncSelect (s : Socket) (isWindow validEvents : Bool)
  | bind (s : Socket)
  | cancelBlockingCall (blocking : Bool)
  | cleanup (lastCleanup : Bool)
  | closeSocket (s : Socket) (lowerCloses : Bool)
  | connect (s : Socket)
  | duplicateSocket (s : Socket)
  | enumNetworkEvents (s : Socket)
  | eventSelect (s : Socket)
  | getOverlappedResult
  | getPeerName (s : Socket)
  | getSockName (s : Socket)
  | getSockOpt (s : Socket)
  | getQOSByName (s : Socket)
  | ioctl (s : Socket) (dwIoControlCode : ControlCode) (call : OverlappedCall)
  | joinLeaf (s : Socket) (isNew : Bool) (alloc : Option Addr) (newSocket : Option Socket)
  | listen (s : Socket)
  | recv (s : Socket) (call : OverlappedCall)
  | recvDisconnect (s : Socket)
  | recvFrom (s : Socket) (call : OverlappedCall)
  | select (readfds writefds exceptfds : Option (List Socket))
  | send (s : Socket) (call : OverlappedCall)
  | sendDisconnect (s : Socket)
  | sendTo (s : Socket) (call : OverlappedCall)
  | setSockOpt (s : Socket) (acceptSocket : Option Socket)
  | shutdown (s : Socket)
  | socket (created : Bool) (alloc : Option Addr) (newSocket : Option Socket)
  | startup
  | stringToAddress
  | transmitFile (hSocket : Socket) (loaded : Bool) (call : OverlappedCall)
  | acceptEx (sListenSocket sAcceptSocket : Socket) (loaded : Bool) (call : OverlappedCall)
  | connectEx (s : Socket) (loaded : Bool) (call : OverlappedCall)
  | transmitPackets (hSocket : Socket) (loaded : Bool) (call : OverlappedCall)
  | disconnectEx (s : Socket) (loaded : Bool) (call : OverlappedCall)
  | wsaRecvMsg (s : Socket) (loaded : Bool) (call : OverlappedCall)

def EntryPoint.prog : EntryPoint → Prog
  | .accept s accepted alloc newSocket => wspAccept s accepted alloc newSocket
  | .addressToString => wspAddressToString
  | .asyncSelect s isWindow validEvents => wspAsyncSelect s isWindow validEvents
  | .bind s => wspBind s
  | .cancelBlockingCall blocking => wspCancelBlockingCall blocking
  | .cleanup lastCleanup => wspCleanup lastCleanup
  | .closeSocket s lowerCloses => wspCloseSocket s lowerCloses
  | .connect s => wspConnect s
  | .duplicateSocket s => wspDuplicateSocket s
  | .enumNetworkEvents s => wspEnumNetworkEvents s
  | .eventSelect s => wspEventSelect s
  | .getOverlappedResult => wspGetOverlappedResult
  | .getPeerName s => wspGetPeerName s
  | .getSockName s => wspGetSockName s
  | .getSockOpt s => wspGetSockOpt s
  | .getQOSByName s => wspGetQOSByName s
  | .ioctl s dwIoControlCode call => wspIoctl s dwIoControlCode call
  | .joinLeaf s isNew alloc newSocket => wspJoinLeaf s isNew alloc newSocket
  | .listen s => wspListen s
  | .recv s call => wspRecv s call
  | .recvDisconnect s => wspRecvDisconnect s
  | .recvFrom s call => wspRecvFrom s call
  | .select readfds writefds exceptfds => wspSelect readfds writefds exceptfds
  | .send s call => wspSend s call
  | .sendDisconnect s => wspSendDisconnect s
  | .sendTo s call => wspSendTo s call
  | .setSockOpt s acceptSocket => wspSetSockOpt s acceptSocket
  | .shutdown s => wspShutdown s
  | .socket created alloc newSocket => wspSocket created alloc newSocket
  | .startup => wspStartup
  | .stringToAddress => wspStringToAddress
  | .transmitFile hSocket loaded call => extTransmitFile hSocket loaded call
  | .acceptEx sListenSocket sAcceptSocket loaded call =>
      extAcceptEx sListenSocket sAcceptSocket loaded call
  | .connectEx s loaded call => extConnectEx s loaded call
  | .transmitPackets hSocket loaded call => extTransmitPackets hSocket loaded call
  | .disconnectEx s loaded call => extDisconnectEx s loaded call
  | .wsaRecvMsg s loaded call => extWSARecvMsg s loaded call

end MiscProjects.Lsp.Calls
