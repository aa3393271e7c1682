import Mathlib.Data.List.Range
import MiscProjects.Library.Runs
import MiscProjects.Lsp.Select

/-!
# Routing of notifications

`WSPAsyncSelect` writes the window and the message of the application into the context of the
socket and registers the hidden window of the LSP with the lower provider.  `AsyncWndProc` looks
for the lower socket of a notification in the lists of all providers and posts the notification
to the window in the context that it finds.  A context that `WSPAccept` creates starts with the
window and the message of the listening socket.

The calls are taken one after the other, with notifications in between.
-/

namespace MiscProjects.Lsp.AsyncRouting

open Providers NewSockets Runs
open Function (update update_self update_of_ne)

def socketError : INT := -1

def noError : INT := 0

def fdAllEvents : BitVec 32 := 0x3ff

/-- `WM_SOCKET`, which is `WM_USER + 1`. -/
def wmSocket : BitVec 32 := 0x400 + 1

/-- Where the notifications for a socket go. -/
structure Registration where
  hWnd : ℕ
  uMsg : BitVec 32
deriving DecidableEq

abbrev Context := NewSockets.SockInfo

def registrationOf (ctx : Context) : Registration := ⟨ctx.hWnd, ctx.uMsg⟩

/-- Assignments to members of a context. -/
def modifyContext (s : Sockets) (a : ContextPtr) (f : Context → Context) : Sockets :=
  s.setContext a ((s.contexts a).map f)

/-! ## The calls -/

/-- A call of `WSPAsyncSelect`, with what is answered to it. -/
structure AsyncSelect where
  s : SOCKET
  hWnd : ℕ
  wMsg : BitVec 32
  lEvent : BitVec 32
  isWindow : Bool
  /-- `GetWorkerWindow` does not return a null handle. -/
  hasWorkerWindow : Bool
  /-- The lower provider accepts the registration. -/
  lpWSPAsyncSelect : Bool
  lpErrno : INT

def AsyncSelect.registration (call : AsyncSelect) : Registration := ⟨call.hWnd, call.wMsg⟩

/-- The arguments are valid. -/
def AsyncSelect.Valid (call : AsyncSelect) : Prop :=
  call.isWindow = true ∧ call.lEvent &&& ~~~fdAllEvents = 0

instance (call : AsyncSelect) : Decidable call.Valid :=
  inferInstanceAs (Decidable (_ ∧ _))

/-- What is returned once the registration has been written, with the value of `lpErrno`. -/
def AsyncSelect.register (call : AsyncSelect) : INT × INT :=
  if call.hasWorkerWindow then
    if call.lpWSPAsyncSelect then (noError, call.lpErrno) else (socketError, call.lpErrno)
  else (socketError, Select.wsaeinval)

/-- `WSPAsyncSelect`, with what it returns and the value of `lpErrno`; `none` if it touches freed
memory. -/
def wspAsyncSelect (s : Sockets) (call : AsyncSelect) : Option (Sockets × INT × INT) :=
  if call.isWindow then
    if call.lEvent &&& ~~~fdAllEvents = 0 then
      match s.handles call.s with
      | none => some (s, socketError, wsaenotsock)
      | some a =>
          match s.contexts a with
          | none => none
          | some ctx =>
              let s := modifyContext (s.lock a ctx) a fun ctx =>
                { ctx with hWnd := call.hWnd, uMsg := call.wMsg }
              (s.unlockSocketContext a).map fun s => (s, call.register)
    else some (s, socketError, Select.wsaeinval)
  else some (s, socketError, Select.wsaeinval)

/-- What the code outside answers to `WSPAccept`; `none` is a failure. -/
structure AcceptAnswer where
  lpWSPAccept : Option SOCKET
  heapAlloc : Option ContextPtr
  lpWPUCreateSocketHandle : Option SOCKET
  lpErrno : INT

/-- `WSPAccept`.  Without a handle for the application the context stays in the list. -/
def wspAccept (s : Sockets) (h : SOCKET) (answer : AcceptAnswer) :
    Option (Sockets × Option SOCKET × INT) :=
  match s.handles h with
  | none => some (s, none, wsaenotsock)
  | some a =>
      match s.contexts a with
      | none => none
      | some ctx =>
          let s := s.lock a ctx
          match answer.lpWSPAccept with
          | none => (s.unlockSocketContext a).map fun s => (s, none, answer.lpErrno)
          | some newProviderSocket =>
              match answer.heapAlloc with
              | none => (s.unlockSocketContext a).map fun s => (s, none, wsaenobufs)
              | some b =>
                  let s := s.createSockInfo b ctx.provider (some newProviderSocket) (some ctx)
                  let s :=
                    match answer.lpWPUCreateSocketHandle with
                    | none => modifyContext s b fun ctx => { ctx with layeredSocket := none }
                    | some newSocket => s.createSocketHandle newSocket b
                  (s.unlockSocketContext a).map fun s =>
                    (s, answer.lpWPUCreateSocketHandle, answer.lpErrno)

/-- What `WSPCloseSocket` finds and what is answered to it. -/
structure CloseAnswer where
  /-- `dwOutstandingAsync` is not zero. -/
  outstanding : Bool
  lpWSPCloseSocket : Bool
  lpWPUCloseSocketHandle : Bool
  lpErrno : INT

def wspCloseSocket (s : Sockets) (h : SOCKET) (answer : CloseAnswer) :
    Option (Sockets × INT × INT) :=
  match s.handles h with
  | none => some (s, socketError, wsaenotsock)
  | some a =>
      match s.contexts a with
      | none => none
      | some ctx =>
          let s := s.lock a ctx
          if answer.outstanding = true ∨ ctx.refCount + 1 ≠ 1 then
            let s := modifyContext s a fun ctx => { ctx with bClosing := true }
            if answer.lpWSPCloseSocket then
              let s := modifyContext s a fun ctx => { ctx with providerSocket := none }
              (s.unlockSocketContext a).map fun s => (s, noError, answer.lpErrno)
            else (s.unlockSocketContext a).map fun s => (s, socketError, wsaenotsock)
          else if answer.lpWSPCloseSocket then
            let s := modifyContext s a fun ctx => { ctx with providerSocket := none }
            let s := s.removeSocketInfo ctx.provider a
            if answer.lpWPUCloseSocketHandle then
              some ((s.wpuCloseSocketHandle (some h)).setContext a none, noError, answer.lpErrno)
            else some (s, socketError, answer.lpErrno)
          else (s.unlockSocketContext a).map fun s => (s, socketError, answer.lpErrno)

/-! ## Notifications -/

/-- A message for the hidden window; a notification has the lower socket in `wParam`. -/
structure Message where
  uMsg : BitVec 32
  wParam : Option SOCKET
  lParam : BitVec 64
deriving DecidableEq

/-- A call of `WPUPostMessage`. -/
structure Post where
  registration : Registration
  wParam : Option SOCKET
  lParam : BitVec 64
deriving DecidableEq

/-- The walk through a `SocketList`; `none` if it touches freed memory. -/
def walk (s : Sockets) (providerSock : Option SOCKET) :
    List ContextPtr → Option (Option Context)
  | [] => some none
  | a :: socketList =>
      match s.contexts a with
      | none => none
      | some si =>
          if si.providerSocket = providerSock then some (some si)
          else walk s providerSock socketList

/-- `GetCallerSocket` without a provider. -/
def getCallerSocket (gLayerCount : ℕ) (s : Sockets) (providerSock : Option SOCKET) :
    Option (Option Context) :=
  walk s providerSock ((List.range gLayerCount).flatMap s.socketList)

/-- `AsyncWndProc`, with the messages that it posts. -/
def asyncWndProc (gLayerCount : ℕ) (s : Sockets) (message : Message) : Option (List Post) :=
  if message.uMsg = wmSocket then
    (getCallerSocket gLayerCount s message.wParam).map fun si =>
      match si with
      | some si => [⟨registrationOf si, si.layeredSocket, message.lParam⟩]
      | none => []
  else some []

/-! ## Runs -/

/-- What the code outside answers to a call of `WSPSocket` that returns a socket. -/
structure SocketAnswer where
  /-- The provider that is chosen. -/
  provider : ℕ
  lpWSPSocket : SOCKET
  heapAlloc : ContextPtr
  lpWPUCreateSocketHandle : SOCKET

/-- `WSPSocket`, from the creation of the context on. -/
def wspSocket (s : Sockets) (answer : SocketAnswer) : Sockets :=
  let s := s.createSockInfo answer.heapAlloc answer.provider (some answer.lpWSPSocket) none
  s.createSocketHandle answer.lpWPUCreateSocketHandle answer.heapAlloc

inductive Event
  | wspSocket (answer : SocketAnswer)
  | wspAsyncSelect (call : AsyncSelect)
  | wspAccept (s : SOCKET) (answer : AcceptAnswer)
  | wspCloseSocket (s : SOCKET) (answer : CloseAnswer)
  | message (message : Message)

/-- A lower socket that is not the lower socket of any context. -/
def FreshSocket (s : Sockets) (providerSocket : SOCKET) : Prop :=
  ∀ a ctx, s.contexts a = some ctx → ctx.providerSocket ≠ some providerSocket

/-- The sockets, and for every handle the registrations that the code does not keep: that of the
last successful `WSPAsyncSelect`, and that of the last one with valid arguments.  An accepted
socket starts with those of the listening socket. -/
structure State where
  sockets : Sockets
  inForce : SOCKET → Option Registration
  requested : SOCKET → Option Registration

def start : State := ⟨⟨fun _ => none, fun _ => [], fun _ => none⟩, fun _ => none, fun _ => none⟩

/-- What the code outside promises: the provider is in the table, and sockets, contexts and
handles that it creates are new. -/
def Possible (gLayerCount : ℕ) (t : State) : Event → Prop
  | .wspSocket answer =>
      answer.provider < gLayerCount ∧ FreshSocket t.sockets answer.lpWSPSocket ∧
        t.sockets.contexts answer.heapAlloc = none ∧
          t.sockets.handles answer.lpWPUCreateSocketHandle = none
  | .wspAccept _ answer =>
      (∀ providerSocket, answer.lpWSPAccept = some providerSocket →
        FreshSocket t.sockets providerSocket) ∧
      (∀ a, answer.heapAlloc = some a → t.sockets.contexts a = none) ∧
      ∀ h, answer.lpWPUCreateSocketHandle = some h → t.sockets.handles h = none
  | _ => True

/-- The step of an event; `none` if the code touches freed memory. -/
def step (gLayerCount : ℕ) (t : State) : Event → Option State
  | .wspSocket answer =>
      some
        { sockets := wspSocket t.sockets answer
          inForce := update t.inForce answer.lpWPUCreateSocketHandle none
          requested := update t.requested answer.lpWPUCreateSocketHandle none }
  | .wspAsyncSelect call =>
      (wspAsyncSelect t.sockets call).map fun (s, ret, _) =>
        { sockets := s
          inForce :=
            if ret = noError then update t.inForce call.s (some call.registration) else t.inForce
          requested :=
            if call.Valid then update t.requested call.s (some call.registration)
            else t.requested }
  | .wspAccept h answer =>
      (wspAccept t.sockets h answer).map fun (s, newSocket, _) =>
        match newSocket with
        | none => { t with sockets := s }
        | some newSocket =>
            { sockets := s
              inForce := update t.inForce newSocket (t.inForce h)
              requested := update t.requested newSocket (t.requested h) }
  | .wspCloseSocket h answer =>
      (wspCloseSocket t.sockets h answer).map fun (s, _) => { t with sockets := s }
  | .message message => (asyncWndProc gLayerCount t.sockets message).map fun _ => t

/-! ## Statement -/

/-- The handle of a live socket of the application with this lower socket. -/
def LiveSocket (s : Sockets) (h providerSocket : SOCKET) : Prop :=
  ∃ a ctx, s.handles h = some a ∧ s.contexts a = some ctx ∧
    ctx.providerSocket = some providerSocket

/-- A notification for the lower socket of a live socket is posted once, with the handle of the
application, and where the registration in force says. -/
def Routed (gLayerCount : ℕ) (t : State) (message : Message) : Prop :=
  ∀ h providerSocket, LiveSocket t.sockets h providerSocket →
    message.uMsg = wmSocket → message.wParam = some providerSocket →
      ∃ registration, asyncWndProc gLayerCount t.sockets message =
        some [⟨registration, some h, message.lParam⟩] ∧
          ∀ r, t.inForce h = some r → registration = r

/-- The last registration requested is the one in force, or has the same window and message. -/
def InForceRequested (t : State) (message : Message) : Prop :=
  ∀ h providerSocket, LiveSocket t.sockets h providerSocket →
    message.uMsg = wmSocket → message.wParam = some providerSocket →
      ∀ r, t.inForce h = some r → t.requested h = some r

/-! ## Contexts -/

/-- The context of an open socket, in the list of its provider. -/
structure Listed (s : Sockets) (a : ContextPtr) (ctx : Context) : Prop where
  mem : a ∈ s.socketList ctx.provider
  refCount : ctx.refCount = 0
  bClosing : ctx.bClosing = false

/-- The context of a socket whose handle could not be closed. -/
structure Shut (ctx : Context) : Prop where
  refCount : ctx.refCount = 1
  providerSocket : ctx.providerSocket = none

/-- The context `ctx` at `a` belongs to the handle `h`. -/
structure Owns (gLayerCount : ℕ) (s : Sockets) (h : SOCKET) (a : ContextPtr) (ctx : Context) :
    Prop where
  layeredSocket : ctx.layeredSocket = some h
  provider : ctx.provider < gLayerCount
  listed_or_shut : Listed s a ctx ∨ Shut ctx

/-- Every element of a list is a context of the provider, there is one context for a lower
socket, and every handle has a context of its own. -/
structure Inv (gLayerCount : ℕ) (s : Sockets) : Prop where
  nodup : ∀ i, (s.socketList i).Nodup
  listed : ∀ i, ∀ a ∈ s.socketList i, ∃ ctx, s.contexts a = some ctx ∧ ctx.provider = i
  distinct : ∀ a b ctx ctx' providerSocket, s.contexts a = some ctx → s.contexts b = some ctx' →
    ctx.providerSocket = some providerSocket → ctx'.providerSocket = some providerSocket → a = b
  owns : ∀ h a, s.handles h = some a → ∃ ctx, s.contexts a = some ctx ∧ Owns gLayerCount s h a ctx

section Contexts
variable {n : ℕ} {s : Sockets} {h : SOCKET} {a b : ContextPtr} {ctx ctx' : Context}

/-- The last `UnlockSocketContext` of a call does not free the context. -/
def Kept (ctx : Context) : Prop := ¬(ctx.refCount = 0 ∧ ctx.bClosing = true)

theorem Listed.kept (hlisted : Listed s a ctx) : Kept ctx := by
  rintro ⟨-, hclosing⟩
  rw [hlisted.bClosing] at hclosing
  cases hclosing

theorem Shut.kept (hshut : Shut ctx) : Kept ctx := by
  rintro ⟨hcount, -⟩
  rw [hshut.refCount] at hcount
  exact absurd hcount (by decide)

theorem Owns.kept (howns : Owns n s h a ctx) : Kept ctx := by
  rcases howns.listed_or_shut with hlisted | hshut
  · exact hlisted.kept
  · exact hshut.kept

theorem modifyContext_eq (ha : s.contexts a = some ctx) (f : Context → Context) :
    modifyContext s a f = s.setContext a (some (f ctx)) := by
  rw [modifyContext, ha, Option.map_some]

theorem setContext_setContext (s : Sockets) (a : ContextPtr) (c c' : Option Context) :
    (s.setContext a c).setContext a c' = s.setContext a c' := by
  simp only [Sockets.setContext, Function.update_idem]

theorem modifyContext_lock (f : Context → Context)
    (hf : f { ctx with refCount := ctx.refCount + 1 } =
      { f ctx with refCount := (f ctx).refCount + 1 }) :
    modifyContext (s.lock a ctx) a f = (s.setContext a (some (f ctx))).lock a (f ctx) := by
  rw [Sockets.lock, Sockets.lock, modifyContext_eq (setContext_contexts_self s a _), hf,
    setContext_setContext, setContext_setContext]

theorem unlockSocketContext_lock (ha : s.contexts a = some ctx) (hkept : Kept ctx) :
    (s.lock a ctx).unlockSocketContext a = some s := by
  rw [Select.unlockSocketContext_lock ha]
  exact if_neg hkept

/-- A context and its place in the list of its provider. -/
def withContext (s : Sockets) (b : ContextPtr) (ctx : Context) : Sockets :=
  (s.setContext b (some ctx)).insertSocketInfo ctx.provider b

theorem unlockSocketContext_withContext (ha : s.contexts a = some ctx) (hkept : Kept ctx)
    (hab : a ≠ b) (ctx' : Context) :
    (withContext (s.lock a ctx) b ctx').unlockSocketContext a = some (withContext s b ctx') := by
  have hcomm : withContext (s.lock a ctx) b ctx' = (withContext s b ctx').lock a ctx := by
    simp only [withContext, Sockets.lock, Sockets.setContext, Sockets.insertSocketInfo,
      Function.update_comm hab]
  have hkeep : (withContext s b ctx').contexts a = some ctx := by
    change (s.setContext b (some ctx')).contexts a = some ctx
    rw [setContext_contexts_of_ne hab, ha]
  rw [hcomm]
  exact unlockSocketContext_lock hkeep hkept

theorem modifyContext_createSockInfo (provider : ℕ) (providerSocket : Option SOCKET)
    (inherit : Option Context) (layeredSocket : Option SOCKET) :
    modifyContext (s.createSockInfo b provider providerSocket inherit) b
        (fun ctx => { ctx with layeredSocket := layeredSocket }) = withContext s b
        { newInfo provider providerSocket inherit with layeredSocket := layeredSocket } := by
  have hnew : (s.createSockInfo b provider providerSocket inherit).contexts b =
      some (newInfo provider providerSocket inherit) := setContext_contexts_self ..
  rw [modifyContext_eq hnew]
  simp only [withContext, Sockets.createSockInfo, Sockets.setContext, Sockets.insertSocketInfo,
    Function.update_idem, newInfo]

end Contexts

/-! ## What the calls do -/

section Calls
variable {n : ℕ} {s : Sockets} {h : SOCKET} {a b : ContextPtr} {ctx : Context}

/-- The context with the window and the message of a call. -/
def AsyncSelect.write (call : AsyncSelect) (ctx : Context) : Context :=
  { ctx with hWnd := call.hWnd, uMsg := call.wMsg }

variable {answer : AcceptAnswer} {call : AsyncSelect}

theorem wspAsyncSelect_invalid (hinvalid : ¬call.Valid) :
    wspAsyncSelect s call = some (s, socketError, Select.wsaeinval) := by
  unfold wspAsyncSelect
  by_cases hwindow : call.isWindow = true
  · have hevents : ¬call.lEvent &&& ~~~fdAllEvents = 0 := fun hevents => hinvalid ⟨hwindow, hevents⟩
    rw [if_pos hwindow, if_neg hevents]
  · rw [if_neg hwindow]

theorem wspAsyncSelect_unknown (hvalid : call.Valid) (hh : s.handles call.s = none) :
    wspAsyncSelect s call = some (s, socketError, wsaenotsock) := by
  unfold wspAsyncSelect
  rw [if_pos hvalid.1, if_pos hvalid.2]
  simp only [hh]

theorem wspAsyncSelect_known (hvalid : call.Valid)
    (hh : s.handles call.s = some a) (ha : s.contexts a = some ctx) (hkept : Kept ctx) :
    wspAsyncSelect s call = some (s.setContext a (some (call.write ctx)), call.register) := by
  have hunlock : (modifyContext (s.lock a ctx) a call.write).unlockSocketContext a =
      some (s.setContext a (some (call.write ctx))) := by
    rw [modifyContext_lock call.write rfl]
    exact unlockSocketContext_lock (setContext_contexts_self ..) hkept
  unfold wspAsyncSelect
  rw [if_pos hvalid.1, if_pos hvalid.2]
  simp only [hh, ha]
  exact congrArg (Option.map fun s => (s, call.register)) hunlock

/-- The context of an accepted socket. -/
def acceptedInfo (ctx : Context) (providerSocket : SOCKET) (layeredSocket : Option SOCKET) :
    Context :=
  { newInfo ctx.provider (some providerSocket) (some ctx) with layeredSocket := layeredSocket }

theorem wspAccept_unknown (hh : s.handles h = none) :
    wspAccept s h answer = some (s, none, wsaenotsock) := by
  simp only [wspAccept, hh]

theorem wspAccept_refused (hh : s.handles h = some a) (ha : s.contexts a = some ctx)
    (hkept : Kept ctx) (hrefused : answer.lpWSPAccept = none ∨ answer.heapAlloc = none) :
    ∃ lpErrno, wspAccept s h answer = some (s, none, lpErrno) := by
  have hunlock := unlockSocketContext_lock ha hkept
  simp only [wspAccept, hh, ha]
  cases haccept : answer.lpWSPAccept with
  | none => exact ⟨answer.lpErrno, by simp only [hunlock, Option.map_some]⟩
  | some newProviderSocket =>
      have halloc : answer.heapAlloc = none := by
        rcases hrefused with hnone | hnone
        · rw [haccept] at hnone
          cases hnone
        · exact hnone
      exact ⟨wsaenobufs, by simp only [halloc, hunlock, Option.map_some]⟩

theorem wspAccept_created {providerSocket : SOCKET}
    (hh : s.handles h = some a) (ha : s.contexts a = some ctx) (hkept : Kept ctx)
    (haccept : answer.lpWSPAccept = some providerSocket) (halloc : answer.heapAlloc = some b)
    (hnew : s.contexts b = none) :
    wspAccept s h answer =
      some (match answer.lpWPUCreateSocketHandle with
        | none => withContext s b (acceptedInfo ctx providerSocket none)
        | some newSocket =>
            (withContext s b (acceptedInfo ctx providerSocket (some newSocket))).setHandle
              newSocket (some b),
        answer.lpWPUCreateSocketHandle, answer.lpErrno) := by
  have hab : a ≠ b := by
    rintro rfl
    rw [ha] at hnew
    cases hnew
  simp only [wspAccept, hh, ha, haccept, halloc]
  cases answer.lpWPUCreateSocketHandle with
  | none =>
      dsimp only
      rw [modifyContext_createSockInfo, unlockSocketContext_withContext ha hkept hab]
      rfl
  | some newSocket =>
      dsimp only
      -- The handle may as well be there before the context is locked.
      have hhandle : ((s.lock a ctx).createSockInfo b ctx.provider (some providerSocket)
          (some ctx)).createSocketHandle newSocket b =
          modifyContext (((s.setHandle newSocket (some b)).lock a ctx).createSockInfo b
            ctx.provider (some providerSocket) (some ctx)) b
            fun ctx => { ctx with layeredSocket := some newSocket } := rfl
      have ha' : (s.setHandle newSocket (some b)).contexts a = some ctx := ha
      rw [hhandle, modifyContext_createSockInfo, unlockSocketContext_withContext ha' hkept hab]
      rfl

/-- The context of a socket that `WSPSocket` creates. -/
def SocketAnswer.info (answer : SocketAnswer) : Context :=
  { newInfo answer.provider (some answer.lpWSPSocket) none with
    layeredSocket := some answer.lpWPUCreateSocketHandle }

theorem wspSocket_eq (answer : SocketAnswer) : wspSocket s answer =
      (withContext s answer.heapAlloc answer.info).setHandle answer.lpWPUCreateSocketHandle
        (some answer.heapAlloc) := by
  have hhandle : wspSocket s answer = modifyContext
        ((s.setHandle answer.lpWPUCreateSocketHandle (some answer.heapAlloc)).createSockInfo
          answer.heapAlloc answer.provider (some answer.lpWSPSocket) none) answer.heapAlloc
        fun ctx => { ctx with layeredSocket := some answer.lpWPUCreateSocketHandle } := rfl
  rw [hhandle, modifyContext_createSockInfo]
  rfl

/-- A socket without its context and its handle. -/
def removed (s : Sockets) (h : SOCKET) (a : ContextPtr) (provider : ℕ) : Sockets :=
  ((s.setHandle h none).removeSocketInfo provider a).setContext a none

theorem setContext_removed (c : Option Context) (provider : ℕ) :
    removed (s.setContext a c) h a provider = removed s h a provider := by
  simp only [removed, Sockets.setContext, Sockets.removeSocketInfo, Sockets.setHandle,
    Function.update_idem]

/-- What is left when the handle could not be closed. -/
def shutInfo (ctx : Context) : Context := { ctx with providerSocket := none, refCount := 1 }

def shut (s : Sockets) (a : ContextPtr) (ctx : Context) : Sockets :=
  (s.setContext a (some (shutInfo ctx))).removeSocketInfo ctx.provider a

theorem wspCloseSocket_unknown {answer : CloseAnswer} (hh : s.handles h = none) :
    wspCloseSocket s h answer = some (s, socketError, wsaenotsock) := by
  simp only [wspCloseSocket, hh]

theorem unlockSocketContext_closing (s : Sockets) (a : ContextPtr) (c : Context)
    (hcount : c.refCount = 0) (hclosing : c.bClosing = true) (hlayered : c.layeredSocket = some h) :
    ((s.setContext a (some c)).lock a c).unlockSocketContext a =
      some (removed s h a c.provider) := by
  rw [Select.unlockSocketContext_lock (setContext_contexts_self ..), if_pos ⟨hcount, hclosing⟩,
    hlayered, Sockets.lock, setContext_setContext]
  exact congrArg some (setContext_removed _ c.provider)

theorem wspCloseSocket_listed (answer : CloseAnswer) (hh : s.handles h = some a)
    (ha : s.contexts a = some ctx) (hlisted : Listed s a ctx)
    (hlayered : ctx.layeredSocket = some h) :
    ∃ s' result, wspCloseSocket s h answer = some (s', result) ∧
      (s' = removed s h a ctx.provider ∨ s' = shut s a ctx ∨ s' = s) := by
  have hcount : ctx.refCount + 1 = 1 := by rw [hlisted.refCount]; rfl
  have hprovider : modifyContext (s.lock a ctx) a (fun ctx => { ctx with providerSocket := none }) =
      s.setContext a (some (shutInfo ctx)) := by
    rw [Sockets.lock, modifyContext_eq (setContext_contexts_self ..), setContext_setContext,
      shutInfo, hcount]
  simp only [wspCloseSocket, hh, ha, hcount, ne_eq, not_true_eq_false, or_false]
  by_cases houtstanding : answer.outstanding = true
  · rw [if_pos houtstanding, modifyContext_lock (fun ctx => { ctx with bClosing := true }) rfl]
    by_cases hclose : answer.lpWSPCloseSocket = true
    · rw [if_pos hclose, modifyContext_lock (fun ctx => { ctx with providerSocket := none }) rfl,
        setContext_setContext,
        unlockSocketContext_closing s a { ctx with bClosing := true, providerSocket := none }
          hlisted.refCount rfl hlayered]
      exact ⟨_, _, rfl, Or.inl rfl⟩
    · rw [if_neg hclose,
        unlockSocketContext_closing s a { ctx with bClosing := true } hlisted.refCount rfl hlayered]
      exact ⟨_, _, rfl, Or.inl rfl⟩
  · rw [if_neg houtstanding, hprovider]
    by_cases hclose : answer.lpWSPCloseSocket = true
    · rw [if_pos hclose]
      by_cases hhandle : answer.lpWPUCloseSocketHandle = true
      · rw [if_pos hhandle]
        exact ⟨_, _, rfl, Or.inl (setContext_removed (some (shutInfo ctx)) ctx.provider)⟩
      · rw [if_neg hhandle]
        exact ⟨_, _, rfl, Or.inr (Or.inl rfl)⟩
    · rw [if_neg hclose, unlockSocketContext_lock ha hlisted.kept]
      exact ⟨s, _, rfl, Or.inr (Or.inr rfl)⟩

theorem wspCloseSocket_shut (answer : CloseAnswer) (hh : s.handles h = some a)
    (ha : s.contexts a = some ctx) (hshut : Shut ctx) : ∃ result, wspCloseSocket s h answer =
      some (s.setContext a (some { ctx with bClosing := true }), result) := by
  have hcount : ctx.refCount + 1 ≠ 1 := by rw [hshut.refCount]; decide
  have hkept : Kept { ctx with bClosing := true } :=
    Shut.kept ⟨hshut.refCount, hshut.providerSocket⟩
  have hsame : ({ ctx with bClosing := true, providerSocket := none } : Context) =
      { ctx with bClosing := true } := by rw [← hshut.providerSocket]
  simp only [wspCloseSocket, hh, ha]
  rw [if_pos (Or.inr hcount), modifyContext_lock (fun ctx => { ctx with bClosing := true }) rfl]
  by_cases hclose : answer.lpWSPCloseSocket = true
  · rw [if_pos hclose, modifyContext_lock (fun ctx => { ctx with providerSocket := none }) rfl,
      hsame, setContext_setContext, unlockSocketContext_lock (setContext_contexts_self ..) hkept]
    exact ⟨_, rfl⟩
  · rw [if_neg hclose, unlockSocketContext_lock (setContext_contexts_self ..) hkept]
    exact ⟨_, rfl⟩

end Calls

/-! ## The invariant -/

section Invariant
variable {n : ℕ} {s s' : Sockets} {h k : SOCKET} {a b : ContextPtr} {c ctx : Context}

theorem inv_start (n : ℕ) : Inv n start.sockets where
  nodup _ := List.nodup_nil
  listed _ _ ha := nomatch ha
  distinct _ _ _ _ _ ha := nomatch ha
  owns _ _ hh := nomatch hh

theorem Inv.handle_eq (hinv : Inv n s) (hh : s.handles h = some a) (hk : s.handles k = some a) :
    h = k := by
  obtain ⟨ctx, ha, howns⟩ := hinv.owns h a hh
  obtain ⟨ctx', ha', howns'⟩ := hinv.owns k a hk
  obtain rfl : ctx = ctx' := Option.some.inj (ha.symm.trans ha')
  exact Option.some.inj (howns.layeredSocket.symm.trans howns'.layeredSocket)

theorem Owns.congr (howns : Owns n s h a ctx)
    (hmem : ∀ i, a ∈ s.socketList i → a ∈ s'.socketList i) : Owns n s' h a ctx where
  layeredSocket := howns.layeredSocket
  provider := howns.provider
  listed_or_shut := howns.listed_or_shut.imp_left fun hlisted =>
    ⟨hmem _ hlisted.mem, hlisted.refCount, hlisted.bClosing⟩

theorem Inv.setContext (hinv : Inv n s) (ha : s.contexts a = some ctx)
    (hprovider : c.provider = ctx.provider)
    (hsocket : ∀ x, c.providerSocket = some x → ctx.providerSocket = some x)
    (howns : ∀ h, Owns n s h a ctx → Owns n s h a c) : Inv n (s.setContext a (some c)) := by
  -- Every context is as before, but for the one assigned to.
  have hbefore : ∀ b d, (s.setContext a (some c)).contexts b = some d →
      ∃ d', s.contexts b = some d' ∧ d.provider = d'.provider ∧
        ∀ x, d.providerSocket = some x → d'.providerSocket = some x := by
    intro b d hb
    by_cases hba : b = a
    · rw [hba, setContext_contexts_self] at hb
      obtain rfl := Option.some.inj hb
      exact ⟨ctx, hba ▸ ha, hprovider, hsocket⟩
    · rw [setContext_contexts_of_ne hba] at hb
      exact ⟨d, hb, rfl, fun _ hx => hx⟩
  constructor
  · exact hinv.nodup
  · intro i b hb
    obtain ⟨d, hd, hi⟩ := hinv.listed i b hb
    by_cases hba : b = a
    · rw [hba, setContext_contexts_self]
      obtain rfl : ctx = d := Option.some.inj (ha.symm.trans (hba ▸ hd))
      exact ⟨c, rfl, hprovider.trans hi⟩
    · rw [setContext_contexts_of_ne hba]
      exact ⟨d, hd, hi⟩
  · intro b b' d d' x hb hb' hd hd'
    obtain ⟨e, he, -, hx⟩ := hbefore b d hb
    obtain ⟨e', he', -, hx'⟩ := hbefore b' d' hb'
    exact hinv.distinct b b' e e' x he he' (hx x hd) (hx' x hd')
  · intro h b hh
    obtain ⟨d, hd, hold⟩ := hinv.owns h b hh
    by_cases hba : b = a
    · subst hba
      obtain rfl : ctx = d := Option.some.inj (ha.symm.trans hd)
      exact ⟨c, setContext_contexts_self .., (howns h hold).congr fun _ hmem => hmem⟩
    · rw [setContext_contexts_of_ne hba]
      exact ⟨d, hd, hold.congr fun _ hmem => hmem⟩

theorem mem_withContext {i : ℕ} :
    a ∈ (withContext s b c).socketList i ↔ (a = b ∧ i = c.provider) ∨ a ∈ s.socketList i := by
  change a ∈ update s.socketList c.provider (b :: s.socketList c.provider) i ↔ _
  by_cases hi : i = c.provider
  · subst hi
    rw [update_self, List.mem_cons]
    simp only [and_true]
  · rw [update_of_ne hi]
    simp only [hi, and_false, false_or]

theorem Inv.ne_of_handle (hinv : Inv n s) (hb : s.contexts b = none) (hh : s.handles h = some a) :
    a ≠ b := by
  rintro rfl
  obtain ⟨d, hd, -⟩ := hinv.owns h a hh
  rw [hb] at hd
  cases hd

theorem Inv.notMem (hinv : Inv n s) (hb : s.contexts b = none) (i : ℕ) : b ∉ s.socketList i := by
  intro hmem
  obtain ⟨d, hd, -⟩ := hinv.listed i b hmem
  rw [hb] at hd
  cases hd

theorem Inv.withContext (hinv : Inv n s) (hb : s.contexts b = none)
    (hfresh : ∀ x, c.providerSocket = some x → FreshSocket s x) : Inv n (withContext s b c) := by
  have hcontexts : ∀ a, a ≠ b → (AsyncRouting.withContext s b c).contexts a = s.contexts a :=
    fun a hab => setContext_contexts_of_ne hab s (some c)
  have hself : (AsyncRouting.withContext s b c).contexts b = some c := setContext_contexts_self ..
  constructor
  · intro i
    change (update s.socketList c.provider (b :: s.socketList c.provider) i).Nodup
    by_cases hi : i = c.provider
    · subst hi
      rw [update_self]
      exact List.nodup_cons.mpr ⟨hinv.notMem hb _, hinv.nodup _⟩
    · rw [update_of_ne hi]
      exact hinv.nodup i
  · intro i a ha
    rcases mem_withContext.mp ha with ⟨rfl, rfl⟩ | hmem
    · exact ⟨c, hself, rfl⟩
    · have hab : a ≠ b := by
        rintro rfl
        exact hinv.notMem hb i hmem
      rw [hcontexts a hab]
      exact hinv.listed i a hmem
  · intro a a' d d' x ha ha' hd hd'
    by_cases hab : a = b
    · by_cases hab' : a' = b
      · rw [hab, hab']
      · rw [hab, hself] at ha
        rw [hcontexts a' hab'] at ha'
        obtain rfl := Option.some.inj ha
        exact absurd hd' (hfresh x hd a' d' ha')
    · rw [hcontexts a hab] at ha
      by_cases hab' : a' = b
      · rw [hab', hself] at ha'
        obtain rfl := Option.some.inj ha'
        exact absurd hd (hfresh x hd' a d ha)
      · rw [hcontexts a' hab'] at ha'
        exact hinv.distinct a a' d d' x ha ha' hd hd'
  · intro h a hh
    obtain ⟨d, hd, howns⟩ := hinv.owns h a hh
    exact ⟨d, (hcontexts a (hinv.ne_of_handle hb hh)).trans hd,
      howns.congr fun _ hmem => mem_withContext.mpr (Or.inr hmem)⟩

theorem Inv.setHandle (hinv : Inv n s) (hb : s.contexts b = some c) (howns : Owns n s h b c) :
    Inv n (s.setHandle h (some b)) where
  nodup := hinv.nodup
  listed := hinv.listed
  distinct := hinv.distinct
  owns k a hk := by
    by_cases hkh : k = h
    · subst hkh
      rw [setHandle_handles_self] at hk
      obtain rfl := Option.some.inj hk
      exact ⟨c, hb, howns.congr fun _ hmem => hmem⟩
    · rw [setHandle_handles_of_ne hkh] at hk
      obtain ⟨d, hd, hold⟩ := hinv.owns k a hk
      exact ⟨d, hd, hold.congr fun _ hmem => hmem⟩

theorem Inv.mem_removeSocketInfo (hinv : Inv n s) (ha : s.contexts a = some ctx) {i : ℕ} :
    b ∈ (s.removeSocketInfo ctx.provider a).socketList i ↔ b ≠ a ∧ b ∈ s.socketList i := by
  by_cases hi : i = ctx.provider
  · subst hi
    rw [removeSocketInfo_socketList_self]
    exact (hinv.nodup _).mem_erase_iff
  · rw [removeSocketInfo_socketList_of_ne hi]
    constructor
    · intro hmem
      refine ⟨?_, hmem⟩
      rintro rfl
      obtain ⟨d, hd, hprovider⟩ := hinv.listed i b hmem
      obtain rfl : ctx = d := Option.some.inj (ha.symm.trans hd)
      exact hi hprovider.symm
    · exact And.right

theorem Inv.nodup_removeSocketInfo (hinv : Inv n s) (provider i : ℕ) :
    ((s.removeSocketInfo provider a).socketList i).Nodup := by
  by_cases hi : i = provider
  · subst hi
    rw [removeSocketInfo_socketList_self]
    exact (hinv.nodup i).erase a
  · rw [removeSocketInfo_socketList_of_ne hi]
    exact hinv.nodup i

theorem Inv.removeSocketInfo (hinv : Inv n s) (ha : s.contexts a = some ctx) (hshut : Shut ctx) :
    Inv n (s.removeSocketInfo ctx.provider a) where
  nodup := hinv.nodup_removeSocketInfo ctx.provider
  listed i b hb := hinv.listed i b ((hinv.mem_removeSocketInfo ha).mp hb).2
  distinct := hinv.distinct
  owns h b hh := by
    obtain ⟨d, hd, howns⟩ := hinv.owns h b hh
    refine ⟨d, hd, ?_⟩
    by_cases hba : b = a
    · subst hba
      obtain rfl : ctx = d := Option.some.inj (ha.symm.trans hd)
      exact ⟨howns.layeredSocket, howns.provider, Or.inr hshut⟩
    · exact howns.congr fun _ hmem => (hinv.mem_removeSocketInfo ha).mpr ⟨hba, hmem⟩

theorem Inv.removed (hinv : Inv n s) (hh : s.handles h = some a) (ha : s.contexts a = some ctx) :
    Inv n (removed s h a ctx.provider) := by
  have hcontexts : ∀ b, b ≠ a → (AsyncRouting.removed s h a ctx.provider).contexts b =
      s.contexts b := fun b hba => setContext_contexts_of_ne hba _ none
  have hself : (AsyncRouting.removed s h a ctx.provider).contexts a = none :=
    setContext_contexts_self ..
  constructor
  · exact hinv.nodup_removeSocketInfo ctx.provider
  · intro i b hb
    obtain ⟨hba, hmem⟩ := (hinv.mem_removeSocketInfo ha).mp hb
    rw [hcontexts b hba]
    exact hinv.listed i b hmem
  · intro b b' d d' x hb hb' hd hd'
    have hba : b ≠ a := by
      rintro rfl
      rw [hself] at hb
      cases hb
    have hba' : b' ≠ a := by
      rintro rfl
      rw [hself] at hb'
      cases hb'
    rw [hcontexts b hba] at hb
    rw [hcontexts b' hba'] at hb'
    exact hinv.distinct b b' d d' x hb hb' hd hd'
  · intro k b hk
    change (s.setHandle h none).handles k = some b at hk
    have hkh : k ≠ h := by
      rintro rfl
      rw [setHandle_handles_self] at hk
      cases hk
    rw [setHandle_handles_of_ne hkh] at hk
    have hba : b ≠ a := by
      rintro rfl
      exact hkh (hinv.handle_eq hk hh)
    obtain ⟨d, hd, howns⟩ := hinv.owns k b hk
    rw [hcontexts b hba]
    exact ⟨d, hd, howns.congr fun _ hmem => (hinv.mem_removeSocketInfo ha).mpr ⟨hba, hmem⟩⟩

end Invariant

/-! ## Steps -/

/-- The contexts of the handles have the registrations requested last, or zeros. -/
structure Registered (t : State) : Prop where
  contexts : ∀ h a ctx, t.sockets.handles h = some a → t.sockets.contexts a = some ctx →
    registrationOf ctx = (t.requested h).getD ⟨0, 0⟩
  requested : ∀ h, (t.inForce h).isSome = true → (t.requested h).isSome = true

/-- The handles other than `h` are as they were, with the same registrations. -/
def Unchanged (s s' : Sockets) (h : SOCKET) : Prop :=
  ∀ k a ctx, k ≠ h → s'.handles k = some a → s'.contexts a = some ctx →
    ∃ ctx', s.handles k = some a ∧ s.contexts a = some ctx' ∧
      registrationOf ctx = registrationOf ctx'

/-- What every step keeps. -/
structure Good (gLayerCount : ℕ) (t : State) : Prop where
  inv : Inv gLayerCount t.sockets
  registered : Registered t

section Steps
variable {n : ℕ} {t u : State} {s s' : Sockets} {h : SOCKET} {a b : ContextPtr} {c ctx : Context}

theorem Registered.step (hreg : Registered t) (hunchanged : Unchanged t.sockets u.sockets h)
    (hself : ∀ a ctx, u.sockets.handles h = some a → u.sockets.contexts a = some ctx →
      registrationOf ctx = (u.requested h).getD ⟨0, 0⟩)
    (hrequested : ∀ k, k ≠ h → u.requested k = t.requested k)
    (hinForce : ∀ k, (u.inForce k).isSome = true → (u.requested k).isSome = true) :
    Registered u where
  contexts k a ctx hk ha := by
    by_cases hkh : k = h
    · subst hkh
      exact hself a ctx hk ha
    · obtain ⟨ctx', hk', ha', heq⟩ := hunchanged k a ctx hkh hk ha
      rw [heq, hreg.contexts k a ctx' hk' ha', hrequested k hkh]
  requested := hinForce

theorem unchanged_setContext (hinv : Inv n s) (hh : s.handles h = some a) (c : Option Context) :
    Unchanged s (s.setContext a c) h := by
  intro k b ctx hkh hk hb
  have hba : b ≠ a := by
    rintro rfl
    exact hkh (hinv.handle_eq hk hh)
  rw [setContext_contexts_of_ne hba] at hb
  exact ⟨ctx, hk, hb, rfl⟩

theorem unchanged_removed (hinv : Inv n s) (hh : s.handles h = some a) (provider : ℕ) :
    Unchanged s (removed s h a provider) h := by
  intro k b ctx hkh hk hb
  change (s.setHandle h none).handles k = some b at hk
  rw [setHandle_handles_of_ne hkh] at hk
  exact unchanged_setContext hinv hh none k b ctx hkh hk hb

theorem unchanged_created (hinv : Inv n s) (hb : s.contexts b = none) (c : Context) :
    Unchanged s ((withContext s b c).setHandle h (some b)) h := by
  intro k a ctx hkh hk ha
  rw [setHandle_handles_of_ne hkh] at hk
  have hk' : s.handles k = some a := hk
  change (s.setContext b (some c)).contexts a = some ctx at ha
  rw [setContext_contexts_of_ne (hinv.ne_of_handle hb hk')] at ha
  exact ⟨ctx, hk', ha, rfl⟩

theorem Inv.created (hinv : Inv n s) (hb : s.contexts b = none)
    (hfresh : ∀ x, c.providerSocket = some x → FreshSocket s x)
    (hlayered : c.layeredSocket = some h) (hprovider : c.provider < n) (hcount : c.refCount = 0)
    (hclosing : c.bClosing = false) :
    Inv n ((AsyncRouting.withContext s b c).setHandle h (some b)) := by
  have hself : (AsyncRouting.withContext s b c).contexts b = some c := setContext_contexts_self ..
  have hmem : b ∈ (AsyncRouting.withContext s b c).socketList c.provider :=
    mem_withContext.mpr (Or.inl ⟨rfl, rfl⟩)
  exact (hinv.withContext hb hfresh).setHandle hself
    ⟨hlayered, hprovider, Or.inl ⟨hmem, hcount, hclosing⟩⟩

theorem created_self (ha : ((withContext s b c).setHandle h (some b)).handles h = some a)
    (hctx : ((withContext s b c).setHandle h (some b)).contexts a = some ctx) : ctx = c := by
  rw [setHandle_handles_self] at ha
  obtain rfl := Option.some.inj ha
  change (s.setContext b (some c)).contexts b = some ctx at hctx
  rw [setContext_contexts_self] at hctx
  exact (Option.some.inj hctx).symm

theorem registered_start : Registered start where
  contexts _ _ _ hh := nomatch hh
  requested _ hh := nomatch hh

theorem good_start (n : ℕ) : Good n start := ⟨inv_start n, registered_start⟩

variable {f g : SOCKET → Option Registration} {k x : SOCKET}

theorem isSome_update {r r' : Option Registration}
    (hall : ∀ k, (f k).isSome = true → (g k).isSome = true)
    (hself : r.isSome = true → r'.isSome = true)
    (hk : (update f h r k).isSome = true) : (update g h r' k).isSome = true := by
  by_cases hkh : k = h
  · subst hkh
    rw [update_self] at hk ⊢
    exact hself hk
  · rw [update_of_ne hkh] at hk ⊢
    exact hall k hk

theorem isSome_update_some {r : Registration}
    (hall : ∀ k, (f k).isSome = true → (g k).isSome = true) (hk : (f k).isSome = true) :
    (update g h (some r) k).isSome = true := by
  rw [← Function.update_eq_self h f] at hk
  exact isSome_update hall (fun _ => rfl) hk

theorem Good.wspSocket (hgood : Good n t) {answer : SocketAnswer}
    (hpossible : Possible n t (.wspSocket answer)) :
    ∃ u, step n t (.wspSocket answer) = some u ∧ Good n u := by
  obtain ⟨hprovider, hfresh, halloc, hhandle⟩ := hpossible
  refine ⟨_, rfl, ?_, ?_⟩
  · change Inv n (AsyncRouting.wspSocket t.sockets answer)
    rw [wspSocket_eq]
    refine hgood.inv.created (c := answer.info) halloc ?_ rfl hprovider rfl rfl
    intro x hx
    exact Option.some.inj hx ▸ hfresh
  · apply hgood.registered.step (h := answer.lpWPUCreateSocketHandle)
    · dsimp only
      rw [wspSocket_eq]
      exact unchanged_created hgood.inv halloc _
    · intro a ctx hh ha
      dsimp only at hh ha ⊢
      rw [wspSocket_eq] at hh ha
      rw [created_self hh ha, update_self]
      rfl
    · intro k hk
      exact update_of_ne hk ..
    · intro k hk
      exact isSome_update hgood.registered.requested id hk

theorem Good.wspAsyncSelect (hgood : Good n t) (call : AsyncSelect) :
    ∃ u, step n t (.wspAsyncSelect call) = some u ∧ Good n u := by
  have herror : socketError ≠ noError := by decide
  have hrequested := hgood.registered.requested
  by_cases hvalid : call.Valid
  · cases hh : t.sockets.handles call.s with
    | none =>
        refine ⟨{ t with requested := update t.requested call.s (some call.registration) }, ?_,
          hgood.inv, ?_⟩
        · simp only [step, wspAsyncSelect_unknown hvalid hh, Option.map_some, if_neg herror,
            if_pos hvalid]
        · apply hgood.registered.step (h := call.s)
          · exact fun _ _ ctx _ hk ha => ⟨ctx, hk, ha, rfl⟩
          · intro a ctx hself
            rw [hh] at hself
            cases hself
          · exact fun k hk => update_of_ne hk ..
          · exact fun k hk => isSome_update_some hrequested hk
    | some a =>
        obtain ⟨ctx, ha, howns⟩ := hgood.inv.owns _ a hh
        have hstep : step n t (.wspAsyncSelect call) = some
            { sockets := t.sockets.setContext a (some (call.write ctx))
              inForce :=
                if call.register.1 = noError then update t.inForce call.s (some call.registration)
                else t.inForce
              requested := update t.requested call.s (some call.registration) } := by
          simp only [step, wspAsyncSelect_known hvalid hh ha howns.kept, Option.map_some,
            if_pos hvalid]
        refine ⟨_, hstep, ?_, ?_⟩
        · refine hgood.inv.setContext ha rfl (fun _ hx => hx) fun h howns => ?_
          refine ⟨howns.layeredSocket, howns.provider, ?_⟩
          exact howns.listed_or_shut.imp (fun hlisted => ⟨hlisted.mem, hlisted.2, hlisted.3⟩)
            fun hshut => ⟨hshut.refCount, hshut.providerSocket⟩
        · apply hgood.registered.step (h := call.s)
          · exact unchanged_setContext hgood.inv hh _
          · intro b ctx' hself hctx
            obtain rfl : a = b := Option.some.inj (hh.symm.trans hself)
            dsimp only at hctx ⊢
            rw [setContext_contexts_self] at hctx
            rw [← Option.some.inj hctx, update_self]
            rfl
          · exact fun k hk => update_of_ne hk ..
          · intro k hk
            dsimp only at hk ⊢
            split at hk
            · exact isSome_update hrequested id hk
            · exact isSome_update_some hrequested hk
  · refine ⟨t, ?_, hgood⟩
    simp only [step, wspAsyncSelect_invalid hvalid, Option.map_some, if_neg herror, if_neg hvalid]

theorem Good.wspAccept (hgood : Good n t) {answer : AcceptAnswer}
    (hpossible : Possible n t (.wspAccept h answer)) :
    ∃ u, step n t (.wspAccept h answer) = some u ∧ Good n u := by
  obtain ⟨hfresh, halloc, hhandle⟩ := hpossible
  cases hh : t.sockets.handles h with
  | none =>
      refine ⟨t, ?_, hgood⟩
      simp only [step, wspAccept_unknown hh, Option.map_some]
  | some a =>
      obtain ⟨ctx, ha, howns⟩ := hgood.inv.owns h a hh
      by_cases hrefused : answer.lpWSPAccept = none ∨ answer.heapAlloc = none
      · obtain ⟨lpErrno, hcall⟩ := wspAccept_refused hh ha howns.kept hrefused
        refine ⟨t, ?_, hgood⟩
        simp only [step, hcall, Option.map_some]
      · obtain ⟨haccept, hheap⟩ := not_or.mp hrefused
        obtain ⟨x, haccept⟩ := Option.ne_none_iff_exists'.mp haccept
        obtain ⟨b, hheap⟩ := Option.ne_none_iff_exists'.mp hheap
        have hnew := halloc b hheap
        have hlower : ∀ layeredSocket x',
            (acceptedInfo ctx x layeredSocket).providerSocket = some x' →
              FreshSocket t.sockets x' := by
          intro layeredSocket x' hx'
          exact Option.some.inj hx' ▸ hfresh x haccept
        cases hsocket : answer.lpWPUCreateSocketHandle with
        | none =>
            have hstep : step n t (.wspAccept h answer) =
                some { t with sockets := withContext t.sockets b (acceptedInfo ctx x none) } := by
              simp only [step, wspAccept_created hh ha howns.kept haccept hheap hnew, hsocket,
                Option.map_some]
            refine ⟨_, hstep, hgood.inv.withContext hnew (hlower none), ?_, ?_⟩
            · intro k a' ctx' hk hctx
              change (t.sockets.setContext b _).contexts a' = some ctx' at hctx
              rw [setContext_contexts_of_ne (hgood.inv.ne_of_handle hnew hk)] at hctx
              exact hgood.registered.contexts k a' ctx' hk hctx
            · exact hgood.registered.requested
        | some newSocket =>
            have hstep : step n t (.wspAccept h answer) = some
                { sockets := (withContext t.sockets b
                    (acceptedInfo ctx x (some newSocket))).setHandle newSocket (some b)
                  inForce := update t.inForce newSocket (t.inForce h)
                  requested := update t.requested newSocket (t.requested h) } := by
              simp only [step, wspAccept_created hh ha howns.kept haccept hheap hnew, hsocket,
                Option.map_some]
            refine ⟨_, hstep,
              hgood.inv.created hnew (hlower (some newSocket)) rfl howns.provider rfl rfl, ?_⟩
            apply hgood.registered.step (h := newSocket)
            · exact unchanged_created hgood.inv hnew _
            · intro a' ctx' hself hctx
              dsimp only at hself hctx ⊢
              rw [created_self hself hctx, update_self, ← hgood.registered.contexts h a ctx hh ha]
              rfl
            · exact fun k hk => update_of_ne hk ..
            · exact fun k hk =>
                isSome_update hgood.registered.requested (hgood.registered.requested h) hk

theorem Registered.setContext (hreg : Registered t) (hinv : Inv n t.sockets)
    (hh : t.sockets.handles h = some a) (ha : t.sockets.contexts a = some ctx)
    (hsame : registrationOf c = registrationOf ctx) :
    Registered { t with sockets := t.sockets.setContext a (some c) } := by
  apply hreg.step (u := { t with sockets := t.sockets.setContext a (some c) })
    (unchanged_setContext hinv hh _) ?_ (fun _ _ => rfl) hreg.requested
  intro b c' hself hc
  obtain rfl : a = b := Option.some.inj (hh.symm.trans hself)
  dsimp only at hc ⊢
  rw [setContext_contexts_self] at hc
  rw [← Option.some.inj hc, hsame, hreg.contexts h a ctx hh ha]

theorem Good.wspCloseSocket (hgood : Good n t) (h : SOCKET) (answer : CloseAnswer) :
    ∃ u, step n t (.wspCloseSocket h answer) = some u ∧ Good n u := by
  have hreg := hgood.registered
  cases hh : t.sockets.handles h with
  | none =>
      refine ⟨t, ?_, hgood⟩
      simp only [step, wspCloseSocket_unknown hh, Option.map_some]
  | some a =>
      obtain ⟨ctx, ha, howns⟩ := hgood.inv.owns h a hh
      rcases howns.listed_or_shut with hlisted | hshut
      · obtain ⟨s', result, hcall, hs'⟩ :=
          wspCloseSocket_listed answer hh ha hlisted howns.layeredSocket
        refine ⟨{ t with sockets := s' }, by simp only [step, hcall, Option.map_some], ?_⟩
        rcases hs' with rfl | rfl | rfl
        · refine ⟨hgood.inv.removed hh ha, hreg.step (unchanged_removed hgood.inv hh _) ?_
            (fun _ _ => rfl) hreg.requested⟩
          intro b c hself
          change (t.sockets.setHandle h none).handles h = some b at hself
          rw [setHandle_handles_self] at hself
          cases hself
        · have hinv : Inv n (t.sockets.setContext a (some (shutInfo ctx))) := by
            refine hgood.inv.setContext (c := shutInfo ctx) ha rfl (fun _ hx => nomatch hx)
              fun k hk => ?_
            exact ⟨hk.layeredSocket, hk.provider, Or.inr ⟨rfl, rfl⟩⟩
          have hself : (t.sockets.setContext a (some (shutInfo ctx))).contexts a =
              some (shutInfo ctx) := setContext_contexts_self ..
          have hshut := hinv.removeSocketInfo hself ⟨rfl, rfl⟩
          have hreg' := hreg.setContext (c := shutInfo ctx) hgood.inv hh ha rfl
          exact ⟨hshut, hreg'.contexts, hreg'.requested⟩
        · exact hgood
      · obtain ⟨result, hcall⟩ := wspCloseSocket_shut answer hh ha hshut
        have hinv : Inv n (t.sockets.setContext a (some { ctx with bClosing := true })) := by
          refine hgood.inv.setContext (c := { ctx with bClosing := true }) ha rfl (fun _ hx => hx)
            fun k hk => ?_
          exact ⟨hk.layeredSocket, hk.provider, Or.inr ⟨hshut.refCount, hshut.providerSocket⟩⟩
        exact ⟨_, by simp only [step, hcall, Option.map_some], hinv,
          hreg.setContext (c := { ctx with bClosing := true }) hgood.inv hh ha rfl⟩

/-! ### Notifications -/

theorem walk_isSome (x : Option SOCKET) (socketList : List ContextPtr)
    (hall : ∀ a ∈ socketList, ∃ ctx, s.contexts a = some ctx) :
    ∃ si, walk s x socketList = some si := by
  induction socketList with
  | nil => exact ⟨none, rfl⟩
  | cons a socketList ih =>
      obtain ⟨ctx, ha⟩ := hall a List.mem_cons_self
      simp only [walk, ha]
      split
      · exact ⟨some ctx, rfl⟩
      · exact ih fun b hb => hall b (List.mem_cons_of_mem a hb)

theorem walk_eq {socketList : List ContextPtr} (ha : s.contexts a = some ctx)
    (hx : ctx.providerSocket = some x)
    (hdistinct : ∀ b c, s.contexts b = some c → c.providerSocket = some x → b = a)
    (hall : ∀ b ∈ socketList, ∃ c, s.contexts b = some c) (hmem : a ∈ socketList) :
    walk s (some x) socketList = some (some ctx) := by
  induction socketList with
  | nil => cases hmem
  | cons b socketList ih =>
      obtain ⟨c, hb⟩ := hall b List.mem_cons_self
      simp only [walk, hb]
      by_cases hc : c.providerSocket = some x
      · obtain rfl := hdistinct b c hb hc
        rw [if_pos hc, ← ha, hb]
      · rw [if_neg hc]
        refine ih (fun b hb => hall b (List.mem_cons_of_mem _ hb)) ?_
        rcases List.mem_cons.mp hmem with rfl | hmem
        · rw [ha] at hb
          exact absurd hx (Option.some.inj hb ▸ hc)
        · exact hmem

theorem Inv.listed_all (hinv : Inv n s) :
    ∀ a ∈ (List.range n).flatMap s.socketList, ∃ ctx, s.contexts a = some ctx := by
  intro a ha
  obtain ⟨i, -, hmem⟩ := List.mem_flatMap.mp ha
  obtain ⟨ctx, hctx, -⟩ := hinv.listed i a hmem
  exact ⟨ctx, hctx⟩

theorem Good.message (hgood : Good n t) (message : Message) :
    ∃ u, step n t (.message message) = some u ∧ Good n u := by
  refine ⟨t, ?_, hgood⟩
  obtain ⟨si, hwalk⟩ := walk_isSome message.wParam _ hgood.inv.listed_all
  simp only [step, asyncWndProc, getCallerSocket, hwalk]
  split <;> rfl

theorem Inv.asyncWndProc_eq (hinv : Inv n s) {message : Message}
    (hh : s.handles h = some a) (ha : s.contexts a = some ctx) (hx : ctx.providerSocket = some x)
    (hsocket : message.uMsg = wmSocket) (hparam : message.wParam = some x) :
    asyncWndProc n s message = some [⟨registrationOf ctx, some h, message.lParam⟩] := by
  obtain ⟨ctx', ha', howns⟩ := hinv.owns h a hh
  obtain rfl : ctx = ctx' := Option.some.inj (ha.symm.trans ha')
  have hlisted : Listed s a ctx := by
    rcases howns.listed_or_shut with hlisted | hshut
    · exact hlisted
    · rw [hshut.providerSocket] at hx
      cases hx
  have hmem : a ∈ (List.range n).flatMap s.socketList :=
    List.mem_flatMap.mpr ⟨ctx.provider, List.mem_range.mpr howns.provider, hlisted.mem⟩
  have hwalk := walk_eq ha hx (fun b c hb hc => hinv.distinct b a c ctx x hb ha hc hx)
    hinv.listed_all hmem
  simp only [asyncWndProc, getCallerSocket, hsocket, hparam, hwalk, if_true, Option.map_some,
    howns.layeredSocket]

theorem Good.routed_iff (hgood : Good n t) (message : Message) :
    Routed n t message ↔ InForceRequested t message := by
  constructor
  · intro hrouted h x hlive hsocket hparam r hr
    obtain ⟨registration, hpost, hforce⟩ := hrouted h x hlive hsocket hparam
    obtain ⟨a, ctx, hh, ha, hx⟩ := hlive
    rw [hgood.inv.asyncWndProc_eq hh ha hx hsocket hparam] at hpost
    have hregistration : registrationOf ctx = registration := by
      simp only [Option.some.injEq, List.cons.injEq, Post.mk.injEq, and_true] at hpost
      exact hpost
    rw [← hforce r hr, ← hregistration, hgood.registered.contexts h a ctx hh ha]
    have hrequested : (t.requested h).isSome = true :=
      hgood.registered.requested h (by rw [hr]; rfl)
    obtain ⟨r', hr'⟩ := Option.isSome_iff_exists.mp hrequested
    rw [hr', Option.getD_some]
  · intro hrequested h x hlive hsocket hparam
    have hforce := hrequested h x hlive hsocket hparam
    obtain ⟨a, ctx, hh, ha, hx⟩ := hlive
    refine ⟨_, hgood.inv.asyncWndProc_eq hh ha hx hsocket hparam, ?_⟩
    intro r hr
    rw [hgood.registered.contexts h a ctx hh ha, hforce r hr, Option.getD_some]

theorem Good.step (hgood : Good n t) {e : Event} (hpossible : Possible n t e) :
    ∃ u, step n t e = some u ∧ Good n u := by
  cases e with
  | wspSocket answer => exact hgood.wspSocket hpossible
  | wspAsyncSelect call => exact hgood.wspAsyncSelect call
  | wspAccept h answer => exact hgood.wspAccept hpossible
  | wspCloseSocket h answer => exact hgood.wspCloseSocket h answer
  | message message => exact hgood.message message

end Steps

/-! ## The result -/

section Result
variable {n : ℕ} {taken : List Event} {t : State}

theorem good_of_runsTo (hrun : RunsTo (step n) (Possible n) start taken t) : Good n t := by
  apply hrun.invariant (Good n) (good_start n)
  intro t e u hgood hpossible hstep
  obtain ⟨u', hstep', hgood'⟩ := hgood.step hpossible
  rw [hstep, Option.some.injEq] at hstep'
  rwa [hstep']

end Result

/-- In a run, every notification goes where the last successful `WSPAsyncSelect` says if and only
if that was the last one with valid arguments whenever a notification comes, or named the same
window and message. -/
theorem notifications_routed_iff (gLayerCount : ℕ) (events : List Event) :
    (∀ taken message t, taken ++ [.message message] <+: events →
        RunsTo (step gLayerCount) (Possible gLayerCount) start taken t →
          Routed gLayerCount t message) ↔
      ∀ taken message t, taken ++ [.message message] <+: events →
        RunsTo (step gLayerCount) (Possible gLayerCount) start taken t →
          InForceRequested t message := by
  constructor
  · intro h taken message t htaken hrun
    exact ((good_of_runsTo hrun).routed_iff message).mp (h taken message t htaken hrun)
  · intro h taken message t htaken hrun
    exact ((good_of_runsTo hrun).routed_iff message).mpr (h taken message t htaken hrun)

/-- A registration with the lower provider, which accepts it or not. -/
def registers (hWnd : ℕ) (accepts : Bool) : Event :=
  .wspAsyncSelect ⟨4, hWnd, 0x500, 1, true, true, accepts, 0⟩

def notification : Message := ⟨wmSocket, some 60, 1⟩

/-- After a refused registration the notification goes to the window of the latter. -/
theorem refused_registration_takes_over :
    ¬∀ taken message t, taken ++ [.message message] <+:
          [.wspSocket ⟨0, 60, 200, 4⟩, registers 1 true, registers 2 false, .message notification] →
        RunsTo (step 1) (Possible 1) start taken t → Routed 1 t message := by
  intro h
  have hfresh : FreshSocket start.sockets 60 := fun _ _ ha => nomatch ha
  have hnew : Possible 1 start (.wspSocket ⟨0, 60, 200, 4⟩) :=
    ⟨Nat.one_pos, hfresh, rfl, rfl⟩
  have hregisters : ∀ t hWnd accepts, Possible 1 t (registers hWnd accepts) :=
    fun _ _ _ => True.intro
  have hrun : RunsTo (step 1) (Possible 1) start
      ([.wspSocket ⟨0, 60, 200, 4⟩] ++ [registers 1 true] ++ [registers 2 false]) _ :=
    ((RunsTo.single hnew rfl).snoc (hregisters _ 1 true) rfl).snoc (hregisters _ 2 false) rfl
  obtain ⟨registration, hpost, hforce⟩ :=
    h _ notification _ (List.prefix_refl _) hrun 4 60 ⟨200, _, rfl, rfl, rfl⟩ rfl rfl
  have hfirst : registration = ⟨1, 0x500⟩ := hforce ⟨1, 0x500⟩ rfl
  rw [hfirst] at hpost
  exact absurd hpost (by decide)

end MiscProjects.Lsp.AsyncRouting
