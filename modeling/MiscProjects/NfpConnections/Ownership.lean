import MiscProjects.Library.Resources
import MiscProjects.Library.Runs
import MiscProjects.NfpConnections.Driver

/-!
# Who closes a socket and who deletes a connection

A socket passes from the listener to the connection that an attempt establishes, and is closed
where an attempt fails, where a connection terminates and where the listener is stopped.  A
`CConnection` is deleted by its receive thread, if the attempt was inbound, or with the handle
that has made it; `~CMyQueue` deletes those that are still in the list.

An attempt is one step, and so are the termination of a connection, the closing of a handle and
the end of the queue, with everything that the threads do for it; what they can do to each other
meanwhile is the subject of `Driver`.  The queue ends when no handle is open.
-/

namespace MiscProjects.NfpConnections.Ownership

open Function (update)
open Nfp (Role)
open Resources Runs

/-- The fields that hold a socket: those of the listener and `_Socket` of each connection. -/
inductive Slot
  | listenSocket
  | clientSocket
  | socket (c : ConnectionPtr)
deriving DecidableEq

/-- A `CConnection`; `receiving` tells whether its callback has been submitted and has not
ended. -/
structure CConnection where
  state : ConnectionState
  threadpoolWork : Bool
  fInboundConnection : Bool
  receiving : Bool
deriving DecidableEq

/-- A `CFileContext`, as far as the connections depend on it. -/
structure FileContext where
  role : Role
  pConnection : Option ConnectionPtr
deriving DecidableEq

/-- `threadpoolIo` tells whether `_ThreadpoolIo` is set and `accepting` whether an `AcceptEx` is
pending.  `stopped` and `unloaded` record that `StopAccepting` and `~CMyQueue` have run. -/
structure State where
  sockets : Ledger Slot
  initialized : Bool
  threadpoolIo : Bool
  accepting : Bool
  stopped : Bool
  unloaded : Bool
  connection : ConnectionPtr → CConnection
  connections : ℕ
  connectionHead : List ConnectionPtr
  deleted : List ConnectionPtr
  opened : List FilePtr
  file : FilePtr → FileContext

/-- The queue object has been constructed. -/
def start : State where
  sockets := .empty Slot
  initialized := false
  threadpoolIo := false
  accepting := false
  stopped := false
  unloaded := false
  connection := fun _ => ⟨.initial, false, false, false⟩
  connections := 0
  connectionHead := []
  deleted := []
  opened := []
  file := fun _ => ⟨.undefined, none⟩

namespace State
variable (s : State)

/-- `closesocket` on what the field holds, which is `INVALID_SOCKET` afterwards. -/
def closesocket (i : Slot) : State :=
  { s with sockets := s.sockets.release i }

def setConnection (c : ConnectionPtr) (connection : CConnection) : State :=
  { s with connection := update s.connection c connection }

def setFile (f : FilePtr) (file : FileContext) : State :=
  { s with file := update s.file f file }

/-- `CConnection::Create`, and `SetInboundConnection`. -/
def create (fInboundConnection : Bool) : State :=
  { s.setConnection s.connections ⟨.initial, false, fInboundConnection, false⟩ with
    connections := s.connections + 1 }

end State

/-! ## The listener -/

/-- The first part of `StopAccepting`. -/
def closeListenSocket (s : State) : State :=
  { s.closesocket .listenSocket with threadpoolIo := false, stopped := true }

/-- What `BeginAccept` is answered; `acceptEx` tells whether the accept is pending. -/
structure AcceptAnswer where
  socket : Bool
  ipv6Only : Bool
  acceptEx : Bool

/-- `BeginAccept`.  Where it calls `StopAccepting` no accept is pending. -/
def beginAccept (answer : AcceptAnswer) (s : State) : State :=
  if answer.socket then
    let s := { s with sockets := s.sockets.acquire .clientSocket }
    if answer.ipv6Only && s.threadpoolIo then
      if answer.acceptEx then { s with accepting := true }
      else (closeListenSocket s).closesocket .clientSocket
    else s
  else { s with sockets := s.sockets.clear .clientSocket }

/-- `StopAccepting`, by another thread than the callback.  It waits for the callback of the
accept that is pending, which fails and calls `BeginAccept`. -/
def stopAccepting (answer : AcceptAnswer) (s : State) : State :=
  let t := closeListenSocket s
  let t := if s.threadpoolIo && s.accepting then
      beginAccept answer { t with accepting := false }
    else t
  t.closesocket .clientSocket

/-- What `Bind` and `EnableAccepting` are answered before `BeginAccept`. -/
structure ListenAnswer where
  getAddrInfo : Bool
  socket : Bool
  ipv6Only : Bool
  bind : Bool
  createThreadpoolIo : Bool
  listen : Bool

def enableAccepting (answer : ListenAnswer) (next : AcceptAnswer) (s : State) : State :=
  let s := { s with threadpoolIo := answer.createThreadpoolIo }
  if answer.createThreadpoolIo && answer.listen then beginAccept next s else s

/-- `CMyQueue::Initialize`, from `Bind` on. -/
def initializeQueue (answer : ListenAnswer) (next : AcceptAnswer) (s : State) : State :=
  let s := { s with initialized := true }
  if answer.getAddrInfo && answer.socket then
    let s := { s with sockets := s.sockets.acquire .listenSocket }
    if answer.ipv6Only && answer.bind then enableAccepting answer next s else s
  else s

/-! ## Connections -/

/-- `FinalizeEstablish`; `source` is the field of the socket that the connection takes over. -/
def finalizeEstablish (c : ConnectionPtr) (source : Option Slot) (createThreadpoolWork : Bool)
    (s : State) : State × Bool :=
  if (s.connection c).state = .initial then
    let s := s.setConnection c { s.connection c with state := .established }
    if createThreadpoolWork then
      let s := match source with
        | some i => { s with sockets := s.sockets.transfer i (.socket c) }
        | none => s
      let s := s.setConnection c
        { s.connection c with threadpoolWork := true, receiving := true }
      -- `CMyQueue::ConnectionEstablished`
      ({ s with connectionHead := c :: s.connectionHead }, true)
    else (s, false)
  else (s, false)

/-- What an inbound attempt is answered after its first packet. -/
structure ValidateAnswer where
  create : Bool
  magicPacket : Bool
  send : Bool
  createThreadpoolWork : Bool

/-- `CMyQueue::ValidateAccept` and `CConnection::ValidateAccept`, with the socket of
`_ClientSocket`. -/
def validateAccept (answer : ValidateAnswer) (s : State) : State :=
  if answer.create then
    let c := s.connections
    let s := s.create true
    let r := if answer.magicPacket && answer.send then
        finalizeEstablish c (some .clientSocket) answer.createThreadpoolWork s
      else (s, false)
    if r.2 then r.1 else r.1.closesocket .clientSocket
  else s.closesocket .clientSocket

/-- `sizeof(_AcceptBuffer.MagicPacket)`. -/
def sizeofMagicPacket : ℕ := 16

/-- How the accept has completed. -/
inductive AcceptResult
  | failed
  | received (cbReceived : ℕ) (answer : ValidateAnswer)

def acceptThreadProc (result : AcceptResult) (next : AcceptAnswer) (s : State) : State :=
  match result with
  | .failed => beginAccept next s
  | .received cbReceived answer =>
      if cbReceived = sizeofMagicPacket then beginAccept next (validateAccept answer s)
      else beginAccept next (s.closesocket .clientSocket)

/-- What an outbound attempt is answered. -/
structure ClientAnswer where
  args : Bool
  create : Bool
  socket : Bool
  ipv6Only : Bool
  connect : Bool
  updateContext : Bool
  send : Bool
  read : Bool
  magicPacket : Bool
  createThreadpoolWork : Bool

/-- The two sides have exchanged the packet. -/
def ClientAnswer.shakesHands (answer : ClientAnswer) : Bool :=
  answer.ipv6Only && answer.connect && answer.updateContext && answer.send && answer.read &&
    answer.magicPacket

def initializeAsClient (c : ConnectionPtr) (answer : ClientAnswer) (s : State) : State × Bool :=
  if answer.socket then
    let s := { s with sockets := s.sockets.acquire (.socket c) }
    let r := if answer.shakesHands then
        finalizeEstablish c none answer.createThreadpoolWork s
      else (s, false)
    if r.2 then r else (r.1.closesocket (.socket c), false)
  else (s, false)

/-- The end of `BeginProximity` when it fails. -/
def forget (f : FilePtr) (s : State) : State :=
  s.setFile f { s.file f with pConnection := none }

def beginProximity (f : FilePtr) (answer : ClientAnswer) (s : State) : State :=
  if (s.file f).role = .undefined then
    let s := s.setFile f { s.file f with role := .proximity }
    if answer.args && answer.create then
      let c := s.connections
      let s := (s.create false).setFile f { s.file f with pConnection := some c }
      let r := initializeAsClient c answer s
      if r.2 then r.1 else forget f r.1
    else forget f s
  else forget f s

/-! ## The end of a connection -/

/-- `ConnectionTerminated` and the end of the callback: the connection leaves the list, and an
inbound one is deleted. -/
def connectionTerminated (c : ConnectionPtr) (s : State) : State :=
  let s := { s.setConnection c { s.connection c with receiving := false } with
    connectionHead := s.connectionHead.erase c }
  if (s.connection c).fInboundConnection then
    { s.setConnection c { s.connection c with threadpoolWork := false } with
      deleted := s.deleted ++ [c] }
  else s

/-- The receive thread ends: `Terminate` by itself, and `ConnectionTerminated`. -/
def receiveThreadEnds (c : ConnectionPtr) (s : State) : State :=
  let t := if (s.connection c).state = .terminated then s
    else (s.setConnection c { s.connection c with state := .terminated }).closesocket (.socket c)
  connectionTerminated c t

/-- `Terminate` by another thread, which waits for the receive thread. -/
def terminate (c : ConnectionPtr) (s : State) : State :=
  if (s.connection c).state = .terminated then s
  else
    let t := s.setConnection c { s.connection c with state := .terminated }
    let t := if (t.connection c).receiving then receiveThreadEnds c t else t
    t.closesocket (.socket c)

/-- `delete`, by another thread than the receive thread. -/
def destroy (c : ConnectionPtr) (s : State) : State :=
  let s := terminate c s
  { s.setConnection c { s.connection c with threadpoolWork := false } with
    deleted := s.deleted ++ [c] }

/-- The loop of `~CMyQueue` over these connections. -/
def destroyAll : List ConnectionPtr → State → State
  | [], s => s
  | c :: cs, s => destroyAll cs (destroy c { s with connectionHead := cs })

/-- `OnCloseFile`, as far as the connection of the handle goes. -/
def closeFile (f : FilePtr) (s : State) : State :=
  let t := match (s.file f).pConnection with
    | some c => forget f (destroy c s)
    | none => s
  { t with opened := t.opened.erase f }

/-- `~CMyQueue`. -/
def unload (answer : AcceptAnswer) (s : State) : State :=
  let s := stopAccepting answer s
  { destroyAll s.connectionHead s with unloaded := true }

/-! ## Steps -/

/-- A connection terminates because its receive thread gets nothing more, or because a message
cannot be sent on it. -/
inductive Action
  | initializeQueue (answer : ListenAnswer) (next : AcceptAnswer)
  | accepted (result : AcceptResult) (next : AcceptAnswer)
  | openFile (f : FilePtr) (role : Role)
  | beginProximity (f : FilePtr) (answer : ClientAnswer)
  | received (c : ConnectionPtr)
  | sendFailed (c : ConnectionPtr)
  | closeFile (f : FilePtr)
  | unload (answer : AcceptAnswer)

def step (s : State) : Action → Option State
  | .initializeQueue answer next =>
      if s.initialized = false ∧ s.unloaded = false then some (initializeQueue answer next s)
      else none
  | .accepted result next =>
      if s.accepting then some (acceptThreadProc result next { s with accepting := false })
      else none
  | .openFile f role =>
      if s.unloaded = false ∧ f ∉ s.opened then
        some { s.setFile f ⟨role, none⟩ with opened := f :: s.opened }
      else none
  | .beginProximity f answer =>
      if f ∈ s.opened then some (beginProximity f answer s) else none
  | .received c => if c ∈ s.connectionHead then some (receiveThreadEnds c s) else none
  | .sendFailed c => if c ∈ s.connectionHead then some (terminate c s) else none
  | .closeFile f => if f ∈ s.opened then some (closeFile f s) else none
  | .unload answer =>
      if s.opened = [] ∧ s.unloaded = false then some (unload answer s) else none

/-! ## Statement -/

/-- The listener has been stopped, no receive thread is left and no handle is open. -/
structure Quiet (s : State) : Prop where
  stopped : s.stopped = true
  receiving : ∀ c < s.connections, (s.connection c).receiving = false
  opened : s.opened = []

/-- Every socket has been closed once, and every connection deleted once. -/
structure Released (s : State) : Prop where
  sockets : ∀ x < s.sockets.acquired, s.sockets.released.count x = 1
  connections : ∀ c < s.connections, s.deleted.count c = 1

/-- The peer has sent the packet, the answer is sent and the callback created. -/
structure ValidateAnswer.Establishes (answer : ValidateAnswer) : Prop where
  magicPacket : answer.magicPacket = true
  send : answer.send = true
  createThreadpoolWork : answer.createThreadpoolWork = true

structure ClientAnswer.Establishes (answer : ClientAnswer) : Prop where
  socket : answer.socket = true
  shakesHands : answer.shakesHands = true
  createThreadpoolWork : answer.createThreadpoolWork = true

/-- A handle still has the connection. -/
def State.HasHandle (s : State) (c : ConnectionPtr) : Prop :=
  ∃ f, (s.file f).pConnection = some c

/-- No accept fails; an attempt that creates a connection establishes it; a call of
`BeginProximity` on a handle that has been used does not come after the connection of that handle
has terminated; an outbound connection does not terminate without its handle; and when the queue
ends no accept is pending and no inbound connection is left. -/
def Action.Clean (s : State) : Action → Prop
  | .accepted .failed _ => False
  | .accepted (.received cbReceived answer) _ =>
      cbReceived = sizeofMagicPacket → answer.create = true → answer.Establishes
  | .beginProximity f answer =>
      if (s.file f).role = .undefined then
        answer.args = true → answer.create = true → answer.Establishes
      else ∀ c, (s.file f).pConnection = some c → c ∈ s.connectionHead
  | .received c | .sendFailed c => (s.connection c).fInboundConnection = true ∨ s.HasHandle c
  | .unload _ =>
      s.accepting = false ∧ ∀ c ∈ s.connectionHead, (s.connection c).fInboundConnection = false
  | _ => True

/-! ## What a part of the driver leaves alone -/

/-- The listener is the same in both states. -/
structure SameListener (s t : State) : Prop where
  initialized : t.initialized = s.initialized
  threadpoolIo : t.threadpoolIo = s.threadpoolIo
  accepting : t.accepting = s.accepting
  stopped : t.stopped = s.stopped
  unloaded : t.unloaded = s.unloaded
  listenSocket : t.sockets.holder .listenSocket = s.sockets.holder .listenSocket
  clientSocket : t.sockets.holder .clientSocket = s.sockets.holder .clientSocket

/-- The connections and the handles are the same in both states. -/
structure SameConnections (s t : State) : Prop where
  connection : t.connection = s.connection
  connections : t.connections = s.connections
  connectionHead : t.connectionHead = s.connectionHead
  deleted : t.deleted = s.deleted
  opened : t.opened = s.opened
  file : t.file = s.file
  socket : ∀ c, t.sockets.holder (.socket c) = s.sockets.holder (.socket c)

/-- The fields of the listener that hold no socket. -/
structure SameFlags (s t : State) : Prop where
  initialized : t.initialized = s.initialized
  accepting : t.accepting = s.accepting
  stopped : t.stopped = s.stopped

/-! ## What the listener does with its sockets -/

section Listener
variable {s : State} {x : ℕ}

theorem sameConnections_beginAccept (answer : AcceptAnswer) :
    SameConnections s (beginAccept answer s) := by
  simp only [beginAccept, closeListenSocket, State.closesocket]
  split_ifs
  all_goals
    constructor
    all_goals simp

theorem sameConnections_stopAccepting (answer : AcceptAnswer) :
    SameConnections s (stopAccepting answer s) := by
  obtain ⟨h1, h2, h3, h4, h5, h6, h7⟩ := sameConnections_beginAccept
    (s := { closeListenSocket s with accepting := false }) answer
  simp only [stopAccepting, State.closesocket]
  split_ifs
  · refine ⟨h1, h2, h3, h4, h5, h6, ?_⟩
    intro c
    simpa [closeListenSocket, State.closesocket] using h7 c
  · constructor
    all_goals simp [closeListenSocket, State.closesocket]

theorem sound_beginAccept (hs : s.sockets.Sound) (answer : AcceptAnswer) :
    (beginAccept answer s).sockets.Sound := by
  simp only [beginAccept, closeListenSocket, State.closesocket]
  split_ifs
  · exact hs.acquire _
  · exact ((hs.acquire _).release _).release _
  · exact hs.acquire _
  · exact hs.clear _

theorem lost_beginAccept_iff (hs : s.sockets.Sound) (answer : AcceptAnswer) :
    (beginAccept answer s).sockets.Lost x ↔
      s.sockets.Lost x ∨ s.sockets.holder .clientSocket = some x := by
  simp only [beginAccept, closeListenSocket, State.closesocket]
  split_ifs
  · exact lost_acquire_iff hs
  · rw [lost_release_iff, lost_release_iff, lost_acquire_iff hs]
  · exact lost_acquire_iff hs
  · exact lost_clear_iff hs

theorem sound_stopAccepting (hs : s.sockets.Sound) (answer : AcceptAnswer) :
    (stopAccepting answer s).sockets.Sound := by
  simp only [stopAccepting, State.closesocket]
  apply Ledger.Sound.release
  split_ifs
  · exact sound_beginAccept (s := { closeListenSocket s with accepting := false })
      (hs.release _) answer
  · exact hs.release _

theorem lost_stopAccepting_iff (hs : s.sockets.Sound) (answer : AcceptAnswer) :
    (stopAccepting answer s).sockets.Lost x ↔
      s.sockets.Lost x ∨ ((s.threadpoolIo && s.accepting) = true ∧
        s.sockets.holder .clientSocket = some x) := by
  simp only [stopAccepting, State.closesocket]
  rw [lost_release_iff]
  split_ifs with hpending
  · have hlisten : (s.sockets.release .listenSocket).Sound := hs.release _
    have hlost := lost_beginAccept_iff (x := x)
      (s := { closeListenSocket s with accepting := false }) hlisten answer
    rw [hlost]
    simp only [closeListenSocket, State.closesocket]
    rw [lost_release_iff]
    simp [hpending]
  · simp only [closeListenSocket, State.closesocket]
    rw [lost_release_iff]
    simp [hpending]

end Listener

/-! ## Invariants -/

/-- The listener holds no socket and waits for none. -/
structure State.Silent (s : State) : Prop where
  listenSocket : s.sockets.holder .listenSocket = none
  clientSocket : s.sockets.holder .clientSocket = none
  accepting : s.accepting = false

structure Listening (s : State) : Prop where
  fresh : s.initialized = false → s.Silent
  running : s.initialized = false → s.unloaded = false → s.stopped = false
  stopped : s.stopped = true → s.Silent
  accepting : s.accepting = true →
    s.threadpoolIo = true ∧ ∃ x, s.sockets.holder .clientSocket = some x

/-- The handle is open and has a connection that it will delete. -/
structure State.Holds (s : State) (f : FilePtr) (c : ConnectionPtr) : Prop where
  opened : f ∈ s.opened
  role : (s.file f).role ≠ .undefined
  known : c < s.connections
  outbound : (s.connection c).fInboundConnection = false
  alive : c ∉ s.deleted

/-- The connections in the list are those with a receive thread, and they alone hold sockets. -/
structure Connected (s : State) : Prop where
  receiving : ∀ c, (s.connection c).receiving = true ↔ c ∈ s.connectionHead
  state : ∀ c ∈ s.connectionHead, (s.connection c).state = .established
  known : ∀ c ∈ s.connectionHead, c < s.connections
  alive : ∀ c ∈ s.connectionHead, c ∉ s.deleted
  nodup : s.connectionHead.Nodup
  socket : ∀ c x, s.sockets.holder (.socket c) = some x → c ∈ s.connectionHead
  deleted : ∀ c ∈ s.deleted, c < s.connections
  file : ∀ f c, (s.file f).pConnection = some c → s.Holds f c
  unique : ∀ f g c, (s.file f).pConnection = some c → (s.file g).pConnection = some c → f = g
  opened : s.opened.Nodup

structure Inv (s : State) : Prop where
  sound : s.sockets.Sound
  listening : Listening s
  connected : Connected s

theorem inv_start : Inv start := by
  refine ⟨sound_empty, ?_, ?_⟩
  · have hsilent : start.Silent := ⟨rfl, rfl, rfl⟩
    refine ⟨fun _ => hsilent, fun _ _ => rfl, fun _ => hsilent, ?_⟩
    simp [start]
  · constructor
    all_goals simp [start, Ledger.empty]

/-- Nothing can delete the connection any more. -/
structure State.Orphaned (s : State) (c : ConnectionPtr) : Prop where
  known : c < s.connections
  alive : c ∉ s.deleted
  absent : c ∉ s.connectionHead
  free : ¬s.HasHandle c

/-- No socket and no connection is beyond reach, and none has been deleted twice. -/
structure Intact (s : State) : Prop where
  sockets : ∀ x, ¬s.sockets.Lost x
  connections : ∀ c, ¬s.Orphaned c
  deleted : s.deleted.Nodup

theorem intact_start : Intact start := by
  refine ⟨?_, ?_, List.nodup_nil⟩
  · rintro x ⟨hlt, -, -⟩
    exact absurd hlt (by simp [start, Ledger.empty])
  · rintro c ⟨hlt, -, -, -⟩
    exact absurd hlt (by simp [start])

theorem intact_iff {s t : State} {P : ConnectionPtr → Prop} {Q : Prop}
    (hlost : ∀ x, t.sockets.Lost x ↔ s.sockets.Lost x)
    (horphaned : ∀ c, t.Orphaned c ↔ s.Orphaned c ∨ P c)
    (hdeleted : t.deleted.Nodup ↔ s.deleted.Nodup ∧ Q) : Intact t ↔ Intact s ∧ (∀ c, ¬P c) ∧ Q := by
  constructor
  · rintro ⟨hsockets, hconnections, hnodup⟩
    obtain ⟨hnodup', hQ⟩ := hdeleted.1 hnodup
    refine ⟨⟨?_, ?_, hnodup'⟩, ?_, hQ⟩
    · intro x hx
      exact hsockets x ((hlost x).2 hx)
    · intro c hc
      exact hconnections c ((horphaned c).2 (.inl hc))
    · intro c hc
      exact hconnections c ((horphaned c).2 (.inr hc))
  · rintro ⟨⟨hsockets, hconnections, hnodup⟩, hP, hQ⟩
    refine ⟨?_, ?_, hdeleted.2 ⟨hnodup, hQ⟩⟩
    · intro x hx
      exact hsockets x ((hlost x).1 hx)
    · intro c hc
      rcases (horphaned c).1 hc with hbefore | hnow
      · exact hconnections c hbefore
      · exact hP c hnow

theorem released_iff_intact {s : State} (hs : Inv s) (hquiet : Quiet s) :
    Released s ↔ Intact s := by
  obtain ⟨hsound, hlistening, hconnected⟩ := hs
  have hhead : s.connectionHead = [] := by
    rw [List.eq_nil_iff_forall_not_mem]
    intro c hc
    have hreceiving := (hconnected.receiving c).2 hc
    rw [hquiet.receiving c (hconnected.known c hc)] at hreceiving
    exact absurd hreceiving (by simp)
  have hhandle : ∀ c, ¬s.HasHandle c := by
    rintro c ⟨f, hf⟩
    have hopened := (hconnected.file f c hf).opened
    rw [hquiet.opened] at hopened
    exact absurd hopened (by simp)
  have hholder : ∀ i, s.sockets.holder i = none := by
    have hsilent := hlistening.stopped hquiet.stopped
    intro i
    rcases i with - | - | c
    · exact hsilent.listenSocket
    · exact hsilent.clientSocket
    · rcases hhold : s.sockets.holder (.socket c) with - | x
      · rfl
      · have hmem := hconnected.socket c x hhold
        rw [hhead] at hmem
        exact absurd hmem (by simp)
  have hsockets := released_once_iff hsound hholder
  constructor
  · rintro ⟨hreleased, hdeleted⟩
    refine ⟨hsockets.1 hreleased, ?_, ?_⟩
    · rintro c ⟨hlt, hmem, -, -⟩
      exact absurd (hdeleted c hlt) (by simp [List.count_eq_zero_of_not_mem hmem])
    · rw [List.nodup_iff_count_le_one]
      intro c
      by_cases hmem : c ∈ s.deleted
      · exact Nat.le_of_eq (hdeleted c (hconnected.deleted c hmem))
      · simp [List.count_eq_zero_of_not_mem hmem]
  · rintro ⟨hlost, horphaned, hnodup⟩
    refine ⟨hsockets.2 hlost, ?_⟩
    intro c hlt
    have hmem : c ∈ s.deleted := by
      by_contra hmem
      exact horphaned c ⟨hlt, hmem, by simp [hhead], hhandle c⟩
    exact List.count_eq_one_of_mem hnodup hmem

/-! ## What keeps the invariants -/

section Same
variable {s t : State} {c : ConnectionPtr}

theorem Listening.same (hs : Listening s) (h : SameListener s t) : Listening t := by
  have hsilent : s.Silent → t.Silent := by
    rintro ⟨hlisten, hclient, haccepting⟩
    exact ⟨h.listenSocket.trans hlisten, h.clientSocket.trans hclient, h.accepting.trans haccepting⟩
  refine ⟨?_, ?_, ?_, ?_⟩
  · intro hinit
    exact hsilent (hs.fresh (h.initialized ▸ hinit))
  · intro hinit hloaded
    exact h.stopped.trans (hs.running (h.initialized ▸ hinit) (h.unloaded ▸ hloaded))
  · intro hstopped
    exact hsilent (hs.stopped (h.stopped ▸ hstopped))
  · intro haccepting
    rw [h.threadpoolIo, h.clientSocket]
    exact hs.accepting (h.accepting ▸ haccepting)

theorem Connected.same (hs : Connected s) (h : SameConnections s t) : Connected t := by
  obtain ⟨h1, h2, h3, h4, h5, h6, h7⟩ := h
  have hfile : ∀ f c, (s.file f).pConnection = some c → t.Holds f c := by
    intro f c hf
    obtain ⟨hopened, hrole, hknown, hout, halive⟩ := hs.file f c hf
    exact ⟨by rwa [h5], by rwa [h6], by rwa [h2], by rwa [h1], by rwa [h4]⟩
  constructor
  case file => rwa [h6]
  all_goals simp only [h1, h2, h3, h4, h5, h6, h7]
  · exact hs.receiving
  · exact hs.state
  · exact hs.known
  · exact hs.alive
  · exact hs.nodup
  · exact hs.socket
  · exact hs.deleted
  · exact hs.unique
  · exact hs.opened

theorem SameConnections.orphaned_iff (h : SameConnections s t) : t.Orphaned c ↔ s.Orphaned c := by
  obtain ⟨-, hconnections, hhead, hdeleted, -, hfile, -⟩ := h
  constructor
  · rintro ⟨hknown, halive, habsent, hfree⟩
    rw [State.HasHandle, hfile] at hfree
    exact ⟨hconnections ▸ hknown, hdeleted ▸ halive, hhead ▸ habsent, hfree⟩
  · rintro ⟨hknown, halive, habsent, hfree⟩
    rw [State.HasHandle, ← hfile] at hfree
    exact ⟨hconnections ▸ hknown, hdeleted ▸ halive, hhead ▸ habsent, hfree⟩

theorem Listening.of_idle (hinit : s.initialized = true) (hstopped : s.stopped = false)
    (haccepting : s.accepting = false) : Listening s := by
  constructor
  all_goals simp [hinit, hstopped, haccepting]

theorem Listening.of_silent (hs : s.Silent)
    (hrunning : s.initialized = false → s.unloaded = false → s.stopped = false) : Listening s := by
  refine ⟨fun _ => hs, hrunning, fun _ => hs, ?_⟩
  intro haccepting
  rw [hs.accepting] at haccepting
  exact absurd haccepting (by simp)

theorem listening_beginAccept (hinit : s.initialized = true) (hstopped : s.stopped = false)
    (haccepting : s.accepting = false) (answer : AcceptAnswer) :
    Listening (beginAccept answer s) := by
  simp only [beginAccept]
  split_ifs with hsocket hready hpending
  · constructor
    all_goals simp_all
  · apply Listening.of_silent
    · constructor
      all_goals simp [closeListenSocket, State.closesocket, haccepting]
    · simp [closeListenSocket, State.closesocket, hinit]
  · exact .of_idle hinit hstopped haccepting
  · exact .of_idle hinit hstopped haccepting

theorem silent_stopAccepting (hs : Listening s) (answer : AcceptAnswer) :
    (stopAccepting answer s).Silent := by
  by_cases haccepting : s.accepting = true
  · have hpool := (hs.accepting haccepting).1
    simp only [stopAccepting, beginAccept, closeListenSocket, State.closesocket, hpool, haccepting]
    split_ifs
    all_goals
      constructor
      all_goals simp_all
  · rw [Bool.not_eq_true] at haccepting
    constructor
    all_goals simp [stopAccepting, closeListenSocket, State.closesocket, haccepting]

end Same

/-! ## The operations on a connection -/

/-- A new connection, with these fields. -/
def State.withConnection (s : State) (connection : CConnection) : State :=
  { s.setConnection s.connections connection with connections := s.connections + 1 }

/-- A new connection, with these fields, that is in the list. -/
def State.withEstablished (s : State) (connection : CConnection) (sockets : Ledger Slot) : State :=
  { s.withConnection connection with
    sockets := sockets
    connectionHead := s.connections :: s.connectionHead }

/-- The connection is out of the list and has no receive thread; an inbound one is deleted. -/
def State.ended (s : State) (c : ConnectionPtr) : State :=
  { s.closesocket (.socket c) with
    connection := update s.connection c
      ⟨.terminated, (s.connection c).threadpoolWork && !(s.connection c).fInboundConnection,
        (s.connection c).fInboundConnection, false⟩
    connectionHead := s.connectionHead.erase c
    deleted := s.deleted ++ if (s.connection c).fInboundConnection then [c] else [] }

section Established
variable {s : State} {connection : CConnection} {sockets : Ledger Slot}

@[simp] theorem withEstablished_connection : (s.withEstablished connection sockets).connection =
      (s.withConnection connection).connection := rfl

@[simp] theorem withEstablished_connectionHead :
    (s.withEstablished connection sockets).connectionHead = s.connections :: s.connectionHead := rfl

@[simp] theorem withEstablished_sockets :
    (s.withEstablished connection sockets).sockets = sockets := rfl

end Established

section Connection
variable {s : State} {c d : ConnectionPtr} {f : FilePtr} {x : ℕ}

theorem receiveThreadEnds_eq (hstate : (s.connection c).state = .established) :
    receiveThreadEnds c s = s.ended c := by
  rcases hinbound : (s.connection c).fInboundConnection
  all_goals simp [receiveThreadEnds, connectionTerminated, State.ended, State.setConnection,
    State.closesocket, hstate, hinbound]

theorem terminate_eq (hstate : (s.connection c).state = .established)
    (hreceiving : (s.connection c).receiving = true) : terminate c s = s.ended c := by
  rcases hinbound : (s.connection c).fInboundConnection
  all_goals simp [terminate, receiveThreadEnds, connectionTerminated, State.ended,
    State.setConnection, State.closesocket, hstate, hinbound, hreceiving]

theorem destroy_eq (hstate : (s.connection c).state = .established)
    (hreceiving : (s.connection c).receiving = true) : destroy c s = { s.ended c with
      connection := update s.connection c
        ⟨.terminated, false, (s.connection c).fInboundConnection, false⟩
      deleted := (s.ended c).deleted ++ [c] } := by
  simp [destroy, terminate_eq hstate hreceiving, State.ended, State.setConnection]

theorem Connected.fresh (hs : Connected s) :
    s.connections ∉ s.connectionHead ∧ s.connections ∉ s.deleted ∧ ¬s.HasHandle s.connections ∧
      s.sockets.holder (.socket s.connections) = none := by
  have hhead : s.connections ∉ s.connectionHead := fun hmem => Nat.lt_irrefl _ (hs.known _ hmem)
  refine ⟨hhead, fun hmem => Nat.lt_irrefl _ (hs.deleted _ hmem), ?_, ?_⟩
  · rintro ⟨f, hf⟩
    exact Nat.lt_irrefl _ (hs.file f _ hf).known
  · rcases hhold : s.sockets.holder (.socket s.connections) with - | x
    · rfl
    · exact absurd (hs.socket _ x hhold) hhead

theorem Connected.ne_connections (hs : Connected s) (hc : c ∈ s.connectionHead) :
    c ≠ s.connections :=
  Nat.ne_of_lt (hs.known c hc)

variable {connection : CConnection} {sockets : Ledger Slot}

theorem withConnection_of_ne (hc : c ≠ s.connections) :
    (s.withConnection connection).connection c = s.connection c :=
  Function.update_of_ne hc _ _

theorem Connected.withConnection (hs : Connected s)
    (hidle : connection.receiving = false) : Connected (s.withConnection connection) := by
  obtain ⟨hhead, -, -, -⟩ := hs.fresh
  refine ⟨?_, ?_, ?_, hs.alive, hs.nodup, hs.socket, ?_, ?_, hs.unique, hs.opened⟩
  · intro c
    by_cases hc : c = s.connections
    · subst hc
      simp [State.withConnection, State.setConnection, hidle, hhead]
    · rw [withConnection_of_ne hc]
      exact hs.receiving c
  · intro c hc
    rw [withConnection_of_ne (hs.ne_connections hc)]
    exact hs.state c hc
  · intro c hc
    exact Nat.lt_succ_of_lt (hs.known c hc)
  · intro c hc
    exact Nat.lt_succ_of_lt (hs.deleted c hc)
  · intro f c hf
    obtain ⟨hopened, hrole, hknown, hout, halive⟩ := hs.file f c hf
    refine ⟨hopened, hrole, Nat.lt_succ_of_lt hknown, ?_, halive⟩
    rw [withConnection_of_ne (Nat.ne_of_lt hknown)]
    exact hout

theorem orphaned_withConnection_iff (hs : Connected s) (connection : CConnection) :
    (s.withConnection connection).Orphaned c ↔ s.Orphaned c ∨ c = s.connections := by
  obtain ⟨hhead, hdeleted, hhandle, -⟩ := hs.fresh
  constructor
  · rintro ⟨hknown, halive, habsent, hfree⟩
    rcases Nat.lt_succ_iff_lt_or_eq.1 hknown with hlt | heq
    · exact .inl ⟨hlt, halive, habsent, hfree⟩
    · exact .inr heq
  · rintro (⟨hknown, halive, habsent, hfree⟩ | rfl)
    · exact ⟨Nat.lt_succ_of_lt hknown, halive, habsent, hfree⟩
    · exact ⟨Nat.lt_succ_self _, hdeleted, hhead, hhandle⟩

theorem Connected.establish (hs : Connected s) (hstate : connection.state = .established)
    (hreceiving : connection.receiving = true) (hsockets : ∀ d, d ≠ s.connections →
      sockets.holder (.socket d) = s.sockets.holder (.socket d)) :
    Connected (s.withEstablished connection sockets) := by
  obtain ⟨hhead, hdeleted, -, -⟩ := hs.fresh
  have hnew : (s.withConnection connection).connection s.connections = connection :=
    Function.update_self ..
  refine ⟨?_, ?_, ?_, ?_, List.nodup_cons.2 ⟨hhead, hs.nodup⟩, ?_, ?_, ?_, hs.unique, hs.opened⟩
  · intro c
    by_cases hc : c = s.connections
    · subst hc
      simp [hnew, hreceiving]
    · simp [withConnection_of_ne hc, hc, hs.receiving c]
  · intro c hc
    rcases List.mem_cons.1 hc with rfl | hc
    · exact (congrArg _ hnew).trans hstate
    · exact (congrArg _ (withConnection_of_ne (hs.ne_connections hc))).trans (hs.state c hc)
  · intro c hc
    rcases List.mem_cons.1 hc with rfl | hc
    · exact Nat.lt_succ_self _
    · exact Nat.lt_succ_of_lt (hs.known c hc)
  · intro c hc
    rcases List.mem_cons.1 hc with rfl | hc
    · exact hdeleted
    · exact hs.alive c hc
  · intro c x hhold
    by_cases hc : c = s.connections
    · subst hc
      exact List.mem_cons_self ..
    · exact List.mem_cons_of_mem _ (hs.socket c x ((hsockets c hc).symm.trans hhold))
  · intro c hc
    exact Nat.lt_succ_of_lt (hs.deleted c hc)
  · intro f c hf
    obtain ⟨hopened, hrole, hknown, hout, halive⟩ := hs.file f c hf
    refine ⟨hopened, hrole, Nat.lt_succ_of_lt hknown, ?_, halive⟩
    exact (congrArg _ (withConnection_of_ne (Nat.ne_of_lt hknown))).trans hout

theorem orphaned_withEstablished_iff :
    (s.withEstablished connection sockets).Orphaned c ↔ s.Orphaned c := by
  constructor
  · rintro ⟨hknown, halive, habsent, hfree⟩
    obtain ⟨hne, habsent'⟩ := not_or.1 (mt List.mem_cons.2 habsent)
    exact ⟨Nat.lt_of_le_of_ne (Nat.le_of_lt_succ hknown) hne, halive, habsent', hfree⟩
  · rintro ⟨hknown, halive, habsent, hfree⟩
    refine ⟨Nat.lt_succ_of_lt hknown, halive, ?_, hfree⟩
    intro hmem
    rcases List.mem_cons.1 hmem with heq | hmem
    · exact Nat.ne_of_lt hknown heq
    · exact habsent hmem

theorem Connected.forgotten (hs : Connected s) (f : FilePtr) (role : Role) :
    Connected (s.setFile f ⟨role, none⟩) := by
  have hkept : ∀ g c, ((s.setFile f ⟨role, none⟩).file g).pConnection = some c →
      g ≠ f ∧ (s.file g).pConnection = some c := by
    intro g c hg
    by_cases hgf : g = f
    · subst hgf
      simp [State.setFile] at hg
    · exact ⟨hgf, by simpa [State.setFile, hgf] using hg⟩
  refine ⟨hs.receiving, hs.state, hs.known, hs.alive, hs.nodup, hs.socket, hs.deleted, ?_, ?_,
    hs.opened⟩
  · intro g c hg
    obtain ⟨hgf, hg⟩ := hkept g c hg
    obtain ⟨hopened, hrole, hknown, hout, halive⟩ := hs.file g c hg
    refine ⟨hopened, ?_, hknown, hout, halive⟩
    simpa [State.setFile, hgf] using hrole
  · intro g h c hg hh
    exact hs.unique g h c (hkept g c hg).2 (hkept h c hh).2

theorem orphaned_forgotten_iff (hs : Connected s) (role : Role) :
    (s.setFile f ⟨role, none⟩).Orphaned c ↔
      s.Orphaned c ∨ ((s.file f).pConnection = some c ∧ c ∉ s.connectionHead) := by
  constructor
  · rintro ⟨hknown, halive, habsent, hfree⟩
    by_cases hf : (s.file f).pConnection = some c
    · exact .inr ⟨hf, habsent⟩
    · refine .inl ⟨hknown, halive, habsent, ?_⟩
      rintro ⟨g, hg⟩
      by_cases hgf : g = f
      · exact hf (hgf ▸ hg)
      · exact hfree ⟨g, by simpa [State.setFile, hgf] using hg⟩
  · rintro (⟨hknown, halive, habsent, hfree⟩ | ⟨hf, habsent⟩)
    · refine ⟨hknown, halive, habsent, ?_⟩
      rintro ⟨g, hg⟩
      by_cases hgf : g = f
      · subst hgf
        simp [State.setFile] at hg
      · exact hfree ⟨g, by simpa [State.setFile, hgf] using hg⟩
    · obtain ⟨-, -, hknown, -, halive⟩ := hs.file f c hf
      refine ⟨hknown, halive, habsent, ?_⟩
      rintro ⟨g, hg⟩
      by_cases hgf : g = f
      · subst hgf
        simp [State.setFile] at hg
      · exact hgf (hs.unique g f c (by simpa [State.setFile, hgf] using hg) hf)

theorem Connected.given (hs : Connected s) (hf : f ∈ s.opened) (hc : c ∈ s.connectionHead)
    (hout : (s.connection c).fInboundConnection = false) (hfree : ¬s.HasHandle c) :
    Connected (s.setFile f ⟨.proximity, some c⟩) := by
  have hkept : ∀ g d, ((s.setFile f ⟨.proximity, some c⟩).file g).pConnection = some d →
      (g = f ∧ d = c) ∨ (g ≠ f ∧ (s.file g).pConnection = some d) := by
    intro g d hg
    by_cases hgf : g = f
    · subst hgf
      exact .inl ⟨rfl, by simpa [State.setFile, eq_comm] using hg⟩
    · exact .inr ⟨hgf, by simpa [State.setFile, hgf] using hg⟩
  refine ⟨hs.receiving, hs.state, hs.known, hs.alive, hs.nodup, hs.socket, hs.deleted, ?_, ?_,
    hs.opened⟩
  · intro g d hg
    rcases hkept g d hg with ⟨rfl, rfl⟩ | ⟨hgf, hg⟩
    · refine ⟨hf, ?_, hs.known d hc, hout, hs.alive d hc⟩
      simp [State.setFile]
    · obtain ⟨hopened, hrole, hknown, hout', halive⟩ := hs.file g d hg
      refine ⟨hopened, ?_, hknown, hout', halive⟩
      simpa [State.setFile, hgf] using hrole
  · intro g h d hg hh
    rcases hkept g d hg with ⟨rfl, rfl⟩ | ⟨-, hg'⟩ <;>
      rcases hkept h d hh with ⟨rfl, hd⟩ | ⟨-, hh'⟩
    · rfl
    · exact absurd ⟨h, hh'⟩ hfree
    · exact absurd ⟨g, hd ▸ hg'⟩ hfree
    · exact hs.unique g h d hg' hh'

theorem orphaned_given_iff (hc : c ∈ s.connectionHead) (hf : (s.file f).pConnection = none) :
    (s.setFile f ⟨.proximity, some c⟩).Orphaned d ↔ s.Orphaned d := by
  constructor
  · rintro ⟨hknown, halive, habsent, hfree⟩
    refine ⟨hknown, halive, habsent, ?_⟩
    rintro ⟨g, hg⟩
    by_cases hgf : g = f
    · subst hgf
      rw [hf] at hg
      exact absurd hg (by simp)
    · exact hfree ⟨g, by simpa [State.setFile, hgf] using hg⟩
  · rintro ⟨hknown, halive, habsent, hfree⟩
    refine ⟨hknown, halive, habsent, ?_⟩
    rintro ⟨g, hg⟩
    by_cases hgf : g = f
    · subst hgf
      have hcd : c = d := by simpa [State.setFile] using hg
      exact habsent (hcd ▸ hc)
    · exact hfree ⟨g, by simpa [State.setFile, hgf] using hg⟩

theorem mem_deleted_ended_iff : d ∈ (s.ended c).deleted ↔
    d ∈ s.deleted ∨ (d = c ∧ (s.connection c).fInboundConnection = true) := by
  rcases hinbound : (s.connection c).fInboundConnection
  all_goals simp [State.ended, hinbound]

theorem Connected.ended (hs : Connected s) (hc : c ∈ s.connectionHead) : Connected (s.ended c) := by
  have hmem : ∀ d, d ∈ (s.ended c).connectionHead ↔ d ≠ c ∧ d ∈ s.connectionHead :=
    fun _ => hs.nodup.mem_erase_iff
  have hold : ∀ d, d ≠ c → (s.ended c).connection d = s.connection d := by
    intro d hd
    exact Function.update_of_ne hd _ _
  have hdeleted : ∀ d, d ∈ (s.ended c).deleted ↔
      d ∈ s.deleted ∨ (d = c ∧ (s.connection c).fInboundConnection = true) :=
    fun _ => mem_deleted_ended_iff
  refine ⟨?_, ?_, ?_, ?_, hs.nodup.erase c, ?_, ?_, ?_, hs.unique, hs.opened⟩
  · intro d
    by_cases hd : d = c
    · subst hd
      simp [State.ended, hs.nodup.not_mem_erase]
    · rw [hold d hd, hmem]
      simp [hd, hs.receiving d]
  · intro d hd
    obtain ⟨hne, hd⟩ := (hmem d).1 hd
    rw [hold d hne]
    exact hs.state d hd
  · intro d hd
    exact hs.known d ((hmem d).1 hd).2
  · intro d hd hgone
    obtain ⟨hne, hd⟩ := (hmem d).1 hd
    rcases (hdeleted d).1 hgone with hgone | ⟨heq, -⟩
    · exact hs.alive d hd hgone
    · exact hne heq
  · intro d x hhold
    by_cases hd : d = c
    · subst hd
      simp [State.ended, State.closesocket] at hhold
    · refine (hmem d).2 ⟨hd, hs.socket d x ?_⟩
      simpa [State.ended, State.closesocket, hd] using hhold
  · intro d hd
    rcases (hdeleted d).1 hd with hd | ⟨rfl, -⟩
    · exact hs.deleted d hd
    · exact hs.known d hc
  · intro f d hf
    obtain ⟨hopened, hrole, hknown, hout, halive⟩ := hs.file f d hf
    refine ⟨hopened, hrole, hknown, ?_, ?_⟩
    · by_cases hd : d = c
      · subst hd
        simpa [State.ended] using hout
      · rwa [hold d hd]
    · intro hgone
      rcases (hdeleted d).1 hgone with hgone | ⟨rfl, hin⟩
      · exact halive hgone
      · rw [hout] at hin
        exact absurd hin (by simp)

theorem orphaned_ended_iff (hs : Connected s) (hc : c ∈ s.connectionHead) :
    (s.ended c).Orphaned d ↔ s.Orphaned d ∨
      (d = c ∧ ¬((s.connection c).fInboundConnection = true ∨ s.HasHandle c)) := by
  have hmem : d ∈ (s.ended c).connectionHead ↔ d ≠ c ∧ d ∈ s.connectionHead :=
    hs.nodup.mem_erase_iff
  have hdeleted := mem_deleted_ended_iff (s := s) (c := c) (d := d)
  constructor
  · rintro ⟨hknown, halive, habsent, hfree⟩
    rw [hdeleted, not_or] at halive
    by_cases hd : d = c
    · subst hd
      refine .inr ⟨rfl, ?_⟩
      rintro (hin | hhas)
      · exact halive.2 ⟨rfl, hin⟩
      · exact hfree hhas
    · exact .inl ⟨hknown, halive.1, fun h => habsent (hmem.2 ⟨hd, h⟩), hfree⟩
  · rintro (⟨hknown, halive, habsent, hfree⟩ | ⟨rfl, hnone⟩)
    · refine ⟨hknown, ?_, fun h => habsent (hmem.1 h).2, hfree⟩
      intro hgone
      rcases hdeleted.1 hgone with hgone | ⟨rfl, -⟩
      · exact halive hgone
      · exact habsent hc
    · obtain ⟨hout, hfree⟩ := not_or.1 hnone
      refine ⟨hs.known d hc, ?_, fun h => (hmem.1 h).1 rfl, hfree⟩
      intro hgone
      rcases hdeleted.1 hgone with hgone | ⟨-, hin⟩
      · exact hs.alive d hc hgone
      · exact hout hin

theorem nodup_ended (hs : Connected s) (hc : c ∈ s.connectionHead) :
    (s.ended c).deleted.Nodup ↔ s.deleted.Nodup := by
  have halive := hs.alive c hc
  rcases hinbound : (s.connection c).fInboundConnection
  · simp [State.ended, hinbound]
  · simp [State.ended, hinbound, List.nodup_append', halive]

theorem Connected.buried (hs : Connected s) (hc : c ∉ s.connectionHead) (hknown : c < s.connections)
    (hfree : ¬s.HasHandle c) (hidle : connection.receiving = false) :
    Connected { s.setConnection c connection with deleted := s.deleted ++ [c] } := by
  have hold : ∀ d, d ≠ c → update s.connection c connection d = s.connection d := by
    intro d hd
    exact Function.update_of_ne hd _ _
  have hne : ∀ d ∈ s.connectionHead, d ≠ c := by
    rintro d hd rfl
    exact hc hd
  have hdeleted : ∀ d, d ∈ s.deleted ++ [c] ↔ d ∈ s.deleted ∨ d = c := by
    simp
  refine ⟨?_, ?_, hs.known, ?_, hs.nodup, hs.socket, ?_, ?_, hs.unique, hs.opened⟩
  · intro d
    by_cases hd : d = c
    · subst hd
      simp [State.setConnection, hidle, hc]
    · simp only [State.setConnection, hold d hd]
      exact hs.receiving d
  · intro d hd
    simp only [State.setConnection, hold d (hne d hd)]
    exact hs.state d hd
  · intro d hd hgone
    rcases (hdeleted d).1 hgone with hgone | heq
    · exact hs.alive d hd hgone
    · exact hne d hd heq
  · intro d hd
    rcases (hdeleted d).1 hd with hd | rfl
    · exact hs.deleted d hd
    · exact hknown
  · intro f d hf
    obtain ⟨hopened, hrole, hlt, hout, halive⟩ := hs.file f d hf
    have hd : d ≠ c := by
      rintro rfl
      exact hfree ⟨f, hf⟩
    refine ⟨hopened, hrole, hlt, ?_, ?_⟩
    · simpa only [State.setConnection, hold d hd] using hout
    · intro hgone
      exact ((hdeleted d).1 hgone).elim halive hd

theorem orphaned_buried_iff :
    { s.setConnection c connection with deleted := s.deleted ++ [c] : State }.Orphaned d ↔
      s.Orphaned d ∧ d ≠ c := by
  constructor
  · rintro ⟨hknown, halive, habsent, hfree⟩
    simp only [List.mem_append, List.mem_singleton, not_or] at halive
    exact ⟨⟨hknown, halive.1, habsent, hfree⟩, halive.2⟩
  · rintro ⟨⟨hknown, halive, habsent, hfree⟩, hne⟩
    exact ⟨hknown, by simp [halive, hne], habsent, hfree⟩

theorem destroy_outbound (hs : Connected s) (hout : (s.connection c).fInboundConnection = false) :
    ∃ t, (t = s ∨ (c ∈ s.connectionHead ∧ t = s.ended c)) ∧ c ∉ t.connectionHead ∧
      destroy c s = { t.setConnection c ⟨.terminated, false, false, false⟩ with
        deleted := t.deleted ++ [c] } := by
  by_cases hc : c ∈ s.connectionHead
  · refine ⟨s.ended c, .inr ⟨hc, rfl⟩, hs.nodup.not_mem_erase, ?_⟩
    rw [destroy_eq (hs.state c hc) ((hs.receiving c).2 hc)]
    simp [State.ended, State.setConnection, hout]
  · refine ⟨s, .inl rfl, hc, ?_⟩
    have hidle : (s.connection c).receiving = false := by
      rw [← Bool.not_eq_true, hs.receiving c]
      exact hc
    have hnone : s.sockets.holder (.socket c) = none := by
      rcases hhold : s.sockets.holder (.socket c) with - | x
      · rfl
      · exact absurd (hs.socket c x hhold) hc
    by_cases hstate : (s.connection c).state = .terminated
    · simp [destroy, terminate, State.setConnection, hstate, hidle, hout]
    · simp [destroy, terminate, State.setConnection, State.closesocket, hstate, hidle, hout,
        release_of_none hnone]

end Connection

end MiscProjects.NfpConnections.Ownership
