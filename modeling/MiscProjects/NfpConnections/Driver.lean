import MiscProjects.Library.Runs
import MiscProjects.Nfp.FileContext
import Mathlib.Logic.Function.Basic

/-!
# Connections, their threads and their locks

The threads of the driver that deal with `CConnection`: the accept callback and
`IOCTL_BEGIN_PROXIMITY` establish a connection, a callback of the thread pool
receives on it, `IOCTL_NFP_SET_PAYLOAD` walks all of them, and closing a handle
deletes the one that the handle has made.

A thread is the list of the instructions that it still has to do.  An
instruction is at most one access to what is shared, one call that may block,
or one question to the environment, which answers with the Boolean of the step.
Pointers are numbers that are given out once, and a deleted object keeps the
values of its fields.

The sections under a role lock do here what the connections depend on; what else
they do to a `CFileContext` is not repeated, nor are the contents of messages.
`OnCancel`, which `MarkCancelable` may call inside a role section, enters one
lock twice and does nothing else.
-/

namespace MiscProjects.NfpConnections

open Function (update)
open Nfp (Role)

abbrev ThreadId := ℕ
abbrev ConnectionPtr := ℕ
abbrev FilePtr := ℕ

/-! ## The objects -/

inductive ConnectionState
  | initial
  | established
  | terminated
deriving DecidableEq

/-- A `CConnection`.  `socket` and `threadpoolWork` tell whether the fields are
valid; `threadpoolThreadId` is `none` if it is the number of no thread. -/
structure CConnection where
  state : ConnectionState
  socket : Bool
  threadpoolWork : Bool
  threadpoolThreadId : Option ThreadId
  fInboundConnection : Bool
deriving DecidableEq

/-- The callback of the thread pool for one connection. -/
inductive Callback
  | none
  | pending
  | running (t : ThreadId)
  | done
deriving DecidableEq

/-- `WaitForThreadpoolWorkCallbacks` waits. -/
def Callback.outstanding : Callback → Bool
  | .pending | .running _ => true
  | .none | .done => false

/-- Whether the framework has a handle open. -/
inductive HandlePhase
  | absent
  | opening
  | usable
  | closed
deriving DecidableEq

/-- A `CFileContext`, as far as the connections depend on it. -/
structure FileContext where
  phase : HandlePhase
  role : Role
  fEnabled : Bool
  payloadSet : Bool
  connection : Option ConnectionPtr
deriving DecidableEq

inductive Lock
  | connection
  | pubs
  | subs
  | role (f : FilePtr)
deriving DecidableEq

/-- What the threads share.  The last part is a record of what has happened: the
changes of `m_ConnectionHead` to non-empty (`true`) and to empty, the events that
threads have decided to raise and not raised yet, those raised, what the enabled
subscriptions have seen, and the connections that `ConnectionTerminated` has taken
out of the list. -/
structure Driver where
  connection : ConnectionPtr → CConnection
  connections : ℕ
  callback : ConnectionPtr → Callback
  deleted : ConnectionPtr → Bool
  file : FilePtr → FileContext
  owner : Lock → Option ThreadId
  connectionHead : List ConnectionPtr
  pubsHead : List FilePtr
  subsHead : List FilePtr
  arrivalSubsHead : List FilePtr
  departureSubsHead : List FilePtr
  changes : List Bool
  undelivered : List (ThreadId × Bool)
  events : List Bool
  seen : List (FilePtr × Bool)
  removed : ConnectionPtr → Bool

namespace Driver
variable (d : Driver)

def setConnection (c : ConnectionPtr) (connection : CConnection) : Driver :=
  { d with connection := update d.connection c connection }

def setFile (f : FilePtr) (file : FileContext) : Driver :=
  { d with file := update d.file f file }

/-- The subscriptions to arrivals (`true`) or to departures. -/
def eventSubs (arrival : Bool) : List FilePtr :=
  if arrival then d.arrivalSubsHead else d.departureSubsHead

end Driver

/-! ## The instructions -/

inductive Instr
  | enter (l : Lock)
  | leave (l : Lock)
  -- `CConnection::ValidateAccept`, `InitializeAsClient` and `FinalizeEstablish`,
  -- which knows by `client` what to give up when it fails
  | validateAccept (c : ConnectionPtr)
  | initializeAsClient (c : ConnectionPtr) (f : FilePtr)
  | finalizeEstablish (c : ConnectionPtr) (client : Option FilePtr)
  | abandon (c : ConnectionPtr) (f : FilePtr)
  | submit (c : ConnectionPtr)
  -- `CMyQueue::ConnectionEstablished`
  | insertConnection (c : ConnectionPtr)
  | newMessage (c : ConnectionPtr)
  | walkPubs (c : ConnectionPtr)
  | publish (c : ConnectionPtr) (f : FilePtr)
  | walked (c : ConnectionPtr)
  -- `CConnection::TransmitMessage` and `Terminate`
  | transmit (c : ConnectionPtr) (f : FilePtr)
  | send (c : ConnectionPtr) (f : FilePtr)
  | terminate (c : ConnectionPtr)
  | testThread (c : ConnectionPtr)
  | wait (c : ConnectionPtr)
  | exchangeSocket (c : ConnectionPtr)
  -- `s_ReceiveThreadProc`, `ReceiveThreadProc` and `HandleReceivedMessage`
  | receiveThreadProc (c : ConnectionPtr)
  | newReceived (c : ConnectionPtr)
  | testSocket (c : ConnectionPtr)
  | recv (c : ConnectionPtr)
  | handleReceivedMessage
  | walkSubs
  | finish (c : ConnectionPtr) (fConnectionDeleted : Bool)
  -- `CMyQueue::ConnectionTerminated`
  | connectionTerminated (c : ConnectionPtr)
  | removeConnection (c : ConnectionPtr)
  | testInbound (c : ConnectionPtr) (fNoMoreConnections : Bool)
  | testNoMore (c : ConnectionPtr) (fNoMoreConnections fConnectionDeleted : Bool)
  -- the rest of `~CConnection` after `Terminate`
  | destroyWork (c : ConnectionPtr)
  | awaitWork (c : ConnectionPtr)
  | closeWork (c : ConnectionPtr)
  | free (c : ConnectionPtr)
  -- `AddArrivalEvent` (`true`) and `AddRemovalEvent`
  | addEvent (arrival : Bool)
  | handleEvent (f : FilePtr) (arrival : Bool)
  -- the I/O controls
  | storePayload (f : FilePtr)
  | newPayload (f : FilePtr)
  | walkConnections (f : FilePtr)
  | flink (c : ConnectionPtr)
  | joinPubs (f : FilePtr)
  | testRole (f : FilePtr)
  | createConnection (f : FilePtr)
  | setEnabled (f : FilePtr) (fEnabled : Bool)
  | complete (f : FilePtr)
  -- `OnCreateFile` and `OnCloseFile`
  | register (f : FilePtr)
  | opened (f : FilePtr)
  | unlink (f : FilePtr)
  | deleteContext (f : FilePtr)
deriving DecidableEq

open Instr

/-- `AddArrivalEvent` and `AddRemovalEvent`. -/
def raise (arrival : Bool) : List Instr :=
  [enter .subs, addEvent arrival, leave .subs]

/-- A round of the walk of `HandleReceivedMessage`: `HandleReceivedPublication`. -/
def visitSub (f : FilePtr) : List Instr :=
  [enter (.role f), leave (.role f)]

/-- A round of the walk of `AddArrivalEvent` and `AddRemovalEvent`:
`HandleArrivalEvent` and `HandleRemovalEvent`. -/
def visitEventSub (arrival : Bool) (f : FilePtr) : List Instr :=
  [enter (.role f), handleEvent f arrival, leave (.role f)]

/-- A round of the walk of `IOCTL_NFP_SET_PAYLOAD`. -/
def visitConnection (f : FilePtr) (c : ConnectionPtr) : List Instr :=
  [transmit c f, flink c]

namespace Driver
variable (d : Driver) (t : ThreadId) (ok : Bool)

/-- A thread cannot do the instruction now. -/
def blocks : Instr → Bool
  | enter l => (d.owner l).isSome
  | wait c | awaitWork c => (d.callback c).outstanding
  | _ => false

/-- `CFileContext::SetPayload` succeeds on a publication that has no payload yet, if the
request is in order. -/
def acceptsPayload (f : FilePtr) : Bool :=
  (d.file f).role = .publication && !(d.file f).payloadSet && ok

/-- What a thread changes by an instruction. -/
def effect : Instr → Driver
  | enter l => { d with owner := update d.owner l (some t) }
  | leave l => { d with owner := update d.owner l none }
  | initializeAsClient c _ => d.setConnection c { d.connection c with socket := ok }
  | finalizeEstablish c client =>
      if (d.connection c).state = .initial then
        -- an inbound connection takes the socket over
        d.setConnection c
          { d.connection c with
            state := .established
            threadpoolWork := ok
            socket := (d.connection c).socket || (ok && client.isNone) }
      else d
  | abandon c f =>
      (d.setConnection c { d.connection c with socket := false }).setFile f
        { d.file f with connection := none }
  | submit c => { d with callback := update d.callback c .pending }
  | insertConnection c =>
      { d with
        connectionHead := c :: d.connectionHead
        changes := if d.connectionHead = [] then d.changes ++ [true] else d.changes
        undelivered :=
          if d.connectionHead = [] then d.undelivered ++ [(t, true)] else d.undelivered }
  | terminate c => d.setConnection c { d.connection c with state := .terminated }
  | exchangeSocket c => d.setConnection c { d.connection c with socket := false }
  | receiveThreadProc c =>
      d.setConnection c { d.connection c with threadpoolThreadId := some t }
  | finish c fConnectionDeleted =>
      { d with
        connection :=
          if fConnectionDeleted then d.connection
          else update d.connection c { d.connection c with threadpoolThreadId := none }
        callback := update d.callback c .done }
  | removeConnection c =>
      { d with
        connectionHead := d.connectionHead.erase c
        changes :=
          if d.connectionHead ≠ [] ∧ d.connectionHead.erase c = [] then d.changes ++ [false]
          else d.changes
        undelivered :=
          if d.connectionHead.erase c = [] then d.undelivered ++ [(t, false)] else d.undelivered
        removed := update d.removed c true }
  | closeWork c => d.setConnection c { d.connection c with threadpoolWork := false }
  | free c => { d with deleted := update d.deleted c true }
  | addEvent arrival =>
      { d with
        undelivered := d.undelivered.erase (t, arrival)
        events := d.events ++ [arrival] }
  | handleEvent f arrival =>
      { d with seen := if (d.file f).fEnabled then d.seen ++ [(f, arrival)] else d.seen }
  | storePayload f =>
      d.setFile f
        { d.file f with payloadSet := (d.file f).payloadSet || d.acceptsPayload ok f }
  | joinPubs f => { d with pubsHead := f :: d.pubsHead }
  | testRole f =>
      d.setFile f
        { d.file f with
          role := if (d.file f).role = .undefined then .proximity else (d.file f).role }
  | createConnection f =>
      if ok then
        { d.setFile f { d.file f with connection := some d.connections } with
          connections := d.connections + 1 }
      else d
  | setEnabled f fEnabled =>
      if (d.file f).role = .undefined ∨ (d.file f).role = .proximity then d
      else d.setFile f { d.file f with fEnabled := fEnabled }
  | register f =>
      match (d.file f).role with
      | .subscription => { d with subsHead := f :: d.subsHead }
      | .arrivedSubscription => { d with arrivalSubsHead := f :: d.arrivalSubsHead }
      | .departedSubscription => { d with departureSubsHead := f :: d.departureSubsHead }
      | _ => d
  | opened f => d.setFile f { d.file f with phase := .usable }
  | unlink f =>
      match (d.file f).role with
      | .subscription => { d with subsHead := d.subsHead.erase f }
      | .arrivedSubscription => { d with arrivalSubsHead := d.arrivalSubsHead.erase f }
      | .departedSubscription => { d with departureSubsHead := d.departureSubsHead.erase f }
      | .publication => { d with pubsHead := d.pubsHead.erase f }
      | _ => d
  | deleteContext f => d.setFile f { d.file f with connection := none }
  | _ => d

/-- What a thread has to do because of an instruction, before it goes on. -/
def next : Instr → List Instr
  | validateAccept c => if ok then [finalizeEstablish c none] else []
  | initializeAsClient c f => if ok then [finalizeEstablish c (some f)] else [abandon c f]
  | finalizeEstablish c client =>
      if (d.connection c).state = .initial ∧ ok then [submit c]
      else (client.map (abandon c)).toList
  | submit c => [enter .connection, insertConnection c]
  | insertConnection c =>
      leave .connection ::
        ((if d.connectionHead = [] then raise true else []) ++ [newMessage c])
  | newMessage c => if ok then [enter .pubs, walkPubs c, leave .pubs] else []
  | walkPubs c => d.pubsHead.map (publish c) ++ [walked c]
  | publish c f => if (d.file f).fEnabled then [transmit c f] else []
  | transmit c f => if (d.connection c).socket then [send c f] else []
  | send c f =>
      -- `HandleMessageTransmitted`
      if ok ∧ (d.connection c).socket then [enter (.role f), leave (.role f)]
      else [terminate c]
  | terminate c => if (d.connection c).state = .terminated then [] else [testThread c]
  | testThread c =>
      if (d.connection c).threadpoolThreadId = some t then [exchangeSocket c]
      else [wait c, exchangeSocket c]
  | receiveThreadProc c => [newReceived c]
  | newReceived c => if ok then [testSocket c] else [terminate c, connectionTerminated c]
  | testSocket c => if (d.connection c).socket then [recv c] else [connectionTerminated c]
  | recv c =>
      if ok ∧ (d.connection c).socket then [handleReceivedMessage, testSocket c]
      else [terminate c, connectionTerminated c]
  | handleReceivedMessage => if ok then [enter .subs, walkSubs, leave .subs] else []
  | walkSubs => d.subsHead.flatMap visitSub
  | connectionTerminated c => [enter .connection, removeConnection c]
  | removeConnection c => [leave .connection, testInbound c (d.connectionHead.erase c = [])]
  | testInbound c fNoMoreConnections =>
      if (d.connection c).fInboundConnection then
        [terminate c, destroyWork c, testNoMore c fNoMoreConnections true]
      else [testNoMore c fNoMoreConnections false]
  | testNoMore c fNoMoreConnections fConnectionDeleted =>
      (if fNoMoreConnections then raise false else []) ++ [finish c fConnectionDeleted]
  | destroyWork c =>
      if (d.connection c).threadpoolWork then
        if (d.connection c).threadpoolThreadId = some t then [closeWork c] else [awaitWork c]
      else [free c]
  | awaitWork c => [closeWork c]
  | closeWork c => [free c]
  | addEvent arrival => (d.eventSubs arrival).flatMap (visitEventSub arrival)
  | storePayload f =>
      leave (.role f) :: if d.acceptsPayload ok f then [newPayload f] else []
  | newPayload f =>
      if ok then
        [enter .connection, walkConnections f, leave .connection, enter .pubs, joinPubs f,
          leave .pubs]
      else []
  | walkConnections f => d.connectionHead.flatMap (visitConnection f)
  | testRole f =>
      leave (.role f) :: if (d.file f).role = .undefined then [createConnection f] else []
  | createConnection f => if ok then [initializeAsClient d.connections f] else []
  | deleteContext f =>
      (match (d.file f).connection with
        | some c => [terminate c, destroyWork c]
        | none => []) ++ [enter (.role f), leave (.role f)]
  | _ => []

end Driver

/-! ## Steps -/

/-- The number of threads, and what a new object finds in the field
`_ThreadpoolThreadId`, which the constructor does not set. -/
structure Config where
  threads : ℕ
  found : ConnectionPtr → Option ThreadId

structure State where
  driver : Driver
  program : ThreadId → List Instr

def CConnection.fresh (found : Option ThreadId) : CConnection where
  state := .initial
  socket := false
  threadpoolWork := false
  threadpoolThreadId := found
  fInboundConnection := false

def FileContext.absent : FileContext where
  phase := .absent
  role := .undefined
  fEnabled := true
  payloadSet := false
  connection := none

def Driver.start (cfg : Config) : Driver where
  connection c := .fresh (cfg.found c)
  connections := 0
  callback _ := .none
  deleted _ := false
  file _ := .absent
  owner _ := none
  connectionHead := []
  pubsHead := []
  subsHead := []
  arrivalSubsHead := []
  departureSubsHead := []
  changes := []
  undelivered := []
  events := []
  seen := []
  removed _ := false

def State.start (cfg : Config) : State where
  driver := .start cfg
  program _ := []

/-- The requests of `OnDeviceIoControl`; all that do nothing but enter the role lock are
`getNext`. -/
inductive Control
  | disable
  | enable
  | setPayload
  | beginProximity
  | getNext
deriving DecidableEq

def Control.program (f : FilePtr) : Control → List Instr
  | .disable => [enter (.role f), setEnabled f false, leave (.role f)]
  | .enable => [enter (.role f), setEnabled f true, leave (.role f)]
  | .setPayload => [enter (.role f), storePayload f]
  | .beginProximity => [enter (.role f), testRole f]
  | .getNext => [enter (.role f), leave (.role f)]

/-- `OnCloseFile` up to the destructor of the context. -/
def unlinkProgram (f : FilePtr) : Role → List Instr
  | .subscription | .arrivedSubscription | .departedSubscription =>
      [enter .subs, unlink f, leave .subs]
  | .publication => [enter .pubs, unlink f, leave .pubs]
  | .undefined | .proximity => []

/-- What the environment does: a connection is accepted, a handle is opened, used and
closed by a thread that has nothing to do, the pool starts a callback, or a thread
goes on. -/
inductive Action
  | accept (t : ThreadId)
  | create (t : ThreadId) (f : FilePtr) (role : Role)
  | control (t : ThreadId) (f : FilePtr) (code : Control)
  | close (t : ThreadId) (f : FilePtr)
  | callback (t : ThreadId) (c : ConnectionPtr)
  | run (t : ThreadId) (ok : Bool)
deriving DecidableEq

namespace State
variable (s : State)

/-- The thread is given something to do. -/
def give (t : ThreadId) (d : Driver) (p : List Instr) : State where
  driver := d
  program := update s.program t p

/-- A request on the handle has not been completed. -/
def busy (cfg : Config) (f : FilePtr) : Bool :=
  (List.range cfg.threads).any fun t => (s.program t).contains (complete f)

end State

def step (cfg : Config) (s : State) : Action → Option State
  | .accept t =>
      if t < cfg.threads ∧ s.program t = [] then
        let c := s.driver.connections
        let d := s.driver.setConnection c
          { s.driver.connection c with fInboundConnection := true }
        some (s.give t { d with connections := c + 1 } [validateAccept c])
      else none
  | .create t f role =>
      if t < cfg.threads ∧ s.program t = [] ∧ (s.driver.file f).phase = .absent ∧
          role ≠ .proximity then
        some (s.give t (s.driver.setFile f { FileContext.absent with phase := .opening, role })
          [enter .subs, register f, leave .subs, opened f])
      else none
  | .control t f code =>
      if t < cfg.threads ∧ s.program t = [] ∧ (s.driver.file f).phase = .usable then
        some (s.give t s.driver (code.program f ++ [complete f]))
      else none
  | .close t f =>
      -- the framework closes a handle when all requests on it have been completed
      if t < cfg.threads ∧ s.program t = [] ∧ (s.driver.file f).phase = .usable ∧
          s.busy cfg f = false then
        some (s.give t (s.driver.setFile f { s.driver.file f with phase := .closed })
          (unlinkProgram f (s.driver.file f).role ++ [deleteContext f]))
      else none
  | .callback t c =>
      if t < cfg.threads ∧ s.program t = [] ∧ s.driver.callback c = .pending then
        some (s.give t
          { s.driver with callback := update s.driver.callback c (.running t) }
          [receiveThreadProc c])
      else none
  | .run t ok =>
      match s.program t with
      | [] => none
      | i :: p =>
          if s.driver.blocks i then none
          else some (s.give t (s.driver.effect t ok i) (s.driver.next t ok i ++ p))

/-- What a step does, with one case for each action. -/
inductive StepTo (cfg : Config) (s : State) : Action → State → Prop
  | accept (t : ThreadId) (ht : t < cfg.threads) (hidle : s.program t = []) :
      StepTo cfg s (.accept t)
        (s.give t
          { s.driver.setConnection s.driver.connections
              { s.driver.connection s.driver.connections with fInboundConnection := true } with
            connections := s.driver.connections + 1 }
          [validateAccept s.driver.connections])
  | create (t : ThreadId) (f : FilePtr) (role : Role) (ht : t < cfg.threads)
      (hidle : s.program t = []) (habsent : (s.driver.file f).phase = .absent)
      (hrole : role ≠ .proximity) :
      StepTo cfg s (.create t f role)
        (s.give t (s.driver.setFile f { FileContext.absent with phase := .opening, role })
          [enter .subs, register f, leave .subs, opened f])
  | control (t : ThreadId) (f : FilePtr) (code : Control) (ht : t < cfg.threads)
      (hidle : s.program t = []) (husable : (s.driver.file f).phase = .usable) :
      StepTo cfg s (.control t f code) (s.give t s.driver (code.program f ++ [complete f]))
  | close (t : ThreadId) (f : FilePtr) (ht : t < cfg.threads) (hidle : s.program t = [])
      (husable : (s.driver.file f).phase = .usable) (hbusy : s.busy cfg f = false) :
      StepTo cfg s (.close t f)
        (s.give t (s.driver.setFile f { s.driver.file f with phase := .closed })
          (unlinkProgram f (s.driver.file f).role ++ [deleteContext f]))
  | callback (t : ThreadId) (c : ConnectionPtr) (ht : t < cfg.threads) (hidle : s.program t = [])
      (hpending : s.driver.callback c = .pending) :
      StepTo cfg s (.callback t c)
        (s.give t
          { s.driver with callback := update s.driver.callback c (.running t) }
          [receiveThreadProc c])
  | run (t : ThreadId) (ok : Bool) (i : Instr) (p : List Instr) (hprogram : s.program t = i :: p)
      (hblocks : s.driver.blocks i = false) :
      StepTo cfg s (.run t ok) (s.give t (s.driver.effect t ok i) (s.driver.next t ok i ++ p))

theorem StepTo.of_step {cfg : Config} {s s' : State} {a : Action}
    (hstep : step cfg s a = some s') : StepTo cfg s a s' := by
  cases a
  all_goals simp only [step, Option.ite_none_right_eq_some, Option.some.injEq] at hstep
  case accept t =>
    obtain ⟨⟨ht, hidle⟩, rfl⟩ := hstep
    exact .accept t ht hidle
  case create t f role =>
    obtain ⟨⟨ht, hidle, habsent, hrole⟩, rfl⟩ := hstep
    exact .create t f role ht hidle habsent hrole
  case control t f code =>
    obtain ⟨⟨ht, hidle, husable⟩, rfl⟩ := hstep
    exact .control t f code ht hidle husable
  case close t f =>
    obtain ⟨⟨ht, hidle, husable, hbusy⟩, rfl⟩ := hstep
    exact .close t f ht hidle husable hbusy
  case callback t c =>
    obtain ⟨⟨ht, hidle, hpending⟩, rfl⟩ := hstep
    exact .callback t c ht hidle hpending
  case run t ok =>
    split at hstep
    · cases hstep
    · next i p hprogram =>
      obtain ⟨hblocks, hstep⟩ := Option.ite_none_left_eq_some.mp hstep
      obtain rfl := Option.some.inj hstep
      exact .run t ok i p hprogram (Bool.eq_false_iff.mpr hblocks)

end MiscProjects.NfpConnections
