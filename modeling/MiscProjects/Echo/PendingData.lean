import Mathlib.Algebra.Ring.Nat
import MiscProjects.Library.Runs

/-!
# The pending data of a connection

The echo servers built on `WSAEventSelect`, on non-blocking sockets and on
`WSAAsyncSelect` receive into buffers, queue them on the connection and send
them back as far as the socket allows.  A step of a run is one call of `recv`
or `send`, or what the server does on its own between two of them.
-/

namespace MiscProjects.Echo

open MiscProjects.Runs

/-! ## One connection -/

/-- The three servers. -/
inductive Server
  | eventserver
  | nbserver
  | asyncserver
deriving DecidableEq

/-- What a server is told about a connection.  `error` is an error code with an event, or
membership in the exception set. -/
inductive NetworkEvent
  | fdRead
  | fdWrite
  | fdClose
  | error
deriving DecidableEq

/-- The parts of which the handlers of the events consist. -/
inductive Call
  | receivePendingData
  | receiveUntilZero
  | sendPendingData
  | setClosing
  | removeSocketObj
deriving DecidableEq

/-- The handler of an event.  A server that is told of several events at once goes
through their handlers in order; `nbserver` also sends on the connection that follows
one it has just removed, as if that were writable. -/
def handler : Server → NetworkEvent → List Call
  | _, .fdRead => [.receivePendingData, .sendPendingData]
  | _, .fdWrite => [.sendPendingData]
  | .eventserver, .fdClose => [.receiveUntilZero, .sendPendingData]
  | .nbserver, .fdClose => []
  | .asyncserver, .fdClose => [.setClosing]
  | _, .error => [.removeSocketObj]

/-- The local variables of `SendPendingData` between two calls of `send`. -/
structure Sending where
  buf : List UInt8
  nleft : ℕ
  idx : ℕ
deriving DecidableEq

/-- The bytes passed to the next `send`. -/
def Sending.given (b : Sending) : List UInt8 := (b.buf.drop b.idx).take b.nleft

/-- A `SOCKET_OBJ`, with what remains to be done of the current handler, and the bytes
that `recv` has returned and `send` has accepted so far. -/
structure SocketObj where
  pending : List (List UInt8)
  closing : Bool
  sending : Option Sending
  calls : List Call
  removed : Bool
  received : List UInt8
  accepted : List UInt8
deriving DecidableEq

def SocketObj.create : SocketObj where
  pending := []
  closing := false
  sending := none
  calls := []
  removed := false
  received := []
  accepted := []

inductive RecvResult
  | data (bytes : List UInt8)
  | zero
  | wouldBlock
  | failed
deriving DecidableEq

inductive SendResult
  | accepted (rc : ℕ)
  | wouldBlock
  | failed
deriving DecidableEq

def wsaeWouldBlock : ℤ := 10035

def SocketObj.enqueueBufferObj (obj : List UInt8) (atHead : Bool) (sock : SocketObj) : SocketObj :=
  { sock with pending := if atHead then obj :: sock.pending else sock.pending ++ [obj] }

/-- `ReceivePendingData`: the servers differ in the values they return. -/
def receivePendingData (server : Server) (rc : RecvResult) (sock : SocketObj) : SocketObj × ℤ :=
  match rc with
  | .failed => (sock, -1)
  | .wouldBlock => (sock, if server = .nbserver then 0 else wsaeWouldBlock)
  | .zero =>
      ({ sock with closing := true },
        if sock.pending = [] then -1
        else if server = .asyncserver then wsaeWouldBlock else 0)
  | .data bytes =>
      ({ sock.enqueueBufferObj bytes false with received := sock.received ++ bytes },
        if server = .eventserver then 1 else 0)

/-- `RemoveSocketObj` and `FreeSocketObj`. -/
def SocketObj.remove (sock : SocketObj) : SocketObj :=
  { sock with removed := true, calls := [], sending := none }

/-- The handler goes on with `calls`, unless the last call has returned `-1`. -/
def SocketObj.goOn (ret : ℤ) (calls : List Call) (sock : SocketObj) : SocketObj :=
  if ret = -1 then sock.remove else { sock with calls := calls, sending := none }

/-- The end of `SendPendingData`. -/
def endSend (ret : ℤ) (calls : List Call) (sock : SocketObj) : SocketObj :=
  sock.goOn (if sock.pending = [] ∧ sock.closing = true then -1 else ret) calls

/-- The loop of `SendPendingData` takes the next buffer. -/
def dequeue (calls : List Call) (sock : SocketObj) : SocketObj :=
  match sock.pending with
  | [] => endSend 0 calls sock
  | buf :: pending =>
      { sock with
        pending := pending
        sending := if buf.length = 0 then none else some ⟨buf, buf.length, 0⟩ }

/-- One `send` of the inner loop of `SendPendingData`.  After a partial one the source adds
`0` to `idx`. -/
def sendOnce (rc : SendResult) (b : Sending) (calls : List Call) (sock : SocketObj) :
    Option SocketObj :=
  match rc with
  | .failed => some (endSend (-1) calls sock)
  | .wouldBlock => some (endSend wsaeWouldBlock calls (sock.enqueueBufferObj b.given true))
  | .accepted rc =>
      if rc ≤ b.nleft then
        some { sock with
          accepted := sock.accepted ++ b.given.take rc
          sending := if b.nleft - rc = 0 then none else some ⟨b.buf, b.nleft - rc, b.idx + 0⟩ }
      else none

inductive EchoAction
  | event (e : NetworkEvent)
  | recv (rc : RecvResult)
  | dequeue
  | send (rc : SendResult)
  | setClosing
  | removeSocketObj
deriving DecidableEq

/-- The result of a `recv` into a buffer of `gBufferSize` bytes. -/
def RecvResult.Fits (gBufferSize : ℕ) : RecvResult → Prop
  | .data bytes => bytes ≠ [] ∧ bytes.length ≤ gBufferSize
  | _ => True

instance (gBufferSize : ℕ) (rc : RecvResult) : Decidable (rc.Fits gBufferSize) :=
  match rc with
  | .data bytes => inferInstanceAs (Decidable (bytes ≠ [] ∧ bytes.length ≤ gBufferSize))
  | .zero => inferInstanceAs (Decidable True)
  | .wouldBlock => inferInstanceAs (Decidable True)
  | .failed => inferInstanceAs (Decidable True)

/-- One step of a connection. -/
def echoStep (server : Server) (gBufferSize : ℕ) (sock : SocketObj) :
    EchoAction → Option SocketObj
  | .event e =>
      if sock.removed = false ∧ sock.calls = [] then
        some { sock with calls := handler server e }
      else none
  | .recv rc =>
      if rc.Fits gBufferSize then
        let result := receivePendingData server rc sock
        match sock.calls with
        | .receivePendingData :: calls => some (result.1.goOn result.2 calls)
        | .receiveUntilZero :: calls =>
            some (result.1.goOn result.2 (if result.2 = 0 then calls else sock.calls))
        | _ => none
      else none
  | .dequeue =>
      match sock.calls, sock.sending with
      | .sendPendingData :: calls, none => some (dequeue calls sock)
      | _, _ => none
  | .send rc =>
      match sock.calls, sock.sending with
      | .sendPendingData :: calls, some b => sendOnce rc b calls sock
      | _, _ => none
  | .setClosing =>
      match sock.calls with
      | .setClosing :: calls => some { sock with closing := true, calls := calls }
      | _ => none
  | .removeSocketObj =>
      match sock.calls with
      | .removeSocketObj :: _ => some sock.remove
      | _ => none

/-- What has been sent back is what came first. -/
def Echoes (sock : SocketObj) : Prop := sock.accepted <+: sock.received

instance (sock : SocketObj) : Decidable (Echoes sock) :=
  inferInstanceAs (Decidable (sock.accepted <+: sock.received))

/-- A `send` that takes only a part of what it was given leaves a rest that is spelled
like the beginning. -/
def SendsRest (sock : SocketObj) : EchoAction → Prop
  | .send (.accepted rc) =>
      ∀ b ∈ sock.sending, b.given.take (b.nleft - rc) = b.given.drop rc
  | _ => True

instance (sock : SocketObj) (a : EchoAction) : Decidable (SendsRest sock a) :=
  match a with
  | .send (.accepted rc) => inferInstanceAs
      (Decidable (∀ b ∈ sock.sending, b.given.take (b.nleft - rc) = b.given.drop rc))
  | .send .wouldBlock => inferInstanceAs (Decidable True)
  | .send .failed => inferInstanceAs (Decidable True)
  | .event _ => inferInstanceAs (Decidable True)
  | .recv _ => inferInstanceAs (Decidable True)
  | .dequeue => inferInstanceAs (Decidable True)
  | .setClosing => inferInstanceAs (Decidable True)
  | .removeSocketObj => inferInstanceAs (Decidable True)

/-! ## What is kept -/

/-- The bytes of the buffer that `SendPendingData` is working on. -/
def unsent (sock : SocketObj) : List UInt8 :=
  match sock.sending with
  | none => []
  | some b => b.given

/-- Every byte received is accepted, in the current buffer or in the queue, in this order,
until the connection is removed. -/
structure Keeps (sock : SocketObj) : Prop where
  echoes : Echoes sock
  sending : ∀ b ∈ sock.sending, b.idx = 0 ∧ b.nleft ≤ b.buf.length
  inLoop : sock.sending = none ∨ ∃ calls, sock.calls = .sendPendingData :: calls
  whole : sock.removed = false →
    sock.received = sock.accepted ++ unsent sock ++ sock.pending.flatten
  gone : sock.removed = true → sock.calls = []

section Keeps
variable {server : Server} {gBufferSize : ℕ} {sock sock' : SocketObj} {a : EchoAction}
  {calls : List Call}

theorem keeps_create : Keeps .create where
  echoes := List.prefix_refl _
  sending := by simp [SocketObj.create]
  inLoop := .inl rfl
  whole := fun _ => rfl
  gone := fun h => nomatch h

theorem Keeps.remove (h : Keeps sock) : Keeps sock.remove where
  echoes := h.echoes
  sending := by simp [SocketObj.remove]
  inLoop := .inl rfl
  whole := fun h => nomatch h
  gone := fun _ => rfl

theorem Keeps.goOn (h : Keeps sock) (hlive : sock.removed = false) (hunsent : unsent sock = [])
    (ret : ℤ) : Keeps (sock.goOn ret calls) := by
  unfold SocketObj.goOn
  split
  case isTrue => exact h.remove
  case isFalse =>
    refine ⟨h.echoes, by simp, .inl rfl, fun _ => ?_, fun hgone => ?_⟩
    · have hwhole := h.whole hlive
      rw [hunsent] at hwhole
      exact hwhole
    · rw [hlive] at hgone
      exact absurd hgone Bool.false_ne_true

theorem unsent_of_none (h : sock.sending = none) : unsent sock = [] := by
  rw [unsent, h]

theorem Keeps.receive (h : Keeps sock) (hlive : sock.removed = false)
    (hidle : sock.sending = none) (rc : RecvResult) : Keeps (receivePendingData server rc sock).1 ∧
      (receivePendingData server rc sock).1.removed = false ∧
      unsent (receivePendingData server rc sock).1 = [] := by
  have hunsent := unsent_of_none hidle
  cases rc with
  | failed => exact ⟨h, hlive, hunsent⟩
  | wouldBlock => exact ⟨h, hlive, hunsent⟩
  | zero => exact ⟨⟨h.echoes, h.sending, h.inLoop, h.whole, h.gone⟩, hlive, hunsent⟩
  | data bytes =>
      refine ⟨⟨?_, h.sending, h.inLoop, fun _ => ?_, h.gone⟩, hlive, hunsent⟩
      · exact h.echoes.trans (List.prefix_append _ _)
      · have hwhole := h.whole hlive
        change sock.received ++ bytes =
          sock.accepted ++ unsent sock ++ (sock.pending ++ [bytes]).flatten
        rw [hwhole, List.flatten_append, List.flatten_singleton]
        simp only [List.append_assoc]

theorem Keeps.dequeue (h : Keeps sock) (hlive : sock.removed = false)
    (hcalls : sock.calls = .sendPendingData :: calls) (hidle : sock.sending = none) :
    Keeps (Echo.dequeue calls sock) := by
  have hunsent := unsent_of_none hidle
  unfold Echo.dequeue
  split
  case h_1 hpending => exact h.goOn hlive hunsent _
  case h_2 buf pending hpending =>
    have hwhole := h.whole hlive
    rw [hunsent, List.append_nil, hpending, List.flatten_cons] at hwhole
    split
    case isTrue hempty =>
      refine ⟨h.echoes, by simp, .inl rfl, fun _ => ?_, h.gone⟩
      rw [List.length_eq_zero_iff.mp hempty, List.nil_append] at hwhole
      change sock.received = sock.accepted ++ [] ++ pending.flatten
      rw [List.append_nil, hwhole]
    case isFalse hsome =>
      refine ⟨h.echoes, ?_, .inr ⟨calls, hcalls⟩, fun _ => ?_, h.gone⟩
      · rintro b hb
        obtain rfl := Option.some.inj hb
        exact ⟨rfl, Nat.le_refl _⟩
      · change sock.received = sock.accepted ++ (buf.drop 0).take buf.length ++ pending.flatten
        rw [List.drop_zero, List.take_length, hwhole, List.append_assoc]

theorem not_removed (hlive : sock.removed = false) : ¬sock.removed = true := by
  rw [hlive]
  exact Bool.false_ne_true

theorem Keeps.send (h : Keeps sock) (hlive : sock.removed = false)
    (hcalls : sock.calls = .sendPendingData :: calls) {b : Sending}
    (hb : sock.sending = some b) {rc : SendResult} (hrest : SendsRest sock (.send rc))
    (hstep : sendOnce rc b calls sock = some sock') : Keeps sock' := by
  have hwhole := h.whole hlive
  obtain ⟨hidx, hnleft⟩ := h.sending b hb
  have hunsent : unsent sock = b.given := by rw [unsent, hb]
  rw [hunsent] at hwhole
  cases rc with
  | failed =>
      obtain rfl := Option.some.inj hstep
      unfold endSend SocketObj.goOn
      rw [if_pos (ite_self _)]
      exact h.remove
  | wouldBlock =>
      obtain rfl := Option.some.inj hstep
      unfold endSend SocketObj.goOn
      rw [if_neg]
      · refine ⟨h.echoes, by simp, .inl rfl, fun _ => ?_, fun hgone => ?_⟩
        · change sock.received = sock.accepted ++ [] ++ (b.given :: sock.pending).flatten
          rw [List.append_nil, List.flatten_cons, ← List.append_assoc]
          exact hwhole
        · exact absurd hgone (not_removed hlive)
      · simp [SocketObj.enqueueBufferObj, wsaeWouldBlock]
  | accepted rc =>
      have hrest' : b.given.take (b.nleft - rc) = b.given.drop rc := hrest b hb
      simp only [sendOnce, Option.ite_none_right_eq_some, Option.some.injEq] at hstep
      obtain ⟨hle, rfl⟩ := hstep
      have hfront : sock.accepted ++ b.given.take rc <+: sock.received := by
        rw [hwhole, List.append_assoc]
        exact (List.prefix_append_right_inj _).mpr
          ((List.take_prefix _ _).trans (List.prefix_append _ _))
      have hsplit : sock.received =
          sock.accepted ++ b.given.take rc ++ b.given.take (b.nleft - rc) ++
            sock.pending.flatten := by
        rw [hrest', List.append_assoc sock.accepted, List.take_append_drop]
        exact hwhole
      split
      case isTrue hdone =>
        refine ⟨hfront, by simp, .inl rfl, fun _ => ?_, h.gone⟩
        rw [hdone, List.take_zero] at hsplit
        exact hsplit
      case isFalse hmore =>
        refine ⟨hfront, ?_, .inr ⟨calls, hcalls⟩, fun _ => ?_, h.gone⟩
        · rintro b' hb'
          obtain rfl := Option.some.inj hb'
          exact ⟨hidx, Nat.le_trans (Nat.sub_le _ _) hnleft⟩
        · have hgiven : Sending.given ⟨b.buf, b.nleft - rc, b.idx + 0⟩ =
              b.given.take (b.nleft - rc) := by
            rw [Sending.given, Sending.given, List.take_take,
              Nat.min_eq_left (Nat.sub_le _ _), Nat.add_zero]
          change sock.received = sock.accepted ++ b.given.take rc ++
            Sending.given ⟨b.buf, b.nleft - rc, b.idx + 0⟩ ++ sock.pending.flatten
          rw [hgiven]
          exact hsplit

theorem Keeps.live (h : Keeps sock) {call : Call} (hcalls : sock.calls = call :: calls) :
    sock.removed = false := by
  cases hremoved : sock.removed with
  | false => rfl
  | true =>
      have hnil := h.gone hremoved
      rw [hcalls] at hnil
      exact absurd hnil (List.cons_ne_nil _ _)

theorem Keeps.idle (h : Keeps sock) {call : Call} (hcalls : sock.calls = call :: calls)
    (hcall : call ≠ .sendPendingData) : sock.sending = none := by
  rcases h.inLoop with hnone | ⟨calls', hcalls'⟩
  · exact hnone
  · rw [hcalls, List.cons.injEq] at hcalls'
    exact absurd hcalls'.1 hcall

/-- Every step keeps the bytes in order, as long as a partial `send` leaves a rest that is
spelled like the beginning. -/
theorem Keeps.step (h : Keeps sock) (hrest : SendsRest sock a)
    (hstep : echoStep server gBufferSize sock a = some sock') : Keeps sock' := by
  cases a
  all_goals simp only [echoStep, Option.ite_none_right_eq_some, Option.some.injEq] at hstep
  case event e =>
    obtain ⟨⟨hlive, hcalls⟩, rfl⟩ := hstep
    have hidle : sock.sending = none := by
      rcases h.inLoop with hnone | ⟨calls, hcalls'⟩
      · exact hnone
      · rw [hcalls] at hcalls'
        exact absurd hcalls'.symm (List.cons_ne_nil _ _)
    refine ⟨h.echoes, h.sending, .inl hidle, h.whole, fun hgone => ?_⟩
    exact absurd hgone (not_removed hlive)
  case recv rc =>
    have hresult := hstep.2
    split at hresult
    case h_1 calls hcalls =>
      obtain rfl := Option.some.inj hresult
      obtain ⟨hkeeps, hlive, hunsent⟩ := @Keeps.receive server _ h (h.live hcalls)
        (h.idle hcalls Call.noConfusion) rc
      exact hkeeps.goOn hlive hunsent _
    case h_2 calls hcalls =>
      obtain rfl := Option.some.inj hresult
      obtain ⟨hkeeps, hlive, hunsent⟩ := @Keeps.receive server _ h (h.live hcalls)
        (h.idle hcalls Call.noConfusion) rc
      exact hkeeps.goOn hlive hunsent _
    case h_3 => cases hresult
  all_goals split at hstep <;> try cases hstep
  next calls hcalls hidle => exact h.dequeue (h.live hcalls) hcalls hidle
  next calls b hcalls hb => exact h.send (h.live hcalls) hcalls hb hrest hstep
  next calls hcalls =>
    have hlive := h.live hcalls
    refine ⟨h.echoes, h.sending, .inl (h.idle hcalls Call.noConfusion), h.whole, fun hgone => ?_⟩
    exact absurd hgone (not_removed hlive)
  next => exact h.remove

end Keeps

/-! ## A partial `send` -/

section Partial
variable {server : Server} {gBufferSize : ℕ} {sock sock' : SocketObj} {a : EchoAction}

theorem Keeps.corrupts (h : Keeps sock) (hstep : echoStep server gBufferSize sock a = some sock')
    (hrest : ¬ SendsRest sock a) :
    ∃ rc sock'', echoStep server gBufferSize sock' (.send rc) = some sock'' ∧ ¬ Echoes sock'' := by
  cases a with
  | send rc =>
      cases rc with
      | accepted rc =>
          simp only [SendsRest, not_forall] at hrest
          obtain ⟨b, hb, hne⟩ := hrest
          simp only [echoStep] at hstep
          split at hstep
          case h_2 => cases hstep
          case h_1 calls b' hcalls hb' =>
            obtain rfl : b' = b := Option.some.inj (hb'.symm.trans hb)
            have hlive := h.live hcalls
            have hwhole := h.whole hlive
            obtain ⟨-, hnleft⟩ := h.sending b' hb'
            have hidx := (h.sending b' hb').1
            simp only [sendOnce, Option.ite_none_right_eq_some, Option.some.injEq] at hstep
            obtain ⟨hle, rfl⟩ := hstep
            have hlength : b'.given.length = b'.nleft := by
              rw [Sending.given, hidx, List.drop_zero, List.length_take, Nat.min_eq_left hnleft]
            have hmore : b'.nleft - rc ≠ 0 := by
              intro hzero
              apply hne
              have hall : b'.given.length ≤ rc := by omega
              rw [hzero, List.take_zero, List.drop_eq_nil_of_le hall]
            have hgiven : Sending.given ⟨b'.buf, b'.nleft - rc, b'.idx + 0⟩ =
                b'.given.take (b'.nleft - rc) := by
              rw [Sending.given, Sending.given, List.take_take,
                Nat.min_eq_left (Nat.sub_le _ _), Nat.add_zero]
            refine ⟨.accepted (b'.nleft - rc), { sock with
                accepted := sock.accepted ++ b'.given.take rc ++
                  (Sending.given ⟨b'.buf, b'.nleft - rc, b'.idx + 0⟩).take (b'.nleft - rc)
                sending := none }, ?_, ?_⟩
            · simp [echoStep, hcalls, hmore, sendOnce]
            · rintro ⟨tail, htail⟩
              apply hne
              have hunsent : unsent sock = b'.given := by rw [unsent, hb']
              rw [hunsent, List.append_assoc] at hwhole
              simp only [hgiven] at htail
              rw [hwhole, List.append_assoc, List.append_assoc, List.append_cancel_left_eq] at htail
              have hhead : b'.given.take rc ++ (b'.given.take (b'.nleft - rc)).take
                  (b'.nleft - rc) = b'.given := by
                refine List.append_inj_left (by rw [List.append_assoc]; exact htail) ?_
                simp only [List.length_append, List.length_take, hlength]
                omega
              have hsame := hhead.trans (List.take_append_drop rc b'.given).symm
              rw [List.append_cancel_left_eq, List.take_take, Nat.min_self] at hsame
              exact hsame
      | wouldBlock => exact absurd trivial hrest
      | failed => exact absurd trivial hrest
  | event e | recv rc | dequeue | setClosing | removeSocketObj => exact absurd trivial hrest

end Partial

/-- On each of the three servers, in every run in which every partial `send` leaves a rest
that is spelled like the beginning, the bytes accepted are a prefix of the bytes
received; and any other partial `send` after such a run is followed by one after which
they are not. -/
theorem accepted_prefix_of_received {server : Server} {gBufferSize : ℕ} {as : List EchoAction}
    {sock : SocketObj} (hrun : RunsTo (echoStep server gBufferSize) SendsRest .create as sock) :
    Echoes sock ∧
      ∀ a sock', echoStep server gBufferSize sock a = some sock' → ¬ SendsRest sock a →
        ∃ bs sock'', RunsTo (echoStep server gBufferSize) Always sock' bs sock'' ∧
          ¬ Echoes sock'' := by
  have hkeeps := hrun.invariant Keeps keeps_create fun _ _ _ h hrest hstep => h.step hrest hstep
  refine ⟨hkeeps.echoes, ?_⟩
  intro a sock' hstep hrest
  obtain ⟨rc, sock'', hsend, hbad⟩ := hkeeps.corrupts hstep hrest
  exact ⟨_, sock'', .single trivial hsend, hbad⟩

/-- A chunk is sent in full after the socket would have blocked. -/
theorem accepted_prefix_of_received_after_block :
    ∃ sock, RunsTo (echoStep .eventserver 4096) SendsRest .create
        [.event .fdRead, .recv (.data [97, 98]), .dequeue, .send .wouldBlock,
          .event .fdWrite, .dequeue, .send (.accepted 2)] sock ∧
      Echoes sock ∧
      ∀ a sock', echoStep .eventserver 4096 sock a = some sock' → ¬ SendsRest sock a →
        ∃ bs sock'', RunsTo (echoStep .eventserver 4096) Always sock' bs sock'' ∧
          ¬ Echoes sock'' :=
  have hrun := RunsTo.of_isSome (by decide)
  ⟨_, hrun, accepted_prefix_of_received hrun⟩

/-- Of the two bytes `ab` the first is accepted twice, on each of the servers. -/
theorem first_byte_sent_twice :
    (∃ sock, RunsTo (echoStep .eventserver 4096) Always .create
        [.event .fdRead, .recv (.data [97, 98]), .dequeue, .send (.accepted 1),
          .send (.accepted 1)] sock ∧
      sock.received = [97, 98] ∧ sock.accepted = [97, 97] ∧ ¬ Echoes sock) ∧
    (∃ sock, RunsTo (echoStep .nbserver 4096) Always .create
        [.event .fdRead, .recv (.data [97, 98]), .dequeue, .send (.accepted 1),
          .send (.accepted 1)] sock ∧
      sock.received = [97, 98] ∧ sock.accepted = [97, 97] ∧ ¬ Echoes sock) ∧
    ∃ sock, RunsTo (echoStep .asyncserver 4096) Always .create
        [.event .fdRead, .recv (.data [97, 98]), .dequeue, .send (.accepted 1),
          .send (.accepted 1)] sock ∧
      sock.received = [97, 98] ∧ sock.accepted = [97, 97] ∧ ¬ Echoes sock :=
  ⟨⟨_, RunsTo.of_isSome (by decide), by decide, by decide, by decide⟩,
    ⟨_, RunsTo.of_isSome (by decide), by decide, by decide, by decide⟩,
    ⟨_, RunsTo.of_isSome (by decide), by decide, by decide, by decide⟩⟩

end MiscProjects.Echo
