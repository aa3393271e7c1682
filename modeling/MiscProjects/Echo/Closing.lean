import MiscProjects.Echo.PendingData

/-!
# What is left in a socket that is closed

`FD_CLOSE` tells `asyncserver` that the peer sends nothing more; what it has sent may still
be in the socket.  The handler only marks the connection and posts an `FD_READ`; the
messages `FD_READ` and `FD_WRITE` follow in any order, each `FD_READ` with one `recv`, and
`SendPendingData` closes the socket where it finds the connection marked and its queue empty.
-/

namespace MiscProjects.Echo

open MiscProjects.Runs

/-- A connection with its socket: what has arrived, what of it has not been received, and
whether the peer has closed. -/
structure Connection where
  sock : SocketObj
  arrived : List UInt8
  unread : List UInt8
  closed : Bool
deriving DecidableEq

def Connection.create : Connection := ⟨.create, [], [], false⟩

/-- The answers of a socket on which nothing fails. -/
def Connection.admits (c : Connection) : EchoAction → Bool
  | .event .fdClose => c.closed
  | .event .error => false
  | .recv (.data bytes) => bytes <+: c.unread
  | .recv .zero => c.closed && c.unread.isEmpty
  | .recv .wouldBlock => !c.closed && c.unread.isEmpty
  | .recv .failed | .send .failed => false
  | _ => true

inductive ConnectionAction
  | arrive (bytes : List UInt8)
  | shutdown
  | server (a : EchoAction)
deriving DecidableEq

/-- What a `recv` takes out of the socket. -/
def EchoAction.bytes : EchoAction → List UInt8
  | .recv (.data bytes) => bytes
  | _ => []

/-- One step of a connection of `asyncserver` and of its peer. -/
def connectionStep (gBufferSize : ℕ) (c : Connection) : ConnectionAction → Option Connection
  | .arrive bytes =>
      if c.closed then none
      else some { c with arrived := c.arrived ++ bytes, unread := c.unread ++ bytes }
  | .shutdown => some { c with closed := true }
  | .server a =>
      if c.admits a then
        (echoStep .asyncserver gBufferSize c.sock a).map fun sock =>
          { c with sock := sock, unread := c.unread.drop a.bytes.length }
      else none

/-- Everything that has arrived is sent back before the socket is closed. -/
def Connection.Lossless (c : Connection) : Prop :=
  c.sock.removed = true → c.sock.accepted = c.arrived

instance (c : Connection) : Decidable c.Lossless :=
  inferInstanceAs (Decidable (_ → _))

/-- `SendPendingData` comes to the end of the queue of a marked connection only when nothing is
left in the socket, and a partial `send` leaves a rest that is spelled like the beginning. -/
def ReadsAll (c : Connection) : ConnectionAction → Prop
  | .server a =>
      SendsRest c.sock a ∧
        (a = .dequeue → c.sock.pending = [] → c.sock.closing = true → c.unread = [])
  | _ => True

instance (c : Connection) : ∀ a, Decidable (ReadsAll c a)
  | .server _ => inferInstanceAs (Decidable (_ ∧ _))
  | .arrive _ | .shutdown => isTrue trivial

section Steps
variable {gBufferSize : ℕ} {c c' : Connection} {sock sock' : SocketObj} {a : EchoAction}
  {calls : List Call} {ret : ℤ}

theorem received_goOn : (sock.goOn ret calls).received = sock.received := by
  unfold SocketObj.goOn
  split
  · rfl
  · rfl

theorem accepted_goOn : (sock.goOn ret calls).accepted = sock.accepted := by
  unfold SocketObj.goOn
  split
  · rfl
  · rfl

theorem closing_goOn : (sock.goOn ret calls).closing = sock.closing := by
  unfold SocketObj.goOn
  split
  · rfl
  · rfl

theorem removed_goOn (hlive : sock.removed = false) (h : (sock.goOn ret calls).removed = true) :
    ret = -1 := by
  unfold SocketObj.goOn at h
  split at h
  · assumption
  · exact absurd h (not_removed hlive)

theorem mem_calls_goOn {call : Call} (h : call ∈ (sock.goOn ret calls).calls) : call ∈ calls := by
  unfold SocketObj.goOn at h
  split at h
  · exact absurd h (List.not_mem_nil)
  · exact h

/-- What a step of `asyncserver` does to what has been received, to the mark, to the rest of the
handler and to the connection. -/
structure AsyncStep (a : EchoAction) (sock sock' : SocketObj) : Prop where
  live : sock.removed = false
  received : sock'.received = sock.received ++ a.bytes
  closing : sock'.closing = true →
    sock.closing = true ∨ a = .recv .zero ∨ .setClosing ∈ sock.calls
  calls : ∀ call ∈ sock'.calls,
    call ∈ sock.calls ∨ ∃ e, a = .event e ∧ call ∈ handler .asyncserver e
  removed : sock'.removed = true →
    a = .recv .failed ∨ a = .send .failed ∨ .removeSocketObj ∈ sock.calls ∨
      sock'.accepted = sock.accepted ∧ sock.sending = none ∧ sock.pending = [] ∧
        (a = .recv .zero ∨ a = .dequeue ∧ sock.closing = true)

theorem asyncStep_recv {rc : RecvResult} (hlive : sock.removed = false)
    (hidle : sock.sending = none) (hcalls : ∀ call ∈ calls, call ∈ sock.calls) :
    AsyncStep (.recv rc) sock ((receivePendingData .asyncserver rc sock).1.goOn
      (receivePendingData .asyncserver rc sock).2 calls) := by
  refine ⟨hlive, ?_, fun hclosing => ?_,
    fun call hcall => .inl (hcalls call (mem_calls_goOn hcall)), fun hremoved => ?_⟩
  · rw [received_goOn]
    cases rc with
    | data bytes => rfl
    | zero | wouldBlock | failed => exact (List.append_nil _).symm
  · rw [closing_goOn] at hclosing
    cases rc with
    | zero => exact .inr (.inl rfl)
    | data bytes | wouldBlock | failed => exact .inl hclosing
  · have hlive' : (receivePendingData .asyncserver rc sock).1.removed = false := by
      cases rc with
      | data bytes | zero | wouldBlock | failed => exact hlive
    have hret := removed_goOn hlive' hremoved
    cases rc with
    | failed => exact .inl rfl
    | data bytes => exact absurd hret (by decide : ¬ (0 : ℤ) = -1)
    | wouldBlock => exact absurd hret (by decide : ¬ wsaeWouldBlock = -1)
    | zero =>
        by_cases hpending : sock.pending = []
        · exact .inr (.inr (.inr ⟨accepted_goOn, hidle, hpending, .inl rfl⟩))
        · rw [receivePendingData, if_neg hpending] at hret
          exact absurd hret (by decide : ¬ wsaeWouldBlock = -1)

theorem asyncStep_dequeue (hlive : sock.removed = false) (hidle : sock.sending = none)
    (hcalls : sock.calls = .sendPendingData :: calls) :
    AsyncStep .dequeue sock (Echo.dequeue calls sock) := by
  unfold Echo.dequeue
  split
  case h_1 hpending =>
    refine ⟨hlive, ?_, fun hclosing => ?_, fun call hcall => ?_, fun hremoved => ?_⟩
    · exact received_goOn.trans (List.append_nil _).symm
    · exact .inl (closing_goOn.symm.trans hclosing)
    · rw [hcalls]
      exact .inl (List.mem_cons_of_mem _ (mem_calls_goOn hcall))
    · have hret := removed_goOn hlive hremoved
      split at hret
      case isTrue hend =>
        exact .inr (.inr (.inr ⟨accepted_goOn, hidle, hpending, .inr ⟨rfl, hend.2⟩⟩))
      case isFalse => exact absurd hret (by decide)
  case h_2 =>
    exact ⟨hlive, (List.append_nil _).symm, .inl, fun _ => .inl,
      fun hremoved => absurd hremoved (not_removed hlive)⟩

theorem asyncStep_send {b : Sending} {rc : SendResult} (hlive : sock.removed = false)
    (hcalls : sock.calls = .sendPendingData :: calls)
    (hstep : sendOnce rc b calls sock = some sock') : AsyncStep (.send rc) sock sock' := by
  cases rc with
  | failed =>
      obtain rfl := Option.some.inj hstep
      refine ⟨hlive, received_goOn.trans (List.append_nil _).symm,
        fun hclosing => .inl (closing_goOn.symm.trans hclosing), fun call hcall => ?_,
        fun _ => .inr (.inl rfl)⟩
      rw [hcalls]
      exact .inl (List.mem_cons_of_mem _ (mem_calls_goOn hcall))
  | wouldBlock =>
      obtain rfl := Option.some.inj hstep
      have hsame : (endSend wsaeWouldBlock calls
          (sock.enqueueBufferObj b.given true)).closing = sock.closing := closing_goOn
      refine ⟨hlive, received_goOn.trans (List.append_nil _).symm,
        fun hclosing => .inl (hsame.symm.trans hclosing), fun call hcall => ?_, fun hremoved => ?_⟩
      · rw [hcalls]
        exact .inl (List.mem_cons_of_mem _ (mem_calls_goOn hcall))
      · -- the rest of the buffer is in the queue again
        have hlive' : (sock.enqueueBufferObj b.given true).removed = false := hlive
        have hret := removed_goOn hlive' hremoved
        rw [if_neg (fun h => List.cons_ne_nil _ _ h.1)] at hret
        exact absurd hret (by decide)
  | accepted rc =>
      simp only [sendOnce, Option.ite_none_right_eq_some, Option.some.injEq] at hstep
      obtain ⟨-, rfl⟩ := hstep
      exact ⟨hlive, (List.append_nil _).symm, .inl, fun _ => .inl,
        fun hremoved => absurd hremoved (not_removed hlive)⟩

theorem asyncStep (h : Keeps sock)
    (hstep : echoStep .asyncserver gBufferSize sock a = some sock') : AsyncStep a sock sock' := by
  cases a
  all_goals simp only [echoStep, Option.ite_none_right_eq_some, Option.some.injEq] at hstep
  case event e =>
    obtain ⟨⟨hlive, -⟩, rfl⟩ := hstep
    exact ⟨hlive, (List.append_nil _).symm, .inl, fun _ hcall => .inr ⟨e, rfl, hcall⟩,
      fun hremoved => absurd hremoved (not_removed hlive)⟩
  case recv rc =>
    have hresult := hstep.2
    split at hresult
    case h_1 calls hcalls =>
      obtain rfl := Option.some.inj hresult
      refine asyncStep_recv (h.live hcalls) (h.idle hcalls Call.noConfusion) ?_
      intro call hcall
      rw [hcalls]
      exact List.mem_cons_of_mem _ hcall
    case h_2 calls hcalls =>
      obtain rfl := Option.some.inj hresult
      refine asyncStep_recv (h.live hcalls) (h.idle hcalls Call.noConfusion) ?_
      intro call hcall
      split at hcall
      · rw [hcalls]
        exact List.mem_cons_of_mem _ hcall
      · exact hcall
    case h_3 => cases hresult
  all_goals split at hstep <;> try cases hstep
  next calls hcalls hidle =>
    exact asyncStep_dequeue (h.live hcalls) hidle hcalls
  next calls b hcalls hb => exact asyncStep_send (h.live hcalls) hcalls hstep
  next calls hcalls =>
    have hmem : Call.setClosing ∈ sock.calls := by
      rw [hcalls]
      exact List.mem_cons_self
    refine ⟨h.live hcalls, (List.append_nil _).symm, fun _ => .inr (.inr hmem),
      fun call hcall => ?_, fun hremoved => absurd hremoved (not_removed (h.live hcalls))⟩
    rw [hcalls]
    exact .inl (List.mem_cons_of_mem _ hcall)
  next calls hcalls =>
    refine ⟨h.live hcalls, (List.append_nil _).symm, .inl,
      fun _ hcall => absurd hcall List.not_mem_nil, fun _ => .inr (.inr (.inl ?_))⟩
    rw [hcalls]
    exact List.mem_cons_self

/-! ## Runs -/

/-- The connection is marked only when the peer has closed; and what has arrived is what has
been received and what has not, until the socket is closed with all of it sent back. -/
structure Drains (c : Connection) : Prop where
  keeps : Keeps c.sock
  arrived : c.arrived = c.sock.received ++ c.unread
  marked : c.sock.closing = true ∨ .setClosing ∈ c.sock.calls ∨ c.sock.removed = true →
    c.closed = true
  calls : .removeSocketObj ∉ c.sock.calls
  lossless : c.Lossless

theorem drains_create : Drains .create where
  keeps := keeps_create
  arrived := rfl
  marked := by
    rintro (h | h | h)
    · cases h
    · cases h
    · cases h
  calls := List.not_mem_nil
  lossless := fun h => nomatch h

theorem Drains.arrive (h : Drains c) (hopen : c.closed = false) (bytes : List UInt8) :
    Drains { c with arrived := c.arrived ++ bytes, unread := c.unread ++ bytes } where
  keeps := h.keeps
  arrived := by
    dsimp only
    rw [h.arrived, List.append_assoc]
  marked := h.marked
  calls := h.calls
  lossless hremoved := by
    rw [h.marked (.inr (.inr hremoved))] at hopen
    cases hopen

theorem Connection.unread_eq (hadmits : c.admits a = true) :
    c.unread = a.bytes ++ c.unread.drop a.bytes.length := by
  unfold EchoAction.bytes
  split
  case h_1 bytes =>
    have hprefix : bytes <+: c.unread := of_decide_eq_true hadmits
    obtain ⟨rest, hrest⟩ := hprefix
    rw [← hrest, List.drop_left]
  case h_2 => rfl

theorem Connection.closed_of_zero (hadmits : c.admits (.recv .zero) = true) :
    c.closed = true ∧ c.unread = [] := by
  rw [admits, Bool.and_eq_true, List.isEmpty_iff] at hadmits
  exact hadmits

theorem Drains.server {sock' : SocketObj} (h : Drains c) (hadmits : c.admits a = true)
    (hreads : ReadsAll c (.server a))
    (hstep : echoStep .asyncserver gBufferSize c.sock a = some sock') :
    Drains { c with sock := sock', unread := c.unread.drop a.bytes.length } := by
  have hasync := asyncStep h.keeps hstep
  have hkeeps := h.keeps.step hreads.1 hstep
  refine ⟨hkeeps, ?_, ?_, ?_, ?_⟩
  · dsimp only
    rw [h.arrived, hasync.received, List.append_assoc, ← Connection.unread_eq hadmits]
  · rintro (hclosing | hmem | hremoved)
    · obtain hclosing | rfl | hmem := hasync.closing hclosing
      · exact h.marked (.inl hclosing)
      · exact (Connection.closed_of_zero hadmits).1
      · exact h.marked (.inr (.inl hmem))
    · obtain hmem | ⟨e, rfl, he⟩ := hasync.calls _ hmem
      · exact h.marked (.inr (.inl hmem))
      · cases e with
        | fdClose => exact hadmits
        | fdRead | fdWrite => simp [handler] at he
        | error => cases hadmits
    · obtain rfl | rfl | hmem | ⟨-, -, -, rfl | ⟨-, hclosing⟩⟩ := hasync.removed hremoved
      · cases hadmits
      · cases hadmits
      · exact absurd hmem h.calls
      · exact (Connection.closed_of_zero hadmits).1
      · exact h.marked (.inl hclosing)
  · intro hmem
    obtain hmem | ⟨e, rfl, he⟩ := hasync.calls _ hmem
    · exact h.calls hmem
    · cases e with
      | error => cases hadmits
      | fdRead | fdWrite | fdClose => simp [handler] at he
  · intro hremoved
    have hwhole := h.keeps.whole hasync.live
    obtain rfl | rfl | hmem | ⟨haccepted, hidle, hpending, hend⟩ := hasync.removed hremoved
    · cases hadmits
    · cases hadmits
    · exact absurd hmem h.calls
    · have hunread : c.unread = [] := by
        obtain rfl | ⟨rfl, hclosing⟩ := hend
        · exact (Connection.closed_of_zero hadmits).2
        · exact hreads.2 rfl hpending hclosing
      rw [unsent_of_none hidle, hpending, List.flatten_nil, List.append_nil,
        List.append_nil] at hwhole
      dsimp only
      rw [haccepted, h.arrived, hunread, List.append_nil, hwhole]

theorem Drains.step {a : ConnectionAction} (h : Drains c) (hreads : ReadsAll c a)
    (hstep : connectionStep gBufferSize c a = some c') : Drains c' := by
  cases a with
  | arrive bytes =>
      simp only [connectionStep] at hstep
      split at hstep
      case isTrue => cases hstep
      case isFalse hopen =>
        exact Option.some.inj hstep ▸ h.arrive (Bool.not_eq_true _ ▸ hopen) bytes
  | shutdown =>
      obtain rfl := Option.some.inj hstep
      exact ⟨h.keeps, h.arrived, fun _ => rfl, h.calls, h.lossless⟩
  | server a =>
      simp only [connectionStep] at hstep
      split at hstep
      case isTrue hadmits =>
        obtain ⟨sock', hsock, rfl⟩ := Option.map_eq_some_iff.mp hstep
        exact h.server hadmits hreads hsock
      case isFalse => cases hstep

end Steps

/-- The peer sends two bytes, gets them back and closes. -/
def readBeforeClose : List ConnectionAction :=
  [.arrive [97, 98], .server (.event .fdRead), .server (.recv (.data [97, 98])),
    .server .dequeue, .server (.send (.accepted 2)), .server .dequeue, .shutdown,
    .server (.event .fdClose), .server .setClosing, .server (.event .fdRead),
    .server (.recv .zero)]

end MiscProjects.Echo
