import Mathlib.Algebra.Ring.Nat
import MiscProjects.Echo.PendingData
import MiscProjects.Echo.Blocking

/-!
# The echo servers over UDP

Over UDP a server has one socket for all clients.  A received datagram is queued with
the address of its sender and sent back there.  The functions are those of the
connections; a zero-byte datagram takes the branch of a graceful close.
-/

namespace MiscProjects.Echo.Datagrams

open MiscProjects.Runs

variable {α : Type*}

/-! ## The service of the event, the non-blocking and the asynchronous server -/

/-- The `SOCKET_OBJ` of the service with what remains to be done of the current handler,
whether the last `sendto` would have blocked, and the datagrams that have come in and gone
out so far. -/
structure ServiceObj (α : Type*) where
  pending : List (α × List UInt8)
  closing : Bool
  wouldBlock : Bool
  calls : List Call
  removed : Bool
  received : List (α × List UInt8)
  sent : List (α × List UInt8)
deriving DecidableEq

def ServiceObj.create : ServiceObj α where
  pending := []
  closing := false
  wouldBlock := false
  calls := []
  removed := false
  received := []
  sent := []

inductive RecvFromResult (α : Type*)
  | datagram (d : α × List UInt8)
  | wouldBlock
  | failed
deriving DecidableEq

inductive SendToResult
  | sent
  | wouldBlock
  | failed
deriving DecidableEq

/-- `recvfrom` with a buffer of `gBufferSize` bytes, when `d` is there.  A datagram that is
too long is an error. -/
def recvfrom (gBufferSize : ℕ) : Option (α × List UInt8) → RecvFromResult α
  | none => .wouldBlock
  | some d => if d.2.length ≤ gBufferSize then .datagram d else .failed

/-- `ReceivePendingData` over UDP. -/
def receivePendingData (server : Server) (rc : RecvFromResult α) (sock : ServiceObj α) :
    ServiceObj α × ℤ :=
  match rc with
  | .failed => (sock, -1)
  | .wouldBlock => (sock, if server = .nbserver then 0 else wsaeWouldBlock)
  | .datagram d =>
      let sock := { sock with pending := sock.pending ++ [d] }
      if d.2.length = 0 then
        ({ sock with closing := true },
          if sock.pending = [] then -1
          else if server = .asyncserver then wsaeWouldBlock else 0)
      else (sock, if server = .eventserver then 1 else 0)

/-- The handler goes on with `calls`, unless the last call has returned `-1`. -/
def ServiceObj.goOn (ret : ℤ) (calls : List Call) (sock : ServiceObj α) : ServiceObj α :=
  if ret = -1 then { sock with removed := true, calls := [] } else { sock with calls := calls }

/-- The end of `SendPendingData`. -/
def endSend (ret : ℤ) (calls : List Call) (sock : ServiceObj α) : ServiceObj α :=
  sock.goOn (if sock.pending = [] ∧ sock.closing = true then -1 else ret) calls

/-- The loop of `SendPendingData` over UDP, for the first buffer of the queue. -/
def sendOnce (server : Server) (rc : SendToResult) (d : α × List UInt8)
    (pending : List (α × List UInt8)) (calls : List Call) (sock : ServiceObj α) : ServiceObj α :=
  match rc with
  | .sent =>
      { sock with pending := pending, wouldBlock := false, sent := sock.sent ++ [d] }
  | .wouldBlock =>
      endSend (if server = .nbserver then 0 else wsaeWouldBlock) calls
        { sock with pending := d :: pending, wouldBlock := true }
  | .failed => endSend (-1) calls { sock with pending := pending }

inductive ServiceAction (α : Type*)
  | event (e : NetworkEvent)
  | recvfrom (d : Option (α × List UInt8))
  | sendto (rc : SendToResult)
  | endSend
deriving DecidableEq

/-- One step of the service.  A datagram socket is told only that it can be read or
written. -/
def serviceStep (server : Server) (gBufferSize : ℕ) (sock : ServiceObj α) :
    ServiceAction α → Option (ServiceObj α)
  | .event e =>
      if sock.removed = false ∧ sock.calls = [] ∧ (e = .fdRead ∨ e = .fdWrite) then
        some { sock with calls := handler server e }
      else none
  | .recvfrom d =>
      match sock.calls with
      | .receivePendingData :: calls =>
          let result := receivePendingData server (recvfrom gBufferSize d)
            { sock with received := sock.received ++ d.toList }
          some (result.1.goOn result.2 calls)
      | _ => none
  | .sendto rc =>
      match sock.calls, sock.pending with
      | .sendPendingData :: calls, d :: pending => some (sendOnce server rc d pending calls sock)
      | _, _ => none
  | .endSend =>
      match sock.calls, sock.pending with
      | .sendPendingData :: calls, [] => some (endSend 0 calls sock)
      | _, _ => none

/-- The datagram has at least one byte and goes into the buffer. -/
def Fits (gBufferSize : ℕ) (d : α × List UInt8) : Prop :=
  0 < d.2.length ∧ d.2.length ≤ gBufferSize

instance (gBufferSize : ℕ) (d : α × List UInt8) : Decidable (Fits gBufferSize d) :=
  inferInstanceAs (Decidable (0 < d.2.length ∧ d.2.length ≤ gBufferSize))

/-- Every datagram fits, and `sendto` does not fail but for `WSAEWOULDBLOCK`. -/
def Receives (gBufferSize : ℕ) (_ : ServiceObj α) : ServiceAction α → Prop
  | .recvfrom (some d) => Fits gBufferSize d
  | .sendto rc => rc ≠ .failed
  | _ => True

instance (gBufferSize : ℕ) (sock : ServiceObj α) (a : ServiceAction α) :
    Decidable (Receives gBufferSize sock a) :=
  match a with
  | .recvfrom (some d) => inferInstanceAs (Decidable (Fits gBufferSize d))
  | .recvfrom none => inferInstanceAs (Decidable True)
  | .sendto rc => inferInstanceAs (Decidable (rc ≠ .failed))
  | .event _ => inferInstanceAs (Decidable True)
  | .endSend => inferInstanceAs (Decidable True)

/-- The service stays up.  What has been received has been sent or is queued, in this order,
and between two handlers something is queued only when the last `sendto` would have
blocked. -/
structure StaysUp (sock : ServiceObj α) : Prop where
  notClosing : sock.closing = false
  notRemoved : sock.removed = false
  whole : sock.received = sock.sent ++ sock.pending
  calls : sock.calls = [.receivePendingData, .sendPendingData] ∨
    sock.calls = [.sendPendingData] ∨ sock.calls = []
  waits : sock.calls = [] → sock.pending = [] ∨ sock.wouldBlock = true

section StaysUp
variable {server : Server} {gBufferSize : ℕ} {sock sock' : ServiceObj α} {a : ServiceAction α}

theorem staysUp_create : StaysUp (.create : ServiceObj α) :=
  ⟨rfl, rfl, rfl, .inr (.inr rfl), fun _ => .inl rfl⟩

variable {calls : List Call} {ret : ℤ} {d : Option (α × List UInt8)}

theorem StaysUp.calls_of_cons (h : StaysUp sock) {call : Call}
    (hcalls : sock.calls = call :: calls) :
    (call = .receivePendingData ∧ calls = [.sendPendingData]) ∨
      (call = .sendPendingData ∧ calls = []) := by
  rcases h.calls with hboth | hsend | hnone
  · exact .inl (List.cons.inj (hcalls.symm.trans hboth))
  · exact .inr (List.cons.inj (hcalls.symm.trans hsend))
  · exact absurd (hcalls.symm.trans hnone) (List.cons_ne_nil _ _)

theorem StaysUp.goOn (hret : ret ≠ -1) (hclosing : sock.closing = false)
    (hremoved : sock.removed = false) (hwhole : sock.received = sock.sent ++ sock.pending)
    (hcalls : calls = [.sendPendingData] ∨
      calls = [] ∧ (sock.pending = [] ∨ sock.wouldBlock = true)) :
    StaysUp (sock.goOn ret calls) := by
  rw [ServiceObj.goOn, if_neg hret]
  refine ⟨hclosing, hremoved, hwhole, .inr ?_, ?_⟩
  · exact hcalls.imp_right And.left
  · rintro rfl
    exact (hcalls.resolve_left (List.cons_ne_nil _ _).symm).2

theorem receivePendingData_fits (server : Server)
    (hfits : ∀ x ∈ d, Fits gBufferSize x) (sock : ServiceObj α) : ∃ ret : ℤ, ret ≠ -1 ∧
      receivePendingData server (recvfrom gBufferSize d) sock =
        ({ sock with pending := sock.pending ++ d.toList }, ret) := by
  cases d with
  | none =>
      refine ⟨if server = .nbserver then 0 else wsaeWouldBlock, ?_, ?_⟩
      · cases server <;> decide
      · simp [receivePendingData, Datagrams.recvfrom]
  | some d =>
      obtain ⟨hpos, hle⟩ := hfits d rfl
      refine ⟨if server = .eventserver then 1 else 0, ?_, ?_⟩
      · cases server <;> decide
      · simp only [Datagrams.recvfrom, if_pos hle, receivePendingData, if_neg (Nat.ne_of_gt hpos),
          Option.toList_some]

theorem StaysUp.recvfrom (h : StaysUp sock) (hfits : ∀ x ∈ d, Fits gBufferSize x) :
    let result := receivePendingData server (recvfrom gBufferSize d)
      { sock with received := sock.received ++ d.toList }
    StaysUp (result.1.goOn result.2 [.sendPendingData]) := by
  obtain ⟨ret, hret, hresult⟩ := receivePendingData_fits server hfits
    { sock with received := sock.received ++ d.toList }
  rw [hresult]
  refine StaysUp.goOn hret h.notClosing h.notRemoved ?_ (.inl rfl)
  rw [h.whole, List.append_assoc]

theorem StaysUp.endSend (hret : ret ≠ -1) (hclosing : sock.closing = false)
    (hremoved : sock.removed = false) (hwhole : sock.received = sock.sent ++ sock.pending)
    (hwaits : sock.pending = [] ∨ sock.wouldBlock = true) :
    StaysUp (Datagrams.endSend ret [] sock) := by
  have hopen : ¬ (sock.pending = [] ∧ sock.closing = true) := by
    rw [hclosing]
    exact fun hboth => Bool.false_ne_true hboth.2
  rw [Datagrams.endSend, if_neg hopen]
  exact StaysUp.goOn hret hclosing hremoved hwhole (.inr ⟨rfl, hwaits⟩)

theorem StaysUp.step (h : StaysUp sock) (hreceives : Receives gBufferSize sock a)
    (hstep : serviceStep server gBufferSize sock a = some sock') : StaysUp sock' := by
  cases a with
  | event e =>
      simp only [serviceStep, Option.ite_none_right_eq_some, Option.some.injEq] at hstep
      obtain ⟨⟨-, -, he⟩, rfl⟩ := hstep
      rcases he with rfl | rfl
      · exact ⟨h.notClosing, h.notRemoved, h.whole, .inl rfl, by simp [handler]⟩
      · exact ⟨h.notClosing, h.notRemoved, h.whole, .inr (.inl rfl), by simp [handler]⟩
  | recvfrom d =>
      simp only [serviceStep] at hstep
      split at hstep
      case h_2 => cases hstep
      case h_1 calls hcalls =>
        obtain rfl := Option.some.inj hstep
        rcases h.calls_of_cons hcalls with ⟨-, rfl⟩ | ⟨hcall, -⟩
        · apply h.recvfrom
          rintro x rfl
          exact hreceives
        · cases hcall
  | sendto rc =>
      simp only [serviceStep] at hstep
      split at hstep
      case h_2 => cases hstep
      case h_1 calls d pending hcalls hpending =>
        obtain rfl := Option.some.inj hstep
        have hwhole := h.whole
        rw [hpending] at hwhole
        rcases h.calls_of_cons hcalls with ⟨hcall, -⟩ | ⟨-, rfl⟩
        · cases hcall
        cases rc with
        | failed => exact absurd rfl hreceives
        | sent =>
            refine ⟨h.notClosing, h.notRemoved, ?_, h.calls, fun hnone => ?_⟩
            · exact hwhole.trans (List.append_cons _ _ _)
            · exact absurd (hcalls.symm.trans hnone) (List.cons_ne_nil _ _)
        | wouldBlock =>
            refine StaysUp.endSend ?_ h.notClosing h.notRemoved hwhole (.inr rfl)
            cases server <;> decide
  | endSend =>
      simp only [serviceStep] at hstep
      split at hstep
      case h_2 => cases hstep
      case h_1 calls hcalls hpending =>
        obtain rfl := Option.some.inj hstep
        rcases h.calls_of_cons hcalls with ⟨hcall, -⟩ | ⟨-, rfl⟩
        · cases hcall
        · exact StaysUp.endSend (by decide) h.notClosing h.notRemoved h.whole (.inl hpending)

theorem StaysUp.drains (h : StaysUp sock) (hcalls : sock.calls = [.sendPendingData]) :
    ∃ sock', RunsTo (serviceStep server gBufferSize) (Receives gBufferSize) sock
        (List.replicate sock.pending.length (.sendto .sent) ++ [.endSend]) sock' ∧
      sock'.calls = [] ∧ sock'.received = sock.received ∧ sock'.sent = sock.received := by
  induction hpending : sock.pending generalizing sock with
  | nil =>
      have hwhole := h.whole
      rw [hpending, List.append_nil] at hwhole
      refine ⟨{ sock with calls := [] }, RunsTo.single trivial ?_, rfl, rfl, hwhole.symm⟩
      simp [serviceStep, hcalls, hpending, Datagrams.endSend, ServiceObj.goOn, h.notClosing]
  | cons d pending ih =>
      have hstep : serviceStep server gBufferSize sock (.sendto .sent) =
          some (sendOnce server .sent d pending [] sock) := by
        simp only [serviceStep, hcalls, hpending]
      have hsent : Receives gBufferSize sock (.sendto .sent) := SendToResult.noConfusion
      obtain ⟨sock', hrun, hdone, hreceived, hall⟩ := ih (h.step hsent hstep) hcalls rfl
      exact ⟨sock', (RunsTo.single hsent hstep).trans hrun, hdone, hreceived, hall⟩

end StaysUp

/-! ## The service of the blocking server -/

section Blocking
open Blocking

/-- Every datagram fits, `sendto` does not fail, and the semaphore is not released at its
maximum. -/
def Takes (gBufferSize : ℕ) (c : ConnectionObj α) : ThreadAction α → Prop
  | .receive => Orderly c .receive
  | .recv addr (some bytes) => Fits gBufferSize (addr, bytes)
  | .recv _ none => False
  | .sender => True
  | .send rc => rc ≠ none

instance [DecidableEq α] (gBufferSize : ℕ) (c : ConnectionObj α) (a : ThreadAction α) :
    Decidable (Takes gBufferSize c a) :=
  match a with
  | .receive => inferInstanceAs (Decidable (Orderly c .receive))
  | .recv addr (some bytes) => inferInstanceAs (Decidable (Fits gBufferSize (addr, bytes)))
  | .recv _ none => inferInstanceAs (Decidable False)
  | .sender => inferInstanceAs (Decidable True)
  | .send rc => inferInstanceAs (Decidable (rc ≠ none))

/-- The buffer that the receive thread has not queued yet. -/
def ReceiveThread.unqueued : ReceiveThread α → List (BufferObj α)
  | .enqueue obj => [obj]
  | _ => []

/-- The buffer that the send thread has taken and not sent yet. -/
def SendThread.unsent : SendThread α → List (BufferObj α)
  | .sendto obj => [obj]
  | _ => []

/-- A datagram as it lies in its buffer. -/
def bufferOf (d : α × List UInt8) : BufferObj α := ⟨d.1, some d.2⟩

/-- What the send thread may be doing while the service is up. -/
def SendThread.serves : SendThread α → Prop
  | .wait | .dequeue | .sendto _ => True
  | _ => False

/-- What the receive thread may be doing while the service is up. -/
def ReceiveThread.serves : ReceiveThread α → Prop
  | .exited => False
  | .release obj => obj.ends .udp = false
  | _ => True

/-- Every datagram received is sent, in the hands of a thread or in the queue, in this
order. -/
structure Serves (c : ConnectionObj α) : Prop where
  sema : c.pendingSend.length = c.hRecvSema + c.receiver.unreleased + c.sender.taken
  opened : c.closes = 0 ∧ c.frees = 0
  receiver : ReceiveThread.serves c.receiver
  sender : SendThread.serves c.sender
  whole : c.received.map bufferOf = c.sent.map bufferOf ++ SendThread.unsent c.sender ++
    c.pendingSend ++ ReceiveThread.unqueued c.receiver
  data : ∀ d ∈ c.received, d.2 ≠ []

variable {gBufferSize : ℕ} {c c' : ConnectionObj α} {a : ThreadAction α}

theorem serves_start : Serves (getConnectionObj : ConnectionObj α) :=
  ⟨rfl, ⟨rfl, rfl⟩, trivial, trivial, rfl, by simp [getConnectionObj]⟩

theorem Serves.exists_bufferOf (h : Serves c) (obj : BufferObj α)
    (hmem : obj ∈ SendThread.unsent c.sender ++ c.pendingSend ++
      ReceiveThread.unqueued c.receiver) : ∃ d ∈ c.received, bufferOf d = obj := by
  have hreceived : obj ∈ c.received.map bufferOf := by
    rw [h.whole, List.append_assoc, List.append_assoc]
    rw [List.append_assoc] at hmem
    exact List.mem_append_right _ hmem
  exact List.mem_map.mp hreceived

theorem ends_bufferOf {d : α × List UInt8} (hdata : d.2 ≠ []) : (bufferOf d).ends .udp = false := by
  obtain ⟨addr, _ | ⟨byte, bytes⟩⟩ := d
  · exact absurd rfl hdata
  · rfl

theorem Serves.receive (h : Serves c) (hroom : Orderly c .receive)
    (hstep : threadStep .udp gBufferSize c .receive = some c') : Serves c' := by
  have hsema := h.sema
  have hwhole := h.whole
  have hreceiver := h.receiver
  simp only [threadStep] at hstep
  split at hstep
  case h_1 hrecv =>
    obtain rfl := Option.some.inj hstep
    rw [hrecv] at hsema hwhole
    exact ⟨hsema, h.opened, trivial, h.sender, hwhole, h.data⟩
  case h_2 obj henqueue =>
    obtain rfl := Option.some.inj hstep
    obtain ⟨d, hmem, rfl⟩ := h.exists_bufferOf obj (by
      rw [henqueue]
      exact List.mem_append_right _ (List.mem_singleton_self _))
    rw [henqueue] at hsema hwhole
    refine ⟨?_, h.opened, ends_bufferOf (h.data d hmem), h.sender, ?_, h.data⟩
    · simp only [List.length_append, List.length_singleton, ReceiveThread.unreleased] at hsema ⊢
      omega
    · simpa [ReceiveThread.unqueued] using hwhole
  case h_3 obj hrelease =>
    obtain rfl := Option.some.inj hstep
    rw [hrelease] at hsema hwhole hreceiver
    rw [Orderly, hrelease] at hroom
    have hmore : obj.ends .udp = false := hreceiver
    simp only [hmore, Bool.false_eq_true, if_false, if_pos hroom]
    refine ⟨?_, h.opened, trivial, h.sender, hwhole, h.data⟩
    simp only [ReceiveThread.unreleased] at hsema ⊢
    omega
  case h_4 => cases hstep

theorem Serves.recv (h : Serves c) {addr : α} {bytes : List UInt8}
    (hfits : Fits gBufferSize (addr, bytes))
    (hstep : threadStep .udp gBufferSize c (.recv addr (some bytes)) = some c') : Serves c' := by
  obtain ⟨hpos, hle⟩ := hfits
  have hsema := h.sema
  have hwhole := h.whole
  simp only [threadStep] at hstep
  split at hstep
  case h_2 => cases hstep
  case h_1 hblocked =>
    rw [hblocked] at hsema hwhole
    simp only [Option.ite_none_right_eq_some, recvResult, if_pos hle, Option.map_some,
      Option.some.injEq] at hstep
    obtain ⟨-, rfl⟩ := hstep
    refine ⟨hsema, h.opened, trivial, h.sender, ?_, ?_⟩
    · rw [List.map_append, hwhole]
      simp [ReceiveThread.unqueued, bufferOf]
    · intro d hd
      rcases List.mem_append.mp hd with hd | hd
      · exact h.data d hd
      · obtain rfl := List.mem_singleton.mp hd
        exact List.ne_nil_of_length_pos hpos

theorem Serves.sender_step (h : Serves c)
    (hstep : threadStep .udp gBufferSize c .sender = some c') : Serves c' := by
  have hsema := h.sema
  have hwhole := h.whole
  have hsender := h.sender
  simp only [threadStep] at hstep
  split at hstep
  case h_1 hwait =>
    simp only [Option.ite_none_right_eq_some, Option.some.injEq] at hstep
    obtain ⟨hpos, rfl⟩ := hstep
    rw [hwait] at hsema hwhole
    refine ⟨?_, h.opened, h.receiver, trivial, hwhole, h.data⟩
    simp only [SendThread.taken] at hsema ⊢
    omega
  case h_2 hdequeue =>
    rw [hdequeue] at hsema hwhole
    split at hstep
    case h_1 => cases hstep
    case h_2 obj rest hhead =>
      obtain rfl := Option.some.inj hstep
      rw [hhead] at hsema hwhole
      refine ⟨?_, h.opened, h.receiver, trivial, ?_, h.data⟩
      · simp only [List.length_cons, SendThread.taken, afterDequeue] at hsema ⊢
        omega
      · simpa [SendThread.unsent, afterDequeue] using hwhole
  case h_3 hclose =>
    rw [hclose] at hsender
    exact hsender.elim
  case h_4 hfree =>
    rw [hfree] at hsender
    exact hsender.elim
  case h_5 => cases hstep

theorem Serves.send (h : Serves c) {rc : Option ℕ} (hsent : rc ≠ none)
    (hstep : threadStep .udp gBufferSize c (.send rc) = some c') : Serves c' := by
  have hsema := h.sema
  have hwhole := h.whole
  have hsender := h.sender
  simp only [threadStep] at hstep
  split at hstep
  case h_1 hsend =>
    rw [hsend] at hsender
    exact hsender.elim
  case h_2 obj hsendto =>
    obtain ⟨d, hmem, rfl⟩ := h.exists_bufferOf obj (by
      rw [hsendto]
      exact List.mem_append_left _ (List.mem_append_left _ (List.mem_singleton_self _)))
    obtain ⟨n, rfl⟩ := Option.ne_none_iff_exists'.mp hsent
    rw [hsendto] at hsema hwhole
    simp only [sendTo, bufferOf, if_neg (h.data d hmem), Option.some.injEq] at hstep
    obtain rfl := hstep
    refine ⟨hsema, h.opened, h.receiver, trivial, ?_, h.data⟩
    simpa [SendThread.unsent, bufferOf] using hwhole
  case h_3 => cases hstep

theorem Serves.step (h : Serves c) (htakes : Takes gBufferSize c a)
    (hstep : threadStep .udp gBufferSize c a = some c') : Serves c' := by
  cases a with
  | receive => exact h.receive htakes hstep
  | recv addr bytes =>
      cases bytes with
      | none => exact htakes.elim
      | some bytes => exact h.recv htakes hstep
  | sender => exact h.sender_step hstep
  | send rc => exact h.send htakes hstep

theorem bufferOf_injective : Function.Injective (bufferOf : α × List UInt8 → BufferObj α) := by
  rintro ⟨addr, bytes⟩ ⟨addr', bytes'⟩ h
  simp only [bufferOf, BufferObj.mk.injEq, Option.some.injEq] at h
  exact Prod.ext h.1 h.2

theorem Serves.exists_rest (h : Serves c) : ∃ rest, c.received = c.sent ++ rest ∧
      rest.map bufferOf = SendThread.unsent c.sender ++ c.pendingSend ++
        ReceiveThread.unqueued c.receiver := by
  have hwhole := h.whole
  rw [List.append_assoc, List.append_assoc] at hwhole
  obtain ⟨sent, rest, hreceived, hsent, hrest⟩ := List.map_eq_append_iff.mp hwhole
  obtain rfl : sent = c.sent := bufferOf_injective.list_map hsent
  exact ⟨rest, hreceived, by rw [hrest, List.append_assoc]⟩

/-- A step other than `recvfrom` can be taken. -/
def GoesOn (gBufferSize : ℕ) (c : ConnectionObj α) : Prop :=
  ∃ a, (∀ addr bytes, a ≠ .recv addr bytes) ∧ Takes gBufferSize c a ∧
    (threadStep .udp gBufferSize c a).isSome = true

theorem Serves.goesOn_of_sendto (h : Serves c) {obj : BufferObj α}
    (hsendto : c.sender = .sendto obj) : GoesOn gBufferSize c := by
  obtain ⟨d, hmem, rfl⟩ := h.exists_bufferOf obj (by
    rw [hsendto]
    exact List.mem_append_left _ (List.mem_append_left _ (List.mem_singleton_self _)))
  refine ⟨.send (some 0), by simp, by simp [Takes], ?_⟩
  simp only [threadStep, hsendto, sendTo, bufferOf, Option.isSome_some]

theorem Serves.goesOn_of_pending (h : Serves c) (hpending : c.pendingSend ≠ []) :
    GoesOn gBufferSize c := by
  have hsema := h.sema
  have hsender := h.sender
  have hlength := List.length_pos_iff.mpr hpending
  cases hs : c.sender with
  | sendto obj => exact h.goesOn_of_sendto hs
  | dequeue =>
      refine ⟨.sender, by simp, trivial, ?_⟩
      cases hqueue : c.pendingSend with
      | nil => exact absurd hqueue hpending
      | cons obj rest => simp only [threadStep, hs, hqueue, Option.isSome_some]
  | wait =>
      by_cases hcount : 0 < c.hRecvSema
      · refine ⟨.sender, by simp, trivial, ?_⟩
        simp only [threadStep, hs, if_pos hcount, Option.isSome_some]
      · rw [hs] at hsema
        simp only [SendThread.taken] at hsema
        cases hr : c.receiver with
        | release obj =>
            refine ⟨.receive, by simp, ?_, by simp only [threadStep, hr, Option.isSome_some]⟩
            rw [Takes, Orderly, hr]
            exact Nat.lt_of_le_of_lt (Nat.le_of_not_lt hcount) (by decide)
        | recv | blocked | enqueue _ | exited =>
            rw [hr] at hsema
            simp only [ReceiveThread.unreleased] at hsema
            omega
  | send _ _ _ | closesocket | free | exited =>
      rw [hs] at hsender
      exact hsender.elim

theorem Serves.goesOn (h : Serves c) : c.sent = c.received ∨ GoesOn gBufferSize c := by
  by_cases hpending : c.pendingSend = []
  · cases hs : c.sender with
    | sendto obj => exact .inr (h.goesOn_of_sendto hs)
    | wait | dequeue | send _ _ _ | closesocket | free | exited =>
        cases hr : c.receiver with
        | enqueue obj =>
            refine .inr ⟨.receive, by simp, ?_, ?_⟩
            · rw [Takes, Orderly, hr]
              trivial
            · simp only [threadStep, hr, Option.isSome_some]
        | recv | blocked | release _ | exited =>
            obtain ⟨rest, hreceived, hrest⟩ := h.exists_rest
            rw [hs, hr, hpending] at hrest
            obtain rfl := List.map_eq_nil_iff.mp hrest
            exact .inl (by rw [hreceived, List.append_nil])
  · exact .inr (h.goesOn_of_pending hpending)

end Blocking

/-- Over UDP the four servers stay up, and the datagrams go back in order, as long as every
datagram fits: what a handler leaves in the queue `sendto` would have blocked, and it goes out
when the socket can be written; the threads of the blocking server go on until all is sent. -/
theorem udp_service_stays_up {server : Server} {gBufferSize : ℕ} {as : List (ServiceAction α)}
    {sock : ServiceObj α} {bs : List (Blocking.ThreadAction α)} {c : Blocking.ConnectionObj α}
    (hrun : RunsTo (serviceStep server gBufferSize) (Receives gBufferSize) .create as sock)
    (hblocking : RunsTo (Blocking.threadStep .udp gBufferSize) (Takes gBufferSize)
      Blocking.getConnectionObj bs c) :
    (sock.closing = false ∧ sock.removed = false ∧ sock.received = sock.sent ++ sock.pending ∧
      (sock.calls = [] → sock.pending = [] ∨ sock.wouldBlock = true) ∧
      (sock.calls = [] → ∃ sock',
        RunsTo (serviceStep server gBufferSize) (Receives gBufferSize) sock
            (.event .fdWrite :: List.replicate sock.pending.length (.sendto .sent) ++ [.endSend])
            sock' ∧
          sock'.sent = sock.received)) ∧
    (c.closes = 0 ∧ c.frees = 0 ∧ c.sent <+: c.received ∧
      (c.sent = c.received ∨ GoesOn gBufferSize c)) := by
  have hup : StaysUp sock := hrun.invariant StaysUp staysUp_create fun _ _ _ => StaysUp.step
  have hserves : Serves c := hblocking.invariant Serves serves_start fun _ _ _ => Serves.step
  constructor
  · refine ⟨hup.notClosing, hup.notRemoved, hup.whole, hup.waits, fun hcalls => ?_⟩
    have hevent : serviceStep server gBufferSize sock (.event .fdWrite) =
        some { sock with calls := [.sendPendingData] } := by
      simp [serviceStep, hcalls, hup.notRemoved, handler]
    obtain ⟨sock', hdrains, -, -, hall⟩ :=
      @StaysUp.drains _ server gBufferSize _ (hup.step (a := .event .fdWrite) trivial hevent) rfl
    exact ⟨sock', (RunsTo.single trivial hevent).trans hdrains, hall⟩
  · obtain ⟨rest, hreceived, -⟩ := hserves.exists_rest
    exact ⟨hserves.opened.1, hserves.opened.2, ⟨rest, hreceived.symm⟩, hserves.goesOn⟩

/-- Two clients; the answer to the first one would block at first. -/
def twoClients : List (ServiceAction ℕ) :=
  [.event .fdRead, .recvfrom (some (1, [5])), .sendto .wouldBlock,
    .event .fdRead, .recvfrom (some (2, [6, 7])), .sendto .wouldBlock]

/-- One client of the blocking server; the send thread has still to be signalled. -/
def oneClient : List (Blocking.ThreadAction ℕ) :=
  [.receive, .recv 1 (some [5]), .receive]

theorem udp_service_stays_up_twoClients :
    (∃ sock sock', RunsTo (serviceStep .eventserver 2) (Receives 2) .create twoClients sock ∧
      RunsTo (serviceStep .eventserver 2) (Receives 2) sock
        [.event .fdWrite, .sendto .sent, .sendto .sent, .endSend] sock' ∧
      sock'.sent = [(1, [5]), (2, [6, 7])]) ∧
    ∃ c, RunsTo (Blocking.threadStep .udp 2) (Takes 2) Blocking.getConnectionObj oneClient c ∧
      (c.sent = c.received ∨ GoesOn 2 c) := by
  have hrun : RunsTo (serviceStep .eventserver 2) (Receives 2) .create twoClients _ :=
    RunsTo.of_isSome (by decide)
  have hblocking : RunsTo (Blocking.threadStep .udp 2) (Takes 2) Blocking.getConnectionObj
      oneClient _ := RunsTo.of_isSome (by decide)
  obtain ⟨⟨-, -, -, -, hdrains⟩, -, -, -, hgoes⟩ := udp_service_stays_up hrun hblocking
  obtain ⟨sock', hdrain, hsent⟩ := hdrains (by decide)
  exact ⟨⟨_, sock', hrun, hdrain, hsent⟩, _, hblocking, hgoes⟩

/-- One empty datagram ends the service of each of the servers. -/
theorem empty_datagram_ends_service :
    (∀ server, ∃ sock, RunsTo (serviceStep server 2) Always .create
        [.event .fdRead, .recvfrom (some (1, [])), .sendto .sent, .endSend] sock ∧
      sock.closing = true ∧ sock.removed = true) ∧
    ∃ c, RunsTo (Blocking.threadStep .udp 2) Always Blocking.getConnectionObj
        [.receive, .recv 1 (some []), .receive, .receive, .sender, .sender, .send (some 0),
          .sender] c ∧
      c.closes = 1 := by
  constructor
  · intro server
    cases server <;> exact ⟨_, RunsTo.of_isSome (by decide), by decide, by decide⟩
  · exact ⟨_, RunsTo.of_isSome (by decide), by decide⟩

end MiscProjects.Echo.Datagrams
