import Mathlib.Algebra.Ring.Nat
import Mathlib.Data.List.Basic
import MiscProjects.Library.Runs

/-!
# The blocking server

A connection of the blocking server has two threads.  The one receives and queues
what it has received, the other waits on a semaphore, takes the buffers out of the
queue and sends them back; when it leaves its loop it frees the connection.  A step
is a call of `recv`, `send` or `sendto`, one critical section, or one operation on
the semaphore.
-/

namespace MiscProjects.Echo.Blocking

open MiscProjects.Runs

variable {α : Type*}

/-! ## The threads of a connection -/

inductive Protocol
  | tcp
  | udp
deriving DecidableEq

/-- A `BUFFER_OBJ` with what has been received into it; `none` stands for the `buflen`
`SOCKET_ERROR`. -/
structure BufferObj (α : Type*) where
  addr : α
  buf : Option (List UInt8)
deriving DecidableEq

/-- The receive thread ends when it has queued this buffer. -/
def BufferObj.ends (p : Protocol) (obj : BufferObj α) : Bool :=
  match p, obj.buf with
  | _, some [] => true
  | .tcp, none => true
  | _, _ => false

/-- What `ReceiveThread` does next; `blocked` is inside `recv`, which has got the socket. -/
inductive ReceiveThread (α : Type*)
  | recv
  | blocked
  | enqueue (buffObj : BufferObj α)
  | release (buffObj : BufferObj α)
  | exited
deriving DecidableEq

/-- What `SendThread` does next. -/
inductive SendThread (α : Type*)
  | wait
  | dequeue
  | send (buffObj : BufferObj α) (nleft idx : ℕ)
  | sendto (buffObj : BufferObj α)
  | closesocket
  | free
  | exited
deriving DecidableEq

/-- A `CONNECTION_OBJ` with its threads, how often its socket has been closed and itself
been freed, and what has been received and sent, with the addresses. -/
structure ConnectionObj (α : Type*) where
  pendingSend : List (BufferObj α)
  hRecvSema : ℕ
  receiver : ReceiveThread α
  sender : SendThread α
  closes : ℕ
  frees : ℕ
  received : List (α × List UInt8)
  sent : List (α × List UInt8)
deriving DecidableEq

/-- The maximum count of the semaphore; at the maximum `ReleaseSemaphore` fails. -/
def maximumCount : ℕ := 0x0FFFFFFF

/-- `GetConnectionObj`, and the threads have been created. -/
def getConnectionObj : ConnectionObj α where
  pendingSend := []
  hRecvSema := 0
  receiver := .recv
  sender := .wait
  closes := 0
  frees := 0
  received := []
  sent := []

/-- The result of `recv` or `recvfrom` into a buffer of `gBufferSize` bytes when `bytes` are
there, or an error.  A datagram that is too long is an error. -/
def recvResult (p : Protocol) (gBufferSize : ℕ) (bytes : Option (List UInt8)) :
    Option (Option (List UInt8)) :=
  match bytes with
  | none => some none
  | some bytes =>
      if bytes.length ≤ gBufferSize then some (some bytes)
      else if p = .udp then some none
      else none

/-- What the send thread does with a buffer from the queue. -/
def afterDequeue (p : Protocol) (obj : BufferObj α) : SendThread α :=
  match p, obj.buf with
  | .udp, _ => .sendto obj
  | .tcp, some (byte :: bytes) => .send obj (byte :: bytes).length 0
  | .tcp, _ => .closesocket

inductive ThreadAction (α : Type*)
  | receive
  | recv (addr : α) (bytes : Option (List UInt8))
  | sender
  | send (rc : Option ℕ)
deriving DecidableEq

/-- One `send` of the inner loop. -/
def sendOnce (c : ConnectionObj α) (obj : BufferObj α) (nleft idx : ℕ) :
    Option ℕ → Option (ConnectionObj α)
  | none => some { c with sender := .closesocket }
  | some rc =>
      if rc ≤ nleft then
        some { c with
          sent := c.sent ++ [(obj.addr, ((obj.buf.getD []).drop idx).take rc)]
          sender := if nleft - rc = 0 then .wait else .send obj (nleft - rc) (idx + rc) }
      else none

/-- The `sendto` of a datagram; with the length `SOCKET_ERROR` it fails. -/
def sendTo (c : ConnectionObj α) (obj : BufferObj α) (rc : Option ℕ) :
    Option (ConnectionObj α) :=
  match obj.buf, rc with
  | none, some _ => none
  | _, none => some { c with sender := .closesocket }
  | some bytes, some _ =>
      some { c with
        sent := c.sent ++ [(obj.addr, bytes)]
        sender := if bytes = [] then .closesocket else .wait }

def threadStep (p : Protocol) (gBufferSize : ℕ) (c : ConnectionObj α) :
    ThreadAction α → Option (ConnectionObj α)
  | .receive =>
      match c.receiver with
      | .recv => some { c with receiver := .blocked }
      | .enqueue obj =>
          some { c with pendingSend := c.pendingSend ++ [obj], receiver := .release obj }
      | .release obj =>
          some { c with
            hRecvSema := if c.hRecvSema < maximumCount then c.hRecvSema + 1 else c.hRecvSema
            receiver := if obj.ends p then .exited else .recv }
      | _ => none
  | .recv addr bytes =>
      match c.receiver with
      | .blocked =>
          if bytes = none ∨ c.closes = 0 then
            (recvResult p gBufferSize bytes).map fun rc =>
              { c with
                receiver := .enqueue ⟨addr, rc⟩
                received := c.received ++ (bytes.map (addr, ·)).toList }
          else none
      | _ => none
  | .sender =>
      match c.sender with
      | .wait =>
          if 0 < c.hRecvSema then
            some { c with hRecvSema := c.hRecvSema - 1, sender := .dequeue }
          else none
      | .dequeue =>
          match c.pendingSend with
          | [] => none
          | obj :: rest => some { c with pendingSend := rest, sender := afterDequeue p obj }
      | .closesocket => some { c with closes := c.closes + 1, sender := .free }
      | .free => some { c with frees := c.frees + 1, sender := .exited }
      | _ => none
  | .send rc =>
      match c.sender with
      | .send obj nleft idx => sendOnce c obj nleft idx rc
      | .sendto obj => sendTo c obj rc
      | _ => none

/-- The thread is going to read or write the connection, its queue or its critical
section. -/
def ReceiveThread.uses : ReceiveThread α → Bool
  | .blocked | .exited => false
  | _ => true

def SendThread.uses : SendThread α → Bool
  | .exited => false
  | _ => true

/-! ## A connection -/

/-- The bytes of a buffer. -/
def BufferObj.bytes (obj : BufferObj α) : List UInt8 := obj.buf.getD []

/-- The bytes that the receive thread has not queued yet. -/
def ReceiveThread.hand : ReceiveThread α → List UInt8
  | .enqueue obj => obj.bytes
  | _ => []

/-- The bytes that the send thread has still to send of its buffer. -/
def SendThread.rest : SendThread α → List UInt8
  | .send obj nleft idx => (obj.bytes.drop idx).take nleft
  | _ => []

/-- The buffer in the queue for which the semaphore has not been released. -/
def ReceiveThread.unreleased : ReceiveThread α → ℕ
  | .release _ => 1
  | _ => 0

/-- The buffer in the queue that the send thread is going to take. -/
def SendThread.taken : SendThread α → ℕ
  | .dequeue => 1
  | _ => 0

/-- The send thread has left its loop. -/
def SendThread.done : SendThread α → Bool
  | .closesocket | .free | .exited => true
  | _ => false

/-- The send thread has freed the connection. -/
def SendThread.freed : SendThread α → ℕ
  | .exited => 1
  | _ => 0

/-- An error is queued, behind everything else. -/
def ConnectionObj.Aborted (c : ConnectionObj α) : Prop := ∃ obj ∈ c.pendingSend, obj.buf = none

instance (c : ConnectionObj α) : Decidable c.Aborted :=
  inferInstanceAs (Decidable (∃ obj ∈ c.pendingSend, obj.buf = none))

/-- The queue, for what the receive thread does next.  Only the last buffer ends the threads,
and the send thread does not have it before the receive thread is done with the
connection. -/
def ConnectionObj.Queue (c : ConnectionObj α) : ReceiveThread α → Prop
  | .release obj =>
      c.sender.done = false ∧
        ∃ init, c.pendingSend = init ++ [obj] ∧ ∀ o ∈ init, o.ends .tcp = false
  | .exited =>
      if c.sender.done then c.pendingSend = [] ∨ c.Aborted
      else ∃ init last, c.pendingSend = init ++ [last] ∧ last.ends .tcp = true ∧
        ∀ o ∈ init, o.ends .tcp = false
  | _ => c.sender.done = false ∧ ∀ o ∈ c.pendingSend, o.ends .tcp = false

/-- Nothing has been received that says that the peer is done. -/
def ConnectionObj.Streams (c : ConnectionObj α) : Prop := ∀ d ∈ c.received, d.2 ≠ []

/-- Where the end of the stream has been received. -/
def ConnectionObj.Ended (c : ConnectionObj α) : ReceiveThread α → Prop
  | .enqueue obj | .release obj => obj.buf ≠ some [] → c.Streams
  | .exited => c.Aborted → c.Streams
  | _ => c.Streams

structure Shared (c : ConnectionObj α) : Prop where
  sema : c.pendingSend.length = c.hRecvSema + c.receiver.unreleased + c.sender.taken
  queue : c.Queue c.receiver
  ended : c.Ended c.receiver
  frees : c.frees = c.sender.freed
  sending : ∀ obj nleft idx, c.sender = .send obj nleft idx → idx + nleft = obj.bytes.length
  stream : ∀ obj, c.sender ≠ .sendto obj
  whole : (c.sender.done = true ∧ c.Aborted) ∨
    c.received.flatMap (·.2) = c.sent.flatMap (·.2) ++ c.sender.rest ++
      c.pendingSend.flatMap (·.bytes) ++ c.receiver.hand

/-- The semaphore is not released at its maximum, and a `send` fails only when the receive
thread has exited after an error. -/
def Orderly (c : ConnectionObj α) : ThreadAction α → Prop
  | .receive =>
      match c.receiver with
      | .release _ => c.hRecvSema < maximumCount
      | _ => True
  | .send none => c.receiver = .exited ∧ c.Aborted
  | _ => True

instance [DecidableEq α] (c : ConnectionObj α) (a : ThreadAction α) :
    Decidable (Orderly c a) :=
  match a with
  | .receive =>
      match h : c.receiver with
      | .release _ => decidable_of_iff (c.hRecvSema < maximumCount) (by simp [Orderly, h])
      | .recv => isTrue (by simp [Orderly, h])
      | .blocked => isTrue (by simp [Orderly, h])
      | .enqueue _ => isTrue (by simp [Orderly, h])
      | .exited => isTrue (by simp [Orderly, h])
  | .send none => inferInstanceAs (Decidable (c.receiver = .exited ∧ c.Aborted))
  | .send (some _) => inferInstanceAs (Decidable True)
  | .recv _ _ => inferInstanceAs (Decidable True)
  | .sender => inferInstanceAs (Decidable True)

section Connection
variable {c c' : ConnectionObj α} {obj : BufferObj α} {gBufferSize : ℕ}

theorem BufferObj.not_ends_iff :
    obj.ends .tcp = false ↔ ∃ byte bytes, obj.buf = some (byte :: bytes) := by
  obtain ⟨addr, _ | _ | ⟨byte, bytes⟩⟩ := obj <;> simp [BufferObj.ends]

variable {init rest : List (BufferObj α)}

theorem buf_of_aborted (hinit : ∀ o ∈ init, o.ends .tcp = false)
    (h : ∃ o ∈ init ++ [obj], o.buf = none) : obj.buf = none := by
  obtain ⟨o, hmem, hnone⟩ := h
  rcases List.mem_append.mp hmem with hmem | hmem
  · obtain ⟨byte, bytes, hsome⟩ := BufferObj.not_ends_iff.mp (hinit o hmem)
    rw [hnone] at hsome
    cases hsome
  · rwa [← List.mem_singleton.mp hmem]

theorem shared_start : Shared (getConnectionObj : ConnectionObj α) where
  sema := rfl
  queue := ⟨rfl, by simp [getConnectionObj]⟩
  ended := by simp [ConnectionObj.Ended, ConnectionObj.Streams, getConnectionObj]
  frees := rfl
  sending := by simp [getConnectionObj]
  stream := by simp [getConnectionObj]
  whole := .inr rfl

theorem Shared.whole_of_not_done (h : Shared c) (hdone : c.sender.done = false) :
    c.received.flatMap (·.2) = c.sent.flatMap (·.2) ++ c.sender.rest ++
      c.pendingSend.flatMap (·.bytes) ++ c.receiver.hand := by
  refine h.whole.resolve_left fun hlost => ?_
  rw [hdone] at hlost
  exact Bool.false_ne_true hlost.1

theorem Shared.queue_of_done (h : Shared c) (hreceiver : c'.receiver = c.receiver)
    (hqueue : c'.pendingSend = c.pendingSend) (hdone : c'.sender.done = c.sender.done) :
    c'.Queue c'.receiver := by
  have hold := h.queue
  rw [hreceiver]
  cases hr : c.receiver <;> rw [hr] at hold <;>
    simpa only [ConnectionObj.Queue, ConnectionObj.Aborted, hqueue, hdone] using hold

theorem Shared.receive (h : Shared c) (hroom : Orderly c .receive)
    (hstep : threadStep .tcp gBufferSize c .receive = some c') : Shared c' := by
  simp only [threadStep] at hstep
  have hqueue := h.queue
  have hended := h.ended
  split at hstep
  case h_1 hrecv =>
    obtain rfl := Option.some.inj hstep
    rw [hrecv] at hqueue hended
    refine ⟨?_, hqueue, hended, h.frees, h.sending, h.stream, ?_⟩
    · have hsema := h.sema
      rwa [hrecv] at hsema
    · have hwhole := h.whole
      rwa [hrecv] at hwhole
  case h_2 obj henqueue =>
    obtain rfl := Option.some.inj hstep
    rw [henqueue] at hqueue hended
    obtain ⟨hdone, hinit⟩ := hqueue
    refine ⟨?_, ⟨hdone, c.pendingSend, rfl, hinit⟩, hended, h.frees, h.sending, h.stream, .inr ?_⟩
    · have hsema := h.sema
      rw [henqueue] at hsema
      simp only [List.length_append, List.length_singleton, ReceiveThread.unreleased] at hsema ⊢
      omega
    · have hwhole := h.whole_of_not_done hdone
      rw [henqueue] at hwhole
      simp only [hwhole, ReceiveThread.hand, List.flatMap_append, List.append_nil,
        List.append_assoc, List.flatMap_cons, List.flatMap_nil]
  case h_3 obj hrelease =>
    obtain rfl := Option.some.inj hstep
    rw [hrelease] at hqueue hended
    rw [Orderly, hrelease] at hroom
    obtain ⟨hdone, init, hsplit, hinit⟩ := hqueue
    have hwhole := h.whole_of_not_done hdone
    rw [hrelease] at hwhole
    have hsema := h.sema
    rw [hrelease] at hsema
    simp only [ReceiveThread.unreleased] at hsema
    cases hends : obj.ends .tcp with
    | true =>
        refine ⟨?_, ?_, ?_, h.frees, h.sending, h.stream, .inr hwhole⟩
        · simp only [if_true, if_pos hroom, ReceiveThread.unreleased]
          omega
        · simp only [if_true, ConnectionObj.Queue, hdone]
          exact ⟨init, obj, hsplit, hends, hinit⟩
        · simp only [if_true, ConnectionObj.Ended, ConnectionObj.Aborted]
          rw [hsplit]
          intro haborted
          refine hended ?_
          rw [buf_of_aborted hinit haborted]
          simp
    | false =>
        obtain ⟨byte, bytes, hbuf⟩ := BufferObj.not_ends_iff.mp hends
        refine ⟨?_, ⟨hdone, ?_⟩, hended ?_, h.frees, h.sending, h.stream, .inr hwhole⟩
        · simp only [Bool.false_eq_true, if_false, if_pos hroom, ReceiveThread.unreleased]
          omega
        · rw [hsplit]
          intro o hmem
          rcases List.mem_append.mp hmem with hmem | hmem
          · exact hinit o hmem
          · rwa [List.mem_singleton.mp hmem]
        · rw [hbuf]
          simp
  case h_4 => cases hstep

theorem Shared.recv {addr : α} {bytes : Option (List UInt8)} (h : Shared c)
    (hstep : threadStep .tcp gBufferSize c (.recv addr bytes) = some c') : Shared c' := by
  simp only [threadStep] at hstep
  split at hstep
  case h_2 => cases hstep
  case h_1 hblocked =>
    have hqueue := h.queue
    have hended := h.ended
    have hsema := h.sema
    rw [hblocked] at hqueue hended hsema
    have hwhole := h.whole_of_not_done hqueue.1
    rw [hblocked] at hwhole
    simp only [Option.ite_none_right_eq_some, Option.map_eq_some_iff] at hstep
    obtain ⟨-, rc, hrc, rfl⟩ := hstep
    have hsame : rc = bytes := by
      cases bytes with
      | none => exact (Option.some.inj hrc).symm
      | some bytes =>
          simp only [recvResult] at hrc
          split at hrc
          · exact (Option.some.inj hrc).symm
          · simp at hrc
    subst hsame
    refine ⟨hsema, hqueue, fun hmore => ?_, h.frees, h.sending, h.stream, .inr ?_⟩
    · intro d hd
      rcases List.mem_append.mp hd with hd | hd
      · exact hended d hd
      · simp only [Option.mem_toList, Option.map_eq_some_iff] at hd
        obtain ⟨bytes, rfl, rfl⟩ := hd
        rintro rfl
        exact hmore rfl
    · simp only [List.flatMap_append, hwhole, ReceiveThread.hand, List.append_nil]
      cases rc <;> simp [BufferObj.bytes]

theorem exists_init {last : BufferObj α} (hsplit : obj :: rest = init ++ [last])
    (hrest : rest ≠ []) : ∃ init', init = obj :: init' ∧ rest = init' ++ [last] := by
  cases init with
  | nil =>
      obtain ⟨-, rfl⟩ := List.cons.inj hsplit
      exact absurd rfl hrest
  | cons o init' =>
      obtain ⟨rfl, hrest'⟩ := List.cons.inj hsplit
      exact ⟨init', rfl, hrest'⟩

theorem Shared.of_ends (h : Shared c) (hsender : c.sender = .dequeue)
    (hhead : c.pendingSend = obj :: rest) (hends : obj.ends .tcp = true) :
    c.receiver = .exited ∧ rest = [] := by
  have hsema := h.sema
  have hqueue := h.queue
  rw [hsender, hhead] at hsema
  simp only [List.length_cons, SendThread.taken] at hsema
  have hnone : ∀ l : List (BufferObj α), (∀ o ∈ l, o.ends .tcp = false) → obj ∉ l := by
    intro l hl hmem
    rw [hl obj hmem] at hends
    exact Bool.false_ne_true hends
  cases hreceiver : c.receiver with
  | release last =>
      rw [hreceiver] at hqueue hsema
      obtain ⟨-, init, hsplit, hinit⟩ := hqueue
      have hrest : rest ≠ [] := by
        rintro rfl
        simp only [ReceiveThread.unreleased, List.length_nil] at hsema
        omega
      obtain ⟨init', rfl, -⟩ := exists_init (hhead.symm.trans hsplit) hrest
      exact absurd List.mem_cons_self (hnone _ hinit)
  | exited =>
      refine ⟨rfl, ?_⟩
      rw [hreceiver] at hqueue
      simp only [ConnectionObj.Queue, hsender, SendThread.done, Bool.false_eq_true,
        if_false] at hqueue
      obtain ⟨init, last, hsplit, -, hinit⟩ := hqueue
      by_contra hrest
      obtain ⟨init', rfl, -⟩ := exists_init (hhead.symm.trans hsplit) hrest
      exact absurd List.mem_cons_self (hnone _ hinit)
  | recv | blocked | enqueue o =>
      rw [hreceiver] at hqueue
      exact absurd (hhead ▸ List.mem_cons_self) (hnone _ hqueue.2)

theorem Shared.of_not_ends {next : SendThread α} (h : Shared c)
    (hsender : c.sender = .dequeue) (hhead : c.pendingSend = obj :: rest)
    (hends : obj.ends .tcp = false) (hnext : next.done = false) :
    ConnectionObj.Queue { c with pendingSend := rest, sender := next } c.receiver := by
  have hsema := h.sema
  have hqueue := h.queue
  rw [hsender, hhead] at hsema
  simp only [List.length_cons, SendThread.taken] at hsema
  cases hreceiver : c.receiver with
  | release last =>
      rw [hreceiver] at hqueue hsema
      obtain ⟨-, init, hsplit, hinit⟩ := hqueue
      have hrest : rest ≠ [] := by
        rintro rfl
        simp only [ReceiveThread.unreleased, List.length_nil] at hsema
        omega
      obtain ⟨init', rfl, hrest'⟩ := exists_init (hhead.symm.trans hsplit) hrest
      exact ⟨hnext, init', hrest', fun o hmem => hinit o (List.mem_cons_of_mem _ hmem)⟩
  | exited =>
      rw [hreceiver] at hqueue
      simp only [ConnectionObj.Queue, hsender, SendThread.done, Bool.false_eq_true,
        if_false] at hqueue
      obtain ⟨init, last, hsplit, hlast, hinit⟩ := hqueue
      have hrest : rest ≠ [] := by
        rintro rfl
        have hone := List.append_eq_singleton_iff.mp (hsplit.symm.trans hhead)
        obtain ⟨-, hlast'⟩ := hone.resolve_right (by simp)
        obtain rfl := List.singleton_inj.mp hlast'
        rw [hlast] at hends
        exact Bool.false_ne_true hends.symm
      obtain ⟨init', rfl, hrest'⟩ := exists_init (hhead.symm.trans hsplit) hrest
      simp only [ConnectionObj.Queue, hnext, Bool.false_eq_true, if_false]
      exact ⟨init', last, hrest', hlast, fun o hmem => hinit o (List.mem_cons_of_mem _ hmem)⟩
  | recv | blocked | enqueue o =>
      rw [hreceiver] at hqueue
      exact ⟨hnext, fun o hmem => hqueue.2 o (hhead ▸ List.mem_cons_of_mem _ hmem)⟩

theorem ended_of_subset {receiver : ReceiveThread α} (h : c.Ended receiver)
    (hreceived : c'.received = c.received)
    (hsub : ∀ o ∈ c'.pendingSend, o ∈ c.pendingSend) : c'.Ended receiver := by
  cases receiver with
  | exited =>
      rintro ⟨o, hmem, hnone⟩
      simp only [ConnectionObj.Streams, hreceived]
      exact h ⟨o, hsub o hmem, hnone⟩
  | _ =>
      simp only [ConnectionObj.Ended, ConnectionObj.Streams, hreceived]
      exact h

theorem Shared.dequeue (h : Shared c) (hsender : c.sender = .dequeue)
    (hhead : c.pendingSend = obj :: rest) :
    Shared { c with pendingSend := rest, sender := afterDequeue .tcp obj } := by
  have hwhole := h.whole_of_not_done (by rw [hsender]; rfl)
  have hsema := h.sema
  have hfrees := h.frees
  have hended : ConnectionObj.Ended
      { c with pendingSend := rest, sender := afterDequeue .tcp obj } c.receiver :=
    ended_of_subset h.ended rfl fun o hmem => hhead ▸ List.mem_cons_of_mem _ hmem
  rw [hsender, hhead] at hwhole hsema
  simp only [List.length_cons, SendThread.taken] at hsema
  cases hends : obj.ends .tcp with
  | true =>
      obtain ⟨hreceiver, rfl⟩ := h.of_ends hsender hhead hends
      have hafter : afterDequeue .tcp obj = .closesocket ∧ obj.bytes = [] := by
        obtain ⟨addr, _ | _ | ⟨byte, bytes⟩⟩ := obj
        · exact ⟨rfl, rfl⟩
        · exact ⟨rfl, rfl⟩
        · cases hends
      obtain ⟨hafter, hbytes⟩ := hafter
      rw [hafter] at hended ⊢
      refine ⟨?_, ?_, hended, ?_, by simp, by simp, .inr ?_⟩
      · simp only [List.length_nil, SendThread.taken] at hsema ⊢
        omega
      · simp [hreceiver, ConnectionObj.Queue, SendThread.done]
      · rwa [hsender] at hfrees
      · rw [hwhole]
        simp [SendThread.rest, hbytes]
  | false =>
      obtain ⟨byte, bytes, hbuf⟩ := BufferObj.not_ends_iff.mp hends
      have hafter : afterDequeue .tcp obj = .send obj (byte :: bytes).length 0 := by
        simp only [afterDequeue, hbuf]
      have hbytes : obj.bytes = byte :: bytes := by
        simp only [BufferObj.bytes, hbuf, Option.getD_some]
      rw [hafter] at hended ⊢
      refine ⟨?_, h.of_not_ends hsender hhead hends rfl, hended, ?_, ?_, by simp, .inr ?_⟩
      · simp only [SendThread.taken]
        omega
      · rwa [hsender] at hfrees
      · intro o nleft idx hsend
        obtain ⟨rfl, rfl, rfl⟩ := SendThread.send.inj hsend
        rw [hbytes, Nat.zero_add]
      · rw [hwhole]
        simp [SendThread.rest, hbytes]

theorem Shared.sender (h : Shared c) (hstep : threadStep .tcp gBufferSize c .sender = some c') :
    Shared c' := by
  simp only [threadStep] at hstep
  have hsema := h.sema
  have hfrees := h.frees
  have hwhole := h.whole
  split at hstep
  case h_1 hwait =>
    simp only [Option.ite_none_right_eq_some, Option.some.injEq] at hstep
    obtain ⟨hpos, rfl⟩ := hstep
    rw [hwait] at hsema hfrees hwhole
    refine ⟨?_, h.queue_of_done rfl rfl (by rw [hwait]; rfl), h.ended, hfrees, by simp, by simp, ?_⟩
    · simp only [SendThread.taken] at hsema ⊢
      omega
    · exact hwhole
  case h_2 hdequeue =>
    split at hstep
    case h_1 => cases hstep
    case h_2 obj rest hhead => exact Option.some.inj hstep ▸ h.dequeue hdequeue hhead
  case h_3 hclose =>
    obtain rfl := Option.some.inj hstep
    rw [hclose] at hsema hfrees hwhole
    exact ⟨hsema, h.queue_of_done rfl rfl (by rw [hclose]; rfl), h.ended, hfrees, by simp,
      by simp, hwhole⟩
  case h_4 hfree =>
    obtain rfl := Option.some.inj hstep
    rw [hfree] at hsema hfrees hwhole
    refine ⟨hsema, h.queue_of_done rfl rfl (by rw [hfree]; rfl), h.ended, ?_, by simp,
      by simp, hwhole⟩
    exact congrArg (· + 1) hfrees
  case h_5 => cases hstep

theorem rest_split (obj : BufferObj α) {rc nleft : ℕ} (idx : ℕ) (hle : rc ≤ nleft) :
    (SendThread.send obj nleft idx).rest = (obj.bytes.drop idx).take rc ++
        (if nleft - rc = 0 then .wait else .send obj (nleft - rc) (idx + rc) :
          SendThread α).rest := by
  have htake : (obj.bytes.drop idx).take nleft =
      (obj.bytes.drop idx).take rc ++ (obj.bytes.drop (idx + rc)).take (nleft - rc) := by
    rw [← List.drop_drop, ← List.take_add, Nat.add_sub_cancel' hle]
  rw [SendThread.rest, htake]
  by_cases hdone : nleft - rc = 0
  · rw [if_pos hdone, hdone, List.take_zero]
    rfl
  · rw [if_neg hdone]
    rfl

/-- A `send` may fail once the connection has been aborted and the receive thread has
exited. -/
theorem Shared.send {rc : Option ℕ} (h : Shared c)
    (hsafe : rc = none → c.receiver = .exited ∧ c.Aborted)
    (hstep : threadStep .tcp gBufferSize c (.send rc) = some c') : Shared c' := by
  simp only [threadStep] at hstep
  have hsema := h.sema
  have hfrees := h.frees
  split at hstep
  case h_1 obj nleft idx hsend =>
    rw [hsend] at hsema hfrees
    have hwhole := h.whole_of_not_done (by rw [hsend]; rfl)
    rw [hsend] at hwhole
    cases rc with
    | none =>
        obtain ⟨hexited, haborted⟩ := hsafe rfl
        obtain rfl := Option.some.inj hstep
        refine ⟨hsema, ?_, h.ended, hfrees, by simp, by simp, .inl ⟨rfl, haborted⟩⟩
        rw [hexited]
        exact .inr haborted
    | some rc =>
        simp only [sendOnce, Option.ite_none_right_eq_some, Option.some.injEq] at hstep
        obtain ⟨hle, rfl⟩ := hstep
        have hlength := h.sending obj nleft idx hsend
        rw [rest_split obj idx hle] at hwhole
        have hnext : ∀ next : SendThread α,
            next = (if nleft - rc = 0 then .wait else .send obj (nleft - rc) (idx + rc)) →
            next.done = false ∧ next.taken = 0 ∧ next.freed = 0 := by
          rintro next rfl
          split <;> exact ⟨rfl, rfl, rfl⟩
        obtain ⟨hdone, htaken, hfreed⟩ := hnext _ rfl
        refine ⟨?_, h.queue_of_done rfl rfl ?_, h.ended, ?_, ?_, ?_, .inr ?_⟩
        · dsimp only
          rw [htaken]
          exact hsema
        · rw [hsend, hdone]
          rfl
        · dsimp only
          rw [hfreed]
          exact hfrees
        · intro o n i hnow
          dsimp only at hnow
          split at hnow
          case isTrue => cases hnow
          case isFalse =>
            obtain ⟨rfl, rfl, rfl⟩ := SendThread.send.inj hnow
            omega
        · dsimp only
          split <;> simp
        · dsimp only
          rw [hwhole, List.flatMap_append]
          simp only [List.flatMap_cons, List.flatMap_nil, List.append_nil, List.append_assoc,
            BufferObj.bytes]
  case h_2 obj hsendto => exact absurd hsendto (h.stream obj)
  case h_3 => cases hstep

end Connection

section Lifetime
variable {c c' : ConnectionObj α} {gBufferSize : ℕ} {as : List (ThreadAction α)}

theorem Shared.step {a : ThreadAction α} (h : Shared c) (horderly : Orderly c a)
    (hstep : threadStep .tcp gBufferSize c a = some c') : Shared c' := by
  cases a with
  | receive => exact h.receive horderly hstep
  | recv addr bytes => exact h.recv hstep
  | sender => exact h.sender hstep
  | send rc =>
      refine h.send ?_ hstep
      rintro rfl
      exact horderly

theorem shared_of_run
    (hrun : RunsTo (threadStep .tcp gBufferSize) Orderly getConnectionObj as c) : Shared c :=
  hrun.invariant Shared shared_start fun _ _ _ => Shared.step

theorem Shared.freed (h : Shared c) (hfree : 0 < c.frees) :
    c.receiver = .exited ∧ c.sender = .exited := by
  have hsender : c.sender = .exited := by
    have hfrees := h.frees
    cases hs : c.sender with
    | exited => rfl
    | _ =>
        rw [hfrees, hs] at hfree
        exact absurd hfree (Nat.lt_irrefl 0)
  have hqueue := h.queue
  refine ⟨?_, hsender⟩
  cases hr : c.receiver with
  | exited => rfl
  | _ =>
      rw [hr] at hqueue
      have hdone := hqueue.1
      rw [hsender] at hdone
      cases hdone

theorem Shared.sender_progress (h : Shared c) (hlive : c.sender ≠ .exited)
    (hwait : c.sender = .wait → 0 < c.hRecvSema) :
    ∃ a, Orderly c a ∧ (threadStep .tcp gBufferSize c a).isSome = true := by
  cases hs : c.sender with
  | exited => exact absurd hs hlive
  | sendto obj => exact absurd hs (h.stream obj)
  | wait =>
      refine ⟨.sender, trivial, ?_⟩
      simp only [threadStep, hs, if_pos (hwait hs), Option.isSome_some]
  | send obj nleft idx =>
      refine ⟨.send (some nleft), trivial, ?_⟩
      simp only [threadStep, hs, sendOnce, if_pos (Nat.le_refl nleft), Option.isSome_some]
  | dequeue =>
      have hsema := h.sema
      rw [hs] at hsema
      cases hpending : c.pendingSend with
      | nil =>
          rw [hpending, List.length_nil] at hsema
          simp only [SendThread.taken] at hsema
          omega
      | cons obj rest =>
          exact ⟨.sender, trivial, by simp only [threadStep, hs, hpending, Option.isSome_some]⟩
  | closesocket | free =>
      exact ⟨.sender, trivial, by simp only [threadStep, hs, Option.isSome_some]⟩

theorem Shared.signalled (h : Shared c) (hr : c.receiver = .exited) (hs : c.sender = .wait) :
    0 < c.hRecvSema := by
  have hsema := h.sema
  have hqueue := h.queue
  rw [hr, hs] at hsema
  rw [hr] at hqueue
  simp only [ConnectionObj.Queue, hs, SendThread.done, Bool.false_eq_true, if_false] at hqueue
  obtain ⟨init, last, hsplit, -⟩ := hqueue
  rw [hsplit, List.length_append, List.length_singleton] at hsema
  simp only [ReceiveThread.unreleased, SendThread.taken] at hsema
  omega

theorem Shared.progress (h : Shared c) (hblocked : c.receiver ≠ .blocked) :
    (c.receiver = .exited ∧ c.sender = .exited) ∨
      ∃ a, Orderly c a ∧ (threadStep .tcp gBufferSize c a).isSome = true := by
  cases hr : c.receiver with
  | blocked => exact absurd hr hblocked
  | exited =>
      by_cases hs : c.sender = .exited
      · exact .inl ⟨rfl, hs⟩
      · exact .inr (h.sender_progress hs (h.signalled hr))
  | recv | enqueue obj =>
      refine .inr ⟨.receive, by simp [Orderly, hr], ?_⟩
      simp only [threadStep, hr, Option.isSome_some]
  | release obj =>
      by_cases hroom : c.hRecvSema < maximumCount
      · refine .inr ⟨.receive, ?_, by simp only [threadStep, hr, Option.isSome_some]⟩
        rw [Orderly, hr]
        exact hroom
      · have hqueue := h.queue
        rw [hr] at hqueue
        have hpos : 0 < c.hRecvSema := by
          rw [maximumCount] at hroom
          omega
        refine .inr (h.sender_progress ?_ fun _ => hpos)
        intro hs
        have hdone := hqueue.1
        rw [hs] at hdone
        cases hdone

theorem Shared.all_sent (h : Shared c) (hfree : 0 < c.frees) (hclose : ∃ d ∈ c.received, d.2 = []) :
    c.sent.flatMap (·.2) = c.received.flatMap (·.2) := by
  obtain ⟨hr, hs⟩ := h.freed hfree
  obtain ⟨d, hmem, hempty⟩ := hclose
  have hended := h.ended
  have hqueue := h.queue
  rw [hr] at hended hqueue
  have haborted : ¬ c.Aborted := fun haborted => hended haborted d hmem hempty
  rw [ConnectionObj.Queue, hs] at hqueue
  have hpending : c.pendingSend = [] := hqueue.resolve_right haborted
  have hwhole := h.whole.resolve_left fun hlost => haborted hlost.2
  rw [hr, hs, hpending] at hwhole
  simpa [SendThread.rest, ReceiveThread.hand] using hwhole.symm

end Lifetime

/-- In every interleaving in which the semaphore has room and a `send` fails only when the
receive thread has exited after an error, the connection is freed once, when neither thread
uses it any more, no thread gets stuck before that, and all data received before a graceful
close is sent. -/
theorem connection_freed_once {gBufferSize : ℕ} {as : List (ThreadAction α)}
    {c : ConnectionObj α}
    (hrun : RunsTo (threadStep .tcp gBufferSize) Orderly getConnectionObj as c) :
    c.frees ≤ 1 ∧
      (0 < c.frees → c.receiver.uses = false ∧ c.sender.uses = false) ∧
      (c.receiver ≠ .blocked → c.frees = 1 ∨
        ∃ a, Orderly c a ∧ (threadStep .tcp gBufferSize c a).isSome = true) ∧
      (0 < c.frees → (∃ d ∈ c.received, d.2 = []) →
        c.sent.flatMap (·.2) = c.received.flatMap (·.2)) := by
  have h := shared_of_run hrun
  refine ⟨?_, fun hfree => ?_, fun hblocked => ?_, h.all_sent⟩
  · rw [h.frees]
    cases c.sender <;> simp [SendThread.freed]
  · obtain ⟨hr, hs⟩ := h.freed hfree
    rw [hr, hs]
    exact ⟨rfl, rfl⟩
  · rcases @Shared.progress _ _ gBufferSize h hblocked with ⟨-, hs⟩ | hgo
    · exact .inl (h.frees.trans (congrArg SendThread.freed hs))
    · exact .inr hgo

/-- Two bytes, which leave in two parts, and a graceful close. -/
def gracefulClose : List (ThreadAction Unit) :=
  [.receive, .recv () (some [1, 2]), .receive, .receive, .receive, .sender, .sender,
    .send (some 1), .recv () (some []), .receive, .receive, .send (some 1), .sender, .sender,
    .sender, .sender]

theorem connection_freed_once_gracefulClose :
    ∃ c, RunsTo (threadStep .tcp 4) Orderly getConnectionObj gracefulClose c ∧
      (0 < c.frees ∧ ∃ d ∈ c.received, d.2 = []) ∧ c.sent.flatMap (·.2) = [1, 2] := by
  have hrun : RunsTo (threadStep .tcp 4) Orderly getConnectionObj gracefulClose _ :=
    RunsTo.of_isSome (by decide)
  refine ⟨_, hrun, ⟨by decide, by decide⟩, ?_⟩
  exact ((connection_freed_once hrun).2.2.2 (by decide) (by decide)).trans (by decide)

/-- Both bytes arrive, the receive thread waits for more, and `send` fails. -/
def failingSend : List (ThreadAction Unit) :=
  [.receive, .recv () (some [1, 2]), .receive, .receive, .receive, .sender, .sender,
    .send none, .sender, .sender, .recv () none]

/-- The send thread frees the connection on which the receive thread waits, and that then
queues its buffer. -/
theorem freed_under_receiver :
    ∃ c, RunsTo (threadStep .tcp 4) Always getConnectionObj failingSend c ∧
      c.frees = 1 ∧ c.receiver.uses = true :=
  ⟨_, RunsTo.of_isSome (by decide), by decide, by decide⟩

end MiscProjects.Echo.Blocking
