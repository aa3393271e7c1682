import Mathlib.Data.List.Perm.Basic
import Mathlib.Data.List.ReduceOption
import MiscProjects.Echo.PendingData
import MiscProjects.Library.LinkedQueue
import MiscProjects.Library.Simulation

/-!
# The queue of buffers waiting to be sent

The buffers that a connection has received and not sent yet are linked through their `next`
fields.  `EnqueueBufferObj` looks at `pending` to see whether the queue is empty, and then does
not write the field of the buffer; `DequeueBufferObj` looks at `pendingtail`, and does not
clear the field of the buffer it returns.

What the queue is for is stated by `Deque`: a list of buffers, and the buffer that has been
dequeued last and may be put back before the others.
-/

namespace MiscProjects.Echo.PendingQueue

open MiscProjects.Runs MiscProjects.LinkedQueue
open Function (update update_self update_of_ne)

inductive Action
  /-- `EnqueueBufferObj` with a buffer that `GetBufferObj` has returned. -/
  | enqueue (obj : ℕ) (atHead : Bool)
  /-- `EnqueueBufferObj` with a buffer that `DequeueBufferObj` has returned. -/
  | enqueueAgain (obj : ℕ)
  | dequeue
deriving DecidableEq

/-! ## The code -/

/-- The fields of a `SOCKET_OBJ` that make up the queue, the `next` fields of the buffers at
their addresses, and what the calls of `DequeueBufferObj` have returned. -/
structure Sock where
  pending : Option ℕ
  pendingtail : Option ℕ
  next : ℕ → Option ℕ
  dequeued : List (Option ℕ)

/-- A new `SOCKET_OBJ`; the memory of the buffers is arbitrary. -/
def getSocketObj (next : ℕ → Option ℕ) : Sock where
  pending := none
  pendingtail := none
  next := next
  dequeued := []

/-- The memory is set to zero. -/
def getBufferObj (obj : ℕ) (sock : Sock) : Sock :=
  { sock with next := update sock.next obj none }

/-- `none` where a null pointer is used. -/
def enqueueBufferObj (obj : ℕ) (atHead : Bool) (sock : Sock) : Option Sock :=
  match sock.pending with
  | none => some { sock with pending := some obj, pendingtail := some obj }
  | some head =>
      if atHead = false then
        match sock.pendingtail with
        | none => none
        | some tail =>
            some { sock with
              next := update sock.next tail (some obj)
              pendingtail := some obj }
      else
        some { sock with
          next := update sock.next obj (some head)
          pending := some obj }

def dequeueBufferObj (sock : Sock) : Option Sock :=
  match sock.pendingtail with
  | none => some { sock with dequeued := sock.dequeued ++ [none] }
  | some tail =>
      match sock.pending with
      | none => none
      | some ret =>
          some { sock with
            pending := sock.next ret
            pendingtail := if some tail = some ret then none else some tail
            dequeued := sock.dequeued ++ [some ret] }

def step (sock : Sock) : Action → Option Sock
  | .enqueue obj atHead => enqueueBufferObj obj atHead (getBufferObj obj sock)
  | .enqueueAgain obj => enqueueBufferObj obj true sock
  | .dequeue => dequeueBufferObj sock

/-! ## What the queue is for -/

/-- `last` is the buffer that has been dequeued last, unless it has been put back or freed. -/
structure Deque where
  contents : List ℕ
  last : Option ℕ
  dequeued : List (Option ℕ)
deriving DecidableEq

def Deque.empty : Deque := ⟨[], none, []⟩

/-- A new buffer is none of those in the queue, and the buffer dequeued last has been freed
if the new one is at its address.  At the head also that buffer may be enqueued. -/
def Deque.step (d : Deque) : Action → Option Deque
  | .enqueue obj atHead =>
      if obj ∈ d.contents then none
      else
        some { d with
          contents := if atHead then obj :: d.contents else d.contents ++ [obj]
          last := if d.last = some obj then none else d.last }
  | .enqueueAgain obj =>
      if d.last = some obj then some { d with contents := obj :: d.contents, last := none }
      else none
  | .dequeue =>
      match d.contents with
      | [] => some { d with dequeued := d.dequeued ++ [none] }
      | obj :: contents => some ⟨contents, some obj, d.dequeued ++ [some obj]⟩

/-- The buffers that have been enqueued. -/
def Action.enqueued : Action → Option ℕ
  | .enqueue obj _ => some obj
  | .enqueueAgain obj => some obj
  | .dequeue => none

/-! ## The representation -/

/-- The buffer dequeued last is not in the queue; it still points to the buffer that was
behind it, unless there was none. -/
structure Refines (d : Deque) (sock : Sock) : Prop where
  queue : IsQueue sock.next sock.pending sock.pendingtail d.contents
  last : ∀ obj, d.last = some obj → obj ∉ d.contents ∧ (d.contents = [] → sock.next obj = none)
  dequeued : sock.dequeued = d.dequeued

section Refines
variable {d e : Deque} {sock : Sock} {obj : ℕ} {atHead : Bool} {a : Action}

theorem refines_empty (next : ℕ → Option ℕ) : Refines Deque.empty (getSocketObj next) where
  queue := isQueue_nil next
  last := nofun
  dequeued := rfl

/-- A buffer that is not in the queue is put to one of its ends; into an empty queue it comes
with the field as it is. -/
theorem enqueueBufferObj_isQueue (atHead : Bool) {contents : List ℕ}
    (h : IsQueue sock.next sock.pending sock.pendingtail contents) (hobj : obj ∉ contents)
    (hnext : contents = [] ∨ atHead = false → sock.next obj = none) :
    ∃ sock', enqueueBufferObj obj atHead sock = some sock' ∧
      IsQueue sock'.next sock'.pending sock'.pendingtail
        (if atHead then obj :: contents else contents ++ [obj]) ∧
      sock'.dequeued = sock.dequeued := by
  rw [enqueueBufferObj]
  split
  · next hpending =>
    obtain rfl := h.head_eq_none_iff.mp hpending
    refine ⟨_, rfl, ?_, rfl⟩
    simpa using isQueue_singleton (hnext (.inl rfl))
  · next head hpending =>
    have hne : contents ≠ [] := by
      intro hnil
      rw [h.head_eq_none_iff.mpr hnil] at hpending
      cases hpending
    obtain ⟨tail, htail⟩ := Option.ne_none_iff_exists'.mp
      fun hnone => hne (h.tail_eq_none_iff.mp hnone)
    rw [htail] at h
    split
    · next hfalse =>
      rw [htail]
      refine ⟨_, rfl, ?_, rfl⟩
      rw [hfalse]
      exact h.pushBack hobj (hnext (.inr hfalse))
    · next htrue =>
      refine ⟨_, rfl, ?_, rfl⟩
      rw [eq_true_of_ne_false htrue]
      have hpush := h.pushFront hobj
      rw [hpending] at hpush
      rw [htail]
      exact hpush

theorem Refines.enqueue (h : Refines d sock) (hstep : d.step (.enqueue obj atHead) = some e) :
    ∃ sock', step sock (.enqueue obj atHead) = some sock' ∧ Refines e sock' := by
  rw [Deque.step] at hstep
  split at hstep
  · cases hstep
  · next hobj =>
    obtain rfl := Option.some.inj hstep
    have hqueue : IsQueue (getBufferObj obj sock).next sock.pending sock.pendingtail d.contents :=
      h.queue.congr fun b hb => update_of_ne (ne_of_mem_of_not_mem hb hobj) _ _
    have hnext : (getBufferObj obj sock).next obj = none := by simp [getBufferObj]
    obtain ⟨sock', hsock', hqueue', hdequeued⟩ :=
      enqueueBufferObj_isQueue atHead hqueue hobj fun _ => hnext
    refine ⟨sock', hsock', hqueue', ?_, hdequeued.trans h.dequeued⟩
    intro b hb
    obtain ⟨hlast, hbefore⟩ : d.last ≠ some obj ∧ d.last = some b := by simpa using hb
    have hbo : b ≠ obj := by
      rintro rfl
      exact hlast hbefore
    obtain ⟨hmem, -⟩ := h.last b hbefore
    cases atHead <;> simp [hmem, hbo]

theorem Refines.enqueueAgain (h : Refines d sock) (hstep : d.step (.enqueueAgain obj) = some e) :
    ∃ sock', step sock (.enqueueAgain obj) = some sock' ∧ Refines e sock' := by
  rw [Deque.step] at hstep
  split at hstep
  · next hlast =>
    obtain rfl := Option.some.inj hstep
    obtain ⟨hobj, hnil⟩ := h.last obj hlast
    have hnext : d.contents = [] ∨ true = false → sock.next obj = none :=
      fun hor => hnil (hor.resolve_right nofun)
    obtain ⟨sock', hsock', hqueue', hdequeued⟩ := enqueueBufferObj_isQueue _ h.queue hobj hnext
    exact ⟨sock', hsock', hqueue', nofun, hdequeued.trans h.dequeued⟩
  · cases hstep

theorem Refines.dequeue (h : Refines d sock) (hstep : d.step .dequeue = some e) :
    ∃ sock', PendingQueue.step sock .dequeue = some sock' ∧ Refines e sock' := by
  rw [Deque.step] at hstep
  split at hstep
  · next hnil =>
    obtain rfl := Option.some.inj hstep
    have htail := h.queue.tail_eq_none_iff.mpr hnil
    refine ⟨{ sock with dequeued := sock.dequeued ++ [none] }, ?_, h.queue, h.last, ?_⟩
    · rw [PendingQueue.step, dequeueBufferObj, htail]
    · exact congrArg (· ++ [none]) h.dequeued
  · next obj contents hcontents =>
    obtain rfl := Option.some.inj hstep
    have hqueue := h.queue
    rw [hcontents] at hqueue
    have hpending : sock.pending = some obj := hqueue.head_eq
    obtain ⟨tail, htail⟩ := Option.ne_none_iff_exists'.mp
      fun hnone => List.cons_ne_nil obj contents (hqueue.tail_eq_none_iff.mp hnone)
    have hpop := hqueue.pop
    rw [htail] at hpop
    refine ⟨{ sock with
      pending := sock.next obj
      pendingtail := if some tail = some obj then none else some tail
      dequeued := sock.dequeued ++ [some obj] }, ?_, hpop, ?_, ?_⟩
    · rw [PendingQueue.step, dequeueBufferObj, htail, hpending]
    · intro b hb
      obtain rfl := Option.some.inj hb
      refine ⟨(List.nodup_cons.mp hqueue.nodup).1, ?_⟩
      exact hpop.head_eq_none_iff.mpr
    · exact congrArg (· ++ [some obj]) h.dequeued

theorem Refines.step (h : Refines d sock) (hstep : d.step a = some e) :
    ∃ sock', PendingQueue.step sock a = some sock' ∧ Refines e sock' := by
  cases a with
  | enqueue obj atHead => exact h.enqueue hstep
  | enqueueAgain obj => exact h.enqueueAgain hstep
  | dequeue => exact h.dequeue hstep

end Refines

/-! ## No loss and no duplication -/

section Conservation
variable {d e : Deque} {acts : List Action} {a : Action}

/-- The buffers enqueued are those returned and those in the queue, each as often. -/
def Conserved (acts : List Action) (d : Deque) : Prop :=
  (acts.filterMap Action.enqueued).Perm (d.dequeued.reduceOption ++ d.contents)

theorem Conserved.step (h : Conserved acts d) (hstep : d.step a = some e) :
    Conserved (acts ++ [a]) e := by
  rw [Conserved, List.filterMap_append]
  cases a with
  | enqueue obj atHead =>
      rw [Deque.step] at hstep
      split at hstep
      · cases hstep
      · obtain rfl := Option.some.inj hstep
        have hend := h.append_right [obj]
        rw [List.append_assoc] at hend
        refine hend.trans (List.Perm.append_left _ ?_)
        cases atHead with
        | true => exact List.perm_append_singleton obj d.contents
        | false => exact List.Perm.refl _
  | enqueueAgain obj =>
      rw [Deque.step] at hstep
      split at hstep
      · obtain rfl := Option.some.inj hstep
        have hend := h.append_right [obj]
        rw [List.append_assoc] at hend
        exact hend.trans (List.Perm.append_left _ (List.perm_append_singleton obj d.contents))
      · cases hstep
  | dequeue =>
      rw [Deque.step] at hstep
      rw [show [Action.dequeue].filterMap Action.enqueued = [] from rfl, List.append_nil]
      split at hstep
      · next hnil =>
        obtain rfl := Option.some.inj hstep
        simpa [Conserved, List.reduceOption, hnil] using h
      · next obj contents hcontents =>
        obtain rfl := Option.some.inj hstep
        rw [Conserved, hcontents] at h
        simpa [List.reduceOption] using h

end Conservation

/-! ## The servers' lists of buffers -/

theorem enqueueBufferObj_contents {d e : Deque} {obj : ℕ} {atHead : Bool} {sock : SocketObj}
    (buf : ℕ → List UInt8) (hpending : sock.pending = d.contents.map buf)
    (hstep : d.step (.enqueue obj atHead) = some e) :
    (sock.enqueueBufferObj (buf obj) atHead).pending = e.contents.map buf := by
  rw [Deque.step] at hstep
  split at hstep
  · cases hstep
  · obtain rfl := Option.some.inj hstep
    rw [SocketObj.enqueueBufferObj, hpending]
    cases atHead <;> simp

/-! ## Main result -/

/-- However the queue is used, it represents the deque, no null pointer is used, and
`DequeueBufferObj` returns what the deque gives. -/
theorem pendingQueue_represents_deque (next : ℕ → Option ℕ) {acts : List Action} {d : Deque}
    (hrun : RunsTo Deque.step Always Deque.empty acts d) :
    ∃ sock, RunsTo step Always (getSocketObj next) acts sock ∧
      sock.dequeued = d.dequeued ∧
      IsQueue sock.next sock.pending sock.pendingtail d.contents ∧
      (sock.pending = none ↔ sock.pendingtail = none) ∧
      (∀ tail, sock.pendingtail = some tail → sock.next tail = none) ∧
      (acts.filterMap Action.enqueued).Perm (d.dequeued.reduceOption ++ d.contents) := by
  obtain ⟨sock, hsock, h⟩ := hrun.simulate Refines (refines_empty next)
    fun _ _ _ _ h _ hstep => h.step hstep
  have hconserved : Conserved acts d :=
    hrun.history Conserved (List.Perm.refl _) fun _ _ _ _ h _ hstep => h.step hstep
  refine ⟨sock, hsock, h.dequeued, h.queue, h.queue.head_none_iff_tail_none, ?_, hconserved⟩
  intro tail htail
  have hqueue := h.queue
  rw [htail] at hqueue
  exact hqueue.next_tail

/-- The first of two buffers is put back, and is before the other one again. -/
theorem pendingQueue_represents_deque_again :
    ∃ sock, RunsTo step Always (getSocketObj fun _ => some 9)
        [.enqueue 1 false, .enqueue 2 false, .dequeue, .enqueueAgain 1] sock ∧
      sock.dequeued = [some 1] ∧ IsQueue sock.next sock.pending sock.pendingtail [1, 2] := by
  have hrun : RunsTo Deque.step Always Deque.empty
      [.enqueue 1 false, .enqueue 2 false, .dequeue, .enqueueAgain 1] _ := .of_exec rfl
  obtain ⟨sock, hsock, hdequeued, hqueue, -⟩ := pendingQueue_represents_deque (fun _ => some 9) hrun
  exact ⟨sock, hsock, hdequeued, hqueue⟩

end MiscProjects.Echo.PendingQueue
