import Mathlib.Algebra.Ring.Nat
import MiscProjects.Library.LinkedList
import MiscProjects.Library.Runs

/-!
# The event array of a child thread

A child thread of the event server waits on an array of events, which it relates to its
list of sockets by position only.  The main thread appends sockets, the child thread
looks at the events one after the other and removes sockets while it does so.  A step is
one critical section, one reading of `SocketCount`, or one call of the system.
-/

namespace MiscProjects.Echo.EventArray

open LinkedList Runs

variable {α H : Type*} [DecidableEq α]

def maximumWaitObjects : ℕ := 64

/-- The list and the array of a `THREAD_OBJ`; `handles 0` stands for the thread's own event
and is not used. -/
structure ThreadObj (α H : Type*) where
  socketList : Option α
  socketListEnd : Option α
  socketCount : ℕ
  handles : ℕ → Option H

/-- `InsertSocketObj`; the result tells whether the thread had room. -/
def insertSocketObj (heap : Memory α H) (thread : ThreadObj α H) (sock : α) :
    Option (Memory α H × ThreadObj α H × Bool) :=
  if thread.socketCount < maximumWaitObjects - 1 then
    (insertBack heap thread.socketList thread.socketListEnd sock).bind fun r =>
      (r.1 sock).map fun node =>
        (r.1,
          { socketList := r.2.1
            socketListEnd := r.2.2
            socketCount := thread.socketCount + 1
            handles := Function.update thread.handles (thread.socketCount + 1)
              (some node.data) },
          true)
  else some (heap, thread, false)

/-- The list in `RemoveSocketObj`. -/
def removeSocketObj (heap : Memory α H) (thread : ThreadObj α H) (sock : α) :
    Option (Memory α H × ThreadObj α H) :=
  (unlink heap thread.socketList thread.socketListEnd sock).map fun r =>
    (r.1,
      { thread with
        socketList := r.2.1
        socketListEnd := r.2.2
        socketCount := thread.socketCount - 1 })

omit [DecidableEq α] in
def findSocketObj (heap : Memory α H) (thread : ThreadObj α H) (index : ℕ) :
    Option (Option α) :=
  walk heap index thread.socketList

/-- `RenumberThreadArray`; `none` if it would write behind the end of the array. -/
def renumberThreadArray (heap : Memory α H) (thread : ThreadObj α H) :
    Option (ThreadObj α H) :=
  (collect heap (maximumWaitObjects - 1) thread.socketList).map fun events =>
    { thread with
      handles := fun i =>
        if 0 < i ∧ i ≤ events.length then events[i - 1]? else thread.handles i }

/-- What `ChildThread` does next; `find` has found the event `h` signalled at `index`. -/
inductive ChildThread (α H : Type*)
  | wait
  | test (i : ℕ)
  | poll (i : ℕ)
  | resetEvent
  | renumber (i : ℕ)
  | find (index : ℕ) (h : H)
  | handleIo (index : ℕ) (sock : α)
  | free (index : ℕ) (sock : α)
  | exited

/-- What the main thread does next in `AssignToFreeThread`. -/
inductive MainThread (α : Type*)
  | idle
  | insert (sock : α)
  | setEvent

structure State (α H : Type*) where
  heap : Memory α H
  thread : ThreadObj α H
  event : Bool
  child : ChildThread α H
  main : MainThread α

def start : State α H where
  heap := fun _ => none
  thread := ⟨none, none, 0, fun _ => none⟩
  event := false
  child := .wait
  main := .idle

inductive WaitResult
  | failed
  | timeout
  | signalled
deriving DecidableEq

/-- The ends of `HandleIo`: `NO_ERROR`, `SOCKET_ERROR`, and `SOCKET_ERROR` after the removal
of the socket. -/
inductive HandleIoResult
  | noError
  | error
  | removed
deriving DecidableEq

inductive Action (α H : Type*)
  | getSocketObj (sock : α) (event : H)
  | insertSocketObj
  | setEvent
  | wait (rc : WaitResult)
  | test
  | poll (rc : WaitResult)
  | resetEvent
  | renumber
  | find
  | handleIo (rc : HandleIoResult)
  | free

/-- The main thread.  An object for which this thread has no room goes to another one. -/
def mainStep (s : State α H) : Action α H → Option (State α H)
  | .getSocketObj sock event =>
      match s.main, s.heap sock with
      | .idle, none =>
          some { s with
            heap := Function.update s.heap sock (some ⟨none, none, event⟩)
            main := .insert sock }
      | _, _ => none
  | .insertSocketObj =>
      match s.main with
      | .insert sock =>
          (insertSocketObj s.heap s.thread sock).map fun r =>
            if r.2.2 then { s with heap := r.1, thread := r.2.1, main := .setEvent }
            else { s with heap := s.heap.free sock, main := .idle }
      | _ => none
  | .setEvent =>
      match s.main with
      | .setEvent => some { s with event := true, main := .idle }
      | _ => none
  | _ => none

/-- What `WaitForSingleObject` has said about the event at `i`. -/
def polled (s : State α H) (i : ℕ) : WaitResult → Option (ChildThread α H)
  | .failed => some .exited
  | .timeout => if i = 0 ∧ s.event = true then none else some (.test (i + 1))
  | .signalled =>
      if i = 0 then (if s.event = true then some .resetEvent else none)
      else (s.thread.handles i).map (.find i)

/-- One step, of the main thread or of `ChildThread`.  After the array has been rebuilt for
the thread's own event `i` is `1`. -/
def step (s : State α H) : Action α H → Option (State α H)
  | .wait rc =>
      match s.child, rc with
      | .wait, .signalled => some { s with child := .test 0 }
      | .wait, _ => some { s with child := .exited }
      | _, _ => none
  | .test =>
      match s.child with
      | .test i =>
          some { s with child := if i < s.thread.socketCount + 1 then .poll i else .wait }
      | _ => none
  | .poll rc =>
      match s.child with
      | .poll i => (polled s i rc).map fun child => { s with child := child }
      | _ => none
  | .resetEvent =>
      match s.child with
      | .resetEvent => some { s with event := false, child := .renumber 1 }
      | _ => none
  | .renumber =>
      match s.child with
      | .renumber i =>
          (renumberThreadArray s.heap s.thread).map fun thread =>
            { s with thread := thread, child := .test (i + 1) }
      | _ => none
  | .find =>
      match s.child with
      | .find index _ =>
          (findSocketObj s.heap s.thread (index - 1)).map fun sockobj =>
            { s with
              child :=
                match sockobj with
                | none => .test (index + 1)
                | some sock => .handleIo index sock }
      | _ => none
  | .handleIo rc =>
      match s.child, rc with
      | .handleIo index _, .noError => some { s with child := .test (index + 1) }
      | .handleIo index _, .error => some { s with child := .renumber index }
      | .handleIo index sock, .removed =>
          (removeSocketObj s.heap s.thread sock).map fun r =>
            { s with heap := r.1, thread := r.2, event := true, child := .free index sock }
      | _, _ => none
  | .free =>
      match s.child with
      | .free index sock =>
          some { s with heap := s.heap.free sock, child := .renumber index }
      | _ => none
  | a => mainStep s a

/-! ## The list and the array -/

/-- The array has been left as it was when the list was changed. -/
def ChildThread.rebuilds : ChildThread α H → Bool
  | .renumber _ | .free _ _ => true
  | _ => false

/-- What the child thread relies on. -/
def ChildThread.Place (l : List α) (handles : ℕ → Option H) : ChildThread α H → Prop
  | .poll i => i ≤ l.length
  | .find index h => 0 < index ∧ index ≤ l.length ∧ handles index = some h
  | .handleIo _ sock => sock ∈ l
  | _ => True

/-- The sockets of the thread are `l`.  An object that is not in the list belongs to the main
thread before it is inserted and to the child thread after it has been removed. -/
structure Kept (s : State α H) (l : List α) : Prop where
  linked : Linked s.heap s.thread.socketList s.thread.socketListEnd l
  nodup : l.Nodup
  count : s.thread.socketCount = l.length
  bound : l.length ≤ maximumWaitObjects - 1
  array : s.child.rebuilds = false → ∀ i a, l[i]? = some a →
    s.thread.handles (i + 1) = (s.heap a).map Node.data
  place : s.child.Place l s.thread.handles
  inserting : ∀ sock, s.main = .insert sock → sock ∉ l ∧ ∃ node, s.heap sock = some node
  freeing : ∀ index sock, s.child = .free index sock →
    sock ∉ l ∧ s.main ≠ .insert sock ∧ ∃ node, s.heap sock = some node

section Kept
variable {s s' : State α H} {l : List α} {sock : α} {a : Action α H}

attribute [local simp] EventArray.step

omit [DecidableEq α] in
theorem kept_start : Kept (start : State α H) [] where
  linked := ⟨rfl, rfl⟩
  nodup := List.nodup_nil
  count := rfl
  bound := Nat.zero_le _
  array := by simp
  place := trivial
  inserting := by simp [start]
  freeing := by simp [start]

variable {i index : ℕ} {child : ChildThread α H}

omit [DecidableEq α] in
theorem Kept.setChild (h : Kept s l) (event : Bool)
    (hrebuilds : child.rebuilds = false → s.child.rebuilds = false)
    (hplace : child.Place l s.thread.handles) (hfree : ∀ index sock, child ≠ .free index sock) :
    Kept { s with event := event, child := child } l :=
  ⟨h.linked, h.nodup, h.count, h.bound, fun hchild => h.array (hrebuilds hchild), hplace,
    h.inserting, fun index sock hchild => absurd hchild (hfree index sock)⟩

omit [DecidableEq α] in
theorem Kept.exists_node (h : Kept s l) (hmem : sock ∈ l) : ∃ node, s.heap sock = some node :=
  h.linked.1.exists_of_mem hmem

omit [DecidableEq α] in
theorem Kept.congr (h : Kept s l) {heap : Memory α H} (hheap : ∀ c ∈ l, heap c = s.heap c)
    (main : MainThread α) (hinserting : ∀ c, main = .insert c → c ∉ l ∧ ∃ node, heap c = some node)
    (hfreeing : ∀ index c, s.child = .free index c →
      main ≠ .insert c ∧ ∃ node, heap c = some node) :
    Kept { s with heap := heap, main := main } l :=
  ⟨h.linked.congr hheap, h.nodup, h.count, h.bound,
    fun hchild i c hc => (h.array hchild i c hc).trans
      (congrArg _ (hheap c (List.mem_of_getElem? hc)).symm),
    h.place, hinserting, fun index c hc => ⟨(h.freeing index c hc).1, hfreeing index c hc⟩⟩

omit [DecidableEq α] in
theorem Place.append {handles : ℕ → Option H} (h : child.Place l handles) (event : Option H) :
    child.Place (l ++ [sock]) (Function.update handles (l.length + 1) event) := by
  cases child with
  | poll i =>
      have hle : i ≤ l.length := h
      simp only [ChildThread.Place, List.length_append, List.length_singleton]
      omega
  | find index ev =>
      obtain ⟨hpos, hle, hev⟩ := h
      refine ⟨hpos, ?_, ?_⟩
      · rw [List.length_append, List.length_singleton]
        omega
      · rwa [Function.update_of_ne (by omega)]
  | handleIo index c => exact List.mem_append_left _ h
  | _ => trivial

theorem Kept.getSocketObj {event : H} (h : Kept s l)
    (hstep : mainStep s (.getSocketObj sock event) = some s') : Kept s' l := by
  simp only [mainStep] at hstep
  split at hstep
  case h_2 => cases hstep
  case h_1 hmain hnone =>
    obtain rfl := Option.some.inj hstep
    have hnew : ∀ c node, s.heap c = some node →
        Function.update s.heap sock (some ⟨none, none, event⟩) c = s.heap c := by
      intro c node hc
      refine Function.update_of_ne ?_ ..
      rintro rfl
      rw [hnone] at hc
      cases hc
    have hold : ∀ c ∈ l, Function.update s.heap sock (some ⟨none, none, event⟩) c = s.heap c := by
      intro c hc
      obtain ⟨node, hnode⟩ := h.exists_node hc
      exact hnew c node hnode
    refine h.congr hold _ (fun c hc => ?_) (fun index c hc => ?_)
    · obtain rfl := MainThread.insert.inj hc
      refine ⟨fun hmem => ?_, _, Function.update_self ..⟩
      obtain ⟨node, hnode⟩ := h.exists_node hmem
      rw [hnone] at hnode
      cases hnode
    · obtain ⟨-, -, node, hnode⟩ := h.freeing index c hc
      refine ⟨?_, node, (hnew c node hnode).trans hnode⟩
      intro hinsert
      obtain rfl := MainThread.insert.inj hinsert
      rw [hnone] at hnode
      cases hnode

theorem insertSocketObj_eq (h : Kept s l) {node : Node α H} (hnew : sock ∉ l)
    (hnode : s.heap sock = some node) (hroom : l.length < maximumWaitObjects - 1) :
    ∃ heap head, insertSocketObj s.heap s.thread sock = some (heap, ⟨head, some sock, l.length + 1,
          Function.update s.thread.handles (l.length + 1) (some node.data)⟩, true) ∧
      Linked heap head (some sock) (l ++ [sock]) ∧ SameData s.heap heap ∧
      ∀ c ∉ l ++ [sock], heap c = s.heap c := by
  obtain ⟨heap, head, hinsert, hlinked, hdata, hother⟩ := h.linked.insertBack h.nodup hnew hnode
  refine ⟨heap, head, ?_, hlinked, hdata, hother⟩
  have hsock : (heap sock).map Node.data = some node.data := by
    rw [hdata sock, hnode, Option.map_some]
  obtain ⟨node', hnode', hsame⟩ := Option.map_eq_some_iff.mp hsock
  rw [insertSocketObj, h.count, if_pos hroom, hinsert, Option.bind_some]
  simp only [hnode', Option.map_some, hsame]

theorem Kept.insertSocketObj (h : Kept s l)
    (hstep : mainStep s .insertSocketObj = some s') : ∃ l', Kept s' l' := by
  simp only [mainStep] at hstep
  split at hstep
  case h_2 => cases hstep
  case h_1 sock hmain =>
    obtain ⟨hnew, node, hnode⟩ := h.inserting sock hmain
    by_cases hroom : l.length < maximumWaitObjects - 1
    · obtain ⟨heap, head, hinsert, hlinked, hdata, hother⟩ := insertSocketObj_eq h hnew hnode hroom
      simp only [hinsert, Option.map_some, if_true, Option.some.injEq] at hstep
      subst hstep
      refine ⟨l ++ [sock], hlinked, ?_, ?_, ?_, fun hchild i c hc => ?_, ?_, ?_, ?_⟩
      · exact List.nodup_append.mpr ⟨h.nodup, List.nodup_singleton sock, by
          rintro c hc d hd rfl
          exact hnew (List.mem_singleton.mp hd ▸ hc)⟩
      · simp
      · simp only [List.length_append, List.length_singleton]
        omega
      · rcases Nat.lt_or_ge i l.length with hlt | hge
        · rw [List.getElem?_append_left hlt] at hc
          have hdatac : (heap c).map Node.data = (s.heap c).map Node.data := hdata c
          exact (Function.update_of_ne (by omega) ..).trans
            ((h.array hchild i c hc).trans hdatac.symm)
        · rw [List.getElem?_append_right hge, List.getElem?_singleton] at hc
          split at hc
          case isFalse => cases hc
          case isTrue hzero =>
            obtain rfl := Option.some.inj hc
            obtain rfl : i = l.length := by omega
            refine (Function.update_self ..).trans ?_
            rw [hdata sock, hnode, Option.map_some]
      · exact Place.append h.place _
      · intro c hc
        cases hc
      · intro index c hc
        obtain ⟨hmem, hmainc, node', hnode'⟩ := h.freeing index c hc
        have hnot : c ∉ l ++ [sock] := by
          rw [List.mem_append, List.mem_singleton, not_or]
          refine ⟨hmem, ?_⟩
          rintro rfl
          exact hmainc hmain
        exact ⟨hnot, by simp, node', (hother c hnot).trans hnode'⟩
    · rw [EventArray.insertSocketObj, h.count, if_neg hroom] at hstep
      obtain rfl := Option.some.inj hstep
      have hfree : ∀ c, c ≠ sock → s.heap.free sock c = s.heap c :=
        fun c hc => Function.update_of_ne hc ..
      refine ⟨l, h.congr (fun c hc => hfree c ?_) _ (by simp) fun index c hc => ?_⟩
      · rintro rfl
        exact hnew hc
      · obtain ⟨-, hmainc, node', hnode'⟩ := h.freeing index c hc
        refine ⟨by simp, node', (hfree c ?_).trans hnode'⟩
        rintro rfl
        exact hmainc hmain

theorem Kept.removeSocketObj (h : Kept s l) (hchild : s.child = .handleIo index sock)
    (hstep : step s (.handleIo .removed) = some s') : Kept s' (l.erase sock) := by
  have hmem : sock ∈ l := by
    have hplace := h.place
    rwa [hchild] at hplace
  obtain ⟨heap, head, tail, hunlink, hlinked, hdata, hother⟩ := h.linked.unlink h.nodup hmem
  simp only [step, hchild, EventArray.removeSocketObj, hunlink, Option.map_some,
    Option.some.injEq] at hstep
  subst hstep
  have hlength := List.length_erase_of_mem hmem
  have hsome : ∀ c, (∃ node, s.heap c = some node) → ∃ node, heap c = some node := by
    rintro c ⟨node, hnode⟩
    have hc : (heap c).map Node.data = some node.data := by
      rw [hdata c, hnode, Option.map_some]
    obtain ⟨node', hnode', -⟩ := Option.map_eq_some_iff.mp hc
    exact ⟨node', hnode'⟩
  refine ⟨hlinked, h.nodup.erase sock, ?_, ?_, by simp [ChildThread.rebuilds], trivial,
    fun c hc => ?_, fun i c hc => ?_⟩
  · rw [hlength, h.count]
  · exact Nat.le_trans (List.erase_sublist.length_le) h.bound
  · obtain ⟨hnew, hnode⟩ := h.inserting c hc
    exact ⟨fun hc' => hnew (List.mem_of_mem_erase hc'), hsome c hnode⟩
  · obtain ⟨-, rfl⟩ := ChildThread.free.inj hc
    refine ⟨h.nodup.not_mem_erase, fun hmain => ?_, hsome sock (h.exists_node hmem)⟩
    exact (h.inserting sock hmain).1 hmem

theorem Kept.renumber (h : Kept s l) (hchild : s.child = .renumber i)
    (hstep : step s .renumber = some s') : Kept s' l := by
  obtain ⟨events, hcollect, hevents⟩ := h.linked.1.collect h.bound
  simp only [step, hchild, renumberThreadArray, hcollect, Option.map_some,
    Option.some.injEq] at hstep
  subst hstep
  have hlength : events.length = l.length := by
    have := congrArg List.length hevents
    rwa [List.length_map, List.length_map] at this
  refine ⟨h.linked, h.nodup, h.count, h.bound, fun _ j c hc => ?_, trivial, h.inserting, by simp⟩
  have hlt : j < l.length := (List.getElem?_eq_some_iff.mp hc).1
  have hj := congrArg (·[j]?) hevents
  simp only [List.getElem?_map, hc, Option.map_some] at hj
  have hin : 0 < j + 1 ∧ j + 1 ≤ events.length := ⟨Nat.succ_pos j, by omega⟩
  simp only [if_pos hin, Nat.add_sub_cancel]
  cases hev : events[j]? with
  | none =>
      rw [List.getElem?_eq_none_iff] at hev
      omega
  | some ev =>
      rw [hev, Option.map_some] at hj
      exact Option.some.inj hj

theorem Kept.free (h : Kept s l) (hchild : s.child = .free index sock)
    (hstep : step s .free = some s') : Kept s' l := by
  obtain ⟨hmem, hmain, -⟩ := h.freeing index sock hchild
  simp only [step, hchild, Option.some.injEq] at hstep
  subst hstep
  have hfree : ∀ c, c ≠ sock → s.heap.free sock c = s.heap c :=
    fun c hc => Function.update_of_ne hc ..
  have hother : ∀ c ∈ l, s.heap.free sock c = s.heap c := by
    refine fun c hc => hfree c ?_
    rintro rfl
    exact hmem hc
  refine ⟨h.linked.congr hother, h.nodup, h.count, h.bound, by simp [ChildThread.rebuilds],
    trivial, fun c hc => ?_, by simp⟩
  obtain ⟨hnew, node, hnode⟩ := h.inserting c hc
  refine ⟨hnew, node, (hfree c ?_).trans hnode⟩
  rintro rfl
  exact hmain hc

omit [DecidableEq α] in
theorem Kept.polled {rc : WaitResult} (h : Kept s l) (hchild : s.child = .poll i)
    (hpolled : EventArray.polled s i rc = some child) : Kept { s with child := child } l := by
  have hle : i ≤ l.length := by
    have hplace := h.place
    rwa [hchild] at hplace
  have hsteady : s.child.rebuilds = false := by
    rw [hchild]
    rfl
  cases rc with
  | failed =>
      obtain rfl := Option.some.inj hpolled
      exact h.setChild s.event (fun _ => hsteady) trivial (by simp)
  | timeout =>
      simp only [EventArray.polled, Option.ite_none_left_eq_some, Option.some.injEq] at hpolled
      obtain ⟨-, rfl⟩ := hpolled
      exact h.setChild s.event (fun _ => hsteady) trivial (by simp)
  | signalled =>
      simp only [EventArray.polled] at hpolled
      split at hpolled
      case isTrue hzero =>
        simp only [Option.ite_none_right_eq_some, Option.some.injEq] at hpolled
        obtain ⟨-, rfl⟩ := hpolled
        exact h.setChild s.event (fun _ => hsteady) trivial (by simp)
      case isFalse hpos =>
        obtain ⟨ev, hev, rfl⟩ := Option.map_eq_some_iff.mp hpolled
        exact h.setChild s.event (fun _ => hsteady) ⟨Nat.pos_of_ne_zero hpos, hle, hev⟩ (by simp)

omit [DecidableEq α] in
theorem Kept.find {ev : H} (h : Kept s l) (hchild : s.child = .find index ev) :
    ∃ sock node, findSocketObj s.heap s.thread (index - 1) = some (some sock) ∧ sock ∈ l ∧
      s.heap sock = some node ∧ node.data = ev := by
  have hplace := h.place
  rw [hchild] at hplace
  obtain ⟨hpos, hle, hev⟩ := hplace
  have hlt : index - 1 < l.length := by omega
  have hsock : l[index - 1]? = some l[index - 1] := List.getElem?_eq_getElem hlt
  obtain ⟨node, hnode⟩ := h.exists_node (List.getElem_mem hlt)
  refine ⟨l[index - 1], node, ?_, List.getElem_mem hlt, hnode, ?_⟩
  · rw [findSocketObj, h.linked.1.walk (Nat.le_of_lt hlt), hsock]
  · have hdata := h.array (by rw [hchild]; rfl) (index - 1) _ hsock
    rw [Nat.sub_add_cancel hpos, hev, hnode, Option.map_some] at hdata
    exact (Option.some.inj hdata).symm

theorem Kept.step (h : Kept s l) (hstep : EventArray.step s a = some s') : ∃ l', Kept s' l' := by
  cases a with
  | getSocketObj sock event => exact ⟨l, h.getSocketObj hstep⟩
  | insertSocketObj => exact h.insertSocketObj hstep
  | setEvent =>
      simp only [EventArray.step, mainStep] at hstep
      split at hstep
      case h_1 =>
        obtain rfl := Option.some.inj hstep
        exact ⟨l, h.linked, h.nodup, h.count, h.bound, h.array, h.place, by simp,
          fun index c hc => ⟨(h.freeing index c hc).1, by simp, (h.freeing index c hc).2.2⟩⟩
      case h_2 => cases hstep
  | wait rc =>
      cases hchild : s.child with
      | wait =>
          cases rc <;>
            · simp only [EventArray.step, hchild, Option.some.injEq] at hstep
              subst hstep
              exact ⟨l, h.setChild s.event (fun _ => by rw [hchild]; rfl) trivial (by simp)⟩
      | _ => simp [hchild] at hstep
  | test =>
      simp only [EventArray.step] at hstep
      split at hstep
      case h_2 => cases hstep
      case h_1 i hchild =>
        obtain rfl := Option.some.inj hstep
        refine ⟨l, h.setChild s.event (fun _ => by rw [hchild]; rfl) ?_ ?_⟩
        · split
          case isTrue hlt =>
            rw [h.count] at hlt
            exact Nat.le_of_lt_succ hlt
          case isFalse => trivial
        · intro index sock
          split <;> simp
  | poll rc =>
      simp only [EventArray.step] at hstep
      split at hstep
      case h_2 => cases hstep
      case h_1 i hchild =>
        obtain ⟨child, hpolled, rfl⟩ := Option.map_eq_some_iff.mp hstep
        exact ⟨l, h.polled hchild hpolled⟩
  | resetEvent =>
      simp only [EventArray.step] at hstep
      split at hstep
      case h_2 => cases hstep
      case h_1 hchild =>
        obtain rfl := Option.some.inj hstep
        exact ⟨l, h.setChild false (fun _ => by rw [hchild]; rfl) trivial (by simp)⟩
  | renumber =>
      cases hchild : s.child with
      | renumber i => exact ⟨l, h.renumber hchild hstep⟩
      | _ => simp [hchild] at hstep
  | find =>
      cases hchild : s.child with
      | find index ev =>
          obtain ⟨sock, node, hfind, hmem, -, -⟩ := h.find hchild
          simp only [EventArray.step, hchild, hfind, Option.map_some, Option.some.injEq] at hstep
          subst hstep
          exact ⟨l, h.setChild s.event (fun _ => by rw [hchild]; rfl) hmem (by simp)⟩
      | _ => simp [hchild] at hstep
  | handleIo rc =>
      cases hchild : s.child with
      | handleIo index sock =>
          cases rc with
          | removed => exact ⟨l.erase sock, h.removeSocketObj hchild hstep⟩
          | noError | error =>
              simp only [EventArray.step, hchild, Option.some.injEq] at hstep
              subst hstep
              exact ⟨l, h.setChild s.event (fun _ => by rw [hchild]; rfl) trivial (by simp)⟩
      | _ => simp [hchild] at hstep
  | free =>
      cases hchild : s.child with
      | free index sock => exact ⟨l, h.free hchild hstep⟩
      | _ => simp [hchild] at hstep

end Kept

/-- In every interleaving of the main thread with a child thread the list is well-formed and
as long as `SocketCount` says, and the socket found for a signalled event has this event. -/
theorem signalled_socket_found {s : State α H} {as : List (Action α H)}
    (hrun : RunsTo step Always start as s) :
    ∃ l, Linked s.heap s.thread.socketList s.thread.socketListEnd l ∧ l.Nodup ∧
      s.thread.socketCount = l.length ∧ s.thread.socketCount ≤ maximumWaitObjects - 1 ∧
      ∀ index ev, s.child = .find index ev →
        ∃ sock node, findSocketObj s.heap s.thread (index - 1) = some (some sock) ∧
          s.heap sock = some node ∧ s.thread.handles index = some node.data ∧ node.data = ev := by
  obtain ⟨l, h⟩ : ∃ l, Kept s l :=
    hrun.invariant (fun s => ∃ l, Kept s l) ⟨[], kept_start⟩
      fun _ _ _ ⟨_, h⟩ _ hstep => h.step hstep
  refine ⟨l, h.linked, h.nodup, h.count, h.count ▸ h.bound, fun index ev hchild => ?_⟩
  obtain ⟨sock, node, hfind, -, hnode, hdata⟩ := h.find hchild
  have hplace := h.place
  rw [hchild] at hplace
  exact ⟨sock, node, hfind, hnode, hdata ▸ hplace.2.2, hdata⟩

/-- Three sockets; the child thread removes the first one, a fourth one is inserted before the
array has been rebuilt, and the scan goes on at the second place. -/
def removeAndInsert : List (Action ℕ ℕ) :=
  [.getSocketObj 1 11, .insertSocketObj, .setEvent, .getSocketObj 2 12, .insertSocketObj,
    .setEvent, .getSocketObj 3 13, .insertSocketObj, .wait .signalled, .test, .poll .signalled,
    .resetEvent, .renumber, .test, .poll .timeout, .test, .poll .timeout, .test,
    .wait .signalled, .test, .poll .timeout, .test, .poll .signalled, .find,
    .handleIo .removed, .setEvent, .getSocketObj 4 14, .insertSocketObj, .free, .renumber,
    .test, .poll .signalled]

theorem signalled_socket_found_removeAndInsert :
    ∃ s : State ℕ ℕ, RunsTo step Always start removeAndInsert s ∧
      ∃ sock node, findSocketObj s.heap s.thread 1 = some (some sock) ∧
        s.heap sock = some node ∧ s.thread.handles 2 = some node.data ∧ node.data = 13 := by
  have hrun : RunsTo step Always start removeAndInsert _ := RunsTo.of_isSome (by decide)
  obtain ⟨l, -, -, -, -, hfound⟩ := signalled_socket_found hrun
  exact ⟨_, hrun, hfound 2 13 (by rfl)⟩

end MiscProjects.Echo.EventArray
