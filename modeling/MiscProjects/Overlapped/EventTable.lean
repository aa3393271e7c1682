import Mathlib.Algebra.Ring.Nat
import Mathlib.Data.List.Basic
import Mathlib.Logic.Function.Basic
import MiscProjects.Library.Runs

/-!
# The event tables of the overlapped server

Every overlapped operation is assigned to a thread, which waits on the events of its
buffers.  Any thread may assign and remove buffers; only the thread itself rebuilds its
array of handles.  A step is one critical section, one reading of `EventCount`, or one
call of the system; buffers are named by their events.
-/

namespace MiscProjects.Overlapped.EventTable

open Function (update update_self update_of_ne)
open Runs

variable {H : Type*}

def maximumWaitObjects : ℕ := 64

/-! ## Threads -/

/-- A `THREAD_OBJ`; `handles 0` stands for the thread's own event and is not used.  The last
field tells whether the array has been rebuilt since the last removal. -/
structure ThreadObj (H : Type*) where
  bufferList : List H
  eventCount : ℕ
  event : Bool
  handles : ℕ → Option H
  renumbered : Bool

def getThreadObj : ThreadObj H where
  bufferList := []
  eventCount := 1
  event := false
  handles := fun _ => none
  renumbered := true

/-- `InsertBufferObjToThread`; `none` if the thread is full. -/
def insertBufferObjToThread (thread : ThreadObj H) (buf : H) : Option (ThreadObj H) :=
  if thread.eventCount < maximumWaitObjects - 1 then
    some { thread with
      bufferList := thread.bufferList ++ [buf]
      handles := update thread.handles thread.eventCount (some buf)
      eventCount := thread.eventCount + 1 }
  else none

def renumberEvents (thread : ThreadObj H) : ThreadObj H :=
  { thread with
    eventCount := thread.bufferList.length + 1
    handles := fun i =>
      if 0 < i ∧ i ≤ thread.bufferList.length then thread.bufferList[i - 1]?
      else thread.handles i
    renumbered := true }

/-- The critical section of `RemoveBufferFromThread`. -/
def removeBufferFromThread [DecidableEq H] (thread : ThreadObj H) (buf : H) : ThreadObj H :=
  { thread with
    bufferList := thread.bufferList.erase buf
    eventCount := thread.eventCount - 1
    event := true
    renumbered := false }

def findBufferObj [DecidableEq H] (thread : ThreadObj H) (hEvent : H) : Option H :=
  thread.bufferList.find? (· = hEvent)

/-- What `IoThread` does next. -/
inductive IoThread (H : Type*)
  | renumber
  | wait
  | readCount
  | scan (i count : ℕ)
  | reset (i count : ℕ)
  | find (i count : ℕ)
  | search (i count : ℕ) (hEvent : Option H)
  | handleIo (i count : ℕ) (buf : Option H)
  | exited

/-- What the caller of `AssignIoToThread` does next; it is in `gThreadListCritSec`. -/
inductive Assigning (H : Type*)
  | insert (buf : H) (threads : List ℕ)
  | insertNew (buf : H) (thread : ℕ)
  | link (buf : H) (thread : ℕ)
  | setThread (buf : H) (thread : ℕ)
  | setEvent (thread : ℕ)

/-- The threads are numbered in the order in which they have been created; `assignedTo` is the
field `Thread` of a buffer. -/
structure State (H : Type*) where
  gChildThreads : List ℕ
  created : ℕ
  threads : ℕ → ThreadObj H
  next : ℕ → IoThread H
  assigning : Option (Assigning H)
  assignedTo : H → Option ℕ

def start : State H where
  gChildThreads := []
  created := 0
  threads := fun _ => getThreadObj
  next := fun _ => .exited
  assigning := none
  assignedTo := fun _ => none

inductive WaitResult
  | signalled
  | invalidHandle
  | failed
deriving DecidableEq

inductive Action (H : Type*)
  | assignIoToThread (buf : H)
  | assign
  | removeBufferFromThread (buf : H)
  | wait (t : ℕ) (rc : WaitResult)
  | poll (t : ℕ) (signalled : Bool)
  | io (t : ℕ)

namespace State
variable (s : State H) (t : ℕ)

def setThread (thread : ThreadObj H) : State H := { s with threads := update s.threads t thread }

def setNext (io : IoThread H) : State H := { s with next := update s.next t io }

/-- What `WaitForSingleObject` says about an event; a closed one counts as signalled. -/
def polled (i count : ℕ) (signalled : Bool) : Option (State H) :=
  if i < count then
    if i = 0 ∧ signalled ≠ (s.threads t).event then none
    else some (s.setNext t (if signalled then .reset i count else .scan (i + 1) count))
  else some (s.setNext t .wait)

end State

namespace State
variable [DecidableEq H] (s : State H) (t : ℕ)

/-- The next step of `AssignIoToThread`. -/
def assignStep : Assigning H → State H
  | .insert buf (t :: threads) =>
      match insertBufferObjToThread (s.threads t) buf with
      | some thread => { s.setThread t thread with assigning := some (.setThread buf t) }
      | none => { s with assigning := some (.insert buf threads) }
  | .insert buf [] =>
      { (s.setThread s.created getThreadObj).setNext s.created .renumber with
        created := s.created + 1
        assigning := some (.insertNew buf s.created) }
  | .insertNew buf t =>
      { s.setThread t ((insertBufferObjToThread (s.threads t) buf).getD (s.threads t)) with
        assigning := some (.link buf t) }
  | .link buf t =>
      { s with gChildThreads := t :: s.gChildThreads, assigning := some (.setThread buf t) }
  | .setThread buf t =>
      { s with assignedTo := update s.assignedTo buf (some t), assigning := some (.setEvent t) }
  | .setEvent t =>
      { s.setThread t { s.threads t with event := true } with assigning := none }

/-- The other steps of `IoThread`. -/
def ioStep : IoThread H → Option (State H)
  | .renumber => some ((s.setThread t (renumberEvents (s.threads t))).setNext t .wait)
  | .readCount => some (s.setNext t (.scan 0 (s.threads t).eventCount))
  | .reset i count =>
      if i = 0 then
        some ((s.setThread t { s.threads t with event := false }).setNext t .renumber)
      else some (s.setNext t (.find i count))
  | .find i count => some (s.setNext t (.search i count ((s.threads t).handles i)))
  | .search i count hEvent =>
      some (s.setNext t (.handleIo i count (hEvent.bind (findBufferObj (s.threads t)))))
  | .handleIo i count _ => some (s.setNext t (.scan (i + 1) count))
  | _ => none

def step : Action H → Option (State H)
  | .assignIoToThread buf =>
      match s.assigning, s.assignedTo buf with
      | none, none => some { s with assigning := some (.insert buf s.gChildThreads) }
      | _, _ => none
  | .assign => s.assigning.map s.assignStep
  | .removeBufferFromThread buf =>
      (s.assignedTo buf).bind fun t =>
        if buf ∈ (s.threads t).bufferList then
          some { s.setThread t (EventTable.removeBufferFromThread (s.threads t) buf) with
            assignedTo := update s.assignedTo buf none }
        else none
  | .wait t rc =>
      match s.next t with
      | .wait =>
          some (s.setNext t
            (match rc with
              | .signalled => .readCount
              | .invalidHandle => .renumber
              | .failed => .exited))
      | _ => none
  | .poll t signalled =>
      match s.next t with
      | .scan i count => s.polled t i count signalled
      | _ => none
  | .io t => s.ioStep t (s.next t)

end State

/-- The places of the array at which the scan of the thread has still to look; a scan that
begins looks first whether the array has to be rebuilt. -/
def IoThread.places : IoThread H → List ℕ
  | .scan i count | .reset i count | .find i count =>
      if i = 0 then [] else List.range' i (count - i)
  | .search i count _ | .handleIo i count _ => List.range' (i + 1) (count - (i + 1))
  | _ => []

/-- The event for which the thread is going to search the list. -/
def IoThread.searched : IoThread H → Option H
  | .search _ _ hEvent => hEvent
  | _ => none

/-- The thread to whose list the next step of `AssignIoToThread` tries to append. -/
def Assigning.target : Assigning H → Option ℕ
  | .insert _ (t :: _) => some t
  | .insertNew _ t => some t
  | _ => none

/-- The place of the next insertion does not hold the event of a buffer in the list. -/
def Overwrites (thread : ThreadObj H) : Prop :=
  thread.eventCount < maximumWaitObjects - 1 ∧
    ∃ b ∈ thread.bufferList, thread.handles thread.eventCount = some b

instance [DecidableEq H] (thread : ThreadObj H) : Decidable (Overwrites thread) :=
  inferInstanceAs (Decidable (_ ∧ ∃ b ∈ thread.bufferList, _))

/-- No insertion overwrites the event of a listed buffer, and no buffer is removed at which
the scan of its thread has still to look. -/
def Orderly (s : State H) : Action H → Prop
  | .assign => ∀ t ∈ s.assigning.bind Assigning.target, ¬ Overwrites (s.threads t)
  | .removeBufferFromThread buf =>
      ∀ t ∈ s.assignedTo buf, (s.next t).searched ≠ some buf ∧
        ∀ j ∈ (s.next t).places, (s.threads t).handles j ≠ some buf
  | _ => True

instance [DecidableEq H] (s : State H) (a : Action H) : Decidable (Orderly s a) :=
  match a with
  | .assign => inferInstanceAs
      (Decidable (∀ t ∈ s.assigning.bind Assigning.target, ¬ Overwrites (s.threads t)))
  | .removeBufferFromThread buf => inferInstanceAs
      (Decidable (∀ t ∈ s.assignedTo buf, (s.next t).searched ≠ some buf ∧
        ∀ j ∈ (s.next t).places, (s.threads t).handles j ≠ some buf))
  | .assignIoToThread _ => inferInstanceAs (Decidable True)
  | .wait _ _ => inferInstanceAs (Decidable True)
  | .poll _ _ => inferInstanceAs (Decidable True)
  | .io _ => inferInstanceAs (Decidable True)

/-! ## What holds of one thread -/

/-- The array holds the events of the list in order. -/
def InOrder (thread : ThreadObj H) : Prop :=
  ∀ k b, thread.bufferList[k]? = some b → thread.handles (k + 1) = some b

/-- What the places in the loop rely on. -/
def IoThread.Place (thread : ThreadObj H) : IoThread H → Prop
  | .scan 0 count => thread.event = true ∨ InOrder thread ∧ count ≤ thread.eventCount
  | .reset i count => i < count
  | .find i count => 0 < i ∧ i < count
  | .search _ _ hEvent => ∃ b ∈ thread.bufferList, hEvent = some b
  | .handleIo _ _ buf => buf ≠ none
  | _ => True

structure Sound (thread : ThreadObj H) (io : IoThread H) : Prop where
  count : thread.eventCount = thread.bufferList.length + 1
  bound : thread.eventCount ≤ maximumWaitObjects - 1
  listed : ∀ b ∈ thread.bufferList, ∃ j, 0 < j ∧ j < maximumWaitObjects ∧ thread.handles j = some b
  inOrder : thread.renumbered = true → InOrder thread
  signalled : thread.renumbered = true ∨ thread.event = true ∨ io = .renumber
  ahead : ∀ j ∈ io.places, ∃ b ∈ thread.bufferList, thread.handles j = some b
  place : io.Place thread

section Sound
variable {thread thread' : ThreadObj H} {io : IoThread H} {buf : H}

theorem sound_getThreadObj {io : IoThread H} (hio : io = .renumber ∨ io = .exited) :
    Sound getThreadObj io where
  count := rfl
  bound := Nat.succ_le_succ (Nat.zero_le 62)
  listed := by simp [getThreadObj]
  inOrder := fun _ => by simp [InOrder, getThreadObj]
  signalled := .inl rfl
  ahead := by rcases hio with rfl | rfl <;> simp [IoThread.places]
  place := by rcases hio with rfl | rfl <;> trivial

theorem Sound.insert (h : Sound thread io) (hkeeps : ¬ Overwrites thread)
    (hinsert : insertBufferObjToThread thread buf = some thread') : Sound thread' io := by
  simp only [insertBufferObjToThread, Option.ite_none_right_eq_some, Option.some.injEq] at hinsert
  obtain ⟨hroom, rfl⟩ := hinsert
  have hother : ∀ j, j ≠ thread.eventCount →
      update thread.handles thread.eventCount (some buf) j = thread.handles j :=
    fun j hj => update_of_ne hj ..
  have horder : InOrder thread → InOrder { thread with
      bufferList := thread.bufferList ++ [buf]
      handles := update thread.handles thread.eventCount (some buf)
      eventCount := thread.eventCount + 1 } := by
    intro horder k b hb
    rcases Nat.lt_or_ge k thread.bufferList.length with hlt | hge
    · rw [List.getElem?_append_left hlt] at hb
      exact (hother _ (by rw [h.count]; omega)).trans (horder k b hb)
    · rw [List.getElem?_append_right hge, List.getElem?_singleton] at hb
      split at hb
      case isFalse => cases hb
      case isTrue hzero =>
        have hk : k + 1 = thread.eventCount := by
          rw [h.count]
          omega
        rw [← hb, hk]
        exact update_self ..
  have hevent : ∀ j, (∃ b ∈ thread.bufferList, thread.handles j = some b) →
      ∃ b ∈ thread.bufferList ++ [buf],
        update thread.handles thread.eventCount (some buf) j = some b := by
    rintro j ⟨b, hmem, hb⟩
    by_cases hj : j = thread.eventCount
    · exact ⟨buf, List.mem_append_right _ (List.mem_singleton_self buf), by rw [hj, update_self]⟩
    · exact ⟨b, List.mem_append_left _ hmem, (hother j hj).trans hb⟩
  refine ⟨?_, ?_, fun b hb => ?_, fun hre => horder (h.inOrder hre), h.signalled,
    fun j hj => hevent j (h.ahead j hj), ?_⟩
  · rw [h.count, List.length_append, List.length_singleton]
  · exact hroom
  · rcases List.mem_append.mp hb with hb | hb
    · obtain ⟨j, hpos, hlt, hj⟩ := h.listed b hb
      refine ⟨j, hpos, hlt, (hother j ?_).trans hj⟩
      rintro rfl
      exact hkeeps ⟨hroom, b, hb, hj⟩
    · rw [List.mem_singleton] at hb
      subst hb
      refine ⟨thread.eventCount, ?_, ?_, update_self ..⟩
      · rw [h.count]
        omega
      · exact Nat.lt_of_lt_of_le hroom (Nat.sub_le _ _)
  · have hplace := h.place
    cases io with
    | scan i count =>
        cases i with
        | zero => exact hplace.imp_right fun hboth => ⟨horder hboth.1, Nat.le_succ_of_le hboth.2⟩
        | succ i => trivial
    | search i count hEvent =>
        obtain ⟨b, hmem, hb⟩ := hplace
        exact ⟨b, List.mem_append_left _ hmem, hb⟩
    | _ => exact hplace

theorem Sound.remove [DecidableEq H] (h : Sound thread io) (hmem : buf ∈ thread.bufferList)
    (hsearched : io.searched ≠ some buf) (hplaces : ∀ j ∈ io.places, thread.handles j ≠ some buf) :
    Sound (removeBufferFromThread thread buf) io := by
  have hlength := List.length_erase_of_mem hmem
  have hpos := List.length_pos_of_mem hmem
  refine ⟨?_, ?_, fun b hb => h.listed b (List.mem_of_mem_erase hb), by
    simp [removeBufferFromThread], .inr (.inl rfl), fun j hj => ?_, ?_⟩
  · simp only [removeBufferFromThread, hlength, h.count]
    omega
  · exact Nat.le_trans (Nat.sub_le _ _) h.bound
  · obtain ⟨b, hb, hj'⟩ := h.ahead j hj
    refine ⟨b, (List.mem_erase_of_ne ?_).mpr hb, hj'⟩
    rintro rfl
    exact hplaces j hj hj'
  · have hplace := h.place
    cases io with
    | scan i count =>
        cases i with
        | zero => exact .inl rfl
        | succ i => trivial
    | search i count hEvent =>
        obtain ⟨b, hb, rfl⟩ := hplace
        refine ⟨b, (List.mem_erase_of_ne ?_).mpr hb, rfl⟩
        rintro rfl
        exact hsearched rfl
    | _ => exact hplace

theorem Sound.signal (h : Sound thread io) : Sound { thread with event := true } io := by
  refine ⟨h.count, h.bound, h.listed, h.inOrder, .inr (.inl rfl), h.ahead, ?_⟩
  have hplace := h.place
  cases io with
  | scan i count =>
      cases i with
      | zero => exact .inl rfl
      | succ i => trivial
  | _ => exact hplace

theorem Sound.renumber (h : Sound thread io) : Sound (renumberEvents thread) .wait := by
  have horder : InOrder (renumberEvents thread) := by
    intro k b hb
    have hlt : k < thread.bufferList.length := (List.getElem?_eq_some_iff.mp hb).1
    have hin : 0 < k + 1 ∧ k + 1 ≤ thread.bufferList.length := ⟨Nat.succ_pos k, hlt⟩
    simp only [renumberEvents, if_pos hin, Nat.add_sub_cancel]
    exact hb
  refine ⟨rfl, ?_, fun b hb => ?_, fun _ => horder, .inl rfl, by simp [IoThread.places], trivial⟩
  · have hbound := h.bound
    rwa [h.count] at hbound
  · obtain ⟨k, hlt, hk⟩ := List.getElem_of_mem hb
    refine ⟨k + 1, Nat.succ_pos k, ?_, horder k b (by rw [List.getElem?_eq_getElem hlt, hk])⟩
    have hbound := h.bound
    rw [h.count, maximumWaitObjects] at hbound
    rw [maximumWaitObjects]
    have hlt' : k < thread.bufferList.length := hlt
    omega

end Sound

/-! ## Runs -/

def AllSound (s : State H) : Prop := ∀ t, Sound (s.threads t) (s.next t)

section AllSound
variable {s s' : State H} {t : ℕ} {thread : ThreadObj H} {io : IoThread H}

theorem AllSound.set (h : AllSound s) (hsound : Sound thread io)
    (hthreads : s'.threads = update s.threads t thread) (hnext : s'.next = update s.next t io) :
    AllSound s' := by
  intro u
  rw [hthreads, hnext]
  by_cases hu : u = t
  · rw [hu, update_self, update_self]
    exact hsound
  · rw [update_of_ne hu, update_of_ne hu]
    exact h u

theorem AllSound.setThread (h : AllSound s) (hsound : Sound thread (s.next t))
    (hthreads : s'.threads = update s.threads t thread) (hnext : s'.next = s.next) : AllSound s' :=
  h.set hsound hthreads (hnext.trans (Function.update_eq_self t s.next).symm)

theorem AllSound.setNext (h : AllSound s) (hsound : Sound (s.threads t) io) :
    AllSound (s.setNext t io) :=
  h.set hsound (Function.update_eq_self t s.threads).symm rfl

theorem allSound_start : AllSound (start : State H) := fun _ => sound_getThreadObj (.inr rfl)

theorem Sound.goto (h : Sound thread io) {io' : IoThread H} (hio : io ≠ .renumber)
    (hahead : ∀ j ∈ io'.places, ∃ b ∈ thread.bufferList, thread.handles j = some b)
    (hplace : io'.Place thread) : Sound thread io' :=
  ⟨h.count, h.bound, h.listed, h.inOrder,
    h.signalled.imp_right fun hor => .inl (hor.resolve_right hio), hahead, hplace⟩

variable [DecidableEq H]

theorem AllSound.assign {place : Assigning H} (h : AllSound s)
    (hkeeps : ∀ t ∈ place.target, ¬ Overwrites (s.threads t)) : AllSound (s.assignStep place) := by
  cases place with
  | insert buf threads =>
      cases threads with
      | nil =>
          simp only [State.assignStep]
          exact h.set (sound_getThreadObj (.inl rfl)) rfl rfl
      | cons t threads =>
          simp only [State.assignStep]
          split
          case h_1 thread hinsert =>
            exact h.setThread ((h t).insert (hkeeps t rfl) hinsert) rfl rfl
          case h_2 => exact h
  | insertNew buf t =>
      simp only [State.assignStep]
      cases hinsert : insertBufferObjToThread (s.threads t) buf with
      | none => exact h.setThread (h t) rfl rfl
      | some thread => exact h.setThread ((h t).insert (hkeeps t rfl) hinsert) rfl rfl
  | link buf t => exact h
  | setThread buf t => exact h
  | setEvent t => exact h.setThread (h t).signal rfl rfl

omit [DecidableEq H] in
theorem AllSound.polled {i count : ℕ} {signalled : Bool} (h : AllSound s)
    (hscan : s.next t = .scan i count) (hstep : s.polled t i count signalled = some s') :
    AllSound s' := by
  have hsound := h t
  rw [hscan] at hsound
  have hahead := hsound.ahead
  have hplace := hsound.place
  simp only [State.polled] at hstep
  split at hstep
  case isFalse =>
    obtain rfl := Option.some.inj hstep
    exact h.setNext (hsound.goto (by simp) (by simp [IoThread.places]) trivial)
  case isTrue hlt =>
    simp only [Option.ite_none_left_eq_some, Option.some.injEq] at hstep
    obtain ⟨hevent, rfl⟩ := hstep
    cases signalled with
    | true => exact h.setNext (hsound.goto (by simp) hahead hlt)
    | false =>
        refine h.setNext (hsound.goto (by simp) (fun j hj => ?_) trivial)
        simp only [Bool.false_eq_true, if_false, IoThread.places, Nat.succ_ne_zero,
          List.mem_range'_1] at hj
        cases i with
        | zero =>
            -- The thread's own event was not signalled, so that the array is in order.
            have hquiet : (s.threads t).event ≠ true := by
              intro htrue
              exact hevent ⟨rfl, by rw [htrue]; exact Bool.false_ne_true⟩
            obtain ⟨horder, hcount⟩ := Or.resolve_left hplace hquiet
            rw [hsound.count] at hcount
            have hin : j - 1 < (s.threads t).bufferList.length := by omega
            refine ⟨_, List.getElem_mem hin, ?_⟩
            have hj' := horder (j - 1) _ (List.getElem?_eq_getElem hin)
            rwa [Nat.sub_add_cancel (by omega)] at hj'
        | succ i =>
            refine hahead j ?_
            simp only [IoThread.places, Nat.succ_ne_zero, if_false, List.mem_range'_1]
            omega

theorem AllSound.ioStep (h : AllSound s) (hstep : s.ioStep t (s.next t) = some s') :
    AllSound s' := by
  have hsound := h t
  cases hio : s.next t with
  | renumber =>
      rw [hio] at hstep hsound
      obtain rfl := Option.some.inj hstep
      exact h.set hsound.renumber rfl rfl
  | readCount =>
      rw [hio] at hstep hsound
      obtain rfl := Option.some.inj hstep
      refine h.setNext (hsound.goto (by simp) (by simp [IoThread.places]) ?_)
      rcases hsound.signalled with hre | hevent | hnot
      · exact .inr ⟨hsound.inOrder hre, Nat.le_refl _⟩
      · exact .inl hevent
      · cases hnot
  | reset i count =>
      rw [hio] at hstep hsound
      have hlt : i < count := hsound.place
      simp only [State.ioStep] at hstep
      split at hstep
      case isTrue =>
        obtain rfl := Option.some.inj hstep
        have hreset : Sound { s.threads t with event := false } .renumber :=
          ⟨hsound.count, hsound.bound, hsound.listed, hsound.inOrder, .inr (.inr rfl),
            by simp [IoThread.places], trivial⟩
        exact h.set hreset rfl rfl
      case isFalse hpos =>
        obtain rfl := Option.some.inj hstep
        exact h.setNext (hsound.goto (by simp) hsound.ahead ⟨Nat.pos_of_ne_zero hpos, hlt⟩)
  | find i count =>
      rw [hio] at hstep hsound
      obtain ⟨hpos, hlt⟩ := hsound.place
      obtain rfl := Option.some.inj hstep
      have hahead := hsound.ahead
      simp only [IoThread.places, if_neg (Nat.ne_of_gt hpos), List.mem_range'_1] at hahead
      refine h.setNext (hsound.goto (by simp) (fun j hj => hahead j ?_) (hahead i (by omega)))
      simp only [IoThread.places, List.mem_range'_1] at hj
      omega
  | search i count hEvent =>
      rw [hio] at hstep hsound
      obtain ⟨b, hmem, rfl⟩ := hsound.place
      obtain rfl := Option.some.inj hstep
      refine h.setNext (hsound.goto (by simp) hsound.ahead ?_)
      simp only [IoThread.Place, Option.bind_some, findBufferObj]
      intro hnone
      have hnot := List.find?_eq_none.mp hnone b hmem
      simp at hnot
  | handleIo i count buf =>
      rw [hio] at hstep hsound
      obtain rfl := Option.some.inj hstep
      refine h.setNext (hsound.goto (by simp) (fun j hj => hsound.ahead j ?_) trivial)
      simpa only [IoThread.places, Nat.succ_ne_zero, if_false] using hj
  | wait | scan _ _ | exited =>
      rw [hio] at hstep
      cases hstep

theorem AllSound.step {a : Action H} (h : AllSound s) (horderly : Orderly s a)
    (hstep : s.step a = some s') : AllSound s' := by
  cases a with
  | assignIoToThread buf =>
      simp only [State.step] at hstep
      split at hstep
      case h_1 =>
        obtain rfl := Option.some.inj hstep
        exact h
      case h_2 => cases hstep
  | assign =>
      obtain ⟨place, hplace, rfl⟩ := Option.map_eq_some_iff.mp hstep
      simp only [Orderly, hplace, Option.bind_some] at horderly
      exact h.assign horderly
  | removeBufferFromThread buf =>
      obtain ⟨t, ht, hstep⟩ := Option.bind_eq_some_iff.mp hstep
      simp only [Option.ite_none_right_eq_some, Option.some.injEq] at hstep
      obtain ⟨hmem, rfl⟩ := hstep
      obtain ⟨hsearched, hplaces⟩ := horderly t ht
      exact h.setThread ((h t).remove hmem hsearched hplaces) rfl rfl
  | wait t rc =>
      simp only [State.step] at hstep
      split at hstep
      case h_2 => cases hstep
      case h_1 hwait =>
        obtain rfl := Option.some.inj hstep
        have hsound := h t
        rw [hwait] at hsound
        refine h.setNext ?_
        cases rc <;> exact hsound.goto (by simp) (by simp [IoThread.places]) trivial
  | poll t signalled =>
      simp only [State.step] at hstep
      split at hstep
      case h_1 i count hscan => exact h.polled hscan hstep
      case h_2 => cases hstep
  | io t => exact h.ioStep hstep

end AllSound

/-- In every interleaving in which no insertion overwrites the event of a listed buffer and no
buffer is removed at which a scan has still to look, the count is that of the list, every
listed event stays in the array, within the counted places once the thread has rebuilt it, and
`HandleIo` is called with a buffer. -/
theorem tables_agree [DecidableEq H] {s : State H} {as : List (Action H)}
    (hrun : RunsTo State.step Orderly start as s) (t : ℕ) :
    (s.threads t).eventCount = 1 + (s.threads t).bufferList.length ∧
      (s.threads t).eventCount ≤ maximumWaitObjects ∧
      (∀ b ∈ (s.threads t).bufferList,
        ∃ j, 0 < j ∧ j < maximumWaitObjects ∧ (s.threads t).handles j = some b) ∧
      ((s.threads t).renumbered = true → ∀ b ∈ (s.threads t).bufferList,
        ∃ j, 0 < j ∧ j < (s.threads t).eventCount ∧ (s.threads t).handles j = some b) ∧
      (∀ i count hEvent, s.next t = .search i count hEvent →
        ∃ b, hEvent = some b ∧ findBufferObj (s.threads t) b = some b) ∧
      ∀ i count buf, s.next t = .handleIo i count buf → buf ≠ none := by
  have hsound : Sound (s.threads t) (s.next t) :=
    hrun.invariant AllSound allSound_start (fun _ _ _ => AllSound.step) t
  have hbound := hsound.bound
  have hplace := hsound.place
  rw [maximumWaitObjects] at hbound
  refine ⟨by rw [hsound.count, Nat.add_comm], ?_, hsound.listed, fun hre b hb => ?_,
    fun i count hEvent hsearch => ?_, fun i count buf hhandle => ?_⟩
  · rw [maximumWaitObjects]
    omega
  · obtain ⟨k, hlt, hk⟩ := List.getElem_of_mem hb
    refine ⟨k + 1, Nat.succ_pos k, by rw [hsound.count]; omega, ?_⟩
    exact hsound.inOrder hre k b (by rw [List.getElem?_eq_getElem hlt, hk])
  · rw [hsearch] at hplace
    obtain ⟨b, hmem, rfl⟩ := hplace
    refine ⟨b, rfl, ?_⟩
    cases hfind : findBufferObj (s.threads t) b with
    | none =>
        have hnot := List.find?_eq_none.mp hfind b hmem
        simp at hnot
    | some c =>
        have hc := List.find?_some hfind
        exact congrArg some (of_decide_eq_true hc)
  · rw [hhandle] at hplace
    exact hplace

/-- Thread `0` is created with buffers `1`, `2` and `3`, rebuilds its array, and finds the
first event signalled. -/
def firstSignalled : List (Action ℕ) :=
  [.assignIoToThread 1, .assign, .assign, .assign, .assign, .assign,
    .assignIoToThread 2, .assign, .assign, .assign, .assignIoToThread 3, .assign, .assign,
    .assign, .io 0, .wait 0 .signalled, .io 0, .poll 0 true, .io 0, .io 0, .wait 0 .signalled,
    .io 0, .poll 0 false, .poll 0 true, .io 0, .io 0]

theorem tables_agree_firstSignalled :
    ∃ s : State ℕ, RunsTo State.step Orderly start firstSignalled s ∧
      s.next 0 = .search 1 4 (some 1) ∧
      ∃ b, some 1 = some b ∧ findBufferObj (s.threads 0) b = some b := by
  have hrun : RunsTo State.step Orderly start firstSignalled _ := RunsTo.of_isSome (by decide)
  exact ⟨_, hrun, rfl, (tables_agree hrun 0).2.2.2.2.1 1 4 (some 1) rfl⟩

/-- Its handler removes the first buffer.  The handler of the second one assigns a fourth,
which overwrites the event of the third, and removes it when it could not be posted; the scan
goes on with the closed event. -/
def handlerFails : List (Action ℕ) :=
  firstSignalled ++
    [.io 0, .removeBufferFromThread 1, .io 0, .poll 0 true, .io 0, .io 0, .io 0,
      .assignIoToThread 4, .assign, .assign, .assign, .removeBufferFromThread 4, .io 0,
      .poll 0 true, .io 0, .io 0, .io 0]

theorem handleIo_without_buffer :
    ∃ s : State ℕ, RunsTo State.step Always start handlerFails s ∧
      s.next 0 = .handleIo 3 4 none ∧ 3 ∈ (s.threads 0).bufferList ∧
      ∀ j < maximumWaitObjects, (s.threads 0).handles j ≠ some 3 :=
  ⟨_, RunsTo.of_isSome (by decide), rfl, by decide, by decide⟩

end MiscProjects.Overlapped.EventTable
