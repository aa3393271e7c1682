import MiscProjects.Library.Runs
import MiscProjects.Lsp.Steps

/-!
# The copies of the buffer arrays

Without completion ports an overlapped `WSPSend`, `WSPSendTo`, `WSPRecv` or `WSPRecvFrom` is
executed after it has returned, so that the array of its `WSABUF` structures is copied.  The
copy goes with the operation to the worker, which calls the lower provider, and to the
completion routine, and should be freed there.

The events of one operation are listed in their order; what the heap, the lower provider and
the sockets do is an `Outcome`.
-/

namespace MiscProjects.Lsp.CopiedBuffers

open MiscProjects.Runs

/-! ## One operation -/

/-- The functions that copy their buffer array. -/
inductive EntryPoint
  | wspSend
  | wspSendTo
  | wspRecv
  | wspRecvFrom
deriving DecidableEq

def EntryPoint.operation : EntryPoint → Operation
  | .wspSend => .send
  | .wspSendTo => .sendTo
  | .wspRecv => .recv
  | .wspRecvFrom => .recvFrom

def noError : ℕ := 0
def wsaIoPending : ℕ := 997
def wsaENotSock : ℕ := 10038
def wsaENoBufs : ℕ := 10055

/-- What happens to an operation. -/
structure Outcome where
  /-- `FindAndLockSocketContext` finds the socket when the function is called. -/
  opened : Bool
  /-- `GetOverlappedStructure` returns a structure. -/
  structureFound : Bool
  /-- What `HeapAlloc` returns for the copy. -/
  heapAlloc : Option ℕ
  /-- The result of the lower provider. -/
  result : LowerResult
  /-- `FindAndLockSocketContext` finds the socket when the operation completes. -/
  stillOpen : Bool
  /-- The error of the completion. -/
  dwError : ℕ
  /-- The error of `WSPGetOverlappedResult`. -/
  overlappedResult : ℕ
deriving DecidableEq

inductive Event
  /-- The copy is made; `none` where there is no memory for it. -/
  | copyBuffer (buffers : Option ℕ)
  /-- The function of the lower provider is called with the array. -/
  | lowerCall (buffers : Option ℕ)
  | freeBuffer (buffers : Option ℕ)
  | putbackOverlappedStructure
  /-- The entry point returns `SOCKET_ERROR` with this error. -/
  | returned (lpErrno : ℕ)
deriving DecidableEq

/-- The arrays that `IntermediateCompletionRoutine` frees after a success. -/
def freeBuffer (operation : Operation) (buffers : Option ℕ) : List Event :=
  match operation with
  | .recv | .recvFrom | .send | .sendTo => [.freeBuffer buffers]
  | _ => []

/-- The error with which the operation is completed to the application. -/
def Outcome.completionError (o : Outcome) : ℕ :=
  if o.dwError = wsaIoPending then o.overlappedResult else o.dwError

def intermediateCompletionRoutine (operation : Operation) (o : Outcome) : List Event :=
  if o.stillOpen then
    (if o.completionError = noError then freeBuffer operation o.heapAlloc else []) ++
      [.putbackOverlappedStructure]
  else [.putbackOverlappedStructure]

/-- What the worker does with the operation, up to its completion. -/
def executeOverlappedOperation (operation : Operation) (o : Outcome) : List Event :=
  .lowerCall o.heapAlloc ::
    if keepsStructure operation o.result then intermediateCompletionRoutine operation o
    else [.putbackOverlappedStructure]

/-- An overlapped call and the operation it starts.  The result of `CopyBuffer` is not
tested. -/
def overlappedCall (f : EntryPoint) (o : Outcome) : List Event :=
  if o.opened = false then [.returned wsaENotSock]
  else if o.structureFound = false then [.returned wsaENoBufs]
  else
    [.copyBuffer o.heapAlloc, .returned wsaIoPending] ++
      executeOverlappedOperation f.operation o

/-! ## Statement -/

/-- The copy `a` is freed once, after the lower provider has been called with it and before the
structure is put back. -/
structure FreedOnce (events : List Event) (a : ℕ) : Prop where
  once : events.count (.freeBuffer (some a)) = 1
  afterCall : Precedes events (.lowerCall (some a)) (.freeBuffer (some a))
  beforePutback : Precedes events (.freeBuffer (some a)) .putbackOverlappedStructure

/-- The call has failed before anything has been passed down. -/
def Fails (events : List Event) : Prop :=
  (∀ buffers, .lowerCall buffers ∉ events) ∧ .returned wsaIoPending ∉ events

/-- The events of an operation are as they should be. -/
def Released (events : List Event) : Prop :=
  ∀ buffers, .copyBuffer buffers ∈ events →
    match buffers with
    | none => Fails events
    | some a => FreedOnce events a

/-- The copy is made, the provider accepts the operation, and its completion finds the socket
and brings no error. -/
def Succeeds (o : Outcome) : Prop :=
  o.heapAlloc ≠ none ∧ o.result ≠ .failed ∧ o.stillOpen = true ∧ o.completionError = noError

/-! ## The events -/

section Events
variable {f : EntryPoint} {o : Outcome} {events : List Event} {a : ℕ}

theorem keepsStructure_iff (f : EntryPoint) (result : LowerResult) :
    keepsStructure f.operation result = true ↔ result ≠ .failed := by
  cases f <;> cases result <;> decide

theorem freeBuffer_operation (f : EntryPoint) (buffers : Option ℕ) :
    freeBuffer f.operation buffers = [.freeBuffer buffers] := by
  cases f <;> rfl

theorem released_of_not_started (h : o.opened = false ∨ o.structureFound = false) :
    Released (overlappedCall f o) := by
  intro buffers hmem
  rw [overlappedCall] at hmem
  split at hmem
  · simp at hmem
  · next hopened =>
    rw [if_pos (h.resolve_left hopened)] at hmem
    simp at hmem

theorem overlappedCall_of_started (hopened : o.opened = true) (hfound : o.structureFound = true) :
    overlappedCall f o =
      .copyBuffer o.heapAlloc :: .returned wsaIoPending :: .lowerCall o.heapAlloc ::
        if o.result ≠ .failed ∧ o.stillOpen = true ∧ o.completionError = noError then
          [.freeBuffer o.heapAlloc, .putbackOverlappedStructure]
        else [.putbackOverlappedStructure] := by
  rw [overlappedCall, hopened, hfound, if_neg Bool.noConfusion, if_neg Bool.noConfusion,
    executeOverlappedOperation, intermediateCompletionRoutine, freeBuffer_operation]
  simp only [keepsStructure_iff]
  by_cases hresult : o.result = .failed
  · simp [hresult]
  · by_cases hopen : o.stillOpen = true
    · by_cases herror : o.completionError = noError <;> simp [hresult, hopen, herror]
    · simp [hresult, hopen]

/-- The events of an operation that has got a copy, with the last of them left open. -/
def withCopy (a : ℕ) (last : List Event) : List Event :=
  .copyBuffer (some a) :: .returned wsaIoPending :: .lowerCall (some a) :: last

theorem released_withCopy_iff {last : List Event} (hlast : ∀ buffers, .copyBuffer buffers ∉ last) :
    Released (withCopy a last) ↔ FreedOnce (withCopy a last) a := by
  constructor
  · intro h
    exact h (some a) List.mem_cons_self
  · intro h buffers hmem
    obtain rfl : buffers = some a := by simpa [withCopy, hlast] using hmem
    exact h

theorem freedOnce_of_success :
    FreedOnce (withCopy a [.freeBuffer (some a), .putbackOverlappedStructure]) a where
  once := by simp [withCopy]
  afterCall := by simp [withCopy, Precedes]
  beforePutback := by simp [withCopy, Precedes]

theorem not_freedOnce_of_putback : ¬ FreedOnce (withCopy a [.putbackOverlappedStructure]) a := by
  intro h
  have honce := h.once
  simp [withCopy] at honce

theorem not_released_of_no_memory {last : List Event} :
    ¬ Released (.copyBuffer none :: .returned wsaIoPending :: .lowerCall none :: last) := by
  intro h
  apply (h none List.mem_cons_self).1 none
  exact List.mem_cons_of_mem _ (List.mem_cons_of_mem _ List.mem_cons_self)

theorem released_started_iff (hopened : o.opened = true) (hfound : o.structureFound = true) :
    Released (overlappedCall f o) ↔ Succeeds o := by
  rw [overlappedCall_of_started hopened hfound]
  cases hcopy : o.heapAlloc with
  | none =>
      apply iff_of_false not_released_of_no_memory
      exact fun h => h.1 hcopy
  | some a =>
      have hsome : o.heapAlloc ≠ none := by rw [hcopy]; exact Option.some_ne_none a
      split
      · next hall =>
        apply iff_of_true
        · exact (released_withCopy_iff (by simp)).mpr freedOnce_of_success
        · exact ⟨hsome, hall⟩
      · next hall =>
        apply iff_of_false
        · exact fun h => not_freedOnce_of_putback ((released_withCopy_iff (by simp)).mp h)
        · exact fun h => hall h.2

end Events

/-! ## Main result -/

/-- The copies are treated as they should be exactly if the call fails before the copy or the
operation succeeds. -/
theorem overlappedCall_released_iff (f : EntryPoint) (o : Outcome) :
    Released (overlappedCall f o) ↔
      (o.opened = true → o.structureFound = true → Succeeds o) := by
  by_cases hopened : o.opened = true
  · by_cases hfound : o.structureFound = true
    · rw [released_started_iff hopened hfound]
      exact ⟨fun h _ _ => h, fun h => h hopened hfound⟩
    · exact iff_of_true (released_of_not_started (.inr (Bool.eq_false_iff.mpr hfound)))
        fun _ h => absurd h hfound
  · exact iff_of_true (released_of_not_started (.inl (Bool.eq_false_iff.mpr hopened)))
      fun h => absurd h hopened

/-- The operation of a `WSPSend` completes with `WSAECONNRESET`. -/
theorem failed_send_keeps_copy :
    ¬ ∀ f o, Released (overlappedCall f o) := by
  intro h
  have hfreed := h .wspSend ⟨true, true, some 8, .pending, true, 10054, 0⟩ (some 8) (by decide)
  exact absurd hfreed.once (by decide)

end MiscProjects.Lsp.CopiedBuffers
