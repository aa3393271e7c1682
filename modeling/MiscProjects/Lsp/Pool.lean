import Mathlib.Data.List.Infix
import MiscProjects.Library.Runs
import MiscProjects.Library.SinglyLinked
import MiscProjects.Lsp.Contexts

/-!
# The pool of overlapped structures

`FreePool` and the queue of pending operations are threaded through the `next` field of the
structures.  A structure goes from `GetOverlappedStructure` to the thread that starts the
operation, to the lower provider and to the completion routine; it is put back by the
completion routine, or by `ExecuteOverlappedOperation` when the call has failed.

Operations are numbered as structures are handed out, and structures are named by their
addresses.  Everything under `gOverlappedCS` is one step; so is each access of
`ExecuteOverlappedOperation` to the structure after the call of the lower provider, for
the completion may run at any time once the operation has been accepted.
-/

namespace MiscProjects.Lsp.Pool

open MiscProjects.Runs MiscProjects.SinglyLinked
open Function (update update_self update_of_ne)

/-! ## State -/

def DEFAULT_POOL_COUNT : ℕ := 100

def WSA_IO_PENDING : ℕ := 997

/-- How far the thread is that starts an operation: it fills in the structure, the structure
is in the queue, the lower provider is about to be called, has been called or the result is
about to be tested, the structure is about to be put back, or the thread is done. -/
inductive Start
  | filling
  | queued
  | executing
  | returning (result : LowerResult)
  | checking (noError : Bool)
  | failing
  | done
deriving DecidableEq

/-- What has become of an operation at the lower provider. -/
inductive Below
  | notAccepted
  | accepted
  /-- The completion routine runs. -/
  | completing
  | completed
deriving DecidableEq

/-- `putBack` tells whether the structure has been put back. -/
structure Op where
  ol : ℕ
  operation : Operation
  start : Start
  below : Below
  putBack : Bool
deriving DecidableEq

/-- The operation has its structure: it has not been put back, or something still uses it. -/
def Op.Busy (op : Op) : Prop :=
  op.putBack = false ∨ op.start ≠ .done ∨ op.below = .accepted ∨ op.below = .completing

/-- The structures below `allocated` are there. -/
structure State where
  next : ℕ → Option ℕ
  error : ℕ → ℕ
  lpCallerOverlapped : ℕ → Option ℕ
  freePool : Option ℕ
  pendingStart : Option ℕ
  pendingEnd : Option ℕ
  allocated : ℕ
  ops : ℕ → Option Op
  nextOp : ℕ

def State.create : State where
  next _ := none
  error _ := 0
  lpCallerOverlapped _ := none
  freePool := none
  pendingStart := none
  pendingEnd := none
  allocated := 0
  ops _ := none
  nextOp := 0

inductive Action
  /-- `InitOverlappedManager`. -/
  | init
  /-- `GetOverlappedStructure`; `memory` tells whether `HeapAlloc` succeeds. -/
  | get (operation : Operation) (memory : Bool)
  /-- The structure has been filled in; `QueueOverlappedOperation`. -/
  | queue (o : ℕ)
  /-- `SIO_QUERY_TARGET_PNP_HANDLE` calls the completion routine itself. -/
  | routineInline (o : ℕ)
  | dequeue (o : ℕ)
  /-- The lower provider is called. -/
  | call (o : ℕ) (result : LowerResult)
  /-- The call returns, and `Error` is set. -/
  | ret (o lastError : ℕ)
  | check (o : ℕ)
  /-- `CheckForContextCleanup` fails to close the socket handle. -/
  | closeFails (o error : ℕ)
  | putback (o : ℕ)
  /-- The completion routine is called and looks the socket up. -/
  | complete (o : ℕ) (found : Bool)
  /-- The completion routine puts the structure back. -/
  | completePutback (o : ℕ)
deriving DecidableEq

namespace State

def setOp (o : ℕ) (op : Op) (s : State) : State := { s with ops := update s.ops o (some op) }

/-- `AllocateFreePool`.  The structures are zeroed and linked in their order. -/
def allocateFreePool (s : State) : State :=
  { s with
    next := fun p =>
      if s.allocated ≤ p ∧ p < s.allocated + DEFAULT_POOL_COUNT then
        if p + 1 < s.allocated + DEFAULT_POOL_COUNT then some (p + 1) else none
      else s.next p
    freePool := some s.allocated
    allocated := s.allocated + DEFAULT_POOL_COUNT }

/-- `memset`. -/
def clear (p : ℕ) (s : State) : State :=
  { s with
    next := update s.next p none
    error := update s.error p 0
    lpCallerOverlapped := update s.lpCallerOverlapped p none }

/-- The first structure of the pool is handed out. -/
def handOut (operation : Operation) (s : State) : Option State := do
  let ol ← s.freePool
  let s' := { s with freePool := s.next ol }.clear ol
  some { s'.setOp s.nextOp ⟨ol, operation, .filling, .notAccepted, false⟩ with
    nextOp := s.nextOp + 1 }

def getOverlappedStructure (operation : Operation) (memory : Bool) (s : State) : Option State :=
  if s.freePool.isSome then s.handOut operation
  else if memory then s.allocateFreePool.handOut operation
  else some s

def putbackOverlappedStructure (olp : ℕ) (s : State) : State :=
  { s.clear olp with
    next := update s.next olp s.freePool
    freePool := some olp }

def enqueueOverlappedOperation (op : ℕ) (s : State) : State :=
  match s.pendingEnd with
  | none => { s with
      next := update s.next op none, pendingStart := some op, pendingEnd := some op }
  | some last => { s with
      next := update (update s.next op none) last (some op), pendingEnd := some op }

/-- `DequeueOverlappedOperation`, `op` being the first of the queue. -/
def dequeueOverlappedOperation (op : ℕ) (s : State) : State :=
  if s.pendingEnd = some op then { s with pendingStart := none, pendingEnd := none }
  else { s with pendingStart := s.next op }

end State

/-- What is stored in `Error` when the call returns.  The extension functions store
`WSAGetLastError()`, and only if they take the call to have failed. -/
def errorAfter (operation : Operation) (result : LowerResult) (lastError error : ℕ) : ℕ :=
  if takenAsSuccess operation result then error
  else if result = .pending then WSA_IO_PENDING
  else lastError

/-- `iocp` tells whether there is a completion port.  The lower provider may complete once
what it has accepted; the error of a call that fails is not `WSA_IO_PENDING`. -/
def step (iocp : Bool) (s : State) : Action → Option State
  | .init => some s.allocateFreePool
  | .get operation memory => s.getOverlappedStructure operation memory
  | .queue o => do
      let op ← s.ops o
      if op.start = .filling then
        let s' := { s with
          error := update s.error op.ol 0
          lpCallerOverlapped := update s.lpCallerOverlapped op.ol (some o) }
        if iocp then some (s'.setOp o { op with start := .executing })
        else some ((s'.enqueueOverlappedOperation op.ol).setOp o { op with start := .queued })
      else none
  | .routineInline o => do
      let op ← s.ops o
      if op.start = .filling then
        let s' := { s with
          error := update s.error op.ol 0
          lpCallerOverlapped := update s.lpCallerOverlapped op.ol (some o) }
        some (s'.setOp o { op with start := .done, below := .completing })
      else none
  | .dequeue o => do
      let op ← s.ops o
      if op.start = .queued ∧ s.pendingStart = some op.ol then
        some ((s.dequeueOverlappedOperation op.ol).setOp o { op with start := .executing })
      else none
  | .call o result => do
      let op ← s.ops o
      if op.start = .executing then
        some (s.setOp o { op with
          start := .returning result
          below := if result = .failed then .notAccepted else .accepted })
      else none
  | .ret o lastError => do
      let op ← s.ops o
      match op.start with
      | .returning result =>
          if result = .failed → lastError ≠ WSA_IO_PENDING then
            let error := errorAfter op.operation result lastError (s.error op.ol)
            some ({ s with error := update s.error op.ol error }.setOp o { op with
              start := .checking (takenAsSuccess op.operation result) })
          else none
      | _ => none
  | .check o => do
      let op ← s.ops o
      match op.start with
      | .checking noError =>
          if noError = false ∧ s.error op.ol ≠ WSA_IO_PENDING then
            if s.lpCallerOverlapped op.ol = none then none
            else some (s.setOp o { op with start := .failing })
          else some (s.setOp o { op with start := .done })
      | _ => none
  | .closeFails o error => do
      let op ← s.ops o
      if op.start = .failing ∨ op.below = .completing then
        some { s with error := update s.error op.ol error }
      else none
  | .putback o => do
      let op ← s.ops o
      if op.start = .failing then
        some ((s.putbackOverlappedStructure op.ol).setOp o
          { op with start := .done, putBack := true })
      else none
  | .complete o found => do
      let op ← s.ops o
      if op.below = .accepted ∧ (found = true → s.lpCallerOverlapped op.ol ≠ none) then
        some (s.setOp o { op with below := .completing })
      else none
  | .completePutback o => do
      let op ← s.ops o
      if op.below = .completing then
        some ((s.putbackOverlappedStructure op.ol).setOp o
          { op with below := .completed, putBack := true })
      else none

/-! ## Statement -/

/-- `FreePool` comes to an end, no operation has a structure that is in it, and no two
operations have the same structure. -/
structure Sound (s : State) : Prop where
  free : ∃ l, Chain s.next s.freePool l ∧
    ∀ o op, s.ops o = some op → op.Busy → op.ol ∉ l
  single : ∀ o o' op op', s.ops o = some op → s.ops o' = some op' → op.Busy → op'.Busy →
    op.ol = op'.ol → o = o'

/-- No accepted call of `WSARecvMsg` is taken for a failed one, and the completion routine
does not write to the structure before the thread that has started the operation has tested
`Error`. -/
def Orderly (s : State) : Action → Prop
  | .ret o lastError => ∀ op ∈ s.ops o, op.start = .returning .success →
      op.operation = .wsaRecvMsg → lastError = WSA_IO_PENDING
  | .completePutback o => ∀ op ∈ s.ops o, op.start = .done
  | .closeFails o error => ∀ op ∈ s.ops o, op.start = .checking false → error = WSA_IO_PENDING
  | _ => True

instance (s : State) (a : Action) : Decidable (Orderly s a) :=
  match a with
  | .init => inferInstanceAs (Decidable True)
  | .get .. => inferInstanceAs (Decidable True)
  | .queue _ => inferInstanceAs (Decidable True)
  | .routineInline _ => inferInstanceAs (Decidable True)
  | .dequeue _ => inferInstanceAs (Decidable True)
  | .call .. => inferInstanceAs (Decidable True)
  | .ret o _ => inferInstanceAs (Decidable (∀ op ∈ s.ops o, _ → _ → _))
  | .check _ => inferInstanceAs (Decidable True)
  | .closeFails o _ => inferInstanceAs (Decidable (∀ op ∈ s.ops o, _ → _))
  | .putback _ => inferInstanceAs (Decidable True)
  | .complete .. => inferInstanceAs (Decidable True)
  | .completePutback o => inferInstanceAs (Decidable (∀ op ∈ s.ops o, _))

/-! ## Invariant -/

/-- The two lists that a structure can be in. -/
inductive Place
  | free
  | pending
deriving DecidableEq

def State.heads (s : State) : Place → Option ℕ
  | .free => s.freePool
  | .pending => s.pendingStart

/-- The lower provider has not accepted an operation whose thread is here. -/
def Start.early : Start → Bool
  | .filling => true
  | .queued => true
  | .executing => true
  | .returning result => decide (result = .failed)
  | .checking _ => false
  | .failing => true
  | .done => false

/-- What the thread that starts an operation and the lower provider know of each other;
`error` is the `Error` of the structure. -/
structure Op.Fits (error : ℕ) (op : Op) : Prop where
  back : op.putBack = true → op.start = .done ∧ op.below ≠ .accepted ∧ op.below ≠ .completing
  early : op.start.early = true → op.below = .notAccepted
  checked : op.start = .checking false → op.below = .notAccepted ∨ error = WSA_IO_PENDING

structure Kept (s : State) (loc : ℕ → Option Place) (content : Place → List ℕ) : Prop where
  lists : Lists s.next s.heads loc content
  last : s.pendingEnd = (content .pending).getLast?
  placed : ∀ p, loc p ≠ none → p < s.allocated
  born : ∀ o op, s.ops o = some op → op.ol < s.allocated ∧ o < s.nextOp
  fits : ∀ o op, s.ops o = some op → op.Fits (s.error op.ol)
  apart : ∀ o op, s.ops o = some op → op.putBack = false →
    loc op.ol = if op.start = .queued then some .pending else none
  single : ∀ o o' op op', s.ops o = some op → s.ops o' = some op' → op.putBack = false →
    op'.putBack = false → op.ol = op'.ol → o = o'

variable {s s' : State} {loc : ℕ → Option Place} {content : Place → List ℕ} {o p : ℕ}
  {op op' : Op} {operation : Operation}

theorem kept_create : Kept State.create (fun _ => none) fun _ => [] := by
  constructor
  · constructor
    · intro i
      cases i with
      | free => rfl
      | pending => rfl
    · intro i a
      exact ⟨fun h => absurd h List.not_mem_nil, fun h => absurd h.symm (Option.some_ne_none i)⟩
  · rfl
  · intro p hp
    exact absurd rfl hp
  · intro o op hop
    cases hop
  · intro o op hop
    cases hop
  · intro o op hop
    cases hop
  · intro o o' op op' hop
    cases hop

theorem Op.Fits.of_putBack {error error' : ℕ} (h : op.Fits error) (hback : op.putBack = true) :
    op.Fits error' := by
  refine ⟨h.back, h.early, ?_⟩
  intro hstart
  rw [(h.back hback).1] at hstart
  cases hstart

theorem Op.Fits.open_of_start {error : ℕ} (h : op.Fits error) (hstart : op.start ≠ .done) :
    op.putBack = false :=
  Bool.eq_false_iff.mpr fun hback => hstart (h.back hback).1

theorem Op.Fits.open_of_below {error : ℕ} (h : op.Fits error)
    (hbelow : op.below = .accepted ∨ op.below = .completing) : op.putBack = false := by
  apply Bool.eq_false_iff.mpr
  intro hback
  obtain ⟨_, hne, hne'⟩ := h.back hback
  exact hbelow.elim hne hne'

theorem Op.Fits.busy_iff {error : ℕ} (h : op.Fits error) : op.Busy ↔ op.putBack = false := by
  constructor
  · rintro (hopen | hstart | hbelow)
    · exact hopen
    · exact h.open_of_start hstart
    · exact h.open_of_below hbelow
  · exact Or.inl

theorem Kept.sound (h : Kept s loc content) : Sound s := by
  constructor
  · refine ⟨content .free, h.lists.chain .free, ?_⟩
    intro o op hop hbusy hmem
    have hopen := (h.fits o op hop).busy_iff.mp hbusy
    have hloc := (h.lists.mem .free op.ol).mp hmem
    rw [h.apart o op hop hopen] at hloc
    split at hloc
    · cases hloc
    · cases hloc
  · intro o o' op op' hop hop' hbusy hbusy'
    exact h.single o o' op op' hop hop' ((h.fits o op hop).busy_iff.mp hbusy)
      ((h.fits o' op' hop').busy_iff.mp hbusy')

/-! ## Steps -/

theorem ops_setOp {o' : ℕ} (h : update s.ops o (some op) o' = some op') :
    (o' = o ∧ op' = op) ∨ (o' ≠ o ∧ s.ops o' = some op') := by
  by_cases ho : o' = o
  · subst ho
    rw [update_self] at h
    exact .inl ⟨rfl, (Option.some.inj h).symm⟩
  · rw [update_of_ne ho] at h
    exact .inr ⟨ho, h⟩

namespace Kept

theorem others (h : Kept s loc content) (hop : s.ops o = some op) (hopen : op.putBack = false)
    (o' : ℕ) (op₁ : Op) (ho : o' ≠ o) (hop₁ : s.ops o' = some op₁) (hopen₁ : op₁.putBack = false) :
    op₁.ol ≠ op.ol :=
  fun heq => ho (h.single o' o op₁ op hop₁ hop hopen₁ hopen heq)

theorem set {loc' : ℕ → Option Place} {content' : Place → List ℕ} (h : Kept s loc content)
    (o : ℕ) (op' : Op)
    (hothers : ∀ o' op₁, o' ≠ o → s.ops o' = some op₁ → op₁.putBack = false → op₁.ol ≠ op'.ol)
    (hops : s'.ops = update s.ops o (some op')) (hlists : Lists s'.next s'.heads loc' content')
    (hlast : s'.pendingEnd = (content' .pending).getLast?)
    (hplaced : ∀ p, loc' p ≠ none → p < s'.allocated) (hallocated : s.allocated ≤ s'.allocated)
    (hborn : op'.ol < s'.allocated ∧ o < s'.nextOp) (hnextOp : s.nextOp ≤ s'.nextOp)
    (herror : ∀ p, p ≠ op'.ol → s'.error p = s.error p) (hfits : op'.Fits (s'.error op'.ol))
    (hloc : ∀ p, p ≠ op'.ol → loc' p = loc p) (hapart : op'.putBack = false →
      loc' op'.ol = if op'.start = .queued then some .pending else none) :
    Kept s' loc' content' := by
  have hcases : ∀ o₁ op₁, s'.ops o₁ = some op₁ →
      (o₁ = o ∧ op₁ = op') ∨ (o₁ ≠ o ∧ s.ops o₁ = some op₁) := by
    intro o₁ op₁ hop₁
    rw [hops] at hop₁
    exact ops_setOp hop₁
  constructor
  · exact hlists
  · exact hlast
  · exact hplaced
  · intro o₁ op₁ hop₁
    rcases hcases o₁ op₁ hop₁ with ⟨rfl, rfl⟩ | ⟨_, hold⟩
    · exact hborn
    · obtain ⟨hol, ho⟩ := h.born o₁ op₁ hold
      exact ⟨hol.trans_le hallocated, ho.trans_le hnextOp⟩
  · intro o₁ op₁ hop₁
    rcases hcases o₁ op₁ hop₁ with ⟨rfl, rfl⟩ | ⟨hne, hold⟩
    · exact hfits
    · cases hback : op₁.putBack with
      | true => exact (h.fits o₁ op₁ hold).of_putBack hback
      | false =>
          rw [herror op₁.ol (hothers o₁ op₁ hne hold hback)]
          exact h.fits o₁ op₁ hold
  · intro o₁ op₁ hop₁ hopen₁
    rcases hcases o₁ op₁ hop₁ with ⟨rfl, rfl⟩ | ⟨hne, hold⟩
    · exact hapart hopen₁
    · rw [hloc op₁.ol (hothers o₁ op₁ hne hold hopen₁)]
      exact h.apart o₁ op₁ hold hopen₁
  · intro o₁ o₂ op₁ op₂ hop₁ hop₂ hopen₁ hopen₂ heq
    rcases hcases o₁ op₁ hop₁ with ⟨rfl, rfl⟩ | ⟨hne₁, hold₁⟩
    · rcases hcases o₂ op₂ hop₂ with ⟨rfl, _⟩ | ⟨hne₂, hold₂⟩
      · rfl
      · exact absurd heq.symm (hothers o₂ op₂ hne₂ hold₂ hopen₂)
    · rcases hcases o₂ op₂ hop₂ with ⟨rfl, rfl⟩ | ⟨_, hold₂⟩
      · exact absurd heq (hothers o₁ op₁ hne₁ hold₁ hopen₁)
      · exact h.single o₁ o₂ op₁ op₂ hold₁ hold₂ hopen₁ hopen₂ heq

theorem advance (h : Kept s loc content) (op' : Op) (error : ℕ → ℕ) (caller : ℕ → Option ℕ)
    (hop : s.ops o = some op) (hopen : op.putBack = false) (hol : op'.ol = op.ol)
    (hqueued : op'.start = .queued ↔ op.start = .queued)
    (herror : ∀ p, p ≠ op.ol → error p = s.error p) (hfits : op'.Fits (error op.ol)) :
    Kept ({ s with error := error, lpCallerOverlapped := caller }.setOp o op') loc content := by
  apply h.set o op'
  · rw [hol]
    exact h.others hop hopen
  · rfl
  · exact h.lists
  · exact h.last
  · exact h.placed
  · exact Nat.le_refl _
  · rw [hol]
    exact h.born o op hop
  · exact Nat.le_refl _
  · rw [hol]
    exact herror
  · rw [hol]
    exact hfits
  · intro p _
    rfl
  · intro _
    rw [hol, h.apart o op hop hopen]
    by_cases hstart : op.start = .queued
    · rw [if_pos hstart, if_pos (hqueued.mpr hstart)]
    · rw [if_neg hstart, if_neg fun hstart' => hstart (hqueued.mp hstart')]

theorem goOn (h : Kept s loc content) (op' : Op) (hop : s.ops o = some op)
    (hopen : op.putBack = false) (hol : op'.ol = op.ol)
    (hqueued : op'.start = .queued ↔ op.start = .queued) (hfits : op'.Fits (s.error op.ol)) :
    Kept (s.setOp o op') loc content :=
  h.advance op' s.error s.lpCallerOverlapped hop hopen hol hqueued (fun _ _ => rfl) hfits

/-! ### The lists -/

theorem loc_eq_none (h : Kept s loc content) (hop : s.ops o = some op) (hopen : op.putBack = false)
    (hstart : op.start ≠ .queued) : loc op.ol = none := by
  rw [h.apart o op hop hopen, if_neg hstart]

theorem putback (h : Kept s loc content) (hop : s.ops o = some op) (hopen : op.putBack = false)
    (hstart : op.start ≠ .queued) (hol : op'.ol = op.ol) (hback : op'.putBack = true)
    (hfits : op'.Fits 0) :
    Kept ((s.putbackOverlappedStructure op.ol).setOp o op') (update loc op.ol (some .free))
      (update content .free (op.ol :: content .free)) := by
  have hnone := h.loc_eq_none hop hopen hstart
  apply h.set o op'
  · rw [hol]
    exact h.others hop hopen
  · rfl
  · have hheads : ((s.putbackOverlappedStructure op.ol).setOp o op').heads =
        update s.heads .free (some op.ol) := by
      funext i
      cases i with
      | free => rfl
      | pending => rfl
    rw [hheads]
    exact h.lists.push hnone .free
  · exact h.last
  · intro p hp
    by_cases hpol : p = op.ol
    · rw [hpol]
      exact (h.born o op hop).1
    · rw [update_of_ne hpol] at hp
      exact h.placed p hp
  · exact Nat.le_refl _
  · rw [hol]
    exact h.born o op hop
  · exact Nat.le_refl _
  · intro p hp
    rw [hol] at hp
    exact update_of_ne hp ..
  · rw [hol]
    change op'.Fits (update s.error op.ol 0 op.ol)
    rw [update_self]
    exact hfits
  · intro p hp
    rw [hol] at hp
    exact update_of_ne hp ..
  · intro hopen'
    rw [hback] at hopen'
    cases hopen'

theorem handOut (h : Kept s loc content) (hget : s.handOut operation = some s') :
    ∃ loc' content', Kept s' loc' content' := by
  obtain ⟨ol, hol, hget⟩ := Option.bind_eq_some_iff.mp hget
  obtain rfl := Option.some.inj hget
  have hhead : s.heads .free = some ol := hol
  obtain ⟨rest, _, hfree, hpop⟩ := h.lists.pop hhead
  refine ⟨update loc ol none, update content .free rest, ?_⟩
  apply h.set s.nextOp ⟨ol, operation, .filling, .notAccepted, false⟩
  · intro o' op₁ _ hop₁ hopen₁ heq
    have hloc := h.apart o' op₁ hop₁ hopen₁
    rw [heq, hfree] at hloc
    split at hloc
    · cases hloc
    · cases hloc
  · rfl
  · refine Lists.setNext (v := none) ?_ (update_self ..)
    convert hpop using 1
    funext i
    cases i with
    | free => rfl
    | pending => rfl
  · exact h.last
  · intro p hp
    by_cases hpol : p = ol
    · rw [hpol, update_self] at hp
      exact absurd rfl hp
    · rw [update_of_ne hpol] at hp
      exact h.placed p hp
  · exact Nat.le_refl _
  · refine ⟨h.placed ol ?_, Nat.lt_succ_self _⟩
    rw [hfree]
    exact Option.some_ne_none _
  · exact Nat.le_succ _
  · intro p hp
    exact update_of_ne hp ..
  · refine ⟨?_, fun _ => rfl, ?_⟩
    · intro hback
      cases hback
    · intro hstart
      cases hstart
  · intro p hp
    exact update_of_ne hp ..
  · intro _
    exact update_self ..

theorem allocateFreePool (h : Kept s loc content) :
    ∃ loc' content', Kept s.allocateFreePool loc' content' := by
  have hfresh : ∀ p, s.allocated ≤ p → loc p = none := by
    intro p hp
    by_contra hloc
    exact absurd (h.placed p hloc) (Nat.not_lt_of_ge hp)
  refine ⟨fun p => if s.allocated ≤ p ∧ p < s.allocated + DEFAULT_POOL_COUNT then some .free
    else if loc p = some .free then none else loc p,
    update content .free (List.range' s.allocated DEFAULT_POOL_COUNT), ?_⟩
  have hold : ∀ p, p < s.allocated → loc p ≠ some .free →
      (if s.allocated ≤ p ∧ p < s.allocated + DEFAULT_POOL_COUNT then some .free
        else if loc p = some .free then none else loc p) = loc p := by
    intro p hp hloc
    rw [if_neg fun hnew => absurd hp (Nat.not_lt_of_ge hnew.1), if_neg hloc]
  constructor
  · refine h.lists.set (i := .free) ?_ ?_ ?_ ?_ ?_
    · apply chain_range' (by decide)
      intro p hp hlt
      exact if_pos ⟨hp, hlt⟩
    · intro j hj
      cases j with
      | free => exact absurd rfl hj
      | pending => rfl
    · intro j _ b hb
      have hloc : loc b = some j := (h.lists.mem j b).mp hb
      have hlt : b < s.allocated := h.placed b (by rw [hloc]; exact Option.some_ne_none j)
      exact if_neg fun hnew => absurd hlt (Nat.not_lt_of_ge hnew.1)
    · intro b
      rw [List.mem_range'_1]
      constructor
      · intro hb
        exact if_pos hb
      · intro hb
        by_contra hnew
        rw [if_neg hnew] at hb
        split at hb
        · cases hb
        · next hne => exact hne hb
    · intro b j hj
      cases j with
      | free => exact absurd rfl hj
      | pending =>
          by_cases hnew : s.allocated ≤ b ∧ b < s.allocated + DEFAULT_POOL_COUNT
          · rw [if_pos hnew, hfresh b hnew.1]
            exact ⟨fun h => absurd h (by decide), fun h => absurd h (by decide)⟩
          · rw [if_neg hnew]
            by_cases hfree : loc b = some .free
            · rw [if_pos hfree, hfree]
              exact ⟨fun h => absurd h (by decide), fun h => absurd h (by decide)⟩
            · rw [if_neg hfree]
  · exact h.last
  · intro p hp
    by_cases hnew : s.allocated ≤ p ∧ p < s.allocated + DEFAULT_POOL_COUNT
    · exact hnew.2
    · rw [if_neg hnew] at hp
      split at hp
      · exact absurd rfl hp
      · exact (h.placed p hp).trans_le (Nat.le_add_right ..)
  · intro o op hop
    obtain ⟨hol, ho⟩ := h.born o op hop
    exact ⟨hol.trans_le (Nat.le_add_right ..), ho⟩
  · exact h.fits
  · intro o op hop hopen
    have hloc := h.apart o op hop hopen
    rw [hold op.ol (h.born o op hop).1]
    · exact hloc
    · rw [hloc]
      split
      · decide
      · decide
  · exact h.single

theorem concat_of_getLast? {l : List ℕ} {last : ℕ} (h : some last = l.getLast?) :
    ∃ l₁, l = l₁ ++ [last] := by
  obtain ⟨l₁, hl⟩ := List.getLast?_eq_some_iff.mp h.symm
  exact ⟨l₁, hl⟩

theorem relist (h : Kept s loc content) (hop : s.ops o = some op) (hopen : op.putBack = false)
    (place : Option Place) (content' : Place → List ℕ) {s₁ : State} {start : Start}
    (hfits : ({ op with start := start } : Op).Fits (s₁.error op.ol))
    (hplace : place = if start = .queued then some .pending else none)
    (hops : s₁.ops = s.ops) (hallocated : s₁.allocated = s.allocated)
    (hnextOp : s₁.nextOp = s.nextOp) (herror : ∀ p, p ≠ op.ol → s₁.error p = s.error p)
    (hlists : Lists s₁.next s₁.heads (update loc op.ol place) content')
    (hlast : s₁.pendingEnd = (content' .pending).getLast?) :
    Kept (s₁.setOp o { op with start := start }) (update loc op.ol place) content' := by
  apply h.set o { op with start := start }
  · have hothers := h.others hop hopen
    exact hothers
  · change update s₁.ops o _ = _
    rw [hops]
  · exact hlists
  · exact hlast
  · intro p hp
    change p < s₁.allocated
    rw [hallocated]
    by_cases hpol : p = op.ol
    · rw [hpol]
      exact (h.born o op hop).1
    · rw [update_of_ne hpol] at hp
      exact h.placed p hp
  · exact Nat.le_of_eq hallocated.symm
  · change op.ol < s₁.allocated ∧ o < s₁.nextOp
    rw [hallocated, hnextOp]
    exact h.born o op hop
  · exact Nat.le_of_eq hnextOp.symm
  · exact herror
  · exact hfits
  · intro p hp
    exact update_of_ne hp ..
  · intro _
    change update loc op.ol place op.ol = _
    rw [update_self]
    exact hplace

theorem enqueue (h : Kept s loc content) (hop : s.ops o = some op)
    (hstart : op.start = .filling) (caller : ℕ → Option ℕ) : ∃ loc' content', Kept (({ s with
        error := update s.error op.ol 0
        lpCallerOverlapped := caller }.enqueueOverlappedOperation op.ol).setOp o
      { op with start := .queued }) loc' content' := by
  have hfits := h.fits o op hop
  have hopen : op.putBack = false := hfits.open_of_start (by rw [hstart]; decide)
  have hnone : loc op.ol = none := h.loc_eq_none hop hopen (by rw [hstart]; decide)
  have hfits' : ∀ error, ({ op with start := .queued } : Op).Fits error := by
    intro error
    refine ⟨?_, fun _ => hfits.early (hstart ▸ rfl), ?_⟩
    · intro hback
      exact absurd (hopen.symm.trans hback) (by decide)
    · intro hchecking
      cases hchecking
  have herror : ∀ p, p ≠ op.ol → update s.error op.ol 0 p = s.error p :=
    fun p hp => update_of_ne hp ..
  unfold State.enqueueOverlappedOperation
  split
  · next hend =>
    have hnil : content .pending = [] := List.getLast?_eq_none_iff.mp (h.last.symm.trans hend)
    refine ⟨_, _, h.relist hop hopen (some .pending) (update content .pending [op.ol])
      (hfits' _) rfl rfl rfl rfl herror ?_ ?_⟩
    · convert h.lists.append_nil hnone hnil using 1
      funext i
      cases i with
      | free => rfl
      | pending => rfl
    · rw [update_self]
      rfl
  · next last hend =>
    obtain ⟨l₁, hl₁⟩ := concat_of_getLast? (hend.symm.trans h.last)
    refine ⟨_, _, h.relist hop hopen (some .pending)
      (update content .pending (content .pending ++ [op.ol])) (hfits' _) rfl rfl rfl rfl herror
      (h.lists.append_concat hnone hl₁) ?_⟩
    rw [update_self, List.getLast?_concat]

theorem dequeue (h : Kept s loc content) (hop : s.ops o = some op) (hstart : op.start = .queued)
    (hfirst : s.pendingStart = some op.ol) :
    ∃ loc' content', Kept ((s.dequeueOverlappedOperation op.ol).setOp o
      { op with start := .executing }) loc' content' := by
  have hfits := h.fits o op hop
  have hopen : op.putBack = false := hfits.open_of_start (by rw [hstart]; decide)
  have hhead : s.heads .pending = some op.ol := hfirst
  obtain ⟨rest, hcontent, _, hpop⟩ := h.lists.pop hhead
  have hlast : s.pendingEnd = (op.ol :: rest).getLast? := hcontent ▸ h.last
  have hnodup : (op.ol :: rest).Nodup := hcontent ▸ h.lists.nodup .pending
  have hchain : Chain s.next (s.next op.ol) rest := by
    have hchain := h.lists.chain .pending
    rw [hcontent, hhead] at hchain
    exact hchain.2
  have hfits' : ({ op with start := .executing } : Op).Fits (s.error op.ol) := by
    refine ⟨?_, fun _ => hfits.early (hstart ▸ rfl), ?_⟩
    · intro hback
      exact absurd (hopen.symm.trans hback) (by decide)
    · intro hchecking
      cases hchecking
  unfold State.dequeueOverlappedOperation
  by_cases hend : s.pendingEnd = some op.ol
  · rw [if_pos hend]
    have hnil : rest = [] := by
      by_contra hne
      rw [List.getLast?_cons_of_ne_nil hne, hend] at hlast
      exact (List.nodup_cons.mp hnodup).1 (List.mem_of_getLast? hlast.symm)
    refine ⟨_, _, h.relist hop hopen none (update content .pending rest) hfits' rfl
      rfl rfl rfl (fun _ _ => rfl) ?_ ?_⟩
    · convert hpop using 1
      funext i
      cases i with
      | free => rfl
      | pending =>
          rw [hnil] at hchain
          exact (hchain : s.next op.ol = none).symm
    · rw [update_self, hnil]
      rfl
  · rw [if_neg hend]
    have hne : rest ≠ [] := by
      rintro rfl
      exact hend hlast
    refine ⟨_, _, h.relist hop hopen none (update content .pending rest) hfits' rfl
      rfl rfl rfl (fun _ _ => rfl) ?_ ?_⟩
    · convert hpop using 1
      funext i
      cases i with
      | free => rfl
      | pending => rfl
    · rw [update_self, ← List.getLast?_cons_of_ne_nil hne]
      exact hlast

/-! ### All steps -/

theorem fill (h : Kept s loc content) (hop : s.ops o = some op) (hstart : op.start = .filling)
    {start : Start} {below : Below} (hnot : start ≠ .queued) (hchecking : start ≠ .checking false)
    (hearly : start = .done ∨ below = .notAccepted) (caller : ℕ → Option ℕ) :
    Kept ({ s with error := update s.error op.ol 0, lpCallerOverlapped := caller }.setOp o
      { op with start := start, below := below }) loc content := by
  have hopen : op.putBack = false := (h.fits o op hop).open_of_start (by rw [hstart]; decide)
  refine h.advance { op with start := start, below := below } (update s.error op.ol 0) caller hop
    hopen rfl ?_ (fun p hp => update_of_ne hp ..) ?_
  · rw [hstart]
    exact ⟨fun hq => absurd hq hnot, fun hq => absurd hq (by decide)⟩
  · refine ⟨?_, ?_, fun hc => absurd hc hchecking⟩
    · intro hback
      exact absurd (hopen.symm.trans hback) (by decide)
    · intro hcases
      rcases hearly with hdone | hbelow
      · change start.early = true at hcases
        rw [hdone] at hcases
        cases hcases
      · exact hbelow

theorem call (h : Kept s loc content) (hop : s.ops o = some op) (hstart : op.start = .executing)
    (result : LowerResult) :
    Kept (s.setOp o { op with
      start := .returning result
      below := if result = .failed then .notAccepted else .accepted }) loc content := by
  have hopen : op.putBack = false := (h.fits o op hop).open_of_start (by rw [hstart]; decide)
  refine h.goOn { op with
    start := .returning result
    below := if result = .failed then .notAccepted else .accepted } hop hopen rfl ?_ ?_
  · rw [hstart]
    exact ⟨fun hq => Start.noConfusion hq, fun hq => absurd hq (by decide)⟩
  · refine ⟨?_, ?_, ?_⟩
    · intro hback
      exact absurd (hopen.symm.trans hback) (by decide)
    · intro hearly
      cases result with
      | success => cases hearly
      | pending => cases hearly
      | failed => rfl
    · intro hchecking
      cases hchecking

theorem ret (h : Kept s loc content) (hop : s.ops o = some op) {result : LowerResult}
    {lastError : ℕ} (hstart : op.start = .returning result)
    (hok : result = .success → op.operation = .wsaRecvMsg → lastError = WSA_IO_PENDING) :
    Kept ({ s with
        error := update s.error op.ol
          (errorAfter op.operation result lastError (s.error op.ol)) }.setOp o
      { op with start := .checking (takenAsSuccess op.operation result) }) loc content := by
  have hfits := h.fits o op hop
  have hopen : op.putBack = false := hfits.open_of_start (by rw [hstart]; simp)
  refine h.advance { op with start := .checking (takenAsSuccess op.operation result) } _
    s.lpCallerOverlapped hop hopen rfl ?_ (fun p hp => update_of_ne hp ..) ?_
  · rw [hstart]
    simp
  · refine ⟨?_, ?_, ?_⟩
    · intro hback
      exact absurd (hopen.symm.trans hback) (by decide)
    · intro hearly
      cases hearly
    · intro hchecking
      have htaken : takenAsSuccess op.operation result = false := by simpa using hchecking
      rw [update_self]
      unfold errorAfter
      rw [htaken]
      cases result with
      | success =>
          right
          refine hok rfl ?_
          cases hoperation : op.operation with
          | wsaRecvMsg => rfl
          | _ =>
              rw [hoperation] at htaken
              cases htaken
      | pending => exact .inr rfl
      | failed => exact .inl (hfits.early (hstart ▸ rfl))

theorem check (h : Kept s loc content) (hop : s.ops o = some op) {noError : Bool}
    (hstart : op.start = .checking noError) : (noError = false ∧ s.error op.ol ≠ WSA_IO_PENDING →
        Kept (s.setOp o { op with start := .failing }) loc content) ∧
      Kept (s.setOp o { op with start := .done }) loc content := by
  have hfits := h.fits o op hop
  have hopen : op.putBack = false := hfits.open_of_start (by rw [hstart]; simp)
  have hback : ∀ start below,
      ({ op with start := start, below := below } : Op).putBack = true → False :=
    fun _ _ hback => absurd (hopen.symm.trans hback) (by decide)
  constructor
  · rintro ⟨rfl, herror⟩
    have hbelow : op.below = .notAccepted := (hfits.checked hstart).resolve_right herror
    refine h.goOn { op with start := .failing } hop hopen rfl ?_ ?_
    · rw [hstart]
      exact ⟨fun hq => Start.noConfusion hq, fun hq => Start.noConfusion hq⟩
    · refine ⟨fun h => (hback _ _ h).elim, fun _ => hbelow, ?_⟩
      intro hchecking
      cases hchecking
  · refine h.goOn { op with start := .done } hop hopen rfl ?_ ?_
    · rw [hstart]
      exact ⟨fun hq => Start.noConfusion hq, fun hq => Start.noConfusion hq⟩
    · refine ⟨fun h => (hback _ _ h).elim, ?_, ?_⟩
      · intro hearly
        cases hearly
      · intro hchecking
        cases hchecking

theorem closeFails (h : Kept s loc content) (hop : s.ops o = some op)
    (hrunning : op.start = .failing ∨ op.below = .completing) {error : ℕ}
    (hok : op.start = .checking false → error = WSA_IO_PENDING) :
    Kept { s with error := update s.error op.ol error } loc content := by
  have hfits := h.fits o op hop
  have hopen : op.putBack = false := by
    rcases hrunning with hfailing | hcompleting
    · exact hfits.open_of_start (by rw [hfailing]; decide)
    · exact hfits.open_of_below (.inr hcompleting)
  have hsame : update s.ops o (some op) = s.ops := by
    rw [← hop]
    exact Function.update_eq_self o s.ops
  have hset := h.advance op (update s.error op.ol error) s.lpCallerOverlapped hop hopen rfl Iff.rfl
    (fun p hp => update_of_ne hp ..) ⟨hfits.back, hfits.early, fun hchecking => .inr (by
      rw [update_self]
      exact hok hchecking)⟩
  unfold State.setOp at hset
  dsimp only at hset
  rwa [hsame] at hset

theorem complete (h : Kept s loc content) (hop : s.ops o = some op)
    (hbelow : op.below = .accepted) :
    Kept (s.setOp o { op with below := .completing }) loc content := by
  have hfits := h.fits o op hop
  have hopen : op.putBack = false := hfits.open_of_below (.inl hbelow)
  refine h.goOn { op with below := .completing } hop hopen rfl Iff.rfl ⟨?_, ?_, ?_⟩
  · intro hback
    exact absurd (hopen.symm.trans hback) (by decide)
  · intro hearly
    exact absurd (hbelow.symm.trans (hfits.early hearly)) (by decide)
  · intro hchecking
    rcases hfits.checked hchecking with hnot | herror
    · exact absurd (hbelow.symm.trans hnot) (by decide)
    · exact .inr herror

theorem step (iocp : Bool) {a : Action} (h : Kept s loc content) (hok : Orderly s a)
    (hstep : step iocp s a = some s') : ∃ loc' content', Kept s' loc' content' := by
  cases a
  all_goals simp only [Pool.step, Option.bind_eq_bind, Option.bind_eq_some_iff,
    Option.ite_none_right_eq_some, Option.some.injEq] at hstep
  case init => exact hstep ▸ h.allocateFreePool
  case get operation memory =>
    unfold State.getOverlappedStructure at hstep
    split at hstep
    · exact h.handOut hstep
    · split at hstep
      · obtain ⟨loc', content', h'⟩ := h.allocateFreePool
        exact h'.handOut hstep
      · obtain rfl := Option.some.inj hstep
        exact ⟨_, _, h⟩
  case queue o =>
    obtain ⟨op, hop, hstart, hstep⟩ := hstep
    split at hstep
    · obtain rfl := Option.some.inj hstep
      have hbelow := (h.fits o op hop).early (hstart ▸ rfl)
      exact ⟨_, _, h.fill hop hstart (by decide) (by decide) (.inr hbelow) _⟩
    · obtain rfl := Option.some.inj hstep
      exact h.enqueue hop hstart _
  case routineInline o =>
    obtain ⟨op, hop, hstart, rfl⟩ := hstep
    exact ⟨_, _, h.fill hop hstart (by decide) (by decide) (.inl rfl) _⟩
  case dequeue o =>
    obtain ⟨op, hop, ⟨hqueued, hfirst⟩, rfl⟩ := hstep
    exact h.dequeue hop hqueued hfirst
  case call o result =>
    obtain ⟨op, hop, hstart, rfl⟩ := hstep
    exact ⟨_, _, h.call hop hstart result⟩
  case ret o lastError =>
    obtain ⟨op, hop, hstep⟩ := hstep
    split at hstep
    · next result hstart =>
      obtain ⟨-, hstep⟩ := Option.ite_none_right_eq_some.mp hstep
      obtain rfl := Option.some.inj hstep
      refine ⟨_, _, h.ret hop hstart ?_⟩
      intro hsuccess
      exact hok op hop (hsuccess ▸ hstart)
    · cases hstep
  case check o =>
    obtain ⟨op, hop, hstep⟩ := hstep
    split at hstep
    · next noError hstart =>
      split at hstep
      · next herror =>
        split at hstep
        · cases hstep
        · obtain rfl := Option.some.inj hstep
          exact ⟨_, _, (h.check hop hstart).1 herror⟩
      · obtain rfl := Option.some.inj hstep
        exact ⟨_, _, (h.check hop hstart).2⟩
    · cases hstep
  case closeFails o error =>
    obtain ⟨op, hop, hrunning, rfl⟩ := hstep
    exact ⟨_, _, h.closeFails hop hrunning (hok op hop)⟩
  case putback o =>
    obtain ⟨op, hop, hstart, rfl⟩ := hstep
    have hfits := h.fits o op hop
    have hbelow : op.below = .notAccepted := hfits.early (hstart ▸ rfl)
    refine ⟨_, _, h.putback hop (hfits.open_of_start (by rw [hstart]; decide))
      (by rw [hstart]; decide) rfl rfl ⟨?_, ?_, ?_⟩⟩
    · intro _
      refine ⟨rfl, ?_, ?_⟩
      · exact fun h => absurd (hbelow.symm.trans h) (by decide)
      · exact fun h => absurd (hbelow.symm.trans h) (by decide)
    · exact fun _ => hbelow
    · exact fun _ => .inl hbelow
  case complete o found =>
    obtain ⟨op, hop, ⟨hbelow, -⟩, rfl⟩ := hstep
    exact ⟨_, _, h.complete hop hbelow⟩
  case completePutback o =>
    obtain ⟨op, hop, hbelow, rfl⟩ := hstep
    have hdone : op.start = .done := hok op hop
    refine ⟨_, _, h.putback hop ((h.fits o op hop).open_of_below (.inr hbelow))
      (by rw [hdone]; decide) rfl rfl ⟨?_, ?_, ?_⟩⟩
    · intro _
      exact ⟨hdone, fun h => Below.noConfusion h, fun h => Below.noConfusion h⟩
    · intro hearly
      change op.start.early = true at hearly
      rw [hdone] at hearly
      cases hearly
    · intro hchecking
      exact absurd (hdone.symm.trans hchecking) (by decide)

end Kept

/-! ## Whole runs -/

/-- In every run in which no accepted `WSARecvMsg` is taken for a failed one and every
completion routine waits for the thread that has started its operation, the pool is sound. -/
theorem pool_sound (iocp : Bool) {acts : List Action}
    (hrun : RunsTo (step iocp) Orderly State.create acts s) : Sound s := by
  have hkept : ∃ loc content, Kept s loc content := by
    refine hrun.invariant (fun s => ∃ loc content, Kept s loc content) ⟨_, _, kept_create⟩ ?_
    rintro s a s' ⟨loc, content, h⟩ hok hstep
    exact h.step iocp hok hstep
  obtain ⟨loc, content, h⟩ := hkept
  exact h.sound

/-- One operation completes, and another one fails at once. -/
theorem pool_sound_two :
    ∃ s, RunsTo (step true) Orderly State.create
        [.init, .get .recv true, .queue 0, .call 0 .pending, .ret 0 0, .check 0,
         .get .send true, .queue 1, .call 1 .failed, .ret 1 10054, .check 1, .putback 1,
         .complete 0 true, .completePutback 0] s ∧
      s.freePool = some 0 ∧ s.next 0 = some 1 ∧ s.next 1 = some 2 ∧ Sound s := by
  have hrun : RunsTo (step true) Orderly State.create
      [.init, .get .recv true, .queue 0, .call 0 .pending, .ret 0 0, .check 0,
       .get .send true, .queue 1, .call 1 .failed, .ret 1 10054, .check 1, .putback 1,
       .complete 0 true, .completePutback 0] _ := RunsTo.of_isSome (by rfl)
  exact ⟨_, hrun, rfl, rfl, rfl, pool_sound true hrun⟩

/-- `WSARecvMsg` returns zero for a success; the structure is put back, and again by the
completion routine.  It is then its own successor in the pool. -/
theorem recvMsg_put_back_twice :
    ¬ ∀ acts s, RunsTo (step true) Always State.create acts s → Sound s := by
  intro hall
  have hrun : RunsTo (step true) Always State.create
      [.init, .get .wsaRecvMsg true, .queue 0, .call 0 .success, .ret 0 0, .check 0,
       .putback 0, .complete 0 false, .completePutback 0] _ := RunsTo.of_isSome (by rfl)
  obtain ⟨l, hchain, -⟩ := (hall _ _ hrun).free
  cases l with
  | nil => cases hchain
  | cons a l =>
      obtain ⟨ha, hrest⟩ := hchain
      obtain rfl : 0 = a := Option.some.inj ha
      have hsame : 0 :: l = l := Chain.unique ⟨rfl, hrest⟩ hrest
      have hlength := congrArg List.length hsame
      rw [List.length_cons] at hlength
      omega

end MiscProjects.Lsp.Pool
