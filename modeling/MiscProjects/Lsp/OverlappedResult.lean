import MiscProjects.Library.Runs
import MiscProjects.Lsp.Contexts

/-!
# The result of an overlapped operation

`QueueOverlappedOperation` marks the `OVERLAPPED` of the application as in progress.  Only
`IntermediateCompletionRoutine` takes the mark back.  An operation for which it is not called,
or for which it does not find the context of the socket, stays in progress for good:
`ExecuteOverlappedOperation` fills in the other fields when the call fails at once and none
when it succeeds at once.

The states are those of one `OVERLAPPED`, which the application uses for one operation after
the other.  It does not use it again before an operation on it is finished and the completion
routine of that operation has been called.  What else happens in the process only decides what
the code outside answers.
-/

namespace MiscProjects.Lsp.OverlappedResult

open Runs

abbrev DWORD := BitVec 32

def wssOperationInProgress : ℕ := 0x103

def wsaIoPending : DWORD := 997

def wsaIoIncomplete : DWORD := 996

/-- The application's `OVERLAPPED`.  `Internal` and `InternalHigh` are as wide as an address. -/
structure WSAOverlapped where
  internal : ℕ
  internalHigh : ℕ
  offset : DWORD
  offsetHigh : DWORD
deriving DecidableEq

/-- What the application has called; the completion routine is its address. -/
structure Request where
  operation : Operation
  lpCallerCompletionRoutine : Option ℕ
deriving DecidableEq

/-- The byte count, the flags and the error of an operation. -/
structure Result where
  bytes : DWORD
  flags : DWORD
  error : DWORD
deriving DecidableEq

/-! ## `WSPGetOverlappedResult` -/

/-- What a query returns and what it writes to its three places, if it writes to them. -/
structure Query where
  ret : Bool
  lpcbTransfer : Option DWORD
  lpdwFlags : Option DWORD
  lpErrno : DWORD
deriving DecidableEq

/-- `WSPGetOverlappedResult` without wait. -/
def wspGetOverlappedResult (lpOverlapped : WSAOverlapped) : Query :=
  if lpOverlapped.internal ≠ wssOperationInProgress then
    { ret := lpOverlapped.offset == 0
      lpcbTransfer := some (BitVec.ofNat 32 lpOverlapped.internalHigh)
      lpdwFlags := some lpOverlapped.offsetHigh
      lpErrno := lpOverlapped.offset }
  else ⟨false, none, none, wsaIoIncomplete⟩

/-! ## Executing an operation -/

def setOverlappedInProgress (ol : WSAOverlapped) : WSAOverlapped :=
  { ol with internal := wssOperationInProgress, internalHigh := 0 }

/-- A call of a function of the lower provider.  `error` is what the code then reads as its
error, and `bytes` and `flags` are what stands in the places for them. -/
structure LowerCall where
  succeeds : Bool
  error : DWORD
  bytes : DWORD
  flags : DWORD

/-- `*lpdwBytes`, where the operation has a byte count. -/
def LowerCall.lpdwBytes (call : LowerCall) : Operation → DWORD
  | .transmitFile | .disconnectEx | .transmitPackets => 0
  | _ => call.bytes

/-- `*lpdwFlags`, where the operation has flags. -/
def LowerCall.lpdwFlags (call : LowerCall) : Operation → DWORD
  | .ioctl | .acceptEx _ | .connectEx | .wsaRecvMsg => 0
  | _ => call.flags

/-- The code goes on with `NO_ERROR`.  The result of `WSARecvMsg`, which is zero for a success,
is tested like that of a `BOOL` function. -/
def LowerCall.noError (call : LowerCall) (operation : Operation) : Bool :=
  if operation = .wsaRecvMsg then !call.succeeds else call.succeeds

/-- `ExecuteOverlappedOperation`, with what it answers. -/
def executeOverlappedOperation (operation : Operation) (bSynchronous : Bool) (call : LowerCall)
    (ol : WSAOverlapped) : WSAOverlapped × DWORD :=
  if call.noError operation = false ∧ call.error ≠ wsaIoPending then
    ({ ol with
      offset := call.error
      offsetHigh := call.lpdwFlags operation
      internalHigh := (call.lpdwBytes operation).toNat }, call.error)
  else if call.noError operation = true ∧ bSynchronous = true then (ol, 0)
  else (ol, wsaIoPending)

/-- What the lower provider has given with an error. -/
def LowerCall.result (call : LowerCall) (operation : Operation) (error : DWORD) : Result :=
  ⟨call.lpdwBytes operation, call.lpdwFlags operation, error⟩

/-! ## States -/

/-- Where the operation is.  Below the LSP `notified` tells whether the lower provider will let
the LSP know that it has completed; a finished operation may have a `CallUserApcProc` that has
still to run. -/
inductive Phase
  | idle
  | queued (request : Request)
  | below (request : Request) (notified : Bool)
  | finished (result : Result) (apc : Bool)

/-- The application has called, and the LSP or the lower provider has still to finish. -/
def Phase.Pending : Phase → Prop
  | .queued _ | .below _ _ => True
  | .idle | .finished _ _ => False

structure State where
  phase : Phase
  ol : WSAOverlapped

/-- Before the first operation, with any content of the structure. -/
def start (ol : WSAOverlapped) : State := ⟨.idle, ol⟩

/-- Where the operation is after the call of the lower provider.  If that has succeeded, the LSP
is done with the operation unless it has answered that it is pending and is going to be told of
the completion. -/
def phaseAfter (request : Request) (notified : Bool) (call : LowerCall) (answer : DWORD) :
    Phase :=
  if call.succeeds then
    if answer = wsaIoPending ∧ notified = true then .below request true
    else .finished (call.result request.operation 0) false
  else if call.error = wsaIoPending then .below request notified
  else .finished (call.result request.operation call.error) false

def execute (request : Request) (bSynchronous notified : Bool) (call : LowerCall)
    (ol : WSAOverlapped) : State :=
  let executed := executeOverlappedOperation request.operation bSynchronous call ol
  ⟨phaseAfter request notified call executed.2, executed.1⟩

/-- `WSARecvMsg` is given the completion routine of the caller. -/
def Request.routineBelow (request : Request) : Bool :=
  request.operation == .wsaRecvMsg && request.lpCallerCompletionRoutine.isSome

/-- `QueueOverlappedOperation`: the provider socket is associated with the completion port, if
there is one, and the operation is executed; without one the worker thread will execute it.
`hIocp` tells whether the socket has been associated before. -/
def queueOverlappedOperation (ghIocp : Bool) (request : Request) (hIocp : Bool)
    (association : Association) (call : LowerCall) (ol : WSAOverlapped) : State :=
  let ol := setOverlappedInProgress ol
  if ghIocp then
    let bSynchronous := !hIocp && association == .invalidParameter
    let associated := hIocp || association == .made
    execute request bSynchronous (associated && !request.routineBelow) call ol
  else ⟨.queued request, ol⟩

/-- The worker thread executes the operation, with its own completion routine if the function
takes one. -/
def executeQueued (request : Request) (call : LowerCall) (ol : WSAOverlapped) : State :=
  execute request false (!request.operation.isExtension) call ol

/-! ## Completing an operation -/

/-- `WPUCompleteOverlappedRequest`: it marks the structure as completed, with the byte count, and
leaves the rest of it alone. -/
structure UpCalls where
  wpuCompleteOverlappedRequest : WSAOverlapped → DWORD → DWORD → WSAOverlapped
  internal : ∀ ol dwError cbTransferred,
    (wpuCompleteOverlappedRequest ol dwError cbTransferred).internal ≠ wssOperationInProgress
  internalHigh : ∀ ol dwError cbTransferred,
    (wpuCompleteOverlappedRequest ol dwError cbTransferred).internalHigh = cbTransferred.toNat
  offset : ∀ ol dwError cbTransferred,
    (wpuCompleteOverlappedRequest ol dwError cbTransferred).offset = ol.offset
  offsetHigh : ∀ ol dwError cbTransferred,
    (wpuCompleteOverlappedRequest ol dwError cbTransferred).offsetHigh = ol.offsetHigh

/-- A completion of the lower provider and what the routine then meets: the context of the
socket and that of an accept socket are found, `WPUQueueApc` succeeds. -/
structure Completion where
  result : Result
  contextFound : Bool
  acceptContextFound : Bool
  wpuQueueApc : Bool

/-- An accept that has succeeded uses the context of the accept socket without a test. -/
def Completion.faults (c : Completion) (operation : Operation) : Bool :=
  match operation with
  | .acceptEx _ => c.result.error == 0 && !c.acceptContextFound
  | _ => false

/-- `IntermediateCompletionRoutine`; `none` if it uses a context that is not there. -/
def intermediateCompletionRoutine (u : UpCalls) (request : Request) (c : Completion)
    (ol : WSAOverlapped) : Option State :=
  if c.contextFound then
    let ol := { ol with
      offset := c.result.error
      offsetHigh := c.result.flags
      internalHigh := c.result.bytes.toNat }
    if c.faults request.operation then none
    else
      match request.lpCallerCompletionRoutine with
      | some routine =>
          some ⟨.finished c.result c.wpuQueueApc, { ol with internal := routine }⟩
      | none =>
          some ⟨.finished c.result false,
            u.wpuCompleteOverlappedRequest ol c.result.error c.result.bytes⟩
  else some ⟨.finished c.result false, ol⟩

/-- `CallUserApcProc`, before it calls the routine. -/
def callUserApcProc (ol : WSAOverlapped) : WSAOverlapped :=
  { ol with internal := ol.offset.toNat }

/-- What happens to the structure. -/
inductive Action
  | call (request : Request) (hIocp : Bool) (association : Association) (lower : LowerCall)
  | dequeue (lower : LowerCall)
  | complete (completion : Completion)
  | apc

def step (u : UpCalls) (ghIocp : Bool) (s : State) : Action → Option State
  | .call request hIocp association lower =>
      match s.phase with
      | .idle | .finished _ false =>
          some (queueOverlappedOperation ghIocp request hIocp association lower s.ol)
      | _ => none
  | .dequeue lower =>
      match s.phase with
      | .queued request => some (executeQueued request lower s.ol)
      | _ => none
  | .complete completion =>
      match s.phase with
      | .below request true => intermediateCompletionRoutine u request completion s.ol
      | .below _ false => some ⟨.finished completion.result false, s.ol⟩
      | _ => none
  | .apc =>
      match s.phase with
      | .finished result true => some ⟨.finished result false, callUserApcProc s.ol⟩
      | _ => none

/-! ## Statement -/

/-- The answer to a query of an operation in progress. -/
def incomplete : Query := ⟨false, none, none, wsaIoIncomplete⟩

/-- The answer to a query of a finished operation. -/
def Result.query (r : Result) : Query :=
  ⟨r.error == 0, some r.bytes, some r.flags, r.error⟩

/-- A query reports an operation as incomplete exactly while it is pending, and the result of
the lower provider once it is finished. -/
structure State.Tells (s : State) : Prop where
  incomplete : s.phase ≠ .idle →
    (wspGetOverlappedResult s.ol = incomplete ↔ s.phase.Pending)
  result : ∀ r apc, s.phase = .finished r apc → wspGetOverlappedResult s.ol = r.query

/-- The call has not failed, the LSP takes it for pending if it has succeeded, and is then told of
its completion. -/
def LowerCall.Follows (call : LowerCall) (request : Request) (notified : Bool) : Prop :=
  if call.succeeds then
    notified = true ∧ (request.operation = .wsaRecvMsg → call.error = wsaIoPending)
  else call.error = wsaIoPending

/-- What is executed does not fail at once and will be reported if it succeeds; a completion is
reported to the LSP, which finds the context of the socket; and neither the routine nor the error
that are written to `Internal` read as the mark. -/
def Action.Delivers (ghIocp : Bool) (s : State) : Action → Prop
  | .call request hIocp association lower =>
      ghIocp = true →
        lower.Follows request ((hIocp || association == .made) && !request.routineBelow)
  | .dequeue lower =>
      ∀ request, s.phase = .queued request →
        lower.Follows request (!request.operation.isExtension)
  | .complete completion =>
      ∀ request notified, s.phase = .below request notified →
        notified = true ∧ completion.contextFound = true ∧
          request.lpCallerCompletionRoutine ≠ some wssOperationInProgress
  | .apc =>
      ∀ result, s.phase = .finished result true →
        result.error.toNat ≠ wssOperationInProgress

/-! ## The structure -/

section Structure
variable {ol : WSAOverlapped} {phase : Phase} {r : Result} {apc : Bool}

theorem query_ne_incomplete (r : Result) : r.query ≠ incomplete := by
  simp [Result.query, incomplete]

theorem query_eq_incomplete_iff :
    wspGetOverlappedResult ol = incomplete ↔ ol.internal = wssOperationInProgress := by
  constructor
  · intro hquery
    by_contra hmark
    rw [wspGetOverlappedResult, if_pos hmark] at hquery
    simp [incomplete] at hquery
  · intro hmark
    rw [wspGetOverlappedResult, if_neg (not_not_intro hmark)]
    rfl

theorem query_eq_result_iff : wspGetOverlappedResult ol = r.query ↔
      ol.internal ≠ wssOperationInProgress ∧ BitVec.ofNat 32 ol.internalHigh = r.bytes ∧
        ol.offsetHigh = r.flags ∧ ol.offset = r.error := by
  by_cases hmark : ol.internal = wssOperationInProgress
  · have hnot : wspGetOverlappedResult ol ≠ r.query := by
      rw [query_eq_incomplete_iff.2 hmark]
      exact (query_ne_incomplete r).symm
    simp [hmark, hnot]
  · rw [wspGetOverlappedResult, if_pos hmark]
    constructor
    · intro hquery
      simp only [Result.query, Query.mk.injEq, Option.some.injEq] at hquery
      exact ⟨hmark, hquery.2⟩
    · rintro ⟨-, hbytes, hflags, herror⟩
      simp [Result.query, hbytes, hflags, herror]

theorem tells_pending_iff (hphase : phase.Pending) :
    State.Tells ⟨phase, ol⟩ ↔ ol.internal = wssOperationInProgress := by
  have hidle : phase ≠ .idle := by
    rintro rfl
    exact hphase
  have hfinished : ∀ r apc, phase ≠ .finished r apc := by
    rintro r apc rfl
    exact hphase
  constructor
  · intro htells
    exact query_eq_incomplete_iff.1 ((htells.incomplete hidle).2 hphase)
  · intro hmark
    constructor
    · intro _
      exact iff_of_true (query_eq_incomplete_iff.2 hmark) hphase
    · intro r apc hr
      exact absurd hr (hfinished r apc)

theorem tells_queued_iff {request : Request} :
    State.Tells ⟨.queued request, ol⟩ ↔ ol.internal = wssOperationInProgress :=
  tells_pending_iff trivial

theorem tells_below_iff {request : Request} {notified : Bool} :
    State.Tells ⟨.below request notified, ol⟩ ↔ ol.internal = wssOperationInProgress :=
  tells_pending_iff trivial

theorem tells_finished_iff :
    State.Tells ⟨.finished r apc, ol⟩ ↔ wspGetOverlappedResult ol = r.query := by
  constructor
  · intro htells
    exact htells.result r apc rfl
  · intro hquery
    constructor
    · intro _
      refine iff_of_false ?_ id
      rw [hquery]
      exact query_ne_incomplete r
    · intro r' apc' hphase
      obtain ⟨rfl, -⟩ := Phase.finished.inj hphase
      exact hquery

theorem not_tells_marked (hmark : ol.internal = wssOperationInProgress) :
    ¬State.Tells ⟨.finished r apc, ol⟩ := by
  intro htells
  have hquery := tells_finished_iff.1 htells
  rw [query_eq_incomplete_iff.2 hmark] at hquery
  exact query_ne_incomplete r hquery.symm

end Structure

/-! ## Steps -/

section Steps
variable {u : UpCalls} {ghIocp bSynchronous notified : Bool} {request : Request}
  {call : LowerCall} {ol : WSAOverlapped} {s t : State} {action : Action}

theorem internal_execute :
    (execute request bSynchronous notified call ol).ol.internal = ol.internal := by
  simp only [execute, executeOverlappedOperation]
  split_ifs <;> rfl

theorem answer_eq_pending_iff (hsucceeds : call.succeeds = true) :
    (executeOverlappedOperation request.operation bSynchronous call ol).2 = wsaIoPending ↔
      if request.operation = .wsaRecvMsg then call.error = wsaIoPending
      else bSynchronous = false := by
  by_cases hrecv : request.operation = .wsaRecvMsg
  · by_cases herror : call.error = wsaIoPending <;>
      simp [executeOverlappedOperation, LowerCall.noError, hrecv, hsucceeds, herror]
  · rcases bSynchronous with - | - <;>
      simp [executeOverlappedOperation, LowerCall.noError, hrecv, hsucceeds, wsaIoPending]

theorem pending_of_follows (hsync : bSynchronous = true → notified = false)
    (hfollows : call.Follows request notified) :
    (execute request bSynchronous notified call ol).phase.Pending := by
  simp only [execute, phaseAfter]
  unfold LowerCall.Follows at hfollows
  by_cases hsucceeds : call.succeeds = true
  · rw [if_pos hsucceeds] at hfollows ⊢
    obtain ⟨hnotified, hrecv⟩ := hfollows
    have hanswer : (executeOverlappedOperation request.operation bSynchronous call ol).2 =
        wsaIoPending := by
      apply (answer_eq_pending_iff hsucceeds).2
      by_cases hoperation : request.operation = .wsaRecvMsg
      · rw [if_pos hoperation]
        exact hrecv hoperation
      · rw [if_neg hoperation]
        by_contra hb
        rw [hsync (eq_true_of_ne_false hb)] at hnotified
        exact Bool.false_ne_true hnotified
    rw [if_pos ⟨hanswer, hnotified⟩]
    trivial
  · rw [if_neg hsucceeds] at hfollows ⊢
    rw [if_pos hfollows]
    trivial

theorem finished_of_not_follows (bSynchronous : Bool) (ol : WSAOverlapped)
    (hfollows : ¬call.Follows request notified) :
    ∃ r, (execute request bSynchronous notified call ol).phase = .finished r false := by
  simp only [execute, phaseAfter]
  unfold LowerCall.Follows at hfollows
  by_cases hsucceeds : call.succeeds = true
  · rw [if_pos hsucceeds] at hfollows ⊢
    rw [if_neg]
    · exact ⟨_, rfl⟩
    · rintro ⟨hanswer, hnotified⟩
      have hrecv := (answer_eq_pending_iff hsucceeds).1 hanswer
      refine hfollows ⟨hnotified, ?_⟩
      intro hoperation
      rwa [if_pos hoperation] at hrecv
  · rw [if_neg hsucceeds] at hfollows ⊢
    rw [if_neg hfollows]
    exact ⟨_, rfl⟩

theorem tells_execute_iff (hmark : ol.internal = wssOperationInProgress)
    (hsync : bSynchronous = true → notified = false) :
    (execute request bSynchronous notified call ol).Tells ↔ call.Follows request notified := by
  have hinternal : (execute request bSynchronous notified call ol).ol.internal =
      wssOperationInProgress := internal_execute.trans hmark
  constructor
  · intro htells
    by_contra hfollows
    obtain ⟨r, hr⟩ := finished_of_not_follows bSynchronous ol hfollows
    have hnot : ¬State.Tells ⟨.finished r false, _⟩ := not_tells_marked hinternal
    rw [← hr] at hnot
    exact hnot htells
  · intro hfollows
    exact (tells_pending_iff (pending_of_follows hsync hfollows)).2 hinternal

theorem tells_written_iff {apc : Bool} {ol' : WSAOverlapped} {r : Result}
    (hhigh : ol'.internalHigh = r.bytes.toNat) (hflags : ol'.offsetHigh = r.flags)
    (herror : ol'.offset = r.error) :
    State.Tells ⟨.finished r apc, ol'⟩ ↔ ol'.internal ≠ wssOperationInProgress := by
  rw [tells_finished_iff, query_eq_result_iff]
  simp [hhigh, hflags, herror]

theorem tells_routine_iff {completion : Completion} (hmark : ol.internal = wssOperationInProgress)
    (hstep : intermediateCompletionRoutine u request completion ol = some t) :
    t.Tells ↔ completion.contextFound = true ∧
      request.lpCallerCompletionRoutine ≠ some wssOperationInProgress := by
  unfold intermediateCompletionRoutine at hstep
  by_cases hfound : completion.contextFound = true
  · by_cases hfaults : completion.faults request.operation = true
    · simp [hfound, hfaults] at hstep
    · rcases hroutine : request.lpCallerCompletionRoutine with - | routine
      · simp only [hfound, hfaults, hroutine] at hstep
        obtain rfl := Option.some.inj hstep
        rw [tells_written_iff (u.internalHigh _ _ _) (u.offsetHigh _ _ _) (u.offset _ _ _)]
        simp [hfound, u.internal]
      · simp only [hfound, hfaults, hroutine] at hstep
        obtain rfl := Option.some.inj hstep
        rw [tells_written_iff rfl rfl rfl]
        simp [hfound]
  · rw [if_neg hfound] at hstep
    obtain rfl := Option.some.inj hstep
    refine iff_of_false (not_tells_marked hmark) ?_
    rintro ⟨hcontext, -⟩
    exact hfound hcontext

theorem tells_queue_iff {hIocp : Bool} {association : Association} :
    (queueOverlappedOperation ghIocp request hIocp association call ol).Tells ↔ (ghIocp = true →
        call.Follows request ((hIocp || association == .made) && !request.routineBelow)) := by
  by_cases hport : ghIocp = true
  · simp only [queueOverlappedOperation, hport, true_implies]
    apply tells_execute_iff rfl
    -- `CreateIoCompletionPort` has failed with `ERROR_INVALID_PARAMETER`.
    intro hsync
    rw [Bool.and_eq_true, Bool.not_eq_true', beq_iff_eq] at hsync
    obtain ⟨hnot, rfl⟩ := hsync
    rw [hnot]
    rfl
  · simp only [queueOverlappedOperation, hport]
    exact iff_of_true (tells_queued_iff.2 rfl) (fun hfalse => absurd hfalse Bool.false_ne_true)

theorem tells_step_iff (hs : s.Tells) (hstep : step u ghIocp s action = some t) :
    t.Tells ↔ action.Delivers ghIocp s := by
  obtain ⟨phase, ol⟩ := s
  rcases action with ⟨request, hIocp, association, lower⟩ | lower | completion | -
  · have ht : queueOverlappedOperation ghIocp request hIocp association lower ol = t := by
      rcases phase with _ | _ | _ | ⟨r, _ | _⟩
      all_goals simp only [step, Option.some.injEq, reduceCtorEq] at hstep
      all_goals exact hstep
    rw [← ht]
    exact tells_queue_iff
  · rcases phase with _ | request | _ | _
    all_goals simp only [step, Option.some.injEq, reduceCtorEq] at hstep
    have hmark := tells_queued_iff.1 hs
    rw [← hstep, executeQueued, tells_execute_iff hmark (by simp)]
    simp [Action.Delivers]
  · rcases phase with _ | _ | ⟨request, _ | _⟩ | _
    all_goals simp only [step, Option.some.injEq, reduceCtorEq] at hstep
    all_goals have hmark := tells_below_iff.1 hs
    · rw [← hstep]
      refine iff_of_false (not_tells_marked hmark) ?_
      intro hdelivers
      exact absurd (hdelivers request false rfl).1 Bool.false_ne_true
    · rw [tells_routine_iff hmark hstep]
      simp [Action.Delivers]
  · rcases phase with _ | _ | _ | ⟨r, _ | _⟩
    all_goals simp only [step, Option.some.injEq, reduceCtorEq] at hstep
    obtain ⟨-, hbytes, hflags, herror⟩ := query_eq_result_iff.1 (tells_finished_iff.1 hs)
    rw [← hstep, tells_finished_iff, query_eq_result_iff]
    simp [callUserApcProc, Action.Delivers, hbytes, hflags, herror]

/-- Whatever operations the application starts on the structure, in every state a query tells
what has become of the last one exactly if every step delivers. -/
theorem query_tells_iff (u : UpCalls) (ghIocp : Bool) (ol : WSAOverlapped)
    (actions : List Action) :
    (∀ taken s, taken <+: actions →
        RunsTo (step u ghIocp) Always (start ol) taken s → s.Tells) ↔
      ∀ taken action s t, taken ++ [action] <+: actions →
        RunsTo (step u ghIocp) Always (start ol) taken s →
          step u ghIocp s action = some t → action.Delivers ghIocp s := by
  apply throughout_iff
  · constructor
    · intro hidle
      exact absurd rfl hidle
    · intro r apc hphase
      exact Phase.noConfusion hphase
  · intro s action t hs hstep
    exact tells_step_iff hs hstep

end Steps

/-- Completing a request sets the status to zero. -/
def upCalls : UpCalls where
  wpuCompleteOverlappedRequest := fun ol _ cbTransferred =>
    { ol with internal := 0, internalHigh := cbTransferred.toNat }
  internal := fun _ _ _ => (by decide : 0 ≠ wssOperationInProgress)
  internalHigh := fun _ _ _ => rfl
  offset := fun _ _ _ => rfl
  offsetHigh := fun _ _ _ => rfl

/-- A receive on an associated socket that fails at once with `WSAECONNRESET`. -/
def connectionReset : Action :=
  .call ⟨.recv, none⟩ true .made ⟨false, 10054, 0, 0⟩

/-- The error is in the structure, and a query still reports the receive as incomplete. -/
theorem not_tells_connectionReset :
    ¬∀ taken s, taken <+: [connectionReset] →
      RunsTo (step upCalls true) Always (start ⟨0, 0, 0, 0⟩) taken s → s.Tells := by
  intro htells
  have hrun : RunsTo (step upCalls true) Always (start ⟨0, 0, 0, 0⟩) [connectionReset]
      ⟨.finished ⟨0, 0, 10054⟩ false, ⟨wssOperationInProgress, 0, 10054, 0⟩⟩ :=
    .single trivial rfl
  exact not_tells_marked rfl (htells _ _ (List.prefix_refl _) hrun)

end MiscProjects.Lsp.OverlappedResult
