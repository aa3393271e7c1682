import Mathlib.Data.Int.Notation
import MiscProjects.Lsp.OverlappedResult

/-!
# The results of the extension functions

The extension functions hand on the results of the lower provider's functions.  Five of these
return a `BOOL` and `WSARecvMsg` returns zero or `SOCKET_ERROR`; the six functions of the LSP
and `ExecuteOverlappedOperation` treat all of them like `BOOL` functions.  The arguments that
are handed down as they are do not matter here.
-/

namespace MiscProjects.Lsp.Extensions

open OverlappedResult

abbrev Provider := ℕ

def FALSE : ℤ := 0

def TRUE : ℤ := 1

def SOCKET_ERROR : ℤ := -1

def noError : DWORD := 0

def wsaeFault : DWORD := 10014

def wsaeNotSock : DWORD := 10038

def wsaeNoBufs : DWORD := 10055

inductive ExtFunction
  | transmitFile
  | acceptEx
  | connectEx
  | transmitPackets
  | disconnectEx
  | wsaRecvMsg
deriving DecidableEq

/-- What a function returns, and the last error of the thread then. -/
structure Returned where
  value : ℤ
  lastError : DWORD
deriving DecidableEq

/-! ## The functions -/

/-- The error code of an upcall that has failed. -/
abbrev Failure := { error : DWORD // error ≠ wsaIoPending }

/-- What a call finds. -/
structure Call where
  lpOverlapped : Option WSAOverlapped
  /-- The provider of the context that `FindAndLockSocketContext` finds for the socket. -/
  socket : Except Failure Provider
  sAcceptSocket : Socket
  /-- The same for the accept socket of `AcceptEx`. -/
  acceptSocket : Except Failure Provider
  /-- `GetOverlappedStructure` does not return a null pointer. -/
  hasStructure : Bool
  ghIocp : Bool
  bSynchronous : Bool
  /-- The last error of the thread before the call. -/
  lastError : DWORD
  /-- The function in the `NextProcTableExt` of a provider, if it is there, by its result. -/
  lower : Provider → Option LowerCall

def ExtFunction.operation (sAcceptSocket : Socket) : ExtFunction → Operation
  | .transmitFile => .transmitFile
  | .acceptEx => .acceptEx sAcceptSocket
  | .connectEx => .connectEx
  | .transmitPackets => .transmitPackets
  | .disconnectEx => .disconnectEx
  | .wsaRecvMsg => .wsaRecvMsg

/-- What the function of the lower provider returns. -/
def ExtFunction.lowerReturns (fn : ExtFunction) (lower : LowerCall) : Returned :=
  match fn with
  | .wsaRecvMsg => ⟨if lower.succeeds then 0 else SOCKET_ERROR, lower.error⟩
  | _ => ⟨if lower.succeeds then TRUE else FALSE, lower.error⟩

/-- `QueueOverlappedOperation`, with what it returns. -/
def queueOverlappedOperation (fn : ExtFunction) (call : Call) (lower : LowerCall)
    (ol : WSAOverlapped) : DWORD :=
  if call.ghIocp then
    (OverlappedResult.executeOverlappedOperation (fn.operation call.sAcceptSocket)
      call.bSynchronous lower (setOverlappedInProgress ol)).2
  else wsaIoPending

/-- The result of `QueueOverlappedOperation` as a `BOOL`. -/
def asBool (ret lastError : DWORD) : Returned :=
  if ret ≠ noError then ⟨FALSE, ret⟩ else ⟨TRUE, lastError⟩

/-- The functions on one socket; `unknown` is what is returned without a context. -/
def extension (fn : ExtFunction) (unknown : Failure → Returned) (call : Call) : Returned :=
  match call.socket with
  | .error errno => unknown errno
  | .ok provider =>
      match call.lower provider with
      | none => ⟨FALSE, wsaeFault⟩
      | some lower =>
          match call.lpOverlapped with
          | none => fn.lowerReturns lower
          | some ol =>
              if call.hasStructure then
                asBool (Extensions.queueOverlappedOperation fn call lower ol) lower.error
              else ⟨FALSE, wsaeNoBufs⟩

def extTransmitFile (call : Call) : Returned :=
  extension .transmitFile (fun errno => ⟨FALSE, errno.1⟩) call

/-- The overlapped operation is executed by the provider of the accept socket, whose function
has not been looked at.  `none` is a call of a null pointer. -/
def extAcceptEx (call : Call) : Option Returned :=
  match call.socket with
  | .error _ => some ⟨FALSE, wsaeNotSock⟩
  | .ok listenProvider =>
      match call.acceptSocket with
      | .error _ => some ⟨FALSE, wsaeNotSock⟩
      | .ok acceptProvider =>
          match call.lower listenProvider with
          | none => some ⟨FALSE, wsaeFault⟩
          | some lower =>
              match call.lpOverlapped with
              | none => some (ExtFunction.acceptEx.lowerReturns lower)
              | some ol =>
                  if !call.hasStructure then some ⟨FALSE, wsaeNoBufs⟩
                  else if !call.ghIocp then some (asBool wsaIoPending call.lastError)
                  else (call.lower acceptProvider).map fun lower =>
                    asBool (Extensions.queueOverlappedOperation .acceptEx call lower ol) lower.error

/-- The last error is not set when there is no context. -/
def extConnectEx (call : Call) : Returned :=
  extension .connectEx (fun _ => ⟨FALSE, call.lastError⟩) call

def extTransmitPackets (call : Call) : Returned :=
  extension .transmitPackets (fun errno => ⟨FALSE, errno.1⟩) call

def extDisconnectEx (call : Call) : Returned :=
  extension .disconnectEx (fun errno => ⟨FALSE, errno.1⟩) call

/-- The results are those of a `BOOL` function. -/
def extWSARecvMsg (call : Call) : Returned :=
  extension .wsaRecvMsg (fun errno => ⟨FALSE, errno.1⟩) call

def ExtFunction.ext (call : Call) : ExtFunction → Option Returned
  | .transmitFile => some (extTransmitFile call)
  | .acceptEx => extAcceptEx call
  | .connectEx => some (extConnectEx call)
  | .transmitPackets => some (extTransmitPackets call)
  | .disconnectEx => some (extDisconnectEx call)
  | .wsaRecvMsg => some (extWSARecvMsg call)

/-! ## What a result says -/

inductive Signal
  | success
  | pending
  | failure (error : DWORD)
deriving DecidableEq

def errorSignal (error : DWORD) : Signal :=
  if error = wsaIoPending then .pending else .failure error

/-- What the caller takes the result for; `none` is a value that the function must not return. -/
def ExtFunction.signal (fn : ExtFunction) (r : Returned) : Option Signal :=
  match fn with
  | .wsaRecvMsg =>
      if r.value = 0 then some .success
      else if r.value = SOCKET_ERROR then some (errorSignal r.lastError)
      else none
  | _ => some (if r.value = FALSE then errorSignal r.lastError else .success)

/-- The result tells what the lower provider has told: a success may become an operation that is
pending. -/
def Tells (said : Option Signal) (told : Signal) : Prop :=
  match told with
  | .failure error => said = some (.failure error)
  | _ => said = some .success ∨ said = some .pending

instance (said : Option Signal) (told : Signal) : Decidable (Tells said told) := by
  cases told with
  | failure error => exact inferInstanceAs (Decidable (_ = _))
  | success => exact inferInstanceAs (Decidable (_ ∨ _))
  | pending => exact inferInstanceAs (Decidable (_ ∨ _))

/-! ## Statement -/

/-- What becomes of a call: it fails in the LSP, the function of the lower provider is called,
or the worker thread will call it. -/
inductive Course
  | refused
  | passed (lower : LowerCall)
  | queued

/-- The provider whose function is called with an overlapped structure. -/
def ExtFunction.overlappedProvider (call : Call) (provider : Provider) :
    ExtFunction → Except Failure Provider
  | .acceptEx => call.acceptSocket
  | _ => .ok provider

def ExtFunction.course (fn : ExtFunction) (call : Call) : Course :=
  match call.socket with
  | .error _ => .refused
  | .ok provider =>
      match fn.overlappedProvider call provider, call.lower provider with
      | .ok provider', some lower =>
          if call.lpOverlapped.isNone then .passed lower
          else if !call.hasStructure then .refused
          else
            match call.lower provider' with
            | none => .refused
            | some lower => if call.ghIocp then .passed lower else .queued
      | _, _ => .refused

/-- The function is transparent in this call. -/
def Transparent (fn : ExtFunction) (call : Call) : Prop :=
  ∃ r, fn.ext call = some r ∧
    match fn.course call with
    | .refused => ∃ error, fn.signal r = some (.failure error)
    | .passed lower => ∃ told, fn.signal (fn.lowerReturns lower) = some told ∧
        Tells (fn.signal r) told
    | .queued => fn.signal r = some .success ∨ fn.signal r = some .pending

/-- `AcceptEx` is executed by a provider that does not have it. -/
def nullFunction (call : Call) : Prop :=
  call.lpOverlapped.isSome = true ∧ call.hasStructure = true ∧
    ∃ listenProvider acceptProvider, call.socket = .ok listenProvider ∧
      call.acceptSocket = .ok acceptProvider ∧ (call.lower listenProvider).isSome = true ∧
      call.lower acceptProvider = none

/-- When a function is transparent. -/
def Keeps (fn : ExtFunction) (call : Call) : Prop :=
  match fn, fn.course call with
  -- Zero is a success.
  | .wsaRecvMsg, .refused => False
  | .wsaRecvMsg, .passed lower => call.lpOverlapped.isSome = true →
      if lower.succeeds then lower.error ≠ noError
      else lower.error = wsaIoPending ∧ call.bSynchronous = false
  -- The last error is an old one.
  | .connectEx, .refused => (∀ errno, call.socket ≠ .error errno) ∨ call.lastError ≠ wsaIoPending
  | .acceptEx, .refused => ¬ nullFunction call
  | _, .refused => True
  | _, .passed lower => call.lpOverlapped.isSome = true →
      lower.succeeds = true ∨ lower.error ≠ noError
  | _, .queued => True

/-! ## Results of the lower provider -/

section Lower
variable {fn : ExtFunction} {call : Call} {lower : LowerCall} {ol : WSAOverlapped}

/-- What the lower provider has told. -/
def told (lower : LowerCall) : Signal :=
  if lower.succeeds then .success else errorSignal lower.error

theorem signal_lowerReturns (fn : ExtFunction) (lower : LowerCall) :
    fn.signal (fn.lowerReturns lower) = some (told lower) := by
  cases hsucceeds : lower.succeeds with
  | true =>
      cases fn <;> simp [ExtFunction.signal, ExtFunction.lowerReturns, told, hsucceeds, TRUE, FALSE]
  | false =>
      cases fn <;> simp [ExtFunction.signal, ExtFunction.lowerReturns, told, hsucceeds, FALSE,
        SOCKET_ERROR]

theorem tells_self (told : Signal) : Tells (some told) told := by
  cases told with
  | failure error => rfl
  | success => exact Or.inl rfl
  | pending => exact Or.inr rfl

theorem queue_of_iocp (hiocp : call.ghIocp = true) :
    Extensions.queueOverlappedOperation fn call lower ol =
      if lower.noError (fn.operation call.sAcceptSocket) = false ∧ lower.error ≠ wsaIoPending then
        lower.error
      else if lower.noError (fn.operation call.sAcceptSocket) = true ∧
          call.bSynchronous = true then noError
      else wsaIoPending := by
  rw [Extensions.queueOverlappedOperation, if_pos hiocp,
    OverlappedResult.executeOverlappedOperation]
  split
  · rfl
  · split
    · rfl
    · rfl

theorem noError_eq (hfn : fn ≠ .wsaRecvMsg) :
    lower.noError (fn.operation call.sAcceptSocket) = lower.succeeds := by
  cases fn with
  | wsaRecvMsg => exact absurd rfl hfn
  | transmitFile | acceptEx | connectEx | transmitPackets | disconnectEx => rfl

theorem signal_bool (hfn : fn ≠ .wsaRecvMsg) (r : Returned) :
    fn.signal r = some (if r.value = FALSE then errorSignal r.lastError else .success) := by
  cases fn with
  | wsaRecvMsg => exact absurd rfl hfn
  | transmitFile | acceptEx | connectEx | transmitPackets | disconnectEx => rfl

theorem tells_queue_bool_iff (hfn : fn ≠ .wsaRecvMsg) (hiocp : call.ghIocp = true) :
    Tells (fn.signal (asBool (Extensions.queueOverlappedOperation fn call lower ol) lower.error))
        (told lower) ↔ lower.succeeds = true ∨ lower.error ≠ noError := by
  rw [queue_of_iocp hiocp, noError_eq hfn, signal_bool hfn, told]
  cases lower.succeeds with
  | true =>
      cases call.bSynchronous with
      | true => simp [asBool, Tells, TRUE, FALSE]
      | false => simp [asBool, Tells, errorSignal, wsaIoPending, noError]
  | false =>
      by_cases hpending : lower.error = wsaIoPending
      · simp [asBool, Tells, errorSignal, hpending, wsaIoPending, noError]
      · by_cases hzero : lower.error = noError
        · simp [asBool, Tells, errorSignal, hzero, wsaIoPending, noError, TRUE, FALSE]
        · simp [asBool, Tells, errorSignal, hpending, hzero]

theorem tells_queue_wsaRecvMsg_iff (hiocp : call.ghIocp = true) :
    Tells (ExtFunction.wsaRecvMsg.signal
        (asBool (Extensions.queueOverlappedOperation .wsaRecvMsg call lower ol) lower.error))
        (told lower) ↔
      if lower.succeeds then lower.error ≠ noError
      else lower.error = wsaIoPending ∧ call.bSynchronous = false := by
  have hnoError : lower.noError (ExtFunction.wsaRecvMsg.operation call.sAcceptSocket) =
      !lower.succeeds := rfl
  have hne : wsaIoPending ≠ noError := by decide
  rw [queue_of_iocp hiocp, hnoError, told]
  cases lower.succeeds with
  | true =>
      by_cases hpending : lower.error = wsaIoPending
      · simp [asBool, Tells, ExtFunction.signal, hpending, wsaIoPending, noError, FALSE]
      · by_cases hzero : lower.error = noError
        · simp [asBool, Tells, ExtFunction.signal, hzero, wsaIoPending, noError, TRUE, SOCKET_ERROR]
        · simp [asBool, Tells, ExtFunction.signal, hpending, hzero, FALSE]
  | false =>
      by_cases hpending : lower.error = wsaIoPending
      · cases call.bSynchronous with
        | true =>
            simp [asBool, Tells, ExtFunction.signal, errorSignal, hpending, TRUE, SOCKET_ERROR]
        | false =>
            simp [asBool, Tells, ExtFunction.signal, errorSignal, hpending, wsaIoPending, noError,
              FALSE]
      · cases call.bSynchronous with
        | true =>
            simp [asBool, Tells, ExtFunction.signal, errorSignal, hpending, TRUE, SOCKET_ERROR]
        | false => simp [asBool, Tells, ExtFunction.signal, errorSignal, hpending, hne, FALSE]

theorem signal_queued (fn : ExtFunction) (lastError : DWORD) :
    fn.signal (asBool wsaIoPending lastError) = some .success ∨
      fn.signal (asBool wsaIoPending lastError) = some .pending := by
  have hpending : wsaIoPending ≠ noError := by decide
  rw [asBool, if_pos hpending]
  cases fn with
  | wsaRecvMsg => exact Or.inl rfl
  | transmitFile | acceptEx | connectEx | transmitPackets | disconnectEx => exact Or.inr rfl

end Lower

/-! ## Calls -/

section Calls
variable {fn : ExtFunction} {call : Call} {unknown : Failure → Returned}

theorem extension_spec (call : Call) (haccept : fn ≠ .acceptEx) (unknown : Failure → Returned) :
    match fn.course call with
    | .refused =>
        (∃ errno, call.socket = .error errno ∧ extension fn unknown call = unknown errno) ∨
          (∀ errno, call.socket ≠ .error errno) ∧
            ∃ error, error ≠ wsaIoPending ∧ extension fn unknown call = ⟨FALSE, error⟩
    | .passed lower =>
        call.lpOverlapped = none ∧ extension fn unknown call = fn.lowerReturns lower ∨
          ∃ ol, call.lpOverlapped = some ol ∧ call.ghIocp = true ∧
            extension fn unknown call =
              asBool (Extensions.queueOverlappedOperation fn call lower ol) lower.error
    | .queued => ∃ lastError, extension fn unknown call = asBool wsaIoPending lastError := by
  have hprovider : ∀ provider, fn.overlappedProvider call provider = .ok provider := by
    intro provider
    cases fn with
    | acceptEx => exact absurd rfl haccept
    | transmitFile | connectEx | transmitPackets | disconnectEx | wsaRecvMsg => rfl
  unfold ExtFunction.course extension
  cases hsocket : call.socket with
  | error errno => exact Or.inl ⟨errno, rfl, rfl⟩
  | ok provider =>
      simp only [hprovider]
      cases hlower : call.lower provider with
      | none => exact Or.inr ⟨fun errno h => (nomatch h), wsaeFault, by decide, rfl⟩
      | some lower =>
          cases hol : call.lpOverlapped with
          | none => exact Or.inl ⟨rfl, rfl⟩
          | some ol =>
              cases hstructure : call.hasStructure with
              | false => exact Or.inr ⟨fun errno h => (nomatch h), wsaeNoBufs, by decide, rfl⟩
              | true =>
                  simp only [Option.isNone_some, Bool.not_true, Bool.false_eq_true, if_false,
                    hlower]
                  cases hiocp : call.ghIocp with
                  | true => exact Or.inr ⟨ol, rfl, rfl, rfl⟩
                  | false =>
                      refine ⟨lower.error, ?_⟩
                      rw [if_pos trivial, Extensions.queueOverlappedOperation, hiocp]
                      rfl

theorem signal_refused (hfn : fn ≠ .wsaRecvMsg) {error : DWORD} :
    (∃ e, fn.signal ⟨FALSE, error⟩ = some (.failure e)) ↔ error ≠ wsaIoPending := by
  rw [signal_bool hfn]
  by_cases hpending : error = wsaIoPending
  · simp [errorSignal, hpending]
  · simp [errorSignal, hpending]

theorem transparent_passed_iff {r : Returned} {lower : LowerCall}
    (hext : fn.ext call = some r) (hcourse : fn.course call = .passed lower) :
    Transparent fn call ↔ Tells (fn.signal r) (told lower) := by
  unfold Transparent
  rw [hext, hcourse]
  simp only [Option.some.injEq, exists_eq_left', signal_lowerReturns]

theorem transparent_bool_iff (unknown : Failure → DWORD) (hfn : fn ≠ .wsaRecvMsg)
    (haccept : fn ≠ .acceptEx)
    (hext : fn.ext call = some (extension fn (fun errno => ⟨FALSE, unknown errno⟩) call)) :
    Transparent fn call ↔
      match fn.course call with
      | .refused => ∀ errno, call.socket = .error errno → unknown errno ≠ wsaIoPending
      | .passed lower => call.lpOverlapped.isSome = true →
          lower.succeeds = true ∨ lower.error ≠ noError
      | .queued => True := by
  have hspec := extension_spec call haccept fun errno => ⟨FALSE, unknown errno⟩
  cases hcourse : fn.course call with
  | refused =>
      unfold Transparent
      rw [hcourse] at hspec ⊢
      rw [hext]
      rcases hspec with ⟨errno, hsocket, hr⟩ | ⟨hsocket, error, hne, hr⟩
      · simp only [hr, Option.some.injEq, exists_eq_left', signal_refused hfn, hsocket,
          Except.error.injEq, forall_eq']
      · simp only [hr, Option.some.injEq, exists_eq_left', signal_refused hfn]
        exact ⟨fun _ errno h => absurd h (hsocket errno), fun _ => hne⟩
  | passed lower =>
      rw [transparent_passed_iff hext hcourse]
      rw [hcourse] at hspec
      rcases hspec with ⟨hol, hr⟩ | ⟨ol, hol, hiocp, hr⟩
      · rw [hr, signal_lowerReturns, hol]
        exact ⟨fun _ h => (nomatch h), fun _ => tells_self _⟩
      · rw [hr, tells_queue_bool_iff hfn hiocp, hol]
        exact ⟨fun h _ => h, fun h => h rfl⟩
  | queued =>
      unfold Transparent
      rw [hcourse] at hspec ⊢
      obtain ⟨lastError, hr⟩ := hspec
      rw [hext, hr]
      exact ⟨fun _ => trivial, fun _ => ⟨_, rfl, signal_queued fn lastError⟩⟩

theorem signal_wsaRecvMsg_false (error : DWORD) :
    ExtFunction.wsaRecvMsg.signal ⟨FALSE, error⟩ = some .success := rfl

theorem transparent_wsaRecvMsg_iff : Transparent .wsaRecvMsg call ↔ Keeps .wsaRecvMsg call := by
  have hext : ExtFunction.wsaRecvMsg.ext call =
      some (extension .wsaRecvMsg (fun errno => ⟨FALSE, errno.1⟩) call) := rfl
  have haccept : ExtFunction.wsaRecvMsg ≠ .acceptEx := by decide
  have hspec := extension_spec call haccept fun errno => ⟨FALSE, errno.1⟩
  unfold Keeps
  cases hcourse : ExtFunction.wsaRecvMsg.course call with
  | refused =>
      rw [hcourse] at hspec
      obtain ⟨error, hr⟩ : ∃ error, extension .wsaRecvMsg (fun errno => ⟨FALSE, errno.1⟩) call =
          ⟨FALSE, error⟩ := by
        rcases hspec with ⟨errno, _, hr⟩ | ⟨_, error, _, hr⟩
        · exact ⟨errno.1, hr⟩
        · exact ⟨error, hr⟩
      unfold Transparent
      rw [hcourse, hext, hr]
      simp [signal_wsaRecvMsg_false]
  | passed lower =>
      rw [transparent_passed_iff hext hcourse]
      rw [hcourse] at hspec
      rcases hspec with ⟨hol, hr⟩ | ⟨ol, hol, hiocp, hr⟩
      · rw [hr, signal_lowerReturns, hol]
        exact ⟨fun _ h => (nomatch h), fun _ => tells_self _⟩
      · rw [hr, tells_queue_wsaRecvMsg_iff hiocp, hol]
        exact ⟨fun h _ => h, fun h => h rfl⟩
  | queued =>
      unfold Transparent
      rw [hcourse] at hspec ⊢
      obtain ⟨lastError, hr⟩ := hspec
      rw [hext, hr]
      exact ⟨fun _ => trivial, fun _ => ⟨_, rfl, signal_queued _ lastError⟩⟩

theorem extAcceptEx_spec (call : Call) :
    match ExtFunction.acceptEx.course call with
    | .refused =>
        nullFunction call ∧ (∀ r, extAcceptEx call = some r →
            ∃ lastError, r = asBool wsaIoPending lastError) ∨
          ¬ nullFunction call ∧
            ∃ error, error ≠ wsaIoPending ∧ extAcceptEx call = some ⟨FALSE, error⟩
    | .passed lower =>
        call.lpOverlapped = none ∧
            extAcceptEx call = some (ExtFunction.acceptEx.lowerReturns lower) ∨
          ∃ ol, call.lpOverlapped = some ol ∧ call.ghIocp = true ∧
            extAcceptEx call =
              some (asBool (Extensions.queueOverlappedOperation .acceptEx call lower ol)
                lower.error)
    | .queued => ∃ lastError, extAcceptEx call = some (asBool wsaIoPending lastError) := by
  unfold ExtFunction.course extAcceptEx nullFunction
  cases hsocket : call.socket with
  | error errno => exact Or.inr ⟨by simp, wsaeNotSock, by decide, rfl⟩
  | ok listenProvider =>
      simp only [ExtFunction.overlappedProvider]
      cases haccept : call.acceptSocket with
      | error errno => exact Or.inr ⟨by simp, wsaeNotSock, by decide, rfl⟩
      | ok acceptProvider =>
          cases hlower : call.lower listenProvider with
          | none => exact Or.inr ⟨by simp [hlower], wsaeFault, by decide, rfl⟩
          | some lower =>
              cases hol : call.lpOverlapped with
              | none => exact Or.inl ⟨rfl, rfl⟩
              | some ol =>
                  cases hstructure : call.hasStructure with
                  | false => exact Or.inr ⟨by simp, wsaeNoBufs, by decide, rfl⟩
                  | true =>
                      simp only [Option.isNone_some, Bool.not_true, Bool.false_eq_true, if_false]
                      cases hnull : call.lower acceptProvider with
                      | none =>
                          left
                          refine ⟨⟨rfl, trivial, listenProvider, acceptProvider, rfl, rfl,
                            by simp [hlower], hnull⟩, fun r hr => ?_⟩
                          cases hiocp : call.ghIocp with
                          | true => simp [hiocp] at hr
                          | false =>
                              simp only [hiocp, Bool.not_false, if_true, Option.some.injEq] at hr
                              exact ⟨call.lastError, hr.symm⟩
                      | some lower' =>
                          cases hiocp : call.ghIocp with
                          | true => exact Or.inr ⟨ol, rfl, rfl, rfl⟩
                          | false => exact ⟨call.lastError, rfl⟩

theorem transparent_acceptEx_iff : Transparent .acceptEx call ↔ Keeps .acceptEx call := by
  have hext : ExtFunction.acceptEx.ext call = extAcceptEx call := rfl
  have hspec := extAcceptEx_spec call
  unfold Keeps
  cases hcourse : ExtFunction.acceptEx.course call with
  | refused =>
      rw [hcourse] at hspec
      unfold Transparent
      rw [hcourse, hext]
      rcases hspec with ⟨hnull, hr⟩ | ⟨hnull, error, hne, hr⟩
      · refine ⟨?_, fun h => absurd hnull h⟩
        rintro ⟨r, hsome, error, hsignal⟩
        obtain ⟨lastError, rfl⟩ := hr r hsome
        rcases signal_queued .acceptEx lastError with h | h
        · rw [h] at hsignal
          cases hsignal
        · rw [h] at hsignal
          cases hsignal
      · rw [hr]
        exact ⟨fun _ => hnull, fun _ => ⟨_, rfl, (signal_refused (by decide)).mpr hne⟩⟩
  | passed lower =>
      rw [hcourse] at hspec
      rcases hspec with ⟨hol, hr⟩ | ⟨ol, hol, hiocp, hr⟩
      · rw [transparent_passed_iff (hext.trans hr) hcourse, signal_lowerReturns, hol]
        exact ⟨fun _ h => (nomatch h), fun _ => tells_self _⟩
      · rw [transparent_passed_iff (hext.trans hr) hcourse,
          tells_queue_bool_iff (by decide) hiocp, hol]
        exact ⟨fun h _ => h, fun h => h rfl⟩
  | queued =>
      unfold Transparent
      rw [hcourse] at hspec ⊢
      obtain ⟨lastError, hr⟩ := hspec
      rw [hext, hr]
      exact ⟨fun _ => trivial, fun _ => ⟨_, rfl, signal_queued _ lastError⟩⟩

end Calls

/-! ## The result -/

/-- The result of an extension function tells what the lower provider's function has told, or
that the call has failed in the LSP, exactly in these cases. -/
theorem extension_transparent_iff (fn : ExtFunction) (call : Call) :
    Transparent fn call ↔ Keeps fn call := by
  cases fn with
  | wsaRecvMsg => exact transparent_wsaRecvMsg_iff
  | acceptEx => exact transparent_acceptEx_iff
  | connectEx =>
      rw [transparent_bool_iff (fun _ => call.lastError) (by decide) (by decide) rfl]
      unfold Keeps
      cases ExtFunction.connectEx.course call with
      | refused =>
          constructor
          · intro h
            by_cases hsocket : ∀ errno, call.socket ≠ .error errno
            · exact Or.inl hsocket
            · push Not at hsocket
              obtain ⟨errno, herrno⟩ := hsocket
              exact Or.inr (h errno herrno)
          · intro h errno herrno
            exact h.resolve_left fun hsocket => hsocket errno herrno
      | passed lower => exact Iff.rfl
      | queued => exact Iff.rfl
  | transmitFile | transmitPackets | disconnectEx =>
      rw [transparent_bool_iff Subtype.val (by decide) (by decide) rfl]
      unfold Keeps
      generalize ExtFunction.course _ call = course
      cases course with
      | refused => exact ⟨fun _ => trivial, fun _ errno _ => errno.2⟩
      | passed lower => exact Iff.rfl
      | queued => exact Iff.rfl

/-- `WSARecvMsg` on a socket that the LSP does not know returns zero. -/
theorem unknown_socket_is_success : ¬ Transparent .wsaRecvMsg
    { lpOverlapped := none
      socket := .error ⟨wsaeNotSock, by decide⟩
      sAcceptSocket := 0
      acceptSocket := .error ⟨wsaeNotSock, by decide⟩
      hasStructure := true
      ghIocp := true
      bSynchronous := false
      lastError := noError
      lower := fun _ => none } := by
  rintro ⟨r, hr, error, hsignal⟩
  cases hr
  cases hsignal.symm.trans (signal_wsaRecvMsg_false wsaeNotSock)

end MiscProjects.Lsp.Extensions
