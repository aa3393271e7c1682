import MiscProjects.Nfp.FileContext

/-!
# What an attempt to complete the pended request can do

`Attempt` lists the four ways in which `CompleteOneGetNextSubscribedMessage`
can end for a pended request.  The invariants of the context are proved by
cases on it; none of them unfolds the function again.
-/

namespace MiscProjects.Nfp

/-! ## Filling the output memory -/

/-- The request's output buffer has room for the size hint and the payload. -/
def Fits (payload : List UInt8) (request : IWDFIoRequest) : Prop :=
  4 + payload.length ≤ request.outputBuffer.length

instance (payload : List UInt8) (request : IWDFIoRequest) :
    Decidable (Fits payload request) :=
  inferInstanceAs (Decidable (_ ≤ _))

theorem fillOutput_of_fits (payload : List UInt8) (memory : IWDFMemory)
    (hfit : 4 + payload.length ≤ memory.getSize) :
    ∃ memory', fillOutput payload.length (some payload) memory =
        (sOk, 4 + payload.length, memory') ∧ memory'.buffer.take (4 + payload.length) =
        dwordBytes payload.length ++ payload := by
  have hhint : 0 + (dwordBytes payload.length).length ≤ memory.getSize := by
    simp
    omega
  have hsize : ¬ memory.getSize < (payload.length + 4) % 4294967296 := by
    have hmod := Nat.mod_le (payload.length + 4) 4294967296
    omega
  have hbody : 4 + payload.length ≤
      (memory.copyFromBuffer 0 (dwordBytes payload.length)).2.getSize := by
    simpa using hfit
  have hok := copyFromBuffer_eq_sOk memory 0 (dwordBytes payload.length) hhint
  have hok' := copyFromBuffer_eq_sOk
    (memory.copyFromBuffer 0 (dwordBytes payload.length)).2 4 payload hbody
  refine ⟨((memory.copyFromBuffer 0 (dwordBytes payload.length)).2.copyFromBuffer
    4 payload).2, ?_, ?_⟩
  · simp [fillOutput, hok, hok', hsize]
  · have hlen : (dwordBytes payload.length).length ≤ 4 + payload.length := by
      simp
    rw [IWDFMemory.copyFromBuffer, if_pos hbody]
    simp only [IWDFMemory.copyFromBuffer, if_pos hhint]
    simp [List.take_append, List.take_of_length_le hlen]

theorem fillOutput_of_not_fits (payload : List UInt8) (memory : IWDFMemory)
    (hfit : ¬ 4 + payload.length ≤ memory.getSize) :
    succeeded (fillOutput payload.length (some payload) memory).1 = false := by
  by_cases hhint : succeeded (memory.copyFromBuffer 0 (dwordBytes payload.length)).1 = true
  · by_cases hsize : memory.getSize < (payload.length + 4) % 4294967296
    · simp [fillOutput, hhint, hsize]
    · have hbody := copyFromBuffer_succeeded_iff
        (memory.copyFromBuffer 0 (dwordBytes payload.length)).2 4 payload
      simp only [copyFromBuffer_getSize] at hbody
      simpa [fillOutput, hhint, hsize] using mt hbody.mp hfit
  · simp [fillOutput, hhint]

/-! ## Completing the pended request -/

/-- The state in which `request` has been completed and is pended no more. -/
def completed
    (request : IWDFIoRequest) (hr : HRESULT) (cbSize : ℕ) (s : FileState) :
    FileState where
  ctx := { s.ctx with pWdfRequest := none }
  fx := s.fx.completeWithInformation request hr cbSize

variable {hr : HRESULT} {cbSize : ℕ} {timing : CancelTiming} {request : IWDFIoRequest}
  {s : FileState} {result : FileState × HRESULT}

theorem completeRequest_of_none {fIsCancelable : Bool} (hpend : s.ctx.pWdfRequest = none) :
    completeRequest hr cbSize fIsCancelable s = (s, false) := by
  simp [completeRequest, hpend]

theorem completeRequest_of_some (hpend : s.ctx.pWdfRequest = some request) :
    completeRequest hr cbSize false s = (completed request hr cbSize s, true) := by
  simp [completeRequest, hpend, completed]

theorem completeRequest_of_cancelled (hpend : s.ctx.pWdfRequest = some request)
    (hcancel : request.id ∈ s.fx.cancelled) : completeRequest hr cbSize true s = (s, false) := by
  simp [completeRequest, hpend, unmarkCancelable_eq_aborted_iff, hcancel]

theorem completeRequest_of_not_cancelled (hpend : s.ctx.pWdfRequest = some request)
    (hcancel : request.id ∉ s.fx.cancelled) : completeRequest hr cbSize true s =
      (completed request hr cbSize s, true) := by
  simp [completeRequest, hpend, unmarkCancelable_eq_aborted_iff, hcancel, completed]

theorem onCancel_notPended (s : FileState) : (onCancel s).ctx.pWdfRequest = none := by
  cases hpend : s.ctx.pWdfRequest with
  | none => simp [onCancel, completeRequest_of_none hpend, hpend]
  | some request => simp [onCancel, completeRequest_of_some hpend, completed]

/-- The state in which the pended request's output memory has been written and
`m_dwQueueSize` is `size`, everything else being as in `s`. -/
def written (request : IWDFIoRequest) (size : ℕ) (s : FileState) : FileState :=
  { s with ctx := { s.ctx with
      pWdfRequest := some request, dwQueueSize := size } }

/-- The ways in which an attempt to complete the pended request with a payload
can end: it has no output memory, it is being cancelled, its buffer is too
short, or the payload is delivered. -/
inductive Attempt (payload : List UInt8) (request : IWDFIoRequest)
    (s : FileState) : FileState × Bool → Prop
  | noMemory :
      request.outputMemory = none → Attempt payload request s (s, false)
  | cancelled {request' : IWDFIoRequest} {size : ℕ} :
      request.outputMemory.isSome = true →
      request.id ∈ s.fx.cancelled →
      request'.id = request.id →
      request'.outputMemory.isSome = true →
      size = (if Fits payload request then s.ctx.dwQueueSize - 1
        else s.ctx.dwQueueSize) →
      Attempt payload request s (written request' size s, false)
  | shortBuffer {request' : IWDFIoRequest} {hr : HRESULT} {cbSize : ℕ} :
      request.outputMemory.isSome = true →
      request.id ∉ s.fx.cancelled →
      ¬ Fits payload request →
      request'.id = request.id →
      succeeded hr = false →
      Attempt payload request s (completed request' hr cbSize s, false)
  | delivered {request' : IWDFIoRequest} :
      request.outputMemory.isSome = true →
      request.id ∉ s.fx.cancelled →
      Fits payload request →
      request'.id = request.id →
      request'.outputBuffer.take (4 + payload.length) =
        dwordBytes payload.length ++ payload →
      Attempt payload request s
        (completed request' sOk (4 + payload.length)
          (written request' (s.ctx.dwQueueSize - 1) s), true)

theorem completeOne_attempt (payload : List UInt8) (hpend : s.ctx.pWdfRequest = some request) :
    Attempt payload request s
      (completeOneGetNextSubscribedMessage payload.length (some payload) s) := by
  cases hmem : request.outputMemory with
  | none =>
      have hstay : completeOneGetNextSubscribedMessage payload.length
          (some payload) s = (s, false) := by
        simp [completeOneGetNextSubscribedMessage, hpend, hmem]
      rw [hstay]
      exact .noMemory hmem
  | some memory =>
      have hbuffer : request.outputBuffer.length = memory.getSize := by
        simp [IWDFIoRequest.outputBuffer, hmem, IWDFMemory.getSize]
      by_cases hfit : Fits payload request
      · obtain ⟨memory', hfill, htake⟩ := fillOutput_of_fits payload memory (hbuffer ▸ hfit)
        by_cases hcancel : request.id ∈ s.fx.cancelled
        · have hresult : completeOneGetNextSubscribedMessage payload.length (some payload) s =
              (written { request with outputMemory := some memory' }
                (s.ctx.dwQueueSize - 1) s, false) := by
            simp [completeOneGetNextSubscribedMessage, hpend, hmem, hfill,
              completeRequest, unmarkCancelable_eq_aborted_iff, hcancel, written]
          rw [hresult]
          exact .cancelled (by simp [hmem]) hcancel rfl rfl (by simp [hfit])
        · have hresult : completeOneGetNextSubscribedMessage payload.length (some payload) s =
              (completed { request with outputMemory := some memory' } sOk (4 + payload.length)
                (written { request with outputMemory := some memory' }
                  (s.ctx.dwQueueSize - 1) s), true) := by
            simp [completeOneGetNextSubscribedMessage, hpend, hmem, hfill,
              completeRequest, unmarkCancelable_eq_aborted_iff, hcancel, written, completed]
          rw [hresult]
          exact .delivered (by simp [hmem]) hcancel hfit rfl
            (by simpa [IWDFIoRequest.outputBuffer] using htake)
      · have hfail := fillOutput_of_not_fits payload memory (hbuffer ▸ hfit)
        rcases hfill : fillOutput payload.length (some payload) memory with
          ⟨hr, cbSize, memory'⟩
        rw [hfill] at hfail
        by_cases hcancel : request.id ∈ s.fx.cancelled
        · have hresult : completeOneGetNextSubscribedMessage payload.length (some payload) s =
              (written { request with outputMemory := some memory' }
                s.ctx.dwQueueSize s, false) := by
            simp [completeOneGetNextSubscribedMessage, hpend, hmem, hfill,
              hfail, completeRequest, unmarkCancelable_eq_aborted_iff, hcancel, written]
          rw [hresult]
          exact .cancelled (by simp [hmem]) hcancel rfl rfl (by simp [hfit])
        · have hresult : completeOneGetNextSubscribedMessage payload.length (some payload) s =
              (completed { request with outputMemory := some memory' } hr cbSize s, false) := by
            simp [completeOneGetNextSubscribedMessage, hpend, hmem, hfill,
              hfail, completeRequest, unmarkCancelable_eq_aborted_iff, hcancel, completed]
          rw [hresult]
          exact .shortBuffer (by simp [hmem]) hcancel hfit rfl hfail

/-! ## Pending a request -/

/-- A `GET_NEXT` request whose input memory is there and empty. -/
def HasNoInput (request : IWDFIoRequest) : Prop :=
  ∃ input ∈ request.inputMemory, input.hasNoData = true

/-- `GetNextSubscribedMessage` refuses the request and changes nothing, or
pends it on an idle, enabled handle. -/
theorem getNextSubscribedMessage_cases
    (h : getNextSubscribedMessage timing request s = some result) :
    (result.1 = s ∧ succeeded result.2 = false) ∨ ∃ deliver, deliverFor s.ctx.role = some deliver ∧
        s.ctx.pWdfRequest = none ∧ s.ctx.fEnabled = true ∧ HasNoInput request ∧
        result = (pendAndDeliver deliver timing request s, sOk) := by
  cases henabled : s.ctx.fEnabled with
  | false =>
      simp [getNextSubscribedMessage, getNextResult, henabled] at h
      subst h
      simp
  | true =>
      cases hpend : s.ctx.pWdfRequest with
      | some pended =>
          simp [getNextSubscribedMessage, getNextResult, henabled, hpend] at h
          subst h
          simp
      | none =>
          cases hinput : request.inputMemory with
          | none =>
              simp [getNextSubscribedMessage, getNextResult, henabled, hpend, hinput] at h
          | some input =>
              cases hdata : input.hasNoData with
              | false =>
                  simp [getNextSubscribedMessage, getNextResult, henabled,
                    hpend, hinput, hdata] at h
                  subst h
                  simp
              | true =>
                  cases hrole : deliverFor s.ctx.role with
                  | none =>
                      simp [getNextSubscribedMessage, getNextResult, henabled,
                        hpend, hinput, hdata, hrole] at h
                      subst h
                      simp
                  | some deliver =>
                      simp [getNextSubscribedMessage, getNextResult, henabled,
                        hpend, hinput, hdata, hrole] at h
                      exact .inr ⟨deliver, rfl, rfl, rfl, ⟨input, hinput, hdata⟩, h.symm⟩

theorem getNextSubscribedMessage_of_pends {deliver : FileState → FileState}
    (hidle : s.ctx.pWdfRequest = none) (henabled : s.ctx.fEnabled = true)
    (hinput : HasNoInput request) (hdeliver : deliverFor s.ctx.role = some deliver) :
    getNextSubscribedMessage timing request s =
      some (pendAndDeliver deliver timing request s, sOk) := by
  obtain ⟨input, hmem, hdata⟩ := hinput
  have hmem' : request.inputMemory = some input := hmem
  simp [getNextSubscribedMessage, getNextResult, hidle, henabled, hmem', hdata, hdeliver]

/-- `GetNextTransmittedMessage` refuses the request and changes nothing, or
pends it on an idle, enabled publication. -/
theorem getNextTransmittedMessage_cases
    (h : getNextTransmittedMessage timing request s = some result) :
    (result.1 = s ∧ succeeded result.2 = false) ∨
      (s.ctx.role = .publication ∧ s.ctx.pWdfRequest = none ∧ s.ctx.fEnabled = true ∧ result =
          (markCancelable timing (takeCredit (pend request s)), sOk)) := by
  unfold getNextTransmittedMessage at h
  simp only at h
  split at h
  case isFalse hhr =>
    simp only [Option.some.injEq] at h
    subst h
    exact .inl ⟨rfl, by simpa using hhr⟩
  case isTrue hhr =>
    have hidle : s.ctx.role = .publication ∧ s.ctx.pWdfRequest = none ∧ s.ctx.fEnabled = true := by
      unfold getNextResult at hhr
      split at hhr
      case isTrue => simp at hhr
      case isFalse henabled =>
        split at hhr
        case isTrue => simp at hhr
        case isFalse hrefused => simp_all
    have hhr' : getNextResult (s.ctx.role != .publication || s.ctx.pWdfRequest.isSome)
        s.ctx.fEnabled = sOk := by
      simp [getNextResult, hidle]
    rw [hhr'] at h
    split at h
    case h_1 => simp at h
    case h_2 input hinput =>
      split at h
      case isFalse =>
        simp only [Option.some.injEq] at h
        subst h
        simp
      case isTrue =>
        split at h
        case h_1 => simp at h
        case h_2 output houtput =>
          split at h
          case isFalse =>
            simp only [Option.some.injEq] at h
            subst h
            simp
          case isTrue =>
            simp only [Option.some.injEq] at h
            exact .inr ⟨hidle.1, hidle.2.1, hidle.2.2, h.symm⟩

@[simp] theorem pendAndDeliver_never (deliver : FileState → FileState) (request : IWDFIoRequest)
    (s : FileState) : pendAndDeliver deliver .never request s = deliver (pend request s) := by
  simp [pendAndDeliver, markCancelable, pend]

@[simp] theorem pendAndDeliver_before (deliver : FileState → FileState) (request : IWDFIoRequest)
    (s : FileState) : pendAndDeliver deliver .before request s = completed request eAbort 0
        { s with fx := s.fx.cancelledEarly request.id } := by
  simp [pendAndDeliver, markCancelable, pend, onCancel, completeRequest, completed]

@[simp] theorem pendAndDeliver_during (deliver : FileState → FileState) (request : IWDFIoRequest)
    (s : FileState) : pendAndDeliver deliver .during request s =
      deliver (pend request { s with fx := s.fx.cancel request.id }) := by
  simp [pendAndDeliver, markCancelable, pend]

theorem takeCredit_pend (request : IWDFIoRequest) (s : FileState) : takeCredit (pend request s) =
      if 0 < s.ctx.cCompleteReady then
        completed request sOk 0 (spendCredit s)
      else pend request s := by
  simp [takeCredit, pend, completeRequest, completed, spendCredit]

end MiscProjects.Nfp
