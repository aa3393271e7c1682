import MiscProjects.Nfp.Wdf

/-!
# `CFileContext`

The context of one open handle of the proximity driver: a subscription, an
arrival or departure subscription, or a publication.  Every function below is
the body of the member function of the same name, run while `m_RoleLock` is
held, on the context together with the framework's view of the file object.

What the environment decides is an argument: when the client cancels the
request (`CancelTiming`), the result of the `%S` conversion of a MIME type, and
which allocations succeed (`ReceiveEnv`).
-/

namespace MiscProjects.Nfp

abbrev WCHAR := UInt16

def maxMessageQueueSize : ℕ := 50

def maxCbPayload : ℕ := 10240

def maxCchMimeType : ℕ := 256

def windowsMimeProtocol : List WCHAR :=
  ['W', 'i', 'n', 'd', 'o', 'w', 's', 'M', 'i', 'm', 'e'].map
    fun c => UInt16.ofNat c.toNat

def windowsMimeProtocolChars : ℕ := 11

inductive Role
  | undefined
  | subscription
  | arrivedSubscription
  | departedSubscription
  | publication
  | proximity
deriving DecidableEq

/-- The data members that the modelled functions use.  A `CMyPayload` is the
list of its `m_cbPayload` bytes. -/
structure CFileContext where
  role : Role
  pszType : Option (List WCHAR)
  fEnabled : Bool
  dwQueueSize : ℕ
  subscribedMessageQueue : List (List UInt8)
  myPayload : Option (List UInt8)
  cCompleteReady : ℕ
  pWdfRequest : Option IWDFIoRequest
deriving DecidableEq

/-- A context and the framework's view of its file object. -/
structure FileState where
  ctx : CFileContext
  fx : Framework
deriving DecidableEq

/-- The constructor, followed by the `SetRole...` and `SetType` calls of
`CMyQueue::OnCreateFile`. -/
def CFileContext.create (role : Role) (pszType : Option (List WCHAR)) :
    CFileContext where
  role := role
  pszType := pszType
  fEnabled := true
  dwQueueSize := 0
  subscribedMessageQueue := []
  myPayload := none
  cCompleteReady := 0
  pWdfRequest := none

def FileState.create (role : Role) (pszType : Option (List WCHAR)) :
    FileState where
  ctx := .create role pszType
  fx := { cancelled := [], due := [], completions := [] }

/-! ## Completing the pended request -/

/-- `CompleteRequest`: complete the pended request unless it has to be unmarked
first and is found cancelled. -/
def completeRequest
    (hr : HRESULT) (cbSize : ℕ) (fIsCancelable : Bool) (s : FileState) :
    FileState × Bool :=
  match s.ctx.pWdfRequest with
  | none => (s, false)
  | some request =>
      if fIsCancelable = true ∧
          s.fx.unmarkCancelable request = operationAborted then
        (s, false)
      else
        ({ ctx := { s.ctx with pWdfRequest := none },
           fx := s.fx.completeWithInformation request hr cbSize }, true)

/-- The output half of `CompleteOneGetNextSubscribedMessage`: the size of the
payload as a four-byte hint, then the payload if the buffer has room for it.
Returns the result code, the number of bytes to report and the memory. -/
def fillOutput
    (cbPayload : ℕ) (pbPayload : Option (List UInt8)) (memory : IWDFMemory) :
    HRESULT × ℕ × IWDFMemory :=
  let hint := memory.copyFromBuffer 0 (dwordBytes cbPayload)
  if succeeded hint.1 then
    let copied :=
      match pbPayload with
      | none => hint
      | some bytes =>
          if hint.2.getSize < (cbPayload + 4) % 2 ^ 32 then
            (hresultFromNt statusBufferOverflow, hint.2)
          else hint.2.copyFromBuffer 4 bytes
    (copied.1, if succeeded copied.1 then 4 + cbPayload else 4, copied.2)
  else (hint.1, 0, hint.2)

/-- `CompleteOneGetNextSubscribedMessage`.  The size of the queue is counted
down as soon as the copy has succeeded, before the completion is tried. -/
def completeOneGetNextSubscribedMessage
    (cbPayload : ℕ) (pbPayload : Option (List UInt8)) (s : FileState) :
    FileState × Bool :=
  match s.ctx.pWdfRequest with
  | none => (s, false)
  | some request =>
      match request.outputMemory with
      | none => (s, false)
      | some memory =>
          let filled := fillOutput cbPayload pbPayload memory
          let ctx :=
            { s.ctx with
              pWdfRequest :=
                some { request with outputMemory := some filled.2.2 },
              dwQueueSize :=
                if succeeded filled.1 then s.ctx.dwQueueSize - 1
                else s.ctx.dwQueueSize }
          let completed :=
            completeRequest filled.1 filled.2.1 true { s with ctx := ctx }
          (completed.1, succeeded filled.1 && completed.2)

def onCancel (s : FileState) : FileState :=
  (completeRequest eAbort 0 false s).1

/-- `IWDFIoRequest::MarkCancelable` on the pended request. -/
def markCancelable (timing : CancelTiming) (s : FileState) : FileState :=
  match s.ctx.pWdfRequest with
  | none => s
  | some request =>
      match timing with
      | .never => s
      | .before => onCancel { s with fx := s.fx.cancelledEarly request.id }
      | .during => { s with fx := s.fx.cancel request.id }

/-! ## Arrival and departure events -/

/-- `m_cCompleteReady++`. -/
def addCredit (s : FileState) : FileState :=
  { s with ctx :=
    { s.ctx with cCompleteReady := s.ctx.cCompleteReady + 1 } }

/-- `m_cCompleteReady--`. -/
def spendCredit (s : FileState) : FileState :=
  { s with ctx :=
    { s.ctx with cCompleteReady := s.ctx.cCompleteReady - 1 } }

/-- `CompleteOneArrivalEvent` and `CompleteOneRemovalEvent` differ in the
`DWORD` they deliver. -/
def completeOneEvent (flags : ℕ) (s : FileState) : FileState :=
  if 0 < s.ctx.cCompleteReady ∧ s.ctx.pWdfRequest.isSome = true then
    let completed :=
      completeOneGetNextSubscribedMessage 4 (some (dwordBytes flags)) s
    if completed.2 then spendCredit completed.1 else completed.1
  else s

def completeOneArrivalEvent : FileState → FileState := completeOneEvent 1

def completeOneRemovalEvent : FileState → FileState := completeOneEvent 0

/-- `HandleArrivalEvent` and `HandleRemovalEvent`, after their assertion on the
role. -/
def handleEvent (completeOne : FileState → FileState) (s : FileState) :
    FileState :=
  if s.ctx.fEnabled then completeOne (addCredit s) else s

def handleArrivalEvent : FileState → FileState :=
  handleEvent completeOneArrivalEvent

def handleRemovalEvent : FileState → FileState :=
  handleEvent completeOneRemovalEvent

/-! ## Requests of the client -/

/-- The part of `GetNextSubscribedMessage` that offers the head of the queue to
the request just pended. -/
def deliverHead (s : FileState) : FileState :=
  match s.ctx.subscribedMessageQueue with
  | [] => s
  | payload :: _ =>
      let completed :=
        completeOneGetNextSubscribedMessage payload.length (some payload) s
      if completed.2 then
        { completed.1 with
          ctx := { completed.1.ctx with
            subscribedMessageQueue :=
              completed.1.ctx.subscribedMessageQueue.tail } }
      else completed.1

/-- The assignment `m_pWdfRequest = pWdfRequest`. -/
def pend (request : IWDFIoRequest) (s : FileState) : FileState :=
  { s with ctx := { s.ctx with pWdfRequest := some request } }

/-- Pend `request`, mark it cancelable and, unless the cancel callback has
already taken it, go on with `deliver`. -/
def pendAndDeliver
    (deliver : FileState → FileState) (timing : CancelTiming)
    (request : IWDFIoRequest) (s : FileState) : FileState :=
  let marked := markCancelable timing (pend request s)
  if marked.ctx.pWdfRequest.isSome then deliver marked else marked

/-- The result code of the two tests at the head of the `GetNext` functions. -/
def getNextResult (refused : Bool) (fEnabled : Bool) : HRESULT :=
  if !fEnabled then hresultFromNt (hresultFromNt statusCancelled)
  else if refused then hresultFromNt statusInvalidDeviceState
  else sOk

/-- The branch of `GetNextSubscribedMessage` on the role: what is offered to a
request that is pended, or `none` for a handle that cannot be read. -/
def deliverFor : Role → Option (FileState → FileState)
  | .subscription => some deliverHead
  | .arrivedSubscription => some completeOneArrivalEvent
  | .departedSubscription => some completeOneRemovalEvent
  | _ => none

/-- `GetNextSubscribedMessage`.  The dereference of a missing input memory is
`none`. -/
def getNextSubscribedMessage
    (timing : CancelTiming) (request : IWDFIoRequest) (s : FileState) :
    Option (FileState × HRESULT) :=
  let hr := getNextResult s.ctx.pWdfRequest.isSome s.ctx.fEnabled
  if succeeded hr then
    match request.inputMemory with
    | none => none
    | some input =>
        if input.hasNoData then
          match deliverFor s.ctx.role with
          | some deliver =>
              some (pendAndDeliver deliver timing request s, hr)
          | none => some (s, hresultFromNt statusInvalidDeviceState)
        else some (s, eInvalidArg)
  else some (s, hr)

/-- The part of `GetNextTransmittedMessage` that completes the request just
pended if a transmission is already credited. -/
def takeCredit (s : FileState) : FileState :=
  if 0 < s.ctx.cCompleteReady then
    let completed := completeRequest sOk 0 false s
    if completed.2 then spendCredit completed.1 else completed.1
  else s

/-- `GetNextTransmittedMessage`.  The dereference of a missing memory object is
`none`. -/
def getNextTransmittedMessage
    (timing : CancelTiming) (request : IWDFIoRequest) (s : FileState) :
    Option (FileState × HRESULT) :=
  let hr :=
    getNextResult
      (s.ctx.role != .publication || s.ctx.pWdfRequest.isSome) s.ctx.fEnabled
  if succeeded hr then
    match request.inputMemory with
    | none => none
    | some input =>
        if input.hasNoData then
          match request.outputMemory with
          | none => none
          | some output =>
              if output.hasNoData then
                some (markCancelable timing (takeCredit (pend request s)), hr)
              else some (s, eInvalidArg)
        else some (s, eInvalidArg)
  else some (s, hr)

/-- The result code of the tests of `Disable` (`wanted = true`) and `Enable`. -/
def toggleResult (wanted : Bool) (ctx : CFileContext) : HRESULT :=
  if ctx.role = .undefined ∨ ctx.role = .proximity ∨ ctx.fEnabled ≠ wanted then
    hresultFromNt statusInvalidDeviceState
  else sOk

/-- `Disable`: complete the pended request and purge the queue.  `m_dwQueueSize`
is not touched. -/
def disable (s : FileState) : FileState × HRESULT :=
  let hr := toggleResult true s.ctx
  if succeeded hr then
    let completed :=
      completeRequest (hresultFromNt statusCancelled) 0 true
        { s with ctx := { s.ctx with fEnabled := false } }
    ({ completed.1 with
       ctx := { completed.1.ctx with subscribedMessageQueue := [] } }, hr)
  else (s, hr)

def enable (s : FileState) : FileState × HRESULT :=
  let hr := toggleResult false s.ctx
  if succeeded hr then
    ({ s with ctx := { s.ctx with fEnabled := true } }, hr)
  else (s, hr)

/-- `SetPayload`; `newPayload` tells whether the allocation of
`CMyPayload::Initialize` succeeds.  The dereference of a missing output memory
is `none`. -/
def setPayload (newPayload : Bool) (request : IWDFIoRequest) (s : FileState) :
    Option (FileState × HRESULT) :=
  if s.ctx.role ≠ .publication ∨ s.ctx.myPayload.isSome = true then
    some (s, hresultFromNt statusInvalidDeviceState)
  else
    match request.outputMemory with
    | none => none
    | some memory =>
        if memory.hasNoData then
          match request.inputMemory with
          | none => some (s, eInvalidArg)
          | some input =>
              if 0 < input.getSize ∧ input.getSize ≤ maxCbPayload then
                if newPayload then
                  some
                    ({ s with ctx :=
                        { s.ctx with myPayload := some input.buffer } }, sOk)
                else some (s, eOutOfMemory)
              else some (s, hresultFromNt statusInvalidBufferSize)
        else some (s, eInvalidArg)

/-- The tests of `SetPayload`, of which the last one is the allocation. -/
structure PayloadAccepted (newPayload : Bool) (request : IWDFIoRequest) (ctx : CFileContext)
    (payload : List UInt8) : Prop where
  role : ctx.role = .publication
  first : ctx.myPayload = none
  output : ∃ memory, request.outputMemory = some memory ∧ memory.hasNoData = true
  input : ∃ memory, request.inputMemory = some memory ∧ memory.buffer = payload
  pos : 0 < payload.length
  le : payload.length ≤ maxCbPayload
  allocated : newPayload = true

/-- `SetPayload` fails and changes nothing, or stores an accepted payload and changes nothing
else. -/
theorem setPayload_spec {newPayload : Bool} {request : IWDFIoRequest} {s s' : FileState}
    {hr : HRESULT} (h : setPayload newPayload request s = some (s', hr)) :
    (s' = s ∧ succeeded hr = false ∧
        ∀ payload, ¬ PayloadAccepted newPayload request s.ctx payload) ∨
      ∃ payload, PayloadAccepted newPayload request s.ctx payload ∧ hr = sOk ∧
        s' = { s with ctx := { s.ctx with myPayload := some payload } } := by
  unfold setPayload at h
  split at h
  case isTrue hrefused =>
    obtain ⟨rfl, rfl⟩ := Prod.mk.inj (Option.some.inj h)
    refine .inl ⟨rfl, succeeded_statusInvalidDeviceState, ?_⟩
    intro payload haccepted
    rcases hrefused with hrole | hset
    · exact hrole haccepted.role
    · rw [haccepted.first] at hset
      cases hset
  case isFalse hready =>
    rw [not_or, not_not, Bool.not_eq_true, Option.isSome_eq_false_iff] at hready
    obtain ⟨hrole, hset⟩ := hready
    split at h
    case h_1 => cases h
    case h_2 output houtput =>
      split at h
      case isFalse hdata =>
        obtain ⟨rfl, rfl⟩ := Prod.mk.inj (Option.some.inj h)
        refine .inl ⟨rfl, succeeded_eInvalidArg, ?_⟩
        intro payload haccepted
        obtain ⟨memory, hmemory, hnodata⟩ := haccepted.output
        obtain rfl := Option.some.inj (houtput.symm.trans hmemory)
        exact hdata hnodata
      case isTrue hnodata =>
        split at h
        case h_1 hnone =>
          obtain ⟨rfl, rfl⟩ := Prod.mk.inj (Option.some.inj h)
          refine .inl ⟨rfl, succeeded_eInvalidArg, ?_⟩
          intro payload haccepted
          obtain ⟨memory, hmemory, -⟩ := haccepted.input
          rw [hnone] at hmemory
          cases hmemory
        case h_2 input hinput =>
          split at h
          case isFalse hsize =>
            obtain ⟨rfl, rfl⟩ := Prod.mk.inj (Option.some.inj h)
            refine .inl ⟨rfl, succeeded_statusInvalidBufferSize, ?_⟩
            intro payload haccepted
            obtain ⟨memory, hmemory, rfl⟩ := haccepted.input
            obtain rfl := Option.some.inj (hinput.symm.trans hmemory)
            exact hsize ⟨haccepted.pos, haccepted.le⟩
          case isTrue hsize =>
            split at h
            case isFalse hnew =>
              obtain ⟨rfl, rfl⟩ := Prod.mk.inj (Option.some.inj h)
              refine .inl ⟨rfl, succeeded_eOutOfMemory, ?_⟩
              intro payload haccepted
              exact hnew haccepted.allocated
            case isTrue hnew =>
              obtain ⟨rfl, rfl⟩ := Prod.mk.inj (Option.some.inj h)
              refine .inr ⟨input.buffer, ?_, rfl, rfl⟩
              exact ⟨hrole, Option.isNone_iff_eq_none.mp hset,
                ⟨output, houtput, hnodata⟩, ⟨input, hinput, rfl⟩, hsize.1, hsize.2, hnew⟩

/-! ## Messages from the network -/

/-- What the environment answers while a publication is received: the result
of `StringCchPrintfA` with `%S` on the MIME subtype, and whether the three
allocations succeed. -/
structure ReceiveEnv where
  szMimeType : Option (List UInt8)
  newMimePayload : Bool
  newMyPayload : Bool
  newPayloadBytes : Bool
deriving DecidableEq

/-- Whether a publication matches the subscription, and the payload that is
then passed on. -/
inductive MatchResult
  | noMatch
  | outOfMemory
  | matched (pbPayload : List UInt8)
deriving DecidableEq

/-- The first `MaxCchMimeType` bytes of the zero-filled `szMimeType` array. -/
def mimeHeader (szMimeType : List UInt8) : List UInt8 :=
  (szMimeType ++ List.replicate maxCchMimeType 0).take maxCchMimeType

/-- The matching half of `HandleReceivedPublication`: a subscription to the
general MIME protocol gets the MIME type in front of the payload. -/
def matchPublication
    (env : ReceiveEnv) (pszType : List WCHAR) (pbPayload : List UInt8)
    (ctx : CFileContext) : MatchResult :=
  if ctx.pszType = some windowsMimeProtocol ∧
      windowsMimeProtocolChars < pszType.length ∧
      pszType.take windowsMimeProtocolChars = windowsMimeProtocol then
    match env.szMimeType with
    | none => .noMatch
    | some szMimeType =>
        if env.newMimePayload then
          .matched (mimeHeader szMimeType ++ pbPayload)
        else .outOfMemory
  else if ctx.pszType = some pszType then .matched pbPayload
  else .noMatch

/-- What became of a matching publication on its arrival. -/
inductive Outcome
  | delivered
  | queued
  | queueFull
  | outOfMemory
deriving DecidableEq

/-- Offer the payload to the pended request, if there is one. -/
def offerPended (pbPayload : List UInt8) (s : FileState) : FileState × Bool :=
  if s.ctx.pWdfRequest.isSome then
    completeOneGetNextSubscribedMessage pbPayload.length (some pbPayload) s
  else (s, false)

/-- Add a message to the client delivery queue, unless the size counter says
that it is full. -/
def enqueue (env : ReceiveEnv) (pbPayload : List UInt8) (s : FileState) :
    FileState × Outcome :=
  if s.ctx.dwQueueSize < maxMessageQueueSize then
    if env.newMyPayload && env.newPayloadBytes then
      ({ s with
         ctx := { s.ctx with
           subscribedMessageQueue :=
             s.ctx.subscribedMessageQueue ++ [pbPayload],
           dwQueueSize := s.ctx.dwQueueSize + 1 } }, .queued)
    else (s, .outOfMemory)
  else (s, .queueFull)

/-- The delivering half of `HandleReceivedPublication`: the pended request
first, then the queue. -/
def deliverOrQueue (env : ReceiveEnv) (pbPayload : List UInt8) (s : FileState) :
    FileState × Outcome :=
  let offered := offerPended pbPayload s
  if offered.2 then (offered.1, .delivered)
  else enqueue env pbPayload offered.1

/-- `HandleReceivedPublication`.  The source returns nothing; the model also
returns the payload of a matching publication and what became of it. -/
def handleReceivedPublication
    (env : ReceiveEnv) (pszType : List WCHAR) (pbPayload : List UInt8)
    (s : FileState) : FileState × Option (List UInt8 × Outcome) :=
  if s.ctx.fEnabled then
    match matchPublication env pszType pbPayload s.ctx with
    | .noMatch => (s, none)
    | .outOfMemory => (s, some (pbPayload, .outOfMemory))
    | .matched payload =>
        let received := deliverOrQueue env payload s
        (received.1, some (payload, received.2))
  else (s, none)

def handleMessageTransmitted (s : FileState) : FileState :=
  let completed := completeRequest sOk 0 true s
  if completed.2 then completed.1 else addCredit completed.1

/-- The destructor: purge the queue, then complete the pended request. -/
def destroy (s : FileState) : FileState :=
  (completeRequest eAbort 0 true
    { s with ctx := { s.ctx with subscribedMessageQueue := [] } }).1

end MiscProjects.Nfp
