import MiscProjects.Nfp.Requests

/-!
# The pended request and the queue of a subscription

A subscription delivers a publication to the pended request or links it to the
queue.  The two never compete: as long as a request with an output buffer is
pended and not being cancelled, the queue is empty.  `Waits` is this invariant;
it holds in every state of every run of a subscription and is what keeps both
the order of delivery and the account of the queue.
-/

namespace MiscProjects.Nfp

open MiscProjects.Runs

/-- No request with an output buffer is waiting: the pended one, if there is
one, is being cancelled or cannot take a message. -/
def NotWaiting (s : FileState) : Prop :=
  ∀ request ∈ s.ctx.pWdfRequest, request.outputMemory.isSome = true →
    request.id ∈ s.fx.cancelled

/-- While a request waits the queue is empty. -/
def Waits (s : FileState) : Prop :=
  NotWaiting s ∨ s.ctx.subscribedMessageQueue = []

variable {payload : List UInt8} {t : FileRun} {s : FileState} {request : IWDFIoRequest}
  {result : FileState × Bool}

theorem notWaiting_of_none (h : s.ctx.pWdfRequest = none) : NotWaiting s := by
  simp [NotWaiting, h]

/-! ## One attempt -/

theorem Attempt.queue (h : Attempt payload request s result) :
    result.1.ctx.subscribedMessageQueue = s.ctx.subscribedMessageQueue := by
  cases h <;> rfl

theorem Attempt.notWaiting (hpend : s.ctx.pWdfRequest = some request)
    (h : Attempt payload request s result) : NotWaiting result.1 := by
  cases h with
  | noMemory hmem => simp [NotWaiting, hpend, hmem]
  | cancelled _ hcancel hid => simp [NotWaiting, written, hid, hcancel]
  | shortBuffer => exact notWaiting_of_none rfl
  | delivered => exact notWaiting_of_none rfl

theorem Attempt.not_delivered (h : Attempt payload request s result)
    (hpend : s.ctx.pWdfRequest = some request) (hwait : NotWaiting s) : result.2 ≠ true := by
  cases h with
  | noMemory => simp
  | cancelled => simp
  | shortBuffer => simp
  | delivered hmem hcancel => exact absurd (hwait request hpend hmem) hcancel

theorem deliverHead_of_cons {rest : List (List UInt8)}
    (hqueue : s.ctx.subscribedMessageQueue = payload :: rest) : deliverHead s =
      (let attempted :=
        completeOneGetNextSubscribedMessage payload.length (some payload) s
      if attempted.2 then
        { attempted.1 with ctx :=
          { attempted.1.ctx with subscribedMessageQueue :=
            attempted.1.ctx.subscribedMessageQueue.tail } }
      else attempted.1) := by
  simp [deliverHead, hqueue]

theorem deliverHead_of_nil (hqueue : s.ctx.subscribedMessageQueue = []) : deliverHead s = s := by
  simp [deliverHead, hqueue]

theorem deliverHead_waits (hpend : s.ctx.pWdfRequest = some request) : Waits (deliverHead s) := by
  cases hqueue : s.ctx.subscribedMessageQueue with
  | nil =>
      rw [deliverHead_of_nil hqueue]
      exact .inr hqueue
  | cons payload rest =>
      have hattempt := (completeOne_attempt payload hpend).notWaiting hpend
      rw [deliverHead_of_cons hqueue]
      dsimp only
      split
      case isTrue => exact .inl hattempt
      case isFalse => exact .inl hattempt

theorem offerPended_of_some (pbPayload : List UInt8) (hpend : s.ctx.pWdfRequest = some request) :
    Attempt pbPayload request s (offerPended pbPayload s) := by
  simpa [offerPended, hpend] using completeOne_attempt pbPayload hpend

theorem offerPended_of_none (pbPayload : List UInt8) (hpend : s.ctx.pWdfRequest = none) :
    offerPended pbPayload s = (s, false) := by
  simp [offerPended, hpend]

theorem offerPended_notWaiting (pbPayload : List UInt8) (s : FileState) :
    NotWaiting (offerPended pbPayload s).1 := by
  cases hpend : s.ctx.pWdfRequest with
  | none =>
      rw [offerPended_of_none pbPayload hpend]
      exact notWaiting_of_none hpend
  | some request => exact (offerPended_of_some pbPayload hpend).notWaiting hpend

theorem deliverOrQueue_waits (env : ReceiveEnv) (pbPayload : List UInt8) (s : FileState) :
    Waits (deliverOrQueue env pbPayload s).1 := by
  have hoffer := offerPended_notWaiting pbPayload s
  unfold deliverOrQueue
  dsimp only
  split
  case isTrue => exact .inl hoffer
  case isFalse =>
    unfold enqueue
    split
    case isFalse => exact .inl hoffer
    case isTrue =>
      split
      case isTrue => exact .inl hoffer
      case isFalse => exact .inl hoffer

theorem handleReceivedPublication_waits (hs : Waits s) (env : ReceiveEnv) (pszType : List WCHAR)
    (pbPayload : List UInt8) : Waits (handleReceivedPublication env pszType pbPayload s).1 := by
  unfold handleReceivedPublication
  split
  case isFalse => exact hs
  case isTrue =>
    split
    case h_1 => exact hs
    case h_2 => exact hs
    case h_3 => exact deliverOrQueue_waits _ _ _

/-! ## The other sections -/

theorem disable_cases (s : FileState) :
    (succeeded (toggleResult true s.ctx) = false ∧
        disable s = (s, toggleResult true s.ctx)) ∨
      (succeeded (toggleResult true s.ctx) = true ∧
        disable s =
          ((let off := (completeRequest (hresultFromNt statusCancelled) 0 true
            { s with ctx := { s.ctx with fEnabled := false } }).1
          { off with ctx := { off.ctx with subscribedMessageQueue := [] } }),
          toggleResult true s.ctx)) := by
  cases hhr : succeeded (toggleResult true s.ctx) with
  | false => simp [disable, hhr]
  | true => simp [disable, hhr]

theorem disable_waits (hs : Waits s) : Waits (disable s).1 := by
  rcases disable_cases s with ⟨-, h⟩ | ⟨-, h⟩
  · simpa [h] using hs
  · rw [h]
    exact .inr rfl

theorem enable_waits (hs : Waits s) : Waits (enable s).1 := by
  unfold enable
  dsimp only
  split
  case isTrue => exact hs
  case isFalse => exact hs

theorem completeRequest_queue (hr : HRESULT) (cbSize : ℕ) (fIsCancelable : Bool) (s : FileState) :
    (completeRequest hr cbSize fIsCancelable s).1.ctx.subscribedMessageQueue =
      s.ctx.subscribedMessageQueue := by
  unfold completeRequest
  split
  case h_1 => rfl
  case h_2 =>
    split
    case isTrue => rfl
    case isFalse => rfl

/-! ## The invariant over runs -/

theorem getNextSubscribed_pended {role : Role} (hledger : Ledger role t) {timing : CancelTiming}
    {deliver : FileState → FileState} (hrole : role = .subscription)
    (hdeliver : deliverFor t.file.ctx.role = some deliver) :
    pendAndDeliver deliver timing request t.file =
      pendAndDeliver deliverHead timing request t.file := by
  rw [hledger.role, hrole] at hdeliver
  simp only [deliverFor, Option.some.injEq] at hdeliver
  rw [hdeliver]

theorem waits_step {u : FileRun} {a : FileAction} (hledger : Ledger .subscription t)
    (hwait : Waits t.file) (h : FileStepTo t a u) : Waits u.file := by
  cases h with
  | completeFailed => exact hwait
  | onCancel => exact .inl (notWaiting_of_none (onCancel_notPended _))
  | inOpen _ hopen =>
      cases hopen with
      | @getNextSubscribed timing request _ hfresh hcall =>
          rcases getNextSubscribedMessage_cases hcall with
            ⟨hstay, hhr⟩ | ⟨deliver, hdeliver, hidle, -, -, rfl⟩
          · simpa [handled, hstay] using hwait
          · rw [getNextSubscribed_pended hledger rfl hdeliver, handled_sOk]
            cases timing with
            | never =>
                rw [pendAndDeliver_never]
                exact deliverHead_waits rfl
            | before =>
                rw [pendAndDeliver_before]
                exact .inl (notWaiting_of_none rfl)
            | during =>
                rw [pendAndDeliver_during]
                exact deliverHead_waits rfl
      | getNextTransmitted hfresh hcall =>
          rcases getNextTransmittedMessage_cases hcall with
            ⟨hstay, hhr⟩ | ⟨hrole, -, -, -⟩
          · simpa [handled, hstay] using hwait
          · simp [hledger.role] at hrole
      | cancel hpend hcancel =>
          rcases hwait with hwait | hqueue
          · left
            intro request hrequest hmem
            exact List.mem_cons_of_mem _ (hwait request hrequest hmem)
          · exact .inr hqueue
      | disable => exact disable_waits hwait
      | enable => exact enable_waits hwait
      | receive => exact handleReceivedPublication_waits hwait _ _ _
      | messageTransmitted hrole | arrivalEvent hrole | removalEvent hrole =>
          simp [hledger.role] at hrole
      | closeFile => exact .inr (completeRequest_queue _ _ _ _)

end MiscProjects.Nfp
