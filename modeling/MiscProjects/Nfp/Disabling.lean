import MiscProjects.Nfp.Delivery
import MiscProjects.Nfp.EventCredits
import Mathlib.Data.Fintype.EquivFin

/-!
# What `Disable` discards

`Disable` purges the list of messages and leaves `m_cCompleteReady` alone.  No
message that was received before is delivered to a later request, but every event
that was signalled and not yet delivered is.
-/

namespace MiscProjects.Nfp

open MiscProjects.Runs

/-- The three roles of a subscription. -/
def Role.Subscribes (role : Role) : Prop :=
  role = .subscription ∨ role = .arrivedSubscription ∨ role = .departedSubscription

/-- The payloads of the requests completed with success, but for the requests
in `old`. -/
def laterPayloads (old : List ℕ) (fx : Framework) : List (List UInt8) :=
  fx.completions.filterMap fun completion =>
    if succeeded completion.hr = true ∧ completion.request ∉ old then
      some (completion.output.drop 4)
    else none

/-- Nothing that was received or signalled up to `d` has been delivered in `u` to a
request presented after `d`: the messages delivered to such requests are, in
order, among those received since, and the events are no more than those
signalled since. -/
def DiscardsPast (d u : FileRun) : Prop :=
  if d.file.ctx.role = .subscription then
    (laterPayloads d.presented u.file.fx).Sublist
      ((u.arrivals.drop d.arrivals.length).map (·.payload))
  else (laterPayloads d.presented u.file.fx).length ≤ u.events - d.events

/-! ## Completions -/

section Completions
variable {old : List ℕ} {fx : Framework} {s : FileState}

theorem laterPayloads_completeWithInformation (request : IWDFIoRequest) (hr : HRESULT)
    (cbSize : ℕ) : laterPayloads old (fx.completeWithInformation request hr cbSize) =
      laterPayloads old fx ++
        if succeeded hr = true ∧ request.id ∉ old then
          [(request.outputBuffer.take cbSize).drop 4]
        else [] := by
  by_cases hlater : succeeded hr = true ∧ request.id ∉ old
  · simp [laterPayloads, Framework.completeWithInformation, hlater]
  · simp [laterPayloads, Framework.completeWithInformation, hlater]

variable {hr : HRESULT} {result : FileState × Bool} {payload : List UInt8}
  {request : IWDFIoRequest}

theorem completeRequest_laterPayloads (hhr : succeeded hr = false) (cbSize : ℕ)
    (fIsCancelable : Bool) : laterPayloads old (completeRequest hr cbSize fIsCancelable s).1.fx =
      laterPayloads old s.fx := by
  unfold completeRequest
  split
  case h_1 => rfl
  case h_2 =>
    split
    case isTrue => rfl
    case isFalse => simp [laterPayloads_completeWithInformation, hhr]

theorem laterPayloads_complete (hhr : succeeded hr = false) (id : ℕ) :
    laterPayloads old (fx.complete id hr) = laterPayloads old fx := by
  simp [laterPayloads, Framework.complete, hhr]

theorem Attempt.laterPayloads (h : Attempt payload request s result) :
    ∃ more, Nfp.laterPayloads old result.1.fx = Nfp.laterPayloads old s.fx ++ more ∧
      more.Sublist (if result.2 then [payload] else []) := by
  cases h with
  | noMemory => exact ⟨[], by simp, List.Sublist.refl _⟩
  | cancelled => exact ⟨[], by simp [written], List.Sublist.refl _⟩
  | shortBuffer _ _ _ _ hhr =>
      exact ⟨[], by simp [completed, laterPayloads_completeWithInformation, hhr],
        List.Sublist.refl _⟩
  | @delivered request' _ _ _ _ htake =>
      by_cases hold : request'.id ∈ old
      · exact ⟨[], by simp [completed, written, laterPayloads_completeWithInformation, hold],
          List.nil_sublist _⟩
      · refine ⟨[payload], ?_, List.Sublist.refl _⟩
        simp [completed, written, laterPayloads_completeWithInformation, hold, htake,
          List.drop_append]

theorem Attempt.cCompleteReady (h : Attempt payload request s result) :
    result.1.ctx.cCompleteReady = s.ctx.cCompleteReady := by
  cases h <;> rfl

theorem laterPayloads_eq_nil (hold : ∀ id ∈ completedIds fx, id ∈ old) :
    laterPayloads old fx = [] := by
  apply List.filterMap_eq_nil_iff.mpr
  intro completion hmem
  have hid := hold completion.request (List.mem_map.mpr ⟨completion, hmem, rfl⟩)
  simp [hid]

end Completions

/-! ## Messages -/

/-- The messages delivered to later requests and those in the queue have been
received since. -/
def MessagesSince (d u : FileRun) : Prop :=
  ∃ received, u.arrivals = d.arrivals ++ received ∧
    (laterPayloads d.presented u.file.fx ++ u.file.ctx.subscribedMessageQueue).Sublist
      (received.map (·.payload))

section Messages
variable {d t u : FileRun} {old : List ℕ} {s : FileState} {a : FileAction}

theorem MessagesSince.of_sublist (h : MessagesSince d t) (harrivals : u.arrivals = t.arrivals)
    (hlater : laterPayloads d.presented u.file.fx = laterPayloads d.presented t.file.fx)
    (hqueue : u.file.ctx.subscribedMessageQueue.Sublist t.file.ctx.subscribedMessageQueue) :
    MessagesSince d u := by
  obtain ⟨received, hreceived, hsub⟩ := h
  refine ⟨received, harrivals.trans hreceived, ?_⟩
  rw [hlater]
  exact ((List.Sublist.refl _).append hqueue).trans hsub

theorem MessagesSince.arrive (h : MessagesSince d t) {arrival : Arrival}
    (harrivals : u.arrivals = t.arrivals ++ [arrival])
    (hsub : (laterPayloads d.presented u.file.fx ++ u.file.ctx.subscribedMessageQueue).Sublist
      (laterPayloads d.presented t.file.fx ++ t.file.ctx.subscribedMessageQueue ++
        [arrival.payload])) : MessagesSince d u := by
  obtain ⟨received, hreceived, hsub'⟩ := h
  refine ⟨received ++ [arrival], by rw [harrivals, hreceived, List.append_assoc], ?_⟩
  rw [List.map_append]
  exact hsub.trans (hsub'.append (List.Sublist.refl _))

theorem deliverHead_sublist {request : IWDFIoRequest} (hpend : s.ctx.pWdfRequest = some request) :
    (laterPayloads old (deliverHead s).fx ++ (deliverHead s).ctx.subscribedMessageQueue).Sublist
      (laterPayloads old s.fx ++ s.ctx.subscribedMessageQueue) := by
  cases hqueue : s.ctx.subscribedMessageQueue with
  | nil =>
      rw [deliverHead_of_nil hqueue, hqueue]
  | cons payload rest =>
      have hattempt := completeOne_attempt payload hpend
      obtain ⟨more, hlater, hmore⟩ := @Attempt.laterPayloads old _ _ _ _ hattempt
      rw [deliverHead_of_cons hqueue]
      dsimp only
      split
      case isTrue hdone =>
        rw [if_pos hdone] at hmore
        rw [hlater, hattempt.queue, hqueue, List.tail_cons, List.append_assoc]
        exact (List.Sublist.refl _).append (hmore.append (List.Sublist.refl rest))
      case isFalse hdone =>
        rw [if_neg hdone, List.sublist_nil] at hmore
        rw [hlater, hmore, List.append_nil, hattempt.queue, hqueue]

/-- A publication is delivered if the queue is empty, and put behind it or lost
otherwise. -/
theorem deliverOrQueue_sublist (hwait : Waits s) (env : ReceiveEnv) (payload : List UInt8) :
    (laterPayloads old (deliverOrQueue env payload s).1.fx ++
        (deliverOrQueue env payload s).1.ctx.subscribedMessageQueue).Sublist
      (laterPayloads old s.fx ++ s.ctx.subscribedMessageQueue ++ [payload]) := by
  have hoffer : ∃ more, laterPayloads old (offerPended payload s).1.fx =
        laterPayloads old s.fx ++ more ∧
      more.Sublist (if (offerPended payload s).2 then [payload] else []) ∧
      (offerPended payload s).1.ctx.subscribedMessageQueue = s.ctx.subscribedMessageQueue ∧
      ((offerPended payload s).2 = true → s.ctx.subscribedMessageQueue = []) := by
    cases hpend : s.ctx.pWdfRequest with
    | none =>
        rw [offerPended_of_none payload hpend]
        exact ⟨[], (List.append_nil _).symm, List.nil_sublist _, rfl, fun h => nomatch h⟩
    | some request =>
        have hattempt := offerPended_of_some payload hpend
        obtain ⟨more, hlater, hmore⟩ := @Attempt.laterPayloads old _ _ _ _ hattempt
        refine ⟨more, hlater, hmore, hattempt.queue, fun hdone => ?_⟩
        exact hwait.resolve_left fun hnot => hattempt.not_delivered hpend hnot hdone
  obtain ⟨more, hlater, hmore, hqueue, hempty⟩ := hoffer
  unfold deliverOrQueue
  dsimp only
  split
  case isTrue hdone =>
    rw [if_pos hdone] at hmore
    rw [hlater, hqueue, hempty hdone, List.append_nil, List.append_nil]
    exact (List.Sublist.refl _).append hmore
  case isFalse hdone =>
    rw [if_neg hdone, List.sublist_nil] at hmore
    rw [hmore, List.append_nil] at hlater
    have hlost : (laterPayloads old (offerPended payload s).1.fx ++
        (offerPended payload s).1.ctx.subscribedMessageQueue).Sublist
          (laterPayloads old s.fx ++ s.ctx.subscribedMessageQueue ++ [payload]) := by
      rw [hlater, hqueue]
      exact List.sublist_append_left _ _
    unfold enqueue
    split
    case isFalse => exact hlost
    case isTrue =>
      split
      case isTrue =>
        change (laterPayloads old (offerPended payload s).1.fx ++
          ((offerPended payload s).1.ctx.subscribedMessageQueue ++ [payload])).Sublist _
        rw [hlater, hqueue, List.append_assoc]
      case isFalse => exact hlost

theorem MessagesSince.receive (h : MessagesSince d t) (hwait : Waits t.file) (env : ReceiveEnv)
    (pszType : List WCHAR) (pbPayload : List UInt8) : MessagesSince d
      (t.recordArrival (handleReceivedPublication env pszType pbPayload t.file)) := by
  unfold handleReceivedPublication
  split
  case isFalse => exact h.of_sublist rfl rfl (List.Sublist.refl _)
  case isTrue =>
    split
    case h_1 => exact h.of_sublist rfl rfl (List.Sublist.refl _)
    case h_2 => exact h.arrive rfl (List.sublist_append_left _ _)
    case h_3 payload hmatch => exact h.arrive rfl (deliverOrQueue_sublist hwait env payload)

theorem MessagesSince.disable (h : MessagesSince d t) (disables : ℕ) :
    MessagesSince d { t with file := (Nfp.disable t.file).1, disables := disables } := by
  rcases disable_cases t.file with ⟨-, hstay⟩ | ⟨-, hdone⟩
  · exact h.of_sublist rfl (by rw [hstay]) (by rw [hstay])
  · refine h.of_sublist rfl ?_ ?_
    · rw [hdone]
      exact completeRequest_laterPayloads succeeded_statusCancelled 0 true
    · rw [hdone]
      exact List.nil_sublist _

theorem MessagesSince.step (h : MessagesSince d t) (hledger : Ledger .subscription t)
    (hwait : Waits t.file) (hstep : FileStepTo t a u) : MessagesSince d u := by
  cases hstep with
  | completeFailed hmem =>
      exact h.of_sublist rfl (laterPayloads_complete (hledger.returned _ hmem) _)
        (List.Sublist.refl _)
  | onCancel =>
      refine h.of_sublist rfl (completeRequest_laterPayloads succeeded_eAbort 0 false) ?_
      change (onCancel t.file).ctx.subscribedMessageQueue.Sublist _
      rw [onCancel, completeRequest_queue]
  | inOpen _ hopen =>
      cases hopen with
      | @getNextSubscribed timing request result hfresh hcall =>
          rcases getNextSubscribedMessage_cases hcall with
            ⟨hstay, hhr⟩ | ⟨deliver, hdeliver, hidle, -, -, rfl⟩
          · exact h.of_sublist rfl (by simp [handled, hstay]) (by simp [handled, hstay])
          · rw [getNextSubscribed_pended hledger rfl hdeliver, handled_sOk]
            obtain ⟨received, hreceived, hsub⟩ := h
            refine ⟨received, hreceived, ?_⟩
            cases timing with
            | never =>
                rw [pendAndDeliver_never]
                exact (deliverHead_sublist rfl).trans hsub
            | before =>
                rw [pendAndDeliver_before]
                simp only [completed, laterPayloads_completeWithInformation, succeeded_eAbort,
                  Bool.false_eq_true, false_and, if_false, List.append_nil]
                exact hsub
            | during =>
                rw [pendAndDeliver_during]
                exact (deliverHead_sublist rfl).trans hsub
      | getNextTransmitted hfresh hcall =>
          rcases getNextTransmittedMessage_cases hcall with
            ⟨hstay, hhr⟩ | ⟨hrole, -, -, -⟩
          · exact h.of_sublist rfl (by simp [handled, hstay]) (by simp [handled, hstay])
          · simp [hledger.role] at hrole
      | cancel => exact h.of_sublist rfl rfl (List.Sublist.refl _)
      | disable => exact h.disable _
      | enable =>
          unfold Nfp.enable
          dsimp only
          split
          case isTrue => exact h.of_sublist rfl rfl (List.Sublist.refl _)
          case isFalse => exact h.of_sublist rfl rfl (List.Sublist.refl _)
      | receive => exact h.receive hwait _ _ _
      | messageTransmitted hrole | arrivalEvent hrole | removalEvent hrole =>
          simp [hledger.role] at hrole
      | closeFile =>
          refine h.of_sublist rfl (completeRequest_laterPayloads succeeded_eAbort 0 true) ?_
          change (destroy t.file).ctx.subscribedMessageQueue.Sublist _
          rw [destroy, completeRequest_queue]
          exact List.nil_sublist _

end Messages

/-! ## Events -/

/-- The events delivered to later requests and those credited have been signalled
since. -/
def EventsSince (d u : FileRun) : Prop :=
  (laterPayloads d.presented u.file.fx).length + u.file.ctx.cCompleteReady + d.events ≤ u.events

section Events
variable {d t u : FileRun} {old : List ℕ} {s : FileState} {a : FileAction} {role : Role}

theorem completeOneEvent_le (flags : ℕ) : (laterPayloads old (completeOneEvent flags s).fx).length +
        (completeOneEvent flags s).ctx.cCompleteReady ≤
      (laterPayloads old s.fx).length + s.ctx.cCompleteReady := by
  unfold completeOneEvent
  split
  case isFalse => exact Nat.le_refl _
  case isTrue hready =>
    obtain ⟨hready, hsome⟩ := hready
    obtain ⟨request, hpend⟩ := Option.isSome_iff_exists.mp hsome
    have hattempt := completeOne_attempt (dwordBytes flags) hpend
    rw [dwordBytes_length] at hattempt
    obtain ⟨more, hlater, hmore⟩ := @Attempt.laterPayloads old _ _ _ _ hattempt
    have hkept := hattempt.cCompleteReady
    dsimp only
    split
    case isTrue hdone =>
      rw [if_pos hdone] at hmore
      have hlength := hmore.length_le
      simp only [spendCredit, hlater, hkept, List.length_append, List.length_singleton] at hlength ⊢
      omega
    case isFalse hdone =>
      rw [if_neg hdone, List.sublist_nil] at hmore
      rw [hlater, hmore, List.append_nil, hkept]

theorem completeRequest_cCompleteReady (hr : HRESULT) (cbSize : ℕ) (fIsCancelable : Bool)
    (s : FileState) :
    (completeRequest hr cbSize fIsCancelable s).1.ctx.cCompleteReady = s.ctx.cCompleteReady := by
  unfold completeRequest
  split
  case h_1 => rfl
  case h_2 =>
    split
    case isTrue => rfl
    case isFalse => rfl

theorem EventsSince.of_eq (h : EventsSince d t) (hevents : u.events = t.events)
    (hlater : laterPayloads d.presented u.file.fx = laterPayloads d.presented t.file.fx)
    (hready : u.file.ctx.cCompleteReady = t.file.ctx.cCompleteReady) : EventsSince d u := by
  rw [EventsSince, hevents, hlater, hready]
  exact h

theorem EventsSince.completeOneEvent {presented : List ℕ} (h : EventsSince d t)
    (hlater : laterPayloads d.presented s.fx = laterPayloads d.presented t.file.fx)
    (hready : s.ctx.cCompleteReady = t.file.ctx.cCompleteReady) (flags : ℕ) : EventsSince d
      { t with file := Nfp.completeOneEvent flags s, presented := presented } := by
  have hle := @completeOneEvent_le d.presented s flags
  have hsince := h
  simp only [EventsSince, hlater, hready] at hle hsince ⊢
  omega

theorem EventsSince.handleEvent (h : EventsSince d t) (flags : ℕ) : EventsSince d { t with
      file := Nfp.handleEvent (Nfp.completeOneEvent flags) t.file
      events := if t.file.ctx.fEnabled then t.events + 1 else t.events } := by
  unfold Nfp.handleEvent
  split
  case isTrue henabled =>
    have hle := @completeOneEvent_le d.presented (addCredit t.file) flags
    have hsince := h
    simp only [EventsSince, addCredit, henabled] at hle hsince ⊢
    omega
  case isFalse henabled => exact h

theorem EventsSince.step (h : EventsSince d t) (hledger : Ledger role t)
    (hrole : role = .arrivedSubscription ∨ role = .departedSubscription)
    (hstep : FileStepTo t a u) : EventsSince d u := by
  cases hstep with
  | completeFailed hmem =>
      exact h.of_eq rfl (laterPayloads_complete (hledger.returned _ hmem) _) rfl
  | onCancel =>
      exact h.of_eq rfl (completeRequest_laterPayloads succeeded_eAbort 0 false)
        (completeRequest_cCompleteReady _ _ _ _)
  | inOpen _ hopen =>
      cases hopen with
      | @getNextSubscribed timing request result hfresh hcall =>
          rcases getNextSubscribedMessage_cases hcall with
            ⟨hstay, hhr⟩ | ⟨deliver, hdeliver, hidle, -, -, rfl⟩
          · exact h.of_eq rfl (by simp [handled, hstay]) (by simp [handled, hstay])
          · rw [hledger.role] at hdeliver
            obtain ⟨flags, -, rfl⟩ := eventFlags_of_deliverFor (.inr hrole) hdeliver
            rw [handled_sOk]
            cases timing with
            | never =>
                rw [pendAndDeliver_never]
                exact @EventsSince.completeOneEvent d t (pend request t.file) _ h rfl rfl flags
            | before =>
                rw [pendAndDeliver_before]
                refine h.of_eq rfl ?_ rfl
                simp only [completed, laterPayloads_completeWithInformation, succeeded_eAbort,
                  Bool.false_eq_true, false_and, if_false, List.append_nil]
                rfl
            | during =>
                rw [pendAndDeliver_during]
                exact @EventsSince.completeOneEvent d t
                  (pend request { t.file with fx := t.file.fx.cancel request.id }) _ h rfl rfl flags
      | getNextTransmitted hfresh hcall =>
          rcases getNextTransmittedMessage_cases hcall with ⟨hstay, hhr⟩ | ⟨hpub, -, -, -⟩
          · exact h.of_eq rfl (by simp [handled, hstay]) (by simp [handled, hstay])
          · rw [hledger.role] at hpub
            simp [hpub] at hrole
      | cancel => exact h.of_eq rfl rfl rfl
      | disable =>
          rcases disable_cases t.file with ⟨-, hstay⟩ | ⟨-, hdone⟩
          · exact h.of_eq rfl (by rw [hstay]) (by rw [hstay])
          · refine h.of_eq rfl ?_ ?_
            · rw [hdone]
              exact completeRequest_laterPayloads succeeded_statusCancelled 0 true
            · rw [hdone]
              exact completeRequest_cCompleteReady _ _ _ _
      | enable =>
          unfold Nfp.enable
          dsimp only
          split
          case isTrue => exact h.of_eq rfl rfl rfl
          case isFalse => exact h.of_eq rfl rfl rfl
      | receive hsub =>
          rw [hledger.role] at hsub
          simp [hsub] at hrole
      | messageTransmitted hpub =>
          rw [hledger.role] at hpub
          simp [hpub] at hrole
      | arrivalEvent => exact h.handleEvent 1
      | removalEvent => exact h.handleEvent 0
      | closeFile =>
          exact h.of_eq rfl (completeRequest_laterPayloads succeeded_eAbort 0 true)
            (completeRequest_cCompleteReady _ _ _ _)

end Events

/-! ## From a `Disable` to a later request -/

section Disabled
variable {role : Role} {t d u : FileRun} {a : FileAction}

/-- What a successful `Disable` leaves: a disabled handle with an empty list of
messages, on which only a request that is being cancelled is still pended. -/
structure Disabled (role : Role) (t d : FileRun) : Prop where
  ledger : Ledger role d
  isOpen : d.closed = false
  fEnabled : d.file.ctx.fEnabled = false
  queue : d.file.ctx.subscribedMessageQueue = []
  cCompleteReady : d.file.ctx.cCompleteReady = t.file.ctx.cCompleteReady
  cancelled : ∀ request ∈ d.file.ctx.pWdfRequest, request.id ∈ d.file.fx.cancelled

theorem completeRequest_pended {hr : HRESULT} {cbSize : ℕ} {s : FileState} :
    ∀ request ∈ (completeRequest hr cbSize true s).1.ctx.pWdfRequest,
      request.id ∈ (completeRequest hr cbSize true s).1.fx.cancelled := by
  cases hpend : s.ctx.pWdfRequest with
  | none =>
      rw [completeRequest_of_none hpend, hpend]
      simp
  | some request =>
      by_cases hcancel : request.id ∈ s.fx.cancelled
      · rw [completeRequest_of_cancelled hpend hcancel, hpend]
        simpa using hcancel
      · rw [completeRequest_of_not_cancelled hpend hcancel]
        simp [completed]

theorem disabled_of_fileStep (hledger : Ledger role t) (hstep : fileStep t .disable = some d)
    (hdone : succeeded (disable t.file).2 = true) : Disabled role t d := by
  have hto := fileStepTo_of_fileStep hstep
  have hledger' := hledger.step hto
  obtain ⟨hopen, hcall⟩ : t.closed = false ∧ openStep t .disable = some d := by
    simpa [fileStep] using hstep
  simp only [openStep, Option.some.injEq] at hcall
  rcases disable_cases t.file with ⟨hfail, hstay⟩ | ⟨-, hcases⟩
  · rw [hstay, hfail] at hdone
    exact absurd hdone Bool.false_ne_true
  · rw [hcases] at hcall
    subst hcall
    exact {
      ledger := hledger'
      isOpen := hopen
      fEnabled := by
        dsimp only
        unfold completeRequest
        split
        case h_1 => rfl
        case h_2 =>
          split
          case isTrue => rfl
          case isFalse => rfl
      queue := rfl
      cCompleteReady := completeRequest_cCompleteReady _ _ _ _
      cancelled := completeRequest_pended }

theorem Disabled.laterPayloads (h : Disabled role t d) :
    Nfp.laterPayloads d.presented d.file.fx = [] :=
  laterPayloads_eq_nil fun _ hid => h.ledger.mem_of_presented.mpr (.inl hid)

theorem Disabled.discards_messages (h : Disabled .subscription t d) (hwait : Waits d.file)
    {bs : List FileAction} (hrun : RunsTo fileStep Always d bs u) : DiscardsPast d u := by
  have hsince : MessagesSince d d := by
    refine ⟨[], (List.append_nil _).symm, ?_⟩
    rw [h.laterPayloads, h.queue]
    exact List.Sublist.refl _
  have hall := hrun.invariant (fun u => Ledger .subscription u ∧ Waits u.file ∧ MessagesSince d u)
    ⟨h.ledger, hwait, hsince⟩ ?_
  · obtain ⟨-, -, received, hreceived, hsub⟩ := hall
    rw [DiscardsPast, if_pos h.ledger.role, hreceived, List.drop_left]
    exact (List.sublist_append_left _ _).trans hsub
  · rintro u a v ⟨hledger, hwait, hsince⟩ - hstep
    have hto := fileStepTo_of_fileStep hstep
    exact ⟨hledger.step hto, waits_step hledger hwait hto, hsince.step hledger hwait hto⟩

theorem Disabled.discards_events (h : Disabled role t d)
    (hrole : role = .arrivedSubscription ∨ role = .departedSubscription)
    (hready : t.file.ctx.cCompleteReady = 0) {bs : List FileAction}
    (hrun : RunsTo fileStep Always d bs u) : DiscardsPast d u := by
  have hsince : EventsSince d d := by
    rw [EventsSince, h.laterPayloads, h.cCompleteReady, hready]
    simp
  have hall := hrun.invariant (fun u => Ledger role u ∧ EventsSince d u) ⟨h.ledger, hsince⟩ ?_
  · have hle := hall.2
    have hnot : d.file.ctx.role ≠ .subscription := by
      rw [h.ledger.role]
      rcases hrole with rfl | rfl <;> decide
    rw [EventsSince] at hle
    rw [DiscardsPast, if_neg hnot]
    omega
  · rintro u a v ⟨hledger, hsince⟩ - hstep
    have hto := fileStepTo_of_fileStep hstep
    exact ⟨hledger.step hto, hsince.step hledger hrole hto⟩

/-- The client's way back to an idle handle: a request that is still being cancelled is
taken by its callback. -/
theorem Disabled.idle (h : Disabled role t d) :
    ∃ bs e, RunsTo fileStep Always d bs e ∧ Disabled role t e ∧
      e.file.ctx.pWdfRequest = none ∧ e.presented = d.presented ∧ e.events = d.events := by
  cases hpend : d.file.ctx.pWdfRequest with
  | none => exact ⟨[], d, .nil, h, hpend, rfl, rfl⟩
  | some request =>
      have hcancel := h.cancelled request hpend
      have hdue : request.id ∈ d.file.fx.due := by
        rw [h.ledger.due]
        simpa [beingCancelled, pendedIds, hpend] using hcancel
      have hstep : fileStep d (.onCancel request.id) = some { d with file :=
          { onCancel d.file with fx :=
            { (onCancel d.file).fx with due := (onCancel d.file).fx.due.erase request.id } } } := by
        simp [fileStep, hdue]
      have hcall : onCancel d.file = completed request eAbort 0 d.file := by
        simp [onCancel, completeRequest_of_some hpend]
      refine ⟨_, _, .single trivial hstep, ?_, onCancel_notPended _, rfl, rfl⟩
      exact {
        ledger := h.ledger.step (fileStepTo_of_fileStep hstep)
        isOpen := h.isOpen
        fEnabled := by
          rw [hcall]
          exact h.fEnabled
        queue := by
          rw [hcall]
          exact h.queue
        cCompleteReady := by
          rw [hcall]
          exact h.cCompleteReady
        cancelled := by
          rw [hcall]
          simp [completed] }

theorem completeOneEvent_delivers {s : FileState} {id flags : ℕ} {old : List ℕ}
    (hready : 0 < s.ctx.cCompleteReady) (hcancel : id ∉ s.fx.cancelled) (hold : id ∉ old) :
    laterPayloads old (completeOneEvent flags (pend (readRequest id 8) s)).fx =
      laterPayloads old s.fx ++ [dwordBytes flags] := by
  have hpended : 0 < (pend (readRequest id 8) s).ctx.cCompleteReady ∧
      (pend (readRequest id 8) s).ctx.pWdfRequest.isSome = true := ⟨hready, rfl⟩
  have hattempt := completeOne_attempt (dwordBytes flags)
    (show (pend (readRequest id 8) s).ctx.pWdfRequest = some (readRequest id 8) from rfl)
  rw [dwordBytes_length] at hattempt
  rw [completeOneEvent, if_pos hpended]
  dsimp only
  generalize completeOneGetNextSubscribedMessage 4 (some (dwordBytes flags))
    (pend (readRequest id 8) s) = result at hattempt
  cases hattempt with
  | noMemory hnone => simp [readRequest] at hnone
  | cancelled _ hnot => exact absurd hnot hcancel
  | shortBuffer _ _ hshort => simp [Fits, readRequest, IWDFIoRequest.outputBuffer] at hshort
  | @delivered request' _ _ _ hid htake =>
      have hid' : request'.id ∉ old := by
        rw [hid]
        exact hold
      rw [dwordBytes_length] at htake
      simp [spendCredit, completed, written, laterPayloads_completeWithInformation, hid', htake,
        pend, List.drop_append]

theorem Disabled.not_discards (h : Disabled role t d)
    (hrole : role = .arrivedSubscription ∨ role = .departedSubscription)
    (hready : 0 < t.file.ctx.cCompleteReady) :
    ∃ bs u, RunsTo fileStep Always d bs u ∧ ¬ DiscardsPast d u := by
  obtain ⟨bs, e, hrun, he, hidle, hpresented, hevents⟩ := h.idle
  obtain ⟨id, hfresh⟩ := Infinite.exists_notMem_finset e.presented.toFinset
  rw [List.mem_toFinset] at hfresh
  have hcancel : id ∉ e.file.fx.cancelled := fun hmem => hfresh (he.ledger.cancelled id hmem)
  have henable : fileStep e .enable = some
      { e with file := { e.file with ctx := { e.file.ctx with fEnabled := true } } } := by
    have hok : toggleResult false e.file.ctx = sOk := by
      rw [toggleResult, he.ledger.role, he.fEnabled]
      rcases hrole with rfl | rfl <;> rfl
    simp [fileStep, he.isOpen, openStep, enable, hok]
  obtain ⟨flags, hdeliver⟩ : ∃ flags, deliverFor role = some (completeOneEvent flags) := by
    rcases hrole with rfl | rfl
    · exact ⟨1, rfl⟩
    · exact ⟨0, rfl⟩
  have hread : HasNoInput (readRequest id 8) := ⟨_, rfl, rfl⟩
  have hcall := @getNextSubscribedMessage_of_pends .never (readRequest id 8)
    { e.file with ctx := { e.file.ctx with fEnabled := true } } _ hidle rfl hread
    (he.ledger.role ▸ hdeliver)
  have hget : fileStep
      { e with file := { e.file with ctx := { e.file.ctx with fEnabled := true } } }
      (.getNextSubscribed .never (readRequest id 8)) = some (handled (readRequest id 8)
        (completeOneEvent flags (pend (readRequest id 8)
          { e.file with ctx := { e.file.ctx with fEnabled := true } }), sOk)
        { e with file := { e.file with ctx := { e.file.ctx with fEnabled := true } } }) := by
    rw [pendAndDeliver_never] at hcall
    have hnew : (readRequest id 8).id ∉ e.presented := hfresh
    simp [fileStep, he.isOpen, openStep, hcall, hnew]
  refine ⟨_, _, (hrun.snoc trivial henable).snoc trivial hget, ?_⟩
  have hlater := @completeOneEvent_delivers
    { e.file with ctx := { e.file.ctx with fEnabled := true } } id flags d.presented
    (he.cCompleteReady ▸ hready) hcancel (hpresented ▸ hfresh)
  have hnot : d.file.ctx.role ≠ .subscription := by
    rw [h.ledger.role]
    rcases hrole with rfl | rfl <;> decide
  rw [DiscardsPast, if_neg hnot]
  simp only [handled_sOk]
  rw [hlater, List.length_append, hevents, Nat.sub_self]
  simp

end Disabled

/-- For every successful `Disable` in every run of a subscription of any of the three roles:
in every continuation nothing received or signalled before it is delivered to a later
request exactly if the subscription is one to messages or has no undelivered event. -/
theorem disable_discards_past_iff {role : Role} {pszType : Option (List WCHAR)}
    {as : List FileAction} {t d : FileRun} (hrole : role.Subscribes)
    (hrun : RunsTo fileStep Always (FileRun.create role pszType) as t)
    (hstep : fileStep t .disable = some d)
    (hdone : succeeded (disable t.file).2 = true) :
    (∀ bs u, RunsTo fileStep Always d bs u → DiscardsPast d u) ↔
      role = .subscription ∨ t.file.ctx.cCompleteReady = 0 := by
  have hledger := ledger_of_run hrun
  have hdisabled := disabled_of_fileStep hledger hstep hdone
  constructor
  · intro hall
    rcases hrole with hsub | hevent
    · exact .inl hsub
    · right
      by_contra hready
      obtain ⟨bs, u, hrun', hnot⟩ := hdisabled.not_discards hevent (Nat.pos_of_ne_zero hready)
      exact hnot (hall bs u hrun')
  · intro hcond bs u hrun'
    rcases hrole with rfl | hevent
    · have hwait : Waits d.file :=
        ((hrun.snoc trivial hstep).invariant
          (fun u => Ledger .subscription u ∧ Waits u.file)
          ⟨ledger_create _ _, .inr rfl⟩
          fun u a v hu _ huv =>
            ⟨hu.1.step (fileStepTo_of_fileStep huv),
              waits_step hu.1 hu.2 (fileStepTo_of_fileStep huv)⟩).2
      exact hdisabled.discards_messages hwait hrun'
    · have hready : t.file.ctx.cCompleteReady = 0 := by
        rcases hcond with rfl | hready
        · simp at hevent
        · exact hready
      exact hdisabled.discards_events hevent hready hrun'

/-- A message that has not been delivered is discarded by `Disable`. -/
theorem disable_discards_past_iff_message :
    ∃ t d, RunsTo fileStep Always (FileRun.create .subscription (some [65]))
        [.receive ⟨none, true, true, true⟩ [65] [7]] t ∧
      t.file.ctx.subscribedMessageQueue = [[7]] ∧ fileStep t .disable = some d ∧
      ((∀ bs u, RunsTo fileStep Always d bs u → DiscardsPast d u) ↔
        Role.subscription = .subscription ∨ t.file.ctx.cCompleteReady = 0) :=
  have hrun := RunsTo.of_isSome (by decide)
  ⟨_, _, hrun, by decide, rfl, disable_discards_past_iff (.inl rfl) hrun rfl (by decide)⟩

/-- An arrival signalled before `Disable` is delivered to the request that follows
`Enable`. -/
theorem arrival_delivered_after_disable :
    ∃ t d u, RunsTo fileStep Always (FileRun.create .arrivedSubscription none)
        [.arrivalEvent] t ∧
      fileStep t .disable = some d ∧ succeeded (disable t.file).2 = true ∧
      RunsTo fileStep Always d [.enable, .getNextSubscribed .never (readRequest 1 8)] u ∧
      ¬ DiscardsPast d u := by
  refine ⟨_, _, _, RunsTo.of_isSome (by decide), rfl, by decide,
    RunsTo.of_isSome (by decide), ?_⟩
  rw [DiscardsPast, if_neg (by decide)]
  decide

end MiscProjects.Nfp
