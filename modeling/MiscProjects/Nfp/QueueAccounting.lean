import MiscProjects.Nfp.Subscription

/-!
# The size counter of the subscription queue

`m_dwQueueSize` is meant to be the number of messages linked in
`m_SubscribedMessageQueue`.  The code breaks this in two places.  `Disable`
purges the list and leaves the counter alone.  And the counter is decremented
once the copy into the client's buffer has succeeded, before the completion is
tried: if that fails because the client is cancelling the request, the message
stays linked, or was never linked, and the counter is one too small.

`Steady` names the steps that avoid both, and the memory shortages in which a
publication is dropped.  In every run of such steps the counter is exact.
-/

namespace MiscProjects.Nfp

open MiscProjects.Runs

/-! ## The steps that keep the account -/

/-- The pended request takes the payload. -/
def Deliverable (payload : List UInt8) (s : FileState) : Prop :=
  ∃ request ∈ s.ctx.pWdfRequest,
    request.id ∉ s.fx.cancelled ∧ Fits payload request

/-- The payload is copied to a pended request that is being cancelled. -/
def CopiedInVain (payload : List UInt8) (s : FileState) : Prop :=
  ∃ request ∈ s.ctx.pWdfRequest,
    request.id ∈ s.fx.cancelled ∧ Fits payload request

instance (payload : List UInt8) (s : FileState) :
    Decidable (Deliverable payload s) :=
  inferInstanceAs (Decidable (∃ request ∈ s.ctx.pWdfRequest, _ ∧ _))

instance (payload : List UInt8) (s : FileState) :
    Decidable (CopiedInVain payload s) :=
  inferInstanceAs (Decidable (∃ request ∈ s.ctx.pWdfRequest, _ ∧ _))

/-- A received publication does not match; or it matches, is not copied in vain
while the counter is positive, and is delivered, rejected for a full queue or
linked to it with memory to spare. -/
def SteadyReceive (env : ReceiveEnv) (s : FileState) : MatchResult → Prop
  | .noMatch => True
  | .outOfMemory => False
  | .matched payload =>
      (CopiedInVain payload s → s.ctx.dwQueueSize = 0) ∧
        (Deliverable payload s ∨ maxMessageQueueSize ≤ s.ctx.dwQueueSize ∨
          (env.newMyPayload && env.newPayloadBytes) = true)

instance (request : IWDFIoRequest) : Decidable (HasNoInput request) :=
  inferInstanceAs (Decidable (∃ input ∈ request.inputMemory, _))

instance (env : ReceiveEnv) (s : FileState) :
    (m : MatchResult) → Decidable (SteadyReceive env s m)
  | .noMatch => inferInstanceAs (Decidable True)
  | .outOfMemory => inferInstanceAs (Decidable False)
  | .matched _ => inferInstanceAs (Decidable ((_ → _) ∧ _))

/-- `GetNextSubscribedMessage` would pend this request. -/
def Pends (request : IWDFIoRequest) (s : FileState) : Prop :=
  s.ctx.pWdfRequest = none ∧ s.ctx.fEnabled = true ∧ HasNoInput request

instance (request : IWDFIoRequest) (s : FileState) :
    Decidable (Pends request s) :=
  inferInstanceAs (Decidable (_ ∧ _ ∧ _))

/-- The steps that keep the counter equal to the length of the queue: no
successful `Disable` while messages are linked, no copy to a request whose
completion is lost to a cancellation, no publication dropped for want of
memory, and the context stays open. -/
def Steady (t : FileRun) : FileAction → Prop
  | .disable =>
      succeeded (toggleResult true t.file.ctx) = true →
        t.file.ctx.subscribedMessageQueue = []
  | .getNextSubscribed .during request =>
      Pends request t.file →
        ∀ payload ∈ t.file.ctx.subscribedMessageQueue.head?,
          ¬ Fits payload request
  | .receive env pszType pbPayload =>
      t.file.ctx.fEnabled = true →
        SteadyReceive env t.file
          (matchPublication env pszType pbPayload t.file.ctx)
  | .closeFile => False
  | _ => True

instance (t : FileRun) : (a : FileAction) → Decidable (Steady t a)
  | .disable => inferInstanceAs (Decidable (_ → _))
  | .getNextSubscribed .during _ => inferInstanceAs (Decidable (_ → _))
  | .receive _ _ _ => inferInstanceAs (Decidable (_ → _))
  | .closeFile => inferInstanceAs (Decidable False)
  | .getNextSubscribed .never _ => inferInstanceAs (Decidable True)
  | .getNextSubscribed .before _ => inferInstanceAs (Decidable True)
  | .getNextTransmitted _ _ => inferInstanceAs (Decidable True)
  | .completeFailed _ _ => inferInstanceAs (Decidable True)
  | .cancel => inferInstanceAs (Decidable True)
  | .onCancel _ => inferInstanceAs (Decidable True)
  | .enable => inferInstanceAs (Decidable True)
  | .messageTransmitted => inferInstanceAs (Decidable True)
  | .arrivalEvent => inferInstanceAs (Decidable True)
  | .removalEvent => inferInstanceAs (Decidable True)

/-! ## The account -/

/-- The counter is exact and within bounds. -/
def Accounted (s : FileState) : Prop :=
  s.ctx.dwQueueSize = s.ctx.subscribedMessageQueue.length ∧
    s.ctx.dwQueueSize ≤ maxMessageQueueSize

/-- A publication was taken, or dropped when the queue really was full. -/
def Arrival.Justified (arrival : Arrival) : Prop :=
  arrival.outcome = .delivered ∨ arrival.outcome = .queued ∨
    (arrival.outcome = .queueFull ∧
      arrival.queueLength = maxMessageQueueSize)

/-- The counter is exact, the queue never holds more than the maximum, and
matching publications received while enabled were dropped only when that many
messages were linked. -/
def QueueAccounted (t : FileRun) : Prop :=
  Accounted t.file ∧
    t.file.ctx.subscribedMessageQueue.length ≤ maxMessageQueueSize ∧
    ∀ arrival ∈ t.arrivals, arrival.Justified

variable {t u : FileRun} {result : FileState × Bool} {s : FileState} {payload : List UInt8}
  {a : FileAction} {request : IWDFIoRequest} {env : ReceiveEnv}

theorem Attempt.dwQueueSize (h : Attempt payload request s result)
    (hvain : request.id ∈ s.fx.cancelled → Fits payload request → s.ctx.dwQueueSize = 0) :
    result.1.ctx.dwQueueSize =
      if result.2 then s.ctx.dwQueueSize - 1 else s.ctx.dwQueueSize := by
  cases h with
  | noMemory => rfl
  | shortBuffer => rfl
  | delivered => rfl
  | cancelled _ hcancel _ _ hsize =>
      by_cases hfit : Fits payload request
      · simp [written, hsize, hvain hcancel hfit]
      · simp [written, hsize, hfit]

theorem deliverHead_accounted (hs : Accounted s) (hpend : s.ctx.pWdfRequest = some request)
    (hvain : request.id ∈ s.fx.cancelled →
      ∀ payload ∈ s.ctx.subscribedMessageQueue.head?, ¬ Fits payload request) :
    Accounted (deliverHead s) := by
  cases hqueue : s.ctx.subscribedMessageQueue with
  | nil =>
      rw [deliverHead_of_nil hqueue]
      exact hs
  | cons payload rest =>
      have hattempt := completeOne_attempt payload hpend
      have hsize := hattempt.dwQueueSize fun hcancel hfit =>
        absurd hfit (hvain hcancel payload (by simp [hqueue]))
      have hlinked := hattempt.queue
      obtain ⟨hexact, hbound⟩ := hs
      rw [hqueue] at hlinked hexact
      simp only [List.length_cons] at hexact
      rw [deliverHead_of_cons hqueue]
      dsimp only
      split
      case isTrue hdone =>
        rw [if_pos hdone] at hsize
        simp only [Accounted, hsize, hlinked, List.tail_cons]
        omega
      case isFalse hdone =>
        rw [if_neg hdone] at hsize
        simp only [Accounted, hsize, hlinked, List.length_cons]
        omega

theorem Attempt.delivered_iff (h : Attempt payload request s result) :
    result.2 = true ↔ request.id ∉ s.fx.cancelled ∧ Fits payload request := by
  cases h with
  | noMemory hmem => simp [Fits, IWDFIoRequest.outputBuffer, hmem]
  | cancelled _ hcancel => simp [hcancel]
  | shortBuffer _ hcancel hfit => simp [hfit]
  | delivered _ hcancel hfit => simp [hcancel, hfit]

theorem enqueue_accounted (hs : Accounted s) (payload : List UInt8)
    (hmemory : s.ctx.dwQueueSize < maxMessageQueueSize →
      (env.newMyPayload && env.newPayloadBytes) = true) : Accounted (enqueue env payload s).1 ∧
      ((enqueue env payload s).2 = .queued ∨ ((enqueue env payload s).2 = .queueFull ∧
          (enqueue env payload s).1.ctx.subscribedMessageQueue.length = maxMessageQueueSize)) := by
  obtain ⟨hexact, hbound⟩ := hs
  by_cases hroom : s.ctx.dwQueueSize < maxMessageQueueSize
  · rw [enqueue, if_pos hroom, if_pos (hmemory hroom)]
    refine ⟨⟨?_, ?_⟩, .inl rfl⟩
    · simp [hexact]
    · exact hroom
  · rw [enqueue, if_neg hroom]
    refine ⟨⟨hexact, hbound⟩, .inr ⟨rfl, ?_⟩⟩
    simp only
    omega

/-- Receiving a matching publication keeps the account and justifies what
becomes of it. -/
theorem deliverOrQueue_accounted (hs : Accounted s) (hwait : Waits s)
    (hsteady : SteadyReceive env s (.matched payload)) :
    Accounted (deliverOrQueue env payload s).1 ∧ ((deliverOrQueue env payload s).2 = .delivered ∨
        (deliverOrQueue env payload s).2 = .queued ∨
        ((deliverOrQueue env payload s).2 = .queueFull ∧
          (deliverOrQueue env payload s).1.ctx.subscribedMessageQueue.length =
            maxMessageQueueSize)) := by
  obtain ⟨hvain, hfate⟩ := hsteady
  cases hpend : s.ctx.pWdfRequest with
  | none =>
      have hmemory : s.ctx.dwQueueSize < maxMessageQueueSize →
          (env.newMyPayload && env.newPayloadBytes) = true := by
        intro hroom
        rcases hfate with ⟨request, hrequest, -⟩ | hfull | hmem
        · simp [hpend] at hrequest
        · omega
        · exact hmem
      have hqueued := enqueue_accounted hs payload hmemory
      simp only [deliverOrQueue, offerPended_of_none payload hpend, Bool.false_eq_true, if_false]
      exact ⟨hqueued.1, .inr hqueued.2⟩
  | some request =>
      have hattempt := offerPended_of_some payload hpend
      have hsize := hattempt.dwQueueSize fun hcancel hfit => hvain ⟨request, hpend, hcancel, hfit⟩
      have hlinked := hattempt.queue
      have hdelivered := hattempt.delivered_iff
      cases hdone : (offerPended payload s).2 with
      | true =>
          -- a request that takes the payload was waiting: the queue is empty
          obtain ⟨hcancel, hfit⟩ := hdelivered.mp hdone
          have hmem : request.outputMemory.isSome = true := by
            by_contra hnone
            simp only [Option.not_isSome_iff_eq_none] at hnone
            simp [Fits, IWDFIoRequest.outputBuffer, hnone] at hfit
          have hempty : s.ctx.subscribedMessageQueue = [] := by
            rcases hwait with hwait | hempty
            · exact absurd (hwait request hpend hmem) hcancel
            · exact hempty
          have hzero : s.ctx.dwQueueSize = 0 := by
            rw [hs.1, hempty]
            rfl
          rw [if_pos hdone] at hsize
          simp only [deliverOrQueue, hdone, if_true]
          refine ⟨⟨?_, ?_⟩, .inl trivial⟩
          · simp [hsize, hlinked, hempty, hzero]
          · simp [hsize, hzero]
      | false =>
          have hmemory : (offerPended payload s).1.ctx.dwQueueSize < maxMessageQueueSize →
              (env.newMyPayload && env.newPayloadBytes) = true := by
            intro hroom
            rcases hfate with ⟨other, hother, hcancel, hfit⟩ | hfull | hmem
            · have heq : request = other := by
                simpa [hpend] using hother
              rw [hdelivered.mpr (heq ▸ ⟨hcancel, hfit⟩)] at hdone
              simp at hdone
            · simp only [hsize, hdone, Bool.false_eq_true, if_false] at hroom
              omega
            · exact hmem
          have hkept : Accounted (offerPended payload s).1 := by
            simpa [Accounted, hsize, hlinked, hdone] using hs
          have hqueued := enqueue_accounted hkept payload hmemory
          simp only [deliverOrQueue, hdone, Bool.false_eq_true, if_false]
          exact ⟨hqueued.1, .inr hqueued.2⟩

/-! ## Runs -/

theorem queueAccounted_create (pszType : Option (List WCHAR)) :
    QueueAccounted (FileRun.create .subscription pszType) := by
  simp [QueueAccounted, Accounted, FileRun.create, FileState.create, CFileContext.create]

theorem QueueAccounted.of_eq (ht : QueueAccounted t)
    (hsize : u.file.ctx.dwQueueSize = t.file.ctx.dwQueueSize)
    (hqueue : u.file.ctx.subscribedMessageQueue = t.file.ctx.subscribedMessageQueue)
    (harrivals : u.arrivals = t.arrivals) : QueueAccounted u := by
  simpa [QueueAccounted, Accounted, hsize, hqueue, harrivals] using ht

theorem QueueAccounted.of_accounted (ht : QueueAccounted t) (hu : Accounted u.file)
    (harrivals : u.arrivals = t.arrivals) : QueueAccounted u := by
  refine ⟨hu, hu.1 ▸ hu.2, ?_⟩
  rw [harrivals]
  exact ht.2.2

theorem completeRequest_dwQueueSize
    (hr : HRESULT) (cbSize : ℕ) (fIsCancelable : Bool) (s : FileState) :
    (completeRequest hr cbSize fIsCancelable s).1.ctx.dwQueueSize = s.ctx.dwQueueSize := by
  unfold completeRequest
  split
  case h_1 => rfl
  case h_2 =>
    split
    case isTrue => rfl
    case isFalse => rfl

theorem QueueAccounted.getNextSubscribed (ht : QueueAccounted t) (hledger : Ledger .subscription t)
    {timing : CancelTiming} {result : FileState × HRESULT}
    (hsteady : Steady t (.getNextSubscribed timing request)) (hfresh : request.id ∉ t.presented)
    (hcall : getNextSubscribedMessage timing request t.file = some result) :
    QueueAccounted (handled request result t) := by
  rcases getNextSubscribedMessage_cases hcall with
    ⟨hstay, hhr⟩ | ⟨deliver, hdeliver, hidle, henabled, hinput, rfl⟩
  · exact ht.of_eq (by simp [handled, hstay]) (by simp [handled, hstay]) rfl
  · rw [getNextSubscribed_pended hledger rfl hdeliver, handled_sOk]
    have hnot := hledger.fresh hfresh
    cases timing with
    | never =>
        rw [pendAndDeliver_never]
        exact ht.of_accounted (deliverHead_accounted ht.1 rfl (fun h => absurd h hnot)) rfl
    | before =>
        rw [pendAndDeliver_before]
        exact ht.of_eq rfl rfl rfl
    | during =>
        rw [pendAndDeliver_during]
        refine ht.of_accounted (deliverHead_accounted ht.1 rfl ?_) rfl
        exact fun _ => hsteady ⟨hidle, henabled, hinput⟩

theorem QueueAccounted.receive (ht : QueueAccounted t) (hwait : Waits t.file) {pszType : List WCHAR}
    {pbPayload : List UInt8} (hsteady : Steady t (.receive env pszType pbPayload)) : QueueAccounted
      (t.recordArrival (handleReceivedPublication env pszType pbPayload t.file)) := by
  cases henabled : t.file.ctx.fEnabled with
  | false =>
      have hstay : handleReceivedPublication env pszType pbPayload t.file = (t.file, none) := by
        simp [handleReceivedPublication, henabled]
      rw [hstay]
      exact ht.of_eq rfl rfl rfl
  | true =>
      have hmatch := hsteady henabled
      cases hresult : matchPublication env pszType pbPayload t.file.ctx with
      | noMatch =>
          have hstay : handleReceivedPublication env pszType pbPayload t.file = (t.file, none) := by
            simp [handleReceivedPublication, henabled, hresult]
          rw [hstay]
          exact ht.of_eq rfl rfl rfl
      | outOfMemory => simp [hresult, SteadyReceive] at hmatch
      | matched payload =>
          rw [hresult] at hmatch
          have hkept := deliverOrQueue_accounted ht.1 hwait hmatch
          have hcall : handleReceivedPublication env pszType pbPayload t.file =
              ((deliverOrQueue env payload t.file).1,
                some (payload, (deliverOrQueue env payload t.file).2)) := by
            simp [handleReceivedPublication, henabled, hresult]
          rw [hcall]
          refine ⟨hkept.1, hkept.1.1 ▸ hkept.1.2, ?_⟩
          intro arrival harrival
          simp only [FileRun.recordArrival, List.mem_append, List.mem_singleton] at harrival
          rcases harrival with hold | rfl
          · exact ht.2.2 arrival hold
          · exact hkept.2

theorem QueueAccounted.step (ht : QueueAccounted t) (hledger : Ledger .subscription t)
    (hwait : Waits t.file) (hsteady : Steady t a) (h : FileStepTo t a u) : QueueAccounted u := by
  cases h with
  | completeFailed => exact ht.of_eq rfl rfl rfl
  | onCancel =>
      exact ht.of_eq (completeRequest_dwQueueSize _ _ _ _) (completeRequest_queue _ _ _ _) rfl
  | inOpen _ hopen =>
      cases hopen with
      | getNextSubscribed hfresh hcall =>
          exact ht.getNextSubscribed hledger hsteady hfresh hcall
      | getNextTransmitted hfresh hcall =>
          rcases getNextTransmittedMessage_cases hcall with
            ⟨hstay, hhr⟩ | ⟨hrole, -, -, -⟩
          · exact ht.of_eq (by simp [handled, hstay]) (by simp [handled, hstay]) rfl
          · simp [hledger.role] at hrole
      | cancel => exact ht.of_eq rfl rfl rfl
      | disable =>
          rcases disable_cases t.file with ⟨-, hstay⟩ | ⟨hhr, hdone⟩
          · exact ht.of_eq (by simp [hstay]) (by simp [hstay]) rfl
          · refine ht.of_eq ?_ ?_ rfl
            · rw [hdone]
              exact completeRequest_dwQueueSize _ _ _ _
            · rw [hdone, hsteady hhr]
      | enable =>
          refine ht.of_eq ?_ ?_ rfl
          · unfold Nfp.enable
            dsimp only
            split <;> rfl
          · unfold Nfp.enable
            dsimp only
            split <;> rfl
      | receive => exact ht.receive hwait hsteady
      | messageTransmitted hrole | arrivalEvent hrole | removalEvent hrole =>
          simp [hledger.role] at hrole
      | closeFile => exact absurd hsteady id

/-- What a steady run keeps besides the account. -/
structure AccountedRun (t : FileRun) : Prop where
  ledger : Ledger .subscription t
  waits : Waits t.file
  account : QueueAccounted t

theorem accountedRun_create (pszType : Option (List WCHAR)) :
    AccountedRun (FileRun.create .subscription pszType) where
  ledger := ledger_create _ _
  waits := .inr rfl
  account := queueAccounted_create pszType

theorem AccountedRun.step (ht : AccountedRun t) (hsteady : Steady t a)
    (hstep : fileStep t a = some u) : AccountedRun u where
  ledger := ht.ledger.step (fileStepTo_of_fileStep hstep)
  waits := waits_step ht.ledger ht.waits (fileStepTo_of_fileStep hstep)
  account := ht.account.step ht.ledger ht.waits hsteady (fileStepTo_of_fileStep hstep)

/-! ## The condition is exact -/

theorem Attempt.inVain (h : Attempt payload request s result)
    (hcancel : request.id ∈ s.fx.cancelled) (hfit : Fits payload request) : result.2 = false ∧
      result.1.ctx.dwQueueSize = s.ctx.dwQueueSize - 1 := by
  cases h with
  | noMemory hmem => simp [Fits, IWDFIoRequest.outputBuffer, hmem] at hfit
  | cancelled _ _ _ _ hsize => simp [written, hsize, hfit]
  | shortBuffer _ hfresh => exact absurd hcancel hfresh
  | delivered _ hfresh => exact absurd hcancel hfresh

theorem deliverHead_not_accounted (hs : Accounted s) (hpend : s.ctx.pWdfRequest = some request)
    (hcancel : request.id ∈ s.fx.cancelled) (hhead : payload ∈ s.ctx.subscribedMessageQueue.head?)
    (hfit : Fits payload request) : ¬ Accounted (deliverHead s) := by
  obtain ⟨rest, hqueue⟩ := List.head?_eq_some_iff.mp hhead
  have hattempt := completeOne_attempt payload hpend
  have hlinked := hattempt.queue
  obtain ⟨hnot, hsize⟩ := hattempt.inVain hcancel hfit
  have hexact := hs.1
  rw [hqueue] at hlinked hexact
  simp only [List.length_cons] at hexact
  rw [deliverHead_of_cons hqueue]
  simp only [hnot, Bool.false_eq_true, if_false, Accounted, hsize, hlinked, List.length_cons]
  omega

theorem enqueue_gap (env : ReceiveEnv) (payload : List UInt8) (s : FileState) :
    (enqueue env payload s).1.ctx.dwQueueSize + s.ctx.subscribedMessageQueue.length =
      (enqueue env payload s).1.ctx.subscribedMessageQueue.length + s.ctx.dwQueueSize := by
  unfold enqueue
  split
  case isFalse => exact Nat.add_comm _ _
  case isTrue =>
    split
    case isFalse => exact Nat.add_comm _ _
    case isTrue =>
      simp only [List.length_append, List.length_singleton]
      omega

/-- A publication after which the counter is exact and which was not dropped
for want of memory was received steadily. -/
theorem steadyReceive_of_accounted (hs : Accounted s)
    (hafter : Accounted (deliverOrQueue env payload s).1)
    (houtcome : (deliverOrQueue env payload s).2 ≠ .outOfMemory) :
    SteadyReceive env s (.matched payload) := by
  constructor
  · rintro ⟨request, hpend, hcancel, hfit⟩
    have hattempt := offerPended_of_some payload hpend
    have hlinked := hattempt.queue
    obtain ⟨hnot, hsize⟩ := hattempt.inVain hcancel hfit
    have hgap := enqueue_gap env payload (offerPended payload s).1
    simp only [deliverOrQueue, hnot, Bool.false_eq_true, if_false] at hafter
    have hexact := hafter.1
    have hbefore := hs.1
    rw [hlinked] at hgap
    omega
  · by_contra hnone
    simp only [not_or, Bool.not_eq_true, Nat.not_le] at hnone
    obtain ⟨hdeliver, hroom, hmemory⟩ := hnone
    apply houtcome
    have hnot : (offerPended payload s).2 = false ∧
        (offerPended payload s).1.ctx.dwQueueSize ≤ s.ctx.dwQueueSize := by
      cases hpend : s.ctx.pWdfRequest with
      | none => simp [offerPended_of_none payload hpend]
      | some request =>
          have hattempt := offerPended_of_some payload hpend
          have hrefused := mt hattempt.delivered_iff.mp fun h => hdeliver ⟨request, hpend, h⟩
          refine ⟨by simpa using hrefused, ?_⟩
          by_cases hvain : request.id ∈ s.fx.cancelled ∧ Fits payload request
          · have hsize := (hattempt.inVain hvain.1 hvain.2).2
            omega
          · have hsize := hattempt.dwQueueSize fun hcancel hfit => absurd ⟨hcancel, hfit⟩ hvain
            rw [if_neg hrefused] at hsize
            omega
    have hroom' : (offerPended payload s).1.ctx.dwQueueSize < maxMessageQueueSize := by
      omega
    simp [deliverOrQueue, hnot.1, enqueue, hroom', hmemory]

theorem steady_of_queueAccounted (hledger : Ledger .subscription t) (ht : QueueAccounted t)
    (hopen : a ≠ .closeFile) (h : fileStep t a = some u)
    (hu : QueueAccounted u) : Steady t a := by
  have hstep := fileStepTo_of_fileStep h
  cases hstep with
  | completeFailed => trivial
  | onCancel => trivial
  | inOpen _ hstep =>
      cases hstep with
      | @getNextSubscribed timing request result hfresh hcall =>
          cases timing with
          | never => trivial
          | before => trivial
          | during =>
              rintro ⟨hidle, henabled, hinput⟩ payload hhead hfit
              have hdeliver : deliverFor t.file.ctx.role = some deliverHead := by
                rw [hledger.role]
                rfl
              rw [getNextSubscribedMessage_of_pends hidle henabled hinput
                hdeliver, Option.some.injEq] at hcall
              subst hcall
              rw [handled_sOk, pendAndDeliver_during] at hu
              have hpended : Accounted
                  (pend request
                    { t.file with fx := t.file.fx.cancel request.id }) :=
                ht.1
              exact deliverHead_not_accounted hpended rfl
                (List.mem_cons_self ..) hhead hfit hu.1
      | getNextTransmitted | cancel | enable | messageTransmitted | arrivalEvent | removalEvent =>
          trivial
      | disable =>
          intro hhr
          rcases disable_cases t.file with ⟨hfail, -⟩ | ⟨-, hdone⟩
          · simp [hhr] at hfail
          · have hexact := hu.1.1
            rw [hdone] at hexact
            simp only [completeRequest_dwQueueSize] at hexact
            rw [ht.1.1] at hexact
            exact List.eq_nil_of_length_eq_zero hexact
      | @receive env pszType pbPayload =>
          intro henabled
          cases hresult : matchPublication env pszType pbPayload t.file.ctx with
          | noMatch => trivial
          | outOfMemory =>
              have hlast := hu.2.2
                { payload := pbPayload, outcome := .outOfMemory,
                  disablesBefore := t.disables,
                  dwQueueSize := t.file.ctx.dwQueueSize,
                  queueLength := t.file.ctx.subscribedMessageQueue.length }
                (by simp [FileRun.recordArrival, handleReceivedPublication,
                  henabled, hresult])
              simp [Arrival.Justified] at hlast
          | matched payload =>
              have hcall : handleReceivedPublication env pszType pbPayload
                  t.file =
                  ((deliverOrQueue env payload t.file).1,
                    some (payload, (deliverOrQueue env payload t.file).2)) := by
                simp [handleReceivedPublication, henabled, hresult]
              rw [hcall] at hu
              refine steadyReceive_of_accounted ht.1 hu.1 ?_
              intro hmemory
              have hlast := hu.2.2 _
                (List.mem_append_right _ (List.mem_singleton_self _))
              simp [Arrival.Justified, hmemory] at hlast
      | closeFile => exact absurd rfl hopen

/-- A run on an open subscription keeps the account at every step exactly when
all its steps are steady. -/
theorem steady_run_iff {pszType : Option (List WCHAR)} {as : List FileAction} :
    RunsTo fileStep Steady (FileRun.create .subscription pszType) as t ↔ RunsTo fileStep
        (fun s a => StaysOpen s a ∧ ∀ u, fileStep s a = some u → QueueAccounted u)
        (FileRun.create .subscription pszType) as t := by
  constructor
  · intro hrun
    refine hrun.mono_of_invariant AccountedRun (accountedRun_create pszType) ?_
    intro t a u ht hsteady hstep
    refine ⟨ht.step hsteady hstep, ?_, ?_⟩
    · rintro rfl
      exact hsteady
    · intro u' hstep'
      exact (ht.step hsteady hstep').account
  · intro hrun
    refine hrun.mono_of_invariant AccountedRun (accountedRun_create pszType) ?_
    rintro t a u ht ⟨hopen, hkeep⟩ hstep
    have hsteady := steady_of_queueAccounted ht.ledger ht.account hopen hstep (hkeep u hstep)
    exact ⟨ht.step hsteady hstep, hsteady⟩

/-- In every run of a subscription whose steps are all steady the size counter
is the number of linked messages, the queue stays within its maximum, and a
matching publication is dropped only when the queue is full. -/
theorem queue_accounted_of_steady_run
    {pszType : Option (List WCHAR)} {as : List FileAction} {t : FileRun}
    (hrun : RunsTo fileStep Steady (FileRun.create .subscription pszType)
      as t) :
    QueueAccounted t :=
  (hrun.invariant AccountedRun (accountedRun_create pszType)
    fun _ _ _ ht hsteady hstep => ht.step hsteady hstep).account

/-- A subscription to the type `A` that answers a waiting request, queues the
next publication and delivers it. -/
theorem queue_accounted_of_steady_run_delivery :
    ∃ t, RunsTo fileStep Steady (FileRun.create .subscription (some [65]))
        [.getNextSubscribed .never (readRequest 1 8),
         .receive ⟨none, true, true, true⟩ [65] [7],
         .receive ⟨none, true, true, true⟩ [65] [8],
         .getNextSubscribed .never (readRequest 2 8)] t ∧
      QueueAccounted t :=
  have hrun := RunsTo.of_isSome (by decide)
  ⟨_, hrun, queue_accounted_of_steady_run hrun⟩

/-- One message is queued and `Disable` purges it: the counter stays at one. -/
theorem disable_breaks_queue_account :
    ∃ t, RunsTo fileStep StaysOpen
        (FileRun.create .subscription (some [65]))
        [.receive ⟨none, true, true, true⟩ [65] [7], .disable] t ∧
      t.file.ctx.dwQueueSize = 1 ∧
      t.file.ctx.subscribedMessageQueue = [] ∧ ¬ QueueAccounted t :=
  have hrun := RunsTo.of_isSome (by decide)
  ⟨_, hrun, by decide, by decide, fun h => absurd h.1.1 (by decide)⟩

end MiscProjects.Nfp
