import MiscProjects.Library.Mailbox
import MiscProjects.Nfp.Subscription

/-!
# First-in first-out delivery of publications

A subscription is a mailbox whose items are the matching publications received
while it was enabled.  `Explains t log` says that `log` is a mailbox log for the
state `t`: the items handed over are the payloads of the requests completed with
success, the waiting items are the messages linked in the queue, and every other
publication was purged by a later `Disable`, rejected because the queue-size
test failed on its arrival, or lost because its copy could not be allocated.
Every run of a subscription has such a log.
-/

namespace MiscProjects.Nfp

open MiscProjects.Runs MiscProjects.Mailbox

/-- The payloads of the requests completed with success, in order; the client
finds them behind the four-byte size hint. -/
def successPayloads (fx : Framework) : List (List UInt8) :=
  fx.completions.filterMap fun completion =>
    if succeeded completion.hr then some (completion.output.drop 4) else none

/-- Why a publication was not delivered. -/
inductive Reason
  | purged
  | queueFull
  | outOfMemory
deriving DecidableEq

/-- When an arrival may have been dropped for a reason, `disables` calls of
`Disable` having succeeded so far. -/
def Arrival.Excused (disables : ℕ) (arrival : Arrival) : Fate Reason → Prop
  | .delivered => True
  | .waiting => True
  | .dropped .purged => arrival.disablesBefore < disables
  | .dropped .queueFull =>
      arrival.outcome = .queueFull ∧
        maxMessageQueueSize ≤ arrival.dwQueueSize
  | .dropped .outOfMemory => arrival.outcome = .outOfMemory

/-- `log` accounts for every publication that the subscription has received. -/
structure Explains (t : FileRun) (log : Log Arrival Reason) : Prop where
  arrivals : log.map Prod.fst = t.arrivals
  delivered : (delivered log).map (·.payload) = successPayloads t.file.fx
  waiting : (waiting log).map (·.payload) =
    t.file.ctx.subscribedMessageQueue
  ordered : Ordered log
  excused : ∀ entry ∈ log, entry.1.Excused t.disables entry.2
  before : ∀ arrival ∈ t.arrivals, arrival.disablesBefore ≤ t.disables

/-! ## Completions -/

theorem successPayloads_completeWithInformation
    (request : IWDFIoRequest) (hr : HRESULT) (cbSize : ℕ) (fx : Framework) :
    successPayloads (fx.completeWithInformation request hr cbSize) = successPayloads fx ++
        if succeeded hr then [(request.outputBuffer.take cbSize).drop 4]
        else [] := by
  cases hhr : succeeded hr <;>
    simp [successPayloads, Framework.completeWithInformation, hhr]

theorem completeRequest_successPayloads {hr : HRESULT} (hhr : succeeded hr = false) (cbSize : ℕ)
    (fIsCancelable : Bool) (s : FileState) :
    successPayloads (completeRequest hr cbSize fIsCancelable s).1.fx = successPayloads s.fx := by
  unfold completeRequest
  split
  case h_1 => rfl
  case h_2 =>
    split
    case isTrue => rfl
    case isFalse =>
      simp [successPayloads_completeWithInformation, hhr]

variable {t u : FileRun} {request : IWDFIoRequest} {s : FileState} {log : Log Arrival Reason}

theorem Attempt.successPayloads {payload : List UInt8} {result : FileState × Bool}
    (h : Attempt payload request s result) : Nfp.successPayloads result.1.fx =
      Nfp.successPayloads s.fx ++ if result.2 then [payload] else [] := by
  cases h with
  | noMemory => simp
  | cancelled => simp [written]
  | shortBuffer _ _ _ _ hhr =>
      simp [completed, successPayloads_completeWithInformation, hhr]
  | delivered _ _ _ _ htake =>
      simp [completed, written, successPayloads_completeWithInformation, htake, List.drop_append]

/-! ## Logs of the single steps -/

theorem explains_create (pszType : Option (List WCHAR)) :
    Explains (FileRun.create .subscription pszType) [] where
  arrivals := rfl
  delivered := rfl
  waiting := rfl
  ordered := List.Pairwise.nil
  excused := by simp
  before := by simp [FileRun.create]

theorem Explains.of_eq (h : Explains t log)
    (hsuccess : Nfp.successPayloads u.file.fx = Nfp.successPayloads t.file.fx)
    (hqueue : u.file.ctx.subscribedMessageQueue = t.file.ctx.subscribedMessageQueue)
    (harrivals : u.arrivals = t.arrivals) (hdisables : u.disables = t.disables) :
    Explains u log where
  arrivals := h.arrivals.trans harrivals.symm
  delivered := h.delivered.trans hsuccess.symm
  waiting := h.waiting.trans hqueue.symm
  ordered := h.ordered
  excused := hdisables ▸ h.excused
  before := by
    rw [harrivals, hdisables]
    exact h.before

/-- Offering the head of the queue to the pended request hands over the oldest
waiting item or changes nothing. -/
theorem Explains.deliverHead (h : Explains t log) (hpend : t.file.ctx.pWdfRequest = some request) :
    ∃ log', Explains { t with file := Nfp.deliverHead t.file } log' := by
  cases hqueue : t.file.ctx.subscribedMessageQueue with
  | nil =>
      rw [deliverHead_of_nil hqueue]
      exact ⟨log, h⟩
  | cons payload rest =>
      have hattempt := completeOne_attempt payload hpend
      have hlinked := hattempt.queue
      have hsuccess := hattempt.successPayloads
      rw [deliverHead_of_cons hqueue]
      dsimp only
      split
      case isFalse hdone =>
        rw [if_neg hdone, List.append_nil] at hsuccess
        exact ⟨log, h.of_eq hsuccess hlinked rfl rfl⟩
      case isTrue hdone =>
        rw [if_pos hdone] at hsuccess
        have hwaiting := h.waiting
        rw [hqueue] at hwaiting
        obtain ⟨oldest, younger, hlog, holdest, hyounger⟩ := List.map_eq_cons_iff.mp hwaiting
        refine ⟨deliverFirst log, ?_, ?_, ?_, h.ordered.deliverFirst, ?_, h.before⟩
        · rw [map_fst_deliverFirst]
          exact h.arrivals
        · rw [delivered_deliverFirst h.ordered hlog, hsuccess,
            List.map_append, h.delivered, List.map_singleton, holdest]
        · rw [waiting_deliverFirst, hlog, hlinked, hqueue]
          simpa using hyounger
        · intro entry hentry
          rcases mem_deliverFirst hentry with hold | ⟨hfate, hold⟩
          · exact h.excused entry hold
          · rw [hfate]
            trivial

/-- The four outcomes of a matching publication, as seen in the completions and
in the queue. -/
theorem deliverOrQueue_outcomes (hwait : Waits s) (env : ReceiveEnv) (payload : List UInt8) :
    let after := deliverOrQueue env payload s
    let success := successPayloads s.fx
    let queue := s.ctx.subscribedMessageQueue
    (after.2 = .delivered ∧ queue = [] ∧
        after.1.ctx.subscribedMessageQueue = [] ∧
        successPayloads after.1.fx = success ++ [payload]) ∨
      (successPayloads after.1.fx = success ∧
        ((after.2 = .queued ∧
            after.1.ctx.subscribedMessageQueue = queue ++ [payload]) ∨
          (after.2 = .queueFull ∧
            after.1.ctx.subscribedMessageQueue = queue ∧
            maxMessageQueueSize ≤ after.1.ctx.dwQueueSize) ∨
          (after.2 = .outOfMemory ∧
            after.1.ctx.subscribedMessageQueue = queue))) := by
  have hoffer : (offerPended payload s).1.ctx.subscribedMessageQueue =
        s.ctx.subscribedMessageQueue ∧
      successPayloads (offerPended payload s).1.fx =
        successPayloads s.fx ++
          (if (offerPended payload s).2 then [payload] else []) ∧
      ((offerPended payload s).2 = true →
        s.ctx.subscribedMessageQueue = []) := by
    cases hpend : s.ctx.pWdfRequest with
    | none => simp [offerPended_of_none payload hpend]
    | some request =>
        have hattempt := offerPended_of_some payload hpend
        refine ⟨hattempt.queue, hattempt.successPayloads, ?_⟩
        intro hdone
        rcases hwait with hwait | hempty
        · exact absurd hdone (hattempt.not_delivered hpend hwait)
        · exact hempty
  obtain ⟨hqueue, hsuccess, hempty⟩ := hoffer
  dsimp only
  cases hdone : (offerPended payload s).2 with
  | true =>
      rw [hdone, if_pos rfl] at hsuccess
      left
      simp only [deliverOrQueue, hdone, if_true]
      exact ⟨trivial, hempty hdone, hqueue.trans (hempty hdone), hsuccess⟩
  | false =>
      rw [hdone, if_neg (by simp), List.append_nil] at hsuccess
      right
      simp only [deliverOrQueue, hdone, Bool.false_eq_true, if_false, enqueue]
      split
      case isFalse hfull =>
        exact ⟨hsuccess, .inr (.inl ⟨rfl, hqueue, Nat.le_of_not_lt hfull⟩)⟩
      case isTrue =>
        split
        case isTrue => exact ⟨hsuccess, .inl ⟨rfl, by rw [hqueue]⟩⟩
        case isFalse => exact ⟨hsuccess, .inr (.inr ⟨rfl, hqueue⟩)⟩

theorem Explains.arrive (h : Explains t log) {arrival : Arrival} (fate : Fate Reason)
    (harrivals : u.arrivals = t.arrivals ++ [arrival]) (hdisables : u.disables = t.disables)
    (hbefore : arrival.disablesBefore = t.disables) (hsuccess : Nfp.successPayloads u.file.fx =
      Nfp.successPayloads t.file.fx ++
        if fate.isDelivered then [arrival.payload] else [])
    (hqueue : u.file.ctx.subscribedMessageQueue = t.file.ctx.subscribedMessageQueue ++
        if fate.isWaiting then [arrival.payload] else [])
    (hordered : Ordered (log ++ [(arrival, fate)])) (hexcused : arrival.Excused t.disables fate) :
    Explains u (log ++ [(arrival, fate)]) where
  arrivals := by simp [h.arrivals, harrivals]
  delivered := by
    rw [hsuccess, ← h.delivered]
    cases fate <;> simp
  waiting := by
    rw [hqueue, ← h.waiting]
    cases fate <;> simp
  ordered := hordered
  excused := by
    intro entry hentry
    rw [hdisables]
    rcases List.mem_append.mp hentry with hold | hnew
    · exact h.excused entry hold
    · rw [List.mem_singleton.mp hnew]
      exact hexcused
  before := by
    intro other hother
    rw [harrivals] at hother
    rw [hdisables]
    rcases List.mem_append.mp hother with hold | hnew
    · exact h.before other hold
    · rw [List.mem_singleton.mp hnew]
      exact Nat.le_of_eq hbefore

theorem Explains.receive (h : Explains t log) (hwait : Waits t.file) (env : ReceiveEnv)
    (pszType : List WCHAR) (pbPayload : List UInt8) : ∃ log', Explains (t.recordArrival
        (handleReceivedPublication env pszType pbPayload t.file)) log' := by
  cases henabled : t.file.ctx.fEnabled with
  | false =>
      have hstay : handleReceivedPublication env pszType pbPayload t.file = (t.file, none) := by
        simp [handleReceivedPublication, henabled]
      rw [hstay]
      exact ⟨log, h.of_eq rfl rfl rfl rfl⟩
  | true =>
      cases hresult : matchPublication env pszType pbPayload t.file.ctx with
      | noMatch =>
          have hstay : handleReceivedPublication env pszType pbPayload t.file = (t.file, none) := by
            simp [handleReceivedPublication, henabled, hresult]
          rw [hstay]
          exact ⟨log, h.of_eq rfl rfl rfl rfl⟩
      | outOfMemory =>
          have hcall : handleReceivedPublication env pszType pbPayload t.file =
              (t.file, some (pbPayload, .outOfMemory)) := by
            simp [handleReceivedPublication, henabled, hresult]
          rw [hcall]
          exact ⟨_, h.arrive (.dropped .outOfMemory) rfl rfl rfl
            (List.append_nil _).symm (List.append_nil _).symm (h.ordered.arrive (by simp)) rfl⟩
      | matched payload =>
          have hcall : handleReceivedPublication env pszType pbPayload t.file =
              ((deliverOrQueue env payload t.file).1,
                some (payload, (deliverOrQueue env payload t.file).2)) := by
            simp [handleReceivedPublication, henabled, hresult]
          rw [hcall]
          rcases deliverOrQueue_outcomes hwait env payload with
            ⟨houtcome, hempty, hqueue, hsuccess⟩ |
            ⟨hsuccess, ⟨houtcome, hqueue⟩ | ⟨houtcome, hqueue, hfull⟩ | ⟨houtcome, hqueue⟩⟩
          · have hnone : Mailbox.waiting log = [] := by
              have hwaiting := h.waiting
              rw [hempty] at hwaiting
              exact List.map_eq_nil_iff.mp hwaiting
            rw [← List.append_nil t.file.ctx.subscribedMessageQueue] at hempty
            exact ⟨_, h.arrive .delivered rfl rfl rfl hsuccess
              (hqueue.trans hempty.symm) (h.ordered.arrive_delivered hnone _) trivial⟩
          · rw [← List.append_nil (Nfp.successPayloads t.file.fx)] at hsuccess
            exact ⟨_, h.arrive .waiting rfl rfl rfl hsuccess hqueue
              (h.ordered.arrive (by simp)) trivial⟩
          · rw [← List.append_nil (Nfp.successPayloads t.file.fx)] at hsuccess
            rw [← List.append_nil t.file.ctx.subscribedMessageQueue] at hqueue
            exact ⟨_, h.arrive (.dropped .queueFull) rfl rfl rfl hsuccess hqueue
              (h.ordered.arrive (by simp)) ⟨houtcome, hfull⟩⟩
          · rw [← List.append_nil (Nfp.successPayloads t.file.fx)] at hsuccess
            rw [← List.append_nil t.file.ctx.subscribedMessageQueue] at hqueue
            exact ⟨_, h.arrive (.dropped .outOfMemory) rfl rfl rfl hsuccess
              hqueue (h.ordered.arrive (by simp)) houtcome⟩

theorem Explains.disable (h : Explains t log) : ∃ log', Explains { t with
        file := (Nfp.disable t.file).1, disables :=
          if succeeded (Nfp.disable t.file).2 then t.disables + 1
          else t.disables } log' := by
  rcases disable_cases t.file with ⟨hhr, hstay⟩ | ⟨hhr, hdone⟩
  · exact ⟨log, h.of_eq (by simp [hstay]) (by simp [hstay]) rfl (by simp [hstay, hhr])⟩
  · refine ⟨dropWaiting .purged log, ?_, ?_, ?_, ordered_dropWaiting _ _, ?_, ?_⟩
    · rw [map_fst_dropWaiting]
      exact h.arrivals
    · have hsame := completeRequest_successPayloads succeeded_statusCancelled 0 true
        { t.file with ctx := { t.file.ctx with fEnabled := false } }
      rw [delivered_dropWaiting, h.delivered, hdone]
      exact hsame.symm
    · rw [hdone, waiting_dropWaiting]
      rfl
    · intro entry hentry
      simp only [hdone, hhr, if_true]
      rcases mem_dropWaiting hentry with hold | ⟨hfate, hold⟩
      · have hexcused := h.excused entry hold
        obtain ⟨arrival, fate⟩ := entry
        cases fate with
        | delivered => exact hexcused
        | waiting => exact hexcused
        | dropped reason =>
            cases reason with
            | purged => exact Nat.lt_succ_of_lt hexcused
            | queueFull => exact hexcused
            | outOfMemory => exact hexcused
      · have hmem : entry.1 ∈ t.arrivals := by
          rw [← h.arrivals]
          exact List.mem_map.mpr ⟨_, hold, rfl⟩
        rw [hfate]
        exact Nat.lt_succ_of_le (h.before _ hmem)
    · intro arrival harrival
      simp only [hdone, hhr, if_true]
      exact Nat.le_succ_of_le (h.before arrival harrival)

/-! ## Runs -/

theorem Explains.step {a : FileAction} (h : Explains t log) (hledger : Ledger .subscription t)
    (hwait : Waits t.file) (hopen : StaysOpen t a) (hstep : FileStepTo t a u) :
    ∃ log', Explains u log' := by
  cases hstep with
  | completeFailed hmem =>
      have hhr := hledger.returned _ hmem
      refine ⟨log, h.of_eq ?_ rfl rfl rfl⟩
      simp only at hhr
      simp [Nfp.successPayloads, Framework.complete, hhr]
  | onCancel =>
      exact ⟨log, h.of_eq (completeRequest_successPayloads (by simp) _ _ _)
        (completeRequest_queue _ _ _ _) rfl rfl⟩
  | inOpen _ hstep =>
      cases hstep with
      | @getNextSubscribed timing request result hfresh hcall =>
          rcases getNextSubscribedMessage_cases hcall with
            ⟨hstay, hhr⟩ | ⟨deliver, hdeliver, hidle, -, -, rfl⟩
          · exact ⟨log, h.of_eq (by simp [handled, hstay]) (by simp [handled, hstay]) rfl rfl⟩
          · rw [getNextSubscribed_pended hledger rfl hdeliver, handled_sOk]
            cases timing with
            | never =>
                have hpended : Explains { t with
                      file := pend request t.file,
                      presented := request.id :: t.presented } log :=
                  h.of_eq rfl rfl rfl rfl
                rw [pendAndDeliver_never]
                exact hpended.deliverHead rfl
            | before =>
                refine ⟨log, h.of_eq ?_ ?_ rfl rfl⟩
                · simp [completed, Nfp.successPayloads, Framework.completeWithInformation,
                    Framework.cancelledEarly]
                · simp [completed]
            | during =>
                have hpended : Explains { t with
                      file := pend request { t.file with fx := t.file.fx.cancel request.id },
                      presented := request.id :: t.presented } log :=
                  h.of_eq rfl rfl rfl rfl
                rw [pendAndDeliver_during]
                exact hpended.deliverHead rfl
      | getNextTransmitted hfresh hcall =>
          rcases getNextTransmittedMessage_cases hcall with
            ⟨hstay, hhr⟩ | ⟨hrole, -, -, -⟩
          · exact ⟨log, h.of_eq (by simp [handled, hstay]) (by simp [handled, hstay]) rfl rfl⟩
          · simp [hledger.role] at hrole
      | cancel => exact ⟨log, h.of_eq rfl rfl rfl rfl⟩
      | disable => exact h.disable
      | enable =>
          refine ⟨log, h.of_eq ?_ ?_ rfl rfl⟩
          · unfold Nfp.enable
            dsimp only
            split <;> rfl
          · unfold Nfp.enable
            dsimp only
            split <;> rfl
      | receive => exact h.receive hwait _ _ _
      | messageTransmitted hrole | arrivalEvent hrole | removalEvent hrole =>
          simp [hledger.role] at hrole
      | closeFile => exact absurd rfl hopen

end MiscProjects.Nfp
