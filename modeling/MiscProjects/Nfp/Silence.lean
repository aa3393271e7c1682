import MiscProjects.Nfp.Publishing

/-!
# Disabled publications

`ConnectionEstablished` asks every publication whether it is enabled before it transmits its
message.  `IOCTL_NFP_SET_PAYLOAD` does not: a publication that is disabled when its payload is
set is transmitted over every connection in the list, and credited for it.

One step is one operation.  The log of the messages records whether the publication was enabled
when its message was transmitted.
-/

namespace MiscProjects.Nfp.Silence

open Function (update)
open Runs

/-- A `TransmitMessage` that has succeeded; `fEnabled` is the member of the publication at that
time. -/
structure Transmission where
  publication : ℕ
  connection : ℕ
  message : Message
  fEnabled : Bool
deriving DecidableEq

/-- The parts of `CMyQueue` that a publication depends on, and the messages transmitted so far. -/
structure Queue where
  contexts : ℕ → FileState
  pubsHead : List ℕ
  connectionHead : List ℕ
  sent : List Transmission

/-- Every handle is a publication of the given type. -/
def Queue.create (pszType : ℕ → List WCHAR) : Queue where
  contexts := fun p => .create .publication (some (pszType p))
  pubsHead := []
  connectionHead := []
  sent := []

namespace Queue

def setContext (p : ℕ) (s : FileState) (q : Queue) : Queue :=
  { q with contexts := update q.contexts p s }

/-- `TransmitMessage` with this result, and `HandleMessageTransmitted` if it succeeds. -/
def transmit (p c : ℕ) (hr : HRESULT) (q : Queue) : Queue :=
  if succeeded hr then
    { q.setContext p (handleMessageTransmitted (q.contexts p)) with
      sent := q.sent ++
        [⟨p, c, .initialized (q.contexts p).ctx, (q.contexts p).ctx.fEnabled⟩] }
  else q

/-- `IOCTL_NFP_SET_PAYLOAD` after `SetPayload` has succeeded. -/
def publish (p : ℕ) (newMessage : Bool) (transmitMessage : ℕ → HRESULT) (q : Queue) : Queue :=
  if newMessage then
    let walked := q.connectionHead.foldl (fun q c => q.transmit p c (transmitMessage c)) q
    { walked with pubsHead := p :: walked.pubsHead }
  else q

def connectionEstablished (c : ℕ) (newMessage : Bool) (transmitMessage : ℕ → HRESULT)
    (q : Queue) : Queue :=
  let joined := { q with connectionHead := c :: q.connectionHead }
  if newMessage then
    joined.pubsHead.foldl (fun q p =>
      if (q.contexts p).ctx.fEnabled then q.transmit p c (transmitMessage p) else q) joined
  else joined

end Queue

/-- The operations, with what the environment answers: whether the allocations succeed, and the
result of `TransmitMessage` for each connection or publication.  A connection may leave the list
at any time. -/
inductive Operation
  | disable (p : ℕ)
  | enable (p : ℕ)
  | setPayload (p : ℕ) (newPayload newMessage : Bool) (request : IWDFIoRequest)
      (transmitMessage : ℕ → HRESULT)
  | connectionEstablished (c : ℕ) (newMessage : Bool) (transmitMessage : ℕ → HRESULT)
  | connectionTerminated (c : ℕ)

def step (q : Queue) : Operation → Option Queue
  | .disable p => some (q.setContext p (disable (q.contexts p)).1)
  | .enable p => some (q.setContext p (enable (q.contexts p)).1)
  | .setPayload p newPayload newMessage request transmitMessage =>
      (setPayload newPayload request (q.contexts p)).map fun set =>
        let q := q.setContext p set.1
        if succeeded set.2 then q.publish p newMessage transmitMessage else q
  | .connectionEstablished c newMessage transmitMessage =>
      some (q.connectionEstablished c newMessage transmitMessage)
  | .connectionTerminated c => some { q with connectionHead := q.connectionHead.erase c }

/-- All messages have been transmitted while their publication was enabled, and no publication
has been credited with more than these. -/
structure Silent (q : Queue) : Prop where
  sent : ∀ sent ∈ q.sent, sent.fEnabled = true
  credits : ∀ p, (q.contexts p).ctx.cCompleteReady =
    q.sent.countP fun sent => sent.publication = p ∧ sent.fEnabled = true

/-- If the payload of a disabled publication is accepted, there is no message to send it with, or
no connection in the list that takes it. -/
def Operation.Respects (q : Queue) : Operation → Prop
  | .setPayload p newPayload newMessage request transmitMessage =>
      (q.contexts p).ctx.fEnabled = false →
        (∃ payload, PayloadAccepted newPayload request (q.contexts p).ctx payload) →
          newMessage = true →
            ∀ c ∈ q.connectionHead, succeeded (transmitMessage c) = false
  | _ => True

/-! ## What a walk transmits -/

section Walks
variable {q q' q'' : Queue} {more more' : List Transmission} {p c : ℕ}

/-- No publication has a request pended, and its credits are the messages transmitted. -/
structure Inv (q : Queue) : Prop where
  pending : ∀ p, (q.contexts p).ctx.pWdfRequest = none
  credits : ∀ p, (q.contexts p).ctx.cCompleteReady = q.sent.countP fun sent => sent.publication = p

/-- The messages `more` have been transmitted between the two states. -/
structure Sends (q q' : Queue) (more : List Transmission) : Prop where
  inv : Inv q'
  pubsHead : q'.pubsHead = q.pubsHead
  fEnabled : ∀ p, (q'.contexts p).ctx.fEnabled = (q.contexts p).ctx.fEnabled
  sent : q'.sent = q.sent ++ more

theorem Sends.refl (h : Inv q) : Sends q q [] := ⟨h, rfl, fun _ => rfl, by simp⟩

theorem Sends.trans (h : Sends q q' more) (h' : Sends q' q'' more') :
    Sends q q'' (more ++ more') where
  inv := h'.inv
  pubsHead := h'.pubsHead.trans h.pubsHead
  fEnabled p := (h'.fEnabled p).trans (h.fEnabled p)
  sent := by rw [h'.sent, h.sent, List.append_assoc]

/-- What a transmission adds to the log. -/
def added (q : Queue) (p c : ℕ) (hr : HRESULT) : List Transmission :=
  if succeeded hr then
    [⟨p, c, .initialized (q.contexts p).ctx, (q.contexts p).ctx.fEnabled⟩]
  else []

theorem transmit_sends (h : Inv q) (p c : ℕ) (hr : HRESULT) :
    Sends q (q.transmit p c hr) (added q p c hr) := by
  by_cases hok : succeeded hr = true
  · have hcredit : handleMessageTransmitted (q.contexts p) = addCredit (q.contexts p) := by
      simp [handleMessageTransmitted, completeRequest_of_none (h.pending p)]
    rw [Queue.transmit, added, if_pos hok, if_pos hok, hcredit]
    refine ⟨⟨?_, ?_⟩, rfl, ?_, rfl⟩
    · intro p'
      by_cases hp : p' = p
      · subst hp
        simp [Queue.setContext, addCredit, h.pending]
      · simp [Queue.setContext, hp, h.pending]
    · intro p'
      have hold := h.credits p'
      by_cases hp : p' = p
      · subst hp
        simp [Queue.setContext, addCredit, List.countP_append, hold]
      · have hp' : p ≠ p' := fun heq => hp heq.symm
        simp [Queue.setContext, hp, hp', List.countP_append, hold]
    · intro p'
      by_cases hp : p' = p
      · subst hp
        simp [Queue.setContext, addCredit]
      · simp [Queue.setContext, hp]
  · rw [Queue.transmit, added, if_neg hok, if_neg hok]
    exact .refl h

/-- A publication is transmitted over the connections that take it, with its flag of before the
walk. -/
theorem walkConnections_sends (p : ℕ) (transmitMessage : ℕ → HRESULT) (connections : List ℕ)
    (h : Inv q) :
    ∃ more, Sends q (connections.foldl (fun q c => q.transmit p c (transmitMessage c)) q) more ∧
      (∀ sent ∈ more, sent.fEnabled = (q.contexts p).ctx.fEnabled) ∧
        (more = [] ↔ ∀ c ∈ connections, succeeded (transmitMessage c) = false) := by
  induction connections generalizing q with
  | nil => exact ⟨[], .refl h, by simp, by simp⟩
  | cons c connections ih =>
      have hone := transmit_sends h p c (transmitMessage c)
      obtain ⟨more, hrest, hflags, hnone⟩ := ih hone.inv
      refine ⟨_, hone.trans hrest, ?_, ?_⟩
      · intro sent hsent
        rcases List.mem_append.mp hsent with hnow | hlater
        · rw [added] at hnow
          split at hnow
          case isTrue => rw [List.mem_singleton.mp hnow]
          case isFalse => cases hnow
        · rw [hflags sent hlater, hone.fEnabled]
      · rw [List.append_eq_nil_iff, hnone, List.forall_mem_cons]
        by_cases hok : succeeded (transmitMessage c) = true
        · simp [added, hok]
        · simp [added, hok]

theorem walkPublications_sends (c : ℕ) (transmitMessage : ℕ → HRESULT) (publications : List ℕ)
    (h : Inv q) : ∃ more, Sends q (publications.foldl (fun q p =>
        if (q.contexts p).ctx.fEnabled then q.transmit p c (transmitMessage p) else q) q) more ∧
      ∀ sent ∈ more, sent.fEnabled = true := by
  induction publications generalizing q with
  | nil => exact ⟨[], .refl h, by simp⟩
  | cons p publications ih =>
      rw [List.foldl_cons]
      by_cases henabled : (q.contexts p).ctx.fEnabled = true
      · rw [if_pos henabled]
        have hone := transmit_sends h p c (transmitMessage p)
        obtain ⟨more, hrest, hflags⟩ := ih hone.inv
        refine ⟨_, hone.trans hrest, ?_⟩
        intro sent hsent
        rcases List.mem_append.mp hsent with hnow | hlater
        · rw [added] at hnow
          split at hnow
          case isTrue => rw [List.mem_singleton.mp hnow, henabled]
          case isFalse => cases hnow
        · exact hflags sent hlater
      · rw [if_neg henabled]
        exact ih h

end Walks

/-! ## The operations -/

section Operations
variable {q q' : Queue} {p : ℕ} {s : FileState} {a : Operation} {actions : List Operation}
  {pszType : ℕ → List WCHAR}

theorem inv_create (pszType : ℕ → List WCHAR) : Inv (.create pszType) where
  pending _ := rfl
  credits _ := rfl

theorem Inv.setContext (h : Inv q) (hpending : s.ctx.pWdfRequest = (q.contexts p).ctx.pWdfRequest)
    (hcredits : s.ctx.cCompleteReady = (q.contexts p).ctx.cCompleteReady) :
    Inv (q.setContext p s) := by
  constructor
  · intro p'
    by_cases hp : p' = p
    · subst hp
      simp [Queue.setContext, hpending, h.pending]
    · simp [Queue.setContext, hp, h.pending]
  · intro p'
    by_cases hp : p' = p
    · subst hp
      simp [Queue.setContext, hcredits, h.credits]
    · simp [Queue.setContext, hp, h.credits]

theorem disable_credits (hpending : s.ctx.pWdfRequest = none) :
    (disable s).1.ctx.pWdfRequest = s.ctx.pWdfRequest ∧
      (disable s).1.ctx.cCompleteReady = s.ctx.cCompleteReady := by
  have hnone : ({ s with ctx := { s.ctx with fEnabled := false } } : FileState).ctx.pWdfRequest =
      none := hpending
  simp only [disable, completeRequest_of_none hnone]
  split
  · exact ⟨rfl, rfl⟩
  · exact ⟨rfl, rfl⟩

theorem enable_credits : (enable s).1.ctx.pWdfRequest = s.ctx.pWdfRequest ∧
      (enable s).1.ctx.cCompleteReady = s.ctx.cCompleteReady := by
  simp only [enable]
  split
  · exact ⟨rfl, rfl⟩
  · exact ⟨rfl, rfl⟩

theorem publish_spec (h : Inv q) (p : ℕ) (newMessage : Bool) (transmitMessage : ℕ → HRESULT) :
    Inv (q.publish p newMessage transmitMessage) ∧
      ((∀ sent ∈ (q.publish p newMessage transmitMessage).sent, sent.fEnabled = true) ↔
        (∀ sent ∈ q.sent, sent.fEnabled = true) ∧
          ((q.contexts p).ctx.fEnabled = false → newMessage = true →
            ∀ c ∈ q.connectionHead, succeeded (transmitMessage c) = false)) := by
  by_cases hnew : newMessage = true
  · obtain ⟨more, hwalk, hflags, hnone⟩ :=
      walkConnections_sends p transmitMessage q.connectionHead h
    rw [Queue.publish, if_pos hnew]
    refine ⟨⟨hwalk.inv.1, hwalk.inv.2⟩, ?_⟩
    simp only [hwalk.sent, List.forall_mem_append, hnew, true_implies, ← hnone]
    apply and_congr_right'
    by_cases henabled : (q.contexts p).ctx.fEnabled = true
    · simp only [henabled, Bool.true_eq_false, false_implies, iff_true]
      intro sent hsent
      rw [hflags sent hsent, henabled]
    · constructor
      · intro hall _
        rw [List.eq_nil_iff_forall_not_mem]
        intro sent hsent
        exact henabled ((hflags sent hsent).symm.trans (hall sent hsent))
      · intro hempty
        rw [hempty (by simpa using henabled)]
        exact fun _ hsent => absurd hsent List.not_mem_nil
  · rw [Queue.publish, if_neg hnew]
    simp [h, hnew]

theorem connectionEstablished_spec (h : Inv q) (c : ℕ) (newMessage : Bool)
    (transmitMessage : ℕ → HRESULT) : Inv (q.connectionEstablished c newMessage transmitMessage) ∧
      ((∀ sent ∈ (q.connectionEstablished c newMessage transmitMessage).sent,
          sent.fEnabled = true) ↔ ∀ sent ∈ q.sent, sent.fEnabled = true) := by
  have hjoined : Inv { q with connectionHead := c :: q.connectionHead } := ⟨h.1, h.2⟩
  by_cases hnew : newMessage = true
  · obtain ⟨more, hwalk, hflags⟩ := walkPublications_sends c transmitMessage q.pubsHead hjoined
    simp only [Queue.connectionEstablished, if_pos hnew]
    refine ⟨hwalk.inv, ?_⟩
    simp only [hwalk.sent, List.forall_mem_append, and_iff_left_iff_imp]
    exact fun _ => hflags
  · simpa [Queue.connectionEstablished, hnew] using hjoined

/-- An operation keeps the messages transmitted while enabled the only ones exactly if it respects
the flag. -/
theorem step_spec (h : Inv q) (hstep : step q a = some q') :
    Inv q' ∧ ((∀ sent ∈ q'.sent, sent.fEnabled = true) ↔
      (∀ sent ∈ q.sent, sent.fEnabled = true) ∧ a.Respects q) := by
  cases a with
  | disable p =>
      obtain rfl := Option.some.inj hstep
      obtain ⟨hpending, hcredits⟩ := disable_credits (h.pending p)
      exact ⟨h.setContext hpending hcredits, by simp [Queue.setContext, Operation.Respects]⟩
  | enable p =>
      obtain rfl := Option.some.inj hstep
      exact ⟨h.setContext enable_credits.1 enable_credits.2,
        by simp [Queue.setContext, Operation.Respects]⟩
  | setPayload p newPayload newMessage request transmitMessage =>
      obtain ⟨⟨s, hr⟩, hset, rfl⟩ := Option.map_eq_some_iff.mp hstep
      rcases setPayload_spec hset with ⟨rfl, hfail, hrefused⟩ | ⟨payload, haccepted, rfl, rfl⟩
      · have hrespects : Operation.Respects q
            (.setPayload p newPayload newMessage request transmitMessage) :=
          fun _ ⟨payload, haccepted⟩ => absurd haccepted (hrefused payload)
        simp only [hfail, Bool.false_eq_true, if_false]
        exact ⟨h.setContext rfl rfl, by simp [Queue.setContext, hrespects]⟩
      · have hstored : Inv (q.setContext p { q.contexts p with
            ctx := { (q.contexts p).ctx with myPayload := some payload } }) :=
          h.setContext rfl rfl
        obtain ⟨hinv, hsilent⟩ := publish_spec hstored p newMessage transmitMessage
        simp only [succeeded_sOk, if_true]
        refine ⟨hinv, hsilent.trans (and_congr_right' ?_)⟩
        simp only [Queue.setContext, Function.update_self, Operation.Respects]
        constructor
        · exact fun hnone hdisabled _ => hnone hdisabled
        · exact fun hnone hdisabled => hnone hdisabled ⟨payload, haccepted⟩
  | connectionEstablished c newMessage transmitMessage =>
      obtain rfl := Option.some.inj hstep
      obtain ⟨hinv, hsilent⟩ := connectionEstablished_spec h c newMessage transmitMessage
      exact ⟨hinv, hsilent.trans (by simp [Operation.Respects])⟩
  | connectionTerminated c =>
      obtain rfl := Option.some.inj hstep
      exact ⟨⟨h.1, h.2⟩, by simp [Operation.Respects]⟩

theorem inv_of_runs (hrun : RunsTo step Always (.create pszType) actions q) : Inv q :=
  hrun.invariant Inv (inv_create pszType) fun _ _ _ h _ hstep => (step_spec h hstep).1

theorem silent_iff_sent (h : Inv q) : Silent q ↔ ∀ sent ∈ q.sent, sent.fEnabled = true := by
  constructor
  · exact fun hsilent => hsilent.sent
  · intro hsent
    refine ⟨hsent, ?_⟩
    intro p
    rw [h.credits p]
    apply List.countP_congr
    intro sent hmem
    simp [hsent sent hmem]

/-- After a run no disabled publication has been transmitted or credited exactly if every
`SET_PAYLOAD` in it respects the flag. -/
theorem silent_iff (hrun : RunsTo step Always (.create pszType) actions q) :
    Silent q ↔ ∀ taken a t, taken ++ [a] <+: actions →
      RunsTo step Always (.create pszType) taken t → a.Respects t := by
  rw [silent_iff_sent (inv_of_runs hrun)]
  exact hrun.kept_iff Inv (fun q => ∀ sent ∈ q.sent, sent.fEnabled = true) (inv_create pszType)
    (fun _ hsent => absurd hsent List.not_mem_nil) fun _ _ _ h hstep => step_spec h hstep

end Operations

/-- A payload is set, sent to a connection, and not sent to a second one while the publication is
disabled. -/
def disabledLater : List Operation :=
  [.connectionEstablished 0 true fun _ => sOk,
    .setPayload 0 true true (setPayloadRequest [7]) fun _ => sOk,
    .disable 0, .connectionEstablished 1 true fun _ => sOk]

theorem silent_disabledLater :
    ∃ q, RunsTo step Always (.create fun _ => [65]) disabledLater q ∧
      q.sent.map (·.connection) = [0] ∧
        (Silent q ↔ ∀ taken a t, taken ++ [a] <+: disabledLater →
          RunsTo step Always (.create fun _ => [65]) taken t → a.Respects t) :=
  have hrun : RunsTo step Always (.create fun _ => [65]) disabledLater
      ((exec step Always (.create fun _ => [65]) disabledLater).get (by decide)) :=
    .of_isSome (by decide)
  ⟨_, hrun, by decide, silent_iff hrun⟩

/-- A publication is disabled before its payload is set. -/
theorem not_silent_disabledBefore :
    ¬∀ pszType actions q, RunsTo step Always (.create pszType) actions q → Silent q := by
  intro hsilent
  let actions : List Operation := [.connectionEstablished 0 true fun _ => sOk, .disable 0,
    .setPayload 0 true true (setPayloadRequest [7]) fun _ => sOk]
  have hrun : RunsTo step Always (.create fun _ => [65]) actions
      ((exec step Always (.create fun _ => [65]) actions).get (by decide)) :=
    .of_isSome (by decide)
  exact absurd (hsilent _ _ _ hrun).sent (by decide)

end MiscProjects.Nfp.Silence
