import MiscProjects.Library.Runs
import MiscProjects.Nfp.Attempt
import Mathlib.Logic.Function.Basic

/-!
# Transmission of publications to connections

`IOCTL_NFP_SET_PAYLOAD` stores the payload, walks the list of connections under
`m_ConnectionLock` and then joins the list of publications under `m_PubsLock`.
`ConnectionEstablished` joins the list of connections and then walks the list
of publications.  A publication reaches a connection on whichever of the two
walks finds the other in its list: on both if the two sections of
`SET_PAYLOAD` fall between those of `ConnectionEstablished`, on neither if it
is the other way round, and on exactly one otherwise.

One step is one critical section.  Publications are enabled throughout and
sends succeed on connections that have not terminated.
-/

namespace MiscProjects.Nfp

open MiscProjects.Runs

def maxCchTypeNetwork : ℕ := 502

/-- `HRESULT_FROM_WIN32(WSAENOTSOCK)`. -/
def notSock : HRESULT := 0x80072736#32

/-- The fields of `MESSAGE` in use: the type, cut to its array, and the first
`m_cbPayload` bytes of the payload. -/
structure Message where
  szType : List WCHAR
  payload : List UInt8
deriving DecidableEq

/-- `MESSAGE::Initialize` from a publication. -/
def Message.initialized (ctx : CFileContext) : Message where
  szType := (ctx.pszType.getD []).take (maxCchTypeNetwork - 1)
  payload := ctx.myPayload.getD []

/-- How far `IOCTL_NFP_SET_PAYLOAD` has come on a publication. -/
inductive PubPc
  | idle
  | payloadSet
  | walked
  | finished
deriving DecidableEq

/-- How far `ConnectionEstablished` has come on a connection. -/
inductive ConnPc
  | absent
  | joined
  | established
deriving DecidableEq

/-- One message sent over a connection. -/
structure Sent where
  publication : ℕ
  connection : ℕ
  message : Message
deriving DecidableEq

/-- `CMyQueue` with its file contexts and connections, and the messages sent
so far. -/
structure Driver where
  contexts : ℕ → FileState
  pubsHead : List ℕ
  connectionHead : List ℕ
  pubPc : ℕ → PubPc
  connPc : ℕ → ConnPc
  terminated : ℕ → Bool
  sent : List Sent

/-- Every handle is a publication of the given type without a payload. -/
def Driver.create (pszType : ℕ → List WCHAR) : Driver where
  contexts := fun p => .create .publication (some (pszType p))
  pubsHead := []
  connectionHead := []
  pubPc := fun _ => .idle
  connPc := fun _ => .absent
  terminated := fun _ => false
  sent := []

/-! ## The critical sections -/

/-- `CConnection::TransmitMessage`: the send succeeds unless the socket has
been closed. -/
def Driver.transmitMessage (c : ℕ) (d : Driver) : HRESULT :=
  if d.terminated c then notSock else sOk

/-- Transmit a publication over a connection and, on success, tell its
context. -/
def Driver.transmit (p c : ℕ) (d : Driver) : Driver :=
  if succeeded (d.transmitMessage c) then
    { d with
      sent := d.sent ++ [⟨p, c, .initialized (d.contexts p).ctx⟩],
      contexts := Function.update d.contexts p
        (handleMessageTransmitted (d.contexts p)) }
  else d

/-- The first critical section of `SET_PAYLOAD`: `CFileContext::SetPayload`. -/
def Driver.setPayload
    (p : ℕ) (newPayload : Bool) (request : IWDFIoRequest) (d : Driver) :
    Option Driver :=
  match Nfp.setPayload newPayload request (d.contexts p) with
  | none => none
  | some (s, hr) =>
      some { d with
        contexts := Function.update d.contexts p s,
        pubPc :=
          if succeeded hr then Function.update d.pubPc p .payloadSet
          else d.pubPc }

/-- The section of `SET_PAYLOAD` under `m_ConnectionLock`. -/
def Driver.walkConnections (p : ℕ) (d : Driver) : Driver :=
  let walked := d.connectionHead.foldl (fun d c => d.transmit p c) d
  { walked with pubPc := Function.update walked.pubPc p .walked }

/-- The section of `SET_PAYLOAD` under `m_PubsLock`. -/
def Driver.joinPublications (p : ℕ) (d : Driver) : Driver :=
  { d with
    pubsHead := p :: d.pubsHead,
    pubPc := Function.update d.pubPc p .finished }

/-- The section of `ConnectionEstablished` under `m_ConnectionLock`. -/
def Driver.joinConnections (c : ℕ) (d : Driver) : Driver :=
  { d with
    connectionHead := c :: d.connectionHead,
    connPc := Function.update d.connPc c .joined }

/-- The section of `ConnectionEstablished` under `m_PubsLock`. -/
def Driver.walkPublications (c : ℕ) (d : Driver) : Driver :=
  let walked := d.pubsHead.foldl
    (fun d p => if (d.contexts p).ctx.fEnabled then d.transmit p c else d) d
  { walked with connPc := Function.update walked.connPc c .established }

/-- `ConnectionTerminated`: the connection leaves the list. -/
def Driver.connectionTerminated (c : ℕ) (d : Driver) : Driver :=
  { d with
    connectionHead := d.connectionHead.erase c,
    terminated := Function.update d.terminated c true }

/-- The steps of the driver.  A section is entered in the order in which its
function runs; a connection may terminate at any time. -/
inductive DriverAction
  | setPayload (p : ℕ) (newPayload : Bool) (request : IWDFIoRequest)
  | walkConnections (p : ℕ)
  | joinPublications (p : ℕ)
  | joinConnections (c : ℕ)
  | walkPublications (c : ℕ)
  | connectionTerminated (c : ℕ)
deriving DecidableEq

def driverStep (d : Driver) : DriverAction → Option Driver
  | .setPayload p newPayload request => d.setPayload p newPayload request
  | .walkConnections p =>
      if d.pubPc p = .payloadSet then some (d.walkConnections p) else none
  | .joinPublications p =>
      if d.pubPc p = .walked then some (d.joinPublications p) else none
  | .joinConnections c =>
      if d.connPc c = .absent then some (d.joinConnections c) else none
  | .walkPublications c =>
      if d.connPc c = .joined then some (d.walkPublications c) else none
  | .connectionTerminated c =>
      if d.terminated c then none else some (d.connectionTerminated c)

/-! ## What a walk sends -/

/-- The number of times `p` has been transmitted to `c`. -/
def sentCount (d : Driver) (p c : ℕ) : ℕ :=
  d.sent.countP fun sent => sent.publication = p ∧ sent.connection = c

/-- The two states differ in the messages sent and in the credits of the
publications only. -/
structure SameLists (d d' : Driver) : Prop where
  pubsHead : d'.pubsHead = d.pubsHead
  connectionHead : d'.connectionHead = d.connectionHead
  pubPc : d'.pubPc = d.pubPc
  connPc : d'.connPc = d.connPc
  terminated : d'.terminated = d.terminated
  enabled : ∀ p, (d'.contexts p).ctx.fEnabled = (d.contexts p).ctx.fEnabled
  payload : ∀ p, (d'.contexts p).ctx.myPayload = (d.contexts p).ctx.myPayload

theorem SameLists.refl (d : Driver) : SameLists d d :=
  ⟨rfl, rfl, rfl, rfl, rfl, fun _ => rfl, fun _ => rfl⟩

theorem SameLists.trans {d₁ d₂ d₃ : Driver}
    (h₁₂ : SameLists d₁ d₂) (h₂₃ : SameLists d₂ d₃) : SameLists d₁ d₃ where
  pubsHead := h₂₃.pubsHead.trans h₁₂.pubsHead
  connectionHead := h₂₃.connectionHead.trans h₁₂.connectionHead
  pubPc := h₂₃.pubPc.trans h₁₂.pubPc
  connPc := h₂₃.connPc.trans h₁₂.connPc
  terminated := h₂₃.terminated.trans h₁₂.terminated
  enabled p := (h₂₃.enabled p).trans (h₁₂.enabled p)
  payload p := (h₂₃.payload p).trans (h₁₂.payload p)

theorem handleMessageTransmitted_keeps (s : FileState) :
    (handleMessageTransmitted s).ctx.fEnabled = s.ctx.fEnabled ∧
      (handleMessageTransmitted s).ctx.myPayload = s.ctx.myPayload := by
  cases hpend : s.ctx.pWdfRequest with
  | none =>
      simp [handleMessageTransmitted, completeRequest_of_none hpend, addCredit]
  | some request =>
      by_cases hcancel : request.id ∈ s.fx.cancelled
      · simp [handleMessageTransmitted, completeRequest_of_cancelled hpend hcancel, addCredit]
      · simp [handleMessageTransmitted, completeRequest_of_not_cancelled hpend hcancel, completed]

theorem transmit_sameLists (p c : ℕ) (d : Driver) : SameLists d (d.transmit p c) := by
  unfold Driver.transmit
  split
  case isFalse => exact SameLists.refl d
  case isTrue =>
    have hkeeps := handleMessageTransmitted_keeps (d.contexts p)
    refine ⟨rfl, rfl, rfl, rfl, rfl, ?_, ?_⟩
    · intro q
      by_cases hq : q = p
      · subst hq
        simpa using hkeeps.1
      · simp [hq]
    · intro q
      by_cases hq : q = p
      · subst hq
        simpa using hkeeps.2
      · simp [hq]

variable {d : Driver} {as : List DriverAction}

theorem transmit_sentCount (p c p' : ℕ) {c' : ℕ} (hlive : d.terminated c' = false) :
    sentCount (d.transmit p c) p' c' = sentCount d p' c' + if p = p' ∧ c = c' then 1 else 0 := by
  by_cases hc : c = c'
  · subst hc
    have hok : succeeded (d.transmitMessage c) = true := by
      simp [Driver.transmitMessage, hlive]
    by_cases hp : p = p' <;>
      simp [Driver.transmit, hok, sentCount, List.countP_append, hp]
  · unfold Driver.transmit
    split
    case isFalse => simp [hc]
    case isTrue => simp [sentCount, List.countP_append, hc]

theorem foldl_connections (p : ℕ) (connections : List ℕ) (d : Driver) :
    SameLists d (connections.foldl (fun d c => d.transmit p c) d) ∧
      ∀ p' c', d.terminated c' = false →
        sentCount (connections.foldl (fun d c => d.transmit p c) d) p' c' =
          sentCount d p' c' + if p = p' then connections.count c' else 0 := by
  induction connections generalizing d with
  | nil => simpa using SameLists.refl d
  | cons c connections ih =>
      have hone := transmit_sameLists p c d
      obtain ⟨hrest, hcount⟩ := ih (d.transmit p c)
      refine ⟨hone.trans hrest, ?_⟩
      intro p' c' hlive
      have hlive' : (d.transmit p c).terminated c' = false := by
        rw [hone.terminated, hlive]
      rw [List.foldl_cons, hcount p' c' hlive', transmit_sentCount p c p' hlive, List.count_cons]
      by_cases hp : p = p'
      · by_cases hc : c = c'
        · simp only [hp, hc, and_self, if_true, beq_self_eq_true]
          omega
        · simp [hp, hc]
      · simp [hp]

theorem foldl_publications (c : ℕ) (publications : List ℕ) (d : Driver)
    (henabled : ∀ p, (d.contexts p).ctx.fEnabled = true) :
    let walk := fun (d : Driver) p =>
      if (d.contexts p).ctx.fEnabled then d.transmit p c else d
    SameLists d (publications.foldl walk d) ∧
      ∀ p' c', d.terminated c' = false →
        sentCount (publications.foldl walk d) p' c' =
          sentCount d p' c' + if c = c' then publications.count p' else 0 := by
  intro walk
  induction publications generalizing d with
  | nil => simpa using SameLists.refl d
  | cons p publications ih =>
      have hwalk : walk d p = d.transmit p c := by simp [walk, henabled p]
      have hone := transmit_sameLists p c d
      have henabled' : ∀ q, ((d.transmit p c).contexts q).ctx.fEnabled = true :=
        fun q => (hone.enabled q).trans (henabled q)
      obtain ⟨hrest, hcount⟩ := ih (d.transmit p c) henabled'
      rw [List.foldl_cons, hwalk]
      refine ⟨hone.trans hrest, ?_⟩
      intro p' c' hlive
      have hlive' : (d.transmit p c).terminated c' = false := by
        rw [hone.terminated, hlive]
      rw [hcount p' c' hlive', transmit_sentCount p c p' hlive,
        List.count_cons]
      by_cases hc : c = c'
      · by_cases hp : p = p'
        · simp only [hp, hc, and_self, if_true, beq_self_eq_true]
          omega
        · simp [hp, hc]
      · simp [hc]

/-! ## The invariant of a run -/

/-- `1` if the proposition holds and `0` otherwise. -/
abbrev indicator (p : Prop) [Decidable p] : ℕ := if p then 1 else 0

/-- How the state of the driver depends on the sections entered so far; what
has been sent to a live connection is decided by their order alone. -/
structure DriverInv (as : List DriverAction) (d : Driver) : Prop where
  enabled : ∀ p, (d.contexts p).ctx.fEnabled = true
  payload : ∀ p, d.pubPc p ≠ .idle → (d.contexts p).ctx.myPayload ≠ none
  walked : ∀ p, .walkConnections p ∈ as ↔
    d.pubPc p = .walked ∨ d.pubPc p = .finished
  published : ∀ p, .joinPublications p ∈ as ↔ d.pubPc p = .finished
  joined : ∀ c, .joinConnections c ∈ as ↔ d.connPc c ≠ .absent
  established : ∀ c, .walkPublications c ∈ as ↔ d.connPc c = .established
  pubs : ∀ p, d.pubsHead.count p = indicator (.joinPublications p ∈ as)
  conns : ∀ c, d.terminated c = false →
    d.connectionHead.count c = indicator (.joinConnections c ∈ as)
  sent : ∀ p c, d.terminated c = false →
    sentCount d p c =
      indicator (Precedes as (.joinConnections c) (.walkConnections p)) +
        indicator (Precedes as (.joinPublications p) (.walkPublications c))

theorem driverInv_create (pszType : ℕ → List WCHAR) : DriverInv [] (Driver.create pszType) where
  enabled _ := rfl
  payload p h := absurd rfl h
  walked _ := by simp [Driver.create]
  published _ := by simp [Driver.create]
  joined _ := by simp [Driver.create]
  established _ := by simp [Driver.create]
  pubs _ := by simp [Driver.create]
  conns _ _ := by simp [Driver.create]
  sent _ _ _ := by simp [Driver.create, sentCount, precedes_nil]

theorem setPayload_cases {newPayload : Bool} {request : IWDFIoRequest} {s s' : FileState}
    {hr : HRESULT} (h : setPayload newPayload request s = some (s', hr)) :
    (s' = s ∧ succeeded hr = false) ∨ (s.ctx.myPayload = none ∧ s'.ctx.myPayload ≠ none ∧
        s'.ctx.fEnabled = s.ctx.fEnabled ∧ succeeded hr = true) := by
  rcases setPayload_spec h with ⟨rfl, hfail, -⟩ | ⟨payload, haccepted, rfl, rfl⟩
  · exact .inl ⟨rfl, hfail⟩
  · exact .inr ⟨haccepted.first, Option.some_ne_none payload, rfl, succeeded_sOk⟩

section
variable {as : List DriverAction} {d : Driver}

theorem DriverInv.setPayload (h : DriverInv as d) {p : ℕ} {newPayload : Bool}
    {request : IWDFIoRequest} {d' : Driver} (hcall : d.setPayload p newPayload request = some d') :
    DriverInv (as ++ [.setPayload p newPayload request]) d' := by
  unfold Driver.setPayload at hcall
  split at hcall
  case h_1 => simp at hcall
  case h_2 s hr hset =>
    simp only [Option.some.injEq] at hcall
    subst hcall
    rcases setPayload_cases hset with
      ⟨rfl, hfail⟩ | ⟨hnone, hsome, henabled, hok⟩
    · rw [Function.update_eq_self]
      simp only [hfail, Bool.false_eq_true, if_false]
      exact ⟨h.enabled, h.payload, by simpa using h.walked,
        by simpa using h.published, by simpa using h.joined,
        by simpa using h.established, by simpa using h.pubs,
        by simpa using h.conns, by simpa [sentCount, precedes_snoc] using h.sent⟩
    · have hidle : d.pubPc p = .idle := by
        by_contra hpc
        exact h.payload p hpc hnone
      simp only [hok, if_true]
      refine ⟨?_, ?_, ?_, ?_, by simpa using h.joined,
        by simpa using h.established, by simpa using h.pubs,
        by simpa using h.conns, by simpa [sentCount, precedes_snoc] using h.sent⟩
      · intro q
        by_cases hq : q = p
        · subst hq
          simpa [henabled] using h.enabled q
        · simpa [hq] using h.enabled q
      · intro q
        by_cases hq : q = p
        · subst hq
          simpa using hsome
        · simpa [hq] using h.payload q
      · intro q
        by_cases hq : q = p
        · subst hq
          simpa [hidle] using h.walked q
        · simpa [hq] using h.walked q
      · intro q
        by_cases hq : q = p
        · subst hq
          simpa [hidle] using h.published q
        · simpa [hq] using h.published q

theorem DriverInv.walkConnections (h : DriverInv as d) {p : ℕ} (hpc : d.pubPc p = .payloadSet) :
    DriverInv (as ++ [.walkConnections p]) (d.walkConnections p) := by
  obtain ⟨hsame, hcount⟩ := foldl_connections p d.connectionHead d
  have hfirst : .walkConnections p ∉ as := by
    simp [h.walked p, hpc]
  refine ⟨?_, ?_, ?_, ?_, ?_, ?_, ?_, ?_, ?_⟩
  · exact fun q => (hsame.enabled q).trans (h.enabled q)
  · intro q hq
    simp only [Driver.walkConnections, hsame.payload q]
    apply h.payload q
    by_cases hqp : q = p
    · simp [hqp, hpc]
    · simpa [Driver.walkConnections, hqp, hsame.pubPc] using hq
  · intro q
    by_cases hq : q = p
    · simp [Driver.walkConnections, hq]
    · simpa [Driver.walkConnections, hq, hsame.pubPc] using h.walked q
  · intro q
    by_cases hq : q = p
    · simpa [Driver.walkConnections, hq, hpc] using h.published p
    · simpa [Driver.walkConnections, hq, hsame.pubPc] using h.published q
  · simpa [Driver.walkConnections, hsame.connPc] using h.joined
  · simpa [Driver.walkConnections, hsame.connPc] using h.established
  · simpa [Driver.walkConnections, hsame.pubsHead] using h.pubs
  · simpa [Driver.walkConnections, hsame.connectionHead, hsame.terminated]
      using h.conns
  · intro q c hlive
    have hlive' : d.terminated c = false := by
      simpa [Driver.walkConnections, hsame.terminated] using hlive
    have hsent := hcount q c hlive'
    rw [h.sent q c hlive'] at hsent
    have hconns := h.conns c hlive'
    refine Eq.trans hsent ?_
    by_cases hq : p = q
    · subst hq
      have hnot : ¬ Precedes as (.joinConnections c) (.walkConnections p) :=
        fun hbefore => hfirst hbefore.1
      simp only [precedes_snoc, hnot, hfirst, hconns, not_false_eq_true,
        true_and, false_or, reduceCtorEq, false_and, and_false, or_false, if_true, if_false]
      omega
    · simp [precedes_snoc, hq]

theorem DriverInv.joinPublications (h : DriverInv as d) {p : ℕ} (hpc : d.pubPc p = .walked) :
    DriverInv (as ++ [.joinPublications p]) (d.joinPublications p) := by
  have hfirst : .joinPublications p ∉ as := by
    simp [h.published p, hpc]
  refine ⟨h.enabled, ?_, ?_, ?_, by simpa [Driver.joinPublications] using h.joined,
    by simpa [Driver.joinPublications] using h.established, ?_,
    by simpa [Driver.joinPublications] using h.conns, ?_⟩
  · intro q hq
    apply h.payload q
    by_cases hqp : q = p
    · simp [hqp, hpc]
    · simpa [Driver.joinPublications, hqp] using hq
  · intro q
    by_cases hq : q = p
    · simpa [Driver.joinPublications, hq, hpc] using h.walked p
    · simpa [Driver.joinPublications, hq] using h.walked q
  · intro q
    by_cases hq : q = p
    · simp [Driver.joinPublications, hq]
    · simpa [Driver.joinPublications, hq] using h.published q
  · intro q
    have hpubs := h.pubs q
    by_cases hq : p = q
    · subst hq
      simp [Driver.joinPublications, hpubs, hfirst]
    · have hq' : q ≠ p := fun heq => hq heq.symm
      simpa [Driver.joinPublications, List.count_cons, hq, hq'] using hpubs
  · intro q c hlive
    have hsent := h.sent q c hlive
    simpa [Driver.joinPublications, sentCount, precedes_snoc] using hsent

theorem DriverInv.joinConnections (h : DriverInv as d) {c : ℕ} (hpc : d.connPc c = .absent) :
    DriverInv (as ++ [.joinConnections c]) (d.joinConnections c) := by
  have hfirst : .joinConnections c ∉ as := by
    simp [h.joined c, hpc]
  refine ⟨h.enabled, h.payload, by simpa [Driver.joinConnections] using h.walked,
    by simpa [Driver.joinConnections] using h.published, ?_, ?_,
    by simpa [Driver.joinConnections] using h.pubs, ?_, ?_⟩
  · intro c'
    by_cases hc : c' = c
    · simp [Driver.joinConnections, hc]
    · simpa [Driver.joinConnections, hc] using h.joined c'
  · intro c'
    by_cases hc : c' = c
    · simpa [Driver.joinConnections, hc, hpc] using h.established c
    · simpa [Driver.joinConnections, hc] using h.established c'
  · intro c' hlive
    have hconns := h.conns c' hlive
    by_cases hc : c = c'
    · subst hc
      simp [Driver.joinConnections, hconns, hfirst]
    · have hc' : c' ≠ c := fun heq => hc heq.symm
      simpa [Driver.joinConnections, List.count_cons, hc, hc'] using hconns
  · intro q c' hlive
    have hsent := h.sent q c' hlive
    simpa [Driver.joinConnections, sentCount, precedes_snoc] using hsent

theorem DriverInv.walkPublications (h : DriverInv as d) {c : ℕ} (hpc : d.connPc c = .joined) :
    DriverInv (as ++ [.walkPublications c]) (d.walkPublications c) := by
  obtain ⟨hsame, hcount⟩ := foldl_publications c d.pubsHead d h.enabled
  have hfirst : .walkPublications c ∉ as := by
    simp [h.established c, hpc]
  refine ⟨?_, ?_, ?_, ?_, ?_, ?_, ?_, ?_, ?_⟩
  · exact fun q => (hsame.enabled q).trans (h.enabled q)
  · intro q hq
    simp only [Driver.walkPublications, hsame.payload q]
    apply h.payload q
    simpa [Driver.walkPublications, hsame.pubPc] using hq
  · simpa [Driver.walkPublications, hsame.pubPc] using h.walked
  · simpa [Driver.walkPublications, hsame.pubPc] using h.published
  · intro c'
    by_cases hc : c' = c
    · simpa [Driver.walkPublications, hc, hpc] using h.joined c
    · simpa [Driver.walkPublications, hc, hsame.connPc] using h.joined c'
  · intro c'
    by_cases hc : c' = c
    · simp [Driver.walkPublications, hc]
    · simpa [Driver.walkPublications, hc, hsame.connPc] using h.established c'
  · simpa [Driver.walkPublications, hsame.pubsHead] using h.pubs
  · simpa [Driver.walkPublications, hsame.connectionHead, hsame.terminated]
      using h.conns
  · intro q c' hlive
    have hlive' : d.terminated c' = false := by
      simpa [Driver.walkPublications, hsame.terminated] using hlive
    have hsent := hcount q c' hlive'
    rw [h.sent q c' hlive', h.pubs q] at hsent
    refine Eq.trans hsent ?_
    by_cases hc : c = c'
    · subst hc
      have hnot : ¬ Precedes as (.joinPublications q) (.walkPublications c) :=
        fun hbefore => hfirst hbefore.1
      simp only [precedes_snoc, hnot, hfirst, not_false_eq_true,
        true_and, false_or, reduceCtorEq, false_and, and_false, or_false, if_true, if_false]
      omega
    · simp [precedes_snoc, hc]

theorem DriverInv.connectionTerminated (h : DriverInv as d) (c : ℕ) :
    DriverInv (as ++ [.connectionTerminated c]) (d.connectionTerminated c) := by
  have hlive : ∀ c', (d.connectionTerminated c).terminated c' = false →
      c' ≠ c ∧ d.terminated c' = false := by
    intro c' hlive
    by_cases hc : c' = c
    · simp [Driver.connectionTerminated, hc] at hlive
    · simpa [Driver.connectionTerminated, hc] using hlive
  refine ⟨h.enabled, h.payload, by simpa [Driver.connectionTerminated] using h.walked,
    by simpa [Driver.connectionTerminated] using h.published,
    by simpa [Driver.connectionTerminated] using h.joined,
    by simpa [Driver.connectionTerminated] using h.established,
    by simpa [Driver.connectionTerminated] using h.pubs, ?_, ?_⟩
  · intro c' hc'
    obtain ⟨hne, hold⟩ := hlive c' hc'
    simpa [Driver.connectionTerminated, List.count_erase_of_ne hne]
      using h.conns c' hold
  · intro q c' hc'
    obtain ⟨-, hold⟩ := hlive c' hc'
    simpa [Driver.connectionTerminated, sentCount, precedes_snoc]
      using h.sent q c' hold

end

theorem driverInv_of_run {pszType : ℕ → List WCHAR}
    (hrun : RunsTo driverStep Always (Driver.create pszType) as d) : DriverInv as d := by
  refine hrun.history DriverInv (driverInv_create pszType) ?_
  intro as d a d' h _ hstep
  cases a with
  | setPayload p newPayload request => exact h.setPayload hstep
  | walkConnections p =>
      simp only [driverStep, Option.ite_none_right_eq_some, Option.some.injEq] at hstep
      exact hstep.2 ▸ h.walkConnections hstep.1
  | joinPublications p =>
      simp only [driverStep, Option.ite_none_right_eq_some, Option.some.injEq] at hstep
      exact hstep.2 ▸ h.joinPublications hstep.1
  | joinConnections c =>
      simp only [driverStep, Option.ite_none_right_eq_some, Option.some.injEq] at hstep
      exact hstep.2 ▸ h.joinConnections hstep.1
  | walkPublications c =>
      simp only [driverStep, Option.ite_none_right_eq_some, Option.some.injEq] at hstep
      exact hstep.2 ▸ h.walkPublications hstep.1
  | connectionTerminated c =>
      simp only [driverStep, Option.ite_none_left_eq_some, Option.some.injEq] at hstep
      exact hstep.2 ▸ h.connectionTerminated c

/-! ## Exactly-once transmission -/

/-- Every publication whose `SET_PAYLOAD` has finished has been transmitted
exactly once to every live connection whose `ConnectionEstablished` has
finished. -/
def ExactlyOnce (d : Driver) : Prop :=
  ∀ p c, d.pubPc p = .finished → d.connPc c = .established →
    d.terminated c = false → sentCount d p c = 1

/-- The two list sections of one function both fall between those of the
other: `ConnectionEstablished` inside `SET_PAYLOAD`, or the reverse. -/
def Nested (as : List DriverAction) (p c : ℕ) : Prop :=
  (Precedes as (.walkConnections p) (.joinConnections c) ∧
      Precedes as (.walkPublications c) (.joinPublications p)) ∨
    (Precedes as (.joinConnections c) (.walkConnections p) ∧
      Precedes as (.joinPublications p) (.walkPublications c))

theorem sentCount_eq_one_iff {p c : ℕ} (h : DriverInv as d) (hpub : d.pubPc p = .finished)
    (hconn : d.connPc c = .established) (hlive : d.terminated c = false) :
    sentCount d p c = 1 ↔ ¬ Nested as p c := by
  have hwalked : .walkConnections p ∈ as := (h.walked p).mpr (.inr hpub)
  have hpublished : .joinPublications p ∈ as := (h.published p).mpr hpub
  have hjoined : .joinConnections c ∈ as := by
    simp [h.joined c, hconn]
  have hestablished : .walkPublications c ∈ as := (h.established c).mpr hconn
  have hfirst := precedes_iff_not_precedes (by simp) hwalked hjoined
  have hsecond := precedes_iff_not_precedes (by simp) hestablished hpublished
  rw [h.sent p c hlive]
  by_cases hbefore : Precedes as (.joinConnections c) (.walkConnections p) <;>
    by_cases hafter : Precedes as (.joinPublications p) (.walkPublications c) <;>
    simp [Nested, hfirst, hsecond, hbefore, hafter]

/-- The request of `IOCTL_NFP_SET_PAYLOAD` with the given payload. -/
def setPayloadRequest (bytes : List UInt8) : IWDFIoRequest where
  id := 0
  inputMemory := some ⟨bytes, eInvalidArg, succeeded_eInvalidArg⟩
  outputMemory := some ⟨[], eInvalidArg, succeeded_eInvalidArg⟩

end MiscProjects.Nfp
