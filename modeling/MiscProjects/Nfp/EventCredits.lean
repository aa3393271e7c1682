import MiscProjects.Nfp.Requests

/-!
# Event credits

A publication is credited with one `m_cCompleteReady` for every transmission
that finds no request to complete, an arrival or departure subscription with
one for every event.  A credit is spent by completing a request with success.
`Credits` is the balance between what has been earned, reported and kept, and
the rule that no request waits while a credit is left.
-/

namespace MiscProjects.Nfp

open MiscProjects.Runs

/-- The output of a `GET_NEXT` request completed with an event: the size of the
event's `DWORD`, then its flags. -/
def eventOutput (flags : ℕ) : List UInt8 := dwordBytes 4 ++ dwordBytes flags

/-- The completions that spend a credit, by role. -/
def reportsCredit (role : Role) (completion : Completion) : Bool :=
  match role with
  | .publication => completion.hr == sOk
  | .arrivedSubscription =>
      completion.hr == sOk && completion.output == eventOutput 1
  | .departedSubscription =>
      completion.hr == sOk && completion.output == eventOutput 0
  | _ => false

/-- What a context has been credited with: transmissions or events. -/
def FileRun.earned (t : FileRun) : Role → ℕ
  | .publication => t.transmitted
  | .arrivedSubscription => t.events
  | .departedSubscription => t.events
  | _ => 0

/-- The number of credits reported to the client. -/
def reportedCredits (role : Role) (fx : Framework) : ℕ :=
  fx.completions.countP (reportsCredit role)

/-- The flags delivered with the events of a role. -/
def eventFlags : Role → Option ℕ
  | .arrivedSubscription => some 1
  | .departedSubscription => some 0
  | _ => none

variable {t u : FileRun} {completion : Completion} {role : Role}

theorem reportsCredit_of_failed (hhr : succeeded completion.hr = false) :
    reportsCredit role completion = false := by
  have hne : completion.hr ≠ sOk := by
    intro h
    simp [h] at hhr
  cases role <;> simp [reportsCredit, hne]

theorem reportsCredit_event {flags : ℕ} (hflags : eventFlags role = some flags)
    (hhr : completion.hr = sOk) (houtput : completion.output = eventOutput flags) :
    reportsCredit role completion = true := by
  cases role <;> simp only [eventFlags, Option.some.injEq, reduceCtorEq] at hflags
  case arrivedSubscription => simp [reportsCredit, hhr, houtput, hflags]
  case departedSubscription => simp [reportsCredit, hhr, houtput, hflags]

/-! ## The balance -/

/-- What has been earned is reported or kept, every success reports a credit,
and the pended request has an output memory. -/
structure Balanced (role : Role) (earned : ℕ) (s : FileState) : Prop where
  balance : earned = reportedCredits role s.fx + s.ctx.cCompleteReady
  only : ∀ completion ∈ s.fx.completions,
    succeeded completion.hr = true → reportsCredit role completion = true
  memory : ∀ request ∈ s.ctx.pWdfRequest,
    request.outputMemory.isSome = true

/-- A pended request that is not being cancelled finds no credit. -/
def NoIdleCredit (s : FileState) : Prop :=
  ∀ request ∈ s.ctx.pWdfRequest,
    request.id ∉ s.fx.cancelled → s.ctx.cCompleteReady = 0

/-- The balance, with no request waiting on an available credit. -/
structure Credits (role : Role) (earned : ℕ) (s : FileState) : Prop extends
    Balanced role earned s where
  idle : NoIdleCredit s

theorem noIdleCredit_of_none {s : FileState} (h : s.ctx.pWdfRequest = none) : NoIdleCredit s := by
  simp [NoIdleCredit, h]

section
variable {role : Role} {earned : ℕ} {s : FileState}

variable {timing : CancelTiming} {request : IWDFIoRequest} {flags : ℕ} {hr : HRESULT}
  {s' : FileState}

theorem Balanced.of_eq (h : Balanced role earned s)
    (hcompletions : s'.fx.completions = s.fx.completions)
    (hready : s'.ctx.cCompleteReady = s.ctx.cCompleteReady)
    (hpend : s'.ctx.pWdfRequest = s.ctx.pWdfRequest) : Balanced role earned s' where
  balance := by simpa [reportedCredits, hcompletions, hready] using h.balance
  only := hcompletions ▸ h.only
  memory := hpend ▸ h.memory

theorem Credits.of_eq (h : Credits role earned s) (hfx : s'.fx = s.fx)
    (hready : s'.ctx.cCompleteReady = s.ctx.cCompleteReady)
    (hpend : s'.ctx.pWdfRequest = s.ctx.pWdfRequest) : Credits role earned s' where
  toBalanced := h.toBalanced.of_eq (by rw [hfx]) hready hpend
  idle := by
    intro request hrequest hcancel
    rw [hpend] at hrequest
    rw [hfx] at hcancel
    rw [hready]
    exact h.idle request hrequest hcancel

theorem Balanced.completed_failed (h : Balanced role earned s) (hhr : succeeded hr = false)
    (cbSize : ℕ) : Credits role earned (completed request hr cbSize s) where
  balance := by
    have hnot : reportsCredit role
        ⟨request.id, hr, cbSize, request.outputBuffer.take cbSize⟩ = false :=
      reportsCredit_of_failed hhr
    simpa [completed, reportedCredits, Framework.completeWithInformation, hnot]
      using h.balance
  only := by
    intro completion hmem hsuccess
    simp only [completed, Framework.completeWithInformation, List.mem_append,
      List.mem_singleton] at hmem
    rcases hmem with hold | rfl
    · exact h.only completion hold hsuccess
    · simp [hhr] at hsuccess
  memory := by simp [completed]
  idle := noIdleCredit_of_none rfl

theorem Balanced.completed_reported (h : Balanced role earned s) {cbSize : ℕ}
    (hreport : reportsCredit role
      ⟨request.id, hr, cbSize, request.outputBuffer.take cbSize⟩ = true) :
    Credits role (earned + 1) (completed request hr cbSize s) where
  balance := by
    have hbalance := h.balance
    simp only [reportedCredits] at hbalance
    simp only [completed, reportedCredits, Framework.completeWithInformation,
      List.countP_append, List.countP_singleton, hreport, if_true]
    omega
  only := by
    intro completion hmem hsuccess
    simp only [completed, Framework.completeWithInformation, List.mem_append,
      List.mem_singleton] at hmem
    rcases hmem with hold | rfl
    · exact h.only completion hold hsuccess
    · exact hreport
  memory := by simp [completed]
  idle := noIdleCredit_of_none rfl

theorem Balanced.addCredit (h : Balanced role earned s) :
    Balanced role (earned + 1) (addCredit s) where
  balance := by
    have hbalance := h.balance
    simp only [Nfp.addCredit, hbalance]
    omega
  only := h.only
  memory := h.memory

theorem Balanced.spendCredit (h : Balanced role (earned + 1) s)
    (hready : 0 < s.ctx.cCompleteReady) : Balanced role earned (spendCredit s)
    where
  balance := by
    have hbalance := h.balance
    simp only [Nfp.spendCredit, reportedCredits] at hbalance ⊢
    omega
  only := h.only
  memory := h.memory

/-! ## The critical sections -/

theorem Credits.completeRequest_failed (h : Credits role earned s) (hhr : succeeded hr = false)
    (cbSize : ℕ) (fIsCancelable : Bool) :
    Credits role earned (completeRequest hr cbSize fIsCancelable s).1 := by
  cases hpend : s.ctx.pWdfRequest with
  | none =>
      rw [completeRequest_of_none hpend]
      exact h
  | some request =>
      cases fIsCancelable with
      | false =>
          rw [completeRequest_of_some hpend]
          exact h.toBalanced.completed_failed hhr cbSize
      | true =>
          by_cases hcancel : request.id ∈ s.fx.cancelled
          · rw [completeRequest_of_cancelled hpend hcancel]
            exact h
          · rw [completeRequest_of_not_cancelled hpend hcancel]
            exact h.toBalanced.completed_failed hhr cbSize

/-- Offering an event to the pended request leaves no request waiting on an
available credit. -/
theorem Balanced.completeOneEvent (h : Balanced role earned s)
    (hflags : eventFlags role = some flags) : Credits role earned (completeOneEvent flags s) := by
  unfold Nfp.completeOneEvent
  split
  case isFalse hnot =>
    refine ⟨h, ?_⟩
    intro request hrequest _
    have hpend : s.ctx.pWdfRequest = some request := hrequest
    simp only [hpend, Option.isSome_some, and_true] at hnot
    omega
  case isTrue hready =>
    obtain ⟨hready, hsome⟩ := hready
    obtain ⟨request, hpend⟩ := Option.isSome_iff_exists.mp hsome
    have hmemory := h.memory request hpend
    have hattempt := completeOne_attempt (dwordBytes flags) hpend
    simp only [dwordBytes_length] at hattempt
    dsimp only
    generalize completeOneGetNextSubscribedMessage 4
      (some (dwordBytes flags)) s = result at hattempt
    cases hattempt with
    | noMemory hnone => simp [hnone] at hmemory
    | @cancelled request' size _ hcancel hid hmem _ =>
        refine ⟨⟨h.balance, h.only, by simpa [written] using hmem⟩, ?_⟩
        simp [NoIdleCredit, written, hid, hcancel]
    | shortBuffer _ _ _ _ hhr => exact h.completed_failed hhr _
    | @delivered request' _ _ _ hid htake =>
        have hreported := h.completed_reported (reportsCredit_event hflags rfl htake)
        have hkept : Balanced role (earned + 1)
            (completed request' sOk (4 + (dwordBytes flags).length)
              (written request' (s.ctx.dwQueueSize - 1) s)) :=
          hreported.toBalanced.of_eq rfl rfl rfl
        exact ⟨hkept.spendCredit hready, noIdleCredit_of_none rfl⟩

theorem Credits.handleEvent (h : Credits role earned s) (hflags : eventFlags role = some flags) :
    Credits role (if s.ctx.fEnabled then earned + 1 else earned)
      (handleEvent (completeOneEvent flags) s) := by
  unfold Nfp.handleEvent
  split
  case isTrue => exact h.toBalanced.addCredit.completeOneEvent hflags
  case isFalse => exact h

theorem Credits.handleMessageTransmitted (h : Credits .publication earned s) :
    Credits .publication (earned + 1) (handleMessageTransmitted s) := by
  cases hpend : s.ctx.pWdfRequest with
  | none =>
      simp only [Nfp.handleMessageTransmitted, completeRequest_of_none hpend,
        Bool.false_eq_true, if_false]
      exact ⟨h.toBalanced.addCredit, noIdleCredit_of_none hpend⟩
  | some request =>
      by_cases hcancel : request.id ∈ s.fx.cancelled
      · simp only [Nfp.handleMessageTransmitted,
          completeRequest_of_cancelled hpend hcancel, Bool.false_eq_true, if_false]
        refine ⟨h.toBalanced.addCredit, ?_⟩
        intro other hother hnot
        have heq : request = other := by
          simpa [Nfp.addCredit, hpend] using hother
        exact absurd (heq ▸ hcancel) hnot
      · simp only [Nfp.handleMessageTransmitted,
          completeRequest_of_not_cancelled hpend hcancel, if_true]
        exact h.toBalanced.completed_reported rfl

theorem Credits.pendAndDeliver (h : Credits role earned s)
    (hflags : eventFlags role = some flags) (hmemory : request.outputMemory.isSome = true) :
    Credits role earned (pendAndDeliver (completeOneEvent flags) timing request s) := by
  have hpended : ∀ fx : Framework, fx.completions = s.fx.completions →
      Balanced role earned (pend request { s with fx := fx }) := by
    intro fx hfx
    refine ⟨?_, ?_, ?_⟩
    · simpa [pend, reportedCredits, hfx] using h.balance
    · simpa [pend, hfx] using h.only
    · simpa [pend] using hmemory
  cases timing with
  | never =>
      rw [pendAndDeliver_never]
      exact (hpended s.fx rfl).completeOneEvent hflags
  | before =>
      have hearly : Balanced role earned { s with fx := s.fx.cancelledEarly request.id } :=
        h.toBalanced.of_eq rfl rfl rfl
      rw [pendAndDeliver_before]
      exact hearly.completed_failed succeeded_eAbort 0
  | during =>
      rw [pendAndDeliver_during]
      exact (hpended (s.fx.cancel request.id) rfl).completeOneEvent hflags

theorem Credits.takeCredit (h : Credits .publication earned s)
    (hmemory : request.outputMemory.isSome = true) : Credits .publication earned
      (markCancelable timing (takeCredit (pend request s))) := by
  rw [takeCredit_pend]
  split
  case isTrue hready =>
    have hmark : markCancelable timing (completed request sOk 0 (Nfp.spendCredit s)) =
        completed request sOk 0 (Nfp.spendCredit s) := by
      simp [markCancelable, completed]
    rw [hmark]
    have hreported : Credits .publication (earned + 1) (completed request sOk 0 s) :=
      h.toBalanced.completed_reported rfl
    exact ⟨hreported.toBalanced.spendCredit hready, noIdleCredit_of_none rfl⟩
  case isFalse hready =>
    have hpended : Balanced .publication earned (pend request s) :=
      ⟨h.balance, h.only, by simpa [pend] using hmemory⟩
    have hzero : (pend request s).ctx.cCompleteReady = 0 := by
      simpa [pend] using hready
    have hmark : markCancelable timing (pend request s) =
        Nfp.pendAndDeliver id timing request s := by
      simp [Nfp.pendAndDeliver]
    rw [hmark]
    cases timing with
    | never =>
        rw [pendAndDeliver_never]
        exact ⟨hpended, fun _ _ _ => hzero⟩
    | before =>
        have hearly : Balanced .publication earned
            { s with fx := s.fx.cancelledEarly request.id } := h.toBalanced.of_eq rfl rfl rfl
        rw [pendAndDeliver_before]
        exact hearly.completed_failed succeeded_eAbort 0
    | during =>
        rw [pendAndDeliver_during]
        exact ⟨hpended.of_eq rfl rfl rfl, fun _ _ _ => hzero⟩

theorem Credits.disable (h : Credits role earned s) : Credits role earned (disable s).1 := by
  unfold Nfp.disable
  dsimp only
  split
  case isFalse => exact h
  case isTrue =>
    have hoff : Credits role earned { s with ctx := { s.ctx with fEnabled := false } } :=
      h.of_eq rfl rfl rfl
    exact (hoff.completeRequest_failed succeeded_statusCancelled 0 true).of_eq rfl rfl rfl

theorem Credits.enable (h : Credits role earned s) : Credits role earned (enable s).1 := by
  unfold Nfp.enable
  dsimp only
  split
  case isTrue => exact h.of_eq rfl rfl rfl
  case isFalse => exact h

theorem Credits.destroy (h : Credits role earned s) : Credits role earned (destroy s) := by
  have hpurged : Credits role earned
      { s with ctx := { s.ctx with subscribedMessageQueue := [] } } := h.of_eq rfl rfl rfl
  exact hpurged.completeRequest_failed succeeded_eAbort 0 true

theorem Credits.complete (h : Credits role earned s) (hhr : succeeded hr = false) (id : ℕ) :
    Credits role earned { s with fx := s.fx.complete id hr } := by
  have hnot : reportsCredit role ⟨id, hr, 0, []⟩ = false := reportsCredit_of_failed hhr
  refine ⟨⟨?_, ?_, h.memory⟩, h.idle⟩
  · simpa [reportedCredits, Framework.complete, hnot] using h.balance
  · intro completion hmem hsuccess
    simp only [Framework.complete, List.mem_append, List.mem_singleton] at hmem
    rcases hmem with hold | rfl
    · exact h.only completion hold hsuccess
    · simp [hhr] at hsuccess

end

/-! ## Runs -/

/-- The requests of a run have output memory. -/
def HasOutput (_ : FileRun) : FileAction → Prop
  | .getNextSubscribed _ request => request.outputMemory.isSome = true
  | .getNextTransmitted _ request => request.outputMemory.isSome = true
  | _ => True

instance (t : FileRun) : (a : FileAction) → Decidable (HasOutput t a)
  | .getNextSubscribed _ _ => inferInstanceAs (Decidable (_ = true))
  | .getNextTransmitted _ _ => inferInstanceAs (Decidable (_ = true))
  | .completeFailed _ _ => inferInstanceAs (Decidable True)
  | .cancel => inferInstanceAs (Decidable True)
  | .onCancel _ => inferInstanceAs (Decidable True)
  | .disable => inferInstanceAs (Decidable True)
  | .enable => inferInstanceAs (Decidable True)
  | .receive _ _ _ => inferInstanceAs (Decidable True)
  | .messageTransmitted => inferInstanceAs (Decidable True)
  | .arrivalEvent => inferInstanceAs (Decidable True)
  | .removalEvent => inferInstanceAs (Decidable True)
  | .closeFile => inferInstanceAs (Decidable True)

/-- The roles that keep credits. -/
def KeepsCredit (role : Role) : Prop :=
  role = .publication ∨ role = .arrivedSubscription ∨
    role = .departedSubscription

theorem credits_create (role : Role) (pszType : Option (List WCHAR)) :
    Credits role ((FileRun.create role pszType).earned role)
      (FileRun.create role pszType).file := by
  refine ⟨⟨?_, ?_, ?_⟩, ?_⟩
  · cases role <;> rfl
  · simp [FileRun.create, FileState.create]
  · simp [FileRun.create, FileState.create, CFileContext.create]
  · exact noIdleCredit_of_none rfl

theorem earned_eq (role : Role) (htransmitted : u.transmitted = t.transmitted)
    (hevents : u.events = t.events) : u.earned role = t.earned role := by
  cases role <;> simp [FileRun.earned, htransmitted, hevents]

theorem eventFlags_of_deliverFor {deliver : FileState → FileState} (hrole : KeepsCredit role)
    (h : deliverFor role = some deliver) : ∃ flags, eventFlags role = some flags ∧
      deliver = completeOneEvent flags := by
  rcases hrole with rfl | rfl | rfl
  · simp [deliverFor] at h
  · simp only [deliverFor, Option.some.injEq] at h
    exact ⟨1, rfl, h.symm⟩
  · simp only [deliverFor, Option.some.injEq] at h
    exact ⟨0, rfl, h.symm⟩

theorem credits_step {a : FileAction} (hrole : KeepsCredit role) (hledger : Ledger role t)
    (h : Credits role (t.earned role) t.file) (hout : HasOutput t a) (hstep : FileStepTo t a u) :
    Credits role (u.earned role) u.file := by
  cases hstep with
  | completeFailed hmem =>
      rw [earned_eq role rfl rfl]
      exact h.complete (hledger.returned _ hmem) _
  | onCancel =>
      rw [earned_eq role rfl rfl]
      have hcalled : Credits role (t.earned role) (onCancel t.file) :=
        h.completeRequest_failed succeeded_eAbort 0 false
      exact ⟨hcalled.toBalanced.of_eq rfl rfl rfl, noIdleCredit_of_none (onCancel_notPended t.file)⟩
  | inOpen _ hopen =>
      cases hopen with
      | @getNextSubscribed timing request result hfresh hcall =>
          rw [earned_eq role rfl rfl]
          rcases getNextSubscribedMessage_cases hcall with
            ⟨hstay, -⟩ | ⟨deliver, hdeliver, -, -, -, rfl⟩
          · rw [handled, hstay]
            exact h
          · rw [hledger.role] at hdeliver
            obtain ⟨flags, hflags, rfl⟩ := eventFlags_of_deliverFor hrole hdeliver
            exact h.pendAndDeliver hflags hout
      | @getNextTransmitted timing request result hfresh hcall =>
          rw [earned_eq role rfl rfl]
          rcases getNextTransmittedMessage_cases hcall with
            ⟨hstay, -⟩ | ⟨hpub, -, -, rfl⟩
          · rw [handled, hstay]
            exact h
          · rw [hledger.role] at hpub
            subst hpub
            exact h.takeCredit hout
      | @cancel request hpend hcancel =>
          rw [earned_eq role rfl rfl]
          refine ⟨h.toBalanced.of_eq rfl rfl rfl, ?_⟩
          intro other hother hnot
          exact h.idle other hother fun hold => hnot (List.mem_cons_of_mem _ hold)
      | disable =>
          rw [earned_eq role rfl rfl]
          exact h.disable
      | enable =>
          rw [earned_eq role rfl rfl]
          exact h.enable
      | receive hsub =>
          rw [hledger.role] at hsub
          simp [KeepsCredit, hsub] at hrole
      | messageTransmitted hpub =>
          rw [hledger.role] at hpub
          subst hpub
          exact h.handleMessageTransmitted
      | arrivalEvent harrived =>
          rw [hledger.role] at harrived
          subst harrived
          exact h.handleEvent rfl
      | removalEvent hdeparted =>
          rw [hledger.role] at hdeparted
          subst hdeparted
          exact h.handleEvent rfl
      | closeFile =>
          rw [earned_eq role rfl rfl]
          exact h.destroy

end MiscProjects.Nfp
