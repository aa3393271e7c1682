import MiscProjects.Nfp.FileRun
import Mathlib.Data.List.Perm.Basic
import Mathlib.Data.List.Nodup

/-!
# The life of a request

Every request presented to the I/O-control handler is in exactly one of three
places: completed, returned to the handler with a failure, or pended in the
context.  `Ledger` states this as a permutation of the presented requests,
together with the fact that the only cancel callback the framework can still
owe is the one of the pended request.

`Settles` is what the critical sections other than the two `GetNext` functions
and the cancel callback have in common: they move at most the pended request,
and only if it is not being cancelled.
-/

namespace MiscProjects.Nfp

open MiscProjects.Runs

/-- The requests that have been completed, in order. -/
def completedIds (fx : Framework) : List ℕ := fx.completions.map (·.request)

/-- The request pended in a context, as a list of at most one. -/
def pendedIds (ctx : CFileContext) : List ℕ :=
  ctx.pWdfRequest.toList.map (·.id)

/-- The requests that the handler has still to complete itself. -/
def returnedIds (t : FileRun) : List ℕ := t.returned.map (·.1)

/-- The pended request, if the framework is cancelling it. -/
def beingCancelled (s : FileState) : List ℕ :=
  (pendedIds s.ctx).filter (· ∈ s.fx.cancelled)

theorem pendedIds_length_le_one (ctx : CFileContext) : (pendedIds ctx).length ≤ 1 := by
  cases h : ctx.pWdfRequest <;> simp [pendedIds, h]

@[simp] theorem completedIds_completeWithInformation
    (request : IWDFIoRequest) (hr : HRESULT) (cbSize : ℕ) (fx : Framework) :
    completedIds (fx.completeWithInformation request hr cbSize) =
      completedIds fx ++ [request.id] := by
  simp [completedIds, Framework.completeWithInformation]

@[simp] theorem completedIds_complete (id : ℕ) (hr : HRESULT) (fx : Framework) :
    completedIds (fx.complete id hr) = completedIds fx ++ [id] := by
  simp [completedIds, Framework.complete]

/-! ## Sections that settle the pended request -/

/-- From `s` to `s'` at most the pended request has been completed, and not if
it was being cancelled. -/
structure Settles (s s' : FileState) : Prop where
  ledger : (completedIds s'.fx ++ pendedIds s'.ctx).Perm
    (completedIds s.fx ++ pendedIds s.ctx)
  cancelled : s'.fx.cancelled = s.fx.cancelled
  due : s'.fx.due = s.fx.due
  owed : beingCancelled s' = beingCancelled s
  role : s'.ctx.role = s.ctx.role

theorem Settles.refl (s : FileState) : Settles s s := ⟨.refl _, rfl, rfl, rfl, rfl⟩

theorem Settles.trans {s₁ s₂ s₃ : FileState}
    (h₁₂ : Settles s₁ s₂) (h₂₃ : Settles s₂ s₃) : Settles s₁ s₃ where
  ledger := h₂₃.ledger.trans h₁₂.ledger
  cancelled := h₂₃.cancelled.trans h₁₂.cancelled
  due := h₂₃.due.trans h₁₂.due
  owed := h₂₃.owed.trans h₁₂.owed
  role := h₂₃.role.trans h₁₂.role

variable {hr : HRESULT} {s : FileState} {t u : FileRun} {request : IWDFIoRequest} {cbSize id : ℕ}
  {deliver : FileState → FileState} {timing : CancelTiming}

theorem settles_of_pendedIds_eq {s' : FileState}
    (hfx : s'.fx = s.fx) (hpend : pendedIds s'.ctx = pendedIds s.ctx)
    (hrole : s'.ctx.role = s.ctx.role) : Settles s s' where
  ledger := by rw [hfx, hpend]
  cancelled := by rw [hfx]
  due := by rw [hfx]
  owed := by simp [beingCancelled, hfx, hpend]
  role := hrole

theorem settles_completed {request' : IWDFIoRequest} (hpend : s.ctx.pWdfRequest = some request)
    (hcancel : request.id ∉ s.fx.cancelled) (hid : request'.id = request.id) :
    Settles s (completed request' hr cbSize s) where
  ledger := by simp [completed, pendedIds, hpend, hid]
  cancelled := rfl
  due := rfl
  owed := by simp [beingCancelled, completed, pendedIds, hpend, hcancel]
  role := rfl

theorem completeRequest_settles (hr : HRESULT) (cbSize : ℕ) (s : FileState) :
    Settles s (completeRequest hr cbSize true s).1 := by
  cases hpend : s.ctx.pWdfRequest with
  | none =>
      rw [completeRequest_of_none hpend]
      exact Settles.refl s
  | some request =>
      by_cases hcancel : request.id ∈ s.fx.cancelled
      · rw [completeRequest_of_cancelled hpend hcancel]
        exact Settles.refl s
      · rw [completeRequest_of_not_cancelled hpend hcancel]
        exact settles_completed hpend hcancel rfl

theorem Attempt.settles {payload : List UInt8}
    {result : FileState × Bool} (hpend : s.ctx.pWdfRequest = some request)
    (h : Attempt payload request s result) : Settles s result.1 := by
  cases h with
  | noMemory => exact Settles.refl s
  | cancelled _ _ hid =>
      exact settles_of_pendedIds_eq rfl (by simp [pendedIds, written, hpend, hid]) rfl
  | shortBuffer _ hcancel _ hid => exact settles_completed hpend hcancel hid
  | @delivered request' hmem hcancel hfit hid htake =>
      have hwritten : Settles s (written request' (s.ctx.dwQueueSize - 1) s) :=
        settles_of_pendedIds_eq rfl (by simp [pendedIds, written, hpend, hid]) rfl
      exact hwritten.trans (settles_completed rfl (by simpa [written, hid] using hcancel) rfl)

theorem completeOneEvent_settles (flags : ℕ) (s : FileState) :
    Settles s (completeOneEvent flags s) := by
  unfold completeOneEvent
  split
  case isFalse => exact Settles.refl s
  case isTrue hready =>
    obtain ⟨request, hpend⟩ := Option.isSome_iff_exists.mp hready.2
    have hattempt := (completeOne_attempt (dwordBytes flags) hpend).settles hpend
    simp only [dwordBytes_length] at hattempt
    dsimp only
    split
    case isTrue =>
      exact hattempt.trans (settles_of_pendedIds_eq rfl rfl rfl)
    case isFalse => exact hattempt

theorem deliverHead_settles (s : FileState) : Settles s (deliverHead s) := by
  cases hpend : s.ctx.pWdfRequest with
  | none =>
      have hstay : ∀ n payload, completeOneGetNextSubscribedMessage n payload s = (s, false) := by
        intro n payload
        simp [completeOneGetNextSubscribedMessage, hpend]
      unfold deliverHead
      split
      case h_1 => exact Settles.refl s
      case h_2 => simpa [hstay] using Settles.refl s
  | some request =>
      unfold deliverHead
      split
      case h_1 => exact Settles.refl s
      case h_2 payload rest hqueue =>
        have hattempt := (completeOne_attempt payload hpend).settles hpend
        dsimp only
        split
        case isTrue =>
          exact hattempt.trans (settles_of_pendedIds_eq rfl rfl rfl)
        case isFalse => exact hattempt

theorem deliverFor_settles {role : Role} (h : deliverFor role = some deliver) (s : FileState) :
    Settles s (deliver s) := by
  cases role <;> simp only [deliverFor, Option.some.injEq, reduceCtorEq] at h
  case subscription => exact h ▸ deliverHead_settles s
  case arrivedSubscription => exact h ▸ completeOneEvent_settles 1 s
  case departedSubscription => exact h ▸ completeOneEvent_settles 0 s

theorem offerPended_settles (pbPayload : List UInt8) (s : FileState) :
    Settles s (offerPended pbPayload s).1 := by
  unfold offerPended
  split
  case isFalse => exact Settles.refl s
  case isTrue hsome =>
    obtain ⟨request, hpend⟩ := Option.isSome_iff_exists.mp hsome
    exact (completeOne_attempt pbPayload hpend).settles hpend

theorem enqueue_settles (env : ReceiveEnv) (pbPayload : List UInt8) (s : FileState) :
    Settles s (enqueue env pbPayload s).1 := by
  unfold enqueue
  split
  case isFalse => exact Settles.refl s
  case isTrue =>
    split
    case isTrue => exact settles_of_pendedIds_eq rfl rfl rfl
    case isFalse => exact Settles.refl s

theorem deliverOrQueue_settles (env : ReceiveEnv) (pbPayload : List UInt8) (s : FileState) :
    Settles s (deliverOrQueue env pbPayload s).1 := by
  have hoffer := offerPended_settles pbPayload s
  unfold deliverOrQueue
  dsimp only
  split
  case isTrue => exact hoffer
  case isFalse => exact hoffer.trans (enqueue_settles env pbPayload _)

theorem handleReceivedPublication_settles (env : ReceiveEnv) (pszType : List WCHAR)
    (pbPayload : List UInt8) (s : FileState) :
    Settles s (handleReceivedPublication env pszType pbPayload s).1 := by
  unfold handleReceivedPublication
  split
  case isFalse => exact Settles.refl s
  case isTrue =>
    split
    case h_1 => exact Settles.refl s
    case h_2 => exact Settles.refl s
    case h_3 payload _ => exact deliverOrQueue_settles env payload s

theorem handleEvent_settles (flags : ℕ) (s : FileState) :
    Settles s (handleEvent (completeOneEvent flags) s) := by
  unfold handleEvent
  split
  case isFalse => exact Settles.refl s
  case isTrue =>
    have hcredit : Settles s (addCredit s) := settles_of_pendedIds_eq rfl rfl rfl
    exact hcredit.trans (completeOneEvent_settles flags _)

theorem handleMessageTransmitted_settles (s : FileState) :
    Settles s (handleMessageTransmitted s) := by
  have hcomplete := completeRequest_settles sOk 0 s
  unfold handleMessageTransmitted
  dsimp only
  split
  case isTrue => exact hcomplete
  case isFalse => exact hcomplete.trans (settles_of_pendedIds_eq rfl rfl rfl)

theorem disable_settles (s : FileState) : Settles s (disable s).1 := by
  unfold disable
  dsimp only
  split
  case isFalse => exact Settles.refl s
  case isTrue =>
    have hoff : Settles s { s with ctx := { s.ctx with fEnabled := false } } :=
      settles_of_pendedIds_eq rfl rfl rfl
    exact (hoff.trans (completeRequest_settles _ 0 _)).trans (settles_of_pendedIds_eq rfl rfl rfl)

theorem enable_settles (s : FileState) : Settles s (enable s).1 := by
  unfold enable
  dsimp only
  split
  case isTrue => exact settles_of_pendedIds_eq rfl rfl rfl
  case isFalse => exact Settles.refl s

theorem destroy_settles (s : FileState) : Settles s (destroy s) := by
  have hpurge : Settles s { s with ctx := { s.ctx with subscribedMessageQueue := [] } } :=
    settles_of_pendedIds_eq rfl rfl rfl
  exact hpurge.trans (completeRequest_settles eAbort 0 _)

/-! ## The ledger -/

variable {role : Role}

/-- Every presented request is completed, returned to the handler or pended,
and the only callback the framework owes is that of the pended request. -/
structure Ledger (role : Role) (t : FileRun) : Prop where
  role : t.file.ctx.role = role
  nodup : t.presented.Nodup
  perm : (completedIds t.file.fx ++ pendedIds t.file.ctx ++ returnedIds t).Perm
    t.presented
  cancelled : ∀ id ∈ t.file.fx.cancelled, id ∈ t.presented
  due : t.file.fx.due = beingCancelled t.file
  returned : ∀ entry ∈ t.returned, succeeded entry.2 = false

theorem ledger_create (role : Role) (pszType : Option (List WCHAR)) :
    Ledger role (FileRun.create role pszType) where
  role := rfl
  nodup := by simp [FileRun.create]
  perm := by
    simp [FileRun.create, FileState.create, CFileContext.create, completedIds,
      pendedIds, returnedIds]
  cancelled := by simp [FileRun.create, FileState.create]
  due := by
    simp [FileRun.create, FileState.create, CFileContext.create, beingCancelled, pendedIds]
  returned := by simp [FileRun.create]

theorem Ledger.settle (ht : Ledger role t)
    (hsettle : Settles t.file u.file) (hpresented : u.presented = t.presented)
    (hreturned : u.returned = t.returned) : Ledger role u where
  role := hsettle.role.trans ht.role
  nodup := hpresented ▸ ht.nodup
  perm := by
    have hids : returnedIds u = returnedIds t := by
      simp [returnedIds, hreturned]
    rw [hpresented, hids]
    exact (hsettle.ledger.append_right _).trans ht.perm
  cancelled := by
    rw [hsettle.cancelled, hpresented]
    exact ht.cancelled
  due := by rw [hsettle.due, hsettle.owed, ht.due]
  returned := hreturned ▸ ht.returned

theorem Ledger.due_nil (ht : Ledger role t)
    (hpend : t.file.ctx.pWdfRequest = none) : t.file.fx.due = [] := by
  simp [ht.due, beingCancelled, pendedIds, hpend]

theorem Ledger.fresh (ht : Ledger role t) (hfresh : id ∉ t.presented) : id ∉ t.file.fx.cancelled :=
  fun h => hfresh (ht.cancelled id h)

theorem Ledger.refuse (ht : Ledger role t) {result : FileState × HRESULT}
    (hfresh : request.id ∉ t.presented) (hstay : result.1 = t.file)
    (hhr : succeeded result.2 = false) : Ledger role (handled request result t) where
  role := by simpa [handled, hstay] using ht.role
  nodup := by simp [handled, hfresh, ht.nodup]
  perm := by
    simp only [handled, hstay, hhr, returnedIds, List.map_cons, Bool.false_eq_true, if_false]
    exact List.perm_middle.trans (ht.perm.cons _)
  cancelled := by
    intro id hid
    simp only [handled, hstay] at hid ⊢
    exact List.mem_cons_of_mem _ (ht.cancelled id hid)
  due := by simpa [handled, hstay] using ht.due
  returned := by
    intro entry hentry
    simp only [handled, hhr, Bool.false_eq_true, if_false, List.mem_cons] at hentry
    rcases hentry with rfl | hentry
    · exact hhr
    · exact ht.returned entry hentry

/-- The run state in which `request` has just been presented and pended. -/
def presentPended (request : IWDFIoRequest) (t : FileRun) : FileRun :=
  { t with
    file := pend request t.file,
    presented := request.id :: t.presented }

theorem Ledger.pend (ht : Ledger role t) (hfresh : request.id ∉ t.presented)
    (hidle : t.file.ctx.pWdfRequest = none) : Ledger role (presentPended request t) where
  role := ht.role
  nodup := by simp [presentPended, hfresh, ht.nodup]
  perm := by
    have hperm := ht.perm.cons request.id
    simp only [pendedIds, hidle, Option.toList_none, List.map_nil, List.append_nil] at hperm
    simpa [presentPended, returnedIds, pendedIds, Nfp.pend] using List.perm_middle.trans hperm
  cancelled := by
    intro id hid
    exact List.mem_cons_of_mem _ (ht.cancelled id hid)
  due := by
    have hnot := ht.fresh hfresh
    simp [presentPended, Nfp.pend, ht.due_nil hidle, beingCancelled, pendedIds, hnot]
  returned := ht.returned

theorem Ledger.cancel (ht : Ledger role t) (hpend : t.file.ctx.pWdfRequest = some request)
    (hcancel : request.id ∉ t.file.fx.cancelled) : Ledger role { t with file :=
      { t.file with fx := t.file.fx.cancel request.id } } where
  role := ht.role
  nodup := ht.nodup
  perm := ht.perm
  cancelled := by
    intro id hid
    simp only [Framework.cancel, List.mem_cons] at hid
    rcases hid with rfl | hid
    · apply ht.perm.subset
      simp [pendedIds, hpend]
    · exact ht.cancelled id hid
  due := by
    have hdue := ht.due
    simp only [beingCancelled, pendedIds, hpend] at hdue
    simp [Framework.cancel, beingCancelled, pendedIds, hpend, hdue, hcancel]
  returned := ht.returned

/-- Completing the pended request without unmarking it, as the cancel callback
does, keeps the ledger if no callback is owed any more. -/
theorem Ledger.complete (ht : Ledger role t) (due cancelled : List ℕ)
    (hpend : t.file.ctx.pWdfRequest = some request) (hdue : due = [])
    (hcancelled : ∀ id ∈ cancelled, id = request.id ∨ id ∈ t.file.fx.cancelled) :
    Ledger role { t with file :=
      { completed request hr cbSize t.file with
        fx := { (completed request hr cbSize t.file).fx with
          due := due, cancelled := cancelled } } } where
  role := ht.role
  nodup := ht.nodup
  perm := by
    have hperm := ht.perm
    simp only [pendedIds, hpend] at hperm
    simpa [completed, pendedIds, completedIds,
      Framework.completeWithInformation, returnedIds] using hperm
  cancelled := by
    intro id hid
    rcases hcancelled id hid with rfl | hid
    · apply ht.perm.subset
      simp [pendedIds, hpend]
    · exact ht.cancelled id hid
  due := by simp [beingCancelled, pendedIds, completed, hdue]
  returned := ht.returned

theorem Ledger.pendAndDeliver (ht : Ledger role t) (hfresh : request.id ∉ t.presented)
    (hidle : t.file.ctx.pWdfRequest = none) (hsettle : ∀ s, Settles s (deliver s)) : Ledger role
      (handled request (Nfp.pendAndDeliver deliver timing request t.file, sOk) t) := by
  have hpended := ht.pend hfresh hidle
  rw [handled_sOk]
  cases timing with
  | never =>
      rw [pendAndDeliver_never]
      exact hpended.settle (hsettle _) rfl rfl
  | before =>
      rw [pendAndDeliver_before]
      exact hpended.complete t.file.fx.due
        (request.id :: t.file.fx.cancelled) rfl (ht.due_nil hidle)
        (by simp [presentPended, Nfp.pend])
  | during =>
      rw [pendAndDeliver_during]
      have hcancelled := hpended.cancel rfl (ht.fresh hfresh)
      exact hcancelled.settle (hsettle _) rfl rfl

/-- A transmission request is a pended request that is first offered a credit
and marked afterwards. -/
theorem Ledger.getNextTransmitted (ht : Ledger role t) (hfresh : request.id ∉ t.presented)
    (hidle : t.file.ctx.pWdfRequest = none) : Ledger role (handled request
        (markCancelable timing (takeCredit (Nfp.pend request t.file)), sOk) t) := by
  rw [handled_sOk, takeCredit_pend]
  split
  case isTrue =>
    have hmark : markCancelable timing (completed request sOk 0 (spendCredit t.file)) =
        completed request sOk 0 (spendCredit t.file) := by
      simp [markCancelable, completed]
    rw [hmark]
    have hpended := ht.pend hfresh hidle
    have hspent := hpended.settle (u := { presentPended request t with
        file := spendCredit (Nfp.pend request t.file) })
      (settles_of_pendedIds_eq rfl rfl rfl) rfl rfl
    exact hspent.complete t.file.fx.due t.file.fx.cancelled rfl (ht.due_nil hidle) (fun _ => Or.inr)
  case isFalse =>
    have hmark : markCancelable timing (Nfp.pend request t.file) =
        Nfp.pendAndDeliver id timing request t.file := by
      simp [Nfp.pendAndDeliver]
    rw [hmark, ← handled_sOk]
    exact ht.pendAndDeliver hfresh hidle Settles.refl

theorem Ledger.completeFailed (ht : Ledger role t) (hmem : (id, hr) ∈ t.returned) :
    Ledger role { t with
      file := { t.file with fx := t.file.fx.complete id hr },
      returned := t.returned.erase (id, hr) } where
  role := ht.role
  nodup := ht.nodup
  perm := by
    have hreturned : (returnedIds t).Perm
        (id :: (t.returned.erase (id, hr)).map (·.1)) :=
      (List.perm_cons_erase hmem).map _
    refine .trans ?_ ht.perm
    simp only [completedIds_complete, returnedIds, List.append_assoc]
    refine .append_left _ (.trans ?_ (hreturned.symm.append_left _))
    rw [List.singleton_append]
    exact List.perm_middle.symm
  cancelled := ht.cancelled
  due := ht.due
  returned := fun entry hentry =>
    ht.returned entry (List.mem_of_mem_erase hentry)

theorem Ledger.pended_of_due (ht : Ledger role t) (hid : id ∈ t.file.fx.due) :
    ∃ request, t.file.ctx.pWdfRequest = some request ∧ request.id = id ∧ t.file.fx.due = [id] := by
  cases hpend : t.file.ctx.pWdfRequest with
  | none => simp [ht.due_nil hpend] at hid
  | some request =>
      have hdue := ht.due
      simp only [beingCancelled, pendedIds, hpend, Option.toList_some,
        List.map_cons, List.map_nil] at hdue
      rw [hdue] at hid
      have heq : request.id = id := by
        have hmem := List.mem_of_mem_filter hid
        exact (List.mem_singleton.mp hmem).symm
      have hcancel : request.id ∈ t.file.fx.cancelled := by
        rw [heq]
        simpa using (List.mem_filter.mp hid).2
      exact ⟨request, rfl, heq, by simp [hdue, hcancel, ← heq]⟩

theorem Ledger.onCancel (ht : Ledger role t) (hid : id ∈ t.file.fx.due) :
    Ledger role { t with file :=
      { Nfp.onCancel t.file with fx := { (Nfp.onCancel t.file).fx with
          due := (Nfp.onCancel t.file).fx.due.erase id } } } := by
  obtain ⟨request, hpend, -, hdue⟩ := ht.pended_of_due hid
  have hcall : Nfp.onCancel t.file = completed request eAbort 0 t.file := by
    simp [Nfp.onCancel, completeRequest_of_some hpend]
  rw [hcall]
  exact ht.complete _ t.file.fx.cancelled hpend
    (by simp [completed, Framework.completeWithInformation, hdue]) (fun _ => Or.inr)

theorem Ledger.step {a : FileAction} (ht : Ledger role t)
    (h : FileStepTo t a u) : Ledger role u := by
  cases h with
  | completeFailed hmem => exact ht.completeFailed hmem
  | onCancel hid => exact ht.onCancel hid
  | inOpen _ hopen =>
      cases hopen with
      | getNextSubscribed hfresh hcall =>
          rcases getNextSubscribedMessage_cases hcall with
            ⟨hstay, hhr⟩ | ⟨deliver, hrole, hidle, -, -, rfl⟩
          · exact ht.refuse hfresh hstay hhr
          · exact ht.pendAndDeliver hfresh hidle (deliverFor_settles hrole)
      | getNextTransmitted hfresh hcall =>
          rcases getNextTransmittedMessage_cases hcall with
            ⟨hstay, hhr⟩ | ⟨-, hidle, -, rfl⟩
          · exact ht.refuse hfresh hstay hhr
          · exact ht.getNextTransmitted hfresh hidle
      | cancel hpend hcancel => exact ht.cancel hpend hcancel
      | disable => exact ht.settle (disable_settles _) rfl rfl
      | enable => exact ht.settle (enable_settles _) rfl rfl
      | receive =>
          exact ht.settle (handleReceivedPublication_settles _ _ _ _) rfl rfl
      | messageTransmitted =>
          exact ht.settle (handleMessageTransmitted_settles _) rfl rfl
      | arrivalEvent => exact ht.settle (handleEvent_settles 1 _) rfl rfl
      | removalEvent => exact ht.settle (handleEvent_settles 0 _) rfl rfl
      | closeFile => exact ht.settle (destroy_settles _) rfl rfl

theorem ledger_of_run {pszType : Option (List WCHAR)} {ok : FileRun → FileAction → Prop}
    {as : List FileAction} (hrun : RunsTo fileStep ok (FileRun.create role pszType) as t) :
    Ledger role t :=
  hrun.invariant (Ledger role) (ledger_create role pszType)
    fun _ _ _ ht _ hstep => ht.step (fileStepTo_of_fileStep hstep)

theorem Ledger.mem_of_presented (ht : Ledger role t) : id ∈ t.presented ↔
      id ∈ completedIds t.file.fx ∨ id ∈ pendedIds t.file.ctx ∨ id ∈ returnedIds t := by
  rw [← ht.perm.mem_iff]
  simp

/-- In every state of every run of a context of any role, no request has been
completed twice, a completed request is neither pended nor still to be
completed by the handler, at most one request is pended, a request that the
handler has not kept for itself is pended or completed, and a cancel callback
still owed is for the pended request. -/
theorem request_completed_at_most_once
    {pszType : Option (List WCHAR)} {as : List FileAction} {t : FileRun}
    (hrun : RunsTo fileStep Always (FileRun.create role pszType) as t) :
    (completedIds t.file.fx).Nodup ∧
      (∀ id ∈ completedIds t.file.fx,
        id ∉ pendedIds t.file.ctx ∧ id ∉ returnedIds t) ∧
      (pendedIds t.file.ctx).length ≤ 1 ∧
      (∀ id ∈ t.presented, id ∉ returnedIds t →
        id ∈ pendedIds t.file.ctx ∨ id ∈ completedIds t.file.fx) ∧
      (∀ id ∈ t.file.fx.due, pendedIds t.file.ctx = [id]) := by
  have ht := ledger_of_run hrun
  have hnodup := ht.perm.nodup_iff.mpr ht.nodup
  rw [List.append_assoc, List.nodup_append] at hnodup
  refine ⟨hnodup.1, ?_, pendedIds_length_le_one _, ?_, ?_⟩
  · intro id hid
    constructor
    · intro hpended
      exact hnodup.2.2 id hid id (by simp [hpended]) rfl
    · intro hreturned
      exact hnodup.2.2 id hid id (by simp [hreturned]) rfl
  · intro id hid hnot
    rcases ht.mem_of_presented.mp hid with hdone | hpended | hreturned
    · exact .inr hdone
    · exact .inl hpended
    · exact absurd hreturned hnot
  · intro id hid
    obtain ⟨request, hpend, heq, -⟩ := ht.pended_of_due hid
    simp [pendedIds, hpend, heq]

/-- A subscription whose first request is cancelled while it is being marked,
whose second waits and whose third is refused. -/
theorem request_completed_at_most_once_run :
    ∃ t, RunsTo fileStep Always (FileRun.create .subscription none)
        [.getNextSubscribed .during (readRequest 1 8), .onCancel 1,
         .getNextSubscribed .never (readRequest 2 8),
         .getNextSubscribed .never (readRequest 3 8)] t ∧
      (completedIds t.file.fx).Nodup ∧
      (∀ id ∈ completedIds t.file.fx,
        id ∉ pendedIds t.file.ctx ∧ id ∉ returnedIds t) ∧
      (pendedIds t.file.ctx).length ≤ 1 ∧
      (∀ id ∈ t.presented, id ∉ returnedIds t →
        id ∈ pendedIds t.file.ctx ∨ id ∈ completedIds t.file.fx) ∧
      (∀ id ∈ t.file.fx.due, pendedIds t.file.ctx = [id]) :=
  have hrun := RunsTo.of_isSome (by decide)
  ⟨_, hrun, request_completed_at_most_once hrun⟩

end MiscProjects.Nfp
