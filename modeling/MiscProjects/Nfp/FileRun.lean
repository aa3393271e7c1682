import MiscProjects.Library.Runs
import MiscProjects.Nfp.Attempt

/-!
# Runs of one file context

The steps of a run are the critical sections of `m_RoleLock`, one at a time, in
any order: the I/O-control handler's calls on behalf of the client, the events
that the rest of the driver raises, the cancel callback, and the destructor.
Two further steps belong to the surroundings: the client cancels the pended
request, and the handler completes a request for which the call has failed.

Besides the context the state keeps what the properties of a run speak of: the
requests presented to the handler, the matching publications received while
the context was enabled, and the number of events of each kind.
-/

namespace MiscProjects.Nfp

open MiscProjects.Runs

/-- A matching publication received while the context was enabled: its payload,
what became of it, the number of `Disable` calls that had succeeded before it,
and the size counter and the length of the queue when it had been handled. -/
structure Arrival where
  payload : List UInt8
  outcome : Outcome
  disablesBefore : ℕ
  dwQueueSize : ℕ
  queueLength : ℕ
deriving DecidableEq

/-- The state of a run.  `returned` lists the requests whose call has failed
and which the handler has still to complete; `closed` is set once the context
has been destroyed. -/
structure FileRun where
  file : FileState
  closed : Bool
  presented : List ℕ
  returned : List (ℕ × HRESULT)
  arrivals : List Arrival
  disables : ℕ
  transmitted : ℕ
  events : ℕ
deriving DecidableEq

def FileRun.create (role : Role) (pszType : Option (List WCHAR)) : FileRun where
  file := .create role pszType
  closed := false
  presented := []
  returned := []
  arrivals := []
  disables := 0
  transmitted := 0
  events := 0

inductive FileAction
  | getNextSubscribed (timing : CancelTiming) (request : IWDFIoRequest)
  | getNextTransmitted (timing : CancelTiming) (request : IWDFIoRequest)
  | completeFailed (id : ℕ) (hr : HRESULT)
  | cancel
  | onCancel (id : ℕ)
  | disable
  | enable
  | receive (env : ReceiveEnv) (pszType : List WCHAR) (pbPayload : List UInt8)
  | messageTransmitted
  | arrivalEvent
  | removalEvent
  | closeFile
deriving DecidableEq

/-- What `OnDeviceIoControl` does with the result of a `GetNext` call: a
failure is completed by the handler itself, later on. -/
def handled
    (request : IWDFIoRequest) (result : FileState × HRESULT) (t : FileRun) :
    FileRun :=
  { t with
    file := result.1,
    presented := request.id :: t.presented,
    returned :=
      if succeeded result.2 then t.returned
      else (request.id, result.2) :: t.returned }

theorem handled_sOk (request : IWDFIoRequest) (s : FileState) (t : FileRun) :
    handled request (s, sOk) t = { t with file := s, presented := request.id :: t.presented } := by
  simp [handled]

/-- The record of what `HandleReceivedPublication` did. -/
def FileRun.recordArrival
    (result : FileState × Option (List UInt8 × Outcome)) (t : FileRun) :
    FileRun :=
  { t with
    file := result.1,
    arrivals :=
      match result.2 with
      | none => t.arrivals
      | some (payload, outcome) =>
          t.arrivals ++
            [{ payload := payload,
               outcome := outcome,
               disablesBefore := t.disables,
               dwQueueSize := result.1.ctx.dwQueueSize,
               queueLength := result.1.ctx.subscribedMessageQueue.length }] }

/-- The client cancels the pended request, unless it has done so before. -/
def cancelPended (t : FileRun) : Option FileRun :=
  match t.file.ctx.pWdfRequest with
  | none => none
  | some request =>
      if request.id ∈ t.file.fx.cancelled then none
      else
        some { t with file :=
          { t.file with fx := t.file.fx.cancel request.id } }

/-- The steps on a context that is still open. -/
def openStep (t : FileRun) : FileAction → Option FileRun
  | .getNextSubscribed timing request =>
      if request.id ∈ t.presented then none
      else
        match getNextSubscribedMessage timing request t.file with
        | none => none
        | some result => some (handled request result t)
  | .getNextTransmitted timing request =>
      if request.id ∈ t.presented then none
      else
        match getNextTransmittedMessage timing request t.file with
        | none => none
        | some result => some (handled request result t)
  | .cancel => cancelPended t
  | .disable =>
      let result := disable t.file
      some { t with
        file := result.1,
        disables :=
          if succeeded result.2 then t.disables + 1 else t.disables }
  | .enable => some { t with file := (enable t.file).1 }
  | .receive env pszType pbPayload =>
      if t.file.ctx.role = .subscription ∧ 0 < pbPayload.length ∧
          pbPayload.length ≤ maxCbPayload then
        some (t.recordArrival
          (handleReceivedPublication env pszType pbPayload t.file))
      else none
  | .messageTransmitted =>
      if t.file.ctx.role = .publication then
        some { t with
          file := handleMessageTransmitted t.file,
          transmitted := t.transmitted + 1 }
      else none
  | .arrivalEvent =>
      if t.file.ctx.role = .arrivedSubscription then
        some { t with
          file := handleArrivalEvent t.file,
          events := if t.file.ctx.fEnabled then t.events + 1 else t.events }
      else none
  | .removalEvent =>
      if t.file.ctx.role = .departedSubscription then
        some { t with
          file := handleRemovalEvent t.file,
          events := if t.file.ctx.fEnabled then t.events + 1 else t.events }
      else none
  | .closeFile => some { t with file := destroy t.file, closed := true }
  | .completeFailed _ _ => none
  | .onCancel _ => none

/-- One step of a run.  The cancel callbacks still owed and the completions
that the handler has still to make may come after the destructor. -/
def fileStep (t : FileRun) : FileAction → Option FileRun
  | .completeFailed id hr =>
      if (id, hr) ∈ t.returned then
        some { t with
          file := { t.file with fx := t.file.fx.complete id hr },
          returned := t.returned.erase (id, hr) }
      else none
  | .onCancel id =>
      if id ∈ t.file.fx.due then
        let called := onCancel t.file
        some { t with file :=
          { called with fx :=
              { called.fx with due := called.fx.due.erase id } } }
      else none
  | action => if t.closed then none else openStep t action

/-- The guard of the runs in which the context is not closed. -/
def StaysOpen (_ : FileRun) (a : FileAction) : Prop := a ≠ .closeFile

instance (t : FileRun) (a : FileAction) : Decidable (StaysOpen t a) :=
  inferInstanceAs (Decidable (a ≠ .closeFile))

/-! ## The steps, one by one -/

/-- A step on an open context, with what the action requires. -/
inductive OpenStepTo (t : FileRun) : FileAction → FileRun → Prop
  | getNextSubscribed {timing : CancelTiming} {request : IWDFIoRequest}
      {result : FileState × HRESULT} :
      request.id ∉ t.presented →
      getNextSubscribedMessage timing request t.file = some result →
      OpenStepTo t (.getNextSubscribed timing request)
        (handled request result t)
  | getNextTransmitted {timing : CancelTiming} {request : IWDFIoRequest}
      {result : FileState × HRESULT} :
      request.id ∉ t.presented →
      getNextTransmittedMessage timing request t.file = some result →
      OpenStepTo t (.getNextTransmitted timing request)
        (handled request result t)
  | cancel {request : IWDFIoRequest} :
      t.file.ctx.pWdfRequest = some request →
      request.id ∉ t.file.fx.cancelled →
      OpenStepTo t .cancel
        { t with file := { t.file with fx := t.file.fx.cancel request.id } }
  | disable :
      OpenStepTo t .disable
        { t with
          file := (disable t.file).1,
          disables :=
            if succeeded (disable t.file).2 then t.disables + 1
            else t.disables }
  | enable : OpenStepTo t .enable { t with file := (enable t.file).1 }
  | receive {env : ReceiveEnv} {pszType : List WCHAR}
      {pbPayload : List UInt8} :
      t.file.ctx.role = .subscription →
      OpenStepTo t (.receive env pszType pbPayload)
        (t.recordArrival
          (handleReceivedPublication env pszType pbPayload t.file))
  | messageTransmitted :
      t.file.ctx.role = .publication →
      OpenStepTo t .messageTransmitted
        { t with
          file := handleMessageTransmitted t.file,
          transmitted := t.transmitted + 1 }
  | arrivalEvent :
      t.file.ctx.role = .arrivedSubscription →
      OpenStepTo t .arrivalEvent
        { t with
          file := handleArrivalEvent t.file,
          events := if t.file.ctx.fEnabled then t.events + 1 else t.events }
  | removalEvent :
      t.file.ctx.role = .departedSubscription →
      OpenStepTo t .removalEvent
        { t with
          file := handleRemovalEvent t.file,
          events := if t.file.ctx.fEnabled then t.events + 1 else t.events }
  | closeFile :
      OpenStepTo t .closeFile
        { t with file := destroy t.file, closed := true }

/-- A step of a run. -/
inductive FileStepTo (t : FileRun) : FileAction → FileRun → Prop
  | completeFailed {id : ℕ} {hr : HRESULT} :
      (id, hr) ∈ t.returned →
      FileStepTo t (.completeFailed id hr)
        { t with
          file := { t.file with fx := t.file.fx.complete id hr },
          returned := t.returned.erase (id, hr) }
  | onCancel {id : ℕ} :
      id ∈ t.file.fx.due →
      FileStepTo t (.onCancel id)
        { t with file :=
          { onCancel t.file with fx :=
            { (onCancel t.file).fx with
              due := (onCancel t.file).fx.due.erase id } } }
  | inOpen {a : FileAction} {u : FileRun} :
      t.closed = false → OpenStepTo t a u → FileStepTo t a u

theorem openStepTo_of_openStep {t u : FileRun} {a : FileAction}
    (h : openStep t a = some u) : OpenStepTo t a u := by
  cases a with
  | getNextSubscribed timing request =>
      simp only [openStep] at h
      split at h
      case isTrue => simp at h
      case isFalse hfresh =>
        cases hcall : getNextSubscribedMessage timing request t.file with
        | none => simp [hcall] at h
        | some result =>
            simp only [hcall, Option.some.injEq] at h
            exact h ▸ .getNextSubscribed hfresh hcall
  | getNextTransmitted timing request =>
      simp only [openStep] at h
      split at h
      case isTrue => simp at h
      case isFalse hfresh =>
        cases hcall : getNextTransmittedMessage timing request t.file with
        | none => simp [hcall] at h
        | some result =>
            simp only [hcall, Option.some.injEq] at h
            exact h ▸ .getNextTransmitted hfresh hcall
  | cancel =>
      simp only [openStep, cancelPended] at h
      cases hpend : t.file.ctx.pWdfRequest with
      | none => simp [hpend] at h
      | some request =>
          simp only [hpend] at h
          split at h
          case isTrue => simp at h
          case isFalse hcancel =>
            simp only [Option.some.injEq] at h
            exact h ▸ .cancel hpend hcancel
  | disable =>
      simp only [openStep, Option.some.injEq] at h
      exact h ▸ .disable
  | enable =>
      simp only [openStep, Option.some.injEq] at h
      exact h ▸ .enable
  | receive env pszType pbPayload =>
      simp only [openStep, Option.ite_none_right_eq_some, Option.some.injEq] at h
      exact h.2 ▸ .receive h.1.1
  | messageTransmitted =>
      simp only [openStep, Option.ite_none_right_eq_some, Option.some.injEq] at h
      exact h.2 ▸ .messageTransmitted h.1
  | arrivalEvent =>
      simp only [openStep, Option.ite_none_right_eq_some, Option.some.injEq] at h
      exact h.2 ▸ .arrivalEvent h.1
  | removalEvent =>
      simp only [openStep, Option.ite_none_right_eq_some, Option.some.injEq] at h
      exact h.2 ▸ .removalEvent h.1
  | closeFile =>
      simp only [openStep, Option.some.injEq] at h
      exact h ▸ .closeFile
  | completeFailed id hr => simp [openStep] at h
  | onCancel id => simp [openStep] at h

theorem fileStepTo_of_fileStep {t u : FileRun} {a : FileAction}
    (h : fileStep t a = some u) : FileStepTo t a u := by
  cases a with
  | completeFailed id hr =>
      simp only [fileStep, Option.ite_none_right_eq_some, Option.some.injEq] at h
      exact h.2 ▸ .completeFailed h.1
  | onCancel id =>
      simp only [fileStep, Option.ite_none_right_eq_some, Option.some.injEq] at h
      exact h.2 ▸ .onCancel h.1
  | _ =>
      simp only [fileStep, Option.ite_none_left_eq_some] at h
      exact .inOpen (by simpa using h.1) (openStepTo_of_openStep h.2)

end MiscProjects.Nfp
