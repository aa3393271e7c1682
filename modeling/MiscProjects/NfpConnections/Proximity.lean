import MiscProjects.NfpConnections.Ownership

/-!
# A `BeginProximity` call that fails

`BeginProximity` takes the role of the handle before it looks at its arguments, and ends every
failure, a refused second call among them, with `m_pConnection = NULL`.  The handle is therefore
left as it was only if the call finds a handle that has been used and has no connection; a first
call that fails uses the handle up, and a second one takes the connection away from the
destructor, which deletes what `m_pConnection` points to.
-/

namespace MiscProjects.NfpConnections.Ownership

open Nfp

/-- `sizeof(BEGIN_PROXIMITY_ARGS)`: a name of `MAX_PATH` characters. -/
def sizeofBeginProximityArgs : ℕ := 520

/-- What a call gets from outside: the input memory of the request, the connection that
`CConnection::Create` makes if there is memory for it, and the result of `InitializeAsClient`. -/
structure ProximityCall where
  inputMemory : Option IWDFMemory
  create : Option ConnectionPtr
  initializeAsClient : HRESULT

namespace FileContext

/-- The test of `BeginProximity` under `m_RoleLock`. -/
def takeRole (file : FileContext) : FileContext × HRESULT :=
  if file.role ≠ .undefined then (file, hresultFromNt statusInvalidDeviceState)
  else ({ file with role := .proximity }, sOk)

/-- The attempt of `BeginProximity` to connect. -/
def connect (call : ProximityCall) (file : FileContext) : FileContext × HRESULT :=
  match call.inputMemory with
  | some memory =>
      if memory.getSize = sizeofBeginProximityArgs then
        match call.create with
        | some c => ({ file with pConnection := some c }, call.initializeAsClient)
        | none => (file, eOutOfMemory)
      else (file, eInvalidArg)
  | none => (file, eInvalidArg)

def beginProximity (call : ProximityCall) (file : FileContext) : FileContext × HRESULT :=
  let taken := file.takeRole
  let r := if succeeded taken.2 then taken.1.connect call else taken
  if succeeded r.2 then r else ({ r.1 with pConnection := none }, r.2)

/-- The connections that `~CFileContext` deletes. -/
def deletedAtClose (file : FileContext) : List ConnectionPtr := file.pConnection.toList

/-- If the call fails, the handle has its old role and connection, and the connection is still
deleted when the handle is closed. -/
def FailsUnchanged (call : ProximityCall) (file : FileContext) : Prop :=
  succeeded (file.beginProximity call).2 = false →
    (file.beginProximity call).1.role = file.role ∧
      (file.beginProximity call).1.pConnection = file.pConnection ∧
        ∀ c, file.pConnection = some c → c ∈ (file.beginProximity call).1.deletedAtClose

end FileContext

/-- The input buffer has the right size, a connection is made, and it is established. -/
structure ProximityCall.Connects (call : ProximityCall) : Prop where
  inputMemory : ∃ memory, call.inputMemory = some memory ∧
    memory.getSize = sizeofBeginProximityArgs
  create : ∃ c, call.create = some c
  initializeAsClient : succeeded call.initializeAsClient = true

namespace FileContext

section Call
variable {call : ProximityCall} {file : FileContext}

theorem beginProximity_of_used (h : file.role ≠ .undefined) : file.beginProximity call =
      ({ file with pConnection := none }, hresultFromNt statusInvalidDeviceState) := by
  simp [beginProximity, takeRole, h]

theorem connect_role : (file.connect call).1.role = file.role := by
  unfold connect
  split
  · split
    · split <;> rfl
    · rfl
  · rfl

theorem connect_succeeded_iff : succeeded (file.connect call).2 = true ↔ call.Connects := by
  constructor
  · intro hok
    unfold connect at hok
    split at hok
    case h_1 memory hmemory =>
      split at hok
      case isTrue hsize =>
        split at hok
        case h_1 c hc => exact ⟨⟨memory, hmemory, hsize⟩, ⟨c, hc⟩, hok⟩
        case h_2 => simp at hok
      case isFalse => simp at hok
    case h_2 => simp at hok
  · rintro ⟨⟨memory, hmemory, hsize⟩, ⟨c, hc⟩, hok⟩
    simpa [connect, hmemory, hsize, hc] using hok

theorem beginProximity_succeeded_iff (h : file.role = .undefined) :
    succeeded (file.beginProximity call).2 = true ↔ call.Connects := by
  have htaken : file.takeRole = ({ file with role := .proximity }, sOk) := by
    simp [takeRole, h]
  rw [← connect_succeeded_iff]
  simp only [beginProximity, htaken, succeeded_sOk, if_true]
  split
  · rfl
  · rfl

theorem beginProximity_role (h : file.role = .undefined) :
    (file.beginProximity call).1.role = .proximity := by
  have htaken : file.takeRole = ({ file with role := .proximity }, sOk) := by
    simp [takeRole, h]
  simp only [beginProximity, htaken, succeeded_sOk, if_true]
  split
  · rw [connect_role]
  · rw [connect_role]

/-- A call that fails leaves the handle as it was exactly if the handle has been used and has no
connection; on a new handle that means that the call does not fail. -/
theorem failsUnchanged_iff (call : ProximityCall) (file : FileContext) :
    file.FailsUnchanged call ↔
      if file.role = .undefined then call.Connects else file.pConnection = none := by
  by_cases hrole : file.role = .undefined
  · rw [if_pos hrole, ← beginProximity_succeeded_iff hrole]
    constructor
    · intro hunchanged
      by_contra hfails
      have hold := (hunchanged (by simpa using hfails)).1
      rw [beginProximity_role hrole, hrole] at hold
      cases hold
    · intro hok hfails
      rw [hok] at hfails
      cases hfails
  · rw [if_neg hrole, FailsUnchanged, beginProximity_of_used hrole]
    constructor
    · intro hunchanged
      exact (hunchanged succeeded_statusInvalidDeviceState).2.1.symm
    · intro hnone _
      refine ⟨rfl, hnone.symm, ?_⟩
      intro c hc
      rw [hnone] at hc
      cases hc

/-- A first call without an input buffer, and a second one on a handle with a connection. -/
theorem not_failsUnchanged :
    ¬(⟨.undefined, none⟩ : FileContext).FailsUnchanged ⟨none, none, sOk⟩ ∧
      ¬(⟨.proximity, some 0⟩ : FileContext).FailsUnchanged ⟨none, none, sOk⟩ := by
  constructor
  · intro h
    exact absurd (h (by decide)).1 (by decide)
  · intro h
    exact absurd (h (by decide)).2.1 (by decide)

end Call

end FileContext

/-! ## The call in a run of the driver -/

/-- The answers of a run say the same about a call. -/
structure ClientAnswer.Answers (answer : ClientAnswer) (c : ConnectionPtr)
    (call : ProximityCall) : Prop where
  args : answer.args = true ↔ ∃ memory, call.inputMemory = some memory ∧
    memory.getSize = sizeofBeginProximityArgs
  create : call.create = if answer.create then some c else none
  initializeAsClient : succeeded call.initializeAsClient = true ↔ answer.Establishes

section Run
variable {s : State} {f : FilePtr} {answer : ClientAnswer} {call : ProximityCall}

theorem initializeAsClient_succeeds_iff {c : ConnectionPtr}
    (hinitial : (s.connection c).state = .initial) :
    (initializeAsClient c answer s).2 = true ↔ answer.Establishes := by
  constructor
  · intro hok
    unfold initializeAsClient at hok
    by_cases hsocket : answer.socket = true
    · by_cases hhands : answer.shakesHands = true
      · by_cases hwork : answer.createThreadpoolWork = true
        · exact ⟨hsocket, hhands, hwork⟩
        · simp [hsocket, hhands, hwork, finalizeEstablish, hinitial] at hok
      · simp [hsocket, hhands] at hok
    · simp [hsocket] at hok
  · rintro ⟨hsocket, hhands, hwork⟩
    simp [initializeAsClient, hsocket, hhands, hwork, finalizeEstablish, hinitial]

theorem finalizeEstablish_file (c : ConnectionPtr) (source : Option Slot) (work : Bool) :
    (finalizeEstablish c source work s).1.file = s.file := by
  unfold finalizeEstablish
  split
  · split
    · split <;> rfl
    · rfl
  · rfl

theorem initializeAsClient_file (c : ConnectionPtr) :
    (initializeAsClient c answer s).1.file = s.file := by
  simp only [initializeAsClient]
  split
  · split
    · split
      · rw [finalizeEstablish_file]
      · rw [State.closesocket, finalizeEstablish_file]
    · rfl
  · rfl

/-- In a run of the driver a call does to its handle what `BeginProximity` does. -/
theorem beginProximity_file (hcall : answer.Answers s.connections call) :
    (beginProximity f answer s).file f = ((s.file f).beginProximity call).1 := by
  by_cases hrole : (s.file f).role = .undefined
  · have htaken : (s.file f).takeRole = (⟨.proximity, (s.file f).pConnection⟩, sOk) := by
      simp [FileContext.takeRole, hrole]
    have hcreate := hcall.create
    by_cases hargs : answer.args = true
    · obtain ⟨memory, hmemory, hsize⟩ := hcall.args.mp hargs
      by_cases hnew : answer.create = true
      · rw [if_pos hnew] at hcreate
        let created := ((s.setFile f { s.file f with role := .proximity }).create false).setFile f
          ⟨.proximity, some s.connections⟩
        have hinitial : (created.connection s.connections).state = .initial := by
          simp [created, State.create, State.setFile, State.setConnection]
        have hok : (initializeAsClient s.connections answer created).2 = true ↔
            succeeded call.initializeAsClient = true :=
          (initializeAsClient_succeeds_iff hinitial).trans hcall.initializeAsClient.symm
        have hfile : (initializeAsClient s.connections answer created).1.file f =
            ⟨.proximity, some s.connections⟩ := by
          rw [initializeAsClient_file]
          simp [created, State.setFile]
        have hrun : beginProximity f answer s =
            if (initializeAsClient s.connections answer created).2 then
              (initializeAsClient s.connections answer created).1
            else forget f (initializeAsClient s.connections answer created).1 := by
          simp [beginProximity, hrole, hargs, hnew, created, State.setFile, State.create,
            State.setConnection]
        rw [hrun]
        by_cases hconnects : succeeded call.initializeAsClient = true
        · rw [if_pos (hok.mpr hconnects), hfile]
          simp [FileContext.beginProximity, htaken, FileContext.connect, hmemory, hsize, hcreate,
            hconnects]
        · rw [if_neg (fun h => hconnects (hok.mp h)), forget]
          simp [FileContext.beginProximity, htaken, FileContext.connect, hmemory, hsize, hcreate,
            hconnects, hfile, State.setFile]
      · rw [if_neg hnew] at hcreate
        simp [beginProximity, hrole, hnew, forget, State.setFile, FileContext.beginProximity,
          htaken, FileContext.connect, hmemory, hsize, hcreate]
    · have hfails : succeeded (FileContext.connect call ⟨.proximity, (s.file f).pConnection⟩).2 =
          false := by
        rw [Bool.eq_false_iff, Ne, FileContext.connect_succeeded_iff]
        exact fun h => hargs (hcall.args.mpr h.inputMemory)
      simp [beginProximity, hrole, hargs, forget, State.setFile, FileContext.beginProximity,
        htaken, hfails, FileContext.connect_role]
  · rw [FileContext.beginProximity_of_used hrole]
    simp [beginProximity, hrole, forget, State.setFile]

end Run

end MiscProjects.NfpConnections.Ownership
