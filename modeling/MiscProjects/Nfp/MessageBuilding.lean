import MiscProjects.Nfp.Matching

/-!
# Building a message

`MESSAGE::Initialize` copies the type with `StringCchCopy`, which cuts what does not fit, and the
payload with `CopyMemory`, which does not look.  What keeps both inside their arrays is checked
elsewhere: `OnCreateFile` bounds the whole name, `SetType` the type and `SetPayload` the payload.
A name of `MaxCchType` characters loses at least its namespace, and what is left fits.
-/

namespace MiscProjects.Nfp.MessageBuilding

open MiscProjects.Runs
open MiscProjects.Nfp.Membership
open MiscProjects.Nfp.Matching

/-! ## `MESSAGE::Initialize` -/

/-- `STRSAFE_E_INVALID_PARAMETER`. -/
def strsafeInvalidParameter : HRESULT := 0x80070057#32

/-- `STRSAFE_E_INSUFFICIENT_BUFFER`. -/
def strsafeInsufficientBuffer : HRESULT := 0x8007007A#32

/-- `StringCchCopy(dest, ARRAY_SIZE(dest), psz)`: the array afterwards.  What does not fit
together with the `NUL` is cut off. -/
def stringCchCopy (dest psz : List WCHAR) : List WCHAR × HRESULT :=
  if dest.length = 0 then (dest, strsafeInvalidParameter)
  else if psz.length < dest.length then (psz ++ 0 :: dest.drop (psz.length + 1), sOk)
  else (psz.take (dest.length - 1) ++ [0], strsafeInsufficientBuffer)

/-- `CopyMemory(dest, src, cb)`; `none` if it goes past the array. -/
def copyMemory (dest src : List UInt8) : Option (List UInt8) :=
  if src.length ≤ dest.length then some (src ++ dest.drop src.length) else none

theorem length_stringCchCopy (dest psz : List WCHAR) :
    (stringCchCopy dest psz).1.length = dest.length := by
  unfold stringCchCopy
  split
  · rfl
  · split
    · rw [List.length_append, List.length_cons, List.length_drop]
      omega
    · rw [List.length_append, List.length_singleton, List.length_take]
      omega

theorem length_copyMemory {dest src copied : List UInt8} (h : copyMemory dest src = some copied) :
    copied.length = dest.length ∧ src.length ≤ dest.length := by
  unfold copyMemory at h
  split at h
  · obtain rfl := Option.some.inj h
    rw [List.length_append, List.length_drop]
    omega
  · cases h

/-- `m_szType` and `m_Payload` after `ZeroMemory`. -/
def zeroType : List WCHAR := List.replicate maxCchTypeNetwork 0

def zeroPayload : List UInt8 := List.replicate maxCbPayload 0

/-- `MESSAGE::Initialize`; `none` if the copy of the payload leaves `m_Payload`. -/
def initializeMessage (szType : List WCHAR) (pbPayload : List UInt8) : Option NetworkMessage :=
  match hcopy : copyMemory zeroPayload pbPayload with
  | none => none
  | some payload =>
      some
        { szType := (stringCchCopy zeroType szType).1
          cbPayload := pbPayload.length
          payload := payload
          length_szType := (length_stringCchCopy ..).trans List.length_replicate
          cbPayload_lt := by
            have hle := (length_copyMemory hcopy).2
            rw [zeroPayload, List.length_replicate, maxCbPayload] at hle
            omega
          length_payload := (length_copyMemory hcopy).1.trans List.length_replicate }

/-- `Initialize(GetType(), GetSize(), GetPayload())`.  A type that is `NULL` is dereferenced;
without a payload there is nothing to copy. -/
def message (ctx : CFileContext) : Option NetworkMessage :=
  ctx.pszType.bind fun szType => initializeMessage szType (ctx.myPayload.getD [])

/-- The whole type with its `NUL` and the whole payload are in the arrays, and a receiver that
reads them back gets the type and the payload. -/
structure Carries (type : List WCHAR) (payload : List UInt8) (m : NetworkMessage) : Prop where
  type_fits : type.length + 1 ≤ maxCchTypeNetwork
  typeArray : m.szType = type ++ 0 :: List.replicate (maxCchTypeNetwork - (type.length + 1)) 0
  payload_fits : payload.length ≤ maxCbPayload
  cbPayload : m.cbPayload = payload.length
  payloadArray : m.payload = payload ++ List.replicate (maxCbPayload - payload.length) 0
  accepted : Accepted m
  pszType : m.pszType = type
  pbPayload : m.pbPayload = payload

section Copies
variable {type : List WCHAR} {payload : List UInt8} {ctx : CFileContext}

theorem stringCchCopy_fits (hfits : type.length < maxCchTypeNetwork) : stringCchCopy zeroType type =
      (type ++ 0 :: List.replicate (maxCchTypeNetwork - (type.length + 1)) 0, sOk) := by
  have hlength : zeroType.length = maxCchTypeNetwork := List.length_replicate
  rw [stringCchCopy, hlength, if_neg (by decide), if_pos hfits, zeroType, List.drop_replicate]

theorem copyMemory_fits (hfits : payload.length ≤ maxCbPayload) : copyMemory zeroPayload payload =
      some (payload ++ List.replicate (maxCbPayload - payload.length) 0) := by
  have hlength : zeroPayload.length = maxCbPayload := List.length_replicate
  rw [copyMemory, hlength, if_pos hfits, zeroPayload, List.drop_replicate]

theorem initializeMessage_eq_some {copied : List UInt8}
    (hcopy : copyMemory zeroPayload payload = some copied) :
    ∃ m, initializeMessage type payload = some m ∧ m.szType = (stringCchCopy zeroType type).1 ∧
      m.cbPayload = payload.length ∧ m.payload = copied := by
  unfold initializeMessage
  split
  case h_1 hnone =>
    rw [hcopy] at hnone
    cases hnone
  case h_2 copied' hcopy' =>
    obtain rfl := Option.some.inj (hcopy.symm.trans hcopy')
    refine ⟨_, rfl, ?_⟩
    dsimp only
    exact ⟨rfl, rfl, rfl⟩

theorem initializeMessage_carries (htype : type.length < maxCchTypeNetwork)
    (hnul : (0 : WCHAR) ∉ type) (hpos : 0 < payload.length) (hle : payload.length ≤ maxCbPayload) :
    ∃ m, initializeMessage type payload = some m ∧ Carries type payload m := by
  obtain ⟨m, hm, hszType, hcbPayload, hpayload⟩ :=
    @initializeMessage_eq_some type payload _ (copyMemory_fits hle)
  rw [stringCchCopy_fits htype] at hszType
  dsimp only at hszType
  refine ⟨m, hm, ?_⟩
  constructor
  case type_fits => exact htype
  case typeArray => exact hszType
  case payload_fits => exact hle
  case cbPayload => exact hcbPayload
  case payloadArray => exact hpayload
  case accepted =>
    rw [Accepted, hcbPayload]
    exact ⟨hpos, hle⟩
  case pszType =>
    have hmem : (0 : WCHAR) ∈ m.szType := by
      rw [hszType]
      exact List.mem_append_right _ List.mem_cons_self
    rw [pszType_of_mem hmem, hszType, pwstr_of_not_mem hnul, pwstr, List.takeWhile_cons]
    exact List.append_nil type
  case pbPayload =>
    rw [NetworkMessage.pbPayload, hcbPayload, hpayload]
    exact List.take_left

end Copies

/-! ## The types of the contexts -/

section Types
variable {T : UpcaseTable} {env : CreateEnv} {fileName : Option (List WCHAR)}
  {ctx ctx' : CFileContext} {type : List WCHAR}

variable {name : List WCHAR} {newType : Bool}

theorem setProtocol_ok {role : Role} {psz : List WCHAR}
    (h : setProtocol T newType role psz = .ok ctx) :
    ctx = .create ctx.role ctx.pszType ∧ (ctx.pszType ≠ none → ctx.role = role) := by
  unfold setProtocol at h
  dsimp only at h
  split_ifs at h
  all_goals cases h
  all_goals refine ⟨rfl, fun htype => ?_⟩
  all_goals first
      | rfl
      | exact absurd rfl htype

theorem setRole_ok (h : setRole T newType name = .ok ctx) : ctx = .create ctx.role ctx.pszType ∧
      (ctx.pszType ≠ none → ctx.role = .publication ∨ ctx.role = .subscription) := by
  unfold setRole at h
  dsimp only at h
  split at h
  · obtain ⟨hnew, hrole⟩ := setProtocol_ok h
    exact ⟨hnew, fun htype => .inl (hrole htype)⟩
  · split at h
    · obtain ⟨hnew, hrole⟩ := setProtocol_ok h
      exact ⟨hnew, fun htype => .inr (hrole htype)⟩
    · cases h

theorem onCreateFile_ok (h : onCreateFile T env name = .ok ctx) :
    ctx = .create ctx.role ctx.pszType ∧
      (ctx.pszType ≠ none → ctx.role = .publication ∨ ctx.role = .subscription) := by
  simp only [onCreateFile] at h
  split at h
  · cases h
  · split at h
    · cases h
    · split at h
      · cases h
      · rename_i created hcreated
        have hctx : created = ctx := by
          split at h
          · exact Except.ok.inj h
          · cases h
        subst hctx
        split at hcreated
        · split at hcreated
          · cases hcreated
          · split at hcreated
            · cases hcreated
            · exact setRole_ok hcreated
        · rw [← Except.ok.inj hcreated]
          exact ⟨rfl, fun htype => absurd rfl htype⟩

theorem not_mem_typeName (name : List WCHAR) : (0 : WCHAR) ∉ typeName name := by
  intro hmem
  exact bne_iff_ne.mp (List.mem_takeWhile_imp (p := fun c : WCHAR => c != 0) hmem) rfl

theorem newFileContext_type (h : newFileContext T env fileName = .ok ctx)
    (htype : ctx.pszType = some type) :
    type.length < maxCchTypeNetwork ∧ ∃ name, fileName = some name ∧ type = typeName name := by
  cases fileName with
  | none =>
      dsimp only [newFileContext] at h
      split_ifs at h
      cases h
      cases htype
  | some name =>
      have hrole := (onCreateFile_ok h).2 (by rw [htype]; exact Option.some_ne_none type)
      obtain ⟨hstored, hshort⟩ := onCreateFile_accepted h hrole
      rw [htype] at hstored
      split at hstored
      · obtain rfl := Option.some.inj hstored
        exact ⟨hshort, name, rfl, rfl⟩
      · cases hstored

end Types

/-! ## From the file name to the message -/

/-- The type that a file name has set and the payload that `SetPayload` has accepted are in the
message whole. -/
theorem message_carries {T : UpcaseTable} {env : CreateEnv} {fileName : Option (List WCHAR)}
    {ctx : CFileContext} {type : List WCHAR} {newPayload : Bool} {request : IWDFIoRequest}
    {s s' : FileState} {hr : HRESULT} (hcreated : newFileContext T env fileName = .ok ctx)
    (htype : ctx.pszType = some type) (hkept : s.ctx.pszType = ctx.pszType)
    (hset : setPayload newPayload request s = some (s', hr)) (haccepted : succeeded hr = true) :
    (stringCchCopy zeroType type).2 = sOk ∧
      ∃ input m, request.inputMemory = some input ∧ s'.ctx.myPayload = some input.buffer ∧
        message s'.ctx = some m ∧ Carries type input.buffer m := by
  obtain ⟨hshort, name, -, rfl⟩ := newFileContext_type hcreated htype
  refine ⟨by rw [stringCchCopy_fits hshort], ?_⟩
  rcases setPayload_spec hset with ⟨-, hfailed, -⟩ | ⟨payload, hpayload, -, rfl⟩
  · rw [haccepted] at hfailed
    cases hfailed
  · obtain ⟨input, hinput, rfl⟩ := hpayload.input
    obtain ⟨m, hm, hcarries⟩ :=
      initializeMessage_carries hshort (not_mem_typeName name) hpayload.pos hpayload.le
    refine ⟨input, m, hinput, rfl, ?_, hcarries⟩
    rw [message, hkept, htype]
    exact hm

/-- `Pubs\WindowsUri` with a payload of two bytes. -/
theorem message_carries_uri :
    ∃ ctx s',
      newFileContext .ascii .ready (some (pubsNamespace ++ windowsUriProtocol)) = .ok ctx ∧
      setPayload true (setPayloadRequest [1, 2])
        (.create .publication (some windowsUriProtocol)) = some (s', sOk) ∧
      (stringCchCopy zeroType windowsUriProtocol).2 = sOk ∧
      ∃ input m, (setPayloadRequest [1, 2]).inputMemory = some input ∧
        s'.ctx.myPayload = some input.buffer ∧ message s'.ctx = some m ∧
          Carries windowsUriProtocol input.buffer m := by
  have hset : setPayload true (setPayloadRequest [1, 2])
      (.create .publication (some windowsUriProtocol)) =
        some (⟨{ CFileContext.create .publication (some windowsUriProtocol) with
          myPayload := some [1, 2] }, ⟨[], [], []⟩⟩, sOk) := rfl
  have hcreated : newFileContext .ascii .ready (some (pubsNamespace ++ windowsUriProtocol)) =
      .ok (.create .publication (some windowsUriProtocol)) := rfl
  exact ⟨_, _, hcreated, hset, message_carries hcreated rfl rfl hset succeeded_sOk⟩

end MiscProjects.Nfp.MessageBuilding
