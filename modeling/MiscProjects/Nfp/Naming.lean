import MiscProjects.Nfp.Publishing

/-!
# The names of publications and subscriptions

`CMyQueue::OnCreateFile` decides from the file name what a handle is for; it
recognises the namespaces and the protocols without regard to case.  The type
it stores goes over the network as it was spelled, and the peer's
`HandleReceivedPublication` compares it with the spelling of the subscription.
-/

namespace MiscProjects.Nfp

/-! ## Names -/

def maxCchType : ℕ := 507

def minCchType : ℕ := 2

def wide (chars : List Char) : List WCHAR := chars.map fun c => UInt16.ofNat c.toNat

/-- The backslash. -/
def slash : WCHAR := 92

/-- The full stop. -/
def dot : WCHAR := 46

def windowsProtocol : List WCHAR := wide ['W', 'i', 'n', 'd', 'o', 'w', 's', '.']

def windowsProtocolChars : ℕ := 8

def windowsUriProtocol : List WCHAR := wide ['W', 'i', 'n', 'd', 'o', 'w', 's', 'U', 'r', 'i']

def pubsNamespace : List WCHAR := wide ['P', 'u', 'b', 's'] ++ [slash]

def pubsNamespaceChars : ℕ := 5

def subsNamespace : List WCHAR := wide ['S', 'u', 'b', 's'] ++ [slash]

def subsNamespaceChars : ℕ := 5

def deviceArrived : List WCHAR :=
  wide ['D', 'e', 'v', 'i', 'c', 'e', 'A', 'r', 'r', 'i', 'v', 'e', 'd']

def deviceDeparted : List WCHAR :=
  wide ['D', 'e', 'v', 'i', 'c', 'e', 'D', 'e', 'p', 'a', 'r', 't', 'e', 'd']

def pairingProtocol : List WCHAR := wide ['P', 'a', 'i', 'r', 'i', 'n', 'g', ':']

def pairingProtocolChars : ℕ := 8

def ndefProtocol : List WCHAR := wide ['N', 'D', 'E', 'F']

def ndefProtocolChars : ℕ := 4

def ndefEmptyType : List WCHAR := wide ['E', 'm', 'p', 't', 'y']

def ndefEmptyTypeChars : ℕ := 5

/-- The system's uppercase table, in which `NUL` is in a class of its own. -/
structure UpcaseTable where
  toUpper : WCHAR → WCHAR
  zero_iff : ∀ c, toUpper c = 0 ↔ c = 0

/-- The table of the letters `a` to `z`. -/
def UpcaseTable.ascii : UpcaseTable where
  toUpper c := if 97 ≤ c ∧ c ≤ 122 then c - 32 else c
  zero_iff := by
    intro c
    constructor
    · intro h
      split at h
      case isTrue hletter =>
        have hc : c = 32 := by
          have hadd := congrArg (· + 32) h
          simpa using hadd
        rw [hc] at hletter
        exact absurd hletter (by decide)
      case isFalse => exact h
    · rintro rfl
      rfl

/-- The string that starts a buffer. -/
def pwstr (buffer : List WCHAR) : List WCHAR := buffer.takeWhile (· != 0)

/-- The characters that a comparison reads: as many as counted, or up to the `NUL`. -/
def counted (psz : List WCHAR) : Option ℕ → List WCHAR
  | none => pwstr psz
  | some cch => psz.take cch

def compareStringOrdinal (T : UpcaseTable) (psz₁ : List WCHAR) (cch₁ : Option ℕ)
    (psz₂ : List WCHAR) (cch₂ : Option ℕ) : Bool :=
  (counted psz₁ cch₁).map T.toUpper == (counted psz₂ cch₂).map T.toUpper

/-! ## `OnCreateFile` -/

def fileNotFound : HRESULT := 0x80070002#32
def notEnoughMemory : HRESULT := 0x80070008#32
def statusInvalidParameter : BitVec 32 := 0xC000000D#32
def statusObjectPathNotFound : BitVec 32 := 0xC000003A#32

/-- What the environment answers while a file is created: the allocations, and the
framework's calls. -/
structure CreateEnv where
  newContext : Bool
  retrieveLength : HRESULT
  newFileName : Bool
  retrieveFileName : HRESULT
  newType : Bool
  assignContext : HRESULT

/-- Everything succeeds. -/
def CreateEnv.ready : CreateEnv := ⟨true, sOk, true, sOk, true, sOk⟩

/-- `SetType`: what `m_pszType` is afterwards. -/
def setType (newType : Bool) (pszType : List WCHAR) : Option (List WCHAR) :=
  let cchStr := (pwstr pszType).length + 1
  if minCchType < cchStr ∧ cchStr < maxCchType then
    if newType then some (pwstr pszType) else none
  else none

/-- The branches on the protocol.  The result of `SetType` is not looked at. -/
def setProtocol (T : UpcaseTable) (newType : Bool) (role : Role) (pszProtocol : List WCHAR) :
    Except HRESULT CFileContext :=
  let typed := CFileContext.create role (setType newType pszProtocol)
  if compareStringOrdinal T pszProtocol (some windowsProtocolChars)
      windowsProtocol (some windowsProtocolChars) then
    .ok typed
  else if compareStringOrdinal T pszProtocol none windowsUriProtocol none then
    .ok typed
  else if compareStringOrdinal T pszProtocol (some windowsMimeProtocolChars)
      windowsMimeProtocol (some windowsMimeProtocolChars) then
    .ok typed
  else if compareStringOrdinal T pszProtocol none deviceArrived none then
    if role = .subscription then .ok (.create .arrivedSubscription none)
    else .error fileNotFound
  else if compareStringOrdinal T pszProtocol none deviceDeparted none then
    if role = .subscription then .ok (.create .departedSubscription none)
    else .error fileNotFound
  else if compareStringOrdinal T pszProtocol (some pairingProtocolChars)
      pairingProtocol (some pairingProtocolChars) then
    .ok typed
  else if compareStringOrdinal T pszProtocol (some ndefProtocolChars)
      ndefProtocol (some ndefProtocolChars) then
    if compareStringOrdinal T (pszProtocol.drop ndefProtocolChars) (some ndefEmptyTypeChars)
        ndefEmptyType (some ndefEmptyTypeChars) then
      .error (hresultFromNt statusInvalidParameter)
    else .ok typed
  else .error (hresultFromNt statusObjectPathNotFound)

/-- The zero-filled buffer with the file name, without the initial slash. -/
def pszFileName (fileName : List WCHAR) : List WCHAR :=
  let buffer := fileName ++ List.replicate 21 0
  if buffer.head? = some slash then buffer.tail else buffer

/-- The branches on the namespace. -/
def setRole (T : UpcaseTable) (newType : Bool) (fileName : List WCHAR) :
    Except HRESULT CFileContext :=
  let psz := pszFileName fileName
  if compareStringOrdinal T psz (some pubsNamespaceChars)
      pubsNamespace (some pubsNamespaceChars) then
    setProtocol T newType .publication (psz.drop pubsNamespaceChars)
  else if compareStringOrdinal T psz (some subsNamespaceChars)
      subsNamespace (some subsNamespaceChars) then
    setProtocol T newType .subscription (psz.drop subsNamespaceChars)
  else .error fileNotFound

/-- `OnCreateFile`.  A name that is too long leaves the role undefined. -/
def onCreateFile (T : UpcaseTable) (env : CreateEnv) (fileName : List WCHAR) :
    Except HRESULT CFileContext :=
  let cchFileName := fileName.length + 1
  if env.newContext = false then .error notEnoughMemory
  else if succeeded env.retrieveLength = false then .error env.retrieveLength
  else
    let created : Except HRESULT CFileContext :=
      if 0 < cchFileName ∧ cchFileName ≤ maxCchType then
        if env.newFileName = false then .error eOutOfMemory
        else if succeeded env.retrieveFileName = false then .error env.retrieveFileName
        else setRole T env.newType fileName
      else .ok (.create .undefined none)
    match created with
    | .error hr => .error hr
    | .ok ctx => if succeeded env.assignContext then .ok ctx else .error env.assignContext

/-! ## What goes over the network -/

/-- `StringCchCopy(m_szType, ARRAY_SIZE(m_szType), szType)` of `MESSAGE::Initialize`. -/
def messageType (szType : List WCHAR) : List WCHAR := szType.take (maxCchTypeNetwork - 1)

/-- The type in the messages of a publication; a type that is `NULL` cannot be copied. -/
def transmittedType (ctx : CFileContext) : Option (List WCHAR) := ctx.pszType.map messageType

/-- The publication `pub` matches the subscription `sub` at the peer.  `answers` is what
the peer's environment answers for each MIME type. -/
def PublicationMatches (answers : List WCHAR → ReceiveEnv) (pub sub : CFileContext) : Prop :=
  ∃ szType ∈ transmittedType pub, ∀ pbPayload, ∃ payload,
    matchPublication (answers (szType.drop (windowsMimeProtocolChars + 1))) szType pbPayload sub =
      .matched payload

/-- The type that a file name asks for. -/
def typeName (fileName : List WCHAR) : List WCHAR :=
  pwstr ((pszFileName fileName).drop pubsNamespaceChars)

/-- Two names that differ at most in case. -/
def SameName (T : UpcaseTable) (a b : List WCHAR) : Prop := a.map T.toUpper = b.map T.toUpper

/-- `WindowsMime`, a dot and a MIME type. -/
def MimeName (T : UpcaseTable) (type : List WCHAR) : Prop :=
  SameName T (type.take windowsMimeProtocolChars) windowsMimeProtocol ∧
    ∃ mime, mime ≠ [] ∧ type.drop windowsMimeProtocolChars = dot :: mime

/-- The names of a publication and a subscription are read alike at open and on
delivery. -/
def NamingAgrees (T : UpcaseTable) (answers : List WCHAR → ReceiveEnv)
    (pubName subName : List WCHAR) (pub sub : CFileContext) : Prop :=
  (SameName T (typeName pubName) (typeName subName) → PublicationMatches answers pub sub) ∧
    (SameName T (typeName subName) windowsMimeProtocol →
      (PublicationMatches answers pub sub ↔ MimeName T (typeName pubName)))

/-- The peer can convert the MIME type and has memory for the longer payload. -/
def Converts (answers : List WCHAR → ReceiveEnv) (type : List WCHAR) : Prop :=
  (answers (type.drop (windowsMimeProtocolChars + 1))).szMimeType.isSome = true ∧
    (answers (type.drop (windowsMimeProtocolChars + 1))).newMimePayload = true

/-- The pairs of types that are read alike.  `stored` tells whether there was memory for
both types. -/
structure AgreeingNames (T : UpcaseTable) (answers : List WCHAR → ReceiveEnv) (stored : Prop)
    (pubType subType : List WCHAR) : Prop where
  /-- One name is spelled in one way. -/
  spelled : SameName T pubType subType → ¬ SameName T subType windowsMimeProtocol →
    stored ∧ pubType = subType
  /-- No publication has the bare general type. -/
  bare : SameName T subType windowsMimeProtocol → ¬ SameName T pubType windowsMimeProtocol
  /-- The general type is spelled as the driver spells it. -/
  mime : SameName T subType windowsMimeProtocol → MimeName T pubType →
    stored ∧ subType = windowsMimeProtocol ∧
      pubType.take windowsMimeProtocolChars = windowsMimeProtocol ∧ Converts answers pubType
  /-- A type that starts with the general one goes on with a dot and a MIME type. -/
  separated : subType = windowsMimeProtocol →
    pubType.take windowsMimeProtocolChars = windowsMimeProtocol →
    windowsMimeProtocolChars < pubType.length → ¬ MimeName T pubType →
    ¬ (stored ∧ Converts answers pubType)

section Names
variable {T : UpcaseTable} {answers : List WCHAR → ReceiveEnv} {env env' : CreateEnv}
  {fileName psz : List WCHAR} {ctx pub sub : CFileContext}

theorem SameName.length_eq {a b : List WCHAR} (h : SameName T a b) : a.length = b.length := by
  simpa using congrArg List.length h

theorem MimeName.lt_length {type : List WCHAR} (h : MimeName T type) :
    windowsMimeProtocolChars < type.length := by
  obtain ⟨-, mime, -, hdrop⟩ := h
  have hlength := congrArg List.length hdrop
  simp only [List.length_drop, List.length_cons] at hlength
  omega

/-! ## What is stored -/

variable {newType : Bool} {protocol pubType subType : List WCHAR}

theorem le_length_pwstr {cch : ℕ}
    (h : compareStringOrdinal T psz (some cch) protocol (some cch) = true)
    (hcch : protocol.length = cch) (hnul : protocol.all (· != 0) = true) :
    cch ≤ (pwstr psz).length := by
  have heq : (psz.take cch).map T.toUpper = (protocol.take cch).map T.toUpper := beq_iff_eq.mp h
  rw [List.take_of_length_le (Nat.le_of_eq hcch)] at heq
  have hlength : (psz.take cch).length = cch := by
    simpa [hcch] using congrArg List.length heq
  have hfree : ∀ c ∈ psz.take cch, (c != 0) = true := by
    intro c hc
    have hmem : T.toUpper c ∈ protocol.map T.toUpper := by
      rw [← heq]
      exact List.mem_map_of_mem hc
    obtain ⟨c', hc', hupper⟩ := List.mem_map.mp hmem
    have hne : T.toUpper c ≠ 0 := by
      rw [← hupper]
      exact fun h0 => bne_iff_ne.mp (List.all_eq_true.mp hnul c' hc') ((T.zero_iff c').mp h0)
    exact bne_iff_ne.mpr fun h0 => hne ((T.zero_iff c).mpr h0)
  have htake : pwstr psz = psz.take cch ++ pwstr (psz.drop cch) := by
    conv_lhs => rw [← List.take_append_drop cch psz]
    exact List.takeWhile_append_of_pos hfree
  rw [htake, List.length_append, hlength]
  omega

theorem length_pwstr_of_compare (h : compareStringOrdinal T psz none protocol none = true) :
    (pwstr psz).length = (pwstr protocol).length := by
  have heq : (pwstr psz).map T.toUpper = (pwstr protocol).map T.toUpper := beq_iff_eq.mp h
  simpa using congrArg List.length heq

/-- A context for messages gets the role of its namespace and a type of at least four
characters. -/
theorem setProtocol_typed {role : Role} (h : setProtocol T newType role psz = .ok ctx)
    (hrole : ctx.role = .publication ∨ ctx.role = .subscription) :
    ctx = .create role (setType newType psz) ∧ 4 ≤ (pwstr psz).length := by
  unfold setProtocol at h
  dsimp only at h
  split at h
  case isTrue hwindows =>
    have hle := le_length_pwstr hwindows rfl rfl
    exact ⟨(Except.ok.inj h).symm, Nat.le_trans (by decide) hle⟩
  case isFalse =>
  split at h
  case isTrue huri =>
    have hlength := length_pwstr_of_compare huri
    exact ⟨(Except.ok.inj h).symm, hlength ▸ by decide⟩
  case isFalse =>
  split at h
  case isTrue hmime =>
    have hle := le_length_pwstr hmime rfl rfl
    exact ⟨(Except.ok.inj h).symm, Nat.le_trans (by decide) hle⟩
  case isFalse =>
  split at h
  case isTrue =>
    split at h
    case isTrue =>
      rw [← Except.ok.inj h] at hrole
      simp [CFileContext.create] at hrole
    case isFalse => cases h
  case isFalse =>
  split at h
  case isTrue =>
    split at h
    case isTrue =>
      rw [← Except.ok.inj h] at hrole
      simp [CFileContext.create] at hrole
    case isFalse => cases h
  case isFalse =>
  split at h
  case isTrue hpairing =>
    have hle := le_length_pwstr hpairing rfl rfl
    exact ⟨(Except.ok.inj h).symm, Nat.le_trans (by decide) hle⟩
  case isFalse =>
  split at h
  case isTrue hndef =>
    have hle := le_length_pwstr hndef rfl rfl
    split at h
    case isTrue => cases h
    case isFalse => exact ⟨(Except.ok.inj h).symm, hle⟩
  case isFalse => cases h

theorem setType_of_length (hlow : 4 ≤ (pwstr psz).length)
    (hhigh : (pwstr psz).length + 1 < maxCchType) :
    setType newType psz = if newType then some (pwstr psz) else none := by
  have hmin : minCchType < (pwstr psz).length + 1 := by
    unfold minCchType
    omega
  simp only [setType, hmin, hhigh, and_self, if_true]

theorem pwstr_append_zeros (l : List WCHAR) (n : ℕ) :
    pwstr (l ++ List.replicate n 0) = pwstr l := by
  induction l with
  | nil => cases n <;> simp [pwstr, List.replicate_succ]
  | cons c l ih =>
      simp only [pwstr, List.cons_append, List.takeWhile_cons] at ih ⊢
      split
      case isTrue => rw [ih]
      case isFalse => rfl

theorem typeName_length (fileName : List WCHAR) :
    (typeName fileName).length ≤ fileName.length - pubsNamespaceChars := by
  have hname : ∃ l n, pszFileName fileName = l ++ List.replicate n 0 ∧
      l.length ≤ fileName.length := by
    unfold pszFileName
    dsimp only
    split
    case isTrue hslash =>
      cases fileName with
      | nil => exact absurd hslash (by decide)
      | cons c l => exact ⟨l, 21, rfl, Nat.le_succ _⟩
    case isFalse => exact ⟨fileName, 21, rfl, Nat.le_refl _⟩
  obtain ⟨l, n, hpsz, hle⟩ := hname
  rw [typeName, hpsz, List.drop_append, List.drop_replicate, pwstr_append_zeros]
  have htake : (pwstr (l.drop pubsNamespaceChars)).length ≤ (l.drop pubsNamespaceChars).length :=
    (List.takeWhile_sublist _).length_le
  rw [List.length_drop] at htake
  omega

theorem onCreateFile_accepted (h : onCreateFile T env fileName = .ok ctx)
    (hrole : ctx.role = .publication ∨ ctx.role = .subscription) :
    ctx.pszType = (if env.newType then some (typeName fileName) else none) ∧
      (typeName fileName).length < maxCchTypeNetwork := by
  simp only [onCreateFile] at h
  split at h
  case isTrue => cases h
  case isFalse =>
  split at h
  case isTrue => cases h
  case isFalse =>
  split at h
  case h_1 => cases h
  case h_2 created hcreated =>
  have hctx : created = ctx := by
    split at h
    case isTrue => exact Except.ok.inj h
    case isFalse => cases h
  subst hctx
  split at hcreated
  case isFalse =>
    rw [← Except.ok.inj hcreated] at hrole
    simp [CFileContext.create] at hrole
  case isTrue hlength =>
  split at hcreated
  case isTrue => cases hcreated
  case isFalse =>
  split at hcreated
  case isTrue => cases hcreated
  case isFalse =>
  have hshort : (typeName fileName).length < maxCchTypeNetwork := by
    have hle := typeName_length fileName
    simp only [maxCchType, maxCchTypeNetwork, pubsNamespaceChars] at hle hlength ⊢
    omega
  have htyped : ∃ role, created = .create role (setType env.newType
      ((pszFileName fileName).drop pubsNamespaceChars)) ∧ 4 ≤ (typeName fileName).length := by
    unfold setRole at hcreated
    dsimp only at hcreated
    split at hcreated
    case isTrue => exact ⟨_, setProtocol_typed hcreated hrole⟩
    case isFalse =>
    split at hcreated
    case isTrue => exact ⟨_, setProtocol_typed hcreated hrole⟩
    case isFalse => cases hcreated
  obtain ⟨role, rfl, hlow⟩ := htyped
  refine ⟨setType_of_length hlow ?_, hshort⟩
  change (typeName fileName).length + 1 < maxCchType
  simp only [maxCchType, maxCchTypeNetwork] at hshort ⊢
  omega

/-! ## What matches -/

theorem publicationMatches_iff {newType' : Bool}
    (hpub : pub.pszType = if newType then some pubType else none)
    (hsub : sub.pszType = if newType' then some subType else none)
    (hshort : pubType.length < maxCchTypeNetwork) : PublicationMatches answers pub sub ↔
      (newType = true ∧ newType' = true) ∧
        if subType = windowsMimeProtocol ∧ windowsMimeProtocolChars < pubType.length ∧
            pubType.take windowsMimeProtocolChars = windowsMimeProtocol then
          Converts answers pubType
        else pubType = subType := by
  have hwhole : messageType pubType = pubType := by
    apply List.take_of_length_le
    simp only [maxCchTypeNetwork] at hshort ⊢
    omega
  cases newType with
  | false => simp [PublicationMatches, transmittedType, hpub]
  | true =>
      cases newType' with
      | false => simp [PublicationMatches, transmittedType, hpub, matchPublication, hsub]
      | true =>
          simp only [if_true] at hpub hsub
          simp only [PublicationMatches, transmittedType, hpub, Option.map_some, hwhole,
            Option.mem_def, Option.some.injEq, exists_eq_left', matchPublication, hsub, true_and]
          split
          case isTrue hgeneral =>
            cases hconv : (answers (pubType.drop (windowsMimeProtocolChars + 1))).szMimeType with
            | none => simp [Converts, hconv]
            | some szMimeType =>
                cases hmem :
                    (answers (pubType.drop (windowsMimeProtocolChars + 1))).newMimePayload with
                | false => simp [Converts, hmem]
                | true => simp [Converts, hconv, hmem]
          case isFalse hgeneral =>
            by_cases hsame : subType = pubType
            · simp [hsame]
            · have hsame' : pubType ≠ subType := fun h => hsame h.symm
              simp [hsame, hsame']

theorem delivery_agrees_iff {stored : Prop} : ((SameName T pubType subType → stored ∧
          if subType = windowsMimeProtocol ∧ windowsMimeProtocolChars < pubType.length ∧
              pubType.take windowsMimeProtocolChars = windowsMimeProtocol then
            Converts answers pubType
          else pubType = subType) ∧ (SameName T subType windowsMimeProtocol → ((stored ∧
          if subType = windowsMimeProtocol ∧ windowsMimeProtocolChars < pubType.length ∧
              pubType.take windowsMimeProtocolChars = windowsMimeProtocol then
            Converts answers pubType
          else pubType = subType) ↔ MimeName T pubType))) ↔
      AgreeingNames T answers stored pubType subType := by
  have hbareLength : SameName T pubType windowsMimeProtocol → ¬ MimeName T pubType := by
    intro hbare hmime
    have hlength : pubType.length = windowsMimeProtocolChars := hbare.length_eq
    exact absurd hmime.lt_length (by omega)
  constructor
  · rintro ⟨hsame, hgeneral⟩
    refine ⟨?_, ?_, ?_, ?_⟩
    · intro hnames hnot
      obtain ⟨hstored, hdelivered⟩ := hsame hnames
      rw [if_neg] at hdelivered
      · exact ⟨hstored, hdelivered⟩
      · rintro ⟨rfl, -⟩
        exact hnot rfl
    · intro hsub hpub
      exact hbareLength hpub ((hgeneral hsub).mp (hsame (hpub.trans hsub.symm)))
    · intro hsub hmime
      obtain ⟨hstored, hdelivered⟩ := (hgeneral hsub).mpr hmime
      split at hdelivered
      case isTrue hcond => exact ⟨hstored, hcond.1, hcond.2.2, hdelivered⟩
      case isFalse =>
        rw [← hdelivered] at hsub
        exact absurd hmime (hbareLength hsub)
    · rintro rfl htake hlength hnot ⟨hstored, hconverts⟩
      apply hnot
      apply (hgeneral rfl).mp
      rw [if_pos ⟨rfl, hlength, htake⟩]
      exact ⟨hstored, hconverts⟩
  · intro h
    refine ⟨?_, ?_⟩
    · intro hnames
      have hnot : ¬ SameName T subType windowsMimeProtocol :=
        fun hsub => h.bare hsub (hnames.trans hsub)
      obtain ⟨hstored, heq⟩ := h.spelled hnames hnot
      refine ⟨hstored, ?_⟩
      rw [if_neg]
      · exact heq
      · rintro ⟨rfl, -⟩
        exact hnot rfl
    · intro hsub
      constructor
      · rintro ⟨hstored, hdelivered⟩
        split at hdelivered
        case isTrue hcond =>
          by_contra hnot
          exact h.separated hcond.1 hcond.2.2 hcond.2.1 hnot ⟨hstored, hdelivered⟩
        case isFalse =>
          rw [← hdelivered] at hsub
          exact absurd hsub (h.bare (hdelivered ▸ hsub))
      · intro hmime
        obtain ⟨hstored, hspelled, htake, hconverts⟩ := h.mime hsub hmime
        refine ⟨hstored, ?_⟩
        rw [if_pos ⟨hspelled, hmime.lt_length, htake⟩]
        exact hconverts

end Names

/-- For every pair of accepted file names of a publication and a subscription, and whatever
the environment answers: open and delivery agree on them exactly if one name is spelled
in one way, the general type is spelled as the driver spells it, and what a publication
adds to the general type is a dot and a MIME type. -/
theorem naming_agrees_iff {T : UpcaseTable} {answers : List WCHAR → ReceiveEnv}
    {env env' : CreateEnv} {pubName subName : List WCHAR} {pub sub : CFileContext}
    (hpub : onCreateFile T env pubName = .ok pub) (hpubRole : pub.role = .publication)
    (hsub : onCreateFile T env' subName = .ok sub) (hsubRole : sub.role = .subscription) :
    NamingAgrees T answers pubName subName pub sub ↔
      AgreeingNames T answers (env.newType = true ∧ env'.newType = true)
        (typeName pubName) (typeName subName) := by
  obtain ⟨hpubType, hshort⟩ := onCreateFile_accepted hpub (.inl hpubRole)
  obtain ⟨hsubType, -⟩ := onCreateFile_accepted hsub (.inr hsubRole)
  have hmatches := @publicationMatches_iff answers _ _ _ _ _ _ hpubType hsubType hshort
  unfold NamingAgrees
  rw [hmatches]
  exact delivery_agrees_iff

/-- `Pubs\\WindowsMime.a` and `Subs\\WindowsMime`. -/
theorem naming_agrees_iff_general :
    ∃ pub sub,
      onCreateFile .ascii .ready (pubsNamespace ++ windowsMimeProtocol ++ [dot, 97]) = .ok pub ∧
      onCreateFile .ascii .ready (subsNamespace ++ windowsMimeProtocol) = .ok sub ∧
      (NamingAgrees .ascii (fun mime => ⟨some (mime.map (·.toUInt8)), true, true, true⟩)
          (pubsNamespace ++ windowsMimeProtocol ++ [dot, 97])
          (subsNamespace ++ windowsMimeProtocol) pub sub ↔
        AgreeingNames .ascii (fun mime => ⟨some (mime.map (·.toUInt8)), true, true, true⟩)
          (CreateEnv.ready.newType = true ∧ CreateEnv.ready.newType = true)
          (typeName (pubsNamespace ++ windowsMimeProtocol ++ [dot, 97]))
          (typeName (subsNamespace ++ windowsMimeProtocol))) :=
  ⟨_, _, rfl, rfl, naming_agrees_iff rfl rfl rfl rfl⟩

/-- A subscription to `windowsmime` is opened as one to the general type, but no
publication of a MIME type is delivered to it. -/
theorem lowercase_general_type_ignored :
    ∃ pub sub,
      onCreateFile .ascii .ready (pubsNamespace ++ windowsMimeProtocol ++ [dot, 97]) = .ok pub ∧
      pub.role = .publication ∧
      onCreateFile .ascii .ready
        (subsNamespace ++ wide ['w', 'i', 'n', 'd', 'o', 'w', 's', 'm', 'i', 'm', 'e']) =
          .ok sub ∧
      sub.role = .subscription ∧
      ¬ NamingAgrees .ascii (fun mime => ⟨some (mime.map (·.toUInt8)), true, true, true⟩)
        (pubsNamespace ++ windowsMimeProtocol ++ [dot, 97])
        (subsNamespace ++ wide ['w', 'i', 'n', 'd', 'o', 'w', 's', 'm', 'i', 'm', 'e'])
        pub sub := by
  refine ⟨_, _, rfl, rfl, rfl, rfl, ?_⟩
  rintro ⟨-, hgeneral⟩
  have hmime : MimeName .ascii
      (typeName (pubsNamespace ++ windowsMimeProtocol ++ [dot, 97])) :=
    ⟨rfl, [97], by decide, rfl⟩
  obtain ⟨szType, htype, hpayload⟩ := (hgeneral rfl).mpr hmime
  obtain rfl : windowsMimeProtocol ++ [dot, 97] = szType := Option.some.inj htype
  obtain ⟨payload, hmatch⟩ := hpayload []
  cases hmatch

end MiscProjects.Nfp
