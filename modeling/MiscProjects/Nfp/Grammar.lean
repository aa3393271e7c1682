import Mathlib.Data.List.TakeWhile
import MiscProjects.Nfp.Membership

/-!
# The grammar of file names

`OnCreateFile` reads a name with a cascade of comparisons, some of a counted prefix and some of
the whole string, in a buffer that is filled up with zeros.  For a name that fits `MaxCchType`
together with its `NUL` the cascade accepts exactly the names of the grammar below.  A longer one
is not read at all: the file is created with an undefined role, like one without a name.
-/

namespace MiscProjects.Nfp.Grammar

open MiscProjects.Nfp.Membership

/-! ## Names -/

/-- A file name: a string without `NUL`. -/
structure FileName where
  chars : List WCHAR
  noNul : (0 : WCHAR) ∉ chars

/-- `RetrieveFileName` reports the length 0 for an empty name. -/
def retrieveFileName (name : FileName) : Option (List WCHAR) :=
  if name.chars = [] then none else some name.chars

/-- The context that `OnCreateFile` makes for a name, or the failure it reports. -/
def createFile (T : UpcaseTable) (env : CreateEnv) (name : FileName) :
    Except HRESULT CFileContext :=
  newFileContext T env (retrieveFileName name)

/-- The table is that of the ASCII letters on ASCII characters. -/
def UpcasesAscii (T : UpcaseTable) : Prop :=
  ∀ c, c < 128 → T.toUpper c = UpcaseTable.ascii.toUpper c

instance (T : UpcaseTable) (a b : List WCHAR) : Decidable (SameName T a b) :=
  inferInstanceAs (Decidable (_ = _))

/-- The string begins so, without regard to case. -/
def Begins (T : UpcaseTable) (start psz : List WCHAR) : Prop :=
  SameName T (psz.take start.length) start

instance (T : UpcaseTable) (start psz : List WCHAR) : Decidable (Begins T start psz) :=
  inferInstanceAs (Decidable (SameName ..))

/-- The protocols of messages. -/
def MessageProtocol (T : UpcaseTable) (protocol : List WCHAR) : Prop :=
  Begins T windowsProtocol protocol ∨ SameName T protocol windowsUriProtocol ∨
    Begins T windowsMimeProtocol protocol ∨ Begins T pairingProtocol protocol ∨
      Begins T ndefProtocol protocol ∧
        ¬Begins T ndefEmptyType (protocol.drop ndefProtocol.length)

/-- The role and the type of a protocol name in a namespace. -/
inductive ProtocolFor (T : UpcaseTable) (space : Role) (protocol : List WCHAR) :
    Role → Option (List WCHAR) → Prop
  | message : MessageProtocol T protocol → ProtocolFor T space protocol space (some protocol)
  | arrived : space = .subscription → SameName T protocol deviceArrived →
      ProtocolFor T space protocol .arrivedSubscription none
  | departed : space = .subscription → SameName T protocol deviceDeparted →
      ProtocolFor T space protocol .departedSubscription none

/-- A namespace and a protocol name. -/
inductive SpaceFor (T : UpcaseTable) (psz : List WCHAR) : Role → Option (List WCHAR) → Prop
  | pubs {role type} : Begins T pubsNamespace psz →
      ProtocolFor T .publication (psz.drop pubsNamespace.length) role type →
        SpaceFor T psz role type
  | subs {role type} : Begins T subsNamespace psz →
      ProtocolFor T .subscription (psz.drop subsNamespace.length) role type →
        SpaceFor T psz role type

/-- The role and the type of a file name; with its `NUL` it has at most `MaxCchType`
characters. -/
inductive NameFor (T : UpcaseTable) : List WCHAR → Role → Option (List WCHAR) → Prop
  | empty : NameFor T [] .undefined none
  | plain {psz role type} : psz.length + 1 ≤ maxCchType → SpaceFor T psz role type →
      NameFor T psz role type
  | slashed {psz role type} : (slash :: psz).length + 1 ≤ maxCchType → SpaceFor T psz role type →
      NameFor T (slash :: psz) role type

/-- The file is created exactly if its name is in the grammar, with the role and the type that it
has there. -/
def FollowsGrammar (T : UpcaseTable) (name : FileName) : Prop :=
  ∀ ctx, createFile T .ready name = .ok ctx ↔
    ∃ role type, NameFor T name.chars role type ∧ ctx = .create role type

/-! ## Comparisons -/

section Comparisons
variable {T : UpcaseTable} {start psz whole : List WCHAR} {n : ℕ}

theorem Begins.le_length (h : Begins T start psz) : start.length ≤ psz.length := by
  have hlength := h.length_eq
  rw [List.length_take] at hlength
  omega

theorem pwstr_eq (hnul : (0 : WCHAR) ∉ psz) : pwstr psz = psz := by
  rw [pwstr, List.takeWhile_eq_self_iff]
  intro c hc
  refine bne_iff_ne.mpr ?_
  rintro rfl
  exact hnul hc

theorem compare_begins_iff {cch : ℕ} (hcch : start.length = cch)
    (hstart : start.all (· != 0) = true) :
    compareStringOrdinal T (psz ++ List.replicate n 0) (some cch) start (some cch) = true ↔
      Begins T start psz := by
  constructor
  · intro hequal
    have hle : start.length ≤ psz.length := by
      have hread := le_length_pwstr hequal hcch hstart
      rw [pwstr_append_zeros] at hread
      have htake : (pwstr psz).length ≤ psz.length := (List.takeWhile_sublist _).length_le
      omega
    subst hcch
    simp only [compareStringOrdinal, counted, beq_iff_eq, List.take_length] at hequal
    rwa [List.take_append_of_le_length hle] at hequal
  · intro hbegins
    subst hcch
    simp only [compareStringOrdinal, counted, beq_iff_eq, List.take_length]
    rw [List.take_append_of_le_length hbegins.le_length]
    exact hbegins

theorem compare_whole_iff (hpsz : (0 : WCHAR) ∉ psz) (hstart : start.all (· != 0) = true) :
    compareStringOrdinal T (psz ++ List.replicate n 0) none start none = true ↔
      SameName T psz start := by
  have hnul : (0 : WCHAR) ∉ start := by
    intro hmem
    exact absurd (List.all_eq_true.mp hstart 0 hmem) (by decide)
  simp only [compareStringOrdinal, counted, beq_iff_eq, pwstr_append_zeros, pwstr_eq hpsz,
    pwstr_eq hnul, SameName]

/-- The first character, in upper case. -/
def first (T : UpcaseTable) (psz : List WCHAR) : Option WCHAR := psz.head?.map T.toUpper

theorem SameName.first_eq (h : SameName T psz start) : first T psz = first T start := by
  have hhead := congrArg List.head? h
  simpa [first, List.head?_map] using hhead

theorem Begins.first_eq (h : Begins T start psz) (hne : start ≠ []) :
    first T psz = first T start := by
  have hsame := SameName.first_eq h
  have hpos : 0 < start.length := List.length_pos_iff.mpr hne
  rw [← hsame, first, first, List.head?_take, if_neg (Nat.ne_of_gt hpos)]

end Comparisons

/-! ## The cascade of protocols -/

section Protocols
variable {T : UpcaseTable} {protocol : List WCHAR} {space : Role} {n : ℕ} {ctx : CFileContext}

theorem first_of_ascii (hT : UpcasesAscii T) {start : List WCHAR} {c : WCHAR}
    (hhead : start.head? = some c) (hascii : c < 128) :
    first T start = some (UpcaseTable.ascii.toUpper c) := by
  rw [first, hhead, Option.map_some, hT c hascii]

theorem MessageProtocol.first_ne (hT : UpcasesAscii T) (h : MessageProtocol T protocol) :
    first T protocol ≠ some 68 := by
  have hW : first T windowsProtocol = some 87 := first_of_ascii (c := 87) hT rfl (by decide)
  have hU : first T windowsUriProtocol = some 87 := first_of_ascii (c := 87) hT rfl (by decide)
  have hM : first T windowsMimeProtocol = some 87 := first_of_ascii (c := 87) hT rfl (by decide)
  have hP : first T pairingProtocol = some 80 := first_of_ascii (c := 80) hT rfl (by decide)
  have hN : first T ndefProtocol = some 78 := first_of_ascii (c := 78) hT rfl (by decide)
  rcases h with hbegins | hsame | hbegins | hbegins | ⟨hbegins, -⟩
  · rw [Begins.first_eq hbegins (by decide), hW]
    decide
  · rw [SameName.first_eq hsame, hU]
    decide
  · rw [Begins.first_eq hbegins (by decide), hM]
    decide
  · rw [Begins.first_eq hbegins (by decide), hP]
    decide
  · rw [Begins.first_eq hbegins (by decide), hN]
    decide

theorem event_first (hT : UpcasesAscii T)
    (h : SameName T protocol deviceArrived ∨ SameName T protocol deviceDeparted) :
    first T protocol = some 68 := by
  have hA : first T deviceArrived = some 68 := first_of_ascii (c := 68) hT rfl (by decide)
  have hD : first T deviceDeparted = some 68 := first_of_ascii (c := 68) hT rfl (by decide)
  rcases h with h | h
  · rw [SameName.first_eq h, hA]
  · rw [SameName.first_eq h, hD]

theorem not_arrived_and_departed (hA : SameName T protocol deviceArrived) :
    ¬SameName T protocol deviceDeparted := by
  intro hD
  have hlength := hA.length_eq.symm.trans hD.length_eq
  exact absurd hlength (by decide)

theorem MessageProtocol.setType_eq (h : MessageProtocol T protocol)
    (hnul : (0 : WCHAR) ∉ protocol) (hshort : protocol.length + 1 < maxCchType) :
    setType true (protocol ++ List.replicate n 0) = some protocol := by
  have hlow : 4 ≤ protocol.length := by
    rcases h with hbegins | hsame | hbegins | hbegins | ⟨hbegins, -⟩
    · exact Nat.le_trans (by decide) hbegins.le_length
    · exact hsame.length_eq ▸ by decide
    · exact Nat.le_trans (by decide) hbegins.le_length
    · exact Nat.le_trans (by decide) hbegins.le_length
    · exact hbegins.le_length
  have hread : pwstr (protocol ++ List.replicate n 0) = protocol := by
    rw [pwstr_append_zeros, pwstr_eq hnul]
  rw [setType_of_length, if_pos rfl, hread]
  · rw [hread]
    exact hlow
  · rw [hread]
    exact hshort

theorem setProtocol_iff (hT : UpcasesAscii T) (hnul : (0 : WCHAR) ∉ protocol)
    (hshort : protocol.length + 1 < maxCchType) :
    setProtocol T true space (protocol ++ List.replicate n 0) = .ok ctx ↔
      ∃ role type, ProtocolFor T space protocol role type ∧ ctx = .create role type := by
  have hempty : compareStringOrdinal T ((protocol ++ List.replicate n 0).drop ndefProtocolChars)
      (some ndefEmptyTypeChars) ndefEmptyType (some ndefEmptyTypeChars) = true ↔
        Begins T ndefEmptyType (protocol.drop ndefProtocol.length) := by
    rw [List.drop_append, List.drop_replicate]
    exact compare_begins_iff rfl rfl
  rw [setProtocol]
  simp only [compare_begins_iff (show windowsProtocol.length = windowsProtocolChars from rfl) rfl,
    compare_whole_iff hnul (show windowsUriProtocol.all (· != 0) = true from rfl),
    compare_begins_iff (show windowsMimeProtocol.length = windowsMimeProtocolChars from rfl) rfl,
    compare_whole_iff hnul (show deviceArrived.all (· != 0) = true from rfl),
    compare_whole_iff hnul (show deviceDeparted.all (· != 0) = true from rfl),
    compare_begins_iff (show pairingProtocol.length = pairingProtocolChars from rfl) rfl,
    compare_begins_iff (show ndefProtocol.length = ndefProtocolChars from rfl) rfl, hempty]
  by_cases hmessage : MessageProtocol T protocol
  · -- A message is no event, and every branch that it can take stores its type.
    have hfirst := hmessage.first_ne hT
    have harrived : ¬SameName T protocol deviceArrived := fun h => hfirst (event_first hT (.inl h))
    have hdeparted : ¬SameName T protocol deviceDeparted :=
      fun h => hfirst (event_first hT (.inr h))
    have hstored : Except.ok (CFileContext.create space (some protocol)) =
        (Except.ok ctx : Except HRESULT CFileContext) ↔
          ∃ role type, ProtocolFor T space protocol role type ∧ ctx = .create role type := by
      constructor
      · intro hok
        exact ⟨space, some protocol, .message hmessage, (Except.ok.inj hok).symm⟩
      · rintro ⟨role, type, hprotocol, rfl⟩
        cases hprotocol with
        | message => rfl
        | arrived _ h => exact absurd h harrived
        | departed _ h => exact absurd h hdeparted
    rw [hmessage.setType_eq hnul hshort, if_neg harrived, if_neg hdeparted]
    split_ifs with hW hU hM hP hN hE
    · exact hstored
    · exact hstored
    · exact hstored
    · exact hstored
    · rcases hmessage with h | h | h | h | ⟨-, h⟩
      · exact absurd h hW
      · exact absurd h hU
      · exact absurd h hM
      · exact absurd h hP
      · exact absurd hE h
    · exact hstored
    · rcases hmessage with h | h | h | h | ⟨h, -⟩
      · exact absurd h hW
      · exact absurd h hU
      · exact absurd h hM
      · exact absurd h hP
      · exact absurd h hN
  · have hW : ¬Begins T windowsProtocol protocol := fun h => hmessage (.inl h)
    have hU : ¬SameName T protocol windowsUriProtocol := fun h => hmessage (.inr (.inl h))
    have hM : ¬Begins T windowsMimeProtocol protocol := fun h => hmessage (.inr (.inr (.inl h)))
    have hP : ¬Begins T pairingProtocol protocol := fun h => hmessage (.inr (.inr (.inr (.inl h))))
    have hNE : Begins T ndefProtocol protocol →
        Begins T ndefEmptyType (protocol.drop ndefProtocol.length) := by
      intro h
      by_contra hE
      exact hmessage (.inr (.inr (.inr (.inr ⟨h, hE⟩))))
    rw [if_neg hW, if_neg hU, if_neg hM, if_neg hP]
    constructor
    · intro hok
      split_ifs at hok with hA hspace hD hspace hN hE
      · exact ⟨_, _, .arrived hspace hA, (Except.ok.inj hok).symm⟩
      · exact ⟨_, _, .departed hspace hD, (Except.ok.inj hok).symm⟩
      · exact absurd (hNE hN) hE
    · rintro ⟨role, type, hprotocol, rfl⟩
      cases hprotocol with
      | message h => exact absurd h hmessage
      | arrived hspace hA => rw [if_pos hA, if_pos hspace]
      | departed hspace hD =>
          have hA : ¬SameName T protocol deviceArrived := fun hA => not_arrived_and_departed hA hD
          rw [if_neg hA, if_pos hD, if_pos hspace]

end Protocols

/-! ## The whole name -/

section Names
variable {T : UpcaseTable} {psz : List WCHAR} {n : ℕ} {ctx : CFileContext}

theorem first_pubs (hT : UpcasesAscii T) (hpubs : Begins T pubsNamespace psz) :
    first T psz = some 80 :=
  (Begins.first_eq hpubs (by decide)).trans (first_of_ascii (c := 80) hT rfl (by decide))

theorem first_subs (hT : UpcasesAscii T) (hsubs : Begins T subsNamespace psz) :
    first T psz = some 83 :=
  (Begins.first_eq hsubs (by decide)).trans (first_of_ascii (c := 83) hT rfl (by decide))

theorem not_pubs_and_subs (hT : UpcasesAscii T) (hpubs : Begins T pubsNamespace psz) :
    ¬Begins T subsNamespace psz := by
  intro hsubs
  have hfirst := (first_pubs hT hpubs).symm.trans (first_subs hT hsubs)
  exact absurd hfirst (by decide)

theorem not_spaceFor_slash (hT : UpcasesAscii T) {role : Role} {type : Option (List WCHAR)} :
    ¬SpaceFor T (slash :: psz) role type := by
  have hslash : first T (slash :: psz) = some 92 := first_of_ascii (c := 92) hT rfl (by decide)
  intro h
  cases h with
  | pubs hpubs =>
      rw [first_pubs hT hpubs] at hslash
      exact absurd hslash (by decide)
  | subs hsubs =>
      rw [first_subs hT hsubs] at hslash
      exact absurd hslash (by decide)

theorem setRole_iff (hT : UpcasesAscii T) {name : List WCHAR}
    (hpsz : pszFileName name = psz ++ List.replicate n 0) (hnul : (0 : WCHAR) ∉ psz)
    (hshort : psz.length + 1 ≤ maxCchType) : setRole T true name = .ok ctx ↔
      ∃ role type, SpaceFor T psz role type ∧ ctx = .create role type := by
  have hrest : (0 : WCHAR) ∉ psz.drop 5 := fun h => hnul (List.mem_of_mem_drop h)
  have hfits : Begins T pubsNamespace psz ∨ Begins T subsNamespace psz →
      (psz.drop 5).length + 1 < maxCchType := by
    intro h
    have hlow : 5 ≤ psz.length := by
      rcases h with h | h
      · exact h.le_length
      · exact h.le_length
    rw [List.length_drop]
    omega
  have hdrop : (psz ++ List.replicate n 0).drop 5 =
      psz.drop 5 ++ List.replicate (n - (5 - psz.length)) 0 := by
    rw [List.drop_append, List.drop_replicate]
  rw [setRole, hpsz]
  simp only [compare_begins_iff (show pubsNamespace.length = pubsNamespaceChars from rfl) rfl,
    compare_begins_iff (show subsNamespace.length = subsNamespaceChars from rfl) rfl]
  simp only [pubsNamespaceChars, subsNamespaceChars, hdrop]
  by_cases hpubs : Begins T pubsNamespace psz
  · rw [if_pos hpubs, setProtocol_iff hT hrest (hfits (.inl hpubs))]
    constructor
    · rintro ⟨role, type, hprotocol, rfl⟩
      exact ⟨role, type, .pubs hpubs hprotocol, rfl⟩
    · rintro ⟨role, type, hspace, rfl⟩
      cases hspace with
      | pubs _ hprotocol => exact ⟨role, type, hprotocol, rfl⟩
      | subs hsubs _ => exact absurd hsubs (not_pubs_and_subs hT hpubs)
  · rw [if_neg hpubs]
    by_cases hsubs : Begins T subsNamespace psz
    · rw [if_pos hsubs, setProtocol_iff hT hrest (hfits (.inr hsubs))]
      constructor
      · rintro ⟨role, type, hprotocol, rfl⟩
        exact ⟨role, type, .subs hsubs hprotocol, rfl⟩
      · rintro ⟨role, type, hspace, rfl⟩
        cases hspace with
        | pubs h _ => exact absurd h hpubs
        | subs _ hprotocol => exact ⟨role, type, hprotocol, rfl⟩
    · rw [if_neg hsubs]
      constructor
      · intro h
        cases h
      · rintro ⟨role, type, hspace, -⟩
        cases hspace with
        | pubs h _ => exact absurd h hpubs
        | subs h _ => exact absurd h hsubs

end Names

section Files
variable {T : UpcaseTable} {name : FileName} {ctx : CFileContext}

theorem createFile_empty (T : UpcaseTable) (h : name.chars = []) :
    createFile T .ready name = .ok (.create .undefined none) := by
  simp [createFile, retrieveFileName, h, newFileContext, CreateEnv.ready]

theorem createFile_long (T : UpcaseTable) (name : FileName)
    (h : maxCchType < name.chars.length + 1) :
    createFile T .ready name = .ok (.create .undefined none) := by
  have hne : name.chars ≠ [] := by
    intro hnil
    rw [hnil] at h
    exact absurd h (by decide)
  have hlong : ¬(0 < name.chars.length + 1 ∧ name.chars.length + 1 ≤ maxCchType) :=
    fun hfits => absurd hfits.2 (Nat.not_le_of_gt h)
  rw [createFile, retrieveFileName, if_neg hne]
  simp only [newFileContext, onCreateFile, if_neg hlong]
  simp [CreateEnv.ready]

theorem createFile_short (T : UpcaseTable) (hne : name.chars ≠ [])
    (h : name.chars.length + 1 ≤ maxCchType) :
    createFile T .ready name = setRole T true name.chars := by
  have hfits : 0 < name.chars.length + 1 ∧ name.chars.length + 1 ≤ maxCchType := ⟨Nat.succ_pos _, h⟩
  rw [createFile, retrieveFileName, if_neg hne]
  simp only [newFileContext, onCreateFile, if_pos hfits]
  rcases hset : setRole T true name.chars with hr | ctx
  · simp [CreateEnv.ready, hset]
  · simp [CreateEnv.ready, hset]

variable {chars : List WCHAR} {role : Role} {type : Option (List WCHAR)}

theorem NameFor.short (h : NameFor T chars role type) : chars.length + 1 ≤ maxCchType := by
  cases h with
  | empty => decide
  | plain h _ => exact h
  | slashed h _ => exact h

theorem NameFor.parts (h : NameFor T chars role type) :
    chars = [] ∨ SpaceFor T chars role type ∨ ∃ psz, chars = slash :: psz := by
  cases h with
  | empty => exact .inl rfl
  | plain _ hspace => exact .inr (.inl hspace)
  | slashed => exact .inr (.inr ⟨_, rfl⟩)

/-- A name is created by the grammar, with its role and type, exactly if it fits `MaxCchType`
together with its `NUL`. -/
theorem followsGrammar_iff (hT : UpcasesAscii T) (name : FileName) :
    FollowsGrammar T name ↔ name.chars.length < maxCchType := by
  constructor
  · intro hfollows
    by_contra hlong
    have hcreated := createFile_long T name (by omega)
    obtain ⟨role, type, hname, -⟩ := (hfollows _).mp hcreated
    have hshort := hname.short
    omega
  · intro hshort ctx
    by_cases hempty : name.chars = []
    · rw [createFile_empty T hempty, hempty]
      constructor
      · intro hok
        exact ⟨.undefined, none, .empty, (Except.ok.inj hok).symm⟩
      · rintro ⟨role, type, hname, rfl⟩
        cases hname with
        | empty => rfl
        | plain _ hspace =>
            cases hspace with
            | pubs h _ | subs h _ => exact absurd h.le_length (by decide)
    · rw [createFile_short T hempty hshort]
      by_cases hslash : name.chars.head? = some slash
      · obtain ⟨psz, hpsz⟩ : ∃ psz, name.chars = slash :: psz :=
          List.head?_eq_some_iff.mp hslash
        have hnul : (0 : WCHAR) ∉ psz := by
          intro hmem
          exact name.noNul (hpsz ▸ List.mem_cons_of_mem slash hmem)
        rw [hpsz] at hshort ⊢
        have hbuffer : pszFileName (slash :: psz) = psz ++ List.replicate 21 0 := rfl
        rw [setRole_iff hT hbuffer hnul (by rw [List.length_cons] at hshort; omega)]
        constructor
        · rintro ⟨role, type, hspace, rfl⟩
          exact ⟨role, type, .slashed hshort hspace, rfl⟩
        · rintro ⟨role, type, hname, rfl⟩
          cases hname with
          | plain _ hspace => exact absurd hspace (not_spaceFor_slash hT)
          | slashed _ hspace => exact ⟨role, type, hspace, rfl⟩
      · have hbuffer : pszFileName name.chars = name.chars ++ List.replicate 21 0 := by
          have hhead : (name.chars ++ List.replicate 21 0).head? = name.chars.head? :=
            List.head?_append_of_ne_nil _ hempty
          rw [pszFileName]
          simp only [hhead, if_neg hslash]
        rw [setRole_iff hT hbuffer name.noNul hshort]
        constructor
        · rintro ⟨role, type, hspace, rfl⟩
          exact ⟨role, type, .plain hshort hspace, rfl⟩
        · rintro ⟨role, type, hname, rfl⟩
          rcases hname.parts with hnil | hspace | ⟨psz, hpsz⟩
          · exact absurd hnil hempty
          · exact ⟨role, type, hspace, rfl⟩
          · exact absurd (by rw [hpsz, List.head?_cons]) hslash

end Files

/-- `\pubs\NDEF:x`. -/
def ndefName : FileName where
  chars := slash :: wide ['p', 'u', 'b', 's'] ++ slash :: wide ['N', 'D', 'E', 'F', ':', 'x']
  noNul := by decide

theorem followsGrammar_ndefName :
    createFile .ascii .ready ndefName =
        .ok (.create .publication (some (wide ['N', 'D', 'E', 'F', ':', 'x']))) ∧
      (FollowsGrammar .ascii ndefName ↔ ndefName.chars.length < maxCchType) :=
  ⟨by decide, followsGrammar_iff (fun _ _ => rfl) ndefName⟩

/-- As many characters as `MaxCchType`, without a namespace. -/
def longName : FileName where
  chars := List.replicate 507 97
  noNul := by
    rw [List.mem_replicate]
    exact fun h => absurd h.2 (by decide)

/-- The long name is no name of the grammar, and the file is created. -/
theorem not_followsGrammar_long :
    ¬∀ T name, UpcasesAscii T → FollowsGrammar T name := by
  intro hall
  have hlength : longName.chars.length = 507 := List.length_replicate
  have hcreated := createFile_long .ascii longName (by rw [hlength]; decide)
  obtain ⟨role, type, hname, -⟩ := (hall .ascii longName (fun _ _ => rfl) _).mp hcreated
  have hshort := hname.short
  rw [hlength] at hshort
  exact absurd hshort (by decide)

end MiscProjects.Nfp.Grammar
