import Mathlib.Data.List.TakeWhile
import MiscProjects.Nfp.Membership

/-!
# Messages from the network

`ReceiveThreadProc` fills a `MESSAGE` with the bytes of the peer, so that the type need not
end in its array.  The strings that `HandleReceivedPublication` then compares go on with
the size of the payload, which is accepted only between one and `MaxCbPayload`: its lower
half is a character and its upper half ends the string.  Such a string is longer than any
type of a subscription and than any MIME type that fits the payload.
-/

namespace MiscProjects.Nfp.Matching

open MiscProjects.Runs
open MiscProjects.Nfp.Membership

/-- A `MESSAGE` as it has been received. -/
structure NetworkMessage where
  szType : List WCHAR
  cbPayload : ℕ
  payload : List UInt8
  length_szType : szType.length = maxCchTypeNetwork
  cbPayload_lt : cbPayload < 2 ^ 32
  length_payload : payload.length = maxCbPayload

/-- Bytes as they are read as characters. -/
def words : List UInt8 → List WCHAR
  | low :: high :: bytes => UInt16.ofNat (low.toNat + 256 * high.toNat) :: words bytes
  | _ => []

/-- The memory from `m_szType` on. -/
def NetworkMessage.memory (m : NetworkMessage) : List WCHAR :=
  m.szType ++ UInt16.ofNat m.cbPayload :: UInt16.ofNat (m.cbPayload / 65536) :: words m.payload

/-- The string that `m_szType` points to. -/
def NetworkMessage.pszType (m : NetworkMessage) : List WCHAR := pwstr m.memory

def NetworkMessage.pbPayload (m : NetworkMessage) : List UInt8 := m.payload.take m.cbPayload

/-- The test of `HandleReceivedMessage`. -/
def Accepted (m : NetworkMessage) : Prop := 0 < m.cbPayload ∧ m.cbPayload ≤ maxCbPayload

instance (m : NetworkMessage) : Decidable (Accepted m) := inferInstanceAs (Decidable (_ ∧ _))

/-- The multibyte code page of the C library: a character that can be converted has at
least one byte. -/
structure CodePage where
  wctomb : WCHAR → Option (List UInt8)
  nonempty : ∀ c bytes, wctomb c = some bytes → bytes ≠ []

/-- `StringCchPrintfA(..., "%S", psz)` with room for so many bytes before the `NUL`. -/
def printfS (cp : CodePage) : ℕ → List WCHAR → Option (List UInt8)
  | _, [] => some []
  | room, c :: psz => do
      let bytes ← cp.wctomb c
      if bytes.length ≤ room then (printfS cp (room - bytes.length) psz).map (bytes ++ ·)
      else none

/-- Which allocations of `HandleReceivedPublication` succeed. -/
structure Allocations where
  newMimePayload : Bool
  newMyPayload : Bool
  newPayloadBytes : Bool

def NetworkMessage.env (cp : CodePage) (answer : Allocations) (m : NetworkMessage) :
    ReceiveEnv where
  szMimeType := printfS cp maxCchMimeType (m.pszType.drop (windowsMimeProtocolChars + 1))
  newMimePayload := answer.newMimePayload
  newMyPayload := answer.newMyPayload
  newPayloadBytes := answer.newPayloadBytes

def isMatched : MatchResult → Bool
  | .matched _ => true
  | _ => false

/-- `fSubscriptionMatches`. -/
def subscriptionMatches (cp : CodePage) (answer : Allocations) (m : NetworkMessage)
    (ctx : CFileContext) : Bool :=
  ctx.fEnabled && isMatched (matchPublication (m.env cp answer) m.pszType m.pbPayload ctx)

/-- `HandleReceivedMessage`: what becomes of each subscription of the list, and whether it
matches.  `answers` tells the allocations for each of them. -/
def handleReceivedMessage (cp : CodePage) (answers : ℕ → Allocations) (m : NetworkMessage)
    (subs : List FileState) : List (FileState × Bool) :=
  subs.mapIdx fun i s =>
    if Accepted m then
      ((handleReceivedPublication (m.env cp (answers i)) m.pszType m.pbPayload s).1,
        subscriptionMatches cp (answers i) m s.ctx)
    else (s, false)

/-- `CompareStringOrdinal(pszType, -1, psz, -1, FALSE) == CSTR_EQUAL`, one character after
the other: how many characters of the memory at `pszType` are compared, and whether the
strings are equal. -/
def compareChars : List WCHAR → List WCHAR → ℕ × Bool
  | [], _ => (0, false)
  | c :: _, [] => (1, c == 0)
  | c :: memory, d :: psz =>
      if c = d then ((compareChars memory psz).1 + 1, (compareChars memory psz).2) else (1, false)

/-- A context that `OnCreateFile` has opened as a subscription. -/
def Opened (T : UpcaseTable) (ctx : CFileContext) : Prop :=
  ∃ env fileName opened, onCreateFile T env fileName = .ok opened ∧
    opened.role = .subscription ∧ ctx.pszType = opened.pszType

/-! ## The strings -/

variable {T : UpcaseTable} {cp : CodePage} {m m' : NetworkMessage} {ctx : CFileContext}
  {memory psz type : List WCHAR}

theorem pwstr_of_mem (h : (0 : WCHAR) ∈ psz) (rest : List WCHAR) :
    pwstr (psz ++ rest) = pwstr psz := by
  induction psz with
  | nil => exact absurd h List.not_mem_nil
  | cons c psz ih =>
      rw [pwstr, pwstr, List.cons_append, List.takeWhile_cons, List.takeWhile_cons]
      by_cases hc : c = 0
      · rw [hc]
        rfl
      · rw [if_pos (bne_iff_ne.mpr hc), if_pos (bne_iff_ne.mpr hc)]
        rw [List.mem_cons] at h
        exact congrArg (c :: ·) (ih (h.resolve_left (Ne.symm hc)))

theorem pwstr_of_not_mem (h : (0 : WCHAR) ∉ psz) (rest : List WCHAR) :
    pwstr (psz ++ rest) = psz ++ pwstr rest := by
  apply List.takeWhile_append_of_pos
  rintro c hc
  apply bne_iff_ne.mpr
  rintro rfl
  exact h hc

theorem pszType_of_mem (h : (0 : WCHAR) ∈ m.szType) : m.pszType = pwstr m.szType := pwstr_of_mem h _

theorem cbPayload_high (hm : Accepted m) : UInt16.ofNat (m.cbPayload / 65536) = 0 := by
  have hle := hm.2
  rw [maxCbPayload] at hle
  rw [show m.cbPayload / 65536 = 0 by omega]
  rfl

theorem pszType_of_not_mem (h : (0 : WCHAR) ∉ m.szType) (hm : Accepted m) :
    m.pszType = m.szType ++ [UInt16.ofNat m.cbPayload] := by
  have hpos := hm.1
  have hle := hm.2
  rw [maxCbPayload] at hle
  have hlow : UInt16.ofNat m.cbPayload ≠ 0 := by
    intro heq
    have hzero := congrArg UInt16.toNat heq
    rw [UInt16.toNat_ofNat'] at hzero
    change m.cbPayload % 2 ^ 16 = 0 at hzero
    omega
  rw [NetworkMessage.pszType, NetworkMessage.memory, pwstr_of_not_mem h, cbPayload_high hm, pwstr,
    List.takeWhile_cons, if_pos (bne_iff_ne.mpr hlow)]
  rfl

theorem Opened.short (h : Opened T ctx) (htype : ctx.pszType = some type) :
    type.length < maxCchTypeNetwork ∧ (0 : WCHAR) ∉ type := by
  obtain ⟨env, fileName, opened, hopened, hrole, hsame⟩ := h
  obtain ⟨hstored, hshort⟩ := onCreateFile_accepted hopened (.inr hrole)
  rw [hsame, hstored] at htype
  split at htype
  · obtain rfl := Option.some.inj htype
    refine ⟨hshort, fun hmem => ?_⟩
    exact bne_iff_ne.mp (List.mem_takeWhile_imp (p := fun c : WCHAR => c != 0) hmem) rfl
  · cases htype

theorem length_le_of_printfS {room : ℕ} {bytes : List UInt8}
    (h : printfS cp room psz = some bytes) : psz.length ≤ room := by
  induction psz generalizing room bytes with
  | nil => exact Nat.zero_le room
  | cons c psz ih =>
      obtain ⟨first, hfirst, hrest⟩ := Option.bind_eq_some_iff.mp h
      have hpos := List.length_pos_of_ne_nil (cp.nonempty c first hfirst)
      split at hrest
      · obtain ⟨rest, hrest, -⟩ := Option.map_eq_some_iff.mp hrest
        have hle := ih hrest
        rw [List.length_cons]
        omega
      · cases hrest

/-! ## The comparison -/

theorem compareChars_le (memory psz : List WCHAR) :
    (compareChars memory psz).1 ≤ psz.length + 1 := by
  induction memory generalizing psz with
  | nil => exact Nat.zero_le _
  | cons c memory ih =>
      cases psz with
      | nil => exact Nat.le_refl 1
      | cons d psz =>
          rw [compareChars]
          split
          · exact Nat.succ_le_succ (ih psz)
          · exact Nat.succ_le_succ (Nat.zero_le _)

theorem compareChars_eq (hmemory : (0 : WCHAR) ∈ memory) (hpsz : (0 : WCHAR) ∉ psz) :
    (compareChars memory psz).2 = true ↔ pwstr memory = psz := by
  induction memory generalizing psz with
  | nil => exact absurd hmemory List.not_mem_nil
  | cons c memory ih =>
      rw [pwstr, List.takeWhile_cons]
      cases psz with
      | nil =>
          by_cases hc : c = 0
          · rw [hc]
            exact iff_of_true rfl rfl
          · rw [if_pos (bne_iff_ne.mpr hc)]
            refine iff_of_false (fun heq => hc (beq_iff_eq.mp heq)) ?_
            exact List.cons_ne_nil _ _
      | cons d psz =>
          rw [List.mem_cons, not_or] at hpsz
          rw [compareChars]
          by_cases hcd : c = d
          · subst hcd
            have hmem := (List.mem_cons.mp hmemory).resolve_left hpsz.1
            rw [if_pos rfl, if_pos (bne_iff_ne.mpr (Ne.symm hpsz.1)), List.cons.injEq]
            exact (ih hmem hpsz.2).trans (and_iff_right rfl).symm
          · rw [if_neg hcd]
            refine iff_of_false (fun heq => ?_) (fun heq => ?_)
            · cases heq
            · split at heq
              · exact hcd (List.cons.inj heq).1
              · cases heq

theorem zero_mem_memory (hm : Accepted m) : (0 : WCHAR) ∈ m.memory := by
  rw [NetworkMessage.memory, cbPayload_high hm]
  apply List.mem_append_right
  exact List.mem_cons_of_mem _ List.mem_cons_self

/-! ## Matching -/

theorem matchPublication_of_not_mem (h : (0 : WCHAR) ∉ m.szType) (hm : Accepted m)
    (hctx : Opened T ctx) (answer : Allocations) :
    matchPublication (m.env cp answer) m.pszType m.pbPayload ctx = .noMatch := by
  have hpsz := pszType_of_not_mem h hm
  have hlength : m.pszType.length = maxCchTypeNetwork + 1 := by
    rw [hpsz, List.length_append, m.length_szType]
    rfl
  have hmime : (m.env cp answer).szMimeType = none := by
    apply Option.eq_none_iff_forall_ne_some.mpr
    intro bytes hbytes
    have hle := length_le_of_printfS hbytes
    rw [List.length_drop, hlength] at hle
    exact absurd hle (by decide)
  have hother : ctx.pszType ≠ some m.pszType := by
    intro heq
    have hlt := (hctx.short heq).1
    rw [hlength] at hlt
    exact absurd hlt (by decide)
  rw [matchPublication, hmime, if_neg hother]
  split
  · rfl
  · rfl

theorem isMatched_matchPublication (env : ReceiveEnv) (psz : List WCHAR) (pbPayload : List UInt8)
    (ctx : CFileContext) : isMatched (matchPublication env psz pbPayload ctx) =
      if ctx.pszType = some windowsMimeProtocol ∧ windowsMimeProtocolChars < psz.length ∧
          psz.take windowsMimeProtocolChars = windowsMimeProtocol then
        env.szMimeType.isSome && env.newMimePayload
      else decide (ctx.pszType = some psz) := by
  unfold matchPublication
  split
  · rcases env.szMimeType with _ | szMimeType
    · rfl
    · rcases env.newMimePayload with _ | _
      · rfl
      · rfl
  · by_cases hsame : ctx.pszType = some psz
    · rw [if_pos hsame, decide_eq_true hsame]
      rfl
    · rw [if_neg hsame, decide_eq_false hsame]
      rfl

theorem subscriptionMatches_congr (h : m.pszType = m'.pszType) (answer : Allocations)
    (ctx : CFileContext) :
    subscriptionMatches cp answer m ctx = subscriptionMatches cp answer m' ctx := by
  have henv : m.env cp answer = m'.env cp answer := by
    rw [NetworkMessage.env, NetworkMessage.env, h]
  rw [subscriptionMatches, subscriptionMatches, isMatched_matchPublication,
    isMatched_matchPublication, henv, h]

theorem subscriptionMatches_eq (htype : m.szType = m'.szType) (hm : Accepted m)
    (hm' : Accepted m') (hctx : Opened T ctx) (answer : Allocations) :
    subscriptionMatches cp answer m ctx = subscriptionMatches cp answer m' ctx := by
  by_cases hmem : (0 : WCHAR) ∈ m.szType
  · apply subscriptionMatches_congr
    rw [pszType_of_mem hmem, pszType_of_mem (htype ▸ hmem), htype]
  · have hmem' : (0 : WCHAR) ∉ m'.szType := htype ▸ hmem
    rw [subscriptionMatches, subscriptionMatches, matchPublication_of_not_mem hmem hm hctx,
      matchPublication_of_not_mem hmem' hm' hctx]

/-- For any subscriptions and any two messages whose types are equal and whose sizes are
accepted, the same subscriptions match; the characters compared with a type lie in
`m_szType`. -/
theorem matching_by_type {subs : List FileState} (hsubs : ∀ s ∈ subs, Opened T s.ctx)
    (htype : m.szType = m'.szType) (hm : Accepted m) (hm' : Accepted m')
    (answers : ℕ → Allocations) :
    (handleReceivedMessage cp answers m subs).map Prod.snd =
        (handleReceivedMessage cp answers m' subs).map Prod.snd ∧
      ∀ s ∈ subs, ∀ type, s.ctx.pszType = some type →
        (compareChars m.memory type).1 ≤ maxCchTypeNetwork ∧
          ((compareChars m.memory type).2 = true ↔ m.pszType = type) := by
  constructor
  · apply List.ext_getElem?
    intro i
    rw [handleReceivedMessage, handleReceivedMessage, List.getElem?_map, List.getElem?_map,
      List.getElem?_mapIdx, List.getElem?_mapIdx]
    rcases hs : subs[i]? with _ | s
    · rfl
    · simp only [Option.map_some]
      rw [if_pos hm, if_pos hm']
      congr 1
      exact subscriptionMatches_eq htype hm hm' (hsubs s (List.mem_of_getElem? hs)) (answers i)
  · intro s hs type hstype
    obtain ⟨hshort, hnul⟩ := (hsubs s hs).short hstype
    refine ⟨?_, compareChars_eq (zero_mem_memory hm) hnul⟩
    exact Nat.le_trans (compareChars_le _ _) hshort

/-- A code page of single bytes. -/
def singleBytes : CodePage where
  wctomb c := some [c.toUInt8]
  nonempty c bytes h := by
    rw [← Option.some.inj h]
    exact List.cons_ne_nil _ _

/-- A message of the type `WindowsUri` with a payload of zeros. -/
def uriMessage (cbPayload : ℕ) (h : cbPayload < 2 ^ 32) : NetworkMessage where
  szType := windowsUriProtocol ++ List.replicate 492 0
  cbPayload := cbPayload
  payload := List.replicate maxCbPayload 0
  length_szType := by
    rw [List.length_append, List.length_replicate]
    rfl
  cbPayload_lt := h
  length_payload := List.length_replicate

/-- Two messages with different payloads and two subscriptions. -/
theorem matching_by_type_uri :
    (handleReceivedMessage singleBytes
        (fun _ => ⟨true, true, true⟩) (uriMessage 1 (by decide))
        [.create .subscription (some windowsUriProtocol),
         .create .subscription (some windowsMimeProtocol)]).map Prod.snd =
      (handleReceivedMessage singleBytes
        (fun _ => ⟨true, true, true⟩) (uriMessage 2 (by decide))
        [.create .subscription (some windowsUriProtocol),
         .create .subscription (some windowsMimeProtocol)]).map Prod.snd := by
  have hone : Accepted (uriMessage 1 (by decide)) := ⟨Nat.le_refl 1, Nat.le_add_left 1 _⟩
  have htwo : Accepted (uriMessage 2 (by decide)) := ⟨Nat.le_succ 1, Nat.le_add_left 2 _⟩
  refine (matching_by_type (T := .ascii) ?_ (by unfold uriMessage; rfl) hone htwo _).1
  intro s hs
  rw [List.mem_cons, List.mem_singleton] at hs
  rcases hs with rfl | rfl
  · exact ⟨.ready, subsNamespace ++ windowsUriProtocol, _, rfl, rfl, rfl⟩
  · exact ⟨.ready, subsNamespace ++ windowsMimeProtocol, _, rfl, rfl, rfl⟩

/-! ## The subscriptions of the queue -/

end MiscProjects.Nfp.Matching
