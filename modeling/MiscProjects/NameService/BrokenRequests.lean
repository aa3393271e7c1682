import MiscProjects.NameService.Enumeration
import MiscProjects.NameService.Hostile

/-!
# Requests that break off

A connection may end before the whole request has come, and an action may be none of those that the
service knows.  `readdata` has then closed the socket already, and the case of the action serves
what the variables hold and closes the socket again; an unknown action leaves the socket open.  Only
a connection without a byte does no harm, if the action that is left from the turn before is
unknown.
-/

namespace MiscProjects.NameService

/-- What comes is the beginning of a valid request but not all of it, or it begins with an unknown
action. -/
def Broken (incoming : List UInt8) : Prop :=
  (∃ request : WireRequest, request.Valid ∧ incoming <+: request.items.flatten ∧
      incoming ≠ request.items.flatten) ∨
    ∃ action rest, incoming = action :: rest ∧ 7 < action.toNat

/-- The turn leaves the tables of the service as they are and closes the socket once. -/
def Harmless (s : Server) (result : Option Turn) : Prop :=
  ∃ t, result = some t ∧ t.server.serviceClasses = s.serviceClasses ∧
    t.server.services = s.services ∧ t.server.queryInfo = s.queryInfo ∧ t.connection.closes = 1

/-! ## Requests and actions -/

def WireRequest.action : WireRequest → ℕ
  | .marshalled action _ => action
  | .guid action _ => action
  | .handle action _ => action

/-- What follows the action. -/
def WireRequest.parameters : WireRequest → List UInt8
  | .marshalled _ databuf => intBytes (BitVec.ofNat 32 databuf.length) ++ databuf
  | .guid _ classguid => classguid
  | .handle _ hLookup => intBytes hLookup

theorem WireRequest.flatten_items (request : WireRequest) :
    request.items.flatten = UInt8.ofNat request.action :: request.parameters := by
  cases request with
  | marshalled action databuf =>
      exact congrArg (fun l => _ :: (intBytes _ ++ l)) (List.append_nil databuf)
  | guid action classguid => exact congrArg (List.cons _) (List.append_nil classguid)
  | handle action hLookup => rfl

section Actions

theorem known_iff {action : ℕ} :
    hasBody action = true ∨ hasGuid action = true ∨ hasHandle action = true ↔ action ≤ 7 := by
  simp only [hasBody, hasGuid, hasHandle, Bool.or_eq_true, decide_eq_true_eq]
  unfold mynspRegisterClass mynspRegisterService mynspDeregisterService mynspLookupServiceBegin
    mynspDeregisterClass mynspLookupClass mynspLookupServiceNext mynspLookupServiceEnd
  omega

theorem unknown_eq_false {action : ℕ} (h : 7 < action) :
    hasBody action = false ∧ hasGuid action = false ∧ hasHandle action = false := by
  have hnone := mt known_iff.mp (Nat.not_le.mpr h)
  simp only [not_or, Bool.not_eq_true] at hnone
  exact hnone

theorem action_toNat {action : ℕ}
    (hknown : hasBody action = true ∨ hasGuid action = true ∨ hasHandle action = true) :
    (UInt8.ofNat action).toNat = action := by
  have hle := known_iff.mp hknown
  rw [UInt8.toNat_ofNat']
  omega

end Actions

section Turns
variable {lstrcmpW : Name → Name → Bool} {p : Process} {l : Locals} {c : Connection} {s : Server}
  {r : Request} {incoming received : List UInt8} {deliveries : List ℕ} {fails : Bool}

/-! ## The socket is closed again -/

theorem Harmless.open_answer (h : Harmless s (answerAndClose lstrcmpW s r l c)) : c.closes = 0 := by
  obtain ⟨t, hturn, -, -, -, hcloses⟩ := h
  obtain ⟨⟨s', answer⟩, -, rfl⟩ := Option.map_eq_some_iff.mp hturn
  exact Nat.succ.inj hcloses

theorem Harmless.open_body (h : Harmless s (decode lstrcmpW p l c s))
    (hbody : hasBody l.action.toNat = true) : (readBody l c).2.2.closes = 0 := by
  unfold decode at h
  dsimp only at h
  rw [if_pos hbody] at h
  obtain ⟨t, hturn, htables⟩ := h
  obtain ⟨r, -, hturn⟩ := Option.bind_eq_some_iff.mp hturn
  exact Harmless.open_answer ⟨t, hturn, htables⟩

theorem Harmless.open_guid (h : Harmless s (decode lstrcmpW p l c s))
    (hbody : hasBody l.action.toNat = false) (hguid : hasGuid l.action.toNat = true) :
    (c.readdata 16 16).2.closes = 0 := by
  unfold decode at h
  dsimp only at h
  rw [hbody, if_neg Bool.false_ne_true, if_pos hguid] at h
  split at h
  · exact h.open_answer
  · exact h.open_answer

theorem Harmless.open_handle (h : Harmless s (decode lstrcmpW p l c s))
    (hbody : hasBody l.action.toNat = false) (hguid : hasGuid l.action.toNat = false)
    (hhandle : hasHandle l.action.toNat = true) : (c.readdata 4 4).2.closes = 0 := by
  unfold decode at h
  dsimp only at h
  rw [hbody, hguid, if_neg Bool.false_ne_true, if_neg Bool.false_ne_true, if_pos hhandle] at h
  split at h
  · exact h.open_answer
  · exact h.open_answer

/-! ## Where the request breaks off -/

theorem length_lt_of_beginning {l full : List UInt8} (h : l <+: full) (hne : l ≠ full) :
    l.length < full.length :=
  Nat.lt_of_le_of_ne h.length_le fun hlength => hne (h.eq_of_length hlength)

theorem closes_body {databuf : List UInt8} (hopen : c.closes = 0)
    (hfits : databuf.length ≤ bufferSz) (hlt : c.incoming.length < 4 + databuf.length)
    (hbeginning : c.incoming <+: intBytes (BitVec.ofNat 32 databuf.length) ++ databuf) :
    (readBody l c).2.2.closes ≠ 0 := by
  rw [readBody_connection]
  by_cases hlength : c.incoming.length < 4
  · have hcloses := (@readdata_short c 4 4 hopen hlength hlength).1
    have hle := readdata_closes (c.readdata 4 4).2 bufferSz
      (l.setBytes2follow (c.readdata 4 4).1).bytes2follow
    omega
  · obtain ⟨hopen', hbytes, hincoming⟩ := @readdata_full c 4 4 hopen rfl (Nat.not_lt.mp hlength)
    have htake : c.incoming.take 4 = intBytes (BitVec.ofNat 32 databuf.length) := by
      rw [List.prefix_iff_eq_take.mp hbeginning, List.take_take,
        Nat.min_eq_left (Nat.not_lt.mp hlength)]
      rfl
    have hword : (l.setBytes2follow (c.readdata 4 4).1).bytes2follow =
        BitVec.ofNat 32 databuf.length := by
      rw [hbytes, htake]
      exact intAt_intBytes _
    have hsize : (BitVec.ofNat 32 databuf.length).toNat = databuf.length := by
      rw [BitVec.toNat_ofNat, Nat.mod_eq_of_lt (Nat.lt_of_le_of_lt hfits (by decide))]
    have hleft : (c.readdata 4 4).2.incoming.length < databuf.length := by
      rw [hincoming, List.length_drop]
      omega
    rw [hword, (readdata_short hopen' (by rw [hsize]; exact hleft)
      (Nat.lt_of_lt_of_le hleft hfits)).1]
    decide

theorem not_harmless_brokenOff {request : WireRequest} (hvalid : request.Valid)
    (haction : l.action = UInt8.ofNat request.action) (hopen : c.closes = 0)
    (hbeginning : c.incoming <+: request.parameters)
    (hlt : c.incoming.length < request.parameters.length) :
    ¬Harmless s (decode lstrcmpW p l c s) := by
  intro hharmless
  cases request with
  | marshalled action databuf =>
      obtain ⟨hbody, hsize⟩ := hvalid
      have hnumber : l.action.toNat = action := by
        rw [haction]
        exact action_toNat (.inl hbody)
      rw [WireRequest.parameters, List.length_append, length_intBytes] at hlt
      exact closes_body hopen hsize hlt hbeginning (hharmless.open_body (by rw [hnumber, hbody]))
  | guid action classguid =>
      obtain ⟨hguid, hsize⟩ := hvalid
      have hnumber : l.action.toNat = action := by
        rw [haction]
        exact action_toNat (.inr (.inl hguid))
      have hbody := (actionOf_ofNat (.inr (.inl hguid))).2.1 hguid
      rw [WireRequest.parameters, hsize] at hlt
      have hshort := (@readdata_short c 16 16 hopen hlt hlt).1
      rw [hharmless.open_guid (by rw [hnumber, hbody]) (by rw [hnumber, hguid])] at hshort
      cases hshort
  | handle action hLookup =>
      have hhandle : hasHandle action = true := hvalid
      have hnumber : l.action.toNat = action := by
        rw [haction]
        exact action_toNat (.inr (.inr hhandle))
      obtain ⟨hbody, hguid⟩ := (actionOf_ofNat (.inr (.inr hhandle))).2.2 hhandle
      rw [WireRequest.parameters, length_intBytes] at hlt
      have hshort := (@readdata_short c 4 4 hopen hlt hlt).1
      rw [hharmless.open_handle (by rw [hnumber, hbody]) (by rw [hnumber, hguid])
        (by rw [hnumber, hhandle])] at hshort
      cases hshort

theorem decode_unknown (h : 7 < l.action.toNat) :
    decode lstrcmpW p l c s = some ⟨s, none, l, c⟩ := by
  obtain ⟨hbody, hguid, hhandle⟩ := unknown_eq_false h
  unfold decode
  dsimp only
  rw [hbody, hguid, hhandle]
  rfl

theorem not_harmless_closed (hknown : l.action.toNat ≤ 7) (hclosed : c.closes ≠ 0) :
    ¬Harmless s (decode lstrcmpW p l c s) := by
  intro hharmless
  apply hclosed
  by_cases hbody : hasBody l.action.toNat = true
  · have hzero := hharmless.open_body hbody
    rw [readBody_connection] at hzero
    have hle := readdata_closes c 4 4
    have hle' := readdata_closes (c.readdata 4 4).2 bufferSz
      (l.setBytes2follow (c.readdata 4 4).1).bytes2follow
    omega
  · rw [Bool.not_eq_true] at hbody
    by_cases hguid : hasGuid l.action.toNat = true
    · have hzero := hharmless.open_guid hbody hguid
      have hle := readdata_closes c 16 16
      omega
    · rw [Bool.not_eq_true] at hguid
      have hhandle : hasHandle l.action.toNat = true := by
        rcases known_iff.mpr hknown with h | h | h
        · rw [hbody] at h
          cases h
        · rw [hguid] at h
          cases h
        · exact h
      have hzero := hharmless.open_handle hbody hguid hhandle
      have hle := readdata_closes c 4 4
      omega

/-! ## A turn on a request that breaks off -/

theorem readAction_nothing : (readAction l (.accepted [] deliveries fails)).1 = l ∧
      (readAction l (.accepted [] deliveries fails)).2.closes = 1 := by
  obtain ⟨hcloses, hbytes⟩ := @readdata_short (.accepted [] deliveries fails) 1 1 rfl
    Nat.zero_lt_one Nat.zero_lt_one
  refine ⟨?_, hcloses⟩
  unfold readAction
  dsimp only
  rw [hbytes]
  rfl

theorem readAction_byte {action : UInt8} {rest : List UInt8} :
    (readAction l (.accepted (action :: rest) deliveries fails)).1.action = action ∧
      (readAction l (.accepted (action :: rest) deliveries fails)).2.closes = 0 ∧
      (readAction l (.accepted (action :: rest) deliveries fails)).2.incoming = rest := by
  obtain ⟨hopen, hbytes, hincoming⟩ := @readdata_full
    (.accepted (action :: rest) deliveries fails) 1 1 rfl rfl (Nat.succ_le_succ (Nat.zero_le _))
  refine ⟨?_, hopen, hincoming⟩
  unfold readAction
  dsimp only
  rw [hbytes]
  rfl

/-- A request that breaks off or has an unknown action leaves the tables as they are and has its
socket closed once exactly if not a byte has come and the action that is left from the turn before
is unknown. -/
theorem harmless_iff (p : Process) (l : Locals) (s : Server) (deliveries : List ℕ) (fails : Bool)
    (hbroken : Broken incoming) :
    Harmless s (turn lstrcmpW p l (.accepted incoming deliveries fails) s) ↔
      incoming = [] ∧ 7 < l.action.toNat := by
  unfold turn
  dsimp only
  cases incoming with
  | nil =>
      obtain ⟨hlocals, hclosed⟩ := @readAction_nothing l deliveries fails
      rw [hlocals]
      constructor
      · intro hharmless
        refine ⟨rfl, Nat.lt_of_not_le fun hknown => ?_⟩
        exact not_harmless_closed hknown (by rw [hclosed]; decide) hharmless
      · rintro ⟨-, hunknown⟩
        rw [decode_unknown hunknown]
        exact ⟨_, rfl, rfl, rfl, rfl, hclosed⟩
  | cons action rest =>
      obtain ⟨haction, hopen, hincoming⟩ := @readAction_byte l deliveries fails action rest
      refine iff_of_false ?_ fun h => List.cons_ne_nil _ _ h.1
      rcases hbroken with ⟨request, hvalid, hbeginning, hne⟩ | ⟨first, later, hfirst, hunknown⟩
      · rw [request.flatten_items] at hbeginning hne
        obtain ⟨hfirst, hbeginning⟩ := List.cons_prefix_cons.mp hbeginning
        have hlt : rest.length < request.parameters.length :=
          length_lt_of_beginning hbeginning fun heq => hne (by rw [hfirst, heq])
        apply not_harmless_brokenOff hvalid (haction.trans hfirst) hopen
        · rw [hincoming]
          exact hbeginning
        · rw [hincoming]
          exact hlt
      · obtain ⟨rfl, rfl⟩ := List.cons.inj hfirst
        rw [decode_unknown (by rw [haction]; exact hunknown)]
        rintro ⟨t, hturn, -, -, -, hcloses⟩
        obtain rfl := Option.some.inj hturn
        dsimp only at hcloses
        rw [hopen] at hcloses
        cases hcloses

end Turns

/-! ## A query that is performed again -/

/-- After a request with an unknown action a connection without a byte does no harm. -/
theorem harmless_iff_nothing :
    Harmless wildcardBegun (turn sameName emptyProcess { clearLocals with action := 8 }
      (.accepted [] [] true) wildcardBegun) :=
  (harmless_iff emptyProcess { clearLocals with action := 8 } wildcardBegun [] true
    (.inl ⟨.handle 6 0, rfl, List.nil_prefix, by decide⟩)).mpr ⟨rfl, by decide⟩

/-- The query is performed for a client, and then once more for a connection without a byte: it
moves on to the next service, and the socket is closed three times. -/
theorem not_harmless_noByte :
    ∃ t, turn sameName emptyProcess clearLocals
        (.accepted (WireRequest.handle 6 1).items.flatten [0, 3] false) wildcardBegun = some t ∧
      ¬Harmless t.server
        (turn sameName emptyProcess t.locals (.accepted [] [] false) t.server) := by
  refine ⟨_, rfl, ?_⟩
  rintro ⟨t, hturn, -, -, hqueries, -⟩
  obtain rfl := Option.some.inj hturn
  exact absurd hqueries (by decide)

end MiscProjects.NameService
