import MiscProjects.Library.Threads
import MiscProjects.NfpConnections.Driver

/-!
# What the threads of the driver hold

Besides the locks a thread may hold the construction of a connection, its
callback, or its destruction, and the opening of a handle.  Instructions are
ordered: a thread enters only locks that rank below what it holds.  This does
not depend on the state, and holds in every run.
-/

namespace MiscProjects.NfpConnections

open Function (update update_self update_of_ne)
open Threads Instr

inductive Token
  | lock (l : Lock)
  | callback (c : ConnectionPtr)
  | establishing (c : ConnectionPtr)
  | deleting (c : ConnectionPtr)
  | opening (f : FilePtr)
deriving DecidableEq

/-- Who holds a token waits only for tokens of lower rank, except that the connection
lock may be held when a callback is waited for.  Nobody waits for those of rank `5`. -/
def Token.rank : Token → ℕ
  | .lock (.role _) => 0
  | .lock .subs => 1
  | .lock .connection => 2
  | .callback _ => 3
  | .lock .pubs => 4
  | .establishing _ | .deleting _ | .opening _ => 5

namespace Instr

def acquires : Instr → Option Token
  | enter l => some (.lock l)
  | _ => none

def carries : Instr → List Token
  | leave l => [.lock l]
  | storePayload f | testRole f => [.lock (.role f)]
  | validateAccept c | initializeAsClient c _ | finalizeEstablish c _ | abandon c _ | submit c
  | newMessage c | walkPubs c | walked c => [.establishing c]
  | insertConnection c => [.lock .connection, .establishing c]
  | receiveThreadProc c | newReceived c | testSocket c | recv c | connectionTerminated c
  | testInbound c _ | testNoMore c _ _ | finish c _ => [.callback c]
  | removeConnection c => [.lock .connection, .callback c]
  | destroyWork c | awaitWork c | closeWork c | free c => [.deleting c]
  | opened f => [.opening f]
  | _ => []

/-- The connection whose object the instruction, or one that it leads to, uses. -/
def refers : Instr → Option ConnectionPtr
  | validateAccept c | initializeAsClient c _ | finalizeEstablish c _ | abandon c _ | submit c
  | insertConnection c | newMessage c | walkPubs c | publish c _ | transmit c _ | send c _
  | terminate c | testThread c | exchangeSocket c | receiveThreadProc c | newReceived c
  | testSocket c | recv c | connectionTerminated c | removeConnection c | testInbound c _
  | testNoMore c _ false | finish c false | destroyWork c | awaitWork c | closeWork c | free c
  | flink c => some c
  | _ => none

/-- The event that the thread has decided to raise. -/
def raises : Instr → Option Bool
  | addEvent arrival => some arrival
  | testInbound _ true | testNoMore _ true _ => some false
  | _ => none

/-- The subscription that is told an event. -/
def tells : Instr → Option (FilePtr × Bool)
  | handleEvent f arrival => some (f, arrival)
  | _ => none

end Instr

instance : Holding Instr Token := ⟨Instr.acquires, Instr.carries⟩

theorem acquires_eq_none {i : Instr} (henter : ∀ l, i ≠ enter l) : Holding.acquires i = none := by
  cases i with
  | enter l => exact absurd rfl (henter l)
  | _ => rfl

theorem acquires_ne {k : Token} (hk : ∀ l, k ≠ .lock l) (i : Instr) :
    Holding.acquires i ≠ some k := by
  cases i with
  | enter l => exact fun h => hk l (Option.some.inj h).symm
  | _ => exact (Option.some_ne_none k).symm

theorem held_cons (i : Instr) (p : List Instr) :
    held (i :: p) =
      match i with
      | enter l => (held p).erase (.lock l)
      | i => i.carries ++ held p := by
  cases i <;> rfl

attribute [local simp] held_cons carries

/-- Everything that is held ranks above `n`. -/
def Above (n : ℕ) (p : List Instr) : Prop :=
  ∀ k ∈ held p, n < k.rank

/-- No instruction raises an event. -/
def Silent (p : List Instr) : Prop :=
  ∀ j ∈ p, j.raises = none ∧ j.tells = none

/-- No instruction uses a connection or raises an event. -/
def Quiet (p : List Instr) : Prop :=
  Silent p ∧ ∀ j ∈ p, j.refers = none

/-- An instruction and what comes after it, as the functions of the driver have them. -/
def Fits (i : Instr) (p : List Instr) : Prop :=
  match i with
  | enter l =>
      .lock l ∈ held p ∧ ∀ k ∈ (held p).erase (.lock l), (Token.lock l).rank < k.rank
  | leave l => .lock l ∉ held p ∧ (l = .subs → Silent p)
  | validateAccept _ | initializeAsClient _ _ | finalizeEstablish _ _ | submit _
  | insertConnection _ | newMessage _ | storePayload _ | newPayload _ | testRole _
  | createConnection _ => held p = [] ∧ Quiet p
  | abandon _ _ | walked _ => Quiet p
  | walkPubs _ => held p = [.lock .pubs] ∧ Quiet p
  | publish _ _ | transmit _ _ | send _ _ | walkConnections _ | walkSubs => Above 0 p
  | addEvent _ => .lock .subs ∈ held p ∧ Above 0 p ∧ Silent p
  | handleEvent _ _ => .lock .subs ∈ held p
  | handleReceivedMessage => Above 1 p ∧ Silent p
  | receiveThreadProc _ | newReceived _ | testSocket _ | recv _ | connectionTerminated _
  | removeConnection _ | testInbound _ _ | testNoMore _ _ _ | finish _ _ | complete _
  | opened _ | deleteContext _ => p = []
  | destroyWork _ | awaitWork _ | closeWork _ | free _ => ∀ j ∈ p, j.refers = none
  | register f => .lock .subs ∈ held p ∧ .opening f ∈ held p ∧ register f ∉ p
  | _ => True

/-! ## What an instruction leads to -/

section Next
variable {d : Driver} {t : ThreadId} {ok : Bool} {i : Instr} {p : List Instr} {k : Token}

/-- What the thread holds because of what an instruction leads to. -/
def Driver.keeps (d : Driver) (ok : Bool) : Instr → List Token
  | validateAccept c | newMessage c => if ok then [.establishing c] else []
  | initializeAsClient c _ | submit c | walkPubs c => [.establishing c]
  | finalizeEstablish c client =>
      if (d.connection c).state = .initial ∧ ok ∨ client.isSome then [.establishing c] else []
  | insertConnection c => [.lock .connection, .establishing c]
  | receiveThreadProc c | newReceived c | testSocket c | recv c | connectionTerminated c
  | testNoMore c _ _ => [.callback c]
  | testInbound c _ =>
      if (d.connection c).fInboundConnection then [.deleting c, .callback c] else [.callback c]
  | removeConnection c => [.lock .connection, .callback c]
  | destroyWork c | awaitWork c | closeWork c => [.deleting c]
  | storePayload f | testRole f => [.lock (.role f)]
  | createConnection _ => if ok then [.establishing d.connections] else []
  | deleteContext f => ((d.file f).connection.map .deleting).toList
  | _ => []

attribute [local simp] Driver.next Driver.keeps

theorem held_role (f : FilePtr) (p : List Instr) :
    held (enter (.role f) :: leave (.role f) :: p) = held p := by
  simp

theorem held_raise (arrival : Bool) (p : List Instr) : held (raise arrival ++ p) = held p := by
  simp [raise]

theorem held_visitSub (f : FilePtr) (p : List Instr) : held (visitSub f ++ p) = held p := by
  simp [visitSub]

theorem held_visitEventSub (arrival : Bool) (f : FilePtr) (p : List Instr) :
    held (visitEventSub arrival f ++ p) = held p := by
  simp [visitEventSub]

theorem held_visitConnection (f : FilePtr) (c : ConnectionPtr) (p : List Instr) :
    held (visitConnection f c ++ p) = held p := by
  simp [visitConnection]

theorem held_publish (c : ConnectionPtr) (l : List FilePtr) (p : List Instr) :
    held (l.map (publish c) ++ p) = held p := by
  rw [List.map_eq_flatMap]
  exact held_flatMap (fun _ _ _ => rfl) p

theorem held_next (d : Driver) (t : ThreadId) (ok : Bool) (i : Instr) (p : List Instr) :
    held (d.next t ok i ++ p) = d.keeps ok i ++ held p := by
  cases i
  all_goals simp only [Driver.next, Driver.keeps]
  case validateAccept c | initializeAsClient c f | newReceived c | recv c | publish c f |
      transmit c f | terminate c | testThread c | testSocket c | createConnection f |
      testInbound c noMore | storePayload f | testRole f =>
    split <;> rfl
  case newMessage c | handleReceivedMessage | newPayload f | send c f => split <;> simp
  case finalizeEstablish c client =>
    split
    case isTrue hok => simp [hok]
    case isFalse hok => cases client <;> simp [hok]
  case submit c | connectionTerminated c => simp
  case insertConnection c =>
    split
    case isTrue =>
      change _ :: held (raise true ++ (newMessage c :: p)) = _
      rw [held_raise]
      rfl
    case isFalse => rfl
  case walkPubs c =>
    simp only [List.append_assoc]
    exact held_publish c _ _
  case testNoMore c noMore deleted =>
    cases noMore with
    | false => rfl
    | true => exact held_raise false (finish c deleted :: p)
  case destroyWork c =>
    split
    · split <;> rfl
    · rfl
  case walkSubs => exact held_flatMap (fun f _ => held_visitSub f) p
  case addEvent arrival => exact held_flatMap (fun f _ => held_visitEventSub arrival f) p
  case walkConnections f => exact held_flatMap (fun c _ => held_visitConnection f c) p
  case deleteContext f =>
    cases (d.file f).connection with
    | none => exact held_role f p
    | some c => exact congrArg (_ :: ·) (held_role f p)
  all_goals rfl

theorem lock_mem_keeps (d : Driver) (ok : Bool) {i : Instr} (l : Lock) (henter : ∀ l, i ≠ enter l)
    (hleave : ∀ l, i ≠ leave l) : .lock l ∈ d.keeps ok i ↔ .lock l ∈ i.carries := by
  cases i with
  | enter l => exact absurd rfl (henter l)
  | leave l => exact absurd rfl (hleave l)
  | validateAccept c | newMessage c | finalizeEstablish c client | testInbound c noMore
  | createConnection f =>
      simp only [Driver.keeps, carries]
      split <;> simp
  | deleteContext f => simp
  | _ => simp

end Next

/-! ## The order of the locks -/

section Order
variable {n : ℕ} {i : Instr} {p : List Instr} {k : Token} {c : ConnectionPtr} {f : FilePtr}

theorem Above.not_mem (h : Above n p) (hk : k.rank ≤ n) : k ∉ held p :=
  fun hmem => absurd (h k hmem) (Nat.not_lt.mpr hk)

theorem Above.mono {m : ℕ} (h : Above n p) (hm : m ≤ n) : Above m p :=
  fun k hk => hm.trans_lt (h k hk)

theorem above_of_held_eq_nil (h : held p = []) : Above n p := by
  intro k hk
  rw [h] at hk
  cases hk

variable {l : Lock} {j : Instr}

theorem above_cons (hj : j.acquires = none) (hcarries : ∀ k ∈ j.carries, n < k.rank)
    (h : Above n p) : Above n (j :: p) := by
  intro k hk
  rw [held_cons_of_carries (show Holding.acquires j = none from hj)] at hk
  rcases List.mem_append.mp hk with hk | hk
  · exact hcarries k hk
  · exact h k hk

theorem silent_nil : Silent [] := by
  intro j hj
  cases hj

theorem Silent.cons (h : Silent p) (hraises : j.raises = none)
    (htells : j.tells = none) : Silent (j :: p) := by
  intro j' hj'
  rcases List.mem_cons.mp hj' with rfl | hj'
  · exact ⟨hraises, htells⟩
  · exact h j' hj'

theorem quiet_nil : Quiet [] := by
  refine ⟨silent_nil, fun j hj => ?_⟩
  cases hj

theorem Quiet.cons (h : Quiet p) (hrefers : j.refers = none)
    (hraises : j.raises = none) (htells : j.tells = none) : Quiet (j :: p) := by
  refine ⟨h.1.cons hraises htells, fun j' hj' => ?_⟩
  rcases List.mem_cons.mp hj' with rfl | hj'
  · exact hrefers
  · exact h.2 j' hj'

theorem fits_enter {q : List Instr} (hl : held q = .lock l :: held p)
    (h : ∀ k ∈ held p, (Token.lock l).rank < k.rank) : Fits (enter l) q := by
  refine ⟨?_, fun k hk => h k ?_⟩
  · rw [hl]
    exact List.mem_cons_self
  · simpa [hl] using hk

theorem fits_leave (h : .lock l ∉ held p) (hl : l ≠ .subs) : Fits (leave l) p :=
  ⟨h, fun heq => absurd heq hl⟩

theorem fits_section (hj : j.acquires = none) (hcarries : j.carries = [])
    (h : Above (Token.lock l).rank p) (hsilent : l = .subs → Silent p)
    (hfits : Fits j (leave l :: p)) (hp : EachFits Fits p) :
    EachFits Fits (enter l :: j :: leave l :: p) := by
  have hheld : held (j :: leave l :: p) = .lock l :: held p := by
    rw [held_cons_of_carries (show Holding.acquires j = none from hj)]
    exact congrArg (· ++ _) hcarries
  exact ⟨fits_enter hheld h, hfits, ⟨h.not_mem le_rfl, hsilent⟩, hp⟩

theorem fits_role (h : Above 0 p) (hp : EachFits Fits p) :
    EachFits Fits (enter (.role f) :: leave (.role f) :: p) := by
  refine ⟨⟨List.mem_cons_self, fun k hk => h k ?_⟩, fits_leave (h.not_mem le_rfl) (by simp), hp⟩
  simpa using hk

theorem fits_raise {arrival : Bool} (h : Above 1 p) (hsilent : Silent p)
    (hp : EachFits Fits p) : EachFits Fits (raise arrival ++ p) := by
  refine fits_section rfl rfl h (fun _ => hsilent) ⟨List.mem_cons_self, ?_, ?_⟩ hp
  · exact above_cons rfl (by simp [carries, Token.rank]) (h.mono (Nat.zero_le _))
  · exact hsilent.cons rfl rfl

theorem eachFits_next (d : Driver) (t : ThreadId) (ok : Bool) (hfits : Fits i p)
    (hp : EachFits Fits p) : EachFits Fits (d.next t ok i ++ p) := by
  cases i
  all_goals dsimp only [Driver.next]
  case validateAccept c | publish c f | transmit c f | createConnection f =>
    split
    · exact ⟨hfits, hp⟩
    · exact hp
  case initializeAsClient c f =>
    split
    · exact ⟨hfits, hp⟩
    · exact ⟨hfits.2, hp⟩
  case finalizeEstablish c client =>
    split
    · exact ⟨hfits, hp⟩
    · cases client with
      | none => exact hp
      | some f => exact ⟨hfits.2, hp⟩
  case submit c =>
    refine ⟨fits_enter (p := newMessage c :: p) rfl ?_, hfits, hp⟩
    exact above_cons rfl (by simp [carries, Token.rank]) (above_of_held_eq_nil hfits.1)
  case insertConnection c =>
    have hrest : EachFits Fits (newMessage c :: p) := ⟨hfits, hp⟩
    have habove : Above 2 (newMessage c :: p) :=
      above_cons rfl (by simp [carries, Token.rank]) (above_of_held_eq_nil hfits.1)
    split
    · refine ⟨fits_leave ?_ (by simp),
        fits_raise (habove.mono (by decide)) (hfits.2.1.cons rfl rfl) hrest⟩
      change _ ∉ held (raise true ++ newMessage c :: p)
      rw [held_raise]
      exact habove.not_mem le_rfl
    · exact ⟨fits_leave (habove.not_mem le_rfl) (by simp), hrest⟩
  case newMessage c =>
    split
    · refine ⟨?_, ⟨?_, hfits.2.cons rfl rfl rfl⟩, ?_, hp⟩
      · refine ⟨List.mem_cons_of_mem _ List.mem_cons_self, fun k hk => ?_⟩
        obtain rfl : k = .establishing c := by simpa [hfits.1] using hk
        exact (by decide : 4 < 5)
      · exact congrArg (_ :: ·) hfits.1
      · exact fits_leave ((above_of_held_eq_nil (n := 4) hfits.1).not_mem le_rfl) (by simp)
    · exact hp
  case walkPubs c =>
    simp only [List.append_assoc, List.map_eq_flatMap]
    refine EachFits.flatMap (P := Above 0) ⟨hfits.2, hp⟩ ?_ fun f _ q hq => ⟨hq, fun h => ⟨hq, h⟩⟩
    refine above_cons rfl (by simp [carries, Token.rank]) ?_
    simp [Above, hfits.1, Token.rank]
  case send c f =>
    split
    · exact fits_role hfits hp
    · exact ⟨trivial, hp⟩
  case terminate c =>
    split
    · exact hp
    · exact ⟨trivial, hp⟩
  case testThread c =>
    split
    · exact ⟨trivial, hp⟩
    · exact ⟨trivial, trivial, hp⟩
  case receiveThreadProc c => exact ⟨hfits, hp⟩
  case awaitWork c | closeWork c => exact ⟨hfits, hp⟩
  case newReceived c =>
    split
    · exact ⟨hfits, hp⟩
    · exact ⟨trivial, hfits, hp⟩
  case recv c =>
    obtain rfl : p = [] := hfits
    split
    · refine ⟨⟨?_, silent_nil.cons rfl rfl⟩, rfl, hp⟩
      exact above_cons rfl (by simp [carries, Token.rank]) (above_of_held_eq_nil rfl)
    · exact ⟨trivial, rfl, hp⟩
  case testSocket c => split <;> exact ⟨hfits, hp⟩
  case handleReceivedMessage =>
    split
    · refine fits_section rfl rfl hfits.1 (fun _ => hfits.2) ?_ hp
      exact above_cons rfl (by simp [carries, Token.rank]) (hfits.1.mono (Nat.zero_le _))
    · exact hp
  case walkSubs =>
    exact EachFits.flatMap (P := Above 0) hp hfits fun f _ q hq =>
      ⟨fun k hk => hq k (held_visitSub f q ▸ hk), fits_role hq⟩
  case connectionTerminated c =>
    obtain rfl : p = [] := hfits
    refine ⟨fits_enter (p := [finish c true]) rfl ?_, rfl, hp⟩
    simp [Token.rank]
  case removeConnection c =>
    obtain rfl : p = [] := hfits
    refine ⟨fits_leave ?_ (by simp), rfl, hp⟩
    simp
  case testInbound c noMore =>
    obtain rfl : p = [] := hfits
    split
    · refine ⟨trivial, fun j hj => ?_, rfl, hp⟩
      obtain rfl := List.mem_singleton.mp hj
      rfl
    · exact ⟨rfl, hp⟩
  case testNoMore c noMore deleted =>
    obtain rfl : p = [] := hfits
    have hrest : EachFits Fits [finish c deleted] := ⟨rfl, hp⟩
    cases noMore with
    | false => exact hrest
    | true =>
        refine fits_raise ?_ (silent_nil.cons rfl rfl) hrest
        exact above_cons rfl (by simp [carries, Token.rank]) (above_of_held_eq_nil rfl)
  case destroyWork c =>
    split
    · split <;> exact ⟨hfits, hp⟩
    · exact ⟨hfits, hp⟩
  case addEvent arrival =>
    refine EachFits.flatMap (P := fun q => .lock .subs ∈ held q ∧ Above 0 q) hp
      ⟨hfits.1, hfits.2.1⟩ fun f _ q hq => ⟨⟨?_, fun k hk => hq.2 k ?_⟩, fun h => ?_⟩
    · rw [held_visitEventSub]
      exact hq.1
    · rwa [held_visitEventSub] at hk
    · obtain ⟨henter, hleave, hq'⟩ := fits_role (f := f) hq.2 h
      exact ⟨henter, List.mem_cons_of_mem _ hq.1, hleave, hq'⟩
  case storePayload f | testRole f =>
    have hnot : .lock (.role f) ∉ held p := (above_of_held_eq_nil (n := 0) hfits.1).not_mem le_rfl
    split
    · exact ⟨fits_leave hnot (by simp), hfits, hp⟩
    · exact ⟨fits_leave hnot (by simp), hp⟩
  case newPayload f =>
    have habove : Above 4 p := above_of_held_eq_nil hfits.1
    split
    · have hpubs : EachFits Fits (enter .pubs :: joinPubs f :: leave .pubs :: p) :=
        fits_section rfl rfl habove (fun hl => by cases hl) trivial hp
      have hheld : held (enter .pubs :: joinPubs f :: leave .pubs :: p) = [] := by
        simp [hfits.1]
      refine fits_section rfl rfl (above_of_held_eq_nil hheld) (fun hl => by cases hl) ?_ hpubs
      exact above_cons rfl (by simp [carries, Token.rank]) (above_of_held_eq_nil hheld)
    · exact hp
  case walkConnections f =>
    exact EachFits.flatMap (P := Above 0) hp hfits fun c _ q hq =>
      ⟨fun k hk => hq k (held_visitConnection f c q ▸ hk), fun h => ⟨hq, trivial, h⟩⟩
  case deleteContext f =>
    obtain rfl : p = [] := hfits
    have hrest : EachFits Fits [enter (.role f), leave (.role f)] :=
      fits_role (above_of_held_eq_nil rfl) hp
    cases (d.file f).connection with
    | none => exact hrest
    | some c =>
        refine ⟨trivial, fun j hj => ?_, hrest⟩
        rcases List.mem_cons.mp hj with rfl | hj
        · rfl
        · obtain rfl := List.mem_singleton.mp hj
          rfl
  all_goals exact hp

end Order

/-! ## The instructions that come next -/

section Leads
variable {d : Driver} {t : ThreadId} {ok : Bool} {i j : Instr} {c : ConnectionPtr} {f : FilePtr}

/-- What an instruction leads to, and in which state. -/
inductive Leads (d : Driver) (t : ThreadId) (ok : Bool) : Instr → Instr → Prop
  | enter {i : Instr} (l : Lock) : Leads d t ok i (enter l)
  | leave {i : Instr} {l : Lock} (hl : l ≠ .connection) : Leads d t ok i (leave l)
  | leaveConnection {i : Instr} (hi : (∃ c, i = insertConnection c) ∨
      (∃ c, i = removeConnection c) ∨ ∃ f, i = newPayload f) :
      Leads d t ok i (leave .connection)
  | accepted {c : ConnectionPtr} : Leads d t ok (validateAccept c) (finalizeEstablish c none)
  | initialized {c : ConnectionPtr} {f : FilePtr} :
      Leads d t ok (initializeAsClient c f) (finalizeEstablish c (some f))
  | notInitialized {c : ConnectionPtr} {f : FilePtr} :
      Leads d t ok (initializeAsClient c f) (abandon c f)
  | established {c : ConnectionPtr} {client : Option FilePtr}
      (hinitial : (d.connection c).state = .initial) (hok : ok = true) :
      Leads d t ok (finalizeEstablish c client) (submit c)
  | notEstablished {c : ConnectionPtr} {f : FilePtr} :
      Leads d t ok (finalizeEstablish c (some f)) (abandon c f)
  | submitted {c : ConnectionPtr} : Leads d t ok (submit c) (insertConnection c)
  | arrived {c : ConnectionPtr} : Leads d t ok (insertConnection c) (addEvent true)
  | inserted {c : ConnectionPtr} : Leads d t ok (insertConnection c) (newMessage c)
  | walks {c : ConnectionPtr} : Leads d t ok (newMessage c) (walkPubs c)
  | visits {c : ConnectionPtr} {f : FilePtr} : Leads d t ok (walkPubs c) (publish c f)
  | walked {c : ConnectionPtr} : Leads d t ok (walkPubs c) (walked c)
  | publishes {c : ConnectionPtr} {f : FilePtr} : Leads d t ok (publish c f) (transmit c f)
  | transmits {c : ConnectionPtr} {f : FilePtr} : Leads d t ok (transmit c f) (send c f)
  | notSent {c : ConnectionPtr} {f : FilePtr} : Leads d t ok (send c f) (terminate c)
  | terminates {c : ConnectionPtr} : Leads d t ok (terminate c) (testThread c)
  | exchanges {c : ConnectionPtr} : Leads d t ok (testThread c) (exchangeSocket c)
  | waits {c : ConnectionPtr} : Leads d t ok (testThread c) (wait c)
  | started {c : ConnectionPtr} : Leads d t ok (receiveThreadProc c) (newReceived c)
  | allocated {c : ConnectionPtr} : Leads d t ok (newReceived c) (testSocket c)
  | notAllocated {c : ConnectionPtr} : Leads d t ok (newReceived c) (terminate c)
  | receivesNothing {c : ConnectionPtr} : Leads d t ok (newReceived c) (connectionTerminated c)
  | receives {c : ConnectionPtr} : Leads d t ok (testSocket c) (recv c)
  | closed {c : ConnectionPtr} : Leads d t ok (testSocket c) (connectionTerminated c)
  | received {c : ConnectionPtr} : Leads d t ok (recv c) handleReceivedMessage
  | goesOn {c : ConnectionPtr} : Leads d t ok (recv c) (testSocket c)
  | notReceived {c : ConnectionPtr} : Leads d t ok (recv c) (terminate c)
  | lost {c : ConnectionPtr} : Leads d t ok (recv c) (connectionTerminated c)
  | handles : Leads d t ok handleReceivedMessage walkSubs
  | terminated {c : ConnectionPtr} : Leads d t ok (connectionTerminated c) (removeConnection c)
  | removed {c : ConnectionPtr} {b : Bool} : Leads d t ok (removeConnection c) (testInbound c b)
  | shutsDown {c : ConnectionPtr} {b : Bool} : Leads d t ok (testInbound c b) (terminate c)
  | destroys {c : ConnectionPtr} {b : Bool}
      (hinbound : (d.connection c).fInboundConnection = true) :
      Leads d t ok (testInbound c b) (destroyWork c)
  | tested {c : ConnectionPtr} {b b' : Bool} : Leads d t ok (testInbound c b) (testNoMore c b b')
  | left {c : ConnectionPtr} {b b' : Bool} : Leads d t ok (testNoMore c b b') (addEvent false)
  | finishes {c : ConnectionPtr} {b b' : Bool} : Leads d t ok (testNoMore c b b') (finish c b')
  | ownWork {c : ConnectionPtr} (hthread : (d.connection c).threadpoolThreadId = some t) :
      Leads d t ok (destroyWork c) (closeWork c)
  | otherWork {c : ConnectionPtr} : Leads d t ok (destroyWork c) (awaitWork c)
  | noWork {c : ConnectionPtr} (hwork : (d.connection c).threadpoolWork ≠ true) :
      Leads d t ok (destroyWork c) (free c)
  | awaited {c : ConnectionPtr} : Leads d t ok (awaitWork c) (closeWork c)
  | workClosed {c : ConnectionPtr} : Leads d t ok (closeWork c) (free c)
  | raises {b : Bool} {f : FilePtr} : Leads d t ok (addEvent b) (handleEvent f b)
  | stored {f : FilePtr} : Leads d t ok (storePayload f) (newPayload f)
  | walksConnections {f : FilePtr} : Leads d t ok (newPayload f) (walkConnections f)
  | joins {f : FilePtr} : Leads d t ok (newPayload f) (joinPubs f)
  | sends {c : ConnectionPtr} {f : FilePtr} (hc : c ∈ d.connectionHead) :
      Leads d t ok (walkConnections f) (transmit c f)
  | steps {c : ConnectionPtr} {f : FilePtr} (hc : c ∈ d.connectionHead) :
      Leads d t ok (walkConnections f) (flink c)
  | undefinedRole {f : FilePtr} : Leads d t ok (testRole f) (createConnection f)
  | created {f : FilePtr} (hok : ok = true) :
      Leads d t ok (createConnection f) (initializeAsClient d.connections f)
  | cleansUp {c : ConnectionPtr} {f : FilePtr} (hc : (d.file f).connection = some c) :
      Leads d t ok (deleteContext f) (terminate c)
  | deletes {c : ConnectionPtr} {f : FilePtr} (hc : (d.file f).connection = some c) :
      Leads d t ok (deleteContext f) (destroyWork c)

theorem leads_one {j : Instr} : Leads d t ok i j → ∀ m ∈ [j], Leads d t ok i m :=
  List.forall_mem_singleton.mpr

theorem leads_pair {j k : Instr} (hj : Leads d t ok i j) (hk : Leads d t ok i k) :
    ∀ m ∈ [j, k], Leads d t ok i m :=
  List.forall_mem_cons.mpr ⟨hj, leads_one hk⟩

theorem leads_section {j : Instr} {l : Lock} (hl : l ≠ .connection) (hj : Leads d t ok i j) :
    ∀ m ∈ [enter l, j, leave l], Leads d t ok i m :=
  List.forall_mem_cons.mpr ⟨.enter l, leads_pair hj (.leave hl)⟩

theorem leads_of_mem_next : ∀ j ∈ d.next t ok i, Leads d t ok i j := by
  cases i
  all_goals dsimp only [Driver.next]
  case validateAccept c | publish c f | transmit c f =>
    split
    · exact leads_one (by constructor)
    · exact List.forall_mem_nil _
  case initializeAsClient c f | testSocket c =>
    split
    · exact leads_one (by constructor)
    · exact leads_one (by constructor)
  case finalizeEstablish c client =>
    split
    case isTrue hinitial =>
      exact leads_one (.established hinitial.1 hinitial.2)
    case isFalse =>
      cases client with
      | none => exact List.forall_mem_nil _
      | some f => exact leads_one .notEstablished
  case submit c => exact leads_pair (.enter _) .submitted
  case insertConnection c =>
    refine List.forall_mem_cons.mpr ⟨.leaveConnection (.inl ⟨c, rfl⟩), ?_⟩
    refine List.forall_mem_append.mpr ⟨?_, leads_one .inserted⟩
    split
    · exact leads_section (by simp) .arrived
    · exact List.forall_mem_nil _
  case newMessage c =>
    split
    · exact leads_section (by simp) .walks
    · exact List.forall_mem_nil _
  case walkPubs c =>
    refine List.forall_mem_append.mpr ⟨?_, leads_one .walked⟩
    exact List.forall_mem_map.mpr fun f _ => .visits
  case send c f =>
    split
    · exact leads_pair (.enter _) (.leave (by simp))
    · exact leads_one .notSent
  case terminate c =>
    split
    · exact List.forall_mem_nil _
    · exact leads_one .terminates
  case testThread c =>
    split
    · exact leads_one .exchanges
    · exact leads_pair .waits .exchanges
  case receiveThreadProc c => exact leads_one .started
  case newReceived c =>
    split
    · exact leads_one .allocated
    · exact leads_pair .notAllocated .receivesNothing
  case recv c =>
    split
    · exact leads_pair .received .goesOn
    · exact leads_pair .notReceived .lost
  case handleReceivedMessage =>
    split
    · exact leads_section (by simp) .handles
    · exact List.forall_mem_nil _
  case walkSubs =>
    exact List.forall_mem_flatMap.mpr fun f _ => leads_pair (.enter _) (.leave (by simp))
  case connectionTerminated c => exact leads_pair (.enter _) .terminated
  case removeConnection c => exact leads_pair (.leaveConnection (.inr (.inl ⟨c, rfl⟩))) .removed
  case testInbound c b =>
    split
    case isTrue hinbound =>
      exact List.forall_mem_cons.mpr ⟨.shutsDown, leads_pair (.destroys hinbound) .tested⟩
    case isFalse => exact leads_one .tested
  case testNoMore c b deleted =>
    refine List.forall_mem_append.mpr ⟨?_, leads_one .finishes⟩
    split
    · exact leads_section (by simp) .left
    · exact List.forall_mem_nil _
  case destroyWork c =>
    split
    case isTrue =>
      split
      case isTrue hthread => exact leads_one (.ownWork hthread)
      case isFalse => exact leads_one .otherWork
    case isFalse hwork => exact leads_one (.noWork hwork)
  case awaitWork c => exact leads_one .awaited
  case closeWork c => exact leads_one .workClosed
  case addEvent b => exact List.forall_mem_flatMap.mpr fun f _ => leads_section (by simp) .raises
  case storePayload f =>
    refine List.forall_mem_cons.mpr ⟨.leave (by simp), ?_⟩
    split
    · exact leads_one .stored
    · exact List.forall_mem_nil _
  case newPayload f =>
    split
    · refine List.forall_mem_cons.mpr ⟨.enter _, List.forall_mem_cons.mpr ⟨.walksConnections, ?_⟩⟩
      refine List.forall_mem_cons.mpr ⟨.leaveConnection (.inr (.inr ⟨f, rfl⟩)), ?_⟩
      exact leads_section (by simp) .joins
    · exact List.forall_mem_nil _
  case walkConnections f =>
    exact List.forall_mem_flatMap.mpr fun c hc => leads_pair (.sends hc) (.steps hc)
  case testRole f =>
    refine List.forall_mem_cons.mpr ⟨.leave (by simp), ?_⟩
    split
    · exact leads_one .undefinedRole
    · exact List.forall_mem_nil _
  case createConnection f =>
    split
    case isTrue hok => exact leads_one (.created hok)
    case isFalse => exact List.forall_mem_nil _
  case deleteContext f =>
    refine List.forall_mem_append.mpr ⟨?_, leads_pair (.enter _) (.leave (by simp))⟩
    split
    case h_1 c hc => exact leads_pair (.cleansUp hc) (.deletes hc)
    case h_2 => exact List.forall_mem_nil _
  all_goals exact List.forall_mem_nil _

end Leads

end MiscProjects.NfpConnections
