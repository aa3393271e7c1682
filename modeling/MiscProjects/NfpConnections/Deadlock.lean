import MiscProjects.NfpConnections.Owners

/-!
# Waiting for locks and for callbacks

`Terminate` waits for the callback of its connection, and the callback cannot end
before it has entered the connection lock.  The walk of `IOCTL_NFP_SET_PAYLOAD`
calls `Terminate` with this lock held when a send fails on a connection that has not
terminated.  Everything else that threads wait for ranks below what they hold.
-/

namespace MiscProjects.NfpConnections

open Function (update update_self update_of_ne)
open Threads Instr Runs

/-- The thread that holds what a thread waits for. -/
def State.blockedBy (s : State) (t : ThreadId) : Option ThreadId :=
  match s.program t with
  | enter l :: _ => s.driver.owner l
  | wait c :: _ | awaitWork c :: _ => (s.driver.callback c).runner
  | _ => none

def State.WaitsFor (s : State) (t t' : ThreadId) : Prop :=
  s.blockedBy t = some t'

instance (s : State) (t t' : ThreadId) : Decidable (s.WaitsFor t t') :=
  inferInstanceAs (Decidable (_ = _))

/-- A send fails on a connection that has not terminated, in a thread that holds
`m_ConnectionLock`. -/
def failsInWalk (s : State) : Action → Bool
  | .run t ok =>
      match s.program t with
      | send c _ :: _ =>
          !(ok && (s.driver.connection c).socket) && s.driver.owner .connection = some t &&
            (s.driver.connection c).state ≠ .terminated
      | _ => false
  | _ => false

/-! ## What is held while a callback is waited for -/

/-- The thread is the callback of the connection, and is known as such. -/
def IsCallback (d : Driver) (t : ThreadId) (c : ConnectionPtr) (p : List Instr) : Prop :=
  (d.connection c).threadpoolThreadId = some t ∧ .callback c ∈ held p

/-- A send may be done with `m_ConnectionLock` held. -/
def Sends (p : List Instr) : Prop :=
  ∀ k ∈ held p, k = .lock .connection ∨ 3 < k.rank

/-- No instruction waits for a callback with a lock held that the callback needs. -/
def WaitsWell (d : Driver) (t : ThreadId) (i : Instr) (p : List Instr) : Prop :=
  match i with
  | terminate c =>
      Above 3 p ∨ (d.connection c).state = .terminated ∨ IsCallback d t c p
  | testThread c | destroyWork c => Above 3 p ∨ IsCallback d t c p
  | wait _ | awaitWork _ => Above 3 p
  | publish _ _ | transmit _ _ | send _ _ | walkConnections _ => Sends p
  | newReceived c | testSocket c | recv c | connectionTerminated c | removeConnection c
  | testInbound c _ => (d.connection c).threadpoolThreadId = some t
  | _ => True

section Waits
variable {cfg : Config} {s s' : State} {d d' : Driver} {t : ThreadId} {ok : Bool} {i : Instr}
  {p : List Instr} {c : ConnectionPtr} {a : Action}

theorem WaitsWell.mono (h : WaitsWell d t i p)
    (hstate : ∀ c, (d.connection c).state = .terminated → (d'.connection c).state = .terminated)
    (hthread : ∀ c, .callback c ∈ held (i :: p) → (d.connection c).threadpoolThreadId = some t →
        (d'.connection c).threadpoolThreadId = some t) : WaitsWell d' t i p := by
  have hcallback (c : ConnectionPtr) (hc : IsCallback d t c p) : IsCallback d' t c p := by
    exact ⟨hthread c (mem_held_cons (acquires_ne (by simp) i) hc.2) hc.1, hc.2⟩
  cases i with
  | terminate c => exact h.imp_right (Or.imp (hstate c) (hcallback c))
  | testThread c | destroyWork c => exact h.imp_right (hcallback c)
  | newReceived c | testSocket c | recv c | connectionTerminated c | testInbound c b =>
      exact hthread c List.mem_cons_self h
  | removeConnection c => exact hthread c (List.mem_cons_of_mem _ List.mem_cons_self) h
  | _ => exact h

theorem Above.sends (h : Above 3 p) : Sends p := fun k hk => .inr (h k hk)

theorem Sends.above (h : Sends p) (hnot : .lock .connection ∉ held p) : Above 3 p :=
  fun k hk => (h k hk).resolve_left fun heq => hnot (heq ▸ hk)

theorem sends_of_held_eq {q : List Instr} (h : Sends p) (hq : held q = held p) : Sends q :=
  fun k hk => h k (hq ▸ hk)

theorem waitsWell_raise {arrival : Bool} (hp : EachFits (WaitsWell d t) p) :
    EachFits (WaitsWell d t) (raise arrival ++ p) :=
  ⟨trivial, trivial, trivial, hp⟩

theorem waitsWell_next (hshape : Fits i p) (hwaits : WaitsWell d t i p)
    (hsend : ∀ c f, i = send c f → ¬ (ok = true ∧ (d.connection c).socket = true) →
      .lock .connection ∈ held p → (d.connection c).state = .terminated)
    (hp : EachFits (WaitsWell (d.effect t ok i) t) p) :
    EachFits (WaitsWell (d.effect t ok i) t) (d.next t ok i ++ p) := by
  cases i
  all_goals dsimp only [Driver.next]
  case walkPubs c =>
    simp only [List.append_assoc, List.map_eq_flatMap]
    refine EachFits.flatMap (P := Above 3) ⟨trivial, hp⟩ ?_ fun f _ q hq =>
      ⟨hq, fun h => ⟨hq.sends, h⟩⟩
    refine above_cons rfl (by simp [carries, Token.rank]) ?_
    simp [Above, hshape.1, Token.rank]
  case publish c f | transmit c f =>
    split
    · exact ⟨hwaits, hp⟩
    · exact hp
  case send c f =>
    split
    · exact ⟨trivial, trivial, hp⟩
    case isFalse hfails =>
      refine ⟨?_, hp⟩
      by_cases hlock : .lock .connection ∈ held p
      · exact .inr (.inl (hsend c f rfl hfails hlock))
      · exact .inl (hwaits.above hlock)
  case terminate c =>
    split
    · exact hp
    case isFalse hstate =>
      refine ⟨hwaits.imp_right fun h => ?_, hp⟩
      obtain ⟨hthread, hheld⟩ := h.resolve_left hstate
      refine ⟨?_, hheld⟩
      rwa [effect_threadId (by simp) (by simp)]
  case testThread c =>
    split
    · exact ⟨trivial, hp⟩
    case isFalse hthread =>
      exact ⟨hwaits.resolve_right fun h => hthread h.1, trivial, hp⟩
  case receiveThreadProc c => exact ⟨by simp [WaitsWell, Driver.effect, Driver.setConnection], hp⟩
  case testSocket c => split <;> exact ⟨hwaits, hp⟩
  case newReceived c | recv c =>
    have hcallback : IsCallback d t c (connectionTerminated c :: p) := ⟨hwaits, List.mem_cons_self⟩
    split
    · first | exact ⟨hwaits, hp⟩ | exact ⟨trivial, hwaits, hp⟩
    · exact ⟨.inr (.inr hcallback), hwaits, hp⟩
  case connectionTerminated c => exact ⟨trivial, hwaits, hp⟩
  case removeConnection c => exact ⟨trivial, hwaits, hp⟩
  case testInbound c noMore =>
    split
    · have hcallback : IsCallback d t c (testNoMore c noMore true :: p) :=
        ⟨hwaits, List.mem_cons_self⟩
      refine ⟨.inr (.inr ⟨hwaits, ?_⟩), .inr hcallback, trivial, hp⟩
      exact List.mem_cons_of_mem _ List.mem_cons_self
    · exact ⟨trivial, hp⟩
  case testNoMore c noMore deleted =>
    cases noMore with
    | false => exact ⟨trivial, hp⟩
    | true => exact waitsWell_raise (p := finish c deleted :: p) ⟨trivial, hp⟩
  case destroyWork c =>
    split
    · split
      · exact ⟨trivial, hp⟩
      case isFalse hthread => exact ⟨hwaits.resolve_right fun h => hthread h.1, hp⟩
    · exact ⟨trivial, hp⟩
  case insertConnection c =>
    have hrest : EachFits (WaitsWell (d.effect t ok (insertConnection c)) t)
        (newMessage c :: p) := ⟨trivial, hp⟩
    split
    · exact ⟨trivial, waitsWell_raise hrest⟩
    · exact ⟨trivial, hrest⟩
  case newPayload f =>
    split
    · refine ⟨trivial, fun k hk => .inl ?_, trivial, trivial, trivial, trivial, hp⟩
      simpa [held_cons, carries, hshape.1] using hk
    · exact hp
  case walkConnections f =>
    exact EachFits.flatMap (P := Sends) hp hwaits fun c _ q hq =>
      ⟨sends_of_held_eq hq (held_visitConnection f c q), fun h => ⟨hq, trivial, h⟩⟩
  case deleteContext f =>
    obtain rfl : p = [] := hshape
    cases (d.file f).connection with
    | none => exact ⟨trivial, trivial, hp⟩
    | some c =>
        refine ⟨.inl ?_, .inl ?_, trivial, trivial, hp⟩
        · simp [Above, held_cons, carries, Token.rank]
        · simp [Above, held_cons, carries]
  case validateAccept c | createConnection f =>
    split
    · exact ⟨trivial, hp⟩
    · exact hp
  case initializeAsClient c f => split <;> exact ⟨trivial, hp⟩
  case finalizeEstablish c client =>
    split
    · exact ⟨trivial, hp⟩
    · cases client with
      | none => exact hp
      | some f => exact ⟨trivial, hp⟩
  case newMessage c | handleReceivedMessage =>
    split
    · exact ⟨trivial, trivial, trivial, hp⟩
    · exact hp
  case storePayload f | testRole f =>
    split
    · exact ⟨trivial, trivial, hp⟩
    · exact ⟨trivial, hp⟩
  case submit c => exact ⟨trivial, trivial, hp⟩
  case awaitWork c | closeWork c => exact ⟨trivial, hp⟩
  case walkSubs =>
    exact EachFits.flatMap (P := fun _ => True) hp trivial fun _ _ _ _ =>
      ⟨trivial, fun h => ⟨trivial, trivial, h⟩⟩
  case addEvent arrival =>
    exact EachFits.flatMap (P := fun _ => True) hp trivial fun _ _ _ _ =>
      ⟨trivial, fun h => ⟨trivial, trivial, trivial, h⟩⟩
  all_goals exact hp

/-- Every thread waits well. -/
def Patient (s : State) : Prop :=
  ∀ t, EachFits (WaitsWell s.driver t) (s.program t)

theorem Patient.run (h : Patient s) (hheld : Held s) (hprogram : s.program t = i :: p)
    (hfails : failsInWalk s (.run t ok) = false) :
    Patient (s.give t (s.driver.effect t ok i) (s.driver.next t ok i ++ p)) := by
  obtain ⟨hshape, -⟩ := hheld.fits hprogram
  have hwaits := h t
  rw [hprogram] at hwaits
  intro t'
  change EachFits (WaitsWell (s.driver.effect t ok i) t') (update s.program t _ t')
  rcases eq_or_ne t' t with rfl | hne
  · rw [update_self]
    refine waitsWell_next hshape hwaits.1 ?_ ?_
    · rintro c f rfl hok hlock
      have howner : s.driver.owner .connection = some t' := by
        rw [hheld.locks, hprogram]
        exact hlock
      by_contra hstate
      have hsent : (ok && (s.driver.connection c).socket) = false := by
        rw [Bool.eq_false_iff, ne_eq, Bool.and_eq_true]
        exact hok
      simp [failsInWalk, hprogram, howner, hsent, hstate] at hfails
    · refine hwaits.2.mono fun j q hq hj => hj.mono effect_terminated fun c hmem hthread => ?_
      have hcallback := mem_held_of_suffix (acquires_ne (by simp)) hq hmem
      rw [effect_threadId ?_ ?_]
      · exact hthread
      · rintro rfl
        obtain rfl : p = [] := hshape
        cases hcallback
      · rintro rfl
        obtain rfl : p = [] := hshape
        cases hcallback
  · rw [update_of_ne hne]
    refine (h t').mono fun j q hq hj => hj.mono effect_terminated fun c hmem hthread => ?_
    have hother : .callback c ∉ held (s.program t) := by
      intro hcallback
      have hmem' := mem_held_of_suffix (acquires_ne (by simp)) hq hmem
      exact hne (hheld.callbacks.exclusive c t' t hmem' hcallback)
    rw [hprogram] at hother
    rw [effect_threadId ?_ ?_]
    · exact hthread
    · rintro rfl
      exact hother List.mem_cons_self
    · rintro rfl
      exact hother List.mem_cons_self

theorem Patient.give (h : Patient s)
    (hstate : ∀ c, (d.connection c).state = (s.driver.connection c).state)
    (hthread : ∀ c, (d.connection c).threadpoolThreadId =
      (s.driver.connection c).threadpoolThreadId)
    (hp : EachFits (WaitsWell d t) p) : Patient (s.give t d p) := by
  intro t'
  change EachFits (WaitsWell d t') (update s.program t p t')
  rcases eq_or_ne t' t with rfl | hne
  · rwa [update_self]
  · rw [update_of_ne hne]
    exact (h t').mono fun j q _ hj =>
      hj.mono (fun c hc => (hstate c).trans hc) fun c _ hc => (hthread c).trans hc

theorem Patient.step (h : Patient s) (hheld : Held s) (hfails : failsInWalk s a = false)
    (hstep : step cfg s a = some s') : Patient s' := by
  cases StepTo.of_step hstep with
  | accept t _ _ =>
      refine h.give (fun c => ?_) (fun c => ?_) ⟨trivial, trivial⟩
      · refine of_setConnection (P := fun x => x.state = (s.driver.connection c).state) rfl ?_
        rintro rfl hx
        exact hx
      · refine of_setConnection (P := fun x => x.threadpoolThreadId =
          (s.driver.connection c).threadpoolThreadId) rfl ?_
        rintro rfl hx
        exact hx
  | create t f role _ _ _ _ =>
      exact h.give (fun _ => rfl) (fun _ => rfl) ⟨trivial, trivial, trivial, trivial, trivial⟩
  | control t f code _ _ _ =>
      refine h.give (fun _ => rfl) (fun _ => rfl) ?_
      cases code with
      | disable | enable => exact ⟨trivial, trivial, trivial, trivial, trivial⟩
      | setPayload | beginProximity | getNext => exact ⟨trivial, trivial, trivial, trivial⟩
  | close t f _ _ _ _ =>
      refine h.give (fun _ => rfl) (fun _ => rfl) ?_
      cases (s.driver.file f).role with
      | undefined | proximity => exact ⟨trivial, trivial⟩
      | _ => exact ⟨trivial, trivial, trivial, trivial, trivial⟩
  | callback t c _ _ _ =>
      exact h.give (fun _ => rfl) (fun _ => rfl) ⟨trivial, trivial⟩
  | run t ok i p hprogram _ =>
      exact h.run hheld hprogram hfails

/-! ## Cycles of waits -/

/-- The rank of what the thread waits for. -/
def State.awaits (s : State) (t : ThreadId) : ℕ :=
  match s.program t with
  | enter l :: _ => (Token.lock l).rank
  | wait _ :: _ | awaitWork _ :: _ => 3
  | _ => 0

theorem awaits_lt (h : Patient s) (hheld : Held s) {t' : ThreadId} {k : Token}
    (hk : k ∈ held (s.program t)) (hwaits : s.WaitsFor t t') (hrank : k.rank < 5) :
    s.awaits t < k.rank := by
  have hpatient := h t
  have hshape := hheld.shape t
  unfold State.WaitsFor State.blockedBy at hwaits
  unfold State.awaits
  split at hwaits
  case h_1 l p hprogram =>
    rw [hprogram] at hk hshape
    exact hshape.1.2 k hk
  case h_2 c p hprogram =>
    rw [hprogram] at hk hpatient
    exact hpatient.1 k hk
  case h_3 c p hprogram =>
    rw [hprogram] at hk hpatient
    rcases List.mem_cons.mp hk with rfl | hk
    · exact absurd hrank (lt_irrefl 5)
    · exact hpatient.1 k hk
  case h_4 => cases hwaits

theorem exists_held_of_waitsFor (hheld : Held s) {t' : ThreadId} (hwaits : s.WaitsFor t t') :
    ∃ k ∈ held (s.program t'), k.rank = s.awaits t ∧ k.rank < 5 := by
  unfold State.WaitsFor State.blockedBy at hwaits
  unfold State.awaits
  split at hwaits
  case h_1 l p hprogram =>
    refine ⟨.lock l, (hheld.locks l t').mp hwaits, ?_⟩
    cases l <;> simp [Token.rank]
  case h_2 c p hprogram =>
    exact ⟨.callback c, (hheld.callbacks c t').mp hwaits, rfl, (by decide : 3 < 5)⟩
  case h_3 c p hprogram =>
    exact ⟨.callback c, (hheld.callbacks c t').mp hwaits, rfl, (by decide : 3 < 5)⟩
  case h_4 => cases hwaits

/-- In every run in which no send fails in the walk of `IOCTL_NFP_SET_PAYLOAD` on a
connection that has not terminated, no threads wait for each other in a cycle. -/
theorem no_cycle_of_waits {as : List Action}
    (hrun : RunsTo (NfpConnections.step cfg) (fun s a => failsInWalk s a = false)
      (State.start cfg) as s) (t : ThreadId) : ¬ Relation.TransGen s.WaitsFor t t := by
  have hboth : Held s ∧ Patient s := by
    refine hrun.invariant (fun s => Held s ∧ Patient s) ⟨held_start, fun _ => trivial⟩ ?_
    rintro s a s' ⟨hheld, hpatient⟩ hfails hstep
    exact ⟨hheld.step hstep, hpatient.step hheld hfails hstep⟩
  obtain ⟨hheld, hpatient⟩ := hboth
  have hawaits : ∀ t₁ t₂ t₃, s.WaitsFor t₁ t₂ → s.WaitsFor t₂ t₃ →
      s.awaits t₂ < s.awaits t₁ := by
    intro t₁ t₂ t₃ h₁₂ h₂₃
    obtain ⟨k, hk, hrank, hlt⟩ := exists_held_of_waitsFor hheld h₁₂
    rw [← hrank]
    exact awaits_lt hpatient hheld hk h₂₃ hlt
  exact not_transGen_self hawaits t

end Waits

/-! ## A send that fails in the walk -/

/-- Three threads, and fields that hold the number of none of them. -/
def threeThreads : Config where
  threads := 3
  found _ := none

/-- The thread does `n` instructions, which the environment answers with success. -/
def runs (t : ThreadId) (n : ℕ) : List Action :=
  List.replicate n (.run t true)

/-- A connection is accepted and receives, and a publication is opened. -/
def connected : List Action :=
  [.accept 0] ++ runs 0 14 ++ [.callback 1 0] ++ runs 1 3 ++ [.create 0 5 .publication] ++ runs 0 4

/-- The connection is lost while the publication is transmitted. -/
def lostInWalk : List Action :=
  connected ++ [.control 0 5 .setPayload] ++ runs 0 8 ++ [.run 1 false] ++ runs 1 4

theorem no_cycle_of_waits_lostInWalk :
    ∃ s, RunsTo (step threeThreads) (fun s a => failsInWalk s a = false)
        (State.start threeThreads) lostInWalk s ∧
      s.WaitsFor 1 0 ∧ ¬ Relation.TransGen s.WaitsFor 1 1 :=
  have hrun := RunsTo.of_isSome (by decide)
  ⟨_, hrun, by decide, no_cycle_of_waits hrun 1⟩

/-- The send fails before the receive does. -/
def failingSend : List Action :=
  connected ++ [.control 0 5 .setPayload] ++ runs 0 7 ++ [.run 0 false] ++ runs 0 2 ++
    [.run 1 false] ++ runs 1 2

/-- `SET_PAYLOAD` waits for the callback with the lock that the callback waits for. -/
theorem walk_and_callback_wait :
    ∃ s, RunsTo (step threeThreads) Always (State.start threeThreads) failingSend s ∧
      s.WaitsFor 0 1 ∧ s.WaitsFor 1 0 ∧ Relation.TransGen s.WaitsFor 0 0 := by
  have h₀₁ : ((exec (step threeThreads) Always (State.start threeThreads) failingSend).get
      (by decide)).WaitsFor 0 1 := by decide
  have h₁₀ : ((exec (step threeThreads) Always (State.start threeThreads) failingSend).get
      (by decide)).WaitsFor 1 0 := by decide
  exact ⟨_, RunsTo.of_isSome (by decide), h₀₁, h₁₀, .tail (.single h₀₁) h₁₀⟩

end MiscProjects.NfpConnections
