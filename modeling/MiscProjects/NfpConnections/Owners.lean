import MiscProjects.NfpConnections.Tokens

/-!
# The owners of the locks and the threads of the callbacks

In every run the owner of a critical section and the thread of a callback are
those that hold it by what they still have to do, and one thread establishes
each connection.
-/

namespace MiscProjects.NfpConnections

open Function (update update_self update_of_ne)
open Threads Instr

section Owners
variable {cfg : Config} {s s' : State} {d : Driver} {t : ThreadId} {ok : Bool} {i : Instr}
  {p : List Instr} {c : ConnectionPtr} {a : Action}

def Callback.runner : Callback → Option ThreadId
  | .running t => some t
  | .none | .pending | .done => Option.none

theorem Callback.runner_eq_some_iff {x : Callback} : x.runner = some t ↔ x = .running t := by
  cases x <;> simp [Callback.runner]

/-- The owners of the locks and the threads of the callbacks are those that hold them;
a connection is established by one thread, which submits its callback once. -/
structure Held (s : State) : Prop where
  shape : ∀ t, EachFits Fits (s.program t)
  locks : Owned s.driver.owner Token.lock s.program
  callbacks : Owned (fun c => (s.driver.callback c).runner) Token.callback s.program
  establishing : Exclusive Token.establishing s.program
  created : ∀ c t, .establishing c ∈ held (s.program t) → c < s.driver.connections
  submitted : ∀ c t, submit c ∈ s.program t →
    s.driver.callback c = .none ∧ (s.driver.connection c).state ≠ .initial
  initial : ∀ c, (s.driver.connection c).state = .initial → s.driver.callback c = .none

theorem Held.callback_iff (h : Held s) :
    s.driver.callback c = .running t ↔ .callback c ∈ held (s.program t) := by
  rw [← h.callbacks c t]
  exact Callback.runner_eq_some_iff.symm

theorem effect_owner (henter : ∀ l, i ≠ enter l) (hleave : ∀ l, i ≠ leave l) :
    (d.effect t ok i).owner = d.owner := by
  cases i with
  | enter l => exact absurd rfl (henter l)
  | leave l => exact absurd rfl (hleave l)
  | finalizeEstablish c client | createConnection f | setEnabled f b | register f | unlink f =>
      simp only [Driver.effect]
      split <;> rfl
  | _ => rfl

theorem effect_owner_of_ne {l : Lock} (henter : i ≠ enter l) (hleave : i ≠ leave l) :
    (d.effect t ok i).owner l = d.owner l := by
  cases i with
  | enter l' | leave l' =>
      have hne : l ≠ l' := by
        rintro rfl
        first | exact henter rfl | exact hleave rfl
      exact update_of_ne hne _ _
  | _ => rw [effect_owner (by simp) (by simp)]

theorem effect_callback (hsubmit : ∀ c, i ≠ submit c) (hfinish : ∀ c b, i ≠ finish c b) :
    (d.effect t ok i).callback = d.callback := by
  cases i with
  | submit c => exact absurd rfl (hsubmit c)
  | finish c b => exact absurd rfl (hfinish c b)
  | finalizeEstablish c client | createConnection f | setEnabled f b | register f | unlink f =>
      simp only [Driver.effect]
      split <;> rfl
  | _ => rfl

theorem of_setConnection {P : CConnection → Prop} {x : CConnection} {c' : ConnectionPtr}
    (h : P (d.connection c)) (hx : c = c' → P (d.connection c) → P x) :
    P ((d.setConnection c' x).connection c) := by
  change P (update d.connection c' x c)
  rcases eq_or_ne c c' with rfl | hne
  · rw [update_self]
    exact hx rfl h
  · rwa [update_of_ne hne]

theorem effect_connection {P : CConnection → Prop} (h : P (d.connection c))
    (hsocket : ∀ x b, P x → P { x with socket := b })
    (hwork : ∀ x, P x → P { x with threadpoolWork := false })
    (hestablished : ∀ x b b', x.state = .initial → P x →
      P { x with state := .established, threadpoolWork := b, socket := b' })
    (hterminated : ∀ x, P x → P { x with state := .terminated })
    (hthread : ∀ x, i = receiveThreadProc c → P x → P { x with threadpoolThreadId := some t })
    (hfinish : ∀ x, i = finish c false → P x → P { x with threadpoolThreadId := none }) :
    P ((d.effect t ok i).connection c) := by
  cases i with
  | initializeAsClient c' f | abandon c' f | exchangeSocket c' =>
      change P ((d.setConnection c' _).connection c)
      refine of_setConnection h ?_
      rintro rfl hx
      exact hsocket _ _ hx
  | closeWork c' =>
      refine of_setConnection h ?_
      rintro rfl hx
      exact hwork _ hx
  | terminate c' =>
      refine of_setConnection h ?_
      rintro rfl hx
      exact hterminated _ hx
  | finalizeEstablish c' client =>
      simp only [Driver.effect]
      split
      case isTrue hinitial =>
        refine of_setConnection h ?_
        rintro rfl hx
        exact hestablished _ _ _ hinitial hx
      case isFalse => exact h
  | receiveThreadProc c' =>
      refine of_setConnection h ?_
      rintro rfl hx
      exact hthread _ rfl hx
  | finish c' deleted =>
      cases deleted with
      | true => exact h
      | false =>
          change P ((d.setConnection c' _).connection c)
          refine of_setConnection h ?_
          rintro rfl hx
          exact hfinish _ rfl hx
  | createConnection f | setEnabled f b | register f | unlink f =>
      simp only [Driver.effect]
      split <;> exact h
  | _ => exact h

theorem effect_state (c : ConnectionPtr) (h : ((d.effect t ok i).connection c).state = .initial) :
    (d.connection c).state = .initial := by
  by_contra hstate
  exact effect_connection (P := fun x => x.state ≠ .initial) hstate (fun _ _ hx => hx)
    (fun _ hx => hx) (fun _ _ _ _ _ => by simp) (fun _ _ => by simp) (fun _ _ hx => hx)
    (fun _ _ hx => hx) h

theorem effect_terminated (c : ConnectionPtr) (h : (d.connection c).state = .terminated) :
    ((d.effect t ok i).connection c).state = .terminated :=
  effect_connection (P := fun x => x.state = .terminated) h (fun _ _ hx => hx) (fun _ hx => hx)
    (fun _ _ _ hinitial hx => by rw [hinitial] at hx; cases hx) (fun _ _ => rfl)
    (fun _ _ hx => hx) (fun _ _ hx => hx)

theorem effect_threadId (hreceive : i ≠ receiveThreadProc c) (hfinish : i ≠ finish c false) :
    ((d.effect t ok i).connection c).threadpoolThreadId = (d.connection c).threadpoolThreadId :=
  effect_connection (P := fun x => x.threadpoolThreadId = (d.connection c).threadpoolThreadId)
    rfl (fun _ _ hx => hx) (fun _ hx => hx) (fun _ _ _ _ hx => hx) (fun _ hx => hx)
    (fun _ hi => absurd hi hreceive) (fun _ hi => absurd hi hfinish)

theorem callback_mem_keeps (hfinish : ∀ c b, i ≠ finish c b) :
    .callback c ∈ d.keeps ok i ↔ .callback c ∈ i.carries := by
  cases i with
  | finish c b => exact absurd rfl (hfinish c b)
  | validateAccept c | newMessage c | finalizeEstablish c client | testInbound c noMore
  | createConnection f =>
      simp only [Driver.keeps, carries]
      split <;> simp
  | deleteContext f => simp [Driver.keeps, carries]
  | _ => simp [Driver.keeps, carries]

theorem establishing_mem_keeps (h : .establishing c ∈ d.keeps ok i) : .establishing c ∈ i.carries ∨
      (∃ f, i = createConnection f) ∧ ok = true ∧ c = d.connections := by
  cases i with
  | validateAccept c' | newMessage c' | finalizeEstablish c' client =>
      simp only [Driver.keeps] at h
      split at h
      · exact .inl h
      · cases h
  | createConnection f =>
      simp only [Driver.keeps] at h
      split at h
      case isTrue hok =>
        refine .inr ⟨⟨f, rfl⟩, hok, ?_⟩
        simpa using h
      case isFalse => cases h
  | testInbound c' noMore =>
      simp only [Driver.keeps] at h
      split at h <;> simp at h
  | _ => simp_all [Driver.keeps, carries]

theorem submit_mem_next (h : submit c ∈ d.next t ok i) :
    (∃ client, i = finalizeEstablish c client) ∧ (d.connection c).state = .initial := by
  cases leads_of_mem_next _ h with
  | established hinitial _ => exact ⟨⟨_, rfl⟩, hinitial⟩

theorem effect_connections (hcreate : ∀ f, i ≠ createConnection f) :
    (d.effect t ok i).connections = d.connections := by
  cases i with
  | createConnection f => exact absurd rfl (hcreate f)
  | finalizeEstablish c client | setEnabled f b | register f | unlink f =>
      simp only [Driver.effect]
      split <;> rfl
  | _ => rfl

theorem connections_le_effect : d.connections ≤ (d.effect t ok i).connections := by
  by_cases hcreate : ∃ f, i = createConnection f
  · obtain ⟨f, rfl⟩ := hcreate
    cases ok with
    | false => exact le_rfl
    | true => exact Nat.le_succ _
  · rw [effect_connections fun f hf => hcreate ⟨f, hf⟩]

theorem establishing_mem_next (hmem : .establishing c ∈ held (d.next t ok i ++ p)) :
    .establishing c ∈ held (i :: p) ∨
      (∃ f, i = createConnection f) ∧ ok = true ∧ c = d.connections := by
  rw [held_next, List.mem_append] at hmem
  rcases hmem with hkeeps | hrest
  · rcases establishing_mem_keeps hkeeps with hcarries | hcreate
    · refine .inl ?_
      rw [held_cons_of_carries (acquires_eq_none fun l hl => ?_)]
      · exact List.mem_append_left _ hcarries
      · subst hl
        cases hcarries
    · exact .inr hcreate
  · exact .inl (mem_held_cons (acquires_ne (by simp) i) hrest)

theorem submit_holds {q : List Instr} (hmem : submit c ∈ q) : .establishing c ∈ held q :=
  mem_held_of_mem (acquires_ne (by simp)) hmem List.mem_cons_self rfl

theorem mem_program (hprogram : s.program t = i :: p) : i ∈ s.program t := by
  rw [hprogram]
  exact List.mem_cons_self

theorem mem_held_program {k : Token} (hprogram : s.program t = i :: p)
    (hi : i.acquires = none) (hk : k ∈ i.carries) : k ∈ held (s.program t) := by
  rw [hprogram, held_cons_of_carries (show Holding.acquires i = none from hi)]
  exact List.mem_append_left _ hk

section Run
variable (h : Held s) (hprogram : s.program t = i :: p)
include h hprogram

theorem Held.fits : Fits i p ∧ EachFits Fits p := by
  have hshape := h.shape t
  rwa [hprogram] at hshape

theorem Held.run_locks (hblocks : s.driver.blocks i = false) :
    Owned (s.driver.effect t ok i).owner Token.lock
      (update s.program t (s.driver.next t ok i ++ p)) := by
  have hfits := (h.fits hprogram).1
  have hheld := held_next s.driver t ok i p
  by_cases henter : ∃ l, i = enter l
  · obtain ⟨l, rfl⟩ := henter
    have hfree : s.driver.owner l = none := by simpa [Driver.blocks] using hblocks
    refine h.locks.acquire hfree (update_self _ _ _) (fun l' hne => update_of_ne hne _ _)
      hfits.1 fun l' hne => ?_
    rw [hprogram, held_cons]
    exact (List.mem_erase_of_ne (by simpa using hne)).symm
  · by_cases hleave : ∃ l, i = leave l
    · obtain ⟨l, rfl⟩ := hleave
      have hheld : .lock l ∈ held (s.program t) := mem_held_program hprogram rfl List.mem_cons_self
      refine h.locks.release ((h.locks l t).mpr hheld) (update_self _ _ _)
        (fun l' hne => update_of_ne hne _ _) hfits.1 fun l' hne => ?_
      rw [hprogram]
      exact (List.mem_cons.trans (or_iff_right (by simpa using hne))).symm
    · have henter' : ∀ l, i ≠ enter l := fun l hl => henter ⟨l, hl⟩
      rw [effect_owner henter' fun l hl => hleave ⟨l, hl⟩]
      refine h.locks.keep fun l => ?_
      rw [hheld, hprogram, held_cons_of_carries (acquires_eq_none henter'), List.mem_append,
        List.mem_append, lock_mem_keeps _ _ _ henter' fun l hl => hleave ⟨l, hl⟩]
      rfl

theorem Held.run_callbacks :
    Owned (fun c => ((s.driver.effect t ok i).callback c).runner) Token.callback
      (update s.program t (s.driver.next t ok i ++ p)) := by
  have hheld := held_next s.driver t ok i p
  by_cases hfinish : ∃ c b, i = finish c b
  · obtain ⟨c, b, rfl⟩ := hfinish
    obtain rfl : p = [] := (h.fits hprogram).1
    have hmem : ∀ c', .callback c' ∈ held (s.program t) ↔ c' = c := by
      simp [hprogram, held_cons, carries]
    have hrunner : (s.driver.callback c).runner = some t := (h.callbacks c t).mpr ((hmem c).mpr rfl)
    refine h.callbacks.release (l := c) hrunner ?_ (fun c' hne => ?_) (by simp [Driver.next])
      fun c' hne => ?_
    · simp [Driver.effect, Callback.runner]
    · simp only [Driver.effect, update_of_ne hne]
    · rw [hmem]
      simp [Driver.next, hne]
  · have hrunner : (fun c => ((s.driver.effect t ok i).callback c).runner) =
        fun c => (s.driver.callback c).runner := by
      by_cases hsubmit : ∃ c, i = submit c
      · obtain ⟨c, rfl⟩ := hsubmit
        have hnone := (h.submitted c t (mem_program hprogram)).1
        funext c'
        rcases eq_or_ne c' c with rfl | hne
        · simp [Driver.effect, hnone, Callback.runner]
        · simp only [Driver.effect, update_of_ne hne]
      · rw [effect_callback (fun c hc => hsubmit ⟨c, hc⟩) fun c b hc => hfinish ⟨c, b, hc⟩]
    rw [hrunner]
    refine h.callbacks.keep fun c => ?_
    rw [hheld, hprogram, List.mem_append, callback_mem_keeps fun c b hc => hfinish ⟨c, b, hc⟩]
    by_cases henter : ∃ l, i = enter l
    · obtain ⟨l, rfl⟩ := henter
      rw [held_cons]
      simp [carries, List.mem_erase_of_ne]
    · rw [held_cons_of_carries (acquires_eq_none fun l hl => henter ⟨l, hl⟩), List.mem_append]
      rfl

theorem Held.run_establishing :
    Exclusive Token.establishing (update s.program t (s.driver.next t ok i ++ p)) := by
  refine h.establishing.update fun c hmem => ?_
  rcases establishing_mem_next hmem with hold | ⟨-, -, rfl⟩
  · rw [hprogram]
    exact .inl hold
  · exact .inr fun t' hheld => lt_irrefl _ (h.created _ _ hheld)

theorem Held.run_created {t' : ThreadId}
    (hmem : .establishing c ∈ held (update s.program t (s.driver.next t ok i ++ p) t')) :
    c < (s.driver.effect t ok i).connections := by
  rcases eq_or_ne t' t with rfl | hne
  · rw [update_self] at hmem
    rcases establishing_mem_next hmem with hold | ⟨⟨f, rfl⟩, rfl, rfl⟩
    · rw [← hprogram] at hold
      exact (h.created _ _ hold).trans_le connections_le_effect
    · exact Nat.lt_succ_self _
  · rw [update_of_ne hne] at hmem
    exact (h.created _ _ hmem).trans_le connections_le_effect

theorem Held.run_callback (hnone : s.driver.callback c = .none) (hsubmit : i ≠ submit c) :
    (s.driver.effect t ok i).callback c = .none := by
  by_cases hfinish : ∃ c' b, i = finish c' b
  · obtain ⟨c', b, rfl⟩ := hfinish
    have hrunning : s.driver.callback c' = .running t := by
      rw [h.callback_iff, hprogram]
      exact List.mem_cons_self
    have hne : c ≠ c' := by
      rintro rfl
      rw [hnone] at hrunning
      cases hrunning
    exact (update_of_ne hne _ _).trans hnone
  · by_cases hsubmit' : ∃ c', i = submit c'
    · obtain ⟨c', rfl⟩ := hsubmit'
      have hne : c ≠ c' := by
        rintro rfl
        exact hsubmit rfl
      exact (update_of_ne hne _ _).trans hnone
    · rwa [effect_callback (fun c hc => hsubmit' ⟨c, hc⟩) fun c b hc => hfinish ⟨c, b, hc⟩]

theorem Held.run_submitted {t' : ThreadId}
    (hmem : submit c ∈ update s.program t (s.driver.next t ok i ++ p) t') :
    (s.driver.effect t ok i).callback c = .none ∧
      ((s.driver.effect t ok i).connection c).state ≠ .initial := by
  have hold (hprev : submit c ∈ s.program t') (hsubmit : i ≠ submit c) :
      (s.driver.effect t ok i).callback c = .none ∧
        ((s.driver.effect t ok i).connection c).state ≠ .initial :=
    ⟨h.run_callback hprogram (h.submitted c t' hprev).1 hsubmit,
      fun hinitial => (h.submitted c t' hprev).2 (effect_state c hinitial)⟩
  rcases eq_or_ne t' t with rfl | hne
  · rw [update_self] at hmem
    rcases List.mem_append.mp hmem with hnext | hrest
    · obtain ⟨⟨client, rfl⟩, hinitial⟩ := submit_mem_next hnext
      refine ⟨h.run_callback hprogram (h.initial c hinitial) (by simp), ?_⟩
      simp [Driver.effect, hinitial, Driver.setConnection]
    · refine hold (by rw [hprogram]; exact List.mem_cons_of_mem _ hrest) ?_
      rintro rfl
      have hquiet := (h.fits hprogram).1.2.2 _ hrest
      cases hquiet
  · rw [update_of_ne hne] at hmem
    refine hold hmem ?_
    rintro rfl
    exact hne (h.establishing c t' t (submit_holds hmem) (submit_holds (mem_program hprogram)))

theorem Held.run_initial (hinitial : ((s.driver.effect t ok i).connection c).state = .initial) :
    (s.driver.effect t ok i).callback c = .none := by
  have hold := effect_state c hinitial
  refine h.run_callback hprogram (h.initial c hold) ?_
  rintro rfl
  exact (h.submitted c t (mem_program hprogram)).2 hold

theorem Held.run (hblocks : s.driver.blocks i = false) :
    Held (s.give t (s.driver.effect t ok i) (s.driver.next t ok i ++ p)) where
  shape := by
    intro t'
    change EachFits Fits (update s.program t _ t')
    rcases eq_or_ne t' t with rfl | hne
    · rw [update_self]
      exact eachFits_next _ _ _ (h.fits hprogram).1 (h.fits hprogram).2
    · rw [update_of_ne hne]
      exact h.shape t'
  locks := h.run_locks hprogram hblocks
  callbacks := h.run_callbacks hprogram
  establishing := h.run_establishing hprogram
  created := fun _ _ hmem => h.run_created hprogram hmem
  submitted := fun _ _ hmem => h.run_submitted hprogram hmem
  initial := fun _ hinitial => h.run_initial hprogram hinitial

end Run

/-- A thread that has nothing to do is given something; it may be to establish a new
connection. -/
theorem Held.give (h : Held s) {p : List Instr} (hidle : s.program t = [])
    (hshape : EachFits Fits p) (howner : d.owner = s.driver.owner)
    (hcallback : d.callback = s.driver.callback)
    (hstate : ∀ c, (d.connection c).state = (s.driver.connection c).state)
    (hle : s.driver.connections ≤ d.connections) (hsubmit : ∀ c, submit c ∉ p)
    (hheld : ∀ k ∈ held p, (∃ f, k = .opening f) ∨
      k = .establishing s.driver.connections ∧ s.driver.connections < d.connections) :
    Held (s.give t d p) := by
  have hnil : held (s.program t) = [] := by rw [hidle]; rfl
  constructor
  · intro t'
    change EachFits Fits (update s.program t p t')
    rcases eq_or_ne t' t with rfl | hne
    · rwa [update_self]
    · rw [update_of_ne hne]
      exact h.shape t'
  · change Owned d.owner _ _
    rw [howner]
    refine h.locks.keep fun l => iff_of_false (fun hmem => ?_) (by simp [hnil])
    simpa using hheld _ hmem
  · change Owned (fun c => (d.callback c).runner) _ _
    rw [hcallback]
    refine h.callbacks.keep fun c => iff_of_false (fun hmem => ?_) (by simp [hnil])
    simpa using hheld _ hmem
  · refine h.establishing.update fun c hmem => .inr fun t' ht' => ?_
    have hc : c = s.driver.connections ∧ s.driver.connections < d.connections := by
      simpa using hheld _ hmem
    have hlt := h.created c t' ht'
    rw [hc.1] at hlt
    exact lt_irrefl _ hlt
  · intro c t' hmem
    change .establishing c ∈ held (update s.program t p t') at hmem
    rcases eq_or_ne t' t with rfl | hne
    · rw [update_self] at hmem
      have hc : c = s.driver.connections ∧ s.driver.connections < d.connections := by
        simpa using hheld _ hmem
      exact hc.1 ▸ hc.2
    · rw [update_of_ne hne] at hmem
      exact (h.created c t' hmem).trans_le hle
  · intro c t' hmem
    change submit c ∈ update s.program t p t' at hmem
    change d.callback c = _ ∧ (d.connection c).state ≠ _
    rw [hcallback, hstate]
    rcases eq_or_ne t' t with rfl | hne
    · rw [update_self] at hmem
      exact absurd hmem (hsubmit c)
    · rw [update_of_ne hne] at hmem
      exact h.submitted c t' hmem
  · intro c hinitial
    change d.callback c = _
    rw [hcallback]
    exact h.initial c ((hstate c).symm.trans hinitial)

theorem Held.callback (h : Held s) (hidle : s.program t = [])
    (hpending : s.driver.callback c = .pending) :
    Held (s.give t { s.driver with callback := update s.driver.callback c (.running t) }
      [receiveThreadProc c]) := by
  have hnil : held (s.program t) = [] := by rw [hidle]; rfl
  have hnone : ∀ c', s.driver.callback c' = .none →
      update s.driver.callback c (.running t) c' = .none := by
    intro c' hc'
    have hne : c' ≠ c := by
      rintro rfl
      rw [hpending] at hc'
      cases hc'
    rw [update_of_ne hne]
    exact hc'
  constructor
  · intro t'
    change EachFits Fits (update s.program t _ t')
    rcases eq_or_ne t' t with rfl | hne
    · rw [update_self]
      exact ⟨rfl, trivial⟩
    · rw [update_of_ne hne]
      exact h.shape t'
  · exact h.locks.keep fun l => by simp [hnil, held_cons, carries]
  · refine h.callbacks.acquire (l := c) (by simp [hpending, Callback.runner]) ?_
      (fun c' hne => ?_) List.mem_cons_self fun c' hne => by simp [hnil, held_cons, carries, hne]
    · simp [State.give, Callback.runner]
    · simp only [State.give, update_of_ne hne]
  · exact h.establishing.update fun c' hmem => by simp [held_cons, carries] at hmem
  · intro c' t' hmem
    change .establishing c' ∈ held (update s.program t _ t') at hmem
    rcases eq_or_ne t' t with rfl | hne
    · rw [update_self] at hmem
      simp [held_cons, carries] at hmem
    · rw [update_of_ne hne] at hmem
      exact h.created c' t' hmem
  · intro c' t' hmem
    change submit c' ∈ update s.program t _ t' at hmem
    rcases eq_or_ne t' t with rfl | hne
    · rw [update_self] at hmem
      simp at hmem
    · rw [update_of_ne hne] at hmem
      exact ⟨hnone c' (h.submitted c' t' hmem).1, (h.submitted c' t' hmem).2⟩
  · exact fun c' hinitial => hnone c' (h.initial c' hinitial)

theorem eachFits_create (f : FilePtr) :
    EachFits Fits [enter .subs, register f, leave .subs, opened f] := by
  have hopened : EachFits Fits [opened f] := ⟨rfl, trivial⟩
  refine fits_section rfl rfl ?_ (fun _ => silent_nil.cons rfl rfl) ?_ hopened
  · exact above_cons rfl (by simp [carries, Token.rank]) (above_of_held_eq_nil rfl)
  · exact ⟨List.mem_cons_self, List.mem_cons_of_mem _ List.mem_cons_self, by simp⟩

theorem eachFits_control (f : FilePtr) (code : Control) :
    EachFits Fits (code.program f ++ [complete f]) := by
  have hcomplete : EachFits Fits [complete f] := ⟨rfl, trivial⟩
  have habove : Above 0 [complete f] := above_of_held_eq_nil rfl
  have hquiet : Quiet [complete f] := quiet_nil.cons rfl rfl rfl
  cases code with
  | disable | enable =>
      exact fits_section rfl rfl habove (fun hl => by cases hl) trivial hcomplete
  | setPayload | beginProximity =>
      exact ⟨fits_enter (p := [complete f]) rfl habove, ⟨rfl, hquiet⟩, hcomplete⟩
  | getNext => exact fits_role habove hcomplete

theorem eachFits_close (f : FilePtr) (role : Nfp.Role) :
    EachFits Fits (unlinkProgram f role ++ [deleteContext f]) := by
  have hdelete : EachFits Fits [deleteContext f] := ⟨rfl, trivial⟩
  cases role with
  | undefined | proximity => exact hdelete
  | _ =>
      exact fits_section rfl rfl (above_of_held_eq_nil rfl) (fun _ => silent_nil.cons rfl rfl)
        trivial hdelete

theorem Held.step (h : Held s) (hstep : step cfg s a = some s') : Held s' := by
  cases StepTo.of_step hstep with
  | accept t _ hidle =>
      refine h.give hidle ⟨⟨rfl, quiet_nil⟩, trivial⟩ rfl rfl (fun c => ?_) (Nat.le_succ _)
        (by simp) (by simp [held_cons, carries])
      simp only [Driver.setConnection]
      rcases eq_or_ne c s.driver.connections with rfl | hne
      · rw [update_self]
      · rw [update_of_ne hne]
  | create t f role _ hidle _ _ =>
      exact h.give hidle (eachFits_create f) rfl rfl (fun c => rfl) le_rfl (by simp)
        (by simp [held_cons, carries])
  | control t f code _ hidle _ =>
      refine h.give hidle (eachFits_control f code) rfl rfl (fun c => rfl) le_rfl ?_ ?_
      · cases code <;> simp [Control.program]
      · cases code <;> simp [Control.program, held_cons, carries]
  | close t f _ hidle _ _ =>
      refine h.give hidle (eachFits_close f _) rfl rfl (fun c => rfl) le_rfl ?_ ?_
      · cases (s.driver.file f).role <;> simp [unlinkProgram]
      · cases (s.driver.file f).role <;> simp [unlinkProgram, held_cons, carries]
  | callback t c _ hidle hpending =>
      exact h.callback hidle hpending
  | run t ok i p hprogram hblocks =>
      exact h.run hprogram hblocks

theorem held_start : Held (State.start cfg) where
  shape _ := trivial
  locks _ _ := iff_of_false (by simp [State.start, Driver.start]) (by simp [State.start])
  callbacks _ _ :=
    iff_of_false (by simp [State.start, Driver.start, Callback.runner]) (by simp [State.start])
  establishing _ _ _ hmem := by simp [State.start] at hmem
  created _ _ hmem := by simp [State.start] at hmem
  submitted _ _ hmem := by simp [State.start] at hmem
  initial _ _ := rfl

end Owners

end MiscProjects.NfpConnections
