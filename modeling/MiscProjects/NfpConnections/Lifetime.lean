import MiscProjects.NfpConnections.Uses

/-!
# The life of a connection

The callback of an inbound connection deletes it, and an outbound one is deleted with the
context of its handle.  Nobody uses a connection after that and `m_ConnectionHead` leads to
no deleted one if every connection is inserted before it is removed, if
`ConnectionEstablished` has done with an inbound connection when it is freed, and if the
destructor of an outbound one waits for the callback.
-/

namespace MiscProjects.NfpConnections

open Function (update update_self update_of_ne)
open Threads Instr Runs

/-- `ConnectionTerminated` does not find its connection in the list. -/
def removesEarly (s : State) : Action → Bool
  | .run t _ =>
      match s.program t with
      | removeConnection c :: _ => c ∉ s.driver.connectionHead
      | _ => false
  | _ => false

/-- An inbound connection is freed while a thread establishes it. -/
def freesEarly (cfg : Config) (s : State) : Action → Bool
  | .run t _ =>
      match s.program t with
      | free c :: _ =>
          (s.driver.connection c).fInboundConnection &&
            (List.range cfg.threads).any fun t' => .establishing c ∈ held (s.program t')
      | _ => false
  | _ => false

/-- The destructor of an outbound connection does not wait for its callback. -/
def skipsWait (s : State) : Action → Bool
  | .run t _ =>
      match s.program t with
      | destroyWork c :: _ =>
          !(s.driver.connection c).fInboundConnection && (s.driver.callback c).outstanding &&
            (s.driver.connection c).threadpoolThreadId = some t
      | _ => false
  | _ => false

/-- The list has no deleted connection, and no thread still has to use one. -/
structure State.Live (s : State) : Prop where
  listed : ∀ c ∈ s.driver.connectionHead, s.driver.deleted c = false
  used : ∀ t, ∀ i ∈ s.program t, ∀ c, i.refers = some c → s.driver.deleted c = false

namespace Driver
variable (d : Driver) (c : ConnectionPtr)

/-- The connection has been created and not deleted. -/
def Alive : Prop :=
  c < d.connections ∧ d.deleted c = false

/-- The connection has been neither inserted nor removed. -/
def Awaited : Prop :=
  c ∉ d.connectionHead ∧ d.removed c = false

/-- What is so while a thread still has to do an instruction. -/
def Known : Instr → Prop
  | validateAccept c | initializeAsClient c _ | finalizeEstablish c _ => d.Awaited c
  | submit c => d.Awaited c ∧ (d.connection c).threadpoolWork = true
  | insertConnection c => d.Awaited c ∧ d.callback c ≠ .none
  | testInbound c _ | testNoMore c _ _ | finish c _ => d.removed c = true
  | closeWork c | free c =>
      (d.connection c).fInboundConnection = true ∨ (d.callback c).outstanding = false
  | _ => True

end Driver

/-- A thread uses or deletes only connections that are alive, and so are those in the list
and those of the handles. -/
structure Lives (s : State) : Prop where
  used : ∀ t, ∀ j ∈ s.program t, ∀ c, j.refers = some c → s.driver.Alive c
  known : ∀ t, ∀ j ∈ s.program t, s.driver.Known j
  nodup : s.driver.connectionHead.Nodup
  listed : ∀ c ∈ s.driver.connectionHead,
    s.driver.Alive c ∧ s.driver.callback c ≠ .none ∧ s.driver.removed c = false
  pending : ∀ c, s.driver.callback c = .pending → s.driver.Alive c
  done : ∀ c, s.driver.callback c = .done → s.driver.removed c = true
  work : ∀ c, (s.driver.callback c).outstanding = true →
    (s.driver.connection c).threadpoolWork = true ∨
      (s.driver.connection c).fInboundConnection = true
  fresh : ∀ c, s.driver.connections ≤ c →
    (s.driver.connection c).fInboundConnection = false ∧ s.driver.deleted c = false ∧
      s.driver.removed c = false
  deleting : Exclusive Token.deleting s.program
  inbound : ∀ c t, .deleting c ∈ held (s.program t) →
    (s.driver.connection c).fInboundConnection = true →
      .callback c ∈ held (s.program t) ∧ s.driver.removed c = true
  outbound : ∀ c t, .deleting c ∈ held (s.program t) →
    (s.driver.connection c).fInboundConnection = false →
      ∀ t', .establishing c ∉ held (s.program t')
  handle : ∀ f c, (s.driver.file f).connection = some c →
    (s.driver.connection c).fInboundConnection = false ∧ s.driver.Alive c ∧
      ∀ t, .deleting c ∉ held (s.program t) ∧
        (.establishing c ∈ held (s.program t) → complete f ∈ s.program t)
  unique : ∀ f g c, (s.driver.file f).connection = some c →
    (s.driver.file g).connection = some c → f = g

section Lifetime
variable {cfg : Config} {s s' : State} {d : Driver} {t t' : ThreadId} {ok : Bool} {i j : Instr}
  {p : List Instr} {c : ConnectionPtr} {f : FilePtr} {a : Action}

/-! ## What the instructions change -/

theorem effect_deleted (hfree : i ≠ free c) : (d.effect t ok i).deleted c = d.deleted c := by
  cases i with
  | free c' =>
      have hne : c ≠ c' := by
        rintro rfl
        exact hfree rfl
      exact update_of_ne hne _ _
  | finalizeEstablish c' client | createConnection f | setEnabled f b | register f | unlink f =>
      simp only [Driver.effect]
      split <;> rfl
  | _ => rfl

theorem effect_removed (hremove : i ≠ removeConnection c) :
    (d.effect t ok i).removed c = d.removed c := by
  cases i with
  | removeConnection c' =>
      have hne : c ≠ c' := by
        rintro rfl
        exact hremove rfl
      exact update_of_ne hne _ _
  | finalizeEstablish c' client | createConnection f | setEnabled f b | register f | unlink f =>
      simp only [Driver.effect]
      split <;> rfl
  | _ => rfl

theorem effect_removed_of_removed (h : d.removed c = true) :
    (d.effect t ok i).removed c = true := by
  by_cases hremove : i = removeConnection c
  · subst hremove
    exact update_self _ _ _
  · rwa [effect_removed hremove]

theorem mem_effect_connectionHead (h : c ∈ (d.effect t ok i).connectionHead) :
    c ∈ d.connectionHead ∨ i = insertConnection c := by
  by_cases hinsert : ∃ c', i = insertConnection c'
  · obtain ⟨c', rfl⟩ := hinsert
    rcases List.mem_cons.mp h with rfl | hold
    · exact .inr rfl
    · exact .inl hold
  by_cases hremove : ∃ c', i = removeConnection c'
  · obtain ⟨c', rfl⟩ := hremove
    exact .inl (List.mem_of_mem_erase h)
  · rw [effect_connectionHead (fun c' hc => hinsert ⟨c', hc⟩) fun c' hc => hremove ⟨c', hc⟩] at h
    exact .inl h

theorem effect_callback_of_ne (hsubmit : i ≠ submit c) (hfinish : ∀ b, i ≠ finish c b) :
    (d.effect t ok i).callback c = d.callback c := by
  by_cases hsubmit' : ∃ c', i = submit c'
  · obtain ⟨c', rfl⟩ := hsubmit'
    have hne : c ≠ c' := by
      rintro rfl
      exact hsubmit rfl
    exact update_of_ne hne _ _
  by_cases hfinish' : ∃ c' b, i = finish c' b
  · obtain ⟨c', b, rfl⟩ := hfinish'
    have hne : c ≠ c' := by
      rintro rfl
      exact hfinish b rfl
    exact update_of_ne hne _ _
  · rw [effect_callback (fun c' hc => hsubmit' ⟨c', hc⟩) fun c' b hc => hfinish' ⟨c', b, hc⟩]

theorem effect_callback_ne_none (h : d.callback c ≠ .none) :
    (d.effect t ok i).callback c ≠ .none := by
  by_cases hsubmit : i = submit c
  · subst hsubmit
    simp [Driver.effect]
  by_cases hfinish : ∃ b, i = finish c b
  · obtain ⟨b, rfl⟩ := hfinish
    simp [Driver.effect]
  · rwa [effect_callback_of_ne hsubmit fun b hb => hfinish ⟨b, hb⟩]

theorem callback_effect_cases (d : Driver) (t : ThreadId) (ok : Bool) (i : Instr)
    (c : ConnectionPtr) : i = submit c ∧ (d.effect t ok i).callback c = .pending ∨
      (∃ b, i = finish c b) ∧ (d.effect t ok i).callback c = .done ∨
        (d.effect t ok i).callback c = d.callback c := by
  by_cases hsubmit : i = submit c
  · subst hsubmit
    exact .inl ⟨rfl, update_self _ _ _⟩
  by_cases hfinish : ∃ b, i = finish c b
  · obtain ⟨b, rfl⟩ := hfinish
    exact .inr (.inl ⟨⟨b, rfl⟩, update_self _ _ _⟩)
  · exact .inr (.inr (effect_callback_of_ne hsubmit fun b hb => hfinish ⟨b, hb⟩))

theorem effect_inbound (c : ConnectionPtr) : ((d.effect t ok i).connection c).fInboundConnection =
      (d.connection c).fInboundConnection :=
  effect_connection (P := fun x => x.fInboundConnection = (d.connection c).fInboundConnection) rfl
    (fun _ _ hx => hx) (fun _ hx => hx) (fun _ _ _ _ hx => hx) (fun _ hx => hx)
    (fun _ _ hx => hx) (fun _ _ hx => hx)

theorem effect_threadpoolWork (hfinalize : (d.connection c).state ≠ .initial)
    (hclose : i ≠ closeWork c) (h : (d.connection c).threadpoolWork = true) :
    ((d.effect t ok i).connection c).threadpoolWork = true := by
  cases i with
  | closeWork c' =>
      refine of_setConnection (P := fun x => x.threadpoolWork = true) h ?_
      rintro rfl -
      exact absurd rfl hclose
  | finalizeEstablish c' client =>
      simp only [Driver.effect]
      split
      case isTrue hinitial =>
        refine of_setConnection (P := fun x => x.threadpoolWork = true) h ?_
        rintro rfl -
        exact absurd hinitial hfinalize
      case isFalse => exact h
  | initializeAsClient c' f | abandon c' f | terminate c' | exchangeSocket c'
  | receiveThreadProc c' =>
      change ((d.setConnection c' _).connection c).threadpoolWork = true
      refine of_setConnection (P := fun x => x.threadpoolWork = true) h ?_
      rintro rfl hx
      exact hx
  | finish c' deleted =>
      cases deleted with
      | true => exact h
      | false =>
          change ((d.setConnection c' _).connection c).threadpoolWork = true
          refine of_setConnection (P := fun x => x.threadpoolWork = true) h ?_
          rintro rfl hx
          exact hx
  | createConnection f | setEnabled f b | register f | unlink f =>
      simp only [Driver.effect]
      split <;> exact h
  | _ => exact h

theorem effect_file_connection (h : ((d.effect t ok i).file f).connection = some c) :
    ((d.file f).connection = some c ∧ i ≠ deleteContext f ∧ ∀ c', i ≠ abandon c' f) ∨
      i = createConnection f ∧ ok = true ∧ c = d.connections := by
  cases i with
  | abandon c' g | deleteContext g =>
      change (update d.file g _ f).connection = some c at h
      rcases eq_or_ne f g with rfl | hne
      · rw [update_self] at h
        cases h
      · rw [update_of_ne hne] at h
        refine .inl ⟨h, ?_, ?_⟩
        · simp [hne.symm]
        · simp [hne.symm]
  | storePayload g | testRole g | opened g =>
      change (update d.file g _ f).connection = some c at h
      refine .inl ⟨?_, by simp, by simp⟩
      rcases eq_or_ne f g with rfl | hne
      · rwa [update_self] at h
      · rwa [update_of_ne hne] at h
  | setEnabled g b =>
      refine .inl ⟨?_, by simp, by simp⟩
      simp only [Driver.effect] at h
      split at h
      · exact h
      · change (update d.file g _ f).connection = some c at h
        rcases eq_or_ne f g with rfl | hne
        · rwa [update_self] at h
        · rwa [update_of_ne hne] at h
  | createConnection g =>
      simp only [Driver.effect] at h
      split at h
      case isTrue hok =>
        change (update d.file g _ f).connection = some c at h
        rcases eq_or_ne f g with rfl | hne
        · rw [update_self] at h
          exact .inr ⟨rfl, hok, (Option.some.inj h).symm⟩
        · rw [update_of_ne hne] at h
          exact .inl ⟨h, by simp, by simp⟩
      case isFalse => exact .inl ⟨h, by simp, by simp⟩
  | finalizeEstablish c' client | register g | unlink g =>
      refine .inl ⟨?_, by simp, by simp⟩
      simp only [Driver.effect] at h
      split at h <;> exact h
  | _ => exact .inl ⟨h, by simp, by simp⟩

theorem Driver.Alive.effect (h : d.Alive c) (hfree : i ≠ free c) : (d.effect t ok i).Alive c := by
  refine ⟨h.1.trans_le connections_le_effect, ?_⟩
  rw [effect_deleted hfree]
  exact h.2

/-! ## The tokens -/

theorem refers_of_deleting (h : .deleting c ∈ i.carries) : i.refers = some c := by
  cases i <;> simp [carries] at h
  all_goals
    subst h
    rfl

theorem Lives.alive_of_deleting (h : Lives s) (hmem : .deleting c ∈ held (s.program t)) :
    s.driver.Alive c := by
  obtain ⟨j, hj, hcarries⟩ := exists_carries_of_mem_held hmem
  exact h.used t j hj c (refers_of_deleting hcarries)

theorem deleting_mem_keeps (h : .deleting c ∈ d.keeps ok i) : .deleting c ∈ i.carries ∨
      (∃ b, i = testInbound c b) ∧ (d.connection c).fInboundConnection = true ∨
        ∃ f, i = deleteContext f ∧ (d.file f).connection = some c := by
  cases i with
  | testInbound c' b =>
      simp only [Driver.keeps] at h
      split at h
      case isTrue hinbound =>
        obtain rfl : c = c' := by simpa using h
        exact .inr (.inl ⟨⟨b, rfl⟩, hinbound⟩)
      case isFalse => simp at h
  | deleteContext f =>
      refine .inr (.inr ⟨f, rfl, ?_⟩)
      simpa [Driver.keeps] using h
  | validateAccept c' | newMessage c' | finalizeEstablish c' client | createConnection f =>
      simp only [Driver.keeps] at h
      split at h <;> simp at h
  | destroyWork c' | awaitWork c' | closeWork c' => exact .inl h
  | _ => simp [Driver.keeps] at h

theorem deleting_mem_next (h : .deleting c ∈ held (d.next t ok i ++ p)) :
    .deleting c ∈ held (i :: p) ∨
      (∃ b, i = testInbound c b) ∧ (d.connection c).fInboundConnection = true ∨
        ∃ f, i = deleteContext f ∧ (d.file f).connection = some c := by
  rw [held_next, List.mem_append] at h
  rcases h with hkeeps | hrest
  · rcases deleting_mem_keeps hkeeps with hcarries | hnew
    · refine .inl ?_
      rw [held_cons_of_carries (acquires_eq_none fun l hl => ?_)]
      · exact List.mem_append_left _ hcarries
      · subst hl
        cases hcarries
    · exact .inr hnew
  · exact .inl (mem_held_cons (acquires_ne (by simp) i) hrest)

theorem establishing_run (hprogram : s.program t = i :: p)
    (hmem : .establishing c ∈ held (update s.program t (s.driver.next t ok i ++ p) t')) :
    .establishing c ∈ held (s.program t') ∨
      (t' = t ∧ ∃ f, i = createConnection f) ∧ c = s.driver.connections := by
  rcases eq_or_ne t' t with rfl | hne
  · rw [update_self] at hmem
    rcases establishing_mem_next hmem with hold | ⟨hcreate, -, hc⟩
    · rw [hprogram]
      exact .inl hold
    · exact .inr ⟨⟨rfl, hcreate⟩, hc⟩
  · rw [update_of_ne hne] at hmem
    exact .inl hmem

theorem deleting_run (hprogram : s.program t = i :: p)
    (hmem : .deleting c ∈ held (update s.program t (s.driver.next t ok i ++ p) t')) :
    .deleting c ∈ held (s.program t') ∨
      (∃ b, i = testInbound c b) ∧ (s.driver.connection c).fInboundConnection = true ∨
        ∃ f, i = deleteContext f ∧ (s.driver.file f).connection = some c := by
  rcases eq_or_ne t' t with rfl | hne
  · rw [update_self] at hmem
    rw [hprogram]
    exact deleting_mem_next hmem
  · rw [update_of_ne hne] at hmem
    exact .inl hmem

/-! ## What the threads know -/

theorem Lives.known_next (h : Lives s) (hprogram : s.program t = i :: p)
    (hblocks : s.driver.blocks i = false) (hwait : skipsWait s (.run t ok) = false)
    (hj : j ∈ s.driver.next t ok i) : (s.driver.effect t ok i).Known j := by
  have hi := h.known t i (mem_program hprogram)
  cases leads_of_mem_next _ hj with
  | accepted | initialized | tested | finishes => exact hi
  | established hinitial hok =>
      simp only [Driver.effect, if_pos hinitial]
      exact ⟨hi, by simp [Driver.setConnection, hok]⟩
  | submitted => exact ⟨hi.1, by simp [Driver.effect]⟩
  | removed => exact update_self _ _ _
  | @ownWork c hthread =>
      change (s.driver.connection c).fInboundConnection = true ∨
        (s.driver.callback c).outstanding = false
      simp only [skipsWait, hprogram, hthread, decide_true, Bool.and_true,
        Bool.and_eq_false_iff, Bool.not_eq_false'] at hwait
      exact hwait
  | @noWork c hwork =>
      change (s.driver.connection c).fInboundConnection = true ∨
        (s.driver.callback c).outstanding = false
      by_cases houtstanding : (s.driver.callback c).outstanding = true
      · exact .inl ((h.work c houtstanding).resolve_left hwork)
      · exact .inr (Bool.eq_false_iff.mpr houtstanding)
  | awaited => exact .inr hblocks
  | workClosed =>
      change _ ∨ _
      rw [effect_inbound]
      exact hi
  | created hok =>
      simp only [Driver.effect, if_pos hok]
      refine ⟨fun hmem => ?_, (h.fresh _ le_rfl).2.2⟩
      exact lt_irrefl _ (h.listed _ hmem).1.1
  | _ => trivial

theorem Held.awaited_effect (hheld : Held s) (hprogram : s.program t = i :: p)
    (hremove : removesEarly s (.run t ok) = false) (hold : j ∈ s.program t')
    (hrest : t' = t → j ∈ p) (hj : .establishing c ∈ j.carries) (hrefers : j.refers = some c)
    (hawaited : s.driver.Awaited c) : (s.driver.effect t ok i).Awaited c := by
  refine ⟨fun hmem => ?_, ?_⟩
  · rcases mem_effect_connectionHead hmem with hmem | rfl
    · exact hawaited.1 hmem
    · have hsame : t' = t := by
        refine hheld.establishing c t' t ?_ ?_
        · refine mem_held_of_mem (acquires_ne (by simp)) hold hj (acquires_eq_none fun l hl => ?_)
          subst hl
          cases hj
        · exact mem_held_program hprogram rfl (List.mem_cons_of_mem _ List.mem_cons_self)
      rw [(hheld.fits hprogram).1.2.2 j (hrest hsame)] at hrefers
      cases hrefers
  · rw [effect_removed]
    · exact hawaited.2
    · rintro rfl
      simp only [removesEarly, hprogram, decide_eq_false_iff_not, not_not] at hremove
      exact hawaited.1 hremove

theorem Lives.not_listed_of_free (h : Lives s) (hprogram : s.program t = free c :: p) :
    c ∉ s.driver.connectionHead := by
  intro hmem
  obtain ⟨-, hsubmitted, hremoved⟩ := h.listed c hmem
  have hdeleting : .deleting c ∈ held (s.program t) :=
    mem_held_program hprogram rfl List.mem_cons_self
  rcases h.known t _ (mem_program hprogram) with hinbound | hwaited
  · rw [(h.inbound c t hdeleting hinbound).2] at hremoved
    cases hremoved
  cases hcallback : s.driver.callback c with
  | none => exact hsubmitted hcallback
  | pending | running t =>
      rw [hcallback] at hwaited
      cases hwaited
  | done =>
      rw [h.done c hcallback] at hremoved
      cases hremoved

section Run
variable (h : Lives s) (hprogram : s.program t = i :: p)
include h hprogram

theorem Lives.known_effect (hheld : Held s) (hremove : removesEarly s (.run t ok) = false)
    (hold : j ∈ s.program t') (hrest : t' = t → j ∈ p) : (s.driver.effect t ok i).Known j := by
  have hj := h.known t' j hold
  cases j with
  | validateAccept c | initializeAsClient c f | finalizeEstablish c client =>
      exact hheld.awaited_effect hprogram hremove hold hrest List.mem_cons_self rfl hj
  | submit c =>
      refine ⟨hheld.awaited_effect hprogram hremove hold hrest List.mem_cons_self rfl hj.1, ?_⟩
      obtain ⟨hnone, hstate⟩ := hheld.submitted c t' hold
      refine effect_threadpoolWork hstate ?_ hj.2
      rintro rfl
      have hdeleting : .deleting c ∈ held (s.program t) :=
        mem_held_program hprogram rfl List.mem_cons_self
      cases hinbound : (s.driver.connection c).fInboundConnection with
      | true =>
          -- its own callback would be running
          have hcallback := (h.inbound c t hdeleting hinbound).1
          rw [← hheld.callback_iff, hnone] at hcallback
          cases hcallback
      | false => exact h.outbound c t hdeleting hinbound t' (submit_holds hold)
  | insertConnection c =>
      refine ⟨hheld.awaited_effect hprogram hremove hold hrest
        (List.mem_cons_of_mem _ List.mem_cons_self) rfl hj.1, ?_⟩
      exact effect_callback_ne_none hj.2
  | testInbound c b | testNoMore c b deleted | finish c deleted =>
      exact effect_removed_of_removed hj
  | closeWork c | free c =>
      change _ ∨ _
      rw [effect_inbound]
      rcases hj with hinbound | hwaited
      · exact .inl hinbound
      by_cases hfinish : ∃ b, i = finish c b
      · obtain ⟨b, rfl⟩ := hfinish
        refine .inr ?_
        simp [Driver.effect, Callback.outstanding]
      by_cases hsubmit : i = submit c
      · subst hsubmit
        refine .inl ?_
        by_contra hinbound
        refine h.outbound c t' ?_ (Bool.eq_false_iff.mpr hinbound) t
          (submit_holds (mem_program hprogram))
        exact mem_held_of_mem (acquires_ne (by simp)) hold List.mem_cons_self rfl
      · rw [effect_callback_of_ne hsubmit fun b hb => hfinish ⟨b, hb⟩]
        exact .inr hwaited
  | _ => trivial

theorem Lives.not_refers_of_free (hheld : Held s) (hcovered : Covered s) (hphased : Phased cfg s)
    (hi : i = free c) (hfree : freesEarly cfg s (.run t ok) = false)
    (hold : j ∈ s.program t') (hrest : t' = t → j ∈ p) : j.refers ≠ some c := by
  subst hi
  intro hrefers
  obtain ⟨hfits, -⟩ := hheld.fits hprogram
  have hne : t' ≠ t := by
    intro heq
    rw [hfits j (hrest heq)] at hrefers
    cases hrefers
  have hdeleting : .deleting c ∈ held (s.program t) :=
    mem_held_program hprogram rfl List.mem_cons_self
  have hknown := h.known t _ (mem_program hprogram)
  have ht' : t' < cfg.threads := by
    by_contra hle
    rw [hphased.idle t' (Nat.not_lt.mp hle)] at hold
    cases hold
  rcases hcovered.covered t' j hold c hrefers with ⟨k, hmem, hk⟩ | ⟨-, hmem⟩
  · cases k with
    | lock l | opening f => cases hk
    | deleting c' =>
        obtain rfl : c' = c := Option.some.inj hk
        exact hne (h.deleting c' t' t hmem hdeleting)
    | establishing c' =>
        obtain rfl : c' = c := Option.some.inj hk
        cases hinbound : (s.driver.connection c').fInboundConnection with
        | true =>
            simp only [freesEarly, hprogram, hinbound, Bool.true_and, List.any_eq_false,
              List.mem_range, decide_eq_true_eq] at hfree
            exact hfree t' ht' hmem
        | false => exact h.outbound c' t hdeleting hinbound t' hmem
    | callback c' =>
        obtain rfl : c' = c := Option.some.inj hk
        rcases hknown with hinbound | hwaited
        · exact hne (hheld.callbacks.exclusive c' t' t hmem (h.inbound c' t hdeleting hinbound).1)
        · rw [hheld.callback_iff.mpr hmem] at hwaited
          cases hwaited
  · exact h.not_listed_of_free hprogram hmem

/-! ## What a step keeps -/

theorem Lives.run_used (hheld : Held s) (hcovered : Covered s) (hphased : Phased cfg s)
    (hfree : freesEarly cfg s (.run t ok) = false)
    (hj : j ∈ update s.program t (s.driver.next t ok i ++ p) t') (hc : j.refers = some c) :
    (s.driver.effect t ok i).Alive c := by
  rcases mem_run hprogram hj with ⟨hold, hrest⟩ | ⟨-, hnext⟩
  · refine (h.used t' j hold c hc).effect fun hi => ?_
    exact h.not_refers_of_free hprogram hheld hcovered hphased hi hfree hold hrest hc
  rcases refers_mem_next hnext hc with hi | ⟨⟨f, rfl⟩, rfl, rfl⟩ | ⟨⟨f, rfl⟩, hmem⟩ |
    ⟨f, rfl, hconnection⟩
  · refine (h.used t i (mem_program hprogram) c hi).effect ?_
    rintro rfl
    cases hnext
  · exact ⟨Nat.lt_succ_self _, (h.fresh _ le_rfl).2.1⟩
  · exact (h.listed c hmem).1
  · exact (h.handle f c hconnection).2.1

theorem Lives.run_nodup : (s.driver.effect t ok i).connectionHead.Nodup := by
  by_cases hinsert : ∃ c, i = insertConnection c
  · obtain ⟨c, rfl⟩ := hinsert
    exact List.nodup_cons.mpr ⟨(h.known t _ (mem_program hprogram)).1.1, h.nodup⟩
  by_cases hremove : ∃ c, i = removeConnection c
  · obtain ⟨c, rfl⟩ := hremove
    exact h.nodup.erase c
  · rw [effect_connectionHead (fun c hc => hinsert ⟨c, hc⟩) fun c hc => hremove ⟨c, hc⟩]
    exact h.nodup

theorem Lives.run_listed (hmem : c ∈ (s.driver.effect t ok i).connectionHead) :
    (s.driver.effect t ok i).Alive c ∧ (s.driver.effect t ok i).callback c ≠ .none ∧
      (s.driver.effect t ok i).removed c = false := by
  rcases mem_effect_connectionHead hmem with hold | rfl
  · obtain ⟨halive, hsubmitted, hremoved⟩ := h.listed c hold
    refine ⟨halive.effect ?_, effect_callback_ne_none hsubmitted, ?_⟩
    · rintro rfl
      exact h.not_listed_of_free hprogram hold
    · rw [effect_removed, hremoved]
      rintro rfl
      exact h.nodup.not_mem_erase hmem
  · obtain ⟨hawaited, hsubmitted⟩ := h.known t _ (mem_program hprogram)
    exact ⟨h.used t _ (mem_program hprogram) c rfl, hsubmitted, hawaited.2⟩

theorem Lives.run_pending (hheld : Held s)
    (hpending : (s.driver.effect t ok i).callback c = .pending) :
    (s.driver.effect t ok i).Alive c := by
  rcases callback_effect_cases s.driver t ok i c with
    ⟨rfl, -⟩ | ⟨-, hdone⟩ | hsame
  · exact h.used t _ (mem_program hprogram) c rfl
  · rw [hdone] at hpending
    cases hpending
  · rw [hsame] at hpending
    refine (h.pending c hpending).effect ?_
    rintro rfl
    rcases h.known t _ (mem_program hprogram) with hinbound | hwaited
    · have hdeleting : .deleting c ∈ held (s.program t) :=
        mem_held_program hprogram rfl List.mem_cons_self
      have hrunning := hheld.callback_iff.mpr (h.inbound c t hdeleting hinbound).1
      rw [hpending] at hrunning
      cases hrunning
    · rw [hpending] at hwaited
      cases hwaited

theorem Lives.run_done (hdone : (s.driver.effect t ok i).callback c = .done) :
    (s.driver.effect t ok i).removed c = true := by
  rcases callback_effect_cases s.driver t ok i c with
    ⟨-, hpending⟩ | ⟨⟨b, rfl⟩, -⟩ | hsame
  · rw [hpending] at hdone
    cases hdone
  · exact effect_removed_of_removed (h.known t _ (mem_program hprogram))
  · exact effect_removed_of_removed (h.done c (hsame ▸ hdone))

theorem Lives.run_work (hheld : Held s)
    (houtstanding : ((s.driver.effect t ok i).callback c).outstanding = true) :
    ((s.driver.effect t ok i).connection c).threadpoolWork = true ∨
      ((s.driver.effect t ok i).connection c).fInboundConnection = true := by
  rw [effect_inbound]
  rcases callback_effect_cases s.driver t ok i c with
    ⟨rfl, -⟩ | ⟨-, hdone⟩ | hsame
  · exact .inl (h.known t _ (mem_program hprogram)).2
  · rw [hdone] at houtstanding
    cases houtstanding
  rw [hsame] at houtstanding
  rcases h.work c houtstanding with hwork | hinbound
  · by_cases hclose : i = closeWork c
    · subst hclose
      rcases h.known t _ (mem_program hprogram) with hinbound | hwaited
      · exact .inr hinbound
      · rw [houtstanding] at hwaited
        cases hwaited
    · refine .inl (effect_threadpoolWork (fun hinitial => ?_) hclose hwork)
      rw [hheld.initial c hinitial] at houtstanding
      cases houtstanding
  · exact .inr hinbound

theorem Lives.run_fresh (hc : (s.driver.effect t ok i).connections ≤ c) :
    ((s.driver.effect t ok i).connection c).fInboundConnection = false ∧
      (s.driver.effect t ok i).deleted c = false ∧ (s.driver.effect t ok i).removed c = false := by
  have hle : s.driver.connections ≤ c := connections_le_effect.trans hc
  obtain ⟨hinbound, hdeleted, hremoved⟩ := h.fresh c hle
  have hrefers : i.refers ≠ some c := fun hrefers =>
    absurd (h.used t i (mem_program hprogram) c hrefers).1 (Nat.not_lt.mpr hle)
  refine ⟨?_, ?_, ?_⟩
  · rw [effect_inbound, hinbound]
  · rw [effect_deleted, hdeleted]
    rintro rfl
    exact hrefers rfl
  · rw [effect_removed, hremoved]
    rintro rfl
    exact hrefers rfl

/-! ### Deletion -/

theorem Lives.run_deleting (hheld : Held s) :
    Exclusive Token.deleting (update s.program t (s.driver.next t ok i ++ p)) := by
  refine h.deleting.update fun c hmem => ?_
  rcases deleting_mem_next hmem with hold | ⟨⟨b, rfl⟩, hinbound⟩ | ⟨f, rfl, hconnection⟩
  · rw [hprogram]
    exact .inl hold
  · refine .inr fun t' hdeleting => ?_
    have hcallback : .callback c ∈ held (s.program t) :=
      mem_held_program hprogram rfl List.mem_cons_self
    obtain rfl : t' = t :=
      hheld.callbacks.exclusive c t' t (h.inbound c t' hdeleting hinbound).1 hcallback
    obtain rfl : p = [] := (hheld.fits hprogram).1
    rw [hprogram] at hdeleting
    simp [held_cons, carries] at hdeleting
  · exact .inr fun t' => ((h.handle f c hconnection).2.2 t').1

theorem Lives.run_inbound (hheld : Held s)
    (hmem : .deleting c ∈ held (update s.program t (s.driver.next t ok i ++ p) t'))
    (hinbound : ((s.driver.effect t ok i).connection c).fInboundConnection = true) :
    .callback c ∈ held (update s.program t (s.driver.next t ok i ++ p) t') ∧
      (s.driver.effect t ok i).removed c = true := by
  rw [effect_inbound] at hinbound
  rcases eq_or_ne t' t with rfl | hne
  · rw [update_self] at hmem ⊢
    rcases deleting_mem_next hmem with hold | ⟨⟨b, rfl⟩, -⟩ | ⟨f, rfl, hconnection⟩
    · rw [← hprogram] at hold
      obtain ⟨hcallback, hremoved⟩ := h.inbound c t' hold hinbound
      refine ⟨?_, effect_removed_of_removed hremoved⟩
      rw [hprogram] at hcallback
      rcases mem_held_next s.driver t' ok (hheld.fits hprogram).1 rfl hcallback with hnext | hnone
      · exact hnext
      · obtain ⟨j, hj, hcarries⟩ := exists_carries_of_mem_held hmem
        have hrefers := hnone j hj
        rw [refers_of_deleting hcarries] at hrefers
        cases hrefers
    · refine ⟨?_, h.known t' _ (mem_program hprogram)⟩
      rw [held_next]
      simp [Driver.keeps, hinbound]
    · rw [(h.handle f c hconnection).1] at hinbound
      cases hinbound
  · rw [update_of_ne hne] at hmem ⊢
    obtain ⟨hcallback, hremoved⟩ := h.inbound c t' hmem hinbound
    exact ⟨hcallback, effect_removed_of_removed hremoved⟩

theorem Lives.run_outbound (hphased : Phased cfg s) {t₀ : ThreadId}
    (hmem : .deleting c ∈ held (update s.program t (s.driver.next t ok i ++ p) t'))
    (hinbound : ((s.driver.effect t ok i).connection c).fInboundConnection = false) :
    .establishing c ∉ held (update s.program t (s.driver.next t ok i ++ p) t₀) := by
  rw [effect_inbound] at hinbound
  intro hestablishing
  rcases deleting_run hprogram hmem with hold | ⟨-, hin⟩ | ⟨f, rfl, hconnection⟩
  · rcases establishing_run hprogram hestablishing with hbefore | ⟨-, rfl⟩
    · exact h.outbound c t' hold hinbound t₀ hbefore
    · exact lt_irrefl _ (h.alive_of_deleting hold).1
  · rw [hin] at hinbound
    cases hinbound
  · rcases establishing_run hprogram hestablishing with hbefore | ⟨⟨-, g, hg⟩, -⟩
    · -- a request on the handle has not been completed, which has been closed
      have hcomplete := ((h.handle f c hconnection).2.2 t₀).2 hbefore
      have husable := hphased.phases t₀ _ hcomplete f .usable rfl
      have hclosed := hphased.phases t _ (mem_program hprogram) f .closed rfl
      rw [husable] at hclosed
      cases hclosed
    · cases hg

theorem Lives.run_handle (hheld : Held s) (hcovered : Covered s)
    (hconnection : ((s.driver.effect t ok i).file f).connection = some c) :
    ((s.driver.effect t ok i).connection c).fInboundConnection = false ∧
      (s.driver.effect t ok i).Alive c ∧
        ∀ t', .deleting c ∉ held (update s.program t (s.driver.next t ok i ++ p) t') ∧
          (.establishing c ∈ held (update s.program t (s.driver.next t ok i ++ p) t') →
            complete f ∈ update s.program t (s.driver.next t ok i ++ p) t') := by
  rw [effect_inbound]
  rcases effect_file_connection hconnection with ⟨hold, hdelete, -⟩ | ⟨rfl, rfl, rfl⟩
  · obtain ⟨hinbound, halive, hnone⟩ := h.handle f c hold
    refine ⟨hinbound, halive.effect ?_, fun t' => ⟨fun hdeleting => ?_, fun hestablishing => ?_⟩⟩
    · rintro rfl
      refine (hnone t).1 ?_
      exact mem_held_program hprogram rfl List.mem_cons_self
    · rcases deleting_run hprogram hdeleting with hbefore | ⟨-, hin⟩ | ⟨g, rfl, hg⟩
      · exact (hnone t').1 hbefore
      · rw [hin] at hinbound
        cases hinbound
      · obtain rfl := h.unique g f c hg hold
        exact hdelete rfl
    · rcases establishing_run hprogram hestablishing with hbefore | ⟨-, rfl⟩
      · have hcomplete := (hnone t').2 hbefore
        rcases eq_or_ne t' t with rfl | hne
        · rw [update_self] at hestablishing ⊢
          rw [hprogram] at hcomplete
          rcases List.mem_cons.mp hcomplete with rfl | hrest
          · obtain rfl : p = [] := (hheld.fits hprogram).1
            simp [Driver.next] at hestablishing
          · exact List.mem_append_right _ hrest
        · rwa [update_of_ne hne]
      · exact absurd halive.1 (lt_irrefl _)
  · obtain ⟨hinbound, hdeleted, -⟩ := h.fresh _ le_rfl
    refine ⟨hinbound, ⟨Nat.lt_succ_self _, hdeleted⟩, fun t' => ⟨fun hdeleting => ?_,
      fun hestablishing => ?_⟩⟩
    · rcases deleting_run hprogram hdeleting with hbefore | ⟨⟨b, hb⟩, -⟩ | ⟨g, hg, -⟩
      · exact lt_irrefl _ (h.alive_of_deleting hbefore).1
      · cases hb
      · cases hg
    · rcases establishing_run hprogram hestablishing with hbefore | ⟨⟨rfl, -⟩, -⟩
      · exact absurd (hheld.created _ _ hbefore) (lt_irrefl _)
      · have hguarded := hcovered.guarded t'
        rw [hprogram] at hguarded
        rw [update_self]
        exact List.mem_append_right _ hguarded.1

theorem Lives.run_unique {g : FilePtr} (hf : ((s.driver.effect t ok i).file f).connection = some c)
    (hg : ((s.driver.effect t ok i).file g).connection = some c) : f = g := by
  rcases effect_file_connection hf with ⟨hold, -⟩ | ⟨rfl, -, rfl⟩
  · rcases effect_file_connection hg with ⟨hold', -⟩ | ⟨rfl, -, rfl⟩
    · exact h.unique f g c hold hold'
    · exact absurd (h.handle f _ hold).2.1.1 (lt_irrefl _)
  · rcases effect_file_connection hg with ⟨hold', -⟩ | ⟨hi, -⟩
    · exact absurd (h.handle g _ hold').2.1.1 (lt_irrefl _)
    · exact Instr.createConnection.inj hi

theorem Lives.run (hheld : Held s) (hcovered : Covered s) (hphased : Phased cfg s)
    (hblocks : s.driver.blocks i = false) (hremove : removesEarly s (.run t ok) = false)
    (hfree : freesEarly cfg s (.run t ok) = false) (hwait : skipsWait s (.run t ok) = false) :
    Lives (s.give t (s.driver.effect t ok i) (s.driver.next t ok i ++ p)) where
  used _ _ hj _ hc := h.run_used hprogram hheld hcovered hphased hfree hj hc
  known t' j hj := by
    rcases mem_run hprogram hj with ⟨hold, hrest⟩ | ⟨-, hnext⟩
    · exact h.known_effect hprogram hheld hremove hold hrest
    · exact h.known_next hprogram hblocks hwait hnext
  nodup := h.run_nodup hprogram
  listed _ hmem := h.run_listed hprogram hmem
  pending _ hpending := h.run_pending hprogram hheld hpending
  done _ hdone := h.run_done hprogram hdone
  work _ houtstanding := h.run_work hprogram hheld houtstanding
  fresh _ hc := h.run_fresh hprogram hc
  deleting := h.run_deleting hprogram hheld
  inbound _ _ hmem hinbound := h.run_inbound hprogram hheld hmem hinbound
  outbound _ _ hmem hinbound _ := h.run_outbound hprogram hphased hmem hinbound
  handle _ _ hconnection := h.run_handle hprogram hheld hcovered hconnection
  unique _ _ _ hf hg := h.run_unique hprogram hf hg

end Run

/-! ## What the environment does -/

theorem lives_start : Lives (State.start cfg) where
  used _ _ hj := by cases hj
  known _ _ hj := by cases hj
  nodup := List.nodup_nil
  listed _ hmem := by cases hmem
  pending _ hpending := by cases hpending
  done _ hdone := by cases hdone
  work _ houtstanding := by cases houtstanding
  fresh _ _ := ⟨rfl, rfl, rfl⟩
  deleting _ _ _ hmem := by simp [State.start] at hmem
  inbound _ _ hmem := by simp [State.start] at hmem
  outbound _ _ hmem := by simp [State.start] at hmem
  handle _ _ hconnection := by cases hconnection
  unique _ _ _ hconnection := by cases hconnection

section Give
variable (h : Lives s) (hidle : s.program t = [])
  (hlists : d.connectionHead = s.driver.connectionHead ∧ d.deleted = s.driver.deleted ∧
    d.removed = s.driver.removed)
  (hle : s.driver.connections ≤ d.connections)
  (hwork : ∀ c, (d.connection c).threadpoolWork = (s.driver.connection c).threadpoolWork)
  (hinbound : ∀ c, (d.connection c).fInboundConnection =
    (s.driver.connection c).fInboundConnection ∨ s.driver.connections ≤ c ∧ c < d.connections)
  (hcallback : ∀ c, d.callback c = s.driver.callback c ∨
    s.driver.callback c = .pending ∧ d.callback c = .running t)

include hlists hle in
theorem Driver.Alive.give (hc : s.driver.Alive c) : d.Alive c := by
  refine ⟨hc.1.trans_le hle, ?_⟩
  rw [hlists.2.1]
  exact hc.2

include hlists in
theorem Driver.Awaited.give (hc : s.driver.Awaited c) : d.Awaited c := by
  unfold Driver.Awaited
  rw [hlists.1, hlists.2.2]
  exact hc

include hinbound in
theorem inbound_give (hc : s.driver.Alive c) :
    (d.connection c).fInboundConnection = (s.driver.connection c).fInboundConnection :=
  (hinbound c).resolve_right fun hnew => absurd hc.1 (Nat.not_lt.mpr hnew.1)

include hcallback in
theorem outstanding_give (c : ConnectionPtr) :
    (d.callback c).outstanding = (s.driver.callback c).outstanding := by
  rcases hcallback c with hsame | ⟨hpending, hrunning⟩
  · rw [hsame]
  · rw [hpending, hrunning]
    rfl

include hcallback in
theorem callback_give_ne_none (hc : s.driver.callback c ≠ .none) : d.callback c ≠ .none := by
  rcases hcallback c with hsame | ⟨-, hrunning⟩
  · rwa [hsame]
  · simp [hrunning]

include h hlists hwork hinbound hcallback in
theorem Lives.known_give (hj : j ∈ s.program t') : d.Known j := by
  have hknown := h.known t' j hj
  cases j with
  | validateAccept c | initializeAsClient c f | finalizeEstablish c client =>
      exact Driver.Awaited.give hlists hknown
  | submit c =>
      refine ⟨Driver.Awaited.give hlists hknown.1, ?_⟩
      rw [hwork]
      exact hknown.2
  | insertConnection c =>
      exact ⟨Driver.Awaited.give hlists hknown.1, callback_give_ne_none hcallback hknown.2⟩
  | testInbound c b | testNoMore c b deleted | finish c deleted =>
      change d.removed c = true
      rw [hlists.2.2]
      exact hknown
  | closeWork c | free c =>
      change _ ∨ _
      rw [inbound_give hinbound (h.used t' _ hj c rfl), outstanding_give hcallback]
      exact hknown
  | _ => trivial

include h hidle hlists hle hwork hinbound hcallback in
theorem Lives.give
    (hfile : ∀ f c, (d.file f).connection = some c → (s.driver.file f).connection = some c)
    (hrefers : ∀ j ∈ p, ∀ c, j.refers = some c → d.Alive c) (hknown : ∀ j ∈ p, d.Known j)
    (hdeleting : ∀ c, .deleting c ∉ held p)
    (hestablishing : ∀ c, .establishing c ∈ held p → s.driver.connections ≤ c) :
    Lives (s.give t d p) := by
  have holdDeleting {c : ConnectionPtr} {t' : ThreadId}
      (hmem : .deleting c ∈ held (update s.program t p t')) :
      .deleting c ∈ held (s.program t') := by
    rcases mem_held_give hmem with hold | ⟨-, hnew⟩
    · exact hold
    · exact absurd hnew (hdeleting c)
  have holdEstablishing {c : ConnectionPtr} {t' : ThreadId} (hc : s.driver.Alive c)
      (hmem : .establishing c ∈ held (update s.program t p t')) :
      .establishing c ∈ held (s.program t') := by
    rcases mem_held_give hmem with hold | ⟨-, hnew⟩
    · exact hold
    · exact absurd hc.1 (Nat.not_lt.mpr (hestablishing c hnew))
  have hne {t' : ThreadId} {j : Instr} (hj : j ∈ s.program t') : t' ≠ t := by
    rintro rfl
    rw [hidle] at hj
    cases hj
  constructor
  · intro t' j hj c hc
    rcases mem_give hj with hold | ⟨-, hnew⟩
    · exact (h.used t' j hold c hc).give hlists hle
    · exact hrefers j hnew c hc
  · intro t' j hj
    rcases mem_give hj with hold | ⟨-, hnew⟩
    · exact h.known_give hlists hwork hinbound hcallback hold
    · exact hknown j hnew
  · change d.connectionHead.Nodup
    rw [hlists.1]
    exact h.nodup
  · intro c hmem
    change c ∈ d.connectionHead at hmem
    change d.Alive c ∧ d.callback c ≠ .none ∧ d.removed c = false
    rw [hlists.1] at hmem
    obtain ⟨halive, hsubmitted, hremoved⟩ := h.listed c hmem
    rw [hlists.2.2]
    exact ⟨halive.give hlists hle, callback_give_ne_none hcallback hsubmitted, hremoved⟩
  · intro c hpending
    change d.callback c = .pending at hpending
    refine (h.pending c ?_).give hlists hle
    rcases hcallback c with hsame | ⟨hold, -⟩
    · rwa [← hsame]
    · exact hold
  · intro c hdone
    change d.callback c = .done at hdone
    change d.removed c = true
    rw [hlists.2.2]
    refine h.done c ?_
    rcases hcallback c with hsame | ⟨-, hrunning⟩
    · rwa [← hsame]
    · rw [hrunning] at hdone
      cases hdone
  · intro c houtstanding
    change (d.callback c).outstanding = true at houtstanding
    change (d.connection c).threadpoolWork = true ∨ (d.connection c).fInboundConnection = true
    rw [outstanding_give hcallback] at houtstanding
    rw [hwork]
    rcases h.work c houtstanding with hold | hold
    · exact .inl hold
    · refine .inr ?_
      have hc : c < s.driver.connections := by
        by_contra hfresh
        rw [(h.fresh c (Nat.not_lt.mp hfresh)).1] at hold
        cases hold
      rw [(hinbound c).resolve_right fun hnew => absurd hc (Nat.not_lt.mpr hnew.1)]
      exact hold
  · intro c hc
    change d.connections ≤ c at hc
    obtain ⟨hold, hdeleted, hremoved⟩ := h.fresh c (hle.trans hc)
    change (d.connection c).fInboundConnection = false ∧ d.deleted c = false ∧ d.removed c = false
    rw [(hinbound c).resolve_right fun hnew => absurd hnew.2 (Nat.not_lt.mpr hc), hlists.2.1,
      hlists.2.2]
    exact ⟨hold, hdeleted, hremoved⟩
  · intro c t₁ t₂ h₁ h₂
    exact h.deleting c t₁ t₂ (holdDeleting h₁) (holdDeleting h₂)
  · intro c t' hmem hin
    have hold := holdDeleting hmem
    obtain ⟨j, hj, -⟩ := exists_carries_of_mem_held hold
    change (d.connection c).fInboundConnection = true at hin
    rw [inbound_give hinbound (h.alive_of_deleting hold)] at hin
    obtain ⟨hrunning, hremoved⟩ := h.inbound c t' hold hin
    change .callback c ∈ held (update s.program t p t') ∧ d.removed c = true
    rw [update_of_ne (hne hj), hlists.2.2]
    exact ⟨hrunning, hremoved⟩
  · intro c t' hmem hin t₀ hmem'
    have hold := holdDeleting hmem
    have halive := h.alive_of_deleting hold
    change (d.connection c).fInboundConnection = false at hin
    rw [inbound_give hinbound halive] at hin
    exact h.outbound c t' hold hin t₀ (holdEstablishing halive hmem')
  · intro f c hconnection
    obtain ⟨hin, halive, hnone⟩ := h.handle f c (hfile f c hconnection)
    refine ⟨(inbound_give hinbound halive).trans hin, halive.give hlists hle, fun t' =>
      ⟨fun hmem => (hnone t').1 (holdDeleting hmem), fun hmem => ?_⟩⟩
    have hcomplete := (hnone t').2 (holdEstablishing halive hmem)
    change complete f ∈ update s.program t p t'
    rw [update_of_ne (hne hcomplete)]
    exact hcomplete
  · intro f g c hf hg
    exact h.unique f g c (hfile f c hf) (hfile g c hg)

end Give

theorem Lives.step (h : Lives s) (hheld : Held s) (hcovered : Covered s) (hphased : Phased cfg s)
    (hremove : removesEarly s a = false) (hfree : freesEarly cfg s a = false)
    (hwait : skipsWait s a = false) (hstep : step cfg s a = some s') : Lives s' := by
  cases StepTo.of_step hstep with
  | accept t _ hidle =>
      obtain ⟨-, hdeleted, hremoved⟩ := h.fresh _ le_rfl
      refine h.give hidle ⟨rfl, rfl, rfl⟩ (Nat.le_succ _) (fun c => ?_) (fun c => ?_)
        (fun c => .inl rfl) (fun f c hc => hc) ?_ ?_ (by simp [held_cons, carries])
        (by simp [held_cons, carries])
      · refine of_setConnection (d := s.driver)
          (P := fun x => x.threadpoolWork = (s.driver.connection c).threadpoolWork) rfl ?_
        rintro rfl hx
        exact hx
      · rcases eq_or_ne c s.driver.connections with rfl | hne
        · exact .inr ⟨le_rfl, Nat.lt_succ_self _⟩
        · exact .inl (congrArg _ (update_of_ne hne _ _))
      · intro j hj c hc
        obtain rfl := List.mem_singleton.mp hj
        obtain rfl := Option.some.inj hc
        exact ⟨Nat.lt_succ_self _, hdeleted⟩
      · intro j hj
        obtain rfl := List.mem_singleton.mp hj
        exact ⟨fun hmem => lt_irrefl _ (h.listed _ hmem).1.1, hremoved⟩
  | create t f role _ hidle _ _ =>
      refine h.give hidle ⟨rfl, rfl, rfl⟩ le_rfl (fun c => rfl) (fun c => .inl rfl)
        (fun c => .inl rfl) (fun g c hc => ?_) (by simp [refers]) (by simp [Driver.Known])
        (by simp [held_cons, carries]) (by simp [held_cons, carries])
      change (update s.driver.file f _ g).connection = some c at hc
      rcases eq_or_ne g f with rfl | hne
      · rw [update_self] at hc
        cases hc
      · rwa [update_of_ne hne] at hc
  | control t f code _ hidle _ =>
      refine h.give hidle ⟨rfl, rfl, rfl⟩ le_rfl (fun c => rfl) (fun c => .inl rfl)
        (fun c => .inl rfl) (fun g c hc => hc) (fun j hj c hc => ?_) ?_ ?_ ?_
      · rw [refers_control code j hj] at hc
        cases hc
      all_goals cases code <;> simp [Control.program, Driver.Known, held_cons, carries]
  | close t f _ hidle _ _ =>
      refine h.give hidle ⟨rfl, rfl, rfl⟩ le_rfl (fun c => rfl) (fun c => .inl rfl)
        (fun c => .inl rfl) (fun g c hc => ?_) (fun j hj c hc => ?_) ?_ ?_ ?_
      · change (update s.driver.file f _ g).connection = some c at hc
        rcases eq_or_ne g f with rfl | hne
        · rwa [update_self] at hc
        · rwa [update_of_ne hne] at hc
      · rw [refers_close _ j hj] at hc
        cases hc
      all_goals cases (s.driver.file f).role <;>
          simp [unlinkProgram, Driver.Known, held_cons, carries]
  | callback t c _ hidle hpending =>
      refine h.give hidle ⟨rfl, rfl, rfl⟩ le_rfl (fun c => rfl) (fun c => .inl rfl)
        (fun c' => ?_) (fun g c hc => hc) ?_ (by simp [Driver.Known])
        (by simp [held_cons, carries]) (by simp [held_cons, carries])
      · rcases eq_or_ne c' c with rfl | hne
        · exact .inr ⟨hpending, update_self _ _ _⟩
        · exact .inl (update_of_ne hne _ _)
      · intro j hj c' hc
        obtain rfl := List.mem_singleton.mp hj
        obtain rfl := Option.some.inj hc
        exact h.pending _ hpending
  | run t ok i p hprogram hblocks =>
      exact h.run hprogram hheld hcovered hphased hblocks hremove hfree hwait

/-! ## Runs -/

theorem Lives.live (h : Lives s) : s.Live where
  listed c hmem := (h.listed c hmem).1.2
  used t j hj c hc := (h.used t j hj c hc).2

/-- In every run in which each connection is inserted before it is removed, no inbound
connection is freed while it is established, and no outbound one without waiting for its
callback, no thread uses a deleted connection and `m_ConnectionHead` leads to none. -/
theorem connections_live {as : List Action}
    (hrun : RunsTo (NfpConnections.step cfg)
      (fun s a => removesEarly s a = false ∧ freesEarly cfg s a = false ∧ skipsWait s a = false)
      (State.start cfg) as s) :
    s.Live := by
  have h : Held s ∧ Covered s ∧ Phased cfg s ∧ Lives s := by
    refine hrun.invariant (fun s => Held s ∧ Covered s ∧ Phased cfg s ∧ Lives s)
      ⟨held_start, covered_start, phased_start, lives_start⟩ ?_
    rintro s a s' ⟨hheld, hcovered, hphased, hlives⟩ ⟨hremove, hfree, hwait⟩ hstep
    exact ⟨hheld.step hstep, hcovered.step hheld hstep, hphased.step hheld hstep,
      hlives.step hheld hcovered hphased hremove hfree hwait hstep⟩
  exact h.2.2.2.live

end Lifetime

/-! ## Connections that are deleted too soon -/

/-- A connection is accepted and lost, and another one is established and its handle
closed. -/
def acceptedAndClosed : List Action :=
  [.accept 0] ++ runs 0 14 ++ [.callback 1 0] ++ runs 1 3 ++ [.run 1 false] ++ runs 1 17 ++
    [.create 0 5 .undefined] ++ runs 0 4 ++ [.control 0 5 .beginProximity] ++ runs 0 19 ++
      [.callback 1 1] ++ runs 1 3 ++ [.run 1 false] ++ runs 1 13 ++ [.close 0 5] ++ runs 0 8

theorem connections_live_acceptedAndClosed :
    ∃ s, RunsTo (step threeThreads)
        (fun s a => removesEarly s a = false ∧ freesEarly threeThreads s a = false ∧
          skipsWait s a = false)
        (State.start threeThreads) acceptedAndClosed s ∧
      s.driver.deleted 0 = true ∧ s.driver.deleted 1 = true ∧ s.Live :=
  have hrun := RunsTo.of_isSome (by decide)
  ⟨_, hrun, by decide, by decide, connections_live hrun⟩

/-- The receive fails before the connection is inserted. -/
def insertedLate : List Action :=
  [.accept 0] ++ runs 0 3 ++ [.callback 1 0] ++ runs 1 3 ++ [.run 1 false] ++ runs 1 12 ++ runs 0 2

/-- The receive fails before the publications have been walked. -/
def freedInWalk : List Action :=
  [.accept 0] ++ runs 0 6 ++ [.callback 1 0] ++ runs 1 3 ++ [.run 1 false] ++ runs 1 12

/-- The handle is closed before the callback has set the number of its thread. -/
def closedAtOnce : List Action :=
  [.create 0 5 .undefined] ++ runs 0 4 ++ [.control 0 5 .beginProximity] ++ runs 0 19 ++
    [.close 2 5] ++ runs 2 7

/-- The list leads to a deleted connection, `ConnectionEstablished` uses one, and the
destructor does not wait. -/
theorem not_live :
    (∃ s, RunsTo (step threeThreads) Always (State.start threeThreads) insertedLate s ∧
      ¬ s.Live) ∧
    (∃ s, RunsTo (step threeThreads) Always (State.start threeThreads) freedInWalk s ∧
      ¬ s.Live) ∧
    ∃ s, RunsTo (step { threeThreads with found := fun _ => some 2 }) Always
        (State.start { threeThreads with found := fun _ => some 2 }) closedAtOnce s ∧ ¬ s.Live :=
  ⟨⟨_, RunsTo.of_isSome (by decide),
      fun hlive => absurd (hlive.listed 0 (by decide)) (by decide)⟩,
    ⟨_, RunsTo.of_isSome (by decide),
      fun hlive => absurd (hlive.used 0 (newMessage 0) (by decide) 0 rfl) (by decide)⟩,
    ⟨_, RunsTo.of_isSome (by decide),
      fun hlive => absurd (hlive.listed 0 (by decide)) (by decide)⟩⟩

end MiscProjects.NfpConnections
