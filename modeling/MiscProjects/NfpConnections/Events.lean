import MiscProjects.NfpConnections.Deadlock
import Mathlib.Data.List.Chain
import Mathlib.Data.List.Count
import Mathlib.Data.List.Nodup

/-!
# Arrival and departure events

`ConnectionEstablished` and `ConnectionTerminated` look at `m_ConnectionHead` under
the connection lock and raise the event after they have left it.  The events are those
of the list if no connection is terminated while the list is empty, and if the threads
enter `m_SubsLock` in the order in which they have changed the list.
-/

namespace MiscProjects.NfpConnections

open Function (update update_self update_of_ne)
open Threads Instr Runs

/-- `ConnectionTerminated` finds no connection in the list. -/
def findsEmpty (s : State) : Action → Bool
  | .run t _ =>
      match s.program t with
      | removeConnection _ :: _ => s.driver.connectionHead = []
      | _ => false
  | _ => false

/-- An event is raised before that of an earlier change. -/
def raisesEarly (s : State) : Action → Bool
  | .run t _ =>
      match s.program t with
      | addEvent arrival :: _ => s.driver.undelivered.head? ≠ some (t, arrival)
      | _ => false
  | _ => false

/-- Of the two subscriptions the one to the arrivals or to the departures. -/
def listener (a d : FilePtr) (arrival : Bool) : FilePtr :=
  if arrival then a else d

/-- When an event is raised, the subscription to it is in its list and enabled. -/
def attends (a d : FilePtr) (s : State) : Action → Bool
  | .run t _ =>
      match s.program t with
      | addEvent arrival :: _ => listener a d arrival ∈ s.driver.eventSubs arrival
      | handleEvent f arrival :: _ =>
          f ≠ listener a d arrival || (s.driver.file f).fEnabled
      | _ => true
  | _ => true

/-- What the two subscriptions are told. -/
def heard (a d : FilePtr) (l : List (FilePtr × Bool)) : List Bool :=
  (l.filter fun e => e.1 = listener a d e.2).map Prod.snd

/-- The events that the two subscriptions have seen. -/
def State.seenBy (a d : FilePtr) (s : State) : List Bool :=
  heard a d s.driver.seen

section Events
variable {cfg : Config} {s s' : State} {d d' : Driver} {t : ThreadId} {ok : Bool} {i : Instr}
  {p : List Instr} {c : ConnectionPtr} {f arr dep : FilePtr} {arrival : Bool} {x : Action}

theorem heard_append (l l' : List (FilePtr × Bool)) :
    heard arr dep (l ++ l') = heard arr dep l ++ heard arr dep l' := by
  simp [heard]

theorem heard_cons_of_ne {l : List (FilePtr × Bool)} (hne : f ≠ listener arr dep arrival) :
    heard arr dep ((f, arrival) :: l) = heard arr dep l := by
  simp [heard, hne]

theorem heard_map {l : List FilePtr} (hnodup : l.Nodup) (hmem : listener arr dep arrival ∈ l) :
    heard arr dep (l.map fun f => (f, arrival)) = [arrival] := by
  have hfilter : l.filter (· = listener arr dep arrival) = [listener arr dep arrival] := by
    rw [List.filter_eq, List.count_eq_one_of_mem hnodup hmem]
    rfl
  have hcomp : (fun e : FilePtr × Bool => decide (e.1 = listener arr dep e.2)) ∘
      (fun f => (f, arrival)) = fun f => decide (f = listener arr dep arrival) := rfl
  rw [heard, List.filter_map, hcomp, hfilter]
  rfl

/-! ## The changes of the list and the events raised for them -/

theorem effect_ledger (hinsert : ∀ c, i ≠ insertConnection c)
    (hremove : ∀ c, i ≠ removeConnection c) (hadd : ∀ b, i ≠ addEvent b) :
    (d.effect t ok i).changes = d.changes ∧ (d.effect t ok i).undelivered = d.undelivered ∧
      (d.effect t ok i).events = d.events ∧
      (d.effect t ok i).connectionHead = d.connectionHead := by
  cases i with
  | insertConnection c => exact absurd rfl (hinsert c)
  | removeConnection c => exact absurd rfl (hremove c)
  | addEvent b => exact absurd rfl (hadd b)
  | finalizeEstablish c client | createConnection f | setEnabled f b | register f | unlink f =>
      simp only [Driver.effect]
      split <;> exact ⟨rfl, rfl, rfl, rfl⟩
  | _ => exact ⟨rfl, rfl, rfl, rfl⟩

theorem exists_raises_next {k : Bool} (h : i.raises = some k) (hadd : ∀ b, i ≠ addEvent b) :
    ∃ j ∈ d.next t ok i, j.raises = some k := by
  cases i with
  | addEvent b => exact absurd rfl (hadd b)
  | testInbound c noMore =>
      cases noMore with
      | false => cases h
      | true =>
          simp only [Driver.next]
          split
          · exact ⟨testNoMore c true true, by simp, h⟩
          · exact ⟨testNoMore c true false, by simp, h⟩
  | testNoMore c noMore deleted =>
      cases noMore with
      | false => cases h
      | true => exact ⟨addEvent false, by simp [Driver.next, raise], h⟩
  | _ => cases h

/-- The changes of the list alternate; each has been raised as an event or will be, by the
thread that has made it. -/
structure Raised (s : State) : Prop where
  account : s.driver.events ++ s.driver.undelivered.map Prod.snd = s.driver.changes
  due : ∀ e ∈ s.driver.undelivered, ∃ j ∈ s.program e.1, j.raises = some e.2
  once : (s.driver.undelivered.map Prod.fst).Nodup
  alternates : s.driver.changes.IsChain (· ≠ ·)
  starts : s.driver.changes.head? ≠ some false
  nonempty : s.driver.changes.getLast? = some true ↔ s.driver.connectionHead ≠ []

theorem raised_start : Raised (State.start cfg) where
  account := rfl
  due := by simp [State.start, Driver.start]
  once := List.nodup_nil
  alternates := List.isChain_nil
  starts := by simp [State.start, Driver.start]
  nonempty := by simp [State.start, Driver.start]

theorem Raised.not_due (h : Raised s) (hprogram : s.program t = i :: p) (hi : i.raises = none)
    (hsilent : Silent p) : t ∉ s.driver.undelivered.map Prod.fst := by
  intro hmem
  obtain ⟨e, he, rfl⟩ := List.mem_map.mp hmem
  obtain ⟨j, hj, hraises⟩ := h.due e he
  rw [hprogram] at hj
  rcases List.mem_cons.mp hj with rfl | hj
  · rw [hi] at hraises
    cases hraises
  · rw [(hsilent j hj).1] at hraises
    cases hraises

variable {l : List Bool} {b : Bool} {e : ThreadId × Bool}

theorem ne_of_not_mem_map {l : List (ThreadId × Bool)}
    (ht : t ∉ l.map Prod.fst) (he : e ∈ l) : e.1 ≠ t := by
  rintro rfl
  exact ht (List.mem_map_of_mem he)

theorem Raised.due_of_ne (h : Raised s) (he : e ∈ s.driver.undelivered) (hne : e.1 ≠ t)
    (q : List Instr) : ∃ j ∈ update s.program t q e.1, j.raises = some e.2 := by
  rw [update_of_ne hne]
  exact h.due e he

theorem alternates_snoc (h : l.IsChain (· ≠ ·))
    (hlast : l.getLast? ≠ some b) : (l ++ [b]).IsChain (· ≠ ·) := by
  refine List.isChain_append.mpr ⟨h, List.isChain_singleton b, ?_⟩
  intro x hx y hy hxy
  obtain rfl : b = y := by simpa using hy
  rw [hxy] at hx
  exact hlast hx

theorem head?_snoc (h : l.head? ≠ some false)
    (hb : l = [] → b = true) : (l ++ [b]).head? ≠ some false := by
  cases l with
  | nil => simp [hb rfl]
  | cons y l => simpa using h

theorem Raised.insert (h : Raised s) (hprogram : s.program t = insertConnection c :: p)
    (hsilent : Silent p) : Raised (s.give t (s.driver.effect t ok (insertConnection c))
      (s.driver.next t ok (insertConnection c) ++ p)) := by
  have hdue := h.not_due hprogram rfl hsilent
  by_cases hempty : s.driver.connectionHead = []
  · have hlast : s.driver.changes.getLast? ≠ some true := fun hl => h.nonempty.mp hl hempty
    constructor
    · simp only [State.give, Driver.effect, if_pos hempty, List.map_append, List.map_cons,
        List.map_nil]
      rw [← List.append_assoc, h.account]
    · intro e he
      simp only [State.give, Driver.effect, if_pos hempty, List.mem_append,
        List.mem_singleton] at he
      rcases he with he | rfl
      · exact h.due_of_ne he (ne_of_not_mem_map hdue he) _
      · refine ⟨addEvent true, ?_, rfl⟩
        simp [State.give, Driver.next, hempty, raise]
    · simp only [State.give, Driver.effect, if_pos hempty, List.map_append, List.map_cons,
        List.map_nil]
      exact List.nodup_append.mpr ⟨h.once, List.nodup_singleton t, by
        rintro u hu v hv rfl
        obtain rfl := List.mem_singleton.mp hv
        exact hdue hu⟩
    · simp only [State.give, Driver.effect, if_pos hempty]
      exact alternates_snoc h.alternates hlast
    · simp only [State.give, Driver.effect, if_pos hempty]
      exact head?_snoc h.starts fun _ => rfl
    · simp [State.give, Driver.effect, hempty]
  · constructor
    · simpa only [State.give, Driver.effect, if_neg hempty] using h.account
    · intro e he
      simp only [State.give, Driver.effect, if_neg hempty] at he
      exact h.due_of_ne he (ne_of_not_mem_map hdue he) _
    · simpa only [State.give, Driver.effect, if_neg hempty] using h.once
    · simpa only [State.give, Driver.effect, if_neg hempty] using h.alternates
    · simpa only [State.give, Driver.effect, if_neg hempty] using h.starts
    · simpa [State.give, Driver.effect, hempty] using h.nonempty.mpr hempty

theorem Raised.remove (h : Raised s) (hprogram : s.program t = [removeConnection c])
    (hfound : s.driver.connectionHead ≠ []) :
    Raised (s.give t (s.driver.effect t ok (removeConnection c))
      (s.driver.next t ok (removeConnection c))) := by
  have hdue := h.not_due hprogram rfl silent_nil
  have hlast := h.nonempty.mpr hfound
  by_cases hempty : s.driver.connectionHead.erase c = []
  · have hboth : s.driver.connectionHead ≠ [] ∧ s.driver.connectionHead.erase c = [] :=
      ⟨hfound, hempty⟩
    constructor
    · simp only [State.give, Driver.effect, if_pos hempty, if_pos hboth, List.map_append,
        List.map_cons, List.map_nil]
      rw [← List.append_assoc, h.account]
    · intro e he
      simp only [State.give, Driver.effect, if_pos hempty, List.mem_append,
        List.mem_singleton] at he
      rcases he with he | rfl
      · exact h.due_of_ne he (ne_of_not_mem_map hdue he) _
      · refine ⟨testInbound c true, ?_, rfl⟩
        simp [State.give, Driver.next, hempty]
    · simp only [State.give, Driver.effect, if_pos hempty, List.map_append, List.map_cons,
        List.map_nil]
      exact List.nodup_append.mpr ⟨h.once, List.nodup_singleton t, by
        rintro u hu v hv rfl
        obtain rfl := List.mem_singleton.mp hv
        exact hdue hu⟩
    · simp only [State.give, Driver.effect, if_pos hboth]
      refine alternates_snoc h.alternates ?_
      simp [hlast]
    · simp only [State.give, Driver.effect, if_pos hboth]
      refine head?_snoc h.starts fun hnil => ?_
      simp [hnil] at hlast
    · simp [State.give, Driver.effect, hempty, hfound]
  · have hboth : ¬ (s.driver.connectionHead ≠ [] ∧ s.driver.connectionHead.erase c = []) :=
      fun hboth => hempty hboth.2
    constructor
    · simpa only [State.give, Driver.effect, if_neg hempty, if_neg hboth] using h.account
    · intro e he
      simp only [State.give, Driver.effect, if_neg hempty] at he
      exact h.due_of_ne he (ne_of_not_mem_map hdue he) _
    · simpa only [State.give, Driver.effect, if_neg hempty] using h.once
    · simpa only [State.give, Driver.effect, if_neg hboth] using h.alternates
    · simpa only [State.give, Driver.effect, if_neg hboth] using h.starts
    · simp only [State.give, Driver.effect, if_neg hboth, hlast, true_iff]
      exact hempty

theorem Raised.add (h : Raised s) (hfirst : s.driver.undelivered.head? = some (t, arrival)) :
    Raised (s.give t (s.driver.effect t ok (addEvent arrival))
      (s.driver.next t ok (addEvent arrival) ++ p)) := by
  obtain ⟨rest, hrest⟩ := List.head?_eq_some_iff.mp hfirst
  have honce := h.once
  have haccount := h.account
  rw [hrest] at honce haccount
  have hother := (List.nodup_cons.mp honce).1
  have herase : s.driver.undelivered.erase (t, arrival) = rest := by
    rw [hrest, List.erase_cons_head]
  constructor
  · simp only [State.give, Driver.effect, herase]
    simpa using haccount
  · intro e he
    simp only [State.give, Driver.effect, herase] at he
    have hmem : e ∈ s.driver.undelivered := by
      rw [hrest]
      exact List.mem_cons_of_mem _ he
    exact h.due_of_ne hmem (ne_of_not_mem_map hother he) _
  · simp only [State.give, Driver.effect, herase]
    exact (List.nodup_cons.mp honce).2
  · exact h.alternates
  · exact h.starts
  · exact h.nonempty

theorem Raised.run (h : Raised s) (hheld : Held s) (hprogram : s.program t = i :: p)
    (hfound : findsEmpty s (.run t ok) = false) (hfirst : raisesEarly s (.run t ok) = false) :
    Raised (s.give t (s.driver.effect t ok i) (s.driver.next t ok i ++ p)) := by
  obtain ⟨hfits, -⟩ := hheld.fits hprogram
  by_cases hinsert : ∃ c, i = insertConnection c
  · obtain ⟨c, rfl⟩ := hinsert
    exact h.insert hprogram hfits.2.1
  by_cases hremove : ∃ c, i = removeConnection c
  · obtain ⟨c, rfl⟩ := hremove
    obtain rfl : p = [] := hfits
    rw [List.append_nil]
    refine h.remove hprogram ?_
    simpa [findsEmpty, hprogram] using hfound
  by_cases hadd : ∃ b, i = addEvent b
  · obtain ⟨b, rfl⟩ := hadd
    refine h.add ?_
    simpa [raisesEarly, hprogram] using hfirst
  · obtain ⟨hchanges, hundelivered, hevents, hhead⟩ :
        (s.driver.effect t ok i).changes = s.driver.changes ∧
          (s.driver.effect t ok i).undelivered = s.driver.undelivered ∧
          (s.driver.effect t ok i).events = s.driver.events ∧
          (s.driver.effect t ok i).connectionHead = s.driver.connectionHead :=
      effect_ledger (fun c hc => hinsert ⟨c, hc⟩) (fun c hc => hremove ⟨c, hc⟩)
        fun b hb => hadd ⟨b, hb⟩
    constructor
    · simpa only [State.give, hchanges, hundelivered, hevents] using h.account
    · intro e he
      simp only [State.give, hundelivered] at he
      obtain ⟨j, hj, hraises⟩ := h.due e he
      change ∃ j ∈ update s.program t _ e.1, _
      rcases eq_or_ne e.1 t with heq | hne
      · rw [heq, update_self]
        rw [heq, hprogram] at hj
        rcases List.mem_cons.mp hj with rfl | hj
        · obtain ⟨j', hj', hraises'⟩ : ∃ j ∈ s.driver.next t ok _, j.raises = some _ :=
            exists_raises_next hraises fun b hb => hadd ⟨b, hb⟩
          exact ⟨j', List.mem_append_left _ hj', hraises'⟩
        · exact ⟨j, List.mem_append_right _ hj, hraises⟩
      · rw [update_of_ne hne]
        exact ⟨j, hj, hraises⟩
    · simpa only [State.give, hundelivered] using h.once
    · simpa only [State.give, hchanges] using h.alternates
    · simpa only [State.give, hchanges] using h.starts
    · simpa only [State.give, hchanges, hhead] using h.nonempty

theorem Raised.give (h : Raised s) (hidle : s.program t = [])
    (hchanges : d.changes = s.driver.changes) (hundelivered : d.undelivered = s.driver.undelivered)
    (hevents : d.events = s.driver.events)
    (hhead : d.connectionHead = s.driver.connectionHead) : Raised (s.give t d p) := by
  constructor
  · simpa only [State.give, hchanges, hundelivered, hevents] using h.account
  · intro e he
    simp only [State.give, hundelivered] at he
    refine h.due_of_ne he ?_ _
    rintro rfl
    obtain ⟨j, hj, -⟩ := h.due e he
    rw [hidle] at hj
    cases hj
  · simpa only [State.give, hundelivered] using h.once
  · simpa only [State.give, hchanges] using h.alternates
  · simpa only [State.give, hchanges] using h.starts
  · simpa only [State.give, hchanges, hhead] using h.nonempty

/-! ## The lists of the subscriptions -/

theorem mem_eventSubs_effect (h : f ∈ (d.effect t ok i).eventSubs arrival) :
    f ∈ d.eventSubs arrival ∨ i = register f := by
  cases i with
  | register g =>
      simp only [Driver.effect] at h
      split at h <;> cases arrival <;> simp_all [Driver.eventSubs]
      all_goals tauto
  | unlink g =>
      simp only [Driver.effect] at h
      split at h <;> cases arrival <;> simp_all [Driver.eventSubs]
      all_goals exact List.mem_of_mem_erase h
  | finalizeEstablish c client | createConnection g | setEnabled g b =>
      simp only [Driver.effect] at h
      split at h <;> exact .inl h
  | _ => exact .inl h

theorem nodup_eventSubs_effect (h : (d.eventSubs arrival).Nodup)
    (hregister : ∀ g, i = register g → g ∉ d.eventSubs arrival) :
    ((d.effect t ok i).eventSubs arrival).Nodup := by
  cases i with
  | register g =>
      have hg := hregister g rfl
      simp only [Driver.effect]
      split <;> cases arrival <;> simp_all [Driver.eventSubs]
  | unlink g =>
      simp only [Driver.effect]
      split <;> cases arrival <;> first | exact h | exact h.erase _
  | finalizeEstablish c client | createConnection g | setEnabled g b =>
      simp only [Driver.effect]
      split <;> exact h
  | _ => exact h

theorem of_setFile {P : FileContext → Prop} {x : FileContext} {g : FilePtr}
    (h : P (d.file f)) (hx : f = g → P (d.file f) → P x) : P ((d.setFile g x).file f) := by
  change P (update d.file g x f)
  rcases eq_or_ne f g with rfl | hne
  · rw [update_self]
    exact hx rfl h
  · rwa [update_of_ne hne]

theorem effect_phase (h : (d.file f).phase ≠ .absent) :
    ((d.effect t ok i).file f).phase ≠ .absent := by
  cases i with
  | abandon c g | storePayload g | testRole g | deleteContext g =>
      refine of_setFile (P := fun x => x.phase ≠ .absent) h ?_
      rintro rfl hx
      exact hx
  | opened g =>
      refine of_setFile (P := fun x => x.phase ≠ .absent) h ?_
      rintro rfl -
      simp
  | createConnection g | setEnabled g b =>
      simp only [Driver.effect]
      split
      all_goals first | exact h | refine of_setFile (P := fun x => x.phase ≠ .absent) h ?_
      rintro rfl hx
      exact hx
  | finalizeEstablish c client | register g | unlink g =>
      simp only [Driver.effect]
      split <;> exact h
  | _ => exact h

theorem not_mem_next : register f ∉ d.next t ok i ∧
    ((∀ b, i ≠ addEvent b) → ∀ b, handleEvent f b ∉ d.next t ok i) := by
  constructor
  · intro hmem
    cases leads_of_mem_next _ hmem
  · intro hadd b hmem
    cases leads_of_mem_next _ hmem with
    | raises => exact hadd b rfl

theorem opening_not_mem_keeps : .opening f ∉ d.keeps ok i := by
  cases i with
  | validateAccept c | newMessage c | finalizeEstablish c client | testInbound c noMore
  | createConnection g =>
      simp only [Driver.keeps]
      split <;> simp
  | deleteContext g => simp [Driver.keeps]
  | _ => simp [Driver.keeps]

theorem opening_mem_next (h : .opening f ∈ held (d.next t ok i ++ p)) :
    .opening f ∈ held (i :: p) := by
  rw [held_next, List.mem_append] at h
  exact mem_held_cons (acquires_ne (by simp) i) (h.resolve_left opening_not_mem_keeps)

theorem Fits.register_opening (hp : EachFits Fits p) (hmem : register f ∈ p) :
    .opening f ∈ held p := by
  obtain ⟨q, hq, hfits⟩ := hp.of_mem hmem
  exact mem_held_of_suffix (acquires_ne (by simp)) hq (mem_held_cons (acquires_ne (by simp) _)
    hfits.2.1)

/-- A subscription is once in its list, from the time when its handle is opened. -/
structure Registered (s : State) : Prop where
  opening : Exclusive Token.opening s.program
  opened : ∀ f t, .opening f ∈ held (s.program t) → (s.driver.file f).phase ≠ .absent
  listed : ∀ k, ∀ f ∈ s.driver.eventSubs k,
    (s.driver.file f).phase ≠ .absent ∧ ∀ t, register f ∉ s.program t
  nodup : ∀ k, (s.driver.eventSubs k).Nodup

theorem registered_start : Registered (State.start cfg) where
  opening _ _ _ hmem := by simp [State.start] at hmem
  opened _ _ hmem := by simp [State.start] at hmem
  listed k f hmem := by cases k <;> simp [State.start, Driver.start, Driver.eventSubs] at hmem
  nodup k := by cases k <;> exact List.nodup_nil

theorem Registered.run (h : Registered s) (hheld : Held s) (hprogram : s.program t = i :: p) :
    Registered (s.give t (s.driver.effect t ok i) (s.driver.next t ok i ++ p)) := by
  have hregister : ∀ f t', register f ∈ update s.program t (s.driver.next t ok i ++ p) t' →
      register f ∈ s.program t' ∧ (t' = t → register f ∈ p) := by
    intro f t' hmem
    rcases eq_or_ne t' t with rfl | hne
    · rw [update_self] at hmem
      have hrest := (List.mem_append.mp hmem).resolve_left not_mem_next.1
      rw [hprogram]
      exact ⟨List.mem_cons_of_mem _ hrest, fun _ => hrest⟩
    · rw [update_of_ne hne] at hmem
      exact ⟨hmem, fun heq => absurd heq hne⟩
  constructor
  · refine h.opening.update fun f hmem => .inl ?_
    rw [hprogram]
    exact opening_mem_next hmem
  · intro f t' hmem
    change .opening f ∈ held (update s.program t _ t') at hmem
    refine effect_phase (h.opened f t' ?_)
    rcases eq_or_ne t' t with rfl | hne
    · rw [update_self] at hmem
      rw [hprogram]
      exact opening_mem_next hmem
    · rwa [update_of_ne hne] at hmem
  · intro k f hmem
    rcases mem_eventSubs_effect hmem with hold | rfl
    · obtain ⟨hphase, hnone⟩ := h.listed k f hold
      exact ⟨effect_phase hphase, fun t' hmem => hnone t' (hregister f t' hmem).1⟩
    · -- the thread has taken its only `register` and holds the opening of the handle
      have hopening := Fits.register_opening (hheld.shape t) (mem_program hprogram)
      refine ⟨effect_phase (h.opened f t hopening), fun t' hmem' => ?_⟩
      obtain ⟨hold, hrest⟩ := hregister f t' hmem'
      obtain rfl : t' = t := h.opening f t' t (Fits.register_opening (hheld.shape t') hold) hopening
      exact (hheld.fits hprogram).1.2.2 (hrest rfl)
  · intro k
    refine nodup_eventSubs_effect (h.nodup k) ?_
    rintro g rfl hmem
    exact (h.listed k g hmem).2 t (mem_program hprogram)

/-- A thread that has nothing to do is given something, which may be to open a handle that
was absent. -/
theorem Registered.give (h : Registered s) (hsubs : ∀ k, d.eventSubs k = s.driver.eventSubs k)
    (hphase : ∀ f, (s.driver.file f).phase ≠ .absent → (d.file f).phase ≠ .absent)
    (hopening : ∀ f, .opening f ∈ held p → (s.driver.file f).phase = .absent ∧
      (d.file f).phase ≠ .absent)
    (hregister : ∀ f, register f ∈ p → (s.driver.file f).phase = .absent) :
    Registered (s.give t d p) := by
  constructor
  · exact h.opening.update fun f hmem => .inr fun t' hold => h.opened f t' hold (hopening f hmem).1
  · intro f t' hmem
    change .opening f ∈ held (update s.program t p t') at hmem
    rcases eq_or_ne t' t with rfl | hne
    · rw [update_self] at hmem
      exact (hopening f hmem).2
    · rw [update_of_ne hne] at hmem
      exact hphase f (h.opened f t' hmem)
  · intro k f hmem
    change f ∈ d.eventSubs k at hmem
    rw [hsubs] at hmem
    obtain ⟨hold, hnone⟩ := h.listed k f hmem
    refine ⟨hphase f hold, fun t' hmem' => ?_⟩
    change register f ∈ update s.program t p t' at hmem'
    rcases eq_or_ne t' t with rfl | hne
    · rw [update_self] at hmem'
      exact hold (hregister f hmem')
    · rw [update_of_ne hne] at hmem'
      exact hnone t' hmem'
  · intro k
    change (d.eventSubs k).Nodup
    rw [hsubs]
    exact h.nodup k

/-! ## What the subscriptions have seen -/

/-- The tellings that a thread still has to do. -/
def tellings (p : List Instr) : List (FilePtr × Bool) :=
  p.filterMap tells

theorem tellings_of_silent (h : Silent p) : tellings p = [] := by
  refine List.filterMap_eq_nil_iff.mpr fun j hj => ?_
  exact (h j hj).2

theorem tellings_cons_of_none (hi : i.tells = none) : tellings (i :: p) = tellings p :=
  List.filterMap_cons_none hi

theorem tellings_append (q : List Instr) : tellings (q ++ p) = tellings q ++ tellings p :=
  List.filterMap_append

theorem tellings_next (hadd : ∀ b, i ≠ addEvent b) : tellings (d.next t ok i) = [] := by
  refine List.filterMap_eq_nil_iff.mpr fun j hj => ?_
  cases j with
  | handleEvent f b => exact absurd hj (not_mem_next.2 hadd b)
  | _ => rfl

theorem tellings_addEvent : tellings (d.next t ok (addEvent arrival)) =
      (d.eventSubs arrival).map fun f => (f, arrival) := by
  change ((d.eventSubs arrival).flatMap (visitEventSub arrival)).filterMap tells = _
  induction d.eventSubs arrival with
  | nil => rfl
  | cons f l ih =>
      rw [List.flatMap_cons, List.filterMap_append, ih]
      rfl

theorem effect_seen (hhandle : ∀ f b, i ≠ handleEvent f b) : (d.effect t ok i).seen = d.seen := by
  cases i with
  | handleEvent f b => exact absurd rfl (hhandle f b)
  | finalizeEstablish c client | createConnection g | setEnabled g b | register g | unlink g =>
      simp only [Driver.effect]
      split <;> rfl
  | _ => rfl

theorem effect_events (hadd : ∀ b, i ≠ addEvent b) : (d.effect t ok i).events = d.events := by
  cases i with
  | addEvent b => exact absurd rfl (hadd b)
  | finalizeEstablish c client | createConnection g | setEnabled g b | register g | unlink g =>
      simp only [Driver.effect]
      split <;> rfl
  | _ => rfl

/-- What the owner of `m_SubsLock` still has to do. -/
def State.subsProgram (s : State) : List Instr :=
  match s.driver.owner .subs with
  | some t => s.program t
  | none => []

/-- The two subscriptions have been told every event, but for those that the owner of
`m_SubsLock` still has to tell them. -/
structure Told (a d : FilePtr) (s : State) : Prop where
  inside : ∀ t, tellings (s.program t) ≠ [] → s.driver.owner .subs = some t
  told : s.seenBy a d ++ heard a d (tellings s.subsProgram) = s.driver.events

theorem told_start : Told arr dep (State.start cfg) where
  inside _ h := absurd rfl h
  told := rfl

theorem State.subsProgram_give (hd : d.owner .subs = some t) : (s.give t d p).subsProgram = p := by
  simp only [subsProgram, give, hd, update_self]

theorem State.subsProgram_of_owner (howner : s.driver.owner .subs = some t) :
    s.subsProgram = s.program t := by
  simp only [subsProgram, howner]

theorem Told.same (h : Told arr dep s) (howner : s'.driver.owner .subs = s.driver.owner .subs)
    (hprogram : ∀ t, tellings (s'.program t) = tellings (s.program t))
    (hseen : s'.driver.seen = s.driver.seen) (hevents : s'.driver.events = s.driver.events) :
    Told arr dep s' := by
  have hsubs : tellings s'.subsProgram = tellings s.subsProgram := by
    unfold State.subsProgram
    rw [howner]
    cases s.driver.owner .subs with
    | none => rfl
    | some t => exact hprogram t
  constructor
  · intro t htell
    rw [hprogram] at htell
    exact howner.trans (h.inside t htell)
  · rw [State.seenBy, hseen, hsubs, hevents]
    exact h.told

theorem Told.keep (h : Told arr dep s) (hprogram : s.program t = i :: p)
    (howner : s.driver.owner .subs = some t) (hkeep : (s.driver.effect t ok i).owner .subs = some t)
    (hevent : heard arr dep (s.driver.effect t ok i).seen ++
        heard arr dep (tellings (s.driver.next t ok i ++ p)) = (s.driver.effect t ok i).events) :
    Told arr dep (s.give t (s.driver.effect t ok i) (s.driver.next t ok i ++ p)) := by
  constructor
  · intro t' htell
    change tellings (update s.program t _ t') ≠ [] at htell
    rcases eq_or_ne t' t with rfl | hne
    · exact hkeep
    · rw [update_of_ne hne] at htell
      exact absurd (Option.some.inj (howner.symm.trans (h.inside t' htell))).symm hne
  · rw [State.subsProgram_give hkeep]
    exact hevent

theorem Told.leave (h : Told arr dep s) (hprogram : s.program t = .leave .subs :: p)
    (howner : s.driver.owner .subs = some t) (hsilent : Silent p) :
    Told arr dep (s.give t (s.driver.effect t ok (.leave .subs)) p) := by
  have hnil := tellings_of_silent hsilent
  have htold := h.told
  rw [State.subsProgram_of_owner howner, hprogram, tellings_cons_of_none rfl, hnil] at htold
  constructor
  · intro t' htell
    change tellings (update s.program t p t') ≠ [] at htell
    rcases eq_or_ne t' t with rfl | hne
    · rw [update_self] at htell
      exact absurd hnil htell
    · rw [update_of_ne hne] at htell
      exact absurd (Option.some.inj (howner.symm.trans (h.inside t' htell))).symm hne
  · have hout : (s.give t (s.driver.effect t ok (.leave .subs)) p).subsProgram = [] := by
      simp [State.subsProgram, State.give, Driver.effect]
    rw [hout]
    exact htold

theorem Told.enter (h : Told arr dep s) (hprogram : s.program t = .enter .subs :: p)
    (hfree : s.driver.owner .subs = none) :
    Told arr dep (s.give t (s.driver.effect t ok (.enter .subs)) p) := by
  have hnil : ∀ t', tellings (s.program t') = [] := by
    intro t'
    by_contra htell
    rw [h.inside t' htell] at hfree
    cases hfree
  have hp : tellings p = [] := by
    have ht := hnil t
    rwa [hprogram] at ht
  have htold := h.told
  have hsubs : s.subsProgram = [] := by simp only [State.subsProgram, hfree]
  rw [hsubs] at htold
  have hkeep : (s.driver.effect t ok (.enter .subs)).owner .subs = some t := by
    simp [Driver.effect]
  constructor
  · intro t' htell
    change tellings (update s.program t p t') ≠ [] at htell
    rcases eq_or_ne t' t with rfl | hne
    · exact hkeep
    · rw [update_of_ne hne] at htell
      exact absurd (hnil t') htell
  · rw [State.subsProgram_give hkeep, hp]
    exact htold

theorem heard_effect_handleEvent (hattends : f ≠ listener arr dep arrival ∨ (d.file f).fEnabled) :
    heard arr dep (d.effect t ok (handleEvent f arrival)).seen =
      heard arr dep d.seen ++ heard arr dep [(f, arrival)] := by
  simp only [Driver.effect]
  split
  case isTrue => exact heard_append _ _
  case isFalse hdisabled =>
    rw [heard_cons_of_ne (hattends.resolve_right hdisabled)]
    exact (List.append_nil _).symm

theorem Told.run (h : Told arr dep s) (hheld : Held s) (hregistered : Registered s)
    (hprogram : s.program t = i :: p) (hblocks : s.driver.blocks i = false)
    (hattends : attends arr dep s (.run t ok) = true) :
    Told arr dep (s.give t (s.driver.effect t ok i) (s.driver.next t ok i ++ p)) := by
  obtain ⟨hfits, -⟩ := hheld.fits hprogram
  have htold := h.told
  by_cases hadd : ∃ b, i = addEvent b
  · obtain ⟨b, rfl⟩ := hadd
    have howner : s.driver.owner .subs = some t := by
      rw [hheld.locks, hprogram]
      exact hfits.1
    refine h.keep hprogram howner howner ?_
    rw [State.subsProgram_of_owner howner, hprogram, tellings_cons_of_none rfl,
      tellings_of_silent hfits.2.2] at htold
    rw [tellings_append, tellings_addEvent, tellings_of_silent hfits.2.2, List.append_nil,
      heard_map (hregistered.nodup b)]
    · exact congrArg (· ++ [b]) ((List.append_nil _).symm.trans htold)
    · simpa [attends, hprogram] using hattends
  by_cases hhandle : ∃ f b, i = handleEvent f b
  · obtain ⟨f, b, rfl⟩ := hhandle
    have howner : s.driver.owner .subs = some t := by
      rw [hheld.locks, hprogram]
      exact hfits
    refine h.keep hprogram howner howner ?_
    rw [State.subsProgram_of_owner howner, hprogram] at htold
    rw [heard_effect_handleEvent, List.append_assoc, ← heard_append]
    · exact htold
    · simpa [attends, hprogram] using hattends
  by_cases henter : i = .enter .subs
  · subst henter
    exact h.enter hprogram (by simpa [Driver.blocks] using hblocks)
  by_cases hleave : i = .leave .subs
  · subst hleave
    refine h.leave hprogram ?_ (hfits.2 rfl)
    rw [hheld.locks, hprogram]
    exact List.mem_cons_self
  have hsubs : (s.driver.effect t ok i).owner .subs = s.driver.owner .subs :=
    effect_owner_of_ne henter hleave
  have htellings : tellings (s.driver.next t ok i ++ p) = tellings (s.program t) := by
    rw [tellings_append, tellings_next fun b hb => hadd ⟨b, hb⟩, hprogram, tellings_cons_of_none]
    · rfl
    · cases i with
      | handleEvent f b => exact absurd ⟨f, b, rfl⟩ hhandle
      | _ => rfl
  refine h.same hsubs (fun t' => ?_) (effect_seen fun f b hb => hhandle ⟨f, b, hb⟩)
    (effect_events fun b hb => hadd ⟨b, hb⟩)
  change tellings (update s.program t _ t') = _
  rcases eq_or_ne t' t with rfl | hne
  · rw [update_self, htellings]
  · rw [update_of_ne hne]

theorem Told.give (h : Told arr dep s) (hidle : s.program t = [])
    (howner : d.owner = s.driver.owner) (hseen : d.seen = s.driver.seen)
    (hevents : d.events = s.driver.events) (hp : tellings p = []) :
    Told arr dep (s.give t d p) := by
  refine h.same (congrFun howner .subs) (fun t' => ?_) hseen hevents
  change tellings (update s.program t p t') = _
  rcases eq_or_ne t' t with rfl | hne
  · rw [update_self, hp, hidle]
    rfl
  · rw [update_of_ne hne]

/-! ## Runs -/

/-- What holds of the events in every run that meets the conditions. -/
structure Corresponds (a d : FilePtr) (s : State) : Prop where
  held : Held s
  raised : Raised s
  registered : Registered s
  told : Told a d s

theorem corresponds_start : Corresponds arr dep (State.start cfg) where
  held := held_start
  raised := raised_start
  registered := registered_start
  told := told_start

theorem Corresponds.give (h : Corresponds arr dep s) (hheld : Held (s.give t d p))
    (hidle : s.program t = [])
    (hrecord : d.changes = s.driver.changes ∧ d.undelivered = s.driver.undelivered ∧
      d.events = s.driver.events ∧ d.connectionHead = s.driver.connectionHead ∧
      d.owner = s.driver.owner ∧ d.seen = s.driver.seen ∧
      d.arrivalSubsHead = s.driver.arrivalSubsHead ∧
      d.departureSubsHead = s.driver.departureSubsHead)
    (hphase : ∀ f, (s.driver.file f).phase ≠ .absent → (d.file f).phase ≠ .absent)
    (hopening : ∀ f, .opening f ∈ Threads.held p → (s.driver.file f).phase = .absent ∧
      (d.file f).phase ≠ .absent)
    (hregister : ∀ f, register f ∈ p → (s.driver.file f).phase = .absent)
    (hp : tellings p = []) : Corresponds arr dep (s.give t d p) := by
  obtain ⟨hchanges, hundelivered, hevents, hhead, howner, hseen, harrival, hdeparture⟩ := hrecord
  refine ⟨hheld, h.raised.give hidle hchanges hundelivered hevents hhead,
    h.registered.give (fun k => ?_) hphase hopening hregister,
    h.told.give hidle howner hseen hevents hp⟩
  simp only [Driver.eventSubs, harrival, hdeparture]

theorem Corresponds.step (h : Corresponds arr dep s) (hfound : findsEmpty s x = false)
    (hfirst : raisesEarly s x = false) (hattends : attends arr dep s x = true)
    (hstep : step cfg s x = some s') : Corresponds arr dep s' := by
  have hheld := h.held.step hstep
  cases StepTo.of_step hstep with
  | accept t _ hidle =>
      exact h.give hheld hidle ⟨rfl, rfl, rfl, rfl, rfl, rfl, rfl, rfl⟩ (fun f hf => hf)
        (by simp [held_cons, carries]) (by simp) rfl
  | create t f role _ hidle habsent _ =>
      refine h.give hheld hidle ⟨rfl, rfl, rfl, rfl, rfl, rfl, rfl, rfl⟩ (fun g hg => ?_) ?_ ?_ rfl
      · refine of_setFile (P := fun x => x.phase ≠ .absent) hg ?_
        rintro rfl -
        simp
      · intro g hg
        obtain rfl : g = f := by simpa [held_cons, carries] using hg
        exact ⟨habsent, by simp [Driver.setFile]⟩
      · intro g hg
        obtain rfl : g = f := by simpa using hg
        exact habsent
  | control t f code _ hidle _ =>
      refine h.give hheld hidle ⟨rfl, rfl, rfl, rfl, rfl, rfl, rfl, rfl⟩ (fun g hg => hg) ?_ ?_ ?_
      all_goals cases code
      all_goals first | rfl | simp [Control.program, held_cons, carries]
  | close t f _ hidle husable _ =>
      refine h.give hheld hidle ⟨rfl, rfl, rfl, rfl, rfl, rfl, rfl, rfl⟩ (fun g hg => ?_) ?_ ?_ ?_
      · refine of_setFile (P := fun x => x.phase ≠ .absent) hg ?_
        rintro rfl -
        simp
      all_goals cases (s.driver.file f).role
      all_goals first | rfl | simp [unlinkProgram, held_cons, carries]
  | callback t c _ hidle _ =>
      exact h.give hheld hidle ⟨rfl, rfl, rfl, rfl, rfl, rfl, rfl, rfl⟩ (fun f hf => hf)
        (by simp [held_cons, carries]) (by simp) rfl
  | run t ok i p hprogram hblocks =>
      exact ⟨hheld, h.raised.run h.held hprogram hfound hfirst, h.registered.run h.held hprogram,
        h.told.run h.held h.registered hprogram hblocks hattends⟩

/-- In every run in which no connection is terminated while the list is empty and the events
are raised in the order of the changes, an arrival and a departure subscription that attend
to them see the changes of the list: alternately, an arrival first, and all of them when
no thread has an event to raise or to tell. -/
theorem events_seen_of_changes {as : List Action}
    (hrun : RunsTo (NfpConnections.step cfg)
      (fun s x => findsEmpty s x = false ∧ raisesEarly s x = false ∧ attends arr dep s x = true)
      (State.start cfg) as s) :
    (s.seenBy arr dep).IsChain (· ≠ ·) ∧ (s.seenBy arr dep).head? ≠ some false ∧
      s.seenBy arr dep <+: s.driver.changes ∧
      ((∀ t, Silent (s.program t)) → s.seenBy arr dep = s.driver.changes) ∧
      (s.driver.changes.getLast? = some true ↔ s.driver.connectionHead ≠ []) := by
  have h : Corresponds arr dep s := by
    refine hrun.invariant _ corresponds_start ?_
    rintro s x s' h ⟨hfound, hfirst, hattends⟩ hstep
    exact h.step hfound hfirst hattends hstep
  have haccount := h.raised.account
  rw [← h.told.told, List.append_assoc] at haccount
  have hpre : s.seenBy arr dep <+: s.driver.changes := ⟨_, haccount⟩
  have halternates := h.raised.alternates.prefix hpre
  refine ⟨halternates, fun hhead => ?_, hpre, fun hsilent => ?_,
    h.raised.nonempty⟩
  · obtain ⟨rest, hrest⟩ := List.head?_eq_some_iff.mp hhead
    refine h.raised.starts ?_
    rw [← haccount, hrest]
    rfl
  · have hnone : s.driver.undelivered = [] := by
      refine List.eq_nil_iff_forall_not_mem.mpr fun e he => ?_
      obtain ⟨j, hj, hraises⟩ := h.raised.due e he
      rw [(hsilent e.1 j hj).1] at hraises
      cases hraises
    have htellings : tellings s.subsProgram = [] := by
      unfold State.subsProgram
      cases s.driver.owner .subs with
      | none => rfl
      | some t => exact tellings_of_silent (hsilent t)
    rw [hnone, htellings] at haccount
    simpa [heard] using haccount

end Events

/-! ## A connection that is terminated before it is inserted -/

/-- A subscription to the arrivals and one to the departures are opened. -/
def subscribed : List Action :=
  [.create 0 5 .arrivedSubscription] ++ runs 0 4 ++ [.create 0 6 .departedSubscription] ++
    runs 0 4

/-- A connection is accepted, and its receive fails. -/
def cameAndWent : List Action :=
  subscribed ++ [.accept 0] ++ runs 0 17 ++ [.callback 1 0] ++ runs 1 3 ++ [.run 1 false] ++
    runs 1 20

theorem events_seen_of_changes_cameAndWent :
    ∃ s, RunsTo (step threeThreads)
        (fun s x => findsEmpty s x = false ∧ raisesEarly s x = false ∧ attends 5 6 s x = true)
        (State.start threeThreads) cameAndWent s ∧
      s.seenBy 5 6 = [true, false] ∧ (s.seenBy 5 6).head? ≠ some false :=
  have hrun := RunsTo.of_isSome (by decide)
  ⟨_, hrun, by decide, (events_seen_of_changes hrun).2.1⟩

/-- The receive fails before the connection is in the list. -/
def neverInserted : List Action :=
  subscribed ++ [.accept 0] ++ runs 0 3 ++ [.callback 1 0] ++ runs 1 3 ++ [.run 1 false] ++
    runs 1 20

/-- The receive fails before the arrival has been raised. -/
def overtaken : List Action :=
  subscribed ++ [.accept 0] ++ runs 0 6 ++ [.callback 1 0] ++ runs 1 3 ++ [.run 1 false] ++
    runs 1 20 ++ runs 0 5

/-- A removal is seen although the list has not changed, or before the arrival. -/
theorem removal_seen_first :
    (∃ s, RunsTo (step threeThreads) (fun s x => attends 5 6 s x = true)
        (State.start threeThreads) neverInserted s ∧
      s.seenBy 5 6 = [false] ∧ s.driver.changes = []) ∧
    ∃ s, RunsTo (step threeThreads) (fun s x => attends 5 6 s x = true)
        (State.start threeThreads) overtaken s ∧
      s.seenBy 5 6 = [false, true] ∧ s.driver.changes = [true, false] :=
  ⟨⟨_, RunsTo.of_isSome (by decide), by decide, by decide⟩,
    ⟨_, RunsTo.of_isSome (by decide), by decide, by decide⟩⟩

end MiscProjects.NfpConnections
