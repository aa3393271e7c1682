import MiscProjects.NfpConnections.Events

/-!
# Who uses a connection

A thread that still has to use a connection establishes it, is its callback, deletes it,
or walks `m_ConnectionHead` under the connection lock.  Handles are opened, used and
closed in this order.  Both hold in every run.
-/

namespace MiscProjects.NfpConnections

open Function (update update_self update_of_ne)
open Threads Instr

/-- The connection that a thread has to do with because it holds the token. -/
def Token.connection : Token → Option ConnectionPtr
  | .callback c | .establishing c | .deleting c => some c
  | .lock _ | .opening _ => none

/-- The thread establishes the connection, is its callback or deletes it. -/
def Pins (c : ConnectionPtr) (p : List Instr) : Prop :=
  ∃ k ∈ held p, k.connection = some c

/-- What comes after an instruction that leaves the connection lock, needs it, or
serves a request on a handle. -/
def Guarded (i : Instr) (p : List Instr) : Prop :=
  match i with
  | leave .connection => ∀ j ∈ p, ∀ c, j.refers = some c → Pins c p
  | walkConnections _ => .lock .connection ∈ held p
  | testRole f | createConnection f => complete f ∈ p
  | _ => True

namespace Instr

/-- The phase that a handle is in while a thread still has to do the instruction. -/
def phase : Instr → Option (FilePtr × HandlePhase)
  | opened f => some (f, .opening)
  | complete f => some (f, .usable)
  | deleteContext f => some (f, .closed)
  | _ => none

end Instr

section Uses
variable {cfg : Config} {s s' : State} {d : Driver} {t t' : ThreadId} {ok : Bool} {i j : Instr}
  {p : List Instr} {c : ConnectionPtr} {f : FilePtr} {k : Token} {a : Action}

/-! ## What a step makes of the threads -/

theorem mem_give (hmem : j ∈ update s.program t p t') : j ∈ s.program t' ∨ t' = t ∧ j ∈ p := by
  rcases eq_or_ne t' t with rfl | hne
  · rw [update_self] at hmem
    exact .inr ⟨rfl, hmem⟩
  · rw [update_of_ne hne] at hmem
    exact .inl hmem

theorem mem_held_give (hmem : k ∈ held (update s.program t p t')) :
    k ∈ held (s.program t') ∨ t' = t ∧ k ∈ held p := by
  rcases eq_or_ne t' t with rfl | hne
  · rw [update_self] at hmem
    exact .inr ⟨rfl, hmem⟩
  · rw [update_of_ne hne] at hmem
    exact .inl hmem

theorem mem_run (hprogram : s.program t = i :: p)
    (hmem : j ∈ update s.program t (d.next t ok i ++ p) t') :
    j ∈ s.program t' ∧ (t' = t → j ∈ p) ∨ t' = t ∧ j ∈ d.next t ok i := by
  rcases eq_or_ne t' t with rfl | hne
  · rw [update_self] at hmem
    rcases List.mem_append.mp hmem with hnext | hrest
    · exact .inr ⟨rfl, hnext⟩
    · rw [hprogram]
      exact .inl ⟨List.mem_cons_of_mem _ hrest, fun _ => hrest⟩
  · rw [update_of_ne hne] at hmem
    exact .inl ⟨hmem, fun heq => absurd heq hne⟩

theorem ne_lock_of_connection (hk : k.connection = some c) (l : Lock) : k ≠ .lock l := by
  rintro rfl
  cases hk

theorem Pins.of_mem (hk : k.connection = some c) (hj : j ∈ p) (hcarries : k ∈ j.carries) :
    Pins c p := by
  refine ⟨k, mem_held_of_mem (acquires_ne (ne_lock_of_connection hk)) hj hcarries ?_, hk⟩
  refine acquires_eq_none fun l hl => ?_
  subst hl
  cases hcarries

/-! ## What the instructions lead to -/

/-- An instruction leads only to uses of the connection that it uses, but for three, which
lead to uses of the connection that is created, those in the list, and that of the handle. -/
theorem refers_mem_next (hj : j ∈ d.next t ok i) (hc : j.refers = some c) :
    i.refers = some c ∨ ((∃ f, i = createConnection f) ∧ ok = true ∧ c = d.connections) ∨
      ((∃ f, i = walkConnections f) ∧ c ∈ d.connectionHead) ∨
        ∃ f, i = deleteContext f ∧ (d.file f).connection = some c := by
  cases leads_of_mem_next _ hj with
  | created hok => exact .inr (.inl ⟨⟨_, rfl⟩, hok, (Option.some.inj hc).symm⟩)
  | sends hmem | steps hmem =>
      obtain rfl := Option.some.inj hc
      exact .inr (.inr (.inl ⟨⟨_, rfl⟩, hmem⟩))
  | cleansUp hconnection | deletes hconnection =>
      obtain rfl := Option.some.inj hc
      exact .inr (.inr (.inr ⟨_, rfl, hconnection⟩))
  | @tested c' b deleted | @finishes c' b deleted =>
      cases deleted with
      | false => exact .inl hc
      | true => cases hc
  | _ => first | exact .inl hc | cases hc

theorem mem_held_next (d : Driver) (t : ThreadId) (ok : Bool) (hfits : Fits i p)
    (hk : k.connection = some c) (hmem : k ∈ held (i :: p)) :
    k ∈ held (d.next t ok i ++ p) ∨ ∀ j ∈ d.next t ok i ++ p, j.refers = none := by
  by_cases henter : ∃ l, i = enter l
  · obtain ⟨l, rfl⟩ := henter
    exact .inl (List.mem_of_mem_erase hmem)
  rw [held_cons_of_carries (acquires_eq_none fun l hl => henter ⟨l, hl⟩), List.mem_append] at hmem
  rw [held_next]
  rcases hmem with hcarries | hrest
  · change k ∈ i.carries at hcarries
    cases i with
    | leave l | storePayload f | testRole f | opened f =>
        obtain rfl := List.mem_singleton.mp hcarries
        cases hk
    | validateAccept c' | newMessage c' =>
        cases ok with
        | true => exact .inl (List.mem_append_left _ hcarries)
        | false => exact .inr hfits.2.2
    | finalizeEstablish c' client =>
        by_cases hok : (d.connection c').state = .initial ∧ ok = true
        · refine .inl (List.mem_append_left _ ?_)
          obtain rfl := List.mem_singleton.mp hcarries
          simp [Driver.keeps, hok]
        · cases client with
          | none =>
              refine .inr ?_
              simpa [Driver.next, hok] using hfits.2.2
          | some f =>
              refine .inl (List.mem_append_left _ ?_)
              obtain rfl := List.mem_singleton.mp hcarries
              simp [Driver.keeps]
    | abandon c' f | walked c' => exact .inr hfits.2
    | testInbound c' noMore =>
        refine .inl (List.mem_append_left _ ?_)
        obtain rfl := List.mem_singleton.mp hcarries
        simp only [Driver.keeps]
        split <;> simp
    | finish c' deleted =>
        obtain rfl : p = [] := hfits
        exact .inr (by simp [Driver.next])
    | free c' => exact .inr hfits
    | createConnection f | deleteContext f => cases hcarries
    | _ => exact .inl (List.mem_append_left _ hcarries)
  · exact .inl (List.mem_append_right _ hrest)

/-! ## What comes after what -/

theorem guarded_of_mem_next (hinsert : ∀ c, i ≠ insertConnection c)
    (hremove : ∀ c, i ≠ removeConnection c) (hpayload : ∀ f, i ≠ newPayload f)
    (hrole : ∀ f, i ≠ testRole f) (hj : j ∈ d.next t ok i) (q : List Instr) : Guarded j q := by
  cases leads_of_mem_next _ hj with
  | leaveConnection hi =>
      rcases hi with ⟨c, rfl⟩ | ⟨c, rfl⟩ | ⟨f, rfl⟩
      · exact absurd rfl (hinsert c)
      · exact absurd rfl (hremove c)
      · exact absurd rfl (hpayload f)
  | leave hl =>
      unfold Guarded
      split <;> simp_all
  | walksConnections => exact absurd rfl (hpayload _)
  | undefinedRole => exact absurd rfl (hrole _)
  | _ => trivial

theorem eachFits_guarded_append {q : List Instr} (hp : EachFits Guarded p)
    (hq : ∀ j ∈ q, ∀ r, Guarded j r) : EachFits Guarded (q ++ p) := by
  induction q with
  | nil => exact hp
  | cons j q ih =>
      exact ⟨hq j List.mem_cons_self _, ih fun j' hj' => hq j' (List.mem_cons_of_mem _ hj')⟩

theorem eachFits_guarded_next (d : Driver) (t : ThreadId) (ok : Bool) (hfits : Fits i p)
    (hi : Guarded i p) (hp : EachFits Guarded p) : EachFits Guarded (d.next t ok i ++ p) := by
  by_cases hinsert : ∃ c, i = insertConnection c
  · -- `newMessage`, which comes next, establishes the connection
    obtain ⟨c, rfl⟩ := hinsert
    have hrest (q : List Instr) (hq : ∀ j ∈ q, j.refers = none ∧ ∀ r, Guarded j r) :
        EachFits Guarded (leave .connection :: (q ++ [newMessage c]) ++ p) := by
      rw [List.cons_append, List.append_assoc]
      refine ⟨fun j hj c' hc' => ?_, eachFits_guarded_append ⟨trivial, hp⟩ fun j hj => (hq j hj).2⟩
      refine ⟨.establishing c, ?_, ?_⟩
      · exact mem_held_of_mem (acquires_ne (by simp))
          (List.mem_append_right _ List.mem_cons_self) List.mem_cons_self rfl
      · rcases List.mem_append.mp hj with hj | hj
        · rw [(hq j hj).1] at hc'
          cases hc'
        rcases List.mem_cons.mp hj with rfl | hj
        · exact hc'
        · rw [hfits.2.2 j hj] at hc'
          cases hc'
    exact hrest _ (by split <;> simp [raise, refers, Guarded])
  by_cases hremove : ∃ c, i = removeConnection c
  · obtain ⟨c, rfl⟩ := hremove
    obtain rfl : p = [] := hfits
    refine ⟨fun j hj c' hc' => ?_, trivial, trivial⟩
    obtain rfl := List.mem_singleton.mp hj
    exact ⟨.callback c, List.mem_cons_self, hc'⟩
  by_cases hpayload : ∃ f, i = newPayload f
  · obtain ⟨f, rfl⟩ := hpayload
    simp only [Driver.next]
    split
    · refine ⟨trivial, List.mem_cons_self, fun j hj c' hc' => ?_, trivial, trivial, trivial, hp⟩
      change j ∈ enter .pubs :: joinPubs f :: leave .pubs :: p at hj
      simp only [List.mem_cons] at hj
      rcases hj with rfl | rfl | rfl | hj
      · cases hc'
      · cases hc'
      · cases hc'
      · rw [hfits.2.2 j hj] at hc'
        cases hc'
    · exact hp
  by_cases hrole : ∃ f, i = testRole f
  · obtain ⟨f, rfl⟩ := hrole
    simp only [Driver.next]
    split
    · exact ⟨trivial, hi, hp⟩
    · exact ⟨trivial, hp⟩
  · refine eachFits_guarded_append hp fun j hj => ?_
    exact guarded_of_mem_next (fun c hc => hinsert ⟨c, hc⟩) (fun c hc => hremove ⟨c, hc⟩)
      (fun f hf => hpayload ⟨f, hf⟩) (fun f hf => hrole ⟨f, hf⟩) hj

/-! ## Users of a connection -/

/-- Who still has to use a connection has to do with it by a token, or has found it in
`m_ConnectionHead` and is still in the connection lock. -/
structure Covered (s : State) : Prop where
  guarded : ∀ t, EachFits Guarded (s.program t)
  covered : ∀ t, ∀ j ∈ s.program t, ∀ c, j.refers = some c →
    Pins c (s.program t) ∨
      s.driver.owner .connection = some t ∧ c ∈ s.driver.connectionHead

theorem covered_start : Covered (State.start cfg) where
  guarded _ := trivial
  covered _ _ hj := by cases hj

theorem effect_connectionHead (hinsert : ∀ c, i ≠ insertConnection c)
    (hremove : ∀ c, i ≠ removeConnection c) :
    (d.effect t ok i).connectionHead = d.connectionHead := by
  cases i with
  | insertConnection c => exact absurd rfl (hinsert c)
  | removeConnection c => exact absurd rfl (hremove c)
  | finalizeEstablish c' client | createConnection f | setEnabled f b | register f | unlink f =>
      simp only [Driver.effect]
      split <;> rfl
  | _ => rfl

theorem mem_effect_connectionHead_of_mem (h : c ∈ d.connectionHead)
    (hremove : ∀ c, i ≠ removeConnection c) : c ∈ (d.effect t ok i).connectionHead := by
  by_cases hinsert : ∃ c', i = insertConnection c'
  · obtain ⟨c', rfl⟩ := hinsert
    exact List.mem_cons_of_mem _ h
  · rwa [effect_connectionHead (fun c' hc => hinsert ⟨c', hc⟩) hremove]

theorem Held.walks_other (hheld : Held s) (hprogram : s.program t = i :: p)
    (hblocks : s.driver.blocks i = false) (hne : t' ≠ t)
    (howner : s.driver.owner .connection = some t') (hmem : c ∈ s.driver.connectionHead) :
    (s.driver.effect t ok i).owner .connection = some t' ∧
      c ∈ (s.driver.effect t ok i).connectionHead := by
  have hnot : .lock .connection ∉ held (s.program t) := by
    intro hlock
    rw [← hheld.locks, howner] at hlock
    exact hne (Option.some.inj hlock)
  constructor
  · rw [effect_owner_of_ne, howner]
    · rintro rfl
      simp [Driver.blocks, howner] at hblocks
    · rintro rfl
      exact hnot (mem_held_program hprogram rfl List.mem_cons_self)
  · refine mem_effect_connectionHead_of_mem hmem ?_
    rintro c' rfl
    exact hnot (mem_held_program hprogram rfl List.mem_cons_self)

theorem Covered.run_same (h : Covered s) (ok : Bool) (hheld : Held s)
    (hprogram : s.program t = i :: p)
    (hc : Pins c (i :: p) ∨ s.driver.owner .connection = some t ∧ c ∈ s.driver.connectionHead)
    (hj : j ∈ s.driver.next t ok i ++ p) (hrefers : j.refers = some c) :
    Pins c (s.driver.next t ok i ++ p) ∨ (s.driver.effect t ok i).owner .connection = some t ∧
        c ∈ (s.driver.effect t ok i).connectionHead := by
  obtain ⟨hfits, -⟩ := hheld.fits hprogram
  rcases hc with ⟨k, hmem, hk⟩ | ⟨howner, hmem⟩
  · rcases mem_held_next s.driver t ok hfits hk hmem with hnext | hnone
    · exact .inl ⟨k, hnext, hk⟩
    · rw [hnone j hj] at hrefers
      cases hrefers
  by_cases hleave : i = leave .connection
  · subst hleave
    have hguarded := h.guarded t
    rw [hprogram] at hguarded
    exact .inl (hguarded.1 j hj c hrefers)
  by_cases hremove : ∃ c', i = removeConnection c'
  · -- only the connection that is removed is used after that
    obtain ⟨c', rfl⟩ := hremove
    obtain rfl : p = [] := hfits
    rw [List.append_nil] at hj ⊢
    simp only [Driver.next, List.mem_cons, List.not_mem_nil, or_false] at hj
    rcases hj with rfl | rfl
    · cases hrefers
    · exact .inl (Pins.of_mem (k := .callback c') hrefers
        (List.mem_cons_of_mem _ List.mem_cons_self) List.mem_cons_self)
  refine .inr ⟨?_, mem_effect_connectionHead_of_mem hmem fun c' hc' => hremove ⟨c', hc'⟩⟩
  by_cases henter : i = enter .connection
  · subst henter
    change update s.driver.owner .connection (some t) .connection = some t
    exact update_self _ _ _
  · rw [effect_owner_of_ne henter hleave, howner]

theorem Covered.run (h : Covered s) (hheld : Held s) (hprogram : s.program t = i :: p)
    (hblocks : s.driver.blocks i = false) :
    Covered (s.give t (s.driver.effect t ok i) (s.driver.next t ok i ++ p)) := by
  obtain ⟨hfits, -⟩ := hheld.fits hprogram
  have hguarded : Guarded i p ∧ EachFits Guarded p := by
    have hguarded := h.guarded t
    rwa [hprogram] at hguarded
  constructor
  · intro t'
    change EachFits Guarded (update s.program t _ t')
    rcases eq_or_ne t' t with rfl | hne
    · rw [update_self]
      exact eachFits_guarded_next _ _ _ hfits hguarded.1 hguarded.2
    · rw [update_of_ne hne]
      exact h.guarded t'
  · intro t' j hj c hc
    change j ∈ update s.program t _ t' at hj
    change Pins c (update s.program t _ t') ∨ _
    rcases eq_or_ne t' t with rfl | hne
    · rw [update_self] at hj ⊢
      have hold (j' : Instr) (hj' : j' ∈ i :: p) (hc' : j'.refers = some c) :=
        h.run_same ok hheld hprogram (by
          have hcovered := h.covered t' j' (hprogram ▸ hj') c hc'
          rwa [hprogram] at hcovered) hj hc
      rcases List.mem_append.mp hj with hnext | hrest
      · rcases refers_mem_next hnext hc with hi | ⟨⟨f, rfl⟩, rfl, rfl⟩ |
          ⟨⟨f, rfl⟩, hmem⟩ | ⟨f, rfl, hconnection⟩
        · exact hold i List.mem_cons_self hi
        · refine .inl ⟨.establishing s.driver.connections, ?_, rfl⟩
          rw [held_next]
          exact List.mem_cons_self
        · refine .inr ⟨(hheld.locks _ _).mpr ?_, hmem⟩
          rw [hprogram]
          exact hguarded.1
        · refine .inl ⟨.deleting c, ?_, rfl⟩
          rw [held_next]
          exact List.mem_append_left _ (by simp [Driver.keeps, hconnection])
      · exact hold j (List.mem_cons_of_mem _ hrest) hc
    · rw [update_of_ne hne] at hj ⊢
      rcases h.covered t' j hj c hc with hpins | ⟨howner, hmem⟩
      · exact .inl hpins
      · exact .inr (hheld.walks_other hprogram hblocks hne howner hmem)

theorem Covered.give (h : Covered s) (hidle : s.program t = []) (hguarded : EachFits Guarded p)
    (howner : d.owner = s.driver.owner) (hhead : d.connectionHead = s.driver.connectionHead)
    (hp : ∀ j ∈ p, ∀ c, j.refers = some c → Pins c p) : Covered (s.give t d p) := by
  constructor
  · intro t'
    change EachFits Guarded (update s.program t p t')
    rcases eq_or_ne t' t with rfl | hne
    · rwa [update_self]
    · rw [update_of_ne hne]
      exact h.guarded t'
  · intro t' j hj c hc
    change j ∈ update s.program t p t' at hj
    change Pins c (update s.program t p t') ∨ d.owner _ = _ ∧ c ∈ d.connectionHead
    rw [howner, hhead]
    rcases eq_or_ne t' t with rfl | hne
    · rw [update_self] at hj ⊢
      exact .inl (hp j hj c hc)
    · rw [update_of_ne hne] at hj ⊢
      exact h.covered t' j hj c hc

theorem refers_control (code : Control) :
    ∀ j ∈ code.program f ++ [complete f], j.refers = none := by
  cases code <;> simp [Control.program, refers]

theorem refers_close (role : Nfp.Role) :
    ∀ j ∈ unlinkProgram f role ++ [deleteContext f], j.refers = none := by
  cases role <;> simp [unlinkProgram, refers]

theorem guarded_control (code : Control) : EachFits Guarded (code.program f ++ [complete f]) := by
  cases code with
  | beginProximity => exact ⟨trivial, List.mem_cons_self, trivial, trivial⟩
  | _ => exact eachFits_guarded_append ⟨trivial, trivial⟩ (by simp [Control.program, Guarded])

theorem Covered.step (h : Covered s) (hheld : Held s) (hstep : step cfg s a = some s') :
    Covered s' := by
  cases StepTo.of_step hstep with
  | accept t _ hidle =>
      refine h.give hidle ⟨trivial, trivial⟩ rfl rfl fun j hj c hc => ?_
      obtain rfl := List.mem_singleton.mp hj
      exact ⟨.establishing _, List.mem_cons_self, hc⟩
  | create t f role _ hidle _ _ =>
      exact h.give hidle ⟨trivial, trivial, trivial, trivial, trivial⟩ rfl rfl (by simp [refers])
  | control t f code _ hidle _ =>
      refine h.give hidle (guarded_control code) rfl rfl fun j hj c hc => ?_
      rw [refers_control code j hj] at hc
      cases hc
  | close t f _ hidle _ _ =>
      refine h.give hidle ?_ rfl rfl fun j hj c hc => ?_
      · refine eachFits_guarded_append ⟨trivial, trivial⟩ ?_
        cases (s.driver.file f).role <;> simp [unlinkProgram, Guarded]
      · rw [refers_close _ j hj] at hc
        cases hc
  | callback t c _ hidle _ =>
      refine h.give hidle ⟨trivial, trivial⟩ rfl rfl fun j hj c' hc => ?_
      obtain rfl := List.mem_singleton.mp hj
      exact ⟨.callback c, List.mem_cons_self, hc⟩
  | run t ok i p hprogram hblocks =>
      exact h.run hheld hprogram hblocks

/-! ## Handles -/

/-- The threads are as many as there are, one opens each handle, and the handles are in the
phases that what is to be done with them needs. -/
structure Phased (cfg : Config) (s : State) : Prop where
  idle : ∀ t, cfg.threads ≤ t → s.program t = []
  opening : Exclusive Token.opening s.program
  phases : ∀ t, ∀ j ∈ s.program t, ∀ f phase, j.phase = some (f, phase) →
    (s.driver.file f).phase = phase

theorem phased_start : Phased cfg (State.start cfg) where
  idle _ _ := rfl
  opening _ _ _ hmem := by simp [State.start] at hmem
  phases _ _ hj := by cases hj

theorem effect_phase_of_ne (hopened : i ≠ opened f) :
    ((d.effect t ok i).file f).phase = (d.file f).phase := by
  cases i with
  | opened g =>
      refine of_setFile (P := fun x => x.phase = (d.file f).phase) rfl ?_
      rintro rfl -
      exact absurd rfl hopened
  | abandon c g | storePayload g | testRole g | deleteContext g =>
      refine of_setFile (P := fun x => x.phase = (d.file f).phase) rfl ?_
      rintro rfl hx
      exact hx
  | createConnection g | setEnabled g b =>
      simp only [Driver.effect]
      split
      all_goals first | rfl | refine of_setFile (P := fun x => x.phase = (d.file f).phase) rfl ?_
      rintro rfl hx
      exact hx
  | finalizeEstablish c client | register g | unlink g =>
      simp only [Driver.effect]
      split <;> rfl
  | _ => rfl

theorem phase_next (hj : j ∈ d.next t ok i) : j.phase = none := by
  cases leads_of_mem_next _ hj <;> rfl

theorem Phased.run (h : Phased cfg s) (hheld : Held s) (hprogram : s.program t = i :: p) :
    Phased cfg (s.give t (s.driver.effect t ok i) (s.driver.next t ok i ++ p)) := by
  constructor
  · intro t' ht'
    have hne : t' ≠ t := by
      rintro rfl
      rw [h.idle t' ht'] at hprogram
      cases hprogram
    change update s.program t _ t' = []
    rw [update_of_ne hne]
    exact h.idle t' ht'
  · refine h.opening.update fun f hmem => .inl ?_
    rw [hprogram]
    exact opening_mem_next hmem
  · intro t' j hj f phase hphase
    rcases mem_run hprogram hj with ⟨hold, hrest⟩ | ⟨-, hnext⟩
    · have hbefore := h.phases t' j hold f phase hphase
      by_cases hopened : i = opened f
      · -- only the thread that opens the handle needs it to be opening
        subst hopened
        have hopening := h.phases t _ (mem_program hprogram) f .opening rfl
        obtain rfl : phase = .opening := hbefore.symm.trans hopening
        obtain rfl : j = opened f := by
          cases j <;> simp [Instr.phase] at hphase
          rw [hphase]
        have hheld' (t₀ : ThreadId) (hmem : opened f ∈ s.program t₀) :
            .opening f ∈ held (s.program t₀) :=
          mem_held_of_mem (acquires_ne (by simp)) hmem List.mem_cons_self rfl
        obtain rfl : t' = t := h.opening f t' t (hheld' t' hold) (hheld' t (mem_program hprogram))
        have hnil : p = [] := (hheld.fits hprogram).1
        rw [hnil] at hrest
        cases hrest rfl
      · change ((s.driver.effect t ok i).file f).phase = phase
        rw [effect_phase_of_ne hopened, hbefore]
    · rw [phase_next hnext] at hphase
      cases hphase

theorem Phased.give (h : Phased cfg s) (ht : t < cfg.threads)
    (hphase : ∀ g, (d.file g).phase ≠ (s.driver.file g).phase →
      ∀ t, ∀ j ∈ s.program t, ∀ phase, j.phase ≠ some (g, phase))
    (hp : ∀ j ∈ p, ∀ g phase, j.phase = some (g, phase) → (d.file g).phase = phase)
    (hopening : ∀ g, .opening g ∈ held p → ∀ t, .opening g ∉ held (s.program t)) :
    Phased cfg (s.give t d p) := by
  constructor
  · intro t' ht'
    change update s.program t p t' = []
    rw [update_of_ne (ht.trans_le ht').ne']
    exact h.idle t' ht'
  · exact h.opening.update fun g hmem => .inr (hopening g hmem)
  · intro t' j hj g phase hj'
    rcases mem_give hj with hold | ⟨-, hnew⟩
    · by_contra hne
      refine hphase g (fun hsame => hne ?_) t' j hold phase hj'
      exact hsame.trans (h.phases t' j hold g phase hj')
    · exact hp j hnew g phase hj'

theorem Phased.opened_mem (h : Phased cfg s) (hmem : .opening f ∈ held (s.program t)) :
    (s.driver.file f).phase = .opening := by
  obtain ⟨j, hj, hcarries⟩ := exists_carries_of_mem_held hmem
  refine h.phases t j hj f .opening ?_
  change Token.opening f ∈ j.carries at hcarries
  cases j <;> simp [carries] at hcarries
  rw [hcarries]
  rfl

theorem Phased.step (h : Phased cfg s) (hheld : Held s) (hstep : step cfg s a = some s') :
    Phased cfg s' := by
  cases StepTo.of_step hstep with
  | accept t ht hidle =>
      exact h.give ht (fun g hne => absurd rfl hne) (by simp [phase])
        (by simp [held_cons, carries])
  | create t f role ht hidle habsent _ =>
      refine h.give ht (fun g hne t' j hj ph hj' => ?_) ?_ fun g hmem t' hmem' => ?_
      · have hold := h.phases t' j hj g ph hj'
        obtain rfl : g = f := by
          by_contra hgf
          refine hne ?_
          simp only [Driver.setFile]
          rw [update_of_ne hgf]
        cases j <;> simp [phase] at hj'
        all_goals
          obtain ⟨-, rfl⟩ := hj'
          rw [habsent] at hold
          cases hold
      · simp [phase, Driver.setFile]
      · obtain rfl : g = f := by simpa [held_cons, carries] using hmem
        have hopening := h.opened_mem hmem'
        rw [habsent] at hopening
        cases hopening
  | control t f code ht hidle husable =>
      refine h.give ht (fun g hne => absurd rfl hne) ?_ ?_
      · cases code <;> simp [Control.program, phase, husable]
      · cases code <;> simp [Control.program, held_cons, carries]
  | close t f ht hidle husable hbusy =>
      refine h.give ht (fun g hne t' j hj ph hj' => ?_) ?_ ?_
      · have hold := h.phases t' j hj g ph hj'
        obtain rfl : g = f := by
          by_contra hgf
          refine hne ?_
          simp only [Driver.setFile]
          rw [update_of_ne hgf]
        rw [husable] at hold
        subst hold
        cases j <;> simp [phase] at hj'
        -- the handle is closed when its requests have been completed
        subst hj'
        have ht' : t' < cfg.threads := by
          by_contra hle
          rw [h.idle t' (Nat.not_lt.mp hle)] at hj
          cases hj
        simp only [State.busy, List.any_eq_false, List.mem_range, List.contains_iff_mem] at hbusy
        exact hbusy t' ht' hj
      · cases (s.driver.file f).role <;> simp [unlinkProgram, phase, Driver.setFile]
      · cases (s.driver.file f).role <;> simp [unlinkProgram, held_cons, carries]
  | callback t c ht hidle _ =>
      exact h.give ht (fun g hne => absurd rfl hne) (by simp [phase])
        (by simp [held_cons, carries])
  | run t ok i p hprogram _ =>
      exact h.run hheld hprogram

end Uses

end MiscProjects.NfpConnections
