import Mathlib.Data.Multiset.MapFold
import Mathlib.Logic.Function.Basic
import MiscProjects.NameService.Enumeration

/-!
# The table of the services

`Services` is an array of pointers to structures that have been allocated for the
requests; `dwNumServices` tells how many of them are live.  A service that is
deregistered is freed, and the last pointer is moved into its place.  The array holds,
up to the order, the services that have been registered and not yet deregistered.

An address is free until `GlobalAlloc` returns it and free again after `GlobalFree`.
The structure of a request that registers nothing stays allocated.  A request that
dereferences `NULL` or freed memory, or writes beyond the array, is `none`.
-/

namespace MiscProjects.NameService.ServiceTable

open MiscProjects.SwapRemove
open Function (update update_self update_of_ne)

abbrev Ptr := ℕ

/-- The array of the services and the memory that has been allocated. -/
structure Table where
  serviceClasses : List ServiceClass
  services : ℕ → Option Ptr
  dwNumServices : ℕ
  memory : Ptr → Option QuerySet

def Table.create (serviceClasses : List ServiceClass) : Table where
  serviceClasses := serviceClasses
  services _ := none
  dwNumServices := 0
  memory _ := none

/-- The service at an index of the array. -/
def Table.entry (t : Table) (i : ℕ) : Option QuerySet := (t.services i).bind t.memory

/-- The live part of the array. -/
def Table.entries (t : Table) : List (Option QuerySet) :=
  (List.range t.dwNumServices).map t.entry

/-- `GlobalAlloc` and `DeMarshallServiceInfo`. -/
def Table.alloc (t : Table) (ptr : Ptr) (si : QuerySet) : Table :=
  { t with memory := update t.memory ptr (some si) }

/-- `GlobalFree(Services[i])`, and the last pointer takes its place. -/
def Table.remove (t : Table) (i : ℕ) (ptr : Ptr) : Table :=
  let cleared := update t.services i none
  { t with
    services := update cleared i (cleared (t.dwNumServices - 1))
    dwNumServices := t.dwNumServices - 1
    memory := update t.memory ptr none }

/-- A request about a service, with the address at which it is demarshalled; the requests
about classes change the table of the classes. -/
inductive TableRequest
  | registerService (ptr : Ptr) (si : QuerySet)
  | deregisterService (ptr : Ptr) (si : QuerySet)
  | changeClasses (serviceClasses : List ServiceClass)
deriving DecidableEq

section Names
variable (lstrcmpW : Name → Name → Bool)

/-- The loop over `n` services from index `i` on. -/
def findService (service : Name) (t : Table) : ℕ → ℕ → Option (Option ℕ)
  | _, 0 => some none
  | i, n + 1 => do
      let entry ← t.entry i
      if lstrcmpW service entry.lpszServiceInstanceName then some (some i)
      else findService service t (i + 1) n

/-- The search of `LookupService` and of `DeregisterService`. -/
def lookupService (guid : Option Guid) (service : Name) (t : Table) :
    Option (Option ℕ) := do
  match ← lookupServiceClass guid t.serviceClasses with
  | none => some none
  | some _ => findService lstrcmpW service t 0 t.dwNumServices

/-- `MYNSP_REGISTER_SERVICE`. -/
def registerService (ptr : Ptr) (si : QuerySet) (t : Table) : Option (Table × ℤ) :=
  if t.memory ptr ≠ none then none
  else do
    match ← lookupService lstrcmpW si.lpServiceClassId si.lpszServiceInstanceName
        (t.alloc ptr si) with
    | some _ => some (t.alloc ptr si, mynspError)
    | none =>
        if t.dwNumServices < maxServices then
          some ({ t.alloc ptr si with
            services := update t.services t.dwNumServices (some ptr)
            dwNumServices := t.dwNumServices + 1 }, mynspSuccess)
        else none

/-- `MYNSP_DEREGISTER_SERVICE` and `DeregisterService`. -/
def deregisterService (ptr : Ptr) (si : QuerySet) (t : Table) : Option (Table × ℤ) :=
  if t.memory ptr ≠ none then none
  else do
    match ← lookupService lstrcmpW si.lpServiceClassId si.lpszServiceInstanceName
        (t.alloc ptr si) with
    | none => some (t.alloc ptr si, mynspError)
    | some i => do
        let service ← t.services i
        some ((t.alloc ptr si).remove i service, mynspSuccess)

/-- One turn of the loop in `main`, and what the client reads. -/
def serve (t : Table) : TableRequest → Option (Table × ℤ)
  | .registerService ptr si => registerService lstrcmpW ptr si t
  | .deregisterService ptr si => deregisterService lstrcmpW ptr si t
  | .changeClasses serviceClasses =>
      some ({ t with serviceClasses := serviceClasses }, mynspSuccess)

/-- The requests are handled one after the other; the answers are kept with them. -/
def run (t : Table) : List TableRequest → Option (Table × List (TableRequest × ℤ))
  | [] => some (t, [])
  | r :: requests => do
      let (t', code) ← serve lstrcmpW t r
      let (t'', answers) ← run t' requests
      some (t'', (r, code) :: answers)

/-! ## The services as a multiset -/

/-- What a request and its answer do to the services. -/
inductive RegistryStep : Multiset QuerySet → TableRequest × ℤ → Multiset QuerySet → Prop
  | registered (services : Multiset QuerySet) (ptr : Ptr) (si : QuerySet) :
      RegistryStep services (.registerService ptr si, mynspSuccess) (si ::ₘ services)
  | refused (services : Multiset QuerySet) (ptr : Ptr) (si : QuerySet) :
      RegistryStep services (.registerService ptr si, mynspError) services
  | deregistered (services : Multiset QuerySet) (ptr : Ptr) (si service : QuerySet) :
      lstrcmpW si.lpszServiceInstanceName service.lpszServiceInstanceName = true →
        RegistryStep (service ::ₘ services) (.deregisterService ptr si, mynspSuccess) services
  | unknown (services : Multiset QuerySet) (ptr : Ptr) (si : QuerySet) :
      RegistryStep services (.deregisterService ptr si, mynspError) services
  | changed (services : Multiset QuerySet) (serviceClasses : List ServiceClass) (code : ℤ) :
      RegistryStep services (.changeClasses serviceClasses, code) services

inductive RegistryRun : Multiset QuerySet → List (TableRequest × ℤ) →
    Multiset QuerySet → Prop
  | nil (services : Multiset QuerySet) : RegistryRun services [] services
  | cons {services services' services'' : Multiset QuerySet} {answered : TableRequest × ℤ}
      {rest : List (TableRequest × ℤ)} :
      RegistryStep lstrcmpW services answered services' → RegistryRun services' rest services'' →
        RegistryRun services (answered :: rest) services''

end Names

/-! ## What the array holds -/

variable {lstrcmpW : Name → Name → Bool} {t t' : Table} {qs : List QuerySet} {ptr : Ptr}
  {si : QuerySet} {code : ℤ}

/-- The live part of the array points to the given services, each at an address of its
own. -/
structure Holds (t : Table) (qs : List QuerySet) : Prop where
  length : t.dwNumServices = qs.length
  entry : ∀ i < qs.length, t.entry i = qs[i]?
  distinct : ∀ i < qs.length, ∀ j < qs.length, t.services i = t.services j → i = j

theorem holds_create (serviceClasses : List ServiceClass) :
    Holds (Table.create serviceClasses) [] where
  length := rfl
  entry i hi := absurd hi (Nat.not_lt_zero i)
  distinct i hi := absurd hi (Nat.not_lt_zero i)

namespace Holds

theorem entries_eq (h : Holds t qs) : t.entries = qs.map some := by
  apply List.ext_getElem?
  intro i
  rw [Table.entries, List.getElem?_map, List.getElem?_map, h.length]
  by_cases hi : i < qs.length
  · rw [List.getElem?_range hi, Option.map_some, h.entry i hi, List.getElem?_eq_getElem hi]
    rfl
  · rw [List.getElem?_eq_none (by simpa using hi), List.getElem?_eq_none (by simpa using hi)]
    rfl

theorem allocated (h : Holds t qs) {i : ℕ} (hi : i < qs.length) :
    ∃ p, t.services i = some p ∧ t.memory p = qs[i]? := by
  have hentry := h.entry i hi
  rw [Table.entry] at hentry
  cases hp : t.services i with
  | none =>
      rw [hp, List.getElem?_eq_getElem hi] at hentry
      cases hentry
  | some p =>
      rw [hp] at hentry
      exact ⟨p, rfl, hentry⟩

theorem alloc (h : Holds t qs) (hfree : t.memory ptr = none) (si : QuerySet) :
    Holds (t.alloc ptr si) qs where
  length := h.length
  entry i hi := by
    obtain ⟨p, hp, hmem⟩ := h.allocated hi
    have hne : p ≠ ptr := by
      rintro rfl
      rw [hfree, List.getElem?_eq_getElem hi] at hmem
      cases hmem
    rw [Table.entry]
    change (t.services i).bind (update t.memory ptr (some si)) = _
    rw [hp, Option.bind_some, update_of_ne hne, hmem]
  distinct := h.distinct

theorem register (h : Holds t qs) (hfree : t.memory ptr = none) (si : QuerySet) :
    Holds { t.alloc ptr si with
      services := update t.services t.dwNumServices (some ptr)
      dwNumServices := t.dwNumServices + 1 } (qs ++ [si]) := by
  have halloc := h.alloc hfree si
  have hfresh : ∀ i < qs.length, t.services i ≠ some ptr := by
    intro i hi hptr
    obtain ⟨p, hp, hmem⟩ := h.allocated hi
    obtain rfl : p = ptr := Option.some.inj (hp.symm.trans hptr)
    rw [hfree, List.getElem?_eq_getElem hi] at hmem
    cases hmem
  constructor
  · rw [List.length_append, List.length_singleton, ← h.length]
  · intro i hi
    rw [List.length_append, List.length_singleton] at hi
    change (update t.services t.dwNumServices (some ptr) i).bind
      (update t.memory ptr (some si)) = _
    by_cases hlast : i = t.dwNumServices
    · subst hlast
      rw [update_self, Option.bind_some, update_self, h.length, List.getElem?_concat_length]
    · have hlt : i < qs.length := by
        have hlength := h.length
        omega
      rw [update_of_ne hlast, List.getElem?_append_left hlt]
      exact halloc.entry i hlt
  · intro i hi j hj heq
    rw [List.length_append, List.length_singleton] at hi hj
    have hlength := h.length
    change update t.services t.dwNumServices (some ptr) i =
      update t.services t.dwNumServices (some ptr) j at heq
    by_cases hi' : i = t.dwNumServices
    · by_cases hj' : j = t.dwNumServices
      · omega
      · rw [hi', update_self, update_of_ne hj'] at heq
        exact absurd heq.symm (hfresh j (by omega))
    · rw [update_of_ne hi'] at heq
      by_cases hj' : j = t.dwNumServices
      · rw [hj', update_self] at heq
        exact absurd heq (hfresh i (by omega))
      · rw [update_of_ne hj'] at heq
        exact h.distinct i (by omega) j (by omega) heq

theorem services_remove {i j : ℕ} (ptr : Ptr) (hi : i < t.dwNumServices)
    (hj : j < t.dwNumServices - 1) : (t.remove i ptr).services j =
      t.services (if j = i then t.dwNumServices - 1 else j) := by
  change update (update t.services i none) i (update t.services i none (t.dwNumServices - 1)) j = _
  by_cases hji : j = i
  · subst hji
    rw [update_self, if_pos rfl, update_of_ne (by omega)]
  · rw [update_of_ne hji, if_neg hji, update_of_ne hji]

theorem remove (h : Holds t qs) {i : ℕ} (hi : i < qs.length)
    (hptr : t.services i = some ptr) : Holds (t.remove i ptr) (swapRemove qs i) := by
  have hlength := h.length
  have hlen : (swapRemove qs i).length = qs.length - 1 := by
    rw [(swapRemove_perm hi).length_eq, List.length_eraseIdx_of_lt hi]
  have hsource : ∀ j < qs.length - 1, (if j = i then t.dwNumServices - 1 else j) < qs.length ∧
        (if j = i then t.dwNumServices - 1 else j) ≠ i := by
    intro j hj
    split <;> omega
  constructor
  · rw [hlen, ← hlength]
    rfl
  · intro j hj
    rw [hlen] at hj
    obtain ⟨hlt, hne⟩ := hsource j hj
    obtain ⟨p, hp, hmem⟩ := h.allocated hlt
    have hpne : p ≠ ptr := by
      rintro rfl
      exact hne (h.distinct _ hlt _ hi (hp.trans hptr.symm))
    rw [Table.entry, services_remove ptr (by rwa [hlength]) (by rwa [hlength]), hp,
      Option.bind_some]
    change update t.memory ptr none p = _
    rw [update_of_ne hpne, hmem]
    obtain ⟨last, hlast⟩ : ∃ last, qs.getLast? = some last := by
      rw [List.getLast?_eq_getElem?]
      exact ⟨_, List.getElem?_eq_getElem (by omega)⟩
    have hinside : j < (qs.set i last).length - 1 := by
      rw [List.length_set]
      exact hj
    rw [swapRemove, hlast]
    simp only
    rw [List.getElem?_dropLast, if_pos hinside]
    by_cases hji : j = i
    · rw [if_pos hji, hji, List.getElem?_set_self hi, ← hlast, List.getLast?_eq_getElem?, hlength]
    · rw [if_neg hji, List.getElem?_set_ne (Ne.symm hji)]
  · intro j hj k hk heq
    rw [hlen] at hj hk
    rw [services_remove ptr (by omega) (by omega), services_remove ptr (by omega) (by omega)] at heq
    have hsame := h.distinct _ (hsource j hj).1 _ (hsource k hk).1 heq
    split at hsame <;> split at hsame <;> omega

end Holds

/-! ## The requests -/

theorem findService_eq (h : Holds t qs) (service : Name) (i n : ℕ) (hin : i + n = qs.length) :
    findService lstrcmpW service t i n =
      some (((qs.drop i).findIdx? fun q => lstrcmpW service q.lpszServiceInstanceName).map
        (· + i)) := by
  induction n generalizing i with
  | zero =>
      rw [List.drop_eq_nil_of_le (by omega)]
      rfl
  | succ n ih =>
      have hi : i < qs.length := by omega
      rw [List.drop_eq_getElem_cons hi, List.findIdx?_cons, findService, h.entry i hi,
        List.getElem?_eq_getElem hi]
      simp only [Option.bind_eq_bind, Option.bind_some]
      by_cases hname : lstrcmpW service qs[i].lpszServiceInstanceName = true
      · rw [if_pos hname, if_pos hname, Option.map_some, Nat.zero_add]
      · rw [if_neg hname, if_neg hname, ih (i + 1) (by omega), Option.map_map]
        congr 2
        funext j
        change j + (i + 1) = j + 1 + i
        omega

theorem lookupService_eq (h : Holds t qs) (guid : Option Guid) (service : Name) :
    lookupService lstrcmpW guid service t =
      (lookupServiceClass guid t.serviceClasses).map fun found =>
        found.bind fun _ => qs.findIdx? fun q => lstrcmpW service q.lpszServiceInstanceName := by
  rw [lookupService]
  rcases lookupServiceClass guid t.serviceClasses with _ | _ | sc
  · rfl
  · rfl
  · change findService lstrcmpW service t 0 t.dwNumServices = _
    rw [findService_eq h service 0 t.dwNumServices (by rw [Nat.zero_add, h.length])]
    simp

variable {guid : Option Guid} {r : TableRequest}

theorem lookupService_found (h : Holds t qs) {service : Name} {i : ℕ}
    (hfound : lookupService lstrcmpW guid service t = some (some i)) :
    ∃ hi : i < qs.length, lstrcmpW service qs[i].lpszServiceInstanceName = true := by
  rw [lookupService_eq h, Option.map_eq_some_iff] at hfound
  obtain ⟨found, -, hindex⟩ := hfound
  obtain ⟨sc, -, hindex⟩ := Option.bind_eq_some_iff.mp hindex
  obtain ⟨hi, hname, -⟩ := List.findIdx?_eq_some_iff_getElem.mp hindex
  exact ⟨hi, hname⟩

theorem registerService_holds (h : Holds t qs)
    (hserve : registerService lstrcmpW ptr si t = some (t', code)) :
    code = mynspSuccess ∧ Holds t' (qs ++ [si]) ∨
      code = mynspError ∧ Holds t' qs ∧ t' = t.alloc ptr si := by
  rw [registerService] at hserve
  by_cases hfree : t.memory ptr = none
  · rw [if_neg (by rw [hfree]; exact fun hne => hne rfl)] at hserve
    obtain ⟨found, hfound, hserve⟩ := Option.bind_eq_some_iff.mp hserve
    cases found with
    | some i =>
        obtain ⟨rfl, rfl⟩ := Prod.mk.inj (Option.some.inj hserve)
        exact .inr ⟨rfl, h.alloc hfree si, rfl⟩
    | none =>
        simp only at hserve
        split at hserve
        · obtain ⟨rfl, rfl⟩ := Prod.mk.inj (Option.some.inj hserve)
          exact .inl ⟨rfl, h.register hfree si⟩
        · cases hserve
  · rw [if_pos hfree] at hserve
    cases hserve

/-- A request to deregister a service removes one entry with the name, or leaves the
array as it is. -/
theorem deregisterService_holds (h : Holds t qs)
    (hserve : deregisterService lstrcmpW ptr si t = some (t', code)) :
    (∃ i, ∃ hi : i < qs.length, code = mynspSuccess ∧
        lstrcmpW si.lpszServiceInstanceName qs[i].lpszServiceInstanceName = true ∧
        Holds t' (swapRemove qs i)) ∨ code = mynspError ∧ Holds t' qs ∧ t' = t.alloc ptr si := by
  rw [deregisterService] at hserve
  by_cases hfree : t.memory ptr = none
  · rw [if_neg (by rw [hfree]; exact fun hne => hne rfl)] at hserve
    obtain ⟨found, hfound, hserve⟩ := Option.bind_eq_some_iff.mp hserve
    cases found with
    | none =>
        obtain ⟨rfl, rfl⟩ := Prod.mk.inj (Option.some.inj hserve)
        exact .inr ⟨rfl, h.alloc hfree si, rfl⟩
    | some i =>
        obtain ⟨hi, hname⟩ := lookupService_found (h.alloc hfree si) hfound
        obtain ⟨service, hservice, hserve⟩ := Option.bind_eq_some_iff.mp hserve
        obtain ⟨rfl, rfl⟩ := Prod.mk.inj (Option.some.inj hserve)
        exact .inl ⟨i, hi, rfl, hname, (h.alloc hfree si).remove hi hservice⟩
  · rw [if_pos hfree] at hserve
    cases hserve

theorem serve_step (h : Holds t qs) (hserve : serve lstrcmpW t r = some (t', code)) :
    ∃ qs', Holds t' qs' ∧
      RegistryStep lstrcmpW (qs : Multiset QuerySet) (r, code) (qs' : Multiset QuerySet) := by
  rcases r with ⟨ptr, si⟩ | ⟨ptr, si⟩ | serviceClasses
  · rcases registerService_holds h hserve with ⟨rfl, hholds⟩ | ⟨rfl, hholds, -⟩
    · refine ⟨qs ++ [si], hholds, ?_⟩
      have hcons : ((qs ++ [si] : List QuerySet) : Multiset QuerySet) = si ::ₘ qs := by
        rw [Multiset.cons_coe]
        exact Multiset.coe_eq_coe.mpr (List.perm_append_singleton si qs)
      rw [hcons]
      exact .registered _ ptr si
    · exact ⟨qs, hholds, .refused _ ptr si⟩
  · rcases deregisterService_holds h hserve with
      ⟨i, hi, rfl, hname, hholds⟩ | ⟨rfl, hholds, -⟩
    · refine ⟨swapRemove qs i, hholds, ?_⟩
      have hcons : (qs : Multiset QuerySet) = qs[i] ::ₘ (swapRemove qs i : Multiset QuerySet) := by
        rw [Multiset.cons_coe]
        apply Multiset.coe_eq_coe.mpr
        exact (List.getElem_cons_eraseIdx_perm hi).symm.trans ((swapRemove_perm hi).symm.cons qs[i])
      rw [hcons]
      exact .deregistered _ ptr si qs[i] hname
    · exact ⟨qs, hholds, .unknown _ ptr si⟩
  · obtain ⟨rfl, rfl⟩ := Prod.mk.inj (Option.some.inj hserve)
    exact ⟨qs, ⟨h.length, h.entry, h.distinct⟩, .changed _ serviceClasses _⟩

theorem run_holds (h : Holds t qs) {requests : List TableRequest}
    {answers : List (TableRequest × ℤ)} (hrun : run lstrcmpW t requests = some (t', answers)) :
    answers.map Prod.fst = requests ∧ ∃ qs', Holds t' qs' ∧
      RegistryRun lstrcmpW (qs : Multiset QuerySet) answers (qs' : Multiset QuerySet) := by
  induction requests generalizing t qs answers with
  | nil =>
      obtain ⟨rfl, rfl⟩ := Prod.mk.inj (Option.some.inj hrun)
      exact ⟨rfl, qs, h, .nil _⟩
  | cons r requests ih =>
      obtain ⟨⟨t₁, code⟩, hserve, hrest⟩ := Option.bind_eq_some_iff.mp hrun
      obtain ⟨⟨t₂, rest⟩, hrun', hlast⟩ := Option.bind_eq_some_iff.mp hrest
      obtain ⟨rfl, rfl⟩ := Prod.mk.inj (Option.some.inj hlast)
      obtain ⟨qs₁, hholds, hstep⟩ := serve_step h hserve
      obtain ⟨hanswers, qs', hholds', hsteps⟩ := ih hholds hrun'
      refine ⟨?_, qs', hholds', .cons hstep hsteps⟩
      rw [List.map_cons, hanswers]

/-- After any requests the live part of the array is, up to the order, the services
registered and not yet deregistered with success; each entry is allocated, at an address
of its own.  A further request that succeeds adds its service, or removes one entry with
its name; one that fails changes nothing. -/
theorem services_refine_multiset {serviceClasses : List ServiceClass}
    {requests : List TableRequest} {answers : List (TableRequest × ℤ)}
    (hrun : run lstrcmpW (Table.create serviceClasses) requests = some (t, answers)) :
    answers.map Prod.fst = requests ∧
      (∃ services : Multiset QuerySet, RegistryRun lstrcmpW 0 answers services ∧
        (t.entries : Multiset (Option QuerySet)) = services.map some) ∧
      (∀ i < t.dwNumServices, ∃ p, t.services i = some p ∧ t.memory p ≠ none ∧
        ∀ j < t.dwNumServices, t.services j = some p → j = i) ∧
      (∀ ptr si t' code, registerService lstrcmpW ptr si t = some (t', code) →
        code = mynspSuccess ∧ t'.entries = t.entries ++ [some si] ∨
          code = mynspError ∧ t'.services = t.services ∧
            t'.dwNumServices = t.dwNumServices ∧ t'.entries = t.entries) ∧
      ∀ ptr si t' code, deregisterService lstrcmpW ptr si t = some (t', code) →
        (∃ i service, code = mynspSuccess ∧ t.entries[i]? = some (some service) ∧
          lstrcmpW si.lpszServiceInstanceName service.lpszServiceInstanceName = true ∧
            t'.entries.Perm (t.entries.eraseIdx i)) ∨
          code = mynspError ∧ t'.services = t.services ∧
            t'.dwNumServices = t.dwNumServices ∧ t'.entries = t.entries := by
  obtain ⟨hanswers, qs, hholds, hsteps⟩ := run_holds (holds_create serviceClasses) hrun
  refine ⟨hanswers, ⟨qs, hsteps, ?_⟩, ?_, ?_, ?_⟩
  · rw [hholds.entries_eq, Multiset.map_coe]
  · intro i hi
    rw [hholds.length] at hi ⊢
    obtain ⟨p, hp, hmem⟩ := hholds.allocated hi
    refine ⟨p, hp, ?_, fun j hj hj' => hholds.distinct j hj i hi (hj'.trans hp.symm)⟩
    rw [hmem, List.getElem?_eq_getElem hi]
    exact Option.some_ne_none _
  · intro ptr si t' code hserve
    rcases registerService_holds hholds hserve with ⟨hcode, hholds'⟩ | ⟨hcode, hholds', ht'⟩
    · left
      refine ⟨hcode, ?_⟩
      rw [hholds'.entries_eq, hholds.entries_eq, List.map_append]
      rfl
    · right
      refine ⟨hcode, ?_, ?_, hholds'.entries_eq.trans hholds.entries_eq.symm⟩
      · rw [ht']
        rfl
      · rw [ht']
        rfl
  · intro ptr si t' code hserve
    rcases deregisterService_holds hholds hserve with
      ⟨i, hi, hcode, hname, hholds'⟩ | ⟨hcode, hholds', ht'⟩
    · left
      refine ⟨i, qs[i], hcode, ?_, hname, ?_⟩
      · rw [hholds.entries_eq, List.getElem?_map, List.getElem?_eq_getElem hi]
        rfl
      · rw [hholds.entries_eq, hholds'.entries_eq, List.eraseIdx_map]
        exact (swapRemove_perm hi).map some
    · right
      refine ⟨hcode, ?_, ?_, hholds'.entries_eq.trans hholds.entries_eq.symm⟩
      · rw [ht']
        rfl
      · rw [ht']
        rfl

/-- Three services and the first deregistered: the last one stands in its place. -/
theorem services_refine_multiset_three :
    ∃ t answers, run sameName (Table.create [⟨some [1], []⟩])
        [.registerService 10 (namedQuerySet [65]), .registerService 20 (namedQuerySet [66]),
         .registerService 30 (namedQuerySet [67]), .deregisterService 40 (namedQuerySet [65])] =
          some (t, answers) ∧
      t.entries = [some (namedQuerySet [67]), some (namedQuerySet [66])] ∧
      ∃ services : Multiset QuerySet, RegistryRun sameName 0 answers services ∧
        (t.entries : Multiset (Option QuerySet)) = services.map some := by
  have hrun := (Option.some_get (x := run sameName (Table.create [⟨some [1], []⟩])
    [.registerService 10 (namedQuerySet [65]), .registerService 20 (namedQuerySet [66]),
     .registerService 30 (namedQuerySet [67]), .deregisterService 40 (namedQuerySet [65])])
    (by decide)).symm
  exact ⟨_, _, hrun, by decide, (services_refine_multiset hrun).2.1⟩

end MiscProjects.NameService.ServiceTable
