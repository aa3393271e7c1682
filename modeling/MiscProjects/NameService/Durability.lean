import MiscProjects.NameService.Integrity

/-!
# Capacity and durability

The three tables are arrays of fixed size.  The bound that is tested for the
classes is the one of the services, and for the services none is tested; a
lookup that finds the table of the queries full is answered with a handle that
has not been set.  Below the bounds nothing is lost: what has been registered
with success is found until it is deregistered.
-/

namespace MiscProjects.NameService

open MiscProjects.Runs MiscProjects.SwapRemove

/-- The numbers of entries of the three tables. -/
structure Counts where
  dwNumServiceClasses : ℕ
  dwNumServices : ℕ
  dwNumQueries : ℕ
deriving DecidableEq

def Server.counts (s : Server) : Counts :=
  { dwNumServiceClasses := s.serviceClasses.length,
    dwNumServices := s.services.length,
    dwNumQueries := s.queryInfo.length }

/-- The numbers stay within the arrays. -/
def Counts.Fit (c : Counts) : Prop :=
  c.dwNumServiceClasses ≤ maxServiceClasses ∧ c.dwNumServices ≤ maxServices ∧
    c.dwNumQueries ≤ maxQueries

instance (c : Counts) : Decidable c.Fit :=
  inferInstanceAs (Decidable (_ ∧ _))

section Names
variable (lstrcmpW : Name → Name → Bool)

/-- The numbers after a request, also where the entry that is added lies
outside of its array. -/
def countsAfter (s : Server) : Request → Option Counts
  | .registerClass sc => do
      match ← lookupServiceClass sc.lpServiceClassId s.serviceClasses with
      | some _ => some s.counts
      | none =>
          if maxServices ≤ s.serviceClasses.length then some s.counts
          else some { s.counts with
            dwNumServiceClasses := s.serviceClasses.length + 1 }
  | .registerService si => do
      match ← lookupService lstrcmpW si.lpServiceClassId
          si.lpszServiceInstanceName s with
      | some _ => some s.counts
      | none => some { s.counts with dwNumServices := s.services.length + 1 }
  | r => (serve lstrcmpW s r).map (·.1.counts)

/-- A new class or service has room in its array, its class id is not `NULL`,
and a new query has room in the table and a handle that is not in use; and no
request to deregister removes a class or a service of another class id. -/
def HasRoom (s : Server) : Request → Prop
  | .registerClass sc =>
      sc.lpServiceClassId ≠ none ∧
        (lookupServiceClass sc.lpServiceClassId s.serviceClasses = some none →
          s.serviceClasses.length < maxServiceClasses)
  | .registerService si =>
      lookupService lstrcmpW si.lpServiceClassId si.lpszServiceInstanceName s =
        some none → s.services.length < maxServices
  | .deregisterClass guid =>
      ∀ i ∈ s.serviceClasses.findIdx? (fun sc => guid == sc.fixedPart),
        s.serviceClasses[i]?.map (·.lpServiceClassId) = some (some guid)
  | .deregisterService si =>
      ∀ i ∈ (lookupService lstrcmpW si.lpServiceClassId
          si.lpszServiceInstanceName s).join,
        s.services[i]?.map (·.querySet.lpServiceClassId) =
          some si.lpServiceClassId
  | .lookupServiceBegin si =>
      s.queryInfo.length < maxQueries ∧ FreshHandle s (.lookupServiceBegin si)
  | _ => True

instance (s : Server) (r : Request) : Decidable (HasRoom lstrcmpW s r) :=
  match r with
  | .registerClass sc =>
      inferInstanceAs (Decidable (sc.lpServiceClassId ≠ none ∧
        (lookupServiceClass sc.lpServiceClassId s.serviceClasses = some none →
          s.serviceClasses.length < maxServiceClasses)))
  | .registerService si =>
      inferInstanceAs (Decidable (lookupService lstrcmpW si.lpServiceClassId
        si.lpszServiceInstanceName s = some none →
          s.services.length < maxServices))
  | .deregisterClass guid =>
      inferInstanceAs (Decidable (∀ i ∈ s.serviceClasses.findIdx?
          (fun sc => guid == sc.fixedPart),
        s.serviceClasses[i]?.map (·.lpServiceClassId) = some (some guid)))
  | .deregisterService si =>
      inferInstanceAs (Decidable (∀ i ∈ (lookupService lstrcmpW
          si.lpServiceClassId si.lpszServiceInstanceName s).join,
        s.services[i]?.map (·.querySet.lpServiceClassId) =
          some si.lpServiceClassId))
  | .lookupServiceBegin si =>
      inferInstanceAs (Decidable (s.queryInfo.length < maxQueries ∧
        FreshHandle s (.lookupServiceBegin si)))
  | .lookupClass _ | .lookupServiceNext _ | .lookupServiceEnd _ =>
      inferInstanceAs (Decidable True)

/-! ## What it means to be found -/

/-- The request to look up the class is answered with the class. -/
def ClassFound (sc : ServiceClass) (s : Server) : Prop :=
  ∃ guid, sc.lpServiceClassId = some guid ∧
    lookupServiceClass (some guid) s.serviceClasses = some (some sc)

/-- The service is in the table, and no search that matches it and has not
passed it goes past it. -/
def ServiceFound (service : Service) (s : Server) : Prop :=
  ∃ i, s.services[i]? = some service ∧
    ∀ q cursor, Matches lstrcmpW q service → cursor ≤ i →
      ∃ j found,
        firstMatch lstrcmpW q cursor (s.services.drop cursor) =
          some (some (j, found)) ∧
        j ≤ i ∧ (j = i → found = service)

/-- The handle leads to the query with its parameters. -/
def QueryFound (h : Handle) (q : QuerySet) (s : Server) : Prop :=
  ∃ index info, findQuery h s = some index ∧
    s.queryInfo[index]? = some info ∧ info.query = q

/-- The request deregisters the service. -/
def Deregisters (r : Request) (service : Service) : Prop :=
  match r with
  | .deregisterService si =>
      si.lpServiceClassId = service.querySet.lpServiceClassId ∧
        lstrcmpW si.lpszServiceInstanceName
          service.querySet.lpszServiceInstanceName = true
  | _ => False

instance (r : Request) (service : Service) :
    Decidable (Deregisters lstrcmpW r service) :=
  match r with
  | .deregisterService si =>
      inferInstanceAs (Decidable (si.lpServiceClassId =
          service.querySet.lpServiceClassId ∧
        lstrcmpW si.lpszServiceInstanceName
          service.querySet.lpszServiceInstanceName = true))
  | .registerClass _ | .deregisterClass _ | .lookupClass _ | .registerService _
  | .lookupServiceBegin _ | .lookupServiceNext _ | .lookupServiceEnd _ =>
      inferInstanceAs (Decidable False)

variable {lstrcmpW} {s s' t : Server} {r : Request} {answer : Response}

variable {during : List Request} {sc : ServiceClass} {service : Service} {q : QuerySet}

theorem firstMatch_of_matches {k n : ℕ} {services : List Service}
    (hget : services[n]? = some service) (hmatch : Matches lstrcmpW q service) :
    ∃ m found, firstMatch lstrcmpW q k services = some (some (k + m, found)) ∧
      m ≤ n ∧ (m = n → found = service) := by
  obtain ⟨name, hname, -⟩ := Option.map_eq_some_iff.mp hmatch
  induction services generalizing k n with
  | nil => simp at hget
  | cons head rest ih =>
      cases hhead : matchesQuery lstrcmpW q head.querySet with
      | none => simp [matchesQuery, hname] at hhead
      | some ok =>
          cases ok with
          | true =>
              refine ⟨0, head, by simp [firstMatch, hhead], Nat.zero_le n, ?_⟩
              rintro rfl
              exact Option.some.inj hget
          | false =>
              cases n with
              | zero =>
                  have hsame : head = service := Option.some.inj hget
                  subst hsame
                  have htrue := hhead.symm.trans hmatch
                  cases htrue
              | succ n =>
                  obtain ⟨m, found, hfirst, hle, heq⟩ := ih (k := k + 1) hget
                  refine ⟨m + 1, found, ?_, Nat.succ_le_succ hle, fun h => heq (Nat.succ.inj h)⟩
                  simp only [firstMatch, hhead, Option.bind_eq_bind,
                    Option.bind_some, Bool.false_eq_true, if_false, hfirst]
                  rw [Nat.add_assoc, Nat.add_comm 1 m]

theorem serviceFound_of_mem (hmem : service ∈ s.services) : ServiceFound lstrcmpW service s := by
  obtain ⟨i, hi⟩ := List.mem_iff_getElem?.mp hmem
  refine ⟨i, hi, fun q cursor hmatch hle => ?_⟩
  have hget : (s.services.drop cursor)[i - cursor]? = some service := by
    rw [List.getElem?_drop, Nat.add_sub_cancel' hle]
    exact hi
  obtain ⟨m, found, hfirst, hm, heq⟩ := firstMatch_of_matches (k := cursor) hget hmatch
  exact ⟨cursor + m, found, hfirst, by omega, fun h => heq (by omega)⟩

theorem lookupService_name {guid : Option Guid} {name : Name} {i : ℕ}
    (h : lookupService lstrcmpW guid name s = some (some i)) (hi : s.services[i]? = some service) :
    lstrcmpW name service.querySet.lpszServiceInstanceName = true := by
  simp only [lookupService, Option.bind_eq_bind, Option.bind_eq_some_iff] at h
  obtain ⟨sc, -, h⟩ := h
  cases sc with
  | none => cases h
  | some _ =>
      simp only [Option.some.injEq] at h
      obtain ⟨hlt, hname, -⟩ := List.findIdx?_eq_some_iff_getElem.mp h
      rw [List.getElem?_eq_getElem hlt, Option.some.injEq] at hi
      rw [← hi]
      exact hname

/-- Class ids are there and unique. -/
def ClassIds (s : Server) : Prop :=
  (∀ sc ∈ s.serviceClasses, sc.lpServiceClassId ≠ none) ∧
    (s.serviceClasses.map (·.lpServiceClassId)).Nodup

theorem lookupServiceClass_isSome {guid : Guid} {classes : List ServiceClass}
    (hids : ∀ sc ∈ classes, sc.lpServiceClassId ≠ none) :
    ∃ found, lookupServiceClass (some guid) classes = some found := by
  induction classes with
  | nil => exact ⟨none, rfl⟩
  | cons head rest ih =>
      obtain ⟨found, hfound⟩ := ih fun sc hsc => hids sc (List.mem_cons_of_mem _ hsc)
      cases hid : head.lpServiceClassId with
      | none => exact absurd hid (hids head List.mem_cons_self)
      | some id =>
          simp only [lookupServiceClass, hid, sameClassId, Option.bind_eq_bind,
            Option.bind_some, hfound]
          split
          · exact ⟨_, rfl⟩
          · exact ⟨_, rfl⟩

theorem ClassIds.found (h : ClassIds s) (hmem : sc ∈ s.serviceClasses) : ClassFound sc s := by
  obtain ⟨hids, hnodup⟩ := h
  cases hid : sc.lpServiceClassId with
  | none => exact absurd hid (hids sc hmem)
  | some guid =>
      refine ⟨guid, hid, ?_⟩
      obtain ⟨found, hfound⟩ : ∃ found,
          lookupServiceClass (some guid) s.serviceClasses = some found :=
        lookupServiceClass_isSome hids
      cases found with
      | none => exact absurd hid (lookupServiceClass_none hfound sc hmem)
      | some other =>
          obtain ⟨hother, hsame⟩ := lookupServiceClass_some hfound
          have heq : other = sc :=
            List.inj_on_of_nodup_map hnodup hother hmem (hsame.trans hid.symm)
          rw [hfound, heq]

/-! ## The steps -/

theorem HasRoom.fresh (h : HasRoom lstrcmpW s r) : FreshHandle s r := by
  cases r with
  | lookupServiceBegin si => exact h.2
  | _ => trivial

/-- What holds of the tables in a run in which there is room. -/
structure Kept (s : Server) : Prop where
  fit : s.counts.Fit
  classIds : ClassIds s
  wellFormed : WellFormed s

theorem kept_create : Kept Server.create := by
  refine ⟨by decide, ⟨?_, List.nodup_nil⟩, wellFormed_create⟩
  intro sc hsc
  cases hsc

theorem queries_fit (hfit : s.queryInfo.length ≤ maxQueries) (h : ServeTo lstrcmpW s r s' answer) :
    s'.queryInfo.length ≤ maxQueries := by
  cases h with
  | classes | registered | deregistered | full | noMore => exact hfit
  | begun si hlt =>
      rw [List.length_append, List.length_singleton]
      exact hlt
  | found =>
      rw [List.length_set]
      exact hfit
  | ended hQuery index hindex =>
      have hperm := swapRemove_perm (findQuery_some hindex).1
      rw [hperm.length_eq]
      exact Nat.le_trans (List.eraseIdx_sublist _ _).length_le hfit

theorem Kept.step (h : Kept s) (hroom : HasRoom lstrcmpW s r)
    (hserve : serve lstrcmpW s r = some (s', answer)) : Kept s' := by
  have hto := serveTo_of_serve hserve
  have hwell := h.wellFormed.step hroom.fresh hto
  have hqueries := queries_fit h.fit.2.2 hto
  have hregistry := registryTo_of_serve hserve
  obtain ⟨hclassFit, hserviceFit, -⟩ := h.fit
  obtain ⟨hids, hnodup⟩ := h.classIds
  have hresult : (s'.serviceClasses.length ≤ maxServiceClasses ∧
      s'.services.length ≤ maxServices) ∧ ClassIds s' := by
    unfold ClassIds
    generalize s'.serviceClasses = classes at hregistry ⊢
    generalize s'.services = services at hregistry ⊢
    cases hregistry with
    | refused | ignored | looked =>
        exact ⟨⟨hclassFit, hserviceFit⟩, hids, hnodup⟩
    | classRegistered sc hnew hlt =>
        refine ⟨⟨?_, hserviceFit⟩, ?_, ?_⟩
        · rw [List.length_append, List.length_singleton]
          exact hlt
        · intro other hother
          rcases List.mem_append.mp hother with hother | hother
          · exact hids other hother
          · rw [List.mem_singleton.mp hother]
            exact hroom.1
        · rw [List.map_append, List.map_singleton]
          refine List.nodup_append.mpr ⟨hnodup, List.nodup_singleton _, ?_⟩
          intro id hid other hother
          obtain ⟨entry, hentry, rfl⟩ := List.mem_map.mp hid
          rw [List.mem_singleton.mp hother]
          exact lookupServiceClass_none hnew entry hentry
    | classDeregistered guid i hi =>
        have hsub := List.eraseIdx_sublist s.serviceClasses i
        refine ⟨⟨Nat.le_trans hsub.length_le hclassFit, hserviceFit⟩, ?_, ?_⟩
        · exact fun sc hsc => hids sc (hsub.subset hsc)
        · exact hnodup.sublist (hsub.map _)
    | serviceRegistered si hnew hlt =>
        refine ⟨⟨hclassFit, ?_⟩, hids, hnodup⟩
        rw [List.length_append, List.length_singleton]
        exact hlt
    | serviceDeregistered si i hi =>
        refine ⟨⟨hclassFit, ?_⟩, hids, hnodup⟩
        rw [(swapRemove_perm (lookupService_lt hi)).length_eq]
        exact Nat.le_trans (List.eraseIdx_sublist _ _).length_le hserviceFit
  exact ⟨⟨hresult.1.1, hresult.1.2, hqueries⟩, hresult.2, hwell⟩

theorem kept_of_run {requests : List Request} (h : Kept s)
    (hrun : RunsTo (serverStep lstrcmpW) (HasRoom lstrcmpW) s requests t) : Kept t := by
  refine hrun.invariant Kept h fun s r s' h hroom hstep => ?_
  simp only [serverStep, Option.map_eq_some_iff] at hstep
  obtain ⟨⟨_, answer⟩, hserve, rfl⟩ := hstep
  exact h.step hroom hserve

theorem countsAfter_eq (hroom : HasRoom lstrcmpW s r) :
    countsAfter lstrcmpW s r = (serve lstrcmpW s r).map (·.1.counts) := by
  cases r with
  | registerClass sc =>
      have hbound : maxServiceClasses ≤ maxServices := by decide
      simp only [countsAfter, serve, registerClass, Option.bind_eq_bind]
      cases hlookup : lookupServiceClass sc.lpServiceClassId s.serviceClasses with
      | none => rfl
      | some found =>
          cases found with
          | some _ => rfl
          | none =>
              have hlt := hroom.2 hlookup
              have hnot : ¬ maxServices ≤ s.serviceClasses.length := by omega
              simp [hlt, hnot, Server.counts]
  | registerService si =>
      simp only [countsAfter, serve, registerService, Option.bind_eq_bind]
      cases hlookup : lookupService lstrcmpW si.lpServiceClassId si.lpszServiceInstanceName s with
      | none => rfl
      | some found =>
          cases found with
          | some _ => rfl
          | none =>
              have hlt := hroom hlookup
              simp [hlt, Server.counts]
  | deregisterClass | lookupClass | deregisterService | lookupServiceBegin
  | lookupServiceNext | lookupServiceEnd => rfl

theorem class_stays (hmem : sc ∈ s.serviceClasses) (hroom : HasRoom lstrcmpW s r)
    (hkeeps : ∀ guid, sc.lpServiceClassId = some guid → r ≠ .deregisterClass guid)
    (hserve : serve lstrcmpW s r = some (s', answer)) : sc ∈ s'.serviceClasses := by
  have hregistry := registryTo_of_serve hserve
  generalize s'.serviceClasses = classes at hregistry ⊢
  generalize s'.services = services at hregistry
  cases hregistry with
  | refused | ignored | looked | serviceRegistered | serviceDeregistered =>
      exact hmem
  | classRegistered => exact List.mem_append_left _ hmem
  | classDeregistered guid i hi =>
      have hid := hroom i hi
      obtain ⟨j, hj⟩ := List.mem_iff_getElem?.mp hmem
      refine List.mem_eraseIdx_iff_getElem?.mpr ⟨j, ?_, hj⟩
      rintro rfl
      rw [hj, Option.map_some, Option.some.injEq] at hid
      exact hkeeps guid hid rfl

theorem service_stays (hmem : service ∈ s.services) (hroom : HasRoom lstrcmpW s r)
    (hkeeps : ¬ Deregisters lstrcmpW r service) (hserve : serve lstrcmpW s r = some (s', answer)) :
    service ∈ s'.services := by
  have hregistry := registryTo_of_serve hserve
  generalize s'.serviceClasses = classes at hregistry
  generalize s'.services = services at hregistry ⊢
  cases hregistry with
  | refused | ignored | looked | classRegistered | classDeregistered =>
      exact hmem
  | serviceRegistered => exact List.mem_append_left _ hmem
  | serviceDeregistered si i hi =>
      have hclass := hroom i (by rw [hi]; rfl)
      obtain ⟨j, hj⟩ := List.mem_iff_getElem?.mp hmem
      refine mem_swapRemove_of_ne (lookupService_lt hi) hj ?_
      rintro rfl
      rw [hj, Option.map_some, Option.some.injEq] at hclass
      exact hkeeps ⟨hclass.symm, lookupService_name hi hj⟩

theorem query_stays {h : Handle} (hmem : ∃ info ∈ s.queryInfo, info.hHandle = h ∧ info.query = q)
    (hkeeps : r ≠ .lookupServiceEnd h) (hserve : serve lstrcmpW s r = some (s', answer)) :
    ∃ info ∈ s'.queryInfo, info.hHandle = h ∧ info.query = q := by
  obtain ⟨info, hinfo, hhandle, hquery⟩ := hmem
  have hto := serveTo_of_serve hserve
  cases hto with
  | classes | registered | deregistered | full | noMore =>
      exact ⟨info, hinfo, hhandle, hquery⟩
  | begun =>
      exact ⟨info, List.mem_append_left _ hinfo, hhandle, hquery⟩
  | found hQuery index other i service hindex hother hmatch =>
      obtain ⟨j, hj⟩ := List.mem_iff_getElem?.mp hinfo
      by_cases heq : j = index
      · subst heq
        have hsame : other = info := Option.some.inj (hother.symm.trans hj)
        subst hsame
        exact ⟨_, List.mem_set (findQuery_some hindex).1 _, hhandle, hquery⟩
      · refine ⟨info, List.mem_of_getElem? (i := j) ?_, hhandle, hquery⟩
        rw [List.getElem?_set_ne fun h => heq h.symm]
        exact hj
  | ended hQuery index hindex =>
      have hne : hQuery ≠ h := fun heq => hkeeps (heq ▸ rfl)
      obtain ⟨j, hj, hji⟩ := getElem?_other hindex hinfo hhandle hne
      exact ⟨info, mem_swapRemove_of_ne (findQuery_some hindex).1 hj hji, hhandle, hquery⟩

/-! ## Runs -/

section Until
variable (lstrcmpW)

/-- There is room, and the class is not deregistered. -/
def KeepsClass (sc : ServiceClass) (s : Server) (r : Request) : Prop :=
  HasRoom lstrcmpW s r ∧
    ∀ guid ∈ sc.lpServiceClassId, r ≠ .deregisterClass guid

instance (sc : ServiceClass) (s : Server) (r : Request) :
    Decidable (KeepsClass lstrcmpW sc s r) :=
  inferInstanceAs (Decidable (_ ∧ _))

/-- There is room, and the service is not deregistered. -/
def KeepsService (service : Service) (s : Server) (r : Request) : Prop :=
  HasRoom lstrcmpW s r ∧ ¬ Deregisters lstrcmpW r service

/-- There is room, and the query is not ended. -/
def KeepsQuery (h : Handle) (s : Server) (r : Request) : Prop :=
  HasRoom lstrcmpW s r ∧ r ≠ .lookupServiceEnd h

end Until

theorem kept_run {ok : Server → Request → Prop} {inv : Server → Prop} (hkept : Kept s)
    (hinv : inv s) (hroom : ∀ s r, ok s r → HasRoom lstrcmpW s r)
    (hstep : ∀ s r s' answer, inv s → ok s r → serve lstrcmpW s r = some (s', answer) → inv s')
    (hrun : RunsTo (serverStep lstrcmpW) ok s during t) : Kept t ∧ inv t := by
  refine hrun.invariant (fun s => Kept s ∧ inv s) ⟨hkept, hinv⟩ fun s r s' h hok hs => ?_
  simp only [serverStep, Option.map_eq_some_iff] at hs
  obtain ⟨⟨_, answer⟩, hserve, rfl⟩ := hs
  exact ⟨h.1.step (hroom s r hok) hserve, hstep s r _ answer h.2 hok hserve⟩

theorem class_found (h : Kept s) (hroom : HasRoom lstrcmpW s (.registerClass sc))
    (hserve : serve lstrcmpW s (.registerClass sc) = some (s', .ret mynspSuccess))
    (hduring : RunsTo (serverStep lstrcmpW) (KeepsClass lstrcmpW sc) s' during
      t) : ClassFound sc t := by
  have hmem : sc ∈ s'.serviceClasses := by
    have hregistry := registryTo_of_serve hserve
    generalize s'.serviceClasses = classes at hregistry ⊢
    generalize s'.services = services at hregistry
    generalize hanswer : Response.ret mynspSuccess = answer at hregistry
    cases hregistry with
    | refused => exact absurd hanswer (by decide)
    | ignored _ hfull =>
        have hbound : maxServiceClasses < maxServices := by decide
        have hfit : s.serviceClasses.length ≤ maxServiceClasses := h.fit.1
        omega
    | looked _ _ hlookup => cases hlookup
    | classRegistered => exact List.mem_append_right _ (List.mem_singleton_self _)
  have hkept := kept_run (h.step hroom hserve) hmem (fun _ _ hok => hok.1)
    (fun s r s' answer hmem hok => class_stays hmem hok.1 hok.2) hduring
  exact hkept.1.classIds.found hkept.2

theorem service_found {si : QuerySet} (h : Kept s)
    (hroom : HasRoom lstrcmpW s (.registerService si))
    (hserve : serve lstrcmpW s (.registerService si) = some (s', .ret mynspSuccess))
    (hduring : RunsTo (serverStep lstrcmpW) (KeepsService lstrcmpW ⟨s.nextPtr, si⟩) s' during t) :
    ServiceFound lstrcmpW ⟨s.nextPtr, si⟩ t := by
  have hmem : (⟨s.nextPtr, si⟩ : Service) ∈ s'.services := by
    have hregistry := registryTo_of_serve hserve
    generalize s'.serviceClasses = classes at hregistry
    generalize s'.services = services at hregistry ⊢
    generalize hanswer : Response.ret mynspSuccess = answer at hregistry
    cases hregistry with
    | refused => exact absurd hanswer (by decide)
    | looked _ _ hlookup => cases hlookup
    | serviceRegistered =>
        exact List.mem_append_right _ (List.mem_singleton_self _)
  have hkept := kept_run (h.step hroom hserve) hmem (fun _ _ hok => hok.1)
    (fun s r s' answer hmem hok => service_stays hmem hok.1 hok.2) hduring
  exact serviceFound_of_mem hkept.2

theorem query_found {answered : Option Handle} (h : Kept s)
    (hroom : HasRoom lstrcmpW s (.lookupServiceBegin q))
    (hserve : serve lstrcmpW s (.lookupServiceBegin q) = some (s', .handle answered)) :
    ∃ handle, answered = some handle ∧
      ∀ during t, RunsTo (serverStep lstrcmpW) (KeepsQuery lstrcmpW handle) s'
        during t → QueryFound handle q t := by
  have hkept' := h.step hroom hserve
  have hto := serveTo_of_serve hserve
  cases hto with
  | full =>
      have hnot : ¬ maxQueries ≤ s.queryInfo.length := Nat.not_le.mpr hroom.1
      simp [serve, registerQuery, hnot] at hserve
  | begun _ hlt =>
      refine ⟨_, rfl, fun during t hduring => ?_⟩
      have hmem : Kept t ∧ ∃ info ∈ t.queryInfo,
          info.hHandle = s.dwHandleValue + 1 ∧ info.query = q := kept_run hkept'
          ⟨_, List.mem_append_right _ (List.mem_singleton_self _), rfl, rfl⟩ (fun _ _ hok => hok.1)
          (fun s r s' answer hmem hok => query_stays hmem hok.2) hduring
      obtain ⟨hkept, info, hinfo, hhandle, hquery⟩ := hmem
      obtain ⟨index, hindex, hget⟩ := hkept.wellFormed.findQuery_eq hinfo hhandle
      exact ⟨index, info, hindex, hget, hquery⟩

end Names

/-- The service with two classes. -/
def twoClasses : Server :=
  { serviceClasses :=
      [⟨some (classId 1), classId 7⟩, ⟨some (classId 2), []⟩],
    services := [], queryInfo := [], dwHandleValue := 0, nextPtr := 0 }

/-- `n` requests to register classes with different ids. -/
def registerClasses (n : ℕ) : List Request :=
  (List.range n).map fun i => .registerClass ⟨some (classId (.ofNat i)), []⟩

/-- `n` requests to begin a lookup. -/
def lookupsBegun (n : ℕ) : List Request :=
  List.replicate n (.lookupServiceBegin (namedQuerySet [42]))

end MiscProjects.NameService
