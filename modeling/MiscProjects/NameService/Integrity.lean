import MiscProjects.NameService.Enumeration

/-!
# The integrity of the registry

Class ids are unique, services belong to registered classes, and no class has
two services of one name.  The requests that register check the first and the
last; that the class of a service is registered is checked by `LookupService`,
whose answer for a missing class is the one for a new name.
`DeregisterServiceClass` compares the id with the bytes of the registered
structures and removes what it finds, whether or not services belong to it.
-/

namespace MiscProjects.NameService

open MiscProjects.Runs MiscProjects.SwapRemove

/-! ## What a request does to the registry -/

/-- The requests that only look the registry up. -/
def Request.isLookup : Request → Bool
  | .lookupClass _ | .lookupServiceBegin _ | .lookupServiceNext _
  | .lookupServiceEnd _ => true
  | _ => false

section Names
variable (lstrcmpW : Name → Name → Bool)

/-- What a request does to the classes and to the services, and what it is
answered. -/
inductive RegistryTo (s : Server) :
    Request → List ServiceClass → List Service → Response → Prop
  | refused (r : Request) :
      RegistryTo s r s.serviceClasses s.services (.ret mynspError)
  | ignored (sc : ServiceClass) (hfull : maxServices ≤ s.serviceClasses.length) :
      RegistryTo s (.registerClass sc) s.serviceClasses s.services
        (.ret mynspSuccess)
  | looked (r : Request) (answer : Response) (hlookup : r.isLookup = true) :
      RegistryTo s r s.serviceClasses s.services answer
  | classRegistered (sc : ServiceClass)
      (hnew : lookupServiceClass sc.lpServiceClassId s.serviceClasses =
        some none)
      (hlt : s.serviceClasses.length < maxServiceClasses) :
      RegistryTo s (.registerClass sc) (s.serviceClasses ++ [sc]) s.services
        (.ret mynspSuccess)
  | classDeregistered (guid : Guid) (i : ℕ)
      (hi : s.serviceClasses.findIdx? (fun sc => guid == sc.fixedPart) =
        some i) :
      RegistryTo s (.deregisterClass guid) (s.serviceClasses.eraseIdx i)
        s.services (.ret mynspSuccess)
  | serviceRegistered (si : QuerySet)
      (hnew : lookupService lstrcmpW si.lpServiceClassId
        si.lpszServiceInstanceName s = some none)
      (hlt : s.services.length < maxServices) :
      RegistryTo s (.registerService si) s.serviceClasses
        (s.services ++ [⟨s.nextPtr, si⟩]) (.ret mynspSuccess)
  | serviceDeregistered (si : QuerySet) (i : ℕ)
      (hi : lookupService lstrcmpW si.lpServiceClassId
        si.lpszServiceInstanceName s = some (some i)) :
      RegistryTo s (.deregisterService si) s.serviceClasses
        (swapRemove s.services i) (.ret mynspSuccess)

variable {lstrcmpW} {s s' : Server} {r : Request} {answer : Response}

variable {si : QuerySet} {guid : Option Guid} {sc : ServiceClass} {classes : List ServiceClass}
  {code : ℤ}

theorem registryTo_registerClass (h : registerClass sc s = some (s', code)) :
    RegistryTo lstrcmpW s (.registerClass sc) s'.serviceClasses s'.services (.ret code) := by
  simp only [registerClass, Option.bind_eq_bind, Option.bind_eq_some_iff] at h
  obtain ⟨found, hfound, h⟩ := h
  cases found with
  | some _ =>
      simp only [Option.some.injEq, Prod.mk.injEq] at h
      obtain ⟨rfl, rfl⟩ := h
      exact .refused _
  | none =>
      simp only at h
      split at h
      next hfull =>
        simp only [Option.some.injEq, Prod.mk.injEq] at h
        obtain ⟨rfl, rfl⟩ := h
        exact .ignored sc hfull
      next =>
        simp only [Option.ite_none_right_eq_some, Option.some.injEq, Prod.mk.injEq] at h
        obtain ⟨hlt, rfl, rfl⟩ := h
        exact .classRegistered sc hfound hlt

theorem registryTo_registerService (h : registerService lstrcmpW si s = some (s', code)) :
    RegistryTo lstrcmpW s (.registerService si) s'.serviceClasses s'.services (.ret code) := by
  simp only [registerService, Option.bind_eq_bind, Option.bind_eq_some_iff] at h
  obtain ⟨found, hfound, h⟩ := h
  cases found with
  | some _ =>
      simp only [Option.some.injEq, Prod.mk.injEq] at h
      obtain ⟨rfl, rfl⟩ := h
      exact .refused _
  | none =>
      simp only [Option.ite_none_right_eq_some, Option.some.injEq, Prod.mk.injEq] at h
      obtain ⟨hlt, rfl, rfl⟩ := h
      exact .serviceRegistered si hfound hlt

theorem registryTo_deregisterService (h : deregisterService lstrcmpW si.lpServiceClassId
      si.lpszServiceInstanceName s = some (s', code)) :
    RegistryTo lstrcmpW s (.deregisterService si) s'.serviceClasses s'.services (.ret code) := by
  simp only [deregisterService, Option.bind_eq_bind, Option.bind_eq_some_iff] at h
  obtain ⟨found, hfound, h⟩ := h
  cases found with
  | none =>
      simp only [Option.some.injEq, Prod.mk.injEq] at h
      obtain ⟨rfl, rfl⟩ := h
      exact .refused _
  | some i =>
      simp only [Option.some.injEq, Prod.mk.injEq] at h
      obtain ⟨rfl, rfl⟩ := h
      exact .serviceDeregistered si i hfound

theorem registry_of_lookup (hlookup : r.isLookup = true)
    (h : serve lstrcmpW s r = some (s', answer)) :
    s'.serviceClasses = s.serviceClasses ∧ s'.services = s.services := by
  cases r with
  | registerClass | deregisterClass | registerService | deregisterService =>
      cases hlookup
  | lookupClass guid =>
      simp only [serve, Option.bind_eq_bind, Option.bind_eq_some_iff] at h
      obtain ⟨found, -, h⟩ := h
      cases found with
      | none => cases h
      | some _ =>
          simp only [Option.some.injEq, Prod.mk.injEq] at h
          exact h.1 ▸ ⟨rfl, rfl⟩
  | lookupServiceBegin si =>
      simp only [serve, registerQuery, Option.some.injEq, Prod.mk.injEq] at h
      obtain ⟨rfl, -⟩ := h
      split <;> exact ⟨rfl, rfl⟩
  | lookupServiceNext hQuery =>
      simp only [serve, performQuery, Option.bind_eq_bind, Option.bind_eq_some_iff] at h
      obtain ⟨index, -, info, -, found, -, h⟩ := h
      cases found <;>
      · simp only [Option.some.injEq, Prod.mk.injEq] at h
        exact h.1 ▸ ⟨rfl, rfl⟩
  | lookupServiceEnd hQuery =>
      simp only [serve, deleteQuery, Option.some.injEq, Prod.mk.injEq] at h
      obtain ⟨rfl, -⟩ := h
      split <;> exact ⟨rfl, rfl⟩

theorem registryTo_of_serve (h : serve lstrcmpW s r = some (s', answer)) :
    RegistryTo lstrcmpW s r s'.serviceClasses s'.services answer := by
  by_cases hlookup : r.isLookup = true
  · obtain ⟨hclasses, hservices⟩ := registry_of_lookup hlookup h
    rw [hclasses, hservices]
    exact .looked r answer hlookup
  · cases r with
    | registerClass sc =>
        simp only [serve, Option.map_eq_some_iff, Prod.mk.injEq] at h
        obtain ⟨⟨_, code⟩, hcall, rfl, rfl⟩ := h
        exact registryTo_registerClass hcall
    | deregisterClass guid =>
        simp only [serve, deregisterServiceClass, Option.some.injEq, Prod.mk.injEq] at h
        obtain ⟨rfl, rfl⟩ := h
        split
        · exact .refused _
        next i hi => exact .classDeregistered guid i hi
    | registerService si =>
        simp only [serve, Option.map_eq_some_iff, Prod.mk.injEq] at h
        obtain ⟨⟨_, code⟩, hcall, rfl, rfl⟩ := h
        exact registryTo_registerService hcall
    | deregisterService si =>
        simp only [serve, Option.map_eq_some_iff, Prod.mk.injEq] at h
        obtain ⟨⟨_, code⟩, hcall, rfl, rfl⟩ := h
        exact registryTo_deregisterService hcall
    | lookupClass | lookupServiceBegin | lookupServiceNext | lookupServiceEnd =>
        exact absurd rfl hlookup

theorem eq_of_refused (h : serve lstrcmpW s r = some (s', .ret mynspError)) : s' = s := by
  have hcode : mynspSuccess ≠ mynspError := by decide
  cases r with
  | registerClass sc =>
      simp only [serve, registerClass, Option.map_eq_some_iff, Prod.mk.injEq,
        Option.bind_eq_bind, Option.bind_eq_some_iff, Response.ret.injEq] at h
      obtain ⟨⟨_, code⟩, ⟨found, -, hcall⟩, rfl, rfl⟩ := h
      cases found with
      | some _ =>
          simp only [Option.some.injEq, Prod.mk.injEq] at hcall
          exact hcall.1.symm
      | none =>
          simp only at hcall
          split at hcall
          · simp [hcode] at hcall
          · simp [hcode] at hcall
  | deregisterClass guid =>
      simp only [serve, deregisterServiceClass, Option.some.injEq,
        Prod.mk.injEq, Response.ret.injEq] at h
      obtain ⟨rfl, hret⟩ := h
      split at hret
      · rfl
      · exact absurd hret hcode
  | lookupClass guid =>
      simp only [serve, Option.bind_eq_bind, Option.bind_eq_some_iff] at h
      obtain ⟨found, -, h⟩ := h
      cases found with
      | none => cases h
      | some _ => simp [hcode] at h
  | registerService si =>
      simp only [serve, registerService, Option.map_eq_some_iff, Prod.mk.injEq,
        Option.bind_eq_bind, Option.bind_eq_some_iff, Response.ret.injEq] at h
      obtain ⟨⟨_, code⟩, ⟨found, -, hcall⟩, rfl, rfl⟩ := h
      cases found with
      | some _ =>
          simp only [Option.some.injEq, Prod.mk.injEq] at hcall
          exact hcall.1.symm
      | none => simp [hcode] at hcall
  | deregisterService si =>
      simp only [serve, deregisterService, Option.map_eq_some_iff, Prod.mk.injEq,
        Option.bind_eq_bind, Option.bind_eq_some_iff, Response.ret.injEq] at h
      obtain ⟨⟨_, code⟩, ⟨found, -, hcall⟩, rfl, rfl⟩ := h
      cases found with
      | none =>
          simp only [Option.some.injEq, Prod.mk.injEq] at hcall
          exact hcall.1.symm
      | some _ => simp [hcode] at hcall
  | lookupServiceBegin si => simp [serve] at h
  | lookupServiceNext hQuery =>
      simp only [serve, performQuery, Option.bind_eq_bind, Option.bind_eq_some_iff] at h
      obtain ⟨index, -, info, -, found, -, h⟩ := h
      cases found <;> simp at h
  | lookupServiceEnd hQuery =>
      simp only [serve, deleteQuery, Option.some.injEq, Prod.mk.injEq, Response.ret.injEq] at h
      obtain ⟨rfl, hret⟩ := h
      split at hret
      · rfl
      · exact absurd hret hcode

/-! ## The lookups -/

theorem lookupServiceClass_some (h : lookupServiceClass guid classes = some (some sc)) :
    sc ∈ classes ∧ sc.lpServiceClassId = guid := by
  induction classes with
  | nil => cases h
  | cons head rest ih =>
      simp only [lookupServiceClass, Option.bind_eq_bind, Option.bind_eq_some_iff] at h
      obtain ⟨same, hsame, h⟩ := h
      cases same with
      | true =>
          simp only [if_true, Option.some.injEq] at h
          subst h
          refine ⟨List.mem_cons_self, ?_⟩
          unfold sameClassId at hsame
          split at hsame
          next g id hid =>
            have heq : g = id := by simpa using hsame
            rw [hid, heq]
          next => cases hsame
      | false =>
          simp only [Bool.false_eq_true, if_false] at h
          obtain ⟨hmem, hid⟩ := ih h
          exact ⟨List.mem_cons_of_mem _ hmem, hid⟩

theorem lookupServiceClass_none (h : lookupServiceClass guid classes = some none) :
    ∀ sc ∈ classes, sc.lpServiceClassId ≠ guid := by
  induction classes with
  | nil => simp
  | cons head rest ih =>
      simp only [lookupServiceClass, Option.bind_eq_bind, Option.bind_eq_some_iff] at h
      obtain ⟨same, hsame, h⟩ := h
      cases same with
      | true => simp at h
      | false =>
          simp only [Bool.false_eq_true, if_false] at h
          intro sc hmem
          rcases List.mem_cons.mp hmem with rfl | hmem
          · rintro rfl
            unfold sameClassId at hsame
            split at hsame
            next g id hg hid =>
              have heq : g = id := Option.some.inj (hg.symm.trans hid)
              simp [heq] at hsame
            next => cases hsame
          · exact ih h sc hmem

theorem lookupService_none {service : Name}
    (hclass : lookupServiceClass guid s.serviceClasses = some (some sc))
    (h : lookupService lstrcmpW guid service s = some none) : ∀ entry ∈ s.services,
      lstrcmpW service entry.querySet.lpszServiceInstanceName = false := by
  simp only [lookupService, hclass, Option.bind_eq_bind, Option.bind_some,
    Option.some.injEq, List.findIdx?_eq_none_iff] at h
  exact h

/-! ## The invariant -/

section Integrity
variable (lstrcmpW)

/-- The service belongs to the class. -/
def Service.OfClass (service : Service) (guid : Option Guid) : Prop :=
  service.querySet.lpServiceClassId = guid

instance (service : Service) (guid : Option Guid) :
    Decidable (service.OfClass guid) :=
  inferInstanceAs (Decidable (_ = _))

/-- A class of the id is registered. -/
def Registered (s : Server) (guid : Option Guid) : Prop :=
  ∃ sc ∈ s.serviceClasses, sc.lpServiceClassId = guid

instance (s : Server) (guid : Option Guid) : Decidable (Registered s guid) :=
  inferInstanceAs (Decidable (∃ _ ∈ _, _))

/-- Two services of one class and of one name. -/
def Clash (service other : Service) : Prop :=
  service.querySet.lpServiceClassId = other.querySet.lpServiceClassId ∧
    lstrcmpW service.querySet.lpszServiceInstanceName
      other.querySet.lpszServiceInstanceName = true

/-- Class ids are unique, every service belongs to a registered class, and no
class has two services of the same name. -/
structure Integrity (s : Server) : Prop where
  classes : (s.serviceClasses.map (·.lpServiceClassId)).Nodup
  belongs : ∀ service ∈ s.services,
    Registered s service.querySet.lpServiceClassId
  names : s.services.Pairwise fun service other => ¬ Clash lstrcmpW service other

/-- The request to deregister the class finds no structure that begins with the
bytes of the id, and the class is not registered or has services; or the first
such structure is the one of the class, and it has no services. -/
def RemovesTheClass (s : Server) (guid : Guid) : Prop :=
  match s.serviceClasses.findIdx? (fun sc => guid == sc.fixedPart) with
  | none =>
      ¬ Registered s (some guid) ∨ ∃ service ∈ s.services, service.OfClass guid
  | some i =>
      s.serviceClasses[i]?.map (·.lpServiceClassId) = some (some guid) ∧
        ∀ service ∈ s.services, ¬ service.OfClass guid

instance (s : Server) (guid : Guid) : Decidable (RemovesTheClass s guid) := by
  unfold RemovesTheClass
  split <;> infer_instance

/-- Services are registered in registered classes, and no request to
deregister a class is decided by the bytes of a structure. -/
def KeepsIntegrity (s : Server) : Request → Prop
  | .registerService si => Registered s si.lpServiceClassId
  | .deregisterClass guid => RemovesTheClass s guid
  | _ => True

instance (s : Server) (r : Request) : Decidable (KeepsIntegrity s r) :=
  match r with
  | .registerService si =>
      inferInstanceAs (Decidable (Registered s si.lpServiceClassId))
  | .deregisterClass guid => inferInstanceAs (Decidable (RemovesTheClass s guid))
  | .registerClass _ | .lookupClass _ | .deregisterService _
  | .lookupServiceBegin _ | .lookupServiceNext _ | .lookupServiceEnd _ =>
      inferInstanceAs (Decidable True)

end Integrity

theorem integrity_create : Integrity lstrcmpW Server.create := by
  constructor
  · exact List.nodup_nil
  · intro service hmem
    cases hmem
  · exact List.Pairwise.nil

theorem Integrity.of_classes (h : Integrity lstrcmpW s)
    (hnodup : (classes.map (·.lpServiceClassId)).Nodup)
    (hkept : ∀ sc ∈ s.serviceClasses, sc ∉ classes →
      ∀ service ∈ s.services, ¬ service.OfClass sc.lpServiceClassId)
    (hclasses : s'.serviceClasses = classes)
    (hservices : s'.services = s.services) : Integrity lstrcmpW s' := by
  constructor
  · rw [hclasses]
    exact hnodup
  · intro service hmem
    rw [hservices] at hmem
    obtain ⟨sc, hsc, hid⟩ := h.belongs service hmem
    by_cases hin : sc ∈ classes
    · exact ⟨sc, hclasses ▸ hin, hid⟩
    · exact absurd hid.symm (hkept sc hsc hin service hmem)
  · rw [hservices]
    exact h.names

theorem Integrity.step (hsymm : ∀ name other, lstrcmpW name other = lstrcmpW other name)
    (h : Integrity lstrcmpW s) (hkeeps : KeepsIntegrity s r)
    (hserve : serve lstrcmpW s r = some (s', answer)) : Integrity lstrcmpW s' := by
  have hregistry := registryTo_of_serve hserve
  generalize hclasses : s'.serviceClasses = classes at hregistry
  generalize hservices : s'.services = services at hregistry
  cases hregistry with
  | refused | ignored | looked =>
      exact h.of_classes h.classes (fun sc hsc hnot => absurd hsc hnot) hclasses hservices
  | classRegistered sc hnew =>
      refine h.of_classes ?_ (fun other hother hnot => ?_) hclasses hservices
      · rw [List.map_append, List.map_singleton]
        refine List.nodup_append.mpr ⟨h.classes, List.nodup_singleton _, ?_⟩
        intro id hid other hother
        obtain ⟨entry, hentry, rfl⟩ := List.mem_map.mp hid
        rw [List.mem_singleton.mp hother]
        exact lookupServiceClass_none hnew entry hentry
      · exact absurd (List.mem_append_left _ hother) hnot
  | classDeregistered guid i hi =>
      refine h.of_classes ?_ (fun sc hsc hnot service hmem => ?_) hclasses hservices
      · exact h.classes.sublist ((List.eraseIdx_sublist _ _).map _)
      · simp only [KeepsIntegrity, RemovesTheClass, hi] at hkeeps
        obtain ⟨hid, hnone⟩ := hkeeps
        -- a class that is gone is the one at the index
        obtain ⟨j, hj⟩ := List.mem_iff_getElem?.mp hsc
        have hji : j = i := by
          by_contra hne
          exact hnot (List.mem_eraseIdx_iff_getElem?.mpr ⟨j, hne, hj⟩)
        rw [hji] at hj
        rw [hj, Option.map_some, Option.some.injEq] at hid
        rw [hid]
        exact hnone service hmem
  | serviceRegistered si hnew =>
      have hregistered : Registered s si.lpServiceClassId := hkeeps
      constructor
      · rw [hclasses]
        exact h.classes
      · intro service hmem
        rw [hservices, List.mem_append, List.mem_singleton] at hmem
        unfold Registered
        rw [hclasses]
        rcases hmem with hmem | rfl
        · exact h.belongs service hmem
        · exact hregistered
      · rw [hservices]
        refine List.pairwise_append.mpr ⟨h.names, List.pairwise_singleton _ _, ?_⟩
        intro entry hentry other hother hclash
        rw [List.mem_singleton.mp hother] at hclash
        have hdiffers : lstrcmpW si.lpszServiceInstanceName
            entry.querySet.lpszServiceInstanceName = false := by
          cases hclass : lookupServiceClass si.lpServiceClassId s.serviceClasses with
          | none => simp [lookupService, hclass] at hnew
          | some found =>
              cases found with
              | none =>
                  obtain ⟨sc, hsc, hid⟩ := hregistered
                  exact absurd hid (lookupServiceClass_none hclass sc hsc)
              | some sc => exact lookupService_none hclass hnew entry hentry
        have hsame := hclash.2
        rw [hsymm, hdiffers] at hsame
        cases hsame
  | serviceDeregistered si i hi =>
      have hperm := swapRemove_perm (lookupService_lt hi)
      have hsub : (s.services.eraseIdx i).Sublist s.services := List.eraseIdx_sublist _ _
      constructor
      · rw [hclasses]
        exact h.classes
      · intro service hmem
        unfold Registered
        rw [hclasses]
        rw [hservices] at hmem
        exact h.belongs service (hsub.subset (hperm.mem_iff.mp hmem))
      · rw [hservices]
        refine (hperm.pairwise_iff fun {service other} hnot hclash => ?_).mpr (h.names.sublist hsub)
        exact hnot ⟨hclash.1.symm, hsymm _ _ ▸ hclash.2⟩

/-- A request to deregister a class succeeds if and only if the class is
registered and no service belongs to it. -/
theorem deregisterClass_succeeds_iff {guid : Guid}
    (hkeeps : KeepsIntegrity s (.deregisterClass guid))
    (hserve : serve lstrcmpW s (.deregisterClass guid) = some (s', answer)) :
    answer = .ret mynspSuccess ↔ Registered s (some guid) ∧
        ∀ service ∈ s.services, ¬ service.OfClass (some guid) := by
  have hcode : mynspError ≠ mynspSuccess := by decide
  simp only [serve, deregisterServiceClass, Option.some.injEq, Prod.mk.injEq] at hserve
  obtain ⟨-, rfl⟩ := hserve
  simp only [KeepsIntegrity, RemovesTheClass] at hkeeps
  split at hkeeps
  next hnone =>
    simp only [hnone, Response.ret.injEq]
    constructor
    · exact fun hcode' => absurd hcode' hcode
    · rintro ⟨hregistered, hempty⟩
      rcases hkeeps with hnot | ⟨service, hmem, hclass⟩
      · exact absurd hregistered hnot
      · exact absurd hclass (hempty service hmem)
  next i hi =>
    obtain ⟨hid, hempty⟩ := hkeeps
    obtain ⟨sc, hsc, hguid⟩ := Option.map_eq_some_iff.mp hid
    simp only [hi, true_iff]
    exact ⟨⟨sc, List.mem_of_getElem? hsc, hguid⟩, hempty⟩

/-- In every run whose requests to register a service name a registered class
and whose requests to deregister a class are not decided by the bytes of a
structure, the registry keeps its integrity, a class is deregistered exactly
when it is registered and has no services, and a failed request changes
nothing. -/
theorem registry_integrity_of_run (hsymm : ∀ name other, lstrcmpW name other =
      lstrcmpW other name) {requests : List Request}
    (hrun : RunsTo (serverStep lstrcmpW) KeepsIntegrity Server.create requests
      s) :
    Integrity lstrcmpW s ∧
      ∀ r s' answer, KeepsIntegrity s r →
        serve lstrcmpW s r = some (s', answer) →
          Integrity lstrcmpW s' ∧
          (∀ guid, r = .deregisterClass guid → (answer = .ret mynspSuccess ↔
            Registered s (some guid) ∧
              ∀ service ∈ s.services, ¬ service.OfClass (some guid))) ∧
          (answer = .ret mynspError → s' = s) := by
  have hintegrity : Integrity lstrcmpW s := by
    refine hrun.invariant (Integrity lstrcmpW) integrity_create
      fun s r s' h hkeeps hstep => ?_
    simp only [serverStep, Option.map_eq_some_iff] at hstep
    obtain ⟨⟨_, answer⟩, hserve, rfl⟩ := hstep
    exact h.step hsymm hkeeps hserve
  refine ⟨hintegrity, fun r s' answer hkeeps hserve => ⟨?_, ?_, ?_⟩⟩
  · exact hintegrity.step hsymm hkeeps hserve
  · rintro guid rfl
    exact deregisterClass_succeeds_iff hkeeps hserve
  · rintro rfl
    exact eq_of_refused hserve

end Names

/-- A class id of sixteen bytes. -/
def classId (n : UInt8) : Guid := List.replicate 16 n

/-- A service of a class. -/
def serviceOf (name : List UInt16) (guid : Guid) : QuerySet :=
  { namedQuerySet name with lpServiceClassId := some guid }

/-- Two classes and two services; a class with services is not deregistered. -/
theorem registry_integrity_of_run_two_classes :
    ∃ s, RunsTo (serverStep sameName) KeepsIntegrity Server.create
        [.registerClass ⟨some (classId 1), []⟩,
         .registerClass ⟨some (classId 2), []⟩,
         .registerService (serviceOf [65] (classId 1)),
         .registerService (serviceOf [66] (classId 2)),
         .deregisterClass (classId 1),
         .deregisterService (serviceOf [66] (classId 2))] s ∧
      Integrity sameName s ∧
      ∀ r s' answer, KeepsIntegrity s r →
        serve sameName s r = some (s', answer) →
          Integrity sameName s' ∧
          (∀ guid, r = .deregisterClass guid → (answer = .ret mynspSuccess ↔
            Registered s (some guid) ∧
              ∀ service ∈ s.services, ¬ service.OfClass (some guid))) ∧
          (answer = .ret mynspError → s' = s) :=
  have hsymm : ∀ name other, sameName name other = sameName other name :=
    fun name other => by
      unfold sameName
      exact Bool.beq_comm
  have hrun := RunsTo.of_isSome (by decide)
  ⟨_, hrun, registry_integrity_of_run hsymm hrun⟩

/-- A class that is registered and has no services is not deregistered, and a
service is registered in a class that is not. -/
theorem registry_integrity_broken :
    (∃ s s', RunsTo (serverStep sameName) Always Server.create
        [.registerClass ⟨some (classId 1), List.replicate 16 0⟩] s ∧
      serve sameName s (.deregisterClass (classId 1)) =
        some (s', .ret mynspError) ∧
      Registered s (some (classId 1)) ∧ s.services = []) ∧
    ∃ s, RunsTo (serverStep sameName) Always Server.create
        [.registerService (serviceOf [65] (classId 1)),
         .registerService (serviceOf [65] (classId 1))] s ∧
      ¬ Integrity sameName s := by
  constructor
  · exact ⟨_, _, RunsTo.of_isSome (by decide), rfl, by decide, by decide⟩
  · refine ⟨_, RunsTo.of_isSome (by decide), fun hintegrity => ?_⟩
    have hbelongs := hintegrity.belongs
      ⟨0, serviceOf [65] (classId 1)⟩ (by decide)
    exact absurd hbelongs (by decide)

end MiscProjects.NameService
