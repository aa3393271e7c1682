import MiscProjects.Library.Runs
import MiscProjects.NameService.Registry

/-!
# Enumerating the services

A query goes through the array of services with an index.  Registrations are
appended, and a removal moves the last service into the hole, so a service
that stays registered keeps its side of the index: behind it once it has been
returned, ahead of it until then.  Only a removal behind the index that moves a
service from ahead of it breaks this; such a service is never returned.
-/

namespace MiscProjects.NameService

open MiscProjects.Runs MiscProjects.SwapRemove

section Names
variable (lstrcmpW : Name → Name → Bool)

def serverStep (s : Server) (r : Request) : Option Server :=
  (serve lstrcmpW s r).map (·.1)

/-- The service since a query was begun, with the requests and the answers. -/
structure Session where
  server : Server
  log : List (Request × Response)
deriving DecidableEq

def sessionStep (t : Session) (r : Request) : Option Session :=
  (serve lstrcmpW t.server r).map fun (s, answer) => ⟨s, t.log ++ [(r, answer)]⟩

/-- The services returned for a query handle. -/
def returned (h : Handle) (log : List (Request × Response)) : List Service :=
  log.filterMap fun
    | (.lookupServiceNext hQuery, .service found) =>
        if hQuery = h then some found else none
    | _ => none

def Matches (q : QuerySet) (service : Service) : Prop :=
  matchesQuery lstrcmpW q service.querySet = some true

instance (q : QuerySet) (service : Service) :
    Decidable (Matches lstrcmpW q service) :=
  inferInstanceAs (Decidable (_ = _))

/-- A handle that is issued is not in use. -/
def FreshHandle (s : Server) : Request → Prop
  | .lookupServiceBegin _ => s.queryInfo.length < maxQueries →
      ∀ info ∈ s.queryInfo, info.hHandle ≠ s.dwHandleValue + 1
  | _ => True

instance (s : Server) (r : Request) : Decidable (FreshHandle s r) := by
  cases r <;> unfold FreshHandle <;> infer_instance

/-- The removal moves a service of `registered` that matches the query `h` from
ahead of its index behind it. -/
def movesBehind (registered : List Service) (h : Handle) (s : Server)
    (si : QuerySet) : Bool :=
  match lookupService lstrcmpW si.lpServiceClassId si.lpszServiceInstanceName s,
    (findQuery h s).bind (s.queryInfo[·]?), s.services.getLast? with
  | some (some i), some info, some last =>
      i < info.cursor && info.cursor < s.services.length &&
        decide (last ∈ registered) &&
        matchesQuery lstrcmpW info.query last.querySet == some true
  | _, _, _ => false

/-- The requests under which the enumeration by `h` is complete: the query is
not ended, its handle is not issued again, and no service registered when it
began is moved behind its index. -/
def KeepsAhead (registered : List Service) (h : Handle) (t : Session) :
    Request → Prop
  | .deregisterService si =>
      movesBehind lstrcmpW registered h t.server si = false
  | .lookupServiceEnd hQuery => hQuery ≠ h
  | r => FreshHandle t.server r

instance (registered : List Service) (h : Handle) (t : Session) (r : Request) :
    Decidable (KeepsAhead lstrcmpW registered h t r) := by
  cases r <;> unfold KeepsAhead <;> infer_instance

/-! ## What a request does -/

/-- A request does nothing but change the classes, or it registers or removes a
service, or it begins, continues or ends a query. -/
inductive ServeTo (s : Server) : Request → Server → Response → Prop
  | classes (r : Request) (serviceClasses : List ServiceClass) (code : ℤ) :
      ServeTo s r { s with serviceClasses := serviceClasses } (.ret code)
  | registered (si : QuerySet) :
      ServeTo s (.registerService si)
        { s with
          services := s.services ++ [⟨s.nextPtr, si⟩],
          nextPtr := s.nextPtr + 1 } (.ret mynspSuccess)
  | deregistered (si : QuerySet) (i : ℕ)
      (hi : lookupService lstrcmpW si.lpServiceClassId
        si.lpszServiceInstanceName s = some (some i)) :
      ServeTo s (.deregisterService si)
        { s with services := swapRemove s.services i } (.ret mynspSuccess)
  | full (si : QuerySet) :
      ServeTo s (.lookupServiceBegin si) s (.handle none)
  | begun (si : QuerySet) (hlt : s.queryInfo.length < maxQueries) :
      ServeTo s (.lookupServiceBegin si)
        { s with
          dwHandleValue := s.dwHandleValue + 1,
          queryInfo := s.queryInfo ++ [⟨s.dwHandleValue + 1, -1, si⟩] }
        (.handle (some (s.dwHandleValue + 1)))
  | found (hQuery : Handle) (index : ℕ) (info : QueryInfo) (i : ℕ)
      (service : Service) (hindex : findQuery hQuery s = some index)
      (hinfo : s.queryInfo[index]? = some info)
      (hmatch : firstMatch lstrcmpW info.query info.cursor
        (s.services.drop info.cursor) = some (some (i, service))) :
      ServeTo s (.lookupServiceNext hQuery)
        { s with
          queryInfo := s.queryInfo.set index { info with iIndex := i } }
        (.service service)
  | noMore (hQuery : Handle) (index : ℕ) (info : QueryInfo) (code : ℤ)
      (hindex : findQuery hQuery s = some index)
      (hinfo : s.queryInfo[index]? = some info)
      (hmatch : firstMatch lstrcmpW info.query info.cursor
        (s.services.drop info.cursor) = some none) :
      ServeTo s (.lookupServiceNext hQuery) s (.nLeft code)
  | ended (hQuery : Handle) (index : ℕ)
      (hindex : findQuery hQuery s = some index) :
      ServeTo s (.lookupServiceEnd hQuery)
        { s with queryInfo := swapRemove s.queryInfo index }
        (.ret mynspSuccess)

variable {lstrcmpW} {s s' : Server} {r : Request} {answer : Response}

variable {h hQuery : Handle} {i index : ℕ} {q si : QuerySet} {code : ℤ} {services : List Service}
  {info : QueryInfo}

theorem serveTo_registerClass {sc : ServiceClass} (h : registerClass sc s = some (s', code)) :
    ServeTo lstrcmpW s (.registerClass sc) s' (.ret code) := by
  simp only [registerClass, Option.bind_eq_bind, Option.bind_eq_some_iff] at h
  obtain ⟨found, -, h⟩ := h
  cases found with
  | some _ =>
      simp only [Option.some.injEq, Prod.mk.injEq] at h
      obtain ⟨rfl, rfl⟩ := h
      exact .classes _ s.serviceClasses _
  | none =>
      simp only at h
      split at h
      · simp only [Option.some.injEq, Prod.mk.injEq] at h
        obtain ⟨rfl, rfl⟩ := h
        exact .classes _ s.serviceClasses _
      · split at h
        · simp only [Option.some.injEq, Prod.mk.injEq] at h
          obtain ⟨rfl, rfl⟩ := h
          exact .classes _ _ _
        · cases h

theorem serveTo_deregisterClass (guid : Guid) (s : Server) :
    ServeTo lstrcmpW s (.deregisterClass guid) (deregisterServiceClass guid s).1
      (.ret (deregisterServiceClass guid s).2) := by
  unfold deregisterServiceClass
  split
  · exact .classes _ s.serviceClasses _
  · exact .classes _ _ _

theorem serveTo_registerService (h : registerService lstrcmpW si s = some (s', code)) :
    ServeTo lstrcmpW s (.registerService si) s' (.ret code) := by
  simp only [registerService, Option.bind_eq_bind, Option.bind_eq_some_iff] at h
  obtain ⟨found, -, h⟩ := h
  cases found with
  | some _ =>
      simp only [Option.some.injEq, Prod.mk.injEq] at h
      obtain ⟨rfl, rfl⟩ := h
      exact .classes _ s.serviceClasses _
  | none =>
      simp only [Option.ite_none_right_eq_some, Option.some.injEq, Prod.mk.injEq] at h
      obtain ⟨-, rfl, rfl⟩ := h
      exact .registered si

theorem serveTo_deregisterService (h : deregisterService lstrcmpW si.lpServiceClassId
      si.lpszServiceInstanceName s = some (s', code)) :
    ServeTo lstrcmpW s (.deregisterService si) s' (.ret code) := by
  simp only [deregisterService, Option.bind_eq_bind, Option.bind_eq_some_iff] at h
  obtain ⟨found, hfound, h⟩ := h
  cases found with
  | none =>
      simp only [Option.some.injEq, Prod.mk.injEq] at h
      obtain ⟨rfl, rfl⟩ := h
      exact .classes _ s.serviceClasses _
  | some i =>
      simp only [Option.some.injEq, Prod.mk.injEq] at h
      obtain ⟨rfl, rfl⟩ := h
      exact .deregistered si i hfound

theorem serveTo_performQuery (h : performQuery lstrcmpW hQuery s = some (s', answer)) :
    ServeTo lstrcmpW s (.lookupServiceNext hQuery) s' answer := by
  simp only [performQuery, Option.bind_eq_bind, Option.bind_eq_some_iff] at h
  obtain ⟨index, hindex, info, hinfo, found, hmatch, h⟩ := h
  cases found with
  | none =>
      simp only [Option.some.injEq, Prod.mk.injEq] at h
      obtain ⟨rfl, rfl⟩ := h
      exact .noMore hQuery index info _ hindex hinfo hmatch
  | some pair =>
      obtain ⟨i, service⟩ := pair
      simp only [Option.some.injEq, Prod.mk.injEq] at h
      obtain ⟨rfl, rfl⟩ := h
      exact .found hQuery index info i service hindex hinfo hmatch

theorem serveTo_of_serve (h : serve lstrcmpW s r = some (s', answer)) :
    ServeTo lstrcmpW s r s' answer := by
  cases r with
  | registerClass sc =>
      simp only [serve, Option.map_eq_some_iff, Prod.mk.injEq] at h
      obtain ⟨⟨_, code⟩, hcall, rfl, rfl⟩ := h
      exact serveTo_registerClass hcall
  | deregisterClass guid =>
      simp only [serve, Option.some.injEq, Prod.mk.injEq] at h
      obtain ⟨rfl, rfl⟩ := h
      exact serveTo_deregisterClass guid s
  | lookupClass guid =>
      simp only [serve, Option.bind_eq_bind, Option.bind_eq_some_iff] at h
      obtain ⟨found, -, h⟩ := h
      cases found with
      | none => cases h
      | some _ =>
          simp only [Option.some.injEq, Prod.mk.injEq] at h
          obtain ⟨rfl, rfl⟩ := h
          exact .classes _ s.serviceClasses _
  | registerService si =>
      simp only [serve, Option.map_eq_some_iff, Prod.mk.injEq] at h
      obtain ⟨⟨_, code⟩, hcall, rfl, rfl⟩ := h
      exact serveTo_registerService hcall
  | deregisterService si =>
      simp only [serve, Option.map_eq_some_iff, Prod.mk.injEq] at h
      obtain ⟨⟨_, code⟩, hcall, rfl, rfl⟩ := h
      exact serveTo_deregisterService hcall
  | lookupServiceBegin si =>
      simp only [serve, registerQuery, Option.some.injEq, Prod.mk.injEq] at h
      obtain ⟨rfl, rfl⟩ := h
      split
      · exact .full si
      · exact .begun si (by omega)
  | lookupServiceNext hQuery => exact serveTo_performQuery h
  | lookupServiceEnd hQuery =>
      simp only [serve, deleteQuery, Option.some.injEq, Prod.mk.injEq] at h
      obtain ⟨rfl, rfl⟩ := h
      split
      · exact .classes _ s.serviceClasses _
      next index hindex => exact .ended hQuery index hindex

/-! ## The search -/

theorem firstMatch_some {j : ℕ} {service : Service}
    (h : firstMatch lstrcmpW q i services = some (some (j, service))) :
    ∃ n, j = i + n ∧ services[n]? = some service ∧ ∀ m < n, ∀ other, services[m]? = some other →
        ¬ Matches lstrcmpW q other := by
  induction services generalizing i with
  | nil => simp [firstMatch] at h
  | cons head rest ih =>
      simp only [firstMatch, Option.bind_eq_bind, Option.bind_eq_some_iff] at h
      obtain ⟨ok, hok, h⟩ := h
      cases ok with
      | true =>
          simp only [if_true, Option.some.injEq, Prod.mk.injEq] at h
          obtain ⟨rfl, rfl⟩ := h
          exact ⟨0, rfl, rfl, fun m hm => absurd hm (Nat.not_lt_zero m)⟩
      | false =>
          simp only [Bool.false_eq_true, if_false] at h
          obtain ⟨n, rfl, hget, hbefore⟩ := ih h
          refine ⟨n + 1, by omega, hget, fun m hm other hother => ?_⟩
          cases m with
          | zero =>
              simp only [List.getElem?_cons_zero, Option.some.injEq] at hother
              subst hother
              simp [Matches, hok]
          | succ m => exact hbefore m (by omega) other hother

theorem firstMatch_none (h : firstMatch lstrcmpW q i services = some none) :
    ∀ service ∈ services, ¬ Matches lstrcmpW q service := by
  induction services generalizing i with
  | nil => simp
  | cons head rest ih =>
      simp only [firstMatch, Option.bind_eq_bind, Option.bind_eq_some_iff] at h
      obtain ⟨ok, hok, h⟩ := h
      cases ok with
      | true => simp at h
      | false =>
          simp only [Bool.false_eq_true, if_false] at h
          intro service hmem
          rcases List.mem_cons.mp hmem with rfl | hmem
          · simp [Matches, hok]
          · exact ih h service hmem

/-! ## The tables -/

/-- The registrations are told apart by their pointers, the queries by their
handles. -/
structure WellFormed (s : Server) : Prop where
  ptrs : (s.services.map (·.ptr)).Nodup
  older : ∀ service ∈ s.services, service.ptr < s.nextPtr
  handles : (s.queryInfo.map (·.hHandle)).Nodup

theorem wellFormed_create : WellFormed Server.create := by
  refine ⟨?_, ?_, ?_⟩ <;> simp [Server.create]

theorem WellFormed.nodup (h : WellFormed s) : s.services.Nodup := .of_map _ h.ptrs

theorem lookupService_lt {guid : Option Guid} {name : Name}
    (h : lookupService lstrcmpW guid name s = some (some i)) : i < s.services.length := by
  simp only [lookupService, Option.bind_eq_bind, Option.bind_eq_some_iff] at h
  obtain ⟨sc, -, h⟩ := h
  cases sc with
  | none => cases h
  | some _ =>
      simp only [Option.some.injEq] at h
      exact (List.findIdx?_eq_some_iff_getElem.mp h).1

theorem findQuery_some (h : findQuery hQuery s = some index) : index < s.queryInfo.length ∧
      ∀ info, s.queryInfo[index]? = some info → info.hHandle = hQuery := by
  obtain ⟨hlt, hfound, -⟩ := List.findIdx?_eq_some_iff_getElem.mp h
  refine ⟨hlt, fun info hinfo => ?_⟩
  rw [List.getElem?_eq_getElem hlt, Option.some.injEq] at hinfo
  rw [← hinfo]
  exact beq_iff_eq.mp hfound

theorem map_hHandle_set {infos : List QueryInfo} (hinfo : infos[index]? = some info) (iIndex : ℤ) :
    (infos.set index { info with iIndex := iIndex }).map (·.hHandle) = infos.map (·.hHandle) := by
  obtain ⟨hlt, hget⟩ := List.getElem?_eq_some_iff.mp hinfo
  rw [List.map_set]
  refine List.ext_getElem (by simp) fun j hj hj' => ?_
  rw [List.getElem_set]
  split
  next heq => simp [← heq, hget]
  next => rfl

theorem WellFormed.step (hwell : WellFormed s) (hfresh : FreshHandle s r)
    (h : ServeTo lstrcmpW s r s' answer) : WellFormed s' := by
  cases h with
  | classes => exact ⟨hwell.ptrs, hwell.older, hwell.handles⟩
  | registered si =>
      refine ⟨?_, ?_, hwell.handles⟩
      · simp only [List.map_append, List.map_singleton]
        refine List.nodup_append.mpr ⟨hwell.ptrs, List.nodup_singleton _, fun a ha b hb heq => ?_⟩
        obtain ⟨service, hmem, rfl⟩ := List.mem_map.mp ha
        have hlt := hwell.older service hmem
        rw [List.mem_singleton] at hb
        omega
      · intro service hmem
        simp only [List.mem_append, List.mem_singleton] at hmem ⊢
        rcases hmem with hmem | rfl
        · exact Nat.lt_succ_of_lt (hwell.older service hmem)
        · exact Nat.lt_succ_self _
  | deregistered si i hi =>
      have hlt := lookupService_lt hi
      refine ⟨?_, ?_, hwell.handles⟩
      · rw [map_swapRemove]
        exact nodup_swapRemove (by simpa using hlt) hwell.ptrs
      · exact fun service hmem => hwell.older service (mem_of_mem_swapRemove hmem)
  | full => exact hwell
  | noMore => exact hwell
  | begun si hlt =>
      refine ⟨hwell.ptrs, hwell.older, ?_⟩
      simp only [List.map_append, List.map_singleton]
      refine List.nodup_append.mpr ⟨hwell.handles, List.nodup_singleton _, fun a ha b hb heq => ?_⟩
      obtain ⟨info, hmem, rfl⟩ := List.mem_map.mp ha
      rw [List.mem_singleton] at hb
      exact hfresh hlt info hmem (heq.trans hb)
  | found hQuery index info i service hindex hinfo hmatch =>
      refine ⟨hwell.ptrs, hwell.older, ?_⟩
      simp only [map_hHandle_set hinfo]
      exact hwell.handles
  | ended hQuery index hindex =>
      refine ⟨hwell.ptrs, hwell.older, ?_⟩
      simp only [map_swapRemove]
      refine nodup_swapRemove ?_ hwell.handles
      simpa using (findQuery_some hindex).1

theorem WellFormed.query_eq (hwell : WellFormed s) {info' : QueryInfo}
    (hindex : findQuery h s = some index) (hinfo' : s.queryInfo[index]? = some info')
    (hinfo : info ∈ s.queryInfo) (hhandle : info.hHandle = h) : info' = info :=
  List.inj_on_of_nodup_map hwell.handles (List.mem_of_getElem? hinfo') hinfo
    (((findQuery_some hindex).2 info' hinfo').trans hhandle.symm)

theorem WellFormed.findQuery_eq (hwell : WellFormed s) (hinfo : info ∈ s.queryInfo)
    (hhandle : info.hHandle = h) : ∃ index, findQuery h s = some index ∧
      s.queryInfo[index]? = some info := by
  cases hindex : findQuery h s with
  | none =>
      have hall := List.findIdx?_eq_none_iff.mp hindex info hinfo
      simp [hhandle] at hall
  | some index =>
      have hlt := (findQuery_some hindex).1
      have hget := List.getElem?_eq_getElem hlt
      have heq := hwell.query_eq hindex hget hinfo hhandle
      exact ⟨index, rfl, by rw [hget, heq]⟩

theorem getElem?_other (hindex : findQuery hQuery s = some index) (hinfo : info ∈ s.queryInfo)
    (hhandle : info.hHandle = h) (hne : hQuery ≠ h) :
    ∃ j, s.queryInfo[j]? = some info ∧ j ≠ index := by
  obtain ⟨j, hj⟩ := List.getElem?_of_mem hinfo
  refine ⟨j, hj, ?_⟩
  rintro rfl
  exact hne (((findQuery_some hindex).2 info hj).symm.trans hhandle)

/-! ## The enumeration -/

@[simp]
theorem returned_append (h : Handle) (log log' : List (Request × Response)) :
    returned h (log ++ log') = returned h log ++ returned h log' :=
  List.filterMap_append

/-- Of the services registered when the query began and still registered, those
that match have been returned once if the index has passed them, and not at
all if they are ahead of it. -/
def Progress (lstrcmpW : Name → Name → Bool) (registered : List Service)
    (q : QuerySet) (services : List Service) (cursor : ℕ)
    (answers : List Service) : Prop :=
  ∀ service ∈ registered, service ∈ services → Matches lstrcmpW q service →
    (Passed services cursor service → answers.count service = 1) ∧
      (Ahead services cursor service → answers.count service = 0)

/-- The state of an enumeration that has begun. -/
structure Enumerating (lstrcmpW : Name → Name → Bool)
    (registered : List Service) (q : QuerySet) (h : Handle) (t : Session) :
    Prop where
  wellFormed : WellFormed t.server
  older : ∀ service ∈ registered, service.ptr < t.server.nextPtr
  query : ∃ info ∈ t.server.queryInfo, info.hHandle = h ∧ info.query = q ∧
    Progress lstrcmpW registered q t.server.services info.cursor
      (returned h t.log)

section Progress
variable {registered services answers : List Service} {q : QuerySet}
  {cursor : ℕ}

theorem Progress.register (h : Progress lstrcmpW registered q services cursor answers)
    {new : Service} (hnew : new ∉ registered) :
    Progress lstrcmpW registered q (services ++ [new]) cursor answers := by
  intro service hreg hmem hmatch
  have hne : service ≠ new := fun heq => hnew (heq ▸ hreg)
  have hold : service ∈ services := by
    rcases List.mem_append.mp hmem with hmem | hmem
    · exact hmem
    · exact absurd (List.mem_singleton.mp hmem) hne
  obtain ⟨hpassed, hahead⟩ := h service hreg hold hmatch
  exact ⟨fun hp => hpassed (hp.of_append hne), fun ha => hahead (ha.of_append hne)⟩

theorem Progress.deregister (h : Progress lstrcmpW registered q services cursor answers) {i : ℕ}
    (hkeep : ∀ last ∈ services.getLast?, last ∈ registered →
      Matches lstrcmpW q last → ¬ (i < cursor ∧ cursor < services.length)) :
    Progress lstrcmpW registered q (swapRemove services i) cursor answers := by
  intro service hreg hmem hmatch
  obtain ⟨hpassed, hahead⟩ := h service hreg (mem_of_mem_swapRemove hmem) hmatch
  refine ⟨fun hp => hpassed (hp.of_swapRemove ?_), fun ha => hahead ha.of_swapRemove⟩
  rintro ⟨hi, hcursor, hlast⟩
  exact hkeep service hlast hreg hmatch ⟨hi, hcursor⟩

theorem Progress.next (hnodup : services.Nodup)
    (h : Progress lstrcmpW registered q services cursor answers) {i : ℕ} {found : Service}
    (hmatch : firstMatch lstrcmpW q cursor (services.drop cursor) = some (some (i, found))) :
    Progress lstrcmpW registered q services (i + 1) (answers ++ [found]) := by
  obtain ⟨n, rfl, hget, hbefore⟩ := firstMatch_some hmatch
  rw [List.getElem?_drop] at hget
  have hsame : ∀ j service, services[j]? = some service → service = found → j = cursor + n := by
    intro j service hj heq
    rw [heq] at hj
    obtain ⟨hlt, hj⟩ := List.getElem?_eq_some_iff.mp hj
    obtain ⟨hlt', hget'⟩ := List.getElem?_eq_some_iff.mp hget
    exact (hnodup.getElem_inj_iff).mp (hj.trans hget'.symm)
  intro service hreg hmem hservice
  obtain ⟨hpassed, hahead⟩ := h service hreg hmem hservice
  refine ⟨?_, ?_⟩
  · rintro ⟨j, hj, hjget⟩
    rcases Nat.lt_trichotomy j (cursor + n) with hlt | heq | hgt
    · have hne : found ≠ service := fun heq =>
        absurd (hsame j service hjget heq.symm) (Nat.ne_of_lt hlt)
      rcases Nat.lt_or_ge j cursor with hjlt | hjge
      · rw [List.count_append, hpassed ⟨j, hjlt, hjget⟩,
          List.count_singleton, if_neg (by simpa using hne)]
      · refine absurd hservice (hbefore (j - cursor) (by omega) service ?_)
        rw [List.getElem?_drop, Nat.add_sub_cancel' hjge]
        exact hjget
    · rw [heq, hget, Option.some.injEq] at hjget
      have hnone := hahead ⟨cursor + n, by omega, hjget ▸ hget⟩
      rw [List.count_append, hnone, hjget, List.count_singleton_self]
    · omega
  · rintro ⟨j, hj, hjget⟩
    have hne : found ≠ service := fun heq => by
      have := hsame j service hjget heq.symm
      omega
    rw [List.count_append, hahead ⟨j, by omega, hjget⟩, List.count_singleton,
      if_neg (by simpa using hne)]

theorem Progress.complete (h : Progress lstrcmpW registered q services cursor answers)
    (hnone : firstMatch lstrcmpW q cursor (services.drop cursor) = some none) {service : Service}
    (hreg : service ∈ registered) (hmem : service ∈ services)
    (hmatch : Matches lstrcmpW q service) : answers.count service = 1 := by
  rcases passed_or_ahead hmem cursor with hpassed | ⟨j, hj, hget⟩
  · exact (h service hreg hmem hmatch).1 hpassed
  · refine absurd hmatch (firstMatch_none hnone service ?_)
    refine List.mem_of_getElem? (i := j - cursor) ?_
    rw [List.getElem?_drop, Nat.add_sub_cancel' hj]
    exact hget

end Progress

section Session
variable {registered : List Service} {q : QuerySet} {h : Handle}
  {t u : Session}

theorem freshHandle_of_keepsAhead
    (hkeep : KeepsAhead lstrcmpW registered h t r) : FreshHandle t.server r := by
  cases r <;> first | exact hkeep | trivial

theorem serveTo_of_sessionStep (hstep : sessionStep lstrcmpW t r = some u) :
    ∃ answer, ServeTo lstrcmpW t.server r u.server answer ∧ u.log = t.log ++ [(r, answer)] := by
  simp only [sessionStep, Option.map_eq_some_iff] at hstep
  obtain ⟨⟨s', answer⟩, hserve, rfl⟩ := hstep
  exact ⟨answer, serveTo_of_serve hserve, rfl⟩

/-- Every request that keeps the services ahead keeps the enumeration: one
case for each thing a request can do. -/
theorem Enumerating.step (hprogress : Enumerating lstrcmpW registered q h t)
    (hkeep : KeepsAhead lstrcmpW registered h t r) (hstep : sessionStep lstrcmpW t r = some u) :
    Enumerating lstrcmpW registered q h u := by
  obtain ⟨answer, hserve, hlog⟩ := serveTo_of_sessionStep hstep
  have hwell := hprogress.wellFormed
  have hwell' := hwell.step (freshHandle_of_keepsAhead hkeep) hserve
  obtain ⟨info, hmem, hhandle, hquery, hprog⟩ := hprogress.query
  have hfresh : ∀ si, (⟨t.server.nextPtr, si⟩ : Service) ∉ registered :=
    fun si hreg => Nat.lt_irrefl _ (hprogress.older _ hreg)
  generalize hs : u.server = s' at hserve hwell'
  cases hserve with
  | classes r classes code =>
      refine ⟨hs ▸ hwell', by simpa [hs] using hprogress.older, info, ?_⟩
      have hanswers : returned h u.log = returned h t.log := by
        rw [hlog, returned_append]
        cases r <;> simp [returned]
      exact ⟨by simpa [hs] using hmem, hhandle, hquery, by rw [hs, hanswers]; exact hprog⟩
  | registered si =>
      refine ⟨hs ▸ hwell', fun service hreg => ?_, info, ?_⟩
      · rw [hs]
        exact Nat.lt_succ_of_lt (hprogress.older service hreg)
      · have hanswers : returned h u.log = returned h t.log := by
          simp [hlog, returned]
        exact ⟨by simpa [hs] using hmem, hhandle, hquery,
          by rw [hs, hanswers]; exact hprog.register (hfresh si)⟩
  | deregistered si i hi =>
      refine ⟨hs ▸ hwell', by simpa [hs] using hprogress.older, info, ?_⟩
      have hanswers : returned h u.log = returned h t.log := by
        simp [hlog, returned]
      refine ⟨by simpa [hs] using hmem, hhandle, hquery, ?_⟩
      rw [hs, hanswers]
      refine hprog.deregister ?_
      rintro last hlast hreg hmatch ⟨hi', hcursor⟩
      obtain ⟨index, hindex, hget⟩ := hwell.findQuery_eq hmem hhandle
      have hmatch' : matchesQuery lstrcmpW info.query last.querySet = some true := hquery ▸ hmatch
      simp only [KeepsAhead, movesBehind, hi, hindex, Option.bind_some, hget,
        Option.mem_def.mp hlast] at hkeep
      simp [hi', hcursor, hreg, hmatch'] at hkeep
  | full si | noMore hQuery index other code hindex hinfo hmatch =>
      refine ⟨hs ▸ hwell', by simpa [hs] using hprogress.older, info, ?_⟩
      have hanswers : returned h u.log = returned h t.log := by
        simp [hlog, returned]
      exact ⟨by simpa [hs] using hmem, hhandle, hquery, by rw [hs, hanswers]; exact hprog⟩
  | begun si hlt =>
      refine ⟨hs ▸ hwell', by simpa [hs] using hprogress.older, info, ?_⟩
      have hanswers : returned h u.log = returned h t.log := by
        simp [hlog, returned]
      exact ⟨by simp [hs, hmem], hhandle, hquery, by rw [hs, hanswers]; exact hprog⟩
  | found hQuery index other i service hindex hinfo hmatch =>
      refine ⟨hs ▸ hwell', by simpa [hs] using hprogress.older, ?_⟩
      by_cases hother : hQuery = h
      · subst hother
        have heq := hwell.query_eq hindex hinfo hmem hhandle
        subst heq
        have hanswers : returned hQuery u.log = returned hQuery t.log ++ [service] := by
          simp [hlog, returned]
        refine ⟨{ other with iIndex := i }, ?_, hhandle, hquery, ?_⟩
        · rw [hs]
          exact List.mem_set (findQuery_some hindex).1 _
        · have hcursor : ({ other with iIndex := (i : ℤ) } : QueryInfo).cursor = i + 1 := by
            simp only [QueryInfo.cursor]
            omega
          rw [hs, hanswers, hcursor]
          exact hprog.next hwell.nodup (hquery ▸ hmatch)
      · have hanswers : returned h u.log = returned h t.log := by
          simp [hlog, returned, hother]
        obtain ⟨j, hj, hne⟩ := getElem?_other hindex hmem hhandle hother
        refine ⟨info, ?_, hhandle, hquery, by rw [hs, hanswers]; exact hprog⟩
        rw [hs]
        refine List.mem_of_getElem? (i := j) ?_
        rw [List.getElem?_set_ne (fun heq => hne heq.symm)]
        exact hj
  | ended hQuery index hindex =>
      refine ⟨hs ▸ hwell', by simpa [hs] using hprogress.older, info, ?_⟩
      have hanswers : returned h u.log = returned h t.log := by
        simp [hlog, returned]
      obtain ⟨j, hj, hne⟩ := getElem?_other hindex hmem hhandle hkeep
      refine ⟨?_, hhandle, hquery, by rw [hs, hanswers]; exact hprog⟩
      rw [hs]
      exact mem_swapRemove_of_ne (findQuery_some hindex).1 hj hne

theorem enumerating_begun (hwell : WellFormed s) (hfresh : FreshHandle s (.lookupServiceBegin q))
    (hbegin : serve lstrcmpW s (.lookupServiceBegin q) = some (s', .handle (some h))) :
    Enumerating lstrcmpW s.services q h ⟨s', []⟩ := by
  have hserve := serveTo_of_serve hbegin
  have hwell' := hwell.step hfresh hserve
  cases hserve with
  | begun _ hlt =>
      refine ⟨hwell', hwell.older, ⟨s.dwHandleValue + 1, -1, q⟩, by simp, rfl, rfl, ?_⟩
      intro service hreg hmem hmatch
      refine ⟨?_, fun _ => by simp [returned]⟩
      rintro ⟨j, hj, -⟩
      exact absurd hj (Nat.not_lt_zero j)

/-- In every run of the service in which no handle is issued while it is in
use, and none of the services registered when a query began is moved behind the
index of the query, the first answer without a service comes after every such
service that matches and is still registered has been returned exactly once. -/
theorem enumeration_complete_of_keepsAhead {before during : List Request}
    {s₁ : Server} {code : ℤ}
    (hbefore : RunsTo (serverStep lstrcmpW) FreshHandle Server.create before s)
    (hfresh : FreshHandle s (.lookupServiceBegin q))
    (hbegin : serve lstrcmpW s (.lookupServiceBegin q) =
      some (s₁, .handle (some h)))
    (hduring : RunsTo (sessionStep lstrcmpW)
      (KeepsAhead lstrcmpW s.services h) ⟨s₁, []⟩ during t)
    (hlast : serve lstrcmpW t.server (.lookupServiceNext h) =
      some (s', .nLeft code)) :
    ∀ service ∈ s.services, service ∈ s'.services →
      Matches lstrcmpW q service → (returned h t.log).count service = 1 := by
  have hwell : WellFormed s := by
    refine hbefore.invariant WellFormed wellFormed_create
      fun s r s' hwell hfresh hstep => ?_
    simp only [serverStep, Option.map_eq_some_iff] at hstep
    obtain ⟨⟨_, answer⟩, hserve, rfl⟩ := hstep
    exact hwell.step hfresh (serveTo_of_serve hserve)
  have hprogress := hduring.invariant
    (Enumerating lstrcmpW s.services q h)
    (enumerating_begun hwell hfresh hbegin)
    fun t r u hprogress hkeep hstep => hprogress.step hkeep hstep
  obtain ⟨info, hmem, hhandle, rfl, hprog⟩ := hprogress.query
  have hserve := serveTo_of_serve hlast
  intro service hreg hstays hmatch
  cases hserve with
  | noMore _ index other _ hindex hinfo hnone =>
      have heq := hprogress.wellFormed.query_eq hindex hinfo hmem hhandle
      subst heq
      exact hprog.complete hnone hreg hstays hmatch

end Session

end Names

/-! ## A service that is skipped -/

/-- `lstrcmpW` on names that are equal only if they are the same. -/
def sameName (name other : Name) : Bool := name == other

/-- A service or a query with a name and a class, and nothing else. -/
def namedQuerySet (name : List UInt16) : QuerySet :=
  { dwSize := 60, lpszServiceInstanceName := some name,
    lpServiceClassId := some [1], lpVersion := none, lpszComment := none,
    dwNameSpace := 0, lpNSProviderId := none, lpszContext := none,
    dwNumberOfProtocols := 0, lpafpProtocols := none, lpszQueryString := none,
    dwNumberOfCsAddrs := 0, lpcsaBuffer := none, dwOutputFlags := 0 }

/-- Three services of one class. -/
def registerThree : List Request :=
  [.registerClass ⟨some [1], []⟩, .registerService (namedQuerySet [65]),
   .registerService (namedQuerySet [66]), .registerService (namedQuerySet [67])]

/-- The service once `registerThree` has been served. -/
def threeServices : Server :=
  { serviceClasses := [⟨some [1], []⟩],
    services :=
      [⟨0, namedQuerySet [65]⟩, ⟨1, namedQuerySet [66]⟩,
       ⟨2, namedQuerySet [67]⟩],
    queryInfo := [], dwHandleValue := 0, nextPtr := 3 }

/-- The same with a wildcard query begun. -/
def wildcardBegun : Server :=
  { threeServices with
    queryInfo := [⟨1, -1, namedQuerySet [42]⟩], dwHandleValue := 1 }

theorem threeServices_run : RunsTo (serverStep sameName) FreshHandle Server.create registerThree
      threeServices :=
  .of_exec (by decide)

/-- A wildcard query, a registration and a removal ahead of the index. -/
theorem enumeration_complete_of_keepsAhead_wildcard :
    ∃ t s', RunsTo (sessionStep sameName)
        (KeepsAhead sameName threeServices.services 1) ⟨wildcardBegun, []⟩
        [.lookupServiceNext 1, .registerService (namedQuerySet [68]),
         .deregisterService (namedQuerySet [66]), .lookupServiceNext 1,
         .lookupServiceNext 1] t ∧
      serve sameName t.server (.lookupServiceNext 1) = some (s', .nLeft 0) ∧
      ∀ service ∈ threeServices.services, service ∈ s'.services →
        Matches sameName (namedQuerySet [42]) service →
        (returned 1 t.log).count service = 1 :=
  have hfresh : FreshHandle threeServices
      (.lookupServiceBegin (namedQuerySet [42])) := by decide
  have hbegin : serve sameName threeServices
      (.lookupServiceBegin (namedQuerySet [42])) =
        some (wildcardBegun, .handle (some 1)) := by decide
  have hduring := RunsTo.of_isSome (by decide)
  ⟨_, _, hduring, rfl, enumeration_complete_of_keepsAhead
    threeServices_run hfresh hbegin hduring rfl⟩

/-- After the first service has been returned it is deregistered: the last one
takes its place and is never returned, although it stays registered. -/
theorem moved_service_is_skipped :
    ∃ t s', RunsTo (serverStep sameName) FreshHandle Server.create registerThree
        threeServices ∧
      serve sameName threeServices
          (.lookupServiceBegin (namedQuerySet [42])) =
        some (wildcardBegun, .handle (some 1)) ∧
      RunsTo (sessionStep sameName) Always ⟨wildcardBegun, []⟩
        [.lookupServiceNext 1, .deregisterService (namedQuerySet [65]),
         .lookupServiceNext 1] t ∧
      serve sameName t.server (.lookupServiceNext 1) = some (s', .nLeft 0) ∧
      ⟨2, namedQuerySet [67]⟩ ∈ threeServices.services ∧
      ⟨2, namedQuerySet [67]⟩ ∈ s'.services ∧
      Matches sameName (namedQuerySet [42]) ⟨2, namedQuerySet [67]⟩ ∧
      (returned 1 t.log).count ⟨2, namedQuerySet [67]⟩ = 0 :=
  have hduring := RunsTo.of_isSome (by decide)
  ⟨_, _, threeServices_run, by decide, hduring, rfl, by decide, by decide,
    by decide, by decide⟩

end MiscProjects.NameService
