import Mathlib.Data.Set.Insert
import MiscProjects.NameService.Durability
import MiscProjects.NameService.Isolation
import MiscProjects.NameService.Provider

/-!
# The provider and the service as a directory

A directory maps class ids to classes, and holds services and lookups.  A lookup
returns services that it selects, in any order and each once.  The provider and the
service behave as a directory, call by call, where the two ends mean the same
and no slip of the service is reached; the functions that get the info of a class
and that end a lookup never do.
-/

namespace MiscProjects.NameService

open MiscProjects.SwapRemove

/-! ## The directory -/

/-- A lookup and the numbers of the services it has returned. -/
structure Lookup where
  query : QuerySet
  returned : Set ℕ

structure Directory where
  classes : Guid → Option ServiceClassInfo
  services : ℕ → Option QuerySet
  lookups : Handle → Option Lookup

def Directory.empty : Directory where
  classes := fun _ => none
  services := fun _ => none
  lookups := fun _ => none

section Names
variable (lstrcmpW : Name → Name → Bool)

/-- A query selects the services of its name, or all of them if its name begins with
an asterisk. -/
def Selects (query service : QuerySet) : Prop :=
  ∃ name, query.lpszServiceInstanceName = some name ∧
    (name.head? = some 42 ∨ lstrcmpW (some name) service.lpszServiceInstanceName = true)

def Directory.HasClass (d : Directory) (id : Option Guid) : Prop :=
  ∃ guid, id = some guid ∧ d.classes guid ≠ none

/-- A service of the name is there. -/
def Directory.HasService (d : Directory) (name : Name) : Prop :=
  ∃ n service, d.services n = some service ∧
    lstrcmpW name service.lpszServiceInstanceName = true

/-- What a call does to the directory, and what it returns. -/
inductive Directory.Step (d : Directory) : Call → Result → Directory → Prop
  | classInstalled (sc : ServiceClassInfo) (guid : Guid) (fixedPart : List UInt8) :
      sc.lpServiceClassId = some guid → d.classes guid = none →
        Step d (.installServiceClass sc fixedPart) .noError
          { d with classes := Function.update d.classes guid (some sc) }
  | classExists (sc : ServiceClassInfo) (guid : Guid) (fixedPart : List UInt8) :
      sc.lpServiceClassId = some guid → d.classes guid ≠ none →
        Step d (.installServiceClass sc fixedPart) (.error .WSAEALREADY) d
  | classRemoved (guid : Guid) :
      d.classes guid ≠ none →
      (∀ n service, d.services n = some service → service.lpServiceClassId ≠ some guid) →
        Step d (.removeServiceClass guid) .noError
          { d with classes := Function.update d.classes guid none }
  | classUnknown (guid : Guid) :
      d.classes guid = none →
        Step d (.removeServiceClass guid) (.error .WSATYPE_NOT_FOUND) d
  | classInUse (guid : Guid) (n : ℕ) (service : QuerySet) :
      d.services n = some service → service.lpServiceClassId = some guid →
        Step d (.removeServiceClass guid) (.error .WSATYPE_NOT_FOUND) d
  | classInfo (provider : Guid) (bufSize : ℕ) (guid : Guid) (sc : ServiceClassInfo) :
      d.classes guid = some sc → sc.size ≤ bufSize →
        Step d (.getServiceClassInfo provider bufSize guid) (.classInfo sc) d
  | classInfoTooLong (provider : Guid) (bufSize : ℕ) (guid : Guid) (sc : ServiceClassInfo) :
      d.classes guid = some sc → bufSize < sc.size →
        Step d (.getServiceClassInfo provider bufSize guid) (.bufferTooSmall sc.size) d
  | classInfoUnknown (provider : Guid) (bufSize : ℕ) (guid : Guid) :
      d.classes guid = none →
        Step d (.getServiceClassInfo provider bufSize guid) (.error .WSATYPE_NOT_FOUND) d
  | serviceRegistered (qs : QuerySet) (n : ℕ) :
      d.HasClass qs.lpServiceClassId → ¬d.HasService lstrcmpW qs.lpszServiceInstanceName →
      d.services n = none →
        Step d (.setService qs .register) .noError
          { d with services := Function.update d.services n (some qs) }
  | serviceRefused (qs : QuerySet) :
      ¬d.HasClass qs.lpServiceClassId ∨ d.HasService lstrcmpW qs.lpszServiceInstanceName →
        Step d (.setService qs .register) (.error .WSAEINVAL) d
  | serviceDeleted (qs : QuerySet) (n : ℕ) (service : QuerySet) :
      d.HasClass qs.lpServiceClassId → d.services n = some service →
      lstrcmpW qs.lpszServiceInstanceName service.lpszServiceInstanceName = true →
        Step d (.setService qs .delete) .noError
          { d with services := Function.update d.services n none }
  | serviceUnknown (qs : QuerySet) :
      ¬d.HasClass qs.lpServiceClassId ∨ ¬d.HasService lstrcmpW qs.lpszServiceInstanceName →
        Step d (.setService qs .delete) (.error .WSAEINVAL) d
  | lookupBegun (qs : QuerySet) (h : Handle) :
      d.lookups h = none →
        Step d (.lookupServiceBegin qs) (.handle h)
          { d with lookups := Function.update d.lookups h (some ⟨qs, ∅⟩) }
  | found (h : Handle) (bufferLength : ℕ) (lookup : Lookup) (n : ℕ) (service : QuerySet) :
      d.lookups h = some lookup → d.services n = some service → n ∉ lookup.returned →
      Selects lstrcmpW lookup.query service → service.size ≤ bufferLength →
        Step d (.lookupServiceNext h bufferLength) (.service service)
          { d with
            lookups := Function.update d.lookups h
              (some { lookup with returned := insert n lookup.returned }) }
  | foundTooLong (h : Handle) (bufferLength : ℕ) (lookup : Lookup) (n : ℕ)
      (service : QuerySet) :
      d.lookups h = some lookup → d.services n = some service → n ∉ lookup.returned →
      Selects lstrcmpW lookup.query service → bufferLength < service.size →
        Step d (.lookupServiceNext h bufferLength) (.bufferTooSmall service.size) d
  | noMore (h : Handle) (bufferLength : ℕ) (lookup : Lookup) :
      d.lookups h = some lookup → lookup.returned.Nonempty →
      (∀ n service, d.services n = some service → Selects lstrcmpW lookup.query service →
        n ∈ lookup.returned) →
        Step d (.lookupServiceNext h bufferLength) (.error .WSA_E_NO_MORE) d
  | notFound (h : Handle) (bufferLength : ℕ) (lookup : Lookup) :
      d.lookups h = some lookup → lookup.returned = ∅ →
      (∀ n service, d.services n = some service → ¬Selects lstrcmpW lookup.query service) →
        Step d (.lookupServiceNext h bufferLength) (.error .WSASERVICE_NOT_FOUND) d
  | lookupUnknown (h : Handle) (bufferLength : ℕ) :
      d.lookups h = none →
        Step d (.lookupServiceNext h bufferLength) (.error .WSA_INVALID_HANDLE) d
  | lookupEnded (h : Handle) :
      d.lookups h ≠ none →
        Step d (.lookupServiceEnd h) .noError
          { d with lookups := Function.update d.lookups h none }
  | endUnknown (h : Handle) :
      d.lookups h = none →
        Step d (.lookupServiceEnd h) (.error .WSA_INVALID_HANDLE) d

/-- The calls lead from one directory to the other, each returning its result. -/
inductive Directory.Run : Directory → List (Call × Result) → Directory → Prop
  | nil (d : Directory) : Run d [] d
  | snoc {d d' d'' : Directory} {log : List (Call × Result)} {call : Call} {result : Result} :
      Run d log d' → Directory.Step lstrcmpW d' call result d'' →
        Run d (log ++ [(call, result)]) d''

/-! ## The service as a directory -/

/-- The lookup has returned the services it selects that the query has passed, and
none of those that lie ahead. -/
structure Tracks (s : Server) (info : QueryInfo) (lookup : Lookup) : Prop where
  query : lookup.query = info.query
  passed : ∀ service, Passed s.services info.cursor service →
    Selects lstrcmpW lookup.query service.querySet → service.ptr ∈ lookup.returned
  ahead : ∀ service, Ahead s.services info.cursor service → service.ptr ∉ lookup.returned
  older : ∀ n ∈ lookup.returned, n < s.nextPtr
  started : info.iIndex = -1 ↔ lookup.returned = ∅

/-- The tables are those of the directory. -/
structure Agrees (s : Server) (d : Directory) : Prop where
  wellFormed : WellFormed s
  classIds : ClassIds s
  classes : ∀ guid, d.classes guid ≠ none ↔ Registered s (some guid)
  services : ∀ n qs, d.services n = some qs ↔ ⟨n, qs⟩ ∈ s.services
  lookups : ∀ h, d.lookups h ≠ none ↔ ∃ info ∈ s.queryInfo, info.hHandle = h
  tracks : ∀ info ∈ s.queryInfo, ∀ lookup, d.lookups info.hHandle = some lookup →
    Tracks lstrcmpW s info lookup

/-- The calls for which the two ends agree: what is sent fits the buffer and has a
class id, the tables have room, a class is removed as its id says, a service is
registered in a registered class, no lookup is made to skip a service, a lookup
begun gets a new handle and not 0, and one that goes on is in use, has a name and
a buffer that is long enough. -/
def KeepsAgreement (s : Server) : Call → Prop
  | .installServiceClass sc _ =>
      sc.size ≤ marshallBufferSz ∧ sc.lpServiceClassId ≠ none ∧
        (¬Registered s sc.lpServiceClassId → s.serviceClasses.length < maxServiceClasses)
  | .removeServiceClass guid => RemovesTheClass s guid
  | .setService qs .register =>
      qs.size ≤ marshallBufferSz ∧ qs.lpServiceClassId ≠ none ∧
        Registered s qs.lpServiceClassId ∧
          (lookupService lstrcmpW qs.lpServiceClassId qs.lpszServiceInstanceName s = some none →
            s.services.length < maxServices ∧
              ∀ info ∈ s.queryInfo, s.services.length < info.cursor →
                matchesQuery lstrcmpW info.query qs ≠ some true)
  | .setService qs .delete =>
      qs.size ≤ marshallBufferSz ∧ qs.lpServiceClassId ≠ none ∧
        ∀ i, lookupService lstrcmpW qs.lpServiceClassId qs.lpszServiceInstanceName s =
            some (some i) →
          ∀ info ∈ s.queryInfo, i < info.cursor → info.cursor < s.services.length →
            ∀ last ∈ s.services.getLast?,
              matchesQuery lstrcmpW info.query last.querySet ≠ some true
  | .lookupServiceBegin qs =>
      qs.size ≤ marshallBufferSz ∧ s.queryInfo.length < maxQueries ∧
        s.dwHandleValue + 1 ≠ 0 ∧ ∀ info ∈ s.queryInfo, info.hHandle ≠ s.dwHandleValue + 1
  | .lookupServiceNext h bufferLength =>
      ∃ info ∈ s.queryInfo, info.hHandle = h ∧
        (info.query.lpszServiceInstanceName ≠ none ∨ s.services.length ≤ info.cursor) ∧
          ∀ i found, firstMatch lstrcmpW info.query info.cursor
              (s.services.drop info.cursor) = some (some (i, found)) →
            found.querySet.size ≤ bufferLength
  | _ => False

/-- The calls lead from one state of the service to the other, each returning its
result and keeping the agreement. -/
inductive Provided : Server → List (Call × Result) → Server → Prop
  | nil (s : Server) : Provided s [] s
  | snoc {s s' s'' : Server} {log : List (Call × Result)} {call : Call} {result : Result} :
      Provided s log s' → KeepsAgreement lstrcmpW s' call →
      provide lstrcmpW s' call = some (s'', result) →
        Provided s (log ++ [(call, result)]) s''

variable {lstrcmpW} {s s' : Server} {d : Directory} {call : Call} {result : Result}

/-! ## Classes -/

theorem matchesQuery_iff {query service : QuerySet} :
    matchesQuery lstrcmpW query service = some true ↔ Selects lstrcmpW query service := by
  simp only [matchesQuery, Selects, Option.map_eq_some_iff, Bool.or_eq_true, beq_iff_eq]

variable {lookup : Lookup} {d' : Directory} {i j : ℕ} {guid : Guid} {service : Service}
  {id : Option Guid} {info : QueryInfo} {qs : QuerySet} {handle : Handle}

theorem Tracks.congr (t : Tracks lstrcmpW s info lookup) (hservices : s'.services = s.services)
    (hptr : s'.nextPtr = s.nextPtr) : Tracks lstrcmpW s' info lookup where
  query := t.query
  passed := by
    rw [hservices]
    exact t.passed
  ahead := by
    rw [hservices]
    exact t.ahead
  older := by
    rw [hptr]
    exact t.older
  started := t.started

theorem Agrees.setClasses (h : Agrees lstrcmpW s d) {serviceClasses : List ServiceClass}
    {classes : Guid → Option ServiceClassInfo}
    (hids : ClassIds { s with serviceClasses := serviceClasses })
    (hclasses : ∀ guid, classes guid ≠ none ↔
      ∃ sc ∈ serviceClasses, sc.lpServiceClassId = some guid) :
    Agrees lstrcmpW { s with serviceClasses := serviceClasses } { d with classes := classes } where
  wellFormed := ⟨h.wellFormed.ptrs, h.wellFormed.older, h.wellFormed.handles⟩
  classIds := hids
  classes := hclasses
  services := h.services
  lookups := h.lookups
  tracks info hinfo lookup hlookup := (h.tracks info hinfo lookup hlookup).congr rfl rfl

theorem Agrees.hasClass_iff (h : Agrees lstrcmpW s d) (hid : id ≠ none) :
    d.HasClass id ↔ Registered s id := by
  obtain ⟨guid, rfl⟩ := Option.ne_none_iff_exists'.mp hid
  rw [← h.classes guid]
  simp [Directory.HasClass]

theorem Agrees.lookupServiceClass (h : Agrees lstrcmpW s d) (hid : id ≠ none) :
    ∃ found, lookupServiceClass id s.serviceClasses = some found ∧
      (found ≠ none ↔ Registered s id) := by
  obtain ⟨guid, rfl⟩ := Option.ne_none_iff_exists'.mp hid
  obtain ⟨found, hfound⟩ := @lookupServiceClass_isSome guid _ h.classIds.1
  refine ⟨found, hfound, ?_⟩
  cases found with
  | none =>
      constructor
      · intro hne
        exact absurd rfl hne
      · rintro ⟨sc, hsc, hguid⟩
        exact absurd hguid (lookupServiceClass_none hfound sc hsc)
  | some sc =>
      obtain ⟨hsc, hguid⟩ := lookupServiceClass_some hfound
      exact iff_of_true (by simp) ⟨sc, hsc, hguid⟩

theorem Agrees.installServiceClass (h : Agrees lstrcmpW s d) {sc : ServiceClassInfo}
    {fixedPart : List UInt8}
    (hkeeps : KeepsAgreement lstrcmpW s (.installServiceClass sc fixedPart)) :
    ∃ s' result d', provide lstrcmpW s (.installServiceClass sc fixedPart) = some (s', result) ∧
      d.Step lstrcmpW (.installServiceClass sc fixedPart) result d' ∧ Agrees lstrcmpW s' d' := by
  obtain ⟨hsize, hid, hroom⟩ := hkeeps
  have hmsg : (Call.installServiceClass sc fixedPart).message =
      some ⟨mynspRegisterClass, .classInfo sc fixedPart⟩ := if_pos hsize
  obtain ⟨guid, hguid⟩ := Option.ne_none_iff_exists'.mp hid
  obtain ⟨found, hfound, hregistered⟩ := h.lookupServiceClass hid
  cases found with
  | some other =>
      have hclass : d.classes guid ≠ none := by
        rw [h.classes, ← hguid]
        exact hregistered.mp (by simp)
      have hserve : serve lstrcmpW s (.registerClass ⟨sc.lpServiceClassId, fixedPart⟩) =
          some (s, .ret mynspError) := by
        simp [serve, registerClass, hfound]
      exact ⟨s, .error .WSAEALREADY, d, provide_of_serve hmsg rfl hserve rfl,
        .classExists sc guid fixedPart hguid hclass, h⟩
  | none =>
      have hnew : ¬Registered s sc.lpServiceClassId := fun hreg => hregistered.mpr hreg rfl
      have hclass : d.classes guid = none := by
        by_contra hne
        rw [← ne_eq, h.classes, ← hguid] at hne
        exact hnew hne
      have hlt := hroom hnew
      have hbound : ¬maxServices ≤ s.serviceClasses.length :=
        Nat.not_le.mpr (Nat.lt_trans hlt (by decide))
      have hserve : serve lstrcmpW s (.registerClass ⟨sc.lpServiceClassId, fixedPart⟩) =
          some ({ s with
            serviceClasses := s.serviceClasses ++ [⟨sc.lpServiceClassId, fixedPart⟩] },
            .ret mynspSuccess) := by
        simp [serve, registerClass, hfound, hbound, hlt]
      refine ⟨_, .noError, _, provide_of_serve hmsg rfl hserve rfl,
        .classInstalled sc guid fixedPart hguid hclass, h.setClasses ?_ ?_⟩
      · refine ⟨fun other hother => ?_, ?_⟩
        · rcases List.mem_append.mp hother with hother | hother
          · exact h.classIds.1 other hother
          · rw [List.mem_singleton.mp hother]
            exact hid
        · simp only [List.map_append, List.map_singleton]
          refine List.nodup_append.mpr ⟨h.classIds.2, List.nodup_singleton _, ?_⟩
          intro id hid' other hother heq
          obtain ⟨entry, hentry, rfl⟩ := List.mem_map.mp hid'
          rw [List.mem_singleton] at hother
          exact hnew ⟨entry, hentry, heq.trans hother⟩
      · intro g
        by_cases hg : g = guid
        · subst hg
          simp [hguid]
        · rw [Function.update_of_ne hg, h.classes]
          simp only [Registered, List.mem_append, List.mem_singleton, or_and_right, exists_or,
            exists_eq_left, hguid, Option.some.injEq, Ne.symm hg, or_false]

theorem Agrees.removeServiceClass (h : Agrees lstrcmpW s d)
    (hkeeps : KeepsAgreement lstrcmpW s (.removeServiceClass guid)) :
    ∃ s' result d', provide lstrcmpW s (.removeServiceClass guid) = some (s', result) ∧
      d.Step lstrcmpW (.removeServiceClass guid) result d' ∧ Agrees lstrcmpW s' d' := by
  have hremoves : RemovesTheClass s guid := hkeeps
  unfold RemovesTheClass at hremoves
  split at hremoves
  next hnone =>
    have hserve : serve lstrcmpW s (.deregisterClass guid) = some (s, .ret mynspError) := by
      simp [serve, deregisterServiceClass, hnone]
    refine ⟨s, .error .WSATYPE_NOT_FOUND, d, provide_of_serve rfl rfl hserve rfl, ?_, h⟩
    rcases hremoves with hunregistered | ⟨service, hservice, hof⟩
    · apply Directory.Step.classUnknown
      by_contra hne
      exact hunregistered ((h.classes guid).mp hne)
    · exact .classInUse guid service.ptr service.querySet ((h.services _ _).mpr hservice) hof
  next i hi =>
    obtain ⟨hid, hunused⟩ := hremoves
    obtain ⟨sc, hget, hsc⟩ := Option.map_eq_some_iff.mp hid
    have hclass : d.classes guid ≠ none := (h.classes guid).mpr ⟨sc, List.mem_of_getElem? hget, hsc⟩
    have hserve : serve lstrcmpW s (.deregisterClass guid) =
        some ({ s with serviceClasses := s.serviceClasses.eraseIdx i }, .ret mynspSuccess) := by
      simp [serve, deregisterServiceClass, hi]
    refine ⟨_, .noError, _, provide_of_serve rfl rfl hserve rfl,
      .classRemoved guid hclass fun n service hn => hunused ⟨n, service⟩ ((h.services _ _).mp hn),
      h.setClasses ?_ ?_⟩
    · have hsub := List.eraseIdx_sublist s.serviceClasses i
      exact ⟨fun other hother => h.classIds.1 other (hsub.subset hother),
        h.classIds.2.sublist (hsub.map _)⟩
    · intro g
      by_cases hg : g = guid
      · subst hg
        rw [Function.update_self]
        refine iff_of_false (by simp) ?_
        rintro ⟨other, hother, hg⟩
        obtain ⟨j, hji, hj⟩ := List.mem_eraseIdx_iff_getElem?.mp hother
        -- Two classes of one id would stand at two places.
        have hlt : i < (s.serviceClasses.map (·.lpServiceClassId)).length := by
          rw [List.length_map]
          exact (List.getElem?_eq_some_iff.mp hget).1
        apply hji
        apply Eq.symm
        apply (List.getElem?_inj hlt h.classIds.2).mp
        rw [List.getElem?_map, List.getElem?_map, hget, hj, Option.map_some, Option.map_some,
          hsc, hg]
      · rw [Function.update_of_ne hg, h.classes]
        constructor
        · rintro ⟨other, hother, hid'⟩
          obtain ⟨j, hj⟩ := List.mem_iff_getElem?.mp hother
          refine ⟨other, List.mem_eraseIdx_iff_getElem?.mpr ⟨j, ?_, hj⟩, hid'⟩
          rintro rfl
          rw [hget, Option.some.injEq] at hj
          rw [← hj, hsc, Option.some.injEq] at hid'
          exact hg hid'.symm
        · rintro ⟨other, hother, hid'⟩
          exact ⟨other, (List.eraseIdx_sublist s.serviceClasses i).subset hother, hid'⟩

/-! ## Services -/

section Looked
variable (lstrcmpW)

/-- What `LookupService` finds for an id that is not `NULL`. -/
inductive Looked (s : Server) (id : Option Guid) (name : Name) : Option ℕ → Prop
  | found (i : ℕ) (service : Service) :
      Registered s id → s.services[i]? = some service →
      lstrcmpW name service.querySet.lpszServiceInstanceName = true → Looked s id name (some i)
  | noClass : ¬Registered s id → Looked s id name none
  | noService : Registered s id →
      (∀ service ∈ s.services,
        lstrcmpW name service.querySet.lpszServiceInstanceName = false) →
        Looked s id name none

end Looked

theorem Agrees.lookupService (h : Agrees lstrcmpW s d) (hid : id ≠ none) (name : Name) :
    ∃ found, lookupService lstrcmpW id name s = some found ∧ Looked lstrcmpW s id name found := by
  obtain ⟨class?, hclass, hregistered⟩ := h.lookupServiceClass hid
  cases class? with
  | none =>
      refine ⟨none, ?_, .noClass fun hreg => hregistered.mpr hreg rfl⟩
      simp [NameService.lookupService, hclass]
  | some sc =>
      have hreg : Registered s id := hregistered.mp (by simp)
      have hlookup : NameService.lookupService lstrcmpW id name s =
          some (s.services.findIdx? fun entry =>
            lstrcmpW name entry.querySet.lpszServiceInstanceName) := by
        simp [NameService.lookupService, hclass]
      refine ⟨_, hlookup, ?_⟩
      cases hfind : s.services.findIdx? fun entry =>
          lstrcmpW name entry.querySet.lpszServiceInstanceName with
      | none => exact .noService hreg (List.findIdx?_eq_none_iff.mp hfind)
      | some i =>
          obtain ⟨hlt, hname, -⟩ := List.findIdx?_eq_some_iff_getElem.mp hfind
          exact .found i _ hreg (List.getElem?_eq_getElem hlt) hname

theorem Agrees.not_hasService (h : Agrees lstrcmpW s d) {name : Name}
    (hnone : ∀ service ∈ s.services,
      lstrcmpW name service.querySet.lpszServiceInstanceName = false) :
    ¬d.HasService lstrcmpW name := by
  rintro ⟨n, service, hn, hname⟩
  have hfalse := hnone ⟨n, service⟩ ((h.services n service).mp hn)
  rw [hname] at hfalse
  exact nomatch hfalse

theorem Agrees.register (h : Agrees lstrcmpW s d)
    (hkeeps : KeepsAgreement lstrcmpW s (.setService qs .register)) :
    ∃ s' result d', provide lstrcmpW s (.setService qs .register) = some (s', result) ∧
      d.Step lstrcmpW (.setService qs .register) result d' ∧ Agrees lstrcmpW s' d' := by
  obtain ⟨hsize, hid, hreg, hroom⟩ := hkeeps
  have hmsg : (Call.setService qs .register).message =
      some ⟨mynspRegisterService, .querySet qs⟩ := if_pos hsize
  obtain ⟨found, hfound, hlooked⟩ := h.lookupService hid qs.lpszServiceInstanceName
  cases hlooked with
  | found i service _ hi hname =>
      have hservice : d.HasService lstrcmpW qs.lpszServiceInstanceName :=
        ⟨service.ptr, service.querySet, (h.services _ _).mpr (List.mem_of_getElem? hi), hname⟩
      have hserve : serve lstrcmpW s (.registerService qs) = some (s, .ret mynspError) := by
        simp [serve, registerService, hfound]
      exact ⟨s, .error .WSAEINVAL, d, provide_of_serve hmsg rfl hserve rfl,
        .serviceRefused qs (.inr hservice), h⟩
  | noClass hnot => exact absurd hreg hnot
  | noService _ hnone =>
      obtain ⟨hlt, hskip⟩ := hroom hfound
      have hfree : d.services s.nextPtr = none := by
        by_contra hne
        obtain ⟨service, hservice⟩ := Option.ne_none_iff_exists'.mp hne
        have hlt := h.wellFormed.older _ ((h.services _ _).mp hservice)
        exact Nat.lt_irrefl _ hlt
      have hserve : serve lstrcmpW s (.registerService qs) = some ({ s with
            services := s.services ++ [⟨s.nextPtr, qs⟩],
            nextPtr := s.nextPtr + 1 }, .ret mynspSuccess) := by
        simp [serve, registerService, hfound, hlt]
      refine ⟨_, .noError, _, provide_of_serve hmsg rfl hserve rfl,
        .serviceRegistered qs s.nextPtr ((h.hasClass_iff hid).mpr hreg)
          (h.not_hasService hnone) hfree, ?_⟩
      · have hfresh : FreshHandle s (.registerService qs) := trivial
        refine ⟨h.wellFormed.step hfresh (serveTo_of_serve hserve), h.classIds, h.classes,
          fun n service => ?_, h.lookups, fun info hinfo lookup hlookup => ?_⟩
        · rw [List.mem_append, List.mem_singleton, Service.mk.injEq]
          dsimp only
          by_cases hn : n = s.nextPtr
          · subst hn
            rw [Function.update_self]
            have hnot : (⟨s.nextPtr, service⟩ : Service) ∉ s.services :=
              fun hmem => Nat.lt_irrefl _ (h.wellFormed.older _ hmem)
            simp [hnot, eq_comm]
          · rw [Function.update_of_ne hn, h.services]
            simp [hn]
        · have htracks := h.tracks info hinfo lookup hlookup
          refine ⟨htracks.query, fun service hpassed hselects => ?_, fun service hahead => ?_,
            fun n hn => Nat.lt_succ_of_lt (htracks.older n hn), htracks.started⟩
          · by_cases hservice : service = ⟨s.nextPtr, qs⟩
            · subst hservice
              obtain ⟨j, hj, hget⟩ := hpassed
              -- The new service would stand behind the index of the query.
              have hlen : s.services.length ≤ j := by
                by_contra hlt
                rw [List.getElem?_append_left (Nat.not_le.mp hlt)] at hget
                exact Nat.lt_irrefl _ (h.wellFormed.older _ (List.mem_of_getElem? hget))
              have hmatches := hskip info hinfo (Nat.lt_of_le_of_lt hlen hj)
              rw [htracks.query] at hselects
              exact absurd (matchesQuery_iff.mpr hselects) hmatches
            · exact htracks.passed service (hpassed.of_append hservice) hselects
          · by_cases hservice : service = ⟨s.nextPtr, qs⟩
            · subst hservice
              exact fun hmem => Nat.lt_irrefl _ (htracks.older _ hmem)
            · exact htracks.ahead service (hahead.of_append hservice)

theorem ptr_ne_of_ne (hwell : WellFormed s) {other : Service} (hi : s.services[i]? = some service)
    (hj : s.services[j]? = some other) (hne : j ≠ i) : other.ptr ≠ service.ptr := by
  intro heq
  have hlt : i < (s.services.map (·.ptr)).length := by
    rw [List.length_map]
    exact (List.getElem?_eq_some_iff.mp hi).1
  apply hne
  apply Eq.symm
  apply (List.getElem?_inj hlt hwell.ptrs).mp
  rw [List.getElem?_map, List.getElem?_map, hi, hj, Option.map_some, Option.map_some, heq]

theorem Agrees.delete (h : Agrees lstrcmpW s d)
    (hkeeps : KeepsAgreement lstrcmpW s (.setService qs .delete)) :
    ∃ s' result d', provide lstrcmpW s (.setService qs .delete) = some (s', result) ∧
      d.Step lstrcmpW (.setService qs .delete) result d' ∧ Agrees lstrcmpW s' d' := by
  obtain ⟨hsize, hid, hskip⟩ := hkeeps
  have hmsg : (Call.setService qs .delete).message =
      some ⟨mynspDeregisterService, .querySet qs⟩ := if_pos hsize
  obtain ⟨found, hfound, hlooked⟩ := h.lookupService hid qs.lpszServiceInstanceName
  have hrefused (hfound : NameService.lookupService lstrcmpW qs.lpServiceClassId
      qs.lpszServiceInstanceName s = some none) :
      provide lstrcmpW s (.setService qs .delete) = some (s, .error .WSAEINVAL) := by
    have hserve : serve lstrcmpW s (.deregisterService qs) = some (s, .ret mynspError) := by
      simp [serve, deregisterService, hfound]
    exact provide_of_serve hmsg rfl hserve rfl
  cases hlooked with
  | noClass hnot =>
      refine ⟨s, _, d, hrefused hfound, .serviceUnknown qs (.inl ?_), h⟩
      exact fun hclass => hnot ((h.hasClass_iff hid).mp hclass)
  | noService _ hnone =>
      exact ⟨s, _, d, hrefused hfound, .serviceUnknown qs (.inr (h.not_hasService hnone)), h⟩
  | found i service hreg hi hname =>
      have hilt : i < s.services.length := (List.getElem?_eq_some_iff.mp hi).1
      have hserve : serve lstrcmpW s (.deregisterService qs) =
          some ({ s with services := swapRemove s.services i }, .ret mynspSuccess) := by
        simp [serve, deregisterService, hfound]
      have hservice : d.services service.ptr = some service.querySet :=
        (h.services _ _).mpr (List.mem_of_getElem? hi)
      refine ⟨_, .noError, _, provide_of_serve hmsg rfl hserve rfl,
        .serviceDeleted qs service.ptr service.querySet ((h.hasClass_iff hid).mpr hreg)
          hservice hname, ?_⟩
      · have hfresh : FreshHandle s (.deregisterService qs) := trivial
        refine ⟨h.wellFormed.step hfresh (serveTo_of_serve hserve), h.classIds, h.classes,
          fun n entry => ?_, h.lookups, fun info hinfo lookup hlookup => ?_⟩
        · rw [(swapRemove_perm hilt).mem_iff, List.mem_eraseIdx_iff_getElem?]
          dsimp only
          by_cases hn : n = service.ptr
          · subst hn
            rw [Function.update_self]
            refine iff_of_false (by simp) ?_
            rintro ⟨j, hji, hj⟩
            exact ptr_ne_of_ne h.wellFormed hi hj hji rfl
          · rw [Function.update_of_ne hn, h.services, List.mem_iff_getElem?]
            constructor
            · rintro ⟨j, hj⟩
              refine ⟨j, ?_, hj⟩
              rintro rfl
              rw [hi, Option.some.injEq] at hj
              rw [hj] at hn
              exact hn rfl
            · rintro ⟨j, _, hj⟩
              exact ⟨j, hj⟩
        · have htracks := h.tracks info hinfo lookup hlookup
          refine ⟨htracks.query, fun entry hpassed hselects => ?_,
            fun entry hahead => htracks.ahead entry hahead.of_swapRemove,
            htracks.older, htracks.started⟩
          refine htracks.passed entry (hpassed.of_swapRemove ?_) hselects
          rintro ⟨hlt, hlen, hlast⟩
          rw [htracks.query] at hselects
          exact hskip i hfound info hinfo hlt hlen entry hlast (matchesQuery_iff.mpr hselects)

/-! ## Lookups -/

theorem Agrees.begin (h : Agrees lstrcmpW s d)
    (hkeeps : KeepsAgreement lstrcmpW s (.lookupServiceBegin qs)) :
    ∃ s' result d', provide lstrcmpW s (.lookupServiceBegin qs) = some (s', result) ∧
      d.Step lstrcmpW (.lookupServiceBegin qs) result d' ∧ Agrees lstrcmpW s' d' := by
  obtain ⟨hsize, hlt, hzero, hfresh⟩ := hkeeps
  have hmsg : (Call.lookupServiceBegin qs).message =
      some ⟨mynspLookupServiceBegin, .querySet qs⟩ := if_pos hsize
  have hserve : serve lstrcmpW s (.lookupServiceBegin qs) = some ({ s with
        dwHandleValue := s.dwHandleValue + 1,
        queryInfo := s.queryInfo ++ [⟨s.dwHandleValue + 1, -1, qs⟩] },
        .handle (some (s.dwHandleValue + 1))) := by
    simp only [serve, registerQuery, if_neg (Nat.not_le.mpr hlt)]
  have hresult : (Call.lookupServiceBegin qs).result (.handle (some (s.dwHandleValue + 1))) =
      some (.handle (s.dwHandleValue + 1)) := by
    have hcode : (s.dwHandleValue + 1).toInt ≠ mynspError := by
      intro heq
      apply hzero
      rw [← BitVec.ofInt_toInt (x := s.dwHandleValue + 1), heq]
      rfl
    simp only [Call.result, Response.int, Option.map_some, if_neg hcode, BitVec.ofInt_toInt]
  have hfree : d.lookups (s.dwHandleValue + 1) = none := by
    by_contra hne
    obtain ⟨info, hinfo, hhandle⟩ := (h.lookups _).mp hne
    exact hfresh info hinfo hhandle
  refine ⟨_, _, _, provide_of_serve hmsg rfl hserve hresult,
    .lookupBegun qs (s.dwHandleValue + 1) hfree, ?_⟩
  have hfresh' : FreshHandle s (.lookupServiceBegin qs) := fun _ => hfresh
  refine ⟨h.wellFormed.step hfresh' (serveTo_of_serve hserve), h.classIds, h.classes,
    h.services, fun handle => ?_, fun info hinfo lookup hlookup => ?_⟩
  · dsimp only
    by_cases hhandle : handle = s.dwHandleValue + 1
    · subst hhandle
      simp
    · rw [Function.update_of_ne hhandle, h.lookups]
      simp only [List.mem_append, List.mem_singleton, or_and_right, exists_or, exists_eq_left,
        Ne.symm hhandle, or_false]
  · dsimp only at hlookup
    rcases List.mem_append.mp hinfo with hinfo | hinfo
    · rw [Function.update_of_ne (hfresh info hinfo)] at hlookup
      exact (h.tracks info hinfo lookup hlookup).congr rfl rfl
    · rw [List.mem_singleton] at hinfo
      subst hinfo
      rw [Function.update_self, Option.some.injEq] at hlookup
      subst hlookup
      refine ⟨rfl, fun service hpassed _ => ?_, fun service _ => Set.notMem_empty _,
        fun n hn => absurd hn (Set.notMem_empty n), by simp⟩
      obtain ⟨j, hj, _⟩ := hpassed
      exact absurd hj (Nat.not_lt_zero j)

theorem firstMatch_matches {q : QuerySet} {services : List Service}
    (hmatch : firstMatch lstrcmpW q i services = some (some (j, service))) :
    Matches lstrcmpW q service := by
  induction services generalizing i with
  | nil => simp [firstMatch] at hmatch
  | cons head rest ih =>
      simp only [firstMatch, Option.bind_eq_bind, Option.bind_eq_some_iff] at hmatch
      obtain ⟨ok, hok, hmatch⟩ := hmatch
      cases ok with
      | true =>
          simp only [if_true, Option.some.injEq, Prod.mk.injEq] at hmatch
          obtain ⟨_, rfl⟩ := hmatch
          exact hok
      | false =>
          simp only [Bool.false_eq_true, if_false] at hmatch
          exact ih hmatch

theorem QuerySet.size_pos (qs : QuerySet) : 0 < qs.size := by
  unfold QuerySet.size
  omega

theorem Tracks.found (htracks : Tracks lstrcmpW s info lookup) (hwell : WellFormed s) {n : ℕ}
    (hget : (s.services.drop info.cursor)[n]? = some service)
    (hbefore : ∀ m < n, ∀ other, (s.services.drop info.cursor)[m]? = some other →
      ¬Matches lstrcmpW info.query other) :
    Tracks lstrcmpW s { info with iIndex := (info.cursor + n : ℕ) }
      { lookup with returned := insert service.ptr lookup.returned } := by
  rw [List.getElem?_drop] at hget
  have hcursor : QueryInfo.cursor { info with iIndex := (info.cursor + n : ℕ) } =
      info.cursor + n + 1 := by
    simp only [QueryInfo.cursor]
    omega
  refine ⟨htracks.query, fun other hpassed hselects => ?_, fun other hahead hmem => ?_,
    fun m hm => ?_, ?_⟩
  · rw [hcursor] at hpassed
    obtain ⟨j, hj, hother⟩ := hpassed
    by_cases hpast : j < info.cursor
    · exact Set.mem_insert_of_mem _ (htracks.passed other ⟨j, hpast, hother⟩ hselects)
    · by_cases hlast : j = info.cursor + n
      · subst hlast
        rw [hget, Option.some.injEq] at hother
        subst hother
        exact Set.mem_insert _ _
      · -- What lies between does not match.
        have hskipped : (s.services.drop info.cursor)[j - info.cursor]? = some other := by
          rw [List.getElem?_drop, Nat.add_sub_cancel' (Nat.not_lt.mp hpast)]
          exact hother
        have hnot := hbefore (j - info.cursor) (by omega) other hskipped
        dsimp only at hselects
        rw [htracks.query] at hselects
        exact absurd (matchesQuery_iff.mpr hselects) hnot
  · rw [hcursor] at hahead
    obtain ⟨j, hj, hother⟩ := hahead
    rcases Set.mem_insert_iff.mp hmem with hptr | hold
    · exact ptr_ne_of_ne hwell hget hother (by omega) hptr
    · exact htracks.ahead other ⟨j, by omega, hother⟩ hold
  · rcases Set.mem_insert_iff.mp hm with rfl | hm
    · exact hwell.older service (List.mem_of_getElem? hget)
    · exact htracks.older m hm
  · refine iff_of_false (by simp only; omega) ?_
    exact (Set.insert_nonempty _ _).ne_empty

theorem Agrees.next (h : Agrees lstrcmpW s d) {bufferLength : ℕ}
    (hkeeps : KeepsAgreement lstrcmpW s (.lookupServiceNext handle bufferLength)) : ∃ s' result d',
      provide lstrcmpW s (.lookupServiceNext handle bufferLength) = some (s', result) ∧
        d.Step lstrcmpW (.lookupServiceNext handle bufferLength) result d' ∧
          Agrees lstrcmpW s' d' := by
  obtain ⟨info, hinfo, hhandle, hname, hbuffer⟩ := hkeeps
  obtain ⟨index, hindex, hget⟩ := h.wellFormed.findQuery_eq hinfo hhandle
  obtain ⟨lookup, hlookup⟩ : ∃ lookup, d.lookups info.hHandle = some lookup :=
    Option.ne_none_iff_exists'.mp ((h.lookups _).mpr ⟨info, hinfo, rfl⟩)
  have htracks := h.tracks info hinfo lookup hlookup
  rw [hhandle] at hlookup
  obtain ⟨found, hmatch⟩ : ∃ found, firstMatch lstrcmpW info.query info.cursor
      (s.services.drop info.cursor) = some found :=
    firstMatch_isSome (hname.imp_right List.drop_eq_nil_of_le)
  cases found with
  | none =>
      have hserve : serve lstrcmpW s (.lookupServiceNext handle) =
          some (s, .nLeft (if info.iIndex = -1 then -1 else 0)) := by
        simp [serve, performQuery, hindex, hget, hmatch]
      have hall (n : ℕ) (service : QuerySet) (hn : d.services n = some service)
          (hselects : Selects lstrcmpW lookup.query service) : n ∈ lookup.returned := by
        have hmem := (h.services n service).mp hn
        rcases passed_or_ahead hmem info.cursor with hpassed | ⟨j, hj, hservice⟩
        · exact htracks.passed _ hpassed hselects
        · have hdrop : (⟨n, service⟩ : Service) ∈ s.services.drop info.cursor :=
            List.mem_iff_getElem?.mpr ⟨j - info.cursor, by
              rw [List.getElem?_drop, Nat.add_sub_cancel' hj]
              exact hservice⟩
          have hnot := firstMatch_none hmatch _ hdrop
          rw [htracks.query] at hselects
          exact absurd (matchesQuery_iff.mpr hselects) hnot
      by_cases hstarted : info.iIndex = -1
      · have hempty := htracks.started.mp hstarted
        rw [if_pos hstarted] at hserve
        refine ⟨s, .error .WSASERVICE_NOT_FOUND, d, provide_of_serve rfl rfl hserve rfl,
          .notFound handle bufferLength lookup hlookup hempty fun n service hn hselects => ?_, h⟩
        have hmem := hall n service hn hselects
        rw [hempty] at hmem
        exact hmem
      · have hnonempty : lookup.returned.Nonempty :=
          Set.nonempty_iff_ne_empty.mpr fun hempty => hstarted (htracks.started.mpr hempty)
        rw [if_neg hstarted] at hserve
        exact ⟨s, .error .WSA_E_NO_MORE, d, provide_of_serve rfl rfl hserve rfl,
          .noMore handle bufferLength lookup hlookup hnonempty hall, h⟩
  | some pair =>
      obtain ⟨i, service⟩ := pair
      obtain ⟨n, rfl, hservice, hbefore⟩ := firstMatch_some hmatch
      have hserve : serve lstrcmpW s (.lookupServiceNext handle) = some ({ s with
            queryInfo := s.queryInfo.set index { info with iIndex := (info.cursor + n : ℕ) } },
            .service service) := by
        simp [serve, performQuery, hindex, hget, hmatch]
      have hfits := hbuffer _ _ hmatch
      have hresult : (Call.lookupServiceNext handle bufferLength).result (.service service) =
          some (.service service.querySet) := by
        have hpos := service.querySet.size_pos
        simp only [Call.result, Response.int, Option.bind_some]
        rw [if_neg (by omega), if_neg (by omega), if_neg (by omega)]
      have hplace : s.services[info.cursor + n]? = some service := by
        rw [List.getElem?_drop] at hservice
        exact hservice
      have hselects : Selects lstrcmpW lookup.query service.querySet := by
        rw [htracks.query]
        exact matchesQuery_iff.mp (firstMatch_matches hmatch)
      refine ⟨_, _, _, provide_of_serve rfl rfl hserve hresult,
        .found handle bufferLength lookup service.ptr service.querySet hlookup
          ((h.services _ _).mpr (List.mem_of_getElem? hplace))
          (htracks.ahead service ⟨_, Nat.le_add_right _ _, hplace⟩) hselects hfits, ?_⟩
      have hfresh : FreshHandle s (.lookupServiceNext handle) := trivial
      have hlt : index < s.queryInfo.length := (List.getElem?_eq_some_iff.mp hget).1
      have hhandles := map_hHandle_set hget (info.cursor + n : ℕ)
      have hwell := h.wellFormed.step hfresh (serveTo_of_serve hserve)
      refine ⟨hwell, h.classIds, h.classes, h.services, fun other => ?_,
        fun other hother lookup' hlookup' => ?_⟩
      · -- The handles in use are the same.
        have hmem : (∃ info' ∈ s.queryInfo.set index
              { info with iIndex := (info.cursor + n : ℕ) }, info'.hHandle = other) ↔
            ∃ info' ∈ s.queryInfo, info'.hHandle = other := by
          rw [← List.mem_map, ← List.mem_map, hhandles]
        dsimp only
        rw [hmem, ← h.lookups]
        by_cases hother : other = handle
        · subst hother
          simp [hlookup]
        · rw [Function.update_of_ne hother]
      · dsimp only at hother hlookup'
        by_cases hsame : other.hHandle = handle
        · rw [hsame, Function.update_self, Option.some.injEq] at hlookup'
          subst hlookup'
          have heq : other = { info with iIndex := (info.cursor + n : ℕ) } :=
            List.inj_on_of_nodup_map hwell.handles hother (List.mem_set hlt _)
              (hsame.trans hhandle.symm)
          subst heq
          exact (htracks.found h.wellFormed hservice hbefore).congr rfl rfl
        · rw [Function.update_of_ne hsame] at hlookup'
          rcases List.mem_or_eq_of_mem_set hother with hold | heq
          · exact (h.tracks other hold lookup' hlookup').congr rfl rfl
          · exact absurd (by rw [heq]; exact hhandle) hsame

/-! ## Runs -/

theorem agrees_empty : Agrees lstrcmpW Server.create Directory.empty where
  wellFormed := wellFormed_create
  classIds := kept_create.classIds
  classes guid := by simp [Directory.empty, Registered, Server.create]
  services n qs := by simp [Directory.empty, Server.create]
  lookups h := by simp [Directory.empty, Server.create]
  tracks info hinfo := nomatch hinfo

theorem Agrees.provide (h : Agrees lstrcmpW s d) (hkeeps : KeepsAgreement lstrcmpW s call) :
    ∃ s' result d', provide lstrcmpW s call = some (s', result) ∧
      d.Step lstrcmpW call result d' ∧ Agrees lstrcmpW s' d' := by
  cases call with
  | lookupServiceBegin qs => exact h.begin hkeeps
  | lookupServiceNext handle bufferLength => exact h.next hkeeps
  | lookupServiceEnd handle => exact absurd hkeeps id
  | setService qs op =>
      cases op with
      | register => exact h.register hkeeps
      | deregister => exact absurd hkeeps id
      | delete => exact h.delete hkeeps
  | installServiceClass sc fixedPart => exact h.installServiceClass hkeeps
  | removeServiceClass guid => exact h.removeServiceClass hkeeps
  | getServiceClassInfo provider bufSize guid => exact absurd hkeeps id

theorem lookupServiceEnd_handles
    (hprovide : provide lstrcmpW s (.lookupServiceEnd handle) = some (s', result)) :
    handle ∈ s.queryInfo.map (·.hHandle) ∧
      s'.queryInfo.map (·.hHandle) = s.queryInfo.map (·.hHandle) := by
  obtain ⟨answer, hserve, _⟩ : ∃ answer,
      serve lstrcmpW s (.lookupServiceNext handle) = some (s', answer) ∧
        (Call.lookupServiceEnd handle).result answer = some result := by
    simp only [NameService.provide, Option.bind_eq_bind, Option.bind_eq_some_iff] at hprovide
    obtain ⟨_, hmsg, _, hr, ⟨_, answer⟩, hserve, _, hresult, heq⟩ := hprovide
    cases hmsg
    cases hr
    cases heq
    exact ⟨answer, hserve, hresult⟩
  cases serveTo_of_serve hserve with
  | found _ index info i service hindex hinfo _ =>
      refine ⟨?_, map_hHandle_set hinfo i⟩
      exact List.mem_map.mpr
        ⟨info, List.mem_of_getElem? hinfo, (findQuery_some hindex).2 info hinfo⟩
  | noMore _ index info code hindex hinfo _ =>
      refine ⟨?_, rfl⟩
      exact List.mem_map.mpr
        ⟨info, List.mem_of_getElem? hinfo, (findQuery_some hindex).2 info hinfo⟩
  | classes _ serviceClasses code =>
      simp only [serve, performQuery, Option.bind_eq_bind, Option.bind_eq_some_iff] at hserve
      obtain ⟨_, _, _, _, found, _, hserve⟩ := hserve
      cases found <;> simp at hserve

theorem Agrees.not_end (h : Agrees lstrcmpW s d)
    (hprovide : NameService.provide lstrcmpW s (.lookupServiceEnd handle) = some (s', result))
    (hstep : d.Step lstrcmpW (.lookupServiceEnd handle) result d') : ¬Agrees lstrcmpW s' d' := by
  intro h'
  obtain ⟨hmem, hsame⟩ := lookupServiceEnd_handles hprovide
  have huse : d.lookups handle ≠ none := (h.lookups handle).mpr (List.mem_map.mp hmem)
  cases hstep with
  | lookupEnded _ _ =>
      rw [← hsame] at hmem
      exact (h'.lookups handle).mpr (List.mem_map.mp hmem) (Function.update_self ..)
  | endUnknown _ hnone => exact huse hnone

theorem ServiceClassInfo.one_lt_size (sc : ServiceClassInfo) : 1 < sc.size := by
  unfold ServiceClassInfo.size
  omega

theorem not_step_getServiceClassInfo {provider : Guid} {bufSize : ℕ}
    (hprovide : NameService.provide lstrcmpW s (.getServiceClassInfo provider bufSize guid) =
      some (s', result)) :
    ¬d.Step lstrcmpW (.getServiceClassInfo provider bufSize guid) result d' := by
  have hresult : result = .bufferTooSmall 1 := by
    simp only [NameService.provide, Option.bind_eq_bind, Option.bind_eq_some_iff] at hprovide
    obtain ⟨_, hmsg, _, hr, ⟨_, answer⟩, hserve, _, hresult, heq⟩ := hprovide
    cases hmsg
    cases hr
    cases heq
    have hanswer : answer = .ret mynspSuccess := by
      simp only [serve, Option.bind_eq_bind, Option.bind_eq_some_iff] at hserve
      obtain ⟨found, _, hserve⟩ := hserve
      cases found with
      | none => cases hserve
      | some _ =>
          simp only [Option.some.injEq, Prod.mk.injEq] at hserve
          exact hserve.2.symm
    subst hanswer
    simp only [Call.result, Response.int, Option.bind_some, mynspSuccess] at hresult
    split at hresult
    · contradiction
    · split at hresult
      · exact (Option.some.inj hresult).symm
      · contradiction
  subst hresult
  intro hstep
  generalize hone : 1 = size at hstep
  cases hstep with
  | classInfoTooLong _ _ _ sc _ _ =>
      have hlt := sc.one_lt_size
      omega

/-- Calls that keep the agreement do to the tables what they do to the directory and
return what it returns, and each of them is answered; a call that ends a lookup
or gets the info of a class never agrees with the directory. -/
theorem provider_is_directory {log : List (Call × Result)} (h : Agrees lstrcmpW s d)
    (hrun : Provided lstrcmpW s log s') :
    ∃ d', Directory.Run lstrcmpW d log d' ∧ Agrees lstrcmpW s' d' ∧
      (∀ call, KeepsAgreement lstrcmpW s' call →
        ∃ s'' result d'', NameService.provide lstrcmpW s' call = some (s'', result) ∧
          d'.Step lstrcmpW call result d'' ∧ Agrees lstrcmpW s'' d'') ∧
      ∀ call s'' result d'',
        (∃ handle, call = .lookupServiceEnd handle) ∨
          (∃ provider bufSize guid, call = .getServiceClassInfo provider bufSize guid) →
        NameService.provide lstrcmpW s' call = some (s'', result) →
          d'.Step lstrcmpW call result d'' → ¬Agrees lstrcmpW s'' d'' := by
  have hsim : ∃ d', Directory.Run lstrcmpW d log d' ∧ Agrees lstrcmpW s' d' := by
    induction hrun with
    | nil => exact ⟨d, .nil d, h⟩
    | snoc _ hkeeps hprovide ih =>
        obtain ⟨d', hrun', h'⟩ := ih
        obtain ⟨s₁, result₁, d'', hprovide₁, hstep, h''⟩ := h'.provide hkeeps
        rw [hprovide, Option.some.injEq, Prod.mk.injEq] at hprovide₁
        obtain ⟨rfl, rfl⟩ := hprovide₁
        exact ⟨d'', .snoc hrun' hstep, h''⟩
  obtain ⟨d', hrun', h'⟩ := hsim
  refine ⟨d', hrun', h', fun call hkeeps => h'.provide hkeeps, ?_⟩
  rintro call s'' result d'' (⟨handle, rfl⟩ | ⟨provider, bufSize, guid, rfl⟩) hprovide hstep
  · exact h'.not_end hprovide hstep
  · exact absurd hstep (not_step_getServiceClassInfo hprovide)

end Names

/-- The info of a class with an id and nothing else. -/
def classOf (guid : Guid) : ServiceClassInfo :=
  ⟨some guid, none, 0, none⟩

/-- A class is installed, a lookup of all services begun, a service registered and
returned. -/
theorem provider_is_directory_one_service :
    ∃ s d, Provided sameName Server.create
        [(.installServiceClass (classOf (classId 1)) [], .noError),
          (.lookupServiceBegin (namedQuerySet [42]), .handle 1),
          (.setService (serviceOf [65] (classId 1)) .register, .noError),
          (.lookupServiceNext 1 100, .service (serviceOf [65] (classId 1)))] s ∧
      Directory.Run sameName .empty
        [(.installServiceClass (classOf (classId 1)) [], .noError),
          (.lookupServiceBegin (namedQuerySet [42]), .handle 1),
          (.setService (serviceOf [65] (classId 1)) .register, .noError),
          (.lookupServiceNext 1 100, .service (serviceOf [65] (classId 1)))] d ∧
      Agrees sameName s d :=
  have hrun : Provided sameName Server.create
      ([] ++ [(Call.installServiceClass (classOf (classId 1)) [], Result.noError)] ++
        [(.lookupServiceBegin (namedQuerySet [42]), .handle 1)] ++
        [(.setService (serviceOf [65] (classId 1)) .register, .noError)] ++
        [(.lookupServiceNext 1 100, .service (serviceOf [65] (classId 1)))]) _ :=
    .snoc (.snoc (.snoc (.snoc (.nil _)
      ⟨by decide, by decide, fun _ => by decide⟩ rfl)
      ⟨by decide, by decide, by decide, fun _ hinfo => nomatch hinfo⟩ rfl)
      ⟨by decide, by decide, by decide, fun _ => ⟨by decide, by decide⟩⟩ rfl)
      ⟨⟨1, -1, namedQuerySet [42]⟩, by decide, rfl, .inl (by decide),
        fun _ _ hmatch => by cases hmatch; decide⟩ rfl
  let ⟨d, hd, hagrees, _⟩ := provider_is_directory agrees_empty hrun
  ⟨_, d, hrun, hd, hagrees⟩

/-- A lookup that is begun and ended stays in the table, and a call for the info of
a class that is installed takes the service down. -/
theorem session_leaves_query :
    (∃ s s', provide sameName Server.create (.lookupServiceBegin (namedQuerySet [42])) =
        some (s, .handle 1) ∧
      provide sameName s (.lookupServiceEnd 1) = some (s', .noError) ∧
      s'.queryInfo ≠ Server.create.queryInfo) ∧
    ∃ s, provide sameName Server.create (.installServiceClass (classOf (classId 1)) []) =
        some (s, .noError) ∧
      provide sameName s (.getServiceClassInfo (classId 2) 100 (classId 1)) = none := by
  constructor
  · exact ⟨_, _, rfl, rfl, by decide⟩
  · exact ⟨_, rfl, rfl⟩

end MiscProjects.NameService
