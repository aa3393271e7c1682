import MiscProjects.NameService.Enumeration

/-!
# Queries are isolated

Ending a query moves the last one into its place, so the queries change their
positions; their handles, cursors and parameters stay together.  What one
handle is answered is therefore what it is answered when no other query is
there, as long as the service answers at all: a request for the next service
with a handle that is not in use, or of a query without a name, takes the
service down for everybody.
-/

namespace MiscProjects.NameService

open MiscProjects.Runs MiscProjects.SwapRemove

/-- The lookups that the service answers: there is room for a new query, and a
search is made with a handle in use, with a name if a service lies ahead. -/
def Answerable (s : Server) : Request → Prop
  | .lookupServiceBegin _ => s.queryInfo.length < maxQueries
  | .lookupServiceNext hQuery =>
      ∃ info ∈ s.queryInfo, info.hHandle = hQuery ∧
        (info.query.lpszServiceInstanceName ≠ none ∨
          s.services.length ≤ info.cursor)
  | .lookupServiceEnd _ => True
  | _ => False

instance (s : Server) (r : Request) : Decidable (Answerable s r) :=
  match r with
  | .lookupServiceBegin _ =>
      inferInstanceAs (Decidable (s.queryInfo.length < maxQueries))
  | .lookupServiceNext hQuery =>
      inferInstanceAs (Decidable (∃ info ∈ s.queryInfo, info.hHandle = hQuery ∧
        (info.query.lpszServiceInstanceName ≠ none ∨
          s.services.length ≤ info.cursor)))
  | .lookupServiceEnd _ => inferInstanceAs (Decidable True)
  | .registerClass _ | .deregisterClass _ | .lookupClass _ | .registerService _
  | .deregisterService _ => inferInstanceAs (Decidable False)

/-- The number of lookups begun. -/
def begins (requests : List Request) : ℕ :=
  requests.countP fun
    | .lookupServiceBegin _ => true
    | _ => false

/-- The requests of one handle, made with another one. -/
def requestsOf (h h' : Handle) (requests : List Request) : List Request :=
  requests.filterMap fun
    | .lookupServiceNext hQuery =>
        if hQuery = h then some (.lookupServiceNext h') else none
    | .lookupServiceEnd hQuery =>
        if hQuery = h then some (.lookupServiceEnd h') else none
    | _ => none

/-- What a handle has been answered. -/
def answersTo (h : Handle) (log : List (Request × Response)) : List Response :=
  log.filterMap fun
    | (.lookupServiceNext hQuery, answer) =>
        if hQuery = h then some answer else none
    | (.lookupServiceEnd hQuery, answer) =>
        if hQuery = h then some answer else none
    | _ => none

theorem requestsOf_append (h h' : Handle) (requests more : List Request) :
    requestsOf h h' (requests ++ more) = requestsOf h h' requests ++ requestsOf h h' more :=
  List.filterMap_append

theorem answersTo_append (h : Handle) (log more : List (Request × Response)) :
    answersTo h (log ++ more) = answersTo h log ++ answersTo h more :=
  List.filterMap_append

theorem begins_append (requests more : List Request) :
    begins (requests ++ more) = begins requests + begins more :=
  List.countP_append

/-! ## The handles issued -/

/-- Handle number `n`. -/
def issued (base : Handle) (n : ℕ) : Handle := base + BitVec.ofNat 32 n

theorem issued_inj {base : Handle} {k n : ℕ} (hk : 0 < k) (hn : 0 < n) (hk' : k ≤ 2 ^ 32)
    (hn' : n ≤ 2 ^ 32) (h : issued base k = issued base n) : k = n := by
  have hsame : BitVec.ofNat 32 k = BitVec.ofNat 32 n := (BitVec.add_right_inj base).mp h
  have hval := congrArg BitVec.toNat hsame
  simp only [BitVec.toNat_ofNat] at hval
  omega

/-- `n` handles have been issued, and those in use are among them and
different. -/
structure Issued (base : Handle) (n : ℕ) (s : Server) : Prop where
  value : s.dwHandleValue = issued base n
  live : ∀ info ∈ s.queryInfo, ∃ k, 0 < k ∧ k ≤ n ∧
    info.hHandle = issued base k
  wellFormed : WellFormed s

section Names
variable {lstrcmpW : Name → Name → Bool} {base h h' : Handle} {n : ℕ}
  {s s' u : Server} {r : Request} {answer : Response} {q : QuerySet}

theorem issued_succ (base : Handle) (n : ℕ) : issued base n + 1 = issued base (n + 1) := by
  unfold issued
  rw [BitVec.ofNat_add, ← BitVec.add_assoc]
  rfl

theorem Issued.fresh (hissued : Issued base n s) (hlt : n < 2 ^ 32) :
    ∀ info ∈ s.queryInfo, info.hHandle ≠ s.dwHandleValue + 1 := by
  intro info hinfo heq
  obtain ⟨k, hpos, hle, hhandle⟩ := hissued.live info hinfo
  rw [hhandle, hissued.value, issued_succ] at heq
  have hsame := issued_inj hpos (Nat.succ_pos n) (Nat.le_trans hle (Nat.le_of_lt hlt)) hlt heq
  omega

/-! ## What a lookup does -/

section LookupTo
variable (lstrcmpW)

/-- What an answerable lookup does to the queries. -/
inductive LookupTo (s : Server) : Request → Server → Response → Prop
  | begun (si : QuerySet) :
      LookupTo s (.lookupServiceBegin si)
        { s with
          dwHandleValue := s.dwHandleValue + 1,
          queryInfo := s.queryInfo ++ [⟨s.dwHandleValue + 1, -1, si⟩] }
        (.handle (some (s.dwHandleValue + 1)))
  | found (hQuery : Handle) (index : ℕ) (info : QueryInfo) (i : ℕ)
      (service : Service) (hindex : findQuery hQuery s = some index)
      (hinfo : s.queryInfo[index]? = some info)
      (hmatch : firstMatch lstrcmpW info.query info.cursor
        (s.services.drop info.cursor) = some (some (i, service))) :
      LookupTo s (.lookupServiceNext hQuery)
        { s with
          queryInfo := s.queryInfo.set index { info with iIndex := i } }
        (.service service)
  | noMore (hQuery : Handle) (index : ℕ) (info : QueryInfo)
      (hindex : findQuery hQuery s = some index)
      (hinfo : s.queryInfo[index]? = some info)
      (hmatch : firstMatch lstrcmpW info.query info.cursor
        (s.services.drop info.cursor) = some none) :
      LookupTo s (.lookupServiceNext hQuery) s
        (.nLeft (if info.iIndex = -1 then -1 else 0))
  | unknown (hQuery : Handle) (hindex : findQuery hQuery s = none) :
      LookupTo s (.lookupServiceEnd hQuery) s (.ret mynspError)
  | ended (hQuery : Handle) (index : ℕ)
      (hindex : findQuery hQuery s = some index) :
      LookupTo s (.lookupServiceEnd hQuery)
        { s with queryInfo := swapRemove s.queryInfo index }
        (.ret mynspSuccess)

end LookupTo

theorem lookupTo_of_serve (hanswerable : Answerable s r)
    (hserve : serve lstrcmpW s r = some (s', answer)) : LookupTo lstrcmpW s r s' answer := by
  cases r with
  | registerClass | deregisterClass | lookupClass | registerService
  | deregisterService => cases hanswerable
  | lookupServiceBegin si =>
      have hnot : ¬ maxQueries ≤ s.queryInfo.length := Nat.not_le.mpr hanswerable
      simp only [serve, registerQuery, hnot, if_false, Option.some.injEq, Prod.mk.injEq] at hserve
      obtain ⟨rfl, rfl⟩ := hserve
      exact .begun si
  | lookupServiceNext hQuery =>
      simp only [serve, performQuery, Option.bind_eq_bind, Option.bind_eq_some_iff] at hserve
      obtain ⟨index, hindex, info, hinfo, found, hmatch, hserve⟩ := hserve
      cases found with
      | none =>
          simp only [Option.some.injEq, Prod.mk.injEq] at hserve
          obtain ⟨rfl, rfl⟩ := hserve
          exact .noMore hQuery index info hindex hinfo hmatch
      | some pair =>
          simp only [Option.some.injEq, Prod.mk.injEq] at hserve
          obtain ⟨rfl, rfl⟩ := hserve
          exact .found hQuery index info pair.1 pair.2 hindex hinfo hmatch
  | lookupServiceEnd hQuery =>
      simp only [serve, deleteQuery, Option.some.injEq, Prod.mk.injEq] at hserve
      obtain ⟨rfl, rfl⟩ := hserve
      split
      next hindex => exact .unknown hQuery hindex
      next index hindex => exact .ended hQuery index hindex

theorem firstMatch_isSome {i : ℕ} {services : List Service}
    (h : q.lpszServiceInstanceName ≠ none ∨ services = []) :
    ∃ found, firstMatch lstrcmpW q i services = some found := by
  induction services generalizing i with
  | nil => exact ⟨none, rfl⟩
  | cons head rest ih =>
      have hname : q.lpszServiceInstanceName ≠ none := by simpa using h
      obtain ⟨name, hq⟩ := Option.ne_none_iff_exists'.mp hname
      simp only [firstMatch, matchesQuery, hq, Option.map_some,
        Option.bind_eq_bind, Option.bind_some]
      split
      · exact ⟨_, rfl⟩
      · exact ih (.inl hname)

theorem serve_isSome_of_answerable (hanswerable : Answerable s r)
    (hwell : WellFormed s) : ∃ answered, serve lstrcmpW s r = some answered := by
  cases r with
  | registerClass | deregisterClass | lookupClass | registerService
  | deregisterService => cases hanswerable
  | lookupServiceBegin | lookupServiceEnd => exact ⟨_, rfl⟩
  | lookupServiceNext hQuery =>
      obtain ⟨info, hinfo, hhandle, hname⟩ := hanswerable
      obtain ⟨index, hindex, hget⟩ := hwell.findQuery_eq hinfo hhandle
      have hends : info.query.lpszServiceInstanceName ≠ none ∨ s.services.drop info.cursor = [] :=
        hname.imp_right List.drop_eq_nil_of_le
      obtain ⟨found, hfound⟩ : ∃ found, firstMatch lstrcmpW info.query
          info.cursor (s.services.drop info.cursor) = some found := firstMatch_isSome hends
      simp only [serve, performQuery, hindex, hget, hfound, Option.bind_eq_bind, Option.bind_some]
      cases found <;> exact ⟨_, rfl⟩

theorem Issued.step (hissued : Issued base n s) (hcount : n + begins [r] ≤ 2 ^ 32)
    (hanswerable : Answerable s r) (hserve : serve lstrcmpW s r = some (s', answer)) :
    Issued base (n + begins [r]) s' := by
  have hfresh : FreshHandle s r := by
    cases r with
    | lookupServiceBegin si => exact fun _ => hissued.fresh hcount
    | _ => trivial
  have hwell := hissued.wellFormed.step hfresh (serveTo_of_serve hserve)
  cases lookupTo_of_serve hanswerable hserve with
  | begun si =>
      have hsucc : s.dwHandleValue + 1 = issued base (n + 1) := by
        rw [hissued.value, issued_succ]
      refine ⟨hsucc, fun info hinfo => ?_, hwell⟩
      rcases List.mem_append.mp hinfo with hinfo | hinfo
      · obtain ⟨k, hpos, hle, hhandle⟩ := hissued.live info hinfo
        exact ⟨k, hpos, Nat.le_succ_of_le hle, hhandle⟩
      · rw [List.mem_singleton.mp hinfo]
        exact ⟨n + 1, Nat.succ_pos n, Nat.le_refl _, hsucc⟩
  | found hQuery index info i service hindex hinfo hmatch =>
      refine ⟨hissued.value, fun other hother => ?_, hwell⟩
      rcases List.mem_or_eq_of_mem_set hother with hother | rfl
      · exact hissued.live other hother
      · exact hissued.live info (List.mem_of_getElem? hinfo)
  | noMore | unknown => exact hissued
  | ended hQuery index hindex =>
      exact ⟨hissued.value,
        fun info hinfo => hissued.live info (mem_of_mem_swapRemove hinfo), hwell⟩

/-! ## One query alone -/

/-- What the query `h` is in one state, the query `h'` is in the other, where
there is no other query. -/
structure Alone (q : QuerySet) (h h' : Handle) (s u : Server) : Prop where
  services : u.services = s.services
  query : (∃ iIndex, ⟨h, iIndex, q⟩ ∈ s.queryInfo ∧
      u.queryInfo = [⟨h', iIndex, q⟩]) ∨
    (∀ info ∈ s.queryInfo, info.hHandle ≠ h) ∧ u.queryInfo = []

/-- The request is made with the handle. -/
def Concerns (h : Handle) : Request → Prop
  | .lookupServiceNext hQuery => hQuery = h
  | .lookupServiceEnd hQuery => hQuery = h
  | _ => False

instance (h : Handle) (r : Request) : Decidable (Concerns h r) :=
  match r with
  | .lookupServiceNext hQuery => inferInstanceAs (Decidable (hQuery = h))
  | .lookupServiceEnd hQuery => inferInstanceAs (Decidable (hQuery = h))
  | .registerClass _ | .deregisterClass _ | .lookupClass _ | .registerService _
  | .deregisterService _ | .lookupServiceBegin _ =>
      inferInstanceAs (Decidable False)

theorem Alone.other (halone : Alone q h h' s u)
    (hnew : s.dwHandleValue + 1 ≠ h ∨ ∀ si, r ≠ .lookupServiceBegin si) (hnot : ¬ Concerns h r)
    (hto : LookupTo lstrcmpW s r s' answer) : Alone q h h' s' u := by
  cases hto with
  | begun si =>
      have hne : s.dwHandleValue + 1 ≠ h := by
        rcases hnew with hnew | hnew
        · exact hnew
        · exact absurd rfl (hnew si)
      refine ⟨halone.services, ?_⟩
      rcases halone.query with ⟨iIndex, hmem, hu⟩ | ⟨hnone, hu⟩
      · exact .inl ⟨iIndex, List.mem_append_left _ hmem, hu⟩
      · refine .inr ⟨fun info hinfo => ?_, hu⟩
        rcases List.mem_append.mp hinfo with hinfo | hinfo
        · exact hnone info hinfo
        · rw [List.mem_singleton.mp hinfo]
          exact hne
  | found hQuery index info i service hindex hinfo hmatch =>
      refine ⟨halone.services, ?_⟩
      rcases halone.query with ⟨iIndex, hmem, hu⟩ | ⟨hnone, hu⟩
      · obtain ⟨j, hj, hji⟩ := getElem?_other hindex hmem rfl hnot
        refine .inl ⟨iIndex, List.mem_of_getElem? (i := j) ?_, hu⟩
        rw [List.getElem?_set_ne fun heq => hji heq.symm]
        exact hj
      · refine .inr ⟨fun other hother => ?_, hu⟩
        rcases List.mem_or_eq_of_mem_set hother with hother | rfl
        · exact hnone other hother
        · exact hnone info (List.mem_of_getElem? hinfo)
  | noMore | unknown => exact halone
  | ended hQuery index hindex =>
      refine ⟨halone.services, ?_⟩
      rcases halone.query with ⟨iIndex, hmem, hu⟩ | ⟨hnone, hu⟩
      · obtain ⟨j, hj, hji⟩ := getElem?_other hindex hmem rfl hnot
        exact .inl ⟨iIndex, mem_swapRemove_of_ne (findQuery_some hindex).1 hj hji, hu⟩
      · exact .inr ⟨fun info hinfo => hnone info (mem_of_mem_swapRemove hinfo), hu⟩

theorem Alone.same (halone : Alone q h h' s u) (hwell : WellFormed s)
    (hconcerns : Concerns h r) (hto : LookupTo lstrcmpW s r s' answer) :
    ∃ r' u', requestsOf h h' [r] = [r'] ∧ answersTo h [(r, answer)] = [answer] ∧
      answersTo h' [(r', answer)] = [answer] ∧
      serve lstrcmpW u r' = some (u', answer) ∧ Alone q h h' s' u' := by
  cases hto with
  | begun => cases hconcerns
  | found hQuery index info i service hindex hinfo hmatch =>
      have hsame : hQuery = h := hconcerns
      subst hsame
      rcases halone.query with ⟨iIndex, hmem, hu⟩ | ⟨hnone, -⟩
      · have heq := hwell.query_eq hindex hinfo hmem rfl
        subst heq
        refine ⟨.lookupServiceNext h',
          { u with queryInfo := [⟨h', (i : ℤ), q⟩] }, by simp [requestsOf],
          by simp [answersTo], by simp [answersTo], ?_, halone.services,
          .inl ⟨i, List.mem_set (findQuery_some hindex).1 _, rfl⟩⟩
        have hsearch : firstMatch lstrcmpW q (QueryInfo.cursor ⟨h', iIndex, q⟩)
            (s.services.drop (QueryInfo.cursor ⟨h', iIndex, q⟩)) =
              some (some (i, service)) := hmatch
        simp [serve, performQuery, findQuery, hu, halone.services, hsearch]
      · exact absurd ((findQuery_some hindex).2 info hinfo)
          (hnone info (List.mem_of_getElem? hinfo))
  | noMore hQuery index info hindex hinfo hmatch =>
      have hsame : hQuery = h := hconcerns
      subst hsame
      rcases halone.query with ⟨iIndex, hmem, hu⟩ | ⟨hnone, -⟩
      · have heq := hwell.query_eq hindex hinfo hmem rfl
        subst heq
        refine ⟨.lookupServiceNext h', u, by simp [requestsOf],
          by simp [answersTo], by simp [answersTo], ?_, halone⟩
        have hsearch : firstMatch lstrcmpW q (QueryInfo.cursor ⟨h', iIndex, q⟩)
            (s.services.drop (QueryInfo.cursor ⟨h', iIndex, q⟩)) = some none := hmatch
        simp [serve, performQuery, findQuery, hu, halone.services, hsearch]
      · exact absurd ((findQuery_some hindex).2 info hinfo)
          (hnone info (List.mem_of_getElem? hinfo))
  | unknown hQuery hindex =>
      have hsame : hQuery = h := hconcerns
      subst hsame
      rcases halone.query with ⟨iIndex, hmem, -⟩ | ⟨hnone, hu⟩
      · obtain ⟨index, hsome, -⟩ := hwell.findQuery_eq hmem rfl
        rw [hindex] at hsome
        cases hsome
      · exact ⟨.lookupServiceEnd h', u, by simp [requestsOf],
          by simp [answersTo], by simp [answersTo],
          by simp [serve, deleteQuery, findQuery, hu], halone⟩
  | ended hQuery index hindex =>
      have hsame : hQuery = h := hconcerns
      subst hsame
      have hlt := (findQuery_some hindex).1
      have hhandle := (findQuery_some hindex).2 _ (List.getElem?_eq_getElem hlt)
      rcases halone.query with ⟨iIndex, hmem, hu⟩ | ⟨hnone, -⟩
      · refine ⟨.lookupServiceEnd h', { u with queryInfo := [] },
          by simp [requestsOf], by simp [answersTo], by simp [answersTo],
          by simp [serve, deleteQuery, findQuery, hu, swapRemove],
          halone.services, .inr ⟨fun info hinfo heq => ?_, rfl⟩⟩
        -- the handles are different, so the query was there only once
        have hnodup := hwell.handles
        have hperm := (List.getElem_cons_eraseIdx_perm hlt).map (·.hHandle)
        rw [← hperm.nodup_iff, List.map_cons, List.nodup_cons] at hnodup
        apply hnodup.1
        rw [hhandle, ← heq]
        exact List.mem_map_of_mem ((swapRemove_perm hlt).mem_iff.mp hinfo)
      · exact absurd hhandle (hnone _ (List.getElem_mem hlt))

/-- The service with the query as its only one. -/
def Server.begunAlone (s : Server) (q : QuerySet) : Server :=
  { s with
    dwHandleValue := s.dwHandleValue + 1,
    queryInfo := [⟨s.dwHandleValue + 1, -1, q⟩] }

/-! ## Runs -/

/-- The lookups that a session makes are answerable. -/
def AllAnswerable (t : Session) (r : Request) : Prop := Answerable t.server r

instance (t : Session) (r : Request) : Decidable (AllAnswerable t r) :=
  inferInstanceAs (Decidable (Answerable _ _))

variable {s₀ : Server} {as requests : List Request} {t t' : Session} {k : ℕ}

theorem Issued.snoc (hissued : Issued base (k + begins as) t.server)
    (hcount : k + begins (as ++ [r]) ≤ 2 ^ 32) (hok : AllAnswerable t r)
    (hstep : sessionStep lstrcmpW t r = some t') :
    Issued base (k + begins (as ++ [r])) t'.server := by
  rw [begins_append, ← Nat.add_assoc] at hcount ⊢
  simp only [sessionStep, Option.map_eq_some_iff] at hstep
  obtain ⟨⟨s', answer⟩, hserve, rfl⟩ := hstep
  exact hissued.step hcount hok hserve

theorem begins_le_of_snoc {m : ℕ} (hle : k + begins (as ++ [r]) ≤ m) : k + begins as ≤ m := by
  rw [begins_append, ← Nat.add_assoc] at hle
  exact Nat.le_of_add_right_le hle

theorem issued_of_run (hstart : Issued base k s₀)
    (hrun : RunsTo (sessionStep lstrcmpW) AllAnswerable ⟨s₀, []⟩ requests t)
    (hcount : k + begins requests ≤ 2 ^ 32) : Issued base (k + begins requests) t.server := by
  refine hrun.history (fun (as : List Request) (t : Session) =>
    k + begins as ≤ 2 ^ 32 → Issued base (k + begins as) t.server)
    (fun _ => hstart) (fun as t r t' hinv hok hstep hle => ?_) hcount
  exact (hinv (begins_le_of_snoc hle)).snoc hle hok hstep

theorem services_of_run (hrun : RunsTo (sessionStep lstrcmpW) AllAnswerable ⟨s₀, []⟩ requests t) :
    t.server.services = s₀.services := by
  refine hrun.invariant (fun t => t.server.services = s₀.services) rfl
    fun t r t' hinv hok hstep => ?_
  simp only [sessionStep, Option.map_eq_some_iff] at hstep
  obtain ⟨⟨s', answer⟩, hserve, rfl⟩ := hstep
  cases lookupTo_of_serve hok hserve <;> exact hinv

/-- The session and the one in which the query is alone, after the same
requests made with its handle. -/
def Mirrored (lstrcmpW : Name → Name → Bool) (q : QuerySet) (h h' : Handle)
    (a₀ : Server) (during : List Request) (t : Session) : Prop :=
  ∃ u, RunsTo (sessionStep lstrcmpW) Always ⟨a₀, []⟩ (requestsOf h h' during) u ∧
    Alone q h h' t.server u.server ∧ answersTo h' u.log = answersTo h t.log

theorem Mirrored.step {a₀ : Server} {during : List Request}
    (hmirrored : Mirrored lstrcmpW q h h' a₀ during t) (hissued : Issued base n t.server)
    (hnew : issued base (n + 1) ≠ h ∨ ∀ si, r ≠ .lookupServiceBegin si) (hok : AllAnswerable t r)
    (hstep : sessionStep lstrcmpW t r = some t') :
    Mirrored lstrcmpW q h h' a₀ (during ++ [r]) t' := by
  obtain ⟨u, hrun, halone, hanswers⟩ := hmirrored
  simp only [sessionStep, Option.map_eq_some_iff] at hstep
  obtain ⟨⟨s', answer⟩, hserve, rfl⟩ := hstep
  have hto := lookupTo_of_serve hok hserve
  by_cases hconcerns : Concerns h r
  · obtain ⟨r', u', hrequest, hanswer, hanswer', hserve', halone'⟩ :=
      halone.same hissued.wellFormed hconcerns hto
    refine ⟨⟨u', u.log ++ [(r', answer)]⟩, ?_, halone', ?_⟩
    · rw [requestsOf_append, hrequest]
      exact hrun.snoc trivial (by simp [sessionStep, hserve'])
    · rw [answersTo_append, answersTo_append, hanswers, hanswer, hanswer']
  · have hrequest : requestsOf h h' [r] = [] := by
      cases r with
      | lookupServiceNext hQuery | lookupServiceEnd hQuery =>
          simp [requestsOf, show ¬ hQuery = h from hconcerns]
      | _ => rfl
    have hanswer : answersTo h [(r, answer)] = [] := by
      cases r with
      | lookupServiceNext hQuery | lookupServiceEnd hQuery =>
          simp [answersTo, show ¬ hQuery = h from hconcerns]
      | _ => rfl
    refine ⟨u, ?_, ?_, ?_⟩
    · rw [requestsOf_append, hrequest, List.append_nil]
      exact hrun
    · refine halone.other ?_ hconcerns hto
      rw [hissued.value, issued_succ]
      exact hnew
    · rw [answersTo_append, hanswer, List.append_nil, hanswers]

/-- In every run of answerable lookups with at most `2^32` handles the handles
in use are different, a handle keeps the parameters it was begun with, it is
answered what it is answered when its requests are the only ones, and every
answerable lookup is answered. -/
theorem query_isolated {requests before during : List Request} {s₀ s₂ : Server}
    {t₁ t : Session}
    (hreached : RunsTo (serverStep lstrcmpW) FreshHandle Server.create requests
      s₀) (hstart : s₀.queryInfo = [])
    (hbefore : RunsTo (sessionStep lstrcmpW) AllAnswerable ⟨s₀, []⟩ before t₁)
    (hbegin : serve lstrcmpW t₁.server (.lookupServiceBegin q) =
      some (s₂, .handle (some h)))
    (hduring : RunsTo (sessionStep lstrcmpW) AllAnswerable ⟨s₂, []⟩ during t)
    (hcount : begins before + 1 + begins during ≤ 2 ^ 32) :
    (t.server.queryInfo.map (·.hHandle)).Nodup ∧
      (∀ info ∈ t.server.queryInfo, info.hHandle = h → info.query = q) ∧
      (∃ a₀ h' u, serve lstrcmpW s₀ (.lookupServiceBegin q) =
          some (a₀, .handle (some h')) ∧
        RunsTo (sessionStep lstrcmpW) Always ⟨a₀, []⟩ (requestsOf h h' during)
          u ∧
        answersTo h' u.log = answersTo h t.log) ∧
      ∀ r, Answerable t.server r → ∃ answered,
        serve lstrcmpW t.server r = some answered := by
  have hwell : WellFormed s₀ := by
    refine hreached.invariant WellFormed wellFormed_create
      fun s r s' hwell hfresh hstep => ?_
    simp only [serverStep, Option.map_eq_some_iff] at hstep
    obtain ⟨⟨_, answer⟩, hserve, rfl⟩ := hstep
    exact hwell.step hfresh (serveTo_of_serve hserve)
  have hissued₀ : Issued s₀.dwHandleValue 0 s₀ := by
    refine ⟨by simp [issued], fun info hinfo => ?_, hwell⟩
    rw [hstart] at hinfo
    cases hinfo
  have hissued₁ := issued_of_run hissued₀ hbefore (by omega)
  have hroom : Answerable t₁.server (.lookupServiceBegin q) := by
    by_contra hfull
    have hle : maxQueries ≤ t₁.server.queryInfo.length := Nat.not_lt.mp hfull
    simp [serve, registerQuery, hle] at hbegin
  have hissued₂ : Issued s₀.dwHandleValue (begins before + 1) s₂ := by
    have hstep := hissued₁.step (by simp [begins] at hcount ⊢; omega) hroom hbegin
    simpa [begins] using hstep
  generalize hk : begins before + 1 = k at hissued₂ hcount
  have hhandle : h = issued s₀.dwHandleValue k := by
    have hvalue := hissued₂.value
    cases lookupTo_of_serve hroom hbegin with
    | begun => exact hvalue
  have halone : Alone q h (s₀.dwHandleValue + 1) s₂ (s₀.begunAlone q) := by
    cases lookupTo_of_serve hroom hbegin with
    | begun =>
        refine ⟨(services_of_run hbefore).symm, .inl ⟨-1, ?_, rfl⟩⟩
        exact List.mem_append_right _ (List.mem_singleton_self _)
  have hboth : Issued s₀.dwHandleValue (k + begins during) t.server ∧
      Mirrored lstrcmpW q h (s₀.dwHandleValue + 1) (s₀.begunAlone q) during t := by
    refine hduring.history (fun (as : List Request) (t : Session) =>
      k + begins as ≤ 2 ^ 32 →
        Issued s₀.dwHandleValue (k + begins as) t.server ∧
          Mirrored lstrcmpW q h (s₀.dwHandleValue + 1) (s₀.begunAlone q) as t)
      (fun _ => ⟨hissued₂, _, .nil, halone, rfl⟩)
      (fun as t r t' hinv hok hstep hle => ?_) hcount
    obtain ⟨hissued, hmirrored⟩ := hinv (begins_le_of_snoc hle)
    refine ⟨hissued.snoc hle hok hstep, hmirrored.step hissued ?_ hok hstep⟩
    cases r with
    | lookupServiceBegin si =>
        left
        rw [hhandle]
        intro heq
        have hlast : k + begins as + 1 ≤ 2 ^ 32 := by
          rw [begins_append] at hle
          exact hle
        have hsame := issued_inj (Nat.succ_pos _) (hk ▸ Nat.succ_pos _) hlast
          (by omega) heq
        omega
    | _ => exact .inr fun _ hnot => by cases hnot
  obtain ⟨hissued, u, hrun, halone', hanswers⟩ := hboth
  refine ⟨hissued.wellFormed.handles, fun info hinfo hsame => ?_,
    ⟨_, _, u, ?_, hrun, hanswers⟩, fun r hr =>
      serve_isSome_of_answerable hr hissued.wellFormed⟩
  · rcases halone'.query with ⟨iIndex, hmem, -⟩ | ⟨hnone, -⟩
    · obtain ⟨index, hindex, hget⟩ :=
        hissued.wellFormed.findQuery_eq hinfo hsame
      have heq := hissued.wellFormed.query_eq hindex hget hmem rfl
      rw [heq]
    · exact absurd hsame (hnone info hinfo)
  · simp [serve, registerQuery, hstart, maxQueries, Server.begunAlone]

end Names

/-- Two lookups at once. -/
def twoLookups : List Request :=
  [.lookupServiceNext 1, .lookupServiceBegin (namedQuerySet [66]),
   .lookupServiceNext 2, .lookupServiceNext 1, .lookupServiceEnd 2,
   .lookupServiceNext 1]

/-- Three services in a registry without queries, and two lookups at once. -/
theorem query_isolated_two_lookups :
    ∃ s₂ t, serve sameName threeServices
        (.lookupServiceBegin (namedQuerySet [42])) =
          some (s₂, .handle (some 1)) ∧
      RunsTo (sessionStep sameName) AllAnswerable ⟨s₂, []⟩ twoLookups t ∧
      (t.server.queryInfo.map (·.hHandle)).Nodup ∧
      (∀ info ∈ t.server.queryInfo, info.hHandle = 1 →
        info.query = namedQuerySet [42]) ∧
      ∃ a₀ h' u, serve sameName threeServices
          (.lookupServiceBegin (namedQuerySet [42])) =
            some (a₀, .handle (some h')) ∧
        RunsTo (sessionStep sameName) Always ⟨a₀, []⟩
          (requestsOf 1 h' twoLookups) u ∧
        answersTo h' u.log = answersTo 1 t.log :=
  have hbegin : serve sameName threeServices
      (.lookupServiceBegin (namedQuerySet [42])) =
        some (wildcardBegun, .handle (some 1)) := by decide
  have hduring := RunsTo.of_isSome (by decide)
  have hisolated := query_isolated threeServices_run rfl .nil hbegin hduring
    (by decide)
  ⟨wildcardBegun, _, hbegin, hduring, hisolated.1, hisolated.2.1,
    hisolated.2.2.1⟩

/-- A search with a handle that is not in use takes the service down, and the
query in use is not answered any more. -/
theorem unknown_handle_stops_all :
    ∃ s, RunsTo (serverStep sameName) Always threeServices
        [.lookupServiceBegin (namedQuerySet [42])] s ∧
      (serve sameName s (.lookupServiceNext 1)).isSome = true ∧
      exec (serverStep sameName) Always s
        [.lookupServiceNext 2, .lookupServiceNext 1] = none :=
  ⟨_, RunsTo.of_isSome (by decide), by decide, by decide⟩

end MiscProjects.NameService
