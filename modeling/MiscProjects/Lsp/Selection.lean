import MiscProjects.Library.Runs
import MiscProjects.Lsp.NewSockets

/-!
# Choosing the provider of a new socket

`WSPSocket` looks for the first element of `gBaseInfo` that fits, in four loops
for four kinds of request; the second of them compares the protocol of a request
without an address family to the letter.  The protocol information that is handed
to the lower provider is that of the element, or the caller's, which may be
absent, if the next provider is itself layered.

The loops write the caller's `dwProviderReserved` into the table.  It is taken
back where the context of the new socket has been created.
-/

namespace MiscProjects.Lsp.Selection

open Providers NewSockets Runs

def afUnspec : INT := 0

def sockRaw : INT := 3

def ipprotoRaw : INT := 255

def xp1IfsHandles : DWORD := 0x00020000

def wsaeprototype : INT := 10041

def wsaeprotonosupport : INT := 10043

def wsaesocktnosupport : INT := 10044

def wsaeafnosupport : INT := 10047

/-! ## The provider -/

/-- The arguments of `WSPSocket`. -/
structure Request where
  af : INT
  type : INT
  protocol : INT
  lpProtocolInfo : Option ProtocolInfo

namespace Request
variable (r : Request)

def iAddressFamily : INT :=
  match r.lpProtocolInfo with
  | some info => info.iAddressFamily
  | none => r.af

def iSockType : INT :=
  match r.lpProtocolInfo with
  | some info => info.iSocketType
  | none => r.type

def iProtocol : INT :=
  match r.lpProtocolInfo with
  | some info => info.iProtocol
  | none => r.protocol

/-- `bAddressFamilyOkay`. -/
def addressFamilyOkay (gBaseInfo : List Provider) : Bool :=
  gBaseInfo.any fun p =>
    r.iAddressFamily = afUnspec || r.iAddressFamily = p.nextProvider.iAddressFamily

/-- `bSockTypeOkay`. -/
def sockTypeOkay (gBaseInfo : List Provider) : Bool :=
  gBaseInfo.any fun p => r.iSockType = p.nextProvider.iSocketType

/-- `bProtocolOkay`. -/
def protocolOkay (gBaseInfo : List Provider) : Bool :=
  gBaseInfo.any fun p =>
    r.iProtocol = 0 || r.iProtocol = p.nextProvider.iProtocol || r.iProtocol = ipprotoRaw ||
      r.iSockType = sockRaw

/-- The provider flags are the caller's, if there is protocol information. -/
def sameFlags (next : ProtocolInfo) : Bool :=
  match r.lpProtocolInfo with
  | some info =>
      next.dwServiceFlags1 &&& ~~~xp1IfsHandles = info.dwServiceFlags1 &&& ~~~xp1IfsHandles
  | none => true

/-- One of the four loops: the first element that passes the test and has the flags. -/
def search (test : ProtocolInfo → Bool) (gBaseInfo : List Provider) : Option ℕ :=
  gBaseInfo.findIdx? fun p => test p.nextProvider && r.sameFlags p.nextProvider

/-- The element that a loop has found, or the error. -/
def foundOr (lpErrno : INT) : Option ℕ → Except INT ℕ
  | some i => .ok i
  | none => .error lpErrno

/-- The element that is chosen, or the error. -/
def select (gBaseInfo : List Provider) : Except INT ℕ :=
  if r.addressFamilyOkay gBaseInfo then
    if r.sockTypeOkay gBaseInfo then
      if r.protocolOkay gBaseInfo then
        if r.iAddressFamily = afUnspec ∧ r.iProtocol = 0 then
          foundOr wsaeafnosupport <|
            r.search (fun next => next.iSocketType = r.iSockType) gBaseInfo
        else if r.iAddressFamily = afUnspec ∧ r.iProtocol ≠ 0 then
          foundOr wsaeprototype <|
            r.search (fun next => next.iProtocol = r.iProtocol &&
              next.iSocketType = r.iSockType) gBaseInfo
        else if r.iProtocol ≠ 0 ∧ r.iProtocol ≠ ipprotoRaw ∧ r.iSockType ≠ sockRaw then
          foundOr wsaeafnosupport <|
            r.search (fun next => next.iAddressFamily = r.iAddressFamily &&
              next.iSocketType = r.iSockType && next.iProtocol = r.iProtocol) gBaseInfo
        else
          foundOr wsaeafnosupport <|
            r.search (fun next => next.iAddressFamily = r.iAddressFamily &&
              next.iSocketType = r.iSockType) gBaseInfo
      else .error wsaeprotonosupport
    else .error wsaesocktnosupport
  else .error wsaeafnosupport

end Request

/-! ## The protocol information -/

/-- `dwProviderReserved` of the next provider of an element. -/
def setReserved (gBaseInfo : List Provider) (i : ℕ) (dwProviderReserved : DWORD) :
    List Provider :=
  gBaseInfo.modify i fun p =>
    { p with nextProvider := { p.nextProvider with dwProviderReserved := dwProviderReserved } }

/-- The table after the loop that has found the element. -/
def Request.reserve (r : Request) (gBaseInfo : List Provider) (i : ℕ) : List Provider :=
  match r.lpProtocolInfo with
  | some info => setReserved gBaseInfo i info.dwProviderReserved
  | none => gBaseInfo

/-- What precedes the call of the lower provider: an error, a read of protocol information
that is absent, or the element with the information that is handed to its lower provider. -/
inductive Prepared
  | fails (lpErrno : INT)
  | readsAbsent (i : ℕ)
  | hands (i : ℕ) (infoCopy : ProtocolInfo)
deriving DecidableEq

/-- The next provider is a base protocol. -/
def isBase (gBaseInfo : List Provider) (i : ℕ) : Bool :=
  (gBaseInfo[i]?.map (·.nextProvider.protocolChain.chainLen)) = some baseProtocol

def Request.prepare (r : Request) (gBaseInfo : List Provider) : Prepared :=
  match r.select gBaseInfo with
  | .error lpErrno => .fails lpErrno
  | .ok i =>
      let pInfo :=
        if isBase gBaseInfo i then (r.reserve gBaseInfo i)[i]?.map (·.nextProvider)
        else r.lpProtocolInfo
      match pInfo with
      | none => .readsAbsent i
      | some info =>
          match r.lpProtocolInfo with
          | some given => .hands i { info with dwProviderReserved := given.dwProviderReserved }
          | none => .hands i info

/-- The element that has been chosen. -/
def Prepared.provider : Prepared → Option ℕ
  | .fails _ => none
  | .readsAbsent i => some i
  | .hands i _ => some i

/-! ## `WSPSocket` -/

structure Globals where
  gBaseInfo : List Provider
  sockets : Sockets

/-- What the code outside answers to `WSPSocket`; `none` is a failure. -/
structure SocketAnswer where
  lpWSPSocket : Option SOCKET
  heapAlloc : Option ContextPtr
  lpWPUCreateSocketHandle : Option SOCKET
  lpErrno : INT

structure Call where
  request : Request
  answer : SocketAnswer

/-- `WSPSocket` after the selection.  A context for which there is no handle is freed and
stays in the list. -/
def Call.create (call : Call) (i : ℕ) (s : Globals) : Globals × Option SOCKET × INT :=
  match call.answer.lpWSPSocket with
  | none => (s, none, call.answer.lpErrno)
  | some nextProviderSocket =>
      match call.answer.heapAlloc with
      | none => (s, none, wsaenobufs)
      | some a =>
          let sockets := s.sockets.createSockInfo a i (some nextProviderSocket) none
          -- Otherwise the field that is cleared is that of the caller's structure.
          let gBaseInfo := if isBase s.gBaseInfo i then setReserved s.gBaseInfo i 0 else s.gBaseInfo
          match call.answer.lpWPUCreateSocketHandle with
          | none => (⟨gBaseInfo, sockets.setContext a none⟩, none, call.answer.lpErrno)
          | some newSocket =>
              (⟨gBaseInfo, sockets.createSocketHandle newSocket a⟩, some newSocket,
                call.answer.lpErrno)

/-- `WSPSocket`; `none` if it reads protocol information that is absent. -/
def wspSocket (s : Globals) (call : Call) : Option (Globals × Option SOCKET × INT) :=
  match call.request.prepare s.gBaseInfo with
  | .fails lpErrno => some (s, none, lpErrno)
  | .readsAbsent _ => none
  | .hands i _ => some (call.create i { s with gBaseInfo := call.request.reserve s.gBaseInfo i })

def step (s : Globals) (call : Call) : Option Globals := (wspSocket s call).map (·.1)

/-! ## Statement -/

/-- The rule of the selection: the next provider has what is requested. -/
structure Request.Fits (r : Request) (next : ProtocolInfo) : Prop where
  type : next.iSocketType = r.iSockType
  family : r.iAddressFamily = afUnspec ∨ next.iAddressFamily = r.iAddressFamily
  protocol : r.iProtocol = 0 ∨ r.iProtocol = ipprotoRaw ∨ r.iSockType = sockRaw ∨
    next.iProtocol = r.iProtocol
  flags : ∀ info, r.lpProtocolInfo = some info →
    next.dwServiceFlags1 &&& ~~~xp1IfsHandles = info.dwServiceFlags1 &&& ~~~xp1IfsHandles

/-- The element `p` at `i` is the first that fits. -/
structure Request.FirstFit (r : Request) (gBaseInfo : List Provider) (i : ℕ) (p : Provider) :
    Prop where
  get : gBaseInfo[i]? = some p
  fits : r.Fits p.nextProvider
  first : ∀ j q, j < i → gBaseInfo[j]? = some q → ¬r.Fits q.nextProvider

/-- The first element that fits is chosen, there is an error exactly if there is none, and
no absent protocol information is read. -/
structure Request.FollowsRule (r : Request) (gBaseInfo : List Provider) : Prop where
  chosen : ∀ i, (r.prepare gBaseInfo).provider = some i ↔ ∃ p, r.FirstFit gBaseInfo i p
  fails : (∃ lpErrno, r.prepare gBaseInfo = .fails lpErrno) ↔
    ∀ p ∈ gBaseInfo, ¬r.Fits p.nextProvider
  present : ∀ i, r.prepare gBaseInfo ≠ .readsAbsent i

/-- The request leaves the family open, and asks for a protocol that any would do for. -/
def Request.Wildcard (r : Request) : Prop :=
  r.iAddressFamily = afUnspec ∧ r.iProtocol ≠ 0 ∧
    (r.iProtocol = ipprotoRaw ∨ r.iSockType = sockRaw)

/-- The first element that fits has the protocol itself if the family is open, and is over a
base protocol if there is no protocol information. -/
def Request.Unambiguous (r : Request) (gBaseInfo : List Provider) : Prop :=
  ∀ i p, r.FirstFit gBaseInfo i p →
    (r.Wildcard → p.nextProvider.iProtocol = r.iProtocol) ∧
      (r.lpProtocolInfo = none → p.nextProvider.protocolChain.chainLen = baseProtocol)

/-- The context of the new socket is created. -/
def Call.Completes (call : Call) : Prop :=
  call.answer.lpWSPSocket ≠ none ∧ call.answer.heapAlloc ≠ none

instance (call : Call) : Decidable call.Completes :=
  inferInstanceAs (Decidable (_ ∧ _))

/-- The chosen element has no reserved value if it is over a base protocol and the context is
created, and otherwise has that of the caller, if there is one. -/
def Call.KeepsTable (call : Call) (gBaseInfo : List Provider) : Prop :=
  ∀ i p, call.request.select gBaseInfo = .ok i → gBaseInfo[i]? = some p →
    if isBase gBaseInfo i ∧ call.Completes then p.nextProvider.dwProviderReserved = 0
    else ∀ info, call.request.lpProtocolInfo = some info →
      p.nextProvider.dwProviderReserved = info.dwProviderReserved

/-- After each of the calls the table is the one of the start, and what a call hands to the
lower provider is what it would have handed to it then. -/
structure TableKept (s : Globals) (calls : List Call) : Prop where
  table : ∀ done t, done <+: calls → RunsTo step Always s done t → t.gBaseInfo = s.gBaseInfo
  hands : ∀ done call t, done ++ [call] <+: calls → RunsTo step Always s done t →
    call.request.prepare t.gBaseInfo = call.request.prepare s.gBaseInfo

/-! ## The loops -/

section Loops
variable {r : Request} {gBaseInfo : List Provider} {next : ProtocolInfo} {i : ℕ} {p : Provider}

/-- The test of the loop that the request leads to. -/
def Request.loopTest (r : Request) (next : ProtocolInfo) : Bool :=
  if r.iAddressFamily = afUnspec ∧ r.iProtocol = 0 then next.iSocketType = r.iSockType
  else if r.iAddressFamily = afUnspec ∧ r.iProtocol ≠ 0 then
    next.iProtocol = r.iProtocol && next.iSocketType = r.iSockType
  else if r.iProtocol ≠ 0 ∧ r.iProtocol ≠ ipprotoRaw ∧ r.iSockType ≠ sockRaw then
    next.iAddressFamily = r.iAddressFamily && next.iSocketType = r.iSockType &&
      next.iProtocol = r.iProtocol
  else next.iAddressFamily = r.iAddressFamily && next.iSocketType = r.iSockType

/-- What makes the loop stop. -/
def Request.stops (r : Request) (p : Provider) : Bool :=
  r.loopTest p.nextProvider && r.sameFlags p.nextProvider

theorem sameFlags_iff : r.sameFlags next ↔ ∀ info, r.lpProtocolInfo = some info →
      next.dwServiceFlags1 &&& ~~~xp1IfsHandles = info.dwServiceFlags1 &&& ~~~xp1IfsHandles := by
  unfold Request.sameFlags
  rcases r.lpProtocolInfo with - | info <;> simp

/-- The loop stops where the element fits, and has the protocol itself if the request is a
wildcard without a family. -/
theorem stops_iff :
    r.stops p ↔ r.Fits p.nextProvider ∧ (r.Wildcard → p.nextProvider.iProtocol = r.iProtocol) := by
  have hfits : r.Fits p.nextProvider ↔ p.nextProvider.iSocketType = r.iSockType ∧
      (r.iAddressFamily = afUnspec ∨ p.nextProvider.iAddressFamily = r.iAddressFamily) ∧
      (r.iProtocol = 0 ∨ r.iProtocol = ipprotoRaw ∨ r.iSockType = sockRaw ∨
        p.nextProvider.iProtocol = r.iProtocol) ∧ r.sameFlags p.nextProvider = true := by
    rw [sameFlags_iff]
    exact ⟨fun h => ⟨h.type, h.family, h.protocol, h.flags⟩,
      fun h => ⟨h.1, h.2.1, h.2.2.1, h.2.2.2⟩⟩
  unfold Request.stops
  rw [hfits, Bool.and_eq_true]
  unfold Request.loopTest Request.Wildcard
  by_cases hunspec : r.iAddressFamily = afUnspec
  · by_cases hzero : r.iProtocol = 0
    · simp [hunspec, hzero]
    · simp only [hunspec, hzero, true_and, if_true, if_false, not_false_eq_true, ne_eq,
        Bool.and_eq_true, decide_eq_true_eq, true_or, false_or]
      grind
  · simp only [hunspec, false_and, if_false, false_or, false_imp_iff, and_true]
    by_cases hopen : r.iProtocol = 0 ∨ r.iProtocol = ipprotoRaw ∨ r.iSockType = sockRaw
    · have hloop : ¬(r.iProtocol ≠ 0 ∧ r.iProtocol ≠ ipprotoRaw ∧ r.iSockType ≠ sockRaw) := by
        grind
      rw [if_neg hloop]
      simp only [Bool.and_eq_true, decide_eq_true_eq]
      grind
    · have hloop : r.iProtocol ≠ 0 ∧ r.iProtocol ≠ ipprotoRaw ∧ r.iSockType ≠ sockRaw := by
        grind
      rw [if_pos hloop]
      simp only [Bool.and_eq_true, decide_eq_true_eq]
      grind

theorem okay_of_fits (hp : p ∈ gBaseInfo) (hfits : r.Fits p.nextProvider) :
    r.addressFamilyOkay gBaseInfo ∧ r.sockTypeOkay gBaseInfo ∧ r.protocolOkay gBaseInfo := by
  refine ⟨List.any_eq_true.2 ⟨p, hp, ?_⟩, List.any_eq_true.2 ⟨p, hp, ?_⟩,
    List.any_eq_true.2 ⟨p, hp, ?_⟩⟩
  · rcases hfits.family with hunspec | hfamily
    · simp [hunspec]
    · simp [hfamily]
  · simp [hfits.type]
  · rcases hfits.protocol with hzero | hraw | hsock | hprotocol
    · simp [hzero]
    · simp [hraw]
    · simp [hsock]
    · simp [hprotocol]

theorem foundOr_eq_ok {lpErrno : INT} {found : Option ℕ} :
    Request.foundOr lpErrno found = .ok i ↔ found = some i := by
  rcases found with - | k <;> simp [Request.foundOr]

theorem select_eq_ok_iff_findIdx : r.select gBaseInfo = .ok i ↔
      (r.addressFamilyOkay gBaseInfo ∧ r.sockTypeOkay gBaseInfo ∧ r.protocolOkay gBaseInfo) ∧
        gBaseInfo.findIdx? r.stops = some i := by
  by_cases hfamily : r.addressFamilyOkay gBaseInfo = true
  · by_cases htype : r.sockTypeOkay gBaseInfo = true
    · by_cases hprotocol : r.protocolOkay gBaseInfo = true
      · have hloop : r.select gBaseInfo = .ok i ↔ gBaseInfo.findIdx? r.stops = some i := by
          unfold Request.select
          rw [if_pos hfamily, if_pos htype, if_pos hprotocol]
          change _ ↔ r.search r.loopTest gBaseInfo = some i
          unfold Request.loopTest
          -- Each loop is the search with its own test.
          split
          · exact foundOr_eq_ok
          · split
            · exact foundOr_eq_ok
            · split
              · exact foundOr_eq_ok
              · exact foundOr_eq_ok
        rw [hloop]
        exact ⟨fun hfound => ⟨⟨hfamily, htype, hprotocol⟩, hfound⟩, fun h => h.2⟩
      · simp [Request.select, hfamily, htype, hprotocol]
    · simp [Request.select, hfamily, htype]
  · simp [Request.select, hfamily]

theorem select_eq_ok_iff : r.select gBaseInfo = .ok i ↔ ∃ p, gBaseInfo[i]? = some p ∧ r.stops p ∧
      ∀ j q, j < i → gBaseInfo[j]? = some q → ¬r.stops q := by
  rw [select_eq_ok_iff_findIdx]
  constructor
  · rintro ⟨-, hfound⟩
    obtain ⟨hi, hstops, hfirst⟩ := List.findIdx?_eq_some_iff_getElem.1 hfound
    refine ⟨_, List.getElem?_eq_getElem hi, hstops, ?_⟩
    intro j q hj hq
    obtain ⟨hlt, rfl⟩ := List.getElem?_eq_some_iff.1 hq
    exact hfirst j hj
  · rintro ⟨p, hp, hstops, hfirst⟩
    obtain ⟨hi, rfl⟩ := List.getElem?_eq_some_iff.1 hp
    refine ⟨okay_of_fits (List.getElem_mem hi) (stops_iff.1 hstops).1, ?_⟩
    rw [List.findIdx?_eq_some_iff_getElem]
    refine ⟨hi, hstops, ?_⟩
    intro j hj
    exact hfirst j _ hj (List.getElem?_eq_getElem _)

theorem exists_firstFit {k : ℕ} (hp : gBaseInfo[k]? = some p) (hfits : r.Fits p.nextProvider) :
    ∃ i q, i ≤ k ∧ r.FirstFit gBaseInfo i q := by
  induction k using Nat.strong_induction_on generalizing p with
  | _ k ih =>
      by_cases hfirst : ∀ j q, j < k → gBaseInfo[j]? = some q → ¬r.Fits q.nextProvider
      · exact ⟨k, p, Nat.le_refl k, hp, hfits, hfirst⟩
      · push Not at hfirst
        obtain ⟨j, q, hj, hq, hqfits⟩ := hfirst
        obtain ⟨i, u, hi, hu⟩ := ih j hj hq hqfits
        exact ⟨i, u, Nat.le_trans hi (Nat.le_of_lt hj), hu⟩

end Loops

/-! ## What is handed down -/

section Prepare
variable {r : Request} {gBaseInfo : List Provider} {i : ℕ} {p : Provider}

theorem getElem?_setReserved (v : DWORD) (hp : gBaseInfo[i]? = some p) :
    (setReserved gBaseInfo i v)[i]? =
      some { p with nextProvider := { p.nextProvider with dwProviderReserved := v } } := by
  simp [setReserved, hp]

theorem isBase_iff (hp : gBaseInfo[i]? = some p) :
    isBase gBaseInfo i ↔ p.nextProvider.protocolChain.chainLen = baseProtocol := by
  simp [isBase, hp]

theorem isSome_reserve (hp : gBaseInfo[i]? = some p) : ((r.reserve gBaseInfo i)[i]?).isSome := by
  unfold Request.reserve
  rcases r.lpProtocolInfo with - | info
  · simp [hp]
  · simp [getElem?_setReserved _ hp]

theorem prepare_fails_iff {lpErrno : INT} :
    r.prepare gBaseInfo = .fails lpErrno ↔ r.select gBaseInfo = .error lpErrno := by
  unfold Request.prepare
  rcases r.select gBaseInfo with e | i
  · simp
  · simp only [reduceCtorEq, iff_false]
    split
    · simp
    · split <;> simp

theorem provider_prepare :
    (r.prepare gBaseInfo).provider = some i ↔ r.select gBaseInfo = .ok i := by
  unfold Request.prepare
  rcases r.select gBaseInfo with e | k
  · simp [Prepared.provider]
  · simp only [Except.ok.injEq]
    split
    · simp [Prepared.provider]
    · split <;> simp [Prepared.provider]

theorem prepare_readsAbsent_iff :
    r.prepare gBaseInfo = .readsAbsent i ↔ r.select gBaseInfo = .ok i ∧
      ¬isBase gBaseInfo i ∧ r.lpProtocolInfo = none := by
  constructor
  · intro hreads
    have hselect : r.select gBaseInfo = .ok i := by
      rw [← provider_prepare, hreads]
      rfl
    obtain ⟨p, hp, -⟩ := select_eq_ok_iff.1 hselect
    refine ⟨hselect, ?_⟩
    by_cases hbase : isBase gBaseInfo i = true
    · obtain ⟨q, hq⟩ := Option.isSome_iff_exists.1 (isSome_reserve (r := r) hp)
      rcases hinfo : r.lpProtocolInfo with - | info
      · simp [Request.prepare, hselect, hbase, hq, hinfo] at hreads
      · simp [Request.prepare, hselect, hbase, hq, hinfo] at hreads
    · refine ⟨hbase, ?_⟩
      by_contra hsome
      obtain ⟨info, hinfo⟩ := Option.ne_none_iff_exists'.1 hsome
      simp [Request.prepare, hselect, hbase, hinfo] at hreads
  · rintro ⟨hselect, hbase, hnone⟩
    simp [Request.prepare, hselect, hbase, hnone]

theorem firstFit_iff_select (hclear : r.Unambiguous gBaseInfo) :
    r.select gBaseInfo = .ok i ↔ ∃ p, r.FirstFit gBaseInfo i p := by
  -- No element that fits comes before the one at which the loop stops.
  have hstops : ∀ {j q}, r.FirstFit gBaseInfo j q → r.stops q := by
    intro j q hq
    exact stops_iff.2 ⟨hq.fits, (hclear j q hq).1⟩
  rw [select_eq_ok_iff]
  constructor
  · rintro ⟨p, hp, hstop, hfirst⟩
    refine ⟨p, hp, (stops_iff.1 hstop).1, ?_⟩
    intro j q hj hq hfits
    obtain ⟨k, u, hk, hu⟩ := exists_firstFit hq hfits
    exact hfirst k u (Nat.lt_of_le_of_lt hk hj) hu.get (hstops hu)
  · rintro ⟨p, hp⟩
    refine ⟨p, hp.get, hstops hp, ?_⟩
    intro j q hj hq hstop
    exact hp.first j q hj hq (stops_iff.1 hstop).1

/-- The selection follows the rule exactly if the first element that fits has the protocol
itself where the family is left open, and is over a base protocol where there is no protocol
information. -/
theorem follows_rule_iff (r : Request) (gBaseInfo : List Provider) :
    r.FollowsRule gBaseInfo ↔ r.Unambiguous gBaseInfo := by
  constructor
  · intro hrule i p hp
    have hselect := provider_prepare.1 ((hrule.chosen i).2 ⟨p, hp⟩)
    obtain ⟨q, hq, hstop, -⟩ := select_eq_ok_iff.1 hselect
    obtain rfl : p = q := Option.some.inj (hp.get.symm.trans hq)
    refine ⟨(stops_iff.1 hstop).2, ?_⟩
    intro hnone
    rw [← isBase_iff hp.get]
    by_contra hbase
    exact hrule.present i (prepare_readsAbsent_iff.2 ⟨hselect, hbase, hnone⟩)
  · intro hclear
    refine ⟨?_, ?_, ?_⟩
    · intro i
      rw [provider_prepare, firstFit_iff_select hclear]
    · simp only [prepare_fails_iff]
      constructor
      · rintro ⟨lpErrno, herror⟩ p hp hfits
        obtain ⟨k, hk⟩ := List.mem_iff_getElem?.1 hp
        obtain ⟨i, q, -, hq⟩ := exists_firstFit hk hfits
        have hok := (firstFit_iff_select hclear).2 ⟨q, hq⟩
        rw [herror] at hok
        exact absurd hok (by simp)
      · intro hnone
        rcases hselect : r.select gBaseInfo with lpErrno | i
        · exact ⟨lpErrno, rfl⟩
        · obtain ⟨p, hp⟩ := (firstFit_iff_select hclear).1 hselect
          exact absurd hp.fits (hnone p (List.mem_of_getElem? hp.get))
    · intro i hreads
      obtain ⟨hselect, hbase, hnone⟩ := prepare_readsAbsent_iff.1 hreads
      obtain ⟨p, hp⟩ := (firstFit_iff_select hclear).1 hselect
      exact hbase ((isBase_iff hp.get).2 ((hclear i p hp).2 hnone))

/-- A provider that is itself layered over another one. -/
def overLayered : Provider where
  layeredProvider := entry 5 11 3 1 4
  nextProvider := { entry 4 10 2 2 3 with iAddressFamily := 2, iSocketType := 1, iProtocol := 6 }

/-- `socket(AF_INET, SOCK_STREAM, IPPROTO_TCP)`. -/
def tcpSocket : Request := ⟨2, 1, 6, none⟩

theorem not_follows_rule_overLayered : ¬tcpSocket.FollowsRule [overLayered] := by
  intro hrule
  exact hrule.present 0 (by decide)

end Prepare

/-! ## The table -/

section Kept
variable {r : Request} {gBaseInfo : List Provider} {i : ℕ} {p : Provider} {call : Call}
  {s t u : Globals}

theorem setReserved_setReserved (v w : DWORD) :
    setReserved (setReserved gBaseInfo i v) i w = setReserved gBaseInfo i w := by
  refine List.ext_getElem? fun k => ?_
  simp only [setReserved, List.getElem?_modify]
  by_cases hik : i = k
  · rcases gBaseInfo[k]? with - | q <;> simp [hik]
  · simp [hik]

theorem setReserved_eq_self (hp : gBaseInfo[i]? = some p) (v : DWORD) :
    setReserved gBaseInfo i v = gBaseInfo ↔ p.nextProvider.dwProviderReserved = v := by
  constructor
  · intro heq
    have hset := getElem?_setReserved v hp
    rw [heq, hp] at hset
    rw [Option.some.inj hset]
  · intro hv
    refine List.ext_getElem? fun k => ?_
    by_cases hik : i = k
    · rw [← hik, getElem?_setReserved v hp, hp, ← hv]
    · simp [setReserved, hik]

theorem isBase_setReserved (v : DWORD) :
    isBase (setReserved gBaseInfo i v) i = isBase gBaseInfo i := by
  unfold isBase setReserved
  rw [List.getElem?_modify]
  rcases gBaseInfo[i]? with - | q <;> simp

theorem isBase_reserve : isBase (r.reserve gBaseInfo i) i = isBase gBaseInfo i := by
  unfold Request.reserve
  rcases r.lpProtocolInfo with - | info
  · rfl
  · exact isBase_setReserved _

theorem setReserved_reserve (v : DWORD) :
    setReserved (r.reserve gBaseInfo i) i v = setReserved gBaseInfo i v := by
  unfold Request.reserve
  rcases r.lpProtocolInfo with - | info
  · rfl
  · exact setReserved_setReserved ..

theorem reserve_eq_self (hp : gBaseInfo[i]? = some p) :
    r.reserve gBaseInfo i = gBaseInfo ↔ ∀ info, r.lpProtocolInfo = some info →
      p.nextProvider.dwProviderReserved = info.dwProviderReserved := by
  unfold Request.reserve
  rcases r.lpProtocolInfo with - | info
  · simp
  · simp [setReserved_eq_self hp]

theorem gBaseInfo_create : (call.create i s).1.gBaseInfo =
      if isBase s.gBaseInfo i ∧ call.Completes then setReserved s.gBaseInfo i 0
      else s.gBaseInfo := by
  rcases hlower : call.answer.lpWSPSocket with - | nextProviderSocket
  · simp [Call.create, Call.Completes, hlower]
  · rcases halloc : call.answer.heapAlloc with - | a
    · simp [Call.create, Call.Completes, hlower, halloc]
    · rcases hhandle : call.answer.lpWPUCreateSocketHandle with - | newSocket <;>
        simp [Call.create, Call.Completes, hlower, halloc, hhandle]

theorem step_cases (hstep : step t call = some u) :
    (∃ lpErrno, call.request.select t.gBaseInfo = .error lpErrno) ∧ u = t ∨
      ∃ i, call.request.select t.gBaseInfo = .ok i ∧
        u = (call.create i { t with gBaseInfo := call.request.reserve t.gBaseInfo i }).1 := by
  unfold step wspSocket at hstep
  rcases hprepare : call.request.prepare t.gBaseInfo with lpErrno | k | ⟨k, infoCopy⟩
  · rw [hprepare] at hstep
    exact .inl ⟨⟨lpErrno, prepare_fails_iff.1 hprepare⟩, (Option.some.inj hstep).symm⟩
  · rw [hprepare] at hstep
    exact absurd hstep (by simp)
  · rw [hprepare] at hstep
    refine .inr ⟨k, provider_prepare.1 ?_, (Option.some.inj hstep).symm⟩
    rw [hprepare]
    rfl

theorem gBaseInfo_step_eq_iff (hstep : step t call = some u) :
    u.gBaseInfo = t.gBaseInfo ↔ call.KeepsTable t.gBaseInfo := by
  rcases step_cases hstep with ⟨⟨lpErrno, herror⟩, rfl⟩ | ⟨i, hselect, rfl⟩
  · refine ⟨fun _ i p hselect _ => ?_, fun _ => rfl⟩
    rw [herror] at hselect
    exact absurd hselect (by simp)
  · obtain ⟨p, hp, -⟩ := select_eq_ok_iff.1 hselect
    have hkeeps : call.KeepsTable t.gBaseInfo ↔
        if isBase t.gBaseInfo i ∧ call.Completes then p.nextProvider.dwProviderReserved = 0
        else ∀ info, call.request.lpProtocolInfo = some info →
          p.nextProvider.dwProviderReserved = info.dwProviderReserved := by
      constructor
      · exact fun hkeeps => hkeeps i p hselect hp
      · intro hkeeps k q hk hq
        obtain rfl : i = k := Except.ok.inj (hselect.symm.trans hk)
        obtain rfl : p = q := Option.some.inj (hp.symm.trans hq)
        exact hkeeps
    rw [hkeeps, gBaseInfo_create]
    change (if isBase (call.request.reserve t.gBaseInfo i) i = true ∧ call.Completes then
      setReserved (call.request.reserve t.gBaseInfo i) i 0
      else call.request.reserve t.gBaseInfo i) = _ ↔ _
    rw [isBase_reserve, setReserved_reserve]
    by_cases hclears : isBase t.gBaseInfo i = true ∧ call.Completes
    · rw [if_pos hclears, if_pos hclears, setReserved_eq_self hp]
    · rw [if_neg hclears, if_neg hclears, reserve_eq_self hp]

theorem keepsTable_of_reads (hreads : step t call = none) : call.KeepsTable t.gBaseInfo := by
  intro i p hselect hp
  have hfaults : call.request.prepare t.gBaseInfo = .readsAbsent i := by
    unfold step wspSocket at hreads
    rcases hprepare : call.request.prepare t.gBaseInfo with lpErrno | k | ⟨k, infoCopy⟩
    · simp [hprepare] at hreads
    · have hk := provider_prepare (i := k) |>.1 (by rw [hprepare]; rfl)
      rw [Except.ok.inj (hselect.symm.trans hk)]
    · simp [hprepare] at hreads
  obtain ⟨-, hbase, hnone⟩ := prepare_readsAbsent_iff.1 hfaults
  rw [if_neg fun hclears => hbase hclears.1]
  intro info hinfo
  rw [hnone] at hinfo
  exact absurd hinfo (by simp)

theorem table_of_keeps {calls : List Call}
    (hkeeps : ∀ done call t, done ++ [call] <+: calls → RunsTo step Always s done t →
      call.KeepsTable t.gBaseInfo) {done : List Call} (hdone : done <+: calls)
    (hrun : RunsTo step Always s done t) : t.gBaseInfo = s.gBaseInfo := by
  induction hrun with
  | nil => rfl
  | snoc hrun _ hstep ih =>
      rw [(gBaseInfo_step_eq_iff hstep).2 (hkeeps _ _ _ hdone hrun)]
      exact ih ((List.prefix_append _ _).trans hdone)

/-- In every sequence of calls the table stays as it was at the start exactly if each of them
keeps it. -/
theorem table_kept_iff (s : Globals) (calls : List Call) :
    TableKept s calls ↔ ∀ done call t, done ++ [call] <+: calls → RunsTo step Always s done t →
      call.KeepsTable t.gBaseInfo := by
  constructor
  · intro hkept done call t hdone hrun
    rcases hstep : step t call with - | u
    · exact keepsTable_of_reads hstep
    · have hu := hkept.table _ u hdone (.snoc hrun trivial hstep)
      have ht := hkept.table _ t ((List.prefix_append _ _).trans hdone) hrun
      exact (gBaseInfo_step_eq_iff hstep).1 (hu.trans ht.symm)
  · intro hkeeps
    refine ⟨fun done t hdone hrun => table_of_keeps hkeeps hdone hrun, ?_⟩
    intro done call t hdone hrun
    rw [table_of_keeps hkeeps ((List.prefix_append _ _).trans hdone) hrun]

end Kept

/-- One provider, layered over a base protocol. -/
def oneProvider : Globals where
  gBaseInfo := [⟨entry 4 10 2 1 3, { entry 3 9 1 3 0 with
    iAddressFamily := 2, iSocketType := 1, iProtocol := 6 }⟩]
  sockets := ⟨fun _ => none, fun _ => [], fun _ => none⟩

/-- A socket that is to be duplicated, which the lower provider refuses. -/
def refused : Call where
  request := ⟨2, 1, 6, some { entry 4 10 2 1 3 with
    dwProviderReserved := 9, iAddressFamily := 2, iSocketType := 1, iProtocol := 6 }⟩
  answer := ⟨none, none, none, 10022⟩

/-- The next call, without protocol information, hands the value down as its own. -/
theorem not_tableKept_refused : ¬TableKept oneProvider [refused, ⟨tcpSocket, refused.answer⟩] := by
  intro hkept
  have hrun : RunsTo step Always oneProvider [refused] (step oneProvider refused |>.get rfl) :=
    .single trivial rfl
  have hhands := hkept.hands [refused] ⟨tcpSocket, refused.answer⟩ _ (by simp) hrun
  exact absurd hhands (by decide)

end MiscProjects.Lsp.Selection
