import Mathlib.Algebra.Ring.Nat
import Mathlib.Data.Int.Notation
import MiscProjects.Library.SwapRemove
import MiscProjects.NameService.Marshall

/-!
# The name service

The tables of the service and the requests of its clients, handled one at a
time.  A service is registered as the structure it was demarshalled into:
`ptr` tells the registrations apart.  `lstrcmpW` is a parameter; it tells
whether two names compare equal.

A request that makes the service dereference `NULL` or leave one of its arrays
is `none`.
-/

namespace MiscProjects.NameService

open MiscProjects.SwapRemove

abbrev Guid := List UInt8

abbrev Name := Option (List UInt16)

abbrev Handle := BitVec 32

def maxServiceClasses : ℕ := 25
def maxServices : ℕ := 50
def maxQueries : ℕ := 50

def mynspSuccess : ℤ := 1
def mynspError : ℤ := 0

/-- A registered class; `fixedPart` are the bytes of the structure itself,
which begins with the pointer `lpServiceClassId`. -/
structure ServiceClass where
  lpServiceClassId : Option Guid
  fixedPart : List UInt8
deriving DecidableEq

structure Service where
  ptr : ℕ
  querySet : QuerySet
deriving DecidableEq

structure QueryInfo where
  hHandle : Handle
  iIndex : ℤ
  query : QuerySet
deriving DecidableEq

structure Server where
  serviceClasses : List ServiceClass
  services : List Service
  queryInfo : List QueryInfo
  dwHandleValue : Handle
  nextPtr : ℕ
deriving DecidableEq

def Server.create : Server :=
  { serviceClasses := [], services := [], queryInfo := [], dwHandleValue := 0,
    nextPtr := 0 }

inductive Request
  | registerClass (sc : ServiceClass)
  | deregisterClass (classguid : Guid)
  | lookupClass (classguid : Guid)
  | registerService (si : QuerySet)
  | deregisterService (si : QuerySet)
  | lookupServiceBegin (si : QuerySet)
  | lookupServiceNext (hQuery : Handle)
  | lookupServiceEnd (hQuery : Handle)
deriving DecidableEq

/-- What the client reads: a return code, a handle (`none` if it has not been
set), a marshalled service, or `nLeft` without a service. -/
inductive Response
  | ret (code : ℤ)
  | handle (hQuery : Option Handle)
  | service (found : Service)
  | nLeft (code : ℤ)
deriving DecidableEq

/-! ## Service classes -/

/-- `memcmp` of two class ids; a `NULL` id faults. -/
def sameClassId (guid id : Option Guid) : Option Bool :=
  match guid, id with
  | some guid, some id => some (guid == id)
  | _, _ => none

/-- Whether the class is registered. -/
def lookupServiceClass (guid : Option Guid) :
    List ServiceClass → Option (Option ServiceClass)
  | [] => some none
  | sc :: rest => do
      if ← sameClassId guid sc.lpServiceClassId then some (some sc)
      else lookupServiceClass guid rest

def registerClass (sc : ServiceClass) (s : Server) : Option (Server × ℤ) := do
  match ← lookupServiceClass sc.lpServiceClassId s.serviceClasses with
  | some _ => some (s, mynspError)
  | none =>
      -- the bound tested is that of the services
      if maxServices ≤ s.serviceClasses.length then some (s, mynspSuccess)
      else if s.serviceClasses.length < maxServiceClasses then
        some ({ s with serviceClasses := s.serviceClasses ++ [sc] },
          mynspSuccess)
      else none

/-- `DeregisterServiceClass` compares the id with the structure itself, and
its test for services of the class copies instead of comparing and never
succeeds. -/
def deregisterServiceClass (guid : Guid) (s : Server) : Server × ℤ :=
  match s.serviceClasses.findIdx? (fun sc => guid == sc.fixedPart) with
  | none => (s, mynspError)
  | some i =>
      ({ s with serviceClasses := s.serviceClasses.eraseIdx i }, mynspSuccess)

section Names
variable (lstrcmpW : Name → Name → Bool)

/-! ## Services -/

/-- The index of the service of the given name, if its class is registered. -/
def lookupService (guid : Option Guid) (service : Name) (s : Server) :
    Option (Option ℕ) := do
  match ← lookupServiceClass guid s.serviceClasses with
  | none => some none
  | some _ =>
      some (s.services.findIdx? fun entry =>
        lstrcmpW service entry.querySet.lpszServiceInstanceName)

def registerService (si : QuerySet) (s : Server) : Option (Server × ℤ) := do
  match ← lookupService lstrcmpW si.lpServiceClassId
      si.lpszServiceInstanceName s with
  | some _ => some (s, mynspError)
  | none =>
      if s.services.length < maxServices then
        some ({ s with
          services := s.services ++ [⟨s.nextPtr, si⟩],
          nextPtr := s.nextPtr + 1 }, mynspSuccess)
      else none

/-- `DeregisterService`: the last service is moved into the place of the one
removed. -/
def deregisterService (guid : Option Guid) (service : Name) (s : Server) :
    Option (Server × ℤ) := do
  match ← lookupService lstrcmpW guid service s with
  | none => some (s, mynspError)
  | some i => some ({ s with services := swapRemove s.services i }, mynspSuccess)

/-! ## Queries -/

def registerQuery (qs : QuerySet) (s : Server) : Server × Option Handle :=
  if maxQueries ≤ s.queryInfo.length then (s, none)
  else
    let handle := s.dwHandleValue + 1
    ({ s with
       dwHandleValue := handle,
       queryInfo := s.queryInfo ++ [⟨handle, -1, qs⟩] }, some handle)

def findQuery (hQuery : Handle) (s : Server) : Option ℕ :=
  s.queryInfo.findIdx? fun info => info.hHandle == hQuery

/-- Whether a service matches: by the wildcard or by an equal name.  A query
without a name faults. -/
def matchesQuery (query service : QuerySet) : Option Bool :=
  query.lpszServiceInstanceName.map fun name =>
    name.head? == some 42 ||
      lstrcmpW (some name) service.lpszServiceInstanceName

/-- The first of the services that matches, with its index; they are those
from index `i` on. -/
def firstMatch (query : QuerySet) : ℕ → List Service →
    Option (Option (ℕ × Service))
  | _, [] => some none
  | i, service :: rest => do
      if ← matchesQuery lstrcmpW query service.querySet then
        some (some (i, service))
      else firstMatch query (i + 1) rest

/-- The index at which the search of a query goes on. -/
def QueryInfo.cursor (info : QueryInfo) : ℕ := (info.iIndex + 1).toNat

/-- `PerformQuery` and the answer to the client. -/
def performQuery (hQuery : Handle) (s : Server) : Option (Server × Response) := do
  let index ← findQuery hQuery s
  let info ← s.queryInfo[index]?
  match ← firstMatch lstrcmpW info.query info.cursor
      (s.services.drop info.cursor) with
  | some (i, service) =>
      some ({ s with
        queryInfo := s.queryInfo.set index { info with iIndex := i } },
        .service service)
  | none => some (s, .nLeft (if info.iIndex = -1 then -1 else 0))

/-- `DeleteQuery`: the last query is moved into the place of the one
removed. -/
def deleteQuery (hQuery : Handle) (s : Server) : Server × ℤ :=
  match findQuery hQuery s with
  | none => (s, mynspError)
  | some index =>
      ({ s with queryInfo := swapRemove s.queryInfo index }, mynspSuccess)

/-! ## Requests -/

/-- One turn of the loop in `main`. -/
def serve (s : Server) : Request → Option (Server × Response)
  | .registerClass sc => (registerClass sc s).map fun (s, code) => (s, .ret code)
  | .deregisterClass classguid =>
      let (s, code) := deregisterServiceClass classguid s
      some (s, .ret code)
  | .lookupClass classguid => do
      match ← lookupServiceClass (some classguid) s.serviceClasses with
      | some _ => some (s, .ret mynspSuccess)
      -- a class that is not found is marshalled all the same
      | none => none
  | .registerService si =>
      (registerService lstrcmpW si s).map fun (s, code) => (s, .ret code)
  | .deregisterService si =>
      (deregisterService lstrcmpW si.lpServiceClassId
        si.lpszServiceInstanceName s).map fun (s, code) => (s, .ret code)
  | .lookupServiceBegin si =>
      let (s, handle) := registerQuery si s
      some (s, .handle handle)
  | .lookupServiceNext hQuery => performQuery lstrcmpW hQuery s
  | .lookupServiceEnd hQuery =>
      let (s, code) := deleteQuery hQuery s
      some (s, .ret code)

end Names

end MiscProjects.NameService
