import Mathlib.Data.BitVec
import MiscProjects.NameService.Marshalled
import MiscProjects.NameService.Registry

/-!
# The functions of the namespace provider

Each `NSP*` function sends one message to the name service, an action and its
parameters, and reads the answer.  The service picks the request by the action,
and the function interprets what it reads by itself; the two ends share nothing
but the constants and the marshalling.

A call that takes the service down, or whose result depends on memory that
nothing has been written to, is `none`.
-/

namespace MiscProjects.NameService

open MiscProjects.Memory

/-! ## Messages -/

def marshallBufferSz : ℕ := 4096

def mynspRegisterClass : ℕ := 0
def mynspDeregisterClass : ℕ := 1
def mynspLookupClass : ℕ := 2
def mynspRegisterService : ℕ := 3
def mynspDeregisterService : ℕ := 4
def mynspLookupServiceBegin : ℕ := 5
def mynspLookupServiceNext : ℕ := 6
def mynspLookupServiceEnd : ℕ := 7

/-- The value of a `WSASERVICECLASSINFOW`. -/
structure ServiceClassInfo where
  lpServiceClassId : Option Guid
  lpszServiceClassName : Option (List UInt16)
  dwCount : ℕ
  lpClassInfos : Option (List UInt8)
deriving DecidableEq

/-- The bytes of a member that is there. -/
def memberSize (bytes : Option (List UInt8)) : ℕ :=
  match bytes with
  | none => 0
  | some bytes => bytes.length

/-- The bytes of a string with its terminator. -/
def textSize (text : Option (List UInt16)) : ℕ :=
  match text with
  | none => 0
  | some text => 2 * (text.length + 1)

/-- The size of the marshalled form. -/
def ServiceClassInfo.size (sc : ServiceClassInfo) : ℕ :=
  16 + memberSize sc.lpServiceClassId + textSize sc.lpszServiceClassName +
    memberSize sc.lpClassInfos

def csAddrsSize (addrs : Option (List CsAddrInfo)) : ℕ :=
  match addrs with
  | none => 0
  | some addrs =>
      (addrs.map fun addr => 24 + addr.localAddr.length + addr.remoteAddr.length).sum

def QuerySet.size (q : QuerySet) : ℕ :=
  60 + textSize q.lpszServiceInstanceName + memberSize q.lpServiceClassId +
    memberSize q.lpVersion + textSize q.lpszComment + memberSize q.lpNSProviderId +
    textSize q.lpszContext + memberSize q.lpafpProtocols + textSize q.lpszQueryString +
    csAddrsSize q.lpcsaBuffer

/-! ## The sizes are those of the structures in memory -/

section Sizes
variable {m : Mem} {base qs : ℕ} {member : Member} {data : Option (List UInt8)}

theorem total_memberRegions (hdata : dataAt m base member = some data) :
    total (memberRegions m base member) = memberSize data := by
  unfold dataAt at hdata
  dsimp only at hdata
  split at hdata
  next hzero =>
    obtain rfl := Option.some.inj hdata
    simp [memberRegions, hzero, memberSize]
  next hptr =>
    obtain ⟨n, hn, rfl⟩ := Option.map_eq_some_iff.mp hdata
    simp [memberRegions, hptr, memberRegion, hn, memberSize, total, bytesAt]

theorem textSize_textOf (hdata : dataAt m base member = some data)
    (htext : member.extent = .text) : textSize (data.map textOf) = memberSize data := by
  unfold dataAt at hdata
  dsimp only at hdata
  split at hdata
  next =>
    obtain rfl := Option.some.inj hdata
    rfl
  next =>
    obtain ⟨n, hn, rfl⟩ := Option.map_eq_some_iff.mp hdata
    rw [htext] at hn
    obtain ⟨len, -, rfl⟩ := sizeAt_text hn
    simp only [Option.map_some, textSize, memberSize, textOf, List.length_dropLast, length_wchars,
      bytesAt, List.length_map, List.length_range]
    omega

theorem total_csAddrRegions (l : List ℕ) : total (l.flatMap (csAddrRegions m qs)) + 24 * l.length =
      (l.map fun i => 24 + (csAddrAt m (csAddrEntry m qs i)).localAddr.length +
          (csAddrAt m (csAddrEntry m qs i)).remoteAddr.length).sum := by
  induction l with
  | nil => rfl
  | cons i l ih =>
      have hlocal : (memberRegion m (csAddrEntry m qs i) localAddr).len =
          (csAddrAt m (csAddrEntry m qs i)).localAddr.length := by
        simp [memberRegion, sizeAt, localAddr, csAddrAt, addressAt, bytesAt]
      have hremote : (memberRegion m (csAddrEntry m qs i) remoteAddr).len =
          (csAddrAt m (csAddrEntry m qs i)).remoteAddr.length := by
        simp [memberRegion, sizeAt, remoteAddr, csAddrAt, addressAt, bytesAt]
      rw [List.flatMap_cons, total_append, List.map_cons, List.sum_cons, ← ih, ← hlocal, ← hremote,
        List.length_cons, csAddrRegions, total_cons, total_cons]
      simp only [total, List.map_nil, List.sum_nil]
      omega

theorem total_csAddrsRegions : total (csAddrsRegions m qs) = csAddrsSize (csAddrsAt m qs) := by
  by_cases hzero : dword m (qs + lpcsaBuffer.offset) = 0
  · rw [csAddrsRegions, csAddrsAt, if_pos hzero, if_pos hzero]
    rfl
  · have hentries := @total_csAddrRegions m qs (List.range (dword m (qs + 44)))
    have harray : (memberRegion m qs lpcsaBuffer).len = 24 * dword m (qs + 44) := by
      simp [memberRegion, sizeAt, lpcsaBuffer]
    rw [List.length_range] at hentries
    rw [csAddrsRegions, csAddrsAt, if_neg hzero, if_neg hzero, total_cons, harray, csAddrsSize,
      List.map_map, Nat.add_comm, hentries]
    rfl

/-- The size of the value is the number of bytes that marshalling writes. -/
theorem marshalledSize_eq {q : QuerySet} (hq : querySetAt m qs = some q) :
    marshalledSize m qs = q.size := by
  simp only [querySetAt, Option.bind_eq_bind, Option.bind_eq_some_iff, Option.pure_def,
    Option.some.injEq] at hq
  obtain ⟨name, hname, classId, hclassId, version, hversion, comment, hcomment, provider,
    hprovider, context, hcontext, protocols, hprotocols, queryString, hqueryString, rfl⟩ := hq
  rw [marshalledSize, querySetRegions, total_append, layoutRegions, total_cons,
    total_csAddrsRegions]
  simp only [WSAQUERYSETW, List.flatMap_cons, List.flatMap_nil, List.append_nil, total_append,
    total_memberRegions hname, total_memberRegions hclassId, total_memberRegions hversion,
    total_memberRegions hcomment, total_memberRegions hprovider, total_memberRegions hcontext,
    total_memberRegions hprotocols, total_memberRegions hqueryString, QuerySet.size,
    textSize_textOf hname rfl, textSize_textOf hcomment rfl, textSize_textOf hcontext rfl,
    textSize_textOf hqueryString rfl]
  omega

end Sizes

/-! ## Requests and answers -/

/-- What follows the action.  `fixedPart` are the bytes of the structure into which
the service puts a class. -/
inductive Payload
  | classInfo (sc : ServiceClassInfo) (fixedPart : List UInt8)
  | guid (guid : Guid)
  | querySet (qs : QuerySet)
  | handle (hQuery : Handle)
deriving DecidableEq

structure Message where
  action : ℕ
  payload : Payload
deriving DecidableEq

/-- The request that the service reads. -/
def Message.receive (msg : Message) : Option Request :=
  if msg.action = mynspRegisterClass then
    match msg.payload with
    | .classInfo sc fixedPart => some (.registerClass ⟨sc.lpServiceClassId, fixedPart⟩)
    | _ => none
  else if msg.action = mynspDeregisterClass then
    match msg.payload with
    | .guid classguid => some (.deregisterClass classguid)
    | _ => none
  else if msg.action = mynspLookupClass then
    match msg.payload with
    | .guid classguid => some (.lookupClass classguid)
    | _ => none
  else if msg.action = mynspRegisterService then
    match msg.payload with
    | .querySet si => some (.registerService si)
    | _ => none
  else if msg.action = mynspDeregisterService then
    match msg.payload with
    | .querySet si => some (.deregisterService si)
    | _ => none
  else if msg.action = mynspLookupServiceBegin then
    match msg.payload with
    | .querySet si => some (.lookupServiceBegin si)
    | _ => none
  else if msg.action = mynspLookupServiceNext then
    match msg.payload with
    | .handle hQuery => some (.lookupServiceNext hQuery)
    | _ => none
  else if msg.action = mynspLookupServiceEnd then
    match msg.payload with
    | .handle hQuery => some (.lookupServiceEnd hQuery)
    | _ => none
  else none

/-- The integer with which every answer begins; `none` if the service has not set
it. -/
def Response.int : Response → Option ℤ
  | .ret code => some code
  | .handle hQuery => hQuery.map BitVec.toInt
  | .service found => some found.querySet.size
  | .nLeft code => some code

/-! ## Calls -/

inductive SetServiceOp
  | register
  | deregister
  | delete
deriving DecidableEq

/-- A call of the provider.  For `NSPGetServiceClassInfo` the class is the one that
`lpServiceClassInfo` names. -/
inductive Call
  | lookupServiceBegin (lpqsRestrictions : QuerySet)
  | lookupServiceNext (hLookup : Handle) (bufferLength : ℕ)
  | lookupServiceEnd (hLookup : Handle)
  | setService (lpqsRegInfo : QuerySet) (essOperation : SetServiceOp)
  | installServiceClass (lpServiceClassInfo : ServiceClassInfo) (fixedPart : List UInt8)
  | removeServiceClass (lpServiceClassId : Guid)
  | getServiceClassInfo (lpProviderId : Guid) (bufSize : ℕ) (lpServiceClassId : Guid)
deriving DecidableEq

inductive WsaError
  | WSAEINVAL
  | WSAEALREADY
  | WSATYPE_NOT_FOUND
  | WSASERVICE_NOT_FOUND
  | WSA_E_NO_MORE
  | WSA_INVALID_HANDLE
deriving DecidableEq

/-- What a call returns; `bufferTooSmall` is `WSAEFAULT` with the size that is
needed. -/
inductive Result
  | noError
  | error (code : WsaError)
  | bufferTooSmall (size : ℕ)
  | handle (hLookup : Handle)
  | service (found : QuerySet)
  | classInfo (sc : ServiceClassInfo)
deriving DecidableEq

/-- A structure is marshalled into a buffer of fixed size. -/
def marshalled (size : ℕ) (msg : Message) : Option Message :=
  if size ≤ marshallBufferSz then some msg else none

/-- What the function sends. -/
def Call.message : Call → Option Message
  | .lookupServiceBegin qs =>
      marshalled qs.size ⟨mynspLookupServiceBegin, .querySet qs⟩
  | .lookupServiceNext hLookup _ => some ⟨mynspLookupServiceNext, .handle hLookup⟩
  -- the action is that of `NSPLookupServiceNext`
  | .lookupServiceEnd hLookup => some ⟨mynspLookupServiceNext, .handle hLookup⟩
  | .setService qs .register => marshalled qs.size ⟨mynspRegisterService, .querySet qs⟩
  | .setService qs .delete => marshalled qs.size ⟨mynspDeregisterService, .querySet qs⟩
  -- the action is not set
  | .setService _ .deregister => none
  | .installServiceClass sc fixedPart =>
      marshalled sc.size ⟨mynspRegisterClass, .classInfo sc fixedPart⟩
  | .removeServiceClass guid => some ⟨mynspDeregisterClass, .guid guid⟩
  -- the id is that of the provider
  | .getServiceClassInfo lpProviderId _ _ => some ⟨mynspLookupClass, .guid lpProviderId⟩

/-- `NO_ERROR`, or the error of the function if the code is `MYNSP_ERROR`. -/
def returnCode (code : ℤ) (error : WsaError) : Result :=
  if code = mynspError then .error error else .noError

/-- What the function makes of the answer. -/
def Call.result (answer : Response) : Call → Option Result
  | .lookupServiceBegin _ =>
      answer.int.map fun retcode =>
        if retcode = mynspError then .error .WSAEINVAL
        else .handle (BitVec.ofInt 32 retcode)
  | .lookupServiceNext _ bufferLength =>
      answer.int.bind fun bytes2follow =>
        if bytes2follow = -1 then some (.error .WSASERVICE_NOT_FOUND)
        else if bytes2follow = 0 then some (.error .WSA_E_NO_MORE)
        else if bufferLength < bytes2follow.toNat then
          some (.bufferTooSmall bytes2follow.toNat)
        else
          match answer with
          | .service found => some (.service found.querySet)
          | _ => none
  | .lookupServiceEnd _ => answer.int.map fun retcode => returnCode retcode .WSA_INVALID_HANDLE
  | .setService _ _ => answer.int.map fun retcode => returnCode retcode .WSAEINVAL
  | .installServiceClass _ _ => answer.int.map fun retcode => returnCode retcode .WSAEALREADY
  | .removeServiceClass _ =>
      answer.int.map fun retcode => returnCode retcode .WSATYPE_NOT_FOUND
  | .getServiceClassInfo _ bufSize _ =>
      answer.int.bind fun bytes2follow =>
        if bytes2follow = -1 then some (.error .WSATYPE_NOT_FOUND)
        else if bufSize < bytes2follow.toNat then some (.bufferTooSmall bytes2follow.toNat)
        -- no class info follows
        else none

section Names
variable (lstrcmpW : Name → Name → Bool)

/-- A call and the turn of the service that it causes. -/
def provide (s : Server) (call : Call) : Option (Server × Result) := do
  let msg ← call.message
  let request ← msg.receive
  let (s', answer) ← serve lstrcmpW s request
  let result ← call.result answer
  some (s', result)

variable {lstrcmpW}

theorem provide_of_serve {s s' : Server} {call : Call} {msg : Message} {r : Request}
    {answer : Response} {result : Result} (hmsg : call.message = some msg)
    (hr : msg.receive = some r) (hserve : serve lstrcmpW s r = some (s', answer))
    (hresult : call.result answer = some result) : provide lstrcmpW s call = some (s', result) := by
  simp only [provide, hmsg, hr, hserve, hresult, Option.bind_eq_bind, Option.bind_some]

end Names

end MiscProjects.NameService
