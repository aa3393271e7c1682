import Mathlib.Data.List.Pairwise
import MiscProjects.Library.Memory

/-!
# Marshalling of name-service structures

`WSAQUERYSETW` and `WSASERVICECLASSINFOW` as they lie in the memory of a 32-bit
process: a fixed part whose pointer members lead to strings, to structures of
fixed size and to counted arrays.  Marshalling copies the fixed part and then
the data of every member that is not `NULL`; demarshalling copies them again
and makes the members point at the copies.

`querySetAt` is the value that a `WSAQUERYSETW` represents: everything but
`lpBlob`, which is not carried.
-/

namespace MiscProjects.NameService

open MiscProjects.Memory

/-! ## Layouts -/

/-- How long the data behind a pointer member are. -/
inductive Extent
  | text
  | fixed (size : ℕ)
  /-- An array; the number of its elements is the member at offset `count`. -/
  | counted (count size : ℕ)
deriving DecidableEq

/-- The offset of the member that an extent depends on. -/
def Extent.count? : Extent → Option ℕ
  | .counted count _ => some count
  | _ => none

structure Member where
  offset : ℕ
  extent : Extent
deriving DecidableEq

/-- Two members of four bytes do not overlap. -/
def OffsetsApart (o o' : ℕ) : Prop := o + 4 ≤ o' ∨ o' + 4 ≤ o

instance (o o' : ℕ) : Decidable (OffsetsApart o o') :=
  inferInstanceAs (Decidable (_ ∨ _))

/-- The pointers of two members do not overlap. -/
def Member.Apart (member other : Member) : Prop :=
  OffsetsApart member.offset other.offset

instance (member other : Member) : Decidable (member.Apart other) :=
  inferInstanceAs (Decidable (OffsetsApart _ _))

instance : Std.Symm Member.Apart := ⟨fun _ _ h => h.symm⟩

/-- A structure of `size` bytes and its pointer members, in the order in which
they are marshalled. -/
structure Layout where
  size : ℕ
  members : List Member
  inside : ∀ member ∈ members, member.offset + 4 ≤ size
  apart : members.Pairwise Member.Apart
  counted : ∀ member ∈ members, ∀ count ∈ member.extent.count?,
    count + 4 ≤ size ∧ ∀ other ∈ members, OffsetsApart count other.offset

def lpszServiceInstanceName : Member := ⟨4, .text⟩
def lpServiceClassId : Member := ⟨8, .fixed 16⟩
def lpVersion : Member := ⟨12, .fixed 8⟩
def lpszComment : Member := ⟨16, .text⟩
def lpNSProviderId : Member := ⟨24, .fixed 16⟩
def lpszContext : Member := ⟨28, .text⟩
def lpafpProtocols : Member := ⟨36, .counted 32 8⟩
def lpszQueryString : Member := ⟨40, .text⟩
def lpcsaBuffer : Member := ⟨48, .counted 44 24⟩

/-- `WSAQUERYSETW`, with the members marshalled before `lpcsaBuffer`. -/
def WSAQUERYSETW : Layout :=
  { size := 60,
    members :=
      [lpszServiceInstanceName, lpServiceClassId, lpVersion, lpszComment,
       lpNSProviderId, lpszContext, lpafpProtocols, lpszQueryString],
    inside := by decide, apart := by decide, counted := by decide }

/-- The addresses of a `CSADDR_INFO`, which has 24 bytes. -/
def localAddr : Member := ⟨0, .counted 4 1⟩
def remoteAddr : Member := ⟨8, .counted 12 1⟩

/-- `WSASERVICECLASSINFOW`: the class id, the name, the number of class infos
and the class infos. -/
def WSASERVICECLASSINFOW : Layout :=
  { size := 16,
    members := [⟨0, .fixed 16⟩, ⟨4, .text⟩, ⟨12, .counted 8 20⟩],
    inside := by decide, apart := by decide, counted := by decide }

/-! ## Sizes -/

/-- The number of bytes of the data at `p` of a member of the structure at
`base`; `none` for a string that does not end. -/
def sizeAt (m : Mem) (base p : ℕ) : Extent → Option ℕ
  | .text => (lstrlenW m p).map fun n => (n + 1) * 2
  | .fixed size => some size
  | .counted count size => some (size * dword m (base + count))

/-- The size as the code computes it, in an `unsigned int`. -/
def sz (m : Mem) (base p : ℕ) (extent : Extent) : Option ℕ :=
  (sizeAt m base p extent).map (· % 2 ^ 32)

/-! ## Marshalling -/

structure Marshalling where
  m : Mem
  ptr : ℕ
  totalsz : ℕ

/-- `memcpy` to `ptr`, which advances with `totalsz`. -/
def copyOut (src n : ℕ) (c : Marshalling) : Marshalling :=
  { m := memcpy c.m c.ptr src n, ptr := c.ptr + n, totalsz := c.totalsz + n }

/-- Copy the data of a member. -/
def copyMember (base : ℕ) (member : Member) (c : Marshalling) :
    Option Marshalling :=
  let src := dword c.m (base + member.offset)
  (sz c.m base src member.extent).map fun n => copyOut src n c

def marshallMember (base : ℕ) (member : Member) (c : Marshalling) :
    Option Marshalling :=
  if dword c.m (base + member.offset) = 0 then some c
  else copyMember base member c

/-- The fixed part and the members of a layout. -/
def marshallLayout (layout : Layout) (m : Mem) (base buf : ℕ) :
    Option Marshalling :=
  layout.members.foldlM (fun c member => marshallMember base member c)
    (copyOut base layout.size ⟨m, buf, 0⟩)

def marshallServiceClassInfo (m : Mem) (sc buf : ℕ) : Option Marshalling :=
  marshallLayout WSASERVICECLASSINFOW m sc buf

/-- The address of `qs->lpcsaBuffer[i]`. -/
def csAddrEntry (m : Mem) (qs i : ℕ) : ℕ :=
  dword m (qs + lpcsaBuffer.offset) + 24 * i

/-- The two addresses of entry `i`. -/
def copyCsAddr (qs : ℕ) (c : Marshalling) (i : ℕ) : Option Marshalling := do
  let c ← copyMember (csAddrEntry c.m qs i) localAddr c
  copyMember (csAddrEntry c.m qs i) remoteAddr c

def marshallCsAddrs (qs : ℕ) (c : Marshalling) : Option Marshalling :=
  if dword c.m (qs + lpcsaBuffer.offset) = 0 then some c
  else do
    let c ← copyMember qs lpcsaBuffer c
    (List.range (dword c.m (qs + 44))).foldlM (copyCsAddr qs) c

def marshallServiceInfo (m : Mem) (qs buf : ℕ) : Option Marshalling := do
  let c ← marshallLayout WSAQUERYSETW m qs buf
  marshallCsAddrs qs c

/-! ## Demarshalling -/

structure DeMarshalling where
  m : Mem
  ptr : ℕ
  ptrdest : ℕ

/-- `memcpy` from `ptr` to `ptrdest`, which both advance. -/
def copyIn (n : ℕ) (c : DeMarshalling) : DeMarshalling :=
  { m := memcpy c.m c.ptrdest c.ptr n, ptr := c.ptr + n,
    ptrdest := c.ptrdest + n }

/-- Copy the data of a member and make it point at the copy. -/
def rebuildMember (base : ℕ) (member : Member) (c : DeMarshalling) :
    Option DeMarshalling :=
  (sz c.m base c.ptr member.extent).map fun n =>
    let copied := copyIn n c
    { copied with m := storeDword copied.m (base + member.offset) c.ptrdest }

def deMarshallMember (base : ℕ) (member : Member) (c : DeMarshalling) :
    Option DeMarshalling :=
  if dword c.m (base + member.offset) = 0 then some c
  else rebuildMember base member c

def deMarshallLayout (layout : Layout) (m : Mem) (base buf : ℕ) :
    Option DeMarshalling :=
  layout.members.foldlM (fun c member => deMarshallMember base member c)
    (copyIn layout.size ⟨m, buf, base⟩)

def deMarshallServiceClassInfo (m : Mem) (sc buf : ℕ) : Option DeMarshalling :=
  deMarshallLayout WSASERVICECLASSINFOW m sc buf

/-- The two addresses of entry `i`. -/
def rebuildCsAddr (qs : ℕ) (c : DeMarshalling) (i : ℕ) :
    Option DeMarshalling := do
  let c ← rebuildMember (csAddrEntry c.m qs i) localAddr c
  rebuildMember (csAddrEntry c.m qs i) remoteAddr c

def deMarshallCsAddrs (qs : ℕ) (c : DeMarshalling) : Option DeMarshalling :=
  if dword c.m (qs + lpcsaBuffer.offset) = 0 then some c
  else do
    let c ← rebuildMember qs lpcsaBuffer c
    (List.range (dword c.m (qs + 44))).foldlM (rebuildCsAddr qs) c

def deMarshallServiceInfo (m : Mem) (qs buf : ℕ) : Option DeMarshalling := do
  let c ← deMarshallLayout WSAQUERYSETW m qs buf
  deMarshallCsAddrs qs c

/-! ## The value of a structure -/

/-- The data of a member: `some none` if it is `NULL`, `none` if it is a string
that does not end. -/
def dataAt (m : Mem) (base : ℕ) (member : Member) :
    Option (Option (List UInt8)) :=
  let p := dword m (base + member.offset)
  if p = 0 then some none
  else (sizeAt m base p member.extent).map fun n => some (bytesAt m p n)

/-- The characters of a string, without the terminator. -/
def textOf (bytes : List UInt8) : List UInt16 := (wchars bytes).dropLast

/-- One `CSADDR_INFO`: the socket addresses, as many bytes as their lengths
tell. -/
structure CsAddrInfo where
  localAddr : List UInt8
  remoteAddr : List UInt8
  iSocketType : ℕ
  iProtocol : ℕ
deriving DecidableEq

/-- The data of an address, `NULL` or not. -/
def addressAt (m : Mem) (entry : ℕ) (member : Member) : List UInt8 :=
  bytesAt m (dword m (entry + member.offset))
    (dword m (entry + member.offset + 4))

def csAddrAt (m : Mem) (entry : ℕ) : CsAddrInfo :=
  { localAddr := addressAt m entry localAddr,
    remoteAddr := addressAt m entry remoteAddr,
    iSocketType := dword m (entry + 16), iProtocol := dword m (entry + 20) }

/-- The value of `lpcsaBuffer`. -/
def csAddrsAt (m : Mem) (qs : ℕ) : Option (List CsAddrInfo) :=
  if dword m (qs + lpcsaBuffer.offset) = 0 then none
  else some ((List.range (dword m (qs + 44))).map fun i =>
    csAddrAt m (csAddrEntry m qs i))

/-- The value of a `WSAQUERYSETW`, without `lpBlob`. -/
structure QuerySet where
  dwSize : ℕ
  lpszServiceInstanceName : Option (List UInt16)
  lpServiceClassId : Option (List UInt8)
  lpVersion : Option (List UInt8)
  lpszComment : Option (List UInt16)
  dwNameSpace : ℕ
  lpNSProviderId : Option (List UInt8)
  lpszContext : Option (List UInt16)
  dwNumberOfProtocols : ℕ
  lpafpProtocols : Option (List UInt8)
  lpszQueryString : Option (List UInt16)
  dwNumberOfCsAddrs : ℕ
  lpcsaBuffer : Option (List CsAddrInfo)
  dwOutputFlags : ℕ
deriving DecidableEq

/-- The value of the structure at `qs`, if all its strings end. -/
def querySetAt (m : Mem) (qs : ℕ) : Option QuerySet := do
  let name ← dataAt m qs lpszServiceInstanceName
  let classId ← dataAt m qs lpServiceClassId
  let version ← dataAt m qs lpVersion
  let comment ← dataAt m qs lpszComment
  let provider ← dataAt m qs lpNSProviderId
  let context ← dataAt m qs lpszContext
  let protocols ← dataAt m qs lpafpProtocols
  let queryString ← dataAt m qs lpszQueryString
  return {
    dwSize := dword m qs,
    lpszServiceInstanceName := name.map textOf,
    lpServiceClassId := classId,
    lpVersion := version,
    lpszComment := comment.map textOf,
    dwNameSpace := dword m (qs + 20),
    lpNSProviderId := provider,
    lpszContext := context.map textOf,
    dwNumberOfProtocols := dword m (qs + 32),
    lpafpProtocols := protocols,
    lpszQueryString := queryString.map textOf,
    dwNumberOfCsAddrs := dword m (qs + 44),
    lpcsaBuffer := csAddrsAt m qs,
    dwOutputFlags := dword m (qs + 52) }

end MiscProjects.NameService
