import Mathlib.Algebra.Ring.Nat
import Mathlib.Data.List.Basic

/-!
# The installer of the layered service provider

`InstallProvider` puts a provider on top of selected entries of the Winsock
catalog, and `RemoveProvider` takes it out again.  The catalog's own functions
are code outside the repository: installing appends an entry with a fresh id,
deinstalling removes the entries of a GUID, and the functions that create
GUIDs and reorder the catalog are those of a `Winsock`.
-/

namespace MiscProjects.Installer

/-! ## The catalog -/

abbrev GUID := BitVec 128

abbrev WCHAR := UInt16

def maxProtocolChain : ℕ := 7

def wsaProtocolLen : ℕ := 255

def layeredProtocol : ℕ := 0

def baseProtocol : ℕ := 1

def pflHidden : BitVec 32 := 0x00000004#32

def xp1IfsHandles : BitVec 32 := 0x00020000#32

/-- A `WSAPROTOCOLCHAIN`. -/
structure ProtocolChain where
  chainLen : ℕ
  chainEntries : List ℕ
  size : chainEntries.length = maxProtocolChain
  len_le : chainLen ≤ maxProtocolChain
deriving DecidableEq

/-- A `WSAPROTOCOL_INFOW`; `members` stands for the members that the installer copies but
never looks at. -/
structure ProtocolInfo where
  providerId : GUID
  dwCatalogEntryId : ℕ
  protocolChain : ProtocolChain
  dwProviderFlags : BitVec 32
  dwServiceFlags1 : BitVec 32
  szProtocol : List WCHAR
  members : List UInt8
deriving DecidableEq

/-- The entries in order, and the id that the next one will get. -/
structure Catalog where
  protocolInfo : List ProtocolInfo
  nextId : ℕ
deriving DecidableEq

/-- The ids in the chain of an entry. -/
def ProtocolChain.ids (chain : ProtocolChain) : List ℕ := chain.chainEntries.take chain.chainLen

/-- Ids are given out once, in ascending order. -/
structure Catalog.WellFormed (c : Catalog) : Prop where
  nodup : (c.protocolInfo.map (·.dwCatalogEntryId)).Nodup
  id_lt : ∀ e ∈ c.protocolInfo, e.dwCatalogEntryId < c.nextId
  chain_lt : ∀ e ∈ c.protocolInfo, ∀ id ∈ e.protocolChain.ids, id < c.nextId

/-- The functions outside the repository that make choices: the GUID that the `n`-th call
of `UuidCreate` returns, and the order in which `WSCWriteProviderOrder` leaves the
catalog. -/
structure Winsock where
  uuidCreate : ℕ → GUID
  writeOrder : List ℕ → List ProtocolInfo → List ProtocolInfo
  writeOrder_perm : ∀ ids es, (writeOrder ids es).Perm es
  writeOrder_ids : ∀ ids es, (es.map (·.dwCatalogEntryId)).Nodup →
    ids.Perm (es.map (·.dwCatalogEntryId)) →
      (writeOrder ids es).map (·.dwCatalogEntryId) = ids

/-- `WSCInstallProvider` with one entry. -/
def Catalog.wscInstallProvider (guid : GUID) (info : ProtocolInfo) (c : Catalog) : Catalog where
  protocolInfo := c.protocolInfo ++ [{ info with providerId := guid, dwCatalogEntryId := c.nextId }]
  nextId := c.nextId + 1

def Catalog.wscDeinstallProvider (guid : GUID) (c : Catalog) : Catalog :=
  { c with protocolInfo := c.protocolInfo.filter fun e => e.providerId ≠ guid }

def Catalog.wscWriteProviderOrder (W : Winsock) (ids : List ℕ) (c : Catalog) : Catalog :=
  { c with protocolInfo := W.writeOrder ids c.protocolInfo }

/-! ## `InstallProvider` -/

/-- What is compiled into the installer, and the name given on the command line. -/
structure Provider where
  providerGuid : GUID
  wszLSPName : List WCHAR
deriving DecidableEq

/-- An entry of the zero-filled array. -/
def ProtocolInfo.zero : ProtocolInfo where
  providerId := 0
  dwCatalogEntryId := 0
  protocolChain := ⟨0, List.replicate 7 0, rfl, Nat.zero_le _⟩
  dwProviderFlags := 0
  dwServiceFlags1 := 0
  szProtocol := []
  members := []

/-- The first entry with this id, made a non-IFS one. -/
def savedInfo (es : List ProtocolInfo) (id : ℕ) : Option ProtocolInfo :=
  (es.find? fun e => e.dwCatalogEntryId = id).map fun e =>
    { e with dwServiceFlags1 := e.dwServiceFlags1 &&& ~~~xp1IfsHandles }

/-- `OriginalProtocolInfo`: the entries found are packed at the front, and the rest of the
array stays zero. -/
def originalProtocolInfo (es : List ProtocolInfo) (catalogIdArray : List ℕ) : List ProtocolInfo :=
  let found := catalogIdArray.filterMap (savedInfo es)
  found ++ List.replicate (catalogIdArray.length - found.length) .zero

def dummyProtocolInfo (P : Provider) (first : ProtocolInfo) : ProtocolInfo :=
  { first with
    szProtocol := P.wszLSPName.take (wsaProtocolLen + 1)
    protocolChain := { first.protocolChain with
      chainLen := layeredProtocol
      len_le := Nat.zero_le _ }
    dwProviderFlags := first.dwProviderFlags ||| pflHidden }

/-- The id of the first entry with the provider's GUID.  Where there is none the source
goes on with an uninitialised variable. -/
def layeredCatalogId (P : Provider) (es : List ProtocolInfo) : Option ℕ :=
  (es.find? fun e => e.providerId = P.providerGuid).map (·.dwCatalogEntryId)

/-- The loop that pushes the chain down. -/
def pushDown : ℕ → List ℕ → List ℕ
  | 0, es => es
  | k + 1, es => pushDown k (es.set (k + 1) (es.getD k 0))

theorem pushDown_length (k : ℕ) (es : List ℕ) : (pushDown k es).length = es.length := by
  induction k generalizing es with
  | zero => rfl
  | succ k ih => rw [pushDown, ih, List.length_set]

/-- ` over [`. -/
def overText : List WCHAR := [32, 111, 118, 101, 114, 32, 91]

/-- The layered entry over `e`.  A name or a chain that is too long is written past the end
of its array. -/
def layerOver (P : Provider) (id : ℕ) (e : ProtocolInfo) : Option ProtocolInfo :=
  let chainName := P.wszLSPName ++ overText ++ e.szProtocol ++ [93]
  if chainName.length ≤ wsaProtocolLen then
    if h : e.protocolChain.chainLen < maxProtocolChain then
      let entries :=
        if e.protocolChain.chainLen = baseProtocol then
          e.protocolChain.chainEntries.set 1 e.dwCatalogEntryId
        else pushDown e.protocolChain.chainLen e.protocolChain.chainEntries
      some { e with
        szProtocol := chainName
        protocolChain := {
          chainLen := e.protocolChain.chainLen + 1
          chainEntries := entries.set 0 id
          size := by
            rw [List.length_set]
            unfold entries
            split
            · rw [List.length_set, e.protocolChain.size]
            · rw [pushDown_length, e.protocolChain.size]
          len_le := h } }
    else none
  else none

/-- The loop over `OriginalProtocolInfo`. -/
def layerAll (P : Provider) (id : ℕ) : List ProtocolInfo → Option (List ProtocolInfo)
  | [] => some []
  | e :: es =>
      match layerOver P id e, layerAll P id es with
      | some e', some es' => some (e' :: es')
      | _, _ => none

/-- The loop that installs each layer under a GUID of its own. -/
def installLayers (W : Winsock) : ℕ → List ProtocolInfo → Catalog → Catalog
  | _, [], c => c
  | n, e :: es, c => installLayers W (n + 1) es (c.wscInstallProvider (W.uuidCreate n) e)

def isIdinChain (id : ℕ) (e : ProtocolInfo) : Bool := id ∈ e.protocolChain.ids

/-- `CatalogEntries`: the entries with the id in their chain come first. -/
def catalogEntries (id : ℕ) (es : List ProtocolInfo) : List ℕ :=
  (es.filter (isIdinChain id)).map (·.dwCatalogEntryId) ++
    (es.filter fun e => !isIdinChain id e).map (·.dwCatalogEntryId)

/-- `InstallProvider`.  Without a selected entry the source reads the first element of an
empty array. -/
def installProvider (W : Winsock) (P : Provider) (catalogIdArray : List ℕ) (c : Catalog) :
    Option Catalog :=
  let original := originalProtocolInfo c.protocolInfo catalogIdArray
  match original with
  | [] => none
  | first :: _ =>
      let withDummy := c.wscInstallProvider P.providerGuid (dummyProtocolInfo P first)
      match layeredCatalogId P withDummy.protocolInfo with
      | none => none
      | some id =>
          match layerAll P id original with
          | none => none
          | some layers =>
              let installed := installLayers W 0 layers withDummy
              some (installed.wscWriteProviderOrder W (catalogEntries id installed.protocolInfo))

/-! ## `RemoveProvider` -/

/-- The loop of `RemoveIdFromChain` that moves the rest of the chain up. -/
def shiftUp : ℕ → ℕ → List ℕ → List ℕ
  | _, 0, es => es
  | j, n + 1, es => shiftUp (j + 1) n (es.set j (es.getD (j + 1) 0))

theorem shiftUp_length (j n : ℕ) (es : List ℕ) : (shiftUp j n es).length = es.length := by
  induction n generalizing j es with
  | zero => rfl
  | succ n ih => rw [shiftUp, ih, List.length_set]

def removeIdFromChain (id : ℕ) (e : ProtocolInfo) : ProtocolInfo :=
  if id ∈ e.protocolChain.ids then
    let i := e.protocolChain.ids.idxOf id
    { e with protocolChain := {
        chainLen := e.protocolChain.chainLen - 1
        chainEntries := shiftUp i (e.protocolChain.chainLen - 1 - i) e.protocolChain.chainEntries
        size := by rw [shiftUp_length, e.protocolChain.size]
        len_le := Nat.le_trans (Nat.sub_le _ _) e.protocolChain.len_le } }
  else e

/-- A layered entry in which the provider comes first. -/
def isLayer (id : ℕ) (e : ProtocolInfo) : Bool :=
  decide (1 < e.protocolChain.chainLen) && e.protocolChain.chainEntries.getD 0 0 == id

/-- The loop that deinstalls the layered entries. -/
def removeLayers (id : ℕ) (es : List ProtocolInfo) (c : Catalog) : Catalog :=
  es.foldl (fun c e => if isLayer id e then c.wscDeinstallProvider e.providerId else c) c

/-- An entry is deinstalled and installed again without the provider in its chain. -/
def reinstall (c : Catalog) (info : ProtocolInfo) : Catalog :=
  (c.wscDeinstallProvider info.providerId).wscInstallProvider info.providerId info

/-- The first entry with this GUID, which is then cleared. -/
def takeGuid (guid : GUID) : List (GUID × ℕ) → ℕ × List (GUID × ℕ)
  | [] => (0, [])
  | entry :: entries =>
      if entry.1 = guid then (entry.2, (0, entry.2) :: entries)
      else ((takeGuid guid entries).1, entry :: (takeGuid guid entries).2)

def protoOrder : List GUID → List (GUID × ℕ) → List ℕ
  | [], _ => []
  | guid :: guidOrder, entries =>
      (takeGuid guid entries).1 :: protoOrder guidOrder (takeGuid guid entries).2

/-- `RemoveProvider`.  A catalog that has grown is ordered by a `GuidOrder` that is too
short. -/
def removeProvider (W : Winsock) (P : Provider) (c : Catalog) : Option Catalog :=
  match layeredCatalogId P c.protocolInfo with
  | none => none
  | some id =>
      let removed := (removeLayers id c.protocolInfo c).wscDeinstallProvider P.providerGuid
      let guidOrder := removed.protocolInfo.map (·.providerId)
      let cleanupProtoInfo :=
        (removed.protocolInfo.filter (isIdinChain id)).map (removeIdFromChain id)
      if 0 < cleanupProtoInfo.length then
        let cleaned := cleanupProtoInfo.foldl reinstall removed
        if cleaned.protocolInfo.length ≤ guidOrder.length then
          some (cleaned.wscWriteProviderOrder W
            (protoOrder (guidOrder.take cleaned.protocolInfo.length)
              (cleaned.protocolInfo.map fun e => (e.providerId, e.dwCatalogEntryId))))
        else none
      else some removed

/-- Uninstalling what has just been installed. -/
def installAndRemove (W : Winsock) (P : Provider) (catalogIdArray : List ℕ) (c : Catalog) :
    Option Catalog :=
  (installProvider W P catalogIdArray c).bind (removeProvider W P)

/-- An entry without its id. -/
def ProtocolInfo.data (e : ProtocolInfo) : ProtocolInfo := { e with dwCatalogEntryId := 0 }

/-- The same entries, with the same chains, in the same order. -/
def SameEntries (c c' : Catalog) : Prop :=
  c'.protocolInfo.map (·.data) = c.protocolInfo.map (·.data)

instance (c c' : Catalog) : Decidable (SameEntries c c') :=
  inferInstanceAs (Decidable (_ = _))

end MiscProjects.Installer
