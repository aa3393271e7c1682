import Mathlib.Algebra.Ring.Nat
import Mathlib.Data.List.Basic
import Mathlib.Data.List.Nodup

/-!
# The table of providers

`WSPStartup` finds the id of the LSP in the Winsock catalog, counts the entries
whose chain begins with it and fills `gBaseInfo` with these entries and the
entries that they are layered over.  Counting and filling are separate loops:
the index of the second one moves only where the entry below is found.

The elements that have been paired stand at the front of the table, and what is
behind them has never got a next provider.
-/

namespace MiscProjects.Lsp.Providers

/-! ## Catalog entries -/

abbrev GUID := BitVec 128

abbrev DWORD := BitVec 32

abbrev INT := BitVec 32

def baseProtocol : ℕ := 1

/-- A `WSAPROTOCOLCHAIN`. -/
structure ProtocolChain where
  chainLen : ℕ
  chainEntries : Vector DWORD 7
deriving DecidableEq

/-- The ids in a chain. -/
def ProtocolChain.ids (chain : ProtocolChain) : List DWORD :=
  chain.chainEntries.toList.take chain.chainLen

/-- A `WSAPROTOCOL_INFOW`; `members` stands for the members that the LSP only copies. -/
structure ProtocolInfo where
  dwServiceFlags1 : DWORD
  dwProviderReserved : DWORD
  providerId : GUID
  dwCatalogEntryId : DWORD
  protocolChain : ProtocolChain
  iAddressFamily : INT
  iSocketType : INT
  iProtocol : INT
  members : List UInt8
deriving DecidableEq

/-- What `HEAP_ZERO_MEMORY` leaves. -/
def ProtocolInfo.zero : ProtocolInfo where
  dwServiceFlags1 := 0
  dwProviderReserved := 0
  providerId := 0
  dwCatalogEntryId := 0
  protocolChain := ⟨0, Vector.replicate 7 0⟩
  iAddressFamily := 0
  iSocketType := 0
  iProtocol := 0
  members := []

/-- The catalog entries of an element of `gBaseInfo`. -/
structure Provider where
  layeredProvider : ProtocolInfo
  nextProvider : ProtocolInfo
deriving DecidableEq

def Provider.zero : Provider := ⟨.zero, .zero⟩

/-! ## The table -/

section Table
variable (es : List ProtocolInfo)

/-- `gLayerCatId` after the search for `ProviderGuid`; a search without success leaves it
as it was. -/
def findLayerCatId (providerGuid : GUID) (gLayerCatId : DWORD) : DWORD :=
  match es.find? fun e => e.providerId = providerGuid with
  | some e => e.dwCatalogEntryId
  | none => gLayerCatId

/-- The test of both loops. -/
def isLayer (gLayerCatId : DWORD) (e : ProtocolInfo) : Bool :=
  gLayerCatId = e.protocolChain.chainEntries[0]

/-- `gLayerCount`. -/
def countLayers (gLayerCatId : DWORD) : ℕ := es.countP (isLayer gLayerCatId)

/-- The inner search, for `iBaseId`. -/
def findBase (e : ProtocolInfo) : Option ProtocolInfo :=
  es.find? fun base => base.dwCatalogEntryId = e.protocolChain.chainEntries[1]

/-- One round of the loop that fills the table; `idx` moves in the inner search. -/
def fillEntry (gLayerCatId : DWORD) (table : List Provider × ℕ) (e : ProtocolInfo) :
    List Provider × ℕ :=
  if isLayer gLayerCatId e then
    let (gBaseInfo, idx) := table
    let gBaseInfo := gBaseInfo.modify idx fun p => { p with layeredProvider := e }
    match findBase es e with
    | some base => (gBaseInfo.modify idx fun p => { p with nextProvider := base }, idx + 1)
    | none => (gBaseInfo, idx)
  else table

/-- `gBaseInfo` after the loop. -/
def buildTable (gLayerCatId : DWORD) : List Provider :=
  (es.foldl (fillEntry es gLayerCatId)
    (List.replicate (countLayers es gLayerCatId) .zero, 0)).1

end Table

/-! ## Statement -/

/-- The id of the entry that the chain of `e` names after its first one is in the
catalog. -/
def NextInCatalog (es : List ProtocolInfo) (e : ProtocolInfo) : Prop :=
  ∃ base ∈ es, e.protocolChain.ids[1]? = some base.dwCatalogEntryId

/-- The element is an entry that begins with the LSP, with the catalog entry that comes next
in its chain. -/
structure IsPair (es : List ProtocolInfo) (gLayerCatId : DWORD) (p : Provider) : Prop where
  layered : p.layeredProvider ∈ es
  first : p.layeredProvider.protocolChain.ids[0]? = some gLayerCatId
  next : p.nextProvider ∈ es
  second : p.layeredProvider.protocolChain.ids[1]? = some p.nextProvider.dwCatalogEntryId

/-- Every element of the table is such a pair, and every entry that begins with the LSP and
whose next id is in the catalog occurs once. -/
structure Paired (es : List ProtocolInfo) (gLayerCatId : DWORD)
    (gBaseInfo : List Provider) : Prop where
  pair : ∀ p ∈ gBaseInfo, IsPair es gLayerCatId p
  once : ∀ e ∈ es, e.protocolChain.ids[0]? = some gLayerCatId → NextInCatalog es e →
    (gBaseInfo.map (·.layeredProvider)).count e = 1

/-- Every entry whose `ChainEntries` begin with the LSP has a chain of two at least, and the
second id is in the catalog. -/
def EveryLayerHasNext (es : List ProtocolInfo) (gLayerCatId : DWORD) : Prop :=
  ∀ e ∈ es, isLayer gLayerCatId e → NextInCatalog es e

instance (es : List ProtocolInfo) (e : ProtocolInfo) : Decidable (NextInCatalog es e) :=
  inferInstanceAs (Decidable (∃ base ∈ es, _))

instance (es : List ProtocolInfo) (gLayerCatId : DWORD) :
    Decidable (EveryLayerHasNext es gLayerCatId) :=
  inferInstanceAs (Decidable (∀ e ∈ es, _))

/-! ## Pairs -/

section Pairs
variable {es done : List ProtocolInfo} {catId : DWORD} {e : ProtocolInfo} {p : Provider}

theorem getElem?_ids (chain : ProtocolChain) (i : ℕ) (hi : i < 7) :
    chain.ids[i]? = if i < chain.chainLen then some chain.chainEntries[i] else none := by
  unfold ProtocolChain.ids
  rw [List.getElem?_take]
  by_cases hlen : i < chain.chainLen
  · rw [if_pos hlen, if_pos hlen, Vector.getElem?_toList, Vector.getElem?_eq_getElem hi]
  · rw [if_neg hlen, if_neg hlen]

theorem isLayer_iff : isLayer catId e ↔ catId = e.protocolChain.chainEntries[0] := by
  simp [isLayer]

theorem isLayer_of_ids (hfirst : e.protocolChain.ids[0]? = some catId) : isLayer catId e := by
  rw [getElem?_ids _ _ (by decide)] at hfirst
  split at hfirst
  · exact isLayer_iff.2 (Option.some.inj hfirst).symm
  · exact absurd hfirst (by simp)

theorem findBase_mem {base : ProtocolInfo} (hbase : findBase es e = some base) :
    base ∈ es ∧ base.dwCatalogEntryId = e.protocolChain.chainEntries[1] := by
  refine ⟨List.mem_of_find?_eq_some hbase, ?_⟩
  simpa using List.find?_some hbase

theorem findBase_eq_none : findBase es e = none ↔
      ∀ base ∈ es, base.dwCatalogEntryId ≠ e.protocolChain.chainEntries[1] := by
  simp [findBase]

theorem nextInCatalog_iff :
    NextInCatalog es e ↔ 1 < e.protocolChain.chainLen ∧ (findBase es e).isSome := by
  constructor
  · rintro ⟨base, hbase, hid⟩
    rw [getElem?_ids _ _ (by decide)] at hid
    by_cases hlen : 1 < e.protocolChain.chainLen
    · rw [if_pos hlen] at hid
      refine ⟨hlen, ?_⟩
      by_contra hnone
      exact findBase_eq_none.1 (by simpa using hnone) base hbase (Option.some.inj hid).symm
    · rw [if_neg hlen] at hid
      exact absurd hid (by simp)
  · rintro ⟨hlen, hsome⟩
    obtain ⟨base, hbase⟩ := Option.isSome_iff_exists.1 hsome
    refine ⟨base, (findBase_mem hbase).1, ?_⟩
    rw [getElem?_ids _ _ (by decide), if_pos hlen, (findBase_mem hbase).2]

/-- What the loop leaves behind its index for an entry. -/
def pairOf (es : List ProtocolInfo) (catId : DWORD) (e : ProtocolInfo) : Option Provider :=
  if isLayer catId e then (findBase es e).map fun base => ⟨e, base⟩ else none

theorem pairOf_eq_some : pairOf es catId e = some p ↔
      isLayer catId e ∧ p.layeredProvider = e ∧ findBase es e = some p.nextProvider := by
  unfold pairOf
  by_cases hlayer : isLayer catId e = true
  · rw [if_pos hlayer]
    constructor
    · intro hpair
      obtain ⟨base, hbase, rfl⟩ := Option.map_eq_some_iff.1 hpair
      exact ⟨hlayer, rfl, hbase⟩
    · rintro ⟨-, rfl, hbase⟩
      rw [hbase, Option.map_some]
  · simp [hlayer]

/-! ## The loop that fills the table -/

/-- An element that has no next provider: nothing was written to it, or an entry whose next id
is not in the catalog. -/
structure Unpaired (es : List ProtocolInfo) (catId : DWORD) (p : Provider) : Prop where
  next : p.nextProvider = .zero
  layered : p.layeredProvider = .zero ∨
    isLayer catId p.layeredProvider ∧ findBase es p.layeredProvider = none

/-- After the entries `done` the pairs stand in front of the index and the rest of the table is
unpaired. -/
structure Filled (es : List ProtocolInfo) (catId : DWORD) (n : ℕ) (done : List ProtocolInfo)
    (table : List Provider × ℕ) : Prop where
  idx : table.2 = (done.filterMap (pairOf es catId)).length
  size : table.1.length = n
  front : ∃ rest, table.1 = done.filterMap (pairOf es catId) ++ rest ∧
    ∀ p ∈ rest, Unpaired es catId p

theorem modify_append {α : Type*} (l : List α) (a : α) (r : List α) (f : α → α) :
    (l ++ a :: r).modify l.length f = l ++ f a :: r := by
  rw [List.modify_eq_take_cons_drop (by simp)]
  simp

theorem length_pairs_le (done : List ProtocolInfo) :
    (done.filterMap (pairOf es catId)).length ≤ done.countP (isLayer catId) := by
  rw [List.length_filterMap_eq_countP]
  refine List.countP_mono_left fun e _ hsome => ?_
  obtain ⟨p, hp⟩ := Option.isSome_iff_exists.1 hsome
  exact (pairOf_eq_some.1 hp).1

variable {table : List Provider × ℕ} {n : ℕ}

theorem Filled.fillEntry (hfilled : Filled es catId n done table)
    (hroom : (done ++ [e]).countP (isLayer catId) ≤ n) :
    Filled es catId n (done ++ [e]) (fillEntry es catId table e) := by
  obtain ⟨gBaseInfo, idx⟩ := table
  obtain ⟨rest, hfront, hrest⟩ := hfilled.front
  have hidx : idx = (done.filterMap (pairOf es catId)).length := hfilled.idx
  have hsize : gBaseInfo.length = n := hfilled.size
  by_cases hlayer : isLayer catId e = true
  · -- There is room for the entry, so an unpaired element stands at the index.
    have hle : (done.filterMap (pairOf es catId)).length ≤ done.countP (isLayer catId) :=
      length_pairs_le done
    rw [List.countP_append, List.countP_singleton, if_pos hlayer] at hroom
    change gBaseInfo = _ at hfront
    rw [hfront, List.length_append] at hsize
    obtain ⟨q, rest, rfl⟩ : ∃ q r, rest = q :: r := List.exists_cons_of_length_pos (by omega)
    have hwritten : gBaseInfo.modify idx (fun p => { p with layeredProvider := e }) =
        done.filterMap (pairOf es catId) ++ { q with layeredProvider := e } :: rest := by
      rw [hfront, hidx, modify_append]
    cases hbase : findBase es e with
    | none =>
        have hpair : pairOf es catId e = none := by simp [pairOf, hlayer, hbase]
        have hentry : Providers.fillEntry es catId (gBaseInfo, idx) e =
            (done.filterMap (pairOf es catId) ++ { q with layeredProvider := e } :: rest, idx) := by
          simp only [Providers.fillEntry, hlayer, if_true, hbase, hwritten]
        rw [hentry]
        refine ⟨by simpa [hpair] using hidx, by simpa using hsize, _, by simp [hpair]; rfl, ?_⟩
        intro p hp
        rcases List.mem_cons.1 hp with rfl | hp
        · exact ⟨(hrest q List.mem_cons_self).next, .inr ⟨hlayer, hbase⟩⟩
        · exact hrest p (List.mem_cons_of_mem _ hp)
    | some base =>
        have hpair : pairOf es catId e = some ⟨e, base⟩ := by simp [pairOf, hlayer, hbase]
        have hentry : Providers.fillEntry es catId (gBaseInfo, idx) e =
            (done.filterMap (pairOf es catId) ++ ⟨e, base⟩ :: rest, idx + 1) := by
          simp only [Providers.fillEntry, hlayer, if_true, hbase, hwritten]
          rw [hidx, modify_append]
        rw [hentry]
        refine ⟨by simpa [hpair] using hidx, by simpa using hsize, rest, by simp [hpair], ?_⟩
        exact fun p hp => hrest p (List.mem_cons_of_mem _ hp)
  · have hpair : pairOf es catId e = none := by simp [pairOf, hlayer]
    have hentry : Providers.fillEntry es catId (gBaseInfo, idx) e = (gBaseInfo, idx) := by
      simp [Providers.fillEntry, hlayer]
    rw [hentry]
    exact ⟨by simpa [hpair] using hidx, hsize, rest, by simpa [hpair] using hfront, hrest⟩

theorem Filled.foldl (todo : List ProtocolInfo) (hfilled : Filled es catId n done table)
    (hroom : (done ++ todo).countP (isLayer catId) ≤ n) :
    Filled es catId n (done ++ todo) (todo.foldl (Providers.fillEntry es catId) table) := by
  induction todo generalizing done table with
  | nil => simpa using hfilled
  | cons e todo ih =>
      rw [List.append_cons] at hroom ⊢
      have hroom' : (done ++ [e]).countP (isLayer catId) ≤ n := by
        rw [List.countP_append] at hroom
        omega
      exact ih (hfilled.fillEntry hroom') hroom

theorem filled_buildTable (es : List ProtocolInfo) (catId : DWORD) :
    ∃ rest, buildTable es catId = es.filterMap (pairOf es catId) ++ rest ∧
      (es.filterMap (pairOf es catId)).length + rest.length = countLayers es catId ∧
        ∀ p ∈ rest, Unpaired es catId p := by
  have hstart : Filled es catId (countLayers es catId) []
      (List.replicate (countLayers es catId) .zero, 0) := by
    refine ⟨rfl, by simp, _, rfl, ?_⟩
    intro p hp
    rw [(List.mem_replicate.1 hp).2]
    exact ⟨rfl, .inl rfl⟩
  have hfilled := hstart.foldl es (by simp [countLayers])
  obtain ⟨rest, hfront, hrest⟩ := hfilled.front
  refine ⟨rest, hfront, ?_, hrest⟩
  have hsize := hfilled.size
  rw [hfront, List.length_append] at hsize
  exact hsize

theorem length_buildTable (es : List ProtocolInfo) (catId : DWORD) :
    (buildTable es catId).length = countLayers es catId := by
  obtain ⟨rest, htable, hsize, -⟩ := filled_buildTable es catId
  rw [htable, List.length_append, hsize]

theorem layered_pairs (es done : List ProtocolInfo) (catId : DWORD) :
    (done.filterMap (pairOf es catId)).map (·.layeredProvider) =
      done.filter fun e => (pairOf es catId e).isSome := by
  induction done with
  | nil => rfl
  | cons e done ih =>
      cases hpair : pairOf es catId e with
      | none => simp [hpair, ih]
      | some p => simp [hpair, ih, (pairOf_eq_some.1 hpair).2.1]

theorem Unpaired.not_isPair (hunpaired : Unpaired es catId p) : ¬IsPair es catId p := by
  intro hpair
  rcases hunpaired.layered with hzero | ⟨-, hnone⟩
  · have hfirst := hpair.first
    have hnil : ProtocolInfo.zero.protocolChain.ids = [] := by decide
    rw [hzero, hnil] at hfirst
    exact absurd hfirst (by simp)
  · have hnext : NextInCatalog es p.layeredProvider := ⟨_, hpair.next, hpair.second⟩
    have hsome := (nextInCatalog_iff.1 hnext).2
    rw [hnone] at hsome
    exact absurd hsome (by decide)

theorem buildTable_eq_pairs (hnext : EveryLayerHasNext es catId) :
    buildTable es catId = es.filterMap (pairOf es catId) := by
  obtain ⟨rest, htable, hsize, -⟩ := filled_buildTable es catId
  have hcount : (es.filterMap (pairOf es catId)).length = countLayers es catId := by
    rw [List.length_filterMap_eq_countP, countLayers]
    refine List.countP_congr fun e he => ⟨fun hsome => ?_, fun hlayer => ?_⟩
    · obtain ⟨p, hp⟩ := Option.isSome_iff_exists.1 hsome
      exact (pairOf_eq_some.1 hp).1
    · obtain ⟨base, hbase⟩ := Option.isSome_iff_exists.1 (nextInCatalog_iff.1 (hnext e he hlayer)).2
      simp [pairOf, hlayer, hbase]
  have hrest : rest = [] := List.eq_nil_of_length_eq_zero (by omega)
  rw [htable, hrest, List.append_nil]

theorem isSome_pairOf (hlength : (es.filterMap (pairOf es catId)).length = countLayers es catId)
    (he : e ∈ es) (hlayer : isLayer catId e) : (pairOf es catId e).isSome := by
  have hsub : (es.filter fun e => (pairOf es catId e).isSome).Sublist
      (es.filter (isLayer catId)) := by
    refine List.monotone_filter_right es fun e hsome => ?_
    obtain ⟨p, hp⟩ := Option.isSome_iff_exists.1 hsome
    exact (pairOf_eq_some.1 hp).1
  have heq := hsub.eq_of_length (by
    rw [← List.countP_eq_length_filter, ← List.countP_eq_length_filter,
      ← List.length_filterMap_eq_countP]
    exact hlength)
  have hmem : e ∈ es.filter (isLayer catId) := List.mem_filter.2 ⟨he, hlayer⟩
  rw [← heq] at hmem
  exact (List.mem_filter.1 hmem).2

theorem isPair_of_pairOf (he : e ∈ es) (hpair : pairOf es catId e = some p)
    (hnext : NextInCatalog es e) : IsPair es catId p := by
  obtain ⟨hlayer, rfl, hbase⟩ := pairOf_eq_some.1 hpair
  have hlen := (nextInCatalog_iff.1 hnext).1
  refine ⟨he, ?_, (findBase_mem hbase).1, ?_⟩
  · rw [getElem?_ids _ _ (by decide), if_pos (by omega), isLayer_iff.1 hlayer]
  · rw [getElem?_ids _ _ (by decide), if_pos hlen, (findBase_mem hbase).2]

theorem count_pairs (hnodup : es.Nodup) (he : e ∈ es) (hsome : (pairOf es catId e).isSome) :
    ((es.filterMap (pairOf es catId)).map (·.layeredProvider)).count e = 1 := by
  rw [layered_pairs, List.count_filter (p := fun e => (pairOf es catId e).isSome) hsome]
  exact List.count_eq_one_of_mem hnodup he

end Pairs

/-- The table is paired exactly if the next entry of every layer is in the catalog. -/
theorem table_paired_iff (es : List ProtocolInfo)
    (hnodup : (es.map (·.dwCatalogEntryId)).Nodup) (providerGuid : GUID) (gLayerCatId : DWORD) :
    Paired es (findLayerCatId es providerGuid gLayerCatId)
        (buildTable es (findLayerCatId es providerGuid gLayerCatId)) ↔
      EveryLayerHasNext es (findLayerCatId es providerGuid gLayerCatId) := by
  generalize findLayerCatId es providerGuid gLayerCatId = catId
  constructor
  · intro hpaired e he hlayer
    obtain ⟨rest, htable, hsize, hrest⟩ := filled_buildTable es catId
    have hmem : ∀ p ∈ rest, False := by
      intro p hp
      refine (hrest p hp).not_isPair (hpaired.pair p ?_)
      rw [htable]
      exact List.mem_append_right _ hp
    have hnil : rest = [] := List.eq_nil_iff_forall_not_mem.2 hmem
    rw [hnil, List.append_nil] at htable
    rw [hnil, List.length_nil, Nat.add_zero] at hsize
    obtain ⟨p, hp⟩ := Option.isSome_iff_exists.1 (isSome_pairOf hsize he hlayer)
    have hpair : IsPair es catId p := by
      refine hpaired.pair p ?_
      rw [htable]
      exact List.mem_filterMap.2 ⟨e, he, hp⟩
    exact ⟨_, hpair.next, (pairOf_eq_some.1 hp).2.1 ▸ hpair.second⟩
  · intro hnext
    rw [buildTable_eq_pairs hnext]
    refine ⟨?_, ?_⟩
    · intro p hp
      obtain ⟨e, he, hpair⟩ := List.mem_filterMap.1 hp
      exact isPair_of_pairOf he hpair (hnext e he (pairOf_eq_some.1 hpair).1)
    · intro e he hfirst hin
      obtain ⟨base, hbase⟩ := Option.isSome_iff_exists.1 (nextInCatalog_iff.1 hin).2
      refine count_pairs hnodup.of_map he ?_
      simp [pairOf, isLayer_of_ids hfirst, hbase]

/-! ## Two catalogs -/

/-- An entry with a chain of the given ids. -/
def entry (id : DWORD) (guid : GUID) (chainLen : ℕ) (first second : DWORD) : ProtocolInfo :=
  { ProtocolInfo.zero with
    dwCatalogEntryId := id
    providerId := guid
    protocolChain := ⟨chainLen, #v[first, second, 0, 0, 0, 0, 0]⟩ }

/-- The LSP, and a layer over each of two base providers. -/
def twoLayers : List ProtocolInfo :=
  [entry 1 7 0 0 0, entry 2 8 1 2 0, entry 3 9 1 3 0, entry 4 10 2 1 2, entry 5 11 2 1 3]

/-- The base provider of the first layer has been deinstalled. -/
def oneBaseGone : List ProtocolInfo :=
  [entry 1 7 0 0 0, entry 3 9 1 3 0, entry 4 10 2 1 2, entry 5 11 2 1 3]

theorem table_paired_iff_twoLayers :
    Paired twoLayers (findLayerCatId twoLayers 7 0)
      (buildTable twoLayers (findLayerCatId twoLayers 7 0)) :=
  (table_paired_iff twoLayers (by decide) 7 0).2 (by decide)

/-- The second layer takes the place of the first one, and the element behind it stays
empty. -/
theorem not_paired_oneBaseGone :
    (oneBaseGone.map (·.dwCatalogEntryId)).Nodup ∧
      ¬Paired oneBaseGone (findLayerCatId oneBaseGone 7 0)
        (buildTable oneBaseGone (findLayerCatId oneBaseGone 7 0)) := by
  refine ⟨by decide, ?_⟩
  intro hpaired
  have hempty := (hpaired.pair .zero (by decide)).first
  exact absurd hempty (by decide)

end MiscProjects.Lsp.Providers
