import MiscProjects.Installer.Catalog
import Mathlib.Data.List.Nodup
import Mathlib.Data.List.Perm.Basic

/-!
# The order of the catalog

`InstallProvider` ends by writing the ids of the catalog into an array of `TotalProtocols`
elements, in two passes: first the entries whose chain contains the provider's id, then the
others.  The passes fill the array exactly, and the array that `WSCWriteProviderOrder` gets is a
permutation of the catalog in which each of the two groups has kept its order.
-/

namespace MiscProjects.Installer

/-! ## The loops -/

/-- The loop of `IsIdinChain` from index `i` on, with `n` elements left. -/
def idinChainFrom (id : ℕ) (chain : ProtocolChain) (i : ℕ) : ℕ → Bool
  | 0 => false
  | n + 1 =>
      if chain.chainEntries.getD i 0 = id then true else idinChainFrom id chain (i + 1) n

/-- `IsIdinChain`, with its loop. -/
def idinChain (id : ℕ) (e : ProtocolInfo) : Bool :=
  idinChainFrom id e.protocolChain 0 e.protocolChain.chainLen

/-- `CatalogEntries` and `CatIndex`. -/
structure Order where
  catalogEntries : List ℕ
  catIndex : ℕ
deriving DecidableEq

/-- The zero-filled array. -/
def Order.alloc (totalProtocols : ℕ) : Order := ⟨List.replicate totalProtocols 0, 0⟩

/-- `CatalogEntries[CatIndex++] = id`.  A write past the end of the array is `none`. -/
def Order.put (id : ℕ) (o : Order) : Option Order :=
  if o.catIndex < o.catalogEntries.length then
    some ⟨o.catalogEntries.set o.catIndex id, o.catIndex + 1⟩
  else none

/-- One of the two passes over the catalog. -/
def orderPass (chosen : ProtocolInfo → Bool) : List ProtocolInfo → Order → Option Order
  | [], o => some o
  | e :: es, o =>
      if chosen e then (o.put e.dwCatalogEntryId).bind (orderPass chosen es)
      else orderPass chosen es o

/-- The array that `InstallProvider` passes to `WSCWriteProviderOrder`. -/
def orderCatalog (id : ℕ) (es : List ProtocolInfo) : Option (List ℕ) :=
  let first := orderPass (idinChain id) es (.alloc es.length)
  (first.bind (orderPass (fun e => !idinChain id e) es)).map (·.catalogEntries)

/-- `InstallProvider` up to the reordering: `LayeredCatalogId`, and the catalog that is read
for it. -/
def layered (W : Winsock) (P : Provider) (catalogIdArray : List ℕ) (c : Catalog) :
    Option (ℕ × Catalog) :=
  let original := originalProtocolInfo c.protocolInfo catalogIdArray
  match original with
  | [] => none
  | first :: _ =>
      let withDummy := c.wscInstallProvider P.providerGuid (dummyProtocolInfo P first)
      match layeredCatalogId P withDummy.protocolInfo with
      | none => none
      | some id =>
          (layerAll P id original).map fun layers => (id, installLayers W 0 layers withDummy)

/-! ## The search in a chain -/

theorem idinChainFrom_eq (id : ℕ) (chain : ProtocolChain) (n : ℕ) : ∀ i, i + n ≤ maxProtocolChain →
      (idinChainFrom id chain i n = true ↔ id ∈ (chain.chainEntries.drop i).take n) := by
  induction n with
  | zero =>
      intro i _
      simp [idinChainFrom]
  | succ n ih =>
      intro i hlen
      have hi : i < chain.chainEntries.length := by
        have hsize := chain.size
        omega
      rw [List.drop_eq_getElem_cons hi, List.take_succ_cons, List.mem_cons]
      rw [← ih (i + 1) (by omega)]
      by_cases hid : chain.chainEntries[i] = id
      · simp [idinChainFrom, hi, hid]
      · have hne : ¬ id = chain.chainEntries[i] := fun h => hid h.symm
        simp [idinChainFrom, hi, hid, hne]

theorem idinChain_iff (id : ℕ) (e : ProtocolInfo) :
    idinChain id e = true ↔ id ∈ e.protocolChain.ids := by
  have hlen := e.protocolChain.len_le
  have hloop := idinChainFrom_eq id e.protocolChain e.protocolChain.chainLen 0 (by omega)
  simpa [idinChain, ProtocolChain.ids] using hloop

theorem idinChain_eq (id : ℕ) : idinChain id = isIdinChain id := by
  funext e
  rw [Bool.eq_iff_iff, idinChain_iff]
  simp [isIdinChain]

/-! ## The passes -/

/-- The array after `written`, with room for `room` more ids. -/
def Order.filled (written : List ℕ) (room : ℕ) : Order :=
  ⟨written ++ List.replicate room 0, written.length⟩

theorem Order.alloc_eq (n : ℕ) : Order.alloc n = Order.filled [] n := rfl

theorem Order.put_filled (id : ℕ) (written : List ℕ) (room : ℕ) :
    (Order.filled written (room + 1)).put id = some (Order.filled (written ++ [id]) room) := by
  have hroom : (Order.filled written (room + 1)).catIndex <
      (Order.filled written (room + 1)).catalogEntries.length := by
    simp [Order.filled]
  rw [Order.put, if_pos hroom]
  simp [Order.filled, List.replicate_succ]

theorem orderPass_filled (chosen : ProtocolInfo → Bool) (es : List ProtocolInfo) :
    ∀ (written : List ℕ) (room : ℕ),
      orderPass chosen es (Order.filled written ((es.filter chosen).length + room)) =
        some (Order.filled (written ++ (es.filter chosen).map (·.dwCatalogEntryId)) room) := by
  induction es with
  | nil =>
      intro written room
      simp [orderPass]
  | cons e es ih =>
      intro written room
      by_cases he : chosen e = true
      · have hroom : ((e :: es).filter chosen).length + room =
            ((es.filter chosen).length + room) + 1 := by
          simp [he]
          omega
        rw [orderPass, if_pos he, hroom, Order.put_filled, Option.bind_some, ih]
        simp [he]
      · rw [orderPass, if_neg he]
        simp only [List.filter_cons, if_neg he]
        exact ih written room

theorem orderCatalog_eq (id : ℕ) (es : List ProtocolInfo) :
    orderCatalog id es = some (catalogEntries id es) := by
  have hparts : (es.filter (idinChain id)).length +
      (es.filter fun e => !idinChain id e).length = es.length := by
    rw [← List.length_append]
    exact (List.filter_append_perm (idinChain id) es).length_eq
  have hfirst := orderPass_filled (idinChain id) es [] (es.filter fun e => !idinChain id e).length
  have hsecond := orderPass_filled (fun e => !idinChain id e) es
    ((es.filter (idinChain id)).map (·.dwCatalogEntryId)) 0
  rw [hparts, ← Order.alloc_eq, List.nil_append] at hfirst
  rw [Nat.add_zero] at hsecond
  simp only [orderCatalog, hfirst, Option.bind_some, hsecond]
  simp [Order.filled, catalogEntries, idinChain_eq]

theorem installProvider_eq (W : Winsock) (P : Provider) (catalogIdArray : List ℕ) (c : Catalog) :
    installProvider W P catalogIdArray c = (layered W P catalogIdArray c).map fun found =>
        found.2.wscWriteProviderOrder W (catalogEntries found.1 found.2.protocolInfo) := by
  rcases horiginal : originalProtocolInfo c.protocolInfo catalogIdArray with _ | ⟨first, rest⟩
  · simp only [installProvider, layered, horiginal, Option.map_none]
  · rcases hid : layeredCatalogId P
        (c.wscInstallProvider P.providerGuid (dummyProtocolInfo P first)).protocolInfo with _ | id
    · simp only [installProvider, layered, horiginal, hid, Option.map_none]
    · rcases hlayers : layerAll P id (first :: rest) with _ | layers
      · simp only [installProvider, layered, horiginal, hid, hlayers, Option.map_none]
      · simp only [installProvider, layered, horiginal, hid, hlayers, Option.map_some]

/-! ## The order -/

/-- What the order of a catalog should be for the id of a layered provider. -/
structure Reordered (id : ℕ) (es : List ProtocolInfo) (order : List ℕ) : Prop where
  perm : order.Perm (es.map (·.dwCatalogEntryId))
  first : ∀ e ∈ es, ∀ e' ∈ es, id ∈ e.protocolChain.ids → id ∉ e'.protocolChain.ids →
    order.idxOf e.dwCatalogEntryId < order.idxOf e'.dwCatalogEntryId
  stable : ∀ e e', [e, e'].Sublist es →
    (id ∈ e.protocolChain.ids ↔ id ∈ e'.protocolChain.ids) →
      order.idxOf e.dwCatalogEntryId < order.idxOf e'.dwCatalogEntryId

section Order
variable {id : ℕ} {es : List ProtocolInfo} {a b : ℕ} {order : List ℕ}

theorem idxOf_lt_of_sublist (hnodup : order.Nodup) (h : [a, b].Sublist order) :
    order.idxOf a < order.idxOf b := by
  induction order with
  | nil => cases h
  | cons c order ih =>
      obtain ⟨hc, hnodup⟩ := List.nodup_cons.mp hnodup
      rcases List.sublist_cons_iff.mp h with h | ⟨rest, heq, hrest⟩
      · have ha : c ≠ a := fun heq => hc (heq ▸ h.subset (List.mem_cons_self ..))
        have hb : c ≠ b := fun heq => hc (heq ▸ h.subset (by simp))
        rw [List.idxOf_cons_ne _ ha, List.idxOf_cons_ne _ hb]
        exact Nat.succ_lt_succ (ih hnodup h)
      · obtain ⟨rfl, rfl⟩ := List.cons.inj heq
        have hb : a ≠ b := fun heq => hc (heq ▸ hrest.subset (List.mem_cons_self ..))
        rw [List.idxOf_cons_self, List.idxOf_cons_ne _ hb]
        exact Nat.succ_pos _

theorem catalogEntries_perm (id : ℕ) (es : List ProtocolInfo) :
    (catalogEntries id es).Perm (es.map (·.dwCatalogEntryId)) := by
  rw [catalogEntries, ← List.map_append]
  exact (List.filter_append_perm (isIdinChain id) es).map _

theorem sublist_filter (chosen : ProtocolInfo → Bool) {e e' : ProtocolInfo}
    (h : [e, e'].Sublist es) (he : chosen e = true) (he' : chosen e' = true) :
    [e.dwCatalogEntryId, e'.dwCatalogEntryId].Sublist
      ((es.filter chosen).map (·.dwCatalogEntryId)) := by
  have hfilter := h.filter chosen
  rw [List.filter_cons_of_pos he, List.filter_cons_of_pos he', List.filter_nil] at hfilter
  exact hfilter.map (·.dwCatalogEntryId)

theorem catalogEntries_reordered (hids : (es.map (·.dwCatalogEntryId)).Nodup) :
    Reordered id es (catalogEntries id es) := by
  have hperm := catalogEntries_perm id es
  have hnodup : (catalogEntries id es).Nodup := hperm.nodup_iff.mpr hids
  refine ⟨hperm, ?_, ?_⟩
  · intro e he e' he' hin hout
    apply idxOf_lt_of_sublist hnodup
    have hfirst : [e.dwCatalogEntryId].Sublist
        ((es.filter (isIdinChain id)).map (·.dwCatalogEntryId)) := by
      rw [List.singleton_sublist]
      exact List.mem_map_of_mem (List.mem_filter.mpr ⟨he, by simpa [isIdinChain] using hin⟩)
    have hsecond : [e'.dwCatalogEntryId].Sublist
        ((es.filter fun e => !isIdinChain id e).map (·.dwCatalogEntryId)) := by
      rw [List.singleton_sublist]
      exact List.mem_map_of_mem (List.mem_filter.mpr ⟨he', by simpa [isIdinChain] using hout⟩)
    exact hfirst.append hsecond
  · intro e e' hbefore hsame
    apply idxOf_lt_of_sublist hnodup
    by_cases hin : id ∈ e.protocolChain.ids
    · have hboth := sublist_filter (isIdinChain id) hbefore
        (by simpa [isIdinChain] using hin) (by simpa [isIdinChain] using hsame.mp hin)
      exact hboth.trans (List.sublist_append_left ..)
    · have hboth := sublist_filter (fun e => !isIdinChain id e) hbefore
        (by simpa [isIdinChain] using hin) (by simpa [isIdinChain, ← hsame] using hin)
      exact hboth.trans (List.sublist_append_right ..)

end Order

/-- For every catalog with pairwise distinct ids and every `LayeredCatalogId`, the passes end
inside the array; the array is a permutation of the ids in which the entries with the id in their
chain come first and each group keeps its order; and it is what `InstallProvider` passes to
`WSCWriteProviderOrder` where it has read this catalog. -/
theorem orderCatalog_reordered (id : ℕ) {es : List ProtocolInfo}
    (hids : (es.map (·.dwCatalogEntryId)).Nodup) :
    ∃ order, orderCatalog id es = some order ∧ Reordered id es order ∧
      ∀ W P catalogIdArray c installed,
        layered W P catalogIdArray c = some (id, installed) → installed.protocolInfo = es →
          installProvider W P catalogIdArray c =
            some (installed.wscWriteProviderOrder W order) := by
  refine ⟨catalogEntries id es, orderCatalog_eq id es, catalogEntries_reordered hids, ?_⟩
  intro W P catalogIdArray c installed hlayered hread
  rw [installProvider_eq, hlayered, ← hread]
  rfl

/-- A catalog entry with this id and this chain. -/
def chained (id chainLen : ℕ) (chainEntries : List ℕ) (hsize : chainEntries.length = 7)
    (hlen : chainLen ≤ 7) : ProtocolInfo :=
  { ProtocolInfo.zero with
    dwCatalogEntryId := id
    protocolChain := ⟨chainLen, chainEntries, hsize, hlen⟩ }

/-- Two base entries around two chains over the provider with the id `9`. -/
def fourEntries : List ProtocolInfo :=
  [chained 1 1 [0, 0, 0, 0, 0, 0, 0] rfl (by decide),
    chained 5 2 [9, 1, 0, 0, 0, 0, 0] rfl (by decide),
    chained 2 1 [0, 0, 0, 0, 0, 0, 0] rfl (by decide),
    chained 4 3 [3, 9, 1, 0, 0, 0, 0] rfl (by decide)]

theorem orderCatalog_reordered_four :
    (fourEntries.map (·.dwCatalogEntryId)).Nodup ∧ orderCatalog 9 fourEntries = some [5, 4, 1, 2] ∧
      ∃ order, orderCatalog 9 fourEntries = some order ∧ Reordered 9 fourEntries order :=
  have hids : (fourEntries.map (·.dwCatalogEntryId)).Nodup := by decide
  have ⟨order, hmade, hreordered, _⟩ := orderCatalog_reordered 9 hids
  ⟨hids, by decide, order, hmade, hreordered⟩

end MiscProjects.Installer
