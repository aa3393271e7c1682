import MiscProjects.Installer.Catalog
import Mathlib.Data.List.Nodup
import Mathlib.Data.List.Perm.Basic
import Mathlib.Data.List.Range

/-!
# Uninstalling undoes installing

The entries that `InstallProvider` adds have the provider at the head of their
chain.  `RemoveProvider` looks for it in chains of at least two ids, so it
misses the layer over an entry whose own chain was empty: that layer is taken
for somebody else's, and stays.
-/

namespace MiscProjects.Installer

/-! ## The layers -/

section Layers
variable {P : Provider} {W : Winsock} {id : ℕ} {e layer : ProtocolInfo}
  {es layers : List ProtocolInfo}

/-- A layer of the provider: its chain is not empty and starts with the provider's id. -/
structure Heads (id : ℕ) (layer : ProtocolInfo) : Prop where
  pos : 0 < layer.protocolChain.chainLen
  head : layer.protocolChain.chainEntries.getD 0 0 = id

/-- An entry that can be layered over without leaving an array. -/
def Fits (P : Provider) (e : ProtocolInfo) : Prop :=
  P.wszLSPName.length + e.szProtocol.length + 8 ≤ wsaProtocolLen ∧
    e.protocolChain.chainLen < maxProtocolChain

theorem layerOver_eq_some (h : layerOver P id e = some layer) : Fits P e ∧ Heads id layer ∧
      layer.protocolChain.chainLen = e.protocolChain.chainLen + 1 := by
  simp only [layerOver] at h
  split at h
  case isFalse => cases h
  case isTrue hname =>
    split at h
    case isFalse => cases h
    case isTrue hlen =>
      obtain rfl := Option.some.inj h
      refine ⟨⟨?_, hlen⟩, ⟨Nat.succ_pos _, ?_⟩, rfl⟩
      · simp only [List.length_append, List.length_singleton] at hname
        have hmade : overText.length = 7 := rfl
        omega
      · have hsize : ∀ entries : List ℕ, entries.length = maxProtocolChain →
            (entries.set 0 id).getD 0 0 = id := by
          intro entries hentries
          cases entries with
          | nil => exact absurd hentries (by decide)
          | cons entry entries => rfl
        apply hsize
        split
        · rw [List.length_set, e.protocolChain.size]
        · rw [pushDown_length, e.protocolChain.size]

theorem layerOver_of_fits (h : Fits P e) : ∃ layer, layerOver P id e = some layer := by
  obtain ⟨hname, hlen⟩ := h
  have hname' : (P.wszLSPName ++ overText ++ e.szProtocol ++ [93]).length ≤ wsaProtocolLen := by
    simp only [List.length_append, List.length_singleton]
    have hmade : overText.length = 7 := rfl
    omega
  simp only [layerOver, if_pos hname', dif_pos hlen]
  exact ⟨_, rfl⟩

theorem layerAll_eq_some (h : layerAll P id es = some layers) :
    (∀ e ∈ es, Fits P e) ∧ (∀ layer ∈ layers, Heads id layer) ∧
      layers.map (·.protocolChain.chainLen) = es.map (·.protocolChain.chainLen + 1) := by
  induction es generalizing layers with
  | nil =>
      obtain rfl := Option.some.inj h
      simp
  | cons e es ih =>
      simp only [layerAll] at h
      split at h
      case h_2 => cases h
      case h_1 layer layers' hlayer hlayers =>
        obtain rfl := Option.some.inj h
        obtain ⟨hfits, hheads, hlen⟩ := layerOver_eq_some hlayer
        obtain ⟨hfits', hheads', hlen'⟩ := ih hlayers
        simp only [List.forall_mem_cons, List.map_cons, hlen, hlen']
        exact ⟨⟨hfits, hfits'⟩, ⟨hheads, hheads'⟩, trivial⟩

theorem layerAll_of_fits (h : ∀ e ∈ es, Fits P e) : ∃ layers, layerAll P id es = some layers := by
  induction es with
  | nil => exact ⟨[], rfl⟩
  | cons e es ih =>
      rw [List.forall_mem_cons] at h
      obtain ⟨layer, hlayer⟩ := @layerOver_of_fits P id e h.1
      obtain ⟨layers, hlayers⟩ := ih h.2
      exact ⟨layer :: layers, by rw [layerAll, hlayer, hlayers]⟩

/-- The layers as they stand in the catalog. -/
def placed (W : Winsock) : ℕ → ℕ → List ProtocolInfo → List ProtocolInfo
  | _, _, [] => []
  | n, id, e :: es =>
      { e with providerId := W.uuidCreate n, dwCatalogEntryId := id } ::
        placed W (n + 1) (id + 1) es

theorem placed_cons (n : ℕ) : placed W n id (e :: es) =
      { e with providerId := W.uuidCreate n, dwCatalogEntryId := id } ::
        placed W (n + 1) (id + 1) es := rfl

theorem installLayers_protocolInfo (n : ℕ) (c : Catalog) :
    (installLayers W n es c).protocolInfo = c.protocolInfo ++ placed W n c.nextId es := by
  induction es generalizing n c with
  | nil => exact (List.append_nil _).symm
  | cons e es ih =>
      rw [installLayers, ih, Catalog.wscInstallProvider, placed_cons, List.append_assoc]
      rfl

theorem placed_ids (n : ℕ) :
    (placed W n id es).map (·.dwCatalogEntryId) = List.range' id es.length := by
  induction es generalizing n id with
  | nil => rfl
  | cons e es ih => rw [placed_cons, List.map_cons, ih, List.length_cons, List.range'_succ]

theorem placed_providerIds (n : ℕ) :
    (placed W n id es).map (·.providerId) = (List.range' n es.length).map W.uuidCreate := by
  induction es generalizing n id with
  | nil => rfl
  | cons e es ih =>
      rw [placed_cons, List.map_cons, ih, List.length_cons, List.range'_succ, List.map_cons]

theorem placed_chains (n : ℕ) :
    (placed W n id es).map (·.protocolChain) = es.map (·.protocolChain) := by
  induction es generalizing n id with
  | nil => rfl
  | cons e es ih => rw [placed_cons, List.map_cons, List.map_cons, ih]

theorem placed_nodup
    (hdistinct : ∀ m < es.length, ∀ n < es.length, W.uuidCreate m = W.uuidCreate n → m = n) :
    ((placed W 0 id es).map (·.providerId)).Nodup := by
  rw [placed_providerIds]
  apply List.Nodup.map_on
  · intro m hm n hn heq
    have hm' := (List.mem_range'_1.mp hm).2
    have hn' := (List.mem_range'_1.mp hn).2
    rw [Nat.zero_add] at hm' hn'
    exact hdistinct m hm' n hn' heq
  · exact List.nodup_range'

theorem mem_placed (h : layer ∈ placed W 0 id es) :
    (∃ k < es.length, layer.providerId = W.uuidCreate k) ∧ id ≤ layer.dwCatalogEntryId ∧
      ∃ e ∈ es, layer.protocolChain = e.protocolChain := by
  have hguid := List.mem_map_of_mem (f := (·.providerId)) h
  have hid := List.mem_map_of_mem (f := (·.dwCatalogEntryId)) h
  have hchain := List.mem_map_of_mem (f := (·.protocolChain)) h
  rw [placed_providerIds] at hguid
  rw [placed_ids] at hid
  rw [placed_chains] at hchain
  obtain ⟨k, hrange, hk⟩ := List.mem_map.mp hguid
  obtain ⟨e, he, heq⟩ := List.mem_map.mp hchain
  have hlt := (List.mem_range'_1.mp hrange).2
  rw [Nat.zero_add] at hlt
  exact ⟨⟨k, hlt, hk.symm⟩, (List.mem_range'_1.mp hid).1, e, he, heq.symm⟩

theorem Heads.isIdinChain (h : Heads id layer) : isIdinChain id layer = true := by
  have hsize := layer.protocolChain.size
  have hpos := h.pos
  have hhead := h.head
  rw [Installer.isIdinChain, decide_eq_true_iff, ProtocolChain.ids]
  generalize layer.protocolChain.chainEntries = entries at hsize hhead
  generalize layer.protocolChain.chainLen = len at hpos
  cases entries with
  | nil => exact absurd hsize (by decide)
  | cons entry entries =>
      cases len with
      | zero => exact absurd hpos (Nat.lt_irrefl 0)
      | succ len =>
          rw [List.take_succ_cons, ← hhead]
          exact List.mem_cons_self

theorem Heads.isLayer_eq (h : Heads id layer) :
    isLayer id layer = decide (1 < layer.protocolChain.chainLen) := by
  rw [isLayer, h.head, beq_self_eq_true, Bool.and_true]

theorem isIdinChain_of_isLayer (h : isLayer id e = true) : isIdinChain id e = true := by
  rw [isLayer, Bool.and_eq_true, decide_eq_true_iff, beq_iff_eq] at h
  exact Heads.isIdinChain ⟨Nat.lt_trans Nat.zero_lt_one h.1, h.2⟩

end Layers

/-! ## The catalog with the provider installed -/

section Order
variable {W : Winsock} {es es' : List ProtocolInfo} {c : Catalog} {id : ℕ}

theorem eq_of_perm_of_ids (hperm : es.Perm es')
    (hids : es.map (·.dwCatalogEntryId) = es'.map (·.dwCatalogEntryId))
    (hnodup : (es'.map (·.dwCatalogEntryId)).Nodup) : es = es' := by
  apply List.ext_getElem hperm.length_eq
  intro i hi hi'
  apply List.inj_on_of_nodup_map hnodup (hperm.subset (List.getElem_mem hi)) (List.getElem_mem hi')
  have hget := congrArg (fun l : List ℕ => l[i]?) hids
  simpa [hi, hi'] using hget

theorem writeOrder_catalogEntries (hnodup : (es.map (·.dwCatalogEntryId)).Nodup) :
    W.writeOrder (catalogEntries id es) es =
      es.filter (isIdinChain id) ++ es.filter fun e => !isIdinChain id e := by
  have hparts : (es.filter (isIdinChain id) ++ es.filter fun e => !isIdinChain id e).Perm es :=
    List.filter_append_perm _ _
  have hentries : catalogEntries id es =
      (es.filter (isIdinChain id) ++ es.filter fun e => !isIdinChain id e).map
        (·.dwCatalogEntryId) := by
    rw [catalogEntries, List.map_append]
  apply eq_of_perm_of_ids ((W.writeOrder_perm _ _).trans hparts.symm)
  · rw [W.writeOrder_ids _ _ hnodup, hentries]
    rw [hentries]
    exact hparts.map _
  · exact (hparts.map _).nodup_iff.mpr hnodup

/-- What is known about the environment of an installation over `count` entries:
`UuidCreate` returns different GUIDs that nobody uses yet. -/
structure Fresh (W : Winsock) (P : Provider) (c : Catalog) (count : ℕ) : Prop where
  distinct : ∀ m < count, ∀ n < count, W.uuidCreate m = W.uuidCreate n → m = n
  provider : ∀ n < count, W.uuidCreate n ≠ P.providerGuid
  catalog : ∀ n < count, ∀ e ∈ c.protocolInfo, e.providerId ≠ W.uuidCreate n

theorem originalProtocolInfo_length (es : List ProtocolInfo) (catalogIdArray : List ℕ) :
    (originalProtocolInfo es catalogIdArray).length = catalogIdArray.length := by
  have hle := List.length_filterMap_le (savedInfo es) catalogIdArray
  rw [originalProtocolInfo, List.length_append, List.length_replicate]
  omega

theorem Catalog.WellFormed.not_isIdinChain (hc : c.WellFormed) {e : ProtocolInfo}
    (he : e ∈ c.protocolInfo) : isIdinChain c.nextId e = false := by
  rw [isIdinChain, decide_eq_false_iff_not]
  intro hmem
  exact Nat.lt_irrefl _ (hc.chain_lt e he _ hmem)

/-- The catalog that `InstallProvider` leaves, if the provider was not in it before: the
layers, the entries as they were, and the hidden entry. -/
structure Installed (W : Winsock) (c : Catalog) (P : Provider) (count : ℕ)
    (layers : List ProtocolInfo) (dummy : ProtocolInfo) : Prop where
  wellFormed : c.WellFormed
  absent : ∀ e ∈ c.protocolInfo, e.providerId ≠ P.providerGuid
  heads : ∀ layer ∈ layers, Heads c.nextId layer
  guids : ∀ layer ∈ layers, ∃ k < count, layer.providerId = W.uuidCreate k
  nodup : (layers.map (·.providerId)).Nodup
  dummyGuid : dummy.providerId = P.providerGuid
  dummyId : dummy.dwCatalogEntryId = c.nextId
  dummyChain : dummy.protocolChain.chainLen = 0

theorem layeredCatalogId_eq_nextId {P : Provider} {c : Catalog} (first : ProtocolInfo)
    (hid : ∀ e ∈ c.protocolInfo, e.dwCatalogEntryId < c.nextId) :
    layeredCatalogId P (c.wscInstallProvider P.providerGuid
        (dummyProtocolInfo P first)).protocolInfo = some c.nextId ↔
      ∀ e ∈ c.protocolInfo, e.providerId ≠ P.providerGuid := by
  unfold layeredCatalogId Catalog.wscInstallProvider
  rw [List.find?_append]
  cases hfind : c.protocolInfo.find? fun e => e.providerId = P.providerGuid with
  | none => simpa using hfind
  | some e =>
      have hguid : e.providerId = P.providerGuid := by simpa using List.find?_some hfind
      have hlt := hid e (List.mem_of_find?_eq_some hfind)
      constructor
      · intro hsome
        have hsame : e.dwCatalogEntryId = c.nextId := Option.some.inj hsome
        omega
      · intro habsent
        exact absurd hguid (habsent e (List.mem_of_find?_eq_some hfind))

theorem installProvider_spec {P : Provider} {catalogIdArray : List ℕ} {c' : Catalog}
    (hc : c.WellFormed) (hfresh : Fresh W P c catalogIdArray.length)
    (habsent : ∀ e ∈ c.protocolInfo, e.providerId ≠ P.providerGuid)
    (h : installProvider W P catalogIdArray c = some c') :
    ∃ layers dummy, Installed W c P catalogIdArray.length layers dummy ∧
      c'.protocolInfo = layers ++ (c.protocolInfo ++ [dummy]) ∧
      (∀ e ∈ originalProtocolInfo c.protocolInfo catalogIdArray, Fits P e) ∧
      layers.map (·.protocolChain.chainLen) =
        (originalProtocolInfo c.protocolInfo catalogIdArray).map
          (·.protocolChain.chainLen + 1) := by
  simp only [installProvider] at h
  split at h
  case h_1 => cases h
  case h_2 first rest horiginal =>
  have hfind : layeredCatalogId P
      (c.wscInstallProvider P.providerGuid (dummyProtocolInfo P first)).protocolInfo =
        some c.nextId := (layeredCatalogId_eq_nextId first hc.id_lt).2 habsent
  rw [hfind] at h
  dsimp only at h
  split at h
  case h_1 => cases h
  case h_2 made hmade =>
  obtain rfl := Option.some.inj h
  obtain ⟨hfits, hheads, hlen⟩ := layerAll_eq_some hmade
  have hcount : made.length = catalogIdArray.length := by
    have hlength := congrArg List.length hlen
    rw [List.length_map, List.length_map, originalProtocolInfo_length] at hlength
    exact hlength
  have hchains := @placed_chains W (c.nextId + 1) made 0
  have hplaced : ∀ layer ∈ placed W 0 (c.nextId + 1) made, Heads c.nextId layer := by
    intro layer hlayer
    obtain ⟨-, -, e, he, heq⟩ := mem_placed hlayer
    have hhead := hheads e he
    exact ⟨heq ▸ hhead.pos, heq ▸ hhead.head⟩
  generalize hdummy : { dummyProtocolInfo P first with
    providerId := P.providerGuid, dwCatalogEntryId := c.nextId } = dummy
  have hchain : dummy.protocolChain.chainLen = 0 := by
    rw [← hdummy]
    rfl
  have hentries : (installLayers W 0 made
      (c.wscInstallProvider P.providerGuid (dummyProtocolInfo P first))).protocolInfo =
        c.protocolInfo ++ [dummy] ++ placed W 0 (c.nextId + 1) made := by
    rw [installLayers_protocolInfo, ← hdummy]
    rfl
  refine ⟨placed W 0 (c.nextId + 1) made, dummy, ⟨hc, habsent, hplaced,
    fun layer hlayer => hcount ▸ (mem_placed hlayer).1,
    placed_nodup (hcount.symm ▸ hfresh.distinct), ?_, ?_, hchain⟩, ?_, hfits, ?_⟩
  · rw [← hdummy]
  · rw [← hdummy]
  · have hnodup : ((c.protocolInfo ++ [dummy] ++ placed W 0 (c.nextId + 1) made).map
        (·.dwCatalogEntryId)).Nodup := by
      have hid : dummy.dwCatalogEntryId = c.nextId := by rw [← hdummy]
      rw [List.map_append, List.map_append, placed_ids, List.map_singleton, hid]
      refine List.Nodup.append (List.Nodup.append hc.nodup (List.nodup_singleton _) ?_)
        List.nodup_range' ?_
      · intro id hmem hlast
        obtain ⟨e, he, rfl⟩ := List.mem_map.mp hmem
        exact Nat.ne_of_lt (hc.id_lt e he) (List.mem_singleton.mp hlast)
      · intro id hmem hrange
        have hlow := (List.mem_range'_1.mp hrange).1
        rcases List.mem_append.mp hmem with hold | hlast
        · obtain ⟨e, he, rfl⟩ := List.mem_map.mp hold
          have hlt := hc.id_lt e he
          omega
        · rw [List.mem_singleton] at hlast
          omega
    rw [Catalog.wscWriteProviderOrder, hentries]
    dsimp only
    rw [writeOrder_catalogEntries hnodup]
    have hdummyNot : isIdinChain c.nextId dummy = false := by
      rw [isIdinChain, ProtocolChain.ids, hchain, List.take_zero]
      rfl
    have hold : c.protocolInfo.filter (isIdinChain c.nextId) = [] := by
      rw [List.filter_eq_nil_iff]
      intro e he
      rw [hc.not_isIdinChain he]
      exact Bool.false_ne_true
    have hold' : (c.protocolInfo.filter fun e => !isIdinChain c.nextId e) = c.protocolInfo := by
      rw [List.filter_eq_self]
      intro e he
      rw [hc.not_isIdinChain he]
      rfl
    have hnew : (placed W 0 (c.nextId + 1) made).filter (isIdinChain c.nextId) =
        placed W 0 (c.nextId + 1) made := by
      rw [List.filter_eq_self]
      exact fun layer hlayer => (hplaced layer hlayer).isIdinChain
    have hnew' : ((placed W 0 (c.nextId + 1) made).filter fun e => !isIdinChain c.nextId e) =
        [] := by
      rw [List.filter_eq_nil_iff]
      intro layer hlayer
      rw [(hplaced layer hlayer).isIdinChain]
      exact Bool.false_ne_true
    simp only [List.filter_append, hold, hold', hnew, hnew', List.filter_cons, hdummyNot,
      List.filter_nil, List.nil_append, List.append_nil, Bool.not_false, if_true,
      Bool.false_eq_true, if_false]
  · have hlens := congrArg (List.map (·.chainLen)) hchains
    simp only [List.map_map] at hlens
    rw [← hlen]
    exact hlens

end Order

/-! ## The catalog without the provider -/

section Removal
variable {W : Winsock} {P : Provider} {c c' : Catalog} {id count : ℕ}
  {es layers : List ProtocolInfo} {dummy : ProtocolInfo}

theorem removeLayers_protocolInfo : (removeLayers id es c).protocolInfo =
      c.protocolInfo.filter fun x =>
        es.all fun e => !(isLayer id e && x.providerId == e.providerId) := by
  induction es generalizing c with
  | nil =>
      rw [removeLayers, List.foldl_nil]
      exact (List.filter_eq_self.mpr fun _ _ => rfl).symm
  | cons e es ih =>
      rw [removeLayers, List.foldl_cons]
      change (removeLayers id es _).protocolInfo = _
      rw [ih]
      split
      case isTrue hlayer =>
        rw [Catalog.wscDeinstallProvider, List.filter_filter]
        apply List.filter_congr
        intro x _
        rw [List.all_cons, hlayer, Bool.true_and]
        by_cases hguid : x.providerId = e.providerId
        · simp [hguid]
        · simp [hguid]
      case isFalse hlayer =>
        rw [Bool.not_eq_true] at hlayer
        apply List.filter_congr
        intro x _
        rw [List.all_cons, hlayer, Bool.false_and, Bool.not_false, Bool.true_and]

theorem Installed.removed (h : Installed W c P count layers dummy) (hfresh : Fresh W P c count)
    (hc' : c'.protocolInfo = layers ++ (c.protocolInfo ++ [dummy])) :
    ((removeLayers c.nextId c'.protocolInfo c').wscDeinstallProvider P.providerGuid).protocolInfo =
      (layers.filter fun layer => !decide (1 < layer.protocolChain.chainLen)) ++
        c.protocolInfo := by
  have hdummyNot : isLayer c.nextId dummy = false := by
    rw [isLayer, h.dummyChain]
    rfl
  have hold : ∀ e ∈ c.protocolInfo, isLayer c.nextId e = false := by
    intro e he
    by_contra hlayer
    rw [Bool.not_eq_false] at hlayer
    have hin := isIdinChain_of_isLayer hlayer
    rw [h.wellFormed.not_isIdinChain he] at hin
    exact Bool.false_ne_true hin
  -- only layers are recognised, and each by a GUID of its own
  have hall : ∀ x : ProtocolInfo, (c'.protocolInfo.all fun e =>
      !(isLayer c.nextId e && x.providerId == e.providerId)) =
        layers.all fun e => !(isLayer c.nextId e && x.providerId == e.providerId) := by
    intro x
    rw [hc', List.all_append, List.all_append, List.all_cons, List.all_nil, hdummyNot]
    have hrest : (c.protocolInfo.all fun e =>
        !(isLayer c.nextId e && x.providerId == e.providerId)) = true := by
      rw [List.all_eq_true]
      intro e he
      rw [hold e he]
      rfl
    rw [hrest]
    simp
  rw [Catalog.wscDeinstallProvider, removeLayers_protocolInfo, hc', List.filter_filter,
    List.filter_append, List.filter_append]
  rw [← hc']
  simp only [hall]
  have hlayers : (layers.filter fun a => decide (a.providerId ≠ P.providerGuid) &&
      layers.all fun e => !(isLayer c.nextId e && a.providerId == e.providerId)) =
        layers.filter fun layer => !decide (1 < layer.protocolChain.chainLen) := by
    apply List.filter_congr
    intro layer hlayer
    obtain ⟨k, hlt, hk⟩ := h.guids layer hlayer
    have hne : layer.providerId ≠ P.providerGuid := hk ▸ hfresh.provider k hlt
    rw [decide_eq_true hne, Bool.true_and, ← (h.heads layer hlayer).isLayer_eq]
    rw [Bool.eq_iff_iff, List.all_eq_true]
    constructor
    · intro hforall
      have hself := hforall layer hlayer
      simpa using hself
    · intro hnot e he
      by_cases hguid : layer.providerId = e.providerId
      · have hsame := List.inj_on_of_nodup_map h.nodup hlayer he hguid
        rw [← hsame, beq_self_eq_true, Bool.and_true]
        exact hnot
      · have hguid' : (layer.providerId == e.providerId) = false := beq_false_of_ne hguid
        rw [hguid', Bool.and_false]
        rfl
  have hentries : (c.protocolInfo.filter fun a => decide (a.providerId ≠ P.providerGuid) &&
      layers.all fun e => !(isLayer c.nextId e && a.providerId == e.providerId)) =
        c.protocolInfo := by
    rw [List.filter_eq_self]
    intro e he
    rw [decide_eq_true (h.absent e he), Bool.true_and, List.all_eq_true]
    intro layer hlayer
    obtain ⟨k, hlt, hk⟩ := h.guids layer hlayer
    have hguid : (e.providerId == layer.providerId) = false :=
      beq_false_of_ne (hk ▸ hfresh.catalog k hlt e he)
    rw [hguid, Bool.and_false]
    rfl
  have hhidden : ([dummy].filter fun a => decide (a.providerId ≠ P.providerGuid) &&
      layers.all fun e => !(isLayer c.nextId e && a.providerId == e.providerId)) = [] := by
    rw [List.filter_eq_nil_iff]
    intro a ha
    rw [List.mem_singleton.mp ha, h.dummyGuid]
    simp
  rw [hlayers, hentries, hhidden, List.append_nil]

theorem Installed.layeredCatalogId (h : Installed W c P count layers dummy)
    (hfresh : Fresh W P c count) :
    Installer.layeredCatalogId P (layers ++ (c.protocolInfo ++ [dummy])) = some c.nextId := by
  have hlayers : layers.find? (fun e => e.providerId = P.providerGuid) = none := by
    rw [List.find?_eq_none]
    intro layer hlayer
    obtain ⟨k, hlt, hk⟩ := h.guids layer hlayer
    rw [hk]
    simpa using hfresh.provider k hlt
  have hentries : c.protocolInfo.find? (fun e => e.providerId = P.providerGuid) = none := by
    rw [List.find?_eq_none]
    intro e he
    simpa using h.absent e he
  simp [Installer.layeredCatalogId, List.find?_append, hlayers, hentries, h.dummyGuid, h.dummyId]

theorem reinstall_countP (info : ProtocolInfo) (guid : GUID)
    (hone : c.protocolInfo.countP (·.providerId = info.providerId) = 1) :
    (reinstall c info).protocolInfo.countP (·.providerId = guid) =
      c.protocolInfo.countP (·.providerId = guid) := by
  rw [reinstall, Catalog.wscInstallProvider, Catalog.wscDeinstallProvider, List.countP_append,
    List.countP_singleton, List.countP_filter]
  by_cases hguid : info.providerId = guid
  · subst hguid
    have hnone : (c.protocolInfo.countP fun e => decide (e.providerId = info.providerId) &&
          decide (e.providerId ≠ info.providerId)) = 0 := by
      rw [List.countP_eq_zero]
      intro e _
      simp
    rw [hnone, hone]
    simp
  · have hsame : (c.protocolInfo.countP fun e =>
        decide (e.providerId = guid) && decide (e.providerId ≠ info.providerId)) =
          c.protocolInfo.countP (·.providerId = guid) := by
      apply List.countP_congr
      intro e _
      simp only [Bool.and_eq_true, decide_eq_true_eq, and_iff_left_iff_imp]
      rintro rfl heq
      exact hguid heq.symm
    rw [hsame]
    simp [hguid]

theorem reinstall_length (info : ProtocolInfo)
    (hone : c.protocolInfo.countP (·.providerId = info.providerId) = 1) :
    (reinstall c info).protocolInfo.length = c.protocolInfo.length := by
  have hsplit := @List.length_eq_countP_add_countP _ (·.providerId = info.providerId) c.protocolInfo
  rw [reinstall, Catalog.wscInstallProvider, Catalog.wscDeinstallProvider, List.length_append,
    List.length_singleton, ← List.countP_eq_length_filter]
  simp only [decide_eq_true_eq, ne_eq] at hsplit ⊢
  omega

theorem reinstallAll_length {infos : List ProtocolInfo}
    (hone : ∀ info ∈ infos, c.protocolInfo.countP (·.providerId = info.providerId) = 1) :
    (infos.foldl reinstall c).protocolInfo.length = c.protocolInfo.length := by
  induction infos generalizing c with
  | nil => rfl
  | cons info infos ih =>
      rw [List.forall_mem_cons] at hone
      rw [List.foldl_cons, ih, reinstall_length info hone.1]
      intro info' hinfo'
      rw [reinstall_countP info info'.providerId hone.1]
      exact hone.2 info' hinfo'

theorem reinstallAll_absent {infos : List ProtocolInfo} {guid : GUID}
    (hinfos : ∀ info ∈ infos, info.providerId ≠ guid)
    (habsent : ∀ e ∈ c.protocolInfo, e.providerId ≠ guid) :
    ∀ e ∈ (infos.foldl reinstall c).protocolInfo, e.providerId ≠ guid := by
  induction infos generalizing c with
  | nil => exact habsent
  | cons info infos ih =>
      rw [List.forall_mem_cons] at hinfos
      apply ih hinfos.2
      intro e he
      simp only [reinstall, Catalog.wscInstallProvider, Catalog.wscDeinstallProvider,
        List.mem_append, List.mem_singleton] at he
      rcases he with hold | rfl
      · exact habsent e (List.mem_of_mem_filter hold)
      · exact hinfos.1

theorem removeIdFromChain_providerId (e : ProtocolInfo) :
    (removeIdFromChain id e).providerId = e.providerId := by
  unfold removeIdFromChain
  split
  case isTrue => rfl
  case isFalse => rfl

/-- The layers that `RemoveProvider` misses. -/
def missed (layers : List ProtocolInfo) : List ProtocolInfo :=
  layers.filter fun layer => !decide (1 < layer.protocolChain.chainLen)

theorem Installed.filter_isIdinChain (h : Installed W c P count layers dummy) :
    (missed layers ++ c.protocolInfo).filter (isIdinChain c.nextId) = missed layers := by
  have hmissed : (missed layers).filter (isIdinChain c.nextId) = missed layers := by
    rw [List.filter_eq_self]
    exact fun layer hlayer => (h.heads layer (List.mem_of_mem_filter hlayer)).isIdinChain
  have hold : c.protocolInfo.filter (isIdinChain c.nextId) = [] := by
    rw [List.filter_eq_nil_iff]
    intro e he
    rw [h.wellFormed.not_isIdinChain he]
    exact Bool.false_ne_true
  rw [List.filter_append, hmissed, hold, List.append_nil]

theorem Installed.countP_missed (h : Installed W c P count layers dummy)
    (hfresh : Fresh W P c count) {layer : ProtocolInfo} (hlayer : layer ∈ missed layers) :
    (missed layers ++ c.protocolInfo).countP (·.providerId = layer.providerId) = 1 := by
  have hmem := List.mem_of_mem_filter hlayer
  obtain ⟨k, hlt, hk⟩ := h.guids layer hmem
  have hold : c.protocolInfo.countP (·.providerId = layer.providerId) = 0 := by
    rw [List.countP_eq_zero]
    intro e he
    simpa [hk] using hfresh.catalog k hlt e he
  have hnodup : ((missed layers).map (·.providerId)).Nodup :=
    h.nodup.sublist (List.filter_sublist.map _)
  have hcount := List.count_eq_one_of_mem hnodup (List.mem_map_of_mem hlayer)
  rw [List.count, List.countP_map] at hcount
  rw [List.countP_append, hold, Nat.add_zero, ← hcount]
  apply List.countP_congr
  intro e _
  simp

/-- What `RemoveProvider` leaves: the entries as they were, and a new entry for each layer
that it missed. -/
theorem Installed.removeProvider_length (h : Installed W c P count layers dummy)
    (hfresh : Fresh W P c count) (hc' : c'.protocolInfo = layers ++ (c.protocolInfo ++ [dummy]))
    {c'' : Catalog} (hremove : removeProvider W P c' = some c'') :
    c''.protocolInfo.length = (missed layers).length + c.protocolInfo.length := by
  have hid := h.layeredCatalogId hfresh
  have hremoved := h.removed hfresh hc'
  rw [← hc'] at hid
  simp only [removeProvider, hid] at hremove
  generalize (removeLayers c.nextId c'.protocolInfo c').wscDeinstallProvider P.providerGuid =
    left at hremove hremoved
  change left.protocolInfo = missed layers ++ c.protocolInfo at hremoved
  rw [hremoved, h.filter_isIdinChain] at hremove
  split at hremove
  case isFalse =>
    obtain rfl := Option.some.inj hremove
    rw [hremoved, List.length_append]
  case isTrue =>
    split at hremove
    case isFalse => cases hremove
    case isTrue =>
      obtain rfl := Option.some.inj hremove
      rw [Catalog.wscWriteProviderOrder]
      dsimp only
      rw [(W.writeOrder_perm _ _).length_eq, reinstallAll_length, hremoved, List.length_append]
      intro info hinfo
      obtain ⟨layer, hlayer, rfl⟩ := List.mem_map.mp hinfo
      rw [removeIdFromChain_providerId, hremoved]
      exact h.countP_missed hfresh hlayer

theorem Installed.removeProvider_eq (h : Installed W c P count layers dummy)
    (hfresh : Fresh W P c count) (hc' : c'.protocolInfo = layers ++ (c.protocolInfo ++ [dummy]))
    (hnone : missed layers = []) :
    ∃ c'', removeProvider W P c' = some c'' ∧ c''.protocolInfo = c.protocolInfo := by
  have hid := h.layeredCatalogId hfresh
  have hremoved := h.removed hfresh hc'
  rw [← hc'] at hid
  simp only [removeProvider, hid]
  generalize (removeLayers c.nextId c'.protocolInfo c').wscDeinstallProvider P.providerGuid =
    left at hremoved
  change left.protocolInfo = missed layers ++ c.protocolInfo at hremoved
  rw [hremoved, h.filter_isIdinChain, hnone]
  refine ⟨left, rfl, ?_⟩
  rw [hremoved, hnone, List.nil_append]

theorem removeProvider_absent (h : removeProvider W P c = some c') :
    ∀ e ∈ c'.protocolInfo, e.providerId ≠ P.providerGuid := by
  simp only [removeProvider] at h
  split at h
  case h_1 => cases h
  case h_2 id hid =>
  have hleft : ∀ e ∈ ((removeLayers id c.protocolInfo c).wscDeinstallProvider
      P.providerGuid).protocolInfo, e.providerId ≠ P.providerGuid := by
    intro e he
    rw [Catalog.wscDeinstallProvider] at he
    simpa using (List.mem_filter.mp he).2
  generalize (removeLayers id c.protocolInfo c).wscDeinstallProvider P.providerGuid =
    left at h hleft
  split at h
  case isFalse =>
    obtain rfl := Option.some.inj h
    exact hleft
  case isTrue =>
    split at h
    case isFalse => cases h
    case isTrue =>
      obtain rfl := Option.some.inj h
      have hinfos : ∀ info ∈ (left.protocolInfo.filter (isIdinChain id)).map
          (removeIdFromChain id), info.providerId ≠ P.providerGuid := by
        intro info hinfo
        obtain ⟨e, he, rfl⟩ := List.mem_map.mp hinfo
        rw [removeIdFromChain_providerId]
        exact hleft e (List.mem_of_mem_filter he)
      intro e he
      exact reinstallAll_absent hinfos hleft e ((W.writeOrder_perm _ _).subset he)

end Removal

/-! ## The selections that can be undone -/

/-- Something is selected, the provider is not in the catalog yet, and every selected id is
that of an entry with a chain, with room in the chain and in the name. -/
structure Undoable (P : Provider) (catalogIdArray : List ℕ) (c : Catalog) : Prop where
  selected : catalogIdArray ≠ []
  absent : ∀ e ∈ c.protocolInfo, e.providerId ≠ P.providerGuid
  layered : ∀ id ∈ catalogIdArray, ∃ e ∈ c.protocolInfo, e.dwCatalogEntryId = id ∧
    0 < e.protocolChain.chainLen ∧ Fits P e

section Undo
variable {W : Winsock} {P : Provider} {c c' : Catalog} {catalogIdArray : List ℕ}

theorem savedInfo_eq_some_iff (hc : c.WellFormed) {id : ℕ} {info : ProtocolInfo} :
    savedInfo c.protocolInfo id = some info ↔ ∃ e ∈ c.protocolInfo, e.dwCatalogEntryId = id ∧
        info = { e with dwServiceFlags1 := e.dwServiceFlags1 &&& ~~~xp1IfsHandles } := by
  rw [savedInfo, Option.map_eq_some_iff]
  constructor
  · rintro ⟨e, hfind, rfl⟩
    exact ⟨e, List.mem_of_find?_eq_some hfind, by simpa using List.find?_some hfind, rfl⟩
  · rintro ⟨e, he, rfl, rfl⟩
    refine ⟨e, ?_, rfl⟩
    cases hfind : c.protocolInfo.find? fun e' => e'.dwCatalogEntryId = e.dwCatalogEntryId with
    | none =>
        rw [List.find?_eq_none] at hfind
        exact absurd (decide_eq_true rfl) (hfind e he)
    | some e' =>
        have hid : e'.dwCatalogEntryId = e.dwCatalogEntryId := by
          simpa using List.find?_some hfind
        rw [List.inj_on_of_nodup_map hc.nodup (List.mem_of_find?_eq_some hfind) he hid]

/-- Every saved entry has a chain exactly if every selected id was found, with a chain. -/
theorem original_all_iff (hc : c.WellFormed) :
    (∀ info ∈ originalProtocolInfo c.protocolInfo catalogIdArray,
        0 < info.protocolChain.chainLen ∧ Fits P info) ↔
      ∀ id ∈ catalogIdArray, ∃ e ∈ c.protocolInfo, e.dwCatalogEntryId = id ∧
        0 < e.protocolChain.chainLen ∧ Fits P e := by
  constructor
  · intro hall id hid
    have hfound : (savedInfo c.protocolInfo id).isSome = true := by
      by_contra hnone
      have hshort : (catalogIdArray.filterMap (savedInfo c.protocolInfo)).length <
          catalogIdArray.length := by
        apply List.length_filterMap_lt_length_iff_exists.mpr
        exact ⟨id, hid, by simpa using hnone⟩
      have hzero : ProtocolInfo.zero ∈ originalProtocolInfo c.protocolInfo catalogIdArray := by
        rw [originalProtocolInfo]
        apply List.mem_append_right
        rw [List.mem_replicate]
        exact ⟨by omega, rfl⟩
      exact Nat.lt_irrefl 0 (hall _ hzero).1
    obtain ⟨info, hinfo⟩ := Option.isSome_iff_exists.mp hfound
    have hmem : info ∈ originalProtocolInfo c.protocolInfo catalogIdArray := by
      rw [originalProtocolInfo]
      apply List.mem_append_left
      exact List.mem_filterMap.mpr ⟨id, hid, hinfo⟩
    obtain ⟨e, he, hid', rfl⟩ := (savedInfo_eq_some_iff hc).mp hinfo
    have hlayered := hall _ hmem
    exact ⟨e, he, hid', hlayered⟩
  · intro hall info hinfo
    rw [originalProtocolInfo, List.mem_append] at hinfo
    rcases hinfo with hfound | hpadding
    · obtain ⟨id, hid, hsaved⟩ := List.mem_filterMap.mp hfound
      obtain ⟨e, he, hid', heq⟩ := (savedInfo_eq_some_iff hc).mp hsaved
      obtain ⟨e', he', hid'', hlayered⟩ := hall id hid
      have hsame := List.inj_on_of_nodup_map hc.nodup he he' (hid'.trans hid''.symm)
      rw [heq, hsame]
      exact hlayered
    · exfalso
      have hlength : (catalogIdArray.filterMap (savedInfo c.protocolInfo)).length =
          catalogIdArray.length := by
        apply List.filterMap_length_eq_length.mpr
        intro id hid
        obtain ⟨e, he, hid', -⟩ := hall id hid
        have hsaved := (savedInfo_eq_some_iff hc).mpr ⟨e, he, hid', rfl⟩
        rw [hsaved]
        rfl
      rw [List.mem_replicate] at hpadding
      omega

theorem original_ne_nil (hsome : catalogIdArray ≠ []) :
    originalProtocolInfo c.protocolInfo catalogIdArray ≠ [] := by
  intro hnil
  have hlength := congrArg List.length hnil
  have hpos := List.length_pos_iff.mpr hsome
  simp only [originalProtocolInfo, List.length_append, List.length_replicate,
    List.length_nil] at hlength
  omega

theorem installProvider_nil (h : installProvider W P catalogIdArray c = some c') :
    catalogIdArray ≠ [] := by
  rintro rfl
  cases h

theorem Undoable.installProvider (h : Undoable P catalogIdArray c) (hc : c.WellFormed) :
    ∃ c', Installer.installProvider W P catalogIdArray c = some c' := by
  have horiginal := (original_all_iff hc).mpr h.layered
  obtain ⟨layers, hlayers⟩ := @layerAll_of_fits P c.nextId _ fun e he => (horiginal e he).2
  have hsome := @original_ne_nil c _ h.selected
  unfold Installer.installProvider
  dsimp only
  generalize originalProtocolInfo c.protocolInfo catalogIdArray = original at hlayers hsome
  cases original with
  | nil => exact absurd rfl hsome
  | cons first rest =>
      have hfind : layeredCatalogId P
          (c.wscInstallProvider P.providerGuid (dummyProtocolInfo P first)).protocolInfo =
            some c.nextId := (layeredCatalogId_eq_nextId first hc.id_lt).2 h.absent
      dsimp only
      rw [hfind]
      dsimp only
      rw [hlayers]
      exact ⟨_, rfl⟩

theorem missed_eq_nil_iff {layers original : List ProtocolInfo}
    (hlen : layers.map (·.protocolChain.chainLen) = original.map (·.protocolChain.chainLen + 1)) :
    missed layers = [] ↔ ∀ info ∈ original, 0 < info.protocolChain.chainLen := by
  have hlayers : missed layers = [] ↔ ∀ len ∈ layers.map (·.protocolChain.chainLen), 1 < len := by
    simp [missed, List.filter_eq_nil_iff]
  rw [hlayers, hlen]
  simp

end Undo

/-- For every catalog and every selection: uninstalling the provider that has just been
installed leaves the same entries in the same order exactly if something is selected, the
provider was not in the catalog before, and every selected id is that of an entry whose
chain is not empty and has room, with room for the name. -/
theorem uninstall_undoes_install_iff {W : Winsock} {P : Provider} {catalogIdArray : List ℕ}
    {c : Catalog} (hc : c.WellFormed) (hfresh : Fresh W P c catalogIdArray.length) :
    (∃ c', installAndRemove W P catalogIdArray c = some c' ∧ SameEntries c c') ↔
      Undoable P catalogIdArray c := by
  constructor
  · rintro ⟨c'', hboth, hsame⟩
    obtain ⟨c', hinstall, hremove⟩ := Option.bind_eq_some_iff.mp hboth
    have habsent : ∀ e ∈ c.protocolInfo, e.providerId ≠ P.providerGuid := by
      intro e he hguid
      have hmem : e.data ∈ c''.protocolInfo.map (·.data) := by
        rw [hsame]
        exact List.mem_map_of_mem he
      obtain ⟨e', he', hdata⟩ := List.mem_map.mp hmem
      apply removeProvider_absent hremove e' he'
      have hproviderId : e'.data.providerId = e.data.providerId := by rw [hdata]
      exact hproviderId.trans hguid
    obtain ⟨layers, dummy, hinstalled, hc', hfits, hlen⟩ :=
      installProvider_spec hc hfresh habsent hinstall
    have hlength := hinstalled.removeProvider_length hfresh hc' hremove
    have hlength' := congrArg List.length hsame
    rw [List.length_map, List.length_map] at hlength'
    have hmissed : missed layers = [] := by
      rw [← List.length_eq_zero_iff]
      omega
    have hpos := (missed_eq_nil_iff hlen).mp hmissed
    exact ⟨installProvider_nil hinstall, habsent,
      (original_all_iff hc).mp fun info hinfo => ⟨hpos info hinfo, hfits info hinfo⟩⟩
  · intro h
    obtain ⟨c', hinstall⟩ := @Undoable.installProvider W _ _ _ h hc
    obtain ⟨layers, dummy, hinstalled, hc', -, hlen⟩ :=
      installProvider_spec hc hfresh h.absent hinstall
    have horiginal := (original_all_iff hc).mpr h.layered
    have hmissed := (missed_eq_nil_iff hlen).mpr fun info hinfo => (horiginal info hinfo).1
    obtain ⟨c'', hremove, heq⟩ := hinstalled.removeProvider_eq hfresh hc' hmissed
    refine ⟨c'', ?_, ?_⟩
    · rw [installAndRemove, hinstall]
      exact hremove
    · rw [SameEntries, heq]

/-! ## Two catalogs -/

section Examples
variable {es : List ProtocolInfo} {ids : List ℕ}

/-- An order that is written by bringing forward the entries of each id, from the last id to
the first. -/
def bringForward (ids : List ℕ) (es : List ProtocolInfo) : List ProtocolInfo :=
  ids.foldr (fun id es => (es.filter fun e => e.dwCatalogEntryId = id) ++
    es.filter fun e => !decide (e.dwCatalogEntryId = id)) es

theorem bringForward_perm : (bringForward ids es).Perm es := by
  induction ids with
  | nil => exact .refl _
  | cons id ids ih => exact (List.filter_append_perm _ _).trans ih

theorem bringForward_map (hes : (es.map (·.dwCatalogEntryId)).Nodup) (hids : ids.Nodup)
    (hmem : ∀ id ∈ ids, id ∈ es.map (·.dwCatalogEntryId)) :
    (bringForward ids es).map (·.dwCatalogEntryId) =
      ids ++ (es.map (·.dwCatalogEntryId)).filter (· ∉ ids) := by
  induction ids with
  | nil => simp [bringForward]
  | cons id ids ih =>
      rw [List.nodup_cons] at hids
      rw [List.forall_mem_cons] at hmem
      have hrest := ih hids.2 hmem.2
      have hcount : ((bringForward ids es).map (·.dwCatalogEntryId)).count id = 1 := by
        have hperm := (@bringForward_perm es ids).map (·.dwCatalogEntryId)
        rw [hperm.count_eq]
        exact List.count_eq_one_of_mem hes hmem.1
      have hsplit : (bringForward (id :: ids) es).map (·.dwCatalogEntryId) =
          ((bringForward ids es).map (·.dwCatalogEntryId)).filter (· = id) ++
            ((bringForward ids es).map (·.dwCatalogEntryId)).filter
              (fun x => !decide (x = id)) := by
        rw [bringForward, List.foldr_cons, List.map_append, List.filter_map, List.filter_map]
        rfl
      have hkept : ids.filter (fun x => !decide (x = id)) = ids := by
        rw [List.filter_eq_self]
        rintro x hx
        have hne : x ≠ id := fun heq => hids.1 (heq ▸ hx)
        simpa using hne
      rw [hsplit, List.filter_eq, hcount, hrest, List.filter_append, hkept, List.filter_filter,
        List.replicate_one, List.singleton_append, List.cons_append]
      congr 2
      apply List.filter_congr
      intro x _
      simp [not_or]

/-- GUIDs that count up from 1000, and a catalog that is ordered as told. -/
def Winsock.counting : Winsock where
  uuidCreate n := BitVec.ofNat 128 (1000 + n)
  writeOrder := bringForward
  writeOrder_perm _ _ := bringForward_perm
  writeOrder_ids ids es hes hperm := by
    have hnone : (es.map (·.dwCatalogEntryId)).filter (· ∉ ids) = [] := by
      rw [List.filter_eq_nil_iff]
      intro id hid
      simpa using hperm.symm.subset hid
    rw [bringForward_map hes (hperm.nodup_iff.mpr hes) fun id hid => hperm.subset hid, hnone,
      List.append_nil]

/-- An entry for a protocol `p` with the given chain. -/
def entry (guid : GUID) (id : ℕ) (chain : List ℕ) (hlen : chain.length ≤ maxProtocolChain) :
    ProtocolInfo where
  providerId := guid
  dwCatalogEntryId := id
  protocolChain := {
    chainLen := chain.length
    chainEntries := chain ++ List.replicate (maxProtocolChain - chain.length) 0
    size := by
      rw [List.length_append, List.length_replicate]
      omega
    len_le := hlen }
  dwProviderFlags := 0
  dwServiceFlags1 := xp1IfsHandles
  szProtocol := [112]
  members := []

end Examples

/-- A base protocol, and another vendor's provider over it: its hidden entry and its
layer. -/
def layeredCatalog : Catalog where
  protocolInfo := [entry 3 3 [2, 1] (by decide), entry 1 1 [1] (by decide),
    entry 2 2 [] (by decide)]
  nextId := 4

theorem layeredCatalog_wellFormed : layeredCatalog.WellFormed where
  nodup := by decide
  id_lt := by decide
  chain_lt := by decide

theorem layeredCatalog_fresh : Fresh .counting ⟨9, [108]⟩ layeredCatalog 3 where
  distinct := by decide
  provider := by decide
  catalog := by decide

/-- Installed over the base protocol and over the other vendor's layer, the provider is
removed without a trace. -/
theorem uninstall_undoes_install_iff_layers :
    Fresh .counting ⟨9, [108]⟩ layeredCatalog 2 ∧
      ((∃ c', installAndRemove .counting ⟨9, [108]⟩ [1, 3] layeredCatalog = some c' ∧
          SameEntries layeredCatalog c') ↔
        Undoable ⟨9, [108]⟩ [1, 3] layeredCatalog) :=
  have hfresh : Fresh .counting ⟨9, [108]⟩ layeredCatalog 2 := {
    distinct := by decide
    provider := by decide
    catalog := by decide }
  ⟨hfresh, uninstall_undoes_install_iff layeredCatalog_wellFormed hfresh⟩

/-- Installed over every entry, the provider leaves a fourth entry behind: the layer over
the other vendor's hidden entry. -/
theorem layer_over_hidden_entry_stays :
    layeredCatalog.WellFormed ∧ Fresh .counting ⟨9, [108]⟩ layeredCatalog 3 ∧
      ∃ c', installAndRemove .counting ⟨9, [108]⟩ [3, 1, 2] layeredCatalog = some c' ∧
        c'.protocolInfo.map (·.providerId) = [1002, 3, 1, 2] ∧
        ¬ SameEntries layeredCatalog c' :=
  ⟨layeredCatalog_wellFormed, layeredCatalog_fresh, _, rfl, by decide, by decide⟩

end MiscProjects.Installer
