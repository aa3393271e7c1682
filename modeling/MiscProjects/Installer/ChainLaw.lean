import MiscProjects.Installer.Undo

/-!
# The chains of the layers

`InstallProvider` should install one layer for each selected id that is in the
catalog: the id of the hidden entry, followed by the id of a base protocol or by
the chain of an entry that is layered already.  It layers over every element of
its array, those behind the entries it has found included, takes the first entry
with its GUID for the hidden one, and does not ask whether a chain has room.
-/

namespace MiscProjects.Installer

/-! ## Statement -/

/-- What a layer is put over: the id of a base protocol, or the chain of any other entry. -/
def ProtocolInfo.below (e : ProtocolInfo) : List ℕ :=
  if e.protocolChain.chainLen = baseProtocol then [e.dwCatalogEntryId] else e.protocolChain.ids

/-- A layer over the entry with this id, under the hidden entry. -/
def LayerFor (c : Catalog) (dummyId id : ℕ) (layer : ProtocolInfo) : Prop :=
  ∃ e ∈ c.protocolInfo, e.dwCatalogEntryId = id ∧
    layer.protocolChain.ids = dummyId :: e.below ∧
      layer.protocolChain.chainLen ≤ maxProtocolChain

/-- The selected ids that are in the catalog. -/
def selectedIds (c : Catalog) (catalogIdArray : List ℕ) : List ℕ :=
  catalogIdArray.filter fun id => id ∈ c.protocolInfo.map (·.dwCatalogEntryId)

/-- The entries that have been added behind the hidden one, which has got the next id. -/
def newLayers (c c' : Catalog) : List ProtocolInfo :=
  c'.protocolInfo.filter fun e => c.nextId < e.dwCatalogEntryId

/-- The provider is installed, and its layers are those over the selected ids that are in the
catalog, one for each. -/
def ChainLaw (W : Winsock) (P : Provider) (catalogIdArray : List ℕ) (c : Catalog) : Prop :=
  ∃ c' layers, installProvider W P catalogIdArray c = some c' ∧
    layers.Perm (newLayers c c') ∧
      List.Forall₂ (LayerFor c c.nextId) (selectedIds c catalogIdArray) layers

/-- Something is selected, the provider is not in the catalog yet, and every selected id is,
with a name and a chain that have room. -/
structure Chainable (P : Provider) (catalogIdArray : List ℕ) (c : Catalog) : Prop where
  selected : catalogIdArray ≠ []
  absent : ∀ e ∈ c.protocolInfo, e.providerId ≠ P.providerGuid
  found : ∀ id ∈ catalogIdArray, ∃ e ∈ c.protocolInfo, e.dwCatalogEntryId = id ∧ Fits P e

/-! ## One layer -/

section Layer
variable {P : Provider} {id : ℕ} {e layer : ProtocolInfo} {es layers : List ProtocolInfo}

theorem getElem?_pushDown {k : ℕ} {entries : List ℕ} (hk : k < entries.length) (i : ℕ) :
    (pushDown k entries)[i]? = if 0 < i ∧ i ≤ k then entries[i - 1]? else entries[i]? := by
  induction k generalizing entries with
  | zero =>
      rw [pushDown, if_neg (by omega)]
  | succ k ih =>
      have hset : (entries.set (k + 1) (entries.getD k 0)).length = entries.length :=
        List.length_set ..
      rw [pushDown, ih (by omega)]
      have hget : entries[k]? = some (entries.getD k 0) := by
        rw [List.getD_eq_getElem?_getD, List.getElem?_eq_getElem (by omega)]
        rfl
      by_cases hlast : i = k + 1
      · rw [if_neg (by omega), if_pos (by omega), hlast, List.getElem?_set_self (by omega),
          Nat.add_sub_cancel, hget]
      · by_cases hin : 0 < i ∧ i ≤ k
        · rw [if_pos hin, if_pos (by omega), List.getElem?_set_ne (by omega)]
        · rw [if_neg hin, if_neg (by omega), List.getElem?_set_ne (by omega)]

theorem take_pushDown {k : ℕ} {entries : List ℕ} (hk : k < entries.length) (id : ℕ) :
    ((pushDown k entries).set 0 id).take (k + 1) = id :: entries.take k := by
  refine List.ext_getElem? fun i => ?_
  have hlength : (pushDown k entries).length = entries.length := pushDown_length k entries
  rcases i with - | i
  · rw [List.getElem?_take_of_lt (by omega), List.getElem?_set_self (by omega)]
    rfl
  · rw [List.getElem?_cons_succ, List.getElem?_take, List.getElem?_take,
      List.getElem?_set_ne (by omega), getElem?_pushDown hk]
    by_cases hi : i < k
    · rw [if_pos (by omega), if_pos (by omega), if_pos hi, Nat.add_sub_cancel]
    · rw [if_neg (by omega), if_neg hi]

theorem layerOver_ids (h : layerOver P id e = some layer) :
    layer.protocolChain.ids = id :: e.below := by
  simp only [layerOver] at h
  split at h
  case isFalse => cases h
  case isTrue hname =>
    split at h
    case isFalse => cases h
    case isTrue hlen =>
      obtain rfl := Option.some.inj h
      have hsize : e.protocolChain.chainEntries.length = 7 := e.protocolChain.size
      have hroom : e.protocolChain.chainLen < 7 := hlen
      unfold ProtocolInfo.below ProtocolChain.ids
      by_cases hbase : e.protocolChain.chainLen = baseProtocol
      · simp only [hbase, if_true]
        obtain ⟨x, y, entries, hentries⟩ : ∃ x y entries,
            e.protocolChain.chainEntries = x :: y :: entries := by
          rcases hmade : e.protocolChain.chainEntries with - | ⟨x, - | ⟨y, entries⟩⟩
          · simp [hmade] at hsize
          · simp [hmade] at hsize
          · exact ⟨x, y, entries, rfl⟩
        rw [hentries]
        rfl
      · simp only [hbase, if_false]
        exact take_pushDown (by omega) id

theorem getD_of_ids {chain : ProtocolChain} {ids : List ℕ} (h : chain.ids = id :: ids) :
    chain.chainEntries.getD 0 0 = id := by
  obtain ⟨chainLen, chainEntries, hsize, hlen⟩ := chain
  change chainEntries.take chainLen = id :: ids at h
  rcases chainEntries with - | ⟨x, entries⟩
  · simp at h
  · rcases chainLen with - | n
    · simp at h
    · rw [List.take_succ_cons] at h
      exact (List.cons.inj h).1

theorem layerAll_forall₂ (h : layerAll P id es = some layers) :
    List.Forall₂ (fun e layer => layerOver P id e = some layer) es layers := by
  induction es generalizing layers with
  | nil =>
      obtain rfl := Option.some.inj h
      exact .nil
  | cons e es ih =>
      simp only [layerAll] at h
      split at h
      case h_2 => cases h
      case h_1 layer layers' hlayer hlayers =>
        obtain rfl := Option.some.inj h
        exact .cons hlayer (ih hlayers)

end Layer

/-! ## The installation -/

section Install
variable {W : Winsock} {P : Provider} {c c' : Catalog} {catalogIdArray : List ℕ}

/-- An installation that succeeds has layered over every element of its array, and the
entries behind the hidden one are these layers. -/
theorem installProvider_layers (hid : ∀ e ∈ c.protocolInfo, e.dwCatalogEntryId < c.nextId)
    (h : installProvider W P catalogIdArray c = some c') : ∃ first rest id layers,
      originalProtocolInfo c.protocolInfo catalogIdArray = first :: rest ∧
      layeredCatalogId P (c.wscInstallProvider P.providerGuid
        (dummyProtocolInfo P first)).protocolInfo = some id ∧
      layerAll P id (first :: rest) = some layers ∧
      (placed W 0 (c.nextId + 1) layers).Perm (newLayers c c') := by
  simp only [installProvider] at h
  split at h
  case h_1 => cases h
  case h_2 first rest horiginal =>
  split at h
  case h_1 => cases h
  case h_2 id hfound =>
  split at h
  case h_1 => cases h
  case h_2 layers hlayers =>
  obtain rfl := Option.some.inj h
  refine ⟨first, rest, id, layers, horiginal, hfound, horiginal ▸ hlayers, ?_⟩
  unfold newLayers
  refine List.Perm.trans ?_ ((W.writeOrder_perm _ _).filter _).symm
  rw [installLayers_protocolInfo]
  have hold : ((c.wscInstallProvider P.providerGuid (dummyProtocolInfo P first)).protocolInfo.filter
      fun e => c.nextId < e.dwCatalogEntryId) = [] := by
    rw [List.filter_eq_nil_iff]
    intro e he
    rcases List.mem_append.1 he with hmem | hlast
    · have hlt := hid e hmem
      simp only [decide_eq_true_eq]
      omega
    · obtain rfl := List.mem_singleton.1 hlast
      simp
  have hnew : ((placed W 0 (c.nextId + 1) layers).filter
      fun e => c.nextId < e.dwCatalogEntryId) = placed W 0 (c.nextId + 1) layers := by
    rw [List.filter_eq_self]
    intro e he
    have hle := (mem_placed he).2.1
    simp only [decide_eq_true_eq]
    omega
  rw [List.filter_append, hold, List.nil_append]
  exact List.Perm.of_eq hnew.symm

variable {dummyId id : ℕ} {es : List ProtocolInfo} {info : ProtocolInfo}

theorem exists_savedInfo (hmem : id ∈ es.map (·.dwCatalogEntryId)) :
    ∃ e ∈ es, e.dwCatalogEntryId = id ∧ savedInfo es id =
      some { e with dwServiceFlags1 := e.dwServiceFlags1 &&& ~~~xp1IfsHandles } := by
  obtain ⟨e₀, he₀, hid₀⟩ := List.mem_map.1 hmem
  have hsome : (es.find? fun e => e.dwCatalogEntryId = id).isSome := by
    rw [List.find?_isSome]
    exact ⟨e₀, he₀, by simpa using hid₀⟩
  obtain ⟨e, he⟩ := Option.isSome_iff_exists.1 hsome
  refine ⟨e, List.mem_of_find?_eq_some he, by simpa using List.find?_some he, ?_⟩
  rw [savedInfo, he]
  rfl

theorem filterMap_savedInfo (hall : ∀ id ∈ catalogIdArray, id ∈ es.map (·.dwCatalogEntryId)) :
    List.Forall₂ (fun id info => savedInfo es id = some info) catalogIdArray
      (catalogIdArray.filterMap (savedInfo es)) := by
  induction catalogIdArray with
  | nil => exact .nil
  | cons id ids ih =>
      obtain ⟨e, -, -, hsaved⟩ := exists_savedInfo (hall id List.mem_cons_self)
      rw [List.filterMap_cons_some hsaved]
      exact .cons hsaved (ih fun k hk => hall k (List.mem_cons_of_mem _ hk))

theorem originalProtocolInfo_eq (hall : ∀ id ∈ catalogIdArray, id ∈ es.map (·.dwCatalogEntryId)) :
    originalProtocolInfo es catalogIdArray = catalogIdArray.filterMap (savedInfo es) := by
  have hlength : (catalogIdArray.filterMap (savedInfo es)).length = catalogIdArray.length :=
    (filterMap_savedInfo hall).length_eq.symm
  rw [originalProtocolInfo, hlength, Nat.sub_self, List.replicate_zero, List.append_nil]

theorem layerFor_of_layerOver {layer : ProtocolInfo}
    (hsaved : savedInfo c.protocolInfo id = some info)
    (hlayer : layerOver P dummyId info = some layer) : LayerFor c dummyId id layer := by
  rw [savedInfo, Option.map_eq_some_iff] at hsaved
  obtain ⟨e, hfind, rfl⟩ := hsaved
  have hids := layerOver_ids hlayer
  exact ⟨e, List.mem_of_find?_eq_some hfind, by simpa using List.find?_some hfind, hids,
    layer.protocolChain.len_le⟩

theorem placed_forall₂ (n id : ℕ) (layers : List ProtocolInfo) :
    List.Forall₂ (fun layer p => p.protocolChain = layer.protocolChain) layers
      (placed W n id layers) := by
  induction layers generalizing n id with
  | nil => exact .nil
  | cons layer layers ih => exact .cons rfl (ih (n + 1) (id + 1))

theorem layerFor_placed {ids : List ℕ} {original layers : List ProtocolInfo} {n : ℕ}
    (hsaved : List.Forall₂ (fun id info => savedInfo c.protocolInfo id = some info) ids original)
    (hlayers : List.Forall₂ (fun e layer => layerOver P dummyId e = some layer) original layers) :
    List.Forall₂ (LayerFor c dummyId) ids (placed W n id layers) := by
  induction hsaved generalizing layers n id with
  | nil =>
      rcases hlayers with - | -
      exact .nil
  | cons hfirst _ ih =>
      rcases hlayers with - | ⟨hlayer, hrest⟩
      have hlayerFor := layerFor_of_layerOver hfirst hlayer
      exact .cons hlayerFor (ih hrest)

theorem ChainLaw.chainable (hid : ∀ e ∈ c.protocolInfo, e.dwCatalogEntryId < c.nextId)
    (hlaw : ChainLaw W P catalogIdArray c) : Chainable P catalogIdArray c := by
  obtain ⟨c', layers', hinstalled, hperm, hlayers'⟩ := hlaw
  obtain ⟨first, rest, dummyId, layers, horiginal, hfound, hlayers, hplaced⟩ :=
    installProvider_layers hid hinstalled
  have hcount : (first :: rest).length = catalogIdArray.length := by
    rw [← horiginal, originalProtocolInfo_length]
  have hmade := layerAll_forall₂ hlayers
  have hlength : layers'.length = catalogIdArray.length := by
    rw [(hperm.trans hplaced.symm).length_eq, ← (placed_forall₂ 0 (c.nextId + 1) layers).length_eq,
      ← hmade.length_eq, hcount]
  -- There are as many layers as elements, so every selected id is in the catalog.
  have hin : ∀ id ∈ catalogIdArray, id ∈ c.protocolInfo.map (·.dwCatalogEntryId) := by
    have hall : (selectedIds c catalogIdArray).length = catalogIdArray.length := by
      rw [hlayers'.length_eq, hlength]
    unfold selectedIds at hall
    intro id hmem
    simpa using List.length_filter_eq_length_iff.1 hall id hmem
  refine ⟨?_, ?_, ?_⟩
  · rintro rfl
    exact absurd hcount (by simp)
  · -- The layers have the id of the hidden entry, which is then the one that was found.
    rw [← layeredCatalogId_eq_nextId first hid, hfound]
    generalize selectedIds c catalogIdArray = ids at hlayers'
    rcases hlayers' with - | ⟨⟨e, -, -, hids, -⟩, -⟩
    · exact absurd (hlength.trans hcount.symm) (by simp)
    · rename_i layer rest' _
      have hlayer : layer ∈ placed W 0 (c.nextId + 1) layers :=
        (hperm.trans hplaced.symm).subset List.mem_cons_self
      obtain ⟨-, -, made, hmem, hchain⟩ := mem_placed hlayer
      have hheads := (layerAll_eq_some hlayers).2.1 made hmem
      rw [hchain] at hids
      rw [← hheads.head, getD_of_ids hids]
  · intro id hmem
    obtain ⟨e, he, hide, hsaved⟩ := exists_savedInfo (hin id hmem)
    refine ⟨e, he, hide, ?_⟩
    have hinfo : { e with dwServiceFlags1 := e.dwServiceFlags1 &&& ~~~xp1IfsHandles } ∈
        first :: rest := by
      rw [← horiginal, originalProtocolInfo]
      exact List.mem_append_left _ (List.mem_filterMap.2 ⟨id, hmem, hsaved⟩)
    have hfits := (layerAll_eq_some hlayers).1 _ hinfo
    exact hfits

theorem Chainable.fits (hchain : Chainable P catalogIdArray c)
    (hnodup : (c.protocolInfo.map (·.dwCatalogEntryId)).Nodup)
    (hinfo : info ∈ catalogIdArray.filterMap (savedInfo c.protocolInfo)) : Fits P info := by
  obtain ⟨id, hmem, hsaved⟩ := List.mem_filterMap.1 hinfo
  obtain ⟨e, he, hide, hfits⟩ := hchain.found id hmem
  rw [savedInfo, Option.map_eq_some_iff] at hsaved
  obtain ⟨e', hfind, rfl⟩ := hsaved
  have hide' : e'.dwCatalogEntryId = id := by simpa using List.find?_some hfind
  have hsame : e' = e :=
    List.inj_on_of_nodup_map hnodup (List.mem_of_find?_eq_some hfind) he (hide'.trans hide.symm)
  subst hsame
  exact hfits

theorem Chainable.installed (hchain : Chainable P catalogIdArray c)
    (hnodup : (c.protocolInfo.map (·.dwCatalogEntryId)).Nodup)
    (hid : ∀ e ∈ c.protocolInfo, e.dwCatalogEntryId < c.nextId)
    (hall : originalProtocolInfo c.protocolInfo catalogIdArray =
      catalogIdArray.filterMap (savedInfo c.protocolInfo)) :
    ∃ c', installProvider W P catalogIdArray c = some c' := by
  obtain ⟨layers, hlayers⟩ : ∃ layers, layerAll P c.nextId
      (originalProtocolInfo c.protocolInfo catalogIdArray) = some layers := by
    refine layerAll_of_fits fun info hinfo => ?_
    rw [hall] at hinfo
    exact hchain.fits hnodup hinfo
  rcases horiginal : originalProtocolInfo c.protocolInfo catalogIdArray with - | ⟨first, rest⟩
  · exact absurd horiginal (original_ne_nil hchain.selected)
  · have hfound := (layeredCatalogId_eq_nextId (P := P) first hid).2 hchain.absent
    rw [horiginal] at hlayers
    simp only [installProvider, horiginal, hfound, hlayers]
    exact ⟨_, rfl⟩

end Install

/-- The chains are as they should be exactly if something is selected, the provider is not in
the catalog yet, and every selected id is, with a name and a chain that have room. -/
theorem chain_law_iff (W : Winsock) (P : Provider) (catalogIdArray : List ℕ) (c : Catalog)
    (hnodup : (c.protocolInfo.map (·.dwCatalogEntryId)).Nodup)
    (hid : ∀ e ∈ c.protocolInfo, e.dwCatalogEntryId < c.nextId) :
    ChainLaw W P catalogIdArray c ↔ Chainable P catalogIdArray c := by
  refine ⟨ChainLaw.chainable hid, ?_⟩
  intro hchain
  have hin : ∀ id ∈ catalogIdArray, id ∈ c.protocolInfo.map (·.dwCatalogEntryId) := by
    intro id hmem
    obtain ⟨e, he, rfl, -⟩ := hchain.found id hmem
    exact List.mem_map_of_mem he
  have hselected : selectedIds c catalogIdArray = catalogIdArray := by
    rw [selectedIds, List.filter_eq_self]
    intro id hmem
    simpa using hin id hmem
  have hsaved := filterMap_savedInfo hin
  obtain ⟨c', hinstalled⟩ :=
    hchain.installed (W := W) hnodup hid (originalProtocolInfo_eq hin)
  obtain ⟨first, rest, dummyId, layers, horiginal, hfound, hlayers, hplaced⟩ :=
    installProvider_layers hid hinstalled
  obtain rfl : c.nextId = dummyId := by
    rw [(layeredCatalogId_eq_nextId first hid).2 hchain.absent] at hfound
    exact Option.some.inj hfound
  rw [← originalProtocolInfo_eq hin, horiginal] at hsaved
  refine ⟨c', placed W 0 (c.nextId + 1) layers, hinstalled, hplaced, ?_⟩
  rw [hselected]
  exact layerFor_placed hsaved (layerAll_forall₂ hlayers)

/-- Over the base protocol and over the other vendor's layer. -/
theorem chain_law_iff_layers : ChainLaw .counting ⟨9, [108]⟩ [1, 3] layeredCatalog := by
  refine (chain_law_iff .counting ⟨9, [108]⟩ [1, 3] layeredCatalog (by decide) (by decide)).2
    ⟨by decide, by decide, ?_⟩
  intro id hid
  simp only [List.mem_cons, List.not_mem_nil, or_false] at hid
  rcases hid with rfl | rfl
  · exact ⟨entry 1 1 [1] (by decide), by decide, rfl, by decide, by decide⟩
  · exact ⟨entry 3 3 [2, 1] (by decide), by decide, rfl, by decide, by decide⟩

/-- Over the base protocol and an id that is not in the catalog, which gets a layer as
well. -/
theorem not_chain_law_unknown : ¬ChainLaw .counting ⟨9, [108]⟩ [1, 77] layeredCatalog := by
  rintro ⟨c', layers, hinstalled, hperm, hlayers⟩
  have hcount : (installProvider .counting ⟨9, [108]⟩ [1, 77] layeredCatalog).map
      (fun c' => (newLayers layeredCatalog c').length) = some 2 := by
    decide
  rw [hinstalled] at hcount
  have hnew : (newLayers layeredCatalog c').length = 2 := Option.some.inj hcount
  have hselected : (selectedIds layeredCatalog [1, 77]).length = 1 := by decide
  rw [hlayers.length_eq, hperm.length_eq, hnew] at hselected
  exact absurd hselected (by decide)

end MiscProjects.Installer
