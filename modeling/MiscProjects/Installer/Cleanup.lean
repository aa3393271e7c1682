import MiscProjects.Installer.Catalog
import MiscProjects.Library.Loops
import Mathlib.Data.Finset.Card
import Mathlib.Data.Finset.Dedup
import Mathlib.Data.List.Count
import Mathlib.Data.List.Range

/-!
# Removing all layered entries

`RemoveAllLayeredEntries` reads the catalog in every round, deinstalls the first entry that is
not a base protocol and starts again, whether the deinstallation has succeeded or not.  An entry
that cannot be removed stays the first one, so the loop tries it until it succeeds or the catalog
cannot be read any more.
-/

namespace MiscProjects.Installer

open Loops

/-- The answers from outside the repository: whether the catalog can be read in a round, and
whether `WSCDeinstallProvider` succeeds in it. -/
structure CleanupAnswers where
  getProviders : ℕ → Bool
  deinstalled : ℕ → Bool

/-- The catalog, the number of rounds so far, and the calls of `WSCDeinstallProvider` in them
with their success, the last one first. -/
structure Cleanup where
  catalog : Catalog
  round : ℕ
  tried : List (GUID × Bool)
deriving DecidableEq

def Cleanup.start (c : Catalog) : Cleanup := ⟨c, 0, []⟩

/-- The chain is not that of a base protocol. -/
def isNotBase (e : ProtocolInfo) : Bool := e.protocolChain.chainLen ≠ baseProtocol

/-- One round of the loop; `none` where the function returns or breaks off. -/
def cleanupRound (o : CleanupAnswers) (s : Cleanup) : Option Cleanup :=
  if o.getProviders s.round then
    (s.catalog.protocolInfo.find? isNotBase).map fun e =>
      { catalog :=
          if o.deinstalled s.round then s.catalog.wscDeinstallProvider e.providerId else s.catalog
        round := s.round + 1
        tried := (e.providerId, o.deinstalled s.round) :: s.tried }
  else none

/-- `RemoveAllLayeredEntries`, in at most `fuel` rounds. -/
def removeAllLayeredEntries (o : CleanupAnswers) (fuel : ℕ) (c : Catalog) : Option Cleanup :=
  loop (cleanupRound o) fuel (.start c)

/-- Every entry that is not a base protocol has been removed, or its removal has been tried and
has failed. -/
def Settled (c : Catalog) (t : Cleanup) : Prop :=
  ∀ e ∈ c.protocolInfo, isNotBase e = true →
    e ∉ t.catalog.protocolInfo ∨ (e.providerId, false) ∈ t.tried

/-- The function ends, with everything settled. -/
def CleansUp (o : CleanupAnswers) (c : Catalog) : Prop :=
  ∃ fuel t, removeAllLayeredEntries o fuel c = some t ∧ Settled c t

/-! ## What is left to do -/

/-- The GUIDs of the entries that are not base protocols. -/
def Catalog.layers (c : Catalog) : Finset GUID :=
  ((c.protocolInfo.filter isNotBase).map (·.providerId)).toFinset

/-- The number of removals that succeed in the first `n` rounds. -/
def CleanupAnswers.removals (o : CleanupAnswers) (n : ℕ) : ℕ :=
  (List.range n).countP o.deinstalled

/-- For some number of rounds the catalog can be read, and in them as many removals succeed as
there are GUIDs to remove; or one less, the last one fails and the catalog cannot be read
afterwards. -/
def CleanupAnswers.Suffice (o : CleanupAnswers) (c : Catalog) : Prop :=
  ∃ n, (∀ i < n, o.getProviders i = true) ∧
    (o.removals n = c.layers.card ∨
      o.getProviders n = false ∧ 0 < n ∧ o.deinstalled (n - 1) = false ∧
        o.removals n + 1 = c.layers.card)

section Layers
variable {c : Catalog} {e : ProtocolInfo} {guid : GUID} {o : CleanupAnswers}

theorem mem_layers :
    guid ∈ c.layers ↔ ∃ e ∈ c.protocolInfo, isNotBase e = true ∧ e.providerId = guid := by
  simp [Catalog.layers, and_assoc]

theorem layers_deinstall (guid : GUID) (c : Catalog) :
    (c.wscDeinstallProvider guid).layers = c.layers.erase guid := by
  ext guid'
  rw [Finset.mem_erase, mem_layers, mem_layers]
  constructor
  · rintro ⟨e, hmem, he, rfl⟩
    obtain ⟨hmem, hne⟩ := List.mem_filter.mp hmem
    exact ⟨by simpa using hne, e, hmem, he, rfl⟩
  · rintro ⟨hne, e, hmem, he, rfl⟩
    exact ⟨e, List.mem_filter.mpr ⟨hmem, by simpa using hne⟩, he, rfl⟩

theorem find?_eq_none_iff_layers : c.protocolInfo.find? isNotBase = none ↔ c.layers = ∅ := by
  rw [List.find?_eq_none, Finset.eq_empty_iff_forall_notMem]
  constructor
  · intro hnone guid hguid
    obtain ⟨e, hmem, he, -⟩ := mem_layers.mp hguid
    exact hnone e hmem he
  · intro hempty e hmem he
    exact hempty e.providerId (mem_layers.mpr ⟨e, hmem, he, rfl⟩)

theorem mem_layers_of_find? (h : c.protocolInfo.find? isNotBase = some e) :
    e.providerId ∈ c.layers :=
  mem_layers.mpr ⟨e, List.mem_of_find?_eq_some h, List.find?_some h, rfl⟩

theorem removals_succ (o : CleanupAnswers) (n : ℕ) :
    o.removals (n + 1) = o.removals n + if o.deinstalled n then 1 else 0 := by
  rw [CleanupAnswers.removals, CleanupAnswers.removals, List.range_succ, List.countP_append,
    List.countP_singleton]

end Layers

/-! ## One round -/

section Rounds
variable {o : CleanupAnswers} {c : Catalog} {s t : Cleanup} {e : ProtocolInfo}

theorem cleanupRound_cases (h : cleanupRound o s = some t) :
    o.getProviders s.round = true ∧ ∃ e, s.catalog.protocolInfo.find? isNotBase = some e ∧
      t = { catalog :=
              if o.deinstalled s.round then s.catalog.wscDeinstallProvider e.providerId
              else s.catalog
            round := s.round + 1
            tried := (e.providerId, o.deinstalled s.round) :: s.tried } := by
  rw [cleanupRound] at h
  split at h
  case isFalse => cases h
  case isTrue hread =>
    obtain ⟨e, he, rfl⟩ := Option.map_eq_some_iff.mp h
    exact ⟨hread, e, he, rfl⟩

theorem cleanupRound_eq_none_iff :
    cleanupRound o s = none ↔ o.getProviders s.round = false ∨ s.catalog.layers = ∅ := by
  rw [← find?_eq_none_iff_layers, cleanupRound]
  by_cases hread : o.getProviders s.round = true
  · rw [if_pos hread, Option.map_eq_none_iff]
    simp [hread]
  · rw [if_neg hread]
    simp [hread]

/-- What holds before every round, for the catalog `c` at the beginning: of the GUIDs that are
left, only the one that comes first can have been tried, and it has if the last round has
failed. -/
structure CleanupInv (o : CleanupAnswers) (c : Catalog) (s : Cleanup) : Prop where
  entries : ∀ e ∈ s.catalog.protocolInfo, e ∈ c.protocolInfo
  reads : ∀ i < s.round, o.getProviders i = true
  removed : o.removals s.round + s.catalog.layers.card = c.layers.card
  failed : ∀ guid ∈ s.catalog.layers, (guid, false) ∈ s.tried ↔
    0 < s.round ∧ o.deinstalled (s.round - 1) = false ∧
      (s.catalog.protocolInfo.find? isNotBase).map (·.providerId) = some guid

theorem cleanupInv_start (o : CleanupAnswers) (c : Catalog) : CleanupInv o c (.start c) where
  entries _ h := h
  reads i hi := absurd hi (Nat.not_lt_zero i)
  removed := by simp [CleanupAnswers.removals, Cleanup.start]
  failed guid _ := by simp [Cleanup.start]

theorem CleanupInv.round (h : CleanupInv o c s) (hround : cleanupRound o s = some t) :
    CleanupInv o c t := by
  obtain ⟨hread, e, he, rfl⟩ := cleanupRound_cases hround
  have hreads : ∀ i < s.round + 1, o.getProviders i = true := by
    intro i hi
    rcases Nat.lt_succ_iff_lt_or_eq.mp hi with hlt | rfl
    · exact h.reads i hlt
    · exact hread
  have hmem := mem_layers_of_find? he
  by_cases hdone : o.deinstalled s.round = true
  · simp only [hdone, if_true]
    refine ⟨?_, hreads, ?_, ?_⟩
    · intro e' he'
      exact h.entries e' (List.mem_filter.mp he').1
    · have hcard := Finset.card_erase_add_one hmem
      have hremoved := h.removed
      rw [layers_deinstall, removals_succ, if_pos hdone]
      omega
    · intro guid hguid
      rw [layers_deinstall, Finset.mem_erase] at hguid
      obtain ⟨hne, hguid⟩ := hguid
      -- Of the GUIDs left before the round only the first could have been tried.
      have hold : (guid, false) ∉ s.tried := by
        intro htried
        obtain ⟨-, -, hfirst⟩ := (h.failed guid hguid).mp htried
        rw [he] at hfirst
        exact hne (Option.some.inj hfirst).symm
      simp [hold, hdone]
  · have hfail : o.deinstalled s.round = false := by simpa using hdone
    simp only [hfail, Bool.false_eq_true, if_false]
    refine ⟨h.entries, hreads, ?_, ?_⟩
    · rw [removals_succ, if_neg hdone]
      exact h.removed
    · intro guid hguid
      have hold := h.failed guid hguid
      rw [he] at hold ⊢
      simp only [Option.map_some, Option.some.injEq] at hold ⊢
      rw [List.mem_cons, hold]
      simp only [Prod.mk.injEq, and_true, Nat.succ_pos, Nat.add_sub_cancel, hfail, true_and]
      constructor
      · rintro (rfl | ⟨-, -, hfirst⟩)
        · rfl
        · exact hfirst
      · intro hfirst
        exact .inl hfirst.symm

/-! ## The whole loop -/

/-- Where the loop is left everything is settled exactly if nothing is left, or one GUID that the
last round has failed to remove. -/
theorem CleanupInv.settled_iff (h : CleanupInv o c s) : Settled c s ↔ s.catalog.layers = ∅ ∨
      0 < s.round ∧ o.deinstalled (s.round - 1) = false ∧ s.catalog.layers.card = 1 := by
  have htried : Settled c s ↔ ∀ guid ∈ s.catalog.layers, (guid, false) ∈ s.tried := by
    constructor
    · intro hsettled guid hguid
      obtain ⟨e, hmem, he, rfl⟩ := mem_layers.mp hguid
      rcases hsettled e (h.entries e hmem) he with hgone | hfailed
      · exact absurd hmem hgone
      · exact hfailed
    · intro htried e _ he
      by_cases hmem : e ∈ s.catalog.protocolInfo
      · exact .inr (htried e.providerId (mem_layers.mpr ⟨e, hmem, he, rfl⟩))
      · exact .inl hmem
  rw [htried]
  rcases hfirst : s.catalog.protocolInfo.find? isNotBase with _ | e
  · have hempty := find?_eq_none_iff_layers.mp hfirst
    simp [hempty]
  · have hmem := mem_layers_of_find? hfirst
    have hnonempty : s.catalog.layers ≠ ∅ := Finset.ne_empty_of_mem hmem
    have hfailed := h.failed
    rw [hfirst] at hfailed
    simp only [Option.map_some, Option.some.injEq] at hfailed
    rw [Finset.card_eq_one]
    constructor
    · intro hall
      obtain ⟨hround, hlast, -⟩ := (hfailed _ hmem).mp (hall _ hmem)
      refine .inr ⟨hround, hlast, e.providerId, ?_⟩
      rw [Finset.eq_singleton_iff_unique_mem]
      refine ⟨hmem, ?_⟩
      intro guid hguid
      exact ((hfailed guid hguid).mp (hall guid hguid)).2.2.symm
    · rintro (hempty | ⟨hround, hlast, guid, hsingle⟩)
      · exact absurd hempty hnonempty
      · intro guid' hguid'
        refine (hfailed guid' hguid').mpr ⟨hround, hlast, ?_⟩
        rw [hsingle, Finset.mem_singleton] at hmem hguid'
        rw [hmem, hguid']

theorem cleansUp_iff_leftIn :
    CleansUp o c ↔ ∃ t, LeftIn (cleanupRound o) (.start c) t ∧ Settled c t := by
  constructor
  · rintro ⟨fuel, t, hleft, hsettled⟩
    exact ⟨t, ⟨fuel, hleft⟩, hsettled⟩
  · rintro ⟨t, ⟨fuel, hleft⟩, hsettled⟩
    exact ⟨fuel, t, hleft, hsettled⟩

theorem CleanupInv.round_lt (h : CleanupInv o c s) {n : ℕ}
    (hstop : o.getProviders n = false ∨ o.removals n = c.layers.card) (hle : s.round ≤ n)
    (hround : cleanupRound o s = some t) : s.round < n := by
  obtain ⟨hread, e, he, -⟩ := cleanupRound_cases hround
  refine Nat.lt_of_le_of_ne hle ?_
  rintro rfl
  rcases hstop with hstop | hstop
  · rw [hstop] at hread
    cases hread
  · have hremoved := h.removed
    have hempty : s.catalog.layers.card = 0 := by omega
    rw [Finset.card_eq_zero] at hempty
    exact absurd (mem_layers_of_find? he) (by simp [hempty])

/-- `RemoveAllLayeredEntries` ends with everything settled exactly if the removals that succeed
while the catalog can be read are as many as there are GUIDs to remove, or one less and the last
one fails before the catalog cannot be read. -/
theorem cleansUp_iff (o : CleanupAnswers) (c : Catalog) : CleansUp o c ↔ o.Suffice c := by
  rw [cleansUp_iff_leftIn]
  constructor
  · rintro ⟨t, hleft, hsettled⟩
    obtain ⟨hinv, hlast⟩ := hleft.invariant (CleanupInv o c) (cleanupInv_start o c)
      fun _ _ hs hround => hs.round hround
    have hremoved := hinv.removed
    refine ⟨t.round, hinv.reads, ?_⟩
    by_cases hempty : t.catalog.layers = ∅
    · rw [hempty, Finset.card_empty, Nat.add_zero] at hremoved
      exact .inl hremoved
    · rcases cleanupRound_eq_none_iff.mp hlast with hread | hnone
      · rcases hinv.settled_iff.mp hsettled with hnone | ⟨hround, hfail, hone⟩
        · exact absurd hnone hempty
        · rw [hone] at hremoved
          exact .inr ⟨hread, hround, hfail, hremoved⟩
      · exact absurd hnone hempty
  · rintro ⟨n, hreads, henough⟩
    have hstop : o.getProviders n = false ∨ o.removals n = c.layers.card := by
      rcases henough with henough | ⟨hread, -⟩
      · exact .inr henough
      · exact .inl hread
    -- Every round up to the `n`-th brings it closer.
    obtain ⟨t, hleft, ⟨hinv, hle⟩, hlast⟩ := exists_leftIn
      (fun s => CleanupInv o c s ∧ s.round ≤ n) (fun s => n - s.round)
      ⟨cleanupInv_start o c, Nat.zero_le n⟩ (by
        rintro s t ⟨hs, hle⟩ hround
        have hlt := hs.round_lt hstop hle hround
        have hnext : t.round = s.round + 1 := by
          obtain ⟨-, e, -, rfl⟩ := cleanupRound_cases hround
          rfl
        exact ⟨⟨hs.round hround, by omega⟩, by omega⟩)
    refine ⟨t, hleft, hinv.settled_iff.mpr ?_⟩
    rcases cleanupRound_eq_none_iff.mp hlast with hread | hnone
    · -- The catalog could be read in every round before the `n`-th.
      have hn : t.round = n := by
        refine Nat.le_antisymm hle (Nat.le_of_not_lt fun hlt => ?_)
        rw [hreads t.round hlt] at hread
        cases hread
      have hremoved := hinv.removed
      rw [hn] at hremoved
      rcases henough with henough | ⟨-, hround, hfail, henough⟩
      · have hempty : t.catalog.layers.card = 0 := by omega
        exact .inl (Finset.card_eq_zero.mp hempty)
      · rw [hn]
        exact .inr ⟨hround, hfail, by omega⟩
    · exact .inl hnone

/-- One layered entry whose removal always fails. -/
theorem not_cleansUp_failing :
    ¬∀ (o : CleanupAnswers) (c : Catalog), (∀ n, o.getProviders n = true) → CleansUp o c := by
  intro hall
  let c : Catalog := ⟨[ProtocolInfo.zero], 1⟩
  have hcleans := hall ⟨fun _ => true, fun _ => false⟩ c fun _ => rfl
  obtain ⟨t, hleft, -⟩ := cleansUp_iff_leftIn.mp hcleans
  obtain ⟨hcatalog, hlast⟩ := hleft.invariant (fun s => s.catalog = c) rfl (by
    intro s t hs hround
    obtain ⟨-, e, -, rfl⟩ := cleanupRound_cases hround
    exact hs)
  rcases cleanupRound_eq_none_iff.mp hlast with hread | hempty
  · cases hread
  · rw [hcatalog] at hempty
    exact absurd hempty (by decide)

end Rounds

end MiscProjects.Installer
