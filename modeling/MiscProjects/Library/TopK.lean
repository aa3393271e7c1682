import Mathlib.Data.List.Perm.Basic
import Mathlib.Order.Lattice

/-!
# The best of a pool

A list holds the best `k` elements of a pool by their scores: as many as there are, but at
most `k`, in non-increasing order, and what is left out is not better.  Sorting the pool and
cutting it off leads to such a list.  A list that is the best of a part of the pool is the
best of the whole if and only if each of the others has enough betters in the part.
-/

namespace MiscProjects.TopK

variable {α β K : Type*} [LinearOrder K] {k : ℕ} {score : α → K} {pool pool' result : List α}

structure IsTop (k : ℕ) (score : α → K) (pool result : List α) : Prop where
  length : result.length = min k pool.length
  /-- What is left out is not better. -/
  best : ∃ rest, (result ++ rest).Perm pool ∧ ∀ a ∈ result, ∀ b ∈ rest, score b ≤ score a
  sorted : result.Pairwise fun a b => score b ≤ score a

theorem IsTop.mem {a : α} (h : IsTop k score pool result) (ha : a ∈ result) : a ∈ pool := by
  obtain ⟨rest, hperm, -⟩ := h.best
  exact hperm.subset (List.mem_append_left rest ha)

theorem IsTop.perm (h : IsTop k score pool result) (hperm : pool.Perm pool') :
    IsTop k score pool' result where
  length := h.length.trans (by rw [hperm.length_eq])
  best := by
    obtain ⟨rest, hrest, hbest⟩ := h.best
    exact ⟨rest, hrest.trans hperm, hbest⟩
  sorted := h.sorted

/-- The scores may be taken of something that is made of the elements. -/
theorem IsTop.map {score' : β → K} {f : α → β} (h : IsTop k score pool result)
    (hscore : ∀ a ∈ pool, score a = score' (f a)) : IsTop k score' (pool.map f) (result.map f) := by
  obtain ⟨rest, hperm, hbest⟩ := h.best
  have hresult : ∀ a ∈ result, score a = score' (f a) := fun a ha => hscore a (h.mem ha)
  have hrest : ∀ b ∈ rest, score b = score' (f b) := fun b hb =>
    hscore b (hperm.subset (List.mem_append_right result hb))
  constructor
  · rw [List.length_map, List.length_map]
    exact h.length
  · refine ⟨rest.map f, ?_, ?_⟩
    · rw [← List.map_append]
      exact hperm.map f
    · intro a ha b hb
      obtain ⟨a', ha', rfl⟩ := List.mem_map.mp ha
      obtain ⟨b', hb', rfl⟩ := List.mem_map.mp hb
      rw [← hresult a' ha', ← hrest b' hb']
      exact hbest a' ha' b' hb'
  · rw [List.pairwise_map]
    apply h.sorted.imp_of_mem
    intro a b ha hb hle
    rwa [← hresult a ha, ← hresult b hb]

/-- Sorting by non-increasing score and cutting off behind `k` elements. -/
theorem isTop_take_mergeSort {le : α → α → Bool}
    (hle : ∀ a ∈ pool, ∀ b ∈ pool, le a b = decide (score b ≤ score a)) :
    IsTop k score pool ((pool.mergeSort le).take k) := by
  have hsame : pool.mergeSort le = pool.mergeSort fun a b => decide (score b ≤ score a) := by
    have hmap := List.map_mergeSort (f := id) (s := fun a b => decide (score b ≤ score a)) hle
    rwa [List.map_id, List.map_id] at hmap
  have hsorted : (pool.mergeSort le).Pairwise fun a b => score b ≤ score a := by
    have hpairwise : (pool.mergeSort fun a b => decide (score b ≤ score a)).Pairwise _ :=
      List.pairwise_mergeSort (fun a b c hab hbc => by
        rw [decide_eq_true_eq] at hab hbc ⊢
        exact le_trans hbc hab)
      (fun a b => by
        rw [Bool.or_eq_true, decide_eq_true_eq, decide_eq_true_eq]
        exact le_total _ _) pool
    rw [hsame]
    exact hpairwise.imp fun hab => of_decide_eq_true hab
  have hparts := List.take_append_drop k (pool.mergeSort le)
  constructor
  · rw [List.length_take, List.length_mergeSort]
  · refine ⟨(pool.mergeSort le).drop k, ?_, ?_⟩
    · rw [hparts]
      exact List.mergeSort_perm pool le
    · rw [← hparts, List.pairwise_append] at hsorted
      exact hsorted.2.2
  · exact hsorted.sublist (List.take_sublist k _)

/-- The best of a part of the pool is the best of the whole if and only if, for each of the
other elements, at least `k` elements of the part are not worse. -/
theorem IsTop.of_part_iff {part : α → Bool} (h : IsTop k score (pool.filter part) result) :
    IsTop k score pool result ↔
      ∀ a ∈ pool, part a = false → k ≤ (pool.filter part).countP fun b => score a ≤ score b := by
  obtain ⟨rest, hperm, hbest⟩ := h.best
  constructor
  · intro hwhole a ha hpart
    obtain ⟨others, hothers, hworse⟩ := hwhole.best
    have hmem : a ∈ others := by
      refine (List.mem_append.mp (hothers.mem_iff.mpr ha)).resolve_left fun hresult => ?_
      rw [(List.mem_filter.mp (h.mem hresult)).2] at hpart
      cases hpart
    have hall : result.countP (fun b => score a ≤ score b) = result.length := by
      rw [List.countP_eq_length]
      exact fun b hb => decide_eq_true (hworse b hb a hmem)
    have hlength := hothers.length_eq
    have hpos := List.length_pos_of_mem hmem
    have hcut := hwhole.length
    rw [List.length_append] at hlength
    rw [← hperm.countP_eq, List.countP_append, hall]
    omega
  · intro hothers
    have hsplit : (result ++ (rest ++ pool.filter fun a => !part a)).Perm pool := by
      rw [← List.append_assoc]
      exact (hperm.append_right _).trans (List.filter_append_perm part pool)
    constructor
    · by_cases hnone : ∀ a ∈ pool, part a = true
      · have hlength := h.length
        rwa [List.filter_eq_self.mpr hnone] at hlength
      · push Not at hnone
        obtain ⟨a, ha, hpart⟩ := hnone
        have hle := Nat.le_trans (hothers a ha (by simpa using hpart)) List.countP_le_length
        have hpool : (pool.filter part).length ≤ pool.length := List.length_filter_le _ _
        rw [h.length]
        omega
    · refine ⟨_, hsplit, fun b hb a ha => ?_⟩
      rcases List.mem_append.mp ha with ha | ha
      · exact hbest b hb a ha
      · rw [List.mem_filter] at ha
        -- otherwise the betters are some of the list, and its element `b` is none of them
        by_contra hlt
        rw [not_le] at hlt
        have hmany := hothers a ha.1 (by simpa using ha.2)
        have hnorest : rest.countP (fun c => score a ≤ score c) = 0 := by
          rw [List.countP_eq_zero]
          intro c hc hle
          exact absurd (le_trans (of_decide_eq_true hle) (hbest b hb c hc)) (not_le.mpr hlt)
        have hfew : result.countP (fun c => score a ≤ score c) < result.length := by
          refine Nat.lt_of_le_of_ne List.countP_le_length fun hall => ?_
          rw [List.countP_eq_length] at hall
          exact absurd (of_decide_eq_true (hall b hb)) (not_le.mpr hlt)
        have hlength := h.length
        rw [← hperm.countP_eq, List.countP_append, hnorest] at hmany
        omega
    · exact h.sorted

end MiscProjects.TopK
