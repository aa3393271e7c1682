import Mathlib.Data.List.Basic
import Mathlib.Data.List.Nodup
import Mathlib.Data.List.Perm.Basic

/-!
# Arrays that fill a hole with their last element

Removing an element moves the last one into its place.  A reader that goes
through the array with an index has passed the elements below the index and
has the others ahead of it; the only element that a removal can move past the
reader is the last one.
-/

namespace MiscProjects.SwapRemove

variable {α : Type*}

/-- Remove the element at `i`: the last one takes its place. -/
def swapRemove (l : List α) (i : ℕ) : List α :=
  match l.getLast? with
  | none => []
  | some last => (l.set i last).dropLast

/-- The element has an index below `k`. -/
def Passed (l : List α) (k : ℕ) (x : α) : Prop := ∃ j < k, l[j]? = some x

/-- The element has an index from `k` on. -/
def Ahead (l : List α) (k : ℕ) (x : α) : Prop := ∃ j, k ≤ j ∧ l[j]? = some x

variable {l : List α} {i j k : ℕ} {x y : α}

/-- What stands at an index after a removal stood there before, or is the last
element and stands in the hole. -/
theorem getElem?_swapRemove (h : (swapRemove l i)[j]? = some x) : j + 1 < l.length ∧
      (j ≠ i ∧ l[j]? = some x ∨ j = i ∧ l.getLast? = some x) := by
  unfold swapRemove at h
  split at h
  next => simp at h
  next last hlast =>
    rw [List.getElem?_dropLast, List.length_set] at h
    split at h
    next hj =>
      refine ⟨by omega, ?_⟩
      rw [List.getElem?_set] at h
      split at h
      next hij =>
        rw [if_pos (by omega)] at h
        exact .inr ⟨hij.symm, by rw [hlast, h]⟩
      next hij => exact .inl ⟨fun heq => hij heq.symm, h⟩
    next => cases h

/-- Up to the order, a removal is a removal. -/
theorem swapRemove_perm (hi : i < l.length) : (swapRemove l i).Perm (l.eraseIdx i) := by
  unfold swapRemove
  split
  next hlast =>
    rw [List.getLast?_eq_none_iff] at hlast
    simp [hlast] at hi
  next last hlast =>
    obtain ⟨init, rfl⟩ := List.getLast?_eq_some_iff.mp hlast
    rw [List.length_append, List.length_singleton] at hi
    by_cases hlt : i < init.length
    · rw [List.set_append_left _ _ hlt, List.dropLast_concat, List.eraseIdx_append_of_lt_length hlt]
      exact (List.set_perm_cons_eraseIdx hlt last).trans (List.perm_append_singleton last _).symm
    · have heq : i = init.length := by omega
      rw [heq, List.set_append_right _ _ (Nat.le_refl _),
        List.eraseIdx_append_of_length_le (Nat.le_refl _)]
      simp

/-- An element at another index is still there. -/
theorem mem_swapRemove_of_ne (hi : i < l.length) (hj : l[j]? = some x)
    (hne : j ≠ i) : x ∈ swapRemove l i := by
  refine (swapRemove_perm hi).mem_iff.mpr ?_
  exact List.mem_eraseIdx_iff_getElem?.mpr ⟨j, hne, hj⟩

/-- The elements left are elements of the array. -/
theorem mem_of_mem_swapRemove (h : x ∈ swapRemove l i) : x ∈ l := by
  obtain ⟨j, hj⟩ := List.getElem?_of_mem h
  rcases (getElem?_swapRemove hj).2 with ⟨-, hget⟩ | ⟨-, hlast⟩
  · exact List.mem_of_getElem? hget
  · exact List.mem_of_getLast? hlast

theorem nodup_swapRemove (hi : i < l.length) (h : l.Nodup) : (swapRemove l i).Nodup :=
  (swapRemove_perm hi).nodup_iff.mpr (h.eraseIdx i)

theorem map_swapRemove {β : Type*} (f : α → β) (l : List α) (i : ℕ) :
    (swapRemove l i).map f = swapRemove (l.map f) i := by
  unfold swapRemove
  rw [List.getLast?_map]
  cases l.getLast? with
  | none => rfl
  | some last => simp [List.map_dropLast, List.map_set]

/-! ## A reader of the array -/

theorem passed_or_ahead (hx : x ∈ l) (k : ℕ) : Passed l k x ∨ Ahead l k x := by
  obtain ⟨j, hj⟩ := List.getElem?_of_mem hx
  rcases Nat.lt_or_ge j k with hlt | hle
  · exact .inl ⟨j, hlt, hj⟩
  · exact .inr ⟨j, hle, hj⟩

/-- What is ahead of the reader after a removal was ahead before. -/
theorem Ahead.of_swapRemove (h : Ahead (swapRemove l i) k x) : Ahead l k x := by
  obtain ⟨j, hj, hget⟩ := h
  obtain ⟨hlt, ⟨-, hget'⟩ | ⟨-, hlast⟩⟩ := getElem?_swapRemove hget
  · exact ⟨j, hj, hget'⟩
  · rw [List.getLast?_eq_getElem?] at hlast
    exact ⟨l.length - 1, by omega, hlast⟩

/-- What the reader has passed after a removal it had passed before, unless it
is the last element, ahead of the reader, and has been moved behind it. -/
theorem Passed.of_swapRemove (h : Passed (swapRemove l i) k x)
    (hkeep : ¬ (i < k ∧ k < l.length ∧ l.getLast? = some x)) : Passed l k x := by
  obtain ⟨j, hj, hget⟩ := h
  obtain ⟨hlt, ⟨-, hget'⟩ | ⟨rfl, hlast⟩⟩ := getElem?_swapRemove hget
  · exact ⟨j, hj, hget'⟩
  · have hge : l.length ≤ k := by
      by_contra hlt'
      exact hkeep ⟨hj, by omega, hlast⟩
    rw [List.getLast?_eq_getElem?] at hlast
    exact ⟨l.length - 1, by omega, hlast⟩

/-- An old element stands where it stood before another was appended. -/
theorem getElem?_of_append (h : (l ++ [y])[j]? = some x) (hx : x ≠ y) : l[j]? = some x := by
  rw [List.getElem?_append] at h
  split at h
  · exact h
  · rw [List.getElem?_singleton] at h
    split at h
    · exact absurd (Option.some.inj h).symm hx
    · cases h

theorem Passed.of_append (h : Passed (l ++ [y]) k x) (hx : x ≠ y) : Passed l k x :=
  let ⟨j, hj, hget⟩ := h
  ⟨j, hj, getElem?_of_append hget hx⟩

theorem Ahead.of_append (h : Ahead (l ++ [y]) k x) (hx : x ≠ y) : Ahead l k x :=
  let ⟨j, hj, hget⟩ := h
  ⟨j, hj, getElem?_of_append hget hx⟩

end MiscProjects.SwapRemove
