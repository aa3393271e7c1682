import Mathlib.Algebra.BigOperators.Ring.Finset
import Mathlib.Algebra.Order.BigOperators.Group.Finset

/-!
# Counting what is in a table

The weights of the first `n` entries of a table are added up; an entry that is
replaced changes the sum by the difference of two weights.
-/

namespace MiscProjects.Tally

open Function (update update_self update_of_ne)

variable {α : Type*} {w : α → ℤ} {f f' : ℕ → α} {k m n : ℕ} {v : α}

/-- The weight of the entries below `n`. -/
def tally (w : α → ℤ) (f : ℕ → α) (n : ℕ) : ℤ :=
  ∑ x ∈ Finset.range n, w (f x)

theorem tally_congr (h : ∀ x < n, w (f' x) = w (f x)) : tally w f' n = tally w f n :=
  Finset.sum_congr rfl fun x hx => h x (Finset.mem_range.mp hx)

theorem tally_update (hk : k < n) (v : α) :
    tally w (update f k v) n = tally w f n - w (f k) + w v := by
  have hmem : k ∈ Finset.range n := Finset.mem_range.mpr hk
  have hnew := Finset.add_sum_erase _ (fun x => w (update f k v x)) hmem
  have hold := Finset.add_sum_erase _ (fun x => w (f x)) hmem
  have hrest : ∑ x ∈ (Finset.range n).erase k, w (update f k v x) =
      ∑ x ∈ (Finset.range n).erase k, w (f x) := by
    refine Finset.sum_congr rfl fun x hx => ?_
    rw [update_of_ne (Finset.ne_of_mem_erase hx)]
  rw [update_self, hrest] at hnew
  unfold tally
  omega

theorem tally_eq_zero (h : ∀ x < n, w (f x) = 0) : tally w f n = 0 :=
  Finset.sum_eq_zero fun x hx => h x (Finset.mem_range.mp hx)

theorem tally_nonneg (h : ∀ x < n, 0 ≤ w (f x)) : 0 ≤ tally w f n :=
  Finset.sum_nonneg fun x hx => h x (Finset.mem_range.mp hx)

theorem weight_le_tally (h : ∀ x < n, 0 ≤ w (f x)) (hk : k < n) : w (f k) ≤ tally w f n :=
  Finset.single_le_sum (fun x hx => h x (Finset.mem_range.mp hx)) (Finset.mem_range.mpr hk)

theorem weights_le_tally (h : ∀ x < n, 0 ≤ w (f x)) (hk : k < n) (hm : m < n) (hne : k ≠ m) :
    w (f k) + w (f m) ≤ tally w f n :=
  Finset.add_le_sum (fun x hx => h x (Finset.mem_range.mp hx)) (Finset.mem_range.mpr hk)
    (Finset.mem_range.mpr hm) hne

/-- Where the sum is positive, so is a weight. -/
theorem exists_of_tally_pos (h : 0 < tally w f n) : ∃ x < n, 0 < w (f x) := by
  by_contra hnone
  refine absurd h (not_lt.mpr (Finset.sum_nonpos fun x hx => ?_))
  exact not_lt.mp fun hpos => hnone ⟨x, Finset.mem_range.mp hx, hpos⟩

/-- A list without duplicates is as long as there are entries that it names. -/
theorem length_eq_tally {P : α → Prop} [DecidablePred P] {l : List ℕ} (hnodup : l.Nodup)
    (hmem : ∀ x, x ∈ l ↔ x < n ∧ P (f x)) :
    (l.length : ℤ) = tally (fun a => if P a then 1 else 0) f n := by
  have hset : l.toFinset = (Finset.range n).filter fun x => P (f x) := by
    ext x
    rw [List.mem_toFinset, hmem, Finset.mem_filter, Finset.mem_range]
  rw [tally, Finset.sum_boole, ← hset, List.toFinset_card_of_nodup hnodup]

end MiscProjects.Tally
