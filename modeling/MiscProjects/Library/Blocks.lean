import Mathlib.Algebra.Order.Ring.Nat
import Mathlib.Data.List.Basic
import Mathlib.Data.List.Flatten

/-!
# Consecutive blocks of one size

`blocks n l` are the parts of `n` elements that follow one another from the start of `l`; fewer
than `n` elements at the end belong to no block.
-/

namespace MiscProjects.Blocks

variable {α : Type*} {n m : ℕ} {a : α} {l l' : List α}

def blocks (n : ℕ) (l : List α) : List (List α) :=
  (List.range (l.length / n)).map fun i => (l.drop (i * n)).take n

theorem length_blocks (n : ℕ) (l : List α) : (blocks n l).length = l.length / n := by
  rw [blocks, List.length_map, List.length_range]

theorem blocks_of_short (h : l.length < n) : blocks n l = [] := by
  rw [blocks, Nat.div_eq_of_lt h]
  rfl

theorem blocks_of_long (hn : 0 < n) (h : n ≤ l.length) :
    blocks n l = l.take n :: blocks n (l.drop n) := by
  have hcount : l.length / n = (l.drop n).length / n + 1 := by
    rw [List.length_drop, ← Nat.div_eq_sub_div hn h]
  rw [blocks, hcount, List.range_succ_eq_map, List.map_cons, List.map_map, blocks]
  congr 1
  · rw [Nat.zero_mul, List.drop_zero]
  · apply List.map_congr_left
    intro i _
    rw [Function.comp_apply, List.drop_drop, Nat.succ_mul, Nat.add_comm]

/-- The blocks are what their elements are, in the order of the list. -/
theorem flatten_blocks (hn : 0 < n) (l : List α) :
    (blocks n l).flatten = l.take (l.length / n * n) := by
  induction hl : l.length / n generalizing l with
  | zero =>
      rw [blocks, hl, Nat.zero_mul]
      rfl
  | succ k ih =>
      have hlong : n ≤ l.length := by
        by_contra hshort
        rw [Nat.div_eq_of_lt (Nat.lt_of_not_le hshort)] at hl
        cases hl
      have hrest : (l.drop n).length / n = k := by
        rw [List.length_drop]
        rw [Nat.div_eq_sub_div hn hlong] at hl
        exact Nat.succ.inj hl
      rw [blocks_of_long hn hlong, List.flatten_cons, ih (l.drop n) hrest, Nat.succ_mul,
        Nat.add_comm, List.take_add]

/-- Lists have the same blocks if they have equally many, and the same elements in them. -/
theorem blocks_eq_blocks_iff (hn : 0 < n) : blocks n l = blocks n l' ↔
      l.length / n = l'.length / n ∧ l.take (l.length / n * n) = l'.take (l.length / n * n) := by
  constructor
  · intro h
    have hcount := congrArg List.length h
    rw [length_blocks, length_blocks] at hcount
    refine ⟨hcount, ?_⟩
    rw [← flatten_blocks hn, h, flatten_blocks hn, hcount]
  · rintro ⟨hcount, htake⟩
    rw [blocks, blocks, ← hcount]
    apply List.map_congr_left
    intro i hi
    have hle : i * n + n ≤ l.length / n * n := by
      rw [← Nat.succ_mul]
      exact Nat.mul_le_mul_right n (List.mem_range.mp hi)
    have hinside : ∀ s : List α, (s.drop (i * n)).take n =
        ((s.take (l.length / n * n)).drop (i * n)).take n := by
      intro s
      rw [List.drop_take, List.take_take, Nat.min_eq_left (by omega)]
    rw [hinside l, hinside l', htake]

/-- A list that is moved on by one element starts as before if that element fills it. -/
theorem take_cons_eq_take_iff (hm : m ≤ l.length) :
    (a :: l).take m = l.take m ↔ ∀ b ∈ l.take m, b = a := by
  induction m generalizing a l with
  | zero => simp
  | succ m ih =>
      cases l with
      | nil => exact absurd hm (Nat.not_succ_le_zero m)
      | cons b l =>
          rw [List.take_succ_cons, List.take_succ_cons, List.cons.injEq, List.forall_mem_cons]
          constructor
          · rintro ⟨rfl, htake⟩
            exact ⟨rfl, (ih (Nat.le_of_succ_le_succ hm)).mp htake⟩
          · rintro ⟨rfl, hall⟩
            exact ⟨rfl, (ih (Nat.le_of_succ_le_succ hm)).mpr hall⟩

/-- One element more at the start leaves the blocks as they are. -/
theorem blocks_cons_eq_iff (hn : 0 < n) : blocks n (a :: l) = blocks n l ↔
      ¬ n ∣ l.length + 1 ∧ ∀ b ∈ l.take (l.length / n * n), b = a := by
  have hcount : (a :: l).length / n = l.length / n ↔ ¬ n ∣ l.length + 1 := by
    rw [List.length_cons, Nat.succ_div]
    split <;> simp [*]
  rw [blocks_eq_blocks_iff hn, hcount]
  apply and_congr_right
  intro hdvd
  rw [hcount.mpr hdvd]
  exact take_cons_eq_take_iff (Nat.div_mul_le_self l.length n)

end MiscProjects.Blocks
