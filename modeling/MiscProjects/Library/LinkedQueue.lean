import Mathlib.Data.List.Basic
import MiscProjects.Library.SinglyLinked

/-!
# Queues with a pointer to each end

`IsQueue next head tail l` says that the pointers lead from `head` through the nodes `l` to
the end, and that `tail` is the last one of them.
-/

namespace MiscProjects.LinkedQueue

open MiscProjects.SinglyLinked
open Function (update update_self update_eq_self_iff)

variable {α : Type*} {next next' : α → Option α} {head tail : Option α} {a p : α} {l : List α}

structure IsQueue (next : α → Option α) (head tail : Option α) (l : List α) : Prop where
  chain : Chain next head l
  tail_eq : tail = l.getLast?

theorem isQueue_nil (next : α → Option α) : IsQueue next none none [] := ⟨rfl, rfl⟩

/-- One node, that points to nothing. -/
theorem isQueue_singleton (ha : next a = none) : IsQueue next (some a) (some a) [a] :=
  ⟨⟨rfl, ha⟩, rfl⟩

theorem IsQueue.congr (h : IsQueue next head tail l) (hnext : ∀ a ∈ l, next' a = next a) :
    IsQueue next' head tail l :=
  ⟨h.chain.congr hnext, h.tail_eq⟩

theorem IsQueue.nodup (h : IsQueue next head tail l) : l.Nodup := h.chain.nodup

theorem IsQueue.head_eq (h : IsQueue next head tail l) : head = l.head? := h.chain.head?_eq.symm

theorem IsQueue.head_eq_none_iff (h : IsQueue next head tail l) : head = none ↔ l = [] := by
  rw [h.head_eq, List.head?_eq_none_iff]

theorem IsQueue.tail_eq_none_iff (h : IsQueue next head tail l) : tail = none ↔ l = [] := by
  rw [h.tail_eq, List.getLast?_eq_none_iff]

/-- The two pointers tell the same about emptiness. -/
theorem IsQueue.head_none_iff_tail_none (h : IsQueue next head tail l) :
    head = none ↔ tail = none :=
  h.head_eq_none_iff.trans h.tail_eq_none_iff.symm

/-- The last node points to nothing. -/
theorem IsQueue.next_tail (h : IsQueue next head (some p) l) : next p = none := by
  obtain ⟨l, rfl⟩ := List.getLast?_eq_some_iff.mp h.tail_eq.symm
  exact h.chain.next_last

variable [DecidableEq α]

/-- A node that points to nothing is put behind the last one. -/
theorem IsQueue.pushBack (h : IsQueue next head (some p) l) (ha : a ∉ l) (hnext : next a = none) :
    IsQueue (update next p (some a)) head (some a) (l ++ [a]) := by
  obtain ⟨l, rfl⟩ := List.getLast?_eq_some_iff.mp h.tail_eq.symm
  have hchain := h.chain.append ha
  rw [show update next a none = next from update_eq_self_iff.mpr hnext.symm] at hchain
  exact ⟨hchain, List.getLast?_concat.symm⟩

/-- A node is put before the first one. -/
theorem IsQueue.pushFront (h : IsQueue next head (some p) l) (ha : a ∉ l) :
    IsQueue (update next a head) (some a) (some p) (a :: l) := by
  refine ⟨h.chain.push ha, ?_⟩
  rw [List.getLast?_cons, ← h.tail_eq]
  rfl

/-- The first node is taken out. -/
theorem IsQueue.pop (h : IsQueue next head tail (a :: l)) :
    IsQueue next (next a) (if tail = some a then none else tail) l := by
  refine ⟨h.chain.2, ?_⟩
  cases l with
  | nil =>
      apply if_pos
      exact h.tail_eq
  | cons b l =>
      -- A node is in the list once, so that the first one is not the last one.
      have hne : tail ≠ some a := by
        rw [h.tail_eq, List.getLast?_cons_cons]
        intro hlast
        exact (List.nodup_cons.mp h.nodup).1 (List.mem_of_getLast? hlast)
      rw [if_neg hne, h.tail_eq, List.getLast?_cons_cons]

end MiscProjects.LinkedQueue
