import Mathlib.Data.List.Basic

/-!
# Pieces of a list placed at offsets

A receiver puts every piece at its offset.  The pieces rebuild a list if they lie inside
it, agree with it, and cover every index exactly once; in particular it does not matter
in which order they arrive.  Pieces that follow one another from the start to the end of
the list rebuild it.
-/

namespace MiscProjects.Tiling

structure Piece (α : Type*) where
  offset : ℕ
  data : List α

variable {α : Type*} {whole : List α} {piece : Piece α} {pieces : List (Piece α)} {start : ℕ}

def Piece.Covers (piece : Piece α) (i : ℕ) : Prop :=
  piece.offset ≤ i ∧ i < piece.offset + piece.data.length

/-- The pieces, each at its offset, are the list: without gap and without overlap. -/
structure Rebuilds (pieces : List (Piece α)) (whole : List α) : Prop where
  inside : ∀ piece ∈ pieces, piece.offset + piece.data.length ≤ whole.length
  content : ∀ piece ∈ pieces, ∀ i < piece.data.length, piece.data[i]? = whole[piece.offset + i]?
  covered : ∀ i < whole.length, ∃ piece ∈ pieces, piece.Covers i
  apart : pieces.Pairwise fun a b => ∀ i, ¬ (a.Covers i ∧ b.Covers i)

/-- From `start` on each piece begins where the one before it ends, up to the end. -/
inductive Tiles (whole : List α) : ℕ → List (Piece α) → Prop
  | nil : Tiles whole whole.length []
  | cons {start : ℕ} {piece : Piece α} {pieces : List (Piece α)} :
      piece.offset = start → piece.data = (whole.drop start).take piece.data.length →
        Tiles whole (start + piece.data.length) pieces → Tiles whole start (piece :: pieces)

namespace Tiles

theorem le_length (h : Tiles whole start pieces) : start ≤ whole.length := by
  induction h with
  | nil => exact Nat.le_refl _
  | cons _ _ _ ih => exact Nat.le_trans (Nat.le_add_right _ _) ih

theorem le_offset (h : Tiles whole start pieces) (hpiece : piece ∈ pieces) :
    start ≤ piece.offset := by
  induction h with
  | nil => exact absurd hpiece List.not_mem_nil
  | cons hoffset _ _ ih =>
      rcases List.mem_cons.mp hpiece with rfl | hpiece
      · exact Nat.le_of_eq hoffset.symm
      · exact Nat.le_trans (Nat.le_add_right _ _) (ih hpiece)

theorem inside (h : Tiles whole start pieces) (hpiece : piece ∈ pieces) :
    piece.offset + piece.data.length ≤ whole.length := by
  induction h with
  | nil => exact absurd hpiece List.not_mem_nil
  | cons hoffset _ hrest ih =>
      rcases List.mem_cons.mp hpiece with rfl | hpiece
      · rw [hoffset]
        exact hrest.le_length
      · exact ih hpiece

theorem content (h : Tiles whole start pieces) (hpiece : piece ∈ pieces) {i : ℕ}
    (hi : i < piece.data.length) : piece.data[i]? = whole[piece.offset + i]? := by
  induction h with
  | nil => exact absurd hpiece List.not_mem_nil
  | @cons start first pieces hoffset hdata _ ih =>
      rcases List.mem_cons.mp hpiece with rfl | hpiece
      · calc piece.data[i]? = ((whole.drop start).take piece.data.length)[i]? := by rw [← hdata]
          _ = (whole.drop start)[i]? := List.getElem?_take_of_lt hi
          _ = whole[piece.offset + i]? := by rw [List.getElem?_drop, hoffset]
      · exact ih hpiece

theorem covered (h : Tiles whole start pieces) {i : ℕ} (hstart : start ≤ i)
    (hi : i < whole.length) : ∃ piece ∈ pieces, piece.Covers i := by
  induction h with
  | nil => exact absurd hi (Nat.not_lt_of_le hstart)
  | @cons start first pieces hoffset _ _ ih =>
      by_cases hfirst : i < start + first.data.length
      · refine ⟨first, List.mem_cons_self, ?_, ?_⟩
        · rwa [hoffset]
        · rwa [hoffset]
      · obtain ⟨piece, hpiece, hcovers⟩ := ih (Nat.le_of_not_lt hfirst)
        exact ⟨piece, List.mem_cons_of_mem first hpiece, hcovers⟩

theorem apart (h : Tiles whole start pieces) :
    pieces.Pairwise fun a b => ∀ i, ¬ (a.Covers i ∧ b.Covers i) := by
  induction h with
  | nil => exact List.Pairwise.nil
  | @cons start first pieces hoffset _ hrest ih =>
      refine List.Pairwise.cons ?_ ih
      intro piece hpiece i hcovers
      obtain ⟨⟨-, hlt⟩, hle, -⟩ := hcovers
      have hafter := hrest.le_offset hpiece
      omega

theorem rebuilds (h : Tiles whole 0 pieces) : Rebuilds pieces whole where
  inside _ hpiece := h.inside hpiece
  content _ hpiece _ hi := h.content hpiece hi
  covered _ hi := h.covered (Nat.zero_le _) hi
  apart := h.apart

end Tiles

/-- No index is covered by the first two pieces. -/
theorem Rebuilds.not_overlap {a b : Piece α} {rest : List (Piece α)}
    (h : Rebuilds (a :: b :: rest) whole) (i : ℕ) : ¬ (a.Covers i ∧ b.Covers i) :=
  (List.pairwise_cons.mp h.apart).1 b List.mem_cons_self i

end MiscProjects.Tiling
