import Mathlib.Logic.Basic
import Mathlib.Data.List.Basic

/-!
# Loops that are left from within

A loop whose condition is constantly true is its body: a partial function that either leads to
the state in which the next round starts or leaves the loop.  `LeftIn body s t` says that the
loop, entered in `s`, is left in `t`; nothing guarantees that there is such a `t`.

A loop with its condition behind the body is its body and the condition; `EndsBehind` counts
the rounds before its last.
-/

namespace MiscProjects.Loops

variable {σ : Type*} {body : σ → Option σ} {s t u : σ}

/-- At most `fuel` rounds of the loop; `none` if it has not been left by then. -/
def loop (body : σ → Option σ) : ℕ → σ → Option σ
  | 0, _ => none
  | fuel + 1, s =>
      match body s with
      | none => some s
      | some t => loop body fuel t

/-- The loop, entered in `s`, is left in `t`. -/
def LeftIn (body : σ → Option σ) (s t : σ) : Prop := ∃ fuel, loop body fuel s = some t

theorem LeftIn.now (h : body s = none) : LeftIn body s s := ⟨1, by simp only [loop, h]⟩

theorem LeftIn.later (h : body s = some t) (hleft : LeftIn body t u) : LeftIn body s u := by
  obtain ⟨fuel, hfuel⟩ := hleft
  exact ⟨fuel + 1, by simpa only [loop, h] using hfuel⟩

/-- What the body preserves holds where the loop is left, and there the body leaves it. -/
theorem LeftIn.invariant (inv : σ → Prop) (h : LeftIn body s t) (hinit : inv s)
    (hbody : ∀ s t, inv s → body s = some t → inv t) : inv t ∧ body t = none := by
  obtain ⟨fuel, hfuel⟩ := h
  induction fuel generalizing s with
  | zero => cases hfuel
  | succ fuel ih =>
      rcases hround : body s with _ | s'
      · simp only [loop, hround, Option.some.injEq] at hfuel
        exact ⟨hfuel ▸ hinit, hfuel ▸ hround⟩
      · simp only [loop, hround] at hfuel
        exact ih (hbody s s' hinit hround) hfuel

/-- A loop is left if every round brings a measure down, and what the body preserves holds
there. -/
theorem exists_leftIn (inv : σ → Prop) (measure : σ → ℕ) (hinit : inv s)
    (hbody : ∀ s t, inv s → body s = some t → inv t ∧ measure t < measure s) :
    ∃ t, LeftIn body s t ∧ inv t ∧ body t = none := by
  induction hn : measure s using Nat.strongRecOn generalizing s with
  | ind n ih =>
      rcases hround : body s with _ | s'
      · exact ⟨s, .now hround, hinit, hround⟩
      · obtain ⟨hinv, hless⟩ := hbody s s' hinit hround
        obtain ⟨t, hleft, ht⟩ := ih (measure s') (hn ▸ hless) hinv rfl
        exact ⟨t, .later hround hleft, ht⟩

/-! ## Loops with their condition behind the body -/

section Behind
variable {body : σ → σ} {cond : σ → Prop} {m n : ℕ}

/-- The states at the heads of the rounds, as if the loop did not end. -/
def rounds (body : σ → σ) (s : σ) : ℕ → σ
  | 0 => s
  | n + 1 => body (rounds body s n)

/-- The loop goes on behind `n` rounds and ends behind the next. -/
structure EndsBehind (body : σ → σ) (cond : σ → Prop) (s : σ) (n : ℕ) : Prop where
  goesOn : ∀ i < n, cond (rounds body s (i + 1))
  ends : ¬ cond (rounds body s (n + 1))

theorem EndsBehind.unique (hm : EndsBehind body cond s m) (hn : EndsBehind body cond s n) :
    m = n := by
  rcases Nat.lt_trichotomy m n with hlt | heq | hlt
  · exact absurd (hn.goesOn m hlt) hm.ends
  · exact heq
  · exact absurd (hm.goesOn n hlt) hn.ends

/-- A loop whose condition fails behind some round ends there or before. -/
theorem exists_endsBehind (h : ¬ cond (rounds body s (n + 1))) :
    ∃ m ≤ n, EndsBehind body cond s m := by
  induction n using Nat.strongRecOn with
  | ind n ih =>
      by_cases hall : ∀ i < n, cond (rounds body s (i + 1))
      · exact ⟨n, Nat.le_refl n, hall, h⟩
      · push Not at hall
        obtain ⟨i, hi, hfails⟩ := hall
        obtain ⟨m, hm, hends⟩ := ih i hi hfails
        exact ⟨m, Nat.le_trans hm (Nat.le_of_lt hi), hends⟩

end Behind

end MiscProjects.Loops
