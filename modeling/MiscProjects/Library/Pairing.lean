import Mathlib.Logic.Function.Basic

/-!
# Pairings

Two kinds of things are tied to each other in pairs, a pair carrying some data
that both sides have: `f a = some (b, c)` says that `a` is tied to `b`, and
`g b = some (a, c)` that `b` is tied to `a`.
-/

namespace MiscProjects.Pairing

open Function (update update_self update_of_ne)

variable {α β γ δ : Type*}

/-- Both sides agree on which things are tied, and on the data of each pair. -/
def Paired (f : α → Option (β × γ)) (g : β → Option (α × γ)) : Prop :=
  ∀ a b c, f a = some (b, c) ↔ g b = some (a, c)

variable {c : γ} {a : α} {b : β}

/-- A thing may change without its tie. -/
theorem comp_update_eq [DecidableEq α] {φ : δ → β} {f : α → δ} {d : δ}
    (h : φ d = φ (f a)) : φ ∘ update f a d = φ ∘ f := by
  rw [Function.comp_update, h]
  exact Function.update_eq_self a (φ ∘ f)

variable [DecidableEq α] [DecidableEq β] {f : α → Option (β × γ)} {g : β → Option (α × γ)}

/-- A pair is tied, untied or given other data, where neither side was tied to
anything else. -/
theorem Paired.set (h : Paired f g) (x : Option γ)
    (ha : ∀ b' c, f a = some (b', c) → b' = b) (hb : ∀ a' c, g b = some (a', c) → a' = a) :
    Paired (update f a (x.map (b, ·))) (update g b (x.map (a, ·))) := by
  intro a' b' c
  rcases eq_or_ne a' a with rfl | hne
  · rcases eq_or_ne b' b with rfl | hne'
    · simp
    · rw [update_self, update_of_ne hne']
      refine iff_of_false ?_ fun hg => hne' (ha b' c ((h a' b' c).mpr hg))
      simp [hne'.symm]
  · rcases eq_or_ne b' b with rfl | hne'
    · rw [update_self, update_of_ne hne]
      refine iff_of_false (fun hf => hne (hb a' c ((h a' b' c).mp hf))) ?_
      simp [hne.symm]
    · rw [update_of_ne hne, update_of_ne hne']
      exact h a' b' c

/-- Two things that are tied to nothing are tied to each other. -/
theorem Paired.tie (h : Paired f g) (c : γ) (ha : f a = none) (hb : g b = none) :
    Paired (update f a (some (b, c))) (update g b (some (a, c))) :=
  h.set (some c) (by simp [ha]) (by simp [hb])

/-- What happens to a pair happens on both sides. -/
theorem Paired.reset (h : Paired f g) (x : Option γ) (ha : f a = some (b, c)) :
    Paired (update f a (x.map (b, ·))) (update g b (x.map (a, ·))) := by
  have hb := (h a b c).mp ha
  refine h.set x ?_ ?_
  · intro b' c' hf
    simp only [ha, Option.some.injEq, Prod.mk.injEq] at hf
    exact hf.1.symm
  · intro a' c' hg
    simp only [hb, Option.some.injEq, Prod.mk.injEq] at hg
    exact hg.1.symm

/-- A pair is untied. -/
theorem Paired.untie (h : Paired f g) (ha : f a = some (b, c)) :
    Paired (update f a none) (update g b none) :=
  h.reset none ha

end MiscProjects.Pairing
