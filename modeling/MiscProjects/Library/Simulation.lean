import MiscProjects.Library.Runs

/-!
# Refinement of partial step functions

A system refines another one, under a relation of their states, if it can follow each step
of it.  What it does in a run is then determined by the run of the other one.
-/

namespace MiscProjects.Runs

variable {σ τ α : Type*} {step : σ → α → Option σ} {step' : τ → α → Option τ}
  {ok : σ → α → Prop} {s t : σ} {s' : τ} {as : List α}

/-- A run is followed by one with the same actions. -/
theorem RunsTo.simulate (R : σ → τ → Prop) (hrun : RunsTo step ok s as t) (hinit : R s s')
    (hstep : ∀ t a u t', R t t' → ok t a → step t a = some u →
      ∃ u', step' t' a = some u' ∧ R u u') : ∃ t', RunsTo step' Always s' as t' ∧ R t t' := by
  induction hrun with
  | nil => exact ⟨s', .nil, hinit⟩
  | snoc _ hok ha ih =>
      obtain ⟨t', hrun', ht'⟩ := ih
      obtain ⟨u', ha', hu'⟩ := hstep _ _ _ _ ht' hok ha
      exact ⟨u', .snoc hrun' trivial ha', hu'⟩

end MiscProjects.Runs
