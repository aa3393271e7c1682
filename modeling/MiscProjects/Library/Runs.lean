import Mathlib.Logic.Basic
import Mathlib.Data.List.Basic

/-!
# Runs of a partial step function

A system is a step function `step : σ → α → Option σ`: an action is either
impossible in a state or leads to exactly one next state.  Everything the
environment chooses (a schedule, a cancellation, the result of an allocation)
is part of the action.

`RunsTo step ok s as t` says that the actions `as` lead from `s` to `t`, each
of them satisfying `ok` in the state in which it is taken.  A theorem about
every run takes `ok` to be `Always`; a theorem about the runs that avoid a
given situation takes `ok` to exclude it.
-/

namespace MiscProjects.Runs

variable {σ α : Type*}

/-- The guard that admits every action. -/
def Always (_ : σ) (_ : α) : Prop := True

/-- `as` leads from `s` to `t`, every action being admitted by `ok`. -/
inductive RunsTo (step : σ → α → Option σ) (ok : σ → α → Prop) (s : σ) :
    List α → σ → Prop
  | nil : RunsTo step ok s [] s
  | snoc {as : List α} {t u : σ} {a : α} :
      RunsTo step ok s as t → ok t a → step t a = some u →
        RunsTo step ok s (as ++ [a]) u

variable {step : σ → α → Option σ} {ok ok' : σ → α → Prop} {s t u : σ}
  {as bs : List α} {a : α}

/-- What relates the actions taken so far to the state reached holds of every
run if it holds initially and is preserved by every admitted step. -/
theorem RunsTo.history (inv : List α → σ → Prop) (hrun : RunsTo step ok s as t) (hinit : inv [] s)
    (hstep : ∀ as t a u, inv as t → ok t a → step t a = some u → inv (as ++ [a]) u) : inv as t := by
  induction hrun with
  | nil => exact hinit
  | snoc _ hok ha ih => exact hstep _ _ _ _ ih hok ha

/-- What holds initially and is preserved by every admitted step holds of
every state a run reaches. -/
theorem RunsTo.invariant (inv : σ → Prop) (hrun : RunsTo step ok s as t) (hinit : inv s)
    (hstep : ∀ t a u, inv t → ok t a → step t a = some u → inv u) : inv t :=
  hrun.history (fun _ t => inv t) hinit fun _ => hstep

/-- A weaker guard admits more runs. -/
theorem RunsTo.mono (hrun : RunsTo step ok s as t)
    (hok : ∀ t a, ok t a → ok' t a) : RunsTo step ok' s as t := by
  induction hrun with
  | nil => exact .nil
  | snoc _ ha hstep ih => exact .snoc ih (hok _ _ ha) hstep

/-- A guard may be replaced by one that follows from it under an invariant. -/
theorem RunsTo.mono_of_invariant (inv : σ → Prop) (hrun : RunsTo step ok s as t) (hinit : inv s)
    (hstep : ∀ t a u, inv t → ok t a → step t a = some u → inv u ∧ ok' t a) :
    RunsTo step ok' s as t := by
  have hboth : inv t ∧ RunsTo step ok' s as t := by
    induction hrun with
    | nil => exact ⟨hinit, .nil⟩
    | snoc _ hok ha ih =>
        obtain ⟨hinv, hrun'⟩ := ih
        obtain ⟨hinv', hok'⟩ := hstep _ _ _ hinv hok ha
        exact ⟨hinv', .snoc hrun' hok' ha⟩
  exact hboth.2

/-- A schedule leads to one state. -/
theorem RunsTo.unique (ht : RunsTo step ok s as t) (hu : RunsTo step ok' s as u) : t = u := by
  induction ht generalizing u with
  | nil =>
      generalize hnil : ([] : List α) = bs at hu
      cases hu with
      | nil => rfl
      | snoc => simp at hnil
  | @snoc as t v a _ _ hstep ih =>
      generalize hsnoc : as ++ [a] = bs at hu
      cases hu with
      | nil => simp at hsnoc
      | snoc hu _ hstep' =>
          obtain ⟨rfl, hlast⟩ := List.append_inj' hsnoc rfl
          obtain rfl := List.singleton_inj.1 hlast
          obtain rfl := ih hu
          exact Option.some.inj (hstep.symm.trans hstep')

/-- Where a step keeps a property exactly if it is admitted, the property holds in every state
of a schedule exactly if every step of it is admitted. -/
theorem throughout_iff (inv : σ → Prop) (hinit : inv s)
    (hstep : ∀ t a u, inv t → step t a = some u → (inv u ↔ ok t a)) :
    (∀ taken t, taken <+: as → RunsTo step Always s taken t → inv t) ↔
      ∀ taken a t u, taken ++ [a] <+: as → RunsTo step Always s taken t →
        step t a = some u → ok t a := by
  constructor
  · intro hinv taken a t u htaken hrun ha
    have ht := hinv taken t ((List.prefix_append taken [a]).trans htaken) hrun
    exact (hstep t a u ht ha).1 (hinv _ u htaken (.snoc hrun trivial ha))
  · intro hok taken t htaken hrun
    induction hrun with
    | nil => exact hinit
    | snoc hrun _ ha ih =>
        have ht := ih ((List.prefix_append _ _).trans htaken)
        exact (hstep _ _ _ ht ha).2 (hok _ _ _ _ htaken hrun ha)

/-- Every step of a schedule is admitted exactly if the last one is and all before it are. -/
theorem RunsTo.admitted_concat_iff (hrun : RunsTo step Always s as t) :
    (∀ taken b v, taken ++ [b] <+: as ++ [a] → RunsTo step Always s taken v → ok v b) ↔
      (∀ taken b v, taken ++ [b] <+: as → RunsTo step Always s taken v → ok v b) ∧ ok t a := by
  constructor
  · intro hall
    refine ⟨?_, hall _ _ _ (List.prefix_refl _) hrun⟩
    intro taken b v htaken hv
    exact hall taken b v (htaken.trans (List.prefix_append _ _)) hv
  · rintro ⟨hbefore, hnow⟩ taken b v htaken hv
    rcases List.prefix_concat_iff.1 htaken with hsame | hshort
    · obtain ⟨rfl, hlast⟩ := List.append_inj' hsame rfl
      obtain rfl := List.singleton_inj.1 hlast
      rw [hv.unique hrun]
      exact hnow
    · exact hbefore taken b v hshort hv

/-- Where a step ends with a property exactly if it begins with it and is admitted, a run ends
with it exactly if every step of it is admitted. -/
theorem RunsTo.kept_iff (inv good : σ → Prop) (hrun : RunsTo step Always s as t)
    (hinv : inv s) (hgood : good s)
    (hstep : ∀ t a u, inv t → step t a = some u → inv u ∧ (good u ↔ good t ∧ ok t a)) :
    good t ↔ ∀ taken a v, taken ++ [a] <+: as → RunsTo step Always s taken v → ok v a := by
  have hboth : inv t ∧
      (good t ↔ ∀ taken a v, taken ++ [a] <+: as → RunsTo step Always s taken v → ok v a) := by
    induction hrun with
    | nil => simp [hinv, hgood]
    | snoc hrun _ ha ih =>
        obtain ⟨hinv', hkept⟩ := hstep _ _ _ ih.1 ha
        refine ⟨hinv', ?_⟩
        rw [hkept, ih.2, hrun.admitted_concat_iff]
  exact hboth.2

theorem RunsTo.single (hok : ok s a) (hstep : step s a = some t) : RunsTo step ok s [a] t := by
  simpa using RunsTo.snoc .nil hok hstep

/-- Two runs compose. -/
theorem RunsTo.trans (hst : RunsTo step ok s as t)
    (htu : RunsTo step ok t bs u) : RunsTo step ok s (as ++ bs) u := by
  induction htu with
  | nil => simpa using hst
  | snoc _ hok hstep ih =>
      rw [← List.append_assoc]
      exact .snoc ih hok hstep

/-- The run function: the guard is tested at every action. -/
def exec (step : σ → α → Option σ) (ok : σ → α → Prop)
    [∀ s a, Decidable (ok s a)] : σ → List α → Option σ
  | s, [] => some s
  | s, a :: as =>
      if ok s a then
        match step s a with
        | none => none
        | some t => exec step ok t as
      else none

instance (s : σ) (a : α) : Decidable (Always s a) :=
  inferInstanceAs (Decidable True)

/-- What `exec` computes is a run. -/
theorem RunsTo.of_exec [∀ s a, Decidable (ok s a)]
    (h : exec step ok s as = some t) : RunsTo step ok s as t := by
  induction as generalizing s with
  | nil =>
      simp only [exec, Option.some.injEq] at h
      subst h
      exact .nil
  | cons a as ih =>
      simp only [exec] at h
      by_cases hok : ok s a
      · rw [if_pos hok] at h
        cases hstep : step s a with
        | none => simp [hstep] at h
        | some u =>
            rw [hstep] at h
            exact (RunsTo.single hok hstep).trans (ih h)
      · simp [hok] at h

/-- A list of actions on which `exec` succeeds is a run. -/
theorem RunsTo.of_isSome [∀ s a, Decidable (ok s a)] (h : (exec step ok s as).isSome = true) :
    RunsTo step ok s as ((exec step ok s as).get h) :=
  .of_exec (Option.some_get h).symm

/-! ## The order of two actions in a schedule -/

section Precedes
variable [DecidableEq α] {b x : α}

/-- `b` is taken, and `a` has been taken before it (both for the first time). -/
def Precedes (as : List α) (a b : α) : Prop :=
  b ∈ as ∧ as.idxOf a < as.idxOf b

instance (as : List α) (a b : α) : Decidable (Precedes as a b) :=
  inferInstanceAs (Decidable (_ ∧ _))

theorem precedes_nil : ¬ Precedes [] a b := by
  simp [Precedes]

/-- The last action of a schedule comes after all the others. -/
theorem precedes_snoc : Precedes (as ++ [x]) a b ↔ Precedes as a b ∨ (b ∉ as ∧ x = b ∧ a ∈ as) := by
  by_cases hb : b ∈ as
  · have hidx : (as ++ [x]).idxOf b = as.idxOf b := List.idxOf_append_of_mem hb
    have hlt : as.idxOf b < as.length := List.idxOf_lt_length_iff.mpr hb
    by_cases ha : a ∈ as
    · simp [Precedes, hb, hidx, List.idxOf_append_of_mem ha]
    · have hlen : as.idxOf a = as.length := List.idxOf_eq_length ha
      have hlen' : (as ++ [x]).idxOf a = as.length + [x].idxOf a := List.idxOf_append_of_notMem ha
      simp only [Precedes, hb, hidx, hlen, hlen', not_true_eq_false, false_and,
        or_false, List.mem_append, true_or, true_and]
      omega
  · have hlen : as.idxOf b = as.length := List.idxOf_eq_length hb
    have hidx : (as ++ [x]).idxOf b = as.length + [x].idxOf b := List.idxOf_append_of_notMem hb
    by_cases hx : x = b
    · subst hx
      by_cases ha : a ∈ as
      · have hlt : as.idxOf a < as.length := List.idxOf_lt_length_iff.mpr ha
        simp [Precedes, hb, hidx, ha, List.idxOf_append_of_mem ha, hlt]
      · have hlen' : (as ++ [x]).idxOf a = as.length + [x].idxOf a :=
        List.idxOf_append_of_notMem ha
        simp [Precedes, hb, hidx, ha, hlen']
    · have hx' : b ≠ x := fun h => hx h.symm
      simp [Precedes, hb, hx, hx']

/-- Of two different actions taken, one precedes the other. -/
theorem precedes_iff_not_precedes (hab : a ≠ b) (ha : a ∈ as) (hb : b ∈ as) :
    Precedes as a b ↔ ¬ Precedes as b a := by
  have hne : as.idxOf a ≠ as.idxOf b := fun h => hab ((List.idxOf_inj ha).mp h)
  simp only [Precedes, ha, hb, true_and]
  omega

end Precedes

end MiscProjects.Runs
