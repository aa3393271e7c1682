import Mathlib.Data.List.Infix
import Mathlib.Logic.Function.Basic
import Mathlib.Logic.Relation

/-!
# What threads still have to do

A thread is the list of the instructions that it still has to do; doing the
first one may put others in front of the rest.  An instruction may acquire a
token (a lock), and it may carry tokens, which the thread holds until it has
done the instruction.  What the thread holds is therefore written in what it
still has to do.

The second part is about threads that wait for what other threads hold: if
every thread waits only for tokens that rank below those it holds, then no
threads wait for each other in a cycle.
-/

namespace MiscProjects.Threads

/-- What each instruction acquires and carries. -/
class Holding (ι : Type*) (τ : outParam (Type*)) where
  acquires : ι → Option τ
  carries : ι → List τ

section Held
variable {ι τ : Type*} [Holding ι τ] [DecidableEq τ]

/-- The tokens that a thread holds that still has to do the given instructions. -/
def held : List ι → List τ
  | [] => []
  | i :: p =>
      match Holding.acquires i with
      | some k => (held p).erase k
      | none => Holding.carries i ++ held p

variable {i : ι} {p q : List ι} {k : τ}

@[simp]
theorem held_nil : held ([] : List ι) = ([] : List τ) := rfl

theorem held_cons_of_acquires (hi : Holding.acquires i = some k) :
    held (i :: p) = (held p).erase k := by
  simp only [held, hi]

theorem held_cons_of_carries (hi : Holding.acquires i = none) :
    held (i :: p) = Holding.carries i ++ held p := by
  simp only [held, hi]

/-- What is never acquired stays held until the instruction that carries it. -/
theorem mem_held_cons (hk : Holding.acquires i ≠ some k) (hmem : k ∈ held p) :
    k ∈ held (i :: p) := by
  cases hi : Holding.acquires i with
  | none =>
      rw [held_cons_of_carries hi]
      exact List.mem_append_right _ hmem
  | some k' =>
      rw [held_cons_of_acquires hi]
      refine (List.mem_erase_of_ne ?_).mpr hmem
      rintro rfl
      exact hk hi

/-- What is never acquired stays held in front of what holds it. -/
theorem mem_held_of_suffix (hk : ∀ j : ι, Holding.acquires j ≠ some k) (hq : q <:+ p)
    (hmem : k ∈ held q) : k ∈ held p := by
  induction p with
  | nil => rwa [List.suffix_nil.mp hq] at hmem
  | cons j p ih =>
      rcases List.suffix_cons_iff.mp hq with rfl | hq
      · exact hmem
      · exact mem_held_cons (hk j) (ih hq)

/-- What is never acquired is held by whoever has an instruction that carries it. -/
theorem mem_held_of_mem (hk : ∀ j : ι, Holding.acquires j ≠ some k) (hi : i ∈ p)
    (hcarries : k ∈ Holding.carries i) (hnone : Holding.acquires i = none) : k ∈ held p := by
  induction p with
  | nil => cases hi
  | cons j p ih =>
      rcases List.mem_cons.mp hi with rfl | hi
      · rw [held_cons_of_carries hnone]
        exact List.mem_append_left _ hcarries
      · exact mem_held_cons (hk j) (ih hi)

/-- What is held is carried by one of the instructions. -/
theorem exists_carries_of_mem_held (hmem : k ∈ held p) : ∃ i ∈ p, k ∈ Holding.carries i := by
  induction p with
  | nil => simp at hmem
  | cons i p ih =>
      cases hi : Holding.acquires i with
      | none =>
          rw [held_cons_of_carries hi] at hmem
          rcases List.mem_append.mp hmem with hcarries | hrest
          · exact ⟨i, List.mem_cons_self, hcarries⟩
          · obtain ⟨j, hj, hcarries⟩ := ih hrest
            exact ⟨j, List.mem_cons_of_mem _ hj, hcarries⟩
      | some k' =>
          rw [held_cons_of_acquires hi] at hmem
          obtain ⟨j, hj, hcarries⟩ := ih (List.mem_of_mem_erase hmem)
          exact ⟨j, List.mem_cons_of_mem _ hj, hcarries⟩

/-- A walk whose rounds hold nothing of their own holds nothing of its own. -/
theorem held_flatMap {α : Type*} {g : α → List ι} {l : List α}
    (hg : ∀ x ∈ l, ∀ q, held (g x ++ q) = held q) (p : List ι) :
    held (l.flatMap g ++ p) = held p := by
  induction l with
  | nil => rfl
  | cons x l ih =>
      rw [List.flatMap_cons, List.append_assoc, hg x List.mem_cons_self]
      exact ih fun y hy => hg y (List.mem_cons_of_mem _ hy)

end Held

/-! ## Owners -/

section Owned
variable {ι τ β θ : Type*} [Holding ι τ] [DecidableEq τ]

/-- A table names for each lock the thread that holds it. -/
def Owned (owner : β → Option θ) (lock : β → τ) (program : θ → List ι) : Prop :=
  ∀ l t, owner l = some t ↔ lock l ∈ held (program t)

variable {owner owner' : β → Option θ} {lock : β → τ} {program : θ → List ι} {l : β} {t : θ}
  {p : List ι}

/-- At most one thread holds each of the locks. -/
def Exclusive (lock : β → τ) (program : θ → List ι) : Prop :=
  ∀ l t t', lock l ∈ held (program t) → lock l ∈ held (program t') → t = t'

theorem Owned.exclusive (h : Owned owner lock program) : Exclusive lock program :=
  fun l t t' ht ht' => Option.some.inj (((h l t).mpr ht).symm.trans ((h l t').mpr ht'))

variable [DecidableEq θ]

theorem Owned.keep (h : Owned owner lock program)
    (hsame : ∀ l, lock l ∈ held p ↔ lock l ∈ held (program t)) :
    Owned owner lock (Function.update program t p) := by
  intro l t'
  rcases eq_or_ne t' t with rfl | hne
  · rw [Function.update_self, hsame]
    exact h l t'
  · rw [Function.update_of_ne hne]
    exact h l t'

theorem Owned.acquire (h : Owned owner lock program) (hfree : owner l = none)
    (hnew : owner' l = some t) (hother : ∀ l', l' ≠ l → owner' l' = owner l') (hl : lock l ∈ held p)
    (hsame : ∀ l', l' ≠ l → (lock l' ∈ held p ↔ lock l' ∈ held (program t))) :
    Owned owner' lock (Function.update program t p) := by
  intro l' t'
  by_cases hl' : l' = l
  · subst hl'
    rw [hnew, Option.some.injEq]
    constructor
    · rintro rfl
      rwa [Function.update_self]
    · intro hheld
      by_contra hne
      rw [Function.update_of_ne (Ne.symm hne), ← h, hfree] at hheld
      cases hheld
  · rw [hother l' hl']
    rcases eq_or_ne t' t with rfl | hne
    · rw [Function.update_self, hsame l' hl']
      exact h l' t'
    · rw [Function.update_of_ne hne]
      exact h l' t'

theorem Owned.release (h : Owned owner lock program) (hold : owner l = some t)
    (hnew : owner' l = none) (hother : ∀ l', l' ≠ l → owner' l' = owner l') (hl : lock l ∉ held p)
    (hsame : ∀ l', l' ≠ l → (lock l' ∈ held p ↔ lock l' ∈ held (program t))) :
    Owned owner' lock (Function.update program t p) := by
  intro l' t'
  by_cases hl' : l' = l
  · subst hl'
    rw [hnew]
    refine iff_of_false (Option.some_ne_none t').symm fun hheld => ?_
    rcases eq_or_ne t' t with rfl | hne
    · rw [Function.update_self] at hheld
      exact hl hheld
    · rw [Function.update_of_ne hne, ← h, hold, Option.some.injEq] at hheld
      exact hne hheld.symm
  · rw [hother l' hl']
    rcases eq_or_ne t' t with rfl | hne
    · rw [Function.update_self, hsame l' hl']
      exact h l' t'
    · rw [Function.update_of_ne hne]
      exact h l' t'

/-- A thread may get locks that nobody holds. -/
theorem Exclusive.update (h : Exclusive lock program)
    (hp : ∀ l, lock l ∈ held p → lock l ∈ held (program t) ∨ ∀ t', lock l ∉ held (program t')) :
    Exclusive lock (Function.update program t p) := by
  have hother : ∀ l t', t' ≠ t → lock l ∈ held p → lock l ∉ held (program t') := by
    intro l t' hne hl hheld
    rcases hp l hl with hold | hnone
    · exact hne (h l t' t hheld hold)
    · exact hnone t' hheld
  intro l t₁ t₂ h₁ h₂
  rcases eq_or_ne t₁ t with rfl | hne₁
  · rw [Function.update_self] at h₁
    by_contra hne
    rw [Function.update_of_ne (Ne.symm hne)] at h₂
    exact hother l t₂ (Ne.symm hne) h₁ h₂
  · rw [Function.update_of_ne hne₁] at h₁
    rcases eq_or_ne t₂ t with rfl | hne₂
    · rw [Function.update_self] at h₂
      exact absurd h₁ (hother l t₁ hne₁ h₂)
    · rw [Function.update_of_ne hne₂] at h₂
      exact h l t₁ t₂ h₁ h₂

end Owned

section Fits
variable {ι : Type*} {fits fits' : ι → List ι → Prop} {i : ι} {p : List ι}

/-- Every instruction fits what is left to do after it. -/
def EachFits (fits : ι → List ι → Prop) : List ι → Prop
  | [] => True
  | i :: p => fits i p ∧ EachFits fits p

theorem EachFits.mono (h : EachFits fits p)
    (hfits : ∀ i q, i :: q <:+ p → fits i q → fits' i q) : EachFits fits' p := by
  induction p with
  | nil => trivial
  | cons i p ih =>
      refine ⟨hfits i p List.suffix_rfl h.1, ih h.2 fun j q hq => ?_⟩
      exact hfits j q (hq.trans (List.suffix_cons i p))

/-- One instruction of a list with what comes after it. -/
theorem EachFits.of_mem (h : EachFits fits p) (hi : i ∈ p) : ∃ q, i :: q <:+ p ∧ fits i q := by
  induction p with
  | nil => simp at hi
  | cons j p ih =>
      rcases List.mem_cons.mp hi with rfl | hi
      · exact ⟨p, List.suffix_rfl, h.1⟩
      · obtain ⟨q, hq, hfits⟩ := ih h.2 hi
        exact ⟨q, hq.trans (List.suffix_cons j p), hfits⟩

/-- A walk fits if each of its rounds fits in front of what has the property `P`, and
has it in turn. -/
theorem EachFits.flatMap {α : Type*} {g : α → List ι} {l : List α} {P : List ι → Prop}
    (h : EachFits fits p) (hp : P p)
    (hg : ∀ x ∈ l, ∀ q, P q → P (g x ++ q) ∧ (EachFits fits q → EachFits fits (g x ++ q))) :
    EachFits fits (l.flatMap g ++ p) := by
  have hboth : P (l.flatMap g ++ p) ∧ EachFits fits (l.flatMap g ++ p) := by
    induction l with
    | nil => exact ⟨hp, h⟩
    | cons x l ih =>
        obtain ⟨hrest, hfits⟩ := ih fun y hy => hg y (List.mem_cons_of_mem _ hy)
        obtain ⟨hx, hxfits⟩ := hg x List.mem_cons_self _ hrest
        rw [List.flatMap_cons, List.append_assoc]
        exact ⟨hx, hxfits hfits⟩
  exact hboth.2

end Fits

/-! ## Waiting -/

section Waiting
variable {α : Type*} {waits : α → α → Prop} {rank : α → ℕ} {a b c : α}

/-- Whoever is waited for waits for something of lower rank. -/
theorem rank_lt_of_transGen (hrank : ∀ a b c, waits a b → waits b c → rank b < rank a)
    (hab : Relation.TransGen waits a b) (hbc : waits b c) : rank b < rank a := by
  induction hab generalizing c with
  | single hab => exact hrank _ _ _ hab hbc
  | tail _ hlast ih => exact (hrank _ _ _ hlast hbc).trans (ih hlast)

/-- Nobody waits, through others, for himself. -/
theorem not_transGen_self (hrank : ∀ a b c, waits a b → waits b c → rank b < rank a) (a : α) :
    ¬ Relation.TransGen waits a a := by
  intro hcycle
  obtain ⟨b, hab, -⟩ := Relation.TransGen.head'_iff.mp hcycle
  exact lt_irrefl _ (rank_lt_of_transGen hrank hcycle hab)

end Waiting

end MiscProjects.Threads
