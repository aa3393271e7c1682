import Mathlib.Data.List.Nodup
import Mathlib.Logic.Function.Basic

/-!
# Resources that are released once

Resources are numbered as they are acquired.  Each place of a program holds one of them or
none; a resource is acquired into a place, passes from one place to another and is released from
the place that holds it.  A place that is cleared or used again while it holds a resource loses
it, and nothing can release it any more.

The number of places need not be finite.
-/

namespace MiscProjects.Resources

open Function (update update_self update_of_ne)

/-- What the places hold and what has been released, in the order of the releases. -/
structure Ledger (ι : Type*) where
  acquired : ℕ
  holder : ι → Option ℕ
  released : List ℕ

/-- Before the first acquisition. -/
def Ledger.empty (ι : Type*) : Ledger ι where
  acquired := 0
  holder := fun _ => none
  released := []

variable {ι : Type*} {L : Ledger ι}

/-- A resource is held by one place or released, and released once. -/
structure Ledger.Sound (L : Ledger ι) : Prop where
  holder_lt : ∀ i x, L.holder i = some x → x < L.acquired
  unique : ∀ i j x, L.holder i = some x → L.holder j = some x → i = j
  held : ∀ i x, L.holder i = some x → x ∉ L.released
  nodup : L.released.Nodup
  released_lt : ∀ x ∈ L.released, x < L.acquired

/-- The resource is neither held nor released. -/
def Ledger.Lost (L : Ledger ι) (x : ℕ) : Prop :=
  x < L.acquired ∧ x ∉ L.released ∧ ∀ i, L.holder i ≠ some x

theorem sound_empty : (Ledger.empty ι).Sound := by
  refine ⟨?_, ?_, ?_, List.nodup_nil, ?_⟩
  all_goals simp [Ledger.empty]

/-- Once no place holds anything, every resource has been released once exactly if none is
lost. -/
theorem released_once_iff (hL : L.Sound) (hempty : ∀ i, L.holder i = none) :
    (∀ x < L.acquired, L.released.count x = 1) ↔ ∀ x, ¬L.Lost x := by
  constructor
  · rintro honce x ⟨hlt, hmem, -⟩
    exact absurd (honce x hlt) (by simp [List.count_eq_zero_of_not_mem hmem])
  · intro hlost x hlt
    have hmem : x ∈ L.released := by
      by_contra hmem
      exact hlost x ⟨hlt, hmem, by simp [hempty]⟩
    exact List.count_eq_one_of_mem hL.nodup hmem

/-! ## Operations -/

variable [DecidableEq ι] {i j : ι} {x : ℕ}

/-- A new resource, in the place `i`. -/
def Ledger.acquire (L : Ledger ι) (i : ι) : Ledger ι :=
  { L with acquired := L.acquired + 1, holder := update L.holder i (some L.acquired) }

def Ledger.clear (L : Ledger ι) (i : ι) : Ledger ι :=
  { L with holder := update L.holder i none }

/-- Release what the place holds. -/
def Ledger.release (L : Ledger ι) (i : ι) : Ledger ι :=
  match L.holder i with
  | none => L
  | some x => { L.clear i with released := L.released ++ [x] }

/-- What `i` holds passes to `j`. -/
def Ledger.transfer (L : Ledger ι) (i j : ι) : Ledger ι :=
  { L with holder := update (update L.holder j (L.holder i)) i none }

@[simp] theorem acquired_acquire : (L.acquire i).acquired = L.acquired + 1 := rfl

@[simp] theorem acquired_clear : (L.clear i).acquired = L.acquired := rfl

@[simp] theorem acquired_transfer : (L.transfer i j).acquired = L.acquired := rfl

@[simp] theorem acquired_release : (L.release i).acquired = L.acquired := by
  unfold Ledger.release
  split <;> rfl

@[simp] theorem holder_acquire : (L.acquire i).holder = update L.holder i (some L.acquired) := rfl

@[simp] theorem holder_clear : (L.clear i).holder = update L.holder i none := rfl

@[simp] theorem holder_transfer :
    (L.transfer i j).holder = update (update L.holder j (L.holder i)) i none := rfl

@[simp] theorem holder_release : (L.release i).holder = update L.holder i none := by
  unfold Ledger.release
  split
  next hnone => rw [← hnone, Function.update_eq_self]
  next => rfl

/-- Releasing from a place that holds nothing changes nothing. -/
theorem release_of_none (hnone : L.holder i = none) : L.release i = L := by
  rw [Ledger.release, hnone]

/-! ## Every operation keeps a ledger sound -/

theorem Ledger.Sound.clear (hL : L.Sound) (i : ι) : (L.clear i).Sound := by
  have hkept : ∀ k y, (L.clear i).holder k = some y → L.holder k = some y := by
    intro k y hk
    by_cases hki : k = i
    · subst hki
      simp at hk
    · simpa [hki] using hk
  refine ⟨?_, ?_, ?_, hL.nodup, hL.released_lt⟩
  · intro k y hk
    exact hL.holder_lt k y (hkept k y hk)
  · intro k l y hk hl
    exact hL.unique k l y (hkept k y hk) (hkept l y hl)
  · intro k y hk
    exact hL.held k y (hkept k y hk)

theorem Ledger.Sound.acquire (hL : L.Sound) (i : ι) : (L.acquire i).Sound := by
  have hkept : ∀ k y, (L.acquire i).holder k = some y →
      (k = i ∧ y = L.acquired) ∨ (k ≠ i ∧ L.holder k = some y) := by
    intro k y hk
    by_cases hki : k = i
    · subst hki
      left
      simpa [eq_comm] using hk
    · right
      simpa [hki] using hk
  refine ⟨?_, ?_, ?_, hL.nodup, ?_⟩
  · intro k y hk
    rcases hkept k y hk with ⟨-, rfl⟩ | ⟨-, hold⟩
    · exact Nat.lt_succ_self _
    · exact Nat.lt_succ_of_lt (hL.holder_lt k y hold)
  · intro k l y hk hl
    rcases hkept k y hk with ⟨rfl, hy⟩ | ⟨-, hold⟩ <;>
      rcases hkept l y hl with ⟨rfl, hy'⟩ | ⟨-, hold'⟩
    · rfl
    · exact absurd (hL.holder_lt l y hold') (by omega)
    · exact absurd (hL.holder_lt k y hold) (by omega)
    · exact hL.unique k l y hold hold'
  · intro k y hk hmem
    have hlt := hL.released_lt y hmem
    rcases hkept k y hk with ⟨-, rfl⟩ | ⟨-, hold⟩
    · exact absurd hlt (Nat.lt_irrefl _)
    · exact hL.held k y hold hmem
  · intro y hmem
    exact Nat.lt_succ_of_lt (hL.released_lt y hmem)

theorem Ledger.Sound.release (hL : L.Sound) (i : ι) : (L.release i).Sound := by
  rcases hhold : L.holder i with - | x
  · rwa [release_of_none hhold]
  · have hclear := hL.clear i
    have hfresh := hL.held i x hhold
    rw [Ledger.release, hhold]
    refine ⟨hclear.holder_lt, hclear.unique, ?_, ?_, ?_⟩
    · intro k y hk hmem
      rcases List.mem_append.1 hmem with hbefore | hx
      · exact hclear.held k y hk hbefore
      · rw [List.mem_singleton] at hx
        subst hx
        by_cases hki : k = i
        · subst hki
          simp at hk
        · exact hki (hL.unique k i y (by simpa [hki] using hk) hhold)
    · exact List.Nodup.append hL.nodup (List.nodup_singleton x) (by simpa using hfresh)
    · intro y hmem
      rcases List.mem_append.1 hmem with hbefore | hx
      · exact hL.released_lt y hbefore
      · rw [List.mem_singleton.1 hx]
        exact hL.holder_lt i x hhold

theorem Ledger.Sound.transfer (hL : L.Sound) (hij : i ≠ j) : (L.transfer i j).Sound := by
  have hkept : ∀ k y, (L.transfer i j).holder k = some y →
      (k = j ∧ L.holder i = some y) ∨ (k ≠ i ∧ k ≠ j ∧ L.holder k = some y) := by
    intro k y hk
    by_cases hki : k = i
    · subst hki
      simp at hk
    · by_cases hkj : k = j
      · subst hkj
        left
        simpa [hki] using hk
      · right
        simpa [hki, hkj] using hk
  refine ⟨?_, ?_, ?_, hL.nodup, hL.released_lt⟩
  · intro k y hk
    rcases hkept k y hk with ⟨-, hold⟩ | ⟨-, -, hold⟩
    · exact hL.holder_lt i y hold
    · exact hL.holder_lt k y hold
  · intro k l y hk hl
    rcases hkept k y hk with ⟨rfl, hold⟩ | ⟨hki, -, hold⟩ <;>
      rcases hkept l y hl with ⟨rfl, hold'⟩ | ⟨hli, -, hold'⟩
    · rfl
    · exact absurd (hL.unique l i y hold' hold) hli
    · exact absurd (hL.unique k i y hold hold') hki
    · exact hL.unique k l y hold hold'
  · intro k y hk
    rcases hkept k y hk with ⟨-, hold⟩ | ⟨-, -, hold⟩
    · exact hL.held i y hold
    · exact hL.held k y hold

/-! ## What an operation loses -/

theorem lost_clear_iff (hL : L.Sound) : (L.clear i).Lost x ↔ L.Lost x ∨ L.holder i = some x := by
  constructor
  · rintro ⟨hlt, hmem, hnone⟩
    by_cases hhold : L.holder i = some x
    · exact .inr hhold
    · refine .inl ⟨hlt, hmem, ?_⟩
      intro k hk
      by_cases hki : k = i
      · exact hhold (hki ▸ hk)
      · exact hnone k (by simpa [hki] using hk)
  · rintro (⟨hlt, hmem, hnone⟩ | hhold)
    · refine ⟨hlt, hmem, ?_⟩
      intro k hk
      by_cases hki : k = i
      · subst hki
        simp at hk
      · exact hnone k (by simpa [hki] using hk)
    · refine ⟨hL.holder_lt i x hhold, hL.held i x hhold, ?_⟩
      intro k hk
      by_cases hki : k = i
      · subst hki
        simp at hk
      · exact hki (hL.unique k i x (by simpa [hki] using hk) hhold)

/-- A place that is used again loses what it has held. -/
theorem lost_acquire_iff (hL : L.Sound) :
    (L.acquire i).Lost x ↔ L.Lost x ∨ L.holder i = some x := by
  rw [← lost_clear_iff hL]
  constructor
  · rintro ⟨hlt, hmem, hnone⟩
    have hne : x ≠ L.acquired := by
      rintro rfl
      exact hnone i (by simp)
    refine ⟨?_, hmem, ?_⟩
    · exact Nat.lt_of_le_of_ne (Nat.le_of_lt_succ hlt) hne
    · intro k hk
      by_cases hki : k = i
      · subst hki
        simp at hk
      · exact hnone k (by simpa [hki] using hk)
  · rintro ⟨hlt, hmem, hnone⟩
    refine ⟨Nat.lt_succ_of_lt hlt, hmem, ?_⟩
    intro k hk
    by_cases hki : k = i
    · subst hki
      rw [holder_acquire, update_self, Option.some.injEq] at hk
      exact absurd hlt (by simp [hk])
    · exact hnone k (by simpa [hki] using hk)

theorem lost_release_iff : (L.release i).Lost x ↔ L.Lost x := by
  rcases hhold : L.holder i with - | y
  · rw [release_of_none hhold]
  · constructor
    · rintro ⟨hlt, hmem, hnone⟩
      rw [Ledger.release, hhold] at hmem
      have hxy : x ≠ y := by
        rintro rfl
        exact hmem (by simp)
      refine ⟨by simpa using hlt, fun hx => hmem (by simp [hx]), ?_⟩
      intro k hk
      by_cases hki : k = i
      · subst hki
        rw [hhold, Option.some.injEq] at hk
        exact hxy hk.symm
      · exact hnone k (by simpa [hki] using hk)
    · rintro ⟨hlt, hmem, hnone⟩
      have hxy : x ≠ y := by
        rintro rfl
        exact hnone i hhold
      refine ⟨by simpa using hlt, ?_, ?_⟩
      · rw [Ledger.release, hhold]
        simpa [hxy] using hmem
      · intro k hk
        by_cases hki : k = i
        · subst hki
          simp at hk
        · exact hnone k (by simpa [hki] using hk)

theorem lost_transfer_iff (hij : i ≠ j) (hnone : L.holder j = none) :
    (L.transfer i j).Lost x ↔ L.Lost x := by
  constructor
  · rintro ⟨hlt, hmem, hfree⟩
    refine ⟨hlt, hmem, ?_⟩
    intro k hk
    by_cases hki : k = i
    · subst hki
      exact hfree j (by simpa [hij.symm] using hk)
    · by_cases hkj : k = j
      · subst hkj
        rw [hnone] at hk
        exact absurd hk (by simp)
      · exact hfree k (by simpa [hki, hkj] using hk)
  · rintro ⟨hlt, hmem, hfree⟩
    refine ⟨hlt, hmem, ?_⟩
    intro k hk
    by_cases hki : k = i
    · subst hki
      simp at hk
    · by_cases hkj : k = j
      · subst hkj
        exact hfree i (by simpa [hki] using hk)
      · exact hfree k (by simpa [hki, hkj] using hk)

end MiscProjects.Resources
