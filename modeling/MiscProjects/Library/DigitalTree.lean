import Mathlib.Data.Nat.Bitwise
import Mathlib.Logic.Function.Basic

/-!
# Digital trees

Every node of a digital tree has a key.  The keys below a node are divided by one bit, the
first that the nodes above it have not looked at; the key of the node itself is not ordered
with respect to them.  So the least key is on the path to the leftmost leaf, and the least
key that is not below a given one is on the path of that one or, if all on this path are
below it, on the path to the leftmost leaf of the last right subtree that is passed by.
-/

namespace MiscProjects.DigitalTree

open Function (update update_self update_of_ne)

inductive Trie (w : ℕ) (α : Type*)
  | null
  | node (key : BitVec w) (data : α) (child : Bool → Trie w α)

namespace Trie
variable {w k : ℕ} {α : Type*} {x y key : BitVec w} {t r : Trie w α} {c c' : Bool → Trie w α}
  {d d' : α}

def keys : Trie w α → List (BitVec w)
  | null => []
  | node key _ child => key :: ((child false).keys ++ (child true).keys)

def isNull : Trie w α → Bool
  | null => true
  | _ => false

/-- The bits of the keys from the `k`-th on, counted from the most significant one, lead to
their places, and every key is there once. -/
def Ordered : ℕ → Trie w α → Prop
  | _, null => True
  | k, node key _ child => ∀ b,
      (∀ x ∈ (child b).keys, x.getMsbD k = b ∧ x ≠ key) ∧ (child b).Ordered (k + 1)

theorem isNull_iff : t.isNull = true ↔ t = null := by
  cases t with
  | null => exact iff_of_true rfl rfl
  | node => exact iff_of_false Bool.false_ne_true nofun

theorem isNull_of_mem_keys (hx : x ∈ t.keys) : t.isNull = false := by
  cases t with
  | null => cases hx
  | node => rfl

theorem exists_key (h : t.isNull = false) : ∃ x, x ∈ t.keys := by
  cases t with
  | null => cases h
  | node key => exact ⟨key, List.mem_cons_self⟩

theorem mem_keys_node : x ∈ (node key d c).keys ↔ x = key ∨ ∃ b, x ∈ (c b).keys := by
  rw [keys, List.mem_cons, List.mem_append, Bool.exists_bool]

theorem keys_child (b : Bool) : (c b).keys ⊆ (node key d c).keys :=
  fun _ hx => mem_keys_node.mpr (.inr ⟨b, hx⟩)

theorem Ordered.update {b : Bool} (h : (node key d c).Ordered k) (ht : t.Ordered (k + 1))
    (hx : ∀ x ∈ t.keys, x.getMsbD k = b ∧ x ≠ key) : (node key d (update c b t)).Ordered k := by
  intro b'
  by_cases hb : b' = b
  · subst hb
    rw [update_self]
    exact ⟨hx, ht⟩
  · rw [update_of_ne hb]
    exact h b'

theorem forall_keys_update {P : BitVec w → Prop} {b : Bool} (ht : ∀ x ∈ t.keys, P x)
    (h : ∀ x ∈ (node key d c).keys, P x) : ∀ x ∈ (node key d (update c b t)).keys, P x := by
  intro x hx
  rcases mem_keys_node.mp hx with rfl | ⟨b', hx⟩
  · exact h x List.mem_cons_self
  · by_cases hb : b' = b
    · subst hb
      rw [update_self] at hx
      exact ht x hx
    · rw [update_of_ne hb] at hx
      exact h x (keys_child b' hx)

/-- A node may be replaced by any key below it. -/
theorem Ordered.replace (h : (node key d c).Ordered k) (hord : ∀ b, (c' b).Ordered (k + 1))
    (hsub : ∀ b, (c' b).keys ⊆ (c b).keys) (hx : ∀ b, x ∉ (c' b).keys) :
    (node x d' c').Ordered k :=
  fun b => ⟨fun y hy => ⟨((h b).1 y (hsub b hy)).1, fun heq => hx b (heq ▸ hy)⟩, hord b⟩

/-! ## Common bits -/

/-- The first `k` bits are the same. -/
def Agree (k : ℕ) (x y : BitVec w) : Prop := ∀ j < k, x.getMsbD j = y.getMsbD j

theorem Agree.succ (h : Agree k x y) (hbit : x.getMsbD k = y.getMsbD k) : Agree (k + 1) x y := by
  intro j hj
  rcases Nat.lt_succ_iff_lt_or_eq.mp hj with hj | rfl
  · exact h j hj
  · exact hbit

/-- The first bit that is different decides. -/
theorem Agree.lt (h : Agree k x y) (hx : x.getMsbD k = false) (hy : y.getMsbD k = true) :
    x < y := by
  have hk : k < w := by
    by_contra hle
    rw [BitVec.getMsbD_of_ge y k (Nat.not_lt.mp hle)] at hy
    cases hy
  have hbit (z : BitVec w) {j : ℕ} (hj : j < w) :
      z.getMsbD (w - 1 - j) = z.toNat.testBit j := by
    rw [BitVec.getMsbD_eq_getLsbD, decide_eq_true (by omega), Bool.true_and, BitVec.getLsbD]
    congr 1
    omega
  rw [show k = w - 1 - (w - 1 - k) by omega, hbit _ (by omega)] at hx hy
  refine Nat.lt_of_testBit (w - 1 - k) hx hy fun j hj => ?_
  by_cases hjw : j < w
  · rw [← hbit x hjw, ← hbit y hjw]
    exact h _ (by omega)
  · have hpow := Nat.pow_le_pow_right (by decide : 0 < 2) (Nat.not_lt.mp hjw)
    rw [Nat.testBit_lt_two_pow (x.isLt.trans_le hpow),
      Nat.testBit_lt_two_pow (y.isLt.trans_le hpow)]

/-- All keys of the tree have the same first `k` bits. -/
def Shares (k : ℕ) (t : Trie w α) : Prop := ∀ y ∈ t.keys, ∀ z ∈ t.keys, Agree k y z

theorem Ordered.shares (h : (node key d c).Ordered k) (hs : (node key d c).Shares k) (b : Bool) :
    (c b).Shares (k + 1) := fun y hy z hz =>
  (hs y (keys_child b hy) z (keys_child b hz)).succ (((h b).1 y hy).1.trans ((h b).1 z hz).1.symm)

/-- The keys on the left are less than those on the right. -/
theorem Ordered.lt (h : (node key d c).Ordered k) (hs : (node key d c).Shares k)
    (hx : x ∈ (c false).keys) (hy : y ∈ (c true).keys) : x < y :=
  (hs x (keys_child _ hx) y (keys_child _ hy)).lt ((h _).1 x hx).1 ((h _).1 y hy).1

/-! ## The least key -/

/-- The keys on the path to the leftmost leaf. -/
def leftPath : Trie w α → List (BitVec w)
  | null => []
  | node key _ child => key :: (child (child false).isNull).leftPath

theorem leftPath_subset (t : Trie w α) : t.leftPath ⊆ t.keys := by
  induction t with
  | null => exact List.Subset.refl _
  | node key d child ih =>
      exact List.cons_subset.mpr ⟨List.mem_cons_self, List.Subset.trans (ih _) (keys_child _)⟩

theorem exists_le_of_leftPath (h : t.Ordered k) (hs : t.Shares k) (hy : y ∈ t.keys) :
    ∃ z ∈ t.leftPath, z ≤ y := by
  induction t generalizing k y with
  | null => cases hy
  | node key d child ih =>
      rw [leftPath]
      have hin {x} (hx : x ∈ (child (child false).isNull).keys) (hxy : x ≤ y) :
          ∃ z ∈ key :: (child (child false).isNull).leftPath, z ≤ y := by
        obtain ⟨z, hz, hle⟩ := ih _ (h _).2 (h.shares hs _) hx
        exact ⟨z, List.mem_cons_of_mem _ hz, BitVec.le_trans hle hxy⟩
      rcases mem_keys_node.mp hy with rfl | ⟨b, hb⟩
      · exact ⟨y, List.mem_cons_self, BitVec.le_refl y⟩
      · by_cases heq : (child false).isNull = b
        · exact hin (heq ▸ hb) (BitVec.le_refl y)
        · cases b with
          | false => exact absurd (isNull_of_mem_keys hb) heq
          | true =>
              obtain ⟨x, hx⟩ := exists_key (Bool.eq_false_iff.mpr heq)
              refine hin ?_ (BitVec.le_of_lt (h.lt hs hx hb))
              rwa [Bool.eq_false_iff.mpr heq]

/-! ## The least key that is not below a given one -/

/-- The keys on the path of `x`. -/
def searchPath (x : BitVec w) : ℕ → Trie w α → List (BitVec w)
  | _, null => []
  | k, node key _ child => key :: (child (x.getMsbD k)).searchPath x (k + 1)

def orElse : Trie w α → Trie w α → Trie w α
  | null, t => t
  | t, _ => t

theorem orElse_of_not_null (h : t.isNull = false) : t.orElse r = t := by
  cases t with
  | null => cases h
  | node => rfl

/-- The last right subtree that the path of `x` passes by. -/
def passed (x : BitVec w) : ℕ → Trie w α → Trie w α → Trie w α
  | _, null, rst => rst
  | k, node _ _ child, rst => (child (x.getMsbD k)).passed x (k + 1)
      (if x.getMsbD k then rst else (child true).orElse rst)

/-- `r` is a subtree of `t`. -/
inductive Below (r : Trie w α) : Trie w α → Prop
  | refl : Below r r
  | child {key : BitVec w} {d : α} {c : Bool → Trie w α} (b : Bool) :
      Below r (c b) → Below r (node key d c)

theorem Below.keys_subset (h : Below r t) : r.keys ⊆ t.keys := by
  induction h with
  | refl => exact List.Subset.refl _
  | child b _ ih => exact List.Subset.trans ih (keys_child b)

/-- A subtree whose keys are all greater than `x`. -/
structure Above (x : BitVec w) (t r : Trie w α) : Prop where
  some_key : ∃ z, z ∈ r.keys
  below : Below r t
  lt : ∀ z ∈ r.keys, x < z
  ordered : ∃ k, r.Ordered k ∧ r.Shares k

/-- The least key that is not below `x` is on its path, or it is the least of what the path has
passed by last. -/
theorem searchPath_least (h : t.Ordered k) (hs : t.Shares k) (hx : ∀ y ∈ t.keys, Agree k x y)
    (rst : Trie w α) :
    (t.passed x k rst = rst ∧
        ∀ y ∈ t.keys, x ≤ y → ∃ z ∈ t.searchPath x k, x ≤ z ∧ z ≤ y) ∨
      Above x t (t.passed x k rst) ∧ ∀ y ∈ t.keys, x ≤ y →
        (∃ z ∈ t.searchPath x k, x ≤ z ∧ z ≤ y) ∨ ∃ z ∈ (t.passed x k rst).keys, z ≤ y := by
  induction t generalizing k rst with
  | null => exact .inl ⟨rfl, fun _ hy => absurd hy List.not_mem_nil⟩
  | node key d child ih =>
      rw [searchPath, passed]
      generalize hbit : x.getMsbD k = b
      have hxb : ∀ y ∈ (child b).keys, Agree (k + 1) x y :=
        fun y hy => (hx y (keys_child b hy)).succ (hbit.trans ((h b).1 y hy).1.symm)
      -- what is found for the subtree is found for the tree, unless `x` passes the key by
      have hfound {y} {P : Prop} (hy : y ∈ (node key d child).keys) (hle : x ≤ y)
          (hin : y ∈ (child b).keys → (∃ z ∈ (child b).searchPath x (k + 1), x ≤ z ∧ z ≤ y) ∨ P)
          (hout : y ∈ (child !b).keys → P) :
          (∃ z ∈ key :: (child b).searchPath x (k + 1), x ≤ z ∧ z ≤ y) ∨ P := by
        rcases mem_keys_node.mp hy with rfl | ⟨b', hy⟩
        · exact .inl ⟨y, List.mem_cons_self, hle, BitVec.le_refl y⟩
        · by_cases hb : b' = b
          · exact (hin (hb ▸ hy)).imp_left fun ⟨z, hz, hle⟩ => ⟨z, List.mem_cons_of_mem _ hz, hle⟩
          · exact .inr (hout (Bool.eq_not_of_ne hb ▸ hy))
      have hih := ih b (h b).2 (h.shares hs b) hxb
      cases b with
      | true =>
          have hout {P : Prop} {y} (hle : x ≤ y) (hy : y ∈ (child false).keys) : P :=
            absurd hle (BitVec.not_le.mpr (Agree.lt (fun j hj => (hx y (keys_child _ hy) j hj).symm)
              ((h false).1 y hy).1 hbit))
          refine (hih rst).imp ?_ ?_
          · rintro ⟨heq, hleast⟩
            refine ⟨heq, fun y hy hle => ?_⟩
            exact (hfound hy hle (fun h => .inl (hleast y h hle)) (hout hle)).resolve_right id
          · rintro ⟨habove, hleast⟩
            exact ⟨{ habove with below := .child true habove.below },
              fun y hy hle => hfound hy hle (hleast y · hle) (hout hle)⟩
      | false =>
          rcases hih ((child true).orElse rst) with ⟨heq, hleast⟩ | ⟨habove, hleast⟩
          · rw [if_neg Bool.false_ne_true, heq]
            cases hnull : (child true).isNull with
            | true =>
                rw [isNull_iff.mp hnull]
                refine .inl ⟨rfl, fun y hy hle => ?_⟩
                refine (hfound hy hle (fun h => .inl (hleast y h hle)) fun h => ?_).resolve_right id
                rw [Bool.not_false, isNull_iff.mp hnull] at h
                cases h
            | false =>
                rw [orElse_of_not_null hnull]
                refine .inr ⟨⟨exists_key hnull, .child true .refl, fun z hz =>
                  (hx z (keys_child _ hz)).lt hbit ((h true).1 z hz).1, _, (h true).2,
                  h.shares hs true⟩, fun y hy hle => ?_⟩
                exact hfound hy hle (fun h => .inl (hleast y h hle)) fun h =>
                  ⟨y, h, BitVec.le_refl y⟩
          · refine .inr ⟨{ habove with below := .child false habove.below }, fun y hy hle => ?_⟩
            refine hfound hy hle (hleast y · hle) fun hy => ?_
            obtain ⟨z, hz⟩ := habove.some_key
            exact ⟨z, hz, BitVec.le_of_lt (h.lt hs (habove.below.keys_subset hz) hy)⟩

end Trie

end MiscProjects.DigitalTree
