import Mathlib.Algebra.BigOperators.Group.Finset.Basic
import MiscProjects.Library.DigitalTree
import MiscProjects.Library.Runs

/-!
# The tree bins of `malloc.c`

A free chunk of 256 bytes or more is kept in one of 32 bins, each a digital tree of the sizes
in its range.  The chunks of one size are a ring with one of them in the tree.  A size has `w`
bits; a chunk is its address and its size.  The pointers of a node are its subtrees, so that
the links to the parents are not kept, and the memory is taken not to be corrupted.
-/

namespace MiscProjects.Malloc

open DigitalTree Runs
open Function (update update_apply update_self update_of_ne update_eq_self)

/-! ## Indexing bins -/

/-- The bin of a size: the size without its last eight bits is scanned for its first bit. -/
def computeTreeIndex (S : ℕ) : ℕ :=
  let X := S >>> 8
  if X = 0 then 0
  else if X > 0xFFFF then 31
  else
    let K := Nat.log2 X
    (K <<< 1) + (S >>> (K + 7) &&& 1)

def leftshiftForTreeIndex (w i : ℕ) : ℕ := if i = 31 then 0 else w - 1 - (i / 2 + 8 - 2)

def minsizeForTreeIndex (i : ℕ) : ℕ := 1 <<< (i / 2 + 8) ||| (i &&& 1) <<< (i / 2 + 8 - 1)

def isSmall (s : ℕ) : Bool := s >>> 3 < 32

def idx2bit (i : ℕ) : BitVec 32 := 1#32 <<< i

def leastBit (x : BitVec 32) : BitVec 32 := x &&& -x

def leftBits (x : BitVec 32) : BitVec 32 := x <<< 1 ||| -(x <<< 1)

/-! ## The state -/

/-- The chunks of one size: the one in the tree, and the others in the order of `fd`. -/
structure Ring where
  head : ℕ
  others : List ℕ

abbrev TChunk (w : ℕ) := Trie w Ring

structure Bins (w : ℕ) where
  treemap : BitVec 32
  treebins : ℕ → TChunk w

variable {w : ℕ}

/-- `init_bins`. -/
def Bins.init : Bins w where
  treemap := 0
  treebins _ := .null

/-! ## Operations on trees -/

/-- The loop of `insert_large_chunk`; `K` is the size, shifted. -/
def insertTree (X : ℕ) (S : BitVec w) : BitVec w → TChunk w → TChunk w
  | _, .null => .node S ⟨X, []⟩ fun _ => .null
  | K, .node size ring child =>
      if size ≠ S then
        .node size ring (update child K.msb (insertTree X S (K <<< 1) (child K.msb)))
      else .node size { ring with others := X :: ring.others } child

def Bins.insertLargeChunk (X : ℕ) (S : BitVec w) (m : Bins w) : Bins w :=
  let I := computeTreeIndex S.toNat
  if m.treemap.getLsbD I then
    { m with
      treebins := update m.treebins I
        (insertTree X S (S <<< leftshiftForTreeIndex w I) (m.treebins I)) }
  else
    { treemap := m.treemap ||| idx2bit I
      treebins := update m.treebins I (.node S ⟨X, []⟩ fun _ => .null) }

/-- The rightmost leaf, and the tree without it. -/
def dropLeaf : TChunk w → Option ((BitVec w × Ring) × TChunk w)
  | .null => none
  | .node size ring child =>
      match dropLeaf (child true) with
      | some (R, t) => some (R, .node size ring (update child true t))
      | none =>
          match dropLeaf (child false) with
          | some (R, t) => some (R, .node size ring (update child false t))
          | none => some ((size, ring), .null)

/-- The last chunk of its size is replaced by the rightmost leaf below it. -/
def replaceNode (t : TChunk w) : TChunk w :=
  match dropLeaf t with
  | some ((size, ring), .node _ _ child) => .node size ring child
  | _ => .null

/-- The chunk `X` is in the ring of its size `S`. -/
def unlinkTree (X : ℕ) (S : BitVec w) : TChunk w → TChunk w
  | .null => .null
  | .node size ring child =>
      if size = S then
        if ring.head = X then
          match ring.others.getLast? with
          | some R => .node size ⟨R, ring.others.dropLast⟩ child
          | none => replaceNode (.node size ring child)
        else .node size { ring with others := ring.others.erase X } child
      else .node size ring fun b => unlinkTree X S (child b)

def Bins.unlinkLargeChunk (X : ℕ) (S : BitVec w) (m : Bins w) : Bins w :=
  let I := computeTreeIndex S.toNat
  let t := unlinkTree X S (m.treebins I)
  { treemap := if t.isNull then m.treemap &&& ~~~ idx2bit I else m.treemap
    treebins := update m.treebins I t }

/-! ## `tmalloc_large` and `tmalloc_small` -/

/-- The best chunk so far, and what it has more than requested. -/
structure Fit (w : ℕ) where
  v : Option (ℕ × BitVec w)
  rsize : BitVec w

def Fit.consider (nb : BitVec w) (t : ℕ × BitVec w) (f : Fit w) : Fit w :=
  if t.2 - nb < f.rsize then ⟨some t, t.2 - nb⟩ else f

/-- The loop down the tree of the bin of `nb`, with the subtree that the second loop is to go
through. -/
def descend (nb : BitVec w) : BitVec w → TChunk w → TChunk w → Fit w → Fit w × TChunk w
  | _, .null, rst, f => (f, rst)
  | sizebits, .node size ring child, rst, f =>
      let f' := f.consider nb (ring.head, size)
      if size - nb < f.rsize ∧ size - nb = 0 then (f', .node size ring child)
      else descend nb (sizebits <<< 1) (child sizebits.msb)
        (if sizebits.msb then rst else (child true).orElse rst) f'

/-- The loop along `leftmost_child`. -/
def sweep (nb : BitVec w) : TChunk w → Fit w → Fit w
  | .null, f => f
  | .node size ring child, f =>
      sweep nb (child (child false).isNull) (f.consider nb (ring.head, size))

/-- The root of the next non-empty bin. -/
def Bins.nextTree (m : Bins w) (idx : ℕ) : TChunk w :=
  let leftbits := leftBits (idx2bit idx) &&& m.treemap
  if leftbits ≠ 0 then m.treebins (leastBit leftbits).ctz.toNat else .null

def Bins.search (nb : BitVec w) (m : Bins w) : Fit w :=
  let idx := computeTreeIndex nb.toNat
  let r := descend nb (nb <<< leftshiftForTreeIndex w idx) (m.treebins idx) .null ⟨none, -nb⟩
  sweep nb (if r.2.isNull && r.1.v.isNone then m.nextTree idx else r.2) r.1

/-- A remainder that is small goes to a small bin. -/
def Bins.split (nb : BitVec w) (v : ℕ × BitVec w) (m : Bins w) : Bins w :=
  let m' := m.unlinkLargeChunk v.1 v.2
  if isSmall (v.2 - nb).toNat then m' else m'.insertLargeChunk (v.1 + nb.toNat) (v.2 - nb)

def Bins.tmallocLarge (nb dvsize : BitVec w) (m : Bins w) : Option ((ℕ × BitVec w) × Bins w) :=
  let f := m.search nb
  match f.v with
  | some v => if f.rsize < dvsize - nb then some (v, m.split nb v) else none
  | none => none

/-- The smallest chunk of all is taken; the remainder becomes the designated victim. -/
def Bins.tmallocSmall (nb : BitVec w) (m : Bins w) : Option ((ℕ × BitVec w) × Bins w) :=
  match m.treebins (leastBit m.treemap).ctz.toNat with
  | .null => none
  | .node size ring child =>
      let f := sweep nb (child (child false).isNull) ⟨some (ring.head, size), size - nb⟩
      f.v.map fun v => (v, m.unlinkLargeChunk v.1 v.2)

/-! ## The index of a size -/

section Index
variable {S T i j : ℕ}

theorem minsizeForTreeIndex_eq (hi : i < 32) :
    minsizeForTreeIndex i = (2 + i % 2) * 2 ^ (i / 2 + 7) := by
  revert i
  decide

/-- The leading bits of a size are those of the bounds of its bin. -/
theorem computeTreeIndex_spec (hS : 256 ≤ S) :
    computeTreeIndex S = 31 ∧ 2 ^ 24 ≤ S ∨
      computeTreeIndex S < 32 ∧
        S / 2 ^ (computeTreeIndex S / 2 + 7) = 2 + computeTreeIndex S % 2 := by
  have hX : S >>> 8 = S / 256 := Nat.shiftRight_eq_div_pow S 8
  rw [computeTreeIndex, hX, if_neg (by omega)]
  split
  · exact .inl ⟨rfl, by omega⟩
  · next hle =>
    refine .inr ?_
    have hX0 : S / 256 ≠ 0 := by omega
    generalize hK : Nat.log2 (S / 256) = K
    have hlow := hK ▸ Nat.log2_self_le hX0
    have hhigh : S / 256 < 2 ^ (K + 1) := hK ▸ Nat.lt_log2_self
    have hK16 : K < 16 := (Nat.pow_lt_pow_iff_right (by decide : 1 < 2)).mp
      (hlow.trans_lt (by omega))
    have hq : S / 2 ^ (K + 7) = 2 ∨ S / 2 ^ (K + 7) = 3 := by
      have hsplit : S / 2 ^ (K + 7) / 2 = S / 256 / 2 ^ K := by
        rw [Nat.div_div_eq_div_mul, Nat.div_div_eq_div_mul, ← Nat.pow_succ]
        congr 1
        rw [show 256 = 2 ^ 8 from rfl, ← Nat.pow_add, Nat.add_comm 8 K]
      have hone : S / 256 / 2 ^ K = 1 :=
        Nat.div_eq_of_lt_le (by omega) (by rw [Nat.pow_succ] at hhigh; omega)
      omega
    have hbit : S >>> (K + 7) &&& 1 = S / 2 ^ (K + 7) % 2 := by
      rw [Nat.and_one_is_mod, Nat.shiftRight_eq_div_pow]
    dsimp only
    rw [hbit, Nat.shiftLeft_eq, Nat.pow_one]
    rcases hq with hq | hq
    · rw [hq, show (K * 2 + 2 % 2) / 2 = K by omega, hq]
      omega
    · rw [hq, show (K * 2 + 3 % 2) / 2 = K by omega, hq]
      omega

theorem computeTreeIndex_lt (S : ℕ) : computeTreeIndex S < 32 := by
  by_cases hS : 256 ≤ S
  · rcases computeTreeIndex_spec hS with ⟨h, -⟩ | ⟨h, -⟩
    · omega
    · exact h
  · have hX : S >>> 8 = 0 := by
      rw [Nat.shiftRight_eq_div_pow]
      exact Nat.div_eq_of_lt (by omega)
    rw [computeTreeIndex, hX, if_pos rfl]
    decide

/-- Every size is in the range of its bin. -/
theorem computeTreeIndex_range (hS : 256 ≤ S) :
    minsizeForTreeIndex (computeTreeIndex S) ≤ S ∧
      (computeTreeIndex S = 31 ∨ S < minsizeForTreeIndex (computeTreeIndex S + 1)) := by
  rcases computeTreeIndex_spec hS with ⟨h31, hle⟩ | ⟨hlt, hq⟩
  · rw [h31, minsizeForTreeIndex_eq (by decide)]
    exact ⟨by omega, .inl rfl⟩
  · generalize computeTreeIndex S = i at *
    have hpos : 0 < 2 ^ (i / 2 + 7) := Nat.two_pow_pos _
    rw [minsizeForTreeIndex_eq hlt, ← hq]
    refine ⟨Nat.div_mul_le_self S _, ?_⟩
    by_cases h31 : i = 31
    · exact .inl h31
    · refine .inr ?_
      rw [minsizeForTreeIndex_eq (by omega)]
      have hnext : (2 + (i + 1) % 2) * 2 ^ ((i + 1) / 2 + 7) = (3 + i % 2) * 2 ^ (i / 2 + 7) := by
        rcases Nat.mod_two_eq_zero_or_one i with heven | hodd
        · rw [show (i + 1) / 2 = i / 2 by omega, heven, show (i + 1) % 2 = 1 by omega]
        · rw [show (i + 1) / 2 + 7 = i / 2 + 7 + 1 by omega, hodd, show (i + 1) % 2 = 0 by omega,
            Nat.pow_succ]
          omega
      rw [hnext, show 3 + i % 2 = S / 2 ^ (i / 2 + 7) + 1 by omega]
      exact Nat.lt_mul_of_div_lt (Nat.lt_succ_self _) hpos

theorem minsizeForTreeIndex_mono (hij : i ≤ j) (hj : j < 32) :
    minsizeForTreeIndex i ≤ minsizeForTreeIndex j := by
  revert i
  revert j
  decide

/-- A size in a lower bin is smaller. -/
theorem lt_of_computeTreeIndex_lt (hS : 256 ≤ S) (hT : 256 ≤ T)
    (hlt : computeTreeIndex S < computeTreeIndex T) : S < T := by
  have hj := computeTreeIndex_lt T
  have hmono := minsizeForTreeIndex_mono (Nat.succ_le_of_lt hlt) hj
  rcases (computeTreeIndex_range hS).2 with h31 | hS
  · omega
  · exact (hS.trans_le hmono).trans_le (computeTreeIndex_range hT).1

/-- The bits that the trees do not look at are the same in a bin. -/
theorem agree_of_computeTreeIndex {x y : BitVec w} (hx : 256 ≤ x.toNat) (hy : 256 ≤ y.toNat)
    (heq : computeTreeIndex x.toNat = computeTreeIndex y.toNat) :
    Trie.Agree (leftshiftForTreeIndex w (computeTreeIndex x.toNat)) x y := by
  intro j hj
  rw [leftshiftForTreeIndex] at hj
  split at hj
  · omega
  · next h31 =>
    have hqx := ((computeTreeIndex_spec hx).resolve_left fun h => h31 h.1).2
    have hqy := ((computeTreeIndex_spec hy).resolve_left fun h => h31 (heq.trans h.1)).2
    rw [← heq, ← hqx] at hqy
    generalize computeTreeIndex x.toNat = i at *
    have hbit (z : BitVec w) : z.getMsbD j =
        (z.toNat / 2 ^ (i / 2 + 7)).testBit (w - 1 - j - (i / 2 + 7)) := by
      rw [BitVec.getMsbD_eq_getLsbD, decide_eq_true (by omega), Bool.true_and, BitVec.getLsbD,
        Nat.testBit_div_two_pow]
      congr 1
      omega
    rw [hbit, hbit, hqy]

end Index

/-! ## Chunks -/

section Trees
variable {k X : ℕ} {S size x : BitVec w} {ring : Ring} {t : TChunk w} {child c' : Bool → TChunk w}
  {b : Bool} {c : ℕ × BitVec w} {R : BitVec w × Ring} {M : Multiset (ℕ × BitVec w)}

def Ring.chunks (size : BitVec w) (ring : Ring) : Multiset (ℕ × BitVec w) :=
  ((ring.head :: ring.others).map fun X => (X, size) : List (ℕ × BitVec w))

/-- The chunks in a tree. -/
def chunks : TChunk w → Multiset (ℕ × BitVec w)
  | .null => 0
  | .node size ring child => ring.chunks size + (chunks (child false) + chunks (child true))

theorem mem_ringChunks : c ∈ ring.chunks size ↔ c.1 ∈ ring.head :: ring.others ∧ c.2 = size := by
  obtain ⟨X, s⟩ := c
  rw [Ring.chunks, Multiset.mem_coe, List.mem_map]
  constructor
  · rintro ⟨Y, hY, heq⟩
    obtain ⟨rfl, rfl⟩ := Prod.mk.inj heq
    exact ⟨hY, rfl⟩
  · rintro ⟨hX, rfl⟩
    exact ⟨X, hX, rfl⟩

theorem mem_chunks_node :
    c ∈ chunks (.node size ring child) ↔ c ∈ ring.chunks size ∨ ∃ b, c ∈ chunks (child b) := by
  rw [chunks, Multiset.mem_add, Multiset.mem_add, Bool.exists_bool]

theorem head_mem_chunks (size : BitVec w) (ring : Ring) (child : Bool → TChunk w) :
    (ring.head, size) ∈ chunks (.node size ring child) :=
  mem_chunks_node.mpr (.inl (mem_ringChunks.mpr ⟨List.mem_cons_self, rfl⟩))

theorem mem_chunks_child (b : Bool) (hc : c ∈ chunks (child b)) :
    c ∈ chunks (.node size ring child) := mem_chunks_node.mpr (.inr ⟨b, hc⟩)

theorem mem_keys (hc : c ∈ chunks t) : c.2 ∈ t.keys := by
  induction t with
  | null => cases Multiset.notMem_zero _ hc
  | node size ring child ih =>
      rw [Trie.mem_keys_node]
      exact (mem_chunks_node.mp hc).imp (fun h => (mem_ringChunks.mp h).2)
        fun ⟨b, h⟩ => ⟨b, ih b h⟩

/-- What is in one subtree, and the rest. -/
theorem chunks_update_child (b : Bool) (t : TChunk w) :
    chunks (.node size ring (update child b t)) =
      chunks t + (ring.chunks size + chunks (child !b)) := by
  cases b <;> simp only [chunks, update_apply, Bool.not_true, Bool.not_false, reduceIte,
    Bool.false_eq_true, Bool.true_eq_false, add_assoc, add_comm]

theorem chunks_child (b : Bool) : chunks (.node size ring child) =
    chunks (child b) + (ring.chunks size + chunks (child !b)) := by
  rw [← chunks_update_child, update_eq_self]

/-! ## Inserting -/

theorem chunks_insertTree (X : ℕ) (S K : BitVec w) (t : TChunk w) :
    chunks (insertTree X S K t) = (X, S) ::ₘ chunks t := by
  induction t generalizing K with
  | null => rfl
  | node size ring child ih =>
      rw [insertTree]
      split
      · rw [chunks_update_child, ih, chunks_child K.msb, Multiset.cons_add]
      · next hsize =>
        obtain rfl := not_not.mp hsize
        rw [chunks, chunks, ← Multiset.cons_add]
        exact congrArg (· + _) (Multiset.coe_eq_coe.mpr (.swap ..))

theorem mem_keys_insertTree (K : BitVec w) :
    ∀ x ∈ (insertTree X S K t).keys, x = S ∨ x ∈ t.keys := by
  induction t generalizing K with
  | null => exact fun x hx => .inl (List.mem_singleton.mp hx)
  | node size ring child ih =>
      rw [insertTree]
      split
      · exact Trie.forall_keys_update
          (fun x hx => (ih _ _ x hx).imp_right (Trie.keys_child K.msb ·)) fun x => .inr
      · exact fun x => .inr

theorem shiftLeft_succ (S : BitVec w) (k : ℕ) : S <<< k <<< 1 = S <<< (k + 1) :=
  (BitVec.shiftLeft_add S k 1).symm

theorem ordered_insertTree (h : t.Ordered k) : (insertTree X S (S <<< k) t).Ordered k := by
  induction t generalizing k with
  | null => exact fun _ => ⟨nofun, trivial⟩
  | node size ring child ih =>
      rw [insertTree, shiftLeft_succ, BitVec.msb_shiftLeft]
      split
      · next hne =>
        refine h.update (ih _ (h _).2) fun x hx => ?_
        rcases mem_keys_insertTree _ x hx with rfl | hx
        · exact ⟨rfl, Ne.symm hne⟩
        · exact (h _).1 x hx
      · exact h

/-! ## Unlinking -/

/-- Chunks are taken from a tree. -/
structure Loses (k : ℕ) (t : TChunk w) (M : Multiset (ℕ × BitVec w)) (t' : TChunk w) : Prop where
  chunks : chunks t = M + chunks t'
  sub : t'.keys ⊆ t.keys
  ordered : t'.Ordered k

theorem Loses.below (h : (Trie.node size ring child).Ordered k)
    (ht : Loses (k + 1) (child b) M t) :
    Loses k (.node size ring child) M (.node size ring (update child b t)) where
  chunks := by
    rw [chunks_update_child, chunks_child b, ht.chunks, add_assoc]
  sub := Trie.forall_keys_update (fun _ hx => Trie.keys_child b (ht.sub hx)) fun _ => id
  ordered := h.update ht.ordered fun x hx => (h b).1 x (ht.sub hx)

/-- A leaf is taken: the tree had it once. -/
structure Takes (k : ℕ) (t : TChunk w) (R : BitVec w × Ring) (t' : TChunk w) : Prop
    extends Loses k t (R.2.chunks R.1) t' where
  mem : R.1 ∈ t.keys
  gone : R.1 ∉ t'.keys

theorem Takes.below (h : (Trie.node size ring child).Ordered k)
    (ht : Takes (k + 1) (child b) R t) :
    Takes k (.node size ring child) R (.node size ring (update child b t)) where
  toLoses := ht.toLoses.below h
  mem := Trie.keys_child b ht.mem
  gone hx := by
    obtain ⟨hbit, hne⟩ := (h b).1 R.1 ht.mem
    rcases Trie.mem_keys_node.mp hx with heq | ⟨b', hx⟩
    · exact hne heq
    · by_cases hb : b' = b
      · subst hb
        rw [update_self] at hx
        exact ht.gone hx
      · rw [update_of_ne hb] at hx
        exact hb (((h b').1 R.1 hx).1.symm.trans hbit)

theorem dropLeaf_takes (h : t.Ordered k) :
    t = .null ∧ dropLeaf t = none ∨ ∃ R t', dropLeaf t = some (R, t') ∧ Takes k t R t' := by
  induction t generalizing k with
  | null => exact .inl ⟨rfl, rfl⟩
  | node size ring child ih =>
      refine .inr ?_
      rw [dropLeaf]
      rcases ih true (h true).2 with ⟨hright, hnone⟩ | ⟨R, t', hsome, ht⟩
      · rw [hnone]
        rcases ih false (h false).2 with ⟨hleft, hnone⟩ | ⟨R, t', hsome, ht⟩
        · rw [hnone]
          refine ⟨_, _, rfl, ⟨?_, nofun, trivial⟩, List.mem_cons_self, nofun⟩
          rw [chunks_child true, Bool.not_true, hright, hleft, chunks, zero_add]
        · rw [hsome]
          exact ⟨R, _, rfl, ht.below h⟩
      · rw [hsome]
        exact ⟨R, _, rfl, ht.below h⟩

/-- The node is replaced by a leaf that has been taken from below it. -/
theorem Takes.replaces (h : (Trie.node size ring child).Ordered k)
    (ht : Takes k (.node size ring child) R (.node size ring c'))
    (hsub : ∀ b, (c' b).keys ⊆ (child b).keys) :
    Loses k (.node size ring child) (ring.chunks size) (.node R.1 R.2 c') where
  chunks := by
    rw [ht.chunks, Malloc.chunks, Malloc.chunks, add_left_comm]
  sub x hx := by
    rcases Trie.mem_keys_node.mp hx with rfl | ⟨b, hx⟩
    · exact ht.mem
    · exact ht.sub (Trie.keys_child b hx)
  ordered := h.replace (fun b => (ht.ordered b).2) hsub fun b hx => ht.gone (Trie.keys_child b hx)

theorem Takes.replaces_child (h : (Trie.node size ring child).Ordered k)
    (ht : Takes (k + 1) (child b) R t) :
    Loses k (.node size ring child) (ring.chunks size) (.node R.1 R.2 (update child b t)) := by
  refine (ht.below h).replaces h fun b' => ?_
  by_cases hb : b' = b
  · subst hb
    rw [update_self]
    exact ht.sub
  · rw [update_of_ne hb]
    exact List.Subset.refl _

theorem replaceNode_loses (h : (Trie.node size ring child).Ordered k) :
    Loses k (.node size ring child) (ring.chunks size) (replaceNode (.node size ring child)) := by
  rw [replaceNode, dropLeaf]
  rcases dropLeaf_takes (h true).2 with ⟨hright, hnone⟩ | ⟨R, t', hsome, ht⟩
  · rw [hnone]
    rcases dropLeaf_takes (h false).2 with ⟨hleft, hnone⟩ | ⟨R, t', hsome, ht⟩
    · rw [hnone]
      refine ⟨?_, nofun, trivial⟩
      rw [chunks_child true, Bool.not_true, hright, hleft, chunks, zero_add]
    · rw [hsome]
      exact ht.replaces_child h
  · rw [hsome]
    exact ht.replaces_child h

theorem unlinkTree_eq (hS : S ∉ t.keys) : unlinkTree X S t = t := by
  induction t with
  | null => rfl
  | node size ring child ih =>
      rw [Trie.mem_keys_node, not_or, not_exists] at hS
      rw [unlinkTree, if_neg (Ne.symm hS.1)]
      exact congrArg _ (funext fun b => ih b (hS.2 b))

/-- The ring loses the chunk and the tree stays as it is. -/
theorem loses_of_perm {ring' : Ring} (h : (Trie.node size ring child).Ordered k)
    (hperm : (ring.head :: ring.others).Perm (X :: ring'.head :: ring'.others)) :
    Loses k (.node size ring child) {(X, size)} (.node size ring' child) where
  chunks := by
    have hchunks : ring.chunks size = (X, size) ::ₘ ring'.chunks size :=
      Multiset.coe_eq_coe.mpr (hperm.map _)
    rw [chunks, chunks, hchunks, Multiset.cons_add, Multiset.singleton_add]
  sub _ := id
  ordered := h

theorem unlinkTree_loses (h : t.Ordered k) (hc : (X, S) ∈ chunks t) :
    Loses k t {(X, S)} (unlinkTree X S t) := by
  induction t generalizing k with
  | null => cases Multiset.notMem_zero _ hc
  | node size ring child ih =>
      rw [unlinkTree]
      split
      · next hsize =>
        subst hsize
        have hring : X ∈ ring.head :: ring.others := by
          rcases mem_chunks_node.mp hc with hc | ⟨b, hc⟩
          · exact (mem_ringChunks.mp hc).1
          · exact absurd rfl ((h b).1 size (mem_keys hc)).2
        split
        · next hhead =>
          subst hhead
          split
          · next R hlast =>
            obtain ⟨rest, heq⟩ := List.getLast?_eq_some_iff.mp hlast
            apply loses_of_perm h
            rw [heq, List.dropLast_concat]
            exact (List.perm_append_singleton R rest).cons ring.head
          · next hlast =>
            have hone : ring.chunks size = {(ring.head, size)} := by
              rw [Ring.chunks, List.getLast?_eq_none_iff.mp hlast]
              rfl
            exact hone ▸ replaceNode_loses h
        · next hhead =>
          have hmem : X ∈ ring.others := List.mem_of_ne_of_mem (Ne.symm hhead) hring
          exact loses_of_perm h (((List.perm_cons_erase hmem).cons ring.head).trans (.swap ..))
      · next hsize =>
        rcases mem_chunks_node.mp hc with hc | ⟨b, hc⟩
        · exact absurd (mem_ringChunks.mp hc).2.symm hsize
        · have hbit := ((h b).1 S (mem_keys hc)).1
          have hothers : (fun b => unlinkTree X S (child b)) =
              update child b (unlinkTree X S (child b)) := by
            funext b'
            by_cases hb : b' = b
            · rw [hb, update_self]
            · rw [update_of_ne hb]
              exact unlinkTree_eq fun hS => hb (((h b').1 S hS).1.symm.trans hbit)
          rw [hothers]
          exact (ih b (h b).2 hc).below h

end Trees

/-! ## The best fit -/

section Fits
variable {k : ℕ} {nb size x y K : BitVec w} {t t' rst : TChunk w} {c : ℕ × BitVec w} {f : Fit w}
  {P : ℕ × BitVec w → Prop}

/-- What has been found fits and has `P`. -/
structure Fit.Of (nb : BitVec w) (P : ℕ × BitVec w → Prop) (f : Fit w) : Prop where
  rsize : f.rsize = f.v.elim (-nb) (·.2 - nb)
  fits : ∀ c ∈ f.v, nb ≤ c.2 ∧ P c

/-- What has been found is not larger than `x`. -/
def Fit.AtMost (f : Fit w) (x : BitVec w) : Prop := ∃ c ∈ f.v, c.2 ≤ x

theorem Fit.AtMost.mono (h : f.AtMost x) (hle : x ≤ y) : f.AtMost y := by
  obtain ⟨c, hc, hcx⟩ := h
  exact ⟨c, hc, BitVec.le_trans hcx hle⟩

/-- The difference that wraps around is no better than what the loop starts with. -/
theorem sub_lt_neg_iff (hnb : 0 < nb) : x - nb < -nb ↔ nb ≤ x := by
  have hpos : 0 < nb.toNat := hnb
  rw [BitVec.lt_def, BitVec.toNat_neg_of_pos hnb]
  by_cases hle : nb ≤ x
  · rw [BitVec.toNat_sub_of_le hle]
    exact iff_of_true (by have := x.isLt; have := BitVec.le_def.mp hle; omega) hle
  · rw [BitVec.toNat_sub_of_lt (BitVec.not_le.mp hle)]
    exact iff_of_false (by omega) hle

theorem sub_lt_sub_iff (hle : nb ≤ y) : x - nb < y - nb ↔ nb ≤ x ∧ x < y := by
  rw [BitVec.lt_def, BitVec.toNat_sub_of_le hle, BitVec.lt_def]
  have hy := y.isLt
  rw [BitVec.le_def] at hle
  by_cases hx : nb ≤ x
  · rw [BitVec.toNat_sub_of_le hx, BitVec.le_def]
    rw [BitVec.le_def] at hx
    omega
  · rw [BitVec.toNat_sub_of_lt (BitVec.not_le.mp hx)]
    exact iff_of_false (by omega) fun h => hx h.1

theorem Fit.Of.lt_rsize (hnb : 0 < nb) (hf : f.Of nb P) :
    x - nb < f.rsize ↔ nb ≤ x ∧ ∀ c ∈ f.v, x < c.2 := by
  rw [hf.rsize]
  cases hv : f.v with
  | none => simpa using sub_lt_neg_iff hnb
  | some c => simpa using sub_lt_sub_iff (hf.fits c hv).1

theorem Fit.Of.consider (hnb : 0 < nb) (hf : f.Of nb P) (hc : P c) :
    (f.consider nb c).Of nb P ∧ (nb ≤ c.2 → (f.consider nb c).AtMost c.2) ∧
      ∀ x, f.AtMost x → (f.consider nb c).AtMost x := by
  rw [Fit.consider]
  split
  · next hlt =>
    obtain ⟨hle, hless⟩ := (hf.lt_rsize hnb).mp hlt
    refine ⟨⟨rfl, fun c' hc' => ?_⟩, fun _ => ⟨c, rfl, BitVec.le_refl _⟩, ?_⟩
    · obtain rfl := Option.some.inj hc'
      exact ⟨hle, hc⟩
    · rintro x ⟨c', hc', hx⟩
      exact ⟨c, rfl, BitVec.le_trans (BitVec.le_of_lt (hless c' hc')) hx⟩
  · next hlt =>
    refine ⟨hf, fun hle => ?_, fun _ => id⟩
    by_contra hno
    refine hlt ((hf.lt_rsize hnb).mpr ⟨hle, fun c' hc' => BitVec.not_le.mp fun hle' => ?_⟩)
    exact hno ⟨c', hc', hle'⟩

/-- A loop over trees has looked at some sizes. -/
structure Looks (nb : BitVec w) (P : ℕ × BitVec w → Prop) (f : Fit w) (l : List (BitVec w))
    (f' : Fit w) : Prop where
  of : f'.Of nb P
  looks : ∀ x ∈ l, nb ≤ x → f'.AtMost x
  mono : ∀ x, f.AtMost x → f'.AtMost x

theorem Fit.Of.looks (hnb : 0 < nb) (hf : f.Of nb P) (hc : P c) {l : List (BitVec w)} {f' : Fit w}
    (h : Looks nb P (f.consider nb c) l f') : Looks nb P f (c.2 :: l) f' where
  of := h.of
  looks x hx hle := by
    rcases List.mem_cons.mp hx with rfl | hx
    · exact h.mono c.2 ((hf.consider hnb hc).2.1 hle)
    · exact h.looks x hx hle
  mono x hx := h.mono x ((hf.consider hnb hc).2.2 x hx)

theorem sweep_looks (hnb : 0 < nb) (hf : f.Of nb P) (hP : ∀ c ∈ chunks t, P c) :
    Looks nb P f t.leftPath (sweep nb t f) := by
  induction t generalizing f with
  | null => exact ⟨hf, nofun, fun _ => id⟩
  | node size ring child ih =>
      have hhead := hP _ (head_mem_chunks ..)
      exact hf.looks hnb hhead
        (ih _ (hf.consider hnb hhead).1 fun c hc => hP c (mem_chunks_child _ hc))

/-- After an exact fit nothing is better. -/
theorem sweep_of_exact (h : f.rsize = 0) : sweep nb t f = f := by
  induction t with
  | null => rfl
  | node size ring child ih =>
      have hstay : f.consider nb (ring.head, size) = f := by
        rw [Fit.consider, h]
        exact if_neg BitVec.not_lt_zero
      rw [sweep, hstay]
      exact ih _

/-- The first loop ends with an exact fit, or behind a leaf with the subtree passed last. -/
theorem descend_looks (rst : TChunk w) (hnb : 0 < nb) (hf : f.Of nb P)
    (hP : ∀ c ∈ chunks t, P c) :
    let r := descend nb (nb <<< k) t rst f
    (r.1.Of nb P ∧ r.1.AtMost nb ∧ r.1.rsize = 0) ∨
      Looks nb P f (t.searchPath nb k) r.1 ∧ r.2 = t.passed nb k rst := by
  induction t generalizing k rst f with
  | null => exact .inr ⟨⟨hf, nofun, fun _ => id⟩, rfl⟩
  | node size ring child ih =>
      have hhead := hP _ (head_mem_chunks ..)
      obtain ⟨hf', hless, -⟩ := hf.consider hnb hhead
      rw [descend, shiftLeft_succ, BitVec.msb_shiftLeft]
      split
      · next hexact =>
        have hsize : size = nb :=
          (BitVec.sub_eq_iff_eq_add.mp hexact.2).trans (BitVec.zero_add nb)
        subst hsize
        refine .inl ⟨hf', hless (BitVec.le_refl _), ?_⟩
        rw [Fit.consider, if_pos hexact.1]
        exact hexact.2
      · exact (ih _ _ hf' fun c hc => hP c (mem_chunks_child _ hc)).imp_right
          fun h => ⟨hf.looks hnb hhead h.1, h.2⟩

theorem chunks_below (h : Trie.Below t t') : ∀ c ∈ chunks t, c ∈ chunks t' := by
  induction h with
  | refl => exact fun _ => id
  | child b _ ih => exact fun c hc => mem_chunks_child b (ih c hc)

end Fits

/-! ## The map of the bins -/

section Maps
variable {x : BitVec 32} {i j idx : ℕ}

theorem getLsbD_idx2bit (hi : i < 32) : (idx2bit i).getLsbD j = decide (j = i) := by
  rw [idx2bit, ← BitVec.twoPow_eq, BitVec.getLsbD_twoPow, decide_eq_true hi, Bool.true_and]
  exact decide_eq_decide.mpr eq_comm

theorem getLsbD_leastBit :
    (leastBit x).getLsbD i = true ↔ x.getLsbD i = true ∧ ∀ j < i, x.getLsbD j = false := by
  rw [leastBit, BitVec.getLsbD_and, BitVec.getLsbD_neg, Bool.and_eq_true]
  refine and_congr_right fun hbit => ?_
  rw [hbit, Bool.true_xor, decide_eq_true (BitVec.lt_of_getLsbD hbit), Bool.true_and,
    Bool.not_eq_true', decide_eq_false_iff_not]
  simp only [not_exists, not_and, Bool.not_eq_true]

theorem leastBit_ctz (hx : x ≠ 0) : x.getLsbD (leastBit x).ctz.toNat = true ∧
    ∀ j < (leastBit x).ctz.toNat, x.getLsbD j = false := by
  refine getLsbD_leastBit.mp (BitVec.getLsbD_true_ctz_of_ne_zero fun hzero => ?_)
  have hbit := getLsbD_leastBit.mpr
    ⟨BitVec.getLsbD_true_ctz_of_ne_zero hx, fun j => BitVec.getLsbD_false_of_lt_ctz⟩
  rw [hzero, BitVec.getLsbD_zero] at hbit
  cases hbit

theorem getLsbD_leftBits (hj : j < 32) :
    (leftBits (idx2bit idx)).getLsbD j = true ↔ idx < j := by
  have hone (l : ℕ) (hl : l < 32) : (idx2bit idx <<< 1).getLsbD l = decide (l = idx + 1) := by
    rw [BitVec.getLsbD_shiftLeft, decide_eq_true hl, Bool.true_and]
    rw [idx2bit, ← BitVec.twoPow_eq, BitVec.getLsbD_twoPow]
    rw [Bool.eq_iff_iff]
    simp only [Bool.and_eq_true, Bool.not_eq_true', decide_eq_false_iff_not, decide_eq_true_eq]
    omega
  have hlower : (∃ l < j, (idx2bit idx <<< 1).getLsbD l = true) ↔ idx + 1 < j := by
    constructor
    · rintro ⟨l, hl, hbit⟩
      rw [hone l (hl.trans hj), decide_eq_true_eq] at hbit
      exact hbit ▸ hl
    · intro hlt
      exact ⟨idx + 1, hlt, by rw [hone _ (hlt.trans hj), decide_eq_true_eq]⟩
  rw [leftBits, BitVec.getLsbD_or, BitVec.getLsbD_neg, hone j hj, Bool.or_eq_true,
    decide_eq_true hj]
  simp only [hlower, decide_eq_true_eq, Bool.true_and, Bool.xor_iff_ne, ne_eq,
    decide_eq_decide]
  omega

end Maps

/-! ## The invariant -/

/-- The chunks in all bins. -/
def Bins.chunks (m : Bins w) : Multiset (ℕ × BitVec w) :=
  ∑ i ∈ Finset.range 32, Malloc.chunks (m.treebins i)

/-- A tree is marked unless it is empty, and it has sizes of its bin, in order. -/
structure SoundBin (i : ℕ) (marked : Bool) (t : TChunk w) : Prop where
  map : marked = !t.isNull
  ordered : t.Ordered (leftshiftForTreeIndex w i)
  index : ∀ x ∈ t.keys, 256 ≤ x.toNat ∧ computeTreeIndex x.toNat = i

def Bins.Sound (m : Bins w) : Prop := ∀ i, SoundBin i (m.treemap.getLsbD i) (m.treebins i)

section Invariant
variable {m : Bins w} {i j X : ℕ} {S : BitVec w} {c : ℕ × BitVec w} {t t' : TChunk w}
  {treemap : BitVec 32}

theorem Bins.init_sound : (init : Bins w).Sound := fun _ => ⟨BitVec.getLsbD_zero, trivial, nofun⟩

/-- The sizes of a bin have the bits in common that its tree does not look at. -/
theorem Bins.Sound.agree (hm : m.Sound) {x y : BitVec w} (hx : 256 ≤ x.toNat)
    (hi : computeTreeIndex x.toNat = i) (hy : y ∈ (m.treebins i).keys) :
    Trie.Agree (leftshiftForTreeIndex w i) x y := by
  obtain ⟨hy, hyi⟩ := (hm i).index y hy
  exact hi ▸ agree_of_computeTreeIndex hx hy (hi.trans hyi.symm)

theorem Bins.Sound.shares (hm : m.Sound) (i : ℕ) :
    (m.treebins i).Shares (leftshiftForTreeIndex w i) :=
  fun x hx _ hy => hm.agree ((hm i).index x hx).1 ((hm i).index x hx).2 hy

theorem Bins.Sound.lt (hm : m.Sound) (hij : i < j) {x y : BitVec w}
    (hx : x ∈ (m.treebins i).keys) (hy : y ∈ (m.treebins j).keys) : x < y := by
  have hx := (hm i).index x hx
  have hy := (hm j).index y hy
  exact lt_of_computeTreeIndex_lt hx.1 hy.1 (hx.2.trans_lt (hij.trans_eq hy.2.symm))

theorem Bins.mem_chunks : c ∈ m.chunks ↔ ∃ i < 32, c ∈ Malloc.chunks (m.treebins i) := by
  rw [chunks, Multiset.mem_sum]
  simp only [Finset.mem_range]

theorem Bins.Sound.mem_bin (hm : m.Sound) (hc : c ∈ m.chunks) :
    c ∈ Malloc.chunks (m.treebins (computeTreeIndex c.2.toNat)) := by
  obtain ⟨i, -, hc⟩ := mem_chunks.mp hc
  rwa [((hm i).index c.2 (mem_keys hc)).2]

theorem Bins.Sound.of_bin (hm : m.Sound) (hc : c ∈ Malloc.chunks (m.treebins i)) :
    c ∈ m.chunks := by
  have hi := ((hm i).index c.2 (mem_keys hc)).2
  exact mem_chunks.mpr ⟨i, hi ▸ computeTreeIndex_lt _, hc⟩

theorem chunks_update (b : ℕ → TChunk w) (hi : i < 32) (h : chunks t = c ::ₘ chunks t') :
    ∑ j ∈ Finset.range 32, chunks (update b i t j) =
      c ::ₘ ∑ j ∈ Finset.range 32, chunks (update b i t' j) := by
  have hsum (t : TChunk w) : ∑ j ∈ Finset.range 32, chunks (update b i t j) =
      chunks t + ∑ j ∈ (Finset.range 32).erase i, chunks (b j) := by
    rw [← Finset.add_sum_erase _ _ (Finset.mem_range.mpr hi), update_self]
    congr 1
    refine Finset.sum_congr rfl fun j hj => ?_
    rw [update_of_ne (Finset.ne_of_mem_erase hj)]
  rw [hsum, hsum, h, Multiset.cons_add]

theorem Bins.Sound.update (hm : m.Sound) (ht : SoundBin i (treemap.getLsbD i) t)
    (hmap : ∀ j ≠ i, treemap.getLsbD j = m.treemap.getLsbD j) :
    Sound ⟨treemap, Function.update m.treebins i t⟩ := by
  intro j
  show SoundBin j (treemap.getLsbD j) (Function.update m.treebins i t j)
  by_cases hj : j = i
  · subst hj
    rwa [update_self]
  · rw [update_of_ne hj, hmap j hj]
    exact hm j

theorem isNull_insertTree (K : BitVec w) : (insertTree X S K t).isNull = false := by
  cases t with
  | null => rfl
  | node size ring child =>
      rw [insertTree]
      split <;> rfl

/-- A bin that is not marked is empty. -/
theorem Bins.Sound.insertLargeChunk_eq (hm : m.Sound) (X : ℕ) (S : BitVec w) :
    m.insertLargeChunk X S =
      { treemap := m.treemap ||| idx2bit (computeTreeIndex S.toNat)
        treebins := Function.update m.treebins (computeTreeIndex S.toNat)
          (insertTree X S (S <<< leftshiftForTreeIndex w (computeTreeIndex S.toNat))
            (m.treebins (computeTreeIndex S.toNat))) } := by
  have hi := computeTreeIndex_lt S.toNat
  rw [insertLargeChunk]
  split
  · next hbit =>
    congr 1
    refine BitVec.eq_of_getLsbD_eq fun j _ => ?_
    rw [BitVec.getLsbD_or, getLsbD_idx2bit hi]
    by_cases hj : j = computeTreeIndex S.toNat
    · rw [hj, hbit, Bool.true_or]
    · rw [decide_eq_false hj, Bool.or_false]
  · next hbit =>
    have hnull : (m.treebins (computeTreeIndex S.toNat)).isNull = true := by
      simpa [(hm _).map] using hbit
    rw [Trie.isNull_iff.mp hnull]
    rfl

theorem Bins.Sound.insertLargeChunk (hm : m.Sound) (hS : 256 ≤ S.toNat) :
    (m.insertLargeChunk X S).Sound ∧ (m.insertLargeChunk X S).chunks = (X, S) ::ₘ m.chunks := by
  have hi := computeTreeIndex_lt S.toNat
  have ht := hm (computeTreeIndex S.toNat)
  rw [hm.insertLargeChunk_eq]
  constructor
  · refine hm.update ⟨?_, ordered_insertTree ht.ordered, fun x hx => ?_⟩ fun j hj => ?_
    · rw [BitVec.getLsbD_or, getLsbD_idx2bit hi, isNull_insertTree, decide_eq_true rfl,
        Bool.or_true]
      rfl
    · rcases mem_keys_insertTree _ x hx with rfl | hx
      · exact ⟨hS, rfl⟩
      · exact ht.index x hx
    · rw [BitVec.getLsbD_or, getLsbD_idx2bit hi, decide_eq_false hj, Bool.or_false]
  · have hchunks := chunks_insertTree X S
      (S <<< leftshiftForTreeIndex w (computeTreeIndex S.toNat))
      (m.treebins (computeTreeIndex S.toNat))
    have hbins := chunks_update m.treebins hi hchunks
    rwa [update_eq_self] at hbins

theorem Bins.Sound.unlinkLargeChunk (hm : m.Sound) (hc : (X, S) ∈ m.chunks) :
    (m.unlinkLargeChunk X S).Sound ∧ m.chunks = (X, S) ::ₘ (m.unlinkLargeChunk X S).chunks := by
  have hi := computeTreeIndex_lt S.toNat
  have ht := hm (computeTreeIndex S.toNat)
  have hmem := hm.mem_bin hc
  have hloses := unlinkTree_loses ht.ordered hmem
  have hmarked : (m.treebins (computeTreeIndex S.toNat)).isNull = false := by
    refine Bool.eq_false_iff.mpr fun hnull => ?_
    rw [Trie.isNull_iff.mp hnull] at hmem
    cases Multiset.notMem_zero _ hmem
  have hcleared (j : ℕ) : (m.treemap &&& ~~~idx2bit (computeTreeIndex S.toNat)).getLsbD j =
      (m.treemap.getLsbD j && !decide (j = computeTreeIndex S.toNat)) := by
    rw [BitVec.getLsbD_and, BitVec.getLsbD_not, getLsbD_idx2bit hi]
    by_cases hj : j < 32
    · rw [decide_eq_true hj, Bool.true_and]
    · rw [BitVec.getLsbD_of_ge _ _ (Nat.not_lt.mp hj), Bool.false_and, Bool.false_and]
  rw [Bins.unlinkLargeChunk]
  constructor
  · refine hm.update ⟨?_, hloses.ordered, fun x hx => ht.index x (hloses.sub hx)⟩ fun j hj => ?_
    · split
      · next hnull => rw [hcleared, decide_eq_true rfl, hnull, Bool.not_true, Bool.and_false]
      · next hnull => rw [ht.map, hmarked, Bool.eq_false_iff.mpr hnull]
    · split
      · rw [hcleared, decide_eq_false hj, Bool.not_false, Bool.and_true]
      · rfl
  · have hbins := chunks_update m.treebins hi (hloses.chunks.trans (Multiset.singleton_add ..))
    rwa [update_eq_self] at hbins

end Invariant

/-! ## Searching -/

section Search
variable {m : Bins w} {nb dvsize : BitVec w} {f : Fit w} {P Q : ℕ × BitVec w → Prop} {i j idx : ℕ}

theorem Fit.Of.mono (hf : f.Of nb P) (h : ∀ c, P c → Q c) : f.Of nb Q :=
  ⟨hf.rsize, fun c hc => (hf.fits c hc).imp_right (h c)⟩

theorem Bins.Sound.null (hm : m.Sound) (hbit : m.treemap.getLsbD i = false) :
    m.treebins i = .null := by
  rw [(hm i).map, Bool.not_eq_false'] at hbit
  exact Trie.isNull_iff.mp hbit

theorem Bins.Sound.exists_key (hm : m.Sound) (hbit : m.treemap.getLsbD i = true) :
    ∃ x, x ∈ (m.treebins i).keys := by
  rw [(hm i).map, Bool.not_eq_true'] at hbit
  exact Trie.exists_key hbit

/-- The next bin that is not empty. -/
theorem Bins.Sound.nextTree (hm : m.Sound) (idx : ℕ) :
    (m.nextTree idx = .null ∧ ∀ j, idx < j → m.treebins j = .null) ∨
      ∃ i, idx < i ∧ m.nextTree idx = m.treebins i ∧ (∃ x, x ∈ (m.treebins i).keys) ∧
        ∀ j, idx < j → j < i → m.treebins j = .null := by
  have hbit (j : ℕ) : (leftBits (idx2bit idx) &&& m.treemap).getLsbD j = true ↔
      idx < j ∧ m.treemap.getLsbD j = true := by
    rw [BitVec.getLsbD_and, Bool.and_eq_true]
    refine and_congr_left fun hj => getLsbD_leftBits (BitVec.lt_of_getLsbD hj)
  rw [Bins.nextTree]
  split
  · next hne =>
    obtain ⟨hset, hlower⟩ := leastBit_ctz hne
    obtain ⟨hlt, hset⟩ := (hbit _).mp hset
    refine .inr ⟨_, hlt, rfl, hm.exists_key hset, fun j hj hji => hm.null ?_⟩
    refine Bool.eq_false_iff.mpr fun hj' => ?_
    exact Bool.false_ne_true ((hlower j hji).symm.trans ((hbit j).mpr ⟨hj, hj'⟩))
  · next hzero =>
    refine .inl ⟨rfl, fun j hj => hm.null (Bool.eq_false_iff.mpr fun hj' => ?_)⟩
    have hset := (hbit j).mpr ⟨hj, hj'⟩
    rw [not_not.mp hzero] at hset
    exact Bool.false_ne_true (BitVec.getLsbD_zero.symm.trans hset)

/-- The best fit of a bin is the best of all when the lower bins have no fit. -/
theorem Bins.Sound.best (hm : m.Sound) (hf : f.Of nb (· ∈ Malloc.chunks (m.treebins i)))
    (hleast : ∀ x ∈ (m.treebins i).keys, nb ≤ x → f.AtMost x)
    (hlow : ∀ j < i, ∀ x ∈ (m.treebins j).keys, ¬ nb ≤ x)
    (hhigh : (∃ x, f.AtMost x) ∨ ∀ j, i < j → m.treebins j = .null) :
    f.Of nb (· ∈ m.chunks) ∧ ∀ c ∈ m.chunks, nb ≤ c.2 → f.AtMost c.2 := by
  refine ⟨hf.mono fun c => hm.of_bin, fun c hc hle => ?_⟩
  obtain ⟨j, -, hc⟩ := mem_chunks.mp hc
  rcases lt_trichotomy j i with hlt | rfl | hlt
  · exact absurd hle (hlow j hlt _ (mem_keys hc))
  · exact hleast _ (mem_keys hc) hle
  · rcases hhigh with ⟨x, v, hv, -⟩ | hnull
    · exact ⟨v, hv, BitVec.le_of_lt (hm.lt hlt (mem_keys (hf.fits v hv).2) (mem_keys hc))⟩
    · rw [hnull j hlt] at hc
      cases Multiset.notMem_zero _ hc

/-- The least size of a tree that has only sizes that fit. -/
theorem Looks.least {t : TChunk w} {f' : Fit w} {k : ℕ} (h : Looks nb P f t.leftPath f')
    (hord : t.Ordered k) (hs : t.Shares k) (hfit : ∀ x ∈ t.keys, nb ≤ x) :
    ∀ x ∈ t.keys, f'.AtMost x := by
  intro x hx
  obtain ⟨z, hz, hle⟩ := Trie.exists_le_of_leftPath hord hs hx
  exact (h.looks z hz (hfit z (Trie.leftPath_subset t hz))).mono hle

theorem zero_lt_of_le (hnb : 256 ≤ nb.toNat) : 0 < nb := by
  have hpos : 0 < nb.toNat := by omega
  exact hpos

theorem Bins.Sound.search (hm : m.Sound) (hnb : 256 ≤ nb.toNat) :
    (m.search nb).Of nb (· ∈ m.chunks) ∧
      ∀ c ∈ m.chunks, nb ≤ c.2 → (m.search nb).AtMost c.2 := by
  have hpos := zero_lt_of_le hnb
  have hlow : ∀ j < computeTreeIndex nb.toNat, ∀ x ∈ (m.treebins j).keys, ¬ nb ≤ x := by
    intro j hj x hx
    have hx := (hm j).index x hx
    exact BitVec.not_le.mpr (lt_of_computeTreeIndex_lt hx.1 hnb (hx.2.trans_lt hj))
  have hhigh : ∀ j, computeTreeIndex nb.toNat < j → ∀ x ∈ (m.treebins j).keys, nb ≤ x := by
    intro j hj x hx
    have hx := (hm j).index x hx
    exact BitVec.le_of_lt (lt_of_computeTreeIndex_lt hnb hx.1 (hj.trans_eq hx.2.symm))
  have hagree := fun y => hm.agree (y := y) hnb rfl
  rw [Bins.search]
  generalize computeTreeIndex nb.toNat = idx at *
  have hstart : (⟨none, -nb⟩ : Fit w).Of nb (· ∈ Malloc.chunks (m.treebins idx)) := ⟨rfl, nofun⟩
  have hdescend := descend_looks (k := leftshiftForTreeIndex w idx) .null hpos hstart
    fun _ => id
  dsimp only at hdescend ⊢
  generalize descend nb (nb <<< leftshiftForTreeIndex w idx) (m.treebins idx) .null _ = r at *
  rcases hdescend with ⟨hof, hexact, hzero⟩ | ⟨hlooks, hpassed⟩
  · rw [sweep_of_exact hzero]
    exact ⟨hof.mono fun c => hm.of_bin, fun c _ hle => hexact.mono hle⟩
  · rcases Trie.searchPath_least (hm idx).ordered (hm.shares idx) hagree .null with
      ⟨hnull, hleast⟩ | ⟨habove, hleast⟩
    · have hin : ∀ x ∈ (m.treebins idx).keys, nb ≤ x → r.1.AtMost x := by
        intro x hx hle
        obtain ⟨z, hz, hnbz, hzx⟩ := hleast x hx hle
        exact (hlooks.looks z hz hnbz).mono hzx
      rw [hpassed, hnull]
      cases hv : r.1.v with
      | some v => exact hm.best hlooks.of hin hlow (.inl ⟨v.2, v, hv, BitVec.le_refl _⟩)
      | none =>
          have hno : ∀ x, ¬ r.1.AtMost x := by
            rintro x ⟨v, hv', -⟩
            rw [hv] at hv'
            cases hv'
          rcases hm.nextTree idx with ⟨hnull, hempty⟩ | ⟨i, hi, heq, ⟨x, hx⟩, hbetween⟩
          · change (sweep nb (m.nextTree idx) r.1).Of _ _ ∧ _
            rw [hnull]
            exact hm.best hlooks.of hin hlow (.inr hempty)
          · change (sweep nb (m.nextTree idx) r.1).Of _ _ ∧ _
            rw [heq]
            have hr : r.1.Of nb (· ∈ Malloc.chunks (m.treebins i)) :=
              ⟨hlooks.of.rsize, by rw [hv]; nofun⟩
            have hsweep := sweep_looks hpos hr fun _ => id
            have hall := hsweep.least (hm i).ordered (hm.shares i) (hhigh i hi)
            refine hm.best hsweep.of (fun x hx _ => hall x hx) (fun j hj x hx hle => ?_)
              (.inl ⟨x, hall x hx⟩)
            rcases lt_trichotomy j idx with hlt | rfl | hlt
            · exact hlow j hlt x hx hle
            · exact hno x (hin x hx hle)
            · rw [hbetween j hlt hj] at hx
              cases hx
    · obtain ⟨x, hx⟩ := habove.some_key
      obtain ⟨k, hord, hs⟩ := habove.ordered
      have hsweep := sweep_looks hpos hlooks.of (chunks_below habove.below)
      have hall := hsweep.least hord hs fun z hz => BitVec.le_of_lt (habove.lt z hz)
      rw [hpassed, Trie.isNull_of_mem_keys hx]
      refine hm.best hsweep.of (fun y hy hle => ?_) hlow (.inl ⟨x, hall x hx⟩)
      rcases hleast y hy hle with ⟨z, hz, hnbz, hzy⟩ | ⟨z, hz, hzy⟩
      · exact hsweep.mono y ((hlooks.looks z hz hnbz).mono hzy)
      · exact (hall z hz).mono hzy

end Search

/-! ## Requests -/

/-- What is done with the bins.  `dlmalloc` looks at the map before it goes through them. -/
inductive Request (w : ℕ)
  | insert (X : ℕ) (S : BitVec w)
  | unlink (X : ℕ) (S : BitVec w)
  | large (nb dvsize : BitVec w)
  | small (nb : BitVec w)

def Bins.serve (m : Bins w) : Request w → Option (ℕ × BitVec w) × Bins w
  | .insert X S => (none, m.insertLargeChunk X S)
  | .unlink X S => (none, m.unlinkLargeChunk X S)
  | .large nb dvsize =>
      match if m.treemap ≠ 0 then m.tmallocLarge nb dvsize else none with
      | some (v, m') => (some v, m')
      | none => (none, m)
  | .small nb =>
      match if m.treemap ≠ 0 then m.tmallocSmall nb else none with
      | some (v, m') => (some v, m')
      | none => (none, m)

/-- The callers put large chunks in, take out what is there, and ask for a large or a small
size. -/
def Request.Valid (M : Multiset (ℕ × BitVec w)) : Request w → Prop
  | .insert _ S => 256 ≤ S.toNat
  | .unlink X S => (X, S) ∈ M
  | .large nb _ => 256 ≤ nb.toNat
  | .small nb => 0 < nb ∧ nb.toNat ≤ 256

/-- What of a chunk stays in the bins when it has been split. -/
def remainder (nb : BitVec w) (v : ℕ × BitVec w) : Multiset (ℕ × BitVec w) :=
  if isSmall (v.2 - nb).toNat then 0 else {(v.1 + nb.toNat, v.2 - nb)}

/-- What the bins are for: they are a bag of chunks, from which a large request gets the
smallest chunk that fits unless the designated victim is as good, and a small request the
smallest of all. -/
inductive Serves (M : Multiset (ℕ × BitVec w)) :
    Request w → Option (ℕ × BitVec w) → Multiset (ℕ × BitVec w) → Prop
  | insert {X S} : Serves M (.insert X S) none ((X, S) ::ₘ M)
  | unlink {X S} : Serves M (.unlink X S) none (M.erase (X, S))
  | large {nb dvsize v} : v ∈ M → nb ≤ v.2 → (∀ c ∈ M, nb ≤ c.2 → v.2 ≤ c.2) →
      (nb ≤ dvsize → v.2 < dvsize) →
        Serves M (.large nb dvsize) (some v) (remainder nb v + M.erase v)
  | dv {nb dvsize} : (∀ c ∈ M, nb ≤ c.2 → nb ≤ dvsize ∧ dvsize ≤ c.2) →
      Serves M (.large nb dvsize) none M
  | small {nb v} : v ∈ M → nb ≤ v.2 → (∀ c ∈ M, v.2 ≤ c.2) →
      Serves M (.small nb) (some v) (M.erase v)
  | empty {nb} : M = 0 → Serves M (.small nb) none M

section Requests
variable {m : Bins w} {nb dvsize x y : BitVec w}
  {v : ℕ × BitVec w} {request : Request w} {requests : List (Request w)}

theorem Bins.Sound.chunks_eq_zero (hm : m.Sound) (h : m.treemap = 0) : m.chunks = 0 := by
  refine Multiset.eq_zero_of_forall_notMem fun c hc => ?_
  obtain ⟨i, -, hc⟩ := mem_chunks.mp hc
  rw [hm.null (by rw [h]; exact BitVec.getLsbD_zero)] at hc
  cases Multiset.notMem_zero _ hc

theorem Bins.Sound.erase (hm : m.Sound) (hv : v ∈ m.chunks) :
    (m.unlinkLargeChunk v.1 v.2).Sound ∧
      (m.unlinkLargeChunk v.1 v.2).chunks = m.chunks.erase v := by
  obtain ⟨hsound, hchunks⟩ := hm.unlinkLargeChunk hv
  exact ⟨hsound, by rw [hchunks, Multiset.erase_cons_head]⟩

theorem Bins.Sound.split (nb : BitVec w) (hm : m.Sound) (hv : v ∈ m.chunks) :
    (m.split nb v).Sound ∧ (m.split nb v).chunks = remainder nb v + m.chunks.erase v := by
  obtain ⟨hsound, hchunks⟩ := hm.erase hv
  rw [Bins.split, remainder]
  split
  · rw [zero_add]
    exact ⟨hsound, hchunks⟩
  · next hlarge =>
    have h256 : 256 ≤ (v.2 - nb).toNat := by
      rw [isSmall, Nat.shiftRight_eq_div_pow, decide_eq_true_eq] at hlarge
      omega
    obtain ⟨hsound, hinsert⟩ := hsound.insertLargeChunk h256 (X := v.1 + nb.toNat)
    exact ⟨hsound, by rw [hinsert, hchunks, Multiset.singleton_add]⟩

/-- The comparison of the differences, where the designated victim may be too small. -/
theorem sub_lt_sub_iff_of_le (hle : nb ≤ x) : x - nb < y - nb ↔ (nb ≤ y → x < y) := by
  by_cases hy : nb ≤ y
  · rw [sub_lt_sub_iff hy]
    exact ⟨fun h _ => h.2, fun h => ⟨hle, h hy⟩⟩
  · refine iff_of_true ?_ fun h => absurd h hy
    have hx := x.isLt
    rw [BitVec.not_le, BitVec.lt_def] at hy
    rw [BitVec.lt_def, BitVec.toNat_sub_of_le hle, BitVec.toNat_sub_of_lt hy]
    rw [BitVec.le_def] at hle
    omega

theorem Bins.Sound.large (hm : m.Sound) (hnb : 256 ≤ nb.toNat) :
    (m.serve (.large nb dvsize)).2.Sound ∧ Serves m.chunks (.large nb dvsize)
      (m.serve (.large nb dvsize)).1 (m.serve (.large nb dvsize)).2.chunks := by
  rw [Bins.serve]
  split
  · next v m' hsome =>
    obtain ⟨-, hsome⟩ := Option.ite_none_right_eq_some.mp hsome
    obtain ⟨hof, hleast⟩ := hm.search hnb
    rw [Bins.tmallocLarge] at hsome
    split at hsome
    · next v' hv =>
      obtain ⟨hless, heq⟩ := Option.ite_none_right_eq_some.mp hsome
      obtain ⟨rfl, rfl⟩ := Prod.mk.inj (Option.some.inj heq)
      obtain ⟨hfits, hmem⟩ := hof.fits v' hv
      rw [hof.rsize, hv] at hless
      obtain ⟨hsound, hchunks⟩ := hm.split nb hmem
      refine ⟨hsound, hchunks ▸ .large hmem hfits (fun c hc hle => ?_)
        ((sub_lt_sub_iff_of_le hfits).mp hless)⟩
      obtain ⟨v, hv', hle⟩ := hleast c hc hle
      obtain rfl := Option.some.inj (hv.symm.trans hv')
      exact hle
    · cases hsome
  · next hnone =>
    refine ⟨hm, .dv fun c hc hle => ?_⟩
    by_cases hmap : m.treemap = 0
    · rw [hm.chunks_eq_zero hmap] at hc
      cases Multiset.notMem_zero _ hc
    · obtain ⟨hof, hleast⟩ := hm.search hnb
      obtain ⟨v, hv, hvc⟩ := hleast c hc hle
      have hv : (m.search nb).v = some v := hv
      rw [if_pos hmap, Bins.tmallocLarge] at hnone
      simp only [hv] at hnone
      split at hnone
      · cases hnone
      · next hless =>
        rw [hof.rsize, hv, Option.elim_some, sub_lt_sub_iff_of_le (hof.fits v hv).1,
          Classical.not_imp] at hless
        exact ⟨hless.1, BitVec.le_trans (BitVec.not_lt.mp hless.2) hvc⟩

/-- The least bin that is not empty has the smallest chunk of all. -/
theorem Bins.Sound.tmallocSmall (hm : m.Sound) (hmap : m.treemap ≠ 0) (hpos : 0 < nb)
    (hnb : nb.toNat ≤ 256) :
    ∃ v, m.tmallocSmall nb = some (v, m.unlinkLargeChunk v.1 v.2) ∧ v ∈ m.chunks ∧
      nb ≤ v.2 ∧ ∀ c ∈ m.chunks, v.2 ≤ c.2 := by
  obtain ⟨hset, hlower⟩ := leastBit_ctz hmap
  rw [Bins.tmallocSmall]
  generalize (leastBit m.treemap).ctz.toNat = i at *
  have hfit : ∀ x ∈ (m.treebins i).keys, nb ≤ x :=
    fun x hx => BitVec.le_def.mpr (hnb.trans ((hm i).index x hx).1)
  have hstart : (⟨none, -nb⟩ : Fit w).Of nb (· ∈ Malloc.chunks (m.treebins i)) := ⟨rfl, nofun⟩
  have hsweep := sweep_looks hpos hstart fun _ => id
  have hall := hsweep.least (hm i).ordered (hm.shares i) hfit
  obtain ⟨x, hx⟩ := hm.exists_key hset
  obtain ⟨v, hv, -⟩ := hall x hx
  obtain ⟨hfits, hmem⟩ := hsweep.of.fits v hv
  refine ⟨v, ?_, hm.of_bin hmem, hfits, fun c hc => ?_⟩
  · cases ht : m.treebins i with
    | null => rw [ht] at hx; cases hx
    | node size ring child =>
        rw [ht] at hfit hv
        have hhead : (⟨none, -nb⟩ : Fit w).consider nb (ring.head, size) =
            ⟨some (ring.head, size), size - nb⟩ :=
          if_pos ((sub_lt_neg_iff hpos).mpr (hfit size List.mem_cons_self))
        rw [sweep, hhead] at hv
        exact congrArg (Option.map _) hv
  · obtain ⟨j, -, hc⟩ := mem_chunks.mp hc
    rcases lt_trichotomy j i with hlt | rfl | hlt
    · rw [hm.null (hlower j hlt)] at hc
      cases Multiset.notMem_zero _ hc
    · obtain ⟨v', hv', hle⟩ := hall c.2 (mem_keys hc)
      obtain rfl := Option.some.inj (hv.symm.trans hv')
      exact hle
    · exact BitVec.le_of_lt (hm.lt hlt (mem_keys hmem) (mem_keys hc))

theorem Bins.Sound.serve (hm : m.Sound) (hvalid : request.Valid m.chunks) :
    (m.serve request).2.Sound ∧
      Serves m.chunks request (m.serve request).1 (m.serve request).2.chunks := by
  cases request with
  | insert X S =>
      obtain ⟨hsound, hchunks⟩ := hm.insertLargeChunk hvalid (X := X)
      exact ⟨hsound, hchunks ▸ .insert⟩
  | unlink X S =>
      obtain ⟨hsound, hchunks⟩ := hm.erase hvalid
      exact ⟨hsound, hchunks ▸ .unlink⟩
  | large nb dvsize => exact hm.large hvalid
  | small nb =>
      rw [Bins.serve]
      by_cases hmap : m.treemap = 0
      · rw [if_neg (not_not.mpr hmap)]
        exact ⟨hm, .empty (hm.chunks_eq_zero hmap)⟩
      · obtain ⟨v, heq, hv, hfits, hleast⟩ := hm.tmallocSmall hmap hvalid.1 hvalid.2
        obtain ⟨hsound, hchunks⟩ := hm.erase hv
        rw [if_pos hmap, heq]
        exact ⟨hsound, hchunks ▸ .small hv hfits hleast⟩

/-- The requests that are valid one after the other lead from the empty bins to these. -/
abbrev Reaches (requests : List (Request w)) (m : Bins w) : Prop :=
  RunsTo (fun m request => some (m.serve request).2) (fun m request => request.Valid m.chunks)
    .init requests m

theorem sound_of_run (hrun : Reaches requests m) : m.Sound :=
  hrun.invariant Bins.Sound Bins.init_sound fun _ _ _ hm hvalid hstep =>
    Option.some.inj hstep ▸ (hm.serve hvalid).1

/-- In every run the bins serve every request as a bag of chunks does. -/
theorem serves_of_run (hrun : Reaches requests m) (hvalid : request.Valid m.chunks) :
    Serves m.chunks request (m.serve request).1 (m.serve request).2.chunks :=
  ((sound_of_run hrun).serve hvalid).2

theorem serves_of_insert : ∃ m : Bins 16, Reaches [.insert 4096 600#16] m ∧
    Serves m.chunks (.large 300#16 0#16) (some (4096, 600#16))
      (m.serve (.large 300#16 0#16)).2.chunks := by
  have hrun : Reaches [.insert 4096 600#16] (Bins.init.insertLargeChunk 4096 600#16) :=
    .snoc .nil (show 256 ≤ 600 by decide) rfl
  have hsome : ((Bins.init.insertLargeChunk 4096 600#16).serve (.large 300#16 0#16)).1 =
      some (4096, 600#16) := by decide +kernel
  exact ⟨_, hrun, hsome ▸ serves_of_run hrun (show 256 ≤ 300 by decide)⟩

end Requests

/-! ## The checks of the debug build -/

/-- `do_check_tree`, as far as it is about sizes. -/
def checkTree (tindex : ℕ) : TChunk w → Bool
  | .null => true
  | .node tsize _ child =>
      (tindex == computeTreeIndex tsize.toNat) && decide (256 ≤ tsize.toNat) &&
        decide (minsizeForTreeIndex tindex ≤ tsize.toNat) &&
        (tindex == 31 || decide (tsize.toNat < minsizeForTreeIndex (tindex + 1))) &&
        checkTree tindex (child false) && checkTree tindex (child true) &&
        match child false, child true with
        | .node size0 .., .node size1 .. => decide (size0 < size1)
        | _, _ => true

def Bins.checkTreebin (m : Bins w) (i : ℕ) : Bool :=
  let empty := !m.treemap.getLsbD i
  (!(m.treebins i).isNull || empty) && (empty || checkTree i (m.treebins i))

theorem checkTree_of_ordered {t : TChunk w} {i k : ℕ} (h : t.Ordered k) (hs : t.Shares k)
    (hindex : ∀ x ∈ t.keys, 256 ≤ x.toNat ∧ computeTreeIndex x.toNat = i) :
    checkTree i t = true := by
  induction t generalizing k with
  | null => rfl
  | node size ring child ih =>
      obtain ⟨hlarge, hi⟩ := hindex size List.mem_cons_self
      obtain ⟨hmin, hmax⟩ := hi ▸ computeTreeIndex_range hlarge
      have hchild (b : Bool) : checkTree i (child b) = true :=
        ih b (h b).2 (h.shares hs b) fun x hx => hindex x (Trie.keys_child b hx)
      simp only [checkTree, Bool.and_eq_true, Bool.or_eq_true, beq_iff_eq, decide_eq_true_eq]
      refine ⟨⟨⟨⟨⟨⟨hi.symm, hlarge⟩, hmin⟩, hmax⟩, hchild false⟩, hchild true⟩, ?_⟩
      split
      · next hleft hright =>
        exact decide_eq_true (h.lt hs (hleft ▸ List.mem_cons_self) (hright ▸ List.mem_cons_self))
      · rfl

/-- The number of the first bit of `X`, without an instruction for it. -/
def scanPortable (X : ℕ) : ℕ :=
  let Y := BitVec.ofNat 32 X
  let N := (Y - 0x100#32) >>> 16 &&& 8#32
  let Y := Y <<< N
  let K := (Y - 0x1000#32) >>> 16 &&& 4#32
  let N := N + K
  let Y := Y <<< K
  let K := (Y - 0x4000#32) >>> 16 &&& 2#32
  let N := N + K
  let Y := Y <<< K
  (14#32 - N + Y >>> 15).toNat

def computeTreeIndexPortable (S : ℕ) : ℕ :=
  let X := S >>> 8
  if X = 0 then 0
  else if X > 0xFFFF then 31
  else
    let K := scanPortable X
    (K <<< 1) + (S >>> (K + 7) &&& 1)

/-- The macro for GNU C, where `X` is an `unsigned int`. -/
def computeTreeIndexGnu (S : ℕ) : ℕ :=
  let X := S >>> 8 % 2 ^ 32
  if X = 0 then 0
  else if X > 0xFFFF then 31
  else
    let K := Nat.log2 X
    (K <<< 1) + (S >>> (K + 7) &&& 1)

section Scan
variable {S X : ℕ} {Y t b : BitVec 32}

/-- The borrow of the subtraction is masked. -/
theorem borrow (hY : Y.toNat < 2 ^ 16) (ht : t.toNat < 2 ^ 16) (hb : 0xFFFF#32 &&& b = b) :
    (Y - t) >>> 16 &&& b = if Y < t then b else 0 := by
  split
  · next hlt =>
    have hshift : (Y - t) >>> 16 = 0xFFFF#32 := by
      apply BitVec.eq_of_toNat_eq
      rw [BitVec.toNat_ushiftRight, BitVec.toNat_sub_of_lt hlt, Nat.shiftRight_eq_div_pow]
      change _ = 65535
      have : Y.toNat < t.toNat := hlt
      omega
    rw [hshift, hb]
  · next hle =>
    have hshift : (Y - t) >>> 16 = 0#32 := by
      apply BitVec.eq_of_toNat_eq
      rw [BitVec.toNat_ushiftRight, BitVec.toNat_sub_of_le (BitVec.not_lt.mp hle),
        Nat.shiftRight_eq_div_pow]
      exact Nat.div_eq_of_lt (by omega)
    rw [hshift]
    exact BitVec.zero_and

/-- One of the three shifts, by `k` bits unless a bit is among the first `k` of sixteen. -/
theorem shift_stage {k : ℕ} (hk0 : 0 < k) (hk : k < 16) (hbk : b.toNat = k)
    (htk : t.toNat = 2 ^ (16 - k)) (hb : 0xFFFF#32 &&& b = b) (hY : Y.toNat < 2 ^ 16)
    (hlow : 2 ^ (16 - k) ≤ Y.toNat * 2 ^ k) :
    ((Y - t) >>> 16 &&& b).toNat ≤ k ∧
      (Y <<< ((Y - t) >>> 16 &&& b)).toNat = Y.toNat * 2 ^ ((Y - t) >>> 16 &&& b).toNat ∧
      2 ^ (16 - k) ≤ (Y <<< ((Y - t) >>> 16 &&& b)).toNat ∧
      (Y <<< ((Y - t) >>> 16 &&& b)).toNat < 2 ^ 16 := by
  have ht : t.toNat < 2 ^ 16 := htk ▸ Nat.pow_lt_pow_right (by decide) (by omega)
  rw [borrow hY ht hb, BitVec.shiftLeft_eq', BitVec.toNat_shiftLeft, Nat.shiftLeft_eq]
  split
  · next hlt =>
    have hlt : Y.toNat < 2 ^ (16 - k) := htk ▸ hlt
    have hup : Y.toNat * 2 ^ k < 2 ^ 16 := by
      calc Y.toNat * 2 ^ k < 2 ^ (16 - k) * 2 ^ k :=
            Nat.mul_lt_mul_of_pos_right hlt (Nat.two_pow_pos k)
        _ = 2 ^ 16 := Nat.pow_sub_mul_pow 2 hk.le
    rw [hbk, Nat.mod_eq_of_lt (by omega)]
    exact ⟨le_rfl, rfl, hlow, hup⟩
  · next hle =>
    change 0 ≤ k ∧ Y.toNat * 2 ^ 0 % _ = Y.toNat * 2 ^ 0 ∧ _ ≤ Y.toNat * 2 ^ 0 % _ ∧
      Y.toNat * 2 ^ 0 % _ < _
    rw [Nat.pow_zero, Nat.mul_one, Nat.mod_eq_of_lt (by omega)]
    exact ⟨Nat.zero_le k, rfl, htk ▸ BitVec.not_lt.mp hle, hY⟩

/-- The three shifts bring the first bit to one of two places, and `N` counts them. -/
theorem scanPortable_eq (hpos : 0 < X) (hX : X ≤ 0xFFFF) : scanPortable X = Nat.log2 X := by
  have hY₀ : (BitVec.ofNat 32 X).toNat = X := by
    rw [BitVec.toNat_ofNat, Nat.mod_eq_of_lt (by omega)]
  rw [scanPortable]
  generalize BitVec.ofNat 32 X = Y₀ at *
  obtain ⟨hN₁, hY₁, hlow, hup⟩ :=
    shift_stage (k := 8) (Y := Y₀) (t := 0x100#32) (b := 8#32) (by decide) (by decide) rfl rfl
      rfl (by omega) (by omega)
  generalize (Y₀ - 0x100#32) >>> 16 &&& 8#32 = N₁ at *
  generalize Y₀ <<< N₁ = Y₁ at *
  obtain ⟨hN₂, hY₂, hlow, hup⟩ :=
    shift_stage (k := 4) (t := 0x1000#32) (b := 4#32) (by decide) (by decide) rfl rfl
      rfl hup (by omega)
  generalize (Y₁ - 0x1000#32) >>> 16 &&& 4#32 = N₂ at *
  generalize Y₁ <<< N₂ = Y₂ at *
  obtain ⟨hN₃, hY₃, hlow, hup⟩ :=
    shift_stage (k := 2) (t := 0x4000#32) (b := 2#32) (by decide) (by decide) rfl rfl
      rfl hup (by omega)
  generalize (Y₂ - 0x4000#32) >>> 16 &&& 2#32 = N₃ at *
  generalize Y₂ <<< N₃ = Y₃ at *
  have hN : (14#32 - (N₁ + N₂ + N₃)).toNat = 14 - (N₁.toNat + N₂.toNat + N₃.toNat) := by
    bv_omega
  have hsum : (14#32 - (N₁ + N₂ + N₃) + Y₃ >>> 15).toNat =
      14 - (N₁.toNat + N₂.toNat + N₃.toNat) + Y₃.toNat / 2 ^ 15 := by
    rw [BitVec.toNat_add, hN, BitVec.toNat_ushiftRight, Nat.shiftRight_eq_div_pow]
    omega
  rw [hY₂, hY₁, hY₀, Nat.mul_assoc, Nat.mul_assoc, ← Nat.pow_add, ← Nat.pow_add,
    ← Nat.add_assoc] at hY₃
  rw [eq_comm, Nat.log2_eq_iff (by omega), hsum]
  have hn : N₁.toNat + N₂.toNat + N₃.toNat ≤ 14 := Nat.add_le_add (Nat.add_le_add hN₁ hN₂) hN₃
  generalize N₁.toNat + N₂.toNat + N₃.toNat = n at *
  -- The first bit of `Y₃` is the fifteenth or the sixteenth.
  obtain ⟨c, hc, hlow, hup⟩ : ∃ c, Y₃.toNat / 2 ^ 15 = c ∧ 2 ^ (14 + c) ≤ Y₃.toNat ∧
      Y₃.toNat < 2 ^ (14 + c + 1) := by
    rcases Nat.lt_or_ge Y₃.toNat (2 ^ 15) with hlt | hge
    · exact ⟨0, Nat.div_eq_of_lt hlt, hlow, hlt⟩
    · exact ⟨1, by omega, hge, hup⟩
  have hsplit : 14 + c = 14 - n + c + n := by omega
  rw [hY₃, hsplit, Nat.add_right_comm _ n 1, Nat.pow_add _ _ n] at hup
  rw [hY₃, hsplit, Nat.pow_add _ _ n] at hlow
  rw [hc]
  exact ⟨Nat.le_of_mul_le_mul_right hlow (Nat.two_pow_pos n), Nat.lt_of_mul_lt_mul_right hup⟩

theorem computeTreeIndexGnu_eq (S : ℕ) :
    computeTreeIndexGnu S = computeTreeIndex (S % 2 ^ 40) := by
  have hX : (S % 2 ^ 40) >>> 8 = S >>> 8 % 2 ^ 32 := by
    rw [Nat.shiftRight_eq_div_pow, Nat.shiftRight_eq_div_pow]
    omega
  rw [computeTreeIndexGnu, computeTreeIndex, hX]
  split
  · rfl
  · next hpos =>
    split
    · rfl
    · next hle =>
      have hK : Nat.log2 (S >>> 8 % 2 ^ 32) < 16 := (Nat.log2_lt hpos).mpr (by omega)
      generalize Nat.log2 (S >>> 8 % 2 ^ 32) = K at *
      have hsplit : 2 ^ 40 = 2 ^ (K + 7) * 2 ^ (32 - K + 1) := by
        rw [← Nat.pow_add]
        congr 1
        omega
      have hbit : (S % 2 ^ 40) >>> (K + 7) &&& 1 = S >>> (K + 7) &&& 1 := by
        rw [Nat.and_one_is_mod, Nat.and_one_is_mod, Nat.shiftRight_eq_div_pow,
          Nat.shiftRight_eq_div_pow, hsplit, Nat.mod_mul_right_div_self,
          Nat.mod_mod_of_dvd _ (Dvd.intro_left _ (Nat.pow_succ ..).symm)]
      dsimp only
      rw [hbit]

theorem computeTreeIndex_eq_last : computeTreeIndex S = 31 ↔ 0xC00000 ≤ S := by
  have hmin : minsizeForTreeIndex 31 = 0xC00000 := by decide
  constructor
  · intro h
    have hS : 256 ≤ S := by
      by_contra hS
      rw [computeTreeIndex, Nat.shiftRight_eq_div_pow, if_pos (Nat.div_eq_of_lt (by omega))] at h
      cases h
    rw [← hmin, ← h]
    exact (computeTreeIndex_range hS).1
  · intro hS
    have hlt := computeTreeIndex_lt S
    by_contra h31
    have hnext := ((computeTreeIndex_range (by omega)).2.resolve_left h31).trans_le
      (minsizeForTreeIndex_mono (by omega : _ ≤ 31) (by decide))
    omega

/-- The macros agree, but the one for GNU C loses the bits of a size from the fortieth on. -/
theorem computeTreeIndex_variants (S : ℕ) :
    computeTreeIndexPortable S = computeTreeIndex S ∧
      (computeTreeIndexGnu S = computeTreeIndex S ↔ S < 2 ^ 40 ∨ 0xC00000 ≤ S % 2 ^ 40) := by
  constructor
  · rw [computeTreeIndexPortable, computeTreeIndex]
    split
    · rfl
    · next hpos =>
      split
      · rfl
      · next hle => rw [scanPortable_eq (Nat.pos_of_ne_zero hpos) (Nat.not_lt.mp hle)]
  · rw [computeTreeIndexGnu_eq]
    by_cases hS : S < 2 ^ 40
    · rw [Nat.mod_eq_of_lt hS]
      exact iff_of_true rfl (.inl hS)
    · rw [computeTreeIndex_eq_last.mpr (by omega : 0xC00000 ≤ S), computeTreeIndex_eq_last,
        or_iff_right hS]

end Scan

/-! ## The sizes that are requested -/

def chunkAlignMask (w : ℕ) : BitVec w := .ofNat w (2 * (w / 8) - 1)

def chunkOverhead (w : ℕ) (footers : Bool) : BitVec w :=
  .ofNat w (if footers then 2 * (w / 8) else w / 8)

def minChunkSize (w : ℕ) : BitVec w :=
  (.ofNat w (4 * (w / 8)) + chunkAlignMask w) &&& ~~~chunkAlignMask w

def minRequest (w : ℕ) (footers : Bool) : BitVec w := minChunkSize w - chunkOverhead w footers - 1

def maxRequest (w : ℕ) : BitVec w := (-minChunkSize w) <<< 2

def maxSmallRequest (w : ℕ) (footers : Bool) : BitVec w :=
  255 - chunkAlignMask w - chunkOverhead w footers

def padRequest (footers : Bool) (req : BitVec w) : BitVec w :=
  (req + chunkOverhead w footers + chunkAlignMask w) &&& ~~~chunkAlignMask w

/-- What `dlmalloc` asks the bins for; what is too big fails without them. -/
def Request.ofBytes (footers : Bool) (dvsize bytes : BitVec w) : Option (Request w) :=
  if bytes ≤ maxSmallRequest w footers then
    some (.small (if bytes < minRequest w footers then minChunkSize w
      else padRequest footers bytes))
  else if maxRequest w ≤ bytes then none
  else some (.large (padRequest footers bytes) dvsize)

/-- `nb` is the size of the smallest chunk that holds `bytes`. -/
structure Holds (footers : Bool) (bytes nb : BitVec w) : Prop where
  aligned : 2 * (w / 8) ∣ nb.toNat
  bytes_le : bytes.toNat + (chunkOverhead w footers).toNat ≤ nb.toNat
  min_le : (minChunkSize w).toNat ≤ nb.toNat
  least : ∀ n, 2 * (w / 8) ∣ n → bytes.toNat + (chunkOverhead w footers).toNat ≤ n →
    (minChunkSize w).toNat ≤ n → nb.toNat ≤ n

section Sizes
variable {footers : Bool} {dvsize bytes : BitVec w} {request : Request w}
  {M : Multiset (ℕ × BitVec w)} {k o : ℕ}

theorem toNat_and_not (x : BitVec w) (k : ℕ) :
    (x &&& ~~~.ofNat w (2 ^ k - 1)).toNat = x.toNat / 2 ^ k * 2 ^ k := by
  have hshift : x &&& ~~~.ofNat w (2 ^ k - 1) = x >>> k <<< k := by
    apply BitVec.eq_of_getLsbD_eq
    intro i hi
    rw [BitVec.getLsbD_and, BitVec.getLsbD_not, BitVec.getLsbD_ofNat, BitVec.getLsbD_shiftLeft,
      BitVec.getLsbD_ushiftRight, Nat.testBit_two_pow_sub_one, decide_eq_true hi, Bool.true_and,
      Bool.true_and, Bool.true_and]
    by_cases hik : i < k
    · rw [decide_eq_true hik, Bool.not_true, Bool.and_false, Bool.false_and]
    · rw [decide_eq_false hik, Nat.add_sub_of_le (Nat.not_lt.mp hik), Bool.and_comm]
  have hle : x.toNat / 2 ^ k * 2 ^ k < 2 ^ w :=
    (Nat.div_mul_le_self _ _).trans_lt x.isLt
  rw [hshift, BitVec.toNat_shiftLeft, BitVec.toNat_ushiftRight, Nat.shiftRight_eq_div_pow,
    Nat.shiftLeft_eq, Nat.mod_eq_of_lt hle]

/-- The constants, where `o` is the overhead of a chunk and `2 ^ k` the alignment. -/
structure Constants (w : ℕ) (footers : Bool) (k o : ℕ) : Prop where
  align : k = 3 ∨ k = 4
  overhead_le : o ≤ 2 ^ k
  alignment : 2 * (w / 8) = 2 ^ k
  mask : chunkAlignMask w = .ofNat w (2 ^ k - 1)
  mask_toNat : (chunkAlignMask w).toNat = 2 ^ k - 1
  overhead : (chunkOverhead w footers).toNat = o
  minChunk : (minChunkSize w).toNat = 2 * 2 ^ k
  minRequest : (minRequest w footers).toNat = 2 * 2 ^ k - o - 1
  maxSmall : (maxSmallRequest w footers).toNat = 256 - 2 ^ k - o
  maxRequest : (maxRequest w).toNat + 8 * 2 ^ k = 2 ^ w

theorem constants (hw : w = 32 ∨ w = 64) (footers : Bool) : ∃ k o, Constants w footers k o := by
  rcases hw with rfl | rfl <;> cases footers
  · exact ⟨3, 4, by constructor <;> decide⟩
  · exact ⟨3, 8, by constructor <;> decide⟩
  · exact ⟨4, 8, by constructor <;> decide⟩
  · exact ⟨4, 16, by constructor <;> decide⟩

theorem toNat_padRequest (h : Constants w footers k o) (hmax : bytes < maxRequest w) :
    (padRequest footers bytes).toNat = (bytes.toNat + o + 2 ^ k - 1) / 2 ^ k * 2 ^ k := by
  have hmax : bytes.toNat < (maxRequest w).toNat := hmax
  have hroom := h.maxRequest
  have ho := h.overhead_le
  have hk := Nat.two_pow_pos k
  rw [padRequest, h.mask, toNat_and_not, ← h.mask, BitVec.toNat_add, BitVec.toNat_add,
    h.mask_toNat, h.overhead, Nat.mod_eq_of_lt (by omega : bytes.toNat + o < 2 ^ w),
    Nat.mod_eq_of_lt (by omega), Nat.add_sub_assoc hk]

theorem holds_minChunkSize (h : Constants w footers k o) (hmin : bytes < minRequest w footers) :
    Holds footers bytes (minChunkSize w) := by
  have hmin : bytes.toNat < (minRequest w footers).toNat := hmin
  rw [h.minRequest] at hmin
  refine ⟨?_, ?_, le_rfl, fun n _ _ hn => hn⟩
  · rw [h.alignment, h.minChunk]
    exact Nat.dvd_mul_left _ _
  · rw [h.overhead, h.minChunk]
    omega

theorem holds_padRequest (h : Constants w footers k o) (hmin : ¬bytes < minRequest w footers)
    (hmax : bytes < maxRequest w) : Holds footers bytes (padRequest footers bytes) := by
  have hmin : ¬bytes.toNat < (minRequest w footers).toNat := hmin
  have ho := h.overhead_le
  rw [h.minRequest] at hmin
  refine ⟨?_, ?_, ?_, fun n hn hle _ => ?_⟩
  · rw [h.alignment, toNat_padRequest h hmax]
    exact Nat.dvd_mul_left _ _
  · rw [toNat_padRequest h hmax, h.overhead]
    rcases h.align with rfl | rfl <;> omega
  · rw [toNat_padRequest h hmax, h.minChunk]
    rcases h.align with rfl | rfl <;> omega
  · rw [h.alignment] at hn
    rw [h.overhead] at hle
    rw [toNat_padRequest h hmax]
    rcases h.align with rfl | rfl <;> omega

/-- The requests are valid, and they are for the smallest chunk. -/
theorem ofBytes_valid (hw : w = 32 ∨ w = 64)
    (hbytes : Request.ofBytes footers dvsize bytes = some request) :
    request.Valid M ∧ ∃ nb, (request = .small nb ∨ request = .large nb dvsize) ∧
      Holds footers bytes nb := by
  obtain ⟨k, o, h⟩ := constants hw footers
  have hk := h.align
  have ho := h.overhead_le
  have hmaxSmall := h.maxSmall
  rw [Request.ofBytes] at hbytes
  split at hbytes
  · next hsmall =>
    obtain rfl := Option.some.inj hbytes
    have hsmall : bytes.toNat ≤ (maxSmallRequest w footers).toNat := hsmall
    have hmax : bytes < maxRequest w := by
      have hroom := h.maxRequest
      have hlarge : 2 ^ 32 ≤ 2 ^ w := Nat.pow_le_pow_right (by decide) (by omega)
      rw [BitVec.lt_def]
      rcases hk with rfl | rfl <;> omega
    generalize hnb : (if bytes < minRequest w footers then _ else _) = nb
    have hholds : Holds footers bytes nb := by
      rw [← hnb]
      split
      · next hmin => exact holds_minChunkSize h hmin
      · next hmin => exact holds_padRequest h hmin hmax
    refine ⟨⟨?_, hholds.least 256 ?_ ?_ ?_⟩, nb, .inl rfl, hholds⟩
    · have hle := h.minChunk ▸ hholds.min_le
      show 0 % 2 ^ w < nb.toNat
      rw [Nat.zero_mod]
      exact (Nat.mul_pos (by decide) (Nat.two_pow_pos k)).trans_le hle
    · rw [h.alignment]
      rcases hk with rfl | rfl <;> decide
    · rw [h.overhead]
      rcases hk with rfl | rfl <;> omega
    · rw [h.minChunk]
      rcases hk with rfl | rfl <;> decide
  · next hlarge =>
    obtain ⟨hmax, hbytes⟩ := Option.ite_none_left_eq_some.mp hbytes
    obtain rfl := Option.some.inj hbytes
    have hlarge : ¬bytes.toNat ≤ (maxSmallRequest w footers).toNat := hlarge
    have hmin : ¬bytes < minRequest w footers := by
      have hminRequest := h.minRequest
      rw [BitVec.lt_def]
      rcases hk with rfl | rfl <;> omega
    have hholds := holds_padRequest h hmin (BitVec.not_le.mp hmax)
    have hle := h.overhead ▸ hholds.bytes_le
    have hdvd := h.alignment ▸ hholds.aligned
    refine ⟨?_, _, .inr rfl, hholds⟩
    show 256 ≤ (padRequest footers bytes).toNat
    rcases hk with rfl | rfl <;> omega

theorem ofBytes_valid_thousand : Holds false 1000#64 1008#64 := by
  have hbytes : Request.ofBytes false 0#64 1000#64 = some (.large 1008#64 0#64) := rfl
  obtain ⟨-, nb, hnb | hnb, hholds⟩ := ofBytes_valid (M := 0) (.inr rfl) hbytes
  · cases hnb
  · cases hnb
    exact hholds

end Sizes

end MiscProjects.Malloc
