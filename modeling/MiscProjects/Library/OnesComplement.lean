import Mathlib.Algebra.BigOperators.Group.List.Basic
import Mathlib.Data.Nat.ModEq

/-!
# One's complement sums

Words of `w` bits are added with the carry going round to the end of the word.
The sum of words stands for their sum modulo `2 ^ w - 1`; the multiples of
`2 ^ w - 1` are all ones, except for `0` itself.  An accumulator with room for
the carries is folded: what is above the word is added to the word.

The last part is about words of two bytes.
-/

namespace MiscProjects.OnesComplement

/-- The word of ones. -/
def ones (w : ℕ) : ℕ := 2 ^ w - 1

/-- A carry is added at the end of the word. -/
def add (w x y : ℕ) : ℕ := if x + y < 2 ^ w then x + y else x + y - 2 ^ w + 1

def sum (w : ℕ) : List ℕ → ℕ
  | [] => 0
  | x :: words => add w x (sum w words)

/-- What is above the word is added to the word. -/
def fold (w n : ℕ) : ℕ := n / 2 ^ w + n % 2 ^ w

/-- The word that stands for a number. -/
def residue (w n : ℕ) : ℕ := if n = 0 then 0 else (n - 1) % ones w + 1

section Words
variable {w m n x y : ℕ} {words : List ℕ}

theorem ones_pos (hw : 0 < w) : 0 < ones w := Nat.sub_pos_of_lt (Nat.one_lt_two_pow hw.ne')

theorem ones_succ (w : ℕ) : ones w + 1 = 2 ^ w := Nat.sub_add_cancel Nat.one_le_two_pow

@[simp]
theorem residue_zero (w : ℕ) : residue w 0 = 0 := rfl

theorem residue_of_pos (hn : 0 < n) : residue w n = (n - 1) % ones w + 1 := by
  rw [residue, if_neg hn.ne']

theorem residue_pos (hn : 0 < n) : 0 < residue w n := by
  rw [residue_of_pos hn]
  exact Nat.succ_pos _

theorem residue_le (hw : 0 < w) : residue w n ≤ ones w := by
  rcases Nat.eq_zero_or_pos n with rfl | hn
  · exact Nat.zero_le _
  · rw [residue_of_pos hn]
    exact Nat.mod_lt _ (ones_pos hw)

theorem residue_modEq (w n : ℕ) : residue w n ≡ n [MOD ones w] := by
  rcases Nat.eq_zero_or_pos n with rfl | hn
  · rfl
  · rw [residue_of_pos hn]
    have hpred : (n - 1) % ones w + 1 ≡ n - 1 + 1 [MOD ones w] := (Nat.mod_modEq _ _).add_right 1
    rwa [Nat.sub_add_cancel hn] at hpred

/-- Congruent numbers stand for the same word, unless one of them is `0`. -/
theorem residue_congr (hm : 0 < m) (hn : 0 < n) (h : m ≡ n [MOD ones w]) :
    residue w m = residue w n := by
  rw [residue_of_pos hm, residue_of_pos hn]
  have hpred : m - 1 ≡ n - 1 [MOD ones w] := by
    apply Nat.ModEq.add_right_cancel' 1
    rwa [Nat.sub_add_cancel hm, Nat.sub_add_cancel hn]
  exact congrArg (· + 1) hpred

theorem residue_of_le (hn : n ≤ ones w) : residue w n = n := by
  rcases Nat.eq_zero_or_pos n with rfl | hpos
  · rfl
  · rw [residue_of_pos hpos, Nat.mod_eq_of_lt (by omega), Nat.sub_add_cancel hpos]

theorem residue_add_residue (w m n : ℕ) : residue w (m + residue w n) = residue w (m + n) := by
  rcases Nat.eq_zero_or_pos n with rfl | hn
  · rfl
  · have hres : 0 < residue w n := residue_pos hn
    exact residue_congr (by omega) (by omega) ((residue_modEq w n).add_left m)

/-- The sum stands for all ones exactly if it is a multiple and not `0`. -/
theorem residue_eq_ones_iff (hw : 0 < w) : residue w n = ones w ↔ 0 < n ∧ ones w ∣ n := by
  have hones := ones_pos hw
  constructor
  · intro h
    constructor
    · rcases Nat.eq_zero_or_pos n with rfl | hn
      · rw [residue_zero] at h
        omega
      · exact hn
    · have hmod := residue_modEq w n
      rw [h] at hmod
      exact (Nat.modEq_zero_iff_dvd.mp (hmod.symm.trans (Nat.modEq_zero_iff_dvd.mpr (dvd_refl _))))
  · rintro ⟨hn, hdvd⟩
    have hmod : n ≡ ones w [MOD ones w] :=
      (Nat.modEq_zero_iff_dvd.mpr hdvd).trans (Nat.modEq_zero_iff_dvd.mpr (dvd_refl _)).symm
    rw [residue_congr hn hones hmod, residue_of_le (Nat.le_refl _)]

/-- The complement of a sum makes it all ones. -/
theorem residue_add_complement (hw : 0 < w) (n : ℕ) :
    residue w (n + (ones w - residue w n)) = ones w := by
  have hones := ones_pos hw
  have hle : residue w n ≤ ones w := residue_le hw
  rw [residue_eq_ones_iff hw]
  constructor
  · rcases Nat.eq_zero_or_pos n with rfl | hn
    · rw [residue_zero]
      omega
    · omega
  · have hmod : n + (ones w - residue w n) ≡ residue w n + (ones w - residue w n) [MOD ones w] :=
      (residue_modEq w n).symm.add_right _
    rw [Nat.add_sub_cancel' hle] at hmod
    exact Nat.modEq_zero_iff_dvd.mp (hmod.trans (Nat.modEq_zero_iff_dvd.mpr (dvd_refl _)))

theorem add_eq_residue (hx : x ≤ ones w) (hy : y ≤ ones w) : add w x y = residue w (x + y) := by
  have hsucc := ones_succ w
  unfold add
  split
  · rw [residue_of_le (by omega)]
  · rw [residue_of_pos (by omega)]
    have hpred : x + y - 1 = ones w + (x + y - 2 ^ w) := by omega
    rw [hpred, Nat.add_mod_left, Nat.mod_eq_of_lt (by omega)]

/-- The words may be added in any order and with any carries. -/
theorem sum_eq_residue (hw : 0 < w) (hwords : ∀ x ∈ words, x ≤ ones w) :
    sum w words = residue w words.sum := by
  induction words with
  | nil => rfl
  | cons x words ih =>
      rw [List.forall_mem_cons] at hwords
      rw [sum, ih hwords.2, add_eq_residue hwords.1 (residue_le hw), residue_add_residue,
        List.sum_cons]

/-! ## Folding -/

theorem fold_modEq (w n : ℕ) : fold w n ≡ n [MOD ones w] := by
  have hpow : 2 ^ w ≡ 1 [MOD ones w] := by
    have hmod : ones w + 1 ≡ 0 + 1 [MOD ones w] :=
      (Nat.modEq_zero_iff_dvd.mpr (dvd_refl _)).add_right 1
    rwa [ones_succ, Nat.zero_add] at hmod
  have hquot : n / 2 ^ w * 1 ≡ n / 2 ^ w * 2 ^ w [MOD ones w] := hpow.symm.mul_left _
  rw [Nat.mul_one] at hquot
  calc fold w n ≡ n / 2 ^ w * 2 ^ w + n % 2 ^ w [MOD ones w] := hquot.add_right _
    _ = n := by rw [Nat.mul_comm, Nat.div_add_mod]

theorem fold_pos (hn : 0 < n) : 0 < fold w n := by
  rcases Nat.eq_zero_or_pos (n / 2 ^ w) with hquot | hquot
  · have hlt : n < 2 ^ w := (Nat.div_eq_zero_iff_lt (Nat.two_pow_pos w)).mp hquot
    rw [fold, hquot, Nat.mod_eq_of_lt hlt, Nat.zero_add]
    exact hn
  · exact Nat.lt_of_lt_of_le hquot (Nat.le_add_right _ _)

theorem residue_fold (w n : ℕ) : residue w (fold w n) = residue w n := by
  rcases Nat.eq_zero_or_pos n with rfl | hn
  · rw [fold, Nat.zero_div, Nat.zero_mod]
  · exact residue_congr (fold_pos hn) hn (fold_modEq w n)

/-- The first folding of an accumulator of two words leaves a carry of one bit. -/
theorem fold_le (hn : n < 2 ^ w * 2 ^ w) : fold w n ≤ ones w + ones w := by
  have hsucc := ones_succ w
  have hquot : n / 2 ^ w < 2 ^ w := Nat.div_lt_of_lt_mul hn
  have hrem : n % 2 ^ w < 2 ^ w := Nat.mod_lt _ (Nat.two_pow_pos w)
  unfold fold
  omega

theorem fold_le_ones (hw : 0 < w) (hn : n ≤ ones w + ones w) : fold w n ≤ ones w := by
  have hsucc := ones_succ w
  have hones := ones_pos hw
  unfold fold
  rcases Nat.lt_or_ge n (2 ^ w) with hlt | hge
  · rw [Nat.div_eq_of_lt hlt, Nat.mod_eq_of_lt hlt]
    omega
  · have hquot : n / 2 ^ w = 1 := Nat.div_eq_of_lt_le (by omega) (by omega)
    have hrem : n % 2 ^ w = n - 2 ^ w := by
      rw [Nat.mod_eq_sub_mod hge, Nat.mod_eq_of_lt (by omega)]
    rw [hquot, hrem]
    omega

/-- Two foldings of an accumulator of two words are enough. -/
theorem fold_fold (hw : 0 < w) (hn : n < 2 ^ w * 2 ^ w) : fold w (fold w n) = residue w n := by
  rw [← residue_of_le (fold_le_ones hw (fold_le hn)), residue_fold, residue_fold]

end Words

/-! ## Words of two bytes -/

/-- The words of a string of bytes with the low byte first; the last odd byte is padded
with zero. -/
def littleWords : List UInt8 → List ℕ
  | low :: high :: bytes => (low.toNat + 2 ^ 8 * high.toNat) :: littleWords bytes
  | [last] => [last.toNat]
  | [] => []

/-- The words with the high byte first. -/
def bigWords : List UInt8 → List ℕ
  | high :: low :: bytes => (2 ^ 8 * high.toNat + low.toNat) :: bigWords bytes
  | [last] => [2 ^ 8 * last.toNat]
  | [] => []

section Bytes
variable {a b bytes : List UInt8}

theorem littleWords_le : ∀ x ∈ littleWords bytes, x ≤ ones 16 := by
  induction bytes using littleWords.induct with
  | case1 low high bytes ih =>
      refine List.forall_mem_cons.mpr ⟨?_, ih⟩
      have hlow := low.toNat_lt
      have hhigh := high.toNat_lt
      rw [ones]
      omega
  | case2 last =>
      refine List.forall_mem_singleton.mpr ?_
      have hlast := last.toNat_lt
      rw [ones]
      omega
  | case3 => exact List.forall_mem_nil _

theorem bigWords_le : ∀ x ∈ bigWords bytes, x ≤ ones 16 := by
  induction bytes using bigWords.induct with
  | case1 high low bytes ih =>
      refine List.forall_mem_cons.mpr ⟨?_, ih⟩
      have hlow := low.toNat_lt
      have hhigh := high.toNat_lt
      rw [ones]
      omega
  | case2 last =>
      refine List.forall_mem_singleton.mpr ?_
      have hlast := last.toNat_lt
      rw [ones]
      omega
  | case3 => exact List.forall_mem_nil _

theorem littleWords_append (ha : 2 ∣ a.length) :
    littleWords (a ++ b) = littleWords a ++ littleWords b := by
  induction a using littleWords.induct with
  | case1 low high bytes ih =>
      rw [List.length_cons, List.length_cons] at ha
      simp only [List.cons_append, littleWords, ih (by omega)]
  | case2 last =>
      rw [List.length_singleton] at ha
      omega
  | case3 => rfl

theorem length_littleWords (bytes : List UInt8) :
    (littleWords bytes).length = (bytes.length + 1) / 2 := by
  induction bytes using littleWords.induct with
  | case1 low high bytes ih =>
      simp only [littleWords, List.length_cons, ih]
      omega
  | case2 last => simp only [littleWords, List.length_singleton]
  | case3 => rfl

/-- To exchange the bytes of every word is to multiply the sum by `2 ^ 8`. -/
theorem bigWords_modEq (bytes : List UInt8) :
    (bigWords bytes).sum ≡ 2 ^ 8 * (littleWords bytes).sum [MOD ones 16] := by
  induction bytes using littleWords.induct with
  | case1 first second bytes ih =>
      simp only [bigWords, littleWords, List.sum_cons, Nat.mul_add]
      refine Nat.ModEq.add ?_ ih
      have hround : second.toNat ≡ 2 ^ 8 * (2 ^ 8 * second.toNat) [MOD ones 16] := by
        have hpow : 2 ^ 8 * (2 ^ 8 * second.toNat) = second.toNat + ones 16 * second.toNat := by
          rw [ones]
          omega
        rw [hpow]
        exact (Nat.modEq_zero_iff_dvd.mpr (dvd_mul_right _ _)).symm.add_left _
      exact hround.add_left _
  | case2 last => rfl
  | case3 => rfl

theorem sum_littleWords_eq_zero_iff : (littleWords bytes).sum = 0 ↔ ∀ b ∈ bytes, b = 0 := by
  induction bytes using littleWords.induct with
  | case1 first second bytes ih =>
      simp only [littleWords, List.sum_cons]
      rw [List.forall_mem_cons, List.forall_mem_cons, ← ih, ← UInt8.toNat_inj,
        ← UInt8.toNat_inj, UInt8.toNat_zero]
      omega
  | case2 last =>
      simp only [littleWords, List.sum_singleton, List.forall_mem_singleton, ← UInt8.toNat_inj,
        UInt8.toNat_zero]
  | case3 => exact iff_of_true rfl (List.forall_mem_nil _)

theorem sum_bigWords_eq_zero_iff : (bigWords bytes).sum = 0 ↔ ∀ b ∈ bytes, b = 0 := by
  induction bytes using bigWords.induct with
  | case1 first second bytes ih =>
      simp only [bigWords, List.sum_cons]
      rw [List.forall_mem_cons, List.forall_mem_cons, ← ih, ← UInt8.toNat_inj,
        ← UInt8.toNat_inj, UInt8.toNat_zero]
      omega
  | case2 last =>
      simp only [bigWords, List.sum_singleton, List.forall_mem_singleton, ← UInt8.toNat_inj,
        UInt8.toNat_zero]
      omega
  | case3 => exact iff_of_true rfl (List.forall_mem_nil _)

/-- Whether a sum is all ones does not depend on the order of the bytes. -/
theorem sum_bigWords_eq_ones_iff :
    sum 16 (bigWords bytes) = ones 16 ↔ sum 16 (littleWords bytes) = ones 16 := by
  have hw : 0 < 16 := by decide
  rw [sum_eq_residue hw bigWords_le, sum_eq_residue hw littleWords_le, residue_eq_ones_iff hw,
    residue_eq_ones_iff hw]
  refine and_congr ?_ ?_
  · rw [Nat.pos_iff_ne_zero, Nat.pos_iff_ne_zero, Ne, Ne, sum_bigWords_eq_zero_iff,
      sum_littleWords_eq_zero_iff]
  · rw [(bigWords_modEq bytes).dvd_iff (dvd_refl _)]
    have hcoprime : Nat.Coprime (ones 16) (2 ^ 8) := by decide
    exact hcoprime.dvd_mul_left

end Bytes

end MiscProjects.OnesComplement
