import Mathlib.Algebra.Order.BigOperators.Group.List
import Mathlib.Algebra.Order.Ring.Nat
import MiscProjects.Library.OnesComplement
import MiscProjects.RawUdp.Headers

/-!
# The checksum

`checksum` adds the words of a buffer in the order of the machine, folds the
accumulator twice and complements what the cast leaves of it.
-/

namespace MiscProjects.RawUdp

open OnesComplement

/-- A 16-bit field of the buffer is written. -/
def storeUshort (buffer : List UInt8) (offset n : ℕ) : List UInt8 :=
  buffer.take offset ++ ushortBytes n ++ buffer.drop (offset + 2)

section Checksum
variable {buffer : List UInt8} {cksum n : ℕ}

theorem sum_littleWords_le (buffer : List UInt8) :
    (littleWords buffer).sum ≤ (buffer.length + 1) / 2 * ones 16 := by
  rw [← length_littleWords]
  exact List.sum_le_card_nsmul _ _ littleWords_le

theorem sum_littleWords_lt (hlength : buffer.length ≤ maxPacket + 1) :
    (littleWords buffer).sum < 2 ^ 31 := by
  have hle := sum_littleWords_le buffer
  have hcount : (buffer.length + 1) / 2 ≤ 2 ^ 15 := by
    rw [maxPacket] at hlength
    omega
  have hmul : (buffer.length + 1) / 2 * ones 16 ≤ 2 ^ 15 * ones 16 := Nat.mul_le_mul_right _ hcount
  have hlast : 2 ^ 15 * ones 16 < 2 ^ 31 := by decide
  omega

theorem cksumLoop_eq (hlt : cksum + (littleWords buffer).sum < 2 ^ 32) :
    cksumLoop cksum buffer = cksum + (littleWords buffer).sum := by
  induction buffer using littleWords.induct generalizing cksum with
  | case1 low high buffer ih =>
      simp only [littleWords, List.sum_cons] at hlt ⊢
      rw [cksumLoop, Nat.mod_eq_of_lt (by omega), ih (by omega)]
      omega
  | case2 last =>
      simp only [littleWords, List.sum_singleton] at hlt ⊢
      rw [cksumLoop, Nat.mod_eq_of_lt hlt]
  | case3 => rfl

theorem checksum_eq (hlength : buffer.length ≤ maxPacket + 1) :
    checksum buffer = ones 16 - residue 16 (littleWords buffer).sum := by
  have hlt := sum_littleWords_lt hlength
  have hloop : cksumLoop 0 buffer = (littleWords buffer).sum := by
    rw [cksumLoop_eq (by omega), Nat.zero_add]
  have hfold : fold 16 (fold 16 (littleWords buffer).sum) =
      residue 16 (littleWords buffer).sum := fold_fold (by decide) (by omega)
  have hle : residue 16 (littleWords buffer).sum ≤ ones 16 := residue_le (by decide)
  have hsmall : fold 16 (littleWords buffer).sum ≤ ones 16 + ones 16 := fold_le (by omega)
  rw [checksum, hloop]
  change (2 ^ 32 - 1 - (fold 16 (littleWords buffer).sum +
    fold 16 (littleWords buffer).sum / 2 ^ 16) % 2 ^ 32) % 2 ^ 16 = _
  rw [← hfold] at hle ⊢
  generalize fold 16 (littleWords buffer).sum = m at hsmall hle ⊢
  rw [ones] at hsmall
  rw [fold] at hle ⊢
  rw [ones] at hle ⊢
  omega

/-! ## The checksum in its field -/

theorem littleWords_ushortBytes (hn : n ≤ ones 16) : littleWords (ushortBytes n) = [n] := by
  rw [ones] at hn
  simp only [ushortBytes, littleWords, UInt8.toNat_ofNat', List.cons.injEq, and_true]
  omega

theorem sum_storeUshort {offset : ℕ} (hoffset : 2 ∣ offset)
    (hzero : (buffer.drop offset).take 2 = [0, 0]) (hn : n ≤ ones 16) :
    (littleWords (storeUshort buffer offset n)).sum = (littleWords buffer).sum + n := by
  have hlength : offset + 2 ≤ buffer.length := by
    have hfield := congrArg List.length hzero
    rw [List.length_take, List.length_drop] at hfield
    simp only [List.length_cons, List.length_nil] at hfield
    omega
  have htake : 2 ∣ (buffer.take offset).length := by
    rw [List.length_take, Nat.min_eq_left (by omega)]
    exact hoffset
  have hparts : buffer = buffer.take offset ++ ([0, 0] ++ buffer.drop (offset + 2)) := by
    rw [← hzero, ← List.drop_drop, List.take_append_drop, List.take_append_drop]
  have hbefore : (littleWords buffer).sum =
      (littleWords (buffer.take offset)).sum + (littleWords (buffer.drop (offset + 2))).sum := by
    conv_lhs => rw [hparts]
    rw [littleWords_append htake, littleWords_append (by decide), List.sum_append, List.sum_append]
    simp [littleWords]
  rw [hbefore, storeUshort, List.append_assoc, littleWords_append htake,
    littleWords_append (by exact dvd_refl 2), littleWords_ushortBytes hn, List.sum_append,
    List.sum_append, List.sum_singleton]
  omega

theorem sum_storeUshort_checksum {offset : ℕ} (hlength : buffer.length ≤ maxPacket + 1)
    (hoffset : 2 ∣ offset) (hzero : (buffer.drop offset).take 2 = [0, 0]) :
    sum 16 (littleWords (storeUshort buffer offset (checksum buffer))) = ones 16 := by
  have hle : checksum buffer ≤ ones 16 := by
    rw [checksum_eq hlength]
    exact Nat.sub_le _ _
  rw [sum_eq_residue (by decide) littleWords_le, sum_storeUshort hoffset hzero hle,
    checksum_eq hlength, residue_add_complement (by decide)]

/-- For every buffer up to the largest datagram `checksum` is the complement of the one's
complement sum: the accumulator is the sum of the words at every point of the loop, two
foldings are enough, and in a field of zeros the checksum makes the sum all ones. -/
theorem checksum_complements (hlength : buffer.length ≤ maxPacket) :
    (∀ done, done <+: buffer →
      (littleWords done).sum < 2 ^ 32 ∧ cksumLoop 0 done = (littleWords done).sum) ∧
    fold 16 (fold 16 (littleWords buffer).sum) = sum 16 (littleWords buffer) ∧
    checksum buffer = ones 16 - sum 16 (littleWords buffer) ∧
    ∀ offset, 2 ∣ offset → (buffer.drop offset).take 2 = [0, 0] →
      sum 16 (littleWords (storeUshort buffer offset (checksum buffer))) = ones 16 := by
  have hroom : buffer.length ≤ maxPacket + 1 := Nat.le_succ_of_le hlength
  have hlt := sum_littleWords_lt hroom
  have hsum : sum 16 (littleWords buffer) = residue 16 (littleWords buffer).sum :=
    sum_eq_residue (by decide) littleWords_le
  refine ⟨fun done hdone => ?_, ?_, ?_, fun offset => sum_storeUshort_checksum hroom⟩
  · have hless : (littleWords done).sum < 2 ^ 31 :=
      sum_littleWords_lt (hdone.length_le.trans hroom)
    refine ⟨by omega, ?_⟩
    rw [cksumLoop_eq (by omega), Nat.zero_add]
  · rw [hsum]
    exact fold_fold (by decide) (by omega)
  · rw [hsum, checksum_eq hroom]

/-- Three bytes whose sum has a carry, and a field for the checksum. -/
def carrying : List UInt8 := [0xFF, 0xFF, 0, 0, 0x02]

theorem checksum_complements_carrying :
    checksum carrying = ones 16 - sum 16 (littleWords carrying) ∧
      sum 16 (littleWords (storeUshort carrying 2 (checksum carrying))) = ones 16 :=
  have hcarrying := @checksum_complements carrying (by decide)
  ⟨hcarrying.2.2.1, hcarrying.2.2.2 2 (by decide) rfl⟩

end Checksum

end MiscProjects.RawUdp
