import Mathlib.Algebra.Order.Ring.Nat
import Mathlib.Data.List.Induction

/-!
# Numbers in network order

A number in a packet is a row of bytes, the most significant one first.  Rows of
one length and the numbers that fit into them correspond to each other.
-/

namespace MiscProjects.NetworkOrder

/-- The number that a row of bytes stands for. -/
def number (row : List UInt8) : ℕ := row.foldl (fun value b => 256 * value + b.toNat) 0

/-- A number as a row of `n` bytes. -/
def bytes : ℕ → ℕ → List UInt8
  | 0, _ => []
  | n + 1, value => bytes n (value / 256) ++ [UInt8.ofNat value]

theorem length_bytes (n value : ℕ) : (bytes n value).length = n := by
  induction n generalizing value with
  | zero => exact List.length_nil
  | succ n ih => rw [bytes, List.length_append, ih, List.length_singleton]

theorem number_append_singleton (row : List UInt8) (b : UInt8) :
    number (row ++ [b]) = 256 * number row + b.toNat := by
  rw [number, List.foldl_append, List.foldl_cons, List.foldl_nil, ← number]

theorem number_lt (row : List UInt8) : number row < 256 ^ row.length := by
  induction row using List.reverseRecOn with
  | nil => exact Nat.one_pos
  | append_singleton row b ih =>
      have hb := b.toNat_lt
      rw [number_append_singleton, List.length_append, List.length_singleton, pow_succ]
      omega

/-- A number that fits is read back. -/
theorem number_bytes {n value : ℕ} (hvalue : value < 256 ^ n) : number (bytes n value) = value := by
  induction n generalizing value with
  | zero => exact (Nat.lt_one_iff.mp hvalue).symm
  | succ n ih =>
      have hdiv : value / 256 < 256 ^ n := by
        rw [pow_succ] at hvalue
        omega
      rw [bytes, number_append_singleton, ih hdiv, UInt8.toNat_ofNat']
      omega

/-- A row of bytes is made again from its number. -/
theorem bytes_number (row : List UInt8) : bytes row.length (number row) = row := by
  induction row using List.reverseRecOn with
  | nil => exact List.length_eq_zero_iff.mp (length_bytes 0 _)
  | append_singleton row b ih =>
      have hb := b.toNat_lt
      have hdiv : (256 * number row + b.toNat) / 256 = number row := by omega
      have hlast : UInt8.ofNat (256 * number row + b.toNat) = b := by
        apply UInt8.toNat_inj.mp
        rw [UInt8.toNat_ofNat']
        omega
      rw [number_append_singleton, List.length_append, List.length_singleton, bytes, hdiv, ih,
        hlast]

/-- Rows of bytes that stand for a number that fits. -/
theorem number_eq_iff {row : List UInt8} {n value : ℕ} (hrow : row.length = n)
    (hvalue : value < 256 ^ n) : number row = value ↔ row = bytes n value := by
  constructor
  · intro h
    rw [← h, ← hrow, bytes_number]
  · intro h
    rw [h, number_bytes hvalue]

end MiscProjects.NetworkOrder
