import Mathlib.Algebra.Ring.Nat
import Mathlib.Data.List.Basic
import Mathlib.Data.List.Range

/-!
# Byte memory

A flat memory with 32-bit little-endian words and zero-terminated strings of
16-bit characters, and the copies `memcpy` makes in it.  `Same m a m' b n` says
that the `n` bytes at `b` in `m'` are those at `a` in `m`: whatever is read
from bytes is read alike from both places.
-/

namespace MiscProjects.Memory

/-- Memory by address. -/
abbrev Mem := ℕ → UInt8

def bytesAt (m : Mem) (a n : ℕ) : List UInt8 :=
  (List.range n).map fun i => m (a + i)

def memcpy (m : Mem) (dst src n : ℕ) : Mem := fun a =>
  if dst ≤ a ∧ a < dst + n then m (src + (a - dst)) else m a

/-- The little-endian word at `a`. -/
def dword (m : Mem) (a : ℕ) : ℕ :=
  (m a).toNat + 256 * (m (a + 1)).toNat + 256 ^ 2 * (m (a + 2)).toNat +
    256 ^ 3 * (m (a + 3)).toNat

def storeDword (m : Mem) (a v : ℕ) : Mem := fun x =>
  if a ≤ x ∧ x < a + 4 then UInt8.ofNat (v / 256 ^ (x - a)) else m x

/-- The 16-bit characters of a byte sequence. -/
def wchars : List UInt8 → List UInt16
  | lo :: hi :: rest => UInt16.ofNat (lo.toNat + 256 * hi.toNat) :: wchars rest
  | _ => []

/-- The 16-bit character at `a` is the terminator. -/
def terminates (m : Mem) (a : ℕ) : Prop := m a = 0 ∧ m (a + 1) = 0

instance (m : Mem) (a : ℕ) : Decidable (terminates m a) :=
  inferInstanceAs (Decidable (_ ∧ _))

/-- Search for a terminator among the next `fuel` characters, of which `n`
have been passed. -/
def findTerminator (m : Mem) (p : ℕ) : ℕ → ℕ → Option ℕ
  | 0, _ => none
  | fuel + 1, n =>
      if terminates m (p + 2 * n) then some n
      else findTerminator m p fuel (n + 1)

/-- The length of the string at `p`, or `none` if it does not end before the
end of the address space. -/
def lstrlenW (m : Mem) (p : ℕ) : Option ℕ :=
  findTerminator m p ((2 ^ 32 - p) / 2) 0

/-- The `n` bytes at `b` in `m'` are those at `a` in `m`. -/
def Same (m : Mem) (a : ℕ) (m' : Mem) (b n : ℕ) : Prop :=
  ∀ i < n, m' (b + i) = m (a + i)

variable {m m' m'' : Mem} {a b c n k v : ℕ}

/-! ## Copies of bytes -/

theorem Same.mono (h : Same m a m' b n) (hle : k ≤ n) : Same m a m' b k :=
  fun i hi => h i (Nat.lt_of_lt_of_le hi hle)

theorem Same.trans (h : Same m a m' b n) (h' : Same m' b m'' c n) : Same m a m'' c n :=
  fun i hi => (h' i hi).trans (h i hi)

theorem Same.symm (h : Same m a m' b n) : Same m' b m a n := fun i hi => (h i hi).symm

/-- A part of a copy is a copy of the part. -/
theorem Same.slice (h : Same m a m' b n) (hle : k + c ≤ n) : Same m (a + k) m' (b + k) c := by
  intro i hi
  have := h (k + i) (by omega)
  rwa [← Nat.add_assoc, ← Nat.add_assoc] at this

theorem Same.bytesAt_eq (h : Same m a m' b n) : bytesAt m' b n = bytesAt m a n := by
  unfold bytesAt
  refine List.map_congr_left fun i hi => ?_
  exact h i (List.mem_range.mp hi)

theorem same_of_bytesAt_eq (h : bytesAt m' b n = bytesAt m a n) : Same m a m' b n := by
  intro i hi
  have hi' : i < (bytesAt m' b n).length := by simpa [bytesAt] using hi
  have := List.getElem_of_eq h hi'
  simpa [bytesAt] using this

theorem Same.dword_eq (h : Same m a m' b 4) : dword m' b = dword m a := by
  unfold dword
  have h0 := h 0 (by omega)
  rw [Nat.add_zero, Nat.add_zero] at h0
  rw [h0, h 1 (by omega), h 2 (by omega), h 3 (by omega)]

/-! ## Strings -/

variable {fuel len p x : ℕ}

/-- What a search that succeeds has found. -/
theorem findTerminator_some {n : ℕ} (h : findTerminator m p fuel n = some len) :
    n ≤ len ∧ len < n + fuel ∧ terminates m (p + 2 * len) ∧
      ∀ j, n ≤ j → j < len → ¬ terminates m (p + 2 * j) := by
  induction fuel generalizing n with
  | zero => cases h
  | succ fuel ih =>
      unfold findTerminator at h
      split at h
      next hterm =>
        rw [Option.some.injEq] at h
        subst h
        exact ⟨Nat.le_refl _, by omega, hterm, fun j hj hlt => by omega⟩
      next hterm =>
        obtain ⟨hle, hlt, hfound, hbefore⟩ := ih h
        refine ⟨by omega, by omega, hfound, fun j hj hjlt => ?_⟩
        rcases Nat.eq_or_lt_of_le hj with rfl | hj
        · exact hterm
        · exact hbefore j hj hjlt

/-- A terminator within reach, and none before it, is found. -/
theorem findTerminator_eq_some {n : ℕ} (hle : n ≤ len)
    (hlt : len < n + fuel) (hterm : terminates m (p + 2 * len))
    (hbefore : ∀ j, n ≤ j → j < len → ¬ terminates m (p + 2 * j)) :
    findTerminator m p fuel n = some len := by
  induction fuel generalizing n with
  | zero => omega
  | succ fuel ih =>
      unfold findTerminator
      rcases Nat.eq_or_lt_of_le hle with rfl | hlt'
      · rw [if_pos hterm]
      · rw [if_neg (hbefore n (Nat.le_refl _) hlt')]
        exact ih hlt' (by omega) fun j hj => hbefore j (by omega)

theorem lstrlenW_within (h : lstrlenW m p = some len) : p + 2 * (len + 1) ≤ 2 ^ 32 := by
  obtain ⟨-, hlt, -, -⟩ := findTerminator_some h
  omega

theorem Same.terminates_iff (h : Same m a m' b 2) : terminates m' b ↔ terminates m a := by
  have h0 := h 0 (by omega)
  rw [Nat.add_zero, Nat.add_zero] at h0
  rw [terminates, terminates, h0, h 1 (by omega)]

/-- A copy of a string with its terminator has the same length. -/
theorem Same.lstrlenW_eq {q : ℕ} (hlen : lstrlenW m p = some len)
    (h : Same m p m' q (2 * (len + 1))) (hq : q + 2 * (len + 1) ≤ 2 ^ 32) :
    lstrlenW m' q = some len := by
  obtain ⟨-, -, hterm, hbefore⟩ := findTerminator_some hlen
  have hsame : ∀ j, j ≤ len → (terminates m' (q + 2 * j) ↔ terminates m (p + 2 * j)) := fun j hj =>
    (h.slice (by omega)).terminates_iff
  refine findTerminator_eq_some (Nat.zero_le _) (by omega)
    ((hsame len (Nat.le_refl _)).mpr hterm) fun j hj hlt => ?_
  rw [hsame j (Nat.le_of_lt hlt)]
  exact hbefore j hj hlt

/-- The character at `p`. -/
def wcharAt (m : Mem) (p : ℕ) : UInt16 := UInt16.ofNat ((m p).toNat + 256 * (m (p + 1)).toNat)

theorem wchars_bytesAt (m : Mem) (p n : ℕ) :
    wchars (bytesAt m p (2 * (n + 1))) = wcharAt m p :: wchars (bytesAt m (p + 2) (2 * n)) := by
  have hrange : bytesAt m p (2 * (n + 1)) = m p :: m (p + 1) :: bytesAt m (p + 2) (2 * n) := by
    unfold bytesAt
    rw [show 2 * (n + 1) = 2 * n + 1 + 1 by omega, List.range_succ_eq_map, List.range_succ_eq_map]
    simp only [List.map_cons, List.map_map, Nat.add_zero, List.cons.injEq, true_and]
    refine List.map_congr_left fun i _ => ?_
    change m (p + (i + 1 + 1)) = m (p + 2 + i)
    rw [show p + (i + 1 + 1) = p + 2 + i by omega]
  rw [hrange, wchars, wcharAt]

theorem length_wchars (bytes : List UInt8) : (wchars bytes).length = bytes.length / 2 := by
  induction bytes using wchars.induct with
  | case1 lo hi rest ih =>
      rw [wchars, List.length_cons, ih, List.length_cons, List.length_cons]
      omega
  | case2 bytes hshort =>
      rcases bytes with _ | ⟨b, _ | ⟨c, rest⟩⟩
      · rfl
      · simp [wchars]
      · exact absurd rfl (hshort b c rest)

theorem length_wchars_bytesAt (m : Mem) (p n : ℕ) : (wchars (bytesAt m p (2 * n))).length = n := by
  rw [length_wchars, bytesAt, List.length_map, List.length_range]
  omega

/-- Equal characters have equal bytes. -/
theorem byte_eq_of_wcharAt_eq (h : wcharAt m' p = wcharAt m p) : m' p = m p := by
  have hnat := congrArg UInt16.toNat h
  rw [wcharAt, wcharAt, UInt16.toNat_ofNat', UInt16.toNat_ofNat'] at hnat
  have h0 := (m p).toNat_lt
  have h1 := (m (p + 1)).toNat_lt
  have h0' := (m' p).toNat_lt
  have h1' := (m' (p + 1)).toNat_lt
  exact UInt8.toNat_inj.mp (by omega)

/-- Strings that are equal begin with the same byte. -/
theorem byte_eq_of_text_eq {len' : ℕ} (h : lstrlenW m p = some len) (h' : lstrlenW m' p = some len')
    (htext : (wchars (bytesAt m' p (2 * (len' + 1)))).dropLast =
      (wchars (bytesAt m p (2 * (len + 1)))).dropLast) : m' p = m p := by
  have hlength := congrArg List.length htext
  rw [List.length_dropLast, List.length_dropLast, length_wchars_bytesAt,
    length_wchars_bytesAt] at hlength
  have hlen : len' = len := by omega
  subst hlen
  cases len' with
  | zero =>
      obtain ⟨-, -, hterm, -⟩ := findTerminator_some h
      obtain ⟨-, -, hterm', -⟩ := findTerminator_some h'
      exact hterm'.1.trans hterm.1.symm
  | succ len =>
      rw [wchars_bytesAt, wchars_bytesAt, wchars_bytesAt, wchars_bytesAt,
        List.dropLast_cons_cons, List.dropLast_cons_cons, List.cons.injEq] at htext
      exact byte_eq_of_wcharAt_eq htext.1

/-! ## Writes -/

/-- The copy is a copy. -/
theorem memcpy_same (m : Mem) (dst src n : ℕ) : Same m src (memcpy m dst src n) dst n := by
  intro i hi
  unfold memcpy
  rw [if_pos ⟨by omega, by omega⟩]
  congr 1
  omega

/-- Outside the destination nothing changes. -/
theorem memcpy_outside {dst src : ℕ} (h : x < dst ∨ dst + n ≤ x) : memcpy m dst src n x = m x := by
  unfold memcpy
  rw [if_neg (by omega)]

theorem storeDword_outside (h : x < a ∨ a + 4 ≤ x) : storeDword m a v x = m x := by
  unfold storeDword
  rw [if_neg (by omega)]

theorem dword_storeDword (hv : v < 2 ^ 32) : dword (storeDword m a v) a = v := by
  have hbyte : ∀ i < 4, (storeDword m a v (a + i)).toNat = v / 256 ^ i % 256 := by
    intro i hi
    unfold storeDword
    rw [if_pos ⟨by omega, by omega⟩, UInt8.toNat_ofNat']
    congr 3
    omega
  have h0 := hbyte 0 (by omega)
  rw [Nat.add_zero] at h0
  unfold dword
  rw [h0, hbyte 1 (by omega), hbyte 2 (by omega), hbyte 3 (by omega)]
  omega

/-! ## Streams of regions -/

/-- An address and a number of bytes. -/
structure Region where
  addr : ℕ
  len : ℕ
deriving DecidableEq

def total (regions : List Region) : ℕ := (regions.map (·.len)).sum

@[simp]
theorem total_nil : total [] = 0 := rfl

@[simp]
theorem total_cons (region : Region) (regions : List Region) :
    total (region :: regions) = region.len + total regions := rfl

@[simp]
theorem total_append (rs rs' : List Region) : total (rs ++ rs') = total rs + total rs' := by
  simp [total]

/-- The regions share no byte. -/
def Region.Apart (r r' : Region) : Prop :=
  r.addr + r.len ≤ r'.addr ∨ r'.addr + r'.len ≤ r.addr

instance (r r' : Region) : Decidable (r.Apart r') :=
  inferInstanceAs (Decidable (_ ∨ _))

/-- All bytes of the region are bytes of the other one. -/
def Region.Inside (r r' : Region) : Prop :=
  r.len = 0 ∨ r'.addr ≤ r.addr ∧ r.addr + r.len ≤ r'.addr + r'.len

instance (r r' : Region) : Decidable (r.Inside r') :=
  inferInstanceAs (Decidable (_ ∨ _))

/-- The bytes at `b` in `m'` are those of the regions in `m`, one after the
other. -/
def Streams (m m' : Mem) : ℕ → List Region → Prop
  | _, [] => True
  | b, region :: rest =>
      Same m region.addr m' b region.len ∧ Streams m m' (b + region.len) rest

theorem streams_append (rs rs' : List Region) : Streams m m' b (rs ++ rs') ↔
      Streams m m' b rs ∧ Streams m m' (b + total rs) rs' := by
  induction rs generalizing b with
  | nil => simp [Streams]
  | cons region rest ih =>
      rw [List.cons_append, Streams, Streams, ih, total_cons, ← Nat.add_assoc]
      exact and_assoc.symm

/-- A copy of a stream is a stream. -/
theorem Streams.copy {rs : List Region} (h : Streams m m' b rs)
    (hcopy : Same m' b m'' c (total rs)) : Streams m m'' c rs := by
  induction rs generalizing b c with
  | nil => trivial
  | cons region rest ih =>
      rw [total_cons] at hcopy
      exact ⟨h.1.trans (hcopy.mono (by omega)), ih h.2 (hcopy.slice (by omega))⟩

end MiscProjects.Memory
