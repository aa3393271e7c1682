import Mathlib.Data.BitVec
import Mathlib.Tactic.FinCases

/-!
# The IPv6 end points of `TCPServer`

`Serialize` writes an end point to a socket address of 28 bytes and `Create` reads it back.
An `int` and a `uint` are words of 32 bits and a `long` one of 64; a shift to the right of a
signed number copies its sign.  `Create` puts the flow information together as an `int`, and
the sign of that is extended to the `long` of the end point.
-/

namespace MiscProjects.TcpServer

abbrev Byte := BitVec 8

/-- The bytes of an address, and its scope. -/
structure IPv6Address where
  address : Fin 16 → Byte
  scopeIdentifier : BitVec 32

/-- The port of an `IPEndPoint` is tested when it is set. -/
structure IPv6EndPoint where
  port : BitVec 32
  address : IPv6Address
  flowInformation : BitVec 64
  port_le : port.toNat ≤ 65535

/-- `AddressFamily.InterNetworkV6`. -/
def interNetworkV6 : BitVec 32 := 23

/-- A socket address whose family is that of IPv6. -/
@[ext]
structure SocketAddress where
  bytes : Fin 28 → Byte
  family_low : bytes 0 = 23
  family_high : bytes 1 = 0

/-- `(byte)(x & 0xFF)`. -/
def byteOf {w : ℕ} (x : BitVec w) : Byte := (x &&& 0xFF#w).setWidth 8

/-- Four bytes as an `int`, the first one in front. -/
def word (a b c d : Byte) : BitVec 32 :=
  a.setWidth 32 <<< 24 ||| b.setWidth 32 <<< 16 ||| c.setWidth 32 <<< 8 ||| d.setWidth 32

/-- The port in the bytes 2 and 3. -/
def portOf (high low : Byte) : BitVec 32 :=
  (high.setWidth 32 <<< 8 &&& 0x0000FF00) ||| (low.setWidth 32 &&& 0x000000FF)

/-! ## Bits -/

section Bits
variable {w i k : ℕ}

theorem getLsbD_mask (hw : 8 ≤ w) (hi : i < 8) : (0xFF#w).getLsbD i = true := by
  have hbit : Nat.testBit 255 i = true := by simpa [hi] using Nat.testBit_two_pow_sub_one 8 i
  rw [BitVec.getLsbD_ofNat, hbit, Bool.and_true, decide_eq_true_iff]
  omega

theorem getLsbD_byteOf (x : BitVec w) (hw : 8 ≤ w) (hi : i < 8) :
    (byteOf x).getLsbD i = x.getLsbD i := by
  rw [byteOf, BitVec.getLsbD_setWidth, BitVec.getLsbD_and, getLsbD_mask hw hi, Bool.and_true,
    decide_eq_true hi, Bool.true_and]

theorem byteOf_sshiftRight (x : BitVec w) (hk : k + 8 ≤ w) :
    byteOf (x.sshiftRight k) = x.extractLsb' k 8 := by
  apply BitVec.eq_of_getLsbD_eq
  intro i hi
  have hw : ¬ w ≤ i := by omega
  rw [getLsbD_byteOf _ (by omega) hi, BitVec.getLsbD_sshiftRight, BitVec.getLsbD_extractLsb',
    if_pos (by omega)]
  simp [hi, hw]

theorem byteOf_ushiftRight (x : BitVec w) (hk : k + 8 ≤ w) :
    byteOf (x >>> k) = x.extractLsb' k 8 := by
  apply BitVec.eq_of_getLsbD_eq
  intro i hi
  rw [getLsbD_byteOf _ (by omega) hi, BitVec.getLsbD_ushiftRight, BitVec.getLsbD_extractLsb',
    decide_eq_true hi, Bool.true_and]

theorem byteOf_eq (x : BitVec w) (hw : 8 ≤ w) : byteOf x = x.extractLsb' 0 8 := by
  rw [← byteOf_ushiftRight x (k := 0) (by omega), BitVec.ushiftRight_zero]

theorem word_eq_append (a b c d : Byte) : word a b c d = a ++ b ++ c ++ d := by
  apply BitVec.eq_of_getLsbD_eq
  intro i hi
  simp only [word, BitVec.getLsbD_append, BitVec.getLsbD_or, BitVec.getLsbD_shiftLeft,
    BitVec.getLsbD_setWidth, hi]
  grind

theorem word_extractLsb' (x : BitVec w) :
    word (x.extractLsb' 24 8) (x.extractLsb' 16 8) (x.extractLsb' 8 8) (x.extractLsb' 0 8) =
      x.setWidth 32 := by
  rw [word_eq_append]
  apply BitVec.eq_of_getLsbD_eq
  intro i hi
  simp only [BitVec.getLsbD_append, BitVec.getLsbD_extractLsb', BitVec.getLsbD_setWidth]
  grind

theorem extractLsb'_word (a b c d : Byte) {x : BitVec w} (hx : x.setWidth 32 = word a b c d) :
    x.extractLsb' 24 8 = a ∧ x.extractLsb' 16 8 = b ∧ x.extractLsb' 8 8 = c ∧
      x.extractLsb' 0 8 = d := by
  have hbit (i : ℕ) (hi : i < 32) : x.getLsbD i = (a ++ b ++ c ++ d).getLsbD i := by
    rw [← word_eq_append, ← hx, BitVec.getLsbD_setWidth, decide_eq_true hi, Bool.true_and]
  refine ⟨?_, ?_, ?_, ?_⟩ <;> apply BitVec.eq_of_getLsbD_eq <;> intro i hi <;>
    rw [BitVec.getLsbD_extractLsb', hbit _ (by omega)] <;>
    simp only [BitVec.getLsbD_append] <;> grind

theorem getLsbD_portOf (high low : Byte) (hi : i < 32) :
    (portOf high low).getLsbD i = (high ++ low).getLsbD i := by
  have hhigh : ∀ j < 32, 8 ≤ j → j < 16 → (0x0000FF00 : BitVec 32).getLsbD j = true := by decide
  have hlow : ∀ j < 32, j < 8 → (0x000000FF : BitVec 32).getLsbD j = true := by decide
  have hhigh' := hhigh i hi
  have hlow' := hlow i hi
  simp only [portOf, BitVec.getLsbD_append, BitVec.getLsbD_or, BitVec.getLsbD_and,
    BitVec.getLsbD_shiftLeft, BitVec.getLsbD_setWidth, hi]
  grind

end Bits

/-! ## Writing and reading a socket address -/

theorem portOf_le (high low : Byte) : (portOf high low).toNat ≤ 65535 := by
  have heq : portOf high low = (high ++ low).setWidth 32 := by
    apply BitVec.eq_of_getLsbD_eq
    intro i hi
    rw [getLsbD_portOf high low hi, BitVec.getLsbD_setWidth, decide_eq_true hi, Bool.true_and]
  have hlt := (high ++ low).isLt
  rw [heq, BitVec.toNat_setWidth, Nat.mod_eq_of_lt (by omega)]
  omega

def IPv6EndPoint.serialize (ep : IPv6EndPoint) : SocketAddress where
  bytes i :=
    match i.val with
    | 0 => byteOf interNetworkV6
    | 1 => byteOf (interNetworkV6.sshiftRight 8)
    | 2 => byteOf (ep.port.sshiftRight 8)
    | 3 => byteOf ep.port
    | 4 => byteOf (ep.flowInformation.sshiftRight 24)
    | 5 => byteOf (ep.flowInformation.sshiftRight 16)
    | 6 => byteOf (ep.flowInformation.sshiftRight 8)
    | 7 => byteOf ep.flowInformation
    | 24 => byteOf ep.address.scopeIdentifier
    | 25 => byteOf (ep.address.scopeIdentifier >>> 8)
    | 26 => byteOf (ep.address.scopeIdentifier >>> 16)
    | 27 => byteOf (ep.address.scopeIdentifier >>> 24)
    | n => ep.address.address (Fin.ofNat 16 (n - 8))
  family_low := rfl
  family_high := rfl

def create (sa : SocketAddress) : IPv6EndPoint where
  port := portOf (sa.bytes 2) (sa.bytes 3)
  address := {
    address := fun i => sa.bytes (Fin.ofNat 28 (8 + i.val))
    scopeIdentifier := word (sa.bytes 27) (sa.bytes 26) (sa.bytes 25) (sa.bytes 24) }
  flowInformation :=
    (word (sa.bytes 4) (sa.bytes 5) (sa.bytes 6) (sa.bytes 7)).signExtend 64
  port_le := portOf_le (sa.bytes 2) (sa.bytes 3)

/-! ## Round trips -/

section RoundTrips
variable {w : ℕ}

theorem serialize_address (ep : IPv6EndPoint) (i : Fin 16) :
    ep.serialize.bytes (Fin.ofNat 28 (8 + i.val)) = ep.address.address i := by
  fin_cases i <;> rfl

theorem portOf_byteOf {port : BitVec 32} (hport : port.toNat ≤ 65535) :
    portOf (byteOf (port.sshiftRight 8)) (byteOf port) = port := by
  have hhigh (i : ℕ) (hi : 16 ≤ i) : port.getLsbD i = false := by
    have hlt : port.toNat < 2 ^ 16 := by omega
    exact Nat.testBit_lt_two_pow (hlt.trans_le (Nat.pow_le_pow_right (by decide) hi))
  rw [byteOf_sshiftRight port (by decide), byteOf_eq port (by decide)]
  apply BitVec.eq_of_getLsbD_eq
  intro i hi
  rw [getLsbD_portOf _ _ hi]
  simp only [BitVec.getLsbD_append, BitVec.getLsbD_extractLsb']
  grind

theorem word_byteOf_sshiftRight (x : BitVec w) (hw : 32 ≤ w) :
    word (byteOf (x.sshiftRight 24)) (byteOf (x.sshiftRight 16)) (byteOf (x.sshiftRight 8))
      (byteOf x) = x.setWidth 32 := by
  rw [byteOf_sshiftRight x (by omega), byteOf_sshiftRight x (by omega),
    byteOf_sshiftRight x (by omega), byteOf_eq x (by omega), word_extractLsb']

theorem word_byteOf_ushiftRight (x : BitVec 32) :
    word (byteOf (x >>> 24)) (byteOf (x >>> 16)) (byteOf (x >>> 8)) (byteOf x) = x := by
  rw [byteOf_ushiftRight x (by decide), byteOf_ushiftRight x (by decide),
    byteOf_ushiftRight x (by decide), byteOf_eq x (by decide), word_extractLsb', BitVec.setWidth_eq]

theorem create_serialize (ep : IPv6EndPoint) : create ep.serialize =
      { ep with flowInformation := (ep.flowInformation.setWidth 32).signExtend 64 } := by
  have hport : portOf (ep.serialize.bytes 2) (ep.serialize.bytes 3) = ep.port :=
    portOf_byteOf ep.port_le
  have haddress : (fun i : Fin 16 => ep.serialize.bytes (Fin.ofNat 28 (8 + i.val))) =
      ep.address.address := funext (serialize_address ep)
  have hscope : word (ep.serialize.bytes 27) (ep.serialize.bytes 26) (ep.serialize.bytes 25)
      (ep.serialize.bytes 24) = ep.address.scopeIdentifier :=
    word_byteOf_ushiftRight ep.address.scopeIdentifier
  have hflow : word (ep.serialize.bytes 4) (ep.serialize.bytes 5) (ep.serialize.bytes 6)
      (ep.serialize.bytes 7) = ep.flowInformation.setWidth 32 :=
    word_byteOf_sshiftRight ep.flowInformation (by decide)
  simp only [create, hport, haddress, hscope, hflow]

theorem byteOf_portOf (high low : Byte) :
    byteOf ((portOf high low).sshiftRight 8) = high ∧ byteOf (portOf high low) = low := by
  rw [byteOf_sshiftRight _ (by decide), byteOf_eq _ (by decide)]
  constructor <;> apply BitVec.eq_of_getLsbD_eq <;> intro i hi <;>
    rw [BitVec.getLsbD_extractLsb', getLsbD_portOf _ _ (by omega)] <;>
    simp only [BitVec.getLsbD_append] <;> grind

theorem byteOf_word (a b c d : Byte) {x : BitVec w} (hw : 32 ≤ w)
    (hx : x.setWidth 32 = word a b c d) :
    byteOf (x.sshiftRight 24) = a ∧ byteOf (x.sshiftRight 16) = b ∧
      byteOf (x.sshiftRight 8) = c ∧ byteOf x = d := by
  rw [byteOf_sshiftRight x (by omega), byteOf_sshiftRight x (by omega),
    byteOf_sshiftRight x (by omega), byteOf_eq x (by omega)]
  exact extractLsb'_word a b c d hx

theorem setWidth_signExtend (x : BitVec 32) : (x.signExtend 64).setWidth 32 = x := by
  apply BitVec.eq_of_getLsbD_eq
  intro i hi
  have hlt : i < 64 := by omega
  rw [BitVec.getLsbD_setWidth, BitVec.getLsbD_signExtend]
  simp [hi, hlt]

theorem serialize_create (sa : SocketAddress) : (create sa).serialize = sa := by
  obtain ⟨hhigh, hlow⟩ := byteOf_portOf (sa.bytes 2) (sa.bytes 3)
  have hflow : ((word (sa.bytes 4) (sa.bytes 5) (sa.bytes 6) (sa.bytes 7)).signExtend 64).setWidth
      32 = word (sa.bytes 4) (sa.bytes 5) (sa.bytes 6) (sa.bytes 7) := setWidth_signExtend _
  obtain ⟨h4, h5, h6, h7⟩ := byteOf_word _ _ _ _ (by decide) hflow
  obtain ⟨h27, h26, h25, h24⟩ := extractLsb'_word (sa.bytes 27) (sa.bytes 26) (sa.bytes 25)
    (sa.bytes 24) (BitVec.setWidth_eq (word _ _ _ _))
  rw [← byteOf_ushiftRight _ (by decide)] at h27 h26 h25
  rw [← byteOf_eq _ (by decide)] at h24
  apply SocketAddress.ext
  funext i
  fin_cases i
  exacts [sa.family_low.symm, sa.family_high.symm, hhigh, hlow, h4, h5, h6, h7, rfl, rfl, rfl, rfl,
    rfl, rfl, rfl, rfl, rfl, rfl, rfl, rfl, rfl, rfl, rfl, rfl, h24, h25, h26, h27]

theorem signExtend_eq_setWidth_iff (x : BitVec 32) :
    x.signExtend 64 = x.setWidth 64 ↔ x.toNat < 2 ^ 31 := by
  have hmsb : x.msb = false ↔ x.toNat < 2 ^ 31 := by
    rw [BitVec.msb_eq_false_iff_two_mul_lt]
    omega
  rw [← hmsb]
  constructor
  · intro h
    have hbit : (x.signExtend 64).getLsbD 63 = (x.setWidth 64).getLsbD 63 := by rw [h]
    rw [BitVec.getLsbD_signExtend, BitVec.getLsbD_setWidth] at hbit
    simpa using hbit
  · exact BitVec.signExtend_eq_setWidth_of_msb_false

end RoundTrips

/-- An end point whose flow information has 32 bits. -/
def endPoint (port : Fin 65536) (address : Fin 16 → Byte) (scope flow : BitVec 32) :
    IPv6EndPoint where
  port := BitVec.ofNat 32 port
  address := { address, scopeIdentifier := scope }
  flowInformation := flow.setWidth 64
  port_le := by
    rw [BitVec.toNat_ofNat]
    omega

/-- An end point comes back from its socket address if and only if its flow information fits
the positive half of an `int`; a socket address always does. -/
theorem round_trips_iff (port : Fin 65536) (address : Fin 16 → Byte) (scope flow : BitVec 32)
    (sa : SocketAddress) :
    (create (endPoint port address scope flow).serialize = endPoint port address scope flow ↔
        flow.toNat < 2 ^ 31) ∧
      (create sa).serialize = sa := by
  refine ⟨?_, serialize_create sa⟩
  rw [create_serialize, ← signExtend_eq_setWidth_iff]
  simp [endPoint]

/-- Flow information with the highest bit set comes back negative. -/
theorem flow_comes_back_negative :
    ¬ ∀ port address scope flow, create (endPoint port address scope flow).serialize =
      endPoint port address scope flow := by
  intro h
  have hflow := congrArg IPv6EndPoint.flowInformation (h 80 (fun _ => 0) 0 0x80000000)
  revert hflow
  decide

end MiscProjects.TcpServer
