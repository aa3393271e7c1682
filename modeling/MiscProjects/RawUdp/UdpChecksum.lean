import MiscProjects.RawUdp.Ipv4

/-!
# The UDP checksum

A receiver adds up the pseudo header, the UDP header with the checksum in it and the
payload, padded to words, in network byte order.  The checksum is computed over a copy
in which the field is zero.
-/

namespace MiscProjects.RawUdp

open OnesComplement

/-- The addresses and ports of a datagram, and for IPv4 the protocol that its header names. -/
inductive Endpoints
  | v4 (src dest : SockAddrIn) (gProtocol : UInt8)
  | v6 (src dest : SockAddrIn6)

namespace Endpoints
variable (e : Endpoints) (payload : List UInt8)

/-- The UDP header before its checksum is known. -/
def initUdpHeader : List UInt8 :=
  match e with
  | v4 src dest _ => initUdpHeaderV4 src dest payload.length
  | v6 src dest => RawUdp.initUdpHeader src dest payload.length

/-- The UDP header that is sent. -/
def udpHeader : Option (List UInt8) :=
  match e with
  | v4 src dest gProtocol =>
      computeUdpPseudoHeaderChecksumV4
        (initIpv4Header src dest defaultTtl gProtocol payload.length)
        (initUdpHeaderV4 src dest payload.length) payload
  | v6 src dest =>
      computeUdpPseudoHeaderChecksumV6
        (initIpv6Header src dest defaultTtl ipprotoUdp (payload.length + sizeofUdpHdr))
        (RawUdp.initUdpHeader src dest payload.length) payload

/-- The pseudo header of a receiver. -/
def pseudoHeader : List UInt8 :=
  match e with
  | v4 src dest gProtocol =>
      src.sinAddr ++ dest.sinAddr ++ [0, gProtocol] ++ htons (sizeofUdpHdr + payload.length)
  | v6 src dest =>
      src.sin6Addr ++ dest.sin6Addr ++ htonl (sizeofUdpHdr + payload.length) ++
        [0, 0, 0, ipprotoUdp]

/-- What a receiver adds up. -/
def covered (udphdr : List UInt8) : List UInt8 :=
  e.pseudoHeader payload ++ udphdr ++ payload ++ List.replicate (payload.length % 2) 0

/-- The checksum is computed inside the buffer, it is not sent as `0`, and a receiver gets
all ones. -/
def Verifies : Prop :=
  ∃ udphdr, e.udpHeader payload = some udphdr ∧
    sum 16 (bigWords (e.covered payload udphdr)) = ones 16 ∧ udphdr.drop 6 ≠ [0, 0]

/-- The words of a datagram without its checksum. -/
def words : List ℕ := bigWords (e.covered payload (e.initUdpHeader payload))

/-- For IPv6 the pseudo header takes more of the buffer than the IPv4 header of the packet. -/
def FitsBuffer : Prop :=
  match e with
  | v4 _ _ _ => True
  | v6 _ _ => payload.length ≤ 65486

end Endpoints

section Verifies
variable {e : Endpoints} {payload : List UInt8}

theorem length_pseudoHeader_even (e : Endpoints) (payload : List UInt8) :
    2 ∣ (e.pseudoHeader payload).length := by
  cases e with
  | v4 src dest gProtocol =>
      simp only [Endpoints.pseudoHeader, htons, List.length_append, src.length_sinAddr,
        dest.length_sinAddr, List.length_cons, List.length_nil]
      decide
  | v6 src dest =>
      simp only [Endpoints.pseudoHeader, htonl, List.length_append, src.length_sin6Addr,
        dest.length_sin6Addr, List.length_cons, List.length_nil]
      decide

theorem pseudoHeaderV6_eq (src dest : SockAddrIn6) (ttl proto : UInt8) (n : ℕ)
    (payload : List UInt8) : pseudoHeaderV6 (initIpv6Header src dest ttl proto n)
        (initUdpHeader src dest payload.length) payload =
      (Endpoints.v6 src dest).covered payload (initUdpHeader src dest payload.length) := by
  have haddresses : (initIpv6Header src dest ttl proto n).drop 8 =
      src.sin6Addr ++ dest.sin6Addr := by
    rw [initIpv6Header, List.append_assoc]
    rfl
  have hsrc : ((initIpv6Header src dest ttl proto n).drop 8).take 16 = src.sin6Addr := by
    rw [haddresses, List.take_left' src.length_sin6Addr]
  have hdest : ((initIpv6Header src dest ttl proto n).drop 24).take 16 = dest.sin6Addr := by
    rw [show 24 = 8 + 16 from rfl, ← List.drop_drop, haddresses,
      List.drop_left' src.length_sin6Addr, List.take_of_length_le dest.length_sin6Addr.le]
  have hudp : (initUdpHeader src dest payload.length).take 6 ++ [0, 0] =
      initUdpHeader src dest payload.length := rfl
  rw [pseudoHeaderV6, hsrc, hdest, Endpoints.covered, Endpoints.pseudoHeader, Nat.add_comm]
  conv_rhs => rw [← hudp]
  simp only [List.append_assoc, List.cons_append, List.nil_append]

theorem pseudoHeaderV4_eq_covered (src dest : SockAddrIn) (ttl proto : UInt8)
    (payload : List UInt8) : pseudoHeaderV4 (initIpv4Header src dest ttl proto payload.length)
        (initUdpHeaderV4 src dest payload.length) payload =
      (Endpoints.v4 src dest proto).covered payload (initUdpHeaderV4 src dest payload.length) := by
  have hudp : (initUdpHeaderV4 src dest payload.length).take 6 ++ [0, 0] =
      initUdpHeaderV4 src dest payload.length := rfl
  rw [pseudoHeaderV4_eq, Endpoints.covered, Endpoints.pseudoHeader]
  conv_rhs => rw [← hudp]
  simp only [List.append_assoc, List.cons_append, List.nil_append]

theorem length_covered_v6 (src dest : SockAddrIn6) (payload : List UInt8) :
    ((Endpoints.v6 src dest).covered payload (initUdpHeader src dest payload.length)).length =
      48 + payload.length + payload.length % 2 := by
  rw [← pseudoHeaderV6_eq src dest defaultTtl ipprotoUdp 0, length_pseudoHeaderV6]

theorem length_covered_v4 (src dest : SockAddrIn) (proto : UInt8) (payload : List UInt8) :
    ((Endpoints.v4 src dest proto).covered payload
      (initUdpHeaderV4 src dest payload.length)).length =
      20 + payload.length + payload.length % 2 := by
  rw [← pseudoHeaderV4_eq_covered src dest defaultTtl proto, length_pseudoHeaderV4]

theorem udpHeader_of_fits (hlength : payload.length ≤ 65507) (hfits : e.FitsBuffer payload) :
    e.udpHeader payload = some ((e.initUdpHeader payload).take 6 ++
      ushortBytes (checksum (e.covered payload (e.initUdpHeader payload)))) ∧
    (e.covered payload (e.initUdpHeader payload)).length ≤ maxPacket := by
  cases e with
  | v4 src dest gProtocol =>
      have hcovered := length_covered_v4 src dest gProtocol payload
      have hle : ((Endpoints.v4 src dest gProtocol).covered payload
          (initUdpHeaderV4 src dest payload.length)).length ≤ maxPacket := by
        rw [hcovered, maxPacket]
        omega
      refine ⟨?_, hle⟩
      rw [Endpoints.udpHeader, computeUdpPseudoHeaderChecksumV4, pseudoHeaderV4_eq_covered]
      exact if_pos hle
  | v6 src dest =>
      have hcovered := length_covered_v6 src dest payload
      change payload.length ≤ 65486 at hfits
      have hle : ((Endpoints.v6 src dest).covered payload
          (initUdpHeader src dest payload.length)).length ≤ maxPacket := by
        rw [hcovered, maxPacket]
        omega
      refine ⟨?_, hle⟩
      rw [Endpoints.udpHeader, computeUdpPseudoHeaderChecksumV6, pseudoHeaderV6_eq]
      exact if_pos hle

theorem fits_of_udpHeader (h : e.udpHeader payload ≠ none) : e.FitsBuffer payload := by
  cases e with
  | v4 => trivial
  | v6 src dest =>
      rw [Endpoints.udpHeader, Ne, computeUdpPseudoHeaderChecksumV6_eq_none_iff, maxPacket] at h
      change payload.length ≤ 65486
      omega

theorem initUdpHeader_eq (e : Endpoints) (payload : List UInt8) :
    e.initUdpHeader payload = (e.initUdpHeader payload).take 6 ++ [0, 0] ∧
      ((e.initUdpHeader payload).take 6).length = 6 := by
  cases e with
  | v4 => exact ⟨rfl, rfl⟩
  | v6 => exact ⟨rfl, rfl⟩

theorem covered_eq_storeUshort (e : Endpoints) (payload : List UInt8) (cksum : ℕ) :
    e.covered payload ((e.initUdpHeader payload).take 6 ++ ushortBytes cksum) =
      storeUshort (e.covered payload (e.initUdpHeader payload))
        ((e.pseudoHeader payload).length + 6) cksum ∧
    ((e.covered payload (e.initUdpHeader payload)).drop
      ((e.pseudoHeader payload).length + 6)).take 2 = [0, 0] := by
  obtain ⟨hzero, hsix⟩ := initUdpHeader_eq e payload
  have hbefore : (e.pseudoHeader payload ++ (e.initUdpHeader payload).take 6).length =
      (e.pseudoHeader payload).length + 6 := by
    rw [List.length_append, hsix]
  have hcopy : e.covered payload (e.initUdpHeader payload) =
      e.pseudoHeader payload ++ (e.initUdpHeader payload).take 6 ++
        ([0, 0] ++ (payload ++ List.replicate (payload.length % 2) 0)) := by
    rw [Endpoints.covered]
    conv_lhs => rw [hzero]
    simp only [List.append_assoc]
  constructor
  · rw [storeUshort, hcopy, List.take_left' hbefore, ← List.drop_drop, List.drop_left' hbefore,
      List.drop_left' (by rfl), Endpoints.covered]
    simp only [List.append_assoc]
  · rw [hcopy, List.drop_left' hbefore, List.take_left' (by rfl)]

theorem sum_covered (hlength : payload.length ≤ 65507) (hfits : e.FitsBuffer payload) :
    sum 16 (bigWords (e.covered payload ((e.initUdpHeader payload).take 6 ++
      ushortBytes (checksum (e.covered payload (e.initUdpHeader payload)))))) = ones 16 := by
  obtain ⟨hstore, hzero⟩ := covered_eq_storeUshort e payload
    (checksum (e.covered payload (e.initUdpHeader payload)))
  have heven : 2 ∣ (e.pseudoHeader payload).length + 6 :=
    Nat.dvd_add (length_pseudoHeader_even e payload) (by decide)
  rw [sum_bigWords_eq_ones_iff, hstore]
  exact sum_storeUshort_checksum (Nat.le_succ_of_le (udpHeader_of_fits hlength hfits).2) heven hzero

theorem sum_words_pos (e : Endpoints) (hlength : payload.length ≤ 65507) :
    0 < (e.words payload).sum := by
  rw [Nat.pos_iff_ne_zero, Ne, Endpoints.words, sum_bigWords_eq_zero_iff]
  intro hzero
  have hfield : ∀ b ∈ htons (sizeofUdpHdr + payload.length), b = 0 := by
    intro b hb
    refine hzero b ?_
    rw [Endpoints.covered]
    refine List.mem_append_left _ (List.mem_append_left _ (List.mem_append_right _ ?_))
    cases e with
    | v4 | v6 => exact List.mem_append_left _ (List.mem_append_right _ hb)
  simp only [htons, sizeofUdpHdr, List.forall_mem_cons, ← UInt8.toNat_inj, UInt8.toNat_ofNat',
    UInt8.toNat_zero] at hfield
  omega

theorem checksum_ne_zero_iff (hlength : payload.length ≤ 65507) (hfits : e.FitsBuffer payload) :
    ushortBytes (checksum (e.covered payload (e.initUdpHeader payload))) ≠ [0, 0] ↔
      ¬ ones 16 ∣ (e.words payload).sum := by
  have hroom := Nat.le_succ_of_le (udpHeader_of_fits hlength hfits).2
  have hle : residue 16 (littleWords (e.covered payload (e.initUdpHeader payload))).sum ≤ ones 16 :=
    residue_le (by decide)
  have hbytes : ushortBytes (checksum (e.covered payload (e.initUdpHeader payload))) = [0, 0] ↔
      residue 16 (littleWords (e.covered payload (e.initUdpHeader payload))).sum = ones 16 := by
    rw [checksum_eq hroom]
    simp only [ushortBytes, List.cons.injEq, and_true, ← UInt8.toNat_inj, UInt8.toNat_ofNat',
      UInt8.toNat_zero]
    rw [ones] at hle ⊢
    omega
  have hwords : residue 16 (littleWords (e.covered payload (e.initUdpHeader payload))).sum =
      ones 16 ↔ 0 < (e.words payload).sum ∧ ones 16 ∣ (e.words payload).sum := by
    rw [← sum_eq_residue (by decide) littleWords_le, ← sum_bigWords_eq_ones_iff,
      sum_eq_residue (by decide) bigWords_le, residue_eq_ones_iff (by decide)]
    rfl
  rw [Ne, hbytes, hwords]
  exact not_congr (and_iff_right (sum_words_pos e hlength))

/-- For all addresses and ports and every payload that IPv4 can carry: the checksum verifies
and is not sent as `0` exactly if the words of the datagram do not add up to a multiple of
`0xFFFF` and, for IPv6, the copy fits the buffer. -/
theorem verifies_iff (hlength : payload.length ≤ 65507) :
    e.Verifies payload ↔ ¬ ones 16 ∣ (e.words payload).sum ∧ e.FitsBuffer payload := by
  constructor
  · rintro ⟨udphdr, hudp, -, hsent⟩
    have hfits : e.FitsBuffer payload :=
      fits_of_udpHeader (by rw [hudp]; exact Option.some_ne_none _)
    obtain ⟨hheader, -⟩ := udpHeader_of_fits hlength hfits
    obtain rfl := Option.some.inj (hudp.symm.trans hheader)
    rw [List.drop_left' (initUdpHeader_eq e payload).2] at hsent
    exact ⟨(checksum_ne_zero_iff hlength hfits).mp hsent, hfits⟩
  · rintro ⟨hdvd, hfits⟩
    refine ⟨_, (udpHeader_of_fits hlength hfits).1, sum_covered hlength hfits, ?_⟩
    rw [List.drop_left' (initUdpHeader_eq e payload).2]
    exact (checksum_ne_zero_iff hlength hfits).mpr hdvd

/-- Two ports of one host. -/
def neighbours : Endpoints := .v4 (localhost (20, 30)) (localhost (20, 31)) ipprotoUdp

theorem verifies_iff_letter :
    neighbours.Verifies [65] ↔
      ¬ ones 16 ∣ (neighbours.words [65]).sum ∧ neighbours.FitsBuffer [65] :=
  verifies_iff (by decide)

/-- The words of this datagram add up to `0x1FFFE`. -/
theorem not_verifies_all_ones :
    ¬ ∀ e payload, payload.length ≤ 65507 → Endpoints.Verifies e payload := by
  intro h
  obtain ⟨udphdr, hudp, -, hsent⟩ := h neighbours [0xD9, 0x9A] (by decide)
  have hheader : neighbours.udpHeader [0xD9, 0x9A] = some [20, 30, 20, 31, 0, 10, 0, 0] := by
    decide
  rw [hheader] at hudp
  obtain rfl := Option.some.inj hudp
  exact hsent rfl

end Verifies

end MiscProjects.RawUdp
