import MiscProjects.Library.Loops
import MiscProjects.RawUdp.Fragmentation

/-!
# The rounds of `PacketizeIpv6`

What a round does depends on the MTU and on how much of the payload is left, not on the
bytes.  Each takes `datalen` bytes, and the loop ends when nothing is left.  Here the
packets are not kept in an array.
-/

namespace MiscProjects.RawUdp

open MiscProjects.Loops

/-- The variables at the head of the loop. -/
structure Round where
  payloadlen : ℤ
  offset : ℤ
  numpackets : ℕ
deriving DecidableEq

def Round.layout (gMtuSize : ℤ) (r : Round) : Layout :=
  RawUdp.layout gMtuSize r.payloadlen r.numpackets

def Round.next (gMtuSize : ℤ) (r : Round) : Round where
  payloadlen := r.payloadlen - (r.layout gMtuSize).datalen
  offset := r.offset + (r.layout gMtuSize).datalen
  numpackets := r.numpackets + 1

/-- The `n`-th round, as if the loop did not end before. -/
def round (gMtuSize payloadlen : ℤ) : ℕ → Round :=
  rounds (Round.next gMtuSize) ⟨payloadlen, 0, 0⟩

def datalen (gMtuSize payloadlen : ℤ) (n : ℕ) : ℤ :=
  ((round gMtuSize payloadlen n).layout gMtuSize).datalen

/-- `Packets[n].len`. -/
def packetLen (gMtuSize payloadlen : ℤ) (n : ℕ) : ℤ :=
  ((round gMtuSize payloadlen n).layout gMtuSize).hdrlen + datalen gMtuSize payloadlen n

/-- The `n`-th round is the last. -/
abbrev LastRound (gMtuSize payloadlen : ℤ) (n : ℕ) : Prop :=
  EndsBehind (Round.next gMtuSize) (0 < ·.payloadlen) ⟨payloadlen, 0, 0⟩ n

/-- No packet is longer than the MTU, and the packets and the end marker fit the array. -/
def WithinLimits (gMtuSize payloadlen : ℤ) : Prop :=
  ∃ n, LastRound gMtuSize payloadlen n ∧ (∀ i ≤ n, packetLen gMtuSize payloadlen i ≤ gMtuSize) ∧
    n + 2 ≤ maxPacketFragments

/-- Every round but the last makes progress, and none has a negative length of data. -/
def RoundsEnd (gMtuSize payloadlen : ℤ) : Prop :=
  ∃ n, LastRound gMtuSize payloadlen n ∧
    ∀ i ≤ n, 0 ≤ datalen gMtuSize payloadlen i ∧ (i < n → 0 < datalen gMtuSize payloadlen i)

/-- There is room for the headers of a single packet; or a longer payload leaves to the last
packet what goes into it, and the packets do not become too many. -/
def PacketsFit (gMtuSize payloadlen : ℤ) : Prop :=
  payloadlen + 48 ≤ gMtuSize ∨
    gMtuSize < payloadlen ∧
      (payloadlen + 7 - gMtuSize) % (gMtuSize - 48) + 97 ≤ gMtuSize ∧
      (payloadlen + 7 - gMtuSize) / (gMtuSize - 48) ≤ 41

section Rounds
variable {gMtuSize payloadlen : ℤ} {i m n p : ℕ}

theorem round_succ (n : ℕ) :
    round gMtuSize payloadlen (n + 1) = (round gMtuSize payloadlen n).next gMtuSize := rfl

theorem lastRound_iff : LastRound gMtuSize payloadlen n ↔
      (∀ i < n, 0 < (round gMtuSize payloadlen (i + 1)).payloadlen) ∧
        (round gMtuSize payloadlen (n + 1)).payloadlen ≤ 0 :=
  ⟨fun h => ⟨h.goesOn, Int.not_lt.mp h.ends⟩, fun h => ⟨h.1, Int.not_lt.mpr h.2⟩⟩

/-! ## A payload that needs no fragments -/

theorem layout_short (hshort : payloadlen ≤ gMtuSize) :
    layout gMtuSize payloadlen 0 = ⟨48, payloadlen, 8, false, false⟩ := by
  rw [layout, if_neg (by omega), if_neg (by omega), if_pos rfl]
  rfl

theorem datalen_short (hshort : payloadlen ≤ gMtuSize) :
    datalen gMtuSize payloadlen 0 = payloadlen := by
  change (layout gMtuSize payloadlen 0).datalen = payloadlen
  rw [layout_short hshort]

theorem packetLen_short (hshort : payloadlen ≤ gMtuSize) :
    packetLen gMtuSize payloadlen 0 = payloadlen + 48 := by
  have hhdrlen : ((round gMtuSize payloadlen 0).layout gMtuSize).hdrlen = 48 := by
    change (layout gMtuSize payloadlen 0).hdrlen = 48
    rw [layout_short hshort]
  rw [packetLen, hhdrlen, datalen_short hshort, Int.add_comm]

theorem lastRound_short (hshort : payloadlen ≤ gMtuSize) : LastRound gMtuSize payloadlen 0 := by
  refine lastRound_iff.mpr ⟨fun i hi => absurd hi (Nat.not_lt_zero i), ?_⟩
  change payloadlen - datalen gMtuSize payloadlen 0 ≤ 0
  refine Int.le_of_eq ?_
  rw [datalen_short hshort, Int.sub_self]

/-! ## A longer one -/

theorem layout_first (hlong : gMtuSize < payloadlen) :
    layout gMtuSize payloadlen 0 = ⟨56, gMtuSize - 56, 16, true, false⟩ := by
  rw [layout, if_pos ⟨hlong, rfl⟩]
  rfl

theorem layout_middle (hlong : gMtuSize < payloadlen) :
    layout gMtuSize payloadlen (n + 1) = ⟨48, gMtuSize - 48, 8, true, false⟩ := by
  rw [layout, if_neg (by omega), if_pos ⟨hlong, Nat.succ_pos n⟩]
  rfl

theorem layout_last (hshort : payloadlen ≤ gMtuSize) :
    layout gMtuSize payloadlen (n + 1) = ⟨48, payloadlen, 8, true, true⟩ := by
  rw [layout, if_neg (by omega), if_neg (by omega), if_neg (Nat.succ_ne_zero n)]
  rfl

theorem numpackets_round (n : ℕ) : (round gMtuSize payloadlen n).numpackets = n := by
  induction n with
  | zero => rfl
  | succ n ih => exact congrArg (· + 1) ih

theorem layout_round (n : ℕ) : (round gMtuSize payloadlen n).layout gMtuSize =
      layout gMtuSize (round gMtuSize payloadlen n).payloadlen n := by
  rw [Round.layout, numpackets_round]

theorem payloadlen_succ (n : ℕ) : (round gMtuSize payloadlen (n + 1)).payloadlen =
      (round gMtuSize payloadlen n).payloadlen - datalen gMtuSize payloadlen n := rfl

theorem datalen_first (hlong : gMtuSize < payloadlen) :
    datalen gMtuSize payloadlen 0 = gMtuSize - 56 := by
  rw [datalen, layout_round]
  exact congrArg Layout.datalen (layout_first hlong)

/-- How many packets go between the first and the last. -/
def middles (gMtuSize payloadlen : ℤ) : ℤ := (payloadlen + 7 - gMtuSize) / (gMtuSize - 48)

/-- What is left behind the first packet and `i` packets in the middle. -/
def remaining (gMtuSize payloadlen : ℤ) (i : ℕ) : ℤ :=
  payloadlen + 56 - gMtuSize - i * (gMtuSize - 48)

theorem lt_middles_iff (hmtu : 48 < gMtuSize) :
    i < middles gMtuSize payloadlen ↔ gMtuSize < remaining gMtuSize payloadlen i := by
  rw [middles, remaining, ← Int.add_one_le_iff, Int.le_ediv_iff_mul_le (by omega), Int.add_mul]
  omega

theorem payloadlen_middle (hmtu : 48 < gMtuSize) (hlong : gMtuSize < payloadlen)
    (hi : i ≤ middles gMtuSize payloadlen) :
    (round gMtuSize payloadlen (i + 1)).payloadlen = remaining gMtuSize payloadlen i := by
  induction i with
  | zero =>
      rw [payloadlen_succ, datalen_first hlong, remaining]
      change payloadlen - (gMtuSize - 56) = _
      omega
  | succ i ih =>
      have hlt : i < middles gMtuSize payloadlen := by omega
      have hpayloadlen := ih (Int.le_of_lt hlt)
      have hlayout : (round gMtuSize payloadlen (i + 1)).layout gMtuSize =
          ⟨48, gMtuSize - 48, 8, true, false⟩ := by
        rw [layout_round, hpayloadlen, layout_middle ((lt_middles_iff hmtu).mp hlt)]
      rw [payloadlen_succ, datalen, hlayout, hpayloadlen, remaining, remaining]
      push_cast
      rw [Int.add_mul]
      omega

theorem layout_round_middle (hmtu : 48 < gMtuSize) (hlong : gMtuSize < payloadlen)
    (hi : i < middles gMtuSize payloadlen) : (round gMtuSize payloadlen (i + 1)).layout gMtuSize =
      ⟨48, gMtuSize - 48, 8, true, false⟩ := by
  rw [layout_round, payloadlen_middle hmtu hlong (Int.le_of_lt hi),
    layout_middle ((lt_middles_iff hmtu).mp hi)]

theorem middles_nonneg (hmtu : 48 < gMtuSize) (hlong : gMtuSize < payloadlen) :
    0 ≤ middles gMtuSize payloadlen :=
  Int.ediv_nonneg (by omega) (by omega)

theorem remaining_middles (hq : (n : ℤ) = middles gMtuSize payloadlen) :
    remaining gMtuSize payloadlen n = (payloadlen + 7 - gMtuSize) % (gMtuSize - 48) + 49 := by
  have hdiv := Int.emod_add_mul_ediv (payloadlen + 7 - gMtuSize) (gMtuSize - 48)
  rw [remaining, hq, middles, Int.mul_comm]
  omega

theorem layout_round_last (hmtu : 48 < gMtuSize) (hlong : gMtuSize < payloadlen)
    (hq : (n : ℤ) = middles gMtuSize payloadlen) :
    (round gMtuSize payloadlen (n + 1)).layout gMtuSize =
      ⟨48, (payloadlen + 7 - gMtuSize) % (gMtuSize - 48) + 49, 8, true, true⟩ := by
  have hshort : remaining gMtuSize payloadlen n ≤ gMtuSize :=
    Int.not_lt.mp (fun hlt => absurd ((lt_middles_iff hmtu).mpr hlt) (by omega))
  rw [layout_round, payloadlen_middle hmtu hlong (Int.le_of_eq hq), layout_last hshort,
    remaining_middles hq]

theorem lastRound_long (hmtu : 48 < gMtuSize) (hlong : gMtuSize < payloadlen)
    (hq : (n : ℤ) = middles gMtuSize payloadlen) : LastRound gMtuSize payloadlen (n + 1) := by
  refine lastRound_iff.mpr ⟨?_, ?_⟩
  · intro i hi
    rw [payloadlen_middle hmtu hlong (by omega)]
    rcases Nat.lt_or_ge i n with hlt | hge
    · have hmore : gMtuSize < remaining gMtuSize payloadlen i := (lt_middles_iff hmtu).mp (by omega)
      omega
    · obtain rfl : i = n := by omega
      rw [remaining_middles hq]
      have hmod : 0 ≤ (payloadlen + 7 - gMtuSize) % (gMtuSize - 48) := Int.emod_nonneg _ (by omega)
      omega
  · have hlayout := layout_round_last hmtu hlong hq
    refine Int.le_of_eq ?_
    rw [payloadlen_succ, datalen, hlayout, payloadlen_middle hmtu hlong (Int.le_of_eq hq),
      remaining_middles hq, Int.sub_self]

theorem layout_cases (hmtu : 48 < gMtuSize) (hlong : gMtuSize < payloadlen)
    (hq : (n : ℤ) = middles gMtuSize payloadlen) (hi : i ≤ n + 1) :
    i = 0 ∧ (round gMtuSize payloadlen i).layout gMtuSize = ⟨56, gMtuSize - 56, 16, true, false⟩ ∨
      i < n + 1 ∧ (round gMtuSize payloadlen i).layout gMtuSize =
        ⟨48, gMtuSize - 48, 8, true, false⟩ ∨
      i = n + 1 ∧ (round gMtuSize payloadlen i).layout gMtuSize =
        ⟨48, (payloadlen + 7 - gMtuSize) % (gMtuSize - 48) + 49, 8, true, true⟩ := by
  cases i with
  | zero => exact .inl ⟨rfl, layout_first hlong⟩
  | succ i =>
      rcases Nat.lt_or_ge i n with hlt | hge
      · exact .inr (.inl ⟨by omega, layout_round_middle hmtu hlong (by omega)⟩)
      · obtain rfl : i = n := by omega
        exact .inr (.inr ⟨rfl, layout_round_last hmtu hlong hq⟩)

theorem packetLen_long (hmtu : 48 < gMtuSize) (hlong : gMtuSize < payloadlen)
    (hq : (n : ℤ) = middles gMtuSize payloadlen) :
    (∀ i ≤ n + 1, packetLen gMtuSize payloadlen i ≤ gMtuSize) ↔
      (payloadlen + 7 - gMtuSize) % (gMtuSize - 48) + 97 ≤ gMtuSize := by
  constructor
  · intro hfit
    have hlast := hfit (n + 1) (Nat.le_refl _)
    rw [packetLen, datalen, layout_round_last hmtu hlong hq] at hlast
    dsimp only at hlast
    omega
  · intro hlast i hi
    rw [packetLen, datalen]
    obtain ⟨-, hlayout⟩ | ⟨-, hlayout⟩ | ⟨-, hlayout⟩ := layout_cases hmtu hlong hq hi
    · rw [hlayout]
      dsimp only
      omega
    · rw [hlayout]
      dsimp only
      omega
    · rw [hlayout]
      dsimp only
      omega

theorem withinLimits_short (hshort : payloadlen ≤ gMtuSize) :
    WithinLimits gMtuSize payloadlen ↔ payloadlen + 48 ≤ gMtuSize := by
  have hend : LastRound gMtuSize payloadlen 0 := lastRound_short hshort
  constructor
  · rintro ⟨n, hlast, hfit, -⟩
    have hlen := hfit 0 (Nat.zero_le n)
    rwa [packetLen_short hshort] at hlen
  · intro hroom
    refine ⟨0, hend, ?_, by decide⟩
    intro i hi
    obtain rfl := Nat.le_zero.mp hi
    rwa [packetLen_short hshort]

theorem withinLimits_long (hmtu : 48 < gMtuSize) (hlong : gMtuSize < payloadlen) :
    WithinLimits gMtuSize payloadlen ↔
      (payloadlen + 7 - gMtuSize) % (gMtuSize - 48) + 97 ≤ gMtuSize ∧
        (payloadlen + 7 - gMtuSize) / (gMtuSize - 48) ≤ 41 := by
  obtain ⟨q, hq⟩ := Int.eq_ofNat_of_zero_le (middles_nonneg hmtu hlong)
  have hend : LastRound gMtuSize payloadlen (q + 1) := lastRound_long hmtu hlong hq.symm
  have harray : (payloadlen + 7 - gMtuSize) / (gMtuSize - 48) ≤ 41 ↔
      q + 1 + 2 ≤ maxPacketFragments := by
    rw [show maxPacketFragments = 44 from rfl, ← middles, hq]
    omega
  rw [← packetLen_long hmtu hlong hq.symm, harray]
  constructor
  · rintro ⟨n, hlast, hfit, hcount⟩
    obtain rfl := hlast.unique hend
    exact ⟨hfit, hcount⟩
  · rintro ⟨hfit, hcount⟩
    exact ⟨q + 1, hend, hfit, hcount⟩

end Rounds

/-! ## The packets that are built -/

section Packets
variable {d : Datagram} {left k offset payloadlen : ℕ} {packets : List (List UInt8)}

theorem hdrlen_layout (gMtuSize payloadlen : ℤ) (k : ℕ) : (layout gMtuSize payloadlen k).hdrlen =
      (40 + (if (layout gMtuSize payloadlen k).fragment then 8 else 0) +
        if k = 0 then 8 else 0 : ℕ) := by
  unfold layout
  split
  · next h => rw [if_pos h.2]; rfl
  · split
    · next h => rw [if_neg (Nat.ne_of_gt h.2)]; rfl
    · split
      · rfl
      · rfl

theorem datalen_layout_le (gMtuSize payloadlen : ℤ) (k : ℕ) :
    (layout gMtuSize payloadlen k).datalen ≤ payloadlen := by
  unfold layout
  split
  · next h =>
      have hhdrlen : (0 : ℤ) ≤ (sizeofIpv6Hdr + sizeofUdpHdr + sizeofIpv6FragmentHdr : ℕ) :=
        Int.natCast_nonneg _
      dsimp only
      omega
  · split
    · next h =>
        have hhdrlen : (0 : ℤ) ≤ (sizeofIpv6Hdr + sizeofIpv6FragmentHdr : ℕ) := Int.natCast_nonneg _
        dsimp only
        omega
    · split
      · exact Int.le_refl _
      · exact Int.le_refl _

theorem length_udpHeader_packet {iphdr udp : List UInt8} (h : udpHeader d iphdr k = some udp) :
    udp.length = if k = 0 then 8 else 0 := by
  unfold udpHeader at h
  split at h
  · next hk =>
      rw [if_pos hk]
      exact length_of_computeUdpPseudoHeaderChecksumV6 h
  · next hk =>
      obtain rfl := Option.some.inj h
      rw [if_neg hk]
      rfl

variable {packet : List UInt8}

theorem length_buildPacket {gMtuSize payloadlen : ℤ} {datalen : ℕ}
    (hroom : offset + datalen ≤ d.payload.length)
    (h : buildPacket d (layout gMtuSize payloadlen k) k offset datalen = some packet) :
    (packet.length : ℤ) = (layout gMtuSize payloadlen k).hdrlen + datalen := by
  rw [buildPacket, Option.map_eq_some_iff] at h
  obtain ⟨udp, hudp, rfl⟩ := h
  have hdata : ((d.payload.drop offset).take datalen).length = datalen := by
    rw [List.length_take, List.length_drop]
    omega
  have hfrag : (if (layout gMtuSize payloadlen k).fragment then
      initIpv6FragmentHeader offset d.gProtocol d.fragid
        (layout gMtuSize payloadlen k).lastfragment else []).length =
      if (layout gMtuSize payloadlen k).fragment then 8 else 0 := by
    split
    · rfl
    · rfl
  rw [List.length_append, List.length_append, List.length_append, length_initIpv6Header, hfrag,
    length_udpHeader_packet hudp, hdata, hdrlen_layout, sizeofIpv6Hdr, Int.natCast_add]

/-- `packets` are those of the rounds from the `k`-th on, the last of them included. -/
structure PacketsOf (d : Datagram) (k : ℕ) (packets : List (List UInt8)) : Prop where
  nonempty : packets ≠ []
  len : ∀ i packet, packets[i]? = some packet →
    (packet.length : ℤ) = packetLen d.gMtuSize d.payload.length (k + i)
  goesOn : ∀ i, i + 1 < packets.length →
    0 < (round d.gMtuSize d.payload.length (k + i + 1)).payloadlen
  ends : (round d.gMtuSize d.payload.length (k + packets.length)).payloadlen ≤ 0

theorem PacketsOf.cons (h : PacketsOf d (k + 1) packets)
    (hlen : (packet.length : ℤ) = packetLen d.gMtuSize d.payload.length k)
    (hpos : 0 < (round d.gMtuSize d.payload.length (k + 1)).payloadlen) :
    PacketsOf d k (packet :: packets) where
  nonempty := List.cons_ne_nil packet packets
  len i packet' hi := by
    cases i with
    | zero =>
        obtain rfl := Option.some.inj hi
        exact hlen
    | succ i =>
        rw [Nat.add_comm i 1, ← Nat.add_assoc]
        exact h.len i packet' hi
  goesOn i hi := by
    cases i with
    | zero => exact hpos
    | succ i =>
        rw [Nat.add_comm i 1, ← Nat.add_assoc]
        exact h.goesOn i (Nat.lt_of_succ_lt_succ hi)
  ends := by
    rw [List.length_cons, Nat.add_comm _ 1, ← Nat.add_assoc]
    exact h.ends

theorem packetsOf_last (hlen : (packet.length : ℤ) = packetLen d.gMtuSize d.payload.length k)
    (hend : (round d.gMtuSize d.payload.length (k + 1)).payloadlen ≤ 0) :
    PacketsOf d k [packet] where
  nonempty := List.cons_ne_nil packet []
  len i packet' hi := by
    cases i with
    | zero =>
        obtain rfl := Option.some.inj hi
        exact hlen
    | succ i => cases hi
  goesOn i hi := absurd (Nat.lt_of_succ_lt_succ hi) (Nat.not_lt_zero i)
  ends := hend

theorem packetizeLoop_rounds
    (hround : round d.gMtuSize d.payload.length k = ⟨payloadlen, offset, k⟩)
    (hsum : offset + payloadlen = d.payload.length)
    (h : packetizeLoop d left k offset payloadlen = some packets) :
    PacketsOf d k packets ∧ packets.length + 1 ≤ left := by
  induction left generalizing k offset payloadlen packets with
  | zero => cases h
  | succ left ih =>
      rw [packetizeLoop] at h
      split at h
      · cases h
      · next hnonneg =>
          rw [Option.bind_eq_bind, Option.bind_eq_some_iff] at h
          obtain ⟨packet, hpacket, h⟩ := h
          obtain ⟨datalen, hdatalen⟩ := Int.eq_ofNat_of_zero_le (Int.not_lt.mp hnonneg)
          have htoNat : (layout d.gMtuSize payloadlen k).datalen.toNat = datalen := by
            rw [hdatalen, Int.toNat_natCast]
          have hle := datalen_layout_le d.gMtuSize payloadlen k
          rw [htoNat] at hpacket h
          have hlen : (packet.length : ℤ) = packetLen d.gMtuSize d.payload.length k := by
            rw [length_buildPacket (by omega) hpacket, packetLen, RawUdp.datalen, layout_round,
              hround, hdatalen]
          have hnext : round d.gMtuSize d.payload.length (k + 1) =
              ⟨payloadlen - datalen, offset + datalen, k + 1⟩ := by
            rw [round_succ, Round.next, layout_round, hround, hdatalen]
          split at h
          · next hmore =>
              rw [Option.bind_eq_bind, Option.bind_eq_some_iff] at h
              obtain ⟨packets', hpackets, h⟩ := h
              obtain rfl := Option.some.inj h
              obtain ⟨hrest, hcount⟩ := ih (by rw [hnext]; congr 1; omega) (by omega) hpackets
              refine ⟨hrest.cons hlen ?_, Nat.succ_le_succ hcount⟩
              rw [hnext]
              dsimp only
              omega
          · next hdone =>
              split at h
              · cases h
              · obtain rfl := Option.some.inj h
                refine ⟨packetsOf_last hlen ?_, ?_⟩
                · rw [hnext]
                  dsimp only
                  omega
                · rw [List.length_singleton]
                  omega

/-- The comparison of the payload, not of the packet, with the MTU lets packets through that
are longer, and the array has room for the fragments of the default MTU. -/
theorem withinLimits_iff (d : Datagram) (hmtu : 64 ≤ d.gMtuSize) :
    WithinLimits d.gMtuSize d.payload.length ↔ PacketsFit d.gMtuSize d.payload.length := by
  rcases Int.lt_or_le d.gMtuSize d.payload.length with hlong | hshort
  · rw [withinLimits_long (by omega) hlong, PacketsFit]
    exact ⟨fun h => .inr ⟨hlong, h⟩, fun h => h.elim (by omega) And.right⟩
  · rw [withinLimits_short hshort, PacketsFit]
    exact ⟨.inl, fun h => h.elim id (by omega)⟩

theorem withinLimits_iff_default :
    WithinLimits 1496 (zeros 1496 4000).payload.length ↔
      PacketsFit 1496 (zeros 1496 4000).payload.length :=
  withinLimits_iff (zeros 1496 4000) (by decide)

/-- A payload of the size of the MTU is sent whole, with 48 bytes before it. -/
theorem packet_longer_than_mtu :
    ¬ ∀ d : Datagram, 64 ≤ d.gMtuSize → d.payload.length ≤ 65527 →
      WithinLimits d.gMtuSize d.payload.length := by
  intro hall
  have hlength : (zeros 1496 1496).payload.length = 1496 := List.length_replicate
  have hwithin := hall (zeros 1496 1496) (by decide) (by omega)
  rw [hlength] at hwithin
  exact absurd ((withinLimits_short (Int.le_refl _)).mp hwithin) (by decide)

end Packets

end MiscProjects.RawUdp
