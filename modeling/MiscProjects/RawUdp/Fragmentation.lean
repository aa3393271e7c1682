import MiscProjects.Library.Tiling
import MiscProjects.RawUdp.Headers

/-!
# Fragmentation for IPv6

`PacketizeIpv6` cuts the payload of a datagram into packets: all but the last as long as
the MTU allows, the last with what remains.  A fragment header declares the offset of its
data in units of eight octets, and the data of the first packet begins with the UDP
header.

A packet that does not fit the array of packets, a negative length of data and a payload
that does not fit the buffer of the checksum are `none`.
-/

namespace MiscProjects.RawUdp

open MiscProjects.Tiling

def maxPacketFragments : ℕ := maxPacket / defaultMtu + 1

/-- The globals and the arguments of `PacketizeIpv6` that do not change in the loop. -/
structure Datagram where
  src : SockAddrIn6
  dest : SockAddrIn6
  gProtocol : UInt8
  gMtuSize : ℤ
  fragid : ℕ
  payload : List UInt8

/-- What the branches at the head of the loop compute. -/
structure Layout where
  hdrlen : ℤ
  datalen : ℤ
  plushdrs : ℕ
  fragment : Bool
  lastfragment : Bool
deriving DecidableEq

def layout (gMtuSize payloadlen : ℤ) (numpackets : ℕ) : Layout :=
  if payloadlen > gMtuSize ∧ numpackets = 0 then
    let hdrlen := sizeofIpv6Hdr + sizeofUdpHdr + sizeofIpv6FragmentHdr
    ⟨hdrlen, gMtuSize - hdrlen, sizeofUdpHdr + sizeofIpv6FragmentHdr, true, false⟩
  else if payloadlen > gMtuSize ∧ numpackets > 0 then
    let hdrlen := sizeofIpv6Hdr + sizeofIpv6FragmentHdr
    ⟨hdrlen, gMtuSize - hdrlen, sizeofIpv6FragmentHdr, true, false⟩
  else if numpackets = 0 then
    ⟨sizeofIpv6Hdr + sizeofUdpHdr, payloadlen, sizeofUdpHdr, false, false⟩
  else
    ⟨sizeofIpv6Hdr + sizeofIpv6FragmentHdr, payloadlen, sizeofIpv6FragmentHdr, true, true⟩

/-- The UDP header of the first packet, with its checksum; the others have none. -/
def udpHeader (d : Datagram) (iphdr : List UInt8) (numpackets : ℕ) : Option (List UInt8) :=
  if numpackets = 0 then
    computeUdpPseudoHeaderChecksumV6 iphdr (initUdpHeader d.src d.dest d.payload.length) d.payload
  else some []

/-- The body of the loop: a packet with `datalen` bytes of the payload from `offset` on. -/
def buildPacket (d : Datagram) (l : Layout) (numpackets offset datalen : ℕ) :
    Option (List UInt8) :=
  let iphdr := initIpv6Header d.src d.dest defaultTtl
    (if l.fragment then fragmentHeaderProtocol else d.gProtocol) (datalen + l.plushdrs)
  let frag :=
    if l.fragment then initIpv6FragmentHeader offset d.gProtocol d.fragid l.lastfragment else []
  (udpHeader d iphdr numpackets).map fun udp =>
    iphdr ++ frag ++ udp ++ (d.payload.drop offset).take datalen

/-- The loop, with so many elements of the array left. -/
def packetizeLoop (d : Datagram) : ℕ → ℕ → ℕ → ℕ → Option (List (List UInt8))
  | 0, _, _, _ => none
  | left + 1, numpackets, offset, payloadlen =>
      let l := layout d.gMtuSize payloadlen numpackets
      if l.datalen < 0 then none
      else do
        let packet ← buildPacket d l numpackets offset l.datalen.toNat
        if 0 < payloadlen - l.datalen.toNat then
          let packets ← packetizeLoop d left (numpackets + 1) (offset + l.datalen.toNat)
            (payloadlen - l.datalen.toNat)
          some (packet :: packets)
        else if left = 0 then none -- there is no element for the end marker
        else some [packet]

/-- `PacketizeIpv6`: the packets before the end marker. -/
def packetizeIpv6 (d : Datagram) : Option (List (List UInt8)) :=
  packetizeLoop d maxPacketFragments 0 0 d.payload.length

/-! ## The receiver -/

/-- What a receiver reads of a packet; a packet without a fragment header has no
identification. -/
structure Fragment where
  piece : Piece UInt8
  more : Bool
  id : Option (List UInt8)

/-- The extension header is told by the next header field. -/
def readFragment (packet : List UInt8) : Fragment :=
  if packet[6]? = some fragmentHeaderProtocol then
    let offset := ntohs ((packet.drop 42).take 2)
    ⟨⟨offset / 8 * 8, packet.drop 48⟩, decide (offset % 2 = 1), some ((packet.drop 44).take 4)⟩
  else ⟨⟨0, packet.drop 40⟩, false, none⟩

/-- The datagram that is sent: the UDP header and the payload. -/
def Datagram.bytes (d : Datagram) : Option (List UInt8) :=
  (computeUdpPseudoHeaderChecksumV6 (initIpv6Header d.src d.dest defaultTtl d.gProtocol 0)
    (initUdpHeader d.src d.dest d.payload.length) d.payload).map (· ++ d.payload)

/-- The packets rebuild the datagram: each datum at the offset its header declares, cut after
the packet that has no more fragments behind it. -/
structure Reassembles (fragments : List Fragment) (datagram : List UInt8) : Prop where
  rebuilds : Rebuilds (fragments.map Fragment.piece) datagram
  cut : ∃ last, fragments.getLast? = some last ∧ last.more = false ∧
    last.piece.offset + last.piece.data.length = datagram.length
  more : ∀ f ∈ fragments.dropLast, f.more = true
  id : 1 < fragments.length → ∃ id, ∀ f ∈ fragments, f.id = some id
  single : fragments.length = 1 → ∀ f ∈ fragments, f.id = none

/-- Fragmentation is reversible. -/
def Reversible (d : Datagram) : Prop :=
  ∃ packets datagram, packetizeIpv6 d = some packets ∧ d.bytes = some datagram ∧
    Reassembles (packets.map readFragment) datagram

/-! ## Reading a packet -/

variable {d : Datagram} {m left k offset payloadlen : ℕ} {packets : List (List UInt8)}
  {rest datagram : List UInt8}

/-- The offset that a fragment header declares, in octets. -/
def declaredOffset (offset : ℕ) : ℕ :=
  (if offset ≠ 0 then offset + sizeofUdpHdr else offset) / 8 * 8

theorem drop_ipv6Header (src dest : SockAddrIn6) (ttl proto : UInt8) (n i : ℕ) (rest : List UInt8) :
    (initIpv6Header src dest ttl proto n ++ rest).drop (40 + i) = rest.drop i := by
  have hlength : (initIpv6Header src dest ttl proto n).length = 40 := length_initIpv6Header ..
  rw [← List.drop_drop, List.drop_left' hlength]

theorem nextHeader (src dest : SockAddrIn6) (ttl proto : UInt8) (n : ℕ) (rest : List UInt8) :
    (initIpv6Header src dest ttl proto n ++ rest)[6]? = some proto := rfl

theorem readFragment_whole (src dest : SockAddrIn6) (ttl : UInt8) {proto : UInt8} (n : ℕ)
    (rest : List UInt8) (hproto : proto ≠ fragmentHeaderProtocol) :
    readFragment (initIpv6Header src dest ttl proto n ++ rest) = ⟨⟨0, rest⟩, false, none⟩ := by
  rw [readFragment, nextHeader, if_neg (fun heq => hproto (Option.some.inj heq))]
  rw [show 40 = 40 + 0 from rfl, drop_ipv6Header, List.drop_zero]

theorem readFragment_fragment (src dest : SockAddrIn6) (ttl nextproto : UInt8) (n id : ℕ)
    (last : Bool) (rest : List UInt8) (hoffset : offset + 8 < 2 ^ 16) :
    readFragment (initIpv6Header src dest ttl fragmentHeaderProtocol n ++
        (initIpv6FragmentHeader offset nextproto id last ++ rest)) =
      ⟨⟨declaredOffset offset, rest⟩, !last, some (htonl id)⟩ := by
  have hlength : (initIpv6FragmentHeader offset nextproto id last).length = 8 := rfl
  rw [readFragment, nextHeader, if_pos rfl]
  rw [show 42 = 40 + 2 from rfl, show 44 = 40 + 4 from rfl, show 48 = 40 + 8 from rfl,
    drop_ipv6Header, drop_ipv6Header, drop_ipv6Header, List.drop_left' hlength]
  have hid : ((initIpv6FragmentHeader offset nextproto id last ++ rest).drop 4).take 4 =
      htonl id := rfl
  have hfield : ((initIpv6FragmentHeader offset nextproto id last ++ rest).drop 2).take 2 =
      htons (((if offset ≠ 0 then offset + sizeofUdpHdr else offset) / 8) <<< 3 |||
        if last then 0 else 1) := rfl
  have hlt : (if last then 0 else 1) < 2 ^ 3 := by
    split
    · decide
    · decide
  have hsmall : (if offset ≠ 0 then offset + sizeofUdpHdr else offset) < 2 ^ 16 := by
    rw [sizeofUdpHdr]
    split
    · exact hoffset
    · omega
  rw [hid, hfield, ntohs_htons, ← Nat.shiftLeft_add_eq_or_of_lt hlt, Nat.shiftLeft_eq]
  cases last with
  | true =>
      simp only [if_true, declaredOffset, Fragment.mk.injEq, Piece.mk.injEq, and_true,
        decide_eq_false_iff_not, Bool.not_true]
      omega
  | false =>
      simp only [Bool.false_eq_true, if_false, declaredOffset, Fragment.mk.injEq,
        Piece.mk.injEq, and_true, decide_eq_true_eq, Bool.not_false]
      omega

/-! ## The packets after the first -/

/-- A packet with a fragment header and no UDP header. -/
def fragmentPacket (d : Datagram) (offset datalen : ℕ) (last : Bool) : List UInt8 :=
  initIpv6Header d.src d.dest defaultTtl fragmentHeaderProtocol
      (datalen + sizeofIpv6FragmentHdr) ++
    (initIpv6FragmentHeader offset d.gProtocol d.fragid last ++
      (d.payload.drop offset).take datalen)

theorem readFragment_fragmentPacket (d : Datagram) (datalen : ℕ) (last : Bool)
    (hoffset : offset + 8 < 2 ^ 16) : readFragment (fragmentPacket d offset datalen last) =
      ⟨⟨declaredOffset offset, (d.payload.drop offset).take datalen⟩, !last,
        some (htonl d.fragid)⟩ :=
  readFragment_fragment d.src d.dest defaultTtl d.gProtocol _ d.fragid last _ hoffset

theorem packetizeLoop_succ (hm : d.gMtuSize = m) (hmtu : 56 ≤ m) (hpos : 0 < payloadlen) :
    packetizeLoop d (left + 1) (k + 1) offset payloadlen =
      if m < payloadlen then
        (packetizeLoop d left (k + 2) (offset + (m - 48)) (payloadlen - (m - 48))).map
          (fragmentPacket d offset (m - 48) false :: ·)
      else if left = 0 then none
      else some [fragmentPacket d offset payloadlen true] := by
  by_cases hlong : m < payloadlen
  · have hlayout : layout d.gMtuSize payloadlen (k + 1) = ⟨48, m - 48, 8, true, false⟩ := by
      rw [layout, if_neg (by omega), if_pos (by omega), hm]
      rfl
    have hdatalen : ((m : ℤ) - 48).toNat = m - 48 := by omega
    rw [if_pos hlong, packetizeLoop]
    have hpacket : buildPacket d ⟨48, m - 48, 8, true, false⟩ (k + 1) offset (m - 48) =
        some (fragmentPacket d offset (m - 48) false) := by
      rw [buildPacket, udpHeader, if_neg (Nat.succ_ne_zero k), Option.map_some, fragmentPacket]
      simp only [if_true, List.append_nil, List.append_assoc]
      rfl
    simp only [hlayout, hdatalen, hpacket, Option.bind_eq_bind, Option.bind_some]
    rw [if_neg (by omega), if_pos (by omega)]
    rcases packetizeLoop d left (k + 2) (offset + (m - 48)) (payloadlen - (m - 48)) with
      _ | packets
    · rfl
    · rfl
  · have hlayout : layout d.gMtuSize payloadlen (k + 1) = ⟨48, payloadlen, 8, true, true⟩ := by
      rw [layout, if_neg (by omega), if_neg (by omega), if_neg (Nat.succ_ne_zero k)]
      rfl
    have hdatalen : (payloadlen : ℤ).toNat = payloadlen := by omega
    rw [if_neg hlong, packetizeLoop]
    have hpacket : buildPacket d ⟨48, payloadlen, 8, true, true⟩ (k + 1) offset payloadlen =
        some (fragmentPacket d offset payloadlen true) := by
      rw [buildPacket, udpHeader, if_neg (Nat.succ_ne_zero k), Option.map_some, fragmentPacket]
      simp only [if_true, List.append_nil, List.append_assoc]
      rfl
    simp only [hlayout, hdatalen, hpacket, Option.bind_eq_bind, Option.bind_some]
    rw [if_neg (by omega), if_neg (by omega)]

theorem packetizeLoop_isSome (left k offset : ℕ) (hm : d.gMtuSize = m) (hmtu : 56 ≤ m)
    (hpos : 0 < payloadlen) : (packetizeLoop d left (k + 1) offset payloadlen).isSome = true ↔
      2 ≤ left ∧ payloadlen ≤ m + (left - 2) * (m - 48) := by
  induction left generalizing k offset payloadlen with
  | zero =>
      refine iff_of_false ?_ (by omega)
      rw [packetizeLoop]
      exact Bool.false_ne_true
  | succ left ih =>
      rw [packetizeLoop_succ hm hmtu hpos]
      by_cases hlong : m < payloadlen
      · rw [if_pos hlong, Option.isSome_map, ih (k + 1) _ (by omega)]
        rcases Nat.lt_or_ge left 2 with hfew | henough
        · refine iff_of_false (by omega) ?_
          rintro ⟨-, hle⟩
          rw [show left + 1 - 2 = 0 by omega, Nat.zero_mul] at hle
          omega
        · obtain ⟨n, rfl⟩ := Nat.exists_eq_add_of_le henough
          rw [show 2 + n + 1 - 2 = n + 1 by omega, show 2 + n - 2 = n by omega, Nat.succ_mul]
          omega
      · rw [if_neg hlong]
        rcases Nat.eq_zero_or_pos left with rfl | hpos'
        · refine iff_of_false ?_ (by omega)
          exact Bool.false_ne_true
        · rw [if_neg (Nat.ne_of_gt hpos')]
          refine iff_of_true rfl ⟨by omega, ?_⟩
          exact Nat.le_trans (Nat.le_of_not_lt hlong) (Nat.le_add_right _ _)

theorem packetizeLoop_head (hm : d.gMtuSize = m) (hmtu : 56 ≤ m) (hpos : 0 < payloadlen)
    (h : packetizeLoop d left (k + 1) offset payloadlen = some packets) :
    ∃ datalen last rest, 0 < datalen ∧ packets = fragmentPacket d offset datalen last :: rest := by
  cases left with
  | zero => cases h
  | succ left =>
      rw [packetizeLoop_succ hm hmtu hpos] at h
      split at h
      · obtain ⟨rest, -, rfl⟩ := Option.map_eq_some_iff.mp h
        exact ⟨m - 48, false, rest, by omega, rfl⟩
      · split at h
        · cases h
        · obtain rfl := Option.some.inj h
          exact ⟨payloadlen, true, [], hpos, rfl⟩

/-- What the fragments from `start` on are. -/
structure Continues (fragments : List Fragment) (datagram : List UInt8) (start id : ℕ) :
    Prop where
  tiles : Tiles datagram start (fragments.map Fragment.piece)
  cut : ∃ last, fragments.getLast? = some last ∧ last.more = false ∧
    last.piece.offset + last.piece.data.length = datagram.length
  more : ∀ f ∈ fragments.dropLast, f.more = true
  id : ∀ f ∈ fragments, f.id = some (htonl id)

variable {fragments : List Fragment} {udp : List UInt8} {id start : ℕ}

theorem Continues.ne_nil (h : Continues fragments datagram start id) : fragments ≠ [] := by
  rintro rfl
  obtain ⟨last, hlast, -⟩ := h.cut
  cases hlast

theorem Continues.cons {f : Fragment}
    (h : Continues fragments datagram (start + f.piece.data.length) id)
    (hoffset : f.piece.offset = start)
    (hdata : f.piece.data = (datagram.drop start).take f.piece.data.length) (hmore : f.more = true)
    (hid : f.id = some (htonl id)) : Continues (f :: fragments) datagram start id where
  tiles := .cons hoffset hdata h.tiles
  cut := by
    rw [List.getLast?_cons_of_ne_nil h.ne_nil]
    exact h.cut
  more := by
    rw [List.dropLast_cons_of_ne_nil h.ne_nil]
    intro g hg
    rcases List.mem_cons.mp hg with rfl | hg
    · exact hmore
    · exact h.more g hg
  id := by
    intro g hg
    rcases List.mem_cons.mp hg with rfl | hg
    · exact hid
    · exact h.id g hg

theorem declaredOffset_of_dvd (hoffset : 8 ∣ offset) (hpos : 0 < offset) :
    declaredOffset offset = offset + 8 := by
  rw [declaredOffset, if_pos (Nat.ne_of_gt hpos), sizeofUdpHdr]
  omega

theorem drop_datagram (hudp : udp.length = 8) (payload : List UInt8)
    (offset : ℕ) : (udp ++ payload).drop (offset + 8) = payload.drop offset := by
  rw [Nat.add_comm, ← List.drop_drop, List.drop_left' hudp]

theorem length_data {payload : List UInt8} {datalen : ℕ} (h : offset + datalen ≤ payload.length) :
    ((payload.drop offset).take datalen).length = datalen := by
  rw [List.length_take, List.length_drop]
  omega

theorem packetizeLoop_continues (hm : d.gMtuSize = m) (hmtu : 56 ≤ m) (hunit : 8 ∣ m)
    (hudp : udp.length = 8) (hsmall : d.payload.length + 8 < 2 ^ 16) (hoffset : 8 ∣ offset)
    (hfirst : 0 < offset) (hpos : 0 < payloadlen) (hlength : offset + payloadlen = d.payload.length)
    (h : packetizeLoop d left (k + 1) offset payloadlen = some packets) :
    Continues (packets.map readFragment) (udp ++ d.payload) (offset + 8) d.fragid := by
  induction left generalizing k offset payloadlen packets with
  | zero => cases h
  | succ left ih =>
      have hdeclared := declaredOffset_of_dvd hoffset hfirst
      rw [packetizeLoop_succ hm hmtu hpos] at h
      split at h
      · rename_i hlong
        obtain ⟨rest, hrest, rfl⟩ := Option.map_eq_some_iff.mp h
        have hcontinues := ih (by omega) (by omega) (by omega) (by omega) hrest
        have hdata : ((d.payload.drop offset).take (m - 48)).length = m - 48 :=
          length_data (by omega)
        rw [List.map_cons, readFragment_fragmentPacket d _ _ (by omega)]
        apply Continues.cons
        · rw [hdata, show offset + 8 + (m - 48) = offset + (m - 48) + 8 by omega]
          exact hcontinues
        · exact hdeclared
        · rw [hdata, drop_datagram hudp]
        · rfl
        · rfl
      · split at h
        · cases h
        · obtain rfl := Option.some.inj h
          have hdata : ((d.payload.drop offset).take payloadlen).length = payloadlen :=
            length_data (by omega)
          have hend : (udp ++ d.payload).length = offset + 8 + payloadlen := by
            rw [List.length_append, hudp]
            omega
          rw [List.map_singleton, readFragment_fragmentPacket d _ _ (by omega)]
          constructor
          · apply Tiles.cons hdeclared
            · rw [hdata, drop_datagram hudp]
            · rw [hdata, ← hend]
              exact .nil
          · refine ⟨_, List.getLast?_singleton, rfl, ?_⟩
            dsimp only
            rw [hdata, hdeclared, hend]
          · intro f hf
            cases hf
          · intro f hf
            rw [List.mem_singleton.mp hf]

/-! ## The first packet -/

theorem pseudoHeaderV6_initIpv6Header (src dest : SockAddrIn6) (ttl proto proto' : UInt8)
    (n n' : ℕ) (udphdr payload : List UInt8) :
    pseudoHeaderV6 (initIpv6Header src dest ttl proto n) udphdr payload =
      pseudoHeaderV6 (initIpv6Header src dest ttl proto' n') udphdr payload := by
  rfl

/-- The UDP header with its checksum. -/
def Datagram.udpHeader (d : Datagram) : Option (List UInt8) :=
  computeUdpPseudoHeaderChecksumV6 (initIpv6Header d.src d.dest defaultTtl d.gProtocol 0)
    (initUdpHeader d.src d.dest d.payload.length) d.payload

theorem udpHeader_eq (d : Datagram) (proto : UInt8) (n : ℕ) :
    RawUdp.udpHeader d (initIpv6Header d.src d.dest defaultTtl proto n) 0 = d.udpHeader := by
  rw [RawUdp.udpHeader, if_pos rfl, Datagram.udpHeader, computeUdpPseudoHeaderChecksumV6,
    computeUdpPseudoHeaderChecksumV6]
  rw [pseudoHeaderV6_initIpv6Header d.src d.dest defaultTtl proto d.gProtocol n 0]

theorem packetizeIpv6_short (hm : d.gMtuSize = m) (hshort : d.payload.length ≤ m) :
    packetizeIpv6 d = d.udpHeader.map fun udp =>
      [initIpv6Header d.src d.dest defaultTtl d.gProtocol (d.payload.length + sizeofUdpHdr) ++
        (udp ++ d.payload)] := by
  have hlayout : layout d.gMtuSize d.payload.length 0 =
      ⟨48, d.payload.length, 8, false, false⟩ := by
    rw [layout, if_neg (by omega), if_neg (by omega), if_pos rfl]
    rfl
  have hdatalen : (d.payload.length : ℤ).toNat = d.payload.length := by omega
  have hpacket : buildPacket d ⟨48, d.payload.length, 8, false, false⟩ 0 0 d.payload.length =
      d.udpHeader.map fun udp =>
        initIpv6Header d.src d.dest defaultTtl d.gProtocol (d.payload.length + sizeofUdpHdr) ++
          (udp ++ d.payload) := by
    rw [buildPacket]
    simp only [Bool.false_eq_true, if_false, udpHeader_eq, List.append_nil, List.drop_zero,
      List.take_length, List.append_assoc]
    rfl
  rw [packetizeIpv6, show maxPacketFragments = 43 + 1 from rfl, packetizeLoop]
  simp only [hlayout, hdatalen, hpacket, Nat.sub_self]
  rw [if_neg (by omega)]
  rcases d.udpHeader with _ | udp
  · rfl
  · rfl

theorem packetizeIpv6_long (hm : d.gMtuSize = m) (hmtu : 56 ≤ m) (hlong : m < d.payload.length) :
    packetizeIpv6 d = d.udpHeader.bind fun udp =>
      (packetizeLoop d 43 1 (m - 56) (d.payload.length - (m - 56))).map fun packets =>
        (initIpv6Header d.src d.dest defaultTtl fragmentHeaderProtocol (m - 56 + 16) ++
          (initIpv6FragmentHeader 0 d.gProtocol d.fragid false ++
            (udp ++ d.payload.take (m - 56)))) :: packets := by
  have hlayout : layout d.gMtuSize d.payload.length 0 = ⟨56, m - 56, 16, true, false⟩ := by
    rw [layout, if_pos (by omega), hm]
    rfl
  have hdatalen : ((m : ℤ) - 56).toNat = m - 56 := by omega
  have hpacket : buildPacket d ⟨56, m - 56, 16, true, false⟩ 0 0 (m - 56) =
      d.udpHeader.map fun udp =>
        initIpv6Header d.src d.dest defaultTtl fragmentHeaderProtocol (m - 56 + 16) ++
          (initIpv6FragmentHeader 0 d.gProtocol d.fragid false ++
            (udp ++ d.payload.take (m - 56))) := by
    rw [buildPacket]
    simp only [if_true, udpHeader_eq, List.drop_zero, List.append_assoc]
  rw [packetizeIpv6, show maxPacketFragments = 43 + 1 from rfl, packetizeLoop]
  simp only [hlayout, hdatalen, hpacket]
  rw [if_neg (by omega)]
  rcases d.udpHeader with _ | udp
  · rfl
  · simp only [Option.map_some, Option.bind_eq_bind, Option.bind_some]
    rw [if_pos (by omega), Nat.zero_add, Nat.zero_add]
    rcases packetizeLoop d 43 1 (m - 56) (d.payload.length - (m - 56)) with _ | packets
    · rfl
    · rfl

theorem readFragment_first (d : Datagram) (n : ℕ) (data : List UInt8) :
    readFragment (initIpv6Header d.src d.dest defaultTtl fragmentHeaderProtocol n ++
        (initIpv6FragmentHeader 0 d.gProtocol d.fragid false ++ data)) =
      ⟨⟨0, data⟩, true, some (htonl d.fragid)⟩ :=
  readFragment_fragment d.src d.dest defaultTtl d.gProtocol n d.fragid false data (by decide)

theorem length_udpHeader (h : d.udpHeader = some udp) : udp.length = 8 :=
  length_of_computeUdpPseudoHeaderChecksumV6 h

theorem udpHeader_ne_none_iff (d : Datagram) :
    d.udpHeader ≠ none ↔ 48 + d.payload.length + d.payload.length % 2 ≤ maxPacket := by
  rw [Ne, Datagram.udpHeader, computeUdpPseudoHeaderChecksumV6_eq_none_iff, Nat.not_lt]

/-! ## When fragmentation is reversible -/

/-- The payload fits the buffer of the checksum; it needs no fragments, or the MTU is a
multiple of eight with room for data in the first packet, and the packets and the end
marker fit their array. -/
def FragmentsFit (d : Datagram) : Prop :=
  48 + d.payload.length + d.payload.length % 2 ≤ maxPacket ∧
    (d.payload.length ≤ d.gMtuSize ∧ d.gProtocol ≠ fragmentHeaderProtocol ∨
      d.gMtuSize < d.payload.length ∧ 8 ∣ d.gMtuSize ∧ d.gMtuSize ≠ 56 ∧
        d.payload.length + 56 ≤ 2 * d.gMtuSize + 41 * (d.gMtuSize - 48))

theorem reversible_short (hm : d.gMtuSize = m) (hshort : d.payload.length ≤ m) :
    Reversible d ↔ d.udpHeader ≠ none ∧ d.gProtocol ≠ fragmentHeaderProtocol := by
  have hpackets := packetizeIpv6_short hm hshort
  constructor
  · rintro ⟨packets, datagram, hpacketize, -, hreassembles⟩
    rw [hpackets, Option.map_eq_some_iff] at hpacketize
    obtain ⟨udp, hudp, rfl⟩ := hpacketize
    refine ⟨by rw [hudp]; exact Option.some_ne_none udp, ?_⟩
    intro hproto
    have hnone := hreassembles.single rfl _ List.mem_cons_self
    rw [readFragment, nextHeader, if_pos (congrArg some hproto)] at hnone
    cases hnone
  · rintro ⟨hchecksum, hproto⟩
    obtain ⟨udp, hudp⟩ := Option.ne_none_iff_exists'.mp hchecksum
    have hbytes : d.bytes = some (udp ++ d.payload) := congrArg (Option.map _) hudp
    refine ⟨_, _, by rw [hpackets, hudp]; rfl, hbytes, ?_⟩
    rw [List.map_singleton, readFragment_whole _ _ _ _ _ hproto]
    constructor
    · apply Tiles.rebuilds
      refine .cons rfl ?_ ?_
      · rw [List.drop_zero, List.take_length]
      · rw [Nat.zero_add]
        exact .nil
    · exact ⟨_, List.getLast?_singleton, rfl, Nat.zero_add _⟩
    · intro f hf
      cases hf
    · intro hlength
      exact absurd hlength (Nat.lt_irrefl 1)
    · intro _ f hf
      rw [List.mem_singleton.mp hf]

theorem not_reassembles_of_offset {a b : Fragment}
    (hb : b.piece.data ≠ []) (hafter : a.piece.offset ≤ b.piece.offset)
    (hbefore : b.piece.offset < a.piece.offset + a.piece.data.length) :
    ¬ Reassembles (a :: b :: fragments) datagram := by
  intro h
  apply h.rebuilds.not_overlap b.piece.offset
  refine ⟨⟨hafter, hbefore⟩, Nat.le_refl _, ?_⟩
  exact Nat.lt_add_of_pos_right (List.length_pos_of_ne_nil hb)

theorem take_datagram (hudp : udp.length = 8) (payload : List UInt8) (n : ℕ) :
    (udp ++ payload).take (n + 8) = udp ++ payload.take n := by
  rw [Nat.add_comm, ← hudp, List.take_length_add_append]

theorem length_first (hmtu : 56 ≤ m) (hlong : m < d.payload.length)
    (hudp : d.udpHeader = some udp) : (udp ++ d.payload.take (m - 56)).length = m - 56 + 8 := by
  rw [List.length_append, length_udpHeader hudp, List.length_take]
  omega

theorem length_lt_of_udpHeader (h : d.udpHeader ≠ none) : d.payload.length + 8 < 2 ^ 16 := by
  rw [udpHeader_ne_none_iff, maxPacket] at h
  omega

theorem fits_of_reversible (hm : d.gMtuSize = m) (hmtu : 56 ≤ m) (hlong : m < d.payload.length)
    (h : Reversible d) :
    d.udpHeader ≠ none ∧ 8 ∣ m ∧ m ≠ 56 ∧ d.payload.length + 56 ≤ 2 * m + 41 * (m - 48) := by
  have hrest : 0 < d.payload.length - (m - 56) := by omega
  have hcount := packetizeLoop_isSome 43 0 (m - 56) hm hmtu hrest
  obtain ⟨packets, datagram, hpacketize, -, hreassembles⟩ := h
  rw [packetizeIpv6_long hm hmtu hlong, Option.bind_eq_some_iff] at hpacketize
  obtain ⟨udp, hudp, hpacketize⟩ := hpacketize
  obtain ⟨others, hloop, rfl⟩ := Option.map_eq_some_iff.mp hpacketize
  have hchecksum : d.udpHeader ≠ none := by
    rw [hudp]
    exact Option.some_ne_none udp
  have hlt := length_lt_of_udpHeader hchecksum
  rw [hloop] at hcount
  have hfits := (hcount.mp rfl).2
  obtain ⟨datalen, last, rest, hdatalen, rfl⟩ := packetizeLoop_head hm hmtu hrest hloop
  rw [List.map_cons, List.map_cons, readFragment_first,
    readFragment_fragmentPacket d _ _ (by omega)] at hreassembles
  have hafter : m - 48 ≤ declaredOffset (m - 56) := by
    by_contra hbefore
    refine not_reassembles_of_offset ?_ (Nat.zero_le _) ?_ hreassembles
    · apply List.ne_nil_of_length_pos
      dsimp only
      rw [List.length_take, List.length_drop]
      omega
    · dsimp only
      rw [length_first hmtu hlong hudp]
      omega
  unfold declaredOffset sizeofUdpHdr at hafter
  split at hafter
  · exact ⟨hchecksum, by omega, by omega, by omega⟩
  · omega

theorem reversible_of_fits (hm : d.gMtuSize = m) (hmtu : 56 ≤ m) (hlong : m < d.payload.length)
    (hchecksum : d.udpHeader ≠ none) (hunit : 8 ∣ m) (hdata : m ≠ 56)
    (hfits : d.payload.length + 56 ≤ 2 * m + 41 * (m - 48)) : Reversible d := by
  have hrest : 0 < d.payload.length - (m - 56) := by omega
  have hcount := packetizeLoop_isSome 43 0 (m - 56) hm hmtu hrest
  obtain ⟨udp, hudp⟩ := Option.ne_none_iff_exists'.mp hchecksum
  have hbytes : d.bytes = some (udp ++ d.payload) := congrArg (Option.map _) hudp
  obtain ⟨others, hloop⟩ := Option.isSome_iff_exists.mp (hcount.mpr ⟨by decide, by omega⟩)
  have hcontinues := packetizeLoop_continues hm hmtu hunit (length_udpHeader hudp)
    (length_lt_of_udpHeader hchecksum) (by omega) (by omega) hrest (by omega) hloop
  have hpackets : packetizeIpv6 d = some
      ((initIpv6Header d.src d.dest defaultTtl fragmentHeaderProtocol (m - 56 + 16) ++
          (initIpv6FragmentHeader 0 d.gProtocol d.fragid false ++
            (udp ++ d.payload.take (m - 56)))) :: others) := by
    rw [packetizeIpv6_long hm hmtu hlong, hudp, Option.bind_some, hloop, Option.map_some]
  refine ⟨_, _, hpackets, hbytes, ?_⟩
  rw [List.map_cons, readFragment_first]
  have hall : Continues (⟨⟨0, udp ++ d.payload.take (m - 56)⟩, true, some (htonl d.fragid)⟩ ::
      others.map readFragment) (udp ++ d.payload) 0 d.fragid := by
    apply Continues.cons
    · rw [length_first hmtu hlong hudp, Nat.zero_add]
      exact hcontinues
    · rfl
    · dsimp only
      rw [length_first hmtu hlong hudp, List.drop_zero, take_datagram (length_udpHeader hudp)]
    · rfl
    · rfl
  constructor
  · exact hall.tiles.rebuilds
  · exact hall.cut
  · exact hall.more
  · exact fun _ => ⟨_, hall.id⟩
  · intro hlength
    rw [List.length_cons, Nat.add_eq_right, List.length_eq_zero_iff] at hlength
    exact absurd hlength hcontinues.ne_nil

/-- For every payload and every MTU with room for the headers: fragmentation is reversible
exactly if the payload fits. -/
theorem fragmentation_reversible_iff (d : Datagram) (hmtu : 56 ≤ d.gMtuSize) :
    Reversible d ↔ FragmentsFit d := by
  obtain ⟨m, hm⟩ := Int.eq_ofNat_of_zero_le (Int.le_trans (by decide) hmtu)
  have hmtu' : 56 ≤ m := by omega
  rw [FragmentsFit, ← udpHeader_ne_none_iff, hm]
  rcases Nat.lt_or_ge m d.payload.length with hlong | hshort
  · constructor
    · intro h
      obtain ⟨hchecksum, hunit, hdata, hfits⟩ := fits_of_reversible hm hmtu' hlong h
      exact ⟨hchecksum, .inr ⟨by omega, by omega, by omega, by omega⟩⟩
    · rintro ⟨hchecksum, ⟨hle, -⟩ | ⟨-, hunit, hdata, hfits⟩⟩
      · omega
      · exact reversible_of_fits hm hmtu' hlong hchecksum (by omega) (by omega) (by omega)
  · rw [reversible_short hm hshort]
    constructor
    · rintro ⟨hchecksum, hproto⟩
      exact ⟨hchecksum, .inl ⟨by omega, hproto⟩⟩
    · rintro ⟨hchecksum, ⟨-, hproto⟩ | ⟨hlt, -⟩⟩
      · exact ⟨hchecksum, hproto⟩
      · omega

/-- The address `::1` and a port. -/
def loopback (port : UInt8 × UInt8) : SockAddrIn6 where
  sin6Port := port
  sin6Addr := List.replicate 15 0 ++ [1]
  length_sin6Addr := rfl

/-- A payload of zeros between two ports of one host. -/
def zeros (gMtuSize : ℤ) (size : ℕ) : Datagram where
  src := loopback (20, 30)
  dest := loopback (20, 31)
  gProtocol := ipprotoUdp
  gMtuSize := gMtuSize
  fragid := 1
  payload := List.replicate size 0

/-- Three packets at the default MTU. -/
theorem fragmentation_reversible_iff_default :
    Reversible (zeros 1496 4000) ↔ FragmentsFit (zeros 1496 4000) :=
  fragmentation_reversible_iff (zeros 1496 4000) (by decide)

/-- With an MTU of 1500 bytes the second packet has the bytes from 1452 on and declares the
offset 1448. -/
theorem ethernet_mtu_overlaps : ¬ Reversible (zeros 1500 4000) := by
  intro h
  have hlong : 1500 < (zeros 1500 4000).payload.length := by
    rw [zeros, List.length_replicate]
    decide
  obtain ⟨-, hunit, -⟩ := fits_of_reversible rfl (by decide) hlong h
  exact absurd hunit (by decide)

end MiscProjects.RawUdp
