import MiscProjects.RawUdp.Checksum

/-!
# Datagrams for IPv4

`PacketizeIpv4` builds one packet: the IP header, the UDP header and the payload.
`InitIpv4Header` takes the length of what follows the IP header, and is given the
length of what follows the UDP header.
-/

namespace MiscProjects.RawUdp

open OnesComplement

def sizeofIpv4Hdr : ℕ := 20

/-- A `SOCKADDR_IN`; the port is in network byte order. -/
structure SockAddrIn where
  sinPort : UInt8 × UInt8
  sinAddr : List UInt8
  length_sinAddr : sinAddr.length = 4

/-- `InitIpv4Header` up to the checksum. -/
def ipv4Header (src dest : SockAddrIn) (ttl proto : UInt8) (payloadlen : ℕ) : List UInt8 :=
  [0x45, 0] ++ htons (sizeofIpv4Hdr + payloadlen) ++ [0, 0, 0, 0, ttl, proto, 0, 0] ++
    src.sinAddr ++ dest.sinAddr

def initIpv4Header (src dest : SockAddrIn) (ttl proto : UInt8) (payloadlen : ℕ) : List UInt8 :=
  let v4hdr := ipv4Header src dest ttl proto payloadlen
  storeUshort v4hdr 10 (checksum v4hdr)

/-- `InitUdpHeader` for `AF_INET`; the checksum is filled in later. -/
def initUdpHeaderV4 (src dest : SockAddrIn) (payloadlen : ℕ) : List UInt8 :=
  [src.sinPort.1, src.sinPort.2, dest.sinPort.1, dest.sinPort.2] ++
    htons (sizeofUdpHdr + payloadlen) ++ [0, 0]

/-- What `ComputeUdpPseudoHeaderChecksumV4` copies to its buffer. -/
def pseudoHeaderV4 (iphdr udphdr payload : List UInt8) : List UInt8 :=
  (iphdr.drop 12).take 4 ++ (iphdr.drop 16).take 4 ++ [0] ++ (iphdr.drop 9).take 1 ++
    (udphdr.drop 4).take 2 ++ udphdr.take 6 ++ [0, 0] ++ payload ++
    List.replicate (payload.length % 2) 0

/-- `ComputeUdpPseudoHeaderChecksumV4`: the UDP header with its checksum; `none` if the
bytes do not fit the buffer. -/
def computeUdpPseudoHeaderChecksumV4 (iphdr udphdr payload : List UInt8) :
    Option (List UInt8) :=
  let buf := pseudoHeaderV4 iphdr udphdr payload
  if buf.length ≤ maxPacket then some (udphdr.take 6 ++ ushortBytes (checksum buf))
  else none

/-- `PacketizeIpv4`: the packet before the end marker. -/
def packetizeIpv4 (src dest : SockAddrIn) (gProtocol : UInt8) (payload : List UInt8) :
    Option (List UInt8) :=
  let iphdr := initIpv4Header src dest defaultTtl gProtocol payload.length
  let udphdr := initUdpHeaderV4 src dest payload.length
  (computeUdpPseudoHeaderChecksumV4 iphdr udphdr payload).map fun udphdr =>
    iphdr ++ udphdr ++ payload

/-- The lengths that the headers of a packet declare are those of the packet and its payload,
the header adds up to all ones, and the payload comes behind the UDP header. -/
structure Consistent (packet payload : List UInt8) : Prop where
  totalLength : ntohs ((packet.drop 2).take 2) = packet.length
  header : sum 16 (littleWords (packet.take sizeofIpv4Hdr)) = ones 16
  udpLength : ntohs ((packet.drop 24).take 2) = sizeofUdpHdr + payload.length
  payload : packet.drop (sizeofIpv4Hdr + sizeofUdpHdr) = payload

section Ipv4
variable {payload : List UInt8}

theorem length_ipv4Header (src dest : SockAddrIn) (ttl proto : UInt8) (n : ℕ) :
    (ipv4Header src dest ttl proto n).length = sizeofIpv4Hdr := by
  simp only [ipv4Header, List.length_append, src.length_sinAddr, dest.length_sinAddr]
  rfl

theorem initIpv4Header_eq (src dest : SockAddrIn) (ttl proto : UInt8) (n : ℕ) :
    initIpv4Header src dest ttl proto n =
      [0x45, 0] ++ htons (sizeofIpv4Hdr + n) ++ [0, 0, 0, 0, ttl, proto] ++
        ushortBytes (checksum (ipv4Header src dest ttl proto n)) ++ src.sinAddr ++
        dest.sinAddr := by
  rw [initIpv4Header, storeUshort]
  rfl

theorem length_initIpv4Header (src dest : SockAddrIn) (ttl proto : UInt8) (n : ℕ) :
    (initIpv4Header src dest ttl proto n).length = sizeofIpv4Hdr := by
  rw [initIpv4Header_eq]
  simp only [List.length_append, src.length_sinAddr, dest.length_sinAddr]
  rfl

theorem sum_initIpv4Header (src dest : SockAddrIn) (ttl proto : UInt8) (n : ℕ) :
    sum 16 (littleWords (initIpv4Header src dest ttl proto n)) = ones 16 := by
  apply sum_storeUshort_checksum
  · rw [length_ipv4Header]
    decide
  · decide
  · rfl

/-- The bytes copied for the checksum: twelve of the pseudo header, the UDP header and the
payload. -/
theorem pseudoHeaderV4_eq (src dest : SockAddrIn) (ttl proto : UInt8) (n m : ℕ)
    (payload : List UInt8) :
    pseudoHeaderV4 (initIpv4Header src dest ttl proto n) (initUdpHeaderV4 src dest m) payload =
      src.sinAddr ++ dest.sinAddr ++ [0, proto] ++ htons (sizeofUdpHdr + m) ++
        (initUdpHeaderV4 src dest m).take 6 ++ [0, 0] ++ payload ++
        List.replicate (payload.length % 2) 0 := by
  have haddresses : (initIpv4Header src dest ttl proto n).drop 12 =
      src.sinAddr ++ dest.sinAddr := by
    rw [initIpv4Header_eq, List.append_assoc]
    rfl
  have hsrc : ((initIpv4Header src dest ttl proto n).drop 12).take 4 = src.sinAddr := by
    rw [haddresses, List.take_left' src.length_sinAddr]
  have hdest : ((initIpv4Header src dest ttl proto n).drop 16).take 4 = dest.sinAddr := by
    rw [show 16 = 12 + 4 from rfl, ← List.drop_drop, haddresses,
      List.drop_left' src.length_sinAddr, List.take_of_length_le dest.length_sinAddr.le]
  have hproto : ((initIpv4Header src dest ttl proto n).drop 9).take 1 = [proto] := by
    rw [initIpv4Header_eq, List.append_assoc]
    rfl
  have hlength : ((initUdpHeaderV4 src dest m).drop 4).take 2 = htons (sizeofUdpHdr + m) := rfl
  rw [pseudoHeaderV4, hsrc, hdest, hproto, hlength]
  simp only [List.append_assoc, List.cons_append, List.nil_append]

theorem length_pseudoHeaderV4 (src dest : SockAddrIn) (ttl proto : UInt8) (n m : ℕ)
    (payload : List UInt8) :
    (pseudoHeaderV4 (initIpv4Header src dest ttl proto n) (initUdpHeaderV4 src dest m)
      payload).length = 20 + payload.length + payload.length % 2 := by
  rw [pseudoHeaderV4_eq]
  simp only [htons, initUdpHeaderV4, List.length_append, List.length_take, src.length_sinAddr,
    dest.length_sinAddr, List.length_replicate, List.length_cons, List.length_nil]
  omega

theorem computeUdpPseudoHeaderChecksumV4_eq_some (src dest : SockAddrIn) (ttl proto : UInt8)
    (n : ℕ) (hfits : sizeofIpv4Hdr + sizeofUdpHdr + payload.length ≤ maxPacket) :
    computeUdpPseudoHeaderChecksumV4 (initIpv4Header src dest ttl proto n)
        (initUdpHeaderV4 src dest n) payload =
      some ((initUdpHeaderV4 src dest n).take 6 ++ ushortBytes (checksum
        (pseudoHeaderV4 (initIpv4Header src dest ttl proto n) (initUdpHeaderV4 src dest n)
          payload))) := by
  rw [computeUdpPseudoHeaderChecksumV4]
  refine if_pos ?_
  rw [length_pseudoHeaderV4]
  rw [sizeofIpv4Hdr, sizeofUdpHdr] at hfits
  omega

/-! ## The fields of the packet -/

theorem packetizeIpv4_fields (src dest : SockAddrIn) (gProtocol : UInt8) (payload : List UInt8)
    (hfits : sizeofIpv4Hdr + sizeofUdpHdr + payload.length ≤ maxPacket) :
    ∃ packet, packetizeIpv4 src dest gProtocol payload = some packet ∧
      packet.length = sizeofIpv4Hdr + sizeofUdpHdr + payload.length ∧
      ntohs ((packet.drop 2).take 2) = sizeofIpv4Hdr + payload.length ∧
      sum 16 (littleWords (packet.take sizeofIpv4Hdr)) = ones 16 ∧
      ntohs ((packet.drop 24).take 2) = sizeofUdpHdr + payload.length ∧
      packet.drop (sizeofIpv4Hdr + sizeofUdpHdr) = payload := by
  have hudp := computeUdpPseudoHeaderChecksumV4_eq_some src dest defaultTtl gProtocol
    payload.length hfits
  have hip := length_initIpv4Header src dest defaultTtl gProtocol payload.length
  generalize checksum (pseudoHeaderV4 (initIpv4Header src dest defaultTtl gProtocol
    payload.length) (initUdpHeaderV4 src dest payload.length) payload) = cksum at hudp
  refine ⟨_, by rw [packetizeIpv4, hudp, Option.map_some], ?_, ?_, ?_, ?_, ?_⟩
  · simp only [List.length_append, hip]
    rfl
  · have htotal : ((initIpv4Header src dest defaultTtl gProtocol payload.length ++
        ((initUdpHeaderV4 src dest payload.length).take 6 ++ ushortBytes cksum) ++
          payload).drop 2).take 2 = htons (sizeofIpv4Hdr + payload.length) := by
      rw [initIpv4Header_eq]
      rfl
    rw [htotal, ntohs_htons, Nat.mod_eq_of_lt]
    rw [sizeofIpv4Hdr, sizeofUdpHdr, maxPacket] at hfits
    rw [sizeofIpv4Hdr]
    omega
  · rw [List.append_assoc, List.take_left' hip]
    exact sum_initIpv4Header ..
  · have hlength : ((initIpv4Header src dest defaultTtl gProtocol payload.length ++
        ((initUdpHeaderV4 src dest payload.length).take 6 ++ ushortBytes cksum) ++
          payload).drop 24).take 2 = htons (sizeofUdpHdr + payload.length) := by
      rw [show 24 = sizeofIpv4Hdr + 4 from rfl, ← List.drop_drop, List.append_assoc,
        List.drop_left' hip]
      rfl
    rw [hlength, ntohs_htons, Nat.mod_eq_of_lt]
    rw [sizeofIpv4Hdr, sizeofUdpHdr, maxPacket] at hfits
    rw [sizeofUdpHdr]
    omega
  · rw [← List.drop_drop, List.append_assoc, List.drop_left' hip]
    rfl

/-- For every payload that IPv4 can carry, and for all addresses and ports, the packet declares
a length that is not its own. -/
theorem packetizeIpv4_not_consistent (src dest : SockAddrIn) (gProtocol : UInt8)
    (payload : List UInt8) (hfits : 28 + payload.length ≤ 65535) :
    ∃ packet, packetizeIpv4 src dest gProtocol payload = some packet ∧
      ¬ Consistent packet payload := by
  obtain ⟨packet, hpacket, hlength, htotal, -⟩ :=
    packetizeIpv4_fields src dest gProtocol payload hfits
  refine ⟨packet, hpacket, fun hconsistent => ?_⟩
  have hdeclared := hconsistent.totalLength
  rw [htotal, hlength, sizeofUdpHdr] at hdeclared
  omega

/-- The address `127.0.0.1` and a port. -/
def localhost (port : UInt8 × UInt8) : SockAddrIn where
  sinPort := port
  sinAddr := [127, 0, 0, 1]
  length_sinAddr := rfl

/-- A letter is sent in 29 bytes that declare to be 21. -/
theorem packetizeIpv4_not_consistent_letter :
    ∃ packet, packetizeIpv4 (localhost (20, 30)) (localhost (20, 31)) ipprotoUdp [65] =
      some packet ∧ ¬ Consistent packet [65] :=
  packetizeIpv4_not_consistent _ _ _ _ (by decide)

theorem not_always_consistent :
    ¬ ∀ src dest gProtocol payload packet, 28 + payload.length ≤ 65535 →
      packetizeIpv4 src dest gProtocol payload = some packet → Consistent packet payload := by
  intro h
  obtain ⟨packet, hpacket, hlength, htotal, -⟩ := packetizeIpv4_fields (localhost (20, 30))
    (localhost (20, 31)) ipprotoUdp [65] (by decide)
  have hdeclared := (h _ _ _ _ _ (by decide) hpacket).totalLength
  rw [htotal, hlength] at hdeclared
  exact absurd hdeclared (by decide)

end Ipv4

end MiscProjects.RawUdp
