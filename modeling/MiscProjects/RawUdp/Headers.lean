import Mathlib.Algebra.Ring.Nat
import Mathlib.Data.List.Basic

/-!
# The headers of a raw datagram

The headers are built as bytes.  Fields in network byte order are written by `htons` and
`htonl`; addresses and ports are taken from the socket addresses as they stand there.
-/

namespace MiscProjects.RawUdp

def maxPacket : ℕ := 65535

def defaultMtu : ℕ := 1496

def defaultTtl : UInt8 := 8

def ipprotoUdp : UInt8 := 17

def fragmentHeaderProtocol : UInt8 := 44

def sizeofIpv6Hdr : ℕ := 40

def sizeofIpv6FragmentHdr : ℕ := 8

def sizeofUdpHdr : ℕ := 8

/-- A `SOCKADDR_IN6`; the port is in network byte order. -/
structure SockAddrIn6 where
  sin6Port : UInt8 × UInt8
  sin6Addr : List UInt8
  length_sin6Addr : sin6Addr.length = 16

/-- The bytes of a 16-bit field in network byte order. -/
def htons (n : ℕ) : List UInt8 := [UInt8.ofNat (n / 2 ^ 8), UInt8.ofNat n]

/-- The bytes of a 32-bit field in network byte order. -/
def htonl (n : ℕ) : List UInt8 :=
  [UInt8.ofNat (n / 2 ^ 24), UInt8.ofNat (n / 2 ^ 16), UInt8.ofNat (n / 2 ^ 8), UInt8.ofNat n]

/-- What a receiver reads of a 16-bit field in network byte order. -/
def ntohs (bytes : List UInt8) : ℕ :=
  match bytes with
  | [high, low] => 2 ^ 8 * high.toNat + low.toNat
  | _ => 0

theorem ntohs_htons (n : ℕ) : ntohs (htons n) = n % 2 ^ 16 := by
  change 2 ^ 8 * (UInt8.ofNat (n / 2 ^ 8)).toNat + (UInt8.ofNat n).toNat = n % 2 ^ 16
  rw [UInt8.toNat_ofNat', UInt8.toNat_ofNat']
  omega

/-! ## The checksum -/

/-- The loop over the words of the buffer, with the last odd byte; the accumulator has
32 bits. -/
def cksumLoop : ℕ → List UInt8 → ℕ
  | cksum, low :: high :: buffer =>
      cksumLoop ((cksum + (low.toNat + 2 ^ 8 * high.toNat)) % 2 ^ 32) buffer
  | cksum, [last] => (cksum + last.toNat) % 2 ^ 32
  | cksum, [] => cksum

def checksum (buffer : List UInt8) : ℕ :=
  let cksum := cksumLoop 0 buffer
  let cksum := cksum / 2 ^ 16 + cksum % 2 ^ 16
  let cksum := (cksum + cksum / 2 ^ 16) % 2 ^ 32
  (2 ^ 32 - 1 - cksum) % 2 ^ 16

/-- The bytes of a 16-bit field in the order of the machine. -/
def ushortBytes (n : ℕ) : List UInt8 := [UInt8.ofNat n, UInt8.ofNat (n / 2 ^ 8)]

/-! ## The headers -/

def initIpv6Header (src dest : SockAddrIn6) (ttl proto : UInt8) (payloadlen : ℕ) : List UInt8 :=
  htonl (6 * 2 ^ 28) ++ htons payloadlen ++ [proto, ttl] ++ src.sin6Addr ++ dest.sin6Addr

/-- The offset is that of the payload; the UDP header before it is accounted for here. -/
def initIpv6FragmentHeader (offset : ℕ) (nextproto : UInt8) (id : ℕ) (lastfragment : Bool) :
    List UInt8 :=
  let more := if lastfragment then 0 else 1
  let offset := if offset ≠ 0 then offset + sizeofUdpHdr else offset
  [nextproto, 0] ++ htons ((offset / 8) <<< 3 ||| more) ++ htonl id

/-- The checksum is filled in later. -/
def initUdpHeader (src dest : SockAddrIn6) (payloadlen : ℕ) : List UInt8 :=
  [src.sin6Port.1, src.sin6Port.2, dest.sin6Port.1, dest.sin6Port.2] ++
    htons (sizeofUdpHdr + payloadlen) ++ [0, 0]

/-- What `ComputeUdpPseudoHeaderChecksumV6` copies to its buffer. -/
def pseudoHeaderV6 (iphdr udphdr payload : List UInt8) : List UInt8 :=
  (iphdr.drop 8).take 16 ++ (iphdr.drop 24).take 16 ++
    htonl (payload.length + sizeofUdpHdr) ++ [0, 0, 0] ++ [ipprotoUdp] ++
    udphdr.take 6 ++ [0, 0] ++ payload ++ List.replicate (payload.length % 2) 0

/-- `ComputeUdpPseudoHeaderChecksumV6`: the UDP header with its checksum; `none` if the
bytes do not fit the buffer. -/
def computeUdpPseudoHeaderChecksumV6 (iphdr udphdr payload : List UInt8) :
    Option (List UInt8) :=
  let buf := pseudoHeaderV6 iphdr udphdr payload
  if buf.length ≤ maxPacket then some (udphdr.take 6 ++ ushortBytes (checksum buf))
  else none

/-! ## Lengths -/

variable {src dest : SockAddrIn6}

theorem length_initIpv6Header (src dest : SockAddrIn6) (ttl proto : UInt8) (payloadlen : ℕ) :
    (initIpv6Header src dest ttl proto payloadlen).length = sizeofIpv6Hdr := by
  simp only [initIpv6Header, List.length_append, src.length_sin6Addr, dest.length_sin6Addr]
  rfl

theorem length_initUdpHeader (src dest : SockAddrIn6) (payloadlen : ℕ) :
    (initUdpHeader src dest payloadlen).length = sizeofUdpHdr :=
  rfl

theorem length_pseudoHeaderV6 (ttl proto : UInt8) (plen : ℕ) (payload : List UInt8) :
    (pseudoHeaderV6 (initIpv6Header src dest ttl proto plen)
      (initUdpHeader src dest payload.length) payload).length =
        48 + payload.length + payload.length % 2 := by
  have hip := length_initIpv6Header src dest ttl proto plen
  have hudp := length_initUdpHeader src dest payload.length
  simp only [pseudoHeaderV6, htonl, List.length_append, List.length_take, List.length_drop, hip,
    hudp, List.length_replicate, List.length_cons, List.length_nil, sizeofIpv6Hdr, sizeofUdpHdr]
  omega

theorem computeUdpPseudoHeaderChecksumV6_eq_none_iff (ttl proto : UInt8) (plen : ℕ)
    (payload : List UInt8) :
    computeUdpPseudoHeaderChecksumV6 (initIpv6Header src dest ttl proto plen)
        (initUdpHeader src dest payload.length) payload = none ↔
      maxPacket < 48 + payload.length + payload.length % 2 := by
  rw [computeUdpPseudoHeaderChecksumV6, length_pseudoHeaderV6]
  split
  · refine iff_of_false (Option.some_ne_none _) ?_
    omega
  · refine iff_of_true rfl ?_
    omega

theorem length_of_computeUdpPseudoHeaderChecksumV6 {iphdr payload udphdr : List UInt8}
    (h : computeUdpPseudoHeaderChecksumV6 iphdr (initUdpHeader src dest payload.length) payload =
      some udphdr) : udphdr.length = sizeofUdpHdr := by
  unfold computeUdpPseudoHeaderChecksumV6 at h
  dsimp only at h
  split at h
  · obtain rfl := Option.some.inj h
    rfl
  · cases h

end MiscProjects.RawUdp
