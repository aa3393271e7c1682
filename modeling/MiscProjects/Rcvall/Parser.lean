import MiscProjects.Library.NetworkOrder

/-!
# The packet decoder of `rcvall`

`DecodeIPHeader` and the decoders for IGMP, TCP and UDP are handed the captured packet
without its length.  Every read is made explicit here and fails where the byte was not
received; so does the use of an element that a table does not have, and of a variable that
was not set.  What a decoder prints is kept as a structure of the values.
-/

namespace MiscProjects.Rcvall

open NetworkOrder

/-- What a decoder must not do. -/
inductive Fault
  | notReceived
  | noElement
  | notSet
  deriving DecidableEq

abbrev Decoder := Except Fault

/-! ## Reading -/

/-- The number in `n` bytes of the packet. -/
def numberAt (buf : List UInt8) (hdr n : ℕ) : ℕ := number ((buf.drop hdr).take n)

/-- Copying `n` bytes of the packet into a variable, in the order of the host. -/
def read (buf : List UInt8) (hdr n : ℕ) : Decoder ℕ :=
  if hdr + n ≤ buf.length then .ok (numberAt buf hdr n) else .error .notReceived

def element (table : List String) (i : ℕ) : Decoder String :=
  if h : i < table.length then .ok table[i] else .error .noElement

/-- Reading a variable that may not have been set. -/
def ofSet {α : Type} : Option α → Decoder α
  | some a => .ok a
  | none => .error .notSet

/-- What is read under a condition only. -/
def readIf {α : Type} (c : Prop) [Decidable c] (d : Decoder α) : Decoder (Option α) :=
  if c then some <$> d else pure none

def hiWord (byte : ℕ) : ℕ := byte / 16 % 16

def loWord (byte : ℕ) : ℕ := byte % 16

/-- A list of protocol types in the IP protocol header. -/
def szProto : List String :=
  ["Reserved", "ICMP", "IGMP", "GGP", "IP", "ST", "TCP", "UCL", "EGP", "IGP", "BBN-RCC-MON",
   "NVP-II", "PUP", "ARGUS", "EMCON", "XNET", "CHAOS", "UDP", "MUX", "DCN-MEAS", "HMP", "PRM",
   "XNS-IDP", "TRUNK-1", "TRUNK-2", "LEAF-1", "LEAF-2", "RDP", "IRTP", "ISO-TP4", "NETBLT",
   "MFE-NSP", "MERIT-INP", "SEP", "3PC", "IDPR", "XTP", "DDP", "IDPR-CMTP", "TP++", "IL",
   "SIP", "SDRP", "SIP-SR", "SIP-FRAG", "IDRP", "RSVP", "GRE", "MHRP", "BNA", "SIPP-ESP",
   "SIPP-AH", "I-NLSP", "SWIPE", "NHRP", "unassigned", "unassigned", "unassigned",
   "unassigned", "unassigned", "unassigned", "any host internal protocol", "CFTP",
   "any local network", "SAT-EXPAK", "KRYPTOLAN", "RVD", "IPPC", "any distributed file system",
   "SAT-MON", "VISA", "IPCV", "CPNX", "CPHB", "WSN", "PVP", "BR-SAT-MON", "SUN-ND", "WB-MON",
   "WB-EXPAK", "ISO-IP", "VMTP", "SECURE-VMTP", "VINES", "TTP", "NSFNET-IGP", "DGP", "TCF",
   "IGRP", "OSPFIGP", "Sprite-RPC", "LARP", "MTP", "AX.25", "IPIP", "MICP", "SCC-SP",
   "ETHERIP", "ENCAP", "any private encryption scheme", "GMTP"]

/-- The types of IGMP messages. -/
def szIgmpType : List String :=
  ["Unknown", "Host Membership Query", "Host Membership Report", "", "", "",
   "Version 2 Membership Report", "Leave Group"]

/-! ## IGMP -/

inductive Message
  | query
  | report
  | reportV2
  | leaveGroup
  | reportV3
  deriving DecidableEq

/-- The version and the message; the message of a bad version is not set. -/
def classify (version type maxresptime : ℕ) (igmphdrlen : ℤ) : ℕ × Option Message :=
  if version = 1 ∧ maxresptime = 0 ∧ igmphdrlen = 8 ∧ type = 1 then (1, some .query)
  else if version = 1 ∧ maxresptime = 0 ∧ igmphdrlen = 8 ∧ type = 2 then (1, some .report)
  else if version = 1 ∧ maxresptime ≠ 0 ∧ igmphdrlen = 8 ∧ type = 1 then (2, some .query)
  else if version = 1 ∧ 8 < igmphdrlen ∧ type = 1 then (3, some .query)
  else if version = 1 ∧ maxresptime ≠ 0 ∧ igmphdrlen = 8 ∧ type = 6 then (2, some .reportV2)
  else if version = 1 ∧ type = 7 then (2, some .leaveGroup)
  else if version = 2 ∧ 8 < igmphdrlen ∧ type = 2 then (3, some .reportV3)
  else (0, none)

structure QueryFields where
  reserve : ℕ
  suppress : Bool
  qrv : ℕ
  qqi : ℕ
  numsources : ℕ
  /-- The warning that the source counts do not correspond. -/
  mismatch : Bool
  sources : List ℕ

structure GroupRecord where
  rectype : ℕ
  auxdatalen : ℕ
  numsources : ℕ
  group : ℕ
  sources : List ℕ

/-- What `DecodeIGMPHeader` prints. -/
structure IgmpHeader where
  version : ℕ
  type : String
  maxRespTime : Option ℕ
  grpAddr : Option ℕ
  query : Option QueryFields
  records : Option (List GroupRecord)

/-- The loop over the sources. -/
def readSources (buf : List UInt8) : ℕ → ℕ → Decoder (List ℕ)
  | _, 0 => .ok []
  | hdr, n + 1 => do
      let addr ← read buf hdr 4
      let sources ← readSources buf (hdr + 4) n
      return addr :: sources

/-- The loop over the group records.  The auxiliary data of a record is not skipped. -/
def readRecords (buf : List UInt8) : ℕ → ℕ → Decoder (List GroupRecord)
  | _, 0 => .ok []
  | hdr, n + 1 => do
      let rectype ← read buf hdr 1
      let auxdatalen ← read buf (hdr + 1) 1
      let numsources ← read buf (hdr + 2) 2
      let group ← read buf (hdr + 4) 4
      let sources ← readSources buf (hdr + 8) numsources
      let records ← readRecords buf (hdr + 8 + 4 * numsources) n
      return { rectype, auxdatalen, numsources, group, sources } :: records

/-- The part of a query that version 3 has added. -/
def readQuery (buf : List UInt8) (hdr : ℕ) (igmphdrlen : ℤ) : Decoder QueryFields := do
  let flags ← read buf hdr 1
  let qqi ← read buf (hdr + 1) 1
  let numsources ← read buf (hdr + 2) 2
  let realsourcecount := (igmphdrlen - 12).tdiv 4
  let sources ← readSources buf (hdr + 4) realsourcecount.toNat
  return {
    reserve := flags / 16
    suppress := flags / 8 % 8 ≠ 0
    qrv := flags % 8
    qqi
    numsources
    mismatch := realsourcecount ≠ numsources
    sources }

/-- A report of version 3, behind its checksum. -/
def readReport (buf : List UInt8) (hdr : ℕ) : Decoder (List GroupRecord) := do
  let numrecs ← read buf (hdr + 2) 2
  readRecords buf (hdr + 4) numrecs

/-- The lengths are those of an IP header, so that their difference is exact. -/
def decodeIGMPHeader (buf : List UInt8) (iphdrlen iptotallen : ℕ) : Decoder IgmpHeader := do
  let igmphdrlen : ℤ := iptotallen - iphdrlen
  let first ← read buf iphdrlen 1
  let maxresptime ← read buf (iphdrlen + 1) 1
  let _chksum ← read buf (iphdrlen + 2) 2
  let kind := classify (hiWord first) (loWord first) maxresptime igmphdrlen
  let type ← element szIgmpType (loWord first)
  let message ← ofSet kind.2
  let grpAddr ← readIf (message = .query) (read buf (iphdrlen + 4) 4)
  let query ← readIf (kind.1 = 3 ∧ message = .query) (readQuery buf (iphdrlen + 8) igmphdrlen)
  let records ← readIf (kind.1 = 3 ∧ message = .reportV3) (readReport buf (iphdrlen + 4))
  return {
    version := kind.1
    type
    maxRespTime := if 2 ≤ kind.1 then some maxresptime else none
    grpAddr
    query
    records }

/-! ## UDP and TCP -/

structure UdpHeader where
  srcPort : ℕ
  destPort : ℕ
  len : ℕ
  chksum : ℕ

def decodeUDPHeader (buf : List UInt8) (iphdrlen : ℕ) : Decoder UdpHeader := do
  let srcPort ← read buf iphdrlen 2
  let destPort ← read buf (iphdrlen + 2) 2
  let len ← read buf (iphdrlen + 4) 2
  let chksum ← read buf (iphdrlen + 6) 2
  return { srcPort, destPort, len, chksum }

structure TcpHeader where
  srcPort : ℕ
  destPort : ℕ
  seqNum : ℕ
  ackNum : ℕ
  headerLen : ℕ
  flags : List String
  windowSize : ℕ
  chksum : ℕ
  urgentPtr : ℕ

def tcpFlags (shortval : ℕ) : List String :=
  [(32, "URG"), (16, "ACK"), (8, "PSH"), (4, "RST"), (2, "SYN"), (1, "FIN")].filterMap
    fun flag => if shortval / flag.1 % 2 = 1 then some flag.2 else none

def decodeTCPHeader (buf : List UInt8) (iphdrlen : ℕ) : Decoder TcpHeader := do
  let srcPort ← read buf iphdrlen 2
  let destPort ← read buf (iphdrlen + 2) 2
  let seqNum ← read buf (iphdrlen + 4) 4
  let ackNum ← read buf (iphdrlen + 8) 4
  let offset ← read buf (iphdrlen + 12) 1
  let flags ← read buf (iphdrlen + 12) 2
  let windowSize ← read buf (iphdrlen + 14) 2
  let chksum ← read buf (iphdrlen + 16) 2
  let urgentPtr ← read buf (iphdrlen + 18) 2
  return {
    srcPort, destPort, seqNum, ackNum
    headerLen := hiWord offset
    flags := tcpFlags flags
    windowSize, chksum, urgentPtr }

/-! ## IP -/

structure IpHeader where
  version : ℕ
  hdrLen : ℕ
  tos : ℕ
  totalLen : ℕ
  id : ℕ
  flags : ℕ
  fragOffset : ℕ
  ttl : ℕ
  protocol : String
  chksum : ℕ
  src : ℕ
  dest : ℕ

/-- What is printed below the IP header. -/
inductive Payload
  | igmp (header : IgmpHeader)
  | tcp (header : TcpHeader)
  | udp (header : UdpHeader)
  | noDecoder

/-- What the packet is filtered by. -/
structure Filter where
  bFilter : Bool
  srcip : ℕ
  srcport : ℕ
  destip : ℕ
  destport : ℕ

/-- The decoder that the protocol has. -/
def decodePayload (buf : List UInt8) (proto hdrLen totalLen : ℕ) : Decoder Payload :=
  match proto with
  | 2 => .igmp <$> decodeIGMPHeader buf hdrLen totalLen
  | 6 => .tcp <$> decodeTCPHeader buf hdrLen
  | 17 => .udp <$> decodeUDPHeader buf hdrLen
  | _ => pure .noDecoder

/-- The value of `bPrint`. -/
def decodeFilter (filter : Filter) (buf : List UInt8) (proto hdrLen src dest : ℕ) :
    Decoder Bool :=
  if (proto = 2 ∨ proto = 6 ∨ proto = 17) ∧ filter.bFilter = true then do
    let srcPort ← read buf hdrLen 2
    let destPort ← read buf (hdrLen + 2) 2
    return decide (filter.srcip = src ∨ filter.srcport = srcPort ∨ filter.destip = dest ∨
      filter.destport = destPort)
  else pure !filter.bFilter

/-- The length of the header, and what is printed if the packet is not filtered out. -/
def decodeIPHeader (filter : Filter) (buf : List UInt8) :
    Decoder (ℕ × Option (IpHeader × Payload)) := do
  let first ← read buf 0 1
  let hdrLen := loWord first * 4
  let tos ← read buf 1 1
  let totalLen ← read buf 2 2
  let id ← read buf 4 2
  let flags ← read buf 6 1
  let frag ← read buf 6 2
  let ttl ← read buf 8 1
  let proto ← read buf 9 1
  let chksum ← read buf 10 2
  let src ← read buf 12 4
  let dest ← read buf 16 4
  let bPrint ← decodeFilter filter buf proto hdrLen src dest
  let printed ← readIf (bPrint = true) do
    let protocol ← element szProto proto
    let payload ← decodePayload buf proto hdrLen totalLen
    return ({
      version := hiWord first
      hdrLen, tos, totalLen, id
      flags := flags / 32
      fragOffset := frag % 8192
      ttl, protocol, chksum, src, dest : IpHeader }, payload)
  return (hdrLen, printed)

end MiscProjects.Rcvall
