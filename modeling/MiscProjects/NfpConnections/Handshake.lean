import MiscProjects.Library.Blocks
import MiscProjects.Nfp.FileContext

/-!
# The handshake of a connection

The two ends of a connection send each other the magic packet, and messages after it.  The
client reads the packet with one `ReadFile`, the server with the `AcceptEx` that accepts the
connection; both may return fewer bytes than asked for.  The client compares what it has
without looking at the number of bytes, the server closes the connection unless it is the size
of the packet.  Messages are read with `MSG_WAITALL`.
-/

namespace MiscProjects.NfpConnections.Handshake

open MiscProjects.Blocks

/-- `MAGIC_PACKET` as it is in memory: the last byte is zero. -/
def MAGIC_PACKET : List UInt8 :=
  [0x68, 0x2C, 0x7D, 0x9C, 0xD8, 0x5A, 0x14, 0x4A, 0xBE, 0x20, 0xF8, 0x74, 0x1D, 0x60, 0xD1, 0x00]

def maxCchTypeNetwork : ℕ := 502

/-- `sizeof(MESSAGE)`: the type in wide characters, the size of the payload and the payload. -/
def sizeofMessage : ℕ := 2 * maxCchTypeNetwork + 4 + Nfp.maxCbPayload

theorem sizeofMessage_pos : 0 < sizeofMessage := by decide

/-! ## The two sides -/

/-- What a read for the magic packet takes from the bytes sent by the peer: some of the first
ones, and none only if there are none. -/
structure FirstRead (stream : List UInt8) where
  count : ℕ
  le_size : count ≤ MAGIC_PACKET.length
  le_length : count ≤ stream.length
  pos : stream ≠ [] → 0 < count

/-- Which of the other calls succeed; `initial` tells whether the connection is in its initial
state. -/
structure Calls where
  socket : Bool
  setSocketIpv6Only : Bool
  wsaConnectByName : Bool
  updateConnectContext : Bool
  acceptEx : Bool
  send : Bool
  readFile : Bool
  initial : Bool
  createThreadpoolWork : Bool

def finalizeEstablish (c : Calls) : Bool := c.initial && c.createThreadpoolWork

variable {stream : List UInt8}

/-- The buffer of `ReadFile` is cleared before, and the number of bytes is ignored. -/
def initializeAsClient (c : Calls) (read : FirstRead stream) : Bool :=
  c.socket && c.setSocketIpv6Only && c.wsaConnectByName && c.updateConnectContext && c.send &&
    c.readFile &&
    (stream.take read.count ++ List.replicate (MAGIC_PACKET.length - read.count) 0 ==
      MAGIC_PACKET) &&
    finalizeEstablish c

def validateAccept (c : Calls) (magicPacket : List UInt8) : Bool :=
  (magicPacket == MAGIC_PACKET) && c.send && finalizeEstablish c

/-- `BeginAccept` and `AcceptThreadProc`; the buffer of the packet has been used before. -/
def acceptThreadProc (c : Calls) (acceptBuffer : List UInt8) (read : FirstRead stream) : Bool :=
  c.socket && c.setSocketIpv6Only && c.acceptEx && (read.count == MAGIC_PACKET.length) &&
    validateAccept c
      ((stream.take read.count ++ acceptBuffer.drop read.count).take MAGIC_PACKET.length)

/-- `ReceiveThreadProc`: the messages given to `HandleReceivedMessage`, until the stream ends. -/
def receiveThreadProc (rest : List UInt8) : List (List UInt8) :=
  if sizeofMessage ≤ rest.length then
    rest.take sizeofMessage :: receiveThreadProc (rest.drop sizeofMessage)
  else []
termination_by rest.length
decreasing_by
  rw [List.length_drop]
  exact Nat.sub_lt (Nat.lt_of_lt_of_le sizeofMessage_pos ‹_›) sizeofMessage_pos

inductive Side
  | client
  | server
deriving DecidableEq

/-- The side establishes the connection. -/
def Side.establishes (side : Side) (c : Calls) (acceptBuffer : List UInt8)
    (read : FirstRead stream) : Bool :=
  match side with
  | .client => initializeAsClient c read
  | .server => acceptThreadProc c acceptBuffer read

/-- Nothing but the packet stands in the way of the connection. -/
def Side.Ready (side : Side) (c : Calls) : Prop :=
  c.socket = true ∧ c.setSocketIpv6Only = true ∧ c.send = true ∧ c.initial = true ∧
    c.createThreadpoolWork = true ∧
    match side with
    | .client => c.wsaConnectByName = true ∧ c.updateConnectContext = true ∧ c.readFile = true
    | .server => c.acceptEx = true

/-! ## Statement -/

/-- The stream begins with the magic packet. -/
def BeginsWithMagic (stream : List UInt8) : Prop :=
  stream.take MAGIC_PACKET.length = MAGIC_PACKET

/-- The connection is established exactly if the peer has sent the magic packet, and the
messages are the blocks behind it. -/
structure Agrees (side : Side) (c : Calls) (acceptBuffer : List UInt8)
    (read : FirstRead stream) : Prop where
  establishes : side.establishes c acceptBuffer read = true ↔
    side.Ready c ∧ BeginsWithMagic stream
  messages : side.establishes c acceptBuffer read = true →
    receiveThreadProc (stream.drop read.count) =
      blocks sizeofMessage (stream.drop MAGIC_PACKET.length)

/-- The client has read all but the last byte of the packet, which is a zero. -/
def LastMissing (read : FirstRead stream) : Prop :=
  read.count + 1 = MAGIC_PACKET.length ∧
    stream.take read.count = MAGIC_PACKET.take read.count

instance (read : FirstRead stream) : Decidable (LastMissing read) :=
  inferInstanceAs (Decidable (_ ∧ _))

/-- The messages stay the same when a zero comes before them: they consist of zeros, and the
zero does not make another one full. -/
def Unmoved (messages : List UInt8) : Prop :=
  ¬ sizeofMessage ∣ messages.length + 1 ∧
    ∀ b ∈ messages.take (messages.length / sizeofMessage * sizeofMessage), b = 0

/-- The read takes the whole packet, or it makes no difference that it does not. -/
def ReadWhole (side : Side) (read : FirstRead stream) : Prop :=
  read.count = MAGIC_PACKET.length ∨
    match side with
    | .client =>
        if LastMissing read then
          BeginsWithMagic stream ∧ Unmoved (stream.drop MAGIC_PACKET.length)
        else ¬ BeginsWithMagic stream
    | .server => ¬ BeginsWithMagic stream

/-! ## What is established -/

section Establishes
variable {c : Calls} {read : FirstRead stream} {acceptBuffer : List UInt8}

theorem padded_eq_iff (read : FirstRead stream) :
    stream.take read.count ++ List.replicate (MAGIC_PACKET.length - read.count) 0 = MAGIC_PACKET ↔
      read.count = MAGIC_PACKET.length ∧ BeginsWithMagic stream ∨ LastMissing read := by
  have hzeros : ∀ k < MAGIC_PACKET.length,
      List.replicate (MAGIC_PACKET.length - k) 0 = MAGIC_PACKET.drop k ↔
        k + 1 = MAGIC_PACKET.length := by
    decide
  have hlength : (stream.take read.count).length = read.count :=
    List.length_take_of_le read.le_length
  rcases Nat.eq_or_lt_of_le read.le_size with hwhole | hshort
  · rw [LastMissing, BeginsWithMagic, hwhole, Nat.sub_self, List.replicate_zero, List.append_nil]
    simp
  · have hsplit : stream.take read.count ++ List.replicate (MAGIC_PACKET.length - read.count) 0 =
        MAGIC_PACKET.take read.count ++ MAGIC_PACKET.drop read.count ↔ LastMissing read := by
      rw [LastMissing, and_comm, ← hzeros read.count hshort]
      constructor
      · intro h
        apply List.append_inj h
        rw [hlength, List.length_take_of_le read.le_size]
      · exact fun ⟨htake, hdrop⟩ => congrArg₂ _ htake hdrop
    rw [List.take_append_drop] at hsplit
    rw [hsplit, or_iff_right fun h => absurd h.1 (Nat.ne_of_lt hshort)]

theorem initializeAsClient_iff : initializeAsClient c read = true ↔ Side.client.Ready c ∧
      (read.count = MAGIC_PACKET.length ∧ BeginsWithMagic stream ∨ LastMissing read) := by
  rw [← padded_eq_iff]
  simp only [initializeAsClient, finalizeEstablish, Side.Ready, Bool.and_eq_true, beq_iff_eq]
  tauto

theorem acceptThreadProc_iff : acceptThreadProc c acceptBuffer read = true ↔
      Side.server.Ready c ∧ read.count = MAGIC_PACKET.length ∧ BeginsWithMagic stream := by
  have hbuffer : read.count = MAGIC_PACKET.length →
      (stream.take read.count ++ acceptBuffer.drop read.count).take MAGIC_PACKET.length =
        stream.take MAGIC_PACKET.length := by
    intro hcount
    have hlength : (stream.take MAGIC_PACKET.length).length = MAGIC_PACKET.length :=
      List.length_take_of_le (hcount ▸ read.le_length)
    rw [hcount, List.take_append_of_le_length hlength.ge, List.take_take, Nat.min_self]
  by_cases hcount : read.count = MAGIC_PACKET.length
  · simp only [acceptThreadProc, validateAccept, finalizeEstablish, Side.Ready, BeginsWithMagic,
      Bool.and_eq_true, beq_iff_eq, hbuffer hcount]
    tauto
  · simp [acceptThreadProc, hcount]

theorem receiveThreadProc_eq_blocks (rest : List UInt8) :
    receiveThreadProc rest = blocks sizeofMessage rest := by
  induction rest using receiveThreadProc.induct with
  | case1 rest hlong ih =>
      rw [receiveThreadProc, if_pos hlong, ih, blocks_of_long sizeofMessage_pos hlong]
  | case2 rest hshort =>
      rw [receiveThreadProc, if_neg hshort, blocks_of_short (Nat.lt_of_not_le hshort)]

theorem receiveThreadProc_of_whole (hcount : read.count = MAGIC_PACKET.length) :
    receiveThreadProc (stream.drop read.count) =
      blocks sizeofMessage (stream.drop MAGIC_PACKET.length) := by
  rw [hcount, receiveThreadProc_eq_blocks]

theorem receiveThreadProc_of_lastMissing (hmissing : LastMissing read)
    (hmagic : BeginsWithMagic stream) : receiveThreadProc (stream.drop read.count) =
        blocks sizeofMessage (stream.drop MAGIC_PACKET.length) ↔
      Unmoved (stream.drop MAGIC_PACKET.length) := by
  have hcount : read.count = 15 := Nat.succ.inj hmissing.1
  have hdrop : stream.drop read.count = 0 :: stream.drop MAGIC_PACKET.length := by
    have hzero : stream[15]? = some 0 := by
      have hbyte : (stream.take MAGIC_PACKET.length)[15]? = some 0 := by
        rw [hmagic]
        rfl
      rwa [List.getElem?_take_of_lt (by decide)] at hbyte
    obtain ⟨hlt, hget⟩ := List.getElem?_eq_some_iff.mp hzero
    rw [hcount, List.drop_eq_getElem_cons hlt, hget]
    rfl
  rw [hdrop, receiveThreadProc_eq_blocks, blocks_cons_eq_iff sizeofMessage_pos]
  rfl

end Establishes

/-! ## Main result -/

section Agrees
variable {c : Calls} {read : FirstRead stream} {acceptBuffer : List UInt8}

theorem agrees_server_iff :
    Agrees .server c acceptBuffer read ↔ (Side.server.Ready c → ReadWhole .server read) := by
  constructor
  · intro h hready
    by_cases hmagic : BeginsWithMagic stream
    · exact .inl (acceptThreadProc_iff.mp (h.establishes.mpr ⟨hready, hmagic⟩)).2.1
    · exact .inr hmagic
  · intro h
    refine ⟨acceptThreadProc_iff.trans ?_, fun hestablished => ?_⟩
    · constructor
      · exact fun ⟨hready, _, hmagic⟩ => ⟨hready, hmagic⟩
      · exact fun ⟨hready, hmagic⟩ => ⟨hready, (h hready).resolve_right (absurd hmagic), hmagic⟩
    · exact receiveThreadProc_of_whole (acceptThreadProc_iff.mp hestablished).2.1

theorem agrees_client_iff :
    Agrees .client c acceptBuffer read ↔ (Side.client.Ready c → ReadWhole .client read) := by
  constructor
  · intro h hready
    by_cases hcount : read.count = MAGIC_PACKET.length
    · exact .inl hcount
    · refine .inr ?_
      by_cases hmissing : LastMissing read
      · have hestablished := initializeAsClient_iff.mpr ⟨hready, .inr hmissing⟩
        have hmagic := (h.establishes.mp hestablished).2
        simp only [if_pos hmissing]
        exact ⟨hmagic, (receiveThreadProc_of_lastMissing hmissing hmagic).mp
          (h.messages hestablished)⟩
      · simp only [if_neg hmissing]
        intro hmagic
        have hestablished := initializeAsClient_iff.mp (h.establishes.mpr ⟨hready, hmagic⟩)
        exact hestablished.2.elim (fun hwhole => hcount hwhole.1) hmissing
  · intro h
    refine ⟨initializeAsClient_iff.trans (and_congr_right fun hready => ?_), fun hestablished => ?_⟩
    · rcases h hready with hcount | hpart
      · have hwhole : ¬ LastMissing read := fun hmissing =>
          Nat.succ_ne_self _ (hmissing.1.trans hcount.symm)
        rw [or_iff_left hwhole, and_iff_right hcount]
      · have hne : ∀ hmissing : ¬ LastMissing read, ¬ BeginsWithMagic stream := by
          intro hmissing
          simpa only [if_neg hmissing] using hpart
        by_cases hmissing : LastMissing read
        · simp only [if_pos hmissing] at hpart
          exact iff_of_true (.inr hmissing) hpart.1
        · exact iff_of_false (fun hor => hor.elim (fun hw => hne hmissing hw.2) hmissing)
            (hne hmissing)
    · obtain ⟨hready, ⟨hcount, -⟩ | hmissing⟩ := initializeAsClient_iff.mp hestablished
      · exact receiveThreadProc_of_whole hcount
      · have hpart := (h hready).resolve_left fun hcount =>
          Nat.succ_ne_self _ (hmissing.1.trans hcount.symm)
        simp only [if_pos hmissing] at hpart
        exact (receiveThreadProc_of_lastMissing hmissing hpart.1).mpr hpart.2

end Agrees

/-- The sides do what they should exactly if the read of a connection that is not refused for
another reason takes the whole packet, or does so in effect. -/
theorem handshake_agrees_iff (side : Side) (c : Calls) (acceptBuffer : List UInt8)
    (read : FirstRead stream) :
    Agrees side c acceptBuffer read ↔ (side.Ready c → ReadWhole side read) := by
  cases side with
  | client => exact agrees_client_iff
  | server => exact agrees_server_iff

/-- The packet arrives in two segments, the first of one byte. -/
theorem split_packet_refused :
    ¬ ∀ (side : Side) (c : Calls) (acceptBuffer stream : List UInt8) (read : FirstRead stream),
      Agrees side c acceptBuffer read := by
  intro h
  have hclient := h .client ⟨true, true, true, true, true, true, true, true, true⟩ []
    MAGIC_PACKET ⟨1, by decide, by decide, fun _ => by decide⟩
  have hestablished := hclient.establishes.mpr (by simp [Side.Ready, BeginsWithMagic])
  exact absurd hestablished (by decide)

end MiscProjects.NfpConnections.Handshake
