import MiscProjects.NameService.Bounds
import MiscProjects.NameService.ClassInfos
import MiscProjects.NameService.Framing

/-!
# The loop that reads the requests

One turn of the loop in `main`: a connection is accepted, a request is read, and it is served.
Nobody looks at how much `readdata` has read.  What it has not read keeps the value of an earlier
turn, and `readdata` closes the socket by itself when the connection ends or fails.

An access outside the buffer and outside the block that has been allocated is `none`, as is a
request that takes the service down.
-/

namespace MiscProjects.NameService

open MiscProjects.Memory

/-! ## Connections -/

/-- An accepted connection: the bytes that arrive on it, how it ends after them, and how often its
socket has been closed.  `recv` returns at most one byte more than the next number of
`deliveries`. -/
structure Connection where
  incoming : List UInt8
  deliveries : List ℕ
  fails : Bool
  closes : ℕ
deriving DecidableEq

def Connection.accepted (incoming : List UInt8) (deliveries : List ℕ) (fails : Bool) :
    Connection :=
  ⟨incoming, deliveries, fails, 0⟩

inductive RecvResult
  | bytes (received : List UInt8)
  | closed
  | socketError
deriving DecidableEq

namespace Connection

def closesocket (c : Connection) : Connection := { c with closes := c.closes + 1 }

/-- `recv` with room for `n` bytes; on a socket that is closed it fails. -/
def recv (c : Connection) (n : ℕ) : RecvResult × Connection :=
  if c.closes ≠ 0 then (.socketError, c)
  else if c.incoming = [] then (if c.fails then .socketError else .closed, c)
  else
    let k := min n (c.deliveries.headD 0 + 1)
    (.bytes (c.incoming.take k),
      { c with incoming := c.incoming.drop k, deliveries := c.deliveries.tail })

/-- The loop of `readdata`, for as many rounds as the buffer has bytes. -/
def readLoop : ℕ → ReadCall → Connection → ReadCall × Connection
  | 0, call, c => (call, c)
  | rounds + 1, call, c =>
      if call.loops then
        match c.recv (call.buffersz - call.buffer.length) with
        | (.bytes received, c) => readLoop rounds (call.round received) c
        | (_, c) => (call, c.closesocket)
      else (call, c)

/-- `readdata`: what has been read. -/
def readdata (c : Connection) (buffersz : ℕ) (bytesread : BitVec 32) : List UInt8 × Connection :=
  let (call, c) := readLoop buffersz ⟨buffersz, bytesread, []⟩ c
  (call.buffer, c)

end Connection

/-! ## What is read -/

/-- The variables of `main` that a request is read into. -/
structure Locals where
  action : UInt8
  bytes2follow : BitVec 32
  classguid : Guid
  hQuery : Handle
  sixteen : classguid.length = 16

/-- What is in a variable after some bytes have been read into it. -/
def overwrite (bytes old : List UInt8) : List UInt8 :=
  bytes.take old.length ++ old.drop bytes.length

theorem length_overwrite (bytes old : List UInt8) : (overwrite bytes old).length = old.length := by
  rw [overwrite, List.length_append, List.length_take, List.length_drop]
  omega

def Locals.setAction (l : Locals) (bytes : List UInt8) : Locals :=
  { l with action := (overwrite bytes [l.action]).headD 0 }

def Locals.setBytes2follow (l : Locals) (bytes : List UInt8) : Locals :=
  { l with bytes2follow := intAt (overwrite bytes (intBytes l.bytes2follow)) }

def Locals.setClassguid (l : Locals) (bytes : List UInt8) : Locals :=
  { l with
    classguid := overwrite bytes l.classguid
    sixteen := by rw [length_overwrite, l.sixteen] }

def Locals.setHQuery (l : Locals) (bytes : List UInt8) : Locals :=
  { l with hQuery := intAt (overwrite bytes (intBytes l.hQuery)) }

def readAction (l : Locals) (c : Connection) : Locals × Connection :=
  let (bytes, c) := c.readdata 1 1
  (l.setAction bytes, c)

/-- The bytes of a structure that have been received, and the size of the block for it. -/
structure Body where
  received : List UInt8
  size : ℕ

/-- The length and the structure.  `readdata` replaces the length by the number of bytes that it has
read. -/
def readBody (l : Locals) (c : Connection) : Body × Locals × Connection :=
  let (bytes, c) := c.readdata 4 4
  let l := l.setBytes2follow bytes
  let (received, c) := c.readdata bufferSz l.bytes2follow
  let l' := { l with bytes2follow := BitVec.ofNat 32 received.length }
  -- for a lookup the block is allocated before the structure is read
  if l.action.toNat = mynspLookupServiceBegin then (⟨received, l.bytes2follow.toNat⟩, l', c)
  else (⟨received, l'.bytes2follow.toNat⟩, l', c)

/-! ## The memory -/

/-- The memory of the service, its `buf` and what `GlobalAlloc` returns. -/
structure Process where
  m : Mem
  buf : ℕ
  globalAlloc : ℕ → Option ℕ
  buffer : buf + bufferSz ≤ 2 ^ 32
  apart : ∀ size, ∀ dest ∈ globalAlloc size, Region.Apart ⟨buf, bufferSz⟩ ⟨dest, size⟩
  inside : ∀ size, ∀ dest ∈ globalAlloc size, dest + size < 2 ^ 32

/-- The structure is in the buffer, which has been cleared before, and the block is new. -/
def Process.memory (p : Process) (body : Body) (dest : ℕ) : Mem := fun a =>
  if dest ≤ a ∧ a < dest + body.size then 0
  else if p.buf ≤ a ∧ a < p.buf + bufferSz then body.received.getD (a - p.buf) 0
  else p.m a

/-- The request that a structure is demarshalled to. -/
def Process.request (p : Process) (action : ℕ) (body : Body) : Option Request := do
  let dest ← p.globalAlloc body.size
  let b : Bounds := ⟨⟨p.buf, bufferSz⟩, ⟨dest, body.size⟩⟩
  if action = mynspRegisterClass then do
    let d ← b.deMarshallServiceClassInfo (p.memory body dest) dest p.buf
    let id ← dataAt d.m dest lpServiceClassIdOfClass
    some (.registerClass ⟨id, bytesAt d.m dest 16⟩)
  else do
    let d ← b.deMarshallServiceInfo (p.memory body dest) dest p.buf
    let si ← querySetAt d.m dest
    if action = mynspRegisterService then some (.registerService si)
    else if action = mynspDeregisterService then some (.deregisterService si)
    else some (.lookupServiceBegin si)

/-! ## The turn -/

/-- What a turn leaves behind; an unknown action has no answer. -/
structure Turn where
  server : Server
  answer : Option Response
  locals : Locals
  connection : Connection

section Names
variable (lstrcmpW : Name → Name → Bool)

/-- The end of every case of the `switch`. -/
def answerAndClose (s : Server) (r : Request) (l : Locals) (c : Connection) : Option Turn :=
  (serve lstrcmpW s r).map fun (s, answer) => ⟨s, some answer, l, c.closesocket⟩

/-- The `switch` over the action, which has no default. -/
def decode (p : Process) (l : Locals) (c : Connection) (s : Server) : Option Turn :=
  let action := l.action.toNat
  if hasBody action then
    let (body, l, c) := readBody l c
    (p.request action body).bind fun r => answerAndClose lstrcmpW s r l c
  else if hasGuid action then
    let (bytes, c) := c.readdata 16 16
    let l := l.setClassguid bytes
    if action = mynspDeregisterClass then
      answerAndClose lstrcmpW s (.deregisterClass l.classguid) l c
    else answerAndClose lstrcmpW s (.lookupClass l.classguid) l c
  else if hasHandle action then
    let (bytes, c) := c.readdata 4 4
    let l := l.setHQuery bytes
    if action = mynspLookupServiceNext then
      answerAndClose lstrcmpW s (.lookupServiceNext l.hQuery) l c
    else answerAndClose lstrcmpW s (.lookupServiceEnd l.hQuery) l c
  else some ⟨s, none, l, c⟩

/-- One turn of the loop in `main`. -/
def turn (p : Process) (l : Locals) (c : Connection) (s : Server) : Option Turn :=
  let (l, c) := readAction l c
  decode lstrcmpW p l c s

end Names

/-! ## `readdata` -/

section Reading
variable {c c' : Connection} {call call' : ReadCall} {buffersz rounds : ℕ}
  {bytesread : BitVec 32} {bytes : List UInt8}

/-- What the loop of `readdata` does on a socket that is open: it takes bytes until it has enough,
or until there are no more and it closes the socket. -/
structure ReadFrom (c : Connection) (call : ReadCall) (c' : Connection) (call' : ReadCall) :
    Prop where
  buffersz : call'.buffersz = call.buffersz
  taken : ∃ taken, call'.buffer = call.buffer ++ taken ∧ c.incoming = taken ++ c'.incoming ∧
    call'.nLeft = call.nLeft - BitVec.ofNat 32 taken.length
  fits : call'.buffer.length ≤ call.buffersz
  stopped : c'.closes = 0 ∧ call'.loops = false ∨
    c'.closes = 1 ∧ c'.incoming = [] ∧ call'.loops = true

theorem ReadCall.room (h : call.loops = true) : call.buffer.length < call.buffersz := by
  rw [ReadCall.loops, Bool.and_eq_true, decide_eq_true_eq] at h
  exact h.2

theorem ReadFrom.round {received rest : List UInt8} {deliveries : List ℕ}
    (hincoming : c.incoming = received ++ rest)
    (h : ReadFrom { c with incoming := rest, deliveries := deliveries } (call.round received)
      c' call') : ReadFrom c call c' call' := by
  obtain ⟨taken, hbuffer, htaken, hleft⟩ := h.taken
  constructor
  case buffersz => exact h.buffersz
  case taken =>
    refine ⟨received ++ taken, ?_, ?_, ?_⟩
    · rw [hbuffer, ReadCall.round, List.append_assoc]
    · rw [hincoming, List.append_assoc]
      exact congrArg _ htaken
    · rw [hleft, ReadCall.round, List.length_append, BitVec.ofNat_add, BitVec.sub_sub]
  case fits => exact h.fits
  case stopped => exact h.stopped

theorem readFrom_enough (hopen : c.closes = 0) (hfits : call.buffer.length ≤ call.buffersz)
    (henough : call.loops = false) : ReadFrom c call c call := by
  refine ⟨rfl, ⟨[], ?_, rfl, ?_⟩, hfits, .inl ⟨hopen, henough⟩⟩
  · rw [List.append_nil]
  · exact (BitVec.sub_zero _).symm

theorem readFrom_closes (hopen : c.closes = 0) (hempty : c.incoming = [])
    (hloops : call.loops = true) : ReadFrom c call c.closesocket call := by
  have hroom := ReadCall.room hloops
  refine ⟨rfl, ⟨[], ?_, rfl, ?_⟩, Nat.le_of_lt hroom, .inr ⟨?_, hempty, hloops⟩⟩
  · rw [List.append_nil]
  · exact (BitVec.sub_zero _).symm
  · rw [Connection.closesocket, hopen]

theorem readLoop_open (hopen : c.closes = 0) (hfits : call.buffer.length ≤ call.buffersz)
    (hrounds : call.buffersz ≤ call.buffer.length + rounds) :
    ReadFrom c call (Connection.readLoop rounds call c).2
      (Connection.readLoop rounds call c).1 := by
  induction rounds generalizing c call with
  | zero =>
      refine readFrom_enough hopen hfits ?_
      rw [ReadCall.loops, Bool.and_eq_false_iff, decide_eq_false_iff_not]
      exact .inr (by omega)
  | succ rounds ih =>
      rw [Connection.readLoop]
      by_cases hloops : call.loops = true
      · have hroom := ReadCall.room hloops
        rw [if_pos hloops, Connection.recv, if_neg (not_not_intro hopen)]
        by_cases hempty : c.incoming = []
        · rw [if_pos hempty]
          by_cases hfails : c.fails = true
          · rw [if_pos hfails]
            exact readFrom_closes hopen hempty hloops
          · rw [if_neg hfails]
            exact readFrom_closes hopen hempty hloops
        · rw [if_neg hempty]
          have hpos := List.length_pos_iff.mpr hempty
          have htaken : (c.incoming.take (min (call.buffersz - call.buffer.length)
              (c.deliveries.headD 0 + 1))).length =
              min (min (call.buffersz - call.buffer.length) (c.deliveries.headD 0 + 1))
                c.incoming.length := List.length_take
          refine .round (List.take_append_drop _ _).symm (ih hopen ?_ ?_)
          · rw [ReadCall.round, List.length_append, htaken]
            dsimp only
            omega
          · rw [ReadCall.round, List.length_append, htaken]
            dsimp only
            omega
      · rw [if_neg hloops]
        exact readFrom_enough hopen hfits (Bool.eq_false_of_not_eq_true hloops)

theorem readLoop_closed (hclosed : c.closes ≠ 0) : (Connection.readLoop rounds call c).1 = call ∧
      c.closes ≤ (Connection.readLoop rounds call c).2.closes := by
  induction rounds with
  | zero => exact ⟨rfl, Nat.le_refl _⟩
  | succ rounds _ =>
      rw [Connection.readLoop]
      by_cases hloops : call.loops = true
      · rw [if_pos hloops, Connection.recv, if_pos hclosed]
        exact ⟨rfl, Nat.le_succ _⟩
      · rw [if_neg hloops]
        exact ⟨rfl, Nat.le_refl _⟩

theorem readdata_open (hopen : c.closes = 0) : ReadFrom c ⟨buffersz, bytesread, []⟩
      (Connection.readLoop buffersz ⟨buffersz, bytesread, []⟩ c).2
      (Connection.readLoop buffersz ⟨buffersz, bytesread, []⟩ c).1 :=
  readLoop_open hopen (Nat.zero_le _) (by dsimp only; omega)

theorem ReadFrom.enough (h : ReadFrom c ⟨buffersz, bytesread, []⟩ c' call')
    (hle : call'.buffer.length ≤ bytesread.toNat) (henough : call'.loops = false) :
    call'.buffer.length = bytesread.toNat ∨ call'.buffer.length = buffersz := by
  obtain ⟨taken, hbuffer, -, hleft⟩ := h.taken
  rw [List.nil_append] at hbuffer
  have hfits := h.fits
  rw [ReadCall.loops, Bool.and_eq_false_iff, decide_eq_false_iff_not, hleft, h.buffersz,
    bne_eq_false_iff_eq] at henough
  rcases henough with hzero | hfull
  · left
    have hlt := bytesread.isLt
    have htoNat : (bytesread - BitVec.ofNat 32 taken.length).toNat = 0 :=
      congrArg BitVec.toNat hzero
    rw [← hbuffer, BitVec.toNat_sub, BitVec.toNat_ofNat] at htoNat
    omega
  · right
    dsimp only at hfits hfull
    omega

theorem readdata_fits (c : Connection) (buffersz : ℕ) (bytesread : BitVec 32) :
    (c.readdata buffersz bytesread).1.length ≤ buffersz := by
  unfold Connection.readdata
  dsimp only
  by_cases hopen : c.closes = 0
  · exact (readdata_open hopen).fits
  · rw [(readLoop_closed hopen).1]
    exact Nat.zero_le _

theorem readdata_closes (c : Connection) (buffersz : ℕ) (bytesread : BitVec 32) :
    c.closes ≤ (c.readdata buffersz bytesread).2.closes := by
  by_cases hopen : c.closes = 0
  · rw [hopen]
    exact Nat.zero_le _
  · exact (readLoop_closed hopen).2

theorem readdata_short (hopen : c.closes = 0) (hshort : c.incoming.length < bytesread.toNat)
    (hroom : c.incoming.length < buffersz) : (c.readdata buffersz bytesread).2.closes = 1 ∧
      (c.readdata buffersz bytesread).1 = c.incoming := by
  have hfrom := @readdata_open c buffersz bytesread hopen
  unfold Connection.readdata
  dsimp only
  obtain ⟨taken, hbuffer, htaken, -⟩ := hfrom.taken
  rw [List.nil_append] at hbuffer
  have hlength := congrArg List.length htaken
  rw [List.length_append, ← hbuffer] at hlength
  rcases hfrom.stopped with ⟨-, henough⟩ | ⟨hcloses, hincoming, -⟩
  · rcases hfrom.enough (by omega) henough with hall | hfull
    · omega
    · omega
  · rw [hincoming, List.append_nil] at htaken
    rw [hbuffer, htaken]
    exact ⟨hcloses, rfl⟩

theorem readdata_full (hopen : c.closes = 0) (hsize : bytesread.toNat = buffersz)
    (hfull : buffersz ≤ c.incoming.length) : (c.readdata buffersz bytesread).2.closes = 0 ∧
      (c.readdata buffersz bytesread).1 = c.incoming.take buffersz ∧
      (c.readdata buffersz bytesread).2.incoming = c.incoming.drop buffersz := by
  have hfrom := @readdata_open c buffersz bytesread hopen
  unfold Connection.readdata
  dsimp only
  obtain ⟨taken, hbuffer, htaken, -⟩ := hfrom.taken
  rw [List.nil_append] at hbuffer
  have hfits : taken.length ≤ buffersz := hbuffer ▸ hfrom.fits
  have hlength := congrArg List.length htaken
  rw [List.length_append] at hlength
  have hall : taken.length = buffersz := by
    rcases hfrom.stopped with ⟨-, henough⟩ | ⟨-, hincoming, -⟩
    · have hequal := hfrom.enough (by rw [hbuffer, hsize]; exact hfits) henough
      rw [hbuffer, hsize, or_self] at hequal
      exact hequal
    · rw [hincoming, List.length_nil] at hlength
      omega
  refine ⟨?_, ?_, ?_⟩
  · rcases hfrom.stopped with ⟨hcloses, -⟩ | ⟨-, -, hloops⟩
    · exact hcloses
    · have hroom := ReadCall.room hloops
      rw [hbuffer, hall, hfrom.buffersz] at hroom
      exact absurd hroom (Nat.lt_irrefl _)
  · rw [hbuffer, htaken, ← hall, List.take_left]
  · rw [htaken, ← hall, List.drop_left]

theorem readBody_eq (l : Locals) (c : Connection) :
    ((readBody l c).1.received, (readBody l c).2.2) = (c.readdata 4 4).2.readdata bufferSz
      (l.setBytes2follow (c.readdata 4 4).1).bytes2follow := by
  unfold readBody
  dsimp only
  split
  · rfl
  · rfl

theorem readBody_fits (l : Locals) (c : Connection) :
    (readBody l c).1.received.length ≤ bufferSz := by
  have hfits := readdata_fits (c.readdata 4 4).2 bufferSz
    (l.setBytes2follow (c.readdata 4 4).1).bytes2follow
  rw [← readBody_eq] at hfits
  exact hfits

theorem readBody_connection (l : Locals) (c : Connection) :
    (readBody l c).2.2 = ((c.readdata 4 4).2.readdata bufferSz
      (l.setBytes2follow (c.readdata 4 4).1).bytes2follow).2 :=
  congrArg Prod.snd (readBody_eq l c)

end Reading

end MiscProjects.NameService
