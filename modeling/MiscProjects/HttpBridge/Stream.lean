import Mathlib.Data.List.Infix
import Mathlib.Logic.Function.Basic
import MiscProjects.Library.Runs

/-!
# A stream through HTTP requests

The client carries what it reads from the local socket to the bridge by `PUT` requests and
fetches what the bridge reads from the remote socket by `GET` requests.  Each direction is a
loop with a connection of its own.  A request that has come to the bridge is served by a
thread of the server, whatever becomes of its connection; if the client loses the connection
it repeats the request or gives up.

The model begins when the bridge has opened the remote socket.  `localRead` and
`remoteWritten`, `remoteRead` and `localWritten` are all the bytes that have been read from
and written to the two sockets.
-/

namespace MiscProjects.HttpBridge

open MiscProjects.Runs
open Function (update update_self update_of_ne)

abbrev Bytes := List UInt8

def MAXBUF : ℕ := 1024 * 640

/-! ## State -/

/-- What has become of the connection of a request that is at the bridge: the client waits
for the response, or has lost it and repeats the request, or has given up. -/
inductive Owner
  | waiting
  | repeated
  | givenUp
deriving DecidableEq

inductive Status
  | ok
  | gone
  | notFound
  | error
deriving DecidableEq

/-- A `PUT` request at the bridge, of which `written` bytes have been written. -/
structure Put where
  body : Bytes
  written : ℕ
  status : Option Status
  owner : Owner
deriving DecidableEq

/-- A `GET` request at the bridge; `body` is that of the response. -/
structure Get where
  status : Option Status
  body : Bytes
  owner : Owner
deriving DecidableEq

/-- Where the local read loop stands. -/
inductive PutLoop
  | reading
  | sending (buf : Bytes)
  | awaiting (buf : Bytes) (id : ℕ)
  | stopped
deriving DecidableEq

/-- Where the local write loop stands; `printed` bytes of the response have been written. -/
inductive GetLoop
  | looping
  | sending
  | awaiting (id printed : ℕ)
  | stopped
deriving DecidableEq

/-- From the local to the remote socket. -/
structure Up where
  loop : PutLoop
  puts : ℕ → Option Put
  nextPut : ℕ
  localRead : Bytes
  remoteWritten : Bytes

/-- From the remote to the local socket. -/
structure Down where
  loop : GetLoop
  gets : ℕ → Option Get
  nextGet : ℕ
  remoteRead : Bytes
  localWritten : Bytes

/-- `socketOpen`: the bridge has the remote socket; `broken`: writing to it has failed. -/
structure Bridge where
  connected : Bool
  sInClosed : Bool
  socketOpen : Bool
  broken : Bool
  up : Up
  down : Down

def Bridge.create : Bridge where
  connected := true
  sInClosed := false
  socketOpen := true
  broken := false
  up := { loop := .reading, puts := fun _ => none, nextPut := 0
          localRead := [], remoteWritten := [] }
  down := { loop := .looping, gets := fun _ => none, nextGet := 0
            remoteRead := [], localWritten := [] }

/-- The exceptions that the loops tell apart. -/
inductive HttpException
  | epipe
  | ioError
  | eof
  | refused
  | timeout
  | other
deriving DecidableEq

/-- How a write to the remote socket fails. -/
inductive WriteFailure
  | epipe
  | other
  | missing
deriving DecidableEq

inductive ReadFailure
  | eof
  | other
  | missing
deriving DecidableEq

inductive Action
  /-- `sIn.readpartial`. -/
  | readLocal (bytes : Bytes)
  | localEof
  /-- The loop ends: it is no longer connected, or `sIn` is closed. -/
  | leave
  /-- `CTRL+C`, `SIGHUP` or `SIGTERM`. -/
  | signal
  | putArrives
  | putAnswer
  | putLost (e : HttpException)
  | write (id n : ℕ)
  | writeDone (id : ℕ)
  | writeFails (id : ℕ) (failure : WriteFailure)
  /-- The test of the loop. -/
  | getStart
  | getArrives
  /-- `sOut.print` of a piece of the response. -/
  | print (n : ℕ)
  | getAnswer
  | getLost (e : HttpException)
  /-- `s.readpartial`. -/
  | readRemote (id : ℕ) (bytes : Bytes)
  | readFails (id : ℕ) (failure : ReadFailure)
deriving DecidableEq

/-! ## The client -/

namespace Up

def setPut (id : ℕ) (p : Put) (u : Up) : Up := { u with puts := update u.puts id (some p) }

/-- The request in hand, if it has come to the bridge. -/
def current (u : Up) : Option (ℕ × Put) :=
  match u.loop with
  | .awaiting _ id => (u.puts id).map fun p => (id, p)
  | _ => none

/-- The connection of the request in hand is lost. -/
def abandon (owner : Owner) (u : Up) : Up :=
  match u.current with
  | some (id, p) => u.setPut id { p with owner := owner }
  | none => u

end Up

namespace Down

def setGet (id : ℕ) (g : Get) (d : Down) : Down := { d with gets := update d.gets id (some g) }

def current (d : Down) : Option (ℕ × Get) :=
  match d.loop with
  | .awaiting id _ => (d.gets id).map fun g => (id, g)
  | _ => none

def abandon (owner : Owner) (d : Down) : Down :=
  match d.current with
  | some (id, g) => d.setGet id { g with owner := owner }
  | none => d

/-- How much has been printed of the response in hand. -/
def printed (d : Down) : ℕ :=
  match d.loop with
  | .awaiting _ printed => printed
  | _ => 0

end Down

/-- The buffer that is kept between retries. -/
def PutLoop.buf : PutLoop → Option Bytes
  | .sending buf => some buf
  | .awaiting buf _ => some buf
  | _ => none

/-- An exception in `http.put`. -/
def putRescue (e : HttpException) (buf : Bytes) (s : Bridge) : Bridge :=
  let stop := { s with up := { s.up.abandon .givenUp with loop := .stopped } }
  let retry := { s with up := { s.up.abandon .repeated with loop := .sending buf } }
  match e with
  | .eof => { stop with connected := false }
  | .epipe => if s.sInClosed then stop else retry
  | .ioError => if s.sInClosed then stop else retry
  | _ => stop

/-- An exception in `http.get` or `sOut.print`. -/
def getRescue (e : HttpException) (s : Bridge) : Bridge :=
  let stop := { s with down := { s.down.abandon .givenUp with loop := .stopped } }
  let retry := { s with down := { s.down.abandon .repeated with loop := .looping } }
  match e with
  | .epipe => { stop with sInClosed := true }
  | .eof => if s.sInClosed then stop else retry
  | .refused => { stop with sInClosed := true }
  | .timeout => if s.sInClosed then stop else retry
  | _ => stop

/-- The response to a `PUT` request. -/
def putResponse (status : Status) (s : Bridge) : Bridge :=
  if status = .gone then
    { s with sInClosed := true, connected := false, up := { s.up with loop := .stopped } }
  else { s with up := { s.up with loop := .reading } }

/-- The response to a `GET` request, when all of it has been printed. -/
def getResponse (status : Status) (s : Bridge) : Bridge :=
  match status with
  | .gone =>
      { s with connected := false, sInClosed := true, down := { s.down with loop := .stopped } }
  | .notFound => { s with connected := false, down := { s.down with loop := .stopped } }
  | _ => { s with down := { s.down with loop := .looping } }

/-! ## The server -/

/-- `do_PUT` when the bytes cannot be written: `closeSocket` and 410, 500 for an exception that
is not rescued, and 404 if there is no socket. -/
def doPutFails (id : ℕ) (p : Put) (failure : WriteFailure) (s : Bridge) : Option Bridge :=
  match failure with
  | .epipe => some { s with
      broken := true, socketOpen := false, up := s.up.setPut id { p with status := some .gone } }
  | .other => some { s with
      broken := true, up := s.up.setPut id { p with status := some .error } }
  | .missing =>
      if s.socketOpen then none
      else some { s with up := s.up.setPut id { p with status := some .notFound } }

/-- `do_GET` when there is nothing to read: `closeSocket` and 410; an empty response for an
exception of another kind, and 404 if there is no socket. -/
def doGetFails (id : ℕ) (g : Get) (failure : ReadFailure) (s : Bridge) : Option Bridge :=
  match failure with
  | .eof => some { s with
      socketOpen := false, down := s.down.setGet id { g with status := some .gone } }
  | .other => some { s with down := s.down.setGet id { g with status := some .ok } }
  | .missing =>
      if s.socketOpen then none
      else some { s with down := s.down.setGet id { g with status := some .notFound } }

def step (s : Bridge) : Action → Option Bridge
  | .readLocal bytes =>
      if s.up.loop = .reading ∧ s.connected = true ∧ s.sInClosed = false ∧ bytes ≠ [] ∧
          bytes.length ≤ MAXBUF then
        some { s with up := { s.up with
          loop := .sending bytes, localRead := s.up.localRead ++ bytes } }
      else none
  | .localEof =>
      if s.up.loop = .reading ∧ s.connected = true then
        some { s with connected := false, up := { s.up with loop := .stopped } }
      else none
  | .leave =>
      if s.up.loop = .reading ∧ (s.connected = false ∨ s.sInClosed = true) then
        some { s with up := { s.up with loop := .stopped } }
      else none
  | .signal => some { s with sInClosed := true }
  | .putArrives =>
      match s.up.loop with
      | .sending buf => some { s with up := { s.up.setPut s.up.nextPut ⟨buf, 0, none, .waiting⟩ with
          loop := .awaiting buf s.up.nextPut, nextPut := s.up.nextPut + 1 } }
      | _ => none
  | .putAnswer =>
      match s.up.loop with
      | .awaiting _ id => do
          let p ← s.up.puts id
          let status ← p.status
          some (putResponse status s)
      | _ => none
  | .putLost e => do
      let buf ← s.up.loop.buf
      some (putRescue e buf s)
  | .write id n => do
      let p ← s.up.puts id
      if p.status = none ∧ s.socketOpen = true ∧ s.broken = false ∧ 0 < n ∧
          p.written + n ≤ p.body.length then
        some { s with up := { s.up.setPut id { p with written := p.written + n } with
          remoteWritten := s.up.remoteWritten ++ (p.body.drop p.written).take n } }
      else none
  | .writeDone id => do
      let p ← s.up.puts id
      if p.status = none ∧ p.written = p.body.length then
        some { s with up := s.up.setPut id { p with status := some .ok } }
      else none
  | .writeFails id failure => do
      let p ← s.up.puts id
      if p.status = none then doPutFails id p failure s else none
  | .getStart =>
      if s.down.loop = .looping then
        some { s with down := { s.down with
          loop := if s.connected then .sending else .stopped } }
      else none
  | .getArrives =>
      if s.down.loop = .sending then
        some { s with down := { s.down.setGet s.down.nextGet ⟨none, [], .waiting⟩ with
          loop := .awaiting s.down.nextGet 0, nextGet := s.down.nextGet + 1 } }
      else none
  | .print n =>
      match s.down.loop with
      | .awaiting id printed => do
          let g ← s.down.gets id
          if g.status ≠ none ∧ 0 < n ∧ printed + n ≤ g.body.length then
            some { s with down := { s.down with
              loop := .awaiting id (printed + n)
              localWritten := s.down.localWritten ++ (g.body.drop printed).take n } }
          else none
      | _ => none
  | .getAnswer =>
      match s.down.loop with
      | .awaiting id printed => do
          let g ← s.down.gets id
          let status ← g.status
          if printed = g.body.length then some (getResponse status s) else none
      | _ => none
  | .getLost e =>
      match s.down.loop with
      | .sending => some (getRescue e s)
      | .awaiting _ _ => some (getRescue e s)
      | _ => none
  | .readRemote id bytes => do
      let g ← s.down.gets id
      if g.status = none ∧ s.socketOpen = true ∧ bytes ≠ [] ∧ bytes.length ≤ MAXBUF then
        some { s with down := { s.down.setGet id { g with status := some .ok, body := bytes } with
          remoteRead := s.down.remoteRead ++ bytes } }
      else none
  | .readFails id failure => do
      let g ← s.down.gets id
      if g.status = none then doGetFails id g failure s else none

/-! ## Statement -/

/-- What has been written to each socket is the beginning of what has been read from the
other one. -/
def Reliable (s : Bridge) : Prop :=
  s.up.remoteWritten <+: s.up.localRead ∧ s.down.localWritten <+: s.down.remoteRead

/-- No request is repeated that the bridge has begun to execute, or executes later: no byte
of it has been written, and all that has been read for it has been printed, unless the remote
socket is of no more use. -/
def Undisturbed (s : Bridge) : Action → Prop
  | .putLost e =>
      e = .epipe ∨ e = .ioError → s.sInClosed = false → s.socketOpen = true → s.broken = false →
        ∀ c ∈ s.up.current, c.2.written = 0
  | .write id _ => ∀ p ∈ s.up.puts id, p.owner ≠ .repeated
  | .getLost e =>
      e = .eof ∨ e = .timeout → s.sInClosed = false → s.socketOpen = true →
        ∀ c ∈ s.down.current, c.2.body.length ≤ s.down.printed
  | .readRemote id _ => ∀ g ∈ s.down.gets id, g.owner = .repeated → s.down.loop = .stopped
  | _ => True

instance (s : Bridge) (a : Action) : Decidable (Undisturbed s a) :=
  match a with
  | .readLocal _ => inferInstanceAs (Decidable True)
  | .localEof => inferInstanceAs (Decidable True)
  | .leave => inferInstanceAs (Decidable True)
  | .signal => inferInstanceAs (Decidable True)
  | .putArrives => inferInstanceAs (Decidable True)
  | .putAnswer => inferInstanceAs (Decidable True)
  | .putLost _ => inferInstanceAs (Decidable (_ → _ → _ → _ → ∀ c ∈ s.up.current, _))
  | .write id _ => inferInstanceAs (Decidable (∀ p ∈ s.up.puts id, _))
  | .writeDone _ => inferInstanceAs (Decidable True)
  | .writeFails .. => inferInstanceAs (Decidable True)
  | .getStart => inferInstanceAs (Decidable True)
  | .getArrives => inferInstanceAs (Decidable True)
  | .print _ => inferInstanceAs (Decidable True)
  | .getAnswer => inferInstanceAs (Decidable True)
  | .getLost _ => inferInstanceAs (Decidable (_ → _ → _ → ∀ c ∈ s.down.current, _))
  | .readRemote id _ => inferInstanceAs (Decidable (∀ g ∈ s.down.gets id, _ → _))
  | .readFails .. => inferInstanceAs (Decidable True)

/-! ## From the local to the remote socket -/

namespace Up

/-- The request is being executed, and the client does not repeat it. -/
def Active (u : Up) (id : ℕ) (p : Put) : Prop :=
  u.puts id = some p ∧ p.status = none ∧ p.owner ≠ .repeated

/-- What the place of the loop says, `usable` being that the remote socket can be written. -/
def LoopHolds (usable : Prop) (u : Up) : Prop :=
  match u.loop with
  | .reading => (∀ id p, ¬ u.Active id p) ∧ (usable → u.remoteWritten = u.localRead)
  | .sending buf => buf ≠ [] ∧ (∀ id p, ¬ u.Active id p) ∧
      (usable → u.remoteWritten ++ buf = u.localRead)
  | .awaiting buf id => buf ≠ [] ∧ (∀ id' p', u.Active id' p' → id' = id) ∧
      ∃ p, u.puts id = some p ∧ p.body = buf ∧
        (usable → u.remoteWritten ++ buf.drop p.written = u.localRead) ∧
        (p.status ≠ none → usable → p.written = buf.length)
  | .stopped => ∀ id id' p p', u.Active id p → u.Active id' p' → id = id'

structure Holds (usable : Prop) (u : Up) : Prop where
  sent : u.remoteWritten <+: u.localRead
  owed : ∀ id p, u.Active id p → usable →
    u.remoteWritten ++ p.body.drop p.written = u.localRead
  fresh : ∀ id, u.nextPut ≤ id → u.puts id = none
  loop : u.LoopHolds usable

variable {usable usable' : Prop} {u : Up} {id id' n : ℕ} {p p' : Put} {buf bytes : Bytes}

theorem Holds.mono (h : u.Holds usable) (husable : usable' → usable) : u.Holds usable' := by
  refine ⟨h.sent, fun id p hactive hu => h.owed id p hactive (husable hu), h.fresh, ?_⟩
  have hloop := h.loop
  unfold LoopHolds at hloop ⊢
  split
  · next hl =>
    rw [hl] at hloop
    exact ⟨hloop.1, fun hu => hloop.2 (husable hu)⟩
  · next hl =>
    rw [hl] at hloop
    exact ⟨hloop.1, hloop.2.1, fun hu => hloop.2.2 (husable hu)⟩
  · next hl =>
    rw [hl] at hloop
    obtain ⟨hne, honly, p, hp, hbody, howed, hdone⟩ := hloop
    exact ⟨hne, honly, p, hp, hbody, fun hu => howed (husable hu),
      fun hstatus hu => hdone hstatus (husable hu)⟩
  · next hl =>
    rw [hl] at hloop
    exact hloop

theorem setPut_self (u : Up) (id : ℕ) (p : Put) : (u.setPut id p).puts id = some p := update_self ..

theorem setPut_of_ne (u : Up) (p : Put) (h : id' ≠ id) : (u.setPut id p).puts id' = u.puts id' :=
  update_of_ne h ..

theorem active_setPut (h : (u.setPut id p).Active id' p') :
    (id' = id ∧ p' = p ∧ p.status = none ∧ p.owner ≠ .repeated) ∨ (id' ≠ id ∧ u.Active id' p') := by
  obtain ⟨hp', hstatus, howner⟩ := h
  by_cases hid : id' = id
  · subst hid
    rw [setPut_self] at hp'
    obtain rfl := Option.some.inj hp'
    exact .inl ⟨rfl, rfl, hstatus, howner⟩
  · rw [setPut_of_ne u p hid] at hp'
    exact .inr ⟨hid, hp', hstatus, howner⟩

namespace Holds

theorem lt_nextPut (h : u.Holds usable) (hp : u.puts id = some p) : id < u.nextPut := by
  by_contra hle
  rw [h.fresh id (Nat.le_of_not_lt hle)] at hp
  cases hp

theorem fresh_setPut (h : u.Holds usable) (hp : u.puts id = some p) (q : Put) :
    ∀ id', u.nextPut ≤ id' → (u.setPut id q).puts id' = none := by
  intro id' hid'
  have hne : id' ≠ id := Nat.ne_of_gt ((h.lt_nextPut hp).trans_le hid')
  rw [setPut_of_ne u q hne]
  exact h.fresh id' hid'

theorem readLocal (h : u.Holds usable) (hloop : u.loop = .reading) (hne : bytes ≠ []) :
    ({ u with loop := .sending bytes, localRead := u.localRead ++ bytes } : Up).Holds usable := by
  have hreading := h.loop
  unfold LoopHolds at hreading
  rw [hloop] at hreading
  constructor
  · exact h.sent.trans (List.prefix_append ..)
  · intro id p hactive
    exact absurd hactive (hreading.1 id p)
  · exact h.fresh
  · refine ⟨hne, hreading.1, ?_⟩
    intro hu
    change u.remoteWritten ++ bytes = u.localRead ++ bytes
    rw [hreading.2 hu]

theorem stop (h : u.Holds usable) (hloop : u.loop = .reading) :
    ({ u with loop := .stopped } : Up).Holds usable := by
  have hreading := h.loop
  unfold LoopHolds at hreading
  rw [hloop] at hreading
  refine ⟨h.sent, h.owed, h.fresh, ?_⟩
  intro id id' p p' hactive
  exact absurd hactive (hreading.1 id p)

theorem putArrives (h : u.Holds usable) (hloop : u.loop = .sending buf) :
    ({ u.setPut u.nextPut ⟨buf, 0, none, .waiting⟩ with
      loop := .awaiting buf u.nextPut, nextPut := u.nextPut + 1 } : Up).Holds usable := by
  have hsending := h.loop
  unfold LoopHolds at hsending
  rw [hloop] at hsending
  obtain ⟨hne, hnone, hequal⟩ := hsending
  have hactive : ∀ id p, (u.setPut u.nextPut ⟨buf, 0, none, .waiting⟩).Active id p →
      id = u.nextPut ∧ p = ⟨buf, 0, none, .waiting⟩ := by
    intro id p hactive
    rcases active_setPut hactive with ⟨hid, hp, -, -⟩ | ⟨-, hold⟩
    · exact ⟨hid, hp⟩
    · exact absurd hold (hnone id p)
  constructor
  · exact h.sent
  · intro id p hp hu
    obtain ⟨-, rfl⟩ := hactive id p hp
    exact hequal hu
  · intro id hid
    have hne : id ≠ u.nextPut := Nat.ne_of_gt hid
    exact (setPut_of_ne u _ hne).trans (h.fresh id (Nat.le_of_succ_le hid))
  · refine ⟨hne, fun id p hp => (hactive id p hp).1, _, setPut_self .., rfl, hequal, ?_⟩
    intro hstatus
    exact absurd rfl hstatus

theorem putAnswer (h : u.Holds usable) (hloop : u.loop = .awaiting buf id)
    (hp : u.puts id = some p) (hstatus : p.status ≠ none) :
    ({ u with loop := .stopped } : Up).Holds usable ∧
      ({ u with loop := .reading } : Up).Holds usable := by
  have hawaiting := h.loop
  unfold LoopHolds at hawaiting
  rw [hloop] at hawaiting
  obtain ⟨-, honly, q, hq, -, howed, hdone⟩ := hawaiting
  obtain rfl := Option.some.inj (hp.symm.trans hq)
  have hnone : ∀ id' p', ¬ u.Active id' p' := by
    intro id' p' hactive
    obtain rfl := honly id' p' hactive
    obtain rfl := Option.some.inj (hp.symm.trans hactive.1)
    exact hstatus hactive.2.1
  refine ⟨⟨h.sent, h.owed, h.fresh, ?_⟩, ⟨h.sent, h.owed, h.fresh, hnone, ?_⟩⟩
  · intro id id' p p' hactive
    exact absurd hactive (hnone id p)
  · intro hu
    have hequal := howed hu
    rwa [hdone hstatus hu, List.drop_length, List.append_nil] at hequal

theorem abandon_eq (owner : Owner) (hloop : u.loop = .awaiting buf id) (hp : u.puts id = some p) :
    u.abandon owner = u.setPut id { p with owner := owner } := by
  unfold abandon current
  rw [hloop]
  dsimp only
  rw [hp]
  rfl

theorem single (h : u.Holds usable) (hp : u.Active id p) (hp' : u.Active id' p') : id = id' := by
  have hloop := h.loop
  unfold LoopHolds at hloop
  split at hloop
  · exact absurd hp (hloop.1 id p)
  · exact absurd hp (hloop.2.1 id p)
  · rw [hloop.2.1 id p hp, hloop.2.1 id' p' hp']
  · exact hloop id id' p p' hp hp'

theorem giveUp (h : u.Holds usable) (hbuf : u.loop.buf = some buf) :
    ({ u.abandon .givenUp with loop := .stopped } : Up).Holds usable := by
  have hloop := h.loop
  unfold LoopHolds at hloop
  split at hloop
  · next hl =>
    rw [hl] at hbuf
    cases hbuf
  · next hl =>
    have habandon : u.abandon .givenUp = u := by
      unfold abandon current
      rw [hl]
    rw [habandon]
    refine ⟨h.sent, h.owed, h.fresh, ?_⟩
    intro id id' p p' hactive
    exact absurd hactive (hloop.2.1 id p)
  · next buf' id hl =>
    obtain ⟨-, honly, p, hp, hbody', howed, -⟩ := hloop
    rw [abandon_eq .givenUp hl hp]
    have hactive : ∀ id' p', (u.setPut id { p with owner := .givenUp }).Active id' p' →
        id' = id ∧ p'.body = p.body ∧ p'.written = p.written := by
      intro id' p' hactive
      rcases active_setPut hactive with ⟨hid, rfl, -, -⟩ | ⟨hne, hold⟩
      · exact ⟨hid, rfl, rfl⟩
      · exact absurd (honly id' p' hold) hne
    constructor
    · exact h.sent
    · intro id' p' hp' hu
      obtain ⟨rfl, hbody, hwritten⟩ := hactive id' p' hp'
      rw [hbody, hwritten, hbody']
      exact howed hu
    · exact h.fresh_setPut hp _
    · intro id₁ id₂ p₁ p₂ h₁ h₂
      rw [(hactive id₁ p₁ h₁).1, (hactive id₂ p₂ h₂).1]
  · next hl =>
    rw [hl] at hbuf
    cases hbuf

theorem retry (h : u.Holds usable) (hbuf : u.loop.buf = some buf)
    (hzero : usable → ∀ c ∈ u.current, c.2.written = 0) :
    ({ u.abandon .repeated with loop := .sending buf } : Up).Holds usable := by
  have hloop := h.loop
  unfold LoopHolds at hloop
  split at hloop
  · next hl =>
    rw [hl] at hbuf
    cases hbuf
  · next hl =>
    rw [hl] at hbuf
    obtain rfl := Option.some.inj hbuf
    have habandon : u.abandon .repeated = u := by
      unfold abandon current
      rw [hl]
    rw [habandon]
    exact ⟨h.sent, h.owed, h.fresh, hloop⟩
  · next buf' id hl =>
    obtain ⟨hne, honly, p, hp, -, howed, -⟩ := hloop
    rw [hl] at hbuf
    obtain rfl := Option.some.inj hbuf
    rw [abandon_eq .repeated hl hp]
    have hnone : ∀ id' p', ¬ (u.setPut id { p with owner := .repeated }).Active id' p' := by
      intro id' p' hactive
      rcases active_setPut hactive with ⟨-, -, -, howner⟩ | ⟨hne, hold⟩
      · exact howner rfl
      · exact hne (honly id' p' hold)
    constructor
    · exact h.sent
    · intro id' p' hactive
      exact absurd hactive (hnone id' p')
    · exact h.fresh_setPut hp _
    · refine ⟨hne, hnone, ?_⟩
      intro hu
      have hcurrent : u.current = some (id, p) := by
        unfold current
        rw [hl]
        dsimp only
        rw [hp]
        rfl
      have hequal := howed hu
      rwa [hzero hu (id, p) hcurrent, List.drop_zero] at hequal
  · next hl =>
    rw [hl] at hbuf
    cases hbuf

theorem write (h : u.Holds usable) (hactive : u.Active id p) (hu : usable) (n : ℕ) :
    ({ u.setPut id { p with written := p.written + n } with
      remoteWritten := u.remoteWritten ++ (p.body.drop p.written).take n } : Up).Holds usable := by
  obtain ⟨hp, hstatus, howner⟩ := hactive
  have howed := h.owed id p ⟨hp, hstatus, howner⟩ hu
  have hsplit : u.remoteWritten ++ (p.body.drop p.written).take n ++
      p.body.drop (p.written + n) = u.localRead := by
    rw [List.append_assoc, ← List.drop_drop, List.take_append_drop]
    exact howed
  have honly : ∀ id' p', (u.setPut id { p with written := p.written + n }).Active id' p' →
      id' = id ∧ p' = { p with written := p.written + n } := by
    intro id' p' hactive
    rcases active_setPut hactive with ⟨hid, hp', -, -⟩ | ⟨hne, hold⟩
    · exact ⟨hid, hp'⟩
    · exact absurd (h.single hold ⟨hp, hstatus, howner⟩) hne
  constructor
  · exact ⟨_, hsplit⟩
  · intro id' p' hp' _
    obtain ⟨-, rfl⟩ := honly id' p' hp'
    exact hsplit
  · exact h.fresh_setPut hp _
  · have hloop := h.loop
    unfold LoopHolds at hloop ⊢
    dsimp only [setPut]
    split at hloop
    · exact absurd ⟨hp, hstatus, howner⟩ (hloop.1 id p)
    · exact absurd ⟨hp, hstatus, howner⟩ (hloop.2.1 id p)
    · next buf id' hl =>
      rw [hl]
      obtain ⟨hne, hcurrent, q, hq, hbody, -, -⟩ := hloop
      obtain rfl := hcurrent id p ⟨hp, hstatus, howner⟩
      obtain rfl := Option.some.inj (hp.symm.trans hq)
      refine ⟨hne, fun id' p' hp' => (honly id' p' hp').1, _, setPut_self .., hbody, ?_, ?_⟩
      · intro _
        rw [← hbody]
        exact hsplit
      · intro hfinished
        exact absurd hstatus hfinished
    · next hl =>
      rw [hl]
      intro id₁ id₂ p₁ p₂ h₁ h₂
      rw [(honly id₁ p₁ h₁).1, (honly id₂ p₂ h₂).1]

theorem finish (h : u.Holds usable) (hp : u.puts id = some p) (status : Status)
    (hdone : usable → p.written = p.body.length) :
    (u.setPut id { p with status := some status }).Holds usable := by
  have hactive : ∀ id' p', (u.setPut id { p with status := some status }).Active id' p' →
      u.Active id' p' := by
    intro id' p' hactive
    rcases active_setPut hactive with ⟨-, -, hnone, -⟩ | ⟨-, hold⟩
    · cases hnone
    · exact hold
  constructor
  · exact h.sent
  · intro id' p' hp'
    exact h.owed id' p' (hactive id' p' hp')
  · exact h.fresh_setPut hp _
  · have hloop := h.loop
    unfold LoopHolds at hloop ⊢
    dsimp only [setPut]
    split at hloop
    · next hl =>
      rw [hl]
      exact ⟨fun id' p' hp' => hloop.1 id' p' (hactive id' p' hp'), hloop.2⟩
    · next hl =>
      rw [hl]
      exact ⟨hloop.1, fun id' p' hp' => hloop.2.1 id' p' (hactive id' p' hp'), hloop.2.2⟩
    · next buf id' hl =>
      rw [hl]
      obtain ⟨hne, hcurrent, q, hq, hbody, howed, hfinished⟩ := hloop
      refine ⟨hne, fun id' p' hp' => hcurrent id' p' (hactive id' p' hp'), ?_⟩
      by_cases hid : id' = id
      · subst hid
        obtain rfl := Option.some.inj (hp.symm.trans hq)
        refine ⟨_, setPut_self .., hbody, howed, fun _ hu => ?_⟩
        rw [← hbody]
        exact hdone hu
      · exact ⟨q, (setPut_of_ne u _ hid).trans hq, hbody, howed, hfinished⟩
    · next hl =>
      rw [hl]
      intro id₁ id₂ p₁ p₂ h₁ h₂
      exact hloop id₁ id₂ p₁ p₂ (hactive id₁ p₁ h₁) (hactive id₂ p₂ h₂)

end Holds

end Up

/-! ## From the remote to the local socket -/

namespace Down

def Active (d : Down) (id : ℕ) (g : Get) : Prop :=
  d.gets id = some g ∧ g.status = none ∧ g.owner ≠ .repeated

/-- What the place of the loop says, `opened` being that the bridge has the socket. -/
def LoopHolds (opened : Prop) (d : Down) : Prop :=
  match d.loop with
  | .looping => (∀ id g, ¬ d.Active id g) ∧ (opened → d.localWritten = d.remoteRead)
  | .sending => (∀ id g, ¬ d.Active id g) ∧ (opened → d.localWritten = d.remoteRead)
  | .awaiting id printed => (∀ id' g', d.Active id' g' → id' = id) ∧
      ∃ g, d.gets id = some g ∧ (g.status = none → g.body = []) ∧ printed ≤ g.body.length ∧
        d.localWritten ++ g.body.drop printed <+: d.remoteRead ∧
        (opened → d.localWritten ++ g.body.drop printed = d.remoteRead)
  | .stopped => True

structure Holds (opened : Prop) (d : Down) : Prop where
  sent : d.localWritten <+: d.remoteRead
  fresh : ∀ id, d.nextGet ≤ id → d.gets id = none
  loop : d.LoopHolds opened

variable {opened opened' : Prop} {d : Down} {id id' n printed : ℕ} {g g' : Get} {bytes : Bytes}

theorem Holds.mono (h : d.Holds opened) (hopened : opened' → opened) : d.Holds opened' := by
  refine ⟨h.sent, h.fresh, ?_⟩
  have hloop := h.loop
  unfold LoopHolds at hloop ⊢
  split
  · next hl =>
    rw [hl] at hloop
    exact ⟨hloop.1, fun ho => hloop.2 (hopened ho)⟩
  · next hl =>
    rw [hl] at hloop
    exact ⟨hloop.1, fun ho => hloop.2 (hopened ho)⟩
  · next hl =>
    rw [hl] at hloop
    obtain ⟨honly, g, hg, hbody, hle, hsent, hequal⟩ := hloop
    exact ⟨honly, g, hg, hbody, hle, hsent, fun ho => hequal (hopened ho)⟩
  · trivial

theorem setGet_self (d : Down) (id : ℕ) (g : Get) : (d.setGet id g).gets id = some g :=
  update_self ..

theorem setGet_of_ne (d : Down) (g : Get) (h : id' ≠ id) : (d.setGet id g).gets id' = d.gets id' :=
  update_of_ne h ..

theorem active_setGet (h : (d.setGet id g).Active id' g') :
    (id' = id ∧ g' = g ∧ g.status = none ∧ g.owner ≠ .repeated) ∨ (id' ≠ id ∧ d.Active id' g') := by
  obtain ⟨hg', hstatus, howner⟩ := h
  by_cases hid : id' = id
  · subst hid
    rw [setGet_self] at hg'
    obtain rfl := Option.some.inj hg'
    exact .inl ⟨rfl, rfl, hstatus, howner⟩
  · rw [setGet_of_ne d g hid] at hg'
    exact .inr ⟨hid, hg', hstatus, howner⟩

namespace Holds

theorem lt_nextGet (h : d.Holds opened) (hg : d.gets id = some g) : id < d.nextGet := by
  by_contra hle
  rw [h.fresh id (Nat.le_of_not_lt hle)] at hg
  cases hg

theorem fresh_setGet (h : d.Holds opened) (hg : d.gets id = some g) (q : Get) :
    ∀ id', d.nextGet ≤ id' → (d.setGet id q).gets id' = none := by
  intro id' hid'
  have hne : id' ≠ id := Nat.ne_of_gt ((h.lt_nextGet hg).trans_le hid')
  rw [setGet_of_ne d q hne]
  exact h.fresh id' hid'

theorem getStart (h : d.Holds opened) (hloop : d.loop = .looping) (connected : Bool) :
    ({ d with loop := if connected then .sending else .stopped } : Down).Holds opened := by
  have hlooping := h.loop
  unfold LoopHolds at hlooping
  rw [hloop] at hlooping
  cases connected with
  | true => exact ⟨h.sent, h.fresh, hlooping⟩
  | false => exact ⟨h.sent, h.fresh, trivial⟩

theorem getArrives (h : d.Holds opened) (hloop : d.loop = .sending) :
    ({ d.setGet d.nextGet ⟨none, [], .waiting⟩ with
      loop := .awaiting d.nextGet 0, nextGet := d.nextGet + 1 } : Down).Holds opened := by
  have hsending := h.loop
  unfold LoopHolds at hsending
  rw [hloop] at hsending
  obtain ⟨hnone, hequal⟩ := hsending
  constructor
  · exact h.sent
  · intro id hid
    have hne : id ≠ d.nextGet := Nat.ne_of_gt hid
    exact (setGet_of_ne d _ hne).trans (h.fresh id (Nat.le_of_succ_le hid))
  · refine ⟨?_, _, setGet_self .., fun _ => rfl, Nat.le_refl 0, ?_, ?_⟩
    · intro id g hactive
      rcases active_setGet hactive with ⟨hid, -, -, -⟩ | ⟨-, hold⟩
      · exact hid
      · exact absurd hold (hnone id g)
    · change d.localWritten ++ [] <+: d.remoteRead
      rw [List.append_nil]
      exact h.sent
    · intro ho
      change d.localWritten ++ [] = d.remoteRead
      rw [List.append_nil]
      exact hequal ho

theorem print (h : d.Holds opened) (hloop : d.loop = .awaiting id printed)
    (hg : d.gets id = some g) (hle : printed + n ≤ g.body.length) : ({ d with
      loop := .awaiting id (printed + n)
      localWritten := d.localWritten ++ (g.body.drop printed).take n } : Down).Holds opened := by
  have hawaiting := h.loop
  unfold LoopHolds at hawaiting
  rw [hloop] at hawaiting
  obtain ⟨honly, q, hq, hbody, -, hsent, hequal⟩ := hawaiting
  obtain rfl := Option.some.inj (hg.symm.trans hq)
  have hsplit : d.localWritten ++ (g.body.drop printed).take n ++ g.body.drop (printed + n) =
      d.localWritten ++ g.body.drop printed := by
    rw [List.append_assoc, ← List.drop_drop, List.take_append_drop]
  refine ⟨?_, h.fresh, honly, g, hg, hbody, hle, ?_, ?_⟩
  · exact (List.prefix_append _ (g.body.drop (printed + n))).trans (hsplit ▸ hsent)
  · change d.localWritten ++ (g.body.drop printed).take n ++ g.body.drop (printed + n) <+: _
    rw [hsplit]
    exact hsent
  · intro ho
    exact hsplit.trans (hequal ho)

theorem getAnswer (h : d.Holds opened) (hloop : d.loop = .awaiting id g.body.length)
    (hg : d.gets id = some g) (hstatus : g.status ≠ none) :
    ({ d with loop := .looping } : Down).Holds opened := by
  have hawaiting := h.loop
  unfold LoopHolds at hawaiting
  rw [hloop] at hawaiting
  obtain ⟨honly, q, hq, hbody, -, hsent, hequal⟩ := hawaiting
  obtain rfl := Option.some.inj (hg.symm.trans hq)
  refine ⟨h.sent, h.fresh, ?_, ?_⟩
  · intro id' g' hactive
    obtain rfl := honly id' g' hactive
    obtain rfl := Option.some.inj (hg.symm.trans hactive.1)
    exact hstatus hactive.2.1
  · intro ho
    have hequal := hequal ho
    rwa [List.drop_length, List.append_nil] at hequal

theorem stop (h : d.Holds opened) : ({ d with loop := .stopped } : Down).Holds opened :=
  ⟨h.sent, h.fresh, trivial⟩

theorem current_eq (hloop : d.loop = .awaiting id printed) (hg : d.gets id = some g) :
    d.current = some (id, g) := by
  unfold current
  rw [hloop]
  dsimp only
  rw [hg]
  rfl

theorem abandon_eq (owner : Owner) (hloop : d.loop = .awaiting id printed)
    (hg : d.gets id = some g) : d.abandon owner = d.setGet id { g with owner := owner } := by
  unfold abandon
  rw [current_eq hloop hg]

theorem giveUp (h : d.Holds opened) :
    ({ d.abandon .givenUp with loop := .stopped } : Down).Holds opened := by
  unfold abandon
  split
  · next id g hcurrent =>
    have hg : d.gets id = some g := by
      unfold current at hcurrent
      split at hcurrent
      · obtain ⟨g', hg', heq⟩ := Option.map_eq_some_iff.mp hcurrent
        obtain ⟨rfl, rfl⟩ := Prod.mk.inj heq
        exact hg'
      · cases hcurrent
    exact ⟨h.sent, h.fresh_setGet hg _, trivial⟩
  · exact h.stop

theorem retry (h : d.Holds opened)
    (hloop : d.loop = .sending ∨ ∃ id printed, d.loop = .awaiting id printed)
    (hall : opened → ∀ c ∈ d.current, c.2.body.length ≤ d.printed) :
    ({ d.abandon .repeated with loop := .looping } : Down).Holds opened := by
  have hholds := h.loop
  unfold LoopHolds at hholds
  rcases hloop with hl | ⟨id, printed, hl⟩
  · rw [hl] at hholds
    have habandon : d.abandon .repeated = d := by
      unfold abandon current
      rw [hl]
    rw [habandon]
    exact ⟨h.sent, h.fresh, hholds⟩
  · rw [hl] at hholds
    obtain ⟨honly, g, hg, -, -, -, hequal⟩ := hholds
    rw [abandon_eq .repeated hl hg]
    refine ⟨h.sent, h.fresh_setGet hg _, ?_, ?_⟩
    · intro id' g' hactive
      rcases active_setGet hactive with ⟨-, -, -, howner⟩ | ⟨hne, hold⟩
      · exact howner rfl
      · exact hne (honly id' g' hold)
    · intro ho
      have hle : g.body.length ≤ printed := by
        have hprinted := hall ho (id, g) (current_eq hl hg)
        unfold Down.printed at hprinted
        rwa [hl] at hprinted
      have hequal := hequal ho
      rwa [List.drop_eq_nil_of_le hle, List.append_nil] at hequal

/-- The bridge reads from the remote socket for a request that is not repeated, or after the
loop has ended. -/
theorem readRemote (h : d.Holds opened) (hg : d.gets id = some g) (hstatus : g.status = none)
    (ho : opened) (howner : g.owner = .repeated → d.loop = .stopped) :
    ({ d.setGet id { g with status := some .ok, body := bytes } with
      remoteRead := d.remoteRead ++ bytes } : Down).Holds opened := by
  have hactive : ∀ id' g',
      (d.setGet id { g with status := some .ok, body := bytes }).Active id' g' →
        d.Active id' g' := by
    intro id' g' hactive
    rcases active_setGet hactive with ⟨-, -, hnone, -⟩ | ⟨-, hold⟩
    · cases hnone
    · exact hold
  refine ⟨h.sent.trans (List.prefix_append ..), h.fresh_setGet hg _, ?_⟩
  have hloop := h.loop
  unfold LoopHolds at hloop ⊢
  dsimp only [setGet]
  have hnot : d.loop ≠ .stopped → d.Active id g := fun hne =>
    ⟨hg, hstatus, fun hrepeated => hne (howner hrepeated)⟩
  split at hloop
  · next hl => exact absurd (hnot (by rw [hl]; decide)) (hloop.1 id g)
  · next hl => exact absurd (hnot (by rw [hl]; decide)) (hloop.1 id g)
  · next id' printed hl =>
    obtain ⟨honly, q, hq, hbody, hle, hsent, hequal⟩ := hloop
    obtain rfl := honly id g (hnot (by rw [hl]; exact GetLoop.noConfusion))
    obtain rfl := Option.some.inj (hg.symm.trans hq)
    rw [hl]
    rw [hbody hstatus] at hle hequal
    have hzero : printed = 0 := Nat.le_zero.mp hle
    have hequal' : d.localWritten ++ bytes.drop printed = d.remoteRead ++ bytes := by
      have hwritten := hequal ho
      rw [List.drop_nil, List.append_nil] at hwritten
      rw [hzero, List.drop_zero, hwritten]
    refine ⟨fun id' g' hg' => honly id' g' (hactive id' g' hg'), _, setGet_self .., ?_, ?_, ?_, ?_⟩
    · intro hnone
      cases hnone
    · rw [hzero]
      exact Nat.zero_le _
    · exact hequal' ▸ List.prefix_rfl
    · intro _
      exact hequal'
  · trivial

theorem finish (h : d.Holds opened) (hg : d.gets id = some g) (status : Status) :
    (d.setGet id { g with status := some status }).Holds opened := by
  have hactive : ∀ id' g', (d.setGet id { g with status := some status }).Active id' g' →
      d.Active id' g' := by
    intro id' g' hactive
    rcases active_setGet hactive with ⟨-, -, hnone, -⟩ | ⟨-, hold⟩
    · cases hnone
    · exact hold
  refine ⟨h.sent, h.fresh_setGet hg _, ?_⟩
  have hloop := h.loop
  unfold LoopHolds at hloop ⊢
  dsimp only [setGet]
  split at hloop
  · next hl =>
    rw [hl]
    exact ⟨fun id' g' hg' => hloop.1 id' g' (hactive id' g' hg'), hloop.2⟩
  · next hl =>
    rw [hl]
    exact ⟨fun id' g' hg' => hloop.1 id' g' (hactive id' g' hg'), hloop.2⟩
  · next id' printed hl =>
    rw [hl]
    obtain ⟨honly, q, hq, hbody, hle, hsent, hequal⟩ := hloop
    refine ⟨fun id' g' hg' => honly id' g' (hactive id' g' hg'), ?_⟩
    by_cases hid : id' = id
    · subst hid
      obtain rfl := Option.some.inj (hg.symm.trans hq)
      refine ⟨_, setGet_self .., ?_, hle, hsent, hequal⟩
      intro hnone
      cases hnone
    · exact ⟨q, (setGet_of_ne d _ hid).trans hq, hbody, hle, hsent, hequal⟩
  · trivial

end Holds

end Down

/-! ## Whole runs -/

/-- The remote socket can be written. -/
def Bridge.Usable (s : Bridge) : Prop := s.socketOpen = true ∧ s.broken = false

structure Holds (s : Bridge) : Prop where
  up : s.up.Holds s.Usable
  down : s.down.Holds (s.socketOpen = true)

variable {s s' : Bridge} {id n : ℕ}

theorem holds_create : Holds Bridge.create := by
  refine ⟨⟨List.prefix_rfl, ?_, fun _ _ => rfl, ?_, fun _ => rfl⟩,
    ⟨List.prefix_rfl, fun _ _ => rfl, ?_, fun _ => rfl⟩⟩
  · intro id p hactive
    exact absurd hactive.1.symm (Option.some_ne_none p)
  · intro id p hactive
    exact absurd hactive.1.symm (Option.some_ne_none p)
  · intro id g hactive
    exact absurd hactive.1.symm (Option.some_ne_none g)

namespace Holds

theorem of_up (h : Holds s) (hdown : s'.down = s.down)
    (hopen : s'.socketOpen = true → s.socketOpen = true) (hup : s'.up.Holds s'.Usable) : Holds s' :=
  ⟨hup, hdown ▸ h.down.mono hopen⟩

theorem of_down (h : Holds s) (hup : s'.up = s.up) (husable : s'.Usable → s.Usable)
    (hdown : s'.down.Holds (s'.socketOpen = true)) : Holds s' :=
  ⟨hup ▸ h.up.mono husable, hdown⟩

theorem putRescue (h : Holds s) (e : HttpException) {buf : Bytes} (hbuf : s.up.loop.buf = some buf)
    (hok : Undisturbed s (.putLost e)) : Holds (putRescue e buf s) := by
  have hstop := h.up.giveUp hbuf
  have hretry : e = .epipe ∨ e = .ioError → s.sInClosed = false →
      ({ s.up.abandon .repeated with loop := .sending buf } : Up).Holds s.Usable :=
    fun he hclosed => h.up.retry hbuf fun hu => hok he hclosed hu.1 hu.2
  cases e with
  | epipe =>
      unfold HttpBridge.putRescue
      dsimp only
      split
      · exact h.of_up rfl id hstop
      · next hclosed => exact h.of_up rfl id (hretry (.inl rfl) (Bool.eq_false_iff.mpr hclosed))
  | ioError =>
      unfold HttpBridge.putRescue
      dsimp only
      split
      · exact h.of_up rfl id hstop
      · next hclosed => exact h.of_up rfl id (hretry (.inr rfl) (Bool.eq_false_iff.mpr hclosed))
  | eof | refused | timeout | other => exact h.of_up rfl id hstop

theorem getRescue (h : Holds s) (e : HttpException)
    (hloop : s.down.loop = .sending ∨ ∃ id printed, s.down.loop = .awaiting id printed)
    (hok : Undisturbed s (.getLost e)) : Holds (getRescue e s) := by
  have hstop := h.down.giveUp
  have hretry : e = .eof ∨ e = .timeout → s.sInClosed = false →
      ({ s.down.abandon .repeated with loop := .looping } : Down).Holds (s.socketOpen = true) :=
    fun he hclosed => h.down.retry hloop fun ho => hok he hclosed ho
  cases e with
  | epipe | ioError | refused | other => exact h.of_down rfl id hstop
  | eof =>
      unfold HttpBridge.getRescue
      dsimp only
      split
      · exact h.of_down rfl id hstop
      · next hclosed => exact h.of_down rfl id (hretry (.inl rfl) (Bool.eq_false_iff.mpr hclosed))
  | timeout =>
      unfold HttpBridge.getRescue
      dsimp only
      split
      · exact h.of_down rfl id hstop
      · next hclosed => exact h.of_down rfl id (hretry (.inr rfl) (Bool.eq_false_iff.mpr hclosed))

theorem doPutFails (h : Holds s) {p : Put} (hp : s.up.puts id = some p) {failure : WriteFailure}
    (hstep : doPutFails id p failure s = some s') : Holds s' := by
  -- the socket is closed or broken, so that nothing is said of what is not yet written
  have hbroken (status : Status) : (s.up.setPut id { p with status := some status }).Holds False :=
    (h.up.mono False.elim).finish hp status False.elim
  cases failure with
  | epipe =>
      obtain rfl := Option.some.inj hstep
      exact h.of_up rfl (fun hopen => absurd hopen Bool.false_ne_true)
        ((hbroken .gone).mono fun hu => Bool.false_ne_true hu.1)
  | other =>
      obtain rfl := Option.some.inj hstep
      exact h.of_up rfl (fun hopen => hopen)
        ((hbroken .error).mono fun hu => Bool.false_ne_true hu.2.symm)
  | missing =>
      unfold HttpBridge.doPutFails at hstep
      dsimp only at hstep
      split at hstep
      · cases hstep
      · next hclosed =>
        obtain rfl := Option.some.inj hstep
        exact h.of_up rfl (fun hopen => hopen) ((hbroken .notFound).mono fun hu => hclosed hu.1)

theorem doGetFails (h : Holds s) {g : Get} (hg : s.down.gets id = some g) {failure : ReadFailure}
    (hstep : doGetFails id g failure s = some s') : Holds s' := by
  have hfinish (status : Status) := h.down.finish hg status
  cases failure with
  | eof =>
      obtain rfl := Option.some.inj hstep
      exact h.of_down rfl (fun hu => absurd hu.1 Bool.false_ne_true)
        ((hfinish .gone).mono fun hopen => absurd hopen Bool.false_ne_true)
  | other =>
      obtain rfl := Option.some.inj hstep
      exact h.of_down rfl (fun hu => hu) (hfinish .ok)
  | missing =>
      unfold HttpBridge.doGetFails at hstep
      dsimp only at hstep
      split at hstep
      · cases hstep
      · obtain rfl := Option.some.inj hstep
        exact h.of_down rfl (fun hu => hu) (hfinish .notFound)

theorem putResponse (h : Holds s) {buf : Bytes} {p : Put} (hloop : s.up.loop = .awaiting buf id)
    (hp : s.up.puts id = some p) (hanswered : p.status ≠ none) (status : Status) :
    Holds (putResponse status s) := by
  obtain ⟨hstopped, hreading⟩ := h.up.putAnswer hloop hp hanswered
  unfold HttpBridge.putResponse
  split
  · exact h.of_up rfl (fun hopen => hopen) hstopped
  · exact h.of_up rfl (fun hopen => hopen) hreading

theorem getResponse (h : Holds s) {g : Get} (hloop : s.down.loop = .awaiting id g.body.length)
    (hg : s.down.gets id = some g) (hanswered : g.status ≠ none) (status : Status) :
    Holds (getResponse status s) := by
  have hlooping := h.down.getAnswer hloop hg hanswered
  cases status with
  | ok => exact h.of_down rfl (fun hu => hu) hlooping
  | error => exact h.of_down rfl (fun hu => hu) hlooping
  | gone | notFound => exact h.of_down rfl (fun hu => hu) h.down.stop

theorem step (h : Holds s) {a : Action} (hok : Undisturbed s a) (hstep : step s a = some s') :
    Holds s' := by
  cases a
  all_goals simp only [HttpBridge.step, Option.bind_eq_bind, Option.bind_eq_some_iff,
    Option.ite_none_right_eq_some, Option.some.injEq] at hstep
  case readLocal bytes =>
    obtain ⟨⟨hloop, -, -, hne, -⟩, rfl⟩ := hstep
    exact h.of_up rfl (fun hopen => hopen) (h.up.readLocal hloop hne)
  case localEof | leave =>
    obtain ⟨⟨hloop, -⟩, rfl⟩ := hstep
    exact h.of_up rfl (fun hopen => hopen) (h.up.stop hloop)
  case signal =>
    subst hstep
    exact ⟨h.up, h.down⟩
  case putArrives =>
    split at hstep
    · next hloop =>
      obtain rfl := Option.some.inj hstep
      exact h.of_up rfl (fun hopen => hopen) (h.up.putArrives hloop)
    · cases hstep
  case putAnswer =>
    split at hstep
    · next hloop =>
      simp only [Option.bind_eq_some_iff, Option.some.injEq] at hstep
      obtain ⟨p, hp, status, hstatus, rfl⟩ := hstep
      exact h.putResponse hloop hp (hstatus ▸ Option.some_ne_none status) status
    · cases hstep
  case putLost e =>
    obtain ⟨buf, hbuf, rfl⟩ := hstep
    exact h.putRescue e hbuf hok
  case write id n =>
    obtain ⟨p, hp, ⟨hstatus, hopen, hunbroken, -, -⟩, rfl⟩ := hstep
    exact h.of_up rfl (fun hopen => hopen) (h.up.write ⟨hp, hstatus, hok p hp⟩ ⟨hopen, hunbroken⟩ n)
  case writeDone id =>
    obtain ⟨p, hp, ⟨-, hwritten⟩, rfl⟩ := hstep
    exact h.of_up rfl (fun hopen => hopen) (h.up.finish hp .ok fun _ => hwritten)
  case writeFails id failure =>
    obtain ⟨p, hp, -, hfails⟩ := hstep
    exact h.doPutFails hp hfails
  case getStart =>
    obtain ⟨hloop, rfl⟩ := hstep
    exact h.of_down rfl (fun hu => hu) (h.down.getStart hloop s.connected)
  case getArrives =>
    obtain ⟨hloop, rfl⟩ := hstep
    exact h.of_down rfl (fun hu => hu) (h.down.getArrives hloop)
  case print n =>
    split at hstep
    · next hloop =>
      obtain ⟨g, hg, hstep⟩ := Option.bind_eq_some_iff.mp hstep
      simp only [Option.ite_none_right_eq_some, Option.some.injEq] at hstep
      obtain ⟨⟨-, -, hle⟩, rfl⟩ := hstep
      exact h.of_down rfl (fun hu => hu) (h.down.print hloop hg hle)
    · cases hstep
  case getAnswer =>
    split at hstep
    · next hloop =>
      simp only [Option.bind_eq_some_iff, Option.ite_none_right_eq_some, Option.some.injEq] at hstep
      obtain ⟨g, hg, status, hstatus, hprinted, rfl⟩ := hstep
      exact h.getResponse (hprinted ▸ hloop) hg (hstatus ▸ Option.some_ne_none status) status
    · cases hstep
  case getLost e =>
    split at hstep
    · next hloop =>
      obtain rfl := Option.some.inj hstep
      exact h.getRescue e (.inl hloop) hok
    · next hloop =>
      obtain rfl := Option.some.inj hstep
      exact h.getRescue e (.inr ⟨_, _, hloop⟩) hok
    · cases hstep
  case readRemote id bytes =>
    obtain ⟨g, hg, ⟨hstatus, hopen, -, -⟩, rfl⟩ := hstep
    exact h.of_down rfl (fun hu => hu) (h.down.readRemote hg hstatus hopen (hok g hg))
  case readFails id failure =>
    obtain ⟨g, hg, -, hfails⟩ := hstep
    exact h.doGetFails hg hfails

end Holds

/-- In every run in which no request is repeated that the bridge has begun to execute, both
sockets are written what has been read from the other one, in order and without a gap. -/
theorem stream_reliable {acts : List Action} {s : Bridge}
    (hrun : RunsTo step Undisturbed Bridge.create acts s) : Reliable s := by
  have hholds : Holds s :=
    hrun.invariant Holds holds_create fun t a u h hok hstep => h.step hok hstep
  exact ⟨hholds.up.sent, hholds.down.sent⟩

/-- A response that is lost before the bridge has read anything is fetched once more, and a
request that has not come to the bridge is sent once more. -/
theorem stream_reliable_repeated :
    ∃ s, Reliable s ∧ s.up.remoteWritten = [1, 2] ∧ s.down.localWritten = [3] := by
  have hrun : RunsTo step Undisturbed Bridge.create
      [.readLocal [1, 2], .putLost .epipe, .putArrives, .write 0 2, .writeDone 0, .putAnswer,
        .getStart, .getLost .eof, .getStart, .getArrives, .readRemote 0 [3], .print 1] _ :=
    .of_isSome (by rfl)
  exact ⟨_, stream_reliable hrun, rfl, rfl⟩

/-- The bridge has read two bytes for a request whose connection is lost: the client asks once
more and gets what comes after them. -/
theorem response_lost_drops_bytes :
    ¬ ∀ acts s, RunsTo step Always Bridge.create acts s → Reliable s := by
  intro hreliable
  have hrun : RunsTo step Always Bridge.create
      [.getStart, .getArrives, .readRemote 0 [1, 2], .getLost .eof, .getStart, .getArrives,
        .readRemote 1 [3], .print 1] _ :=
    .of_isSome (by rfl)
  have hprefix : ([3] : Bytes) <+: [1, 2, 3] := (hreliable _ _ hrun).2
  exact absurd hprefix (by decide)

end MiscProjects.HttpBridge
