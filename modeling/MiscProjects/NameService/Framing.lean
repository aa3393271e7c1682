import Mathlib.Data.BitVec
import Mathlib.Data.List.Infix
import MiscProjects.Library.Runs
import MiscProjects.NameService.Provider

/-!
# How the requests are framed

A client writes the items of its request (the action, a length, a body) with one
`writedata` call each, and the service reads them with one `readdata` call each.
TCP keeps the bytes and not the boundaries between the calls.  `readdata` asks for
as much as the buffer takes, which is more than is wanted when the buffer is the
one for bodies; nothing follows a body, as the client then waits for the answer.
-/

namespace MiscProjects.NameService

open Runs

def bufferSz : ℕ := 4096

/-! ## The two ends of the stream -/

/-- A `readdata` call: its parameter `buffersz`, the counter `nLeft` and the bytes
that are in the buffer, `nbytes` of them. -/
structure ReadCall where
  buffersz : ℕ
  nLeft : BitVec 32
  buffer : List UInt8
deriving DecidableEq

/-- The condition of the loop. -/
def ReadCall.loops (call : ReadCall) : Bool :=
  call.nLeft != 0 && decide (call.buffer.length < call.buffersz)

/-- One round of the loop, in which `recv` has returned `bytes`. -/
def ReadCall.round (call : ReadCall) (bytes : List UInt8) : ReadCall :=
  { call with
    nLeft := call.nLeft - BitVec.ofNat 32 bytes.length
    buffer := call.buffer ++ bytes }

/-- The reading end: the size of the buffer and the number of bytes that the next
call asks for, given what the calls before it have read. -/
abbrev Reader := List (List UInt8) → Option (ℕ × BitVec 32)

def Reader.call (reader : Reader) (obtained : List (List UInt8)) : Option ReadCall :=
  (reader obtained).map fun r => ⟨r.1, r.2, []⟩

/-- One direction of a connection.  `writing` are the items that have still to be
sent; the first one belongs to the `writedata` call that is running. -/
structure Stream where
  writing : List (List UInt8)
  inTransit : List UInt8
  obtained : List (List UInt8)
  reading : Option ReadCall
deriving DecidableEq

def Stream.open (reader : Reader) (items : List (List UInt8)) : Stream where
  writing := items
  inTransit := []
  obtained := []
  reading := reader.call []

inductive StreamAction
  /-- `send` takes `k` bytes. -/
  | send (k : ℕ)
  | writedataReturns
  /-- `recv` returns `k` bytes. -/
  | recv (k : ℕ)
  | readdataReturns
deriving DecidableEq

/-- One step; both calls of the socket block, and neither fails. -/
def streamStep (reader : Reader) (s : Stream) : StreamAction → Option Stream
  | .send k =>
      match s.writing with
      | [] => none
      | item :: items =>
          if 0 < k ∧ k ≤ item.length then
            some { s with
              writing := item.drop k :: items
              inTransit := s.inTransit ++ item.take k }
          else none
  | .writedataReturns =>
      match s.writing with
      | [] :: items => some { s with writing := items }
      | _ => none
  | .recv k =>
      match s.reading with
      | none => none
      | some call =>
          if call.loops = true ∧ 0 < k ∧ k ≤ call.buffersz - call.buffer.length ∧
              k ≤ s.inTransit.length then
            some { s with
              inTransit := s.inTransit.drop k
              reading := some (call.round (s.inTransit.take k)) }
          else none
  | .readdataReturns =>
      match s.reading with
      | none => none
      | some call =>
          if call.loops then none
          else
            some { s with
              obtained := s.obtained ++ [call.buffer]
              reading := reader.call (s.obtained ++ [call.buffer]) }

/-! ## Requests -/

/-- The bytes of an `int`. -/
def intBytes (n : BitVec 32) : List UInt8 :=
  [UInt8.ofNat n.toNat, UInt8.ofNat (n.toNat / 256), UInt8.ofNat (n.toNat / 65536),
    UInt8.ofNat (n.toNat / 16777216)]

/-- The `int` at the beginning of some bytes. -/
def intAt : List UInt8 → BitVec 32
  | [b₀, b₁, b₂, b₃] =>
      BitVec.ofNat 32 (b₀.toNat + 256 * b₁.toNat + 65536 * b₂.toNat + 16777216 * b₃.toNat)
  | _ => 0

/-- The action of a request. -/
def actionOf : List UInt8 → ℕ
  | [action] => action.toNat
  | _ => 0

/-- The actions that are followed by a length and a body. -/
def hasBody (action : ℕ) : Bool :=
  action = mynspRegisterClass || action = mynspRegisterService ||
    action = mynspDeregisterService || action = mynspLookupServiceBegin

/-- The actions that are followed by the id of a class. -/
def hasGuid (action : ℕ) : Bool :=
  action = mynspDeregisterClass || action = mynspLookupClass

/-- The actions that are followed by a handle. -/
def hasHandle (action : ℕ) : Bool :=
  action = mynspLookupServiceNext || action = mynspLookupServiceEnd

/-- The `readdata` calls of the request loop in `main`. -/
def requestReader : Reader
  | [] => some (1, 1)
  | [action] =>
      if hasBody (actionOf action) then some (4, 4)
      else if hasGuid (actionOf action) then some (16, 16)
      else if hasHandle (actionOf action) then some (4, 4)
      else none
  | [action, bytes2follow] =>
      if hasBody (actionOf action) then some (bufferSz, intAt bytes2follow) else none
  | _ => none

/-- The `readdata` call with which the functions of the provider read the return
code. -/
def retcodeReader : Reader
  | [] => some (4, 4)
  | _ => none

/-- A request as it is written: an action with its marshalled structure, with the
id of a class or with a handle. -/
inductive WireRequest
  | marshalled (action : ℕ) (databuf : List UInt8)
  | guid (action : ℕ) (classguid : List UInt8)
  | handle (action : ℕ) (hLookup : Handle)

/-- The items of the `writedata` calls. -/
def WireRequest.items : WireRequest → List (List UInt8)
  | .marshalled action databuf =>
      [[UInt8.ofNat action], intBytes (BitVec.ofNat 32 databuf.length), databuf]
  | .guid action classguid => [[UInt8.ofNat action], classguid]
  | .handle action hLookup => [[UInt8.ofNat action], intBytes hLookup]

/-- The requests of the provider's functions: the action is one that goes with the
rest, and a structure fits the buffer that it is marshalled into. -/
def WireRequest.Valid : WireRequest → Prop
  | .marshalled action databuf => hasBody action = true ∧ databuf.length ≤ marshallBufferSz
  | .guid action classguid => hasGuid action = true ∧ classguid.length = 16
  | .handle action _ => hasHandle action = true

/-! ## Streams that are framed -/

/-- Each call asks for the item that is written, and has room for no more than it
unless it is the last one. -/
inductive Framed (reader : Reader) : List (List UInt8) → List (List UInt8) → Prop
  | done {obtained : List (List UInt8)} : reader obtained = none → Framed reader obtained []
  | item {obtained items : List (List UInt8)} {item : List UInt8} {buffersz : ℕ} :
      reader obtained = some (buffersz, BitVec.ofNat 32 item.length) →
      item.length < 2 ^ 32 → item.length ≤ buffersz →
      (items = [] ∨ item.length = buffersz) →
      Framed reader (obtained ++ [item]) items → Framed reader obtained (item :: items)

/-- What the handler has obtained are the first items, and the bytes that its call
has read are followed by those that are in transit and those that are not sent. -/
inductive InOrder (reader : Reader) (items : List (List UInt8)) (s : Stream) : Prop
  | done : s.reading = none → s.obtained = items → s.inTransit = [] →
      s.writing.flatten = [] → InOrder reader items s
  | item {item : List UInt8} {later : List (List UInt8)} {call : ReadCall}
      {rest : List UInt8} :
      s.reading = some call → items = s.obtained ++ item :: later →
      Framed reader s.obtained (item :: later) → item = call.buffer ++ rest →
      call.nLeft = BitVec.ofNat 32 rest.length →
      (∃ n, reader s.obtained = some (call.buffersz, n)) →
      rest ++ later.flatten = s.inTransit ++ s.writing.flatten → InOrder reader items s

section Framing
variable {reader : Reader} {items : List (List UInt8)} {s s' : Stream} {a : StreamAction}
  {call : ReadCall}

theorem ReadCall.loops_iff {rest : List UInt8} (hleft : call.nLeft = BitVec.ofNat 32 rest.length)
    (hlen : rest.length < 2 ^ 32) (hroom : call.buffer.length + rest.length ≤ call.buffersz) :
    call.loops = true ↔ rest ≠ [] := by
  have hzero : call.nLeft = 0 ↔ rest = [] := by
    rw [hleft, ← List.length_eq_zero_iff]
    constructor
    · intro h
      have htoNat := congrArg BitVec.toNat h
      rw [BitVec.toNat_ofNat, Nat.mod_eq_of_lt hlen] at htoNat
      exact htoNat
    · intro h
      rw [h]
      rfl
  simp only [ReadCall.loops, Bool.and_eq_true, bne_iff_ne, ne_eq, decide_eq_true_eq, hzero]
  constructor
  · exact fun h => h.1
  · intro hne
    have hpos := List.length_pos_iff.mpr hne
    exact ⟨hne, by omega⟩

theorem InOrder.of_framed {later : List (List UInt8)}
    (hreading : s.reading = reader.call s.obtained) (hitems : items = s.obtained ++ later)
    (hframed : Framed reader s.obtained later)
    (hbytes : later.flatten = s.inTransit ++ s.writing.flatten) : InOrder reader items s := by
  cases hframed with
  | done hnone =>
      have hempty := List.append_eq_nil_iff.mp hbytes.symm
      refine .done ?_ (by simpa using hitems.symm) hempty.1 hempty.2
      rw [hreading, Reader.call, hnone]
      rfl
  | item hsome hlen hroom hlast hrest =>
      refine .item (hreading.trans (by rw [Reader.call, hsome]; rfl)) hitems
        (.item hsome hlen hroom hlast hrest) rfl rfl ⟨_, hsome⟩ hbytes

theorem InOrder.open (hframed : Framed reader [] items) :
    InOrder reader items (.open reader items) :=
  .of_framed rfl rfl hframed rfl

theorem InOrder.send (hinv : InOrder reader items s) {k : ℕ}
    (hstep : streamStep reader s (.send k) = some s') : InOrder reader items s' := by
  cases hwriting : s.writing with
  | nil => simp [streamStep, hwriting] at hstep
  | cons first unsent =>
      simp only [streamStep, hwriting, Option.ite_none_right_eq_some, Option.some.injEq] at hstep
      obtain ⟨⟨hpos, hk⟩, rfl⟩ := hstep
      cases hinv with
      | done hreading hobtained htransit hflatten =>
          rw [hwriting, List.flatten_cons, List.append_eq_nil_iff] at hflatten
          rw [hflatten.1, List.length_nil] at hk
          exact absurd (Nat.lt_of_lt_of_le hpos hk) (Nat.lt_irrefl 0)
      | item hreading hitems hframed hitem hleft hreader hbytes =>
          refine .item hreading hitems hframed hitem hleft hreader ?_
          rw [hbytes, hwriting, List.flatten_cons, List.flatten_cons, List.append_assoc,
            ← List.append_assoc (first.take k), List.take_append_drop]

theorem InOrder.writedataReturns (hinv : InOrder reader items s)
    (hstep : streamStep reader s .writedataReturns = some s') : InOrder reader items s' := by
  simp only [streamStep] at hstep
  split at hstep
  next unsent hwriting =>
    obtain rfl := Option.some.inj hstep
    cases hinv with
    | done hreading hobtained htransit hflatten =>
        exact .done hreading hobtained htransit (by simpa [hwriting] using hflatten)
    | item hreading hitems hframed hitem hleft hreader hbytes =>
        exact .item hreading hitems hframed hitem hleft hreader (by simpa [hwriting] using hbytes)
  next => simp at hstep

theorem InOrder.recv (hinv : InOrder reader items s) {k : ℕ}
    (hstep : streamStep reader s (.recv k) = some s') : InOrder reader items s' := by
  cases hinv with
  | done hreading hobtained htransit hflatten => simp [streamStep, hreading] at hstep
  | @item item later call rest hreading hitems hframed hitem hleft hreader hbytes =>
      simp only [streamStep, hreading, Option.ite_none_right_eq_some, Option.some.injEq] at hstep
      obtain ⟨⟨hloops, hpos, hroom, htransit⟩, rfl⟩ := hstep
      obtain ⟨n, hreader⟩ := hreader
      have hframed' := hframed
      cases hframed with
      | @item _ _ _ buffersz hsome hlen hfits hlast hrest =>
          obtain rfl : call.buffersz = buffersz :=
            congrArg Prod.fst (Option.some.inj (hreader.symm.trans hsome))
          have hlength : item.length = call.buffer.length + rest.length := by
            rw [hitem, List.length_append]
          have hk : k ≤ rest.length := by
            rcases hlast with rfl | hfull
            · have hbytes' := congrArg List.length hbytes
              simp only [List.flatten_nil, List.append_nil, List.length_append] at hbytes'
              omega
            · omega
          have htake : s.inTransit.take k = rest.take k := by
            have htakes := congrArg (List.take k) hbytes
            rw [List.take_append_of_le_length hk, List.take_append_of_le_length htransit] at htakes
            exact htakes.symm
          have hitem' : item = (call.round (s.inTransit.take k)).buffer ++ rest.drop k := by
            rw [ReadCall.round, htake, List.append_assoc, List.take_append_drop, hitem]
          have hleft' : (call.round (s.inTransit.take k)).nLeft =
              BitVec.ofNat 32 (rest.drop k).length := by
            rw [ReadCall.round, hleft, htake, List.length_take, List.length_drop,
              Nat.min_eq_left hk]
            apply BitVec.eq_of_toNat_eq
            rw [BitVec.toNat_sub, BitVec.toNat_ofNat, BitVec.toNat_ofNat, BitVec.toNat_ofNat]
            omega
          refine .item rfl hitems hframed' hitem' hleft' ⟨n, hreader⟩ ?_
          have hdrops := congrArg (List.drop k) hbytes
          rw [List.drop_append_of_le_length hk, List.drop_append_of_le_length htransit] at hdrops
          exact hdrops

theorem InOrder.readdataReturns (hinv : InOrder reader items s)
    (hstep : streamStep reader s .readdataReturns = some s') : InOrder reader items s' := by
  cases hinv with
  | done hreading hobtained htransit hflatten => simp [streamStep, hreading] at hstep
  | @item item later call rest hreading hitems hframed hitem hleft hreader hbytes =>
      simp only [streamStep, hreading, Option.ite_none_left_eq_some, Option.some.injEq] at hstep
      obtain ⟨hloops, rfl⟩ := hstep
      obtain ⟨n, hreader⟩ := hreader
      cases hframed with
      | @item _ _ _ buffersz hsome hlen hfits hlast hrest =>
          obtain rfl : call.buffersz = buffersz :=
            congrArg Prod.fst (Option.some.inj (hreader.symm.trans hsome))
          have hlength : item.length = call.buffer.length + rest.length := by
            rw [hitem, List.length_append]
          obtain rfl : rest = [] := by
            by_contra hne
            exact hloops ((ReadCall.loops_iff hleft (by omega) (by omega)).mpr hne)
          rw [List.append_nil] at hitem
          subst hitem
          refine .of_framed rfl ?_ hrest hbytes
          rw [hitems, List.append_assoc]
          rfl

theorem InOrder.step (hinv : InOrder reader items s)
    (hstep : streamStep reader s a = some s') : InOrder reader items s' := by
  cases a with
  | send k => exact hinv.send hstep
  | writedataReturns => exact hinv.writedataReturns hstep
  | recv k => exact hinv.recv hstep
  | readdataReturns => exact hinv.readdataReturns hstep

theorem InOrder.obtained_prefix (hinv : InOrder reader items s) : s.obtained <+: items := by
  cases hinv with
  | done hreading hobtained htransit hflatten => rw [hobtained]
  | item hreading hitems hframed hitem hleft hreader hbytes => exact ⟨_, hitems.symm⟩

theorem InOrder.done_of_stuck (hinv : InOrder reader items s)
    (hstuck : ∀ a, streamStep reader s a = none) :
    s.reading = none ∧ s.obtained = items ∧ s.inTransit = [] := by
  have hwriting : s.writing = [] := by
    rcases hw : s.writing with _ | ⟨_ | ⟨b, first⟩, unsent⟩
    · rfl
    · have hreturns := hstuck .writedataReturns
      simp [streamStep, hw] at hreturns
    · have hsend := hstuck (.send 1)
      simp [streamStep, hw] at hsend
  cases hinv with
  | done hreading hobtained htransit hflatten => exact ⟨hreading, hobtained, htransit⟩
  | @item item later call rest hreading hitems hframed hitem hleft hreader hbytes =>
      exfalso
      obtain ⟨n, hreader⟩ := hreader
      cases hframed with
      | @item _ _ _ buffersz hsome hlen hfits hlast hrest =>
          obtain rfl : call.buffersz = buffersz :=
            congrArg Prod.fst (Option.some.inj (hreader.symm.trans hsome))
          have hlength : item.length = call.buffer.length + rest.length := by
            rw [hitem, List.length_append]
          by_cases hloops : call.loops = true
          · have hne : rest ≠ [] := (ReadCall.loops_iff hleft (by omega) (by omega)).mp hloops
            have hpos := List.length_pos_iff.mpr hne
            have hbytes' := congrArg List.length hbytes
            rw [hwriting, List.flatten_nil, List.append_nil, List.length_append] at hbytes'
            have hrecv := hstuck (.recv 1)
            simp only [streamStep, hreading, ite_eq_right_iff, reduceCtorEq, imp_false] at hrecv
            exact hrecv ⟨hloops, Nat.one_pos, by omega, by omega⟩
          · have hreturns := hstuck .readdataReturns
            simp [streamStep, hreading, hloops] at hreturns

/-- A bound for the number of steps that are left. -/
def stepsLeft (items : List (List UInt8)) (s : Stream) : ℕ :=
  2 * s.writing.flatten.length + s.writing.length + s.inTransit.length +
    (items.length - s.obtained.length)

theorem InOrder.stepsLeft_lt (hinv : InOrder reader items s)
    (hstep : streamStep reader s a = some s') : stepsLeft items s' < stepsLeft items s := by
  cases a with
  | send k =>
      cases hwriting : s.writing with
      | nil => simp [streamStep, hwriting] at hstep
      | cons first unsent =>
          simp only [streamStep, hwriting, Option.ite_none_right_eq_some,
            Option.some.injEq] at hstep
          obtain ⟨⟨hpos, hk⟩, rfl⟩ := hstep
          simp only [stepsLeft, hwriting, List.flatten_cons, List.length_append, List.length_cons,
            List.length_drop, List.length_take]
          omega
  | writedataReturns =>
      simp only [streamStep] at hstep
      split at hstep
      next unsent hwriting =>
        obtain rfl := Option.some.inj hstep
        simp only [stepsLeft, hwriting, List.flatten_cons, List.nil_append, List.length_cons]
        omega
      next => simp at hstep
  | recv k =>
      cases hreading : s.reading with
      | none => simp [streamStep, hreading] at hstep
      | some call =>
          simp only [streamStep, hreading, Option.ite_none_right_eq_some,
            Option.some.injEq] at hstep
          obtain ⟨⟨hloops, hpos, hroom, htransit⟩, rfl⟩ := hstep
          simp only [stepsLeft, List.length_drop]
          omega
  | readdataReturns =>
      cases hinv with
      | done hreading hobtained htransit hflatten => simp [streamStep, hreading] at hstep
      | item hreading hitems hframed hitem hleft hreader hbytes =>
          simp only [streamStep, hreading, Option.ite_none_left_eq_some, Option.some.injEq] at hstep
          obtain ⟨hloops, rfl⟩ := hstep
          have hlength := congrArg List.length hitems
          simp only [List.length_append, List.length_cons, List.length_nil, stepsLeft] at hlength ⊢
          omega

/-- Whatever `send` and `recv` return, the calls of the reading end obtain the items
one by one, and all of them in the end. -/
theorem framed_run (hframed : Framed reader [] items) {as : List StreamAction}
    (hrun : RunsTo (streamStep reader) Always (.open reader items) as s) : InOrder reader items s ∧
      as.length + stepsLeft items s ≤ stepsLeft items (.open reader items) := by
  apply hrun.history fun as s => InOrder reader items s ∧
    as.length + stepsLeft items s ≤ stepsLeft items (.open reader items)
  · exact ⟨.open hframed, by simp⟩
  · intro as s a s' ⟨hinv, hleft⟩ _ hstep
    have hlt := hinv.stepsLeft_lt hstep
    refine ⟨hinv.step hstep, ?_⟩
    rw [List.length_append, List.length_singleton]
    omega

end Framing

/-! ## The requests are framed -/

theorem intAt_intBytes (n : BitVec 32) : intAt (intBytes n) = n := by
  apply BitVec.eq_of_toNat_eq
  have hlt := n.isLt
  simp only [intAt, intBytes, UInt8.toNat_ofNat', BitVec.toNat_ofNat]
  omega

theorem length_intBytes (n : BitVec 32) : (intBytes n).length = 4 := rfl

theorem actionOf_ofNat {action : ℕ}
    (haction : hasBody action = true ∨ hasGuid action = true ∨ hasHandle action = true) :
    actionOf [UInt8.ofNat action] = action ∧ (hasGuid action = true → hasBody action = false) ∧
      (hasHandle action = true → hasBody action = false ∧ hasGuid action = false) := by
  simp only [hasBody, hasGuid, hasHandle, Bool.or_eq_true, decide_eq_true_eq] at haction
  rcases haction with (((rfl | rfl) | rfl) | rfl) | (rfl | rfl) | rfl | rfl <;> decide

theorem WireRequest.framed {request : WireRequest} (hvalid : request.Valid) :
    Framed requestReader [] request.items := by
  cases request with
  | marshalled action databuf =>
      obtain ⟨hbody, hlen⟩ := hvalid
      have hlen' : databuf.length ≤ 4096 := hlen
      obtain ⟨haction, _, _⟩ := actionOf_ofNat (.inl hbody)
      refine .item rfl (by simp) (Nat.le_refl _) (.inr rfl) (.item ?_ ?_ ?_ (.inr rfl)
        (.item ?_ (by omega) hlen (.inl rfl) (.done rfl)))
      · simp only [List.nil_append, requestReader, haction, hbody, if_true]
        rfl
      · rw [length_intBytes]
        decide
      · exact Nat.le_refl _
      · simp only [List.nil_append, List.singleton_append, requestReader, haction, hbody, if_true,
          intAt_intBytes]
        rfl
  | guid action classguid =>
      obtain ⟨hguid, hlen⟩ := hvalid
      obtain ⟨haction, hnobody, _⟩ := actionOf_ofNat (.inr (.inl hguid))
      refine .item rfl (by simp) (Nat.le_refl _) (.inr rfl) (.item ?_ ?_ (Nat.le_refl _)
        (.inl rfl) (.done ?_))
      · simp only [List.nil_append, requestReader, haction, hnobody hguid, hguid, hlen, if_true]
        rfl
      · rw [hlen]
        decide
      · simp only [List.nil_append, List.singleton_append, requestReader, haction, hnobody hguid]
        rfl
  | handle action hLookup =>
      have hhandle : hasHandle action = true := hvalid
      obtain ⟨haction, _, hothers⟩ := actionOf_ofNat (.inr (.inr hhandle))
      obtain ⟨hnobody, hnoguid⟩ := hothers hhandle
      refine .item rfl (by simp) (Nat.le_refl _) (.inr rfl) (.item ?_ ?_ (Nat.le_refl _)
        (.inl rfl) (.done ?_))
      · simp only [List.nil_append, requestReader, haction, hnobody, hnoguid, hhandle, if_true,
          length_intBytes]
        rfl
      · rw [length_intBytes]
        decide
      · simp only [List.nil_append, List.singleton_append, requestReader, haction, hnobody]
        rfl

theorem retcode_framed (retcode : BitVec 32) : Framed retcodeReader [] [intBytes retcode] :=
  .item rfl (by rw [length_intBytes]; decide) (Nat.le_refl _) (.inl rfl) (.done rfl)

/-- Whatever `send` and `recv` return, the handler obtains the items of the request
in their order, and it has all of them when no end can go on, which is so after
finitely many steps. -/
theorem request_items_obtained {request : WireRequest} (hvalid : request.Valid)
    {as : List StreamAction} {s : Stream}
    (hrun : RunsTo (streamStep requestReader) Always (.open requestReader request.items) as s) :
    s.obtained <+: request.items ∧
      ((∀ a, streamStep requestReader s a = none) →
        s.reading = none ∧ s.obtained = request.items ∧ s.inTransit = []) ∧
      as.length ≤ 2 * request.items.flatten.length + 2 * request.items.length := by
  obtain ⟨hinv, hleft⟩ := framed_run (WireRequest.framed hvalid) hrun
  refine ⟨hinv.obtained_prefix, hinv.done_of_stuck, ?_⟩
  simp only [stepsLeft, Stream.open, List.length_nil] at hleft
  omega

/-- A class id is sent in three pieces and read in two. -/
theorem request_items_obtained_deregister_class :
    ∃ s, RunsTo (streamStep requestReader) Always
        (.open requestReader [[1], List.replicate 16 7])
        [.send 1, .writedataReturns, .send 3, .recv 1, .readdataReturns, .recv 2, .send 13,
          .writedataReturns, .recv 14, .readdataReturns] s ∧
      s.obtained = [[1], List.replicate 16 7] :=
  have hrun := @RunsTo.of_isSome _ _ (streamStep requestReader) Always
    (.open requestReader (WireRequest.guid 1 (List.replicate 16 7)).items)
    [.send 1, .writedataReturns, .send 3, .recv 1, .readdataReturns, .recv 2, .send 13,
      .writedataReturns, .recv 14, .readdataReturns] _ (by decide)
  have hobtained :=
    (@request_items_obtained (.guid 1 (List.replicate 16 7)) ⟨rfl, rfl⟩ _ _ hrun).2.1
  ⟨_, hrun, (hobtained fun a => by cases a <;> rfl).2.1⟩

end MiscProjects.NameService
