import Mathlib.Algebra.Ring.Nat
import MiscProjects.Iocp.Server
import MiscProjects.Library.Tally

/-!
# When the object of a connection is freed

The completion threads handle the completions of one TCP connection.  A step is a
critical section of `PostRecv` or `PostSend`, an interlocked operation, or what
`HandleIo` does between them; an operation may complete as soon as it has been posted.
The path for an error takes no lock: it counts the operation down and frees the
object when the count is zero.
-/

namespace MiscProjects.Iocp.Lifetime

open MiscProjects.Runs MiscProjects.Tally
open Function (update update_self update_of_ne)

/-! ## The threads -/

/-- A posted `BUFFER_OBJ`. -/
inductive Operation
  | opRead (recvobj : RecvObj)
  | opWrite (sendobj : BufferObj)
deriving DecidableEq

/-- Where `HandleIo` has called `DoSends`: for received data, for a receive of zero
bytes, for a completed send, or at its end. -/
inductive Caller
  | data
  | zeroByte
  | opWrite
  | last (bCleanupSocket : Bool)
deriving DecidableEq

/-- What a completion thread does next. -/
inductive Place
  | outside
  | decrementError
  | enter (op : Operation) (bytes : List UInt8)
  | doSends (caller : Caller)
  | countSend (caller : Caller)
  | test (error : Bool)
  | postRecv
  | countRecv
  | decrement (bCleanupSocket error : Bool)
  | leave (bCleanupSocket : Bool)
  | closesocket
  | freeSocketObj
deriving DecidableEq

/-- The `SOCKET_OBJ` of the connection with the owner of its `SockCritSec`, the operations
in flight, and how often the object has been freed.  `dangling` tells that the head of
the out-of-order list has been freed. -/
structure Connection where
  sock : SocketObj
  socketOpen : Bool
  sockCritSec : Option ℕ
  dangling : Bool
  recvCalls : ℕ
  inFlight : List Operation
  frees : ℕ
  next : ℕ → Place

def Connection.goto (c : Connection) (t : ℕ) (p : Place) : Connection :=
  { c with next := update c.next t p }

@[simp]
theorem goto_self (c : Connection) (t : ℕ) (p : Place) : (c.goto t p).next t = p := by
  simp only [Connection.goto, update_self]

theorem goto_of_ne {c : Connection} {t t' : ℕ} {p : Place} (hne : t' ≠ t) :
    (c.goto t p).next t' = c.next t' := by
  simp only [Connection.goto, update_of_ne hne]

/-! ## The steps -/

/-- What follows the call of `DoSends`, given whether it has returned `NO_ERROR`. -/
def afterSends : Caller → Bool → Place
  | .data, true => .postRecv
  | .data, false => .decrement false true
  | .zeroByte, ok => .test (!ok)
  | .opWrite, ok => .decrement false (!ok)
  | .last bCleanupSocket, ok => .leave (bCleanupSocket || !ok)

/-- `PostSend` up to the end of its critical section.  When the send fails, `DoSends`
frees the buffer, which stays at the head of the list, and returns an error. -/
def postSend (caller : Caller) (t : ℕ) (posted : Bool) (sendobj : BufferObj)
    (c : Connection) : Connection :=
  let issued := { c.sock with lastSendIssued := c.sock.lastSendIssued + 1 }
  if posted then
    { c with sock := issued, inFlight := c.inFlight ++ [Operation.opWrite sendobj] }.goto t
      (.countSend caller)
  else { c with sock := issued, dangling := true }.goto t (afterSends caller false)

/-- One round of the loop of `DoSends`; reading a freed buffer is `none`. -/
def doSends (caller : Caller) (t : ℕ) (posted : Bool) (c : Connection) :
    Option Connection :=
  if c.dangling then none
  else
    match c.sock.outOfOrderSends with
    | [] => some (c.goto t (afterSends caller true))
    | sendobj :: _ =>
        if sendobj.ioOrder = c.sock.lastSendIssued then
          some (postSend caller t posted sendobj c)
        else some (c.goto t (afterSends caller true))

/-- `PostRecv` up to the end of its critical section. -/
def postRecv (t : ℕ) (posted : Bool) (c : Connection) : Connection :=
  let issued :=
    { c with
      sock := { c.sock with ioCountIssued := c.sock.ioCountIssued + 1 },
      recvCalls := c.recvCalls + 1 }
  if posted then
    { issued with
      inFlight :=
        c.inFlight ++ [Operation.opRead ⟨c.sock.ioCountIssued, c.recvCalls⟩] }.goto t .countRecv
  else issued.goto t (.decrement false true)

/-- `HandleIo` from its `EnterCriticalSection` to the call of `DoSends`. -/
def enter (t : ℕ) (c : Connection) : Operation → List UInt8 → Option Connection
  | .opRead _, [] =>
      some ({ c with
        sock := { c.sock with bClosing := true },
        sockCritSec := some t }.goto t (.doSends .zeroByte))
  | .opRead recvobj, byte :: bytes =>
      if c.dangling then none
      else
        let sendobj := ⟨recvobj.ioOrder, some recvobj.receive, byte :: bytes⟩
        some ({ c with
          sock :=
            { c.sock with
              outOfOrderSends := insertSend sendobj c.sock.outOfOrderSends },
          sockCritSec := some t }.goto t (.doSends .data))
  | .opWrite _, _ => some ({ c with sockCritSec := some t }.goto t (.doSends .opWrite))

/-- The end of `HandleIo` up to its last call of `DoSends`: note an error, count the
operation as done and decide whether the socket is to be cleaned up. -/
def decrement (t : ℕ) (bCleanupSocket error : Bool) (c : Connection) : Connection :=
  let sock :=
    { c.sock with
      bClosing := c.sock.bClosing || error,
      outstandingOps := c.sock.outstandingOps - 1 }
  if sock.outstandingOps = 0 ∧ sock.bClosing = true ∧ sock.outOfOrderSends = [] then
    { c with sock := sock }.goto t (.leave true)
  else { c with sock := sock }.goto t (.doSends (.last bCleanupSocket))

def freeSocketObj (t : ℕ) (c : Connection) : Connection :=
  if c.sock.outstandingOps = 0 then
    { c with socketOpen := false, frees := c.frees + 1 }.goto t .outside
  else c.goto t .outside

/-- Thread `t` goes on; `posted` tells whether an operation can be posted. -/
def advance (t : ℕ) (posted : Bool) (c : Connection) : Place → Option Connection
  | .outside => none
  | .decrementError =>
      let sock := { c.sock with outstandingOps := c.sock.outstandingOps - 1 }
      some ({ c with sock := sock }.goto t
        (if sock.outstandingOps = 0 then .freeSocketObj else .outside))
  | .enter op bytes => if c.sockCritSec = none then enter t c op bytes else none
  | .doSends caller => doSends caller t posted c
  | .countSend caller =>
      some ({ c with
        sock :=
          { c.sock with
            outstandingOps := c.sock.outstandingOps + 1,
            outOfOrderSends := c.sock.outOfOrderSends.tail } }.goto t (.doSends caller))
  | .test error =>
      some (c.goto t (.decrement
        (decide (c.sock.outstandingOps = 0 ∧ c.sock.outOfOrderSends = [])) error))
  | .postRecv => some (postRecv t posted c)
  | .countRecv =>
      some ({ c with
        sock := { c.sock with outstandingOps := c.sock.outstandingOps + 1 } }.goto t
          (.decrement false false))
  | .decrement bCleanupSocket error => some (decrement t bCleanupSocket error c)
  | .leave bCleanupSocket =>
      some ({ c with sockCritSec := none }.goto t
        (if bCleanupSocket then .closesocket else .outside))
  | .closesocket => some ({ c with socketOpen := false }.goto t .freeSocketObj)
  | .freeSocketObj => some (freeSocketObj t c)

/-- A thread gets a completion, with the bytes transferred or with an error, or goes on. -/
inductive Action
  | completes (t : ℕ) (op : Operation) (transferred : Option (List UInt8))
  | goes (t : ℕ) (posted : Bool)
deriving DecidableEq

/-- One step of the completion threads, of which there are `threads`. -/
def step (threads : ℕ) (c : Connection) : Action → Option Connection
  | .completes t op transferred =>
      if t < threads ∧ c.next t = .outside ∧ op ∈ c.inFlight then
        let taken := { c with inFlight := c.inFlight.erase op }
        match transferred with
        | none => some (taken.goto t .decrementError)
        | some bytes => some (taken.goto t (.enter op bytes))
      else none
  | .goes t posted => if t < threads then advance t posted c (c.next t) else none

/-- No completion is being handled, and the operations in flight are counted. -/
structure Connection.Quiet (c : Connection) : Prop where
  next : ∀ t, c.next t = .outside
  sockCritSec : c.sockCritSec = none
  dangling : c.dangling = false
  frees : c.frees = 0
  inFlight : c.inFlight ≠ []
  outstandingOps : c.sock.outstandingOps = c.inFlight.length

/-- An error is counted down to zero only when no other thread handles a completion, and
a success only when the socket is closing and nothing waits in the out-of-order list. -/
def MayCountDown (threads : ℕ) (c : Connection) (t : ℕ) : Place → Prop
  | .decrementError =>
      c.sock.outstandingOps = 1 → ∀ t' < threads, t' ≠ t → c.next t' = .outside
  | .decrement _ error =>
      c.sock.outstandingOps = 1 →
        (c.sock.bClosing || error) = true ∧ c.sock.outOfOrderSends = []
  | _ => True

def Orderly (threads : ℕ) (c : Connection) : Action → Prop
  | .completes _ _ _ => True
  | .goes t _ => MayCountDown threads c t (c.next t)

instance (threads : ℕ) (c : Connection) (t : ℕ) :
    (p : Place) → Decidable (MayCountDown threads c t p)
  | .decrementError =>
      inferInstanceAs (Decidable (c.sock.outstandingOps = 1 →
        ∀ t' < threads, t' ≠ t → c.next t' = .outside))
  | .decrement _ error =>
      inferInstanceAs (Decidable (c.sock.outstandingOps = 1 →
        (c.sock.bClosing || error) = true ∧ c.sock.outOfOrderSends = []))
  | .outside | .enter _ _ | .doSends _ | .countSend _ | .test _ | .postRecv | .countRecv
  | .leave _ | .closesocket | .freeSocketObj => inferInstanceAs (Decidable True)

instance (threads : ℕ) (c : Connection) : (a : Action) → Decidable (Orderly threads c a)
  | .completes _ _ _ => inferInstanceAs (Decidable True)
  | .goes t _ => inferInstanceAs (Decidable (MayCountDown threads c t (c.next t)))

/-! ## The places of the threads -/

/-- The places inside the critical section of `HandleIo`. -/
def Place.locked : Place → Bool
  | .doSends _ | .countSend _ | .test _ | .postRecv | .countRecv | .decrement _ _
  | .leave _ => true
  | _ => false

/-- What a thread adds to the count: the operation that it has taken and not yet counted
down, less the one that it has posted and not yet counted. -/
def Place.weight : Place → ℤ
  | .decrementError | .enter _ _ | .test _ | .postRecv | .decrement _ _ => 1
  | .doSends (.last _) => 0
  | .doSends _ => 1
  | .countSend (.last _) => -1
  | _ => 0

/-- `DoSends` has nothing to send. -/
def Sent (sock : SocketObj) (dangling : Bool) : Prop :=
  dangling = true ∨
    ∀ sendobj ∈ sock.outOfOrderSends.head?, sendobj.ioOrder ≠ sock.lastSendIssued

/-- What holds of the connection while a thread is at a place and nobody has decided to
free the object. -/
def Place.Fits (sock : SocketObj) (dangling : Bool) : Place → Prop
  | .doSends (.last bCleanupSocket) =>
      bCleanupSocket = false ∧ 1 ≤ sock.outstandingOps ∧ Sent sock dangling
  | .countSend (.last _) => False
  | .test _ | .postRecv | .countRecv => Sent sock dangling
  | .decrement bCleanupSocket _ => bCleanupSocket = false ∧ Sent sock dangling
  | .leave bCleanupSocket => bCleanupSocket = false ∧ 1 ≤ sock.outstandingOps
  | .closesocket | .freeSocketObj => False
  | _ => True

section Places
variable {sock sock' : SocketObj} {dangling dangling' : Bool} {p : Place}

theorem Place.Fits.weight_nonneg (h : p.Fits sock dangling) : 0 ≤ p.weight := by
  unfold Place.weight
  split <;> first | decide | exact absurd h id

theorem Place.Fits.of_not_locked (h : p.Fits sock dangling) (hp : p.locked = false) :
    p.Fits sock' dangling' := by
  cases p with
  | outside | decrementError | enter => trivial
  | closesocket | freeSocketObj => exact h
  | doSends | countSend | test | postRecv | countRecv | decrement | leave => cases hp

theorem Place.Fits.of_outstandingOps (h : p.Fits sock dangling) {ops : ℤ} (hpos : 1 ≤ ops) :
    p.Fits { sock with outstandingOps := ops } dangling := by
  cases p with
  | doSends caller =>
      cases caller with
      | last => exact ⟨h.1, hpos, h.2.2⟩
      | data | zeroByte | opWrite => trivial
  | countSend caller =>
      cases caller with
      | last => exact h
      | data | zeroByte | opWrite => trivial
  | leave => exact ⟨h.1, hpos⟩
  | test | postRecv | countRecv | decrement | closesocket | freeSocketObj => exact h
  | outside | decrementError | enter => trivial

theorem Place.Fits.outside_of_weight (h : p.Fits sock dangling) (hp : p.locked = false)
    (hw : p.weight = 0) : p = .outside := by
  cases p with
  | outside => rfl
  | decrementError | enter => cases hw
  | closesocket | freeSocketObj => exact absurd h id
  | doSends | countSend | test | postRecv | countRecv | decrement | leave => cases hp

end Places

/-! ## The phases of the connection -/

variable {threads t : ℕ} {c c' : Connection} {p : Place} {posted : Bool}

/-- Nobody has decided to free the object. -/
structure Working (threads : ℕ) (c : Connection) : Prop where
  beyond : ∀ t, threads ≤ t → c.next t = .outside
  counted : c.sock.outstandingOps =
    c.inFlight.length + tally Place.weight c.next threads
  owned : ∀ t, c.sockCritSec = some t ↔ (c.next t).locked = true
  fits : ∀ t, (c.next t).Fits c.sock c.dangling
  frees : c.frees = 0
  busy : c.inFlight ≠ [] ∨ ∃ t, c.next t ≠ .outside

/-- The last thread is about to free the object. -/
structure Closing (t : ℕ) (c : Connection) : Prop where
  others : ∀ t', t' ≠ t → c.next t' = .outside
  place : c.next t = .leave true ∨ c.next t = .closesocket ∨ c.next t = .freeSocketObj
  inFlight : c.inFlight = []
  outstandingOps : c.sock.outstandingOps = 0
  frees : c.frees = 0

structure Freed (c : Connection) : Prop where
  next : ∀ t, c.next t = .outside
  inFlight : c.inFlight = []
  frees : c.frees = 1

theorem Connection.Quiet.working (h : c.Quiet) : Working threads c where
  beyond t _ := h.next t
  counted := by
    rw [h.outstandingOps, tally_eq_zero fun t _ => by rw [h.next]; rfl]
    exact (add_zero _).symm
  owned t := by
    rw [h.next, h.sockCritSec]
    simp [Place.locked]
  fits t := by
    rw [h.next]
    trivial
  frees := h.frees
  busy := .inl h.inFlight

namespace Working

theorem lt (h : Working threads c) (hp : c.next t ≠ .outside) : t < threads := by
  by_contra hle
  exact hp (h.beyond t (not_lt.mp hle))

theorem weight_le (h : Working threads c) (ht : t < threads) :
    (c.inFlight.length : ℤ) + (c.next t).weight ≤ c.sock.outstandingOps := by
  have hle : (c.next t).weight ≤ tally Place.weight c.next threads :=
    Tally.weight_le_tally (fun t' _ => (h.fits t').weight_nonneg) ht
  have hcounted := h.counted
  omega

variable {t' : ℕ} {op : Operation} {caller : Caller} {bCleanupSocket error : Bool}

theorem unlocked (h : Working threads c) (ht : (c.next t).locked = true)
    (hne : t' ≠ t) : (c.next t').locked = false := by
  by_contra hlocked
  have hown := (h.owned t).mpr ht
  have hown' := (h.owned t').mpr (eq_true_of_ne_false hlocked)
  exact hne (Option.some.inj (hown'.symm.trans hown))

theorem unlocked_of_none (h : Working threads c) (hfree : c.sockCritSec = none) (t : ℕ) :
    (c.next t).locked = false := by
  by_contra hlocked
  have hown := (h.owned t).mpr (eq_true_of_ne_false hlocked)
  rw [hfree] at hown
  cases hown

theorem move (h : Working threads c) (ht : t < threads) (hnext : c'.next = update c.next t p)
    (hcount : c'.sock.outstandingOps - c'.inFlight.length - p.weight =
      c.sock.outstandingOps - c.inFlight.length - (c.next t).weight)
    (howned : ∀ t', c'.sockCritSec = some t' ↔ (update c.next t p t').locked = true)
    (hfits : p.Fits c'.sock c'.dangling)
    (hothers : ∀ t', t' ≠ t → (c.next t').Fits c'.sock c'.dangling) (hfrees : c'.frees = c.frees)
    (hbusy : p ≠ .outside ∨ 1 ≤ c'.sock.outstandingOps) : Working threads c' := by
  have hcounted : c'.sock.outstandingOps =
      c'.inFlight.length + tally Place.weight c'.next threads := by
    have hold := h.counted
    rw [hnext, tally_update ht]
    omega
  constructor
  · intro t' hle
    rw [hnext, update_of_ne (ne_of_gt (lt_of_lt_of_le ht hle))]
    exact h.beyond t' hle
  · exact hcounted
  · rw [hnext]
    exact howned
  · intro t'
    rw [hnext]
    rcases eq_or_ne t' t with rfl | hne
    · rwa [update_self]
    · rw [update_of_ne hne]
      exact hothers t' hne
  · exact hfrees.trans h.frees
  · rcases hbusy with hp | hpos
    · refine .inr ⟨t, ?_⟩
      rwa [hnext, update_self]
    · by_cases hempty : c'.inFlight = []
      · rw [hempty, List.length_nil] at hcounted
        obtain ⟨t', -, hw⟩ := exists_of_tally_pos
          (show 0 < tally Place.weight c'.next threads by omega)
        refine .inr ⟨t', fun hout => ?_⟩
        rw [hout] at hw
        exact absurd hw (lt_irrefl 0)
      · exact .inl hempty

theorem owned_keep (h : Working threads c) (hp : p.locked = (c.next t).locked) (t' : ℕ) :
    c.sockCritSec = some t' ↔ (update c.next t p t').locked = true := by
  rcases eq_or_ne t' t with rfl | hne
  · rw [update_self, hp]
    exact h.owned t'
  · rw [update_of_ne hne]
    exact h.owned t'

theorem inside (h : Working threads c) (ht : (c.next t).locked = true)
    (hp : p.locked = true) (hnext : c'.next = update c.next t p)
    (hcount : c'.sock.outstandingOps - c'.inFlight.length - p.weight =
      c.sock.outstandingOps - c.inFlight.length - (c.next t).weight)
    (hlock : c'.sockCritSec = c.sockCritSec) (hfits : p.Fits c'.sock c'.dangling)
    (hfrees : c'.frees = c.frees) : Working threads c' := by
  have hlt : t < threads := by
    apply h.lt
    intro hout
    rw [hout] at ht
    cases ht
  refine h.move hlt hnext hcount ?_ hfits ?_ hfrees (.inl ?_)
  · intro t'
    rw [hlock]
    exact h.owned_keep (hp.trans ht.symm) t'
  · intro t' hne
    exact (h.fits t').of_not_locked (h.unlocked ht hne)
  · rintro rfl
    cases hp

theorem enters (h : Working threads c) (hfree : c.sockCritSec = none) (ht : t < threads)
    (hp : p.locked = true) (hnext : c'.next = update c.next t p)
    (hcount : c'.sock.outstandingOps - c'.inFlight.length - p.weight =
      c.sock.outstandingOps - c.inFlight.length - (c.next t).weight)
    (hlock : c'.sockCritSec = some t) (hfits : p.Fits c'.sock c'.dangling)
    (hfrees : c'.frees = c.frees) : Working threads c' := by
  refine h.move ht hnext hcount ?_ hfits ?_ hfrees (.inl ?_)
  · intro t'
    rw [hlock, Option.some.injEq]
    rcases eq_or_ne t' t with rfl | hne
    · rw [update_self]
      exact iff_of_true rfl hp
    · rw [update_of_ne hne, h.unlocked_of_none hfree t']
      exact iff_of_false (Ne.symm hne) Bool.false_ne_true
  · intro t' _
    exact (h.fits t').of_not_locked (h.unlocked_of_none hfree t')
  · rintro rfl
    cases hp

/-! ### One lemma for each place -/

theorem completes (h : Working threads c) (ht : t < threads)
    (hout : c.next t = .outside) (hop : op ∈ c.inFlight) (hw : p.weight = 1)
    (hp : p.locked = false) (hfits : p.Fits c.sock c.dangling) :
    Working threads ({ c with inFlight := c.inFlight.erase op }.goto t p) := by
  have hlen := List.length_erase_of_mem hop
  have hpos := List.length_pos_of_mem hop
  refine h.move ht rfl ?_ ?_ hfits ?_ rfl (.inl ?_)
  · rw [hout, hw]
    change c.sock.outstandingOps - (c.inFlight.erase op).length - 1 =
      c.sock.outstandingOps - c.inFlight.length - 0
    omega
  · apply h.owned_keep
    rw [hp, hout]
    rfl
  · exact fun t' _ => h.fits t'
  · rintro rfl
    cases hw

theorem enter (h : Working threads c) {bytes : List UInt8}
    (hp : c.next t = .enter op bytes) (hfree : c.sockCritSec = none)
    (hstep : Lifetime.enter t c op bytes = some c') : Working threads c' := by
  have ht : t < threads := by
    apply h.lt
    rw [hp]
    exact Place.noConfusion
  have hw : (c.next t).weight = 1 := by rw [hp]; rfl
  cases op with
  | opWrite sendobj =>
      obtain rfl := Option.some.inj hstep
      exact h.enters hfree ht rfl rfl (by rw [hw]; rfl) rfl trivial rfl
  | opRead recvobj =>
      cases bytes with
      | nil =>
          obtain rfl := Option.some.inj hstep
          exact h.enters hfree ht rfl rfl (by rw [hw]; rfl) rfl trivial rfl
      | cons byte bytes =>
          simp only [Lifetime.enter] at hstep
          split at hstep
          · cases hstep
          · obtain rfl := Option.some.inj hstep
            exact h.enters hfree ht rfl rfl (by rw [hw]; rfl) rfl trivial rfl

section AfterSends
variable (caller : Caller) (ok : Bool)

theorem afterSends_locked : (afterSends caller ok).locked = true := by
  cases caller <;> cases ok <;> rfl

theorem afterSends_weight : (afterSends caller ok).weight = (Place.doSends caller).weight := by
  cases caller <;> cases ok <;> rfl

end AfterSends

/-- When `DoSends` has nothing more to send, its caller goes on.  The last call of
`HandleIo` has nothing to send, so it does not fail. -/
theorem afterSends_fits {ok : Bool} {sock : SocketObj} {dangling : Bool}
    (hfits : (Place.doSends caller).Fits c.sock c.dangling) (hsent : Sent sock dangling)
    (hops : sock.outstandingOps = c.sock.outstandingOps)
    (hok : ok = true ∨ (Place.doSends caller).weight = 1) :
    (afterSends caller ok).Fits sock dangling := by
  cases caller with
  | data =>
      cases ok with
      | true => exact hsent
      | false => exact ⟨rfl, hsent⟩
  | zeroByte => exact hsent
  | opWrite => exact ⟨rfl, hsent⟩
  | last bCleanupSocket =>
      rcases hok with rfl | hw
      · obtain ⟨rfl, hops', -⟩ := hfits
        exact ⟨rfl, hops.ge.trans' hops'⟩
      · cases hw

theorem postSend (h : Working threads c) {sendobj : BufferObj} {rest : List BufferObj}
    (hp : c.next t = .doSends caller) (hcons : c.sock.outOfOrderSends = sendobj :: rest)
    (hdangling : ¬ c.dangling = true) (hhead : sendobj.ioOrder = c.sock.lastSendIssued) :
    Working threads (Lifetime.postSend caller t posted sendobj c) := by
  have hfits := h.fits t
  rw [hp] at hfits
  have hw : (Place.doSends caller).weight = 1 := by
    cases caller with
    | last bCleanupSocket =>
        rcases hfits.2.2 with htrue | hsent
        · exact absurd htrue hdangling
        · rw [hcons] at hsent
          exact absurd hhead (hsent sendobj rfl)
    | data | zeroByte | opWrite => rfl
  unfold Lifetime.postSend
  cases posted with
  | true =>
      have hcount : (Place.countSend caller).weight = (Place.doSends caller).weight - 1 := by
        cases caller <;> rfl
      refine h.inside (by rw [hp]; rfl) rfl rfl ?_ rfl ?_ rfl
      · rw [hcount, hp]
        change c.sock.outstandingOps - ((c.inFlight ++ _).length : ℕ) - _ =
          c.sock.outstandingOps - c.inFlight.length - _
        rw [List.length_append, List.length_singleton]
        omega
      · cases caller with
        | last => cases hw
        | data | zeroByte | opWrite => trivial
  | false =>
      refine h.inside (by rw [hp]; rfl) (afterSends_locked caller false) rfl ?_ rfl ?_ rfl
      · rw [afterSends_weight, hp]
        rfl
      · exact afterSends_fits hfits (.inl rfl) rfl (.inr hw)

theorem doSends (h : Working threads c) (hp : c.next t = .doSends caller)
    (hstep : Lifetime.doSends caller t posted c = some c') : Working threads c' := by
  have hlocked : (c.next t).locked = true := by rw [hp]; rfl
  have hfits := h.fits t
  rw [hp] at hfits
  have hends : Sent c.sock c.dangling → Working threads (c.goto t (afterSends caller true)) := by
    intro hsent
    refine h.inside hlocked (afterSends_locked caller true) rfl ?_ rfl ?_ rfl
    · rw [afterSends_weight, hp]
      rfl
    · exact afterSends_fits hfits hsent rfl (.inl rfl)
  by_cases hdangling : c.dangling = true
  · rw [Lifetime.doSends, if_pos hdangling] at hstep
    cases hstep
  · rw [Lifetime.doSends, if_neg hdangling] at hstep
    cases hlist : c.sock.outOfOrderSends with
    | nil =>
        rw [hlist] at hstep
        obtain rfl := Option.some.inj hstep
        refine hends (.inr ?_)
        rw [hlist]
        simp
    | cons sendobj rest =>
        simp only [hlist] at hstep
        by_cases hhead : sendobj.ioOrder = c.sock.lastSendIssued
        · rw [if_pos hhead] at hstep
          obtain rfl := Option.some.inj hstep
          exact h.postSend hp hlist hdangling hhead
        · rw [if_neg hhead] at hstep
          obtain rfl := Option.some.inj hstep
          refine hends (.inr ?_)
          rw [hlist]
          simpa using hhead

theorem countSend (h : Working threads c) (hp : c.next t = .countSend caller) :
    Working threads ({ c with sock :=
        { c.sock with
          outstandingOps := c.sock.outstandingOps + 1,
          outOfOrderSends := c.sock.outOfOrderSends.tail } }.goto t (.doSends caller)) := by
  have hfits := h.fits t
  rw [hp] at hfits
  have hw : (Place.doSends caller).weight = (c.next t).weight + 1 := by
    rw [hp]
    cases caller <;> rfl
  refine h.inside (by rw [hp]; rfl) rfl rfl ?_ rfl ?_ rfl
  · rw [hw]
    change c.sock.outstandingOps + 1 - c.inFlight.length - _ = _
    omega
  · cases caller with
    | last => exact absurd hfits id
    | data | zeroByte | opWrite => trivial

theorem test (h : Working threads c) (hp : c.next t = .test error) :
    Working threads (c.goto t (.decrement
      (decide (c.sock.outstandingOps = 0 ∧ c.sock.outOfOrderSends = [])) error)) := by
  have hfits := h.fits t
  rw [hp] at hfits
  have hle := h.weight_le (h.lt (by rw [hp]; exact Place.noConfusion))
  rw [hp] at hle
  change (c.inFlight.length : ℤ) + 1 ≤ c.sock.outstandingOps at hle
  have hne : ¬ (c.sock.outstandingOps = 0 ∧ c.sock.outOfOrderSends = []) := by
    rintro ⟨hzero, -⟩
    omega
  refine h.inside (by rw [hp]; rfl) rfl rfl (by rw [hp]; rfl) rfl ?_ rfl
  exact ⟨decide_eq_false hne, hfits⟩

theorem postRecv (h : Working threads c) (hp : c.next t = .postRecv) :
    Working threads (Lifetime.postRecv t posted c) := by
  have hfits := h.fits t
  rw [hp] at hfits
  unfold Lifetime.postRecv
  cases posted with
  | true =>
      refine h.inside (by rw [hp]; rfl) rfl rfl ?_ rfl hfits rfl
      rw [hp]
      change c.sock.outstandingOps - ((c.inFlight ++ _).length : ℕ) - 0 =
        c.sock.outstandingOps - c.inFlight.length - 1
      rw [List.length_append, List.length_singleton]
      omega
  | false =>
      refine h.inside (by rw [hp]; rfl) rfl rfl (by rw [hp]; rfl) rfl ?_ rfl
      exact ⟨rfl, hfits⟩

theorem countRecv (h : Working threads c) (hp : c.next t = .countRecv) : Working threads ({ c with
      sock := { c.sock with outstandingOps := c.sock.outstandingOps + 1 } }.goto t
        (.decrement false false)) := by
  have hfits := h.fits t
  rw [hp] at hfits
  refine h.inside (by rw [hp]; rfl) rfl rfl ?_ rfl ⟨rfl, hfits⟩ rfl
  rw [hp]
  change c.sock.outstandingOps + 1 - c.inFlight.length - 1 =
    c.sock.outstandingOps - c.inFlight.length - 0
  omega

theorem leave (h : Working threads c) (hp : c.next t = .leave bCleanupSocket) :
    Working threads ({ c with sockCritSec := none }.goto t
      (if bCleanupSocket then .closesocket else .outside)) := by
  obtain ⟨rfl, hops⟩ : bCleanupSocket = false ∧ 1 ≤ c.sock.outstandingOps := by
    have hfits := h.fits t
    rwa [hp] at hfits
  have hlocked : (c.next t).locked = true := by rw [hp]; rfl
  have hlt : t < threads := h.lt (by rw [hp]; exact Place.noConfusion)
  refine h.move hlt rfl (by rw [hp]; rfl) ?_ trivial ?_ rfl (.inr hops)
  · intro t'
    refine iff_of_false (Option.some_ne_none t').symm ?_
    rcases eq_or_ne t' t with rfl | hne
    · rw [update_self]
      exact Bool.false_ne_true
    · rw [update_of_ne hne, h.unlocked hlocked hne]
      exact Bool.false_ne_true
  · exact fun t' _ => h.fits t'

theorem inFlight_of_zero (h : Working threads c) (ht : t < threads)
    (hzero : c.sock.outstandingOps = (c.next t).weight) : c.inFlight = [] := by
  have hle := h.weight_le ht
  exact List.eq_nil_of_length_eq_zero (by omega)

theorem others_of_zero (h : Working threads c) (ht : (c.next t).locked = true)
    (hzero : c.sock.outstandingOps = (c.next t).weight) (hne : t' ≠ t) : c.next t' = .outside := by
  by_contra hout
  have hlt' := h.lt hout
  have hlt : t < threads := by
    apply h.lt
    intro hout'
    rw [hout'] at ht
    cases ht
  have hunlocked := h.unlocked ht hne
  have hle : (c.next t').weight + (c.next t).weight ≤ tally Place.weight c.next threads :=
    Tally.weights_le_tally (fun x _ => (h.fits x).weight_nonneg) hlt' hlt hne
  have hcounted := h.counted
  have hnonneg := (h.fits t').weight_nonneg
  exact hout ((h.fits t').outside_of_weight hunlocked (by omega))

/-- A success is counted down: either the thread is the last one and frees the object, or
other operations are counted. -/
theorem decrement (h : Working threads c) (hp : c.next t = .decrement bCleanupSocket error)
    (horderly : c.sock.outstandingOps = 1 →
      (c.sock.bClosing || error) = true ∧ c.sock.outOfOrderSends = []) :
    Working threads (Lifetime.decrement t bCleanupSocket error c) ∨
      Closing t (Lifetime.decrement t bCleanupSocket error c) := by
  have hlocked : (c.next t).locked = true := by rw [hp]; rfl
  have hlt : t < threads := h.lt (by rw [hp]; exact Place.noConfusion)
  have hw : (c.next t).weight = 1 := by rw [hp]; rfl
  obtain ⟨rfl, hsent⟩ : bCleanupSocket = false ∧ Sent c.sock c.dangling := by
    have hfits := h.fits t
    rwa [hp] at hfits
  by_cases hone : c.sock.outstandingOps = 1
  · obtain ⟨hclosing, hempty⟩ := horderly hone
    have hzero : c.sock.outstandingOps - 1 = 0 := by omega
    rw [Lifetime.decrement, if_pos ⟨hzero, hclosing, hempty⟩]
    refine .inr ⟨fun t' hne => ?_, .inl (goto_self _ t _), ?_, hzero, h.frees⟩
    · exact (goto_of_ne hne).trans (h.others_of_zero hlocked (hone.trans hw.symm) hne)
    · exact h.inFlight_of_zero hlt (hone.trans hw.symm)
  · have hle := h.weight_le hlt
    have hne : ¬ (c.sock.outstandingOps - 1 = 0 ∧ (c.sock.bClosing || error) = true ∧
        c.sock.outOfOrderSends = []) := by
      rintro ⟨hzero, -⟩
      omega
    rw [Lifetime.decrement, if_neg hne]
    refine .inl (h.inside hlocked rfl rfl ?_ rfl ⟨rfl, ?_, hsent⟩ rfl)
    · rw [hw]
      change c.sock.outstandingOps - 1 - c.inFlight.length - 0 =
        c.sock.outstandingOps - c.inFlight.length - 1
      omega
    · change 1 ≤ c.sock.outstandingOps - 1
      omega

theorem decrementError (h : Working threads c) (hp : c.next t = .decrementError)
    (horderly : c.sock.outstandingOps = 1 → ∀ t' < threads, t' ≠ t → c.next t' = .outside) :
    let sock := { c.sock with outstandingOps := c.sock.outstandingOps - 1 }
    let c' := { c with sock := sock }.goto t
      (if sock.outstandingOps = 0 then .freeSocketObj else .outside)
    Working threads c' ∨ Closing t c' := by
  intro sock c'
  have hlt : t < threads := h.lt (by rw [hp]; exact Place.noConfusion)
  have hw : (c.next t).weight = 1 := by rw [hp]; rfl
  have hle := h.weight_le hlt
  by_cases hone : c.sock.outstandingOps = 1
  · have hzero : sock.outstandingOps = 0 := by
      change c.sock.outstandingOps - 1 = 0
      omega
    refine .inr ⟨fun t' hne => ?_, .inr (.inr ?_), ?_, hzero, h.frees⟩
    · refine (goto_of_ne hne).trans ?_
      by_cases hlt' : t' < threads
      · exact horderly hone t' hlt' hne
      · exact h.beyond t' (not_lt.mp hlt')
    · exact (goto_self _ t _).trans (if_pos hzero)
    · exact h.inFlight_of_zero hlt (hone.trans hw.symm)
  · have hpos : 1 ≤ c.sock.outstandingOps - 1 := by omega
    have hne : ¬ sock.outstandingOps = 0 := by
      change ¬ c.sock.outstandingOps - 1 = 0
      omega
    refine .inl ?_
    change Working threads ({ c with sock := sock }.goto t
      (if sock.outstandingOps = 0 then .freeSocketObj else .outside))
    rw [if_neg hne]
    refine h.move hlt rfl ?_ ?_ trivial ?_ rfl (.inr hpos)
    · rw [hw]
      change c.sock.outstandingOps - 1 - c.inFlight.length - 0 =
        c.sock.outstandingOps - c.inFlight.length - 1
      omega
    · apply h.owned_keep
      rw [hp]
      rfl
    · intro t' _
      exact (h.fits t').of_outstandingOps hpos

end Working

theorem Closing.goes (h : Closing t c) {t' : ℕ}
    (hstep : advance t' posted c (c.next t') = some c') : Closing t c' ∨ Freed c' := by
  obtain rfl : t' = t := by
    by_contra hne
    rw [h.others t' hne] at hstep
    cases hstep
  have hothers : ∀ p t, t ≠ t' → (c.goto t' p).next t = .outside :=
    fun p t hne => (goto_of_ne hne).trans (h.others t hne)
  rcases h.place with hp | hp | hp
  · rw [hp] at hstep
    obtain rfl := Option.some.inj hstep
    exact .inl ⟨hothers _, .inr (.inl (goto_self _ t' _)), h.inFlight, h.outstandingOps, h.frees⟩
  · rw [hp] at hstep
    obtain rfl := Option.some.inj hstep
    exact .inl ⟨hothers _, .inr (.inr (goto_self _ t' _)), h.inFlight, h.outstandingOps, h.frees⟩
  · rw [hp] at hstep
    obtain rfl := Option.some.inj hstep
    rw [freeSocketObj, if_pos h.outstandingOps]
    refine .inr ⟨fun t => ?_, h.inFlight, congrArg (· + 1) h.frees⟩
    rcases eq_or_ne t t' with rfl | hne
    · exact goto_self _ t _
    · exact hothers _ t hne

/-! ## Runs -/

/-- Where the connection is in its life. -/
inductive Phase (threads : ℕ) (c : Connection) : Prop
  | working (h : Working threads c)
  | closing (t : ℕ) (h : Closing t c)
  | freed (h : Freed c)

theorem Working.goes (h : Working threads c) (horderly : Orderly threads c (.goes t posted))
    (hstep : advance t posted c (c.next t) = some c') : Phase threads c' := by
  cases hp : c.next t with
  | outside =>
      rw [hp] at hstep
      cases hstep
  | decrementError =>
      rw [hp] at hstep
      simp only [Orderly, hp, MayCountDown] at horderly
      obtain rfl := Option.some.inj hstep
      rcases h.decrementError hp horderly with hworking | hclosing
      · exact .working hworking
      · exact .closing t hclosing
  | enter op bytes =>
      simp only [hp, advance] at hstep
      by_cases hfree : c.sockCritSec = none
      · rw [if_pos hfree] at hstep
        exact .working (h.enter hp hfree hstep)
      · rw [if_neg hfree] at hstep
        cases hstep
  | doSends caller =>
      rw [hp] at hstep
      exact .working (h.doSends hp hstep)
  | countSend caller =>
      rw [hp] at hstep
      obtain rfl := Option.some.inj hstep
      exact .working (h.countSend hp)
  | test error =>
      rw [hp] at hstep
      obtain rfl := Option.some.inj hstep
      exact .working (h.test hp)
  | postRecv =>
      rw [hp] at hstep
      obtain rfl := Option.some.inj hstep
      exact .working (h.postRecv hp)
  | countRecv =>
      rw [hp] at hstep
      obtain rfl := Option.some.inj hstep
      exact .working (h.countRecv hp)
  | decrement bCleanupSocket error =>
      rw [hp] at hstep
      simp only [Orderly, hp, MayCountDown] at horderly
      obtain rfl := Option.some.inj hstep
      rcases h.decrement hp horderly with hworking | hclosing
      · exact .working hworking
      · exact .closing t hclosing
  | leave bCleanupSocket =>
      rw [hp] at hstep
      obtain rfl := Option.some.inj hstep
      exact .working (h.leave hp)
  | closesocket | freeSocketObj =>
      have hfits := h.fits t
      rw [hp] at hfits
      exact absurd hfits id

theorem Phase.step (h : Phase threads c) {a : Action} (horderly : Orderly threads c a)
    (hstep : Lifetime.step threads c a = some c') : Phase threads c' := by
  cases a with
  | completes t op transferred =>
      simp only [Lifetime.step] at hstep
      split at hstep
      · rename_i hcond
        obtain ⟨ht, hout, hop⟩ := hcond
        cases h with
        | working h =>
            cases transferred with
            | none | some bytes =>
                obtain rfl := Option.some.inj hstep
                exact .working (h.completes ht hout hop rfl rfl trivial)
        | closing t' h | freed h =>
            rw [h.inFlight] at hop
            exact absurd hop List.not_mem_nil
      · cases hstep
  | goes t posted =>
      simp only [Lifetime.step] at hstep
      split at hstep
      · cases h with
        | working h => exact h.goes horderly hstep
        | closing t' h =>
            rcases h.goes hstep with hclosing | hfreed
            · exact .closing t' hclosing
            · exact .freed hfreed
        | freed h =>
            rw [h.next t] at hstep
            cases hstep
      · cases hstep

theorem phase_of_run {c₀ : Connection} {as : List Action} (hquiet : c₀.Quiet)
    (hrun : RunsTo (step threads) (Orderly threads) c₀ as c) : Phase threads c :=
  hrun.invariant (Phase threads) (.working hquiet.working)
    fun _ _ _ h horderly hstep => h.step horderly hstep

/-- The object is freed once, with no operation in flight and no thread at work on it;
and when nothing is in flight and no thread is at work, it has been freed. -/
theorem socketObj_freed_once {c₀ : Connection} {as : List Action} (hquiet : c₀.Quiet)
    (hrun : RunsTo (step threads) (Orderly threads) c₀ as c) :
    c.frees ≤ 1 ∧
      (0 < c.frees → c.inFlight = [] ∧ ∀ t, c.next t = .outside) ∧
      (c.inFlight = [] → (∀ t, c.next t = .outside) → c.frees = 1) := by
  cases phase_of_run hquiet hrun with
  | working h =>
      refine ⟨h.frees.le.trans zero_le_one, fun hpos => ?_, fun hempty hout => ?_⟩
      · exact absurd h.frees hpos.ne'
      · rcases h.busy with hne | ⟨t, ht⟩
        · exact absurd hempty hne
        · exact absurd (hout t) ht
  | closing t h =>
      refine ⟨h.frees.le.trans zero_le_one, fun hpos => ?_, fun _ hout => ?_⟩
      · exact absurd h.frees hpos.ne'
      · have hplace := h.place
        rw [hout t] at hplace
        rcases hplace with hp | hp | hp <;> cases hp
  | freed h =>
      exact ⟨h.frees.le, fun _ => ⟨h.inFlight, h.next⟩, fun _ _ => h.frees⟩

/-- A connection with the given operations in flight, of which `sock` has the count. -/
def Connection.waiting (sock : SocketObj) (inFlight : List Operation) : Connection :=
  { sock := sock, socketOpen := true, sockCritSec := none, dangling := false,
    recvCalls := inFlight.length, inFlight := inFlight, frees := 0,
    next := fun _ => .outside }

theorem waiting_quiet {sock : SocketObj} {inFlight : List Operation} (hne : inFlight ≠ [])
    (hcount : sock.outstandingOps = inFlight.length) :
    (Connection.waiting sock inFlight).Quiet where
  next _ := rfl
  sockCritSec := rfl
  dangling := rfl
  frees := rfl
  inFlight := hne
  outstandingOps := hcount

/-- An accepted connection that waits for the echo of the accept and for one receive. -/
def accepted : Connection :=
  .waiting
    { bClosing := false, outstandingOps := 2, lastSendIssued := 1, ioCountIssued := 2,
      outOfOrderSends := [] }
    [.opWrite ⟨0, none, [1]⟩, .opRead ⟨1, 0⟩]

/-- The peer closes; the two threads handle the two completions side by side. -/
def closed : List Action :=
  [.completes 0 (.opRead ⟨1, 0⟩) (some []), .completes 1 (.opWrite ⟨0, none, [1]⟩) (some []),
    .goes 0 true, .goes 0 true, .goes 0 true, .goes 0 true, .goes 0 true, .goes 0 true,
    .goes 1 true, .goes 1 true, .goes 1 true, .goes 1 true, .goes 1 true, .goes 1 true]

theorem socketObj_freed_once_closed :
    ∃ c, accepted.Quiet ∧ RunsTo (step 2) (Orderly 2) accepted closed c ∧ 0 < c.frees ∧
      c.inFlight = [] ∧ ∀ t, c.next t = .outside := by
  have hquiet : accepted.Quiet := waiting_quiet (List.cons_ne_nil _ _) (by decide)
  have hrun : RunsTo (step 2) (Orderly 2) accepted closed _ := RunsTo.of_isSome (by decide)
  exact ⟨_, hquiet, hrun, by decide, (socketObj_freed_once hquiet hrun).2.1 (by decide)⟩

/-- A connection that waits for one receive. -/
def receiving : Connection :=
  .waiting
    { bClosing := false, outstandingOps := 1, lastSendIssued := 1, ioCountIssued := 2,
      outOfOrderSends := [] }
    [.opRead ⟨1, 0⟩]

/-- Thread 0 posts the echo; the connection is reset, and thread 1 handles the error of the
send before thread 0 has counted it. -/
def resetDuringSend : List Action :=
  [.completes 0 (.opRead ⟨1, 0⟩) (some [1]), .goes 0 true, .goes 0 true,
    .completes 1 (.opWrite ⟨1, some 0, [1]⟩) none, .goes 1 true, .goes 1 true]

/-- The object is freed under the thread that has posted the send and is about to count it
in the object. -/
theorem freed_before_counted :
    receiving.Quiet ∧ ∃ c, RunsTo (step 2) Always receiving resetDuringSend c ∧
      c.frees = 1 ∧ c.next 0 = .countSend .data :=
  ⟨waiting_quiet (List.cons_ne_nil _ _) (by decide), _, RunsTo.of_isSome (by decide),
    by decide, by decide⟩

end MiscProjects.Iocp.Lifetime
