import Mathlib.Algebra.Ring.Int.Defs
import Mathlib.Data.List.Basic
import Mathlib.Logic.Function.Basic
import MiscProjects.Library.Runs

/-!
# The outstanding operations of the overlapped server

Every socket counts the overlapped operations that are outstanding on it.  A step is one
call of `HandleIo` for an operation that has completed, or one post of the main thread;
what the posts and the operations come to is part of the step.
-/

namespace MiscProjects.Overlapped.Operations

open Function (update update_self update_of_ne)
open Runs

inductive Protocol
  | tcp
  | udp
deriving DecidableEq

inductive Operation
  | accept
  | read
  | write
deriving DecidableEq

/-- A `SOCKET_OBJ`; `opened` says that its handle is not `INVALID_SOCKET`, `connection` that
it has been accepted. -/
structure SocketObj where
  outstandingOps : ℤ
  bClosing : Bool
  opened : Bool
  connection : Bool
deriving DecidableEq

/-- The sockets are numbered in the order in which they have been created; `none` stands for
one that has been freed. -/
structure State where
  sockets : ℕ → Option SocketObj
  created : ℕ
  inFlight : List (ℕ × Operation)
  running : Bool

def start : State where
  sockets := fun _ => none
  created := 0
  inFlight := []
  running := true

/-- The result of a call that posts an operation: `done` at once, or `WSA_IO_PENDING`. -/
inductive PostResult
  | pending
  | done
  | failed
deriving DecidableEq

namespace State
variable (s : State) (sock : ℕ)

def modify (f : SocketObj → SocketObj) : State :=
  { s with sockets := update s.sockets sock ((s.sockets sock).map f) }

def getSocketObj (connection : Bool) : State :=
  { s with
    sockets := update s.sockets s.created (some ⟨0, false, true, connection⟩)
    created := s.created + 1 }

/-- `InterlockedIncrement` and `InterlockedDecrement` of `OutstandingOps`. -/
def addOutstandingOps (n : ℤ) : State :=
  s.modify sock fun obj => { obj with outstandingOps := obj.outstandingOps + n }

/-- `closesocket`, with `INVALID_SOCKET`. -/
def closesocket : State := s.modify sock fun obj => { obj with opened := false }

def freeSocketObj : State :=
  match s.sockets sock with
  | some obj =>
      if obj.outstandingOps ≠ 0 then s else { s with sockets := update s.sockets sock none }
  | none => s

/-- The number of operations in flight on a socket. -/
def flights (k : ℕ) : ℕ := s.inFlight.countP (·.1 = k)

/-- A post on a socket; on an invalid one it fails.  The count is raised whatever the
result. -/
def post (op : Operation) (rc : PostResult) : State × PostResult :=
  let rc := if (s.sockets sock).any (·.opened) then rc else .failed
  let s := s.addOutstandingOps sock 1
  (if rc = .failed then s else { s with inFlight := s.inFlight ++ [(sock, op)] }, rc)

/-- `PostRecv`, which returns `NO_ERROR` in any case. -/
def postRecv (rc : PostResult) : State × Bool := ((s.post sock .read rc).1, true)

/-- `PostSend`, and whether it returns `NO_ERROR`. -/
def postSend (rc : PostResult) : State × Bool :=
  ((s.post sock .write rc).1, decide ((s.post sock .write rc).2 ≠ .failed))

/-- `PostAccept`, and whether it returns `NO_ERROR`; `none` if there is no client socket.  When
`AcceptEx` is done at once its `TRUE` is returned. -/
def postAccept : Option PostResult → State × Bool
  | none => (s, false)
  | some rc => ((s.post sock .accept rc).1, decide ((s.post sock .accept rc).2 = .pending))

end State

/-- What the calls return that `HandleIo` makes: the number of bytes of the operation unless
it has failed, and the results of the posts. -/
structure Calls where
  overlapped : Option ℕ
  send : PostResult
  recv : PostResult
  accept : Option PostResult

namespace State
variable (s : State) (sock : ℕ)

/-- The branch of `OP_ACCEPT`. -/
def handleAccept (calls : Calls) : State :=
  let client := s.created
  let posted := (s.getSocketObj true).postSend client calls.send
  let s := if posted.2 then posted.1 else (posted.1.closesocket client).freeSocketObj client
  (s.postAccept sock calls.accept).1

/-- The branch of `OP_READ` without an error. -/
def handleRead (gProtocol : Protocol) (bytes : ℕ) (calls : Calls) : State :=
  if 0 < bytes ∨ gProtocol = .udp then
    let posted := s.postSend sock calls.send
    if posted.2 then posted.1 else (posted.1.closesocket sock).freeSocketObj sock
  else
    let s := s.modify sock fun obj => { obj with bClosing := true }
    if (s.sockets sock).any (·.outstandingOps = 0) then s.freeSocketObj sock else s

/-- The branch of `OP_READ` with an error over UDP. -/
def handleReadError (calls : Calls) : State :=
  let posted := s.postRecv sock calls.recv
  if posted.2 then posted.1 else (posted.1.closesocket sock).freeSocketObj sock

/-- The branch of `OP_WRITE`. -/
def handleWrite (calls : Calls) : State :=
  if (s.sockets sock).any fun obj => obj.bClosing ∧ obj.outstandingOps = 0 then
    (s.closesocket sock).freeSocketObj sock
  else (s.postRecv sock calls.recv).1

/-- The error of an operation over TCP, after the first decrement. -/
def handleError : State :=
  let s := s.addOutstandingOps sock (-1)
  if (s.sockets sock).any (·.outstandingOps = 0) then s.freeSocketObj sock else s

def handleIo (gProtocol : Protocol) (op : Operation) (calls : Calls) : State :=
  let s := s.addOutstandingOps sock (-1)
  match gProtocol, op, calls.overlapped with
  | .tcp, _, none => s.handleError sock
  | _, .accept, _ => s.handleAccept sock calls
  | gProtocol, .read, some bytes => s.handleRead sock gProtocol bytes calls
  | .udp, .read, none => s.handleReadError sock calls
  | _, .write, _ => s.handleWrite sock calls

end State

inductive Action
  | socket
  | post (sock : ℕ) (rc : Option PostResult)
  | complete (sock : ℕ) (op : Operation) (calls : Calls)

/-- One step.  The main thread exits when `PostAccept` has returned `NO_ERROR`; an operation
that has completed is not in flight any more. -/
def step (gProtocol : Protocol) (s : State) : Action → Option State
  | .socket => if s.running then some (s.getSocketObj false) else none
  | .post sock rc =>
      if s.running ∧ (s.sockets sock).any (!·.connection) then
        match gProtocol, rc with
        | .tcp, rc =>
            let posted := s.postAccept sock rc
            some { posted.1 with running := !posted.2 }
        | .udp, some rc => some (s.postRecv sock rc).1
        | .udp, none => none
      else none
  | .complete sock op calls =>
      if s.running ∧ (sock, op) ∈ s.inFlight then
        some (State.handleIo { s with inFlight := s.inFlight.erase (sock, op) } sock gProtocol op
          calls)
      else none

/-- No post fails, and no operation over TCP. -/
def Succeeds (gProtocol : Protocol) (_ : State) : Action → Prop
  | .socket => True
  | .post _ rc => rc ≠ some .failed
  | .complete _ _ calls =>
      calls.send ≠ .failed ∧ calls.recv ≠ .failed ∧ calls.accept ≠ some .failed ∧
        (gProtocol = .tcp → calls.overlapped ≠ none)

instance (gProtocol : Protocol) (s : State) (a : Action) : Decidable (Succeeds gProtocol s a) :=
  match a with
  | .socket => inferInstanceAs (Decidable True)
  | .post _ rc => inferInstanceAs (Decidable (rc ≠ some .failed))
  | .complete _ _ calls => inferInstanceAs
      (Decidable (calls.send ≠ .failed ∧ calls.recv ≠ .failed ∧ calls.accept ≠ some .failed ∧
        (gProtocol = .tcp → calls.overlapped ≠ none)))

/-! ## What is kept -/

/-- The operations that belong on a socket. -/
def Belongs (gProtocol : Protocol) (obj : SocketObj) (op : Operation) : Prop :=
  match gProtocol with
  | .tcp => op = .accept ↔ obj.connection = false
  | .udp => op ≠ .accept ∧ obj.connection = false

/-- Every socket counts its operations in flight, and every connection has one, but for the
one whose operation is being handled. -/
structure Counted (gProtocol : Protocol) (s : State) (handled : Option ℕ) : Prop where
  ops : ∀ k obj, s.sockets k = some obj → obj.outstandingOps = s.flights k
  exists_obj : ∀ k op, (k, op) ∈ s.inFlight → ∃ obj, s.sockets k = some obj ∧
    Belongs gProtocol obj op
  fresh : ∀ k, s.created ≤ k → s.sockets k = none
  usable : ∀ k obj, s.sockets k = some obj → obj.opened = true ∧ obj.bClosing = false
  single : ∀ k obj, s.sockets k = some obj → obj.connection = true →
    s.flights k = if handled = some k then 0 else 1

section Counted
variable {gProtocol : Protocol} {s s' : State} {sock : ℕ} {obj : SocketObj} {op : Operation}
  {handled : Option ℕ} {calls : Calls}

theorem counted_start : Counted gProtocol start none where
  ops := by simp [start]
  exists_obj := by simp [start]
  fresh := fun _ _ => rfl
  usable := by simp [start]
  single := by simp [start]

theorem sockets_modify (f : SocketObj → SocketObj) {k : ℕ} {obj' : SocketObj}
    (h : (s.modify sock f).sockets k = some obj') :
    ∃ obj, s.sockets k = some obj ∧ obj' = if k = sock then f obj else obj := by
  by_cases hk : k = sock
  · subst hk
    simp only [State.modify, update_self, Option.map_eq_some_iff] at h
    obtain ⟨obj, hobj, rfl⟩ := h
    exact ⟨obj, hobj, by rw [if_pos rfl]⟩
  · simp only [State.modify, update_of_ne hk] at h
    exact ⟨obj', h, by rw [if_neg hk]⟩

theorem modify_self (f : SocketObj → SocketObj) (hobj : s.sockets sock = some obj) :
    (s.modify sock f).sockets sock = some (f obj) := by
  simp only [State.modify, update_self, hobj, Option.map_some]

theorem modify_other (f : SocketObj → SocketObj) {k : ℕ} (hk : k ≠ sock) :
    (s.modify sock f).sockets k = s.sockets k :=
  update_of_ne hk ..

theorem flights_erase (hmem : (sock, op) ∈ s.inFlight) (k : ℕ) :
    s.flights k = State.flights { s with inFlight := s.inFlight.erase (sock, op) } k +
      if k = sock then 1 else 0 := by
  have hperm := (List.perm_cons_erase hmem).countP_eq fun x => decide (x.1 = k)
  rw [State.flights, hperm, List.countP_cons]
  by_cases hk : k = sock
  · subst hk
    simp [State.flights]
  · have hk' : ¬ sock = k := fun h => hk h.symm
    simp [State.flights, hk, hk']

theorem flights_append (k : ℕ) : State.flights { s with inFlight := s.inFlight ++ [(sock, op)] } k =
      s.flights k + if k = sock then 1 else 0 := by
  rw [State.flights, List.countP_append, List.countP_singleton]
  by_cases hk : k = sock
  · subst hk
    simp [State.flights]
  · have hk' : ¬ sock = k := fun h => hk h.symm
    simp [State.flights, hk, hk']

theorem Counted.recount (h : Counted gProtocol s handled) {l : List (ℕ × Operation)} {n : ℤ}
    {handled' : Option ℕ} (hcount : ∀ k, (State.flights { s with inFlight := l } k : ℤ) =
      s.flights k + if k = sock then n else 0) (hmem : ∀ k op, (k, op) ∈ l → (k, op) ∈ s.inFlight ∨
      k = sock ∧ ∃ obj, s.sockets sock = some obj ∧ Belongs gProtocol obj op)
    (hsingle : ∀ obj, s.sockets sock = some obj → obj.connection = true →
      State.flights { s with inFlight := l } sock = if handled' = some sock then 0 else 1)
    (hother : ∀ k, k ≠ sock → (handled' = some k ↔ handled = some k)) :
    Counted gProtocol (State.addOutstandingOps { s with inFlight := l } sock n) handled' := by
  refine ⟨fun k obj hk => ?_, fun k op hk => ?_, fun k hk => ?_, fun k obj hk => ?_,
    fun k obj hk hconnection => ?_⟩
  · obtain ⟨old, hold, rfl⟩ := sockets_modify _ hk
    have hops := h.ops k old hold
    have hcountk := hcount k
    change _ = (State.flights { s with inFlight := l } k : ℤ)
    split <;> simp_all
  · have hobj : ∃ obj, s.sockets k = some obj ∧ Belongs gProtocol obj op := by
      rcases hmem k op hk with hold | ⟨rfl, hnew⟩
      · exact h.exists_obj k op hold
      · exact hnew
    obtain ⟨obj, hobj, hbelongs⟩ := hobj
    by_cases hks : k = sock
    · subst hks
      refine ⟨_, modify_self _ hobj, ?_⟩
      cases gProtocol <;> exact hbelongs
    · exact ⟨obj, (modify_other _ hks).trans hobj, hbelongs⟩
  · have hnone := h.fresh k hk
    by_cases hks : k = sock
    · subst hks
      simp only [State.addOutstandingOps, State.modify, update_self, hnone, Option.map_none]
    · exact (modify_other _ hks).trans hnone
  · obtain ⟨old, hold, rfl⟩ := sockets_modify _ hk
    have husable := h.usable k old hold
    split <;> exact husable
  · obtain ⟨old, hold, rfl⟩ := sockets_modify _ hk
    have hconnection' : old.connection = true := by
      split at hconnection <;> exact hconnection
    by_cases hks : k = sock
    · subst hks
      exact hsingle old hold hconnection'
    · have hsame : State.flights { s with inFlight := l } k = s.flights k := by
        have hcountk := hcount k
        rw [if_neg hks, add_zero] at hcountk
        exact Int.ofNat.inj hcountk
      change State.flights { s with inFlight := l } k = _
      rw [hsame, h.single k old hold hconnection']
      simp only [hother k hks]

theorem Counted.decrement (h : Counted gProtocol s none) (hmem : (sock, op) ∈ s.inFlight) :
    Counted gProtocol (State.addOutstandingOps
        { s with inFlight := s.inFlight.erase (sock, op) } sock (-1)) (some sock) ∧
      ∃ obj, State.sockets (State.addOutstandingOps
          { s with inFlight := s.inFlight.erase (sock, op) } sock (-1)) sock = some obj ∧
        Belongs gProtocol obj op := by
  obtain ⟨obj, hobj, hbelongs⟩ := h.exists_obj sock op hmem
  constructor
  · refine h.recount (fun k => ?_) (fun k op' hk => .inl (List.mem_of_mem_erase hk))
      (fun obj' hobj' hconnection => ?_) (fun k hk => ?_)
    · rw [flights_erase hmem k]
      split <;> simp
    · have hone := h.single sock obj' hobj' hconnection
      have hflights := flights_erase hmem sock
      rw [if_pos rfl] at hflights ⊢
      simp only [reduceCtorEq, if_false] at hone
      omega
    · simp only [Option.some.injEq, reduceCtorEq, iff_false]
      exact fun hsame => hk hsame.symm
  · refine ⟨_, modify_self _ hobj, ?_⟩
    cases gProtocol <;> exact hbelongs

theorem Counted.post (h : Counted gProtocol s handled) (hobj : s.sockets sock = some obj)
    (hbelongs : Belongs gProtocol obj op) {rc : PostResult} (hrc : rc ≠ .failed)
    (hhandled : handled = none ∧ obj.connection = false ∨ handled = some sock) :
    Counted gProtocol (s.post sock op rc).1 none ∧ (s.post sock op rc).2 = rc := by
  have hopened : (s.sockets sock).any (·.opened) = true := by
    rw [hobj]
    exact (h.usable sock obj hobj).1
  simp only [State.post, hopened, if_true, if_neg hrc, and_true]
  change Counted gProtocol
    (State.addOutstandingOps { s with inFlight := s.inFlight ++ [(sock, op)] } sock 1) none
  refine h.recount (fun k => ?_) (fun k op' hk => ?_) (fun obj' hobj' hconnection => ?_)
    (fun k hk => ?_)
  · rw [flights_append]
    split <;> simp
  · rcases List.mem_append.mp hk with hk | hk
    · exact .inl hk
    · obtain ⟨rfl, rfl⟩ := Prod.mk.inj (List.mem_singleton.mp hk)
      exact .inr ⟨rfl, obj, hobj, hbelongs⟩
  · obtain rfl := Option.some.inj (hobj.symm.trans hobj')
    rcases hhandled with ⟨-, hendpoint⟩ | hhandled
    · rw [hconnection] at hendpoint
      cases hendpoint
    · have hzero := h.single sock obj hobj hconnection
      rw [hhandled, if_pos rfl] at hzero
      rw [flights_append, hzero, if_pos rfl]
      rfl
  · rcases hhandled with ⟨rfl, -⟩ | rfl
    · rfl
    · simp only [reduceCtorEq, Option.some.injEq, false_iff]
      exact fun hsame => hk hsame.symm

theorem Counted.endpoint (h : Counted gProtocol s (some sock)) (hobj : s.sockets sock = some obj)
    (hendpoint : obj.connection = false) : Counted gProtocol s none := by
  refine ⟨h.ops, h.exists_obj, h.fresh, h.usable, fun k obj' hk hconnection => ?_⟩
  have hsingle := h.single k obj' hk hconnection
  have hks : sock ≠ k := by
    rintro rfl
    obtain rfl := Option.some.inj (hobj.symm.trans hk)
    rw [hconnection] at hendpoint
    cases hendpoint
  rwa [if_neg (by simpa using hks)] at hsingle

theorem flights_eq_zero (h : Counted gProtocol s handled) {k : ℕ} (hk : s.sockets k = none) :
    s.flights k = 0 := by
  rw [State.flights, List.countP_eq_zero]
  rintro ⟨sock, op⟩ hmem
  obtain ⟨obj, hobj, -⟩ := h.exists_obj sock op hmem
  simp only [decide_eq_true_eq]
  rintro rfl
  rw [hk] at hobj
  cases hobj

theorem getSocketObj_other (connection : Bool) {k : ℕ} (hk : k ≠ s.created) :
    (s.getSocketObj connection).sockets k = s.sockets k :=
  update_of_ne hk ..

theorem Counted.getSocketObj (h : Counted gProtocol s none) (connection : Bool) :
    Counted gProtocol (s.getSocketObj connection) (if connection then some s.created else none) ∧
      (s.getSocketObj connection).sockets s.created = some ⟨0, false, true, connection⟩ := by
  have hnew : (s.getSocketObj connection).sockets s.created =
      some ⟨0, false, true, connection⟩ := update_self ..
  have hzero : s.flights s.created = 0 := flights_eq_zero h (h.fresh _ (Nat.le_refl _))
  have hold : ∀ k obj, (s.getSocketObj connection).sockets k = some obj →
      k = s.created ∧ obj = ⟨0, false, true, connection⟩ ∨
        k ≠ s.created ∧ s.sockets k = some obj := by
    intro k obj hk
    by_cases hks : k = s.created
    · rw [hks, hnew] at hk
      exact .inl ⟨hks, (Option.some.inj hk).symm⟩
    · exact .inr ⟨hks, (getSocketObj_other connection hks).symm.trans hk⟩
  refine ⟨⟨fun k obj hk => ?_, fun k op hk => ?_, fun k hk => ?_, fun k obj hk => ?_,
    fun k obj hk hconnection => ?_⟩, hnew⟩
  · rcases hold k obj hk with ⟨rfl, rfl⟩ | ⟨-, hk⟩
    · exact (congrArg Int.ofNat hzero).symm
    · exact h.ops k obj hk
  · obtain ⟨obj, hobj, hbelongs⟩ := h.exists_obj k op hk
    refine ⟨obj, ?_, hbelongs⟩
    refine (getSocketObj_other connection ?_).trans hobj
    rintro rfl
    rw [h.fresh _ (Nat.le_refl _)] at hobj
    cases hobj
  · have hk' : s.created + 1 ≤ k := hk
    exact (getSocketObj_other connection (by omega)).trans (h.fresh k (by omega))
  · rcases hold k obj hk with ⟨rfl, rfl⟩ | ⟨-, hk⟩
    · exact ⟨rfl, rfl⟩
    · exact h.usable k obj hk
  · rcases hold k obj hk with ⟨rfl, rfl⟩ | ⟨hks, hk⟩
    · obtain rfl : connection = true := hconnection
      rw [if_pos rfl, if_pos rfl]
      exact hzero
    · have hone := h.single k obj hk hconnection
      simp only [reduceCtorEq, if_false] at hone
      have hnot : (if connection then some s.created else none) ≠ some k := by
        split
        · simpa using Ne.symm hks
        · simp
      rw [if_neg hnot]
      exact hone

theorem Counted.free (h : Counted gProtocol s (some sock)) (hobj : s.sockets sock = some obj)
    (hconnection : obj.connection = true) :
    Counted gProtocol { s with sockets := update s.sockets sock none } none := by
  have hzero := h.single sock obj hobj hconnection
  rw [if_pos rfl, State.flights, List.countP_eq_zero] at hzero
  have hold : ∀ k obj', update s.sockets sock none k = some obj' →
      k ≠ sock ∧ s.sockets k = some obj' := by
    intro k obj' hk
    by_cases hks : k = sock
    · rw [hks, update_self] at hk
      cases hk
    · exact ⟨hks, by rwa [update_of_ne hks] at hk⟩
  refine ⟨fun k obj' hk => h.ops k obj' (hold k obj' hk).2, fun k op hk => ?_, fun k hk => ?_,
    fun k obj' hk => h.usable k obj' (hold k obj' hk).2, fun k obj' hk hconnection => ?_⟩
  · obtain ⟨obj', hobj', hbelongs⟩ := h.exists_obj k op hk
    have hks : k ≠ sock := by
      have hnot := hzero (k, op) hk
      simpa using hnot
    exact ⟨obj', (update_of_ne hks ..).trans hobj', hbelongs⟩
  · by_cases hks : k = sock
    · rw [hks]
      exact update_self ..
    · exact (update_of_ne hks ..).trans (h.fresh k hk)
  · obtain ⟨hks, hk⟩ := hold k obj' hk
    have hone := h.single k obj' hk hconnection
    rwa [if_neg (by simpa using Ne.symm hks)] at hone

theorem post_other (op : Operation) (rc : PostResult) {k : ℕ} (hk : k ≠ sock) :
    (s.post sock op rc).1.sockets k = s.sockets k := by
  simp only [State.post]
  split <;> split <;> exact modify_other _ hk

theorem Counted.handleAccept (h : Counted gProtocol s none) (hobj : s.sockets sock = some obj)
    (hbelongs : Belongs gProtocol obj .accept) (hsend : calls.send ≠ .failed)
    (haccept : calls.accept ≠ some .failed) :
    Counted gProtocol (s.handleAccept sock calls) none := by
  cases gProtocol with
  | udp => exact absurd rfl hbelongs.1
  | tcp =>
      have hendpoint : obj.connection = false := hbelongs.mp rfl
      have hsock : sock ≠ s.created := by
        rintro rfl
        rw [h.fresh _ (Nat.le_refl _)] at hobj
        cases hobj
      obtain ⟨hclient, hnew⟩ := h.getSocketObj true
      have hwrite : Belongs .tcp ⟨0, false, true, true⟩ .write :=
        ⟨Operation.noConfusion, Bool.noConfusion⟩
      obtain ⟨hposted, hrc⟩ := hclient.post hnew hwrite hsend (.inr rfl)
      have hobj' : ((s.getSocketObj true).post s.created .write calls.send).1.sockets sock =
          some obj := (post_other _ _ hsock).trans ((getSocketObj_other true hsock).trans hobj)
      simp only [State.handleAccept, State.postSend, hrc, ne_eq, hsend, not_false_eq_true,
        decide_true, if_true]
      cases hcalls : calls.accept with
      | none => exact hposted
      | some rc =>
          rw [hcalls] at haccept
          exact (hposted.post hobj' hbelongs (by simpa using haccept) (.inl ⟨rfl, hendpoint⟩)).1

theorem Counted.handleRead {bytes : ℕ} (h : Counted gProtocol s (some sock))
    (hobj : s.sockets sock = some obj) (hbelongs : Belongs gProtocol obj .read)
    (hsend : calls.send ≠ .failed) :
    Counted gProtocol (s.handleRead sock gProtocol bytes calls) none := by
  have hwrite : Belongs gProtocol obj .write := by
    cases gProtocol with
    | tcp => exact ⟨Operation.noConfusion, fun hfalse => absurd (hbelongs.mpr hfalse) (by simp)⟩
    | udp => exact ⟨Operation.noConfusion, hbelongs.2⟩
  rw [State.handleRead]
  split
  case isTrue =>
    obtain ⟨hposted, hrc⟩ := h.post hobj hwrite hsend (.inr rfl)
    simp only [State.postSend, hrc, ne_eq, hsend, not_false_eq_true, decide_true, if_true]
    exact hposted
  case isFalse hzero =>
    have hconnection : obj.connection = true := by
      cases gProtocol with
      | udp => exact absurd (.inr rfl) hzero
      | tcp =>
          cases hfalse : obj.connection with
          | true => rfl
          | false => exact absurd (hbelongs.mpr hfalse) (by simp)
    have hops : obj.outstandingOps = 0 := by
      rw [h.ops sock obj hobj, h.single sock obj hobj hconnection, if_pos rfl]
      rfl
    have hfree := h.free hobj hconnection
    simpa [State.freeSocketObj, State.modify, hobj, hops] using hfree

theorem Counted.handleWrite (h : Counted gProtocol s (some sock))
    (hobj : s.sockets sock = some obj) (hbelongs : Belongs gProtocol obj .write)
    (hrecv : calls.recv ≠ .failed) : Counted gProtocol (s.handleWrite sock calls) none := by
  have hread : Belongs gProtocol obj .read := by
    cases gProtocol with
    | tcp => exact ⟨Operation.noConfusion, fun hfalse => absurd (hbelongs.mpr hfalse) (by simp)⟩
    | udp => exact ⟨Operation.noConfusion, hbelongs.2⟩
  have hopen := (h.usable sock obj hobj).2
  rw [State.handleWrite, hobj, Option.any_some, hopen]
  simp only [Bool.false_eq_true, false_and, decide_false, if_false]
  exact (h.post hobj hread hrecv (.inr rfl)).1

theorem Counted.handleIo (h : Counted gProtocol s none) (hmem : (sock, op) ∈ s.inFlight)
    (hsucceeds : Succeeds gProtocol s (.complete sock op calls)) :
    Counted gProtocol (State.handleIo { s with inFlight := s.inFlight.erase (sock, op) } sock
      gProtocol op calls) none := by
  obtain ⟨hsend, hrecv, haccept, hoverlapped⟩ := hsucceeds
  obtain ⟨hcounted, obj, hobj, hbelongs⟩ := h.decrement hmem
  unfold State.handleIo
  cases op with
  | accept =>
      cases gProtocol with
      | udp => exact absurd rfl hbelongs.1
      | tcp =>
          obtain ⟨bytes, hbytes⟩ := Option.ne_none_iff_exists'.mp (hoverlapped rfl)
          simp only [hbytes]
          have hendpoint := hcounted.endpoint hobj (hbelongs.mp rfl)
          exact hendpoint.handleAccept hobj hbelongs hsend haccept
  | read =>
      cases hbytes : calls.overlapped with
      | some bytes =>
          cases gProtocol <;> exact hcounted.handleRead hobj hbelongs hsend
      | none =>
          cases gProtocol with
          | tcp => exact absurd hbytes (hoverlapped rfl)
          | udp =>
              exact (hcounted.post hobj hbelongs hrecv (.inr rfl)).1
  | write =>
      cases gProtocol with
      | udp => exact hcounted.handleWrite hobj hbelongs hrecv
      | tcp =>
          obtain ⟨bytes, hbytes⟩ := Option.ne_none_iff_exists'.mp (hoverlapped rfl)
          simp only [hbytes]
          exact hcounted.handleWrite hobj hbelongs hrecv

theorem Counted.step {a : Action} (h : Counted gProtocol s none)
    (hsucceeds : Succeeds gProtocol s a) (hstep : step gProtocol s a = some s') :
    Counted gProtocol s' none := by
  cases a with
  | socket =>
      simp only [Operations.step, Option.ite_none_right_eq_some, Option.some.injEq] at hstep
      obtain ⟨-, rfl⟩ := hstep
      exact (h.getSocketObj false).1
  | complete sock op calls =>
      simp only [Operations.step, Option.ite_none_right_eq_some, Option.some.injEq] at hstep
      obtain ⟨⟨-, hmem⟩, rfl⟩ := hstep
      exact h.handleIo hmem hsucceeds
  | post sock rc =>
      simp only [Operations.step, Option.ite_none_right_eq_some] at hstep
      obtain ⟨⟨-, hany⟩, hstep⟩ := hstep
      cases hobj : s.sockets sock with
      | none =>
          rw [hobj] at hany
          cases hany
      | some obj =>
          have hendpoint : obj.connection = false := by
            rw [hobj, Option.any_some] at hany
            simpa using hany
          cases gProtocol with
          | tcp =>
              obtain rfl := Option.some.inj hstep
              cases rc with
              | none => exact ⟨h.ops, h.exists_obj, h.fresh, h.usable, h.single⟩
              | some rc =>
                  have hbelongs : Belongs .tcp obj .accept := ⟨fun _ => hendpoint, fun _ => rfl⟩
                  have hposted := (h.post hobj hbelongs (by simpa [Succeeds] using hsucceeds)
                    (.inl ⟨rfl, hendpoint⟩)).1
                  exact ⟨hposted.ops, hposted.exists_obj, hposted.fresh, hposted.usable,
                    hposted.single⟩
          | udp =>
              cases rc with
              | none => cases hstep
              | some rc =>
                  obtain rfl := Option.some.inj hstep
                  have hbelongs : Belongs .udp obj .read := ⟨Operation.noConfusion, hendpoint⟩
                  exact (h.post hobj hbelongs (by simpa [Succeeds] using hsucceeds)
                    (.inl ⟨rfl, hendpoint⟩)).1

end Counted

/-- In every run in which no post fails, nor an operation over TCP, `OutstandingOps` is the
number of operations in flight on the socket, no socket with an operation in flight has been
freed, and every connection that has not been freed has an operation in flight. -/
theorem operations_counted {gProtocol : Protocol} {s : State} {as : List Action}
    (hrun : RunsTo (step gProtocol) (Succeeds gProtocol) start as s) :
    (∀ sock obj, s.sockets sock = some obj → obj.outstandingOps = s.flights sock) ∧
      (∀ sock op, (sock, op) ∈ s.inFlight → ∃ obj, s.sockets sock = some obj) ∧
      ∀ sock obj, s.sockets sock = some obj → obj.connection = true →
        ∃ op, (sock, op) ∈ s.inFlight := by
  have h : Counted gProtocol s none :=
    hrun.invariant (fun s => Counted gProtocol s none) counted_start
      fun _ _ _ => Counted.step
  refine ⟨h.ops, fun sock op hmem => ?_, fun sock obj hobj hconnection => ?_⟩
  · obtain ⟨obj, hobj, -⟩ := h.exists_obj sock op hmem
    exact ⟨obj, hobj⟩
  · have hone := h.single sock obj hobj hconnection
    have hpos : 0 < s.flights sock := by
      rw [hone, if_neg (by simp)]
      exact Nat.one_pos
    obtain ⟨⟨k, op⟩, hmem, hk⟩ := List.countP_pos_iff.mp hpos
    obtain rfl : k = sock := by simpa using hk
    exact ⟨op, hmem⟩

/-- A connection is accepted, its data sent back, and closed; the accept is posted again. -/
def acceptAndClose : List Action :=
  [.socket, .post 0 (some .done),
    .complete 0 .accept ⟨some 2, .pending, .pending, some .pending⟩,
    .complete 1 .write ⟨some 2, .pending, .pending, none⟩,
    .complete 1 .read ⟨some 0, .pending, .pending, none⟩]

theorem operations_counted_acceptAndClose :
    ∃ s, RunsTo (step .tcp) (Succeeds .tcp) start acceptAndClose s ∧ s.sockets 1 = none ∧
      ∃ obj, s.sockets 0 = some obj ∧ obj.outstandingOps = s.flights 0 := by
  have hrun : RunsTo (step .tcp) (Succeeds .tcp) start acceptAndClose _ :=
    RunsTo.of_isSome (by decide)
  exact ⟨_, hrun, by decide, ⟨1, false, true, false⟩, by decide,
    (operations_counted hrun).1 0 ⟨1, false, true, false⟩ (by decide)⟩

/-- The send to an accepted client completes with an error: it is counted down twice, and the
socket is never freed. -/
theorem error_counted_twice :
    ∃ s obj, RunsTo (step .tcp) Always start
        [.socket, .post 0 (some .done),
          .complete 0 .accept ⟨some 2, .pending, .pending, some .pending⟩,
          .complete 1 .write ⟨none, .pending, .pending, none⟩] s ∧
      s.sockets 1 = some obj ∧ obj.outstandingOps = -1 ∧ s.flights 1 = 0 :=
  ⟨_, ⟨-1, false, true, true⟩, RunsTo.of_isSome (by decide), by decide, by decide, by decide⟩

end MiscProjects.Overlapped.Operations
