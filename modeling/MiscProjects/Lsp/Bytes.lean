import Mathlib.Algebra.Ring.Nat
import Mathlib.Algebra.BigOperators.Group.List.Basic
import MiscProjects.Library.Runs
import MiscProjects.Lsp.Contexts

/-!
# Byte counting

`BytesSent` and `BytesRecv` of a context are increased where a call without an `OVERLAPPED`
returns and in the completion routine.  An increment is a read and a write of the counter; the
completion routine makes it in the `SockCritSec` of the context that it has looked up, a call
makes it outside.

Contexts and operations are numbered as they are created.  When contexts are freed and when
structures are put back is not the subject here: both may happen at any time.  A step that
would touch a context that is not there is `none`.  `completed` records what the lower provider
has reported; the code has nothing like it.
-/

namespace MiscProjects.Lsp.Bytes

open MiscProjects.Runs
open Function (update update_self update_of_ne)

abbrev DWORD := BitVec 32

abbrev InfoId := ℕ

inductive Counter
  | bytesSent
  | bytesRecv
deriving DecidableEq

/-! ## What is counted -/

/-- The counter that the bytes of an operation belong to. -/
def direction : Operation → Option Counter
  | .recv => some .bytesRecv
  | .recvFrom => some .bytesRecv
  | .acceptEx _ => some .bytesRecv
  | .wsaRecvMsg => some .bytesRecv
  | .send => some .bytesSent
  | .sendTo => some .bytesSent
  | .transmitFile => some .bytesSent
  | .connectEx => some .bytesSent
  | .transmitPackets => some .bytesSent
  | .ioctl => none
  | .disconnectEx => none

/-- What is counted when a call without an `OVERLAPPED` returns. -/
def callCounter : Operation → Option Counter
  | .recv => some .bytesRecv
  | .recvFrom => some .bytesRecv
  | .send => some .bytesSent
  | .sendTo => some .bytesSent
  | _ => none

/-- The switch of `IntermediateCompletionRoutine`. -/
def routineCounter : Operation → Option Counter
  | .recv => some .bytesRecv
  | .recvFrom => some .bytesRecv
  | .send => some .bytesSent
  | .sendTo => some .bytesSent
  | .transmitFile => some .bytesSent
  | .acceptEx _ => some .bytesRecv
  | _ => none

theorem callCounter_eq {operation : Operation} (h : callCounter operation ≠ none) :
    callCounter operation = direction operation := by
  cases operation <;> first | rfl | exact absurd rfl h

theorem routineCounter_eq {operation : Operation} (h : routineCounter operation ≠ none) :
    routineCounter operation = direction operation := by
  cases operation <;> first | rfl | exact absurd rfl h

/-! ## State -/

/-- A `SOCK_INFO`; `lockedBy` is the operation whose completion is in its `SockCritSec`. -/
structure Info where
  bytesSent : DWORD
  bytesRecv : DWORD
  lockedBy : Option OpId
deriving DecidableEq

namespace Info

def get (info : Info) : Counter → DWORD
  | .bytesSent => info.bytesSent
  | .bytesRecv => info.bytesRecv

def set (counter : Counter) (value : DWORD) (info : Info) : Info :=
  match counter with
  | .bytesSent => { info with bytesSent := value }
  | .bytesRecv => { info with bytesRecv := value }

variable {counter counter' : Counter}

theorem get_set_self (counter : Counter) (value : DWORD) (info : Info) :
    (info.set counter value).get counter = value := by
  cases counter <;> rfl

theorem get_set_of_ne (h : counter' ≠ counter) (value : DWORD) (info : Info) :
    (info.set counter value).get counter' = info.get counter' := by
  cases counter <;> cases counter' <;> first | rfl | exact absurd rfl h

end Info

/-- How far an operation is with its `n` bytes: the lower provider has it, the completion
routine has looked the context up, the counter of a context is about to be read or has been
read, the `SockCritSec` is about to be left, or the operation is done. -/
inductive Stage
  | below
  | routine (found : InfoId) (n : DWORD)
  | reading (lock : Option InfoId) (info : InfoId) (counter : Counter) (n : DWORD)
  | writing (lock : Option InfoId) (info : InfoId) (counter : Counter) (n value : DWORD)
  | leaving (lock : InfoId)
  | done
deriving DecidableEq

/-- A call of a thread.  `ol` is the address of the `WSAOVERLAPPEDPLUS` if there is an
`OVERLAPPED`, `notified` tells whether the completion comes to the LSP: the provider socket is
associated with the completion port, and no routine of the caller has been handed down.
`target` is the context of the socket that sends or receives. -/
structure Op where
  socket : Socket
  operation : Operation
  ol : Option ℕ
  notified : Bool
  target : InfoId
  stage : Stage
deriving DecidableEq

/-- The bytes of an operation that has completed successfully. -/
structure Completed where
  info : InfoId
  counter : Counter
  bytes : DWORD
deriving DecidableEq

/-- `structures` are the operations for which the structures have been filled in. -/
structure State where
  infos : InfoId → Option Info
  nextInfo : InfoId
  handles : Socket → Option InfoId
  structures : ℕ → Option OpId
  ops : OpId → Option Op
  nextOp : OpId
  completed : List Completed

def State.create : State where
  infos _ := none
  nextInfo := 0
  handles _ := none
  structures _ := none
  ops _ := none
  nextOp := 0
  completed := []

inductive Action
  /-- `CreateSockInfo`, with a new handle. -/
  | create (s : Socket)
  | closeHandle (s : Socket)
  | free (c : InfoId)
  /-- A call comes to the lower provider. -/
  | call (s : Socket) (operation : Operation) (ol : Option ℕ) (notified : Bool)
  /-- The call fails, or the operation completes with an error. -/
  | fails (o : OpId)
  /-- A call without an `OVERLAPPED` returns successfully. -/
  | returns (o : OpId) (n : DWORD)
  /-- An overlapped operation completes successfully. -/
  | completes (o : OpId) (n : DWORD)
  /-- The completion routine enters the `SockCritSec`. -/
  | enter (o : OpId)
  | read (o : OpId)
  | write (o : OpId)
  | leave (o : OpId)
  | putback (p : ℕ)
deriving DecidableEq

namespace State

def setOp (o : OpId) (op : Op) (s : State) : State := { s with ops := update s.ops o (some op) }

def setInfo (c : InfoId) (info : Info) (s : State) : State :=
  { s with infos := update s.infos c (some info) }

/-- The socket that sends or receives, `c` being the context of the socket of the call. -/
def counting (operation : Operation) (c : InfoId) (s : State) : Option InfoId :=
  match operation with
  | .acceptEx sAcceptSocket => s.handles sAcceptSocket
  | _ => some c

/-- The LSP has dealt with the result. -/
def complete (o : OpId) (op : Op) (n : DWORD) (stage : Stage) (s : State) : State :=
  { s.setOp o { op with stage := stage } with
    completed := s.completed ++
      ((direction op.operation).map fun counter => ⟨op.target, counter, n⟩).toList }

/-- The operation whose arguments are in the structure. -/
def content (op : Op) (s : State) : Option Op := (op.ol.bind s.structures).bind s.ops

theorem setOp_self (o : OpId) (op : Op) (s : State) : (s.setOp o op).ops o = some op :=
  update_self ..

theorem setOp_of_ne {o o' : OpId} (h : o' ≠ o) (op : Op) (s : State) :
    (s.setOp o op).ops o' = s.ops o' :=
  update_of_ne h ..

theorem setInfo_self (c : InfoId) (info : Info) (s : State) :
    (s.setInfo c info).infos c = some info :=
  update_self ..

theorem setInfo_of_ne {c c' : InfoId} (h : c' ≠ c) (info : Info) (s : State) :
    (s.setInfo c info).infos c' = s.infos c' :=
  update_of_ne h ..

end State

def step (s : State) : Action → Option State
  | .create socket =>
      if s.handles socket = none then
        some { s.setInfo s.nextInfo ⟨0, 0, none⟩ with
          handles := update s.handles socket (some s.nextInfo), nextInfo := s.nextInfo + 1 }
      else none
  | .closeHandle socket => some { s with handles := update s.handles socket none }
  | .free c => some { s with infos := update s.infos c none }
  | .call socket operation ol notified => do
      let c ← s.handles socket
      let target ← s.counting operation c
      some { s.setOp s.nextOp ⟨socket, operation, ol, notified, target, .below⟩ with
        structures := fun p => if ol = some p then some s.nextOp else s.structures p
        nextOp := s.nextOp + 1 }
  | .fails o => do
      let op ← s.ops o
      if op.stage = .below then some (s.setOp o { op with stage := .done }) else none
  | .returns o n => do
      let op ← s.ops o
      if op.stage = .below ∧ op.ol = none then
        match callCounter op.operation with
        | some counter => some (s.setOp o { op with stage := .reading none op.target counter n })
        | none => some (s.complete o op n .done)
      else none
  | .completes o n => do
      let op ← s.ops o
      if op.stage = .below ∧ op.ol ≠ none then
        match (if op.notified then s.content op else none).bind fun op' => s.handles op'.socket with
        | some c => some (s.setOp o { op with stage := .routine c n })
        | none => some (s.complete o op n .done)
      else none
  | .enter o => do
      let op ← s.ops o
      match op.stage with
      | .routine c n => do
          let info ← s.infos c
          if info.lockedBy = none then
            let s' := s.setInfo c { info with lockedBy := some o }
            match (s.content op).bind fun op' =>
                (routineCounter op'.operation).map fun counter => (op'.operation, counter) with
            | some (operation, counter) => do
                -- for `AcceptEx` a context that is not found is dereferenced all the same
                let target ← s.counting operation c
                some (s'.setOp o { op with stage := .reading (some c) target counter n })
            | none => some (s'.complete o op n (.leaving c))
          else none
      | _ => none
  | .read o => do
      let op ← s.ops o
      match op.stage with
      | .reading lock c counter n => do
          let info ← s.infos c
          some (s.setOp o { op with stage := .writing lock c counter n (info.get counter) })
      | _ => none
  | .write o => do
      let op ← s.ops o
      match op.stage with
      | .writing lock c counter n value => do
          let info ← s.infos c
          some ((s.setInfo c (info.set counter (value + n))).complete o op n
            (match lock with
              | some l => .leaving l
              | none => .done))
      | _ => none
  | .leave o => do
      let op ← s.ops o
      match op.stage with
      | .leaving c => do
          let info ← s.infos c
          some ((s.setInfo c { info with lockedBy := none }).setOp o { op with stage := .done })
      | _ => none
  | .putback p => some { s with structures := update s.structures p none }

/-! ## Statement -/

/-- The bytes of all operations that have completed on a socket. -/
def total (c : InfoId) (counter : Counter) (completed : List Completed) : ℕ :=
  ((completed.filter fun x => x.info = c ∧ x.counter = counter).map fun x => x.bytes.toNat).sum

def Counted (s : State) : Prop :=
  ∀ c info, s.infos c = some info →
    ∀ counter, (info.get counter).toNat = total c counter s.completed

/-- The structure is still that of the operation, and if the operation sends or receives, the
completion routine counts it, on the socket that it was started on. -/
def Found (s : State) (o : OpId) (op : Op) (c : InfoId) : Prop :=
  op.ol.bind s.structures = some o ∧ (direction op.operation ≠ none →
    routineCounter op.operation ≠ none ∧ s.counting op.operation c = some op.target)

instance (s : State) (o : OpId) (op : Op) (c : InfoId) : Decidable (Found s o op c) :=
  inferInstanceAs (Decidable (_ ∧ (_ → _)))

/-- What the completion routine has looked up is right. -/
def Stage.Located (s : State) (o : OpId) (op : Op) : Stage → Prop
  | .routine c n => n ≠ 0 → Found s o op c
  | _ => True

instance (s : State) (o : OpId) (op : Op) (stage : Stage) : Decidable (stage.Located s o op) :=
  match stage with
  | .below => inferInstanceAs (Decidable True)
  | .routine c n => inferInstanceAs (Decidable (n ≠ 0 → Found s o op c))
  | .reading .. => inferInstanceAs (Decidable True)
  | .writing .. => inferInstanceAs (Decidable True)
  | .leaving _ => inferInstanceAs (Decidable True)
  | .done => inferInstanceAs (Decidable True)

/-- The counter is as it was read, and the increment does not overflow. -/
def Stage.Undisturbed (s : State) : Stage → Prop
  | .writing _ c counter n value =>
      ∀ info ∈ s.infos c, info.get counter = value ∧ value.toNat + n.toNat < 2 ^ 32
  | _ => True

instance (s : State) (stage : Stage) : Decidable (stage.Undisturbed s) :=
  match stage with
  | .below => inferInstanceAs (Decidable True)
  | .routine .. => inferInstanceAs (Decidable True)
  | .reading .. => inferInstanceAs (Decidable True)
  | .writing _ c _ _ _ => inferInstanceAs (Decidable (∀ info ∈ s.infos c, _))
  | .leaving _ => inferInstanceAs (Decidable True)
  | .done => inferInstanceAs (Decidable True)

/-- An operation that moves bytes completes where it is counted, no counter is written between
the read and the write of an increment, and none overflows. -/
def Regular (s : State) : Action → Prop
  | .returns o n => ∀ op ∈ s.ops o, n ≠ 0 → direction op.operation ≠ none →
      callCounter op.operation ≠ none
  | .completes o n => ∀ op ∈ s.ops o, n ≠ 0 → direction op.operation ≠ none →
      op.notified = true ∧ s.handles op.socket ≠ none ∧ ∀ c ∈ s.handles op.socket, Found s o op c
  | .enter o => ∀ op ∈ s.ops o, op.stage.Located s o op
  | .write o => ∀ op ∈ s.ops o, op.stage.Undisturbed s
  | _ => True

instance (s : State) (a : Action) : Decidable (Regular s a) :=
  match a with
  | .create _ => inferInstanceAs (Decidable True)
  | .closeHandle _ => inferInstanceAs (Decidable True)
  | .free _ => inferInstanceAs (Decidable True)
  | .call .. => inferInstanceAs (Decidable True)
  | .fails _ => inferInstanceAs (Decidable True)
  | .returns o _ => inferInstanceAs (Decidable (∀ op ∈ s.ops o, _ → _ → _))
  | .completes o _ => inferInstanceAs (Decidable (∀ op ∈ s.ops o, _ → _ → _))
  | .enter o => inferInstanceAs (Decidable (∀ op ∈ s.ops o, _))
  | .read _ => inferInstanceAs (Decidable True)
  | .write o => inferInstanceAs (Decidable (∀ op ∈ s.ops o, _))
  | .leave _ => inferInstanceAs (Decidable True)
  | .putback _ => inferInstanceAs (Decidable True)

/-! ## Invariant -/

/-- An increment is made on the socket that the operation has sent or received on. -/
def Stage.Right (op : Op) : Stage → Prop
  | .reading _ c counter n => n ≠ 0 → c = op.target ∧ direction op.operation = some counter
  | .writing _ c counter n _ => n ≠ 0 → c = op.target ∧ direction op.operation = some counter
  | _ => True

structure Holds (s : State) : Prop where
  counted : Counted s
  recent : ∀ x ∈ s.completed, x.info < s.nextInfo
  handled : ∀ socket c, s.handles socket = some c → c < s.nextInfo
  targets : ∀ o op, s.ops o = some op → op.target < s.nextInfo
  stages : ∀ o op, s.ops o = some op → op.stage.Right op

variable {s s' : State} {o : OpId} {op : Op} {c c' : InfoId} {counter counter' : Counter}
  {n : DWORD} {completed : List Completed}

theorem total_append (c : InfoId) (counter : Counter) (x : Completed) :
    total c counter (completed ++ [x]) = total c counter completed +
        if x.info = c ∧ x.counter = counter then x.bytes.toNat else 0 := by
  unfold total
  rw [List.filter_append, List.map_append, List.sum_append]
  congr 1
  by_cases hx : x.info = c ∧ x.counter = counter
  · simp [hx]
  · simp [hx]

theorem total_eq_zero (hrecent : ∀ x ∈ completed, x.info < c) (counter : Counter) :
    total c counter completed = 0 := by
  have hnone : completed.filter (fun x => x.info = c ∧ x.counter = counter) = [] := by
    rw [List.filter_eq_nil_iff]
    intro x hx
    have hne : x.info ≠ c := Nat.ne_of_lt (hrecent x hx)
    simp [hne]
  unfold total
  rw [hnone]
  rfl

theorem holds_create : Holds State.create := by
  constructor
  · intro c info hinfo
    cases hinfo
  · intro x hx
    cases hx
  · intro socket c hc
    cases hc
  · intro o op hop
    cases hop
  · intro o op hop
    cases hop

namespace Holds

theorem ops_setOp {P : OpId → Op → Prop} (hops : ∀ o op, s.ops o = some op → P o op)
    (hop : P o op) : ∀ o' op', (s.setOp o op).ops o' = some op' → P o' op' := by
  intro o' op' hop'
  by_cases ho : o' = o
  · subst ho
    obtain rfl := Option.some.inj ((s.setOp_self o' op).symm.trans hop')
    exact hop
  · rw [s.setOp_of_ne ho op] at hop'
    exact hops o' op' hop'

theorem setOp (h : Holds s) {op' : Op} (htarget : op'.target < s.nextInfo)
    (hstage : op'.stage.Right op') : Holds (s.setOp o op') := by
  constructor
  · exact h.counted
  · exact h.recent
  · exact h.handled
  · exact ops_setOp h.targets htarget
  · exact ops_setOp h.stages hstage

variable {info : Info} {stage : Stage}

theorem goOn (h : Holds s) (hop : s.ops o = some op)
    (hstage : stage.Right { op with stage := stage }) :
    Holds (s.setOp o { op with stage := stage }) := h.setOp (h.targets o op hop) hstage

theorem setInfo (h : Holds s) {info' : Info} (hinfo : s.infos c = some info)
    (hsame : ∀ counter, info'.get counter = info.get counter) : Holds (s.setInfo c info') := by
  constructor
  · intro c' info₁ hinfo₁ counter
    by_cases hc : c' = c
    · subst hc
      obtain rfl := Option.some.inj ((s.setInfo_self c' info').symm.trans hinfo₁)
      rw [hsame counter]
      exact h.counted c' info hinfo counter
    · rw [s.setInfo_of_ne hc info'] at hinfo₁
      exact h.counted c' info₁ hinfo₁ counter
  · exact h.recent
  · exact h.handled
  · exact h.targets
  · exact h.stages

theorem uncounted (h : Holds s) (hop : s.ops o = some op)
    (hstage : stage.Right { op with stage := stage })
    (hzero : n ≠ 0 → direction op.operation = none) : Holds (s.complete o op n stage) := by
  have hnext := h.goOn hop hstage
  cases hdirection : direction op.operation with
  | none =>
      unfold State.complete
      rw [hdirection]
      dsimp only [Option.map_none, Option.toList_none]
      rw [List.append_nil]
      exact hnext
  | some counter =>
      have hn : n = 0 := by
        by_contra hne
        rw [hzero hne] at hdirection
        cases hdirection
      subst hn
      unfold State.complete
      rw [hdirection]
      constructor
      · intro c info hinfo counter'
        have hcounted := h.counted c info hinfo counter'
        change (info.get counter').toNat = total c counter' (s.completed ++ [_])
        rw [total_append, hcounted]
        simp
      · intro x hx
        rcases List.mem_append.mp hx with hold | hnew
        · exact h.recent x hold
        · obtain rfl := List.mem_singleton.mp hnew
          exact h.targets o op hop
      · exact hnext.handled
      · exact hnext.targets
      · exact hnext.stages

theorem count (h : Holds s) (hop : s.ops o = some op) (hinfo : s.infos c = some info)
    {lock : Option InfoId} {value : DWORD} (hwriting : op.stage = .writing lock c counter n value)
    (hvalue : info.get counter = value) (hfits : value.toNat + n.toNat < 2 ^ 32)
    (hstage : stage.Right { op with stage := stage }) :
    Holds ((s.setInfo c (info.set counter (value + n))).complete o op n stage) := by
  have hright : n ≠ 0 → c = op.target ∧ direction op.operation = some counter := by
    have hright := h.stages o op hop
    rwa [hwriting] at hright
  by_cases hn : n = 0
  · -- the counter is written what it was
    subst hn
    have hsame : ∀ counter', (info.set counter (value + 0)).get counter' = info.get counter' := by
      intro counter'
      by_cases hc : counter' = counter
      · rw [hc, Info.get_set_self, hvalue]
        exact BitVec.add_zero value
      · exact Info.get_set_of_ne hc ..
    exact (h.setInfo hinfo hsame).uncounted hop hstage fun hne => absurd rfl hne
  · obtain ⟨htarget, hdirection⟩ := hright hn
    have hnext := h.goOn hop hstage
    have hadded : (value + n).toNat = value.toNat + n.toNat := by
      rw [BitVec.toNat_add, Nat.mod_eq_of_lt hfits]
    unfold State.complete
    rw [hdirection]
    constructor
    · intro c' info' hinfo' counter'
      change (s.setInfo c (info.set counter (value + n))).infos c' = some info' at hinfo'
      change (info'.get counter').toNat = total c' counter' (s.completed ++ [_])
      rw [total_append]
      by_cases hc : c' = c
      · subst hc
        obtain rfl := Option.some.inj ((s.setInfo_self c' _).symm.trans hinfo')
        by_cases hcounter : counter' = counter
        · subst hcounter
          rw [Info.get_set_self, hadded, if_pos ⟨htarget.symm, rfl⟩,
            ← h.counted c' info hinfo counter', hvalue]
        · rw [Info.get_set_of_ne hcounter, if_neg fun heq => hcounter heq.2.symm, Nat.add_zero]
          exact h.counted c' info hinfo counter'
      · rw [s.setInfo_of_ne hc] at hinfo'
        have hne : op.target ≠ c' := fun heq => hc (heq.symm.trans htarget.symm)
        rw [if_neg fun heq => hne heq.1, Nat.add_zero]
        exact h.counted c' info' hinfo' counter'
    · intro x hx
      rcases List.mem_append.mp hx with hold | hnew
      · exact h.recent x hold
      · obtain rfl := List.mem_singleton.mp hnew
        exact h.targets o op hop
    · exact hnext.handled
    · exact hnext.targets
    · exact hnext.stages

theorem create (h : Holds s) (socket : Socket) : Holds { s.setInfo s.nextInfo ⟨0, 0, none⟩ with
      handles := update s.handles socket (some s.nextInfo), nextInfo := s.nextInfo + 1 } := by
  constructor
  · intro c info hinfo counter
    by_cases hc : c = s.nextInfo
    · subst hc
      obtain rfl := Option.some.inj ((s.setInfo_self s.nextInfo _).symm.trans hinfo)
      have hzero := total_eq_zero h.recent counter
      cases counter with
      | bytesSent => exact hzero.symm
      | bytesRecv => exact hzero.symm
    · exact h.counted c info ((s.setInfo_of_ne hc _).symm.trans hinfo) counter
  · intro x hx
    exact Nat.lt_succ_of_lt (h.recent x hx)
  · intro socket' c hc
    by_cases hsocket : socket' = socket
    · subst hsocket
      change update s.handles socket' (some s.nextInfo) socket' = some c at hc
      rw [update_self] at hc
      obtain rfl := Option.some.inj hc
      exact Nat.lt_succ_self _
    · have hold : s.handles socket' = some c := (update_of_ne hsocket ..).symm.trans hc
      exact Nat.lt_succ_of_lt (h.handled socket' c hold)
  · intro o op hop
    exact Nat.lt_succ_of_lt (h.targets o op hop)
  · exact h.stages

theorem closeHandle (h : Holds s) (socket : Socket) :
    Holds { s with handles := update s.handles socket none } := by
  refine ⟨h.counted, h.recent, ?_, h.targets, h.stages⟩
  intro socket' c hc
  by_cases hsocket : socket' = socket
  · subst hsocket
    change update s.handles socket' none socket' = some c at hc
    rw [update_self] at hc
    cases hc
  · exact h.handled socket' c ((update_of_ne hsocket ..).symm.trans hc)

theorem free (h : Holds s) (c : InfoId) : Holds { s with infos := update s.infos c none } := by
  refine ⟨?_, h.recent, h.handled, h.targets, h.stages⟩
  intro c' info hinfo
  by_cases hc : c' = c
  · subst hc
    change update s.infos c' none c' = some info at hinfo
    rw [update_self] at hinfo
    cases hinfo
  · exact h.counted c' info ((update_of_ne hc ..).symm.trans hinfo)

theorem counting_lt (h : Holds s) {operation : Operation} {target : InfoId} (hc : c < s.nextInfo)
    (htarget : s.counting operation c = some target) : target < s.nextInfo := by
  unfold State.counting at htarget
  split at htarget
  · exact h.handled _ target htarget
  · obtain rfl := Option.some.inj htarget
    exact hc

theorem enter (h : Holds s) (hop : s.ops o = some op) (hinfo : s.infos c = some info)
    (hfound : n ≠ 0 → Found s o op c) : (∀ operation counter target, ((s.content op).bind fun op' =>
        (routineCounter op'.operation).map fun counter => (op'.operation, counter)) =
          some (operation, counter) → s.counting operation c = some target →
        Holds ((s.setInfo c { info with lockedBy := some o }).setOp o
          { op with stage := .reading (some c) target counter n })) ∧
    (((s.content op).bind fun op' =>
        (routineCounter op'.operation).map fun counter => (op'.operation, counter)) = none →
      Holds ((s.setInfo c { info with lockedBy := some o }).complete o op n (.leaving c))) := by
  have hlocked : Holds (s.setInfo c { info with lockedBy := some o }) :=
    h.setInfo hinfo fun counter => by cases counter <;> rfl
  have hcontent : n ≠ 0 → s.content op = some op := by
    intro hn
    unfold State.content
    rw [(hfound hn).1]
    exact hop
  constructor
  · intro operation counter target hswitch htarget
    refine hlocked.goOn hop ?_
    intro hn
    rw [hcontent hn, Option.bind_some] at hswitch
    obtain ⟨counter', hcounter, heq⟩ := Option.map_eq_some_iff.mp hswitch
    obtain ⟨rfl, rfl⟩ := Prod.mk.inj heq
    have hdirection : direction op.operation = some counter' := by
      rw [← routineCounter_eq (hcounter ▸ Option.some_ne_none counter')]
      exact hcounter
    have hcounting := ((hfound hn).2 (hdirection ▸ Option.some_ne_none counter')).2
    exact ⟨Option.some.inj (htarget.symm.trans hcounting), hdirection⟩
  · intro hswitch
    refine hlocked.uncounted hop trivial ?_
    intro hn
    by_contra hdirection
    rw [hcontent hn, Option.bind_some, Option.map_eq_none_iff] at hswitch
    exact ((hfound hn).2 hdirection).1 hswitch

theorem step (h : Holds s) {a : Action} (hok : Regular s a) (hstep : step s a = some s') :
    Holds s' := by
  cases a
  all_goals simp only [Bytes.step, Option.bind_eq_bind, Option.bind_eq_some_iff,
    Option.ite_none_right_eq_some, Option.some.injEq] at hstep
  case create socket =>
    obtain ⟨-, rfl⟩ := hstep
    exact h.create socket
  case closeHandle socket => exact hstep ▸ h.closeHandle socket
  case free c => exact hstep ▸ h.free c
  case call socket operation ol notified =>
    obtain ⟨c, hc, target, htarget, rfl⟩ := hstep
    have hnext : Holds (s.setOp s.nextOp ⟨socket, operation, ol, notified, target, .below⟩) :=
      h.setOp (h.counting_lt (h.handled socket c hc) htarget) trivial
    exact ⟨hnext.counted, hnext.recent, hnext.handled, hnext.targets, hnext.stages⟩
  case fails o =>
    obtain ⟨op, hop, -, rfl⟩ := hstep
    exact h.goOn hop trivial
  case returns o n =>
    obtain ⟨op, hop, -, hstep⟩ := hstep
    split at hstep
    · next counter hcounter =>
      obtain rfl := Option.some.inj hstep
      refine h.goOn hop ?_
      intro _
      have hdirection := callCounter_eq (hcounter ▸ Option.some_ne_none counter)
      exact ⟨rfl, hdirection.symm.trans hcounter⟩
    · next hcounter =>
      obtain rfl := Option.some.inj hstep
      refine h.uncounted hop trivial ?_
      intro hn
      by_contra hdirection
      exact hok op hop hn hdirection hcounter
  case completes o n =>
    obtain ⟨op, hop, -, hstep⟩ := hstep
    split at hstep
    · obtain rfl := Option.some.inj hstep
      exact h.goOn hop trivial
    · next hnone =>
      obtain rfl := Option.some.inj hstep
      refine h.uncounted hop trivial ?_
      intro hn
      by_contra hdirection
      obtain ⟨hnotified, hhandle, hfound⟩ := hok op hop hn hdirection
      obtain ⟨c, hc⟩ := Option.ne_none_iff_exists'.mp hhandle
      have hcontent : s.content op = some op := by
        unfold State.content
        rw [(hfound c hc).1]
        exact hop
      rw [if_pos hnotified, hcontent, Option.bind_some, hc] at hnone
      cases hnone
  case enter o =>
    obtain ⟨op, hop, hstep⟩ := hstep
    split at hstep
    · next c n hroutine =>
      obtain ⟨info, hinfo, hstep⟩ := Option.bind_eq_some_iff.mp hstep
      obtain ⟨-, hstep⟩ := Option.ite_none_right_eq_some.mp hstep
      have hfound : n ≠ 0 → Found s o op c := by
        have hlocated : op.stage.Located s o op := hok op hop
        rwa [hroutine] at hlocated
      obtain ⟨hcounted, huncounted⟩ := h.enter hop hinfo hfound
      split at hstep
      · next operation counter hswitch =>
        obtain ⟨target, htarget, hstep⟩ := Option.bind_eq_some_iff.mp hstep
        exact Option.some.inj hstep ▸ hcounted operation counter target hswitch htarget
      · next hswitch => exact Option.some.inj hstep ▸ huncounted hswitch
    · cases hstep
  case read o =>
    obtain ⟨op, hop, hstep⟩ := hstep
    split at hstep
    · next lock c counter n hreading =>
      obtain ⟨info, hinfo, hstep⟩ := Option.bind_eq_some_iff.mp hstep
      obtain rfl := Option.some.inj hstep
      have hright := h.stages o op hop
      rw [hreading] at hright
      exact h.goOn hop hright
    · cases hstep
  case write o =>
    obtain ⟨op, hop, hstep⟩ := hstep
    split at hstep
    · next lock c counter n value hwriting =>
      obtain ⟨info, hinfo, hstep⟩ := Option.bind_eq_some_iff.mp hstep
      obtain rfl := Option.some.inj hstep
      have hundisturbed : op.stage.Undisturbed s := hok op hop
      rw [hwriting] at hundisturbed
      obtain ⟨hvalue, hfits⟩ := hundisturbed info hinfo
      refine h.count hop hinfo hwriting hvalue hfits ?_
      cases lock with
      | none => trivial
      | some l => trivial
    · cases hstep
  case leave o =>
    obtain ⟨op, hop, hstep⟩ := hstep
    split at hstep
    · obtain ⟨info, hinfo, hstep⟩ := Option.bind_eq_some_iff.mp hstep
      obtain rfl := Option.some.inj hstep
      have hunlocked : Holds (s.setInfo _ { info with lockedBy := none }) :=
        h.setInfo hinfo fun counter => by cases counter <;> rfl
      exact hunlocked.goOn hop trivial
    · cases hstep
  case putback p =>
    subst hstep
    exact ⟨h.counted, h.recent, h.handled, h.targets, h.stages⟩

end Holds

/-- In every run in which the operations that move bytes complete where they are counted and no
increment is interrupted, both counters of every socket are the sums of what has been sent and
received on it. -/
theorem bytes_counted {acts : List Action} (hrun : RunsTo step Regular State.create acts s) :
    Counted s := by
  have hholds : Holds s :=
    hrun.invariant Holds holds_create fun t a u h hok hstep => h.step hok hstep
  exact hholds.counted

/-- A blocking send, an overlapped receive and an `AcceptEx` with data. -/
theorem bytes_counted_three :
    ∃ s, Counted s ∧ (s.infos 0).map (fun info => (info.bytesSent, info.bytesRecv)) = some (7, 5) ∧
      (s.infos 1).map (fun info => (info.bytesSent, info.bytesRecv)) = some (0, 9) := by
  have hrun : RunsTo step Regular State.create
      [.create 4, .create 8, .call 4 .send none false, .call 4 .recv (some 100) true,
        .returns 0 7, .read 0, .completes 1 5, .enter 1, .write 0, .read 1, .write 1, .leave 1,
        .call 4 (.acceptEx 8) (some 100) true, .completes 2 9, .enter 2, .read 2, .write 2,
        .leave 2] _ :=
    .of_isSome (by rfl)
  exact ⟨_, bytes_counted hrun, rfl, rfl⟩

/-- The bytes that `ConnectEx` sends are not counted. -/
theorem connectEx_not_counted :
    ¬ ∀ acts s, RunsTo step Always State.create acts s → Counted s := by
  intro hcounted
  have hrun : RunsTo step Always State.create
      [.create 4, .call 4 .connectEx (some 100) true, .completes 0 5, .enter 0, .leave 0] _ :=
    .of_isSome (by rfl)
  have hsent : (0 : DWORD).toNat = 5 := hcounted _ _ hrun 0 ⟨0, 0, none⟩ rfl .bytesSent
  cases hsent

end MiscProjects.Lsp.Bytes
