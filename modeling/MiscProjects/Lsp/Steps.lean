import MiscProjects.Lsp.Contexts

/-!
# What one step of the LSP can do

Every step of the LSP, with what the thread has found and with the state it
leaves.  The invariants about contexts and about overlapped structures are
derived from this list of cases and unfold no function of the code.
-/

namespace MiscProjects.Lsp

/-- `ExecuteOverlappedOperation` leaves the structure to a completion. -/
def keepsStructure (operation : Operation) (result : LowerResult) : Bool :=
  takenAsSuccess operation result || takenAsPending operation result

/-- The lower provider has the operation and lets the LSP know of its
completion. -/
def willComplete (result : LowerResult) (notified : Bool) : Bool :=
  result != .failed && notified

/-- The provider socket is associated with the completion port, and the call
is taken for one that blocks. -/
def SockInfo.associated (si : SockInfo) (association : Association) : Bool :=
  si.hIocp || association == .made

def SockInfo.synchronous (si : SockInfo) (association : Association) : Bool :=
  !si.hIocp && association == .invalidParameter

/-- The completion of the operation is posted to the port. -/
def Overlapped.notified (o : Overlapped) (si : SockInfo)
    (association : Association) : Bool :=
  si.associated association && !si.synchronous association && !o.routineBelow

/-- The lower provider takes the operation, or does not. -/
def LspState.handDown (t : LspState) (op : OpId) (accepted : Bool) : LspState :=
  { t with atLower := if accepted then t.atLower ++ [op] else t.atLower }

/-- Where a thread goes on after `ExecuteOverlappedOperation`. -/
def afterExecute (operation : Operation) (result : LowerResult) (op : OpId)
    (held : List Addr) : Pc :=
  if keepsStructure operation result then .returning held else .cleanup op held

/-- What `UnlockSocketContext` leaves of a state. -/
inductive Unlocked (T : Thread) (a : Addr) (t : LspState) : LspState → Prop
  | kept {si : SockInfo} (hget : t.heap a = some si) :
      Unlocked T a t ((release T a t).setInfo a
        (some { si with refCount := si.refCount - 1 }))
  | freed {si : SockInfo} (hget : t.heap a = some si)
      (hlast : si.refCount - 1 = 0) (hclosing : si.bClosing = true) :
      Unlocked T a t (wpuCloseSocketHandle si.layeredSocket
        ((release T a t).setInfo a none))

variable {held : List Addr} {s : Socket} {a : Addr} {result : LowerResult} {op : OpId}

theorem Unlocked.of_unlock {T : Thread} {t u : LspState}
    (hcall : unlockSocketContext T a t = some u) : Unlocked T a t u := by
  unfold unlockSocketContext at hcall
  split at hcall
  next => cases hcall
  next si hget =>
    simp only at hcall
    split at hcall
    next hfree =>
      rw [Option.some.injEq] at hcall
      exact hcall ▸ .freed hget hfree.1 hfree.2
    next =>
      rw [Option.some.injEq] at hcall
      exact hcall ▸ .kept hget

/-- One step of the LSP and the state it leaves. -/
inductive StepTo (iocp : Bool) (t : LspState) : Action → LspState → Prop
  | socket {s : Socket} {a : Addr} (hs : t.handles s = none)
      (ha : t.heap a = none) :
      StepTo iocp t (.socket s a)
        { t with
          heap := Function.update t.heap a
            (some (createSockInfo t.nextSerial s)),
          handles := Function.update t.handles s (some a),
          nextSerial := t.nextSerial + 1 }
  | callMissing {T : Thread} {entry : Entry} (hpc : t.threads T = .idle)
      (hs : t.handles entry.socket = none) : StepTo iocp t (.call T entry) t
  | call {T : Thread} {entry : Entry} {a : Addr} {si : SockInfo}
      (hpc : t.threads T = .idle) (hs : t.handles entry.socket = some a)
      (hget : t.heap a = some si) :
      StepTo iocp t (.call T entry)
        ((t.addRef T a si).setPc T (entry.found a))
  /-- `WSPCloseSocket` with something outstanding, or refused below. -/
  | closeLeft {T : Thread} {s : Socket} {a : Addr} {lowerCloses : Bool}
      {si : SockInfo} {v : LspState} (bClosing providerOpen : Bool)
      (hpc : t.threads T = .closing s a) (hget : t.heap a = some si)
      (hunlock : Unlocked T a (t.setInfo a (some { si with
        bClosing := bClosing, lockedBy := some T,
        providerOpen := providerOpen })) v) :
      StepTo iocp t (.close T lowerCloses) (v.setPc T .idle)
  | close {T : Thread} {s : Socket} {a : Addr} {si : SockInfo}
      (hpc : t.threads T = .closing s a) (hget : t.heap a = some si)
      (hnone : si.dwOutstandingAsync = 0) (hone : si.refCount = 1) :
      StepTo iocp t (.close T true)
        ((wpuCloseSocketHandle (some s)
          (t.setInfo a (some { si with providerOpen := false }))).setPc T
            (.freeing a))
  | take {T : Thread} {s : Socket} {a : Addr} {operation : Operation}
      {completionRoutine : Bool} {others : List Addr} {si : SockInfo}
      (hpc : t.threads T = .take s a operation completionRoutine others)
      (hget : t.heap a = some si) :
      StepTo iocp t (.take T true)
        ({ t.setInfo a (some { si with
            dwOutstandingAsync := si.dwOutstandingAsync + 1 }) with
          ops := Function.update t.ops t.nextOp (some
            ⟨a, si.serial, s, operation, completionRoutine⟩),
          nextOp := t.nextOp + 1 }.setPc T (.start t.nextOp (a :: others)))
  | takeNone {T : Thread} {s : Socket} {a : Addr} {operation : Operation}
      {completionRoutine : Bool} {others : List Addr} {si : SockInfo}
      (hpc : t.threads T = .take s a operation completionRoutine others)
      (hget : t.heap a = some si) :
      StepTo iocp t (.take T false)
        ((t.setInfo a (some { si with
          dwOutstandingAsync := si.dwOutstandingAsync + 1 })).setPc T
            (.returning (a :: others)))
  | start {T : Thread} {association : Association} {result : LowerResult}
      {op : OpId} {held : List Addr} {o : Overlapped} {si : SockInfo}
      (hpc : t.threads T = .start op held) (hop : t.ops op = some o)
      (hget : t.heap o.sockInfo = some si) (hport : iocp = true) :
      StepTo iocp t (.start T association result)
        ((({ t.setInfo o.sockInfo
              (some { si with hIocp := si.associated association }) with
            answered :=
              if answersPending o.operation result
                (si.synchronous association) then t.answered ++ [op]
              else t.answered } : LspState).handDown op
            (willComplete result (o.notified si association))).setPc T
          (afterExecute o.operation result op held))
  | startQueue {T : Thread} {association : Association} {result : LowerResult}
      {op : OpId} {held : List Addr} {o : Overlapped}
      (hpc : t.threads T = .start op held) (hop : t.ops op = some o)
      (hport : iocp = false) :
      StepTo iocp t (.start T association result)
        ({ t with
          pending := t.pending ++ [op],
          answered := t.answered ++ [op] }.setPc T (.returning held))
  | startInline {T : Thread} {op : OpId} {held : List Addr}
      (hpc : t.threads T = .start op held) :
      StepTo iocp t (.startInline T) (t.setPc T (.routine op true held))
  | dequeue {T : Thread} {result : LowerResult} {op : OpId}
      {rest : List OpId} {o : Overlapped} (hpc : t.threads T = .idle)
      (hpending : t.pending = op :: rest) (hop : t.ops op = some o) :
      StepTo iocp t (.dequeue T result)
        ((({ t with pending := rest } : LspState).handDown op
          (willComplete result !o.operation.isExtension)).setPc T
            (afterExecute o.operation result op []))
  | complete {T : Thread} {op : OpId} {ok : Bool} (hpc : t.threads T = .idle)
      (hmem : op ∈ t.atLower) :
      StepTo iocp t (.complete T op ok)
        ({ t with atLower := t.atLower.erase op }.setPc T (.routine op ok []))
  | unlock {T : Thread} {a : Addr} {rest : List Addr} {v : LspState}
      (hpc : t.threads T = .returning (a :: rest))
      (hunlock : Unlocked T a t v) :
      StepTo iocp t (.go T) (v.setPc T (.returning rest))
  | setSockOptMissing {T : Thread} {optval : Socket} {a : Addr}
      (hpc : t.threads T = .setSockOpt optval a)
      (hs : t.handles optval = none) : StepTo iocp t (.go T) (t.setPc T .idle)
  | setSockOpt {T : Thread} {optval : Socket} {a b : Addr} {si : SockInfo}
      (hpc : t.threads T = .setSockOpt optval a)
      (hs : t.handles optval = some b) (hget : t.heap b = some si) :
      StepTo iocp t (.go T) ((t.addRef T b si).setPc T (.returning [b, a]))
  | free {T : Thread} {a : Addr} (hpc : t.threads T = .freeing a) :
      StepTo iocp t (.go T) (freeClosed T a t)
  | acceptExMissing {T : Thread} {s : Socket} {a : Addr} {sAcceptSocket : Socket}
      {hasOverlapped : Bool}
      (hpc : t.threads T = .acceptEx s a sAcceptSocket hasOverlapped)
      (hs : t.handles sAcceptSocket = none) :
      StepTo iocp t (.go T) (t.setPc T (.returning [a]))
  | acceptEx {T : Thread} {s : Socket} {a b : Addr} {sAcceptSocket : Socket}
      {hasOverlapped : Bool} {si : SockInfo}
      (hpc : t.threads T = .acceptEx s a sAcceptSocket hasOverlapped)
      (hs : t.handles sAcceptSocket = some b) (hget : t.heap b = some si) :
      StepTo iocp t (.go T) ((t.addRef T b si).setPc T
        (if hasOverlapped then .take s a (.acceptEx sAcceptSocket) false [b]
        else .returning [a, b]))
  | routineMissing {T : Thread} {op : OpId} {ok : Bool} {held : List Addr}
      {o : Overlapped} (hpc : t.threads T = .routine op ok held)
      (hop : t.ops op = some o) (hs : t.handles o.callerSocket = none) :
      StepTo iocp t (.go T) (putbackOverlappedStructure T op held t)
  | routine {T : Thread} {op : OpId} {ok : Bool} {held : List Addr}
      {o : Overlapped} {a : Addr} {si : SockInfo}
      (hpc : t.threads T = .routine op ok held) (hop : t.ops op = some o)
      (hs : t.handles o.callerSocket = some a) (hget : t.heap a = some si) :
      StepTo iocp t (.go T) ((t.addRef T a si).setPc T
        (if ok then .account op a held else .unlock op a held))
  | account {T : Thread} {op : OpId} {a : Addr} {held : List Addr}
      {o : Overlapped} (hpc : t.threads T = .account op a held)
      (hop : t.ops op = some o) (haccept : o.acceptSocket = none) :
      StepTo iocp t (.go T) (t.setPc T (.unlock op a held))
  | accountAccept {T : Thread} {op : OpId} {a b : Addr} {held : List Addr}
      {o : Overlapped} {s : Socket} {si : SockInfo} {v : LspState}
      (hpc : t.threads T = .account op a held) (hop : t.ops op = some o)
      (haccept : o.acceptSocket = some s) (hs : t.handles s = some b)
      (hget : t.heap b = some si) (hunlock : Unlocked T b (t.addRef T b si) v) :
      StepTo iocp t (.go T) (v.setPc T (.unlock op a held))
  | unlockReport {T : Thread} {op : OpId} {a : Addr} {held : List Addr}
      {v : LspState} (hpc : t.threads T = .unlock op a held)
      (hunlock : Unlocked T a t v) :
      StepTo iocp t (.go T) (v.setPc T (.report op held))
  | report {T : Thread} {op : OpId} {held : List Addr} {o : Overlapped}
      (hpc : t.threads T = .report op held) (hop : t.ops op = some o) :
      StepTo iocp t (.go T)
        (({ t with
          reports := t.reports ++ [⟨op, o.completionRoutine⟩] } : LspState).setPc T
            (.cleanup op held))
  | cleanupMissing {T : Thread} {op : OpId} {held : List Addr} {o : Overlapped}
      (hpc : t.threads T = .cleanup op held) (hop : t.ops op = some o)
      (hs : t.handles o.callerSocket = none) :
      StepTo iocp t (.go T) (putbackOverlappedStructure T op held t)
  | cleanup {T : Thread} {op : OpId} {held : List Addr} {o : Overlapped}
      {a : Addr} {si : SockInfo} (hpc : t.threads T = .cleanup op held)
      (hop : t.ops op = some o) (hs : t.handles o.callerSocket = some a)
      (hget : t.heap a = some si) :
      StepTo iocp t (.go T)
        ((t.addRef T a si).setPc T (.cleanupSection op a held))
  | cleanupFrees {T : Thread} {op : OpId} {a : Addr} {held : List Addr}
      {o : Overlapped} {si : SockInfo}
      (hpc : t.threads T = .cleanupSection op a held) (hop : t.ops op = some o)
      (hget : t.heap o.sockInfo = some si) (hclosing : si.bClosing = true)
      (hlast : si.dwOutstandingAsync - 1 = 0) (hone : si.refCount = 1) :
      StepTo iocp t (.go T)
        (putbackOverlappedStructure T op held
          ((release T a (wpuCloseSocketHandle (some o.callerSocket)
            (t.setInfo o.sockInfo (some { si with
              dwOutstandingAsync := si.dwOutstandingAsync - 1,
              layeredSocket := none })))).setInfo a none))
  | cleanupCounts {T : Thread} {op : OpId} {a : Addr} {held : List Addr}
      {o : Overlapped} {si : SockInfo} (lockedBy : Option Thread)
      (hpc : t.threads T = .cleanupSection op a held) (hop : t.ops op = some o)
      (hget : t.heap o.sockInfo = some si) :
      StepTo iocp t (.go T)
        ((t.setInfo o.sockInfo (some { si with
          dwOutstandingAsync := si.dwOutstandingAsync - 1,
          lockedBy := lockedBy })).setPc T (.cleanupUnlock op a held))
  | putback {T : Thread} {op : OpId} {a : Addr} {held : List Addr}
      {v : LspState} (hpc : t.threads T = .cleanupUnlock op a held)
      (hunlock : Unlocked T a t v) :
      StepTo iocp t (.go T) (putbackOverlappedStructure T op held v)

variable {iocp : Bool} {T : Thread} {t u : LspState}

/-! ## The cases are all there are -/

theorem executeOverlappedOperation_eq {o : Overlapped} {notified : Bool}
    (hcall : executeOverlappedOperation T op o result notified held t = some u) :
    u = (t.handDown op (willComplete result notified)).setPc T
      (afterExecute o.operation result op held) := by
  have haccepted : (willComplete result notified = true) =
      (result ≠ LowerResult.failed ∧ notified = true) := by
    simp [willComplete]
  simp only [executeOverlappedOperation, Option.ite_none_left_eq_some] at hcall
  obtain ⟨-, hcall⟩ := hcall
  split at hcall
  next hkeeps =>
    have hafter : afterExecute o.operation result op held = .returning held := if_pos hkeeps
    rw [Option.some.injEq] at hcall
    rw [hafter, ← hcall]
    simp only [LspState.handDown, haccepted]
  next hkeeps =>
    have hafter : afterExecute o.operation result op held = .cleanup op held := if_neg hkeeps
    rw [Option.some.injEq] at hcall
    rw [hafter, ← hcall]
    simp only [LspState.handDown, haccepted]

theorem lookup_cases {missing : LspState → LspState}
    {found : Addr → Pc} (hcall : lookup T s missing found t = some u) :
    (t.handles s = none ∧ u = missing t) ∨ ∃ a si, t.handles s = some a ∧ t.heap a = some si ∧
        u = (t.addRef T a si).setPc T (found a) := by
  simp only [lookup, Option.map_eq_some_iff] at hcall
  obtain ⟨⟨v, result⟩, hfind, hu⟩ := hcall
  unfold findAndLockSocketContext at hfind
  split at hfind
  next hs =>
    simp only [Option.some.injEq, Prod.mk.injEq] at hfind
    obtain ⟨rfl, rfl⟩ := hfind
    exact Or.inl ⟨hs, hu.symm⟩
  next a hs =>
    split at hfind
    next => cases hfind
    next si hget =>
      simp only [Option.some.injEq, Prod.mk.injEq] at hfind
      obtain ⟨rfl, rfl⟩ := hfind
      exact Or.inr ⟨a, si, hs, hget, hu.symm⟩

theorem StepTo.of_close {lowerCloses : Bool} (hpc : t.threads T = .closing s a)
    (hcall : closeSection T s a lowerCloses t = some u) :
    StepTo iocp t (.close T lowerCloses) u := by
  unfold closeSection at hcall
  split at hcall
  next => cases hcall
  next si hget =>
    split at hcall
    next => cases hcall
    next =>
      split at hcall
      next =>
        simp only [Option.map_eq_some_iff] at hcall
        obtain ⟨v, hunlock, rfl⟩ := hcall
        exact .closeLeft true _ hpc hget (.of_unlock hunlock)
      next hdirect =>
        obtain ⟨hnone, hone⟩ := not_or.mp hdirect
        split at hcall
        next =>
          simp only [Option.map_eq_some_iff] at hcall
          obtain ⟨v, hunlock, rfl⟩ := hcall
          exact .closeLeft si.bClosing si.providerOpen hpc hget (.of_unlock hunlock)
        next hcloses =>
          have hlower : lowerCloses = true := by simpa using hcloses
          simp only [Option.some.injEq] at hcall
          subst hlower
          exact hcall ▸ .close hpc hget (not_not.mp hnone) (not_not.mp hone)

theorem StepTo.of_take {operation : Operation}
    {completionRoutine : Bool} {others : List Addr} {found : Bool}
    (hpc : t.threads T = .take s a operation completionRoutine others)
    (hcall : getOverlappedStructure T s a operation completionRoutine others
      found t = some u) : StepTo iocp t (.take T found) u := by
  unfold getOverlappedStructure at hcall
  split at hcall
  next => cases hcall
  next si hget =>
    split at hcall
    next => cases hcall
    next =>
      simp only at hcall
      split at hcall
      next hfound =>
        rw [Option.some.injEq] at hcall
        subst hfound
        exact hcall ▸ .take hpc hget
      next hfound =>
        have hfound' : found = false := by simpa using hfound
        rw [Option.some.injEq] at hcall
        subst hfound'
        exact hcall ▸ .takeNone hpc hget

theorem StepTo.of_start {association : Association} (hpc : t.threads T = .start op held)
    (hcall : queueOverlappedOperation iocp T op association result held t =
      some u) : StepTo iocp t (.start T association result) u := by
  unfold queueOverlappedOperation at hcall
  split at hcall
  next => cases hcall
  next o hop =>
    split at hcall
    next hport =>
      split at hcall
      next => cases hcall
      next si hget =>
        split at hcall
        next => cases hcall
        next =>
          simp only at hcall
          rw [executeOverlappedOperation_eq hcall]
          exact .start hpc hop hget hport
    next hport =>
      rw [Option.some.injEq] at hcall
      exact hcall ▸ .startQueue hpc hop (by simpa using hport)

theorem StepTo.of_account (hpc : t.threads T = .account op a held)
    (hcall : accountSection T op a held t = some u) : StepTo iocp t (.go T) u := by
  unfold accountSection at hcall
  split at hcall
  next o si hop hget =>
    split at hcall
    next => cases hcall
    next =>
      split at hcall
      next haccept =>
        rw [Option.some.injEq] at hcall
        exact hcall ▸ .account hpc hop haccept
      next s haccept =>
        simp only [Option.bind_eq_bind, Option.bind_eq_some_iff] at hcall
        obtain ⟨⟨v, found⟩, hfind, hcall⟩ := hcall
        cases found with
        | none => cases hcall
        | some b =>
            unfold findAndLockSocketContext at hfind
            split at hfind
            next => cases hfind
            next c hs =>
              split at hfind
              next => cases hfind
              next other hother =>
                simp only [Option.some.injEq, Prod.mk.injEq] at hfind
                obtain ⟨rfl, rfl⟩ := hfind
                simp only [Option.bind_eq_some_iff, Option.some.injEq] at hcall
                obtain ⟨w, hunlock, rfl⟩ := hcall
                exact .accountAccept hpc hop haccept hs hother (.of_unlock hunlock)
  next => cases hcall

theorem StepTo.of_cleanupSection (hpc : t.threads T = .cleanupSection op a held)
    (hcall : cleanupSection T op a held t = some u) : StepTo iocp t (.go T) u := by
  unfold Lsp.cleanupSection at hcall
  split at hcall
  next => cases hcall
  next o hop =>
    split at hcall
    next => cases hcall
    next si hget =>
      split at hcall
      next => cases hcall
      next =>
        simp only at hcall
        split at hcall
        next hfrees =>
          obtain ⟨hclosing, hlast, hone⟩ := hfrees
          rw [Option.some.injEq] at hcall
          exact hcall ▸ .cleanupFrees hpc hop hget hclosing hlast hone
        next =>
          rw [Option.some.injEq] at hcall
          exact hcall ▸ .cleanupCounts _ hpc hop hget

theorem StepTo.of_go (hcall : Lsp.go T t = some u) : StepTo iocp t (.go T) u := by
  unfold Lsp.go at hcall
  cases hpc : t.threads T
  all_goals
    simp only [hpc, Option.map_eq_some_iff, Option.some.injEq, reduceCtorEq] at hcall
  case returning held =>
    cases held with
    | nil => cases hcall
    | cons a rest =>
        rw [Option.map_eq_some_iff] at hcall
        obtain ⟨v, hunlock, rfl⟩ := hcall
        exact .unlock hpc (.of_unlock hunlock)
  case setSockOpt optval a =>
    rcases lookup_cases hcall with ⟨hs, rfl⟩ | ⟨b, si, hs, hget, rfl⟩
    · exact .setSockOptMissing hpc hs
    · exact .setSockOpt hpc hs hget
  case freeing a => exact hcall ▸ .free hpc
  case acceptEx s a sAcceptSocket hasOverlapped =>
    rcases lookup_cases hcall with ⟨hs, rfl⟩ | ⟨b, si, hs, hget, rfl⟩
    · exact .acceptExMissing hpc hs
    · exact .acceptEx hpc hs hget
  case account op a held => exact .of_account hpc hcall
  case unlock op a held =>
    obtain ⟨v, hunlock, rfl⟩ := hcall
    exact .unlockReport hpc (.of_unlock hunlock)
  case cleanupSection op a held => exact .of_cleanupSection hpc hcall
  case cleanupUnlock op a held =>
    obtain ⟨v, hunlock, rfl⟩ := hcall
    exact .putback hpc (.of_unlock hunlock)
  all_goals
    split at hcall
    next => cases hcall
  next op ok held o hop =>
    rcases lookup_cases hcall with ⟨hs, rfl⟩ | ⟨b, si, hs, hget, rfl⟩
    · exact .routineMissing hpc hop hs
    · exact .routine hpc hop hs hget
  next op held o hop =>
    rw [Option.some.injEq] at hcall
    exact hcall ▸ .report hpc hop
  next op held o hop =>
    rcases lookup_cases hcall with ⟨hs, rfl⟩ | ⟨b, si, hs, hget, rfl⟩
    · exact .cleanupMissing hpc hop hs
    · exact .cleanup hpc hop hs hget

theorem StepTo.of_step {action : Action}
    (hstep : lspStep iocp t action = some u) : StepTo iocp t action u := by
  cases action
  case go T => exact .of_go hstep
  all_goals simp only [lspStep, Option.ite_none_right_eq_some, Option.some.injEq] at hstep
  case socket s a =>
    obtain ⟨⟨hs, ha⟩, rfl⟩ := hstep
    exact .socket hs ha
  case call T entry =>
    obtain ⟨hpc, hcall⟩ := hstep
    rcases lookup_cases hcall with ⟨hs, rfl⟩ | ⟨a, si, hs, hget, rfl⟩
    · exact .callMissing hpc hs
    · exact .call hpc hs hget
  case complete T op ok =>
    obtain ⟨⟨hpc, hmem⟩, rfl⟩ := hstep
    exact .complete hpc hmem
  all_goals split at hstep <;> try cases hstep
  next s a hpc => exact .of_close hpc hstep
  next s a operation completionRoutine others hpc => exact .of_take hpc hstep
  next op held hpc => exact .of_start hpc hstep
  next op held hpc =>
    simp only [Option.ite_none_right_eq_some, Option.some.injEq] at hstep
    exact hstep.2 ▸ .startInline hpc
  next op rest hpc hpending =>
    split at hstep
    next => cases hstep
    next o hop =>
      rw [executeOverlappedOperation_eq hstep]
      exact .dequeue hpc hpending hop

end MiscProjects.Lsp
