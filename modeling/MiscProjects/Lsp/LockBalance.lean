import MiscProjects.Lsp.EntryPoints

/-!
# SockCritSecs that the calls leave locked

While a thread runs an entry point or the completion routine, other threads run
too.  They cannot take a `SockCritSec` from the thread that owns it, but they can
free its context.  A program enters one `SockCritSec` at a time and leaves it
again, with two exceptions: at the end of `WSPCloseSocket` it is left to
`UnlockSocketContext`, which releases it only when it frees the context, and
there it does so for every caller; and `CheckForContextCleanup` enters the one of
its operation and leaves the one of the context that it has looked up.
-/

namespace MiscProjects.Lsp.Calls

/-! ## Statement -/

/-- The entry points, the completion routine and the worker thread with an
operation it has dequeued. -/
inductive Routine
  | entryPoint (e : EntryPoint)
  | completionRoutine (callerSocket : Socket) (own : Addr) (acceptSocket : Option Socket)
      (ok : Bool)
  | overlappedManager (callerSocket : Socket) (own : Addr) (fails : Bool)

def Routine.prog : Routine → Prog
  | .entryPoint e => e.prog
  | .completionRoutine callerSocket own acceptSocket ok =>
      intermediateCompletionRoutine callerSocket own acceptSocket ok .ret
  | .overlappedManager callerSocket own fails =>
      executeOverlappedOperation callerSocket own fails .ret

/-- Instructions of other threads. -/
inductive Others (T : Thread) : World → World → Prop
  | refl (w : World) : Others T w w
  | step {U : Thread} {p p' : Prog} {w w' w'' : World} :
      U ≠ T → p.step U w = some (p', w') → Others T w' w'' → Others T w w''

/-- An instruction that the thread has executed, with the states before and
after it, and the one in which the thread goes on. -/
structure Executed where
  prog : Prog
  before : World
  after : World
  next : World

/-- The thread runs the program to its end, other threads running between its
instructions. -/
inductive Trace (T : Thread) : Prog → World → List Executed → Prop
  | ret (w : World) : Trace T .ret w []
  | step {p p' : Prog} {w w' u : World} {trace : List Executed} :
      p.step T w = some (p', w') → Others T w' u → Trace T p' u trace →
        Trace T p w (⟨p, w, w', u⟩ :: trace)

/-- What happens to a `SockCritSec`; `byOwner` tells whether the thread owns it. -/
inductive LockEvent
  | acquired (a : Addr)
  | released (a : Addr) (byOwner : Bool)
deriving DecidableEq

/-- `UnlockSocketContext` frees the context. -/
def World.unlockFrees (w : World) (a : Addr) : Bool :=
  match w.heap a with
  | none => false
  | some (_, si) => si.dropFrees

/-- What an instruction does to the `SockCritSec`s. -/
def Prog.lockEvents (T : Thread) (w : World) : Prog → List LockEvent
  | .acquireSocketLock a _ => [.acquired a]
  | .releaseSocketLock a _ | .releaseFound _ a _ => [.released a (decide (0 < w.owned a T))]
  | .unlock a _ _ =>
      if w.unlockFrees a then [.released a (decide (0 < w.owned a T))] else []
  | _ => []

def lockEvents (T : Thread) (trace : List Executed) : List LockEvent :=
  trace.flatMap fun e => e.prog.lockEvents T e.before

/-- Each `SockCritSec` is released as often as it is acquired, and none by a
thread that does not own it. -/
def LocksBalanced (T : Thread) (trace : List Executed) : Prop :=
  (∀ a, (lockEvents T trace).count (.acquired a) =
      (lockEvents T trace).count (.released a true)) ∧
    ∀ a, LockEvent.released a false ∉ lockEvents T trace

/-- `UnlockSocketContext` frees the context if it is the one at the end of
`WSPCloseSocket`, and does not free it otherwise; `CheckForContextCleanup`, when
it frees nothing, has looked up the context of its operation. -/
def Prog.Orderly (w : World) : Prog → Prop
  | .unlock a locked _ => w.unlockFrees a = locked
  | .releaseFound own a _ => own = a
  | _ => True

/-- The instruction is orderly, and no other thread frees a context whose
`SockCritSec` the thread owns. -/
def Executed.Orderly (T : Thread) (e : Executed) : Prop :=
  e.prog.Orderly e.before ∧ ∀ a, 0 < e.after.owned a T → 0 < e.next.owned a T

/-! ## Programs that enter one SockCritSec at a time -/

/-- On every path the program leaves the `SockCritSec` that it holds before it
enters another one or returns, if its steps are orderly. -/
def Prog.LocksMatch : Option Addr → Prog → Prop
  | held, .ret => held = none
  | _, .crash => True
  | held, .find _ k => (k none).LocksMatch held ∧ ∀ a, (k (some a)).LocksMatch held
  | held, .unlock a true k => held = some a ∧ k = .ret
  | held, .unlock a false k =>
      k.LocksMatch held ∧ (held = some a → ∃ k', k = .releaseSocketLock a k')
  | held, .acquireSocketLock a k => held = none ∧ k.LocksMatch (some a)
  | held, .releaseSocketLock a k => held = some a ∧ k.LocksMatch none
  | held, .releaseFound own _ k => held = some own ∧ k.LocksMatch none
  | held, .inspect _ k => ∀ si, (k si).LocksMatch held
  | held, .setClosing _ k => k.LocksMatch held
  | held, .count _ _ k => k.LocksMatch held
  | held, .create _ k => k.LocksMatch held
  | held, .createHandle _ _ k => k.LocksMatch held
  | held, .closeHandle _ k => ∀ closed, (k closed).LocksMatch held
  | held, .free a k => held ≠ some a ∧ k.LocksMatch held
  | held, .freeAll k => held = none ∧ k.LocksMatch held

section Parts
variable {s : Socket} {a own : Addr} {k : Prog}

theorem locksMatch_checkForContextCleanup (hk : k.LocksMatch none) :
    (checkForContextCleanup s own k).LocksMatch none := by
  refine ⟨hk, fun a => ⟨rfl, fun si => ?_⟩⟩
  dsimp only
  split
  · exact fun _ => ⟨rfl, by simp, hk⟩
  · exact ⟨rfl, hk, by simp⟩

theorem locksMatch_executeOverlappedOperation {fails : Bool} (hk : k.LocksMatch none) :
    (executeOverlappedOperation s own fails k).LocksMatch none := by
  unfold executeOverlappedOperation
  split
  · exact locksMatch_checkForContextCleanup hk
  · exact hk

theorem locksMatch_getOverlappedStructure (hk : k.LocksMatch none) :
    (getOverlappedStructure a k).LocksMatch none :=
  ⟨rfl, rfl, hk⟩

theorem locksMatch_overlapped (call : OverlappedCall) (hk : k.LocksMatch none) :
    (overlapped s a call k).LocksMatch none := by
  unfold overlapped queueOverlappedOperation
  split
  · apply locksMatch_getOverlappedStructure
    split
    · split
      · exact ⟨rfl, rfl, locksMatch_executeOverlappedOperation hk⟩
      · exact hk
    · exact hk
  · exact hk

theorem locksMatch_intermediateCompletionRoutine {ok : Bool} {acceptSocket : Option Socket}
    (hk : k.LocksMatch none) :
    (intermediateCompletionRoutine s own acceptSocket ok k).LocksMatch none := by
  refine ⟨hk, fun a => ?_⟩
  have hrest : (Prog.unlock a false (checkForContextCleanup s own k)).LocksMatch none :=
    ⟨locksMatch_checkForContextCleanup hk, by simp⟩
  dsimp only
  split
  · cases acceptSocket with
    | none => exact ⟨rfl, rfl, hrest⟩
    | some s =>
        refine ⟨rfl, trivial, fun b => ⟨⟨rfl, hrest⟩, ?_⟩⟩
        rintro ⟨⟩
        exact ⟨_, rfl⟩
  · exact hrest

theorem locksMatch_withContext {body : Addr → Prog → Prog}
    (hbody : ∀ a k, k.LocksMatch none → (body a k).LocksMatch none) :
    (withContext s body).LocksMatch none :=
  ⟨rfl, fun a => hbody a _ ⟨rfl, by simp⟩⟩

theorem locksMatch_untouched : (withContext s untouched).LocksMatch none :=
  locksMatch_withContext fun _ _ hk => hk

theorem locksMatch_newContext {alloc : Option Addr} {newSocket : Option Socket}
    {failed : Addr → Prog → Prog} (hk : k.LocksMatch none)
    (hfailed : ∀ b, (failed b k).LocksMatch none) :
    (newContext alloc newSocket failed k).LocksMatch none := by
  unfold newContext
  cases alloc with
  | none => exact hk
  | some b =>
      cases newSocket with
      | none => exact hfailed b
      | some ns => exact hk

theorem locksMatch_extension (loaded : Bool) (call : OverlappedCall) :
    (extension s loaded call).LocksMatch none := by
  apply locksMatch_withContext
  intro a k hk
  split
  · exact locksMatch_overlapped call hk
  · exact hk

theorem locksMatch_translateSet {set : Option (List Socket)} {k : Option Addr → Prog}
    {last : Option Addr} (hk : ∀ last, (k last).LocksMatch none) :
    (translateSet set last k).LocksMatch none := by
  have hall : ∀ (fds : List Socket) (last : Option Addr),
      (translateHandles last k fds).LocksMatch none := by
    intro fds
    induction fds with
    | nil => exact hk
    | cons s fds ih =>
        intro last
        exact ⟨rfl, fun a si => ⟨ih (some a), by simp⟩⟩
  unfold translateSet
  split
  · exact hk last
  · split
    · rfl
    · exact hall _ last

theorem locksMatch_closeSocket (s : Socket) (lowerCloses : Bool) :
    (wspCloseSocket s lowerCloses).LocksMatch none := by
  refine ⟨rfl, fun a => ⟨rfl, fun si => ?_⟩⟩
  unfold closeLocked
  split
  · exact ⟨rfl, rfl⟩
  · split
    · intro closed
      refine ⟨rfl, ?_⟩
      split
      · exact ⟨by simp, rfl⟩
      · rfl
    · exact ⟨rfl, rfl⟩

end Parts

theorem locksMatch_entryPoint (e : EntryPoint) : e.prog.LocksMatch none := by
  cases e with
  | addressToString | getOverlappedResult | startup | stringToAddress => exact rfl
  | bind | connect | duplicateSocket | enumNetworkEvents | eventSelect | getPeerName
  | getSockName | getSockOpt | getQOSByName | listen | recvDisconnect | sendDisconnect
  | shutdown => exact locksMatch_untouched
  | transmitFile | connectEx | transmitPackets | disconnectEx | wsaRecvMsg =>
      exact locksMatch_extension _ _
  | recv s call | recvFrom s call | send s call | sendTo s call =>
      exact locksMatch_withContext fun _ _ hk => locksMatch_overlapped call hk
  | closeSocket s lowerCloses => exact locksMatch_closeSocket s lowerCloses
  | cancelBlockingCall blocking => cases blocking <;> trivial
  | cleanup lastCleanup =>
      cases lastCleanup
      · rfl
      · exact ⟨rfl, rfl⟩
  | asyncSelect s isWindow validEvents =>
      change Prog.LocksMatch none (wspAsyncSelect s isWindow validEvents)
      unfold wspAsyncSelect
      split
      · exact locksMatch_untouched
      · rfl
  | setSockOpt s acceptSocket =>
      cases acceptSocket with
      | none => exact locksMatch_untouched
      | some optval =>
          refine ⟨rfl, fun a => ⟨rfl, fun b => ⟨fun si => ⟨rfl, by simp⟩, by simp⟩⟩⟩
  | accept s accepted alloc newSocket =>
      change Prog.LocksMatch none (wspAccept s accepted alloc newSocket)
      apply locksMatch_withContext
      intro a k hk
      split
      · exact locksMatch_newContext hk fun _ => hk
      · exact hk
  | joinLeaf s isNew alloc newSocket =>
      change Prog.LocksMatch none (wspJoinLeaf s isNew alloc newSocket)
      apply locksMatch_withContext
      intro a k hk
      split
      · exact locksMatch_newContext hk fun b => ⟨by simp, hk⟩
      · exact hk
  | socket created alloc newSocket =>
      change Prog.LocksMatch none (wspSocket created alloc newSocket)
      unfold wspSocket
      split
      · exact locksMatch_newContext rfl fun b => ⟨by simp, fun _ => rfl⟩
      · rfl
  | ioctl s dwIoControlCode call =>
      change Prog.LocksMatch none (wspIoctl s dwIoControlCode call)
      apply locksMatch_withContext
      intro a k hk
      cases dwIoControlCode with
      | getExtensionFunctionPointer => exact hk
      | queryTargetPnpHandle =>
          dsimp only
          split
          · apply locksMatch_getOverlappedStructure
            split
            · exact locksMatch_intermediateCompletionRoutine hk
            · exact hk
          · exact hk
      | other => exact locksMatch_overlapped call hk
  | select readfds writefds exceptfds =>
      change Prog.LocksMatch none (wspSelect readfds writefds exceptfds)
      unfold wspSelect
      split
      · rfl
      · refine locksMatch_translateSet fun _ => locksMatch_translateSet fun _ =>
          locksMatch_translateSet fun last => ?_
        cases last with
        | none => rfl
        | some a => exact fun _ => rfl
  | acceptEx sListenSocket sAcceptSocket loaded call =>
      refine ⟨rfl, fun a => ⟨⟨rfl, by simp⟩, fun b => ?_⟩⟩
      have hboth : (Prog.unlock a false (.unlock b false .ret)).LocksMatch none :=
        ⟨⟨rfl, by simp⟩, by simp⟩
      dsimp only
      split
      · exact locksMatch_overlapped call hboth
      · exact hboth

theorem locksMatch_routine (r : Routine) : r.prog.LocksMatch none := by
  cases r with
  | entryPoint e => exact locksMatch_entryPoint e
  | completionRoutine callerSocket own acceptSocket ok =>
      exact locksMatch_intermediateCompletionRoutine rfl
  | overlappedManager callerSocket own fails =>
      exact locksMatch_executeOverlappedOperation rfl

/-! ## How often a thread owns a SockCritSec -/

section Owned
variable {w w' : World} {a b : Addr} {T U : Thread} {n : ℕ} {si : SockInfo}
  {f : SockInfo → SockInfo} {cs cs' : CritSec}

theorem CritSec.ownedBy_enter (henter : cs.enter U = some cs') :
    cs'.ownedBy T = cs.ownedBy T + if U = T then 1 else 0 := by
  unfold CritSec.enter at henter
  split at henter
  next hfree =>
    rw [← Option.some.inj henter]
    simp [CritSec.ownedBy, hfree]
  next =>
    split at henter
    next howner =>
      rw [← Option.some.inj henter]
      simp only [CritSec.ownedBy, howner]
      split <;> rfl
    next => simp at henter

theorem CritSec.ownedBy_leave : (cs.leave U).ownedBy T = cs.ownedBy T - if U = T then 1 else 0 := by
  by_cases howner : cs.owner = U
  · simp only [CritSec.leave, CritSec.ownedBy, howner, if_true]
    split <;> rfl
  · simp only [CritSec.leave, if_neg howner]
    by_cases hUT : U = T
    · have hzero : cs.ownedBy T = 0 := if_neg (hUT ▸ howner)
      rw [hzero, Nat.zero_sub]
    · rw [if_neg hUT, Nat.sub_zero]

theorem World.owned_of_some (ha : w.heap a = some (n, si)) :
    w.owned a T = si.sockCritSec.ownedBy T := by
  simp only [World.owned, ha]

theorem World.owned_of_none (ha : w.heap a = none) : w.owned a T = 0 := by
  simp only [World.owned, ha]

theorem World.owned_congr (hb : w'.heap b = w.heap b) : w'.owned b T = w.owned b T := by
  simp only [World.owned, hb]

theorem World.owned_modify_of_ne (hba : b ≠ a) : (w.modify a f).owned b T = w.owned b T :=
  World.owned_congr (World.modify_heap_of_ne hba)

theorem World.owned_modify (ha : w.heap a = some (n, si)) (hf : (f si).sockCritSec = si.sockCritSec)
    (b : Addr) : (w.modify a f).owned b T = w.owned b T := by
  by_cases hba : b = a
  · subst hba
    rw [World.owned_of_some (World.modify_heap_self ha), hf, World.owned_of_some ha]
  · exact World.owned_modify_of_ne hba

theorem World.owned_enter (ha : w.heap a = some (n, si))
    (henter : si.sockCritSec.enter U = some cs) (b : Addr) :
    (w.modify a fun si => { si with sockCritSec := cs }).owned b T =
      w.owned b T + if b = a ∧ U = T then 1 else 0 := by
  by_cases hba : b = a
  · subst hba
    rw [World.owned_of_some (World.modify_heap_self ha), CritSec.ownedBy_enter henter,
      World.owned_of_some ha]
    simp
  · rw [World.owned_modify_of_ne hba]
    simp [hba]

theorem World.owned_leave (ha : w.heap a = some (n, si)) (b : Addr) :
    (w.modify a fun si => { si with sockCritSec := si.sockCritSec.leave U }).owned b T =
      w.owned b T - if b = a ∧ U = T then 1 else 0 := by
  by_cases hba : b = a
  · subst hba
    rw [World.owned_of_some (World.modify_heap_self ha), World.owned_of_some ha]
    simp [CritSec.ownedBy_leave]
  · rw [World.owned_modify_of_ne hba]
    simp [hba]

theorem World.owned_free_self : (w.free a).owned a T = 0 := World.owned_of_none World.free_heap_self

theorem World.owned_free_of_ne (hba : b ≠ a) : (w.free a).owned b T = w.owned b T :=
  World.owned_congr (World.free_heap_of_ne hba)

theorem World.owned_free_le (b : Addr) : (w.free a).owned b T ≤ w.owned b T := by
  by_cases hba : b = a
  · subst hba
    rw [World.owned_free_self]
    exact Nat.zero_le _
  · exact Nat.le_of_eq (World.owned_free_of_ne hba)

theorem World.owned_create (ha : w.heap a = none) (b : Addr) :
    (w.create a).owned b T = w.owned b T := by
  by_cases hba : b = a
  · subst hba
    rw [World.owned_of_some World.create_heap_self, World.owned_of_none ha]
    exact ite_self 0
  · exact World.owned_congr (World.create_heap_of_ne hba)

@[simp] theorem World.owned_closeHandle (s : Option Socket) (b : Addr) :
    (w.closeHandle s).owned b T = w.owned b T :=
  World.owned_congr (by rw [World.closeHandle_heap])

@[simp] theorem World.owned_freeAll (b : Addr) : w.freeAll.owned b T = 0 := World.owned_of_none rfl

theorem StepTo.owned_le {p p' : Prog} (hstep : StepTo U w p p' w') (hUT : U ≠ T) (b : Addr) :
    w'.owned b T ≤ w.owned b T := by
  cases hstep with
  | notFound | inspects => exact Nat.le_refl _
  | found s k a n si _ ha | unlocks a locked k n si ha _ | setsClosing a k n si ha
  | counts a m k n si ha =>
      exact Nat.le_of_eq (World.owned_modify ha rfl b)
  | unlockFrees a locked k n si ha _ =>
      rw [World.owned_closeHandle]
      exact World.owned_free_le b
  | acquires a k n si cs ha henter =>
      rw [World.owned_enter ha henter]
      simp [hUT]
  | releases a k n si ha | releasesFound own a k n si ha =>
      rw [World.owned_leave ha]
      exact Nat.sub_le _ _
  | creates a k ha => exact Nat.le_of_eq (World.owned_create ha b)
  | createsHandle s a k n si _ ha =>
      have hset : (w.setHandle s (some a)).heap a = some (n, si) := ha
      exact Nat.le_of_eq (World.owned_modify hset rfl b)
  | closesHandle s k => exact Nat.le_of_eq (World.owned_closeHandle _ b)
  | frees a k n si ha => exact World.owned_free_le b
  | freesAll k =>
      rw [World.owned_freeAll]
      exact Nat.zero_le _

theorem Others.owned_le (hothers : Others T w w') (b : Addr) : w'.owned b T ≤ w.owned b T := by
  induction hothers with
  | refl => exact Nat.le_refl _
  | step hUT hstep _ ih => exact Nat.le_trans ih ((Prog.step_to hstep).owned_le hUT b)

end Owned

/-! ## One instruction -/

/-- What an instruction does for a thread that holds the `SockCritSec` of `held`. -/
inductive LockStep (T : Thread) (w : World) (p p' : Prog) (w' : World) : Option Addr → Prop
  | keeps (held : Option Addr) :
      p.lockEvents T w = [] → p.Orderly w → p'.LocksMatch held →
      (∀ b, w'.owned b T ≤ w.owned b T) → (∀ b, held = some b → w'.owned b T = w.owned b T) →
        LockStep T w p p' w' held
  | enters (a : Addr) :
      p.lockEvents T w = [.acquired a] → p.Orderly w → p'.LocksMatch (some a) →
      (∀ b, w'.owned b T = w.owned b T + if b = a then 1 else 0) →
        LockStep T w p p' w' none
  | leaves (a : Addr) :
      p.lockEvents T w = [.released a (decide (0 < w.owned a T))] → p.Orderly w →
      p'.LocksMatch none → (∀ b, w'.owned b T ≤ w.owned b T - if b = a then 1 else 0) →
        LockStep T w p p' w' (some a)
  | leavesOther (held : Option Addr) (a : Addr) :
      held ≠ some a → p.lockEvents T w = [.released a (decide (0 < w.owned a T))] →
      ¬p.Orderly w → LockStep T w p p' w' held
  /-- `WSPCloseSocket` returns, and the context is not freed. -/
  | keepsLock (a : Addr) :
      p.lockEvents T w = [] → ¬p.Orderly w → p' = .ret → LockStep T w p p' w' (some a)
  /-- The context is freed before its `SockCritSec` is released. -/
  | leavesEarly (a : Addr) (k : Prog) :
      ¬p.Orderly w → p' = .releaseSocketLock a k → w'.owned a T = 0 →
        LockStep T w p p' w' (some a)

section Step
variable {T : Thread} {w w' : World} {p p' : Prog} {held : Option Addr}

theorem World.unlockFrees_of_some {a : Addr} {n : ℕ} {si : SockInfo}
    (ha : w.heap a = some (n, si)) : w.unlockFrees a = si.dropFrees := by
  simp only [World.unlockFrees, ha]

theorem Prog.LocksMatch.step (hp : p.LocksMatch held) (hstep : p.step T w = some (p', w')) :
    LockStep T w p p' w' held := by
  cases Prog.step_to hstep with
  | notFound s k _ =>
      exact .keeps held rfl trivial hp.1 (fun _ => Nat.le_refl _) fun _ _ => rfl
  | found s k a n si _ ha =>
      have hsame (b : Addr) : (w.modify a SockInfo.addRef).owned b T = w.owned b T :=
        World.owned_modify ha rfl b
      exact .keeps held rfl trivial (hp.2 a) (fun b => Nat.le_of_eq (hsame b)) fun b _ => hsame b
  | unlockFrees a locked k n si ha hfrees =>
      have hunlock : w.unlockFrees a = true := (World.unlockFrees_of_some ha).trans hfrees
      have hevents : (Prog.unlock a locked p').lockEvents T w =
          [.released a (decide (0 < w.owned a T))] := if_pos hunlock
      cases locked with
      | true =>
          obtain ⟨rfl, rfl⟩ := hp
          refine .leaves a hevents hunlock rfl fun b => ?_
          rw [World.owned_closeHandle]
          by_cases hba : b = a
          · subst hba
            rw [World.owned_free_self]
            exact Nat.zero_le _
          · rw [World.owned_free_of_ne hba, if_neg hba]
            exact Nat.le_refl _
      | false =>
          have hdisorder : ¬(Prog.unlock a false p').Orderly w := by
            simp [Prog.Orderly, hunlock]
          by_cases hheld : held = some a
          · subst hheld
            obtain ⟨k', rfl⟩ := hp.2 rfl
            refine .leavesEarly a k' hdisorder rfl ?_
            rw [World.owned_closeHandle, World.owned_free_self]
          · exact .leavesOther held a hheld hevents hdisorder
  | unlocks a locked k n si ha hkeeps =>
      have hunlock : w.unlockFrees a = false := (World.unlockFrees_of_some ha).trans hkeeps
      have hevents : (Prog.unlock a locked p').lockEvents T w = [] := if_neg (by simp [hunlock])
      cases locked with
      | true =>
          obtain ⟨rfl, rfl⟩ := hp
          exact .keepsLock a hevents (by simp [Prog.Orderly, hunlock]) rfl
      | false =>
          have hsame (b : Addr) : (w.modify a SockInfo.dropRef).owned b T = w.owned b T :=
            World.owned_modify ha rfl b
          exact .keeps held hevents hunlock hp.1 (fun b => Nat.le_of_eq (hsame b))
            fun b _ => hsame b
  | acquires a k n si cs ha henter =>
      obtain ⟨rfl, hk⟩ := hp
      refine .enters a rfl trivial hk fun b => ?_
      rw [World.owned_enter ha henter]
      simp
  | releases a k n si ha =>
      obtain ⟨rfl, hk⟩ := hp
      refine .leaves a rfl trivial hk fun b => ?_
      rw [World.owned_leave ha]
      simp
  | releasesFound own a k n si ha =>
      obtain ⟨rfl, hk⟩ := hp
      by_cases hown : own = a
      · subst hown
        refine .leaves own rfl rfl hk fun b => ?_
        rw [World.owned_leave ha]
        simp
      · exact .leavesOther _ a (fun h => hown (Option.some.inj h)) rfl hown
  | inspects a k n si ha =>
      exact .keeps held rfl trivial (hp si) (fun _ => Nat.le_refl _) fun _ _ => rfl
  | setsClosing a k n si ha | counts a m k n si ha =>
      exact .keeps held rfl trivial hp (fun b => Nat.le_of_eq (World.owned_modify ha rfl b))
        fun b _ => World.owned_modify ha rfl b
  | creates a k ha =>
      exact .keeps held rfl trivial hp (fun b => Nat.le_of_eq (World.owned_create ha b))
        fun b _ => World.owned_create ha b
  | createsHandle s a k n si _ ha =>
      have hset : (w.setHandle s (some a)).heap a = some (n, si) := ha
      exact .keeps held rfl trivial hp (fun b => Nat.le_of_eq (World.owned_modify hset rfl b))
        fun b _ => World.owned_modify hset rfl b
  | closesHandle s k =>
      exact .keeps held rfl trivial (hp _) (fun b => Nat.le_of_eq (World.owned_closeHandle _ b))
        fun b _ => World.owned_closeHandle _ b
  | frees a k n si ha =>
      refine .keeps held rfl trivial hp.2 World.owned_free_le fun b hb => ?_
      exact World.owned_free_of_ne fun hba => hp.1 (hba ▸ hb)
  | freesAll k =>
      obtain ⟨rfl, hk⟩ := hp
      refine .keeps none rfl trivial hk (fun b => ?_) (by simp)
      rw [World.owned_freeAll]
      exact Nat.zero_le _

end Step

/-! ## Whole calls -/

/-- `LocksBalanced` for the rest of a call in which the `SockCritSec` of `held`
has been acquired before. -/
def Balances (held : Option Addr) (events : List LockEvent) : Prop :=
  (∀ a, events.count (.acquired a) + (if held = some a then 1 else 0) =
      events.count (.released a true)) ∧ ∀ a, .released a false ∉ events

theorem locksBalanced_iff {T : Thread} {trace : List Executed} :
    LocksBalanced T trace ↔ Balances none (lockEvents T trace) := by
  simp [LocksBalanced, Balances]

section Balances
variable {a : Addr} {held : Option Addr} {events : List LockEvent}

theorem balances_acquired : Balances none (.acquired a :: events) ↔ Balances (some a) events := by
  simp [Balances, List.count_cons]

theorem balances_released :
    Balances (some a) (.released a true :: events) ↔ Balances none events := by
  simp [Balances, List.count_cons]

theorem not_balances_unowned (hmem : .released a false ∈ events) : ¬Balances held events :=
  fun hbalances => hbalances.2 a hmem

theorem not_balances_nil : ¬Balances (some a) [] := fun hbalances => by simpa using hbalances.1 a

end Balances

/-- The thread owns the `SockCritSec` of `held`, once, and no other. -/
def Owns (T : Thread) (held : Option Addr) (w : World) : Prop :=
  ∀ a, w.owned a T = if held = some a then 1 else 0

section Run
variable {T : Thread} {w w' u : World} {p p' : Prog} {held : Option Addr} {a : Addr}
  {e : Executed} {trace : List Executed}

theorem lockEvents_cons :
    lockEvents T (e :: trace) = e.prog.lockEvents T e.before ++ lockEvents T trace :=
  rfl

theorem Owns.of_keeps (howns : Owns T held w) (hle : ∀ b, w'.owned b T ≤ w.owned b T)
    (hheld : ∀ b, held = some b → w'.owned b T = w.owned b T) : Owns T held w' := by
  intro b
  by_cases hb : held = some b
  · rw [hheld b hb, howns b]
  · have hzero := howns b
    rw [if_neg hb] at hzero ⊢
    exact Nat.le_zero.mp (hzero ▸ hle b)

theorem Owns.lost (howns : Owns T held w') (hothers : Others T w' u)
    (hlost : ¬∀ b, 0 < w'.owned b T → 0 < u.owned b T) :
    ∃ a, held = some a ∧ ∀ b, u.owned b T = 0 := by
  obtain ⟨a, hlost⟩ := Classical.not_forall.mp hlost
  obtain ⟨hpos, hzero⟩ := Classical.not_imp.mp hlost
  have hheld : held = some a := by
    by_contra hne
    rw [howns a, if_neg hne] at hpos
    exact Nat.lt_irrefl 0 hpos
  refine ⟨a, hheld, fun b => ?_⟩
  by_cases hba : b = a
  · subst hba
    exact Nat.eq_zero_of_not_pos hzero
  · have hle := hothers.owned_le b
    rw [howns b, hheld, if_neg fun h => hba (Option.some.inj h).symm] at hle
    exact Nat.le_zero.mp hle

theorem Trace.of_ret (htrace : Trace T .ret w trace) : trace = [] := by
  cases htrace with
  | ret => rfl
  | step hstep _ _ => simp [Prog.step] at hstep

theorem Trace.unowned_release {k : Prog} (htrace : Trace T (.releaseSocketLock a k) w trace)
    (hzero : w.owned a T = 0) : .released a false ∈ lockEvents T trace := by
  cases htrace with
  | step _ _ _ =>
      rw [lockEvents_cons]
      simp [Prog.lockEvents, hzero]

/-- A thread that does not own the `SockCritSec` it has to leave does not return
without leaving one that it does not own. -/
theorem Trace.not_balances_of_lost (htrace : Trace T p w trace) (hp : p.LocksMatch held)
    (hheld : held ≠ none) (hlost : ∀ b, w.owned b T = 0) : ¬Balances held (lockEvents T trace) := by
  induction htrace with
  | ret w => exact absurd hp hheld
  | @step p p' w w' u trace hstep hothers htrace ih =>
      rw [lockEvents_cons]
      have hunowned (b : Addr) (hevents : p.lockEvents T w =
          [.released b (decide (0 < w.owned b T))]) :
          ¬Balances held (p.lockEvents T w ++ lockEvents T trace) := by
        rw [hevents, hlost b]
        exact not_balances_unowned List.mem_cons_self
      cases hp.step hstep with
      | keeps _ hevents _ hp' hle _ =>
          dsimp only
          rw [hevents]
          refine ih hp' fun b => Nat.le_zero.mp ?_
          exact Nat.le_trans (hothers.owned_le b) (hlost b ▸ hle b)
      | enters b _ _ _ _ => exact absurd rfl hheld
      | leaves b hevents _ _ _ => exact hunowned b hevents
      | leavesOther _ b _ hevents _ => exact hunowned b hevents
      | keepsLock b hevents _ hret =>
          subst hret
          rw [htrace.of_ret]
          dsimp only
          rw [hevents]
          exact not_balances_nil
      | leavesEarly b k _ hk hzero =>
          subst hk
          have hu : u.owned b T = 0 := Nat.le_zero.mp (hzero ▸ hothers.owned_le b)
          exact not_balances_unowned (List.mem_append_right _ (htrace.unowned_release hu))

theorem Trace.balances_iff (htrace : Trace T p w trace) (hp : p.LocksMatch held)
    (howns : Owns T held w) : Balances held (lockEvents T trace) ↔ ∀ e ∈ trace, e.Orderly T := by
  induction htrace generalizing held with
  | ret w =>
      have hheld : held = none := hp
      simp [hheld, Balances, lockEvents]
  | @step p p' w w' u trace hstep hothers htrace ih =>
      rw [List.forall_mem_cons, lockEvents_cons]
      dsimp only [Executed.Orderly]
      -- The rest is balanced if other threads let the thread own what it owns.
      have hrest (held' : Option Addr) (hp' : p'.LocksMatch held') (howns' : Owns T held' w') :
          Balances held' (lockEvents T trace) ↔
            (∀ b, 0 < w'.owned b T → 0 < u.owned b T) ∧ ∀ e ∈ trace, e.Orderly T := by
        by_cases hkept : ∀ b, 0 < w'.owned b T → 0 < u.owned b T
        · have hu : Owns T held' u := by
            refine howns'.of_keeps hothers.owned_le fun b hb => ?_
            have hone := howns' b
            rw [if_pos hb] at hone
            have hpos := hkept b (hone ▸ Nat.one_pos)
            have hle := hothers.owned_le b
            omega
          exact (ih hp' hu).trans (and_iff_right hkept).symm
        · obtain ⟨a, rfl, hlost⟩ := howns'.lost hothers hkept
          simp only [htrace.not_balances_of_lost hp' (by simp) hlost, hkept, false_and]
      cases hp.step hstep with
      | keeps _ hevents horderly hp' hle hheld =>
          simp only [hevents, horderly, true_and, List.nil_append]
          exact hrest held hp' (howns.of_keeps hle hheld)
      | enters a hevents horderly hp' hadd =>
          simp only [hevents, horderly, true_and, List.cons_append, List.nil_append,
            balances_acquired]
          refine hrest (some a) hp' fun b => ?_
          rw [hadd b, howns b]
          simp [eq_comm]
      | leaves a hevents horderly hp' hsub =>
          have hone : w.owned a T = 1 := (howns a).trans (if_pos rfl)
          simp only [hevents, horderly, true_and, List.cons_append, List.nil_append, hone,
            Nat.one_pos, decide_true, balances_released]
          refine hrest none hp' fun b => Nat.le_zero.mp ?_
          have hle := hsub b
          rw [howns b] at hle
          by_cases hba : b = a
          · subst hba
            simpa using hle
          · rw [if_neg fun h => hba (Option.some.inj h).symm] at hle
            exact Nat.le_trans hle (Nat.sub_le _ _)
      | leavesOther _ a hne hevents hdisorder =>
          have hzero : w.owned a T = 0 := (howns a).trans (if_neg hne)
          simp only [hevents, hdisorder, false_and, iff_false, hzero]
          exact not_balances_unowned List.mem_cons_self
      | keepsLock a hevents hdisorder hret =>
          subst hret
          rw [htrace.of_ret]
          simp only [hevents, hdisorder, false_and, iff_false]
          exact not_balances_nil
      | leavesEarly a k hdisorder hk hzero =>
          subst hk
          have hu : u.owned a T = 0 := Nat.le_zero.mp (hzero ▸ hothers.owned_le a)
          simp only [hdisorder, false_and, iff_false]
          exact not_balances_unowned (List.mem_append_right _ (htrace.unowned_release hu))

end Run

/-- Whatever other threads do meanwhile, a call by a thread that owns no
`SockCritSec` leaves the `SockCritSec`s balanced if and only if each of its
instructions is orderly. -/
theorem lock_balance_iff (r : Routine) {T : Thread} {w : World} {trace : List Executed}
    (hstart : ∀ a, w.owned a T = 0) (htrace : Trace T r.prog w trace) :
    LocksBalanced T trace ↔ ∀ e ∈ trace, e.Orderly T := by
  rw [locksBalanced_iff]
  exact htrace.balances_iff (locksMatch_routine r) fun a => hstart a

theorem oneSocket_owned (a : Addr) : World.oneSocket.owned a 0 = 0 := by
  by_cases ha : a = 0
  · subst ha
    rfl
  · exact World.owned_of_none (if_neg ha)

/-- An overlapped `WSPSend` for which there is no structure. -/
theorem lock_balance_iff_send :
    ∃ trace, Trace 0 (Routine.entryPoint (.send 1 ⟨true, false, false, false⟩)).prog
        World.oneSocket trace ∧ LocksBalanced 0 trace :=
  have htrace : Trace 0 (Routine.entryPoint (.send 1 ⟨true, false, false, false⟩)).prog
      World.oneSocket _ :=
    .step rfl (.refl _) <| .step rfl (.refl _) <| .step rfl (.refl _) <|
      .step rfl (.refl _) <| .step rfl (.refl _) <| .ret _
  ⟨_, htrace, (lock_balance_iff _ oneSocket_owned htrace).mpr <|
    List.forall_mem_cons.mpr ⟨⟨trivial, fun _ h => h⟩,
      List.forall_mem_cons.mpr ⟨⟨trivial, fun _ h => h⟩,
        List.forall_mem_cons.mpr ⟨⟨trivial, fun _ h => h⟩,
          List.forall_mem_cons.mpr ⟨⟨trivial, fun _ h => h⟩,
            List.forall_mem_cons.mpr ⟨⟨rfl, fun _ h => h⟩, List.forall_mem_nil _⟩⟩⟩⟩⟩⟩

/-- `WSPCloseSocket` while another call has a reference. -/
theorem close_keeps_socket_lock :
    ∃ w trace, Others 0 World.oneSocket w ∧
      Trace 0 (Routine.entryPoint (.closeSocket 1 true)).prog w trace ∧
      ¬LocksBalanced 0 trace := by
  refine ⟨_, _, .step (U := 1) (p := wspBind 1) (by decide) rfl (.refl _),
    .step rfl (.refl _) <| .step rfl (.refl _) <| .step rfl (.refl _) <|
      .step rfl (.refl _) <| .step rfl (.refl _) <| .ret _, fun hbalanced => ?_⟩
  exact absurd (hbalanced.1 0) (by decide)

end MiscProjects.Lsp.Calls
