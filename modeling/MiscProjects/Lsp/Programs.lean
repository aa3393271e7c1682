import Mathlib.Data.List.Count
import MiscProjects.Lsp.Contexts

/-!
# The calls of the LSP as programs

What an entry point does to the socket contexts: the references it takes and
releases, the `SockCritSec`s it enters and leaves, and the contexts it creates,
closes and frees.  A program is a tree of such instructions; an instruction
under `gCriticalSection` is one step.  Between two steps other threads may run.

A `SockCritSec` has an owner and a recursion count.  Waiting for one and
touching freed memory are no steps.  Serial numbers, which the code does not
have, tell the contexts at one address apart.
-/

namespace MiscProjects.Lsp.Calls

/-! ## Contexts -/

/-- A critical section, which its owner has entered `recursion` times. -/
structure CritSec where
  owner : Thread
  recursion : ℕ
deriving DecidableEq

/-- How often the thread owns the critical section. -/
def CritSec.ownedBy (cs : CritSec) (T : Thread) : ℕ :=
  if cs.owner = T then cs.recursion else 0

/-- `EnterCriticalSection`, if it does not wait. -/
def CritSec.enter (cs : CritSec) (T : Thread) : Option CritSec :=
  if cs.recursion = 0 then some ⟨T, 1⟩
  else if cs.owner = T then some ⟨T, cs.recursion + 1⟩
  else none

/-- `LeaveCriticalSection` by the owner; by another thread it does nothing
good. -/
def CritSec.leave (cs : CritSec) (T : Thread) : CritSec :=
  if cs.owner = T then ⟨T, cs.recursion - 1⟩ else cs

/-- A `SOCK_INFO`. -/
structure SockInfo where
  refCount : BitVec 32
  bClosing : Bool
  dwOutstandingAsync : BitVec 32
  layeredSocket : Option Socket
  sockCritSec : CritSec
deriving DecidableEq

/-- What `CreateSockInfo` fills in. -/
def SockInfo.new : SockInfo where
  refCount := 0
  bClosing := false
  dwOutstandingAsync := 0
  layeredSocket := none
  sockCritSec := ⟨0, 0⟩

/-- The contexts with their serial numbers, the socket handles, and the sockets
that `WPUCloseSocketHandle` closes. -/
structure World where
  heap : Addr → Option (ℕ × SockInfo)
  nextSerial : ℕ
  handles : Socket → Option Addr
  closes : Socket → Bool
  fresh : ∀ a n si, heap a = some (n, si) → n < nextSerial

section World
variable (w : World) (a : Addr)

def World.modify (f : SockInfo → SockInfo) : World where
  heap := Function.update w.heap a ((w.heap a).map fun c => (c.1, f c.2))
  nextSerial := w.nextSerial
  handles := w.handles
  closes := w.closes
  fresh := by
    intro b n si hb
    by_cases hba : b = a
    · subst hba
      rw [Function.update_self, Option.map_eq_some_iff] at hb
      obtain ⟨c, hc, hpair⟩ := hb
      rw [Prod.mk.injEq] at hpair
      exact hpair.1 ▸ w.fresh b c.1 c.2 hc
    · rw [Function.update_of_ne hba] at hb
      exact w.fresh b n si hb

/-- `HeapFree`. -/
def World.free : World where
  heap := Function.update w.heap a none
  nextSerial := w.nextSerial
  handles := w.handles
  closes := w.closes
  fresh := by
    intro b n si hb
    by_cases hba : b = a
    · subst hba
      rw [Function.update_self] at hb
      exact absurd hb (by simp)
    · rw [Function.update_of_ne hba] at hb
      exact w.fresh b n si hb

/-- `CreateSockInfo`. -/
def World.create : World where
  heap := Function.update w.heap a (some (w.nextSerial, SockInfo.new))
  nextSerial := w.nextSerial + 1
  handles := w.handles
  closes := w.closes
  fresh := by
    intro b n si hb
    by_cases hba : b = a
    · subst hba
      rw [Function.update_self, Option.some.injEq, Prod.mk.injEq] at hb
      omega
    · rw [Function.update_of_ne hba] at hb
      exact Nat.lt_succ_of_lt (w.fresh b n si hb)

/-- `FreeSocketsAndMemory`, with the handles of the contexts. -/
def World.freeAll : World where
  heap := fun _ => none
  nextSerial := w.nextSerial
  handles := fun s => if w.closes s then none else w.handles s
  closes := w.closes
  fresh := by simp

def World.setHandle (s : Socket) (x : Option Addr) : World :=
  { w with handles := Function.update w.handles s x }

/-- `WPUCloseSocketHandle`. -/
def World.closeHandle (s : Option Socket) : World :=
  match s with
  | none => w
  | some s => if w.closes s then w.setHandle s none else w

/-- How often the thread owns the `SockCritSec` of a context. -/
def World.owned (T : Thread) : ℕ :=
  match w.heap a with
  | none => 0
  | some (_, si) => si.sockCritSec.ownedBy T

end World

section Heap
variable {w : World} {a b : Addr} {c : ℕ × SockInfo} {f : SockInfo → SockInfo}

theorem World.modify_heap_of_ne (hba : b ≠ a) : (w.modify a f).heap b = w.heap b :=
  Function.update_of_ne hba ..

theorem World.modify_heap_self (hc : w.heap a = some c) :
    (w.modify a f).heap a = some (c.1, f c.2) := by
  simp [World.modify, hc]

theorem World.free_heap_of_ne (hba : b ≠ a) : (w.free a).heap b = w.heap b :=
  Function.update_of_ne hba ..

@[simp] theorem World.free_heap_self : (w.free a).heap a = none := Function.update_self ..

theorem World.create_heap_of_ne (hba : b ≠ a) : (w.create a).heap b = w.heap b :=
  Function.update_of_ne hba ..

@[simp] theorem World.create_heap_self : (w.create a).heap a = some (w.nextSerial, SockInfo.new) :=
  Function.update_self ..

@[simp] theorem World.closeHandle_heap (s : Option Socket) : (w.closeHandle s).heap = w.heap := by
  unfold World.closeHandle
  cases s with
  | none => rfl
  | some s =>
      dsimp only
      split <;> rfl

@[simp] theorem World.closeHandle_nextSerial (s : Option Socket) :
    (w.closeHandle s).nextSerial = w.nextSerial := by
  unfold World.closeHandle
  cases s with
  | none => rfl
  | some s =>
      dsimp only
      split <;> rfl

end Heap

def SockInfo.addRef (si : SockInfo) : SockInfo := { si with refCount := si.refCount + 1 }

def SockInfo.dropRef (si : SockInfo) : SockInfo := { si with refCount := si.refCount - 1 }

/-- `UnlockSocketContext` frees the context. -/
def SockInfo.dropFrees (si : SockInfo) : Bool := si.refCount - 1 = 0 && si.bClosing

/-! ## Programs -/

inductive Prog
  | ret
  /-- A null pointer is followed. -/
  | crash
  /-- `FindAndLockSocketContext`. -/
  | find (s : Socket) (k : Option Addr → Prog)
  /-- `UnlockSocketContext`; `locked` tells whether the caller leaves it to this
  function to release the `SockCritSec`. -/
  | unlock (a : Addr) (locked : Bool) (k : Prog)
  | acquireSocketLock (a : Addr) (k : Prog)
  | releaseSocketLock (a : Addr) (k : Prog)
  /-- `CheckForContextCleanup` releases the `SockCritSec` of the context that it
  has looked up, having entered that of `own`. -/
  | releaseFound (own a : Addr) (k : Prog)
  /-- The fields of the context are read. -/
  | inspect (a : Addr) (k : SockInfo → Prog)
  /-- `bClosing = TRUE`. -/
  | setClosing (a : Addr) (k : Prog)
  /-- `dwOutstandingAsync` is changed by `n`. -/
  | count (a : Addr) (n : BitVec 32) (k : Prog)
  /-- `CreateSockInfo`. -/
  | create (a : Addr) (k : Prog)
  /-- `WPUCreateSocketHandle`, the handle being stored in the context. -/
  | createHandle (s : Socket) (a : Addr) (k : Prog)
  /-- `WPUCloseSocketHandle`. -/
  | closeHandle (s : Socket) (k : Bool → Prog)
  | free (a : Addr) (k : Prog)
  /-- `FreeSocketsAndMemory`. -/
  | freeAll (k : Prog)

/-- What is done to a context that has not been freed. -/
def onContext (w : World) (a : Addr) (f : SockInfo → Option (Prog × World)) :
    Option (Prog × World) :=
  (w.heap a).bind fun c => f c.2

/-- One instruction of a thread. -/
def Prog.step (T : Thread) : Prog → World → Option (Prog × World)
  | .ret, _ => none
  | .crash, _ => none
  | .find s k, w =>
      match w.handles s with
      | none => some (k none, w)
      | some a => onContext w a fun _ => some (k (some a), w.modify a SockInfo.addRef)
  | .unlock a _ k, w =>
      onContext w a fun si =>
        if si.dropFrees then some (k, (w.free a).closeHandle si.layeredSocket)
        else some (k, w.modify a SockInfo.dropRef)
  | .acquireSocketLock a k, w =>
      onContext w a fun si =>
        (si.sockCritSec.enter T).map fun cs =>
          (k, w.modify a fun si => { si with sockCritSec := cs })
  | .releaseSocketLock a k, w | .releaseFound _ a k, w =>
      onContext w a fun _ =>
        some (k, w.modify a fun si => { si with sockCritSec := si.sockCritSec.leave T })
  | .inspect a k, w => onContext w a fun si => some (k si, w)
  | .setClosing a k, w =>
      onContext w a fun _ => some (k, w.modify a fun si => { si with bClosing := true })
  | .count a n k, w =>
      onContext w a fun _ => some (k, w.modify a fun si =>
        { si with dwOutstandingAsync := si.dwOutstandingAsync + n })
  | .create a k, w => if w.heap a = none then some (k, w.create a) else none
  | .createHandle s a k, w =>
      if w.handles s = none then
        onContext w a fun _ => some (k, (w.setHandle s (some a)).modify a fun si =>
          { si with layeredSocket := some s })
      else none
  | .closeHandle s k, w => some (k (w.closes s), w.closeHandle (some s))
  | .free a k, w => onContext w a fun _ => some (k, w.free a)
  | .freeAll k, w => some (k, w.freeAll)

/-- What an instruction can do. -/
inductive StepTo (T : Thread) (w : World) : Prog → Prog → World → Prop
  | notFound (s : Socket) (k : Option Addr → Prog) :
      w.handles s = none → StepTo T w (.find s k) (k none) w
  | found (s : Socket) (k : Option Addr → Prog) (a : Addr) (n : ℕ) (si : SockInfo) :
      w.handles s = some a → w.heap a = some (n, si) →
        StepTo T w (.find s k) (k (some a)) (w.modify a SockInfo.addRef)
  | unlockFrees (a : Addr) (locked : Bool) (k : Prog) (n : ℕ) (si : SockInfo) :
      w.heap a = some (n, si) → si.dropFrees = true →
        StepTo T w (.unlock a locked k) k ((w.free a).closeHandle si.layeredSocket)
  | unlocks (a : Addr) (locked : Bool) (k : Prog) (n : ℕ) (si : SockInfo) :
      w.heap a = some (n, si) → si.dropFrees = false →
        StepTo T w (.unlock a locked k) k (w.modify a SockInfo.dropRef)
  | acquires (a : Addr) (k : Prog) (n : ℕ) (si : SockInfo) (cs : CritSec) :
      w.heap a = some (n, si) → si.sockCritSec.enter T = some cs →
        StepTo T w (.acquireSocketLock a k) k
          (w.modify a fun si => { si with sockCritSec := cs })
  | releases (a : Addr) (k : Prog) (n : ℕ) (si : SockInfo) :
      w.heap a = some (n, si) →
        StepTo T w (.releaseSocketLock a k) k
          (w.modify a fun si => { si with sockCritSec := si.sockCritSec.leave T })
  | releasesFound (own a : Addr) (k : Prog) (n : ℕ) (si : SockInfo) :
      w.heap a = some (n, si) →
        StepTo T w (.releaseFound own a k) k
          (w.modify a fun si => { si with sockCritSec := si.sockCritSec.leave T })
  | inspects (a : Addr) (k : SockInfo → Prog) (n : ℕ) (si : SockInfo) :
      w.heap a = some (n, si) → StepTo T w (.inspect a k) (k si) w
  | setsClosing (a : Addr) (k : Prog) (n : ℕ) (si : SockInfo) :
      w.heap a = some (n, si) →
        StepTo T w (.setClosing a k) k (w.modify a fun si => { si with bClosing := true })
  | counts (a : Addr) (m : BitVec 32) (k : Prog) (n : ℕ) (si : SockInfo) :
      w.heap a = some (n, si) →
        StepTo T w (.count a m k) k (w.modify a fun si =>
          { si with dwOutstandingAsync := si.dwOutstandingAsync + m })
  | creates (a : Addr) (k : Prog) :
      w.heap a = none → StepTo T w (.create a k) k (w.create a)
  | createsHandle (s : Socket) (a : Addr) (k : Prog) (n : ℕ) (si : SockInfo) :
      w.handles s = none → w.heap a = some (n, si) →
        StepTo T w (.createHandle s a k) k ((w.setHandle s (some a)).modify a fun si =>
          { si with layeredSocket := some s })
  | closesHandle (s : Socket) (k : Bool → Prog) :
      StepTo T w (.closeHandle s k) (k (w.closes s)) (w.closeHandle (some s))
  | frees (a : Addr) (k : Prog) (n : ℕ) (si : SockInfo) :
      w.heap a = some (n, si) → StepTo T w (.free a k) k (w.free a)
  | freesAll (k : Prog) : StepTo T w (.freeAll k) k w.freeAll

theorem onContext_eq_some_iff {w : World} {a : Addr} {f : SockInfo → Option (Prog × World)}
    {r : Prog × World} :
    onContext w a f = some r ↔ ∃ n si, w.heap a = some (n, si) ∧ f si = some r := by
  rw [onContext, Option.bind_eq_some_iff, Prod.exists]

theorem Prog.step_to {T : Thread} {p p' : Prog} {w w' : World}
    (hstep : p.step T w = some (p', w')) : StepTo T w p p' w' := by
  cases p
  all_goals simp only [Prog.step, onContext_eq_some_iff, Option.some.injEq, Prod.mk.injEq,
    reduceCtorEq] at hstep
  case find s k =>
    split at hstep
    next hnone =>
      obtain ⟨rfl, rfl⟩ := Prod.mk.inj (Option.some.inj hstep)
      exact .notFound s k hnone
    next a hsome =>
      obtain ⟨n, si, ha, hf⟩ := onContext_eq_some_iff.mp hstep
      obtain ⟨rfl, rfl⟩ := Prod.mk.inj (Option.some.inj hf)
      exact .found s k a n si hsome ha
  case unlock a locked k =>
    obtain ⟨n, si, ha, hf⟩ := hstep
    split at hf
    next hfrees =>
      obtain ⟨rfl, rfl⟩ := Prod.mk.inj (Option.some.inj hf)
      exact .unlockFrees a locked k n si ha hfrees
    next hkeeps =>
      obtain ⟨rfl, rfl⟩ := Prod.mk.inj (Option.some.inj hf)
      exact .unlocks a locked k n si ha (by simpa using hkeeps)
  case acquireSocketLock a k =>
    obtain ⟨n, si, ha, hf⟩ := hstep
    obtain ⟨cs, hcs, hpair⟩ := Option.map_eq_some_iff.mp hf
    obtain ⟨rfl, rfl⟩ := Prod.mk.inj hpair
    exact .acquires a k n si cs ha hcs
  case releaseSocketLock a k =>
    obtain ⟨n, si, ha, rfl, rfl⟩ := hstep
    exact .releases a k n si ha
  case releaseFound own a k =>
    obtain ⟨n, si, ha, rfl, rfl⟩ := hstep
    exact .releasesFound own a k n si ha
  case inspect a k =>
    obtain ⟨n, si, ha, rfl, rfl⟩ := hstep
    exact .inspects a k n si ha
  case setClosing a k =>
    obtain ⟨n, si, ha, rfl, rfl⟩ := hstep
    exact .setsClosing a k n si ha
  case count a m k =>
    obtain ⟨n, si, ha, rfl, rfl⟩ := hstep
    exact .counts a m k n si ha
  case create a k =>
    split at hstep
    next ha =>
      obtain ⟨rfl, rfl⟩ := Prod.mk.inj (Option.some.inj hstep)
      exact .creates a k ha
    next => simp at hstep
  case createHandle s a k =>
    split at hstep
    next hnone =>
      obtain ⟨n, si, ha, hf⟩ := onContext_eq_some_iff.mp hstep
      obtain ⟨rfl, rfl⟩ := Prod.mk.inj (Option.some.inj hf)
      exact .createsHandle s a k n si hnone ha
    next => simp at hstep
  case closeHandle s k =>
    obtain ⟨rfl, rfl⟩ := hstep
    exact .closesHandle s k
  case free a k =>
    obtain ⟨n, si, ha, rfl, rfl⟩ := hstep
    exact .frees a k n si ha
  case freeAll k =>
    obtain ⟨rfl, rfl⟩ := hstep
    exact .freesAll k

/-- The thread runs the program to its end, no other thread running. -/
inductive Finishes (T : Thread) : Prog → World → World → Prop
  | ret (w : World) : Finishes T .ret w w
  | step {p p' : Prog} {w w' w'' : World} :
      p.step T w = some (p', w') → Finishes T p' w' w'' → Finishes T p w w''

/-- One socket, which no call has been made on. -/
def World.oneSocket : World where
  heap := fun a => if a = 0 then some (0, SockInfo.new) else none
  nextSerial := 1
  handles := fun s => if s = 1 then some 0 else none
  closes := fun _ => true
  fresh := by
    intro a n si ha
    split at ha
    · rw [Option.some.injEq, Prod.mk.injEq] at ha
      omega
    · simp at ha

end MiscProjects.Lsp.Calls
