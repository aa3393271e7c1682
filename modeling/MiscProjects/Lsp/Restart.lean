import Mathlib.Data.List.Basic
import MiscProjects.Library.Runs

/-!
# Starting the LSP again

The last call of `WSPCleanup` stops the window manager and the overlapped manager, waits, and
destroys the heap.  `StopAsyncWindowManager` closes `WorkerThreadHandle` and does not reset it,
so that `GetWorkerWindow` creates no window any more.  `StopOverlappedManager` resets neither
the queue nor what the threads are at work on, and it waits no longer than four seconds for
threads that may wait for the two critical sections which it and its caller hold.

The state is that of the globals of `spi.cpp`, `asyncselect.cpp` and `overlap.cpp`, and of the
structures that the LSP's code has in hand.  A thread that would touch a structure of a heap
that has been destroyed cannot go on.  Heaps and windows are numbered as they are created.  The
calls of the application do not overlap with the last `WSPCleanup`, and each call of
`WSPCleanup` is for a `WSPStartup` that has succeeded.
-/

namespace MiscProjects.Lsp.Restart

open Runs

def defaultPoolCount : ℕ := 100

def maxProcCount : ℕ := 32

/-! ## State -/

/-- A `WSAOVERLAPPEDPLUS` of a heap. -/
structure WSAOverlappedPlus where
  heap : ℕ
  address : ℕ
deriving DecidableEq

/-- Where a thread is with a structure: in `ExecuteOverlappedOperation` on the worker thread, in
front of the last section of `gCriticalSection`, or in front of `PutbackOverlappedStructure`. -/
inductive Stage
  | executing
  | routine
  | putback
deriving DecidableEq

structure Task where
  olp : WSAOverlappedPlus
  stage : Stage
deriving DecidableEq

/-- A packet of the completion port; the one with which a thread exits has `-1` bytes. -/
inductive Packet
  | completion (olp : WSAOverlappedPlus)
  | exit
deriving DecidableEq

/-- How far the last `WSPCleanup` is: it waits for the worker threads under `gOverlappedCS`, or
has left it and is going to free the memory. -/
inductive Teardown
  | idle
  | stopping
  | stopped
deriving DecidableEq

/-- `gWorkerThread` is the number of handles in the array, `running` that of the worker threads.
`pending` is the queue from `PendingStart` to `PendingEnd`, `apcs` are the completion routines
that have been queued to a thread.  `succeeded` tells whether a `WSPStartup` has succeeded since
the last teardown, and `users` how many of them are not matched yet. -/
structure State where
  gEntryCount : ℕ
  succeeded : Bool
  users : ℕ
  teardown : Teardown
  hLspHeap : Option ℕ
  heaps : ℕ
  addresses : ℕ
  workerThreadHandle : Option ℕ
  asyncWindow : Option ℕ
  windows : List ℕ
  nextWindow : ℕ
  gdwThreadCount : Option ℕ
  gWorkerThread : ℕ
  running : ℕ
  ghIocp : Option (List Packet)
  ghWakeupSemaphore : Bool
  freePool : List WSAOverlappedPlus
  pending : List WSAOverlappedPlus
  atLower : List WSAOverlappedPlus
  atWork : List Task
  apcs : List WSAOverlappedPlus
deriving DecidableEq

/-- The library has been loaded; `gdwThreadCount` is `-1`. -/
def start : State where
  gEntryCount := 0
  succeeded := false
  users := 0
  teardown := .idle
  hLspHeap := none
  heaps := 0
  addresses := 0
  workerThreadHandle := none
  asyncWindow := none
  windows := []
  nextWindow := 0
  gdwThreadCount := none
  gWorkerThread := 0
  running := 0
  ghIocp := none
  ghWakeupSemaphore := false
  freePool := []
  pending := []
  atLower := []
  atWork := []
  apcs := []

/-- The structure is in the heap that the LSP uses. -/
def State.Live (s : State) (olp : WSAOverlappedPlus) : Prop :=
  s.hLspHeap = some olp.heap

instance (s : State) (olp : WSAOverlappedPlus) : Decidable (s.Live olp) :=
  inferInstanceAs (Decidable (_ = _))

/-- What a thread has in hand, or is going to be called for. -/
def State.inUse (s : State) : List WSAOverlappedPlus :=
  s.atWork.map Task.olp ++ s.apcs

/-! ## The window -/

/-- `StopAsyncWindowManager`; `destroyed` is the result of `DestroyWindow`, which is called by
another thread than the one that has created the window. -/
def stopAsyncWindowManager (destroyed : Bool) (s : State) : State :=
  match s.asyncWindow with
  | none => s
  | some w =>
      { s with
        asyncWindow := none
        windows := if destroyed then s.windows.erase w else s.windows }

/-- `GetWorkerWindow`.  A thread that has been created goes on to create the window. -/
def getWorkerWindow (createThread : Bool) (s : State) : State × Option ℕ :=
  if s.workerThreadHandle = none then
    if createThread then
      ({ s with
        workerThreadHandle := some s.nextWindow
        asyncWindow := some s.nextWindow
        windows := s.nextWindow :: s.windows
        nextWindow := s.nextWindow + 1 }, some s.nextWindow)
    else ({ s with asyncWindow := none }, none)
  else (s, s.asyncWindow)

/-! ## The overlapped manager -/

/-- `AllocateFreePool`; `none` if there is no memory. -/
def allocateFreePool (heapAlloc : Bool) (s : State) : Option State :=
  match s.hLspHeap with
  | none => none
  | some heap =>
      if heapAlloc then
        some { s with
          freePool := (List.range defaultPoolCount).map fun i => ⟨heap, s.addresses + i⟩
          addresses := s.addresses + defaultPoolCount }
      else none

/-- What `InitOverlappedManager` is answered; `createThread` threads are created before a call
fails. -/
structure ManagerAnswer where
  heapAlloc : Bool
  createIoCompletionPort : Bool
  dwNumberOfProcessors : ℕ
  createSemaphore : Bool
  createThread : ℕ
deriving DecidableEq

/-- The loop over `CreateThread`. -/
def createThreads (gdwThreadCount createThread : ℕ) (s : State) : State :=
  { s with
    gdwThreadCount := some gdwThreadCount
    gWorkerThread := min gdwThreadCount createThread
    running := s.running + min gdwThreadCount createThread }

/-- `InitOverlappedManager`; `none` if it writes past the array of the threads. -/
def initOverlappedManager (answer : ManagerAnswer) (s : State) : Option State :=
  if s.gWorkerThread ≠ 0 then some s
  else
    match allocateFreePool answer.heapAlloc s with
    | none => some s
    | some s =>
        if answer.createIoCompletionPort then
          if answer.dwNumberOfProcessors ≤ maxProcCount then
            some (createThreads answer.dwNumberOfProcessors answer.createThread
              { s with ghIocp := some [] })
          else none
        else if answer.createSemaphore then
          some (createThreads 1 answer.createThread
            { s with ghIocp := none, ghWakeupSemaphore := true })
        else some { s with ghIocp := none, ghWakeupSemaphore := false }

/-- `StopOverlappedManager` up to its wait; `none` if the number of threads has never been
set and the loop over the handles leaves the array. -/
def stopOverlappedManager (s : State) : Option State :=
  match s.gdwThreadCount with
  | none => none
  | some n =>
      some { s with
        teardown := .stopping
        ghIocp := s.ghIocp.map (· ++ List.replicate n .exit) }

/-- The rest of `StopOverlappedManager`.  Once the port is closed nothing is told of the
operations at the lower provider, and the threads that wait for it serve no manager. -/
def closeOverlappedManager (s : State) : State :=
  { s with
    teardown := .stopped
    gWorkerThread := 0
    ghIocp := none
    ghWakeupSemaphore := false
    running := if s.ghIocp = none then s.running else 0
    atLower := if s.ghIocp = none then s.atLower else [] }

/-- `GetOverlappedStructure`; the outer `none` if it clears a structure of a heap that is
gone. -/
def getOverlappedStructure (heapAlloc : Bool) (s : State) :
    Option (Option (WSAOverlappedPlus × State)) :=
  match s.freePool with
  | olp :: rest =>
      if s.Live olp then some (some (olp, { s with freePool := rest })) else none
  | [] =>
      match allocateFreePool heapAlloc s with
      | none => some none
      | some s =>
          match s.freePool with
          | olp :: rest => some (some (olp, { s with freePool := rest }))
          | [] => some none

/-! ## Startup and cleanup -/

/-- What a call of `WSPStartup` is answered: whether the heap is created, whether everything up
to `InitOverlappedManager` is obtained, the answers to that, and the result of the last lower
provider. -/
structure StartupCall where
  heapCreate : Bool
  loadsProviders : Bool
  manager : ManagerAnswer
  ret : BitVec 32
deriving DecidableEq

/-- The caller has the LSP started. -/
def State.succeed (s : State) : State :=
  { s with succeeded := true, users := s.users + 1 }

/-- The count is raised and the heap created. -/
def State.enter (heapCreate : Bool) (s : State) : State :=
  { s with
    gEntryCount := 1
    hLspHeap := if heapCreate then some s.heaps else none
    heaps := s.heaps + 1 }

def wspStartup (call : StartupCall) (s : State) : Option State :=
  if s.gEntryCount = 0 then
    if call.heapCreate && call.loadsProviders then
      match initOverlappedManager call.manager (s.enter call.heapCreate) with
      | none => none
      | some s => some (if call.ret = 0 then s.succeed else s)
    else some (s.enter call.heapCreate)
  else some { s with gEntryCount := s.gEntryCount + 1 }.succeed

/-- `WSPCleanup` up to the wait for the worker threads. -/
def wspCleanup (destroyed : Bool) (s : State) : Option State :=
  let s := { s with users := s.users - 1 }
  if s.gEntryCount = 0 then some s
  else if s.gEntryCount - 1 = 0 then
    stopOverlappedManager
      (stopAsyncWindowManager destroyed { s with gEntryCount := 0, succeeded := false })
  else some { s with gEntryCount := s.gEntryCount - 1 }

/-- `FreeSocketsAndMemory`.  The operations on the sockets that it closes are aborted, and their
completion routines queued. -/
def freeSocketsAndMemory (s : State) : State :=
  { s with
    teardown := .idle
    hLspHeap := none
    apcs := s.apcs ++ s.atLower
    atLower := [] }

/-! ## Steps -/

/-- The application starts an overlapped operation: the lower provider is called at once if
there is a port, and refuses or accepts it; otherwise it is queued. -/
def overlapped (heapAlloc accepted : Bool) (s : State) : Option State :=
  match getOverlappedStructure heapAlloc s with
  | none => none
  | some none => some s
  | some (some (olp, t)) =>
      if t.ghIocp = none then some { t with pending := t.pending ++ [olp] }
      else if accepted then some { t with atLower := t.atLower ++ [olp] }
      else some { t with freePool := olp :: t.freePool }

/-- The lower provider completes an operation: a packet is posted, or the completion routine is
queued. -/
def complete (olp : WSAOverlappedPlus) (s : State) : State :=
  match s.ghIocp with
  | some packets =>
      { s with ghIocp := some (packets ++ [.completion olp]), atLower := s.atLower.erase olp }
  | none => { s with apcs := s.apcs ++ [olp], atLower := s.atLower.erase olp }

/-- A worker thread gets a packet, or takes an operation from the queue. -/
def take (s : State) : Option State :=
  match s.ghIocp, s.pending with
  | some (.exit :: packets), _ =>
      some { s with ghIocp := some packets, running := s.running - 1 }
  | some (.completion olp :: packets), _ =>
      some { s with ghIocp := some packets, atWork := s.atWork ++ [⟨olp, .routine⟩] }
  | some [], _ => none
  | none, [] => none
  | none, olp :: rest =>
      if s.teardown = .stopping ∨ ¬s.Live olp then none
      else some { s with pending := rest, atWork := s.atWork ++ [⟨olp, .executing⟩] }

/-- A thread leaves a stage, and goes on to the next one. -/
def State.goOn (s : State) (task : Task) (next : List Task) : State :=
  { s with atWork := s.atWork.erase task ++ next }

inductive Action
  | startup (call : StartupCall)
  | cleanup (destroyed : Bool)
  | close
  | free
  | asyncSelect (createThread : Bool)
  | overlapped (heapAlloc accepted : Bool)
  | complete (olp : WSAOverlappedPlus)
  | take
  | run (olp : WSAOverlappedPlus)
  | execute (olp : WSAOverlappedPlus) (accepted : Bool)
  | account (olp : WSAOverlappedPlus)
  | putback (olp : WSAOverlappedPlus)
deriving DecidableEq

def step (s : State) : Action → Option State
  | .startup call => if s.teardown = .idle then wspStartup call s else none
  | .cleanup destroyed =>
      if s.teardown = .idle ∧ 0 < s.users then wspCleanup destroyed s else none
  | .close => if s.teardown = .stopping then some (closeOverlappedManager s) else none
  | .free => if s.teardown = .stopped then some (freeSocketsAndMemory s) else none
  | .asyncSelect createThread =>
      if s.teardown = .idle ∧ 0 < s.users then some (getWorkerWindow createThread s).1 else none
  | .overlapped heapAlloc accepted =>
      if s.teardown = .idle ∧ 0 < s.users then overlapped heapAlloc accepted s else none
  | .complete olp => if olp ∈ s.atLower then some (complete olp s) else none
  | .take => if 0 < s.running then take s else none
  | .run olp =>
      if olp ∈ s.apcs ∧ s.Live olp then
        some ({ s with apcs := s.apcs.erase olp, atWork := s.atWork ++ [⟨olp, .routine⟩] })
      else none
  | .execute olp accepted =>
      if ⟨olp, .executing⟩ ∈ s.atWork ∧ s.Live olp then
        if accepted then
          some { s.goOn ⟨olp, .executing⟩ [] with atLower := s.atLower ++ [olp] }
        else some (s.goOn ⟨olp, .executing⟩ [⟨olp, .routine⟩])
      else none
  | .account olp =>
      if ⟨olp, .routine⟩ ∈ s.atWork ∧ s.Live olp ∧ s.teardown = .idle then
        some (s.goOn ⟨olp, .routine⟩ [⟨olp, .putback⟩])
      else none
  | .putback olp =>
      if ⟨olp, .putback⟩ ∈ s.atWork ∧ s.Live olp ∧ s.teardown ≠ .stopping then
        some { s.goOn ⟨olp, .putback⟩ [] with freePool := olp :: s.freePool }
      else none

/-! ## Statement -/

/-- The LSP as it is after the first `WSPStartup` of the process. -/
structure Restarted (t : State) : Prop where
  window : ∃ w, (getWorkerWindow true t).2 = some w ∧ w ∈ (getWorkerWindow true t).1.windows
  workers : 0 < t.gWorkerThread ∧ t.gWorkerThread ≤ t.running
  pending : t.pending = []
  freePool : ∀ olp ∈ t.freePool, t.Live olp
  inUse : ∀ olp ∈ t.inUse, t.Live olp

/-- There is memory for the pool, and a worker thread. -/
structure ManagerAnswer.Suffices (answer : ManagerAnswer) : Prop where
  heapAlloc : answer.heapAlloc = true
  port : answer.createIoCompletionPort = true → 0 < answer.dwNumberOfProcessors
  semaphore : answer.createIoCompletionPort = false → answer.createSemaphore = true
  createThread : 0 < answer.createThread

/-- The call reaches `InitOverlappedManager`, which gets what it needs. -/
structure StartupCall.Initialises (call : StartupCall) : Prop where
  heapCreate : call.heapCreate = true
  loadsProviders : call.loadsProviders = true
  manager : call.manager.Suffices

/-- The call that initialises the LSP gets what it asks for; the last `WSPCleanup` finds no
window, and when it frees the memory no operation is queued, at the lower provider of a worker
thread without a port or in the hands of a thread. -/
def Action.Clean (s : State) : Action → Prop
  | .startup call => s.gEntryCount = 0 → call.Initialises
  | .cleanup _ => s.gEntryCount = 1 → s.asyncWindow = none
  | .free => s.pending = [] ∧ s.inUse = [] ∧ s.atLower = []
  | _ => True

/-- With these steps taken, the call is the first `WSPStartup` since the last teardown that
succeeds. -/
structure Restarts (taken : List Action) (call : StartupCall) (s t : State) : Prop where
  run : RunsTo step Always start taken s
  step : step s (.startup call) = some t
  first : s.succeeded = false
  succeeds : t.succeeded = true

/-- Every one of these steps is clean in the state in which it is taken. -/
def CleanRun (taken : List Action) : Prop :=
  ∀ before action r, before ++ [action] <+: taken → RunsTo step Always start before r →
    action.Clean r

/-! ## What a step can do -/

/-- The steps, with what they leave of a state. -/
inductive StepTo (s : State) : Action → State → Prop
  | startFails {call : StartupCall} (hidle : s.teardown = .idle) (hcount : s.gEntryCount = 0)
      (hfails : ¬(call.heapCreate = true ∧ call.loadsProviders = true)) :
      StepTo s (.startup call) (s.enter call.heapCreate)
  | start {call : StartupCall} {r : State} (hidle : s.teardown = .idle)
      (hcount : s.gEntryCount = 0) (hheap : call.heapCreate = true)
      (hloads : call.loadsProviders = true)
      (hinit : initOverlappedManager call.manager (s.enter true) = some r) :
      StepTo s (.startup call) (if call.ret = 0 then r.succeed else r)
  | startAgain {call : StartupCall} (hidle : s.teardown = .idle) (hcount : s.gEntryCount ≠ 0) :
      StepTo s (.startup call) { s with gEntryCount := s.gEntryCount + 1 }.succeed
  | lastCleanup {destroyed : Bool} {windows : List ℕ} {n : ℕ} (hidle : s.teardown = .idle)
      (husers : 0 < s.users) (hcount : s.gEntryCount = 1) :
      StepTo s (.cleanup destroyed)
        { s with
          asyncWindow := none
          windows := windows
          users := s.users - 1
          gEntryCount := 0
          succeeded := false
          teardown := .stopping
          ghIocp := s.ghIocp.map (· ++ List.replicate n .exit) }
  | cleanup {destroyed : Bool} (hidle : s.teardown = .idle) (husers : 0 < s.users)
      (hcount : s.gEntryCount ≠ 1) :
      StepTo s (.cleanup destroyed)
        { s with users := s.users - 1, gEntryCount := s.gEntryCount - 1 }
  | close (hstopping : s.teardown = .stopping) : StepTo s .close (closeOverlappedManager s)
  | free (hstopped : s.teardown = .stopped) : StepTo s .free (freeSocketsAndMemory s)
  | asyncSelect {createThread : Bool} (hidle : s.teardown = .idle) (husers : 0 < s.users) :
      StepTo s (.asyncSelect createThread) (getWorkerWindow createThread s).1
  /-- A structure of the heap is taken, if there is one, and queued or handed down. -/
  | overlapped {heapAlloc accepted : Bool} (freePool queued handed : List WSAOverlappedPlus)
      (addresses : ℕ) (hidle : s.teardown = .idle) (husers : 0 < s.users)
      (hpool : ∀ olp ∈ freePool, olp ∈ s.freePool ∨ s.Live olp)
      (hlive : ∀ olp ∈ queued ++ handed, s.Live olp) :
      StepTo s (.overlapped heapAlloc accepted)
        { s with
          freePool := freePool
          addresses := addresses
          pending := s.pending ++ queued
          atLower := s.atLower ++ handed }
  | post {olp : WSAOverlappedPlus} {packets : List Packet} (hlower : olp ∈ s.atLower)
      (hport : s.ghIocp = some packets) :
      StepTo s (.complete olp)
        { s with ghIocp := some (packets ++ [.completion olp]), atLower := s.atLower.erase olp }
  | queue {olp : WSAOverlappedPlus} (hlower : olp ∈ s.atLower) (hport : s.ghIocp = none) :
      StepTo s (.complete olp)
        { s with apcs := s.apcs ++ [olp], atLower := s.atLower.erase olp }
  | exit {packets : List Packet} (hport : s.ghIocp = some (.exit :: packets)) :
      StepTo s .take { s with ghIocp := some packets, running := s.running - 1 }
  | takePacket {olp : WSAOverlappedPlus} {packets : List Packet}
      (hport : s.ghIocp = some (.completion olp :: packets)) :
      StepTo s .take
        { s with ghIocp := some packets, atWork := s.atWork ++ [⟨olp, .routine⟩] }
  | dequeue {olp : WSAOverlappedPlus} {rest : List WSAOverlappedPlus}
      (hpending : s.pending = olp :: rest) (hlive : s.Live olp) :
      StepTo s .take { s with pending := rest, atWork := s.atWork ++ [⟨olp, .executing⟩] }
  | run {olp : WSAOverlappedPlus} (hmem : olp ∈ s.apcs) (hlive : s.Live olp) :
      StepTo s (.run olp)
        { s with apcs := s.apcs.erase olp, atWork := s.atWork ++ [⟨olp, .routine⟩] }
  | accept {olp : WSAOverlappedPlus} (hmem : ⟨olp, .executing⟩ ∈ s.atWork)
      (hlive : s.Live olp) :
      StepTo s (.execute olp true)
        { s.goOn ⟨olp, .executing⟩ [] with atLower := s.atLower ++ [olp] }
  | refuse {olp : WSAOverlappedPlus} (hmem : ⟨olp, .executing⟩ ∈ s.atWork)
      (hlive : s.Live olp) :
      StepTo s (.execute olp false) (s.goOn ⟨olp, .executing⟩ [⟨olp, .routine⟩])
  | account {olp : WSAOverlappedPlus} (hmem : ⟨olp, .routine⟩ ∈ s.atWork)
      (hlive : s.Live olp) :
      StepTo s (.account olp) (s.goOn ⟨olp, .routine⟩ [⟨olp, .putback⟩])
  | putback {olp : WSAOverlappedPlus} (hmem : ⟨olp, .putback⟩ ∈ s.atWork)
      (hlive : s.Live olp) :
      StepTo s (.putback olp)
        { s.goOn ⟨olp, .putback⟩ [] with freePool := olp :: s.freePool }

section Steps
variable {s t u : State} {action : Action} {olp : WSAOverlappedPlus}

theorem wspStartup_cases {call : StartupCall} (hidle : s.teardown = .idle)
    (hstep : wspStartup call s = some t) : StepTo s (.startup call) t := by
  unfold wspStartup at hstep
  by_cases hcount : s.gEntryCount = 0
  · by_cases hreaches : (call.heapCreate && call.loadsProviders) = true
    · have hparts := Bool.and_eq_true_iff.1 hreaches
      rw [if_pos hcount, if_pos hreaches, hparts.1] at hstep
      rcases hinit : initOverlappedManager call.manager (s.enter true) with - | r
      · rw [hinit] at hstep
        exact absurd hstep (by simp)
      · rw [hinit] at hstep
        obtain rfl := Option.some.inj hstep
        exact .start hidle hcount hparts.1 hparts.2 hinit
    · rw [if_pos hcount, if_neg hreaches] at hstep
      obtain rfl := Option.some.inj hstep
      exact .startFails hidle hcount fun hparts => hreaches (Bool.and_eq_true_iff.2 hparts)
  · rw [if_neg hcount] at hstep
    obtain rfl := Option.some.inj hstep
    exact .startAgain hidle hcount

theorem exists_stopAsyncWindowManager (destroyed : Bool) (s : State) :
    ∃ windows, stopAsyncWindowManager destroyed s =
      { s with asyncWindow := none, windows := windows } := by
  unfold stopAsyncWindowManager
  rcases hwindow : s.asyncWindow with - | w
  · refine ⟨s.windows, ?_⟩
    simp only
    rw [← hwindow]
  · exact ⟨_, rfl⟩

theorem wspCleanup_cases {destroyed : Bool} (hidle : s.teardown = .idle) (husers : 0 < s.users)
    (hstep : wspCleanup destroyed s = some t) : StepTo s (.cleanup destroyed) t := by
  unfold wspCleanup at hstep
  by_cases hone : s.gEntryCount = 1
  · rw [if_neg (by simp [hone]), if_pos (by simp [hone])] at hstep
    obtain ⟨windows, hstop⟩ := exists_stopAsyncWindowManager destroyed
      { s with users := s.users - 1, gEntryCount := 0, succeeded := false }
    rw [hstop] at hstep
    unfold stopOverlappedManager at hstep
    rcases hthreads : s.gdwThreadCount with - | n
    · simp [hthreads] at hstep
    · simp only [hthreads, Option.some.injEq] at hstep
      rw [← hstep, ← hthreads]
      exact .lastCleanup hidle husers hone
  · have ht : t = { s with users := s.users - 1, gEntryCount := s.gEntryCount - 1 } := by
      by_cases hzero : s.gEntryCount = 0
      · rw [if_pos hzero] at hstep
        rw [← Option.some.inj hstep, hzero]
      · rw [if_neg hzero, if_neg (by simpa using by omega)] at hstep
        exact (Option.some.inj hstep).symm
    rw [ht]
    exact .cleanup hidle husers hone

theorem allocateFreePool_cases {heapAlloc : Bool} (halloc : allocateFreePool heapAlloc s = some t) :
    ∃ heap, s.hLspHeap = some heap ∧ heapAlloc = true ∧ t = { s with
        freePool := (List.range defaultPoolCount).map fun i => ⟨heap, s.addresses + i⟩
        addresses := s.addresses + defaultPoolCount } := by
  unfold allocateFreePool at halloc
  rcases hheap : s.hLspHeap with - | heap
  · simp [hheap] at halloc
  · rcases heapAlloc with - | -
    · simp [hheap] at halloc
    · simp only [hheap, if_true, Option.some.injEq] at halloc
      refine ⟨heap, rfl, rfl, ?_⟩
      rw [← halloc, ← hheap]

theorem live_of_mem_pool {heap address : ℕ} (hheap : s.hLspHeap = some heap)
    (hmem : olp ∈ (List.range defaultPoolCount).map fun i =>
      (⟨heap, address + i⟩ : WSAOverlappedPlus)) : s.Live olp := by
  obtain ⟨i, -, rfl⟩ := List.mem_map.1 hmem
  exact hheap

theorem getOverlappedStructure_cases {heapAlloc : Bool}
    (hget : getOverlappedStructure heapAlloc s = some (some (olp, t))) :
    ∃ rest addresses, t = { s with freePool := rest, addresses := addresses } ∧ s.Live olp ∧
      ∀ o ∈ rest, o ∈ s.freePool ∨ s.Live o := by
  unfold getOverlappedStructure at hget
  rcases hpool : s.freePool with - | ⟨first, rest⟩
  · simp only [hpool] at hget
    rcases halloc : allocateFreePool heapAlloc s with - | r
    · simp [halloc] at hget
    · obtain ⟨heap, hheap, -, hr⟩ := allocateFreePool_cases halloc
      simp only [halloc] at hget
      rcases hfree : r.freePool with - | ⟨first, rest⟩
      · simp [hfree] at hget
      · simp only [hfree, Option.some.injEq, Prod.mk.injEq] at hget
        obtain ⟨rfl, rfl⟩ := hget
        have hall : ∀ o ∈ first :: rest, s.Live o := by
          intro o ho
          rw [← hfree, hr] at ho
          exact live_of_mem_pool hheap ho
        refine ⟨rest, r.addresses, ?_, hall _ List.mem_cons_self, ?_⟩
        · rw [hr]
        · intro o ho
          exact .inr (hall o (List.mem_cons_of_mem _ ho))
  · simp only [hpool] at hget
    by_cases hlive : s.Live first
    · simp only [if_pos hlive, Option.some.injEq, Prod.mk.injEq] at hget
      obtain ⟨rfl, rfl⟩ := hget
      refine ⟨rest, s.addresses, rfl, hlive, ?_⟩
      intro o ho
      exact .inl (List.mem_cons_of_mem _ ho)
    · simp [if_neg hlive] at hget

theorem overlapped_cases {heapAlloc accepted : Bool} (hidle : s.teardown = .idle)
    (husers : 0 < s.users) (hstep : overlapped heapAlloc accepted s = some t) :
    StepTo s (.overlapped heapAlloc accepted) t := by
  unfold overlapped at hstep
  rcases hget : getOverlappedStructure heapAlloc s with - | - | ⟨olp, r⟩
  · simp [hget] at hstep
  · simp only [hget, Option.some.injEq] at hstep
    rw [← hstep]
    simpa using StepTo.overlapped s.freePool [] [] s.addresses hidle husers
      (fun o ho => Or.inl ho) (by simp)
  · obtain ⟨rest, addresses, hr, hlive, hrest⟩ := getOverlappedStructure_cases hget
    simp only [hget] at hstep
    by_cases hport : r.ghIocp = none
    · rw [if_pos hport] at hstep
      rw [← Option.some.inj hstep, hr]
      have hlive' : ∀ o ∈ [olp], s.Live o := by
        simpa using hlive
      simpa using StepTo.overlapped rest [olp] [] addresses hidle husers hrest hlive'
    · rw [if_neg hport] at hstep
      by_cases haccepted : accepted = true
      · rw [if_pos haccepted] at hstep
        rw [← Option.some.inj hstep, hr]
        simpa using StepTo.overlapped rest [] [olp] addresses hidle husers hrest
          (by simpa using hlive)
      · rw [if_neg haccepted] at hstep
        rw [← Option.some.inj hstep, hr]
        simpa using StepTo.overlapped (olp :: rest) [] [] addresses hidle husers
          (List.forall_mem_cons.2 ⟨.inr hlive, hrest⟩) (by simp)

theorem take_cases (hstep : take s = some t) : StepTo s .take t := by
  unfold take at hstep
  split at hstep
  · rename_i packets hport
    obtain rfl := Option.some.inj hstep
    exact .exit hport
  · rename_i olp packets hport
    obtain rfl := Option.some.inj hstep
    exact .takePacket hport
  · exact absurd hstep (by simp)
  · exact absurd hstep (by simp)
  · rename_i olp rest hport hpending
    by_cases hwaits : s.teardown = .stopping ∨ ¬s.Live olp
    · rw [if_pos hwaits] at hstep
      exact absurd hstep (by simp)
    · rw [if_neg hwaits] at hstep
      obtain rfl := Option.some.inj hstep
      exact .dequeue hpending (not_not.1 fun hdead => hwaits (.inr hdead))

theorem step_cases (hstep : step s action = some t) : StepTo s action t := by
  rcases action with call | destroyed | - | - | createThread | ⟨heapAlloc, accepted⟩ | olp | - |
    olp | ⟨olp, _ | _⟩ | olp | olp
  all_goals simp only [step, Option.ite_none_right_eq_some, Option.some.injEq, if_true,
    Bool.false_eq_true, if_false] at hstep
  · exact wspStartup_cases hstep.1 hstep.2
  · exact wspCleanup_cases hstep.1.1 hstep.1.2 hstep.2
  · obtain ⟨hstopping, rfl⟩ := hstep
    exact .close hstopping
  · obtain ⟨hstopped, rfl⟩ := hstep
    exact .free hstopped
  · obtain ⟨⟨hidle, husers⟩, rfl⟩ := hstep
    exact .asyncSelect hidle husers
  · exact overlapped_cases hstep.1.1 hstep.1.2 hstep.2
  · obtain ⟨hlower, rfl⟩ := hstep
    unfold complete
    rcases hport : s.ghIocp with - | packets
    · simpa only [hport] using StepTo.queue hlower hport
    · exact .post hlower hport
  · exact take_cases hstep.2
  · obtain ⟨⟨hmem, hlive⟩, rfl⟩ := hstep
    exact .run hmem hlive
  · obtain ⟨⟨hmem, hlive⟩, rfl⟩ := hstep
    exact .refuse hmem hlive
  · obtain ⟨⟨hmem, hlive⟩, rfl⟩ := hstep
    exact .accept hmem hlive
  · obtain ⟨⟨hmem, hlive, -⟩, rfl⟩ := hstep
    exact .account hmem hlive
  · obtain ⟨⟨hmem, hlive, -⟩, rfl⟩ := hstep
    exact .putback hmem hlive

end Steps

/-! ## Every run -/

/-- What `InitOverlappedManager` leaves as it is. -/
structure Unchanged (s t : State) : Prop where
  gEntryCount : t.gEntryCount = s.gEntryCount
  succeeded : t.succeeded = s.succeeded
  users : t.users = s.users
  teardown : t.teardown = s.teardown
  hLspHeap : t.hLspHeap = s.hLspHeap
  heaps : t.heaps = s.heaps
  workerThreadHandle : t.workerThreadHandle = s.workerThreadHandle
  asyncWindow : t.asyncWindow = s.asyncWindow
  pending : t.pending = s.pending
  atLower : t.atLower = s.atLower
  inUse : t.inUse = s.inUse
  ghIocp : t.ghIocp = s.ghIocp ∨ t.ghIocp = none ∨ t.ghIocp = some []

/-- The structure is in the queue, at the lower provider, in a packet or in use. -/
def State.Tracked (s : State) (olp : WSAOverlappedPlus) : Prop :=
  olp ∈ s.pending ∨ olp ∈ s.atLower ∨ olp ∈ s.inUse ∨
    ∃ packets, s.ghIocp = some packets ∧ .completion olp ∈ packets

/-- What holds in every state. -/
structure Inv (s : State) : Prop where
  window : s.workerThreadHandle = none → s.asyncWindow = none
  users_le : s.users ≤ s.gEntryCount
  users : s.succeeded = false → s.users = 0
  succeeded : s.gEntryCount = 0 → s.succeeded = false
  tearing : s.teardown ≠ .idle → s.gEntryCount = 0
  stopped : s.gEntryCount = 0 → s.teardown ≠ .stopping → s.gWorkerThread = 0 ∧ s.ghIocp = none
  heap : ∀ heap, s.hLspHeap = some heap → heap < s.heaps
  tracked : ∀ olp, s.Tracked olp → olp.heap < s.heaps

section Every
variable {s t u : State} {action : Action} {olp : WSAOverlappedPlus} {answer : ManagerAnswer}

theorem initOverlappedManager_unchanged (hinit : initOverlappedManager answer s = some t) :
    Unchanged s t := by
  unfold initOverlappedManager at hinit
  by_cases hworkers : s.gWorkerThread = 0
  · rw [if_neg (not_not_intro hworkers)] at hinit
    rcases halloc : allocateFreePool answer.heapAlloc s with - | r
    · simp only [halloc, Option.some.injEq] at hinit
      subst hinit
      constructor
      all_goals first | rfl | exact .inl rfl
    · obtain ⟨heap, -, -, hr⟩ := allocateFreePool_cases halloc
      simp only [halloc, createThreads, hr] at hinit
      split_ifs at hinit
      all_goals obtain rfl := Option.some.inj hinit
      all_goals constructor
      all_goals first | rfl | exact .inr (.inl rfl) | exact .inr (.inr rfl)
  · rw [if_pos hworkers] at hinit
    obtain rfl := Option.some.inj hinit
    constructor
    all_goals first | rfl | exact .inl rfl

theorem suffices_of_workers (hworkers : s.gWorkerThread = 0)
    (hinit : initOverlappedManager answer s = some t) (ht : t.gWorkerThread ≠ 0) :
    answer.Suffices := by
  unfold initOverlappedManager at hinit
  rw [if_neg (not_not_intro hworkers)] at hinit
  rcases halloc : allocateFreePool answer.heapAlloc s with - | r
  · simp only [halloc, Option.some.injEq] at hinit
    exact absurd (hinit ▸ hworkers) ht
  · obtain ⟨heap, -, hpool, hr⟩ := allocateFreePool_cases halloc
    simp only [halloc, hr] at hinit
    split_ifs at hinit with hport hcount hsemaphore
    all_goals obtain rfl := Option.some.inj hinit
    · have hmin : 0 < min answer.dwNumberOfProcessors answer.createThread := Nat.pos_of_ne_zero ht
      rw [Nat.lt_min] at hmin
      exact ⟨hpool, fun _ => hmin.1, by simp [hport], hmin.2⟩
    · have hmin : 0 < min 1 answer.createThread := Nat.pos_of_ne_zero ht
      rw [Nat.lt_min] at hmin
      exact ⟨hpool, fun h => absurd h hport, fun _ => hsemaphore, hmin.2⟩
    · exact absurd hworkers ht

/-- The overlapped manager is as `InitOverlappedManager` leaves it. -/
structure Managed (t : State) : Prop where
  workers : 0 < t.gWorkerThread ∧ t.gWorkerThread ≤ t.running
  freePool : ∀ olp ∈ t.freePool, t.Live olp
  port : ∀ packets, t.ghIocp = some packets → packets = []

theorem managed_of_suffices {heap : ℕ} (hanswer : answer.Suffices)
    (hheap : s.hLspHeap = some heap) (hworkers : s.gWorkerThread = 0)
    (hinit : initOverlappedManager answer s = some t) : Managed t := by
  have hpool : ∀ o ∈ (List.range defaultPoolCount).map fun i =>
      (⟨heap, s.addresses + i⟩ : WSAOverlappedPlus), some heap = some o.heap :=
    fun o ho => hheap.symm.trans (live_of_mem_pool hheap ho)
  unfold initOverlappedManager at hinit
  rw [if_neg (not_not_intro hworkers)] at hinit
  simp only [allocateFreePool, hheap, hanswer.heapAlloc, if_true] at hinit
  split_ifs at hinit with hport hcount hsemaphore
  all_goals obtain rfl := Option.some.inj hinit
  · refine ⟨⟨?_, ?_⟩, ?_, ?_⟩
    · exact Nat.lt_min.2 ⟨hanswer.port hport, hanswer.createThread⟩
    · exact Nat.le_add_left _ _
    · intro o ho
      exact hpool o ho
    · intro packets hpackets
      exact (Option.some.inj hpackets).symm
  · refine ⟨⟨?_, ?_⟩, ?_, ?_⟩
    · exact Nat.lt_min.2 ⟨Nat.one_pos, hanswer.createThread⟩
    · exact Nat.le_add_left _ _
    · intro o ho
      exact hpool o ho
    · intro packets hpackets
      exact absurd hpackets (by simp [createThreads])
  · exact absurd (hanswer.semaphore (Bool.eq_false_iff.2 hport)) hsemaphore

theorem tracked_step (hstep : StepTo s action t) (ht : t.Tracked olp) :
    s.Tracked olp ∨ s.Live olp := by
  cases hstep
  case startFails => exact .inl ht
  case startAgain => exact .inl ht
  case start call r _ _ _ _ hinit =>
    have hr := initOverlappedManager_unchanged hinit
    have htracked : r.Tracked olp := by
      by_cases hret : call.ret = 0
      · rwa [if_pos hret] at ht
      · rwa [if_neg hret] at ht
    left
    unfold State.Tracked at htracked ⊢
    rw [hr.pending, hr.atLower, hr.inUse] at htracked
    rcases htracked with hmem | hmem | hmem | ⟨packets, hport, hmem⟩
    · exact .inl hmem
    · exact .inr (.inl hmem)
    · exact .inr (.inr (.inl hmem))
    · rcases hr.ghIocp with hsame | hnone | hempty
      · exact .inr (.inr (.inr ⟨packets, hsame ▸ hport, hmem⟩))
      · rw [hnone] at hport
        exact absurd hport (by simp)
      · rw [hempty, Option.some.injEq] at hport
        rw [← hport] at hmem
        exact absurd hmem List.not_mem_nil
  case lastCleanup =>
    simp only [State.Tracked, State.inUse, Option.map_eq_some_iff] at ht ⊢
    grind
  all_goals
    simp only [State.Tracked, State.inUse, State.goOn, closeOverlappedManager,
      freeSocketsAndMemory, getWorkerWindow] at ht ⊢
    grind

theorem heap_step (hstep : StepTo s action t) :
    ((t.hLspHeap = s.hLspHeap ∨ t.hLspHeap = none) ∧ t.heaps = s.heaps) ∨
      ((t.hLspHeap = none ∨ t.hLspHeap = some s.heaps) ∧ t.heaps = s.heaps + 1) := by
  cases hstep
  case start call r _ _ _ _ hinit =>
    have hr := initOverlappedManager_unchanged hinit
    right
    split_ifs
    all_goals exact ⟨.inr hr.hLspHeap, hr.heaps⟩
  case startFails call _ _ _ =>
    right
    refine ⟨?_, rfl⟩
    by_cases hheap : call.heapCreate = true
    · exact .inr (if_pos hheap)
    · exact .inl (if_neg hheap)
  case free => exact .inl ⟨.inr rfl, rfl⟩
  case asyncSelect createThread _ _ =>
    left
    unfold getWorkerWindow
    split_ifs <;> exact ⟨.inl rfl, rfl⟩
  all_goals exact .inl ⟨.inl rfl, rfl⟩

theorem inv_step (hs : Inv s) (hstep : StepTo s action t) : Inv t := by
  have hheap : ∀ heap, t.hLspHeap = some heap → heap < t.heaps := by
    intro heap hheap
    rcases heap_step hstep with ⟨hsame | hnone, hcount⟩ | ⟨hnone | hnew, hcount⟩
    · rw [hcount]
      exact hs.heap heap (hsame ▸ hheap)
    · rw [hnone] at hheap
      exact absurd hheap (by simp)
    · rw [hnone] at hheap
      exact absurd hheap (by simp)
    · rw [hnew, Option.some.injEq] at hheap
      omega
  have hheaps : s.heaps ≤ t.heaps := by
    rcases heap_step hstep with ⟨-, hcount⟩ | ⟨-, hcount⟩ <;> omega
  have htracked : ∀ olp, t.Tracked olp → olp.heap < t.heaps := by
    intro olp holp
    refine Nat.lt_of_lt_of_le ?_ hheaps
    rcases tracked_step hstep holp with hbefore | hlive
    · exact hs.tracked olp hbefore
    · exact hs.heap _ hlive
  obtain ⟨hwindow, husersle, husers, hsucceeded, htearing, hstopped, -, -⟩ := hs
  have hportless : ∀ packets {P : Prop}, s.ghIocp = some packets →
      s.gEntryCount = 0 → s.teardown ≠ .stopping → P := by
    intro packets P hport hcount hteardown
    have hnone := (hstopped hcount hteardown).2
    rw [hport] at hnone
    exact absurd hnone (by simp)
  cases hstep
  case start call r _ _ _ _ hinit =>
    have hr := initOverlappedManager_unchanged hinit
    have hcount : r.gEntryCount = 1 := hr.gEntryCount
    have hnone : s.succeeded = false := hsucceeded ‹_›
    have hzero : r.users = 0 := hr.users.trans (husers hnone)
    have hidle : r.teardown = .idle := hr.teardown.trans ‹s.teardown = .idle›
    have hclosed : r.workerThreadHandle = none → r.asyncWindow = none := by
      rw [hr.workerThreadHandle, hr.asyncWindow]
      exact hwindow
    by_cases hret : call.ret = 0
    · rw [if_pos hret] at hheap htracked ⊢
      refine ⟨hclosed, ?_, ?_, ?_, ?_, ?_, hheap, htracked⟩
      all_goals simp [State.succeed, hcount, hzero, hidle]
    · rw [if_neg hret] at hheap htracked ⊢
      refine ⟨hclosed, ?_, ?_, ?_, ?_, ?_, hheap, htracked⟩
      all_goals simp [hcount, hzero, hidle]
  -- there are packets only while the port is there
  case post packets _ hport =>
    exact ⟨hwindow, husersle, husers, hsucceeded, htearing, hportless packets hport, hheap,
      htracked⟩
  case exit packets hport =>
    exact ⟨hwindow, husersle, husers, hsucceeded, htearing, hportless _ hport, hheap, htracked⟩
  case takePacket olp packets hport =>
    exact ⟨hwindow, husersle, husers, hsucceeded, htearing, hportless _ hport, hheap, htracked⟩
  case startFails _ hidle hcount _ =>
    have husersle' : s.users ≤ 1 := by omega
    exact ⟨hwindow, husersle', husers, fun h => absurd h Nat.one_ne_zero, fun h => absurd hidle h,
      fun h => absurd h Nat.one_ne_zero, hheap, htracked⟩
  case startAgain _ hidle _ =>
    exact ⟨hwindow, Nat.succ_le_succ husersle, nofun,
      fun h => absurd h (Nat.succ_ne_zero _), fun h => absurd hidle h,
      fun h => absurd h (Nat.succ_ne_zero _), hheap, htracked⟩
  case lastCleanup _ _ hcount =>
    have hnobody : s.users - 1 = 0 := by omega
    exact ⟨fun _ => rfl, Nat.le_of_eq hnobody, fun _ => hnobody, fun _ => rfl, fun _ => rfl,
      fun _ hne => absurd rfl hne, hheap, htracked⟩
  case cleanup hidle hpos hcount =>
    -- another startup has yet to be made good
    have hleft : s.gEntryCount - 1 ≠ 0 := by omega
    have hnobody (h : s.succeeded = false) : s.users - 1 = 0 := by rw [husers h]
    exact ⟨hwindow, Nat.sub_le_sub_right husersle 1, hnobody, fun h => absurd h hleft,
      fun h => absurd hidle h, fun h => absurd h hleft, hheap, htracked⟩
  case close hstopping =>
    have hzero : s.gEntryCount = 0 := htearing (by simp [hstopping])
    exact ⟨hwindow, husersle, husers, hsucceeded, fun _ => hzero, fun _ _ => ⟨rfl, rfl⟩, hheap,
      htracked⟩
  case free hfreed =>
    have hzero : s.gEntryCount = 0 := htearing (by simp [hfreed])
    have hgone := hstopped hzero (by simp [hfreed])
    exact ⟨hwindow, husersle, husers, hsucceeded, fun h => absurd rfl h, fun _ _ => hgone, hheap,
      htracked⟩
  case asyncSelect createThread _ _ =>
    by_cases hhandle : s.workerThreadHandle = none
    · cases createThread with
      | true =>
          simp only [getWorkerWindow, if_pos hhandle] at hheap htracked ⊢
          exact ⟨nofun, husersle, husers, hsucceeded, htearing, hstopped, hheap, htracked⟩
      | false =>
          simp only [getWorkerWindow, if_pos hhandle] at hheap htracked ⊢
          exact ⟨fun _ => rfl, husersle, husers, hsucceeded, htearing, hstopped, hheap, htracked⟩
    · simp only [getWorkerWindow, if_neg hhandle] at hheap htracked ⊢
      exact ⟨hwindow, husersle, husers, hsucceeded, htearing, hstopped, hheap, htracked⟩
  all_goals exact ⟨hwindow, husersle, husers, hsucceeded, htearing, hstopped, hheap, htracked⟩

end Every

/-! ## What is not made good again -/

/-- The structure was in a heap that is gone. -/
def State.Dead (s : State) (olp : WSAOverlappedPlus) : Prop :=
  olp.heap < s.heaps ∧ ¬s.Live olp

/-- What stays wrong until the next `WSPStartup` that succeeds: the thread of the window has been
created and the window is gone; the queue begins with a structure of an earlier heap, or a
thread has one in hand; or the overlapped manager has not been initialised. -/
inductive Spoiled (s : State) : Prop
  | window (hhandle : s.workerThreadHandle ≠ none) (hwindow : s.asyncWindow = none)
  | queue {olp : WSAOverlappedPlus} {rest : List WSAOverlappedPlus}
      (hpending : s.pending = olp :: rest) (hdead : s.Dead olp)
  | inUse {olp : WSAOverlappedPlus} (hmem : olp ∈ s.inUse) (hdead : s.Dead olp)
  | manager (hsucceeded : s.succeeded = false) (hcount : s.gEntryCount ≠ 0)
      (hworkers : s.gWorkerThread = 0)

/-- The step is a first `WSPStartup` that succeeds and does not start the LSP as it should. -/
def FailsToRestart (s : State) (action : Action) (t : State) : Prop :=
  (∃ call, action = .startup call) ∧ s.succeeded = false ∧ t.succeeded = true ∧ ¬Restarted t

section Spoiled
variable {s t : State} {action : Action} {olp : WSAOverlappedPlus}
  {rest : List WSAOverlappedPlus}

theorem not_restarted_of_spoiled (hsucceeded : t.succeeded = true) (ht : Spoiled t) :
    ¬Restarted t := by
  intro hrestarted
  rcases ht with ⟨hhandle, hwindow⟩ | ⟨hpending, -⟩ | ⟨hmem, hdead⟩ | ⟨hfalse, -, -⟩
  · obtain ⟨w, hw, -⟩ := hrestarted.window
    rw [getWorkerWindow, if_neg hhandle, hwindow] at hw
    exact absurd hw (by simp)
  · rw [hrestarted.pending] at hpending
    exact absurd hpending (by simp)
  · exact hdead.2 (hrestarted.inUse _ hmem)
  · rw [hsucceeded] at hfalse
    exact absurd hfalse (by simp)

theorem dead_step (hstep : StepTo s action t) (hdead : s.Dead olp) : t.Dead olp := by
  obtain ⟨hlt, hlive⟩ := hdead
  unfold State.Live at hlive
  unfold State.Dead State.Live
  rcases heap_step hstep with ⟨hsame | hnone, hcount⟩ | ⟨hnone | hnew, hcount⟩
  · rw [hsame, hcount]
    exact ⟨hlt, hlive⟩
  · simp [hnone, hcount, hlt]
  · simp only [hnone, reduceCtorEq, not_false_eq_true, and_true]
    omega
  · rw [hnew, Option.some.injEq]
    omega

theorem window_step (hstep : StepTo s action t) (hhandle : s.workerThreadHandle ≠ none)
    (hwindow : s.asyncWindow = none) : t.workerThreadHandle ≠ none ∧ t.asyncWindow = none := by
  cases hstep
  case start call r _ _ _ _ hinit =>
    have hr := initOverlappedManager_unchanged hinit
    have hboth : r.workerThreadHandle ≠ none ∧ r.asyncWindow = none := by
      rw [hr.workerThreadHandle, hr.asyncWindow]
      exact ⟨hhandle, hwindow⟩
    split_ifs
    all_goals exact hboth
  case asyncSelect =>
    rw [getWorkerWindow, if_neg hhandle]
    exact ⟨hhandle, hwindow⟩
  case lastCleanup => exact ⟨hhandle, rfl⟩
  all_goals exact ⟨hhandle, hwindow⟩

theorem queue_step (hstep : StepTo s action t) (hpending : s.pending = olp :: rest)
    (hdead : s.Dead olp) : ∃ rest', t.pending = olp :: rest' := by
  cases hstep
  case start call r _ _ _ _ hinit =>
    have hr := initOverlappedManager_unchanged hinit
    refine ⟨rest, ?_⟩
    split_ifs
    all_goals exact hr.pending.trans hpending
  case asyncSelect =>
    refine ⟨rest, ?_⟩
    unfold getWorkerWindow
    split_ifs <;> exact hpending
  case overlapped queued _ _ _ _ _ _ =>
    exact ⟨rest ++ queued, by rw [hpending, List.cons_append]⟩
  case dequeue olp' rest' hpending' hlive =>
    rw [hpending, List.cons.injEq] at hpending'
    exact absurd (hpending'.1 ▸ hlive) hdead.2
  all_goals exact ⟨rest, hpending⟩

theorem inUse_step (hstep : StepTo s action t) (hmem : olp ∈ s.inUse) (hdead : s.Dead olp) :
    olp ∈ t.inUse := by
  have hnot := hdead.2
  cases hstep
  case start call r _ _ _ _ hinit =>
    have hr := initOverlappedManager_unchanged hinit
    have hsame : olp ∈ r.inUse := by
      rw [hr.inUse]
      exact hmem
    split_ifs
    all_goals exact hsame
  case asyncSelect =>
    unfold getWorkerWindow
    split_ifs <;> exact hmem
  all_goals
    simp only [State.inUse, State.goOn, State.enter, State.succeed, closeOverlappedManager,
      freeSocketsAndMemory, List.mem_append, List.mem_map] at hmem ⊢
    grind

theorem not_restarted_of_no_workers (hworkers : t.gWorkerThread = 0) : ¬Restarted t := by
  intro hrestarted
  have hpos := hrestarted.workers.1
  omega

theorem spoiled_step (hs : Inv s) (hspoiled : Spoiled s) (hstep : StepTo s action t) :
    Spoiled t ∨ FailsToRestart s action t := by
  rcases hspoiled with ⟨hhandle, hwindow⟩ | ⟨hpending, hdead⟩ | ⟨hmem, hdead⟩ |
    ⟨hsucceeded, hcount, hworkers⟩
  · obtain ⟨hhandle', hwindow'⟩ := window_step hstep hhandle hwindow
    exact .inl (.window hhandle' hwindow')
  · obtain ⟨rest', hpending'⟩ := queue_step hstep hpending hdead
    exact .inl (.queue hpending' (dead_step hstep hdead))
  · exact .inl (.inUse (inUse_step hstep hmem hdead) (dead_step hstep hdead))
  · have hidle : s.teardown = .idle := by
      by_contra hnot
      exact hcount (hs.tearing hnot)
    have husers : ¬0 < s.users := by
      rw [hs.users hsucceeded]
      exact Nat.lt_irrefl 0
    cases hstep
    case startAgain call _ _ =>
      right
      exact ⟨⟨call, rfl⟩, hsucceeded, rfl, not_restarted_of_no_workers hworkers⟩
    case startFails hzero _ => exact absurd hzero hcount
    case start hzero _ _ _ => exact absurd hzero hcount
    case lastCleanup husers' _ => exact absurd husers' husers
    case cleanup husers' _ => exact absurd husers' husers
    case close hstopping => simp [hidle] at hstopping
    case free hstopped => simp [hidle] at hstopped
    case asyncSelect husers' => exact absurd husers' husers
    case overlapped husers' _ _ => exact absurd husers' husers
    all_goals exact .inl (.manager hsucceeded hcount hworkers)

theorem dead_free (hs : Inv s) (holp : s.Tracked olp) : (freeSocketsAndMemory s).Dead olp := by
  constructor
  · exact hs.tracked olp holp
  · simp [State.Live, freeSocketsAndMemory]

theorem spoiled_free (hs : Inv s) (hclean : ¬(s.pending = [] ∧ s.inUse = [] ∧ s.atLower = [])) :
    Spoiled (freeSocketsAndMemory s) := by
  rcases hpending : s.pending with - | ⟨olp, rest⟩
  · rcases huse : s.inUse with - | ⟨olp, rest⟩
    · rcases hlower : s.atLower with - | ⟨olp, rest⟩
      · exact absurd ⟨hpending, huse, hlower⟩ hclean
      · have hmem : olp ∈ s.atLower := by simp [hlower]
        refine .inUse ?_ (dead_free hs (.inr (.inl hmem)))
        simp [State.inUse, freeSocketsAndMemory, hlower]
    · have hmem : olp ∈ s.inUse := by simp [huse]
      refine .inUse ?_ (dead_free hs (.inr (.inr (.inl hmem))))
      simp only [State.inUse, freeSocketsAndMemory, ← List.append_assoc]
      exact List.mem_append_left _ hmem
  · have hmem : olp ∈ s.pending := by simp [hpending]
    exact .queue hpending (dead_free hs (.inl hmem))

theorem spoiled_of_not_clean (hs : Inv s) (hstep : StepTo s action t)
    (hclean : ¬action.Clean s) : Spoiled t ∨ FailsToRestart s action t := by
  cases hstep
  case startFails call hidle hcount hfails =>
    left
    refine .manager (hs.succeeded hcount) Nat.one_ne_zero ?_
    have hstopped := hs.stopped hcount (by simp [hidle])
    exact hstopped.1
  case start call r hidle hcount hheap hloads hinit =>
    have hstopped := hs.stopped hcount (by simp [hidle])
    have hworkers : r.gWorkerThread = 0 := by
      by_contra hworkers
      have hsuffices := suffices_of_workers (s := s.enter true) hstopped.1 hinit hworkers
      exact hclean fun _ => ⟨hheap, hloads, hsuffices⟩
    have hr := initOverlappedManager_unchanged hinit
    by_cases hret : call.ret = 0
    · rw [if_pos hret]
      right
      exact ⟨⟨call, rfl⟩, hs.succeeded hcount, rfl, not_restarted_of_no_workers hworkers⟩
    · rw [if_neg hret]
      left
      refine .manager (hr.succeeded.trans (hs.succeeded hcount)) ?_ hworkers
      rw [hr.gEntryCount]
      exact Nat.one_ne_zero
  case startAgain hcount =>
    exact absurd (fun hzero => absurd hzero hcount) hclean
  case lastCleanup hidle husers hcount =>
    left
    refine .window ?_ rfl
    intro hnone
    exact hclean fun _ => hs.window hnone
  case cleanup hcount =>
    exact absurd (fun hone => absurd hone hcount) hclean
  case free => exact .inl (spoiled_free hs hclean)
  all_goals exact absurd trivial hclean

end Spoiled

/-! ## Clean runs -/

/-- What holds after clean steps.  Before the first `WSPStartup` of a cycle has succeeded there is
no window, nothing is left of earlier cycles, and the manager runs if it has been initialised. -/
structure Kept (s : State) : Prop where
  window : s.asyncWindow = none → s.workerThreadHandle = none
  handle : s.succeeded = false → s.workerThreadHandle = none
  empty : s.succeeded = false → s.teardown = .idle →
    s.pending = [] ∧ s.inUse = [] ∧ s.atLower = []
  managed : s.succeeded = false → s.teardown = .idle → s.gEntryCount ≠ 0 → Managed s

section Clean
variable {s t : State} {action : Action}

theorem restarted_of_managed (hhandle : t.workerThreadHandle = none) (hpending : t.pending = [])
    (hinUse : t.inUse = []) (hmanaged : Managed t) : Restarted t := by
  refine ⟨?_, hmanaged.workers, hpending, hmanaged.freePool, ?_⟩
  · rw [getWorkerWindow, if_pos hhandle, if_pos rfl]
    exact ⟨t.nextWindow, rfl, List.mem_cons_self⟩
  · simp [hinUse]

theorem startup_of_not_succeeded (hs : Inv s) (hkept : Kept s) (hstep : StepTo s action t)
    (hsucceeded : s.succeeded = false) (hidle : s.teardown = .idle) :
    ∃ call, action = .startup call := by
  have husers : ¬0 < s.users := by
    rw [hs.users hsucceeded]
    exact Nat.lt_irrefl 0
  obtain ⟨hpending, hinUse, hlower⟩ := hkept.empty hsucceeded hidle
  obtain ⟨hwork, hapcs⟩ := List.append_eq_nil_iff.1 hinUse
  rw [List.map_eq_nil_iff] at hwork
  have hport : ∀ packets, s.ghIocp = some packets → packets = [] := by
    intro packets hpackets
    by_cases hcount : s.gEntryCount = 0
    · rw [(hs.stopped hcount (by simp [hidle])).2] at hpackets
      exact absurd hpackets (by simp)
    · exact (hkept.managed hsucceeded hidle hcount).port packets hpackets
  cases hstep
  case startFails call _ _ _ => exact ⟨call, rfl⟩
  case start call _ _ _ _ _ _ => exact ⟨call, rfl⟩
  case startAgain call _ _ => exact ⟨call, rfl⟩
  case lastCleanup husers' _ => exact absurd husers' husers
  case cleanup husers' _ => exact absurd husers' husers
  case close hstopping => simp [hidle] at hstopping
  case free hstopped => simp [hidle] at hstopped
  case asyncSelect husers' => exact absurd husers' husers
  case overlapped husers' _ _ => exact absurd husers' husers
  case post hmem _ => simp [hlower] at hmem
  case queue hmem _ => simp [hlower] at hmem
  case exit hpackets => exact absurd (hport _ hpackets) (by simp)
  case takePacket hpackets => exact absurd (hport _ hpackets) (by simp)
  case dequeue hcons _ => simp [hpending] at hcons
  case run hmem _ => simp [hapcs] at hmem
  all_goals
    rename_i hmem _
    simp [hwork] at hmem

theorem startup_step {call : StartupCall} (hs : Inv s) (hkept : Kept s)
    (hstep : StepTo s (.startup call) t) (hclean : s.gEntryCount = 0 → call.Initialises)
    (hsucceeded : s.succeeded = false) :
    t.workerThreadHandle = none ∧ t.pending = [] ∧ t.inUse = [] ∧ t.atLower = [] ∧ Managed t := by
  have hhandle := hkept.handle hsucceeded
  cases hstep
  case startFails hidle hcount hfails =>
    have hcall := hclean hcount
    exact absurd ⟨hcall.heapCreate, hcall.loadsProviders⟩ hfails
  case start r hidle hcount hheap hloads hinit =>
    obtain ⟨hpending, hinUse, hlower⟩ := hkept.empty hsucceeded hidle
    have hr := initOverlappedManager_unchanged hinit
    have hworkers := (hs.stopped hcount (by simp [hidle])).1
    have hmanaged := managed_of_suffices (s := s.enter true) (hclean hcount).manager rfl
      hworkers hinit
    have hall : r.workerThreadHandle = none ∧ r.pending = [] ∧ r.inUse = [] ∧ r.atLower = [] :=
      ⟨hr.workerThreadHandle.trans hhandle, hr.pending.trans hpending, hr.inUse.trans hinUse,
        hr.atLower.trans hlower⟩
    by_cases hret : call.ret = 0
    · rw [if_pos hret]
      exact ⟨hall.1, hall.2.1, hall.2.2.1, hall.2.2.2, ⟨hmanaged.workers, hmanaged.freePool,
        hmanaged.port⟩⟩
    · rw [if_neg hret]
      exact ⟨hall.1, hall.2.1, hall.2.2.1, hall.2.2.2, hmanaged⟩
  case startAgain hidle hcount =>
    obtain ⟨hpending, hinUse, hlower⟩ := hkept.empty hsucceeded hidle
    have hmanaged := hkept.managed hsucceeded hidle hcount
    exact ⟨hhandle, hpending, hinUse, hlower, ⟨hmanaged.workers, hmanaged.freePool, hmanaged.port⟩⟩

theorem kept_of_busy (hwindow : t.asyncWindow = none → t.workerThreadHandle = none)
    (hhandle : t.succeeded = false → t.workerThreadHandle = none)
    (hbusy : ¬(t.succeeded = false ∧ t.teardown = .idle)) : Kept t := by
  refine ⟨hwindow, hhandle, ?_, ?_⟩
  · intro hsucceeded hidle
    exact absurd ⟨hsucceeded, hidle⟩ hbusy
  · intro hsucceeded hidle
    exact absurd ⟨hsucceeded, hidle⟩ hbusy

theorem kept_step (hs : Inv s) (hkept : Kept s) (hstep : StepTo s action t)
    (hclean : action.Clean s) : Kept t := by
  by_cases hfirst : s.succeeded = false ∧ s.teardown = .idle
  · obtain ⟨call, rfl⟩ := startup_of_not_succeeded hs hkept hstep hfirst.1 hfirst.2
    obtain ⟨hhandle, hpending, hinUse, hlower, hmanaged⟩ :=
      startup_step hs hkept hstep hclean hfirst.1
    exact ⟨fun _ => hhandle, fun _ => hhandle, fun _ _ => ⟨hpending, hinUse, hlower⟩,
      fun _ _ _ => hmanaged⟩
  · cases hstep
    case startFails hidle hcount _ => exact absurd ⟨hs.succeeded hcount, hidle⟩ hfirst
    case start hidle hcount _ _ _ => exact absurd ⟨hs.succeeded hcount, hidle⟩ hfirst
    case startAgain hidle hcount =>
      exact kept_of_busy hkept.window (by simp [State.succeed]) (by simp [State.succeed])
    case lastCleanup hidle husers hcount =>
      have hhandle := hkept.window (hclean hcount)
      exact kept_of_busy (fun _ => hhandle) (fun _ => hhandle) (by simp)
    case close =>
      exact kept_of_busy hkept.window hkept.handle (by simp [closeOverlappedManager])
    case free hstopped =>
      obtain ⟨hpending, hinUse, hlower⟩ := hclean
      have hzero := hs.tearing (by simp [hstopped])
      refine ⟨hkept.window, hkept.handle, fun _ _ => ⟨hpending, ?_, rfl⟩, ?_⟩
      · obtain ⟨hwork, hapcs⟩ := List.append_eq_nil_iff.1 hinUse
        simp [State.inUse, freeSocketsAndMemory, hlower, hapcs, List.map_eq_nil_iff.1 hwork]
      · intro _ _ hcount
        exact absurd hzero hcount
    case asyncSelect createThread hidle husers =>
      have hsucceeded : s.succeeded = true := by
        by_contra hnot
        exact hfirst ⟨Bool.eq_false_iff.2 hnot, hidle⟩
      unfold getWorkerWindow
      split_ifs with hnone hcreated
      · exact kept_of_busy (by simp) (by simp [hsucceeded]) (by simp [hsucceeded])
      · exact kept_of_busy (fun _ => hnone) (fun _ => hnone) (by simp [hsucceeded])
      · exact hkept
    all_goals exact kept_of_busy hkept.window hkept.handle hfirst

end Clean

/-! ## Runs -/

theorem inv_start : Inv start := by
  refine ⟨?_, ?_, ?_, ?_, ?_, ?_, ?_, ?_⟩
  all_goals simp [start, State.Tracked, State.inUse]

theorem kept_start : Kept start := by
  refine ⟨?_, ?_, ?_, ?_⟩
  all_goals simp [start, State.inUse]

section Runs
variable {s t : State} {taken : List Action} {call : StartupCall}

theorem inv_of_runs (hrun : RunsTo step Always start taken s) : Inv s :=
  hrun.invariant Inv inv_start fun _ _ _ hs _ hstep => inv_step hs (step_cases hstep)

theorem kept_of_cleanRun (hclean : CleanRun taken) (hrun : RunsTo step Always start taken s) :
    Kept s := by
  induction hrun with
  | nil => exact kept_start
  | snoc hrun _ hstep ih =>
      obtain ⟨hbefore, hnow⟩ := hrun.admitted_concat_iff.1 hclean
      exact kept_step (inv_of_runs hrun) (ih hbefore) (step_cases hstep) hnow

theorem cleanRun_or_spoiled {actions : List Action}
    (hgood : ∀ taken call s t, taken ++ [.startup call] <+: actions → Restarts taken call s t →
      Restarted t) (htaken : taken <+: actions) (hrun : RunsTo step Always start taken s) :
    CleanRun taken ∨ Spoiled s := by
  induction hrun with
  | nil =>
      left
      intro before action r hnil
      exact absurd (List.prefix_nil.1 hnil) (by simp)
  | @snoc taken s t action hrun _ hstep ih =>
      have hnot : ¬FailsToRestart s action t := by
        rintro ⟨⟨call, rfl⟩, hfirst, hsucceeds, hbad⟩
        exact hbad (hgood taken call s t htaken ⟨hrun, hstep, hfirst, hsucceeds⟩)
      have hs := inv_of_runs hrun
      rcases ih ((List.prefix_append _ _).trans htaken) with hclean | hspoiled
      · by_cases haction : action.Clean s
        · exact .inl (hrun.admitted_concat_iff.2 ⟨hclean, haction⟩)
        · exact .inr ((spoiled_of_not_clean hs (step_cases hstep) haction).resolve_right hnot)
      · exact .inr ((spoiled_step hs hspoiled (step_cases hstep)).resolve_right hnot)

/-- In every sequence of steps, every first `WSPStartup` of a cycle that succeeds leaves the LSP
as the first one of the process does exactly if all steps up to it have been clean. -/
theorem restarted_iff (actions : List Action) :
    (∀ taken call s t, taken ++ [.startup call] <+: actions → Restarts taken call s t →
        Restarted t) ↔
      ∀ taken call s t, taken ++ [.startup call] <+: actions → Restarts taken call s t →
        CleanRun (taken ++ [.startup call]) := by
  constructor
  · intro hgood taken call s t htaken hrestarts
    have hrun : RunsTo step Always start (taken ++ [.startup call]) t :=
      .snoc hrestarts.run trivial hrestarts.step
    refine (cleanRun_or_spoiled hgood htaken hrun).resolve_right ?_
    intro hspoiled
    exact not_restarted_of_spoiled hrestarts.succeeds hspoiled
      (hgood taken call s t htaken hrestarts)
  · intro hclean taken call s t htaken hrestarts
    obtain ⟨hbefore, hnow⟩ := hrestarts.run.admitted_concat_iff.1
      (hclean taken call s t htaken hrestarts)
    have hkept := kept_of_cleanRun hbefore hrestarts.run
    obtain ⟨hhandle, hpending, hinUse, -, hmanaged⟩ :=
      startup_step (inv_of_runs hrestarts.run) hkept (step_cases hrestarts.step)
        hnow hrestarts.first
    exact restarted_of_managed hhandle hpending hinUse hmanaged

end Runs

/-- On a completion port with one thread. -/
def plain : StartupCall := ⟨true, true, ⟨true, true, 1, true, 1⟩, 0⟩

/-- `WSPAsyncSelect` has been used in the first of two cycles: in the second one there is no
window. -/
theorem not_restarted_asyncSelect :
    ¬∀ taken call s t, taken ++ [.startup call] <+: [.startup plain, .asyncSelect true,
        .cleanup false, .take, .close, .free, .startup plain] →
      Restarts taken call s t → Restarted t := by
  intro hgood
  have hrun : RunsTo step Always start [.startup plain, .asyncSelect true, .cleanup false, .take,
      .close, .free] _ := .of_isSome rfl
  have hrestarted := hgood _ plain _ _ (List.prefix_refl _) ⟨hrun, rfl, rfl, rfl⟩
  obtain ⟨w, hw, -⟩ := hrestarted.window
  have hnone : (none : Option ℕ) = some w := hw
  exact absurd hnone (by simp)

end MiscProjects.Lsp.Restart
