import Mathlib.Data.List.Perm.Subperm
import Mathlib.Data.List.Nodup
import MiscProjects.Library.LinkedQueue
import MiscProjects.Library.Runs

/-!
# The queue of the worker thread

Without completion ports, that is on Windows 9x, overlapped operations are put into a queue and
executed by one worker thread.  The threads of the application enter `gOverlappedCS`, link the
operation, release the semaphore and leave.  The worker waits for the semaphore in an alertable
state, so that the completion of an operation also ends the wait; then it takes an operation out
of the queue, whether it has taken a unit of the semaphore or not.

A critical section is entered, worked in and left in separate steps, and so is the semaphore
released.
-/

namespace MiscProjects.Lsp.WorkQueue

open MiscProjects.Runs MiscProjects.LinkedQueue
open Function (update update_self update_of_ne)

/-! ## State -/

def MAXLONG : ℕ := 2 ^ 31 - 1

/-- The address of a `WSAOVERLAPPEDPLUS`.  Windows 9x has 32 bits, and the structure begins with
words of 32 bits. -/
structure Address where
  value : Fin (2 ^ 32)
  aligned : 4 ∣ value.val
deriving DecidableEq

/-- A thread of the application: it may be about to enter `gOverlappedCS` in
`EnqueueOverlappedOperation(op)`, or be inside. -/
inductive Thread
  | elsewhere
  | calling (op : Address)
  | inside
deriving DecidableEq

/-- The worker: `byUnit` tells whether the wait has taken a unit of the semaphore. -/
inductive Worker
  | waiting
  | woken (byUnit : Bool)
  | inside (byUnit : Bool)
  | leaving (op : Option Address)
  | executing (op : Address)
deriving DecidableEq

/-- Who is in `gOverlappedCS`, and what is to be done there. -/
inductive Section
  | free
  | worker
  | linking (thread : ℕ) (op : Address)
  | releasing (thread : ℕ)
  | leaving (thread : ℕ)
deriving DecidableEq

/-- `PendingStart` and `PendingEnd`, and the `next` fields of the structures. -/
structure Pending where
  pendingStart : Option Address
  pendingEnd : Option Address
  next : Address → Option Address

/-- The queue, the count of `ghWakeupSemaphore`, and the operations queued and dequeued so far,
in the order of both. -/
structure State where
  pending : Pending
  count : ℕ
  gOverlappedCS : Section
  threads : ℕ → Thread
  worker : Worker
  enqueued : List Address
  dequeued : List Address

/-- `InitOverlappedManager`. -/
def init (next : Address → Option Address) : State where
  pending := ⟨none, none, next⟩
  count := 0
  gOverlappedCS := .free
  threads := fun _ => .elsewhere
  worker := .waiting
  enqueued := []
  dequeued := []

/-! ## Steps -/

inductive Action
  /-- A thread calls `EnqueueOverlappedOperation(op)`. -/
  | call (thread : ℕ) (op : Address)
  | enter (thread : ℕ)
  | link
  | releaseSemaphore
  | leave
  /-- The wait ends with a unit of the semaphore. -/
  | wake
  /-- The wait ends with an APC. -/
  | apc
  | workerEnter
  | dequeue
  | workerLeave
  /-- `ExecuteOverlappedOperation` returns. -/
  | execute
  /-- The functions of the pool use the same field of a structure that is not in the queue. -/
  | setNext (op : Address) (next : Option Address)
deriving DecidableEq

/-- `EnqueueOverlappedOperation` up to `ReleaseSemaphore`. -/
def enqueueOverlappedOperation (op : Address) (q : Pending) : Pending :=
  let next := update q.next op none
  match q.pendingEnd with
  | none => ⟨some op, some op, next⟩
  | some last => ⟨q.pendingStart, some op, update next last (some op)⟩

/-- `ReleaseSemaphore(ghWakeupSemaphore, 1, NULL)`, which fails if the count is at its limit. -/
def releaseSemaphore (count : ℕ) : ℕ := if count < MAXLONG then count + 1 else count

/-- `DequeueOverlappedOperation`, which returns what `PendingStart` has been. -/
def dequeueOverlappedOperation (q : Pending) : Option Address × Pending :=
  let pendingStart := match q.pendingStart with
    | none => none
    | some op => q.next op
  if q.pendingStart = q.pendingEnd then (q.pendingStart, ⟨none, none, q.next⟩)
  else (q.pendingStart, ⟨pendingStart, q.pendingEnd, q.next⟩)

def step (s : State) : Action → Option State
  | .call thread op =>
      if s.threads thread = .elsewhere then
        some { s with threads := update s.threads thread (.calling op) }
      else none
  | .enter thread =>
      match s.threads thread, s.gOverlappedCS with
      | .calling op, .free =>
          some { s with
            threads := update s.threads thread .inside
            gOverlappedCS := .linking thread op }
      | _, _ => none
  | .link =>
      match s.gOverlappedCS with
      | .linking thread op =>
          some { s with
            pending := enqueueOverlappedOperation op s.pending
            gOverlappedCS := .releasing thread
            enqueued := s.enqueued ++ [op] }
      | _ => none
  | .releaseSemaphore =>
      match s.gOverlappedCS with
      | .releasing thread =>
          some { s with count := releaseSemaphore s.count, gOverlappedCS := .leaving thread }
      | _ => none
  | .leave =>
      match s.gOverlappedCS with
      | .leaving thread =>
          some { s with
            gOverlappedCS := .free
            threads := update s.threads thread .elsewhere }
      | _ => none
  | .wake =>
      match s.worker, s.count with
      | .waiting, count + 1 => some { s with worker := .woken true, count }
      | _, _ => none
  | .apc =>
      match s.worker with
      | .waiting => some { s with worker := .woken false }
      | _ => none
  | .workerEnter =>
      match s.worker, s.gOverlappedCS with
      | .woken byUnit, .free => some { s with worker := .inside byUnit, gOverlappedCS := .worker }
      | _, _ => none
  | .dequeue =>
      match s.worker with
      | .inside _ =>
          let (op, pending) := dequeueOverlappedOperation s.pending
          some { s with
            pending
            worker := .leaving op
            dequeued := s.dequeued ++ op.toList }
      | _ => none
  | .workerLeave =>
      match s.worker with
      | .leaving none => some { s with worker := .waiting, gOverlappedCS := .free }
      | .leaving (some op) => some { s with worker := .executing op, gOverlappedCS := .free }
      | _ => none
  | .execute =>
      match s.worker with
      | .executing _ => some { s with worker := .waiting }
      | _ => none
  | .setNext op next =>
      some { s with pending := { s.pending with next := update s.pending.next op next } }

/-- The operations that are in the queue. -/
def State.queued (s : State) : List Address := s.enqueued.drop s.dequeued.length

/-- A structure is queued by the thread that has it from the pool: it is not in the queue, and
no other thread is queueing it. -/
def Legal (s : State) : Action → Prop
  | .call _ op =>
      op ∉ s.queued ∧ (∀ t, s.threads t ≠ .calling op) ∧ ∀ t, s.gOverlappedCS ≠ .linking t op
  | .setNext op _ => op ∉ s.queued
  | _ => True

/-! ## Statement -/

/-- An operation has been linked, and the semaphore has not been released for it yet. -/
def Section.unreleased : Section → ℕ
  | .releasing _ => 1
  | _ => 0

/-- The steps of the worker, but for APCs, and of the thread that is in the critical section. -/
def Action.Serves : Action → Prop
  | .link | .releaseSemaphore | .leave | .wake | .workerEnter | .dequeue | .workerLeave
  | .execute => True
  | _ => False

/-- What holds of the queue in a state. -/
structure Served (s : State) : Prop where
  /-- The operations are dequeued once, in their order. -/
  order : s.enqueued = s.dequeued ++ s.queued
  queue : IsQueue s.pending.next s.pending.pendingStart s.pending.pendingEnd s.queued
  units : s.worker = .waiting → s.queued.length ≤ s.count + s.gOverlappedCS.unreleased
  /-- Between two critical sections there is a unit for each operation. -/
  between : s.worker = .waiting → s.gOverlappedCS = .free → s.queued.length ≤ s.count
  /-- The first operation is dequeued without any other thread, and without an APC. -/
  goesOn : ∀ op rest, s.queued = op :: rest →
    ∃ acts t, RunsTo step (fun _ a => a.Serves) s acts t ∧ t.dequeued = s.dequeued ++ [op]

/-! ## The number of structures -/

variable {l : List Address} {q : Pending}

theorem length_le_of_nodup (hl : l.Nodup) : l.length ≤ 2 ^ 30 := by
  have hinj : Function.Injective fun a : Address => a.value.val / 4 := by
    rintro ⟨a, ha⟩ ⟨b, hb⟩ hab
    have hab : a.val / 4 = b.val / 4 := hab
    obtain rfl : a = b := Fin.ext (Nat.div_left_inj ha hb |>.mp hab)
    rfl
  have hsub : l.map (fun a => a.value.val / 4) ⊆ List.range (2 ^ 30) := by
    intro n hn
    obtain ⟨a, -, rfl⟩ := List.mem_map.mp hn
    have ha := a.value.isLt
    rw [List.mem_range]
    omega
  have hle := (List.subperm_of_subset (hl.map hinj) hsub).length_le
  rwa [List.length_map, List.length_range] at hle

/-! ## Who has which structure -/

/-- The structures that threads are queueing are not in the queue, and each is with one of
them. -/
structure Separate (threads : ℕ → Thread) (cs : Section) (l : List Address) : Prop where
  calling : ∀ t op, threads t = .calling op → op ∉ l
  linking : ∀ t op, cs = .linking t op → op ∉ l
  distinct : ∀ t t' op, threads t = .calling op → threads t' = .calling op → t = t'
  apart : ∀ t t' op, cs = .linking t op → threads t' ≠ .calling op

section Separate
variable {threads : ℕ → Thread} {cs cs' : Section} {l l' : List Address} {t t' : ℕ}
  {thread : Thread} {op op' : Address}

theorem calling_update (ht' : update threads t thread t' = .calling op)
    (hthread : ∀ op, thread ≠ .calling op) : t' ≠ t ∧ threads t' = .calling op := by
  by_cases heq : t' = t
  · subst heq
    rw [update_self] at ht'
    exact absurd ht' (hthread op)
  · rw [update_of_ne heq] at ht'
    exact ⟨heq, ht'⟩

theorem calling_update_calling (ht' : update threads t (.calling op) t' = .calling op') :
    t' = t ∧ op = op' ∨ threads t' = .calling op' := by
  by_cases heq : t' = t
  · subst heq
    rw [update_self] at ht'
    exact .inl ⟨rfl, Thread.calling.inj ht'⟩
  · rw [update_of_ne heq] at ht'
    exact .inr ht'

theorem Separate.call (h : Separate threads cs l) (hop : op ∉ l)
    (hcalling : ∀ t, threads t ≠ .calling op) (hlinking : ∀ t, cs ≠ .linking t op) :
    Separate (update threads t (.calling op)) cs l where
  calling := by
    intro t' op' ht'
    rcases calling_update_calling ht' with ⟨-, rfl⟩ | ht'
    · exact hop
    · exact h.calling t' op' ht'
  linking := h.linking
  distinct := by
    intro t₁ t₂ op' h₁ h₂
    rcases calling_update_calling h₁ with ⟨rfl, rfl⟩ | h₁'
    · rcases calling_update_calling h₂ with ⟨rfl, -⟩ | h₂'
      · rfl
      · exact absurd h₂' (hcalling t₂)
    · rcases calling_update_calling h₂ with ⟨-, rfl⟩ | h₂'
      · exact absurd h₁' (hcalling t₁)
      · exact h.distinct t₁ t₂ op' h₁' h₂'
  apart := by
    intro t₁ t₂ op' h₁ h₂
    rcases calling_update_calling h₂ with ⟨rfl, rfl⟩ | h₂
    · exact hlinking t₁ h₁
    · exact h.apart t₁ t₂ op' h₁ h₂

theorem Separate.enter (h : Separate threads cs l) (hthread : threads t = .calling op) :
    Separate (update threads t .inside) (.linking t op) l where
  calling := fun t' op' ht' => h.calling t' op' (calling_update ht' fun _ => nofun).2
  linking := by
    intro t' op' hcs
    obtain ⟨rfl, rfl⟩ := Section.linking.inj hcs
    exact h.calling t op hthread
  distinct := fun t₁ t₂ op' h₁ h₂ => h.distinct t₁ t₂ op' (calling_update h₁ fun _ => nofun).2
      (calling_update h₂ fun _ => nofun).2
  apart := by
    intro t₁ t₂ op' h₁ h₂
    obtain ⟨rfl, rfl⟩ := Section.linking.inj h₁
    obtain ⟨hne, h₂⟩ := calling_update h₂ fun _ => nofun
    exact hne (h.distinct t₂ t op h₂ hthread)

theorem Separate.link (h : Separate threads (.linking t op) l) :
    Separate threads (.releasing t) (l ++ [op]) where
  calling := by
    intro t' op' ht'
    rw [List.mem_append, List.mem_singleton]
    rintro (hmem | rfl)
    · exact h.calling t' op' ht' hmem
    · exact h.apart t t' op' rfl ht'
  linking := fun _ _ => nofun
  distinct := h.distinct
  apart := fun _ _ _ => nofun

theorem Separate.weaken (h : Separate threads cs l) (hcs : ∀ t op, cs' ≠ .linking t op)
    (hl : l' ⊆ l) : Separate threads cs' l' where
  calling := fun t op ht hmem => h.calling t op ht (hl hmem)
  linking := fun t op ht => absurd ht (hcs t op)
  distinct := h.distinct
  apart := fun t _ op ht => absurd ht (hcs t op)

theorem Separate.leave (h : Separate threads cs l) :
    Separate (update threads t .elsewhere) .free l where
  calling := fun t' op ht' => h.calling t' op (calling_update ht' fun _ => nofun).2
  linking := fun _ _ => nofun
  distinct := fun t₁ t₂ op h₁ h₂ => h.distinct t₁ t₂ op (calling_update h₁ fun _ => nofun).2
      (calling_update h₂ fun _ => nofun).2
  apart := fun _ _ _ => nofun

end Separate

/-! ## The invariant -/

/-- The wait has taken a unit, and the operation has not been dequeued yet. -/
def Worker.taken : Worker → ℕ
  | .woken true | .inside true => 1
  | _ => 0

/-- The worker is in `DequeueOverlappedOperation`. -/
def Worker.isInside : Worker → Bool
  | .inside _ | .leaving _ => true
  | _ => false

/-- The queue is `l`. -/
structure Kept (s : State) (l : List Address) : Prop where
  order : s.enqueued = s.dequeued ++ l
  queue : IsQueue s.pending.next s.pending.pendingStart s.pending.pendingEnd l
  separate : Separate s.threads s.gOverlappedCS l
  worker : s.gOverlappedCS = .worker ↔ s.worker.isInside = true
  units : l.length ≤ s.count + s.worker.taken + s.gOverlappedCS.unreleased

theorem kept_init (next : Address → Option Address) : Kept (init next) [] where
  order := rfl
  queue := isQueue_nil next
  separate := ⟨fun _ _ => nofun, fun _ _ => nofun, fun _ _ _ => nofun, fun _ _ _ => nofun⟩
  worker := by simp [init, Worker.isInside]
  units := Nat.zero_le _

theorem enqueueOverlappedOperation_isQueue {op : Address}
    (h : IsQueue q.next q.pendingStart q.pendingEnd l) (hop : op ∉ l) :
    IsQueue (enqueueOverlappedOperation op q).next (enqueueOverlappedOperation op q).pendingStart
      (enqueueOverlappedOperation op q).pendingEnd (l ++ [op]) := by
  have hcleared : IsQueue (update q.next op none) q.pendingStart q.pendingEnd l :=
    h.congr fun a ha => update_of_ne (ne_of_mem_of_not_mem ha hop) _ _
  have hnext : update q.next op none op = none := by simp
  rw [enqueueOverlappedOperation]
  split
  · next hend =>
    obtain rfl := h.tail_eq_none_iff.mp hend
    exact isQueue_singleton hnext
  · next last hend =>
    rw [hend] at hcleared
    exact hcleared.pushBack hop hnext

theorem dequeueOverlappedOperation_isQueue (h : IsQueue q.next q.pendingStart q.pendingEnd l) :
    (dequeueOverlappedOperation q).1 = l.head? ∧
      IsQueue (dequeueOverlappedOperation q).2.next (dequeueOverlappedOperation q).2.pendingStart
        (dequeueOverlappedOperation q).2.pendingEnd l.tail := by
  rw [dequeueOverlappedOperation]
  cases l with
  | nil =>
      rw [h.head_eq_none_iff.mpr rfl, h.tail_eq_none_iff.mpr rfl, if_pos rfl]
      exact ⟨rfl, isQueue_nil q.next⟩
  | cons op rest =>
      have hpop := h.pop
      rw [show q.pendingStart = some op from h.head_eq]
      split
      · next heq =>
        rw [if_pos heq.symm] at hpop
        obtain rfl : rest = [] := hpop.tail_eq_none_iff.mp rfl
        exact ⟨rfl, isQueue_nil q.next⟩
      · next hne =>
        rw [if_neg (Ne.symm hne)] at hpop
        exact ⟨rfl, hpop⟩

namespace Kept

variable {s t : State} {l : List Address} {thread : ℕ} {op : Address} {byUnit : Bool}
  {a : Action}

theorem queued_eq (h : Kept s l) : s.queued = l := by
  rw [State.queued, h.order, List.drop_left]

/-! ### The threads of the application -/

theorem call (h : Kept s l) (hop : op ∉ l) (hcalling : ∀ t, s.threads t ≠ .calling op)
    (hlinking : ∀ t, s.gOverlappedCS ≠ .linking t op) :
    Kept { s with threads := update s.threads thread (.calling op) } l where
  order := h.order
  queue := h.queue
  separate := h.separate.call hop hcalling hlinking
  worker := h.worker
  units := h.units

theorem enter (h : Kept s l) (hthread : s.threads thread = .calling op)
    (hfree : s.gOverlappedCS = .free) : Kept { s with
      threads := update s.threads thread .inside, gOverlappedCS := .linking thread op } l where
  order := h.order
  queue := h.queue
  separate := h.separate.enter hthread
  worker := by
    rw [← h.worker, hfree]
    exact ⟨nofun, nofun⟩
  units := by
    have hunits := h.units
    rwa [hfree] at hunits

theorem link (h : Kept s l) (hcs : s.gOverlappedCS = .linking thread op) :
    Kept { s with
      pending := enqueueOverlappedOperation op s.pending
      gOverlappedCS := .releasing thread
      enqueued := s.enqueued ++ [op] } (l ++ [op]) := by
  have hseparate := h.separate
  have hworker := h.worker
  have hunits := h.units
  rw [hcs] at hseparate hworker hunits
  exact
    { order := by rw [h.order, List.append_assoc]
      queue := enqueueOverlappedOperation_isQueue h.queue (hseparate.linking thread op rfl)
      separate := hseparate.link
      worker := by
        rw [← hworker]
        exact ⟨nofun, nofun⟩
      units := by
        rw [List.length_append]
        exact Nat.succ_le_succ hunits }

theorem releaseSemaphore (h : Kept s l) (hcs : s.gOverlappedCS = .releasing thread) : Kept { s with
      count := WorkQueue.releaseSemaphore s.count, gOverlappedCS := .leaving thread } l where
  order := h.order
  queue := h.queue
  separate := h.separate.weaken (fun _ _ => nofun) fun _ => id
  worker := by
    rw [← h.worker, hcs]
    exact ⟨nofun, nofun⟩
  units := by
    have hunits := h.units
    have hlength := length_le_of_nodup h.queue.nodup
    rw [hcs] at hunits
    by_cases hmax : s.count < MAXLONG
    · rw [show WorkQueue.releaseSemaphore s.count = s.count + 1 from if_pos hmax]
      exact le_of_le_of_eq hunits (Nat.add_right_comm _ _ _)
    · rw [show WorkQueue.releaseSemaphore s.count = s.count from if_neg hmax]
      have hlarge : 2 ^ 30 ≤ s.count := le_trans (by decide) (Nat.le_of_not_lt hmax)
      exact le_trans hlength (le_trans hlarge (Nat.le_add_right s.count _))

theorem leave (h : Kept s l) (hcs : s.gOverlappedCS = .leaving thread) : Kept { s with
      gOverlappedCS := .free, threads := update s.threads thread .elsewhere } l where
  order := h.order
  queue := h.queue
  separate := h.separate.leave
  worker := by
    rw [← h.worker, hcs]
    exact ⟨nofun, nofun⟩
  units := by
    have hunits := h.units
    rwa [hcs] at hunits

/-! ### The worker -/

theorem wake {count : ℕ} (h : Kept s l) (hworker : s.worker = .waiting)
    (hcount : s.count = count + 1) : Kept { s with worker := .woken true, count } l where
  order := h.order
  queue := h.queue
  separate := h.separate
  worker := by
    rw [h.worker, hworker]
    rfl
  units := by
    have hunits := h.units
    rwa [hworker, hcount] at hunits

theorem goOn (h : Kept s l) (worker : Worker) (hworker : s.worker.isInside = worker.isInside)
    (htaken : s.worker.taken = 0) : Kept { s with worker } l where
  order := h.order
  queue := h.queue
  separate := h.separate
  worker := by rw [h.worker, hworker]
  units := by
    have hunits := h.units
    rw [htaken] at hunits
    exact le_trans hunits (Nat.add_le_add_right (Nat.le_add_right s.count _) _)

theorem workerEnter (h : Kept s l) (hworker : s.worker = .woken byUnit)
    (hfree : s.gOverlappedCS = .free) :
    Kept { s with worker := .inside byUnit, gOverlappedCS := .worker } l where
  order := h.order
  queue := h.queue
  separate := h.separate.weaken (fun _ _ => nofun) fun _ => id
  worker := ⟨fun _ => rfl, fun _ => rfl⟩
  units := by
    have hunits := h.units
    rw [hworker, hfree] at hunits
    cases byUnit <;> exact hunits

theorem dequeue (h : Kept s l) (hworker : s.worker = .inside byUnit) :
    Kept { s with
      pending := (dequeueOverlappedOperation s.pending).2
      worker := .leaving (dequeueOverlappedOperation s.pending).1
      dequeued := s.dequeued ++ (dequeueOverlappedOperation s.pending).1.toList } l.tail := by
  have hcs : s.gOverlappedCS = .worker := h.worker.mpr (by rw [hworker]; rfl)
  have hunits := h.units
  obtain ⟨hop, hqueue⟩ := dequeueOverlappedOperation_isQueue h.queue
  rw [hop]
  exact
    { order := by
        rw [h.order, List.append_assoc]
        cases l <;> rfl
      queue := hqueue
      separate := h.separate.weaken (by rw [hcs]; exact fun _ _ => nofun)
        fun _ => List.mem_of_mem_tail
      worker := ⟨fun _ => rfl, fun _ => hcs⟩
      units := by
        rw [hworker, hcs] at hunits
        rw [hcs, List.length_tail]
        cases byUnit <;> simp only [Worker.taken, Section.unreleased] at hunits ⊢ <;> omega }

theorem workerLeave {returned : Option Address} (h : Kept s l) (worker : Worker)
    (hworker : s.worker = .leaving returned) (hoff : worker.isInside = false) :
    Kept { s with worker, gOverlappedCS := .free } l where
  order := h.order
  queue := h.queue
  separate := h.separate.weaken (fun _ _ => nofun) fun _ => id
  worker := by
    rw [hoff]
    exact ⟨nofun, nofun⟩
  units := by
    have hcs : s.gOverlappedCS = .worker := h.worker.mpr (by rw [hworker]; rfl)
    have hunits := h.units
    rw [hworker, hcs] at hunits
    exact le_trans hunits (Nat.add_le_add_right (Nat.le_add_right s.count _) _)

/-! ### Any step -/

theorem setNext {v : Option Address} (h : Kept s l) (hop : op ∉ l) :
    Kept { s with pending := { s.pending with next := update s.pending.next op v } } l where
  order := h.order
  queue := h.queue.congr fun _ hb => update_of_ne (ne_of_mem_of_not_mem hb hop) _ _
  separate := h.separate
  worker := h.worker
  units := h.units

theorem step (h : Kept s l) (hok : Legal s a) (hstep : WorkQueue.step s a = some t) :
    ∃ l', Kept t l' := by
  cases a
  all_goals rw [WorkQueue.step] at hstep
  case setNext op v =>
    exact ⟨l, Option.some.inj hstep ▸ h.setNext (by rwa [Legal, h.queued_eq] at hok)⟩
  case call thread op =>
    obtain ⟨hop, hcalling, hlinking⟩ := hok
    rw [h.queued_eq] at hop
    split at hstep <;> cases hstep
    exact ⟨l, h.call hop hcalling hlinking⟩
  case enter =>
    split at hstep <;> cases hstep
    next hthread hfree => exact ⟨l, h.enter hthread hfree⟩
  case link =>
    split at hstep <;> cases hstep
    next hcs => exact ⟨_, h.link hcs⟩
  case releaseSemaphore =>
    split at hstep <;> cases hstep
    next hcs => exact ⟨l, h.releaseSemaphore hcs⟩
  case leave =>
    split at hstep <;> cases hstep
    next hcs => exact ⟨l, h.leave hcs⟩
  case wake =>
    split at hstep <;> cases hstep
    next hworker hcount => exact ⟨l, h.wake hworker hcount⟩
  case apc | execute =>
    split at hstep <;> cases hstep
    next hworker => exact ⟨l, h.goOn _ (by rw [hworker]; rfl) (by rw [hworker]; rfl)⟩
  case workerEnter =>
    split at hstep <;> cases hstep
    next hworker hfree => exact ⟨l, h.workerEnter hworker hfree⟩
  case dequeue =>
    split at hstep <;> cases hstep
    next hworker => exact ⟨_, h.dequeue hworker⟩
  case workerLeave =>
    split at hstep <;> cases hstep
    next hworker => exact ⟨l, h.workerLeave _ hworker rfl⟩
    next hworker => exact ⟨l, h.workerLeave _ hworker rfl⟩

end Kept

/-! ## Progress -/

/-- How many steps are left in the critical section of a thread. -/
def Section.left : Section → ℕ
  | .linking _ _ => 3
  | .releasing _ => 2
  | .leaving _ => 1
  | _ => 0

/-- How many steps the worker is away from taking an operation out of the queue. -/
def Worker.left : Worker → ℕ
  | .inside _ => 0
  | .woken _ => 1
  | .waiting => 2
  | .executing _ => 3
  | .leaving _ => 4

section Progress
variable {s : State} {l rest : List Address} {op : Address}

/-- A step is possible that brings the first operation nearer to the worker. -/
def Nears (s : State) (op : Address) : Prop :=
  ∃ a t, a.Serves ∧ step s a = some t ∧
    (t.dequeued = s.dequeued ++ [op] ∨
      t.dequeued = s.dequeued ∧ (∃ rest, Kept t (op :: rest)) ∧
        t.gOverlappedCS.left + t.worker.left < s.gOverlappedCS.left + s.worker.left)

theorem nears_of_step {t : State} (a : Action) (ht : Kept t (op :: rest)) (hserves : a.Serves)
    (hstep : step s a = some t) (hdequeued : t.dequeued = s.dequeued)
    (hless : t.gOverlappedCS.left + t.worker.left < s.gOverlappedCS.left + s.worker.left) :
    Nears s op :=
  ⟨a, t, hserves, hstep, .inr ⟨hdequeued, ⟨rest, ht⟩, hless⟩⟩

theorem Kept.nears_of_free (h : Kept s (op :: rest)) (hfree : s.gOverlappedCS = .free) :
    Nears s op := by
  have hoff : s.worker.isInside ≠ true := fun hinside =>
    nomatch hfree.symm.trans (h.worker.mpr hinside)
  cases hworker : s.worker with
  | waiting =>
      have hunits := h.units
      rw [hworker, hfree] at hunits
      have hpos : 0 < s.count := lt_of_lt_of_le (Nat.succ_pos rest.length) hunits
      obtain ⟨count, hcount⟩ := Nat.exists_eq_succ_of_ne_zero (Nat.ne_of_gt hpos)
      refine nears_of_step .wake (h.wake hworker hcount) trivial ?_ rfl ?_
      · simp only [WorkQueue.step, hworker, hcount]
      · simp only [hworker, Worker.left]
        omega
  | woken byUnit =>
      refine nears_of_step .workerEnter (h.workerEnter hworker hfree) trivial ?_ rfl ?_
      · simp only [WorkQueue.step, hworker, hfree]
      · simp only [hworker, hfree, Worker.left, Section.left]
        omega
  | inside byUnit | leaving returned =>
      rw [hworker] at hoff
      exact absurd rfl hoff
  | executing op' =>
      refine nears_of_step .execute (h.goOn .waiting (by rw [hworker]; rfl) (by rw [hworker]; rfl))
        trivial ?_ rfl ?_
      · simp only [WorkQueue.step, hworker]
      · simp only [hworker, Worker.left]
        omega

theorem Kept.nears_of_worker (h : Kept s (op :: rest)) (hcs : s.gOverlappedCS = .worker) :
    Nears s op := by
  have hinside := h.worker.mp hcs
  cases hworker : s.worker with
  | waiting | woken byUnit | executing op' =>
      rw [hworker] at hinside
      cases hinside
  | inside byUnit =>
      refine ⟨.dequeue, { s with
        pending := (dequeueOverlappedOperation s.pending).2
        worker := .leaving (dequeueOverlappedOperation s.pending).1
        dequeued := s.dequeued ++ (dequeueOverlappedOperation s.pending).1.toList },
        trivial, by simp only [WorkQueue.step, hworker], .inl ?_⟩
      simp only [(dequeueOverlappedOperation_isQueue h.queue).1, List.head?_cons,
        Option.toList_some]
  | leaving returned =>
      cases returned with
      | none =>
          refine nears_of_step .workerLeave (h.workerLeave .waiting hworker rfl) trivial ?_ rfl ?_
          · simp only [WorkQueue.step, hworker]
          · simp only [hworker, hcs, Worker.left, Section.left]
            omega
      | some op' =>
          refine nears_of_step .workerLeave (h.workerLeave (.executing op') hworker rfl) trivial
            ?_ rfl ?_
          · simp only [WorkQueue.step, hworker]
          · simp only [hworker, hcs, Worker.left, Section.left]
            omega

theorem Kept.nears (h : Kept s (op :: rest)) : Nears s op := by
  cases hcs : s.gOverlappedCS with
  | free => exact h.nears_of_free hcs
  | worker => exact h.nears_of_worker hcs
  | linking thread op' =>
      -- Another operation comes to the end of the queue.
      refine nears_of_step .link (h.link hcs) trivial ?_ rfl ?_
      · simp only [WorkQueue.step, hcs]
      · simp only [hcs, Section.left]
        omega
  | releasing thread =>
      refine nears_of_step .releaseSemaphore (h.releaseSemaphore hcs) trivial ?_ rfl ?_
      · simp only [WorkQueue.step, hcs]
      · simp only [hcs, Section.left]
        omega
  | leaving thread =>
      refine nears_of_step .leave (h.leave hcs) trivial ?_ rfl ?_
      · simp only [WorkQueue.step, hcs]
      · simp only [hcs, Section.left]
        omega

theorem Kept.goesOn (h : Kept s (op :: rest)) :
    ∃ acts t, RunsTo WorkQueue.step (fun _ a => a.Serves) s acts t ∧
      t.dequeued = s.dequeued ++ [op] := by
  generalize hleft : s.gOverlappedCS.left + s.worker.left = left
  induction left using Nat.strong_induction_on generalizing s rest with
  | _ left ih =>
      obtain ⟨a, t, hserves, hstep, hdone | ⟨hdequeued, ⟨rest', ht⟩, hless⟩⟩ := h.nears
      · exact ⟨[a], t, .single hserves hstep, hdone⟩
      · obtain ⟨acts, u, hrun, hu⟩ := ih _ (hleft ▸ hless) ht rfl
        have hfirst : RunsTo WorkQueue.step (fun _ a => a.Serves) s [a] t := .single hserves hstep
        refine ⟨[a] ++ acts, u, hfirst.trans hrun, ?_⟩
        rw [hu, hdequeued]

end Progress

/-! ## Main result -/

theorem Kept.served {s : State} (h : Kept s l) : Served s where
  order := by rw [h.queued_eq, h.order]
  queue := by
    rw [h.queued_eq]
    exact h.queue
  units := by
    intro hwaiting
    have hunits := h.units
    rw [h.queued_eq]
    rwa [hwaiting] at hunits
  between := by
    intro hwaiting hfree
    have hunits := h.units
    rw [h.queued_eq]
    rwa [hwaiting, hfree] at hunits
  goesOn := by
    intro op rest hqueued
    obtain rfl := h.queued_eq.symm.trans hqueued
    exact h.goesOn

/-- However the threads and the worker are interleaved, operations are dequeued once and in
their order, and none is left behind. -/
theorem workQueue_served {next : Address → Option Address} {acts : List Action} {s : State}
    (hrun : RunsTo step Legal (init next) acts s) : Served s := by
  have hkept : ∃ l, Kept s l :=
    hrun.invariant (fun s => ∃ l, Kept s l) ⟨[], kept_init next⟩
      fun _ _ _ ⟨_, h⟩ hok hstep => h.step hok hstep
  obtain ⟨l, h⟩ := hkept
  exact h.served

/-- One operation is queued while the worker waits. -/
theorem workQueue_served_one :
    ∃ s, s.worker = .waiting ∧ s.enqueued = [⟨4, by decide⟩] ∧ s.dequeued = [] ∧ Served s := by
  let called : State :=
    { init (fun _ => none) with
      threads := update (fun _ => .elsewhere) 0 (.calling ⟨4, by decide⟩) }
  have hcall : RunsTo step Legal (init fun _ => none) [.call 0 ⟨4, by decide⟩] called :=
    .single ⟨List.not_mem_nil, fun _ => nofun, fun _ => nofun⟩ rfl
  have hrest : RunsTo step (fun _ a => a ∈ [.enter 0, .link, .releaseSemaphore]) called
      [.enter 0, .link, .releaseSemaphore] _ := .of_exec rfl
  have hlegal := hrest.mono fun t a ha => show Legal t a by
    simp only [List.mem_cons, List.not_mem_nil, or_false] at ha
    rcases ha with rfl | rfl | rfl <;> trivial
  exact ⟨_, rfl, rfl, rfl, workQueue_served (hcall.trans hlegal)⟩

end MiscProjects.Lsp.WorkQueue
