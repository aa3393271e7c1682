import MiscProjects.IocpServer.Steps

/-!
# The release of a connection

A `SOCKET_OBJ` is put back once for every time that it is got, and not while a
request or a pending send needs it.  The closing test reads the counters and
`bClosing` without the lock, so that a thread that has posted the next receive
of a connection may still decide to free its object.
-/

namespace MiscProjects.IocpServer

open Runs SinglyLinked

/-- The buffer is in the pending-send queue. -/
def State.Pending (s : State) (b : BufferPtr) : Prop :=
  ∃ l, Chain s.next s.gPendingSendList l ∧ b ∈ l

/-- The buffer is in a posted receive, a posted send or the pending-send queue of the
object. -/
def State.Uses (s : State) (b : BufferPtr) (o : SocketPtr) : Prop :=
  (∃ h, s.key h = some o ∧
    ((∃ len, .wsaRecv h len ∈ s.requests b) ∨ .wsaSend h ∈ s.requests b)) ∨
  (s.Pending b ∧ (s.buffer b).sock = some o)

/-- An object is put back once for every connection that has got it, and each socket
is closed once at most, in both cases not while the object is used; and of two
sockets with one object at most one is open. -/
structure SingleRelease (s : State) : Prop where
  frees_le : ∀ o, s.frees o ≤ s.gets o
  gets_le : ∀ o, s.gets o ≤ s.frees o + 1
  closes_le : ∀ h, s.closes h ≤ 1
  uses : ∀ b o, s.Uses b o →
    s.gets o = s.frees o + 1 ∧ ∃ h, (s.socket o).s = some h ∧ s.closes h = 0
  unshared : ∀ h h' o, s.key h = some o → s.key h' = some o → h ≠ h' →
    s.closes h = 1 ∨ s.closes h' = 1

section Owned
variable {s : State} {g : Ghost} {b : BufferPtr} {o : SocketPtr} {h : ℕ}

theorem Owned.of_work (hown : Owned s g) {u : List (List UInt8)} {c : Counts}
    (hwork : (g.place b).work = some (o, h, u, c)) :
    s.gets o = s.frees o + 1 ∧ (s.socket o).s = some h ∧ s.closes h = 0 ∧ s.key h = some o := by
  have hq := hown.memory.agreed.phase_of_work hwork
  have hdescribes := hown.memory.sockets.describes o
  have hkeyed := hown.memory.sockets.keyed o
  rw [hq] at hdescribes hkeyed
  exact ⟨hown.memory.freeSockets.inUse o (by rw [hq]; trivial), hdescribes.1,
    (hown.memory.logged (o := o) (by rw [hq]; rfl)).2, hkeyed⟩

theorem Owned.work_of_request (hown : Owned s g) (hkey : s.key h = some o)
    (hrequest : (∃ len, .wsaRecv h len ∈ s.requests b) ∨ .wsaSend h ∈ s.requests b) :
    ∃ k u c, (g.place b).work = some (o, k, u, c) := by
  rw [hown.memory.buffers.requests] at hrequest
  have hwork : ∃ o' u c, (g.place b).work = some (o', h, u, c) := by
    cases hb : g.place b with
    | receiving o' h' len =>
        simp only [hb, Place.requests, List.mem_singleton, Request.wsaRecv.injEq, reduceCtorEq,
          or_false] at hrequest
        obtain ⟨_, rfl, -⟩ := hrequest
        exact ⟨o', _, _, rfl⟩
    | sending o' h' =>
        simp only [hb, Place.requests, List.mem_singleton, Request.wsaSend.injEq, reduceCtorEq,
          exists_false, false_or] at hrequest
        obtain rfl := hrequest
        exact ⟨o', _, _, rfl⟩
    | listed l w =>
        cases w <;> simp [hb, Place.requests] at hrequest
    | _ => simp [hb, Place.requests] at hrequest
  obtain ⟨o', u, c, hwork⟩ := hwork
  obtain ⟨-, -, -, hkey'⟩ := hown.of_work hwork
  obtain rfl := Option.some.inj (hkey.symm.trans hkey')
  exact ⟨h, u, c, hwork⟩

theorem Owned.work_of_pending (hown : Owned s g) (hpending : s.Pending b)
    (hsock : (s.buffer b).sock = some o) : ∃ k u c, (g.place b).work = some (o, k, u, c) := by
  obtain ⟨l, hchain, hmem⟩ := hpending
  obtain ⟨content, hlists, -⟩ := hown.memory.lists
  obtain rfl := hchain.unique (hlists.chain .pending)
  have hlist : (g.place b).list = some .pending := (hlists.mem _ _).mp hmem
  have hdescribes := hown.memory.buffers.describes b
  cases hb : g.place b with
  | pending o' h data =>
      rw [hb] at hdescribes
      obtain rfl := Option.some.inj (hsock.symm.trans hdescribes.1)
      exact ⟨h, _, _, rfl⟩
  | _ => simp [hb, Place.list] at hlist

theorem Owned.singleRelease (hown : Owned s g) : SingleRelease s where
  frees_le := by
    intro o
    by_cases huse : (g.phase o).InUse
    · rw [hown.memory.freeSockets.inUse o huse]
      exact Nat.le_succ _
    · exact Nat.le_of_eq (hown.memory.freeSockets.notInUse o huse).symm
  gets_le := by
    intro o
    by_cases huse : (g.phase o).InUse
    · exact Nat.le_of_eq (hown.memory.freeSockets.inUse o huse)
    · rw [hown.memory.freeSockets.notInUse o huse]
      exact Nat.le_succ _
  closes_le := by
    intro h
    rw [hown.memory.handles.closes]
    cases g.owner h with
    | gone => exact le_rfl
    | _ => exact Nat.zero_le 1
  uses := by
    intro b o huses
    have hwork : ∃ k u c, (g.place b).work = some (o, k, u, c) := by
      rcases huses with ⟨h, hkey, hrequest⟩ | ⟨hpending, hsock⟩
      · exact hown.work_of_request hkey hrequest
      · exact hown.work_of_pending hpending hsock
    obtain ⟨k, u, c, hwork⟩ := hwork
    obtain ⟨hgets, hs, hcloses, -⟩ := hown.of_work hwork
    exact ⟨hgets, k, hs, hcloses⟩
  unshared := by
    intro h h' o hkey hkey' hne
    have hcloses := hown.memory.handles.closes
    rcases hown.memory.handles.keys h o hkey with hgone | ⟨u, howner⟩
    · exact .inl (by rw [hcloses, hgone]; rfl)
    · rcases hown.memory.handles.keys h' o hkey' with hgone | ⟨u', howner'⟩
      · exact .inr (by rw [hcloses, hgone]; rfl)
      · have hlink := (hown.memory.agreed.link o h u).mpr (by
          rw [Function.comp_apply, howner]
          rfl)
        have hlink' := (hown.memory.agreed.link o h' u').mpr (by
          rw [Function.comp_apply, howner']
          rfl)
        rw [hlink, Option.some.injEq, Prod.mk.injEq] at hlink'
        exact absurd hlink'.1 hne

end Owned

/-- In every run without failed accepts, in which no closing test finds `bClosing` set
by another thread, a `SOCKET_OBJ` is released once for each connection. -/
theorem released_once {cfg : Config} {as : List Action} {s : State}
    (hrun : RunsTo (step cfg) (fun s a => acceptFails s a = false ∧ findsClosing s a = false)
      (State.start cfg) as s) : SingleRelease s := by
  obtain ⟨g, hown⟩ := owned_of_run hrun
  exact hown.singleRelease

/-! ## One connection -/

/-- Two completion threads and one address, for which one accept is posted. -/
def oneConnection : Config where
  gBufferSize := 4096
  gInitialAccepts := 1
  gMaxAccepts := 1
  gMaxSends := 200
  threads := 2
  listeners := 1

/-- A client sends a byte, which is echoed to it, and thread `0` has posted the next
receive. -/
def echoed : List Action :=
  List.replicate 7 (.main true) ++ [.complete 0 0 0 (some [5])] ++
    List.replicate 12 (.thread 0 true) ++ [.complete 0 0 0 (some [5])] ++
    List.replicate 4 (.thread 0 true)

/-- The handler of the send comes to its end before the client closes the connection. -/
def closedAfterwards : List Action :=
  echoed ++ List.replicate 4 (.thread 0 true) ++ [.complete 1 0 0 (some [])] ++
    List.replicate 12 (.thread 1 true)

theorem released_once_closedAfterwards :
    ∃ s, RunsTo (step oneConnection)
        (fun s a => acceptFails s a = false ∧ findsClosing s a = false)
        (State.start oneConnection) closedAfterwards s ∧
      SingleRelease s ∧ s.gets 0 = 1 ∧ s.frees 0 = 1 ∧ s.closes 1 = 1 :=
  have hrun := RunsTo.of_isSome (by decide)
  ⟨_, hrun, released_once hrun, by decide, by decide, by decide⟩

/-- The client closes the connection while the handler of the send has its closing test
before it. -/
def closedMeanwhile : List Action :=
  echoed ++ [.complete 1 0 0 (some [])] ++ List.replicate 2 (.thread 1 true) ++
    List.replicate 8 (.thread 0 true) ++ List.replicate 10 (.thread 1 true)

/-- Both threads free the object, and the list of free ones goes round. -/
theorem two_threads_free :
    ∃ s, RunsTo (step oneConnection) Always (State.start oneConnection) closedMeanwhile s ∧
      s.gets 0 = 1 ∧ s.frees 0 = 2 ∧ ¬ SingleRelease s := by
  refine ⟨_, RunsTo.of_isSome (by decide), by decide, by decide, fun h => ?_⟩
  exact absurd (h.frees_le 0) (by decide)

end MiscProjects.IocpServer
