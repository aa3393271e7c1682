import MiscProjects.IocpServer.Steps

/-!
# The echo of each connection

With one call of `HandleIo` at a time, what is handed to `WSASend` for a socket is
what has been received on it, in this order and once.  It is not so when an accept
completes with an error: its buffer is freed while it is still in
`PendingAccepts`, and the free list leads to buffers that are in use.
-/

namespace MiscProjects.IocpServer

open Function (update update_self update_of_ne)
open Runs

section OneInside
variable {cfg : Config} {s s' : State} {g : Ghost} {t : ThreadId} {o : SocketPtr} {a : Action}

/-- At most one thread is inside `HandleIo`, and it is one of the threads there are. -/
def OneInside (cfg : Config) (s : State) : Prop :=
  ∃ t, ∀ t', (s.thread t').isIdle = false → t' = t ∧ t' < cfg.threads

theorem Pc.not_idle_of_cleans {pc : Pc} (h : pc.cleans = some o) : pc.isIdle = false := by
  cases pc with
  | idle => exact nomatch h
  | _ => rfl

theorem Owned.closer_of_bClosing (hown : Owned s g) (hset : (s.socket o).bClosing = true) :
    ∃ t, (g.phase o).closer = some t := by
  have hdescribes := hown.memory.sockets.describes o
  cases hq : g.phase o with
  | shut t => exact ⟨t, rfl⟩
  | live w h u c =>
      rw [hq] at hdescribes
      obtain ⟨-, rfl⟩ := hdescribes
      cases w with
      | thread t => exact ⟨t, by simp [Phase.closer, SocketObj.counts, hset]⟩
      | buffer b =>
          have hwork := (hown.memory.agreed.work b o (h, u, (s.socket o).counts)).mpr (by
            rw [Function.comp_apply, hq]
            rfl)
          rw [Function.comp_apply] at hwork
          cases hb : g.place b <;>
            simp [hb, Place.work, SocketObj.counts, hset] at hwork
  | _ =>
      rw [hq] at hdescribes
      simp [Phase.Describes, SocketObj.counts, Counts.zero, hset] at hdescribes

theorem Owned.not_findsClosing (hown : Owned s g) (hone : OneInside cfg s) :
    findsClosing s a = false := by
  cases a with
  | thread t ok =>
      unfold findsClosing
      dsimp only
      split
      case h_2 => rfl
      case h_1 o bCleanup hpc =>
        cases hset : (s.socket o).bClosing with
        | false => rfl
        | true =>
            obtain ⟨t₁, hcloser⟩ := hown.closer_of_bClosing hset
            have hcleans := hown.threads.cleans o t₁ hcloser
            obtain ⟨t₂, honly⟩ := hone
            have ht₁ := (honly t₁ (Pc.not_idle_of_cleans hcleans)).1
            have ht := (honly t (by rw [hpc]; rfl)).1
            rw [ht₁, ← ht, hpc] at hcleans
            cases bCleanup with
            | true => rfl
            | false => exact nomatch hcleans
  | _ => rfl

theorem OneInside.step (hown : Owned s g) (hone : OneInside cfg s)
    (haccept : acceptFails s a = false) (hserial : OneAtATime cfg s a)
    (hstep : step cfg s a = some s') : OneInside cfg s' := by
  cases a with
  | complete t b i result =>
      obtain ⟨ht, g', -, pc, hthread⟩ := hown.step_complete haccept hstep
      obtain ⟨t₀, honly⟩ := hone
      refine ⟨t, fun t' hinside => ?_⟩
      rcases eq_or_ne t' t with rfl | hne
      · exact ⟨rfl, ht⟩
      · rw [hthread, update_of_ne hne] at hinside
        have hidle := hserial t' (honly t' hinside).2
        simp [hinside] at hidle
  | thread t ok =>
      obtain ⟨g', -, pc, hthread⟩ := hown.advance (hown.not_findsClosing hone) hstep
      have hinside : (s.thread t).isIdle = false := by
        cases hpc : s.thread t with
        | idle => simp [IocpServer.step, advance, hpc] at hstep
        | _ => rfl
      obtain ⟨t₀, honly⟩ := hone
      obtain ⟨rfl, ht⟩ := honly t hinside
      refine ⟨t, fun t' hinside' => ?_⟩
      rcases eq_or_ne t' t with rfl | hne
      · exact ⟨rfl, ht⟩
      · rw [hthread, update_of_ne hne] at hinside'
        exact honly t' hinside'
  | _ =>
      obtain ⟨g', -, hthread⟩ := hown.step_main (by simp) (by simp) hstep
      rw [OneInside, hthread]
      exact hone

theorem regular_of_oneAtATime {as : List Action}
    (hrun : RunsTo (step cfg) (fun s a => OneAtATime cfg s a ∧ acceptFails s a = false)
      (State.start cfg) as s) :
    RunsTo (step cfg) (fun s a => acceptFails s a = false ∧ findsClosing s a = false)
      (State.start cfg) as s := by
  refine hrun.mono_of_invariant (fun s => (∃ g, Owned s g) ∧ OneInside cfg s)
    ⟨⟨.start, .start cfg⟩, 0, fun t hinside => ?_⟩ ?_
  · exact nomatch hinside
  · rintro s a s' ⟨⟨g, hown⟩, hone⟩ ⟨hserial, haccept⟩ hstep
    have hclosing := hown.not_findsClosing (a := a) hone
    exact ⟨⟨hown.step haccept hclosing hstep, hone.step hown haccept hserial hstep⟩, haccept,
      hclosing⟩

end OneInside

theorem Owned.handed_isPrefixOf {s : State} {g : Ghost} (hown : Owned s g) (h : ℕ) :
    s.handed h <+: s.received h := by
  have hlogged := hown.memory.handles.logged h
  cases howner : g.owner h with
  | fresh =>
      rw [howner] at hlogged
      rw [hlogged.2]
      exact List.nil_prefix
  | gone =>
      rw [howner] at hlogged
      exact hlogged
  | buffer b u | socket o u =>
      rw [howner] at hlogged
      rw [show s.received h = _ from hlogged]
      exact List.prefix_append _ _

/-- In every run without failed accepts, with one call of `HandleIo` at a time, the
buffers handed to `WSASend` for a socket are those received on it, from the first on
and in order, and so are their bytes. -/
theorem handed_prefix_of_received {cfg : Config} {as : List Action} {s : State}
    (hrun : RunsTo (step cfg) (fun s a => OneAtATime cfg s a ∧ acceptFails s a = false)
      (State.start cfg) as s) (h : ℕ) :
    s.handed h <+: s.received h ∧ (s.handed h).flatten <+: (s.received h).flatten := by
  obtain ⟨g, hown⟩ := owned_of_run (regular_of_oneAtATime hrun)
  obtain ⟨rest, hrest⟩ := hown.handed_isPrefixOf h
  refine ⟨⟨rest, hrest⟩, ?_⟩
  rw [← hrest, List.flatten_append]
  exact List.prefix_append _ _

/-! ## An accept that fails -/

/-- One completion thread and one address, for which four accepts are posted. -/
def fourAccepts : Config where
  gBufferSize := 4096
  gInitialAccepts := 4
  gMaxAccepts := 5
  gMaxSends := 200
  threads := 1
  listeners := 1

/-- Two clients send a byte each. -/
def twoClients : List Action :=
  List.replicate 25 (.main true) ++ [.complete 0 1 0 (some [5])] ++
    List.replicate 12 (.thread 0 true) ++ [.complete 0 0 0 (some [7])] ++
    List.replicate 12 (.thread 0 true)

theorem handed_prefix_of_received_twoClients :
    ∃ s, RunsTo (step fourAccepts)
        (fun s a => OneAtATime fourAccepts s a ∧ acceptFails s a = false)
        (State.start fourAccepts) twoClients s ∧
      s.handed 1 = [[7]] ∧ (s.handed 1 <+: s.received 1 ∧
        (s.handed 1).flatten <+: (s.received 1).flatten) :=
  have hrun := RunsTo.of_isSome (by decide)
  ⟨_, hrun, by decide, handed_prefix_of_received hrun 1⟩

/-- The third accept fails and the second one completes, which links the free list to
the buffer of the first one; a burst of connections has it posted once more. -/
def failedAccept : List Action :=
  List.replicate 25 (.main true) ++ [.complete 0 2 0 none] ++ List.replicate 2 (.thread 0 true) ++
    [.complete 0 1 0 (some [5])] ++ List.replicate 12 (.thread 0 true) ++ [.burst 0] ++
    List.replicate 13 (.main true) ++ [.complete 0 0 0 (some [7])] ++
    List.replicate 10 (.thread 0 true)

/-- What the first client has sent is handed to `WSASend` for another one. -/
theorem byte_handed_to_another_client :
    ∃ s, RunsTo (step fourAccepts) (OneAtATime fourAccepts) (State.start fourAccepts)
        failedAccept s ∧
      s.received 1 = [[7]] ∧ s.handed 1 = [] ∧ s.received 6 = [] ∧ s.handed 6 = [[7]] ∧
      ¬ (s.handed 6 <+: s.received 6) := by
  refine ⟨_, RunsTo.of_isSome (by decide), by decide, by decide, by decide, by decide, ?_⟩
  decide

end MiscProjects.IocpServer
