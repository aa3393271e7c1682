import MiscProjects.IocpServer.PendingAccepts

/-!
# Reposting accepts

A completion thread reports an accept in two steps, the counter before the event; the main
thread takes the counter before it resets the event.  A report that comes in between is lost
unless another follows.  As long as nothing is counted at a reset, or somebody is still about
to set the event, what is counted is announced.
-/

namespace MiscProjects.IocpServer

open Function (update update_self update_of_ne)
open Runs

variable {cfg : Config} {s s' : State} {t : ThreadId} {b : BufferPtr} {o : SocketPtr}
  {l : ListenPtr} {ok : Bool} {pc pc' : Pc}

/-! ## What is announced -/

/-- The thread is between its two steps. -/
def Pc.signals (l : ListenPtr) : Pc → Bool
  | .signalRepost listenobj => listenobj = l
  | _ => false

/-- Nothing is counted, or the event is signalled, or a thread is about to signal it. -/
def State.Announced (s : State) (l : ListenPtr) : Prop :=
  (s.listener l).repostCount ≤ 0 ∨ (s.listener l).repostAccept = true ∨
    ∃ t, (s.thread t).signals l = true

/-- The main thread is going to reset the event of an address for which accepts have been
counted since it has taken the counter, with no thread about to set the event again. -/
def losesReposts (cfg : Config) (s : State) : Action → Bool
  | .main _ =>
      match s.main with
      | .reset l _ => decide (0 < (s.listener l).repostCount) &&
          (List.range cfg.threads).all fun t => !(s.thread t).signals l
      | _ => false
  | _ => false

/-! ## Steps that do not report -/

/-- The counters, the events and the threads are the same. -/
structure SameReposts (s s' : State) : Prop where
  repostCount : ∀ l, (s'.listener l).repostCount = (s.listener l).repostCount
  repostAccept : ∀ l, (s'.listener l).repostAccept = (s.listener l).repostAccept
  thread : s'.thread = s.thread

theorem SameReposts.of_listener (hlistener : s'.listener = s.listener)
    (hthread : s'.thread = s.thread) : SameReposts s s' :=
  ⟨fun _ => by rw [hlistener], fun _ => by rw [hlistener], hthread⟩

theorem SameReposts.refl : SameReposts s s := .of_listener rfl rfl

theorem SameReposts.trans {s'' : State} (h : SameReposts s s') (h' : SameReposts s' s'') :
    SameReposts s s'' :=
  ⟨fun l => (h'.repostCount l).trans (h.repostCount l),
    fun l => (h'.repostAccept l).trans (h.repostAccept l), h'.thread.trans h.thread⟩

theorem sameReposts_setListener {lo : ListenObj}
    (hcount : lo.repostCount = (s.listener l).repostCount)
    (haccept : lo.repostAccept = (s.listener l).repostAccept) :
    SameReposts s (s.setListener l lo) := by
  refine ⟨fun l' => ?_, fun l' => ?_, rfl⟩
  all_goals
    simp only [State.setListener]
    rcases eq_or_ne l' l with rfl | hne
  · rw [update_self, hcount]
  · rw [update_of_ne hne]
  · rw [update_self, haccept]
  · rw [update_of_ne hne]

theorem sameReposts_closesocket {h : Option ℕ} : SameReposts s (closesocket s h) := by
  cases h with
  | none => exact .refl
  | some h => exact .of_listener rfl rfl

theorem sameReposts_removePendingAccept (h : removePendingAccept s l b = some s') :
    SameReposts s s' := by
  simp only [removePendingAccept] at h
  split at h
  case h_1 => cases h
  case h_2 => exact Option.some.inj h ▸ .of_listener rfl rfl
  case h_3 => exact Option.some.inj h ▸ sameReposts_setListener rfl rfl

theorem sameReposts_insertPendingAccept : SameReposts s (insertPendingAccept s l b) := by
  have hbuffer : ∀ (x : State) obj, SameReposts x (x.setBuffer b obj) :=
    fun _ _ => .of_listener rfl rfl
  simp only [insertPendingAccept]
  split
  · exact (hbuffer s _).trans (sameReposts_setListener rfl rfl)
  · exact (hbuffer s _).trans ((hbuffer _ _).trans (sameReposts_setListener rfl rfl))

theorem sameReposts_enqueue (h : enqueuePendingOperation s b = some s') : SameReposts s s' := by
  simp only [enqueuePendingOperation] at h
  split at h
  case h_1 => cases h
  case h_2 =>
    split at h
    · exact Option.some.inj h ▸ .of_listener rfl rfl
    · exact Option.some.inj h ▸ .of_listener rfl rfl

theorem sameReposts_dequeue {head : Option BufferPtr}
    (h : dequeuePendingOperation s = some (head, s')) : SameReposts s s' := by
  simp only [dequeuePendingOperation] at h
  split at h
  case h_1 =>
    simp only [Option.some.injEq, Prod.mk.injEq] at h
    exact h.2 ▸ .refl
  case h_2 =>
    split at h
    case h_1 => cases h
    case h_2 =>
      simp only [Option.some.injEq, Prod.mk.injEq] at h
      exact h.2 ▸ .of_listener rfl rfl

variable {obj : Option BufferPtr} {l' : ListenPtr} {result : Result}

theorem sameReposts_getBufferObj {buflen : ℕ}
    (h : getBufferObj s buflen ok = (obj, s')) : SameReposts s s' := by
  simp only [getBufferObj] at h
  split at h
  case h_1 =>
    split at h
    all_goals
      simp only [Prod.mk.injEq] at h
      exact h.2 ▸ .of_listener rfl rfl
  case h_2 =>
    simp only [Prod.mk.injEq] at h
    exact h.2 ▸ .of_listener rfl rfl

theorem sameReposts_getSocketObj {sock : Option ℕ} {obj : Option SocketPtr}
    (h : getSocketObj s sock ok = (obj, s')) : SameReposts s s' := by
  simp only [getSocketObj] at h
  split at h
  case h_1 =>
    split at h
    all_goals
      simp only [Prod.mk.injEq] at h
      exact h.2 ▸ .of_listener rfl rfl
  case h_2 =>
    simp only [Prod.mk.injEq] at h
    exact h.2 ▸ .of_listener rfl rfl

theorem sameReposts_postRecv : SameReposts s (IocpServer.postRecv s o b ok) := by
  simp only [IocpServer.postRecv]
  split
  · exact .of_listener rfl rfl
  · split
    · exact .of_listener rfl rfl
    · exact .of_listener rfl rfl

theorem sameReposts_postSend {posted : Bool} (h : IocpServer.postSend s o b ok = (posted, s')) :
    SameReposts s s' := by
  simp only [IocpServer.postSend] at h
  split at h
  · simp only [Prod.mk.injEq] at h
    exact h.2 ▸ .of_listener rfl rfl
  · split at h
    all_goals
      simp only [Prod.mk.injEq] at h
      exact h.2 ▸ .of_listener rfl rfl

theorem sameReposts_closeStale {stale : BufferPtr → Bool} {fuel : ℕ}
    (h : closeStale stale fuel obj s = some s') : SameReposts s s' := by
  induction fuel generalizing obj s with
  | zero => cases h
  | succ fuel ih =>
      cases obj with
      | none => exact Option.some.inj h ▸ .refl
      | some b =>
          simp only [closeStale] at h
          refine SameReposts.trans ?_ (ih h)
          split
          case isTrue =>
            exact sameReposts_closesocket.trans (.of_listener rfl rfl)
          case isFalse => exact .refl

theorem sameReposts_arrive {request : Request} {key : ListenPtr ⊕ SocketPtr} {n : Option ℕ}
    (h : arrive s b request result = some (s', key, n)) : SameReposts s s' := by
  obtain rfl | ⟨k, data, rfl⟩ := arrive_cases h
  · exact .refl
  · exact .of_listener rfl rfl

/-! ## What is announced stays announced -/

theorem State.Announced.same (h : s.Announced l) (hsame : SameReposts s s') : s'.Announced l := by
  rw [Announced, hsame.repostCount, hsame.repostAccept, hsame.thread]
  exact h

theorem State.Announced.onward (h : s.Announced l) (hpc : s.thread t = pc)
    (hquiet : pc.signals l = false) (hsame : SameReposts s s') : (s'.goto t pc').Announced l := by
  obtain hzero | haccept | ⟨t', hsignals⟩ := h.same hsame
  · exact .inl hzero
  · exact .inr (.inl haccept)
  · refine .inr (.inr ⟨t', ?_⟩)
    have hne : t' ≠ t := by
      rintro rfl
      rw [hsame.thread, hpc, hquiet] at hsignals
      cases hsignals
    rw [State.goto]
    dsimp only
    rwa [update_of_ne hne]

theorem State.Announced.repost (h : s.Announced l) (hpc : s.thread t = .repost l') {n : ℤ} :
    ((s.setListener l' { s.listener l' with repostCount := n }).goto t
      (.signalRepost l')).Announced l := by
  rcases eq_or_ne l l' with rfl | hne
  · refine .inr (.inr ⟨t, ?_⟩)
    simp only [State.goto, update_self, Pc.signals, decide_true]
  · obtain hzero | haccept | ⟨t', hsignals⟩ := h
    · exact .inl (by simpa only [State.goto, State.setListener, update_of_ne hne] using hzero)
    · exact .inr (.inl (by
        simpa only [State.goto, State.setListener, update_of_ne hne] using haccept))
    · have hother : t' ≠ t := by
        rintro rfl
        rw [hpc] at hsignals
        cases hsignals
      refine .inr (.inr ⟨t', ?_⟩)
      simpa only [State.goto, State.setListener, update_of_ne hother] using hsignals

theorem State.Announced.signalRepost (h : s.Announced l) (hpc : s.thread t = .signalRepost l') :
    ((s.setListener l' { s.listener l' with repostAccept := true }).goto t pc').Announced l := by
  rcases eq_or_ne l l' with rfl | hne
  · exact .inr (.inl (by simp only [State.goto, State.setListener, update_self]))
  · obtain hzero | haccept | ⟨t', hsignals⟩ := h
    · exact .inl (by simpa only [State.goto, State.setListener, update_of_ne hne] using hzero)
    · exact .inr (.inl (by
        simpa only [State.goto, State.setListener, update_of_ne hne] using haccept))
    · have hother : t' ≠ t := by
        rintro rfl
        rw [hpc] at hsignals
        exact hne (of_decide_eq_true hsignals).symm
      refine .inr (.inr ⟨t', ?_⟩)
      simpa only [State.goto, State.setListener, update_of_ne hother] using hsignals

theorem State.Announced.advance (h : s.Announced l)
    (hstep : IocpServer.advance s cfg t ok = some s') : s'.Announced l := by
  cases hpc : s.thread t
  case idle => simp [IocpServer.advance, hpc] at hstep
  all_goals simp only [IocpServer.advance, hpc, Option.some.injEq] at hstep
  all_goals try subst hstep
  case repost l' => exact h.repost hpc
  case signalRepost l' => exact h.signalRepost hpc
  case acceptDone l' b n => exact h.onward hpc rfl (sameReposts_setListener rfl rfl)
  case removeAccept l' b n =>
    obtain ⟨x, hx, rfl⟩ := Option.map_eq_some_iff.mp hstep
    exact h.onward hpc rfl (sameReposts_removePendingAccept hx)
  case acceptFailed b | closeClient l' b =>
    exact h.onward hpc rfl (sameReposts_closesocket.trans (.of_listener rfl rfl))
  case closeSocket o | freeSocketObj o buf =>
    exact h.onward hpc rfl (sameReposts_closesocket.trans (.of_listener rfl rfl))
  case newSocketObj l' b n =>
    split at hstep
    all_goals
      rename_i hget
      exact Option.some.inj hstep ▸ h.onward hpc rfl (sameReposts_getSocketObj hget)
  case associate l' b n o =>
    split at hstep
    case h_1 => exact Option.some.inj hstep ▸ h.onward hpc rfl .refl
    case h_2 =>
      split at hstep
      · exact Option.some.inj hstep ▸ h.onward hpc rfl (.of_listener rfl rfl)
      · exact Option.some.inj hstep ▸ h.onward hpc rfl .refl
  case postRecv o b =>
    have hbuffer : SameReposts s (s.setBuffer b { s.buffer b with sock := some o }) :=
      .of_listener rfl rfl
    exact h.onward hpc rfl (hbuffer.trans sameReposts_postRecv)
  case enqueue o b n l' =>
    obtain ⟨x, hx, rfl⟩ := Option.map_eq_some_iff.mp hstep
    have hbuffer : SameReposts s
        (s.setBuffer b { s.buffer b with buflen := n, sock := some o }) :=
      .of_listener rfl rfl
    exact h.onward hpc rfl (hbuffer.trans (sameReposts_enqueue hx))
  case dequeue tail =>
    split at hstep
    case h_1 => cases hstep
    case h_2 hqueue =>
      exact Option.some.inj hstep ▸ h.onward hpc rfl (sameReposts_dequeue hqueue)
    case h_3 hqueue =>
      exact Option.some.inj hstep ▸ h.onward hpc rfl (sameReposts_dequeue hqueue)
  case postSend b tail =>
    split at hstep
    case h_1 => cases hstep
    case h_2 =>
      split at hstep
      all_goals
        rename_i hpost
        exact Option.some.inj hstep ▸ h.onward hpc rfl (sameReposts_postSend hpost)
  case readFailedTest o b | writeFailedTest o b | testLast o | testClosing o b | process tail |
      testSend o bCleanup | testRecv o bCleanup | testCloses o bCleanup =>
    exact h.onward hpc rfl .refl
  case readFailed o b | writeFailed o b | readDone o b n | setClosing o b | writeDone o b |
      writeDoneGlobal o b | pushSocketObj o buf | freeBufferObj b after =>
    exact h.onward hpc rfl (.of_listener rfl rfl)

theorem State.Announced.complete {i : ℕ} (h : s.Announced l)
    (hstep : IocpServer.complete s t b i result = some s') : s'.Announced l := by
  simp only [IocpServer.complete] at hstep
  split at hstep
  case h_2 => cases hstep
  case h_1 request hpc hrequest =>
    split at hstep
    case h_1 => cases hstep
    case h_2 harrive =>
      obtain ⟨pc, -, rfl⟩ := Option.map_eq_some_iff.mp hstep
      have hrequests : SameReposts s
          { s with requests := update s.requests b ((s.requests b).eraseIdx i) } :=
        .of_listener rfl rfl
      exact h.onward hpc rfl (hrequests.trans (sameReposts_arrive harrive))

theorem State.Announced.exchange (h : s.Announced l) (l' : ListenPtr) (m : MainPc) :
    State.Announced { s.setListener l' { s.listener l' with repostCount := 0 } with main := m }
      l := by
  rcases eq_or_ne l l' with rfl | hne
  · exact .inl (by simp only [State.setListener, update_self, le_refl])
  · rw [Announced] at h ⊢
    simpa only [State.setListener, update_of_ne hne] using h

theorem State.Announced.reset (h : s.Announced l) {limit : ℤ} (m : MainPc)
    (hmain : s.main = .reset l' limit) (hloses : losesReposts cfg s (.main ok) = false) :
    State.Announced
      { s.setListener l' { s.listener l' with repostAccept := false } with main := m } l := by
  rcases eq_or_ne l l' with rfl | hne
  · simp only [losesReposts, hmain, Bool.and_eq_false_iff, decide_eq_false_iff_not,
      List.all_eq_false, List.mem_range, Bool.not_eq_true', Bool.not_eq_false] at hloses
    obtain hzero | ⟨t, -, hsignals⟩ := hloses
    · exact .inl (by simpa only [State.setListener, update_self] using Int.not_lt.mp hzero)
    · exact .inr (.inr ⟨t, hsignals⟩)
  · rw [Announced] at h ⊢
    simpa only [State.setListener, update_of_ne hne] using h

theorem State.Announced.advanceMain (h : s.Announced l)
    (hloses : losesReposts cfg s (.main ok) = false)
    (hstep : IocpServer.advanceMain s cfg ok = some s') : s'.Announced l := by
  cases hmain : s.main
  case waiting | exited => simp [IocpServer.advanceMain, hmain] at hstep
  all_goals simp only [IocpServer.advanceMain, hmain, Option.some.injEq] at hstep
  all_goals try subst hstep
  case exchange l' => exact h.exchange l' _
  case reset l' limit => exact h.reset _ hmain hloses
  case test r => exact h.same (.of_listener rfl rfl)
  case count r =>
    have hcount : SameReposts s (s.setListener r.listenobj { s.listener r.listenobj with
        pendingAcceptCount := (s.listener r.listenobj).pendingAcceptCount + 1 }) :=
      sameReposts_setListener rfl rfl
    exact h.same (hcount.trans (.of_listener rfl rfl))
  case getBufferObj r =>
    split at hstep
    all_goals
      rename_i hget
      exact Option.some.inj hstep ▸
        h.same ((sameReposts_getBufferObj hget).trans (.of_listener rfl rfl))
  case insert r b => exact h.same (sameReposts_insertPendingAccept.trans (.of_listener rfl rfl))
  case createSocket r b =>
    split at hstep
    all_goals exact Option.some.inj hstep ▸ h.same (.of_listener rfl rfl)
  case acceptEx r b =>
    split at hstep
    all_goals exact Option.some.inj hstep ▸ h.same (.of_listener rfl rfl)

theorem State.Announced.step {a : Action} (h : s.Announced l)
    (hloses : losesReposts cfg s a = false) (hstep : IocpServer.step cfg s a = some s') :
    s'.Announced l := by
  cases a with
  | complete t b i result =>
      simp only [IocpServer.step] at hstep
      split at hstep
      case isTrue => exact h.complete hstep
      case isFalse => cases hstep
  | thread t ok => exact h.advance hstep
  | main ok => exact h.advanceMain hloses hstep
  | burst l' | wake l' =>
      simp only [IocpServer.step] at hstep
      split at hstep
      case h_2 => cases hstep
      case h_1 =>
        split at hstep
        case isFalse => cases hstep
        case isTrue => exact Option.some.inj hstep ▸ h.same (.of_listener rfl rfl)
  | interval l' stale =>
      simp only [IocpServer.step] at hstep
      split at hstep
      case h_2 => cases hstep
      case h_1 =>
        split at hstep
        case isFalse => cases hstep
        case isTrue => exact h.same (sameReposts_closeStale hstep)

/-! ## Runs -/

/-- Nobody is between the two steps of a report, and the main thread waits: what has been
counted is announced, and the main thread will take all of it. -/
structure State.AnswersReposts (cfg : Config) (s : State) (l : ListenPtr) : Prop where
  signalled : 0 < (s.listener l).repostCount → (s.listener l).repostAccept = true
  taken : 0 < (s.listener l).repostCount → l < cfg.listeners →
    ∃ s' s'', IocpServer.step cfg s (.wake l) = some s' ∧
      IocpServer.step cfg s' (.main true) = some s'' ∧
      s''.main = .reset l (s.listener l).repostCount

theorem State.Announced.answers (h : s.Announced l) (hmain : s.main = .waiting)
    (hbetween : ∀ t, (s.thread t).signals l = false) : s.AnswersReposts cfg l := by
  have hsignalled : 0 < (s.listener l).repostCount → (s.listener l).repostAccept = true := by
    intro hpos
    obtain hzero | haccept | ⟨t, hsignals⟩ := h
    · exact absurd hzero (Int.not_le.mpr hpos)
    · exact haccept
    · rw [hbetween t] at hsignals
      cases hsignals
  refine ⟨hsignalled, fun hpos hl => ?_⟩
  have hwake : IocpServer.step cfg s (.wake l) = some { s with main := .exchange l } := by
    simp only [IocpServer.step, hmain]
    rw [if_pos ⟨hl, hsignalled hpos⟩]
  exact ⟨_, _, hwake, rfl, rfl⟩

/-- In every run in which the main thread resets no event while accepts are counted and nobody
is about to set it: whenever it waits and nobody is between the two steps of a report, what is
counted is announced. -/
theorem reposts_answered {as : List Action}
    (hrun : RunsTo (IocpServer.step cfg) (fun s a => losesReposts cfg s a = false)
      (State.start cfg) as s)
    (hmain : s.main = .waiting) (l : ListenPtr)
    (hbetween : ∀ t, (s.thread t).signals l = false) : s.AnswersReposts cfg l := by
  have hannounced : s.Announced l :=
    hrun.invariant (State.Announced · l) (.inl (le_refl 0)) fun _ _ _ h hloses hstep =>
      h.step hloses hstep
  exact hannounced.answers hmain hbetween

/-- An accept completes and is reported. -/
def oneReport : List Action :=
  List.replicate 13 (.main true) ++ [.complete 0 0 0 (some [5])] ++
    List.replicate 12 (.thread 0 true)

theorem reposts_answered_oneReport :
    ∃ s, RunsTo (step twoAccepts) (fun s a => losesReposts twoAccepts s a = false)
        (State.start twoAccepts) oneReport s ∧ 0 < (s.listener 0).repostCount ∧
      s.AnswersReposts twoAccepts 0 := by
  have hrun : RunsTo (step twoAccepts) (fun s a => losesReposts twoAccepts s a = false)
      (State.start twoAccepts) oneReport _ := RunsTo.of_isSome (by decide)
  refine ⟨_, hrun, by decide, reposts_answered hrun rfl 0 ?_⟩
  rintro (_ | t)
  · rfl
  · rfl

/-- The second accept is reported between the exchange of the counter and the reset of the
event. -/
def reportBeforeReset : List Action :=
  oneReport ++ [.wake 0, .main true, .complete 0 1 0 (some [6])] ++
    List.replicate 11 (.thread 0 true) ++ List.replicate 8 (.main true)

theorem report_lost :
    ∃ s, RunsTo (step twoAccepts) Always (State.start twoAccepts) reportBeforeReset s ∧
      s.main = .waiting ∧ (∀ t, (s.thread t).signals 0 = false) ∧
      ¬ s.AnswersReposts twoAccepts 0 := by
  refine ⟨_, RunsTo.of_isSome (by decide), rfl, ?_, ?_⟩
  · rintro (_ | t)
    · rfl
    · rfl
  · intro h
    exact absurd (h.signalled (by decide)) (by decide)

end MiscProjects.IocpServer
