import MiscProjects.IocpClient.Client
import MiscProjects.Library.Tally

/-!
# How many sends are posted

`SendCount` is tested when a send has completed and lowered when the next one has been posted.
With a limit of the rate the send waits on `Repost` in between, and the connect handler posts
outside the critical section.  A test that does not see the sends decided on before it may
decide on one too many.
-/

namespace MiscProjects.IocpClient

open Function (update update_of_ne update_self)
open Runs Tally

/-- A send that the thread has decided on and not subtracted from `SendCount`. -/
def Pc.pending : Pc → ℤ
  | .postSend _ | .sendPosted _ | .sendCounted _ | .queue => 1
  | _ => 0

/-- Such a send that it has posted. -/
def Pc.underway : Pc → ℤ
  | .sendPosted _ | .sendCounted _ => 1
  | _ => 0

def SendPc.pending : SendPc → ℤ
  | .postSend | .sendPosted | .sendCounted => 1
  | _ => 0

def SendPc.underway : SendPc → ℤ
  | .sendPosted | .sendCounted => 1
  | _ => 0

/-- The sends decided on and not subtracted from `SendCount`: those on `Repost` and those that
somebody is about to queue or to post, or has posted and not counted. -/
def State.pending (cfg : Config) (s : State) : ℤ :=
  tally Pc.pending s.thread cfg.threads + s.repost + s.sender.pending

/-- A thread decides on another send, and `SendCount` does not exceed the sends decided on
before. -/
def overdraws (cfg : Config) (s : State) : Action → Bool
  | .thread t _ =>
      match s.thread t with
      | .loopSends i => i < cfg.overlappedCount ∧ s.sendCount ≤ s.pending cfg
      | .testSends => 0 < s.sendCount ∧ s.sendCount ≤ s.pending cfg
      | _ => false
  | _ => false

/-- The sends posted on the connection are at most `gSendCount`, `SendCount` is not negative,
and the sending side is shut down only behind all of them. -/
structure State.SendsExact (cfg : Config) (s : State) : Prop where
  bounded : s.posted ≤ cfg.gSendCount
  counted : 0 ≤ s.sendCount
  complete : s.shut = true → s.posted = cfg.gSendCount

structure SendsOk (cfg : Config) (s : State) : Prop where
  inside : ∀ t, cfg.threads ≤ t → s.thread t = .idle
  count : s.sendCount + s.posted =
    cfg.gSendCount + tally Pc.underway s.thread cfg.threads + s.sender.underway
  room : s.pending cfg ≤ s.sendCount
  ended : s.shut = true ∨ (∃ t, s.thread t = .shutdown) → cfg.gSendCount ≤ s.posted

section Sends
variable {cfg : Config} {s s' : State} {t : ThreadId} {pc pc' : Pc} {ok : Bool}

theorem Pc.underway_nonneg (pc : Pc) : 0 ≤ pc.underway := by
  unfold Pc.underway
  split <;> decide

theorem Pc.underway_le_pending (pc : Pc) : pc.underway ≤ pc.pending := by
  cases pc <;> simp [Pc.underway, Pc.pending]

theorem SendPc.underway_nonneg (q : SendPc) : 0 ≤ q.underway := by
  cases q <;> decide

theorem SendPc.underway_le_pending (q : SendPc) : q.underway ≤ q.pending := by
  cases q <;> decide

theorem tally_underway_nonneg : 0 ≤ tally Pc.underway s.thread cfg.threads :=
  tally_nonneg fun _ _ => Pc.underway_nonneg _

theorem State.underway_le_pending :
    tally Pc.underway s.thread cfg.threads + s.sender.underway ≤ s.pending cfg := by
  have hthreads : tally Pc.underway s.thread cfg.threads ≤ tally Pc.pending s.thread cfg.threads :=
    Finset.sum_le_sum fun t _ => Pc.underway_le_pending (s.thread t)
  have hsender := s.sender.underway_le_pending
  unfold State.pending
  omega

theorem SendsOk.sendsExact (h : SendsOk cfg s) : s.SendsExact cfg := by
  have hcount := h.count
  have hroom := h.room
  have hunderway : tally Pc.underway s.thread cfg.threads + s.sender.underway ≤ s.pending cfg :=
    State.underway_le_pending
  have hthreads : 0 ≤ tally Pc.underway s.thread cfg.threads := tally_underway_nonneg
  have hsender := s.sender.underway_nonneg
  have hbounded : (s.posted : ℤ) ≤ cfg.gSendCount := by omega
  exact ⟨hbounded, by omega, fun hshut => le_antisymm hbounded (h.ended (.inl hshut))⟩

theorem SendsOk.start (hsends : 0 ≤ cfg.gSendCount) : SendsOk cfg (.start cfg) := by
  have hunderway : tally Pc.underway (State.start cfg).thread cfg.threads = 0 :=
    tally_eq_zero fun _ _ => rfl
  have hpending : tally Pc.pending (State.start cfg).thread cfg.threads = 0 :=
    tally_eq_zero fun _ _ => rfl
  refine ⟨fun _ _ => rfl, ?_, ?_, ?_⟩
  · rw [hunderway]
    exact (add_zero _).symm
  · rw [State.pending, hpending]
    exact hsends
  · rintro (h | ⟨t, h⟩) <;> cases h

theorem SendsOk.lt_threads (h : SendsOk cfg s) (hat : s.thread t = pc) (hbusy : pc ≠ .idle) :
    t < cfg.threads := by
  by_contra hout
  exact hbusy (hat.symm.trans (h.inside t (not_lt.1 hout)))

theorem SendsOk.goto (h : SendsOk cfg s) (hat : s.thread t = pc) (ht : t < cfg.threads)
    (hthread : s'.thread = update s.thread t pc') (hsender : s'.sender = s.sender)
    (hposted : s.posted ≤ s'.posted)
    (hcount : s'.sendCount + s'.posted + pc.underway = s.sendCount + s.posted + pc'.underway)
    (hroom : s.pending cfg + pc'.pending + s'.repost ≤ s'.sendCount + pc.pending + s.repost)
    (hended : s'.shut = true ∨ pc' = .shutdown →
      s.shut = true ∨ pc = .shutdown ∨ cfg.gSendCount ≤ s'.posted) : SendsOk cfg s' := by
  have hposted' : (s.posted : ℤ) ≤ s'.posted := Int.ofNat_le.2 hposted
  refine ⟨?_, ?_, ?_, ?_⟩
  · intro t' ht'
    rw [hthread, update_of_ne (ht.trans_le ht').ne']
    exact h.inside t' ht'
  · have hold := h.count
    rw [hthread, hsender, tally_update ht, hat]
    omega
  · unfold State.pending at hroom ⊢
    rw [hthread, hsender, tally_update ht, hat]
    omega
  · have hnew (hshut : s'.shut = true ∨ pc' = .shutdown) : cfg.gSendCount ≤ s'.posted := by
      rcases hended hshut with hold | rfl | hnow
      · exact (h.ended (.inl hold)).trans hposted'
      · exact (h.ended (.inr ⟨t, hat⟩)).trans hposted'
      · exact hnow
    rintro (hshut | ⟨t', ht'⟩)
    · exact hnew (.inl hshut)
    · rw [hthread] at ht'
      by_cases heq : t' = t
      · subst heq
        exact hnew (.inr ((update_self ..).symm.trans ht'))
      · exact (h.ended (.inr ⟨t', (update_of_ne heq _ _).symm.trans ht'⟩)).trans hposted'

theorem SendsOk.rest (h : SendsOk cfg s) (hat : s.thread t = pc) (ht : t < cfg.threads)
    (hthread : s'.thread = update s.thread t pc')
    (hkept : (s'.sender, s'.posted, s'.sendCount, s'.repost, s'.shut) =
      (s.sender, s.posted, s.sendCount, s.repost, s.shut)) (hpc : pc.pending = 0)
    (hpc' : pc'.pending = 0) (hend : pc' ≠ .shutdown) : SendsOk cfg s' := by
  simp only [Prod.mk.injEq] at hkept
  obtain ⟨hsender, hposted, hcount, hrepost, hshut⟩ := hkept
  have hroom := h.room
  have hunder := pc.underway_nonneg
  have hunder' := pc'.underway_nonneg
  have hle := pc.underway_le_pending
  have hle' := pc'.underway_le_pending
  refine h.goto hat ht hthread hsender hposted.ge ?_ ?_ ?_
  · rw [hcount, hposted]
    omega
  · rw [hcount, hrepost]
    omega
  · rintro (hs | hs)
    · exact .inl (hshut ▸ hs)
    · exact absurd hs hend

theorem SendsOk.all_posted (h : SendsOk cfg s) (hused : s.sendCount ≤ 0) :
    cfg.gSendCount ≤ s.posted := by
  have hcount := h.count
  have hroom := h.room
  have hunderway : tally Pc.underway s.thread cfg.threads + s.sender.underway ≤ s.pending cfg :=
    State.underway_le_pending
  have hthreads : 0 ≤ tally Pc.underway s.thread cfg.threads := tally_underway_nonneg
  have hsender := s.sender.underway_nonneg
  omega

theorem SendsOk.decide (h : SendsOk cfg s) (hat : s.thread t = pc) (ht : t < cfg.threads)
    (hpc : pc.pending = 0) (hpc' : pc'.pending = 1) (hunposted : pc'.underway = 0)
    (hroom : s.pending cfg < s.sendCount) : SendsOk cfg (s.goto t pc') := by
  have hunder := pc.underway_nonneg
  have hle := pc.underway_le_pending
  refine h.goto hat ht rfl rfl le_rfl ?_ ?_ ?_
  · change s.sendCount + s.posted + pc.underway = s.sendCount + s.posted + pc'.underway
    omega
  · change s.pending cfg + pc'.pending + s.repost ≤ s.sendCount + pc.pending + s.repost
    omega
  · rintro (hs | rfl)
    · exact .inl hs
    · cases hpc'

theorem SendsOk.send (h : SendsOk cfg s) (hthread : s'.thread = s.thread)
    (hposted : s.posted ≤ s'.posted) (hshut : s'.shut = s.shut)
    (hcount : s'.sendCount + s'.posted + s.sender.underway =
      s.sendCount + s.posted + s'.sender.underway)
    (hroom : s.sendCount + s'.repost + s'.sender.pending ≤
      s'.sendCount + s.repost + s.sender.pending) : SendsOk cfg s' := by
  refine ⟨?_, ?_, ?_, ?_⟩
  · rw [hthread]
    exact h.inside
  · have hold := h.count
    rw [hthread]
    omega
  · have hold := h.room
    unfold State.pending at hold ⊢
    rw [hthread]
    omega
  · intro hs
    rw [hthread, hshut] at hs
    exact (h.ended hs).trans (Int.ofNat_le.2 hposted)

variable {operation : Operation}

theorem dequeue_keeps (h : dequeue s operation = some s') :
    ∃ k m n, s' = { s with connects := k, recvs := m, sends := n } := by
  cases operation <;> simp only [dequeue, Option.ite_none_right_eq_some, Option.some.injEq] at h <;>
    exact ⟨_, _, _, h.2.symm⟩

theorem SendsOk.complete {result : Result} (h : SendsOk cfg s)
    (hstep : complete cfg s t operation result = some s') : SendsOk cfg s' := by
  unfold IocpClient.complete at hstep
  split at hstep
  · rename_i hready
    obtain ⟨ht, -, hidle⟩ := hready
    obtain ⟨s₁, hdequeue, rfl⟩ := Option.map_eq_some_iff.1 hstep
    obtain ⟨k, m, n, rfl⟩ := dequeue_keeps hdequeue
    refine h.rest hidle ht rfl rfl rfl ?_ ?_
    · cases operation <;> cases result <;> rfl
    · cases operation <;> cases result <;> nofun
  · cases hstep

theorem SendsOk.drop (h : SendsOk cfg s) (hstep : drop s operation = some s') : SendsOk cfg s' := by
  unfold IocpClient.drop at hstep
  split at hstep
  · obtain ⟨k, m, n, rfl⟩ := dequeue_keeps hstep
    exact ⟨h.inside, h.count, h.room, h.ended⟩
  · cases hstep

theorem SendsOk.mainStep (h : SendsOk cfg s) (hstep : mainStep cfg s ok = some s') :
    SendsOk cfg s' := by
  unfold IocpClient.mainStep at hstep
  have hkept {k : ℕ} {ops : ℤ} {m : MainPc} :
      SendsOk cfg { s with connects := k, outstandingOps := ops, main := m } :=
    ⟨h.inside, h.count, h.room, h.ended⟩
  cases hmain : s.main with
  | postConnect =>
      simp only [hmain] at hstep
      split at hstep <;> obtain rfl := Option.some.inj hstep <;> exact hkept
  | sleep =>
      simp only [hmain] at hstep
      split at hstep
      · cases hstep
      · obtain rfl := Option.some.inj hstep
        exact hkept
  | work => simp [hmain] at hstep

theorem SendsOk.advanceSender (h : SendsOk cfg s)
    (hstep : advanceSender cfg s ok = some s') : SendsOk cfg s' := by
  unfold IocpClient.advanceSender at hstep
  split at hstep
  · cases hsender : s.sender
    case exited => simp [hsender] at hstep
    all_goals simp only [hsender] at hstep
    case walking =>
      split at hstep
      · cases hstep
      · obtain rfl := Option.some.inj hstep
        exact h.send rfl le_rfl rfl (by rw [hsender]; rfl) (by rw [hsender]; exact le_rfl)
    case testRepost =>
      split at hstep
      · rename_i hqueued
        obtain rfl := Option.some.inj hstep
        refine h.send rfl le_rfl rfl (by rw [hsender]; rfl) ?_
        simp only [hsender, SendPc.pending]
        omega
      · obtain rfl := Option.some.inj hstep
        exact h.send rfl le_rfl rfl (by rw [hsender]; rfl) (by rw [hsender]; exact le_rfl)
    case postSend =>
      split at hstep
      · obtain rfl := Option.some.inj hstep
        refine h.send rfl (Nat.le_succ _) rfl ?_ (by rw [hsender]; exact le_rfl)
        simp only [hsender, SendPc.underway]
        omega
      · obtain rfl := Option.some.inj hstep
        refine h.send rfl le_rfl rfl (by rw [hsender]; rfl) ?_
        simp only [hsender, SendPc.pending]
        omega
    case sendPosted =>
      obtain rfl := Option.some.inj hstep
      exact h.send rfl le_rfl rfl (by rw [hsender]; rfl) (by rw [hsender]; exact le_rfl)
    case sendCounted =>
      obtain rfl := Option.some.inj hstep
      refine h.send rfl le_rfl rfl ?_ ?_
      · simp only [hsender, SendPc.underway]
        omega
      · simp only [hsender, SendPc.pending]
        omega
    case leave =>
      obtain rfl := Option.some.inj hstep
      exact h.send rfl le_rfl rfl (by rw [hsender]; rfl) (by rw [hsender]; exact le_rfl)
    case freeing =>
      obtain rfl := Option.some.inj hstep
      unfold IocpClient.freeSocketObj
      split
      · split <;>
          exact h.send rfl le_rfl rfl (by rw [hsender]; rfl) (by rw [hsender]; exact le_rfl)
      · exact h.send rfl le_rfl rfl (by rw [hsender]; rfl) (by rw [hsender]; exact le_rfl)
  · cases hstep

theorem SendsOk.finishSender (h : SendsOk cfg s) (hstep : finishSender cfg s = some s') :
    SendsOk cfg s' := by
  unfold IocpClient.finishSender at hstep
  split at hstep
  · rename_i hends
    obtain rfl := Option.some.inj hstep
    exact h.send rfl le_rfl rfl (by rw [hends.2.2.1]; rfl) (by rw [hends.2.2.1]; exact le_rfl)
  · cases hstep

theorem SendsOk.advance (h : SendsOk cfg s) (hadmitted : overdraws cfg s (.thread t ok) = false)
    (hstep : advance cfg s t ok = some s') : SendsOk cfg s' := by
  unfold IocpClient.advance at hstep
  cases hpc : s.thread t
  case idle => simp [hpc] at hstep
  all_goals simp only [hpc] at hstep
  all_goals try obtain rfl := Option.some.inj hstep
  case failed | testFailed | loopRecvs | testCount | testClosing =>
    exact h.rest hpc (h.lt_threads hpc nofun) rfl rfl rfl (by split <;> rfl) (by split <;> nofun)
  case removeSocketObj | leave => exact h.rest hpc (h.lt_threads hpc nofun) rfl rfl rfl rfl nofun
  case freeSocketObj =>
    unfold IocpClient.freeSocketObj
    split <;> exact h.rest hpc (h.lt_threads hpc nofun) rfl rfl rfl rfl nofun
  case postRecv | readDone =>
    split at hstep <;> obtain rfl := Option.some.inj hstep <;>
      exact h.rest hpc (h.lt_threads hpc nofun) rfl rfl rfl rfl nofun
  case recvPosted caller =>
    exact h.rest hpc (h.lt_threads hpc nofun) rfl rfl rfl (by cases caller <;> rfl)
      (by cases caller <;> nofun)
  case loopSends i =>
    have ht := h.lt_threads hpc nofun
    by_cases hless : i < cfg.overlappedCount
    · rw [if_pos hless]
      refine h.decide hpc ht rfl rfl rfl ?_
      simpa [overdraws, hpc, hless] using hadmitted
    · rw [if_neg hless]
      exact h.rest hpc ht rfl rfl rfl rfl nofun
  case postSend caller =>
    have ht := h.lt_threads hpc nofun
    split at hstep
    · obtain rfl := Option.some.inj hstep
      have hroom := h.room
      refine h.goto hpc ht rfl rfl (Nat.le_succ _) ?_ ?_ ?_
      · simp only [State.goto, Pc.underway]
        omega
      · simp only [State.goto, Pc.pending]
        omega
      · rintro (hs | hs)
        · exact .inl hs
        · cases hs
    · obtain rfl := Option.some.inj hstep
      have hroom := h.room
      refine h.goto hpc ht rfl rfl le_rfl ?_ ?_ ?_
      · cases caller <;> rfl
      · cases caller <;> simp only [State.goto, Pc.pending, Caller.sendFails] <;> omega
      · rintro (hs | hs)
        · exact .inl hs
        · cases caller <;> cases hs
  case sendPosted caller =>
    have hroom := h.room
    refine h.goto hpc (h.lt_threads hpc nofun) rfl rfl le_rfl rfl ?_ ?_
    · simp only [State.goto, Pc.pending]
      omega
    · rintro (hs | hs)
      · exact .inl hs
      · cases hs
  case sendCounted caller =>
    have hroom := h.room
    refine h.goto hpc (h.lt_threads hpc nofun) rfl rfl le_rfl ?_ ?_ ?_
    · cases caller <;> simp only [State.goto, Pc.underway, Caller.sendSucceeds] <;> omega
    · cases caller <;> simp only [State.goto, Pc.pending, Caller.sendSucceeds] <;> omega
    · rintro (hs | hs)
      · exact .inl hs
      · cases caller <;> cases hs
  case enter =>
    split at hstep
    · cases hstep
    · obtain rfl := Option.some.inj hstep
      exact h.rest hpc (h.lt_threads hpc nofun) rfl rfl rfl rfl nofun
  case testSends =>
    have ht := h.lt_threads hpc nofun
    by_cases hpositive : s.sendCount > 0
    · have hroom : s.pending cfg < s.sendCount := by
        simpa [overdraws, hpc, hpositive] using hadmitted
      rw [if_pos hpositive]
      split <;> exact h.decide hpc ht rfl rfl rfl hroom
    · rw [if_neg hpositive]
      have hroom := h.room
      have hall := h.all_posted (not_lt.1 hpositive)
      refine h.goto hpc ht rfl rfl le_rfl rfl ?_ fun _ => .inr (.inr hall)
      simp only [State.goto, Pc.pending]
      omega
  case queue =>
    have hroom := h.room
    refine h.goto hpc (h.lt_threads hpc nofun) rfl rfl le_rfl rfl ?_ ?_
    · simp only [State.goto, Pc.pending]
      omega
    · rintro (hs | hs)
      · exact .inl hs
      · cases hs
  case shutdown =>
    have hroom := h.room
    refine h.goto hpc (h.lt_threads hpc nofun) rfl rfl le_rfl rfl ?_ fun _ => .inr (.inl rfl)
    simp only [State.goto, Pc.pending]
    omega
  case decrement bCleanupSocket =>
    have ht := h.lt_threads hpc nofun
    split
    · exact h.rest hpc ht rfl rfl rfl rfl nofun
    · exact h.rest hpc ht rfl rfl rfl (by split <;> rfl) (by split <;> nofun)
  case cleanup =>
    split at hstep
    · cases hstep
    · obtain rfl := Option.some.inj hstep
      exact h.rest hpc (h.lt_threads hpc nofun) rfl rfl rfl (by split <;> rfl) (by split <;> nofun)

theorem SendsOk.step {a : Action} (h : SendsOk cfg s) (hadmitted : overdraws cfg s a = false)
    (hstep : step cfg s a = some s') : SendsOk cfg s' := by
  cases a with
  | main ok => exact h.mainStep hstep
  | complete t operation result => exact h.complete hstep
  | drop operation => exact h.drop hstep
  | thread t ok => exact h.advance hadmitted hstep
  | sender ok => exact h.advanceSender hstep
  | finish => exact h.finishSender hstep

end Sends

/-- In every run in which no thread decides on a send that `SendCount` has no room for. -/
theorem sends_exact {cfg : Config} {as : List Action} {s : State} (hsends : 1 ≤ cfg.gSendCount)
    (hrun : RunsTo (step cfg) (fun s a => overdraws cfg s a = false) (.start cfg) as s) :
    s.SendsExact cfg := by
  have h : SendsOk cfg s :=
    hrun.invariant (SendsOk cfg) (.start (zero_le_one.trans hsends)) fun _ _ _ h hadmitted hstep =>
      h.step hadmitted hstep
  exact h.sendsExact

def oneSend : Config := { defaults with gSendCount := 1 }

/-- The connect handler posts the only send, and its completion shuts the connection down. -/
def connectAndShutdown : List Action :=
  [.main true, .main true, .complete 0 .opConnect (some 0)] ++ List.replicate 10 (.thread 0 true) ++
    .complete 0 .opWrite (some 4096) :: List.replicate 4 (.thread 0 true)

theorem sends_exact_connectAndShutdown :
    ∃ s, RunsTo (step oneSend) (fun s a => overdraws oneSend s a = false) (.start oneSend)
        connectAndShutdown s ∧ s.shut = true ∧ s.SendsExact oneSend := by
  have hrun : RunsTo (step oneSend) (fun s a => overdraws oneSend s a = false) (.start oneSend)
      connectAndShutdown _ := RunsTo.of_isSome (by decide)
  exact ⟨_, hrun, by decide, sends_exact (by decide) hrun⟩

/-- Two operations on each connection and a limit of the rate. -/
def twoLimited : Config :=
  { defaults with gOverlappedCount := 2, gRateLimit := 65536, gSendCount := 3 }

/-- Two sends complete while one is left, both are queued, and `SendThread` posts both. -/
def queuedTwice : List Action :=
  [.main true, .main true, .complete 0 .opConnect (some 0)] ++ List.replicate 19 (.thread 0 true) ++
    .complete 0 .opWrite (some 4096) :: List.replicate 5 (.thread 0 true) ++
    .complete 0 .opWrite (some 4096) :: List.replicate 5 (.thread 0 true) ++
    List.replicate 12 (.sender true)

theorem sends_overdrawn :
    ∃ s, RunsTo (step twoLimited) Always (.start twoLimited) queuedTwice s ∧ s.posted = 4 ∧
      s.sendCount = -1 ∧ ¬ s.SendsExact twoLimited := by
  refine ⟨_, RunsTo.of_isSome (by decide), by decide, by decide, fun h => ?_⟩
  exact absurd h.counted (by decide)

end MiscProjects.IocpClient
