import MiscProjects.IocpClient.Client
import MiscProjects.Library.Tally

/-!
# When a connection is released

`OutstandingOps` is lowered at the end of the success path of `HandleIo` only, so an operation
that has failed is counted for ever.  The object is removed when the connect has failed, with
nothing else posted; behind another failed operation only if `SendThread` has posted a send that
it has not counted yet, and that is the last.  The success path removes the object if
`gTimeout` is `-1`, and with that time the main thread never gets to the completions.
-/

namespace MiscProjects.IocpClient

open Function (update update_eq_self update_of_ne update_self)
open Runs Tally

/-! ## What the threads still have to count -/

/-- The completion that a thread works on is still in `OutstandingOps`, but for an operation that
it has posted and not counted. -/
def Pc.balance : Pc → ℤ
  | .loopRecvs _ | .postRecv _ | .loopSends _ | .postSend _ | .sendCounted _ | .testCount _
  | .readDone _ | .enter | .testSends | .queue | .shutdown | .leave _ | .decrement _ => 1
  | _ => 0

/-- An operation that `SendThread` has posted and not counted. -/
def SendPc.balance : SendPc → ℤ
  | .sendPosted => -1
  | _ => 0

/-- The thread may be going to remove the object. -/
def Pc.failing : Pc → ℤ
  | .failed _ | .testFailed | .removeSocketObj => 1
  | _ => 0

/-- The thread is going to free it. -/
def Pc.freeing : Pc → ℤ
  | .freeSocketObj => 1
  | _ => 0

/-- The thread is on the error path, or removes and frees the object. -/
def Pc.releasing : Pc → Bool
  | .failed _ | .testFailed | .removeSocketObj | .freeSocketObj => true
  | _ => false

/-- `SendThread` is not in the middle of a send. -/
def SendPc.quiet : SendPc → Bool
  | .postSend | .sendPosted | .sendCounted => false
  | _ => true

/-- Nothing is in flight and nobody is going to post a send that has been queued. -/
structure State.Still (s : State) : Prop where
  recvs : s.recvs = 0
  sends : s.sends = 0
  repost : s.repost = 0
  sender : s.sender.quiet = true

/-- `lost` operations have failed. -/
structure ReleaseOk (cfg : Config) (lost : ℤ) (s : State) : Prop where
  inside : ∀ t, cfg.threads ≤ t → s.thread t = .idle
  never : cfg.gTimeout = -1 → s.main ≠ .work ∧ ∀ t, s.thread t = .idle
  ops : s.outstandingOps = s.inFlight + lost + tally Pc.balance s.thread cfg.threads +
    s.sender.balance
  failing : tally Pc.failing s.thread cfg.threads + s.removals ≤ lost
  freeing : tally Pc.freeing s.thread cfg.threads + s.frees ≤ s.removals
  unposted : s.main = .postConnect → s.connects = 0
  begun : s.main = .postConnect ∨ 0 < s.connects →
    s.Still ∧ s.connects ≤ 1 ∧ lost = 0 ∧ ∀ t, s.thread t = .idle
  refused : ∀ t, s.thread t = .failed .opConnect →
    s.Still ∧ s.connects = 0 ∧ lost ≤ 1 ∧ ∀ t', t' ≠ t → s.thread t' = .idle
  closed : ∀ t, s.thread t = .testFailed → s.isOpen = false
  released : 0 < s.removals ∨ (∃ t, s.thread t = .removeSocketObj) →
    s.isOpen = false ∧ s.inFlight = 0 ∧ lost ≤ 1
  emptied : s.sender = .freeing → s.listed = false

/-- The object is removed and freed at most once, and not before the last of the operations
posted has completed. -/
structure State.ReleasedOnce (s : State) : Prop where
  removed : s.removals ≤ 1
  freed : s.frees ≤ 1
  last : 0 < s.removals ∨ 0 < s.frees → s.inFlight = 0

section Release
variable {cfg : Config} {s s' : State} {t : ThreadId} {pc pc' : Pc} {lost : ℤ} {ok : Bool}

theorem Config.rateLimited_of_gTimeout (h : cfg.gTimeout = -1) : cfg.rateLimited = true := by
  by_contra hfree
  have hlimit : cfg.gRateLimit = -1 := by simpa [Config.rateLimited] using hfree
  simp [Config.gTimeout, hlimit] at h

theorem Pc.balance_nonneg (pc : Pc) : 0 ≤ pc.balance := by
  unfold Pc.balance
  split <;> decide

theorem SendPc.neg_one_le_balance (q : SendPc) : -1 ≤ q.balance := by
  unfold SendPc.balance
  split <;> decide

theorem Pc.failing_nonneg (pc : Pc) : 0 ≤ pc.failing := by
  unfold Pc.failing
  split <;> decide

theorem Pc.freeing_nonneg (pc : Pc) : 0 ≤ pc.freeing := by
  unfold Pc.freeing
  split <;> decide

theorem Pc.failing_of_releasing (h : pc.releasing = false) : pc.failing = 0 := by
  cases pc <;> first | rfl | cases h

theorem Pc.freeing_of_releasing (h : pc.releasing = false) : pc.freeing = 0 := by
  cases pc <;> first | rfl | cases h

theorem ReleaseOk.releasedOnce (h : ReleaseOk cfg lost s) : s.ReleasedOnce := by
  have hfailing : 0 ≤ tally Pc.failing s.thread cfg.threads :=
    tally_nonneg fun _ _ => Pc.failing_nonneg _
  have hfreeing : 0 ≤ tally Pc.freeing s.thread cfg.threads :=
    tally_nonneg fun _ _ => Pc.freeing_nonneg _
  have hremovals := h.failing
  have hfrees := h.freeing
  rcases Nat.eq_zero_or_pos s.removals with hzero | hpos
  · exact ⟨by omega, by omega, by omega⟩
  · obtain ⟨-, hlast, hone⟩ := h.released (.inl hpos)
    exact ⟨by omega, by omega, fun _ => hlast⟩

theorem ReleaseOk.start (cfg : Config) : ReleaseOk cfg 0 (.start cfg) := by
  have hbalance : tally Pc.balance (State.start cfg).thread cfg.threads = 0 :=
    tally_eq_zero fun _ _ => rfl
  have hfailing : tally Pc.failing (State.start cfg).thread cfg.threads = 0 :=
    tally_eq_zero fun _ _ => rfl
  have hfreeing : tally Pc.freeing (State.start cfg).thread cfg.threads = 0 :=
    tally_eq_zero fun _ _ => rfl
  refine ⟨fun _ _ => rfl, fun _ => ⟨nofun, fun _ => rfl⟩, ?_, ?_, ?_, fun _ => rfl, ?_, nofun,
    nofun, ?_, nofun⟩
  · rw [hbalance]
    rfl
  · rw [hfailing]
    exact le_refl 0
  · rw [hfreeing]
    exact le_refl 0
  · exact fun _ => ⟨⟨rfl, rfl, rfl, rfl⟩, Nat.zero_le 1, rfl, fun _ => rfl⟩
  · rintro (h | ⟨t, h⟩)
    · exact absurd h (Nat.lt_irrefl 0)
    · cases h

theorem ReleaseOk.lt_threads (h : ReleaseOk cfg lost s) (hat : s.thread t = pc)
    (hbusy : pc ≠ .idle) : t < cfg.threads := by
  by_contra hout
  exact hbusy (hat.symm.trans (h.inside t (not_lt.1 hout)))

variable {n ops : ℤ} {b c io sh : Bool} {p rp rv sd : ℕ} {operation : Operation}

theorem ReleaseOk.goto {l : Bool} {r f : ℕ}
    (h : ReleaseOk cfg lost s) (hat : s.thread t = pc) (hbusy : pc ≠ .idle)
    (hfailed : ∀ operation, pc' ≠ .failed operation)
    (hopen : s.isOpen = false → io = false) (hlisted : s.listed = false → l = false)
    (hposts : rv + sd = s.recvs + s.sends ∨ io = true)
    (hops : ops + pc.balance + s.recvs + s.sends = s.outstandingOps + pc'.balance + rv + sd)
    (hfailing : pc'.failing + r ≤ pc.failing + s.removals)
    (hfreeing : pc'.freeing + f + s.removals ≤ pc.freeing + s.frees + r)
    (hclosed : pc' = .testFailed → io = false)
    (hreleased : 0 < r ∨ pc' = .removeSocketObj → io = false ∧ s.inFlight = 0 ∧ lost ≤ 1) :
    ReleaseOk cfg lost
      ({ s with
          isOpen := io
          outstandingOps := ops
          sendCount := n
          bClosing := b
          repost := rp
          sockCritSec := c
          recvs := rv
          sends := sd
          posted := p
          shut := sh
          listed := l
          removals := r
          frees := f }.goto t pc') := by
  have ht := h.lt_threads hat hbusy
  have hother {t' : ThreadId} {pc₁ : Pc} (h' : update s.thread t pc' t' = pc₁)
      (hne : pc' ≠ pc₁) : s.thread t' = pc₁ ∧ t' ≠ t := by
    by_cases heq : t' = t
    · subst heq
      rw [update_self] at h'
      exact absurd h' hne
    · rw [update_of_ne heq] at h'
      exact ⟨h', heq⟩
  have hlast (hio : io = false) (hold : s.inFlight = 0) : s.connects + rv + sd = 0 := by
    rw [hio] at hposts
    unfold State.inFlight at hold
    simp only [Bool.false_eq_true, or_false] at hposts
    omega
  refine ⟨?_, ?_, ?_, ?_, ?_, h.unposted, ?_, ?_, ?_, ?_, ?_⟩
  · intro t' ht'
    exact (update_of_ne (ht.trans_le ht').ne' _ _).trans (h.inside t' ht')
  · intro hnever
    exact absurd (hat.symm.trans ((h.never hnever).2 t)) hbusy
  · have hold := h.ops
    change ops = ((s.connects + rv + sd : ℕ) : ℤ) + lost +
      tally Pc.balance (update s.thread t pc') cfg.threads + s.sender.balance
    rw [tally_update ht, hat]
    unfold State.inFlight at hold
    omega
  · have hold := h.failing
    change tally Pc.failing (update s.thread t pc') cfg.threads + r ≤ lost
    rw [tally_update ht, hat]
    omega
  · have hold := h.freeing
    change tally Pc.freeing (update s.thread t pc') cfg.threads + f ≤ r
    rw [tally_update ht, hat]
    omega
  · intro hbegun
    exact absurd (hat.symm.trans ((h.begun hbegun).2.2.2 t)) hbusy
  · intro t' ht'
    obtain ⟨hold, hne⟩ := hother ht' (hfailed _)
    exact absurd (hat.symm.trans ((h.refused t' hold).2.2.2 t hne.symm)) hbusy
  · intro t' ht'
    by_cases htest : pc' = .testFailed
    · exact hclosed htest
    · exact hopen (h.closed t' (hother ht' htest).1)
  · rintro (hremoved | ⟨t', ht'⟩)
    · obtain ⟨hio, hold, hone⟩ := hreleased (.inl hremoved)
      exact ⟨hio, hlast hio hold, hone⟩
    · by_cases hremove : pc' = .removeSocketObj
      · obtain ⟨hio, hold, hone⟩ := hreleased (.inr hremove)
        exact ⟨hio, hlast hio hold, hone⟩
      · obtain ⟨hclosed', hold, hone⟩ := h.released (.inr ⟨t', (hother ht' hremove).1⟩)
        exact ⟨hopen hclosed', hlast (hopen hclosed') hold, hone⟩
  · exact fun hfreeing => hlisted (h.emptied hfreeing)

theorem ReleaseOk.move (h : ReleaseOk cfg lost s) (hat : s.thread t = pc) (hbusy : pc ≠ .idle)
    (hpc : pc.releasing = false) (hpc' : pc'.releasing = false)
    (hopen : s.isOpen = false → io = false)
    (hposts : rv + sd = s.recvs + s.sends ∨ io = true)
    (hops : ops + pc.balance + s.recvs + s.sends = s.outstandingOps + pc'.balance + rv + sd) :
    ReleaseOk cfg lost
      ({ s with
          isOpen := io
          outstandingOps := ops
          sendCount := n
          bClosing := b
          repost := rp
          sockCritSec := c
          recvs := rv
          sends := sd
          posted := p
          shut := sh }.goto t pc') := by
  refine h.goto hat hbusy ?_ hopen id hposts hops ?_ ?_ ?_ ?_
  · rintro operation rfl
    cases hpc'
  · rw [Pc.failing_of_releasing hpc, Pc.failing_of_releasing hpc']
  · rw [Pc.freeing_of_releasing hpc, Pc.freeing_of_releasing hpc', add_right_comm]
  · rintro rfl
    cases hpc'
  · rintro (hremoved | rfl)
    · exact (h.released (.inl hremoved)).imp_left hopen
    · cases hpc'

theorem ReleaseOk.send {q : SendPc} (h : ReleaseOk cfg lost s)
    (hstill : s.Still → sd = s.sends ∧ rp = 0 ∧ q.quiet = true)
    (hposts : sd = s.sends ∨ s.isOpen = true)
    (hops : ops + s.sender.balance + s.sends = s.outstandingOps + q.balance + sd)
    (hq : q = .freeing → s.listed = false) :
    ReleaseOk cfg lost
      { s with
        outstandingOps := ops
        sendCount := n
        repost := rp
        sockCritSec := c
        sends := sd
        posted := p
        sender := q } := by
  have hkept (hs : s.Still) : State.Still
      { s with
        outstandingOps := ops
        sendCount := n
        repost := rp
        sockCritSec := c
        sends := sd
        posted := p
        sender := q } := by
    obtain ⟨hsends, hrepost, hquiet⟩ := hstill hs
    exact ⟨hs.recvs, hsends.trans hs.sends, hrepost, hquiet⟩
  refine ⟨h.inside, h.never, ?_, h.failing, h.freeing, h.unposted,
    fun hbegun => (h.begun hbegun).imp_left hkept,
    fun t' ht' => (h.refused t' ht').imp_left hkept, h.closed, ?_, hq⟩
  · have hold := h.ops
    change ops = ((s.connects + s.recvs + sd : ℕ) : ℤ) + lost +
      tally Pc.balance s.thread cfg.threads + q.balance
    unfold State.inFlight at hold
    omega
  · intro hreleased
    obtain ⟨hclosed, hlast, hone⟩ := h.released hreleased
    refine ⟨hclosed, ?_, hone⟩
    change s.connects + s.recvs + sd = 0
    rw [hclosed] at hposts
    unfold State.inFlight at hlast
    simp only [Bool.false_eq_true, or_false] at hposts
    omega

theorem dequeue_eq_some (h : dequeue s operation = some s') :
    ∃ k m n, s' = { s with connects := k, recvs := m, sends := n } ∧
      k + m + n + 1 = s.inFlight ∧ k ≤ s.connects ∧ m ≤ s.recvs ∧ n ≤ s.sends ∧
      (operation = .opConnect ↔ k < s.connects) := by
  cases operation with
  | opConnect =>
      obtain ⟨hpos, rfl⟩ : 0 < s.connects ∧ { s with connects := s.connects - 1 } = s' := by
        simpa [dequeue] using h
      exact ⟨_, _, _, rfl, by unfold State.inFlight; omega, by omega, le_rfl, le_rfl,
        by simp; omega⟩
  | opRead =>
      obtain ⟨hpos, rfl⟩ : 0 < s.recvs ∧ { s with recvs := s.recvs - 1 } = s' := by
        simpa [dequeue] using h
      exact ⟨_, _, _, rfl, by unfold State.inFlight; omega, le_rfl, by omega, le_rfl, by simp⟩
  | opWrite =>
      obtain ⟨hpos, rfl⟩ : 0 < s.sends ∧ { s with sends := s.sends - 1 } = s' := by
        simpa [dequeue] using h
      exact ⟨_, _, _, rfl, by unfold State.inFlight; omega, le_rfl, le_rfl, by omega, by simp⟩

theorem ReleaseOk.take {lost' : ℤ} (h : ReleaseOk cfg lost s)
    (hmain : s.main = .work) (hidle : s.thread t = .idle)
    (ht : pc' ≠ .idle → t < cfg.threads) (hdequeue : dequeue s operation = some s')
    (hbalance : pc'.balance + lost' = lost + 1) (hfailing : pc'.failing + lost ≤ lost')
    (hpc' : pc'.releasing = false ∨ pc' = .failed operation) :
    ReleaseOk cfg lost' (s'.goto t pc') := by
  obtain ⟨k, m, n, rfl, hsum, hk, hm, hn, hconnect⟩ := dequeue_eq_some hdequeue
  have hfree : ¬ (0 < s.removals ∨ ∃ t, s.thread t = .removeSocketObj) := by
    intro hreleased
    have hlast := (h.released hreleased).2.1
    omega
  have htally (w : Pc → ℤ) (hw : w .idle = 0) :
      tally w (update s.thread t pc') cfg.threads = tally w s.thread cfg.threads + w pc' := by
    by_cases hstay : pc' = .idle
    · rw [hstay, ← hidle, update_eq_self, hidle, hw, add_zero]
    · rw [tally_update (ht hstay), hidle, hw, sub_zero]
  have hother {t' : ThreadId} {pc₁ : Pc} (h' : update s.thread t pc' t' = pc₁)
      (hne : pc' ≠ pc₁) : s.thread t' = pc₁ := by
    by_cases heq : t' = t
    · subst heq
      rw [update_self] at h'
      exact absurd h' hne
    · rwa [update_of_ne heq] at h'
  refine ⟨?_, ?_, ?_, ?_, ?_, ?_, ?_, ?_, ?_, ?_, h.emptied⟩
  · intro t' ht'
    by_cases heq : t' = t
    · subst heq
      by_contra hbusy
      exact absurd (ht fun hstay => hbusy ((update_self ..).trans hstay)) (not_lt.2 ht')
    · exact (update_of_ne heq _ _).trans (h.inside t' ht')
  · exact fun hnever => absurd hmain (h.never hnever).1
  · have hold := h.ops
    change s.outstandingOps = ((k + m + n : ℕ) : ℤ) + lost' +
      tally Pc.balance (update s.thread t pc') cfg.threads + s.sender.balance
    rw [htally _ rfl]
    omega
  · have hold := h.failing
    change tally Pc.failing (update s.thread t pc') cfg.threads + s.removals ≤ lost'
    rw [htally _ rfl]
    omega
  · have hold := h.freeing
    have hzero : pc'.freeing = 0 := by
      rcases hpc' with hpc' | rfl
      · exact Pc.freeing_of_releasing hpc'
      · rfl
    change tally Pc.freeing (update s.thread t pc') cfg.threads + s.frees ≤ s.removals
    rw [htally _ rfl, hzero]
    omega
  · exact fun hearly => absurd (hmain.symm.trans hearly) nofun
  · rintro (hearly | hpos)
    · exact absurd (hmain.symm.trans hearly) nofun
    · change 0 < k at hpos
      obtain ⟨hstill, hone, -, -⟩ := h.begun (.inr (by omega))
      have hrecvs := hstill.recvs
      have hsends := hstill.sends
      unfold State.inFlight at hsum
      omega
  · intro t' ht'
    by_cases heq : t' = t
    · subst heq
      have hfailed : pc' = .failed .opConnect := (update_self ..).symm.trans ht'
      have hoperation : operation = .opConnect := by
        rcases hpc' with hpc' | hpc' <;> rw [hfailed] at hpc'
        · cases hpc'
        · exact (Pc.failed.inj hpc').symm
      have hless := hconnect.1 hoperation
      obtain ⟨hstill, hone, hlost, hothers⟩ := h.begun (.inr (by omega))
      have hrecvs := hstill.recvs
      have hsends := hstill.sends
      rw [hfailed] at hbalance
      refine ⟨⟨?_, ?_, hstill.repost, hstill.sender⟩, ?_, ?_, ?_⟩
      · change m = 0
        omega
      · change n = 0
        omega
      · change k = 0
        omega
      · simp only [Pc.balance] at hbalance
        omega
      · exact fun t'' hne => (update_of_ne hne _ _).trans (hothers t'')
    · obtain ⟨hstill, hzero, -, -⟩ := h.refused t' ((update_of_ne heq _ _).symm.trans ht')
      have hrecvs := hstill.recvs
      have hsends := hstill.sends
      unfold State.inFlight at hsum
      omega
  · intro t' ht'
    refine h.closed t' (hother ht' ?_)
    rintro rfl
    rcases hpc' with hpc' | hpc' <;> cases hpc'
  · rintro (hremoved | ⟨t', ht'⟩)
    · exact absurd (.inl hremoved) hfree
    · refine absurd (.inr ⟨t', hother ht' ?_⟩) hfree
      rintro rfl
      rcases hpc' with hpc' | hpc' <;> cases hpc'

theorem ReleaseOk.complete {result : Result} (h : ReleaseOk cfg lost s)
    (hstep : complete cfg s t operation result = some s') : ∃ lost', ReleaseOk cfg lost' s' := by
  unfold IocpClient.complete at hstep
  split at hstep
  · rename_i hready
    obtain ⟨ht, hmain, hidle⟩ := hready
    obtain ⟨s₁, hdequeue, rfl⟩ := Option.map_eq_some_iff.1 hstep
    cases result with
    | none =>
        refine ⟨lost + 1, h.take hmain hidle (fun _ => ht) hdequeue ?_ ?_ (.inr rfl)⟩ <;>
          simp only [handleIo, Pc.balance, Pc.failing] <;> omega
    | some bytesTransfered =>
        refine ⟨lost, h.take hmain hidle (fun _ => ht) hdequeue ?_ ?_ (.inl ?_)⟩ <;>
          cases operation <;> simp [handleIo, Pc.balance, Pc.failing, Pc.releasing, add_comm]
  · cases hstep

theorem ReleaseOk.drop (h : ReleaseOk cfg lost s)
    (hstep : drop s operation = some s') : ReleaseOk cfg (lost + 1) s' := by
  unfold IocpClient.drop at hstep
  split at hstep
  · rename_i hmain
    have hidle := h.inside cfg.threads le_rfl
    have hnew : ReleaseOk cfg (lost + 1) (s'.goto cfg.threads .idle) :=
      h.take hmain hidle (fun hbusy => absurd rfl hbusy) hstep (zero_add _)
        (by simp only [Pc.failing]; omega) (.inl rfl)
    obtain ⟨k, m, n, rfl, -⟩ := dequeue_eq_some hstep
    rw [State.goto, ← hidle] at hnew
    simpa only [update_eq_self] using hnew
  · cases hstep

theorem ReleaseOk.mainMove {k : ℕ} {m : MainPc} (h : ReleaseOk cfg lost s) (hm : m ≠ .postConnect)
    (hnever : cfg.gTimeout = -1 → m ≠ .work) (hk : k = s.connects ∨ s.main = .postConnect ∧ k ≤ 1)
    (hops : ops + s.connects = s.outstandingOps + k) :
    ReleaseOk cfg lost { s with connects := k, outstandingOps := ops, main := m } := by
  refine ⟨h.inside, fun ht => ⟨hnever ht, (h.never ht).2⟩, ?_, h.failing, h.freeing,
    fun hearly => absurd hearly hm, ?_, ?_, h.closed, ?_, h.emptied⟩
  · have hold := h.ops
    change ops = ((k + s.recvs + s.sends : ℕ) : ℤ) + lost +
      tally Pc.balance s.thread cfg.threads + s.sender.balance
    unfold State.inFlight at hold
    omega
  · rintro (hearly | hpos)
    · exact absurd hearly hm
    · change 0 < k at hpos
      rcases hk with rfl | ⟨hmain, hone⟩
      · obtain ⟨⟨hrecvs, hsends, hrepost, hquiet⟩, hrest⟩ := h.begun (.inr hpos)
        exact ⟨⟨hrecvs, hsends, hrepost, hquiet⟩, hrest⟩
      · obtain ⟨⟨hrecvs, hsends, hrepost, hquiet⟩, -, hrest⟩ := h.begun (.inl hmain)
        exact ⟨⟨hrecvs, hsends, hrepost, hquiet⟩, hone, hrest⟩
  · intro t ht
    rcases hk with rfl | ⟨hmain, -⟩
    · obtain ⟨⟨hrecvs, hsends, hrepost, hquiet⟩, hrest⟩ := h.refused t ht
      exact ⟨⟨hrecvs, hsends, hrepost, hquiet⟩, hrest⟩
    · exact absurd (((h.begun (.inl hmain)).2.2.2 t).symm.trans ht) nofun
  · intro hreleased
    rcases hk with rfl | ⟨hmain, -⟩
    · exact h.released hreleased
    · obtain ⟨-, -, hlost, hidle⟩ := h.begun (.inl hmain)
      have hfailing : 0 ≤ tally Pc.failing s.thread cfg.threads :=
        tally_nonneg fun _ _ => Pc.failing_nonneg _
      have hold := h.failing
      rcases hreleased with hremoved | ⟨t, ht⟩
      · change 0 < s.removals at hremoved
        omega
      · exact absurd ((hidle t).symm.trans ht) nofun

theorem ReleaseOk.mainStep (h : ReleaseOk cfg lost s) (hstep : mainStep cfg s ok = some s') :
    ReleaseOk cfg lost s' := by
  unfold IocpClient.mainStep at hstep
  cases hmain : s.main with
  | postConnect =>
      simp only [hmain] at hstep
      have hconnects := h.unposted hmain
      split at hstep
      · obtain rfl := Option.some.inj hstep
        refine h.mainMove nofun nofun (.inr ⟨hmain, le_rfl⟩) ?_
        rw [hconnects, Nat.cast_zero, add_zero, Nat.cast_one]
      · obtain rfl := Option.some.inj hstep
        exact h.mainMove nofun nofun (.inl rfl) rfl
  | sleep =>
      simp only [hmain] at hstep
      split at hstep
      · cases hstep
      · rename_i hwakes
        obtain rfl := Option.some.inj hstep
        refine h.mainMove nofun (fun hnever => ?_) (.inl rfl) rfl
        exact absurd ⟨Config.rateLimited_of_gTimeout hnever, hnever⟩ hwakes
  | work => simp [hmain] at hstep

theorem ReleaseOk.advanceSender (h : ReleaseOk cfg lost s)
    (hstep : advanceSender cfg s ok = some s') : ReleaseOk cfg lost s' := by
  unfold IocpClient.advanceSender at hstep
  split at hstep
  · cases hsender : s.sender
    case freeing =>
      simp only [hsender, h.emptied hsender] at hstep
      obtain rfl := Option.some.inj hstep
      exact h.send (fun hs => ⟨rfl, hs.repost, rfl⟩) (.inl rfl) (by rw [hsender]; rfl) nofun
    case exited => simp [hsender] at hstep
    all_goals simp only [hsender] at hstep
    case walking =>
      split at hstep
      · cases hstep
      · obtain rfl := Option.some.inj hstep
        exact h.send (fun hs => ⟨rfl, hs.repost, rfl⟩) (.inl rfl) (by rw [hsender]; rfl) nofun
    case testRepost =>
      split at hstep
      · rename_i hqueued
        obtain rfl := Option.some.inj hstep
        refine h.send (fun hs => ?_) (.inl rfl) (by rw [hsender]; rfl) nofun
        exact absurd hs.repost hqueued.2.ne'
      · obtain rfl := Option.some.inj hstep
        exact h.send (fun hs => ⟨rfl, hs.repost, rfl⟩) (.inl rfl) (by rw [hsender]; rfl) nofun
    case postSend =>
      have hactive : ¬ s.Still := fun hs => by simpa [hsender, SendPc.quiet] using hs.sender
      split at hstep
      · rename_i hopen
        obtain rfl := Option.some.inj hstep
        refine h.send (fun hs => absurd hs hactive) (.inr hopen.2) ?_ nofun
        rw [hsender]
        simp only [SendPc.balance]
        omega
      · obtain rfl := Option.some.inj hstep
        exact h.send (fun hs => absurd hs hactive) (.inl rfl) (by rw [hsender]; rfl) nofun
    case sendPosted =>
      have hactive : ¬ s.Still := fun hs => by simpa [hsender, SendPc.quiet] using hs.sender
      obtain rfl := Option.some.inj hstep
      refine h.send (fun hs => absurd hs hactive) (.inl rfl) ?_ nofun
      rw [hsender]
      simp only [SendPc.balance]
      omega
    case sendCounted =>
      have hactive : ¬ s.Still := fun hs => by simpa [hsender, SendPc.quiet] using hs.sender
      obtain rfl := Option.some.inj hstep
      exact h.send (fun hs => absurd hs hactive) (.inl rfl) (by rw [hsender]; rfl) nofun
    case leave =>
      obtain rfl := Option.some.inj hstep
      exact h.send (fun hs => ⟨rfl, hs.repost, rfl⟩) (.inl rfl) (by rw [hsender]; rfl) nofun
  · cases hstep

theorem ReleaseOk.finishSender (h : ReleaseOk cfg lost s)
    (hstep : finishSender cfg s = some s') : ReleaseOk cfg lost s' := by
  unfold IocpClient.finishSender at hstep
  split at hstep
  · rename_i hends
    obtain rfl := Option.some.inj hstep
    refine h.send (fun hs => ⟨rfl, hs.repost, rfl⟩) (.inl rfl) ?_ fun _ => hends.2.2.2
    rw [hends.2.2.1]
    rfl
  · cases hstep

/-- Where nothing is counted behind a failed operation, it is the only one that has failed, and
all the others have completed: `SendThread` has posted at most one that it has not counted. -/
theorem ReleaseOk.last_of_testFailed (h : ReleaseOk cfg lost s) (hat : s.thread t = .testFailed)
    (hzero : s.outstandingOps = 0) : s.inFlight = 0 ∧ lost ≤ 1 := by
  have hone := weight_le_tally (fun t' _ => Pc.failing_nonneg (s.thread t'))
    (h.lt_threads hat nofun)
  rw [hat] at hone
  have hbalance : 0 ≤ tally Pc.balance s.thread cfg.threads :=
    tally_nonneg fun _ _ => Pc.balance_nonneg _
  have hsender := s.sender.neg_one_le_balance
  have hops := h.ops
  have hfailing := h.failing
  simp only [Pc.failing] at hone
  omega

theorem ReleaseOk.advance (h : ReleaseOk cfg lost s) (hstep : advance cfg s t ok = some s') :
    ReleaseOk cfg lost s' := by
  unfold IocpClient.advance at hstep
  cases hpc : s.thread t
  case idle => simp [hpc] at hstep
  all_goals simp only [hpc] at hstep
  all_goals try obtain rfl := Option.some.inj hstep
  case failed operation =>
    have hlast (hop : operation = .opConnect) : s.inFlight = 0 ∧ lost ≤ 1 := by
      obtain ⟨hstill, hzero, hone, -⟩ := h.refused t (hop ▸ hpc)
      exact ⟨by rw [State.inFlight, hzero, hstill.recvs, hstill.sends], hone⟩
    refine h.goto hpc nofun (fun _ => by split <;> nofun) (fun _ => rfl) id (.inl rfl) ?_ ?_ ?_
      (fun _ => rfl) ?_
    · split <;> rfl
    · split <;> rfl
    · split <;> exact le_rfl
    · rintro (hremoved | hremove)
      · obtain ⟨-, hold, hone⟩ := h.released (.inl hremoved)
        exact ⟨rfl, hold, hone⟩
      · split at hremove
        · rename_i hop
          exact ⟨rfl, hlast hop⟩
        · cases hremove
  case testFailed =>
    have hclosed := h.closed t hpc
    refine h.goto hpc nofun (fun _ => by split <;> nofun) id id (.inl rfl) ?_ ?_ ?_
      (fun htest => by split at htest <;> cases htest) ?_
    · split <;> rfl
    · split <;> simp [Pc.failing]
    · split <;> exact le_rfl
    · rintro (hremoved | hremove)
      · exact h.released (.inl hremoved)
      · split at hremove
        · rename_i hzero
          exact ⟨hclosed, h.last_of_testFailed hpc hzero⟩
        · cases hremove
  case removeSocketObj =>
    have hreleased := h.released (.inr ⟨t, hpc⟩)
    refine h.goto hpc nofun nofun id (fun _ => rfl) (.inl rfl) rfl ?_ ?_ nofun fun _ => hreleased
    · simp only [Pc.failing]
      omega
    · simp only [Pc.freeing]
      omega
  case freeSocketObj =>
    have hreleased (hremoved : 0 < s.removals) := h.released (.inl hremoved)
    unfold IocpClient.freeSocketObj
    split
    · refine h.goto hpc nofun nofun id id (.inl rfl) rfl le_rfl ?_ nofun ?_
      · simp only [Pc.freeing]
        omega
      · rintro (hremoved | hremove)
        · exact hreleased hremoved
        · cases hremove
    · refine h.goto hpc nofun nofun (fun _ => rfl) id (.inl rfl) rfl le_rfl ?_ nofun ?_
      · simp only [Pc.freeing]
        omega
      · rintro (hremoved | hremove)
        · exact ⟨rfl, (hreleased hremoved).2⟩
        · cases hremove
  case loopRecvs i => exact h.move hpc nofun rfl (by split <;> rfl) id (.inl rfl) (by split <;> rfl)
  case postRecv caller =>
    split at hstep
    · rename_i hopen
      obtain rfl := Option.some.inj hstep
      refine h.move hpc nofun rfl rfl id (.inr hopen.2) ?_
      simp only [Pc.balance]
      omega
    · obtain rfl := Option.some.inj hstep
      exact h.move hpc nofun rfl rfl id (.inl rfl) rfl
  case recvPosted caller =>
    refine h.move hpc nofun rfl (by cases caller <;> rfl) id (.inl rfl) ?_
    cases caller <;> simp only [Pc.balance, Caller.recvSucceeds] <;> omega
  case loopSends i => exact h.move hpc nofun rfl (by split <;> rfl) id (.inl rfl) (by split <;> rfl)
  case postSend caller =>
    split at hstep
    · rename_i hopen
      obtain rfl := Option.some.inj hstep
      refine h.move hpc nofun rfl rfl id (.inr hopen.2) ?_
      simp only [Pc.balance]
      omega
    · obtain rfl := Option.some.inj hstep
      exact h.move hpc nofun rfl (by cases caller <;> rfl) id (.inl rfl) (by cases caller <;> rfl)
  case sendPosted caller =>
    refine h.move hpc nofun rfl rfl id (.inl rfl) ?_
    simp only [Pc.balance]
    omega
  case sendCounted caller =>
    exact h.move hpc nofun rfl (by cases caller <;> rfl) id (.inl rfl) (by cases caller <;> rfl)
  case testCount i => exact h.move hpc nofun rfl (by split <;> rfl) id (.inl rfl) (by split <;> rfl)
  case readDone bytesTransfered =>
    split at hstep
    · obtain rfl := Option.some.inj hstep
      exact h.move hpc nofun rfl rfl id (.inl rfl) rfl
    · obtain rfl := Option.some.inj hstep
      exact h.move hpc nofun rfl rfl id (.inl rfl) rfl
  case enter =>
    split at hstep
    · cases hstep
    · obtain rfl := Option.some.inj hstep
      exact h.move hpc nofun rfl rfl id (.inl rfl) rfl
  case testSends =>
    refine h.move hpc nofun rfl ?_ id (.inl rfl) ?_ <;> split <;> first | split <;> rfl | rfl
  case queue => exact h.move hpc nofun rfl rfl id (.inl rfl) rfl
  case shutdown => exact h.move hpc nofun rfl rfl id (.inl rfl) rfl
  case leave bCleanupSocket => exact h.move hpc nofun rfl rfl id (.inl rfl) rfl
  case decrement bCleanupSocket =>
    refine h.move hpc nofun rfl ?_ id (.inl rfl) ?_
    · split
      · rfl
      · split <;> rfl
    · split
      · simp only [Pc.balance]
        omega
      · split <;> simp only [Pc.balance] <;> omega
  case testClosing bCleanupSocket =>
    exact h.move hpc nofun rfl (by split <;> rfl) id (.inl rfl) (by split <;> rfl)
  case cleanup =>
    split at hstep
    · cases hstep
    · obtain rfl := Option.some.inj hstep
      have hbusy : cfg.gTimeout ≠ -1 := fun hnever =>
        absurd (((h.never hnever).2 t).symm.trans hpc) nofun
      rw [if_neg hbusy]
      exact h.move hpc nofun rfl rfl (fun _ => rfl) (.inl rfl) rfl

theorem ReleaseOk.step {a : Action} (h : ReleaseOk cfg lost s) (hstep : step cfg s a = some s') :
    ∃ lost', ReleaseOk cfg lost' s' := by
  cases a with
  | main ok => exact ⟨lost, h.mainStep hstep⟩
  | complete t operation result => exact h.complete hstep
  | drop operation => exact ⟨lost + 1, h.drop hstep⟩
  | thread t ok => exact ⟨lost, h.advance hstep⟩
  | sender ok => exact ⟨lost, h.advanceSender hstep⟩
  | finish => exact ⟨lost, h.finishSender hstep⟩

end Release

/-- Whatever the order of the completions and their results, with any number of threads, with
and without a limit of the rate, the object is removed and freed at most once and not before
the last of its operations has completed. -/
theorem connection_released_once (cfg : Config) {as : List Action} {s : State}
    (hrun : RunsTo (step cfg) Always (.start cfg) as s) : s.ReleasedOnce := by
  obtain ⟨lost, h⟩ := hrun.invariant (fun s => ∃ lost, ReleaseOk cfg lost s)
    ⟨0, .start cfg⟩ fun t a u h _ hstep => h.elim fun _ h => h.step hstep
  exact h.releasedOnce

/-- The connect fails, and the error path removes the object. -/
def refusedConnect : List Action :=
  [.main true, .main true, .complete 0 .opConnect none] ++ List.replicate 3 (.thread 0 true)

theorem connection_released_once_refusedConnect :
    ∃ s, RunsTo (step defaults) Always (.start defaults) refusedConnect s ∧ s.removals = 1 ∧
      s.ReleasedOnce := by
  have hrun : RunsTo (step defaults) Always (.start defaults) refusedConnect _ :=
    RunsTo.of_isSome (by decide)
  exact ⟨_, hrun, by decide, connection_released_once defaults hrun⟩

end MiscProjects.IocpClient
