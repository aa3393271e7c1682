import MiscProjects.IocpServer.Release
import MiscProjects.Library.Tally

/-!
# The throttle of the sends

`gOutstandingSends` is compared with `gMaxSends` before a send is posted.  It is
lowered when a send has completed, except on the error path of `HandleIo`; in a run
in which no send completes with an error it is the number of the sends in flight.
-/

namespace MiscProjects.IocpServer

open Function (update update_self update_of_ne)
open Runs Tally

/-! ## What is counted -/

def Request.isSend : Request → Bool
  | .wsaSend _ => true
  | .acceptEx _ _ _ | .wsaRecv _ _ => false

/-- The sends among the requests of a buffer. -/
def sends (l : List Request) : ℤ :=
  l.countP Request.isSend

def State.sendsInFlight (s : State) : ℤ :=
  tally sends s.requests s.buffers

/-- The object has been got and not been put back. -/
def State.Live (s : State) (o : SocketPtr) : Prop :=
  s.frees o < s.gets o

instance (s : State) (o : SocketPtr) : Decidable (s.Live o) :=
  inferInstanceAs (Decidable (_ < _))

/-- The sum of `OutstandingSend` over the connections. -/
def State.liveSends (s : State) : ℤ :=
  ∑ o ∈ (Finset.range s.sockets).filter s.Live, (s.socket o).outstandingSend

/-- A send has completed, and `OutstandingSend` is still to be lowered. -/
def Pc.sent : Pc → ℤ
  | .writeDone _ _ => 1
  | _ => 0

/-- A send has completed, and only `gOutstandingSends` is still to be lowered. -/
def Pc.sentGlobal : Pc → ℤ
  | .writeDoneGlobal _ _ => 1
  | _ => 0

/-- Neither counter is about to be lowered by a thread. -/
def State.Counted (cfg : Config) (s : State) : Prop :=
  ∀ t < cfg.threads, (s.thread t).sent = 0 ∧ (s.thread t).sentGlobal = 0

/-- A send completes with an error. -/
def sendFails (s : State) : Action → Bool
  | .complete _ buf i none =>
      match (s.requests buf)[i]? with
      | some (.wsaSend _) => true
      | _ => false
  | _ => false

/-- The object that the thread is about to clear. -/
def Pc.clears : Pc → Option SocketPtr
  | .freeSocketObj o _ | .pushSocketObj o _ => some o
  | _ => none

section Throttle
variable {cfg : Config} {s s' : State} {g : Ghost} {t : ThreadId} {b : BufferPtr} {o : SocketPtr}
  {h i k : ℕ} {ok : Bool} {pc pc' : Pc} {result : Result} {tail : Tail}

/-! ## Completions -/

/-- What a thread does first with the completion of a request. -/
def Pc.Handles (b : BufferPtr) (pc : Pc) : Request → Result → Prop
  | .acceptEx _ _ _, none => pc = .acceptFailed b
  | .acceptEx l _ _, some data => pc = .acceptDone l b data.length
  | .wsaRecv _ _, none => ∃ o, pc = .readFailed o b
  | .wsaRecv _ _, some data => ∃ o, pc = .readDone o b data.length
  | .wsaSend _, none => ∃ o, pc = .writeFailed o b
  | .wsaSend _, some _ => ∃ o, pc = .writeDone o b

/-- The fields that only change when a thread handles the completion. -/
structure SameCounters (s s' : State) : Prop where
  gOutstandingSends : s'.gOutstandingSends = s.gOutstandingSends
  socket : s'.socket = s.socket
  sockets : s'.sockets = s.sockets
  buffers : s'.buffers = s.buffers
  listener : s'.listener = s.listener
  main : s'.main = s.main

variable {x : State} {so : SocketObj} {l : ListenPtr} {obj : Option BufferPtr}

theorem handleIo_acceptFailed (hop : (s.buffer b).operation = .opAccept) :
    handleIo s b none (.inl l) = some (.acceptFailed b) := by
  simp [handleIo, hop]

theorem Owned.key_of_work {u : List (List UInt8)} {c : Counts} (hown : Owned s g)
    (hwork : (g.place b).work = some (o, h, u, c)) : s.key h = some o := by
  have hkeyed := hown.memory.sockets.keyed o
  rw [hown.memory.agreed.phase_of_work hwork] at hkeyed
  exact hkeyed

theorem Owned.complete_cases (hown : Owned s g)
    (hstep : IocpServer.complete s t b i result = some s') :
    ∃ request pc, (s.requests b)[i]? = some request ∧ s.requests b = [request] ∧
      s'.requests = update s.requests b [] ∧ s.thread t = .idle ∧
      s'.thread = update s.thread t pc ∧ pc.Handles b request result ∧ SameCounters s s' := by
  unfold IocpServer.complete at hstep
  split at hstep
  case h_2 => cases hstep
  case h_1 request hidle hrequest =>
    have hdescribes := hown.memory.buffers.describes b
    have hrequests := hown.memory.buffers.requests b
    cases hb : g.place b with
    | listed l w =>
        cases w with
        | inFlight h len client =>
            obtain ⟨rfl, herase⟩ := hown.request_eq hrequest (by rw [hb]; rfl)
            rw [hb] at hdescribes hrequests
            rw [herase] at hstep
            cases result with
            | none =>
                simp only [arrive, handleIo_acceptFailed, hdescribes.2.1, Option.map_some,
                  Option.some.injEq] at hstep
                subst hstep
                exact ⟨_, _, hrequest, hrequests, rfl, hidle, rfl, rfl, rfl, rfl, rfl, rfl, rfl,
                  rfl⟩
            | some data =>
                simp only [arrive] at hstep
                split at hstep
                case h_1 => cases hstep
                case h_2 s₁ key n harrive =>
                  split at harrive
                  case isFalse => cases harrive
                  case isTrue =>
                    simp only [Option.some.injEq, Prod.mk.injEq] at harrive
                    obtain ⟨rfl, rfl, rfl⟩ := harrive
                    simp only [handleIo_accept, receive_operation, hdescribes.2.1,
                      Option.map_some, Option.some.injEq] at hstep
                    subst hstep
                    exact ⟨_, _, hrequest, hrequests, rfl, hidle, rfl, rfl, rfl, rfl, rfl,
                      rfl, rfl, rfl⟩
        | _ =>
            rw [hrequests, hb] at hrequest
            cases hrequest
    | receiving o h len =>
        obtain ⟨rfl, herase⟩ := hown.request_eq hrequest (by rw [hb]; rfl)
        rw [hb] at hdescribes hrequests
        have hop : (s.buffer b).operation = .opRead := hdescribes
        rw [herase] at hstep
        have hkey := hown.key_of_work (b := b) (o := o) (by rw [hb]; rfl)
        cases result with
        | none =>
            simp only [arrive, hkey, Option.map_some, handleIo_readFailed, hop,
              Option.some.injEq] at hstep
            subst hstep
            exact ⟨_, _, hrequest, hrequests, rfl, hidle, rfl, ⟨o, rfl⟩, rfl, rfl, rfl, rfl, rfl,
              rfl⟩
        | some data =>
            simp only [arrive, hkey, Option.map_some] at hstep
            split at hstep
            case h_1 => cases hstep
            case h_2 s₁ key n harrive =>
              split at harrive
              case isFalse => cases harrive
              case isTrue =>
                simp only [Option.some.injEq, Prod.mk.injEq] at harrive
                obtain ⟨rfl, rfl, rfl⟩ := harrive
                simp only [handleIo_read, receive_operation, hop, Option.map_some,
                  Option.some.injEq] at hstep
                subst hstep
                exact ⟨_, _, hrequest, hrequests, rfl, hidle, rfl, ⟨o, rfl⟩, rfl, rfl, rfl,
                  rfl, rfl, rfl⟩
    | sending o h =>
        obtain ⟨rfl, herase⟩ := hown.request_eq hrequest (by rw [hb]; rfl)
        rw [hb] at hdescribes hrequests
        have hop : (s.buffer b).operation = .opWrite := hdescribes
        rw [herase] at hstep
        have hkey := hown.key_of_work (b := b) (o := o) (by rw [hb]; rfl)
        cases result with
        | none =>
            simp only [arrive, hkey, Option.map_some, handleIo_writeFailed, hop,
              Option.some.injEq] at hstep
            subst hstep
            exact ⟨_, _, hrequest, hrequests, rfl, hidle, rfl, ⟨o, rfl⟩, rfl, rfl, rfl, rfl, rfl,
              rfl⟩
        | some data =>
            simp only [arrive, hkey, Option.map_some, handleIo_write, hop, Option.some.injEq]
              at hstep
            subst hstep
            exact ⟨_, _, hrequest, hrequests, rfl, hidle, rfl, ⟨o, rfl⟩, rfl, rfl, rfl, rfl, rfl,
              rfl⟩
    | _ =>
        rw [hrequests, hb] at hrequest
        cases hrequest

/-! ## Steps that no send is concerned in -/

/-- The sends and their counters are the same. -/
structure SameSends (s s' : State) : Prop where
  gOutstandingSends : s'.gOutstandingSends = s.gOutstandingSends
  requests : ∀ b, sends (s'.requests b) = sends (s.requests b)
  socket : ∀ o, (s'.socket o).outstandingSend = (s.socket o).outstandingSend
  sockets : s.sockets ≤ s'.sockets
  buffers : s.buffers ≤ s'.buffers
  thread : s'.thread = s.thread

theorem SameSends.refl : SameSends s s := ⟨rfl, fun _ => rfl, fun _ => rfl, le_rfl, le_rfl, rfl⟩

theorem sends_append {l l' : List Request} : sends (l ++ l') = sends l + sends l' := by
  simp [sends]

theorem sameSends_setSocket
    (hso : so.outstandingSend = (s.socket o).outstandingSend) : SameSends s (s.setSocket o so) := by
  refine ⟨rfl, fun _ => rfl, fun o' => ?_, le_rfl, le_rfl, rfl⟩
  simp only [State.setSocket]
  rcases eq_or_ne o' o with rfl | hne
  · rw [update_self, hso]
  · rw [update_of_ne hne]

theorem sameSends_closesocket {h : Option ℕ} : SameSends s (closesocket s h) := by
  cases h <;> exact ⟨rfl, fun _ => rfl, fun _ => rfl, le_rfl, le_rfl, rfl⟩

theorem sameSends_removePendingAccept
    (h : removePendingAccept s l b = some s') : SameSends s s' := by
  simp only [removePendingAccept] at h
  split at h
  case h_1 => cases h
  all_goals
    obtain rfl := Option.some.inj h
    exact ⟨rfl, fun _ => rfl, fun _ => rfl, le_rfl, le_rfl, rfl⟩

theorem sameSends_enqueue (h : enqueuePendingOperation s b = some s') : SameSends s s' := by
  simp only [enqueuePendingOperation] at h
  split at h
  case h_1 => cases h
  case h_2 sock hsock =>
    have hsame : SameSends s (s.setSocket sock
        { s.socket sock with pendingSend := (s.socket sock).pendingSend + 1 }) :=
      sameSends_setSocket rfl
    split at h
    all_goals
      obtain rfl := Option.some.inj h
      exact ⟨rfl, fun _ => rfl, hsame.socket, le_rfl, le_rfl, rfl⟩

theorem sameSends_dequeue {head : Option BufferPtr}
    (h : dequeuePendingOperation s = some (head, s')) : SameSends s s' := by
  simp only [dequeuePendingOperation] at h
  split at h
  case h_1 =>
    simp only [Option.some.injEq, Prod.mk.injEq] at h
    exact h.2 ▸ .refl
  case h_2 b hhead =>
    split at h
    case h_1 => cases h
    case h_2 sock hsock =>
      simp only [Option.some.injEq, Prod.mk.injEq] at h
      have hsame : SameSends s (s.setSocket sock
          { s.socket sock with pendingSend := (s.socket sock).pendingSend - 1 }) :=
        sameSends_setSocket rfl
      exact h.2 ▸ ⟨rfl, fun _ => rfl, hsame.socket, le_rfl, le_rfl, rfl⟩

theorem sameSends_getSocketObj {sock : Option ℕ} {obj : Option SocketPtr}
    (hfresh : (s.socket s.sockets).outstandingSend = 0)
    (h : getSocketObj s sock ok = (obj, s')) : SameSends s s' := by
  simp only [getSocketObj] at h
  split at h
  case h_1 =>
    split at h
    case isTrue =>
      simp only [Prod.mk.injEq] at h
      have hsame : SameSends s (s.setSocket s.sockets { SocketObj.zeroed with s := sock }) :=
        sameSends_setSocket hfresh.symm
      exact h.2 ▸ ⟨rfl, fun _ => rfl, hsame.socket, Nat.le_succ _, le_rfl, rfl⟩
    case isFalse =>
      simp only [Prod.mk.injEq] at h
      exact h.2 ▸ .refl
  case h_2 sockobj hhead =>
    simp only [Prod.mk.injEq] at h
    have hsame : SameSends s (s.setSocket sockobj
        { s.socket sockobj with next := none, s := sock }) := sameSends_setSocket rfl
    exact h.2 ▸ ⟨rfl, fun _ => rfl, hsame.socket, le_rfl, le_rfl, rfl⟩

theorem sends_update_append {r : BufferPtr → List Request} {x : Request} (hx : x.isSend = false)
    (b b' : BufferPtr) : sends (update r b (r b ++ [x]) b') = sends (r b') := by
  rcases eq_or_ne b' b with rfl | hne
  · rw [update_self, sends_append]
    simp [sends, hx]
  · rw [update_of_ne hne]

theorem sameSends_postRecv : SameSends s (IocpServer.postRecv s o b ok) := by
  unfold IocpServer.postRecv
  cases hs : (s.socket o).s with
  | none =>
      simp only [State.setBuffer, hs]
      exact ⟨rfl, fun _ => rfl, fun _ => rfl, le_rfl, le_rfl, rfl⟩
  | some h =>
      simp only [State.setBuffer, hs]
      split
      case isFalse => exact ⟨rfl, fun _ => rfl, fun _ => rfl, le_rfl, le_rfl, rfl⟩
      case isTrue =>
        have hsame : SameSends s (s.setSocket o { s.socket o with
              s := some h, outstandingRecv := (s.socket o).outstandingRecv + 1 }) :=
          sameSends_setSocket rfl
        exact ⟨rfl, sends_update_append rfl b, hsame.socket, le_rfl, le_rfl, rfl⟩

theorem sameSends_getBufferObj {buflen : ℕ}
    (h : getBufferObj s buflen ok = (obj, s')) : SameSends s s' := by
  simp only [getBufferObj] at h
  split at h
  case h_1 =>
    split at h
    all_goals
      simp only [Prod.mk.injEq] at h
      obtain ⟨-, rfl⟩ := h
    · exact ⟨rfl, fun _ => rfl, fun _ => rfl, le_rfl, Nat.le_succ _, rfl⟩
    · exact .refl
  case h_2 =>
    simp only [Prod.mk.injEq] at h
    obtain ⟨-, rfl⟩ := h
    exact ⟨rfl, fun _ => rfl, fun _ => rfl, le_rfl, le_rfl, rfl⟩

theorem SameSends.trans {s'' : State} (h : SameSends s s') (h' : SameSends s' s'') :
    SameSends s s'' :=
  ⟨h'.gOutstandingSends.trans h.gOutstandingSends, fun b => (h'.requests b).trans (h.requests b),
    fun o => (h'.socket o).trans (h.socket o), h.sockets.trans h'.sockets,
    h.buffers.trans h'.buffers, h'.thread.trans h.thread⟩

theorem sameSends_closeStale {stale : BufferPtr → Bool} {fuel : ℕ}
    (h : closeStale stale fuel obj s = some s') : SameSends s s' := by
  induction fuel generalizing obj s with
  | zero => cases h
  | succ fuel ih =>
      cases obj with
      | none => exact Option.some.inj h ▸ .refl
      | some b =>
          simp only [closeStale] at h
          refine SameSends.trans ?_ (ih h)
          split
          case isTrue =>
            have hclose := sameSends_closesocket (s := s) (h := (s.buffer b).sclient)
            exact ⟨hclose.gOutstandingSends, hclose.requests, hclose.socket, hclose.sockets,
              hclose.buffers, hclose.thread⟩
          case isFalse => exact .refl

/-! ## A step of a completion thread -/

/-- The thread has no send to account for. -/
def Pc.quiet : Pc → Bool
  | .writeDone _ _ | .writeDoneGlobal _ _ | .writeFailed _ _ | .freeSocketObj _ _
  | .pushSocketObj _ _ => false
  | _ => true

theorem quiet_tail : tail.pc.quiet = true := by
  obtain ⟨_ | o, bCleanup⟩ := tail <;> rfl

theorem quiet_cleanup {bCleanup : Bool} : (cleanup o bCleanup).quiet = true := by
  cases bCleanup <;> rfl

theorem quiet_afterFree {after : AfterFree} : after.pc.quiet = true := by
  cases after with
  | tail k => exact quiet_tail
  | _ => rfl

/-- The counters are right but for what the threads still have to lower; no thread is on
the error path of a send, and an object that is cleared has no send outstanding. -/
structure SendsOk (cfg : Config) (s : State) : Prop where
  inside : ∀ t, cfg.threads ≤ t → s.thread t = .idle
  healthy : ∀ t o b, s.thread t ≠ .writeFailed o b
  drained : ∀ t o, (s.thread t).clears = some o → (s.socket o).outstandingSend = 0
  global : ∀ m, s.buffers ≤ m → s.gOutstandingSends =
    tally sends s.requests m + tally Pc.sent s.thread cfg.threads +
      tally Pc.sentGlobal s.thread cfg.threads
  sockets : ∀ n m, s.sockets ≤ n → s.buffers ≤ m →
    tally SocketObj.outstandingSend s.socket n =
      tally sends s.requests m + tally Pc.sent s.thread cfg.threads

theorem SendsOk.start (cfg : Config) : SendsOk cfg (State.start cfg) where
  inside _ _ := rfl
  healthy _ _ _ := by simp [State.start]
  drained _ _ h := by cases h
  global m _ := by
    have hrequests : tally sends (State.start cfg).requests m = 0 := tally_eq_zero fun _ _ => rfl
    have hsent : tally Pc.sent (State.start cfg).thread cfg.threads = 0 :=
      tally_eq_zero fun _ _ => rfl
    have hglobal : tally Pc.sentGlobal (State.start cfg).thread cfg.threads = 0 :=
      tally_eq_zero fun _ _ => rfl
    rw [hrequests, hsent, hglobal]
    rfl
  sockets n m _ _ := by
    have hsockets : tally SocketObj.outstandingSend (State.start cfg).socket n = 0 :=
      tally_eq_zero fun _ _ => rfl
    have hrequests : tally sends (State.start cfg).requests m = 0 := tally_eq_zero fun _ _ => rfl
    have hsent : tally Pc.sent (State.start cfg).thread cfg.threads = 0 :=
      tally_eq_zero fun _ _ => rfl
    rw [hsockets, hrequests, hsent]
    rfl

theorem SendsOk.same (h : SendsOk cfg s) (hsame : SameSends s s') : SendsOk cfg s' where
  inside t ht := by rw [hsame.thread]; exact h.inside t ht
  healthy t := by rw [hsame.thread]; exact h.healthy t
  drained t o hclears := by
    rw [hsame.thread] at hclears
    rw [hsame.socket]
    exact h.drained t o hclears
  global m hm := by
    rw [hsame.gOutstandingSends, hsame.thread, tally_congr fun b _ => hsame.requests b]
    exact h.global m (hsame.buffers.trans hm)
  sockets n m hn hm := by
    rw [hsame.thread, tally_congr fun b _ => hsame.requests b,
      tally_congr fun o _ => hsame.socket o]
    exact h.sockets n m (hsame.sockets.trans hn) (hsame.buffers.trans hm)

theorem SendsOk.lt (h : SendsOk cfg s) (ht : s.thread t ≠ .idle) : t < cfg.threads :=
  not_le.mp fun hle => ht (h.inside t hle)

theorem Owned.holder_of_clears (hown : Owned s g) (hclears : (s.thread t).clears = some o) :
    (g.phase o).holder = some (.thread t) := by
  have hat := hown.threads.at_pc t
  cases hpc : s.thread t with
  | freeSocketObj o' buf =>
      rw [hpc] at hclears hat
      obtain rfl : o' = o := Option.some.inj hclears
      rcases hat.1 with ⟨u, c, hworks⟩ | hshut
      · obtain ⟨h, hphase⟩ := works_iff.mp hworks
        rw [hphase]
        rfl
      · rw [shut_iff.mp hshut]
        rfl
  | pushSocketObj o' buf =>
      rw [hpc] at hclears hat
      obtain rfl : o' = o := Option.some.inj hclears
      rw [shut_iff.mp hat.1]
      rfl
  | _ =>
      rw [hpc] at hclears
      cases hclears

theorem SendsOk.drained_update (h : SendsOk cfg s) (hown : Owned s g)
    (hholder : (g.phase o).holder = some (.thread t)) (hpc : pc.clears = none) (t' : ThreadId)
    (o' : SocketPtr) (hclears : (update s.thread t pc t').clears = some o') :
    (update s.socket o so o').outstandingSend = 0 := by
  rcases eq_or_ne t' t with rfl | hne
  · rw [update_self, hpc] at hclears
    cases hclears
  · rw [update_of_ne hne] at hclears
    have hother : o' ≠ o := by
      rintro rfl
      rw [hown.holder_of_clears hclears, Option.some.injEq, Holder.thread.injEq] at hholder
      exact hne hholder
    rw [update_of_ne hother]
    exact h.drained t' o' hclears

/-- A thread goes on and changes the counters, by as much as the sends change that they
count. -/
theorem SendsOk.change (h : SendsOk cfg s) (ht : t < cfg.threads) (posted raised : ℤ)
    (hthread : s'.thread = update s.thread t pc) (hhealthy : ∀ o b, pc ≠ .writeFailed o b)
    (hdrained : ∀ t' o', (update s.thread t pc t').clears = some o' →
      (s'.socket o').outstandingSend = 0)
    (hbuffers : s.buffers ≤ s'.buffers) (hsockets : s.sockets ≤ s'.sockets)
    (hposted : ∀ m, s.buffers ≤ m → tally sends s'.requests m = tally sends s.requests m + posted)
    (hraised : ∀ n, s.sockets ≤ n → tally SocketObj.outstandingSend s'.socket n =
      tally SocketObj.outstandingSend s.socket n + raised)
    (hglobal : s'.gOutstandingSends = s.gOutstandingSends + posted +
      (pc.sent - (s.thread t).sent) + (pc.sentGlobal - (s.thread t).sentGlobal))
    (hsent : raised = posted + (pc.sent - (s.thread t).sent)) : SendsOk cfg s' where
  inside t' ht' := by
    rw [hthread, update_of_ne (ht.trans_le ht').ne']
    exact h.inside t' ht'
  healthy t' := by
    rw [hthread]
    rcases eq_or_ne t' t with rfl | hne
    · rwa [update_self]
    · rw [update_of_ne hne]
      exact h.healthy t'
  drained t' o' hclears := by
    rw [hthread] at hclears
    exact hdrained t' o' hclears
  global m hm := by
    have hold := h.global m (hbuffers.trans hm)
    have hrequests := hposted m (hbuffers.trans hm)
    rw [hthread, tally_update ht, tally_update ht]
    omega
  sockets n m hn hm := by
    have hold := h.sockets n m (hsockets.trans hn) (hbuffers.trans hm)
    have hrequests := hposted m (hbuffers.trans hm)
    have hobjects := hraised n (hsockets.trans hn)
    rw [hthread, tally_update ht]
    omega

theorem SendsOk.goto (h : SendsOk cfg s) (ht : t < cfg.threads)
    (hsent : pc.sent = (s.thread t).sent) (hglobal : pc.sentGlobal = (s.thread t).sentGlobal)
    (hhealthy : ∀ o b, pc ≠ .writeFailed o b)
    (hdrained : ∀ o, pc.clears = some o → (s.socket o).outstandingSend = 0) :
    SendsOk cfg (s.goto t pc) := by
  refine h.change ht 0 0 rfl hhealthy ?_ le_rfl le_rfl (fun m _ => (add_zero _).symm)
    (fun n _ => (add_zero _).symm) ?_ ?_
  · intro t' o hclears
    rcases eq_or_ne t' t with rfl | hne
    · rw [update_self] at hclears
      exact hdrained o hclears
    · rw [update_of_ne hne] at hclears
      exact h.drained t' o hclears
  · change s.gOutstandingSends = _
    rw [hsent, hglobal]
    omega
  · rw [hsent]
    omega

theorem SendsOk.gotoQuiet (h : SendsOk cfg s) (ht : t < cfg.threads)
    (hold : (s.thread t).sent = 0 ∧ (s.thread t).sentGlobal = 0) (hquiet : pc.quiet = true) :
    SendsOk cfg (s.goto t pc) := by
  have hnew : pc.sent = 0 ∧ pc.sentGlobal = 0 ∧ pc.clears = none ∧
      ∀ o b, pc ≠ .writeFailed o b := by
    cases pc with
    | writeDone | writeDoneGlobal | writeFailed | freeSocketObj | pushSocketObj => cases hquiet
    | _ => exact ⟨rfl, rfl, rfl, by simp⟩
  refine h.goto ht (hnew.1.trans hold.1.symm) (hnew.2.1.trans hold.2.symm) hnew.2.2.2 ?_
  rw [hnew.2.2.1]
  simp

theorem SendsOk.drained_keep (h : SendsOk cfg s) (hpc : pc.clears = none) (t' : ThreadId)
    (o' : SocketPtr) (hclears : (update s.thread t pc t').clears = some o') :
    (s.socket o').outstandingSend = 0 := by
  rcases eq_or_ne t' t with rfl | hne
  · rw [update_self, hpc] at hclears
    cases hclears
  · rw [update_of_ne hne] at hclears
    exact h.drained t' o' hclears

theorem SendsOk.writeDone (h : SendsOk cfg s) (hown : Owned s g)
    (hpc : s.thread t = .writeDone o b) : SendsOk cfg ((s.setSocket o { s.socket o with
      outstandingSend := (s.socket o).outstandingSend - 1 }).goto t (.writeDoneGlobal o b)) := by
  have hat := hown.at_pc hpc
  obtain ⟨-, hlt, hholder⟩ := hown.counts_of_works hat.1
  refine h.change (h.lt (by simp [hpc])) 0 (-1) rfl (by simp)
    (h.drained_update hown hholder rfl) le_rfl le_rfl (fun m _ => (add_zero _).symm)
    (fun n hn => ?_) ?_ ?_
  · change tally SocketObj.outstandingSend (update s.socket o _) n = _
    rw [tally_update (hlt.trans_le hn)]
    simp only
    omega
  · simp [hpc, Pc.sent, Pc.sentGlobal, State.goto, State.setSocket]
  · simp [hpc, Pc.sent]

theorem SendsOk.writeDoneGlobal (h : SendsOk cfg s) (hpc : s.thread t = .writeDoneGlobal o b) :
    SendsOk cfg ({ s with gOutstandingSends := s.gOutstandingSends - 1 }.goto t
      (.testClosing o b)) := by
  refine h.change (h.lt (by simp [hpc])) 0 0 rfl (by simp) (h.drained_keep rfl) le_rfl le_rfl
    (fun m _ => (add_zero _).symm) (fun n _ => (add_zero _).symm) ?_ ?_
  · simp [hpc, Pc.sent, Pc.sentGlobal, State.goto]
    omega
  · simp [hpc, Pc.sent]

theorem Owned.lt_buffers (hown : Owned s g) (hb : g.place b ≠ .fresh) : b < s.buffers :=
  not_le.mp fun hle => hb ((hown.memory.buffers.fresh b).mpr hle)

theorem Owned.postSend_cases (hown : Owned s g) (hpc : s.thread t = .postSend b tail) :
    ∃ o h data, (s.buffer b).sock = some o ∧ (s.socket o).s = some h ∧ o < s.sockets ∧
      (g.phase o).holder = some (.thread t) ∧ b < s.buffers ∧ (s.buffer b).bytes = data ∧
      s.requests b = [] := by
  obtain ⟨⟨o, data, hplace, hworks⟩, -⟩ := hown.at_pc hpc
  rw [dequeued_iff] at hplace
  obtain ⟨h, hphase⟩ := works_iff.mp hworks
  obtain ⟨-, hlt, hholder⟩ := hown.counts_of_works hworks
  have hdescribes := hown.memory.buffers.describes b
  have hrequests := hown.memory.buffers.requests b
  rw [hplace] at hdescribes hrequests
  exact ⟨o, h, data, hdescribes.1, (hown.memory.describes hphase).1, hlt, hholder,
    hown.lt_buffers (by simp [hplace]), hdescribes.2, hrequests⟩

theorem SendsOk.postSend (h : SendsOk cfg s) (hown : Owned s g)
    (hpc : s.thread t = .postSend b tail) (hstep : advance s cfg t ok = some s') :
    SendsOk cfg s' := by
  obtain ⟨o, k, data, hsock, hs, hlt, hholder, hb, -, -⟩ := hown.postSend_cases hpc
  have ht : t < cfg.threads := h.lt (by simp [hpc])
  simp only [advance, hpc, hsock, IocpServer.postSend, State.setBuffer, hs] at hstep
  split at hstep
  case h_1 s₁ hposted =>
    split at hposted
    case isFalse => cases hposted
    case isTrue =>
      simp only [Prod.mk.injEq, true_and] at hposted
      obtain rfl := Option.some.inj hstep
      subst hposted
      refine h.change ht 1 1 rfl (by simp) (h.drained_update hown hholder rfl) le_rfl le_rfl
        (fun m hm => ?_) (fun n hn => ?_) ?_ ?_
      · change tally sends (update s.requests b _) m = _
        rw [tally_update (hb.trans_le hm), sends_append]
        simp only [sends, Request.isSend, List.countP_singleton, if_true]
        omega
      · change tally SocketObj.outstandingSend (update s.socket o _) n = _
        rw [tally_update (hlt.trans_le hn)]
        simp only
        omega
      · simp [hpc, Pc.sent, Pc.sentGlobal, State.goto, State.setSocket]
      · simp [hpc, Pc.sent]
  case h_2 s₁ hposted =>
    split at hposted
    case isTrue => cases hposted
    case isFalse =>
      simp only [Prod.mk.injEq, true_and] at hposted
      obtain rfl := Option.some.inj hstep
      subst hposted
      refine SendsOk.gotoQuiet
        (h.same ⟨rfl, fun _ => rfl, fun _ => rfl, le_rfl, le_rfl, rfl⟩) ht ?_ rfl
      exact ⟨by simp [hpc, Pc.sent], by simp [hpc, Pc.sentGlobal]⟩

theorem SendsOk.pushSocketObj {buf : Option BufferPtr} (h : SendsOk cfg s)
    (hpc : s.thread t = .pushSocketObj o buf) :
    SendsOk cfg ((IocpServer.pushSocketObj s o).goto t (afterFreeSocket buf)) := by
  have hzero := h.drained t o (by rw [hpc]; rfl)
  have hsame : SameSends s (IocpServer.pushSocketObj s o) := by
    have hset : SameSends s (s.setSocket o { SocketObj.zeroed with next := s.gFreeSocketList }) :=
      sameSends_setSocket hzero.symm
    exact ⟨rfl, fun _ => rfl, hset.socket, le_rfl, le_rfl, rfl⟩
  have hold : ((IocpServer.pushSocketObj s o).thread t).sent = 0 ∧
      ((IocpServer.pushSocketObj s o).thread t).sentGlobal = 0 := by
    rw [hsame.thread, hpc]
    exact ⟨rfl, rfl⟩
  refine (h.same hsame).gotoQuiet (h.lt (by simp [hpc])) hold ?_
  cases buf <;> rfl

theorem SendsOk.onward (h : SendsOk cfg s) (hpc : s.thread t = pc)
    (hquiet : pc.quiet = true) (hidle : pc ≠ .idle) (hsame : SameSends s x)
    (hquiet' : pc'.quiet = true) : SendsOk cfg (x.goto t pc') := by
  refine (h.same hsame).gotoQuiet (h.lt (by rwa [hpc])) ?_ hquiet'
  rw [hsame.thread, hpc]
  cases pc with
  | writeDone | writeDoneGlobal => cases hquiet
  | _ => exact ⟨rfl, rfl⟩

theorem SendsOk.toClear (h : SendsOk cfg s) (hpc : s.thread t = pc)
    (hold : pc.sent = 0 ∧ pc.sentGlobal = 0) (hidle : pc ≠ .idle) (hsame : SameSends s x)
    (hnew : pc'.sent = 0 ∧ pc'.sentGlobal = 0) (hhealthy : ∀ o b, pc' ≠ .writeFailed o b)
    (hclears : pc'.clears = some o) (hsend : (s.socket o).outstandingSend = 0) :
    SendsOk cfg (x.goto t pc') := by
  have hpc' : x.thread t = pc := by rw [hsame.thread, hpc]
  refine (h.same hsame).goto (h.lt (by rwa [hpc])) ?_ ?_ hhealthy fun o' hclears' => ?_
  · rw [hpc', hold.1, hnew.1]
  · rw [hpc', hold.2, hnew.2]
  · obtain rfl : o = o' := Option.some.inj (hclears.symm.trans hclears')
    rw [hsame.socket]
    exact hsend

theorem sameSends_closeSocket {h : Option ℕ} : SameSends s
    ((closesocket s h).setSocket o { (closesocket s h).socket o with s := none }) :=
  sameSends_closesocket.trans (sameSends_setSocket rfl)

theorem SendsOk.advance (h : SendsOk cfg s) (hown : Owned s g)
    (hstep : IocpServer.advance s cfg t ok = some s') : SendsOk cfg s' := by
  cases hpc : s.thread t
  case idle => simp [IocpServer.advance, hpc] at hstep
  case writeFailed o b => exact absurd hpc (h.healthy t o b)
  case postSend b tail => exact h.postSend hown hpc hstep
  case newSocketObj l b n =>
    have hfresh : (s.socket s.sockets).outstandingSend = 0 := by
      have hdescribes := hown.memory.sockets.describes s.sockets
      rw [(hown.memory.sockets.fresh s.sockets).mpr le_rfl] at hdescribes
      exact congrArg Counts.outstandingSend hdescribes
    simp only [IocpServer.advance, hpc] at hstep
    split at hstep
    all_goals
      rename_i hget
      exact Option.some.inj hstep ▸ h.onward hpc rfl (by simp)
        (sameSends_getSocketObj hfresh hget) rfl
  all_goals simp only [IocpServer.advance, hpc, Option.some.injEq] at hstep
  all_goals try subst hstep
  case writeDone o b => exact h.writeDone hown hpc
  case writeDoneGlobal o b =>
    have hglobal := h.writeDoneGlobal hpc
    exact hglobal.same ⟨rfl, fun _ => rfl, fun _ => rfl, le_rfl, le_rfl, rfl⟩
  case pushSocketObj o buf => exact h.pushSocketObj hpc
  case readFailedTest o b =>
    split
    case isTrue hsend =>
      exact h.toClear hpc ⟨rfl, rfl⟩ (by simp) .refl ⟨rfl, rfl⟩ (by simp) rfl hsend
    case isFalse => exact h.onward hpc rfl (by simp) .refl rfl
  case writeFailedTest o b =>
    split
    case isTrue =>
      obtain ⟨⟨u, hworks⟩, -⟩ := hown.at_pc hpc
      have hcounts := (hown.counts_of_works hworks).1
      exact h.toClear hpc ⟨rfl, rfl⟩ (by simp) .refl ⟨rfl, rfl⟩ (by simp) rfl
        (congrArg Counts.outstandingSend hcounts)
    case isFalse => exact h.onward hpc rfl (by simp) .refl rfl
  case closeSocket o =>
    obtain ⟨u, hworks⟩ := hown.at_pc hpc
    have hcounts := (hown.counts_of_works hworks).1
    exact h.toClear hpc ⟨rfl, rfl⟩ (by simp) sameSends_closeSocket ⟨rfl, rfl⟩ (by simp)
      rfl (congrArg Counts.outstandingSend hcounts)
  case freeSocketObj o buf =>
    exact h.toClear hpc ⟨rfl, rfl⟩ (by simp) sameSends_closeSocket ⟨rfl, rfl⟩ (by simp)
      rfl (h.drained t o (by rw [hpc]; rfl))
  case readFailed o b | readDone o b n =>
    refine h.onward hpc rfl (by simp) (sameSends_setSocket rfl) ?_
    split <;> rfl
  case setClosing o b => exact h.onward hpc rfl (by simp) (sameSends_setSocket rfl) rfl
  case acceptFailed b | closeClient l b =>
    have hclose := sameSends_closesocket (s := s) (h := (s.buffer b).sclient)
    exact h.onward hpc rfl (by simp) ⟨hclose.gOutstandingSends, hclose.requests,
      hclose.socket, hclose.sockets, hclose.buffers, hclose.thread⟩ rfl
  case acceptDone l b n | repost l | signalRepost l =>
    exact h.onward hpc rfl (by simp)
      ⟨rfl, fun _ => rfl, fun _ => rfl, le_rfl, le_rfl, rfl⟩ rfl
  case removeAccept l b n =>
    obtain ⟨x, hx, rfl⟩ := Option.map_eq_some_iff.mp hstep
    exact h.onward hpc rfl (by simp) (sameSends_removePendingAccept hx) rfl
  case associate l b n o =>
    split at hstep
    case h_1 => exact Option.some.inj hstep ▸ h.onward hpc rfl (by simp) .refl rfl
    case h_2 k hs =>
      split at hstep
      · exact Option.some.inj hstep ▸ h.onward hpc rfl (by simp)
          ⟨rfl, fun _ => rfl, fun _ => rfl, le_rfl, le_rfl, rfl⟩ rfl
      · exact Option.some.inj hstep ▸ h.onward hpc rfl (by simp) .refl rfl
  case testLast o => exact h.onward hpc rfl (by simp) .refl rfl
  case testClosing o b =>
    refine h.onward hpc rfl (by simp) .refl ?_
    split <;> rfl
  case postRecv o b =>
    have hrecv : SameSends (s.setBuffer b { s.buffer b with sock := some o })
        (IocpServer.postRecv (s.setBuffer b { s.buffer b with sock := some o }) o b ok) :=
      sameSends_postRecv
    exact h.onward hpc rfl (by simp) ⟨hrecv.gOutstandingSends, hrecv.requests,
      hrecv.socket, hrecv.sockets, hrecv.buffers, hrecv.thread⟩ rfl
  case enqueue o b n l =>
    obtain ⟨x, hx, rfl⟩ := Option.map_eq_some_iff.mp hstep
    have hqueue := sameSends_enqueue hx
    refine h.onward hpc rfl (by simp) ⟨hqueue.gOutstandingSends, hqueue.requests,
      hqueue.socket, hqueue.sockets, hqueue.buffers, hqueue.thread⟩ ?_
    cases l <;> rfl
  case process tail =>
    refine h.onward hpc rfl (by simp) .refl ?_
    split
    · rfl
    · exact quiet_tail
  case dequeue tail =>
    split at hstep
    case h_1 => cases hstep
    case h_2 hqueue =>
      exact Option.some.inj hstep ▸ h.onward hpc rfl (by simp) (sameSends_dequeue hqueue)
        quiet_tail
    case h_3 hqueue =>
      exact Option.some.inj hstep ▸ h.onward hpc rfl (by simp) (sameSends_dequeue hqueue) rfl
  case testSend o bCleanup | testRecv o bCleanup =>
    refine h.onward hpc rfl (by simp) .refl ?_
    split
    · rfl
    · exact quiet_cleanup
  case testCloses o bCleanup => exact h.onward hpc rfl (by simp) .refl quiet_cleanup
  case freeBufferObj b after =>
    exact h.onward hpc rfl (by simp)
      ⟨rfl, fun _ => rfl, fun _ => rfl, le_rfl, le_rfl, rfl⟩ quiet_afterFree

/-! ## The other steps -/

theorem SendsOk.complete (h : SendsOk cfg s) (hown : Owned s g) (ht : t < cfg.threads)
    (hfails : sendFails s (.complete t b i result) = false)
    (hstep : IocpServer.complete s t b i result = some s') : SendsOk cfg s' := by
  obtain ⟨request, pc, hrequest, honly, hrequests, hidle, hthread, hhandles, hsame⟩ :=
    hown.complete_cases hstep
  have hb : b < s.buffers := by
    refine hown.lt_buffers fun hfresh => ?_
    rw [hown.memory.buffers.requests, hfresh] at honly
    cases honly
  have hposted : ∀ m, s.buffers ≤ m →
      tally sends s'.requests m = tally sends s.requests m + -sends [request] := by
    intro m hm
    rw [hrequests, tally_update (hb.trans_le hm), honly]
    change _ + 0 = _
    omega
  have hpc : pc.sent = sends [request] ∧ pc.sentGlobal = 0 ∧ pc.clears = none ∧
      ∀ o b, pc ≠ .writeFailed o b := by
    cases request with
    | acceptEx l k len =>
        cases result with
        | none | some data => obtain rfl := hhandles; exact ⟨rfl, rfl, rfl, by simp⟩
    | wsaRecv k len =>
        cases result with
        | none | some data => obtain ⟨o, rfl⟩ := hhandles; exact ⟨rfl, rfl, rfl, by simp⟩
    | wsaSend k =>
        cases result with
        | none => simp [sendFails, hrequest] at hfails
        | some data => obtain ⟨o, rfl⟩ := hhandles; exact ⟨rfl, rfl, rfl, by simp⟩
  have hdrained := h.drained_keep (t := t) hpc.2.2.1
  refine h.change ht (-sends [request]) 0 hthread hpc.2.2.2 ?_ hsame.buffers.ge hsame.sockets.ge
    hposted (fun n _ => ?_) ?_ ?_
  · rw [hsame.socket]
    exact hdrained
  · rw [hsame.socket, add_zero]
  · rw [hsame.gOutstandingSends, hidle, hpc.1, hpc.2.1]
    simp [Pc.sent, Pc.sentGlobal]
  · rw [hidle, hpc.1]
    simp [Pc.sent]

theorem sameSends_advanceMain (hstep : IocpServer.advanceMain s cfg ok = some s') :
    SameSends s s' := by
  cases hmain : s.main
  case waiting | exited => simp [IocpServer.advanceMain, hmain] at hstep
  case insert r b =>
    simp only [IocpServer.advanceMain, hmain, Option.some.injEq, insertPendingAccept] at hstep
    subst hstep
    split <;> exact ⟨rfl, fun _ => rfl, fun _ => rfl, le_rfl, le_rfl, rfl⟩
  all_goals simp only [IocpServer.advanceMain, hmain, Option.some.injEq] at hstep
  all_goals try subst hstep
  case exchange l | reset l limit | test r | count r =>
    exact ⟨rfl, fun _ => rfl, fun _ => rfl, le_rfl, le_rfl, rfl⟩
  case getBufferObj r =>
    split at hstep
    all_goals
      rename_i hget
      have hsame := sameSends_getBufferObj hget
      exact Option.some.inj hstep ▸ ⟨hsame.gOutstandingSends, hsame.requests, hsame.socket,
        hsame.sockets, hsame.buffers, hsame.thread⟩
  case createSocket r b =>
    split at hstep
    all_goals exact Option.some.inj hstep ▸ ⟨rfl, fun _ => rfl, fun _ => rfl, le_rfl, le_rfl, rfl⟩
  case acceptEx r b =>
    split at hstep
    case h_1 =>
      exact Option.some.inj hstep ▸ ⟨rfl, sends_update_append rfl b, fun _ => rfl, le_rfl,
        le_rfl, rfl⟩
    case h_2 =>
      exact Option.some.inj hstep ▸ ⟨rfl, fun _ => rfl, fun _ => rfl, le_rfl, le_rfl, rfl⟩

theorem SendsOk.step {a : Action} (h : SendsOk cfg s) (hown : Owned s g)
    (hfails : sendFails s a = false) (hstep : step cfg s a = some s') : SendsOk cfg s' := by
  cases a with
  | complete t b i result =>
      simp only [IocpServer.step] at hstep
      split at hstep
      case isTrue ht => exact h.complete hown ht hfails hstep
      case isFalse => cases hstep
  | thread t ok => exact h.advance hown hstep
  | main ok => exact h.same (sameSends_advanceMain hstep)
  | burst l | wake l =>
      simp only [IocpServer.step] at hstep
      split at hstep
      case h_2 => cases hstep
      case h_1 =>
        split at hstep
        case isFalse => cases hstep
        case isTrue =>
          exact Option.some.inj hstep ▸
            h.same ⟨rfl, fun _ => rfl, fun _ => rfl, le_rfl, le_rfl, rfl⟩
  | interval l stale =>
      simp only [IocpServer.step] at hstep
      split at hstep
      case h_2 => cases hstep
      case h_1 =>
        split at hstep
        case isFalse => cases hstep
        case isTrue => exact h.same (sameSends_closeStale hstep)

/-! ## Runs -/

theorem Owned.liveSends_eq (hown : Owned s g) :
    s.liveSends = tally SocketObj.outstandingSend s.socket s.sockets := by
  refine (Finset.sum_subset (Finset.filter_subset _ _) fun o ho hlive => ?_)
  have hnot : ¬ (g.phase o).InUse := by
    intro huse
    refine hlive (Finset.mem_filter.mpr ⟨ho, ?_⟩)
    rw [State.Live, hown.memory.freeSockets.inUse o huse]
    exact Nat.lt_succ_self _
  have hdescribes := hown.memory.sockets.describes o
  cases hphase : g.phase o with
  | fresh | free =>
      rw [hphase] at hdescribes
      exact congrArg Counts.outstandingSend hdescribes
  | _ =>
      rw [hphase] at hnot
      exact absurd trivial hnot

theorem Owned.head_of_queue (hown : Owned s g) (hhead : s.gPendingSendList = some b) :
    ∃ o h, (s.buffer b).sock = some o ∧ (s.socket o).s = some h ∧ s.IsOpen h ∧
      s.requests b = [] := by
  obtain ⟨o, h, data, -, hplace, -⟩ := hown.memory.dequeue 0 hhead
  have hdescribes := hown.memory.buffers.describes b
  have hrequests := hown.memory.buffers.requests b
  rw [hplace] at hdescribes hrequests
  obtain ⟨-, hs, hcloses, -⟩ := hown.of_work (b := b) (o := o) (by rw [hplace]; rfl)
  have howner := hown.memory.agreed.owner_of_link (o := o) (k := h) (u := [data])
    (by rw [hown.memory.agreed.phase_of_work (b := b) (o := o) (by rw [hplace]; rfl)]; rfl)
  have hfresh := hown.memory.handles.fresh h
  rw [howner] at hfresh
  refine ⟨o, h, hdescribes.1, hs, ⟨?_, ?_, hcloses⟩, hrequests⟩
  · exact Nat.pos_of_ne_zero fun hzero => by simp [hzero] at hfresh
  · exact not_lt.mp fun hlt => by simp [hlt] at hfresh

theorem exists_dequeue (hhead : s.gPendingSendList = some b) (hsock : (s.buffer b).sock = some o) :
    ∃ x, dequeuePendingOperation s = some (some b, x) ∧ x.buffer = s.buffer ∧
      (x.socket o).s = (s.socket o).s ∧ x.handed = s.handed ∧ x.requests = s.requests ∧
      x.handles = s.handles ∧ x.closes = s.closes := by
  unfold dequeuePendingOperation
  simp only [hhead, hsock]
  exact ⟨_, rfl, rfl, by simp [State.setSocket], rfl, rfl, rfl, rfl⟩

theorem postSend_spec (hs : (s.socket o).s = some h) (hopen : s.IsOpen h) (ok : Bool) :
    (IocpServer.postSend s o b ok).2.handed h = s.handed h ++ [(s.buffer b).bytes] ∧
      (IocpServer.postSend s o b ok).1 = ok ∧
      (ok = true → (IocpServer.postSend s o b ok).2.requests b = s.requests b ++ [.wsaSend h]) := by
  have hopen' := hopen
  simp only [State.IsOpen] at hopen'
  unfold IocpServer.postSend
  cases ok <;> simp [State.setBuffer, State.setSocket, hs, State.IsOpen, hopen']

theorem exists_postSend (hpc : s.thread t = .postSend b tail)
    (hsock : (s.buffer b).sock = some o) (hs : (s.socket o).s = some h) (hopen : s.IsOpen h)
    (hrequests : s.requests b = []) (ok : Bool) : ∃ s', IocpServer.advance s cfg t ok = some s' ∧
      s'.handed h = s.handed h ++ [(s.buffer b).bytes] ∧
      (ok = true → s'.requests b = [.wsaSend h]) := by
  obtain ⟨hhanded, hposted, hwsaSend⟩ := postSend_spec (b := b) hs hopen ok
  rw [hrequests, List.nil_append] at hwsaSend
  cases hpost : IocpServer.postSend s o b ok with
  | mk posted x =>
      rw [hpost] at hhanded hposted hwsaSend
      simp only [IocpServer.advance, hpc, hsock, hpost]
      cases posted with
      | true => exact ⟨_, rfl, hhanded, hwsaSend⟩
      | false => exact ⟨_, rfl, hhanded, hwsaSend⟩

theorem Owned.process_posts (hown : Owned s g) (hpc : s.thread t = .process tail)
    (hroom : s.gOutstandingSends < cfg.gMaxSends) (hhead : s.gPendingSendList = some b)
    (ok : Bool) : ∃ s' o h, exec (IocpServer.step cfg) Always s
        [.thread t true, .thread t true, .thread t ok] = some s' ∧
      (s.buffer b).sock = some o ∧ (s.socket o).s = some h ∧
      s'.handed h = s.handed h ++ [(s.buffer b).bytes] ∧
      (ok = true → s'.requests b = [.wsaSend h]) := by
  obtain ⟨o, h, hsock, hs, hopen, hrequests⟩ := hown.head_of_queue hhead
  have hprocess : IocpServer.advance s cfg t true = some (s.goto t (.dequeue tail)) := by
    simp only [IocpServer.advance, hpc, if_pos hroom]
  obtain ⟨x, hx, hbuffer, hsocket, hhanded, hreq, hhandles, hcloses⟩ :=
    exists_dequeue (s := s.goto t (.dequeue tail)) hhead hsock
  have hdequeue : IocpServer.advance (s.goto t (.dequeue tail)) cfg t true =
      some (x.goto t (.postSend b tail)) := by
    have hthread : (s.goto t (.dequeue tail)).thread t = .dequeue tail := update_self _ _ _
    simp only [IocpServer.advance, hthread, hx]
  have hopen' : (x.goto t (.postSend b tail)).IsOpen h := by
    change 0 < h ∧ h ≤ x.handles ∧ x.closes h = 0
    rw [hhandles, hcloses]
    exact hopen
  obtain ⟨s', hpost, hhanded', hposted⟩ :
      ∃ s', IocpServer.advance (x.goto t (.postSend b tail)) cfg t ok = some s' ∧
        s'.handed h = (x.goto t (.postSend b tail)).handed h ++
          [((x.goto t (.postSend b tail)).buffer b).bytes] ∧
        (ok = true → s'.requests b = [.wsaSend h]) :=
    exists_postSend (s := x.goto t (.postSend b tail)) (o := o) (update_self _ _ _)
      (by simpa only [State.goto, hbuffer] using hsock) (hsocket.trans hs) hopen'
      (by simpa only [State.goto, hreq] using hrequests) ok
  refine ⟨s', o, h, ?_, hsock, hs, ?_, hposted⟩
  · simp only [exec, IocpServer.step, hprocess, hdequeue, hpost, Always, if_true]
  · rw [hhanded']
    simp only [State.goto, hhanded, hbuffer]

/-- In every run in which no accept and no send completes with an error, and no closing
test finds `bClosing` set by another thread, `gOutstandingSends` is the number of the
sends in flight and the sum of `OutstandingSend`.  Who is held up by the throttle waits
for a send in flight, and without one the head of the queue is posted. -/
theorem outstanding_sends_counted {as : List Action}
    (hrun : RunsTo (IocpServer.step cfg)
      (fun s a => acceptFails s a = false ∧ findsClosing s a = false ∧ sendFails s a = false)
      (State.start cfg) as s)
    (hmax : 0 < cfg.gMaxSends) (hcounted : s.Counted cfg) :
    s.gOutstandingSends = s.sendsInFlight ∧ s.gOutstandingSends = s.liveSends ∧
      (cfg.gMaxSends ≤ s.gOutstandingSends → 0 < s.sendsInFlight) ∧
      ∀ t tail b ok, s.sendsInFlight = 0 → s.thread t = .process tail →
        s.gPendingSendList = some b →
        ∃ s' o h, exec (IocpServer.step cfg) Always s
            [.thread t true, .thread t true, .thread t ok] = some s' ∧
          (s.buffer b).sock = some o ∧ (s.socket o).s = some h ∧
          s'.handed h = s.handed h ++ [(s.buffer b).bytes] ∧
          (ok = true → s'.requests b = [.wsaSend h]) := by
  obtain ⟨⟨g, hown⟩, h⟩ : (∃ g, Owned s g) ∧ SendsOk cfg s := by
    refine hrun.invariant (fun s => (∃ g, Owned s g) ∧ SendsOk cfg s)
      ⟨⟨.start, .start cfg⟩, .start cfg⟩ ?_
    rintro s a s' ⟨⟨g, hown⟩, h⟩ ⟨haccept, hclosing, hfails⟩ hstep
    exact ⟨hown.step haccept hclosing hstep, h.step hown hfails hstep⟩
  have hsent : tally Pc.sent s.thread cfg.threads = 0 :=
    tally_eq_zero fun t ht => (hcounted t ht).1
  have hglobal : tally Pc.sentGlobal s.thread cfg.threads = 0 :=
    tally_eq_zero fun t ht => (hcounted t ht).2
  have hflight : s.gOutstandingSends = s.sendsInFlight := by
    rw [h.global s.buffers le_rfl, hsent, hglobal, add_zero, add_zero]
    rfl
  have hlive : s.liveSends = s.sendsInFlight := by
    rw [hown.liveSends_eq, h.sockets s.sockets s.buffers le_rfl le_rfl, hsent, add_zero]
    rfl
  refine ⟨hflight, hflight.trans hlive.symm, fun hfull => ?_, fun t tail b ok hnone hpc hhead => ?_⟩
  · rw [← hflight]
    exact hmax.trans_le hfull
  · refine hown.process_posts hpc ?_ hhead ok
    rwa [hflight, hnone]

end Throttle

instance (cfg : Config) (s : State) : Decidable (s.Counted cfg) :=
  inferInstanceAs (Decidable (∀ t < cfg.threads, _))

/-! ## A send that fails -/

/-- One completion thread, which posts one send at a time. -/
def oneSend : Config where
  gBufferSize := 4096
  gInitialAccepts := 2
  gMaxAccepts := 2
  gMaxSends := 1
  threads := 1
  listeners := 1

/-- Two accepts are posted, a client sends a byte, and the send is posted that returns it. -/
def firstSend : List Action :=
  List.replicate 13 (.main true) ++ [.complete 0 0 0 (some [5])] ++
    List.replicate 11 (.thread 0 true)

/-- The send completes, and another client has sent a byte. -/
def secondSend : List Action :=
  firstSend ++ [.complete 0 0 0 (some [5])] ++ List.replicate 8 (.thread 0 true) ++
    [.complete 0 1 0 (some [7])] ++ List.replicate 7 (.thread 0 true)

theorem outstanding_sends_counted_secondSend :
    ∃ s, RunsTo (step oneSend)
        (fun s a => acceptFails s a = false ∧ findsClosing s a = false ∧ sendFails s a = false)
        (State.start oneSend) secondSend s ∧
      s.gPendingSendList = some 1 ∧ s.gOutstandingSends = s.sendsInFlight :=
  have hrun := RunsTo.of_isSome (by decide)
  ⟨_, hrun, by decide, (outstanding_sends_counted hrun (by decide) (by decide)).1⟩

/-- The send fails, and another client sends a byte. -/
def failedSend : List Action :=
  firstSend ++ [.complete 0 0 0 none] ++ List.replicate 5 (.thread 0 true) ++
    [.complete 0 1 0 (some [7])] ++ List.replicate 8 (.thread 0 true)

/-- The server is at rest with a send in the queue and none in flight. -/
theorem throttled_without_send :
    ∃ s, RunsTo (step oneSend) Always (State.start oneSend) failedSend s ∧ s.Counted oneSend ∧
      s.thread 0 = .idle ∧ s.gPendingSendList = some 1 ∧ s.sendsInFlight = 0 ∧
      s.gOutstandingSends = 1 ∧ s.gOutstandingSends ≠ s.sendsInFlight := by
  refine ⟨_, RunsTo.of_isSome (by decide), by decide, ?_, by decide, by decide, by decide,
    by decide⟩
  rfl

end MiscProjects.IocpServer
