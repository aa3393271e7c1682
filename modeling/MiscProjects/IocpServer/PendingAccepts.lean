import MiscProjects.IocpServer.Steps
import MiscProjects.Library.Tally

/-!
# The list of the pending accepts

A buffer is put in `PendingAccepts` before its `AcceptEx` is posted and taken out
when this has completed with success.  If no post fails and no accept completes with
an error, the list is that of the buffers with an `AcceptEx` in flight, whatever becomes
of the connections.

The places of the buffers are those of the preceding modules, without what they say of
the connections.
-/

namespace MiscProjects.IocpServer

open Function (update update_self update_of_ne update_eq_self)
open SinglyLinked Pairing Runs Tally

/-! ## What is counted -/

/-- An `AcceptEx` of the listening socket is in flight. -/
def Place.accepting (l : ListenPtr) : Place → Bool
  | .listed l' (.inFlight _ _ _) => l' = l
  | _ => false

def Place.weight (l : ListenPtr) (p : Place) : ℤ :=
  if p.accepting l = true then 1 else 0

/-- The thread has not yet counted the completion of an accept. -/
def Pc.accepting (l : ListenPtr) : Pc → ℤ
  | .acceptDone l' _ _ => if l' = l then 1 else 0
  | _ => 0

/-- The main thread has not yet counted an accept that it has posted. -/
def MainPc.posted (l : ListenPtr) : MainPc → ℤ
  | .count r => if r.listenobj = l then 1 else 0
  | _ => 0

/-- The buffer that the thread has in hand. -/
def Pc.buffer : Pc → Option BufferPtr
  | .readFailed _ b | .readFailedTest _ b | .writeFailed _ b | .writeFailedTest _ b
  | .acceptFailed b | .newSocketObj _ b _ | .closeClient _ b | .associate _ b _ _
  | .readDone _ b _ | .setClosing _ b | .writeDone _ b | .writeDoneGlobal _ b | .testClosing _ b
  | .postRecv _ b | .enqueue _ b _ _ | .postSend b _ | .freeBufferObj b _ => some b
  | .freeSocketObj _ b | .pushSocketObj _ b => b
  | _ => none

/-- The accept that the thread is about to take out of its list. -/
def Pc.accept : Pc → Option (ListenPtr × BufferPtr)
  | .acceptDone l b _ | .removeAccept l b _ => some (l, b)
  | _ => none

/-- The accept that the main thread is about to post. -/
def MainPc.posting : MainPc → Option (ListenPtr × BufferPtr)
  | .createSocket r b | .acceptEx r b => some (r.listenobj, b)
  | _ => none

/-- `PostAccept` fails. -/
def postAcceptFails (s : State) : Action → Bool
  | .main ok =>
      match s.main with
      | .createSocket _ _ => !ok
      | .acceptEx _ b => !ok || (s.buffer b).sclient = none
      | _ => false
  | _ => false

/-- Nobody is in the middle of posting or removing an accept of the listening socket. -/
def State.Settled (cfg : Config) (l : ListenPtr) (s : State) : Prop :=
  (∀ t < cfg.threads, ∀ b, (s.thread t).accept ≠ some (l, b)) ∧
    (∀ b, s.main.posting ≠ some (l, b)) ∧ s.main.posted l = 0

/-! ## The places of the buffers -/

/-- The `operation` of a buffer is that of its request. -/
def Place.Operates (obj : BufferObj) : Place → Prop
  | .listed _ (.idle _) | .listed _ (.inFlight _ _ _) => obj.operation = .opAccept
  | .receiving _ _ _ => obj.operation = .opRead
  | .sending _ _ => obj.operation = .opWrite
  | _ => True

/-- The buffers are as the places say. -/
structure Stored (s : State) (place : BufferPtr → Place) : Prop where
  requests : ∀ b, s.requests b = (place b).requests
  operation : ∀ b, (place b).Operates (s.buffer b)
  fresh : ∀ b, place b = .fresh ↔ s.buffers ≤ b
  lists : ListsOk s.buffer s.heads s.gPendingSendListEnd place

/-- The buffers, the threads and the counters are as the places say. -/
structure Kept (cfg : Config) (s : State) (place : BufferPtr → Place) : Prop where
  stored : Stored s place
  inside : ∀ t, cfg.threads ≤ t → s.thread t = .idle
  holds : ∀ t b, (s.thread t).buffer = some b → place b = .held t []
  accepts : ∀ t l b, (s.thread t).accept = some (l, b) ↔
    ∃ c data, place b = .listed l (.done t c data)
  spare : ∀ r b, s.main = .insert r b → place b = .spare
  inserted : ∀ l b, place b = .listed l .inserted ↔
    ∃ r, s.main = .createSocket r b ∧ r.listenobj = l
  idle : ∀ l b, (∃ c, place b = .listed l (.idle c)) ↔
    ∃ r, s.main = .acceptEx r b ∧ r.listenobj = l
  counted : ∀ l m, s.buffers ≤ m →
    (s.listener l).pendingAcceptCount + s.main.posted l =
      tally (Place.weight l) place m + tally (Pc.accepting l) s.thread cfg.threads

section Accepts
variable {cfg : Config} {s s' x : State} {place : BufferPtr → Place} {t : ThreadId}
  {b : BufferPtr} {l : ListenPtr} {o : SocketPtr} {h i n : ℕ} {ok : Bool} {p : Place} {pc pc' : Pc}
  {e : BufferObj} {tail : Tail} {result : Result} {data : List UInt8}

/-! ## The buffers -/

theorem Place.Operates.congr {obj : BufferObj} (h : p.Operates obj)
    (hop : e.operation = obj.operation) : p.Operates e := by
  cases p with
  | listed l w =>
      cases w with
      | idle c => exact hop.trans h
      | inFlight k len c => exact hop.trans h
      | _ => trivial
  | receiving o k len => exact hop.trans h
  | sending o k => exact hop.trans h
  | _ => trivial

theorem Stored.same (h : Stored s place)
    (hnext : BufferObj.next ∘ x.buffer = BufferObj.next ∘ s.buffer)
    (hop : ∀ b, (place b).Operates (x.buffer b)) (hrequests : x.requests = s.requests)
    (hbuffers : x.buffers = s.buffers) (hheads : x.heads = s.heads)
    (hlast : x.gPendingSendListEnd = s.gPendingSendListEnd) : Stored x place where
  requests := by rw [hrequests]; exact h.requests
  operation := hop
  fresh := by rw [hbuffers]; exact h.fresh
  lists := by
    unfold ListsOk
    rw [hnext, hheads, hlast]
    exact h.lists

theorem Stored.relocate (h : Stored s place)
    (hlists : ListsOk x.buffer x.heads x.gPendingSendListEnd (update place b p))
    (hop : p.Operates (x.buffer b))
    (hother : ∀ b', b' ≠ b → (x.buffer b').operation = (s.buffer b').operation)
    (hrequests : x.requests = update s.requests b p.requests) (hp : p ≠ .fresh)
    (hbuffers : ∀ b', x.buffers ≤ b' ↔ s.buffers ≤ b' ∧ b' ≠ b) : Stored x (update place b p) where
  requests b' := by
    rw [hrequests]
    rcases eq_or_ne b' b with rfl | hne
    · rw [update_self, update_self]
    · rw [update_of_ne hne, update_of_ne hne]
      exact h.requests b'
  operation b' := by
    rcases eq_or_ne b' b with rfl | hne
    · rwa [update_self]
    · rw [update_of_ne hne]
      exact (h.operation b').congr (hother b' hne)
  fresh b' := by
    rw [hbuffers]
    rcases eq_or_ne b' b with rfl | hne
    · rw [update_self]
      exact iff_of_false hp fun hle => hle.2 rfl
    · rw [update_of_ne hne, h.fresh]
      exact (and_iff_left hne).symm
  lists := hlists

theorem Stored.lt (h : Stored s place) (hb : place b ≠ .fresh) : b < s.buffers :=
  not_le.mp fun hle => hb ((h.fresh b).mpr hle)

theorem Stored.requests_eq (h : Stored s place) (hb : (place b).requests = []) :
    s.requests = update s.requests b [] := by
  have hnone : s.requests b = [] := (h.requests b).trans hb
  rw [← hnone, update_eq_self]

theorem buffers_le_iff (hlt : b < s.buffers) (b' : BufferPtr) :
    s.buffers ≤ b' ↔ s.buffers ≤ b' ∧ b' ≠ b := by
  refine (and_iff_left_of_imp fun hle => ?_).symm
  exact (hlt.trans_le hle).ne'

/-! ## A step of a thread -/

theorem Kept.onward (h : Kept cfg s place) (ht : t < cfg.threads) (hstored : Stored x place)
    (hthread : x.thread = s.thread) (hmain : x.main = s.main)
    (hlisteners : ∀ l, (x.listener l).pendingAcceptCount =
      (s.listener l).pendingAcceptCount + (pc.accepting l - (s.thread t).accepting l))
    (hbuffers : x.buffers = s.buffers) (hbuffer : ∀ b, pc.buffer = some b → place b = .held t [])
    (haccept : pc.accept = (s.thread t).accept) : Kept cfg (x.goto t pc) place where
  stored := hstored.same rfl hstored.operation rfl rfl (by funext i; cases i <;> rfl) rfl
  inside t' ht' := by
    simp only [State.goto, hthread, update_of_ne (ht.trans_le ht').ne']
    exact h.inside t' ht'
  holds t' b hb := by
    simp only [State.goto, hthread] at hb
    rcases eq_or_ne t' t with rfl | hne
    · rw [update_self] at hb
      exact hbuffer b hb
    · rw [update_of_ne hne] at hb
      exact h.holds t' b hb
  accepts t' l b := by
    simp only [State.goto, hthread]
    rcases eq_or_ne t' t with rfl | hne
    · rw [update_self, haccept]
      exact h.accepts t' l b
    · rw [update_of_ne hne]
      exact h.accepts t' l b
  spare r b := by
    simp only [State.goto, hmain]
    exact h.spare r b
  inserted l b := by
    simp only [State.goto, hmain]
    exact h.inserted l b
  idle l b := by
    simp only [State.goto, hmain]
    exact h.idle l b
  counted l m hm := by
    have hcounted := h.counted l m (hbuffers ▸ hm)
    simp only [State.goto, hthread, hmain, hlisteners l]
    rw [tally_update ht]
    omega

variable {k len : ℕ} {c m : Option ℕ} {q : Place} {key : ListenPtr ⊕ SocketPtr}
  {after : AfterFree} {r : Round}

theorem update_eq_iff {w w' : Holder} (hold : Loose w (place b).holder)
    (hnew : Loose w p.holder) (hq : q.holder = some w') (hw : w' ≠ w) (b' : BufferPtr) :
    update place b p b' = q ↔ place b' = q := by
  rcases eq_or_ne b' b with rfl | hne
  · rw [update_self]
    refine iff_of_false (fun heq => ?_) (fun heq => ?_)
    · subst heq
      exact hw (hnew w' hq)
    · subst heq
      exact hw (hold w' hq)
  · rw [update_of_ne hne]

theorem Kept.move (h : Kept cfg s place) (ht : t < cfg.threads)
    (hstored : Stored x (update place b p)) (hthread : x.thread = s.thread)
    (hmain : x.main = s.main) (hold : Loose (.thread t) (place b).holder)
    (hnew : Loose (.thread t) p.holder) (hb : b < s.buffers) (hbuffers : x.buffers = s.buffers)
    (hlisteners : ∀ l, (x.listener l).pendingAcceptCount = (s.listener l).pendingAcceptCount +
      (p.weight l - (place b).weight l) + (pc.accepting l - (s.thread t).accepting l))
    (hbuffer : ∀ b', pc.buffer = some b' → update place b p b' = .held t [])
    (haccept : ∀ l b', pc.accept = some (l, b') ↔
      ∃ c data, update place b p b' = .listed l (.done t c data)) :
    Kept cfg (x.goto t pc) (update place b p) := by
  have hother : ∀ {t' : ThreadId} {q : Place} (b' : BufferPtr), t' ≠ t →
      q.holder = some (.thread t') → (update place b p b' = q ↔ place b' = q) := by
    intro t' q b' hne hq
    exact update_eq_iff hold hnew hq (by simpa using hne) b'
  have hmainPlace : ∀ {q : Place} (b' : BufferPtr), q.holder = some .main →
      (update place b p b' = q ↔ place b' = q) := by
    intro q b' hq
    exact update_eq_iff hold hnew hq (by simp) b'
  constructor
  · exact hstored.same rfl hstored.operation rfl rfl (by funext i; cases i <;> rfl) rfl
  · intro t' ht'
    simp only [State.goto, hthread, update_of_ne (ht.trans_le ht').ne']
    exact h.inside t' ht'
  · intro t' b' hb'
    simp only [State.goto, hthread] at hb'
    rcases eq_or_ne t' t with rfl | hne
    · rw [update_self] at hb'
      exact hbuffer b' hb'
    · rw [update_of_ne hne] at hb'
      exact (hother b' hne rfl).mpr (h.holds t' b' hb')
  · intro t' l b'
    simp only [State.goto, hthread]
    rcases eq_or_ne t' t with rfl | hne
    · rw [update_self]
      exact haccept l b'
    · rw [update_of_ne hne, h.accepts t' l b']
      exact exists_congr fun c => exists_congr fun data => (hother b' hne rfl).symm
  · intro r b' hb'
    simp only [State.goto, hmain] at hb'
    exact (hmainPlace b' rfl).mpr (h.spare r b' hb')
  · intro l b'
    simp only [State.goto, hmain]
    exact (hmainPlace b' rfl).trans (h.inserted l b')
  · intro l b'
    simp only [State.goto, hmain]
    exact (exists_congr fun c => hmainPlace b' rfl).trans (h.idle l b')
  · intro l m hm
    have hcounted := h.counted l m (hbuffers ▸ hm)
    have hlt : b < m := hb.trans_le (hbuffers ▸ hm)
    simp only [State.goto, hthread, hmain, hlisteners l]
    rw [tally_update ht, tally_update hlt]
    omega

/-! ## The functions on the buffers -/

theorem Kept.held (h : Kept cfg s place) (hpc : s.thread t = pc) (hb : pc.buffer = some b) :
    place b = .held t [] :=
  h.holds t b (by rw [hpc, hb])

theorem Kept.lt (h : Kept cfg s place) (hpc : s.thread t = pc) (hidle : pc ≠ .idle) :
    t < cfg.threads :=
  not_le.mp fun hle => hidle (hpc.symm.trans (h.inside t hle))

/-- The buffers are not concerned. -/
structure SameBuffers (place : BufferPtr → Place) (s x : State) : Prop where
  next : BufferObj.next ∘ x.buffer = BufferObj.next ∘ s.buffer
  operation : ∀ b, (place b).Operates (x.buffer b)
  requests : x.requests = s.requests
  buffers : x.buffers = s.buffers
  heads : x.heads = s.heads
  last : x.gPendingSendListEnd = s.gPendingSendListEnd
  count : ∀ l, (x.listener l).pendingAcceptCount = (s.listener l).pendingAcceptCount
  thread : x.thread = s.thread
  main : x.main = s.main

theorem Stored.sameBuffers (h : Stored s place) (hsame : SameBuffers place s x) : Stored x place :=
  h.same hsame.next hsame.operation hsame.requests hsame.buffers hsame.heads hsame.last

theorem Stored.refl (h : Stored s place) : SameBuffers place s s :=
  ⟨rfl, h.operation, rfl, rfl, rfl, rfl, fun _ => rfl, rfl, rfl⟩

theorem SameBuffers.trans {y : State} (h : SameBuffers place s x) (h' : SameBuffers place x y) :
    SameBuffers place s y :=
  ⟨h'.next.trans h.next, h'.operation, h'.requests.trans h.requests, h'.buffers.trans h.buffers,
    h'.heads.trans h.heads, h'.last.trans h.last, fun l => (h'.count l).trans (h.count l),
    h'.thread.trans h.thread, h'.main.trans h.main⟩

theorem Stored.setBuffer (h : Stored s place) (hnext : e.next = (s.buffer b).next)
    (hop : (place b).Operates e) : SameBuffers place s (s.setBuffer b e) := by
  refine ⟨comp_update_eq hnext, fun b' => ?_, rfl, rfl, ?_, rfl, fun _ => rfl, rfl, rfl⟩
  · simp only [State.setBuffer]
    rcases eq_or_ne b' b with rfl | hne
    · rwa [update_self]
    · rw [update_of_ne hne]
      exact h.operation b'
  · funext i
    cases i <;> rfl

theorem Kept.same (h : Kept cfg s place) (hpc : s.thread t = pc) (hidle : pc ≠ .idle)
    (hsame : SameBuffers place s x) (haccepting : ∀ l, pc.accepting l = 0)
    (haccept : pc.accept = none) (haccepting' : ∀ l, pc'.accepting l = 0)
    (haccept' : pc'.accept = none) (hbuffer : pc'.buffer = pc.buffer ∨ pc'.buffer = none) :
    Kept cfg (x.goto t pc') place := by
  refine h.onward (h.lt hpc hidle) (h.stored.sameBuffers hsame) hsame.thread hsame.main
    (fun l => ?_) hsame.buffers (fun b hb => ?_) (by rw [hpc, haccept, haccept'])
  · rw [hsame.count, hpc, haccepting, haccepting']
    omega
  · rcases hbuffer with heq | hnone
    · exact h.held hpc (heq ▸ hb)
    · rw [hnone] at hb
      cases hb

theorem Stored.freeBufferObj (h : Stored s place) (hb : place b = .held t []) :
    Stored (IocpServer.freeBufferObj s b) (update place b .free) := by
  refine h.relocate ?_ trivial (fun b' hne => ?_) ?_ (by simp) ?_
  · have hheads : (IocpServer.freeBufferObj s b).heads = update s.heads .free (some b) := by
      funext i
      cases i <;> rfl
    exact h.lists.push (i := .free) (by rw [hb]; rfl) rfl (by simp) rfl hheads
  · exact congrArg _ (update_of_ne hne _ _)
  · exact h.requests_eq (by rw [hb]; rfl)
  · exact buffers_le_iff (h.lt (by simp [hb]))

theorem Stored.removePendingAccept (h : Stored s place)
    (hb : place b = .listed l (.done t c data)) :
    ∃ x, IocpServer.removePendingAccept s l b = some x ∧ Stored x (update place b (.held t [])) ∧
      x.buffers = s.buffers ∧ x.thread = s.thread ∧ x.main = s.main ∧
      ∀ l', (x.listener l').pendingAcceptCount = (s.listener l').pendingAcceptCount := by
  have hfew : ∀ b', (place b').list ≠ none → b' < s.buffers := by
    intro b' hb'
    refine h.lt fun hfresh => hb' ?_
    rw [hfresh]
    rfl
  have hnone := h.requests_eq (b := b) (by rw [hb]; rfl)
  have hlt := h.lt (b := b) (by simp [hb])
  obtain ⟨prev, hsearch, hbehind, hfirst⟩ := h.lists.remove (l := l) (b := b)
    (p := .held t []) (by rw [hb]; rfl) rfl hfew
  have hfound : search s.next b (s.buffers + 1) none (s.listener l).pendingAccepts = some prev :=
    hsearch
  unfold IocpServer.removePendingAccept
  simp only [hfound]
  cases prev with
  | some b' =>
      refine ⟨_, rfl, h.relocate (hbehind b' rfl) trivial (fun b'' _ => ?_) hnone (by simp)
        (buffers_le_iff hlt), rfl, rfl, rfl, fun _ => rfl⟩
      simp only [State.setBuffer]
      rcases eq_or_ne b'' b' with rfl | hne'
      · rw [update_self]
      · rw [update_of_ne hne']
  | none =>
      refine ⟨_, rfl, h.relocate ?_ trivial (fun b'' _ => rfl) hnone (by simp)
        (buffers_le_iff hlt), rfl, rfl, rfl, fun l' => ?_⟩
      · rw [heads_setListener]
        exact hfirst rfl
      · simp only [State.setListener]
        rcases eq_or_ne l' l with rfl | hne'
        · rw [update_self]
        · rw [update_of_ne hne']

theorem Stored.enqueue (h : Stored s place) (hb : place b = .held t [])
    (hqueue : enqueuePendingOperation s b = some x) :
    Stored x (update place b (.pending 0 0 [])) ∧ x.buffers = s.buffers ∧
      x.thread = s.thread ∧ x.main = s.main ∧ x.listener = s.listener := by
  have hnone := h.requests_eq (b := b) (by rw [hb]; rfl)
  have hlt := h.lt (b := b) (by simp [hb])
  obtain ⟨hbehind, hfirst⟩ := h.lists.enqueue (b := b) (p := .pending 0 0 [])
    (e := { s.buffer b with next := none }) (by rw [hb]; rfl) rfl rfl
  simp only [enqueuePendingOperation] at hqueue
  split at hqueue
  case h_1 => cases hqueue
  case h_2 sock hsock =>
    split at hqueue
    case h_1 last hlast =>
      obtain rfl := Option.some.inj hqueue
      refine ⟨h.relocate (hbehind last hlast) trivial (fun b' hne => ?_) hnone (by simp)
        (buffers_le_iff hlt), rfl, rfl, rfl, rfl⟩
      simp only [State.setBuffer, State.setSocket]
      rcases eq_or_ne b' last with rfl | hne'
      · rw [update_self, update_of_ne hne]
      · rw [update_of_ne hne', update_of_ne hne]
    case h_2 hlast =>
      obtain rfl := Option.some.inj hqueue
      refine ⟨h.relocate ?_ trivial (fun b' hne => ?_) hnone (by simp)
        (buffers_le_iff hlt), rfl, rfl, rfl, rfl⟩
      · have hheads : State.heads { (s.setSocket sock { s.socket sock with
                pendingSend := (s.socket sock).pendingSend + 1 }).setBuffer b
                { s.buffer b with next := none } with
              gPendingSendList := some b, gPendingSendListEnd := some b } =
            update s.heads .pending (some b) := by
          funext i
          cases i <;> rfl
        exact hheads ▸ hfirst hlast
      · exact congrArg _ (update_of_ne hne _ _)

theorem Stored.dequeue (h : Stored s place) (t : ThreadId)
    (hqueue : dequeuePendingOperation s = some (some b, x)) :
    (place b).list = some .pending ∧ Stored x (update place b (.held t [])) ∧
      x.buffers = s.buffers ∧ x.thread = s.thread ∧ x.main = s.main ∧ x.listener = s.listener := by
  simp only [dequeuePendingOperation] at hqueue
  split at hqueue
  case h_1 => simp at hqueue
  case h_2 b' hhead =>
    split at hqueue
    case h_1 => cases hqueue
    case h_2 sock hsock =>
      simp only [Option.some.injEq, Prod.mk.injEq] at hqueue
      obtain ⟨rfl, rfl⟩ := hqueue
      obtain ⟨hlist, hpop⟩ := h.lists.dequeue (b := b') hhead
      have hnone : s.requests = update s.requests b' [] := by
        refine h.requests_eq ?_
        cases hb : place b' with
        | pending => rfl
        | _ => simp [hb, Place.list] at hlist
      have hlt : b' < s.buffers := by
        refine h.lt fun hfresh => ?_
        rw [hfresh] at hlist
        cases hlist
      refine ⟨hlist, h.relocate ?_ trivial (fun _ _ => rfl) hnone (by simp)
        (buffers_le_iff hlt), rfl, rfl, rfl, rfl⟩
      have hheads : State.heads { s.setSocket sock { s.socket sock with
              pendingSend := (s.socket sock).pendingSend - 1 } with
            gPendingSendList := (s.buffer b').next
            gPendingSendListEnd :=
              if (s.buffer b').next = none then none else s.gPendingSendListEnd } =
          update s.heads .pending (s.buffer b').next := by
        funext i
        cases i <;> rfl
      exact hheads ▸ hpop _ rfl

theorem Stored.request (h : Stored s place) (hlist : p.list = (place b).list) (hp : p ≠ .fresh)
    (hb : place b ≠ .fresh) (hnext : BufferObj.next ∘ x.buffer = BufferObj.next ∘ s.buffer)
    (hop : p.Operates (x.buffer b))
    (hother : ∀ b', b' ≠ b → (x.buffer b').operation = (s.buffer b').operation)
    (hrequests : x.requests = update s.requests b p.requests) (hbuffers : x.buffers = s.buffers)
    (hheads : x.heads = s.heads) (hlast : x.gPendingSendListEnd = s.gPendingSendListEnd) :
    Stored x (update place b p) := by
  refine h.relocate ?_ hop hother hrequests hp ?_
  · have hlists := h.lists.move hlist
    unfold ListsOk at hlists ⊢
    rw [hnext, hheads, hlast]
    exact hlists
  · rw [hbuffers]
    exact buffers_le_iff (h.lt hb)

theorem Stored.closesocket (h : Stored s place) (k : Option ℕ) :
    SameBuffers place s (IocpServer.closesocket s k) := by
  cases k <;> exact ⟨rfl, h.operation, rfl, rfl, rfl, rfl, fun _ => rfl, rfl, rfl⟩

theorem Stored.setSocket (h : Stored s place) (so : SocketObj) :
    SameBuffers place s (s.setSocket o so) :=
  ⟨rfl, h.operation, rfl, rfl, rfl, rfl, fun _ => rfl, rfl, rfl⟩

theorem Stored.closeSocketObj (h : Stored s place) (k : Option ℕ) (so : SocketObj) :
    SameBuffers place s ((IocpServer.closesocket s k).setSocket o so) :=
  (h.closesocket k).trans ((h.sameBuffers (h.closesocket k)).setSocket so)

theorem Stored.closeClient (h : Stored s place) (b : BufferPtr) (k : Option ℕ) :
    SameBuffers place s ((IocpServer.closesocket s k).setBuffer b
      { (IocpServer.closesocket s k).buffer b with sclient := none }) := by
  have hclose := h.sameBuffers (h.closesocket k)
  exact (h.closesocket k).trans (hclose.setBuffer rfl ((hclose.operation b).congr rfl))

theorem Stored.getSocketObj (h : Stored s place) {sock : Option ℕ} {obj : Option SocketPtr}
    (hget : IocpServer.getSocketObj s sock ok = (obj, x)) : SameBuffers place s x := by
  simp only [IocpServer.getSocketObj] at hget
  split at hget
  case h_1 =>
    split at hget
    all_goals
      simp only [Prod.mk.injEq] at hget
      obtain ⟨-, rfl⟩ := hget
    · exact ⟨rfl, h.operation, rfl, rfl, rfl, rfl, fun _ => rfl, rfl, rfl⟩
    · exact h.refl
  case h_2 =>
    simp only [Prod.mk.injEq] at hget
    obtain ⟨-, rfl⟩ := hget
    exact ⟨rfl, h.operation, rfl, rfl, rfl, rfl, fun _ => rfl, rfl, rfl⟩

/-! ## The steps of the threads -/

theorem Kept.not_done (h : Kept cfg s place) (hpc : s.thread t = pc) (haccept : pc.accept = none)
    (l : ListenPtr) (b : BufferPtr) : place b ≠ .listed l (.done t c data) := by
  intro hb
  have hsome := (h.accepts t l b).mpr ⟨c, data, hb⟩
  rw [hpc, haccept] at hsome
  cases hsome

/-- A thread that does not remove an accept goes on without one, and a buffer gets another
place. -/
theorem Kept.pass (h : Kept cfg s place) (hpc : s.thread t = pc) (hidle : pc ≠ .idle)
    (hstored : Stored x (update place b p)) (hthread : x.thread = s.thread)
    (hmain : x.main = s.main) (hbuffers : x.buffers = s.buffers)
    (hlisteners : x.listener = s.listener) (hold : Loose (.thread t) (place b).holder)
    (hnew : Loose (.thread t) p.holder) (hb : place b ≠ .fresh) (hp : ∀ l w, p ≠ .listed l w)
    (hweight : ∀ l, (place b).weight l = 0) (haccept : pc.accept = none)
    (haccepting : ∀ l, pc.accepting l = 0) (haccept' : pc'.accept = none)
    (haccepting' : ∀ l, pc'.accepting l = 0)
    (hbuffer : ∀ b', pc'.buffer = some b' → b' = b ∧ p = .held t []) :
    Kept cfg (x.goto t pc') (update place b p) := by
  refine h.move (h.lt hpc hidle) hstored hthread hmain hold hnew (h.stored.lt hb) hbuffers
    (fun l => ?_) (fun b' hb' => ?_) fun l b' => ?_
  · have hzero : p.weight l = 0 := by
      cases p with
      | listed l' w => exact absurd rfl (hp l' w)
      | _ => rfl
    rw [hlisteners, hpc, haccepting, haccepting', hweight, hzero]
    omega
  · obtain ⟨rfl, rfl⟩ := hbuffer b' hb'
    exact update_self _ _ _
  · rw [haccept']
    refine iff_of_false (by simp) ?_
    rintro ⟨c, data, hdone⟩
    rcases eq_or_ne b' b with rfl | hne
    · rw [update_self] at hdone
      exact hp _ _ hdone
    · rw [update_of_ne hne] at hdone
      exact h.not_done hpc haccept l b' hdone

theorem Kept.removeAccept (h : Kept cfg s place) (hpc : s.thread t = .removeAccept l b n)
    (hremove : IocpServer.removePendingAccept s l b = some x) :
    Kept cfg (x.goto t (.newSocketObj l b n)) (update place b (.held t [])) := by
  have hmine : ∀ l' b', (s.thread t).accept = some (l', b') → l' = l ∧ b' = b := by
    intro l' b' hsome
    rw [hpc] at hsome
    simpa [Pc.accept, eq_comm] using hsome
  obtain ⟨c, data, hb⟩ := (h.accepts t l b).mp (by rw [hpc]; rfl)
  obtain ⟨x', hx', hstored, hbuffers, hthread, hmain, hcount⟩ := h.stored.removePendingAccept hb
  obtain rfl := Option.some.inj (hx'.symm.trans hremove)
  refine h.move (h.lt hpc (by simp)) hstored hthread hmain (by rw [hb]; simp [Place.holder])
    (by simp [Place.holder]) (h.stored.lt (by simp [hb])) hbuffers (fun l' => ?_)
    (fun b' hb' => ?_) fun l' b' => ?_
  · rw [hcount, hpc, hb]
    simp [Place.weight, Place.accepting, Pc.accepting]
  · obtain rfl : b = b' := Option.some.inj hb'
    exact update_self _ _ _
  · refine iff_of_false (by simp [Pc.accept]) ?_
    rintro ⟨c', data', hdone⟩
    rcases eq_or_ne b' b with rfl | hne
    · rw [update_self] at hdone
      cases hdone
    · rw [update_of_ne hne] at hdone
      exact hne (hmine l' b' ((h.accepts t l' b').mpr ⟨c', data', hdone⟩)).2

theorem Kept.acceptDone (h : Kept cfg s place) (hpc : s.thread t = .acceptDone l b n) :
    Kept cfg ((s.setListener l { s.listener l with
      pendingAcceptCount := (s.listener l).pendingAcceptCount - 1 }).goto t
        (.removeAccept l b n)) place := by
  have hsame : Stored (s.setListener l { s.listener l with
      pendingAcceptCount := (s.listener l).pendingAcceptCount - 1 }) place :=
    h.stored.same rfl h.stored.operation rfl rfl (heads_setListener_eq rfl) rfl
  refine h.onward (h.lt hpc (by simp)) hsame rfl rfl (fun l' => ?_) rfl (fun b' hb' => ?_)
    (by rw [hpc]; rfl)
  · rw [hpc]
    simp only [State.setListener, Pc.accepting]
    rcases eq_or_ne l' l with rfl | hne
    · rw [update_self, if_pos rfl]
      exact (zero_sub (1 : ℤ)).symm ▸ rfl
    · rw [update_of_ne hne, if_neg hne.symm]
      omega
  · cases hb'

theorem buffer_tail : tail.pc.buffer = none ∧ tail.pc.accept = none ∧
    ∀ l, tail.pc.accepting l = 0 := by
  obtain ⟨_ | o, bCleanup⟩ := tail <;> exact ⟨rfl, rfl, fun _ => rfl⟩

theorem buffer_afterFree : after.pc.buffer = none ∧ after.pc.accept = none ∧
    ∀ l, after.pc.accepting l = 0 := by
  cases after with
  | tail k => exact buffer_tail
  | _ => exact ⟨rfl, rfl, fun _ => rfl⟩

theorem buffer_cleanup {bCleanup : Bool} : (cleanup o bCleanup).buffer = none ∧
    (cleanup o bCleanup).accept = none ∧ ∀ l, (cleanup o bCleanup).accepting l = 0 := by
  cases bCleanup <;> exact ⟨rfl, rfl, fun _ => rfl⟩

theorem Kept.freeBufferObj (h : Kept cfg s place) (hpc : s.thread t = .freeBufferObj b after) :
    Kept cfg ((IocpServer.freeBufferObj s b).goto t after.pc) (update place b .free) := by
  have hb : place b = .held t [] := h.held hpc rfl
  refine h.pass hpc (by simp) (h.stored.freeBufferObj hb) rfl rfl rfl rfl
    (by rw [hb]; simp [Place.holder]) (by simp [Place.holder]) (by simp [hb]) (by simp)
    (fun l => by rw [hb]; rfl) rfl (fun l => rfl) buffer_afterFree.2.1 buffer_afterFree.2.2
    fun b' hb' => ?_
  rw [buffer_afterFree.1] at hb'
  cases hb'

theorem Kept.enqueue {listenobj : Option ListenPtr} (h : Kept cfg s place)
    (hpc : s.thread t = .enqueue o b n listenobj) (hqueue : enqueuePendingOperation
      (s.setBuffer b { s.buffer b with buflen := n, sock := some o }) b = some x) :
    Kept cfg (x.goto t (afterEnqueue o listenobj)) (update place b (.pending 0 0 [])) := by
  have hb : place b = .held t [] := h.held hpc rfl
  have hset := h.stored.sameBuffers (h.stored.setBuffer (b := b)
    (e := { s.buffer b with buflen := n, sock := some o }) rfl (by rw [hb]; trivial))
  obtain ⟨hstored, hbuffers, hthread, hmain, hlisteners⟩ := hset.enqueue hb hqueue
  have hnone : (afterEnqueue o listenobj).buffer = none ∧ (afterEnqueue o listenobj).accept = none ∧
      ∀ l, (afterEnqueue o listenobj).accepting l = 0 := by
    cases listenobj <;> exact ⟨rfl, rfl, fun _ => rfl⟩
  refine h.pass hpc (by simp) hstored hthread hmain hbuffers hlisteners
    (by rw [hb]; simp [Place.holder]) (by simp [Place.holder]) (by simp [hb]) (by simp)
    (fun l => by rw [hb]; rfl) rfl (fun l => rfl) hnone.2.1 hnone.2.2 fun b' hb' => ?_
  rw [hnone.1] at hb'
  cases hb'

theorem Kept.dequeue (h : Kept cfg s place) (hpc : s.thread t = .dequeue tail)
    (hqueue : dequeuePendingOperation s = some (some b, x)) :
    Kept cfg (x.goto t (.postSend b tail)) (update place b (.held t [])) := by
  obtain ⟨hlist, hstored, hbuffers, hthread, hmain, hlisteners⟩ := h.stored.dequeue t hqueue
  have hpending : ∃ o k data, place b = .pending o k data := by
    cases hb : place b with
    | pending o k data => exact ⟨o, k, data, rfl⟩
    | _ => simp [hb, Place.list] at hlist
  obtain ⟨o, k, data, hb⟩ := hpending
  refine h.pass hpc (by simp) hstored hthread hmain hbuffers hlisteners
    (by rw [hb]; simp [Place.holder]) (by simp [Place.holder]) (by simp [hb]) (by simp)
    (fun l => by rw [hb]; rfl) rfl (fun l => rfl) rfl (fun l => rfl) fun b' hb' => ?_
  exact ⟨(Option.some.inj hb').symm, rfl⟩

theorem Kept.postSend (h : Kept cfg s place) (hpc : s.thread t = .postSend b tail)
    (hstep : advance s cfg t ok = some s') : ∃ place', Kept cfg s' place' := by
  have hb : place b = .held t [] := h.held hpc rfl
  have hset := h.stored.setBuffer (b := b) (e := { s.buffer b with operation := .opWrite }) rfl
    (by rw [hb]; trivial)
  simp only [advance, hpc] at hstep
  split at hstep
  case h_1 => cases hstep
  case h_2 sock hsock =>
    cases hs : (s.socket sock).s with
    | none =>
        simp only [IocpServer.postSend, State.setBuffer, hs, Option.some.injEq] at hstep
        exact ⟨place, hstep ▸ h.same hpc (by simp) hset (fun _ => rfl) rfl (fun _ => rfl) rfl
          (.inl rfl)⟩
    | some k =>
        simp only [IocpServer.postSend, State.setBuffer, hs] at hstep
        split at hstep
        case h_2 y hposted =>
          split at hposted
          case isTrue => cases hposted
          case isFalse =>
            simp only [Prod.mk.injEq, true_and] at hposted
            subst hposted
            refine ⟨place, Option.some.inj hstep ▸ h.same hpc (by simp) ?_ (fun _ => rfl) rfl
              (fun _ => rfl) rfl (.inl rfl)⟩
            exact ⟨hset.next, hset.operation, rfl, rfl, rfl, rfl, fun _ => rfl, rfl, rfl⟩
        case h_1 y hposted =>
          split at hposted
          case isFalse => cases hposted
          case isTrue =>
            simp only [Prod.mk.injEq, true_and] at hposted
            subst hposted
            obtain rfl := Option.some.inj hstep
            have hnone : s.requests b = [] := by rw [h.stored.requests, hb]; rfl
            refine ⟨update place b (.sending 0 k), h.pass hpc (by simp)
              (h.stored.request (by rw [hb]; rfl) (by simp) (by simp [hb]) hset.next ?_
                (fun b' hne => ?_) ?_ rfl rfl rfl) rfl rfl rfl rfl
              (by rw [hb]; simp [Place.holder]) (by simp [Place.holder]) (by simp [hb])
              (by simp) (fun l => by rw [hb]; rfl) rfl (fun l => rfl) rfl (fun l => rfl)
              (by simp [Pc.buffer])⟩
            · simp [Place.Operates, State.setSocket]
            · simp only [State.setSocket]
              rw [update_of_ne hne]
            · simp only [hnone]
              rfl

theorem Kept.postRecv (h : Kept cfg s place) (hpc : s.thread t = .postRecv o b)
    (hstep : advance s cfg t ok = some s') : ∃ place', Kept cfg s' place' := by
  have hb : place b = .held t [] := h.held hpc rfl
  have hset := h.stored.setBuffer (b := b)
    (e := { s.buffer b with sock := some o, operation := .opRead }) rfl (by rw [hb]; trivial)
  simp only [advance, hpc, Option.some.injEq] at hstep
  subst hstep
  cases hs : (s.socket o).s with
  | none =>
      simp only [IocpServer.postRecv, State.setBuffer, hs, update_self, Function.update_idem]
      exact ⟨place, h.same hpc (by simp) hset (fun _ => rfl) rfl (fun _ => rfl) rfl (.inr rfl)⟩
  | some k =>
      simp only [IocpServer.postRecv, State.setBuffer, hs, update_self, Function.update_idem]
      split
      case isFalse =>
        exact ⟨place, h.same hpc (by simp) hset (fun _ => rfl) rfl (fun _ => rfl) rfl (.inr rfl)⟩
      case isTrue =>
        have hnone : s.requests b = [] := by rw [h.stored.requests, hb]; rfl
        refine ⟨update place b (.receiving 0 k (s.buffer b).buflen), h.pass hpc (by simp)
          (h.stored.request (by rw [hb]; rfl) (by simp) (by simp [hb]) hset.next ?_
            (fun b' hne => ?_) ?_ rfl rfl rfl) rfl rfl rfl rfl
          (by rw [hb]; simp [Place.holder]) (by simp [Place.holder]) (by simp [hb])
          (by simp) (fun l => by rw [hb]; rfl) rfl (fun l => rfl) rfl (fun l => rfl)
          (by simp [Pc.buffer])⟩
        · simp [Place.Operates, State.setSocket]
        · simp only [State.setSocket]
          rw [update_of_ne hne]
        · simp only [hnone]
          rfl

theorem Kept.advance (h : Kept cfg s place) (hstep : IocpServer.advance s cfg t ok = some s') :
    ∃ place', Kept cfg s' place' := by
  cases hpc : s.thread t
  case idle => simp [IocpServer.advance, hpc] at hstep
  case postSend b tail => exact h.postSend hpc hstep
  case postRecv o b => exact h.postRecv hpc hstep
  all_goals simp only [IocpServer.advance, hpc, Option.some.injEq] at hstep
  all_goals try subst hstep
  case acceptDone l b n => exact ⟨_, h.acceptDone hpc⟩
  case removeAccept l b n =>
    obtain ⟨x, hx, rfl⟩ := Option.map_eq_some_iff.mp hstep
    exact ⟨_, h.removeAccept hpc hx⟩
  case enqueue o b n l =>
    obtain ⟨x, hx, rfl⟩ := Option.map_eq_some_iff.mp hstep
    exact ⟨_, h.enqueue hpc hx⟩
  case dequeue tail =>
    split at hstep
    case h_1 => cases hstep
    case h_2 x hqueue =>
      have hsame : SameBuffers place s x := by
        simp only [dequeuePendingOperation] at hqueue
        split at hqueue
        case h_1 =>
          simp only [Option.some.injEq, Prod.mk.injEq, true_and] at hqueue
          exact hqueue ▸ h.stored.refl
        case h_2 =>
          split at hqueue
          · cases hqueue
          · simp at hqueue
      exact ⟨place, Option.some.inj hstep ▸ h.same hpc (by simp) hsame (fun _ => rfl) rfl
        buffer_tail.2.2 buffer_tail.2.1 (.inr buffer_tail.1)⟩
    case h_3 hqueue => exact ⟨_, Option.some.inj hstep ▸ h.dequeue hpc hqueue⟩
  case freeBufferObj b after => exact ⟨_, h.freeBufferObj hpc⟩
  case newSocketObj l b n =>
    split at hstep
    all_goals
      rename_i hget
      exact ⟨place, Option.some.inj hstep ▸ h.same hpc (by simp) (h.stored.getSocketObj hget)
        (fun _ => rfl) rfl (fun _ => rfl) rfl (.inl rfl)⟩
  case associate l b n o =>
    split at hstep
    case h_1 =>
      exact ⟨place, Option.some.inj hstep ▸ h.same hpc (by simp) h.stored.refl (fun _ => rfl)
        rfl (fun _ => rfl) rfl (.inr rfl)⟩
    case h_2 k hs =>
      split at hstep
      · exact ⟨place, Option.some.inj hstep ▸ h.same hpc (by simp)
          ⟨rfl, h.stored.operation, rfl, rfl, rfl, rfl, fun _ => rfl, rfl, rfl⟩ (fun _ => rfl)
          rfl (fun _ => rfl) rfl (.inl rfl)⟩
      · exact ⟨place, Option.some.inj hstep ▸ h.same hpc (by simp) h.stored.refl
          (fun _ => rfl) rfl (fun _ => rfl) rfl (.inr rfl)⟩
  case acceptFailed b | closeClient l b =>
    exact ⟨place, h.same hpc (by simp) (h.stored.closeClient b _) (fun _ => rfl) rfl
      (fun _ => rfl) rfl (.inl rfl)⟩
  case repost l | signalRepost l =>
    refine ⟨place, h.same hpc (by simp) ⟨rfl, h.stored.operation, rfl, rfl,
      heads_setListener_eq rfl, rfl, fun l' => ?_, rfl, rfl⟩ (fun _ => rfl) rfl (fun _ => rfl) rfl
      (.inl rfl)⟩
    simp only [State.setListener]
    rcases eq_or_ne l' l with rfl | hne
    · rw [update_self]
    · rw [update_of_ne hne]
  case readFailed o b | writeFailed o b | readDone o b n =>
    refine ⟨place, h.same hpc (by simp) (h.stored.setSocket _) (fun _ => rfl) rfl ?_ ?_ (.inl ?_)⟩
    · split <;> exact fun _ => rfl
    · split <;> rfl
    · split <;> rfl
  case readFailedTest o b | writeFailedTest o b =>
    refine ⟨place, h.same hpc (by simp) h.stored.refl (fun _ => rfl) rfl ?_ ?_ (.inl ?_)⟩
    · split <;> exact fun _ => rfl
    · split <;> rfl
    · split <;> rfl
  case setClosing o b | writeDone o b =>
    exact ⟨place, h.same hpc (by simp) (h.stored.setSocket _) (fun _ => rfl) rfl
      (fun _ => rfl) rfl (.inl rfl)⟩
  case writeDoneGlobal o b =>
    have hset := h.stored.setBuffer (b := b)
      (e := { s.buffer b with buflen := cfg.gBufferSize }) rfl ((h.stored.operation b).congr rfl)
    exact ⟨place, h.same hpc (by simp) ⟨hset.next, hset.operation, rfl, rfl, rfl, rfl,
      fun _ => rfl, rfl, rfl⟩ (fun _ => rfl) rfl (fun _ => rfl) rfl (.inl rfl)⟩
  case testClosing o b =>
    split
    · exact ⟨place, h.same hpc (by simp) h.stored.refl (fun _ => rfl) rfl (fun _ => rfl) rfl
        (.inr rfl)⟩
    · exact ⟨place, h.same hpc (by simp) h.stored.refl (fun _ => rfl) rfl (fun _ => rfl) rfl
        (.inl rfl)⟩
  case testLast o =>
    exact ⟨place, h.same hpc (by simp) h.stored.refl (fun _ => rfl) rfl (fun _ => rfl) rfl
      (.inr rfl)⟩
  case process tail =>
    split
    · exact ⟨place, h.same hpc (by simp) h.stored.refl (fun _ => rfl) rfl (fun _ => rfl) rfl
        (.inr rfl)⟩
    · exact ⟨place, h.same hpc (by simp) h.stored.refl (fun _ => rfl) rfl buffer_tail.2.2
        buffer_tail.2.1 (.inr buffer_tail.1)⟩
  case testSend o bCleanup | testRecv o bCleanup =>
    split
    · exact ⟨place, h.same hpc (by simp) h.stored.refl (fun _ => rfl) rfl (fun _ => rfl) rfl
        (.inr rfl)⟩
    · exact ⟨place, h.same hpc (by simp) h.stored.refl (fun _ => rfl) rfl buffer_cleanup.2.2
        buffer_cleanup.2.1 (.inr buffer_cleanup.1)⟩
  case testCloses o bCleanup =>
    exact ⟨place, h.same hpc (by simp) h.stored.refl (fun _ => rfl) rfl buffer_cleanup.2.2
      buffer_cleanup.2.1 (.inr buffer_cleanup.1)⟩
  case closeSocket o =>
    exact ⟨place, h.same hpc (by simp) (h.stored.closeSocketObj _ _) (fun _ => rfl) rfl
      (fun _ => rfl) rfl (.inr rfl)⟩
  case freeSocketObj o buf =>
    exact ⟨place, h.same hpc (by simp) (h.stored.closeSocketObj _ _) (fun _ => rfl) rfl
      (fun _ => rfl) rfl (.inl rfl)⟩
  case pushSocketObj o buf =>
    refine ⟨place, h.same hpc (by simp) ⟨rfl, h.stored.operation, rfl, rfl, rfl, rfl,
      fun _ => rfl, rfl, rfl⟩ (fun _ => rfl) rfl ?_ ?_ (.inl ?_)⟩
    · cases buf <;> exact fun _ => rfl
    · cases buf <;> rfl
    · cases buf <;> rfl

/-! ## Completions -/

theorem arrive_cases {request : Request} (harrive : arrive s b request result = some (x, key, m)) :
    x = s ∨ ∃ k data, x = receive s b k data := by
  cases request with
  | acceptEx l' k len =>
      cases result with
      | none =>
          simp only [arrive, Option.some.injEq, Prod.mk.injEq] at harrive
          exact .inl harrive.1.symm
      | some data =>
          simp only [arrive, Option.ite_none_right_eq_some, Option.some.injEq,
            Prod.mk.injEq] at harrive
          exact .inr ⟨k, data, harrive.2.1.symm⟩
  | wsaRecv k len =>
      cases result with
      | none =>
          simp only [arrive, Option.map_eq_some_iff, Prod.mk.injEq] at harrive
          obtain ⟨_, _, hx, _⟩ := harrive
          exact .inl hx.symm
      | some data =>
          simp only [arrive, Option.ite_none_right_eq_some, Option.map_eq_some_iff,
            Prod.mk.injEq] at harrive
          obtain ⟨_, _, _, hx, _⟩ := harrive
          exact .inr ⟨k, data, hx.symm⟩
  | wsaSend k =>
      cases result with
      | none | some data =>
          simp only [arrive, Option.map_eq_some_iff, Prod.mk.injEq] at harrive
          obtain ⟨_, _, hx, _⟩ := harrive
          exact .inl hx.symm

theorem arrive_operation {request : Request}
    (harrive : arrive s b request result = some (x, key, m)) (b' : BufferPtr) :
    (x.buffer b').operation = (s.buffer b').operation := by
  obtain rfl | ⟨k, data, rfl⟩ := arrive_cases harrive
  · rfl
  · simp only [receive, State.setBuffer]
    rcases eq_or_ne b' b with rfl | hne
    · rw [update_self]
      rfl
    · rw [update_of_ne hne]

theorem arrive_same {request : Request} (hop : ∀ b, (place b).Operates (s.buffer b))
    (harrive : arrive s b request result = some (x, key, m)) : SameBuffers place s x := by
  have hop' := fun b' => (hop b').congr (arrive_operation harrive b')
  obtain rfl | ⟨k, data, rfl⟩ := arrive_cases harrive
  · exact ⟨rfl, hop', rfl, rfl, rfl, rfl, fun _ => rfl, rfl, rfl⟩
  · refine ⟨comp_update_eq rfl, hop', rfl, rfl, ?_, rfl, fun _ => rfl, rfl, rfl⟩
    funext i
    cases i <;> rfl

theorem arrive_wsaRecv
    (harrive : arrive s b (.wsaRecv k len) result = some (x, key, m)) : ∃ o, key = .inr o := by
  cases result with
  | none =>
      simp only [arrive, Option.map_eq_some_iff, Prod.mk.injEq] at harrive
      obtain ⟨o, -, -, rfl, -⟩ := harrive
      exact ⟨o, rfl⟩
  | some data =>
      simp only [arrive, Option.ite_none_right_eq_some, Option.map_eq_some_iff,
        Prod.mk.injEq] at harrive
      obtain ⟨-, o, -, -, rfl, -⟩ := harrive
      exact ⟨o, rfl⟩

theorem arrive_wsaSend
    (harrive : arrive s b (.wsaSend k) result = some (x, key, m)) : ∃ o, key = .inr o := by
  cases result with
  | none | some data =>
      simp only [arrive, Option.map_eq_some_iff, Prod.mk.injEq] at harrive
      obtain ⟨o, -, -, rfl, -⟩ := harrive
      exact ⟨o, rfl⟩

theorem handleIo_socket (hpc : handleIo s b m (.inr o) = some pc) :
    pc.buffer = some b ∧ pc.accept = none ∧ ∀ l, pc.accepting l = 0 := by
  simp only [handleIo] at hpc
  split at hpc
  case h_5 => cases hpc
  all_goals
    obtain rfl := Option.some.inj hpc
    exact ⟨rfl, rfl, fun _ => rfl⟩

theorem Kept.arrived (h : Kept cfg s place) (ht : t < cfg.threads) (hpc : s.thread t = .idle)
    (hrequests : (place b).requests ≠ []) (hp : p.requests = []) (hlist : p.list = (place b).list)
    (hfresh : p ≠ .fresh) (hold : (place b).holder = none) (hnew : p.holder = some (.thread t))
    (hoperates : p.Operates (x.buffer b))
    (hsame : SameBuffers place { s with requests := update s.requests b [] } x)
    (hother : ∀ b', b' ≠ b → (x.buffer b').operation = (s.buffer b').operation)
    (hweight : ∀ l, p.weight l + pc.accepting l = (place b).weight l)
    (hbuffer : ∀ b', pc.buffer = some b' → b' = b ∧ p = .held t [])
    (haccept : ∀ l b', pc.accept = some (l, b') ↔
      b' = b ∧ ∃ c data, p = .listed l (.done t c data)) :
    Kept cfg (x.goto t pc) (update place b p) := by
  have hb : place b ≠ .fresh := by
    intro hfresh
    rw [hfresh] at hrequests
    exact hrequests rfl
  refine h.move ht (h.stored.request hlist hfresh hb hsame.next hoperates hother ?_ hsame.buffers
    ?_ hsame.last) hsame.thread hsame.main (by simp [hold]) (by simp [hnew]) (h.stored.lt hb)
    hsame.buffers (fun l => ?_) (fun b' hb' => ?_) fun l b' => ?_
  · rw [hsame.requests, hp]
  · rw [hsame.heads]
    funext i
    cases i <;> rfl
  · rw [hsame.count, hpc, ← hweight l]
    simp only [Pc.accepting]
    omega
  · obtain ⟨rfl, rfl⟩ := hbuffer b' hb'
    exact update_self _ _ _
  · rw [haccept]
    rcases eq_or_ne b' b with rfl | hne
    · rw [update_self]
      exact and_iff_right rfl
    · rw [update_of_ne hne]
      refine iff_of_false (fun hmine => hne hmine.1) ?_
      rintro ⟨c, data, hdone⟩
      exact h.not_done hpc rfl l b' hdone

theorem Kept.socketArrived (h : Kept cfg s place) (ht : t < cfg.threads) (hpc : s.thread t = .idle)
    (hb : (∃ o k len, place b = .receiving o k len) ∨ ∃ o k, place b = .sending o k)
    (hsame : SameBuffers place { s with requests := update s.requests b [] } x)
    (hop : ∀ b', (x.buffer b').operation = (s.buffer b').operation)
    (hkey : ∃ o, key = .inr o) (hhandle : handleIo x b m key = some pc) :
    Kept cfg (x.goto t pc) (update place b (.held t [])) := by
  obtain ⟨o, rfl⟩ := hkey
  obtain ⟨hbuffer, haccept, haccepting⟩ := handleIo_socket hhandle
  have hplace : (place b).requests ≠ [] ∧ (place b).list = none ∧ (place b).holder = none ∧
      ∀ l, (place b).weight l = 0 := by
    rcases hb with ⟨o, k, len, hb⟩ | ⟨o, k, hb⟩
    · rw [hb]
      exact ⟨by simp [Place.requests], rfl, rfl, fun _ => rfl⟩
    · rw [hb]
      exact ⟨by simp [Place.requests], rfl, rfl, fun _ => rfl⟩
  obtain ⟨hrequests, hlist, hholder, hweight⟩ := hplace
  refine h.arrived ht hpc hrequests rfl hlist.symm (by simp) hholder rfl trivial hsame
    (fun b' _ => hop b') (fun l => ?_) (fun b' hb' => ?_) fun l b' => ?_
  · rw [hweight, haccepting]
    rfl
  · rw [hbuffer] at hb'
    exact ⟨(Option.some.inj hb').symm, rfl⟩
  · rw [haccept]
    refine iff_of_false (by simp) ?_
    rintro ⟨-, c, data, hp⟩
    cases hp

theorem Kept.complete (h : Kept cfg s place) (ht : t < cfg.threads)
    (hfails : acceptFails s (.complete t b i result) = false)
    (hstep : IocpServer.complete s t b i result = some s') : ∃ place', Kept cfg s' place' := by
  simp only [IocpServer.complete] at hstep
  split at hstep
  case h_2 => cases hstep
  case h_1 request hpc hrequest =>
    split at hstep
    case h_1 => cases hstep
    case h_2 x key m harrive =>
      obtain ⟨pc, hhandle, rfl⟩ := Option.map_eq_some_iff.mp hstep
      have hplace := hrequest
      rw [h.stored.requests] at hplace
      have hone : ∀ r, (place b).requests = [r] → (s.requests b).eraseIdx i = [] ∧ request = r := by
        intro r hr
        rw [hr, List.getElem?_singleton] at hplace
        obtain ⟨rfl, hr'⟩ := Option.ite_none_right_eq_some.mp hplace
        rw [h.stored.requests, hr]
        exact ⟨rfl, (Option.some.inj hr').symm⟩
      have hop := h.stored.operation b
      have hop' := arrive_operation harrive
      have hsame : SameBuffers place
          { s with requests := update s.requests b ((s.requests b).eraseIdx i) } x :=
        arrive_same h.stored.operation harrive
      cases hb : place b with
      | listed l w =>
          cases w with
          | inFlight k len c =>
              obtain ⟨herase, rfl⟩ := hone (.acceptEx l k len) (by rw [hb]; rfl)
              rw [herase] at hsame
              cases result with
              | none => simp [acceptFails, hrequest] at hfails
              | some data =>
                  simp only [arrive, Option.ite_none_right_eq_some, Option.some.injEq,
                    Prod.mk.injEq] at harrive
                  obtain ⟨-, -, rfl, rfl⟩ := harrive
                  rw [hb] at hop
                  have hopAccept : (x.buffer b).operation = .opAccept := (hop' b).trans hop
                  simp only [handleIo, hopAccept, Option.some.injEq] at hhandle
                  subst hhandle
                  refine ⟨_, h.arrived (p := .listed l (.done t c [])) ht hpc
                    (by simp [hb, Place.requests]) rfl (by rw [hb]; rfl) (by simp)
                    (by rw [hb]; rfl) rfl trivial hsame
                    (fun b' _ => hop' b') (fun l' => ?_) (by simp [Pc.buffer]) fun l' b' => ?_⟩
                  · rw [hb]
                    simp [Place.weight, Place.accepting, Pc.accepting]
                  · simp [Pc.accept, and_comm, eq_comm]
          | _ => simp [hb, Place.requests] at hplace
      | receiving o k len =>
          obtain ⟨herase, rfl⟩ := hone (.wsaRecv k len) (by rw [hb]; rfl)
          exact ⟨_, h.socketArrived ht hpc (.inl ⟨o, k, len, hb⟩) (herase ▸ hsame) hop'
            (arrive_wsaRecv harrive) hhandle⟩
      | sending o k =>
          obtain ⟨herase, rfl⟩ := hone (.wsaSend k) (by rw [hb]; rfl)
          exact ⟨_, h.socketArrived ht hpc (.inr ⟨o, k, hb⟩) (herase ▸ hsame) hop'
            (arrive_wsaSend harrive) hhandle⟩
      | _ => simp [hb, Place.requests] at hplace

/-! ## The steps of the main thread -/

/-- The main thread has no buffer in hand. -/
def MainPc.Plain : MainPc → Prop
  | .insert _ _ | .createSocket _ _ | .acceptEx _ _ => False
  | _ => True

theorem Kept.mainOnward {m : MainPc} (h : Kept cfg s place) (hstored : Stored x place)
    (hthread : x.thread = s.thread) (hbuffers : x.buffers = s.buffers) (hold : s.main.Plain)
    (hnew : m.Plain) (hcount : ∀ l, (x.listener l).pendingAcceptCount + m.posted l =
      (s.listener l).pendingAcceptCount + s.main.posted l) :
    Kept cfg { x with main := m } place := by
  have hplain : ∀ {m : MainPc}, m.Plain → ∀ r b, m ≠ .insert r b ∧ m ≠ .createSocket r b ∧
      m ≠ .acceptEx r b := by
    intro m hm r b
    refine ⟨?_, ?_, ?_⟩ <;>
    · rintro rfl
      exact hm
  constructor
  · exact hstored.same rfl hstored.operation rfl rfl (by funext i; cases i <;> rfl) rfl
  · intro t ht
    simp only [hthread]
    exact h.inside t ht
  · intro t b hb
    simp only [hthread] at hb
    exact h.holds t b hb
  · intro t l b
    simp only [hthread]
    exact h.accepts t l b
  · intro r b hinsert
    exact absurd hinsert (hplain hnew r b).1
  · intro l b
    rw [h.inserted]
    refine iff_of_false ?_ ?_
    · rintro ⟨r, hr, -⟩
      exact (hplain hold r b).2.1 hr
    · rintro ⟨r, hr, -⟩
      exact (hplain hnew r b).2.1 hr
  · intro l b
    rw [h.idle]
    refine iff_of_false ?_ ?_
    · rintro ⟨r, hr, -⟩
      exact (hplain hold r b).2.2 hr
    · rintro ⟨r, hr, -⟩
      exact (hplain hnew r b).2.2 hr
  · intro l n hn
    simp only [hthread, hcount l]
    exact h.counted l n (hbuffers ▸ hn)

theorem Kept.mainMove {m : MainPc} (h : Kept cfg s place) (hstored : Stored x (update place b p))
    (hthread : x.thread = s.thread) (hold : Loose .main (place b).holder)
    (hnew : Loose .main p.holder) (hle : s.buffers ≤ x.buffers) (hb : b < x.buffers)
    (hcount : ∀ l, (x.listener l).pendingAcceptCount + m.posted l =
      (s.listener l).pendingAcceptCount + s.main.posted l + (p.weight l - (place b).weight l))
    (hspare : ∀ r b', m = .insert r b' → update place b p b' = .spare)
    (hinserted : ∀ l b', update place b p b' = .listed l .inserted ↔
      ∃ r, m = .createSocket r b' ∧ r.listenobj = l)
    (hidle : ∀ l b', (∃ c, update place b p b' = .listed l (.idle c)) ↔
      ∃ r, m = .acceptEx r b' ∧ r.listenobj = l) :
    Kept cfg { x with main := m } (update place b p) := by
  have hthreads : ∀ {t : ThreadId} {q : Place} (b' : BufferPtr), q.holder = some (.thread t) →
      (update place b p b' = q ↔ place b' = q) := by
    intro t q b' hq
    exact update_eq_iff hold hnew hq (by simp) b'
  constructor
  · exact hstored.same rfl hstored.operation rfl rfl (by funext i; cases i <;> rfl) rfl
  · intro t ht
    simp only [hthread]
    exact h.inside t ht
  · intro t b' hb'
    simp only [hthread] at hb'
    exact (hthreads b' rfl).mpr (h.holds t b' hb')
  · intro t l b'
    simp only [hthread]
    rw [h.accepts t l b']
    exact exists_congr fun c => exists_congr fun data => (hthreads b' rfl).symm
  · exact hspare
  · exact hinserted
  · exact hidle
  · intro l n hn
    have hcounted := h.counted l n (hle.trans hn)
    simp only [hthread, hcount l]
    rw [tally_update (hb.trans_le hn)]
    omega

theorem Kept.not_inserted (h : Kept cfg s place) (hmain : ∀ r, s.main ≠ .createSocket r b)
    (l : ListenPtr) : place b ≠ .listed l .inserted := by
  intro hb
  obtain ⟨r, hr, -⟩ := (h.inserted l b).mp hb
  exact hmain r hr

theorem Kept.not_idle (h : Kept cfg s place)
    (hmain : ∀ r, s.main ≠ .acceptEx r b) (l : ListenPtr) : place b ≠ .listed l (.idle c) := by
  intro hb
  obtain ⟨r, hr, -⟩ := (h.idle l b).mp ⟨c, hb⟩
  exact hmain r hr

theorem update_ne {b' : BufferPtr} (hp : p ≠ q) (hplace : place b' ≠ q) :
    update place b p b' ≠ q := by
  rcases eq_or_ne b' b with rfl | hne
  · rwa [update_self]
  · rwa [update_of_ne hne]

theorem Stored.getBufferObj (h : Stored s place)
    (hget : IocpServer.getBufferObj s n ok = (some b, x)) :
    (place b = .fresh ∨ place b = .free) ∧ Stored x (update place b .spare) ∧
      s.buffers ≤ x.buffers ∧ b < x.buffers ∧ x.thread = s.thread ∧ x.listener = s.listener := by
  simp only [IocpServer.getBufferObj] at hget
  split at hget
  case h_1 hempty =>
    split at hget
    case isFalse => simp at hget
    case isTrue =>
      simp only [Prod.mk.injEq, Option.some.injEq] at hget
      obtain ⟨rfl, rfl⟩ := hget
      have hfresh : place s.buffers = .fresh := (h.fresh _).mpr le_rfl
      refine ⟨.inl hfresh, h.relocate ?_ trivial (fun b' hne => ?_) ?_ (by simp) fun b' => ?_,
        Nat.le_succ _, Nat.lt_succ_self _, rfl, rfl⟩
      · exact (h.lists.loose (by rw [hfresh]; rfl)).move (by rw [hfresh]; rfl)
      · exact congrArg _ (update_of_ne hne _ _)
      · exact h.requests_eq (by rw [hfresh]; rfl)
      · change s.buffers + 1 ≤ b' ↔ _
        omega
  case h_2 newobj hsome =>
    simp only [Prod.mk.injEq, Option.some.injEq] at hget
    obtain ⟨rfl, rfl⟩ := hget
    obtain ⟨hlist, hpop⟩ := h.lists.pop (i := .free) (b := newobj) hsome (by simp)
    have hfree : place newobj = .free := by
      cases hp : place newobj with
      | free => rfl
      | _ => simp [hp, Place.list] at hlist
    have hlt : newobj < s.buffers := h.lt (by simp [hfree])
    refine ⟨.inr hfree, h.relocate ?_ trivial (fun b' hne => ?_) ?_ (by simp)
      (buffers_le_iff hlt), le_rfl, hlt, rfl, rfl⟩
    · have hheads : State.heads
          { s.setBuffer newobj { s.buffer newobj with next := none, buflen := n } with
            gFreeBufferList := (s.buffer newobj).next } =
          update s.heads .free (s.buffer newobj).next := by
        funext i
        cases i <;> rfl
      rw [hheads]
      exact (hpop .spare rfl).loose (by simp [Place.list])
    · exact congrArg _ (update_of_ne hne _ _)
    · exact h.requests_eq (by rw [hfree]; rfl)

theorem Kept.getBufferObj (h : Kept cfg s place) (hmain : s.main = .getBufferObj r)
    (hstep : IocpServer.advanceMain s cfg ok = some s') : ∃ place', Kept cfg s' place' := by
  simp only [IocpServer.advanceMain, hmain] at hstep
  split at hstep
  case h_2 x hget =>
    obtain rfl := Option.some.inj hstep
    have hx : x = s := by
      simp only [IocpServer.getBufferObj] at hget
      split at hget
      case h_2 => simp at hget
      case h_1 =>
        split at hget
        · simp at hget
        · exact (Prod.mk.inj hget).2.symm
    subst hx
    refine ⟨place, h.mainOnward h.stored rfl rfl (by rw [hmain]; trivial) ?_ fun l => ?_⟩
    · split <;> trivial
    · rw [hmain]
      split <;> rfl
  case h_1 b x hget =>
    obtain rfl := Option.some.inj hstep
    obtain ⟨hb, hstored, hle, hlt, hthread, hlistener⟩ := h.stored.getBufferObj hget
    have hnobody : (place b).holder = none ∧ ∀ l, (place b).weight l = 0 := by
      rcases hb with hb | hb <;> rw [hb] <;> exact ⟨rfl, fun _ => rfl⟩
    refine ⟨_, h.mainMove hstored hthread (by simp [hnobody.1]) (by simp [Place.holder]) hle hlt
      (fun l => ?_) (fun r' b' hr' => ?_) (fun l b' => ?_) fun l b' => ?_⟩
    · rw [hlistener, hmain, hnobody.2]
      simp [MainPc.posted, Place.weight, Place.accepting]
    · obtain ⟨rfl, rfl⟩ : r = r' ∧ b = b' := by simpa using hr'
      exact update_self _ _ _
    · exact iff_of_false (update_ne (by simp) (h.not_inserted (by simp [hmain]) l)) (by simp)
    · refine iff_of_false ?_ (by simp)
      rintro ⟨c, hc⟩
      exact update_ne (by simp) (h.not_idle (by simp [hmain]) l) hc

theorem Stored.insertPendingAccept (h : Stored s place) (hb : place b = .spare) (l : ListenPtr) :
    Stored (IocpServer.insertPendingAccept s l b) (update place b (.listed l .inserted)) ∧
      (IocpServer.insertPendingAccept s l b).buffers = s.buffers ∧
      (IocpServer.insertPendingAccept s l b).thread = s.thread ∧
      ∀ l', ((IocpServer.insertPendingAccept s l b).listener l').pendingAcceptCount =
        (s.listener l').pendingAcceptCount := by
  have hnone := h.requests_eq (b := b) (by rw [hb]; rfl)
  have hlt := h.lt (b := b) (by simp [hb])
  have hlists := fun obj : BufferObj => h.lists.push (b := b) (e := obj)
    (p := .listed l .inserted) (i := .accepts l)
    (k := update s.heads (.accepts l) (some b)) (by rw [hb]; rfl) rfl (by simp)
  have hcount : ∀ (y : State) (obj : ListenObj) l',
      obj.pendingAcceptCount = (y.listener l).pendingAcceptCount →
      ((y.setListener l obj).listener l').pendingAcceptCount =
        (y.listener l').pendingAcceptCount := by
    intro y obj l' hobj
    simp only [State.setListener]
    rcases eq_or_ne l' l with rfl | hne
    · rw [update_self, hobj]
    · rw [update_of_ne hne]
  unfold IocpServer.insertPendingAccept
  dsimp only
  split
  case h_1 hempty =>
    refine ⟨h.relocate ?_ trivial (fun b' hne => ?_) hnone (by simp) (buffers_le_iff hlt), rfl,
      rfl, fun l' => hcount _ _ l' rfl⟩
    · rw [heads_setListener]
      exact hlists _ (Eq.symm hempty) rfl
    · exact congrArg _ (update_of_ne hne _ _)
  case h_2 first hfirst =>
    refine ⟨h.relocate ?_ trivial (fun b' hne => ?_) hnone (by simp) (buffers_le_iff hlt), rfl,
      rfl, fun l' => hcount _ _ l' rfl⟩
    · rw [heads_setListener]
      simp only [State.setListener, State.setBuffer, Function.update_idem]
      exact hlists _ (Eq.symm hfirst) rfl
    · simp only [State.setListener, State.setBuffer]
      rw [update_of_ne hne, update_of_ne hne]

theorem Kept.insert (h : Kept cfg s place) (hmain : s.main = .insert r b) :
    Kept cfg { IocpServer.insertPendingAccept s r.listenobj b with main := .createSocket r b }
      (update place b (.listed r.listenobj .inserted)) := by
  have hb := h.spare r b hmain
  obtain ⟨hstored, hbuffers, hthread, hcount⟩ := h.stored.insertPendingAccept hb r.listenobj
  refine h.mainMove hstored hthread (by rw [hb]; simp [Place.holder]) (by simp [Place.holder])
    (le_of_eq hbuffers.symm) (hbuffers ▸ h.stored.lt (by simp [hb])) (fun l => ?_) (by simp)
    (fun l b' => ?_) fun l b' => ?_
  · rw [hcount, hmain, hb]
    simp [MainPc.posted, Place.weight, Place.accepting]
  · rcases eq_or_ne b' b with rfl | hne
    · rw [update_self]
      simp
    · rw [update_of_ne hne]
      exact iff_of_false (h.not_inserted (by simp [hmain]) l) (by simp [hne.symm])
  · refine iff_of_false ?_ (by simp)
    rintro ⟨c, hc⟩
    exact update_ne (by simp) (h.not_idle (by simp [hmain]) l) hc

theorem Kept.createSocket (h : Kept cfg s place) (hmain : s.main = .createSocket r b) : Kept cfg
      { s.setBuffer b { s.buffer b with operation := .opAccept, sclient := some (s.handles + 1) }
        with handles := s.handles + 1, main := .acceptEx r b }
      (update place b (.listed r.listenobj (.idle none))) := by
  have hb : place b = .listed r.listenobj .inserted := (h.inserted _ b).mpr ⟨r, hmain, rfl⟩
  have hlt : b < s.buffers := h.stored.lt (by simp [hb])
  refine h.mainMove (x := { s.setBuffer b { s.buffer b with
      operation := .opAccept, sclient := some (s.handles + 1) } with handles := s.handles + 1 })
    (h.stored.relocate ?_ ?_ (fun b' hne => ?_) ?_ (by simp) (buffers_le_iff hlt)) rfl
    (by rw [hb]; simp [Place.holder]) (by simp [Place.holder]) le_rfl hlt (fun l => ?_) (by simp)
    (fun l b' => ?_) fun l b' => ?_
  · exact h.stored.lists.put rfl (by rw [hb]; rfl)
  · simp [Place.Operates, State.setBuffer]
  · exact congrArg _ (update_of_ne hne _ _)
  · exact h.stored.requests_eq (by rw [hb]; rfl)
  · rw [hmain, hb]
    simp [MainPc.posted, Place.weight, Place.accepting, State.setBuffer]
  · refine iff_of_false ?_ (by simp)
    rcases eq_or_ne b' b with rfl | hne
    · rw [update_self]
      simp
    · rw [update_of_ne hne]
      exact h.not_inserted (by simp [hmain, hne.symm]) l
  · rcases eq_or_ne b' b with rfl | hne
    · rw [update_self]
      simp
    · rw [update_of_ne hne]
      refine iff_of_false ?_ (by simp [hne.symm])
      rintro ⟨c, hc⟩
      exact h.not_idle (by simp [hmain]) l hc

theorem Kept.acceptEx (h : Kept cfg s place) (hmain : s.main = .acceptEx r b) : Kept cfg { s with
        requests := update s.requests b (s.requests b ++ [.acceptEx r.listenobj k len])
        main := .count r } (update place b (.listed r.listenobj (.inFlight k len none))) := by
  obtain ⟨c, hb⟩ := (h.idle r.listenobj b).mpr ⟨r, hmain, rfl⟩
  have hlt : b < s.buffers := h.stored.lt (by simp [hb])
  refine h.mainMove (x := { s with
      requests := update s.requests b (s.requests b ++ [.acceptEx r.listenobj k len]) })
    (h.stored.request (by rw [hb]; rfl) (by simp) (by simp [hb]) rfl ?_ (fun _ _ => rfl) ?_ rfl rfl
      rfl) rfl
    (by rw [hb]; simp [Place.holder]) (by simp [Place.holder]) le_rfl hlt (fun l => ?_) (by simp)
    (fun l b' => ?_) fun l b' => ?_
  · have hop := h.stored.operation b
    rw [hb] at hop
    exact hop
  · rw [h.stored.requests, hb]
    rfl
  · rw [hmain, hb]
    simp [Place.weight, Place.accepting, MainPc.posted]
  · exact iff_of_false (update_ne (by simp) (h.not_inserted (by simp [hmain]) l)) (by simp)
  · refine iff_of_false ?_ (by simp)
    rintro ⟨c, hc⟩
    rcases eq_or_ne b' b with rfl | hne
    · rw [update_self] at hc
      cases hc
    · rw [update_of_ne hne] at hc
      exact h.not_idle (by simp [hmain, hne.symm]) l hc

theorem closesocket_buffer {k : Option ℕ} : (IocpServer.closesocket s k).buffer = s.buffer := by
  cases k <;> rfl

theorem Stored.closeStale {stale : BufferPtr → Bool} {fuel : ℕ} {start : Option BufferPtr}
    (h : Stored s place) (hclose : IocpServer.closeStale stale fuel start s = some x) :
    SameBuffers place s x := by
  induction fuel generalizing s start with
  | zero => cases hclose
  | succ fuel ih =>
      cases start with
      | none => exact Option.some.inj hclose ▸ h.refl
      | some b =>
          unfold IocpServer.closeStale at hclose
          dsimp only at hclose
          split at hclose
          · have hsame := h.closeClient b (s.buffer b).sclient
            simp only [closesocket_buffer] at hsame
            exact hsame.trans (ih (h.sameBuffers hsame) hclose)
          · exact ih h hclose

theorem Kept.advanceMain (h : Kept cfg s place) (hfails : postAcceptFails s (.main ok) = false)
    (hstep : IocpServer.advanceMain s cfg ok = some s') : ∃ place', Kept cfg s' place' := by
  cases hmain : s.main
  case waiting | exited => simp [IocpServer.advanceMain, hmain] at hstep
  case getBufferObj r => exact h.getBufferObj hmain hstep
  case createSocket r b =>
    simp only [postAcceptFails, hmain, Bool.not_eq_false'] at hfails
    simp only [IocpServer.advanceMain, hmain, if_pos hfails, Option.some.injEq] at hstep
    exact ⟨_, hstep ▸ h.createSocket hmain⟩
  case acceptEx r b =>
    simp only [postAcceptFails, hmain, Bool.or_eq_false_iff, Bool.not_eq_false',
      decide_eq_false_iff_not] at hfails
    obtain ⟨rfl, hsclient⟩ := hfails
    obtain ⟨k, hk⟩ := Option.ne_none_iff_exists'.mp hsclient
    simp only [IocpServer.advanceMain, hmain, hk, Option.some.injEq] at hstep
    exact ⟨_, hstep ▸ h.acceptEx hmain⟩
  all_goals simp only [IocpServer.advanceMain, hmain, Option.some.injEq] at hstep
  all_goals try subst hstep
  case exchange l | reset l limit =>
    refine ⟨place, h.mainOnward (h.stored.same rfl h.stored.operation rfl rfl
      (heads_setListener_eq rfl) rfl) rfl rfl (by rw [hmain]; trivial) trivial fun l' => ?_⟩
    rw [hmain]
    simp only [State.setListener, MainPc.posted]
    rcases eq_or_ne l' l with rfl | hne
    · rw [update_self]
    · rw [update_of_ne hne]
  case test r =>
    have hfinish : (r.finish cfg).Plain ∧ ∀ l, (r.finish cfg).posted l = 0 := by
      unfold Round.finish
      split <;> exact ⟨trivial, fun _ => rfl⟩
    refine ⟨place, h.mainOnward h.stored rfl rfl (by rw [hmain]; trivial) ?_ fun l => ?_⟩
    · split
      · trivial
      · exact hfinish.1
    · rw [hmain]
      split
      · rfl
      · rw [hfinish.2]
        rfl
  case insert r b => exact ⟨_, h.insert hmain⟩
  case count r =>
    refine ⟨place, h.mainOnward (h.stored.same rfl h.stored.operation rfl rfl
      (heads_setListener_eq rfl) rfl) rfl rfl (by rw [hmain]; trivial) trivial fun l => ?_⟩
    rw [hmain]
    simp only [State.setListener, MainPc.posted]
    rcases eq_or_ne l r.listenobj with rfl | hne
    · rw [update_self, if_pos rfl, add_zero]
    · rw [update_of_ne hne, if_neg hne.symm]

/-! ## Runs -/

theorem Kept.step {a : Action} (h : Kept cfg s place)
    (haccept : acceptFails s a = false) (hpost : postAcceptFails s a = false)
    (hstep : IocpServer.step cfg s a = some s') : ∃ place', Kept cfg s' place' := by
  cases a with
  | complete t b i result =>
      simp only [IocpServer.step] at hstep
      split at hstep
      case isFalse => cases hstep
      case isTrue ht => exact h.complete ht haccept hstep
  | thread t ok => exact h.advance hstep
  | main ok => exact h.advanceMain hpost hstep
  | burst l | wake l =>
      simp only [IocpServer.step] at hstep
      split at hstep
      case h_2 => cases hstep
      case h_1 hmain =>
        split at hstep
        case isFalse => cases hstep
        case isTrue =>
          exact ⟨place, Option.some.inj hstep ▸ h.mainOnward h.stored rfl rfl
            (by rw [hmain]; trivial) trivial fun l => by rw [hmain]; rfl⟩
  | interval l stale =>
      simp only [IocpServer.step] at hstep
      split at hstep
      case h_2 => cases hstep
      case h_1 hmain =>
        split at hstep
        case isFalse => cases hstep
        case isTrue =>
          have hsame := h.stored.closeStale hstep
          have hmain' : s'.main = .waiting := hsame.main.trans hmain
          refine ⟨place, ?_⟩
          have honward := h.mainOnward (m := .waiting) (h.stored.sameBuffers hsame)
            hsame.thread hsame.buffers (by rw [hmain]; trivial) trivial fun l => by
              rw [hsame.count, hmain]
          rwa [← hmain'] at honward

theorem Kept.start (cfg : Config) : Kept cfg (State.start cfg) fun _ => .fresh where
  stored :=
    { requests := fun _ => rfl
      operation := fun _ => trivial
      fresh := fun b => iff_of_true rfl (Nat.zero_le b)
      lists := by
        refine ⟨fun _ => [], ⟨fun i => ?_, fun i b => ?_⟩, rfl⟩
        rotate_left
        · exact iff_of_false (by simp) (by simp [Place.list])
        cases i <;> rfl }
  inside := fun _ _ => rfl
  holds := fun t b hb => by cases hb
  accepts := fun t l b => iff_of_false (by simp [State.start, Pc.accept]) (by simp)
  spare := fun r b hb => by
    simp only [State.start] at hb
    split at hb <;> cases hb
  inserted := fun l b => by
    refine iff_of_false (by simp) ?_
    rintro ⟨r, hr, -⟩
    simp only [State.start] at hr
    split at hr <;> cases hr
  idle := fun l b => by
    refine iff_of_false (by simp) ?_
    rintro ⟨r, hr, -⟩
    simp only [State.start] at hr
    split at hr <;> cases hr
  counted := fun l m _ => by
    have hposted : (State.start cfg).main.posted l = 0 := by
      simp only [State.start]
      split <;> rfl
    have hthreads : tally (Pc.accepting l) (State.start cfg).thread cfg.threads = 0 :=
      tally_eq_zero fun _ _ => rfl
    have hplaces : tally (Place.weight l) (fun _ => Place.fresh) m = 0 :=
      tally_eq_zero fun _ _ => rfl
    rw [hposted, hthreads, hplaces]
    rfl

theorem Kept.mem_iff (h : Kept cfg s place) (hsettled : s.Settled cfg l) :
    (place b).list = some (.accepts l) ↔ (place b).accepting l = true := by
  obtain ⟨hthreads, hposting, -⟩ := hsettled
  cases hb : place b with
  | listed l' w =>
      cases w with
      | inFlight k len c => simp [Place.list, Place.accepting]
      | inserted =>
          refine iff_of_false (fun hl => ?_) (by simp [Place.accepting])
          obtain ⟨r, hr, rfl⟩ := (h.inserted l' b).mp hb
          obtain rfl : r.listenobj = l := by simpa [Place.list] using hl
          exact hposting b (by rw [hr]; rfl)
      | idle c =>
          refine iff_of_false (fun hl => ?_) (by simp [Place.accepting])
          obtain ⟨r, hr, rfl⟩ := (h.idle l' b).mp ⟨c, hb⟩
          obtain rfl : r.listenobj = l := by simpa [Place.list] using hl
          exact hposting b (by rw [hr]; rfl)
      | done t c data =>
          refine iff_of_false (fun hl => ?_) (by simp [Place.accepting])
          have haccept := (h.accepts t l' b).mpr ⟨c, data, hb⟩
          obtain rfl : l' = l := by simpa [Place.list] using hl
          refine hthreads t (not_le.mp fun hle => ?_) b haccept
          rw [h.inside t hle] at haccept
          cases haccept
  | _ => simp [Place.list, Place.accepting]

theorem Place.accepting_iff : p.accepting l = true ↔ ∃ k len, .acceptEx l k len ∈ p.requests := by
  cases p with
  | listed l' w => cases w <;> simp [Place.accepting, Place.requests, eq_comm]
  | _ => simp [Place.accepting, Place.requests]

theorem Place.list_of_accepting (hp : p.accepting l = true) : p.list = some (.accepts l) := by
  cases p with
  | listed l' w => cases w <;> simp_all [Place.accepting, Place.list]
  | _ => simp [Place.accepting] at hp

theorem Kept.count_eq (h : Kept cfg s place) (hsettled : s.Settled cfg l) :
    (s.listener l).pendingAcceptCount = tally (Place.weight l) place s.buffers := by
  obtain ⟨hthreads, -, hposted⟩ := hsettled
  have hnone : tally (Pc.accepting l) s.thread cfg.threads = 0 := by
    refine tally_eq_zero fun t ht => ?_
    have haccept := hthreads t ht
    cases hpc : s.thread t with
    | acceptDone l' b n =>
        refine if_neg fun hl => haccept b ?_
        rw [hpc, hl]
        rfl
    | _ => rfl
  have hcounted := h.counted l s.buffers le_rfl
  rwa [hposted, hnone, add_zero, add_zero] at hcounted

/-- In every run in which no accept completes with an error and no `PostAccept` fails,
whatever accepts are closed as stale: the buffers with an `AcceptEx` of the listening socket
in flight are in its list, which has no duplicates and no free buffer, and when nobody is in
the middle of posting or removing one, it has no others and `PendingAcceptCount` is its
length. -/
theorem pending_accepts_in_flight {as : List Action}
    (hrun : RunsTo (IocpServer.step cfg)
      (fun s a => acceptFails s a = false ∧ postAcceptFails s a = false) (State.start cfg) as s)
    (l : ListenPtr) :
    ∃ accepts free, Chain s.next (s.listener l).pendingAccepts accepts ∧ accepts.Nodup ∧
      Chain s.next s.gFreeBufferList free ∧ (∀ b ∈ accepts, b ∉ free) ∧
      (∀ b k len, .acceptEx l k len ∈ s.requests b → b ∈ accepts) ∧
      (s.Settled cfg l →
        (∀ b ∈ accepts, ∃ k len, .acceptEx l k len ∈ s.requests b) ∧
          (s.listener l).pendingAcceptCount = accepts.length) := by
  obtain ⟨place, h⟩ : ∃ place, Kept cfg s place := by
    refine hrun.invariant (fun s => ∃ place, Kept cfg s place) ⟨_, .start cfg⟩ ?_
    rintro s a s' ⟨place, h⟩ ⟨haccept, hpost⟩ hstep
    exact h.step haccept hpost hstep
  obtain ⟨content, hlists, -⟩ := h.stored.lists
  have hmem : ∀ i b, b ∈ content i ↔ (place b).list = some i := hlists.mem
  refine ⟨content (.accepts l), content .free, hlists.chain (.accepts l), hlists.nodup _,
    hlists.chain .free,
    fun b hb hfree => ?_, fun b k len hrequest => ?_, fun hsettled => ⟨fun b hb => ?_, ?_⟩⟩
  · rw [hmem] at hb hfree
    rw [hb] at hfree
    cases hfree
  · rw [h.stored.requests] at hrequest
    exact (hmem _ b).mpr (Place.list_of_accepting (Place.accepting_iff.mpr ⟨k, len, hrequest⟩))
  · rw [h.stored.requests]
    exact Place.accepting_iff.mp ((h.mem_iff hsettled).mp ((hmem _ b).mp hb))
  · rw [h.count_eq hsettled]
    refine (length_eq_tally (P := fun p : Place => p.accepting l = true) (hlists.nodup _)
      fun b => ?_).symm
    rw [hmem, h.mem_iff hsettled, iff_and_self]
    intro hb
    refine h.stored.lt fun hfresh => ?_
    rw [hfresh] at hb
    cases hb

end Accepts

/-! ## An accept that fails -/

/-- Two accepts are posted. -/
def twoAccepts : Config where
  gBufferSize := 4096
  gInitialAccepts := 2
  gMaxAccepts := 2
  gMaxSends := 2
  threads := 1
  listeners := 1

/-- Both accepts are in flight, a client sends two bytes on the first connection, and the
other one is closed as stale. -/
def acceptedAndStale : List Action :=
  List.replicate 13 (.main true) ++ [.complete 0 0 0 (some [5, 6])] ++
    List.replicate 12 (.thread 0 true) ++ [.interval 0 [1]]

theorem settled_of_rest {cfg : Config} {s : State} (l : ListenPtr)
    (hthreads : ∀ t < cfg.threads, (s.thread t).isIdle = true) (hmain : s.main = .waiting) :
    s.Settled cfg l := by
  refine ⟨fun t ht b => ?_, fun b => ?_, by rw [hmain]; rfl⟩
  · have hidle := hthreads t ht
    cases hpc : s.thread t with
    | idle => simp [Pc.accept]
    | _ => simp [hpc, Pc.isIdle] at hidle
  · rw [hmain]
    simp [MainPc.posting]

theorem pending_accepts_in_flight_acceptedAndStale :
    ∃ s, RunsTo (step twoAccepts)
        (fun s a => acceptFails s a = false ∧ postAcceptFails s a = false)
        (State.start twoAccepts) acceptedAndStale s ∧ s.Settled twoAccepts 0 ∧
      ∃ accepts free, Chain s.next (s.listener 0).pendingAccepts accepts ∧ accepts.Nodup ∧
        Chain s.next s.gFreeBufferList free ∧ (∀ b ∈ accepts, b ∉ free) ∧
        (∀ b k len, .acceptEx 0 k len ∈ s.requests b → b ∈ accepts) ∧
        (s.Settled twoAccepts 0 →
          (∀ b ∈ accepts, ∃ k len, .acceptEx 0 k len ∈ s.requests b) ∧
            (s.listener 0).pendingAcceptCount = accepts.length) :=
  have hrun := RunsTo.of_isSome (by decide)
  ⟨_, hrun, settled_of_rest 0 (by decide) rfl, pending_accepts_in_flight hrun 0⟩

/-- The first accept is closed as stale, and fails. -/
def staleFails : List Action :=
  List.replicate 13 (.main true) ++ [.interval 0 [0], .complete 0 0 0 none] ++
    List.replicate 2 (.thread 0 true)

/-- The buffer of the accept that has failed is in both lists, and is counted. -/
theorem freed_buffer_pending :
    ∃ s, RunsTo (step twoAccepts) Always (State.start twoAccepts) staleFails s ∧
      s.Settled twoAccepts 0 ∧ Chain s.next (s.listener 0).pendingAccepts [1, 0] ∧
      Chain s.next s.gFreeBufferList [0] ∧ s.requests 0 = [] ∧
      (s.listener 0).pendingAcceptCount = 2 := by
  refine ⟨_, RunsTo.of_isSome (by decide), settled_of_rest 0 (by decide) rfl, ?_, ?_, by decide,
    by decide⟩
  · exact ⟨by decide, by decide, rfl⟩
  · exact ⟨by decide, rfl⟩

end MiscProjects.IocpServer
