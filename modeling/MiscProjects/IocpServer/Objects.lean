import MiscProjects.IocpServer.Transfer

/-!
# The functions on the objects

What each function of the server does to the places, phases and owners, when it
is called by the thread that has the objects in hand.
-/

namespace MiscProjects.IocpServer

open Function (update update_self update_of_ne update_eq_self)
open SinglyLinked Pairing

variable {s : State} {g : Ghost} {t : ThreadId} {b : BufferPtr} {o : SocketPtr} {h : ℕ}
  {u : List (List UInt8)} {c : Counts} {data : List UInt8}

/-! ## Counters and sockets -/

theorem Memory.describes (m : Memory s g) (hq : g.phase o = .live (.thread t) h u c) :
    (s.socket o).s = some h ∧ (s.socket o).counts = c := by
  have hdescribes := m.sockets.describes o
  rw [hq] at hdescribes
  exact hdescribes

variable {v : SocketObj} {client sock : Option ℕ} {ok : Bool} {l : ListenPtr} {s' : State}

theorem Memory.setCounts (m : Memory s g) (hq : g.phase o = .live (.thread t) h u c) {d : Counts}
    (hs : v.s = (s.socket o).s) (hcounts : v.counts = d) (hnext : v.next = (s.socket o).next) :
    Memory (s.setSocket o v) (g.setPhase o (.live (.thread t) h u d)) where
  buffers := m.buffers
  sockets := by
    have hkeyed := m.sockets.keyed o
    rw [hq] at hkeyed
    exact m.sockets.set ⟨hs.trans (m.describes hq).1, hcounts⟩ hkeyed (by simp [hq]) nofun
  agreed := m.agreed.setPhase (by rw [hq]; rfl) (by rw [hq]; rfl)
  handles := m.handles
  lists := m.lists
  freeSockets := m.freeSockets.set hnext (by rw [hq]; trivial) trivial

theorem Memory.close (m : Memory s g) (hq : g.phase o = .live (.thread t) h u c) : Memory
      ((closesocket s (some h)).setSocket o { s.socket o with s := none })
      ((g.setPhase o (.shut t)).setOwner h .gone) where
  buffers := m.buffers
  sockets := m.sockets.set rfl trivial (by simp [hq]) nofun
  agreed := m.agreed.relink (u := u) none (by rw [hq]; rfl) rfl (by rw [hq]; rfl) rfl rfl
  handles := m.handles.close (u := u) (.inr ⟨o, m.agreed.owner_of_link (by rw [hq]; rfl)⟩)
  lists := m.lists
  freeSockets := m.freeSockets.set rfl (by rw [hq]; trivial) trivial

theorem Memory.closeAgain (m : Memory s g) (hq : g.phase o = .shut t) : Memory
      ((closesocket s (s.socket o).s).setSocket o
        { (closesocket s (s.socket o).s).socket o with s := none }) g := by
  have hs := m.sockets.describes o
  rw [hq] at hs
  have hclosed : (s.socket o).s = none := hs
  have hsame : { s.socket o with s := none } = s.socket o := by
    rw [← hclosed]
  rw [hclosed]
  change Memory (s.setSocket o { s.socket o with s := none }) g
  rw [hsame, State.setSocket, update_eq_self]
  exact m

theorem Memory.pushSocketObj (m : Memory s g) (hq : g.phase o = .shut t) :
    Memory (IocpServer.pushSocketObj s o) (g.setPhase o .free) where
  buffers := m.buffers
  sockets := m.sockets.set rfl trivial (by simp [hq]) nofun
  agreed := m.agreed.setPhase (by rw [hq]; rfl) (by rw [hq]; rfl)
  handles := m.handles
  lists := m.lists
  freeSockets := by
    obtain ⟨free, hchain, hmem⟩ := m.freeSockets.chain
    have hnot : o ∉ free := by
      rw [hmem, hq]
      exact nofun
    refine ⟨⟨o :: free, ?_, fun o' => ?_⟩, fun o' huse => ?_, fun o' huse => ?_⟩
    · change Chain (SocketObj.next ∘ update s.socket o _) _ _
      rw [Function.comp_update]
      exact hchain.push hnot
    · change o' ∈ o :: free ↔ update g.phase o .free o' = .free
      rcases eq_or_ne o' o with rfl | hne
      · simp
      · simp [hne, hmem]
    · change (update g.phase o .free o').InUse at huse
      rcases eq_or_ne o' o with rfl | hne
      · rw [update_self] at huse
        exact huse.elim
      · rw [update_of_ne hne] at huse
        change s.gets o' = update s.frees o _ o' + 1
        rw [update_of_ne hne]
        exact m.freeSockets.inUse o' huse
    · change ¬ (update g.phase o .free o').InUse at huse
      change s.gets o' = update s.frees o _ o'
      rcases eq_or_ne o' o with rfl | hne
      · rw [update_self]
        exact m.freeSockets.inUse o' (by rw [hq]; trivial)
      · rw [update_of_ne hne] at huse ⊢
        exact m.freeSockets.notInUse o' huse

/-! ## Free buffers -/

theorem Memory.freeBufferObj (m : Memory s g) (hb : g.place b = .held t data) :
    Memory (IocpServer.freeBufferObj s b) (g.setPlace b .free) where
  buffers := m.buffers.put (by rw [hb]; rfl) trivial (by simp [hb]) nofun
  sockets := m.sockets
  agreed := m.agreed.setPlace (by rw [hb]; rfl) (by rw [hb]; rfl) nofun
  handles := m.handles
  lists := by
    refine m.lists.push (by rw [hb]; rfl) rfl nofun rfl ?_
    funext i
    cases i <;> rfl
  freeSockets := m.freeSockets

/-! ## The buffer of a thread -/

theorem Memory.hold (m : Memory s g) (hb : g.place b = .held t data) {e : BufferObj}
    (hnext : e.next = (s.buffer b).next) (hobj : data <+: e.buf) : Memory (s.setBuffer b e) g where
  buffers := m.buffers.stay (by rw [hb]; exact hobj) (by simp [hb])
  sockets := m.sockets
  agreed := m.agreed
  handles := m.handles
  lists := m.lists.stay hnext
  freeSockets := m.freeSockets

theorem Memory.held_data (m : Memory s g) (hb : g.place b = .held t data) :
    data <+: (s.buffer b).buf := by
  have hdescribes := m.buffers.describes b
  rw [hb] at hdescribes
  exact hdescribes

theorem BufferObj.bytes_eq {obj : BufferObj} (hdata : data <+: obj.buf)
    (hlen : obj.buflen = data.length) : obj.bytes = data := by
  obtain ⟨rest, hrest⟩ := hdata
  simp [BufferObj.bytes, hlen, ← hrest, List.rightpad]

theorem BufferObj.prefix_fill (obj : BufferObj) (data : List UInt8) :
    data <+: (obj.fill data).buf :=
  List.prefix_append _ _

/-! ## The queue -/

/-- The buffer of a thread is put behind the queue. -/
theorem Memory.enqueue (m : Memory s g) (hb : g.place b = .held t data)
    (hq : g.phase o = .live (.thread t) h [data] .zero) (hsock : (s.buffer b).sock = some o)
    (hbytes : (s.buffer b).bytes = data) :
    ∃ s', enqueuePendingOperation s b = some s' ∧ s'.thread = s.thread ∧ s'.main = s.main ∧
      Memory s' ((g.setPlace b (.pending o h data)).setPhase o
        (.live (.buffer b) h [data] ⟨0, 0, 1, false⟩)) := by
  obtain ⟨hs, hcounts⟩ := m.describes hq
  simp only [SocketObj.counts, Counts.zero, Counts.mk.injEq] at hcounts
  obtain ⟨hrecv, hsend, hpend, hclosing⟩ := hcounts
  have hlist : (g.place b).list = none := by rw [hb]; rfl
  have hbuffers := m.buffers.put (b := b) (p := .pending o h data)
    (e := { s.buffer b with next := none }) (by rw [hb]; rfl) ⟨hsock, hbytes⟩ (by simp [hb]) nofun
  have hsockets := m.sockets.set (o := o)
    (v := { s.socket o with pendingSend := (s.socket o).pendingSend + 1 })
    (q := .live (.buffer b) h [data] ⟨0, 0, 1, false⟩)
    ⟨hs, by simp [SocketObj.counts, hrecv, hsend, hpend, hclosing]⟩
    (by have hkeyed := m.sockets.keyed o; rw [hq] at hkeyed; exact hkeyed) (by simp [hq]) nofun
  have hagreed : Agreed ((g.setPlace b (.pending o h data)).setPhase o
      (.live (.buffer b) h [data] ⟨0, 0, 1, false⟩)) :=
    m.agreed.hire (by rw [hb]; rfl) (by rw [hb]; rfl) rfl (by rw [hq]; rfl) (by rw [hq]; rfl)
  have hfree := m.freeSockets.set (o := o)
    (v := { s.socket o with pendingSend := (s.socket o).pendingSend + 1 })
    (q := .live (.buffer b) h [data] ⟨0, 0, 1, false⟩) rfl (by rw [hq]; trivial) trivial
  obtain ⟨hbehind, hfirst⟩ := m.lists.enqueue (b := b) (p := .pending o h data)
    (e := { s.buffer b with next := none }) hlist rfl rfl
  unfold enqueuePendingOperation
  simp only [hsock]
  split
  case h_1 last hlast =>
    exact ⟨_, rfl, rfl, rfl, hbuffers.setNext, hsockets, hagreed, m.handles, hbehind last hlast,
      hfree⟩
  case h_2 hlast =>
    refine ⟨_, rfl, rfl, rfl, hbuffers, hsockets, hagreed, m.handles, ?_, hfree⟩
    have hheads : State.heads { (s.setSocket o
              { s.socket o with pendingSend := (s.socket o).pendingSend + 1 }).setBuffer
            b { s.buffer b with next := none } with
          gPendingSendList := some b, gPendingSendListEnd := some b } =
        update s.heads .pending (some b) := by
      funext i
      cases i <;> rfl
    exact hheads ▸ hfirst hlast

/-- The first buffer of the queue is taken out by a thread, which works for its
connection then. -/
theorem Memory.dequeue (m : Memory s g) (t : ThreadId) (hhead : s.gPendingSendList = some b) :
    ∃ o h data s', g.place b = .pending o h data ∧
      dequeuePendingOperation s = some (some b, s') ∧ s'.thread = s.thread ∧ s'.main = s.main ∧
      Memory s' ((g.setPlace b (.dequeued t o data)).setPhase o
        (.live (.thread t) h [data] .zero)) := by
  obtain ⟨hlist, hpop⟩ := m.lists.dequeue (b := b) hhead
  cases hb : g.place b with
  | pending o h data =>
      have hdescribes := m.buffers.describes b
      rw [hb] at hdescribes
      have hq := m.agreed.phase_of_work (b := b) (o := o) (by rw [hb]; rfl)
      have hsocket := m.sockets.describes o
      have hkeyed := m.sockets.keyed o
      rw [hq] at hsocket hkeyed
      obtain ⟨hs, hcounts⟩ := hsocket
      simp only [SocketObj.counts, Counts.mk.injEq] at hcounts
      obtain ⟨hrecv, hsend, hpend, hclosing⟩ := hcounts
      unfold dequeuePendingOperation
      simp only [hhead, hdescribes.1]
      refine ⟨o, h, data, _, rfl, rfl, rfl, rfl, ?_⟩
      constructor
      · exact m.buffers.move (by rw [hb]; rfl) hdescribes (by simp [hb]) nofun
      · refine m.sockets.set ⟨hs, ?_⟩ hkeyed (by simp [hq]) nofun
        simp [SocketObj.counts, hrecv, hsend, hpend, hclosing, Counts.zero]
      · exact m.agreed.dismiss (by rw [hb]; rfl) rfl rfl nofun
      · exact m.handles
      · have hheads : State.heads
            { s.setSocket o { s.socket o with pendingSend := (s.socket o).pendingSend - 1 } with
              gPendingSendList := (s.buffer b).next
              gPendingSendListEnd :=
                if (s.buffer b).next = none then none else s.gPendingSendListEnd } =
            update s.heads .pending (s.buffer b).next := by
          funext i
          cases i <;> rfl
        exact hheads ▸ hpop _ rfl
      · exact m.freeSockets.set rfl (by rw [hq]; trivial) trivial
  | _ => simp [hb, Place.list] at hlist

/-! ## Requests on a connection -/

theorem Memory.post (m : Memory s g) (hb : g.place b = .held t data)
    (hq : g.phase o = .live (.thread t) h u c) {p : Place} {x : Request} (hs : v.s = (s.socket o).s)
    (hnext : v.next = (s.socket o).next) (hwork : p.work = some (o, h, u, v.counts))
    (hrequests : p.requests = [x]) (hdescribes : p.Describes (s.buffer b)) (hlist : p.list = none) :
    Memory { s.setSocket o v with requests := update s.requests b (s.requests b ++ [x]) }
      ((g.setPlace b p).setPhase o (.live (.buffer b) h u v.counts)) where
  buffers := by
    have hset := m.buffers.set (b := b) (r := s.requests b ++ [x])
      (by rw [m.buffers.requests, hb, hrequests]; rfl) hdescribes (by simp [hb])
      (Place.of_work hwork).2.2.1
    rwa [update_eq_self] at hset
  sockets := by
    have hkeyed := m.sockets.keyed o
    rw [hq] at hkeyed
    exact m.sockets.set ⟨hs.trans (m.describes hq).1, rfl⟩ hkeyed (by simp [hq]) nofun
  agreed :=
    m.agreed.hire (by rw [hb]; rfl) (by rw [hb]; rfl) hwork (by rw [hq]; rfl) (by rw [hq]; rfl)
  handles := m.handles
  lists := m.lists.move (by rw [hb, hlist]; rfl)
  freeSockets := m.freeSockets.set hnext (by rw [hq]; trivial) trivial

theorem Memory.logged (m : Memory s g) (hlink : (g.phase o).link = some (h, u)) :
    s.received h = s.handed h ++ u ∧ s.closes h = 0 := by
  have hlogged := m.handles.logged h
  have hcloses := m.handles.closes h
  rw [m.agreed.owner_of_link hlink] at hlogged hcloses
  exact ⟨hlogged, hcloses⟩

theorem Memory.log (m : Memory s g) (hq : g.phase o = .live (.thread t) h u c)
    {r d v : List (List UInt8)} (hlogged : r = d ++ v) {received handed : ℕ → List (List UInt8)}
    (hreceived : received = update s.received h r) (hhanded : handed = update s.handed h d) :
    Memory { s with received := received, handed := handed }
      ((g.setPhase o (.live (.thread t) h v c)).setOwner h (.socket o v)) where
  buffers := m.buffers
  sockets := by
    have hkeyed := m.sockets.keyed o
    rw [hq] at hkeyed
    exact m.sockets.move (m.describes hq) hkeyed (by simp [hq]) nofun
  agreed := m.agreed.relink (some v) (by rw [hq]; rfl) rfl (by rw [hq]; rfl) rfl rfl
  handles := by
    subst hreceived hhanded
    have howner := m.agreed.owner_of_link (o := o) (k := h) (u := u) (by rw [hq]; rfl)
    refine m.handles.pass hlogged (by simp [howner]) nofun (by rw [howner]; rfl)
      fun o' hkey => .inr ⟨v, ?_⟩
    rcases m.handles.keys h o' hkey with hgone | ⟨u'', hsocket⟩
    · simp [howner] at hgone
    · rw [howner, Owner.socket.injEq] at hsocket
      rw [hsocket.1]
  lists := m.lists
  freeSockets := m.freeSockets.move (by rw [hq]; trivial) trivial

/-- The ghost state after a send has been handed to `WSASend`. -/
def Ghost.handOver (g : Ghost) (t : ThreadId) (b : BufferPtr) (o : SocketPtr) (h : ℕ) : Ghost :=
  ((g.setPlace b (.held t [])).setPhase o (.live (.thread t) h [] .zero)).setOwner h
    (.socket o [])

theorem Memory.postSend (m : Memory s g) (hb : g.place b = .dequeued t o data)
    (hq : g.phase o = .live (.thread t) h [data] .zero) (ok : Bool) :
    (IocpServer.postSend s o b ok).2.thread = s.thread ∧
    (IocpServer.postSend s o b ok).2.main = s.main ∧
    (((IocpServer.postSend s o b ok).1 = false ∧
        Memory (IocpServer.postSend s o b ok).2 (g.handOver t b o h)) ∨
      ((IocpServer.postSend s o b ok).1 = true ∧
        Memory (IocpServer.postSend s o b ok).2
          (((g.handOver t b o h).setPlace b (.sending o h)).setPhase o
            (.live (.buffer b) h [] ⟨0, 1, 0, false⟩)))) := by
  have hdescribes := m.buffers.describes b
  rw [hb] at hdescribes
  obtain ⟨hs, hcounts⟩ := m.describes hq
  obtain ⟨hlogged, -⟩ := m.logged (o := o) (h := h) (u := [data]) (by rw [hq]; rfl)
  -- the buffer is the thread's, and is handed over
  have mheld : Memory (s.setBuffer b { s.buffer b with operation := .opWrite })
      (g.setPlace b (.held t [])) :=
    { buffers := m.buffers.put (by rw [hb]; rfl) (List.nil_prefix) (by simp [hb]) nofun
      sockets := m.sockets
      agreed := m.agreed.setPlace (by rw [hb]; rfl) (by rw [hb]; rfl) nofun
      handles := m.handles
      lists := m.lists.put rfl (by rw [hb]; rfl)
      freeSockets := m.freeSockets }
  have mlog := mheld.log (o := o) hq (r := s.received h) (d := s.handed h ++ [data]) (v := [])
    (by rw [hlogged, List.append_nil]) (update_eq_self _ _).symm rfl
  unfold IocpServer.postSend
  simp only [State.setBuffer, hs, hdescribes.2]
  split
  case isFalse =>
    exact ⟨rfl, rfl, .inl ⟨rfl, mlog⟩⟩
  case isTrue =>
    refine ⟨rfl, rfl, .inr ⟨rfl, ?_⟩⟩
    simp only [SocketObj.counts, Counts.zero, Counts.mk.injEq] at hcounts
    obtain ⟨hrecv, hsend, hpend, hclosing⟩ := hcounts
    have hso : SocketObj.counts
        { s.socket o with s := some h, outstandingSend := (s.socket o).outstandingSend + 1 } =
          ⟨0, 1, 0, false⟩ := by
      simp [SocketObj.counts, hrecv, hsend, hpend, hclosing]
    have mpost := mlog.post (b := b) (o := o) (t := t) (h := h) (u := []) (c := .zero)
      (v := { s.socket o with s := some h, outstandingSend := (s.socket o).outstandingSend + 1 })
      (p := .sending o h) (x := .wsaSend h) (update_self _ _ _) (update_self _ _ _)
      hs.symm rfl (by rw [hso]; rfl) rfl (by simp [State.setBuffer, Place.Describes]) rfl
    rw [hso] at mpost
    exact ⟨mpost.buffers, mpost.sockets, mpost.agreed, mpost.handles, mpost.lists,
      mpost.freeSockets⟩

theorem Memory.postRecv (m : Memory s g) (hb : g.place b = .held t data)
    (hq : g.phase o = .live (.thread t) h [] .zero) (ok : Bool) :
    (IocpServer.postRecv s o b ok).thread = s.thread ∧
    (IocpServer.postRecv s o b ok).main = s.main ∧ (Memory (IocpServer.postRecv s o b ok) g ∨
      ∃ len, Memory (IocpServer.postRecv s o b ok) ((g.setPlace b (.receiving o h len)).setPhase o
          (.live (.buffer b) h [] ⟨1, 0, 0, false⟩))) := by
  obtain ⟨hs, hcounts⟩ := m.describes hq
  have mheld : Memory (s.setBuffer b { s.buffer b with operation := .opRead }) g :=
    m.hold hb rfl (m.held_data hb)
  unfold IocpServer.postRecv
  simp only [State.setBuffer, hs]
  split
  case isFalse => exact ⟨rfl, rfl, .inl mheld⟩
  case isTrue =>
    refine ⟨rfl, rfl, .inr ⟨(s.buffer b).buflen, ?_⟩⟩
    simp only [SocketObj.counts, Counts.zero, Counts.mk.injEq] at hcounts
    obtain ⟨hrecv, hsend, hpend, hclosing⟩ := hcounts
    have hso : SocketObj.counts
        { s.socket o with s := some h, outstandingRecv := (s.socket o).outstandingRecv + 1 } =
          ⟨1, 0, 0, false⟩ := by
      simp [SocketObj.counts, hrecv, hsend, hpend, hclosing]
    have mpost := mheld.post (b := b) (o := o) (t := t) (h := h) (u := []) (c := .zero)
      (v := { s.socket o with s := some h, outstandingRecv := (s.socket o).outstandingRecv + 1 })
      (p := .receiving o h (s.buffer b).buflen) (x := .wsaRecv h (s.buffer b).buflen) hb hq
      hs.symm rfl (by rw [hso]; rfl) rfl (by simp [State.setBuffer, Place.Describes]) rfl
    rw [hso] at mpost
    exact mpost

/-! ## Completions -/

theorem Memory.finish (m : Memory s g) (t : ThreadId)
    (hwork : (g.place b).work = some (o, h, u, c)) (hlist : (g.place b).list = none) :
    Memory { s with requests := update s.requests b [] }
      ((g.setPlace b (.held t [])).setPhase o (.live (.thread t) h u c)) where
  buffers := by
    have hset := m.buffers.set (b := b) (r := []) (p := .held t []) rfl
      (e := s.buffer b) List.nil_prefix (Place.of_work hwork).2.2.1 nofun
    rwa [update_eq_self] at hset
  sockets := by
    have hq := m.agreed.phase_of_work hwork
    have hkeyed := m.sockets.keyed o
    have hsocket := m.sockets.describes o
    rw [hq] at hkeyed hsocket
    exact m.sockets.move hsocket hkeyed (by simp [hq]) nofun
  agreed := m.agreed.dismiss hwork rfl rfl nofun
  handles := m.handles
  lists := m.lists.move (by rw [hlist]; rfl)
  freeSockets := m.freeSockets.move (by rw [m.agreed.phase_of_work hwork]; trivial) trivial

theorem Memory.receive (m : Memory s g) {old : List UInt8} (hb : g.place b = .held t old)
    (hq : g.phase o = .live (.thread t) h [] c) (data : List UInt8) :
    Memory (IocpServer.receive s b h data)
      (((g.setPlace b (.held t data)).setPhase o (.live (.thread t) h [data] c)).setOwner h
        (.socket o [data])) := by
  have hlogged := (m.logged (o := o) (h := h) (u := []) (by rw [hq]; rfl)).1
  have mfill : Memory (s.setBuffer b ((s.buffer b).fill data)) (g.setPlace b (.held t data)) :=
    { buffers := m.buffers.put (by rw [hb]; rfl) ((s.buffer b).prefix_fill data) (by simp [hb])
        nofun
      sockets := m.sockets
      agreed := m.agreed.setPlace (by rw [hb]; rfl) (by rw [hb]; rfl) nofun
      handles := m.handles
      lists := m.lists.put rfl (by rw [hb]; rfl)
      freeSockets := m.freeSockets }
  exact mfill.log (o := o) hq (r := s.received h ++ [data]) (d := s.handed h) (v := [data])
    (by rw [hlogged, List.append_nil]) rfl (update_eq_self _ _).symm

/-! ## Accepts -/

/-- The owner of an accept's socket after its data has arrived. -/
def acceptOwner (g : Ghost) (b : BufferPtr) (h : ℕ) (data : List UInt8) : Option ℕ → Owner
  | some _ => .buffer b [data]
  | none => g.owner h

theorem Memory.accept (m : Memory s g) (t : ThreadId) {len : ℕ}
    (hb : g.place b = .listed l (.inFlight h len client)) (data : List UInt8) :
    Memory (IocpServer.receive { s with requests := update s.requests b [] } b h data)
      ((g.setPlace b (.listed l (.done t client data))).setOwner h
        (acceptOwner g b h data client)) where
  buffers := by
    have hdescribes := m.buffers.describes b
    rw [hb] at hdescribes
    exact m.buffers.set rfl ⟨hdescribes.1, (s.buffer b).prefix_fill data⟩ (by simp [hb]) nofun
  sockets := m.sockets
  agreed := by
    cases client with
    | none =>
        have hagreed := m.agreed.setPlace (b := b) (p := .listed l (.done t none data))
          (by rw [hb]; rfl) (by rw [hb]; rfl) (by simp)
        rw [acceptOwner, show g.owner = (g.setPlace b _).owner from rfl, Ghost.setOwner_self]
        exact hagreed
    | some k =>
        have hdescribes := m.buffers.describes b
        rw [hb] at hdescribes
        obtain rfl : k = h := by simpa using hdescribes.2.2
        exact m.agreed.reclient (u := []) (some [data]) (by rw [hb]; rfl) rfl (by rw [hb]; rfl)
          rfl rfl (by simp)
  handles := by
    cases client with
    | none =>
        have hgone := m.agreed.stale b l h len hb
        have hlogged := m.handles.logged h
        rw [hgone] at hlogged
        have hpass := m.handles.pass (h := h) (w := .gone) (r := s.received h ++ [data])
          (d := s.handed h) (hlogged.trans (List.prefix_append _ _)) (by simp [hgone]) nofun
          (by rw [hgone]) (fun _ _ => .inl rfl)
        rw [update_eq_self] at hpass
        rw [acceptOwner, hgone]
        exact hpass
    | some k =>
        have hdescribes := m.buffers.describes b
        rw [hb] at hdescribes
        obtain rfl : k = h := by simpa using hdescribes.2.2
        have howner := m.agreed.owner_of_client (b := b) (k := k) (u := []) (by rw [hb]; rfl)
        have hlogged := m.handles.logged k
        rw [howner] at hlogged
        have hpass := m.handles.pass (h := k) (w := .buffer b [data])
          (r := s.received k ++ [data]) (d := s.handed k)
          (by rw [show s.received k = _ from hlogged, List.append_nil]; rfl) (by simp [howner])
          nofun (by rw [howner]; rfl) (fun o' hkey => ?_)
        · rw [update_eq_self] at hpass
          exact hpass
        · rcases m.handles.keys k o' hkey with hgone | ⟨u', hsocket⟩
          · simp [howner] at hgone
          · simp [howner] at hsocket
  lists := m.lists.put rfl (by rw [hb]; rfl)
  freeSockets := m.freeSockets

theorem Memory.removePendingAccept (m : Memory s g)
    (hb : g.place b = .listed l (.done t client data)) :
    ∃ s', IocpServer.removePendingAccept s l b = some s' ∧ s'.thread = s.thread ∧
      s'.main = s.main ∧ Memory s' (g.setPlace b (.accepted t client data)) := by
  have hdescribes := m.buffers.describes b
  rw [hb] at hdescribes
  have hbuffers : BuffersOk s.requests s.buffer s.buffers
      (update g.place b (.accepted t client data)) :=
    m.buffers.move (by rw [hb]; rfl) hdescribes (by simp [hb]) nofun
  have hagreed : Agreed (g.setPlace b (.accepted t client data)) :=
    m.agreed.setPlace (by rw [hb]; rfl) (by rw [hb]; rfl) nofun
  obtain ⟨prev, hsearch, hsome, hnone⟩ := m.lists.remove (b := b) (l := l)
    (p := .accepted t client data) (by rw [hb]; rfl) rfl m.buffers.lt
  unfold IocpServer.removePendingAccept
  have hsearch' : search s.next b (s.buffers + 1) none (s.listener l).pendingAccepts =
      some prev := hsearch
  simp only [hsearch']
  cases prev with
  | some b' =>
      exact ⟨_, rfl, rfl, rfl, hbuffers.setNext, m.sockets, hagreed, m.handles, hsome b' rfl,
        m.freeSockets⟩
  | none =>
      refine ⟨_, rfl, rfl, rfl, hbuffers, m.sockets, hagreed, m.handles, ?_, m.freeSockets⟩
      rw [heads_setListener]
      exact hnone rfl

/-- The place of a buffer whose `sclient` has been closed. -/
def Place.closeClient : Place → Place
  | .listed l (.idle _) => .listed l (.idle none)
  | .listed l (.inFlight h len _) => .listed l (.inFlight h len none)
  | .listed l (.done t _ data) => .listed l (.done t none data)
  | .accepted t _ data => .accepted t none data
  | p => p

section CloseClient
variable {p : Place} {obj : BufferObj} {k : ℕ}

theorem Place.closeClient_requests : p.closeClient.requests = p.requests := by
  cases p with
  | listed l w => cases w <;> rfl
  | _ => rfl

theorem Place.closeClient_work : p.closeClient.work = p.work := by
  cases p with
  | listed l w => cases w <;> rfl
  | _ => rfl

theorem Place.closeClient_list : p.closeClient.list = p.list := by
  cases p with
  | listed l w => cases w <;> rfl
  | _ => rfl

theorem Place.closeClient_holder : p.closeClient.holder = p.holder := by
  cases p with
  | listed l w => cases w <;> rfl
  | _ => rfl

theorem Place.closeClient_client : p.closeClient.client = none := by
  cases p with
  | listed l w => cases w <;> rfl
  | _ => rfl

theorem Place.closeClient_seen {t : ThreadId} (hlist : p.list ≠ none)
    (hholder : p.holder = some (.thread t)) : p.closeClient.seen = p.seen := by
  cases p with
  | listed l w =>
      cases w with
      | done t' c data => rfl
      | inserted | idle c | inFlight h len c => exact nomatch hholder
  | accepted => exact absurd rfl hlist
  | _ => rfl

theorem Place.closeClient_inserted {l : ListenPtr} (hp : p.closeClient = .listed l .inserted) :
    p = .listed l .inserted := by
  cases p with
  | listed l' w =>
      cases w with
      | inserted => exact hp
      | _ => simp [Place.closeClient] at hp
  | _ => simp [Place.closeClient] at hp

theorem Place.closeClient_ne_fresh (hclient : p.client = some (k, u)) :
    p ≠ .fresh ∧ p.closeClient ≠ .fresh := by
  cases p with
  | listed l w => cases w <;> exact ⟨nofun, nofun⟩
  | accepted => exact ⟨nofun, nofun⟩
  | _ => exact nomatch hclient

theorem Place.Describes.closeClient (hobj : p.Describes obj) (hclient : p.client = some (k, u)) :
    p.closeClient.Describes { obj with sclient := none } := by
  cases p with
  | listed l w =>
      cases w with
      | inserted => trivial
      | idle c => exact ⟨rfl, hobj.2⟩
      | done t c data => exact ⟨rfl, hobj.2⟩
      | inFlight h len c => exact ⟨rfl, hobj.2.1, .inr rfl⟩
  | accepted t c data => exact ⟨rfl, hobj.2⟩
  | _ => exact nomatch hclient

theorem Place.Describes.inFlight_eq (hobj : p.Describes obj) (hclient : p.client = some (k, u))
    {l : ListenPtr} {k' len : ℕ} (hp : p.closeClient = .listed l (.inFlight k' len none)) :
    k' = k := by
  cases p with
  | listed l' w =>
      cases w with
      | inFlight h len' c =>
          simp only [Place.closeClient, Place.listed.injEq, Await.inFlight.injEq] at hp
          obtain ⟨-, rfl, -, -⟩ := hp
          simp only [Place.client, Option.map_eq_some_iff, Prod.mk.injEq] at hclient
          obtain ⟨_, rfl, rfl, -⟩ := hclient
          simpa [eq_comm] using hobj.2.2
      | _ => simp [Place.closeClient] at hp
  | _ => simp [Place.closeClient] at hp

theorem Memory.closeClient (m : Memory s g) (hclient : (g.place b).client = some (k, u)) :
    Memory ((closesocket s (some k)).setBuffer b { s.buffer b with sclient := none })
      ((g.setPlace b (g.place b).closeClient).setOwner k .gone) where
  buffers :=
    m.buffers.put Place.closeClient_requests.symm ((m.buffers.describes b).closeClient hclient)
      (Place.closeClient_ne_fresh hclient).1 (Place.closeClient_ne_fresh hclient).2
  sockets := m.sockets
  agreed := m.agreed.reclient none hclient Place.closeClient_client Place.closeClient_work rfl rfl
      fun _ _ _ hp => ⟨(m.buffers.describes b).inFlight_eq hclient hp, rfl⟩
  handles := m.handles.close (.inl ⟨b, m.agreed.owner_of_client hclient⟩)
  lists := m.lists.put rfl Place.closeClient_list
  freeSockets := m.freeSockets

end CloseClient

theorem Memory.client_of_listed (m : Memory s g) {k : ℕ}
    (hlist : (g.place b).list = some (.accepts l))
    (hinserted : ∀ l, g.place b ≠ .listed l .inserted) (hk : (s.buffer b).sclient = some k) :
    ∃ u, (g.place b).client = some (k, u) := by
  have hdescribes := m.buffers.describes b
  cases hb : g.place b with
  | listed l' w =>
      rw [hb] at hdescribes
      cases w with
      | inserted => exact absurd hb (hinserted l')
      | idle c | inFlight h len c => exact ⟨[], by rw [← hdescribes.1, hk]; rfl⟩
      | done t c data => exact ⟨[data], by rw [← hdescribes.1, hk]; rfl⟩
  | _ => simp [hb, Place.list] at hlist

theorem Memory.giveUp (m : Memory s g) (hb : g.place b = .accepted t none data) :
    Memory s (g.setPlace b (.held t data)) where
  buffers := by
    have hdescribes := m.buffers.describes b
    rw [hb] at hdescribes
    exact m.buffers.move (by rw [hb]; rfl) hdescribes.2 (by simp [hb]) nofun
  sockets := m.sockets
  agreed := m.agreed.setPlace (by rw [hb]; rfl) (by rw [hb]; rfl) nofun
  handles := m.handles
  lists := m.lists.move (by rw [hb]; rfl)
  freeSockets := m.freeSockets

/-! ## New connections -/

/-- `GetSocketObj` gives an object that nobody uses, with all counters zero. -/
theorem Memory.getSocketObj (m : Memory s g)
    (hget : IocpServer.getSocketObj s sock ok = (some o, s')) :
    (g.phase o = .fresh ∨ g.phase o = .free) ∧
    (∀ q : Phase, q.InUse → (∀ so : SocketObj, so.s = sock → so.counts = .zero → q.Describes so) →
      q.Keyed s.key o →
      SocketsOk s'.socket s'.key s'.sockets (update g.phase o q) ∧
      FreeSocketsOk s'.socket s'.gFreeSocketList s'.gets s'.frees (update g.phase o q)) ∧
    s' = { s with
      socket := s'.socket, sockets := s'.sockets, gFreeSocketList := s'.gFreeSocketList,
      gets := s'.gets } := by
  obtain ⟨free, hchain, hmem⟩ := m.freeSockets.chain
  have hne : ∀ q : Phase, q.InUse → q ≠ .fresh := by
    rintro q huse rfl
    exact huse
  unfold IocpServer.getSocketObj at hget
  split at hget
  case h_1 hempty =>
    split at hget
    case isFalse => simp at hget
    case isTrue =>
      simp only [Prod.mk.injEq, Option.some.injEq] at hget
      obtain ⟨rfl, rfl⟩ := hget
      have hfresh : g.phase s.sockets = .fresh := (m.sockets.fresh _).mpr le_rfl
      refine ⟨.inl hfresh, fun q huse hq hkeyed => ⟨?_, ?_⟩, rfl⟩
      · refine m.sockets.get (hq _ rfl rfl) hkeyed (hne q huse) (fun o' ho' => ?_)
          (Nat.lt_succ_self s.sockets)
        exact ⟨Nat.le_of_succ_le, fun hle => Nat.lt_of_le_of_ne hle ho'.symm⟩
      · refine m.freeSockets.get (by rw [hfresh]; exact not_false) huse
          ⟨free, hchain, fun o' => ?_⟩
        rw [hmem, iff_self_and]
        rintro ho' rfl
        simp [hfresh] at ho'
  case h_2 sockobj hsome =>
    simp only [Prod.mk.injEq, Option.some.injEq] at hget
    obtain ⟨rfl, rfl⟩ := hget
    rw [hsome] at hchain
    cases free with
    | nil => exact nomatch (show some sockobj = none from hchain)
    | cons o' rest =>
        have hnodup := hchain.nodup
        obtain ⟨hfirst, hrest⟩ := hchain
        obtain rfl := Option.some.inj hfirst
        have hfree : g.phase sockobj = .free := (hmem sockobj).mp List.mem_cons_self
        have hcounts := m.sockets.describes sockobj
        rw [hfree] at hcounts
        refine ⟨.inr hfree, fun q huse hq hkeyed => ⟨?_, ?_⟩, rfl⟩
        · refine m.sockets.set (hq _ rfl ?_) hkeyed (by simp [hfree]) (hne q huse)
          exact hcounts
        · refine m.freeSockets.get (by rw [hfree]; exact not_false) huse
            ⟨rest, hrest, fun o' => ?_⟩
          rw [← hmem]
          have hnot := (List.nodup_cons.mp hnodup).1
          constructor
          · intro ho'
            refine ⟨List.mem_cons_of_mem _ ho', ?_⟩
            rintro rfl
            exact hnot ho'
          · rintro ⟨ho', hne'⟩
            exact (List.mem_cons.mp ho').resolve_left hne'

theorem getSocketObj_none (hget : IocpServer.getSocketObj s sock ok = (none, s')) : s' = s := by
  unfold IocpServer.getSocketObj at hget
  split at hget
  case h_1 =>
    split at hget
    case isTrue => simp at hget
    case isFalse => exact (Prod.mk.inj hget).2.symm
  case h_2 => simp at hget

/-- The ghost state after `GetSocketObj` has given `o` to the accept of `b`. -/
def Ghost.connect (g : Ghost) (t : ThreadId) (b : BufferPtr) (o : SocketPtr)
    (data : List UInt8) : Option ℕ → Ghost
  | some h =>
      ((g.setPlace b (.held t data)).setPhase o (.taken t h [data])).setOwner h
        (.socket o [data])
  | none => (g.setPlace b (.held t data)).setPhase o (.invalid t)

theorem Memory.connect (m : Memory s g) (hb : g.place b = .accepted t client data)
    (hget : IocpServer.getSocketObj s (s.buffer b).sclient ok = (some o, s')) :
    s'.thread = s.thread ∧ s'.main = s.main ∧ Memory s' (g.connect t b o data client) := by
  have hdescribes := m.buffers.describes b
  rw [hb] at hdescribes
  rw [hdescribes.1] at hget
  obtain ⟨hidle, hsockets, hs'⟩ := m.getSocketObj hget
  have hlink : (g.phase o).link = none ∧ (g.phase o).work = none := by
    rcases hidle with hq | hq
    · rw [hq]
      exact ⟨rfl, rfl⟩
    · rw [hq]
      exact ⟨rfl, rfl⟩
  have hbuffers : BuffersOk s.requests s.buffer s.buffers (update g.place b (.held t data)) :=
    m.buffers.move (by rw [hb]; rfl) hdescribes.2 (by simp [hb]) nofun
  have hlists : ListsOk s.buffer s.heads s.gPendingSendListEnd (update g.place b (.held t data)) :=
    m.lists.move (by rw [hb]; rfl)
  refine ⟨by rw [hs'], by rw [hs'], ?_⟩
  cases client with
  | some h =>
      obtain ⟨hsocket, hfree⟩ := hsockets (.taken t h [data]) trivial
        (fun so hs hcounts => ⟨hs, hcounts⟩) trivial
      have hclient : (g.place b).client = some (h, [data]) := by rw [hb]; rfl
      have howner := m.agreed.owner_of_client hclient
      have hhandles := m.handles.pass (h := h) (w := .socket o [data]) (r := s.received h)
        (d := s.handed h)
        (by have hlogged := m.handles.logged h; rw [howner] at hlogged; exact hlogged)
        (by simp [howner]) nofun (by rw [howner]; rfl) fun o' hkey => by
          rcases m.handles.keys h o' hkey with hgone | ⟨u, hsocket⟩
          · simp [howner] at hgone
          · simp [howner] at hsocket
      rw [update_eq_self, update_eq_self] at hhandles
      have hagreed : Agreed (g.connect t b o data (some h)) :=
        m.agreed.connect hclient rfl (by rw [hb]; rfl) hlink.1 rfl (by rw [hlink.2]; rfl) (by simp)
      rw [hs'] at hsocket hfree ⊢
      exact ⟨hbuffers, hsocket, hagreed, hhandles, hlists, hfree⟩
  | none =>
      obtain ⟨hsocket, hfree⟩ := hsockets (.invalid t) trivial
        (fun so hs hcounts => ⟨hs, hcounts⟩) trivial
      have hagreed : Agreed (g.connect t b o data none) :=
        (m.agreed.setPlace (by rw [hb]; rfl) (by rw [hb]; rfl) (by simp)).setPhase
          (by rw [show (g.setPlace b _).phase o = g.phase o from rfl, hlink.1]; rfl)
          (by rw [show (g.setPlace b _).phase o = g.phase o from rfl, hlink.2]; rfl)
      rw [hs'] at hsocket hfree ⊢
      exact ⟨hbuffers, hsocket, hagreed, m.handles, hlists, hfree⟩

theorem Memory.associate (m : Memory s g) (hq : g.phase o = .taken t h u) :
    Memory { s with key := update s.key h (some o) }
      (g.setPhase o (.live (.thread t) h u .zero)) where
  buffers := m.buffers
  sockets := by
    have howner := m.agreed.owner_of_link (o := o) (k := h) (u := u) (by rw [hq]; rfl)
    refine m.sockets.associate hq fun o' w u' c hq' => ?_
    have howner' := m.agreed.owner_of_link (o := o') (k := h) (u := u') (by rw [hq']; rfl)
    rw [howner, Owner.socket.injEq] at howner'
    exact howner'.1.symm
  agreed := m.agreed.setPhase (by rw [hq]; rfl) (by rw [hq]; rfl)
  handles := m.handles.associate (m.agreed.owner_of_link (by rw [hq]; rfl))
  lists := m.lists
  freeSockets := m.freeSockets.move (by rw [hq]; trivial) trivial

/-! ## Posting accepts -/

theorem Memory.getBufferObj (m : Memory s g) {buflen : ℕ}
    (hget : IocpServer.getBufferObj s buflen ok = (some b, s')) :
    s'.thread = s.thread ∧ s'.main = s.main ∧ (g.place b = .fresh ∨ g.place b = .free) ∧
      Memory s' (g.setPlace b .spare) := by
  unfold IocpServer.getBufferObj at hget
  split at hget
  case h_1 hempty =>
    split at hget
    case isFalse => simp at hget
    case isTrue =>
      simp only [Prod.mk.injEq, Option.some.injEq] at hget
      obtain ⟨rfl, rfl⟩ := hget
      have hfresh : g.place s.buffers = .fresh := (m.buffers.fresh _).mpr le_rfl
      refine ⟨rfl, rfl, .inl hfresh, ?_⟩
      constructor
      · have hget := m.buffers.get (b := s.buffers) (r := s.requests s.buffers)
          (p := .spare) (e := { BufferObj.zeroed with buflen := buflen })
          (n := s.buffers + 1) (by rw [m.buffers.requests, hfresh]; rfl) trivial nofun
          (fun b' hb' => ⟨Nat.le_of_succ_le, fun hle => Nat.lt_of_le_of_ne hle hb'.symm⟩)
          (Nat.lt_succ_self _)
        rwa [update_eq_self] at hget
      · exact m.sockets
      · exact m.agreed.setPlace (by rw [hfresh]; rfl) (by rw [hfresh]; rfl) nofun
      · exact m.handles
      · exact (m.lists.loose (by rw [hfresh]; rfl)).move (by rw [hfresh]; rfl)
      · exact m.freeSockets
  case h_2 newobj hsome =>
    simp only [Prod.mk.injEq, Option.some.injEq] at hget
    obtain ⟨rfl, rfl⟩ := hget
    obtain ⟨hlist, hpop⟩ := m.lists.pop (i := .free) (b := newobj) hsome nofun
    have hfree : g.place newobj = .free := by
      cases hp : g.place newobj with
      | free => rfl
      | _ => simp [hp, Place.list] at hlist
    refine ⟨rfl, rfl, .inr hfree, ?_⟩
    constructor
    · exact m.buffers.put (by rw [hfree]; rfl) trivial (by simp [hfree]) nofun
    · exact m.sockets
    · exact m.agreed.setPlace (by rw [hfree]; rfl) (by rw [hfree]; rfl) nofun
    · exact m.handles
    · have hheads : State.heads
          { s.setBuffer newobj { s.buffer newobj with next := none, buflen := buflen } with
            gFreeBufferList := (s.buffer newobj).next } =
          update s.heads .free (s.buffer newobj).next := by
        funext i
        cases i <;> rfl
      rw [hheads]
      exact (hpop .spare rfl).loose (by simp [Place.list])
    · exact m.freeSockets

theorem Memory.insertPendingAccept (m : Memory s g) (hb : g.place b = .spare) (l : ListenPtr) :
    (IocpServer.insertPendingAccept s l b).thread = s.thread ∧
    (IocpServer.insertPendingAccept s l b).main = s.main ∧
    Memory (IocpServer.insertPendingAccept s l b) (g.setPlace b (.listed l .inserted)) := by
  have hagreed : Agreed (g.setPlace b (.listed l .inserted)) :=
    m.agreed.setPlace (by rw [hb]; rfl) (by rw [hb]; rfl) (by simp)
  have hlists := fun obj : BufferObj => m.lists.push (b := b) (e := obj)
    (p := .listed l .inserted) (i := .accepts l)
    (k := update s.heads (.accepts l) (some b)) (by rw [hb]; rfl) rfl nofun
  have hbuffers := fun obj : BufferObj => m.buffers.put (b := b) (e := obj)
    (p := .listed l .inserted) (by rw [hb]; rfl) trivial (by simp [hb]) nofun
  unfold IocpServer.insertPendingAccept
  dsimp only
  split
  case h_1 hempty =>
    refine ⟨rfl, rfl, hbuffers _, m.sockets, hagreed, m.handles, ?_, m.freeSockets⟩
    rw [heads_setListener]
    exact hlists _ (Eq.symm hempty) rfl
  case h_2 first hfirst =>
    refine ⟨rfl, rfl, ?_, m.sockets, hagreed, m.handles, ?_, m.freeSockets⟩
    · simp only [State.setListener, State.setBuffer, Function.update_idem]
      exact hbuffers _
    · rw [heads_setListener]
      simp only [State.setListener, State.setBuffer, Function.update_idem]
      exact hlists _ (Eq.symm hfirst) rfl

theorem Memory.createSocket (m : Memory s g) (hb : g.place b = .listed l .inserted) : Memory
      { s.setBuffer b { s.buffer b with operation := .opAccept, sclient := some (s.handles + 1) }
        with handles := s.handles + 1 }
      ((g.setPlace b (.listed l (.idle (some (s.handles + 1))))).setOwner (s.handles + 1)
        (.buffer b [])) where
  buffers := m.buffers.put (by rw [hb]; rfl) ⟨rfl, rfl⟩ (by simp [hb]) nofun
  sockets := m.sockets
  agreed :=
    m.agreed.create ((m.handles.fresh _).mpr (.inr (Nat.lt_succ_self _))) (by rw [hb]; rfl) rfl
      (by rw [hb]; rfl) (by simp)
  handles := m.handles.create b
  lists := m.lists.put rfl (by rw [hb]; rfl)
  freeSockets := m.freeSockets

theorem Memory.createFails (m : Memory s g) (hb : g.place b = .listed l .inserted) :
    Memory (s.setBuffer b { s.buffer b with operation := .opAccept, sclient := none })
      (g.setPlace b (.listed l (.idle none))) where
  buffers := m.buffers.put (by rw [hb]; rfl) ⟨rfl, rfl⟩ (by simp [hb]) nofun
  sockets := m.sockets
  agreed := m.agreed.setPlace (by rw [hb]; rfl) (by rw [hb]; rfl) (by simp)
  handles := m.handles
  lists := m.lists.put rfl (by rw [hb]; rfl)
  freeSockets := m.freeSockets

theorem Memory.acceptEx (m : Memory s g) (hb : g.place b = .listed l (.idle (some h))) (len : ℕ) :
    Memory { s with requests := update s.requests b (s.requests b ++ [.acceptEx l h len]) }
      (g.setPlace b (.listed l (.inFlight h len (some h)))) where
  buffers := by
    have hdescribes := m.buffers.describes b
    rw [hb] at hdescribes
    have hset := m.buffers.set (b := b) (r := s.requests b ++ [.acceptEx l h len])
      (p := .listed l (.inFlight h len (some h))) (e := s.buffer b)
      (by rw [m.buffers.requests, hb]; rfl) ⟨hdescribes.1, hdescribes.2, .inl rfl⟩
      (by simp [hb]) nofun
    rwa [update_eq_self] at hset
  sockets := m.sockets
  agreed := m.agreed.setPlace (by rw [hb]; rfl) (by rw [hb]; rfl) (by simp)
  handles := m.handles
  lists := m.lists.move (by rw [hb]; rfl)
  freeSockets := m.freeSockets

/-! ## Stale accepts -/

theorem closeStale_spec {f : BufferPtr → Bool} {rest : List BufferPtr} {x : Option BufferPtr}
    {fuel : ℕ} (m : Memory s g) (hchain : Chain s.next x rest)
    (hlisted : ∀ b ∈ rest, (g.place b).list = some (.accepts l))
    (hinserted : ∀ b l, g.place b ≠ .listed l .inserted) (hfuel : rest.length < fuel) :
    ∃ s' g', closeStale f fuel x s = some s' ∧ s'.thread = s.thread ∧
      s'.main = s.main ∧ Memory s' g' ∧ Others .main g g' ∧
      (∀ b l, g'.place b ≠ .listed l .inserted) := by
  induction rest generalizing s g x fuel with
  | nil =>
      obtain ⟨fuel, rfl⟩ := Nat.exists_eq_succ_of_ne_zero (Nat.ne_of_gt hfuel)
      obtain rfl : x = none := hchain
      exact ⟨s, g, rfl, rfl, rfl, m, .refl, hinserted⟩
  | cons b rest ih =>
      obtain ⟨fuel, rfl⟩ := Nat.exists_eq_succ_of_ne_zero (Nat.ne_of_gt (Nat.zero_lt_of_lt hfuel))
      obtain ⟨rfl, hrest⟩ := hchain
      have hfuel' : rest.length < fuel := Nat.lt_of_succ_lt_succ hfuel
      have hlisted' : ∀ b' ∈ rest, (g.place b').list = some (.accepts l) :=
        fun b' hb' => hlisted b' (List.mem_cons_of_mem b hb')
      unfold closeStale
      dsimp only
      split
      case isFalse => exact ih m hrest hlisted' hinserted hfuel'
      case isTrue hclose =>
        obtain ⟨-, hsome⟩ := hclose
        obtain ⟨k, hk⟩ := Option.ne_none_iff_exists'.mp hsome
        obtain ⟨u, hclient⟩ : ∃ u, (g.place b).client = some (k, u) :=
          m.client_of_listed (hlisted b List.mem_cons_self) (hinserted b) hk
        rw [hk]
        have hnext : State.next
            ((closesocket s (some k)).setBuffer b { s.buffer b with sclient := none }) =
            s.next := by
          exact comp_update_eq (φ := BufferObj.next) rfl
        have hothers : Others .main g ((g.setPlace b (g.place b).closeClient).setOwner k .gone) :=
          (Others.refl.setSeen Place.closeClient_holder fun w' hw hholder => by
            rw [Place.closeClient_holder] at hholder
            cases w' with
            | main => exact absurd rfl hw
            | thread t =>
                refine Place.closeClient_seen ?_ hholder
                rw [hlisted b List.mem_cons_self]
                exact nofun).setOwner
        have hlist : ∀ b', ((g.setPlace b (g.place b).closeClient).place b').list =
            (g.place b').list := congrFun (comp_update_eq (φ := Place.list) Place.closeClient_list)
        obtain ⟨s', g', hs', hthread, hmain, m', hothers', hinserted'⟩ :=
          ih (m.closeClient hclient) (x := State.next s b) (by rw [hnext]; exact hrest)
            (fun b' hb' => (hlist b').trans (hlisted' b' hb')) (fun b' l' hb' => by
              change update g.place b _ b' = _ at hb'
              rcases eq_or_ne b' b with rfl | hne
              · rw [update_self] at hb'
                exact hinserted b' l' (Place.closeClient_inserted hb')
              · rw [update_of_ne hne] at hb'
                exact hinserted b' l' hb') hfuel'
        refine ⟨s', g', ?_, hthread, hmain, m', hothers.trans hothers', hinserted'⟩
        rw [← hs', ← hnext]
        rfl

end MiscProjects.IocpServer
