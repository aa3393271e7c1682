import MiscProjects.IocpServer.Objects

/-!
# The steps of the threads

Every step of a completion thread keeps the objects in order, except that a
failed accept is freed while it is still in `PendingAccepts`, and that a thread
may find `bClosing` set by another one at its closing test.
-/

namespace MiscProjects.IocpServer

open Function (update update_self update_of_ne update_eq_self)
open SinglyLinked

variable {cfg : Config} {s s' : State} {g g' : Ghost} {t : ThreadId} {b : BufferPtr}
  {o : SocketPtr} {h n : ℕ} {u : List (List UInt8)} {c : Counts} {data : List UInt8} {ok : Bool}
  {pc : Pc} {k : Tail} {q : Phase} {l : ListenPtr}

/-! ## What a thread has in hand -/

theorem works_iff :
    (g.hand (.thread t)).Works t o u c ↔ ∃ h, g.phase o = .live (.thread t) h u c := by
  simp only [Hand.Works, hand_live_iff]

theorem holds_iff : (g.hand (.thread t)).Holds t b ↔ ∃ data, g.place b = .held t data := by
  simp only [Hand.Holds, hand_held_iff]

theorem cleans_iff : (g.hand (.thread t)).Cleans t o ↔
    ∃ u h, g.phase o = .live (.thread t) h u ⟨0, 0, 0, true⟩ := by
  simp only [Hand.Cleans, works_iff]

theorem accepted_iff {client : Option ℕ} :
    (g.hand (.thread t)).place b = some (.accepted t client data) ↔
      g.place b = .accepted t client data := by
  rw [hand_place_iff (by simp)]
  exact and_iff_left rfl

theorem dequeued_iff : (g.hand (.thread t)).place b = some (.dequeued t o data) ↔
    g.place b = .dequeued t o data := by
  rw [hand_place_iff (by simp)]
  exact and_iff_left rfl

theorem shut_iff : (g.hand (.thread t)).phase o = some (.shut t) ↔ g.phase o = .shut t := by
  rw [hand_phase_iff]
  exact and_iff_left rfl

theorem tail_setPhase (htail : (g.hand (.thread t)).Tail t k)
    (hq : ∀ h u, g.phase o ≠ .live (.thread t) h u ⟨0, 0, 0, true⟩) :
    ((g.setPhase o q).hand (.thread t)).Tail t k := by
  intro hclean
  obtain ⟨o', hsock, hcleans⟩ := htail hclean
  obtain ⟨u, h, hphase⟩ := cleans_iff.mp hcleans
  refine ⟨o', hsock, cleans_iff.mpr ⟨u, h, ?_⟩⟩
  have hne : o' ≠ o := by
    rintro rfl
    exact hq h u hphase
  exact (update_of_ne hne _ _).trans hphase

theorem no_tail (hclean : k.bCleanupSocket = false) : (g.hand (.thread t)).Tail t k :=
  fun htrue => absurd (hclean.symm.trans htrue) Bool.false_ne_true

theorem at_tail (htail : (g.hand (.thread t)).Tail t k) : (g.hand (.thread t)).At t k.pc := by
  obtain ⟨sockobj, bCleanup⟩ := k
  cases sockobj with
  | none => trivial
  | some o => exact htail

@[simp]
theorem Tail.cleans_pc : k.pc.cleans = k.cleans := by
  obtain ⟨sockobj, bCleanup⟩ := k
  cases sockobj with
  | none => simp [Tail.pc, Pc.cleans, Tail.cleans]
  | some o => rfl

variable {bCleanup : Bool} {i : ℕ} {r : Round} {pc' : Pc} {result : Result} {a : Action}
  {buf : Option BufferPtr}

theorem at_cleanup (htail : (g.hand (.thread t)).Tail t ⟨some o, bCleanup⟩) :
    (g.hand (.thread t)).At t (cleanup o bCleanup) := by
  cases bCleanup with
  | false => trivial
  | true =>
      obtain ⟨o', hsock, hcleans⟩ := htail rfl
      obtain rfl := Option.some.inj hsock
      exact hcleans

theorem cleans_cleanup : (cleanup o bCleanup).cleans = if bCleanup then some o else none := by
  cases bCleanup <;> rfl

/-! ## Putting a step together -/

/-- The thread has gone on, and every object has one owner. -/
def MovesTo (s : State) (t : ThreadId) (s' : State) : Prop :=
  ∃ g', Owned s' g' ∧ ∃ pc, s'.thread = update s.thread t pc

theorem Owned.goto (hown : Owned s g) (m : Memory s' g') (hthread : s'.thread = s.thread)
    (hmain : s'.main = s.main) (hs : Others (.thread t) g g') (hat : (g'.hand (.thread t)).At t pc)
    (hcleans : ∀ o, (g'.phase o).closer = some t → pc.cleans = some o) :
    Owned (s'.goto t pc) g' ∧ ∃ pc', (s'.goto t pc).thread = update s.thread t pc' := by
  have hgoto : (s'.goto t pc).thread = update s.thread t pc := by
    rw [State.goto, hthread]
  refine ⟨⟨⟨m.buffers, m.sockets, m.agreed, m.handles, m.lists, m.freeSockets⟩, ?_, ?_⟩, pc, hgoto⟩
  · rw [hgoto]
    exact hown.threads.step hs hat hcleans
  · change MainOk s'.main g'
    rw [hmain]
    exact hown.main.of_thread hs

theorem Owned.cleans_setPhase (hown : Owned s g) (hpc : s.thread t = pc)
    (hq : q.closer = some t → pc'.cleans = some o)
    (hkeep : ∀ o', o' ≠ o → pc.cleans = some o' → pc'.cleans = some o') :
    ∀ o', (update g.phase o q o').closer = some t → pc'.cleans = some o' := by
  intro o' hcloser
  rcases eq_or_ne o' o with rfl | hne
  · rw [update_self] at hcloser
    exact hq hcloser
  · rw [update_of_ne hne] at hcloser
    exact hkeep o' hne (hpc ▸ hown.threads.cleans o' t hcloser)

theorem Owned.cleans_keep (hown : Owned s g) (hpc : s.thread t = pc)
    (hkeep : ∀ o', pc.cleans = some o' → pc'.cleans = some o') :
    ∀ o', (g.phase o').closer = some t → pc'.cleans = some o' :=
  fun o' hcloser => hkeep o' (hpc ▸ hown.threads.cleans o' t hcloser)

theorem Phase.closes_of_none {pc : Pc} (hnone : q.closer = none) (hq : q.closer = some t) :
    pc.cleans = some o :=
  absurd (hnone.symm.trans hq) (Option.some_ne_none t).symm

theorem Pc.keeps_of_none {pc : Pc} (hnone : pc.cleans = none) (o : SocketPtr)
    (ho : pc.cleans = some o) : pc'.cleans = some o :=
  absurd (hnone.symm.trans ho) (Option.some_ne_none o).symm

theorem Owned.cleans_none (hown : Owned s g) (hpc : s.thread t = pc)
    (hq : q.closer = none) (hnone : pc.cleans = none) :
    ∀ o', (update g.phase o q o').closer = some t → pc'.cleans = some o' :=
  hown.cleans_setPhase hpc (Phase.closes_of_none hq) fun o' _ => Pc.keeps_of_none hnone o'

theorem Owned.skip (hown : Owned s g) (m : Memory s' g) (hthread : s'.thread = s.thread)
    (hmain : s'.main = s.main) (hpc : s.thread t = pc) (hat : (g.hand (.thread t)).At t pc')
    (hkeep : ∀ o', pc.cleans = some o' → pc'.cleans = some o') : MovesTo s t (s'.goto t pc') :=
  ⟨g, hown.goto m hthread hmain .refl hat (hown.cleans_keep hpc hkeep)⟩

theorem Owned.at_pc (hown : Owned s g) (hpc : s.thread t = pc) : (g.hand (.thread t)).At t pc :=
  hpc ▸ hown.threads.at_pc t

/-! ## The error path -/

attribute [local simp] IocpServer.advance handleIo advanceMain

theorem Owned.counts_of_works {u : List (List UInt8)} {c : Counts} (hown : Owned s g)
    (hworks : (g.hand (.thread t)).Works t o u c) :
    (s.socket o).counts = c ∧ o < s.sockets ∧ (g.phase o).holder = some (.thread t) := by
  obtain ⟨h, hphase⟩ := works_iff.mp hworks
  refine ⟨(hown.memory.describes hphase).2, not_le.mp fun hle => ?_, ?_⟩
  · rw [← hown.memory.sockets.fresh, hphase] at hle
    cases hle
  · rw [hphase]
    rfl

theorem Owned.counted (hown : Owned s g) {c : Counts} {v : SocketObj} (hpc : s.thread t = pc)
    (hnone : pc.cleans = none) (hworks : (g.hand (.thread t)).Works t o u c)
    (hs : v.s = (s.socket o).s) (hnext : v.next = (s.socket o).next) (hcounts : v.counts = .zero)
    (hat : ∀ h, ((g.setPhase o (.live (.thread t) h u .zero)).hand (.thread t)).Works t o u .zero →
      ((g.setPhase o (.live (.thread t) h u .zero)).hand (.thread t)).At t pc') :
    MovesTo s t ((s.setSocket o v).goto t pc') := by
  obtain ⟨h, hq⟩ := works_iff.mp hworks
  have m := hown.memory.setCounts hq hs hcounts hnext
  refine ⟨_, hown.goto m rfl rfl (Others.refl.setPhase (by simp [hq, Phase.holder])
    (by simp [Phase.holder])) ?_ (hown.cleans_none hpc rfl hnone)⟩
  exact hat h (works_iff.mpr ⟨h, update_self _ _ _⟩)

theorem Owned.readFailed (hown : Owned s g) (hpc : s.thread t = .readFailed o b)
    (hstep : advance s cfg t ok = some s') : MovesTo s t s' := by
  obtain ⟨⟨u, hworks⟩, hholds⟩ := hown.at_pc hpc
  have hcounts := (hown.counts_of_works hworks).1
  simp only [SocketObj.counts, Counts.mk.injEq] at hcounts
  obtain ⟨hrecv, hsend, hpend, hclosing⟩ := hcounts
  simp only [advance, hpc, hrecv, Option.some.injEq] at hstep
  subst hstep
  refine hown.counted hpc rfl hworks rfl rfl ?_ fun h hworks' => ⟨⟨u, hworks'⟩, hholds⟩
  simp [SocketObj.counts, hsend, hpend, hclosing, Counts.zero]

theorem Owned.writeFailed (hown : Owned s g) (hpc : s.thread t = .writeFailed o b)
    (hstep : advance s cfg t ok = some s') : MovesTo s t s' := by
  obtain ⟨⟨u, hworks⟩, hholds⟩ := hown.at_pc hpc
  have hcounts := (hown.counts_of_works hworks).1
  simp only [SocketObj.counts, Counts.mk.injEq] at hcounts
  obtain ⟨hrecv, hsend, hpend, hclosing⟩ := hcounts
  simp only [advance, hpc, hsend, Option.some.injEq] at hstep
  subst hstep
  refine hown.counted hpc rfl hworks rfl rfl ?_ fun h hworks' => ⟨⟨u, hworks'⟩, hholds⟩
  simp [SocketObj.counts, hrecv, hpend, hclosing, Counts.zero]

theorem Owned.failedTest (hown : Owned s g)
    (hpc : s.thread t = .readFailedTest o b ∨ s.thread t = .writeFailedTest o b)
    (hstep : advance s cfg t ok = some s') : MovesTo s t s' := by
  obtain ⟨⟨u, hworks⟩, hholds⟩ :
      (∃ u, (g.hand (.thread t)).Works t o u .zero) ∧ (g.hand (.thread t)).Holds t b := by
    rcases hpc with hpc | hpc
    · exact hown.at_pc hpc
    · exact hown.at_pc hpc
  have hcounts := (hown.counts_of_works hworks).1
  simp only [SocketObj.counts, Counts.zero, Counts.mk.injEq] at hcounts
  obtain ⟨hrecv, hsend, -, -⟩ := hcounts
  have hat : (g.hand (.thread t)).At t (.freeSocketObj o (some b)) := by
    refine ⟨.inl ⟨u, .zero, hworks⟩, fun b' hb' => ?_⟩
    obtain rfl := Option.some.inj hb'
    exact hholds
  rcases hpc with hpc | hpc
  · simp only [advance, hpc, hsend, if_true, Option.some.injEq] at hstep
    subst hstep
    exact hown.skip hown.memory rfl rfl hpc hat (Pc.keeps_of_none rfl)
  · simp only [advance, hpc, hrecv, if_true, Option.some.injEq] at hstep
    subst hstep
    exact hown.skip hown.memory rfl rfl hpc hat (Pc.keeps_of_none rfl)

/-! ## `FreeSocketObj` and `FreeBufferObj` -/

theorem Owned.freeSocketObj (hown : Owned s g) (hpc : s.thread t = .freeSocketObj o buf)
    (hstep : advance s cfg t ok = some s') : MovesTo s t s' := by
  obtain ⟨hphase, hholds⟩ := hown.at_pc hpc
  simp only [advance, hpc, Option.some.injEq] at hstep
  subst hstep
  rcases hphase with ⟨u, c, hworks⟩ | hshut
  · obtain ⟨h, hq⟩ := works_iff.mp hworks
    have hs := (hown.memory.describes hq).1
    rw [hs]
    refine ⟨_, hown.goto (hown.memory.close hq) rfl rfl
      (Others.refl.setPhase (by simp [hq, Phase.holder]) (by simp [Phase.holder])).setOwner ?_
      (hown.cleans_setPhase hpc (fun _ => rfl) fun _ _ => id)⟩
    exact ⟨shut_iff.mpr (update_self _ _ _), hholds⟩
  · have hq := shut_iff.mp hshut
    refine hown.skip (hown.memory.closeAgain hq) ?_ ?_ hpc ⟨hshut, hholds⟩ fun _ => id
    · cases (s.socket o).s <;> rfl
    · cases (s.socket o).s <;> rfl

theorem Owned.pushSocketObj (hown : Owned s g) (hpc : s.thread t = .pushSocketObj o buf)
    (hstep : advance s cfg t ok = some s') : MovesTo s t s' := by
  obtain ⟨hshut, hholds⟩ := hown.at_pc hpc
  simp only [advance, hpc, Option.some.injEq] at hstep
  subst hstep
  have hq := shut_iff.mp hshut
  refine ⟨_, hown.goto (hown.memory.pushSocketObj hq) rfl rfl
    (Others.refl.setPhase (by simp [hq, Phase.holder]) (by simp [Phase.holder])) ?_
    (hown.cleans_setPhase hpc (Phase.closes_of_none rfl) fun o' hne ho' =>
      absurd (Option.some.inj ho').symm hne)⟩
  cases buf with
  | none => trivial
  | some b => exact ⟨hholds b rfl, trivial⟩

theorem Owned.freeBufferObj {after : AfterFree} (hown : Owned s g)
    (hpc : s.thread t = .freeBufferObj b after) (hstep : advance s cfg t ok = some s') :
    MovesTo s t s' := by
  obtain ⟨hholds, hafter⟩ := hown.at_pc hpc
  simp only [advance, hpc, Option.some.injEq] at hstep
  subst hstep
  obtain ⟨data, hb⟩ := holds_iff.mp hholds
  refine ⟨_, hown.goto (hown.memory.freeBufferObj hb) rfl rfl
    (Others.refl.setPlace (by simp [hb, Place.holder]) (by simp [Place.holder])) ?_
    (hown.cleans_keep hpc ?_)⟩
  · cases after with
    | done => trivial
    | repost l => trivial
    | testLast o => exact hafter
    | tail k => exact at_tail hafter
  · intro o' ho'
    cases after with
    | done => exact ho'
    | repost l => exact ho'
    | testLast o => exact ho'
    | tail k => exact Tail.cleans_pc.trans ho'

/-! ## `OP_ACCEPT` -/

theorem Memory.setListener (m : Memory s g) {lo : ListenObj}
    (hlo : lo.pendingAccepts = (s.listener l).pendingAccepts) : Memory (s.setListener l lo) g where
  buffers := m.buffers
  sockets := m.sockets
  agreed := m.agreed
  handles := m.handles
  lists := by
    rw [heads_setListener_eq hlo]
    exact m.lists
  freeSockets := m.freeSockets

theorem Owned.acceptDone (hown : Owned s g) (hpc : s.thread t = .acceptDone l b n)
    (hstep : advance s cfg t ok = some s') : MovesTo s t s' := by
  have hat := hown.at_pc hpc
  simp only [advance, hpc, Option.some.injEq] at hstep
  subst hstep
  exact hown.skip (hown.memory.setListener rfl) rfl rfl hpc hat (Pc.keeps_of_none rfl)

theorem Owned.removeAccept (hown : Owned s g) (hpc : s.thread t = .removeAccept l b n)
    (hstep : advance s cfg t ok = some s') : MovesTo s t s' := by
  obtain ⟨data, hplace, hn⟩ := hown.at_pc hpc
  obtain ⟨client, hb⟩ := hand_done_iff.mp hplace
  obtain ⟨s₁, hremove, hthread, hmain, m⟩ := hown.memory.removePendingAccept hb
  simp only [advance, hpc, hremove, Option.map_some, Option.some.injEq] at hstep
  subst hstep
  refine ⟨_, hown.goto m hthread hmain
    (Others.refl.setPlace (by simp [hb, Place.holder]) (by simp [Place.holder])) ?_
    (hown.cleans_keep hpc (Pc.keeps_of_none rfl))⟩
  exact ⟨client, data, accepted_iff.mpr (update_self _ _ _), hn⟩

theorem Owned.newSocketObj (hown : Owned s g) (hpc : s.thread t = .newSocketObj l b n)
    (hstep : advance s cfg t ok = some s') : MovesTo s t s' := by
  obtain ⟨client, data, hplace, hn⟩ := hown.at_pc hpc
  have hb := accepted_iff.mp hplace
  simp only [advance, hpc] at hstep
  split at hstep
  case h_1 o s₁ hget =>
    obtain rfl := Option.some.inj hstep
    have hidle := (hown.memory.getSocketObj hget).1
    obtain ⟨hthread, hmain, m⟩ := hown.memory.connect hb hget
    have hloose : Loose (.thread t) (g.phase o).holder := by
      rcases hidle with hq | hq
      · simp [hq, Phase.holder]
      · simp [hq, Phase.holder]
    cases client with
    | some h =>
        refine ⟨_, hown.goto m hthread hmain
          ((Others.refl.setPlace (by simp [hb, Place.holder]) (by simp [Place.holder])).setPhase
            hloose (by simp [Phase.holder])).setOwner ?_ (hown.cleans_none hpc rfl rfl)⟩
        exact ⟨data, hand_held_iff.mpr (update_self _ _ _), hn,
          .inl ⟨h, hand_phase_iff.mpr ⟨update_self _ _ _, rfl⟩⟩⟩
    | none =>
        refine ⟨_, hown.goto m hthread hmain
          ((Others.refl.setPlace (by simp [hb, Place.holder]) (by simp [Place.holder])).setPhase
            hloose (by simp [Phase.holder])) ?_ (hown.cleans_none hpc rfl rfl)⟩
        exact ⟨data, hand_held_iff.mpr (update_self _ _ _), hn,
          .inr (hand_phase_iff.mpr ⟨update_self _ _ _, rfl⟩)⟩
  case h_2 s₁ hget =>
    obtain rfl := Option.some.inj hstep
    have hsame : s₁ = s := getSocketObj_none hget
    subst hsame
    exact hown.skip hown.memory rfl rfl hpc ⟨client, data, hplace⟩ (Pc.keeps_of_none rfl)

theorem Owned.closeClient (hown : Owned s g) (hpc : s.thread t = .closeClient l b)
    (hstep : advance s cfg t ok = some s') : MovesTo s t s' := by
  obtain ⟨client, data, hplace⟩ := hown.at_pc hpc
  have hb := accepted_iff.mp hplace
  have hdescribes := hown.memory.buffers.describes b
  rw [hb] at hdescribes
  simp only [advance, hpc, hdescribes.1, Option.some.injEq] at hstep
  subst hstep
  cases client with
  | some h =>
      have mclosed := hown.memory.closeClient (b := b) (k := h) (u := [data]) (by rw [hb]; rfl)
      have m := mclosed.giveUp (b := b) (t := t) ((update_self _ _ _).trans (by rw [hb]; rfl))
      refine ⟨_, hown.goto m rfl rfl ((Others.refl.setPlace (by simp [hb, Place.holder])
          (by simp [hb, Place.holder, Place.closeClient])).setOwner.setPlace
          (by simp [Ghost.setPlace, Ghost.setOwner, hb, Place.holder, Place.closeClient])
          (by simp [Place.holder])) ?_ (hown.cleans_keep hpc (Pc.keeps_of_none rfl))⟩
      exact ⟨holds_iff.mpr ⟨data, update_self _ _ _⟩, trivial⟩
  | none =>
      have hsame : { s.buffer b with sclient := none } = s.buffer b := by
        rw [← hdescribes.1]
      have m : Memory (s.setBuffer b { s.buffer b with sclient := none })
          (g.setPlace b (.held t data)) := by
        rw [hsame, State.setBuffer, update_eq_self]
        exact hown.memory.giveUp hb
      refine ⟨_, hown.goto m rfl rfl
        (Others.refl.setPlace (by simp [hb, Place.holder]) (by simp [Place.holder])) ?_
        (hown.cleans_keep hpc (Pc.keeps_of_none rfl))⟩
      exact ⟨holds_iff.mpr ⟨data, update_self _ _ _⟩, trivial⟩

theorem Owned.associate (hown : Owned s g) (hpc : s.thread t = .associate l b n o)
    (hstep : advance s cfg t ok = some s') : MovesTo s t s' := by
  obtain ⟨data, hplace, hn, hphase⟩ := hown.at_pc hpc
  have hidle : MovesTo s t (s.goto t .idle) :=
    hown.skip hown.memory rfl rfl hpc trivial (Pc.keeps_of_none rfl)
  simp only [advance, hpc] at hstep
  split at hstep
  case h_1 => exact Option.some.inj hstep ▸ hidle
  case h_2 h hs =>
    split at hstep
    case isFalse => exact Option.some.inj hstep ▸ hidle
    case isTrue =>
      obtain rfl := Option.some.inj hstep
      rcases hphase with ⟨k, hphase⟩ | hphase
      · have hq := (hand_phase_iff.mp hphase).1
        have hdescribes := hown.memory.sockets.describes o
        rw [hq] at hdescribes
        obtain rfl : k = h := Option.some.inj (hdescribes.1.symm.trans hs)
        refine ⟨_, hown.goto (hown.memory.associate hq) rfl rfl
          (Others.refl.setPhase (by simp [hq, Phase.holder]) (by simp [Phase.holder])) ?_
          (hown.cleans_none hpc rfl rfl)⟩
        exact ⟨data, hplace, hn, works_iff.mpr ⟨k, update_self _ _ _⟩⟩
      · have hdescribes := hown.memory.sockets.describes o
        rw [(hand_phase_iff.mp hphase).1] at hdescribes
        exact absurd (hdescribes.1.symm.trans hs) (Option.some_ne_none h).symm

theorem Owned.repost (hown : Owned s g) (hpc : s.thread t = .repost l)
    (hstep : advance s cfg t ok = some s') : MovesTo s t s' := by
  simp only [advance, hpc, Option.some.injEq] at hstep
  subst hstep
  exact hown.skip (hown.memory.setListener rfl) rfl rfl hpc trivial (Pc.keeps_of_none rfl)

theorem Owned.signalRepost (hown : Owned s g) (hpc : s.thread t = .signalRepost l)
    (hstep : advance s cfg t ok = some s') : MovesTo s t s' := by
  simp only [advance, hpc, Option.some.injEq] at hstep
  subst hstep
  exact hown.skip (hown.memory.setListener rfl) rfl rfl hpc (no_tail rfl) (Pc.keeps_of_none rfl)

/-! ## `OP_READ` -/

theorem Owned.readDone (hown : Owned s g) (hpc : s.thread t = .readDone o b n)
    (hstep : advance s cfg t ok = some s') : MovesTo s t s' := by
  obtain ⟨data, hplace, hn, hworks⟩ := hown.at_pc hpc
  have hcounts := (hown.counts_of_works hworks).1
  simp only [SocketObj.counts, Counts.mk.injEq] at hcounts
  obtain ⟨hrecv, hsend, hpend, hclosing⟩ := hcounts
  simp only [advance, hpc, hrecv, Option.some.injEq] at hstep
  subst hstep
  refine hown.counted hpc rfl hworks rfl rfl ?_ fun h hworks' => ?_
  · simp [SocketObj.counts, hsend, hpend, hclosing, Counts.zero]
  · split
    case isTrue => exact ⟨data, hplace, hn, hworks'⟩
    case isFalse => exact ⟨⟨_, hworks'⟩, holds_iff.mpr ⟨data, hand_held_iff.mp hplace⟩⟩

theorem Owned.setClosing (hown : Owned s g) (hpc : s.thread t = .setClosing o b)
    (hstep : advance s cfg t ok = some s') : MovesTo s t s' := by
  obtain ⟨⟨u, hworks⟩, hholds⟩ := hown.at_pc hpc
  obtain ⟨h, hq⟩ := works_iff.mp hworks
  obtain ⟨-, hcounts⟩ := hown.memory.describes hq
  simp only [SocketObj.counts, Counts.zero, Counts.mk.injEq] at hcounts
  obtain ⟨hrecv, hsend, hpend, -⟩ := hcounts
  simp only [advance, hpc, Option.some.injEq] at hstep
  subst hstep
  have m := hown.memory.setCounts (d := ⟨0, 0, 0, true⟩)
    (v := { s.socket o with bClosing := true }) hq rfl
    (by simp [SocketObj.counts, hrecv, hsend, hpend]) rfl
  refine ⟨_, hown.goto m rfl rfl (Others.refl.setPhase (by simp [hq, Phase.holder])
    (by simp [Phase.holder])) ?_ (hown.cleans_setPhase hpc
      (fun _ => rfl) fun o' _ => Pc.keeps_of_none rfl o')⟩
  exact ⟨hholds, cleans_iff.mpr ⟨u, h, update_self _ _ _⟩⟩

theorem Owned.testLast (hown : Owned s g) (hpc : s.thread t = .testLast o)
    (hstep : advance s cfg t ok = some s') : MovesTo s t s' := by
  have hcleans := hown.at_pc hpc
  obtain ⟨u, h, hq⟩ := cleans_iff.mp hcleans
  obtain ⟨-, hcounts⟩ := hown.memory.describes hq
  simp only [SocketObj.counts, Counts.mk.injEq] at hcounts
  obtain ⟨hrecv, hsend, -, -⟩ := hcounts
  simp only [advance, hpc, hrecv, hsend, and_self, decide_true, Option.some.injEq] at hstep
  subst hstep
  exact hown.skip hown.memory rfl rfl hpc (fun _ => ⟨o, rfl, hcleans⟩) fun _ => id

/-! ## `OP_WRITE` -/

theorem Owned.writeDone (hown : Owned s g) (hpc : s.thread t = .writeDone o b)
    (hstep : advance s cfg t ok = some s') : MovesTo s t s' := by
  obtain ⟨hworks, hholds⟩ := hown.at_pc hpc
  have hcounts := (hown.counts_of_works hworks).1
  simp only [SocketObj.counts, Counts.mk.injEq] at hcounts
  obtain ⟨hrecv, hsend, hpend, hclosing⟩ := hcounts
  simp only [advance, hpc, hsend, Option.some.injEq] at hstep
  subst hstep
  refine hown.counted hpc rfl hworks rfl rfl ?_ fun h hworks' => ⟨hworks', hholds⟩
  simp [SocketObj.counts, hrecv, hpend, hclosing, Counts.zero]

theorem Owned.writeDoneGlobal (hown : Owned s g) (hpc : s.thread t = .writeDoneGlobal o b)
    (hstep : advance s cfg t ok = some s') : MovesTo s t s' := by
  obtain ⟨hworks, hholds⟩ := hown.at_pc hpc
  obtain ⟨data, hb⟩ := holds_iff.mp hholds
  simp only [advance, hpc, Option.some.injEq] at hstep
  subst hstep
  have m := hown.memory.hold hb (e := { s.buffer b with buflen := cfg.gBufferSize }) rfl
    (hown.memory.held_data hb)
  have hat : (g.hand (.thread t)).At t (.testClosing o b) := ⟨hworks, hholds⟩
  refine hown.skip ?_ rfl rfl hpc hat (Pc.keeps_of_none rfl)
  exact ⟨m.buffers, m.sockets, m.agreed, m.handles, m.lists, m.freeSockets⟩

theorem Owned.testClosing (hown : Owned s g) (hpc : s.thread t = .testClosing o b)
    (hstep : advance s cfg t ok = some s') : MovesTo s t s' := by
  obtain ⟨hworks, hholds⟩ := hown.at_pc hpc
  have hat : (g.hand (.thread t)).At t (.postRecv o b) := ⟨hworks, hholds⟩
  have hcounts := (hown.counts_of_works hworks).1
  simp only [SocketObj.counts, Counts.zero, Counts.mk.injEq] at hcounts
  simp only [advance, hpc, hcounts.2.2.2, Option.some.injEq] at hstep
  subst hstep
  exact hown.skip hown.memory rfl rfl hpc hat (Pc.keeps_of_none rfl)

theorem Owned.postRecv (hown : Owned s g) (hpc : s.thread t = .postRecv o b)
    (hstep : advance s cfg t ok = some s') : MovesTo s t s' := by
  obtain ⟨hworks, hholds⟩ := hown.at_pc hpc
  obtain ⟨data, hb⟩ := holds_iff.mp hholds
  obtain ⟨h, hq⟩ := works_iff.mp hworks
  simp only [advance, hpc, Option.some.injEq] at hstep
  subst hstep
  have mheld := hown.memory.hold hb (e := { s.buffer b with sock := some o }) rfl
    (hown.memory.held_data hb)
  obtain ⟨hthread, hmain, hpost⟩ := mheld.postRecv hb hq ok
  rcases hpost with m | ⟨len, m⟩
  · exact hown.skip m hthread hmain hpc (no_tail rfl) (Pc.keeps_of_none rfl)
  · refine ⟨_, hown.goto m hthread hmain
      ((Others.refl.setPlace (by simp [hb, Place.holder]) (by simp [Place.holder])).setPhase
        (by simp [Ghost.setPlace, hq, Phase.holder]) (by simp [Phase.holder])) (no_tail rfl)
      (hown.cleans_none hpc rfl rfl)⟩

/-! ## `ProcessPendingOperations` -/

theorem Owned.enqueue {listenobj : Option ListenPtr} (hown : Owned s g)
    (hpc : s.thread t = .enqueue o b n listenobj) (hstep : advance s cfg t ok = some s') :
    MovesTo s t s' := by
  obtain ⟨data, hplace, hn, hworks⟩ := hown.at_pc hpc
  have hb := hand_held_iff.mp hplace
  obtain ⟨h, hq⟩ := works_iff.mp hworks
  have hdata := hown.memory.held_data hb
  have mheld := hown.memory.hold hb (e := { s.buffer b with buflen := n, sock := some o }) rfl hdata
  obtain ⟨s₁, henqueue, hthread, hmain, m⟩ := mheld.enqueue hb hq (by simp [State.setBuffer]) (by
      simp only [State.setBuffer, update_self]
      exact BufferObj.bytes_eq hdata hn.symm)
  simp only [advance, hpc, henqueue, Option.map_some, Option.some.injEq] at hstep
  subst hstep
  refine ⟨_, hown.goto m hthread hmain
    ((Others.refl.setPlace (by simp [hb, Place.holder]) (by simp [Place.holder])).setPhase
      (by simp [Ghost.setPlace, hq, Phase.holder]) (by simp [Phase.holder])) ?_
    (hown.cleans_none hpc rfl rfl)⟩
  cases listenobj with
  | some l => trivial
  | none => exact no_tail rfl

theorem Owned.process (hown : Owned s g) (hpc : s.thread t = .process k)
    (hstep : advance s cfg t ok = some s') : MovesTo s t s' := by
  have htail := hown.at_pc hpc
  simp only [advance, hpc, Option.some.injEq] at hstep
  subst hstep
  split
  case isTrue => exact hown.skip hown.memory rfl rfl hpc htail fun _ => id
  case isFalse =>
    exact hown.skip hown.memory rfl rfl hpc (at_tail htail) fun _ => Tail.cleans_pc.trans

theorem Owned.dequeue (hown : Owned s g) (hpc : s.thread t = .dequeue k)
    (hstep : advance s cfg t ok = some s') : MovesTo s t s' := by
  have htail := hown.at_pc hpc
  cases hhead : s.gPendingSendList with
  | none =>
      have hdequeue : dequeuePendingOperation s = some (none, s) := by
        rw [dequeuePendingOperation, hhead]
      simp only [advance, hpc, hdequeue, Option.some.injEq] at hstep
      subst hstep
      exact hown.skip hown.memory rfl rfl hpc (at_tail htail) fun _ => Tail.cleans_pc.trans
  | some b =>
      obtain ⟨o, h, data, s₁, hb, hdequeue, hthread, hmain, m⟩ := hown.memory.dequeue t hhead
      simp only [advance, hpc, hdequeue, Option.some.injEq] at hstep
      subst hstep
      have hq := hown.memory.agreed.phase_of_work (b := b) (o := o) (by rw [hb]; rfl)
      refine ⟨_, hown.goto m hthread hmain
        ((Others.refl.setPlace (by simp [hb, Place.holder]) (by simp [Place.holder])).setPhase
          (by simp [Ghost.setPlace, hq, Phase.holder]) (by simp [Phase.holder])) ?_
        (hown.cleans_setPhase hpc (Phase.closes_of_none rfl) fun _ _ => id)⟩
      refine ⟨⟨o, data, dequeued_iff.mpr (update_self _ _ _),
        works_iff.mpr ⟨h, update_self _ _ _⟩⟩, ?_⟩
      exact tail_setPhase (g := g.setPlace b (.dequeued t o data)) htail
        (by simp [Ghost.setPlace, hq])

theorem Owned.postSend (hown : Owned s g) (hpc : s.thread t = .postSend b k)
    (hstep : advance s cfg t ok = some s') : MovesTo s t s' := by
  obtain ⟨⟨o, data, hplace, hworks⟩, htail⟩ := hown.at_pc hpc
  have hb := dequeued_iff.mp hplace
  obtain ⟨h, hq⟩ := works_iff.mp hworks
  have hdescribes := hown.memory.buffers.describes b
  rw [hb] at hdescribes
  obtain ⟨hthread, hmain, hpost⟩ := hown.memory.postSend hb hq ok
  simp only [advance, hpc, hdescribes.1] at hstep
  have htail' : ((g.handOver t b o h).hand (.thread t)).Tail t k :=
    tail_setPhase (g := g.setPlace b (.held t [])) htail (by simp [Ghost.setPlace, hq, Counts.zero])
  have hothers : Others (.thread t) g (g.handOver t b o h) :=
    ((Others.refl.setPlace (by simp [hb, Place.holder]) (by simp [Place.holder])).setPhase
      (by simp [Ghost.setPlace, hq, Phase.holder]) (by simp [Phase.holder])).setOwner
  cases hresult : IocpServer.postSend s o b ok with
  | mk posted s₁ =>
      rw [hresult] at hpost hthread hmain hstep
      rcases hpost with ⟨hfalse, m⟩ | ⟨htrue, m⟩
      · obtain rfl : posted = false := hfalse
        obtain rfl := Option.some.inj hstep
        refine ⟨_, hown.goto m hthread hmain hothers ?_
          (hown.cleans_setPhase hpc (Phase.closes_of_none rfl) fun _ _ => id)⟩
        exact ⟨holds_iff.mpr ⟨[], update_self _ _ _⟩, htail'⟩
      · obtain rfl : posted = true := htrue
        obtain rfl := Option.some.inj hstep
        refine ⟨_, hown.goto m hthread hmain
          ((hothers.setPlace (by simp [Ghost.handOver, Ghost.setPlace, Ghost.setPhase,
              Ghost.setOwner, Place.holder]) (by simp [Place.holder])).setPhase
            (by simp [Ghost.handOver, Ghost.setPlace, Ghost.setPhase, Ghost.setOwner,
              Phase.holder]) (by simp [Phase.holder])) ?_ ?_⟩
        · exact tail_setPhase (g := (g.handOver t b o h).setPlace b (.sending o h)) htail'
            (by simp [Ghost.handOver, Ghost.setPlace, Ghost.setPhase, Ghost.setOwner, Counts.zero])
        · intro o' hcloser
          change (update (update g.phase o _) o _ o').closer = _ at hcloser
          rw [Function.update_idem] at hcloser
          exact hown.cleans_setPhase (q := .live (.buffer b) h [] ⟨0, 1, 0, false⟩) hpc
            (Phase.closes_of_none rfl) (fun _ _ => id) o' hcloser

/-! ## The closing test -/

theorem Owned.testSend (hown : Owned s g) (hpc : s.thread t = .testSend o bCleanup)
    (hstep : advance s cfg t ok = some s') : MovesTo s t s' := by
  have htail := hown.at_pc hpc
  simp only [advance, hpc, Option.some.injEq] at hstep
  subst hstep
  split
  case isTrue => exact hown.skip hown.memory rfl rfl hpc htail fun _ => id
  case isFalse =>
    exact hown.skip hown.memory rfl rfl hpc (at_cleanup htail) fun _ => cleans_cleanup.trans

theorem Owned.testRecv (hown : Owned s g) (hpc : s.thread t = .testRecv o bCleanup)
    (hstep : advance s cfg t ok = some s') : MovesTo s t s' := by
  have htail := hown.at_pc hpc
  simp only [advance, hpc, Option.some.injEq] at hstep
  subst hstep
  split
  case isTrue => exact hown.skip hown.memory rfl rfl hpc htail fun _ => id
  case isFalse =>
    exact hown.skip hown.memory rfl rfl hpc (at_cleanup htail) fun _ => cleans_cleanup.trans

theorem Owned.testCloses (hown : Owned s g) (hpc : s.thread t = .testCloses o bCleanup)
    (hregular : (s.socket o).bClosing = true → bCleanup = true)
    (hstep : advance s cfg t ok = some s') : MovesTo s t s' := by
  have htail := hown.at_pc hpc
  have hsame : (bCleanup || (s.socket o).bClosing) = bCleanup := by
    cases hclosing : (s.socket o).bClosing with
    | false => exact Bool.or_false _
    | true => rw [hregular hclosing]; rfl
  simp only [advance, hpc, hsame, Option.some.injEq] at hstep
  subst hstep
  exact hown.skip hown.memory rfl rfl hpc (at_cleanup htail) fun _ => cleans_cleanup.trans

theorem Owned.closeSocket (hown : Owned s g) (hpc : s.thread t = .closeSocket o)
    (hstep : advance s cfg t ok = some s') : MovesTo s t s' := by
  obtain ⟨u, h, hq⟩ := cleans_iff.mp (hown.at_pc hpc)
  have hs := (hown.memory.describes hq).1
  simp only [advance, hpc, hs, Option.some.injEq] at hstep
  subst hstep
  refine ⟨_, hown.goto (hown.memory.close hq) rfl rfl
    (Others.refl.setPhase (by simp [hq, Phase.holder]) (by simp [Phase.holder])).setOwner ?_
    (hown.cleans_setPhase hpc (fun _ => rfl) fun _ _ => id)⟩
  refine ⟨.inr (shut_iff.mpr (update_self _ _ _)), fun b hb => ?_⟩
  cases hb

/-! ## A step of a completion thread -/

theorem Owned.advance (hown : Owned s g) (hclosing : findsClosing s (.thread t ok) = false)
    (hstep : IocpServer.advance s cfg t ok = some s') : MovesTo s t s' := by
  cases hpc : s.thread t with
  | idle => simp [IocpServer.advance, hpc] at hstep
  | readFailed => exact hown.readFailed hpc hstep
  | readFailedTest => exact hown.failedTest (.inl hpc) hstep
  | writeFailed => exact hown.writeFailed hpc hstep
  | writeFailedTest => exact hown.failedTest (.inr hpc) hstep
  | acceptFailed => exact (hown.at_pc hpc).elim
  | acceptDone => exact hown.acceptDone hpc hstep
  | removeAccept => exact hown.removeAccept hpc hstep
  | newSocketObj => exact hown.newSocketObj hpc hstep
  | closeClient => exact hown.closeClient hpc hstep
  | associate => exact hown.associate hpc hstep
  | repost => exact hown.repost hpc hstep
  | signalRepost => exact hown.signalRepost hpc hstep
  | readDone => exact hown.readDone hpc hstep
  | setClosing => exact hown.setClosing hpc hstep
  | testLast => exact hown.testLast hpc hstep
  | writeDone => exact hown.writeDone hpc hstep
  | writeDoneGlobal => exact hown.writeDoneGlobal hpc hstep
  | testClosing => exact hown.testClosing hpc hstep
  | postRecv => exact hown.postRecv hpc hstep
  | enqueue => exact hown.enqueue hpc hstep
  | process => exact hown.process hpc hstep
  | dequeue => exact hown.dequeue hpc hstep
  | postSend => exact hown.postSend hpc hstep
  | testSend => exact hown.testSend hpc hstep
  | testRecv => exact hown.testRecv hpc hstep
  | testCloses o bCleanup =>
      refine hown.testCloses hpc (fun hset => ?_) hstep
      simpa [findsClosing, hpc, hset] using hclosing
  | closeSocket => exact hown.closeSocket hpc hstep
  | freeSocketObj => exact hown.freeSocketObj hpc hstep
  | pushSocketObj => exact hown.pushSocketObj hpc hstep
  | freeBufferObj => exact hown.freeBufferObj hpc hstep

/-! ## Completions -/

theorem receive_operation : ((IocpServer.receive s b h data).buffer b).operation =
    (s.buffer b).operation := by
  simp [IocpServer.receive, State.setBuffer, BufferObj.fill]

theorem handleIo_accept (hop : (s.buffer b).operation = .opAccept) :
    handleIo s b (some n) (.inl l) = some (.acceptDone l b n) := by
  simp [hop]

theorem handleIo_readFailed (hop : (s.buffer b).operation = .opRead) :
    handleIo s b none (.inr o) = some (.readFailed o b) := by
  simp [hop]

theorem handleIo_read (hop : (s.buffer b).operation = .opRead) :
    handleIo s b (some n) (.inr o) = some (.readDone o b n) := by
  simp [hop]

theorem handleIo_writeFailed (hop : (s.buffer b).operation = .opWrite) :
    handleIo s b none (.inr o) = some (.writeFailed o b) := by
  simp [hop]

theorem handleIo_write (hop : (s.buffer b).operation = .opWrite) :
    handleIo s b (some n) (.inr o) = some (.writeDone o b) := by
  simp [hop]

theorem Owned.request_eq {request rq : Request} (hown : Owned s g)
    (hrequest : (s.requests b)[i]? = some request) (hplace : (g.place b).requests = [rq]) :
    request = rq ∧ (s.requests b).eraseIdx i = [] := by
  rw [hown.memory.buffers.requests, hplace] at hrequest ⊢
  cases i with
  | zero => exact ⟨(Option.some.inj hrequest).symm, rfl⟩
  | succ i => simp at hrequest

theorem Owned.finish (hown : Owned s g) {pc : Pc} {g₁ : Ghost} (hidle : s.thread t = .idle)
    (m : Memory s' g₁) (hthread : s'.thread = s.thread) (hmain : s'.main = s.main)
    (hb : (g.place b).holder = none) (hq : g.phase o = .live (.buffer b) h u c)
    (hg : ∃ data u', g₁.place = update g.place b (.held t data) ∧
      g₁.phase = update g.phase o (.live (.thread t) h u' c)) (hclosing : c.bClosing = false)
    (hat : (g₁.hand (.thread t)).At t pc) : MovesTo s t (s'.goto t pc) := by
  obtain ⟨data, u', hplace, hphase⟩ := hg
  refine ⟨g₁, hown.goto m hthread hmain ?_ hat ?_⟩
  · have hothers : Others (.thread t) g ((g.setPlace b (.held t data)).setPhase o
        (.live (.thread t) h u' c)) :=
      (Others.refl.setPlace (by simp [hb]) (by simp [Place.holder])).setPhase
        (by simp [Ghost.setPlace, hq, Phase.holder]) (by simp [Phase.holder])
    intro w' hw'
    rw [← hothers w' hw', Ghost.hand, Ghost.hand, hplace, hphase]
    rfl
  · rw [hphase]
    refine hown.cleans_setPhase hidle (fun hcloser => ?_) fun o' _ => Pc.keeps_of_none rfl o'
    simp [Phase.closer, hclosing] at hcloser

theorem Owned.complete (hown : Owned s g)
    (haccept : ∀ l h len, result = none → (s.requests b)[i]? ≠ some (.acceptEx l h len))
    (hstep : IocpServer.complete s t b i result = some s') : MovesTo s t s' := by
  unfold IocpServer.complete at hstep
  split at hstep
  case h_2 => exact nomatch hstep
  case h_1 request hidle hrequest =>
    have hdescribes := hown.memory.buffers.describes b
    cases hb : g.place b with
    | listed l w =>
        cases w with
        | inFlight h len client =>
            obtain ⟨rfl, herase⟩ := hown.request_eq hrequest (by rw [hb]; rfl)
            rw [herase] at hstep
            cases result with
            | none => exact absurd hrequest (haccept l h len rfl)
            | some data =>
                rw [hb] at hdescribes
                simp only [arrive] at hstep
                split at hstep
                case h_1 => exact nomatch hstep
                case h_2 s₁ key n harrive =>
                  split at harrive
                  case isFalse => exact nomatch harrive
                  case isTrue =>
                    simp only [Option.some.injEq, Prod.mk.injEq] at harrive
                    obtain ⟨rfl, rfl, rfl⟩ := harrive
                    have m := hown.memory.accept t hb data
                    simp only [handleIo_accept, receive_operation, hdescribes.2.1,
                      Option.map_some, Option.some.injEq] at hstep
                    subst hstep
                    refine ⟨_, hown.goto m rfl rfl
                      (Others.refl.setPlace (by simp [hb, Place.holder])
                        (by simp [Place.holder])).setOwner ?_
                      (hown.cleans_keep hidle (Pc.keeps_of_none rfl))⟩
                    exact ⟨data, hand_done_iff.mpr ⟨client, update_self _ _ _⟩, rfl⟩
        | _ =>
            rw [hown.memory.buffers.requests, hb] at hrequest
            exact nomatch hrequest
    | receiving o h len =>
        obtain ⟨rfl, herase⟩ := hown.request_eq hrequest (by rw [hb]; rfl)
        rw [hb] at hdescribes
        have hop : (s.buffer b).operation = .opRead := hdescribes
        have hq := hown.memory.agreed.phase_of_work (b := b) (o := o) (by rw [hb]; rfl)
        have hkeyed := hown.memory.sockets.keyed o
        rw [hq] at hkeyed
        have hkey : s.key h = some o := hkeyed
        have m := hown.memory.finish (b := b) (o := o) t (by rw [hb]; rfl) (by rw [hb]; rfl)
        rw [herase] at hstep
        cases result with
        | none =>
            simp only [arrive, hkey, Option.map_some, handleIo_readFailed, hop,
              Option.some.injEq] at hstep
            subst hstep
            refine hown.finish hidle m rfl rfl (by rw [hb]; rfl) hq ⟨[], [], rfl, rfl⟩ rfl ?_
            exact ⟨⟨[], works_iff.mpr ⟨h, update_self _ _ _⟩⟩,
              holds_iff.mpr ⟨[], update_self _ _ _⟩⟩
        | some data =>
            simp only [arrive, hkey, Option.map_some] at hstep
            split at hstep
            case h_1 => exact nomatch hstep
            case h_2 s₁ key n harrive =>
              split at harrive
              case isFalse => exact nomatch harrive
              case isTrue =>
                simp only [Option.some.injEq, Prod.mk.injEq] at harrive
                obtain ⟨rfl, rfl, rfl⟩ := harrive
                have m' := m.receive (update_self _ _ _) (update_self _ _ _) data
                simp only [handleIo_read, receive_operation, hop, Option.map_some,
                  Option.some.injEq] at hstep
                subst hstep
                refine hown.finish hidle m' rfl rfl (by rw [hb]; rfl) hq
                  ⟨data, [data], Function.update_idem _ _ _, Function.update_idem _ _ _⟩ rfl ?_
                exact ⟨data, hand_held_iff.mpr (update_self _ _ _), rfl,
                  works_iff.mpr ⟨h, update_self _ _ _⟩⟩
    | sending o h =>
        obtain ⟨rfl, herase⟩ := hown.request_eq hrequest (by rw [hb]; rfl)
        rw [hb] at hdescribes
        have hop : (s.buffer b).operation = .opWrite := hdescribes
        have hq := hown.memory.agreed.phase_of_work (b := b) (o := o) (by rw [hb]; rfl)
        have hkeyed := hown.memory.sockets.keyed o
        rw [hq] at hkeyed
        have hkey : s.key h = some o := hkeyed
        have m := hown.memory.finish (b := b) (o := o) t (by rw [hb]; rfl) (by rw [hb]; rfl)
        rw [herase] at hstep
        cases result with
        | none =>
            simp only [arrive, hkey, Option.map_some, handleIo_writeFailed, hop,
              Option.some.injEq] at hstep
            subst hstep
            refine hown.finish hidle m rfl rfl (by rw [hb]; rfl) hq ⟨[], [], rfl, rfl⟩ rfl ?_
            exact ⟨⟨[], works_iff.mpr ⟨h, update_self _ _ _⟩⟩,
              holds_iff.mpr ⟨[], update_self _ _ _⟩⟩
        | some data =>
            simp only [arrive, hkey, Option.map_some, handleIo_write, hop, Option.some.injEq]
              at hstep
            subst hstep
            refine hown.finish hidle m rfl rfl (by rw [hb]; rfl) hq ⟨[], [], rfl, rfl⟩ rfl ?_
            exact ⟨works_iff.mpr ⟨h, update_self _ _ _⟩, holds_iff.mpr ⟨[], update_self _ _ _⟩⟩
    | _ =>
        rw [hown.memory.buffers.requests, hb] at hrequest
        exact nomatch hrequest

/-! ## The main thread -/

/-- The main thread has gone on, and every object has one owner. -/
def StaysTo (s s' : State) : Prop :=
  ∃ g', Owned s' g' ∧ s'.thread = s.thread

theorem Owned.onward {x : MainPc} (hown : Owned s g) (m : Memory s' g')
    (hthread : s'.thread = s.thread) (hs : Others .main g g') (hat : (g'.hand .main).AtMain x)
    (hinserted : ∀ b l, g'.place b = .listed l .inserted → ∃ r, x = .createSocket r b) :
    StaysTo s { s' with main := x } := by
  refine ⟨g', ⟨⟨m.buffers, m.sockets, m.agreed, m.handles, m.lists, m.freeSockets⟩, ?_,
    ⟨hat, hinserted⟩⟩, hthread⟩
  change ThreadsOk s'.thread g'
  rw [hthread]
  exact hown.threads.of_main hs

theorem Owned.not_inserted (hown : Owned s g) (hmain : ∀ r b, s.main ≠ .createSocket r b)
    (b : BufferPtr) (l : ListenPtr) : g.place b ≠ .listed l .inserted := by
  intro hb
  obtain ⟨r, hr⟩ := hown.main.inserted b l hb
  exact hmain r b hr

theorem Owned.onward_skip {main : MainPc} (hown : Owned s g) (m : Memory s' g)
    (hthread : s'.thread = s.thread) (hmain : ∀ r b, s.main ≠ .createSocket r b)
    (hat : (g.hand .main).AtMain main) : StaysTo s { s' with main := main } :=
  hown.onward m hthread .refl hat fun b l hb => absurd hb (hown.not_inserted hmain b l)

theorem inserted_setPlace {p : Place} (hp : ∀ l, p ≠ .listed l .inserted)
    (hinserted : ∀ b' l, b' ≠ b → g.place b' ≠ .listed l .inserted) (b' : BufferPtr)
    (l : ListenPtr) : update g.place b p b' ≠ .listed l .inserted := by
  rcases eq_or_ne b' b with rfl | hne
  · rw [update_self]
    exact hp l
  · rw [update_of_ne hne]
    exact hinserted b' l hne

theorem getBufferObj_none {buflen : ℕ} {ok : Bool}
    (hget : IocpServer.getBufferObj s buflen ok = (none, s')) : s' = s := by
  unfold IocpServer.getBufferObj at hget
  split at hget
  case h_1 =>
    split at hget
    case isTrue => simp at hget
    case isFalse => exact (Prod.mk.inj hget).2.symm
  case h_2 => simp at hget

theorem Owned.getBufferObj (hown : Owned s g) (hmain : s.main = .getBufferObj r)
    (hstep : advanceMain s cfg ok = some s') : StaysTo s s' := by
  have hnot := hown.not_inserted (by simp [hmain])
  simp only [advanceMain, hmain] at hstep
  split at hstep
  case h_1 b s₁ hget =>
    obtain rfl := Option.some.inj hstep
    obtain ⟨hthread, -, hb, m⟩ := hown.memory.getBufferObj hget
    have hloose : Loose .main (g.place b).holder := by
      rcases hb with hb | hb
      · simp [hb, Place.holder]
      · simp [hb, Place.holder]
    refine hown.onward m hthread (Others.refl.setPlace hloose (by simp [Place.holder])) ?_
      fun b' l hb' => absurd hb' (inserted_setPlace (by simp) (fun b' l _ => hnot b' l) b' l)
    exact (hand_place_iff (by simp)).mpr ⟨update_self _ _ _, rfl⟩
  case h_2 s₁ hget =>
    obtain rfl := Option.some.inj hstep
    obtain rfl := getBufferObj_none hget
    refine hown.onward_skip hown.memory rfl (by simp [hmain]) ?_
    split
    case isTrue => trivial
    case isFalse => trivial

theorem Owned.insert (hown : Owned s g) (hmain : s.main = .insert r b)
    (hstep : advanceMain s cfg ok = some s') : StaysTo s s' := by
  have hnot := hown.not_inserted (by simp [hmain])
  have hat := hown.main.at_pc
  rw [hmain] at hat
  have hb := ((hand_place_iff (by simp)).mp hat).1
  obtain ⟨hthread, -, m⟩ := hown.memory.insertPendingAccept hb r.listenobj
  simp only [advanceMain, hmain, Option.some.injEq] at hstep
  subst hstep
  refine hown.onward m hthread
    (Others.refl.setPlace (by simp [hb, Place.holder]) (by simp [Place.holder])) ?_ ?_
  · exact (hand_place_iff (by simp)).mpr ⟨update_self _ _ _, rfl⟩
  · intro b' l hb'
    change update g.place b _ b' = _ at hb'
    rcases eq_or_ne b' b with rfl | hne
    · exact ⟨r, rfl⟩
    · rw [update_of_ne hne] at hb'
      exact absurd hb' (hnot b' l)

theorem Owned.createSocket (hown : Owned s g) (hmain : s.main = .createSocket r b)
    (hstep : advanceMain s cfg ok = some s') : StaysTo s s' := by
  have hat := hown.main.at_pc
  rw [hmain] at hat
  have hb := ((hand_place_iff (by simp)).mp hat).1
  have hnot : ∀ b' l, b' ≠ b → g.place b' ≠ .listed l .inserted := by
    intro b' l hne hb'
    obtain ⟨r', hr'⟩ := hown.main.inserted b' l hb'
    rw [hmain, MainPc.createSocket.injEq] at hr'
    exact hne hr'.2.symm
  simp only [advanceMain, hmain] at hstep
  split at hstep
  case isTrue =>
    obtain rfl := Option.some.inj hstep
    refine hown.onward (hown.memory.createSocket hb) rfl
      (Others.refl.setPlace (by simp [hb, Place.holder]) (by simp [Place.holder])).setOwner ?_
      fun b' l hb' => absurd hb' (inserted_setPlace (by simp) hnot b' l)
    exact ⟨_, (hand_place_iff (by simp)).mpr ⟨update_self _ _ _, rfl⟩⟩
  case isFalse =>
    obtain rfl := Option.some.inj hstep
    exact hown.onward (hown.memory.createFails hb) rfl
      (Others.refl.setPlace (by simp [hb, Place.holder]) (by simp [Place.holder])) trivial
      fun b' l hb' => absurd hb' (inserted_setPlace (by simp) hnot b' l)

theorem Owned.acceptEx (hown : Owned s g) (hmain : s.main = .acceptEx r b)
    (hstep : advanceMain s cfg ok = some s') : StaysTo s s' := by
  have hnot := hown.not_inserted (by simp [hmain])
  have hat := hown.main.at_pc
  rw [hmain] at hat
  obtain ⟨h, hat⟩ := hat
  have hb := ((hand_place_iff (by simp)).mp hat).1
  have hdescribes := hown.memory.buffers.describes b
  rw [hb] at hdescribes
  simp only [advanceMain, hmain, hdescribes.1] at hstep
  split at hstep
  case h_1 h' _ hh =>
    obtain rfl := Option.some.inj hh
    obtain rfl := Option.some.inj hstep
    exact hown.onward (hown.memory.acceptEx hb _) rfl
      (Others.refl.setPlace (by simp [hb, Place.holder]) (by simp [Place.holder])) trivial
      fun b' l hb' => absurd hb' (inserted_setPlace (by simp) (fun b' l _ => hnot b' l) b' l)
  case h_2 =>
    obtain rfl := Option.some.inj hstep
    exact hown.onward_skip hown.memory rfl (by simp [hmain]) trivial

theorem Owned.advanceMain (hown : Owned s g) (hstep : IocpServer.advanceMain s cfg ok = some s') :
    StaysTo s s' := by
  cases hmain : s.main
  case waiting => simp [IocpServer.advanceMain, hmain] at hstep
  case exited => simp [IocpServer.advanceMain, hmain] at hstep
  case getBufferObj r => exact hown.getBufferObj hmain hstep
  case insert r b => exact hown.insert hmain hstep
  case createSocket r b => exact hown.createSocket hmain hstep
  case acceptEx r b => exact hown.acceptEx hmain hstep
  all_goals simp only [IocpServer.advanceMain, hmain, Option.some.injEq] at hstep
  all_goals try subst hstep
  case exchange l =>
    exact hown.onward_skip (hown.memory.setListener rfl) rfl (by simp [hmain]) trivial
  case reset l limit =>
    exact hown.onward_skip (hown.memory.setListener rfl) rfl (by simp [hmain]) trivial
  case test r =>
    refine hown.onward_skip hown.memory rfl (by simp [hmain]) ?_
    split
    case isTrue => trivial
    case isFalse =>
      unfold Round.finish
      split
      case isTrue => trivial
      case isFalse => trivial
  case count r => exact hown.onward_skip (hown.memory.setListener rfl) rfl (by simp [hmain]) trivial

theorem Owned.closeStale {stale : BufferPtr → Bool} (hown : Owned s g) (hmain : s.main = .waiting)
    (hstep : IocpServer.closeStale stale (s.buffers + 1) (s.listener l).pendingAccepts s =
      some s') : StaysTo s s' := by
  obtain ⟨content, hlists, -⟩ := hown.memory.lists
  have hlength := length_le_buffers hlists hown.memory.buffers.lt (.accepts l)
  obtain ⟨s₁, g', hclose, hthread, hmain', m, hothers, hinserted⟩ :=
    closeStale_spec (f := stale) hown.memory (hlists.chain (.accepts l))
      (fun b hb => (hlists.mem _ _).mp hb) (hown.not_inserted (by simp [hmain]))
      (Nat.lt_succ_of_le hlength)
  have hsame : s₁ = s' := Option.some.inj (hclose.symm.trans hstep)
  subst hsame
  obtain ⟨g'', hown', -⟩ := hown.onward (x := .waiting) m hthread hothers trivial
    fun b l hb => absurd hb (hinserted b l)
  refine ⟨g'', ?_, hthread⟩
  rw [← hmain, ← hmain'] at hown'
  exact hown'

/-! ## Runs -/

theorem Owned.step_main (hown : Owned s g)
    (ha : ∀ t b i result, a ≠ .complete t b i result) (ha' : ∀ t ok, a ≠ .thread t ok)
    (hstep : IocpServer.step cfg s a = some s') : StaysTo s s' := by
  cases a with
  | complete t b i result => exact absurd rfl (ha t b i result)
  | thread t ok => exact absurd rfl (ha' t ok)
  | main ok => exact hown.advanceMain hstep
  | burst l | wake l =>
      simp only [IocpServer.step] at hstep
      split at hstep
      case h_2 => exact nomatch hstep
      case h_1 hmain =>
        split at hstep
        case isFalse => exact nomatch hstep
        case isTrue =>
          obtain rfl := Option.some.inj hstep
          exact hown.onward_skip hown.memory rfl (by simp [hmain]) trivial
  | interval l stale =>
      simp only [IocpServer.step] at hstep
      split at hstep
      case h_2 => exact nomatch hstep
      case h_1 hmain =>
        split at hstep
        case isFalse => exact nomatch hstep
        case isTrue => exact hown.closeStale hmain hstep

theorem Owned.step_complete (hown : Owned s g)
    (haccept : acceptFails s (.complete t b i result) = false)
    (hstep : IocpServer.step cfg s (.complete t b i result) = some s') :
    t < cfg.threads ∧ MovesTo s t s' := by
  simp only [IocpServer.step] at hstep
  split at hstep
  case isFalse => exact nomatch hstep
  case isTrue ht =>
    refine ⟨ht, hown.complete (fun l h len hresult hrequest => ?_) hstep⟩
    simp [acceptFails, hresult, hrequest] at haccept

theorem Owned.step (hown : Owned s g) (haccept : acceptFails s a = false)
    (hclosing : findsClosing s a = false) (hstep : step cfg s a = some s') : ∃ g', Owned s' g' := by
  cases a with
  | complete t b i result =>
      obtain ⟨-, g', hown', -⟩ := hown.step_complete haccept hstep
      exact ⟨g', hown'⟩
  | thread t ok =>
      obtain ⟨g', hown', -⟩ := hown.advance hclosing hstep
      exact ⟨g', hown'⟩
  | _ =>
      obtain ⟨g', hown', -⟩ := hown.step_main (by simp) (by simp) hstep
      exact ⟨g', hown'⟩

/-- At the start nothing has been allocated. -/
def Ghost.start : Ghost where
  place := fun _ => .fresh
  phase := fun _ => .fresh
  owner := fun _ => .fresh

theorem Owned.start (cfg : Config) : Owned (State.start cfg) .start where
  memory :=
    { buffers := ⟨fun _ => rfl, fun _ => trivial, fun b => iff_of_true rfl (Nat.zero_le b)⟩
      sockets := ⟨fun _ => rfl, fun _ => trivial, fun o => iff_of_true rfl (Nat.zero_le o)⟩
      agreed :=
        ⟨fun _ _ _ => iff_of_false nofun nofun, fun _ _ _ => iff_of_false nofun nofun,
          fun _ _ _ => iff_of_false nofun nofun, nofun⟩
      handles :=
        ⟨fun _ => ⟨rfl, rfl⟩, fun _ => rfl, fun h => iff_of_true rfl (Nat.eq_zero_or_pos h), nofun⟩
      lists := by
        refine ⟨fun _ => [], ⟨fun i => ?_, fun i b => iff_of_false nofun nofun⟩, rfl⟩
        cases i <;> rfl
      freeSockets := ⟨⟨[], rfl, fun o => iff_of_false nofun nofun⟩, fun _ huse => huse.elim,
        fun _ _ => rfl⟩ }
  threads := ⟨fun _ => trivial, nofun⟩
  main := by
    refine ⟨?_, nofun⟩
    change Hand.AtMain _ (if 0 < cfg.listeners then _ else _)
    split
    case isTrue => trivial
    case isFalse => trivial

/-- In a run without failed accepts, in which no closing test finds `bClosing` set by
another thread, every object has one owner. -/
theorem owned_of_run {as : List Action} (hrun : Runs.RunsTo (IocpServer.step cfg)
      (fun s a => acceptFails s a = false ∧ findsClosing s a = false) (State.start cfg) as s) :
    ∃ g, Owned s g :=
  hrun.invariant (fun s => ∃ g, Owned s g) ⟨.start, .start cfg⟩
    fun _ _ _ ⟨_, hown⟩ hok hstep => hown.step hok.1 hok.2 hstep

end MiscProjects.IocpServer
