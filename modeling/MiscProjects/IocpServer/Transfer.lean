import MiscProjects.IocpServer.Ownership

/-!
# Passing objects on

What a change of one object, and of its place, phase or owner, keeps of each part
of the invariant.  A thread changes what it holds itself or what nobody holds, so
that what the others have in hand stays as it is.
-/

namespace MiscProjects.IocpServer

open Function (update update_self update_of_ne update_eq_self)
open SinglyLinked Pairing

def Ghost.setPlace (g : Ghost) (b : BufferPtr) (p : Place) : Ghost :=
  { g with place := update g.place b p }

def Ghost.setPhase (g : Ghost) (o : SocketPtr) (q : Phase) : Ghost :=
  { g with phase := update g.phase o q }

def Ghost.setOwner (g : Ghost) (h : ℕ) (w : Owner) : Ghost :=
  { g with owner := update g.owner h w }

theorem Ghost.setOwner_self (g : Ghost) (h : ℕ) : g.setOwner h (g.owner h) = g := by
  rw [Ghost.setOwner, update_eq_self]

/-! ## Hands -/

section Hands
variable {α δ : Type*} {a : α} {d : δ} {f : α → δ} {holder : δ → Option Holder} {seen : δ → δ}
  {g g' g'' : Ghost} {v w w' : Holder} {t : ThreadId} {b : BufferPtr} {o : SocketPtr} {p : Place}
  {q : Phase} {data : List UInt8} {h : ℕ} {thread : ThreadId → Pc}

theorem inHand_eq_some_iff :
    inHand holder seen f w a = some d ↔ seen (f a) = d ∧ holder (f a) = some w := by
  unfold inHand
  split
  case isTrue hholder => simp [hholder]
  case isFalse hholder => simp [hholder]

theorem hand_phase_iff : (g.hand w).phase o = some q ↔ g.phase o = q ∧ q.holder = some w := by
  rw [Ghost.hand, inHand_eq_some_iff]
  refine and_congr_right fun h => ?_
  rw [← show g.phase o = q from h]

theorem hand_place_iff (hp : ∀ l t c data, p ≠ .listed l (.done t c data)) :
    (g.hand w).place b = some p ↔ g.place b = p ∧ p.holder = some w := by
  rw [Ghost.hand, inHand_eq_some_iff]
  have hseen : (g.place b).seen = p ↔ g.place b = p := by
    cases g.place b with
    | listed l x =>
        cases x with
        | done t c data =>
            exact iff_of_false (fun h => hp _ _ _ _ h.symm) (fun h => hp _ _ _ _ h.symm)
        | _ => exact Iff.rfl
    | _ => exact Iff.rfl
  rw [hseen]
  refine and_congr_right fun h => ?_
  rw [h]

theorem hand_done_iff {l : ListenPtr} :
    (g.hand (.thread t)).place b = some (.listed l (.done t none data)) ↔
      ∃ c, g.place b = .listed l (.done t c data) := by
  rw [Ghost.hand, inHand_eq_some_iff]
  constructor
  · rintro ⟨hseen, -⟩
    cases hb : g.place b with
    | listed l' x =>
        rw [hb] at hseen
        cases x with
        | done t' c data' =>
            simp only [Place.seen, Place.listed.injEq, Await.done.injEq, true_and] at hseen
            obtain ⟨rfl, rfl, rfl⟩ := hseen
            exact ⟨c, rfl⟩
        | inserted | idle c | inFlight h len c => simp [Place.seen] at hseen
    | _ => simp [hb, Place.seen] at hseen
  · rintro ⟨c, hb⟩
    rw [hb]
    exact ⟨rfl, rfl⟩

theorem hand_held_iff :
    (g.hand (.thread t)).place b = some (.held t data) ↔ g.place b = .held t data := by
  rw [hand_place_iff (by simp)]
  exact and_iff_left rfl

theorem hand_live_iff {u : List (List UInt8)} {c : Counts} :
    (g.hand (.thread t)).phase o = some (.live (.thread t) h u c) ↔
      g.phase o = .live (.thread t) h u c := by
  rw [hand_phase_iff]
  exact and_iff_left rfl

/-- Nobody but `w` has the thing. -/
def Loose (w : Holder) (holder : Option Holder) : Prop :=
  ∀ w', holder = some w' → w' = w

@[simp]
theorem loose_none : Loose w none := nofun

@[simp]
theorem loose_some : Loose w (some w') ↔ w' = w := by
  simp [Loose]

theorem inHand_update [DecidableEq α] (hold : Loose w (holder (f a))) (hnew : Loose w (holder d))
    (hw : w' ≠ w) : inHand holder seen (update f a d) w' = inHand holder seen f w' := by
  funext a'
  unfold inHand
  rcases eq_or_ne a' a with rfl | hne
  · have hold' : ¬ holder (f a') = some w' := fun h => hw (hold _ h)
    have hnew' : ¬ holder d = some w' := fun h => hw (hnew _ h)
    rw [update_self, if_neg hold', if_neg hnew']
  · rw [update_of_ne hne]

theorem inHand_update_seen [DecidableEq α] (hholder : holder d = holder (f a))
    (hseen : holder d = some w → seen d = seen (f a)) :
    inHand holder seen (update f a d) w = inHand holder seen f w := by
  funext a'
  unfold inHand
  rcases eq_or_ne a' a with rfl | hne
  · rw [update_self]
    by_cases hd : holder d = some w
    · rw [if_pos hd, if_pos (hholder ▸ hd), hseen hd]
    · rw [if_neg hd, if_neg (hholder ▸ hd)]
  · rw [update_of_ne hne]

/-- What the others have in hand has not changed. -/
def Others (w : Holder) (g g' : Ghost) : Prop :=
  ∀ w', w' ≠ w → g'.hand w' = g.hand w'

theorem Others.refl : Others w g g := fun _ _ => rfl

theorem Others.trans (h : Others w g g') (h' : Others w g' g'') : Others w g g'' :=
  fun w' hw => (h' w' hw).trans (h w' hw)

theorem Others.setOwner (hs : Others w g g') {x : Owner} : Others w g (g'.setOwner h x) := hs

theorem Others.setPlace (hs : Others w g g') (hold : Loose w (g'.place b).holder)
    (hnew : Loose w p.holder) : Others w g (g'.setPlace b p) := by
  refine hs.trans fun w' hw => ?_
  rw [Ghost.hand, Ghost.hand, Ghost.setPlace]
  exact congrArg₂ Hand.mk (inHand_update hold hnew hw) rfl

theorem Others.setSeen (hs : Others w g g') (hholder : p.holder = (g'.place b).holder)
    (hseen : ∀ w', w' ≠ w → p.holder = some w' → p.seen = (g'.place b).seen) :
    Others w g (g'.setPlace b p) := by
  refine hs.trans fun w' hw => ?_
  rw [Ghost.hand, Ghost.hand, Ghost.setPlace]
  exact congrArg₂ Hand.mk (inHand_update_seen hholder (hseen w' hw)) rfl

theorem Others.setPhase (hs : Others w g g') (hold : Loose w (g'.phase o).holder)
    (hnew : Loose w q.holder) : Others w g (g'.setPhase o q) := by
  refine hs.trans fun w' hw => ?_
  rw [Ghost.hand, Ghost.hand, Ghost.setPhase]
  exact congrArg₂ Hand.mk rfl (inHand_update hold hnew hw)

theorem Others.place_eq (hs : Others w g g') (hw : v ≠ w)
    (hp : ∀ l t c data, g'.place b ≠ .listed l (.done t c data))
    (hholder : (g'.place b).holder = some v) : g.place b = g'.place b := by
  have hhand : (g'.hand v).place b = some (g'.place b) := (hand_place_iff hp).mpr ⟨rfl, hholder⟩
  rw [hs v hw] at hhand
  exact ((hand_place_iff hp).mp hhand).1

theorem Others.phase_eq (hs : Others w g g') (hw : v ≠ w)
    (hq : (g'.phase o).holder = some v) : g.phase o = g'.phase o := by
  have hhand : (g'.hand v).phase o = some (g'.phase o) := hand_phase_iff.mpr ⟨rfl, hq⟩
  rw [hs v hw] at hhand
  exact (hand_phase_iff.mp hhand).1

theorem Phase.holder_of_closer (hq : q.closer = some t) : q.holder = some (.thread t) := by
  cases q with
  | fresh | free | taken | invalid => exact nomatch hq
  | live w h u c =>
      cases w with
      | buffer b => exact nomatch hq
      | thread t' =>
          simp only [Phase.closer, Option.ite_none_right_eq_some, Option.some.injEq] at hq
          simp [Phase.holder, hq.2]
  | shut t' =>
      obtain rfl := Option.some.inj hq
      rfl

theorem ThreadsOk.step {pc : Pc} (h : ThreadsOk thread g)
    (hs : Others (.thread t) g g') (hpc : (g'.hand (.thread t)).At t pc)
    (hcleans : ∀ o, (g'.phase o).closer = some t → pc.cleans = some o) :
    ThreadsOk (update thread t pc) g' where
  at_pc := by
    intro t'
    rcases eq_or_ne t' t with rfl | hne
    · rw [update_self]
      exact hpc
    · rw [update_of_ne hne, hs _ (by simpa using hne)]
      exact h.at_pc t'
  cleans := by
    intro o t' hcloser
    rcases eq_or_ne t' t with rfl | hne
    · rw [update_self]
      exact hcleans o hcloser
    · rw [update_of_ne hne]
      apply h.cleans
      rw [hs.phase_eq (by simpa using hne) (Phase.holder_of_closer hcloser)]
      exact hcloser

theorem ThreadsOk.of_main (h : ThreadsOk thread g)
    (hs : Others .main g g') : ThreadsOk thread g' where
  at_pc := by
    intro t
    rw [hs (.thread t) nofun]
    exact h.at_pc t
  cleans := by
    intro o t hcloser
    apply h.cleans
    rw [hs.phase_eq (v := .thread t) nofun (Phase.holder_of_closer hcloser)]
    exact hcloser

theorem MainOk.of_thread {main : MainPc} (h : MainOk main g) (hs : Others (.thread t) g g') :
    MainOk main g' where
  at_pc := by
    rw [hs .main nofun]
    exact h.at_pc
  inserted := by
    intro b l hb
    apply h.inserted b l
    rw [hs.place_eq (v := .main) nofun (by simp [hb]) (by rw [hb]; rfl)]
    exact hb

end Hands

/-! ## Buffers -/

section Buffers
variable {requests : BufferPtr → List Request} {buffer : BufferPtr → BufferObj} {buffers : ℕ}
  {place : BufferPtr → Place} {b : BufferPtr} {p : Place} {e : BufferObj}

variable {r : List Request} {next : Option BufferPtr}

theorem BuffersOk.get (h : BuffersOk requests buffer buffers place) {n : ℕ} (hrs : r = p.requests)
    (hobj : p.Describes e) (hnew : p ≠ .fresh) (hbuffers : ∀ b', b' ≠ b → (n ≤ b' ↔ buffers ≤ b'))
    (hb : b < n) : BuffersOk (update requests b r) (update buffer b e) n (update place b p) where
  requests := by
    intro b'
    rcases eq_or_ne b' b with rfl | hne
    · simpa using hrs
    · simpa [hne] using h.requests b'
  describes := by
    intro b'
    rcases eq_or_ne b' b with rfl | hne
    · simpa using hobj
    · simpa [hne] using h.describes b'
  fresh := by
    intro b'
    rcases eq_or_ne b' b with rfl | hne
    · simpa [hnew] using hb
    · rw [update_of_ne hne, h.fresh, hbuffers b' hne]

theorem BuffersOk.set (h : BuffersOk requests buffer buffers place) (hrs : r = p.requests)
    (hobj : p.Describes e) (hold : place b ≠ .fresh) (hnew : p ≠ .fresh) :
    BuffersOk (update requests b r) (update buffer b e) buffers (update place b p) :=
  h.get hrs hobj hnew (fun _ _ => Iff.rfl) (Nat.lt_of_not_le (mt (h.fresh b).mpr hold))

theorem BuffersOk.put (h : BuffersOk requests buffer buffers place)
    (hrs : (place b).requests = p.requests) (hobj : p.Describes e) (hold : place b ≠ .fresh)
    (hnew : p ≠ .fresh) : BuffersOk requests (update buffer b e) buffers (update place b p) := by
  have hset := h.set ((h.requests b).trans hrs) hobj hold hnew
  rwa [update_eq_self] at hset

theorem BuffersOk.move (h : BuffersOk requests buffer buffers place)
    (hrs : (place b).requests = p.requests) (hobj : p.Describes (buffer b))
    (hold : place b ≠ .fresh) (hnew : p ≠ .fresh) :
    BuffersOk requests buffer buffers (update place b p) := by
  have hput := h.put hrs hobj hold hnew
  rwa [update_eq_self] at hput

theorem BuffersOk.stay (h : BuffersOk requests buffer buffers place) (hobj : (place b).Describes e)
    (hold : place b ≠ .fresh) : BuffersOk requests (update buffer b e) buffers place := by
  have hput := h.put rfl hobj hold hold
  rwa [update_eq_self] at hput

theorem Place.describes_next : p.Describes { e with next := next } ↔ p.Describes e := by
  cases p with
  | listed l w => cases w <;> exact Iff.rfl
  | _ => exact Iff.rfl

theorem BuffersOk.setNext (h : BuffersOk requests buffer buffers place) :
    BuffersOk requests (update buffer b { buffer b with next := next }) buffers place where
  requests := h.requests
  describes := by
    intro b'
    rcases eq_or_ne b' b with rfl | hne
    · rw [update_self, Place.describes_next]
      exact h.describes b'
    · rw [update_of_ne hne]
      exact h.describes b'
  fresh := h.fresh

theorem BuffersOk.lt (h : BuffersOk requests buffer buffers place) (b : BufferPtr)
    (hlist : (place b).list ≠ none) : b < buffers := by
  refine Nat.lt_of_not_le fun hle => hlist ?_
  rw [(h.fresh b).mpr hle]
  rfl

end Buffers

/-! ## `SOCKET_OBJ`s -/

section Sockets
variable {socket : SocketPtr → SocketObj} {key : ℕ → Option SocketPtr} {sockets : ℕ}
  {phase : SocketPtr → Phase} {o : SocketPtr} {q : Phase} {v : SocketObj}

theorem SocketsOk.get (h : SocketsOk socket key sockets phase) {sockets' : ℕ}
    (hso : q.Describes v) (hkey : q.Keyed key o) (hnew : q ≠ .fresh)
    (hsockets : ∀ o', o' ≠ o → (sockets' ≤ o' ↔ sockets ≤ o')) (ho : o < sockets') :
    SocketsOk (update socket o v) key sockets' (update phase o q) where
  describes := by
    intro o'
    rcases eq_or_ne o' o with rfl | hne
    · simpa using hso
    · simpa [hne] using h.describes o'
  keyed := by
    intro o'
    rcases eq_or_ne o' o with rfl | hne
    · simpa using hkey
    · simpa [hne] using h.keyed o'
  fresh := by
    intro o'
    rcases eq_or_ne o' o with rfl | hne
    · simpa [hnew] using ho
    · rw [update_of_ne hne, h.fresh, hsockets o' hne]

theorem SocketsOk.set (h : SocketsOk socket key sockets phase) (hso : q.Describes v)
    (hkey : q.Keyed key o) (hold : phase o ≠ .fresh) (hnew : q ≠ .fresh) :
    SocketsOk (update socket o v) key sockets (update phase o q) :=
  h.get hso hkey hnew (fun _ _ => Iff.rfl) (Nat.lt_of_not_le (mt (h.fresh o).mpr hold))

theorem SocketsOk.move (h : SocketsOk socket key sockets phase) (hso : q.Describes (socket o))
    (hkey : q.Keyed key o) (hold : phase o ≠ .fresh) (hnew : q ≠ .fresh) :
    SocketsOk socket key sockets (update phase o q) := by
  have hset := h.set hso hkey hold hnew
  rwa [update_eq_self] at hset

theorem SocketsOk.associate (h : SocketsOk socket key sockets phase) {k : ℕ}
    {unsent : List (List UInt8)} {t : ThreadId} (hq : phase o = .taken t k unsent)
    (hk : ∀ o' w u c, phase o' = .live w k u c → o' = o) :
    SocketsOk socket (update key k (some o)) sockets
      (update phase o (.live (.thread t) k unsent .zero)) where
  describes := by
    intro o'
    rcases eq_or_ne o' o with rfl | hne
    · have hdescribes := h.describes o'
      rw [hq] at hdescribes
      rw [update_self]
      exact hdescribes
    · rw [update_of_ne hne]
      exact h.describes o'
  keyed := by
    intro o'
    rcases eq_or_ne o' o with rfl | hne
    · rw [update_self]
      exact update_self _ _ _
    · rw [update_of_ne hne]
      have hkeyed := h.keyed o'
      cases hq' : phase o' with
      | live w k' u c =>
          rw [hq'] at hkeyed
          have hk' : k' ≠ k := by
            rintro rfl
            exact hne (hk o' w u c hq')
          exact (update_of_ne hk' _ _).trans hkeyed
      | _ => trivial
  fresh := by
    intro o'
    rcases eq_or_ne o' o with rfl | hne
    · rw [update_self, ← h.fresh, hq]
      exact iff_of_false nofun nofun
    · rw [update_of_ne hne]
      exact h.fresh o'

end Sockets

section FreeSockets
variable {socket : SocketPtr → SocketObj} {head : Option SocketPtr} {gets frees : SocketPtr → ℕ}
  {phase : SocketPtr → Phase} {o : SocketPtr} {q : Phase} {v : SocketObj}

theorem FreeSocketsOk.set (h : FreeSocketsOk socket head gets frees phase)
    (hnext : v.next = (socket o).next) (hold : (phase o).InUse) (hnew : q.InUse) :
    FreeSocketsOk (update socket o v) head gets frees (update phase o q) where
  chain := by
    obtain ⟨free, hchain, hmem⟩ := h.chain
    refine ⟨free, ?_, fun o' => ?_⟩
    · rw [comp_update_eq hnext]
      exact hchain
    · rw [hmem]
      rcases eq_or_ne o' o with rfl | hne
      · rw [update_self]
        refine iff_of_false (fun hfree => ?_) (fun hfree => ?_)
        · rw [hfree] at hold
          exact hold
        · rw [hfree] at hnew
          exact hnew
      · rw [update_of_ne hne]
  inUse := by
    intro o' huse
    rcases eq_or_ne o' o with rfl | hne
    · exact h.inUse o' hold
    · rw [update_of_ne hne] at huse
      exact h.inUse o' huse
  notInUse := by
    intro o' huse
    rcases eq_or_ne o' o with rfl | hne
    · rw [update_self] at huse
      exact absurd hnew huse
    · rw [update_of_ne hne] at huse
      exact h.notInUse o' huse

theorem FreeSocketsOk.move (h : FreeSocketsOk socket head gets frees phase) (hold : (phase o).InUse)
    (hnew : q.InUse) : FreeSocketsOk socket head gets frees (update phase o q) := by
  have hset := h.set (v := socket o) rfl hold hnew
  rwa [update_eq_self] at hset

theorem FreeSocketsOk.get (h : FreeSocketsOk socket head gets frees phase)
    {head' : Option SocketPtr} (hold : ¬ (phase o).InUse) (hnew : q.InUse)
    (hchain : ∃ free, Chain (SocketObj.next ∘ socket) head' free ∧
      ∀ o', o' ∈ free ↔ phase o' = .free ∧ o' ≠ o) :
    FreeSocketsOk (update socket o v) head' (update gets o (gets o + 1)) frees
      (update phase o q) where
  chain := by
    obtain ⟨free, hfree, hmem⟩ := hchain
    refine ⟨free, ?_, fun o' => ?_⟩
    · rw [Function.comp_update]
      refine hfree.congr fun o' ho' => update_of_ne ((hmem o').mp ho').2 _ _
    · rw [hmem]
      rcases eq_or_ne o' o with rfl | hne
      · rw [update_self]
        refine iff_of_false (fun h => h.2 rfl) ?_
        rintro rfl
        exact hnew
      · rw [update_of_ne hne]
        exact and_iff_left hne
  inUse := by
    intro o' huse
    rcases eq_or_ne o' o with rfl | hne
    · rw [update_self, h.notInUse o' hold]
    · rw [update_of_ne hne] at huse ⊢
      exact h.inUse o' huse
  notInUse := by
    intro o' huse
    rcases eq_or_ne o' o with rfl | hne
    · rw [update_self] at huse
      exact absurd hnew huse
    · rw [update_of_ne hne] at huse ⊢
      exact h.notInUse o' huse

end FreeSockets

/-! ## Lists -/

section ListsOfBuffers
variable {buffer : BufferPtr → BufferObj} {heads : ListId → Option BufferPtr}
  {last : Option BufferPtr} {place : BufferPtr → Place} {b : BufferPtr} {p : Place}
  {e : BufferObj}

theorem ListsOk.put (h : ListsOk buffer heads last place) (hnext : e.next = (buffer b).next)
    (hlist : p.list = (place b).list) :
    ListsOk (update buffer b e) heads last (update place b p) := by
  unfold ListsOk
  rw [comp_update_eq hnext, comp_update_eq hlist]
  exact h

theorem ListsOk.move (h : ListsOk buffer heads last place) (hlist : p.list = (place b).list) :
    ListsOk buffer heads last (update place b p) := by
  have hput := h.put (e := buffer b) rfl hlist
  rwa [update_eq_self] at hput

theorem ListsOk.stay (h : ListsOk buffer heads last place) (hnext : e.next = (buffer b).next) :
    ListsOk (update buffer b e) heads last place := by
  have hput := h.put (p := place b) hnext rfl
  rwa [update_eq_self] at hput

variable {k : ListId → Option BufferPtr} {i : ListId}

theorem ListsOk.loose (h : ListsOk buffer heads last place) (hlist : (place b).list = none) :
    ListsOk (update buffer b e) heads last place := by
  obtain ⟨content, hlists, hlast⟩ := h
  refine ⟨content, ?_, hlast⟩
  rw [Function.comp_update]
  exact hlists.setNext hlist

theorem ListsOk.push (h : ListsOk buffer heads last place) (hlist : (place b).list = none)
    (hp : p.list = some i) (hi : i ≠ .pending) (hnext : e.next = heads i)
    (hheads : k = update heads i (some b)) :
    ListsOk (update buffer b e) k last (update place b p) := by
  obtain ⟨content, hlists, hlast⟩ := h
  refine ⟨update content i (b :: content i), ?_, ?_⟩
  · rw [Function.comp_update, Function.comp_update, hnext, hp, hheads]
    exact hlists.push hlist i
  · rw [update_of_ne hi.symm]
    exact hlast

theorem ListsOk.pop (h : ListsOk buffer heads last place) (hhead : heads i = some b)
    (hi : i ≠ .pending) : (place b).list = some i ∧ ∀ p : Place, p.list = none →
      ListsOk buffer (update heads i (buffer b).next) last (update place b p) := by
  obtain ⟨content, hlists, hlast⟩ := h
  obtain ⟨rest, hcontent, hloc, hpop⟩ := hlists.pop hhead
  refine ⟨hloc, fun p hp => ⟨update content i rest, ?_, ?_⟩⟩
  · rw [Function.comp_update, hp]
    exact hpop
  · rw [update_of_ne hi.symm]
    exact hlast

theorem ListsOk.dequeue (h : ListsOk buffer heads last place) (hhead : heads .pending = some b) :
    (place b).list = some .pending ∧ ∀ p : Place, p.list = none →
      ListsOk buffer (update heads .pending (buffer b).next)
        (if (buffer b).next = none then none else last) (update place b p) := by
  obtain ⟨content, hlists, hlast⟩ := h
  obtain ⟨rest, hcontent, hloc, hpop⟩ := hlists.pop hhead
  refine ⟨hloc, fun p hp => ⟨update content .pending rest, ?_, ?_⟩⟩
  · rw [Function.comp_update, hp]
    exact hpop
  · have hrest := (hpop.chain .pending).head?_eq
    rw [update_self, update_self] at hrest
    rw [update_self, hlast, hcontent]
    change rest.head? = (buffer b).next at hrest
    rw [← hrest]
    cases rest with
    | nil => rfl
    | cons b' rest => simp [List.getLast?_cons_cons]

theorem ListsOk.enqueue (h : ListsOk buffer heads last place) (hlist : (place b).list = none)
    (hp : p.list = some .pending) (hnext : e.next = none) : (∀ b', last = some b' → ListsOk
        (update (update buffer b e) b'
          { update buffer b e b' with next := some b }) heads (some b) (update place b p)) ∧
    (last = none → ListsOk (update buffer b e) (update heads .pending (some b)) (some b)
        (update place b p)) := by
  obtain ⟨content, hlists, hlast⟩ := h
  refine ⟨fun b' hb' => ?_, fun hnone => ?_⟩
  · obtain ⟨front, hconcat⟩ := List.getLast?_eq_some_iff.mp (hlast.symm.trans hb')
    refine ⟨update content .pending (content .pending ++ [b]), ?_, ?_⟩
    · rw [Function.comp_update, Function.comp_update, Function.comp_update, hnext, hp]
      exact hlists.append_concat hlist hconcat
    · rw [update_self, List.getLast?_concat]
  · have hnil := List.getLast?_eq_none_iff.mp (hlast.symm.trans hnone)
    refine ⟨update content .pending [b], ?_, ?_⟩
    · rw [Function.comp_update, Function.comp_update, hnext, hp]
      exact hlists.append_nil hlist hnil
    · rw [update_self]
      rfl

theorem length_le_buffers {buffers : ℕ} {next : BufferPtr → Option BufferPtr}
    {content : ListId → List BufferPtr} (h : Lists next heads (Place.list ∘ place) content)
    (hfew : ∀ b, (place b).list ≠ none → b < buffers) (i : ListId) :
    (content i).length ≤ buffers := by
  have hsub : content i ⊆ List.range buffers := by
    intro b hb
    refine List.mem_range.mpr (hfew b ?_)
    rw [show (place b).list = some i from (h.mem _ _).mp hb]
    exact nofun
  simpa using (h.nodup i).length_le_of_subset hsub

theorem ListsOk.remove {l : ListenPtr} {buffers : ℕ} (h : ListsOk buffer heads last place)
    (hlist : (place b).list = some (.accepts l)) (hp : p.list = none)
    (hfew : ∀ b, (place b).list ≠ none → b < buffers) :
    ∃ prev, search (BufferObj.next ∘ buffer) b (buffers + 1) none (heads (.accepts l)) = some prev ∧
      (∀ b', prev = some b' →
        ListsOk (update buffer b' { buffer b' with next := (buffer b).next }) heads last
          (update place b p)) ∧ (prev = none →
        ListsOk buffer (update heads (.accepts l) (buffer b).next) last (update place b p)) := by
  obtain ⟨content, hlists, hlast⟩ := h
  have hmem : b ∈ content (.accepts l) := (hlists.mem _ _).mpr hlist
  obtain ⟨front, back, hcontent⟩ := List.append_of_mem hmem
  have hlength := length_le_buffers hlists hfew (.accepts l)
  have hfuel : front.length < buffers + 1 := by
    rw [hcontent, List.length_append, List.length_cons] at hlength
    omega
  have hchain := hlists.chain (.accepts l)
  rw [hcontent] at hchain
  refine ⟨_, hchain.search_eq hfuel, fun b' hb' => ?_, fun hnone => ?_⟩
  · rw [Option.or_none] at hb'
    obtain ⟨front', rfl⟩ := List.getLast?_eq_some_iff.mp hb'
    rw [List.append_assoc] at hcontent
    refine ⟨update content (.accepts l) (front' ++ b' :: back), ?_, ?_⟩
    · rw [Function.comp_update, Function.comp_update, hp]
      exact hlists.unlink hcontent
    · rw [update_of_ne (show ListId.pending ≠ .accepts l from nofun)]
      exact hlast
  · rw [Option.or_none, List.getLast?_eq_none_iff] at hnone
    subst hnone
    obtain ⟨rest, hrest, -, hpop⟩ := hlists.pop (a := b) (i := .accepts l) hchain.1
    refine ⟨update content (.accepts l) rest, ?_, ?_⟩
    · rw [Function.comp_update, hp]
      exact hpop
    · rw [update_of_ne (show ListId.pending ≠ .accepts l from nofun)]
      exact hlast

end ListsOfBuffers

/-! ## Agreement -/

section Agreement
variable {g : Ghost} {b : BufferPtr} {o : SocketPtr} {p : Place} {q : Phase}

theorem Agreed.stale_setPlace (h : Agreed g) {owner : ℕ → Owner}
    (hp : ∀ l k len, p = .listed l (.inFlight k len none) → owner k = .gone)
    (howner : ∀ k, g.owner k = .gone → owner k = .gone) :
    ∀ b' l k len, update g.place b p b' = .listed l (.inFlight k len none) → owner k = .gone := by
  intro b' l k len hb'
  rcases eq_or_ne b' b with rfl | hne
  · rw [update_self] at hb'
    exact hp l k len hb'
  · rw [update_of_ne hne] at hb'
    exact howner k (h.stale b' l k len hb')

variable {k : ℕ} {w : Owner} {c : Counts} {u : List (List UInt8)}

theorem gone_update (hk : g.owner k = .gone → w = .gone) :
    ∀ k', g.owner k' = .gone → update g.owner k w k' = .gone := by
  intro k' hgone
  rcases eq_or_ne k' k with rfl | hne
  · rw [update_self]
    exact hk hgone
  · rwa [update_of_ne hne]

theorem Agreed.setPlace (h : Agreed g) (hclient : p.client = (g.place b).client)
    (hwork : p.work = (g.place b).work) (hp : ∀ l h len, p ≠ .listed l (.inFlight h len none)) :
    Agreed (g.setPlace b p) where
  client := by
    change Paired (Place.client ∘ update g.place b p) _
    rw [comp_update_eq hclient]
    exact h.client
  link := h.link
  work := by
    change Paired (Place.work ∘ update g.place b p) _
    rw [comp_update_eq hwork]
    exact h.work
  stale := h.stale_setPlace (fun l k len hp' => absurd hp' (hp l k len)) fun _ hgone => hgone

theorem Agreed.setPhase (h : Agreed g) (hlink : q.link = (g.phase o).link)
    (hwork : q.work = (g.phase o).work) : Agreed (g.setPhase o q) where
  client := h.client
  link := by
    change Paired (Phase.link ∘ update g.phase o q) _
    rw [comp_update_eq hlink]
    exact h.link
  work := by
    change Paired _ (Phase.work ∘ update g.phase o q)
    rw [comp_update_eq hwork]
    exact h.work
  stale := h.stale

theorem Agreed.owner_of_link (h : Agreed g)
    (hlink : (g.phase o).link = some (k, u)) : g.owner k = .socket o u := by
  have howner := (h.link o k u).mp hlink
  change (g.owner k).link = some (o, u) at howner
  cases hk : g.owner k with
  | socket o' u' =>
      rw [hk] at howner
      simpa [Owner.link] using howner
  | _ =>
      rw [hk] at howner
      exact nomatch howner

theorem Agreed.owner_of_client (h : Agreed g)
    (hclient : (g.place b).client = some (k, u)) : g.owner k = .buffer b u := by
  have howner := (h.client b k u).mp hclient
  change (g.owner k).client = some (b, u) at howner
  cases hk : g.owner k with
  | buffer b' u' =>
      rw [hk] at howner
      simpa [Owner.client] using howner
  | _ =>
      rw [hk] at howner
      exact nomatch howner

theorem Agreed.phase_of_work (h : Agreed g) (hwork : (g.place b).work = some (o, k, u, c)) :
    g.phase o = .live (.buffer b) k u c := by
  have hphase := (h.work b o (k, u, c)).mp hwork
  change (g.phase o).work = some (b, k, u, c) at hphase
  cases hq : g.phase o with
  | live w h' u' c' =>
      rw [hq] at hphase
      cases w with
      | thread t => exact nomatch hphase
      | buffer b' =>
          simp only [Phase.work, Option.some.injEq, Prod.mk.injEq] at hphase
          obtain ⟨rfl, rfl, rfl, rfl⟩ := hphase
          rfl
  | shut t =>
      rw [hq] at hphase
      exact nomatch hphase
  | _ =>
      rw [hq] at hphase
      exact nomatch hphase

/-- What a connection has received is sent, or more is received, or its socket is
closed: the owner has the same data as the phase. -/
theorem Agreed.relink (h : Agreed g) (x : Option (List (List UInt8)))
    (hlink : (g.phase o).link = some (k, u)) (hq : q.link = x.map (k, ·))
    (hwork : q.work = (g.phase o).work) (hw : w.link = x.map (o, ·)) (hclient : w.client = none) :
    Agreed ((g.setPhase o q).setOwner k w) where
  client := by
    change Paired _ (Owner.client ∘ update g.owner k w)
    rw [comp_update_eq (by rw [hclient, h.owner_of_link hlink]; rfl)]
    exact h.client
  link := by
    change Paired (Phase.link ∘ update g.phase o q) (Owner.link ∘ update g.owner k w)
    rw [Function.comp_update, Function.comp_update, hq, hw]
    exact h.link.reset x hlink
  work := by
    change Paired _ (Phase.work ∘ update g.phase o q)
    rw [comp_update_eq hwork]
    exact h.work
  stale := by
    intro b l k' len hb
    refine gone_update (g := g) (fun hgone => ?_) k' (h.stale b l k' len hb)
    rw [h.owner_of_link hlink] at hgone
    exact nomatch hgone

theorem Agreed.reclient (h : Agreed g) (x : Option (List (List UInt8)))
    (hclient : (g.place b).client = some (k, u)) (hp : p.client = x.map (k, ·))
    (hwork : p.work = (g.place b).work) (hw : w.client = x.map (b, ·)) (hlink : w.link = none)
    (hstale : ∀ l k' len, p = .listed l (.inFlight k' len none) → k' = k ∧ w = .gone) :
    Agreed ((g.setPlace b p).setOwner k w) where
  client := by
    change Paired (Place.client ∘ update g.place b p) (Owner.client ∘ update g.owner k w)
    rw [Function.comp_update, Function.comp_update, hp, hw]
    exact h.client.reset x hclient
  link := by
    change Paired _ (Owner.link ∘ update g.owner k w)
    rw [comp_update_eq (by rw [hlink, h.owner_of_client hclient]; rfl)]
    exact h.link
  work := by
    change Paired (Place.work ∘ update g.place b p) _
    rw [comp_update_eq hwork]
    exact h.work
  stale := by
    refine h.stale_setPlace (fun l k' len hp' => ?_) (gone_update fun hgone => ?_)
    · obtain ⟨rfl, rfl⟩ := hstale l k' len hp'
      exact update_self _ _ _
    · rw [h.owner_of_client hclient] at hgone
      exact nomatch hgone

theorem Agreed.connect (h : Agreed g) (hclient : (g.place b).client = some (k, u))
    (hp : p.client = none) (hpwork : p.work = (g.place b).work) (hphase : (g.phase o).link = none)
    (hq : q.link = some (k, u)) (hqwork : q.work = (g.phase o).work)
    (hlisted : ∀ l w, p ≠ .listed l w) :
    Agreed (((g.setPlace b p).setPhase o q).setOwner k (.socket o u)) where
  client := by
    change Paired (Place.client ∘ update g.place b p) (Owner.client ∘ update g.owner k _)
    rw [Function.comp_update, Function.comp_update, hp]
    exact h.client.untie hclient
  link := by
    change Paired (Phase.link ∘ update g.phase o q) (Owner.link ∘ update g.owner k _)
    rw [Function.comp_update, Function.comp_update, hq]
    refine h.link.tie u hphase ?_
    rw [Function.comp_apply, h.owner_of_client hclient]
    rfl
  work := by
    change Paired (Place.work ∘ update g.place b p) (Phase.work ∘ update g.phase o q)
    rw [comp_update_eq hpwork, comp_update_eq hqwork]
    exact h.work
  stale := by
    refine h.stale_setPlace (fun l k' len hp' => absurd hp' (hlisted l _))
      (gone_update fun hgone => ?_)
    rw [h.owner_of_client hclient] at hgone
    exact nomatch hgone

theorem Agreed.create (h : Agreed g) (hk : g.owner k = .fresh) (hclient : (g.place b).client = none)
    (hp : p.client = some (k, u)) (hwork : p.work = (g.place b).work)
    (hstale : ∀ l k' len, p ≠ .listed l (.inFlight k' len none)) :
    Agreed ((g.setPlace b p).setOwner k (.buffer b u)) where
  client := by
    change Paired (Place.client ∘ update g.place b p) (Owner.client ∘ update g.owner k _)
    rw [Function.comp_update, Function.comp_update, hp]
    refine h.client.tie u hclient ?_
    rw [Function.comp_apply, hk]
    rfl
  link := by
    change Paired _ (Owner.link ∘ update g.owner k _)
    rw [comp_update_eq (by rw [hk]; rfl)]
    exact h.link
  work := by
    change Paired (Place.work ∘ update g.place b p) _
    rw [comp_update_eq hwork]
    exact h.work
  stale := by
    refine h.stale_setPlace (fun l k' len hp' => absurd hp' (hstale l k' len))
      (gone_update fun hgone => ?_)
    rw [hk] at hgone
    exact nomatch hgone

theorem Place.of_work {x : SocketPtr × ℕ × List (List UInt8) × Counts} (hp : p.work = some x) :
    p.client = none ∧ p.holder = none ∧ p ≠ .fresh ∧ ∀ l w, p ≠ .listed l w := by
  cases p with
  | pending | receiving | sending => exact ⟨rfl, rfl, nofun, nofun⟩
  | _ => exact nomatch hp

theorem Agreed.hire (h : Agreed g) (hclient : (g.place b).client = none)
    (hwork : (g.place b).work = none) (hp : p.work = some (o, k, u, c))
    (hlink : (g.phase o).link = some (k, u)) (hphase : (g.phase o).work = none) :
    Agreed ((g.setPlace b p).setPhase o (.live (.buffer b) k u c)) where
  client := by
    change Paired (Place.client ∘ update g.place b p) _
    rw [comp_update_eq (by rw [hclient, (Place.of_work hp).1])]
    exact h.client
  link := by
    change Paired (Phase.link ∘ update g.phase o _) _
    rw [comp_update_eq (by rw [hlink]; rfl)]
    exact h.link
  work := by
    change Paired (Place.work ∘ update g.place b p) (Phase.work ∘ update g.phase o _)
    rw [Function.comp_update, Function.comp_update, hp]
    exact h.work.tie (k, u, c) hwork hphase
  stale := h.stale_setPlace (fun l _ _ hp' => absurd hp' ((Place.of_work hp).2.2.2 l _))
    fun _ hgone => hgone

theorem Agreed.dismiss (h : Agreed g) {c' : Counts}
    {t : ThreadId} (hp : (g.place b).work = some (o, k, u, c)) (hclient : p.client = none)
    (hwork : p.work = none) (hlisted : ∀ l w, p ≠ .listed l w) :
    Agreed ((g.setPlace b p).setPhase o (.live (.thread t) k u c')) where
  client := by
    change Paired (Place.client ∘ update g.place b p) _
    rw [comp_update_eq (by rw [hclient, (Place.of_work hp).1])]
    exact h.client
  link := by
    change Paired (Phase.link ∘ update g.phase o _) _
    rw [comp_update_eq (by rw [h.phase_of_work hp]; rfl)]
    exact h.link
  work := by
    change Paired (Place.work ∘ update g.place b p) (Phase.work ∘ update g.phase o _)
    rw [Function.comp_update, Function.comp_update, hwork]
    exact h.work.untie hp
  stale := h.stale_setPlace (fun l _ _ hp' => absurd hp' (hlisted l _)) fun _ hgone => hgone

end Agreement

/-! ## Sockets -/

section Handles
variable {received handed : ℕ → List (List UInt8)} {closes : ℕ → ℕ} {handles : ℕ}
  {key : ℕ → Option SocketPtr} {owner : ℕ → Owner} {h : ℕ} {w : Owner}

variable {d r u : List (List UInt8)}

theorem HandlesOk.set (hok : HandlesOk received handed closes handles key owner) {n : ℕ}
    (hlogged : w.Logged r d) (hn : n = w.closes) (hold : owner h ≠ .fresh) (hnew : w ≠ .fresh)
    (hkeys : ∀ o, key h = some o → w = .gone ∨ ∃ u, w = .socket o u) :
    HandlesOk (update received h r) (update handed h d) (update closes h n) handles key
      (update owner h w) where
  logged := by
    intro h'
    rcases eq_or_ne h' h with rfl | hne
    · simpa using hlogged
    · simpa [hne] using hok.logged h'
  closes := by
    intro h'
    rcases eq_or_ne h' h with rfl | hne
    · simpa using hn
    · simpa [hne] using hok.closes h'
  fresh := by
    intro h'
    rcases eq_or_ne h' h with rfl | hne
    · simpa [hnew] using mt (hok.fresh h').mpr hold
    · simpa [hne] using hok.fresh h'
  keys := by
    intro h' o hkey
    rcases eq_or_ne h' h with rfl | hne
    · simpa using hkeys o hkey
    · simpa [hne] using hok.keys h' o hkey

theorem HandlesOk.associate (hok : HandlesOk received handed closes handles key owner)
    {o : SocketPtr} (howner : owner h = .socket o u) :
    HandlesOk received handed closes handles (update key h (some o)) owner where
  logged := hok.logged
  closes := hok.closes
  fresh := hok.fresh
  keys := by
    intro h' o' hkey
    rcases eq_or_ne h' h with rfl | hne
    · rw [update_self, Option.some.injEq] at hkey
      subst hkey
      exact .inr ⟨u, howner⟩
    · rw [update_of_ne hne] at hkey
      exact hok.keys h' o' hkey

theorem HandlesOk.create (hok : HandlesOk received handed closes handles key owner)
    (b : BufferPtr) : HandlesOk received handed closes (handles + 1) key
      (update owner (handles + 1) (.buffer b [])) := by
  have hfresh : owner (handles + 1) = .fresh := (hok.fresh _).mpr (.inr (Nat.lt_succ_self _))
  refine ⟨fun h' => ?_, fun h' => ?_, fun h' => ?_, fun h' o hkey => ?_⟩
  · rcases eq_or_ne h' (handles + 1) with rfl | hne
    · have hlogged := hok.logged (handles + 1)
      rw [hfresh] at hlogged
      rw [update_self, hlogged.1, hlogged.2]
      rfl
    · rw [update_of_ne hne]
      exact hok.logged h'
  · rcases eq_or_ne h' (handles + 1) with rfl | hne
    · rw [update_self, hok.closes, hfresh]
      rfl
    · rw [update_of_ne hne]
      exact hok.closes h'
  · rcases eq_or_ne h' (handles + 1) with rfl | hne
    · rw [update_self]
      exact iff_of_false nofun (by omega)
    · rw [update_of_ne hne, hok.fresh]
      omega
  · rcases eq_or_ne h' (handles + 1) with rfl | hne
    · rcases hok.keys _ o hkey with hgone | ⟨u, hsocket⟩
      · simp [hfresh] at hgone
      · simp [hfresh] at hsocket
    · rw [update_of_ne hne]
      exact hok.keys h' o hkey

theorem HandlesOk.close (hok : HandlesOk received handed closes handles key owner)
    (howner : (∃ b, owner h = .buffer b u) ∨ ∃ o, owner h = .socket o u) :
    HandlesOk received handed (update closes h (closes h + 1)) handles key
      (update owner h .gone) := by
  have hlogged := hok.logged h
  have hcloses := hok.closes h
  have hlog : received h = handed h ++ u ∧ closes h = 0 ∧ owner h ≠ .fresh := by
    rcases howner with ⟨b, hb⟩ | ⟨o, ho⟩
    · rw [hb] at hlogged hcloses
      exact ⟨hlogged, hcloses, by simp [hb]⟩
    · rw [ho] at hlogged hcloses
      exact ⟨hlogged, hcloses, by simp [ho]⟩
  have hset := hok.set (h := h) (w := .gone) (r := received h) (d := handed h)
    (n := closes h + 1) (by rw [hlog.1]; exact List.prefix_append _ _) (by rw [hlog.2.1]; rfl)
    hlog.2.2 nofun (fun _ _ => .inl rfl)
  rwa [update_eq_self, update_eq_self] at hset

theorem HandlesOk.pass (hok : HandlesOk received handed closes handles key owner)
    (hlogged : w.Logged r d) (hold : owner h ≠ .fresh)
    (hnew : w ≠ .fresh) (hclosed : (owner h).closes = w.closes)
    (hkeys : ∀ o, key h = some o → w = .gone ∨ ∃ u, w = .socket o u) :
    HandlesOk (update received h r) (update handed h d) closes handles key (update owner h w) := by
  have hset := hok.set (n := closes h) hlogged ((hok.closes h).trans hclosed) hold hnew hkeys
  rwa [update_eq_self] at hset

end Handles

/-! ## The list heads -/

section Heads
variable {s : State} {l : ListenPtr} {obj : ListenObj}

theorem heads_setListener :
    (s.setListener l obj).heads = update s.heads (.accepts l) obj.pendingAccepts := by
  funext i
  cases i with
  | free => rfl
  | pending => rfl
  | accepts l' =>
      rcases eq_or_ne l' l with rfl | hne
      · simp [State.heads, State.setListener]
      · simp [State.heads, State.setListener, hne]

theorem heads_setListener_eq (hobj : obj.pendingAccepts = (s.listener l).pendingAccepts) :
    (s.setListener l obj).heads = s.heads := by
  rw [heads_setListener, hobj]
  exact update_eq_self _ _

end Heads

end MiscProjects.IocpServer
