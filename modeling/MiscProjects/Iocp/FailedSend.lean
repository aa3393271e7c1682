import MiscProjects.Iocp.Server
import MiscProjects.Library.SinglyLinked

/-!
# A send that fails while the list is drained

The list of out-of-order sends as it is in memory: buffers that are linked through `next`, and
may have been freed.  `DoSends` takes a buffer off the list only after its send has been
accepted.  A buffer whose send fails is freed by `DoSends` and stays the head of the list, and
`PostSend` has already counted it in `LastSendIssued`.
-/

namespace MiscProjects.Iocp.FailedSend

open Function (update update_self update_of_ne)
open SinglyLinked (Chain)

/-- The members of a `BUFFER_OBJ` that decide its place in the list. -/
structure SendObj where
  ioOrder : BitVec 32
  next : Option ℕ
deriving DecidableEq

/-- A `SOCKET_OBJ` and the buffers in memory, at their addresses; a freed buffer is `none`.
`accepted` counts the sends that the provider has accepted, and `handed` are their buffers. -/
structure Sock where
  heap : ℕ → Option SendObj
  outOfOrderSends : Option ℕ
  lastSendIssued : BitVec 32
  accepted : ℕ
  handed : List ℕ

/-- A freed buffer is touched; or the rounds allowed for a loop do not suffice. -/
inductive Fault
  | freed
  | fuel
deriving DecidableEq

namespace Sock

def read (p : ℕ) (s : Sock) : Except Fault SendObj :=
  match s.heap p with
  | some obj => .ok obj
  | none => .error .freed

def write (p : ℕ) (obj : SendObj) (s : Sock) : Sock :=
  { s with heap := update s.heap p (some obj) }

def freeBufferObj (p : ℕ) (s : Sock) : Sock := { s with heap := update s.heap p none }

/-- The pointers between the buffers. -/
def next (s : Sock) (p : ℕ) : Option ℕ := (s.heap p).bind (·.next)

/-- `PostSend`; `posted` tells whether the send has been accepted. -/
def postSend (posted : Bool) (p : ℕ) (s : Sock) : Sock :=
  { s with
    lastSendIssued := s.lastSendIssued + 1
    accepted := if posted then s.accepted + 1 else s.accepted
    handed := if posted then s.handed ++ [p] else s.handed }

/-- `sock->OutOfOrderSends = next`. -/
def setHead (next : Option ℕ) (s : Sock) : Sock := { s with outOfOrderSends := next }

/-- The loop of `DoSends` from its `k`-th post on; `posts` tells which of them are accepted. -/
def sendLoop (posts : ℕ → Bool) : ℕ → ℕ → Sock → Except Fault (Sock × Bool)
  | 0, _, _ => .error .fuel
  | fuel + 1, k, s =>
      match s.outOfOrderSends with
      | none => .ok (s, true)
      | some p => do
          let sendobj ← s.read p
          if sendobj.ioOrder = s.lastSendIssued then
            if posts k then
              sendLoop posts fuel (k + 1) ((s.postSend true p).setHead sendobj.next)
            else .ok ((s.postSend false p).freeBufferObj p, false)
          else .ok (s, true)

/-- `DoSends`, and whether it returns `NO_ERROR`. -/
def doSends (posts : ℕ → Bool) (fuel : ℕ) (s : Sock) : Except Fault (Sock × Bool) :=
  sendLoop posts fuel 0 s

/-- The search of `InsertPendingSend` for the place of a buffer: `prev` and `ptr` at its end. -/
def findPlace (ioOrder : BitVec 32) (s : Sock) :
    ℕ → Option ℕ → Option ℕ → Except Fault (Option ℕ × Option ℕ)
  | 0, _, _ => .error .fuel
  | _ + 1, prev, none => .ok (prev, none)
  | fuel + 1, prev, some ptr => do
      let obj ← s.read ptr
      if ioOrder < obj.ioOrder then .ok (prev, some ptr)
      else findPlace ioOrder s fuel (some ptr) obj.next

/-- `InsertPendingSend` with a new buffer at `send`. -/
def insertPendingSend (fuel send : ℕ) (ioOrder : BitVec 32) (s : Sock) : Except Fault Sock := do
  let s := s.write send ⟨ioOrder, none⟩
  let (prev, ptr) ← s.findPlace ioOrder fuel none s.outOfOrderSends
  match prev with
  | none => .ok ((s.write send ⟨ioOrder, ptr⟩).setHead (some send))
  | some prev =>
      let obj ← s.read prev
      .ok ((s.write prev { obj with next := some send }).write send ⟨ioOrder, ptr⟩)

end Sock

/-- Any number of new buffers are inserted one after the other. -/
inductive Inserts (s : Sock) : Sock → Prop
  | nothing : Inserts s s
  | insert {t u : Sock} {fuel send : ℕ} {ioOrder : BitVec 32} :
      Inserts s t → t.heap send = none → t.insertPendingSend fuel send ioOrder = .ok u →
        Inserts s u

/-! ## Statement -/

/-- The list consists of the buffers `l`, none of which has been freed. -/
structure Live (s : Sock) (l : List ℕ) : Prop where
  chain : Chain s.next s.outOfOrderSends l
  live : ∀ p ∈ l, ∃ obj, s.heap p = some obj

/-- The list consists of the buffers `l`, none of which has been freed or handed over, and
`LastSendIssued` is the number of the sends accepted. -/
structure WellFormed (s : Sock) (l : List ℕ) : Prop extends Live s l where
  pending : ∀ p ∈ l, p ∉ s.handed
  issued : s.lastSendIssued = BitVec.ofNat 32 s.accepted

/-- What should hold of the list `l` after it has been drained. -/
structure Drained (l : List ℕ) (t : Sock) : Prop where
  list : Chain t.next t.outOfOrderSends (l.filter fun p => p ∉ t.handed ∧ (t.heap p).isSome)
  issued : t.lastSendIssued = BitVec.ofNat 32 t.accepted
  later : ∀ u posts fuel, Inserts t u → u.doSends posts fuel ≠ .error .freed

/-- The number of buffers at the head of the list that continue the sequence of the sends. -/
def due (heap : ℕ → Option SendObj) : BitVec 32 → List ℕ → ℕ
  | _, [] => 0
  | last, p :: l => if (heap p).map (·.ioOrder) = some last then due heap (last + 1) l + 1 else 0

/-! ## Draining -/

section Draining
variable {s t u : Sock} {l rest : List ℕ} {p send fuel : ℕ} {obj : SendObj} {posts : ℕ → Bool}
  {ioOrder : BitVec 32}

attribute [local simp] Sock.sendLoop

theorem read_eq (h : s.heap p = some obj) : s.read p = .ok obj := by
  simp [Sock.read, h]

theorem next_eq (h : s.heap p = some obj) : s.next p = obj.next := by
  simp [Sock.next, h]

theorem sendLoop_nil (h : s.outOfOrderSends = none) (k : ℕ) :
    Sock.sendLoop posts (fuel + 1) k s = .ok (s, true) := by
  simp [Sock.sendLoop, h]

theorem sendLoop_waits (hhead : s.outOfOrderSends = some p) (hobj : s.heap p = some obj)
    (horder : obj.ioOrder ≠ s.lastSendIssued) (k : ℕ) :
    Sock.sendLoop posts (fuel + 1) k s = .ok (s, true) := by
  rw [Sock.sendLoop, hhead]
  simp only [read_eq hobj, bind, Except.bind]
  rw [if_neg horder]

theorem sendLoop_accepted (hhead : s.outOfOrderSends = some p) (hobj : s.heap p = some obj)
    (horder : obj.ioOrder = s.lastSendIssued) {k : ℕ} (hpost : posts k = true) :
    Sock.sendLoop posts (fuel + 1) k s =
      Sock.sendLoop posts fuel (k + 1) ((s.postSend true p).setHead obj.next) := by
  rw [Sock.sendLoop, hhead]
  simp only [read_eq hobj, bind, Except.bind]
  rw [if_pos horder, if_pos hpost]

theorem sendLoop_failed (hhead : s.outOfOrderSends = some p) (hobj : s.heap p = some obj)
    (horder : obj.ioOrder = s.lastSendIssued) {k : ℕ} (hpost : posts k ≠ true) :
    Sock.sendLoop posts (fuel + 1) k s = .ok ((s.postSend false p).freeBufferObj p, false) := by
  rw [Sock.sendLoop, hhead]
  simp only [read_eq hobj, bind, Except.bind]
  rw [if_pos horder, if_neg hpost]

theorem Live.tail (h : Live s (p :: rest)) (hobj : s.heap p = some obj) :
    Live ((s.postSend true p).setHead obj.next) rest where
  chain := by
    have hchain := h.chain.2
    rwa [next_eq hobj] at hchain
  live q hq := h.live q (List.mem_cons_of_mem p hq)

theorem WellFormed.handOver (h : WellFormed s (p :: rest)) (hobj : s.heap p = some obj) :
    WellFormed ((s.postSend true p).setHead obj.next) rest where
  toLive := h.toLive.tail hobj
  pending := by
    intro q hq
    have hne : q ≠ p := by
      rintro rfl
      exact (List.nodup_cons.mp h.chain.nodup).1 hq
    simpa [Sock.postSend, Sock.setHead, hne] using h.pending q (List.mem_cons_of_mem p hq)
  issued := by
    simp [Sock.postSend, Sock.setHead, h.issued, BitVec.ofNat_add]

/-- The loop hands over the buffers that are due, one after the other, up to the first one whose
send fails; that one is freed and is the head of the list. -/
theorem sendLoop_spec (posts : ℕ → Bool) (l : List ℕ) : ∀ (k : ℕ) (s : Sock), WellFormed s l →
      ∃ t ok, Sock.sendLoop posts (l.length + 1) k s = .ok (t, ok) ∧
        ((∀ i < due s.heap s.lastSendIssued l, posts (k + i) = true) ∧
            WellFormed t (l.drop (due s.heap s.lastSendIssued l)) ∧
            t.handed = s.handed ++ l.take (due s.heap s.lastSendIssued l) ∨
          (¬∀ i < due s.heap s.lastSendIssued l, posts (k + i) = true) ∧
            ∃ p, t.outOfOrderSends = some p ∧ t.heap p = none) := by
  induction l with
  | nil =>
      intro k s h
      have hnone : s.outOfOrderSends = none := h.chain
      exact ⟨s, true, sendLoop_nil hnone k, .inl ⟨by simp [due], h, by simp⟩⟩
  | cons p rest ih =>
      intro k s h
      obtain ⟨obj, hobj⟩ := h.live p List.mem_cons_self
      have hhead : s.outOfOrderSends = some p := h.chain.1
      by_cases horder : obj.ioOrder = s.lastSendIssued
      · have hdue : due s.heap s.lastSendIssued (p :: rest) =
            due s.heap (s.lastSendIssued + 1) rest + 1 := by
          simp [due, hobj, horder]
        rw [hdue, List.drop_succ_cons, List.take_succ_cons]
        by_cases hpost : posts k = true
        · obtain ⟨t, ok, hloop, hspec⟩ := ih (k + 1) _ (h.handOver hobj)
          refine ⟨t, ok, (sendLoop_accepted hhead hobj horder hpost).trans hloop, ?_⟩
          · have hall : (∀ i < due s.heap (s.lastSendIssued + 1) rest + 1, posts (k + i) = true) ↔
                ∀ i < due s.heap (s.lastSendIssued + 1) rest, posts (k + 1 + i) = true := by
              constructor
              · intro hall i hi
                rw [Nat.add_right_comm]
                exact hall (i + 1) (Nat.succ_lt_succ hi)
              · intro hall i hi
                rcases i with _ | i
                · exact hpost
                · have hnext := hall i (Nat.lt_of_succ_lt_succ hi)
                  rwa [Nat.add_right_comm] at hnext
            rw [hall]
            rcases hspec with ⟨hposts, hwell, hhanded⟩ | hfailed
            · refine .inl ⟨hposts, hwell, hhanded.trans ?_⟩
              simp [Sock.postSend, Sock.setHead]
            · exact .inr hfailed
        · refine ⟨(s.postSend false p).freeBufferObj p, false,
            sendLoop_failed hhead hobj horder hpost, .inr ⟨?_, p, hhead, ?_⟩⟩
          · exact fun hall => hpost (hall 0 (Nat.succ_pos _))
          · simp [Sock.freeBufferObj]
      · have hdue : due s.heap s.lastSendIssued (p :: rest) = 0 := by
          simp [due, hobj, horder]
        rw [hdue]
        exact ⟨s, true, sendLoop_waits hhead hobj horder k, .inl ⟨by simp, h, by simp⟩⟩

/-! ## Live lists -/

theorem Live.sendLoop_ne_freed (posts : ℕ → Bool) (fuel : ℕ) :
    ∀ (k : ℕ) (s : Sock) (l : List ℕ), Live s l → Sock.sendLoop posts fuel k s ≠ .error .freed := by
  induction fuel with
  | zero =>
      intro k s l _
      simp [Sock.sendLoop]
  | succ fuel ih =>
      intro k s l h
      rcases l with _ | ⟨p, rest⟩
      · rw [sendLoop_nil (show s.outOfOrderSends = none from h.chain)]
        simp
      · obtain ⟨obj, hobj⟩ := h.live p List.mem_cons_self
        have hhead : s.outOfOrderSends = some p := h.chain.1
        by_cases horder : obj.ioOrder = s.lastSendIssued
        · by_cases hpost : posts k = true
          · have hrest : Live { s.postSend true p with outOfOrderSends := obj.next } rest := by
              refine ⟨?_, fun q hq => h.live q (List.mem_cons_of_mem p hq)⟩
              have hchain := h.chain.2
              rwa [next_eq hobj] at hchain
            rw [sendLoop_accepted hhead hobj horder hpost]
            exact ih (k + 1) _ rest hrest
          · rw [sendLoop_failed hhead hobj horder hpost]
            simp
        · rw [sendLoop_waits hhead hobj horder]
          simp

theorem findPlace_spec (ioOrder : BitVec 32) (s : Sock) (l : List ℕ) :
    ∀ (fuel : ℕ) (start : Option ℕ) (before : List ℕ) (prev ptr : Option ℕ),
      Chain s.next start l → (∀ p ∈ l, ∃ obj, s.heap p = some obj) →
        s.findPlace ioOrder fuel before.getLast? start = .ok (prev, ptr) →
          ∃ l₁ l₂, l = l₁ ++ l₂ ∧ prev = (before ++ l₁).getLast? ∧ ptr = l₂.head? := by
  induction l with
  | nil =>
      intro fuel start before prev ptr hchain _ hfind
      obtain rfl : start = none := hchain
      rcases fuel with _ | fuel
      · cases hfind
      · obtain ⟨rfl, rfl⟩ := Prod.mk.inj (Except.ok.inj hfind)
        exact ⟨[], [], rfl, by simp, rfl⟩
  | cons p rest ih =>
      intro fuel start before prev ptr hchain hlive hfind
      obtain ⟨obj, hobj⟩ := hlive p List.mem_cons_self
      obtain ⟨rfl, hrest⟩ := hchain
      rcases fuel with _ | fuel
      · cases hfind
      · by_cases hless : ioOrder < obj.ioOrder
        · simp only [Sock.findPlace, read_eq hobj, bind, Except.bind] at hfind
          rw [if_pos hless] at hfind
          obtain ⟨rfl, rfl⟩ := Prod.mk.inj (Except.ok.inj hfind)
          exact ⟨[], p :: rest, rfl, by simp, rfl⟩
        · have hlater : s.findPlace ioOrder fuel (before ++ [p]).getLast? obj.next =
              .ok (prev, ptr) := by
            simp only [Sock.findPlace, read_eq hobj, bind, Except.bind] at hfind
            rw [if_neg hless] at hfind
            simpa using hfind
          rw [next_eq hobj] at hrest
          obtain ⟨l₁, l₂, rfl, hprev, hptr⟩ := ih fuel obj.next (before ++ [p]) prev ptr hrest
            (fun q hq => hlive q (List.mem_cons_of_mem p hq)) hlater
          exact ⟨p :: l₁, l₂, rfl, by simpa using hprev, hptr⟩

theorem next_write (s : Sock) (p : ℕ) (obj : SendObj) :
    (s.write p obj).next = update s.next p obj.next := by
  funext q
  by_cases hq : q = p
  · subst hq
    simp [Sock.next, Sock.write]
  · simp [Sock.next, Sock.write, hq]

theorem write_live (h : ∃ obj, s.heap p = some obj) (q : ℕ) (obj : SendObj) :
    ∃ obj', (s.write q obj).heap p = some obj' := by
  by_cases hq : p = q
  · subst hq
    exact ⟨obj, by simp [Sock.write]⟩
  · obtain ⟨obj', hobj'⟩ := h
    exact ⟨obj', by simpa [Sock.write, hq] using hobj'⟩

theorem Live.not_mem (h : Live s l) (hfree : s.heap send = none) : send ∉ l := by
  intro hmem
  obtain ⟨obj, hobj⟩ := h.live send hmem
  rw [hfree] at hobj
  cases hobj

/-- Inserting a buffer in a live list writes its pointer, and that of the list or of the buffer
before it. -/
theorem insertPendingSend_cases (h : Live s l) (hfree : s.heap send = none)
    (hinsert : s.insertPendingSend fuel send ioOrder = .ok u) :
    u = (s.write send ⟨ioOrder, s.outOfOrderSends⟩).setHead (some send) ∨
      ∃ before q after obj, l = before ++ q :: after ∧ s.heap q = some obj ∧
        u = (s.write send ⟨ioOrder, obj.next⟩).write q { obj with next := some send } := by
  have hnot := h.not_mem hfree
  have hwrite : ∀ p ∈ l, (s.write send ⟨ioOrder, none⟩).heap p = s.heap p := by
    intro p hp
    refine update_of_ne ?_ _ _
    rintro rfl
    exact hnot hp
  have hchain : Chain (s.write send ⟨ioOrder, none⟩).next s.outOfOrderSends l := by
    refine h.chain.congr fun p hp => ?_
    rw [Sock.next, hwrite p hp, Sock.next]
  have hlive : ∀ p ∈ l, ∃ obj, (s.write send ⟨ioOrder, none⟩).heap p = some obj := by
    intro p hp
    rw [hwrite p hp]
    exact h.live p hp
  simp only [Sock.insertPendingSend, bind, Except.bind] at hinsert
  split at hinsert
  case h_1 => cases hinsert
  case h_2 place hplace =>
    obtain ⟨prev, ptr⟩ := place
    obtain ⟨l₁, l₂, rfl, hprev, rfl⟩ := findPlace_spec ioOrder _ l fuel _ [] prev ptr
      hchain hlive hplace
    rw [List.nil_append] at hprev
    rcases List.eq_nil_or_concat' l₁ with rfl | ⟨before, q, rfl⟩
    · obtain rfl : prev = none := by simpa using hprev
      obtain rfl := Except.ok.inj hinsert
      left
      have hhead : l₂.head? = s.outOfOrderSends := h.chain.head?_eq
      simp [Sock.write, hhead]
    · obtain rfl : prev = some q := by simpa using hprev
      have hq : q ∈ before ++ [q] ++ l₂ := by simp
      obtain ⟨obj, hobj⟩ := h.live q hq
      simp only [read_eq ((hwrite q hq).trans hobj)] at hinsert
      obtain rfl := Except.ok.inj hinsert
      refine .inr ⟨before, q, l₂, obj, by simp, hobj, ?_⟩
      have hafter : l₂.head? = obj.next := by
        have hsuffix := h.chain
        rw [List.append_assoc] at hsuffix
        obtain ⟨mid, hmid⟩ := hsuffix.suffix
        rw [← next_eq hobj]
        exact hmid.2.head?_eq
      have hne : q ≠ send := by
        rintro rfl
        exact hnot hq
      simp [Sock.write, hafter, Function.update_comm hne]

theorem Live.insert (h : Live s l) (hfree : s.heap send = none)
    (hinsert : s.insertPendingSend fuel send ioOrder = .ok u) : ∃ l', Live u l' := by
  have hnot := h.not_mem hfree
  rcases insertPendingSend_cases h hfree hinsert with rfl | ⟨before, q, after, obj, rfl, hobj, rfl⟩
  · refine ⟨send :: l, ?_, ?_⟩
    · have hpush := h.chain.push hnot
      rwa [← next_write s send ⟨ioOrder, s.outOfOrderSends⟩] at hpush
    · intro p hp
      rcases List.mem_cons.mp hp with rfl | hp
      · exact ⟨_, update_self ..⟩
      · exact write_live (h.live p hp) send _
  · refine ⟨before ++ q :: send :: after, ?_, ?_⟩
    · have hchain := h.chain.insert hnot
      rw [next_write, next_write]
      rwa [next_eq hobj] at hchain
    · intro p hp
      refine write_live ?_ q _
      by_cases hsend : p = send
      · subst hsend
        exact ⟨_, update_self ..⟩
      · refine write_live (h.live p ?_) send _
        simpa [hsend] using hp

theorem Live.inserts (h : Live s l) (hinserts : Inserts s u) : ∃ l', Live u l' := by
  induction hinserts with
  | nothing => exact ⟨l, h⟩
  | insert _ hfree hinsert ih =>
      obtain ⟨l', hlive⟩ := ih
      exact hlive.insert hfree hinsert

/-! ## The whole call -/

theorem WellFormed.drained {n : ℕ} (hrest : WellFormed t (l.drop n))
    (hhanded : t.handed = s.handed ++ l.take n) : Drained l t where
  list := by
    have hleft : l.filter (fun p => decide (p ∉ t.handed ∧ (t.heap p).isSome = true)) =
        l.drop n := by
      conv_lhs => rw [← List.take_append_drop n l, List.filter_append]
      have htaken : (l.take n).filter
          (fun p => decide (p ∉ t.handed ∧ (t.heap p).isSome = true)) = [] := by
        rw [List.filter_eq_nil_iff]
        intro p hp
        have hmem : p ∈ t.handed := by
          rw [hhanded]
          exact List.mem_append_right _ hp
        simp [hmem]
      have hkept : (l.drop n).filter
          (fun p => decide (p ∉ t.handed ∧ (t.heap p).isSome = true)) = l.drop n := by
        rw [List.filter_eq_self]
        intro p hp
        obtain ⟨obj, hobj⟩ := hrest.live p hp
        simp [hrest.pending p hp, hobj]
      rw [htaken, hkept, List.nil_append]
    rw [hleft]
    exact hrest.chain
  issued := hrest.issued
  later := by
    intro u posts fuel hinserts
    obtain ⟨l', hlive⟩ := hrest.toLive.inserts hinserts
    exact hlive.sendLoop_ne_freed posts fuel 0 u l'

theorem not_drained_of_freed (hhead : t.outOfOrderSends = some p) (hfreed : t.heap p = none) :
    ¬Drained l t := by
  intro hdrained
  refine hdrained.later t (fun _ => true) 1 .nothing ?_
  simp [Sock.doSends, Sock.sendLoop, hhead, Sock.read, hfreed, bind, Except.bind]

/-- `DoSends` ends, and leaves the list, `LastSendIssued` and later calls in order, exactly if the
sends of all buffers that continue the sequence are accepted. -/
theorem doSends_drained_iff (posts : ℕ → Bool) (h : WellFormed s l) :
    (∃ t ok, s.doSends posts (l.length + 1) = .ok (t, ok) ∧ Drained l t) ↔
      ∀ k < due s.heap s.lastSendIssued l, posts k = true := by
  obtain ⟨t, ok, hloop, hspec⟩ := sendLoop_spec posts l 0 s h
  simp only [Nat.zero_add] at hspec
  constructor
  · rintro ⟨t', ok', hloop', hdrained⟩
    obtain ⟨rfl, rfl⟩ := Prod.mk.inj (Except.ok.inj (hloop.symm.trans hloop'))
    rcases hspec with ⟨hposts, -⟩ | ⟨-, p, hhead, hfreed⟩
    · exact hposts
    · exact absurd hdrained (not_drained_of_freed hhead hfreed)
  · intro hposts
    rcases hspec with ⟨-, hrest, hhanded⟩ | ⟨hfailed, -⟩
    · exact ⟨t, ok, hloop, hrest.drained hhanded⟩
    · exact absurd hposts hfailed

end Draining

/-! ## The list of the server -/

/-- The list in memory has the sequence numbers of the server's list, and its head has been freed
where the server's is dangling. -/
structure Represents (s : Sock) (t : Server) : Prop where
  issued : s.lastSendIssued = t.sock.lastSendIssued
  live : t.dangling = false → ∃ l, Live s l ∧
    l.map (fun p => (s.heap p).map (·.ioOrder)) =
      t.sock.outOfOrderSends.map fun send => some send.ioOrder
  freed : t.dangling = true → ∃ p, s.outOfOrderSends = some p ∧ s.heap p = none

section Server
variable {s : Sock} {env : Env}

theorem countPost_postSend (env : Env) (send : BufferObj) (t : Server) :
    (countPost (postSend env send t)).2 = env.sendPosts t.sendCalls ∧
      (countPost (postSend env send t)).1.sock.lastSendIssued = t.sock.lastSendIssued + 1 ∧
      (countPost (postSend env send t)).1.sendCalls = t.sendCalls + 1 ∧
      (countPost (postSend env send t)).1.dangling = t.dangling := by
  by_cases hpost : env.sendPosts t.sendCalls = true
  · simp [countPost, postSend, hpost]
  · simp [countPost, postSend, hpost]

theorem sendLoop_represents (env : Env) (sends : List BufferObj) :
    ∀ (l : List ℕ) (s : Sock) (t : Server), Live s l →
      l.map (fun p => (s.heap p).map (·.ioOrder)) = sends.map (fun send => some send.ioOrder) →
      s.lastSendIssued = t.sock.lastSendIssued → t.dangling = false →
        ∃ s', Sock.sendLoop env.sendPosts (sends.length + 1) t.sendCalls s =
            .ok (s', (sendLoop env sends t).2) ∧ Represents s' (sendLoop env sends t).1 := by
  induction sends with
  | nil =>
      intro l s t hlive horders hissued hdangling
      obtain rfl : l = [] := List.map_eq_nil_iff.mp horders
      refine ⟨s, sendLoop_nil hlive.chain _, hissued, fun _ => ⟨[], hlive, rfl⟩, ?_⟩
      intro hfreed
      exact absurd (hdangling.symm.trans hfreed) Bool.false_ne_true
  | cons send sends ih =>
      intro l s t hlive horders hissued hdangling
      obtain ⟨p, rest, rfl⟩ : ∃ p rest, l = p :: rest :=
        List.exists_cons_of_ne_nil (by rintro rfl; cases horders)
      obtain ⟨obj, hobj⟩ := hlive.live p List.mem_cons_self
      have hhead : s.outOfOrderSends = some p := hlive.chain.1
      obtain ⟨horder, hrest⟩ := List.cons.inj horders
      have hsame : obj.ioOrder = send.ioOrder := by simpa [hobj] using horder
      obtain ⟨hposted, hlast, hcalls, hkept⟩ := countPost_postSend env send t
      by_cases hdue : send.ioOrder = t.sock.lastSendIssued
      · have hready : obj.ioOrder = s.lastSendIssued := hsame.trans (hdue.trans hissued.symm)
        by_cases hpost : env.sendPosts t.sendCalls = true
        · have hlater : sendLoop env (send :: sends) t =
              sendLoop env sends (countPost (postSend env send t)).1 := by
            rw [sendLoop, if_pos hdue, if_pos (hposted.trans hpost)]
          rw [hlater, List.length_cons, sendLoop_accepted hhead hobj hready hpost, ← hcalls]
          refine ih rest _ _ (hlive.tail hobj) hrest ?_ (hkept.trans hdangling)
          rw [hlast, ← hissued]
          rfl
        · have hfails : (countPost (postSend env send t)).2 ≠ true := by
            rw [hposted]
            exact hpost
          have hlater : sendLoop env (send :: sends) t = ({ (countPost (postSend env send t)).1 with
                sock := { (countPost (postSend env send t)).1.sock with
                  outOfOrderSends := send :: sends }
                dangling := true }, false) := by
            rw [sendLoop, if_pos hdue, if_neg hfails]
          rw [hlater]
          refine ⟨(s.postSend false p).freeBufferObj p,
            sendLoop_failed hhead hobj hready hpost, ?_, ?_, ?_⟩
          · rw [hlast, ← hissued]
            rfl
          · exact fun hnot => absurd hnot.symm Bool.false_ne_true
          · exact fun _ => ⟨p, hhead, update_self ..⟩
      · have hwaits : obj.ioOrder ≠ s.lastSendIssued := by
          rw [hsame, hissued]
          exact hdue
        have hlater : sendLoop env (send :: sends) t =
            ({ t with sock := { t.sock with outOfOrderSends := send :: sends } }, true) := by
          rw [sendLoop, if_neg hdue]
        rw [hlater]
        refine ⟨s, sendLoop_waits hhead hobj hwaits _, hissued, ?_, ?_⟩
        · exact fun _ => ⟨p :: rest, hlive, horders⟩
        · exact fun hfreed => absurd (hdangling.symm.trans hfreed) Bool.false_ne_true

/-- `DoSends` in memory is the `DoSends` of the server: it touches a freed buffer where the server
has no next state. -/
theorem doSends_represents {t : Server} (h : Represents s t) :
    (∃ s' t' ok, Iocp.doSends env t = some (t', ok) ∧ Represents s' t' ∧
        Sock.sendLoop env.sendPosts (t.sock.outOfOrderSends.length + 1) t.sendCalls s =
          .ok (s', ok)) ∨ Iocp.doSends env t = none ∧
        Sock.sendLoop env.sendPosts (t.sock.outOfOrderSends.length + 1) t.sendCalls s =
          .error .freed := by
  by_cases hdangling : t.dangling = true
  · obtain ⟨p, hhead, hfreed⟩ := h.freed hdangling
    refine .inr ⟨by simp [Iocp.doSends, hdangling], ?_⟩
    simp [Sock.sendLoop, hhead, Sock.read, hfreed, bind, Except.bind]
  · have hnot : t.dangling = false := by simpa using hdangling
    obtain ⟨l, hlive, horders⟩ := h.live hnot
    obtain ⟨s', hloop, hrepresents⟩ :=
      sendLoop_represents env t.sock.outOfOrderSends l s t hlive horders h.issued hnot
    refine .inl ⟨s', _, _, ?_, hrepresents, hloop⟩
    simp [Iocp.doSends, hnot]

end Server

/-- Three buffers, of which two continue the sequence. -/
def threeSends : Sock where
  heap := fun p => [⟨4, some 1⟩, ⟨5, some 2⟩, ⟨9, none⟩][p]?
  outOfOrderSends := some 0
  lastSendIssued := 4
  accepted := 4
  handed := []

theorem wellFormed_threeSends : WellFormed threeSends [0, 1, 2] where
  chain := ⟨rfl, rfl, rfl, rfl⟩
  live := by simp [threeSends]
  pending := by simp [threeSends]
  issued := rfl

theorem threeSends_drained :
    ∃ t ok, threeSends.doSends (fun _ => true) 4 = .ok (t, ok) ∧ Drained [0, 1, 2] t :=
  (doSends_drained_iff (fun _ => true) wellFormed_threeSends).2 fun _ _ => rfl

theorem doSends_represents_threeSends :
    let env : Env := ⟨.tcp, 1, [], fun _ => none, fun _ => true, fun _ => true⟩
    let t : Server := ⟨⟨false, 0, 4, 0, [⟨4, none, []⟩, ⟨5, none, []⟩, ⟨9, none, []⟩]⟩, false,
      false, false, 0, 0, 0, [], 0, []⟩
    ∃ s' t' ok, Iocp.doSends env t = some (t', ok) ∧ Represents s' t' ∧
      threeSends.sendLoop env.sendPosts 4 0 = .ok (s', ok) := by
  intro env t
  have hrepresents : Represents threeSends t :=
    ⟨rfl, fun _ => ⟨_, wellFormed_threeSends.toLive, rfl⟩, nofun⟩
  exact (doSends_represents hrepresents).resolve_right fun hno => nomatch hno.1

/-- The second send fails. -/
theorem not_drained_threeSends :
    ¬∀ s l posts, WellFormed s l →
      ∃ t ok, s.doSends posts (l.length + 1) = .ok (t, ok) ∧ Drained l t := by
  intro hall
  obtain ⟨t, ok, hloop, hdrained⟩ := hall _ _ (fun k => k = 0) wellFormed_threeSends
  obtain ⟨rfl, rfl⟩ := Prod.mk.inj (Except.ok.inj hloop)
  exact absurd hdrained.issued (by decide)

end MiscProjects.Iocp.FailedSend
