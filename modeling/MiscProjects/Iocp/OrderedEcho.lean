import Mathlib.Data.List.Nodup
import Mathlib.Data.List.Range
import Mathlib.Data.List.Perm.Basic
import MiscProjects.Iocp.Server

/-!
# The echo is in order

When every post succeeds, the receives handed to the sending side are the
first ones posted, in the order of posting: `LastSendIssued` counts them, and
the out-of-order list keeps the others.  The sequence numbers are 32 bits wide
and compared for equality only, so this holds as long as no receive completes
with data `2^32` or more receives after the one to be handed over next.
-/

namespace MiscProjects.Iocp

open MiscProjects.Runs

/-- The receives handed to `WSASend` or `WSASendTo`, in order. -/
def receivesHanded (t : Server) : List ℕ :=
  t.handed.filterMap (·.receive)

/-- The bytes sent after the accept data. -/
def bytesEchoed (t : Server) : List UInt8 :=
  (t.handed.filter (·.receive.isSome)).flatMap (·.buf)

/-- The bytes received by the receives posted so far. -/
def bytesReceived (env : Env) (t : Server) : List UInt8 :=
  (List.range t.recvCalls).flatMap fun n => (env.fill n).getD []

/-- The receive completes with data: for UDP an empty datagram is data too. -/
def CarriesData (env : Env) (n : ℕ) : Prop :=
  match env.fill n with
  | none => False
  | some bytes => bytes ≠ [] ∨ env.gProtocol = .udp

instance (env : Env) (n : ℕ) : Decidable (CarriesData env n) := by
  unfold CarriesData
  split <;> infer_instance

/-- Receives are handed over in the order of posting, each at most once, none
before an earlier one with data; on a connection the bytes sent are a prefix
of the bytes received. -/
structure InOrder (env : Env) (t : Server) : Prop where
  ascending : (receivesHanded t).Pairwise (· < ·)
  noneBefore : ∀ n ∈ receivesHanded t, ∀ k < n,
    CarriesData env k → k ∈ receivesHanded t
  prefixOf : env.gProtocol = .tcp →
    (bytesEchoed t).IsPrefix (bytesReceived env t)

/-- Every post succeeds. -/
def PostsSucceed (env : Env) : Prop :=
  ∀ n, env.recvPosts n = true ∧ env.sendPosts n = true

/-- No receive completes with data a full turn of the sequence numbers after
the receive to be handed over next. -/
def NoLap (env : Env) (t : Server) : IoAction → Prop
  | .recvCompletes recvobj =>
      CarriesData env recvobj.receive →
        recvobj.receive < (receivesHanded t).length + 2 ^ 32
  | _ => True

instance (env : Env) (t : Server) (a : IoAction) :
    Decidable (NoLap env t a) := by
  cases a <;> unfold NoLap <;> infer_instance

/-! ## The sequencing invariant -/

/-- The sequence number of the `n`-th receive: a connection has used the first
number for the data of the accept. -/
def orderOf (env : Env) (n : ℕ) : BitVec 32 :=
  BitVec.ofNat 32 (if env.gProtocol = .tcp then n + 1 else n)

/-- The members that sequencing depends on. -/
structure Sequencing where
  handed : List BufferObj
  lastSendIssued : BitVec 32
  ioCountIssued : BitVec 32
  recvCalls : ℕ
  inFlight : List RecvObj
  outOfOrderSends : List BufferObj
  dangling : Bool

def Server.sequencing (t : Server) : Sequencing :=
  { handed := t.handed, lastSendIssued := t.sock.lastSendIssued,
    ioCountIssued := t.sock.ioCountIssued, recvCalls := t.recvCalls,
    inFlight := t.inFlight, outOfOrderSends := t.sock.outOfOrderSends,
    dangling := t.dangling }

/-- The receives neither in flight nor in the list are the first ones, handed
over in order, or carry no data; the list lies within one turn of the sequence
numbers. -/
structure Sequenced (env : Env) (q : Sequencing) (next : ℕ) : Prop where
  handed : q.handed.filterMap (·.receive) = List.range next
  filled : ∀ sendobj ∈ q.handed ++ q.outOfOrderSends,
    ∀ n ∈ sendobj.receive, env.fill n = some sendobj.buf
  lastSend : q.lastSendIssued = orderOf env next
  ioCount : q.ioCountIssued = orderOf env q.recvCalls
  posted : next ≤ q.recvCalls
  inFlight : ∀ recvobj ∈ q.inFlight,
    recvobj.ioOrder = orderOf env recvobj.receive ∧
      next ≤ recvobj.receive ∧ recvobj.receive < q.recvCalls
  listed : ∀ sendobj ∈ q.outOfOrderSends, ∃ n,
    sendobj.receive = some n ∧ sendobj.ioOrder = orderOf env n ∧
      next ≤ n ∧ n < q.recvCalls ∧ n < next + 2 ^ 32
  distinct : (q.inFlight.map (fun recvobj => some recvobj.receive) ++
    q.outOfOrderSends.map (·.receive)).Nodup
  intact : q.dangling = false

/-- The invariant: the next receive to hand over is the first one not handed
over yet. -/
def Ordered (env : Env) (t : Server) : Prop :=
  Sequenced env t.sequencing (receivesHanded t).length

variable {env : Env} {t u : Server} {m : ℕ}

theorem Ordered.of_eq (h : Ordered env t) (heq : u.sequencing = t.sequencing) : Ordered env u := by
  have hhanded : u.handed = t.handed := congrArg Sequencing.handed heq
  simp only [Ordered, receivesHanded, hhanded, heq]
  exact h

theorem orderOf_inj {k n : ℕ} (hle : k ≤ n) (hlt : n < k + 2 ^ 32)
    (h : orderOf env n = orderOf env k) : n = k := by
  unfold orderOf at h
  rw [← BitVec.toNat_inj, BitVec.toNat_ofNat, BitVec.toNat_ofNat] at h
  split at h <;> omega

theorem ofNat_succ (n : ℕ) : BitVec.ofNat 32 n + 1#32 = BitVec.ofNat 32 (n + 1) := by
  rw [← BitVec.toNat_inj]
  simp

theorem orderOf_succ (env : Env) (n : ℕ) : orderOf env n + 1 = orderOf env (n + 1) := by
  unfold orderOf
  split
  · exact ofNat_succ (n + 1)
  · exact ofNat_succ n

/-! ## Posting -/

theorem countPost_sequencing (posted : Server × Bool) :
    (countPost posted).1.sequencing = posted.1.sequencing := by
  unfold countPost
  split <;> rfl

@[simp]
theorem countPost_snd (posted : Server × Bool) : (countPost posted).2 = posted.2 := by
  unfold countPost
  split <;> simp_all

theorem postSend_snd (hposts : PostsSucceed env) (sendobj : BufferObj) (t : Server) :
    (postSend env sendobj t).2 = true :=
  (hposts t.sendCalls).2

theorem Ordered.postRecv (hposts : PostsSucceed env)
    (h : Ordered env t) : Ordered env (postRecv env t).1 := by
  have hflight : (Iocp.postRecv env t).1.inFlight =
      t.inFlight ++ [⟨t.sock.ioCountIssued, t.recvCalls⟩] := by
    simp [Iocp.postRecv, (hposts t.recvCalls).1]
  have hnew : some t.recvCalls ∉ t.inFlight.map (fun recvobj => some recvobj.receive) ++
        t.sock.outOfOrderSends.map (·.receive) := by
    intro hmem
    rcases List.mem_append.mp hmem with hmem | hmem
    · obtain ⟨recvobj, hrecv, heq⟩ := List.mem_map.mp hmem
      have hlt := (h.inFlight recvobj hrecv).2.2
      simp only [Option.some.injEq] at heq
      exact absurd hlt (by rw [heq]; exact Nat.lt_irrefl _)
    · obtain ⟨sendobj, hsend, heq⟩ := List.mem_map.mp hmem
      obtain ⟨n, hn, -, -, hlt, -⟩ := h.listed sendobj hsend
      rw [hn, Option.some.injEq] at heq
      exact absurd hlt (by rw [heq]; exact Nat.lt_irrefl _)
  refine ⟨h.handed, h.filled, h.lastSend, ?_, ?_, ?_, ?_, ?_, h.intact⟩
  · have hcount : t.sock.ioCountIssued = orderOf env t.recvCalls := h.ioCount
    calc t.sock.ioCountIssued + 1 = orderOf env t.recvCalls + 1 := by rw [hcount]
      _ = orderOf env (t.recvCalls + 1) := orderOf_succ env t.recvCalls
  · exact Nat.le_succ_of_le h.posted
  · intro recvobj hmem
    have hmem' : recvobj ∈ (Iocp.postRecv env t).1.inFlight := hmem
    rw [hflight, List.mem_append, List.mem_singleton] at hmem'
    rcases hmem' with hold | rfl
    · obtain ⟨horder, hle, hlt⟩ := h.inFlight recvobj hold
      exact ⟨horder, hle, Nat.lt_succ_of_lt hlt⟩
    · exact ⟨h.ioCount, h.posted, Nat.lt_succ_self _⟩
  · intro sendobj hmem
    obtain ⟨n, hn, horder, hle, hlt, hturn⟩ := h.listed sendobj hmem
    exact ⟨n, hn, horder, hle, Nat.lt_succ_of_lt hlt, hturn⟩
  · show ((Iocp.postRecv env t).1.inFlight.map (fun r => some r.receive) ++
      t.sock.outOfOrderSends.map (·.receive)).Nodup
    rw [hflight, List.map_append, List.append_assoc]
    have hperm : (t.inFlight.map (fun r : RecvObj => some r.receive) ++
        ([⟨t.sock.ioCountIssued, t.recvCalls⟩].map (fun r : RecvObj => some r.receive) ++
          t.sock.outOfOrderSends.map (·.receive))).Perm (some t.recvCalls ::
          (t.inFlight.map (fun r => some r.receive) ++ t.sock.outOfOrderSends.map (·.receive))) :=
      List.perm_middle
    exact hperm.nodup_iff.mpr (List.nodup_cons.mpr ⟨hnew, h.distinct⟩)

/-! ## The list -/

theorem insertSend_perm (send : BufferObj) (sends : List BufferObj) :
    (insertSend send sends).Perm (send :: sends) := by
  induction sends with
  | nil => exact .refl _
  | cons ptr rest ih =>
      unfold insertSend
      split
      · exact .refl _
      · exact (ih.cons ptr).trans (.swap send ptr rest)

theorem Ordered.insertPendingSend {recvobj : RecvObj} {bytes : List UInt8} (h : Ordered env t)
    (hmem : recvobj ∈ t.inFlight) (hfill : env.fill recvobj.receive = some bytes)
    (hlap : recvobj.receive < (receivesHanded t).length + 2 ^ 32) : Ordered env (insertPendingSend
      ⟨recvobj.ioOrder, some recvobj.receive, bytes⟩
      { t with inFlight := t.inFlight.erase recvobj }) := by
  have hin : ∀ sendobj : BufferObj,
      sendobj ∈ insertSend ⟨recvobj.ioOrder, some recvobj.receive, bytes⟩ t.sock.outOfOrderSends →
        sendobj = ⟨recvobj.ioOrder, some recvobj.receive, bytes⟩ ∨
          sendobj ∈ t.sock.outOfOrderSends := fun sendobj hs =>
    List.mem_cons.mp ((insertSend_perm _ _).mem_iff.mp hs)
  obtain ⟨horder, hle, hlt⟩ := h.inFlight recvobj hmem
  refine ⟨h.handed, ?_, h.lastSend, h.ioCount, h.posted, ?_, ?_, ?_, h.intact⟩
  · intro sendobj hs n hn
    rcases List.mem_append.mp hs with hs | hs
    · exact h.filled sendobj (List.mem_append_left _ hs) n hn
    · rcases hin sendobj hs with rfl | hs
      · simp only [Option.mem_def, Option.some.injEq] at hn
        rw [← hn, hfill]
      · exact h.filled sendobj (List.mem_append_right _ hs) n hn
  · exact fun other hother => h.inFlight other (List.mem_of_mem_erase hother)
  · intro sendobj hs
    rcases hin sendobj hs with rfl | hs
    · exact ⟨recvobj.receive, rfl, horder, hle, hlt, hlap⟩
    · exact h.listed sendobj hs
  · show ((t.inFlight.erase recvobj).map (fun r => some r.receive) ++
      (insertSend ⟨recvobj.ioOrder, some recvobj.receive, bytes⟩
        t.sock.outOfOrderSends).map (·.receive)).Nodup
    have hflight := (List.perm_cons_erase hmem).map (fun r : RecvObj => some r.receive)
    have hsends := (insertSend_perm ⟨recvobj.ioOrder, some recvobj.receive, bytes⟩
      t.sock.outOfOrderSends).map (·.receive)
    have hmove := (hsends.append_left _).trans
      (List.perm_middle.trans (hflight.symm.append_right _))
    exact hmove.nodup_iff.mpr h.distinct

theorem Ordered.erase (h : Ordered env t) (recvobj : RecvObj) :
    Ordered env { t with inFlight := t.inFlight.erase recvobj } := by
  refine ⟨h.handed, h.filled, h.lastSend, h.ioCount, h.posted, ?_, h.listed, ?_, h.intact⟩
  · exact fun other hother => h.inFlight other (List.mem_of_mem_erase hother)
  · exact h.distinct.sublist ((List.erase_sublist.map _).append_right _)

/-- The socket with another list of out-of-order sends. -/
def withSends (sends : List BufferObj) (t : Server) : Server :=
  { t with sock := { t.sock with outOfOrderSends := sends } }

theorem Ordered.postSend {sendobj : BufferObj}
    {rest : List BufferObj} (h : Ordered env (withSends (sendobj :: rest) t))
    (hnext : sendobj.ioOrder = t.sock.lastSendIssued) :
    Ordered env (withSends rest (postSend env sendobj t).1) := by
  have hhere : sendobj ∈ sendobj :: rest := List.mem_cons_self
  obtain ⟨n, hn, horder, hle, hlt, hturn⟩ := h.listed sendobj hhere
  have hlast : t.sock.lastSendIssued = orderOf env (receivesHanded t).length := h.lastSend
  have hfirst : n = (receivesHanded t).length :=
    orderOf_inj hle hturn (by rw [← horder, hnext]; exact hlast)
  have hdistinct : (t.inFlight.map (fun r => some r.receive) ++
      (some n :: rest.map (·.receive))).Nodup := by
    have := h.distinct
    rwa [show (withSends (sendobj :: rest) t).sequencing.outOfOrderSends =
      sendobj :: rest from rfl, List.map_cons, hn] at this
  obtain ⟨hnew, hothers⟩ := List.nodup_cons.mp (List.perm_middle.nodup_iff.mp hdistinct)
  have hlater : ∀ k, (receivesHanded t).length ≤ k →
      some k ∈ t.inFlight.map (fun r => some r.receive) ++
        rest.map (·.receive) → (receivesHanded t).length + 1 ≤ k := by
    intro k hk hmem
    rcases Nat.lt_or_eq_of_le hk with hlt | heq
    · exact hlt
    · rw [← heq, ← hfirst] at hmem
      exact absurd hmem hnew
  have hhanded : t.handed.filterMap (·.receive) = List.range (receivesHanded t).length := h.handed
  have hnow : receivesHanded (withSends rest (Iocp.postSend env sendobj t).1) =
        List.range ((receivesHanded t).length + 1) := by
    show (t.handed ++ [sendobj]).filterMap (·.receive) = _
    rw [List.filterMap_append, hhanded, List.filterMap_cons, hn,
      List.range_succ, hfirst, List.filterMap_nil]
  have hlen : (receivesHanded (withSends rest (Iocp.postSend env sendobj t).1)).length =
        (receivesHanded t).length + 1 := by
    rw [hnow, List.length_range]
  unfold Ordered
  rw [hlen]
  refine ⟨hnow, ?_, ?_, h.ioCount, ?_, ?_, ?_, hothers, h.intact⟩
  · intro other hother k hk
    refine h.filled other ?_ k hk
    have hmem : other ∈ (t.handed ++ [sendobj]) ++ rest := hother
    rwa [List.append_assoc] at hmem
  · calc t.sock.lastSendIssued + 1 = orderOf env (receivesHanded t).length + 1 := by rw [hlast]
      _ = orderOf env ((receivesHanded t).length + 1) := orderOf_succ _ _
  · rw [← hfirst]
    exact hlt
  · intro recvobj hmem
    obtain ⟨horder', hle', hlt'⟩ := h.inFlight recvobj hmem
    have hmem' : some recvobj.receive ∈
        t.inFlight.map (fun r => some r.receive) ++ rest.map (·.receive) :=
      List.mem_append_left _ (List.mem_map_of_mem hmem)
    exact ⟨horder', hlater _ hle' hmem', hlt'⟩
  · intro other hother
    obtain ⟨k, hk, horder', hle', hlt', hturn'⟩ := h.listed other (List.mem_cons_of_mem _ hother)
    have hmem : some k ∈ t.inFlight.map (fun r => some r.receive) ++ rest.map (·.receive) :=
      List.mem_append_right _ (hk ▸ List.mem_map_of_mem hother)
    exact ⟨k, hk, horder', hlater k hle' hmem, hlt', by omega⟩

/-- The loop of `DoSends` keeps the order.  Induction on the list: every round
hands over its head or stops. -/
theorem sendLoop_ordered (hposts : PostsSucceed env) {sends : List BufferObj}
    (h : Ordered env (withSends sends t)) :
    Ordered env (sendLoop env sends t).1 ∧ (sendLoop env sends t).2 = true := by
  induction sends generalizing t with
  | nil => exact ⟨h, rfl⟩
  | cons sendobj rest ih =>
      unfold sendLoop
      split
      next hnext =>
        have hposted : (countPost (postSend env sendobj t)).2 = true := by
          rw [countPost_snd]
          exact postSend_snd hposts sendobj t
        simp only [hposted, if_true]
        refine ih ?_
        refine (h.postSend hnext).of_eq ?_
        unfold countPost
        split <;> rfl
      next => exact ⟨h, rfl⟩

theorem doSends_ordered {sent : Server} {ok : Bool} (hposts : PostsSucceed env) (h : Ordered env t)
    (hcall : doSends env t = some (sent, ok)) : Ordered env sent ∧ ok = true := by
  have hloop : Ordered env (sendLoop env t.sock.outOfOrderSends t).1 ∧
      (sendLoop env t.sock.outOfOrderSends t).2 = true := sendLoop_ordered hposts h
  unfold doSends at hcall
  split at hcall
  · cases hcall
  · rw [Option.some.injEq] at hcall
    rw [hcall] at hloop
    exact hloop

/-! ## Handling a completion -/

/-- `P` holds before `DoSends` and `Q` behind it, and `Q` is about the sequencing. -/
structure KeptByHandling (env : Env) (P Q : Server → Prop) : Prop where
  weaken : ∀ {t}, Q t → P t
  of_eq : ∀ {t u}, Q t → u.sequencing = t.sequencing → Q u
  postRecv : ∀ {t}, Q t → Q (Iocp.postRecv env t).1
  doSends : ∀ {t sent ok}, P t → Iocp.doSends env t = some (sent, ok) → Q sent ∧ ok = true

section Handling
variable {env : Env} {P Q : Server → Prop} {t u : Server} {recvobj : RecvObj}

theorem freeSocketObj_sequencing (t : Server) : (freeSocketObj t).sequencing = t.sequencing := by
  unfold freeSocketObj
  split <;> rfl

theorem tcpError_sequencing (t : Server) : (tcpError t).sequencing = t.sequencing := by
  unfold tcpError
  simp only
  split
  · exact freeSocketObj_sequencing _
  · rfl

theorem KeptByHandling.finishIo {bCleanupSocket error : Bool} (h : KeptByHandling env P Q)
    (ht : Q t) (hcall : finishIo env bCleanupSocket error t = some u) : Q u := by
  have hnoted : Q (decrementOps (if error = true then setClosing t else t)) := by
    refine h.of_eq ht ?_
    split <;> rfl
  unfold Iocp.finishIo at hcall
  generalize decrementOps (if error = true then setClosing t else t) = noted at hnoted hcall
  simp only at hcall
  split at hcall
  · rw [Option.some.injEq] at hcall
    exact hcall ▸ h.of_eq hnoted (freeSocketObj_sequencing _)
  · split at hcall
    next => cases hcall
    next sent ok hsent =>
      obtain ⟨hsent', rfl⟩ := h.doSends (h.weaken hnoted) hsent
      split at hcall <;> rw [Option.some.injEq] at hcall <;> subst hcall
      · exact h.of_eq hsent' (freeSocketObj_sequencing _)
      · exact hsent'

theorem KeptByHandling.countPost {posted : Server × Bool} (h : KeptByHandling env P Q)
    (ht : Q posted.1) : Q (countPost posted).1 :=
  h.of_eq ht (countPost_sequencing posted)

theorem KeptByHandling.handleData {bytes : List UInt8} (h : KeptByHandling env P Q)
    (hqueued : P (insertPendingSend ⟨recvobj.ioOrder, some recvobj.receive, bytes⟩ t))
    (hcall : handleData env recvobj bytes t = some u) : Q u := by
  unfold Iocp.handleData at hcall
  simp only at hcall
  split at hcall
  · cases hcall
  · split at hcall
    next => cases hcall
    next sent hsent =>
      obtain ⟨hsent', -⟩ := h.doSends hqueued hsent
      exact h.finishIo (h.countPost (h.postRecv hsent')) hcall
    next sent hsent =>
      obtain ⟨hsent', -⟩ := h.doSends hqueued hsent
      exact h.finishIo hsent' hcall

theorem KeptByHandling.handleClose (h : KeptByHandling env P Q) (ht : Q t)
    (hcall : handleClose env t = some u) : Q u := by
  have hclosing : Q (setClosing t) := h.of_eq ht rfl
  unfold Iocp.handleClose at hcall
  split at hcall
  next => cases hcall
  next sent ok hsent =>
    obtain ⟨hsent', -⟩ := h.doSends (h.weaken hclosing) hsent
    exact h.finishIo hsent' hcall

theorem KeptByHandling.handleRead (h : KeptByHandling env P Q)
    (htaken : ¬ CarriesData env recvobj.receive → Q t)
    (hqueued : ∀ bytes, env.fill recvobj.receive = some bytes → CarriesData env recvobj.receive →
      P (insertPendingSend ⟨recvobj.ioOrder, some recvobj.receive, bytes⟩ t))
    (hcall : handleRead env recvobj t = some u) : Q u := by
  unfold Iocp.handleRead at hcall
  split at hcall
  next htcp hfill =>
    rw [Option.some.injEq] at hcall
    exact hcall ▸ h.of_eq (htaken (by simp [CarriesData, hfill])) (tcpError_sequencing _)
  next hudp hfill =>
    have hnone := htaken (by simp [CarriesData, hfill])
    exact h.finishIo (h.countPost (h.postRecv hnone)) hcall
  next htcp hfill =>
    exact h.handleClose (htaken (by simp [CarriesData, hfill, htcp])) hcall
  next byte bytes _ hfill =>
    exact h.handleData (hqueued _ hfill (by simp [CarriesData, hfill])) hcall
  next bytes hudp hfill =>
    exact h.handleData (hqueued _ hfill (by simp [CarriesData, hfill, hudp])) hcall

theorem KeptByHandling.handleWrite {error : Bool} (h : KeptByHandling env P Q) (ht : Q t)
    (hcall : handleWrite env error t = some u) : Q u := by
  unfold Iocp.handleWrite at hcall
  split at hcall
  · rw [Option.some.injEq] at hcall
    exact hcall ▸ h.of_eq ht (tcpError_sequencing _)
  · split at hcall
    next => cases hcall
    next sent ok hsent =>
      obtain ⟨hsent', -⟩ := h.doSends (h.weaken ht) hsent
      exact h.finishIo hsent' hcall

theorem KeptByHandling.postFirst (h : KeptByHandling env P Q) (ht : Q t) : Q (postFirst env t) := by
  have hposted : Q (Iocp.postRecv env { t with toPost := t.toPost - 1 }).1 :=
    h.postRecv (h.of_eq ht rfl)
  refine h.of_eq hposted ?_
  unfold Iocp.postFirst
  simp only
  split
  · rfl
  · split
    · rfl
    · split
      · exact freeSocketObj_sequencing _
      · rfl

theorem KeptByHandling.step {a : IoAction} (h : KeptByHandling env P Q) (ht : Q t)
    (htaken : ∀ recvobj ∈ t.inFlight, a = .recvCompletes recvobj →
      ¬ CarriesData env recvobj.receive → Q { t with inFlight := t.inFlight.erase recvobj })
    (hqueued : ∀ recvobj ∈ t.inFlight, a = .recvCompletes recvobj →
      ∀ bytes, env.fill recvobj.receive = some bytes → CarriesData env recvobj.receive →
        P (insertPendingSend ⟨recvobj.ioOrder, some recvobj.receive, bytes⟩
          { t with inFlight := t.inFlight.erase recvobj }))
    (hstep : ioStep env t a = some u) : Q u := by
  unfold ioStep at hstep
  split at hstep
  · cases hstep
  · cases a with
    | postFirst =>
        simp only [Option.ite_none_right_eq_some, Option.some.injEq] at hstep
        exact hstep.2 ▸ h.postFirst ht
    | countFirst =>
        simp only [Option.ite_none_right_eq_some, Option.some.injEq] at hstep
        exact hstep.2 ▸ h.of_eq ht rfl
    | recvCompletes recvobj =>
        simp only [Option.ite_none_right_eq_some] at hstep
        exact h.handleRead (htaken recvobj hstep.1 rfl) (hqueued recvobj hstep.1 rfl) hstep.2
    | sendCompletes error =>
        simp only [Option.ite_none_right_eq_some] at hstep
        have ht' : Q { t with sendsInFlight := t.sendsInFlight - 1 } := h.of_eq ht rfl
        exact h.handleWrite ht' hstep.2

end Handling

theorem keptByHandling_ordered (hposts : PostsSucceed env) :
    KeptByHandling env (Ordered env) (Ordered env) where
  weaken h := h
  of_eq h heq := h.of_eq heq
  postRecv h := h.postRecv hposts
  doSends h hcall := doSends_ordered hposts h hcall

/-! ## Runs -/

theorem ordered_create (env : Env) : Ordered env (Server.create env) := by
  unfold Server.create
  split
  next hudp =>
    refine ⟨rfl, ?_, ?_, ?_, ?_, ?_, ?_, ?_, rfl⟩ <;>
      simp [Server.sequencing, Server.idle, getSocketObj, orderOf, hudp, receivesHanded]
  next htcp =>
    have hsent : Ordered env (postSend env ⟨0, none, env.acceptData⟩ (Server.idle env)).1 := by
      refine ⟨rfl, ?_, ?_, ?_, ?_, ?_, ?_, ?_, rfl⟩ <;>
        simp [Server.sequencing, Server.idle, getSocketObj, orderOf, htcp, receivesHanded, postSend]
    dsimp only
    split
    · exact hsent.of_eq rfl
    · exact hsent.of_eq (freeSocketObj_sequencing _)

theorem ordered_step {a : IoAction} (hposts : PostsSucceed env) (h : Ordered env t)
    (hlap : NoLap env t a) (hstep : ioStep env t a = some u) : Ordered env u := by
  refine (keptByHandling_ordered hposts).step h (fun recvobj _ _ _ => h.erase recvobj) ?_ hstep
  rintro recvobj hmem rfl bytes hfill hdata
  exact h.insertPendingSend hmem hfill (hlap hdata)

/-! ## The order of the echo -/

theorem flatMap_buf_eq {handed : List BufferObj}
    (hfilled : ∀ sendobj ∈ handed, ∀ n ∈ sendobj.receive, env.fill n = some sendobj.buf) :
    (handed.filter (·.receive.isSome)).flatMap (·.buf) = (handed.filterMap (·.receive)).flatMap
        fun n => (env.fill n).getD [] := by
  induction handed with
  | nil => rfl
  | cons sendobj rest ih =>
      have hrest := ih fun other hother => hfilled other (List.mem_cons_of_mem _ hother)
      cases hreceive : sendobj.receive with
      | none => simp [hreceive, hrest]
      | some n =>
          have hfill := hfilled sendobj List.mem_cons_self n hreceive
          simp [hreceive, hrest, hfill]

theorem Ordered.inOrder (h : Ordered env t) : InOrder env t := by
  have hhanded : receivesHanded t = List.range (receivesHanded t).length := h.handed
  have hbytes : bytesEchoed t = (receivesHanded t).flatMap fun n => (env.fill n).getD [] :=
    flatMap_buf_eq fun sendobj hmem => h.filled sendobj (List.mem_append_left _ hmem)
  refine ⟨?_, ?_, fun _ => ?_⟩
  · rw [hhanded]
    exact List.pairwise_lt_range
  · intro n hn k hk _
    rw [hhanded, List.mem_range] at hn ⊢
    exact Nat.lt_trans hk hn
  · obtain ⟨more, hmore⟩ := Nat.exists_eq_add_of_le
      (show (receivesHanded t).length ≤ t.recvCalls from h.posted)
    rw [hbytes, bytesReceived, hmore, List.range_add, List.flatMap_append]
    rw [← hhanded]
    exact List.prefix_append _ _

/-- In every run in which the posts succeed and no receive completes with data
a full turn of the sequence numbers after the receive to be handed over next,
the echo is in order: whatever the number of receives kept posted and the
order in which completions are handled. -/
theorem echo_in_order_of_no_lap {env : Env} {as : List IoAction} {t : Server}
    (hposts : PostsSucceed env)
    (hrun : RunsTo (ioStep env) (NoLap env) (Server.create env) as t) :
    InOrder env t := by
  have hordered := hrun.invariant (Ordered env) (ordered_create env)
    fun t a u => ordered_step hposts
  exact hordered.inOrder

/-- A connection with two receives posted. -/
def echoEnv : Env :=
  { gProtocol := .tcp, gOverlappedCount := 2, acceptData := [0],
    fill := fun n => if n < 2 then some [1, 2] else none,
    recvPosts := fun _ => true, sendPosts := fun _ => true }

/-- Two receives on a connection; the second completes first. -/
theorem echo_in_order_of_no_lap_run :
    PostsSucceed echoEnv ∧
      ∃ t, RunsTo (ioStep echoEnv) (NoLap echoEnv) (Server.create echoEnv)
          [.countFirst, .postFirst, .countFirst, .postFirst, .countFirst,
           .recvCompletes ⟨2, 1⟩, .recvCompletes ⟨1, 0⟩] t ∧
        InOrder echoEnv t :=
  have hposts : PostsSucceed echoEnv := fun _ => ⟨rfl, rfl⟩
  have hrun := RunsTo.of_isSome (by decide)
  ⟨hposts, _, hrun, echo_in_order_of_no_lap hposts hrun⟩

/-! ## A full turn of the sequence numbers -/

/-- Fewer than `2^32` receives are outstanding. -/
def FewOutstanding (t : Server) (_ : IoAction) : Prop :=
  t.inFlight.length < 2 ^ 32

instance (t : Server) (a : IoAction) : Decidable (FewOutstanding t a) :=
  inferInstanceAs (Decidable (_ < _))

/-- A UDP socket with one receive posted: the first receive fails and so do
all others but the second and the one that gets its sequence number. -/
def lapEnv : Env :=
  { gProtocol := .udp, gOverlappedCount := 1, acceptData := [],
    fill := fun n =>
      if n = 1 then some [1] else if n = 2 ^ 32 then some [2] else none,
    recvPosts := fun _ => true, sendPosts := fun _ => true }

/-- The second receive waits for the first, which failed; receive `m` is in
flight. -/
def lapState (m : ℕ) : Server :=
  { sock :=
      { bClosing := true, outstandingOps := 1, lastSendIssued := 0,
        ioCountIssued := BitVec.ofNat 32 (m + 1),
        outOfOrderSends := [⟨1, some 1, [1]⟩] },
    freed := false, dangling := false, counting := false, toPost := 0,
    recvCalls := m + 1, sendCalls := 0,
    inFlight := [⟨BitVec.ofNat 32 m, m⟩], sendsInFlight := 0, handed := [] }

theorem lap_begin : RunsTo (ioStep lapEnv) FewOutstanding (Server.create lapEnv)
      [.postFirst, .countFirst, .recvCompletes ⟨0, 0⟩, .recvCompletes ⟨1, 1⟩] (lapState 2) :=
  .of_exec (by decide)

theorem lap_step (hm : 2 ≤ m) (hlt : m < 2 ^ 32) : ioStep lapEnv (lapState m)
      (.recvCompletes ⟨BitVec.ofNat 32 m, m⟩) = some (lapState (m + 1)) := by
  have hone : m ≠ 1 := by omega
  have hlap : m ≠ 2 ^ 32 := by omega
  have hfill : lapEnv.fill m = none := by simp only [lapEnv, hone, hlap, if_false]
  have hudp : lapEnv.gProtocol = .udp := rfl
  have hposts : lapEnv.recvPosts (m + 1) = true := rfl
  simp [ioStep, lapState, handleRead, hudp, hfill, hposts, ofNat_succ,
    postRecv, countPost, finishIo, doSends, sendLoop, setClosing, decrementOps]

theorem lap_run (hm : 2 ≤ m) (hle : m ≤ 2 ^ 32) :
    ∃ as, RunsTo (ioStep lapEnv) FewOutstanding (Server.create lapEnv) as (lapState m) := by
  induction m, hm using Nat.le_induction with
  | base => exact ⟨_, lap_begin⟩
  | succ m hm ih =>
      obtain ⟨as, hrun⟩ := ih (Nat.le_of_succ_le hle)
      have hfew : (1 : ℕ) < 2 ^ 32 := by decide
      exact ⟨_, hrun.snoc hfew (lap_step hm hle)⟩

/-- What becomes of `lapState m` when receive `m` has the number of the first
one and completes with data. -/
def lapEnd (m : ℕ) : Server :=
  { sock :=
      { bClosing := true, outstandingOps := 3, lastSendIssued := 2,
        ioCountIssued := BitVec.ofNat 32 (m + 2), outOfOrderSends := [] },
    freed := false, dangling := false, counting := false, toPost := 0,
    recvCalls := m + 2, sendCalls := 2,
    inFlight := [⟨BitVec.ofNat 32 (m + 1), m + 1⟩], sendsInFlight := 2,
    handed := [⟨0, some m, [2]⟩, ⟨1, some 1, [1]⟩] }

theorem lap_last (hm : m = 2 ^ 32) : ioStep lapEnv (lapState m)
      (.recvCompletes ⟨BitVec.ofNat 32 m, m⟩) = some (lapEnd m) := by
  have hone : m ≠ 1 := by omega
  have hfill : lapEnv.fill m = some [2] := by
    show (if m = 1 then some [1] else if m = 2 ^ 32 then some [2] else none) = _
    rw [if_neg hone, if_pos hm]
  have hzero : BitVec.ofNat 32 m = 0 := by
    rw [hm]
    rfl
  have hudp : lapEnv.gProtocol = .udp := rfl
  have hrecv : ∀ n, lapEnv.recvPosts n = true := fun _ => rfl
  have hsend : ∀ n, lapEnv.sendPosts n = true := fun _ => rfl
  simp [ioStep, lapState, lapEnd, handleRead, hudp, hfill, hzero, handleData,
    insertPendingSend, insertSend, doSends, sendLoop, postSend, hrecv, hsend,
    ofNat_succ, postRecv, countPost, finishIo, decrementOps]

/-- Fewer than `2^32` receives are outstanding and every post succeeds, and
still a receive is handed over before an earlier one with data. -/
theorem echo_overtaken_after_lap :
    ∃ as t, PostsSucceed lapEnv ∧
      RunsTo (ioStep lapEnv) FewOutstanding (Server.create lapEnv) as t ∧
      t.inFlight.length < 2 ^ 32 ∧ ¬ InOrder lapEnv t := by
  have hposts : PostsSucceed lapEnv := fun _ => ⟨rfl, rfl⟩
  have hfew : (1 : ℕ) < 2 ^ 32 := by decide
  obtain ⟨m, hm⟩ : ∃ m : ℕ, m = 2 ^ 32 := ⟨_, rfl⟩
  obtain ⟨as, hrun⟩ := lap_run (by omega : 2 ≤ m) (by omega)
  refine ⟨_, lapEnd m, hposts, hrun.snoc hfew (lap_last hm), hfew, ?_⟩
  intro hinOrder
  have hascending : [m, 1].Pairwise (· < ·) := hinOrder.ascending
  simp only [List.pairwise_cons, List.mem_singleton, forall_eq] at hascending
  omega

end MiscProjects.Iocp
