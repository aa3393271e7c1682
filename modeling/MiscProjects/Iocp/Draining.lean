import MiscProjects.Iocp.OrderedEcho

/-!
# No send is left behind

The list of out-of-order sends is sorted by the unsigned sequence numbers, and its
head is sent when it has the awaited number.  As long as no receive is put into the
list across the wrap of the numbers, and no receive carries data behind one that
does not, the list holds only receives that wait for an earlier one in flight.
-/

namespace MiscProjects.Iocp

open MiscProjects.Runs

/-- A receive completes with data only if all receives before it carry data, and its
sequence number is not less than the awaited one. -/
def InTurn (env : Env) (t : Server) : IoAction → Prop
  | .recvCompletes recvobj =>
      CarriesData env recvobj.receive →
        (∀ k < recvobj.receive, CarriesData env k) ∧
          recvobj.receive < (receivesHanded t).length + 2 ^ 32 ∧
          t.sock.lastSendIssued ≤ recvobj.ioOrder
  | _ => True

instance (env : Env) (t : Server) (a : IoAction) : Decidable (InTurn env t a) :=
  match a with
  | .recvCompletes _ => inferInstanceAs (Decidable (_ → _ ∧ _))
  | .postFirst | .countFirst | .sendCompletes _ => isTrue trivial

/-- The list is sorted by the sequence numbers, and what carries data and has not been
handed over is in flight or in the list. -/
structure Queued (env : Env) (t : Server) : Prop where
  ordered : Ordered env t
  ascending : t.sock.outOfOrderSends.Pairwise (·.ioOrder < ·.ioOrder)
  inTurn : ∀ sendobj ∈ t.sock.outOfOrderSends, t.sock.lastSendIssued ≤ sendobj.ioOrder
  follows : ∀ sendobj ∈ t.sock.outOfOrderSends, ∀ n ∈ sendobj.receive,
    ∀ k < n, CarriesData env k
  accounted : ∀ k, (receivesHanded t).length ≤ k → k < t.recvCalls → CarriesData env k →
    (∃ recvobj ∈ t.inFlight, recvobj.receive = k) ∨
      ∃ sendobj ∈ t.sock.outOfOrderSends, sendobj.receive = some k

/-- Nothing in the list can be sent. -/
structure Drained (env : Env) (t : Server) : Prop where
  queued : Queued env t
  waits : ∀ sendobj ∈ t.sock.outOfOrderSends, sendobj.ioOrder ≠ t.sock.lastSendIssued

section Draining
variable {env : Env} {t u : Server} {recvobj : RecvObj} {n : ℕ}

theorem Queued.of_eq (h : Queued env t) (heq : u.sequencing = t.sequencing) : Queued env u := by
  have hhanded : u.handed = t.handed := congrArg Sequencing.handed heq
  have hlast : u.sock.lastSendIssued = t.sock.lastSendIssued :=
    congrArg Sequencing.lastSendIssued heq
  have hcalls : u.recvCalls = t.recvCalls := congrArg Sequencing.recvCalls heq
  have hflight : u.inFlight = t.inFlight := congrArg Sequencing.inFlight heq
  have hsends : u.sock.outOfOrderSends = t.sock.outOfOrderSends :=
    congrArg Sequencing.outOfOrderSends heq
  obtain ⟨hordered, hascending, hturn, hfollows, haccounted⟩ := h
  refine ⟨hordered.of_eq heq, ?_, ?_, ?_, ?_⟩
  · rwa [hsends]
  · rwa [hsends, hlast]
  · rwa [hsends]
  · rw [receivesHanded, hhanded, hcalls, hflight, hsends]
    exact haccounted

theorem Drained.of_eq (h : Drained env t) (heq : u.sequencing = t.sequencing) : Drained env u := by
  have hlast : u.sock.lastSendIssued = t.sock.lastSendIssued :=
    congrArg Sequencing.lastSendIssued heq
  have hsends : u.sock.outOfOrderSends = t.sock.outOfOrderSends :=
    congrArg Sequencing.outOfOrderSends heq
  refine ⟨h.queued.of_eq heq, ?_⟩
  rw [hsends, hlast]
  exact h.waits

theorem Drained.nothing_left (h : Drained env t)
    (hdone : ∀ recvobj ∈ t.inFlight, n ≤ recvobj.receive) :
    ∀ sendobj ∈ t.sock.outOfOrderSends, ∀ k ∈ sendobj.receive, n ≤ k := by
  intro sendobj hmem k hk
  by_contra hlt
  obtain ⟨k', hk', horder, hle, hposted, -⟩ := h.queued.ordered.listed sendobj hmem
  obtain rfl : k' = k := Option.some.inj (hk'.symm.trans hk)
  have hlast : t.sock.lastSendIssued = orderOf env (receivesHanded t).length :=
    h.queued.ordered.lastSend
  -- the awaited receive is not this one, so that it carries data and comes before it
  have hbefore : (receivesHanded t).length < k' := by
    refine lt_of_le_of_ne hle fun heq => h.waits sendobj hmem ?_
    rw [horder, hlast, heq]
  have hdata : CarriesData env (receivesHanded t).length :=
    h.queued.follows sendobj hmem k' hk' _ hbefore
  rcases h.queued.accounted _ le_rfl (hbefore.trans hposted) hdata with
    ⟨recvobj, hflight, heq⟩ | ⟨awaited, hlisted, heq⟩
  · have hn := hdone recvobj hflight
    omega
  · obtain ⟨k'', hk'', horder', -⟩ := h.queued.ordered.listed awaited hlisted
    obtain rfl : k'' = (receivesHanded t).length := Option.some.inj (hk''.symm.trans heq)
    exact h.waits awaited hlisted (horder'.trans hlast.symm)

theorem Drained.handed (h : Drained env t) (hposted : n < t.recvCalls) (hdata : CarriesData env n)
    (hdone : ∀ recvobj ∈ t.inFlight, n < recvobj.receive) : n ∈ receivesHanded t := by
  have hrange : receivesHanded t = List.range (receivesHanded t).length := h.queued.ordered.handed
  rw [hrange, List.mem_range]
  by_contra hle
  rcases h.queued.accounted n (not_lt.mp hle) hposted hdata with
    ⟨recvobj, hflight, rfl⟩ | ⟨sendobj, hlisted, heq⟩
  · exact lt_irrefl _ (hdone recvobj hflight)
  · exact absurd (h.nothing_left hdone sendobj hlisted n heq) (Nat.not_succ_le_self n)

/-! ## The list -/

theorem insertSend_ascending {send : BufferObj} {sends : List BufferObj}
    (h : sends.Pairwise (·.ioOrder < ·.ioOrder))
    (hne : ∀ sendobj ∈ sends, sendobj.ioOrder ≠ send.ioOrder) :
    (insertSend send sends).Pairwise (·.ioOrder < ·.ioOrder) := by
  induction sends with
  | nil => exact List.pairwise_singleton _ _
  | cons ptr rest ih =>
      obtain ⟨hptr, hrest⟩ := List.pairwise_cons.mp h
      unfold insertSend
      split
      case isTrue hlt =>
        refine List.pairwise_cons.mpr ⟨fun sendobj hmem => ?_, h⟩
        rcases List.mem_cons.mp hmem with rfl | hmem
        · exact hlt
        · exact BitVec.lt_trans hlt (hptr sendobj hmem)
      case isFalse hge =>
        refine List.pairwise_cons.mpr ⟨fun sendobj hmem => ?_,
          ih hrest fun sendobj hmem => hne sendobj (List.mem_cons_of_mem _ hmem)⟩
        rcases List.mem_cons.mp ((insertSend_perm _ _).mem_iff.mp hmem) with rfl | hmem
        · have hptr' := hne ptr List.mem_cons_self
          bv_omega
        · exact hptr sendobj hmem

theorem Drained.insertPendingSend {bytes : List UInt8} (h : Drained env t)
    (hmem : recvobj ∈ t.inFlight) (hfill : env.fill recvobj.receive = some bytes)
    (hfollows : ∀ k < recvobj.receive, CarriesData env k)
    (hlap : recvobj.receive < (receivesHanded t).length + 2 ^ 32)
    (hturn : t.sock.lastSendIssued ≤ recvobj.ioOrder) :
    Queued env (insertPendingSend ⟨recvobj.ioOrder, some recvobj.receive, bytes⟩
      { t with inFlight := t.inFlight.erase recvobj }) := by
  have hin : ∀ sendobj : BufferObj,
      sendobj ∈ insertSend ⟨recvobj.ioOrder, some recvobj.receive, bytes⟩ t.sock.outOfOrderSends ↔
        sendobj = ⟨recvobj.ioOrder, some recvobj.receive, bytes⟩ ∨
          sendobj ∈ t.sock.outOfOrderSends := fun sendobj =>
    (insertSend_perm _ _).mem_iff.trans List.mem_cons
  obtain ⟨horder, hle, -⟩ := h.queued.ordered.inFlight recvobj hmem
  refine ⟨h.queued.ordered.insertPendingSend hmem hfill hlap, ?_, ?_, ?_, ?_⟩
  · refine insertSend_ascending h.queued.ascending fun sendobj hlisted heq => ?_
    obtain ⟨k, hk, horder', hle', -, hlap'⟩ := h.queued.ordered.listed sendobj hlisted
    have hsame : k = recvobj.receive := by
      have horders : orderOf env k = orderOf env recvobj.receive :=
        horder'.symm.trans (heq.trans horder)
      rcases le_total k recvobj.receive with hkn | hnk
      · exact (orderOf_inj hkn (by omega) horders.symm).symm
      · exact orderOf_inj hnk (by omega) horders
    have hdisjoint := (List.nodup_append.mp h.queued.ordered.distinct).2.2
    refine hdisjoint _ (List.mem_map_of_mem hmem) _ (List.mem_map_of_mem hlisted) ?_
    rw [hk, hsame]
  · intro sendobj hs
    rcases (hin sendobj).mp hs with rfl | hs
    · exact hturn
    · exact h.queued.inTurn sendobj hs
  · intro sendobj hs k hk
    rcases (hin sendobj).mp hs with rfl | hs
    · obtain rfl : recvobj.receive = k := Option.some.inj hk
      exact hfollows
    · exact h.queued.follows sendobj hs k hk
  · intro k hnext hposted hdata
    rcases h.queued.accounted k hnext hposted hdata with ⟨other, hother, rfl⟩ | ⟨sendobj, hs, heq⟩
    · rcases eq_or_ne other recvobj with rfl | hne
      · exact .inr ⟨_, (hin _).mpr (.inl rfl), rfl⟩
      · exact .inl ⟨other, (List.mem_erase_of_ne hne).mpr hother, rfl⟩
    · exact .inr ⟨sendobj, (hin _).mpr (.inr hs), heq⟩

theorem Drained.erase (h : Drained env t) (hdata : ¬ CarriesData env recvobj.receive) :
    Drained env { t with inFlight := t.inFlight.erase recvobj } := by
  refine ⟨⟨h.queued.ordered.erase recvobj, h.queued.ascending, h.queued.inTurn,
    h.queued.follows, fun k hnext hposted hk => ?_⟩, h.waits⟩
  rcases h.queued.accounted k hnext hposted hk with ⟨other, hother, rfl⟩ | hlisted
  · refine .inl ⟨other, (List.mem_erase_of_ne ?_).mpr hother, rfl⟩
    rintro rfl
    exact hdata hk
  · exact .inr hlisted

theorem Drained.postRecv (hposts : PostsSucceed env) (h : Drained env t) :
    Drained env (postRecv env t).1 := by
  have hflight : (Iocp.postRecv env t).1.inFlight =
      t.inFlight ++ [⟨t.sock.ioCountIssued, t.recvCalls⟩] := by
    simp [Iocp.postRecv, (hposts t.recvCalls).1]
  refine ⟨⟨h.queued.ordered.postRecv hposts, h.queued.ascending, h.queued.inTurn,
    h.queued.follows, fun k hnext hposted hdata => ?_⟩, h.waits⟩
  rw [hflight]
  rcases Nat.lt_succ_iff_lt_or_eq.mp hposted with hlt | rfl
  · rcases h.queued.accounted k hnext hlt hdata with ⟨recvobj, hmem, heq⟩ | hlisted
    · exact .inl ⟨recvobj, List.mem_append_left _ hmem, heq⟩
    · exact .inr hlisted
  · exact .inl ⟨_, List.mem_append_right _ List.mem_cons_self, rfl⟩

theorem Queued.postSend {sendobj : BufferObj} {rest : List BufferObj}
    (h : Queued env (withSends (sendobj :: rest) t))
    (hnext : sendobj.ioOrder = t.sock.lastSendIssued) :
    Queued env (withSends rest (postSend env sendobj t).1) := by
  obtain ⟨hhead, hrest⟩ := List.pairwise_cons.mp h.ascending
  obtain ⟨n, hn, horder, hle, -, hlap⟩ := h.ordered.listed sendobj List.mem_cons_self
  have hlast : t.sock.lastSendIssued = orderOf env (receivesHanded t).length := h.ordered.lastSend
  have hfirst : n = (receivesHanded t).length :=
    orderOf_inj hle hlap (by rw [← horder, hnext]; exact hlast)
  have hordered := h.ordered.postSend hnext
  have hlen : (receivesHanded (withSends rest (Iocp.postSend env sendobj t).1)).length =
      (receivesHanded t).length + 1 := by
    show ((t.handed ++ [sendobj]).filterMap (·.receive)).length = _
    rw [List.filterMap_append, List.length_append, List.filterMap_cons, hn]
    rfl
  refine ⟨hordered, hrest, fun other hother => ?_, fun other hother => ?_,
    fun k hk hposted hdata => ?_⟩
  · have hlt : t.sock.lastSendIssued < other.ioOrder := hnext ▸ hhead other hother
    show t.sock.lastSendIssued + 1 ≤ other.ioOrder
    bv_omega
  · exact h.follows other (List.mem_cons_of_mem _ hother)
  · rw [hlen] at hk
    rcases h.accounted k (Nat.le_of_succ_le hk) hposted hdata with hflight | ⟨other, hother, heq⟩
    · exact .inl hflight
    · rcases List.mem_cons.mp hother with rfl | hother
      · obtain rfl : n = k := Option.some.inj (hn.symm.trans heq)
        omega
      · exact .inr ⟨other, hother, heq⟩

/-- The loop of `DoSends` drains the list.  Induction on the list: every round hands over
its head or stops. -/
theorem sendLoop_drained (hposts : PostsSucceed env) {sends : List BufferObj}
    (h : Queued env (withSends sends t)) :
    Drained env (sendLoop env sends t).1 ∧ (sendLoop env sends t).2 = true := by
  induction sends generalizing t with
  | nil => exact ⟨⟨h, fun sendobj hmem => absurd hmem List.not_mem_nil⟩, rfl⟩
  | cons sendobj rest ih =>
      unfold sendLoop
      split
      case isTrue hnext =>
        have hposted : (countPost (postSend env sendobj t)).2 = true := by
          rw [countPost_snd]
          exact postSend_snd hposts sendobj t
        simp only [hposted, if_true]
        refine ih ((h.postSend hnext).of_eq ?_)
        unfold countPost
        split <;> rfl
      case isFalse hnext =>
        refine ⟨⟨h, fun other hmem => ?_⟩, rfl⟩
        rcases List.mem_cons.mp hmem with rfl | hmem
        · exact hnext
        · have hlt : sendobj.ioOrder < other.ioOrder :=
            (List.pairwise_cons.mp h.ascending).1 other hmem
          have hge : t.sock.lastSendIssued ≤ sendobj.ioOrder := h.inTurn sendobj List.mem_cons_self
          show other.ioOrder ≠ t.sock.lastSendIssued
          bv_omega

theorem doSends_drained (hposts : PostsSucceed env) (h : Queued env t) {ok : Bool}
    (hcall : doSends env t = some (u, ok)) : Drained env u ∧ ok = true := by
  have hloop : Drained env (sendLoop env t.sock.outOfOrderSends t).1 ∧
      (sendLoop env t.sock.outOfOrderSends t).2 = true := sendLoop_drained hposts h
  unfold doSends at hcall
  split at hcall
  · cases hcall
  · rw [Option.some.injEq] at hcall
    rw [hcall] at hloop
    exact hloop

/-! ## Runs -/

theorem keptByHandling_drained (hposts : PostsSucceed env) :
    KeptByHandling env (Queued env) (Drained env) where
  weaken h := h.queued
  of_eq h heq := h.of_eq heq
  postRecv h := h.postRecv hposts
  doSends h hcall := doSends_drained hposts h hcall

theorem Drained.step {a : IoAction} (hposts : PostsSucceed env) (h : Drained env t)
    (hturn : InTurn env t a) (hstep : ioStep env t a = some u) : Drained env u := by
  refine (keptByHandling_drained hposts).step h (fun recvobj _ _ hdata => h.erase hdata) ?_ hstep
  rintro recvobj hmem rfl bytes hfill hdata
  obtain ⟨hfollows, hlap, hle⟩ := hturn hdata
  exact h.insertPendingSend hmem hfill hfollows hlap hle

theorem drained_create (hposts : PostsSucceed env) : Drained env (Server.create env) := by
  have hempty : (Server.create env).sock.outOfOrderSends = [] ∧
      (Server.create env).recvCalls = 0 := by
    unfold Server.create
    split
    · exact ⟨rfl, rfl⟩
    · have hposted := postSend_snd hposts ⟨0, none, env.acceptData⟩ (Server.idle env)
      simp only [hposted, if_true]
      exact ⟨rfl, rfl⟩
  obtain ⟨hsends, hcalls⟩ := hempty
  refine ⟨⟨ordered_create env, ?_, ?_, ?_, fun k _ hposted _ => ?_⟩, ?_⟩
  · rw [hsends]
    exact .nil
  · simp [hsends]
  · simp [hsends]
  · rw [hcalls] at hposted
    exact absurd hposted (Nat.not_lt_zero k)
  · simp [hsends]

theorem drained_of_run {as : List IoAction} (hposts : PostsSucceed env)
    (hrun : RunsTo (ioStep env) (InTurn env) (Server.create env) as t) : Drained env t :=
  hrun.invariant (Drained env) (drained_create hposts)
    fun _ _ _ h hturn hstep => h.step hposts hturn hstep

/-- In every run on a connection in which all posts succeed, no receive carries data behind
one without, and none completes across the wrap of the numbers: when the receives before `n`
have completed, none of them is left in the list of out-of-order sends. -/
theorem no_send_left_behind {as : List IoAction} (hposts : PostsSucceed env)
    (hrun : RunsTo (ioStep env) (InTurn env) (Server.create env) as t) (n : ℕ)
    (hdone : ∀ recvobj ∈ t.inFlight, n ≤ recvobj.receive) :
    ∀ sendobj ∈ t.sock.outOfOrderSends, ∀ k ∈ sendobj.receive, n ≤ k :=
  (drained_of_run hposts hrun).nothing_left hdone

/-- In every run on a UDP socket in which all posts succeed, no receive succeeds behind one
that fails, and none completes across the wrap of the numbers: a datagram has been handed to
`WSASendTo` when the receives up to its own have completed. -/
theorem datagrams_handed {as : List IoAction} (hudp : env.gProtocol = .udp)
    (hposts : PostsSucceed env)
    (hrun : RunsTo (ioStep env) (InTurn env) (Server.create env) as t) {bytes : List UInt8}
    (hposted : n < t.recvCalls) (hfill : env.fill n = some bytes)
    (hdone : ∀ recvobj ∈ t.inFlight, n < recvobj.receive) :
    ∃ sendobj ∈ t.handed, sendobj.receive = some n ∧ sendobj.buf = bytes := by
  have h := drained_of_run hposts hrun
  have hdata : CarriesData env n := by
    simp [CarriesData, hfill, hudp]
  obtain ⟨sendobj, hmem, hn⟩ := List.mem_filterMap.mp (h.handed hposted hdata hdone)
  have hbuf := h.queued.ordered.filled sendobj (List.mem_append_left _ hmem) n hn
  exact ⟨sendobj, hmem, hn, (Option.some.inj (hfill.symm.trans hbuf)).symm⟩

end Draining

/-- Two receives on a connection; the second completes first. -/
theorem no_send_left_behind_run :
    PostsSucceed echoEnv ∧
      ∃ t, RunsTo (ioStep echoEnv) (InTurn echoEnv) (Server.create echoEnv)
          [.countFirst, .postFirst, .countFirst, .postFirst, .countFirst,
           .recvCompletes ⟨2, 1⟩, .recvCompletes ⟨1, 0⟩] t ∧
        ∀ sendobj ∈ t.sock.outOfOrderSends, ∀ k ∈ sendobj.receive, 2 ≤ k :=
  have hposts : PostsSucceed echoEnv := fun _ => ⟨rfl, rfl⟩
  have hrun := RunsTo.of_isSome (by decide)
  ⟨hposts, _, hrun, no_send_left_behind hposts hrun 2 (by decide)⟩

/-! ## The wrap of the sequence numbers -/

/-- A connection with two receives posted, on which bytes come for ever. -/
def bytesEnv : Env :=
  { gProtocol := .tcp, gOverlappedCount := 2, acceptData := [], fill := fun _ => some [1],
    recvPosts := fun _ => true, sendPosts := fun _ => true }

/-- The first `m` receives have completed in order, and no send has completed. -/
def echoed (m : ℕ) : Server :=
  { sock :=
      { bClosing := false, outstandingOps := m + 3, lastSendIssued := BitVec.ofNat 32 (m + 1),
        ioCountIssued := BitVec.ofNat 32 (m + 3), outOfOrderSends := [] },
    freed := false, dangling := false, counting := false, toPost := 0,
    recvCalls := m + 2, sendCalls := m + 1,
    inFlight := [⟨BitVec.ofNat 32 (m + 1), m⟩, ⟨BitVec.ofNat 32 (m + 2), m + 1⟩],
    sendsInFlight := m + 1,
    handed := ⟨0, none, []⟩ :: (List.range m).map fun n => ⟨BitVec.ofNat 32 (n + 1), some n, [1]⟩ }

theorem echoed_begin : RunsTo (ioStep bytesEnv) FewOutstanding (Server.create bytesEnv)
      [.countFirst, .postFirst, .countFirst, .postFirst, .countFirst] (echoed 0) :=
  .of_exec (by decide)

theorem echoed_step (m : ℕ) :
    ioStep bytesEnv (echoed m) (.recvCompletes ⟨BitVec.ofNat 32 (m + 1), m⟩) =
      some (echoed (m + 1)) := by
  have htcp : bytesEnv.gProtocol = .tcp := rfl
  have hfill : bytesEnv.fill m = some [1] := rfl
  have hrecv : ∀ n, bytesEnv.recvPosts n = true := fun _ => rfl
  have hsend : ∀ n, bytesEnv.sendPosts n = true := fun _ => rfl
  have hops : (m : ℤ) + 3 + 1 + 1 - 1 = (m : ℤ) + 1 + 3 := by omega
  have hbusy : ¬ (m : ℤ) + 1 + 3 = 0 := by omega
  simp [ioStep, echoed, handleRead, htcp, hfill, handleData, insertPendingSend, insertSend,
    doSends, sendLoop, postSend, hrecv, hsend, ofNat_succ, postRecv, countPost, finishIo,
    decrementOps, hops, hbusy, List.range_succ]

theorem echoed_run (m : ℕ) :
    ∃ as, RunsTo (ioStep bytesEnv) FewOutstanding (Server.create bytesEnv) as (echoed m) := by
  induction m with
  | zero => exact ⟨_, echoed_begin⟩
  | succ m ih =>
      obtain ⟨as, hrun⟩ := ih
      have hfew : (2 : ℕ) < 2 ^ 32 := by decide
      exact ⟨_, hrun.snoc hfew (echoed_step m)⟩

/-- `sends` are in the list, and receive `m` is the next one to hand over. -/
def awaiting (m : ℕ) (calls : ℕ) (inFlight : List RecvObj) (sends : List BufferObj) : Server :=
  { echoed m with
    sock := { (echoed m).sock with
      ioCountIssued := BitVec.ofNat 32 (calls + 1), outOfOrderSends := sends },
    recvCalls := calls, inFlight := inFlight }

section Wrap
variable {m : ℕ}

theorem ofNat_wrap (hm : m + 2 = 2 ^ 32) :
    BitVec.ofNat 32 (m + 1) = 4294967295#32 ∧ BitVec.ofNat 32 (m + 2) = 0#32 := by
  have hlast : m + 1 = 4294967295 := by omega
  rw [hlast, hm]
  exact ⟨rfl, rfl⟩

theorem wrap_first (hm : m + 2 = 2 ^ 32) :
    ioStep bytesEnv (echoed m) (.recvCompletes ⟨BitVec.ofNat 32 (m + 2), m + 1⟩) =
      some (awaiting m (m + 3) [⟨BitVec.ofNat 32 (m + 1), m⟩, ⟨BitVec.ofNat 32 (m + 3), m + 2⟩]
        [⟨0#32, some (m + 1), [1]⟩]) := by
  obtain ⟨hlast, hzero⟩ := ofNat_wrap hm
  have htcp : bytesEnv.gProtocol = .tcp := rfl
  have hfill : bytesEnv.fill (m + 1) = some [1] := rfl
  have hrecv : ∀ n, bytesEnv.recvPosts n = true := fun _ => rfl
  have hops : (m : ℤ) + 3 + 1 - 1 = (m : ℤ) + 3 := by omega
  have hbusy : ¬ (m : ℤ) + 3 = 0 := by omega
  simp [ioStep, echoed, awaiting, handleRead, htcp, hfill, handleData, insertPendingSend,
    insertSend, doSends, sendLoop, hrecv, ofNat_succ, postRecv, countPost, finishIo,
    decrementOps, hops, hbusy, hlast, hzero]

theorem wrap_second (hm : m + 2 = 2 ^ 32) : ioStep bytesEnv
        (awaiting m (m + 3) [⟨BitVec.ofNat 32 (m + 1), m⟩, ⟨BitVec.ofNat 32 (m + 3), m + 2⟩]
          [⟨0#32, some (m + 1), [1]⟩]) (.recvCompletes ⟨BitVec.ofNat 32 (m + 1), m⟩) =
      some (awaiting m (m + 4) [⟨BitVec.ofNat 32 (m + 3), m + 2⟩, ⟨BitVec.ofNat 32 (m + 4), m + 3⟩]
        [⟨0#32, some (m + 1), [1]⟩, ⟨4294967295#32, some m, [1]⟩]) := by
  obtain ⟨hlast, hzero⟩ := ofNat_wrap hm
  have htcp : bytesEnv.gProtocol = .tcp := rfl
  have hfill : bytesEnv.fill m = some [1] := rfl
  have hrecv : ∀ n, bytesEnv.recvPosts n = true := fun _ => rfl
  have hops : (m : ℤ) + 3 + 1 - 1 = (m : ℤ) + 3 := by omega
  have hbusy : ¬ (m : ℤ) + 3 = 0 := by omega
  simp [ioStep, echoed, awaiting, handleRead, htcp, hfill, handleData, insertPendingSend,
    insertSend, doSends, sendLoop, hrecv, ofNat_succ, postRecv, countPost, finishIo,
    decrementOps, hops, hbusy, hlast]

end Wrap

/-- Fewer than `2^32` receives are outstanding, every post succeeds and every receive carries
data, and still two receives are left in the list when all before them have completed. -/
theorem sends_left_behind_after_wrap :
    ∃ as t n, PostsSucceed bytesEnv ∧ (∀ k, CarriesData bytesEnv k) ∧
      RunsTo (ioStep bytesEnv) FewOutstanding (Server.create bytesEnv) as t ∧
      (∀ recvobj ∈ t.inFlight, n ≤ recvobj.receive) ∧
      ∃ sendobj ∈ t.sock.outOfOrderSends, ∃ k ∈ sendobj.receive, k < n := by
  have hposts : PostsSucceed bytesEnv := fun _ => ⟨rfl, rfl⟩
  have hdata : ∀ k, CarriesData bytesEnv k := fun k => by simp [CarriesData, bytesEnv]
  have hfew : (2 : ℕ) < 2 ^ 32 := by decide
  obtain ⟨m, hm⟩ : ∃ m : ℕ, m + 2 = 2 ^ 32 := ⟨2 ^ 32 - 2, rfl⟩
  obtain ⟨as, hrun⟩ := echoed_run m
  have hwrap := (hrun.snoc hfew (wrap_first hm)).snoc hfew (wrap_second hm)
  refine ⟨_, _, m + 2, hposts, hdata, hwrap, ?_, ?_⟩
  · simp [awaiting]
  · exact ⟨_, List.mem_cons_self, m + 1, rfl, Nat.lt_succ_self _⟩

/-! ## A receive that fails -/

/-- Two receives on a UDP socket, of which the first fails. -/
def failsFirst : Env :=
  { gProtocol := .udp, gOverlappedCount := 2, acceptData := [],
    fill := fun n => if n = 0 then none else some [7],
    recvPosts := fun _ => true, sendPosts := fun _ => true }

/-- Two receives on a UDP socket, which both succeed. -/
def bothArrive : Env := { failsFirst with fill := fun _ => some [7] }

theorem datagrams_handed_bothArrive :
    ∃ t, RunsTo (ioStep bothArrive) (InTurn bothArrive) (Server.create bothArrive)
        [.postFirst, .countFirst, .postFirst, .countFirst, .recvCompletes ⟨1, 1⟩,
         .recvCompletes ⟨0, 0⟩] t ∧
      ∃ sendobj ∈ t.handed, sendobj.receive = some 1 ∧ sendobj.buf = [7] :=
  have hrun := RunsTo.of_isSome (by decide)
  ⟨_, hrun, datagrams_handed rfl (fun _ => ⟨rfl, rfl⟩) hrun (by decide) rfl (by decide)⟩

/-- The first receive fails and is posted again, under another number than the one that the
datagram of the second waits for. -/
theorem datagram_held_after_error :
    ∃ t, RunsTo (ioStep failsFirst) Always (Server.create failsFirst)
        [.postFirst, .countFirst, .postFirst, .countFirst, .recvCompletes ⟨0, 0⟩,
         .recvCompletes ⟨1, 1⟩] t ∧
      1 < t.recvCalls ∧ failsFirst.fill 1 = some [7] ∧
      (∀ recvobj ∈ t.inFlight, 1 < recvobj.receive) ∧ t.handed = [] :=
  ⟨_, RunsTo.of_isSome (by decide), by decide, rfl, by decide, by decide⟩

end MiscProjects.Iocp
