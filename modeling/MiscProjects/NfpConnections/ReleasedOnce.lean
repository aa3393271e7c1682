import MiscProjects.NfpConnections.Ownership

/-!
# When everything is released once

Every step keeps the invariants; the clean steps are exactly those that neither put a socket or a
connection beyond reach nor delete a connection twice.  As nothing can make up for a step that is
not clean, a run that comes to rest has released everything once exactly if all its steps are
clean.
-/

namespace MiscProjects.NfpConnections.Ownership

open Function (update)
open Nfp (Role)
open Resources Runs

/-! ## The end of the queue -/

section Unload
variable {s t : State} {c : ConnectionPtr} {cs : List ConnectionPtr} {x : ℕ}

/-- How often `~CMyQueue` and the receive thread together delete a connection. -/
def deletions (s : State) (c : ConnectionPtr) : List ConnectionPtr :=
  if (s.connection c).fInboundConnection then [c, c] else [c]

/-- What the loop over these connections leaves. -/
structure Destroyed (cs : List ConnectionPtr) (s t : State) : Prop where
  listener : SameListener s t
  connections : t.connections = s.connections
  opened : t.opened = s.opened
  file : t.file = s.file
  ended : ∀ c ∈ cs, (t.connection c).receiving = false
  untouched : ∀ c, c ∉ cs → t.connection c = s.connection c
  deleted : t.deleted = s.deleted ++ cs.flatMap (deletions s)
  sound : s.sockets.Sound → t.sockets.Sound
  lost : ∀ x, t.sockets.Lost x ↔ s.sockets.Lost x
  closed : ∀ c ∈ cs, t.sockets.holder (.socket c) = none
  kept : ∀ c, c ∉ cs → t.sockets.holder (.socket c) = s.sockets.holder (.socket c)

theorem destroyed_nil : Destroyed [] s s := by
  constructor
  case listener => exact ⟨rfl, rfl, rfl, rfl, rfl, rfl, rfl⟩
  all_goals simp

theorem destroyed_single (cs : List ConnectionPtr) (hstate : (s.connection c).state = .established)
    (hreceiving : (s.connection c).receiving = true) :
    Destroyed [c] s (destroy c { s with connectionHead := cs }) := by
  have heq := destroy_eq (s := { s with connectionHead := cs }) hstate hreceiving
  simp only [heq, State.ended, State.closesocket]
  constructor
  case listener => constructor <;> simp
  case sound => exact fun hs => hs.release _
  case lost => exact fun x => lost_release_iff
  case deleted =>
    rcases hinbound : (s.connection c).fInboundConnection
    all_goals simp [deletions, hinbound]
  all_goals simp +contextual

theorem SameListener.trans {r : State} (hst : SameListener s t) (htr : SameListener t r) :
    SameListener s r := by
  obtain ⟨h1, h2, h3, h4, h5, h6, h7⟩ := hst
  obtain ⟨k1, k2, k3, k4, k5, k6, k7⟩ := htr
  exact ⟨k1.trans h1, k2.trans h2, k3.trans h3, k4.trans h4, k5.trans h5, k6.trans h6, k7.trans h7⟩

theorem Destroyed.cons {r : State} (hc : c ∉ cs) (hfirst : Destroyed [c] s t)
    (hrest : Destroyed cs t r) : Destroyed (c :: cs) s r := by
  have hne : ∀ d ∈ cs, d ∉ [c] := by
    intro d hd hdc
    exact hc (List.mem_singleton.1 hdc ▸ hd)
  have hdeletions : cs.flatMap (deletions t) = cs.flatMap (deletions s) := by
    apply List.flatMap_congr
    intro d hd
    rw [deletions, hfirst.untouched d (hne d hd)]
    rfl
  refine ⟨hfirst.listener.trans hrest.listener, hrest.connections.trans hfirst.connections,
    hrest.opened.trans hfirst.opened, hrest.file.trans hfirst.file, ?_, ?_, ?_,
    fun hs => hrest.sound (hfirst.sound hs), fun x => (hrest.lost x).trans (hfirst.lost x), ?_, ?_⟩
  · intro d hd
    by_cases hmem : d ∈ cs
    · exact hrest.ended d hmem
    · rw [hrest.untouched d hmem]
      exact hfirst.ended d (List.mem_singleton.2 ((List.mem_cons.1 hd).resolve_right hmem))
  · intro d hd
    obtain ⟨hdc, hmem⟩ := not_or.1 (mt List.mem_cons.2 hd)
    exact (hrest.untouched d hmem).trans (hfirst.untouched d (by simpa using hdc))
  · rw [hrest.deleted, hfirst.deleted, hdeletions, List.append_assoc, List.flatMap_cons]
    simp
  · intro d hd
    by_cases hmem : d ∈ cs
    · exact hrest.closed d hmem
    · rw [hrest.kept d hmem]
      exact hfirst.closed d (List.mem_singleton.2 ((List.mem_cons.1 hd).resolve_right hmem))
  · intro d hd
    obtain ⟨hdc, hmem⟩ := not_or.1 (mt List.mem_cons.2 hd)
    exact (hrest.kept d hmem).trans (hfirst.kept d (by simpa using hdc))

theorem destroyed_destroyAll (hnodup : cs.Nodup)
    (hstate : ∀ c ∈ cs, (s.connection c).state = .established)
    (hreceiving : ∀ c ∈ cs, (s.connection c).receiving = true) : Destroyed cs s (destroyAll cs s) ∧
      (s.connectionHead = cs → (destroyAll cs s).connectionHead = []) := by
  induction cs generalizing s with
  | nil => exact ⟨destroyed_nil, id⟩
  | cons c cs ih =>
      obtain ⟨hc, hnodup⟩ := List.nodup_cons.1 hnodup
      have hestablished := hstate c (List.mem_cons_self ..)
      have hreceives := hreceiving c (List.mem_cons_self ..)
      have hfirst := destroyed_single cs hestablished hreceives
      have hhead : (destroy c { s with connectionHead := cs }).connectionHead = cs := by
        rw [destroy_eq (s := { s with connectionHead := cs }) hestablished hreceives]
        exact List.erase_of_not_mem hc
      have hsame : ∀ d ∈ cs,
          (destroy c { s with connectionHead := cs }).connection d = s.connection d := by
        intro d hd
        exact hfirst.untouched d fun hdc => hc (List.mem_singleton.1 hdc ▸ hd)
      obtain ⟨hrest, hempty⟩ := ih hnodup (s := destroy c { s with connectionHead := cs })
        (fun d hd => (congrArg _ (hsame d hd)).trans (hstate d (List.mem_cons_of_mem _ hd)))
        (fun d hd => (congrArg _ (hsame d hd)).trans (hreceiving d (List.mem_cons_of_mem _ hd)))
      exact ⟨hfirst.cons hc hrest, fun _ => hempty hhead⟩

theorem mem_deletions {d : ConnectionPtr} : d ∈ deletions s c ↔ d = c := by
  rcases hinbound : (s.connection c).fInboundConnection
  all_goals simp [deletions, hinbound]

theorem nodup_deletions : (deletions s c).Nodup ↔ (s.connection c).fInboundConnection = false := by
  rcases hinbound : (s.connection c).fInboundConnection
  all_goals simp [deletions, hinbound]

theorem nodup_destroyed_iff (hnodup : cs.Nodup) (halive : ∀ c ∈ cs, c ∉ s.deleted) :
    (s.deleted ++ cs.flatMap (deletions s)).Nodup ↔
      s.deleted.Nodup ∧ ∀ c ∈ cs, (s.connection c).fInboundConnection = false := by
  have hmem : ∀ c, c ∈ cs.flatMap (deletions s) ↔ c ∈ cs := by
    intro c
    simp [List.mem_flatMap, mem_deletions]
  rw [List.nodup_append', List.nodup_flatMap]
  constructor
  · rintro ⟨hdeleted, ⟨hsingle, -⟩, -⟩
    exact ⟨hdeleted, fun c hc => nodup_deletions.1 (hsingle c hc)⟩
  · rintro ⟨hdeleted, hout⟩
    refine ⟨hdeleted, ⟨fun c hc => nodup_deletions.2 (hout c hc), ?_⟩, ?_⟩
    · refine hnodup.imp ?_
      intro c d hne e hc hd
      exact hne ((mem_deletions.1 hc).symm.trans (mem_deletions.1 hd))
    · intro c hc hc'
      exact halive c ((hmem c).1 hc') hc

theorem Connected.unload (hs : Connected s) (hopened : s.opened = []) :
    Connected { destroyAll s.connectionHead s with unloaded := true } := by
  obtain ⟨h, hempty⟩ := destroyed_destroyAll hs.nodup hs.state fun c => (hs.receiving c).2
  have hhead := hempty rfl
  have hnone : ∀ f c, (s.file f).pConnection ≠ some c := by
    intro f c hf
    have hmem := (hs.file f c hf).opened
    rw [hopened] at hmem
    exact absurd hmem (by simp)
  constructor
  case receiving =>
    intro c
    simp only [hhead, List.not_mem_nil, iff_false, Bool.not_eq_true]
    by_cases hc : c ∈ s.connectionHead
    · exact h.ended c hc
    · rw [h.untouched c hc, ← Bool.not_eq_true, hs.receiving c]
      exact hc
  case socket =>
    intro c x hhold
    by_cases hc : c ∈ s.connectionHead
    · rw [h.closed c hc] at hhold
      exact absurd hhold (by simp)
    · rw [h.kept c hc] at hhold
      exact absurd (hs.socket c x hhold) hc
  case deleted =>
    intro c hc
    rw [h.connections]
    rw [h.deleted, List.mem_append] at hc
    rcases hc with hc | hc
    · exact hs.deleted c hc
    · obtain ⟨d, hd, hcd⟩ := List.mem_flatMap.1 hc
      rw [mem_deletions.1 hcd]
      exact hs.known d hd
  case file =>
    intro f c hf
    rw [h.file] at hf
    exact absurd hf (hnone f c)
  case unique =>
    intro f g c hf
    rw [h.file] at hf
    exact absurd hf (hnone f c)
  case opened =>
    rw [h.opened]
    exact hs.opened
  all_goals simp [hhead]

theorem orphaned_unload_iff (hs : Connected s) :
    { destroyAll s.connectionHead s with unloaded := true : State }.Orphaned c ↔ s.Orphaned c := by
  obtain ⟨h, hempty⟩ := destroyed_destroyAll hs.nodup hs.state fun c => (hs.receiving c).2
  have hgone : c ∈ (destroyAll s.connectionHead s).deleted ↔
      c ∈ s.deleted ∨ c ∈ s.connectionHead := by
    rw [h.deleted]
    simp [List.mem_flatMap, mem_deletions]
  have hhas : { destroyAll s.connectionHead s with unloaded := true : State }.HasHandle c ↔
      s.HasHandle c := by
    simp only [State.HasHandle, h.file]
  constructor
  · rintro ⟨hknown, halive, -, hfree⟩
    obtain ⟨halive, habsent⟩ := not_or.1 (mt hgone.2 halive)
    exact ⟨h.connections ▸ hknown, halive, habsent, mt hhas.2 hfree⟩
  · rintro ⟨hknown, halive, habsent, hfree⟩
    refine ⟨h.connections.symm ▸ hknown, ?_, by simp [hempty], mt hhas.1 hfree⟩
    intro hmem
    exact (hgone.1 hmem).elim halive habsent

end Unload

/-! ## The attempts -/

section Attempts
variable {s t : State} {c : ConnectionPtr} {f : FilePtr} {x : ℕ}

/-- The ways in which an inbound attempt ends. -/
inductive Validated (answer : ValidateAnswer) (s : State) : State → Prop
  | refused (hcreate : answer.create = false) :
      Validated answer s (s.closesocket .clientSocket)
  | dropped (hcreate : answer.create = true) (hfails : ¬answer.Establishes)
      {connection : CConnection} (hidle : connection.receiving = false) :
      Validated answer s ((s.withConnection connection).closesocket .clientSocket)
  | established (hcreate : answer.create = true) (hestablishes : answer.Establishes) :
      Validated answer s
        (s.withEstablished ⟨.established, true, true, true⟩
          (s.sockets.transfer .clientSocket (.socket s.connections)))

theorem validated_validateAccept (answer : ValidateAnswer) (s : State) :
    Validated answer s (validateAccept answer s) := by
  obtain ⟨create, magicPacket, send, createThreadpoolWork⟩ := answer
  rcases create
  · exact .refused rfl
  · by_cases hpacket : (magicPacket && send) = true
    · rcases createThreadpoolWork
      · have hdropped : Validated ⟨true, magicPacket, send, false⟩ s
            ((s.withConnection ⟨.established, false, true, false⟩).closesocket .clientSocket) :=
          .dropped rfl (fun h => Bool.false_ne_true h.createThreadpoolWork) rfl
        simpa [validateAccept, finalizeEstablish, hpacket, State.create, State.withConnection,
          State.setConnection] using hdropped
      · obtain ⟨rfl, rfl⟩ := Bool.and_eq_true_iff.1 hpacket
        have hestablished : Validated ⟨true, true, true, true⟩ s _ :=
          .established rfl ⟨rfl, rfl, rfl⟩
        simpa [validateAccept, finalizeEstablish, State.create, State.withEstablished,
          State.withConnection, State.setConnection] using hestablished
    · have hdropped : Validated ⟨true, magicPacket, send, createThreadpoolWork⟩ s
          ((s.withConnection ⟨.initial, false, true, false⟩).closesocket .clientSocket) := by
        refine .dropped rfl ?_ rfl
        rintro ⟨hmagic, hsend, -⟩
        exact hpacket (Bool.and_eq_true_iff.2 ⟨hmagic, hsend⟩)
      simpa [validateAccept, hpacket, State.create, State.withConnection] using hdropped

theorem sameConnections_closeClientSocket : SameConnections s (s.closesocket .clientSocket) := by
  constructor
  all_goals simp [State.closesocket]

variable {answer : ValidateAnswer}

theorem Validated.flags (h : Validated answer s t) : SameFlags s t := by
  rcases h
  all_goals exact ⟨rfl, rfl, rfl⟩

theorem Validated.deleted (h : Validated answer s t) : t.deleted = s.deleted := by
  rcases h
  all_goals rfl

theorem Validated.clientSocket (h : Validated answer s t) :
    t.sockets.holder .clientSocket = none := by
  rcases h
  all_goals simp [State.closesocket]

theorem Validated.sound (hs : s.sockets.Sound) (h : Validated answer s t) : t.sockets.Sound := by
  rcases h with - | - | -
  · exact hs.release _
  · exact hs.release _
  · exact hs.transfer (by simp)

theorem Validated.lost_iff (hs : Connected s) (h : Validated answer s t) :
    t.sockets.Lost x ↔ s.sockets.Lost x := by
  obtain ⟨-, -, -, hnone⟩ := hs.fresh
  rcases h with - | - | -
  · exact lost_release_iff
  · exact lost_release_iff
  · exact lost_transfer_iff (by simp) hnone

theorem Validated.connected (hs : Connected s) (h : Validated answer s t) : Connected t := by
  rcases h with - | ⟨-, -, hidle⟩ | -
  · exact hs.same sameConnections_closeClientSocket
  · exact (hs.withConnection hidle).same sameConnections_closeClientSocket
  · refine hs.establish rfl rfl ?_
    intro d hd
    simp [hd]

theorem Validated.orphaned_iff (hs : Connected s) (h : Validated answer s t) : t.Orphaned c ↔
      s.Orphaned c ∨ (c = s.connections ∧ answer.create = true ∧ ¬answer.Establishes) := by
  rcases h with ⟨hcreate⟩ | ⟨hcreate, hfails, -⟩ | ⟨hcreate, hestablishes⟩
  · rw [sameConnections_closeClientSocket.orphaned_iff]
    simp [hcreate]
  · rw [sameConnections_closeClientSocket.orphaned_iff, orphaned_withConnection_iff hs]
    simp [hcreate, hfails]
  · rw [orphaned_withEstablished_iff]
    simp [hestablishes]

/-- The ways in which `BeginProximity` ends. -/
inductive Begun (f : FilePtr) (answer : ClientAnswer) (s : State) : State → Prop
  | used (hrole : (s.file f).role ≠ .undefined) :
      Begun f answer s (s.setFile f ⟨(s.file f).role, none⟩)
  | refused (hrole : (s.file f).role = .undefined)
      (hrefused : ¬(answer.args = true ∧ answer.create = true)) :
      Begun f answer s (s.setFile f ⟨.proximity, none⟩)
  | dropped (hrole : (s.file f).role = .undefined) (hargs : answer.args = true)
      (hcreate : answer.create = true) (hfails : ¬answer.Establishes)
      {connection : CConnection} (hidle : connection.receiving = false) {sockets : Ledger Slot}
      (hsockets : sockets = s.sockets ∨ sockets =
        (s.sockets.acquire (.socket s.connections)).release (.socket s.connections)) :
      Begun f answer s
        { (s.withConnection connection).setFile f ⟨.proximity, none⟩ with sockets := sockets }
  | established (hrole : (s.file f).role = .undefined) (hestablishes : answer.Establishes) :
      Begun f answer s
        ((s.withEstablished ⟨.established, true, false, true⟩
          (s.sockets.acquire (.socket s.connections))).setFile f
            ⟨.proximity, some s.connections⟩)

theorem begun_beginProximity (f : FilePtr) (answer : ClientAnswer) (s : State) :
    Begun f answer s (beginProximity f answer s) := by
  by_cases hrole : (s.file f).role = .undefined
  · by_cases hargs : (answer.args && answer.create) = true
    · obtain ⟨hargs', hcreate⟩ := Bool.and_eq_true_iff.1 hargs
      have hidle : (CConnection.mk .initial false false false).receiving = false := rfl
      by_cases hsocket : answer.socket = true
      · by_cases hshakes : answer.shakesHands = true
        · by_cases hwork : answer.createThreadpoolWork = true
          · have h : Begun f answer s _ := .established hrole ⟨hsocket, hshakes, hwork⟩
            simpa [beginProximity, initializeAsClient, finalizeEstablish, hrole, hargs, hsocket,
              hshakes, hwork, State.create, State.withEstablished, State.withConnection,
              State.setConnection, State.setFile] using h
          · have hidle : (CConnection.mk .established false false false).receiving = false := rfl
            have h : Begun f answer s _ := .dropped hrole hargs' hcreate
              (fun h => hwork h.createThreadpoolWork) hidle (.inr rfl)
            simpa [beginProximity, initializeAsClient, finalizeEstablish, hrole, hargs, hsocket,
              hshakes, hwork, State.create, State.withConnection, State.setConnection,
              State.setFile, State.closesocket, forget] using h
        · have h : Begun f answer s _ := .dropped hrole hargs' hcreate
            (fun h => hshakes h.shakesHands) hidle (.inr rfl)
          simpa [beginProximity, initializeAsClient, hrole, hargs, hsocket, hshakes,
            State.create, State.withConnection, State.setConnection, State.setFile,
            State.closesocket, forget] using h
      · have h : Begun f answer s _ := .dropped hrole hargs' hcreate
          (fun h => hsocket h.socket) hidle (.inl rfl)
        simpa [beginProximity, initializeAsClient, hrole, hargs, hsocket, State.create,
          State.withConnection, State.setConnection, State.setFile, forget] using h
    · have h : Begun f answer s _ := .refused hrole (mt Bool.and_eq_true_iff.2 hargs)
      simpa [beginProximity, hrole, hargs, State.setFile, forget] using h
  · have h : Begun f answer s _ := .used hrole
    simpa [beginProximity, hrole, State.setFile, forget] using h

variable {answer : ClientAnswer}

theorem Begun.listener (h : Begun f answer s t) : SameListener s t := by
  rcases h with - | - | ⟨-, -, -, -, -, rfl | rfl⟩ | -
  all_goals
    constructor
    all_goals simp [State.setFile, State.withEstablished, State.withConnection,
      State.setConnection]

theorem Begun.deleted (h : Begun f answer s t) : t.deleted = s.deleted := by
  rcases h
  all_goals rfl

theorem Begun.sound (hs : s.sockets.Sound) (h : Begun f answer s t) : t.sockets.Sound := by
  rcases h with - | - | ⟨-, -, -, -, -, rfl | rfl⟩ | -
  · exact hs
  · exact hs
  · exact hs
  · exact (hs.acquire _).release _
  · exact hs.acquire _

theorem Begun.lost_iff (hsound : s.sockets.Sound) (hs : Connected s) (h : Begun f answer s t) :
    t.sockets.Lost x ↔ s.sockets.Lost x := by
  obtain ⟨-, -, -, hnone⟩ := hs.fresh
  have hacquired : (s.sockets.acquire (.socket s.connections)).Lost x ↔ s.sockets.Lost x := by
    rw [lost_acquire_iff hsound]
    simp [hnone]
  rcases h with - | - | ⟨-, -, -, -, -, rfl | rfl⟩ | -
  · exact Iff.rfl
  · exact Iff.rfl
  · exact Iff.rfl
  · exact lost_release_iff.trans hacquired
  · exact hacquired

theorem sameConnections_sockets {sockets : Ledger Slot}
    (hsockets : ∀ c, sockets.holder (.socket c) = s.sockets.holder (.socket c)) :
    SameConnections s { s with sockets := sockets } :=
  ⟨rfl, rfl, rfl, rfl, rfl, rfl, hsockets⟩

theorem holder_dropped (hs : Connected s) {sockets : Ledger Slot}
    (hsockets : sockets = s.sockets ∨ sockets =
      (s.sockets.acquire (.socket s.connections)).release (.socket s.connections)) :
    ∀ c, sockets.holder (.socket c) = s.sockets.holder (.socket c) := by
  obtain ⟨-, -, -, hnone⟩ := hs.fresh
  intro c
  rcases hsockets with rfl | rfl
  · rfl
  · by_cases hc : c = s.connections
    · subst hc
      simp [hnone]
    · simp [hc]

theorem Begun.connected (hs : Connected s) (hf : f ∈ s.opened) (h : Begun f answer s t) :
    Connected t := by
  rcases h with - | - | ⟨-, -, -, -, hidle, hsockets⟩ | -
  · exact hs.forgotten f _
  · exact hs.forgotten f _
  · have hforgotten := (hs.withConnection hidle).forgotten f .proximity
    exact hforgotten.same (sameConnections_sockets (holder_dropped hs hsockets))
  · have hestablished : Connected (s.withEstablished ⟨.established, true, false, true⟩
        (s.sockets.acquire (.socket s.connections))) := by
      refine hs.establish rfl rfl ?_
      intro d hd
      simp [hd]
    refine hestablished.given hf (List.mem_cons_self ..) ?_ hs.fresh.2.2.1
    simp [State.withEstablished, State.withConnection, State.setConnection]

/-- The connection of an attempt that fails is out of reach, and so is what a second call makes
the handle forget, unless it is still in the list. -/
theorem Begun.orphaned_iff (hs : Connected s) (h : Begun f answer s t) :
    t.Orphaned c ↔ s.Orphaned c ∨
      (((s.file f).role = .undefined ∧ c = s.connections ∧ answer.args = true ∧
          answer.create = true ∧ ¬answer.Establishes) ∨
        ((s.file f).role ≠ .undefined ∧ (s.file f).pConnection = some c ∧
          c ∉ s.connectionHead)) := by
  have hnone : (s.file f).role = .undefined → (s.file f).pConnection = none := by
    intro hrole
    rcases hf : (s.file f).pConnection with - | c
    · rfl
    · exact absurd hrole (hs.file f c hf).role
  rcases h with ⟨hrole⟩ | ⟨hrole, hrefused⟩ |
    @⟨hrole, hargs, hcreate, hfails, connection, hidle, sockets, hsockets⟩ | ⟨hrole, hestablishes⟩
  · rw [orphaned_forgotten_iff hs]
    simp [hrole]
  · rw [orphaned_forgotten_iff hs, hnone hrole]
    have hnot : ¬(answer.args = true ∧ answer.create = true ∧ ¬answer.Establishes) := by
      rintro ⟨hargs, hcreate, -⟩
      exact hrefused ⟨hargs, hcreate⟩
    simp [hrole, hnot]
  · have hsame := sameConnections_sockets
      (s := (s.withConnection connection).setFile f ⟨.proximity, none⟩) (holder_dropped hs hsockets)
    rw [hsame.orphaned_iff, orphaned_forgotten_iff (hs.withConnection hidle),
      orphaned_withConnection_iff hs]
    have hfile : ((s.withConnection connection).file f).pConnection = none := hnone hrole
    simp [hfile, hrole, hargs, hcreate, hfails]
  · have hfile := hnone hrole
    have hmem : s.connections ∈ (s.withEstablished ⟨.established, true, false, true⟩
        (s.sockets.acquire (.socket s.connections))).connectionHead := by
      simp
    rw [orphaned_given_iff hmem hfile, orphaned_withEstablished_iff]
    simp [hestablishes, hrole]

end Attempts

/-! ## What a step can do -/

section Steps
variable {s t : State} {c : ConnectionPtr} {f : FilePtr} {x : ℕ}

theorem intact_same_iff (hsame : SameConnections s t)
    (hlost : ∀ x, t.sockets.Lost x ↔ s.sockets.Lost x) : Intact t ↔ Intact s := by
  have h := intact_iff (P := fun _ => False) (Q := True) hlost
    (fun c => hsame.orphaned_iff.trans (by simp)) (by simp [hsame.deleted])
  simpa using h

/-- The steps, with what they leave of a state. -/
inductive StepTo (s : State) : Action → State → Prop
  | initializeQueue {answer : ListenAnswer} {next : AcceptAnswer} (hinit : s.initialized = false)
      (hloaded : s.unloaded = false) :
      StepTo s (.initializeQueue answer next) (initializeQueue answer next s)
  | accepted {result : AcceptResult} {next : AcceptAnswer} (haccepting : s.accepting = true) :
      StepTo s (.accepted result next) (acceptThreadProc result next { s with accepting := false })
  | openFile {f : FilePtr} {role : Role} (hf : f ∉ s.opened) :
      StepTo s (.openFile f role) { s.setFile f ⟨role, none⟩ with opened := f :: s.opened }
  | beginProximity {f : FilePtr} {answer : ClientAnswer} (hf : f ∈ s.opened) :
      StepTo s (.beginProximity f answer) (beginProximity f answer s)
  | received {c : ConnectionPtr} (hc : c ∈ s.connectionHead) :
      StepTo s (.received c) (receiveThreadEnds c s)
  | sendFailed {c : ConnectionPtr} (hc : c ∈ s.connectionHead) :
      StepTo s (.sendFailed c) (terminate c s)
  | closeFile {f : FilePtr} (hf : f ∈ s.opened) : StepTo s (.closeFile f) (closeFile f s)
  | unload {answer : AcceptAnswer} (hopened : s.opened = []) :
      StepTo s (.unload answer) (unload answer s)

theorem step_cases {action : Action} (hstep : step s action = some t) : StepTo s action t := by
  rcases action with ⟨answer, next⟩ | ⟨result, next⟩ | ⟨f, role⟩ | ⟨f, answer⟩ | c | c | f | answer
  all_goals
    simp only [step, Option.ite_none_right_eq_some, Option.some.injEq] at hstep
    obtain ⟨hguard, rfl⟩ := hstep
  · exact .initializeQueue hguard.1 hguard.2
  · exact .accepted hguard
  · exact .openFile hguard.2
  · exact .beginProximity hguard
  · exact .received hguard
  · exact .sendFailed hguard
  · exact .closeFile hguard
  · exact .unload hguard.1

theorem beginAccept_step (hsound : s.sockets.Sound) (hconnected : Connected s)
    (hinit : s.initialized = true) (hstopped : s.stopped = false) (haccepting : s.accepting = false)
    (hclient : s.sockets.holder .clientSocket = none) (answer : AcceptAnswer) :
    Inv (beginAccept answer s) ∧ (Intact (beginAccept answer s) ↔ Intact s) := by
  have hsame := sameConnections_beginAccept (s := s) answer
  refine ⟨⟨sound_beginAccept hsound answer,
    listening_beginAccept hinit hstopped haccepting answer, hconnected.same hsame⟩, ?_⟩
  apply intact_same_iff hsame
  intro x
  rw [lost_beginAccept_iff hsound]
  simp [hclient]

/-- A listener that has not been started acquires its sockets into empty fields. -/
theorem initializeQueue_step (hs : Inv s) (hinit : s.initialized = false)
    (hloaded : s.unloaded = false) (answer : ListenAnswer) (next : AcceptAnswer) :
    Inv (initializeQueue answer next s) ∧ (Intact (initializeQueue answer next s) ↔ Intact s) := by
  obtain ⟨hsound, hlistening, hconnected⟩ := hs
  obtain ⟨hlisten, hclient, haccepting⟩ := hlistening.fresh hinit
  have hstopped := hlistening.running hinit hloaded
  have hacquired : (s.sockets.acquire .listenSocket).Sound := hsound.acquire _
  have hlost : ∀ x, (s.sockets.acquire .listenSocket).Lost x ↔ s.sockets.Lost x := by
    intro x
    rw [lost_acquire_iff hsound]
    simp [hlisten]
  have hsame : ∀ threadpoolIo, SameConnections s { s with
      sockets := s.sockets.acquire .listenSocket
      initialized := true
      threadpoolIo := threadpoolIo } := by
    intro threadpoolIo
    constructor
    all_goals simp
  have hbound : ∀ threadpoolIo, Inv { s with
        sockets := s.sockets.acquire .listenSocket
        initialized := true
        threadpoolIo := threadpoolIo } ∧
      (Intact { s with
        sockets := s.sockets.acquire .listenSocket
        initialized := true
        threadpoolIo := threadpoolIo } ↔ Intact s) := fun b =>
    ⟨⟨hacquired, .of_idle rfl hstopped haccepting, hconnected.same (hsame b)⟩,
      intact_same_iff (hsame b) hlost⟩
  simp only [initializeQueue, enableAccepting]
  split_ifs
  · obtain ⟨hinv, hkept⟩ := hbound answer.createThreadpoolIo
    have hbegun := beginAccept_step hinv.sound hinv.connected rfl hstopped haccepting
      (by simp [hclient]) next
    exact ⟨hbegun.1, hbegun.2.trans hkept⟩
  · exact hbound _
  · exact hbound _
  · have hsame' : SameConnections s { s with initialized := true } :=
      ⟨rfl, rfl, rfl, rfl, rfl, rfl, fun _ => rfl⟩
    exact ⟨⟨hsound, .of_idle rfl hstopped haccepting, hconnected.same hsame'⟩,
      intact_same_iff hsame' fun _ => Iff.rfl⟩

theorem acceptThreadProc_step (hsound : s.sockets.Sound) (hconnected : Connected s)
    (hinit : s.initialized = true) (hstopped : s.stopped = false)
    (haccepting : s.accepting = false) (hclient : s.sockets.holder .clientSocket = some x)
    (result : AcceptResult) (next : AcceptAnswer) :
    Inv (acceptThreadProc result next s) ∧ (Intact (acceptThreadProc result next s) ↔
      Intact s ∧ (Action.accepted result next).Clean s) := by
  rcases result with - | ⟨cbReceived, answer⟩
  · have hsame := sameConnections_beginAccept (s := s) next
    refine ⟨⟨sound_beginAccept hsound next, listening_beginAccept hinit hstopped haccepting next,
      hconnected.same hsame⟩, ?_⟩
    apply iff_of_false
    · intro hintact
      exact hintact.sockets x ((lost_beginAccept_iff hsound next).2 (.inr hclient))
    · rintro ⟨-, hclean⟩
      exact hclean
  · by_cases hsize : cbReceived = sizeofMagicPacket
    · have hvalidated := validated_validateAccept answer s
      have hflags := hvalidated.flags
      obtain ⟨hinv, hkeeps⟩ := beginAccept_step (hvalidated.sound hsound)
        (hvalidated.connected hconnected) (hflags.initialized.trans hinit)
        (hflags.stopped.trans hstopped) (hflags.accepting.trans haccepting)
        hvalidated.clientSocket next
      have hintact := intact_iff (fun x => hvalidated.lost_iff (x := x) hconnected)
        (fun c => hvalidated.orphaned_iff (c := c) hconnected)
        (Q := True) (by simp [hvalidated.deleted])
      simp only [acceptThreadProc, hsize, if_true, Action.Clean, forall_const]
      refine ⟨hinv, hkeeps.trans (hintact.trans ?_)⟩
      simp only [and_true]
      apply and_congr_right
      intro _
      constructor
      · intro hnone hcreate
        by_contra hfails
        exact hnone _ ⟨rfl, hcreate, hfails⟩
      · rintro hclean c ⟨-, hcreate, hfails⟩
        exact hfails (hclean hcreate)
    · have hclosed := sameConnections_closeClientSocket (s := s)
      obtain ⟨hinv, hkeeps⟩ := beginAccept_step (s := s.closesocket .clientSocket)
        (hsound.release _) (hconnected.same hclosed) hinit hstopped haccepting
        (by simp [State.closesocket]) next
      have hclean : (Action.accepted (.received cbReceived answer) next).Clean s := fun h =>
        absurd h hsize
      simp only [acceptThreadProc, hsize, if_false, hclean, and_true]
      exact ⟨hinv, hkeeps.trans (intact_same_iff hclosed fun _ => lost_release_iff)⟩

theorem accepted_step (hs : Inv s) (haccepting : s.accepting = true) (result : AcceptResult)
    (next : AcceptAnswer) :
    let t := acceptThreadProc result next { s with accepting := false }
    Inv t ∧ (Intact t ↔ Intact s ∧ (Action.accepted result next).Clean s) := by
  obtain ⟨hsound, hlistening, hconnected⟩ := hs
  have hinit : s.initialized = true := by
    rw [← Bool.not_eq_false]
    intro hinit
    exact absurd haccepting (by simp [(hlistening.fresh hinit).accepting])
  have hstopped : s.stopped = false := by
    rw [← Bool.not_eq_true]
    intro hstopped
    exact absurd haccepting (by simp [(hlistening.stopped hstopped).accepting])
  obtain ⟨x, hclient⟩ := (hlistening.accepting haccepting).2
  have hsame : SameConnections s { s with accepting := false } :=
    ⟨rfl, rfl, rfl, rfl, rfl, rfl, fun _ => rfl⟩
  obtain ⟨hinv, hintact⟩ := acceptThreadProc_step (s := { s with accepting := false }) hsound
    (hconnected.same hsame) hinit hstopped rfl hclient result next
  have hclean : Action.Clean { s with accepting := false } (.accepted result next) ↔
      Action.Clean s (.accepted result next) := by
    rcases result
    all_goals exact Iff.rfl
  rw [intact_same_iff hsame fun _ => Iff.rfl, hclean] at hintact
  exact ⟨hinv, hintact⟩

theorem intact_opened_iff {opened : List FilePtr} :
    Intact { s with opened := opened } ↔ Intact s := by
  have horphaned : ∀ c, State.Orphaned { s with opened := opened } c ↔ s.Orphaned c := by
    intro c
    constructor
    all_goals
      rintro ⟨hknown, halive, habsent, hfree⟩
      exact ⟨hknown, halive, habsent, hfree⟩
  constructor
  · rintro ⟨hsockets, hconnections, hdeleted⟩
    exact ⟨hsockets, fun c hc => hconnections c ((horphaned c).2 hc), hdeleted⟩
  · rintro ⟨hsockets, hconnections, hdeleted⟩
    exact ⟨hsockets, fun c hc => hconnections c ((horphaned c).1 hc), hdeleted⟩

theorem openFile_step (hs : Inv s) (hf : f ∉ s.opened) (role : Role) :
    let t : State := { s.setFile f ⟨role, none⟩ with opened := f :: s.opened }
    Inv t ∧ (Intact t ↔ Intact s) := by
  obtain ⟨hsound, hlistening, hconnected⟩ := hs
  have hforgotten := hconnected.forgotten f role
  have hopened : Connected { s.setFile f ⟨role, none⟩ with opened := f :: s.opened } := by
    obtain ⟨h1, h2, h3, h4, h5, h6, h7, h8, h9, h10⟩ := hforgotten
    refine ⟨h1, h2, h3, h4, h5, h6, h7, ?_, h9, List.nodup_cons.2 ⟨hf, h10⟩⟩
    intro g c hg
    obtain ⟨hmem, hrole, hknown, hout, halive⟩ := h8 g c hg
    exact ⟨List.mem_cons_of_mem _ hmem, hrole, hknown, hout, halive⟩
  have hlistening' : Listening { s.setFile f ⟨role, none⟩ with opened := f :: s.opened } :=
    hlistening.same ⟨rfl, rfl, rfl, rfl, rfl, rfl, rfl⟩
  refine ⟨⟨hsound, hlistening', hopened⟩, ?_⟩
  have hnone : ∀ c, ¬((s.file f).pConnection = some c ∧ c ∉ s.connectionHead) := by
    rintro c ⟨hfile, -⟩
    exact hf (hconnected.file f c hfile).opened
  have hintact := intact_iff (s := s) (t := s.setFile f ⟨role, none⟩) (fun _ => Iff.rfl)
    (fun c => orphaned_forgotten_iff (c := c) hconnected role) (Q := True)
    (by simp [State.setFile])
  rw [intact_opened_iff, hintact]
  simp only [hnone, not_false_iff, and_true, implies_true]

theorem beginProximity_step (hs : Inv s) (hf : f ∈ s.opened) (answer : ClientAnswer) :
    Inv (beginProximity f answer s) ∧ (Intact (beginProximity f answer s) ↔
      Intact s ∧ (Action.beginProximity f answer).Clean s) := by
  obtain ⟨hsound, hlistening, hconnected⟩ := hs
  have hbegun := begun_beginProximity f answer s
  refine ⟨⟨hbegun.sound hsound, hlistening.same hbegun.listener, hbegun.connected hconnected hf⟩,
    ?_⟩
  have hintact := intact_iff (fun x => hbegun.lost_iff (x := x) hsound hconnected)
    (fun c => hbegun.orphaned_iff (c := c) hconnected) (Q := True) (by simp [hbegun.deleted])
  rw [hintact, and_true]
  apply and_congr_right
  intro _
  simp only [Action.Clean]
  by_cases hrole : (s.file f).role = .undefined
  · rw [if_pos hrole]
    constructor
    · intro hnone hargs hcreate
      by_contra hfails
      exact hnone _ (.inl ⟨hrole, rfl, hargs, hcreate, hfails⟩)
    · rintro hclean c (⟨-, -, hargs, hcreate, hfails⟩ | ⟨hused, -⟩)
      · exact hfails (hclean hargs hcreate)
      · exact hused hrole
  · rw [if_neg hrole]
    constructor
    · intro hnone c hfile
      by_contra habsent
      exact hnone c (.inr ⟨hrole, hfile, habsent⟩)
    · rintro hclean c (⟨hfresh, -⟩ | ⟨-, hfile, habsent⟩)
      · exact hrole hfresh
      · exact habsent (hclean c hfile)

theorem ended_step (hs : Inv s) (hc : c ∈ s.connectionHead) :
    Inv (s.ended c) ∧ (Intact (s.ended c) ↔
      Intact s ∧ ((s.connection c).fInboundConnection = true ∨ s.HasHandle c)) := by
  obtain ⟨hsound, hlistening, hconnected⟩ := hs
  have hlistening' : Listening (s.ended c) := by
    apply hlistening.same
    constructor
    all_goals simp [State.ended, State.closesocket]
  refine ⟨⟨hsound.release _, hlistening', hconnected.ended hc⟩, ?_⟩
  have hintact := intact_iff (fun _ => lost_release_iff)
    (fun d => orphaned_ended_iff (d := d) hconnected hc) (Q := True)
    (by simp [nodup_ended hconnected hc])
  rw [hintact, and_true]
  apply and_congr_right
  intro _
  constructor
  · intro hnone
    by_contra hfails
    exact hnone c ⟨rfl, hfails⟩
  · rintro hhas d ⟨-, hfails⟩
    exact hfails hhas

theorem inv_closed (hs : Inv s) (hf : (s.file f).pConnection = none) :
    Inv { s with opened := s.opened.erase f } := by
  obtain ⟨hsound, hlistening, hconnected⟩ := hs
  refine ⟨hsound, hlistening.same ⟨rfl, rfl, rfl, rfl, rfl, rfl, rfl⟩, ?_⟩
  obtain ⟨h1, h2, h3, h4, h5, h6, h7, h8, h9, h10⟩ := hconnected
  refine ⟨h1, h2, h3, h4, h5, h6, h7, ?_, h9, h10.erase f⟩
  intro g c hg
  obtain ⟨hmem, hrole, hknown, hout, halive⟩ := h8 g c hg
  have hgf : g ≠ f := by
    rintro rfl
    exact absurd (hf.symm.trans hg) (by simp)
  exact ⟨h10.mem_erase_iff.2 ⟨hgf, hmem⟩, hrole, hknown, hout, halive⟩

theorem buried_step (hs : Inv s) (hf : (s.file f).pConnection = some c) (hc : c ∉ s.connectionHead)
    (role : Role) {connection : CConnection} (hidle : connection.receiving = false) :
    let t : State := { (s.setFile f ⟨role, none⟩).setConnection c connection with
      deleted := s.deleted ++ [c] }
    Inv t ∧ (Intact t ↔ Intact s) := by
  obtain ⟨hsound, hlistening, hconnected⟩ := hs
  obtain ⟨-, -, hknown, -, halive⟩ := hconnected.file f c hf
  have hforgotten := hconnected.forgotten f role
  have hfree : ¬(s.setFile f ⟨role, none⟩).HasHandle c := by
    rintro ⟨g, hg⟩
    by_cases hgf : g = f
    · subst hgf
      simp [State.setFile] at hg
    · exact hgf (hconnected.unique g f c (by simpa [State.setFile, hgf] using hg) hf)
  refine ⟨⟨hsound, hlistening.same ⟨rfl, rfl, rfl, rfl, rfl, rfl, rfl⟩,
    hforgotten.buried hc hknown hfree hidle⟩, ?_⟩
  have horphaned : ∀ d, State.Orphaned
      { (s.setFile f ⟨role, none⟩).setConnection c connection with
        deleted := s.deleted ++ [c] } d ↔ s.Orphaned d ∨ False := by
    intro d
    refine orphaned_buried_iff.trans ?_
    rw [orphaned_forgotten_iff hconnected, or_false]
    constructor
    · rintro ⟨horphaned | ⟨hfile, -⟩, hne⟩
      · exact horphaned
      · exact absurd (Option.some.inj (hfile.symm.trans hf)) hne
    · intro horphaned
      refine ⟨.inl horphaned, ?_⟩
      rintro rfl
      exact horphaned.free ⟨f, hf⟩
  have hnodup : (s.deleted ++ [c]).Nodup ↔ s.deleted.Nodup ∧ True := by
    simp [List.nodup_append', halive]
  have hintact := intact_iff (s := s)
    (t := { (s.setFile f ⟨role, none⟩).setConnection c connection with
      deleted := s.deleted ++ [c] }) (fun _ => Iff.rfl) horphaned hnodup
  simpa using hintact

theorem closeFile_step (hs : Inv s) :
    Inv (closeFile f s) ∧ (Intact (closeFile f s) ↔ Intact s) := by
  rcases hf : (s.file f).pConnection with - | c
  · simp only [closeFile, hf]
    exact ⟨inv_closed hs hf, intact_opened_iff⟩
  · have hholds := hs.connected.file f c hf
    obtain ⟨t, ht, hc, hdestroy⟩ := destroy_outbound hs.connected hholds.outbound
    have hstep : Inv t ∧ (Intact t ↔ Intact s) ∧ t.file = s.file := by
      rcases ht with rfl | ⟨hmem, rfl⟩
      · exact ⟨hs, Iff.rfl, rfl⟩
      · obtain ⟨hinv, hintact⟩ := ended_step hs hmem
        have hhas : s.HasHandle c := ⟨f, hf⟩
        exact ⟨hinv, by simpa [hhas] using hintact, rfl⟩
    obtain ⟨hinv, hintact, hfile⟩ := hstep
    have hidle : (CConnection.mk .terminated false false false).receiving = false := rfl
    obtain ⟨hinv', hintact'⟩ := buried_step hinv ((congrFun hfile f).symm ▸ hf) hc
      (t.file f).role hidle
    have heq : forget f (destroy c s) = { (t.setFile f ⟨(t.file f).role, none⟩).setConnection c
            ⟨.terminated, false, false, false⟩ with
          deleted := t.deleted ++ [c] } := by
      rw [hdestroy]
      rfl
    simp only [closeFile, hf]
    rw [heq]
    refine ⟨inv_closed hinv' ?_, intact_opened_iff.trans (hintact'.trans hintact)⟩
    simp [State.setFile, State.setConnection]

/-- An accept that is pending loses its socket, and an inbound connection that is left is deleted
twice. -/
theorem unload_step (hs : Inv s) (hopened : s.opened = []) (answer : AcceptAnswer) :
    Inv (unload answer s) ∧ (Intact (unload answer s) ↔
      Intact s ∧ (Action.unload answer).Clean s) := by
  obtain ⟨hsound, hlistening, hconnected⟩ := hs
  have hsame := sameConnections_stopAccepting (s := s) answer
  have hsilent := silent_stopAccepting hlistening answer
  have hconnected' := hconnected.same hsame
  obtain ⟨hdestroyed, -⟩ := destroyed_destroyAll hconnected'.nodup hconnected'.state
    fun c => (hconnected'.receiving c).2
  have hstopped : Intact (stopAccepting answer s) ↔ Intact s ∧ s.accepting = false := by
    by_cases haccepting : s.accepting = true
    · obtain ⟨hpool, x, hx⟩ := hlistening.accepting haccepting
      apply iff_of_false
      · intro hintact
        exact hintact.sockets x
          ((lost_stopAccepting_iff hsound answer).2 (.inr ⟨by simp [hpool, haccepting], hx⟩))
      · rintro ⟨-, hidle⟩
        exact absurd haccepting (by simp [hidle])
    · rw [Bool.not_eq_true] at haccepting
      simp only [haccepting, and_true]
      apply intact_same_iff hsame
      intro x
      rw [lost_stopAccepting_iff hsound]
      simp [haccepting]
  constructor
  · refine ⟨hdestroyed.sound (sound_stopAccepting hsound answer), ?_,
      hconnected'.unload (hsame.opened.trans hopened)⟩
    apply Listening.of_silent
    · obtain ⟨hlisten, hclient, haccepting⟩ := hsilent
      exact ⟨hdestroyed.listener.listenSocket.trans hlisten,
        hdestroyed.listener.clientSocket.trans hclient,
        hdestroyed.listener.accepting.trans haccepting⟩
    · simp [unload]
  · have horphaned : ∀ c, (unload answer s).Orphaned c ↔
        (stopAccepting answer s).Orphaned c ∨ False := by
      intro c
      rw [or_false]
      exact orphaned_unload_iff hconnected'
    have hdeleted : (unload answer s).deleted.Nodup ↔ (stopAccepting answer s).deleted.Nodup ∧
        ∀ c ∈ s.connectionHead, (s.connection c).fInboundConnection = false := by
      have hiff := nodup_destroyed_iff hconnected'.nodup hconnected'.alive
      rw [← hdestroyed.deleted, hsame.connectionHead, hsame.connection] at hiff
      simp only [unload, hsame.connectionHead]
      exact hiff
    have hintact := intact_iff (t := unload answer s) hdestroyed.lost horphaned hdeleted
    rw [hintact, hstopped]
    simp only [not_false_iff, implies_true, true_and, and_assoc, Action.Clean]

theorem step_spec {action : Action} (hs : Inv s) (hstep : StepTo s action t) :
    Inv t ∧ (Intact t ↔ Intact s ∧ action.Clean s) := by
  rcases hstep with ⟨hinit, hloaded⟩ | haccepting | hf | hf | hc | hc | hf | hopened
  · obtain ⟨hinv, hintact⟩ := initializeQueue_step hs hinit hloaded _ _
    exact ⟨hinv, by simpa [Action.Clean] using hintact⟩
  · exact accepted_step hs haccepting _ _
  · obtain ⟨hinv, hintact⟩ := openFile_step hs hf _
    exact ⟨hinv, by simpa [Action.Clean] using hintact⟩
  · exact beginProximity_step hs hf _
  · rw [receiveThreadEnds_eq (hs.connected.state _ hc)]
    exact ended_step hs hc
  · rw [terminate_eq (hs.connected.state _ hc) ((hs.connected.receiving _).2 hc)]
    exact ended_step hs hc
  · obtain ⟨hinv, hintact⟩ := closeFile_step hs
    exact ⟨hinv, by simpa [Action.Clean] using hintact⟩
  · exact unload_step hs hopened _

end Steps

/-! ## Runs -/

section Runs
variable {s : State} {actions : List Action}

theorem inv_of_runs (hrun : RunsTo step Always start actions s) : Inv s :=
  hrun.invariant Inv inv_start fun _ _ _ hs _ hstep => (step_spec hs (step_cases hstep)).1

/-- When the listener has been stopped, all receive threads have ended and all handles are closed,
everything has been released exactly once exactly if every step so far has been clean. -/
theorem released_iff (hrun : RunsTo step Always start actions s) (hquiet : Quiet s) :
    Released s ↔ ∀ taken action t, taken ++ [action] <+: actions →
      RunsTo step Always start taken t → action.Clean t := by
  rw [released_iff_intact (inv_of_runs hrun) hquiet]
  apply hrun.kept_iff Inv Intact inv_start intact_start
  intro t action u ht hstep
  exact step_spec ht (step_cases hstep)

end Runs

/-- Everything that the listener needs. -/
def listens : ListenAnswer := ⟨true, true, true, true, true, true⟩

/-- An inbound connection comes and goes, and so does an outbound one; `AcceptEx` fails in the
end, so that the listener stops by itself. -/
def orderly : List Action :=
  [.initializeQueue listens ⟨true, true, true⟩,
    .accepted (.received 16 ⟨true, true, true, true⟩) ⟨true, true, false⟩, .received 0,
    .openFile 0 .undefined,
    .beginProximity 0 ⟨true, true, true, true, true, true, true, true, true, true⟩,
    .closeFile 0, .unload ⟨true, true, true⟩]

theorem clean_orderly :
    ∃ s, RunsTo step Always start orderly s ∧ Released s ∧
      ∀ taken action t, taken ++ [action] <+: orderly → RunsTo step Always start taken t →
        action.Clean t := by
  have hrun : RunsTo step Always start orderly ((exec step Always start orderly).get rfl) :=
    .of_isSome rfl
  have hquiet : Quiet ((exec step Always start orderly).get rfl) := ⟨rfl, by decide, rfl⟩
  have hreleased : Released ((exec step Always start orderly).get rfl) :=
    ⟨by decide, by decide⟩
  exact ⟨_, hrun, hreleased, (released_iff hrun hquiet).1 hreleased⟩

/-- A peer that sends a wrong packet: its `CConnection` is never deleted. -/
theorem not_released_wrongPacket :
    ¬∀ actions s, RunsTo step Always start actions s → Quiet s → Released s := by
  intro hreleased
  let actions : List Action := [.initializeQueue listens ⟨true, true, true⟩,
    .accepted (.received 16 ⟨true, false, true, true⟩) ⟨true, true, true⟩,
    .unload ⟨true, true, true⟩]
  have hrun : RunsTo step Always start actions ((exec step Always start actions).get rfl) :=
    .of_isSome rfl
  have hquiet : Quiet ((exec step Always start actions).get rfl) := ⟨rfl, by decide, rfl⟩
  have honce := (hreleased _ _ hrun hquiet).connections 0 (by decide)
  exact absurd honce (by decide)

end MiscProjects.NfpConnections.Ownership
