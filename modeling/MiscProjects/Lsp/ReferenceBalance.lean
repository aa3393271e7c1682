import MiscProjects.Lsp.EntryPoints

/-!
# References that the calls leave behind

A program gives up the references it has taken if each of its paths does.  All
entry points but two are such programs.  `WSPSetSockOpt` keeps its reference when
the accept socket is no socket, and `WSPCloseSocket` when the socket handle cannot
be closed.
-/

namespace MiscProjects.Lsp.Calls

/-- On every path the program releases the references `held` and those it takes. -/
def Prog.Balanced : List Addr → Prog → Prop
  | held, .ret => held = []
  | _, .crash => True
  | held, .find _ k => (k none).Balanced held ∧ ∀ a, (k (some a)).Balanced (a :: held)
  | held, .unlock a _ k => a ∈ held ∧ k.Balanced (held.erase a)
  | held, .acquireSocketLock _ k => k.Balanced held
  | held, .releaseSocketLock _ k => k.Balanced held
  | held, .releaseFound _ _ k => k.Balanced held
  | held, .inspect _ k => ∀ si, (k si).Balanced held
  | held, .setClosing _ k => k.Balanced held
  | held, .count _ _ k => k.Balanced held
  | held, .create _ k => k.Balanced held
  | held, .createHandle _ _ k => k.Balanced held
  | held, .closeHandle _ k => ∀ closed, (k closed).Balanced held
  -- References to a freed context need not be released.
  | held, .free a k =>
      ∃ held', (∀ b, b ≠ a → held'.count b = held.count b) ∧ k.Balanced held'
  | _, .freeAll k => k.Balanced []

/-- The contexts of `w` that are still there in `w'` have fewer references, by
those that are `held`. -/
def Drops (held : List Addr) (w w' : World) : Prop :=
  ∀ a n si', w'.heap a = some (n, si') → n < w.nextSerial →
    ∃ si, w.heap a = some (n, si) ∧ si'.refCount + BitVec.ofNat 32 (held.count a) = si.refCount

/-- The call leaves the `RefCount` of every context that was there before it and
still exists afterwards as it was. -/
def KeepsRefCounts (w w' : World) : Prop :=
  ∀ a n si', w'.heap a = some (n, si') → n < w.nextSerial →
    ∃ si, w.heap a = some (n, si) ∧ si'.refCount = si.refCount

theorem keepsRefCounts_iff_drops {w w' : World} : KeepsRefCounts w w' ↔ Drops [] w w' := by
  simp [KeepsRefCounts, Drops]

/-! ## How the references change -/

section Drops
variable {w w' w'' : World} {held : List Addr} {a : Addr} {n : ℕ} {si : SockInfo}
  {f : SockInfo → SockInfo}

theorem Drops.of_modify (hdrops : Drops held (w.modify a f) w')
    (hf : ∀ si, (f si).refCount = si.refCount) : Drops held w w' := by
  intro b m si' hb hm
  obtain ⟨si, hsi, hcount⟩ := hdrops b m si' hb hm
  by_cases hba : b = a
  · subst hba
    simp only [World.modify, Function.update_self] at hsi
    obtain ⟨c, hc, hpair⟩ := Option.map_eq_some_iff.mp hsi
    rw [Prod.mk.injEq] at hpair
    refine ⟨c.2, ?_, ?_⟩
    · rw [hc, ← hpair.1]
    · rw [hcount, ← hpair.2, hf]
  · rw [World.modify_heap_of_ne hba] at hsi
    exact ⟨si, hsi, hcount⟩

theorem Drops.of_addRef (ha : w.heap a = some (n, si))
    (hdrops : Drops (a :: held) (w.modify a SockInfo.addRef) w') : Drops held w w' := by
  intro b m si' hb hm
  obtain ⟨si₁, hsi, hcount⟩ := hdrops b m si' hb hm
  by_cases hba : b = a
  · subst hba
    rw [World.modify_heap_self ha, Option.some.injEq, Prod.mk.injEq] at hsi
    refine ⟨si, by rw [ha, ← hsi.1], ?_⟩
    rw [← hsi.2, List.count_cons_self, BitVec.ofNat_add, ← BitVec.add_assoc] at hcount
    exact (BitVec.add_left_inj _).mp hcount
  · rw [World.modify_heap_of_ne hba] at hsi
    rw [List.count_cons_of_ne (Ne.symm hba)] at hcount
    exact ⟨si₁, hsi, hcount⟩

theorem Drops.of_dropRef (hmem : a ∈ held) (ha : w.heap a = some (n, si))
    (hdrops : Drops (held.erase a) (w.modify a SockInfo.dropRef) w') : Drops held w w' := by
  intro b m si' hb hm
  obtain ⟨si₁, hsi, hcount⟩ := hdrops b m si' hb hm
  by_cases hba : b = a
  · subst hba
    rw [World.modify_heap_self ha, Option.some.injEq, Prod.mk.injEq] at hsi
    refine ⟨si, by rw [ha, ← hsi.1], ?_⟩
    have hpos : held.count b = (held.erase b).count b + 1 := by
      have hone : 0 < held.count b := List.count_pos_iff.mpr hmem
      rw [List.count_erase_self]
      omega
    rw [hpos, BitVec.ofNat_add, ← BitVec.add_assoc, hcount, ← hsi.2]
    exact BitVec.sub_add_cancel _ _
  · rw [World.modify_heap_of_ne hba] at hsi
    rw [List.count_erase_of_ne hba] at hcount
    exact ⟨si₁, hsi, hcount⟩

theorem Drops.of_free {held' : List Addr} (hcount : ∀ b, b ≠ a → held'.count b = held.count b)
    (hdrops : Drops held' (w.free a) w') : Drops held w w' := by
  intro b m si' hb hm
  obtain ⟨si, hsi, hrefs⟩ := hdrops b m si' hb hm
  by_cases hba : b = a
  · subst hba
    rw [World.free_heap_self] at hsi
    exact absurd hsi (by simp)
  · rw [World.free_heap_of_ne hba] at hsi
    rw [hcount b hba] at hrefs
    exact ⟨si, hsi, hrefs⟩

theorem Drops.of_create (ha : w.heap a = none) (hdrops : Drops held (w.create a) w') :
    Drops held w w' := by
  intro b m si' hb hm
  obtain ⟨si, hsi, hcount⟩ := hdrops b m si' hb (Nat.lt_succ_of_lt hm)
  by_cases hba : b = a
  · subst hba
    rw [World.create_heap_self, Option.some.injEq, Prod.mk.injEq] at hsi
    omega
  · rw [World.create_heap_of_ne hba] at hsi
    exact ⟨si, hsi, hcount⟩

theorem Drops.of_heap (hheap : w''.heap = w.heap) (hserial : w''.nextSerial = w.nextSerial)
    (hdrops : Drops held w'' w') : Drops held w w' := by
  intro b m si' hb hm
  obtain ⟨si, hsi, hcount⟩ := hdrops b m si' hb (hserial ▸ hm)
  exact ⟨si, hheap ▸ hsi, hcount⟩

theorem Drops.of_freeAll (hdrops : Drops [] w.freeAll w') : Drops held w w' := by
  intro b m si' hb hm
  obtain ⟨si, hsi, _⟩ := hdrops b m si' hb hm
  exact absurd hsi (by simp [World.freeAll])

end Drops

/-! ## Balanced programs -/

section Balanced
variable {T : Thread} {p p' : Prog} {held : List Addr} {w w' w'' : World}

/-- One instruction of a balanced program leaves a balanced program, and what the
rest drops, with this instruction, drops what was held before. -/
theorem Prog.Balanced.step (hp : p.Balanced held) (hstep : p.step T w = some (p', w')) :
    ∃ held', p'.Balanced held' ∧ ∀ w'', Drops held' w' w'' → Drops held w w'' := by
  cases Prog.step_to hstep with
  | notFound s k _ => exact ⟨held, hp.1, fun _ h => h⟩
  | found s k a n si _ ha => exact ⟨a :: held, hp.2 a, fun _ h => h.of_addRef ha⟩
  | unlockFrees a locked k n si ha _ =>
      refine ⟨held.erase a, hp.2, fun w'' h => ?_⟩
      have hfree : Drops (held.erase a) (w.free a) w'' := h.of_heap (by simp) (by simp)
      exact hfree.of_free fun b hb => List.count_erase_of_ne hb
  | unlocks a locked k n si ha _ =>
      exact ⟨held.erase a, hp.2, fun _ h => h.of_dropRef hp.1 ha⟩
  | acquires a k n si cs ha _ | releases a k n si ha | releasesFound own a k n si ha
  | setsClosing a k n si ha | counts a m k n si ha =>
      exact ⟨held, hp, fun _ h => h.of_modify fun _ => rfl⟩
  | inspects a k n si ha => exact ⟨held, hp si, fun _ h => h⟩
  | creates a k ha => exact ⟨held, hp, fun _ h => h.of_create ha⟩
  | createsHandle s a k n si _ ha =>
      refine ⟨held, hp, fun w'' h => ?_⟩
      have hset : Drops held (w.setHandle s (some a)) w'' := h.of_modify fun _ => rfl
      exact hset.of_heap rfl rfl
  | closesHandle s k => exact ⟨held, hp _, fun _ h => h.of_heap (by simp) (by simp)⟩
  | frees a k n si ha =>
      obtain ⟨held', hcount, hk⟩ := hp
      exact ⟨held', hk, fun _ h => h.of_free hcount⟩
  | freesAll k => exact ⟨[], hp, fun _ h => h.of_freeAll⟩

theorem Finishes.drops (hrun : Finishes T p w w') (hp : p.Balanced held) : Drops held w w' := by
  induction hrun generalizing held with
  | ret w =>
      intro a n si' ha _
      rw [show held = [] from hp]
      exact ⟨si', ha, by simp⟩
  | step hstep _ ih =>
      obtain ⟨held', hp', hdrops⟩ := hp.step hstep
      exact hdrops _ (ih hp')

end Balanced

/-! ## The entry points -/

section Parts
variable {s : Socket} {a own : Addr} {k : Prog} {held : List Addr}

theorem balanced_checkForContextCleanup (hk : k.Balanced held) :
    (checkForContextCleanup s own k).Balanced held := by
  refine ⟨hk, fun a si => ?_⟩
  dsimp only
  split
  · exact fun _ => ⟨held, fun b hb => (List.count_cons_of_ne (Ne.symm hb)).symm, hk⟩
  · exact ⟨List.mem_cons_self, by rwa [List.erase_cons_head]⟩

theorem balanced_getOverlappedStructure (hk : k.Balanced held) :
    (getOverlappedStructure a k).Balanced held := hk

theorem balanced_overlapped (call : OverlappedCall) (hk : k.Balanced held) :
    (overlapped s a call k).Balanced held := by
  unfold overlapped queueOverlappedOperation executeOverlappedOperation
  split
  · apply balanced_getOverlappedStructure
    split
    · split
      · dsimp only [Prog.Balanced]
        split
        · exact balanced_checkForContextCleanup hk
        · exact hk
      · exact hk
    · exact hk
  · exact hk

theorem balanced_intermediateCompletionRoutine {ok : Bool} {acceptSocket : Option Socket}
    (hk : k.Balanced held) :
    (intermediateCompletionRoutine s own acceptSocket ok k).Balanced held := by
  refine ⟨hk, fun a => ?_⟩
  have hrest : (Prog.unlock a false (checkForContextCleanup s own k)).Balanced (a :: held) := by
    refine ⟨List.mem_cons_self, ?_⟩
    rw [List.erase_cons_head]
    exact balanced_checkForContextCleanup hk
  split
  · cases acceptSocket with
    | none => exact hrest
    | some s =>
        refine ⟨trivial, fun b => ⟨List.mem_cons_self, ?_⟩⟩
        rw [List.erase_cons_head]
        exact hrest
  · exact hrest

theorem balanced_withContext {body : Addr → Prog → Prog}
    (hbody : ∀ a k, k.Balanced [a] → (body a k).Balanced [a]) :
    (withContext s body).Balanced [] := by
  refine ⟨rfl, fun a => hbody a _ ⟨List.mem_cons_self, ?_⟩⟩
  rw [List.erase_cons_head]
  rfl

theorem balanced_untouched : (withContext s untouched).Balanced [] :=
  balanced_withContext fun _ _ hk => hk

theorem balanced_newContext {alloc : Option Addr} {newSocket : Option Socket}
    {failed : Addr → Prog → Prog} (hk : k.Balanced held)
    (hfailed : ∀ b, (failed b k).Balanced held) :
    (newContext alloc newSocket failed k).Balanced held := by
  unfold newContext
  cases alloc with
  | none => exact hk
  | some b =>
      cases newSocket with
      | none => exact hfailed b
      | some ns => exact hk

theorem balanced_extension (loaded : Bool) (call : OverlappedCall) :
    (extension s loaded call).Balanced [] := by
  apply balanced_withContext
  intro a k hk
  split
  · exact balanced_overlapped call hk
  · exact hk

theorem balanced_translateSet {set : Option (List Socket)} {k : Option Addr → Prog}
    {last : Option Addr} (hk : ∀ last, (k last).Balanced []) :
    (translateSet set last k).Balanced [] := by
  have hall : ∀ (fds : List Socket) (last : Option Addr),
      (translateHandles last k fds).Balanced [] := by
    intro fds
    induction fds with
    | nil => exact hk
    | cons s fds ih =>
        intro last
        refine ⟨rfl, fun a si => ⟨List.mem_cons_self, ?_⟩⟩
        rw [List.erase_cons_head]
        exact ih (some a)
  unfold translateSet
  split
  · exact hk last
  · split
    · rfl
    · exact hall _ last

end Parts

/-- A call keeps a reference: `WSPSetSockOpt` for an accept socket that is no
socket, and `WSPCloseSocket` on its direct path when the socket handle is not
closed. -/
def EntryPoint.Leaks (w : World) : EntryPoint → Prop
  | .setSockOpt s (some optval) => w.handles s ≠ none ∧ w.handles optval = none
  | .closeSocket s lowerCloses =>
      lowerCloses = true ∧ w.closes s = false ∧
        ∃ a n si, w.handles s = some a ∧ w.heap a = some (n, si) ∧
          si.dwOutstandingAsync = 0 ∧ si.refCount = 0
  | _ => False

/-- The entry points that may keep a reference. -/
def EntryPoint.MayLeak (e : EntryPoint) : Prop :=
  (∃ s optval, e = .setSockOpt s (some optval)) ∨ ∃ s lowerCloses, e = .closeSocket s lowerCloses

theorem EntryPoint.Leaks.mayLeak {w : World} {e : EntryPoint} (hleaks : e.Leaks w) : e.MayLeak := by
  unfold EntryPoint.Leaks at hleaks
  split at hleaks
  · exact .inl ⟨_, _, rfl⟩
  · exact .inr ⟨_, _, rfl⟩
  · exact hleaks.elim

theorem balanced_prog (e : EntryPoint) : e.prog.Balanced [] ∨ e.MayLeak := by
  cases e with
  | closeSocket s lowerCloses => exact .inr (.inr ⟨s, lowerCloses, rfl⟩)
  | setSockOpt s acceptSocket =>
      cases acceptSocket with
      | none => exact .inl balanced_untouched
      | some optval => exact .inr (.inl ⟨s, optval, rfl⟩)
  | addressToString | getOverlappedResult | startup | stringToAddress => exact .inl rfl
  | bind | connect | duplicateSocket | enumNetworkEvents | eventSelect | getPeerName
  | getSockName | getSockOpt | getQOSByName | listen | recvDisconnect | sendDisconnect
  | shutdown => exact .inl balanced_untouched
  | transmitFile | connectEx | transmitPackets | disconnectEx | wsaRecvMsg =>
      exact .inl (balanced_extension _ _)
  | recv s call | recvFrom s call | send s call | sendTo s call =>
      exact .inl (balanced_withContext fun _ _ hk => balanced_overlapped call hk)
  | cancelBlockingCall blocking => cases blocking <;> exact .inl (by trivial)
  | cleanup lastCleanup => cases lastCleanup <;> exact .inl rfl
  | asyncSelect s isWindow validEvents =>
      left
      change Prog.Balanced [] (wspAsyncSelect s isWindow validEvents)
      unfold wspAsyncSelect
      split
      · exact balanced_untouched
      · rfl
  | accept s accepted alloc newSocket =>
      left
      change Prog.Balanced [] (wspAccept s accepted alloc newSocket)
      apply balanced_withContext
      intro a k hk
      split
      · exact balanced_newContext hk fun _ => hk
      · exact hk
  | joinLeaf s isNew alloc newSocket =>
      left
      change Prog.Balanced [] (wspJoinLeaf s isNew alloc newSocket)
      apply balanced_withContext
      intro a k hk
      split
      · exact balanced_newContext hk fun b => ⟨[a], fun _ _ => rfl, hk⟩
      · exact hk
  | socket created alloc newSocket =>
      left
      change Prog.Balanced [] (wspSocket created alloc newSocket)
      unfold wspSocket
      split
      · exact balanced_newContext rfl fun b => ⟨[], fun _ _ => rfl, fun _ => rfl⟩
      · rfl
  | ioctl s dwIoControlCode call =>
      left
      change Prog.Balanced [] (wspIoctl s dwIoControlCode call)
      apply balanced_withContext
      intro a k hk
      cases dwIoControlCode with
      | getExtensionFunctionPointer => exact hk
      | queryTargetPnpHandle =>
          dsimp only
          split
          · apply balanced_getOverlappedStructure
            split
            · exact balanced_intermediateCompletionRoutine hk
            · exact hk
          · exact hk
      | other => exact balanced_overlapped call hk
  | select readfds writefds exceptfds =>
      left
      change Prog.Balanced [] (wspSelect readfds writefds exceptfds)
      unfold wspSelect
      split
      · rfl
      · refine balanced_translateSet fun _ => balanced_translateSet fun _ =>
          balanced_translateSet fun last => ?_
        cases last with
        | none => rfl
        | some a => exact fun _ => rfl
  | acceptEx sListenSocket sAcceptSocket loaded call =>
      left
      refine ⟨rfl, fun a => ⟨⟨List.mem_cons_self, by simp [Prog.Balanced]⟩, fun b => ?_⟩⟩
      have hboth : (Prog.unlock a false (.unlock b false .ret)).Balanced [b, a] := by
        refine ⟨by simp, ?_⟩
        by_cases hba : b = a
        · subst hba
          simp [Prog.Balanced]
        · rw [List.erase_cons_tail (by simpa using hba)]
          simp [Prog.Balanced]
      dsimp only
      split
      · exact balanced_overlapped call hboth
      · exact hboth

section Leaks
variable {T : Thread} {w w' : World}

attribute [local simp] Prog.Balanced

theorem Finishes.next {p : Prog} (hrun : Finishes T p w w') (hne : p ≠ .ret) :
    ∃ p' u, StepTo T w p p' u ∧ Finishes T p' u w' := by
  cases hrun with
  | ret => exact absurd rfl hne
  | step hstep hrest => exact ⟨_, _, Prog.step_to hstep, hrest⟩

theorem Finishes.eq_of_ret (hrun : Finishes T .ret w w') : w' = w := by
  cases hrun with
  | ret => rfl
  | step hstep _ => simp [Prog.step] at hstep

variable {n : ℕ} {s : Socket} {lowerCloses : Bool} {u : World} {a : Addr} {si : SockInfo}

theorem not_keepsRefCounts {si' : SockInfo}
    (ha : w.heap a = some (n, si)) (ha' : w'.heap a = some (n, si'))
    (hrefs : si'.refCount = si.refCount + 1) : ¬ KeepsRefCounts w w' := by
  intro hkeeps
  obtain ⟨si₁, hsi₁, hsame⟩ := hkeeps a n si' ha' (w.fresh a n si ha)
  rw [ha, Option.some.injEq, Prod.mk.injEq] at hsi₁
  rw [← hsi₁.2, hrefs] at hsame
  bv_omega

theorem setSockOpt_keeps_iff {optval : Socket}
    (hrun : Finishes T (wspSetSockOpt s (some optval)) w w') :
    KeepsRefCounts w w' ↔ ¬ (w.handles s ≠ none ∧ w.handles optval = none) := by
  obtain ⟨p, u, hstep, hrest⟩ := hrun.next (by simp [wspSetSockOpt])
  cases hstep with
  | notFound _ _ hnone =>
      have hdrops : Drops [] w w' := hrest.drops rfl
      rw [keepsRefCounts_iff_drops]
      simp [hnone, hdrops]
  | found _ _ a n si hsome ha =>
      obtain ⟨p', u', hstep', hrest'⟩ := hrest.next (by simp)
      cases hstep' with
      | notFound _ _ hnone =>
          have hleak : w.handles optval = none := hnone
          have hw' : w' = w.modify a SockInfo.addRef := hrest'.eq_of_ret
          have hkept : ¬ KeepsRefCounts w w' :=
            not_keepsRefCounts ha (hw' ▸ World.modify_heap_self ha) rfl
          simp [hleak, hsome, hkept]
      | found _ _ b m si' hsome' hb =>
          have hfound : w.handles optval = some b := hsome'
          have hrefs : Drops [b, a] _ w' := hrest'.drops (by simp [Prog.Balanced])
          have hdrops : Drops [] w w' := (hrefs.of_addRef hb).of_addRef ha
          rw [keepsRefCounts_iff_drops]
          simp [hfound, hdrops]

/-- The direct path of `WSPCloseSocket` with a socket handle that is not
closed. -/
def CloseFails (u : World) (s : Socket) (lowerCloses : Bool) (si : SockInfo) : Prop :=
  si.dwOutstandingAsync = 0 ∧ si.refCount = 1 ∧ lowerCloses = true ∧ u.closes s = false

theorem closeLocked_drops (hrun : Finishes T (closeLocked s a lowerCloses si) u w')
    (hcloses : ¬ CloseFails u s lowerCloses si) : Drops [a] u w' := by
  unfold closeLocked at hrun
  split at hrun
  next => exact hrun.drops (by simp [Prog.Balanced])
  next hdirect =>
    split at hrun
    next hlower =>
      obtain ⟨p, v, hstep, hrest⟩ := hrun.next (by simp)
      cases hstep
      have hclosed : u.closes s = true := by
        rw [not_or, not_not, not_not] at hdirect
        by_contra hopen
        exact hcloses ⟨hdirect.1, hdirect.2, hlower, by simpa using hopen⟩
      rw [hclosed] at hrest
      have hdrops : Drops [a] (u.closeHandle (some s)) w' :=
        hrest.drops ⟨[], fun b hb => (List.count_cons_of_ne (Ne.symm hb)).symm, rfl⟩
      exact hdrops.of_heap (by simp) (by simp)
    next => exact hrun.drops (by simp [Prog.Balanced])

theorem closeLocked_leaks (hrun : Finishes T (closeLocked s a lowerCloses si) u w')
    (ha : u.heap a = some (n, si)) (hfails : CloseFails u s lowerCloses si) :
    ∃ si', w'.heap a = some (n, si') ∧ si'.refCount = 1 := by
  obtain ⟨hout, hrefs, hlower, hopen⟩ := hfails
  rw [closeLocked, if_neg (by simp [hout, hrefs]), if_pos hlower] at hrun
  obtain ⟨p, v, hstep, hrest⟩ := hrun.next (by simp)
  cases hstep
  obtain ⟨p₁, v₁, hstep₁, hrest₁⟩ := hrest.next (by simp)
  cases hstep₁
  rw [hopen] at hrest₁
  have hheap : (u.closeHandle (some s)).heap a = some (n, si) := by simpa using ha
  rw [hrest₁.eq_of_ret, World.modify_heap_self hheap]
  exact ⟨_, rfl, hrefs⟩

theorem closeSocket_keeps_iff (hrun : Finishes T (wspCloseSocket s lowerCloses) w w') :
    KeepsRefCounts w w' ↔ ¬ EntryPoint.Leaks w (.closeSocket s lowerCloses) := by
  obtain ⟨p, u, hstep, hrest⟩ := hrun.next (by simp [wspCloseSocket])
  cases hstep with
  | notFound _ _ hnone =>
      have hdrops : Drops [] w w' := hrest.drops rfl
      rw [keepsRefCounts_iff_drops]
      simp [EntryPoint.Leaks, hnone, hdrops]
  | found _ _ a n si hsome ha =>
      obtain ⟨p₁, u₁, hstep₁, hrest₁⟩ := hrest.next (by simp)
      cases hstep₁ with | acquires _ _ n₁ si₁ cs ha₁ hcs =>
      obtain ⟨p₂, u₂, hstep₂, hrest₂⟩ := hrest₁.next (by simp)
      cases hstep₂ with | inspects _ _ n₂ si₂ ha₂ =>
      have hfound : (w.modify a SockInfo.addRef).heap a = some (n, si.addRef) :=
        World.modify_heap_self ha
      have hread : n₂ = n ∧ si₂ = { si.addRef with sockCritSec := cs } := by
        rw [World.modify_heap_self hfound, Option.some.injEq, Prod.mk.injEq] at ha₂
        exact ⟨ha₂.1.symm, ha₂.2.symm⟩
      obtain ⟨rfl, hsi₂⟩ := hread
      -- The reference just taken is the only one if there was none before.
      have hone : si₂.refCount = 1 ↔ si.refCount = 0 := by
        rw [hsi₂]
        change si.refCount + 1 = 1 ↔ si.refCount = 0
        constructor
        · intro h
          bv_omega
        · intro h
          rw [h]
          rfl
      have hleaks : EntryPoint.Leaks w (.closeSocket s lowerCloses) ↔
          CloseFails ((w.modify a SockInfo.addRef).modify a
            fun si => { si with sockCritSec := cs }) s lowerCloses si₂ := by
        constructor
        · rintro ⟨hlower, hopen, b, m, si', hb, hsi', hout, hrefs⟩
          obtain rfl := Option.some.inj (hsome.symm.trans hb)
          rw [ha, Option.some.injEq, Prod.mk.injEq] at hsi'
          obtain ⟨-, rfl⟩ := hsi'
          exact ⟨by rw [hsi₂]; exact hout, hone.mpr hrefs, hlower, hopen⟩
        · rintro ⟨hout, hrefs, hlower, hopen⟩
          rw [hsi₂] at hout
          exact ⟨hlower, hopen, a, n₂, si, hsome, ha, hout, hone.mp hrefs⟩
      rw [hleaks]
      constructor
      · intro hkeeps hfails
        obtain ⟨si', ha', hrefs⟩ := closeLocked_leaks hrest₂ ha₂ hfails
        refine not_keepsRefCounts ha ha' ?_ hkeeps
        rw [hrefs, hone.mp hfails.2.1]
        rfl
      · intro hcloses
        have hdrops : Drops [a] _ w' := closeLocked_drops hrest₂ hcloses
        rw [keepsRefCounts_iff_drops]
        exact Drops.of_addRef ha (hdrops.of_modify fun _ => rfl)

/-- A call leaves the reference counts of the contexts that stay as they were if
and only if it keeps no reference. -/
theorem refCounts_kept_iff {e : EntryPoint} (hrun : Finishes T e.prog w w') :
    KeepsRefCounts w w' ↔ ¬ e.Leaks w := by
  by_cases hmay : e.MayLeak
  · rcases hmay with ⟨s, optval, rfl⟩ | ⟨s, lowerCloses, rfl⟩
    · exact setSockOpt_keeps_iff hrun
    · exact closeSocket_keeps_iff hrun
  · have hbalanced : e.prog.Balanced [] := (balanced_prog e).resolve_right hmay
    have hkeeps : KeepsRefCounts w w' := keepsRefCounts_iff_drops.mpr (hrun.drops hbalanced)
    exact iff_of_true hkeeps fun hleaks => hmay hleaks.mayLeak

end Leaks

theorem refCounts_kept_iff_bind :
    ∃ w', Finishes 0 (EntryPoint.bind 1).prog World.oneSocket w' ∧
      KeepsRefCounts World.oneSocket w' :=
  have hrun : Finishes 0 (EntryPoint.bind 1).prog World.oneSocket _ :=
    .step rfl (.step rfl (.ret _))
  ⟨_, hrun, (refCounts_kept_iff hrun).mpr id⟩

/-- `WSPSetSockOpt(SO_UPDATE_ACCEPT_CONTEXT)` with an accept socket that is no
socket. -/
theorem accept_context_keeps_reference :
    ∃ w', Finishes 0 (EntryPoint.setSockOpt 1 (some 2)).prog World.oneSocket w' ∧
      ¬ KeepsRefCounts World.oneSocket w' := by
  refine ⟨_, .step rfl (.step rfl (.ret _)), ?_⟩
  have ha : World.oneSocket.heap 0 = some (0, SockInfo.new) := rfl
  exact not_keepsRefCounts ha (World.modify_heap_self ha) rfl

end MiscProjects.Lsp.Calls
