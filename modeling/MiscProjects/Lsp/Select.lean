import MiscProjects.Lsp.NewSockets

/-!
# `WSPSelect`

The sockets of the three sets are replaced by those of the lower provider, and
after its `WSPSelect` those that are left are replaced by the application's.  The
way back counts down from the number of sockets that the lower provider returns,
over all three sets, and a loop ends early when the count is used up.

A context is locked and unlocked for each socket of the sets.  If it is being
closed, it may be freed there, and the provider that is called is read from the
context of the last socket.
-/

namespace MiscProjects.Lsp.Select

open Providers NewSockets

def fdSetSize : ℕ := 64

def wsaeinval : INT := 10022

/-- Three `fd_set`s, each of which may be absent. -/
structure FdSets (α : Type) where
  readfds : Option (List α)
  writefds : Option (List α)
  exceptfds : Option (List α)

def fdSet {α : Type} [DecidableEq α] (fd : α) (set : List α) : List α :=
  if fd ∈ set then set else if set.length < fdSetSize then set ++ [fd] else set

/-! ## The way down -/

/-- An element of `Read`, `Write` or `Except`. -/
structure Pair where
  clientSocket : SOCKET
  provSocket : Option SOCKET

/-- A step that may touch freed memory, or fail with an error. -/
abbrev Step (α : Type) := Option (Sockets × Except INT α)

def andThen {α β : Type} (x : Step α) (k : α → Sockets → Step β) : Step β :=
  match x with
  | none => none
  | some (s, .error lpErrno) => some (s, .error lpErrno)
  | some (s, .ok a) => k a s

/-- The loop that translates one set, with `SocketContext` before and after it. -/
def translate : List SOCKET → Option ContextPtr → Sockets → Step (List Pair × Option ContextPtr)
  | [], socketContext, s => some (s, .ok ([], socketContext))
  | h :: fds, _, s =>
      match s.handles h with
      | none => some (s, .error wsaenotsock)
      | some a =>
          match s.contexts a with
          | none => none
          | some ctx =>
              match (s.lock a ctx).unlockSocketContext a with
              | none => none
              | some s => andThen (translate fds (some a) s) fun rest s =>
                  some (s, .ok (⟨h, ctx.providerSocket⟩ :: rest.1, rest.2))

/-- One of the three sets. -/
def translateSet (set : Option (List SOCKET)) (socketContext : Option ContextPtr) (s : Sockets) :
    Step (Option (List Pair) × Option ContextPtr) :=
  match set with
  | none => some (s, .ok (none, socketContext))
  | some fds =>
      if fdSetSize < fds.length then some (s, .error wsaenobufs)
      else andThen (translate fds socketContext s) fun r s => some (s, .ok (some r.1, r.2))

def translateSets (sets : FdSets SOCKET) (s : Sockets) : Step (FdSets Pair × Option ContextPtr) :=
  andThen (translateSet sets.readfds none s) fun read s =>
    andThen (translateSet sets.writefds read.2 s) fun write s =>
      andThen (translateSet sets.exceptfds write.2 s) fun except s =>
        some (s, .ok (⟨read.1, write.1, except.1⟩, except.2))

/-- The set that is built along the way. -/
def provSet (pairs : List Pair) : List (Option SOCKET) :=
  pairs.foldl (fun set p => fdSet p.provSocket set) []

/-- `ReadFds`, `WriteFds` and `ExceptFds`. -/
def provSets (pairs : FdSets Pair) : FdSets (Option SOCKET) where
  readfds := pairs.readfds.map provSet
  writefds := pairs.writefds.map provSet
  exceptfds := pairs.exceptfds.map provSet

/-! ## The way back -/

/-- The loop over the elements, with the set and `HandleCount`. -/
def mapBack (left : List (Option SOCKET)) : List Pair → ℕ → List SOCKET → List SOCKET × ℕ
  | [], handleCount, set => (set, handleCount)
  | p :: pairs, handleCount, set =>
      if handleCount = 0 then (set, handleCount)
      else if p.provSocket ∈ left then
        mapBack left pairs (handleCount - 1) (fdSet p.clientSocket set)
      else mapBack left pairs handleCount set

/-- One of the three sets. -/
def mapBackSet (left : Option (List (Option SOCKET))) (pairs : Option (List Pair))
    (handleCount : ℕ) : Option (List SOCKET) × ℕ :=
  match pairs with
  | none => (none, handleCount)
  | some pairs =>
      let r := mapBack (left.getD []) pairs handleCount []
      (some r.1, r.2)

def mapBackSets (left : FdSets (Option SOCKET)) (pairs : FdSets Pair) (ret : ℕ) :
    FdSets SOCKET :=
  let read := mapBackSet left.readfds pairs.readfds ret
  let write := mapBackSet left.writefds pairs.writefds read.2
  let except := mapBackSet left.exceptfds pairs.exceptfds write.2
  ⟨read.1, write.1, except.1⟩

/-! ## `WSPSelect` -/

/-- What is left of a set: one of its subsets. -/
def Leaves {α : Type} (given left : Option (List α)) : Prop :=
  (given = none ↔ left = none) ∧
    ∀ fds fds', given = some fds → left = some fds' → fds'.Nodup ∧ fds' ⊆ fds

def size {α : Type} (set : Option (List α)) : ℕ := (set.map List.length).getD 0

/-- The number of sockets in three sets. -/
def FdSets.total {α : Type} (sets : FdSets α) : ℕ :=
  size sets.readfds + size sets.writefds + size sets.exceptfds

/-- The `WSPSelect` of a lower provider: an error, or the number of sockets that it has left
and the sets that it has left them in. -/
structure LowerSelect where
  lpWSPSelect : FdSets (Option SOCKET) → Except INT (ℕ × FdSets (Option SOCKET))
  readfds : ∀ given ret left, lpWSPSelect given = .ok (ret, left) →
    Leaves given.readfds left.readfds
  writefds : ∀ given ret left, lpWSPSelect given = .ok (ret, left) →
    Leaves given.writefds left.writefds
  exceptfds : ∀ given ret left, lpWSPSelect given = .ok (ret, left) →
    Leaves given.exceptfds left.exceptfds
  total : ∀ given ret left, lpWSPSelect given = .ok (ret, left) → ret = left.total

/-- The application's sets after the call, and its result. -/
structure Result where
  sockets : Sockets
  sets : FdSets SOCKET
  ret : Except INT ℕ

/-- `WSPSelect`, with the lower providers; `none` if it touches freed memory. -/
def wspSelect (lower : ℕ → LowerSelect) (sets : FdSets SOCKET) (s : Sockets) : Option Result :=
  if sets.readfds = none ∧ sets.writefds = none ∧ sets.exceptfds = none then
    some ⟨s, sets, .error wsaeinval⟩
  else
    match translateSets sets s with
    | none => none
    | some (s, .error lpErrno) => some ⟨s, sets, .error lpErrno⟩
    | some (s, .ok (_, none)) => some ⟨s, sets, .error wsaeinval⟩
    | some (s, .ok (pairs, some a)) =>
        match s.contexts a with
        | none => none
        | some ctx =>
            match (lower ctx.provider).lpWSPSelect (provSets pairs) with
            | .error lpErrno => some ⟨s, sets, .error lpErrno⟩
            | .ok (ret, left) => some ⟨s, mapBackSets left pairs ret, .ok ret⟩

/-! ## Statement -/

/-- The provider socket of a handle. -/
def provSocketOf (s : Sockets) (h : SOCKET) : Option SOCKET :=
  (s.contextOf h).bind (·.providerSocket)

/-- A set holds distinct sockets, no more than fit, with distinct provider sockets. -/
structure DistinctSet (s : Sockets) (fds : List SOCKET) : Prop where
  nodup : fds.Nodup
  fits : fds.length ≤ fdSetSize
  provSocket : ∀ h ∈ fds, ∀ k ∈ fds, ∀ ctx ctx', s.contextOf h = some ctx →
    s.contextOf k = some ctx' → ctx.providerSocket = ctx'.providerSocket → h = k

/-- So do all three. -/
structure Distinct (s : Sockets) (sets : FdSets SOCKET) : Prop where
  readfds : ∀ fds, sets.readfds = some fds → DistinctSet s fds
  writefds : ∀ fds, sets.writefds = some fds → DistinctSet s fds
  exceptfds : ∀ fds, sets.exceptfds = some fds → DistinctSet s fds

/-- What becomes of a set whose provider sockets in `left` are left. -/
def keep (s : Sockets) (left : Option (List (Option SOCKET))) (set : Option (List SOCKET)) :
    Option (List SOCKET) :=
  set.map fun fds => fds.filter fun h => provSocketOf s h ∈ left.getD []

/-- The provider sockets of a set. -/
def down (s : Sockets) (set : Option (List SOCKET)) : Option (List (Option SOCKET)) :=
  set.map fun fds => fds.map (provSocketOf s)

/-- After an error the sets are as they were.  Otherwise a lower provider has been called
with the provider sockets of the sets, the sets hold exactly the sockets whose provider
sockets it has left in them, and their number is returned. -/
structure Translated (lower : ℕ → LowerSelect) (s : Sockets) (sets : FdSets SOCKET)
    (r : Result) : Prop where
  error : ∀ lpErrno, r.ret = .error lpErrno → r.sets = sets
  ok : ∀ ret, r.ret = .ok ret → ∃ provider left,
    (lower provider).lpWSPSelect
        ⟨down s sets.readfds, down s sets.writefds, down s sets.exceptfds⟩ = .ok (ret, left) ∧
      r.sets = ⟨keep s left.readfds sets.readfds, keep s left.writefds sets.writefds,
        keep s left.exceptfds sets.exceptfds⟩ ∧ ret = r.sets.total

/-- The sockets of a set that are there are not being closed. -/
def OpenSet (s : Sockets) (fds : List SOCKET) : Prop :=
  ∀ h ∈ fds, ∀ a, s.handles h = some a → ∃ ctx, s.contexts a = some ctx ∧ ctx.bClosing = false

/-- Nor are those of all three. -/
structure Open (s : Sockets) (sets : FdSets SOCKET) : Prop where
  readfds : ∀ fds, sets.readfds = some fds → OpenSet s fds
  writefds : ∀ fds, sets.writefds = some fds → OpenSet s fds
  exceptfds : ∀ fds, sets.exceptfds = some fds → OpenSet s fds

/-! ## Sets -/

section Sets
variable {α : Type} [DecidableEq α] {pairs : List Pair} {left : List (Option SOCKET)}

theorem fdSet_of_not_mem {fd : α} {set : List α} (hmem : fd ∉ set)
    (hlen : set.length < fdSetSize) : fdSet fd set = set ++ [fd] := by
  rw [fdSet, if_neg hmem, if_pos hlen]

theorem provSet_eq (hnodup : (pairs.map (·.provSocket)).Nodup) (hlen : pairs.length ≤ fdSetSize) :
    provSet pairs = pairs.map (·.provSocket) := by
  have hall : ∀ done todo : List Pair, ((done ++ todo).map (·.provSocket)).Nodup →
      (done ++ todo).length ≤ fdSetSize →
        todo.foldl (fun set p => fdSet p.provSocket set) (done.map (·.provSocket)) =
          (done ++ todo).map (·.provSocket) := by
    intro done todo
    induction todo generalizing done with
    | nil =>
        intro _ _
        simp
    | cons p todo ih =>
        intro hnodup hlen
        have hnew : p.provSocket ∉ done.map (·.provSocket) := by
          rw [List.map_append, List.nodup_append] at hnodup
          intro hmem
          exact hnodup.2.2 _ hmem _ (by simp) rfl
        have hroom : (done.map (·.provSocket)).length < fdSetSize := by
          simp only [List.length_append, List.length_cons] at hlen
          rw [List.length_map]
          omega
        rw [List.foldl_cons, fdSet_of_not_mem hnew hroom]
        rw [List.append_cons] at hnodup hlen ⊢
        simpa using ih (done ++ [p]) hnodup hlen
  exact hall [] pairs hnodup hlen

theorem length_filter_left (hnodup : (pairs.map (·.provSocket)).Nodup) (hleft : left.Nodup)
    (hsub : left ⊆ pairs.map (·.provSocket)) :
    (pairs.filter fun p => p.provSocket ∈ left).length = left.length := by
  have hperm : ((pairs.map (·.provSocket)).filter fun fd => fd ∈ left).Perm left := by
    refine (List.perm_ext_iff_of_nodup (hnodup.filter _) hleft).2 fun fd => ?_
    simp only [List.mem_filter, decide_eq_true_eq]
    exact ⟨fun h => h.2, fun h => ⟨hsub h, h⟩⟩
  rw [← hperm.length_eq, List.filter_map, List.length_map]
  rfl

/-- If the count is no less than the number of elements that are left, the loop finds all of
them, whether it ends early or not. -/
theorem mapBack_eq (pairs : List Pair) (handleCount : ℕ) (set : List SOCKET)
    (hcount : (pairs.filter fun p => p.provSocket ∈ left).length ≤ handleCount)
    (hnodup : (set ++ pairs.map (·.clientSocket)).Nodup)
    (hlen : (set ++ pairs.map (·.clientSocket)).length ≤ fdSetSize) :
    mapBack left pairs handleCount set =
      (set ++ (pairs.filter fun p => p.provSocket ∈ left).map (·.clientSocket),
        handleCount - (pairs.filter fun p => p.provSocket ∈ left).length) := by
  induction pairs generalizing handleCount set with
  | nil => simp [mapBack]
  | cons p pairs ih =>
      have hsub : (set ++ pairs.map (·.clientSocket)).Sublist
          (set ++ (p :: pairs).map (·.clientSocket)) :=
        (List.Sublist.refl set).append (List.sublist_cons_self ..)
      by_cases hmem : p.provSocket ∈ left
      · rw [List.filter_cons_of_pos (by simpa using hmem), List.length_cons] at hcount ⊢
        have hpos : handleCount ≠ 0 := by omega
        have hnew : p.clientSocket ∉ set := by
          intro hset
          rw [List.nodup_append] at hnodup
          exact hnodup.2.2 _ hset _ (by simp) rfl
        have hroom : set.length < fdSetSize := by
          simp only [List.length_append, List.map_cons, List.length_cons] at hlen
          omega
        rw [mapBack, if_neg hpos, if_pos hmem, fdSet_of_not_mem hnew hroom]
        rw [List.map_cons, List.append_cons] at hnodup hlen
        rw [ih (handleCount - 1) (set ++ [p.clientSocket]) (by omega) hnodup hlen]
        refine Prod.ext (by simp) ?_
        change handleCount - 1 - _ = handleCount - (_ + 1)
        omega
      · rw [List.filter_cons_of_neg (by simpa using hmem)] at hcount ⊢
        by_cases hzero : handleCount = 0
        · -- The loop ends early, and nothing of what it skips is left.
          have hnone : (pairs.filter fun p => p.provSocket ∈ left) = [] :=
            List.eq_nil_of_length_eq_zero (by omega)
          rw [mapBack, if_pos hzero, hnone]
          simp
        · rw [mapBack, if_neg hzero, if_neg hmem]
          exact ih handleCount set hcount (hsub.nodup hnodup) (Nat.le_trans hsub.length_le hlen)

end Sets

/-! ## Contexts along the way -/

section Contexts
variable {s s' s'' s₀ : Sockets} {a b : ContextPtr} {ctx : NewSockets.SockInfo} {h : SOCKET}

/-- What is still there after a few lookups was there before, with the same provider
socket. -/
structure Known (s s' : Sockets) : Prop where
  handles : ∀ h a, s'.handles h = some a → s.handles h = some a
  contexts : ∀ a ctx', s'.contexts a = some ctx' →
    ∃ ctx, s.contexts a = some ctx ∧ ctx'.providerSocket = ctx.providerSocket

theorem Known.refl (s : Sockets) : Known s s := ⟨fun _ _ h => h, fun _ ctx h => ⟨ctx, h, rfl⟩⟩

theorem Known.trans (hs : Known s s') (hs' : Known s' s'') : Known s s'' where
  handles h a hh := hs.handles h a (hs'.handles h a hh)
  contexts a ctx'' ha := by
    obtain ⟨ctx', ha', heq'⟩ := hs'.contexts a ctx'' ha
    obtain ⟨ctx, ha, heq⟩ := hs.contexts a ctx' ha'
    exact ⟨ctx, ha, heq'.trans heq⟩

theorem unlockSocketContext_lock (ha : s.contexts a = some ctx) :
    (s.lock a ctx).unlockSocketContext a =
      if ctx.refCount = 0 ∧ ctx.bClosing = true then
        some ((((s.lock a ctx).wpuCloseSocketHandle ctx.layeredSocket).removeSocketInfo
          ctx.provider a).setContext a none)
      else some s := by
  have hlocked : (s.lock a ctx).contexts a = some { ctx with refCount := ctx.refCount + 1 } :=
    setContext_contexts_self ..
  have hcount : ctx.refCount + 1 - 1 = ctx.refCount := BitVec.add_sub_cancel _ _
  have hback : (s.lock a ctx).setContext a (some ctx) = s := by
    unfold Sockets.lock Sockets.setContext
    rw [Function.update_idem, ← ha, Function.update_eq_self]
  simp only [Sockets.unlockSocketContext, hlocked, hcount]
  split
  · rfl
  · exact congrArg some hback

theorem known_wpuCloseSocketHandle (h : Option SOCKET) : Known s (s.wpuCloseSocketHandle h) := by
  rcases h with - | h
  · exact Known.refl s
  · refine ⟨?_, fun _ ctx ha => ⟨ctx, ha, rfl⟩⟩
    intro k b hk
    change (s.setHandle h none).handles k = some b at hk
    by_cases hkh : k = h
    · rw [hkh, setHandle_handles_self] at hk
      exact absurd hk (by simp)
    · rwa [setHandle_handles_of_ne hkh] at hk

theorem known_setContext_none (a : ContextPtr) : Known s (s.setContext a none) := by
  refine ⟨fun _ _ hh => hh, ?_⟩
  intro b ctx hb
  by_cases hba : b = a
  · rw [hba, setContext_contexts_self] at hb
    exact absurd hb (by simp)
  · rw [setContext_contexts_of_ne hba] at hb
    exact ⟨ctx, hb, rfl⟩

theorem known_lock (ha : s.contexts a = some ctx) : Known s (s.lock a ctx) := by
  refine ⟨fun _ _ hh => hh, ?_⟩
  intro b ctx' hb
  by_cases hba : b = a
  · rw [hba, Sockets.lock, setContext_contexts_self] at hb
    exact ⟨ctx, hba ▸ ha, by rw [← Option.some.inj hb]⟩
  · rw [Sockets.lock, setContext_contexts_of_ne hba] at hb
    exact ⟨ctx', hb, rfl⟩

theorem known_lookup (ha : s.contexts a = some ctx)
    (hunlock : (s.lock a ctx).unlockSocketContext a = some s') : Known s s' := by
  rw [unlockSocketContext_lock ha] at hunlock
  split at hunlock
  · rw [← Option.some.inj hunlock]
    have hremoved : Known ((s.lock a ctx).wpuCloseSocketHandle ctx.layeredSocket)
        (((s.lock a ctx).wpuCloseSocketHandle ctx.layeredSocket).removeSocketInfo ctx.provider a) :=
      ⟨fun _ _ hh => hh, fun _ ctx hb => ⟨ctx, hb, rfl⟩⟩
    exact (((known_lock ha).trans (known_wpuCloseSocketHandle _)).trans hremoved).trans
      (known_setContext_none a)
  · rw [← Option.some.inj hunlock]
    exact Known.refl s

end Contexts

/-! ## The translation -/

section Translation
variable {s s' s₀ : Sockets} {fds : List SOCKET} {set : Option (List SOCKET)}
  {socketContext last : Option ContextPtr} {pairs : List Pair} {sets : FdSets SOCKET}

/-- The elements are the sockets of a set with their provider sockets, which all have a
context. -/
structure PairsOf (s : Sockets) (fds : List SOCKET) (pairs : List Pair) : Prop where
  pairs : pairs = fds.map fun h => ⟨h, provSocketOf s h⟩
  contexts : ∀ h ∈ fds, ∃ ctx, s.contextOf h = some ctx

theorem andThen_eq_ok {α β : Type} {x : Step α} {k : α → Sockets → Step β} {b : β}
    (hx : andThen x k = some (s', .ok b)) :
    ∃ s a, x = some (s, .ok a) ∧ k a s = some (s', .ok b) := by
  unfold andThen at hx
  rcases x with - | ⟨s, lpErrno | a⟩
  · exact absurd hx (by simp)
  · exact absurd hx (by simp)
  · exact ⟨s, a, rfl, hx⟩

theorem translate_ok (hknown : Known s₀ s)
    (hloop : translate fds socketContext s = some (s', .ok (pairs, last))) :
    Known s₀ s' ∧ PairsOf s₀ fds pairs := by
  induction fds generalizing socketContext s pairs with
  | nil =>
      simp only [translate, Option.some.injEq, Prod.mk.injEq, Except.ok.injEq] at hloop
      obtain ⟨rfl, rfl, -⟩ := hloop
      exact ⟨hknown, rfl, by simp⟩
  | cons h fds ih =>
      rcases hh : s.handles h with - | a
      · simp [translate, hh] at hloop
      · rcases ha : s.contexts a with - | ctx
        · simp [translate, hh, ha] at hloop
        · rcases hunlock : (s.lock a ctx).unlockSocketContext a with - | u
          · simp [translate, hh, ha, hunlock] at hloop
          · simp only [translate, hh, ha, hunlock] at hloop
            obtain ⟨s₁, ⟨rest, last'⟩, hrest, hlast⟩ := andThen_eq_ok hloop
            simp only [Option.some.injEq, Prod.mk.injEq, Except.ok.injEq] at hlast
            obtain ⟨rfl, rfl, rfl⟩ := hlast
            obtain ⟨hknown', hpairs⟩ := ih (hknown.trans (known_lookup ha hunlock)) hrest
            obtain ⟨ctx₀, ha₀, hsame⟩ := hknown.contexts a ctx ha
            have hctx : s₀.contextOf h = some ctx₀ :=
              contextOf_eq_some.2 ⟨a, hknown.handles h a hh, ha₀⟩
            refine ⟨hknown', ?_, ?_⟩
            · rw [List.map_cons, ← hpairs.pairs, hsame]
              simp [provSocketOf, hctx]
            · intro k hk
              rcases List.mem_cons.1 hk with rfl | hk
              · exact ⟨ctx₀, hctx⟩
              · exact hpairs.contexts k hk

/-- One of the three sets. -/
structure SetPairs (s : Sockets) (set : Option (List SOCKET)) (pairs : Option (List Pair)) :
    Prop where
  absent : set = none → pairs = none
  present : ∀ fds, set = some fds → ∃ ps, pairs = some ps ∧ PairsOf s fds ps

theorem translateSet_ok {pairs : Option (List Pair)} (hknown : Known s₀ s)
    (hset : translateSet set socketContext s = some (s', .ok (pairs, last))) :
    Known s₀ s' ∧ SetPairs s₀ set pairs := by
  rcases set with - | fds
  · simp only [translateSet, Option.some.injEq, Prod.mk.injEq, Except.ok.injEq] at hset
    obtain ⟨rfl, rfl, -⟩ := hset
    exact ⟨hknown, fun _ => rfl, fun fds hfds => absurd hfds (by simp)⟩
  · unfold translateSet at hset
    by_cases hlong : fdSetSize < fds.length
    · simp [hlong] at hset
    · simp only [hlong, if_false] at hset
      obtain ⟨s₁, ⟨ps, last'⟩, hloop, hlast⟩ := andThen_eq_ok hset
      simp only [Option.some.injEq, Prod.mk.injEq, Except.ok.injEq] at hlast
      obtain ⟨rfl, rfl, rfl⟩ := hlast
      obtain ⟨hknown', hpairs⟩ := translate_ok hknown hloop
      refine ⟨hknown', fun hnone => absurd hnone (by simp), ?_⟩
      intro fds' hfds
      obtain rfl : fds = fds' := Option.some.inj hfds
      exact ⟨ps, rfl, hpairs⟩

theorem translateSets_ok {pairs : FdSets Pair}
    (hsets : translateSets sets s = some (s', .ok (pairs, last))) :
    SetPairs s sets.readfds pairs.readfds ∧ SetPairs s sets.writefds pairs.writefds ∧
      SetPairs s sets.exceptfds pairs.exceptfds := by
  unfold translateSets at hsets
  obtain ⟨s₁, ⟨read, last₁⟩, hread, hrest⟩ := andThen_eq_ok hsets
  obtain ⟨s₂, ⟨write, last₂⟩, hwrite, hrest⟩ := andThen_eq_ok hrest
  obtain ⟨s₃, ⟨except, last₃⟩, hexcept, hlast⟩ := andThen_eq_ok hrest
  simp only [Option.some.injEq, Prod.mk.injEq, Except.ok.injEq] at hlast
  obtain ⟨rfl, rfl, rfl⟩ := hlast
  obtain ⟨hknown₁, hr⟩ := translateSet_ok (Known.refl s) hread
  obtain ⟨hknown₂, hw⟩ := translateSet_ok hknown₁ hwrite
  exact ⟨hr, hw, (translateSet_ok hknown₂ hexcept).2⟩

end Translation

/-! ## There and back -/

section Back
variable {s : Sockets} {fds : List SOCKET} {set : Option (List SOCKET)} {pairs : List Pair}

theorem PairsOf.provSocket (hpairs : PairsOf s fds pairs) :
    pairs.map (·.provSocket) = fds.map (provSocketOf s) := by
  rw [hpairs.pairs, List.map_map]
  rfl

theorem PairsOf.clientSocket (hpairs : PairsOf s fds pairs) : pairs.map (·.clientSocket) = fds := by
  rw [hpairs.pairs, List.map_map]
  exact List.map_id _

theorem PairsOf.nodup (hpairs : PairsOf s fds pairs) (hdistinct : DistinctSet s fds) :
    (pairs.map (·.provSocket)).Nodup := by
  rw [hpairs.provSocket]
  refine hdistinct.nodup.map_on ?_
  intro h hh k hk heq
  obtain ⟨ctx, hctx⟩ := hpairs.contexts h hh
  obtain ⟨ctx', hctx'⟩ := hpairs.contexts k hk
  refine hdistinct.provSocket h hh k hk ctx ctx' hctx hctx' ?_
  simpa [provSocketOf, hctx, hctx'] using heq

theorem PairsOf.provSet (hpairs : PairsOf s fds pairs) (hdistinct : DistinctSet s fds) :
    provSet pairs = fds.map (provSocketOf s) := by
  rw [provSet_eq (hpairs.nodup hdistinct), hpairs.provSocket]
  rw [hpairs.pairs, List.length_map]
  exact hdistinct.fits

theorem PairsOf.filter (hpairs : PairsOf s fds pairs) (left : List (Option SOCKET)) :
    (pairs.filter fun p => p.provSocket ∈ left).map (·.clientSocket) =
      fds.filter fun h => provSocketOf s h ∈ left := by
  rw [hpairs.pairs, List.filter_map, List.map_map]
  exact List.map_id _

theorem PairsOf.mapBack (hpairs : PairsOf s fds pairs) (hdistinct : DistinctSet s fds)
    {left : List (Option SOCKET)} (hleft : left.Nodup) (hsub : left ⊆ fds.map (provSocketOf s))
    {handleCount : ℕ} (hcount : left.length ≤ handleCount) : mapBack left pairs handleCount [] =
        (fds.filter fun h => provSocketOf s h ∈ left, handleCount - left.length) ∧
      (fds.filter fun h => provSocketOf s h ∈ left).length = left.length := by
  have hlength : (pairs.filter fun p => p.provSocket ∈ left).length = left.length := by
    refine length_filter_left (hpairs.nodup hdistinct) hleft ?_
    rwa [hpairs.provSocket]
  constructor
  · rw [mapBack_eq pairs handleCount [] (by omega), hlength, List.nil_append, hpairs.filter]
    · rw [List.nil_append, hpairs.clientSocket]
      exact hdistinct.nodup
    · rw [List.nil_append, hpairs.clientSocket]
      exact hdistinct.fits
  · rw [← hpairs.filter, List.length_map, hlength]

variable {ps : Option (List Pair)} {left : Option (List (Option SOCKET))}

theorem SetPairs.provSet (hpairs : SetPairs s set ps)
    (hdistinct : ∀ fds, set = some fds → DistinctSet s fds) : ps.map provSet = down s set := by
  rcases set with - | fds
  · rw [hpairs.absent rfl]
    rfl
  · obtain ⟨pairs, rfl, hfds⟩ := hpairs.present fds rfl
    rw [Option.map_some, hfds.provSet (hdistinct fds rfl)]
    rfl

theorem SetPairs.mapBackSet (hpairs : SetPairs s set ps)
    (hdistinct : ∀ fds, set = some fds → DistinctSet s fds) (hleaves : Leaves (down s set) left)
    (handleCount : ℕ) (hcount : size left ≤ handleCount) :
    mapBackSet left ps handleCount = (keep s left set, handleCount - size left) ∧
      size (keep s left set) = size left := by
  rcases set with - | fds
  · have hleft : left = none := hleaves.1.1 rfl
    rw [hpairs.absent rfl, hleft]
    exact ⟨rfl, rfl⟩
  · obtain ⟨pairs, rfl, hfds⟩ := hpairs.present fds rfl
    rcases left with - | left
    · exact absurd (hleaves.1.2 rfl) (by simp [down])
    · obtain ⟨hnodup, hsub⟩ := hleaves.2 _ left rfl rfl
      obtain ⟨hback, hlength⟩ := hfds.mapBack (hdistinct fds rfl) hnodup hsub hcount
      refine ⟨?_, hlength⟩
      change (some (Select.mapBack left pairs handleCount []).1,
        (Select.mapBack left pairs handleCount []).2) = _
      rw [hback]
      rfl

theorem mapBackSets_eq {sets : FdSets SOCKET} {pairs : FdSets Pair} {left : FdSets (Option SOCKET)}
    (hdistinct : Distinct s sets) (hread : SetPairs s sets.readfds pairs.readfds)
    (hwrite : SetPairs s sets.writefds pairs.writefds)
    (hexcept : SetPairs s sets.exceptfds pairs.exceptfds)
    (hleftRead : Leaves (down s sets.readfds) left.readfds)
    (hleftWrite : Leaves (down s sets.writefds) left.writefds)
    (hleftExcept : Leaves (down s sets.exceptfds) left.exceptfds) :
    mapBackSets left pairs left.total = ⟨keep s left.readfds sets.readfds,
        keep s left.writefds sets.writefds, keep s left.exceptfds sets.exceptfds⟩ ∧
      (mapBackSets left pairs left.total).total = left.total := by
  have htotal : left.total = size left.readfds + size left.writefds + size left.exceptfds := rfl
  obtain ⟨hback₁, hsize₁⟩ := hread.mapBackSet hdistinct.readfds hleftRead left.total (by omega)
  obtain ⟨hback₂, hsize₂⟩ := hwrite.mapBackSet hdistinct.writefds hleftWrite
    (left.total - size left.readfds) (by omega)
  obtain ⟨hback₃, hsize₃⟩ := hexcept.mapBackSet hdistinct.exceptfds hleftExcept
    (left.total - size left.readfds - size left.writefds) (by omega)
  have hsets : mapBackSets left pairs left.total = ⟨keep s left.readfds sets.readfds,
      keep s left.writefds sets.writefds, keep s left.exceptfds sets.exceptfds⟩ := by
    simp only [mapBackSets, hback₁, hback₂, hback₃]
  refine ⟨hsets, ?_⟩
  rw [hsets, FdSets.total, hsize₁, hsize₂, hsize₃, htotal]

end Back

/-! ## No freed memory -/

section Open
variable {s s' : Sockets} {fds : List SOCKET} {set : Option (List SOCKET)}
  {socketContext : Option ContextPtr} {sets : FdSets SOCKET}

/-- `SocketContext` points to a context. -/
def Points (s : Sockets) (socketContext : Option ContextPtr) : Prop :=
  ∀ a, socketContext = some a → ∃ ctx, s.contexts a = some ctx

/-- A step that leaves the contexts as they are, and a context for the next one. -/
def Leads {α : Type} (s : Sockets) (x : Step (α × Option ContextPtr)) : Prop :=
  ∃ r, x = some (s, r) ∧ ∀ a socketContext, r = .ok (a, socketContext) → Points s socketContext

theorem Leads.andThen {α β : Type} {x : Step (α × Option ContextPtr)}
    {k : α × Option ContextPtr → Sockets → Step (β × Option ContextPtr)} (hx : Leads s x)
    (hk : ∀ a socketContext, Points s socketContext → Leads s (k (a, socketContext) s)) :
    Leads s (andThen x k) := by
  obtain ⟨r, rfl, hr⟩ := hx
  rcases r with lpErrno | ⟨a, socketContext⟩
  · exact ⟨.error lpErrno, rfl, fun _ _ h => absurd h (by simp)⟩
  · exact hk a socketContext (hr a socketContext rfl)

theorem leads_ok {α : Type} (a : α) (hpoints : Points s socketContext) :
    Leads s (some (s, .ok (a, socketContext))) := by
  refine ⟨_, rfl, ?_⟩
  rintro b last hlast
  obtain ⟨-, rfl⟩ := Prod.mk.inj (Except.ok.inj hlast)
  exact hpoints

theorem leads_translate (hopen : OpenSet s fds) (hpoints : Points s socketContext) :
    Leads s (translate fds socketContext s) := by
  induction fds generalizing socketContext with
  | nil => exact leads_ok _ hpoints
  | cons h fds ih =>
      rcases hh : s.handles h with - | a
      · refine ⟨.error wsaenotsock, ?_, fun _ _ h => absurd h (by simp)⟩
        simp [translate, hh]
      · obtain ⟨ctx, ha, hclosing⟩ := hopen h List.mem_cons_self a hh
        have hunlock : (s.lock a ctx).unlockSocketContext a = some s := by
          rw [unlockSocketContext_lock ha, if_neg (by simp [hclosing])]
        have hnext : Points s (some a) := by
          intro b hb
          rw [← Option.some.inj hb]
          exact ⟨ctx, ha⟩
        have hrest := ih (fun k hk => hopen k (List.mem_cons_of_mem _ hk)) hnext
        simp only [translate, hh, ha, hunlock]
        refine hrest.andThen fun rest last hlast => ?_
        exact leads_ok _ hlast

theorem leads_translateSet (hopen : ∀ fds, set = some fds → OpenSet s fds)
    (hpoints : Points s socketContext) : Leads s (translateSet set socketContext s) := by
  rcases set with - | fds
  · exact leads_ok _ hpoints
  · unfold translateSet
    by_cases hlong : fdSetSize < fds.length
    · simp only [hlong, if_true]
      exact ⟨_, rfl, fun _ _ h => absurd h (by simp)⟩
    · simp only [hlong, if_false]
      refine (leads_translate (hopen fds rfl) hpoints).andThen fun pairs last hlast => ?_
      exact leads_ok _ hlast

theorem leads_translateSets (hopen : Open s sets) : Leads s (translateSets sets s) := by
  have hnone : Points s none := fun _ h => absurd h (by simp)
  refine (leads_translateSet hopen.readfds hnone).andThen fun read last₁ h₁ => ?_
  refine (leads_translateSet hopen.writefds h₁).andThen fun write last₂ h₂ => ?_
  refine (leads_translateSet hopen.exceptfds h₂).andThen fun except last₃ h₃ => ?_
  exact leads_ok _ h₃

theorem wspSelect_isSome (lower : ℕ → LowerSelect) (hopen : Open s sets) :
    ∃ r, wspSelect lower sets s = some r := by
  unfold wspSelect
  split
  · exact ⟨_, rfl⟩
  · obtain ⟨r, hr, hpoints⟩ := leads_translateSets hopen
    rw [hr]
    rcases r with lpErrno | ⟨pairs, - | a⟩
    · exact ⟨_, rfl⟩
    · exact ⟨_, rfl⟩
    · obtain ⟨ctx, ha⟩ := hpoints pairs (some a) rfl a rfl
      simp only [ha]
      split <;> exact ⟨_, rfl⟩

end Open

theorem leaves_take {α : Type} (given : Option (List α)) :
    Leaves given (given.map (List.take 1)) := by
  refine ⟨by simp, ?_⟩
  rintro fds left rfl hleft
  obtain rfl := Option.some.inj hleft
  refine ⟨?_, List.take_subset 1 fds⟩
  rcases fds with - | ⟨fd, fds⟩ <;> simp

/-- A lower provider that leaves the first socket of each set. -/
def leavesFirst : LowerSelect where
  lpWSPSelect given :=
    let left : FdSets (Option SOCKET) := ⟨given.readfds.map (List.take 1),
      given.writefds.map (List.take 1), given.exceptfds.map (List.take 1)⟩
    .ok (left.total, left)
  readfds := fun given ret left hleft => by
    obtain ⟨-, rfl⟩ := Prod.mk.inj (Except.ok.inj hleft)
    exact leaves_take given.readfds
  writefds := fun given ret left hleft => by
    obtain ⟨-, rfl⟩ := Prod.mk.inj (Except.ok.inj hleft)
    exact leaves_take given.writefds
  exceptfds := fun given ret left hleft => by
    obtain ⟨-, rfl⟩ := Prod.mk.inj (Except.ok.inj hleft)
    exact leaves_take given.exceptfds
  total := fun given ret left hleft => by
    obtain ⟨hret, rfl⟩ := Prod.mk.inj (Except.ok.inj hleft)
    exact hret.symm

/-- Two sockets, 4 and 5. -/
def twoSockets : Sockets where
  contexts := fun a =>
    if a = 100 then some (newInfo 0 (some 50) none)
    else if a = 200 then some (newInfo 0 (some 51) none) else none
  socketList := fun i => if i = 0 then [200, 100] else []
  handles := fun h => if h = 4 then some 100 else if h = 5 then some 200 else none

/-- Both are to be read, and the second one is to be written. -/
def twoSets : FdSets SOCKET := ⟨some [4, 5], some [5], none⟩

theorem distinctSet_twoSockets {fds : List SOCKET} (hnodup : fds.Nodup)
    (hsub : fds ⊆ [4, 5]) : DistinctSet twoSockets fds where
  nodup := hnodup
  fits := Nat.le_trans (hnodup.length_le_of_subset hsub) (by decide)
  provSocket := by
    intro h hh k hk ctx ctx' hctx hctx' heq
    have hfound : ∀ n ∈ [4, 5], n = if provSocketOf twoSockets n = some 50 then 4 else 5 := by
      decide
    have hsame : provSocketOf twoSockets h = provSocketOf twoSockets k := by
      simpa [provSocketOf, hctx, hctx'] using heq
    rw [hfound h (hsub hh), hfound k (hsub hk), hsame]

end MiscProjects.Lsp.Select
