import Mathlib.Data.List.Basic
import Mathlib.Logic.Function.Basic
import MiscProjects.Lsp.Providers

/-!
# Contexts for new sockets

`CreateSockInfo` allocates the context of a new socket and puts it into the
`SocketList` of its provider at once; the handle for the application is created
after it.  `WSPJoinLeaf` does both for whatever the lower provider returns that is
not the socket it was given, `INVALID_SOCKET` included, and frees a context for
which there is no handle without taking it out of the list.

A `SocketList` is the list of the addresses that its links lead through.  What the
code outside answers is an argument.
-/

namespace MiscProjects.Lsp.NewSockets

open Providers

abbrev SOCKET := ℕ

abbrev ContextPtr := ℕ

def wsaenotsock : INT := 10038

def wsaenobufs : INT := 10055

/-- A `SOCK_INFO`; a socket that is `none` is `INVALID_SOCKET`. -/
structure SockInfo where
  provider : ℕ
  providerSocket : Option SOCKET
  layeredSocket : Option SOCKET
  bClosing : Bool
  refCount : BitVec 32
  hWnd : ℕ
  uMsg : BitVec 32
deriving DecidableEq

/-- The contexts that are allocated, the lists of the providers, and the contexts that
Winsock keeps for the socket handles. -/
structure Sockets where
  contexts : ContextPtr → Option SockInfo
  socketList : ℕ → List ContextPtr
  handles : SOCKET → Option ContextPtr

/-! ## Contexts -/

section Contexts
variable (s : Sockets)

def Sockets.setContext (a : ContextPtr) (ctx : Option SockInfo) : Sockets :=
  { s with contexts := Function.update s.contexts a ctx }

def Sockets.setHandle (h : SOCKET) (a : Option ContextPtr) : Sockets :=
  { s with handles := Function.update s.handles h a }

def Sockets.insertSocketInfo (provider : ℕ) (a : ContextPtr) : Sockets :=
  { s with socketList := Function.update s.socketList provider (a :: s.socketList provider) }

def Sockets.removeSocketInfo (provider : ℕ) (a : ContextPtr) : Sockets :=
  { s with socketList := Function.update s.socketList provider ((s.socketList provider).erase a) }

/-- The context that `CreateSockInfo` fills in. -/
def newInfo (provider : ℕ) (providerSocket : Option SOCKET) (inherit : Option SockInfo) :
    SockInfo where
  provider := provider
  providerSocket := providerSocket
  layeredSocket := some 0
  bClosing := false
  refCount := 0
  hWnd := (inherit.map (·.hWnd)).getD 0
  uMsg := (inherit.map (·.uMsg)).getD 0

/-- `CreateSockInfo` at the address that `HeapAlloc` returns. -/
def Sockets.createSockInfo (a : ContextPtr) (provider : ℕ) (providerSocket : Option SOCKET)
    (inherit : Option SockInfo) : Sockets :=
  (s.setContext a (some (newInfo provider providerSocket inherit))).insertSocketInfo provider a

/-- `WPUCreateSocketHandle`, and the assignment of `LayeredSocket`; the latter is lost if the
context has been freed. -/
def Sockets.createSocketHandle (h : SOCKET) (a : ContextPtr) : Sockets :=
  (s.setHandle h (some a)).setContext a
    ((s.contexts a).map fun ctx => { ctx with layeredSocket := some h })

/-- `FindAndLockSocketContext` for a handle that leads to the context `ctx`. -/
def Sockets.lock (a : ContextPtr) (ctx : SockInfo) : Sockets :=
  s.setContext a (some { ctx with refCount := ctx.refCount + 1 })

def Sockets.wpuCloseSocketHandle (h : Option SOCKET) : Sockets :=
  match h with
  | some h => s.setHandle h none
  | none => s

def Sockets.unlockSocketContext (a : ContextPtr) : Option Sockets :=
  match s.contexts a with
  | none => none
  | some ctx =>
      if ctx.refCount - 1 = 0 ∧ ctx.bClosing = true then
        some (((s.wpuCloseSocketHandle ctx.layeredSocket).removeSocketInfo
          ctx.provider a).setContext a none)
      else some (s.setContext a (some { ctx with refCount := ctx.refCount - 1 }))

end Contexts

/-! ## `WSPJoinLeaf` -/

/-- What the code outside answers to `WSPJoinLeaf`; `none` is a failure. -/
structure JoinAnswer where
  lpWSPJoinLeaf : Option SOCKET
  heapAlloc : Option ContextPtr
  lpWPUCreateSocketHandle : Option SOCKET
  lpErrno : INT

/-- `WSPJoinLeaf`, with the value of `lpErrno`; `none` if it touches freed memory. -/
def wspJoinLeaf (s : Sockets) (h : SOCKET) (answer : JoinAnswer) :
    Option (Sockets × Option SOCKET × INT) :=
  match s.handles h with
  | none => some (s, none, wsaenotsock)
  | some a =>
      match s.contexts a with
      | none => none
      | some ctx =>
          let s := s.lock a ctx
          if answer.lpWSPJoinLeaf ≠ ctx.providerSocket then
            match answer.heapAlloc with
            | none => (s.unlockSocketContext a).map fun s => (s, none, wsaenobufs)
            | some b =>
                let s := s.createSockInfo b ctx.provider answer.lpWSPJoinLeaf (some ctx)
                match answer.lpWPUCreateSocketHandle with
                | none =>
                    ((s.setContext b none).unlockSocketContext a).map fun s =>
                      (s, none, wsaenobufs)
                | some newSocket =>
                    ((s.createSocketHandle newSocket b).unlockSocketContext a).map fun s =>
                      (s, some newSocket, answer.lpErrno)
          else (s.unlockSocketContext a).map fun s => (s, some h, answer.lpErrno)

/-! ## Statement -/

/-- Nothing has been created that is still there: no context, no element of a list and no
handle. -/
structure NoTrace (s s' : Sockets) : Prop where
  contexts : ∀ a, (s'.contexts a).isSome → (s.contexts a).isSome
  socketList : ∀ i a, (s'.socketList i).count a ≤ (s.socketList i).count a
  handles : ∀ h, (s'.handles h).isSome → (s.handles h).isSome

/-- The lower provider fails, or a later step does. -/
def JoinFails (ctx : SockInfo) (answer : JoinAnswer) : Prop :=
  answer.lpWSPJoinLeaf = none ∨ answer.lpWSPJoinLeaf ≠ ctx.providerSocket ∧
    (answer.heapAlloc = none ∨ answer.lpWPUCreateSocketHandle = none)

/-- The context that a handle leads to. -/
def Sockets.contextOf (s : Sockets) (h : SOCKET) : Option SockInfo :=
  (s.handles h).bind s.contexts

/-- A join that fails returns `INVALID_SOCKET` and leaves no trace, and the socket itself is
returned exactly if the lower provider returned its provider socket. -/
structure JoinLaw (s : Sockets) (h : SOCKET) (answer : JoinAnswer) : Prop where
  unknown : s.handles h = none → ∃ s' errno,
    wspJoinLeaf s h answer = some (s', none, errno) ∧ NoTrace s s'
  fails : ∀ ctx, s.contextOf h = some ctx → JoinFails ctx answer → ∃ s' errno,
    wspJoinLeaf s h answer = some (s', none, errno) ∧ NoTrace s s'
  same : ∀ ctx, s.contextOf h = some ctx →
    ((∃ s' errno, wspJoinLeaf s h answer = some (s', some h, errno)) ↔
      answer.lpWSPJoinLeaf = ctx.providerSocket)

/-- Memory and handles that are given out were not in use. -/
structure JoinAnswer.Fresh (answer : JoinAnswer) (s : Sockets) : Prop where
  heapAlloc : ∀ a, answer.heapAlloc = some a → s.contexts a = none
  lpWPUCreateSocketHandle :
    ∀ h, answer.lpWPUCreateSocketHandle = some h → s.handles h = none

/-- A failure of the lower provider is met by one of `HeapAlloc`, and a context that is
allocated gets its handle. -/
structure JoinSafe (ctx : SockInfo) (answer : JoinAnswer) : Prop where
  noMemory : answer.lpWSPJoinLeaf = none →
    ctx.providerSocket ≠ none ∧ answer.heapAlloc = none
  handle : answer.lpWSPJoinLeaf ≠ ctx.providerSocket → answer.heapAlloc ≠ none →
    answer.lpWPUCreateSocketHandle ≠ none

instance (ctx : SockInfo) (answer : JoinAnswer) : Decidable (JoinFails ctx answer) :=
  inferInstanceAs (Decidable (_ ∨ _ ∧ _))

/-! ## What a call leaves -/

section Leaves
variable {s s' s'' u : Sockets} {a b : ContextPtr} {ctx : SockInfo} {h : SOCKET}

theorem NoTrace.trans (hs : NoTrace s s') (hs' : NoTrace s' s'') : NoTrace s s'' where
  contexts a ha := hs.contexts a (hs'.contexts a ha)
  socketList i a := Nat.le_trans (hs'.socketList i a) (hs.socketList i a)
  handles h hh := hs.handles h (hs'.handles h hh)

@[simp]
theorem setContext_contexts_self (s : Sockets) (a : ContextPtr) (ctx : Option SockInfo) :
    (s.setContext a ctx).contexts a = ctx :=
  Function.update_self ..

theorem setContext_contexts_of_ne (hba : b ≠ a) (s : Sockets) (ctx : Option SockInfo) :
    (s.setContext a ctx).contexts b = s.contexts b :=
  Function.update_of_ne hba ..

theorem setHandle_handles_self (s : Sockets) (h : SOCKET) (a : Option ContextPtr) :
    (s.setHandle h a).handles h = a :=
  Function.update_self ..

theorem setHandle_handles_of_ne {h k : SOCKET} (hkh : k ≠ h) (s : Sockets) (a : Option ContextPtr) :
    (s.setHandle h a).handles k = s.handles k :=
  Function.update_of_ne hkh ..

theorem removeSocketInfo_socketList_self (s : Sockets) (provider : ℕ) (a : ContextPtr) :
    (s.removeSocketInfo provider a).socketList provider = (s.socketList provider).erase a :=
  Function.update_self ..

theorem removeSocketInfo_socketList_of_ne {i provider : ℕ} (hi : i ≠ provider) (s : Sockets)
    (a : ContextPtr) : (s.removeSocketInfo provider a).socketList i = s.socketList i :=
  Function.update_of_ne hi ..

theorem noTrace_setContext (ha : s.contexts a = some ctx) (ctx' : Option SockInfo) :
    NoTrace s (s.setContext a ctx') where
  contexts b hb := by
    by_cases hba : b = a
    · rw [hba, ha]
      rfl
    · rwa [setContext_contexts_of_ne hba] at hb
  socketList _ _ := Nat.le_refl _
  handles _ hh := hh

theorem noTrace_wpuCloseSocketHandle (h : Option SOCKET) :
    NoTrace s (s.wpuCloseSocketHandle h) := by
  rcases h with - | h
  · exact ⟨fun _ ha => ha, fun _ _ => Nat.le_refl _, fun _ hk => hk⟩
  · refine ⟨fun _ ha => ha, fun _ _ => Nat.le_refl _, ?_⟩
    intro k hk
    change ((s.setHandle h none).handles k).isSome at hk
    by_cases hkh : k = h
    · rw [hkh, setHandle_handles_self] at hk
      exact absurd hk (by decide)
    · rwa [setHandle_handles_of_ne hkh] at hk

theorem wpuCloseSocketHandle_contexts (h : Option SOCKET) :
    (s.wpuCloseSocketHandle h).contexts = s.contexts := by
  rcases h with - | h <;> rfl

theorem wpuCloseSocketHandle_socketList (h : Option SOCKET) :
    (s.wpuCloseSocketHandle h).socketList = s.socketList := by
  rcases h with - | h <;> rfl

theorem noTrace_removeSocketInfo (provider : ℕ) (a : ContextPtr) :
    NoTrace s (s.removeSocketInfo provider a) where
  contexts _ hb := hb
  socketList i b := by
    by_cases hi : i = provider
    · rw [hi, removeSocketInfo_socketList_self]
      exact List.erase_sublist.count_le b
    · rw [removeSocketInfo_socketList_of_ne hi]
  handles _ hh := hh

theorem count_removeSocketInfo (provider i : ℕ) (hba : b ≠ a) :
    ((s.removeSocketInfo provider a).socketList i).count b = (s.socketList i).count b := by
  by_cases hi : i = provider
  · rw [hi, removeSocketInfo_socketList_self]
    exact List.count_erase_of_ne hba
  · rw [removeSocketInfo_socketList_of_ne hi]

theorem unlockSocketContext_spec (ha : s.contexts a = some ctx) :
    ∃ s', s.unlockSocketContext a = some s' ∧ NoTrace s s' ∧
      ∀ i b, b ≠ a → (s'.socketList i).count b = (s.socketList i).count b := by
  by_cases hlast : ctx.refCount - 1 = 0 ∧ ctx.bClosing = true
  · have hclosed := noTrace_wpuCloseSocketHandle (s := s) ctx.layeredSocket
    have hremoved := noTrace_removeSocketInfo (s := s.wpuCloseSocketHandle ctx.layeredSocket)
      ctx.provider a
    have hctx : ((s.wpuCloseSocketHandle ctx.layeredSocket).removeSocketInfo
        ctx.provider a).contexts a = some ctx := by
      change (s.wpuCloseSocketHandle ctx.layeredSocket).contexts a = some ctx
      rw [wpuCloseSocketHandle_contexts, ha]
    have hunlock : s.unlockSocketContext a =
        some (((s.wpuCloseSocketHandle ctx.layeredSocket).removeSocketInfo
          ctx.provider a).setContext a none) := by
      simp only [Sockets.unlockSocketContext, ha, if_pos hlast]
    refine ⟨_, hunlock, (hclosed.trans hremoved).trans (noTrace_setContext hctx none), ?_⟩
    intro i b hba
    change (((s.wpuCloseSocketHandle ctx.layeredSocket).removeSocketInfo
      ctx.provider a).socketList i).count b = _
    rw [count_removeSocketInfo ctx.provider i hba, wpuCloseSocketHandle_socketList]
  · have hunlock : s.unlockSocketContext a =
        some (s.setContext a (some { ctx with refCount := ctx.refCount - 1 })) := by
      simp only [Sockets.unlockSocketContext, ha, if_neg hlast]
    exact ⟨_, hunlock, noTrace_setContext ha _, fun _ _ _ => rfl⟩

end Leaves

/-! ## The paths of `WSPJoinLeaf` -/

section JoinLeaf
variable {s : Sockets} {h : SOCKET} {answer : JoinAnswer} {a b : ContextPtr} {ctx : SockInfo}

theorem contextOf_eq_some :
    s.contextOf h = some ctx ↔ ∃ a, s.handles h = some a ∧ s.contexts a = some ctx := by
  unfold Sockets.contextOf
  exact Option.bind_eq_some_iff

theorem noTrace_lock (ha : s.contexts a = some ctx) : NoTrace s (s.lock a ctx) :=
  noTrace_setContext ha _

theorem wspJoinLeaf_unknown (hh : s.handles h = none) :
    wspJoinLeaf s h answer = some (s, none, wsaenotsock) := by
  rw [wspJoinLeaf, hh]

theorem wspJoinLeaf_same (hh : s.handles h = some a) (ha : s.contexts a = some ctx)
    (hsame : answer.lpWSPJoinLeaf = ctx.providerSocket) :
    ∃ s', wspJoinLeaf s h answer = some (s', some h, answer.lpErrno) ∧ NoTrace s s' := by
  obtain ⟨s', hunlock, hnone, -⟩ :=
    unlockSocketContext_spec (s := s.lock a ctx) (setContext_contexts_self ..)
  refine ⟨s', ?_, (noTrace_lock ha).trans hnone⟩
  simp [wspJoinLeaf, hh, ha, hsame, hunlock]

theorem wspJoinLeaf_noMemory (hh : s.handles h = some a) (ha : s.contexts a = some ctx)
    (hnew : answer.lpWSPJoinLeaf ≠ ctx.providerSocket) (halloc : answer.heapAlloc = none) :
    ∃ s', wspJoinLeaf s h answer = some (s', none, wsaenobufs) ∧ NoTrace s s' := by
  obtain ⟨s', hunlock, hnone, -⟩ :=
    unlockSocketContext_spec (s := s.lock a ctx) (setContext_contexts_self ..)
  refine ⟨s', ?_, (noTrace_lock ha).trans hnone⟩
  simp [wspJoinLeaf, hh, ha, hnew, halloc, hunlock]

theorem wspJoinLeaf_noHandle (hh : s.handles h = some a) (ha : s.contexts a = some ctx)
    (hnew : answer.lpWSPJoinLeaf ≠ ctx.providerSocket) (halloc : answer.heapAlloc = some b)
    (hba : b ≠ a) (hnone : answer.lpWPUCreateSocketHandle = none) :
    ∃ s', wspJoinLeaf s h answer = some (s', none, wsaenobufs) ∧
      (s'.socketList ctx.provider).count b = (s.socketList ctx.provider).count b + 1 := by
  let u := ((s.lock a ctx).createSockInfo b ctx.provider answer.lpWSPJoinLeaf
    (some ctx)).setContext b none
  have hu : u.contexts a = some { ctx with refCount := ctx.refCount + 1 } := by
    change Function.update (Function.update _ b _) b _ a = _
    rw [Function.update_of_ne hba.symm, Function.update_of_ne hba.symm]
    exact setContext_contexts_self ..
  obtain ⟨s', hunlock, -, hcount⟩ := unlockSocketContext_spec hu
  refine ⟨s', ?_, ?_⟩
  · simp [wspJoinLeaf, hh, ha, hnew, halloc, hnone, u, hunlock]
  · rw [hcount _ _ hba]
    change List.count b (Function.update s.socketList ctx.provider
      (b :: s.socketList ctx.provider) ctx.provider) = _
    rw [Function.update_self, List.count_cons_self]

theorem wspJoinLeaf_created {newSocket : SOCKET} (hh : s.handles h = some a)
    (ha : s.contexts a = some ctx) (hnew : answer.lpWSPJoinLeaf ≠ ctx.providerSocket)
    (halloc : answer.heapAlloc = some b) (hba : b ≠ a)
    (hhandle : answer.lpWPUCreateSocketHandle = some newSocket) :
    ∃ s', wspJoinLeaf s h answer = some (s', some newSocket, answer.lpErrno) := by
  let u := ((s.lock a ctx).createSockInfo b ctx.provider answer.lpWSPJoinLeaf
    (some ctx)).createSocketHandle newSocket b
  have hu : u.contexts a = some { ctx with refCount := ctx.refCount + 1 } := by
    change Function.update (Function.update _ b _) b _ a = _
    rw [Function.update_of_ne hba.symm, Function.update_of_ne hba.symm]
    exact setContext_contexts_self ..
  obtain ⟨s', hunlock, -, -⟩ := unlockSocketContext_spec hu
  refine ⟨s', ?_⟩
  simp [wspJoinLeaf, hh, ha, hnew, halloc, hhandle, u, hunlock]

end JoinLeaf

/-! ## The law -/

section Law
variable {s : Sockets} {h : SOCKET} {answer : JoinAnswer} {ctx : SockInfo}

theorem JoinAnswer.Fresh.ne (hfresh : answer.Fresh s) {a b : ContextPtr}
    (ha : s.contexts a = some ctx) (hb : answer.heapAlloc = some b) : b ≠ a := by
  rintro rfl
  rw [hfresh.heapAlloc b hb] at ha
  exact absurd ha (by simp)

theorem JoinLaw.handle (hlaw : JoinLaw s h answer) (hfresh : answer.Fresh s)
    (hctx : s.contextOf h = some ctx) (hnew : answer.lpWSPJoinLeaf ≠ ctx.providerSocket)
    (halloc : answer.heapAlloc ≠ none) : answer.lpWPUCreateSocketHandle ≠ none := by
  intro hnone
  obtain ⟨a, hh, ha⟩ := contextOf_eq_some.1 hctx
  obtain ⟨b, hb⟩ := Option.ne_none_iff_exists'.1 halloc
  obtain ⟨s₁, hcall, hcount⟩ := wspJoinLeaf_noHandle hh ha hnew hb (hfresh.ne ha hb) hnone
  obtain ⟨s₂, errno, hcall', htrace⟩ := hlaw.fails ctx hctx (.inr ⟨hnew, .inr hnone⟩)
  rw [hcall] at hcall'
  obtain rfl := (Prod.mk.inj (Option.some.inj hcall')).1
  have hle := htrace.socketList ctx.provider b
  omega

theorem JoinLaw.noMemory (hlaw : JoinLaw s h answer) (hfresh : answer.Fresh s)
    (hctx : s.contextOf h = some ctx) (hfails : answer.lpWSPJoinLeaf = none) :
    ctx.providerSocket ≠ none ∧ answer.heapAlloc = none := by
  obtain ⟨a, hh, ha⟩ := contextOf_eq_some.1 hctx
  obtain ⟨s', errno, hcall, -⟩ := hlaw.fails ctx hctx (.inl hfails)
  have hnew : answer.lpWSPJoinLeaf ≠ ctx.providerSocket := by
    intro hsame
    obtain ⟨s₁, errno₁, hcall'⟩ := (hlaw.same ctx hctx).2 hsame
    rw [hcall] at hcall'
    simp at hcall'
  refine ⟨fun hinvalid => hnew (hfails.trans hinvalid.symm), ?_⟩
  by_contra halloc
  obtain ⟨b, hb⟩ := Option.ne_none_iff_exists'.1 halloc
  obtain ⟨newSocket, hsome⟩ := Option.ne_none_iff_exists'.1 (hlaw.handle hfresh hctx hnew halloc)
  obtain ⟨s₁, hcall'⟩ := wspJoinLeaf_created hh ha hnew hb (hfresh.ne ha hb) hsome
  rw [hcall] at hcall'
  simp at hcall'

theorem JoinSafe.fails (hsafe : JoinSafe ctx answer) (hfails : JoinFails ctx answer) :
    answer.lpWSPJoinLeaf ≠ ctx.providerSocket ∧ answer.heapAlloc = none := by
  rcases hfails with hfails | ⟨hnew, halloc | hnone⟩
  · obtain ⟨hvalid, halloc⟩ := hsafe.noMemory hfails
    refine ⟨?_, halloc⟩
    rw [hfails]
    exact hvalid.symm
  · exact ⟨hnew, halloc⟩
  · refine ⟨hnew, ?_⟩
    by_contra halloc
    exact hsafe.handle hnew halloc hnone

theorem JoinSafe.returns_same (hsafe : JoinSafe ctx answer) (hfresh : answer.Fresh s)
    (hctx : s.contextOf h = some ctx) {s' : Sockets} {errno : INT}
    (hcall : wspJoinLeaf s h answer = some (s', some h, errno)) :
    answer.lpWSPJoinLeaf = ctx.providerSocket := by
  obtain ⟨a, hh, ha⟩ := contextOf_eq_some.1 hctx
  by_contra hnew
  rcases halloc : answer.heapAlloc with - | b
  · obtain ⟨s₁, hcall', -⟩ := wspJoinLeaf_noMemory hh ha hnew halloc
    rw [hcall'] at hcall
    simp at hcall
  · obtain ⟨newSocket, hsome⟩ := Option.ne_none_iff_exists'.1 (hsafe.handle hnew (by simp [halloc]))
    obtain ⟨s₁, hcall'⟩ := wspJoinLeaf_created hh ha hnew halloc (hfresh.ne ha halloc) hsome
    rw [hcall'] at hcall
    have hsame : newSocket = h :=
      Option.some.inj (Prod.mk.inj (Prod.mk.inj (Option.some.inj hcall)).2).1
    have hunused := hfresh.lpWPUCreateSocketHandle newSocket hsome
    rw [hsame, hh] at hunused
    exact absurd hunused (by simp)

end Law

/-- The law holds of a call exactly if a failure of the lower provider is met by one of
`HeapAlloc` and a context that is allocated gets its handle. -/
theorem joinLeaf_law_iff (s : Sockets) (h : SOCKET) (answer : JoinAnswer)
    (hfresh : answer.Fresh s) :
    JoinLaw s h answer ↔ ∀ ctx, s.contextOf h = some ctx → JoinSafe ctx answer := by
  constructor
  · intro hlaw ctx hctx
    exact ⟨hlaw.noMemory hfresh hctx, hlaw.handle hfresh hctx⟩
  · intro hsafe
    refine ⟨?_, ?_, ?_⟩
    · intro hh
      exact ⟨s, _, wspJoinLeaf_unknown hh, fun _ ha => ha, fun _ _ => Nat.le_refl _,
        fun _ hk => hk⟩
    · intro ctx hctx hfails
      obtain ⟨a, hh, ha⟩ := contextOf_eq_some.1 hctx
      obtain ⟨hnew, halloc⟩ := (hsafe ctx hctx).fails hfails
      obtain ⟨s', hcall, htrace⟩ := wspJoinLeaf_noMemory hh ha hnew halloc
      exact ⟨s', _, hcall, htrace⟩
    · intro ctx hctx
      constructor
      · rintro ⟨s', errno, hcall⟩
        exact (hsafe ctx hctx).returns_same hfresh hctx hcall
      · intro hsame
        obtain ⟨a, hh, ha⟩ := contextOf_eq_some.1 hctx
        obtain ⟨s', hcall, -⟩ := wspJoinLeaf_same hh ha hsame
        exact ⟨s', _, hcall⟩

/-- One socket, 4, with the context at 100 and the provider socket 50. -/
def oneSocket : Sockets where
  contexts := fun a => if a = 100 then some { newInfo 0 (some 50) none with
    layeredSocket := some 4 } else none
  socketList := fun i => if i = 0 then [100] else []
  handles := fun h => if h = 4 then some 100 else none

/-- The lower provider returns a new socket, and the two other calls succeed. -/
def newSocketAnswer : JoinAnswer := ⟨some 60, some 200, some 8, 0⟩

/-- The lower provider fails, and the two other calls succeed. -/
def failedAnswer : JoinAnswer := ⟨none, some 200, some 8, 10049⟩

theorem joinLeaf_law_iff_newSocket : JoinLaw oneSocket 4 newSocketAnswer := by
  refine (joinLeaf_law_iff oneSocket 4 newSocketAnswer ?_).2 ?_
  · refine ⟨?_, ?_⟩
    · intro a ha
      obtain rfl : 200 = a := Option.some.inj ha
      rfl
    · intro h hh
      obtain rfl : 8 = h := Option.some.inj hh
      rfl
  · intro ctx _
    exact ⟨fun hnone => absurd hnone (by decide), fun _ _ => by decide⟩

/-- The application gets a handle for `INVALID_SOCKET`. -/
theorem not_joinLeaf_law_failed : ¬JoinLaw oneSocket 4 failedAnswer := by
  intro hlaw
  obtain ⟨s', errno, hcall, -⟩ := hlaw.fails _ rfl (.inl rfl)
  have hresult : (wspJoinLeaf oneSocket 4 failedAnswer).map (·.2.1) = some (some 8) := by decide
  rw [hcall] at hresult
  exact absurd hresult (by simp)

end MiscProjects.Lsp.NewSockets
