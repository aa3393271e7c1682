import Mathlib.Algebra.Order.BigOperators.Group.List
import Mathlib.Algebra.Order.Group.Nat
import Mathlib.Data.List.Range
import MiscProjects.Library.LinkedList
import MiscProjects.Lsp.Contexts

/-!
# The socket lists of the providers

Each provider has a doubly linked list of the contexts that were created for it.
`CreateSockInfo`, and the removal and the freeing of a context, are one step each.
`GetCallerSocket` takes one step for each context that it looks at; it holds
`gCriticalSection`, which `UnlockSocketContext` and `WSPCleanup` wait for, and
`WSPCloseSocket` and `CheckForContextCleanup` do not.  A context can be given up
at any time here, whatever its counts are.
-/

namespace MiscProjects.Lsp.SocketList

open LinkedList Runs

/-! ## Contexts and lists -/

/-- The fields of a `SOCK_INFO` besides its links; `provider` is the index in
`gBaseInfo`. -/
structure SockData where
  provider : ℕ
  providerSocket : Socket
deriving DecidableEq

abbrev SockInfo := Node Addr SockData

abbrev Heap := Memory Addr SockData

/-- Who calls `CreateSockInfo`. -/
inductive Creator
  | accept
  | joinLeaf
  | socket
deriving DecidableEq

/-- Where a thread is: in none of these functions, between `CreateSockInfo` and
`WPUCreateSocketHandle`, or in `GetCallerSocket` with the providers still to be
searched. -/
inductive Call
  | none
  | created (creator : Creator) (a : Addr)
  | searching (providers : List ℕ) (si : Option Addr) (providerSock : Socket)
deriving DecidableEq

structure State where
  heap : Heap
  socketList : ℕ → Option Addr
  gCriticalSection : Option Thread
  calls : Thread → Call

def start : State where
  heap := fun _ => none
  socketList := fun _ => none
  gCriticalSection := none
  calls := fun _ => .none

namespace State
variable (s : State) (T : Thread) (a : Addr)

def setCall (call : Call) : State :=
  { s with calls := Function.update s.calls T call }

def insertSocketInfo (provider : ℕ) : Option State :=
  (insertFront s.heap (s.socketList provider) a).map fun heap =>
    { s with heap := heap, socketList := Function.update s.socketList provider (some a) }

def removeSocketInfo : Option State :=
  (s.heap a).bind fun si =>
    (remove s.heap (s.socketList si.data.provider) a).map fun r =>
      { s with
        heap := r.1
        socketList := Function.update s.socketList si.data.provider r.2 }

def heapFree : State := { s with heap := s.heap.free a }

/-- `CreateSockInfo` with the address that `HeapAlloc` returns. -/
def createSockInfo (provider : ℕ) (providerSocket : Socket) : Option State :=
  let si : SockInfo := ⟨none, none, ⟨provider, providerSocket⟩⟩
  insertSocketInfo { s with heap := Function.update s.heap a (some si) } a provider

end State

/-- The loop of `CloseAndFreeSocketInfo`; `none` if it touches freed memory or takes
more than `fuel` rounds. -/
def closeAndFreeSocketInfo : ℕ → Heap → Option Addr → Option Heap
  | _, heap, none => some heap
  | 0, _, some _ => none
  | fuel + 1, heap, some a =>
      match heap a with
      | none => none
      | some info => closeAndFreeSocketInfo fuel (heap.free a) info.next

/-- The loop of `FreeSocketsAndMemory` over the providers. -/
def freeSockets (fuel : ℕ) (socketList : ℕ → Option Addr) : List ℕ → Heap → Option Heap
  | [], heap => some heap
  | i :: is, heap =>
      (closeAndFreeSocketInfo fuel heap (socketList i)).bind (freeSockets fuel socketList is)

/-- `FreeSocketsAndMemory`, with the destruction of `gBaseInfo` and of the heap. -/
def State.freeSocketsAndMemory (gLayerCount fuel : ℕ) (s : State) : Option State :=
  (freeSockets fuel s.socketList (List.range gLayerCount) s.heap).map fun _ =>
    { s with
      heap := fun _ => none
      socketList := fun _ => none }

/-! ## Steps -/

inductive Action
  | createSockInfo (T : Thread) (creator : Creator) (provider : ℕ) (providerSocket : Socket)
      (a : Addr)
  /-- The result of `WPUCreateSocketHandle`. -/
  | createSocketHandle (T : Thread) (succeeds : Bool)
  /-- `WSPCloseSocket` on the direct path, after the lower provider has closed its
  socket; `closed` is the result of `WPUCloseSocketHandle`. -/
  | closeSocket (T : Thread) (a : Addr) (closed : Bool)
  /-- `UnlockSocketContext` when it frees the context. -/
  | unlockSocketContext (T : Thread) (a : Addr)
  /-- `CheckForContextCleanup`, when it frees, for an operation of `own` whose
  socket handle leads to `found`. -/
  | checkForContextCleanup (T : Thread) (own found : Addr)
  /-- `WSPCleanup`, in which no list takes more than `fuel` rounds. -/
  | cleanup (T : Thread) (fuel : ℕ)
  | getCallerSocket (T : Thread) (provider : Option ℕ) (providerSock : Socket)
  /-- `GetCallerSocket` looks at one context, or turns to the next provider. -/
  | search (T : Thread)
deriving DecidableEq

/-- The step can be taken. -/
def Action.enabled (gLayerCount : ℕ) (s : State) : Action → Bool
  | .createSockInfo T _ provider _ a =>
      s.calls T = .none && (decide (provider < gLayerCount) && (s.heap a).isNone)
  | .createSocketHandle T _ =>
      match s.calls T with
      | .created _ _ => true
      | _ => false
  | .closeSocket T a _ => s.calls T = .none && (s.heap a).isSome
  | .unlockSocketContext T a =>
      s.calls T = .none && ((s.heap a).isSome && s.gCriticalSection.isNone)
  | .checkForContextCleanup T own found =>
      s.calls T = .none && ((s.heap own).isSome && (s.heap found).isSome)
  | .cleanup T _ | .getCallerSocket T _ _ => s.calls T = .none && s.gCriticalSection.isNone
  | .search T =>
      match s.calls T with
      | .searching _ _ _ => true
      | _ => false

/-- What the step does; `none` if it touches freed memory. -/
def Action.perform (gLayerCount : ℕ) (s : State) : Action → Option State
  | .createSockInfo T creator provider providerSocket a =>
      (s.createSockInfo a provider providerSocket).map fun s => s.setCall T (.created creator a)
  | .createSocketHandle T succeeds =>
      match s.calls T with
      | .created .accept _ => some (s.setCall T .none)
      -- `WSPSocket` and `WSPJoinLeaf` free a context that is in the list.
      | .created _ a => some ((if succeeds then s else s.heapFree a).setCall T .none)
      | _ => some s
  | .closeSocket _ a closed =>
      (s.removeSocketInfo a).map fun s => if closed then s.heapFree a else s
  | .unlockSocketContext _ a => (s.removeSocketInfo a).map fun s => s.heapFree a
  | .checkForContextCleanup _ own found =>
      (s.removeSocketInfo own).map fun s => s.heapFree found
  | .cleanup _ fuel => s.freeSocketsAndMemory gLayerCount fuel
  | .getCallerSocket T provider providerSock =>
      let providers :=
        match provider with
        | some i => [i]
        | none => List.range gLayerCount
      some { s.setCall T (.searching providers none providerSock) with
        gCriticalSection := some T }
  | .search T =>
      match s.calls T with
      | .searching providers (some a) providerSock =>
          (s.heap a).map fun si =>
            if si.data.providerSocket = providerSock then
              { s.setCall T .none with gCriticalSection := none }
            else s.setCall T (.searching providers si.next providerSock)
      | .searching (i :: providers) none providerSock =>
          some (s.setCall T (.searching providers (s.socketList i) providerSock))
      | .searching [] none _ => some { s.setCall T .none with gCriticalSection := none }
      | _ => some s

def step (gLayerCount : ℕ) (s : State) (a : Action) : Option State :=
  if a.enabled gLayerCount s then a.perform gLayerCount s else none

/-! ## Statement -/

/-- The provider for which the context was created. -/
def providerOf (heap : Heap) (a : Addr) : Option ℕ :=
  ((heap a).map Node.data).map SockData.provider

/-- The list of the provider leads through its contexts and back, with no cycle,
and they are the ones that were created for it and not freed. -/
def ListOk (heap : Heap) (head : Option Addr) (provider : ℕ) : Prop :=
  ∃ l : List Addr, l.Nodup ∧ Chain heap none head l ∧
    ∀ a, a ∈ l ↔ providerOf heap a = some provider

/-- The steps that keep the lists in order: no handle creation fails in `WSPSocket`
or `WSPJoinLeaf`, `WSPCloseSocket` can close the handle, `CheckForContextCleanup`
finds the context of its operation, and neither of the two frees a context while
a thread is in `GetCallerSocket`. -/
def KeepsLists (s : State) : Action → Prop
  | .createSocketHandle T succeeds =>
      succeeds = true ∨ ∃ a, s.calls T = .created .accept a
  | .closeSocket _ _ closed => closed = true ∧ s.gCriticalSection = none
  | .checkForContextCleanup _ own found => own = found ∧ s.gCriticalSection = none
  | _ => True

/-! ## The lists -/

def ListsOk (s : State) : Prop :=
  ∀ provider, ListOk s.heap (s.socketList provider) provider

section Lists
variable {s s' : State} {heap heap' : Heap} {head : Option Addr} {a : Addr} {si : SockInfo}
  {provider : ℕ} {l : List Addr}

theorem providerOf_of_some (ha : heap a = some si) : providerOf heap a = some si.data.provider := by
  simp [providerOf, ha]

theorem ne_none_of_providerOf (ha : providerOf heap a = some provider) : heap a ≠ none := by
  intro hnone
  simp [providerOf, hnone] at ha

theorem providerOf_congr (hdata : SameData heap heap') (a : Addr) :
    providerOf heap' a = providerOf heap a :=
  congrArg (Option.map SockData.provider) (hdata a)

theorem providerOf_free (a c : Addr) :
    providerOf (heap.free a) c = if c = a then none else providerOf heap c := by
  by_cases hca : c = a
  · subst hca
    simp [providerOf, Memory.free]
  · simp [providerOf, Memory.free, hca]

theorem ListOk.congr (hok : ListOk heap head provider)
    (hprovider : ∀ c, providerOf heap' c = some provider ↔ providerOf heap c = some provider)
    (hheap : ∀ c, providerOf heap c = some provider → heap' c = heap c) :
    ListOk heap' head provider := by
  obtain ⟨l, hl, hchain, hmem⟩ := hok
  exact ⟨l, hl, hchain.congr fun c hc => hheap c ((hmem c).mp hc),
    fun c => (hmem c).trans (hprovider c).symm⟩

theorem ListsOk.createSockInfo (hlists : ListsOk s) (hnew : s.heap a = none)
    (provider : ℕ) (providerSocket : Socket) :
    ∃ s', s.createSockInfo a provider providerSocket = some s' ∧ ListsOk s' ∧
      s'.gCriticalSection = s.gCriticalSection ∧ s'.calls = s.calls ∧
        ∀ c, s.heap c ≠ none → s'.heap c ≠ none := by
  let si : SockInfo := ⟨none, none, ⟨provider, providerSocket⟩⟩
  let heap₁ : Heap := Function.update s.heap a (some si)
  have ha₁ : heap₁ a = some si := Function.update_self ..
  have hother₁ (c : Addr) (hc : c ≠ a) : heap₁ c = s.heap c := Function.update_of_ne hc ..
  have hnot (q : ℕ) (c : Addr) (hc : providerOf s.heap c = some q) : c ≠ a := by
    rintro rfl
    exact ne_none_of_providerOf hc hnew
  obtain ⟨l, hl, hchain, hmem⟩ := hlists provider
  have hal : a ∉ l := fun h => hnot provider a ((hmem a).mp h) rfl
  have hchain₁ : Chain heap₁ none (s.socketList provider) l :=
    hchain.congr fun c hc => hother₁ c fun hca => hal (hca ▸ hc)
  obtain ⟨heap', hinsert, hchain', hdata, hother⟩ := hchain₁.insertFront hl hal ha₁
  have hprovider (c : Addr) : providerOf heap' c =
      if c = a then some provider else providerOf s.heap c := by
    rw [providerOf_congr hdata]
    by_cases hca : c = a
    · rw [if_pos hca, hca, providerOf_of_some ha₁]
    · rw [if_neg hca]
      simp only [providerOf, hother₁ c hca]
  refine ⟨⟨heap', Function.update s.socketList provider (some a), s.gCriticalSection, s.calls⟩,
    ?_, fun q => ?_, rfl, rfl, fun c hc => ?_⟩
  · exact congrArg (Option.map _) hinsert
  · by_cases hq : q = provider
    · subst hq
      simp only [Function.update_self]
      refine ⟨a :: l, List.nodup_cons.mpr ⟨hal, hl⟩, hchain', fun c => ?_⟩
      rw [List.mem_cons, hmem c, hprovider c]
      split
      next hca => simp [hca]
      next hca => simp [hca]
    · simp only [Function.update_of_ne hq]
      apply (hlists q).congr
      · intro c
        rw [hprovider c]
        split
        next hca =>
          subst hca
          constructor
          · intro h
            exact absurd (Option.some.inj h).symm hq
          · intro h
            exact absurd rfl (hnot q c h)
        next => exact Iff.rfl
      · intro c hc
        rw [← hother₁ c (hnot q c hc)]
        apply hother
        rw [List.mem_cons, not_or]
        refine ⟨hnot q c hc, fun hcl => hq ?_⟩
        exact Option.some.inj (hc.symm.trans ((hmem c).mp hcl))
  · have hsome : providerOf heap' c ≠ none := by
      rw [hprovider c]
      split
      · simp
      · simpa [providerOf] using hc
    intro hnone
    apply hsome
    change ((heap' c).map Node.data).map SockData.provider = none
    rw [show heap' c = none from hnone]
    rfl

theorem ListsOk.removeSocketInfo (hlists : ListsOk s) (ha : s.heap a = some si) :
    ∃ s', s.removeSocketInfo a = some s' ∧ ListsOk (s'.heapFree a) ∧
      s'.gCriticalSection = s.gCriticalSection ∧ s'.calls = s.calls := by
  have hprovider : providerOf s.heap a = some si.data.provider := providerOf_of_some ha
  obtain ⟨l, hl, hchain, hmem⟩ := hlists si.data.provider
  obtain ⟨heap', head', hremove, hchain', hdata, hother⟩ :=
    hchain.remove hl ((hmem a).mpr hprovider)
  refine ⟨⟨heap', Function.update s.socketList si.data.provider head', s.gCriticalSection,
    s.calls⟩, ?_, fun q => ?_, rfl, rfl⟩
  · simp only [State.removeSocketInfo, ha, Option.bind_some, hremove, Option.map_some]
  · change ListOk (heap'.free a) (Function.update s.socketList si.data.provider head' q) q
    by_cases hq : q = si.data.provider
    · subst hq
      rw [Function.update_self]
      refine ⟨l.erase a, hl.erase a, hchain'.congr fun c hc => ?_, fun c => ?_⟩
      · exact Function.update_of_ne (hl.mem_erase_iff.mp hc).1 ..
      · rw [hl.mem_erase_iff, hmem c, providerOf_free, providerOf_congr hdata]
        split
        next hca => simp [hca]
        next hca => simp [hca]
    · rw [Function.update_of_ne hq]
      have hne (c : Addr) (hc : providerOf s.heap c = some q) : c ≠ a := by
        rintro rfl
        exact hq (Option.some.inj (hc.symm.trans hprovider))
      apply (hlists q).congr
      · intro c
        rw [providerOf_free, providerOf_congr hdata]
        split
        next hca =>
          subst hca
          simp [hprovider, Ne.symm hq]
        next => exact Iff.rfl
      · intro c hc
        have hcl : c ∉ l := fun h => hq (Option.some.inj (hc.symm.trans ((hmem c).mp h)))
        rw [Memory.free, Function.update_of_ne (hne c hc), hother c hcl]

/-! ## `WSPCleanup` -/

theorem closeAndFreeSocketInfo_eq_some {prev : Option Addr} {fuel : ℕ}
    (hchain : Chain heap prev head l) (hl : l.Nodup) (hfuel : l.length ≤ fuel) :
    ∃ heap', closeAndFreeSocketInfo fuel heap head = some heap' ∧ ∀ c ∉ l, heap' c = heap c := by
  induction l generalizing heap prev head fuel with
  | nil =>
      have hhead : head = none := hchain
      subst hhead
      rw [closeAndFreeSocketInfo]
      exact ⟨heap, rfl, fun _ _ => rfl⟩
  | cons a l ih =>
      obtain ⟨rfl, node, ha, _, hrest⟩ := hchain
      obtain ⟨hal, hl⟩ := List.nodup_cons.mp hl
      obtain ⟨fuel, rfl⟩ := Nat.exists_eq_add_of_le' (Nat.le_trans (Nat.le_add_left 1 _) hfuel)
      have hfuel' : l.length ≤ fuel := Nat.le_of_succ_le_succ hfuel
      have hfree (c : Addr) (hc : c ≠ a) : heap.free a c = heap c := Function.update_of_ne hc ..
      have hrest' : Chain (heap.free a) (some a) node.next l :=
        hrest.congr fun c hc => hfree c fun hca => hal (hca ▸ hc)
      obtain ⟨heap', hloop, hother⟩ := ih hrest' hl hfuel'
      refine ⟨heap', ?_, fun c hc => ?_⟩
      · rw [closeAndFreeSocketInfo]
        simp only [ha]
        exact hloop
      · rw [List.mem_cons, not_or] at hc
        rw [hother c hc.2, hfree c hc.1]

theorem freeSockets_eq_some {fuel : ℕ} {socketList : ℕ → Option Addr} {nodes : ℕ → List Addr}
    (hdisjoint : ∀ i j a, a ∈ nodes i → a ∈ nodes j → i = j) {is : List ℕ} (his : is.Nodup)
    (hfuel : ∀ i ∈ is, (nodes i).length ≤ fuel)
    (hchains : ∀ i ∈ is, (nodes i).Nodup ∧ Chain heap none (socketList i) (nodes i)) :
    ∃ heap', freeSockets fuel socketList is heap = some heap' := by
  induction is generalizing heap with
  | nil => exact ⟨heap, rfl⟩
  | cons i is ih =>
      obtain ⟨hi, his⟩ := List.nodup_cons.mp his
      obtain ⟨hnodup, hchain⟩ := hchains i List.mem_cons_self
      obtain ⟨heap₁, hloop, hother⟩ :=
        closeAndFreeSocketInfo_eq_some hchain hnodup (hfuel i List.mem_cons_self)
      rw [freeSockets, hloop]
      apply ih his fun j hj => hfuel j (List.mem_cons_of_mem i hj)
      intro j hj
      obtain ⟨hnodupj, hchainj⟩ := hchains j (List.mem_cons_of_mem i hj)
      refine ⟨hnodupj, hchainj.congr fun c hc => hother c fun hci => hi ?_⟩
      rw [hdisjoint i j c hci hc]
      exact hj

theorem ListsOk.freeSocketsAndMemory (hlists : ListsOk s) (gLayerCount : ℕ) :
    ∃ rounds, ∀ fuel, rounds ≤ fuel → (s.freeSocketsAndMemory gLayerCount fuel).isSome := by
  choose nodes hnodup hchain hmem using hlists
  have hdisjoint (i j : ℕ) (a : Addr) (hi : a ∈ nodes i) (hj : a ∈ nodes j) : i = j :=
    Option.some.inj (((hmem i a).mp hi).symm.trans ((hmem j a).mp hj))
  refine ⟨((List.range gLayerCount).map fun i => (nodes i).length).sum, fun fuel hfuel => ?_⟩
  have hrounds (i : ℕ) (hi : i ∈ List.range gLayerCount) : (nodes i).length ≤ fuel :=
    Nat.le_trans (List.le_sum_of_mem (List.mem_map.mpr ⟨i, hi, rfl⟩)) hfuel
  obtain ⟨heap', hfree⟩ := @freeSockets_eq_some s.heap fuel s.socketList nodes hdisjoint _
    (@List.nodup_range gLayerCount) hrounds fun i _ => ⟨hnodup i, hchain i⟩
  rw [State.freeSocketsAndMemory, hfree]
  rfl

theorem ListsOk.of_freeSocketsAndMemory {n fuel : ℕ}
    (hfree : s.freeSocketsAndMemory n fuel = some s') :
    ListsOk s' ∧ s'.gCriticalSection = s.gCriticalSection ∧ s'.calls = s.calls := by
  obtain ⟨heap', _, rfl⟩ := Option.map_eq_some_iff.mp hfree
  exact ⟨fun q => ⟨[], List.nodup_nil, rfl, fun a => by simp [providerOf]⟩, rfl, rfl⟩

end Lists

/-! ## Runs -/

/-- The lists are in order, and a thread in `GetCallerSocket` holds
`gCriticalSection` and has come to a context that exists. -/
structure Inv (s : State) : Prop where
  lists : ListsOk s
  held : ∀ T providers si sock,
    s.calls T = .searching providers si sock → s.gCriticalSection = some T
  position : ∀ T providers a sock,
    s.calls T = .searching providers (some a) sock → s.heap a ≠ none

section Step
variable {s s' : State} {T : Thread} {a : Addr} {n : ℕ} {act : Action}

theorem start_inv : Inv start where
  lists _ := ⟨[], List.nodup_nil, rfl, fun _ => by simp [providerOf, start]⟩
  held T providers si sock hcall := nomatch hcall
  position T providers a sock hcall := nomatch hcall

theorem Inv.not_searching (hinv : Inv s) (hfree : s.gCriticalSection = none) (T : Thread)
    (providers : List ℕ) (si : Option Addr) (sock : Socket) :
    s.calls T ≠ .searching providers si sock := by
  intro hcall
  have hheld := hinv.held T providers si sock hcall
  rw [hfree] at hheld
  exact nomatch hheld

theorem State.setCall_calls (s : State) (T U : Thread) (call : Call) :
    (s.setCall T call).calls U = if U = T then call else s.calls U := by
  simp [State.setCall, Function.update_apply]

variable {providers : List ℕ} {sock : Socket} {si : Option Addr}

theorem searching_of_setCall {call : Call} {U : Thread}
    (hcall : ∀ providers si sock, call ≠ .searching providers si sock)
    (hU : (s.setCall T call).calls U = .searching providers si sock) :
    s.calls U = .searching providers si sock := by
  rw [State.setCall_calls] at hU
  split at hU
  · exact absurd hU (hcall _ _ _)
  · exact hU

theorem Inv.keep (hinv : Inv s) (hlists : ListsOk s')
    (hsection : s'.gCriticalSection = s.gCriticalSection)
    (hcalls : ∀ T providers si sock, s'.calls T = .searching providers si sock →
      s.calls T = .searching providers si sock)
    (hheap : s.gCriticalSection = none ∨ ∀ c, s.heap c ≠ none → s'.heap c ≠ none) : Inv s' where
  lists := hlists
  held T providers si sock hcall :=
    hsection.trans (hinv.held T providers si sock (hcalls T providers si sock hcall))
  position T providers a sock hcall := by
    have hold := hcalls T providers (some a) sock hcall
    rcases hheap with hfree | hkept
    · exact absurd hold (hinv.not_searching hfree T providers (some a) sock)
    · exact hkept a (hinv.position T providers a sock hold)

theorem Inv.removeSocketInfo (hinv : Inv s) (ha : s.heap a ≠ none)
    (hfree : s.gCriticalSection = none) :
    ∃ s', s.removeSocketInfo a = some s' ∧ Inv (s'.heapFree a) := by
  obtain ⟨si, hsi⟩ := Option.ne_none_iff_exists'.mp ha
  obtain ⟨s', hremove, hlists, hsection, hcalls⟩ := hinv.lists.removeSocketInfo hsi
  refine ⟨s', hremove, hinv.keep hlists hsection (fun U providers si sock hU => ?_) (.inl hfree)⟩
  rw [← hcalls]
  exact hU

theorem Inv.search (hinv : Inv s) (hcall : s.calls T = .searching providers si sock) :
    ∃ s', (Action.search T).perform n s = some s' ∧ Inv s' := by
  have hheld := hinv.held T providers si sock hcall
  have hother (U : Thread) (providers' : List ℕ) (si' : Option Addr) (sock' : Socket)
      (hU : s.calls U = .searching providers' si' sock') : U = T :=
    Option.some.inj ((hinv.held U providers' si' sock' hU).symm.trans hheld)
  -- It returns.
  have hreturn : Inv { s.setCall T .none with gCriticalSection := none } := by
    have hnone (U : Thread) (providers' : List ℕ) (si' : Option Addr) (sock' : Socket) :
        (s.setCall T .none).calls U ≠ .searching providers' si' sock' := by
      intro hU
      have hold := searching_of_setCall (by simp) hU
      rw [State.setCall_calls, if_pos (hother U _ _ _ hold)] at hU
      exact nomatch hU
    exact
      { lists := hinv.lists
        held := fun U _ _ _ hU => absurd hU (hnone U _ _ _)
        position := fun U _ _ _ hU => absurd hU (hnone U _ _ _) }
  -- It goes on to a context that exists, or to the end of a list.
  have hnext (providers' : List ℕ) (si' : Option Addr)
      (hsi' : ∀ a, si' = some a → s.heap a ≠ none) :
      Inv (s.setCall T (.searching providers' si' sock)) := by
    refine ⟨hinv.lists, fun U _ _ _ hU => ?_, fun U _ a _ hU => ?_⟩
    · rw [State.setCall_calls] at hU
      split at hU
      next hUT => exact hUT ▸ hheld
      next => exact hinv.held U _ _ _ hU
    · rw [State.setCall_calls] at hU
      split at hU
      next =>
        rw [Call.searching.injEq] at hU
        exact hsi' a hU.2.1
      next => exact hinv.position U _ a _ hU
  cases si with
  | some a =>
      obtain ⟨si, ha⟩ := Option.ne_none_iff_exists'.mp (hinv.position T providers a sock hcall)
      simp only [Action.perform, hcall, ha, Option.map_some]
      refine ⟨_, rfl, ?_⟩
      split
      · exact hreturn
      · apply hnext
        intro b hb
        obtain ⟨l, _, hchain, hmem⟩ := hinv.lists si.data.provider
        have hal : a ∈ l := (hmem a).mpr (providerOf_of_some ha)
        have hbl : b ∈ l := hchain.next_mem hal ha hb
        exact ne_none_of_providerOf ((hmem b).mp hbl)
  | none =>
      cases providers with
      | nil =>
          simp only [Action.perform, hcall]
          exact ⟨_, rfl, hreturn⟩
      | cons i providers =>
          simp only [Action.perform, hcall]
          refine ⟨_, rfl, hnext providers (s.socketList i) fun b hb => ?_⟩
          obtain ⟨l, _, hchain, hmem⟩ := hinv.lists i
          rw [hb] at hchain
          exact ne_none_of_providerOf ((hmem b).mp hchain.head_mem)

theorem Inv.setCall_none (hinv : Inv s) (T : Thread) : Inv (s.setCall T .none) :=
  hinv.keep hinv.lists rfl (fun _ _ _ _ hU => searching_of_setCall (by simp) hU)
    (.inr fun _ hc => hc)

/-- A step that can be taken and keeps the lists touches no freed memory, if
`WSPCleanup` has enough rounds. -/
theorem Inv.perform (hinv : Inv s) (henabled : act.enabled n s = true) (hkeeps : KeepsLists s act)
    (hrounds : ∀ T fuel, act = .cleanup T fuel → ∃ s', s.freeSocketsAndMemory n fuel = some s') :
    ∃ s', act.perform n s = some s' ∧ Inv s' := by
  cases act with
  | createSockInfo T creator provider providerSocket a =>
      simp only [Action.enabled, Bool.and_eq_true, Option.isNone_iff_eq_none] at henabled
      obtain ⟨s₁, hcreate, hlists, hsection, hcalls, hheap⟩ :=
        hinv.lists.createSockInfo henabled.2.2 provider providerSocket
      refine ⟨_, congrArg (Option.map _) hcreate, ?_⟩
      refine hinv.keep hlists hsection (fun U providers si sock hU => ?_) (.inr hheap)
      rw [← hcalls]
      exact searching_of_setCall (by simp) hU
  | createSocketHandle T succeeds =>
      cases hcall : s.calls T with
      | none | searching providers si sock => simp [Action.enabled, hcall] at henabled
      | created creator a =>
          cases creator with
          | accept =>
              simp only [Action.perform, hcall]
              exact ⟨_, rfl, hinv.setCall_none T⟩
          | joinLeaf | socket =>
              have hsucceeds : succeeds = true :=
                hkeeps.resolve_right fun ⟨b, hb⟩ => nomatch hcall.symm.trans hb
              simp only [Action.perform, hcall, hsucceeds, if_true]
              exact ⟨_, rfl, hinv.setCall_none T⟩
  | closeSocket T a closed =>
      simp only [Action.enabled, Bool.and_eq_true, Option.isSome_iff_ne_none] at henabled
      obtain ⟨rfl, hfree⟩ := hkeeps
      obtain ⟨s', hremove, hinv'⟩ := hinv.removeSocketInfo henabled.2 hfree
      exact ⟨_, congrArg (Option.map _) hremove, hinv'⟩
  | unlockSocketContext T a =>
      simp only [Action.enabled, Bool.and_eq_true, Option.isSome_iff_ne_none,
        Option.isNone_iff_eq_none] at henabled
      obtain ⟨s', hremove, hinv'⟩ := hinv.removeSocketInfo henabled.2.1 henabled.2.2
      exact ⟨_, congrArg (Option.map _) hremove, hinv'⟩
  | checkForContextCleanup T own found =>
      simp only [Action.enabled, Bool.and_eq_true, Option.isSome_iff_ne_none] at henabled
      obtain ⟨rfl, hfree⟩ := hkeeps
      obtain ⟨s', hremove, hinv'⟩ := hinv.removeSocketInfo henabled.2.1 hfree
      exact ⟨_, congrArg (Option.map _) hremove, hinv'⟩
  | cleanup T fuel =>
      simp only [Action.enabled, Bool.and_eq_true, Option.isNone_iff_eq_none] at henabled
      obtain ⟨s', hfrees⟩ := hrounds T fuel rfl
      obtain ⟨hlists, hsection, hcalls⟩ := ListsOk.of_freeSocketsAndMemory hfrees
      refine ⟨s', hfrees, hinv.keep hlists hsection (fun U providers si sock hU => ?_)
        (.inl henabled.2)⟩
      rw [← hcalls]
      exact hU
  | getCallerSocket T provider sock =>
      simp only [Action.enabled, Bool.and_eq_true, Option.isNone_iff_eq_none] at henabled
      have hnot (U : Thread) (providers : List ℕ) (si : Option Addr) (sock' : Socket) :=
        hinv.not_searching henabled.2 U providers si sock'
      refine ⟨_, rfl, hinv.lists, fun U providers si sock' hU => ?_,
        fun U providers a sock' hU => ?_⟩
      · rw [State.setCall_calls] at hU
        split at hU
        next hUT => exact congrArg some hUT.symm
        next => exact absurd hU (hnot U _ _ _)
      · rw [State.setCall_calls] at hU
        split at hU
        next =>
          rw [Call.searching.injEq] at hU
          exact nomatch hU.2.1
        next => exact absurd hU (hnot U _ _ _)
  | search T =>
      cases hcall : s.calls T with
      | none | created creator a => simp [Action.enabled, hcall] at henabled
      | searching providers si sock => exact hinv.search hcall

theorem Inv.step (hinv : Inv s) (hkeeps : KeepsLists s act) (hstep : step n s act = some s') :
    Inv s' := by
  unfold SocketList.step at hstep
  split at hstep
  next henabled =>
    have hrounds (T : Thread) (fuel : ℕ) (hact : act = .cleanup T fuel) :
        ∃ s', s.freeSocketsAndMemory n fuel = some s' := by
      subst hact
      exact ⟨s', hstep⟩
    obtain ⟨s₁, hperform, hinv'⟩ := hinv.perform henabled hkeeps hrounds
    obtain rfl := Option.some.inj (hperform.symm.trans hstep)
    exact hinv'
  next => simp at hstep

end Step

end MiscProjects.Lsp.SocketList
