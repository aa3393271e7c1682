import Mathlib.Data.List.Basic
import MiscProjects.Library.Runs

/-!
# Cancelling a blocking call

Every thread has one slot, in which an entry point puts its provider before it calls the
provider and which it clears afterwards.  A function of the application that runs inside a
call of the provider may enter the LSP again, so that calls are nested.  Some calls of a
provider are made without the slot: those of overlapped operations, of the extension
functions, of `WSPCleanup` and of a `WSPCloseSocket` with operations outstanding.

`WSPCancelBlockingCall` uses the slot if it is empty.
-/

namespace MiscProjects.Lsp.Blocking

open Runs

abbrev Provider := ℕ

/-! ## The calls -/

/-- The functions of the LSP that call functions of a provider. -/
inductive EntryPoint
  | wspAccept
  | wspAddressToString
  | wspAsyncSelect
  | wspBind
  | wspCleanup
  | wspCloseSocket
  | wspConnect
  | wspDuplicateSocket
  | wspEnumNetworkEvents
  | wspEventSelect
  | wspGetPeerName
  | wspGetSockName
  | wspGetSockOpt
  | wspGetQOSByName
  | wspIoctl
  | wspJoinLeaf
  | wspListen
  | wspRecv
  | wspRecvDisconnect
  | wspRecvFrom
  | wspSelect
  | wspSend
  | wspSendDisconnect
  | wspSendTo
  | wspSetSockOpt
  | wspShutdown
  | wspSocket
  | wspStringToAddress
  | extTransmitFile
  | extAcceptEx
  | extConnectEx
  | extTransmitPackets
  | extDisconnectEx
  | extWSARecvMsg
  /-- The completion of an overlapped operation. -/
  | intermediateCompletionRoutine
deriving DecidableEq

/-- The calls of a provider that the function makes: `true` stands for a call between
`SetBlockingProvider(Provider)` and `SetBlockingProvider(NULL)`. -/
def EntryPoint.lowerCalls : EntryPoint → List Bool
  | .wspCleanup => [false]
  | .wspCloseSocket => [true, false]
  -- `false` with an overlapped structure, through `ExecuteOverlappedOperation`.
  | .wspIoctl => [true, false]
  | .wspRecv => [true, false]
  | .wspRecvFrom => [true, false]
  | .wspSend => [true, false]
  | .wspSendTo => [true, false]
  | .extTransmitFile => [false]
  | .extAcceptEx => [false]
  | .extConnectEx => [false]
  | .extTransmitPackets => [false]
  | .extDisconnectEx => [false]
  | .extWSARecvMsg => [false]
  | .intermediateCompletionRoutine => [false]
  | _ => [true]

/-- A call of a function of a provider. -/
structure LowerCall where
  entryPoint : EntryPoint
  provider : Provider
  setsProvider : Bool
deriving DecidableEq

/-- One thread: its slot, and the calls that are running, the innermost first. -/
structure Thread where
  slot : Option Provider
  calls : List LowerCall
deriving DecidableEq

def start : Thread := ⟨none, []⟩

/-- `SetBlockingProvider`; there is no slot if `TlsAlloc` has failed. -/
def setBlockingProvider (tlsIndex : Bool) (provider : Option Provider) (t : Thread) : Thread :=
  if tlsIndex then { t with slot := provider } else t

inductive Action
  /-- An entry point calls a function of a provider. -/
  | enter (call : LowerCall)
  /-- The innermost call returns. -/
  | leave
deriving DecidableEq

def step (tlsIndex : Bool) (t : Thread) : Action → Option Thread
  | .enter call =>
      if call.setsProvider ∈ call.entryPoint.lowerCalls then
        let t :=
          if call.setsProvider then setBlockingProvider tlsIndex (some call.provider) t else t
        some { t with calls := call :: t.calls }
      else none
  | .leave =>
      match t.calls with
      | [] => none
      | call :: calls =>
          let t := if call.setsProvider then setBlockingProvider tlsIndex none t else t
          some { t with calls }

/-- What `WSPCancelBlockingCall` does. -/
inductive Cancelled
  | forwarded (provider : Provider)
  | returned
  /-- The function is called in the table of a null pointer. -/
  | nullPointer
deriving DecidableEq

/-- `WSPCancelBlockingCall`; without a slot, `TlsGetValue` returns a null pointer. -/
def wspCancelBlockingCall (t : Thread) : Cancelled :=
  match t.slot with
  | none => .nullPointer
  | some _ => .returned

/-! ## Statement -/

/-- The call is forwarded to the provider of the innermost call that is running; if none is, no
provider is called. -/
def Cancels (t : Thread) : Prop :=
  wspCancelBlockingCall t =
    match t.calls with
    | [] => .returned
    | call :: _ => .forwarded call.provider

/-! ## The slot -/

section Slot
variable {tlsIndex : Bool} {t u : Thread} {a : Action} {actions : List Action}

/-- A slot that is in use belongs to a call that is running. -/
def Owned (tlsIndex : Bool) (t : Thread) : Prop :=
  t.slot.isSome = true → tlsIndex = true ∧ ∃ call ∈ t.calls, call.setsProvider = true

theorem owned_start : Owned tlsIndex start := fun h => nomatch h

/-- Only the return of a call that has set the slot clears it, so that the other calls may leave
it to a call outside. -/
theorem Owned.of_step (h : Owned tlsIndex t) (hstep : step tlsIndex t a = some u) :
    Owned tlsIndex u := by
  cases a with
  | enter call =>
      rw [step] at hstep
      split at hstep
      · obtain rfl := Option.some.inj hstep
        intro hslot
        by_cases hsets : call.setsProvider = true
        · rw [if_pos hsets, setBlockingProvider] at hslot
          by_cases htls : tlsIndex = true
          · exact ⟨htls, call, List.mem_cons_self, hsets⟩
          · rw [if_neg htls] at hslot
            exact absurd (h hslot).1 htls
        · rw [if_neg hsets] at hslot
          obtain ⟨htls, outer, hmem, houter⟩ := h hslot
          exact ⟨htls, outer, List.mem_cons_of_mem call (by rwa [if_neg hsets]), houter⟩
      · cases hstep
  | leave =>
      rw [step] at hstep
      split at hstep
      · cases hstep
      · next call calls hcalls =>
        obtain rfl := Option.some.inj hstep
        intro hslot
        by_cases hsets : call.setsProvider = true
        · rw [if_pos hsets, setBlockingProvider] at hslot
          by_cases htls : tlsIndex = true
          · rw [if_pos htls] at hslot
            cases hslot
          · rw [if_neg htls] at hslot
            exact absurd (h hslot).1 htls
        · rw [if_neg hsets] at hslot
          obtain ⟨htls, outer, hmem, houter⟩ := h hslot
          refine ⟨htls, outer, ?_, houter⟩
          rw [hcalls] at hmem
          apply List.mem_of_ne_of_mem _ hmem
          rintro rfl
          exact hsets houter

theorem owned_of_runsTo (hrun : RunsTo (step tlsIndex) Always start actions t) : Owned tlsIndex t :=
  hrun.invariant (Owned tlsIndex) owned_start fun _ _ _ h _ hstep => h.of_step hstep

theorem Owned.not_cancels (h : Owned tlsIndex t) : ¬ Cancels t := by
  intro hcancels
  rw [Cancels, wspCancelBlockingCall] at hcancels
  split at hcancels
  · split at hcancels <;> cases hcancels
  · next provider hslot =>
    obtain ⟨-, call, hmem, -⟩ := h (by rw [hslot]; rfl)
    split at hcancels
    · next hcalls =>
      rw [hcalls] at hmem
      exact List.not_mem_nil hmem
    · cases hcancels

end Slot

/-- `WSPCancelBlockingCall` does what it should at no point of any run. -/
theorem never_cancels {tlsIndex : Bool} {actions : List Action} {t : Thread}
    (hrun : RunsTo (step tlsIndex) Always start actions t) : ¬ Cancels t :=
  (owned_of_runsTo hrun).not_cancels

/-- The condition function of an accept on provider 3 binds a socket of provider 4. -/
theorem never_cancels_nested :
    ¬ Cancels ⟨none, [⟨.wspAccept, 3, true⟩]⟩ :=
  @never_cancels true [.enter ⟨.wspAccept, 3, true⟩, .enter ⟨.wspBind, 4, true⟩, .leave] _
    (.of_exec rfl)

/-- The condition function of an accept on provider 3 cancels the accept. -/
theorem accept_not_cancelled :
    ¬ ∀ (tlsIndex : Bool) (actions : List Action) (t : Thread),
      RunsTo (step tlsIndex) Always start actions t → Cancels t := by
  intro h
  have hrun : RunsTo (step true) Always start [.enter ⟨.wspAccept, 3, true⟩]
      ⟨some 3, [⟨.wspAccept, 3, true⟩]⟩ := .of_exec rfl
  have hcancels := h _ _ _ hrun
  cases hcancels

end MiscProjects.Lsp.Blocking
