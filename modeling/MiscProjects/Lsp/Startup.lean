import Mathlib.Data.List.Induction
import MiscProjects.Lsp.Providers

/-!
# Starting the LSP

The first call of `WSPStartup` raises `gEntryCount`, builds the table of
providers and starts the lower provider of every layer.  None of its exits
lowers the count again, and the one for an incomplete table of entry points does
not leave `gCriticalSection`.  The result of a lower provider is only kept until
the next one is started.

What a call asks of the code outside is the answer to each of its stages.  The
calls of `WSPStartup` and `WSPCleanup` follow each other in any order; the
process is not being detached.
-/

namespace MiscProjects.Lsp.Startup

open Providers

def wsaenobufs : INT := 10055

def wsaeproviderfailedinit : INT := 10106

def socketError : INT := -1

/-! ## `WSPStartup` -/

/-- A call of a lower provider's `WSPStartup`, and its result. -/
structure StartupCall where
  pInfo : ProtocolInfo
  ret : INT
deriving DecidableEq

/-- An element of `gBaseInfo`; the code keeps of `startup` no more than the table of entry
points. -/
structure Layer where
  provider : Provider
  hProvider : Bool
  startup : Option StartupCall
deriving DecidableEq

/-- The library is loaded, and the lower provider has answered that it is started. -/
def Layer.Started (l : Layer) : Prop :=
  ∃ call, l.startup = some call ∧ call.ret = 0

structure Globals where
  gEntryCount : ℕ
  gLayerCatId : DWORD
  gLayerCount : ℕ
  gBaseInfo : Option (List Layer)
  /-- How often `gCriticalSection` has been entered and not left. -/
  gCriticalSection : ℕ
  /-- How often the initialisation has been started. -/
  initialisations : ℕ

/-- Before the first call. -/
def start : Globals where
  gEntryCount := 0
  gLayerCatId := 0
  gLayerCount := 0
  gBaseInfo := none
  gCriticalSection := 0
  initialisations := 0

def Globals.enter (s : Globals) : Globals :=
  { s with gCriticalSection := s.gCriticalSection + 1 }

def Globals.leave (s : Globals) : Globals :=
  { s with gCriticalSection := s.gCriticalSection - 1 }

/-- What the code outside answers for one layer.  `loadLibrary` is `LoadLibraryW` or
`LoadLibraryA`, whichever is called. -/
structure LayerAnswer where
  wscGetProviderPath : Bool
  loadLibrary : Bool
  getProcAddress : Bool
  lpWSPStartup : INT
  verifyProcTable : Bool

/-- How the round of the loop for one layer ends: with the result of the lower provider, or
with a return that leaves `gCriticalSection` or not. -/
inductive Round
  | goesOn (ret : INT)
  | returns (leaves : Bool)

/-- One round of the loop over `gBaseInfo`. -/
def startLayer (lpProtocolInfo : ProtocolInfo) (answer : LayerAnswer) (l : Layer) :
    Layer × Round :=
  if answer.wscGetProviderPath then
    if answer.loadLibrary then
      let l := { l with hProvider := true }
      if answer.getProcAddress then
        let pInfo :=
          if l.provider.nextProvider.protocolChain.chainLen = baseProtocol then
            l.provider.nextProvider
          else lpProtocolInfo
        let l := { l with startup := some ⟨pInfo, answer.lpWSPStartup⟩ }
        if answer.verifyProcTable then (l, .goesOn answer.lpWSPStartup) else (l, .returns false)
      else (l, .returns true)
    else (l, .returns true)
  else (l, .returns true)

/-- The loop, from the layer with the index `x` on. -/
def startLayers (lpProtocolInfo : ProtocolInfo) (answer : ℕ → LayerAnswer) :
    ℕ → INT → List Layer → List Layer × Round
  | _, ret, [] => ([], .goesOn ret)
  | x, _, l :: ls =>
      match startLayer lpProtocolInfo (answer x) l with
      | (l, .goesOn ret) =>
          let rest := startLayers lpProtocolInfo answer (x + 1) ret ls
          (l :: rest.1, rest.2)
      | (l, .returns leaves) => (l :: ls, .returns leaves)

/-- A call of `WSPStartup`. -/
structure Call where
  lpProtocolInfo : ProtocolInfo
  getProviders : Option (List ProtocolInfo)
  heapAlloc : Bool
  layer : ℕ → LayerAnswer

/-- The table before its layers are started. -/
def layers (es : List ProtocolInfo) (gLayerCatId : DWORD) : List Layer :=
  (buildTable es gLayerCatId).map fun p => ⟨p, false, none⟩

/-- What follows the loop. -/
def Globals.finish (s : Globals) : Round → Globals × INT
  | .goesOn ret => (s.leave, ret)
  | .returns true => (s.leave, wsaeproviderfailedinit)
  | .returns false => (s, wsaeproviderfailedinit)

/-- `WSPStartup`, with the GUID that is compiled in. -/
def wspStartup (providerGuid : GUID) (call : Call) (s : Globals) : Globals × INT :=
  let s := s.enter
  if s.gEntryCount = 0 then
    let s := { s with
      gEntryCount := s.gEntryCount + 1
      initialisations := s.initialisations + 1 }
    match call.getProviders with
    | none => (s.leave, wsaeproviderfailedinit)
    | some es =>
        let catId := findLayerCatId es providerGuid s.gLayerCatId
        let s := { s with gLayerCatId := catId, gLayerCount := countLayers es catId }
        if call.heapAlloc then
          let started := startLayers call.lpProtocolInfo call.layer 0 0 (layers es catId)
          { s with gBaseInfo := some started.1 }.finish started.2
        else ({ s with gBaseInfo := none }.leave, wsaenobufs)
  else ({ s with gEntryCount := s.gEntryCount + 1 }.leave, 0)

/-- `WSPCleanup`; it leaves `gCriticalSection` on every path. -/
def wspCleanup (s : Globals) : Globals × INT :=
  if s.gEntryCount = 0 then (s, socketError)
  else if s.gEntryCount - 1 = 0 then
    ({ s with gEntryCount := s.gEntryCount - 1, gBaseInfo := none }, 0)
  else ({ s with gEntryCount := s.gEntryCount - 1 }, 0)

inductive Action
  | startup (call : Call)
  | cleanup

def step (providerGuid : GUID) (s : Globals) : Action → Globals
  | .startup call => (wspStartup providerGuid call s).1
  | .cleanup => (wspCleanup s).1

/-- The globals after these calls. -/
def stateAfter (providerGuid : GUID) (actions : List Action) : Globals :=
  actions.foldl (step providerGuid) start

/-! ## Statement -/

/-- The lower providers of all layers have been started. -/
structure AllStarted (s : Globals) : Prop where
  layer : ∃ ls, s.gBaseInfo = some ls ∧ ls.length = s.gLayerCount ∧ ∀ l ∈ ls, l.Started

/-- A failed call has left the count and the lock as they were, and any next call starts the
initialisation again. -/
structure Undone (providerGuid : GUID) (s s' : Globals) : Prop where
  count : s'.gEntryCount = s.gEntryCount
  lock : s'.gCriticalSection = s.gCriticalSection
  again : ∀ next, (wspStartup providerGuid next s').1.initialisations = s'.initialisations + 1

/-- The call is undone if it fails, and if it succeeds all layers are started. -/
structure UndoneOrStarted (providerGuid : GUID) (s : Globals) (call : Call) : Prop where
  undone : (wspStartup providerGuid call s).2 ≠ 0 →
    Undone providerGuid s (wspStartup providerGuid call s).1
  started : (wspStartup providerGuid call s).2 = 0 → AllStarted (wspStartup providerGuid call s).1

/-- Every stage succeeds for the layer. -/
structure LayerAnswer.Succeeds (answer : LayerAnswer) : Prop where
  wscGetProviderPath : answer.wscGetProviderPath
  loadLibrary : answer.loadLibrary
  getProcAddress : answer.getProcAddress
  lpWSPStartup : answer.lpWSPStartup = 0
  verifyProcTable : answer.verifyProcTable

/-- The catalog can be read, there is memory for the table, and every stage succeeds for
every layer. -/
def Call.Succeeds (providerGuid : GUID) (gLayerCatId : DWORD) (call : Call) : Prop :=
  ∃ es, call.getProviders = some es ∧ call.heapAlloc ∧
    ∀ x < countLayers es (findLayerCatId es providerGuid gLayerCatId), (call.layer x).Succeeds

/-! ## The layers -/

section Layers
variable {lpProtocolInfo : ProtocolInfo} {answer : ℕ → LayerAnswer} {a : LayerAnswer}
  {l l' : Layer} {ls ls' : List Layer} {ret : INT} {x : ℕ}

theorem startLayer_of_succeeds (lpProtocolInfo : ProtocolInfo) (ha : a.Succeeds) (l : Layer) :
    ∃ l', startLayer lpProtocolInfo a l = (l', .goesOn 0) ∧ l'.Started := by
  unfold startLayer
  rw [if_pos ha.wscGetProviderPath, if_pos ha.loadLibrary]
  simp only [ha.getProcAddress, ha.verifyProcTable, ha.lpWSPStartup, if_true]
  exact ⟨_, rfl, _, rfl, rfl⟩

theorem succeeds_of_startLayer (hround : startLayer lpProtocolInfo a l = (l', .goesOn ret))
    (hstarted : l'.Started) : a.Succeeds := by
  by_cases hpath : a.wscGetProviderPath = true
  · by_cases hload : a.loadLibrary = true
    · by_cases hproc : a.getProcAddress = true
      · by_cases hverify : a.verifyProcTable = true
        · simp only [startLayer, hpath, hload, hproc, hverify, if_true, Prod.mk.injEq] at hround
          obtain ⟨call, hcall, hzero⟩ := hstarted
          rw [← hround.1] at hcall
          obtain rfl := Option.some.inj hcall
          exact ⟨hpath, hload, hproc, hzero, hverify⟩
        · simp [startLayer, hpath, hload, hproc, hverify] at hround
      · simp [startLayer, hpath, hload, hproc] at hround
    · simp [startLayer, hpath, hload] at hround
  · simp [startLayer, hpath] at hround

theorem startLayers_of_succeeds (lpProtocolInfo : ProtocolInfo)
    (hsucceeds : ∀ i < ls.length, (answer (x + i)).Succeeds) :
    ∃ ls', startLayers lpProtocolInfo answer x 0 ls = (ls', .goesOn 0) ∧
      ls'.length = ls.length ∧ ∀ l ∈ ls', l.Started := by
  induction ls generalizing x with
  | nil => exact ⟨[], rfl, rfl, by simp⟩
  | cons l ls ih =>
      have hfirst : (answer x).Succeeds := hsucceeds 0 (by simp)
      have hrest : ∀ i < ls.length, (answer (x + 1 + i)).Succeeds := by
        intro i hi
        have hnext := hsucceeds (i + 1) (by simpa using hi)
        rwa [Nat.add_assoc, Nat.add_comm 1 i]
      obtain ⟨l', hround, hstarted⟩ := startLayer_of_succeeds lpProtocolInfo hfirst l
      obtain ⟨ls', hloop, hlength, hall⟩ := ih hrest
      refine ⟨l' :: ls', ?_, by simpa using hlength, ?_⟩
      · simp only [startLayers, hround, hloop]
      · intro k hk
        rcases List.mem_cons.1 hk with rfl | hk
        · exact hstarted
        · exact hall k hk

theorem succeeds_of_startLayers {last : INT}
    (hloop : startLayers lpProtocolInfo answer x last ls = (ls', .goesOn ret))
    (hall : ∀ l ∈ ls', l.Started) {i : ℕ} (hi : i < ls.length) : (answer (x + i)).Succeeds := by
  induction ls generalizing x last ls' i with
  | nil => exact absurd hi (Nat.not_lt_zero i)
  | cons l ls ih =>
      cases hround : startLayer lpProtocolInfo (answer x) l with | mk l' round =>
      rcases round with ret' | leaves
      · simp only [startLayers, hround, Prod.mk.injEq] at hloop
        rcases i with - | i
        · refine succeeds_of_startLayer hround (hall l' ?_)
          rw [← hloop.1]
          exact List.mem_cons_self
        · have hrest : ∀ k ∈ (startLayers lpProtocolInfo answer (x + 1) ret' ls).1, k.Started := by
            intro k hk
            refine hall k ?_
            rw [← hloop.1]
            exact List.mem_cons_of_mem _ hk
          have hnext := ih (Prod.ext rfl hloop.2) hrest (Nat.lt_of_succ_lt_succ hi)
          rwa [Nat.add_assoc, Nat.add_comm 1 i] at hnext
      · simp [startLayers, hround] at hloop

theorem length_layers (es : List ProtocolInfo) (catId : DWORD) :
    (layers es catId).length = countLayers es catId := by
  rw [layers, List.length_map, length_buildTable]

end Layers

/-! ## One call -/

section Call
variable {providerGuid : GUID} {s : Globals} {call : Call}

theorem wspStartup_again (hcount : s.gEntryCount ≠ 0) :
    wspStartup providerGuid call s = ({ s with gEntryCount := s.gEntryCount + 1 }, 0) := by
  simp [wspStartup, Globals.enter, Globals.leave, hcount]

theorem finish_eq_zero {round : Round} (hzero : (s.finish round).2 = 0) : round = .goesOn 0 := by
  rcases round with ret | leaves
  · obtain rfl : ret = 0 := hzero
    rfl
  · rcases leaves with - | - <;> exact absurd hzero (by decide : wsaeproviderfailedinit ≠ 0)

theorem finish_gEntryCount (s : Globals) (round : Round) :
    (s.finish round).1.gEntryCount = s.gEntryCount := by
  rcases round with ret | leaves
  · rfl
  · rcases leaves with - | - <;> rfl

theorem finish_gBaseInfo (s : Globals) (round : Round) :
    (s.finish round).1.gBaseInfo = s.gBaseInfo := by
  rcases round with ret | leaves
  · rfl
  · rcases leaves with - | - <;> rfl

/-- The globals of a first call before its layers are started. -/
def loaded (providerGuid : GUID) (s : Globals) (es : List ProtocolInfo) : Globals :=
  { s.enter with
    gEntryCount := 1
    initialisations := s.initialisations + 1
    gLayerCatId := findLayerCatId es providerGuid s.gLayerCatId
    gLayerCount := countLayers es (findLayerCatId es providerGuid s.gLayerCatId) }

theorem wspStartup_loaded (hcount : s.gEntryCount = 0) {es : List ProtocolInfo}
    (hproviders : call.getProviders = some es) (halloc : call.heapAlloc) :
    wspStartup providerGuid call s = ({ loaded providerGuid s es with
          gBaseInfo := some (startLayers call.lpProtocolInfo call.layer 0 0
            (layers es (findLayerCatId es providerGuid s.gLayerCatId))).1 } : Globals).finish
        (startLayers call.lpProtocolInfo call.layer 0 0
          (layers es (findLayerCatId es providerGuid s.gLayerCatId))).2 := by
  have henter : s.enter.gEntryCount = 0 := hcount
  unfold wspStartup
  simp only [henter, if_true, hproviders, halloc]
  rfl

theorem wspStartup_not_loaded (hcount : s.gEntryCount = 0)
    (hfails : ∀ es, call.getProviders = some es → call.heapAlloc = false) :
    (wspStartup providerGuid call s).2 ≠ 0 ∧
      (wspStartup providerGuid call s).1.gEntryCount = 1 := by
  have henter : s.enter.gEntryCount = 0 := hcount
  unfold wspStartup
  simp only [henter, if_true]
  rcases hproviders : call.getProviders with - | es
  · exact ⟨(by decide : wsaeproviderfailedinit ≠ 0), rfl⟩
  · simp only [hfails es hproviders]
    exact ⟨(by decide : wsaenobufs ≠ 0), rfl⟩

theorem loaded_or_fails (call : Call) :
    (∃ es, call.getProviders = some es ∧ call.heapAlloc = true) ∨
      ∀ es, call.getProviders = some es → call.heapAlloc = false := by
  rcases halloc : call.heapAlloc
  · exact .inr fun _ _ => rfl
  · rcases hproviders : call.getProviders with - | es
    · exact .inr fun _ h => absurd h (by simp)
    · exact .inl ⟨es, rfl, rfl⟩

theorem gEntryCount_wspStartup (hcount : s.gEntryCount = 0) :
    (wspStartup providerGuid call s).1.gEntryCount = 1 := by
  rcases loaded_or_fails call with ⟨es, hproviders, halloc⟩ | hfails
  · rw [wspStartup_loaded hcount hproviders halloc, finish_gEntryCount]
    rfl
  · exact (wspStartup_not_loaded hcount hfails).2

theorem not_undone (hcount : s.gEntryCount = 0) :
    ¬Undone providerGuid s (wspStartup providerGuid call s).1 := by
  intro hundone
  have hsame := hundone.count
  rw [gEntryCount_wspStartup hcount, hcount] at hsame
  exact absurd hsame (by decide)

theorem wspStartup_first_eq_zero (hcount : s.gEntryCount = 0)
    (hzero : (wspStartup providerGuid call s).2 = 0) :
    ∃ es ls, call.getProviders = some es ∧ call.heapAlloc ∧
      startLayers call.lpProtocolInfo call.layer 0 0
        (layers es (findLayerCatId es providerGuid s.gLayerCatId)) = (ls, .goesOn 0) ∧
      (wspStartup providerGuid call s).1.gBaseInfo = some ls := by
  rcases loaded_or_fails call with ⟨es, hproviders, halloc⟩ | hfails
  · rw [wspStartup_loaded hcount hproviders halloc] at hzero
    refine ⟨es, _, hproviders, halloc, Prod.ext rfl (finish_eq_zero hzero), ?_⟩
    rw [wspStartup_loaded hcount hproviders halloc, finish_gBaseInfo]
  · exact absurd hzero (wspStartup_not_loaded hcount hfails).1

theorem wspStartup_of_succeeds (hcount : s.gEntryCount = 0)
    (hsucceeds : call.Succeeds providerGuid s.gLayerCatId) :
    (wspStartup providerGuid call s).2 = 0 ∧ AllStarted (wspStartup providerGuid call s).1 := by
  obtain ⟨es, hproviders, halloc, hlayer⟩ := hsucceeds
  have hrounds : ∀ i < (layers es (findLayerCatId es providerGuid s.gLayerCatId)).length,
      (call.layer (0 + i)).Succeeds := by
    intro i hi
    rw [length_layers] at hi
    rw [Nat.zero_add]
    exact hlayer i hi
  obtain ⟨ls, hloop, hlength, hall⟩ := startLayers_of_succeeds call.lpProtocolInfo hrounds
  rw [length_layers] at hlength
  rw [wspStartup_loaded hcount hproviders halloc, hloop]
  exact ⟨rfl, ls, rfl, hlength, hall⟩

theorem undoneOrStarted_iff (hcount : s.gEntryCount = 0) :
    UndoneOrStarted providerGuid s call ↔ call.Succeeds providerGuid s.gLayerCatId := by
  constructor
  · intro hmeets
    have hzero : (wspStartup providerGuid call s).2 = 0 := by
      by_contra hfails
      exact not_undone hcount (hmeets.undone hfails)
    obtain ⟨es, ls, hproviders, halloc, hloop, htable⟩ := wspStartup_first_eq_zero hcount hzero
    obtain ⟨ls', htable', -, hall⟩ := (hmeets.started hzero).layer
    obtain rfl : ls = ls' := Option.some.inj (htable.symm.trans htable')
    refine ⟨es, hproviders, halloc, ?_⟩
    intro x hx
    have hround := succeeds_of_startLayers hloop hall (i := x) (by rwa [length_layers])
    rwa [Nat.zero_add] at hround
  · intro hsucceeds
    obtain ⟨hzero, hall⟩ := wspStartup_of_succeeds hcount hsucceeds
    exact ⟨fun hfails => absurd hzero hfails, fun _ => hall⟩

theorem undoneOrStarted_again (hcount : s.gEntryCount ≠ 0) (hall : AllStarted s) :
    UndoneOrStarted providerGuid s call := by
  refine ⟨?_, ?_⟩
  · rw [wspStartup_again hcount]
    exact fun hfails => absurd rfl hfails
  · rw [wspStartup_again hcount]
    exact fun _ => ⟨hall.layer⟩

end Call

/-! ## Runs -/

/-- While the LSP is in use, its layers are started. -/
def StartedInUse (s : Globals) : Prop := s.gEntryCount ≠ 0 → AllStarted s

theorem StartedInUse.step {providerGuid : GUID} {s : Globals} {a : Action} (hs : StartedInUse s)
    (ha : ∀ call, a = .startup call → s.gEntryCount = 0 →
      call.Succeeds providerGuid s.gLayerCatId) : StartedInUse (step providerGuid s a) := by
  rcases a with call | -
  · by_cases hcount : s.gEntryCount = 0
    · exact fun _ => (wspStartup_of_succeeds hcount (ha call rfl hcount)).2
    · intro _
      change AllStarted (wspStartup providerGuid call s).1
      rw [wspStartup_again hcount]
      exact ⟨(hs hcount).layer⟩
  · intro hcount'
    change AllStarted (wspCleanup s).1
    change (wspCleanup s).1.gEntryCount ≠ 0 at hcount'
    unfold wspCleanup at hcount' ⊢
    by_cases hcount : s.gEntryCount = 0
    · rw [if_pos hcount] at hcount'
      exact absurd hcount hcount'
    · rw [if_neg hcount] at hcount' ⊢
      by_cases hlast : s.gEntryCount - 1 = 0
      · rw [if_pos hlast] at hcount'
        exact absurd hlast hcount'
      · rw [if_neg hlast]
        exact ⟨(hs hcount).layer⟩

theorem stateAfter_concat (providerGuid : GUID) (actions : List Action) (a : Action) :
    stateAfter providerGuid (actions ++ [a]) =
      step providerGuid (stateAfter providerGuid actions) a := by
  simp [stateAfter]

/-- In every sequence of calls, each call of `WSPStartup` is undone if it fails and has all
layers started if it succeeds, exactly if nothing fails in those that initialise the LSP. -/
theorem startup_undone_iff (providerGuid : GUID) (actions : List Action) :
    (∀ before call, before ++ [.startup call] <+: actions →
        UndoneOrStarted providerGuid (stateAfter providerGuid before) call) ↔
      ∀ before call, before ++ [.startup call] <+: actions →
        (stateAfter providerGuid before).gEntryCount = 0 →
          call.Succeeds providerGuid (stateAfter providerGuid before).gLayerCatId := by
  constructor
  · intro hmeets before call hbefore hcount
    exact (undoneOrStarted_iff hcount).1 (hmeets before call hbefore)
  · intro hsucceeds
    -- By induction on the calls made before.
    have hinv : ∀ before, before <+: actions → StartedInUse (stateAfter providerGuid before) := by
      intro before
      induction before using List.reverseRecOn with
      | nil => exact fun _ hcount => absurd rfl hcount
      | append_singleton before a ih =>
          intro hbefore
          rw [stateAfter_concat]
          refine (ih ((List.prefix_append before [a]).trans hbefore)).step ?_
          rintro call rfl hcount
          exact hsucceeds before call hbefore hcount
    intro before call hbefore
    by_cases hcount : (stateAfter providerGuid before).gEntryCount = 0
    · exact (undoneOrStarted_iff hcount).2 (hsucceeds before call hbefore hcount)
    · exact undoneOrStarted_again hcount
        (hinv before ((List.prefix_append before _).trans hbefore) hcount)

/-- The catalog cannot be read. -/
def unreadable : Call where
  lpProtocolInfo := .zero
  getProviders := none
  heapAlloc := true
  layer := fun _ => ⟨true, true, true, 0, true⟩

/-- The next call takes the short way and succeeds without any layer. -/
theorem not_undone_unreadable :
    ¬∀ before call, before ++ [.startup call] <+: [.startup unreadable, .startup unreadable] →
      UndoneOrStarted 7 (stateAfter 7 before) call := by
  intro hmeets
  have hfirst := hmeets [] unreadable (by simp)
  have hcount := (hfirst.undone (by decide)).count
  exact absurd hcount (by decide)

end MiscProjects.Lsp.Startup
