import MiscProjects.Library.CircularList
import MiscProjects.Nfp.Naming
import MiscProjects.Nfp.Subscription
import Mathlib.Logic.Function.Iterate

/-!
# The lists of the file contexts

A file context has one list entry for four lists.  `OnCreateFile` links it by the role it
has got from the file name, `IOCTL_NFP_SET_PAYLOAD` links a publication, and `OnCloseFile`
looks for it in the list of the role it has then.

Contexts are named by their addresses.  The heads of the lists are entries of the queue
object itself; the entry of a context is allocated with it and freed with it.
-/

namespace MiscProjects.Nfp.Membership

open MiscProjects.Runs
open MiscProjects.CircularList (ListEntry Ring SameEntries initializeListHead insertHeadList
  removeEntryList findEntry)
open Function (update update_self update_of_ne update_eq_self)

inductive ListHead
  | subs
  | arrivalSubs
  | departureSubs
  | pubs
deriving DecidableEq

inductive Node
  | head (list : ListHead)
  | context (ptr : ℕ)
deriving DecidableEq

/-- `CMyQueue` with the contexts of the files.  `created` counts the contexts created so
far and bounds the walks along the lists. -/
structure CMyQueue where
  links : CircularList.Memory Node
  contexts : ℕ → Option FileState
  files : ℕ → Option ℕ
  created : ℕ

/-- The constructor, with `InitializeListHead` for every head. -/
def CMyQueue.create : CMyQueue where
  links
    | .head list => some ⟨.head list, .head list⟩
    | .context _ => none
  contexts _ := none
  files _ := none
  created := 0

def CMyQueue.setContext (ptr : ℕ) (s : FileState) (q : CMyQueue) : CMyQueue :=
  { q with contexts := update q.contexts ptr (some s) }

/-! ## `OnCreateFile` -/

/-- The context that a file gets.  A device that is opened without a file name, like one
whose name is too long, gets a context with an undefined role. -/
def newFileContext (T : UpcaseTable) (env : CreateEnv) :
    Option (List WCHAR) → Except HRESULT CFileContext
  | some fileName => onCreateFile T env fileName
  | none =>
      if env.newContext = false then .error notEnoughMemory
      else if succeeded env.retrieveLength = false then .error env.retrieveLength
      else if succeeded env.assignContext then .ok (.create .undefined none)
      else .error env.assignContext

/-- The list that a new context is put into. -/
def createdInto : Role → Option ListHead
  | .subscription => some .subs
  | .arrivedSubscription => some .arrivalSubs
  | .departedSubscription => some .departureSubs
  | _ => none

/-- `OnCreateFile` on a new file object, with a context at `ptr`. -/
def CMyQueue.onCreateFile (T : UpcaseTable) (env : CreateEnv) (fileName : Option (List WCHAR))
    (file ptr : ℕ) (q : CMyQueue) : Option CMyQueue :=
  match newFileContext T env fileName with
  | .error _ => some q
  | .ok ctx =>
      let links := initializeListHead q.links (.context ptr)
      let linked :=
        match createdInto ctx.role with
        | none => some links
        | some list => insertHeadList links (.head list) (.context ptr)
      linked.map fun links =>
        { links := links
          contexts := update q.contexts ptr
            (some ⟨ctx, { cancelled := [], due := [], completions := [] }⟩)
          files := update q.files file (some ptr)
          created := q.created + 1 }

/-! ## `OnDeviceIoControl` -/

/-- `BeginProximity` up to the connection it makes. -/
def beginProximity (s : FileState) : FileState :=
  if s.ctx.role ≠ .undefined then s
  else { s with ctx := { s.ctx with role := .proximity } }

/-- The control codes with what the environment answers: whether the allocations succeed,
and the number of connections over which the publication is transmitted. -/
inductive ControlCode
  | getMaxMessageBytes
  | getKiloBytesPerSecond
  | disable
  | enable
  | setPayload (newPayload newMessage : Bool) (transmitted : ℕ) (request : IWDFIoRequest)
  | beginProximity
  | getNextSubscribedMessage (timing : CancelTiming) (request : IWDFIoRequest)
  | getNextTransmittedMessage (timing : CancelTiming) (request : IWDFIoRequest)
  | unknown

/-- `IOCTL_NFP_SET_PAYLOAD` after `SetPayload` has succeeded.  `MESSAGE::Initialize` copies
the type of the context, which must not be `NULL`. -/
def CMyQueue.publish (ptr : ℕ) (transmitted : ℕ) (s : FileState) (q : CMyQueue) :
    Option CMyQueue :=
  if s.ctx.pszType = none then none
  else
    (insertHeadList q.links (.head .pubs) (.context ptr)).map fun links =>
      { q.setContext ptr (handleMessageTransmitted^[transmitted] s) with links := links }

/-- The switch on the control code, for the context `s` at `ptr`. -/
def CMyQueue.ioControl (ptr : ℕ) (s : FileState) (q : CMyQueue) :
    ControlCode → Option CMyQueue
  | .getMaxMessageBytes => some q
  | .getKiloBytesPerSecond => some q
  | .disable => some (q.setContext ptr (Nfp.disable s).1)
  | .enable => some (q.setContext ptr (Nfp.enable s).1)
  | .setPayload newPayload newMessage transmitted request => do
      let (s', hr) ← Nfp.setPayload newPayload request s
      if succeeded hr ∧ newMessage = true then q.publish ptr transmitted s'
      else some (q.setContext ptr s')
  | .beginProximity => some (q.setContext ptr (Membership.beginProximity s))
  | .getNextSubscribedMessage timing request => do
      let (s', _) ← Nfp.getNextSubscribedMessage timing request s
      some (q.setContext ptr s')
  | .getNextTransmittedMessage timing request => do
      let (s', _) ← Nfp.getNextTransmittedMessage timing request s
      some (q.setContext ptr s')
  | .unknown => some q

/-- `OnDeviceIoControl`.  A file without a context is refused. -/
def CMyQueue.onDeviceIoControl (file : ℕ) (code : ControlCode) (q : CMyQueue) :
    Option CMyQueue :=
  match q.files file with
  | none => some q
  | some ptr => (q.contexts ptr).bind fun s => q.ioControl ptr s code

/-! ## `OnCloseFile` -/

/-- The list in which a context is looked for. -/
def closedFrom : Role → Option ListHead
  | .subscription => some .subs
  | .arrivedSubscription => some .arrivalSubs
  | .departedSubscription => some .departureSubs
  | .publication => some .pubs
  | _ => none

/-- The walk along one list, and the removal if it meets the context. -/
def CMyQueue.unlink (list : ListHead) (ptr : ℕ) (q : CMyQueue) :
    Option (CircularList.Memory Node) := do
  let head ← q.links (.head list)
  if ← findEntry q.links (.head list) (.context ptr) (q.created + 1) head.flink then
    removeEntryList q.links (.context ptr)
  else some q.links

/-- `OnCloseFile`; the file object goes away after it. -/
def CMyQueue.onCloseFile (file : ℕ) (q : CMyQueue) : Option CMyQueue :=
  match q.files file with
  | none => some q
  | some ptr =>
      (q.contexts ptr).bind fun s =>
        let unlinked :=
          match closedFrom s.ctx.role with
          | none => some q.links
          | some list => q.unlink list ptr
        unlinked.map fun links =>
          { q with
            links := update links (.context ptr) none
            contexts := update q.contexts ptr none
            files := update q.files file none }

/-! ## Runs -/

inductive Call
  | createFile (env : CreateEnv) (fileName : Option (List WCHAR)) (file ptr : ℕ)
  | deviceIoControl (file : ℕ) (code : ControlCode)
  | closeFile (file : ℕ)

def step (T : UpcaseTable) (q : CMyQueue) : Call → Option CMyQueue
  | .createFile env fileName file ptr => q.onCreateFile T env fileName file ptr
  | .deviceIoControl file code => q.onDeviceIoControl file code
  | .closeFile file => q.onCloseFile file

/-- A file is created on a file object of its own, and `new` returns memory that is free. -/
def Callable (q : CMyQueue) : Call → Prop
  | .createFile _ _ file ptr => q.files file = none ∧ q.contexts ptr = none
  | _ => True

instance (q : CMyQueue) : (call : Call) → Decidable (Callable q call)
  | .createFile _ _ _ _ => inferInstanceAs (Decidable (_ ∧ _))
  | .deviceIoControl _ _ => isTrue trivial
  | .closeFile _ => isTrue trivial

/-- The allocation of the type succeeds. -/
def TypeAllocated : Call → Prop
  | .createFile env _ _ _ => env.newType = true
  | _ => True

/-- The lists of the queue: the contexts in each of them, in order. -/
structure Lists (q : CMyQueue) (l : ListHead → List ℕ) : Prop where
  /-- Walking along a list visits its contexts. -/
  walked : ∀ list, CircularList.entries q.links (.head list) (q.created + 1) =
    some ((l list).map Node.context)
  once : ∀ list, (l list).Nodup
  one : ∀ list other ptr, ptr ∈ l list → ptr ∈ l other → list = other
  /-- A context is live and linked in the list of its role only. -/
  live : ∀ list, ∀ ptr ∈ l list, ∃ s, q.contexts ptr = some s ∧ closedFrom s.ctx.role = some list
  payload : ∀ ptr ∈ l .pubs, ∀ s, q.contexts ptr = some s → s.ctx.myPayload ≠ none
  /-- The entries of a list point to its head and to each other. -/
  pointers : ∀ list node, node = .head list ∨ (∃ ptr ∈ l list, node = .context ptr) →
    ∃ entry, q.links node = some entry ∧
      ∀ next, next = entry.flink ∨ next = entry.blink →
        next = .head list ∨ ∃ ptr ∈ l list, next = .context ptr

/-! ## What the sections of a context keep -/

/-- Neither the role nor the type nor the payload has changed. -/
structure SameKind (s s' : FileState) : Prop where
  role : s'.ctx.role = s.ctx.role
  pszType : s'.ctx.pszType = s.ctx.pszType
  myPayload : s'.ctx.myPayload = s.ctx.myPayload

section Kind
variable {s s' s'' : FileState}

theorem SameKind.refl (s : FileState) : SameKind s s := ⟨rfl, rfl, rfl⟩

theorem SameKind.trans (h : SameKind s s') (h' : SameKind s' s'') : SameKind s s'' :=
  ⟨h'.role.trans h.role, h'.pszType.trans h.pszType, h'.myPayload.trans h.myPayload⟩

theorem completeRequest_sameKind (hr : HRESULT) (cbSize : ℕ) (fIsCancelable : Bool)
    (s : FileState) : SameKind s (completeRequest hr cbSize fIsCancelable s).1 := by
  unfold completeRequest
  split
  · exact .refl s
  · split
    · exact .refl s
    · exact ⟨rfl, rfl, rfl⟩

variable {timing : CancelTiming} {hr : HRESULT} {request : IWDFIoRequest}

theorem SameKind.completeRequest (h : SameKind s s') {cbSize : ℕ}
    {fIsCancelable : Bool} : SameKind s (completeRequest hr cbSize fIsCancelable s').1 :=
  h.trans (completeRequest_sameKind hr cbSize fIsCancelable s')

theorem addCredit_sameKind (s : FileState) : SameKind s (addCredit s) := ⟨rfl, rfl, rfl⟩

theorem spendCredit_sameKind (s : FileState) : SameKind s (spendCredit s) := ⟨rfl, rfl, rfl⟩

theorem completeOne_sameKind (cbPayload : ℕ) (pbPayload : Option (List UInt8)) (s : FileState) :
    SameKind s (completeOneGetNextSubscribedMessage cbPayload pbPayload s).1 := by
  unfold completeOneGetNextSubscribedMessage
  split
  · exact .refl s
  · split
    · exact .refl s
    · apply SameKind.completeRequest
      exact ⟨rfl, rfl, rfl⟩

theorem completeOneEvent_sameKind (flags : ℕ) (s : FileState) :
    SameKind s (completeOneEvent flags s) := by
  have hcomplete := completeOne_sameKind 4 (some (dwordBytes flags)) s
  unfold completeOneEvent
  split
  · dsimp only
    split
    · exact hcomplete.trans (spendCredit_sameKind _)
    · exact hcomplete
  · exact .refl s

theorem deliverHead_sameKind (s : FileState) : SameKind s (deliverHead s) := by
  unfold deliverHead
  split
  · exact .refl s
  · have hcomplete := fun payload : List UInt8 =>
      completeOne_sameKind payload.length (some payload) s
    dsimp only
    split
    · exact (hcomplete _).trans ⟨rfl, rfl, rfl⟩
    · exact hcomplete _

theorem deliverFor_sameKind {role : Role} {deliver : FileState → FileState}
    (h : deliverFor role = some deliver) (s : FileState) : SameKind s (deliver s) := by
  cases role with
  | subscription =>
      rw [← Option.some.inj h]
      exact deliverHead_sameKind s
  | arrivedSubscription =>
      rw [← Option.some.inj h]
      exact completeOneEvent_sameKind 1 s
  | departedSubscription =>
      rw [← Option.some.inj h]
      exact completeOneEvent_sameKind 0 s
  | undefined | publication | proximity => exact absurd h (Option.some_ne_none deliver).symm

theorem markCancelable_sameKind (timing : CancelTiming) (s : FileState) :
    SameKind s (markCancelable timing s) := by
  unfold markCancelable
  split
  · exact .refl s
  · split
    · exact .refl s
    · apply SameKind.completeRequest
      exact ⟨rfl, rfl, rfl⟩
    · exact ⟨rfl, rfl, rfl⟩

theorem pend_sameKind (request : IWDFIoRequest) (s : FileState) : SameKind s (pend request s) :=
  ⟨rfl, rfl, rfl⟩

theorem getNextSubscribedMessage_sameKind
    (h : getNextSubscribedMessage timing request s = some (s', hr)) : SameKind s s' := by
  rcases getNextSubscribedMessage_cases h with ⟨hstay, -⟩ | ⟨deliver, hdeliver, -, -, -, hpended⟩
  · rw [show s' = s from hstay]
    exact .refl s
  · obtain ⟨rfl, -⟩ := Prod.mk.inj hpended
    have hmarked := (pend_sameKind request s).trans (markCancelable_sameKind timing _)
    unfold pendAndDeliver
    dsimp only
    split
    · exact hmarked.trans (deliverFor_sameKind hdeliver _)
    · exact hmarked

theorem takeCredit_sameKind (s : FileState) : SameKind s (takeCredit s) := by
  have hcomplete := completeRequest_sameKind sOk 0 false s
  unfold takeCredit
  split
  · dsimp only
    split
    · exact hcomplete.trans (spendCredit_sameKind _)
    · exact hcomplete
  · exact .refl s

theorem getNextTransmittedMessage_sameKind
    (h : getNextTransmittedMessage timing request s = some (s', hr)) : SameKind s s' := by
  rcases getNextTransmittedMessage_cases h with ⟨hstay, -⟩ | ⟨-, -, -, hpended⟩
  · rw [show s' = s from hstay]
    exact .refl s
  · obtain ⟨rfl, -⟩ := Prod.mk.inj hpended
    exact ((pend_sameKind request s).trans (takeCredit_sameKind _)).trans
      (markCancelable_sameKind timing _)

theorem disable_sameKind (s : FileState) : SameKind s (disable s).1 := by
  rcases disable_cases s with ⟨-, h⟩ | ⟨-, h⟩
  · rw [h]
    exact .refl s
  · rw [h]
    have hoff : SameKind s { s with ctx := { s.ctx with fEnabled := false } } := ⟨rfl, rfl, rfl⟩
    exact (hoff.trans (completeRequest_sameKind _ _ _ _)).trans ⟨rfl, rfl, rfl⟩

theorem enable_sameKind (s : FileState) : SameKind s (enable s).1 := by
  unfold enable
  dsimp only
  split
  · exact ⟨rfl, rfl, rfl⟩
  · exact .refl s

theorem handleMessageTransmitted_sameKind (s : FileState) :
    SameKind s (handleMessageTransmitted s) := by
  have hcomplete := completeRequest_sameKind sOk 0 true s
  unfold handleMessageTransmitted
  dsimp only
  split
  · exact hcomplete
  · exact hcomplete.trans (addCredit_sameKind _)

theorem transmitted_sameKind (n : ℕ) (s : FileState) :
    SameKind s (handleMessageTransmitted^[n] s) := by
  induction n generalizing s with
  | zero => exact .refl s
  | succ n ih => exact (handleMessageTransmitted_sameKind s).trans (ih _)

theorem setPayload_kind {newPayload : Bool} (h : setPayload newPayload request s = some (s', hr)) :
    s' = s ∧ succeeded hr = false ∨
      s.ctx.role = .publication ∧ s.ctx.myPayload = none ∧ s'.ctx.myPayload ≠ none ∧
        s'.ctx.role = s.ctx.role ∧ s'.ctx.pszType = s.ctx.pszType ∧ succeeded hr = true := by
  rcases setPayload_spec h with ⟨rfl, hfail, -⟩ | ⟨payload, haccepted, rfl, rfl⟩
  · exact .inl ⟨rfl, hfail⟩
  · exact .inr ⟨haccepted.role, haccepted.first, Option.some_ne_none payload, rfl, rfl,
      succeeded_sOk⟩

end Kind

/-! ## The lists -/

variable {T : UpcaseTable} {q q' : CMyQueue} {l : ListHead → List ℕ} {list other : ListHead}
  {file ptr : ℕ} {s s' : FileState} {links : CircularList.Memory Node}

/-- The lists are rings of live contexts, each in the list of its role. -/
structure Linked (q : CMyQueue) (l : ListHead → List ℕ) : Prop where
  ring : ∀ list, Ring q.links (.head list) ((l list).map Node.context)
  live : ∀ list, ∀ ptr ∈ l list, ∃ s, q.contexts ptr = some s ∧ closedFrom s.ctx.role = some list
  payload : ∀ ptr ∈ l .pubs, ∀ s, q.contexts ptr = some s → s.ctx.myPayload ≠ none
  allocated : ∀ ptr, q.links (.context ptr) = none ↔ q.contexts ptr = none
  known : ∃ all : List ℕ, all.length ≤ q.created ∧ ∀ ptr, q.contexts ptr ≠ none → ptr ∈ all
  file : ∀ file ptr, q.files file = some ptr → q.contexts ptr ≠ none
  own : ∀ f g ptr, q.files f = some ptr → q.files g = some ptr → f = g

theorem linked_create : Linked .create fun _ => [] where
  ring _ := ⟨⟨rfl, rfl⟩, List.nodup_singleton _⟩
  live _ _ hptr := absurd hptr List.not_mem_nil
  payload _ hptr := absurd hptr List.not_mem_nil
  allocated _ := iff_of_true rfl rfl
  known := ⟨[], Nat.le_refl 0, fun _ hptr => absurd rfl hptr⟩
  file _ ptr hptr := absurd hptr.symm (Option.some_ne_none ptr)
  own _ _ ptr hf := absurd hf.symm (Option.some_ne_none ptr)

theorem setContext_self : (q.setContext ptr s).contexts ptr = some s := update_self ..

theorem setContext_of_ne {p : ℕ} (hp : p ≠ ptr) : (q.setContext ptr s).contexts p = q.contexts p :=
  update_of_ne hp ..

namespace Linked

theorem once (h : Linked q l) (list : ListHead) : (l list).Nodup :=
  (List.nodup_cons.mp (h.ring list).nodup).2.of_map Node.context

theorem same_list (h : Linked q l) (hptr : ptr ∈ l list) (hptr' : ptr ∈ l other) :
    list = other := by
  obtain ⟨s, hs, hrole⟩ := h.live list ptr hptr
  obtain ⟨s', hs', hrole'⟩ := h.live other ptr hptr'
  obtain rfl := Option.some.inj (hs.symm.trans hs')
  exact Option.some.inj (hrole.symm.trans hrole')

theorem short (h : Linked q l) (list : ListHead) :
    ((l list).map Node.context).length < q.created + 1 := by
  obtain ⟨all, hall, hmem⟩ := h.known
  have hsubset : l list ⊆ all := by
    intro ptr hptr
    obtain ⟨s, hs, -⟩ := h.live list ptr hptr
    apply hmem
    rw [hs]
    exact Option.some_ne_none s
  have hle := (List.subperm_of_subset (h.once list) hsubset).length_le
  rw [List.length_map]
  omega

theorem other_ring (h : Linked q l) (hne : other ≠ list) {node : Node}
    (hnode : node ∈ Node.head other :: (l other).map Node.context) :
    node ∉ Node.head list :: (l list).map Node.context := by
  rw [List.mem_cons, List.mem_map] at hnode ⊢
  rcases hnode with rfl | ⟨ptr, hptr, rfl⟩
  · rintro (heq | ⟨ptr, -, heq⟩)
    · exact hne (Node.head.inj heq)
    · cases heq
  · rintro (heq | ⟨ptr', hptr', heq⟩)
    · cases heq
    · obtain rfl := Node.context.inj heq
      exact hne (h.same_list hptr hptr')

theorem setContext (h : Linked q l) (hs : q.contexts ptr = some s)
    (hrole : closedFrom s'.ctx.role = closedFrom s.ctx.role)
    (hpayload : s.ctx.myPayload ≠ none → s'.ctx.myPayload ≠ none) :
    Linked (q.setContext ptr s') l where
  ring := h.ring
  live list p hp := by
    obtain ⟨sp, hsp, hrolep⟩ := h.live list p hp
    by_cases heq : p = ptr
    · subst heq
      obtain rfl := Option.some.inj (hs.symm.trans hsp)
      exact ⟨s', setContext_self, hrole.trans hrolep⟩
    · exact ⟨sp, (setContext_of_ne heq).trans hsp, hrolep⟩
  payload p hp sp hsp := by
    by_cases heq : p = ptr
    · subst heq
      obtain rfl := Option.some.inj (setContext_self.symm.trans hsp)
      exact hpayload (h.payload p hp s hs)
    · exact h.payload p hp sp ((setContext_of_ne heq).symm.trans hsp)
  allocated p := by
    by_cases heq : p = ptr
    · subst heq
      refine iff_of_false (fun hnone => ?_) (fun hnone => ?_)
      · rw [(h.allocated p).mp hnone] at hs
        cases hs
      · exact absurd (setContext_self.symm.trans hnone) (Option.some_ne_none s')
    · rw [setContext_of_ne heq]
      exact h.allocated p
  known := by
    obtain ⟨all, hall, hmem⟩ := h.known
    refine ⟨all, hall, fun p hp => ?_⟩
    by_cases heq : p = ptr
    · subst heq
      apply hmem
      rw [hs]
      exact Option.some_ne_none s
    · exact hmem p (fun hnone => hp ((setContext_of_ne heq).trans hnone))
  file f p hf hnone := by
    by_cases heq : p = ptr
    · subst heq
      exact absurd (setContext_self.symm.trans hnone) (Option.some_ne_none s')
    · exact h.file f p hf ((setContext_of_ne heq).symm.trans hnone)
  own := h.own

theorem sameKind (h : Linked q l) (hs : q.contexts ptr = some s) (hkind : SameKind s s') :
    Linked (q.setContext ptr s') l :=
  h.setContext hs (by rw [hkind.role]) fun hpayload => hkind.myPayload ▸ hpayload

theorem insert (h : Linked q l) (hs : q.contexts ptr = some s)
    (hrole : closedFrom s.ctx.role = some list) (hout : ptr ∉ l list)
    (hpayload : list = .pubs → s.ctx.myPayload ≠ none) :
    ∃ links, insertHeadList q.links (.head list) (.context ptr) = some links ∧
      Linked { q with links := links } (update l list (ptr :: l list)) := by
  have hnode : Node.context ptr ∉ Node.head list :: (l list).map Node.context := by
    rw [List.mem_cons, List.mem_map]
    rintro (heq | ⟨p, hp, heq⟩)
    · cases heq
    · exact hout (Node.context.inj heq ▸ hp)
  have halloc : q.links (.context ptr) ≠ none := by
    rw [Ne, h.allocated, hs]
    exact Option.some_ne_none s
  obtain ⟨links, hinsert, hring, hsame, hothers⟩ := (h.ring list).insertHeadList hnode halloc
  refine ⟨links, hinsert, ?_⟩
  constructor
  · intro k
    by_cases hk : k = list
    · subst hk
      rw [update_self]
      exact hring
    · rw [update_of_ne hk]
      apply (h.ring k).congr
      intro node hmem
      apply hothers
      have hnot := h.other_ring hk hmem
      rw [List.mem_cons, not_or] at hnot
      rw [List.mem_cons, List.mem_cons, not_or, not_or]
      refine ⟨hnot.1, ?_, hnot.2⟩
      rintro rfl
      rw [List.mem_cons, List.mem_map] at hmem
      rcases hmem with heq | ⟨p, hp, heq⟩
      · cases heq
      · obtain rfl := Node.context.inj heq
        obtain ⟨sp, hsp, hrolep⟩ := h.live k p hp
        obtain rfl := Option.some.inj (hs.symm.trans hsp)
        exact hk (Option.some.inj (hrolep.symm.trans hrole))
  · intro k p hp
    by_cases hk : k = list
    · subst hk
      rw [update_self] at hp
      rcases List.mem_cons.mp hp with rfl | hp
      · exact ⟨s, hs, hrole⟩
      · exact h.live k p hp
    · rw [update_of_ne hk] at hp
      exact h.live k p hp
  · intro p hp sp hsp
    by_cases hk : list = .pubs
    · subst hk
      rw [update_self] at hp
      rcases List.mem_cons.mp hp with rfl | hp
      · obtain rfl := Option.some.inj (hs.symm.trans hsp)
        exact hpayload rfl
      · exact h.payload p hp sp hsp
    · rw [update_of_ne (Ne.symm hk)] at hp
      exact h.payload p hp sp hsp
  · intro p
    exact (hsame (.context p)).trans (h.allocated p)
  · exact h.known
  · exact h.file
  · exact h.own

theorem unlink (h : Linked q l) (list : ListHead) (ptr : ℕ) :
    ∃ links, q.unlink list ptr = some links ∧
      Linked { q with links := links } (update l list ((l list).erase ptr)) := by
  obtain ⟨hpath, hnodup⟩ := h.ring list
  obtain ⟨head, hhead, hfind⟩ := hpath.findEntry (List.nodup_cons.mp hnodup).1
    (Node.context ptr) (h.short list)
  rw [CMyQueue.unlink, hhead]
  simp only [Option.bind_eq_bind, Option.bind_some]
  rw [hfind]
  simp only [Option.bind_some]
  by_cases hmem : ptr ∈ l list
  · have hnode : Node.context ptr ∈ (l list).map Node.context := List.mem_map_of_mem hmem
    obtain ⟨links, hremove, hring, hsame, hothers⟩ := (h.ring list).removeEntryList hnode
    rw [if_pos (decide_eq_true hnode)]
    refine ⟨links, hremove, ?_⟩
    have hinjective : Function.Injective Node.context := fun a b hab => Node.context.inj hab
    rw [← List.map_erase hinjective] at hring
    have hsub : ∀ k, ∀ p ∈ update l list ((l list).erase ptr) k, p ∈ l k := by
      intro k p hp
      by_cases hk : k = list
      · subst hk
        rw [update_self] at hp
        exact List.mem_of_mem_erase hp
      · rwa [update_of_ne hk] at hp
    constructor
    · intro k
      by_cases hk : k = list
      · subst hk
        rw [update_self]
        exact hring
      · rw [update_of_ne hk]
        apply (h.ring k).congr
        intro node hnode'
        exact hothers node (h.other_ring hk hnode')
    · intro k p hp
      exact h.live k p (hsub k p hp)
    · intro p hp
      exact h.payload p (hsub .pubs p hp)
    · intro p
      exact (hsame (.context p)).trans (h.allocated p)
    · exact h.known
    · exact h.file
    · exact h.own
  · have hnode : Node.context ptr ∉ (l list).map Node.context := by
      rw [List.mem_map]
      rintro ⟨p, hp, heq⟩
      exact hmem (Node.context.inj heq ▸ hp)
    rw [if_neg (by rwa [decide_eq_true_eq]), List.erase_of_not_mem hmem, update_eq_self]
    exact ⟨q.links, rfl, h⟩

theorem new (h : Linked q l) (hfile : q.files file = none) (hptr : q.contexts ptr = none)
    (s : FileState) :
    Linked
      { links := initializeListHead q.links (.context ptr)
        contexts := update q.contexts ptr (some s)
        files := update q.files file (some ptr)
        created := q.created + 1 } l := by
  have hne : ∀ p s', q.contexts p = some s' → p ≠ ptr := by
    rintro p s' hp rfl
    rw [hptr] at hp
    cases hp
  have hold : ∀ p s', q.contexts p = some s' → update q.contexts ptr (some s) p = some s' := by
    intro p s' hp
    rw [update_of_ne (hne p s' hp), hp]
  constructor
  · intro list
    apply (h.ring list).congr
    intro node hnode
    apply update_of_ne
    rintro rfl
    rw [List.mem_cons, List.mem_map] at hnode
    rcases hnode with heq | ⟨p, hp, heq⟩
    · cases heq
    · obtain rfl := Node.context.inj heq
      obtain ⟨sp, hsp, -⟩ := h.live list p hp
      exact hne p sp hsp rfl
  · intro list p hp
    obtain ⟨sp, hsp, hrole⟩ := h.live list p hp
    exact ⟨sp, hold p sp hsp, hrole⟩
  · intro p hp sp hsp
    obtain ⟨sp', hsp', -⟩ := h.live .pubs p hp
    obtain rfl := Option.some.inj ((hold p sp' hsp').symm.trans hsp)
    exact h.payload p hp sp' hsp'
  · intro p
    by_cases hp : p = ptr
    · subst hp
      refine iff_of_false (fun hnone => ?_) (fun hnone => ?_)
      · exact absurd ((update_self ..).symm.trans hnone)
          (Option.some_ne_none (⟨_, _⟩ : ListEntry Node))
      · exact absurd ((update_self ..).symm.trans hnone) (Option.some_ne_none s)
    · have hnode : Node.context p ≠ Node.context ptr := fun heq => hp (Node.context.inj heq)
      change initializeListHead q.links (.context ptr) (.context p) = none ↔
        update q.contexts ptr (some s) p = none
      rw [initializeListHead, update_of_ne hnode, update_of_ne hp]
      exact h.allocated p
  · obtain ⟨all, hall, hmem⟩ := h.known
    refine ⟨ptr :: all, Nat.succ_le_succ hall, ?_⟩
    intro p hp
    by_cases heq : p = ptr
    · exact heq ▸ List.mem_cons_self
    · apply List.mem_cons_of_mem
      apply hmem
      change update q.contexts ptr (some s) p ≠ none at hp
      rwa [update_of_ne heq] at hp
  · intro f p hf
    change update q.contexts ptr (some s) p ≠ none
    by_cases heq : p = ptr
    · subst heq
      rw [update_self]
      exact Option.some_ne_none s
    · rw [update_of_ne heq]
      change update q.files file (some ptr) f = some p at hf
      by_cases hff : f = file
      · subst hff
        rw [update_self] at hf
        exact absurd (Option.some.inj hf).symm heq
      · rw [update_of_ne hff] at hf
        exact h.file f p hf
  · intro f g p hf hg
    change update q.files file (some ptr) f = some p at hf
    change update q.files file (some ptr) g = some p at hg
    have hkept : ∀ f', f' ≠ file → update q.files file (some ptr) f' = some p →
        q.files f' = some p ∧ p ≠ ptr := by
      intro f' hne' hf'
      rw [update_of_ne hne'] at hf'
      refine ⟨hf', ?_⟩
      rintro rfl
      exact h.file f' p hf' hptr
    by_cases hff : f = file
    · by_cases hgf : g = file
      · rw [hff, hgf]
      · subst hff
        rw [update_self] at hf
        exact absurd (Option.some.inj hf).symm (hkept g hgf hg).2
    · by_cases hgf : g = file
      · subst hgf
        rw [update_self] at hg
        exact absurd (Option.some.inj hg).symm (hkept f hff hf).2
      · exact h.own f g p (hkept f hff hf).1 (hkept g hgf hg).1

theorem free (h : Linked q l) (hfile : q.files file = some ptr) (hout : ∀ list, ptr ∉ l list) :
    Linked
      { q with
        links := update q.links (.context ptr) none
        contexts := update q.contexts ptr none
        files := update q.files file none } l := by
  have hne : ∀ list, ∀ p ∈ l list, p ≠ ptr := by
    rintro list p hp rfl
    exact hout list hp
  constructor
  · intro list
    apply (h.ring list).congr
    intro node hnode
    apply update_of_ne
    rintro rfl
    rw [List.mem_cons, List.mem_map] at hnode
    rcases hnode with heq | ⟨p, hp, heq⟩
    · cases heq
    · exact hne list p hp (Node.context.inj heq)
  · intro list p hp
    obtain ⟨sp, hsp, hrole⟩ := h.live list p hp
    exact ⟨sp, (update_of_ne (hne list p hp) ..).trans hsp, hrole⟩
  · intro p hp sp hsp
    change update q.contexts ptr none p = some sp at hsp
    rw [update_of_ne (hne .pubs p hp)] at hsp
    exact h.payload p hp sp hsp
  · intro p
    change update q.links (.context ptr) none (.context p) = none ↔
      update q.contexts ptr none p = none
    by_cases hp : p = ptr
    · rw [hp, update_self, update_self]
      exact iff_of_true rfl rfl
    · have hnode : Node.context p ≠ Node.context ptr := fun heq => hp (Node.context.inj heq)
      rw [update_of_ne hnode, update_of_ne hp]
      exact h.allocated p
  · obtain ⟨all, hall, hmem⟩ := h.known
    refine ⟨all, hall, ?_⟩
    intro p hp
    apply hmem
    intro hnone
    apply hp
    change update q.contexts ptr none p = none
    by_cases heq : p = ptr
    · rw [heq, update_self]
    · rw [update_of_ne heq, hnone]
  · intro f p hf
    change update q.files file none f = some p at hf
    change update q.contexts ptr none p ≠ none
    by_cases hff : f = file
    · rw [hff, update_self] at hf
      cases hf
    · rw [update_of_ne hff] at hf
      have hp : p ≠ ptr := by
        rintro rfl
        exact hff (h.own f file p hf hfile)
      rw [update_of_ne hp]
      exact h.file f p hf
  · intro f g p hf hg
    change update q.files file none f = some p at hf
    change update q.files file none g = some p at hg
    have hkept : ∀ f', update q.files file none f' = some p → q.files f' = some p := by
      intro f' hf'
      by_cases hff : f' = file
      · rw [hff, update_self] at hf'
        cases hf'
      · rwa [update_of_ne hff] at hf'
    exact h.own f g p (hkept f hf) (hkept g hg)

end Linked

/-! ## The types -/

/-- Publications and subscriptions have a type. -/
def Typed (q : CMyQueue) : Prop :=
  ∀ ptr s, q.contexts ptr = some s → s.ctx.role = .publication ∨ s.ctx.role = .subscription →
    s.ctx.pszType ≠ none

/-- No context has appeared, and none has got another type or has become one of
messages. -/
def KeepsTypes (q q' : CMyQueue) : Prop :=
  ∀ ptr s', q'.contexts ptr = some s' → ∃ s, q.contexts ptr = some s ∧
    s'.ctx.pszType = s.ctx.pszType ∧ (s'.ctx.role = s.ctx.role ∨ s'.ctx.role = .proximity)

theorem KeepsTypes.refl (q : CMyQueue) : KeepsTypes q q := fun _ s' hs' => ⟨s', hs', rfl, .inl rfl⟩

theorem keepsTypes_setContext (hs : q.contexts ptr = some s)
    (htype : s'.ctx.pszType = s.ctx.pszType)
    (hrole : s'.ctx.role = s.ctx.role ∨ s'.ctx.role = .proximity) :
    KeepsTypes q (q.setContext ptr s') := by
  intro p sp hsp
  by_cases hp : p = ptr
  · subst hp
    obtain rfl := Option.some.inj (setContext_self.symm.trans hsp)
    exact ⟨s, hs, htype, hrole⟩
  · rw [setContext_of_ne hp] at hsp
    exact ⟨sp, hsp, rfl, .inl rfl⟩

theorem newFileContext_typed {env : CreateEnv} {fileName : Option (List WCHAR)}
    {ctx : CFileContext} (h : newFileContext T env fileName = .ok ctx) (hnew : env.newType = true)
    (hrole : ctx.role = .publication ∨ ctx.role = .subscription) : ctx.pszType ≠ none := by
  cases fileName with
  | some fileName =>
      rw [(onCreateFile_accepted h hrole).1, if_pos hnew]
      exact Option.some_ne_none _
  | none =>
      dsimp only [newFileContext] at h
      split at h
      · cases h
      · split at h
        · cases h
        · split at h
          · rw [← Except.ok.inj h] at hrole
            rcases hrole with hrole | hrole
            · cases hrole
            · cases hrole
          · cases h

/-! ## The calls -/

variable {call : Call} {role : Role} {code : ControlCode}

theorem closedFrom_of_createdInto (h : createdInto role = some list) :
    closedFrom role = some list ∧ list ≠ .pubs := by
  cases role with
  | subscription | arrivedSubscription | departedSubscription => exact ⟨h, by rintro rfl; cases h⟩
  | undefined => cases h
  | publication => cases h
  | proximity => cases h

theorem closedFrom_subs : closedFrom role = some .subs ↔ role = .subscription := by
  cases role <;> decide

theorem closedFrom_pubs : closedFrom role = some .pubs ↔ role = .publication := by
  cases role <;> decide

theorem onCreateFile_linked (h : Linked q l) (env : CreateEnv) (fileName : Option (List WCHAR))
    (hfile : q.files file = none) (hptr : q.contexts ptr = none) :
    ∃ q', q.onCreateFile T env fileName file ptr = some q' ∧ (∃ l', Linked q' l') ∧
      ∀ p s, q'.contexts p = some s →
        q.contexts p = some s ∨ newFileContext T env fileName = .ok s.ctx := by
  unfold CMyQueue.onCreateFile
  split
  · exact ⟨q, rfl, ⟨l, h⟩, fun p s hs => .inl hs⟩
  · rename_i ctx hctx
    have hnew := h.new hfile hptr ⟨ctx, { cancelled := [], due := [], completions := [] }⟩
    have hcontexts : ∀ p s, update q.contexts ptr
        (some ⟨ctx, { cancelled := [], due := [], completions := [] }⟩) p = some s →
          q.contexts p = some s ∨ newFileContext T env fileName = .ok s.ctx := by
      intro p s hs
      by_cases hp : p = ptr
      · rw [hp, update_self] at hs
        obtain rfl := Option.some.inj hs
        exact .inr hctx
      · rw [update_of_ne hp] at hs
        exact .inl hs
    dsimp only
    split
    · exact ⟨_, rfl, ⟨l, hnew⟩, hcontexts⟩
    · rename_i list hlist
      obtain ⟨hrole, hpubs⟩ := closedFrom_of_createdInto hlist
      have hout : ptr ∉ l list := by
        intro hmem
        obtain ⟨s, hs, -⟩ := h.live list ptr hmem
        rw [hptr] at hs
        cases hs
      obtain ⟨links, hinsert, hlinked⟩ := hnew.insert (update_self ..) hrole hout
        (fun heq => absurd heq hpubs)
      exact ⟨_, congrArg (Option.map _) hinsert, ⟨_, hlinked⟩, hcontexts⟩

theorem publish_linked (h : Linked q l) (hs : q.contexts ptr = some s)
    (hrole : s.ctx.role = .publication) (hpayload : s.ctx.myPayload = none)
    (hrole' : s'.ctx.role = s.ctx.role) (hpayload' : s'.ctx.myPayload ≠ none)
    (htype : s'.ctx.pszType = s.ctx.pszType) {transmitted : ℕ}
    (hpublish : q.publish ptr transmitted s' = some q') :
    (∃ l', Linked q' l') ∧ KeepsTypes q q' := by
  have hkind := transmitted_sameKind transmitted s'
  have hclosed : closedFrom (handleMessageTransmitted^[transmitted] s').ctx.role = some .pubs := by
    rw [hkind.role, hrole', hrole]
    rfl
  have hfull : (handleMessageTransmitted^[transmitted] s').ctx.myPayload ≠ none := by
    rwa [hkind.myPayload]
  have hset : Linked (q.setContext ptr (handleMessageTransmitted^[transmitted] s')) l := by
    apply h.setContext hs
    · rw [hclosed, hrole]
      rfl
    · intro _
      exact hfull
  have hout : ptr ∉ l .pubs := fun hmem => h.payload ptr hmem s hs hpayload
  obtain ⟨links, hinsert, hlinked⟩ := hset.insert setContext_self hclosed hout fun _ => hfull
  unfold CMyQueue.publish at hpublish
  split at hpublish
  · cases hpublish
  · have hlinks : q.links =
        (q.setContext ptr (handleMessageTransmitted^[transmitted] s')).links := rfl
    rw [hlinks, hinsert, Option.map_some] at hpublish
    obtain rfl := Option.some.inj hpublish
    refine ⟨⟨_, hlinked⟩, ?_⟩
    exact keepsTypes_setContext hs (hkind.pszType.trans htype) (.inl (hkind.role.trans hrole'))

theorem sameKind_linked (h : Linked q l) (hs : q.contexts ptr = some s) (hkind : SameKind s s') :
    (∃ l', Linked (q.setContext ptr s') l') ∧ KeepsTypes q (q.setContext ptr s') :=
  ⟨⟨l, h.sameKind hs hkind⟩, keepsTypes_setContext hs hkind.pszType (.inl hkind.role)⟩

/-- A request leaves the lists as they are, or links a publication that has got its
payload. -/
theorem ioControl_linked (h : Linked q l) (hs : q.contexts ptr = some s)
    (hcall : q.ioControl ptr s code = some q') : (∃ l', Linked q' l') ∧ KeepsTypes q q' := by
  cases code with
  | getMaxMessageBytes | getKiloBytesPerSecond | unknown =>
      obtain rfl := Option.some.inj hcall
      exact ⟨⟨l, h⟩, .refl q⟩
  | disable =>
      obtain rfl := Option.some.inj hcall
      exact sameKind_linked h hs (disable_sameKind s)
  | enable =>
      obtain rfl := Option.some.inj hcall
      exact sameKind_linked h hs (enable_sameKind s)
  | setPayload newPayload newMessage transmitted request =>
      obtain ⟨⟨s', hr⟩, hset, hrest⟩ := Option.bind_eq_some_iff.mp hcall
      dsimp only at hrest
      rcases setPayload_kind hset with
        ⟨rfl, hfailed⟩ | ⟨hrole, hnone, hpayload, hrole', htype, -⟩
      · rw [hfailed, if_neg (by rintro ⟨hsucceeded, -⟩; cases hsucceeded)] at hrest
        obtain rfl := Option.some.inj hrest
        exact sameKind_linked h hs (.refl _)
      · split at hrest
        · exact publish_linked h hs hrole hnone hrole' hpayload htype hrest
        · obtain rfl := Option.some.inj hrest
          refine ⟨⟨l, h.setContext hs (by rw [hrole']) fun _ => hpayload⟩, ?_⟩
          exact keepsTypes_setContext hs htype (.inl hrole')
  | beginProximity =>
      obtain rfl := Option.some.inj hcall
      unfold beginProximity
      split
      · exact sameKind_linked h hs (.refl _)
      · rename_i hundefined
        rw [not_not] at hundefined
        refine ⟨⟨l, h.setContext hs ?_ fun hpayload => hpayload⟩, ?_⟩
        · rw [hundefined]
          rfl
        · exact keepsTypes_setContext hs rfl (.inr rfl)
  | getNextSubscribedMessage timing request =>
      obtain ⟨⟨s', hr⟩, hget, hrest⟩ := Option.bind_eq_some_iff.mp hcall
      obtain rfl := Option.some.inj hrest
      exact sameKind_linked h hs (getNextSubscribedMessage_sameKind hget)
  | getNextTransmittedMessage timing request =>
      obtain ⟨⟨s', hr⟩, hget, hrest⟩ := Option.bind_eq_some_iff.mp hcall
      obtain rfl := Option.some.inj hrest
      exact sameKind_linked h hs (getNextTransmittedMessage_sameKind hget)

theorem onDeviceIoControl_linked (h : Linked q l)
    (hcall : q.onDeviceIoControl file code = some q') : (∃ l', Linked q' l') ∧ KeepsTypes q q' := by
  unfold CMyQueue.onDeviceIoControl at hcall
  split at hcall
  · obtain rfl := Option.some.inj hcall
    exact ⟨⟨l, h⟩, .refl q⟩
  · obtain ⟨s, hs, hcall⟩ := Option.bind_eq_some_iff.mp hcall
    exact ioControl_linked h hs hcall

theorem onCloseFile_linked (h : Linked q l) (hfile : q.files file = some ptr) :
    ∃ q', q.onCloseFile file = some q' ∧ q'.contexts ptr = none ∧ (∃ l', Linked q' l') ∧
      KeepsTypes q q' := by
  obtain ⟨s, hs⟩ := Option.ne_none_iff_exists'.mp (h.file file ptr hfile)
  have hkeeps : ∀ links, KeepsTypes q
      { q with
        links := update links (.context ptr) none
        contexts := update q.contexts ptr none
        files := update q.files file none } := by
    intro links p sp hsp
    change update q.contexts ptr none p = some sp at hsp
    by_cases hp : p = ptr
    · rw [hp, update_self] at hsp
      cases hsp
    · rw [update_of_ne hp] at hsp
      exact ⟨sp, hsp, rfl, .inl rfl⟩
  unfold CMyQueue.onCloseFile
  rw [hfile]
  simp only [hs, Option.bind_some]
  cases hrole : closedFrom s.ctx.role with
  | none =>
      have hout : ∀ list, ptr ∉ l list := by
        intro list hmem
        obtain ⟨s', hs', hrole'⟩ := h.live list ptr hmem
        obtain rfl := Option.some.inj (hs.symm.trans hs')
        rw [hrole] at hrole'
        cases hrole'
      exact ⟨_, rfl, update_self .., ⟨l, h.free hfile hout⟩, hkeeps _⟩
  | some list =>
      obtain ⟨links, hunlink, hlinked⟩ := h.unlink list ptr
      have hout : ∀ other, ptr ∉ update l list ((l list).erase ptr) other := by
        intro other hmem
        by_cases hother : other = list
        · rw [hother, update_self] at hmem
          exact (h.once list).not_mem_erase hmem
        · rw [update_of_ne hother] at hmem
          obtain ⟨s', hs', hrole'⟩ := h.live other ptr hmem
          obtain rfl := Option.some.inj (hs.symm.trans hs')
          exact hother (Option.some.inj (hrole'.symm.trans hrole))
      exact ⟨_, congrArg (Option.map _) hunlink, update_self ..,
        ⟨_, hlinked.free hfile hout⟩, hkeeps links⟩

/-! ## Runs -/

/-- A call keeps the types, or it creates the context. -/
def Descends (T : UpcaseTable) (q : CMyQueue) (call : Call) (q' : CMyQueue) : Prop :=
  KeepsTypes q q' ∨ ∃ env fileName file ptr, call = .createFile env fileName file ptr ∧
    ∀ p s, q'.contexts p = some s →
      q.contexts p = some s ∨ newFileContext T env fileName = .ok s.ctx

theorem Descends.typed (h : Descends T q call q') (htyped : Typed q)
    (hallocated : TypeAllocated call) : Typed q' := by
  rcases h with hkeeps | ⟨env, fileName, file, ptr, rfl, hcontexts⟩
  · intro ptr s' hs' hrole
    obtain ⟨s, hs, htype, hsame | hproximity⟩ := hkeeps ptr s' hs'
    · rw [htype]
      exact htyped ptr s hs (hsame ▸ hrole)
    · rw [hproximity] at hrole
      rcases hrole with hrole | hrole
      · cases hrole
      · cases hrole
  · intro p s hs hrole
    rcases hcontexts p s hs with hold | hnew
    · exact htyped p s hold hrole
    · exact newFileContext_typed hnew hallocated hrole

theorem step_linked (h : Linked q l) (hcallable : Callable q call)
    (hstep : step T q call = some q') : (∃ l', Linked q' l') ∧ Descends T q call q' := by
  cases call with
  | createFile env fileName file ptr =>
      obtain ⟨q'', hcreate, hlinked, hcontexts⟩ :=
        onCreateFile_linked (T := T) h env fileName hcallable.1 hcallable.2
      obtain rfl := Option.some.inj (hcreate.symm.trans hstep)
      exact ⟨hlinked, .inr ⟨env, fileName, file, ptr, rfl, hcontexts⟩⟩
  | deviceIoControl file code =>
      obtain ⟨hlinked, hkeeps⟩ := onDeviceIoControl_linked h hstep
      exact ⟨hlinked, .inl hkeeps⟩
  | closeFile file =>
      cases hfile : q.files file with
      | none =>
          change q.onCloseFile file = some q' at hstep
          rw [CMyQueue.onCloseFile, hfile] at hstep
          obtain rfl := Option.some.inj hstep
          exact ⟨⟨l, h⟩, .inl (.refl q)⟩
      | some ptr =>
          obtain ⟨q'', hclose, -, hlinked, hkeeps⟩ := onCloseFile_linked h hfile
          obtain rfl := Option.some.inj (hclose.symm.trans hstep)
          exact ⟨hlinked, .inl hkeeps⟩

theorem run_linked {calls : List Call} (hrun : RunsTo (step T) Callable .create calls q) :
    (∃ l, Linked q l) ∧ ((∀ call ∈ calls, TypeAllocated call) → Typed q) := by
  refine hrun.history
    (fun calls q => (∃ l, Linked q l) ∧ ((∀ call ∈ calls, TypeAllocated call) → Typed q)) ?_ ?_
  · refine ⟨⟨_, linked_create⟩, ?_⟩
    intro _ ptr s hs
    cases hs
  · intro calls q call q' hinv hcallable hstep
    obtain ⟨⟨l, hl⟩, htyped⟩ := hinv
    obtain ⟨hlinked, hdescends⟩ := step_linked hl hcallable hstep
    refine ⟨hlinked, fun hall => ?_⟩
    apply hdescends.typed
    · exact htyped fun c hc => hall c (List.mem_append_left _ hc)
    · exact hall call (List.mem_append_right _ List.mem_cons_self)

theorem Linked.lists (h : Linked q l) : Lists q l where
  walked list := (h.ring list).entries (h.short list)
  once := h.once
  one list other ptr := h.same_list
  live := h.live
  payload := h.payload
  pointers := by
    have hmem : ∀ list (node : Node), node ∈ Node.head list :: (l list).map Node.context ↔
        node = .head list ∨ ∃ ptr ∈ l list, node = .context ptr := by
      intro list node
      rw [List.mem_cons, List.mem_map]
      simp only [eq_comm]
    intro list node hnode
    obtain ⟨entry, hentry, hflink, hblink⟩ :=
      (h.ring list).pointers_mem ((hmem list node).mpr hnode)
    refine ⟨entry, hentry, ?_⟩
    rintro next (rfl | rfl)
    · exact (hmem list _).mp hflink
    · exact (hmem list _).mp hblink

/-- After any calls on any files the four lists hold live contexts only, each at most once
and only in the list of its role, with its type and its payload; a file can always be
closed, and then no list refers to its context. -/
theorem list_membership {calls : List Call} (hrun : RunsTo (step T) Callable .create calls q) :
    (∃ l, Lists q l ∧ ((∀ call ∈ calls, TypeAllocated call) →
      ∀ ptr, ptr ∈ l .subs ∨ ptr ∈ l .pubs → ∀ s, q.contexts ptr = some s →
        s.ctx.pszType ≠ none)) ∧
      ∀ file ptr, q.files file = some ptr → ∃ q', q.onCloseFile file = some q' ∧
        q'.contexts ptr = none ∧ ∃ l', Lists q' l' ∧ ∀ list, ptr ∉ l' list := by
  obtain ⟨⟨l, hl⟩, htyped⟩ := run_linked hrun
  refine ⟨⟨l, hl.lists, ?_⟩, ?_⟩
  · intro hall ptr hptr s hs
    apply htyped hall ptr s hs
    rcases hptr with hptr | hptr
    · obtain ⟨s', hs', hrole⟩ := hl.live .subs ptr hptr
      obtain rfl := Option.some.inj (hs.symm.trans hs')
      exact .inr (closedFrom_subs.mp hrole)
    · obtain ⟨s', hs', hrole⟩ := hl.live .pubs ptr hptr
      obtain rfl := Option.some.inj (hs.symm.trans hs')
      exact .inl (closedFrom_pubs.mp hrole)
  · intro file ptr hfile
    obtain ⟨q', hclose, hfreed, ⟨l', hl'⟩, -⟩ := onCloseFile_linked hl hfile
    refine ⟨q', hclose, hfreed, l', hl'.lists, ?_⟩
    intro list hmem
    obtain ⟨s, hs, -⟩ := hl'.live list ptr hmem
    rw [hfreed] at hs
    cases hs

/-- A subscription and a publication with a payload; the subscription is closed. -/
theorem list_membership_publishes :
    ∃ q, RunsTo (step .ascii) Callable .create
        [.createFile .ready (some (subsNamespace ++ windowsUriProtocol)) 0 7,
         .createFile .ready (some (pubsNamespace ++ windowsUriProtocol)) 1 9,
         .deviceIoControl 1 (.setPayload true true 2
           ⟨0, some ⟨[65], eInvalidArg, by decide⟩, some ⟨[], eInvalidArg, by decide⟩⟩),
         .closeFile 0] q ∧
      CircularList.entries q.links (.head .pubs) 3 = some [.context 9] ∧
      CircularList.entries q.links (.head .subs) 3 = some [] ∧
      ∃ l, Lists q l := by
  have hrun : RunsTo (step .ascii) Callable .create
      [.createFile .ready (some (subsNamespace ++ windowsUriProtocol)) 0 7,
       .createFile .ready (some (pubsNamespace ++ windowsUriProtocol)) 1 9,
       .deviceIoControl 1 (.setPayload true true 2
         ⟨0, some ⟨[65], eInvalidArg, by decide⟩, some ⟨[], eInvalidArg, by decide⟩⟩),
       .closeFile 0] _ := RunsTo.of_isSome (by rfl)
  obtain ⟨l, hl, -⟩ := (list_membership hrun).1
  exact ⟨_, hrun, rfl, rfl, l, hl⟩

end MiscProjects.Nfp.Membership
