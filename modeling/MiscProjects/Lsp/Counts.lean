import Mathlib.Data.Set.Card
import MiscProjects.Lsp.Lifetime
import MiscProjects.Lsp.Operations

/-!
# What is counted on a context

A structure is charged to the context it was taken for until
`CheckForContextCleanup` takes it off the count.  A step carries the contexts
over with their counts, takes a structure or takes one off; a context that
something is charged to, or that a thread has still to unlock, can be found
through the handle of its socket.
-/

namespace MiscProjects.Lsp

variable {iocp : Bool} {T : Thread} {t u v : LspState} {a b : Addr}
  {s : Socket} {action : Action}

/-! ## Charged structures -/

/-- The structure is in use, and no thread has taken it off the count. -/
def Custody.Charged (c : Custody) (op : OpId) (o : Overlapped) : Prop :=
  c.ops op = some o ∧ ∀ T, c.work T ≠ some (op, .accounted)

/-- The structures that are charged to a context. -/
def charged (t : LspState) (a : Addr) (serial : ℕ) : Set OpId :=
  {op | ∃ o, t.custody.Charged op o ∧ o.sockInfo = a ∧ o.serial = serial}

variable {op : OpId} {stage : Stage} {si : SockInfo} {c : Custody} {pc : Pc}

theorem charged_setWork {work : Option (OpId × Stage)}
    (hbefore : ∀ op, c.work T ≠ some (op, .accounted)) (hafter : ∀ op, work ≠ some (op, .accounted))
    (op : OpId) (o : Overlapped) : (c.setWork T work).Charged op o ↔ c.Charged op o := by
  have hthread : ∀ T', (c.setWork T work).work T' ≠ some (op, .accounted) ↔
      c.work T' ≠ some (op, .accounted) := by
    intro T'
    by_cases hT : T' = T
    · simp [Custody.setWork, hT, hbefore op, hafter op]
    · simp only [Custody.setWork, Function.update_of_ne hT]
  exact and_congr Iff.rfl (forall_congr' hthread)

theorem charged_putback (hwork : c.work T = some (op, stage)) (op' : OpId) (o : Overlapped) :
    ({ c with ops := Function.update c.ops op none }.setWork T none).Charged
      op' o ↔ c.Charged op' o ∧ op' ≠ op := by
  by_cases hop : op' = op
  · subst hop
    simp [Custody.Charged, Custody.setWork]
  · have hthread : ∀ T', Function.update c.work T none T' ≠
        some (op', .accounted) ↔ c.work T' ≠ some (op', .accounted) := by
      intro T'
      by_cases hT : T' = T
      · have hne : op ≠ op' := fun h => hop h.symm
        simp [hT, hwork, hne]
      · rw [Function.update_of_ne hT]
    simp only [Custody.Charged, Custody.setWork, Function.update_of_ne hop, ne_eq,
      hop, not_false_eq_true, and_true]
    exact and_congr Iff.rfl (forall_congr' hthread)

theorem charged_account (hwork : c.work T = some (op, stage)) (op' : OpId) (o : Overlapped) :
    (c.setWork T (some (op, .accounted))).Charged op' o ↔ c.Charged op' o ∧ op' ≠ op := by
  by_cases hop : op' = op
  · subst hop
    refine ⟨fun h => absurd ?_ (h.2 T), fun h => absurd rfl h.2⟩
    simp [Custody.setWork]
  · have hthread : ∀ T', Function.update c.work T (some (op, .accounted)) T' ≠
        some (op', .accounted) ↔ c.work T' ≠ some (op', .accounted) := by
      intro T'
      by_cases hT : T' = T
      · have hne : op ≠ op' := fun h => hop h.symm
        simp [hT, hwork, hne]
      · rw [Function.update_of_ne hT]
    simp only [Custody.Charged, Custody.setWork, ne_eq, hop, not_false_eq_true, and_true]
    exact and_congr Iff.rfl (forall_congr' hthread)

theorem charged_take {o : Overlapped} (hfree : c.work T = none)
    (hnew : ∀ T', c.work T' ≠ some (c.nextOp, .accounted)) (op' : OpId)
    (o' : Overlapped) (hknown : c.ops c.nextOp = none) : ({ c with
        ops := Function.update c.ops c.nextOp (some o), nextOp := c.nextOp + 1 }.setWork T
          (some (c.nextOp, .starting))).Charged op' o' ↔
      c.Charged op' o' ∨ (op' = c.nextOp ∧ o' = o) := by
  rw [charged_setWork (by simp [hfree]) (by simp)]
  by_cases hop : op' = c.nextOp
  · subst hop
    simp only [Custody.Charged, Function.update_self, hknown,
      Option.some.injEq, reduceCtorEq, false_and, true_and, false_or]
    exact ⟨fun h => h.1.symm, fun h => ⟨h.symm, hnew⟩⟩
  · simp [Custody.Charged, hop]

/-! ## Contexts that are carried over -/

/-- Every context that is left has been there, with the same count. -/
def Carries (t u : LspState) : Prop :=
  ∀ a si', u.heap a = some si' → ∃ si, t.heap a = some si ∧
    si'.serial = si.serial ∧ si'.dwOutstandingAsync = si.dwOutstandingAsync

theorem Carries.of_heap_eq (h : u.heap = t.heap) : Carries t u :=
  fun _ si' hget => ⟨si', h ▸ hget, rfl, rfl⟩

theorem Carries.trans (htu : Carries t u) (huv : Carries u v) : Carries t v := by
  intro a si' hget
  obtain ⟨si, hsi, hserial, hcount⟩ := huv a si' hget
  obtain ⟨si₀, hsi₀, hserial₀, hcount₀⟩ := htu a si hsi
  exact ⟨si₀, hsi₀, hserial.trans hserial₀, hcount.trans hcount₀⟩

theorem Carries.setInfo {si' : SockInfo} (hget : t.heap a = some si)
    (hserial : si'.serial = si.serial) (hcount : si'.dwOutstandingAsync = si.dwOutstandingAsync) :
    Carries t (t.setInfo a (some si')) := by
  intro b other hother
  by_cases hb : b = a
  · subst hb
    rw [LspState.setInfo_heap_self, Option.some.injEq] at hother
    exact ⟨si, hget, hother ▸ hserial, hother ▸ hcount⟩
  · rw [LspState.setInfo_heap_of_ne hb] at hother
    exact ⟨other, hother, rfl, rfl⟩

theorem Carries.free (t : LspState) (a : Addr) : Carries t (t.setInfo a none) := by
  intro b other hother
  by_cases hb : b = a
  · subst hb
    rw [LspState.setInfo_heap_self] at hother
    cases hother
  · rw [LspState.setInfo_heap_of_ne hb] at hother
    exact ⟨other, hother, rfl, rfl⟩

theorem wpuCloseSocketHandle_heap (s : Option Socket) (t : LspState) :
    (wpuCloseSocketHandle s t).heap = t.heap := by
  cases s <;> rfl

theorem wpuCloseSocketHandle_nextSerial (s : Option Socket) (t : LspState) :
    (wpuCloseSocketHandle s t).nextSerial = t.nextSerial := by
  cases s <;> rfl

theorem Carries.addRef (hget : t.heap a = some si) :
    Carries t (t.addRef T a si) :=
  have hset : Carries t (t.setInfo a
      (some { si with refCount := si.refCount + 1 })) :=
    Carries.setInfo hget rfl rfl
  hset.trans (.of_heap_eq rfl)

theorem Unlocked.carries (h : Unlocked T a t u) : Carries t u := by
  cases h with
  | kept hget =>
      exact Carries.setInfo (t := release T a t) hget rfl rfl
  | freed hget hlast hclosing =>
      exact (Carries.free (release T a t) a).trans (.of_heap_eq (wpuCloseSocketHandle_heap ..))

theorem Unlocked.nextSerial_eq (h : Unlocked T a t u) : u.nextSerial = t.nextSerial := by
  cases h with
  | kept hget => rfl
  | freed hget hlast hclosing => exact wpuCloseSocketHandle_nextSerial ..

/-! ## Contexts that can be found -/

/-- The handle of a socket leads to the context. -/
def Listed (t : LspState) (a : Addr) : Prop := ∃ s, t.handles s = some a

/-- A thread has still to unlock only contexts that can be found, unless it is
about to free the last of them. -/
def PcFinds (t : LspState) : Pc → Prop
  | .freeing _ => True
  | .take s a _ _ others => t.handles s = some a ∧ ∀ b ∈ others, Listed t b
  | .acceptEx s a _ _ => t.handles s = some a
  | pc => ∀ b ∈ pc.held, Listed t b

theorem PcFinds.listed (h : PcFinds t pc) (hpc : ∀ a, pc ≠ .freeing a)
    (hmem : a ∈ pc.held) : Listed t a := by
  cases pc with
  | freeing b => exact absurd rfl (hpc b)
  | take s b operation completionRoutine others =>
      rcases List.mem_cons.mp hmem with rfl | hmem
      · exact ⟨s, h.1⟩
      · exact h.2 a hmem
  | acceptEx s b sAcceptSocket hasOverlapped =>
      exact ⟨s, List.mem_singleton.mp hmem ▸ h⟩
  | returning | setSockOpt | closing | start | routine | account | unlock
  | report | cleanup | cleanupSection | cleanupUnlock => exact h a hmem

theorem PcFinds.mono (h : PcFinds t pc) (hkept : (∀ a, pc ≠ .freeing a) → ∀ s, ∀ a ∈ pc.held,
      t.handles s = some a → u.handles s = some a) : PcFinds u pc := by
  cases pc with
  | freeing b => trivial
  | take s b operation completionRoutine others =>
      refine ⟨hkept (by simp) s b List.mem_cons_self h.1, fun c hc => ?_⟩
      obtain ⟨s', hs'⟩ := h.2 c hc
      exact ⟨s', hkept (by simp) s' c (List.mem_cons_of_mem _ hc) hs'⟩
  | acceptEx s b sAcceptSocket hasOverlapped =>
      exact hkept (by simp) s b (List.mem_singleton_self b) h
  | returning | setSockOpt | closing | start | routine | account | unlock
  | report | cleanup | cleanupSection | cleanupUnlock =>
      intro c hc
      obtain ⟨s', hs'⟩ := h c hc
      exact ⟨s', hkept (by simp) s' c hc hs'⟩

theorem finds_setPc (h : ∀ T', PcFinds t (t.threads T')) (hthreads : v.threads = t.threads)
    (hpc : PcFinds t pc) (T' : Thread) : PcFinds t ((v.setPc T pc).threads T') := by
  by_cases hT : T' = T
  · rw [hT, LspState.setPc_threads_self]
    exact hpc
  · rw [LspState.setPc_threads_of_ne hT, hthreads]
    exact h T'

theorem Unlocked.threads_eq (h : Unlocked T a t u) : u.threads = t.threads := by
  cases h with
  | kept hget => rfl
  | @freed si hget hlast hclosing => cases si.layeredSocket <;> rfl

theorem StepTo.finds (hstep : StepTo iocp t action u)
    (h : ∀ T, PcFinds t (t.threads T)) (T : Thread) : PcFinds t (u.threads T) := by
  have hlisted : ∀ {T pc}, t.threads T = pc → (∀ a, pc ≠ .freeing a) → ∀ b ∈ pc.held, Listed t b :=
    fun hpc hne _ hmem => (hpc ▸ h _ : PcFinds t _).listed hne hmem
  cases hstep with
  | socket hs ha => exact h T
  | callMissing hpc hs => exact h T
  | @call T' entry a si hpc hs hget =>
      refine finds_setPc h rfl ?_ T
      cases entry with
      | plain | setSockOpt | closeSocket =>
          exact fun b hb => List.mem_singleton.mp hb ▸ ⟨_, hs⟩
      | acceptEx s sAcceptSocket hasOverlapped => exact hs
      | overlapped s operation completionRoutine => exact ⟨hs, by simp⟩
  | closeLeft bClosing providerOpen hpc hget hunlock =>
      refine finds_setPc h hunlock.threads_eq ?_ T
      simp [Pc.idle, PcFinds, Pc.held]
  | close hpc hget hnone hone =>
      refine finds_setPc h ?_ ?_ T
      · rfl
      · trivial
  | take hpc hget | takeNone hpc hget | startQueue hpc hop hport | routineMissing hpc hop hs
  | report hpc hop | cleanupMissing hpc hop hs | cleanupCounts lockedBy hpc hop hget =>
      refine finds_setPc h ?_ ?_ T
      · rfl
      · exact fun b hb => hlisted hpc (by simp) b hb
  | start hpc hop hget hport =>
      refine finds_setPc h ?_ ?_ T
      · rfl
      · rw [afterExecute]
        split <;> exact fun b hb => hlisted hpc (by simp) b hb
  | startInline hpc | acceptExMissing hpc hs | account hpc hop haccept =>
      refine finds_setPc h rfl ?_ T
      exact fun b hb => hlisted hpc (by simp) b hb
  | dequeue hpc hpending hop =>
      refine finds_setPc h ?_ ?_ T
      · rfl
      · rw [afterExecute]
        split <;> simp [PcFinds, Pc.held]
  | complete hpc hmem =>
      refine finds_setPc h ?_ ?_ T
      · rfl
      · simp [PcFinds, Pc.held]
  | unlock hpc hunlock | unlockReport hpc hunlock =>
      refine finds_setPc h hunlock.threads_eq ?_ T
      exact fun b hb => hlisted hpc (by simp) b (List.mem_cons_of_mem _ hb)
  | setSockOptMissing hpc hs =>
      refine finds_setPc h rfl ?_ T
      simp [Pc.idle, PcFinds, Pc.held]
  | setSockOpt hpc hs hget | cleanup hpc hop hs hget =>
      refine finds_setPc h ?_ ?_ T
      · rfl
      · intro c hc
        rcases List.mem_cons.mp hc with rfl | hc
        · exact ⟨_, hs⟩
        · exact hlisted hpc (by simp) c hc
  | free hpc =>
      refine finds_setPc h ?_ ?_ T
      · rfl
      · simp [Pc.idle, PcFinds, Pc.held]
  | @acceptEx T' s a b sAcceptSocket hasOverlapped si hpc hs hget =>
      have haccept : t.handles s = some a := by
        have haccept := h T'
        rwa [hpc] at haccept
      refine finds_setPc h ?_ ?_ T
      · rfl
      · cases hasOverlapped with
        | true =>
            exact ⟨haccept, fun c hc => List.mem_singleton.mp hc ▸ ⟨_, hs⟩⟩
        | false =>
            intro c hc
            rcases List.mem_cons.mp hc with rfl | hc
            · exact ⟨_, haccept⟩
            · exact List.mem_singleton.mp hc ▸ ⟨_, hs⟩
  | @routine T' op ok held o a si hpc hop hs hget =>
      have hheld : ∀ c ∈ a :: held, Listed t c := by
        intro c hc
        rcases List.mem_cons.mp hc with rfl | hc
        · exact ⟨_, hs⟩
        · exact hlisted hpc (by simp) c hc
      refine finds_setPc h ?_ ?_ T
      · rfl
      · cases ok <;> exact hheld
  | accountAccept hpc hop haccept hs hget hunlock =>
      refine finds_setPc h hunlock.threads_eq ?_ T
      exact fun b hb => hlisted hpc (by simp) b hb
  | cleanupFrees hpc hop hget hclosing hlast hone =>
      refine finds_setPc h ?_ ?_ T
      · rfl
      · exact fun b hb => hlisted hpc (by simp) b (List.mem_cons_of_mem _ hb)
  | putback hpc hunlock =>
      refine finds_setPc h ?_ ?_ T
      · exact hunlock.threads_eq
      · exact fun b hb => hlisted hpc (by simp) b (List.mem_cons_of_mem _ hb)

/-! ## Handles that are closed -/

/-- A handle is kept unless the context it leads to is freed, or a thread is
about to free it and nothing is charged to it. -/
def HandlesKept (t u : LspState) : Prop :=
  ∀ s a, t.handles s = some a → u.handles s = some a ∨ u.heap a = none ∨
    ∃ T si, u.threads T = .freeing a ∧ t.heap a = some si ∧
      si.dwOutstandingAsync = 0

theorem HandlesKept.of_eq (h : u.handles = t.handles) : HandlesKept t u :=
  fun _ _ hs => Or.inl (h ▸ hs)

theorem Listed.handle_eq (hlisted : Listed t a)
    (hback : ∀ s, t.handles s = some a → LeadsBack t s a)
    (hs : LeadsBack t s a) : t.handles s = some a := by
  obtain ⟨s', hs'⟩ := hlisted
  obtain ⟨si, hget, hsocket⟩ := hback s' hs'
  obtain ⟨other, hother, hsocket'⟩ := hs
  rw [hget, Option.some.injEq] at hother
  rw [← hother, hsocket, Option.some.injEq] at hsocket'
  exact hsocket' ▸ hs'

theorem wpuCloseSocketHandle_handles (hlisted : Listed t a)
    (hback : ∀ s, t.handles s = some a → LeadsBack t s a)
    (hget : t.heap a = some si) (hs : t.handles s = some b) :
    (wpuCloseSocketHandle si.layeredSocket t).handles s = some b ∨ b = a := by
  cases hsocket : si.layeredSocket with
  | none => exact Or.inl hs
  | some s' =>
      by_cases hsame : s = s'
      · have hs' := hlisted.handle_eq hback ⟨si, hget, hsocket⟩
        rw [hsame, hs', Option.some.injEq] at hs
        exact Or.inr hs.symm
      · left
        simpa [wpuCloseSocketHandle, hsame] using hs

theorem Unlocked.handles_kept (h : Unlocked T a t u) (hlisted : Listed t a)
    (hback : ∀ s, t.handles s = some a → LeadsBack t s a)
    (hs : t.handles s = some b) : u.handles s = some b ∨ u.heap b = none := by
  cases h with
  | kept hget => exact Or.inl hs
  | @freed si hget hlast hclosing =>
      rcases wpuCloseSocketHandle_handles hlisted hback hget hs with hkept | rfl
      · left
        cases hsocket : si.layeredSocket <;> rw [hsocket] at hkept <;>
          exact hkept
      · right
        rw [wpuCloseSocketHandle_heap, LspState.setInfo_heap_self]

theorem Unlocked.handlesKept (h : Unlocked T a v u)
    (hlisted : Listed v a) (hback : ∀ s, v.handles s = some a → LeadsBack v s a)
    (hhandles : v.handles = t.handles) : HandlesKept t (u.setPc T pc) := by
  intro s b hs
  rcases h.handles_kept hlisted hback (hhandles ▸ hs) with hkept | hnone
  · exact Or.inl hkept
  · exact Or.inr (Or.inl hnone)

theorem StepTo.handlesKept (hstep : StepTo iocp t action u) (h : Sound t)
    (hfinds : ∀ T, PcFinds t (t.threads T)) : HandlesKept t u := by
  have hback : ∀ s a, t.handles s = some a → LeadsBack t s a := (h.but 0).handle
  have hlisted : ∀ {T pc}, t.threads T = pc → (∀ a, pc ≠ .freeing a) → ∀ b ∈ pc.held, Listed t b :=
    fun hpc hne _ hmem => (hpc ▸ hfinds _ : PcFinds t _).listed hne hmem
  cases hstep with
  | @socket s a hs ha =>
      intro s' b hs'
      have hne : s' ≠ s := by
        rintro rfl
        rw [hs] at hs'
        cases hs'
      left
      simpa [hne] using hs'
  | @closeLeft T s a lowerCloses si v bClosing providerOpen hpc hget hunlock =>
      exact hunlock.handlesKept (hlisted hpc (by simp) a List.mem_cons_self)
        (fun s hs => (hback s a hs).setInfo hget rfl) rfl
  | @close T s a si hpc hget hnone hone =>
      have hleads : LeadsBack t s a := by
        have hsound := (h.threads T).2
        rwa [hpc] at hsound
      have hs := (hlisted hpc (by simp) a List.mem_cons_self).handle_eq (fun s => hback s a) hleads
      intro s' b hs'
      by_cases hsame : s' = s
      · subst hsame
        rw [hs, Option.some.injEq] at hs'
        subst hs'
        exact Or.inr (Or.inr ⟨T, si, LspState.setPc_threads_self .., hget, hnone⟩)
      · left
        have hkept : (wpuCloseSocketHandle (some s) t).handles s' = some b := by
          simpa [wpuCloseSocketHandle, hsame] using hs'
        exact hkept
  | @unlock T a rest v hpc hunlock | @unlockReport T op a held v hpc hunlock
  | @putback T op a held v hpc hunlock =>
      exact hunlock.handlesKept (hlisted hpc (by simp) a List.mem_cons_self)
        (fun s => hback s a) rfl
  | @accountAccept T op a b held o s si v hpc hop haccept hs hget hunlock =>
      exact hunlock.handlesKept ⟨s, hs⟩ (fun s hs => (hback s b hs).setInfo hget rfl) rfl
  | @cleanupFrees T op a held o si hpc hop hget hclosing hlast hone =>
      have hleads : LeadsBack t o.callerSocket a := by
        have hsound := (h.threads T).2
        rw [hpc] at hsound
        exact hsound.2 o hop
      have hs := (hlisted hpc (by simp) a List.mem_cons_self).handle_eq (fun s => hback s a) hleads
      intro s' b hs'
      by_cases hsame : s' = o.callerSocket
      · subst hsame
        rw [hs, Option.some.injEq] at hs'
        subst hs'
        right
        left
        exact LspState.setInfo_heap_self _ a none
      · left
        have hkept : (wpuCloseSocketHandle (some o.callerSocket) t).handles s' = some b := by
          simpa [wpuCloseSocketHandle, hsame] using hs'
        exact hkept
  | callMissing | call | take | takeNone | start | startQueue | startInline
  | dequeue | complete | setSockOptMissing | setSockOpt | free | acceptExMissing
  | acceptEx | routineMissing | routine | account | report | cleanupMissing
  | cleanup | cleanupCounts => exact .of_eq rfl

end MiscProjects.Lsp
