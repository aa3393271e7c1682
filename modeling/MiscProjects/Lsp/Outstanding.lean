import MiscProjects.Lsp.Counts

/-!
# The count of outstanding operations

`dwOutstandingAsync` is counted up in `GetOverlappedStructure`, before it is
known whether there is a structure and what becomes of the operation, and
counted down in `CheckForContextCleanup` only.  It is the number of structures
taken for the context and not yet put back, in every run in which a structure
is found whenever one is asked for, every structure that is left to a
completion gets one, and no structure outlives its context.
-/

namespace MiscProjects.Lsp

open MiscProjects.Runs

variable {iocp : Bool} {T : Thread} {t u v : LspState} {a b : Addr}
  {s : Socket} {action : Action} {op : OpId} {o : Overlapped}

/-! ## The condition -/

/-- `ExecuteOverlappedOperation` leaves the structure to a completion exactly
when there will be one. -/
def Matches (operation : Operation) (result : LowerResult) (notified : Bool) :
    Prop :=
  keepsStructure operation result = willComplete result notified

instance (operation : Operation) (result : LowerResult) (notified : Bool) :
    Decidable (Matches operation result notified) :=
  inferInstanceAs (Decidable (_ = _))

/-- It does so for the operation that a step executes. -/
def ExecutesWell (iocp : Bool) (t : LspState) : Action → Prop
  | .start T association result =>
      iocp = true → ∀ op ∈ (t.threads T).starting, ∀ o ∈ t.ops op,
        ∀ si ∈ t.heap o.sockInfo,
          Matches o.operation result (o.notified si association)
  | .dequeue _ result =>
      ∀ op ∈ t.pending.head?, ∀ o ∈ t.ops op,
        Matches o.operation result !o.operation.isExtension
  | _ => True

instance (iocp : Bool) (t : LspState) (action : Action) :
    Decidable (ExecutesWell iocp t action) :=
  match action with
  | .start T association result =>
      inferInstanceAs (Decidable (iocp = true →
        ∀ op ∈ (t.threads T).starting, ∀ o ∈ t.ops op,
          ∀ si ∈ t.heap o.sockInfo,
            Matches o.operation result (o.notified si association)))
  | .dequeue _ result =>
      inferInstanceAs (Decidable (∀ op ∈ t.pending.head?, ∀ o ∈ t.ops op,
        Matches o.operation result !o.operation.isExtension))
  | .socket .. | .call .. | .close .. | .take .. | .startInline .. | .complete ..
  | .go .. => inferInstanceAs (Decidable True)

/-- No structure is left in use without a completion to come. -/
def DropsNone : Slip → Prop
  | .dropped _ => False
  | .lost => False
  | .rejected => True
  | .unreported _ => True

theorem ExecutesWell.permits (h : ExecutesWell iocp t action) :
    Permits DropsNone iocp t action := by
  cases action with
  | start T association result =>
      intro hport op hop o ho si hsi
      have hmatches := h hport op hop o ho si hsi
      unfold Matches at hmatches
      by_cases hwill : willComplete result (o.notified si association) = true
      · rw [if_pos hwill]
        exact hmatches.trans hwill
      · rw [if_neg hwill]
        exact fun hkeeps => absurd (hmatches ▸ hkeeps) hwill
  | dequeue T result =>
      intro op hop o ho
      have hmatches := h op hop o ho
      unfold Matches at hmatches
      by_cases hwill : willComplete result (!o.operation.isExtension) = true
      · rw [if_pos hwill]
        exact hmatches.trans hwill
      · rw [if_neg hwill, hmatches, if_neg hwill]
        trivial
  | go T => exact fun _ _ _ _ _ => trivial
  | socket | call | close | take | startInline | complete => trivial

/-- The context that a thread is going to count an operation on. -/
def Pc.taking : Pc → Option Addr
  | .take _ a _ _ _ => some a
  | _ => none

/-- The context that the structure points to is the one it was taken for. -/
def HasItsContext (t : LspState) (op : OpId) : Prop :=
  ∀ o ∈ t.ops op, ∀ si ∈ t.heap o.sockInfo, si.serial = o.serial

instance (t : LspState) (op : OpId) : Decidable (HasItsContext t op) :=
  inferInstanceAs (Decidable (∀ _ ∈ _, _))

/-- What is counted up has a structure and does not wrap, and what is counted
down is the context that was counted up. -/
def CountsStructure (t : LspState) : Action → Prop
  | .take T found =>
      found = true ∧ ∀ a ∈ (t.threads T).taking, ∀ si ∈ t.heap a,
        si.dwOutstandingAsync + 1 ≠ 0
  | .go T => ∀ x ∈ (t.threads T).cleaning, HasItsContext t x.1
  | _ => True

instance (t : LspState) (action : Action) :
    Decidable (CountsStructure t action) :=
  match action with
  | .take T found =>
      inferInstanceAs (Decidable (found = true ∧
        ∀ a ∈ (t.threads T).taking, ∀ si ∈ t.heap a,
          si.dwOutstandingAsync + 1 ≠ 0))
  | .go T =>
      inferInstanceAs (Decidable (∀ x ∈ (t.threads T).cleaning,
        HasItsContext t x.1))
  | .socket .. | .call .. | .close .. | .start .. | .startInline .. | .dequeue ..
  | .complete .. => inferInstanceAs (Decidable True)

/-- The condition under which every step keeps the count. -/
def KeepsCount (iocp : Bool) (t : LspState) (action : Action) : Prop :=
  FewReferences t ∧ ExecutesWell iocp t action ∧ CountsStructure t action

instance (iocp : Bool) (t : LspState) (action : Action) :
    Decidable (KeepsCount iocp t action) :=
  inferInstanceAs (Decidable (_ ∧ _))

/-! ## The invariant -/

/-- The count of every live context is the number of structures charged to it,
and the handle of a structure's socket leads to its context as long as the
structure is charged. -/
structure Accounts (t : LspState) : Prop where
  sound : Sound t
  located : ∃ loc, Located t.custody loc ∧ Tracked t.custody loc
  finds : ∀ T, PcFinds t (t.threads T)
  serials : ∀ op o, t.custody.Charged op o → o.serial < t.nextSerial
  contexts : ∀ a si, t.heap a = some si → si.serial < t.nextSerial
  leads : ∀ op o si, t.custody.Charged op o → t.heap o.sockInfo = some si →
    si.serial = o.serial → t.handles o.callerSocket = some o.sockInfo
  count : ∀ a si, t.heap a = some si →
    si.dwOutstandingAsync.toNat = (charged t a si.serial).ncard

theorem charged_finite (h : Sound t) (a : Addr) (serial : ℕ) : (charged t a serial).Finite := by
  refine (Set.finite_lt_nat t.nextOp).subset ?_
  rintro op ⟨o, ⟨hop, -⟩, -⟩
  by_contra hle
  have hnone : t.ops op = none := (h.but 0).known op (Nat.le_of_not_lt hle)
  have hsome : t.ops op = some o := hop
  rw [hnone] at hsome
  cases hsome

variable {stage : Stage} {si : SockInfo} {held : List Addr}

theorem charged_of_work (hlocated : ∃ loc, Located t.custody loc ∧ Tracked t.custody loc)
    (hwork : t.custody.work T = some (op, stage)) (hstage : stage ≠ .accounted)
    (hop : t.ops op = some o) : t.custody.Charged op o := by
  obtain ⟨loc, hloc, -⟩ := hlocated
  refine ⟨hop, fun T' hwork' => hstage ?_⟩
  have hplace := (hloc.work T op stage).mp hwork
  have hplace' := (hloc.work T' op .accounted).mp hwork'
  rw [hplace, Option.some.injEq, Place.thread.injEq] at hplace'
  exact hplace'.2

theorem not_accounted_nextOp (hlocated : ∃ loc, Located t.custody loc ∧ Tracked t.custody loc)
    (T : Thread) : t.custody.work T ≠ some (t.nextOp, .accounted) := by
  obtain ⟨loc, hloc, -⟩ := hlocated
  intro hwork
  have hplace := (hloc.work T t.nextOp .accounted).mp hwork
  have hnone : loc t.nextOp = none := hloc.known _ (Nat.le_refl _)
  rw [hnone] at hplace
  cases hplace

theorem Accounts.cleanup_eq (h : Accounts t) (hpc : t.threads T = .cleanupSection op a held)
    (hop : t.ops op = some o) (hget : t.heap o.sockInfo = some si)
    (hserial : si.serial = o.serial) : o.sockInfo = a := by
  have hwork : t.custody.work T = some (op, .settled) := congrArg Pc.work hpc
  have hcharged : t.custody.Charged op o := charged_of_work h.located hwork (by simp) hop
  have hleads := h.leads op o si hcharged hget hserial
  have hlisted : Listed t a := by
    have hfinds := h.finds T
    rw [hpc] at hfinds
    exact hfinds a List.mem_cons_self
  have hback : LeadsBack t o.callerSocket a := by
    have hsound := (h.sound.threads T).2
    rw [hpc] at hsound
    exact hsound.2 o hop
  have hs := hlisted.handle_eq (fun s => (h.sound.but T).handle s a) hback
  rw [hleads, Option.some.injEq] at hs
  exact hs

theorem Accounts.counted (h : Accounts t) (hkeeps : KeepsCount iocp t action) :
    Counted t action := by
  obtain ⟨hfew, -, hcounts⟩ := hkeeps
  refine ⟨hfew, fun T hT x hx o hop si hget _ _ _ => ?_⟩
  cases action with
  | go T' =>
      obtain rfl : T' = T := by simpa [Action.goes] using hT
      cases hpc : t.threads T' with
      | cleanupSection op a held =>
          have hx' : x = (op, a) := by
            simpa [hpc, Pc.cleaning, eq_comm] using hx
          subst hx'
          have hits : HasItsContext t op := hcounts (op, a) (by simp [hpc, Pc.cleaning])
          exact h.cleanup_eq hpc hop hget (hits o hop si hget)
      | returning | setSockOpt | closing | freeing | acceptEx | take | start
      | routine | account | unlock | report | cleanup | cleanupUnlock =>
          simp [hpc, Pc.cleaning] at hx
  | socket | call | close | take | start | startInline | dequeue | complete =>
      simp [Action.goes] at hT

/-! ## What a step does to the counts -/

inductive CountStep (t u : LspState) : Prop
  | same (hcarries : Carries t u) (hnext : u.nextSerial = t.nextSerial)
      (hcharged : ∀ op o, u.custody.Charged op o ↔ t.custody.Charged op o)
  | opened {a : Addr} {si : SockInfo} (hserial : si.serial = t.nextSerial)
      (hzero : si.dwOutstandingAsync = 0)
      (hheap : u.heap = Function.update t.heap a (some si))
      (hnext : u.nextSerial = t.nextSerial + 1)
      (hcharged : ∀ op o, u.custody.Charged op o ↔ t.custody.Charged op o)
  | taken {o : Overlapped} {si : SockInfo} (hget : t.heap o.sockInfo = some si)
      (hserial : o.serial = si.serial) (hfew : si.dwOutstandingAsync + 1 ≠ 0)
      (hheap : u.heap = Function.update t.heap o.sockInfo
        (some { si with dwOutstandingAsync := si.dwOutstandingAsync + 1 }))
      (hnext : u.nextSerial = t.nextSerial) (hhandles : u.handles = t.handles)
      (hleads : t.handles o.callerSocket = some o.sockInfo)
      (hcharged : ∀ op o', u.custody.Charged op o' ↔
        t.custody.Charged op o' ∨ (op = t.nextOp ∧ o' = o))
  /-- A structure is taken off the count of its context, if that is there. -/
  | removed {op : OpId} {o : Overlapped} (hop : t.custody.Charged op o)
      (hnext : u.nextSerial = t.nextSerial)
      (hheap : ∀ a si', u.heap a = some si' → ∃ si, t.heap a = some si ∧
        si'.serial = si.serial ∧ si'.dwOutstandingAsync =
          if a = o.sockInfo ∧ si.serial = o.serial then
            si.dwOutstandingAsync - 1 else si.dwOutstandingAsync)
      (hcharged : ∀ op' o', u.custody.Charged op' o' ↔
        t.custody.Charged op' o' ∧ op' ≠ op)

theorem CountStep.of_custody_eq (hcarries : Carries t u) (hnext : u.nextSerial = t.nextSerial)
    (hcustody : u.custody = t.custody) : CountStep t u :=
  .same hcarries hnext fun _ _ => by rw [hcustody]

theorem Accounts.lost (h : Accounts t) (hwork : t.custody.work T = some (op, stage))
    (hstage : stage ≠ .accounted) (hop : t.ops op = some o) (hs : t.handles o.callerSocket = none) :
    CountStep t (putbackOverlappedStructure T op held t) := by
  have hcharged := charged_of_work h.located hwork hstage hop
  refine .removed hcharged rfl (fun a si hget => ⟨si, hget, rfl, ?_⟩) fun op' o' => ?_
  · have hgone : ¬ (a = o.sockInfo ∧ si.serial = o.serial) := by
      rintro ⟨rfl, hserial⟩
      rw [h.leads op o si hcharged hget hserial] at hs
      cases hs
    rw [if_neg hgone]
  · rw [custody_putback]
    exact charged_putback hwork op' o'

theorem Accounts.countStep (h : Accounts t) (hkeeps : KeepsCount iocp t action)
    (hstep : StepTo iocp t action u) : CountStep t u := by
  have hwork : ∀ {T pc}, t.threads T = pc → t.custody.work T = pc.work :=
    fun hpc => congrArg Pc.work hpc
  obtain ⟨-, -, hcounts⟩ := hkeeps
  cases hstep with
  | @socket s a hs ha =>
      have hheap : ({ t with
          heap := Function.update t.heap a (some (createSockInfo t.nextSerial s)),
          handles := Function.update t.handles s (some a),
          nextSerial := t.nextSerial + 1 } : LspState).heap =
          Function.update t.heap a (some (createSockInfo t.nextSerial s)) := rfl
      exact .opened rfl rfl hheap rfl fun _ _ => Iff.rfl
  | callMissing hpc hs => exact .of_custody_eq (.of_heap_eq rfl) rfl rfl
  | @call T entry a si hpc hs hget =>
      exact .of_custody_eq (Carries.addRef (T := T) hget) rfl
        (custody_setPc_same (custody_addRef ..) hpc (by cases entry <;> rfl))
  | @closeLeft T s a lowerCloses si v bClosing providerOpen hpc hget hunlock =>
      have hset : Carries t (t.setInfo a (some { si with
          bClosing := bClosing, lockedBy := some T,
          providerOpen := providerOpen })) := Carries.setInfo hget rfl rfl
      exact .of_custody_eq (hset.trans hunlock.carries) hunlock.nextSerial_eq
        (custody_setPc_same (by rw [hunlock.custody_eq]; rfl) hpc rfl)
  | @close T s a si hpc hget hnone hone =>
      have hset : Carries t (t.setInfo a (some { si with providerOpen := false })) :=
        Carries.setInfo hget rfl rfl
      exact .of_custody_eq hset rfl (custody_setPc_same (by simp) hpc rfl)
  | @take T s a operation completionRoutine others si hpc hget =>
      have hleads : t.handles s = some a := by
        have hfinds := h.finds T
        rw [hpc] at hfinds
        exact hfinds.1
      have hfew : si.dwOutstandingAsync + 1 ≠ 0 := hcounts.2 a (by simp [hpc, Pc.taking]) si hget
      refine .taken (o := ⟨a, si.serial, s, operation, completionRoutine⟩) hget rfl
        hfew rfl rfl rfl hleads fun op' o' => ?_
      rw [custody_setPc]
      exact charged_take (hwork hpc) (not_accounted_nextOp h.located) op' o'
        ((h.sound.but T).known _ (Nat.le_refl _))
  | takeNone hpc hget => exact absurd hcounts.1 (by simp)
  | @start T association result op held o si hpc hop hget hport =>
      have hset : Carries t (t.setInfo o.sockInfo
          (some { si with hIocp := si.associated association })) := Carries.setInfo hget rfl rfl
      refine .same hset rfl fun op' o' => ?_
      rw [custody_setPc]
      exact charged_setWork (c := { t.custody with
          atLower := _, answered := _ }) (by simp [hwork hpc, Pc.work])
        (by rw [afterExecute]; split <;> simp [Pc.work]) op' o'
  | @startQueue T association result op held o hpc hop hport =>
      refine .same (.of_heap_eq rfl) rfl fun op' o' => ?_
      rw [custody_setPc]
      exact charged_setWork (c := { t.custody with
          pending := _, answered := _ }) (by simp [hwork hpc, Pc.work])
        (by simp [Pc.work]) op' o'
  | @startInline T op held hpc =>
      refine .same (.of_heap_eq rfl) rfl fun op' o' => ?_
      rw [custody_setPc]
      exact charged_setWork (by simp [hwork hpc, Pc.work]) (by simp [Pc.work]) op' o'
  | @dequeue T result op rest o hpc hpending hop =>
      refine .same (.of_heap_eq rfl) rfl fun op' o' => ?_
      rw [custody_setPc]
      exact charged_setWork (c := { t.custody with
          pending := _, atLower := _ }) (by simp [hwork hpc, Pc.idle, Pc.work])
        (by rw [afterExecute]; split <;> simp [Pc.work]) op' o'
  | @complete T op ok hpc hmem =>
      refine .same (.of_heap_eq rfl) rfl fun op' o' => ?_
      rw [custody_setPc]
      exact charged_setWork (c := { t.custody with atLower := _ })
        (by simp [hwork hpc, Pc.idle, Pc.work]) (by simp [Pc.work]) op' o'
  | unlock hpc hunlock | unlockReport hpc hunlock =>
      exact .of_custody_eq hunlock.carries hunlock.nextSerial_eq
        (custody_setPc_same hunlock.custody_eq hpc rfl)
  | setSockOptMissing hpc hs | acceptExMissing hpc hs | account hpc hop haccept =>
      exact .of_custody_eq (.of_heap_eq rfl) rfl (custody_setPc_same rfl hpc rfl)
  | @setSockOpt T optval a b si hpc hs hget | @cleanup T op held o a si hpc hop hs hget =>
      exact .of_custody_eq (Carries.addRef (T := T) hget) rfl
        (custody_setPc_same (custody_addRef ..) hpc rfl)
  | @free T a hpc =>
      exact .of_custody_eq (Carries.free (release T a t) a) rfl
        (custody_setPc_same (by simp) hpc rfl)
  | @acceptEx T s a b sAcceptSocket hasOverlapped si hpc hs hget =>
      exact .of_custody_eq (Carries.addRef (T := T) hget) rfl
        (custody_setPc_same (custody_addRef ..) hpc (by cases hasOverlapped <;> rfl))
  | routineMissing hpc hop hs => exact h.lost (hwork hpc) (by simp) hop hs
  | cleanupMissing hpc hop hs => exact h.lost (hwork hpc) (by simp) hop hs
  | @routine T op ok held o a si hpc hop hs hget =>
      exact .of_custody_eq (Carries.addRef (T := T) hget) rfl
        (custody_setPc_same (custody_addRef ..) hpc (by cases ok <;> rfl))
  | @accountAccept T op a b held o s si v hpc hop haccept hs hget hunlock =>
      exact .of_custody_eq ((Carries.addRef (T := T) hget).trans hunlock.carries)
        hunlock.nextSerial_eq (custody_setPc_same (by rw [hunlock.custody_eq]; rfl) hpc rfl)
  | @report T op held o hpc hop =>
      refine .same (.of_heap_eq rfl) rfl fun op' o' => ?_
      rw [custody_setPc]
      exact charged_setWork (c := { t.custody with reports := _ })
        (by simp [hwork hpc, Pc.work]) (by simp [Pc.work]) op' o'
  | @cleanupFrees T op a held o si hpc hop hget hclosing hlast hone =>
      have hserial : si.serial = o.serial :=
        hcounts (op, a) (by simp [hpc, Pc.cleaning]) o hop si hget
      have hits := h.cleanup_eq hpc hop hget hserial
      have hcharged := charged_of_work h.located (hwork hpc) (by simp) hop
      refine .removed hcharged (wpuCloseSocketHandle_nextSerial ..)
        (fun b other hother => ?_) fun op' o' => ?_
      · -- the context that is counted down is the one that is freed
        have hother' : (((t.setInfo o.sockInfo (some { si with
            dwOutstandingAsync := si.dwOutstandingAsync - 1,
            layeredSocket := none })).setInfo a none).heap b) = some other :=
          hother
        have hb : b ≠ a := by
          rintro rfl
          rw [LspState.setInfo_heap_self] at hother'
          cases hother'
        rw [LspState.setInfo_heap_of_ne hb, LspState.setInfo_heap_of_ne (hits ▸ hb)] at hother'
        exact ⟨other, hother', rfl, by rw [if_neg fun hboth => hb (hits ▸ hboth.1)]⟩
      · rw [custody_putback]
        exact charged_putback (hwork hpc) op' o'
  | @cleanupCounts T op a held o si lockedBy hpc hop hget =>
      have hserial : si.serial = o.serial :=
        hcounts (op, a) (by simp [hpc, Pc.cleaning]) o hop si hget
      have hcharged := charged_of_work h.located (hwork hpc) (by simp) hop
      refine .removed hcharged rfl (fun b other hother => ?_) fun op' o' => ?_
      · have hother' : (t.setInfo o.sockInfo (some { si with
            dwOutstandingAsync := si.dwOutstandingAsync - 1,
            lockedBy := lockedBy })).heap b = some other := hother
        by_cases hb : b = o.sockInfo
        · subst hb
          rw [LspState.setInfo_heap_self, Option.some.injEq] at hother'
          refine ⟨si, hget, hother' ▸ rfl, ?_⟩
          rw [if_pos ⟨rfl, hserial⟩, ← hother']
        · rw [LspState.setInfo_heap_of_ne hb] at hother'
          exact ⟨other, hother', rfl, by rw [if_neg fun hboth => hb hboth.1]⟩
      · rw [custody_setPc]
        exact charged_account (hwork hpc) op' o'
  | @putback T op a held v hpc hunlock =>
      refine .same (hunlock.carries.trans (.of_heap_eq rfl)) hunlock.nextSerial_eq fun op' o' => ?_
      have hnot : ∀ o', t.custody.Charged op o' → False :=
        fun o' hcharged => hcharged.2 T (hwork hpc)
      have hops : v.ops = t.ops := congrArg Custody.ops hunlock.custody_eq
      rw [custody_putback, hunlock.custody_eq, hops]
      refine (charged_putback (hwork hpc) op' o').trans ⟨And.left, fun hcharged => ⟨hcharged, ?_⟩⟩
      rintro rfl
      exact hnot o' hcharged

/-! ## Every step keeps the count -/

theorem mem_charged {serial : ℕ} : op ∈ charged t a serial ↔
      ∃ o, t.custody.Charged op o ∧ o.sockInfo = a ∧ o.serial = serial :=
  Iff.rfl

theorem charged_eq (h : ∀ op o, u.custody.Charged op o ↔ t.custody.Charged op o)
    (a : Addr) (serial : ℕ) : charged u a serial = charged t a serial := by
  ext op
  simp only [mem_charged, h]

theorem CountStep.context (h : CountStep t u) {si' : SockInfo} (hget : u.heap a = some si') :
    (∃ si, t.heap a = some si ∧ si'.serial = si.serial) ∨
      (si'.serial = t.nextSerial ∧ u.nextSerial = t.nextSerial + 1) := by
  cases h with
  | same hcarries hnext hcharged =>
      obtain ⟨si, hsi, hserial, -⟩ := hcarries a si' hget
      exact Or.inl ⟨si, hsi, hserial⟩
  | @opened b si hserial hzero hheap hnext hcharged =>
      by_cases hb : a = b
      · rw [hheap, hb, Function.update_self, Option.some.injEq] at hget
        exact Or.inr ⟨hget ▸ hserial, hnext⟩
      · rw [hheap, Function.update_of_ne hb] at hget
        exact Or.inl ⟨si', hget, rfl⟩
  | @taken o si hsi hserial hfew hheap hnext hhandles hleads hcharged =>
      by_cases hb : a = o.sockInfo
      · rw [hheap, hb, Function.update_self, Option.some.injEq] at hget
        exact Or.inl ⟨si, hb ▸ hsi, hget ▸ rfl⟩
      · rw [hheap, Function.update_of_ne hb] at hget
        exact Or.inl ⟨si', hget, rfl⟩
  | removed hop hnext hheap hcharged =>
      obtain ⟨si, hsi, hserial, -⟩ := hheap a si' hget
      exact Or.inl ⟨si, hsi, hserial⟩

theorem CountStep.nextSerial_le (h : CountStep t u) : t.nextSerial ≤ u.nextSerial := by
  cases h with
  | same hcarries hnext hcharged | taken hget hserial hfew hheap hnext hhandles hleads hcharged
  | removed hop hnext hheap hcharged =>
      exact Nat.le_of_eq hnext.symm
  | opened hserial hzero hheap hnext hcharged => exact hnext ▸ Nat.le_succ _

theorem Accounts.count_step (h : Accounts t) (hstep : CountStep t u) (a : Addr)
    (si' : SockInfo) (hget : u.heap a = some si') :
    si'.dwOutstandingAsync.toNat = (charged u a si'.serial).ncard := by
  cases hstep with
  | same hcarries hnext hcharged =>
      obtain ⟨si, hsi, hserial, hcount⟩ := hcarries a si' hget
      rw [hcount, charged_eq hcharged, hserial]
      exact h.count a si hsi
  | @opened b si hserial hzero hheap hnext hcharged =>
      rw [charged_eq hcharged]
      by_cases hb : a = b
      · rw [hheap, hb, Function.update_self, Option.some.injEq] at hget
        subst hget
        have hempty : charged t a si.serial = ∅ := by
          rw [Set.eq_empty_iff_forall_notMem]
          rintro op ⟨o, hop, -, hserial'⟩
          have hlt := h.serials op o hop
          rw [hserial', hserial] at hlt
          exact Nat.lt_irrefl _ hlt
        rw [hempty, hzero, Set.ncard_empty]
        rfl
      · rw [hheap, Function.update_of_ne hb] at hget
        exact h.count a si' hget
  | @taken o si hsi hserial hfew hheap hnext hhandles hleads hcharged =>
      by_cases hb : a = o.sockInfo
      · subst hb
        rw [hheap, Function.update_self, Option.some.injEq] at hget
        subst hget
        have hinsert : charged u o.sockInfo si.serial =
            insert t.nextOp (charged t o.sockInfo si.serial) := by
          ext op
          simp only [mem_charged, hcharged, Set.mem_insert_iff]
          constructor
          · rintro ⟨o', hop | ⟨hop, -⟩, hits⟩
            · exact Or.inr ⟨o', hop, hits⟩
            · exact Or.inl hop
          · rintro (rfl | ⟨o', hop, hits⟩)
            · exact ⟨o, Or.inr ⟨rfl, rfl⟩, rfl, hserial⟩
            · exact ⟨o', Or.inl hop, hits⟩
        have hnew : t.nextOp ∉ charged t o.sockInfo si.serial := by
          rintro ⟨o', ⟨hop, -⟩, -⟩
          have hknown : t.ops t.nextOp = none := (h.sound.but 0).known _ (Nat.le_refl _)
          have hop' : t.ops t.nextOp = some o' := hop
          rw [hknown] at hop'
          cases hop'
        dsimp only
        rw [hinsert, Set.ncard_insert_of_notMem hnew (charged_finite h.sound _ _),
          ← h.count _ si hsi]
        have hlt := si.dwOutstandingAsync.isLt
        have hwrap : si.dwOutstandingAsync.toNat ≠ 2 ^ 32 - 1 := by
          intro hmax
          apply hfew
          apply BitVec.eq_of_toNat_eq
          rw [BitVec.toNat_add, hmax]
          rfl
        rw [BitVec.toNat_add]
        exact Nat.mod_eq_of_lt (by change _ + 1 < 2 ^ 32; omega)
      · rw [hheap, Function.update_of_ne hb] at hget
        have hsame : charged u a si'.serial = charged t a si'.serial := by
          ext op
          simp only [mem_charged, hcharged]
          constructor
          · rintro ⟨o', hop | ⟨-, rfl⟩, hits⟩
            · exact ⟨o', hop, hits⟩
            · exact absurd hits.1.symm hb
          · rintro ⟨o', hop, hits⟩
            exact ⟨o', Or.inl hop, hits⟩
        rw [hsame]
        exact h.count a si' hget
  | @removed op o hop hnext hheap hcharged =>
      obtain ⟨si, hsi, hserial, hcount⟩ := hheap a si' hget
      have hremove : charged u a si.serial = charged t a si.serial \ {op} := by
        ext op'
        simp only [mem_charged, hcharged, Set.mem_sdiff, Set.mem_singleton_iff]
        constructor
        · rintro ⟨o', ⟨hop', hne⟩, hits⟩
          exact ⟨⟨o', hop', hits⟩, hne⟩
        · rintro ⟨⟨o', hop', hits⟩, hne⟩
          exact ⟨o', ⟨hop', hne⟩, hits⟩
      rw [hserial, hremove, hcount]
      by_cases hits : a = o.sockInfo ∧ si.serial = o.serial
      · have hmem : op ∈ charged t a si.serial := ⟨o, hop, hits.1.symm, hits.2.symm⟩
        have hone := Set.ncard_sdiff_singleton_add_one hmem (charged_finite h.sound _ _)
        have hbefore := h.count a si hsi
        rw [if_pos hits, BitVec.toNat_sub_of_le]
        · change _ - 1 = _
          omega
        · rw [BitVec.le_def]
          change 1 ≤ _
          omega
      · have hnot : op ∉ charged t a si.serial := by
          rintro ⟨o', hop', haddr, hserial'⟩
          have hsame : o' = o := by
            have heq := hop'.1.symm.trans hop.1
            exact Option.some.inj heq
          exact hits ⟨hsame ▸ haddr.symm, hsame ▸ hserial'.symm⟩
        rw [if_neg hits, Set.sdiff_singleton_eq_self hnot]
        exact h.count a si hsi

theorem CountStep.charged_cases (h : CountStep t u) (hop : u.custody.Charged op o) :
    t.custody.Charged op o ∨ (u.handles o.callerSocket = some o.sockInfo ∧
        ∃ si, t.heap o.sockInfo = some si ∧ si.serial = o.serial ∧
          u.nextSerial = t.nextSerial) := by
  cases h with
  | same hcarries hnext hcharged => exact Or.inl ((hcharged op o).mp hop)
  | opened hserial hzero hheap hnext hcharged =>
      exact Or.inl ((hcharged op o).mp hop)
  | @taken o' si hsi hserial hfew hheap hnext hhandles hleads hcharged =>
      rcases (hcharged op o).mp hop with hop' | ⟨-, rfl⟩
      · exact Or.inl hop'
      · exact Or.inr ⟨hhandles ▸ hleads, si, hsi, hserial.symm, hnext⟩
  | removed hop' hnext hheap hcharged =>
      exact Or.inl ((hcharged op o).mp hop).1

theorem Accounts.step (h : Accounts t) (hkeeps : KeepsCount iocp t action)
    (hstep : lspStep iocp t action = some u) : Accounts u := by
  have hsound : Sound u := h.sound.step (h.counted hkeeps) hstep
  have hto : StepTo iocp t action u := .of_step hstep
  have hcount : CountStep t u := h.countStep hkeeps hto
  have hkept : HandlesKept t u := hto.handlesKept h.sound h.finds
  obtain ⟨loc, hloc, htracked⟩ := h.located
  obtain ⟨T, m, hcustody⟩ := hto.custody hkeeps.2.1.permits
  have htracked' : Tracked u.custody (relocate loc m) :=
    htracked.step (fun _ hdrop => hdrop) (fun hlost => hlost) hcustody
  refine ⟨hsound, ⟨_, hloc.step hcustody, htracked'⟩, fun T => ?_, fun op o hop => ?_,
    fun a si hget => ?_, fun op o si' hop hget hserial => ?_,
    fun a si hget => h.count_step hcount a si hget⟩
  · -- what a thread has still to unlock has not been freed
    refine (hto.finds h.finds T).mono fun hpc s a hmem hs => ?_
    have hpos : 0 < refsOf T a u.refs :=
      Nat.lt_of_lt_of_le (List.count_pos_iff.mpr hmem) ((hsound.threads T).1 a)
    obtain ⟨r, hr, haddr⟩ := List.countP_pos_iff.mp hpos
    have haddr' : r.addr = a := by
      simp only [Bool.and_eq_true, beq_iff_eq] at haddr
      exact haddr.2
    obtain ⟨si, hlive, -⟩ := (hsound.but T).live r hr
    rw [haddr'] at hlive
    rcases hkept s a hs with hsame | hnone | ⟨T', -, hfreeing, -⟩
    · exact hsame
    · rw [hnone] at hlive
      cases hlive
    · have hother := hsound.threads T'
      rw [hfreeing] at hother
      have hone : refsTo a u.refs = 1 := hother.2.1
      have hpos' : 0 < refsOf T' a u.refs := hother.pos rfl
      have hne : T ≠ T' := by
        rintro rfl
        exact hpc a hfreeing
      have hadd := refsOf_add_le hne a u.refs
      omega
  · rcases hcount.charged_cases hop with hop' | ⟨-, si, hsi, hserial, hnext⟩
    · exact Nat.lt_of_lt_of_le (h.serials op o hop') hcount.nextSerial_le
    · rw [hnext, ← hserial]
      exact h.contexts _ si hsi
  · rcases hcount.context hget with ⟨si', hsi', hserial⟩ | ⟨hserial, hnext⟩
    · rw [hserial]
      exact Nat.lt_of_lt_of_le (h.contexts a si' hsi') hcount.nextSerial_le
    · rw [hserial, hnext]
      exact Nat.lt_succ_self _
  · rcases hcount.charged_cases hop with hop' | ⟨hs, -⟩
    · rcases hcount.context hget with ⟨si, hsi, hsame⟩ | ⟨hnew, -⟩
      · have hs := h.leads op o si hop' hsi (hsame.symm.trans hserial)
        rcases hkept _ _ hs with hsame' | hnone | ⟨T', si₀, -, hsi₀, hzero⟩
        · exact hsame'
        · rw [hnone] at hget
          cases hget
        · -- nothing is charged to a context that is about to be freed
          rw [hsi, Option.some.injEq] at hsi₀
          subst hsi₀
          have hempty := h.count _ si hsi
          have hmem : op ∈ charged t o.sockInfo si.serial :=
            ⟨o, hop', rfl, hserial.symm.trans hsame⟩
          have hpos := (Set.ncard_pos (charged_finite h.sound _ _)).mpr ⟨op, hmem⟩
          rw [hzero] at hempty
          have hzero' : (charged t o.sockInfo si.serial).ncard = 0 := hempty.symm
          omega
      · have hlt := h.serials op o hop'
        rw [← hserial, hnew] at hlt
        exact absurd hlt (Nat.lt_irrefl _)
    · exact hs

theorem accounts_create : Accounts LspState.create := by
  refine ⟨sound_create, ⟨_, located_create, fun _ h => absurd rfl h⟩,
    fun T b hb => ?_, ?_, ?_, ?_, ?_⟩
  · cases hb
  · rintro op o ⟨hop, -⟩
    cases hop
  · intro a si hget
    cases hget
  · rintro op o si ⟨hop, -⟩
    cases hop
  · intro a si hget
    cases hget

/-! ## Runs -/

/-- The structures taken for a context and not put back. -/
def takenFor (t : LspState) (a : Addr) (serial : ℕ) : Set OpId :=
  {op | ∃ o, t.ops op = some o ∧ o.sockInfo = a ∧ o.serial = serial}

/-- Those that a thread is about to put back: `CheckForContextCleanup` has
counted down and has still to unlock the context. -/
def beingPutBack (t : LspState) : Set OpId :=
  {op | ∃ T a held, t.threads T = .cleanupUnlock op a held}

/-- The operation is queued, at the lower provider or with a thread. -/
def InFlight (t : LspState) (op : OpId) : Prop :=
  op ∈ t.pending ∨ op ∈ t.atLower ∨
    ∃ T stage, (t.threads T).work = some (op, stage)

theorem work_eq_accounted {pc : Pc} :
    pc.work = some (op, .accounted) ↔ ∃ a held, pc = .cleanupUnlock op a held := by
  cases pc <;> simp [Pc.work]

theorem charged_eq_diff (t : LspState) (a : Addr) (serial : ℕ) :
    charged t a serial = takenFor t a serial \ beingPutBack t := by
  have hwork : ∀ op, (∀ T, t.custody.work T ≠ some (op, .accounted)) ↔ op ∉ beingPutBack t := by
    intro op
    constructor
    · rintro h ⟨T, hpc⟩
      exact h T (work_eq_accounted.mpr hpc)
    · intro h T hT
      exact h ⟨T, work_eq_accounted.mp hT⟩
  ext op
  constructor
  · rintro ⟨o, ⟨hop, hnot⟩, hits⟩
    exact ⟨⟨o, hop, hits⟩, (hwork op).mp hnot⟩
  · rintro ⟨⟨o, hop, hits⟩, hnot⟩
    exact ⟨o, ⟨hop, (hwork op).mpr hnot⟩, hits⟩

theorem inFlight_of_located {loc : OpId → Option Place} (hloc : Located t.custody loc)
    (htracked : Tracked t.custody loc) (hop : t.ops op = some o) : InFlight t op := by
  have hused : loc op ≠ none := htracked op fun hnone => by
    have hunused : t.ops op = none := hnone
    rw [hop] at hunused
    cases hunused
  obtain ⟨place, hplace⟩ := Option.ne_none_iff_exists'.mp hused
  cases place with
  | pending => exact Or.inl ((hloc.pending op).mpr hplace)
  | lower => exact Or.inr (Or.inl ((hloc.atLower op).mpr hplace))
  | thread T stage => exact Or.inr (Or.inr ⟨T, stage, (hloc.work T op stage).mpr hplace⟩)

theorem close_frees (hpc : t.threads T = .closing s a) (hget : t.heap a = some si)
    (hzero : si.dwOutstandingAsync = 0) (hone : si.refCount = 1) (henter : si.CanEnter T)
    (hopen : si.providerOpen = true) : ∃ u v, lspStep iocp t (.close T true) = some u ∧
      lspStep iocp u (.go T) = some v ∧ v.heap a = none := by
  let closed : LspState := wpuCloseSocketHandle (some s)
    (t.setInfo a (some { si with providerOpen := false }))
  refine ⟨closed.setPc T (.freeing a), freeClosed T a (closed.setPc T (.freeing a)), ?_, ?_, ?_⟩
  · simp [lspStep, hpc, closeSection, hget, henter, hopen, hzero, hone, closed]
  · simp [lspStep, go]
  · exact LspState.setInfo_heap_self _ a none

end MiscProjects.Lsp
