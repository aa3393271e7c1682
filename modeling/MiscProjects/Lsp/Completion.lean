import MiscProjects.Lsp.Lifetime
import MiscProjects.Lsp.Operations

/-!
# Every operation is reported once

An operation that has been answered with `WSA_IO_PENDING` is reported by the
thread that brings its completion, after it has looked the context of its
socket up again.  When the context has been freed in the meantime the structure
is put back and nothing is reported; when it is locked for good, or the accept
socket is gone, the thread never gets to the report.  But for these cases, and
for operations that the LSP answers and then loses, every one of them is
reported exactly once.
-/

namespace MiscProjects.Lsp

open MiscProjects.Runs

variable {iocp : Bool} {T : Thread} {t u : LspState} {action : Action}
  {op : OpId} {a : Addr}

/-! ## The condition -/

/-- The accounting section that a thread is going to enter. -/
def Pc.accounting : Pc → Option (OpId × Addr)
  | .account op a _ => some (op, a)
  | _ => none

/-- No thread waits for a `SockCritSec` that another one has left locked, or is
going to use the context of an accept socket that is gone. -/
def Unobstructed (t : LspState) : Prop :=
  ∀ r ∈ t.refs, ∀ x ∈ (t.threads r.thread).accounting,
    (∀ si ∈ t.heap x.2, si.CanEnter r.thread) ∧
      ∀ o ∈ t.ops x.1, ∀ s ∈ o.acceptSocket, t.handles s ≠ none

instance (t : LspState) : Decidable (Unobstructed t) :=
  inferInstanceAs (Decidable (∀ _ ∈ _, _))

/-- What is answered with `WSA_IO_PENDING` will complete, and a completed
operation finds the context of its socket. -/
def BringsReport (iocp : Bool) (t : LspState) : Action → Prop
  | .start T association result =>
      iocp = true → ∀ op ∈ (t.threads T).starting, ∀ o ∈ t.ops op,
        ∀ si ∈ t.heap o.sockInfo,
          (willComplete result (o.notified si association) = true →
            keepsStructure o.operation result = true) ∧
          (answersPending o.operation result (si.synchronous association) =
            true → willComplete result (o.notified si association) = true)
  | .dequeue _ result =>
      ∀ op ∈ t.pending.head?, ∀ o ∈ t.ops op,
        keepsStructure o.operation result = true ∧
          willComplete result (!o.operation.isExtension) = true
  | .go T =>
      ∀ op ∈ (t.threads T).completing, op ∈ t.answered →
        ∀ o ∈ t.ops op, t.handles o.callerSocket ≠ none
  | _ => True

instance (iocp : Bool) (t : LspState) (action : Action) :
    Decidable (BringsReport iocp t action) :=
  match action with
  | .start T association result =>
      inferInstanceAs (Decidable (iocp = true →
        ∀ op ∈ (t.threads T).starting, ∀ o ∈ t.ops op,
          ∀ si ∈ t.heap o.sockInfo,
            (willComplete result (o.notified si association) = true →
              keepsStructure o.operation result = true) ∧
            (answersPending o.operation result (si.synchronous association) =
              true → willComplete result (o.notified si association) = true)))
  | .dequeue _ result =>
      inferInstanceAs (Decidable (∀ op ∈ t.pending.head?, ∀ o ∈ t.ops op,
        keepsStructure o.operation result = true ∧
          willComplete result (!o.operation.isExtension) = true))
  | .go T =>
      inferInstanceAs (Decidable (∀ op ∈ (t.threads T).completing,
        op ∈ t.answered → ∀ o ∈ t.ops op, t.handles o.callerSocket ≠ none))
  | .socket .. | .call .. | .close .. | .take .. | .startInline ..
  | .complete .. => inferInstanceAs (Decidable True)

/-- The condition under which no operation is lost. -/
def KeepsReports (iocp : Bool) (t : LspState) (action : Action) : Prop :=
  Counted t action ∧ Unobstructed t ∧ BringsReport iocp t action

instance (iocp : Bool) (t : LspState) (action : Action) :
    Decidable (KeepsReports iocp t action) :=
  inferInstanceAs (Decidable (_ ∧ _))

/-- Nothing that has been answered with `WSA_IO_PENDING` slips. -/
def KeepsAnswered (answered : List OpId) : Slip → Prop
  | .dropped pending => pending = false
  | .lost => False
  | .rejected => False
  | .unreported op => op ∉ answered

theorem BringsReport.permits (h : BringsReport iocp t action) :
    Permits (KeepsAnswered t.answered) iocp t action := by
  cases action with
  | start T association result =>
      intro hport op hop o ho si hsi
      obtain ⟨hkeeps, hwill⟩ := h hport op hop o ho si hsi
      by_cases hcomes : willComplete result (o.notified si association) = true
      · rw [if_pos hcomes]
        exact hkeeps hcomes
      · rw [if_neg hcomes]
        intro _
        exact Bool.eq_false_iff.mpr fun hanswer => hcomes (hwill hanswer)
  | dequeue T result =>
      intro op hop o ho
      obtain ⟨hkeeps, hwill⟩ := h op hop o ho
      rw [if_pos hwill]
      exact hkeeps
  | go T =>
      exact fun op hop o ho hs hanswered => h op hop hanswered o ho hs
  | socket | call | close | take | startInline | complete => trivial

/-! ## Reports -/

/-- How often an operation has been reported. -/
def reportsOf (op : OpId) (reports : List Report) : ℕ :=
  reports.countP (·.op == op)

theorem reportsOf_append (op : OpId) (reports : List Report) (r : Report) :
    reportsOf op (reports ++ [r]) = reportsOf op reports + if r.op = op then 1 else 0 := by
  simp [reportsOf, List.countP_append, List.countP_cons]

/-- An operation in this place has still to be reported. -/
def Place.unreported : Place → Bool
  | .pending | .lower => true
  | .thread _ .starting | .thread _ .waiting => true
  | .thread _ .settled | .thread _ .accounted => false

/-- An operation has been reported once when it is in no place any more in
which it has still to be reported, unless its call has failed or has completed
it. -/
structure Reported (c : Custody) (loc : OpId → Option Place) : Prop where
  starting : ∀ op T, loc op = some (.thread T .starting) → op ∉ c.answered
  before : ∀ op place, loc op = some place → place.unreported = true →
    reportsOf op c.reports = 0
  after : ∀ op, (∀ place, loc op = some place → place.unreported = false) →
    reportsOf op c.reports ≤ 1 ∧
      (op ∈ c.answered → reportsOf op c.reports = 1)
  fresh : ∀ op, c.nextOp ≤ op →
    op ∉ c.answered ∧ reportsOf op c.reports = 0

section Reported
variable {c c' : Custody} {loc : OpId → Option Place} {m : Destination}

theorem Reported.move {place : Place} (h : Reported c loc) (hplace : place.unreported = true)
    (hzero : reportsOf op c.reports = 0)
    (hstart : ∀ T, place = .thread T .starting → op ∉ c'.answered) (hnext : c.nextOp ≤ c'.nextOp)
    (hknown : op < c'.nextOp) (hreports : c'.reports = c.reports)
    (hanswered : ∀ op', op' ≠ op → (op' ∈ c'.answered ↔ op' ∈ c.answered)) :
    Reported c' (relocate loc (some (op, some place))) := by
  refine ⟨fun op' T hloc => ?_, fun op' place' hloc hbefore => ?_,
    fun op' hafter => ?_, fun op' hle => ?_⟩
  all_goals by_cases hop : op' = op
  · subst hop
    simp only [relocate, Function.update_self, Option.some.injEq] at hloc
    exact hstart T hloc
  · simp only [relocate, Function.update_of_ne hop] at hloc
    rw [hanswered op' hop]
    exact h.starting op' T hloc
  · rw [hop, hreports]
    exact hzero
  · simp only [relocate, Function.update_of_ne hop] at hloc
    rw [hreports]
    exact h.before op' place' hloc hbefore
  · have hsettled := hafter place (by simp [relocate, hop])
    rw [hplace] at hsettled
    cases hsettled
  · simp only [relocate, Function.update_of_ne hop] at hafter
    rw [hreports, hanswered op' hop]
    exact h.after op' hafter
  · exact absurd (hop ▸ hle) (Nat.not_le_of_lt hknown)
  · rw [hreports, hanswered op' hop]
    exact h.fresh op' (Nat.le_trans hnext hle)

theorem Reported.leave {place : Option Place} (h : Reported c loc)
    (hplace : ∀ p, place = some p → p.unreported = false)
    (hone : reportsOf op c'.reports ≤ 1 ∧ (op ∈ c.answered → reportsOf op c'.reports = 1))
    (hnext : c'.nextOp = c.nextOp) (hknown : op < c.nextOp)
    (hreports : ∀ op', op' ≠ op → reportsOf op' c'.reports = reportsOf op' c.reports)
    (hanswered : c'.answered = c.answered) : Reported c' (relocate loc (some (op, place))) := by
  refine ⟨fun op' T hloc => ?_, fun op' place' hloc hbefore => ?_,
    fun op' hafter => ?_, fun op' hle => ?_⟩
  all_goals by_cases hop : op' = op
  · simp only [relocate, hop, Function.update_self] at hloc
    have hfalse := hplace _ hloc
    cases hfalse
  · simp only [relocate, Function.update_of_ne hop] at hloc
    rw [hanswered]
    exact h.starting op' T hloc
  · simp only [relocate, hop, Function.update_self] at hloc
    rw [hplace place' hloc] at hbefore
    cases hbefore
  · simp only [relocate, Function.update_of_ne hop] at hloc
    rw [hreports op' hop]
    exact h.before op' place' hloc hbefore
  · rw [hop, hanswered]
    exact hone
  · simp only [relocate, Function.update_of_ne hop] at hafter
    rw [hreports op' hop, hanswered]
    exact h.after op' hafter
  · exact absurd (hnext ▸ hop ▸ hle) (Nat.not_le_of_lt hknown)
  · rw [hreports op' hop, hanswered]
    exact h.fresh op' (hnext ▸ hle)

theorem Reported.step (h : Reported c loc) (hloc : Located c loc)
    (hstep : Custody.Step (KeepsAnswered c.answered) T c m c') : Reported c' (relocate loc m) := by
  have hlt : ∀ {op place}, loc op = some place → op < c.nextOp := by
    intro op place hplace
    by_contra hle
    rw [hloc.known op (Nat.le_of_not_lt hle)] at hplace
    cases hplace
  have hat : ∀ {op stage}, c.work T = some (op, stage) →
      loc op = some (.thread T stage) := fun hwork => (hloc.work _ _ _).mp hwork
  cases hstep with
  | stay => exact h
  | take o hfree =>
      obtain ⟨hanswered, hzero⟩ := h.fresh c.nextOp (Nat.le_refl _)
      exact h.move rfl hzero (fun _ _ => hanswered) (Nat.le_succ _)
        (Nat.lt_succ_self _) rfl fun _ _ => Iff.rfl
  | @queue op hwork =>
      exact h.move rfl (h.before op _ (hat hwork) rfl) (by simp) (Nat.le_refl _)
        (hlt (hat hwork)) rfl fun op' hne => by simp [Custody.setWork, hne]
  | @accept op pending hwork =>
      refine h.move rfl (h.before op _ (hat hwork) rfl) (by simp) (Nat.le_refl _)
        (hlt (hat hwork)) rfl fun op' hne => ?_
      cases pending <;> simp [Custody.setWork, hne]
  | @drop op pending hmay hwork =>
      obtain rfl : pending = false := hmay
      have hzero := h.before op _ (hat hwork) rfl
      refine h.leave (by simp) ⟨?_, fun hanswered => ?_⟩ rfl (hlt (hat hwork)) (fun _ _ => rfl) rfl
      · exact Nat.le_trans (Nat.le_of_eq hzero) (Nat.zero_le 1)
      · exact absurd hanswered (h.starting op T (hat hwork))
  | @refuse op hwork =>
      have hzero := h.before op _ (hat hwork) rfl
      refine h.leave (by simp [Place.unreported]) ⟨?_, fun hanswered => ?_⟩ rfl
        (hlt (hat hwork)) (fun _ _ => rfl) rfl
      · exact Nat.le_trans (Nat.le_of_eq hzero) (Nat.zero_le 1)
      · exact absurd hanswered (h.starting op T (hat hwork))
  | @inline op hwork =>
      exact h.move rfl (h.before op _ (hat hwork) rfl) (by simp) (Nat.le_refl _)
        (hlt (hat hwork)) rfl fun _ _ => Iff.rfl
  | @forward op rest hpending =>
      have hplace : loc op = some .pending := (hloc.pending op).mp (by simp [hpending])
      exact h.move rfl (h.before op _ hplace rfl) (by simp) (Nat.le_refl _)
        (hlt hplace) rfl fun _ _ => Iff.rfl
  | lose hmay hpending => exact hmay.elim
  | reject hmay hpending hfree => exact hmay.elim
  | @complete op hmem hfree =>
      have hplace : loc op = some .lower := (hloc.atLower op).mp hmem
      exact h.move rfl (h.before op _ hplace rfl) (by simp) (Nat.le_refl _)
        (hlt hplace) rfl fun _ _ => Iff.rfl
  | @report op byApc hwork =>
      have hzero := h.before op _ (hat hwork) rfl
      have hone : reportsOf op (c.reports ++ [⟨op, byApc⟩]) = 1 := by
        rw [reportsOf_append, hzero, if_pos rfl]
      refine h.leave (by simp [Place.unreported])
        ⟨Nat.le_of_eq hone, fun _ => hone⟩ rfl (hlt (hat hwork)) (fun op' hne => ?_) rfl
      have hne' : ¬ op = op' := fun heq => hne heq.symm
      exact (reportsOf_append op' c.reports ⟨op, byApc⟩).trans (by rw [if_neg hne']; rfl)
  | @account op hwork =>
      refine h.leave (by simp [Place.unreported]) (h.after op fun place hplace => ?_)
        rfl (hlt (hat hwork)) (fun _ _ => rfl) rfl
      rw [hat hwork, Option.some.injEq] at hplace
      exact hplace ▸ rfl
  | @forget op hmay hwork =>
      have hzero := h.before op _ (hat hwork) rfl
      refine h.leave (by simp) ⟨?_, fun hanswered => absurd hanswered hmay⟩ rfl
        (hlt (hat hwork)) (fun _ _ => rfl) rfl
      exact Nat.le_trans (Nat.le_of_eq hzero) (Nat.zero_le 1)
  | @putback op stage hstage hwork =>
      refine h.leave (by simp) (h.after op fun place hplace => ?_) rfl
        (hlt (hat hwork)) (fun _ _ => rfl) rfl
      rw [hat hwork, Option.some.injEq] at hplace
      rcases hstage with rfl | rfl <;> exact hplace ▸ rfl

theorem reported_create : Reported LspState.create.custody fun _ => none := by
  constructor <;> simp [LspState.custody, LspState.create, reportsOf]

end Reported

/-! ## Threads that bring a completion -/

/-- A thread with a completed operation can go on to the report, unless it
waits for a `SockCritSec` or its accept socket is gone. -/
theorem go_isSome_of_waiting (h : Sound t) {loc : OpId → Option Place}
    (hloc : Located t.custody loc) (hfree : Unobstructed t)
    (hwork : (t.threads T).work = some (op, .waiting)) : (go T t).isSome = true := by
  have hused : ∃ o, t.ops op = some o := by
    have hplace := (hloc.work T op .waiting).mp hwork
    exact Option.ne_none_iff_exists'.mp
      (hloc.inUse op (by rw [hplace]; exact Option.some_ne_none _))
  obtain ⟨o, hop⟩ := hused
  have hheap : ∀ {s a}, t.handles s = some a → ∃ si, t.heap a = some si := by
    intro s a hs
    obtain ⟨si, hget, -⟩ := (h.but T).handle s a hs
    exact ⟨si, hget⟩
  have hheld : ∀ {a rest}, (t.threads T).held = a :: rest →
      ∃ r ∈ t.refs, (r.thread = T ∧ r.addr = a) ∧ ∃ si, t.heap a = some si := by
    intro a rest hrest
    obtain ⟨r, hr, hthread, haddr⟩ := exists_ref_of_pos ((h.threads T).pos hrest)
    obtain ⟨si, hget, -⟩ := (h.but T).live r hr
    exact ⟨r, hr, ⟨hthread, haddr⟩, si, haddr ▸ hget⟩
  cases hpc : t.threads T with
  | routine op' ok held =>
      obtain rfl : op' = op := by simpa [hpc, Pc.work] using hwork
      cases hs : t.handles o.callerSocket with
      | none => simp [go, hpc, hop, lookup, findAndLockSocketContext, hs]
      | some a =>
          obtain ⟨si, hget⟩ := hheap hs
          simp [go, hpc, hop, lookup, findAndLockSocketContext, hs, hget]
  | account op' a held =>
      obtain rfl : op' = op := by simpa [hpc, Pc.work] using hwork
      obtain ⟨r, hr, ⟨hthread, -⟩, si, hget⟩ := hheld (a := a) (by rw [hpc]; rfl)
      obtain ⟨henter, haccept⟩ := hfree r hr (op', a) (by simp [hthread, hpc, Pc.accounting])
      have hcan : si.CanEnter T := hthread ▸ henter si hget
      cases hsocket : o.acceptSocket with
      | none => simp [go, hpc, accountSection, hop, hget, hcan, hsocket]
      | some s =>
          obtain ⟨b, hs⟩ := Option.ne_none_iff_exists'.mp (haccept o hop s hsocket)
          obtain ⟨other, hother⟩ := hheap hs
          have hadd : (t.addRef T b other).heap b =
              some { other with refCount := other.refCount + 1 } := t.setInfo_heap_self b _
          have hunlock : ∃ v, unlockSocketContext T b (t.addRef T b other) = some v := by
            simp only [unlockSocketContext, hadd]
            split <;> exact ⟨_, rfl⟩
          obtain ⟨v, hv⟩ := hunlock
          simp [go, hpc, accountSection, hop, hget, hcan, hsocket,
            findAndLockSocketContext, hs, hother, hv]
  | unlock op' a held =>
      obtain ⟨r, hr, -, si, hget⟩ := hheld (a := a) (by rw [hpc]; rfl)
      simp only [go, hpc, unlockSocketContext, hget]
      split <;> rfl
  | report op' held =>
      obtain rfl : op' = op := by simpa [hpc, Pc.work] using hwork
      simp [go, hpc, hop]
  | returning | setSockOpt | closing | freeing | acceptEx | take | start
  | cleanup | cleanupSection | cleanupUnlock =>
      simp [hpc, Pc.work] at hwork

/-! ## Runs -/

/-- The contexts are counted, every structure is in one place, and nothing is
reported twice or lost. -/
structure Completing (t : LspState) : Prop where
  sound : Sound t
  reported : ∃ loc, Located t.custody loc ∧ Reported t.custody loc

theorem Completing.step (h : Completing t) (hkeeps : KeepsReports iocp t action)
    (hstep : lspStep iocp t action = some u) : Completing u := by
  obtain ⟨hcounted, -, hbrings⟩ := hkeeps
  obtain ⟨loc, hloc, hreported⟩ := h.reported
  obtain ⟨T, m, hcustody⟩ := (StepTo.of_step hstep).custody hbrings.permits
  exact ⟨h.sound.step hcounted hstep, _, hloc.step hcustody, hreported.step hloc hcustody⟩

/-- The operation is queued, at the lower provider, or a thread brings its
completion; that thread can go on unless it is obstructed. -/
def OnItsWay (t : LspState) (op : OpId) : Prop :=
  op ∈ t.pending ∨ op ∈ t.atLower ∨
    ∃ T, (t.threads T).work = some (op, .waiting) ∧
      (Unobstructed t → (go T t).isSome = true)

end MiscProjects.Lsp
