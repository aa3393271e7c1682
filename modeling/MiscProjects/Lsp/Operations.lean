import Mathlib.Data.List.Nodup
import MiscProjects.Lsp.Steps

/-!
# The life of an overlapped operation

An overlapped structure that has been taken is in one place: in the queue of
the overlapped manager, at the lower provider or with a thread.  `Custody` is
all that this says about a state, and `Custody.Step` lists the moves: a
structure is taken, goes to the queue or to the lower provider, comes back with
its completion, is reported, accounted and put back.  A `Slip` is a move by
which an operation is lost sight of.  Every step of the LSP is a move, as long
as `ExecuteOverlappedOperation` puts no structure back for which there will be
a completion.
-/

namespace MiscProjects.Lsp

/-! ## Moves -/

/-- How far a thread is with an operation: it has still to start it, it brings
its completion and has still to report it, it has answered or reported it, or
`CheckForContextCleanup` has taken it off the count. -/
inductive Stage
  | starting
  | waiting
  | settled
  | accounted
deriving DecidableEq

/-- The operation that a thread is at work on. -/
def Pc.work : Pc → Option (OpId × Stage)
  | .start op _ => some (op, .starting)
  | .routine op _ _ => some (op, .waiting)
  | .account op _ _ => some (op, .waiting)
  | .unlock op _ _ => some (op, .waiting)
  | .report op _ => some (op, .waiting)
  | .cleanup op _ => some (op, .settled)
  | .cleanupSection op _ _ => some (op, .settled)
  | .cleanupUnlock op _ _ => some (op, .accounted)
  | _ => none

inductive Place
  | pending
  | lower
  | thread (T : Thread) (stage : Stage)
deriving DecidableEq

structure Custody where
  ops : OpId → Option Overlapped
  nextOp : OpId
  pending : List OpId
  atLower : List OpId
  answered : List OpId
  reports : List Report
  work : Thread → Option (OpId × Stage)

def LspState.custody (t : LspState) : Custody :=
  { ops := t.ops, nextOp := t.nextOp, pending := t.pending,
    atLower := t.atLower, answered := t.answered, reports := t.reports,
    work := fun T => (t.threads T).work }

/-- The thread turns to other work. -/
def Custody.setWork (c : Custody) (T : Thread) (work : Option (OpId × Stage)) :
    Custody :=
  { c with work := Function.update c.work T work }

/-- A structure is left in use and nothing will bring it back, from a call that
is answered with `WSA_IO_PENDING` or not, or from the queue; an operation of
the queue fails at once; a completed one is put back unreported. -/
inductive Slip
  | dropped (answered : Bool)
  | lost
  | rejected
  | unreported (op : OpId)

/-- Where a move takes a structure to, if it moves one. -/
abbrev Destination := Option (OpId × Option Place)

/-- A move of one structure, by the thread `T`. -/
inductive Custody.Step (may : Slip → Prop) (T : Thread) (c : Custody) :
    Destination → Custody → Prop
  | stay : Custody.Step may T c none c
  | take (o : Overlapped) (hfree : c.work T = none) :
      Custody.Step may T c (some (c.nextOp, some (.thread T .starting)))
        (({ c with
          ops := Function.update c.ops c.nextOp (some o),
          nextOp := c.nextOp + 1 } : Custody).setWork T
            (some (c.nextOp, .starting)))
  | queue {op : OpId} (hwork : c.work T = some (op, .starting)) :
      Custody.Step may T c (some (op, some .pending))
        (({ c with
          pending := c.pending ++ [op],
          answered := c.answered ++ [op] } : Custody).setWork T none)
  | accept {op : OpId} (pending : Bool)
      (hwork : c.work T = some (op, .starting)) :
      Custody.Step may T c (some (op, some .lower))
        (({ c with
          atLower := c.atLower ++ [op],
          answered := if pending then c.answered ++ [op]
            else c.answered } : Custody).setWork T none)
  | drop {op : OpId} (pending : Bool) (hmay : may (.dropped pending))
      (hwork : c.work T = some (op, .starting)) :
      Custody.Step may T c (some (op, none))
        (({ c with
          answered := if pending then c.answered ++ [op]
            else c.answered } : Custody).setWork T none)
  /-- The call fails at once. -/
  | refuse {op : OpId} (hwork : c.work T = some (op, .starting)) :
      Custody.Step may T c (some (op, some (.thread T .settled)))
        (c.setWork T (some (op, .settled)))
  /-- The call completes the operation itself. -/
  | inline {op : OpId} (hwork : c.work T = some (op, .starting)) :
      Custody.Step may T c (some (op, some (.thread T .waiting)))
        (c.setWork T (some (op, .waiting)))
  | forward {op : OpId} {rest : List OpId} (hpending : c.pending = op :: rest) :
      Custody.Step may T c (some (op, some .lower))
        { c with pending := rest, atLower := c.atLower ++ [op] }
  | lose {op : OpId} {rest : List OpId} (hmay : may .lost)
      (hpending : c.pending = op :: rest) :
      Custody.Step may T c (some (op, none)) { c with pending := rest }
  | reject {op : OpId} {rest : List OpId} (hmay : may .rejected)
      (hpending : c.pending = op :: rest) (hfree : c.work T = none) :
      Custody.Step may T c (some (op, some (.thread T .settled)))
        (({ c with pending := rest } : Custody).setWork T (some (op, .settled)))
  | complete {op : OpId} (hmem : op ∈ c.atLower) (hfree : c.work T = none) :
      Custody.Step may T c (some (op, some (.thread T .waiting)))
        (({ c with atLower := c.atLower.erase op } : Custody).setWork T
          (some (op, .waiting)))
  | report {op : OpId} (byApc : Bool) (hwork : c.work T = some (op, .waiting)) :
      Custody.Step may T c (some (op, some (.thread T .settled)))
        (({ c with
          reports := c.reports ++ [⟨op, byApc⟩] } : Custody).setWork T
            (some (op, .settled)))
  | account {op : OpId} (hwork : c.work T = some (op, .settled)) :
      Custody.Step may T c (some (op, some (.thread T .accounted)))
        (c.setWork T (some (op, .accounted)))
  | forget {op : OpId} (hmay : may (.unreported op))
      (hwork : c.work T = some (op, .waiting)) :
      Custody.Step may T c (some (op, none))
        (({ c with
          ops := Function.update c.ops op none } : Custody).setWork T none)
  | putback {op : OpId} {stage : Stage}
      (hstage : stage = .settled ∨ stage = .accounted)
      (hwork : c.work T = some (op, stage)) :
      Custody.Step may T c (some (op, none))
        (({ c with
          ops := Function.update c.ops op none } : Custody).setWork T none)

/-! ## The LSP makes these moves -/

section Projection
variable {t u : LspState} {T : Thread} {a : Addr}

theorem custody_setPc (t : LspState) (T : Thread) (pc : Pc) :
    (t.setPc T pc).custody = t.custody.setWork T pc.work := by
  simp only [LspState.custody, LspState.setPc, Custody.setWork, Custody.mk.injEq, true_and]
  funext T'
  by_cases hT : T' = T
  · subst hT
    simp
  · simp [hT]

theorem setWork_self {c : Custody} {work : Option (OpId × Stage)}
    (h : c.work T = work) : c.setWork T work = c := by
  simp [Custody.setWork, ← h]

@[simp]
theorem custody_setInfo (t : LspState) (a : Addr) (si : Option SockInfo) :
    (t.setInfo a si).custody = t.custody :=
  rfl

@[simp]
theorem custody_addRef (t : LspState) (T : Thread) (a : Addr) (si : SockInfo) :
    (t.addRef T a si).custody = t.custody :=
  rfl

@[simp]
theorem custody_release (t : LspState) (T : Thread) (a : Addr) :
    (release T a t).custody = t.custody :=
  rfl

@[simp]
theorem custody_wpuCloseSocketHandle (s : Option Socket) (t : LspState) :
    (wpuCloseSocketHandle s t).custody = t.custody := by
  cases s <;> rfl

theorem Unlocked.custody_eq (h : Unlocked T a t u) : u.custody = t.custody := by
  cases h with
  | kept hget => simp
  | freed hget hlast hclosing => simp

theorem custody_setPc_same {v : LspState} {pc pc' : Pc}
    (hv : v.custody = t.custody) (hpc : t.threads T = pc)
    (hsame : pc.work = pc'.work) : (v.setPc T pc').custody = t.custody := by
  have hwork : t.custody.work T = pc.work := congrArg Pc.work hpc
  rw [custody_setPc, hv]
  exact setWork_self (hwork.trans hsame)

theorem custody_putback (op : OpId) (held : List Addr) :
    (putbackOverlappedStructure T op held t).custody = ({ t.custody with
        ops := Function.update t.ops op none } : Custody).setWork T none :=
  custody_setPc _ T _

theorem keepsStructure_of_answersPending {operation : Operation} {result : LowerResult}
    {bSynchronous : Bool} (h : answersPending operation result bSynchronous = true) :
    keepsStructure operation result = true := by
  simp only [answersPending, keepsStructure, Bool.or_eq_true, Bool.and_eq_true] at h ⊢
  exact h.elim Or.inr fun hboth => Or.inl hboth.1

end Projection

/-- The operation that a thread is going to start. -/
def Pc.starting : Pc → Option OpId
  | .start op _ => some op
  | _ => none

/-- The completed operation whose socket a thread is going to look up. -/
def Pc.completing : Pc → Option OpId
  | .routine op _ _ => some op
  | _ => none

/-- No structure is put back for which there will be a completion, and the
slips of a step are among those that may happen. -/
def Permits (may : Slip → Prop) (iocp : Bool) (t : LspState) : Action → Prop
  | .start T association result =>
      iocp = true → ∀ op ∈ (t.threads T).starting, ∀ o ∈ t.ops op,
        ∀ si ∈ t.heap o.sockInfo,
          if willComplete result (o.notified si association) then
            keepsStructure o.operation result = true
          else keepsStructure o.operation result = true →
            may (.dropped (answersPending o.operation result
              (si.synchronous association)))
  | .dequeue _ result =>
      ∀ op ∈ t.pending.head?, ∀ o ∈ t.ops op,
        if willComplete result (!o.operation.isExtension) then
          keepsStructure o.operation result = true
        else if keepsStructure o.operation result then may .lost
        else may .rejected
  | .go T =>
      ∀ op ∈ (t.threads T).completing, ∀ o ∈ t.ops op,
        t.handles o.callerSocket = none → may (.unreported op)
  | _ => True

theorem StepTo.custody {may : Slip → Prop} {iocp : Bool} {t u : LspState} {action : Action}
    (hstep : StepTo iocp t action u) (hmay : Permits may iocp t action) :
    ∃ T m, Custody.Step may T t.custody m u.custody := by
  have hwork : ∀ {T pc}, t.threads T = pc → t.custody.work T = pc.work :=
    fun hpc => congrArg Pc.work hpc
  have hstay : ∀ {v : LspState} {T : Thread} {pc pc' : Pc},
      v.custody = t.custody → t.threads T = pc → pc.work = pc'.work →
        ∃ T' m, Custody.Step may T' t.custody m (v.setPc T pc').custody :=
    fun {_ T _ _} hv hpc hsame => ⟨T, none, custody_setPc_same hv hpc hsame ▸ .stay⟩
  cases hstep with
  | socket hs ha => exact ⟨0, none, .stay⟩
  | callMissing hpc hs => exact ⟨0, none, .stay⟩
  | @call T entry a si hpc hs hget =>
      exact hstay (custody_addRef ..) hpc (by cases entry <;> rfl)
  | closeLeft bClosing providerOpen hpc hget hunlock
  | accountAccept hpc hop haccept hs hget hunlock =>
      exact hstay (by rw [hunlock.custody_eq]; rfl) hpc rfl
  | close hpc hget hnone hone => exact hstay (by simp) hpc rfl
  | free hpc => exact hstay (by simp) hpc rfl
  | @take T s a operation completionRoutine others si hpc hget =>
      rw [custody_setPc]
      exact ⟨T, _, .take _ (hwork hpc)⟩
  | takeNone hpc hget => exact hstay (custody_setInfo ..) hpc rfl
  | @start T association result op held o si hpc hop hget hport =>
      have hstart := hmay hport op (by simp [hpc, Pc.starting]) o hop si hget
      rw [custody_setPc, afterExecute]
      by_cases hkeeps : keepsStructure o.operation result = true
      · rw [if_pos hkeeps]
        by_cases hwill : willComplete result (o.notified si association) = true
        · rw [hwill]
          exact ⟨T, _, .accept _ (hwork hpc)⟩
        · rw [if_neg hwill] at hstart
          rw [Bool.not_eq_true] at hwill
          rw [hwill]
          exact ⟨T, _, .drop _ (hstart hkeeps) (hwork hpc)⟩
      · have hwill : willComplete result (o.notified si association) = false := by
          by_contra hwill
          rw [Bool.not_eq_false] at hwill
          rw [if_pos hwill] at hstart
          exact hkeeps hstart
        have hanswer : answersPending o.operation result (si.synchronous association) = false := by
          by_contra hanswer
          rw [Bool.not_eq_false] at hanswer
          exact hkeeps (keepsStructure_of_answersPending hanswer)
        rw [if_neg hkeeps, hwill, hanswer]
        exact ⟨T, _, .refuse (hwork hpc)⟩
  | @startQueue T association result op held o hpc hop hport =>
      rw [custody_setPc]
      exact ⟨T, _, .queue (hwork hpc)⟩
  | @startInline T op held hpc =>
      rw [custody_setPc]
      exact ⟨T, _, .inline (hwork hpc)⟩
  | @dequeue T result op rest o hpc hpending hop =>
      have hdequeue := hmay op (by simp [hpending]) o hop
      have hidle : t.custody.work T = none := hwork hpc
      rw [custody_setPc, afterExecute]
      by_cases hkeeps : keepsStructure o.operation result = true
      · rw [if_pos hkeeps]
        by_cases hwill : willComplete result (!o.operation.isExtension) = true
        · have hforward : Custody.Step may T t.custody _
              { t.custody with pending := rest, atLower := t.atLower ++ [op] } := .forward hpending
          rw [hwill, setWork_self]
          · exact ⟨T, _, hforward⟩
          · exact hidle
        · rw [if_neg hwill, if_pos hkeeps] at hdequeue
          have hlose : Custody.Step may T t.custody _ { t.custody with pending := rest } :=
            .lose hdequeue hpending
          rw [Bool.not_eq_true] at hwill
          rw [hwill, setWork_self]
          · exact ⟨T, _, hlose⟩
          · exact hidle
      · have hwill : willComplete result (!o.operation.isExtension) = false := by
          by_contra hwill
          rw [Bool.not_eq_false] at hwill
          rw [if_pos hwill] at hdequeue
          exact hkeeps hdequeue
        rw [hwill, if_neg (by simp), if_neg hkeeps] at hdequeue
        rw [if_neg hkeeps, hwill]
        exact ⟨T, _, .reject hdequeue hpending hidle⟩
  | @complete T op ok hpc hmem =>
      rw [custody_setPc]
      exact ⟨T, _, .complete hmem (hwork hpc)⟩
  | unlock hpc hunlock => exact hstay hunlock.custody_eq hpc rfl
  | unlockReport hpc hunlock => exact hstay hunlock.custody_eq hpc rfl
  | setSockOptMissing hpc hs | acceptExMissing hpc hs | account hpc hop haccept =>
      exact hstay rfl hpc rfl
  | setSockOpt hpc hs hget => exact hstay (custody_addRef ..) hpc rfl
  | cleanup hpc hop hs hget => exact hstay (custody_addRef ..) hpc rfl
  | @acceptEx T s a b sAcceptSocket hasOverlapped si hpc hs hget =>
      exact hstay (custody_addRef ..) hpc (by cases hasOverlapped <;> rfl)
  | @routineMissing T op ok held o hpc hop hs =>
      have hforget := hmay op (by simp [hpc, Pc.completing]) o hop hs
      rw [custody_putback]
      exact ⟨T, _, .forget hforget (hwork hpc)⟩
  | @routine T op ok held o a si hpc hop hs hget =>
      exact hstay (custody_addRef ..) hpc (by cases ok <;> rfl)
  | @report T op held o hpc hop =>
      rw [custody_setPc]
      exact ⟨T, _, .report _ (hwork hpc)⟩
  | @cleanupMissing T op held o hpc hop hs
  | @cleanupFrees T op a held o si hpc hop hget hclosing hlast hone =>
      rw [custody_putback]
      exact ⟨T, _, .putback (Or.inl rfl) (hwork hpc)⟩
  | @cleanupCounts T op a held o si lockedBy hpc hop hget =>
      rw [custody_setPc]
      exact ⟨T, _, .account (hwork hpc)⟩
  | @putback T op a held v hpc hunlock =>
      have hops : v.ops = t.ops := congrArg Custody.ops hunlock.custody_eq
      rw [custody_putback, hunlock.custody_eq, hops]
      exact ⟨T, _, .putback (Or.inr rfl) (hwork hpc)⟩

/-! ## A structure is in one place -/

/-- Where the structures are after a move. -/
def relocate (loc : OpId → Option Place) : Destination → OpId → Option Place
  | none => loc
  | some (op, place) => Function.update loc op place

/-- A structure that has a place is in use, and `loc` tells the one place. -/
structure Located (c : Custody) (loc : OpId → Option Place) : Prop where
  inUse : ∀ op, loc op ≠ none → c.ops op ≠ none
  known : ∀ op, c.nextOp ≤ op → loc op = none
  pending : ∀ op, op ∈ c.pending ↔ loc op = some .pending
  atLower : ∀ op, op ∈ c.atLower ↔ loc op = some .lower
  nodup : c.pending.Nodup ∧ c.atLower.Nodup
  work : ∀ T op stage,
    c.work T = some (op, stage) ↔ loc op = some (.thread T stage)

/-- Every structure in use has a place. -/
def Tracked (c : Custody) (loc : OpId → Option Place) : Prop :=
  ∀ op, c.ops op ≠ none → loc op ≠ none

section Located
variable {may : Slip → Prop} {c c' : Custody} {loc : OpId → Option Place}
  {T : Thread} {m : Destination}

/-- The members of a list after the structure `op` has come to it or gone from it, or neither. -/
def Moves (op : OpId) (there : Prop) (l l' : List OpId) : Prop :=
  (∀ op', op' ≠ op → (op' ∈ l' ↔ op' ∈ l)) ∧ (op ∈ l' ↔ there)

section Moves
variable {op : OpId} {there : Prop} {l : List OpId}

theorem moves_none (hnot : op ∉ l) (hthere : ¬there) : Moves op there l l :=
  ⟨fun _ _ => Iff.rfl, iff_of_false hnot hthere⟩

theorem moves_append (hthere : there) : Moves op there l (l ++ [op]) := by
  constructor
  · intro op' hne
    rw [List.mem_append, List.mem_singleton]
    exact or_iff_left hne
  · exact iff_of_true (List.mem_append_right _ (List.mem_singleton_self op)) hthere

theorem moves_tail (hnodup : (op :: l).Nodup) (hthere : ¬there) : Moves op there (op :: l) l := by
  constructor
  · intro op' hne
    rw [List.mem_cons]
    exact (or_iff_right hne).symm
  · exact iff_of_false (List.nodup_cons.mp hnodup).1 hthere

theorem moves_erase (hnodup : l.Nodup) (hthere : ¬there) : Moves op there l (l.erase op) := by
  constructor
  · intro op' hne
    exact List.mem_erase_of_ne hne
  · exact iff_of_false hnodup.not_mem_erase hthere

end Moves

variable {place : Option Place} {stage : Stage} {work : Option (OpId × Stage)} {op : OpId}

theorem Located.moved (h : Located c loc)
    (hops : ∀ op', op' ≠ op → c'.ops op' = c.ops op') (hinUse : place ≠ none → c'.ops op ≠ none)
    (hnext : c.nextOp ≤ c'.nextOp) (hknown : place ≠ none → op < c'.nextOp)
    (hpending : Moves op (place = some .pending) c.pending c'.pending)
    (hlower : Moves op (place = some .lower) c.atLower c'.atLower)
    (hnodup : c'.pending.Nodup ∧ c'.atLower.Nodup)
    (hwork : ∀ T op' stage, c'.work T = some (op', stage) ↔
      if op' = op then place = some (.thread T stage) else c.work T = some (op', stage)) :
    Located c' (Function.update loc op place) := by
  constructor
  case inUse =>
    intro op' hplace
    by_cases hop : op' = op
    · subst hop
      rw [Function.update_self] at hplace
      exact hinUse hplace
    · rw [Function.update_of_ne hop] at hplace
      rw [hops op' hop]
      exact h.inUse op' hplace
  case known =>
    intro op' hle
    by_cases hop : op' = op
    · subst hop
      rw [Function.update_self]
      by_contra hplace
      exact absurd (hknown hplace) (Nat.not_lt.mpr hle)
    · rw [Function.update_of_ne hop]
      exact h.known op' (Nat.le_trans hnext hle)
  case pending =>
    intro op'
    by_cases hop : op' = op
    · subst hop
      rw [Function.update_self]
      exact hpending.2
    · rw [Function.update_of_ne hop]
      exact (hpending.1 op' hop).trans (h.pending op')
  case atLower =>
    intro op'
    by_cases hop : op' = op
    · subst hop
      rw [Function.update_self]
      exact hlower.2
    · rw [Function.update_of_ne hop]
      exact (hlower.1 op' hop).trans (h.atLower op')
  case nodup => exact hnodup
  case work =>
    intro T op' stage
    rw [hwork T op' stage]
    by_cases hop : op' = op
    · subst hop
      rw [if_pos rfl, Function.update_self]
    · rw [if_neg hop, Function.update_of_ne hop]
      exact h.work T op' stage

/-- A structure that is with a thread is in use, and in none of the lists. -/
structure AtWork (c : Custody) (T : Thread) (op : OpId) : Prop where
  inUse : c.ops op ≠ none
  known : op < c.nextOp
  pending : op ∉ c.pending
  lower : op ∉ c.atLower
  sole : ∀ T' stage, c.work T' = some (op, stage) → T' = T

theorem Located.atWork (h : Located c loc)
    (hwork : c.work T = some (op, stage)) : AtWork c T op := by
  have hplace := (h.work T op stage).mp hwork
  have hsome : loc op ≠ none := by
    rw [hplace]
    exact Option.some_ne_none _
  constructor
  case inUse => exact h.inUse op hsome
  case known => exact Nat.lt_of_not_le fun hle => hsome (h.known op hle)
  case pending =>
    rw [h.pending, hplace]
    exact fun heq => Place.noConfusion (Option.some.inj heq)
  case lower =>
    rw [h.atLower, hplace]
    exact fun heq => Place.noConfusion (Option.some.inj heq)
  case sole =>
    intro T' stage' hwork'
    have hplace' := (h.work T' op stage').mp hwork'
    rw [hplace] at hplace'
    exact (Place.thread.inj (Option.some.inj hplace')).1.symm

theorem work_setWork (hsole : ∀ T' stage, c.work T' = some (op, stage) → T' = T)
    (hown : ∀ op' stage, c.work T = some (op', stage) → op' = op)
    (hplace : ∀ T' stage, place = some (.thread T' stage) ↔ T' = T ∧ work = some (op, stage))
    (hwork : ∀ op' stage, work = some (op', stage) → op' = op) :
    ∀ T' op' stage, (c.setWork T work).work T' = some (op', stage) ↔
      if op' = op then place = some (.thread T' stage) else c.work T' = some (op', stage) := by
  intro T' op' stage
  unfold Custody.setWork
  dsimp only
  by_cases hT : T' = T
  · subst hT
    rw [Function.update_self]
    by_cases hop : op' = op
    · subst hop
      rw [if_pos rfl, hplace]
      exact (and_iff_right rfl).symm
    · rw [if_neg hop]
      exact iff_of_false (mt (hwork op' stage) hop) (mt (hown op' stage) hop)
  · rw [Function.update_of_ne hT]
    by_cases hop : op' = op
    · subst hop
      rw [if_pos rfl, hplace]
      exact iff_of_false (mt (hsole T' stage) hT) fun hthread => hT hthread.1
    · rw [if_neg hop]

theorem work_same (hnone : ∀ T stage, c.work T ≠ some (op, stage))
    (hplace : ∀ T stage, place ≠ some (.thread T stage)) :
    ∀ T op' stage, c.work T = some (op', stage) ↔
      if op' = op then place = some (.thread T stage) else c.work T = some (op', stage) := by
  intro T op' stage
  by_cases hop : op' = op
  · subst hop
    rw [if_pos rfl]
    exact iff_of_false (hnone T stage) (hplace T stage)
  · rw [if_neg hop]

theorem Located.worked (h : Located c loc) (hwork : c.work T = some (op, stage))
    (hplace : ∀ T' stage, place = some (.thread T' stage) ↔ T' = T ∧ work = some (op, stage))
    (hown : ∀ op' stage, work = some (op', stage) → op' = op)
    (hops : ∀ op', op' ≠ op → c'.ops op' = c.ops op') (hinUse : place ≠ none → c'.ops op = c.ops op)
    (hnext : c'.nextOp = c.nextOp) (hpending : c'.pending = c.pending ∧ place ≠ some .pending ∨
      c'.pending = c.pending ++ [op] ∧ place = some .pending)
    (hlower : c'.atLower = c.atLower ∧ place ≠ some .lower ∨
      c'.atLower = c.atLower ++ [op] ∧ place = some .lower)
    (hset : c'.work = (c.setWork T work).work) : Located c' (Function.update loc op place) := by
  have hat := h.atWork hwork
  refine h.moved hops ?_ (Nat.le_of_eq hnext.symm) ?_ ?_ ?_ ⟨?_, ?_⟩ ?_
  · intro hne
    rw [hinUse hne]
    exact hat.inUse
  · intro _
    rw [hnext]
    exact hat.known
  · rcases hpending with ⟨hsame, hne⟩ | ⟨hadded, heq⟩
    · rw [hsame]
      exact moves_none hat.pending hne
    · rw [hadded]
      exact moves_append heq
  · rcases hlower with ⟨hsame, hne⟩ | ⟨hadded, heq⟩
    · rw [hsame]
      exact moves_none hat.lower hne
    · rw [hadded]
      exact moves_append heq
  · rcases hpending with ⟨hsame, -⟩ | ⟨hadded, -⟩
    · rw [hsame]
      exact h.nodup.1
    · rw [hadded, ← List.concat_eq_append]
      exact h.nodup.1.concat hat.pending
  · rcases hlower with ⟨hsame, -⟩ | ⟨hadded, -⟩
    · rw [hsame]
      exact h.nodup.2
    · rw [hadded, ← List.concat_eq_append]
      exact h.nodup.2.concat hat.lower
  · rw [hset]
    refine work_setWork hat.sole ?_ hplace hown
    intro op' stage' hwork'
    rw [hwork] at hwork'
    exact (congrArg Prod.fst (Option.some.inj hwork')).symm

theorem thread_iff (T' : Thread) (stage' : Stage) :
    some (Place.thread T stage) = some (.thread T' stage') ↔
      T' = T ∧ some (op, stage) = some (op, stage') := by
  simp [eq_comm]

theorem Located.not_work (h : Located c loc) (hloc : ∀ T stage, loc op ≠ some (.thread T stage))
    (T : Thread) (stage : Stage) : c.work T ≠ some (op, stage) :=
  fun hwork => hloc T stage ((h.work T op stage).mp hwork)

theorem Located.takenUp (h : Located c loc) (hfree : c.work T = none)
    (hloc : ∀ T' stage', loc op ≠ some (.thread T' stage')) :
    ∀ T' op' stage', (c.setWork T (some (op, stage))).work T' = some (op', stage') ↔
      if op' = op then some (Place.thread T stage) = some (.thread T' stage')
      else c.work T' = some (op', stage') := by
  refine work_setWork ?_ ?_ thread_iff ?_
  · intro T' stage' hwork
    exact absurd hwork (h.not_work hloc T' stage')
  · intro op' stage' hwork
    rw [hfree] at hwork
    cases hwork
  · intro op' stage' hwork
    exact (congrArg Prod.fst (Option.some.inj hwork)).symm

theorem Located.head (h : Located c loc) {rest : List OpId} (hpending : c.pending = op :: rest) :
    loc op = some .pending ∧ c.ops op ≠ none ∧ op < c.nextOp ∧ op ∉ c.atLower ∧ rest.Nodup := by
  have hloc : loc op = some .pending := by
    rw [← h.pending, hpending]
    exact List.mem_cons_self
  have hsome : loc op ≠ none := by
    rw [hloc]
    exact Option.some_ne_none _
  have hnodup := h.nodup.1
  rw [hpending, List.nodup_cons] at hnodup
  refine ⟨hloc, h.inUse op hsome, Nat.lt_of_not_le fun hle => hsome (h.known op hle), ?_, hnodup.2⟩
  rw [h.atLower, hloc]
  exact fun heq => Place.noConfusion (Option.some.inj heq)

theorem Located.step (h : Located c loc) (hstep : Custody.Step may T c m c') :
    Located c' (relocate loc m) := by
  cases hstep with
  | stay => exact h
  | take o hfree =>
      have hloc := h.known c.nextOp (Nat.le_refl _)
      have hnot : ∀ place, loc c.nextOp ≠ some place := fun place heq => by
        rw [hloc] at heq
        cases heq
      refine h.moved (fun op' hne => Function.update_of_ne hne _ _) (fun _ => ?_) (Nat.le_succ _)
        (fun _ => Nat.lt_succ_self _) (moves_none ?_ (by simp)) (moves_none ?_ (by simp)) h.nodup
        (h.takenUp hfree fun _ _ => hnot _)
      · exact (Function.update_self c.nextOp (some o) c.ops).trans_ne (Option.some_ne_none o)
      · rw [h.pending]
        exact hnot _
      · rw [h.atLower]
        exact hnot _
  | @queue op hwork =>
      exact h.worked hwork (by simp) (by simp) (fun _ _ => rfl) (fun _ => rfl) rfl
        (.inr ⟨rfl, rfl⟩) (.inl ⟨rfl, by simp⟩) rfl
  | @accept op pending hwork =>
      exact h.worked hwork (by simp) (by simp) (fun _ _ => rfl) (fun _ => rfl) rfl
        (.inl ⟨rfl, by simp⟩) (.inr ⟨rfl, rfl⟩) rfl
  | @drop op pending hmay hwork =>
      exact h.worked hwork (by simp) (by simp) (fun _ _ => rfl) (fun _ => rfl) rfl
        (.inl ⟨rfl, by simp⟩) (.inl ⟨rfl, by simp⟩) rfl
  | @refuse op hwork | @inline op hwork | @report op byApc hwork | @account op hwork =>
      exact h.worked hwork thread_iff (by simp [eq_comm]) (fun _ _ => rfl) (fun _ => rfl) rfl
        (.inl ⟨rfl, by simp⟩) (.inl ⟨rfl, by simp⟩) rfl
  | @forget op hmay hwork | @putback op stage hstage hwork =>
      exact h.worked hwork (by simp) (by simp)
        (fun op' hne => Function.update_of_ne hne _ _) (fun hne => absurd rfl hne) rfl
        (.inl ⟨rfl, by simp⟩) (.inl ⟨rfl, by simp⟩) rfl
  | @forward op rest hpending =>
      obtain ⟨hloc, hinUse, hknown, hlower, hnodup⟩ := h.head hpending
      have hwork : ∀ T stage, c.work T ≠ some (op, stage) :=
        h.not_work fun T stage => by simp [hloc]
      refine h.moved (fun _ _ => rfl) (fun _ => hinUse) (Nat.le_refl _) (fun _ => hknown) ?_
        (moves_append rfl) ⟨hnodup, ?_⟩ (work_same hwork (by simp))
      · rw [hpending]
        exact moves_tail (hpending ▸ h.nodup.1) (by simp)
      · rw [← List.concat_eq_append]
        exact h.nodup.2.concat hlower
  | @lose op rest hmay hpending =>
      obtain ⟨hloc, hinUse, hknown, hlower, hnodup⟩ := h.head hpending
      have hwork : ∀ T stage, c.work T ≠ some (op, stage) :=
        h.not_work fun T stage => by simp [hloc]
      refine h.moved (fun _ _ => rfl) (fun _ => hinUse) (Nat.le_refl _) (fun _ => hknown) ?_
        (moves_none hlower (by simp)) ⟨hnodup, h.nodup.2⟩ (work_same hwork (by simp))
      rw [hpending]
      exact moves_tail (hpending ▸ h.nodup.1) (by simp)
  | @reject op rest hmay hpending hfree =>
      obtain ⟨hloc, hinUse, hknown, hlower, hnodup⟩ := h.head hpending
      refine h.moved (fun _ _ => rfl) (fun _ => hinUse) (Nat.le_refl _) (fun _ => hknown) ?_
        (moves_none hlower (by simp)) ⟨hnodup, h.nodup.2⟩
        (h.takenUp hfree fun T stage => by simp [hloc])
      rw [hpending]
      exact moves_tail (hpending ▸ h.nodup.1) (by simp)
  | @complete op hmem hfree =>
      have hloc := (h.atLower op).mp hmem
      have hsome : loc op ≠ none := by
        rw [hloc]
        exact Option.some_ne_none _
      refine h.moved (fun _ _ => rfl) (fun _ => h.inUse op hsome) (Nat.le_refl _)
        (fun _ => Nat.lt_of_not_le fun hle => hsome (h.known op hle))
        (moves_none ?_ (by simp)) (moves_erase h.nodup.2 (by simp))
        ⟨h.nodup.1, h.nodup.2.erase op⟩ (h.takenUp hfree fun T stage => by simp [hloc])
      rw [h.pending, hloc]
      exact fun heq => Place.noConfusion (Option.some.inj heq)

theorem Tracked.step (h : Tracked c loc) (hdrop : ∀ b, ¬ may (.dropped b)) (hlose : ¬ may .lost)
    (hstep : Custody.Step may T c m c') : Tracked c' (relocate loc m) := by
  cases hstep with
  | stay => exact h
  | drop pending hmay hwork => exact absurd hmay (hdrop pending)
  | lose hmay hpending => exact absurd hmay hlose
  | @forget op hmay hwork | @putback op stage hstage hwork =>
      intro op' hop
      by_cases hne : op' = op
      · subst hne
        simp [Custody.setWork] at hop
      · simp only [Custody.setWork, Function.update_of_ne hne] at hop
        simpa only [relocate, Function.update_of_ne hne] using h op' hop
  | take o hfree =>
      intro op' hop
      by_cases hne : op' = c.nextOp
      · subst hne
        simp [relocate]
      · simp only [Custody.setWork, Function.update_of_ne hne] at hop
        simpa only [relocate, Function.update_of_ne hne] using h op' hop
  | @queue op hwork | @accept op pending hwork | @refuse op hwork
  | @inline op hwork | @forward op rest hpending
  | @reject op rest hmay hpending hfree | @complete op hmem hfree
  | @report op byApc hwork | @account op hwork =>
      intro op' hop
      by_cases hne : op' = op
      · subst hne
        simp [relocate]
      · simpa only [relocate, Function.update_of_ne hne] using h op' hop

theorem located_create : Located LspState.create.custody fun _ => none := by
  constructor <;> simp [LspState.custody, LspState.create, Pc.work, Pc.idle]

end Located

end MiscProjects.Lsp
