import Mathlib.Logic.Function.Basic
import MiscProjects.Library.Runs
import MiscProjects.Lsp.Extensions

/-!
# Asking for an extension function

`WSPIoctl` answers a query for one of the intercepted functions with the function of the LSP,
and loads that of the lower provider when it is not in the `NextProcTableExt` of the provider.
When it is there, the count of the bytes returned is not set.
-/

namespace MiscProjects.Lsp.Extensions

open Runs OverlappedResult
open Function (update update_self update_of_ne)

/-! ## `WSPIoctl` -/

/-- The address of a function. -/
abbrev Pointer := { address : ℕ // address ≠ 0 }

/-- What the `WSPIoctl` of the lower provider does. -/
inductive Answer
  | success (pointer : Pointer) (cbBytesReturned : DWORD)
  | failure (errno : DWORD) (cbBytesReturned : Option DWORD)
deriving DecidableEq

/-- A query. -/
structure Query where
  /-- The provider of the context that `FindAndLockSocketContext` finds. -/
  socket : Option Provider
  /-- The function whose `GUID` is in the input buffer. -/
  lpvInBuffer : ExtFunction
  /-- What the variable for the byte count holds. -/
  lpcbBytesReturned : DWORD
  /-- What the lower provider answers if it is asked. -/
  answer : Answer

/-- What a query leads to; the output buffer is given a function of the LSP. -/
structure Output where
  ret : ℤ
  lpvOutBuffer : Option ExtFunction
  lpcbBytesReturned : DWORD
  lpErrno : Option DWORD
deriving DecidableEq

/-- The `NextProcTableExt` of every provider. -/
abbrev Table := Provider → ExtFunction → Option Pointer

def Table.empty : Table := fun _ _ => none

/-- `WSPIoctl` with `SIO_GET_EXTENSION_FUNCTION_POINTER`. -/
def wspIoctl (table : Table) (query : Query) : Table × Output :=
  match query.socket with
  | none => (table, ⟨SOCKET_ERROR, none, query.lpcbBytesReturned, some wsaeNotSock⟩)
  | some provider =>
      match table provider query.lpvInBuffer with
      | some _ => (table, ⟨0, some query.lpvInBuffer, query.lpcbBytesReturned, none⟩)
      | none =>
          match query.answer with
          | .success pointer cbBytesReturned =>
              (update table provider (update (table provider) query.lpvInBuffer (some pointer)),
                ⟨0, some query.lpvInBuffer, cbBytesReturned, none⟩)
          | .failure errno cbBytesReturned =>
              (table, ⟨SOCKET_ERROR, some query.lpvInBuffer,
                cbBytesReturned.getD query.lpcbBytesReturned, some errno⟩)

/-! ## Statement -/

/-- The tables, and for each function what the lower provider has answered last, which the code
does not keep. -/
structure State where
  table : Table
  answers : Provider → ExtFunction → Option Answer

def start : State := ⟨Table.empty, fun _ _ => none⟩

/-- The lower provider is asked. -/
def State.asks (t : State) (query : Query) (provider : Provider) : Prop :=
  query.socket = some provider ∧ t.table provider query.lpvInBuffer = none

instance (t : State) (query : Query) (provider : Provider) : Decidable (t.asks query provider) :=
  inferInstanceAs (Decidable (_ ∧ _))

def State.step (t : State) (query : Query) : Option State :=
  some
    { table := (wspIoctl t.table query).1
      answers := fun provider fn =>
        if t.asks query provider ∧ fn = query.lpvInBuffer then some query.answer
        else t.answers provider fn }

/-- The query as the first one, with the answer that the lower provider gives or has given. -/
def State.asFirst (t : State) (query : Query) : Query :=
  match query.socket with
  | none => query
  | some provider =>
      if t.asks query provider then query
      else
        { query with
          answer := (t.answers provider query.lpvInBuffer).getD query.answer }

/-- The query is answered as if it were the first one, and a success means that the function of
the lower provider is loaded. -/
structure Answered (t : State) (query : Query) : Prop where
  same : (wspIoctl t.table query).2 = (wspIoctl Table.empty (t.asFirst query)).2
  loaded : (wspIoctl t.table query).2.ret = 0 →
    ∃ provider, query.socket = some provider ∧
      ((wspIoctl t.table query).1 provider query.lpvInBuffer).isSome = true

/-- If the function is loaded, the variable holds the byte count that the lower provider has
returned with it. -/
def CountKept (t : State) (query : Query) : Prop :=
  ∀ provider pointer cbBytesReturned, query.socket = some provider →
    t.table provider query.lpvInBuffer = some pointer →
      t.answers provider query.lpvInBuffer = some (.success pointer cbBytesReturned) →
        query.lpcbBytesReturned = cbBytesReturned

/-! ## Steps -/

section Steps
variable {t u : State} {query : Query} {queries : List Query}

/-- The functions in the tables are those of the last answers. -/
def Loaded (t : State) : Prop :=
  ∀ provider fn pointer, t.table provider fn = some pointer →
    ∃ cbBytesReturned, t.answers provider fn = some (.success pointer cbBytesReturned)

theorem table_wspIoctl (table : Table) (query : Query) (provider : Provider) (fn : ExtFunction) :
    (wspIoctl table query).1 provider fn = table provider fn ∨
      query.socket = some provider ∧ table provider query.lpvInBuffer = none ∧
        fn = query.lpvInBuffer ∧ ∃ pointer cbBytesReturned,
          query.answer = .success pointer cbBytesReturned ∧
            (wspIoctl table query).1 provider fn = some pointer := by
  unfold wspIoctl
  cases hsocket : query.socket with
  | none => exact Or.inl rfl
  | some asked =>
      dsimp only
      cases htable : table asked query.lpvInBuffer with
      | some pointer => exact Or.inl rfl
      | none =>
          cases hanswer : query.answer with
          | failure errno cbBytesReturned => exact Or.inl rfl
          | success pointer cbBytesReturned =>
              by_cases hprovider : provider = asked
              · subst hprovider
                by_cases hfn : fn = query.lpvInBuffer
                · subst hfn
                  refine Or.inr ⟨rfl, htable, rfl, pointer, cbBytesReturned, rfl, ?_⟩
                  dsimp only
                  rw [update_self, update_self]
                · left
                  dsimp only
                  rw [update_self, update_of_ne hfn]
              · left
                dsimp only
                rw [update_of_ne hprovider]

theorem loaded_start : Loaded start := fun _ _ _ hpointer => nomatch hpointer

theorem Loaded.step (h : Loaded t) (hstep : t.step query = some u) : Loaded u := by
  cases hstep
  intro provider fn pointer hpointer
  dsimp only at hpointer ⊢
  rcases table_wspIoctl t.table query provider fn with
    hsame | ⟨hsocket, hnone, hfn, pointer', bytes, hanswer, hnew⟩
  · rw [hsame] at hpointer
    rw [if_neg]
    · exact h provider fn pointer hpointer
    · rintro ⟨⟨-, hnone⟩, hfn⟩
      rw [hfn, hnone] at hpointer
      cases hpointer
  · rw [hnew, Option.some.injEq] at hpointer
    rw [if_pos ⟨⟨hsocket, hnone⟩, hfn⟩, hanswer, hpointer]
    exact ⟨bytes, rfl⟩

theorem wspIoctl_of_loaded {table : Table} {provider : Provider} {pointer : Pointer}
    (hsocket : query.socket = some provider)
    (hpointer : table provider query.lpvInBuffer = some pointer) : wspIoctl table query =
      (table, ⟨0, some query.lpvInBuffer, query.lpcbBytesReturned, none⟩) := by
  simp only [wspIoctl, hsocket, hpointer]

theorem answered_iff (h : Loaded t) : Answered t query ↔ CountKept t query := by
  cases hsocket : query.socket with
  | none =>
      have hret : (wspIoctl t.table query).2.ret = SOCKET_ERROR := by
        simp only [wspIoctl, hsocket]
      constructor
      · intro _ provider pointer bytes hprovider
        rw [hsocket] at hprovider
        cases hprovider
      · intro _
        constructor
        · simp only [wspIoctl, State.asFirst, hsocket]
        · rw [hret]
          exact fun hzero => absurd hzero (by decide)
  | some provider =>
      cases hpointer : t.table provider query.lpvInBuffer with
      | none =>
          have hfirst : t.asFirst query = query := by
            simp only [State.asFirst, hsocket]
            exact if_pos ⟨hsocket, hpointer⟩
          constructor
          · intro _ provider' pointer bytes hprovider htable
            rw [hsocket, Option.some.injEq] at hprovider
            rw [← hprovider, hpointer] at htable
            cases htable
          · intro _
            constructor
            · rw [hfirst]
              simp only [wspIoctl, hsocket, hpointer, Table.empty]
              cases query.answer with
              | success pointer bytes => rfl
              | failure errno bytes => rfl
            · intro hret
              refine ⟨provider, hsocket, ?_⟩
              simp only [wspIoctl, hsocket, hpointer] at hret ⊢
              cases hanswer : query.answer with
              | success pointer bytes =>
                  dsimp only
                  rw [update_self, update_self]
                  rfl
              | failure errno bytes =>
                  rw [hanswer] at hret
                  have hne : SOCKET_ERROR ≠ 0 := by decide
                  exact absurd hret hne
      | some pointer =>
          obtain ⟨bytes, hanswer⟩ := h provider query.lpvInBuffer pointer hpointer
          have hloaded := wspIoctl_of_loaded hsocket hpointer
          have hfirst : t.asFirst query = { query with answer := .success pointer bytes } := by
            have hnot : ¬ t.asks query provider := by
              rintro ⟨-, hnone⟩
              rw [hnone] at hpointer
              cases hpointer
            simp only [State.asFirst, hsocket]
            rw [if_neg hnot, hanswer, Option.getD_some]
          constructor
          · intro hanswered provider' pointer' bytes' hprovider _ hanswer'
            rw [hsocket, Option.some.injEq] at hprovider
            rw [← hprovider, hanswer, Option.some.injEq, Answer.success.injEq] at hanswer'
            have hsame := hanswered.same
            rw [hloaded, hfirst] at hsame
            simp only [wspIoctl, hsocket, Table.empty, Output.mk.injEq] at hsame
            exact hsame.2.2.1.trans hanswer'.2
          · intro hcount
            have hbytes := hcount provider pointer bytes hsocket hpointer hanswer
            constructor
            · rw [hloaded, hfirst]
              simp only [wspIoctl, hsocket, Table.empty, hbytes]
            · intro _
              refine ⟨provider, hsocket, ?_⟩
              rw [hloaded]
              exact Option.isSome_iff_exists.mpr ⟨pointer, hpointer⟩

end Steps

/-! ## The result -/

/-- In a run of queries, each is answered as if it were the first one if and only if each that
finds the function loaded passes a variable that holds the byte count already. -/
theorem queries_independent_iff (queries : List Query) :
    (∀ taken query t, taken ++ [query] <+: queries →
        RunsTo State.step Always start taken t → Answered t query) ↔
      ∀ taken query t, taken ++ [query] <+: queries →
        RunsTo State.step Always start taken t → CountKept t query := by
  have hloaded : ∀ taken t, RunsTo State.step Always start taken t → Loaded t := by
    intro taken t hrun
    apply hrun.invariant Loaded loaded_start
    intro t query u ht _ hstep
    exact ht.step hstep
  constructor
  · intro h taken query t htaken hrun
    exact (answered_iff (hloaded taken t hrun)).mp (h taken query t htaken hrun)
  · intro h taken query t htaken hrun
    exact (answered_iff (hloaded taken t hrun)).mpr (h taken query t htaken hrun)

/-- The second of two queries does not set the byte count. -/
theorem second_query_keeps_count :
    ¬ ∀ taken query t, taken ++ [query] <+:
        [⟨some 0, .transmitFile, 0, .success ⟨1, by decide⟩ 8⟩,
          ⟨some 0, .transmitFile, 0, .success ⟨1, by decide⟩ 8⟩] →
      RunsTo State.step Always start taken t → Answered t query := by
  intro h
  have hsecond := (h [⟨some 0, .transmitFile, 0, .success ⟨1, by decide⟩ 8⟩]
    ⟨some 0, .transmitFile, 0, .success ⟨1, by decide⟩ 8⟩ _ (List.prefix_refl _)
    (.single trivial rfl)).same
  exact absurd hsecond (by decide)

end MiscProjects.Lsp.Extensions
