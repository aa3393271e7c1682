import Mathlib.Algebra.Ring.Nat
import Mathlib.Data.List.Count
import MiscProjects.Lsp.Contexts

/-!
# The lifetime of a context

A context is freed when its reference count, or its count but for the freeing
thread's own reference, is zero.  The count is a 32-bit number, and it counts
the references as long as fewer than `2^32` are outstanding; a structure that
points to another context than the one its socket leads to makes the wrong
context be tested.  But for these two cases no context is freed while a thread
has a reference to it.
-/

namespace MiscProjects.Lsp

open MiscProjects.Runs

/-! ## References -/

/-- The contexts that a thread has still to release. -/
def Pc.held : Pc → List Addr
  | .returning held => held
  | .setSockOpt _ a => [a]
  | .closing _ a => [a]
  | .freeing a => [a]
  | .acceptEx _ a _ _ => [a]
  | .take _ a _ _ others => a :: others
  | .start _ held => held
  | .routine _ _ held => held
  | .account _ a held => a :: held
  | .unlock _ a held => a :: held
  | .report _ held => held
  | .cleanup _ held => held
  | .cleanupSection _ a held => a :: held
  | .cleanupUnlock _ a held => a :: held

/-- The references to a context. -/
def refsTo (a : Addr) (refs : List Ref) : ℕ := refs.countP (·.addr == a)

/-- The references of a thread to a context. -/
def refsOf (T : Thread) (a : Addr) (refs : List Ref) : ℕ :=
  refs.countP fun r => r.thread == T && r.addr == a

/-- The references without one of the thread to the context. -/
def withoutRef (T : Thread) (a : Addr) (refs : List Ref) : List Ref :=
  refs.eraseP fun r => r.thread == T && r.addr == a

variable {T T' : Thread} {a b : Addr} {refs : List Ref} {r : Ref}

theorem refsTo_cons (a : Addr) (r : Ref) (refs : List Ref) :
    refsTo a (r :: refs) = refsTo a refs + if r.addr = a then 1 else 0 := by
  simp [refsTo, List.countP_cons]

theorem refsOf_cons (T : Thread) (a : Addr) (r : Ref) (refs : List Ref) : refsOf T a (r :: refs) =
      refsOf T a refs + if r.thread = T ∧ r.addr = a then 1 else 0 := by
  simp [refsOf, List.countP_cons]

theorem withoutRef_cons (T : Thread) (a : Addr) (r : Ref) (refs : List Ref) :
    withoutRef T a (r :: refs) =
      if r.thread = T ∧ r.addr = a then refs
      else r :: withoutRef T a refs := by
  unfold withoutRef
  rw [List.eraseP_cons]
  by_cases h : r.thread = T ∧ r.addr = a
  · simp [h]
  · rw [if_neg h]
    have hfalse : (r.thread == T && r.addr == a) = false := by
      simpa using h
    rw [hfalse]
    rfl

theorem refsOf_add_le (hne : T ≠ T') (a : Addr) (refs : List Ref) :
    refsOf T a refs + refsOf T' a refs ≤ refsTo a refs := by
  induction refs with
  | nil => simp [refsOf, refsTo]
  | cons r rest ih =>
      rw [refsOf_cons, refsOf_cons, refsTo_cons]
      by_cases ha : r.addr = a
      · by_cases ht : r.thread = T
        · have hother : r.thread ≠ T' := fun h => hne (ht ▸ h)
          simp only [ha, ht, ht ▸ hother, and_true, if_true, if_false]
          omega
        · simp only [ha, ht, and_true, if_true, if_false]
          split <;> omega
      · simpa [ha] using ih

theorem refsOf_le (T : Thread) (a : Addr) (refs : List Ref) : refsOf T a refs ≤ refsTo a refs := by
  induction refs with
  | nil => simp [refsOf, refsTo]
  | cons r rest ih =>
      rw [refsOf_cons, refsTo_cons]
      by_cases ha : r.addr = a
      · simp only [ha, and_true, if_true]
        split <;> omega
      · simpa [ha] using ih

theorem refsOf_withoutRef (h : 0 < refsOf T a refs) (T' : Thread) (b : Addr) :
    refsOf T' b refs = refsOf T' b (withoutRef T a refs) +
      if T' = T ∧ b = a then 1 else 0 := by
  induction refs with
  | nil => simp [refsOf] at h
  | cons r rest ih =>
      rw [refsOf_cons] at h
      rw [withoutRef_cons, refsOf_cons]
      by_cases hr : r.thread = T ∧ r.addr = a
      · obtain ⟨rfl, rfl⟩ := hr
        simp [eq_comm]
      · rw [if_neg hr] at h ⊢
        rw [refsOf_cons, ih h]
        omega

theorem refsTo_withoutRef (h : 0 < refsOf T a refs) (b : Addr) : refsTo b refs =
      refsTo b (withoutRef T a refs) + if b = a then 1 else 0 := by
  induction refs with
  | nil => simp [refsOf] at h
  | cons r rest ih =>
      rw [refsOf_cons] at h
      rw [withoutRef_cons, refsTo_cons]
      by_cases hr : r.thread = T ∧ r.addr = a
      · obtain ⟨rfl, rfl⟩ := hr
        simp [eq_comm]
      · rw [if_neg hr] at h ⊢
        rw [refsTo_cons, ih h]
        omega

theorem mem_of_mem_withoutRef (h : r ∈ withoutRef T a refs) : r ∈ refs := List.mem_of_mem_eraseP h

theorem refsTo_pos (h : r ∈ refs) : 0 < refsTo r.addr refs :=
  List.countP_pos_iff.mpr ⟨r, h, by simp⟩

theorem exists_ref_of_pos (h : 0 < refsOf T a refs) : ∃ r ∈ refs, r.thread = T ∧ r.addr = a := by
  obtain ⟨r, hmem, hr⟩ := List.countP_pos_iff.mp h
  exact ⟨r, hmem, by simpa using hr⟩

/-! ## The invariant -/

/-- The socket of a context. -/
def LeadsBack (t : LspState) (s : Socket) (a : Addr) : Prop :=
  ∃ si, t.heap a = some si ∧ si.layeredSocket = some s

/-- What a thread relies on: it holds what it has to release, nobody can find
the context it is about to free, and it has the context of the socket it is
going to close. -/
def PcSound (t : LspState) (T : Thread) (pc : Pc) : Prop :=
  (∀ a, pc.held.count a ≤ refsOf T a t.refs) ∧
  match pc with
  | .freeing a => refsTo a t.refs = 1 ∧ ∀ s, t.handles s ≠ some a
  | .closing s a => LeadsBack t s a
  | .cleanupSection op a _ =>
      op < t.nextOp ∧ ∀ o, t.ops op = some o → LeadsBack t o.callerSocket a
  | _ => True

/-- The invariant but for what one thread relies on. -/
structure SoundBut (T : Thread) (t : LspState) : Prop where
  handle : ∀ s a, t.handles s = some a → LeadsBack t s a
  count : ∀ a si, t.heap a = some si →
    si.refCount = BitVec.ofNat 32 (refsTo a t.refs)
  live : ∀ r ∈ t.refs, ∃ si, t.heap r.addr = some si ∧ si.serial = r.serial
  known : ∀ op, t.nextOp ≤ op → t.ops op = none
  others : ∀ T', T' ≠ T → PcSound t T' (t.threads T')

/-- The contexts are counted, handles lead to live contexts and every thread
can rely on what it has tested. -/
structure Sound (t : LspState) : Prop where
  but : ∀ T, SoundBut T t
  threads : ∀ T, PcSound t T (t.threads T)

variable {op : OpId} {iocp : Bool} {t u : LspState} {result : LowerResult} {si si' : SockInfo}
  {s : Socket} {pc : Pc}

theorem SoundBut.setPc (h : SoundBut T t) (hpc : PcSound t T pc) : Sound (t.setPc T pc) := by
  have hthreads : ∀ T', PcSound (t.setPc T pc) T' ((t.setPc T pc).threads T') := by
    intro T'
    by_cases hT : T' = T
    · subst hT
      rw [LspState.setPc_threads_self]
      exact hpc
    · rw [LspState.setPc_threads_of_ne hT]
      exact h.others T' hT
  exact ⟨fun _ => ⟨h.handle, h.count, h.live, h.known, fun T' _ => hthreads T'⟩, hthreads⟩

/-- What a thread relies on survives a step that takes none of its references,
frees none of its contexts and lets nobody find the one it is freeing. -/
theorem PcSound.mono (h : PcSound t T pc) (hrefs : ∀ a, refsOf T a t.refs ≤ refsOf T a u.refs)
    (hfree : ∀ a, 0 < refsOf T a t.refs → refsTo a t.refs = 1 → (∀ s, t.handles s ≠ some a) →
        refsTo a u.refs = 1 ∧ ∀ s, u.handles s ≠ some a)
    (hback : ∀ s a, 0 < refsOf T a t.refs → LeadsBack t s a → LeadsBack u s a)
    (hnext : t.nextOp ≤ u.nextOp)
    (hops : ∀ op o, op < t.nextOp → u.ops op = some o → t.ops op = some o) : PcSound u T pc := by
  obtain ⟨hheld, hpc⟩ := h
  refine ⟨fun a => Nat.le_trans (hheld a) (hrefs a), ?_⟩
  cases pc with
  | freeing a =>
      have hpos : 0 < refsOf T a t.refs := by
        have := hheld a
        simp [Pc.held] at this
        exact this
      exact hfree a hpos hpc.1 hpc.2
  | closing s a =>
      have hpos : 0 < refsOf T a t.refs := by
        have := hheld a
        simp [Pc.held] at this
        exact this
      exact hback s a hpos hpc
  | cleanupSection op a held =>
      have hpos : 0 < refsOf T a t.refs := by
        have := hheld a
        simp [Pc.held] at this
        omega
      obtain ⟨hlt, hsocket⟩ := hpc
      exact ⟨Nat.lt_of_lt_of_le hlt hnext,
        fun o ho => hback _ a hpos (hsocket o (hops op o hlt ho))⟩
  | returning | setSockOpt | acceptEx | take | start | routine | account
  | unlock | report | cleanup | cleanupUnlock => trivial

theorem SoundBut.of_eq (h : SoundBut T t)
    (heq : (u.heap, u.handles, u.refs, u.ops, u.nextOp, u.threads) =
      (t.heap, t.handles, t.refs, t.ops, t.nextOp, t.threads)) : SoundBut T u := by
  obtain ⟨heap, handles, nextSerial, ops, nextOp, pending, atLower, answered,
    reports, threads, refs⟩ := u
  simp only [Prod.mk.injEq] at heq
  obtain ⟨rfl, rfl, rfl, rfl, rfl, rfl⟩ := heq
  exact ⟨h.handle, h.count, h.live, h.known, h.others⟩

theorem LeadsBack.setInfo (h : LeadsBack t s b) (hget : t.heap a = some si)
    (hsocket : si'.layeredSocket = si.layeredSocket) : LeadsBack (t.setInfo a (some si')) s b := by
  obtain ⟨other, hother, hlayered⟩ := h
  by_cases hb : b = a
  · subst hb
    rw [hget, Option.some.injEq] at hother
    exact ⟨si', t.setInfo_heap_self b _, by rw [hsocket, hother, hlayered]⟩
  · exact ⟨other, (t.setInfo_heap_of_ne hb _).trans hother, hlayered⟩

theorem live_setInfo (hlive : ∃ other, t.heap r.addr = some other ∧ other.serial = r.serial)
    (hget : t.heap a = some si) (hserial : si'.serial = si.serial) :
    ∃ other, (t.setInfo a (some si')).heap r.addr = some other ∧ other.serial = r.serial := by
  obtain ⟨other, hother, hsame⟩ := hlive
  by_cases hb : r.addr = a
  · rw [hb, hget, Option.some.injEq] at hother
    exact ⟨si', by rw [hb, LspState.setInfo_heap_self], by rw [hserial, hother, hsame]⟩
  · exact ⟨other, (t.setInfo_heap_of_ne hb _).trans hother, hsame⟩

theorem SoundBut.setInfo (h : SoundBut T t) (hget : t.heap a = some si)
    (hserial : si'.serial = si.serial) (hsocket : si'.layeredSocket = si.layeredSocket)
    (hcount : si'.refCount = si.refCount) : SoundBut T (t.setInfo a (some si')) := by
  refine ⟨fun s b hs => (h.handle s b hs).setInfo hget hsocket, ?_,
    fun r hr => live_setInfo (h.live r hr) hget hserial, h.known, ?_⟩
  · intro b other hother
    by_cases hb : b = a
    · subst hb
      rw [LspState.setInfo_heap_self, Option.some.injEq] at hother
      rw [← hother, hcount]
      exact h.count b si hget
    · rw [LspState.setInfo_heap_of_ne hb] at hother
      exact h.count b other hother
  · intro T' hT
    exact (h.others T' hT).mono (fun _ => Nat.le_refl _) (fun _ _ hone hnone => ⟨hone, hnone⟩)
      (fun _ _ _ hback => hback.setInfo hget hsocket) (Nat.le_refl _) (fun _ _ _ ho => ho)

/-! ## Finding and unlocking -/

theorem findAndLockSocketContext_cases {found : Option Addr}
    (hcall : findAndLockSocketContext T s t = some (u, found)) : (found = none ∧ u = t) ∨
      ∃ a si, found = some a ∧ t.handles s = some a ∧ t.heap a = some si ∧ u = t.addRef T a si := by
  unfold findAndLockSocketContext at hcall
  split at hcall
  next =>
    simp only [Option.some.injEq, Prod.mk.injEq] at hcall
    exact Or.inl ⟨hcall.2.symm, hcall.1.symm⟩
  next a hs =>
    split at hcall
    next => cases hcall
    next si hget =>
      simp only [Option.some.injEq, Prod.mk.injEq] at hcall
      exact Or.inr ⟨a, si, hcall.2.symm, hs, hget, hcall.1.symm⟩

theorem SoundBut.addRef (h : SoundBut T t) (hs : t.handles s = some a) (hget : t.heap a = some si) :
    SoundBut T (t.addRef T a si) := by
  have hback : ∀ s b, LeadsBack t s b → LeadsBack (t.addRef T a si) s b :=
    fun s b hback => hback.setInfo hget rfl
  refine ⟨fun s b hs => hback s b (h.handle s b hs), ?_, ?_, h.known, ?_⟩
  · intro b other hother
    have hrefs : refsTo b (t.addRef T a si).refs =
        refsTo b t.refs + if a = b then 1 else 0 := refsTo_cons b _ t.refs
    rw [hrefs]
    by_cases hb : b = a
    · subst hb
      have hnew : { si with refCount := si.refCount + 1 } = other :=
        Option.some.inj ((t.setInfo_heap_self b _).symm.trans hother)
      rw [← hnew, if_pos rfl, BitVec.ofNat_add, ← h.count b si hget]
      rfl
    · rw [if_neg fun hab => hb hab.symm, Nat.add_zero]
      exact h.count b other ((t.setInfo_heap_of_ne hb _).symm.trans hother)
  · intro r hr
    rcases List.mem_cons.mp hr with rfl | hr
    · exact ⟨_, t.setInfo_heap_self a _, rfl⟩
    · exact live_setInfo (h.live r hr) hget rfl
  · intro T' hT
    refine (h.others T' hT).mono (fun b => ?_) (fun b _ hone hnone => ?_)
      (fun s b _ => hback s b) (Nat.le_refl _) (fun _ _ _ ho => ho)
    · have hrefs := refsOf_cons T' b ⟨T, a, si.serial⟩ t.refs
      exact hrefs ▸ Nat.le_add_right _ _
    · -- the context being freed is not the one that was found
      have hb : ¬ a = b := fun hab => hnone s (hab ▸ hs)
      refine ⟨?_, hnone⟩
      have hrefs := refsTo_cons b ⟨T, a, si.serial⟩ t.refs
      rw [if_neg hb] at hrefs
      exact hrefs.trans hone

theorem SoundBut.wpuCloseSocketHandle (h : SoundBut T t)
    (s : Option Socket) : SoundBut T (wpuCloseSocketHandle s t) := by
  cases s with
  | none => exact h
  | some s =>
      have hkept : ∀ s' a, (Lsp.wpuCloseSocketHandle (some s) t).handles s' =
          some a → t.handles s' = some a := by
        intro s' a hs
        by_cases hsame : s' = s
        · subst hsame
          simp [Lsp.wpuCloseSocketHandle] at hs
        · simpa [Lsp.wpuCloseSocketHandle, hsame] using hs
      refine ⟨fun s' a hs => h.handle s' a (hkept s' a hs), h.count, h.live,
        h.known, fun T' hT => ?_⟩
      exact (h.others T' hT).mono (fun _ => Nat.le_refl _)
        (fun a _ hone hnone => ⟨hone, fun s' hs => hnone s' (hkept s' a hs)⟩)
        (fun _ _ _ hback => hback) (Nat.le_refl _) (fun _ _ _ ho => ho)

theorem SoundBut.closed {s : Option Socket} (h : SoundBut T t)
    (hback : ∀ s', LeadsBack t s' a → s = some s') (s' : Socket) :
    (Lsp.wpuCloseSocketHandle s t).handles s' ≠ some a := by
  intro hs
  cases s with
  | none => cases hback s' (h.handle s' a hs)
  | some s =>
      by_cases hsame : s' = s
      · subst hsame
        simp [Lsp.wpuCloseSocketHandle] at hs
      · have hs' : t.handles s' = some a := by
          simpa [Lsp.wpuCloseSocketHandle, hsame] using hs
        exact hsame (Option.some.inj (hback s' (h.handle s' a hs'))).symm

theorem refsOf_release_other (hheld : 0 < refsOf T a t.refs) (hT : T' ≠ T) (b : Addr) :
    refsOf T' b t.refs = refsOf T' b (release T a t).refs := by
  have hrefs := refsOf_withoutRef hheld T' b
  rw [if_neg fun h => hT h.1] at hrefs
  exact hrefs

/-- A thread frees a context: it has the only reference and no handle leads
there. -/
theorem SoundBut.free (h : SoundBut T t) (hheld : 0 < refsOf T a t.refs)
    (hone : refsTo a t.refs = 1) (hnone : ∀ s, t.handles s ≠ some a) :
    SoundBut T ((release T a t).setInfo a none) := by
  have hto : ∀ b, refsTo b t.refs = refsTo b (release T a t).refs + if b = a then 1 else 0 :=
    refsTo_withoutRef hheld
  have hzero : refsTo a (release T a t).refs = 0 := by
    have hrefs := hto a
    rw [hone, if_pos rfl] at hrefs
    omega
  have hother : ∀ T', T' ≠ T → refsOf T' a t.refs = 0 := by
    intro T' hT
    have hle := refsOf_le T' a (release T a t).refs
    rw [← refsOf_release_other hheld hT a, hzero] at hle
    omega
  have hkept : ∀ s b, b ≠ a → LeadsBack t s b → LeadsBack ((release T a t).setInfo a none) s b := by
    rintro s b hb ⟨si, hsi, hlayered⟩
    exact ⟨si, (LspState.setInfo_heap_of_ne hb _ _).trans hsi, hlayered⟩
  refine ⟨fun s b hs => ?_, ?_, ?_, h.known, ?_⟩
  · have hb : b ≠ a := fun hab => hnone s (hab ▸ hs)
    exact hkept s b hb (h.handle s b hs)
  · intro b si hsi
    by_cases hb : b = a
    · subst hb
      rw [LspState.setInfo_heap_self] at hsi
      cases hsi
    · rw [LspState.setInfo_heap_of_ne hb] at hsi
      have hrefs := hto b
      rw [if_neg hb, Nat.add_zero] at hrefs
      exact hrefs ▸ h.count b si hsi
  · intro r hr
    have hpos : 0 < refsTo r.addr (release T a t).refs := refsTo_pos hr
    have hb : r.addr ≠ a := fun hab => by
      rw [hab, hzero] at hpos
      exact Nat.lt_irrefl 0 hpos
    obtain ⟨si, hsi, hlive⟩ := h.live r (mem_of_mem_withoutRef hr)
    exact ⟨si, (LspState.setInfo_heap_of_ne hb _ _).trans hsi, hlive⟩
  · intro T' hT
    have hne : ∀ b, 0 < refsOf T' b t.refs → b ≠ a := by
      rintro b hpos rfl
      rw [hother T' hT] at hpos
      exact Nat.lt_irrefl 0 hpos
    refine (h.others T' hT).mono (fun b => Nat.le_of_eq (refsOf_release_other hheld hT b))
      (fun b hpos hone hnone => ?_) (fun s b hpos => hkept s b (hne b hpos)) (Nat.le_refl _)
      (fun _ _ _ ho => ho)
    have hrefs := hto b
    rw [if_neg (hne b hpos), Nat.add_zero] at hrefs
    exact ⟨hrefs ▸ hone, hnone⟩

theorem SoundBut.count_down (h : SoundBut T t) (hget : t.heap a = some si)
    (hserial : si'.serial = si.serial) (hsocket : si'.layeredSocket = si.layeredSocket)
    (hcount : si'.refCount = BitVec.ofNat 32 (refsTo a (release T a t).refs))
    (hheld : 0 < refsOf T a t.refs) : SoundBut T ((release T a t).setInfo a (some si')) := by
  have hto : ∀ b, refsTo b t.refs = refsTo b (release T a t).refs + if b = a then 1 else 0 :=
    refsTo_withoutRef hheld
  have hgetr : (release T a t).heap a = some si := hget
  have hback : ∀ s b, LeadsBack t s b → LeadsBack ((release T a t).setInfo a (some si')) s b :=
    fun s b hback => (show LeadsBack (release T a t) s b from hback).setInfo hgetr hsocket
  refine ⟨fun s b hs => hback s b (h.handle s b hs), ?_, fun r hr => ?_, h.known, fun T' hT => ?_⟩
  · intro b other hother
    by_cases hb : b = a
    · subst hb
      rw [LspState.setInfo_heap_self, Option.some.injEq] at hother
      rw [← hother]
      exact hcount
    · rw [LspState.setInfo_heap_of_ne hb] at hother
      have hrefs := hto b
      rw [if_neg hb, Nat.add_zero] at hrefs
      exact hrefs ▸ h.count b other hother
  · exact live_setInfo (t := release T a t) (h.live r (mem_of_mem_withoutRef hr)) hget hserial
  · refine (h.others T' hT).mono (fun b => Nat.le_of_eq (refsOf_release_other hheld hT b))
      (fun b hpos hone hnone => ?_) (fun s b _ => hback s b) (Nat.le_refl _) (fun _ _ _ ho => ho)
    -- the context that another thread is freeing is not the released one
    have hb : b ≠ a := by
      rintro rfl
      have hadd := refsOf_add_le (Ne.symm hT) b t.refs
      omega
    have hrefs := hto b
    rw [if_neg hb, Nat.add_zero] at hrefs
    exact ⟨hrefs ▸ hone, hnone⟩

theorem SoundBut.unlock (h : SoundBut T t) (hheld : 0 < refsOf T a t.refs)
    (hfew : refsTo a t.refs < 2 ^ 32) (hcall : unlockSocketContext T a t = some u) :
    SoundBut T u ∧ u.refs = (release T a t).refs ∧ u.ops = t.ops ∧ u.nextOp = t.nextOp := by
  have hto : ∀ b, refsTo b t.refs = refsTo b (release T a t).refs + if b = a then 1 else 0 :=
    refsTo_withoutRef hheld
  have hrefs : refsTo a t.refs = refsTo a (release T a t).refs + 1 := by
    rw [hto a, if_pos rfl]
  unfold unlockSocketContext at hcall
  split at hcall
  next => cases hcall
  next si hget =>
    have hcount := h.count a si hget
    have hnew : si.refCount - 1 = BitVec.ofNat 32 (refsTo a (release T a t).refs) := by
      rw [hcount, hrefs, BitVec.ofNat_add]
      exact BitVec.add_sub_cancel _ _
    simp only at hcall
    split at hcall
    next hfree =>
      rw [Option.some.injEq] at hcall
      have hzero : refsTo a (release T a t).refs = 0 := by
        have hval := congrArg BitVec.toNat (hnew.symm.trans hfree.1)
        rw [BitVec.toNat_ofNat] at hval
        have hval' : refsTo a (release T a t).refs % 2 ^ 32 = 0 := hval
        omega
      have hback : ∀ s', LeadsBack t s' a → si.layeredSocket = some s' := by
        rintro s' ⟨other, hother, hlayered⟩
        rw [hget, Option.some.injEq] at hother
        exact hother ▸ hlayered
      have hclosed := h.closed hback
      have hfreed := (h.wpuCloseSocketHandle si.layeredSocket).free
        (a := a) (by cases si.layeredSocket <;> exact hheld)
        (by cases si.layeredSocket <;> exact hrefs.trans (by rw [hzero])) hclosed
      subst hcall
      cases hlayered : si.layeredSocket with
      | none | some s =>
          rw [hlayered] at hfreed
          exact ⟨hfreed, rfl, rfl, rfl⟩
    next hkeep =>
      rw [Option.some.injEq] at hcall
      subst hcall
      exact ⟨h.count_down hget rfl rfl hnew hheld, rfl, rfl, rfl⟩

theorem PcSound.pos {rest : List Addr} (h : PcSound t T pc) (hheld : pc.held = a :: rest) :
    0 < refsOf T a t.refs := by
  have hle := h.1 a
  rw [hheld, List.count_cons_self] at hle
  omega

theorem PcSound.rest {rest : List Addr} (h : PcSound t T pc) (hheld : pc.held = a :: rest)
    (hrefs : u.refs = (release T a t).refs) (b : Addr) : rest.count b ≤ refsOf T b u.refs := by
  have hle := h.1 b
  have hone : refsOf T b t.refs = refsOf T b u.refs +
      if T = T ∧ b = a then 1 else 0 := by
    rw [hrefs]
    exact refsOf_withoutRef (h.pos hheld) T b
  rw [hheld, List.count_cons, hone] at hle
  by_cases hb : b = a
  · subst hb
    simp only [beq_self_eq_true, if_true, and_self] at hle
    omega
  · have hb' : ¬ a = b := fun hab => hb hab.symm
    simpa [hb, hb'] using hle

theorem SoundBut.unlock_setPc {pc' : Pc} {rest : List Addr} (h : SoundBut T t)
    (hpc : PcSound t T pc) (hheld : pc.held = a :: rest) (hfew : refsTo a t.refs < 2 ^ 32)
    (hnext : ∀ v, (∀ b, rest.count b ≤ refsOf T b v.refs) → PcSound v T pc')
    (hcall : (unlockSocketContext T a t).map (·.setPc T pc') = some u) : Sound u := by
  rw [Option.map_eq_some_iff] at hcall
  obtain ⟨v, hunlock, rfl⟩ := hcall
  obtain ⟨hv, hrefs, -, -⟩ := h.unlock (hpc.pos hheld) hfew hunlock
  exact hv.setPc (hnext v (hpc.rest hheld hrefs))

theorem SoundBut.lookup {missing : LspState → LspState} {found : Addr → Pc} (h : SoundBut T t)
    (hmissing : Sound (missing t)) (hfound : ∀ a v, LeadsBack v s a →
      (∀ b, refsOf T b v.refs = refsOf T b t.refs + if a = b then 1 else 0) →
      v.ops = t.ops → v.nextOp = t.nextOp → PcSound v T (found a))
    (hcall : lookup T s missing found t = some u) : Sound u := by
  unfold Lsp.lookup at hcall
  rw [Option.map_eq_some_iff] at hcall
  obtain ⟨⟨v, result⟩, hfind, hu⟩ := hcall
  rcases findAndLockSocketContext_cases hfind with
    ⟨rfl, rfl⟩ | ⟨a, si, rfl, hs, hget, rfl⟩
  · exact hu ▸ hmissing
  · have hv := h.addRef hs hget
    have hrefs : ∀ b, refsOf T b (t.addRef T a si).refs =
        refsOf T b t.refs + if a = b then 1 else 0 := by
      intro b
      have hcons := refsOf_cons T b ⟨T, a, si.serial⟩ t.refs
      simp only [true_and] at hcons
      exact hcons
    rw [← hu]
    exact hv.setPc (hfound a _ (hv.handle s a hs) hrefs rfl rfl)

/-! ## The steps -/

/-- Fewer than `2^32` references, and one to come. -/
def FewReferences (t : LspState) : Prop :=
  ∀ r ∈ t.refs, refsTo r.addr t.refs + 1 < 2 ^ 32

instance (t : LspState) : Decidable (FewReferences t) :=
  inferInstanceAs (Decidable (∀ _ ∈ _, _))

theorem FewReferences.lt (h : FewReferences t) (a : Addr) : refsTo a t.refs + 1 < 2 ^ 32 := by
  by_cases hpos : 0 < refsTo a t.refs
  · obtain ⟨r, hr, haddr⟩ := List.countP_pos_iff.mp hpos
    have haddr' : r.addr = a := by simpa using haddr
    exact haddr' ▸ h r hr
  · omega

/-- The context that `CheckForContextCleanup` finds to be the closed one with
no operation left is the one that the socket of the structure leads to. -/
def TestsItsContext (t : LspState) (op : OpId) (a : Addr) : Prop :=
  ∀ o ∈ t.ops op, ∀ si ∈ t.heap o.sockInfo, si.bClosing = true →
    si.dwOutstandingAsync = 1 → si.refCount = 1 → o.sockInfo = a

instance (t : LspState) (op : OpId) (a : Addr) :
    Decidable (TestsItsContext t op a) :=
  inferInstanceAs (Decidable (∀ _ ∈ _, _))

/-- The structure and the context of a thread in `CheckForContextCleanup`. -/
def Pc.cleaning : Pc → Option (OpId × Addr)
  | .cleanupSection op a _ => some (op, a)
  | _ => none

/-- The thread that goes on by itself. -/
def Action.goes : Action → Option Thread
  | .go T => some T
  | _ => none

/-- The counts stay within 32 bits and contexts are not mixed up. -/
def Counted (t : LspState) (action : Action) : Prop :=
  FewReferences t ∧ ∀ T ∈ action.goes, ∀ x ∈ (t.threads T).cleaning,
    TestsItsContext t x.1 x.2

instance (t : LspState) (action : Action) : Decidable (Counted t action) :=
  inferInstanceAs (Decidable (_ ∧ _))

theorem SoundBut.putback {held : List Addr}
    (h : SoundBut T t) (hheld : ∀ a, held.count a ≤ refsOf T a t.refs) :
    Sound (putbackOverlappedStructure T op held t) := by
  have hkept : ∀ op' o, Function.update t.ops op none op' = some o → t.ops op' = some o := by
    intro op' o ho
    by_cases hop : op' = op
    · subst hop
      simp at ho
    · simpa [hop] using ho
  have hput : SoundBut T { t with ops := Function.update t.ops op none } := by
    refine ⟨h.handle, h.count, h.live, fun op' hle => ?_, fun T' hT => ?_⟩
    · by_cases hop : op' = op
      · subst hop
        exact Function.update_self ..
      · exact (Function.update_of_ne hop ..).trans (h.known op' hle)
    · exact (h.others T' hT).mono (fun _ => Nat.le_refl _)
        (fun _ _ hone hnone => ⟨hone, hnone⟩) (fun _ _ _ hback => hback)
        (Nat.le_refl _) (fun op' o _ => hkept op' o)
  exact hput.setPc ⟨hheld, trivial⟩

theorem Sound.socket (h : Sound t) (hfree : t.heap a = none) : Sound { t with
      heap := Function.update t.heap a (some (createSockInfo t.nextSerial s)),
      handles := Function.update t.handles s (some a), nextSerial := t.nextSerial + 1 } := by
  have hne : ∀ b si, t.heap b = some si → b ≠ a := by
    rintro b si hb rfl
    rw [hfree] at hb
    cases hb
  have hback : ∀ s' b, LeadsBack t s' b → LeadsBack { t with
      heap := Function.update t.heap a (some (createSockInfo t.nextSerial s)),
      handles := Function.update t.handles s (some a),
      nextSerial := t.nextSerial + 1 } s' b := by
    rintro s' b ⟨si, hsi, hlayered⟩
    exact ⟨si, (Function.update_of_ne (hne b si hsi) ..).trans hsi, hlayered⟩
  have hzero : refsTo a t.refs = 0 := by
    refine List.countP_eq_zero.mpr fun r hr haddr => ?_
    obtain ⟨si, hsi, -⟩ := (h.but 0).live r hr
    exact hne r.addr si hsi (by simpa using haddr)
  have hpc : ∀ T, PcSound { t with
      heap := Function.update t.heap a (some (createSockInfo t.nextSerial s)),
      handles := Function.update t.handles s (some a),
      nextSerial := t.nextSerial + 1 } T (t.threads T) := by
    intro T
    refine (h.threads T).mono (fun _ => Nat.le_refl _)
      (fun b _ hone hnone => ⟨hone, fun s' hs' => ?_⟩)
      (fun s' b _ => hback s' b) (Nat.le_refl _) (fun _ _ _ ho => ho)
    by_cases hsame : s' = s
    · subst hsame
      have hab : a = b := by simpa using hs'
      rw [← hab, hzero] at hone
      cases hone
    · exact hnone s' ((Function.update_of_ne hsame ..).symm.trans hs')
  refine ⟨fun T => ⟨fun s' b hs' => ?_, fun b si hsi => ?_, fun r hr => ?_,
    (h.but T).known, fun T' _ => hpc T'⟩, hpc⟩
  · by_cases hsame : s' = s
    · subst hsame
      have hab : a = b := by simpa using hs'
      subst hab
      exact ⟨_, Function.update_self .., rfl⟩
    · exact hback s' b ((h.but T).handle s' b ((Function.update_of_ne hsame ..).symm.trans hs'))
  · by_cases hb : b = a
    · subst hb
      have hnew : createSockInfo t.nextSerial s = si := by simpa using hsi
      rw [← hnew, hzero]
      rfl
    · exact (h.but T).count b si ((Function.update_of_ne hb ..).symm.trans hsi)
  · obtain ⟨si, hsi, hlive⟩ := (h.but T).live r hr
    exact ⟨si, (Function.update_of_ne (hne _ si hsi) ..).trans hsi, hlive⟩

/-- The section of `WSPCloseSocket`.  On the direct path the thread has the
only reference, and the handle through which a context is found is closed. -/
theorem Sound.closeSection {lowerCloses : Bool} (h : Sound t) (hpc : t.threads T = .closing s a)
    (hfew : FewReferences t) (hcall : closeSection T s a lowerCloses t = some u) : Sound u := by
  have hsound : PcSound t T (.closing s a) := hpc ▸ h.threads T
  have hpos : 0 < refsOf T a t.refs := hsound.pos rfl
  have hlt := hfew.lt a
  unfold Lsp.closeSection at hcall
  split at hcall
  next => cases hcall
  next si hget =>
    simp only at hcall
    split at hcall
    next => cases hcall
    next =>
      have hidle : ∀ v : LspState, (∀ b, ([] : List Addr).count b ≤ refsOf T b v.refs) →
            PcSound v T .idle := fun v hv => ⟨hv, trivial⟩
      have hheld : ∀ {si'}, SoundBut T (t.setInfo a (some si')) →
          PcSound (t.setInfo a (some si')) T (.returning [a]) := fun _ => ⟨hsound.1, trivial⟩
      split at hcall
      next =>
        have hset : SoundBut T (t.setInfo a (some { si with
            bClosing := true, lockedBy := some T,
            providerOpen := si.providerOpen && !lowerCloses })) :=
          (h.but T).setInfo hget rfl rfl rfl
        exact hset.unlock_setPc (hheld hset) rfl (Nat.lt_of_succ_lt hlt) hidle hcall
      next hdirect =>
        split at hcall
        next =>
          have hset : SoundBut T (t.setInfo a (some { si with lockedBy := some T })) :=
            (h.but T).setInfo hget rfl rfl rfl
          exact hset.unlock_setPc (hheld hset) rfl (Nat.lt_of_succ_lt hlt) hidle hcall
        next =>
          rw [Option.some.injEq] at hcall
          have hone : refsTo a t.refs = 1 := by
            have hcount := (h.but T).count a si hget
            have hrefs : si.refCount = 1 := by
              by_contra hne
              exact hdirect (Or.inr hne)
            rw [hrefs] at hcount
            have hval := congrArg BitVec.toNat hcount
            rw [BitVec.toNat_ofNat, Nat.mod_eq_of_lt (Nat.lt_of_succ_lt hlt)] at hval
            exact hval.symm
          have hset : SoundBut T (t.setInfo a (some { si with providerOpen := false })) :=
            (h.but T).setInfo hget rfl rfl rfl
          have hback : ∀ s', LeadsBack (t.setInfo a (some { si with providerOpen := false })) s' a →
                some s = some s' := by
            rintro s' ⟨other, hother, hlayered⟩
            obtain ⟨mine, hmine, hs⟩ := hsound.2
            rw [hget, Option.some.injEq] at hmine
            rw [LspState.setInfo_heap_self, Option.some.injEq] at hother
            rw [← hlayered, ← hother, ← hs, hmine]
          rw [← hcall]
          exact (hset.wpuCloseSocketHandle (some s)).setPc ⟨hsound.1, hone, hset.closed hback⟩

theorem Sound.freeClosed (h : Sound t)
    (hpc : t.threads T = .freeing a) : Sound (freeClosed T a t) := by
  have hsound : PcSound t T (.freeing a) := hpc ▸ h.threads T
  exact ((h.but T).free (hsound.pos rfl) hsound.2.1 hsound.2.2).setPc
    ⟨fun _ => by simp [Pc.idle, Pc.held], trivial⟩

theorem Sound.getOverlappedStructure {operation : Operation} {completionRoutine found : Bool}
    {others : List Addr} (h : Sound t)
    (hpc : t.threads T = .take s a operation completionRoutine others)
    (hcall : getOverlappedStructure T s a operation completionRoutine others
      found t = some u) : Sound u := by
  have hsound : PcSound t T (.take s a operation completionRoutine others) := hpc ▸ h.threads T
  unfold Lsp.getOverlappedStructure at hcall
  split at hcall
  next => cases hcall
  next si hget =>
    simp only at hcall
    split at hcall
    next => cases hcall
    next =>
      have hset : SoundBut T (t.setInfo a (some { si with
          dwOutstandingAsync := si.dwOutstandingAsync + 1 })) :=
        (h.but T).setInfo hget rfl rfl rfl
      split at hcall
      next =>
        rw [Option.some.injEq] at hcall
        rw [← hcall]
        refine SoundBut.setPc (T := T) ⟨hset.handle, hset.count, hset.live,
          fun op hle => ?_, fun T' hT => ?_⟩ ⟨hsound.1, trivial⟩
        · have hne : op ≠ t.nextOp := Nat.ne_of_gt hle
          exact (Function.update_of_ne hne ..).trans (h.but T |>.known op (Nat.le_of_succ_le hle))
        · refine (hset.others T' hT).mono (fun _ => Nat.le_refl _)
            (fun _ _ hone hnone => ⟨hone, hnone⟩) (fun _ _ _ hback => hback)
            (Nat.le_succ _) (fun op o hlt ho => ?_)
          have hne : op ≠ t.nextOp := Nat.ne_of_lt hlt
          exact (Function.update_of_ne hne ..).symm.trans ho
      next =>
        rw [Option.some.injEq] at hcall
        exact hcall ▸ hset.setPc ⟨hsound.1, trivial⟩

theorem SoundBut.execute {o : Overlapped} {notified : Bool} {held : List Addr} (h : SoundBut T t)
    (hheld : ∀ b, held.count b ≤ refsOf T b t.refs)
    (hcall : executeOverlappedOperation T op o result notified held t = some u) : Sound u := by
  unfold executeOverlappedOperation at hcall
  split at hcall
  · cases hcall
  · simp only at hcall
    split at hcall <;> rw [Option.some.injEq] at hcall <;> rw [← hcall]
    · exact SoundBut.setPc (h.of_eq rfl) ⟨hheld, trivial⟩
    · exact SoundBut.setPc (h.of_eq rfl) ⟨hheld, trivial⟩

theorem Sound.queue {association : Association} {held : List Addr} (h : Sound t)
    (hpc : t.threads T = .start op held)
    (hcall : queueOverlappedOperation iocp T op association result held t = some u) : Sound u := by
  have hsound : PcSound t T (.start op held) := hpc ▸ h.threads T
  unfold queueOverlappedOperation at hcall
  split at hcall
  next => cases hcall
  next o ho =>
    split at hcall
    · split at hcall
      next => cases hcall
      next si hget =>
        split at hcall
        next => cases hcall
        next =>
          have hset : SoundBut T (t.setInfo o.sockInfo
              (some { si with hIocp := si.hIocp || association == .made })) :=
            (h.but T).setInfo hget rfl rfl rfl
          refine SoundBut.execute ?_ ?_ hcall
          · exact hset.of_eq rfl
          · exact hsound.1
    · rw [Option.some.injEq] at hcall
      rw [← hcall]
      exact SoundBut.setPc ((h.but T).of_eq rfl) ⟨hsound.1, trivial⟩

theorem Sound.account {held : List Addr} (h : Sound t) (hpc : t.threads T = .account op a held)
    (hfew : FewReferences t) (hcall : accountSection T op a held t = some u) : Sound u := by
  have hsound : PcSound t T (.account op a held) := hpc ▸ h.threads T
  unfold accountSection at hcall
  split at hcall
  next o si ho hget =>
    split at hcall
    next => cases hcall
    next =>
      split at hcall
      next =>
        rw [Option.some.injEq] at hcall
        exact hcall ▸ (h.but T).setPc ⟨hsound.1, trivial⟩
      next s hs =>
        simp only [Option.bind_eq_bind, Option.bind_eq_some_iff] at hcall
        obtain ⟨⟨v, found⟩, hfind, hrest⟩ := hcall
        rcases findAndLockSocketContext_cases hfind with
          ⟨rfl, rfl⟩ | ⟨b, other, rfl, hb, hother, rfl⟩
        · cases hrest
        · simp only [Option.bind_eq_some_iff] at hrest
          obtain ⟨w, hunlock, hw⟩ := hrest
          have hcons := refsOf_cons T b ⟨T, b, other.serial⟩ t.refs
          have hto := refsTo_cons b ⟨T, b, other.serial⟩ t.refs
          simp only [and_self, if_true] at hcons hto
          have hpos : 0 < refsOf T b (t.addRef T b other).refs := by
            show 0 < refsOf T b (⟨T, b, other.serial⟩ :: t.refs)
            omega
          have hlt : refsTo b (t.addRef T b other).refs < 2 ^ 32 := by
            show refsTo b (⟨T, b, other.serial⟩ :: t.refs) < 2 ^ 32
            rw [hto]
            exact hfew.lt b
          obtain ⟨hv, hrefs, -, -⟩ := ((h.but T).addRef hb hother).unlock hpos hlt hunlock
          rw [Option.some.injEq] at hw
          have hsame : w.refs = t.refs := by
            rw [hrefs]
            simp [release, LspState.addRef]
          exact hw ▸ hv.setPc ⟨hsame ▸ hsound.1, trivial⟩
  next => cases hcall

/-- The section of `CheckForContextCleanup`.  The context it frees is the one
it has tested, so that the thread has the only reference. -/
theorem Sound.cleanupSection {held : List Addr}
    (h : Sound t) (hpc : t.threads T = .cleanupSection op a held)
    (hfew : FewReferences t) (htests : TestsItsContext t op a)
    (hcall : cleanupSection T op a held t = some u) : Sound u := by
  have hsound : PcSound t T (.cleanupSection op a held) := hpc ▸ h.threads T
  have hpos : 0 < refsOf T a t.refs := hsound.pos rfl
  unfold Lsp.cleanupSection at hcall
  split at hcall
  next => cases hcall
  next o ho =>
    split at hcall
    next => cases hcall
    next si hget =>
      split at hcall
      next => cases hcall
      next =>
        simp only at hcall
        split at hcall
        next hfrees =>
          obtain ⟨hclosing, hlast, hcount⟩ := hfrees
          have houtstanding : si.dwOutstandingAsync = 1 := by
            have hadd := congrArg (· + 1) hlast
            simpa [BitVec.sub_add_cancel] using hadd
          have hits : o.sockInfo = a := htests o ho si hget hclosing houtstanding hcount
          rw [hits] at hget hcall
          have hone : refsTo a t.refs = 1 := by
            have hcounted := (h.but T).count a si hget
            rw [hcount] at hcounted
            have hval := congrArg BitVec.toNat hcounted
            have hlt := Nat.lt_of_succ_lt (hfew.lt a)
            rw [BitVec.toNat_ofNat, Nat.mod_eq_of_lt hlt] at hval
            exact hval.symm
          have hback : ∀ s', LeadsBack t s' a → some o.callerSocket = some s' := by
            rintro s' ⟨other, hother, hlayered⟩
            obtain ⟨mine, hmine, hs⟩ := hsound.2.2 o ho
            rw [hother, Option.some.injEq] at hmine
            rw [← hs, ← hmine, hlayered]
          have hfreed := ((h.but T).wpuCloseSocketHandle
            (some o.callerSocket)).free (a := a) hpos hone ((h.but T).closed hback)
          have hsame : (release T a (wpuCloseSocketHandle (some o.callerSocket)
              (t.setInfo a (some { si with
                dwOutstandingAsync := si.dwOutstandingAsync - 1,
                layeredSocket := none })))).setInfo a none =
              (release T a (wpuCloseSocketHandle (some o.callerSocket) t)).setInfo a none := by
            simp [LspState.setInfo, release, wpuCloseSocketHandle, Function.update_idem]
          rw [Option.some.injEq, hsame] at hcall
          rw [← hcall]
          exact hfreed.putback (hsound.rest rfl rfl)
        next =>
          rw [Option.some.injEq] at hcall
          rw [← hcall]
          have hset : SoundBut T (t.setInfo o.sockInfo (some { si with
              dwOutstandingAsync := si.dwOutstandingAsync - 1,
              lockedBy := if o.sockInfo = a then si.lockedBy else some T })) :=
            (h.but T).setInfo hget rfl rfl rfl
          exact hset.setPc ⟨hsound.1, trivial⟩

theorem Sound.go (h : Sound t) (hfew : FewReferences t)
    (htests : ∀ x ∈ (t.threads T).cleaning, TestsItsContext t x.1 x.2)
    (hcall : go T t = some u) : Sound u := by
  have hsound := h.threads T
  unfold Lsp.go at hcall
  cases hpc : t.threads T
  all_goals simp only [hpc, Option.some.injEq, reduceCtorEq] at hcall
  case returning held =>
    cases held with
    | nil => cases hcall
    | cons a rest =>
        exact (h.but T).unlock_setPc hsound (by rw [hpc]; rfl)
          (Nat.lt_of_succ_lt (hfew.lt a)) (fun v hv => ⟨hv, trivial⟩) hcall
  case setSockOpt optval a =>
    rw [hpc] at hsound
    refine (h.but T).lookup ((h.but T).setPc ⟨fun _ => by simp [Pc.idle, Pc.held],
      trivial⟩) (fun b v _ hrefs _ _ => ⟨fun c => ?_, trivial⟩) hcall
    have hheld := hsound.1 c
    rw [hrefs c]
    simp only [Pc.held, List.count_cons, beq_iff_eq] at hheld ⊢
    omega
  case freeing a => exact hcall ▸ h.freeClosed hpc
  case acceptEx s a sAcceptSocket hasOverlapped =>
    rw [hpc] at hsound
    have hmissing : Sound (t.setPc T (.returning [a])) := (h.but T).setPc ⟨hsound.1, trivial⟩
    refine (h.but T).lookup hmissing (fun b v _ hrefs _ _ => ?_) hcall
    cases hasOverlapped <;>
    · refine ⟨fun c => ?_, trivial⟩
      have hheld := hsound.1 c
      rw [hrefs c]
      simp only [Pc.held, List.count_cons, beq_iff_eq, if_true,
        Bool.false_eq_true, if_false] at hheld ⊢
      omega
  case routine op ok held =>
    rw [hpc] at hsound
    split at hcall
    next => cases hcall
    next o ho =>
      refine (h.but T).lookup ((h.but T).putback hsound.1) (fun b v _ hrefs _ _ => ?_) hcall
      cases ok <;>
      · refine ⟨fun c => ?_, trivial⟩
        have hheld := hsound.1 c
        rw [hrefs c]
        simp only [Pc.held, List.count_cons, beq_iff_eq, if_true,
          Bool.false_eq_true, if_false] at hheld ⊢
        omega
  case account op a held => exact h.account hpc hfew hcall
  case unlock op a held =>
    exact (h.but T).unlock_setPc hsound (by rw [hpc]; rfl)
      (Nat.lt_of_succ_lt (hfew.lt a)) (fun v hv => ⟨hv, trivial⟩) hcall
  case report op held =>
    rw [hpc] at hsound
    split at hcall
    next => cases hcall
    next o ho =>
      rw [Option.some.injEq] at hcall
      exact hcall ▸ SoundBut.setPc ((h.but T).of_eq rfl) ⟨hsound.1, trivial⟩
  case cleanup op held =>
    rw [hpc] at hsound
    split at hcall
    next => cases hcall
    next o ho =>
      refine (h.but T).lookup ((h.but T).putback hsound.1)
        (fun b v hback hrefs hops hnext => ?_) hcall
      refine ⟨fun c => ?_, ?_, ?_⟩
      · have hheld := hsound.1 c
        rw [hrefs c]
        simp only [Pc.held, List.count_cons, beq_iff_eq] at hheld ⊢
        omega
      · by_contra hle
        have hunknown := (h.but T).known op (hnext ▸ Nat.le_of_not_lt hle)
        rw [hunknown] at ho
        cases ho
      · intro other hother
        rw [hops, ho, Option.some.injEq] at hother
        exact hother ▸ hback
  case cleanupSection op a held =>
    have htests' : TestsItsContext t op a := htests (op, a) (by rw [hpc]; rfl)
    exact h.cleanupSection hpc hfew htests' hcall
  case cleanupUnlock op a held =>
    rw [hpc] at hsound
    rw [Option.map_eq_some_iff] at hcall
    obtain ⟨v, hunlock, rfl⟩ := hcall
    obtain ⟨hv, hrefs, -, -⟩ := (h.but T).unlock (hsound.pos rfl)
      (Nat.lt_of_succ_lt (hfew.lt a)) hunlock
    exact hv.putback (hsound.rest rfl hrefs)

theorem Sound.step {action : Action} (h : Sound t) (hcounted : Counted t action)
    (hstep : lspStep iocp t action = some u) : Sound u := by
  obtain ⟨hfew, htests⟩ := hcounted
  cases action
  case go T => exact h.go hfew (htests T rfl) hstep
  all_goals simp only [lspStep, Option.ite_none_right_eq_some, Option.some.injEq] at hstep
  case socket s a => exact hstep.2 ▸ h.socket hstep.1.2
  case call T entry =>
    refine (h.but T).lookup h (fun a v hback hrefs _ _ => ?_) hstep.2
    have hheld : ∀ b, [a].count b ≤ refsOf T b v.refs := by
      intro b
      rw [hrefs b]
      simp only [List.count_cons, List.count_nil, beq_iff_eq]
      omega
    cases entry with
    | closeSocket s => exact ⟨hheld, hback⟩
    | plain | setSockOpt | acceptEx | overlapped => exact ⟨hheld, trivial⟩
  case complete T op ok =>
    have hset : SoundBut T { t with atLower := t.atLower.erase op } := (h.but T).of_eq rfl
    exact hstep.2 ▸ hset.setPc ⟨fun _ => by simp [Pc.held], trivial⟩
  all_goals split at hstep <;> try cases hstep
  next s a hpc => exact h.closeSection hpc hfew hstep
  next s a operation completionRoutine others hpc =>
    exact h.getOverlappedStructure hpc hstep
  next op held hpc => exact h.queue hpc hstep
  next T _ op held hpc =>
    simp only [Option.ite_none_right_eq_some, Option.some.injEq] at hstep
    have hsound : PcSound t T (.start op held) := hpc ▸ h.threads T
    exact hstep.2 ▸ (h.but T).setPc ⟨hsound.1, trivial⟩
  next T _ _ _ op rest hpc hpending =>
    split at hstep
    next => cases hstep
    next o ho =>
      have hset : SoundBut T { t with pending := rest } := (h.but T).of_eq rfl
      exact hset.execute (fun _ => by simp) hstep

theorem sound_create : Sound LspState.create := by
  have hpc : ∀ T, PcSound LspState.create T .idle := fun _ => ⟨fun _ => Nat.zero_le _, trivial⟩
  refine ⟨fun T => ⟨?_, ?_, ?_, fun _ _ => rfl, fun T' _ => hpc T'⟩, hpc⟩
  · intro s a hs
    cases hs
  · intro a si hget
    cases hget
  · intro r hr
    cases hr

/-- In every run in which no context has `2^32 - 1` references and no context
is cleaned up in the place of another one, no context is freed while a thread
has a reference to it: whatever the threads, the answers of the lower provider
and the order of the sections. -/
theorem context_live_of_counted {iocp : Bool} {as : List Action} {t : LspState}
    (hrun : RunsTo (lspStep iocp) Counted LspState.create as t) :
    ∀ r ∈ t.refs, ∃ si, t.heap r.addr = some si ∧ si.serial = r.serial := by
  have hsound := hrun.invariant Sound sound_create fun _ _ _ h => h.step
  exact (hsound.but 0).live

/-- A socket is closed while another call is in progress and an operation is
about to be started. -/
theorem context_live_of_counted_run :
    ∃ t, RunsTo (lspStep true) Counted LspState.create
        [.socket 1 0, .call 1 (.plain 1), .call 2 (.overlapped 1 .recv false),
         .take 2 true, .call 3 (.closeSocket 1), .close 3 true, .go 1] t ∧
      ∀ r ∈ t.refs, ∃ si, t.heap r.addr = some si ∧ si.serial = r.serial :=
  have hrun := RunsTo.of_isSome (by decide)
  ⟨_, hrun, context_live_of_counted hrun⟩

/-! ## A context that is freed too early -/

/-- One socket, and `k` references that thread 1 has not released. -/
def leakState (k : ℕ) : LspState :=
  { LspState.create with
    heap := Function.update (fun _ => none) 0
      (some { createSockInfo 0 1 with refCount := BitVec.ofNat 32 k }),
    handles := Function.update (fun _ => none) 1 (some 0),
    nextSerial := 1,
    refs := List.replicate k ⟨1, 0, 0⟩ }

/-- `WSPSetSockOpt(SO_UPDATE_ACCEPT_CONTEXT)` with a handle that is not a
socket returns without unlocking the context. -/
theorem leak_step (k : ℕ) : RunsTo (lspStep true) Always (leakState k)
      [.call 1 (.setSockOpt 1 2), .go 1] (leakState (k + 1)) := by
  refine .snoc (t := (((leakState k).addRef 1 0
    { createSockInfo 0 1 with refCount := BitVec.ofNat 32 k })).setPc 1
      (.setSockOpt 2 0)) (.single trivial ?_) trivial ?_
  · rfl
  · simp [lspStep, go, lookup, findAndLockSocketContext, leakState,
      LspState.addRef, LspState.setInfo, LspState.setPc, LspState.create,
      createSockInfo, Function.update_idem, List.replicate_succ, BitVec.ofNat_add]

theorem leak_run (k : ℕ) : ∃ as, RunsTo (lspStep true) Always LspState.create as (leakState k) := by
  induction k with
  | zero =>
      exact ⟨[.socket 1 0], .single trivial rfl⟩
  | succ k ih =>
      obtain ⟨as, hrun⟩ := ih
      exact ⟨_, hrun.trans (leak_step k)⟩

/-- The context once the count is `n` and `lowerCloses` has closed its lower
socket. -/
def leakedInfo (n : BitVec 32) (providerOpen : Bool) : SockInfo :=
  { createSockInfo 0 1 with refCount := n, providerOpen := providerOpen }

/-- When all numbers but one are used up, one more call and `WSPCloseSocket`
count up to one, and the context is freed while the call has it. -/
theorem leak_close {k : ℕ} (hk : BitVec.ofNat 32 k + 1 = 0) :
    RunsTo (lspStep true) Always (leakState k)
      [.call 2 (.plain 1), .call 3 (.closeSocket 1), .close 3 true, .go 3] { leakState k with
        heap := fun _ => none, handles := fun _ => none,
        threads := Function.update (fun _ => .idle) 2 (.returning [0]),
        refs := ⟨2, 0, 0⟩ :: List.replicate k ⟨1, 0, 0⟩ } := by
  refine .snoc (t := { leakState k with
      heap := Function.update (fun _ => none) 0 (some (leakedInfo 1 false)),
      handles := fun _ => none,
      threads := Function.update (Function.update (fun _ => .idle) 2
        (.returning [0])) 3 (.freeing 0),
      refs := ⟨3, 0, 0⟩ :: ⟨2, 0, 0⟩ :: List.replicate k ⟨1, 0, 0⟩ })
    (.snoc (t := { leakState k with
        heap := Function.update (fun _ => none) 0 (some (leakedInfo 1 true)),
        threads := Function.update (Function.update (fun _ => .idle) 2
          (.returning [0])) 3 (.closing 1 0),
        refs := ⟨3, 0, 0⟩ :: ⟨2, 0, 0⟩ :: List.replicate k ⟨1, 0, 0⟩ })
      (.snoc (t := { leakState k with
          heap := Function.update (fun _ => none) 0 (some (leakedInfo 0 true)),
          threads := Function.update (fun _ => .idle) 2 (.returning [0]),
          refs := ⟨2, 0, 0⟩ :: List.replicate k ⟨1, 0, 0⟩ })
        (.single trivial ?_) trivial ?_) trivial ?_) trivial ?_
  · have hwrap : BitVec.ofNat 32 k + 1#32 = 0#32 := hk
    simp [lspStep, lookup, findAndLockSocketContext, leakState, leakedInfo,
      LspState.addRef, LspState.setInfo, LspState.setPc, LspState.create,
      createSockInfo, Function.update_idem, Entry.socket, Entry.found, hwrap]
  · simp [lspStep, lookup, findAndLockSocketContext, leakState, leakedInfo,
      LspState.addRef, LspState.setInfo, LspState.setPc, LspState.create,
      createSockInfo, Function.update_idem, Entry.socket, Entry.found]
  · simp [lspStep, closeSection, SockInfo.CanEnter, wpuCloseSocketHandle,
      leakState, leakedInfo, LspState.setInfo, LspState.setPc, LspState.create,
      createSockInfo, Function.update_idem]
  · simp [lspStep, go, freeClosed, release, leakState, leakedInfo,
      LspState.setInfo, LspState.setPc, LspState.create, Function.update_idem]

/-- One thread calls `WSPSetSockOpt` again and again, another one is in a call
and the third one frees the context. -/
theorem held_context_freed :
    ∃ as t, RunsTo (lspStep true) Always LspState.create as t ∧
      ⟨2, 0, 0⟩ ∈ t.refs ∧ t.heap 0 = none := by
  obtain ⟨k, hk⟩ : ∃ k, BitVec.ofNat 32 k + 1 = 0 := ⟨2 ^ 32 - 1, by decide⟩
  obtain ⟨as, hrun⟩ := leak_run k
  exact ⟨_, _, hrun.trans (leak_close hk), List.mem_cons_self, rfl⟩

end MiscProjects.Lsp
