import MiscProjects.NameService.Rebuilding

/-!
# Demarshalling with bounds

Demarshalling as `Marshall` has it, in which every access is looked at first: what is read of the
marshalled form must be among the bytes that were received, and what is read or written of the
structure must be in the block that was allocated for it.  An access anywhere else is `none`.
-/

namespace MiscProjects.NameService

open MiscProjects.Memory

/-- The bytes that were received, and the block for the result. -/
structure Bounds where
  received : Region
  block : Region

namespace Bounds

/-! ## Accesses -/

/-- A member of the structure is read. -/
def load (b : Bounds) (m : Mem) (a : ℕ) : Option ℕ :=
  if Region.Inside ⟨a, 4⟩ b.block then some (dword m a) else none

/-- A pointer is stored in the structure. -/
def store (b : Bounds) (a v : ℕ) (c : DeMarshalling) : Option DeMarshalling :=
  if Region.Inside ⟨a, 4⟩ b.block then some { c with m := storeDword c.m a v } else none

/-- `memcpy` from the marshalled form to the structure. -/
def copy (b : Bounds) (n : ℕ) (c : DeMarshalling) : Option DeMarshalling :=
  if Region.Inside ⟨c.ptr, n⟩ b.received ∧ Region.Inside ⟨c.ptrdest, n⟩ b.block then
    some (copyIn n c)
  else none

/-- The size of the data of a member; `lstrlenW` reads the whole string. -/
def sizeAt (b : Bounds) (m : Mem) (base p : ℕ) : Extent → Option ℕ
  | .text => do
      let n ← lstrlenW m p
      if Region.Inside ⟨p, (n + 1) * 2⟩ b.received then some ((n + 1) * 2) else none
  | .fixed size => some size
  | .counted count size => (b.load m (base + count)).map (size * ·)

/-! ## Demarshalling -/

def rebuildMember (b : Bounds) (base : ℕ) (member : Member) (c : DeMarshalling) :
    Option DeMarshalling := do
  let n ← b.sizeAt c.m base c.ptr member.extent
  let copied ← b.copy (n % 2 ^ 32) c
  b.store (base + member.offset) c.ptrdest copied

def deMarshallMember (b : Bounds) (base : ℕ) (member : Member) (c : DeMarshalling) :
    Option DeMarshalling := do
  let p ← b.load c.m (base + member.offset)
  if p = 0 then some c else b.rebuildMember base member c

def deMarshallLayout (b : Bounds) (layout : Layout) (m : Mem) (base buf : ℕ) :
    Option DeMarshalling := do
  let c ← b.copy layout.size ⟨m, buf, base⟩
  layout.members.foldlM (fun c member => b.deMarshallMember base member c) c

def deMarshallServiceClassInfo (b : Bounds) (m : Mem) (sc buf : ℕ) : Option DeMarshalling :=
  b.deMarshallLayout WSASERVICECLASSINFOW m sc buf

def csAddrEntry (b : Bounds) (m : Mem) (qs i : ℕ) : Option ℕ :=
  (b.load m (qs + lpcsaBuffer.offset)).map (· + 24 * i)

def rebuildCsAddr (b : Bounds) (qs : ℕ) (c : DeMarshalling) (i : ℕ) : Option DeMarshalling := do
  let c ← (b.csAddrEntry c.m qs i).bind fun entry => b.rebuildMember entry localAddr c
  (b.csAddrEntry c.m qs i).bind fun entry => b.rebuildMember entry remoteAddr c

def deMarshallCsAddrs (b : Bounds) (qs : ℕ) (c : DeMarshalling) : Option DeMarshalling := do
  let p ← b.load c.m (qs + lpcsaBuffer.offset)
  if p = 0 then some c
  else do
    let c ← b.rebuildMember qs lpcsaBuffer c
    let n ← b.load c.m (qs + 44)
    (List.range n).foldlM (b.rebuildCsAddr qs) c

def deMarshallServiceInfo (b : Bounds) (m : Mem) (qs buf : ℕ) : Option DeMarshalling := do
  let c ← b.deMarshallLayout WSAQUERYSETW m qs buf
  b.deMarshallCsAddrs qs c

/-! ## It is demarshalling -/

section Erasure
variable {b : Bounds} {m : Mem} {c d : DeMarshalling} {a v n p base qs buf i : ℕ} {member : Member}

theorem load_eq_some (h : b.load m a = some v) : v = dword m a ∧ Region.Inside ⟨a, 4⟩ b.block := by
  unfold load at h
  split at h
  · exact ⟨(Option.some.inj h).symm, ‹_›⟩
  · cases h

theorem store_eq_some (h : b.store a v c = some d) :
    d = { c with m := storeDword c.m a v } ∧ Region.Inside ⟨a, 4⟩ b.block := by
  unfold store at h
  split at h
  · exact ⟨(Option.some.inj h).symm, ‹_›⟩
  · cases h

theorem copy_eq_some (h : b.copy n c = some d) :
    d = copyIn n c ∧ Region.Inside ⟨c.ptr, n⟩ b.received ∧
      Region.Inside ⟨c.ptrdest, n⟩ b.block := by
  unfold copy at h
  split at h
  · exact ⟨(Option.some.inj h).symm, ‹_›⟩
  · cases h

theorem sizeAt_erased {extent : Extent} (h : b.sizeAt m base p extent = some n) :
    NameService.sizeAt m base p extent = some n := by
  cases extent with
  | text =>
      obtain ⟨len, hlen, h⟩ := Option.bind_eq_some_iff.mp h
      split at h
      · obtain rfl := Option.some.inj h
        exact congrArg (Option.map _) hlen
      · cases h
  | fixed size => exact h
  | counted count size =>
      obtain ⟨v, hv, rfl⟩ := Option.map_eq_some_iff.mp h
      rw [(load_eq_some hv).1]
      rfl

theorem rebuildMember_erased (h : b.rebuildMember base member c = some d) :
    NameService.rebuildMember base member c = some d := by
  obtain ⟨n, hn, h⟩ := Option.bind_eq_some_iff.mp h
  obtain ⟨copied, hcopied, h⟩ := Option.bind_eq_some_iff.mp h
  rw [(store_eq_some h).1, (copy_eq_some hcopied).1, NameService.rebuildMember, sz,
    sizeAt_erased hn]
  rfl

theorem deMarshallMember_erased (h : b.deMarshallMember base member c = some d) :
    NameService.deMarshallMember base member c = some d := by
  obtain ⟨p, hp, h⟩ := Option.bind_eq_some_iff.mp h
  rw [(load_eq_some hp).1] at h
  unfold NameService.deMarshallMember
  split at h
  · rw [if_pos ‹_›]
    exact h
  · rw [if_neg ‹_›]
    exact rebuildMember_erased h

theorem foldlM_erased {α β : Type} {f g : β → α → Option β} {l : List α} {x y : β}
    (hround : ∀ x a y, f x a = some y → g x a = some y) (h : l.foldlM f x = some y) :
    l.foldlM g x = some y := by
  induction l generalizing x with
  | nil => exact h
  | cons a l ih =>
      rw [List.foldlM_cons] at h ⊢
      obtain ⟨z, hz, h⟩ := Option.bind_eq_some_iff.mp h
      rw [hround x a z hz]
      exact ih h

theorem deMarshallLayout_erased {layout : Layout}
    (h : b.deMarshallLayout layout m base buf = some d) :
    NameService.deMarshallLayout layout m base buf = some d := by
  obtain ⟨c, hc, h⟩ := Option.bind_eq_some_iff.mp h
  rw [(copy_eq_some hc).1] at h
  exact foldlM_erased (fun _ _ _ => deMarshallMember_erased) h

/-- Within the bounds a class is demarshalled as without them. -/
theorem deMarshallServiceClassInfo_erased (h : b.deMarshallServiceClassInfo m base buf = some d) :
    NameService.deMarshallServiceClassInfo m base buf = some d :=
  deMarshallLayout_erased h

theorem csAddrEntry_eq_some (h : b.csAddrEntry m qs i = some v) :
    v = NameService.csAddrEntry m qs i := by
  obtain ⟨p, hp, rfl⟩ := Option.map_eq_some_iff.mp h
  rw [(load_eq_some hp).1]
  rfl

theorem rebuildCsAddr_erased (h : b.rebuildCsAddr qs c i = some d) :
    NameService.rebuildCsAddr qs c i = some d := by
  obtain ⟨c', hlocal, hremote⟩ := Option.bind_eq_some_iff.mp h
  obtain ⟨entry, hentry, hlocal⟩ := Option.bind_eq_some_iff.mp hlocal
  obtain ⟨entry', hentry', hremote⟩ := Option.bind_eq_some_iff.mp hremote
  rw [csAddrEntry_eq_some hentry] at hlocal
  rw [csAddrEntry_eq_some hentry'] at hremote
  rw [NameService.rebuildCsAddr, rebuildMember_erased hlocal]
  exact rebuildMember_erased hremote

theorem deMarshallCsAddrs_erased (h : b.deMarshallCsAddrs qs c = some d) :
    NameService.deMarshallCsAddrs qs c = some d := by
  obtain ⟨p, hp, h⟩ := Option.bind_eq_some_iff.mp h
  rw [(load_eq_some hp).1] at h
  unfold NameService.deMarshallCsAddrs
  split at h
  · rw [if_pos ‹_›]
    exact h
  · rw [if_neg ‹_›]
    obtain ⟨c', harray, h⟩ := Option.bind_eq_some_iff.mp h
    obtain ⟨n, hn, h⟩ := Option.bind_eq_some_iff.mp h
    rw [(load_eq_some hn).1] at h
    rw [rebuildMember_erased harray]
    exact foldlM_erased (fun _ _ _ => rebuildCsAddr_erased) h

/-- Within the bounds a service is demarshalled as without them. -/
theorem deMarshallServiceInfo_erased (h : b.deMarshallServiceInfo m qs buf = some d) :
    NameService.deMarshallServiceInfo m qs buf = some d := by
  obtain ⟨c, hc, h⟩ := Option.bind_eq_some_iff.mp h
  rw [NameService.deMarshallServiceInfo, deMarshallLayout_erased hc]
  exact deMarshallCsAddrs_erased h

end Erasure

end Bounds

end MiscProjects.NameService
