import MiscProjects.NameService.Bounds
import MiscProjects.NameService.RoundTrip

/-!
# What the received bytes declare

A structure that arrives declares its own extent: which members are there, how long the arrays
are, and where the strings end.  `Cursor` walks over the received bytes as the declaration tells,
and stops when something is not complete or has no room in the block.  Demarshalling within the
bounds goes exactly as far.
-/

namespace MiscProjects.NameService

open MiscProjects.Memory

/-! ## The walk over the received bytes -/

/-- The received bytes as a memory of their own; behind them are the zeros of the buffer. -/
def memOf (received : List UInt8) : Mem := fun i => received.getD i 0

/-- Where data end that begin at `k`, if they are complete and have room.  The size is an
`unsigned int`. -/
def dataEnd (received : List UInt8) (size base k : ℕ) (extent : Extent) : Option ℕ :=
  (sizeAt (memOf received) base k extent).bind fun n =>
    if k + n % 2 ^ 32 ≤ received.length ∧ k + n % 2 ^ 32 ≤ size then some (k + n % 2 ^ 32)
    else none

/-- A position in the received bytes, and where the data of the pointers before it begin. -/
structure Cursor where
  pos : ℕ
  starts : List ℕ
deriving DecidableEq

/-- Over the data of a pointer that is there. -/
def Cursor.data (received : List UInt8) (size base : ℕ) (extent : Extent) (w : Cursor) :
    Option Cursor :=
  (dataEnd received size base w.pos extent).map fun e => ⟨e, w.pos :: w.starts⟩

def Cursor.member (received : List UInt8) (size : ℕ) (w : Cursor) (member : Member) :
    Option Cursor :=
  if dword (memOf received) member.offset = 0 then some w
  else w.data received size 0 member.extent

def layoutCursor (layout : Layout) (received : List UInt8) (size : ℕ) : Option Cursor :=
  if layout.size ≤ received.length ∧ layout.size ≤ size then
    layout.members.foldlM (Cursor.member received size) ⟨layout.size, []⟩
  else none

/-- The two addresses of entry `i` of the array at `array`. -/
def Cursor.csAddr (received : List UInt8) (size array : ℕ) (w : Cursor) (i : ℕ) :
    Option Cursor := do
  let w ← w.data received size (array + 24 * i) localAddr.extent
  w.data received size (array + 24 * i) remoteAddr.extent

/-- The array of addresses, whose size must not wrap, and its entries. -/
def Cursor.csAddrs (received : List UInt8) (size : ℕ) (w : Cursor) : Option Cursor :=
  if dword (memOf received) lpcsaBuffer.offset = 0 then some w
  else if 24 * dword (memOf received) 44 < 2 ^ 32 then
    (w.data received size 0 lpcsaBuffer.extent).bind fun after =>
      (List.range (dword (memOf received) 44)).foldlM (Cursor.csAddr received size w.pos) after
  else none

def serviceInfoCursor (received : List UInt8) (size : ℕ) : Option Cursor :=
  (layoutCursor WSAQUERYSETW received size).bind (Cursor.csAddrs received size)

/-! ## The received bytes in memory -/

/-- The bytes have been received at `buf`, and a block of `size` bytes has been allocated at
`dest`. -/
structure Arrival (received : List UInt8) (m : Mem) (buf dest size : ℕ) : Prop where
  bytes : Same (memOf received) 0 m buf received.length
  apart : Region.Apart ⟨buf, received.length⟩ ⟨dest, size⟩
  buffer : buf + received.length ≤ 2 ^ 32
  block : dest + size < 2 ^ 32

/-- The bounds of an arrival. -/
def boundsOf (received : List UInt8) (buf dest size : ℕ) : Bounds :=
  ⟨⟨buf, received.length⟩, ⟨dest, size⟩⟩

section Arrival
variable {received : List UInt8} {m : Mem} {buf dest size k o r n v : ℕ} {moved : List Moved}
  {c : DeMarshalling} {w : Cursor}

/-- What has been copied so far. -/
abbrev Copied (received : List UInt8) (m : Mem) (buf dest size k : ℕ) (moved : List Moved)
    (c : DeMarshalling) : Prop :=
  Rebuilding m m buf dest (min received.length size) k moved c

theorem Arrival.placed (h : Arrival received m buf dest size) :
    Placed buf dest (min received.length size) := by
  have hbuffer := h.buffer
  have hblock := h.block
  have hapart := h.apart
  constructor
  · rcases hapart with hapart | hapart
    · exact .inl (by dsimp only at hapart ⊢; omega)
    · exact .inr (by dsimp only at hapart ⊢; omega)
  · omega
  · omega

theorem Arrival.received_same (h : Arrival received m buf dest size)
    (hcopied : Copied received m buf dest size k moved c) :
    Same (memOf received) 0 c.m buf received.length := by
  refine h.bytes.trans ?_
  intro i hi
  have hfit := hcopied.fit
  refine hcopied.outside _ ?_
  rcases h.apart with hapart | hapart
  · dsimp only at hapart
    omega
  · dsimp only at hapart
    omega

theorem Arrival.word_eq (h : Arrival received m buf dest size)
    (hcopied : Copied received m buf dest size k moved c) (ho : o + 4 ≤ k)
    (hclear : Untouched moved o 4) : dword c.m (dest + o) = dword (memOf received) o := by
  have hfit := hcopied.fit
  have hreceived := h.bytes.slice (show o + 4 ≤ received.length by omega)
  rw [Nat.zero_add] at hreceived
  exact (hreceived.trans (hcopied.image_same ho hclear)).dword_eq

theorem load_eq (ho : o + 4 ≤ size) :
    (boundsOf received buf dest size).load m (dest + o) = some (dword m (dest + o)) := by
  unfold Bounds.load
  refine if_pos (.inr ⟨?_, ?_⟩)
  · exact Nat.le_add_right _ _
  · dsimp only [boundsOf]
    omega

theorem inside_iff (hk : k ≤ received.length) (hk' : k ≤ size) :
    Region.Inside ⟨buf + k, n⟩ ⟨buf, received.length⟩ ∧ Region.Inside ⟨dest + k, n⟩ ⟨dest, size⟩ ↔
      k + n ≤ received.length ∧ k + n ≤ size := by
  simp only [Region.Inside]
  omega

/-- The count of an array, as far as the extent has one, is among the bytes copied. -/
def CountCopied (moved : List Moved) (r k : ℕ) (extent : Extent) : Prop :=
  ∀ count ∈ extent.count?, r + count + 4 ≤ k ∧ Untouched moved (r + count) 4

variable {moved₁ : List Moved} {c' : DeMarshalling} {a i lsize : ℕ} {extent : Extent}
  {w' : Cursor}

theorem Arrival.sizeAt_declared (h : Arrival received m buf dest size)
    (hcopied : Copied received m buf dest size k moved c) (hcount : CountCopied moved r k extent)
    (hsize : (boundsOf received buf dest size).sizeAt c.m (dest + r) c.ptr extent = some n) :
    sizeAt (memOf received) r k extent = some n := by
  have hfit := hcopied.fit
  cases extent with
  | text =>
      obtain ⟨len, hlen, hsome⟩ := Option.bind_eq_some_iff.mp hsize
      split at hsome
      · rename_i hinside
        obtain rfl := Option.some.inj hsome
        rw [hcopied.ptr] at hlen hinside
        have hend : k + 2 * (len + 1) ≤ received.length := by
          simp only [Region.Inside, boundsOf] at hinside
          omega
        have hsame : Same (memOf received) k c.m (buf + k) (2 * (len + 1)) := by
          have hslice := (h.received_same hcopied).slice hend
          rwa [Nat.zero_add] at hslice
        have hbuffer := h.buffer
        have hlen' := hsame.symm.lstrlenW_eq hlen (by omega)
        exact congrArg (Option.map _) hlen'
      · cases hsome
  | fixed size => exact hsize
  | counted count size' =>
      obtain ⟨hle, hclear⟩ := hcount count rfl
      have hload := Bounds.sizeAt_erased hsize
      rw [sizeAt, Nat.add_assoc, h.word_eq hcopied hle hclear] at hload
      exact hload

theorem Arrival.sizeAt_complete (h : Arrival received m buf dest size)
    (hcopied : Copied received m buf dest size k moved c) (hk : 0 < k)
    (hcount : CountCopied moved r k extent) (hsize : sizeAt (memOf received) r k extent = some n)
    (hend : k + n % 2 ^ 32 ≤ received.length) :
    (boundsOf received buf dest size).sizeAt c.m (dest + r) c.ptr extent = some n := by
  have hfit := hcopied.fit
  cases extent with
  | text =>
      obtain ⟨len, hlen, rfl⟩ := sizeAt_text hsize
      have hwithin := lstrlenW_within hlen
      rw [Nat.mod_eq_of_lt (by omega)] at hend
      have hsame : Same (memOf received) k c.m (buf + k) (2 * (len + 1)) := by
        have hslice := (h.received_same hcopied).slice hend
        rwa [Nat.zero_add] at hslice
      have hbuffer := h.buffer
      have hlen' := hsame.lstrlenW_eq hlen (by omega)
      rw [← hcopied.ptr] at hlen'
      rw [Bounds.sizeAt, hlen', Option.bind_eq_bind, Option.bind_some, if_pos, Nat.mul_comm]
      rw [hcopied.ptr]
      simp only [Region.Inside, boundsOf]
      omega
  | fixed size => exact hsize
  | counted count size' =>
      obtain ⟨hle, hclear⟩ := hcount count rfl
      rw [Bounds.sizeAt, Nat.add_assoc, load_eq (by omega), h.word_eq hcopied hle hclear]
      exact hsize

/-! ## One pointer -/

theorem Arrival.rebuildMember_none (h : Arrival received m buf dest size)
    (hcopied : Copied received m buf dest size k moved c) {member : Member}
    (hcount : CountCopied moved r k member.extent)
    (hend : dataEnd received size r k member.extent = none) :
    (boundsOf received buf dest size).rebuildMember (dest + r) member c = none := by
  by_contra hne
  obtain ⟨c', hrebuilt⟩ := Option.ne_none_iff_exists'.mp hne
  obtain ⟨n, hsize, hrebuilt⟩ := Option.bind_eq_some_iff.mp hrebuilt
  obtain ⟨copied, hcopy, -⟩ := Option.bind_eq_some_iff.mp hrebuilt
  have hinside := (Bounds.copy_eq_some hcopy).2
  have hfit := hcopied.fit
  rw [hcopied.ptr, hcopied.ptrdest] at hinside
  have hend' := (inside_iff (by omega) (by omega)).mp hinside
  rw [dataEnd, h.sizeAt_declared hcopied hcount hsize, Option.bind_some, if_pos hend'] at hend
  cases hend

theorem Arrival.rebuildMember_some (h : Arrival received m buf dest size)
    (hcopied : Copied received m buf dest size k moved c) {member : Member} {e : ℕ} (hk : 0 < k)
    (ho : r + member.offset = o) (hcell : o + 4 ≤ k) (hfresh : Untouched moved o 4)
    (hcount : CountCopied moved r k member.extent)
    (hend : dataEnd received size r k member.extent = some e) :
    ∃ c', (boundsOf received buf dest size).rebuildMember (dest + r) member c = some c' ∧
      Copied received m buf dest size e (⟨o, k, buf + k, e - k⟩ :: moved) c' ∧ k ≤ e := by
  obtain ⟨n, hsize, hsome⟩ := Option.bind_eq_some_iff.mp hend
  split at hsome
  · rename_i hend'
    obtain rfl := Option.some.inj hsome
    have hfit := hcopied.fit
    have hcopy : (boundsOf received buf dest size).copy (n % 2 ^ 32) c =
        some (copyIn (n % 2 ^ 32) c) := by
      refine if_pos ?_
      rw [hcopied.ptr, hcopied.ptrdest]
      exact (inside_iff (by omega) (by omega)).mpr hend'
    have hstored := hcopied.copyAndStore h.placed hcell hfresh
      (fun _ _ => rfl : Same m (buf + k) m (buf + k) (n % 2 ^ 32)) (by omega)
    have haddr : dest + r + member.offset = dest + o := by omega
    have hstore : (boundsOf received buf dest size).store (dest + r + member.offset) c.ptrdest
        (copyIn (n % 2 ^ 32) c) = some { copyIn (n % 2 ^ 32) c with
          m := storeDword (copyIn (n % 2 ^ 32) c).m (dest + o) c.ptrdest } := by
      rw [haddr]
      refine if_pos (.inr ⟨Nat.le_add_right _ _, ?_⟩)
      dsimp only [boundsOf]
      omega
    have hrebuilt : (boundsOf received buf dest size).rebuildMember (dest + r) member c =
        some { copyIn (n % 2 ^ 32) c with
          m := storeDword (copyIn (n % 2 ^ 32) c).m (dest + o) c.ptrdest } := by
      rw [Bounds.rebuildMember, h.sizeAt_complete hcopied hk hcount hsize hend'.1,
        Option.bind_eq_bind, Option.bind_some, hcopy]
      exact hstore
    rw [Nat.add_sub_cancel_left]
    exact ⟨_, hrebuilt, hstored, Nat.le_add_right _ _⟩
  · cases hsome

theorem Arrival.data (h : Arrival received m buf dest size)
    (hcopied : Copied received m buf dest size w.pos moved c) {member : Member}
    (ho : r + member.offset = o) (hcell : o + 4 ≤ w.pos) (hfresh : Untouched moved o 4)
    (hcount : CountCopied moved r w.pos member.extent) :
    (w.data received size r member.extent = none ∧
        (boundsOf received buf dest size).rebuildMember (dest + r) member c = none) ∨
      ∃ w' c', w.data received size r member.extent = some w' ∧
        (boundsOf received buf dest size).rebuildMember (dest + r) member c = some c' ∧
        Copied received m buf dest size w'.pos
          (⟨o, w.pos, buf + w.pos, w'.pos - w.pos⟩ :: moved) c' ∧
        w'.starts = w.pos :: w.starts ∧ w.pos ≤ w'.pos := by
  unfold Cursor.data
  cases hend : dataEnd received size r w.pos member.extent with
  | none => exact .inl ⟨rfl, h.rebuildMember_none hcopied hcount hend⟩
  | some e =>
      obtain ⟨c', hrebuilt, hcopied', hle⟩ := h.rebuildMember_some hcopied (by omega) ho hcell
        hfresh hcount hend
      exact .inr ⟨_, c', rfl, hrebuilt, hcopied', rfl, hle⟩

theorem Cursor.pos_counted {w : Cursor} {count elem : ℕ}
    (hdata : w.data received size 0 (.counted count elem) = some w') :
    w'.pos = w.pos + elem * dword (memOf received) count % 2 ^ 32 := by
  obtain ⟨e, hend, rfl⟩ := Option.map_eq_some_iff.mp hdata
  obtain ⟨n, hsize, hsome⟩ := Option.bind_eq_some_iff.mp hend
  split at hsome
  · rw [← Option.some.inj hsome, ← Option.some.inj hsize, Nat.zero_add]
  · cases hsome

/-! ## The members of a layout -/

/-- The walk over some members, and the pointers that demarshalling has stored for them. -/
structure MembersWalked (received : List UInt8) (k : ℕ) (moved : List Moved)
    (members : List Member) (moved' : List Moved) (w' : Cursor) : Prop where
  starts : moved'.map (·.target) = w'.starts
  le : k ≤ w'.pos
  keeps : moved ⊆ moved'
  origin : ∀ v ∈ moved', v ∈ moved ∨ ∃ member ∈ members, v.cell = member.offset ∧ k ≤ v.target
  each : ∀ member ∈ members, dword (memOf received) member.offset = 0 ∨
    ∃ v ∈ moved', v.cell = member.offset

/-- One member: it is `NULL`, or its data have been copied from the position on. -/
def MemberWalked (received : List UInt8) (size : ℕ) (w : Cursor) (member : Member)
    (moved moved' : List Moved) (w' : Cursor) : Prop :=
  dword (memOf received) member.offset = 0 ∧ w' = w ∧ moved' = moved ∨
    dword (memOf received) member.offset ≠ 0 ∧
      w.data received size 0 member.extent = some w' ∧ w'.starts = w.pos :: w.starts ∧
      w.pos ≤ w'.pos ∧ ∃ v, moved' = v :: moved ∧ v.cell = member.offset ∧ v.target = w.pos

theorem MemberWalked.walked {member : Member} {moved' : List Moved}
    (hwalked : MemberWalked received size w member moved moved' w')
    (hstarts : moved.map (·.target) = w.starts) :
    MembersWalked received w.pos moved [member] moved' w' := by
  rcases hwalked with ⟨hnull, rfl, rfl⟩ | ⟨-, -, hstarts', hle, v, rfl, hcell, htarget⟩
  · refine ⟨hstarts, Nat.le_refl _, fun _ hv => hv, fun v hv => .inl hv, ?_⟩
    intro other hother
    rw [List.mem_singleton.mp hother]
    exact .inl hnull
  · constructor
    case starts => rw [List.map_cons, hstarts, hstarts', htarget]
    case le => exact hle
    case keeps => exact fun u hu => List.mem_cons_of_mem _ hu
    case origin =>
      intro u hu
      rcases List.mem_cons.mp hu with rfl | hu
      · exact .inr ⟨member, List.mem_singleton_self _, hcell, Nat.le_of_eq htarget.symm⟩
      · exact .inl hu
    case each =>
      intro other hother
      rw [List.mem_singleton.mp hother]
      exact .inr ⟨v, List.mem_cons_self, hcell⟩

theorem MembersWalked.append {members members' : List Member} {moved₂ : List Moved}
    {w₁ w₂ : Cursor} (h₁ : MembersWalked received k moved members moved₁ w₁)
    (h₂ : MembersWalked received w₁.pos moved₁ members' moved₂ w₂) :
    MembersWalked received k moved (members ++ members') moved₂ w₂ := by
  constructor
  case starts => exact h₂.starts
  case le => exact Nat.le_trans h₁.le h₂.le
  case keeps => exact fun v hv => h₂.keeps (h₁.keeps hv)
  case origin =>
    intro v hv
    rcases h₂.origin v hv with hv | ⟨member, hmember, hcell, htarget⟩
    · rcases h₁.origin v hv with hv | ⟨member, hmember, hcell, htarget⟩
      · exact .inl hv
      · exact .inr ⟨member, List.mem_append_left _ hmember, hcell, htarget⟩
    · exact .inr ⟨member, List.mem_append_right _ hmember, hcell, Nat.le_trans h₁.le htarget⟩
  case each =>
    intro member hmember
    rcases List.mem_append.mp hmember with hmember | hmember
    · rcases h₁.each member hmember with hnull | ⟨v, hv, hcell⟩
      · exact .inl hnull
      · exact .inr ⟨v, h₂.keeps hv, hcell⟩
    · exact h₂.each member hmember

theorem Arrival.member (h : Arrival received m buf dest size)
    (hcopied : Copied received m buf dest size w.pos moved c) {member : Member} {rest : List Member}
    (hpending : Pending lsize moved (member :: rest)) (hlsize : lsize ≤ w.pos) :
    (w.member received size member = none ∧
        (boundsOf received buf dest size).deMarshallMember dest member c = none) ∨
      ∃ w' c' moved', w.member received size member = some w' ∧
        (boundsOf received buf dest size).deMarshallMember dest member c = some c' ∧
        Copied received m buf dest size w'.pos moved' c' ∧
        MemberWalked received size w member moved moved' w' ∧ Pending lsize moved' rest := by
  have hhere : member ∈ member :: rest := List.mem_cons_self
  have hinside := hpending.inside member hhere
  have hfresh := hpending.fresh member hhere
  have hfit := hcopied.fit
  have hread : (boundsOf received buf dest size).load c.m (dest + member.offset) =
      some (dword (memOf received) member.offset) := by
    rw [load_eq (by omega), h.word_eq hcopied (by omega) hfresh]
  have hcount : CountCopied moved 0 w.pos member.extent := by
    intro count hmem
    obtain ⟨hle, hclear, -⟩ := hpending.counted member hhere count hmem
    rw [Nat.zero_add]
    exact ⟨by omega, hclear⟩
  rw [Cursor.member, Bounds.deMarshallMember, hread, Option.bind_eq_bind, Option.bind_some]
  by_cases hnull : dword (memOf received) member.offset = 0
  · rw [if_pos hnull, if_pos hnull]
    exact .inr ⟨w, c, moved, rfl, rfl, hcopied, .inl ⟨hnull, rfl, rfl⟩, hpending.tail⟩
  · rw [if_neg hnull, if_neg hnull]
    rcases h.data hcopied (Nat.zero_add member.offset) (by omega) hfresh hcount with
      hnone | ⟨w', c', hdata, hrebuilt, hcopied', hstarts', hle⟩
    · exact .inl hnone
    · exact .inr ⟨w', c', _, hdata, hrebuilt, hcopied',
        .inr ⟨hnull, hdata, hstarts', hle, _, rfl, rfl, rfl⟩, hpending.store _ _ _⟩

theorem Arrival.members (h : Arrival received m buf dest size)
    {members later : List Member} (hcopied : Copied received m buf dest size w.pos moved c)
    (hpending : Pending lsize moved (members ++ later)) (hlsize : lsize ≤ w.pos)
    (hstarts : moved.map (·.target) = w.starts) :
    (members.foldlM (Cursor.member received size) w = none ∧ members.foldlM (fun c member =>
          (boundsOf received buf dest size).deMarshallMember dest member c) c = none) ∨
      ∃ w' c' moved', members.foldlM (Cursor.member received size) w = some w' ∧
        members.foldlM (fun c member =>
          (boundsOf received buf dest size).deMarshallMember dest member c) c = some c' ∧
        Copied received m buf dest size w'.pos moved' c' ∧
        MembersWalked received w.pos moved members moved' w' ∧ Pending lsize moved' later := by
  induction members generalizing w c moved with
  | nil =>
      refine .inr ⟨w, c, moved, rfl, rfl, hcopied, ⟨hstarts, Nat.le_refl _, fun _ hv => hv,
        fun v hv => .inl hv, ?_⟩, hpending⟩
      intro other hother
      exact absurd hother List.not_mem_nil
  | cons member rest ih =>
      rw [List.foldlM_cons, List.foldlM_cons]
      rcases h.member hcopied hpending hlsize with
        ⟨hwalk, hrebuilt⟩ | ⟨w₁, c₁, moved₁, hwalk, hrebuilt, hcopied₁, hmember, hpending₁⟩
      · rw [hwalk, hrebuilt]
        exact .inl ⟨rfl, rfl⟩
      · rw [hwalk, hrebuilt]
        have hwalked₁ := hmember.walked hstarts
        have hle := hwalked₁.le
        rcases ih hcopied₁ hpending₁ (by omega) hwalked₁.starts with
          hnone | ⟨w₂, c₂, moved₂, hwalk₂, hrebuilt₂, hcopied₂, hwalked₂, hpending₂⟩
        · exact .inl hnone
        · refine .inr ⟨w₂, c₂, moved₂, hwalk₂, hrebuilt₂, hcopied₂, ?_, hpending₂⟩
          exact hwalked₁.append hwalked₂

theorem fixedPart_walked (layout : Layout) : (layoutCursor layout received size = none ∧
        (boundsOf received buf dest size).deMarshallLayout layout m dest buf = none) ∨
      Copied received m buf dest size layout.size [] (copyIn layout.size ⟨m, buf, dest⟩) ∧
        layoutCursor layout received size =
          layout.members.foldlM (Cursor.member received size) ⟨layout.size, []⟩ ∧
        (boundsOf received buf dest size).deMarshallLayout layout m dest buf =
          layout.members.foldlM (fun c member =>
            (boundsOf received buf dest size).deMarshallMember dest member c)
            (copyIn layout.size ⟨m, buf, dest⟩) := by
  have hinside : Region.Inside ⟨buf, layout.size⟩ ⟨buf, received.length⟩ ∧
      Region.Inside ⟨dest, layout.size⟩ ⟨dest, size⟩ ↔
        layout.size ≤ received.length ∧ layout.size ≤ size := by
    simp only [Region.Inside]
    omega
  unfold layoutCursor Bounds.deMarshallLayout
  by_cases hfits : layout.size ≤ received.length ∧ layout.size ≤ size
  · have hcopy : (boundsOf received buf dest size).copy layout.size ⟨m, buf, dest⟩ =
        some (copyIn layout.size ⟨m, buf, dest⟩) := if_pos (hinside.mpr hfits)
    rw [if_pos hfits, hcopy]
    exact .inr ⟨rebuilding_start (by omega), rfl, rfl⟩
  · have hcopy : (boundsOf received buf dest size).copy layout.size ⟨m, buf, dest⟩ = none :=
      if_neg (mt hinside.mp hfits)
    rw [if_neg hfits, hcopy]
    exact .inl ⟨rfl, rfl⟩

theorem Arrival.layout (h : Arrival received m buf dest size) (layout : Layout) :
    (layoutCursor layout received size = none ∧
        (boundsOf received buf dest size).deMarshallLayout layout m dest buf = none) ∨
      ∃ w c moved, layoutCursor layout received size = some w ∧
        (boundsOf received buf dest size).deMarshallLayout layout m dest buf = some c ∧
        Copied received m buf dest size w.pos moved c ∧
        MembersWalked received layout.size [] layout.members moved w := by
  rcases fixedPart_walked layout with hnone | ⟨hcopied, hwalk, hrebuilt⟩
  · exact .inl hnone
  · rw [hwalk, hrebuilt]
    have hpending : Pending layout.size [] (layout.members ++ []) := by
      rw [List.append_nil]
      exact pending_layout layout
    rcases h.members (w := ⟨layout.size, []⟩) hcopied hpending (Nat.le_refl _) rfl with
      hnone | ⟨w, c, moved, hwalk, hrebuilt, hcopied, hwalked, -⟩
    · exact .inl hnone
    · exact .inr ⟨w, c, moved, hwalk, hrebuilt, hcopied, hwalked⟩

/-- Demarshalling a class goes within the bounds as far as the declaration is complete; the class
infos, whose size may wrap, come last. -/
theorem Arrival.classInfo (h : Arrival received m buf dest size) :
    (layoutCursor WSASERVICECLASSINFOW received size = none ∧
        (boundsOf received buf dest size).deMarshallServiceClassInfo m dest buf = none) ∨
      ∃ w c moved, layoutCursor WSASERVICECLASSINFOW received size = some w ∧
        (boundsOf received buf dest size).deMarshallServiceClassInfo m dest buf = some c ∧
        Copied received m buf dest size w.pos moved c ∧
        MembersWalked received 16 [] WSASERVICECLASSINFOW.members moved w ∧
        (dword (memOf received) 12 = 0 ∧ (∀ v ∈ moved, v.cell ≠ 12) ∨
          dword (memOf received) 12 ≠ 0 ∧ ∃ v ∈ moved, v.cell = 12 ∧
              w.pos = v.target + 20 * dword (memOf received) 8 % 2 ^ 32) := by
  unfold Bounds.deMarshallServiceClassInfo
  rcases fixedPart_walked WSASERVICECLASSINFOW with hnone | ⟨hcopied, hwalk, hrebuilt⟩
  · exact .inl hnone
  · have hmembers : WSASERVICECLASSINFOW.members =
        [⟨0, .fixed 16⟩, ⟨4, .text⟩] ++ [⟨12, .counted 8 20⟩] := rfl
    have hpending := pending_layout WSASERVICECLASSINFOW
    rw [hwalk, hrebuilt]
    rw [hmembers] at hpending ⊢
    rw [List.foldlM_append, List.foldlM_append]
    rcases h.members (w := ⟨WSASERVICECLASSINFOW.size, []⟩) hcopied hpending (Nat.le_refl _)
      rfl with
      ⟨hwalk₁, hrebuilt₁⟩ | ⟨w₁, c₁, moved₁, hwalk₁, hrebuilt₁, hcopied₁, hwalked₁, hpending₁⟩
    · rw [hwalk₁, hrebuilt₁]
      exact .inl ⟨rfl, rfl⟩
    · rw [hwalk₁, hrebuilt₁]
      rcases h.member hcopied₁ hpending₁ hwalked₁.le with
        ⟨hwalk₂, hrebuilt₂⟩ | ⟨w₂, c₂, moved₂, hwalk₂, hrebuilt₂, hcopied₂, hmember, -⟩
      · refine .inl ⟨?_, ?_⟩
        · exact congrArg (Option.bind · pure) hwalk₂
        · exact congrArg (Option.bind · pure) hrebuilt₂
      · refine .inr ⟨w₂, c₂, moved₂, ?_, ?_, hcopied₂,
          hwalked₁.append (hmember.walked hwalked₁.starts), ?_⟩
        · exact congrArg (Option.bind · pure) hwalk₂
        · exact congrArg (Option.bind · pure) hrebuilt₂
        · rcases hmember with ⟨hnull, -, rfl⟩ | ⟨hthere, hdata, -, -, v, rfl, hcell, htarget⟩
          · refine .inl ⟨hnull, fun v hv => ?_⟩
            rcases hwalked₁.origin v hv with hnil | ⟨member, hmember, hcell, -⟩
            · exact absurd hnil List.not_mem_nil
            · rw [hcell]
              rcases List.mem_pair.mp hmember with rfl | rfl
              · decide
              · decide
          · refine .inr ⟨hthere, v, List.mem_cons_self, hcell, ?_⟩
            rw [htarget]
            exact Cursor.pos_counted hdata

/-! ## The addresses -/

/-- A pointer to the copy of the array at offset `a` is stored in `lpcsaBuffer`. -/
def ArrayMoved (a : ℕ) (moved : List Moved) : Prop :=
  ∃ v ∈ moved, v.cell = lpcsaBuffer.offset ∧ v.target = a

theorem ArrayMoved.cons (h : ArrayMoved a moved) (v : Moved) : ArrayMoved a (v :: moved) := by
  obtain ⟨u, hu, hcell⟩ := h
  exact ⟨u, List.mem_cons_of_mem _ hu, hcell⟩

theorem csAddrEntry_copied (hcopied : Copied received m buf dest size k moved c)
    (harray : ArrayMoved a moved) (i : ℕ) : csAddrEntry c.m dest i = dest + (a + 24 * i) := by
  obtain ⟨v, hv, hcell, htarget⟩ := harray
  have hread := hcopied.cells v hv
  rw [hcell, htarget] at hread
  rw [csAddrEntry, hread, Nat.add_assoc]

theorem csAddrEntry_eq (hcopied : Copied received m buf dest size k moved c)
    (harray : ArrayMoved a moved) (hsize : 52 ≤ size) (i : ℕ) :
    (boundsOf received buf dest size).csAddrEntry c.m dest i = some (dest + (a + 24 * i)) := by
  rw [← csAddrEntry_copied hcopied harray i, Bounds.csAddrEntry,
    load_eq (o := lpcsaBuffer.offset) hsize]
  rfl

theorem Arrival.address (h : Arrival received m buf dest size)
    (hcopied : Copied received m buf dest size w.pos moved c) (harray : ArrayMoved a moved)
    (hsize : 52 ≤ size) {member : Member} (hextent : member.extent = .counted (member.offset + 4) 1)
    (hin : a + 24 * i + member.offset + 8 ≤ w.pos)
    (hclear : Untouched moved (a + 24 * i + member.offset) 8) :
    (w.data received size (a + 24 * i) member.extent = none ∧
        ((boundsOf received buf dest size).csAddrEntry c.m dest i).bind (fun entry =>
          (boundsOf received buf dest size).rebuildMember entry member c) = none) ∨
      ∃ w' c', w.data received size (a + 24 * i) member.extent = some w' ∧
        ((boundsOf received buf dest size).csAddrEntry c.m dest i).bind (fun entry =>
          (boundsOf received buf dest size).rebuildMember entry member c) = some c' ∧
        Copied received m buf dest size w'.pos
          (⟨a + 24 * i + member.offset, w.pos, buf + w.pos, w'.pos - w.pos⟩ :: moved) c' ∧
        w'.starts = w.pos :: w.starts ∧ w.pos ≤ w'.pos := by
  rw [csAddrEntry_eq hcopied harray hsize, Option.bind_some]
  refine h.data hcopied rfl (by omega) ?_ ?_
  · intro v hv
    have hapart := hclear v hv
    omega
  · intro count hcount
    rw [hextent] at hcount
    obtain rfl := Option.some.inj hcount
    refine ⟨by omega, fun v hv => ?_⟩
    have hapart := hclear v hv
    omega

/-- The first `i` entries have been rebuilt; `moved₁` are the pointers stored before. -/
structure EntriesWalked (a i : ℕ) (moved₁ moved : List Moved) : Prop where
  keeps : moved₁ ⊆ moved
  origin : ∀ v ∈ moved, v ∈ moved₁ ∨
    ∃ j < i, (v.cell = a + 24 * j ∨ v.cell = a + 24 * j + 8) ∧ a ≤ v.target
  each : ∀ j < i, (∃ v ∈ moved, v.cell = a + 24 * j) ∧ ∃ v ∈ moved, v.cell = a + 24 * j + 8

theorem Arrival.csAddr (h : Arrival received m buf dest size)
    (hcopied : Copied received m buf dest size w.pos moved c)
    (harray : ArrayMoved a moved) (hsize : 52 ≤ size) (hentries : EntriesWalked a i moved₁ moved)
    (hbefore : ∀ v ∈ moved₁, v.cell + 4 ≤ a) (hi : a + 24 * (i + 1) ≤ w.pos)
    (hstarts : moved.map (·.target) = w.starts) : (w.csAddr received size a i = none ∧
        (boundsOf received buf dest size).rebuildCsAddr dest c i = none) ∨
      ∃ w' c' moved', w.csAddr received size a i = some w' ∧
        (boundsOf received buf dest size).rebuildCsAddr dest c i = some c' ∧
        Copied received m buf dest size w'.pos moved' c' ∧ ArrayMoved a moved' ∧
        EntriesWalked a (i + 1) moved₁ moved' ∧ moved'.map (·.target) = w'.starts ∧
        w.pos ≤ w'.pos := by
  have hclear : ∀ v ∈ moved, v.cell + 4 ≤ a + 24 * i := by
    intro v hv
    rcases hentries.origin v hv with hv | ⟨j, hj, hcell, -⟩
    · have hle := hbefore v hv
      omega
    · omega
  have hlocal : a + 24 * i + localAddr.offset = a + 24 * i := rfl
  have hremote : a + 24 * i + remoteAddr.offset = a + 24 * i + 8 := rfl
  unfold Cursor.csAddr Bounds.rebuildCsAddr
  rcases h.address hcopied harray hsize
    (rfl : localAddr.extent = .counted (localAddr.offset + 4) 1) (by omega)
    (fun v hv => .inl (hclear v hv)) with
    ⟨hwalk, hrebuilt⟩ | ⟨w₁, c₁, hwalk, hrebuilt, hcopied₁, hstarts₁, hle₁⟩
  · rw [hwalk, hrebuilt]
    exact .inl ⟨rfl, rfl⟩
  · rw [hwalk, hrebuilt]
    have hclear₁ : Untouched (⟨a + 24 * i + localAddr.offset, w.pos, buf + w.pos, w₁.pos - w.pos⟩ ::
        moved) (a + 24 * i + remoteAddr.offset) 8 := by
      intro v hv
      rcases List.mem_cons.mp hv with rfl | hv
      · exact .inl (by dsimp only; omega)
      · exact .inl (Nat.le_trans (hclear v hv) (by omega))
    rcases h.address hcopied₁ (harray.cons _) hsize
      (rfl : remoteAddr.extent = .counted (remoteAddr.offset + 4) 1) (by omega) hclear₁ with
      hnone | ⟨w₂, c₂, hwalk₂, hrebuilt₂, hcopied₂, hstarts₂, hle₂⟩
    · exact .inl hnone
    · refine .inr ⟨w₂, c₂, _, hwalk₂, hrebuilt₂, hcopied₂, (harray.cons _).cons _, ?_, ?_, by omega⟩
      · constructor
        case keeps =>
          intro v hv
          exact List.mem_cons_of_mem _ (List.mem_cons_of_mem _ (hentries.keeps hv))
        case origin =>
          intro v hv
          rcases List.mem_cons.mp hv with rfl | hv
          · exact .inr ⟨i, Nat.lt_succ_self i, .inr rfl, by dsimp only; omega⟩
          · rcases List.mem_cons.mp hv with rfl | hv
            · exact .inr ⟨i, Nat.lt_succ_self i, .inl rfl, by dsimp only; omega⟩
            · rcases hentries.origin v hv with hv | ⟨j, hj, hcell, htarget⟩
              · exact .inl hv
              · exact .inr ⟨j, Nat.lt_succ_of_lt hj, hcell, htarget⟩
        case each =>
          intro j hj
          rcases Nat.lt_succ_iff_lt_or_eq.mp hj with hj | rfl
          · obtain ⟨⟨v, hv, hcell⟩, ⟨u, hu, hcell'⟩⟩ := hentries.each j hj
            exact ⟨⟨v, List.mem_cons_of_mem _ (List.mem_cons_of_mem _ hv), hcell⟩,
              ⟨u, List.mem_cons_of_mem _ (List.mem_cons_of_mem _ hu), hcell'⟩⟩
          · exact ⟨⟨_, List.mem_cons_of_mem _ List.mem_cons_self, hlocal⟩,
              ⟨_, List.mem_cons_self, hremote⟩⟩
      · rw [List.map_cons, List.map_cons, hstarts, hstarts₂, hstarts₁]

theorem Arrival.csAddrLoop (h : Arrival received m buf dest size)
    (hcopied : Copied received m buf dest size w.pos moved c) {n : ℕ}
    (harray : ArrayMoved a moved) (hsize : 52 ≤ size) (hbefore : ∀ v ∈ moved, v.cell + 4 ≤ a)
    (hn : a + 24 * n ≤ w.pos) (hstarts : moved.map (·.target) = w.starts) (hi : i ≤ n) :
    ((List.range i).foldlM (Cursor.csAddr received size a) w = none ∧
        (List.range i).foldlM ((boundsOf received buf dest size).rebuildCsAddr dest) c = none) ∨
      ∃ w' c' moved', (List.range i).foldlM (Cursor.csAddr received size a) w = some w' ∧
        (List.range i).foldlM ((boundsOf received buf dest size).rebuildCsAddr dest) c = some c' ∧
        Copied received m buf dest size w'.pos moved' c' ∧ ArrayMoved a moved' ∧
        EntriesWalked a i moved moved' ∧ moved'.map (·.target) = w'.starts ∧ w.pos ≤ w'.pos := by
  induction i with
  | zero =>
      refine .inr ⟨w, c, moved, rfl, rfl, hcopied, harray,
        ⟨fun _ hv => hv, fun v hv => .inl hv, ?_⟩, hstarts, Nat.le_refl _⟩
      intro j hj
      exact absurd hj (Nat.not_lt_zero j)
  | succ i ih =>
      rw [List.range_succ, List.foldlM_append, List.foldlM_append]
      rcases ih (by omega) with
        ⟨hwalk, hrebuilt⟩ | ⟨w₁, c₁, moved₁, hwalk, hrebuilt, hcopied₁, harray₁, hentries, hstarts₁,
          hle₁⟩
      · rw [hwalk, hrebuilt]
        exact .inl ⟨rfl, rfl⟩
      · rw [hwalk, hrebuilt]
        rcases h.csAddr hcopied₁ harray₁ hsize hentries hbefore (by omega) hstarts₁ with
          ⟨hwalk₂, hrebuilt₂⟩ | ⟨w₂, c₂, moved₂, hwalk₂, hrebuilt₂, hcopied₂, harray₂, hentries₂,
            hstarts₂, hle₂⟩
        · refine .inl ⟨?_, ?_⟩
          · exact congrArg (Option.bind · pure) hwalk₂
          · exact congrArg (Option.bind · pure) hrebuilt₂
        · refine .inr ⟨w₂, c₂, moved₂, ?_, ?_, hcopied₂, harray₂, hentries₂, hstarts₂,
            Nat.le_trans hle₁ hle₂⟩
          · exact congrArg (Option.bind · pure) hwalk₂
          · exact congrArg (Option.bind · pure) hrebuilt₂

/-! ## A number of addresses whose size wraps -/

/-- `lpcsaBuffer` leads to offset `a` of the block, and the copy has passed the fixed part. -/
structure ArrayAt (dest a : ℕ) (c : DeMarshalling) : Prop where
  pointer : dword c.m (dest + lpcsaBuffer.offset) = dest + a
  passed : dest + 60 ≤ c.ptrdest

theorem ArrayAt.rebuildMember {b : Bounds} {entry : ℕ} {member : Member} {c : DeMarshalling}
    (h : ArrayAt dest a c) (hentry : dest + 60 ≤ entry)
    (hrebuilt : b.rebuildMember entry member c = some c') : ArrayAt dest a c' := by
  obtain ⟨n, -, hrebuilt⟩ := Option.bind_eq_some_iff.mp hrebuilt
  obtain ⟨copied, hcopy, hstore⟩ := Option.bind_eq_some_iff.mp hrebuilt
  rw [(Bounds.store_eq_some hstore).1, (Bounds.copy_eq_some hcopy).1]
  have hpassed := h.passed
  constructor
  · rw [← h.pointer]
    refine Same.dword_eq fun i hi => ?_
    have hoffset : lpcsaBuffer.offset = 48 := rfl
    dsimp only [copyIn]
    rw [storeDword_outside (by omega), memcpy_outside (by omega)]
  · exact Nat.le_trans hpassed (Nat.le_add_right _ _)

theorem ArrayAt.rebuildCsAddr {c : DeMarshalling} (h : ArrayAt dest a c) (ha : 60 ≤ a)
    (hrebuilt : (boundsOf received buf dest size).rebuildCsAddr dest c i = some c') :
    ArrayAt dest a c' ∧ a + 24 * i < size := by
  obtain ⟨c₁, hlocal, hremote⟩ := Option.bind_eq_some_iff.mp hrebuilt
  obtain ⟨entry, hentry, hlocal⟩ := Option.bind_eq_some_iff.mp hlocal
  obtain ⟨entry', hentry', hremote⟩ := Option.bind_eq_some_iff.mp hremote
  have hat : entry = dest + a + 24 * i := by
    rw [Bounds.csAddrEntry_eq_some hentry, csAddrEntry, h.pointer]
  have h₁ := h.rebuildMember (by omega) hlocal
  have hat' : entry' = dest + a + 24 * i := by
    rw [Bounds.csAddrEntry_eq_some hentry', csAddrEntry, h₁.pointer]
  refine ⟨h₁.rebuildMember (by omega) hremote, ?_⟩
  obtain ⟨n, hsize, -⟩ := Option.bind_eq_some_iff.mp hlocal
  obtain ⟨v, hload, -⟩ := Option.map_eq_some_iff.mp hsize
  have hinside := (Bounds.load_eq_some hload).2
  simp only [Region.Inside, boundsOf] at hinside
  omega

theorem ArrayAt.loop {n : ℕ} {c : DeMarshalling} (h : ArrayAt dest a c) (ha : 60 ≤ a)
    (hloop : (List.range n).foldlM ((boundsOf received buf dest size).rebuildCsAddr dest) c =
      some c') : ArrayAt dest a c' ∧ ∀ i < n, a + 24 * i < size := by
  induction n generalizing c' with
  | zero =>
      obtain rfl := Option.some.inj hloop
      exact ⟨h, fun i hi => absurd hi (Nat.not_lt_zero i)⟩
  | succ n ih =>
      rw [List.range_succ, List.foldlM_append] at hloop
      obtain ⟨c₁, hinit, hlast⟩ := Option.bind_eq_some_iff.mp hloop
      rw [List.foldlM_cons] at hlast
      obtain ⟨c₂, hround, hdone⟩ := Option.bind_eq_some_iff.mp hlast
      obtain rfl := Option.some.inj hdone
      obtain ⟨h₁, hall⟩ := ih hinit
      obtain ⟨h₂, hlt⟩ := h₁.rebuildCsAddr ha hround
      refine ⟨h₂, fun i hi => ?_⟩
      rcases Nat.lt_succ_iff_lt_or_eq.mp hi with hi | rfl
      · exact hall i hi
      · exact hlt

theorem Arrival.csAddrLoop_wrapped (h : Arrival received m buf dest size)
    (hcopied : Copied received m buf dest size k moved c) (harray : ArrayMoved a moved)
    (ha : 60 ≤ a) (hk : 60 ≤ k) (hn : 2 ^ 32 ≤ 24 * n) :
    (List.range n).foldlM ((boundsOf received buf dest size).rebuildCsAddr dest) c = none := by
  by_contra hne
  obtain ⟨c', hloop⟩ := Option.ne_none_iff_exists'.mp hne
  obtain ⟨v, hv, hcell, htarget⟩ := harray
  have hat : ArrayAt dest a c := by
    constructor
    · rw [← hcell, hcopied.cells v hv, htarget]
    · rw [hcopied.ptrdest]
      omega
  have hlast := (hat.loop ha hloop).2 (n - 1) (by omega)
  have hblock := h.block
  omega

/-! ## The whole service -/

/-- What demarshalling a service has stored. -/
structure ServiceWalked (received : List UInt8) (moved : List Moved) (w : Cursor) : Prop where
  starts : moved.map (·.target) = w.starts
  le : 60 ≤ w.pos
  origin : ∀ v ∈ moved, 60 ≤ v.target ∧
    ((∃ member ∈ lpcsaBuffer :: WSAQUERYSETW.members, v.cell = member.offset) ∨
      ∃ a i, ArrayMoved a moved ∧ i < dword (memOf received) 44 ∧
        (v.cell = a + 24 * i ∨ v.cell = a + 24 * i + 8))
  each : ∀ member ∈ WSAQUERYSETW.members, dword (memOf received) member.offset = 0 ∨
    ∃ v ∈ moved, v.cell = member.offset
  array : dword (memOf received) lpcsaBuffer.offset = 0 ∧
      (∀ v ∈ moved, v.cell ≠ lpcsaBuffer.offset) ∨
    ∃ a, ArrayMoved a moved ∧ a + 24 * dword (memOf received) 44 ≤ w.pos ∧
      ∀ i < dword (memOf received) 44, (∃ v ∈ moved, v.cell = a + 24 * i) ∧
        ∃ v ∈ moved, v.cell = a + 24 * i + 8

theorem MembersWalked.untouched {w : Cursor}
    (hwalked : MembersWalked received WSAQUERYSETW.size [] WSAQUERYSETW.members moved w)
    (ho : o ∈ [0, 20, 32, 44, 48, 52]) : Untouched moved o 4 := by
  intro v hv
  rcases hwalked.origin v hv with hnil | ⟨member, hmember, hcell, -⟩
  · exact absurd hnil List.not_mem_nil
  · rw [hcell]
    exact querySet_apart o ho member hmember

theorem Arrival.csAddrs (h : Arrival received m buf dest size)
    (hcopied : Copied received m buf dest size w.pos moved c)
    (hwalked : MembersWalked received WSAQUERYSETW.size [] WSAQUERYSETW.members moved w) :
    (w.csAddrs received size = none ∧
        (boundsOf received buf dest size).deMarshallCsAddrs dest c = none) ∨
      ∃ w' c' moved', w.csAddrs received size = some w' ∧
        (boundsOf received buf dest size).deMarshallCsAddrs dest c = some c' ∧
        Copied received m buf dest size w'.pos moved' c' ∧ ServiceWalked received moved' w' := by
  have hsixty : 60 ≤ w.pos := hwalked.le
  have hfit := hcopied.fit
  have hcells : ∀ v ∈ moved, v.cell + 4 ≤ 60 ∧ 60 ≤ v.target ∧
      ∃ member ∈ WSAQUERYSETW.members, v.cell = member.offset := by
    intro v hv
    rcases hwalked.origin v hv with hnil | ⟨member, hmember, hcell, htarget⟩
    · exact absurd hnil List.not_mem_nil
    · rw [hcell]
      exact ⟨WSAQUERYSETW.inside member hmember, htarget, member, hmember, rfl⟩
  have hread : (boundsOf received buf dest size).load c.m (dest + lpcsaBuffer.offset) =
      some (dword (memOf received) lpcsaBuffer.offset) := by
    have hword := h.word_eq hcopied (o := lpcsaBuffer.offset) (Nat.le_trans (by decide) hsixty)
      (hwalked.untouched (by decide))
    rw [load_eq (Nat.le_trans (by decide : lpcsaBuffer.offset + 4 ≤ 60) (by omega)), hword]
  rw [Cursor.csAddrs, Bounds.deMarshallCsAddrs, hread, Option.bind_eq_bind, Option.bind_some]
  by_cases hnull : dword (memOf received) lpcsaBuffer.offset = 0
  · rw [if_pos hnull, if_pos hnull]
    refine .inr ⟨w, c, moved, rfl, rfl, hcopied, hwalked.starts, hsixty, ?_, hwalked.each,
      .inl ⟨hnull, ?_⟩⟩
    · intro v hv
      obtain ⟨-, htarget, member, hmember, hcell⟩ := hcells v hv
      exact ⟨htarget, .inl ⟨member, List.mem_cons_of_mem _ hmember, hcell⟩⟩
    · intro v hv hcell
      rcases hwalked.untouched (o := 48) (by decide) v hv with hbefore | hbehind
      · exact absurd (hcell ▸ hbefore) (by decide)
      · exact absurd (hcell ▸ hbehind) (by decide)
  · rw [if_neg hnull, if_neg hnull]
    have hcount : CountCopied moved 0 w.pos lpcsaBuffer.extent := by
      intro count hmem
      obtain rfl := Option.some.inj hmem
      exact ⟨by omega, hwalked.untouched (by decide)⟩
    rcases h.data hcopied (Nat.zero_add lpcsaBuffer.offset)
      (Nat.le_trans (by decide : lpcsaBuffer.offset + 4 ≤ 60) hsixty)
      (hwalked.untouched (by decide)) hcount with
      ⟨hwalk, hrebuilt⟩ | ⟨w₁, c₁, hwalk, hrebuilt, hcopied₁, hstarts₁, hle₁⟩
    · refine .inl ⟨?_, ?_⟩
      · rw [hwalk]
        split
        · rfl
        · rfl
      · rw [Nat.add_zero] at hrebuilt
        rw [hrebuilt]
        rfl
    · rw [Nat.add_zero] at hrebuilt
      simp only [hrebuilt, hwalk, Option.bind_eq_bind, Option.bind_some]
      have hfit₁ := hcopied₁.fit
      have hoffset : lpcsaBuffer.offset = 48 := rfl
      have harray : ArrayMoved w.pos
          (⟨lpcsaBuffer.offset, w.pos, buf + w.pos, w₁.pos - w.pos⟩ :: moved) :=
        ⟨_, List.mem_cons_self, rfl, rfl⟩
      have hclear₁ : Untouched (⟨lpcsaBuffer.offset, w.pos, buf + w.pos, w₁.pos - w.pos⟩ :: moved)
          44 4 := by
        intro v hv
        rcases List.mem_cons.mp hv with rfl | hv
        · exact .inr (by dsimp only; omega)
        · exact hwalked.untouched (by decide) v hv
      have hcount₁ : (boundsOf received buf dest size).load c₁.m (dest + 44) =
          some (dword (memOf received) 44) := by
        rw [load_eq (by omega), h.word_eq hcopied₁ (by omega) hclear₁]
      rw [hcount₁, Option.bind_some]
      have hsize := Cursor.pos_counted hwalk
      by_cases hwrap : 24 * dword (memOf received) 44 < 2 ^ 32
      · rw [if_pos hwrap]
        rw [Nat.mod_eq_of_lt hwrap] at hsize
        have hbefore : ∀ v ∈ (⟨lpcsaBuffer.offset, w.pos, buf + w.pos, w₁.pos - w.pos⟩ : Moved) ::
            moved, v.cell + 4 ≤ w.pos := by
          intro v hv
          rcases List.mem_cons.mp hv with rfl | hv
          · dsimp only
            omega
          · have hcell := (hcells v hv).1
            omega
        have hstarts : (⟨lpcsaBuffer.offset, w.pos, buf + w.pos, w₁.pos - w.pos⟩ :: moved).map
            (·.target) = w₁.starts := by
          rw [List.map_cons, hstarts₁, hwalked.starts]
        rcases h.csAddrLoop hcopied₁ harray (by omega) hbefore (Nat.le_of_eq hsize.symm) hstarts
          (Nat.le_refl _) with
          hnone | ⟨w₂, c₂, moved₂, hwalk₂, hloop, hcopied₂, harray₂, hentries, hstarts₂, hle₂⟩
        · exact .inl hnone
        · refine .inr ⟨w₂, c₂, moved₂, hwalk₂, hloop, hcopied₂, ?_⟩
          constructor
          case starts => exact hstarts₂
          case le => omega
          case origin =>
            intro v hv
            rcases hentries.origin v hv with hv | ⟨i, hi, hcell, htarget⟩
            · rcases List.mem_cons.mp hv with rfl | hv
              · exact ⟨hsixty, .inl ⟨lpcsaBuffer, List.mem_cons_self, rfl⟩⟩
              · obtain ⟨-, htarget, member, hmember, hcell⟩ := hcells v hv
                exact ⟨htarget, .inl ⟨member, List.mem_cons_of_mem _ hmember, hcell⟩⟩
            · exact ⟨Nat.le_trans hsixty htarget, .inr ⟨w.pos, i, harray₂, hi, hcell⟩⟩
          case each =>
            intro member hmember
            rcases hwalked.each member hmember with hnull | ⟨v, hv, hcell⟩
            · exact .inl hnull
            · exact .inr ⟨v, hentries.keeps (List.mem_cons_of_mem _ hv), hcell⟩
          case array => exact .inr ⟨w.pos, harray₂, by omega, hentries.each⟩
      · rw [if_neg hwrap]
        exact .inl ⟨rfl, h.csAddrLoop_wrapped hcopied₁ harray hsixty (by omega) (by omega)⟩

theorem Arrival.serviceInfo (h : Arrival received m buf dest size) :
    (serviceInfoCursor received size = none ∧
        (boundsOf received buf dest size).deMarshallServiceInfo m dest buf = none) ∨
      ∃ w c moved, serviceInfoCursor received size = some w ∧
        (boundsOf received buf dest size).deMarshallServiceInfo m dest buf = some c ∧
        Copied received m buf dest size w.pos moved c ∧ ServiceWalked received moved w := by
  unfold serviceInfoCursor Bounds.deMarshallServiceInfo
  rcases h.layout WSAQUERYSETW with
    ⟨hwalk, hrebuilt⟩ | ⟨w, c, moved, hwalk, hrebuilt, hcopied, hwalked⟩
  · rw [hwalk, hrebuilt]
    exact .inl ⟨rfl, rfl⟩
  · rw [hwalk, hrebuilt]
    exact h.csAddrs hcopied hwalked

end Arrival

end MiscProjects.NameService
