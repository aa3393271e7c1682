import MiscProjects.NameService.Received
import MiscProjects.NameService.RequestLoop

/-!
# Hostile input

Demarshalling believes what it reads: that the members are there, that the strings end, that the
arrays have so many elements.  It stays within the bytes that were received and within the block
exactly if the declaration is complete.  Pointers that it does not rebuild are left as the peer has
sent them: `lpBlob`, and those of the class infos.
-/

namespace MiscProjects.NameService

open MiscProjects.Memory

/-! ## Safety -/

/-- The pointer is `NULL` or leads into the block. -/
def Bounds.Leads (b : Bounds) (p : ℕ) : Prop :=
  p = 0 ∨ b.block.addr ≤ p ∧ p < b.block.addr + b.block.len

instance (b : Bounds) (p : ℕ) : Decidable (b.Leads p) := inferInstanceAs (Decidable (_ ∨ _))

/-- The offset of `lpBlob`. -/
def lpBlob : ℕ := 56

/-- Every access is within the bounds, and every pointer of the service and of its addresses is
`NULL` or leads into the block. -/
def ServiceInfoSafe (b : Bounds) (m : Mem) (qs buf : ℕ) : Prop :=
  ∃ d, b.deMarshallServiceInfo m qs buf = some d ∧
    (∀ member ∈ lpcsaBuffer :: WSAQUERYSETW.members, b.Leads (dword d.m (qs + member.offset))) ∧
    b.Leads (dword d.m (qs + lpBlob)) ∧
    (dword d.m (qs + lpcsaBuffer.offset) ≠ 0 → ∀ i < dword d.m (qs + 44),
      Region.Inside ⟨csAddrEntry d.m qs i, 24⟩ b.block ∧
        ∀ member ∈ [localAddr, remoteAddr],
          b.Leads (dword d.m (csAddrEntry d.m qs i + member.offset)))

/-- Every access is within the bounds, and every pointer of the class and of its class infos is
`NULL` or leads into the block. -/
def ClassInfoSafe (b : Bounds) (m : Mem) (sc buf : ℕ) : Prop :=
  ∃ d, b.deMarshallServiceClassInfo m sc buf = some d ∧
    (∀ member ∈ WSASERVICECLASSINFOW.members, b.Leads (dword d.m (sc + member.offset))) ∧
    (dword d.m (sc + lpClassInfos.offset) ≠ 0 → ∀ i < dword d.m (sc + 8),
      Region.Inside ⟨classInfoEntry d.m sc i, 20⟩ b.block ∧
        ∀ member ∈ [lpszName, lpValue],
          b.Leads (dword d.m (classInfoEntry d.m sc i + member.offset)))

/-! ## Complete declarations -/

/-- The declared data are complete and have room in the block, all pointers lead to places before
the end of the block, and the `lpBlob` of the peer is `NULL` or an address in the block. -/
def CompleteServiceInfo (received : List UInt8) (b : Bounds) : Prop :=
  ∃ w, serviceInfoCursor received b.block.len = some w ∧ (∀ a ∈ w.starts, a < b.block.len) ∧
    b.Leads (dword (memOf received) lpBlob)

/-- The same for a class; the class infos come last, and their number must not wrap. -/
def CompleteClassInfo (received : List UInt8) (b : Bounds) : Prop :=
  ∃ w, layoutCursor WSASERVICECLASSINFOW received b.block.len = some w ∧
    (∀ a ∈ w.starts, a < b.block.len) ∧
    (dword (memOf received) 12 ≠ 0 → 20 * dword (memOf received) 8 < 2 ^ 32 ∧
      ∀ i < dword (memOf received) 8, ∀ member ∈ [lpszName, lpValue],
        b.Leads (dword (memOf received)
          (w.pos - 20 * dword (memOf received) 8 + 20 * i + member.offset)))

section Safety
variable {received : List UInt8} {m : Mem} {buf dest size k o : ℕ} {moved : List Moved}
  {c : DeMarshalling} {w : Cursor}

variable {v : Moved} {member : Member}

theorem leads_iff (hcopied : Copied received m buf dest size k moved c)
    (hv : v ∈ moved) (hpos : 0 < v.target) :
    (boundsOf received buf dest size).Leads (dword c.m (dest + v.cell)) ↔ v.target < size := by
  rw [hcopied.cells v hv]
  simp only [Bounds.Leads, boundsOf]
  omega

/-! ## Services -/

theorem serviceInfo_apart : ∀ o ∈ [0, 20, 32, 44, 52, 56],
    ∀ member ∈ lpcsaBuffer :: WSAQUERYSETW.members, OffsetsApart member.offset o := by
  decide

theorem serviceInfo_members_apart : ∀ member ∈ lpcsaBuffer :: WSAQUERYSETW.members,
    ∀ other ∈ lpcsaBuffer :: WSAQUERYSETW.members,
      other.offset = member.offset ∨ OffsetsApart other.offset member.offset := by
  decide

theorem serviceInfo_inside : ∀ member ∈ lpcsaBuffer :: WSAQUERYSETW.members,
    member.offset + 4 ≤ 60 := by
  decide

theorem ServiceWalked.cells (h : ServiceWalked received moved w) (hv : v ∈ moved) :
    (∃ member ∈ lpcsaBuffer :: WSAQUERYSETW.members, v.cell = member.offset) ∨ 60 ≤ v.cell := by
  rcases (h.origin v hv).2 with hmember | ⟨a, i, ⟨u, hu, -, htarget⟩, -, hcell⟩
  · exact .inl hmember
  · have hle := (h.origin u hu).1
    exact .inr (by omega)

theorem ServiceWalked.untouched (h : ServiceWalked received moved w)
    (ho : o ∈ [0, 20, 32, 44, 52, 56]) : Untouched moved o 4 := by
  intro v hv
  rcases h.cells hv with ⟨member, hmember, hcell⟩ | hbehind
  · rw [hcell]
    exact serviceInfo_apart o ho member hmember
  · have hle : o + 4 ≤ 60 := by
      simp only [List.mem_cons, List.not_mem_nil, or_false] at ho
      omega
    exact .inr (Nat.le_trans hle hbehind)

theorem ServiceWalked.untouched_member (h : ServiceWalked received moved w)
    (hmember : member ∈ lpcsaBuffer :: WSAQUERYSETW.members)
    (hnone : ∀ v ∈ moved, v.cell ≠ member.offset) : Untouched moved member.offset 4 := by
  intro v hv
  rcases h.cells hv with ⟨other, hother, hcell⟩ | hbehind
  · rcases serviceInfo_members_apart member hmember other hother with hequal | hapart
    · exact absurd (hcell.trans hequal) (hnone v hv)
    · rw [hcell]
      exact hapart
  · exact .inr (Nat.le_trans (serviceInfo_inside member hmember) hbehind)

theorem ServiceWalked.stored (h : ServiceWalked received moved w)
    (hmember : member ∈ lpcsaBuffer :: WSAQUERYSETW.members) :
    dword (memOf received) member.offset = 0 ∨ ∃ v ∈ moved, v.cell = member.offset := by
  rcases List.mem_cons.mp hmember with rfl | hmember
  · rcases h.array with ⟨hnull, -⟩ | ⟨a, ⟨v, hv, hcell, -⟩, -⟩
    · exact .inl hnull
    · exact .inr ⟨v, hv, hcell⟩
  · exact h.each member hmember

theorem Arrival.pointers_iff (h : Arrival received m buf dest size)
    (hcopied : Copied received m buf dest size w.pos moved c)
    (hwalked : ServiceWalked received moved w) : ((∀ member ∈ lpcsaBuffer :: WSAQUERYSETW.members,
          (boundsOf received buf dest size).Leads (dword c.m (dest + member.offset))) ∧
        (dword c.m (dest + lpcsaBuffer.offset) ≠ 0 → ∀ i < dword c.m (dest + 44),
          Region.Inside ⟨csAddrEntry c.m dest i, 24⟩ ⟨dest, size⟩ ∧
            ∀ member ∈ [localAddr, remoteAddr], (boundsOf received buf dest size).Leads
                (dword c.m (csAddrEntry c.m dest i + member.offset)))) ↔
      ∀ a ∈ w.starts, a < size := by
  have hle := hwalked.le
  have hfit := hcopied.fit
  have hcount : dword c.m (dest + 44) = dword (memOf received) 44 :=
    h.word_eq hcopied (by omega) (hwalked.untouched (by decide))
  rw [hcount]
  constructor
  · rintro ⟨hmembers, hentries⟩ a ha
    rw [← hwalked.starts] at ha
    obtain ⟨v, hv, rfl⟩ := List.mem_map.mp ha
    obtain ⟨htarget, horigin⟩ := hwalked.origin v hv
    apply (leads_iff hcopied hv (by omega)).mp
    rcases horigin with ⟨member, hmember, hcell⟩ | ⟨a, i, harray, hi, hcell⟩
    · rw [hcell]
      exact hmembers member hmember
    · have hentry := csAddrEntry_copied hcopied harray i
      have hthere : dword c.m (dest + lpcsaBuffer.offset) ≠ 0 := by
        obtain ⟨u, hu, hcell', htarget'⟩ := harray
        have hbehind := (hwalked.origin u hu).1
        rw [← hcell', hcopied.cells u hu]
        omega
      have hleads := (hentries hthere i hi).2
      rw [hentry] at hleads
      rcases hcell with hcell | hcell
      · rw [hcell]
        exact hleads localAddr List.mem_cons_self
      · rw [hcell, ← Nat.add_assoc]
        exact hleads remoteAddr (List.mem_cons_of_mem _ List.mem_cons_self)
  · intro hstarts
    have hinside : ∀ v ∈ moved,
        (boundsOf received buf dest size).Leads (dword c.m (dest + v.cell)) := by
      intro v hv
      have hbehind := (hwalked.origin v hv).1
      apply (leads_iff hcopied hv (by omega)).mpr
      apply hstarts
      rw [← hwalked.starts]
      exact List.mem_map_of_mem hv
    have hmembers : ∀ member ∈ lpcsaBuffer :: WSAQUERYSETW.members,
        (boundsOf received buf dest size).Leads (dword c.m (dest + member.offset)) := by
      intro member hmember
      by_cases hstored : ∃ v ∈ moved, v.cell = member.offset
      · obtain ⟨v, hv, hcell⟩ := hstored
        rw [← hcell]
        exact hinside v hv
      · have hnone : ∀ v ∈ moved, v.cell ≠ member.offset := fun v hv hcell => hstored ⟨v, hv, hcell⟩
        have hoffset := serviceInfo_inside member hmember
        rw [h.word_eq hcopied (by omega) (hwalked.untouched_member hmember hnone)]
        exact .inl ((hwalked.stored hmember).resolve_right hstored)
    refine ⟨hmembers, fun hthere i hi => ?_⟩
    rcases hwalked.array with ⟨hnull, hnone⟩ | ⟨a, harray, hroom, heach⟩
    · rw [h.word_eq hcopied (Nat.le_trans (by decide : lpcsaBuffer.offset + 4 ≤ 60) hle)
        (hwalked.untouched_member List.mem_cons_self hnone)] at hthere
      exact absurd hnull hthere
    · rw [csAddrEntry_copied hcopied harray]
      refine ⟨.inr ⟨by dsimp only; omega, by dsimp only; omega⟩, ?_⟩
      obtain ⟨⟨v, hv, hlocal⟩, ⟨u, hu, hremote⟩⟩ := heach i hi
      intro member hmember
      rw [Nat.add_assoc]
      rcases List.mem_cons.mp hmember with rfl | hmember
      · rw [show a + 24 * i + localAddr.offset = v.cell from hlocal.symm]
        exact hinside v hv
      · rw [List.mem_singleton.mp hmember, show a + 24 * i + remoteAddr.offset = u.cell from
          hremote.symm]
        exact hinside u hu

theorem Arrival.serviceInfo_safe (h : Arrival received m buf dest size) :
    ServiceInfoSafe (boundsOf received buf dest size) m dest buf ↔
      CompleteServiceInfo received (boundsOf received buf dest size) := by
  unfold ServiceInfoSafe CompleteServiceInfo
  rcases h.serviceInfo with ⟨hwalk, hrebuilt⟩ | ⟨w, c, moved, hwalk, hrebuilt, hcopied, hwalked⟩
  · rw [hrebuilt]
    constructor
    · rintro ⟨d, hd, -⟩
      cases hd
    · rintro ⟨w, hw, -⟩
      rw [show serviceInfoCursor received (boundsOf received buf dest size).block.len = none from
        hwalk] at hw
      cases hw
  · have hle := hwalked.le
    have hpointers := h.pointers_iff hcopied hwalked
    have hblob : dword c.m (dest + lpBlob) = dword (memOf received) lpBlob :=
      h.word_eq hcopied hle (hwalked.untouched (by decide))
    rw [hrebuilt]
    constructor
    · rintro ⟨d, hd, hmembers, hleads, hentries⟩
      obtain rfl := Option.some.inj hd
      rw [hblob] at hleads
      exact ⟨w, hwalk, hpointers.mp ⟨hmembers, hentries⟩, hleads⟩
    · rintro ⟨w', hw', hstarts, hleads⟩
      obtain rfl := Option.some.inj (hwalk.symm.trans hw')
      obtain ⟨hmembers, hentries⟩ := hpointers.mpr hstarts
      rw [← hblob] at hleads
      exact ⟨c, rfl, hmembers, hleads, hentries⟩

/-! ## Classes -/

theorem classInfo_offsets : ∀ member ∈ WSASERVICECLASSINFOW.members,
    OffsetsApart member.offset 8 ∧ ∀ other ∈ WSASERVICECLASSINFOW.members,
      other.offset = member.offset ∨ OffsetsApart other.offset member.offset := by
  decide

theorem MembersWalked.classCells
    (h : MembersWalked received 16 [] WSASERVICECLASSINFOW.members moved w) (hv : v ∈ moved) :
    16 ≤ v.target ∧ ∃ member ∈ WSASERVICECLASSINFOW.members, v.cell = member.offset := by
  rcases h.origin v hv with hnil | ⟨member, hmember, hcell, htarget⟩
  · exact absurd hnil List.not_mem_nil
  · exact ⟨htarget, member, hmember, hcell⟩

theorem MembersWalked.classUntouched
    (h : MembersWalked received 16 [] WSASERVICECLASSINFOW.members moved w) :
    Untouched moved 8 4 ∧ ∀ a, 16 ≤ a → Untouched moved a 4 := by
  constructor
  · intro v hv
    obtain ⟨-, member, hmember, hcell⟩ := h.classCells hv
    rw [hcell]
    exact (classInfo_offsets member hmember).1
  · intro a ha v hv
    obtain ⟨-, member, hmember, hcell⟩ := h.classCells hv
    have hinside : member.offset + 4 ≤ 16 := WSASERVICECLASSINFOW.inside member hmember
    exact .inl (by omega)

theorem MembersWalked.classUntouched_member
    (h : MembersWalked received 16 [] WSASERVICECLASSINFOW.members moved w)
    (hmember : member ∈ WSASERVICECLASSINFOW.members)
    (hnone : ∀ v ∈ moved, v.cell ≠ member.offset) : Untouched moved member.offset 4 := by
  intro v hv
  obtain ⟨-, other, hother, hcell⟩ := h.classCells hv
  rcases (classInfo_offsets member hmember).2 other hother with hequal | hapart
  · exact absurd (hcell.trans hequal) (hnone v hv)
  · rw [hcell]
    exact hapart

theorem Arrival.classMembers_iff (h : Arrival received m buf dest size)
    (hcopied : Copied received m buf dest size w.pos moved c)
    (hwalked : MembersWalked received 16 [] WSASERVICECLASSINFOW.members moved w) :
    (∀ member ∈ WSASERVICECLASSINFOW.members,
        (boundsOf received buf dest size).Leads (dword c.m (dest + member.offset))) ↔
      ∀ a ∈ w.starts, a < size := by
  constructor
  · intro hmembers a ha
    rw [← hwalked.starts] at ha
    obtain ⟨v, hv, rfl⟩ := List.mem_map.mp ha
    obtain ⟨htarget, member, hmember, hcell⟩ := hwalked.classCells hv
    apply (leads_iff hcopied hv (by omega)).mp
    rw [hcell]
    exact hmembers member hmember
  · intro hstarts member hmember
    by_cases hstored : ∃ v ∈ moved, v.cell = member.offset
    · obtain ⟨v, hv, hcell⟩ := hstored
      have htarget := (hwalked.classCells hv).1
      rw [← hcell]
      apply (leads_iff hcopied hv (by omega)).mpr
      apply hstarts
      rw [← hwalked.starts]
      exact List.mem_map_of_mem hv
    · have hnone : ∀ v ∈ moved, v.cell ≠ member.offset := fun v hv hcell => hstored ⟨v, hv, hcell⟩
      have hinside : member.offset + 4 ≤ 16 := WSASERVICECLASSINFOW.inside member hmember
      have hle := hwalked.le
      rw [h.word_eq hcopied (by omega) (hwalked.classUntouched_member hmember hnone)]
      exact .inl ((hwalked.each member hmember).resolve_right hstored)

theorem Arrival.classInfoEntries_iff (h : Arrival received m buf dest size)
    (hcopied : Copied received m buf dest size w.pos moved c)
    (hwalked : MembersWalked received 16 [] WSASERVICECLASSINFOW.members moved w) (hv : v ∈ moved)
    (hcell : v.cell = 12) (hend : w.pos = v.target + 20 * dword (memOf received) 8 % 2 ^ 32) :
    (∀ i < dword c.m (dest + 8), Region.Inside ⟨classInfoEntry c.m dest i, 20⟩ ⟨dest, size⟩ ∧
        ∀ member ∈ [lpszName, lpValue], (boundsOf received buf dest size).Leads
          (dword c.m (classInfoEntry c.m dest i + member.offset))) ↔
      20 * dword (memOf received) 8 < 2 ^ 32 ∧
        ∀ i < dword (memOf received) 8, ∀ member ∈ [lpszName, lpValue],
          (boundsOf received buf dest size).Leads (dword (memOf received)
            (w.pos - 20 * dword (memOf received) 8 + 20 * i + member.offset)) := by
  have htarget := (hwalked.classCells hv).1
  have hfit := hcopied.fit
  have hblock := h.block
  have hcount : dword c.m (dest + 8) = dword (memOf received) 8 :=
    h.word_eq hcopied (by omega) hwalked.classUntouched.1
  have hentry : ∀ i, classInfoEntry c.m dest i = dest + (v.target + 20 * i) := by
    intro i
    have hread := hcopied.cells v hv
    rw [hcell] at hread
    rw [classInfoEntry, show lpClassInfos.offset = 12 from rfl, hread, Nat.add_assoc]
  have hlast : ∀ member ∈ [lpszName, lpValue], member.offset + 4 ≤ 20 := by decide
  -- what is behind the fixed part has no pointer that was stored
  have hword : 20 * dword (memOf received) 8 < 2 ^ 32 → ∀ i < dword (memOf received) 8,
      ∀ member ∈ [lpszName, lpValue], dword c.m (classInfoEntry c.m dest i + member.offset) =
        dword (memOf received)
          (w.pos - 20 * dword (memOf received) 8 + 20 * i + member.offset) := by
    intro hsmall i hi member hmember
    have hoffset := hlast member hmember
    rw [Nat.mod_eq_of_lt hsmall] at hend
    have hstart : w.pos - 20 * dword (memOf received) 8 = v.target := by omega
    rw [hentry, hstart, Nat.add_assoc]
    exact h.word_eq hcopied (by omega) (hwalked.classUntouched.2 _ (by omega))
  rw [hcount]
  constructor
  · intro hentries
    have hsmall : 20 * dword (memOf received) 8 < 2 ^ 32 := by
      by_contra hlarge
      have hinside := (hentries (dword (memOf received) 8 - 1) (by omega)).1
      rw [hentry] at hinside
      simp only [Region.Inside] at hinside
      omega
    refine ⟨hsmall, fun i hi member hmember => ?_⟩
    rw [← hword hsmall i hi member hmember]
    exact (hentries i hi).2 member hmember
  · rintro ⟨hsmall, hleads⟩ i hi
    refine ⟨?_, fun member hmember => ?_⟩
    · rw [Nat.mod_eq_of_lt hsmall] at hend
      rw [hentry]
      exact .inr ⟨by dsimp only; omega, by dsimp only; omega⟩
    · rw [hword hsmall i hi member hmember]
      exact hleads i hi member hmember

theorem Arrival.classInfo_safe (h : Arrival received m buf dest size) :
    ClassInfoSafe (boundsOf received buf dest size) m dest buf ↔
      CompleteClassInfo received (boundsOf received buf dest size) := by
  unfold ClassInfoSafe CompleteClassInfo
  rcases h.classInfo with
    ⟨hwalk, hrebuilt⟩ | ⟨w, c, moved, hwalk, hrebuilt, hcopied, hwalked, hinfos⟩
  · rw [hrebuilt]
    constructor
    · rintro ⟨d, hd, -⟩
      cases hd
    · rintro ⟨w, hw, -⟩
      rw [show layoutCursor WSASERVICECLASSINFOW received
        (boundsOf received buf dest size).block.len = none from hwalk] at hw
      cases hw
  · have hmembers := h.classMembers_iff hcopied hwalked
    have hle := hwalked.le
    have hthere : dword (memOf received) 12 = 0 ∧ (∀ v ∈ moved, v.cell ≠ 12) →
        dword c.m (dest + lpClassInfos.offset) = 0 := by
      rintro ⟨hnull, hnone⟩
      have hinside : lpClassInfos ∈ WSASERVICECLASSINFOW.members := by decide
      rw [h.word_eq hcopied (Nat.le_trans (by decide : lpClassInfos.offset + 4 ≤ 16) hle)
        (hwalked.classUntouched_member hinside hnone)]
      exact hnull
    rw [hrebuilt]
    constructor
    · rintro ⟨d, hd, hleads, hentries⟩
      obtain rfl := Option.some.inj hd
      refine ⟨w, hwalk, hmembers.mp hleads, fun hinfo => ?_⟩
      rcases hinfos with ⟨hnull, -⟩ | ⟨-, v, hv, hcell, hend⟩
      · exact absurd hnull hinfo
      · have hstored : dword c.m (dest + lpClassInfos.offset) ≠ 0 := by
          have htarget := (hwalked.classCells hv).1
          rw [show lpClassInfos.offset = v.cell from hcell.symm, hcopied.cells v hv]
          omega
        exact (h.classInfoEntries_iff hcopied hwalked hv hcell hend).mp (hentries hstored)
    · rintro ⟨w', hw', hstarts, hentries⟩
      obtain rfl := Option.some.inj (hwalk.symm.trans hw')
      refine ⟨c, rfl, hmembers.mpr hstarts, fun hinfo => ?_⟩
      rcases hinfos with hnull | ⟨hpresent, v, hv, hcell, hend⟩
      · exact absurd (hthere hnull) hinfo
      · exact (h.classInfoEntries_iff hcopied hwalked hv hcell hend).mpr (hentries hpresent)

end Safety

/-! ## The request loop -/

/-- The call that demarshalls the structure of a request is safe: there is a block for it, and the
bytes are those that `readdata` has received. -/
def Process.Safe (p : Process) (l : Locals) (c : Connection) : Prop :=
  let (l, c) := readAction l c
  hasBody l.action.toNat = true →
    let body := (readBody l c).1
    ∃ dest ∈ p.globalAlloc body.size,
      let b := boundsOf body.received p.buf dest body.size
      if l.action.toNat = mynspRegisterClass then ClassInfoSafe b (p.memory body dest) dest p.buf
      else ServiceInfoSafe b (p.memory body dest) dest p.buf

/-- There is a block, and what has been received is complete for it. -/
def Process.Complete (p : Process) (l : Locals) (c : Connection) : Prop :=
  let (l, c) := readAction l c
  hasBody l.action.toNat = true →
    let body := (readBody l c).1
    ∃ dest ∈ p.globalAlloc body.size,
      let b := boundsOf body.received p.buf dest body.size
      if l.action.toNat = mynspRegisterClass then CompleteClassInfo body.received b
      else CompleteServiceInfo body.received b

theorem Process.arrival (p : Process) {body : Body} {dest : ℕ}
    (hdest : dest ∈ p.globalAlloc body.size) (hfits : body.received.length ≤ bufferSz) :
    Arrival body.received (p.memory body dest) p.buf dest body.size := by
  have hbuffer := p.buffer
  have hapart := p.apart body.size dest hdest
  constructor
  case bytes =>
    intro i hi
    unfold Process.memory memOf
    rw [if_neg, if_pos, Nat.zero_add, Nat.add_sub_cancel_left]
    · omega
    · rcases hapart with hbefore | hbehind
      · dsimp only at hbefore
        omega
      · dsimp only at hbehind
        omega
  case apart =>
    rcases hapart with hbefore | hbehind
    · exact .inl (Nat.le_trans (Nat.add_le_add_left hfits _) hbefore)
    · exact .inr hbehind
  case buffer => omega
  case block => exact p.inside body.size dest hdest

/-- For whatever a peer sends, demarshalling stays within what has been received and within the
block exactly if there is a block and the declaration is complete. -/
theorem Process.safe_iff (p : Process) (l : Locals) (c : Connection) :
    p.Safe l c ↔ p.Complete l c := by
  unfold Process.Safe Process.Complete
  dsimp only
  apply forall_congr'
  intro hbody
  apply exists_congr
  intro dest
  apply and_congr_right
  intro hdest
  have harrival := p.arrival hdest (readBody_fits _ _)
  split
  · exact harrival.classInfo_safe
  · exact harrival.serviceInfo_safe

/-- A process of which nothing but the buffer is in use; the block has less than 2048 bytes. -/
def emptyProcess : Process where
  m _ := 0
  buf := 4096
  globalAlloc size := if size < 2048 then some 65536 else none
  buffer := by decide
  apart size dest hdest := by
    obtain ⟨-, hdest⟩ := Option.ite_none_right_eq_some.mp hdest
    obtain rfl := Option.some.inj hdest
    exact .inl (show 4096 + bufferSz ≤ 65536 by decide)
  inside size dest hdest := by
    obtain ⟨hsize, hdest⟩ := Option.ite_none_right_eq_some.mp hdest
    obtain rfl := Option.some.inj hdest
    omega

def clearLocals : Locals where
  action := 0
  bytes2follow := 0
  classguid := List.replicate 16 0
  hQuery := 0
  sixteen := rfl

/-- A lookup whose length word is 4, and the fixed part of a structure. -/
def shortLength : Connection :=
  .accepted (5 :: 4 :: List.replicate 63 0) [0, 3, 59] false

/-- The block has 4 bytes, and the fixed part is copied into it. -/
theorem not_safe_shortLength : ¬emptyProcess.Safe clearLocals shortLength := by
  intro hsafe
  obtain ⟨dest, hdest, hsafe⟩ := hsafe rfl
  obtain rfl : 65536 = dest := Option.some.inj hdest
  obtain ⟨d, hd, -⟩ := hsafe
  cases hd

end MiscProjects.NameService
