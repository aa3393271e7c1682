import MiscProjects.NameService.Rebuilding

/-!
# Demarshalling what was marshalled

The array of addresses is a member like the others, but its entries hold
pointers themselves.  With them the whole structure is rebuilt: demarshalling
inverts marshalling.
-/

namespace MiscProjects.NameService

open MiscProjects.Memory

section Addresses
variable {m m' : Mem} {base buf dest T k k₁ o n qs a i : ℕ}
  {moved moved₁ : List Moved} {c c₁ : DeMarshalling}

/-! ## The addresses -/

/-- The pointer to the copy of the address array. -/
def arrayMoved (m : Mem) (qs a : ℕ) : Moved :=
  ⟨lpcsaBuffer.offset, a, dword m (qs + lpcsaBuffer.offset),
    24 * dword m (qs + 44)⟩

theorem Rebuilding.csAddrEntry_eq (h : Rebuilding m m' buf dest T k moved c)
    (harray : arrayMoved m qs a ∈ moved) (i : ℕ) :
    csAddrEntry c.m dest i = dest + (a + 24 * i) := by
  have hcell : dword c.m (dest + lpcsaBuffer.offset) = dest + a := h.cells _ harray
  rw [csAddrEntry, hcell, Nat.add_assoc]

theorem Rebuilding.entry_dword (h : Rebuilding m m' buf dest T k moved c)
    (harray : arrayMoved m qs a ∈ moved) (hi : i < dword m (qs + 44))
    (ho : o + 4 ≤ 24) (hclear : Untouched moved (a + (24 * i + o)) 4) :
    dword c.m (dest + (a + 24 * i) + o) = dword m (csAddrEntry m qs i + o) := by
  have hle : 24 * i + o + 4 ≤ (arrayMoved m qs a).len := by
    simp only [arrayMoved]
    omega
  have hsame := (h.moved_same harray hle hclear).dword_eq
  have hsrc : csAddrEntry m qs i + o = (arrayMoved m qs a).src + (24 * i + o) := by
    simp only [csAddrEntry, arrayMoved]
    omega
  have hdest : dest + (a + 24 * i) + o = dest + (arrayMoved m qs a).target + (24 * i + o) := by
    simp only [arrayMoved]
    omega
  rw [hsrc, hdest, hsame]

theorem Rebuilding.rebuildAddress (hplaced : Placed buf dest T)
    (h : Rebuilding m m' buf dest T k moved c) {member : Member}
    (harray : arrayMoved m qs a ∈ moved) (hi : i < dword m (qs + 44))
    (hextent : member.extent = .counted (member.offset + 4) 1) (hoffset : member.offset + 8 ≤ 24)
    (hclear : Untouched moved (a + (24 * i + member.offset)) 8)
    (hdata : Same m (memberRegion m (csAddrEntry m qs i) member).addr m'
      (buf + k) (memberRegion m (csAddrEntry m qs i) member).len)
    (hfit : k + (memberRegion m (csAddrEntry m qs i) member).len ≤ T) :
    ∃ c', NameService.rebuildMember (csAddrEntry c.m dest i) member c = some c' ∧
      Rebuilding m m' buf dest T (k + (memberRegion m (csAddrEntry m qs i) member).len)
        (⟨a + (24 * i + member.offset), k, (memberRegion m (csAddrEntry m qs i) member).addr,
          (memberRegion m (csAddrEntry m qs i) member).len⟩ :: moved) c' := by
  have hentry := h.csAddrEntry_eq harray i
  have hbound : a + 24 * dword m (qs + 44) ≤ k := (h.bounds _ harray).2
  refine h.rebuildMember hplaced ?_ (by omega)
    (fun v hv => (hclear v hv).imp_right fun hv => by omega)
    (ends_counted hextent).sizeAt hdata ?_ hfit
  · rw [hentry]
    omega
  · intro count hcount
    rw [hextent] at hcount
    simp only [Extent.count?, Option.mem_def, Option.some.injEq] at hcount
    subst hcount
    rw [hentry]
    refine h.entry_dword harray hi (by omega) fun v hv => ?_
    rcases hclear v hv with hv | hv
    · exact .inl (by omega)
    · exact .inr (by omega)

/-- A pointer to a copy of an address is stored in entry `i`. -/
def AddressMoved (m : Mem) (qs a i : ℕ) (member : Member)
    (moved : List Moved) : Prop :=
  ∃ v ∈ moved, v.cell = a + (24 * i + member.offset) ∧
    v.src = (memberRegion m (csAddrEntry m qs i) member).addr ∧
    v.len = (memberRegion m (csAddrEntry m qs i) member).len ∧
    a + 24 * dword m (qs + 44) ≤ v.target

/-- The first `i` entries have been rebuilt; `moved₁` are the pointers stored
before the array. -/
structure EntriesMoved (m : Mem) (qs a i : ℕ) (moved₁ moved : List Moved) :
    Prop where
  array : arrayMoved m qs a ∈ moved
  keeps : moved₁ ⊆ moved
  origin : ∀ v ∈ moved, v ∈ moved₁ ∨ v.cell = lpcsaBuffer.offset ∨
    ∃ j < i, v.cell = a + 24 * j ∨ v.cell = a + (24 * j + 8)
  each : ∀ j < i, AddressMoved m qs a j localAddr moved ∧
    AddressMoved m qs a j remoteAddr moved

theorem EntriesMoved.untouched (hentries : EntriesMoved m qs a i moved₁ moved)
    (hfixed : InFixed 60 moved₁) (ha : 60 ≤ a) (hao : a ≤ o)
    (hclear : ∀ j < i, (a + 24 * j + 4 ≤ o ∨ o + n ≤ a + 24 * j) ∧
      (a + (24 * j + 8) + 4 ≤ o ∨ o + n ≤ a + (24 * j + 8))) : Untouched moved o n := by
  intro v hv
  rcases hentries.origin v hv with hv₁ | hcell | ⟨j, hj, hcell⟩
  · have := (hfixed v hv₁).1
    exact .inl (by omega)
  · have : lpcsaBuffer.offset = 48 := rfl
    exact .inl (by omega)
  · have := hclear j hj
    rcases hcell with hcell | hcell <;> omega

theorem Rebuilding.rebuildCsAddr (hplaced : Placed buf dest T)
    (h : Rebuilding m m' buf dest T k moved c) (hentries : EntriesMoved m qs a i moved₁ moved)
    (hfixed : InFixed 60 moved₁) (ha : 60 ≤ a) (hi : i < dword m (qs + 44))
    (hstream : Streams m m' (buf + k) (csAddrRegions m qs i))
    (hfit : k + total (csAddrRegions m qs i) ≤ T) :
    ∃ c' moved', NameService.rebuildCsAddr dest c i = some c' ∧
      Rebuilding m m' buf dest T (k + total (csAddrRegions m qs i)) moved' c' ∧
      EntriesMoved m qs a (i + 1) moved₁ moved' := by
  have hlocal : localAddr.offset = 0 := rfl
  have hremote : remoteAddr.offset = 8 := rfl
  simp only [csAddrRegions, total_cons, total_nil, Streams, and_true,
    Nat.add_zero, Nat.add_assoc] at hstream hfit ⊢
  obtain ⟨hstream₁, hstream₂⟩ := hstream
  have hbound : a + 24 * dword m (qs + 44) ≤ k := (h.bounds _ hentries.array).2
  have hclear : ∀ o, o + 8 ≤ 24 → Untouched moved (a + (24 * i + o)) 8 :=
    fun o ho => hentries.untouched hfixed ha (by omega) fun j hj => ⟨by omega, by omega⟩
  obtain ⟨c₁, hcall₁, h₁⟩ := h.rebuildAddress hplaced hentries.array hi rfl
    (by decide) (hclear localAddr.offset (by decide)) hstream₁ (by omega)
  have hclear₁ : Untouched (⟨a + (24 * i + localAddr.offset), k,
      (memberRegion m (csAddrEntry m qs i) localAddr).addr,
      (memberRegion m (csAddrEntry m qs i) localAddr).len⟩ :: moved)
      (a + (24 * i + remoteAddr.offset)) 8 := by
    intro v hv
    rcases List.mem_cons.mp hv with rfl | hv
    · exact .inl (by simp only; omega)
    · exact hclear remoteAddr.offset (by decide) v hv
  obtain ⟨c₂, hcall₂, h₂⟩ := h₁.rebuildAddress hplaced
    (List.mem_cons_of_mem _ hentries.array) hi rfl (by decide) hclear₁ hstream₂ (by omega)
  refine ⟨c₂, _, ?_, by rwa [Nat.add_assoc] at h₂, ?_, ?_, ?_, ?_⟩
  · simp only [NameService.rebuildCsAddr, hcall₁, hcall₂, Option.bind_eq_bind, Option.bind_some]
  · exact List.mem_cons_of_mem _ (List.mem_cons_of_mem _ hentries.array)
  · exact fun v hv => List.mem_cons_of_mem _ (List.mem_cons_of_mem _ (hentries.keeps hv))
  · intro v hv
    rcases List.mem_cons.mp hv with rfl | hv
    · exact .inr (.inr ⟨i, by omega, .inr rfl⟩)
    · rcases List.mem_cons.mp hv with rfl | hv
      · exact .inr (.inr ⟨i, by omega, .inl rfl⟩)
      · rcases hentries.origin v hv with hv | hv | ⟨j, hj, hcell⟩
        · exact .inl hv
        · exact .inr (.inl hv)
        · exact .inr (.inr ⟨j, by omega, hcell⟩)
  · intro j hj
    rcases Nat.lt_succ_iff_lt_or_eq.mp hj with hj | rfl
    · obtain ⟨⟨v, hv, hfacts⟩, ⟨w, hw, hfacts'⟩⟩ := hentries.each j hj
      exact ⟨⟨v, List.mem_cons_of_mem _ (List.mem_cons_of_mem _ hv), hfacts⟩,
        ⟨w, List.mem_cons_of_mem _ (List.mem_cons_of_mem _ hw), hfacts'⟩⟩
    · refine ⟨⟨_, List.mem_cons_of_mem _ List.mem_cons_self, rfl, rfl, rfl, ?_⟩,
        ⟨_, List.mem_cons_self, rfl, rfl, rfl, ?_⟩⟩ <;> simp only <;> omega

theorem Rebuilding.csAddrLoop (hplaced : Placed buf dest T)
    (h : Rebuilding m m' buf dest T k moved c) (hentries : EntriesMoved m qs a 0 moved₁ moved)
    (hfixed : InFixed 60 moved₁) (ha : 60 ≤ a) (hi : i ≤ dword m (qs + 44))
    (hstream : Streams m m' (buf + k) ((List.range i).flatMap (csAddrRegions m qs)))
    (hfit : k + total ((List.range i).flatMap (csAddrRegions m qs)) ≤ T) : ∃ c' moved',
      (List.range i).foldlM (NameService.rebuildCsAddr dest) c = some c' ∧
      Rebuilding m m' buf dest T
        (k + total ((List.range i).flatMap (csAddrRegions m qs))) moved' c' ∧
      EntriesMoved m qs a i moved₁ moved' := by
  induction i with
  | zero => exact ⟨c, moved, rfl, by simpa using h, hentries⟩
  | succ i ih =>
      rw [List.range_succ, List.flatMap_append, List.flatMap_singleton] at *
      rw [streams_append, Nat.add_assoc] at hstream
      rw [total_append, ← Nat.add_assoc] at hfit
      obtain ⟨c₁, moved', hloop, h₁, hentries₁⟩ := ih (by omega) hstream.1 (by omega)
      obtain ⟨c₂, moved'', hcall, h₂, hentries₂⟩ := h₁.rebuildCsAddr hplaced
        hentries₁ hfixed ha (by omega) hstream.2 hfit
      refine ⟨c₂, moved'', ?_, ?_, hentries₂⟩
      · simp only [List.foldlM_append, hloop, List.foldlM_cons, List.foldlM_nil,
          hcall, Option.bind_eq_bind, Option.bind_some, Option.pure_def]
      · rw [total_append, ← Nat.add_assoc]
        exact h₂

theorem EntriesMoved.addressAt_eq {member : Member} {j : ℕ}
    (h : Rebuilding m m' buf dest T k moved c) (hentries : EntriesMoved m qs a i moved₁ moved)
    (hfixed : InFixed 60 moved₁) (ha : 60 ≤ a) (hi : i ≤ dword m (qs + 44)) (hj : j < i)
    (hmoved : AddressMoved m qs a j member moved)
    (hextent : member.extent = .counted (member.offset + 4) 1)
    (hoffset : member.offset = 0 ∨ member.offset = 8) :
    addressAt c.m (csAddrEntry c.m dest j) member = addressAt m (csAddrEntry m qs j) member := by
  obtain ⟨v, hv, hcell, hsrc, hlen, htarget⟩ := hmoved
  have hread : dword c.m (dest + (a + 24 * j) + member.offset) = dest + v.target := by
    rw [← h.cells v hv, hcell]
    congr 1
    omega
  have hcount : dword c.m (dest + (a + 24 * j) + (member.offset + 4)) =
      dword m (csAddrEntry m qs j + (member.offset + 4)) := by
    refine h.entry_dword hentries.array (by omega) (by omega) ?_
    exact hentries.untouched hfixed ha (by omega) fun j' hj' => by omega
  have hsize : v.len = dword m (csAddrEntry m qs j + (member.offset + 4)) := by
    rw [hlen]
    simp only [memberRegion, hextent, sizeAt, Option.getD_some, Nat.one_mul]
  have hsame : Same m v.src c.m (dest + v.target) v.len := h.moved_same (o := 0) hv (by omega)
      (hentries.untouched hfixed ha (by omega) fun j' hj' => by omega)
  have haddr : dword m (csAddrEntry m qs j + member.offset) = v.src := by
    rw [hsrc]
    rfl
  unfold addressAt
  rw [h.csAddrEntry_eq hentries.array, hread, Nat.add_assoc _ _ 4, hcount,
    Nat.add_assoc _ _ 4, haddr, ← hsize, hsame.bytesAt_eq]

theorem EntriesMoved.csAddrAt_eq {j : ℕ} (h : Rebuilding m m' buf dest T k moved c)
    (hentries : EntriesMoved m qs a i moved₁ moved) (hfixed : InFixed 60 moved₁) (ha : 60 ≤ a)
    (hi : i ≤ dword m (qs + 44)) (hj : j < i) : csAddrAt c.m (csAddrEntry c.m dest j) =
      csAddrAt m (csAddrEntry m qs j) := by
  have hplain : ∀ o, o = 16 ∨ o = 20 → dword c.m (csAddrEntry c.m dest j + o) =
        dword m (csAddrEntry m qs j + o) := by
    intro o ho
    rw [h.csAddrEntry_eq hentries.array]
    refine h.entry_dword hentries.array (by omega) (by omega) ?_
    exact hentries.untouched hfixed ha (by omega) fun j' hj' => by omega
  obtain ⟨hlocal, hremote⟩ := hentries.each j hj
  rw [csAddrAt, csAddrAt, hplain 16 (.inl rfl), hplain 20 (.inr rfl),
    hentries.addressAt_eq h hfixed ha hi hj hlocal rfl (.inl rfl),
    hentries.addressAt_eq h hfixed ha hi hj hremote rfl (.inr rfl)]

/-! ## The whole structure -/

theorem querySet_apart : ∀ o ∈ [0, 20, 32, 44, 48, 52],
    ∀ member ∈ WSAQUERYSETW.members, OffsetsApart member.offset o := by
  decide

theorem later_lpcsaBuffer {v : Moved} (hcell : v.cell = lpcsaBuffer.offset)
    (k : ℕ) : Later WSAQUERYSETW k v := by
  unfold Later
  rw [hcell]
  exact .inr (by decide)

theorem MembersRebuilt.plain_eq
    (hlayout : MembersRebuilt m m' base buf dest T k₁ 60 [] WSAQUERYSETW.members moved₁ c₁)
    (h : Rebuilding m m' buf dest T k moved c) (hfixed : Same m base m' buf 60) (hsize : 60 ≤ k₁)
    (hle : k₁ ≤ k) (hlater : ∀ v ∈ moved, v ∈ moved₁ ∨ v.cell = lpcsaBuffer.offset ∨ k₁ ≤ v.cell)
    (ho : o ∈ [0, 20, 32, 44, 48, 52]) (hbuffer : o = 48 → moved = moved₁) :
    dword c.m (dest + o) = dword m (base + o) := by
  have hin : o + 4 ≤ 60 := by
    simp only [List.mem_cons, List.not_mem_nil, or_false] at ho
    omega
  refine (h.fixed_same hfixed (by omega) hin fun v hv => ?_).dword_eq
  have hmembers : v ∈ moved₁ → v.cell + 4 ≤ o ∨ o + 4 ≤ v.cell := by
    intro hv₁
    rcases hlayout.origin v hv₁ with hnil | ⟨member, hmem, hcell, -⟩
    · exact absurd hnil List.not_mem_nil
    · rw [hcell]
      exact querySet_apart o ho member hmem
  rcases hlater v hv with hv₁ | hcell | hbehind
  · exact hmembers hv₁
  · by_cases hbuf : o = 48
    · exact hmembers (hbuffer hbuf ▸ hv)
    · have : lpcsaBuffer.offset = 48 := rfl
      simp only [List.mem_cons, List.not_mem_nil, or_false] at ho
      omega
  · exact .inr (by omega)

theorem MembersRebuilt.csAddrs
    (hlayout : MembersRebuilt m m' qs buf dest T k₁ 60 []
      WSAQUERYSETW.members moved₁ c₁)
    (hplaced : Placed buf dest T) (hfixed : Same m qs m' buf 60)
    (hsize : 60 ≤ k₁)
    (hstream : Streams m m' (buf + k₁) (csAddrsRegions m qs))
    (hfit : k₁ + total (csAddrsRegions m qs) ≤ T) :
    ∃ c moved, deMarshallCsAddrs dest c₁ = some c ∧
      Rebuilding m m' buf dest T (k₁ + total (csAddrsRegions m qs)) moved c ∧
      moved₁ ⊆ moved ∧
      (∀ v ∈ moved, v ∈ moved₁ ∨ v.cell = lpcsaBuffer.offset ∨ k₁ ≤ v.cell) ∧
      csAddrsAt c.m dest = csAddrsAt m qs := by
  have h₁ := hlayout.rebuilding
  have hbefore : ∀ o ∈ [0, 20, 32, 44, 48, 52],
      dword c₁.m (dest + o) = dword m (qs + o) := fun o ho =>
    hlayout.plain_eq h₁ hfixed hsize (Nat.le_refl _) (fun v hv => .inl hv) ho
      fun _ => rfl
  have hread : dword c₁.m (dest + lpcsaBuffer.offset) =
      dword m (qs + lpcsaBuffer.offset) := hbefore 48 (by decide)
  unfold deMarshallCsAddrs csAddrsAt
  rw [hread]
  by_cases hp : dword m (qs + lpcsaBuffer.offset) = 0
  · refine ⟨c₁, moved₁, if_pos hp, ?_, fun _ hv => hv, fun v hv => .inl hv, ?_⟩
    · simpa [csAddrsRegions, hp] using h₁
    · rw [hread, if_pos hp, if_pos hp]
  · simp only [csAddrsRegions, if_neg hp, total_cons] at hstream hfit ⊢
    obtain ⟨harraySame, hstream'⟩ := hstream
    have hlen : (memberRegion m qs lpcsaBuffer).len =
        24 * dword m (qs + 44) := rfl
    have hfresh : Untouched moved₁ lpcsaBuffer.offset 4 := by
      intro v hv
      rcases hlayout.origin v hv with hnil | ⟨member, hmem, hcell, -⟩
      · exact absurd hnil List.not_mem_nil
      · rw [hcell]
        exact querySet_apart 48 (by decide) member hmem
    obtain ⟨c₂, hcall, h₂⟩ := h₁.rebuildMember hplaced rfl
      (by have : lpcsaBuffer.offset = 48 := rfl
          omega) hfresh
      (ends_counted rfl : Ends m qs lpcsaBuffer).sizeAt harraySame
      (by
        intro count hcount
        simp only [lpcsaBuffer, Extent.count?, Option.mem_def,
          Option.some.injEq] at hcount
        subst hcount
        exact hbefore 44 (by decide)) (by omega)
    have harray : arrayMoved m qs k₁ ∈
        ⟨lpcsaBuffer.offset, k₁, (memberRegion m qs lpcsaBuffer).addr,
          (memberRegion m qs lpcsaBuffer).len⟩ :: moved₁ := List.mem_cons_self
    have hentries : EntriesMoved m qs k₁ 0 moved₁
        (⟨lpcsaBuffer.offset, k₁, (memberRegion m qs lpcsaBuffer).addr,
          (memberRegion m qs lpcsaBuffer).len⟩ :: moved₁) := by
      refine ⟨harray, fun v hv => List.mem_cons_of_mem _ hv, fun v hv => ?_,
        fun j hj => absurd hj (Nat.not_lt_zero _)⟩
      rcases List.mem_cons.mp hv with rfl | hv
      · exact .inr (.inl rfl)
      · exact .inl hv
    have hcount : dword c₂.m (dest + 44) = dword m (qs + 44) := by
      refine hlayout.plain_eq h₂ hfixed hsize (by omega) (fun v hv => ?_)
        (by decide) (fun h => absurd h (by decide))
      rcases List.mem_cons.mp hv with rfl | hv
      · exact .inr (.inl rfl)
      · exact .inl hv
    obtain ⟨c₃, moved, hloop, h₃, hentries₃⟩ := h₂.csAddrLoop hplaced hentries
      hlayout.inFixed hsize (Nat.le_refl (dword m (qs + 44)))
      (by rwa [Nat.add_assoc] at hstream') (by omega)
    have hlater : ∀ v ∈ moved,
        v ∈ moved₁ ∨ v.cell = lpcsaBuffer.offset ∨ k₁ ≤ v.cell := by
      intro v hv
      rcases hentries₃.origin v hv with hv | hv | ⟨j, hj, hcell⟩
      · exact .inl hv
      · exact .inr (.inl hv)
      · exact .inr (.inr (by omega))
    refine ⟨c₃, moved, ?_, by rwa [Nat.add_assoc] at h₃, hentries₃.keeps,
      hlater, ?_⟩
    · simp only [hcall, Option.bind_eq_bind, Option.bind_some, hcount, hloop]
    · have hpointer : dword c₃.m (dest + lpcsaBuffer.offset) = dest + k₁ :=
        h₃.cells _ hentries₃.array
      have hcount₃ : dword c₃.m (dest + 44) = dword m (qs + 44) :=
        hlayout.plain_eq h₃ hfixed hsize (by omega) hlater (by decide)
          (fun h => absurd h (by decide))
      rw [hpointer, if_neg (by omega), hcount₃]
      congr 1
      refine List.map_congr_left fun j hj => ?_
      exact hentries₃.csAddrAt_eq h₃ hlayout.inFixed hsize (Nat.le_refl _)
        (List.mem_range.mp hj)

/-- Demarshalling a stream of the regions of a structure rebuilds its value
and takes exactly the stream. -/
theorem deMarshallServiceInfo_rebuilt (hplaced : Placed buf dest T)
    (hends : ∀ member ∈ WSAQUERYSETW.members, (dataAt m qs member).isSome = true)
    (hstream : Streams m m' buf (querySetRegions m qs)) (hfit : marshalledSize m qs ≤ T) :
    ∃ c moved, deMarshallServiceInfo m' dest buf = some c ∧
      Rebuilding m m' buf dest T (marshalledSize m qs) moved c ∧
      querySetAt c.m dest = querySetAt m qs := by
  rw [marshalledSize, querySetRegions, total_append] at hfit
  rw [querySetRegions, streams_append] at hstream
  have hfixed : Same m qs m' buf 60 := hstream.1.1
  have hsize : 60 ≤ total (layoutRegions WSAQUERYSETW m qs) := Nat.le_add_right _ _
  obtain ⟨c₁, moved₁, hcall₁, hlayout⟩ := deMarshallLayout_rebuilt WSAQUERYSETW
    hplaced hends hstream.1 (by omega)
  obtain ⟨c₂, moved, hcall₂, h₂, hkeeps, hlater, hcsAddrs⟩ :=
    hlayout.csAddrs hplaced hfixed hsize hstream.2 hfit
  refine ⟨c₂, moved, ?_, ?_, ?_⟩
  · simp only [deMarshallServiceInfo, hcall₁, hcall₂, Option.bind_eq_bind, Option.bind_some]
  · rw [marshalledSize, querySetRegions, total_append]
    exact h₂
  · have hlater' : ∀ v ∈ moved, v ∈ moved₁ ∨ Later WSAQUERYSETW
        (total (layoutRegions WSAQUERYSETW m qs)) v := by
      intro v hv
      rcases hlater v hv with hv | hv | hv
      · exact .inl hv
      · exact .inr (later_lpcsaBuffer hv _)
      · exact .inr (.inl hv)
    have hdata : ∀ member ∈ WSAQUERYSETW.members,
        dataAt c₂.m dest member = dataAt m qs member := fun member hmem =>
      hlayout.dataAt_eq h₂ hplaced hfixed hsize (by decide) (by omega) hkeeps hlater' hmem
    have hplain : ∀ o ∈ [0, 20, 32, 44, 52], dword c₂.m (dest + o) = dword m (qs + o) := by
      intro o ho
      have ho' : o ∈ [0, 20, 32, 44, 48, 52] ∧ o ≠ 48 := by
        simp only [List.mem_cons, List.not_mem_nil, or_false] at ho ⊢
        omega
      exact hlayout.plain_eq h₂ hfixed hsize (by omega) hlater ho'.1 fun h => absurd h ho'.2
    simp only [WSAQUERYSETW, List.mem_cons, List.not_mem_nil, or_false,
      forall_eq_or_imp, forall_eq] at hdata
    obtain ⟨hname, hclass, hversion, hcomment, hprovider, hcontext, hprotocols, hquery⟩ := hdata
    have hdwSize : dword c₂.m dest = dword m qs := hplain 0 (by decide)
    simp only [querySetAt, hname, hclass, hversion, hcomment, hprovider, hcontext,
      hprotocols, hquery, hcsAddrs, hdwSize, hplain 20 (by decide),
      hplain 32 (by decide), hplain 44 (by decide), hplain 52 (by decide)]

end Addresses

theorem dataAt_isSome_of_querySetAt {m : Mem} {qs : ℕ} {value : QuerySet}
    (h : querySetAt m qs = some value) :
    ∀ member ∈ WSAQUERYSETW.members, (dataAt m qs member).isSome = true := by
  simp only [querySetAt, Option.bind_eq_bind, Option.bind_eq_some_iff] at h
  obtain ⟨_, h₁, _, h₂, _, h₃, _, h₄, _, h₅, _, h₆, _, h₇, _, h₈, -⟩ := h
  simp only [WSAQUERYSETW, List.mem_cons, List.not_mem_nil, or_false, forall_eq_or_imp, forall_eq]
  simp [h₁, h₂, h₃, h₄, h₅, h₆, h₇, h₈]

theorem Marshalled.received {m m' : Mem} {buf buf' : ℕ} {done : List Region} {c : Marshalling}
    (h : Marshalled m buf done c) (hbytes : bytesAt m' buf' c.totalsz = bytesAt c.m buf c.totalsz) :
    Streams m m' buf' done := by
  rw [h.totalsz] at hbytes
  exact h.stream.copy (same_of_bytesAt_eq hbytes)

/-- A query for any service, with one pair of addresses, of which the remote
one is `NULL`. -/
def wildcardMem : Mem := fun x =>
  let bytes : List UInt8 :=
    [60, 0, 0, 0, 128, 0, 0, 0, 0, 0, 0, 0, 0, 0, 0, 0, 0, 0, 0, 0,
     0, 0, 0, 0, 0, 0, 0, 0, 0, 0, 0, 0, 0, 0, 0, 0, 0, 0, 0, 0,
     0, 0, 0, 0, 1, 0, 0, 0, 136, 0, 0, 0, 0, 0, 0, 0, 0, 0, 0, 0,
     0, 0, 0, 0, 42, 0, 0, 0, 0, 0, 0, 0,
     160, 0, 0, 0, 2, 0, 0, 0, 0, 0, 0, 0, 0, 0, 0, 0, 1, 0, 0, 0,
     6, 0, 0, 0, 2, 0]
  if 64 ≤ x then bytes.getD (x - 64) 0 else 0

end MiscProjects.NameService
