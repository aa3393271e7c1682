import MiscProjects.NameService.Marshalled

/-!
# Rebuilding a structure from its marshalled form

Demarshalling takes the regions of the stream in the order in which
marshalling has laid them out.  Every pointer it stores leads to a copy of
what the original pointer leads to, so the members have the same data.
-/

namespace MiscProjects.NameService

open MiscProjects.Memory

/-! ## The copy and its pointers -/

/-- A pointer that has been stored at offset `cell` of the copy: it leads to
offset `target`, where the `len` bytes from `src` have been copied. -/
structure Moved where
  cell : ℕ
  target : ℕ
  src : ℕ
  len : ℕ

/-- The first `k` of the `T` bytes of the stream at `buf` have been copied to
`dest`, and the pointers in `moved` have been stored in the copy.  `m` is the
memory that was marshalled, `m'` the one in which demarshalling began. -/
structure Rebuilding (m m' : Mem) (buf dest T k : ℕ) (moved : List Moved)
    (c : DeMarshalling) : Prop where
  ptr : c.ptr = buf + k
  ptrdest : c.ptrdest = dest + k
  fit : k ≤ T
  outside : ∀ x, x < dest ∨ dest + k ≤ x → c.m x = m' x
  image : ∀ i < k, (∀ v ∈ moved, i < v.cell ∨ v.cell + 4 ≤ i) →
    c.m (dest + i) = m' (buf + i)
  cells : ∀ v ∈ moved, dword c.m (dest + v.cell) = dest + v.target
  data : ∀ v ∈ moved, Same m v.src m' (buf + v.target) v.len
  bounds : ∀ v ∈ moved, v.cell + 4 ≤ k ∧ v.target + v.len ≤ k

/-- No pointer stored in the copy touches the `n` bytes at offset `o`. -/
def Untouched (moved : List Moved) (o n : ℕ) : Prop :=
  ∀ v ∈ moved, v.cell + 4 ≤ o ∨ o + n ≤ v.cell

section Rebuilding
variable {m m' : Mem} {base buf dest T k o n : ℕ} {moved : List Moved}
  {c : DeMarshalling}

/-- The stream and the destination do not overlap, and all addresses are
32-bit numbers. -/
structure Placed (buf dest T : ℕ) : Prop where
  apart : Region.Apart ⟨buf, T⟩ ⟨dest, T⟩
  stream : buf + T ≤ 2 ^ 32
  copy : dest + T < 2 ^ 32

theorem Rebuilding.image_same (h : Rebuilding m m' buf dest T k moved c) (hle : o + n ≤ k)
    (hclear : Untouched moved o n) : Same m' (buf + o) c.m (dest + o) n := by
  intro i hi
  rw [Nat.add_assoc, Nat.add_assoc]
  refine h.image (o + i) (by omega) fun v hv => ?_
  rcases hclear v hv with hv | hv <;> omega

theorem Rebuilding.stream_same (hplaced : Placed buf dest T)
    (h : Rebuilding m m' buf dest T k moved c) (hle : o + n ≤ T) :
    Same m' (buf + o) c.m (buf + o) n := by
  intro i hi
  have hfit := h.fit
  refine h.outside _ ?_
  rcases hplaced.apart with hapart | hapart <;> simp only at hapart <;> omega

theorem Rebuilding.moved_same (h : Rebuilding m m' buf dest T k moved c) {v : Moved}
    (hv : v ∈ moved) (hle : o + n ≤ v.len) (hclear : Untouched moved (v.target + o) n) :
    Same m (v.src + o) c.m (dest + v.target + o) n := by
  have hbound := (h.bounds v hv).2
  have hcopy := h.image_same (by omega) hclear
  rw [← Nat.add_assoc, ← Nat.add_assoc] at hcopy
  exact ((h.data v hv).slice hle).trans hcopy

variable {p size : ℕ} {member : Member} {rest : List Member}

theorem Rebuilding.copyAndStore (hplaced : Placed buf dest T)
    (h : Rebuilding m m' buf dest T k moved c) (hcell : o + 4 ≤ k)
    (hfresh : Untouched moved o 4) (hdata : Same m p m' (buf + k) n) (hfit : k + n ≤ T) :
    Rebuilding m m' buf dest T (k + n) (⟨o, k, p, n⟩ :: moved)
      { copyIn n c with m := storeDword (copyIn n c).m (dest + o) c.ptrdest } := by
  have hptr := h.ptr
  have hptrdest := h.ptrdest
  have hcopy := hplaced.copy
  simp only [copyIn]
  have hcopied : ∀ i < n, memcpy c.m c.ptrdest c.ptr n (dest + k + i) = m' (buf + k + i) := by
    intro i hi
    have hcopied := memcpy_same c.m c.ptrdest c.ptr n i hi
    rw [hptrdest, hptr] at hcopied
    rw [hptrdest, hptr, hcopied]
    exact h.stream_same hplaced hfit i hi
  have hkept : ∀ x, x < dest + k ∨ dest + k + n ≤ x →
      memcpy c.m c.ptrdest c.ptr n x = c.m x := fun x hx => memcpy_outside (by omega)
  refine ⟨?_, ?_, hfit, ?_, ?_, ?_, ?_, ?_⟩
  · simp only [hptr, Nat.add_assoc]
  · simp only [hptrdest, Nat.add_assoc]
  · intro x hx
    simp only
    rw [storeDword_outside (by omega), hkept x (by omega)]
    exact h.outside x (by omega)
  · intro i hi hclear
    have hhere := hclear _ List.mem_cons_self
    have hbefore : ∀ v ∈ moved, i < v.cell ∨ v.cell + 4 ≤ i :=
      fun v hv => hclear v (List.mem_cons_of_mem _ hv)
    simp only at hhere ⊢
    rw [storeDword_outside (by omega)]
    by_cases hik : i < k
    · rw [hkept _ (by omega)]
      exact h.image i hik hbefore
    · have := hcopied (i - k) (by omega)
      rwa [show dest + k + (i - k) = dest + i by omega,
        show buf + k + (i - k) = buf + i by omega] at this
  · intro v hv
    simp only
    rcases List.mem_cons.mp hv with rfl | hv
    · simp only
      rw [dword_storeDword (by omega), hptrdest]
    · rw [← h.cells v hv]
      have hapart := hfresh v hv
      have hbound := (h.bounds v hv).1
      refine Same.dword_eq fun i hi => ?_
      rw [storeDword_outside (by omega), hkept _ (by omega)]
  · intro v hv
    rcases List.mem_cons.mp hv with rfl | hv
    · exact hdata
    · exact h.data v hv
  · intro v hv
    rcases List.mem_cons.mp hv with rfl | hv
    · exact ⟨by simp only; omega, Nat.le_refl _⟩
    · have := h.bounds v hv
      omega

theorem Rebuilding.rebuildMember (hplaced : Placed buf dest T)
    (h : Rebuilding m m' buf dest T k moved c) {base' : ℕ} (ho : base' + member.offset = dest + o)
    (hcell : o + 4 ≤ k) (hfresh : Untouched moved o 4)
    (hsize : sizeAt m base p member.extent = some n) (hdata : Same m p m' (buf + k) n)
    (hcount : ∀ count ∈ member.extent.count?, dword c.m (base' + count) = dword m (base + count))
    (hfit : k + n ≤ T) : ∃ c', rebuildMember base' member c = some c' ∧
      Rebuilding m m' buf dest T (k + n) (⟨o, k, p, n⟩ :: moved) c' := by
  have hptr := h.ptr
  have hcopy := hplaced.copy
  have hstream : Same m p c.m c.ptr n := by
    rw [hptr]
    exact hdata.trans (h.stream_same hplaced hfit)
  have hsize' : sizeAt c.m base' c.ptr member.extent = some n := by
    refine sizeAt_copy hsize hstream hcount fun _ => ?_
    have := hplaced.stream
    omega
  have hn : n < 2 ^ 32 := by omega
  refine ⟨_, by rw [NameService.rebuildMember, sz_of_sizeAt hsize' hn]; rfl, ?_⟩
  rw [ho]
  exact h.copyAndStore hplaced hcell hfresh hdata hfit

theorem rebuilding_start (hfit : size ≤ T) :
    Rebuilding m m' buf dest T size [] (copyIn size ⟨m', buf, dest⟩) := by
  refine ⟨rfl, rfl, hfit, fun x hx => memcpy_outside hx, fun i hi _ => ?_,
    by simp, by simp, by simp⟩
  exact memcpy_same m' dest buf size i hi

theorem Rebuilding.fixed_same (h : Rebuilding m m' buf dest T k moved c)
    (hfixed : Same m base m' buf size) (hsize : size ≤ k) (hle : o + n ≤ size)
    (hclear : Untouched moved o n) : Same m (base + o) c.m (dest + o) n :=
  (hfixed.slice hle).trans (h.image_same (by omega) hclear)

/-! ## The members -/

/-- The member is `NULL`, or a pointer to a copy of its data is stored. -/
def MemberMoved (m : Mem) (base : ℕ) (member : Member) (moved : List Moved) :
    Prop :=
  dword m (base + member.offset) = 0 ∨
    ∃ v ∈ moved, v.cell = member.offset ∧
      v.src = dword m (base + member.offset) ∧
      sizeAt m base v.src member.extent = some v.len

/-- The pointers stored so far lie in the fixed part and lead behind it. -/
def InFixed (size : ℕ) (moved : List Moved) : Prop :=
  ∀ v ∈ moved, v.cell + 4 ≤ size ∧ size ≤ v.target

/-- The members still to come, relative to the pointers stored so far. -/
structure Pending (size : ℕ) (moved : List Moved) (members : List Member) :
    Prop where
  inside : ∀ member ∈ members, member.offset + 4 ≤ size
  apart : members.Pairwise Member.Apart
  fresh : ∀ member ∈ members, Untouched moved member.offset 4
  counted : ∀ member ∈ members, ∀ count ∈ member.extent.count?,
    count + 4 ≤ size ∧ Untouched moved count 4 ∧
      ∀ other ∈ members, OffsetsApart count other.offset

theorem Pending.tail (h : Pending size moved (member :: rest)) : Pending size moved rest :=
  { inside := fun other hother => h.inside other (List.mem_cons_of_mem _ hother)
    apart := (List.pairwise_cons.mp h.apart).2
    fresh := fun other hother => h.fresh other (List.mem_cons_of_mem _ hother)
    counted := fun other hother count hcount =>
      have hall := h.counted other (List.mem_cons_of_mem _ hother) count hcount
      ⟨hall.1, hall.2.1, fun another hmem => hall.2.2 another (List.mem_cons_of_mem _ hmem)⟩ }

theorem Pending.store (h : Pending size moved (member :: rest)) (target src len : ℕ) :
    Pending size (⟨member.offset, target, src, len⟩ :: moved) rest := by
  have htail := h.tail
  refine ⟨htail.inside, htail.apart, ?_, ?_⟩
  · intro other hother v hv
    rcases List.mem_cons.mp hv with rfl | hv
    · exact (List.pairwise_cons.mp h.apart).1 other hother
    · exact htail.fresh other hother v hv
  · intro other hother count hcount
    obtain ⟨hin, hclear, hothers⟩ := htail.counted other hother count hcount
    refine ⟨hin, fun v hv => ?_, hothers⟩
    rcases List.mem_cons.mp hv with rfl | hv
    · exact ((h.counted other (List.mem_cons_of_mem _ hother) count
        hcount).2.2 member List.mem_cons_self).symm
    · exact hclear v hv

theorem MemberMoved.mono {moved' : List Moved} (h : MemberMoved m base member moved)
    (hsub : moved ⊆ moved') : MemberMoved m base member moved' := by
  rcases h with hnull | ⟨v, hv, hrest⟩
  · exact .inl hnull
  · exact .inr ⟨v, hsub hv, hrest⟩

/-- What demarshalling the members of a layout comes to. -/
structure MembersRebuilt (m m' : Mem) (base buf dest T k size : ℕ)
    (moved : List Moved) (members : List Member) (moved' : List Moved)
    (c : DeMarshalling) : Prop where
  rebuilding : Rebuilding m m' buf dest T k moved' c
  keeps : moved ⊆ moved'
  inFixed : InFixed size moved'
  origin : ∀ v ∈ moved', v ∈ moved ∨ ∃ member ∈ members,
    v.cell = member.offset ∧ dword m (base + member.offset) ≠ 0
  each : ∀ member ∈ members, MemberMoved m base member moved'

theorem Rebuilding.deMarshallMember (hplaced : Placed buf dest T)
    (h : Rebuilding m m' buf dest T k moved c) (hfixed : Same m base m' buf size) (hsize : size ≤ k)
    (hin : InFixed size moved) (hpending : Pending size moved (member :: rest))
    (hends : (dataAt m base member).isSome = true)
    (hstream : Streams m m' (buf + k) (memberRegions m base member))
    (hfit : k + total (memberRegions m base member) ≤ T) :
    ∃ c' moved', deMarshallMember dest member c = some c' ∧ MembersRebuilt m m' base buf dest T
        (k + total (memberRegions m base member)) size moved [member] moved' c' ∧
      Pending size moved' rest := by
  have hhere : member ∈ member :: rest := List.mem_cons_self
  have hinside := hpending.inside member hhere
  have hread : dword c.m (dest + member.offset) = dword m (base + member.offset) :=
    (h.fixed_same hfixed hsize hinside (hpending.fresh member hhere)).dword_eq
  unfold NameService.deMarshallMember
  rw [hread]
  by_cases hp : dword m (base + member.offset) = 0
  · refine ⟨c, moved, if_pos hp, ⟨?_, fun _ hv => hv, hin, fun v hv => .inl hv, ?_⟩, hpending.tail⟩
    · simpa [memberRegions, hp] using h
    · intro other hother
      rw [List.mem_singleton] at hother
      exact .inl (hother ▸ hp)
  · simp only [memberRegions, if_neg hp, total_cons, total_nil] at hstream hfit ⊢
    have hsized := (ends_of_dataAt hends hp).sizeAt
    have hcount : ∀ count ∈ member.extent.count?,
        dword c.m (dest + count) = dword m (base + count) := by
      intro count hmem
      obtain ⟨hcin, hclear, -⟩ := hpending.counted member hhere count hmem
      exact (h.fixed_same hfixed hsize hcin hclear).dword_eq
    obtain ⟨c', hcall, h'⟩ := h.rebuildMember hplaced rfl (by omega)
      (hpending.fresh member hhere) hsized hstream.1 hcount (by omega)
    refine ⟨c', _, hcall, ⟨h', fun v hv => List.mem_cons_of_mem _ hv, ?_, ?_,
      ?_⟩, hpending.store _ _ _⟩
    · intro v hv
      rcases List.mem_cons.mp hv with rfl | hv
      · exact ⟨hinside, hsize⟩
      · exact hin v hv
    · intro v hv
      rcases List.mem_cons.mp hv with rfl | hv
      · exact .inr ⟨member, List.mem_singleton_self _, rfl, hp⟩
      · exact .inl hv
    · intro other hother
      rw [List.mem_singleton] at hother
      subst hother
      exact .inr ⟨_, List.mem_cons_self, rfl, rfl, hsized⟩

theorem Rebuilding.members (hplaced : Placed buf dest T) (h : Rebuilding m m' buf dest T k moved c)
    {members : List Member} (hfixed : Same m base m' buf size) (hsize : size ≤ k)
    (hin : InFixed size moved) (hpending : Pending size moved members)
    (hends : ∀ member ∈ members, (dataAt m base member).isSome = true)
    (hstream : Streams m m' (buf + k) (members.flatMap (memberRegions m base)))
    (hfit : k + total (members.flatMap (memberRegions m base)) ≤ T) : ∃ c' moved',
      members.foldlM (fun c member => NameService.deMarshallMember dest member c) c = some c' ∧
      MembersRebuilt m m' base buf dest T
        (k + total (members.flatMap (memberRegions m base))) size moved members moved' c' := by
  induction members generalizing k moved c with
  | nil =>
      exact ⟨c, moved, rfl, by simpa using h, fun _ hv => hv, hin, fun v hv => .inl hv, by simp⟩
  | cons member rest ih =>
      rw [List.flatMap_cons, streams_append, Nat.add_assoc] at hstream
      rw [List.flatMap_cons, total_append, ← Nat.add_assoc] at hfit
      obtain ⟨c₁, moved₁, hcall, h₁, hpending₁⟩ := h.deMarshallMember hplaced
        hfixed hsize hin hpending (hends member List.mem_cons_self) hstream.1 (by omega)
      obtain ⟨c₂, moved₂, hfold, h₂⟩ := ih h₁.rebuilding (by omega) h₁.inFixed hpending₁
        (fun other hother => hends other (List.mem_cons_of_mem _ hother)) hstream.2 hfit
      refine ⟨c₂, moved₂, ?_, ?_, ?_, h₂.inFixed, ?_, ?_⟩
      · rw [List.foldlM_cons, hcall]
        exact hfold
      · rw [List.flatMap_cons, total_append, ← Nat.add_assoc]
        exact h₂.rebuilding
      · exact fun v hv => h₂.keeps (h₁.keeps hv)
      · intro v hv
        rcases h₂.origin v hv with hv | ⟨other, hother, hcell⟩
        · rcases h₁.origin v hv with hv | ⟨other, hother, hcell⟩
          · exact .inl hv
          · rw [List.mem_singleton] at hother
            exact .inr ⟨member, List.mem_cons_self, hother ▸ hcell⟩
        · exact .inr ⟨other, List.mem_cons_of_mem _ hother, hcell⟩
      · intro other hother
        rcases List.mem_cons.mp hother with rfl | hother
        · exact (h₁.each _ (List.mem_singleton_self _)).mono h₂.keeps
        · exact h₂.each other hother

theorem pending_layout (layout : Layout) :
    Pending layout.size [] layout.members :=
  { inside := layout.inside
    apart := layout.apart
    fresh := fun _ _ _ hv => absurd hv List.not_mem_nil
    counted := fun member hmem count hcount =>
      have hall := layout.counted member hmem count hcount
      ⟨hall.1, fun _ hv => absurd hv List.not_mem_nil, hall.2⟩ }

theorem deMarshallLayout_rebuilt (layout : Layout) (hplaced : Placed buf dest T)
    (hends : ∀ member ∈ layout.members, (dataAt m base member).isSome = true)
    (hstream : Streams m m' buf (layoutRegions layout m base))
    (hfit : total (layoutRegions layout m base) ≤ T) :
    ∃ c moved, deMarshallLayout layout m' dest buf = some c ∧
      MembersRebuilt m m' base buf dest T (total (layoutRegions layout m base))
        layout.size [] layout.members moved c := by
  have hfit' : layout.size + total (layout.members.flatMap (memberRegions m base)) ≤ T := hfit
  exact (rebuilding_start (by omega)).members hplaced hstream.1
    (Nat.le_refl _) (fun _ hv => absurd hv List.not_mem_nil)
    (pending_layout layout) hends hstream.2 hfit'

/-! ## The value of the members -/

/-- A pointer stored after the members of a layout: behind their data, or in a
member of the fixed part that is none of them. -/
def Later (layout : Layout) (k : ℕ) (v : Moved) : Prop :=
  k ≤ v.cell ∨ v.cell + 4 ≤ layout.size ∧ ∀ member ∈ layout.members,
    OffsetsApart v.cell member.offset ∧
      ∀ count ∈ member.extent.count?, OffsetsApart v.cell count

variable {layout : Layout} {k₁ : ℕ} {moved₁ : List Moved} {c₁ : DeMarshalling}

theorem MembersRebuilt.dword_eq
    (hlayout : MembersRebuilt m m' base buf dest T k₁ layout.size [] layout.members moved₁ c₁)
    (h : Rebuilding m m' buf dest T k moved c) (hfixed : Same m base m' buf layout.size)
    (hsize : layout.size ≤ k₁) (hle : k₁ ≤ k) (hlater : ∀ v ∈ moved, v ∈ moved₁ ∨ Later layout k₁ v)
    (ho : o + 4 ≤ layout.size) (hmembers : ∀ member ∈ layout.members,
      dword m (base + member.offset) ≠ 0 → OffsetsApart member.offset o)
    (hothers : ∀ v ∈ moved, v.cell + 4 ≤ layout.size →
      (∀ member ∈ layout.members, OffsetsApart v.cell member.offset ∧
        ∀ count ∈ member.extent.count?, OffsetsApart v.cell count) →
      OffsetsApart v.cell o) : dword c.m (dest + o) = dword m (base + o) := by
  refine (h.fixed_same hfixed (by omega) ho fun v hv => ?_).dword_eq
  rcases hlater v hv with hv₁ | hbehind | ⟨hin, hother⟩
  · rcases hlayout.origin v hv₁ with hnil | ⟨member, hmem, hcell, hp⟩
    · exact absurd hnil List.not_mem_nil
    · rw [hcell]
      exact hmembers member hmem hp
  · exact .inr (by omega)
  · exact hothers v hv hin hother

theorem MembersRebuilt.dataAt_eq
    (hlayout : MembersRebuilt m m' base buf dest T k₁ layout.size [] layout.members moved₁ c₁)
    (h : Rebuilding m m' buf dest T k moved c) (hplaced : Placed buf dest T)
    (hfixed : Same m base m' buf layout.size) (hsize : layout.size ≤ k₁) (hpos : 0 < layout.size)
    (hle : k₁ ≤ k) (hsub : moved₁ ⊆ moved) (hlater : ∀ v ∈ moved, v ∈ moved₁ ∨ Later layout k₁ v)
    (hmem : member ∈ layout.members) : dataAt c.m dest member = dataAt m base member := by
  have happart : ∀ other ∈ layout.members, other ≠ member →
      OffsetsApart other.offset member.offset := fun other hother hne =>
    layout.apart.forall hother hmem hne
  have hcount : ∀ count ∈ member.extent.count?,
      dword c.m (dest + count) = dword m (base + count) := by
    intro count hcount
    obtain ⟨hin, hothers⟩ := layout.counted member hmem count hcount
    exact hlayout.dword_eq h hfixed hsize hle hlater hin
      (fun other hother _ => (hothers other hother).symm)
      (fun v _ _ hother => (hother member hmem).2 count hcount)
  unfold dataAt
  rcases hlayout.each member hmem with hnull | ⟨v, hv, hcell, hsrc, hlen⟩
  · have hread : dword c.m (dest + member.offset) = 0 := by
      rw [← hnull]
      refine hlayout.dword_eq h hfixed hsize hle hlater
        (layout.inside member hmem) (fun other hother hp => ?_)
        (fun v _ _ hother => (hother member hmem).1)
      exact happart other hother fun heq => hp (heq ▸ hnull)
    simp only [hread, hnull, if_true]
  · obtain ⟨-, htarget⟩ := hlayout.inFixed v hv
    have hbound := (hlayout.rebuilding.bounds v hv).2
    have hread : dword c.m (dest + member.offset) = dest + v.target := by
      rw [← hcell]
      exact h.cells v (hsub hv)
    have hp : dword m (base + member.offset) ≠ 0 := by
      rcases hlayout.origin v hv with hnil | ⟨other, hother, hcell', hp⟩
      · exact absurd hnil List.not_mem_nil
      · by_cases heq : other = member
        · exact heq ▸ hp
        · have := happart other hother heq
          rw [← hcell', hcell] at this
          unfold OffsetsApart at this
          omega
    have hclear : Untouched moved v.target v.len := by
      intro w hw
      rcases hlater w hw with hw₁ | hbehind | ⟨hin, -⟩
      · have := (hlayout.inFixed w hw₁).1
        omega
      · exact .inr (by omega)
      · exact .inl (by omega)
    have hsame : Same m v.src c.m (dest + v.target) v.len :=
      h.moved_same (o := 0) (hsub hv) (by omega) hclear
    have hsize' : sizeAt c.m dest (dest + v.target) member.extent = some v.len := by
      refine sizeAt_copy hlen hsame hcount fun _ => ?_
      have := hplaced.copy
      have := h.fit
      omega
    rw [hsrc] at hlen
    have hp' : dest + v.target ≠ 0 := by omega
    simp only [hread, if_neg hp, if_neg hp', hsize', hlen, Option.map_some, hsame.bytesAt_eq, hsrc]

end Rebuilding

end MiscProjects.NameService
