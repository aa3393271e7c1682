import MiscProjects.NameService.Marshall

/-!
# The marshalled form

A structure consists of regions: its fixed part and the data of every member
that is not `NULL`.  Marshalling copies them into the buffer one after the
other, in the order of the format, and changes nothing else.
-/

namespace MiscProjects.NameService

open MiscProjects.Memory

/-! ## The regions of a structure -/

/-- The data behind a member. -/
def memberRegion (m : Mem) (base : ℕ) (member : Member) : Region :=
  let p := dword m (base + member.offset)
  ⟨p, (sizeAt m base p member.extent).getD 0⟩

/-- The data behind a member that is not `NULL`. -/
def memberRegions (m : Mem) (base : ℕ) (member : Member) : List Region :=
  if dword m (base + member.offset) = 0 then []
  else [memberRegion m base member]

def layoutRegions (layout : Layout) (m : Mem) (base : ℕ) : List Region :=
  ⟨base, layout.size⟩ :: layout.members.flatMap (memberRegions m base)

/-- The data behind the two addresses of entry `i`. -/
def csAddrRegions (m : Mem) (qs i : ℕ) : List Region :=
  [memberRegion m (csAddrEntry m qs i) localAddr,
   memberRegion m (csAddrEntry m qs i) remoteAddr]

def csAddrsRegions (m : Mem) (qs : ℕ) : List Region :=
  if dword m (qs + lpcsaBuffer.offset) = 0 then []
  else
    memberRegion m qs lpcsaBuffer ::
      (List.range (dword m (qs + 44))).flatMap (csAddrRegions m qs)

/-- Everything that a `WSAQUERYSETW` consists of, in the order of the format. -/
def querySetRegions (m : Mem) (qs : ℕ) : List Region :=
  layoutRegions WSAQUERYSETW m qs ++ csAddrsRegions m qs

/-- The size of the marshalled form. -/
def marshalledSize (m : Mem) (qs : ℕ) : ℕ := total (querySetRegions m qs)

/-! ## Sizes of copies -/

variable {base n p : ℕ} {member : Member} {m : Mem} {extent : Extent}

theorem sizeAt_text (h : sizeAt m base p .text = some n) :
    ∃ len, lstrlenW m p = some len ∧ n = 2 * (len + 1) := by
  simp only [sizeAt, Option.map_eq_some_iff] at h
  obtain ⟨len, hlen, rfl⟩ := h
  exact ⟨len, hlen, Nat.mul_comm _ _⟩

theorem sizeAt_copy {m' : Mem} {base' q : ℕ} (h : sizeAt m base p extent = some n)
    (hdata : Same m p m' q n)
    (hcount : ∀ count ∈ extent.count?, dword m' (base' + count) = dword m (base + count))
    (hq : extent = .text → q + n ≤ 2 ^ 32) : sizeAt m' base' q extent = some n := by
  cases extent with
  | text =>
      obtain ⟨len, hlen, rfl⟩ := sizeAt_text h
      have hlen' := hdata.lstrlenW_eq hlen (hq rfl)
      simp only [sizeAt, hlen', Option.map_some, Nat.mul_comm]
  | fixed size => exact h
  | counted count size =>
      have hsame := hcount count rfl
      simp only [sizeAt, hsame]
      exact h

theorem sz_of_sizeAt (h : sizeAt m base p extent = some n) (hn : n < 2 ^ 32) :
    sz m base p extent = some n := by
  rw [sz, h, Option.map_some, Nat.mod_eq_of_lt hn]

/-- The string behind a member ends. -/
def Ends (m : Mem) (base : ℕ) (member : Member) : Prop :=
  ∃ n, sizeAt m base (dword m (base + member.offset)) member.extent = some n

theorem Ends.sizeAt (h : Ends m base member) :
    sizeAt m base (memberRegion m base member).addr member.extent =
      some (memberRegion m base member).len := by
  obtain ⟨n, hn⟩ := h
  simp only [memberRegion, hn, Option.getD_some]

theorem ends_of_dataAt (h : (dataAt m base member).isSome = true)
    (hp : dword m (base + member.offset) ≠ 0) : Ends m base member := by
  unfold dataAt at h
  simp only [if_neg hp, Option.isSome_map] at h
  exact Option.isSome_iff_exists.mp h

theorem ends_counted {count size : ℕ}
    (h : member.extent = .counted count size) : Ends m base member := by
  unfold Ends
  rw [h]
  exact ⟨_, rfl⟩

/-! ## Marshalling writes the regions -/

/-- The regions in `done` have been copied to `buf` and nothing else has
changed. -/
structure Marshalled (m : Mem) (buf : ℕ) (done : List Region)
    (c : Marshalling) : Prop where
  ptr : c.ptr = buf + total done
  totalsz : c.totalsz = total done
  stream : Streams m c.m buf done
  outside : ∀ x, x < buf ∨ buf + total done ≤ x → c.m x = m x

section Marshalling
variable {m : Mem} {buf T : ℕ} {done : List Region} {c : Marshalling}

variable {base qs size : ℕ} {r : Region}

theorem Marshalled.same (h : Marshalled m buf done c) (hfit : total done ≤ T)
    (hr : r.Apart ⟨buf, T⟩) : Same m r.addr c.m r.addr r.len := by
  intro i hi
  refine h.outside _ ?_
  rcases hr with hr | hr <;> simp only at hr <;> omega

theorem Marshalled.copyOut (h : Marshalled m buf done c) (hfit : total done + r.len ≤ T)
    (hr : r.Apart ⟨buf, T⟩) : Marshalled m buf (done ++ [r]) (copyOut r.addr r.len c) := by
  have hptr := h.ptr
  have htotal : total (done ++ [r]) = total done + r.len := by simp
  have hold : Same c.m buf (NameService.copyOut r.addr r.len c).m buf
      (total done) := fun i hi => memcpy_outside (by omega)
  have hnew : Same m r.addr (NameService.copyOut r.addr r.len c).m (buf + total done) r.len := by
    rw [← hptr]
    exact (h.same (by omega) hr).trans (memcpy_same c.m c.ptr r.addr r.len)
  refine ⟨?_, ?_, ?_, ?_⟩
  · rw [htotal, ← Nat.add_assoc, ← hptr]
    rfl
  · rw [htotal, ← h.totalsz]
    rfl
  · rw [streams_append]
    exact ⟨h.stream.copy hold, hnew, trivial⟩
  · intro x hx
    rw [htotal] at hx
    have hx' : x < c.ptr ∨ c.ptr + r.len ≤ x := by omega
    calc (NameService.copyOut r.addr r.len c).m x = c.m x := memcpy_outside hx'
      _ = m x := h.outside x (by omega)

theorem Marshalled.dword_eq (h : Marshalled m buf done c) {o : ℕ}
    (hfit : total done ≤ T) (hbase : Region.Apart ⟨base, size⟩ ⟨buf, T⟩)
    (ho : o + 4 ≤ size) : dword c.m (base + o) = dword m (base + o) :=
  (Same.slice (h.same hfit hbase) ho).dword_eq

theorem Marshalled.copyMember (h : Marshalled m buf done c) {member : Member} (hT : T < 2 ^ 32)
    (hfit : total done + (memberRegion m base member).len ≤ T)
    (hbase : Region.Apart ⟨base, size⟩ ⟨buf, T⟩) (hinside : member.offset + 4 ≤ size)
    (hcount : ∀ count ∈ member.extent.count?, count + 4 ≤ size) (hends : Ends m base member)
    (hr : (memberRegion m base member).Apart ⟨buf, T⟩) : ∃ c', copyMember base member c = some c' ∧
      Marshalled m buf (done ++ [memberRegion m base member]) c' := by
  have hfit' : total done ≤ T := by omega
  have haddr : dword c.m (base + member.offset) =
      (memberRegion m base member).addr := h.dword_eq hfit' hbase hinside
  have hsize : sizeAt c.m base (memberRegion m base member).addr
      member.extent = some (memberRegion m base member).len := by
    refine sizeAt_copy hends.sizeAt (h.same hfit' hr)
      (fun count hmem => h.dword_eq hfit' hbase (hcount count hmem)) ?_
    intro htext
    have hsource := hends.sizeAt
    rw [htext] at hsource
    obtain ⟨len, hlen, hn⟩ := sizeAt_text hsource
    rw [hn]
    exact lstrlenW_within hlen
  refine ⟨_, ?_, h.copyOut hfit hr⟩
  unfold NameService.copyMember
  simp only [haddr]
  rw [sz_of_sizeAt hsize (by omega), Option.map_some]

theorem Marshalled.members (h : Marshalled m buf done c) {members : List Member} (hT : T < 2 ^ 32)
    (hfit : total done + total (members.flatMap (memberRegions m base)) ≤ T)
    (hbase : Region.Apart ⟨base, size⟩ ⟨buf, T⟩)
    (hinside : ∀ member ∈ members, member.offset + 4 ≤ size)
    (hcount : ∀ member ∈ members, ∀ count ∈ member.extent.count?, count + 4 ≤ size)
    (hends : ∀ member ∈ members, (dataAt m base member).isSome = true)
    (hr : ∀ r ∈ members.flatMap (memberRegions m base), r.Apart ⟨buf, T⟩) :
    ∃ c', members.foldlM (fun c member => marshallMember base member c) c = some c' ∧
      Marshalled m buf (done ++ members.flatMap (memberRegions m base)) c' := by
  induction members generalizing done c with
  | nil => exact ⟨c, rfl, by simpa using h⟩
  | cons member rest ih =>
      have hhere : member ∈ member :: rest := List.mem_cons_self
      have hthere : ∀ other ∈ rest, other ∈ member :: rest :=
        fun other hother => List.mem_cons_of_mem _ hother
      rw [List.flatMap_cons, total_append] at hfit
      rw [List.flatMap_cons] at hr
      have hread : dword c.m (base + member.offset) = dword m (base + member.offset) :=
        h.dword_eq (by omega) hbase (hinside member hhere)
      obtain ⟨c₁, hcall, h₁⟩ : ∃ c₁, marshallMember base member c = some c₁ ∧
          Marshalled m buf (done ++ memberRegions m base member) c₁ := by
        unfold marshallMember
        rw [hread]
        by_cases hp : dword m (base + member.offset) = 0
        · exact ⟨c, if_pos hp, by simpa [memberRegions, hp] using h⟩
        · simp only [if_neg hp, memberRegions] at hfit hr ⊢
          exact h.copyMember hT (by simp at hfit; omega) hbase
            (hinside member hhere) (hcount member hhere) (ends_of_dataAt (hends member hhere) hp)
            (hr _ (by simp))
      obtain ⟨c₂, hfold, h₂⟩ := ih h₁ (by simpa [Nat.add_assoc] using hfit)
        (fun other hother => hinside other (hthere other hother))
        (fun other hother => hcount other (hthere other hother))
        (fun other hother => hends other (hthere other hother))
        (fun r hmem => hr r (List.mem_append_right _ hmem))
      refine ⟨c₂, ?_, ?_⟩
      · rw [List.foldlM_cons, hcall]
        exact hfold
      · rw [List.flatMap_cons, ← List.append_assoc]
        exact h₂

theorem marshalled_start (m : Mem) {buf : ℕ}
    (hbase : Region.Apart ⟨base, size⟩ ⟨buf, T⟩) (hfit : size ≤ T) : Marshalled m buf [⟨base, size⟩]
      (NameService.copyOut base size ⟨m, buf, 0⟩) := by
  have hstart : Marshalled m buf [] ⟨m, buf, 0⟩ := ⟨rfl, rfl, trivial, fun _ _ => rfl⟩
  exact hstart.copyOut (by simpa using hfit) hbase

theorem marshallLayout_marshalled (layout : Layout) (hT : T < 2 ^ 32)
    (hfit : total (layoutRegions layout m base) ≤ T)
    (hends : ∀ member ∈ layout.members, (dataAt m base member).isSome = true)
    (hr : ∀ r ∈ layoutRegions layout m base, r.Apart ⟨buf, T⟩) :
    ∃ c, marshallLayout layout m base buf = some c ∧
      Marshalled m buf (layoutRegions layout m base) c := by
  have hbase : Region.Apart ⟨base, layout.size⟩ ⟨buf, T⟩ := hr _ List.mem_cons_self
  have hfit' : layout.size + total (layout.members.flatMap (memberRegions m base)) ≤ T := hfit
  exact (marshalled_start m hbase (by omega)).members hT (by simpa using hfit') hbase layout.inside
    (fun member hmem count hcount => (layout.counted member hmem count hcount).1)
    hends (fun r hmem => hr r (List.mem_cons_of_mem _ hmem))

theorem Marshalled.copyCsAddr (h : Marshalled m buf done c) {i : ℕ} (hT : T < 2 ^ 32)
    (hi : i < dword m (qs + 44)) (hfit : total done + total (csAddrRegions m qs i) ≤ T)
    (hqs : Region.Apart ⟨qs, 60⟩ ⟨buf, T⟩) (harray : (memberRegion m qs lpcsaBuffer).Apart ⟨buf, T⟩)
    (hr : ∀ r ∈ csAddrRegions m qs i, r.Apart ⟨buf, T⟩) : ∃ c', copyCsAddr qs c i = some c' ∧
      Marshalled m buf (done ++ csAddrRegions m qs i) c' := by
  have hentry : Region.Apart ⟨csAddrEntry m qs i, 24⟩ ⟨buf, T⟩ := by
    have hlen : (memberRegion m qs lpcsaBuffer).len = 24 * dword m (qs + 44) := rfl
    have haddr : (memberRegion m qs lpcsaBuffer).addr = dword m (qs + lpcsaBuffer.offset) := rfl
    rw [Region.Apart, haddr, hlen] at harray
    unfold Region.Apart csAddrEntry
    simp only at harray ⊢
    omega
  simp only [csAddrRegions, total_cons, total_nil] at hfit
  simp only [csAddrRegions, List.mem_cons, List.not_mem_nil, or_false,
    forall_eq_or_imp, forall_eq] at hr
  have hread : csAddrEntry c.m qs i = csAddrEntry m qs i := by
    unfold csAddrEntry
    rw [h.dword_eq (by omega) hqs (by decide)]
  obtain ⟨c₁, hcall, h₁⟩ := h.copyMember hT (by omega) hentry
    (by decide) (by decide) (ends_counted rfl) hr.1
  have hread₁ : csAddrEntry c₁.m qs i = csAddrEntry m qs i := by
    unfold csAddrEntry
    rw [h₁.dword_eq (by simp; omega) hqs (by decide)]
  obtain ⟨c₂, hcall₂, h₂⟩ := h₁.copyMember hT (by simp; omega) hentry
    (by decide) (by decide) (ends_counted rfl) hr.2
  refine ⟨c₂, ?_, by simpa [csAddrRegions] using h₂⟩
  unfold NameService.copyCsAddr
  simp only [hread]
  show (NameService.copyMember _ localAddr c).bind _ = _
  rw [hcall, Option.bind_some]
  simp only [hread₁]
  exact hcall₂

theorem Marshalled.csAddrLoop (h : Marshalled m buf done c) {indices : List ℕ} (hT : T < 2 ^ 32)
    (hindices : ∀ i ∈ indices, i < dword m (qs + 44))
    (hfit : total done + total (indices.flatMap (csAddrRegions m qs)) ≤ T)
    (hqs : Region.Apart ⟨qs, 60⟩ ⟨buf, T⟩) (harray : (memberRegion m qs lpcsaBuffer).Apart ⟨buf, T⟩)
    (hr : ∀ r ∈ indices.flatMap (csAddrRegions m qs), r.Apart ⟨buf, T⟩) :
    ∃ c', indices.foldlM (NameService.copyCsAddr qs) c = some c' ∧
      Marshalled m buf (done ++ indices.flatMap (csAddrRegions m qs)) c' := by
  induction indices generalizing done c with
  | nil => exact ⟨c, rfl, by simpa using h⟩
  | cons i rest ih =>
      rw [List.flatMap_cons, total_append] at hfit
      rw [List.flatMap_cons] at hr
      obtain ⟨c₁, hcall, h₁⟩ := h.copyCsAddr hT
        (hindices i List.mem_cons_self) (by omega) hqs harray
        (fun r hmem => hr r (List.mem_append_left _ hmem))
      obtain ⟨c₂, hfold, h₂⟩ := ih h₁ (fun j hj => hindices j (List.mem_cons_of_mem _ hj))
        (by simpa [Nat.add_assoc] using hfit) (fun r hmem => hr r (List.mem_append_right _ hmem))
      refine ⟨c₂, ?_, ?_⟩
      · rw [List.foldlM_cons, hcall]
        exact hfold
      · rw [List.flatMap_cons, ← List.append_assoc]
        exact h₂

theorem Marshalled.csAddrs (h : Marshalled m buf done c) (hT : T < 2 ^ 32)
    (hfit : total done + total (csAddrsRegions m qs) ≤ T) (hqs : Region.Apart ⟨qs, 60⟩ ⟨buf, T⟩)
    (hr : ∀ r ∈ csAddrsRegions m qs, r.Apart ⟨buf, T⟩) : ∃ c', marshallCsAddrs qs c = some c' ∧
      Marshalled m buf (done ++ csAddrsRegions m qs) c' := by
  unfold marshallCsAddrs
  rw [h.dword_eq (by omega) hqs (by decide : lpcsaBuffer.offset + 4 ≤ 60)]
  by_cases hp : dword m (qs + lpcsaBuffer.offset) = 0
  · exact ⟨c, if_pos hp, by simpa [csAddrsRegions, hp] using h⟩
  · simp only [csAddrsRegions, if_neg hp, total_cons] at hfit hr ⊢
    have harray := hr _ List.mem_cons_self
    obtain ⟨c₁, hcall, h₁⟩ := h.copyMember hT (by omega) hqs (by decide)
      (by decide) (ends_counted rfl) harray
    have hread : dword c₁.m (qs + 44) = dword m (qs + 44) :=
      h₁.dword_eq (by simp; omega) hqs (by decide)
    have hindices : ∀ i ∈ List.range (dword m (qs + 44)),
        i < dword m (qs + 44) := fun i hi => List.mem_range.mp hi
    obtain ⟨c₂, hloop, h₂⟩ := h₁.csAddrLoop hT hindices
      (by simpa [Nat.add_assoc] using hfit) hqs harray
      (fun r hmem => hr r (List.mem_cons_of_mem _ hmem))
    refine ⟨c₂, ?_, by simpa using h₂⟩
    show (NameService.copyMember qs lpcsaBuffer c).bind _ = _
    rw [hcall, Option.bind_some, hread]
    exact hloop

theorem marshallServiceInfo_marshalled (hT : T < 2 ^ 32) (hfit : marshalledSize m qs ≤ T)
    (hends : ∀ member ∈ WSAQUERYSETW.members, (dataAt m qs member).isSome = true)
    (hr : ∀ r ∈ querySetRegions m qs, r.Apart ⟨buf, T⟩) :
    ∃ c, marshallServiceInfo m qs buf = some c ∧ Marshalled m buf (querySetRegions m qs) c := by
  rw [marshalledSize, querySetRegions, total_append] at hfit
  obtain ⟨c₁, hcall, h₁⟩ := marshallLayout_marshalled WSAQUERYSETW hT (by omega) hends
    (fun r hmem => hr r (List.mem_append_left _ hmem))
  have hqs : Region.Apart ⟨qs, 60⟩ ⟨buf, T⟩ := hr _ (List.mem_append_left _ List.mem_cons_self)
  obtain ⟨c₂, hcall₂, h₂⟩ := h₁.csAddrs hT hfit hqs
    (fun r hmem => hr r (List.mem_append_right _ hmem))
  refine ⟨c₂, ?_, h₂⟩
  show (marshallLayout WSAQUERYSETW m qs buf).bind _ = _
  rw [hcall]
  exact hcall₂

end Marshalling

end MiscProjects.NameService
