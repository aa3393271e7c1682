import MiscProjects.NameService.RoundTrip

/-!
# Marshalling of class infos

The class infos of a `WSASERVICECLASSINFOW` are an array of structures with pointers of their own.
`MarshallServiceClassInfo` copies the array and stops there: the names and the values stay where
they are, and the pointers to them arrive as they were in the process that marshalled.  Both sides
count the same bytes all the same.
-/

namespace MiscProjects.NameService

open MiscProjects.Memory

/-! ## The value of a `WSASERVICECLASSINFOW` -/

def lpServiceClassIdOfClass : Member := ⟨0, .fixed 16⟩
def lpszServiceClassName : Member := ⟨4, .text⟩
def lpClassInfos : Member := ⟨12, .counted 8 20⟩

/-- The pointers of a `WSANSCLASSINFOW`, which has 20 bytes. -/
def lpszName : Member := ⟨0, .text⟩
def lpValue : Member := ⟨16, .counted 12 1⟩

/-- The value of a `WSANSCLASSINFOW`. -/
structure NsClassInfo where
  lpszName : Option (List UInt16)
  dwNameSpace : ℕ
  dwValueType : ℕ
  dwValueSize : ℕ
  lpValue : Option (List UInt8)
deriving DecidableEq

/-- The value at `entry`, if the name ends. -/
def nsClassInfoAt (m : Mem) (entry : ℕ) : Option NsClassInfo := do
  let name ← dataAt m entry lpszName
  let value ← dataAt m entry lpValue
  return {
    lpszName := name.map textOf,
    dwNameSpace := dword m (entry + 4),
    dwValueType := dword m (entry + 8),
    dwValueSize := dword m (entry + 12),
    lpValue := value }

/-- The address of `sc->lpClassInfos[i]`. -/
def classInfoEntry (m : Mem) (sc i : ℕ) : ℕ := dword m (sc + lpClassInfos.offset) + 20 * i

/-- The value of `lpClassInfos`, if all names end. -/
def classInfosAt (m : Mem) (sc : ℕ) : Option (Option (List NsClassInfo)) :=
  if dword m (sc + lpClassInfos.offset) = 0 then some none
  else
    ((List.range (dword m (sc + 8))).mapM fun i => nsClassInfoAt m (classInfoEntry m sc i)).map some

/-- The value of a `WSASERVICECLASSINFOW` with the values of its class infos. -/
structure ServiceClassValue where
  lpServiceClassId : Option (List UInt8)
  lpszServiceClassName : Option (List UInt16)
  dwCount : ℕ
  lpClassInfos : Option (List NsClassInfo)
deriving DecidableEq

/-- The value of the structure at `sc`, if all its strings end. -/
def serviceClassInfoAt (m : Mem) (sc : ℕ) : Option ServiceClassValue := do
  let classId ← dataAt m sc lpServiceClassIdOfClass
  let name ← dataAt m sc lpszServiceClassName
  let classInfos ← classInfosAt m sc
  return {
    lpServiceClassId := classId,
    lpszServiceClassName := name.map textOf,
    dwCount := dword m (sc + 8),
    lpClassInfos := classInfos }

/-- The size of the marshalled form. -/
def classInfoSize (m : Mem) (sc : ℕ) : ℕ := total (layoutRegions WSASERVICECLASSINFOW m sc)

/-- Marshalling writes `*size` bytes to the buffer and nothing else; demarshalling these bytes, in
any memory that has received them, rebuilds a structure of the same value, takes exactly these
bytes and writes as many. -/
def ClassInfoRebuilt (m : Mem) (sc buf : ℕ) (value : ServiceClassValue) : Prop :=
  ∃ c, marshallServiceClassInfo m sc buf = some c ∧ c.ptr = buf + c.totalsz ∧
    (∀ x, x < buf ∨ buf + c.totalsz ≤ x → c.m x = m x) ∧
    ∀ (m' : Mem) (buf' dest : ℕ),
      bytesAt m' buf' c.totalsz = bytesAt c.m buf c.totalsz → Placed buf' dest c.totalsz →
      ∃ d, deMarshallServiceClassInfo m' dest buf' = some d ∧
        serviceClassInfoAt d.m dest = some value ∧ d.ptr = buf' + c.totalsz ∧
        d.ptrdest = dest + c.totalsz ∧ ∀ x, x < dest ∨ dest + c.totalsz ≤ x → d.m x = m' x

/-- The class info has neither a name nor a value of at least one byte. -/
def NsClassInfo.Plain (info : NsClassInfo) : Prop :=
  info.lpszName = none ∧ (info.lpValue = none ∨ info.lpValue = some [])

instance (info : NsClassInfo) : Decidable info.Plain := inferInstanceAs (Decidable (_ ∧ _))

/-! ## The values of class infos -/

section Entries
variable {m m' : Mem} {base base' e e' p : ℕ} {member : Member} {info : NsClassInfo}

theorem mapM_eq_some_iff {α β : Type} {f : α → Option β} {l : List α} {vs : List β} :
    l.mapM f = some vs ↔ l.map f = vs.map some := by
  induction l generalizing vs with
  | nil =>
      rw [List.mapM_nil, List.map_nil]
      constructor
      · intro h
        rw [← Option.some.inj h]
        rfl
      · intro h
        rw [List.map_eq_nil_iff.mp h.symm]
        rfl
  | cons a l ih =>
      rw [List.mapM_cons, List.map_cons]
      simp only [Option.bind_eq_bind, Option.bind_eq_some_iff]
      constructor
      · rintro ⟨b, hb, bs, hbs, h⟩
        rw [← Option.some.inj h, List.map_cons, hb, ih.mp hbs]
      · intro h
        cases vs with
        | nil => cases h
        | cons b bs =>
            rw [List.map_cons, List.cons.injEq] at h
            exact ⟨b, h.1, bs, ih.mpr h.2, rfl⟩

theorem entry_dword (h : Same m e m' e' 20) {o : ℕ} (ho : o + 4 ≤ 20) :
    dword m' (e' + o) = dword m (e + o) :=
  (h.slice ho).dword_eq

theorem dataAt_of_null (h : dword m (base + member.offset) = 0) :
    dataAt m base member = some none := by
  unfold dataAt
  exact if_pos h

theorem dataAt_of_ne (h : dword m (base + member.offset) ≠ 0) :
    dataAt m base member = (sizeAt m base (dword m (base + member.offset)) member.extent).map
      fun n => some (bytesAt m (dword m (base + member.offset)) n) := by
  unfold dataAt
  exact if_neg h

/-- The value of a class info: a block without a size is there if it has an address. -/
def valueAt (m : Mem) (e : ℕ) : Option (List UInt8) :=
  if dword m (e + 16) = 0 then none else some (bytesAt m (dword m (e + 16)) (dword m (e + 12)))

theorem dataAt_lpValue (m : Mem) (e : ℕ) : dataAt m e lpValue = some (valueAt m e) := by
  unfold valueAt
  by_cases hnull : dword m (e + 16) = 0
  · rw [if_pos hnull]
    exact dataAt_of_null hnull
  · rw [if_neg hnull, dataAt_of_ne hnull, lpValue, sizeAt, Option.map_some, Nat.one_mul]

theorem nsClassInfoAt_eq (m : Mem) (e : ℕ) :
    nsClassInfoAt m e = (dataAt m e lpszName).map fun name =>
      ⟨name.map textOf, dword m (e + 4), dword m (e + 8), dword m (e + 12), valueAt m e⟩ := by
  unfold nsClassInfoAt
  rw [dataAt_lpValue]
  cases dataAt m e lpszName with
  | none => rfl
  | some name => rfl

theorem nsClassInfoAt_copy (h : Same m e m' e' 20) (hvalue : nsClassInfoAt m e = some info)
    (hplain : info.Plain) : nsClassInfoAt m' e' = some info := by
  rw [nsClassInfoAt_eq, Option.map_eq_some_iff] at hvalue ⊢
  obtain ⟨name, hname, rfl⟩ := hvalue
  obtain ⟨hnoName, hnoValue⟩ := hplain
  have hname' : dataAt m' e' lpszName = some name := by
    by_cases hnull : dword m (e + lpszName.offset) = 0
    · rw [← hname, dataAt_of_null hnull]
      exact dataAt_of_null ((entry_dword h (by decide)).trans hnull)
    · rw [dataAt_of_ne hnull, Option.map_eq_some_iff] at hname
      obtain ⟨n, -, rfl⟩ := hname
      cases hnoName
  have hvalue' : valueAt m' e' = valueAt m e := by
    unfold valueAt at hnoValue ⊢
    rw [entry_dword h (by decide), entry_dword h (by decide)]
    by_cases hnull : dword m (e + 16) = 0
    · rw [if_pos hnull, if_pos hnull]
    · rw [if_neg hnull] at hnoValue
      rcases hnoValue with hnone | hempty
      · cases hnone
      · have hsize : dword m (e + 12) = 0 := by
          have hlength := congrArg List.length (Option.some.inj hempty)
          simpa [bytesAt] using hlength
        rw [if_neg hnull, if_neg hnull, hsize]
        rfl
  refine ⟨name, hname', ?_⟩
  rw [hvalue', entry_dword h (by decide), entry_dword h (by decide), entry_dword h (by decide)]

theorem nsClassInfoAt_depends (hvalue : nsClassInfoAt m e = some info) (hdata : ¬ info.Plain) :
    ∃ p, ∀ m' e', Same m e m' e' 20 → m' p ≠ m p → nsClassInfoAt m' e' ≠ some info := by
  rw [nsClassInfoAt_eq, Option.map_eq_some_iff] at hvalue
  obtain ⟨name, hname, rfl⟩ := hvalue
  by_cases hnull : dword m (e + lpszName.offset) = 0
  · refine ⟨dword m (e + 16), ?_⟩
    intro m' e' h hdiff hvalue'
    rw [nsClassInfoAt_eq, Option.map_eq_some_iff] at hvalue'
    obtain ⟨name', -, hinfo⟩ := hvalue'
    have hequal : valueAt m' e' = valueAt m e := congrArg NsClassInfo.lpValue hinfo
    have hnoName : name = none := by
      rw [dataAt_of_null hnull] at hname
      exact (Option.some.inj hname).symm
    have hsome : valueAt m e ≠ none ∧ valueAt m e ≠ some [] := by
      rw [← not_or]
      exact fun hnone => hdata ⟨congrArg (Option.map textOf) hnoName, hnone⟩
    unfold valueAt at hequal hsome
    rw [entry_dword h (by decide), entry_dword h (by decide)] at hequal
    by_cases hptr : dword m (e + 16) = 0
    · exact hsome.1 (if_pos hptr)
    · rw [if_neg hptr] at hequal hsome
      rw [if_neg hptr] at hequal
      have hsame := same_of_bytesAt_eq (Option.some.inj hequal)
      by_cases hsize : dword m (e + 12) = 0
      · rw [hsize] at hsome
        exact hsome.2 rfl
      · exact hdiff (hsame 0 (Nat.pos_of_ne_zero hsize))
  · refine ⟨dword m (e + lpszName.offset), ?_⟩
    intro m' e' h hdiff hvalue'
    rw [nsClassInfoAt_eq, Option.map_eq_some_iff] at hvalue'
    obtain ⟨name', hname', hinfo⟩ := hvalue'
    have hptr := entry_dword h (by decide : lpszName.offset + 4 ≤ 20)
    rw [dataAt_of_ne hnull, Option.map_eq_some_iff] at hname
    rw [dataAt_of_ne (by rwa [hptr]), hptr, Option.map_eq_some_iff] at hname'
    obtain ⟨n, hn, rfl⟩ := hname
    obtain ⟨n', hn', rfl⟩ := hname'
    obtain ⟨len, hlen, rfl⟩ := sizeAt_text hn
    obtain ⟨len', hlen', rfl⟩ := sizeAt_text hn'
    have htext := Option.some.inj (congrArg NsClassInfo.lpszName hinfo)
    exact hdiff (byte_eq_of_text_eq hlen hlen' htext)

end Entries

/-! ## The structure -/

/-- The structure at `sc'` in `m'` has the members of the one at `sc` in `m`, the array of class
infos byte by byte. -/
structure ShallowCopy (m : Mem) (sc : ℕ) (m' : Mem) (sc' : ℕ) : Prop where
  members : ∀ member ∈ WSASERVICECLASSINFOW.members, dataAt m' sc' member = dataAt m sc member
  dwCount : dword m' (sc' + 8) = dword m (sc + 8)

section Structures
variable {m m' : Mem} {sc sc' buf buf' dest i : ℕ} {value : ServiceClassValue}

theorem lpClassInfos_mem : lpClassInfos ∈ WSASERVICECLASSINFOW.members := by decide

theorem ShallowCopy.null_iff (h : ShallowCopy m sc m' sc') :
    dword m' (sc' + lpClassInfos.offset) = 0 ↔ dword m (sc + lpClassInfos.offset) = 0 := by
  have hdata := h.members lpClassInfos lpClassInfos_mem
  constructor
  · intro hnull
    by_contra hne
    rw [dataAt_of_null hnull, dataAt_of_ne hne] at hdata
    cases hdata
  · intro hnull
    by_contra hne
    rw [dataAt_of_null hnull, dataAt_of_ne hne] at hdata
    cases hdata

theorem ShallowCopy.entry_same (h : ShallowCopy m sc m' sc')
    (hne : dword m (sc + lpClassInfos.offset) ≠ 0) (hi : i < dword m (sc + 8)) :
    Same m (classInfoEntry m sc i) m' (classInfoEntry m' sc' i) 20 := by
  have hdata := h.members lpClassInfos lpClassInfos_mem
  have hne' : dword m' (sc' + lpClassInfos.offset) ≠ 0 := mt h.null_iff.mp hne
  rw [dataAt_of_ne hne, dataAt_of_ne hne'] at hdata
  simp only [lpClassInfos, sizeAt, Option.map_some, Option.some.injEq, h.dwCount] at hdata
  refine Same.slice (same_of_bytesAt_eq hdata) ?_
  omega

theorem serviceClassInfoAt_eq_some (h : serviceClassInfoAt m sc = some value) :
    ∃ classId name classInfos, dataAt m sc lpServiceClassIdOfClass = some classId ∧
      dataAt m sc lpszServiceClassName = some name ∧ classInfosAt m sc = some classInfos ∧
      value = ⟨classId, name.map textOf, dword m (sc + 8), classInfos⟩ := by
  simp only [serviceClassInfoAt, Option.bind_eq_bind, Option.bind_eq_some_iff] at h
  obtain ⟨classId, hclassId, name, hname, classInfos, hclassInfos, hvalue⟩ := h
  exact ⟨classId, name, classInfos, hclassId, hname, hclassInfos, (Option.some.inj hvalue).symm⟩

theorem dataAt_isSome_of_serviceClassInfoAt (h : serviceClassInfoAt m sc = some value) :
    ∀ member ∈ WSASERVICECLASSINFOW.members, (dataAt m sc member).isSome = true := by
  obtain ⟨classId, name, classInfos, hclassId, hname, -, -⟩ := serviceClassInfoAt_eq_some h
  have hinfos : (dataAt m sc lpClassInfos).isSome = true := by
    by_cases hnull : dword m (sc + lpClassInfos.offset) = 0
    · rw [dataAt_of_null hnull]
      rfl
    · rw [dataAt_of_ne hnull]
      rfl
  intro member hmember
  simp only [WSASERVICECLASSINFOW, List.mem_cons, List.not_mem_nil, or_false] at hmember
  rcases hmember with rfl | rfl | rfl
  · exact Option.isSome_iff_exists.mpr ⟨classId, hclassId⟩
  · exact Option.isSome_iff_exists.mpr ⟨name, hname⟩
  · exact hinfos

variable {infos : List NsClassInfo} {T : ℕ}

theorem ShallowCopy.classInfos_iff (h : ShallowCopy m sc m' sc')
    (hne : dword m (sc + lpClassInfos.offset) ≠ 0)
    (hinfos : classInfosAt m sc = some (some infos)) : classInfosAt m' sc' = some (some infos) ↔
      ∀ i < dword m (sc + 8), nsClassInfoAt m' (classInfoEntry m' sc' i) =
        nsClassInfoAt m (classInfoEntry m sc i) := by
  have hne' : dword m' (sc' + lpClassInfos.offset) ≠ 0 := mt h.null_iff.mp hne
  rw [classInfosAt, if_neg hne, Option.map_eq_some_iff] at hinfos
  rw [classInfosAt, if_neg hne', h.dwCount, Option.map_eq_some_iff]
  obtain ⟨vs, hvs, hsome⟩ := hinfos
  obtain rfl := Option.some.inj hsome
  rw [mapM_eq_some_iff] at hvs
  constructor
  · rintro ⟨vs', hvs', hsome'⟩
    obtain rfl := Option.some.inj hsome'
    rw [mapM_eq_some_iff, ← hvs, List.map_inj_left] at hvs'
    intro i hi
    exact hvs' i (List.mem_range.mpr hi)
  · intro hequal
    refine ⟨_, ?_, rfl⟩
    rw [mapM_eq_some_iff, ← hvs, List.map_inj_left]
    intro i hi
    exact hequal i (List.mem_range.mp hi)

theorem ShallowCopy.value_iff (h : ShallowCopy m sc m' sc')
    (hvalue : serviceClassInfoAt m sc = some value) :
    serviceClassInfoAt m' sc' = some value ↔ classInfosAt m' sc' = some value.lpClassInfos := by
  obtain ⟨classId, name, classInfos, hclassId, hname, -, rfl⟩ := serviceClassInfoAt_eq_some hvalue
  have hclassId' : dataAt m' sc' lpServiceClassIdOfClass = some classId := by
    rw [h.members _ (by decide), hclassId]
  have hname' : dataAt m' sc' lpszServiceClassName = some name := by
    rw [h.members _ (by decide), hname]
  constructor
  · intro hcopy
    obtain ⟨classId', name', classInfos', -, -, hinfos, hequal⟩ := serviceClassInfoAt_eq_some hcopy
    rw [hinfos]
    exact congrArg some (congrArg ServiceClassValue.lpClassInfos hequal).symm
  · intro hinfos
    simp only [serviceClassInfoAt, hclassId', hname', hinfos, h.dwCount, Option.bind_eq_bind,
      Option.bind_some]
    rfl

theorem ShallowCopy.value_of_plain (h : ShallowCopy m sc m' sc')
    (hvalue : serviceClassInfoAt m sc = some value)
    (hplain : ∀ infos, value.lpClassInfos = some infos → ∀ info ∈ infos, info.Plain) :
    serviceClassInfoAt m' sc' = some value := by
  rw [h.value_iff hvalue]
  obtain ⟨classId, name, classInfos, -, -, hinfos, rfl⟩ := serviceClassInfoAt_eq_some hvalue
  dsimp only at hplain ⊢
  by_cases hnull : dword m (sc + lpClassInfos.offset) = 0
  · rw [classInfosAt, if_pos hnull] at hinfos
    rw [classInfosAt, if_pos (h.null_iff.mpr hnull), hinfos]
  · have hsome := hinfos
    rw [classInfosAt, if_neg hnull, Option.map_eq_some_iff] at hsome
    obtain ⟨infos, hmap, rfl⟩ := hsome
    rw [mapM_eq_some_iff] at hmap
    rw [h.classInfos_iff hnull hinfos]
    intro i hi
    have hmem : nsClassInfoAt m (classInfoEntry m sc i) ∈ infos.map some := by
      rw [← hmap]
      exact List.mem_map_of_mem (List.mem_range.mpr hi)
    obtain ⟨info, hinfo, heq⟩ := List.mem_map.mp hmem
    rw [← heq]
    exact nsClassInfoAt_copy (h.entry_same hnull hi) heq.symm (hplain infos rfl info hinfo)

/-- With data behind a class info the value depends on a byte that is not copied with the
structure. -/
theorem value_depends (hvalue : serviceClassInfoAt m sc = some value)
    (hinfos : value.lpClassInfos = some infos) {info : NsClassInfo} (hinfo : info ∈ infos)
    (hdata : ¬ info.Plain) : ∃ p, ∀ m' sc', ShallowCopy m sc m' sc' → m' p ≠ m p →
      serviceClassInfoAt m' sc' ≠ some value := by
  obtain ⟨classId, name, classInfos, -, -, hclassInfos, hequal⟩ := serviceClassInfoAt_eq_some hvalue
  have hclassInfos' : classInfosAt m sc = some (some infos) := by
    rw [hclassInfos, ← hinfos, hequal]
  have hne : dword m (sc + lpClassInfos.offset) ≠ 0 := by
    intro hnull
    rw [classInfosAt, if_pos hnull] at hclassInfos'
    cases hclassInfos'
  have hmap := hclassInfos'
  rw [classInfosAt, if_neg hne, Option.map_eq_some_iff] at hmap
  obtain ⟨infos', hmap, hsome⟩ := hmap
  obtain rfl := Option.some.inj hsome
  rw [mapM_eq_some_iff] at hmap
  have hmem : some info ∈ infos'.map some := List.mem_map_of_mem hinfo
  rw [← hmap] at hmem
  obtain ⟨i, hi, hat⟩ := List.mem_map.mp hmem
  rw [List.mem_range] at hi
  obtain ⟨p, hdepends⟩ := nsClassInfoAt_depends hat hdata
  refine ⟨p, ?_⟩
  intro m' sc' hcopy hdiff hvalue'
  rw [hcopy.value_iff hvalue, hinfos, hcopy.classInfos_iff hne hclassInfos'] at hvalue'
  have hentry := hdepends m' _ (hcopy.entry_same hne hi) hdiff
  rw [hvalue' i hi, hat] at hentry
  exact hentry rfl

theorem deMarshallServiceClassInfo_shallow (hplaced : Placed buf' dest (classInfoSize m sc))
    (hends : ∀ member ∈ WSASERVICECLASSINFOW.members, (dataAt m sc member).isSome = true)
    (hstream : Streams m m' buf' (layoutRegions WSASERVICECLASSINFOW m sc)) :
    ∃ d, deMarshallServiceClassInfo m' dest buf' = some d ∧ ShallowCopy m sc d.m dest ∧
      d.ptr = buf' + classInfoSize m sc ∧ d.ptrdest = dest + classInfoSize m sc ∧
      ∀ x, x < dest ∨ dest + classInfoSize m sc ≤ x → d.m x = m' x := by
  obtain ⟨d, moved, hcall, hrebuilt⟩ := deMarshallLayout_rebuilt WSASERVICECLASSINFOW hplaced hends
    hstream (Nat.le_refl _)
  have hfixed : Same m sc m' buf' WSASERVICECLASSINFOW.size := hstream.1
  have hsize : WSASERVICECLASSINFOW.size ≤ total (layoutRegions WSASERVICECLASSINFOW m sc) := by
    rw [layoutRegions, total_cons]
    exact Nat.le_add_right _ _
  have h := hrebuilt.rebuilding
  refine ⟨d, hcall, ?_, h.ptr, h.ptrdest, h.outside⟩
  constructor
  case members =>
    intro member hmember
    exact hrebuilt.dataAt_eq h hplaced hfixed hsize (by decide) (Nat.le_refl _)
      (fun _ hv => hv) (fun _ hv => .inl hv) hmember
  case dwCount =>
    refine hrebuilt.dword_eq h hfixed hsize (Nat.le_refl _) (fun _ hv => .inl hv) (by decide) ?_ ?_
    · intro member hmember _
      exact ((WSASERVICECLASSINFOW.counted lpClassInfos lpClassInfos_mem 8 rfl).2 member
        hmember).symm
    · intro v hv hin hother
      exact (hother lpClassInfos lpClassInfos_mem).2 8 rfl

theorem marshallServiceClassInfo_marshalled
    (hends : ∀ member ∈ WSASERVICECLASSINFOW.members, (dataAt m sc member).isSome = true)
    (hsource : ∀ r ∈ layoutRegions WSASERVICECLASSINFOW m sc, r.Apart ⟨buf, classInfoSize m sc⟩)
    (hfit : classInfoSize m sc ≤ 2 ^ 30) : ∃ c, marshallServiceClassInfo m sc buf = some c ∧
      Marshalled m buf (layoutRegions WSASERVICECLASSINFOW m sc) c :=
  marshallLayout_marshalled WSASERVICECLASSINFOW (Nat.lt_of_le_of_lt hfit (by decide))
    (Nat.le_refl _) hends hsource

theorem placed_of_le (hbuf : buf' + T ≤ dest) (hdest : dest + T < 2 ^ 32) : Placed buf' dest T :=
  ⟨.inl hbuf, by omega, hdest⟩

theorem exists_placed (p : ℕ) (hT : T ≤ 2 ^ 30) :
    ∃ buf' dest, Placed buf' dest T ∧ (p < buf' ∨ buf' + T ≤ p) ∧ (p < dest ∨ dest + T ≤ p) := by
  by_cases hlow : p < 2 ^ 30
  · refine ⟨2 ^ 30, 2 ^ 31, placed_of_le (by omega) (by omega), ?_⟩
    omega
  · by_cases hmiddle : p < 2 ^ 31
    · refine ⟨0, 2 ^ 31, placed_of_le (by omega) (by omega), ?_⟩
      omega
    · refine ⟨0, 2 ^ 30, placed_of_le (by omega) (by omega), ?_⟩
      omega

theorem exists_received (m stream : Mem) (buf : ℕ) {p : ℕ} (hp : p < buf' ∨ buf' + T ≤ p) :
    ∃ m' : Mem, bytesAt m' buf' T = bytesAt stream buf T ∧ m' p ≠ m p := by
  refine ⟨fun x => if buf' ≤ x ∧ x < buf' + T then stream (buf + (x - buf')) else m p + 1, ?_, ?_⟩
  · unfold bytesAt
    refine List.map_congr_left fun i hi => ?_
    rw [List.mem_range] at hi
    dsimp only
    rw [if_pos ⟨Nat.le_add_right _ _, Nat.add_lt_add_left hi _⟩, Nat.add_sub_cancel_left]
  · dsimp only
    rw [if_neg (by omega)]
    intro hequal
    have hnat := congrArg UInt8.toNat hequal
    rw [UInt8.toNat_add, UInt8.toNat_one] at hnat
    have hlt := (m p).toNat_lt
    omega

/-- A class info with a name or a value is not carried, and without them the structure is rebuilt.
The structure and its marshalled form have room in the two gigabytes of a process. -/
theorem classInfoRebuilt_iff (hvalue : serviceClassInfoAt m sc = some value)
    (hsource : ∀ r ∈ layoutRegions WSASERVICECLASSINFOW m sc, r.Apart ⟨buf, classInfoSize m sc⟩)
    (hfit : classInfoSize m sc ≤ 2 ^ 30) :
    ClassInfoRebuilt m sc buf value ↔
      ∀ infos, value.lpClassInfos = some infos → ∀ info ∈ infos, info.Plain := by
  have hends := dataAt_isSome_of_serviceClassInfoAt hvalue
  obtain ⟨c, hcall, hmarshalled⟩ := marshallServiceClassInfo_marshalled hends hsource hfit
  have htotal : c.totalsz = classInfoSize m sc := hmarshalled.totalsz
  constructor
  · rintro ⟨c', hcall', -, -, hback⟩ infos hinfos info hinfo
    obtain rfl := Option.some.inj (hcall.symm.trans hcall')
    by_contra hdata
    obtain ⟨p, hdepends⟩ := value_depends hvalue hinfos hinfo hdata
    rw [htotal] at hback
    obtain ⟨buf', dest, hplaced, houtBuf, houtDest⟩ := exists_placed p hfit
    obtain ⟨m', hbytes, hdiff⟩ := exists_received m c.m buf houtBuf
    obtain ⟨d, hdemarshalled, hsame, -, -, houtside⟩ := hback m' buf' dest hbytes hplaced
    obtain ⟨d', hdemarshalled', hshallow, -⟩ := deMarshallServiceClassInfo_shallow hplaced hends
      (hmarshalled.received (by rw [htotal]; exact hbytes))
    obtain rfl := Option.some.inj (hdemarshalled.symm.trans hdemarshalled')
    refine hdepends d.m dest hshallow ?_ hsame
    rwa [houtside p houtDest]
  · intro hplain
    refine ⟨c, hcall, ?_, ?_, ?_⟩
    · rw [htotal]
      exact hmarshalled.ptr
    · rw [htotal]
      exact hmarshalled.outside
    · intro m' buf' dest hbytes hplaced
      rw [htotal] at hplaced
      obtain ⟨d, hdemarshalled, hshallow, hptr, hptrdest, houtside⟩ :=
        deMarshallServiceClassInfo_shallow hplaced hends (hmarshalled.received hbytes)
      rw [htotal]
      exact ⟨d, hdemarshalled, hshallow.value_of_plain hvalue hplain, hptr, hptrdest, houtside⟩

end Structures

/-- A service class with one class info, whose name and value are at these addresses. -/
def classMem (name value : UInt8) : Mem := fun x =>
  let bytes : List UInt8 :=
    [0, 0, 0, 0, 0, 0, 0, 0, 1, 0, 0, 0, 80, 0, 0, 0,
     name, 0, 0, 0, 12, 0, 0, 0, 4, 0, 0, 0, 4, 0, 0, 0, value, 0, 0, 0,
     83, 0, 0, 0, 1, 0, 0, 0]
  if 64 ≤ x then bytes.getD (x - 64) 0 else 0

/-- Without a name and a value the structure goes from address 64 by way of a buffer at 1024. -/
theorem classInfoRebuilt_plain :
    ∃ value, serviceClassInfoAt (classMem 0 0) 64 = some value ∧
      ClassInfoRebuilt (classMem 0 0) 64 1024 value := by
  have hvalue : serviceClassInfoAt (classMem 0 0) 64 =
      some ⟨none, none, 1, some [⟨none, 12, 4, 4, none⟩]⟩ := by decide +kernel
  have hapart : ∀ r ∈ layoutRegions WSASERVICECLASSINFOW (classMem 0 0) 64,
      r.Apart ⟨1024, classInfoSize (classMem 0 0) 64⟩ := by decide +kernel
  refine ⟨_, hvalue, (classInfoRebuilt_iff hvalue hapart (by decide +kernel)).mpr ?_⟩
  intro infos hinfos info hinfo
  obtain rfl := Option.some.inj hinfos
  obtain rfl := List.mem_singleton.mp hinfo
  decide

/-- A process that has received 36 bytes at 1024. -/
def freshProcess (stream : Mem) : Mem := fun x => if 1024 ≤ x ∧ x < 1024 + 36 then stream x else 0

/-- The name and the value of the class info do not arrive in a fresh process. -/
theorem not_classInfoRebuilt_named :
    ∃ value, serviceClassInfoAt (classMem 100 104) 64 = some value ∧
      ¬ ClassInfoRebuilt (classMem 100 104) 64 1024 value := by
  have hvalue : serviceClassInfoAt (classMem 100 104) 64 =
      some ⟨none, none, 1, some [⟨some [83], 12, 4, 4, some [1, 0, 0, 0]⟩]⟩ := by decide +kernel
  refine ⟨_, hvalue, ?_⟩
  rintro ⟨c, hcall, -, -, hback⟩
  have htotal : c.totalsz = 36 := by
    have hsize : (marshallServiceClassInfo (classMem 100 104) 64 1024).map (·.totalsz) =
        some 36 := by decide +kernel
    rw [hcall] at hsize
    exact Option.some.inj hsize
  rw [htotal] at hback
  have hbytes : bytesAt (freshProcess c.m) 1024 36 = bytesAt c.m 1024 36 := by
    refine List.map_congr_left fun i hi => ?_
    rw [List.mem_range] at hi
    exact if_pos ⟨Nat.le_add_right _ _, Nat.add_lt_add_left hi _⟩
  obtain ⟨d, hdemarshalled, hsame, -⟩ :=
    hback (freshProcess c.m) 1024 4096 hbytes (placed_of_le (by decide) (by decide))
  have hrebuilt : ((marshallServiceClassInfo (classMem 100 104) 64 1024).bind fun c =>
      (deMarshallServiceClassInfo (freshProcess c.m) 4096 1024).bind fun d =>
        serviceClassInfoAt d.m 4096) =
      some ⟨none, none, 1, some [⟨some [], 12, 4, 4, some [0, 0, 0, 0]⟩]⟩ := by decide +kernel
  rw [hcall, Option.bind_some, hdemarshalled, Option.bind_some, hsame] at hrebuilt
  cases hrebuilt

end MiscProjects.NameService
