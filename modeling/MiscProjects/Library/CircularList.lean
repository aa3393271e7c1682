import Mathlib.Data.List.Basic
import Mathlib.Data.List.Nodup
import Mathlib.Logic.Function.Basic

/-!
# Circular lists with entries embedded in the elements

A list is a ring of entries, of which one is the head; every entry points forward and
back.  `none` stands for memory that is not allocated, and following a pointer into such
memory makes an operation `none`.

`Ring mem h l` says that the pointers lead from the head `h` through the entries `l` and
back to `h`, in both directions, without meeting an entry twice.  Inserting behind the
head and removing an entry keep rings and change the pointers of the ring only.
-/

namespace MiscProjects.CircularList

open Function (update update_self update_of_ne)

structure ListEntry (α : Type*) where
  flink : α
  blink : α

abbrev Memory (α : Type*) := α → Option (ListEntry α)

variable {α : Type*} {mem mem' : Memory α} {a b c e h n p x : α} {l l₁ l₂ : List α}

def flinkAt (mem : Memory α) (a : α) : Option α := (mem a).map ListEntry.flink

def blinkAt (mem : Memory α) (a : α) : Option α := (mem a).map ListEntry.blink

/-- `b` is the next entry after `a`. -/
def Joined (mem : Memory α) (a b : α) : Prop := flinkAt mem a = some b ∧ blinkAt mem b = some a

/-- The pointers lead from `a` through `l` to `b`. -/
def Path (mem : Memory α) : α → List α → α → Prop
  | a, [], b => Joined mem a b
  | a, c :: l, b => Joined mem a c ∧ Path mem c l b

structure Ring (mem : Memory α) (h : α) (l : List α) : Prop where
  path : Path mem h l h
  nodup : (h :: l).Nodup

/-! ## Paths -/

/-- A path depends on its forward pointers and its pointers back. -/
theorem Path.congr (hpath : Path mem a l b) (hf : ∀ c ∈ a :: l, flinkAt mem' c = flinkAt mem c)
    (hb : ∀ c ∈ l ++ [b], blinkAt mem' c = blinkAt mem c) : Path mem' a l b := by
  induction l generalizing a with
  | nil =>
      exact ⟨(hf a List.mem_cons_self).trans hpath.1, (hb b List.mem_cons_self).trans hpath.2⟩
  | cons c l ih =>
      obtain ⟨hjoined, hrest⟩ := hpath
      refine ⟨⟨?_, ?_⟩, ih hrest ?_ ?_⟩
      · exact (hf a List.mem_cons_self).trans hjoined.1
      · exact (hb c List.mem_cons_self).trans hjoined.2
      · intro d hd
        exact hf d (List.mem_cons_of_mem a hd)
      · intro d hd
        exact hb d (List.mem_cons_of_mem c hd)

theorem path_append : Path mem a (l₁ ++ c :: l₂) b ↔ Path mem a l₁ c ∧ Path mem c l₂ b := by
  induction l₁ generalizing a with
  | nil => exact Iff.rfl
  | cons d l₁ ih =>
      rw [List.cons_append, Path, Path, ih, and_assoc]

/-- The forward pointers of a path lead along it. -/
theorem Path.flink_mem (hpath : Path mem a l b) (hx : x ∈ a :: l) :
    ∃ n ∈ l ++ [b], flinkAt mem x = some n := by
  induction l generalizing a with
  | nil =>
      rw [List.mem_singleton] at hx
      rw [hx]
      exact ⟨b, List.mem_cons_self, hpath.1⟩
  | cons c l ih =>
      rcases List.mem_cons.mp hx with rfl | hx
      · exact ⟨c, List.mem_cons_self, hpath.1.1⟩
      · obtain ⟨n, hn, hflink⟩ := ih hpath.2 hx
        exact ⟨n, List.mem_cons_of_mem c hn, hflink⟩

/-- The pointers back lead along the path. -/
theorem Path.blink_mem (hpath : Path mem a l b) (hx : x ∈ l ++ [b]) :
    ∃ p ∈ a :: l, blinkAt mem x = some p := by
  induction l generalizing a with
  | nil =>
      rw [List.nil_append, List.mem_singleton] at hx
      rw [hx]
      exact ⟨a, List.mem_cons_self, hpath.2⟩
  | cons c l ih =>
      rcases List.mem_cons.mp hx with rfl | hx
      · exact ⟨a, List.mem_cons_self, hpath.1.2⟩
      · obtain ⟨p, hp, hblink⟩ := ih hpath.2 hx
        exact ⟨p, List.mem_cons_of_mem a hp, hblink⟩

/-- The entry before the end of a path belongs to it. -/
theorem Path.back_mem (hpath : Path mem a l b) (hp : blinkAt mem b = some p) : p ∈ a :: l := by
  obtain ⟨p', hp', hblink⟩ := hpath.blink_mem (List.mem_append_right l List.mem_cons_self)
  rwa [Option.some.inj (hp.symm.trans hblink)]

/-- The last entry of a path is led to another end. -/
theorem Path.redirect (hpath : Path mem a l b) (hl : (a :: l).Nodup)
    (hback : blinkAt mem b = some p) (hf : ∀ c ∈ a :: l, c ≠ p → flinkAt mem' c = flinkAt mem c)
    (hb : ∀ c ∈ l, blinkAt mem' c = blinkAt mem c) (hjoined : Joined mem' p n) :
    Path mem' a l n := by
  induction l generalizing a with
  | nil =>
      obtain rfl := Option.some.inj (hpath.2.symm.trans hback)
      exact hjoined
  | cons c l ih =>
      obtain ⟨hac, hrest⟩ := hpath
      rw [List.nodup_cons] at hl
      have hne : a ≠ p := by
        rintro rfl
        exact hl.1 (hrest.back_mem hback)
      refine ⟨⟨?_, ?_⟩, ih hrest hl.2 ?_ ?_⟩
      · exact (hf a List.mem_cons_self hne).trans hac.1
      · exact (hb c List.mem_cons_self).trans hac.2
      · intro d hd
        exact hf d (List.mem_cons_of_mem a hd)
      · intro d hd
        exact hb d (List.mem_cons_of_mem c hd)

theorem mem_ring_iff : x ∈ l ++ [h] ↔ x ∈ h :: l := by
  rw [List.mem_append, List.mem_singleton, List.mem_cons, or_comm]

theorem Ring.congr (hring : Ring mem h l) (hmem : ∀ c ∈ h :: l, mem' c = mem c) :
    Ring mem' h l where
  path := by
    apply hring.path.congr
    · intro c hc
      rw [flinkAt, hmem c hc, flinkAt]
    · intro c hc
      rw [blinkAt, hmem c (mem_ring_iff.mp hc), blinkAt]
  nodup := hring.nodup

/-- The pointers of a ring stay in the ring. -/
theorem Ring.pointers_mem (hring : Ring mem h l) (ha : a ∈ h :: l) :
    ∃ entry, mem a = some entry ∧ entry.flink ∈ h :: l ∧ entry.blink ∈ h :: l := by
  obtain ⟨n, hn, hflink⟩ := hring.path.flink_mem ha
  obtain ⟨p, hp, hblink⟩ := hring.path.blink_mem (mem_ring_iff.mpr ha)
  obtain ⟨entry, hentry, rfl⟩ := Option.map_eq_some_iff.mp hflink
  rw [blinkAt, hentry] at hblink
  obtain rfl := Option.some.inj hblink
  exact ⟨entry, hentry, mem_ring_iff.mp hn, hp⟩

theorem Ring.ne_none (hring : Ring mem h l) (ha : a ∈ h :: l) : mem a ≠ none := by
  obtain ⟨entry, hentry, -⟩ := hring.pointers_mem ha
  rw [hentry]
  exact Option.some_ne_none entry

/-! ## Writing to one entry -/

variable [DecidableEq α]

def Memory.write (mem : Memory α) (a : α) (f : ListEntry α → ListEntry α) : Option (Memory α) :=
  (mem a).map fun entry => update mem a (some (f entry))

def setFlink (mem : Memory α) (a b : α) : Option (Memory α) :=
  mem.write a fun entry => { entry with flink := b }

def setBlink (mem : Memory α) (a b : α) : Option (Memory α) :=
  mem.write a fun entry => { entry with blink := b }

/-- The same entries are allocated. -/
def SameEntries (mem mem' : Memory α) : Prop := ∀ c, mem' c = none ↔ mem c = none

omit [DecidableEq α] in
theorem SameEntries.trans {mem'' : Memory α} (h : SameEntries mem mem')
    (h' : SameEntries mem' mem'') : SameEntries mem mem'' :=
  fun c => (h' c).trans (h c)

/-- What writing to an entry changes. -/
theorem write_spec (hentry : mem a = some entry) (f : ListEntry α → ListEntry α) :
    ∃ mem', mem.write a f = some mem' ∧
      (∀ c, flinkAt mem' c = if c = a then some (f entry).flink else flinkAt mem c) ∧
      (∀ c, blinkAt mem' c = if c = a then some (f entry).blink else blinkAt mem c) ∧
        SameEntries mem mem' ∧ ∀ c, c ≠ a → mem' c = mem c := by
  refine ⟨update mem a (some (f entry)), ?_, ?_, ?_, ?_, ?_⟩
  · rw [Memory.write, hentry, Option.map_some]
  · intro c
    by_cases hc : c = a
    · rw [hc, flinkAt, update_self, if_pos rfl, Option.map_some]
    · rw [flinkAt, update_of_ne hc, if_neg hc, flinkAt]
  · intro c
    by_cases hc : c = a
    · rw [hc, blinkAt, update_self, if_pos rfl, Option.map_some]
    · rw [blinkAt, update_of_ne hc, if_neg hc, blinkAt]
  · intro c
    by_cases hc : c = a
    · rw [hc, update_self, hentry]
      exact iff_of_false (Option.some_ne_none _) (Option.some_ne_none _)
    · rw [update_of_ne hc]
  · intro c hc
    exact update_of_ne hc ..

/-- What writing a forward pointer changes. -/
theorem setFlink_spec (ha : mem a ≠ none) (b : α) : ∃ mem', setFlink mem a b = some mem' ∧
      (∀ c, flinkAt mem' c = if c = a then some b else flinkAt mem c) ∧
      (∀ c, blinkAt mem' c = blinkAt mem c) ∧ SameEntries mem mem' ∧
        ∀ c, c ≠ a → mem' c = mem c := by
  obtain ⟨entry, hentry⟩ := Option.ne_none_iff_exists'.mp ha
  obtain ⟨mem', hwrite, hflink, hblink, hrest⟩ :=
    write_spec hentry fun entry => { entry with flink := b }
  refine ⟨mem', hwrite, hflink, ?_, hrest⟩
  intro c
  by_cases hc : c = a
  · rw [hblink, if_pos hc, hc, blinkAt, hentry, Option.map_some]
  · rw [hblink, if_neg hc]

/-- What writing a pointer back changes. -/
theorem setBlink_spec (ha : mem a ≠ none) (b : α) : ∃ mem', setBlink mem a b = some mem' ∧
      (∀ c, blinkAt mem' c = if c = a then some b else blinkAt mem c) ∧
      (∀ c, flinkAt mem' c = flinkAt mem c) ∧ SameEntries mem mem' ∧
        ∀ c, c ≠ a → mem' c = mem c := by
  obtain ⟨entry, hentry⟩ := Option.ne_none_iff_exists'.mp ha
  obtain ⟨mem', hwrite, hflink, hblink, hrest⟩ :=
    write_spec hentry fun entry => { entry with blink := b }
  refine ⟨mem', hwrite, hblink, ?_, hrest⟩
  intro c
  by_cases hc : c = a
  · rw [hflink, if_pos hc, hc, flinkAt, hentry, Option.map_some]
  · rw [hflink, if_neg hc]

/-! ## An empty list -/

/-- `InitializeListHead`, on memory that is allocated or being allocated. -/
def initializeListHead (mem : Memory α) (h : α) : Memory α := update mem h (some ⟨h, h⟩)

/-! ## Inserting -/

def insertHeadList (mem : Memory α) (h e : α) : Option (Memory α) := do
  let head ← mem h
  let mem ← setFlink mem e head.flink
  let mem ← setBlink mem e h
  let mem ← setBlink mem head.flink e
  setFlink mem h e

theorem Ring.insertHeadList (hring : Ring mem h l) (he : e ∉ h :: l) (halloc : mem e ≠ none) :
    ∃ mem', CircularList.insertHeadList mem h e = some mem' ∧ Ring mem' h (e :: l) ∧
      SameEntries mem mem' ∧ ∀ c ∉ h :: e :: l, mem' c = mem c := by
  obtain ⟨head, hhead, hflink, -⟩ := hring.pointers_mem List.mem_cons_self
  have hne : e ≠ h := fun heq => he (heq ▸ List.mem_cons_self)
  have hfe : head.flink ≠ e := fun heq => he (heq ▸ hflink)
  obtain ⟨mem₁, hset₁, hf₁, hb₁, halloc₁, hmem₁⟩ := setFlink_spec halloc head.flink
  obtain ⟨mem₂, hset₂, hb₂, hf₂, halloc₂, hmem₂⟩ :=
    setBlink_spec (fun hnone => halloc ((halloc₁ e).mp hnone)) h
  have halloc₁₂ := halloc₁.trans halloc₂
  obtain ⟨mem₃, hset₃, hb₃, hf₃, halloc₃, hmem₃⟩ :=
    setBlink_spec (fun hnone => hring.ne_none hflink ((halloc₁₂ head.flink).mp hnone)) e
  have halloc₁₃ := halloc₁₂.trans halloc₃
  obtain ⟨mem', hset', hf', hb', halloc', hmem'⟩ :=
    setFlink_spec (fun hnone => hring.ne_none List.mem_cons_self ((halloc₁₃ h).mp hnone)) e
  have hf : ∀ c, flinkAt mem' c =
      if c = h then some e else if c = e then some head.flink else flinkAt mem c := by
    intro c
    rw [hf', hf₃, hf₂, hf₁]
  have hb : ∀ c, blinkAt mem' c =
      if c = head.flink then some e else if c = e then some h else blinkAt mem c := by
    intro c
    rw [hb', hb₃, hb₂, hb₁]
  have hnodup := hring.nodup
  refine ⟨mem', ?_, ⟨?_, ?_⟩, halloc₁₃.trans halloc', ?_⟩
  · rw [CircularList.insertHeadList, hhead]
    simp only [Option.bind_eq_bind, Option.bind_some]
    rw [hset₁, Option.bind_some, hset₂, Option.bind_some, hset₃, Option.bind_some, hset']
  · have hjoined : Joined mem' h e := by
      refine ⟨?_, ?_⟩
      · rw [hf, if_pos rfl]
      · rw [hb, if_neg hfe.symm, if_pos rfl]
    have hjoined' : Joined mem' e head.flink := by
      refine ⟨?_, ?_⟩
      · rw [hf, if_neg hne, if_pos rfl]
      · rw [hb, if_pos rfl]
    have hpath := hring.path
    cases l with
    | nil =>
        obtain rfl : head.flink = h := by
          have hflinkh := hpath.1
          rw [flinkAt, hhead] at hflinkh
          exact Option.some.inj hflinkh
        exact ⟨hjoined, hjoined'⟩
    | cons c l =>
        obtain rfl : head.flink = c := by
          have hflinkh := hpath.1.1
          rw [flinkAt, hhead] at hflinkh
          exact Option.some.inj hflinkh
        refine ⟨hjoined, hjoined', hpath.2.congr ?_ ?_⟩
        · intro d hd
          rw [hf, if_neg, if_neg]
          · rintro rfl
            exact he (List.mem_cons_of_mem h hd)
          · rintro rfl
            exact (List.nodup_cons.mp hnodup).1 hd
        · intro d hd
          have hd' : d ∈ h :: l := mem_ring_iff.mp hd
          rw [hb, if_neg, if_neg]
          · rintro rfl
            exact he (List.cons_subset_cons h (List.subset_cons_self _ l) hd')
          · rintro rfl
            rcases List.mem_cons.mp hd' with heq | hl
            · exact (List.nodup_cons.mp hnodup).1 (heq ▸ List.mem_cons_self)
            · exact (List.nodup_cons.mp (List.nodup_cons.mp hnodup).2).1 hl
  · rw [List.nodup_cons, List.mem_cons, not_or, List.nodup_cons]
    rw [List.nodup_cons] at hnodup
    rw [List.mem_cons, not_or] at he
    exact ⟨⟨hne.symm, hnodup.1⟩, he.2, hnodup.2⟩
  · intro c hc
    rw [List.mem_cons, List.mem_cons, not_or, not_or] at hc
    have hcf : c ≠ head.flink := by
      rintro rfl
      rcases List.mem_cons.mp hflink with heq | hl
      · exact hc.1 heq
      · exact hc.2.2 hl
    rw [hmem' c hc.1, hmem₃ c hcf, hmem₂ c hc.2.1, hmem₁ c hc.2.1]

/-! ## Removing -/

/-- `RemoveEntryList`.  The entry itself keeps its pointers. -/
def removeEntryList (mem : Memory α) (e : α) : Option (Memory α) := do
  let entry ← mem e
  let mem ← setFlink mem entry.blink entry.flink
  setBlink mem entry.flink entry.blink

theorem Ring.removeEntryList (hring : Ring mem h l) (he : e ∈ l) :
    ∃ mem', CircularList.removeEntryList mem e = some mem' ∧ Ring mem' h (l.erase e) ∧
      SameEntries mem mem' ∧ ∀ c ∉ h :: l, mem' c = mem c := by
  obtain ⟨entry, hentry, hflink, hblink⟩ := hring.pointers_mem (List.mem_cons_of_mem h he)
  obtain ⟨mem₁, hset₁, hf₁, hb₁, halloc₁, hmem₁⟩ := setFlink_spec (hring.ne_none hblink) entry.flink
  obtain ⟨mem', hset', hb', hf', halloc', hmem'⟩ :=
    setBlink_spec (fun hnone => hring.ne_none hflink ((halloc₁ entry.flink).mp hnone)) entry.blink
  have hf : ∀ c, flinkAt mem' c = if c = entry.blink then some entry.flink else flinkAt mem c := by
    intro c
    rw [hf', hf₁]
  have hb : ∀ c, blinkAt mem' c = if c = entry.flink then some entry.blink else blinkAt mem c := by
    intro c
    rw [hb', hb₁]
  have hnodup := hring.nodup
  refine ⟨mem', ?_, ⟨?_, ?_⟩, halloc₁.trans halloc', ?_⟩
  · rw [CircularList.removeEntryList, hentry]
    simp only [Option.bind_eq_bind, Option.bind_some]
    rw [hset₁, Option.bind_some, hset']
  · obtain ⟨l₁, l₂, rfl⟩ := List.append_of_mem he
    obtain ⟨hpath₁, hpath₂⟩ := path_append.mp hring.path
    obtain ⟨hnodup₁, hnodup₂, hdisjoint⟩ := List.nodup_append.mp (List.cons_append ▸ hnodup)
    have he₁ : e ∉ l₁ := fun hmem =>
      hdisjoint e (List.mem_cons_of_mem h hmem) e List.mem_cons_self rfl
    have hback : blinkAt mem e = some entry.blink := by
      rw [blinkAt, hentry, Option.map_some]
    have hforward : flinkAt mem e = some entry.flink := by
      rw [flinkAt, hentry, Option.map_some]
    have hjoined : Joined mem' entry.blink entry.flink := by
      refine ⟨?_, ?_⟩
      · rw [hf, if_pos rfl]
      · rw [hb, if_pos rfl]
    have hredirect (hn : ∀ c ∈ l₁, c ≠ entry.flink) : Path mem' h l₁ entry.flink := by
      apply hpath₁.redirect hnodup₁ hback
      · intro c _ hc
        rw [hf, if_neg hc]
      · intro c hc
        rw [hb, if_neg (hn c hc)]
      · exact hjoined
    rw [List.erase_append_right _ he₁, List.erase_cons_head]
    cases l₂ with
    | nil =>
        obtain heq : entry.flink = h := Option.some.inj (hforward.symm.trans hpath₂.1)
        rw [List.append_nil]
        rw [heq] at hredirect
        apply hredirect
        rintro c hc rfl
        exact (List.nodup_cons.mp hnodup₁).1 hc
    | cons c l₂ =>
        obtain heq : entry.flink = c := Option.some.inj (hforward.symm.trans hpath₂.1.1)
        rw [heq] at hredirect hb
        have hp : entry.blink ∈ h :: l₁ := hpath₁.back_mem hback
        refine path_append.mpr ⟨hredirect ?_, hpath₂.2.congr ?_ ?_⟩
        · rintro d hd rfl
          exact hdisjoint d (List.mem_cons_of_mem h hd) d
            (List.mem_cons_of_mem e List.mem_cons_self) rfl
        · intro d hd
          rw [hf, if_neg]
          rintro rfl
          exact hdisjoint _ hp _ (List.mem_cons_of_mem e hd) rfl
        · intro d hd
          rw [hb, if_neg]
          rintro rfl
          rcases List.mem_append.mp hd with hd | hd
          · exact (List.nodup_cons.mp (List.nodup_cons.mp hnodup₂).2).1 hd
          · rw [List.mem_singleton] at hd
            exact hdisjoint h List.mem_cons_self d
              (List.mem_cons_of_mem e List.mem_cons_self) hd.symm
  · exact hnodup.sublist (List.Sublist.cons_cons h List.erase_sublist)
  · intro c hc
    rw [hmem', hmem₁]
    · rintro rfl
      exact hc hblink
    · rintro rfl
      exact hc hflink

/-! ## Walking along a list -/

/-- The walk `while (pEntry != pHead)` from `a` on that stops at the entry `e`: whether it
is found.  `none` if a pointer into free memory is followed or there are more than `fuel`
entries. -/
def findEntry (mem : Memory α) (h e : α) : ℕ → α → Option Bool
  | 0, _ => none
  | fuel + 1, a =>
      if a = h then some false
      else if a = e then some true
      else (mem a).bind fun entry => findEntry mem h e fuel entry.flink

theorem Path.findEntry (hpath : Path mem a l h) (hl : h ∉ l) (e : α) {fuel : ℕ}
    (hfuel : l.length < fuel) : ∃ entry, mem a = some entry ∧
      CircularList.findEntry mem h e fuel entry.flink = some (decide (e ∈ l)) := by
  induction l generalizing a fuel with
  | nil =>
      obtain ⟨entry, hentry, hflink⟩ := Option.map_eq_some_iff.mp hpath.1
      refine ⟨entry, hentry, ?_⟩
      obtain ⟨fuel, rfl⟩ := Nat.exists_eq_succ_of_ne_zero (Nat.ne_of_gt hfuel)
      rw [CircularList.findEntry, if_pos hflink]
      rfl
  | cons c l ih =>
      obtain ⟨entry, hentry, hflink⟩ := Option.map_eq_some_iff.mp hpath.1.1
      refine ⟨entry, hentry, ?_⟩
      rw [List.mem_cons, not_or] at hl
      obtain ⟨fuel, rfl⟩ := Nat.exists_eq_succ_of_ne_zero (Nat.ne_of_gt (Nat.zero_lt_of_lt hfuel))
      obtain ⟨entry', hentry', hfind⟩ := ih hpath.2 hl.2 (Nat.lt_of_succ_lt_succ hfuel)
      rw [hflink, CircularList.findEntry, if_neg (Ne.symm hl.1)]
      by_cases hce : c = e
      · rw [if_pos hce, hce, decide_eq_true List.mem_cons_self]
      · rw [if_neg hce, hentry', Option.bind_some, hfind]
        simp only [List.mem_cons, Ne.symm hce, false_or]

/-- The entries from `a` on, up to the head. -/
def entriesFrom (mem : Memory α) (h : α) : ℕ → α → Option (List α)
  | 0, _ => none
  | fuel + 1, a =>
      if a = h then some []
      else (mem a).bind fun entry => (entriesFrom mem h fuel entry.flink).map (a :: ·)

/-- The entries of a list, in order. -/
def entries (mem : Memory α) (h : α) (fuel : ℕ) : Option (List α) :=
  (mem h).bind fun head => entriesFrom mem h fuel head.flink

theorem Path.entriesFrom (hpath : Path mem a l h) (hl : h ∉ l) {fuel : ℕ}
    (hfuel : l.length < fuel) : ∃ entry, mem a = some entry ∧
      CircularList.entriesFrom mem h fuel entry.flink = some l := by
  induction l generalizing a fuel with
  | nil =>
      obtain ⟨entry, hentry, hflink⟩ := Option.map_eq_some_iff.mp hpath.1
      refine ⟨entry, hentry, ?_⟩
      obtain ⟨fuel, rfl⟩ := Nat.exists_eq_succ_of_ne_zero (Nat.ne_of_gt hfuel)
      rw [CircularList.entriesFrom, if_pos hflink]
  | cons c l ih =>
      obtain ⟨entry, hentry, hflink⟩ := Option.map_eq_some_iff.mp hpath.1.1
      refine ⟨entry, hentry, ?_⟩
      rw [List.mem_cons, not_or] at hl
      obtain ⟨fuel, rfl⟩ := Nat.exists_eq_succ_of_ne_zero (Nat.ne_of_gt (Nat.zero_lt_of_lt hfuel))
      obtain ⟨entry', hentry', hrest⟩ := ih hpath.2 hl.2 (Nat.lt_of_succ_lt_succ hfuel)
      rw [hflink, CircularList.entriesFrom, if_neg (Ne.symm hl.1), hentry', Option.bind_some,
        hrest, Option.map_some]

theorem Ring.entries (hring : Ring mem h l) {fuel : ℕ} (hfuel : l.length < fuel) :
    CircularList.entries mem h fuel = some l := by
  obtain ⟨head, hhead, hentries⟩ := hring.path.entriesFrom (List.nodup_cons.mp hring.nodup).1 hfuel
  rw [CircularList.entries, hhead, Option.bind_some, hentries]

end MiscProjects.CircularList
