import MiscProjects.Tal.Lines
import MiscProjects.Tal.Width

/-!
# The work buffer of the tab expansion

`expand_tabs_into` writes the expanded text to a static buffer, whose size is fixed for the
largest tab stop, and stops at a limit that depends on the tab stop in use.  Here every write
is checked against the size of the buffer; the text that is read back is the one that the
other modules compute.
-/

namespace MiscProjects.Tal.WorkBuffer

/-! ## The code -/

/-- The size of `temp`. -/
def tempSize : ℕ := LINE_MAX * MAX_TABSTOP + 1

/-- The static buffer, with what earlier calls have left in it. -/
structure Temp where
  chars : List Char
  size : chars.length = tempSize

/-- A line that is expanded: a string without its zero byte. -/
structure InputLine where
  chars : Text
  noNul : NUL ∉ chars
  le_max : chars.length ≤ LINE_MAX

structure Tabstop where
  value : ℕ
  pos : 0 < value
  le_max : value ≤ MAX_TABSTOP

/-- `temp[i] = c`; `none` outside the buffer. -/
def write (temp : List Char) (i : ℕ) (c : Char) : Option (List Char) :=
  if i < temp.length then some (temp.set i c) else none

/-- The inner loop: `n` blanks are written. -/
def writeBlanks : ℕ → List Char → ℕ → Option (List Char)
  | 0, temp, _ => some temp
  | n + 1, temp, io => (write temp io ' ').bind fun temp => writeBlanks n temp (io + 1)

/-- The loop over the input. -/
def writeLoop (tabstop : ℕ) : Text → List Char → ℕ → Option (List Char × ℕ)
  | [], temp, io => some (temp, io)
  | c :: s, temp, io =>
      if io < LINE_MAX * tabstop - 1 then
        if c = '\t' then
          (writeBlanks (tabstop - io % tabstop) temp io).bind fun temp =>
            writeLoop tabstop s temp (io + (tabstop - io % tabstop))
        else (write temp io c).bind fun temp => writeLoop tabstop s temp (io + 1)
      else some (temp, io)

/-- `expand_tabs_into` up to the copy of the text that is in the buffer. -/
def expandTabs (temp : List Char) (inputBuffer : Text) (tabstop : ℕ) : Option Text :=
  (writeLoop tabstop inputBuffer temp 0).bind fun written =>
    (write written.1 written.2 NUL).map cstring

/-! ## Statement -/

/-- Nothing is written outside the buffer, and the text is the expansion of the whole line. -/
def Expands (temp : Temp) (line : InputLine) (tabstop : Tabstop) : Prop :=
  expandTabs temp.chars line.chars tabstop.value = some (expand tabstop.value 0 line.chars)

/-! ## Writing -/

section Writing
variable {temp done s : Text} {io n tabstop : ℕ} {c : Char}

/-- The buffer begins with what has been written. -/
def Holds (temp done : List Char) : Prop := temp.length = tempSize ∧ done <+: temp

theorem Holds.write (h : Holds temp done) (c : Char) (hroom : done.length < tempSize) :
    ∃ temp', WorkBuffer.write temp done.length c = some temp' ∧ Holds temp' (done ++ [c]) := by
  obtain ⟨hsize, rest, rfl⟩ := h
  refine ⟨_, if_pos (hsize ▸ hroom), ?_, ?_⟩
  · rwa [List.length_set]
  · rw [List.length_append] at hsize
    obtain ⟨d, rest, rfl⟩ := List.exists_cons_of_length_pos (l := rest) (by omega)
    rw [List.set_append_right _ _ (Nat.le_refl _), Nat.sub_self, List.set_cons_zero]
    exact ⟨rest, by rw [List.append_assoc]; rfl⟩

theorem Holds.writeBlanks (h : Holds temp done) (hroom : done.length + n ≤ tempSize) :
    ∃ temp', WorkBuffer.writeBlanks n temp done.length = some temp' ∧
      Holds temp' (done ++ List.replicate n ' ') := by
  induction n generalizing temp done with
  | zero => exact ⟨temp, rfl, by simpa using h⟩
  | succ n ih =>
      obtain ⟨temp', hwrite, h'⟩ := h.write ' ' (by omega)
      have hlength : (done ++ [' ']).length = done.length + 1 := by
        rw [List.length_append, List.length_singleton]
      obtain ⟨temp'', hblanks, h''⟩ := ih h' (by omega)
      rw [hlength] at hblanks
      refine ⟨temp'', ?_, ?_⟩
      · rw [WorkBuffer.writeBlanks, hwrite, Option.bind_some, hblanks]
      · rwa [List.append_assoc, List.singleton_append, ← List.replicate_succ] at h''

theorem tab_le {m : ℕ} (hpos : 0 < tabstop) (hio : io < m * tabstop) :
    io + (tabstop - io % tabstop) ≤ m * tabstop := by
  have hmod : io % tabstop < tabstop := Nat.mod_lt io hpos
  have hdiv : io / tabstop < m := (Nat.div_lt_iff_lt_mul hpos).mpr hio
  calc io + (tabstop - io % tabstop) = (io / tabstop + 1) * tabstop := by
        have hsplit := Nat.div_add_mod' io tabstop
        rw [Nat.succ_mul]
        omega
    _ ≤ m * tabstop := Nat.mul_le_mul_right tabstop hdiv

theorem Holds.writeLoop (h : Holds temp done) (hpos : 0 < tabstop) (hmax : tabstop ≤ MAX_TABSTOP)
    (hlimit : done.length ≤ LINE_MAX * tabstop) :
    ∃ temp', WorkBuffer.writeLoop tabstop s temp done.length =
        some (temp', (done ++ expandFrom tabstop done.length s).length) ∧
      Holds temp' (done ++ expandFrom tabstop done.length s) ∧
      (done ++ expandFrom tabstop done.length s).length ≤ LINE_MAX * tabstop := by
  have hsize : LINE_MAX * tabstop < tempSize :=
    Nat.lt_succ_of_le (Nat.mul_le_mul_left LINE_MAX hmax)
  induction s generalizing temp done with
  | nil =>
      rw [expandFrom_nil, List.append_nil]
      exact ⟨temp, rfl, h, hlimit⟩
  | cons c s ih =>
      rw [expandFrom_cons, WorkBuffer.writeLoop]
      by_cases hio : done.length < LINE_MAX * tabstop - 1
      · rw [if_pos hio, if_pos hio]
        have hbelow : done.length < LINE_MAX * tabstop := by omega
        by_cases htab : c = '\t'
        · have hstop := tab_le hpos hbelow
          obtain ⟨temp', hblanks, h'⟩ := h.writeBlanks (hstop.trans hsize.le)
          have hlength : (done ++ List.replicate (tabstop - done.length % tabstop) ' ').length =
              done.length + (tabstop - done.length % tabstop) := by
            rw [List.length_append, List.length_replicate]
          obtain ⟨temp'', hloop, h'', hle⟩ := ih h' (by rwa [hlength])
          rw [hlength] at hloop h'' hle
          rw [if_pos htab, if_pos htab, hblanks, Option.bind_some]
          rw [List.append_assoc] at hloop h'' hle
          exact ⟨temp'', hloop, h'', hle⟩
        · obtain ⟨temp', hwrite, h'⟩ := h.write c (by omega)
          have hlength : (done ++ [c]).length = done.length + 1 := by
            rw [List.length_append, List.length_singleton]
          obtain ⟨temp'', hloop, h'', hle⟩ := ih h' (by rw [hlength]; exact hbelow)
          rw [hlength] at hloop h'' hle
          rw [if_neg htab, if_neg htab, hwrite, Option.bind_some]
          rw [List.append_assoc] at hloop h'' hle
          exact ⟨temp'', hloop, h'', hle⟩
      · rw [if_neg hio, if_neg hio, List.append_nil]
        exact ⟨temp, rfl, h, hlimit⟩

/-- No write is outside the buffer, whatever the line is, and the text is that of
`expandTabsInto`. -/
theorem expandTabs_eq (htemp : temp.length = tempSize) (hnul : NUL ∉ s) (hpos : 0 < tabstop)
    (hmax : tabstop ≤ MAX_TABSTOP) :
    expandTabs temp s tabstop = some (expandTabsInto s tabstop) := by
  have hstart : Holds temp [] := ⟨htemp, List.nil_prefix⟩
  obtain ⟨temp', hloop, h', hle⟩ := hstart.writeLoop (s := s) hpos hmax (Nat.zero_le _)
  rw [List.nil_append, List.length_nil] at hloop h' hle
  have hroom : (expandFrom tabstop 0 s).length < tempSize :=
    Nat.lt_succ_of_le (hle.trans (Nat.mul_le_mul_left LINE_MAX hmax))
  obtain ⟨temp'', hwrite, -, rest, rfl⟩ := h'.write NUL hroom
  have hclean : NUL ∉ expandFrom tabstop 0 s := by
    intro hmem
    rcases mem_expandFrom hmem with hblank | hmem
    · exact absurd hblank (by decide)
    · exact hnul hmem
  have hstring : cstring (expandFrom tabstop 0 s ++ [NUL] ++ rest) = expandFrom tabstop 0 s := by
    rw [cstring, List.append_assoc, List.takeWhile_append_of_pos]
    · simp
    · intro c hc
      exact decide_eq_true (ne_of_mem_of_not_mem hc hclean)
  rw [expandTabs, hloop, Option.bind_some, hwrite, Option.map_some, hstring]
  rfl

end Writing

/-! ## Main result -/

theorem expands_iff_eq (temp : Temp) (line : InputLine) (tabstop : Tabstop) :
    Expands temp line tabstop ↔
      expandTabsInto line.chars tabstop.value = expand tabstop.value 0 line.chars := by
  rw [Expands, expandTabs_eq temp.size line.noNul tabstop.pos tabstop.le_max, Option.some.injEq]

theorem not_expands_full (temp : Temp) (line : InputLine) (tabstop : Tabstop)
    (hone : tabstop.value = 1) (hfull : line.chars.length = LINE_MAX) :
    ¬ Expands temp line tabstop := by
  intro h
  have heq := (expands_iff_eq temp line tabstop).mp h
  rw [hone, expandTabsInto, expandFrom_one] at heq
  have hlength := congrArg List.length heq
  rw [List.length_take, expand_one, List.length_map, hfull] at hlength
  exact absurd hlength (by decide)

/-- The whole line is expanded unless the tab stop is one and the line has the largest
length. -/
theorem expands_iff (temp : Temp) (line : InputLine) (tabstop : Tabstop) :
    Expands temp line tabstop ↔ 1 < tabstop.value ∨ line.chars.length < LINE_MAX := by
  by_cases hshort : line.chars.length < LINE_MAX
  · apply iff_of_true _ (.inr hshort)
    exact (expands_iff_eq temp line tabstop).mpr (expandTabsInto_eq tabstop.pos hshort)
  · rw [or_iff_left hshort]
    have hfull : line.chars.length = LINE_MAX :=
      Nat.le_antisymm line.le_max (Nat.le_of_not_lt hshort)
    by_cases hone : 1 < tabstop.value
    · refine iff_of_true ((expands_iff_eq temp line tabstop).mpr ?_) hone
      apply expandFrom_eq tabstop.pos
      rw [hfull]
      omega
    · have htabstop : tabstop.value = 1 := Nat.le_antisymm (Nat.le_of_not_lt hone) tabstop.pos
      exact iff_of_false (not_expands_full temp line tabstop htabstop hfull) hone

/-- A line of `LINE_MAX` characters loses the last one at a tab stop of one. -/
theorem last_character_not_expanded :
    ¬ ∀ (temp : Temp) (line : InputLine) (tabstop : Tabstop), Expands temp line tabstop := by
  intro h
  let temp : Temp := ⟨List.replicate tempSize NUL, List.length_replicate⟩
  let line : InputLine :=
    ⟨List.replicate LINE_MAX 'x', fun hmem => absurd (List.eq_of_mem_replicate hmem) (by decide),
      List.length_replicate.le⟩
  exact not_expands_full temp line ⟨1, by decide, by decide⟩ rfl List.length_replicate
    (h temp line ⟨1, by decide, by decide⟩)

end MiscProjects.Tal.WorkBuffer
