import MiscProjects.Tal.Lines

/-!
# The maximum width

The limit of `-m` is tested on the text with its tabs expanded, before anything is cut off
the line as it was read.  What is printed of an aligned line is never wider.  A line that is
not aligned is printed as it was read, and that is up to its first zero byte.
-/

namespace MiscProjects.Tal

/-! ## Statement -/

/-- The line of the input is aligned. -/
def Aligned (opt : Opt) (wd : WorkData) (line : Text) : Prop :=
  wd.outputInput = false ∧ aligns opt wd.usedTrail.text (readLine opt line) = true

instance (opt : Opt) (wd : WorkData) (line : Text) : Decidable (Aligned opt wd line) :=
  inferInstanceAs (Decidable (_ ∧ _))

/-- A line that is changed stays within the limit, and any other one is printed without its
trailing blanks. -/
structure WithinMaxalign (opt : Opt) (wd : WorkData) (line out : Text) : Prop where
  width : Aligned opt wd line ∨ out ≠ line.rdropWhile isBlank →
    (expand opt.tabstop 0 out).length ≤ opt.maxalign
  unchanged : ¬ Aligned opt wd line → out = line.rdropWhile isBlank

/-! ## Short lines -/

section Short
variable {opt : Opt} {input l : Text}

theorem readBuffers_line {s : Text} (hl : '\n' ∉ l) (hshort : l.length < LINE_MAX) :
    readBuffers (l ++ '\n' :: s) =
      if l.head? = some NUL then [] else (l ++ ['\n']) :: readBuffers s := by
  have hturn := fgets_line [] s hl hshort
  rw [List.nil_append] at hturn
  rw [readBuffers_of_turn (List.concat_ne_nil _ _) hturn]
  have hhead : (l ++ ['\n']).head? = some NUL ↔ l.head? = some NUL := by
    cases l with
    | nil => simp [show ¬ '\n' = NUL by decide]
    | cons c l => rfl
  simp only [hhead]

theorem readBuffers_last (hl : '\n' ∉ l) (hne : l ≠ []) (hshort : l.length < LINE_MAX) :
    readBuffers l = if l.head? = some NUL then [] else [l] := by
  have hturn : fgets LINE_MAX [] l = l :: fgets LINE_MAX [] [] := by
    rw [fgets_last [] hl hshort, fgets_nil, List.nil_append, if_neg hne, if_pos rfl]
  rw [readBuffers_of_turn hne hturn]
  rfl

theorem readAllInput_lines_takeWhile (opt : Opt)
    (hshort : ∀ l ∈ inputLines input, l.length < LINE_MAX) : (readAllInput opt input).lines =
      ((inputLines input).takeWhile (·.head? ≠ some NUL)).map (readLine opt) := by
  change (readBuffers input).map (readLine opt) = _
  induction input using line_induction with
  | nil => rfl
  | last l hne hl =>
      rw [inputLines_last hl hne] at hshort ⊢
      rw [readBuffers_last hl hne (hshort l List.mem_cons_self)]
      by_cases hnul : l.head? = some NUL
      · simp [hnul]
      · simp [hnul]
  | line l s hl ih =>
      rw [inputLines_line hl] at hshort ⊢
      rw [List.forall_mem_cons] at hshort
      rw [readBuffers_line hl hshort.1]
      by_cases hnul : l.head? = some NUL
      · simp [hnul]
      · simp [hnul, readLine_lf, ih hshort.2]

end Short

/-! ## The width of an aligned line -/

section Aligned
variable {opt : Opt} {wd : WorkData} {line : Line} {trailer : Text}

theorem length_stripEnd_le_append (a b : Text) :
    (stripEnd a).length ≤ (stripEnd (a ++ b)).length := by
  by_cases hb : stripEnd b = []
  · rw [stripEnd_append_space (stripEnd_eq_nil.mp hb)]
  · rw [stripEnd_append_of_ne_nil hb, List.length_append]
    exact (length_stripEnd_le a).trans (Nat.le_add_right _ _)

theorem length_expand_cut_le {tabstop : ℕ} {org : Text} (hpos : 0 < tabstop)
    (hlen : trailer.length ≤ org.length) : (expand tabstop 0 (cut trailer org)).length ≤
      (cut trailer (expand tabstop 0 org)).length := by
  have hparts : expand tabstop 0 (org.take (org.length - trailer.length) ++
      org.drop (org.length - trailer.length)) = _ := expand_append _ _
  rw [List.take_append_drop] at hparts
  generalize hlast : expand tabstop _ (org.drop (org.length - trailer.length)) = E at hparts
  have hle : trailer.length ≤ E.length := by
    rw [← hlast]
    refine Nat.le_trans ?_ (length_le_expand hpos)
    rw [List.length_drop]
    omega
  rw [cut, cut, expand_stripEnd, hparts, List.length_append, Nat.add_sub_assoc hle,
    List.take_length_add_append]
  exact length_stripEnd_le_append _ _

theorem length_expand_keptText_le (hread : Read opt line) (h : aligns opt trailer line = true)
    (hshort : line.orgtext.length < LINE_MAX) :
    (expand opt.tabstop 0 (keptText trailer line)).length ≤ (cut trailer line.text).length := by
  have hactive := (aligns_iff.mp h).1.1
  unfold keptText
  split
  · rw [expand_eq_self fun hmem => tab_notMem_text hread hactive (mem_of_mem_cut hmem)]
  next hlen =>
    rw [hread.expanded hactive, expandTabsInto_eq opt.tabstop_pos hshort]
    exact length_expand_cut_le opt.tabstop_pos (Nat.le_of_not_le hlen)

theorem cut_le_maxalign (hmax : 0 < opt.maxalign) (h : aligns opt trailer line = true) :
    (cut trailer line.text).length + trailer.length + opt.padding ≤ opt.maxalign :=
  Nat.le_of_not_lt fun hlt => (aligns_iff.mp h).2 ⟨hmax, hlt⟩

theorem newlen_le_maxalign (hmax : 0 < opt.maxalign) (hmem : line ∈ wd.lines)
    (h : aligns opt wd.usedTrail.text line = true) :
    newlen opt (doStuffToLines opt wd) ≤ opt.maxalign := by
  unfold newlen
  split
  next hcolumn => exact hcolumn.2.resolve_left hmax.ne'
  next =>
    obtain ⟨-, q, -, hq, hlongest⟩ := longestLineLen_spec hmem h
    rw [← hlongest]
    exact cut_le_maxalign hmax hq

theorem length_expand_outputOf_le (hmax : 0 < opt.maxalign) (hfill : opt.fillchar ≠ '\t')
    (hread : Read opt line) (hshort : line.orgtext.length < LINE_MAX) (hmem : line ∈ wd.lines)
    (hinput : wd.outputInput = false) (h : aligns opt wd.usedTrail.text line = true) :
    (expand opt.tabstop 0 (outputOf opt wd line)).length ≤ opt.maxalign := by
  have hkept := length_expand_keptText_le hread h hshort
  have hcut := cut_le_maxalign hmax h
  have hnewlen := newlen_le_maxalign hmax hmem h
  have hnofill : ∀ n, '\t' ∉ List.replicate n opt.fillchar := fun n hmem =>
    hfill (List.eq_of_mem_replicate hmem).symm
  have hfillsize : fillsize opt (doStuffToLines opt wd)
      (doStuffToLine opt wd.usedTrail.text line) = newlen opt (doStuffToLines opt wd) -
        (cut wd.usedTrail.text line.text).length - wd.usedTrail.text.length := by
    rw [fillsize, (doStuffToLine_of_aligns h).1]
    rfl
  rw [outputOf_of_aligned hinput h, expand_append, expand_append, List.length_append,
    List.length_append, expand_eq_self (hnofill _),
    expand_eq_self (tab_notMem_trailer hread h), List.length_replicate, hfillsize]
  omega

end Aligned

/-! ## The result -/

variable {opt : Opt} {l : Text} {wd : WorkData}

theorem withinMaxalign_iff (hmax : 0 < opt.maxalign) (hfill : opt.fillchar ≠ '\t') (hlf : '\n' ∉ l)
    (hshort : l.length < LINE_MAX) (hmem : readLine opt l ∈ wd.lines) :
    WithinMaxalign opt wd l (outputOf opt wd (readLine opt l)) ↔ (NUL ∈ l → Aligned opt wd l) := by
  by_cases haligned : Aligned opt wd l
  · have hread : Read opt (readLine opt l) :=
      read_readLine hshort.le fun hmem => hlf (List.dropLast_subset l hmem)
    have horg : (readLine opt l).orgtext.length < LINE_MAX := by
      rw [orgtext_readLine]
      exact ((length_stripEnd_le _).trans (List.takeWhile_prefix _).length_le).trans_lt hshort
    have hwidth := length_expand_outputOf_le hmax hfill hread horg hmem haligned.1 haligned.2
    exact ⟨fun _ _ => haligned, fun _ => ⟨fun _ => hwidth, fun hnot => absurd haligned hnot⟩⟩
  · have hout : outputOf opt wd (readLine opt l) = stripEnd (cstring l) := by
      rw [outputOf_of_not_aligned, orgtext_readLine]
      rcases Classical.not_and_iff_not_or_not.mp haligned with hinput | hno
      · exact Or.inl (by simpa using hinput)
      · exact Or.inr (by simpa using hno)
    have hsame : outputOf opt wd (readLine opt l) = l.rdropWhile isBlank ↔ NUL ∉ l := by
      rw [hout, ← stripEnd_eq hlf, stripEnd_cstring_eq_iff rfl]
    constructor
    · intro h hnul
      exact absurd hnul (hsame.mp (h.unchanged haligned))
    · intro h
      have hkept := hsame.mpr fun hnul => haligned (h hnul)
      refine ⟨fun hchanged => ?_, fun _ => hkept⟩
      exact absurd hkept (hchanged.resolve_left haligned)

theorem not_aligned_of_nul_head (hnul : l.head? = some NUL) : ¬ Aligned opt wd l := by
  rintro ⟨-, haligns⟩
  have hne : l ≠ [] := by
    rintro rfl
    cases hnul
  have hactive := (aligns_iff.mp haligns).1.1
  rw [readLine, (cstring_eq_nil_iff hne).mpr hnul] at hactive
  cases hactive

/-- For input with short lines, no fill with tabs and a limit, every line that is changed
stays within the limit and every other one is unchanged, if and only if all lines with a zero
byte are aligned. -/
theorem within_maxalign_iff (opt : Opt) (input : Text) (hmax : 0 < opt.maxalign)
    (hfill : opt.fillchar ≠ '\t') (hshort : ∀ line ∈ inputLines input, line.length < LINE_MAX) :
    List.Forall₂ (WithinMaxalign opt (workData opt input)) (inputLines input) (tal opt input) ↔
      ∀ line ∈ inputLines input, NUL ∈ line → Aligned opt (workData opt input) line := by
  have hread := readAllInput_lines_takeWhile opt hshort
  by_cases hstops : ∃ line ∈ inputLines input, line.head? = some NUL
  · obtain ⟨line, hline, hhead⟩ := hstops
    constructor
    · intro hall
      have hlength := hall.length_eq
      rw [tal_eq, hread, List.length_map, List.length_map] at hlength
      have hwhole := (List.takeWhile_prefix _).eq_of_length hlength.symm
      rw [← hwhole] at hline
      exact absurd hhead (by simpa using List.mem_takeWhile_imp hline)
    · intro hall
      exact absurd (hall line hline (List.mem_of_mem_head? hhead)) (not_aligned_of_nul_head hhead)
  · have hwhole : (inputLines input).takeWhile (·.head? ≠ some NUL) = inputLines input := by
      apply List.takeWhile_eq_self_iff.mpr
      intro line hline
      simpa using fun hhead => hstops ⟨line, hline, hhead⟩
    rw [hwhole] at hread
    have hlines : (workData opt input).lines = (inputLines input).map (readLine opt) :=
      (withTrailer_lines opt _).trans hread
    rw [tal_eq, hread, List.map_map, List.forall₂_map_right_iff, List.forall₂_same]
    apply forall₂_congr
    intro line hline
    apply withinMaxalign_iff hmax hfill (lf_notMem_linesFrom List.not_mem_nil line hline)
      (hshort line hline)
    rw [hlines]
    exact List.mem_map_of_mem hline

/-- With the options `-m 8 -k 6`, the first two lines are aligned and the third is too long. -/
theorem within_maxalign_iff_column : List.Forall₂
    (WithinMaxalign { Opt.default with maxalign := 8, column := 6, column_le := by decide }
      (workData { Opt.default with maxalign := 8, column := 6, column_le := by decide }
        "ab;\nc  ;\nabcdefgh;".toList))
    (inputLines "ab;\nc  ;\nabcdefgh;".toList)
    (tal { Opt.default with maxalign := 8, column := 6, column_le := by decide }
      "ab;\nc  ;\nabcdefgh;".toList) :=
  (within_maxalign_iff { Opt.default with maxalign := 8, column := 6, column_le := by decide }
    "ab;\nc  ;\nabcdefgh;".toList (by decide) (by decide) (by decide)).mpr (by decide)

/-- What stands behind the zero byte is not printed, although the line is not aligned. -/
theorem zero_byte_not_unchanged :
    ¬ List.Forall₂ (WithinMaxalign { Opt.default with maxalign := 8 }
        (workData { Opt.default with maxalign := 8 } ['a', NUL, 'b', '\n']))
      (inputLines ['a', NUL, 'b', '\n'])
      (tal { Opt.default with maxalign := 8 } ['a', NUL, 'b', '\n']) := by
  have hlines : inputLines ['a', NUL, 'b', '\n'] = [['a', NUL, 'b']] := by decide
  have hout : tal { Opt.default with maxalign := 8 } ['a', NUL, 'b', '\n'] = [['a']] := by decide
  rw [hlines, hout]
  rintro ⟨⟩
  rename_i hfirst _
  exact absurd (hfirst.unchanged (by decide)) (by decide)

end MiscProjects.Tal
