import MiscProjects.Tal.Width

/-!
# One line in, one line out

`fgets` is called with room for `LINE_MAX` characters, the line feed included.  A line that
is longer is read in several turns, and each of them makes an entry of its own.  Reading
stops at a turn that starts with a zero byte.
-/

namespace MiscProjects.Tal

/-! ## Statement -/

/-- The contents of the input buffer that become entries. -/
def readBuffers (input : Text) : List Text :=
  (fgets LINE_MAX [] input).takeWhile (cstring · ≠ [])

/-- What is written to the output file. -/
def printed (opt : Opt) (input : Text) : Text := (tal opt input).flatMap (· ++ ['\n'])

/-- The program makes one entry for each line and prints one line for each entry. -/
structure OneLineEach (opt : Opt) (input : Text) : Prop where
  entries : (readAllInput opt input).lines.map Line.orgtext =
    (inputLines input).map fun l => stripEnd (l.take LINE_MAX)
  /-- What lies beyond the limit is not read as a line: the next turn starts a new one. -/
  starts : ∀ b ∈ (readBuffers input).dropLast, b.getLast? = some '\n'
  prints : (printed opt input).count '\n' = (inputLines input).length

/-- The last line is read in one turn, or the next turn starts with a zero byte. -/
def LastFits (input l : Text) : Prop :=
  NUL ∉ l.take LINE_MAX ∧
    (l.length < LINE_MAX ∨ l.length = LINE_MAX ∧ input.getLast? ≠ some '\n' ∨
      l[LINE_MAX]? = some NUL)

/-- The other lines are read in one turn. -/
def Fits (input : Text) : Prop :=
  (∀ line ∈ (inputLines input).dropLast, NUL ∉ line ∧ line.length < LINE_MAX) ∧
    ∀ line ∈ (inputLines input).getLast?, LastFits input line

/-- No line feed is printed as fill. -/
def FillsWithinLine (opt : Opt) (wd : WorkData) : Prop :=
  opt.fillchar = '\n' → wd.outputInput = false → ∀ line ∈ wd.lines,
    aligns opt wd.usedTrail.text line = true →
      fillsize opt (doStuffToLines opt wd) (doStuffToLine opt wd.usedTrail.text line) = 0

/-! ## Lines and turns -/

section Turns
variable {l s b line input : Text} {room : ℕ}

theorem line_induction {motive : Text → Prop} (nil : motive [])
    (last : ∀ l, l ≠ [] → '\n' ∉ l → motive l)
    (line : ∀ l s, '\n' ∉ l → motive s → motive (l ++ '\n' :: s)) (input : Text) :
    motive input := by
  have hall : ∀ l, '\n' ∉ l → motive (l ++ input) := by
    induction input with
    | nil =>
        intro l hl
        rw [List.append_nil]
        by_cases hne : l = []
        · rw [hne]
          exact nil
        · exact last l hne hl
    | cons c s ih =>
        intro l hl
        by_cases hc : c = '\n'
        · rw [hc]
          exact line l s hl (ih [] List.not_mem_nil)
        · rw [List.append_cons]
          apply ih
          intro hmem
          rcases List.mem_append.mp hmem with hmem | hmem
          · exact hl hmem
          · exact hc (List.mem_singleton.mp hmem).symm
  exact hall [] List.not_mem_nil

theorem linesFrom_line (hl : '\n' ∉ l) :
    linesFrom line (l ++ '\n' :: s) = (line ++ l) :: linesFrom [] s := by
  induction l generalizing line with
  | nil => rw [List.nil_append, linesFrom_cons, if_pos rfl, List.append_nil]
  | cons c l ih =>
      rw [List.mem_cons, not_or] at hl
      rw [List.cons_append, linesFrom_cons, if_neg fun hc => hl.1 hc.symm, ih hl.2,
        List.append_assoc, List.singleton_append]

theorem linesFrom_last (hl : '\n' ∉ l) :
    linesFrom line l = if line ++ l = [] then [] else [line ++ l] := by
  induction l generalizing line with
  | nil => rw [linesFrom_nil, List.append_nil]
  | cons c l ih =>
      rw [List.mem_cons, not_or] at hl
      rw [linesFrom_cons, if_neg fun hc => hl.1 hc.symm, ih hl.2, List.append_assoc,
        List.singleton_append]

theorem inputLines_line (hl : '\n' ∉ l) : inputLines (l ++ '\n' :: s) = l :: inputLines s :=
  linesFrom_line hl

theorem inputLines_last (hl : '\n' ∉ l) (hne : l ≠ []) : inputLines l = [l] := by
  rw [inputLines, linesFrom_last hl, List.nil_append, if_neg hne]

theorem inputLines_ne_nil (hne : input ≠ []) : inputLines input ≠ [] := by
  induction input using line_induction with
  | nil => exact absurd rfl hne
  | last l hl hlf =>
      rw [inputLines_last hlf hl]
      exact List.cons_ne_nil l []
  | line l s hlf _ =>
      rw [inputLines_line hlf]
      exact List.cons_ne_nil l _

theorem fgets_line (line s : Text) (hl : '\n' ∉ l) (hroom : l.length < room) :
    fgets room line (l ++ '\n' :: s) = (line ++ l ++ ['\n']) :: fgets LINE_MAX [] s := by
  induction l generalizing line room with
  | nil => rw [List.nil_append, fgets_cons, if_pos (by simp), List.append_nil]
  | cons c l ih =>
      rw [List.mem_cons, not_or] at hl
      rw [List.length_cons] at hroom
      have hc : ¬ (c = '\n' || decide (room ≤ 1)) = true := by
        simp only [Bool.or_eq_true, decide_eq_true_eq, not_or]
        exact ⟨fun hc => hl.1 hc.symm, by omega⟩
      rw [List.cons_append, fgets_cons, if_neg hc, ih _ hl.2 (by omega), List.append_assoc line,
        List.singleton_append]

theorem fgets_full (line s : Text) (hl : '\n' ∉ l) (hroom : l.length = room) (hne : l ≠ []) :
    fgets room line (l ++ s) = (line ++ l) :: fgets LINE_MAX [] s := by
  induction l generalizing line room with
  | nil => exact absurd rfl hne
  | cons c l ih =>
      rw [List.mem_cons, not_or] at hl
      rw [List.length_cons] at hroom
      rw [List.cons_append, fgets_cons]
      by_cases hnil : l = []
      · rw [hnil, if_pos (by simp [← hroom, hnil]), List.nil_append]
      · have hpos : 0 < l.length := List.length_pos_iff.mpr hnil
        have hc : ¬ (c = '\n' || decide (room ≤ 1)) = true := by
          simp only [Bool.or_eq_true, decide_eq_true_eq, not_or]
          exact ⟨fun hc => hl.1 hc.symm, by omega⟩
        rw [if_neg hc, ih _ hl.2 (by omega) hnil, List.append_assoc, List.singleton_append]

theorem fgets_last (line : Text) (hl : '\n' ∉ l) (hroom : l.length < room) :
    fgets room line l = if line ++ l = [] then [] else [line ++ l] := by
  induction l generalizing line room with
  | nil => rw [fgets_nil, List.append_nil]
  | cons c l ih =>
      rw [List.mem_cons, not_or] at hl
      rw [List.length_cons] at hroom
      have hc : ¬ (c = '\n' || decide (room ≤ 1)) = true := by
        simp only [Bool.or_eq_true, decide_eq_true_eq, not_or]
        exact ⟨fun hc => hl.1 hc.symm, by omega⟩
      rw [fgets_cons, if_neg hc, ih _ hl.2 (by omega), List.append_assoc, List.singleton_append]

end Turns

/-! ## Zero bytes -/

section Zero
variable {a b l : Text}

theorem cstring_eq_nil_iff (hne : b ≠ []) : cstring b = [] ↔ b.head? = some NUL := by
  obtain ⟨c, b, rfl⟩ := List.exists_cons_of_ne_nil hne
  rw [cstring, List.head?_cons, Option.some.injEq, List.takeWhile_cons]
  by_cases hc : c = NUL
  · simp [hc]
  · simp [hc]

theorem cstring_of_nul_notMem (hnul : NUL ∉ b) : cstring b = b := by
  apply List.takeWhile_eq_self_iff.mpr
  intro c hc
  simpa using ne_of_mem_of_not_mem hc hnul

theorem nul_mem_stripEnd (hnul : NUL ∈ b) : NUL ∈ stripEnd b := by
  have hparts : NUL ∈ b.rdropWhile isSpace ++ b.rtakeWhile isSpace := by
    rwa [List.rdropWhile_append_rtakeWhile]
  rcases List.mem_append.mp hparts with hkept | hcut
  · exact hkept
  · exact absurd (List.mem_rtakeWhile_imp hcut) (by decide)

theorem stripEnd_cstring_eq_iff (hsame : stripEnd b = stripEnd a) :
    stripEnd (cstring b) = stripEnd a ↔ NUL ∉ b := by
  constructor
  · intro h hnul
    have hmem := nul_mem_stripEnd hnul
    rw [hsame, ← h] at hmem
    exact absurd (List.mem_takeWhile_imp (mem_of_mem_stripEnd hmem)) (by simp)
  · intro hnul
    rw [cstring_of_nul_notMem hnul, hsame]

theorem stripEnd_lf (l : Text) : stripEnd (l ++ ['\n']) = stripEnd l := by
  apply stripEnd_append_space
  intro c hc
  rw [List.mem_singleton.mp hc]
  rfl

end Zero

/-! ## One turn -/

/-- There is one entry for each line, made of the contents of the input buffer. -/
structure OneEntryEach (input : Text) : Prop where
  entries : ((readBuffers input).map fun b => stripEnd (cstring b)) =
    (inputLines input).map fun l => stripEnd (l.take LINE_MAX)
  starts : ∀ b ∈ (readBuffers input).dropLast, b.getLast? = some '\n'

section Turn
variable {l s b r input : Text}

theorem readBuffers_of_turn (hne : b ≠ []) (hturn : fgets LINE_MAX [] input =
    b :: fgets LINE_MAX [] r) :
    readBuffers input = if b.head? = some NUL then [] else b :: readBuffers r := by
  rw [readBuffers, hturn, List.takeWhile_cons]
  by_cases hnul : b.head? = some NUL
  · simp [(cstring_eq_nil_iff hne).mpr hnul, hnul]
  · simp [(cstring_eq_nil_iff hne).not.mpr hnul, hnul, readBuffers]

theorem exists_turn (room : ℕ) (hne : l ++ input ≠ []) :
    ∃ b r, b ≠ [] ∧ b.head? = (l ++ input).head? ∧
      fgets room l input = b :: fgets LINE_MAX [] r := by
  induction input generalizing l room with
  | nil =>
      rw [List.append_nil] at hne ⊢
      exact ⟨l, [], hne, rfl, by rw [fgets_nil, fgets_nil, if_neg hne, if_pos rfl]⟩
  | cons c s ih =>
      rw [fgets_cons]
      split
      · exact ⟨l ++ [c], s, List.concat_ne_nil c l, by simp, rfl⟩
      · rw [List.append_cons] at hne ⊢
        exact ih (room - 1) hne

theorem readBuffers_eq_nil_iff : readBuffers input = [] ↔ input = [] ∨ input.head? = some NUL := by
  by_cases hne : input = []
  · rw [hne]
    simp [readBuffers, fgets_nil]
  · obtain ⟨b, r, hb, hhead, hturn⟩ := exists_turn (l := []) LINE_MAX hne
    rw [readBuffers_of_turn hb hturn, hhead, List.nil_append, or_iff_right hne]
    by_cases hnul : input.head? = some NUL
    · simp [hnul]
    · simp [hnul]

theorem oneEntryEach_single (hne : b ≠ [])
    (hturn : fgets LINE_MAX [] input = b :: fgets LINE_MAX [] r)
    (hlines : inputLines input = [l]) (hsame : stripEnd b = stripEnd (l.take LINE_MAX)) :
    OneEntryEach input ↔ NUL ∉ b ∧ (r = [] ∨ r.head? = some NUL) := by
  rw [← readBuffers_eq_nil_iff, ← stripEnd_cstring_eq_iff hsame]
  have hread := readBuffers_of_turn hne hturn
  constructor
  · intro h
    have hentries := h.entries
    rw [hlines, hread] at hentries
    split at hentries
    · simp at hentries
    · rw [List.map_cons, List.map_cons, List.map_nil, List.cons.injEq, List.map_eq_nil_iff]
        at hentries
      exact hentries
  · rintro ⟨hentry, hrest⟩
    have hhead : ¬ b.head? = some NUL := fun hhead =>
      (stripEnd_cstring_eq_iff hsame).mp hentry (List.mem_of_mem_head? hhead)
    rw [if_neg hhead, hrest] at hread
    constructor
    · rw [hread, hlines, List.map_cons, List.map_cons, hentry]
      rfl
    · rw [hread]
      exact fun b hb => nomatch hb

theorem oneEntryEach_cons (hne : b ≠ [])
    (hturn : fgets LINE_MAX [] input = b :: fgets LINE_MAX [] r)
    (hlines : inputLines input = l :: inputLines s) (hs : s ≠ [])
    (hsame : stripEnd b = stripEnd (l.take LINE_MAX)) :
    OneEntryEach input ↔ NUL ∉ b ∧ b.getLast? = some '\n' ∧
      ((readBuffers r).map fun b => stripEnd (cstring b)) =
        ((inputLines s).map fun l => stripEnd (l.take LINE_MAX)) ∧
      ∀ b ∈ (readBuffers r).dropLast, b.getLast? = some '\n' := by
  rw [← stripEnd_cstring_eq_iff hsame]
  have hread := readBuffers_of_turn hne hturn
  constructor
  · rintro ⟨hentries, hstarts⟩
    rw [hread] at hentries hstarts
    rw [hlines] at hentries
    split at hentries
    · simp at hentries
    next hhead =>
      rw [List.map_cons, List.map_cons, List.cons.injEq] at hentries
      have hrest : readBuffers r ≠ [] := by
        intro hnil
        rw [hnil] at hentries
        exact inputLines_ne_nil hs (List.map_eq_nil_iff.mp hentries.2.symm)
      rw [if_neg hhead, List.dropLast_cons_of_ne_nil hrest, List.forall_mem_cons] at hstarts
      exact ⟨hentries.1, hstarts.1, hentries.2, hstarts.2⟩
  · rintro ⟨hentry, hlast, hrest, hstarts⟩
    have hhead : ¬ b.head? = some NUL := fun hhead =>
      (stripEnd_cstring_eq_iff hsame).mp hentry (List.mem_of_mem_head? hhead)
    rw [if_neg hhead] at hread
    constructor
    · rw [hread, hlines, List.map_cons, List.map_cons, hentry, hrest]
    · intro c hc
      rw [hread] at hc
      by_cases hnil : readBuffers r = []
      · rw [hnil] at hc
        cases hc
      · rw [List.dropLast_cons_of_ne_nil hnil, List.mem_cons] at hc
        rcases hc with rfl | hc
        · exact hlast
        · exact hstarts c hc

end Turn

/-! ## All turns -/

section All
variable {l s input : Text}

theorem turn_of_long (hl : '\n' ∉ l) (hlong : LINE_MAX ≤ l.length) :
    l.take LINE_MAX ≠ [] ∧ fgets LINE_MAX [] (l ++ s) =
      l.take LINE_MAX :: fgets LINE_MAX [] (l.drop LINE_MAX ++ s) := by
  have hlen : (l.take LINE_MAX).length = LINE_MAX := List.length_take_of_le hlong
  have hne : l.take LINE_MAX ≠ [] := by
    apply List.ne_nil_of_length_pos
    rw [hlen]
    decide
  have hturn := fgets_full [] (l.drop LINE_MAX ++ s)
    (fun hmem => hl (List.mem_of_mem_take hmem)) hlen hne
  rw [← List.append_assoc, List.take_append_drop, List.nil_append] at hturn
  exact ⟨hne, hturn⟩

theorem oneEntryEach_last (hne : l ≠ []) (hl : '\n' ∉ l) : OneEntryEach l ↔ LastFits l l := by
  have hlines := inputLines_last hl hne
  have hlast : l.getLast? ≠ some '\n' := fun h => hl (List.mem_of_getLast? h)
  unfold LastFits
  by_cases hshort : l.length < LINE_MAX
  · have hturn : fgets LINE_MAX [] l = l :: fgets LINE_MAX [] [] := by
      rw [fgets_last [] hl hshort, fgets_nil, List.nil_append, if_neg hne, if_pos rfl]
    rw [oneEntryEach_single hne hturn hlines (by rw [List.take_of_length_le hshort.le]),
      List.take_of_length_le hshort.le]
    simp [hshort]
  · obtain ⟨hb, hturn⟩ := turn_of_long (s := []) hl (Nat.le_of_not_lt hshort)
    rw [List.append_nil, List.append_nil] at hturn
    rw [oneEntryEach_single hb hturn hlines rfl, List.head?_drop, List.drop_eq_nil_iff,
      or_iff_right hshort]
    have hfull : l.length ≤ LINE_MAX ↔ l.length = LINE_MAX ∧ l.getLast? ≠ some '\n' :=
      ⟨fun hle => ⟨by omega, hlast⟩, fun h => h.1.le⟩
    rw [hfull]

theorem oneEntryEach_line (hl : '\n' ∉ l) :
    OneEntryEach (l ++ ['\n']) ↔ LastFits (l ++ ['\n']) l := by
  have hlines : inputLines (l ++ ['\n']) = [l] := inputLines_line hl
  unfold LastFits
  rw [List.getLast?_concat]
  by_cases hshort : l.length < LINE_MAX
  · have hturn := fgets_line [] [] hl hshort
    rw [oneEntryEach_single (List.concat_ne_nil _ _) hturn hlines (by
      rw [List.nil_append, stripEnd_lf, List.take_of_length_le hshort.le]),
      List.take_of_length_le hshort.le]
    simp [hshort, show NUL ≠ '\n' by decide]
  · obtain ⟨hb, hturn⟩ := turn_of_long (s := ['\n']) hl (Nat.le_of_not_lt hshort)
    rw [oneEntryEach_single hb hturn hlines rfl, List.head?_append, List.head?_drop,
      or_iff_right hshort]
    have hnul : ¬ some '\n' = some NUL := by decide
    cases l[LINE_MAX]? with
    | none => simp [hnul]
    | some c => simp

theorem oneEntryEach_lines (hl : '\n' ∉ l) (hs : s ≠ []) :
    OneEntryEach (l ++ '\n' :: s) ↔ (NUL ∉ l ∧ l.length < LINE_MAX) ∧ OneEntryEach s := by
  have hlines : inputLines (l ++ '\n' :: s) = l :: inputLines s := inputLines_line hl
  by_cases hshort : l.length < LINE_MAX
  · have hturn := fgets_line [] s hl hshort
    rw [oneEntryEach_cons (List.concat_ne_nil _ _) hturn hlines hs (by
      rw [List.nil_append, stripEnd_lf, List.take_of_length_le hshort.le])]
    constructor
    · rintro ⟨hnul, -, hentries, hstarts⟩
      exact ⟨⟨fun hmem => hnul (List.mem_append_left _ hmem), hshort⟩, hentries, hstarts⟩
    · rintro ⟨⟨hnul, -⟩, hentries, hstarts⟩
      refine ⟨?_, List.getLast?_concat, hentries, hstarts⟩
      rw [List.nil_append, List.mem_append, not_or]
      exact ⟨hnul, by decide⟩
  · obtain ⟨hb, hturn⟩ := turn_of_long (s := '\n' :: s) hl (Nat.le_of_not_lt hshort)
    rw [oneEntryEach_cons hb hturn hlines hs rfl]
    constructor
    · rintro ⟨-, hlast, -⟩
      exact absurd (List.mem_of_mem_take (List.mem_of_getLast? hlast)) hl
    · rintro ⟨⟨-, hlt⟩, -⟩
      exact absurd hlt hshort

theorem oneEntryEach_iff (input : Text) : OneEntryEach input ↔ Fits input := by
  induction input using line_induction with
  | nil =>
      have hread : readBuffers [] = [] := by simp [readBuffers, fgets_nil]
      have hlines : inputLines [] = [] := rfl
      constructor
      · intro _
        simp [Fits, hlines]
      · intro _
        constructor
        · simp [hread, hlines]
        · simp [hread]
  | last l hne hl =>
      rw [oneEntryEach_last hne hl, Fits, inputLines_last hl hne]
      simp
  | line l s hl ih =>
      have hlines : inputLines (l ++ '\n' :: s) = l :: inputLines s := inputLines_line hl
      by_cases hs : s = []
      · rw [hs, oneEntryEach_line hl, Fits, inputLines_line hl]
        simp [inputLines, linesFrom_nil]
      · have hne := inputLines_ne_nil hs
        rw [oneEntryEach_lines hl hs, ih, Fits, Fits, hlines, List.dropLast_cons_of_ne_nil hne,
          List.forall_mem_cons, List.getLast?_cons_of_ne_nil hne]
        have hlast : (l ++ '\n' :: s).getLast? = s.getLast? := by
          rw [List.getLast?_append_of_ne_nil _ (List.cons_ne_nil _ _),
            List.getLast?_cons_of_ne_nil hs]
        simp only [LastFits, hlast, and_assoc]

end All

/-! ## Printing -/

section Printing
variable {opt : Opt} {wd : WorkData} {line : Line}

theorem lf_notMem_text (hread : Read opt line) (hactive : line.active = true) :
    '\n' ∉ line.text := by
  rw [hread.expanded hactive]
  intro hmem
  rcases mem_expandFrom hmem with hblank | hmem
  · exact absurd hblank (by decide)
  · exact hread.lf hmem

theorem lf_notMem_keptText {trailer : Text} (hread : Read opt line)
    (hactive : line.active = true) : '\n' ∉ keptText trailer line := by
  unfold keptText
  split
  · exact fun hmem => lf_notMem_text hread hactive (mem_of_mem_cut hmem)
  · exact fun hmem => hread.lf (mem_of_mem_cut hmem)

theorem lf_notMem_outputOf_iff (hread : Read opt line) : '\n' ∉ outputOf opt wd line ↔
    (opt.fillchar = '\n' → wd.outputInput = false → aligns opt wd.usedTrail.text line = true →
      fillsize opt (doStuffToLines opt wd) (doStuffToLine opt wd.usedTrail.text line) = 0) := by
  by_cases haligned : wd.outputInput = false ∧ aligns opt wd.usedTrail.text line = true
  · have hactive := (aligns_iff.mp haligned.2).1.1
    have hused := notMem_trailer haligned.2 (by decide) (lf_notMem_text hread hactive)
    rw [outputOf_of_aligned haligned.1 haligned.2, List.mem_append, List.mem_append,
      List.mem_replicate, not_or, not_or]
    constructor
    · rintro ⟨⟨-, hfill⟩, -⟩ hlf _ _
      by_contra hne
      exact hfill ⟨hne, hlf.symm⟩
    · intro hzero
      refine ⟨⟨lf_notMem_keptText hread hactive, ?_⟩, hused⟩
      rintro ⟨hne, hlf⟩
      exact hne (hzero hlf.symm haligned.1 haligned.2)
  · rw [outputOf_of_not_aligned]
    · exact ⟨fun _ _ hinput haligns => absurd ⟨hinput, haligns⟩ haligned, fun _ => hread.lf⟩
    · rcases Classical.not_and_iff_not_or_not.mp haligned with hinput | hno
      · exact Or.inl (by simpa using hinput)
      · exact Or.inr (by simpa using hno)

theorem count_lf_flatMap (lines : List Text) : (lines.flatMap (· ++ ['\n'])).count '\n' =
    lines.length + lines.flatten.count '\n' := by
  induction lines with
  | nil => rfl
  | cons l lines ih =>
      rw [List.flatMap_cons, List.count_append, List.count_append, ih, List.flatten_cons,
        List.count_append, List.length_cons, List.count_singleton_self]
      omega

theorem count_printed_iff (opt : Opt) (input : Text) :
    (printed opt input).count '\n' = (readBuffers input).length ↔
      FillsWithinLine opt (workData opt input) := by
  have hlines : (workData opt input).lines = (readAllInput opt input).lines :=
    withTrailer_lines opt _
  have hlength : (tal opt input).length = (readBuffers input).length := by
    rw [tal_eq, List.length_map, readAllInput, List.length_map, readBuffers]
  rw [printed, count_lf_flatMap, hlength, Nat.add_eq_left, List.count_eq_zero, List.mem_flatten]
  have hall : (¬ ∃ out ∈ tal opt input, '\n' ∈ out) ↔
      ∀ line ∈ (workData opt input).lines, '\n' ∉ outputOf opt (workData opt input) line := by
    rw [tal_eq, hlines]
    simp
  rw [hall]
  constructor
  · intro h hlf hinput line hmem
    exact (lf_notMem_outputOf_iff (read_of_mem hmem)).mp (h line hmem) hlf hinput
  · intro h line hmem
    exact (lf_notMem_outputOf_iff (read_of_mem hmem)).mpr fun hlf hinput => h hlf hinput line hmem

end Printing

/-! ## The result -/

theorem orgtext_readAllInput (opt : Opt) (input : Text) :
    (readAllInput opt input).lines.map Line.orgtext =
      (readBuffers input).map fun b => stripEnd (cstring b) := by
  rw [readAllInput, List.map_map, ← readBuffers]
  apply List.map_congr_left
  intro b _
  exact orgtext_readLine opt b

/-- There is one entry and one printed line for each line of the input if and only if the
lines fit and the fill has no line feed. -/
theorem one_line_each_iff (opt : Opt) (input : Text) :
    OneLineEach opt input ↔ Fits input ∧ FillsWithinLine opt (workData opt input) := by
  have hlength : OneEntryEach input → (readBuffers input).length = (inputLines input).length := by
    intro h
    have hlength := congrArg List.length h.entries
    rwa [List.length_map, List.length_map] at hlength
  rw [← oneEntryEach_iff, ← count_printed_iff]
  constructor
  · rintro ⟨hentries, hstarts, hprints⟩
    have heach : OneEntryEach input := ⟨orgtext_readAllInput opt input ▸ hentries, hstarts⟩
    exact ⟨heach, hprints.trans (hlength heach).symm⟩
  · rintro ⟨heach, hprints⟩
    exact ⟨(orgtext_readAllInput opt input).trans heach.entries, heach.starts,
      hprints.trans (hlength heach)⟩

/-- The line feed of a line with `LINE_MAX` characters is read as a line. -/
theorem full_line_becomes_two :
    ¬ OneLineEach Opt.default (List.replicate LINE_MAX 'x' ++ ['\n']) := by
  rintro ⟨hentries, hstarts, -⟩
  rw [orgtext_readAllInput] at hentries
  have hlf : '\n' ∉ List.replicate LINE_MAX 'x' := fun hmem =>
    absurd (List.eq_of_mem_replicate hmem) (by decide)
  obtain ⟨-, hshort | ⟨-, hlast⟩ | hnul⟩ := (oneEntryEach_line hlf).mp ⟨hentries, hstarts⟩
  · rw [List.length_replicate] at hshort
    exact absurd hshort (Nat.lt_irrefl _)
  · exact hlast List.getLast?_concat
  · rw [List.getElem?_eq_none (by rw [List.length_replicate])] at hnul
    cases hnul

end MiscProjects.Tal
