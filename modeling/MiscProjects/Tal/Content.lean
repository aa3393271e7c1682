import Mathlib.Data.List.Forall2
import MiscProjects.Tal.Expansion

/-!
# When tal keeps the text

The trailer is found in the expanded line, and as many characters as it has are
cut off the line as it was read.  Where a tab was expanded inside the trailer
these are more than the trailer: characters before it go as well.  The theorem
says that nothing else happens to the text of the user, for input without zero
bytes.
-/

namespace MiscProjects.Tal

/-! ## Statement -/

/-- The lines of the input, `line` having been read of the first. -/
def linesFrom (line : Text) : Text → List Text
  | [] => if line = [] then [] else [line]
  | c :: input =>
      if c = '\n' then line :: linesFrom [] input else linesFrom (line ++ [c]) input

def inputLines (input : Text) : List Text := linesFrom [] input

/-- The work data with the trailer that is used. -/
def workData (opt : Opt) (input : Text) : WorkData := withTrailer opt (readAllInput opt input)

/-- The line is printed without its trailing blanks, or as `A`, a run of the
fill character and the trailer, where `A` and the trailer, up to its case, have
the content of the line. -/
def Preserved (opt : Opt) (trailer line out : Text) : Prop :=
  out = line.rdropWhile isBlank ∨
    ∃ A F U, out = A ++ F ++ trailer ∧ (∀ c ∈ F, c = opt.fillchar) ∧
      content line = content A ++ U ∧ sameText opt.igncase U (content trailer) = true

/-- The content of what is cut off the line besides the trailer. -/
def lost (trailer orgtext : Text) : Text :=
  let last := content (orgtext.drop (orgtext.length - trailer.length))
  last.take (last.length - (content trailer).length)

/-- Nothing is cut off the line besides the trailer, or what is cut off looks
like the fill that is put in. -/
def CutsTrailerOnly (opt : Opt) (wd : WorkData) (line : Line) : Prop :=
  line.orgtext.length ≤ wd.usedTrail.text.length ∨
    (lost wd.usedTrail.text line.orgtext).length ≤
        fillsize opt (doStuffToLines opt wd) (doStuffToLine opt wd.usedTrail.text line) ∧
      ∀ c ∈ lost wd.usedTrail.text line.orgtext, c = opt.fillchar

instance (opt : Opt) (wd : WorkData) (line : Line) : Decidable (CutsTrailerOnly opt wd line) :=
  @instDecidableOr _ _ inferInstance (@instDecidableAnd _ _ inferInstance (List.decidableBAll _ _))

/-- The input has no zero byte, and only trailers are cut off. -/
def KeepsText (opt : Opt) (input : Text) : Prop :=
  let wd := workData opt input
  NUL ∉ input ∧ (wd.outputInput = false → ∀ line ∈ wd.lines,
    aligns opt wd.usedTrail.text line = true → CutsTrailerOnly opt wd line)

instance (opt : Opt) (input : Text) : Decidable (KeepsText opt input) :=
  inferInstanceAs (Decidable (_ ∧ (_ → _)))

/-! ## Reading -/

section Reading
variable {line s : Text} {c : Char} {room : ℕ} {opt : Opt}

theorem linesFrom_nil : linesFrom line [] = if line = [] then [] else [line] := rfl

theorem linesFrom_cons : linesFrom line (c :: s) =
      if c = '\n' then line :: linesFrom [] s else linesFrom (line ++ [c]) s := rfl

theorem fgets_nil : fgets room line [] = if line = [] then [] else [line] := rfl

theorem fgets_cons : fgets room line (c :: s) =
      if c = '\n' || room ≤ 1 then (line ++ [c]) :: fgets LINE_MAX [] s
      else fgets (room - 1) (line ++ [c]) s := rfl

theorem lf_notMem_linesFrom (hline : '\n' ∉ line) : ∀ l ∈ linesFrom line s, '\n' ∉ l := by
  induction s generalizing line with
  | nil =>
      intro l hl
      rw [linesFrom_nil] at hl
      split at hl
      · simp at hl
      · rwa [List.mem_singleton.mp hl]
  | cons d s ih =>
      intro l hl
      rw [linesFrom_cons] at hl
      split at hl
      · rcases List.mem_cons.mp hl with hsame | hrest
        · rwa [hsame]
        · exact ih (by simp) l hrest
      next hd =>
        refine ih ?_ l hl
        simp [hline, Ne.symm hd]

theorem exists_mem_linesFrom (line : Text) (hc : c ≠ '\n') (hmem : c ∈ line ∨ c ∈ s) :
    ∃ l ∈ linesFrom line s, c ∈ l := by
  induction s generalizing line with
  | nil =>
      have hline : c ∈ line := hmem.resolve_right (by simp)
      have hne : line ≠ [] := List.ne_nil_of_mem hline
      exact ⟨line, by simp [linesFrom_nil, hne], hline⟩
  | cons d s ih =>
      rw [linesFrom_cons]
      split
      next hd =>
        rcases hmem with hline | hrest
        · exact ⟨line, List.mem_cons_self, hline⟩
        · have hs : c ∈ s := (List.mem_cons.mp hrest).resolve_left (hd ▸ hc)
          obtain ⟨l, hl, hcl⟩ := @ih [] (Or.inr hs)
          exact ⟨l, List.mem_cons_of_mem _ hl, hcl⟩
      next hd =>
        apply ih
        rcases hmem with hline | hrest
        · exact Or.inl (List.mem_append_left _ hline)
        · rcases List.mem_cons.mp hrest with hsame | hs
          · exact Or.inl (by simp [hsame])
          · exact Or.inr hs

theorem mem_of_mem_linesFrom {l : Text} (hl : l ∈ linesFrom line s) (hc : c ∈ l) :
    c ∈ line ∨ c ∈ s := by
  induction s generalizing line with
  | nil =>
      rw [linesFrom_nil] at hl
      split at hl
      · simp at hl
      · exact Or.inl (List.mem_singleton.mp hl ▸ hc)
  | cons d s ih =>
      rw [linesFrom_cons] at hl
      split at hl
      · rcases List.mem_cons.mp hl with hsame | hrest
        · exact Or.inl (hsame ▸ hc)
        · exact Or.inr (List.mem_cons_of_mem _ ((ih hrest).resolve_left (by simp)))
      · rcases ih hl with hline | hs
        · rcases List.mem_append.mp hline with hline | hd
          · exact Or.inl hline
          · exact Or.inr (by simp [List.mem_singleton.mp hd])
        · exact Or.inr (List.mem_cons_of_mem _ hs)

theorem exists_le_length_linesFrom (s : Text) (hline : line ≠ []) :
    ∃ l ∈ linesFrom line s, line.length ≤ l.length := by
  induction s generalizing line with
  | nil => exact ⟨line, by simp [linesFrom_nil, hline], Nat.le_refl _⟩
  | cons d s ih =>
      rw [linesFrom_cons]
      split
      · exact ⟨line, List.mem_cons_self, Nat.le_refl _⟩
      · obtain ⟨l, hl, hle⟩ := @ih (line ++ [d]) (by simp)
        rw [List.length_append, List.length_singleton] at hle
        exact ⟨l, hl, by omega⟩

theorem readLine_lf (line : Text) : readLine opt (line ++ ['\n']) = readLine opt line := by
  have hstrip : stripEnd (cstring (line ++ ['\n'])) = stripEnd (cstring line) := by
    by_cases hnul : NUL ∈ line
    · have hstop : cstring (line ++ ['\n']) = cstring line := by
        unfold cstring
        rw [List.takeWhile_append, if_neg]
        intro hlen
        have hall : line.takeWhile (· ≠ NUL) = line := (List.takeWhile_prefix _).eq_of_length hlen
        have hne := List.mem_takeWhile_imp (hall.symm ▸ hnul)
        simp at hne
      rw [hstop]
    · have hall (rest : Text) (hrest : NUL ∉ rest) : cstring (line ++ rest) = line ++ rest := by
        apply List.takeWhile_eq_self_iff.mpr
        intro c hc
        have hne : c ≠ NUL := by
          rintro rfl
          exact (List.mem_append.mp hc).elim hnul hrest
        simpa using hne
      have hline := hall [] (by simp)
      rw [List.append_nil] at hline
      rw [hall ['\n'] (by decide), hline, stripEnd, stripEnd]
      exact List.rdropWhile_concat_pos _ _ _ (by decide)
  simp only [readLine, hstrip]

theorem map_readLine_fgets (hroom : line.length + room = LINE_MAX)
    (hshort : ∀ l ∈ linesFrom line s, l.length < LINE_MAX) :
    (fgets room line s).map (readLine opt) = (linesFrom line s).map (readLine opt) := by
  induction s generalizing line room with
  | nil =>
      rw [fgets_nil, linesFrom_nil]
  | cons c s ih =>
      rw [linesFrom_cons] at hshort ⊢
      rw [fgets_cons]
      by_cases hc : c = '\n'
      · rw [if_pos hc] at hshort ⊢
        have hrest := @ih [] LINE_MAX (by simp) fun l hl => hshort l (List.mem_cons_of_mem _ hl)
        simp [hc, hrest, readLine_lf]
      · rw [if_neg hc] at hshort ⊢
        obtain ⟨l, hl, hle⟩ := exists_le_length_linesFrom s (List.concat_ne_nil c line)
        have hlt := hshort l hl
        rw [List.length_append, List.length_singleton] at hle
        rw [if_neg (by simp [hc]; omega)]
        exact ih (by rw [List.length_append, List.length_singleton]; omega) hshort

theorem mem_of_mem_fgets {buffer : Text} (hb : buffer ∈ fgets room line s) :
    buffer ≠ [] ∧ ∀ c ∈ buffer, c ∈ line ∨ c ∈ s := by
  induction s generalizing line room with
  | nil =>
      rw [fgets_nil] at hb
      split at hb
      · simp at hb
      next hne =>
        rw [List.mem_singleton.mp hb]
        exact ⟨hne, fun c hc => Or.inl hc⟩
  | cons d s ih =>
      rw [fgets_cons] at hb
      split at hb
      · rcases List.mem_cons.mp hb with hsame | hrest
        · rw [hsame]
          refine ⟨by simp, fun c hc => ?_⟩
          rcases List.mem_append.mp hc with hline | hd
          · exact Or.inl hline
          · exact Or.inr (by simp [List.mem_singleton.mp hd])
        · obtain ⟨hne, hmem⟩ := ih hrest
          exact ⟨hne, fun c hc => Or.inr <| List.mem_cons_of_mem _ <|
            (hmem c hc).resolve_left (by simp)⟩
      · obtain ⟨hne, hmem⟩ := ih hb
        refine ⟨hne, fun c hc => ?_⟩
        rcases hmem c hc with hline | hs
        · rcases List.mem_append.mp hline with hline | hd
          · exact Or.inl hline
          · exact Or.inr (by simp [List.mem_singleton.mp hd])
        · exact Or.inr (List.mem_cons_of_mem _ hs)

theorem readAllInput_lines (opt : Opt) {input : Text} (hnul : NUL ∉ input)
    (hshort : ∀ l ∈ inputLines input, l.length < LINE_MAX) :
    (readAllInput opt input).lines = (inputLines input).map (readLine opt) := by
  have hall : (fgets LINE_MAX [] input).takeWhile (cstring · ≠ []) = fgets LINE_MAX [] input := by
    apply List.takeWhile_eq_self_iff.mpr
    intro buffer hb
    obtain ⟨hne, hmem⟩ := mem_of_mem_fgets hb
    have hcstring : cstring buffer = buffer := by
      apply List.takeWhile_eq_self_iff.mpr
      intro c hc
      have hin : c ∈ input := (hmem c hc).resolve_left (by simp)
      simpa using ne_of_mem_of_not_mem hin hnul
    simpa [hcstring] using hne
  simp only [readAllInput, hall]
  exact map_readLine_fgets (by simp) hshort

end Reading

/-! ## No zero byte is printed -/

section Zero
variable {opt : Opt} {lines : List Line}

/-- The text is the end of an active line. -/
def EndsLine (lines : List Line) (s : Text) : Prop := ∃ p ∈ lines, p.active = true ∧ s <:+ p.text

variable {temple : List Trailer} {curTlen : ℕ} {line : Line} {wd : WorkData} {c : Char}

theorem endsLine_countCandidate {igncase : Bool} {candidate : Text}
    (hcandidate : EndsLine lines candidate) (htemple : ∀ t ∈ temple, EndsLine lines t.text) :
    ∀ t ∈ countCandidate igncase candidate temple, EndsLine lines t.text := by
  induction temple with
  | nil =>
      intro t ht
      rw [countCandidate, List.mem_singleton] at ht
      rwa [ht]
  | cons t temple ih =>
      rw [List.forall_mem_cons] at htemple
      rw [countCandidate]
      split
      · exact List.forall_mem_cons.mpr htemple
      · exact List.forall_mem_cons.mpr ⟨htemple.1, ih htemple.2⟩

theorem endsLine_candidates {some : List Line}
    (hsome : ∀ p ∈ some, p ∈ lines) (htemple : ∀ t ∈ temple, EndsLine lines t.text) :
    ∀ t ∈ some.foldl (addLine opt curTlen) temple, EndsLine lines t.text := by
  induction some generalizing temple with
  | nil => exact htemple
  | cons p some ih =>
      rw [List.forall_mem_cons] at hsome
      apply ih hsome.2
      unfold addLine
      split
      · exact htemple
      next hactive =>
        split
        · exact htemple
        · apply endsLine_countCandidate _ htemple
          exact ⟨p, hsome.1, by simpa using hactive, List.drop_suffix _ _⟩

theorem mem_of_foldl_best (t : Trailer) (temple : List Trailer) :
    temple.foldl (fun best t => if best.freq < t.freq then t else best) t ∈ t :: temple := by
  induction temple generalizing t with
  | nil => simp
  | cons u temple ih =>
      rw [List.foldl_cons]
      have hmem := ih (if t.freq < u.freq then u else t)
      split at hmem <;> grind

theorem endsLine_mostFrequent {t : Trailer}
    (ht : mostFrequent opt lines curTlen = some t) : EndsLine lines t.text := by
  have hall : ∀ u ∈ lines.foldl (addLine opt curTlen) [], EndsLine lines u.text :=
    endsLine_candidates (fun _ hp => hp) (by simp)
  unfold mostFrequent at ht
  split at ht
  · simp at ht
  next u temple hlist =>
    rw [hlist] at hall
    rw [← Option.some.inj ht]
    exact hall _ (mem_of_foldl_best u temple)

theorem endsLine_trailersFrom {prev : Trailer} {left : ℕ} :
    ∀ t ∈ trailersFrom opt lines prev curTlen left, EndsLine lines t.text := by
  induction left generalizing prev curTlen with
  | zero => simp [trailersFrom]
  | succ left ih =>
      rw [trailersFrom]
      split
      · simp
      next t ht =>
        refine List.forall_mem_cons.mpr ⟨endsLine_mostFrequent ht, ?_⟩
        split
        · simp
        · exact ih

/-- The trailer that is used consists of characters of the lines, if it is not
one the user has given. -/
theorem mem_usedTrail (hempty : wd.usedTrail.text = [])
    (hc : c ∈ (withTrailer opt wd).usedTrail.text) :
    (∃ t ∈ opt.trailer, c ∈ t.1) ∨ ∃ p ∈ wd.lines, c ∈ p.text := by
  unfold withTrailer at hc
  split at hc
  next t ht => exact Or.inl ⟨t, ht, hc⟩
  next =>
    unfold findAGoodTrailer at hc
    split at hc
    · simp [hempty] at hc
    · right
      simp only at hc
      cases hchosen : (trailersFrom opt wd.lines { text := [], freq := 0 } 1
          (longestLineLen wd))[chosen opt (trailersFrom opt wd.lines
            { text := [], freq := 0 } 1 (longestLineLen wd))]? with
      | none => simp [hchosen] at hc
      | some t =>
          rw [hchosen, Option.getD_some] at hc
          obtain ⟨p, hp, _, hsuffix⟩ := endsLine_trailersFrom t (List.mem_of_getElem? hchosen)
          exact ⟨p, hp, hsuffix.subset hc⟩

theorem withTrailer_lines (opt : Opt) (wd : WorkData) : (withTrailer opt wd).lines = wd.lines := by
  unfold withTrailer findAGoodTrailer
  split
  · rfl
  · split <;> rfl

/-- What is printed for a line. -/
def outputOf (opt : Opt) (wd : WorkData) (line : Line) : Text :=
  if wd.outputInput then line.orgtext
  else outputLine opt (doStuffToLines opt wd) (doStuffToLine opt wd.usedTrail.text line)

theorem tal_eq (opt : Opt) (input : Text) : tal opt input =
      (readAllInput opt input).lines.map (outputOf opt (workData opt input)) := by
  by_cases hsoon : (readAllInput opt input).exitSoon = true
  · have hnil : (readAllInput opt input).lines = [] := List.isEmpty_iff.mp hsoon
    simp [tal, hsoon, hnil]
  · have hlines : (workData opt input).lines = (readAllInput opt input).lines :=
      withTrailer_lines opt _
    have htal : tal opt input = outputAlignedLines opt
        (if (workData opt input).outputInput then workData opt input
          else doStuffToLines opt (workData opt input)) := by
      simp only [tal, hsoon, workData]
      rfl
    rw [htal]
    cases hinput : (workData opt input).outputInput with
    | true =>
        simp only [if_true, outputAlignedLines, hinput, hlines]
        apply List.map_congr_left
        intro line _
        simp [outputOf, hinput]
    | false =>
        have hout : (doStuffToLines opt (workData opt input)).outputInput = false := hinput
        simp only [Bool.false_eq_true, if_false, outputAlignedLines, hout]
        simp only [doStuffToLines, List.map_map, hlines]
        apply List.map_congr_left
        intro line _
        simp [outputOf, hinput, doStuffToLines, hlines]

theorem outputOf_of_not_aligned
    (hnot : wd.outputInput = true ∨ aligns opt wd.usedTrail.text line = false) :
    outputOf opt wd line = line.orgtext := by
  unfold outputOf
  split
  · rfl
  next hinput =>
    have hno : aligns opt wd.usedTrail.text line = false := hnot.resolve_left hinput
    simp [outputLine, doStuffToLine, hno]

/-- The text before the fill of an aligned line. -/
def keptText (trailer : Text) (line : Line) : Text :=
  if line.orgtext.length ≤ trailer.length then cut trailer line.text
  else cut trailer line.orgtext

theorem outputOf_of_aligned (hinput : wd.outputInput = false)
    (haligns : aligns opt wd.usedTrail.text line = true) :
    outputOf opt wd line = keptText wd.usedTrail.text line ++
      List.replicate (fillsize opt (doStuffToLines opt wd)
        (doStuffToLine opt wd.usedTrail.text line)) opt.fillchar ++ wd.usedTrail.text := by
  have hactive : line.active = true := by
    simp only [aligns, Bool.and_eq_true] at haligns
    exact haligns.1.1
  have hline : (doStuffToLine opt wd.usedTrail.text line).orgtext =
        keptText wd.usedTrail.text line ∧
      (doStuffToLine opt wd.usedTrail.text line).active = true := by
    unfold doStuffToLine keptText
    rw [if_pos haligns]
    by_cases hshort : line.orgtext.length ≤ wd.usedTrail.text.length
    · simp [hshort, hactive]
    · simp [hshort, hactive]
  rw [outputOf, hinput, outputLine, hline.1, hline.2]
  rfl

theorem mem_of_mem_cut {trailer s : Text} (hc : c ∈ cut trailer s) : c ∈ s :=
  List.mem_of_mem_take (mem_of_mem_stripEnd hc)

theorem nul_notMem_readLine (buffer : Text) :
    NUL ∉ (readLine opt buffer).orgtext ∧ NUL ∉ (readLine opt buffer).text := by
  have horg : NUL ∉ stripEnd (cstring buffer) := by
    intro hnul
    have hne := List.mem_takeWhile_imp (mem_of_mem_stripEnd hnul)
    simp at hne
  unfold readLine
  simp only
  split
  · exact ⟨horg, by simp⟩
  · refine ⟨horg, fun hnul => ?_⟩
    rcases mem_expandFrom hnul with hblank | hmem
    · exact absurd hblank (by decide)
    · exact horg hmem

theorem nul_notMem_tal (input : Text) : ∀ out ∈ tal opt input, NUL ∉ out := by
  have hlines : ∀ line ∈ (readAllInput opt input).lines, NUL ∉ line.orgtext ∧ NUL ∉ line.text := by
    intro line hline
    obtain ⟨buffer, _, rfl⟩ := List.mem_map.mp hline
    exact nul_notMem_readLine buffer
  have htrailer : NUL ∉ (workData opt input).usedTrail.text := by
    intro hnul
    rcases mem_usedTrail rfl hnul with ⟨t, _, ht⟩ | ⟨p, hp, hmem⟩
    · exact t.2 ht
    · exact (hlines p hp).2 hmem
  intro out hout hnul
  rw [tal_eq] at hout
  obtain ⟨line, hline, rfl⟩ := List.mem_map.mp hout
  by_cases haligned : (workData opt input).outputInput = false ∧
      aligns opt (workData opt input).usedTrail.text line = true
  · rw [outputOf_of_aligned haligned.1 haligned.2, List.mem_append, List.mem_append] at hnul
    rcases hnul with (hkept | hfill) | hused
    · unfold keptText at hkept
      split at hkept
      · exact (hlines line hline).2 (mem_of_mem_cut hkept)
      · exact (hlines line hline).1 (mem_of_mem_cut hkept)
    · exact opt.fillchar_ne (List.eq_of_mem_replicate hfill).symm
    · exact htrailer hused
  · rw [outputOf_of_not_aligned] at hnul
    · exact (hlines line hline).1 hnul
    · rcases Classical.not_and_iff_not_or_not.mp haligned with hinput | hno
      · exact Or.inl (by simpa using hinput)
      · exact Or.inr (by simpa using hno)

end Zero

/-! ## What is cut off -/

section Cutting
variable {opt : Opt} {wd : WorkData} {l : Text}

variable {K org trailer : Text} {igncase : Bool} {n tabstop : ℕ}

/-- The last characters of a line, as many as the trailer has columns, expand to what is
lost, blanks apart, and the trailer. -/
theorem exists_expansion_of_last (hpos : 0 < tabstop) (hlen : trailer.length ≤ org.length)
    (hends : sameText igncase ((expand tabstop 0 org).drop
      ((expand tabstop 0 org).length - trailer.length)) trailer = true) :
    ∃ E, expand tabstop 0 org = expand tabstop 0 (org.take (org.length - trailer.length)) ++ E ∧
      trailer.length ≤ E.length ∧ content E = content (org.drop (org.length - trailer.length)) ∧
      lost trailer org = content (E.take (E.length - trailer.length)) ∧
      sameText igncase (content (E.drop (E.length - trailer.length))) (content trailer) = true := by
  let a := org.take (org.length - trailer.length)
  let b := org.drop (org.length - trailer.length)
  let E := expand tabstop (0 + (expand tabstop 0 a).length) b
  have horg : org = a ++ b := (List.take_append_drop _ org).symm
  have hb : b.length = trailer.length := by
    rw [List.length_drop]
    omega
  have hE : trailer.length ≤ E.length := hb ▸ length_le_expand hpos
  have hexpand : expand tabstop 0 org = expand tabstop 0 a ++ E := by
    conv_lhs => rw [horg, expand_append]
  -- The trailer is found at the end of the expansion of the last characters.
  have htail : (expand tabstop 0 org).drop ((expand tabstop 0 org).length - trailer.length) =
        E.drop (E.length - trailer.length) := by
    rw [hexpand, List.length_append, Nat.add_sub_assoc hE, List.drop_append]
    simp
  rw [htail] at hends
  have hsame := sameText_content hends
  have hcontent : content b = content (E.take (E.length - trailer.length)) ++
      content (E.drop (E.length - trailer.length)) := by
    rw [← content_append, List.take_append_drop]
    exact content_expand.symm
  have hlost : lost trailer org = content (E.take (E.length - trailer.length)) := by
    have hU := sameText_length hsame
    change (content b).take ((content b).length - (content trailer).length) = _
    rw [hcontent, List.length_append, hU, Nat.add_sub_cancel]
    exact List.take_left
  exact ⟨E, hexpand, hE, content_expand, hlost, hsame⟩

/-- What a line that is long enough for the trailer loses: its content is that
of the text before the fill, what is lost, and the trailer. -/
theorem content_eq_cut (hpos : 0 < tabstop) (hlf : '\n' ∉ org) (hlen : trailer.length < org.length)
    (hends : sameText igncase ((expand tabstop 0 org).drop
      ((expand tabstop 0 org).length - trailer.length)) trailer = true) :
    ∃ U, content org = content (cut trailer org) ++ lost trailer org ++ U ∧
      sameText igncase U (content trailer) = true := by
  obtain ⟨E, -, -, hE, hlost, hsame⟩ := exists_expansion_of_last hpos hlen.le hends
  have hcut : content (cut trailer org) = content (org.take (org.length - trailer.length)) := by
    apply content_stripEnd
    exact fun hmem => hlf (List.mem_of_mem_take hmem)
  refine ⟨content (E.drop (E.length - trailer.length)), ?_, hsame⟩
  rw [hcut, hlost, List.append_assoc, ← content_append, List.take_append_drop, hE,
    ← content_append, List.take_append_drop]

theorem content_lost (trailer org : Text) : content (lost trailer org) = lost trailer org := by
  apply content_eq_self
  intro c hc
  exact (mem_content.mp (List.mem_of_mem_take hc)).2

theorem fill_hides_iff {L U whole : Text} {fillchar : Char}
    (hwhole : content whole = content K ++ L ++ U) (hL : content L = L)
    (hU : sameText igncase U (content trailer) = true) :
    (∃ A F U', K ++ List.replicate n fillchar ++ trailer = A ++ F ++ trailer ∧
        (∀ c ∈ F, c = fillchar) ∧ content whole = content A ++ U' ∧
        sameText igncase U' (content trailer) = true) ↔ L.length ≤ n ∧ ∀ c ∈ L, c = fillchar := by
  constructor
  · rintro ⟨A, F, U', hout, _, hA, hU'⟩
    have hsplit : K ++ List.replicate n fillchar = A ++ F := List.append_cancel_right hout
    have hlen : U.length = U'.length := (sameText_length hU).trans (sameText_length hU').symm
    have hKL : content K ++ L = content A := (List.append_inj' (hwhole.symm.trans hA) hlen).1
    have hfill : L ++ content F = content (List.replicate n fillchar) := by
      have hboth := congrArg content hsplit
      rw [content_append, content_append, ← hKL, List.append_assoc] at hboth
      exact (List.append_cancel_left hboth).symm
    constructor
    · calc L.length ≤ (L ++ content F).length := by simp
        _ = (content (List.replicate n fillchar)).length := by rw [hfill]
        _ ≤ (List.replicate n fillchar).length := List.length_filter_le _ _
        _ = n := List.length_replicate
    · intro c hc
      have hmem : c ∈ content (List.replicate n fillchar) := hfill ▸ List.mem_append_left _ hc
      exact List.eq_of_mem_replicate (mem_content.mp hmem).1
  · rintro ⟨hlen, hchars⟩
    have hrun : L = List.replicate L.length fillchar := List.eq_replicate_of_mem hchars
    refine ⟨K ++ L, List.replicate (n - L.length) fillchar, U, ?_, ?_, ?_, hU⟩
    · have hn : n = L.length + (n - L.length) := by omega
      have hfill : List.replicate n fillchar = L ++ List.replicate (n - L.length) fillchar := by
        conv_lhs => rw [hn, List.replicate_add, ← hrun]
      rw [hfill, ← List.append_assoc]
    · intro c hc
      exact List.eq_of_mem_replicate hc
    · rw [content_append, hL, hwhole]

theorem preserved_aligned_iff :
    Preserved opt trailer l (K ++ List.replicate n opt.fillchar ++ trailer) ↔
      ∃ A F U, K ++ List.replicate n opt.fillchar ++ trailer = A ++ F ++ trailer ∧
        (∀ c ∈ F, c = opt.fillchar) ∧ content l = content A ++ U ∧
        sameText opt.igncase U (content trailer) = true := by
  constructor
  · rintro (hsame | hkept)
    · refine ⟨K ++ List.replicate n opt.fillchar, [], content trailer, ?_, ?_, ?_, ?_⟩
      · rw [List.append_nil]
      · simp
      · have hblank : content l = content (l.rdropWhile isBlank) := by
          have hparts : l = l.rdropWhile isBlank ++ l.rtakeWhile isBlank :=
            List.rdropWhile_append_rtakeWhile.symm
          conv_lhs => rw [hparts]
          rw [content_append, content_eq_nil fun c hc => List.mem_rtakeWhile_imp hc,
            List.append_nil]
        rw [hblank, ← hsame, content_append]
      · exact sameText_refl _
    · exact hkept
  · exact Or.inr

theorem readLine_of_nul_notMem (opt : Opt) (hnul : NUL ∉ l) :
    (readLine opt l).orgtext = stripEnd l ∧ ((readLine opt l).active = true →
        (readLine opt l).text = expandTabsInto (stripEnd l) opt.tabstop) := by
  have hcstring : cstring l = l := by
    apply List.takeWhile_eq_self_iff.mpr
    intro c hc
    simpa using ne_of_mem_of_not_mem hc hnul
  unfold readLine
  simp only [hcstring]
  split
  · exact ⟨rfl, by simp⟩
  · exact ⟨rfl, fun _ => rfl⟩

/-- A line is kept if and only if it is not aligned or only the trailer is cut
off. -/
theorem preserved_iff (hnul : NUL ∉ l) (hlf : '\n' ∉ l) (hshort : l.length < LINE_MAX) :
    Preserved opt wd.usedTrail.text l (outputOf opt wd (readLine opt l)) ↔
      (wd.outputInput = false → aligns opt wd.usedTrail.text (readLine opt l) = true →
        CutsTrailerOnly opt wd (readLine opt l)) := by
  obtain ⟨horg, htext⟩ := readLine_of_nul_notMem opt hnul
  by_cases haligned : wd.outputInput = false ∧ aligns opt wd.usedTrail.text (readLine opt l) = true
  · obtain ⟨hinput, haligns⟩ := haligned
    have hparts := haligns
    simp only [aligns, endsWith, Bool.and_eq_true, decide_eq_true_eq] at hparts
    obtain ⟨⟨hactive, hle, hends⟩, -⟩ := hparts
    have hlf' : '\n' ∉ stripEnd l := fun hmem => hlf (mem_of_mem_stripEnd hmem)
    have hcontent : content l = content (stripEnd l) := (content_stripEnd hlf).symm
    have hexpand : (readLine opt l).text = expand opt.tabstop 0 (stripEnd l) := by
      rw [htext hactive]
      apply expandTabsInto_eq opt.tabstop_pos
      exact Nat.lt_of_le_of_lt (List.rdropWhile_prefix isSpace l).length_le hshort
    rw [outputOf_of_aligned hinput haligns, preserved_aligned_iff]
    by_cases hlen : (readLine opt l).orgtext.length ≤ wd.usedTrail.text.length
    · constructor
      · intro _ _ _
        exact Or.inl hlen
      · intro _
        rw [keptText, if_pos hlen]
        refine ⟨_, _, content ((readLine opt l).text.drop
          ((readLine opt l).text.length - wd.usedTrail.text.length)), rfl,
          fun c hc => List.eq_of_mem_replicate hc, ?_, sameText_content hends⟩
        have hlf'' : '\n' ∉ (readLine opt l).text := by
          rw [htext hactive]
          intro hmem
          exact (mem_expandFrom hmem).elim (by decide) hlf'
        rw [cut, content_stripEnd fun hmem => hlf'' (List.mem_of_mem_take hmem),
          ← content_append, List.take_append_drop, hexpand, content_expand, hcontent]
    · rw [hexpand] at hends
      rw [horg] at hlen
      obtain ⟨U, hwhole, hU⟩ := content_eq_cut opt.tabstop_pos hlf' (Nat.lt_of_not_le hlen) hends
      rw [← hcontent] at hwhole
      rw [keptText, horg, if_neg hlen, fill_hides_iff hwhole (content_lost _ _) hU]
      constructor
      · intro hhidden _ _
        right
        rw [horg]
        exact hhidden
      · intro hcuts
        rcases hcuts hinput haligns with hle' | hhidden
        · exact absurd (horg ▸ hle') hlen
        · rwa [horg] at hhidden
  · have hout : outputOf opt wd (readLine opt l) = (readLine opt l).orgtext := by
      apply outputOf_of_not_aligned
      rcases Classical.not_and_iff_not_or_not.mp haligned with hinput | hno
      · exact Or.inl (by simpa using hinput)
      · exact Or.inr (by simpa using hno)
    constructor
    · intro _ hinput haligns
      exact absurd ⟨hinput, haligns⟩ haligned
    · intro _
      left
      rw [hout, horg, stripEnd_eq hlf]

end Cutting

/-! ## The result -/

theorem exists_of_forall₂ {α β : Type} {R : α → β → Prop} {as : List α} {bs : List β} {a : α}
    (hall : List.Forall₂ R as bs) (ha : a ∈ as) : ∃ b ∈ bs, R a b := by
  induction hall with
  | nil => simp at ha
  | cons hab _ ih =>
      rcases List.mem_cons.mp ha with hsame | hrest
      · exact ⟨_, List.mem_cons_self, hsame ▸ hab⟩
      · obtain ⟨b, hb, hR⟩ := ih hrest
        exact ⟨b, List.mem_cons_of_mem _ hb, hR⟩

theorem nul_mem_of_preserved {opt : Opt} {trailer l out : Text}
    (hpreserved : Preserved opt trailer l out) (hl : NUL ∈ l) : NUL ∈ out := by
  have hcontent : NUL ∈ content l := mem_content.mpr ⟨hl, by decide⟩
  rcases hpreserved with hsame | ⟨A, F, U, hout, _, hparts, hU⟩
  · rw [hsame]
    have hparts : NUL ∈ l.rdropWhile isBlank ++ l.rtakeWhile isBlank := by
      rwa [List.rdropWhile_append_rtakeWhile]
    rcases List.mem_append.mp hparts with hkept | hcut
    · exact hkept
    · exact absurd (List.mem_rtakeWhile_imp hcut) (by decide)
  · rw [hparts, List.mem_append] at hcontent
    rw [hout, List.mem_append, List.mem_append]
    rcases hcontent with hA | hmem
    · exact Or.inl (Or.inl (mem_content.mp hA).1)
    · exact Or.inr (mem_content.mp (nul_mem_of_sameText hU hmem)).1

/-- For input with short lines, tal keeps the text of every line if and only if
there is no zero byte and only trailers are cut off. -/
theorem content_preserved_iff (opt : Opt) (input : Text)
    (hshort : ∀ line ∈ inputLines input, line.length < LINE_MAX) :
    List.Forall₂ (Preserved opt (workData opt input).usedTrail.text) (inputLines input)
      (tal opt input) ↔ KeepsText opt input := by
  by_cases hnul : NUL ∈ input
  · constructor
    · intro hall
      obtain ⟨line, hline, hin⟩ := exists_mem_linesFrom [] (by decide) (Or.inr hnul)
      obtain ⟨out, hout, hpreserved⟩ := exists_of_forall₂ hall hline
      exact absurd (nul_mem_of_preserved hpreserved hin) (nul_notMem_tal input out hout)
    · rintro ⟨hno, -⟩
      exact absurd hnul hno
  · have hlines := readAllInput_lines opt hnul hshort
    have hwork : (workData opt input).lines = (inputLines input).map (readLine opt) :=
      (withTrailer_lines opt _).trans hlines
    have hone : ∀ line ∈ inputLines input,
        (Preserved opt (workData opt input).usedTrail.text line
            (outputOf opt (workData opt input) (readLine opt line)) ↔
          ((workData opt input).outputInput = false →
            aligns opt (workData opt input).usedTrail.text (readLine opt line) = true →
              CutsTrailerOnly opt (workData opt input) (readLine opt line))) := by
      intro line hline
      apply preserved_iff
      · exact fun hin => hnul ((mem_of_mem_linesFrom hline hin).resolve_left (by simp))
      · exact lf_notMem_linesFrom (by simp) line hline
      · exact hshort line hline
    rw [tal_eq, hlines, List.map_map, List.forall₂_map_right_iff, List.forall₂_same]
    unfold KeepsText
    simp only [hwork, List.forall_mem_map]
    constructor
    · intro hall
      refine ⟨hnul, fun hinput line hline haligns => ?_⟩
      exact (hone line hline).mp (hall line hline) hinput haligns
    · rintro ⟨-, hall⟩ line hline
      exact (hone line hline).mpr fun hinput haligns => hall hinput line hline haligns

theorem content_preserved_iff_tab_before_trailer :
    List.Forall₂ (Preserved Opt.default [';'])
      (inputLines "ab;\ncd\t;\n\nx".toList) (tal Opt.default "ab;\ncd\t;\n\nx".toList) :=
  (content_preserved_iff Opt.default "ab;\ncd\t;\n\nx".toList (by decide)).mpr (by decide)

/-- The trailer of the two lines is a tab between two characters, expanded.
Two more characters of each line are lost. -/
theorem expanded_trailer_loses_text :
    ¬ List.Forall₂ (Preserved Opt.default
        (workData Opt.default "abcdy\tx\nefghy\tx\n".toList).usedTrail.text)
      (inputLines "abcdy\tx\nefghy\tx\n".toList)
      (tal Opt.default "abcdy\tx\nefghy\tx\n".toList) := by
  have hused : (workData Opt.default "abcdy\tx\nefghy\tx\n".toList).usedTrail.text =
      "y   x".toList := by decide
  have hlines : inputLines "abcdy\tx\nefghy\tx\n".toList =
      ["abcdy\tx".toList, "efghy\tx".toList] := by decide
  have hout : tal Opt.default "abcdy\tx\nefghy\tx\n".toList =
      ["ab y   x".toList, "ef y   x".toList] := by decide
  rw [hused, hlines, hout]
  rintro ⟨⟩
  rename_i hfirst _
  rcases hfirst with hsame | ⟨A, F, U, hparts, _, hcontent, hU⟩
  · exact absurd hsame (by decide)
  · have hA : A ++ F = "ab ".toList := List.append_cancel_right hparts.symm
    have hlen : A.length ≤ 3 := by
      have hboth := congrArg List.length hA
      rw [List.length_append] at hboth
      change A.length + F.length = 3 at hboth
      omega
    have hle : (content A).length ≤ A.length := List.length_filter_le _ _
    have htail : U.length = 2 := sameText_length hU
    have hwhole := congrArg List.length hcontent
    rw [List.length_append, htail] at hwhole
    change 6 = (content A).length + 2 at hwhole
    omega

end MiscProjects.Tal
