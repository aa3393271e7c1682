import MiscProjects.Tal.Content

/-!
# When aligned lines are as wide as tal computes

The fill of a line is computed from the text with its tabs expanded; what is printed is
the line as it was read.  Both are cut by the length of the trailer.  They stay in step
if and only if the characters that the tabs of the trailer make it too long by are blanks.

With a tab stop of one the work buffer of `expand_tabs_into` has no room for the last of
`LINE_MAX` characters, and a tab as fill character is counted as one column.
-/

namespace MiscProjects.Tal

/-! ## Statement -/

/-- The line as it is kept expands to the text that its fill is computed from, and its
output has the width that is computed. -/
def InStep (opt : Opt) (wd : WorkData) (line : Line) (out : Text) : Prop :=
  line.active = true →
    expand opt.tabstop 0 line.orgtext = line.text ∧
      (expand opt.tabstop 0 out).length =
        longestLineLen wd + wd.usedTrail.text.length + opt.padding

instance (opt : Opt) (wd : WorkData) (line : Line) (out : Text) :
    Decidable (InStep opt wd line out) :=
  inferInstanceAs (Decidable (_ → _))

/-- The aligned lines of the output are in step. -/
def SameWidth (opt : Opt) (input : Text) : Prop :=
  (workData opt input).outputInput = false →
    List.Forall₂ (InStep opt (doStuffToLines opt (workData opt input)))
      (doStuffToLines opt (workData opt input)).lines (tal opt input)

instance (opt : Opt) (input : Text) : Decidable (SameWidth opt input) :=
  inferInstanceAs (Decidable (_ → _))

/-- The last character of the line does not fit the work buffer. -/
def overflows (opt : Opt) (line : Line) : Bool :=
  decide (opt.tabstop = 1) && decide (line.orgtext.length = LINE_MAX)

/-- Nothing but the trailer and blanks are among the last characters of the line, as many
as the trailer has columns.  Where the last character of the line does not fit the work
buffer, the character in front of the trailer is a blank. -/
def CutsEvenly (opt : Opt) (trailer : Text) (line : Line) : Prop :=
  line.orgtext.length ≤ trailer.length ∨
    if overflows opt line then
      line.orgtext[LINE_MAX - 1 - trailer.length]?.any isBlank = true
    else lost trailer line.orgtext = []

instance (opt : Opt) (trailer : Text) (line : Line) : Decidable (CutsEvenly opt trailer line) :=
  inferInstanceAs (Decidable (_ ∨ _))

/-- Tabs are as wide as the fill is computed: every fill is empty or one tab in front of a
tab stop. -/
def FillCounts (opt : Opt) (wd : WorkData) (line : Line) : Prop :=
  opt.fillchar = '\t' → 1 < opt.tabstop →
    ∀ other ∈ wd.lines, aligns opt wd.usedTrail.text other = true →
      (cut wd.usedTrail.text other.text).length + opt.padding ≤
          (cut wd.usedTrail.text line.text).length ∨
        (cut wd.usedTrail.text other.text).length + opt.padding =
            (cut wd.usedTrail.text line.text).length + 1 ∧
          opt.tabstop ∣ (cut wd.usedTrail.text line.text).length + 1

/-! ## Trailing white space -/

section Strip
variable {tabstop io n : ℕ} {a b s : Text} {c : Char}

theorem stripEnd_eq_nil : stripEnd b = [] ↔ ∀ c ∈ b, isSpace c = true := List.rdropWhile_eq_nil_iff

theorem stripEnd_append_space (hb : ∀ c ∈ b, isSpace c = true) :
    stripEnd (a ++ b) = stripEnd a := by
  induction b using List.reverseRecOn with
  | nil => rw [List.append_nil]
  | append_singleton b c ih =>
      have hc : isSpace c = true := hb c (by simp)
      have hrest : ∀ d ∈ b, isSpace d = true := fun d hd => hb d (List.mem_append_left _ hd)
      rw [← List.append_assoc, stripEnd, List.rdropWhile_concat_pos _ _ _ hc]
      exact ih hrest

theorem stripEnd_append_of_ne_nil (hb : stripEnd b ≠ []) : stripEnd (a ++ b) = a ++ stripEnd b := by
  induction b using List.reverseRecOn with
  | nil => exact absurd rfl hb
  | append_singleton b c ih =>
      unfold stripEnd at hb ih ⊢
      rw [← List.append_assoc, List.rdropWhile_concat, List.rdropWhile_concat]
      rw [List.rdropWhile_concat] at hb
      by_cases hc : isSpace c = true
      · rw [if_pos hc] at hb
        rw [if_pos hc, if_pos hc]
        exact ih hb
      · rw [if_neg hc, if_neg hc, List.append_assoc]

theorem isSpace_of_mem_expand (hs : ∀ c ∈ s, isSpace c = true) :
    ∀ c ∈ expand tabstop io s, isSpace c = true := by
  induction s generalizing io with
  | nil =>
      intro c hc
      cases hc
  | cons d s ih =>
      have hrest : ∀ c ∈ s, isSpace c = true := fun c hc => hs c (List.mem_cons_of_mem d hc)
      intro c hc
      rw [expand_cons] at hc
      split at hc
      · rcases List.mem_append.mp hc with hblank | hc
        · rw [List.eq_of_mem_replicate hblank]
          rfl
        · exact ih hrest c hc
      · rcases List.mem_cons.mp hc with rfl | hc
        · exact hs c List.mem_cons_self
        · exact ih hrest c hc

theorem expand_stripEnd (tabstop io : ℕ) (s : Text) :
    expand tabstop io (stripEnd s) = stripEnd (expand tabstop io s) := by
  induction s using List.reverseRecOn with
  | nil => rfl
  | append_singleton s c ih =>
      rw [expand_append]
      by_cases hc : isSpace c = true
      · have hspace : ∀ d ∈ [c], isSpace d = true := by
          intro d hd
          rwa [List.mem_singleton.mp hd]
        rw [stripEnd_append_space hspace, stripEnd_append_space (isSpace_of_mem_expand hspace)]
        exact ih
      · have htab : c ≠ '\t' := by
          rintro rfl
          exact hc rfl
        have hone : ∀ io, expand tabstop io [c] = [c] := by
          intro io
          rw [expand_cons, if_neg htab]
          rfl
        rw [hone, stripEnd, stripEnd, List.rdropWhile_concat_neg _ _ _ hc,
          List.rdropWhile_concat_neg _ _ _ hc, expand_append, hone]

theorem length_stripEnd_le (s : Text) : (stripEnd s).length ≤ s.length :=
  (List.rdropWhile_prefix isSpace s).length_le

theorem stripEnd_append_iff : stripEnd (a ++ b) = stripEnd a ↔ ∀ c ∈ b, isSpace c = true := by
  constructor
  · intro h
    by_contra hspace
    have hb : stripEnd b ≠ [] := fun hnil => hspace (stripEnd_eq_nil.mp hnil)
    have hlen := congrArg List.length h
    rw [stripEnd_append_of_ne_nil hb, List.length_append] at hlen
    have hpos : 0 < (stripEnd b).length := List.length_pos_iff.mpr hb
    have hle := length_stripEnd_le a
    omega
  · exact stripEnd_append_space

end Strip

/-! ## Cutting -/

section Cut
variable {tabstop n : ℕ} {igncase : Bool} {trailer org X : Text} {c : Char}

theorem content_eq_nil_iff (hlf : '\n' ∉ X) : content X = [] ↔ ∀ c ∈ X, isSpace c = true := by
  constructor
  · intro hnil c hc
    rw [isSpace_eq_isBlank (ne_of_mem_of_not_mem hc hlf)]
    by_contra hblank
    have hmem : c ∈ content X := mem_content.mpr ⟨hc, by simpa using hblank⟩
    rw [hnil] at hmem
    cases hmem
  · intro hspace
    apply content_eq_nil
    intro c hc
    rw [← isSpace_eq_isBlank (ne_of_mem_of_not_mem hc hlf)]
    exact hspace c hc

theorem mem_of_mem_expand {io : ℕ} (hc : c ∈ expand tabstop io org) : c = ' ' ∨ c ∈ org := by
  induction org generalizing io with
  | nil => cases hc
  | cons d org ih =>
      rw [expand_cons] at hc
      split at hc
      · rcases List.mem_append.mp hc with hblank | hc
        · exact .inl (List.eq_of_mem_replicate hblank)
        · exact (ih hc).imp_right (List.mem_cons_of_mem d)
      · rcases List.mem_cons.mp hc with rfl | hc
        · exact .inr List.mem_cons_self
        · exact (ih hc).imp_right (List.mem_cons_of_mem d)

theorem tab_notMem_expand (tabstop io : ℕ) (s : Text) : '\t' ∉ expand tabstop io s := by
  induction s generalizing io with
  | nil => exact List.not_mem_nil
  | cons d s ih =>
      rw [expand_cons]
      split
      · intro hmem
        rcases List.mem_append.mp hmem with hblank | hmem
        · exact absurd (List.eq_of_mem_replicate hblank) (by decide)
        · exact ih _ hmem
      · next hd =>
        intro hmem
        rcases List.mem_cons.mp hmem with rfl | hmem
        · exact hd rfl
        · exact ih _ hmem

theorem expand_eq_self {io : ℕ} {s : Text} (hs : '\t' ∉ s) : expand tabstop io s = s := by
  induction s generalizing io with
  | nil => rfl
  | cons d s ih =>
      have hd : d ≠ '\t' := by
        rintro rfl
        exact hs List.mem_cons_self
      rw [expand_cons, if_neg hd, ih fun hmem => hs (List.mem_cons_of_mem d hmem)]

theorem expand_cut_iff (hpos : 0 < tabstop) (hlf : '\n' ∉ org) (hlen : trailer.length ≤ org.length)
    (hends : sameText igncase ((expand tabstop 0 org).drop
      ((expand tabstop 0 org).length - trailer.length)) trailer = true) :
    expand tabstop 0 (cut trailer org) = cut trailer (expand tabstop 0 org) ↔
      lost trailer org = [] := by
  obtain ⟨E, hE, hle, -, hlost, -⟩ := exists_expansion_of_last hpos hlen hends
  have hcut : cut trailer (expand tabstop 0 org) =
      stripEnd (expand tabstop 0 (org.take (org.length - trailer.length)) ++
        E.take (E.length - trailer.length)) := by
    unfold cut
    rw [hE, List.length_append, Nat.add_sub_assoc hle, List.take_length_add_append]
  have hlfE : '\n' ∉ E.take (E.length - trailer.length) := by
    intro hmem
    have hin : '\n' ∈ expand tabstop 0 org := by
      rw [hE]
      exact List.mem_append_right _ (List.mem_of_mem_take hmem)
    rcases mem_of_mem_expand hin with hblank | hin
    · exact absurd hblank (by decide)
    · exact hlf hin
  calc expand tabstop 0 (cut trailer org) = cut trailer (expand tabstop 0 org)
      ↔ stripEnd (expand tabstop 0 (org.take (org.length - trailer.length)) ++
          E.take (E.length - trailer.length)) =
            stripEnd (expand tabstop 0 (org.take (org.length - trailer.length))) := by
        rw [hcut, cut, expand_stripEnd, eq_comm]
    _ ↔ ∀ c ∈ E.take (E.length - trailer.length), isSpace c = true := stripEnd_append_iff
    _ ↔ lost trailer org = [] := by rw [hlost, content_eq_nil_iff hlfE]

/-! ### A tab stop of one -/

theorem expand_one (io : ℕ) (s : Text) :
    expand 1 io s = s.map fun c => if c = '\t' then ' ' else c := by
  induction s generalizing io with
  | nil => rfl
  | cons d s ih =>
      rw [expand_cons, List.map_cons]
      by_cases hd : d = '\t'
      · rw [if_pos hd, if_pos hd, Nat.mod_one, ih]
        rfl
      · rw [if_neg hd, if_neg hd, ih]

theorem expandFrom_one (io : ℕ) (s : Text) :
    expandFrom 1 io s = (expand 1 io s).take (LINE_MAX - 1 - io) := by
  induction s generalizing io with
  | nil => rw [expand_nil, List.take_nil, expandFrom_nil]
  | cons d s ih =>
      rw [expandFrom_cons, Nat.mul_one]
      by_cases hio : io < LINE_MAX - 1
      · have hroom : LINE_MAX - 1 - io = (LINE_MAX - 1 - (io + 1)) + 1 := by omega
        rw [if_pos hio, expand_cons, hroom]
        by_cases hd : d = '\t'
        · rw [if_pos hd, if_pos hd, Nat.mod_one, Nat.sub_zero, ih]
          rfl
        · rw [if_neg hd, if_neg hd, ih, List.take_succ_cons]
      · rw [if_neg hio, Nat.sub_eq_zero_of_le (Nat.le_of_not_lt hio), List.take_zero]

/-- The line is one character longer than the text.  The cuts stay in step if and only if
the character in front of the trailer is a blank. -/
theorem expand_cut_one_iff (hlf : '\n' ∉ org) (hlen : org.length = LINE_MAX)
    (htrailer : trailer.length ≤ LINE_MAX - 1) :
    expand 1 0 (cut trailer org) = cut trailer (expandTabsInto org 1) ↔
      org[LINE_MAX - 1 - trailer.length]?.any isBlank = true := by
  obtain ⟨k, hk⟩ : ∃ k, k = LINE_MAX - 1 - trailer.length := ⟨_, rfl⟩
  have hpos : 0 < LINE_MAX := by decide
  have hlt : k < org.length := by omega
  have htake : org.take (org.length - trailer.length) = org.take k ++ [org[k]] := by
    rw [List.take_append_getElem hlt]
    congr 1
    omega
  have htext : (expandTabsInto org 1).take ((expandTabsInto org 1).length - trailer.length) =
      expand 1 0 (org.take k) := by
    unfold expandTabsInto
    rw [expandFrom_one, expand_one, expand_one, List.take_take, List.length_take,
      List.length_map, hlen, List.map_take]
    congr 1
    omega
  have hone : expand 1 0 (org.take k ++ [org[k]]) =
      expand 1 0 (org.take k) ++ [if org[k] = '\t' then ' ' else org[k]] := by
    rw [expand_one, expand_one, List.map_append]
    rfl
  have hspace : isSpace (if org[k] = '\t' then ' ' else org[k]) = isBlank org[k] := by
    by_cases htab : org[k] = '\t'
    · rw [if_pos htab, htab]
      rfl
    · rw [if_neg htab]
      exact isSpace_eq_isBlank (ne_of_mem_of_not_mem (List.getElem_mem hlt) hlf)
  rw [cut, cut, htext, htake, expand_stripEnd, hone, stripEnd_append_iff, ← hk,
    List.getElem?_eq_getElem hlt, Option.any_some, ← hspace]
  constructor
  · intro h
    exact h _ (List.mem_singleton.mpr rfl)
  · intro h c hc
    rwa [List.mem_singleton.mp hc]

end Cut

/-! ## What is read -/

section Reading
variable {opt : Opt} {input line s b : Text} {room : ℕ}

theorem fgets_bounds (hline : '\n' ∉ line) (hroom : 0 < room) (hlen : line.length + room ≤ LINE_MAX)
    (hb : b ∈ fgets room line s) : b.length ≤ LINE_MAX ∧ '\n' ∉ b.dropLast := by
  induction s generalizing line room with
  | nil =>
      rw [fgets_nil] at hb
      split at hb
      · cases hb
      · rw [List.mem_singleton.mp hb]
        exact ⟨by omega, fun hmem => hline (List.dropLast_subset line hmem)⟩
  | cons c s ih =>
      rw [fgets_cons] at hb
      split at hb
      · rcases List.mem_cons.mp hb with rfl | hb
        · rw [List.dropLast_concat, List.length_append, List.length_singleton]
          exact ⟨by omega, hline⟩
        · exact ih List.not_mem_nil (by decide) (Nat.le_of_eq (Nat.zero_add _)) hb
      · next hc =>
        simp only [Bool.or_eq_true, decide_eq_true_eq, not_or] at hc
        refine @ih _ (room - 1) ?_ (by omega) ?_ hb
        · intro hmem
          rcases List.mem_append.mp hmem with hmem | hmem
          · exact hline hmem
          · exact hc.1 (List.mem_singleton.mp hmem).symm
        · rw [List.length_append, List.length_singleton]
          omega

theorem lf_notMem_stripEnd (hs : s <+: b) (hlf : '\n' ∉ b.dropLast) : '\n' ∉ stripEnd s := by
  intro hmem
  have hne : stripEnd s ≠ [] := List.ne_nil_of_mem hmem
  have hlast : ¬ isSpace ((stripEnd s).getLast hne) = true := List.rdropWhile_last_not isSpace s hne
  rw [← List.dropLast_append_getLast hne] at hmem
  rcases List.mem_append.mp hmem with hmem | hmem
  · have hpre : stripEnd s <+: b := (List.rdropWhile_prefix isSpace s).trans hs
    have hdrop : (stripEnd s).dropLast <+: b.dropLast := by
      apply List.prefix_of_prefix_length_le ((List.dropLast_prefix _).trans hpre)
        (List.dropLast_prefix b)
      rw [List.length_dropLast, List.length_dropLast]
      exact Nat.sub_le_sub_right hpre.length_le 1
    exact hlf (hdrop.subset hmem)
  · rw [← List.mem_singleton.mp hmem] at hlast
    exact hlast rfl

/-- What is known of a line that has been read. -/
structure Read (opt : Opt) (p : Line) : Prop where
  lf : '\n' ∉ p.orgtext
  length_le : p.orgtext.length ≤ LINE_MAX
  expanded : p.active = true → p.text = expandTabsInto p.orgtext opt.tabstop

theorem orgtext_readLine (opt : Opt) (b : Text) :
    (readLine opt b).orgtext = stripEnd (cstring b) := by
  unfold readLine
  dsimp only
  split
  · rfl
  · rfl

theorem read_readLine (hlen : b.length ≤ LINE_MAX) (hlf : '\n' ∉ b.dropLast) :
    Read opt (readLine opt b) := by
  have hpre : cstring b <+: b := List.takeWhile_prefix _
  constructor
  · rw [orgtext_readLine]
    exact lf_notMem_stripEnd hpre hlf
  · rw [orgtext_readLine]
    exact (length_stripEnd_le _).trans (hpre.length_le.trans hlen)
  · unfold readLine
    dsimp only
    split
    · intro hactive
      cases hactive
    · intro _
      rfl

theorem read_of_mem {p : Line} (hp : p ∈ (workData opt input).lines) : Read opt p := by
  have hlines : (workData opt input).lines = (readAllInput opt input).lines :=
    withTrailer_lines opt _
  rw [hlines] at hp
  obtain ⟨b, hb, rfl⟩ := List.mem_map.mp hp
  have hmem : b ∈ fgets LINE_MAX [] input := (List.takeWhile_prefix _).subset hb
  obtain ⟨hlen, hlf⟩ :=
    fgets_bounds List.not_mem_nil (by decide) (Nat.le_of_eq (Nat.zero_add _)) hmem
  exact read_readLine hlen hlf

end Reading

/-! ## One aligned line -/

section Aligned
variable {opt : Opt} {wd : WorkData} {line : Line} {trailer : Text}

theorem aligns_iff : aligns opt trailer line = true ↔
    (line.active = true ∧ endsWith opt trailer line.text = true) ∧ ¬ (0 < opt.maxalign ∧
        opt.maxalign < (cut trailer line.text).length + trailer.length + opt.padding) := by
  simp only [aligns, Bool.and_eq_true, Bool.not_eq_true', Bool.and_eq_false_iff,
    decide_eq_false_iff_not, not_and_or]

theorem endsWith_of_aligns (h : aligns opt trailer line = true) :
    trailer.length ≤ line.text.length ∧ sameText opt.igncase
      (line.text.drop (line.text.length - trailer.length)) trailer = true := by
  have hends := (aligns_iff.mp h).1.2
  simp only [endsWith, Bool.and_eq_true, decide_eq_true_eq] at hends
  exact hends

theorem expandTabsInto_of_not_overflows (hlen : line.orgtext.length ≤ LINE_MAX)
    (hfits : overflows opt line = false) :
    expandTabsInto line.orgtext opt.tabstop = expand opt.tabstop 0 line.orgtext := by
  have hpos := opt.tabstop_pos
  rcases Nat.lt_or_eq_of_le hlen with hlt | heq
  · exact expandTabsInto_eq hpos hlt
  · have hone : opt.tabstop ≠ 1 := by
      intro hone
      rw [overflows, hone, heq] at hfits
      exact absurd hfits (by decide)
    apply expandFrom_eq hpos
    rw [heq]
    omega

theorem overflows_iff : overflows opt line = true ↔
    opt.tabstop = 1 ∧ line.orgtext.length = LINE_MAX := by
  simp only [overflows, Bool.and_eq_true, decide_eq_true_eq]

theorem tab_notMem_text (hread : Read opt line) (hactive : line.active = true) :
    '\t' ∉ line.text := by
  rw [hread.expanded hactive]
  by_cases hover : overflows opt line = true
  · unfold expandTabsInto
    rw [(overflows_iff.mp hover).1, expandFrom_one]
    exact fun hmem => tab_notMem_expand 1 0 line.orgtext (List.mem_of_mem_take hmem)
  · rw [expandTabsInto_of_not_overflows hread.length_le (Bool.eq_false_iff.mpr hover)]
    exact tab_notMem_expand _ _ _

theorem expand_keptText_iff (hread : Read opt line) (h : aligns opt trailer line = true) :
    expand opt.tabstop 0 (keptText trailer line) = cut trailer line.text ↔
      CutsEvenly opt trailer line := by
  have hactive : line.active = true := (aligns_iff.mp h).1.1
  obtain ⟨_, hends⟩ := endsWith_of_aligns h
  by_cases hlen : line.orgtext.length ≤ trailer.length
  · have htab : '\t' ∉ cut trailer line.text := fun hmem =>
      tab_notMem_text hread hactive (mem_of_mem_cut hmem)
    rw [keptText, if_pos hlen, expand_eq_self htab]
    exact ⟨fun _ => .inl hlen, fun _ => rfl⟩
  · rw [keptText, if_neg hlen, CutsEvenly, or_iff_right hlen, hread.expanded hactive]
    rw [hread.expanded hactive] at hends
    by_cases hover : overflows opt line = true
    · obtain ⟨hone, horg⟩ := overflows_iff.mp hover
      rw [if_pos hover, hone]
      exact expand_cut_one_iff hread.lf horg (by omega)
    · have hexpand := expandTabsInto_of_not_overflows hread.length_le (Bool.eq_false_iff.mpr hover)
      rw [hexpand] at hends ⊢
      rw [if_neg hover]
      exact expand_cut_iff opt.tabstop_pos hread.lf (Nat.le_of_not_le hlen) hends

theorem notMem_trailer {c : Char} (h : aligns opt trailer line = true) (hc : c.val.toNat < 65)
    (hnot : c ∉ line.text) : c ∉ trailer := by
  obtain ⟨_, hends⟩ := endsWith_of_aligns h
  intro hmem
  unfold sameText at hends
  split at hends
  · have hlower : c.toLower ∈ (line.text.drop
        (line.text.length - trailer.length)).map Char.toLower := by
      rw [of_decide_eq_true hends]
      exact List.mem_map_of_mem hmem
    obtain ⟨d, hd, hsame⟩ := List.mem_map.mp hlower
    rw [(toLower_eq_iff hc).mpr rfl] at hsame
    have hd' : d = c := (toLower_eq_iff hc).mp hsame
    exact hnot (List.mem_of_mem_drop (hd' ▸ hd))
  · rw [← of_decide_eq_true hends] at hmem
    exact hnot (List.mem_of_mem_drop hmem)

theorem tab_notMem_trailer (hread : Read opt line) (h : aligns opt trailer line = true) :
    '\t' ∉ trailer :=
  notMem_trailer h (by decide) (tab_notMem_text hread (aligns_iff.mp h).1.1)

end Aligned

/-! ## The fill -/

section Fill
variable {opt : Opt} {wd : WorkData} {line : Line} {tabstop io n : ℕ}

theorem length_expand_tabs (hio : tabstop ∣ io) (n : ℕ) :
    (expand tabstop io (List.replicate n '\t')).length = n * tabstop := by
  induction n generalizing io with
  | zero =>
      rw [Nat.zero_mul]
      rfl
  | succ n ih =>
      rw [List.replicate_succ, expand_cons, if_pos rfl, Nat.mod_eq_zero_of_dvd hio, Nat.sub_zero,
        List.length_append, List.length_replicate, ih (Nat.dvd_add hio (Nat.dvd_refl tabstop)),
        Nat.succ_mul, Nat.add_comm]

/-- Tabs are as many columns as they are characters only if there is none, or one in front
of a tab stop. -/
theorem length_expand_tabs_iff (hone : 1 < tabstop) :
    (expand tabstop io (List.replicate n '\t')).length = n ↔ n = 0 ∨ n = 1 ∧ tabstop ∣ io + 1 := by
  rcases n with _ | n
  · exact ⟨fun _ => .inl rfl, fun _ => rfl⟩
  · have hmod : io % tabstop < tabstop := Nat.mod_lt io (Nat.zero_lt_of_lt hone)
    have hstop : tabstop ∣ io + (tabstop - io % tabstop) := by
      refine ⟨io / tabstop + 1, ?_⟩
      have hdiv := Nat.div_add_mod io tabstop
      rw [Nat.mul_add, Nat.mul_one]
      omega
    have hlen : (expand tabstop io (List.replicate (n + 1) '\t')).length =
        tabstop - io % tabstop + n * tabstop := by
      rw [List.replicate_succ, expand_cons, if_pos rfl, List.length_append, List.length_replicate,
        length_expand_tabs hstop]
    have hnext : tabstop ∣ io + 1 ↔ tabstop - io % tabstop = 1 := by
      constructor
      · intro hdvd
        by_contra hne
        have hstep : (io + 1) % tabstop = io % tabstop + 1 := by
          rw [Nat.add_mod, Nat.mod_eq_of_lt hone, Nat.mod_eq_of_lt]
          omega
        rw [Nat.mod_eq_zero_of_dvd hdvd] at hstep
        omega
      · intro heq
        rwa [heq] at hstop
    rw [hlen, hnext]
    have hmul : n * 2 ≤ n * tabstop := Nat.mul_le_mul_left n hone
    rcases n with _ | n
    · omega
    · omega

theorem length_expand_fill_iff (opt : Opt) (io n : ℕ) :
    (expand opt.tabstop io (List.replicate n opt.fillchar)).length = n ↔
      (opt.fillchar = '\t' → 1 < opt.tabstop → n = 0 ∨ n = 1 ∧ opt.tabstop ∣ io + 1) := by
  by_cases hfill : opt.fillchar = '\t'
  · rw [hfill]
    by_cases hone : 1 < opt.tabstop
    · rw [length_expand_tabs_iff hone]
      exact ⟨fun h _ _ => h, fun h => h rfl hone⟩
    · have htab : opt.tabstop = 1 := by
        have hpos := opt.tabstop_pos
        omega
      rw [htab, expand_one, List.length_map, List.length_replicate]
      exact ⟨fun _ _ hlt => absurd hlt (Nat.lt_irrefl 1), fun _ => rfl⟩
  · have hmem : '\t' ∉ List.replicate n opt.fillchar := fun hmem =>
      hfill (List.eq_of_mem_replicate hmem).symm
    rw [expand_eq_self hmem, List.length_replicate]
    exact ⟨fun _ h => absurd h hfill, fun _ => rfl⟩

/-! ### The longest line -/

/-- One turn of the loop of `longest_line_len`. -/
def longer (longest : ℕ) (line : Line) : ℕ :=
  if line.active && decide (longest < line.text.length) then line.text.length else longest

theorem longest_spec (longest : ℕ) (lines : List Line) : longest ≤ lines.foldl longer longest ∧
      (∀ p ∈ lines, p.active = true → p.text.length ≤ lines.foldl longer longest) ∧
      (lines.foldl longer longest = longest ∨
        ∃ p ∈ lines, p.active = true ∧ p.text.length = lines.foldl longer longest) := by
  induction lines generalizing longest with
  | nil =>
      refine ⟨Nat.le_refl _, ?_, .inl rfl⟩
      intro p hp
      cases hp
  | cons q lines ih =>
      obtain ⟨hle, hall, hex⟩ := ih (longer longest q)
      have hq : longest ≤ longer longest q ∧ (q.active = true → q.text.length ≤ longer longest q) ∧
          (longer longest q = longest ∨ q.active = true ∧ q.text.length = longer longest q) := by
        unfold longer
        by_cases hactive : q.active = true
        · by_cases hlt : longest < q.text.length
          · simp [hactive, hlt, hlt.le]
          · simp [hactive, hlt, Nat.le_of_not_lt hlt]
        · simp [hactive]
      rw [List.foldl_cons]
      refine ⟨hq.1.trans hle, ?_, ?_⟩
      · intro p hp hactive
        rcases List.mem_cons.mp hp with rfl | hp
        · exact (hq.2.1 hactive).trans hle
        · exact hall p hp hactive
      · rcases hex with heq | ⟨p, hp, hactive, heq⟩
        · rw [heq]
          rcases hq.2.2 with hsame | ⟨hactive, hlen⟩
          · exact .inl hsame
          · exact .inr ⟨q, List.mem_cons_self, hactive, hlen⟩
        · exact .inr ⟨p, List.mem_cons_of_mem q hp, hactive, heq⟩

theorem doStuffToLine_active (trailer : Text) :
    (doStuffToLine opt trailer line).active = aligns opt trailer line := by
  unfold doStuffToLine
  by_cases h : aligns opt trailer line = true
  · rw [if_pos h, h]
    split
    · exact (aligns_iff.mp h).1.1
    · exact (aligns_iff.mp h).1.1
  · rw [if_neg h]
    exact (Bool.eq_false_iff.mpr h).symm

theorem doStuffToLine_of_aligns {trailer : Text} (h : aligns opt trailer line = true) :
    (doStuffToLine opt trailer line).text = cut trailer line.text ∧
      (doStuffToLine opt trailer line).orgtext = keptText trailer line := by
  unfold doStuffToLine keptText
  rw [if_pos h]
  by_cases hlen : line.orgtext.length ≤ trailer.length
  · rw [if_pos hlen, if_pos hlen]
    exact ⟨rfl, rfl⟩
  · rw [if_neg hlen, if_neg hlen]
    exact ⟨rfl, rfl⟩

theorem longestLineLen_spec (hmem : line ∈ wd.lines)
    (h : aligns opt wd.usedTrail.text line = true) :
    (∀ p ∈ wd.lines, aligns opt wd.usedTrail.text p = true →
      (cut wd.usedTrail.text p.text).length ≤ longestLineLen (doStuffToLines opt wd)) ∧
      ∃ p ∈ wd.lines, aligns opt wd.usedTrail.text p = true ∧
        (cut wd.usedTrail.text p.text).length = longestLineLen (doStuffToLines opt wd) := by
  obtain ⟨_, hall, hex⟩ := longest_spec 0 (doStuffToLines opt wd).lines
  have hle : ∀ p ∈ wd.lines, aligns opt wd.usedTrail.text p = true →
      (cut wd.usedTrail.text p.text).length ≤ longestLineLen (doStuffToLines opt wd) := by
    intro p hp haligns
    rw [← (doStuffToLine_of_aligns haligns).1]
    refine hall _ (List.mem_map_of_mem hp) ?_
    rw [doStuffToLine_active, haligns]
  refine ⟨hle, ?_⟩
  rcases hex with hzero | ⟨q, hq, hactive, heq⟩
  · refine ⟨line, hmem, h, Nat.le_antisymm (hle line hmem h) ?_⟩
    exact (Nat.le_of_eq hzero).trans (Nat.zero_le _)
  · obtain ⟨p, hp, rfl⟩ := List.mem_map.mp hq
    rw [doStuffToLine_active] at hactive
    rw [(doStuffToLine_of_aligns hactive).1] at heq
    exact ⟨p, hp, hactive, heq⟩

theorem fillsize_eq (hcolumn : opt.column = 0) (h : aligns opt wd.usedTrail.text line = true) :
    fillsize opt (doStuffToLines opt wd) (doStuffToLine opt wd.usedTrail.text line) =
      longestLineLen (doStuffToLines opt wd) + opt.padding -
        (cut wd.usedTrail.text line.text).length := by
  have hnewlen : newlen opt (doStuffToLines opt wd) =
      longestLineLen (doStuffToLines opt wd) + wd.usedTrail.text.length + opt.padding := by
    unfold newlen
    rw [hcolumn, if_neg]
    · rfl
    · exact fun hpos => absurd hpos.1 (Nat.lt_irrefl 0)
  unfold fillsize
  rw [hnewlen, (doStuffToLine_of_aligns h).1]
  change _ - _ - wd.usedTrail.text.length = _
  omega

theorem fillCounts_iff (hcolumn : opt.column = 0) (hmem : line ∈ wd.lines)
    (h : aligns opt wd.usedTrail.text line = true) : FillCounts opt wd line ↔
      (opt.fillchar = '\t' → 1 < opt.tabstop →
        fillsize opt (doStuffToLines opt wd) (doStuffToLine opt wd.usedTrail.text line) = 0 ∨
          fillsize opt (doStuffToLines opt wd) (doStuffToLine opt wd.usedTrail.text line) = 1 ∧
            opt.tabstop ∣ (cut wd.usedTrail.text line.text).length + 1) := by
  obtain ⟨hle, q, hq, hqaligns, hqlen⟩ := longestLineLen_spec hmem h
  have hline := hle line hmem h
  rw [fillsize_eq hcolumn h]
  constructor
  · intro hcounts hfill hone
    rcases hcounts hfill hone q hq hqaligns with hbelow | ⟨hnext, hdvd⟩
    · exact .inl (by omega)
    · exact .inr ⟨by omega, hdvd⟩
  · intro hfillsize hfill hone p hp hpaligns
    have hplen := hle p hp hpaligns
    rcases hfillsize hfill hone with hzero | ⟨hnext, hdvd⟩
    · exact .inl (by omega)
    · by_cases hbelow : (cut wd.usedTrail.text p.text).length + opt.padding ≤
          (cut wd.usedTrail.text line.text).length
      · exact .inl hbelow
      · exact .inr ⟨by omega, hdvd⟩

end Fill

/-! ## The result -/

theorem inStep_iff {opt : Opt} {wd : WorkData} {line : Line} (hcolumn : opt.column = 0)
    (hread : Read opt line) (hmem : line ∈ wd.lines) (hinput : wd.outputInput = false) :
    InStep opt (doStuffToLines opt wd) (doStuffToLine opt wd.usedTrail.text line)
        (outputOf opt wd line) ↔ (aligns opt wd.usedTrail.text line = true →
        CutsEvenly opt wd.usedTrail.text line ∧ FillCounts opt wd line) := by
  by_cases h : aligns opt wd.usedTrail.text line = true
  · have hkept := expand_keptText_iff hread h
    have hline := (longestLineLen_spec hmem h).1 line hmem h
    have hwidth : expand opt.tabstop 0 (keptText wd.usedTrail.text line) =
          cut wd.usedTrail.text line.text → ((expand opt.tabstop 0 (outputOf opt wd line)).length =
            longestLineLen (doStuffToLines opt wd) + wd.usedTrail.text.length + opt.padding ↔
          FillCounts opt wd line) := by
      intro heven
      rw [fillCounts_iff hcolumn hmem h, ← length_expand_fill_iff, outputOf_of_aligned hinput h,
        expand_append, expand_append, heven, expand_eq_self (tab_notMem_trailer hread h),
        Nat.zero_add, List.length_append, List.length_append, fillsize_eq hcolumn h]
      omega
    unfold InStep
    rw [doStuffToLine_active, h, (doStuffToLine_of_aligns h).1, (doStuffToLine_of_aligns h).2,
      hkept]
    constructor
    · intro hstep _
      obtain ⟨heven, hlen⟩ := hstep rfl
      exact ⟨heven, (hwidth (hkept.mpr heven)).mp hlen⟩
    · intro hcond _
      obtain ⟨heven, hcounts⟩ := hcond rfl
      exact ⟨heven, (hwidth (hkept.mpr heven)).mpr hcounts⟩
  · unfold InStep
    rw [doStuffToLine_active]
    exact ⟨fun _ haligns => absurd haligns h, fun _ haligns => absurd haligns h⟩

/-- Without `-k`, the aligned lines have the width that is computed if and only if in each
of them the cuts are even and the fill is as wide as it is counted. -/
theorem same_width_iff (opt : Opt) (input : Text) (hcolumn : opt.column = 0) :
    SameWidth opt input ↔
      ((workData opt input).outputInput = false →
        ∀ line ∈ (workData opt input).lines,
          aligns opt (workData opt input).usedTrail.text line = true →
            CutsEvenly opt (workData opt input).usedTrail.text line ∧
              FillCounts opt (workData opt input) line) := by
  have hlines : (workData opt input).lines = (readAllInput opt input).lines :=
    withTrailer_lines opt _
  unfold SameWidth
  rw [tal_eq, ← hlines]
  change (_ → List.Forall₂ _ ((workData opt input).lines.map _) _) ↔ _
  rw [List.forall₂_map_left_iff, List.forall₂_map_right_iff, List.forall₂_same]
  constructor
  · intro hall hinput line hmem
    exact (inStep_iff hcolumn (read_of_mem hmem) hmem hinput).mp (hall hinput line hmem)
  · intro hall hinput line hmem
    exact (inStep_iff hcolumn (read_of_mem hmem) hmem hinput).mpr (hall hinput line hmem)

theorem same_width_iff_tab_before_trailer : SameWidth Opt.default "ab;\ncd\t;\n\nx".toList := by
  refine (same_width_iff Opt.default "ab;\ncd\t;\n\nx".toList rfl).mpr ?_
  intro _ line hmem haligns
  refine ⟨?_, fun hfill => absurd hfill (by decide)⟩
  revert line
  decide

/-- The trailer of the two lines is five columns wide; in the first one it is a tab between
two characters, and two more characters are cut off. -/
theorem expanded_trailer_widths : ¬ SameWidth Opt.default "abcdy\tx\nefghy   x\n".toList := by
  decide

end MiscProjects.Tal
