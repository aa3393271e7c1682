import MiscProjects.Tal.Width

/-!
# The choice of the trailer

For every length, the candidates are counted by a linear search and the most frequent one is
kept.  A longer end of the lines is never more frequent than a shorter one, so that the
search may stop at the first decrease, and the last of the most frequent candidates is a
longest one.
-/

namespace MiscProjects.Tal

/-! ## Frequencies -/

/-- The text as the comparison sees it. -/
def foldCase (igncase : Bool) (s : Text) : Text := if igncase then s.map Char.toLower else s

/-- The number of the active lines that end with the text. -/
def frequency (opt : Opt) (lines : List Line) (s : Text) : ℕ :=
  lines.countP fun p => p.active && endsWith opt s p.text

/-- The text is a longest one among those that end the maximal number of active lines. -/
structure LongestMostFrequent (opt : Opt) (lines : List Line) (s : Text) : Prop where
  nonempty : s ≠ []
  most : ∀ s', s' ≠ [] → frequency opt lines s' ≤ frequency opt lines s
  longest : ∀ s', frequency opt lines s' = frequency opt lines s → s'.length ≤ s.length

section Frequencies
variable {opt : Opt} {lines done : List Line} {igncase : Bool} {s s' a b : Text} {n : ℕ}

theorem sameText_iff : sameText igncase a b = true ↔ foldCase igncase a = foldCase igncase b := by
  cases igncase <;> simp [sameText, foldCase]

theorem length_foldCase : (foldCase igncase s).length = s.length := by
  cases igncase <;> simp [foldCase]

theorem foldCase_drop : foldCase igncase (s.drop n) = (foldCase igncase s).drop n := by
  cases igncase <;> simp [foldCase]

theorem foldCase_suffix (h : a <:+ b) : foldCase igncase a <:+ foldCase igncase b := by
  rw [List.suffix_iff_eq_drop] at h
  rw [h, foldCase_drop]
  exact List.drop_suffix _ _

theorem endsWith_iff : endsWith opt s a = true ↔
    foldCase opt.igncase s <:+ foldCase opt.igncase a := by
  rw [endsWith, Bool.and_eq_true, decide_eq_true_iff, sameText_iff, foldCase_drop,
    List.suffix_iff_eq_drop, length_foldCase, length_foldCase]
  constructor
  · rintro ⟨-, h⟩
    exact h.symm
  · intro h
    have hlength := congrArg List.length h
    rw [List.length_drop, length_foldCase, length_foldCase] at hlength
    exact ⟨by omega, h.symm⟩

theorem frequency_le_of_suffix (h : s' <:+ s) : frequency opt lines s ≤ frequency opt lines s' := by
  apply List.countP_mono_left
  intro p _ hp
  rw [Bool.and_eq_true, endsWith_iff] at hp ⊢
  exact ⟨hp.1, (foldCase_suffix h).trans hp.2⟩

theorem frequency_congr (h : foldCase opt.igncase s = foldCase opt.igncase s') :
    frequency opt lines s = frequency opt lines s' := by
  apply List.countP_congr
  intro p _
  rw [Bool.and_eq_true, Bool.and_eq_true, endsWith_iff, endsWith_iff, h]

theorem frequency_append_singleton (p : Line) : frequency opt (done ++ [p]) s =
    frequency opt done s + if p.active && endsWith opt s p.text then 1 else 0 := by
  rw [frequency, List.countP_append, List.countP_singleton, ← frequency]

end Frequencies

/-! ## Counting the candidates of one length -/

section Counting
variable {opt : Opt} {lines done : List Line} {igncase : Bool} {c : Text} {temple : List Trailer}
  {t u : Trailer} {n : ℕ}

/-- What the trailers of a list look like to the comparison. -/
def keys (igncase : Bool) (temple : List Trailer) : List Text :=
  temple.map fun t => foldCase igncase t.text

@[simp] theorem keys_cons :
    keys igncase (t :: temple) = foldCase igncase t.text :: keys igncase temple := rfl

theorem keys_countCandidate (igncase : Bool) (c : Text) (temple : List Trailer) :
    keys igncase (countCandidate igncase c temple) =
      if foldCase igncase c ∈ keys igncase temple then keys igncase temple
      else keys igncase temple ++ [foldCase igncase c] := by
  induction temple with
  | nil => rfl
  | cons t temple ih =>
      by_cases hsame : foldCase igncase t.text = foldCase igncase c
      · rw [countCandidate, if_pos (sameText_iff.mpr hsame), keys_cons, keys_cons, hsame,
          if_pos List.mem_cons_self]
      · have hne : ¬ foldCase igncase c = foldCase igncase t.text := fun h => hsame h.symm
        rw [countCandidate, if_neg (mt sameText_iff.mp hsame), keys_cons, keys_cons, ih]
        split
        next h => rw [if_pos (List.mem_cons_of_mem _ h)]
        next h => rw [if_neg (List.not_mem_cons_of_ne_of_not_mem hne h), List.cons_append]

theorem mem_countCandidate (hnodup : (keys igncase temple).Nodup)
    (hu : u ∈ countCandidate igncase c temple) : (∃ t ∈ temple, u.text = t.text ∧
        u.freq = t.freq + if foldCase igncase t.text = foldCase igncase c then 1 else 0) ∨
      (u.text = c ∧ u.freq = 1 ∧ foldCase igncase c ∉ keys igncase temple) := by
  induction temple with
  | nil =>
      rw [countCandidate, List.mem_singleton] at hu
      exact Or.inr ⟨hu ▸ rfl, hu ▸ rfl, List.not_mem_nil⟩
  | cons t temple ih =>
      rw [keys_cons, List.nodup_cons] at hnodup
      by_cases hsame : foldCase igncase t.text = foldCase igncase c
      · rw [countCandidate, if_pos (sameText_iff.mpr hsame), List.mem_cons] at hu
        left
        rcases hu with rfl | hu
        · exact ⟨t, List.mem_cons_self, rfl, by rw [if_pos hsame]⟩
        · have hne : foldCase igncase u.text ≠ foldCase igncase c := by
            rw [← hsame]
            exact fun h => hnodup.1 (h ▸ List.mem_map_of_mem hu)
          exact ⟨u, List.mem_cons_of_mem t hu, rfl, by rw [if_neg hne, Nat.add_zero]⟩
      · rw [countCandidate, if_neg (mt sameText_iff.mp hsame), List.mem_cons] at hu
        rcases hu with rfl | hu
        · left
          exact ⟨u, List.mem_cons_self, rfl, by rw [if_neg hsame, Nat.add_zero]⟩
        · rcases ih hnodup.2 hu with ⟨t', ht', h⟩ | ⟨htext, hfreq, hnew⟩
          · exact Or.inl ⟨t', List.mem_cons_of_mem t ht', h⟩
          · refine Or.inr ⟨htext, hfreq, ?_⟩
            rw [keys_cons, List.mem_cons, not_or]
            exact ⟨fun h => hsame h.symm, hnew⟩

/-- The temporary list counts the ends of the lines that have been looked at. -/
structure Counts (opt : Opt) (n : ℕ) (done : List Line) (temple : List Trailer) : Prop where
  nodup : (keys opt.igncase temple).Nodup
  length : ∀ t ∈ temple, t.text.length = n
  freq : ∀ t ∈ temple, t.freq = frequency opt done t.text
  complete : ∀ p ∈ done, p.active = true → n ≤ p.text.length →
    foldCase opt.igncase (p.candidate n) ∈ keys opt.igncase temple

theorem length_candidate {p : Line} (hn : n ≤ p.text.length) : (p.candidate n).length = n := by
  rw [Line.candidate, List.length_drop]
  omega

theorem endsWith_candidate_iff {p : Line} {s : Text} (hs : s.length = n) :
    endsWith opt s p.text = true ↔
      n ≤ p.text.length ∧ foldCase opt.igncase s = foldCase opt.igncase (p.candidate n) := by
  rw [endsWith, Bool.and_eq_true, decide_eq_true_iff, sameText_iff, hs, ← Line.candidate]
  exact and_congr_right fun _ => eq_comm

theorem Counts.addLine (h : Counts opt n done temple) (p : Line) :
    Counts opt n (done ++ [p]) (Tal.addLine opt n temple p) := by
  by_cases hcounted : p.active = true ∧ n ≤ p.text.length
  · obtain ⟨hactive, hn⟩ := hcounted
    have hadd : Tal.addLine opt n temple p = countCandidate opt.igncase (p.candidate n) temple := by
      rw [Tal.addLine, if_neg (by simp [hactive]), if_neg (by omega)]
    have hkeys := keys_countCandidate opt.igncase (p.candidate n) temple
    rw [hadd]
    refine ⟨?_, fun u hu => ?_, fun u hu => ?_, fun q hq hq' hlong => ?_⟩
    · rw [hkeys]
      split
      · exact h.nodup
      next hnew =>
        apply List.nodup_append.mpr
        refine ⟨h.nodup, List.nodup_cons.mpr ⟨List.not_mem_nil, List.nodup_nil⟩, ?_⟩
        intro a ha b hb hab
        rw [List.mem_singleton] at hb
        exact hnew (hb ▸ hab ▸ ha)
    · rcases mem_countCandidate h.nodup hu with ⟨t, ht, htext, -⟩ | ⟨htext, -⟩
      · rw [htext, h.length t ht]
      · rw [htext, length_candidate hn]
    · rw [frequency_append_singleton, hactive, Bool.true_and]
      rcases mem_countCandidate h.nodup hu with ⟨t, ht, htext, hfreq⟩ | ⟨htext, hfreq, hnew⟩
      · rw [hfreq, htext, h.freq t ht]
        simp only [endsWith_candidate_iff (h.length t ht), hn, true_and]
      · have hnone : frequency opt done (p.candidate n) = 0 := by
          rw [frequency, List.countP_eq_zero]
          intro q hq hends
          rw [Bool.and_eq_true, endsWith_candidate_iff (length_candidate hn)] at hends
          exact hnew (hends.2.2 ▸ h.complete q hq hends.1 hends.2.1)
        have hself : endsWith opt (p.candidate n) p.text = true :=
          (endsWith_candidate_iff (length_candidate hn)).mpr ⟨hn, rfl⟩
        rw [hfreq, htext, hnone, if_pos hself]
    · have hmem : foldCase opt.igncase (q.candidate n) ∈ keys opt.igncase temple ∨ q = p := by
        rw [List.mem_append, List.mem_singleton] at hq
        exact hq.imp_left fun hq => h.complete q hq hq' hlong
      rw [hkeys]
      split
      next hold =>
        rcases hmem with hmem | rfl
        · exact hmem
        · exact hold
      next =>
        rcases hmem with hmem | rfl
        · exact List.mem_append_left _ hmem
        · exact List.mem_append_right _ List.mem_cons_self
  · have hadd : Tal.addLine opt n temple p = temple := by
      rw [Tal.addLine]
      split
      · rfl
      next hactive =>
        rw [if_pos]
        exact not_le.mp fun hn => hcounted ⟨by simpa using hactive, hn⟩
    rw [hadd]
    refine ⟨h.nodup, h.length, fun t ht => ?_, fun q hq hq' hlong => ?_⟩
    · have hends : ¬ (p.active && endsWith opt t.text p.text) = true := by
        rw [Bool.and_eq_true, endsWith_candidate_iff (h.length t ht)]
        exact fun hp => hcounted ⟨hp.1, hp.2.1⟩
      rw [frequency_append_singleton, if_neg hends, h.freq t ht]
      rfl
    · rw [List.mem_append, List.mem_singleton] at hq
      rcases hq with hq | rfl
      · exact h.complete q hq hq' hlong
      · exact absurd ⟨hq', hlong⟩ hcounted

theorem counts_lines (opt : Opt) (n : ℕ) (lines : List Line) :
    Counts opt n lines (lines.foldl (Tal.addLine opt n) []) := by
  induction lines using List.reverseRecOn with
  | nil =>
      constructor
      · exact List.nodup_nil
      · exact fun t ht => nomatch ht
      · exact fun t ht => nomatch ht
      · exact fun p hp => nomatch hp
  | append_singleton lines p ih =>
      rw [List.foldl_append]
      exact ih.addLine p

theorem Counts.frequency_eq_zero_or (h : Counts opt n lines temple) (hc : c.length = n) :
    frequency opt lines c = 0 ∨ ∃ t ∈ temple, frequency opt lines c = t.freq := by
  by_cases hmem : foldCase opt.igncase c ∈ keys opt.igncase temple
  · right
    obtain ⟨t, ht, hsame⟩ := List.mem_map.mp hmem
    exact ⟨t, ht, (frequency_congr hsame.symm).trans (h.freq t ht).symm⟩
  · left
    rw [frequency, List.countP_eq_zero]
    intro p hp hends
    rw [Bool.and_eq_true, endsWith_candidate_iff hc] at hends
    exact hmem (hends.2.2 ▸ h.complete p hp hends.1 hends.2.1)

theorem le_foldl_best (t : Trailer) (temple : List Trailer) : ∀ u ∈ t :: temple,
      u.freq ≤ (temple.foldl (fun best t => if best.freq < t.freq then t else best) t).freq := by
  induction temple generalizing t with
  | nil =>
      intro u hu
      rw [List.mem_singleton.mp hu]
      exact le_rfl
  | cons v temple ih =>
      intro u hu
      rw [List.foldl_cons]
      have hbest := ih (if t.freq < v.freq then v else t)
      rw [List.forall_mem_cons] at hbest
      have hle : t.freq ≤ (if t.freq < v.freq then v else t).freq ∧
          v.freq ≤ (if t.freq < v.freq then v else t).freq := by
        split
        next hlt => exact ⟨hlt.le, le_rfl⟩
        next hlt => exact ⟨le_rfl, Nat.le_of_not_lt hlt⟩
      rcases List.mem_cons.mp hu with rfl | hu
      · exact hle.1.trans hbest.1
      · rcases List.mem_cons.mp hu with rfl | hu
        · exact hle.2.trans hbest.1
        · exact hbest.2 u hu

/-- The trailer is the most frequent one of its length. -/
structure Best (opt : Opt) (lines : List Line) (n : ℕ) (t : Trailer) : Prop where
  length : t.text.length = n
  freq : t.freq = frequency opt lines t.text
  most : ∀ c, c.length = n → frequency opt lines c ≤ t.freq

theorem best_mostFrequent (ht : mostFrequent opt lines n = some t) : Best opt lines n t := by
  have hcounts := counts_lines opt n lines
  unfold mostFrequent at ht
  split at ht
  · simp at ht
  next u temple hlist =>
    rw [hlist] at hcounts
    have hmem := mem_of_foldl_best u temple
    have hmost := le_foldl_best u temple
    rw [Option.some.inj ht] at hmem hmost
    refine ⟨hcounts.length t hmem, hcounts.freq t hmem, fun c hc => ?_⟩
    rcases hcounts.frequency_eq_zero_or hc with hzero | ⟨v, hv, heq⟩
    · rw [hzero]
      exact Nat.zero_le _
    · rw [heq]
      exact hmost v hv

theorem frequency_of_mostFrequent_eq_none (hnone : mostFrequent opt lines n = none)
    (hc : c.length = n) : frequency opt lines c = 0 := by
  have hcounts := counts_lines opt n lines
  unfold mostFrequent at hnone
  split at hnone
  next hlist =>
    rw [hlist] at hcounts
    rcases hcounts.frequency_eq_zero_or hc with hzero | ⟨v, hv, _⟩
    · exact hzero
    · cases hv
  · simp at hnone

end Counting

/-! ## The trailers of all lengths -/

section Lengths
variable {opt : Opt} {lines : List Line} {prev t : Trailer} {cur left i : ℕ} {s : Text}

theorem best_trailersFrom
    (ht : (trailersFrom opt lines prev cur left)[i]? = some t) : Best opt lines (cur + i) t := by
  induction left generalizing prev cur i with
  | zero => simp [trailersFrom] at ht
  | succ left ih =>
      rw [trailersFrom] at ht
      split at ht
      · simp at ht
      next u hu =>
        cases i with
        | zero =>
            rw [List.getElem?_cons_zero] at ht
            exact best_mostFrequent (hu.trans ht)
        | succ i =>
            rw [List.getElem?_cons_succ] at ht
            split at ht
            · simp at ht
            · have hbest := ih ht
              rwa [Nat.add_right_comm] at hbest

theorem frequency_beyond (hpref : opt.prefTlen = 0)
    (hlong : ∀ p ∈ lines, p.active = true → p.text.length < cur + left)
    (hs : cur + (trailersFrom opt lines prev cur left).length ≤ s.length) :
    frequency opt lines s ≤ 1 ∨ frequency opt lines s < prev.freq ∨
      ∃ t ∈ trailersFrom opt lines prev cur left, frequency opt lines s < t.freq := by
  induction left generalizing prev cur with
  | zero =>
      left
      rw [frequency, List.countP_eq_zero.mpr]
      · exact Nat.zero_le 1
      · intro p hp hends
        rw [Bool.and_eq_true, endsWith, Bool.and_eq_true, decide_eq_true_iff] at hends
        have := hlong p hp hends.1
        rw [trailersFrom, List.length_nil] at hs
        omega
  | succ left ih =>
      -- the end of the text that has the length looked at
      have hend : s.drop (s.length - cur) <:+ s := List.drop_suffix _ _
      have hlen : (s.drop (s.length - cur)).length = cur := by
        rw [List.length_drop]
        omega
      rw [trailersFrom] at hs ⊢
      cases hmost : mostFrequent opt lines cur with
      | none =>
          have hzero := frequency_of_mostFrequent_eq_none hmost hlen
          have hle : frequency opt lines s ≤ frequency opt lines (s.drop (s.length - cur)) :=
            frequency_le_of_suffix hend
          exact Or.inl (by omega)
      | some t =>
          rw [hmost] at hs
          by_cases hstop : stopsAt opt cur prev t = true
          · have hle := (frequency_le_of_suffix hend).trans ((best_mostFrequent hmost).most _ hlen)
            rw [stopsAt, Bool.and_eq_true, if_neg (by omega), Bool.or_eq_true,
              decide_eq_true_iff, decide_eq_true_iff] at hstop
            rcases hstop.2 with hone | hlt
            · exact Or.inl (hone ▸ hle)
            · exact Or.inr (Or.inl (hle.trans_lt (of_decide_eq_true hlt)))
          · simp only [if_neg hstop, List.length_cons] at hs ⊢
            have hrest := @ih t (cur + 1)
              (fun p hp hp' => by have := hlong p hp hp'; omega) (by omega)
            rcases hrest with hone | hlt | ⟨u, hu, hlt⟩
            · exact Or.inl hone
            · exact Or.inr (Or.inr ⟨t, List.mem_cons_self, hlt⟩)
            · exact Or.inr (Or.inr ⟨u, List.mem_cons_of_mem t hu, hlt⟩)

end Lengths

/-! ## The choice -/

section Choice
variable {opt : Opt} {trailers : List Trailer} {wd : WorkData} {t : Trailer} {i n : ℕ} {c : Char}

/-- One turn of the loop that looks for the most frequent trailer. -/
def later (trailers : List Trailer) (most i : ℕ) : ℕ :=
  if freqAt trailers most ≤ freqAt trailers i then i else most

theorem foldl_later_spec (trailers : List Trailer) (n : ℕ) :
    (List.range (n + 1)).foldl (later trailers) 0 ≤ n ∧
      ∀ i ≤ n, freqAt trailers i ≤ freqAt trailers ((List.range (n + 1)).foldl (later trailers) 0) ∧
        (freqAt trailers i = freqAt trailers ((List.range (n + 1)).foldl (later trailers) 0) →
          i ≤ (List.range (n + 1)).foldl (later trailers) 0) := by
  induction n with
  | zero => simp [List.range_succ, later]
  | succ n ih =>
      rw [List.range_succ, List.foldl_append, List.foldl_cons, List.foldl_nil]
      generalize (List.range (n + 1)).foldl (later trailers) 0 = most at ih ⊢
      obtain ⟨hle, hmost⟩ := ih
      unfold later
      split
      next hlast =>
        refine ⟨le_rfl, fun i hi => ⟨?_, fun _ => hi⟩⟩
        rcases Nat.lt_or_eq_of_le hi with hlt | rfl
        · exact (hmost i (Nat.le_of_lt_succ hlt)).1.trans hlast
        · exact le_rfl
      next hlast =>
        refine ⟨hle.trans (Nat.le_succ n), fun i hi => ?_⟩
        rcases Nat.lt_or_eq_of_le hi with hlt | rfl
        · exact hmost i (Nat.le_of_lt_succ hlt)
        · exact ⟨(Nat.lt_of_not_le hlast).le, fun heq => absurd heq.ge hlast⟩

theorem tmostfreq_spec (hne : trailers ≠ []) : tmostfreq trailers < trailers.length ∧
    ∀ i < trailers.length, freqAt trailers i ≤ freqAt trailers (tmostfreq trailers) ∧
      (freqAt trailers i = freqAt trailers (tmostfreq trailers) → i ≤ tmostfreq trailers) := by
  obtain ⟨n, hn⟩ := Nat.exists_eq_succ_of_ne_zero (mt List.eq_nil_of_length_eq_zero hne)
  have hspec := foldl_later_spec trailers n
  rw [← Nat.succ_eq_add_one, ← hn] at hspec
  refine ⟨?_, fun i hi => hspec.2 i (by omega)⟩
  rw [hn]
  exact Nat.lt_succ_of_le hspec.1

theorem shorten_le (trailers : List Trailer) (i : ℕ) : shorten trailers i ≤ i := by
  induction i with
  | zero => exact le_rfl
  | succ i ih =>
      rw [shorten]
      split
      · exact ih.trans (Nat.le_succ i)
      · exact le_rfl

theorem head_shorten (ht : trailers[shorten trailers i]? = some t)
    (hne : shorten trailers i ≠ 0) : t.text.head? ≠ some ' ' := by
  induction i with
  | zero => exact absurd rfl hne
  | succ i ih =>
      rw [shorten] at ht hne
      split at ht
      next hblank =>
        rw [if_pos hblank] at hne
        exact ih ht hne
      next hblank =>
        rw [ht] at hblank
        exact hblank

/-- The trailers of the list of lines. -/
def trailersOf (opt : Opt) (wd : WorkData) : List Trailer :=
  trailersFrom opt wd.lines { text := [], freq := 0 } 1 (longestLineLen wd)

/-- What is known about the lines that are considered. -/
def Trimmed (wd : WorkData) : Prop :=
  ∀ p ∈ wd.lines, p.active = true → ∃ c, p.text.getLast? = some c ∧ isSpace c = false

theorem freqAt_eq (ht : trailers[i]? = some t) : freqAt trailers i = t.freq := by
  rw [freqAt, ht, Option.map_some, Option.getD_some]

theorem best_trailersOf (ht : (trailersOf opt wd)[i]? = some t) : Best opt wd.lines (i + 1) t := by
  rw [Nat.add_comm]
  exact best_trailersFrom ht

theorem freqAt_antitone (hn : n ≤ i) (hi : i < (trailersOf opt wd).length) :
    freqAt (trailersOf opt wd) i ≤ freqAt (trailersOf opt wd) n := by
  have hlong := best_trailersOf (List.getElem?_eq_getElem hi)
  have hshort := best_trailersOf (List.getElem?_eq_getElem (hn.trans_lt hi))
  rw [freqAt_eq (List.getElem?_eq_getElem hi),
    freqAt_eq (List.getElem?_eq_getElem (hn.trans_lt hi)), hlong.freq]
  -- the end of the longer trailer competed with the shorter one
  apply (frequency_le_of_suffix (List.drop_suffix (i - n) _)).trans
  apply hshort.most
  rw [List.length_drop, hlong.length]
  omega

theorem length_le_longestLineLen {p : Line} (hp : p ∈ wd.lines) (hactive : p.active = true) :
    p.text.length ≤ longestLineLen wd :=
  (longest_spec 0 wd.lines).2.1 p hp hactive

theorem trailersOf_of_common (hc : 2 ≤ frequency opt wd.lines [c]) :
    trailersOf opt wd ≠ [] ∧ 2 ≤ freqAt (trailersOf opt wd) 0 := by
  obtain ⟨p, hp, hends⟩ := List.countP_pos_iff.mp (Nat.lt_of_lt_of_le Nat.two_pos hc)
  rw [Bool.and_eq_true, endsWith_candidate_iff (n := 1) rfl] at hends
  obtain ⟨longest, hlongest⟩ := Nat.exists_eq_add_of_le'
    (hends.2.1.trans (length_le_longestLineLen hp hends.1))
  unfold trailersOf
  rw [hlongest, trailersFrom]
  cases hmost : mostFrequent opt wd.lines 1 with
  | none =>
      rw [frequency_of_mostFrequent_eq_none hmost rfl] at hc
      exact absurd hc (by decide)
  | some t => exact ⟨List.cons_ne_nil _ _, hc.trans ((best_mostFrequent hmost).most [c] rfl)⟩

theorem longestMostFrequent_tmostfreq (hpref : opt.prefTlen = 0)
    (hc : 2 ≤ frequency opt wd.lines [c])
    (ht : (trailersOf opt wd)[tmostfreq (trailersOf opt wd)]? = some t) :
    LongestMostFrequent opt wd.lines t.text := by
  have hbest := best_trailersOf ht
  have hcommon := trailersOf_of_common hc
  obtain ⟨hmost, hspec⟩ := tmostfreq_spec hcommon.1
  rw [freqAt_eq ht] at hspec
  have htwo : 2 ≤ t.freq := hcommon.2.trans (hspec 0 (List.length_pos_iff.mpr hcommon.1)).1
  have hall : ∀ s, s ≠ [] → frequency opt wd.lines s < t.freq ∨
      frequency opt wd.lines s = t.freq ∧ s.length ≤ t.text.length := by
    intro s hs
    have hpos := List.length_pos_iff.mpr hs
    by_cases hshort : s.length ≤ (trailersOf opt wd).length
    · have hi : s.length - 1 < (trailersOf opt wd).length := by omega
      have hrival := best_trailersOf (List.getElem?_eq_getElem hi)
      have hle := hrival.most s (by omega)
      have hlast := hspec _ hi
      rw [freqAt_eq (List.getElem?_eq_getElem hi)] at hlast
      rcases Nat.lt_or_eq_of_le (hle.trans hlast.1) with hlt | heq
      · exact Or.inl hlt
      · have := hlast.2 (Nat.le_antisymm hlast.1 (heq ▸ hle))
        rw [hbest.length]
        exact Or.inr ⟨heq, by omega⟩
    · left
      have hlong : ∀ p ∈ wd.lines, p.active = true → p.text.length < 1 + longestLineLen wd := by
        intro p hp hactive
        rw [Nat.add_comm]
        exact Nat.lt_succ_of_le (length_le_longestLineLen hp hactive)
      rcases frequency_beyond hpref hlong
        (show 1 + (trailersOf opt wd).length ≤ s.length by omega) with hone | hlt | ⟨u, hu, hlt⟩
      · omega
      · exact absurd hlt (Nat.not_lt_zero _)
      · obtain ⟨i, hi : (trailersOf opt wd)[i]? = some u⟩ := List.mem_iff_getElem?.mp hu
        have hle := (hspec i (List.getElem?_eq_some_iff.mp hi).1).1
        rw [freqAt_eq hi] at hle
        exact hlt.trans_le hle
  refine ⟨?_, fun s hs => ?_, fun s hs => ?_⟩
  · apply List.ne_nil_of_length_pos
    rw [hbest.length]
    exact Nat.succ_pos _
  · rw [← hbest.freq]
    rcases hall s hs with hlt | ⟨heq, _⟩
    · exact hlt.le
    · exact heq.le
  · rw [← hbest.freq] at hs
    by_cases hnil : s = []
    · rw [hnil]
      exact Nat.zero_le _
    · rcases hall s hnil with hlt | ⟨_, hle⟩
      · exact absurd hs hlt.ne
      · exact hle

/-- The trailer that is used. -/
structure GoodTrailer (opt : Opt) (wd : WorkData) (used : Trailer) : Prop where
  /-- It is as frequent as the one found first, which is a longest of the most frequent. -/
  frequent : ∃ t, (trailersOf opt wd)[tmostfreq (trailersOf opt wd)]? = some t ∧
    LongestMostFrequent opt wd.lines t.text ∧
    frequency opt wd.lines used.text = frequency opt wd.lines t.text
  freq : used.freq = frequency opt wd.lines used.text
  head : used.text.head? ≠ some ' '
  noTab : (∀ p ∈ wd.lines, p.active = true → '\t' ∉ p.text) → '\t' ∉ used.text

theorem countActiveLines_doStuffToLines (hmaxalign : opt.maxalign = 0) :
    countActiveLines (doStuffToLines opt wd) = frequency opt wd.lines wd.usedTrail.text := by
  rw [countActiveLines, doStuffToLines, List.countP_map, frequency]
  apply List.countP_congr
  intro p _
  rw [Function.comp_apply, doStuffToLine_active, aligns, hmaxalign]
  simp

theorem head_of_length_one {s : Text} (htrimmed : Trimmed wd) (hends : EndsLine wd.lines s)
    (hone : s.length = 1) : s.head? ≠ some ' ' := by
  obtain ⟨p, hp, hactive, a, ha⟩ := hends
  obtain ⟨d, hlast, hd⟩ := htrimmed p hp hactive
  obtain ⟨e, rfl⟩ := List.length_eq_one_iff.mp hone
  rw [← ha, List.getLast?_concat, Option.some.injEq] at hlast
  rw [List.head?_cons, hlast, ne_eq, Option.some.injEq]
  rintro rfl
  exact absurd hd (by decide)

theorem goodTrailer_chosen (hpref : opt.prefTlen = 0) (htrimmed : Trimmed wd)
    (hc : 2 ≤ frequency opt wd.lines [c]) :
    ∃ used, (trailersOf opt wd)[chosen opt (trailersOf opt wd)]? = some used ∧
      GoodTrailer opt wd used := by
  obtain ⟨hmost, hspec⟩ := tmostfreq_spec (trailersOf_of_common hc).1
  have hle := shorten_le (trailersOf opt wd) (tmostfreq (trailersOf opt wd))
  have hchosen : chosen opt (trailersOf opt wd) =
      shorten (trailersOf opt wd) (tmostfreq (trailersOf opt wd)) := by
    simp [chosen, hpref]
  obtain ⟨t, ht⟩ : ∃ t, (trailersOf opt wd)[tmostfreq (trailersOf opt wd)]? = some t :=
    ⟨_, List.getElem?_eq_getElem hmost⟩
  obtain ⟨used, hused⟩ : ∃ used, (trailersOf opt wd)[shorten (trailersOf opt wd)
      (tmostfreq (trailersOf opt wd))]? = some used :=
    ⟨_, List.getElem?_eq_getElem (hle.trans_lt hmost)⟩
  have hbest := best_trailersOf hused
  have hends : EndsLine wd.lines used.text := endsLine_trailersFrom _ (List.mem_of_getElem? hused)
  rw [hchosen]
  refine ⟨used, hused, ⟨t, ht, longestMostFrequent_tmostfreq hpref hc ht, ?_⟩, hbest.freq, ?_, ?_⟩
  · rw [← hbest.freq, ← (best_trailersOf ht).freq, ← freqAt_eq hused, ← freqAt_eq ht]
    exact Nat.le_antisymm (hspec _ (hle.trans_lt hmost)).1 (freqAt_antitone hle hmost)
  · by_cases hzero : shorten (trailersOf opt wd) (tmostfreq (trailersOf opt wd)) = 0
    · exact head_of_length_one htrimmed hends (by rw [hbest.length, hzero])
    · exact head_shorten hused hzero
  · intro htabs htab
    obtain ⟨p, hp, hactive, hsuffix⟩ := hends
    exact htabs p hp hactive (hsuffix.subset htab)

/-- The trailer is the best one, although the search stops at the first decrease. -/
theorem find_a_good_trailer_correct (opt : Opt) (wd : WorkData) (htrailer : opt.trailer = none)
    (hpref : opt.prefTlen = 0) (htrimmed : Trimmed wd)
    (hcommon : ∃ c, 2 ≤ frequency opt wd.lines [c]) :
    GoodTrailer opt wd (withTrailer opt wd).usedTrail ∧
      (withTrailer opt wd).outputInput = wd.outputInput ∧
      (opt.maxalign = 0 → countActiveLines (doStuffToLines opt (withTrailer opt wd)) =
        frequency opt wd.lines (withTrailer opt wd).usedTrail.text) := by
  obtain ⟨c, hc⟩ := hcommon
  obtain ⟨used, hused, hgood⟩ := goodTrailer_chosen hpref htrimmed hc
  obtain ⟨t, -, hlongest, hsame⟩ := hgood.frequent
  have hactive : countActiveLines wd ≠ 0 := by
    intro hnone
    have hle : frequency opt wd.lines [c] ≤ countActiveLines wd := by
      apply List.countP_mono_left
      intro p _ hp
      exact (Bool.and_eq_true _ _ ▸ hp).1
    omega
  have htwo : 2 ≤ used.freq := by
    rw [hgood.freq, hsame]
    exact hc.trans (hlongest.most [c] (List.cons_ne_nil c []))
  have hwith : withTrailer opt wd = { wd with usedTrail := used } := by
    rw [withTrailer, htrailer]
    simp only [findAGoodTrailer, if_neg hactive]
    rw [← trailersOf, hused]
    simp [Nat.not_lt_of_le htwo]
  rw [hwith]
  exact ⟨hgood, rfl, countActiveLines_doStuffToLines⟩

theorem find_a_good_trailer_correct_semicolons : GoodTrailer Opt.default
    (readAllInput Opt.default "ab;\ncd;\nx".toList)
    (withTrailer Opt.default (readAllInput Opt.default "ab;\ncd;\nx".toList)).usedTrail :=
  (find_a_good_trailer_correct Opt.default (readAllInput Opt.default "ab;\ncd;\nx".toList) rfl rfl
    (by
      have hlines : (readAllInput Opt.default "ab;\ncd;\nx".toList).lines =
          ["ab;".toList, "cd;".toList, "x".toList].map fun s => ⟨s, s, true⟩ := by rfl
      intro p hp _
      rw [hlines] at hp
      simp only [List.map_cons, List.map_nil, List.mem_cons, List.not_mem_nil, or_false] at hp
      rcases hp with rfl | rfl | rfl
      · exact ⟨';', rfl, rfl⟩
      · exact ⟨';', rfl, rfl⟩
      · exact ⟨'x', rfl, rfl⟩)
    ⟨';', by decide⟩).1

end Choice

end MiscProjects.Tal
