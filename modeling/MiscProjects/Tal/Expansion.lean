import MiscProjects.Tal.Align

/-!
# What white space, tabs and case leave of a text

The content of a text is what is left of it without blanks and tabs.  Expanding
tabs and cutting off trailing white space keep the content, and texts that are
the same up to case have contents that are.
-/

namespace MiscProjects.Tal

def isBlank (c : Char) : Bool := c = ' ' || c = '\t'

/-- The text without its blanks and tabs. -/
def content (s : Text) : Text := s.filter (!isBlank ·)

/-! ## Content -/

section Content
variable {s a b : Text} {c : Char}

@[simp] theorem content_append : content (a ++ b) = content a ++ content b := List.filter_append a b

theorem content_eq_nil (h : ∀ c ∈ s, isBlank c = true) : content s = [] := by
  rw [content, List.filter_eq_nil_iff]
  intro c hc
  simp [h c hc]

theorem content_eq_self (h : ∀ c ∈ s, isBlank c = false) : content s = s := by
  rw [content, List.filter_eq_self]
  intro c hc
  simp [h c hc]

theorem mem_content : c ∈ content s ↔ c ∈ s ∧ isBlank c = false := by
  simp [content, List.mem_filter]

theorem isSpace_eq_isBlank (hc : c ≠ '\n') : isSpace c = isBlank c := by
  simp [isSpace, isBlank, hc]

theorem mem_of_mem_stripEnd (hc : c ∈ stripEnd s) : c ∈ s :=
  (List.rdropWhile_prefix isSpace (l := s)).subset hc

theorem content_stripEnd (hs : '\n' ∉ s) : content (stripEnd s) = content s := by
  have hparts : s = stripEnd s ++ s.rtakeWhile isSpace := List.rdropWhile_append_rtakeWhile.symm
  have hblank : content (s.rtakeWhile isSpace) = [] := by
    apply content_eq_nil
    intro c hc
    have hmem : c ∈ s := (List.rtakeWhile_suffix isSpace s).subset hc
    have hspace : isSpace c = true := List.mem_rtakeWhile_imp hc
    rwa [isSpace_eq_isBlank (ne_of_mem_of_not_mem hmem hs)] at hspace
  calc content (stripEnd s) = content (stripEnd s) ++ content (s.rtakeWhile isSpace) := by
        rw [hblank, List.append_nil]
    _ = content s := by rw [← content_append, ← hparts]

theorem stripEnd_eq (hs : '\n' ∉ s) : stripEnd s = s.rdropWhile isBlank := by
  induction s using List.reverseRecOn with
  | nil => rfl
  | append_singleton s c ih =>
      have hc : c ≠ '\n' := by
        rintro rfl
        exact hs (by simp)
      have hrest := ih fun hmem => hs (List.mem_append_left _ hmem)
      rw [stripEnd] at hrest ⊢
      rw [List.rdropWhile_concat, List.rdropWhile_concat, isSpace_eq_isBlank hc, hrest]

end Content

/-! ## Expansion -/

section Expansion
variable {tabstop io : ℕ} {s : Text} {c : Char}

/-- Expanding all tabs, in a buffer without bounds. -/
def expand (tabstop : ℕ) : ℕ → Text → Text
  | _, [] => []
  | io, c :: s =>
      if c = '\t' then
        List.replicate (tabstop - io % tabstop) ' ' ++
          expand tabstop (io + (tabstop - io % tabstop)) s
      else c :: expand tabstop (io + 1) s

theorem expand_nil : expand tabstop io [] = [] := rfl

theorem expand_cons : expand tabstop io (c :: s) =
      if c = '\t' then
        List.replicate (tabstop - io % tabstop) ' ' ++
          expand tabstop (io + (tabstop - io % tabstop)) s
      else c :: expand tabstop (io + 1) s := rfl

theorem expandFrom_nil : expandFrom tabstop io [] = [] := rfl

theorem expandFrom_cons : expandFrom tabstop io (c :: s) =
      if io < LINE_MAX * tabstop - 1 then
        if c = '\t' then
          List.replicate (tabstop - io % tabstop) ' ' ++
            expandFrom tabstop (io + (tabstop - io % tabstop)) s
        else c :: expandFrom tabstop (io + 1) s
      else [] := rfl

theorem expandFrom_eq (hpos : 0 < tabstop)
    (hroom : io + s.length * tabstop < LINE_MAX * tabstop + tabstop - 1) :
    expandFrom tabstop io s = expand tabstop io s := by
  induction s generalizing io with
  | nil => rfl
  | cons c s ih =>
      rw [List.length_cons, Nat.succ_mul] at hroom
      have hmod : io % tabstop < tabstop := Nat.mod_lt io hpos
      rw [expandFrom_cons, if_pos (by omega), expand_cons]
      by_cases htab : c = '\t'
      · rw [if_pos htab, if_pos htab, ih (by omega)]
      · rw [if_neg htab, if_neg htab, ih (by omega)]

theorem expandTabsInto_eq (hpos : 0 < tabstop) (hlen : s.length < LINE_MAX) :
    expandTabsInto s tabstop = expand tabstop 0 s := by
  apply expandFrom_eq hpos
  have hmul : (s.length + 1) * tabstop ≤ LINE_MAX * tabstop := Nat.mul_le_mul_right tabstop hlen
  rw [Nat.succ_mul] at hmul
  omega

theorem expand_append (a b : Text) : expand tabstop io (a ++ b) =
      expand tabstop io a ++ expand tabstop (io + (expand tabstop io a).length) b := by
  induction a generalizing io with
  | nil => simp [expand_nil]
  | cons c a ih =>
      rw [List.cons_append, expand_cons, expand_cons]
      by_cases htab : c = '\t'
      · simp [htab, ih, Nat.add_assoc]
      · simp [htab, ih, Nat.add_assoc, Nat.add_comm 1]

theorem length_le_expand (hpos : 0 < tabstop) : s.length ≤ (expand tabstop io s).length := by
  induction s generalizing io with
  | nil => simp [expand_nil]
  | cons c s ih =>
      have hmod : io % tabstop < tabstop := Nat.mod_lt io hpos
      rw [expand_cons]
      split
      · rw [List.length_append, List.length_replicate, List.length_cons]
        have hrest := @ih (io + (tabstop - io % tabstop))
        omega
      · rw [List.length_cons, List.length_cons]
        exact Nat.succ_le_succ ih

theorem content_expand : content (expand tabstop io s) = content s := by
  induction s generalizing io with
  | nil => rfl
  | cons c s ih =>
      rw [expand_cons]
      split
      next htab =>
        have hblank : content (List.replicate (tabstop - io % tabstop) ' ') = [] := by
          apply content_eq_nil
          intro c hc
          rw [List.eq_of_mem_replicate hc]
          rfl
        rw [content_append, hblank, ih, htab]
        rfl
      next htab =>
        have hhead : ∀ s, content (c :: s) = content [c] ++ content s := fun s =>
          content_append (a := [c]) (b := s)
        rw [hhead, ih, ← hhead]

theorem mem_expandFrom (hc : c ∈ expandFrom tabstop io s) : c = ' ' ∨ c ∈ s := by
  induction s generalizing io with
  | nil => simp [expandFrom_nil] at hc
  | cons d s ih =>
      rw [expandFrom_cons] at hc
      split at hc
      · split at hc
        · rcases List.mem_append.mp hc with hblank | hrest
          · exact Or.inl (List.eq_of_mem_replicate hblank)
          · exact (ih hrest).imp_right (List.mem_cons_of_mem _)
        · rcases List.mem_cons.mp hc with hsame | hrest
          · exact Or.inr (hsame ▸ List.mem_cons_self)
          · exact (ih hrest).imp_right (List.mem_cons_of_mem _)
      · simp at hc

end Expansion

/-! ## Case -/

section Case
variable {igncase : Bool} {a b : Text}

theorem toLower_eq_iff {c d : Char} (hd : d.val.toNat < 65) : c.toLower = d ↔ c = d := by
  unfold Char.toLower
  by_cases hupper : c.val ≥ 'A'.val ∧ c.val ≤ 'Z'.val
  · rw [dif_pos hupper]
    have hlow : 65 ≤ c.val.toNat := UInt32.le_iff_toNat_le.mp hupper.1
    have hhigh : c.val.toNat ≤ 90 := UInt32.le_iff_toNat_le.mp hupper.2
    have hsum : (c.val + ('a'.val - 'A'.val)).toNat = c.val.toNat + 32 := by
      rw [UInt32.toNat_add]
      change (c.val.toNat + 32) % 2 ^ 32 = c.val.toNat + 32
      omega
    constructor
    · rintro rfl
      rw [hsum] at hd
      omega
    · rintro rfl
      omega
  · rw [dif_neg hupper]

theorem isBlank_toLower (c : Char) : isBlank c.toLower = isBlank c := by
  have hblank : c.toLower = ' ' ↔ c = ' ' := toLower_eq_iff (by decide)
  have htab : c.toLower = '\t' ↔ c = '\t' := toLower_eq_iff (by decide)
  simp [isBlank, hblank, htab]

theorem content_map_toLower (s : Text) :
    (content s).map Char.toLower = content (s.map Char.toLower) := by
  rw [content, content, List.filter_map]
  congr 1
  apply List.filter_congr
  intro c _
  simp [isBlank_toLower]

theorem sameText_refl (a : Text) : sameText igncase a a = true := by
  cases igncase <;> simp [sameText]

theorem sameText_length (h : sameText igncase a b = true) : a.length = b.length := by
  cases igncase
  · simp only [sameText, Bool.false_eq_true, if_false, decide_eq_true_eq] at h
    rw [h]
  · simp only [sameText, if_true, decide_eq_true_eq] at h
    simpa using congrArg List.length h

theorem sameText_content (h : sameText igncase a b = true) :
    sameText igncase (content a) (content b) = true := by
  cases igncase
  · simp only [sameText, Bool.false_eq_true, if_false, decide_eq_true_eq] at h ⊢
    rw [h]
  · simp only [sameText, if_true, decide_eq_true_eq] at h ⊢
    rw [content_map_toLower, content_map_toLower, h]

theorem nul_mem_of_sameText (h : sameText igncase a b = true) (hnul : NUL ∈ a) : NUL ∈ b := by
  cases igncase
  · simp only [sameText, Bool.false_eq_true, if_false, decide_eq_true_eq] at h
    exact h ▸ hnul
  · simp only [sameText, if_true, decide_eq_true_eq] at h
    have hmem : NUL.toLower ∈ b.map Char.toLower := h ▸ List.mem_map_of_mem hnul
    obtain ⟨c, hc, hlower⟩ := List.mem_map.mp hmem
    have hsame : c = NUL := (toLower_eq_iff (by decide)).mp hlower
    exact hsame ▸ hc

end Case

end MiscProjects.Tal
