import MiscProjects.Tal.Content
import MiscProjects.Tal.Trailer

/-!
# The bounds of the arrays

The array of the lines grows by 100 elements, when a line is read and there is no room for it.
The array of the trailers has an element for each length at first, and grows by 100 when the
temporary list of the trailers of one length, which begins at the element of that length,
reaches its end.

Here each function lists the elements that it accesses, with the size that the array has at
that time.  What the functions compute is taken from the other modules.
-/

namespace MiscProjects.Tal.Bounds

inductive ArrayName
  | lines
  | trailers
deriving DecidableEq

/-- An access to an element of an array that has `size` elements. -/
structure Access where
  array : ArrayName
  index : ℕ
  size : ℕ
deriving DecidableEq

def Access.InBounds (a : Access) : Prop := a.index < a.size

instance (a : Access) : Decidable a.InBounds := inferInstanceAs (Decidable (_ < _))

/-! ## The array of the lines -/

/-- The loop of `read_all_input` over what `fgets` returns, with `anz_lines` and `lines_size`.
An empty string ends it after the array has grown. -/
def readAccesses : List Text → ℕ → ℕ → List Access × ℕ
  | [], _, linesSize => ([], linesSize)
  | inputBuffer :: buffers, anzLines, linesSize =>
      let linesSize := if anzLines = linesSize then linesSize + 100 else linesSize
      if cstring inputBuffer = [] then ([⟨.lines, anzLines, linesSize⟩], linesSize)
      else
        let rest := readAccesses buffers (anzLines + 1) linesSize
        (⟨.lines, anzLines, linesSize⟩ :: rest.1, rest.2)

/-- A loop over all lines, as in `longest_line_len`, `count_active_lines`,
`do_stuff_to_lines` and `output_aligned_lines`. -/
def scanLines (anzLines linesSize : ℕ) : List Access :=
  (List.range anzLines).map fun i => ⟨.lines, i, linesSize⟩

/-! ## The array of the trailers -/

/-- The temporary list of trailers, with the size of the array and the space that is left
behind the list. -/
structure Temple where
  entries : List Trailer
  trailersSize : ℕ
  templeSpace : ℕ

/-- `texist`, for a list that begins at the index `start`; `i` entries have been compared. -/
def texistAccesses (opt : Opt) (wanted : Text) (start trailersSize : ℕ) :
    List Trailer → ℕ → List Access
  | [], _ => []
  | t :: temple, i =>
      ⟨.trailers, start + i, trailersSize⟩ ::
        if sameText opt.igncase t.text wanted then []
        else texistAccesses opt wanted start trailersSize temple (i + 1)

/-- The trailer list is full, and its size is increased. -/
def Temple.grow (t : Temple) : Temple :=
  if t.templeSpace = 0 then
    { t with trailersSize := t.trailersSize + 100, templeSpace := t.templeSpace + 100 }
  else t

/-- What the loop that lists the trailers of one length does with a line. -/
def considerLine (opt : Opt) (curTlen : ℕ) (t : Temple) (p : Line) : List Access × Temple :=
  if !p.active then ([], t)
  else if p.text.length < curTlen then ([], t)
  else
    let candidate := p.candidate curTlen
    let entries := countCandidate opt.igncase candidate t.entries
    let compared := texistAccesses opt candidate (curTlen - 1) t.trailersSize t.entries 0
    if t.entries.any (sameText opt.igncase ·.text candidate) then (compared, { t with entries })
    else
      let t' := t.grow
      (compared ++ [⟨.trailers, curTlen - 1 + t.entries.length, t'.trailersSize⟩],
        { t' with entries, templeSpace := t'.templeSpace - 1 })

/-- The rest of that loop, from the line `i` on.  The next line is read before the counter is
tested. -/
def listAccesses (opt : Opt) (curTlen linesSize : ℕ) :
    List Line → ℕ → Temple → List Access × Temple
  | [], _, t => ([], t)
  | p :: lines, i, t =>
      let turn := considerLine opt curTlen t p
      let rest := listAccesses opt curTlen linesSize lines (i + 1) turn.2
      (turn.1 ++ ⟨.lines, i + 1, linesSize⟩ :: rest.1, rest.2)

/-- A loop that looks for the entry with the best frequency, `i` being the index of the next
entry and `most` that of the best one. -/
def mostAccesses (better : ℕ → ℕ → Bool) (start trailersSize : ℕ) :
    List Trailer → ℕ → ℕ → ℕ → List Access × ℕ
  | [], _, most, _ => ([], most)
  | t :: temple, i, most, freq =>
      let rest := if better t.freq freq then
          mostAccesses better start trailersSize temple (i + 1) i t.freq
        else mostAccesses better start trailersSize temple (i + 1) most freq
      (⟨.trailers, start + i, trailersSize⟩ :: ⟨.trailers, start + most, trailersSize⟩ :: rest.1,
        rest.2)

/-- The accesses to the entries from `i` on, of which there are `n`. -/
def entryAccesses (start trailersSize i n : ℕ) : List Access :=
  (List.range' i n).map fun i => ⟨.trailers, start + i, trailersSize⟩

/-- The most frequent trailer is put up front, and the others are deleted. -/
def selectAccesses (start trailersSize : ℕ) (temple : List Trailer) : List Access :=
  let most := mostAccesses (fun new best => decide (best < new)) start trailersSize temple.tail 1 0
    (freqAt temple 0)
  most.1 ++ [⟨.trailers, start, trailersSize⟩, ⟨.trailers, start + most.2, trailersSize⟩] ++
    entryAccesses start trailersSize 1 (temple.length - 1)

/-- The test whether the frequency is decreasing or one. -/
def stopAccesses (opt : Opt) (curTlen trailersSize : ℕ) (t : Trailer) : List Access :=
  if 1 < curTlen ∧ opt.prefTlen = 0 then
    ⟨.trailers, curTlen - 1, trailersSize⟩ ::
      if t.freq = 1 then []
      else [⟨.trailers, curTlen - 1, trailersSize⟩, ⟨.trailers, curTlen - 2, trailersSize⟩]
  else []

/-- The accesses for one length, and the size of the array after them. -/
def lengthAccesses (opt : Opt) (lines : List Line) (linesSize curTlen trailersSize : ℕ) :
    List Access × ℕ :=
  let listed := listAccesses opt curTlen linesSize lines 0
    ⟨[], trailersSize, trailersSize - (curTlen - 1)⟩
  (⟨.lines, 0, linesSize⟩ :: listed.1 ++
      selectAccesses (curTlen - 1) listed.2.trailersSize listed.2.entries,
    listed.2.trailersSize)

/-- The accesses for the lengths from `curTlen` on, `left` of them at most. -/
def searchAccesses (opt : Opt) (lines : List Line) (linesSize : ℕ) :
    Trailer → ℕ → ℕ → ℕ → List Access × ℕ
  | _, _, 0, trailersSize => ([], trailersSize)
  | prev, curTlen, left + 1, trailersSize =>
      let first := lengthAccesses opt lines linesSize curTlen trailersSize
      match mostFrequent opt lines curTlen with
      | none => first
      | some t =>
          let stop := stopAccesses opt curTlen first.2 t
          if stopsAt opt curTlen prev t then (first.1 ++ stop, first.2)
          else
            let rest := searchAccesses opt lines linesSize t (curTlen + 1) left first.2
            (first.1 ++ stop ++ rest.1, rest.2)

/-- The loop that avoids a trailer that starts with a blank. -/
def shortenAccesses (trailers : List Trailer) (trailersSize : ℕ) : ℕ → List Access
  | 0 => []
  | i + 1 =>
      ⟨.trailers, i + 1, trailersSize⟩ ::
        if (trailers[i + 1]?.bind (·.text.head?)) = some ' ' then
          shortenAccesses trailers trailersSize i
        else []

/-- The choice of one of the trailers, and the destruction of the list. -/
def chooseAccesses (opt : Opt) (trailers : List Trailer) (trailersSize : ℕ) : List Access :=
  (mostAccesses (fun new best => decide (best ≤ new)) 0 trailersSize trailers.tail 1 0
      (freqAt trailers 0)).1 ++
    (if opt.prefTlen = 0 then shortenAccesses trailers trailersSize (tmostfreq trailers) else []) ++
    ⟨.trailers, chosen opt trailers, trailersSize⟩ ::
    entryAccesses 0 trailersSize 0 trailers.length

def findAccesses (opt : Opt) (wd : WorkData) (linesSize : ℕ) : List Access :=
  let scan := scanLines wd.lines.length linesSize
  if countActiveLines wd = 0 then scan ++ scan
  else
    let search := searchAccesses opt wd.lines linesSize { text := [], freq := 0 } 1
      (longestLineLen wd) (longestLineLen wd)
    scan ++ scan ++ search.1 ++ chooseAccesses opt (trailersOf opt wd) search.2

/-! ## The program -/

/-- Cutting the trailers and printing.  The longest line is looked for again unless there is a
column. -/
def alignAccesses (opt : Opt) (wd : WorkData) (linesSize : ℕ) : List Access :=
  let scan := scanLines wd.lines.length linesSize
  if wd.outputInput then scan
  else if 0 < opt.column ∧ (opt.maxalign = 0 ∨ opt.column ≤ opt.maxalign) then scan ++ scan
  else scan ++ scan ++ scan

/-- All accesses of a run. -/
def accesses (opt : Opt) (input : Text) : List Access :=
  let reading := readAccesses (fgets LINE_MAX [] input) 0 100
  let wd := readAllInput opt input
  reading.1 ++ ⟨.lines, 0, reading.2⟩ ::
    if wd.exitSoon then []
    else
      (if opt.trailer.isNone then findAccesses opt wd reading.2 else []) ++
        alignAccesses opt (withTrailer opt wd) reading.2

/-! ## Statement -/

/-- No trailer is given, and the input has a multiple of 100 lines, one of which is not blank.
None of them begins with a zero byte, which would end the reading after the array has grown. -/
def FillsArray (opt : Opt) (input : Text) : Prop :=
  let buffers := fgets LINE_MAX [] input
  opt.trailer = none ∧ (∃ b ∈ buffers, stripEnd (cstring b) ≠ []) ∧ 100 ∣ buffers.length ∧
    ∀ b ∈ buffers, cstring b ≠ []

instance (opt : Opt) (input : Text) : Decidable (FillsArray opt input) :=
  inferInstanceAs (Decidable (_ ∧ _))

/-! ## Reading -/

section Reading
variable {opt : Opt} {buffers : List Text} {anzLines linesSize : ℕ}

/-- The array has room for the lines, in the last of its parts of 100 elements. -/
structure Room (anzLines linesSize : ℕ) : Prop where
  dvd : 100 ∣ linesSize
  pos : 0 < linesSize
  le : anzLines ≤ linesSize
  last : linesSize < anzLines + 100 ∨ linesSize = 100

theorem room_start : Room 0 100 := ⟨by decide, by decide, by decide, .inr rfl⟩

theorem Room.grow (h : Room anzLines linesSize) :
    let linesSize' := if anzLines = linesSize then linesSize + 100 else linesSize
    anzLines < linesSize' ∧ Room (anzLines + 1) linesSize' := by
  obtain ⟨hdvd, hpos, hle, hlast⟩ := h
  dsimp only
  split <;> exact ⟨by omega, by omega, by omega, by omega, by omega⟩

theorem Room.lt_iff (h : Room anzLines linesSize) (hlines : 0 < anzLines) :
    anzLines < linesSize ↔ ¬ 100 ∣ anzLines := by
  obtain ⟨hdvd, -, hle, hlast⟩ := h
  omega

theorem readAccesses_spec (buffers : List Text) (h : Room anzLines linesSize) :
    (∀ a ∈ (readAccesses buffers anzLines linesSize).1, a.InBounds) ∧
      ((∀ b ∈ buffers, cstring b ≠ []) →
        Room (anzLines + buffers.length) (readAccesses buffers anzLines linesSize).2) ∧
      ((¬ ∀ b ∈ buffers, cstring b ≠ []) → anzLines + (buffers.takeWhile (cstring · ≠ [])).length <
          (readAccesses buffers anzLines linesSize).2) := by
  induction buffers generalizing anzLines linesSize with
  | nil => exact ⟨nofun, fun _ => h, fun hnot => absurd nofun hnot⟩
  | cons b buffers ih =>
      obtain ⟨hlt, hroom⟩ := h.grow
      obtain ⟨hbounds, hall, hstop⟩ := ih hroom
      rw [readAccesses]
      by_cases hempty : cstring b = []
      · rw [if_pos hempty]
        refine ⟨?_, fun hne => absurd hempty (hne b List.mem_cons_self), fun _ => ?_⟩
        · intro a ha
          rw [List.mem_singleton.mp ha]
          exact hlt
        · rw [List.takeWhile_cons_of_neg (by simpa using hempty)]
          exact hlt
      · rw [if_neg hempty]
        refine ⟨?_, fun hne => ?_, fun hnot => ?_⟩
        · intro a ha
          rcases List.mem_cons.mp ha with rfl | ha
          · exact hlt
          · exact hbounds a ha
        · have hrest := hall fun b' hb' => hne b' (List.mem_cons_of_mem b hb')
          rwa [Nat.add_assoc, Nat.add_comm 1] at hrest
        · rw [List.takeWhile_cons_of_pos (by simpa using hempty), List.length_cons]
          have hrest := hstop fun hne => hnot (List.forall_mem_cons.mpr ⟨hempty, hne⟩)
          rwa [Nat.add_assoc, Nat.add_comm 1] at hrest

theorem length_readAllInput (opt : Opt) (input : Text) : (readAllInput opt input).lines.length =
      ((fgets LINE_MAX [] input).takeWhile (cstring · ≠ [])).length := by
  rw [readAllInput, List.length_map]

theorem lines_readAllInput (opt : Opt) (hne : ∀ b ∈ fgets LINE_MAX [] input, cstring b ≠ []) :
    (readAllInput opt input).lines = (fgets LINE_MAX [] input).map (readLine opt) := by
  rw [readAllInput, List.takeWhile_eq_self_iff.mpr fun b hb => decide_eq_true (hne b hb)]

theorem active_readLine (opt : Opt) (b : Text) :
    (readLine opt b).active = true ↔ stripEnd (cstring b) ≠ [] := by
  rw [readLine]
  split
  · next hempty => exact iff_of_false Bool.false_ne_true (not_not_intro hempty)
  · next hne => exact iff_of_true rfl hne

theorem fillsArray_iff (opt : Opt) (input : Text) : FillsArray opt input ↔
      opt.trailer = none ∧ (∃ p ∈ (readAllInput opt input).lines, p.active = true) ∧
        100 ∣ (readAllInput opt input).lines.length ∧
        ∀ b ∈ fgets LINE_MAX [] input, cstring b ≠ [] := by
  by_cases hne : ∀ b ∈ fgets LINE_MAX [] input, cstring b ≠ []
  · have hactive : (∃ p ∈ (fgets LINE_MAX [] input).map (readLine opt), p.active = true) ↔
        ∃ b ∈ fgets LINE_MAX [] input, stripEnd (cstring b) ≠ [] := by
      simp only [List.mem_map, exists_exists_and_eq_and, active_readLine]
    rw [lines_readAllInput opt hne, List.length_map, hactive, FillsArray]
  · exact iff_of_false (fun h => hne h.2.2.2) fun h => hne h.2.2.2

theorem linesSize_spec (opt : Opt) (input : Text) :
    (readAllInput opt input).lines.length ≤ (readAccesses (fgets LINE_MAX [] input) 0 100).2 ∧
      0 < (readAccesses (fgets LINE_MAX [] input) 0 100).2 ∧
      (0 < (readAllInput opt input).lines.length →
        ((readAllInput opt input).lines.length < (readAccesses (fgets LINE_MAX [] input) 0 100).2 ↔
          ¬ (100 ∣ (readAllInput opt input).lines.length ∧
            ∀ b ∈ fgets LINE_MAX [] input, cstring b ≠ []))) := by
  obtain ⟨-, hall, hstop⟩ := readAccesses_spec (fgets LINE_MAX [] input) room_start
  rw [length_readAllInput]
  by_cases hne : ∀ b ∈ fgets LINE_MAX [] input, cstring b ≠ []
  · have hroom := hall hne
    rw [Nat.zero_add] at hroom
    rw [List.takeWhile_eq_self_iff.mpr fun b hb => decide_eq_true (hne b hb)]
    refine ⟨hroom.le, hroom.pos, fun hpos => ?_⟩
    rw [hroom.lt_iff hpos]
    exact not_congr (iff_self_and.mpr fun _ => hne)
  · have hlt := hstop hne
    rw [Nat.zero_add] at hlt
    refine ⟨hlt.le, Nat.zero_lt_of_lt hlt, fun _ => iff_of_true hlt fun h => hne h.2⟩

end Reading

/-! ## The temporary list -/

section Temple
variable {opt : Opt} {t : Temple} {p : Line} {entries temple : List Trailer} {lines : List Line}
  {wanted : Text} {curTlen start trailersSize linesSize i most : ℕ}

/-- The list begins at `start`, and with the space behind it ends with the array. -/
def Temple.Fits (start : ℕ) (t : Temple) : Prop :=
  start + t.entries.length + t.templeSpace = t.trailersSize

theorem length_countCandidate (igncase : Bool) (c : Text) (temple : List Trailer) :
    (countCandidate igncase c temple).length =
      if temple.any (sameText igncase ·.text c) then temple.length else temple.length + 1 := by
  induction temple with
  | nil => rfl
  | cons t temple ih =>
      rw [countCandidate, List.any_cons]
      by_cases hsame : sameText igncase t.text c = true
      · simp [hsame]
      · rw [if_neg hsame, List.length_cons, ih, Bool.eq_false_iff.mpr hsame, Bool.false_or]
        split <;> rfl

theorem texistAccesses_inBounds (hfits : start + i + temple.length ≤ trailersSize) :
    ∀ a ∈ texistAccesses opt wanted start trailersSize temple i, a.InBounds := by
  induction temple generalizing i with
  | nil => exact nofun
  | cons t temple ih =>
      rw [List.length_cons] at hfits
      rw [texistAccesses, List.forall_mem_cons]
      constructor
      · show start + i < trailersSize
        omega
      · split
        · exact nofun
        · exact ih (by omega)

theorem Temple.Fits.grow (h : t.Fits start) :
    t.grow.Fits start ∧ 0 < t.grow.templeSpace ∧ t.trailersSize ≤ t.grow.trailersSize ∧
      t.grow.entries = t.entries := by
  rw [Temple.grow]
  split
  · refine ⟨?_, Nat.succ_pos _, Nat.le_add_right _ _, rfl⟩
    simp only [Temple.Fits] at h ⊢
    omega
  · next hspace => exact ⟨h, Nat.pos_of_ne_zero hspace, Nat.le_refl _, rfl⟩

theorem considerLine_spec (opt : Opt) (p : Line) (h : t.Fits (curTlen - 1)) :
    (∀ a ∈ (considerLine opt curTlen t p).1, a.InBounds) ∧
      (considerLine opt curTlen t p).2.Fits (curTlen - 1) ∧
      t.trailersSize ≤ (considerLine opt curTlen t p).2.trailersSize ∧
      (considerLine opt curTlen t p).2.entries = addLine opt curTlen t.entries p := by
  rw [considerLine, addLine]
  split
  · exact ⟨List.forall_mem_nil _, h, Nat.le_refl _, rfl⟩
  · split
    · exact ⟨List.forall_mem_nil _, h, Nat.le_refl _, rfl⟩
    · have hcompared : ∀ a ∈ texistAccesses opt (p.candidate curTlen) (curTlen - 1) t.trailersSize
          t.entries 0, a.InBounds := texistAccesses_inBounds (by rw [Temple.Fits] at h; omega)
      have hlength := length_countCandidate opt.igncase (p.candidate curTlen) t.entries
      dsimp only
      split
      · next hfound =>
        rw [if_pos hfound] at hlength
        refine ⟨hcompared, ?_, Nat.le_refl _, rfl⟩
        rw [Temple.Fits] at h ⊢
        rwa [hlength]
      · next hnew =>
        rw [if_neg hnew] at hlength
        obtain ⟨hfits, hspace, hle, hentries⟩ := h.grow
        rw [Temple.Fits, hentries] at hfits
        refine ⟨?_, ?_, hle, rfl⟩
        · intro a ha
          rcases List.mem_append.mp ha with ha | ha
          · exact hcompared a ha
          · rw [List.mem_singleton.mp ha]
            show curTlen - 1 + t.entries.length < t.grow.trailersSize
            omega
        · rw [Temple.Fits]
          simp only [hlength]
          omega

theorem listAccesses_spec (opt : Opt) (lines : List Line) (linesSize i : ℕ)
    (h : t.Fits (curTlen - 1)) : (i + lines.length < linesSize →
        ∀ a ∈ (listAccesses opt curTlen linesSize lines i t).1, a.InBounds) ∧
      (listAccesses opt curTlen linesSize lines i t).2.Fits (curTlen - 1) ∧
      t.trailersSize ≤ (listAccesses opt curTlen linesSize lines i t).2.trailersSize := by
  induction lines generalizing i t with
  | nil => exact ⟨fun _ => nofun, h, Nat.le_refl _⟩
  | cons p lines ih =>
      obtain ⟨hturn, hfits, hle, -⟩ := considerLine_spec opt p h
      obtain ⟨hrest, hfits', hle'⟩ := ih (i + 1) hfits
      rw [listAccesses]
      refine ⟨fun hroom => ?_, hfits', hle.trans hle'⟩
      rw [List.length_cons] at hroom
      intro a ha
      rcases List.mem_append.mp ha with ha | ha
      · exact hturn a ha
      · rcases List.mem_cons.mp ha with rfl | ha
        · show i + 1 < linesSize
          omega
        · exact hrest (by omega) a ha

theorem entries_listAccesses (h : t.Fits (curTlen - 1)) :
    (listAccesses opt curTlen linesSize lines i t).2.entries =
      lines.foldl (addLine opt curTlen) t.entries := by
  induction lines generalizing i t with
  | nil => rfl
  | cons p lines ih =>
      obtain ⟨-, hfits, -, hentries⟩ := considerLine_spec opt p h
      rw [listAccesses, List.foldl_cons, ← hentries]
      exact ih hfits

theorem mem_listAccesses (opt : Opt) (curTlen linesSize i : ℕ) (t : Temple) (hne : lines ≠ []) :
    ⟨.lines, i + lines.length, linesSize⟩ ∈ (listAccesses opt curTlen linesSize lines i t).1 := by
  induction lines generalizing i t with
  | nil => exact absurd rfl hne
  | cons p lines ih =>
      rw [listAccesses, List.mem_append]
      refine .inr ?_
      by_cases hlast : lines = []
      · subst hlast
        exact List.mem_cons_self
      · have hrest := ih (i + 1) (considerLine opt curTlen t p).2 hlast
        rw [Nat.add_assoc, Nat.add_comm 1] at hrest
        exact List.mem_cons_of_mem _ hrest

theorem mostAccesses_spec (better : ℕ → ℕ → Bool) (freq : ℕ) (hmost : most < i)
    (hfits : start + i + temple.length ≤ trailersSize) :
    (∀ a ∈ (mostAccesses better start trailersSize temple i most freq).1, a.InBounds) ∧
      (mostAccesses better start trailersSize temple i most freq).2 < i + temple.length := by
  induction temple generalizing i most freq with
  | nil => exact ⟨nofun, hmost⟩
  | cons t temple ih =>
      rw [List.length_cons] at hfits ⊢
      obtain ⟨hall, hlt⟩ : (∀ a ∈ (if better t.freq freq then
            mostAccesses better start trailersSize temple (i + 1) i t.freq
          else mostAccesses better start trailersSize temple (i + 1) most freq).1, a.InBounds) ∧
          (if better t.freq freq then
            mostAccesses better start trailersSize temple (i + 1) i t.freq
          else mostAccesses better start trailersSize temple (i + 1) most freq).2 <
            i + 1 + temple.length := by
        split
        · exact ih t.freq (Nat.lt_succ_self i) (by omega)
        · exact ih freq (Nat.lt_succ_of_lt hmost) (by omega)
      rw [mostAccesses]
      refine ⟨?_, by dsimp only; omega⟩
      rw [List.forall_mem_cons, List.forall_mem_cons]
      refine ⟨?_, ?_, hall⟩
      · show start + i < trailersSize
        omega
      · show start + most < trailersSize
        omega

theorem entryAccesses_inBounds {n : ℕ} (hfits : start + i + n ≤ trailersSize) :
    ∀ a ∈ entryAccesses start trailersSize i n, a.InBounds := by
  intro a ha
  obtain ⟨j, hj, rfl⟩ := List.mem_map.mp ha
  obtain ⟨-, hlt⟩ := List.mem_range'_1.mp hj
  show start + j < trailersSize
  omega

theorem selectAccesses_inBounds (hstart : start < trailersSize)
    (hfits : start + temple.length ≤ trailersSize) :
    ∀ a ∈ selectAccesses start trailersSize temple, a.InBounds := by
  have hlength : temple.tail.length = temple.length - 1 := List.length_tail
  have hroom : start + 1 + temple.tail.length ≤ trailersSize := by omega
  obtain ⟨hall, hlt⟩ := mostAccesses_spec (fun new best => decide (best < new)) (freqAt temple 0)
    Nat.zero_lt_one hroom
  intro a ha
  rw [selectAccesses, List.mem_append, List.mem_append, List.mem_cons, List.mem_singleton] at ha
  rcases ha with (ha | rfl | rfl) | ha
  · exact hall a ha
  · exact hstart
  · exact Nat.lt_of_lt_of_le (Nat.add_lt_add_left hlt start) (by rw [← Nat.add_assoc]; exact hroom)
  · exact entryAccesses_inBounds (by omega) a ha

theorem stopAccesses_inBounds {t : Trailer} (hstart : curTlen - 1 < trailersSize) :
    ∀ a ∈ stopAccesses opt curTlen trailersSize t, a.InBounds := by
  have hbefore : curTlen - 2 < trailersSize := by omega
  rw [stopAccesses]
  split
  · split <;> simp [Access.InBounds, hstart, hbefore]
  · exact nofun

end Temple

/-! ## The search -/

section Search
variable {opt : Opt} {wd : WorkData} {lines : List Line} {trailers : List Trailer}
  {prev : Trailer} {curTlen left trailersSize linesSize i : ℕ}

theorem fits_empty (hlength : curTlen - 1 < trailersSize) :
    Temple.Fits (curTlen - 1) ⟨[], trailersSize, trailersSize - (curTlen - 1)⟩ := by
  simp only [Temple.Fits, List.length_nil]
  omega

theorem lengthAccesses_spec (opt : Opt) (lines : List Line) (linesSize : ℕ)
    (hlength : curTlen - 1 < trailersSize) : (lines.length < linesSize →
        ∀ a ∈ (lengthAccesses opt lines linesSize curTlen trailersSize).1, a.InBounds) ∧
      trailersSize ≤ (lengthAccesses opt lines linesSize curTlen trailersSize).2 := by
  obtain ⟨hlisted, hfits, hle⟩ := listAccesses_spec opt lines linesSize 0 (fits_empty hlength)
  refine ⟨fun hroom => ?_, hle⟩
  rw [Nat.zero_add] at hlisted
  rw [Temple.Fits] at hfits
  intro a ha
  rw [lengthAccesses, List.mem_append, List.mem_cons] at ha
  rcases ha with (rfl | ha) | ha
  · exact Nat.zero_lt_of_lt hroom
  · exact hlisted hroom a ha
  · exact selectAccesses_inBounds (Nat.lt_of_lt_of_le hlength hle) (by omega) a ha

theorem mem_lengthAccesses (opt : Opt) (linesSize curTlen trailersSize : ℕ) (hne : lines ≠ []) :
    ⟨.lines, lines.length, linesSize⟩ ∈
      (lengthAccesses opt lines linesSize curTlen trailersSize).1 := by
  have hmem := mem_listAccesses opt curTlen linesSize 0
    ⟨[], trailersSize, trailersSize - (curTlen - 1)⟩ hne
  rw [Nat.zero_add] at hmem
  exact List.mem_append_left _ (List.mem_cons_of_mem _ hmem)

theorem searchAccesses_spec (opt : Opt) (lines : List Line) (linesSize : ℕ) (prev : Trailer)
    (hpos : 0 < curTlen) (hlength : curTlen - 1 + left ≤ trailersSize) : (lines.length < linesSize →
        ∀ a ∈ (searchAccesses opt lines linesSize prev curTlen left trailersSize).1, a.InBounds) ∧
      trailersSize ≤ (searchAccesses opt lines linesSize prev curTlen left trailersSize).2 := by
  induction left generalizing prev curTlen trailersSize with
  | zero => exact ⟨fun _ => nofun, Nat.le_refl _⟩
  | succ left ih =>
      obtain ⟨hfirst, hle⟩ := lengthAccesses_spec opt lines linesSize
        (show curTlen - 1 < trailersSize by omega)
      rw [searchAccesses]
      split
      · exact ⟨hfirst, hle⟩
      · next t _ =>
        have hstop : ∀ a ∈ stopAccesses opt curTlen
            (lengthAccesses opt lines linesSize curTlen trailersSize).2 t, a.InBounds :=
          stopAccesses_inBounds (by omega)
        dsimp only
        split
        · refine ⟨fun hroom a ha => ?_, hle⟩
          exact (List.mem_append.mp ha).elim (hfirst hroom a) (hstop a)
        · obtain ⟨hrest, hle'⟩ := ih t (Nat.succ_pos curTlen) (show curTlen + 1 - 1 + left ≤
              (lengthAccesses opt lines linesSize curTlen trailersSize).2 by omega)
          refine ⟨fun hroom a ha => ?_, hle.trans hle'⟩
          rcases List.mem_append.mp ha with ha | ha
          · exact (List.mem_append.mp ha).elim (hfirst hroom a) (hstop a)
          · exact hrest hroom a ha

theorem mem_searchAccesses (hne : lines ≠ []) (hleft : 0 < left) :
    ⟨.lines, lines.length, linesSize⟩ ∈
      (searchAccesses opt lines linesSize prev curTlen left trailersSize).1 := by
  obtain ⟨left, rfl⟩ := Nat.exists_eq_succ_of_ne_zero (Nat.ne_of_gt hleft)
  have hmem := mem_lengthAccesses opt linesSize curTlen trailersSize hne
  rw [searchAccesses]
  split
  · exact hmem
  · dsimp only
    split
    · exact List.mem_append_left _ hmem
    · exact List.mem_append_left _ (List.mem_append_left _ hmem)

/-! ## The choice -/

theorem length_trailersFrom_le (curTlen left : ℕ) :
    (trailersFrom opt lines prev curTlen left).length ≤ left := by
  induction left generalizing prev curTlen with
  | zero => exact Nat.le_refl 0
  | succ left ih =>
      rw [trailersFrom]
      split
      · exact Nat.zero_le _
      · rw [List.length_cons]
        split
        · exact Nat.succ_le_succ (Nat.zero_le left)
        · exact Nat.succ_le_succ (ih _)

theorem tmostfreq_le (trailers : List Trailer) : tmostfreq trailers ≤ trailers.length - 1 := by
  by_cases hne : trailers = []
  · subst hne
    exact Nat.le_refl 0
  · exact Nat.le_sub_one_of_lt (tmostfreq_spec hne).1

theorem chosen_le (opt : Opt) (trailers : List Trailer) :
    chosen opt trailers ≤ trailers.length - 1 := by
  have hmost := tmostfreq_le trailers
  rw [chosen]
  split
  · split
    · split <;> omega
    · split <;> omega
  · exact (shorten_le trailers _).trans hmost

theorem shortenAccesses_inBounds (hi : i < trailersSize) :
    ∀ a ∈ shortenAccesses trailers trailersSize i, a.InBounds := by
  induction i with
  | zero => exact nofun
  | succ i ih =>
      rw [shortenAccesses, List.forall_mem_cons]
      refine ⟨hi, ?_⟩
      split
      · exact ih (Nat.lt_of_succ_lt hi)
      · exact nofun

theorem chooseAccesses_inBounds (hpos : 0 < trailersSize) (hle : trailers.length ≤ trailersSize) :
    ∀ a ∈ chooseAccesses opt trailers trailersSize, a.InBounds := by
  have hlength : trailers.tail.length = trailers.length - 1 := List.length_tail
  have hmost := tmostfreq_le trailers
  have hchosen := chosen_le opt trailers
  have hroom : 0 + 1 + trailers.tail.length ≤ trailersSize := by omega
  obtain ⟨hall, -⟩ := mostAccesses_spec (fun new best => decide (best ≤ new)) (freqAt trailers 0)
    Nat.zero_lt_one hroom
  intro a ha
  rw [chooseAccesses, List.mem_append, List.mem_append, List.mem_cons] at ha
  rcases ha with (ha | ha) | rfl | ha
  · exact hall a ha
  · split at ha
    · exact shortenAccesses_inBounds (by omega) a ha
    · cases ha
  · show chosen opt trailers < trailersSize
    omega
  · exact entryAccesses_inBounds (by omega) a ha

end Search

/-! ## The program -/

section Program
variable {opt : Opt} {wd : WorkData} {input : Text} {anzLines linesSize : ℕ}

theorem scanLines_inBounds (hle : anzLines ≤ linesSize) :
    ∀ a ∈ scanLines anzLines linesSize, a.InBounds := by
  intro a ha
  obtain ⟨i, hi, rfl⟩ := List.mem_map.mp ha
  exact Nat.lt_of_lt_of_le (List.mem_range.mp hi) hle

theorem alignAccesses_inBounds (hle : wd.lines.length ≤ linesSize) :
    ∀ a ∈ alignAccesses opt wd linesSize, a.InBounds := by
  have hscan := scanLines_inBounds hle
  intro a ha
  rw [alignAccesses] at ha
  apply hscan
  split at ha
  · exact ha
  · split at ha <;> simpa using ha

theorem longestLineLen_pos {p : Line} (hp : p ∈ (readAllInput opt input).lines)
    (hactive : p.active = true) : 0 < longestLineLen (readAllInput opt input) := by
  apply Nat.lt_of_lt_of_le _ (length_le_longestLineLen hp hactive)
  obtain ⟨b, -, rfl⟩ := List.mem_map.mp hp
  by_cases hne : stripEnd (cstring b) = []
  · rw [readLine, if_pos hne] at hactive
    exact absurd hactive Bool.false_ne_true
  · rw [readLine, if_neg hne]
    obtain ⟨c, s, hs⟩ := List.exists_cons_of_ne_nil hne
    have hroom : 0 < LINE_MAX * opt.tabstop - 1 := by
      have htabstop := opt.tabstop_pos
      rw [LINE_MAX]
      omega
    rw [hs, expandTabsInto, expandFrom_cons, if_pos hroom]
    split
    · rw [List.length_append, List.length_replicate]
      have htabstop := opt.tabstop_pos
      simp only [Nat.zero_mod]
      omega
    · exact Nat.succ_pos _

theorem countActiveLines_ne_zero_iff :
    countActiveLines wd ≠ 0 ↔ ∃ p ∈ wd.lines, p.active = true := by
  rw [countActiveLines, ← Nat.pos_iff_ne_zero, List.countP_pos_iff]

theorem findAccesses_inBounds_iff (hle : wd.lines.length ≤ linesSize)
    (hlongest : countActiveLines wd ≠ 0 → 0 < longestLineLen wd) :
    (∀ a ∈ findAccesses opt wd linesSize, a.InBounds) ↔
      (countActiveLines wd ≠ 0 → wd.lines.length < linesSize) := by
  have hscan := scanLines_inBounds hle
  rw [findAccesses]
  by_cases hcount : countActiveLines wd = 0
  · refine iff_of_true ?_ fun hne => absurd hcount hne
    rw [if_pos hcount]
    intro a ha
    exact hscan a (by simpa using ha)
  · have hpos := hlongest hcount
    have hne : wd.lines ≠ [] := by
      obtain ⟨p, hp, -⟩ := countActiveLines_ne_zero_iff.mp hcount
      exact List.ne_nil_of_mem hp
    obtain ⟨hsearch, hsize⟩ := searchAccesses_spec opt wd.lines linesSize
      { text := [], freq := 0 } Nat.zero_lt_one
      (show 1 - 1 + longestLineLen wd ≤ longestLineLen wd by omega)
    rw [if_neg hcount]
    constructor
    · intro h _
      apply h ⟨.lines, wd.lines.length, linesSize⟩
      apply List.mem_append_left
      apply List.mem_append_right
      exact mem_searchAccesses hne hpos
    · intro h a ha
      rw [List.mem_append, List.mem_append, List.mem_append] at ha
      rcases ha with ((ha | ha) | ha) | ha
      · exact hscan a ha
      · exact hscan a ha
      · exact hsearch (h hcount) a ha
      · apply chooseAccesses_inBounds (Nat.lt_of_lt_of_le hpos hsize) _ a ha
        exact (length_trailersFrom_le 1 (longestLineLen wd)).trans hsize

end Program

/-! ## Main result -/

section Result
variable {opt : Opt} {input : Text}

/-- What is accessed is what the search accesses, if there is a search, and what is accessed
without one stays inside the array. -/
theorem accesses_inBounds_iff_find (opt : Opt) (input : Text)
    (hne : (readAllInput opt input).lines ≠ []) : (∀ a ∈ accesses opt input, a.InBounds) ↔
      (opt.trailer = none → ∀ a ∈ findAccesses opt (readAllInput opt input)
        (readAccesses (fgets LINE_MAX [] input) 0 100).2, a.InBounds) := by
  obtain ⟨hle, hpos, -⟩ := linesSize_spec opt input
  have hreading := (readAccesses_spec (fgets LINE_MAX [] input) room_start).1
  have halign : ∀ a ∈ alignAccesses opt (withTrailer opt (readAllInput opt input))
      (readAccesses (fgets LINE_MAX [] input) 0 100).2, a.InBounds :=
    alignAccesses_inBounds (by rwa [withTrailer_lines])
  have hexit : (readAllInput opt input).exitSoon = false := by
    rw [readAllInput] at hne ⊢
    exact List.isEmpty_eq_false_iff.mpr hne
  rw [accesses]
  simp only [hexit, Bool.false_eq_true, if_false, Option.isNone_iff_eq_none]
  constructor
  · intro h htrailer a ha
    apply h a
    apply List.mem_append_right
    apply List.mem_cons_of_mem
    exact List.mem_append_left _ (by rwa [if_pos htrailer])
  · intro hfind a ha
    rw [List.mem_append, List.mem_cons, List.mem_append] at ha
    rcases ha with ha | rfl | ha | ha
    · exact hreading a ha
    · exact hpos
    · split at ha
      · next htrailer => exact hfind htrailer a ha
      · cases ha
    · exact halign a ha

theorem accesses_inBounds_of_nil (hnil : (readAllInput opt input).lines = []) :
    ∀ a ∈ accesses opt input, a.InBounds := by
  obtain ⟨-, hpos, -⟩ := linesSize_spec opt input
  have hreading := (readAccesses_spec (fgets LINE_MAX [] input) room_start).1
  have hexit : (readAllInput opt input).exitSoon = true := by
    rw [readAllInput] at hnil ⊢
    exact List.isEmpty_iff.mpr hnil
  intro a ha
  rw [accesses] at ha
  simp only [hexit, if_true, List.mem_append, List.mem_singleton] at ha
  rcases ha with ha | rfl
  · exact hreading a ha
  · exact hpos

theorem accesses_inBounds_iff_lt (opt : Opt) (input : Text)
    (hne : (readAllInput opt input).lines ≠ []) : (∀ a ∈ accesses opt input, a.InBounds) ↔
      (opt.trailer = none → (∃ p ∈ (readAllInput opt input).lines, p.active = true) →
        (readAllInput opt input).lines.length <
          (readAccesses (fgets LINE_MAX [] input) 0 100).2) := by
  obtain ⟨hle, -, -⟩ := linesSize_spec opt input
  have hlongest : countActiveLines (readAllInput opt input) ≠ 0 →
      0 < longestLineLen (readAllInput opt input) := by
    intro hcount
    obtain ⟨p, hp, hactive⟩ := countActiveLines_ne_zero_iff.mp hcount
    exact longestLineLen_pos hp hactive
  rw [accesses_inBounds_iff_find opt input hne, findAccesses_inBounds_iff hle hlongest,
    countActiveLines_ne_zero_iff]

theorem FillsArray.not_inBounds (h : FillsArray opt input) :
    ¬ ∀ a ∈ accesses opt input, a.InBounds := by
  intro hbounds
  obtain ⟨htrailer, hactive, hfills⟩ := (fillsArray_iff opt input).mp h
  have hne : (readAllInput opt input).lines ≠ [] := by
    obtain ⟨p, hp, -⟩ := hactive
    exact List.ne_nil_of_mem hp
  have hlt := (accesses_inBounds_iff_lt opt input hne).mp hbounds htrailer hactive
  exact ((linesSize_spec opt input).2.2 (List.length_pos_of_ne_nil hne)).mp hlt hfills

/-- Every access is inside its array unless the lines fill the array and a trailer is looked for
in them. -/
theorem accesses_inBounds_iff (opt : Opt) (input : Text) :
    (∀ a ∈ accesses opt input, a.InBounds) ↔ ¬ FillsArray opt input := by
  constructor
  · intro hbounds hfills
    exact hfills.not_inBounds hbounds
  · intro hnot
    by_cases hnil : (readAllInput opt input).lines = []
    · exact accesses_inBounds_of_nil hnil
    · apply (accesses_inBounds_iff_lt opt input hnil).mpr
      intro htrailer hactive
      apply ((linesSize_spec opt input).2.2 (List.length_pos_of_ne_nil hnil)).mpr
      intro hfills
      exact hnot ((fillsArray_iff opt input).mpr ⟨htrailer, hactive, hfills⟩)

end Result

theorem fgets_short (n : ℕ) :
    fgets LINE_MAX [] (List.replicate n ['x', '\n']).flatten = List.replicate n ['x', '\n'] := by
  induction n with
  | zero => rfl
  | succ n ih =>
      rw [List.replicate_succ, List.flatten_cons]
      exact congrArg (['x', '\n'] :: ·) ih

theorem hundred_lines_fill : FillsArray Opt.default (List.replicate 100 ['x', '\n']).flatten := by
  have hlines := fgets_short 100
  rw [FillsArray, hlines, List.length_replicate]
  have hmem : ['x', '\n'] ∈ List.replicate 100 ['x', '\n'] :=
    List.mem_replicate.mpr ⟨by decide, rfl⟩
  refine ⟨rfl, ⟨_, hmem, by decide⟩, Nat.dvd_refl 100, ?_⟩
  intro b hb
  rw [List.eq_of_mem_replicate hb]
  decide

/-- A hundred lines of one character lead to an access behind the array of the lines. -/
theorem hundred_lines_outOfBounds :
    ¬ ∀ (opt : Opt) (input : Text), ∀ a ∈ accesses opt input, a.InBounds := fun h =>
  hundred_lines_fill.not_inBounds (h _ _)

end MiscProjects.Tal.Bounds
