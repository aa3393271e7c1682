import MiscProjects.Tal.Input

/-!
# Choosing the trailer and aligning the lines

`find_a_good_trailer` collects, for each length, a most frequent end of the
lines with their tabs expanded, and chooses one of these.  `do_stuff_to_lines`
cuts the trailer off, both from the expanded line and, by the same length, from
the line as it was read.  What is printed is the latter, filled up by the width
of the former.
-/

namespace MiscProjects.Tal

def longestLineLen (wd : WorkData) : ℕ :=
  wd.lines.foldl (fun longest line =>
    if line.active && decide (longest < line.text.length) then line.text.length
    else longest) 0

def countActiveLines (wd : WorkData) : ℕ := wd.lines.countP Line.active

/-- `strcmp` or `strcasecmp` finds no difference. -/
def sameText (igncase : Bool) (a b : Text) : Bool :=
  if igncase then a.map Char.toLower = b.map Char.toLower else a = b

/-! ## The trailer -/

/-- Looking for a trailer in the temporary list and counting it there, at the
end if it is new. -/
def countCandidate (igncase : Bool) (candidate : Text) : List Trailer → List Trailer
  | [] => [{ text := candidate, freq := 1 }]
  | t :: temple =>
      if sameText igncase t.text candidate then { t with freq := t.freq + 1 } :: temple
      else t :: countCandidate igncase candidate temple

/-- The last `curTlen` characters of the line. -/
def Line.candidate (p : Line) (curTlen : ℕ) : Text := p.text.drop (p.text.length - curTlen)

def addLine (opt : Opt) (curTlen : ℕ) (temple : List Trailer) (p : Line) : List Trailer :=
  if !p.active then temple
  else if p.text.length < curTlen then temple
  else countCandidate opt.igncase (p.candidate curTlen) temple

/-- The first of the most frequent trailers of one length. -/
def mostFrequent (opt : Opt) (lines : List Line) (curTlen : ℕ) : Option Trailer :=
  match lines.foldl (addLine opt curTlen) [] with
  | [] => none
  | t :: temple => some (temple.foldl (fun best t => if best.freq < t.freq then t else best) t)

/-- The search stops with this trailer, the previous one being `prev`. -/
def stopsAt (opt : Opt) (curTlen : ℕ) (prev t : Trailer) : Bool :=
  decide (1 < curTlen) &&
    if 0 < opt.prefTlen then decide (opt.prefTlen ≤ curTlen)
    else t.freq = 1 || decide (t.freq < prev.freq)

/-- The most frequent trailers of the lengths from `curTlen` on, for `left`
lengths at most. -/
def trailersFrom (opt : Opt) (lines : List Line) (prev : Trailer) :
    ℕ → ℕ → List Trailer
  | _, 0 => []
  | curTlen, left + 1 =>
      match mostFrequent opt lines curTlen with
      | none => []
      | some t =>
          t :: if stopsAt opt curTlen prev t then []
            else trailersFrom opt lines t (curTlen + 1) left

/-- The frequency of a trailer of the list. -/
def freqAt (trailers : List Trailer) (i : ℕ) : ℕ := (trailers[i]?.map Trailer.freq).getD 0

/-- The index of the longest of the most frequent trailers. -/
def tmostfreq (trailers : List Trailer) : ℕ :=
  (List.range trailers.length).foldl (fun most i =>
    if freqAt trailers most ≤ freqAt trailers i then i else most) 0

/-- A shorter trailer instead of one that starts with a blank. -/
def shorten (trailers : List Trailer) : ℕ → ℕ
  | 0 => 0
  | i + 1 =>
      if (trailers[i + 1]?.bind (·.text.head?)) = some ' ' then shorten trailers i
      else i + 1

/-- The index of the trailer that is used. -/
def chosen (opt : Opt) (trailers : List Trailer) : ℕ :=
  let most := tmostfreq trailers
  if opt.prefTlen ≠ 0 then
    if opt.forceTlen then
      if trailers.length < opt.prefTlen then trailers.length - 1 else opt.prefTlen - 1
    else if opt.prefTlen < most + 1 then opt.prefTlen - 1
    else most
  else shorten trailers most

def findAGoodTrailer (opt : Opt) (wd : WorkData) : WorkData :=
  if countActiveLines wd = 0 then { wd with outputInput := true }
  else
    let trailers :=
      trailersFrom opt wd.lines { text := [], freq := 0 } 1 (longestLineLen wd)
    let usedTrail := (trailers[chosen opt trailers]?).getD { text := [], freq := 0 }
    { wd with
      usedTrail
      outputInput := wd.outputInput || decide (usedTrail.freq < 2) }

/-! ## Cutting -/

/-- The line ends with the trailer. -/
def endsWith (opt : Opt) (trailer text : Text) : Bool :=
  decide (trailer.length ≤ text.length) &&
    sameText opt.igncase (text.drop (text.length - trailer.length)) trailer

/-- What is left of a text of which the trailer's length is cut off. -/
def cut (trailer s : Text) : Text := stripEnd (s.take (s.length - trailer.length))

/-- The line is aligned: it ends with the trailer and satisfies the maxalign
rule. -/
def aligns (opt : Opt) (trailer : Text) (line : Line) : Bool :=
  line.active && endsWith opt trailer line.text &&
    !(decide (0 < opt.maxalign) &&
      decide (opt.maxalign <
        (cut trailer line.text).length + trailer.length + opt.padding))

/-- One turn of the loop of `do_stuff_to_lines`. -/
def doStuffToLine (opt : Opt) (trailer : Text) (line : Line) : Line :=
  if aligns opt trailer line then
    let text := cut trailer line.text
    -- A line that is not longer than the trailer is printed with its tabs expanded.
    if line.orgtext.length ≤ trailer.length then { line with text, orgtext := text }
    else { line with text, orgtext := cut trailer line.orgtext }
  else { line with active := false }

def doStuffToLines (opt : Opt) (wd : WorkData) : WorkData :=
  { wd with lines := wd.lines.map (doStuffToLine opt wd.usedTrail.text) }

/-! ## Printing -/

/-- The final line length. -/
def newlen (opt : Opt) (wd : WorkData) : ℕ :=
  if 0 < opt.column ∧ (opt.maxalign = 0 ∨ opt.column ≤ opt.maxalign) then opt.column
  else longestLineLen wd + wd.usedTrail.text.length + opt.padding

/-- The number of fill characters of a line. -/
def fillsize (opt : Opt) (wd : WorkData) (line : Line) : ℕ :=
  newlen opt wd - line.text.length - wd.usedTrail.text.length

def outputLine (opt : Opt) (wd : WorkData) (line : Line) : Text :=
  if !line.active then line.orgtext
  else line.orgtext ++ List.replicate (fillsize opt wd line) opt.fillchar ++
    wd.usedTrail.text

def outputAlignedLines (opt : Opt) (wd : WorkData) : List Text :=
  if wd.outputInput then wd.lines.map Line.orgtext
  else wd.lines.map (outputLine opt wd)

/-- The work data with the trailer to be used. -/
def withTrailer (opt : Opt) (wd : WorkData) : WorkData :=
  match opt.trailer with
  | some trailer => { wd with usedTrail := { text := trailer.1, freq := 0 } }
  | none => findAGoodTrailer opt wd

/-- The lines that are printed. -/
def tal (opt : Opt) (input : Text) : List Text :=
  let wd := readAllInput opt input
  if wd.exitSoon then []
  else
    let wd := withTrailer opt wd
    let wd := if wd.outputInput then wd else doStuffToLines opt wd
    outputAlignedLines opt wd

end MiscProjects.Tal
