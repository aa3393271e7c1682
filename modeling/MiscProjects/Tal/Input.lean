import Mathlib.Data.List.DropRight
import Mathlib.Data.Int.Notation

/-!
# Reading the lines of tal

The options of `tal`, the expansion of tabs and the reading of the input.  A
character is one byte; a string of C has no zero byte.  The option record
carries the bounds that `process_commandline` tests.  Memory is taken to be
there: a failed allocation ends the program before it prints a line.
-/

namespace MiscProjects.Tal

abbrev Text := List Char

/-- The zero byte. -/
def NUL : Char := Char.ofNat 0

/-- Max. supported line length. -/
def LINE_MAX : ℕ := 2048

/-- Max. allowed tab stop distance. -/
def MAX_TABSTOP : ℕ := 40

/-- A string of C. -/
abbrev CString := { s : Text // NUL ∉ s }

/-! ## Options -/

/-- Command line options. -/
structure Opt where
  column : ℕ
  fillchar : Char
  forceTlen : Bool
  igncase : Bool
  maxalign : ℕ
  padding : ℕ
  prefTlen : ℕ
  tabstop : ℕ
  /-- User-supplied trailer (no autodetect). -/
  trailer : Option CString
  column_le : column ≤ LINE_MAX
  fillchar_ne : fillchar ≠ NUL
  padding_le : padding ≤ LINE_MAX / 2
  prefTlen_le : prefTlen ≤ LINE_MAX
  tabstop_pos : 0 < tabstop
  tabstop_le : tabstop ≤ MAX_TABSTOP
  trailer_len : ∀ t ∈ trailer, 0 < t.1.length ∧ t.1.length ≤ LINE_MAX

/-- The default settings. -/
def Opt.default : Opt where
  column := 0
  fillchar := ' '
  forceTlen := false
  igncase := false
  maxalign := 0
  padding := 1
  prefTlen := 0
  tabstop := 8
  trailer := none
  column_le := by decide
  fillchar_ne := by decide
  padding_le := by decide
  prefTlen_le := by decide
  tabstop_pos := by decide
  tabstop_le := by decide
  trailer_len := by simp

/-- An option as `getopt` delivers it, a number as `strtol` reads it. -/
inductive CommandOption
  | c (optarg : CString)
  | e (optarg : CString)
  | i
  | l (value : ℤ)
  | m (value : ℤ)
  | t (value : ℤ)
  | k (value : ℤ)
  | p (value : ℤ)
  | f

/-- One turn of the option loop.  An error is the value that
`process_commandline` returns. -/
def Opt.set (opt : Opt) : CommandOption → Except ℕ Opt
  | .c optarg =>
      if h : optarg.1.length = 1 then
        have hmem : optarg.1[0] ∈ optarg.1 := List.getElem_mem (by omega)
        have hne : optarg.1[0] ≠ NUL := ne_of_mem_of_not_mem hmem optarg.2
        .ok { opt with fillchar := optarg.1[0], fillchar_ne := hne }
      else .error 1
  | .e optarg =>
      if h : optarg.1.length < 1 ∨ LINE_MAX < optarg.1.length then .error 11
      else
        have hlen : ∀ t ∈ some optarg, 0 < t.1.length ∧ t.1.length ≤ LINE_MAX := by
          intro t ht
          obtain rfl := Option.some.inj ht
          omega
        .ok { opt with trailer := some optarg, trailer_len := hlen }
  | .i => .ok { opt with igncase := true }
  | .l value =>
      if h : value < 0 ∨ (LINE_MAX : ℤ) < value then .error 2
      else .ok { opt with prefTlen := value.toNat, prefTlen_le := by omega }
  | .m value =>
      if value < 0 then .error 3
      else .ok { opt with maxalign := value.toNat }
  | .t value =>
      if h : value < 1 ∨ (MAX_TABSTOP : ℤ) < value then .error 4
      else .ok { opt with
        tabstop := value.toNat, tabstop_pos := by omega, tabstop_le := by omega }
  | .k value =>
      if h : value < 0 ∨ (LINE_MAX : ℤ) < value then .error 5
      else .ok { opt with column := value.toNat, column_le := by omega }
  | .p value =>
      if h : value < 0 ∨ ((LINE_MAX / 2 : ℕ) : ℤ) < value then .error 6
      else .ok { opt with padding := value.toNat, padding_le := by omega }
  | .f => .ok { opt with forceTlen := true }

def processCommandline (options : List CommandOption) : Except ℕ Opt :=
  options.foldlM Opt.set Opt.default

/-! ## Lines -/

/-- One line and all its data.  The lengths of the source are those of the
lists, and `tend` points to the last character of `text`. -/
structure Line where
  /-- Original contents of line as read. -/
  orgtext : Text
  /-- Contents of line with tabs expanded; empty if the line was never active. -/
  text : Text
  /-- Set if line is considered. -/
  active : Bool

/-- A trailer; its `len` is the length of its text. -/
structure Trailer where
  text : Text
  freq : ℕ

structure WorkData where
  lines : List Line
  outputInput : Bool
  exitSoon : Bool
  usedTrail : Trailer

/-- The white space that is cut off at the end of a line. -/
def isSpace (c : Char) : Bool := c = ' ' || c = '\t' || c = '\n'

/-- Removing trailing whitespace. -/
def stripEnd (s : Text) : Text := s.rdropWhile isSpace

/-- The loop of `expand_tabs_into`, `io` characters having been written. -/
def expandFrom (tabstop : ℕ) : ℕ → Text → Text
  | _, [] => []
  | io, c :: s =>
      if io < LINE_MAX * tabstop - 1 then
        if c = '\t' then
          List.replicate (tabstop - io % tabstop) ' ' ++
            expandFrom tabstop (io + (tabstop - io % tabstop)) s
        else c :: expandFrom tabstop (io + 1) s
      else []

def expandTabsInto (inputBuffer : Text) (tabstop : ℕ) : Text :=
  expandFrom tabstop 0 inputBuffer

/-- What successive calls of `fgets` leave in the input buffer: `buffer` has
been read, and there is room for `room` more characters. -/
def fgets (room : ℕ) (buffer : Text) : Text → List Text
  | [] => if buffer = [] then [] else [buffer]
  | c :: input =>
      if c = '\n' || room ≤ 1 then (buffer ++ [c]) :: fgets LINE_MAX [] input
      else fgets (room - 1) (buffer ++ [c]) input

/-- The string that starts a buffer. -/
def cstring (buffer : Text) : Text := buffer.takeWhile (· ≠ NUL)

/-- The line made of an input buffer. -/
def readLine (opt : Opt) (inputBuffer : Text) : Line :=
  let orgtext := stripEnd (cstring inputBuffer)
  if orgtext = [] then { orgtext, text := [], active := false }
  else { orgtext, text := expandTabsInto orgtext opt.tabstop, active := true }

/-- Reading stops at an empty string. -/
def readAllInput (opt : Opt) (input : Text) : WorkData :=
  let lines := ((fgets LINE_MAX [] input).takeWhile (cstring · ≠ [])).map (readLine opt)
  { lines
    outputInput := false
    exitSoon := lines.isEmpty
    usedTrail := { text := [], freq := 0 } }

end MiscProjects.Tal
