import Mathlib.Algebra.Ring.Int.Defs
import MiscProjects.Library.Loops
import MiscProjects.RawUdp.Rounds

/-!
# The command line of `rawudp`

`ValidateArgs` takes the size of the MTU, the size of the payload and the message from the
command line and checks none of them.  `memfill` writes the message to the payload as often
as it takes; every round of `PacketizeIpv6` takes what the MTU leaves.
-/

namespace MiscProjects.RawUdp

open MiscProjects.Loops

inductive AddressFamily
  | unspec
  | inet
  | inet6
deriving DecidableEq

/-- The global variables that the command line sets. -/
structure Globals where
  gSrcAddress : Option (List Char) := none
  gDestAddress : Option (List Char) := none
  gSrcPort : Option (List Char) := none
  gDestPort : Option (List Char) := none
  gMessage : List Char
  gAddressFamily : AddressFamily := .unspec
  gProtocol : ℤ := 17
  gSendSize : ℤ := 0
  gMtuSize : ℤ := 1496
  gSendCount : ℤ := 0
  bSender : Bool := true
  bReadRaw : Bool := true
deriving DecidableEq

def defaultMessage : List Char := "This is a test".toList

/-! ## `atoi` -/

/-- What `isspace` accepts. -/
def isSpace (c : Char) : Bool := c = ' ' || 9 ≤ c.toNat && c.toNat ≤ 13

def digits : ℤ → List Char → ℤ
  | n, c :: rest => if c.isDigit then digits (10 * n + (c.toNat - '0'.toNat : ℕ)) rest else n
  | n, [] => n

/-- Values that do not fit an `int` are replaced by the nearest that do. -/
def clamp (n : ℤ) : ℤ := max (-2 ^ 31) (min n (2 ^ 31 - 1))

def atoi (s : List Char) : ℤ :=
  match s.dropWhile isSpace with
  | '-' :: rest => clamp (-digits 0 rest)
  | '+' :: rest => clamp (digits 0 rest)
  | rest => clamp (digits 0 rest)

/-! ## `ValidateArgs` -/

/-- The first letter behind the dash. -/
def optionLetter (arg : List Char) : Option Char := (arg[1]?).map Char.toLower

/-- The second one, of the options that have two. -/
def optionSide (arg : List Char) : Option Char := (arg[2]?).map Char.toLower

/-- The `switch`; `none` where `usage` ends the program.  The bounds of the options `a`, `s`
and `d` let the terminating null pointer through: it is read by the first of them, and stored
by the others. -/
def setOption (g : Globals) (arg : List Char) (value : Option (List Char)) : Option Globals :=
  match optionLetter arg with
  | some 'a' =>
      match value with
      | some ('4' :: _) => some { g with gAddressFamily := .inet }
      | some ('6' :: _) => some { g with gAddressFamily := .inet6 }
      | _ => none
  | some 's' =>
      match optionSide arg with
      | some 'a' => some { g with gSrcAddress := value }
      | some 'p' => some { g with gSrcPort := value }
      | _ => none
  | some 'd' =>
      match optionSide arg with
      | some 'a' => some { g with gDestAddress := value }
      | some 'p' => some { g with gDestPort := value }
      | _ => none
  | some 'n' => value.map fun value => { g with gSendCount := atoi value }
  | some 'm' => value.map fun value => { g with gMessage := value }
  | some 'p' => value.map fun value => { g with gProtocol := atoi value }
  | some 'r' =>
      value.map fun value =>
        { g with
          bReadRaw := g.bReadRaw && decide (arg.length ≠ 3)
          gSrcPort := some value
          bSender := false }
  | some 't' => value.map fun value => { g with gMtuSize := atoi value }
  | some 'z' => value.map fun value => { g with gSendSize := atoi value }
  | _ => none

/-- An argument that begins with a dash or a slash. -/
def isOption (arg : List Char) : Bool := arg[0]? = some '-' || arg[0]? = some '/'

/-- The loop over the arguments: every option takes the argument behind it. -/
def parseArgs : Globals → List (List Char) → Option Globals
  | g, [] => some g
  | g, [arg] => if isOption arg then setOption g arg none else some g
  | g, arg :: value :: rest =>
      if isOption arg then (setOption g arg (some value)).bind (parseArgs · rest)
      else parseArgs g (value :: rest)

/-- `ValidateArgs`, of the arguments behind the name of the program. -/
def validateArgs (argv : List (List Char)) : Option Globals :=
  (parseArgs { gMessage := defaultMessage } argv).map fun g =>
    if g.gSendSize = 0 then { g with gSendSize := g.gMessage.length } else g

/-! ## `memfill` -/

/-- What is left to fill, and what has been written. -/
structure Fill where
  destlen : ℤ
  dest : List Char

/-- A round of the loop; `none` where its condition fails. -/
def fillRound (data : List Char) (s : Fill) : Option Fill :=
  if s.destlen > 0 then
    let copylen : ℤ := if s.destlen > data.length then data.length else s.destlen
    some ⟨s.destlen - copylen, s.dest ++ data.take copylen.toNat⟩
  else none

/-- `memfill` ends, with the memory filled. -/
def MemfillEnds (destlen : ℤ) (data : List Char) : Prop :=
  ∃ t, LeftIn (fillRound data) ⟨destlen, []⟩ t ∧ t.dest.length = destlen.toNat

section Memfill
variable {data : List Char} {s t : Fill} {destlen : ℤ}

theorem fillRound_cases (h : fillRound data s = some t) :
    0 < s.destlen ∧ ∃ copylen : ℕ, (copylen : ℤ) = min s.destlen data.length ∧
      t = ⟨s.destlen - copylen, s.dest ++ data.take copylen⟩ := by
  unfold fillRound at h
  split at h
  · next hpos =>
      obtain rfl := Option.some.inj h
      refine ⟨hpos, (min s.destlen data.length).toNat, by omega, ?_⟩
      have hcopylen : (if s.destlen > data.length then (data.length : ℤ) else s.destlen) =
          min s.destlen data.length := by
        split
        · omega
        · omega
      rw [hcopylen, Int.toNat_of_nonneg (by omega)]
  · cases h

theorem fillRound_eq_none_iff : fillRound data s = none ↔ s.destlen ≤ 0 := by
  unfold fillRound
  split
  · exact iff_of_false (Option.some_ne_none _) (by omega)
  · exact iff_of_true rfl (by omega)

theorem memfillEnds_iff : MemfillEnds destlen data ↔ destlen ≤ 0 ∨ data ≠ [] := by
  constructor
  · rintro ⟨t, hleft, -⟩
    by_contra hstuck
    obtain ⟨hpos, hempty⟩ := not_or.mp hstuck
    obtain rfl := not_not.mp hempty
    have hpos' : (0 : ℤ) < destlen := Int.not_le.mp hpos
    obtain ⟨hinv, hend⟩ := hleft.invariant (fun s => 0 < s.destlen) hpos' (by
      intro s t hs hround
      obtain ⟨-, copylen, hcopylen, rfl⟩ := fillRound_cases hround
      rw [List.length_nil] at hcopylen
      dsimp only
      omega)
    exact absurd (fillRound_eq_none_iff.mp hend) (Int.not_le.mpr hinv)
  · intro hprogress
    -- what is left to fill and what has been written make up the memory
    obtain ⟨t, hleft, hinv, hend⟩ := @exists_leftIn _ (fillRound data) ⟨destlen, []⟩
      (fun s => s.destlen.toNat + s.dest.length = destlen.toNat ∧ (s.destlen ≤ 0 ∨ data ≠ []))
      (fun s => s.destlen.toNat) ⟨Nat.add_zero _, hprogress⟩ (by
        rintro s t ⟨hlength, hs⟩ hround
        obtain ⟨hpos, copylen, hcopylen, rfl⟩ := fillRound_cases hround
        have hdata : data ≠ [] := hs.resolve_left (Int.not_le.mpr hpos)
        have hdatalen : 0 < data.length := List.length_pos_of_ne_nil hdata
        have htake : (data.take copylen).length = copylen := by
          rw [List.length_take]
          omega
        dsimp only
        rw [List.length_append, htake]
        exact ⟨⟨by omega, .inr hdata⟩, by omega⟩)
    have hfull := fillRound_eq_none_iff.mp hend
    exact ⟨t, hleft, by omega⟩

end Memfill

/-! ## The rounds of `PacketizeIpv6` end -/

section Rounds
variable {gMtuSize payloadlen : ℤ}

theorem roundsEnd_short (hnonneg : 0 ≤ payloadlen) (hshort : payloadlen ≤ gMtuSize) :
    RoundsEnd gMtuSize payloadlen := by
  refine ⟨0, lastRound_short hshort, ?_⟩
  intro i hi
  obtain rfl := Nat.le_zero.mp hi
  rw [datalen_short hshort]
  exact ⟨hnonneg, fun h => absurd h (Nat.not_lt_zero 0)⟩

theorem roundsEnd_long (hmtu : 57 ≤ gMtuSize) (hlong : gMtuSize < payloadlen) :
    RoundsEnd gMtuSize payloadlen := by
  obtain ⟨q, hq⟩ := Int.eq_ofNat_of_zero_le (middles_nonneg (by omega) hlong)
  have hend : LastRound gMtuSize payloadlen (q + 1) := lastRound_long (by omega) hlong hq.symm
  have hmod : 0 ≤ (payloadlen + 7 - gMtuSize) % (gMtuSize - 48) := Int.emod_nonneg _ (by omega)
  refine ⟨q + 1, hend, ?_⟩
  intro i hi
  suffices hpos : 0 < datalen gMtuSize payloadlen i from ⟨Int.le_of_lt hpos, fun _ => hpos⟩
  rw [datalen]
  obtain ⟨-, hlayout⟩ | ⟨-, hlayout⟩ | ⟨-, hlayout⟩ := layout_cases (by omega) hlong hq.symm hi
  · rw [hlayout]
    dsimp only
    omega
  · rw [hlayout]
    dsimp only
    omega
  · rw [hlayout]
    dsimp only
    omega

theorem roundsEnd_iff (hnonneg : 0 ≤ payloadlen) :
    RoundsEnd gMtuSize payloadlen ↔ payloadlen ≤ gMtuSize ∨ 57 ≤ gMtuSize := by
  rcases Int.lt_or_le gMtuSize payloadlen with hlong | hshort
  · refine ⟨?_, fun h => roundsEnd_long (h.resolve_left (by omega)) hlong⟩
    rintro ⟨n, hlast, hprogress⟩
    cases n with
    | zero =>
        have hends := (lastRound_iff.mp hlast).2
        rw [payloadlen_succ, datalen_first hlong] at hends
        change payloadlen - (gMtuSize - 56) ≤ 0 at hends
        omega
    | succ n =>
        have hfirst := (hprogress 0 (Nat.zero_le _)).2 (Nat.succ_pos n)
        rw [datalen_first hlong] at hfirst
        omega
  · exact iff_of_true (roundsEnd_short hnonneg hshort) (.inl hshort)

end Rounds

/-- The two loops end, if `HeapAlloc` can give memory for the payload: the size is unsigned
there, and a negative one is too large for it. -/
def LoopsEnd (g : Globals) : Prop :=
  0 ≤ g.gSendSize → MemfillEnds g.gSendSize g.gMessage ∧ RoundsEnd g.gMtuSize g.gSendSize

/-- Nothing has to be filled or there is something to fill it with; and the payload is not cut
or there is room for data behind the headers of the first packet. -/
def LoopsCanEnd (g : Globals) : Prop :=
  0 ≤ g.gSendSize →
    (g.gSendSize = 0 ∨ g.gMessage ≠ []) ∧ (g.gSendSize ≤ g.gMtuSize ∨ 57 ≤ g.gMtuSize)

/-- `-m "" -z 10`. -/
def emptyMessage : List (List Char) := [['-', 'm'], [], ['-', 'z'], ['1', '0']]

end MiscProjects.RawUdp
