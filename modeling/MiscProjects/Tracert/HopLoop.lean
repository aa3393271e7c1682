import MiscProjects.Library.Loops
import Mathlib.Data.Nat.Count

/-!
# The probes of `tracert`

The program sends probes whose TTL grows, and learns the hops from the answers.  The TTL grows
only behind an answer that `AnalyzePacket` accepts; the loop ends behind one that comes from
the destination, and when the TTL has reached `gTtl`.  The probes themselves are sent without
an error.
-/

namespace MiscProjects.Tracert

open MiscProjects.Loops

/-- `gAddressFamily`, once the destination has been resolved. -/
inductive AddressFamily
  | inet
  | inet6
deriving DecidableEq

def ipprotoIcmp : UInt8 := 1
def ipprotoIcmp6 : UInt8 := 58
def icmpv4Timeout : UInt8 := 11
def icmpv4EchoReplyType : UInt8 := 0
def icmpv4EchoReplyCode : UInt8 := 0
def icmpv6TimeExceededType : UInt8 := 3
def icmpv6TimeExceededCode : UInt8 := 0
def icmpv6EchoReplyType : UInt8 := 129
def icmpv6EchoReplyCode : UInt8 := 0

/-- `SOCKADDR`, with what is compared of it. -/
structure SockAddr where
  saFamily : AddressFamily
  addr : List UInt8
deriving DecidableEq

/-- `recvbuf`, by the offset of its bytes. -/
abbrev RecvBuf := ℕ → UInt8

/-- Whether `AnalyzePacket` returns `NO_ERROR`. -/
def analyzePacket (gAddressFamily : AddressFamily) (buf : RecvBuf) : Bool :=
  match gAddressFamily with
  | .inet =>
      let hdrlen := (buf 0 &&& 0x0F).toNat * 4
      if buf 9 = ipprotoIcmp then
        !(buf hdrlen ≠ icmpv4Timeout && buf hdrlen ≠ icmpv4EchoReplyType &&
          buf (hdrlen + 1) ≠ icmpv4EchoReplyCode)
      else true
  | .inet6 =>
      if buf 6 = ipprotoIcmp6 then
        !(buf 40 ≠ icmpv6TimeExceededType && buf 41 ≠ icmpv6TimeExceededCode &&
          buf 40 ≠ icmpv6EchoReplyType && buf 41 ≠ icmpv6EchoReplyCode)
      else true

/-- Whether `IsSockaddrEqual` returns zero. -/
def isSockaddrEqual (sa1 sa2 : SockAddr) : Bool :=
  sa1.saFamily = sa2.saFamily && sa1.addr = sa2.addr

/-- What a round waits for. -/
inductive Answer
  | failed
  | timeout
  | received (recvbuf : RecvBuf) (source : SockAddr)

/-- The variables of `main` that are fixed before the loop, and the answers in the order of the
rounds. -/
structure Trace where
  gAddressFamily : AddressFamily
  gTtl : ℕ
  dest : SockAddr
  answers : ℕ → Answer

/-- The variables at the head of the loop; `returned` if the last round has left `main`. -/
structure Hops where
  round : ℕ
  ttl : ℕ
  notdone : Bool
  returned : Bool
deriving DecidableEq

def Hops.start : Hops := ⟨0, 1, true, false⟩

/-- The body of the loop: a probe with the TTL `s.ttl`, and what follows from its answer. -/
def Trace.probe (p : Trace) (s : Hops) : Hops :=
  match p.answers s.round with
  | .failed => { s with round := s.round + 1, notdone := true, returned := true }
  | .timeout => { s with round := s.round + 1, notdone := true }
  | .received recvbuf source =>
      if analyzePacket p.gAddressFamily recvbuf then
        { s with
          round := s.round + 1
          notdone := !isSockaddrEqual p.dest source
          ttl := s.ttl + 1 }
      else { s with round := s.round + 1, notdone := true }

/-- The condition of the loop. -/
def Trace.GoesOn (p : Trace) (s : Hops) : Prop :=
  s.returned = false ∧ s.notdone = true ∧ s.ttl < p.gTtl

/-- The variables behind the first `n` rounds. -/
def Trace.hops (p : Trace) : ℕ → Hops := rounds p.probe .start

/-! ## The answers -/

/-- The packet is what `AnalyzePacket` looks for: a message of ICMP that the TTL has expired, or
an echo reply. -/
def isExpiredOrReply (gAddressFamily : AddressFamily) (buf : RecvBuf) : Bool :=
  match gAddressFamily with
  | .inet =>
      let hdrlen := (buf 0 &&& 0x0F).toNat * 4
      buf 9 = ipprotoIcmp && (buf hdrlen = icmpv4Timeout || buf hdrlen = icmpv4EchoReplyType)
  | .inet6 =>
      buf 6 = ipprotoIcmp6 && (buf 40 = icmpv6TimeExceededType || buf 40 = icmpv6EchoReplyType)

def Trace.fails (p : Trace) (i : ℕ) : Bool :=
  match p.answers i with
  | .failed => true
  | _ => false

def Trace.accepts (p : Trace) (i : ℕ) : Bool :=
  match p.answers i with
  | .received recvbuf _ => analyzePacket p.gAddressFamily recvbuf
  | _ => false

/-- An answer from the destination. -/
def Trace.arrives (p : Trace) (i : ℕ) : Bool :=
  match p.answers i with
  | .received recvbuf source =>
      analyzePacket p.gAddressFamily recvbuf && isSockaddrEqual p.dest source
  | _ => false

def Trace.expiredOrReply (p : Trace) (i : ℕ) : Bool :=
  match p.answers i with
  | .received recvbuf _ => isExpiredOrReply p.gAddressFamily recvbuf
  | _ => false

/-- The loop ends with the `n`-th round, behind an answer from the destination or with every TTL
probed, and the TTL grows only behind messages that it has expired and echo replies. -/
structure Trace.CoversIn (p : Trace) (n : ℕ) : Prop where
  ends : EndsBehind p.probe p.GoesOn .start n
  covers : (∃ i ≤ n, p.arrives i = true) ∨
    ∀ ttl, 1 ≤ ttl → ttl ≤ p.gTtl → ∃ i ≤ n, (p.hops i).ttl = ttl
  advances : ∀ i ≤ n, (p.hops (i + 1)).ttl ≠ (p.hops i).ttl → p.expiredOrReply i = true

def Trace.Covers (p : Trace) : Prop := ∃ n, p.CoversIn n

/-- There is no TTL behind the first; or the destination answers before a wait fails and before
`gTtl - 1` packets of others have been accepted.  None of the packets accepted by then may be
something else. -/
def Trace.Suffices (p : Trace) : Prop :=
  p.gTtl = 1 ∧ (p.accepts 0 = true → p.expiredOrReply 0 = true) ∨
    2 ≤ p.gTtl ∧ ∃ n, p.arrives n = true ∧ (∀ i < n, p.fails i = false) ∧
      Nat.count (p.accepts · = true) n + 1 < p.gTtl ∧
      ∀ i ≤ n, p.accepts i = true → p.expiredOrReply i = true

/-! ## One round -/

section Rounds
variable {p : Trace} {i n : ℕ} {s : Hops}

theorem Trace.probe_eq (p : Trace) (s : Hops) :
    p.probe s =
      { round := s.round + 1
        ttl := if p.accepts s.round then s.ttl + 1 else s.ttl
        notdone := !p.arrives s.round
        returned := s.returned || p.fails s.round } := by
  unfold probe accepts arrives fails
  rcases p.answers s.round with _ | _ | ⟨recvbuf, source⟩
  · simp
  · simp
  · simp only [Bool.or_false]
    split
    · next h => rw [h]; simp
    · next h => rw [Bool.not_eq_true] at h; rw [h]; simp

theorem Trace.round_hops (p : Trace) (n : ℕ) : (p.hops n).round = n := by
  induction n with
  | zero => rfl
  | succ n ih =>
      change (p.probe (p.hops n)).round = n + 1
      rw [probe_eq, ih]

theorem Trace.hops_succ (p : Trace) (n : ℕ) :
    p.hops (n + 1) =
      { round := n + 1
        ttl := if p.accepts n then (p.hops n).ttl + 1 else (p.hops n).ttl
        notdone := !p.arrives n
        returned := (p.hops n).returned || p.fails n } := by
  change p.probe (p.hops n) = _
  rw [probe_eq, round_hops]

theorem Trace.ttl_hops (p : Trace) (n : ℕ) :
    (p.hops n).ttl = Nat.count (p.accepts · = true) n + 1 := by
  induction n with
  | zero => rfl
  | succ n ih =>
      rw [hops_succ, Nat.count_succ, ih]
      dsimp only
      split
      · omega
      · omega

theorem Trace.returned_hops_iff (p : Trace) (n : ℕ) :
    (p.hops n).returned = false ↔ ∀ i < n, p.fails i = false := by
  induction n with
  | zero => exact iff_of_true rfl (fun i hi => absurd hi (Nat.not_lt_zero i))
  | succ n ih =>
      rw [hops_succ]
      dsimp only
      rw [Bool.or_eq_false_iff, ih, Nat.forall_lt_succ_right]

theorem Trace.goesOn_iff : p.GoesOn (p.hops (n + 1)) ↔
      (∀ i < n + 1, p.fails i = false) ∧ p.arrives n = false ∧
        Nat.count (p.accepts · = true) (n + 1) + 1 < p.gTtl := by
  rw [GoesOn, returned_hops_iff, ttl_hops, hops_succ]
  dsimp only
  rw [Bool.not_eq_true']

theorem Trace.ttl_ne_iff : (p.hops (i + 1)).ttl ≠ (p.hops i).ttl ↔ p.accepts i = true := by
  rw [hops_succ]
  dsimp only
  split
  · next h => exact iff_of_true (Nat.succ_ne_self _) h
  · next h => exact iff_of_false (not_not.mpr rfl) h

end Rounds

/-! ## Whole runs -/

section Runs
variable {p : Trace} {n : ℕ}

theorem Trace.endsBehind_of_gTtl_eq_one (h : p.gTtl = 1) :
    EndsBehind p.probe p.GoesOn .start 0 where
  goesOn i hi := absurd hi (Nat.not_lt_zero i)
  ends hgoesOn := by
    have hlt := (goesOn_iff.mp hgoesOn).2.2
    omega

theorem Trace.covers_iff_of_gTtl_eq_one (h : p.gTtl = 1) :
    p.Covers ↔ (p.accepts 0 = true → p.expiredOrReply 0 = true) := by
  have hends := endsBehind_of_gTtl_eq_one h
  constructor
  · rintro ⟨n, hn⟩ haccepts
    exact hn.advances 0 (Nat.zero_le n) (ttl_ne_iff.mpr haccepts)
  · intro hfirst
    refine ⟨0, hends, .inr ?_, ?_⟩
    · intro ttl hpos hle
      exact ⟨0, Nat.le_refl 0, by change 1 = ttl; omega⟩
    · intro i hi hne
      obtain rfl := Nat.le_zero.mp hi
      exact hfirst (ttl_ne_iff.mp hne)

theorem Trace.ttl_lt_of_endsBehind (hgTtl : 2 ≤ p.gTtl)
    (hends : EndsBehind p.probe p.GoesOn .start n) {i : ℕ} (hi : i ≤ n) :
    (p.hops i).ttl < p.gTtl := by
  cases i with
  | zero => exact hgTtl
  | succ i => exact (hends.goesOn i hi).2.2

theorem Trace.covers_iff_of_two_le (hgTtl : 2 ≤ p.gTtl) :
    p.Covers ↔ ∃ n, p.arrives n = true ∧ (∀ i < n, p.fails i = false) ∧
      Nat.count (p.accepts · = true) n + 1 < p.gTtl ∧
      ∀ i ≤ n, p.accepts i = true → p.expiredOrReply i = true := by
  constructor
  · rintro ⟨n, hends, hcovers, hadvances⟩
    have harrives : p.arrives n = true := by
      rcases hcovers with ⟨i, hi, harrives⟩ | hall
      · rcases Nat.lt_or_eq_of_le hi with hlt | rfl
        · have hfalse := (goesOn_iff.mp (hends.goesOn i hlt)).2.1
          rw [harrives] at hfalse
          cases hfalse
        · exact harrives
      · obtain ⟨i, hi, httl⟩ := hall p.gTtl (by omega) (Nat.le_refl _)
        exact absurd (ttl_lt_of_endsBehind hgTtl hends hi) (by omega)
    refine ⟨n, harrives, ?_, ?_, fun i hi haccepts => hadvances i hi (ttl_ne_iff.mpr haccepts)⟩
    · cases n with
      | zero => exact fun i hi => absurd hi (Nat.not_lt_zero i)
      | succ n => exact (goesOn_iff.mp (hends.goesOn n (Nat.lt_succ_self n))).1
    · rw [← ttl_hops]
      exact ttl_lt_of_endsBehind hgTtl hends (Nat.le_refl n)
  · rintro ⟨n, harrives, hwaits, hcount, hexpired⟩
    have hstops : ¬ p.GoesOn (p.hops (n + 1)) := by
      intro hgoesOn
      have hfalse := (goesOn_iff.mp hgoesOn).2.1
      rw [harrives] at hfalse
      cases hfalse
    obtain ⟨m, hm, hends⟩ := exists_endsBehind hstops
    have harrives' : p.arrives m = true := by
      rcases Nat.lt_or_eq_of_le hm with hlt | rfl
      · by_contra hother
        refine hends.ends (goesOn_iff.mpr ⟨fun i hi => hwaits i (by omega), ?_, ?_⟩)
        · exact Bool.not_eq_true _ ▸ hother
        · have hmono := Nat.count_monotone (p.accepts · = true) (Nat.succ_le_of_lt hlt)
          exact Nat.lt_of_le_of_lt (Nat.succ_le_succ hmono) hcount
      · exact harrives
    refine ⟨m, hends, .inl ⟨m, Nat.le_refl m, harrives'⟩, ?_⟩
    intro i hi hne
    exact hexpired i (Nat.le_trans hi hm) (ttl_ne_iff.mp hne)

/-- A hop that does not answer keeps the TTL where it is, and the last TTL is not probed. -/
theorem covers_iff (p : Trace) (hgTtl : 1 ≤ p.gTtl) : p.Covers ↔ p.Suffices := by
  rcases Nat.lt_or_eq_of_le hgTtl with htwo | hone
  · rw [Trace.covers_iff_of_two_le htwo, Trace.Suffices]
    constructor
    · exact fun h => .inr ⟨htwo, h⟩
    · rintro (⟨hone, -⟩ | ⟨-, h⟩)
      · omega
      · exact h
  · rw [Trace.covers_iff_of_gTtl_eq_one hone.symm, Trace.Suffices]
    constructor
    · exact fun h => .inl ⟨hone.symm, h⟩
    · rintro (⟨-, h⟩ | ⟨htwo, -⟩)
      · exact h
      · omega

/-- A message that the TTL has expired, from 10.0.0.1, and the echo reply of 10.0.0.2. -/
def twoHops : Trace where
  gAddressFamily := .inet
  gTtl := 30
  dest := ⟨.inet, [10, 0, 0, 2]⟩
  answers
    | 0 => .received (fun i => [0x45, 0, 0, 56, 0, 0, 0, 0, 64, 1].getD i 11)
        ⟨.inet, [10, 0, 0, 1]⟩
    | _ => .received (fun i => [0x45, 0, 0, 56, 0, 0, 0, 0, 64, 1].getD i 0)
        ⟨.inet, [10, 0, 0, 2]⟩

theorem covers_iff_twoHops : twoHops.Covers ↔ twoHops.Suffices :=
  covers_iff twoHops (by decide)

/-- No hop answers. -/
def silence : Trace where
  gAddressFamily := .inet
  gTtl := 30
  dest := ⟨.inet, [10, 0, 0, 2]⟩
  answers _ := .timeout

theorem not_always_covers : ¬ ∀ p : Trace, 1 ≤ p.gTtl → p.Covers := by
  intro hall
  obtain ⟨n, harrives, -⟩ :=
    (Trace.covers_iff_of_two_le (by decide)).mp (hall silence (by decide))
  cases harrives

end Runs

end MiscProjects.Tracert
