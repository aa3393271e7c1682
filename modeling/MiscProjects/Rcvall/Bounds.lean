import MiscProjects.Rcvall.Parser

/-!
# When the packet decoder stays within the packet

No length is tested anywhere, so that the decoder is safe on the packets whose own lengths
and counts happen to lie within what was received, whose protocol is in the table, and
whose IGMP message is of a known kind.
-/

namespace MiscProjects.Rcvall

/-! ## The condition -/

section Condition
variable (buf : List UInt8)

def headerLen : ℕ := loWord (numberAt buf 0 1) * 4

def totalLen : ℕ := numberAt buf 2 2

def protocol : ℕ := numberAt buf 9 1

/-- The protocols whose ports are read by the filter. -/
def hasPorts : Prop := protocol buf = 2 ∨ protocol buf = 6 ∨ protocol buf = 17

/-- The packet is not filtered out. -/
def Passes (filter : Filter) : Prop :=
  filter.bFilter = true → hasPorts buf ∧
    (filter.srcip = numberAt buf 12 4 ∨ filter.srcport = numberAt buf (headerLen buf) 2 ∨
      filter.destip = numberAt buf 16 4 ∨ filter.destport = numberAt buf (headerLen buf + 2) 2)

/-- The kind of the IGMP message that starts at `hdr`. -/
def igmpKind (hdr total : ℕ) : ℕ × Option Message :=
  classify (hiWord (numberAt buf hdr 1)) (loWord (numberAt buf hdr 1))
    (numberAt buf (hdr + 1) 1) ((total : ℤ) - hdr)

/-- Where `n` group records from `hdr` on would end if none had auxiliary data. -/
def recordsEnd : ℕ → ℕ → ℕ
  | hdr, 0 => hdr
  | hdr, n + 1 => recordsEnd (hdr + 8 + 4 * numberAt buf (hdr + 2) 2) n

/-- An IGMP message at `hdr` of a packet of the length `total` is of a known kind, and what
its kind and its counts make the decoder read has been received. -/
structure IgmpInBounds (hdr total : ℕ) : Prop where
  header : hdr + 4 ≤ buf.length
  known : (igmpKind buf hdr total).2 ≠ none
  group : (igmpKind buf hdr total).2 = some .query → hdr + 8 ≤ buf.length
  query : igmpKind buf hdr total = (3, some .query) →
    hdr + 12 + 4 * ((total - hdr - 12) / 4) ≤ buf.length
  report : igmpKind buf hdr total = (3, some .reportV3) →
    recordsEnd buf (hdr + 8) (numberAt buf (hdr + 6) 2) ≤ buf.length

/-- What the header length, the protocol and the filter make the decoder read has been
received, and the protocol is in the table. -/
structure InBounds (filter : Filter) : Prop where
  header : 20 ≤ buf.length
  ports : hasPorts buf → filter.bFilter = true → headerLen buf + 4 ≤ buf.length
  element : Passes buf filter → protocol buf ≤ 100
  igmp : Passes buf filter → protocol buf = 2 → IgmpInBounds buf (headerLen buf) (totalLen buf)
  tcp : Passes buf filter → protocol buf = 6 → headerLen buf + 20 ≤ buf.length
  udp : Passes buf filter → protocol buf = 17 → headerLen buf + 8 ≤ buf.length

end Condition

/-! ## Decoders without a fault -/

def Safe {α : Type} (d : Decoder α) : Prop := ∃ a, d = .ok a

section Safe
variable {α β : Type} {buf : List UInt8} {hdr n : ℕ}

@[simp]
theorem safe_pure (a : α) : Safe (pure a) := ⟨a, rfl⟩

@[simp]
theorem safe_ok (a : α) : Safe (.ok a) := ⟨a, rfl⟩

@[simp]
theorem not_safe_error (fault : Fault) : ¬ Safe (.error fault : Decoder α) :=
  fun ⟨_, h⟩ => nomatch h

variable {d : Decoder α} {f : α → Decoder β}

theorem safe_bind {P : Prop}
    (hf : ∀ a, d = .ok a → (Safe (f a) ↔ P)) : Safe (d >>= f) ↔ Safe d ∧ P := by
  cases d with
  | error fault =>
      constructor
      · intro h
        exact absurd h (not_safe_error fault)
      · intro h
        exact absurd h.1 (not_safe_error fault)
  | ok a => exact (hf a rfl).trans (and_iff_right (safe_ok a)).symm

@[simp]
theorem safe_map (f : α → β) (d : Decoder α) : Safe (f <$> d) ↔ Safe d := by
  cases d with
  | error fault => exact iff_of_false (not_safe_error fault) (not_safe_error fault)
  | ok a => exact iff_of_true (safe_ok (f a)) (safe_ok a)

@[simp]
theorem safe_read : Safe (read buf hdr n) ↔ hdr + n ≤ buf.length := by
  rw [read]
  split
  next h => exact iff_of_true (safe_ok _) h
  next h => exact iff_of_false (not_safe_error _) h

@[simp]
theorem safe_read_bind {f : ℕ → Decoder β} :
    Safe (read buf hdr n >>= f) ↔ hdr + n ≤ buf.length ∧ Safe (f (numberAt buf hdr n)) := by
  rw [safe_bind fun a ha => ?_, safe_read]
  rw [read] at ha
  split at ha
  next => rw [← Except.ok.inj ha]
  next => exact nomatch ha

@[simp]
theorem safe_element {table : List String} {i : ℕ} : Safe (element table i) ↔ i < table.length := by
  rw [element]
  split
  next h => exact iff_of_true (safe_ok _) h
  next h => exact iff_of_false (not_safe_error _) h

theorem safe_ofSet_bind {o : Option α} : Safe (ofSet o >>= f) ↔ ∃ a, o = some a ∧ Safe (f a) := by
  cases o with
  | none => exact iff_of_false (not_safe_error _) (fun ⟨_, h, _⟩ => nomatch h)
  | some a => exact ⟨fun h => ⟨a, rfl, h⟩, fun ⟨_, h, hf⟩ => (Option.some.inj h) ▸ hf⟩

@[simp]
theorem safe_readIf {c : Prop} [Decidable c] : Safe (readIf c d) ↔ (c → Safe d) := by
  rw [readIf]
  split
  next h => exact (safe_map some d).trans ⟨fun hd _ => hd, fun hd => hd h⟩
  next h => exact iff_of_true (safe_pure none) fun hc => absurd hc h

end Safe

/-! ## The loops -/

section Loops
variable {buf : List UInt8} {hdr n : ℕ}

theorem safe_readSources (hhdr : hdr ≤ buf.length) :
    Safe (readSources buf hdr n) ↔ hdr + 4 * n ≤ buf.length := by
  induction n generalizing hdr with
  | zero => exact iff_of_true (safe_ok []) hhdr
  | succ n ih =>
      rw [readSources, safe_read_bind]
      constructor
      · rintro ⟨hread, hrest⟩
        rw [safe_bind (P := True) fun _ _ => iff_true_intro (safe_pure _), ih hread] at hrest
        omega
      · intro hle
        refine ⟨by omega, ?_⟩
        rw [safe_bind (P := True) fun _ _ => iff_true_intro (safe_pure _), ih (by omega)]
        exact ⟨by omega, trivial⟩

theorem le_recordsEnd (buf : List UInt8) (hdr n : ℕ) : hdr ≤ recordsEnd buf hdr n := by
  induction n generalizing hdr with
  | zero => exact Nat.le_refl hdr
  | succ n ih => exact Nat.le_trans (by omega) (ih (hdr + 8 + 4 * numberAt buf (hdr + 2) 2))

theorem safe_readRecords (hhdr : hdr ≤ buf.length) :
    Safe (readRecords buf hdr n) ↔ recordsEnd buf hdr n ≤ buf.length := by
  induction n generalizing hdr with
  | zero => exact iff_of_true (safe_ok []) hhdr
  | succ n ih =>
      have hend := le_recordsEnd buf (hdr + 8 + 4 * numberAt buf (hdr + 2) 2) n
      rw [readRecords, recordsEnd]
      simp only [safe_read_bind]
      constructor
      · rintro ⟨-, -, -, hread, hrest⟩
        rw [safe_bind fun _ _ => safe_bind (P := True) fun _ _ => iff_true_intro (safe_pure _),
          safe_readSources (by omega)] at hrest
        exact (ih hrest.1).mp hrest.2.1
      · intro hle
        refine ⟨by omega, by omega, by omega, by omega, ?_⟩
        rw [safe_bind fun _ _ => safe_bind (P := True) fun _ _ => iff_true_intro (safe_pure _),
          safe_readSources (by omega)]
        exact ⟨by omega, (ih (by omega)).mpr hle, trivial⟩

end Loops

/-! ## The decoders -/

section Decoders
variable {buf : List UInt8} {hdr total : ℕ}

variable {maxresptime type version : ℕ} {igmphdrlen : ℤ}

theorem safe_readQuery : Safe (readQuery buf hdr igmphdrlen) ↔
    hdr + 4 + 4 * ((igmphdrlen - 12).tdiv 4).toNat ≤ buf.length := by
  rw [readQuery]
  simp only [safe_read_bind]
  constructor
  · rintro ⟨-, -, hread, hrest⟩
    rw [safe_bind (P := True) fun _ _ => iff_true_intro (safe_pure _),
      safe_readSources (by omega)] at hrest
    exact hrest.1
  · intro hle
    refine ⟨by omega, by omega, by omega, ?_⟩
    rw [safe_bind (P := True) fun _ _ => iff_true_intro (safe_pure _), safe_readSources (by omega)]
    exact ⟨hle, trivial⟩

theorem safe_readReport : Safe (readReport buf hdr) ↔
    recordsEnd buf (hdr + 4) (numberAt buf (hdr + 2) 2) ≤ buf.length := by
  have hend := le_recordsEnd buf (hdr + 4) (numberAt buf (hdr + 2) 2)
  rw [readReport, safe_read_bind]
  constructor
  · rintro ⟨hread, hrest⟩
    exact (safe_readRecords (by omega)).mp hrest
  · intro hle
    exact ⟨by omega, (safe_readRecords (by omega)).mpr hle⟩

theorem type_lt_of_classify
    (h : (classify version type maxresptime igmphdrlen).2 ≠ none) : type < szIgmpType.length := by
  have hlength : szIgmpType.length = 8 := rfl
  rw [hlength]
  by_contra hle
  apply h
  simp only [classify]
  repeat' rw [if_neg (by omega)]

theorem length_of_query
    (h : classify version type maxresptime igmphdrlen = (3, some .query)) : 8 < igmphdrlen := by
  by_contra hle
  simp only [classify] at h
  grind

theorem toNat_tdiv (hlength : (8 : ℤ) < (total : ℤ) - hdr) :
    (((total : ℤ) - hdr - 12).tdiv 4).toNat = (total - hdr - 12) / 4 := by
  rcases le_or_gt (12 : ℤ) ((total : ℤ) - hdr) with hle | hlt
  · rw [Int.tdiv_eq_ediv_of_nonneg (by omega)]
    omega
  · have hneg : ((12 : ℤ) - (total - hdr)).tdiv 4 = 0 := by
      rw [Int.tdiv_eq_ediv_of_nonneg (by omega)]
      omega
    have hflip : (total : ℤ) - hdr - 12 = -(12 - (total - hdr)) := by omega
    rw [hflip, Int.neg_tdiv, hneg]
    omega

/-- What is read behind the checksum of a message of a known kind. -/
def BodyInBounds (buf : List UInt8) (hdr total version : ℕ) (message : Message) : Prop :=
  (message = .query → hdr + 8 ≤ buf.length) ∧
    (version = 3 ∧ message = .query →
      hdr + 12 + 4 * (((total : ℤ) - hdr - 12).tdiv 4).toNat ≤ buf.length) ∧
    (version = 3 ∧ message = .reportV3 →
      recordsEnd buf (hdr + 8) (numberAt buf (hdr + 6) 2) ≤ buf.length)

theorem safe_decodeIGMPHeader_iff_body : Safe (decodeIGMPHeader buf hdr total) ↔
    hdr + 4 ≤ buf.length ∧ ∃ message, (igmpKind buf hdr total).2 = some message ∧
      BodyInBounds buf hdr total (igmpKind buf hdr total).1 message := by
  rw [decodeIGMPHeader]
  simp only [safe_read_bind]
  rw [← igmpKind, safe_bind fun _ _ => safe_ofSet_bind.trans <| exists_congr fun _ =>
    and_congr_right fun _ => safe_bind fun _ _ => safe_bind fun _ _ => safe_bind (P := True)
      fun _ _ => iff_true_intro (safe_pure _)]
  simp only [safe_readIf, safe_read, safe_readQuery, safe_readReport, and_true, safe_element]
  constructor
  · rintro ⟨-, -, hheader, -, hbody⟩
    exact ⟨hheader, hbody⟩
  · rintro ⟨hheader, message, hmessage, hbody⟩
    have hset : (igmpKind buf hdr total).2 ≠ none := Option.ne_none_iff_exists'.mpr ⟨_, hmessage⟩
    exact ⟨by omega, by omega, hheader, type_lt_of_classify hset, message, hmessage, hbody⟩

theorem safe_decodeIGMPHeader : Safe (decodeIGMPHeader buf hdr total) ↔
    IgmpInBounds buf hdr total := by
  rw [safe_decodeIGMPHeader_iff_body]
  constructor
  · rintro ⟨hheader, message, hmessage, hgroup, hquery, hreport⟩
    refine ⟨hheader, fun hnone => ?_, fun h => ?_, fun h => ?_, fun h => ?_⟩
    · exact nomatch hmessage.symm.trans hnone
    · exact hgroup (Option.some.inj (hmessage.symm.trans h))
    · have hsources := toNat_tdiv (length_of_query h)
      rw [h] at hmessage hquery
      rw [← hsources]
      exact hquery ⟨rfl, (Option.some.inj hmessage).symm⟩
    · rw [h] at hmessage hreport
      exact hreport ⟨rfl, (Option.some.inj hmessage).symm⟩
  · intro h
    obtain ⟨message, hmessage⟩ := Option.ne_none_iff_exists'.mp h.known
    refine ⟨h.header, message, hmessage, ?_, ?_, ?_⟩
    · rintro rfl
      exact h.group hmessage
    · rintro ⟨hversion, rfl⟩
      have hkind : igmpKind buf hdr total = (3, some .query) := Prod.ext hversion hmessage
      rw [toNat_tdiv (length_of_query hkind)]
      exact h.query hkind
    · rintro ⟨hversion, rfl⟩
      exact h.report (Prod.ext hversion hmessage)

theorem safe_decodeTCPHeader : Safe (decodeTCPHeader buf hdr) ↔ hdr + 20 ≤ buf.length := by
  rw [decodeTCPHeader]
  simp only [safe_read_bind, safe_pure, and_true]
  omega

theorem safe_decodeUDPHeader : Safe (decodeUDPHeader buf hdr) ↔ hdr + 8 ≤ buf.length := by
  rw [decodeUDPHeader]
  simp only [safe_read_bind, safe_pure, and_true]
  omega

theorem safe_decodePayload {proto : ℕ} : Safe (decodePayload buf proto hdr total) ↔
    (proto = 2 → IgmpInBounds buf hdr total) ∧ (proto = 6 → hdr + 20 ≤ buf.length) ∧
      (proto = 17 → hdr + 8 ≤ buf.length) := by
  simp only [decodePayload]
  split
  · simp [safe_decodeIGMPHeader]
  · simp [safe_decodeTCPHeader]
  · simp [safe_decodeUDPHeader]
  next hne2 hne6 hne17 =>
      exact iff_of_true (safe_pure _)
        ⟨fun h => (hne2 h).elim, fun h => (hne6 h).elim, fun h => (hne17 h).elim⟩

variable {filter : Filter} {proto src dest : ℕ}

theorem safe_decodeFilter : Safe (decodeFilter filter buf proto hdr src dest) ↔
    ((proto = 2 ∨ proto = 6 ∨ proto = 17) → filter.bFilter = true → hdr + 4 ≤ buf.length) := by
  rw [decodeFilter, ← and_imp]
  split
  next hports =>
    simp only [safe_read_bind, safe_pure, and_true]
    exact ⟨fun h _ => h.2, fun h => ⟨Nat.le_trans (by omega) (h hports), h hports⟩⟩
  next hports => exact iff_of_true (safe_pure _) fun h => absurd h hports

theorem decodeFilter_ok {bPrint : Bool}
    (h : decodeFilter filter buf (protocol buf) (headerLen buf) (numberAt buf 12 4)
      (numberAt buf 16 4) = .ok bPrint) : bPrint = true ↔ Passes buf filter := by
  rw [decodeFilter] at h
  rw [Passes, hasPorts]
  split at h
  next hports =>
    rw [read, read] at h
    split at h
    · split at h
      · rw [← Except.ok.inj h]
        simp [hports]
      · exact nomatch h
    · exact nomatch h
  next hports =>
    rw [← Except.ok.inj h]
    cases hfilter : filter.bFilter with
    | false => simp
    | true =>
        have hports' : ¬ (protocol buf = 2 ∨ protocol buf = 6 ∨ protocol buf = 17) :=
          fun h => hports ⟨h, hfilter⟩
        simp [hports']

/-- `DecodeIPHeader` reads only bytes that were received, elements that the tables have and
variables that were set, if and only if the packet is in bounds. -/
theorem safe_decodeIPHeader_iff (filter : Filter) (buf : List UInt8) :
    Safe (decodeIPHeader filter buf) ↔ InBounds buf filter := by
  have hlength : szProto.length = 101 := rfl
  rw [decodeIPHeader]
  simp only [safe_read_bind]
  rw [← headerLen, ← totalLen, ← protocol, safe_bind fun bPrint hbPrint =>
    (safe_bind (P := True) fun _ _ => iff_true_intro (safe_pure _)).trans <|
      (and_iff_left trivial).trans <| safe_readIf.trans <|
        imp_congr (decodeFilter_ok hbPrint) <| safe_bind fun _ _ =>
          safe_bind (P := True) fun _ _ => iff_true_intro (safe_pure _)]
  simp only [safe_decodeFilter, safe_element, safe_decodePayload, and_true]
  constructor
  · rintro ⟨-, -, -, -, -, -, -, -, -, -, hheader, hports, hpasses⟩
    refine ⟨hheader, hports, fun h => ?_, fun h => ?_, fun h => ?_, fun h => ?_⟩
    · exact Nat.le_of_lt_succ ((hpasses h).1.trans_eq hlength)
    · exact (hpasses h).2.1
    · exact (hpasses h).2.2.1
    · exact (hpasses h).2.2.2
  · intro h
    have hheader := h.header
    refine ⟨by omega, by omega, by omega, by omega, by omega, by omega, by omega, by omega,
      by omega, by omega, hheader, h.ports, fun hpasses => ⟨?_, ?_, ?_, ?_⟩⟩
    · exact (Nat.lt_succ_of_le (h.element hpasses)).trans_eq hlength.symm
    · exact h.igmp hpasses
    · exact h.tcp hpasses
    · exact h.udp hpasses

/-- No filter. -/
def everyPacket : Filter := ⟨false, 0, 0, 0, 0⟩

/-- An IP header with nothing behind it, for SCTP. -/
def sctpPacket : List UInt8 :=
  [0x45, 0, 0, 20, 0, 1, 0, 0, 64, 132, 0, 0, 10, 0, 0, 1, 10, 0, 0, 2]

/-- The table of the protocols ends at 100. -/
theorem sctp_has_no_element : ¬ ∀ filter buf, Safe (decodeIPHeader filter buf) := by
  intro h
  have hfault : decodeIPHeader everyPacket sctpPacket = .error .noElement := rfl
  exact not_safe_error .noElement (hfault ▸ h everyPacket sctpPacket)

end Decoders

end MiscProjects.Rcvall
