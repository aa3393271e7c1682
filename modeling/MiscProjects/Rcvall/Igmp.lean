import MiscProjects.Rcvall.Bounds

/-!
# Version 3 of IGMP

Membership queries and reports as RFC 3376 lays them out, and what `DecodeIGMPHeader` makes
of them.  Of a query, two reserved bits are taken for the suppress flag.  In a report, the
next record is looked for where the auxiliary data of a record begins.
-/

namespace MiscProjects.Rcvall

open NetworkOrder

/-! ## The messages -/

/-- A membership query.  What the four reserved bits hold is to be ignored. -/
structure Query where
  maxRespCode : UInt8
  checksum : UInt16
  group : UInt32
  reserve : Fin 16
  suppress : Bool
  qrv : Fin 8
  qqic : UInt8
  sources : List UInt32
  sources_lt : sources.length < 2 ^ 16

/-- A group record; the auxiliary data is counted in words of 32 bits. -/
structure Record where
  type : UInt8
  group : UInt32
  sources : List UInt32
  auxData : List UInt32
  sources_lt : sources.length < 2 ^ 16
  auxData_lt : auxData.length < 2 ^ 8

structure Report where
  reserved1 : UInt8
  checksum : UInt16
  reserved2 : UInt16
  records : List Record
  records_lt : records.length < 2 ^ 16

def words (ws : List UInt32) : List UInt8 := ws.flatMap fun w => bytes 4 w.toNat

def Query.flags (q : Query) : ℕ := 16 * q.reserve + 8 * q.suppress.toNat + q.qrv

def Query.encode (q : Query) : List UInt8 :=
  bytes 1 0x11 ++ (bytes 1 q.maxRespCode.toNat ++ (bytes 2 q.checksum.toNat ++
    (bytes 4 q.group.toNat ++ (bytes 1 q.flags ++ (bytes 1 q.qqic.toNat ++
      (bytes 2 q.sources.length ++ words q.sources))))))

/-- A record with a given number of words of auxiliary data, as far as these. -/
def Record.fixed (r : Record) (auxDataLen : UInt8) : List UInt8 :=
  bytes 1 r.type.toNat ++ (bytes 1 auxDataLen.toNat ++ (bytes 2 r.sources.length ++
    (bytes 4 r.group.toNat ++ words r.sources)))

def Record.encode (r : Record) : List UInt8 :=
  r.fixed (UInt8.ofNat r.auxData.length) ++ words r.auxData

def Report.encode (r : Report) : List UInt8 :=
  bytes 1 0x22 ++ (bytes 1 r.reserved1.toNat ++ (bytes 2 r.checksum.toNat ++
    (bytes 2 r.reserved2.toNat ++ (bytes 2 r.records.length ++ r.records.flatMap Record.encode))))

/-! ## What should be extracted -/

/-- The decoder's answer to a message behind an IP header. -/
def decoded (iphdr message : List UInt8) : Decoder IgmpHeader :=
  decodeIGMPHeader (iphdr ++ message) iphdr.length (iphdr.length + message.length)

def QueryDecoded (iphdr : List UInt8) (q : Query) : Prop :=
  ∃ header fields, decoded iphdr q.encode = .ok header ∧ header.query = some fields ∧
    fields.suppress = q.suppress ∧ fields.qrv = q.qrv ∧ fields.qqi = q.qqic.toNat ∧
    fields.sources = q.sources.map UInt32.toNat

/-- The type, the group and the sources of a record. -/
def Record.values (r : Record) : ℕ × ℕ × List ℕ :=
  (r.type.toNat, r.group.toNat, r.sources.map UInt32.toNat)

def GroupRecord.values (r : GroupRecord) : ℕ × ℕ × List ℕ := (r.rectype, r.group, r.sources)

def ReportDecoded (iphdr : List UInt8) (r : Report) : Prop :=
  ∃ header records, decoded iphdr r.encode = .ok header ∧ header.records = some records ∧
    records.map GroupRecord.values = r.records.map Record.values

/-- The bytes begin with the fixed parts and the sources of the records, one record behind
the other, with no auxiliary data between them. -/
def Follow : List Record → List UInt8 → Prop
  | [], _ => True
  | r :: records, row =>
      (∃ auxDataLen, r.fixed auxDataLen <+: row) ∧
        Follow records (row.drop (8 + 4 * r.sources.length))

/-! ## Reading a row of bytes -/

section Reading
variable {buf row a b : List UInt8} {hdr n value : ℕ} {α β : Type}

theorem append_prefix_iff : a ++ b <+: row ↔ a <+: row ∧ b <+: row.drop a.length := by
  constructor
  · rintro ⟨rest, rfl⟩
    rw [List.append_assoc, List.drop_left]
    exact ⟨List.prefix_append _ _, List.prefix_append _ _⟩
  · rintro ⟨⟨rest, rfl⟩, h⟩
    rw [List.drop_left] at h
    exact (List.prefix_append_right_inj a).mpr h

theorem length_words (ws : List UInt32) : (words ws).length = 4 * ws.length := by
  induction ws with
  | nil => exact (Nat.mul_zero 4).symm
  | cons w ws ih =>
      rw [words, List.flatMap_cons, List.length_append, length_bytes, ← words, ih, List.length_cons]
      omega

theorem length_fixed (r : Record) (auxDataLen : UInt8) :
    (r.fixed auxDataLen).length = 8 + 4 * r.sources.length := by
  simp only [Record.fixed, List.length_append, length_bytes, length_words]
  omega

theorem read_eq_ok_iff (hn : 0 < n) (hvalue : value < 256 ^ n) :
    read buf hdr n = .ok value ↔ bytes n value <+: buf.drop hdr := by
  rw [read, List.prefix_iff_eq_take, length_bytes]
  split
  next h =>
    have hlength : ((buf.drop hdr).take n).length = n := by
      rw [List.length_take, List.length_drop]
      omega
    rw [Except.ok.injEq, numberAt, number_eq_iff hlength hvalue, eq_comm]
  next h =>
    constructor
    · intro hread
      cases hread
    · intro htake
      have hlength := congrArg List.length htake
      rw [length_bytes, List.length_take, List.length_drop] at hlength
      omega

theorem read_byte (b : UInt8) : read buf hdr 1 = .ok b.toNat ↔ bytes 1 b.toNat <+: buf.drop hdr :=
  read_eq_ok_iff Nat.one_pos b.toNat_lt

theorem read_word (w : UInt32) : read buf hdr 4 = .ok w.toNat ↔ bytes 4 w.toNat <+: buf.drop hdr :=
  read_eq_ok_iff (by decide) w.toNat_lt

theorem bind_eq_ok_iff {d : Decoder α} {f : α → Decoder β} {y : β} :
    d >>= f = .ok y ↔ ∃ x, d = .ok x ∧ f x = .ok y := by
  cases d with
  | error fault => exact iff_of_false (fun h => nomatch h) fun ⟨_, h, _⟩ => nomatch h
  | ok x => exact ⟨fun h => ⟨x, rfl, h⟩, fun ⟨x', h, hf⟩ => (Except.ok.inj h) ▸ hf⟩

theorem map_eq_ok_iff {d : Decoder α} {f : α → β} {y : β} :
    f <$> d = .ok y ↔ ∃ x, d = .ok x ∧ f x = y := by
  cases d with
  | error fault => exact iff_of_false (fun h => nomatch h) fun ⟨_, h, _⟩ => nomatch h
  | ok x => exact ⟨fun h => ⟨x, rfl, Except.ok.inj h⟩,
      fun ⟨x', h, hf⟩ => (Except.ok.inj h) ▸ congrArg Except.ok hf⟩

theorem lt_of_read (h : read buf hdr n = .ok value) : value < 256 ^ n := by
  rw [read] at h
  split at h
  next hle =>
    have hlength : ((buf.drop hdr).take n).length = n := by
      rw [List.length_take, List.length_drop]
      omega
    rw [← Except.ok.inj h, numberAt]
    exact (number_lt _).trans_eq (congrArg (256 ^ ·) hlength)
  next => cases h

end Reading

/-! ## The loops -/

section Loops
variable {buf : List UInt8} {hdr n : ℕ}

theorem readSources_eq_ok_iff (ws : List UInt32) :
    readSources buf hdr ws.length = .ok (ws.map UInt32.toNat) ↔ words ws <+: buf.drop hdr := by
  induction ws generalizing hdr with
  | nil => exact iff_of_true rfl List.nil_prefix
  | cons w ws ih =>
      rw [words, List.flatMap_cons, append_prefix_iff, length_bytes, List.drop_drop, ← words,
        ← read_word, ← ih, List.length_cons, readSources, bind_eq_ok_iff]
      constructor
      · rintro ⟨addr, haddr, h⟩
        obtain ⟨sources, hsources, h⟩ := bind_eq_ok_iff.mp h
        obtain ⟨rfl, rfl⟩ := List.cons.inj (Except.ok.inj h)
        exact ⟨haddr, hsources⟩
      · rintro ⟨haddr, hsources⟩
        exact ⟨_, haddr, bind_eq_ok_iff.mpr ⟨_, hsources, rfl⟩⟩

theorem length_of_readSources {sources : List ℕ} (h : readSources buf hdr n = .ok sources) :
    sources.length = n := by
  induction n generalizing hdr sources with
  | zero => exact (Except.ok.inj h) ▸ rfl
  | succ n ih =>
      obtain ⟨addr, -, h⟩ := bind_eq_ok_iff.mp h
      obtain ⟨rest, hrest, h⟩ := bind_eq_ok_iff.mp h
      rw [← Except.ok.inj h, List.length_cons, ih hrest]

/-- The variables get the values of a record. -/
def ReadsRecord (buf : List UInt8) (hdr : ℕ) (r : Record) (auxdatalen : ℕ) : Prop :=
  read buf hdr 1 = .ok r.type.toNat ∧ read buf (hdr + 1) 1 = .ok auxdatalen ∧
    read buf (hdr + 2) 2 = .ok r.sources.length ∧ read buf (hdr + 4) 4 = .ok r.group.toNat ∧
    readSources buf (hdr + 8) r.sources.length = .ok (r.sources.map UInt32.toNat)

theorem readsRecord_iff (r : Record) (auxDataLen : UInt8) :
    ReadsRecord buf hdr r auxDataLen.toNat ↔ r.fixed auxDataLen <+: buf.drop hdr := by
  rw [ReadsRecord, read_byte, read_byte, read_eq_ok_iff (by decide) r.sources_lt, read_word,
    readSources_eq_ok_iff]
  simp only [Record.fixed, append_prefix_iff, length_bytes, List.drop_drop, Nat.add_assoc,
    Nat.reduceAdd]

theorem exists_readsRecord_iff (r : Record) : (∃ auxdatalen, ReadsRecord buf hdr r auxdatalen) ↔
      ∃ auxDataLen, r.fixed auxDataLen <+: buf.drop hdr := by
  constructor
  · rintro ⟨auxdatalen, h⟩
    have hbyte : (UInt8.ofNat auxdatalen).toNat = auxdatalen :=
      UInt8.toNat_ofNat_of_lt' (lt_of_read h.2.1)
    refine ⟨UInt8.ofNat auxdatalen, (readsRecord_iff r _).mp ?_⟩
    rwa [hbyte]
  · rintro ⟨auxDataLen, h⟩
    exact ⟨auxDataLen.toNat, (readsRecord_iff r auxDataLen).mpr h⟩

/-- The loop over the records extracts their values if and only if the records follow each
other without auxiliary data. -/
theorem readRecords_iff (rs : List Record) :
    (∃ records, readRecords buf hdr rs.length = .ok records ∧
        records.map GroupRecord.values = rs.map Record.values) ↔ Follow rs (buf.drop hdr) := by
  induction rs generalizing hdr with
  | nil => exact iff_of_true ⟨[], rfl, rfl⟩ trivial
  | cons r rs ih =>
      rw [Follow, ← exists_readsRecord_iff, List.drop_drop, ← Nat.add_assoc, ← ih]
      constructor
      · rintro ⟨records, h, hvalues⟩
        simp only [List.length_cons, readRecords, bind_eq_ok_iff] at h
        obtain ⟨rectype, hrectype, auxdatalen, haux, numsources, hnum, group, hgroup, sources,
          hsources, rest, hrest, h⟩ := h
        rw [← Except.ok.inj h, List.map_cons, List.map_cons] at hvalues
        obtain ⟨hrecord, hothers⟩ := List.cons.inj hvalues
        simp only [GroupRecord.values, Record.values, Prod.mk.injEq] at hrecord
        obtain ⟨rfl, rfl, rfl⟩ := hrecord
        have hlength : r.sources.length = numsources := by
          rw [← length_of_readSources hsources, List.length_map]
        subst hlength
        exact ⟨⟨auxdatalen, hrectype, haux, hnum, hgroup, hsources⟩, rest, hrest, hothers⟩
      · rintro ⟨⟨auxdatalen, hrectype, haux, hnum, hgroup, hsources⟩, rest, hrest, hvalues⟩
        refine ⟨⟨_, auxdatalen, r.sources.length, _, _⟩ :: rest, ?_,
          congrArg (r.values :: ·) hvalues⟩
        simp only [List.length_cons, readRecords, bind_eq_ok_iff]
        exact ⟨_, hrectype, _, haux, _, hnum, _, hgroup, _, hsources, _, hrest, rfl⟩

end Loops

/-! ## The header -/

section Header
variable {buf : List UInt8} {hdr total n value : ℕ}

theorem read_of_le (h : hdr + n ≤ buf.length) : read buf hdr n = .ok (numberAt buf hdr n) :=
  if_pos h

theorem of_read (h : read buf hdr n = .ok value) :
    hdr + n ≤ buf.length ∧ numberAt buf hdr n = value := by
  rw [read] at h
  split at h
  next hle => exact ⟨hle, Except.ok.inj h⟩
  next => cases h

variable {maxresptime : ℕ} {c : Prop} {igmphdrlen : ℤ} {α : Type}

theorem readIf_pos [Decidable c] (h : c) (d : Decoder α) : readIf c d = some <$> d := if_pos h

theorem readIf_neg [Decidable c] (h : ¬ c) (d : Decoder α) : readIf c d = pure none := if_neg h

theorem ok_bind {β : Type} (a : α) (f : α → Decoder β) : (Except.ok a >>= f) = f a := rfl

theorem decodeIGMPHeader_eq {message : Message} (hheader : hdr + 4 ≤ buf.length)
    (hkind : (igmpKind buf hdr total).2 = some message) :
    ∃ type, decodeIGMPHeader buf hdr total = (do
      let grpAddr ← readIf (message = .query) (read buf (hdr + 4) 4)
      let query ← readIf ((igmpKind buf hdr total).1 = 3 ∧ message = .query)
        (readQuery buf (hdr + 8) ((total : ℤ) - hdr))
      let records ← readIf ((igmpKind buf hdr total).1 = 3 ∧ message = .reportV3)
        (readReport buf (hdr + 4))
      return {
        version := (igmpKind buf hdr total).1
        type
        maxRespTime := if 2 ≤ (igmpKind buf hdr total).1 then some (numberAt buf (hdr + 1) 1)
          else none
        grpAddr
        query
        records }) := by
  have hset : (igmpKind buf hdr total).2 ≠ none := Option.ne_none_iff_exists'.mpr ⟨_, hkind⟩
  have htype := type_lt_of_classify hset
  refine ⟨szIgmpType[loWord (numberAt buf hdr 1)], ?_⟩
  rw [decodeIGMPHeader, read_of_le (by omega), ok_bind, read_of_le (by omega), ok_bind,
    read_of_le (by omega), ok_bind]
  simp only
  rw [← igmpKind, element, dif_pos htype, ok_bind, hkind]
  rfl

theorem decodeIGMPHeader_query {fields : QueryFields} (hheader : hdr + 4 ≤ buf.length)
    (hkind : igmpKind buf hdr total = (3, some .query)) :
    (∃ header, decodeIGMPHeader buf hdr total = .ok header ∧ header.query = some fields) ↔
      hdr + 8 ≤ buf.length ∧ readQuery buf (hdr + 8) ((total : ℤ) - hdr) = .ok fields := by
  obtain ⟨type, heq⟩ := decodeIGMPHeader_eq hheader (congrArg Prod.snd hkind)
  have hquery : (igmpKind buf hdr total).1 = 3 ∧ Message.query = .query :=
    ⟨congrArg Prod.fst hkind, rfl⟩
  have hreport : ¬ ((igmpKind buf hdr total).1 = 3 ∧ Message.query = .reportV3) :=
    fun h => nomatch h.2
  rw [heq, readIf_pos rfl, readIf_pos hquery, readIf_neg hreport]
  simp only [bind_eq_ok_iff, map_eq_ok_iff]
  constructor
  · rintro ⟨header, ⟨_, ⟨addr, hgroup, -⟩, _, ⟨fields', hread, rfl⟩, _, -, h⟩, hquery⟩
    obtain rfl := Option.some.inj ((congrArg IgmpHeader.query (Except.ok.inj h)).trans hquery)
    exact ⟨(of_read hgroup).1, hread⟩
  · rintro ⟨hle, hread⟩
    exact ⟨_, ⟨_, ⟨_, read_of_le hle, rfl⟩, _, ⟨_, hread, rfl⟩, none, rfl, rfl⟩, rfl⟩

theorem decodeIGMPHeader_report {records : List GroupRecord} (hheader : hdr + 4 ≤ buf.length)
    (hkind : igmpKind buf hdr total = (3, some .reportV3)) :
    (∃ header, decodeIGMPHeader buf hdr total = .ok header ∧ header.records = some records) ↔
      readReport buf (hdr + 4) = .ok records := by
  obtain ⟨type, heq⟩ := decodeIGMPHeader_eq hheader (congrArg Prod.snd hkind)
  have hgroup : ¬ Message.reportV3 = .query := fun h => nomatch h
  have hquery : ¬ ((igmpKind buf hdr total).1 = 3 ∧ Message.reportV3 = .query) :=
    fun h => nomatch h.2
  have hreport : (igmpKind buf hdr total).1 = 3 ∧ Message.reportV3 = .reportV3 :=
    ⟨congrArg Prod.fst hkind, rfl⟩
  rw [heq, readIf_neg hgroup, readIf_neg hquery, readIf_pos hreport]
  simp only [bind_eq_ok_iff, map_eq_ok_iff]
  constructor
  · rintro ⟨header, ⟨_, -, _, -, _, ⟨records', hread, rfl⟩, h⟩, hrecords⟩
    obtain rfl := Option.some.inj ((congrArg IgmpHeader.records (Except.ok.inj h)).trans hrecords)
    exact hread
  · intro hread
    exact ⟨_, ⟨none, rfl, none, rfl, _, ⟨_, hread, rfl⟩, rfl⟩, rfl⟩

theorem classify_query (h : 8 < igmphdrlen) :
    classify 1 1 maxresptime igmphdrlen = (3, some .query) := by
  rw [classify, if_neg (by omega), if_neg (by omega), if_neg (by omega), if_pos ⟨rfl, h, rfl⟩]

theorem classify_report (h : 8 < igmphdrlen) :
    classify 2 2 maxresptime igmphdrlen = (3, some .reportV3) := by
  rw [classify, if_neg (by omega), if_neg (by omega), if_neg (by omega), if_neg (by omega),
    if_neg (by omega), if_neg (by omega), if_pos ⟨rfl, h, rfl⟩]

theorem classify_empty_report : classify 2 2 maxresptime 8 = (0, none) := by
  rw [classify, if_neg (by omega), if_neg (by omega), if_neg (by omega), if_neg (by omega),
    if_neg (by omega), if_neg (by omega), if_neg (by omega)]

end Header

/-! ## Queries -/

section Queries
variable (iphdr : List UInt8) (q : Query)

theorem Query.flags_lt : q.flags < 256 := by
  have hreserve := q.reserve.isLt
  have hsuppress := Bool.toNat_le q.suppress
  have hqrv := q.qrv.isLt
  rw [Query.flags]
  omega

theorem Query.length_encode : q.encode.length = 12 + 4 * q.sources.length := by
  simp only [Query.encode, List.length_append, length_bytes, length_words]
  omega

/-- What the decoder reads of a query. -/
structure Query.ReadFrom (buf : List UInt8) (hdr : ℕ) : Prop where
  type : read buf hdr 1 = .ok 0x11
  group : read buf (hdr + 4) 4 = .ok q.group.toNat
  flags : read buf (hdr + 8) 1 = .ok q.flags
  qqic : read buf (hdr + 8 + 1) 1 = .ok q.qqic.toNat
  numsources : read buf (hdr + 8 + 2) 2 = .ok q.sources.length
  sources : readSources buf (hdr + 8 + 4) q.sources.length = .ok (q.sources.map UInt32.toNat)

theorem Query.readFrom_encode : q.ReadFrom (iphdr ++ q.encode) iphdr.length := by
  have hrow : q.encode <+: (iphdr ++ q.encode).drop iphdr.length := by
    simp only [List.drop_left, List.prefix_rfl]
  rw [Query.encode] at hrow
  simp only [append_prefix_iff, length_bytes, List.drop_drop, Nat.add_assoc, Nat.reduceAdd] at hrow
  rw [← Query.encode] at hrow
  obtain ⟨htype, -, -, hgroup, hflags, hqqic, hnum, hsources⟩ := hrow
  exact {
    type := (read_eq_ok_iff Nat.one_pos (by decide)).mpr htype
    group := read_word q.group |>.mpr hgroup
    flags := (read_eq_ok_iff Nat.one_pos q.flags_lt).mpr hflags
    qqic := read_byte q.qqic |>.mpr hqqic
    numsources := (read_eq_ok_iff (by decide) q.sources_lt).mpr hnum
    sources := (readSources_eq_ok_iff q.sources).mpr hsources }

theorem Query.readQuery_encode {buf : List UInt8} {hdr : ℕ} (h : q.ReadFrom buf hdr) :
    readQuery buf (hdr + 8) (12 + 4 * q.sources.length) = .ok {
      reserve := q.flags / 16
      suppress := q.flags / 8 % 8 ≠ 0
      qrv := q.flags % 8
      qqi := q.qqic.toNat
      numsources := q.sources.length
      mismatch := false
      sources := q.sources.map UInt32.toNat } := by
  have hcount : ((12 + 4 * q.sources.length : ℤ) - 12).tdiv 4 = q.sources.length := by
    rw [Int.tdiv_eq_ediv_of_nonneg (by omega)]
    omega
  rw [readQuery, h.flags, ok_bind, h.qqic, ok_bind, h.numsources, ok_bind, hcount]
  simp only [Int.toNat_natCast]
  rw [h.sources, ok_bind]
  simp only [ne_eq, not_true_eq_false, decide_false]
  rfl

/-- A query is decoded correctly unless its suppress flag is clear and one of the two bits
beside it is not. -/
theorem queryDecoded_iff : QueryDecoded iphdr q ↔ q.suppress = true ∨ q.reserve.val % 4 = 0 := by
  have hread := q.readFrom_encode iphdr
  have hlength : (iphdr ++ q.encode).length = iphdr.length + (12 + 4 * q.sources.length) := by
    rw [List.length_append, q.length_encode]
  have hdiff : ((iphdr.length + q.encode.length : ℕ) : ℤ) - iphdr.length =
      12 + 4 * q.sources.length := by
    rw [q.length_encode]
    omega
  have hkind : igmpKind (iphdr ++ q.encode) iphdr.length (iphdr.length + q.encode.length) =
      (3, some .query) := by
    rw [igmpKind, (of_read hread.type).2, hdiff]
    exact classify_query (by omega)
  have hqrv : q.flags % 8 = q.qrv := by
    have hlt := q.qrv.isLt
    rw [Query.flags]
    omega
  have hflag : decide (q.flags / 8 % 8 ≠ 0) = q.suppress ↔
      q.suppress = true ∨ q.reserve.val % 4 = 0 := by
    have hlt := q.qrv.isLt
    rw [Query.flags]
    cases q.suppress with
    | true =>
        rw [decide_eq_true_iff, Bool.toNat_true]
        simp only [true_or, iff_true]
        omega
    | false =>
        rw [decide_eq_false_iff_not, Bool.toNat_false]
        simp only [Bool.false_eq_true, false_or]
        omega
  rw [← hflag]
  constructor
  · rintro ⟨header, fields, hdecoded, hquery, hsuppress, -⟩
    have hfields := ((decodeIGMPHeader_query (by omega) hkind).mp ⟨header, hdecoded, hquery⟩).2
    rw [hdiff, q.readQuery_encode hread] at hfields
    rw [← hsuppress, ← Except.ok.inj hfields]
  · intro hsuppress
    have hfields := q.readQuery_encode hread
    rw [← hdiff] at hfields
    obtain ⟨header, hdecoded, hquery⟩ :=
      (decodeIGMPHeader_query (by omega) hkind).mpr ⟨by omega, hfields⟩
    exact ⟨header, _, hdecoded, hquery, hsuppress, hqrv, rfl, rfl⟩

end Queries

/-! ## Reports -/

section Reports
variable (iphdr : List UInt8) (r : Report)

theorem Report.length_encode : r.encode.length = 8 + (r.records.flatMap Record.encode).length := by
  simp only [Report.encode, List.length_append, length_bytes]
  omega

theorem Record.length_pos (rec : Record) : 0 < rec.encode.length := by
  rw [Record.encode, List.length_append, length_fixed]
  omega

theorem flatMap_encode_eq_nil_iff (records : List Record) :
    records.flatMap Record.encode = [] ↔ records = [] := by
  constructor
  · intro h
    rw [List.flatMap_eq_nil_iff] at h
    by_contra hne
    obtain ⟨rec, hmem⟩ := List.exists_mem_of_ne_nil records hne
    have hpos := rec.length_pos
    rw [h rec hmem] at hpos
    exact Nat.lt_irrefl 0 hpos
  · rintro rfl
    rfl

/-- What the decoder reads of a report before the records. -/
structure Report.ReadFrom (buf : List UInt8) (hdr : ℕ) : Prop where
  type : read buf hdr 1 = .ok 0x22
  numrecs : read buf (hdr + 4 + 2) 2 = .ok r.records.length
  rest : buf.drop (hdr + 4 + 4) = r.records.flatMap Record.encode

theorem Report.readFrom_encode : r.ReadFrom (iphdr ++ r.encode) iphdr.length := by
  have hrow : r.encode <+: (iphdr ++ r.encode).drop iphdr.length := by
    simp only [List.drop_left, List.prefix_rfl]
  rw [Report.encode] at hrow
  simp only [append_prefix_iff, length_bytes, List.drop_drop, Nat.add_assoc, Nat.reduceAdd] at hrow
  rw [← Report.encode] at hrow
  obtain ⟨htype, -, -, -, hnum, hrest⟩ := hrow
  refine ⟨(read_eq_ok_iff Nat.one_pos (by decide)).mpr htype,
    (read_eq_ok_iff (by decide) r.records_lt).mpr hnum, (hrest.eq_of_length ?_).symm⟩
  rw [List.length_drop, List.length_append, r.length_encode]
  omega

/-- A report is decoded correctly if and only if it has a record, and its records follow each
other without auxiliary data, or as if they had none. -/
theorem reportDecoded_iff : ReportDecoded iphdr r ↔
    r.records ≠ [] ∧ Follow r.records (r.records.flatMap Record.encode) := by
  have hread := r.readFrom_encode iphdr
  have hdiff : ((iphdr.length + r.encode.length : ℕ) : ℤ) - iphdr.length =
      8 + (r.records.flatMap Record.encode).length := by
    rw [r.length_encode]
    omega
  have hheader : iphdr.length + 4 ≤ (iphdr ++ r.encode).length := by
    rw [List.length_append, r.length_encode]
    omega
  have hkind : igmpKind (iphdr ++ r.encode) iphdr.length (iphdr.length + r.encode.length) =
      classify 2 2 (numberAt (iphdr ++ r.encode) (iphdr.length + 1) 1)
        (8 + (r.records.flatMap Record.encode).length) := by
    rw [igmpKind, (of_read hread.type).2, hdiff]
    rfl
  have hreport (records : List GroupRecord) :
      readReport (iphdr ++ r.encode) (iphdr.length + 4) = .ok records ↔
        readRecords (iphdr ++ r.encode) (iphdr.length + 4 + 4) r.records.length = .ok records := by
    rw [readReport, hread.numrecs, ok_bind]
  by_cases hempty : r.records = []
  · have hbad : (igmpKind (iphdr ++ r.encode) iphdr.length
        (iphdr.length + r.encode.length)).2 = none := by
      rw [hkind, hempty, List.flatMap_nil, List.length_nil]
      exact congrArg Prod.snd classify_empty_report
    constructor
    · rintro ⟨header, -, hdecoded, -⟩
      exact absurd hbad (safe_decodeIGMPHeader.mp ⟨header, hdecoded⟩).known
    · intro h
      exact absurd hempty h.1
  · have hpos := List.length_pos_iff.mpr (mt (flatMap_encode_eq_nil_iff r.records).mp hempty)
    rw [classify_report (by omega)] at hkind
    rw [and_iff_right hempty, ← hread.rest, ← readRecords_iff]
    constructor
    · rintro ⟨header, records, hdecoded, hrecords, hvalues⟩
      refine ⟨records, (hreport records).mp ?_, hvalues⟩
      exact (decodeIGMPHeader_report hheader hkind).mp ⟨header, hdecoded, hrecords⟩
    · rintro ⟨records, hok, hvalues⟩
      obtain ⟨header, hdecoded, hrecords⟩ :=
        (decodeIGMPHeader_report hheader hkind).mpr ((hreport records).mpr hok)
      exact ⟨header, records, hdecoded, hrecords, hvalues⟩

end Reports

/-- Two groups are left, with one word of auxiliary data for the first. -/
def leaveTwoGroups : Report where
  reserved1 := 0
  checksum := 0
  reserved2 := 0
  records :=
    [⟨4, 0xE0000105, [], [0], by decide, by decide⟩, ⟨4, 0xE0000106, [], [], by decide, by decide⟩]
  records_lt := by decide

end MiscProjects.Rcvall
