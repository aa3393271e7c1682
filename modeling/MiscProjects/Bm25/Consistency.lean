import Mathlib.Data.List.Induction
import MiscProjects.Bm25.Index

/-!
# When the statistics describe the documents

Adding a document counts it and its terms, also when its id replaces a document
of an earlier batch, whose counts stay.  Each batch numbers its texts from 0,
so the second batch with a text breaks the statistics, and they stay broken.
Up to then they are right, but for words that are properties of every object.
-/

namespace MiscProjects.Bm25

variable {K : Type*}

/-- What an entry says of the number of documents. -/
def freqIn (terms : AList (fun _ : String => Term K)) (t : String) : ℕ :=
  ((terms.lookup t).map Term.n).getD 0

/-- `terms[t].n`, where there is such an entry. -/
def BM25.docFreq (bm : BM25 K) (t : String) : ℕ := freqIn bm.terms t

/-- The number of documents in the table that contain a term. -/
def BM25.docsWith (bm : BM25 K) (t : String) : ℕ :=
  bm.documents.countP fun d => t ∈ d.tokens

/-- The statistics are those of the documents in the table. -/
structure Consistent [Field K] (bm : BM25 K) : Prop where
  n : ∀ t, bm.docFreq t = bm.docsWith t
  totalDocuments : bm.totalDocuments = bm.documents.length
  averageDocumentLength : bm.averageDocumentLength =
    ((bm.documents.map Document.termCount).sum : ℕ) / (bm.documents.length : K)

/-- The batches that have a text. -/
def batches (messages : List Message) : List (List String) :=
  messages.filterMap fun
    | .indexBatch (text :: texts) => some (text :: texts)
    | _ => none

/-- At most one batch has a text, and no word of it is a property of
`Object.prototype`. -/
def IndexedOnce (stemmer : String → String) (messages : List Message) : Prop :=
  (batches messages).length ≤ 1 ∧
    ∀ texts ∈ batches messages, ∀ text ∈ texts, ∀ term ∈ Tokenize stemmer text,
      term ∉ prototypeNames

theorem batches_append (messages more : List Message) :
    batches (messages ++ more) = batches messages ++ batches more :=
  List.filterMap_append

/-! ## Counting the terms of a document -/

section Counting
variable {term t : String} {tokens : List String}

theorem countToken_keys (counts : AList (fun _ : String => TermCount K)) [Field K] :
    t ∈ countToken counts term ↔ t ∈ counts ∨ (t = term ∧ term ∉ prototypeNames) := by
  unfold countToken
  by_cases hinherited : term ∈ prototypeNames
  · simp [hinherited]
  · rw [if_neg hinherited]
    cases hlookup : counts.lookup term with
    | none | some c => simp [AList.mem_insert, hinherited, or_comm]

theorem mem_countTokens [Field K] :
    t ∈ (countTokens tokens : AList (fun _ : String => TermCount K)) ↔
      t ∈ tokens ∧ t ∉ prototypeNames := by
  have hfold : ∀ counts : AList (fun _ : String => TermCount K),
      t ∈ tokens.foldl countToken counts ↔ t ∈ counts ∨ (t ∈ tokens ∧ t ∉ prototypeNames) := by
    induction tokens with
    | nil => simp
    | cons term tokens ih =>
        intro counts
        rw [List.foldl_cons, ih, countToken_keys]
        grind
  have hempty : t ∉ (∅ : AList (fun _ : String => TermCount K)) := by simp
  rw [countTokens, hfold]
  simp [hempty]

end Counting

theorem freqIn_countDocument [Field K] (terms : AList (fun _ : String => Term K))
    (term t : String) : freqIn (countDocument terms term) t =
      freqIn terms t + if t = term then 1 else 0 := by
  unfold freqIn countDocument
  by_cases hsame : t = term
  · subst hsame
    cases hlookup : terms.lookup t <;> simp
  · cases hlookup : terms.lookup term <;>
      simp [AList.lookup_insert_ne hsame, hsame]

theorem freqIn_countDocuments [Field K] {keys : List String} (hnodup : keys.Nodup)
    (terms : AList (fun _ : String => Term K)) (t : String) :
    freqIn (keys.foldl countDocument terms) t = freqIn terms t + if t ∈ keys then 1 else 0 := by
  induction keys generalizing terms with
  | nil => simp
  | cons key keys ih =>
      rw [List.nodup_cons] at hnodup
      rw [List.foldl_cons, ih hnodup.2, freqIn_countDocument]
      by_cases hsame : t = key
      · subst hsame
        simp [hnodup.1]
      · simp [hsame]

section Idf
variable [Field K] [LinearOrder K] (log10 : K → K)

theorem freqIn_setIdf (total : ℕ) (terms : AList (fun _ : String => Term K))
    (term t : String) : freqIn (setIdf log10 total terms term) t = freqIn terms t := by
  unfold freqIn setIdf
  by_cases hsame : t = term
  · subst hsame
    cases hlookup : terms.lookup t <;> simp [hlookup]
  · cases hlookup : terms.lookup term <;>
      simp [AList.lookup_insert_ne hsame]

theorem docFreq_updateIdf (bm : BM25 K) (t : String) :
    (bm.updateIdf log10).docFreq t = bm.docFreq t := by
  have hfold : ∀ (keys : List String) (terms : AList (fun _ : String => Term K)),
      freqIn (keys.foldl (setIdf log10 bm.totalDocuments) terms) t = freqIn terms t := by
    intro keys
    induction keys with
    | nil => simp
    | cons key keys ih =>
        intro terms
        rw [List.foldl_cons, ih, freqIn_setIdf]
  exact hfold _ _

end Idf

/-! ## The table -/

section Table

theorem setDocument_nil (docObj : Document K) : setDocument docObj [] = [docObj] := rfl

theorem setDocument_cons (docObj d : Document K) (documents : List (Document K)) :
    setDocument docObj (d :: documents) =
      if docObj.id < d.id then docObj :: d :: documents
      else if docObj.id = d.id then docObj :: documents
      else d :: setDocument docObj documents := rfl

variable {documents : List (Document K)} {d docObj : Document K}

theorem setDocument_of_lt (hlt : ∀ d ∈ documents, d.id < docObj.id) :
    setDocument docObj documents = documents ++ [docObj] := by
  induction documents with
  | nil => rfl
  | cons d documents ih =>
      have hd : d.id < docObj.id := hlt d List.mem_cons_self
      have hrest := ih fun e he => hlt e (List.mem_cons_of_mem _ he)
      rw [setDocument_cons, if_neg (by omega), if_neg (by omega), hrest]
      rfl

theorem length_setDocument (docObj : Document K) (documents : List (Document K)) :
    (setDocument docObj documents).length ≤ documents.length + 1 := by
  induction documents with
  | nil => simp [setDocument_nil]
  | cons d documents ih =>
      rw [setDocument_cons]
      split
      · simp
      · split
        · simp
        · simpa using ih

/-- The ids of the documents are in ascending order. -/
def Ascending (documents : List (Document K)) : Prop :=
  documents.Pairwise fun d e => d.id < e.id

theorem mem_setDocument (hd : d ∈ setDocument docObj documents) : d = docObj ∨ d ∈ documents := by
  induction documents with
  | nil => simpa [setDocument_nil] using hd
  | cons e documents ih =>
      rw [setDocument_cons] at hd
      split at hd
      · simpa using hd
      · split at hd
        · rcases List.mem_cons.mp hd with hsame | hrest
          · exact Or.inl hsame
          · exact Or.inr (List.mem_cons_of_mem _ hrest)
        · rcases List.mem_cons.mp hd with hsame | hrest
          · exact Or.inr (hsame ▸ List.mem_cons_self)
          · exact (ih hrest).imp_right (List.mem_cons_of_mem _)

theorem ascending_setDocument
    (hasc : Ascending documents) : Ascending (setDocument docObj documents) := by
  induction documents with
  | nil => simp [setDocument_nil, Ascending]
  | cons d documents ih =>
      obtain ⟨hhead, htail⟩ := List.pairwise_cons.mp hasc
      rw [setDocument_cons]
      split
      next hlt =>
        refine List.pairwise_cons.mpr ⟨fun e he => ?_, hasc⟩
        rcases List.mem_cons.mp he with hsame | hrest
        · exact hsame ▸ hlt
        · exact Nat.lt_trans hlt (hhead e hrest)
      next hge =>
        split
        next heq =>
          exact List.pairwise_cons.mpr ⟨fun e he => heq ▸ hhead e he, htail⟩
        next hne =>
          refine List.pairwise_cons.mpr ⟨fun e he => ?_, ih htail⟩
          rcases mem_setDocument he with hsame | hrest
          · rw [hsame]
            omega
          · exact hhead e hrest

theorem length_setDocument_of_mem (hasc : Ascending documents) (hd : d ∈ documents)
    (hid : d.id = docObj.id) : (setDocument docObj documents).length = documents.length := by
  induction documents with
  | nil => simp at hd
  | cons e documents ih =>
      obtain ⟨hhead, htail⟩ := List.pairwise_cons.mp hasc
      rw [setDocument_cons]
      rcases List.mem_cons.mp hd with hsame | hrest
      · rw [if_neg (by rw [← hsame]; omega), if_pos (by rw [← hsame]; omega)]
        rfl
      · have hlt := hhead d hrest
        rw [if_neg (by omega), if_neg (by omega)]
        simpa using ih htail hrest

theorem id_mem_setDocument (docObj : Document K) (hd : d ∈ documents) :
    ∃ e ∈ setDocument docObj documents, e.id = d.id := by
  induction documents with
  | nil => simp at hd
  | cons e documents ih =>
      rw [setDocument_cons]
      split
      next => exact ⟨d, List.mem_cons_of_mem _ hd, rfl⟩
      next =>
        split
        next heq =>
          rcases List.mem_cons.mp hd with hsame | hrest
          · exact ⟨docObj, List.mem_cons_self, by rw [heq, hsame]⟩
          · exact ⟨d, List.mem_cons_of_mem _ hrest, rfl⟩
        next =>
          rcases List.mem_cons.mp hd with hsame | hrest
          · exact ⟨e, List.mem_cons_self, by rw [hsame]⟩
          · obtain ⟨f, hf, hid⟩ := ih hrest
            exact ⟨f, List.mem_cons_of_mem _ hf, hid⟩

theorem self_mem_setDocument (docObj : Document K) (documents : List (Document K)) :
    docObj ∈ setDocument docObj documents := by
  induction documents with
  | nil => simp [setDocument_nil]
  | cons e documents ih =>
      rw [setDocument_cons]
      split
      · exact List.mem_cons_self
      · split
        · exact List.mem_cons_self
        · exact List.mem_cons_of_mem _ ih

end Table

/-! ## What adding a document does -/

section Adding
variable [Field K] (stemmer : String → String) (bm : BM25 K) (id : ℕ) (body : String)

theorem documents_addDocument :
    ∃ docObj : Document K, docObj.id = id ∧ docObj.tokens = Tokenize stemmer body ∧
      docObj.termCount = (Tokenize stemmer body).length ∧
      (bm.addDocument stemmer id body).documents = setDocument docObj bm.documents := by
  unfold BM25.addDocument
  dsimp only
  refine ⟨_, ?_, ?_, ?_, rfl⟩
  · dsimp only
  · dsimp only
  · dsimp only

theorem docFreq_addDocument (t : String) : (bm.addDocument stemmer id body).docFreq t =
      bm.docFreq t +
        if t ∈ Tokenize stemmer body ∧ t ∉ prototypeNames then 1 else 0 := by
  have hkeys : t ∈ (countTokens (Tokenize stemmer body) :
      AList (fun _ : String => TermCount K)).keys ↔
        t ∈ Tokenize stemmer body ∧ t ∉ prototypeNames := AList.mem_keys.symm.trans mem_countTokens
  unfold BM25.docFreq BM25.addDocument
  dsimp only
  rw [freqIn_countDocuments (AList.keys_nodup _), if_congr hkeys rfl rfl]

end Adding

/-! ## One batch -/

/-- The documents are the given texts, numbered from 0, and the statistics are
theirs, but for the inherited terms. -/
structure Fresh [Field K] (stemmer : String → String) (texts : List String)
    (bm : BM25 K) : Prop where
  id : ∀ d ∈ bm.documents, d.id < texts.length
  tokens : bm.documents.map Document.tokens = texts.map (Tokenize stemmer)
  n : ∀ t, bm.docFreq t = if t ∈ prototypeNames then 0 else bm.docsWith t
  totalDocuments : bm.totalDocuments = bm.documents.length
  totalDocumentTermLength : bm.totalDocumentTermLength =
    (bm.documents.map Document.termCount).sum
  averageDocumentLength : bm.averageDocumentLength =
    bm.totalDocumentTermLength / (bm.totalDocuments : K)

section Batch
variable [Field K] {stemmer : String → String} {bm : BM25 K} {texts : List String}

theorem fresh_new : Fresh stemmer [] (BM25.new : BM25 K) where
  id := by simp [BM25.new]
  tokens := rfl
  n t := by
    have hempty : (∅ : AList (fun _ : String => Term K)).lookup t = none := rfl
    simp [BM25.docFreq, freqIn, BM25.docsWith, BM25.new, hempty]
  totalDocuments := rfl
  totalDocumentTermLength := rfl
  averageDocumentLength := by simp [BM25.new]

/-- Adding the next text. -/
theorem Fresh.addDocument (hfresh : Fresh stemmer texts bm) (body : String) :
    Fresh stemmer (texts ++ [body]) (bm.addDocument stemmer texts.length body) := by
  obtain ⟨docObj, hid, htokens, hcount, hdocs⟩ := documents_addDocument stemmer bm texts.length body
  have happend : (bm.addDocument stemmer texts.length body).documents =
      bm.documents ++ [docObj] := by
    rw [hdocs]
    apply setDocument_of_lt
    intro d hd
    rw [hid]
    exact hfresh.id d hd
  constructor
  · intro d hd
    rw [happend, List.mem_append, List.mem_singleton] at hd
    rw [List.length_append, List.length_singleton]
    rcases hd with hd | hd
    · have hlt := hfresh.id d hd
      omega
    · rw [hd, hid]
      omega
  · rw [happend, List.map_append, List.map_append, hfresh.tokens]
    simp [htokens]
  · intro t
    rw [docFreq_addDocument, hfresh.n t, BM25.docsWith, BM25.docsWith, happend, List.countP_append]
    by_cases hinherited : t ∈ prototypeNames
    · simp [hinherited]
    · simp [hinherited, htokens]
  · rw [happend, List.length_append, ← hfresh.totalDocuments]
    rfl
  · rw [happend, List.map_append, List.sum_append, ← hfresh.totalDocumentTermLength]
    simp [hcount, BM25.addDocument]
  · rfl

theorem indexText_bm (len : ℕ) (w : Worker K × List (Post K)) (item : String × ℕ) :
    (Worker.indexText stemmer len w item).1.bm = w.1.bm.addDocument stemmer item.2 item.1 := rfl

theorem Fresh.indexTexts {w : Worker K × List (Post K)} {len : ℕ}
    (hfresh : Fresh stemmer texts w.1.bm) (more : List String) : Fresh stemmer (texts ++ more)
      ((more.zipIdx texts.length).foldl (Worker.indexText stemmer len) w).1.bm := by
  induction more generalizing texts w with
  | nil => simpa using hfresh
  | cons body more ih =>
      rw [List.zipIdx_cons, List.foldl_cons]
      have hnext := hfresh.addDocument body
      rw [← indexText_bm len w (body, texts.length)] at hnext
      have hrest := ih hnext
      simpa using hrest

end Batch

/-! ## More batches -/

/-- The documents come in ascending order of their ids, and each was counted. -/
structure Counted (bm : BM25 K) : Prop where
  ascending : Ascending bm.documents
  length_le : bm.documents.length ≤ bm.totalDocuments

/-- Some document is counted that is not in the table. -/
structure Overcounted (bm : BM25 K) : Prop where
  ascending : Ascending bm.documents
  length_lt : bm.documents.length < bm.totalDocuments

/-- There is a first document. -/
def HasFirst (bm : BM25 K) : Prop := ∃ d ∈ bm.documents, d.id = 0

section More
variable [Field K] {stemmer : String → String} {bm : BM25 K}

theorem Counted.addDocument (hcounted : Counted bm) (id : ℕ) (body : String) :
    Counted (bm.addDocument stemmer id body) := by
  obtain ⟨docObj, _, _, _, hdocs⟩ := documents_addDocument stemmer bm id body
  constructor
  · rw [hdocs]
    exact ascending_setDocument hcounted.ascending
  · have hlen := length_setDocument docObj bm.documents
    have hle := hcounted.length_le
    rw [hdocs]
    change _ ≤ bm.totalDocuments + 1
    omega

theorem Overcounted.addDocument (hover : Overcounted bm) (id : ℕ) (body : String) :
    Overcounted (bm.addDocument stemmer id body) := by
  obtain ⟨docObj, _, _, _, hdocs⟩ := documents_addDocument stemmer bm id body
  constructor
  · rw [hdocs]
    exact ascending_setDocument hover.ascending
  · have hlen := length_setDocument docObj bm.documents
    have hlt := hover.length_lt
    rw [hdocs]
    change _ < bm.totalDocuments + 1
    omega

theorem Counted.overcounted (hcounted : Counted bm) (hfirst : HasFirst bm)
    (body : String) : Overcounted (bm.addDocument stemmer 0 body) := by
  obtain ⟨docObj, hid, _, _, hdocs⟩ := documents_addDocument stemmer bm 0 body
  obtain ⟨d, hd, hzero⟩ := hfirst
  have hlen := length_setDocument_of_mem hcounted.ascending hd (hzero.trans hid.symm)
  have hle := hcounted.length_le
  constructor
  · rw [hdocs]
    exact ascending_setDocument hcounted.ascending
  · rw [hdocs, hlen]
    change _ < bm.totalDocuments + 1
    omega

theorem HasFirst.addDocument (hfirst : HasFirst bm) (id : ℕ) (body : String) :
    HasFirst (bm.addDocument stemmer id body) := by
  obtain ⟨docObj, _, _, _, hdocs⟩ := documents_addDocument stemmer bm id body
  obtain ⟨d, hd, hzero⟩ := hfirst
  obtain ⟨e, he, hid⟩ := id_mem_setDocument docObj hd
  exact ⟨e, hdocs ▸ he, hid.trans hzero⟩

theorem hasFirst_addDocument (bm : BM25 K) (body : String) :
    HasFirst (bm.addDocument stemmer 0 body) := by
  obtain ⟨docObj, hid, _, _, hdocs⟩ := documents_addDocument stemmer bm 0 body
  exact ⟨docObj, hdocs ▸ self_mem_setDocument docObj bm.documents, hid⟩

variable {w : Worker K × List (Post K)} {len : ℕ}

theorem indexTexts_invariant (P : BM25 K → Prop)
    (hadd : ∀ bm id body, P bm → P (bm.addDocument stemmer id body)) (items : List (String × ℕ))
    (hw : P w.1.bm) : P (items.foldl (Worker.indexText stemmer len) w).1.bm := by
  induction items generalizing w with
  | nil => exact hw
  | cons item items ih => exact ih (hadd _ _ _ hw)

theorem Counted.indexTexts (hcounted : Counted w.1.bm) (hfirst : HasFirst w.1.bm) (text : String)
    (texts : List String) :
    Overcounted (((text :: texts).zipIdx).foldl (Worker.indexText stemmer len) w).1.bm := by
  rw [List.zipIdx_cons, List.foldl_cons]
  apply indexTexts_invariant Overcounted
  · intro bm id body hover
    exact hover.addDocument id body
  · exact hcounted.overcounted hfirst text

theorem hasFirst_indexTexts (text : String) (texts : List String) :
    HasFirst (((text :: texts).zipIdx).foldl (Worker.indexText stemmer len) w).1.bm := by
  rw [List.zipIdx_cons, List.foldl_cons]
  apply indexTexts_invariant HasFirst
  · intro bm id body hfirst
    exact hfirst.addDocument id body
  · exact hasFirst_addDocument _ _

end More

/-! ## What leaves the statistics alone -/

/-- The tables hold the same documents, up to their scores, and the statistics
are the same. -/
structure SameStatistics (bm bm' : BM25 K) : Prop where
  documents : bm'.documents.map (fun d => (d.id, d.tokens, d.termCount)) =
    bm.documents.map fun d => (d.id, d.tokens, d.termCount)
  docFreq : ∀ t, bm'.docFreq t = bm.docFreq t
  totalDocuments : bm'.totalDocuments = bm.totalDocuments
  totalDocumentTermLength :
    bm'.totalDocumentTermLength = bm.totalDocumentTermLength
  averageDocumentLength : bm'.averageDocumentLength = bm.averageDocumentLength

section Same
variable {stemmer : String → String} {bm bm' : BM25 K} {texts : List String}

theorem SameStatistics.ids (hsame : SameStatistics bm bm') :
    bm'.documents.map Document.id = bm.documents.map Document.id := by
  have hmap := congrArg (List.map Prod.fst) hsame.documents
  simpa [List.map_map, Function.comp_def] using hmap

theorem SameStatistics.tokens (hsame : SameStatistics bm bm') :
    bm'.documents.map Document.tokens = bm.documents.map Document.tokens := by
  have hmap := congrArg (List.map fun key => key.2.1) hsame.documents
  simpa [List.map_map, Function.comp_def] using hmap

theorem SameStatistics.termCounts (hsame : SameStatistics bm bm') :
    bm'.documents.map Document.termCount = bm.documents.map Document.termCount := by
  have hmap := congrArg (List.map fun key => key.2.2) hsame.documents
  simpa [List.map_map, Function.comp_def] using hmap

theorem SameStatistics.length (hsame : SameStatistics bm bm') :
    bm'.documents.length = bm.documents.length := by
  simpa using congrArg List.length hsame.documents

theorem docsWith_eq (bm : BM25 K) (t : String) :
    bm.docsWith t = (bm.documents.map Document.tokens).countP (t ∈ ·) := by
  rw [List.countP_map]
  rfl

theorem SameStatistics.docsWith (hsame : SameStatistics bm bm') (t : String) :
    bm'.docsWith t = bm.docsWith t := by
  rw [docsWith_eq, docsWith_eq, hsame.tokens]

theorem Fresh.of_same [Field K] (hfresh : Fresh stemmer texts bm)
    (hsame : SameStatistics bm bm') : Fresh stemmer texts bm' := by
  constructor
  · intro d hd
    have hmem : d.id ∈ bm.documents.map Document.id := hsame.ids ▸ List.mem_map_of_mem hd
    obtain ⟨e, he, hid⟩ := List.mem_map.mp hmem
    exact hid ▸ hfresh.id e he
  · rw [hsame.tokens, hfresh.tokens]
  · intro t
    rw [hsame.docFreq, hsame.docsWith, hfresh.n]
  · rw [hsame.totalDocuments, hsame.length, hfresh.totalDocuments]
  · rw [hsame.totalDocumentTermLength, hsame.termCounts, hfresh.totalDocumentTermLength]
  · rw [hsame.averageDocumentLength, hsame.totalDocumentTermLength,
      hsame.totalDocuments, hfresh.averageDocumentLength]

theorem SameStatistics.ascending (hsame : SameStatistics bm bm')
    (hasc : Ascending bm.documents) : Ascending bm'.documents := by
  have hids : (bm'.documents.map Document.id).Pairwise (· < ·) := by
    rw [hsame.ids, List.pairwise_map]
    exact hasc
  exact List.pairwise_map.mp hids

theorem Counted.of_same (hcounted : Counted bm) (hsame : SameStatistics bm bm') : Counted bm' := by
  constructor
  · exact hsame.ascending hcounted.ascending
  · rw [hsame.length, hsame.totalDocuments]
    exact hcounted.length_le

theorem Overcounted.of_same (hover : Overcounted bm) (hsame : SameStatistics bm bm') :
    Overcounted bm' := by
  constructor
  · exact hsame.ascending hover.ascending
  · rw [hsame.length, hsame.totalDocuments]
    exact hover.length_lt

theorem HasFirst.of_same (hfirst : HasFirst bm) (hsame : SameStatistics bm bm') : HasFirst bm' := by
  obtain ⟨d, hd, hzero⟩ := hfirst
  have hmem : d.id ∈ bm'.documents.map Document.id := by
    rw [hsame.ids]
    exact List.mem_map_of_mem hd
  obtain ⟨e, he, hid⟩ := List.mem_map.mp hmem
  exact ⟨e, he, hid.trans hzero⟩

variable [Field K] [LinearOrder K] (log10 : K → K)

theorem same_updateIdf (bm : BM25 K) : SameStatistics bm (bm.updateIdf log10) :=
  ⟨rfl, docFreq_updateIdf log10 bm, rfl, rfl, rfl⟩

theorem same_search (stemmer : String → String) (bm : BM25 K) (polluted : Bool) (query : String) :
    SameStatistics bm (bm.search stemmer polluted query).1 := by
  constructor
  · simp only [BM25.search, List.map_map]
    rfl
  · intro t
    rfl
  · rfl
  · rfl
  · rfl

end Same

/-! ## The runs -/

section Runs
variable [Field K] (stemmer : String → String)

/-- What the batches so far say about the index. -/
structure Follows (history : List (List String)) (bm : BM25 K) : Prop where
  fresh : history.length ≤ 1 → Fresh stemmer history.flatten bm
  counted : Counted bm
  hasFirst : history ≠ [] → HasFirst bm
  overcounted : 1 < history.length → Overcounted bm

variable {stemmer} {bm bm' : BM25 K} {history : List (List String)}

theorem Follows.of_same (hfollows : Follows stemmer history bm)
    (hsame : SameStatistics bm bm') : Follows stemmer history bm' where
  fresh hone := (hfollows.fresh hone).of_same hsame
  counted := hfollows.counted.of_same hsame
  hasFirst hne := (hfollows.hasFirst hne).of_same hsame
  overcounted hmore := (hfollows.overcounted hmore).of_same hsame

theorem Follows.indexTexts {w : Worker K × List (Post K)} {len : ℕ}
    (hfollows : Follows stemmer history w.1.bm) (text : String) (texts : List String) :
    Follows stemmer (history ++ [text :: texts])
      (((text :: texts).zipIdx).foldl (Worker.indexText stemmer len) w).1.bm := by
  have hmore (hne : history ≠ []) : Overcounted
      (((text :: texts).zipIdx).foldl (Worker.indexText stemmer len) w).1.bm :=
    hfollows.counted.indexTexts (hfollows.hasFirst hne) text texts
  constructor
  · intro hone
    have hnil : history = [] := by
      apply List.eq_nil_of_length_eq_zero
      rw [List.length_append, List.length_singleton] at hone
      omega
    subst hnil
    have hfresh : Fresh stemmer [] w.1.bm := hfollows.fresh (Nat.zero_le _)
    simpa using hfresh.indexTexts (text :: texts)
  · apply indexTexts_invariant Counted
    · intro bm id body hcounted
      exact hcounted.addDocument id body
    · exact hfollows.counted
  · intro _
    exact hasFirst_indexTexts text texts
  · intro hlen
    apply hmore
    rintro rfl
    simp at hlen

/-- The statistics of one batch are right if and only if none of its terms is
inherited. -/
theorem Fresh.consistent_iff {texts : List String} (hfresh : Fresh stemmer texts bm) :
    Consistent bm ↔ ∀ text ∈ texts, ∀ term ∈ Tokenize stemmer text, term ∉ prototypeNames := by
  constructor
  · intro hconsistent text htext term hterm hinherited
    have hn := hconsistent.n term
    rw [hfresh.n term, if_pos hinherited, docsWith_eq, hfresh.tokens] at hn
    have hpos : 0 < (texts.map (Tokenize stemmer)).countP (term ∈ ·) := by
      rw [List.countP_pos_iff]
      exact ⟨_, List.mem_map_of_mem htext, by simpa using hterm⟩
    omega
  · intro hnone
    constructor
    · intro t
      rw [hfresh.n t]
      by_cases hinherited : t ∈ prototypeNames
      · rw [if_pos hinherited, docsWith_eq, hfresh.tokens]
        symm
        rw [List.countP_eq_zero]
        intro tokens htokens hmem
        obtain ⟨text, htext, rfl⟩ := List.mem_map.mp htokens
        exact hnone text htext t (by simpa using hmem) hinherited
      · rw [if_neg hinherited]
    · exact hfresh.totalDocuments
    · rw [hfresh.averageDocumentLength, hfresh.totalDocumentTermLength, hfresh.totalDocuments]

section Messages
variable [LinearOrder K] {log10 : K → K}

theorem Follows.onmessage {w : Worker K} (hfollows : Follows stemmer history w.bm) (m : Message) :
    Follows stemmer (history ++ batches [m]) (w.onmessage stemmer log10 m).1.bm := by
  cases m with
  | search data =>
      have hnone : batches [.search data] = [] := rfl
      rw [hnone, List.append_nil]
      exact hfollows.of_same (same_search stemmer w.bm w.polluted data)
  | indexBatch data =>
      have hindexed : Follows stemmer (history ++ batches [.indexBatch data])
          (data.zipIdx.foldl (Worker.indexText stemmer data.length) (w, [])).1.bm := by
        cases data with
        | nil => simpa [batches] using hfollows
        | cons text texts => exact hfollows.indexTexts text texts
      by_cases hpolluted : w.polluted = true
      · rw [Worker.onmessage, if_pos hpolluted]
        exact hindexed
      · rw [Worker.onmessage, if_neg hpolluted]
        exact hindexed.of_same (same_updateIdf log10 _)

theorem follows_run (messages : List Message) :
    Follows stemmer (batches messages) (Worker.run stemmer log10 messages).bm := by
  induction messages using List.reverseRecOn with
  | nil =>
      constructor
      · intro _
        exact fresh_new
      · exact ⟨List.Pairwise.nil, Nat.le_refl 0⟩
      · intro hne
        exact absurd rfl hne
      · intro hlen
        simp [batches] at hlen
  | append_singleton messages m ih =>
      rw [batches_append, Worker.run, List.foldl_append]
      exact ih.onmessage m

/-- After a sequence of messages the statistics are those of the documents in
the table if and only if the texts came in one batch and have no inherited
term. -/
theorem index_consistent_iff (stemmer : String → String) (log10 : K → K)
    (messages : List Message) :
    Consistent (Worker.run stemmer log10 messages).bm ↔
      IndexedOnce stemmer messages := by
  have hfollows : Follows stemmer (batches messages)
      (Worker.run stemmer log10 messages).bm := follows_run messages
  unfold IndexedOnce
  by_cases hone : (batches messages).length ≤ 1
  · rw [(hfollows.fresh hone).consistent_iff]
    constructor
    · intro hnone
      refine ⟨hone, fun texts htexts text htext => ?_⟩
      exact hnone text (List.mem_flatten.mpr ⟨texts, htexts, htext⟩)
    · rintro ⟨-, hnone⟩ text htext
      obtain ⟨texts, htexts, hmem⟩ := List.mem_flatten.mp htext
      exact hnone texts htexts text hmem
  · have hover := (hfollows.overcounted (Nat.lt_of_not_le hone)).length_lt
    constructor
    · intro hconsistent
      have htotal := hconsistent.totalDocuments
      omega
    · rintro ⟨hle, -⟩
      exact absurd hle hone

end Messages

end Runs

/-- Two batches of one text each: the first document is gone, and it is still
counted. -/
theorem replaced_document_is_counted :
    ¬ Consistent (Worker.run id (fun x : ℚ => x)
      [.indexBatch ["cat"], .indexBatch ["dog"]]).bm := by
  intro hconsistent
  have htotal : (Worker.run id (fun x : ℚ => x)
      [.indexBatch ["cat"], .indexBatch ["dog"]]).bm.totalDocuments = 2 := by decide
  have hlength : (Worker.run id (fun x : ℚ => x)
      [.indexBatch ["cat"], .indexBatch ["dog"]]).bm.documents.length = 1 := by decide
  have hsame := hconsistent.totalDocuments
  omega

end MiscProjects.Bm25
