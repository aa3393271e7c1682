import Mathlib.Data.List.Perm.Basic
import MiscProjects.Bm25.Consistency

/-!
# The order of the documents

All statistics of the index are built up document by document.  Two indexes are the same
if they have the same documents, totals and entries; adding two documents with different
ids in either order leads to the same index, so that every order of a list of documents
does.
-/

namespace MiscProjects.Bm25

variable {K : Type*} {stemmer : String → String} {bm bm' : BM25 K} {d e : ℕ × String}
  {docs docs' : List (ℕ × String)}

/-- The index after the documents with the given ids and bodies have been added to a new
one. -/
def addDocuments [Field K] (stemmer : String → String) (docs : List (ℕ × String)) : BM25 K :=
  docs.foldl (fun bm d => bm.addDocument stemmer d.1 d.2) BM25.new

/-- The index that is searched. -/
def indexDocuments [Field K] [LinearOrder K] (stemmer : String → String) (log10 : K → K)
    (docs : List (ℕ × String)) : BM25 K :=
  (addDocuments stemmer docs).updateIdf log10

/-- One of the documents adds `count` to the properties of `Object.prototype`. -/
def pollutes (stemmer : String → String) (docs : List (ℕ × String)) : Bool :=
  docs.any fun d => "__proto__" ∈ Tokenize stemmer d.2

/-- The entries of `terms` may come in different orders. -/
structure SameIndex (bm bm' : BM25 K) : Prop where
  documents : bm.documents = bm'.documents
  terms : ∀ t, bm.terms.lookup t = bm'.terms.lookup t
  totalDocumentTermLength : bm.totalDocumentTermLength = bm'.totalDocumentTermLength
  averageDocumentLength : bm.averageDocumentLength = bm'.averageDocumentLength
  totalDocuments : bm.totalDocuments = bm'.totalDocuments
  k1 : bm.k1 = bm'.k1
  b : bm.b = bm'.b

theorem SameIndex.refl (bm : BM25 K) : SameIndex bm bm :=
  ⟨rfl, fun _ => rfl, rfl, rfl, rfl, rfl, rfl⟩

theorem SameIndex.trans {bm'' : BM25 K} (h : SameIndex bm bm') (h' : SameIndex bm' bm'') :
    SameIndex bm bm'' where
  documents := h.documents.trans h'.documents
  terms t := (h.terms t).trans (h'.terms t)
  totalDocumentTermLength := h.totalDocumentTermLength.trans h'.totalDocumentTermLength
  averageDocumentLength := h.averageDocumentLength.trans h'.averageDocumentLength
  totalDocuments := h.totalDocuments.trans h'.totalDocuments
  k1 := h.k1.trans h'.k1
  b := h.b.trans h'.b

/-! ## Entries -/

section Entries
variable [Field K] {keys : List String} {terms : AList (fun _ : String => Term K)}

/-- The entry of a term that one more document has. -/
def counted : Option (Term K) → Term K
  | none => { n := 1, idf := 0 }
  | some t => { t with n := t.n + 1 }

theorem lookup_countDocument (term t : String) : (countDocument terms term).lookup t =
      if t = term then some (counted (terms.lookup t)) else terms.lookup t := by
  unfold countDocument
  by_cases hsame : t = term
  · subst hsame
    rw [if_pos rfl]
    cases hlookup : terms.lookup t with
    | none => exact AList.lookup_insert terms
    | some entry => exact AList.lookup_insert terms
  · rw [if_neg hsame]
    cases hlookup : terms.lookup term with
    | none => exact AList.lookup_insert_ne hsame
    | some entry => exact AList.lookup_insert_ne hsame

theorem lookup_countDocuments (hnodup : keys.Nodup) (t : String) :
    (keys.foldl countDocument terms).lookup t =
      if t ∈ keys then some (counted (terms.lookup t)) else terms.lookup t := by
  induction keys generalizing terms with
  | nil => simp
  | cons key keys ih =>
      obtain ⟨hkey, hrest⟩ := List.nodup_cons.mp hnodup
      rw [List.foldl_cons, ih hrest, lookup_countDocument]
      by_cases hsame : t = key
      · subst hsame
        simp [hkey]
      · simp [hsame]

variable [LinearOrder K] {log10 : K → K}

/-- An entry with an inverse document frequency that depends on its `n`. -/
def withIdf (idf : ℕ → K) (t : Term K) : Term K := { t with idf := idf t.n }

theorem lookup_setIdf (total : ℕ) (term t : String) : (setIdf log10 total terms term).lookup t =
      if t = term then (terms.lookup t).map (withIdf (idfOf log10 total))
      else terms.lookup t := by
  unfold setIdf
  by_cases hsame : t = term
  · subst hsame
    rw [if_pos rfl]
    cases hlookup : terms.lookup t with
    | none => exact hlookup
    | some entry => exact AList.lookup_insert terms
  · rw [if_neg hsame]
    cases hlookup : terms.lookup term with
    | none => rfl
    | some entry => exact AList.lookup_insert_ne hsame

theorem lookup_setIdfs {total : ℕ} (hnodup : keys.Nodup) (t : String) :
    (keys.foldl (setIdf log10 total) terms).lookup t =
      if t ∈ keys then (terms.lookup t).map (withIdf (idfOf log10 total))
      else terms.lookup t := by
  induction keys generalizing terms with
  | nil => simp
  | cons key keys ih =>
      obtain ⟨hkey, hrest⟩ := List.nodup_cons.mp hnodup
      rw [List.foldl_cons, ih hrest, lookup_setIdf]
      by_cases hsame : t = key
      · subst hsame
        simp [hkey]
      · simp [hsame]

theorem lookup_updateIdf (log10 : K → K) (bm : BM25 K) (t : String) :
    (bm.updateIdf log10).terms.lookup t =
      (bm.terms.lookup t).map (withIdf (idfOf log10 bm.totalDocuments)) := by
  refine (lookup_setIdfs bm.terms.keys_nodup t).trans ?_
  by_cases hmem : t ∈ bm.terms.keys
  · rw [if_pos hmem]
  · rw [if_neg hmem, AList.lookup_eq_none.mpr fun h => hmem (AList.mem_keys.mp h)]
    rfl

end Entries

/-! ## Adding documents -/

theorem setDocument_comm {docObj docObj' : Document K} (hid : docObj.id ≠ docObj'.id)
    (documents : List (Document K)) : setDocument docObj (setDocument docObj' documents) =
      setDocument docObj' (setDocument docObj documents) := by
  induction documents with
  | nil =>
      rcases lt_or_gt_of_ne hid with hlt | hlt
      · simp [setDocument, hlt, hid.symm, not_lt_of_gt hlt]
      · simp [setDocument, hlt, hid, not_lt_of_gt hlt]
  | cons x documents ih =>
      grind [setDocument]

section Adding
variable [Field K]

theorem terms_addDocument (id : ℕ) (body : String) : (bm.addDocument stemmer id body).terms =
      (countTokens (Tokenize stemmer body) :
        AList fun _ : String => TermCount K).keys.foldl countDocument bm.terms := by
  simp only [BM25.addDocument]

theorem lookup_addDocument (id : ℕ) (body t : String) :
    (bm.addDocument stemmer id body).terms.lookup t =
      if t ∈ Tokenize stemmer body ∧ t ∉ prototypeNames then
        some (counted (bm.terms.lookup t))
      else bm.terms.lookup t := by
  rw [terms_addDocument, lookup_countDocuments (AList.keys_nodup _)]
  exact if_congr (AList.mem_keys.symm.trans mem_countTokens) rfl rfl

theorem SameIndex.addDocument (h : SameIndex bm bm') (id : ℕ) (body : String) :
    SameIndex (bm.addDocument stemmer id body) (bm'.addDocument stemmer id body) where
  documents := by
    unfold BM25.addDocument
    simp only [h.documents]
  terms t := by
    rw [lookup_addDocument, lookup_addDocument, h.terms]
  totalDocumentTermLength := by
    unfold BM25.addDocument
    simp only [h.totalDocumentTermLength]
  averageDocumentLength := by
    unfold BM25.addDocument
    simp only [h.totalDocumentTermLength, h.totalDocuments]
  totalDocuments := by
    unfold BM25.addDocument
    simp only [h.totalDocuments]
  k1 := h.k1
  b := h.b

theorem SameIndex.addDocuments (h : SameIndex bm bm') (docs : List (ℕ × String)) :
    SameIndex (docs.foldl (fun bm d => bm.addDocument stemmer d.1 d.2) bm)
      (docs.foldl (fun bm d => bm.addDocument stemmer d.1 d.2) bm') := by
  induction docs generalizing bm bm' with
  | nil => exact h
  | cons d docs ih => exact ih (h.addDocument d.1 d.2)

theorem addDocument_comm (hid : d.1 ≠ e.1) (bm : BM25 K) :
    SameIndex ((bm.addDocument stemmer d.1 d.2).addDocument stemmer e.1 e.2)
      ((bm.addDocument stemmer e.1 e.2).addDocument stemmer d.1 d.2) where
  documents := setDocument_comm hid.symm bm.documents
  terms t := by
    simp only [lookup_addDocument]
    by_cases hd : t ∈ Tokenize stemmer d.2 ∧ t ∉ prototypeNames
    · by_cases he : t ∈ Tokenize stemmer e.2 ∧ t ∉ prototypeNames
      · simp only [if_pos hd, if_pos he]
      · simp only [if_pos hd, if_neg he]
    · simp only [if_neg hd]
  totalDocumentTermLength := Nat.add_right_comm _ _ _
  averageDocumentLength := by
    unfold BM25.addDocument
    simp only [Nat.add_right_comm bm.totalDocumentTermLength]
  totalDocuments := rfl
  k1 := rfl
  b := rfl

theorem sameIndex_of_perm (hperm : docs.Perm docs') (hids : (docs.map Prod.fst).Nodup)
    (bm : BM25 K) : SameIndex (docs.foldl (fun bm d => bm.addDocument stemmer d.1 d.2) bm)
      (docs'.foldl (fun bm d => bm.addDocument stemmer d.1 d.2) bm) := by
  induction hperm generalizing bm with
  | nil => exact .refl bm
  | cons d hperm ih => exact ih (List.nodup_cons.mp hids).2 _
  | swap d e docs =>
      have hne : e.1 ≠ d.1 := by
        rintro hid
        simp [hid] at hids
      exact (addDocument_comm hne bm).addDocuments docs
  | trans hperm hperm' ih ih' =>
      have hids' := (hperm.map Prod.fst).nodup_iff.mp hids
      exact (ih hids bm).trans (ih' hids' bm)

end Adding

/-! ## Searching -/

section Searching
variable [Field K]

theorem SameIndex.scored (h : SameIndex bm bm') (polluted : Bool) (queryTerms : List String)
    (doc : Document K) :
    bm.scored polluted queryTerms doc = bm'.scored polluted queryTerms doc := by
  have hadd : bm.addScore polluted doc = bm'.addScore polluted doc := by
    funext score queryTerm
    unfold BM25.addScore
    rw [h.terms, h.k1, h.b, h.averageDocumentLength]
  unfold BM25.scored
  rw [hadd]

variable [LinearOrder K] {log10 : K → K}

theorem SameIndex.updateIdf (h : SameIndex bm bm') :
    SameIndex (bm.updateIdf log10) (bm'.updateIdf log10) where
  documents := h.documents
  terms t := by
    rw [lookup_updateIdf, lookup_updateIdf, h.terms, h.totalDocuments]
  totalDocumentTermLength := h.totalDocumentTermLength
  averageDocumentLength := h.averageDocumentLength
  totalDocuments := h.totalDocuments
  k1 := h.k1
  b := h.b

theorem SameIndex.search (h : SameIndex bm bm') (polluted : Bool) (query : String) :
    (bm.search stemmer polluted query).1.documents =
      (bm'.search stemmer polluted query).1.documents := by
  unfold BM25.search
  dsimp only
  rw [h.documents]
  exact List.map_congr_left fun doc _ => h.scored polluted _ doc

theorem pollutes_of_perm (hperm : docs.Perm docs') :
    pollutes stemmer docs = pollutes stemmer docs' :=
  hperm.any_eq

/-- Documents with distinct ids may be added in any order: after `updateIdf` every term has
the same `n` and `idf`, the average length is the same, and every search gives every
document the same score. -/
theorem index_order_independent (stemmer : String → String) (log10 : K → K)
    (hperm : docs.Perm docs') (hids : (docs.map Prod.fst).Nodup) :
    (∀ t, (indexDocuments stemmer log10 docs).terms.lookup t =
        (indexDocuments stemmer log10 docs').terms.lookup t) ∧
      (indexDocuments stemmer log10 docs).averageDocumentLength =
        (indexDocuments stemmer log10 docs').averageDocumentLength ∧
      ∀ query,
        ((indexDocuments stemmer log10 docs).search stemmer (pollutes stemmer docs)
            query).1.documents.map (fun doc => (doc.id, doc.score)) =
          ((indexDocuments stemmer log10 docs').search stemmer (pollutes stemmer docs')
            query).1.documents.map (fun doc => (doc.id, doc.score)) := by
  have hsame : SameIndex (indexDocuments stemmer log10 docs) (indexDocuments stemmer log10 docs') :=
    (sameIndex_of_perm hperm hids BM25.new).updateIdf
  refine ⟨hsame.terms, hsame.averageDocumentLength, fun query => ?_⟩
  rw [pollutes_of_perm hperm, hsame.search]

end Searching

/-- Two documents, in either order. -/
theorem index_order_independent_two :
    (indexDocuments id (fun x : ℚ => x) [(0, "cat dog"), (1, "dog")]).averageDocumentLength =
      (indexDocuments id (fun x : ℚ => x) [(1, "dog"), (0, "cat dog")]).averageDocumentLength :=
  (index_order_independent id (fun x : ℚ => x) (List.Perm.swap _ _ _) (by decide)).2.1

end MiscProjects.Bm25
