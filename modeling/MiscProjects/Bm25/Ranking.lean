import Mathlib.Algebra.BigOperators.Group.List.Basic
import Mathlib.Algebra.Order.BigOperators.Group.List
import Mathlib.Algebra.Order.Field.Basic
import Mathlib.Tactic.NormNum
import Mathlib.Tactic.Positivity
import MiscProjects.Bm25.OrderIndependence
import MiscProjects.Library.TopK

/-!
# What a search finds

The scores of a search are those of the formula, computed from the tokens of the documents,
and the result holds the best ten.  A document has no score where a query term is found in
its table without being counted there: the name of a property of `Object.prototype`, or
`count` after a text with `__proto__` has been added.
-/

namespace MiscProjects.Bm25

open TopK

variable {K : Type*} {stemmer : String → String} {docs : List (ℕ × String)} {d : ℕ × String}
  {q t : String} {Q tokens : List String} {polluted : Bool}

/-! ## Statement -/

section Statement
variable (stemmer : String → String) (docs : List (ℕ × String)) (Q : List String)

/-- The document contains a query term. -/
def hasQueryTerm (d : ℕ × String) : Bool := Q.any (· ∈ Tokenize stemmer d.2)

/-- The term is found in the tables of the document although it is not counted there. -/
def shadows (polluted : Bool) (tokens : List String) (q : String) : Bool :=
  decide (q ∈ prototypeNames) || (polluted && decide (q = "count") && decide (q ∉ tokens))

/-- The document has no score. -/
def shadowed (polluted : Bool) (d : ℕ × String) : Bool :=
  Q.any (shadows polluted (Tokenize stemmer d.2))

variable [Field K] [LinearOrder K] (log10 : K → K)

/-- The BM25 score of a document. -/
def bm25 (d : ℕ × String) : K := (Q.map (termScore stemmer docs log10 d)).sum

/-- The result holds the best ten of the documents that contain a query term, with their
scores. -/
structure TopTen (result : List (Document K)) : Prop where
  top : IsTop 10 (bm25 stemmer docs Q log10) (docs.filter (hasQueryTerm stemmer Q))
    (result.map fun d => (d.id, d.body))
  score : ∀ d ∈ result, d.score = some (bm25 stemmer docs Q log10 (d.id, d.body))

end Statement

/-! ## The index -/

theorem setDocument_perm (docObj : Document K) {documents : List (Document K)}
    (hnew : docObj.id ∉ documents.map Document.id) :
    (setDocument docObj documents).Perm (docObj :: documents) := by
  induction documents with
  | nil => exact .refl _
  | cons e documents ih =>
      rw [List.map_cons, List.mem_cons, not_or] at hnew
      rw [setDocument_cons]
      split
      · exact .refl _
      · rw [if_neg hnew.1]
        exact ((ih hnew.2).cons e).trans (.swap docObj e documents)

section Index
variable [Field K]

/-- The document that is put into the table. -/
def newDocument (stemmer : String → String) (d : ℕ × String) : Document K :=
  let tokens := Tokenize stemmer d.2
  let counts : AList (fun _ : String => TermCount K) := countTokens tokens
  { id := d.1, tokens, body := d.2, termCount := tokens.length
    terms := counts.keys.foldl (setFreq tokens.length) counts
    score := none }

theorem addDocuments_concat (docs : List (ℕ × String)) (d : ℕ × String) :
    (addDocuments stemmer (docs ++ [d]) : BM25 K) =
      (addDocuments stemmer docs).addDocument stemmer d.1 d.2 := by
  rw [addDocuments, List.foldl_append, ← addDocuments]
  rfl

theorem documents_perm (hids : (docs.map Prod.fst).Nodup) :
    (addDocuments stemmer docs : BM25 K).documents.Perm (docs.map (newDocument stemmer)) := by
  induction docs using List.reverseRecOn with
  | nil => exact .refl _
  | append_singleton docs d ih =>
      rw [List.map_append, List.nodup_append] at hids
      have hperm := ih hids.1
      have hnew : d.1 ∉ (addDocuments stemmer docs : BM25 K).documents.map Document.id := by
        rw [(hperm.map Document.id).mem_iff, List.map_map]
        exact fun hmem => hids.2.2 d.1 hmem d.1 List.mem_cons_self rfl
      rw [addDocuments_concat]
      refine (setDocument_perm (newDocument stemmer d) hnew).trans ?_
      rw [List.map_append]
      exact (hperm.cons _).trans (List.perm_append_singleton _ _).symm

theorem statistics_addDocuments (K : Type*) [Field K] (stemmer : String → String)
    (docs : List (ℕ × String)) :
    let bm : BM25 K := addDocuments stemmer docs
    bm.totalDocuments = docs.length ∧ bm.averageDocumentLength = averageLength stemmer docs ∧
      bm.totalDocumentTermLength = (docs.map fun d => (Tokenize stemmer d.2).length).sum ∧
      bm.k1 = 13 / 10 ∧ bm.b = 3 / 4 := by
  induction docs using List.reverseRecOn with
  | nil => simp [addDocuments, BM25.new, averageLength]
  | append_singleton docs d ih =>
      obtain ⟨htotal, -, hlength, hk1, hb⟩ := ih
      rw [addDocuments_concat]
      dsimp only
      have htotal' : (((addDocuments stemmer docs : BM25 K).addDocument stemmer d.1
          d.2)).totalDocuments = (docs ++ [d]).length := by
        rw [List.length_append, ← htotal]
        rfl
      have hlength' : (((addDocuments stemmer docs : BM25 K).addDocument stemmer d.1
          d.2)).totalDocumentTermLength =
            ((docs ++ [d]).map fun d => (Tokenize stemmer d.2).length).sum := by
        rw [List.map_append, List.sum_append, ← hlength, List.map_singleton, List.sum_singleton]
        rfl
      refine ⟨htotal', ?_, hlength', hk1, hb⟩
      rw [averageLength, ← htotal', ← hlength']
      rfl

theorem lookup_addDocuments (docs : List (ℕ × String)) (q : String) :
    (addDocuments stemmer docs : BM25 K).terms.lookup q =
      if q ∈ prototypeNames ∨ docsWithTerm stemmer docs q = 0 then none
      else some { n := docsWithTerm stemmer docs q, idf := 0 } := by
  induction docs using List.reverseRecOn with
  | nil =>
      have hzero : docsWithTerm stemmer [] q = 0 := rfl
      rw [hzero, if_pos (Or.inr rfl)]
      rfl
  | append_singleton docs d ih =>
      have hcount : docsWithTerm stemmer (docs ++ [d]) q =
          docsWithTerm stemmer docs q + if q ∈ Tokenize stemmer d.2 then 1 else 0 := by
        simp only [docsWithTerm, List.countP_append, List.countP_singleton, decide_eq_true_eq]
      rw [addDocuments_concat, lookup_addDocument, ih, hcount]
      by_cases hq : q ∈ prototypeNames
      · simp [hq]
      · by_cases hd : q ∈ Tokenize stemmer d.2
        · by_cases hzero : docsWithTerm stemmer docs q = 0
          · simp [hq, hd, hzero, counted]
          · simp [hq, hd, hzero, counted]
        · simp [hq, hd]

/-! ### The table of a document -/

/-- The count of a term, where it has an entry. -/
def countIn (terms : AList (fun _ : String => TermCount K)) (t : String) : Option ℕ :=
  (terms.lookup t).map TermCount.count

theorem countIn_countToken (terms : AList (fun _ : String => TermCount K)) (term t : String) :
    countIn (countToken terms term) t =
      if t = term ∧ t ∉ prototypeNames then some ((countIn terms t).getD 0 + 1)
      else countIn terms t := by
  unfold countToken countIn
  by_cases hsame : t = term
  · subst hsame
    by_cases hinherited : t ∈ prototypeNames
    · simp [hinherited]
    · cases hlookup : terms.lookup t with
      | none => simp [hinherited]
      | some c => simp [hinherited]
  · split
    · simp [hsame]
    · cases hlookup : terms.lookup term with
      | none | some c => simp [hsame, AList.lookup_insert_ne hsame]

theorem countIn_countTokens (tokens : List String) (t : String) :
    countIn (countTokens tokens : AList (fun _ : String => TermCount K)) t =
      if t ∈ tokens ∧ t ∉ prototypeNames then some (tokens.count t) else none := by
  induction tokens using List.reverseRecOn with
  | nil =>
      rw [if_neg (by simp)]
      rfl
  | append_singleton tokens term ih =>
      rw [countTokens, List.foldl_append, ← countTokens, List.foldl_cons, List.foldl_nil,
        countIn_countToken, ih]
      by_cases hinherited : t ∈ prototypeNames
      · simp [hinherited]
      · by_cases hsame : t = term
        · subst hsame
          by_cases hmem : t ∈ tokens
          · simp [hinherited, hmem]
          · simp [hinherited, hmem, List.count_eq_zero.mpr hmem]
        · have hcount : (tokens ++ [term]).count t = tokens.count t := by
            rw [List.count_append, List.count_singleton, if_neg (by simpa using Ne.symm hsame)]
            rfl
          simp [hsame, hcount]

theorem countIn_setFreqs (n : ℕ) (keys : List String)
    (terms : AList (fun _ : String => TermCount K)) (t : String) :
    countIn (keys.foldl (setFreq n) terms) t = countIn terms t := by
  induction keys generalizing terms with
  | nil => rfl
  | cons key keys ih =>
      rw [List.foldl_cons, ih]
      unfold setFreq countIn
      cases hlookup : terms.lookup key with
      | none => rfl
      | some c =>
          by_cases hsame : t = key
          · subst hsame
            simp [hlookup]
          · simp [AList.lookup_insert_ne hsame]

theorem countIn_newDocument (d : ℕ × String) (q : String) :
    countIn (newDocument stemmer d : Document K).terms q =
      if q ∈ Tokenize stemmer d.2 ∧ q ∉ prototypeNames then
        some ((Tokenize stemmer d.2).count q)
      else none :=
  (countIn_setFreqs _ _ _ q).trans (countIn_countTokens _ q)

end Index

/-! ## Scores -/

section Scores
variable [Field K] [LinearOrder K] {log10 : K → K}

theorem docsWithTerm_pos (hd : d ∈ docs) (hq : q ∈ Tokenize stemmer d.2) :
    docsWithTerm stemmer docs q ≠ 0 := by
  rw [docsWithTerm, ne_eq, List.countP_eq_zero]
  exact fun hnone => hnone d hd (decide_eq_true hq)

theorem termScore_of_notMem (hq : q ∉ Tokenize stemmer d.2) :
    termScore stemmer docs log10 d q = 0 := by
  unfold termScore
  rw [List.count_eq_zero.mpr hq]
  simp

theorem lookup_indexDocuments (docs : List (ℕ × String)) (q : String) :
    (indexDocuments stemmer log10 docs).terms.lookup q =
      if q ∈ prototypeNames ∨ docsWithTerm stemmer docs q = 0 then none
      else some { n := docsWithTerm stemmer docs q,
                  idf := idfOf log10 docs.length (docsWithTerm stemmer docs q) } := by
  rw [indexDocuments, lookup_updateIdf, (statistics_addDocuments K stemmer docs).1,
    lookup_addDocuments]
  split
  · rfl
  · rfl

theorem addScore_newDocument (hd : d ∈ docs) (score : Option K) (q : String) :
    (indexDocuments stemmer log10 docs).addScore polluted (newDocument stemmer d) score q =
      if shadows polluted (Tokenize stemmer d.2) q then none
      else score.map (· + termScore stemmer docs log10 d q) := by
  have hcount : countIn (newDocument stemmer d : Document K).terms q = _ := countIn_newDocument d q
  unfold BM25.addScore
  rw [lookup_indexDocuments]
  by_cases hproto : q ∈ prototypeNames
  · rw [if_neg fun h => h.2 hproto, countIn, Option.map_eq_none_iff] at hcount
    simp [hcount, hproto, inherited, shadows]
  · by_cases hmem : q ∈ Tokenize stemmer d.2
    · rw [if_pos ⟨hmem, hproto⟩, countIn, Option.map_eq_some_iff] at hcount
      obtain ⟨c, hlookup, hc⟩ := hcount
      obtain ⟨-, haverage, -, hk1, hb⟩ := statistics_addDocuments K stemmer docs
      have hshadows : shadows polluted (Tokenize stemmer d.2) q = false := by
        simp [shadows, hproto, hmem]
      rw [hlookup, if_neg (not_or.mpr ⟨hproto, docsWithTerm_pos hd hmem⟩), hshadows, termScore,
        ← hc, ← haverage, ← hk1, ← hb]
      rfl
    · rw [if_neg fun h => hmem h.1, countIn, Option.map_eq_none_iff] at hcount
      rw [hcount, termScore_of_notMem hmem]
      by_cases hinherited : polluted = true ∧ q = "count"
      · simp [inherited, shadows, hinherited, hinherited.2 ▸ hmem]
      · have hfree : inherited polluted q = false := by
          simp only [inherited, hproto, decide_false, Bool.false_or, Bool.and_eq_false_iff,
            decide_eq_false_iff_not]
          grind
        have hshadows : shadows polluted (Tokenize stemmer d.2) q = false := by
          simp only [shadows, hproto, decide_false, Bool.false_or, Bool.and_eq_false_iff,
            decide_eq_false_iff_not]
          grind
        simp [hfree, hshadows]

theorem score_scored (hd : d ∈ docs) (Q : List String) :
    ((indexDocuments stemmer log10 docs).scored polluted Q (newDocument stemmer d)).score =
      if shadowed stemmer Q polluted d then none else some (bm25 stemmer docs Q log10 d) := by
  have hfold : ∀ score : Option K,
      Q.foldl ((indexDocuments stemmer log10 docs).addScore polluted (newDocument stemmer d))
        score = if shadowed stemmer Q polluted d then none
          else score.map (· + bm25 stemmer docs Q log10 d) := by
    induction Q with
    | nil =>
        intro score
        cases score with
        | none => simp [shadowed]
        | some x => simp [shadowed, bm25]
    | cons q Q ih =>
        intro score
        rw [List.foldl_cons, ih, addScore_newDocument hd]
        have hbm25 : bm25 stemmer docs (q :: Q) log10 d =
            termScore stemmer docs log10 d q + bm25 stemmer docs Q log10 d := by
          rw [bm25, List.map_cons, List.sum_cons, ← bm25]
        have hshadowed : shadowed stemmer (q :: Q) polluted d =
            (shadows polluted (Tokenize stemmer d.2) q || shadowed stemmer Q polluted d) := by
          rw [shadowed, List.any_cons, ← shadowed]
        rw [hbm25, hshadowed]
        cases shadows polluted (Tokenize stemmer d.2) q with
        | true => simp
        | false =>
            cases score with
            | none => simp
            | some x => simp [add_assoc]
  have hzero := hfold (some 0)
  rw [Option.map_some, zero_add] at hzero
  exact hzero

variable [IsStrictOrderedRing K]

theorem averageLength_nonneg : (0 : K) ≤ averageLength stemmer docs :=
  div_nonneg (Nat.cast_nonneg _) (Nat.cast_nonneg _)

theorem termScore_pos (hq : q ∈ Tokenize stemmer d.2) : 0 < termScore stemmer docs log10 d q := by
  have hidf : 0 < idfOf log10 docs.length (docsWithTerm stemmer docs q) :=
    lt_of_lt_of_le (by positivity) (le_max_right _ _)
  have hcount : (0 : K) < (Tokenize stemmer d.2).count q :=
    Nat.cast_pos.mpr (List.count_pos_iff.mpr hq)
  have hlength : 0 ≤ 3 / 4 * ((Tokenize stemmer d.2).length : K) / averageLength stemmer docs :=
    div_nonneg (by positivity) averageLength_nonneg
  have hrest : (0 : K) ≤ 1 - 3 / 4 := by
    rw [sub_nonneg]
    exact div_le_one_of_le₀ (by norm_num) (by norm_num)
  unfold termScore
  positivity

theorem termScore_nonneg (d : ℕ × String) (q : String) : 0 ≤ termScore stemmer docs log10 d q := by
  by_cases hq : q ∈ Tokenize stemmer d.2
  · exact (termScore_pos hq).le
  · exact (termScore_of_notMem hq).ge

theorem bm25_pos_iff : 0 < bm25 stemmer docs Q log10 d ↔ hasQueryTerm stemmer Q d = true := by
  induction Q with
  | nil => simp [bm25, hasQueryTerm]
  | cons q Q ih =>
      have hrest : 0 ≤ bm25 stemmer docs Q log10 d := by
        apply List.sum_nonneg
        intro x hx
        obtain ⟨q, -, rfl⟩ := List.mem_map.mp hx
        exact termScore_nonneg d q
      have hbm25 : bm25 stemmer docs (q :: Q) log10 d =
          termScore stemmer docs log10 d q + bm25 stemmer docs Q log10 d := by
        rw [bm25, List.map_cons, List.sum_cons, ← bm25]
      rw [hbm25, hasQueryTerm, List.any_cons, ← hasQueryTerm, Bool.or_eq_true, decide_eq_true_iff,
        ← ih]
      by_cases hq : q ∈ Tokenize stemmer d.2
      · simp [hq, add_pos_of_pos_of_nonneg (termScore_pos hq) hrest]
      · simp [hq, termScore_of_notMem hq]

end Scores

/-! ## Results -/

section Results
variable [Field K] [LinearOrder K] {log10 : K → K}

theorem scored_perm (stemmer : String → String) (log10 : K → K)
    (hids : (docs.map Prod.fst).Nodup) (polluted : Bool) (Q : List String) :
    ((indexDocuments stemmer log10 docs).documents.map
        ((indexDocuments stemmer log10 docs).scored polluted Q)).Perm (docs.map fun d =>
        (indexDocuments stemmer log10 docs).scored polluted Q (newDocument stemmer d)) := by
  have hperm : (indexDocuments stemmer log10 docs).documents.Perm
    (docs.map (newDocument stemmer)) := documents_perm hids
  have hmap := hperm.map ((indexDocuments stemmer log10 docs).scored polluted Q)
  rwa [List.map_map] at hmap

/-! ### A term that no document contains -/

variable {query query' : String} {l₁ l₂ : List String}

theorem bm25_insert (habsent : t ∉ Tokenize stemmer d.2) :
    bm25 stemmer docs (l₁ ++ t :: l₂) log10 d = bm25 stemmer docs (l₁ ++ l₂) log10 d := by
  simp only [bm25, List.map_append, List.map_cons, List.sum_append, List.sum_cons,
    termScore_of_notMem habsent, zero_add]

omit [Field K] [LinearOrder K] in
theorem shadowed_insert (habsent : t ∉ Tokenize stemmer d.2) :
    shadowed stemmer (l₁ ++ t :: l₂) polluted d =
      (inherited polluted t || shadowed stemmer (l₁ ++ l₂) polluted d) := by
  have hshadows : shadows polluted (Tokenize stemmer d.2) t = inherited polluted t := by
    rw [shadows, inherited, decide_eq_true habsent, Bool.and_true]
  simp only [shadowed, List.any_append, List.any_cons, hshadows, Bool.or_left_comm]

theorem search_eq_iff (hids : (docs.map Prod.fst).Nodup) :
    (indexDocuments stemmer log10 docs).search stemmer polluted query' =
        (indexDocuments stemmer log10 docs).search stemmer polluted query ↔ ∀ d ∈ docs,
        ((indexDocuments stemmer log10 docs).scored polluted (Tokenize stemmer query')
            (newDocument stemmer d)).score =
          ((indexDocuments stemmer log10 docs).scored polluted (Tokenize stemmer query)
            (newDocument stemmer d)).score := by
  have hperm : (indexDocuments stemmer log10 docs).documents.Perm
    (docs.map (newDocument stemmer)) := documents_perm hids
  constructor
  · intro h d hd
    have hmap : (indexDocuments stemmer log10 docs).documents.map
          ((indexDocuments stemmer log10 docs).scored polluted (Tokenize stemmer query')) =
        (indexDocuments stemmer log10 docs).documents.map
          ((indexDocuments stemmer log10 docs).scored polluted (Tokenize stemmer query)) :=
      congrArg (fun found => found.1.documents) h
    rw [List.map_inj_left] at hmap
    rw [hmap _ (hperm.mem_iff.mpr (List.mem_map_of_mem hd))]
  · intro h
    have hmap : (indexDocuments stemmer log10 docs).documents.map
          ((indexDocuments stemmer log10 docs).scored polluted (Tokenize stemmer query')) =
        (indexDocuments stemmer log10 docs).documents.map
          ((indexDocuments stemmer log10 docs).scored polluted (Tokenize stemmer query)) := by
      apply List.map_congr_left
      intro doc hdoc
      obtain ⟨d, hd, rfl⟩ := List.mem_map.mp (hperm.mem_iff.mp hdoc)
      exact congrArg (fun score => { (newDocument stemmer d : Document K) with score }) (h d hd)
    rw [BM25.search, BM25.search, hmap]

/-- The added term changes no score if and only if it is not inherited or no document has a
score anyway. -/
theorem search_insert_iff (hids : (docs.map Prod.fst).Nodup)
    (hquery : Tokenize stemmer query = l₁ ++ l₂) (hquery' : Tokenize stemmer query' = l₁ ++ t :: l₂)
    (habsent : ∀ d ∈ docs, t ∉ Tokenize stemmer d.2) :
    (indexDocuments stemmer log10 docs).search stemmer polluted query' =
        (indexDocuments stemmer log10 docs).search stemmer polluted query ↔
      (inherited polluted t = true →
        ∀ d ∈ docs, shadowed stemmer (Tokenize stemmer query) polluted d = true) := by
  rw [search_eq_iff hids, hquery, hquery']
  have hone : ∀ d ∈ docs, (((indexDocuments stemmer log10 docs).scored polluted (l₁ ++ t :: l₂)
            (newDocument stemmer d)).score =
          ((indexDocuments stemmer log10 docs).scored polluted (l₁ ++ l₂)
            (newDocument stemmer d)).score ↔
        (inherited polluted t = true → shadowed stemmer (l₁ ++ l₂) polluted d = true)) := by
    intro d hd
    rw [score_scored hd, score_scored hd, bm25_insert (habsent d hd),
      shadowed_insert (habsent d hd)]
    cases inherited polluted t with
    | true => simp
    | false => simp
  constructor
  · intro h hinherited d hd
    exact (hone d hd).mp (h d hd) hinherited
  · intro h d hd
    exact (hone d hd).mpr fun hinherited => h hinherited d hd

/-! ### The best documents -/

variable [IsStrictOrderedRing K]

theorem positive_score_iff (hd : d ∈ docs) (Q : List String) :
    positive ((indexDocuments stemmer log10 docs).scored polluted Q (newDocument stemmer d)).score =
      (!shadowed stemmer Q polluted d && hasQueryTerm stemmer Q d) := by
  rw [score_scored hd]
  cases shadowed stemmer Q polluted d with
  | true => rfl
  | false =>
      rw [Bool.eq_iff_iff]
      simp [positive, bm25_pos_iff]

theorem isTop_search (stemmer : String → String) (log10 : K → K)
    (hids : (docs.map Prod.fst).Nodup) (polluted : Bool) (query : String) :
    let result := ((indexDocuments stemmer log10 docs).search stemmer polluted query).2
    let Q := Tokenize stemmer query
    IsTop 10 (bm25 stemmer docs Q log10)
        ((docs.filter (hasQueryTerm stemmer Q)).filter (!shadowed stemmer Q polluted ·))
        (result.map fun d => (d.id, d.body)) ∧
      ∀ d ∈ result, d.score = some (bm25 stemmer docs Q log10 (d.id, d.body)) := by
  intro result Q
  have hperm := scored_perm stemmer log10 hids polluted Q
  generalize hfound : (indexDocuments stemmer log10 docs).documents.map
    ((indexDocuments stemmer log10 docs).scored polluted Q) = found at hperm
  have hresult : result = ((found.filter fun d => positive d.score).mergeSort inOrder).take 10 := by
    rw [← hfound]
    rfl
  have hscore : ∀ d ∈ found.filter fun d => positive d.score,
      d.score = some (bm25 stemmer docs Q log10 (d.id, d.body)) := by
    intro doc hdoc
    rw [List.mem_filter, hperm.mem_iff, List.mem_map] at hdoc
    obtain ⟨⟨d, hd, rfl⟩, hpositive⟩ := hdoc
    rw [positive_score_iff hd, Bool.and_eq_true, Bool.not_eq_true'] at hpositive
    rw [score_scored hd, hpositive.1]
    rfl
  have htop : IsTop 10 (fun d => d.score.getD 0) (found.filter fun d => positive d.score)
      result := by
    rw [hresult]
    apply isTop_take_mergeSort
    intro a ha b hb
    rw [inOrder, hscore a ha, hscore b hb]
    rfl
  refine ⟨?_, fun d hd => hscore d (htop.mem hd)⟩
  apply (htop.map fun d hd => by rw [hscore d hd, Option.getD_some]).perm
  refine ((hperm.filter _).map _).trans ?_
  rw [List.filter_map, List.map_map, List.filter_filter]
  have hsame : ∀ d ∈ docs, ((fun d => positive d.score) ∘ fun d =>
      (indexDocuments stemmer log10 docs).scored polluted Q (newDocument stemmer d)) d =
        (!shadowed stemmer Q polluted d && hasQueryTerm stemmer Q d) := fun d hd =>
    positive_score_iff hd Q
  rw [List.filter_congr hsame]
  exact .of_eq (List.map_id _)

end Results

/-- The result holds the best ten if and only if every document with a query term but without
a score has ten betters.  A term that no document contains changes nothing if and only if it is
not inherited or no document has a score anyway. -/
theorem search_iff [Field K] [LinearOrder K] [IsStrictOrderedRing K] (stemmer : String → String)
    (log10 : K → K) (docs : List (ℕ × String)) (hids : (docs.map Prod.fst).Nodup)
    (query : String) :
    let bm := indexDocuments stemmer log10 docs
    let polluted := pollutes stemmer docs
    let Q := Tokenize stemmer query
    (TopTen stemmer docs Q log10 (bm.search stemmer polluted query).2 ↔
      ∀ d ∈ docs, hasQueryTerm stemmer Q d = true → shadowed stemmer Q polluted d = true →
        10 ≤ docs.countP fun e => hasQueryTerm stemmer Q e && !shadowed stemmer Q polluted e &&
          decide (bm25 stemmer docs Q log10 d ≤ bm25 stemmer docs Q log10 e)) ∧
      ∀ query' l₁ t l₂, Q = l₁ ++ l₂ → Tokenize stemmer query' = l₁ ++ t :: l₂ →
        (∀ d ∈ docs, t ∉ Tokenize stemmer d.2) →
        (bm.search stemmer polluted query' = bm.search stemmer polluted query ↔
          (inherited polluted t = true → ∀ d ∈ docs, shadowed stemmer Q polluted d = true)) := by
  intro bm polluted Q
  refine ⟨?_, fun query' l₁ t l₂ => search_insert_iff hids⟩
  obtain ⟨htop, hscore⟩ := isTop_search stemmer log10 hids polluted query
  have hcount : ∀ d, ((docs.filter (hasQueryTerm stemmer Q)).filter
      (!shadowed stemmer Q polluted ·)).countP (fun e =>
        decide (bm25 stemmer docs Q log10 d ≤ bm25 stemmer docs Q log10 e)) =
      docs.countP fun e => hasQueryTerm stemmer Q e && !shadowed stemmer Q polluted e &&
        decide (bm25 stemmer docs Q log10 d ≤ bm25 stemmer docs Q log10 e) := by
    intro d
    rw [List.countP_filter, List.countP_filter]
    apply List.countP_congr
    intro e _
    simp only [Bool.and_eq_true]
    tauto
  constructor
  · intro h d hd hhas hshadowed
    rw [← hcount]
    apply htop.of_part_iff.mp h.top d (List.mem_filter.mpr ⟨hd, hhas⟩)
    rw [Bool.not_eq_false']
    exact hshadowed
  · intro h
    refine ⟨htop.of_part_iff.mpr fun d hd hshadowed => ?_, hscore⟩
    rw [List.mem_filter] at hd
    rw [Bool.not_eq_false'] at hshadowed
    have hmany := h d hd.1 hd.2 hshadowed
    rwa [← hcount] at hmany

/-- Three texts of animals, and a term that none of them contains. -/
theorem search_iff_animals :
    TopTen id [(0, "cat dog"), (2, "dog"), (1, "cat")] (Tokenize id "dog") (fun x : ℚ => x)
        ((indexDocuments id (fun x : ℚ => x) [(0, "cat dog"), (2, "dog"), (1, "cat")]).search id
          (pollutes id [(0, "cat dog"), (2, "dog"), (1, "cat")]) "dog").2 ∧
      (indexDocuments id (fun x : ℚ => x) [(0, "cat dog"), (2, "dog"), (1, "cat")]).search id
          (pollutes id [(0, "cat dog"), (2, "dog"), (1, "cat")]) "dog bird" =
        (indexDocuments id (fun x : ℚ => x) [(0, "cat dog"), (2, "dog"), (1, "cat")]).search id
          (pollutes id [(0, "cat dog"), (2, "dog"), (1, "cat")]) "dog" := by
  obtain ⟨htop, hsame⟩ := search_iff id (fun x : ℚ => x) [(0, "cat dog"), (2, "dog"), (1, "cat")]
    (by decide) "dog"
  have hnone : ∀ d ∈ [(0, "cat dog"), (2, "dog"), (1, "cat")],
      shadowed id (Tokenize id "dog") (pollutes id [(0, "cat dog"), (2, "dog"), (1, "cat")]) d =
        false := by decide
  refine ⟨htop.mpr fun d hd _ hshadowed => ?_, ?_⟩
  · rw [hnone d hd] at hshadowed
    cases hshadowed
  · exact (hsame "dog bird" ["dog"] "bird" [] (by decide) (by decide) (by decide)).mpr
      fun hinherited => absurd hinherited (by decide)

/-- The word is never counted, because a function is found under its name. -/
theorem constructor_not_found :
    ¬ TopTen id [(0, "constructor")] (Tokenize id "constructor") (fun x : ℚ => x)
        ((indexDocuments id (fun x : ℚ => x) [(0, "constructor")]).search id
          (pollutes id [(0, "constructor")]) "constructor").2 := by
  intro h
  have hids : ([(0, "constructor")].map Prod.fst).Nodup := by decide
  have hpart := (isTop_search id (fun x : ℚ => x) hids (pollutes id [(0, "constructor")])
    "constructor").1
  have hten := hpart.of_part_iff.mp h.top (0, "constructor") (by decide) (by decide)
  have hnone : ([(0, "constructor")].filter (hasQueryTerm id (Tokenize id "constructor"))).filter
      (!shadowed id (Tokenize id "constructor") (pollutes id [(0, "constructor")]) ·) = [] := by
    decide
  rw [hnone] at hten
  exact absurd hten (by decide)

end MiscProjects.Bm25
