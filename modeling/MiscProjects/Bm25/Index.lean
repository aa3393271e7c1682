import Mathlib.Algebra.Field.Defs
import Mathlib.Order.Defs.LinearOrder
import Mathlib.Algebra.Field.Rat
import Mathlib.Algebra.Order.Ring.Unbundled.Rat
import Mathlib.Data.List.AList

/-!
# The Okapi BM25 worker

The index of `bm25.js` and its message handler.  Numbers are elements of a
field: the lengths and counts are small integers and the quotients are taken to
be exact.  The Porter stemmer and `Math.log10` are parameters.

The objects `terms` of the index and of a document are used as dictionaries
that inherit from `Object.prototype`.  A word that names one of its properties
is found there instead: it never becomes a key, and a score that meets one is
not a number.  The order of the keys, which no result depends on, is not kept,
except for the documents, whose keys are integers and come in their order.
-/

namespace MiscProjects.Bm25

/-! ## Words -/

/-- Stopwords list. -/
def stopwords : List String :=
  ["a", "about", "above", "after", "again", "against", "all", "am", "an", "and",
   "any", "are", "aren't", "as", "at", "be", "because", "been", "before", "being",
   "below", "between", "both", "but", "by", "can't", "cannot", "could", "couldn't",
   "did", "didn't", "do", "does", "doesn't", "doing", "don't", "down", "during",
   "each", "few", "for", "from", "further", "had", "hadn't", "has", "hasn't",
   "have", "haven't", "having", "he", "he'd", "he'll", "he's", "her", "here",
   "here's", "hers", "herself", "him", "himself", "his", "how", "how's", "i",
   "i'd", "i'll", "i'm", "i've", "if", "in", "into", "is", "isn't", "it", "it's",
   "its", "itself", "let's", "me", "more", "most", "mustn't", "my", "myself", "no",
   "nor", "not", "of", "off", "on", "once", "only", "or", "other", "ought", "our",
   "ours", "ourselves", "out", "over", "own", "same", "shan't", "she", "she'd",
   "she'll", "she's", "should", "shouldn't", "so", "some", "such", "than", "that",
   "that's", "the", "their", "theirs", "them", "themselves", "then", "there",
   "there's", "these", "they", "they'd", "they'll", "they're", "they've", "this",
   "those", "through", "to", "too", "under", "until", "up", "very", "was",
   "wasn't", "we", "we'd", "we'll", "we're", "we've", "were", "weren't", "what",
   "what's", "when", "when's", "where", "where's", "which", "while", "who",
   "who's", "whom", "why", "why's", "with", "won't", "would", "wouldn't", "you",
   "you'd", "you'll", "you're", "you've", "your", "yours", "yourself",
   "yourselves"]

/-- `toLowerCase` on one character, as far as a word character comes out. -/
def lower (c : Char) : List Char :=
  if c = Char.ofNat 0x212A then ['k']
  else if c = Char.ofNat 0x130 then ['i', Char.ofNat 0x307]
  else [c.toLower]

/-- `\w` of a regular expression without flags. -/
def isWordChar (c : Char) : Bool :=
  ('a' ≤ c && c ≤ 'z') || ('A' ≤ c && c ≤ 'Z') || ('0' ≤ c && c ≤ '9') || c = '_'

/-- The words of a text in lower case.  A text without a word character is
split into one empty word. -/
def splitWords (text : String) : List String :=
  let chars := (text.toList.flatMap lower).map fun c =>
    if isWordChar c then c else ' '
  match (chars.splitOnP (· = ' ')).filter (· ≠ []) with
  | [] => [""]
  | words => words.map String.ofList

/-- The names of the properties of `Object.prototype`. -/
def prototypeNames : List String :=
  ["constructor", "__defineGetter__", "__defineSetter__", "hasOwnProperty",
   "__lookupGetter__", "__lookupSetter__", "isPrototypeOf",
   "propertyIsEnumerable", "toString", "valueOf", "__proto__", "toLocaleString"]

section Tokenize
variable (stemmer : String → String)

def stopStems : List String := stopwords.map stemmer

def Tokenize (text : String) : List String :=
  ((splitWords text).map stemmer).filter (· ∉ stopStems stemmer)

end Tokenize

/-! ## The formula -/

section Formula
variable {K : Type*} (stemmer : String → String) (docs : List (ℕ × String))

/-- The number of documents that contain a term. -/
def docsWithTerm (q : String) : ℕ := docs.countP fun d => q ∈ Tokenize stemmer d.2

variable [Field K]

def averageLength : K :=
  ((docs.map fun d => (Tokenize stemmer d.2).length).sum : ℕ) / (docs.length : K)

variable [LinearOrder K]

/-- The inverse document frequency of a term that `n` of the documents have. -/
def idfOf (log10 : K → K) (total n : ℕ) : K :=
  max (log10 ((total - n + 1 / 2) / (n + 1 / 2))) (1 / 100)

variable (log10 : K → K)

/-- What one query term adds to the score of a document, with `k1 = 1.3` and `b = 0.75`. -/
def termScore (d : ℕ × String) (q : String) : K :=
  let count : K := (Tokenize stemmer d.2).count q
  idfOf log10 docs.length (docsWithTerm stemmer docs q) * (count * (13 / 10 + 1)) /
    (count + 13 / 10 * (1 - 3 / 4 +
      3 / 4 * (Tokenize stemmer d.2).length / averageLength stemmer docs))

end Formula

/-! ## The index -/

variable {K : Type*} [Field K] [LinearOrder K]

/-- An entry of `terms` of the index. -/
structure Term (K : Type*) where
  /-- Number of docs this term appears in, uniquely. -/
  n : ℕ
  idf : K

/-- An entry of `terms` of a document. -/
structure TermCount (K : Type*) where
  count : ℕ
  freq : K

structure Document (K : Type*) where
  id : ℕ
  tokens : List String
  body : String
  termCount : ℕ
  terms : AList (fun _ : String => TermCount K)
  /-- `_score`: `none` is `NaN`, and the value before the first search. -/
  score : Option K

structure BM25 (K : Type*) where
  documents : List (Document K)
  terms : AList (fun _ : String => Term K)
  totalDocumentTermLength : ℕ
  averageDocumentLength : K
  totalDocuments : ℕ
  k1 : K
  b : K

def BM25.new : BM25 K where
  documents := []
  terms := ∅
  totalDocumentTermLength := 0
  averageDocumentLength := 0
  totalDocuments := 0
  k1 := 13 / 10
  b := 3 / 4

/-- `this.documents[docObj.id] = docObj`, the keys in ascending order. -/
def setDocument (docObj : Document K) : List (Document K) → List (Document K)
  | [] => [docObj]
  | d :: documents =>
      if docObj.id < d.id then docObj :: d :: documents
      else if docObj.id = d.id then docObj :: documents
      else d :: setDocument docObj documents

/-- Counting one token.  An inherited property is not `undefined`, so that no
entry is made, and what is counted is a property of the inherited value. -/
def countToken (terms : AList (fun _ : String => TermCount K)) (term : String) :
    AList (fun _ : String => TermCount K) :=
  if term ∈ prototypeNames then terms
  else
    match terms.lookup term with
    | none => terms.insert term { count := 1, freq := 0 }
    | some t => terms.insert term { t with count := t.count + 1 }

def countTokens (tokens : List String) : AList (fun _ : String => TermCount K) :=
  tokens.foldl countToken ∅

/-- Setting the frequency of one term of a document. -/
def setFreq (termCount : ℕ) (terms : AList (fun _ : String => TermCount K))
    (term : String) : AList (fun _ : String => TermCount K) :=
  match terms.lookup term with
  | none => terms
  | some t => terms.insert term { t with freq := t.count / termCount }

/-- One more document has the term. -/
def countDocument (terms : AList (fun _ : String => Term K)) (term : String) :
    AList (fun _ : String => Term K) :=
  match terms.lookup term with
  | none => terms.insert term { n := 1, idf := 0 }
  | some t => terms.insert term { t with n := t.n + 1 }

variable (stemmer : String → String) (log10 : K → K)

def BM25.addDocument (this : BM25 K) (id : ℕ) (body : String) : BM25 K :=
  let tokens := Tokenize stemmer body
  let termCount := tokens.length
  let totalDocuments := this.totalDocuments + 1
  let totalDocumentTermLength := this.totalDocumentTermLength + termCount
  let counts : AList (fun _ : String => TermCount K) := countTokens tokens
  let docObj : Document K :=
    { id, tokens, body, termCount
      terms := counts.keys.foldl (setFreq termCount) counts
      score := none }
  { this with
    totalDocuments
    totalDocumentTermLength
    averageDocumentLength := totalDocumentTermLength / totalDocuments
    terms := counts.keys.foldl countDocument this.terms
    documents := setDocument docObj this.documents }

/-- The inverse document frequency of one term. -/
def setIdf (totalDocuments : ℕ) (terms : AList (fun _ : String => Term K))
    (term : String) : AList (fun _ : String => Term K) :=
  match terms.lookup term with
  | none => terms
  | some t =>
      let num : K := totalDocuments - t.n + 1 / 2
      let denom : K := t.n + 1 / 2
      terms.insert term { t with idf := max (log10 (num / denom)) (1 / 100) }

def BM25.updateIdf (this : BM25 K) : BM25 K :=
  { this with
    terms := this.terms.keys.foldl (setIdf log10 this.totalDocuments) this.terms }

/-! ## Searching -/

/-- The term is found in an object without being its key: a property of
`Object.prototype`, to which counting the token `__proto__` adds `count`. -/
def inherited (polluted : Bool) (term : String) : Bool :=
  term ∈ prototypeNames || (polluted && term = "count")

/-- The score of a document and one more query term. -/
def BM25.addScore (this : BM25 K) (polluted : Bool) (d : Document K)
    (score : Option K) (queryTerm : String) : Option K :=
  match this.terms.lookup queryTerm, d.terms.lookup queryTerm with
  | some t, some c =>
      let num := c.count * (this.k1 + 1)
      let denom := c.count + this.k1 *
        (1 - this.b + this.b * d.termCount / this.averageDocumentLength)
      score.map (· + t.idf * num / denom)
  | t, c =>
      -- What is inherited has no `idf` and no count.
      if (t.isSome || inherited polluted queryTerm) &&
          (c.isSome || inherited polluted queryTerm) then none
      else score

def BM25.scored (this : BM25 K) (polluted : Bool) (queryTerms : List String)
    (d : Document K) : Document K :=
  { d with score := queryTerms.foldl (this.addScore polluted d) (some 0) }

def positive : Option K → Bool
  | none => false
  | some score => 0 < score

/-- `b._score - a._score` is not positive: `a` need not be moved behind `b`. -/
def inOrder (a b : Document K) : Bool :=
  match a.score, b.score with
  | some x, some y => y ≤ x
  | _, _ => true

def BM25.search (this : BM25 K) (polluted : Bool) (query : String) :
    BM25 K × List (Document K) :=
  let documents :=
    this.documents.map (this.scored polluted (Tokenize stemmer query))
  let results := documents.filter fun d => positive d.score
  ({ this with documents }, (results.mergeSort inOrder).take 10)

/-! ## The worker -/

inductive Message
  | indexBatch (data : List String)
  | search (data : String)

/-- What the worker posts. -/
inductive Post (K : Type*)
  | indexUpdate (data : K)
  | searchResults (data : List (Document K))

/-- The worker: the index, and whether `Object.prototype` has been given an
enumerable property `count`. -/
structure Worker (K : Type*) where
  bm : BM25 K
  polluted : Bool

def Worker.new : Worker K := { bm := BM25.new, polluted := false }

/-- One turn of the loop over a batch of `len` texts. -/
def Worker.indexText (len : ℕ) (w : Worker K × List (Post K)) (item : String × ℕ) :
    Worker K × List (Post K) :=
  let bm := w.1.bm.addDocument stemmer item.2 item.1
  let polluted := w.1.polluted || ("__proto__" ∈ Tokenize stemmer item.1 : Bool)
  let posts := if item.2 % 100 = 0 then [.indexUpdate ((item.2 : K) / len)] else []
  ({ bm, polluted }, w.2 ++ posts)

def Worker.onmessage (w : Worker K) : Message → Worker K × List (Post K)
  | .indexBatch data =>
      let indexed := data.zipIdx.foldl (Worker.indexText stemmer data.length) (w, [])
      -- The loop goes on with an inherited `count`, which has no `toLowerCase`.
      if w.polluted then indexed
      else
        ({ indexed.1 with bm := indexed.1.bm.updateIdf log10 },
          indexed.2 ++ [.indexUpdate 1])
  | .search data =>
      let found := w.bm.search stemmer w.polluted data
      ({ w with bm := found.1 }, [.searchResults found.2])

/-- The worker after a sequence of messages. -/
def Worker.run (messages : List Message) : Worker K :=
  messages.foldl (fun w m => (w.onmessage stemmer log10 m).1) Worker.new

end MiscProjects.Bm25
