import Mathlib.Algebra.Field.Defs
import Mathlib.Data.Char
import Mathlib.Data.List.Lex
import Agentrail.Lib.InvertedIndex
import Agentrail.Py.Json

/-!
# The scoring corpus (`context/retrieval.py`, `context/index.py`)

Retrieval scores every chunk of the index, or every record where there are no chunks,
by the terms of its text.  `prepareCorpus` gets the counts of the terms by reading the
texts, or from `postings.json`, which `buildPostings` wrote when the index was built.

`prepareCorpus_buildPostings`, `docFreq_buildPostings`: with distinct ids the two corpora
are the same, and so is the number of documents with a term.
-/

namespace Agentrail.Retrieval

open Py Regex InvertedIndex

/-! ## The index -/

structure PriorMistake where
  issue : Option Int := none
  status : Text := []
  /-- the whole, as `json.dumps` writes it -/
  json : Text
  deriving DecidableEq

/-- Times are in microseconds, `none` where they are missing or cannot be read. -/
structure Memory where
  expiresAt : Option Int := none
  createdAt : Option Int := none
  confidence : Text := []
  deriving DecidableEq

/-- A record; without any of its fields it is the `{}` that stands for an unknown source. -/
structure SourceRecord where
  id : Option Text := none
  path : Option Text := none
  sourceType : Text := []
  authority : Text := []
  visibility : Text := []
  /-- `freshness.status` -/
  freshness : Text := "current".toList
  content : Text := []
  linkedIssues : List Int := []
  linkedPullRequests : List Int := []
  priorMistake : Option PriorMistake := none
  memory : Option Memory := none
  deriving DecidableEq

structure ChunkRecord where
  id : Text
  sourceId : Option Text := none
  content : Text := []
  citation : Text := []
  parentContext : Text := []
  headingPath : List Text := []
  symbolHints : List Text := []
  importHints : List Text := []
  priorMistake : Option PriorMistake := none
  memory : Option Memory := none
  deriving DecidableEq

structure Index where
  builtAt : Text := []
  records : List SourceRecord := []
  chunks : List ChunkRecord := []
  deriving DecidableEq

/-- What is scored: a record, and a chunk of it where the index has chunks. -/
abbrev Item := SourceRecord × Option ChunkRecord

/-- The items of the corpus. -/
def items (index : Index) : List Item :=
  let sources := Dict.ofItems (index.records.map fun record => (record.id, record))
  if index.chunks = [] then index.records.map fun record => (record, none)
  else index.chunks.map fun chunk => ((sources.get chunk.sourceId).getD {}, some chunk)

/-- `a or b` of two texts. -/
def orText (a b : Text) : Text := if a = [] then b else a

/-- `(chunk or {}).get(field, default)`. -/
def chunkField {α : Type} (chunk : Option ChunkRecord) (field : ChunkRecord → α) (default : α) : α :=
  chunk.elim default field

/-- `str((chunk or {}).get("id") or source.get("id"))`. -/
def itemId (item : Item) : Text :=
  orText (chunkField item.2 ChunkRecord.id []) (item.1.id.getD "None".toList)

def priorMistakeOf (item : Item) : Option PriorMistake :=
  (chunkField item.2 ChunkRecord.priorMistake none).or item.1.priorMistake

def memoryOf (item : Item) : Option Memory :=
  (chunkField item.2 ChunkRecord.memory none).or item.1.memory

/-- `str((chunk or {}).get("citation") or source.get("path"))`. -/
def citationOf (item : Item) : Text :=
  orText (chunkField item.2 ChunkRecord.citation []) (item.1.path.getD "None".toList)

def jsonTexts (ts : List Text) : Text := dumps defaultSeparators (.list (ts.map .str))

def jsonInts (ns : List Int) : Text := dumps defaultSeparators (.list (ns.map .int))

/-- `record_text`. -/
def recordText (item : Item) : Text :=
  List.intercalate ['\n']
    [ item.1.path.getD [],
      item.1.id.getD [],
      item.1.sourceType,
      item.1.authority,
      orText (chunkField item.2 ChunkRecord.content []) item.1.content,
      chunkField item.2 ChunkRecord.citation [],
      chunkField item.2 ChunkRecord.parentContext [],
      jsonTexts (chunkField item.2 ChunkRecord.headingPath []),
      jsonTexts (chunkField item.2 ChunkRecord.symbolHints []),
      jsonTexts (chunkField item.2 ChunkRecord.importHints []),
      (priorMistakeOf item).elim ['{', '}'] PriorMistake.json,
      jsonInts item.1.linkedIssues,
      jsonInts item.1.linkedPullRequests ]

/-! ## Terms -/

/-- `[a-z0-9…]` with the further characters. -/
def lowerOr (more : String) : Re := .cls fun c => c.isLower || c.isDigit || more.toList.contains c

/-- A path with a slash, a number, a word, or another run of such characters. -/
def tokenPattern : Re :=
  Re.any
    [ Re.cat [.plus true (lowerOr "_.-"), .cls (· = '/'), .plus true (lowerOr "_./-")],
      Re.cat [.opt true (.cls (· = '#')), .plus true (.cls isDecimal)],
      Re.cat [.cls Char.isLower, .star true (lowerOr "_-")],
      .plus true (lowerOr "_.-") ]

/-- `re.findall` of a pattern without groups. -/
def findTexts (r : Re) (t : Text) : List Text := (findAll (.group 0 r) t).map (·.groupText 0)

section
variable (lower : Text → Text)

/-- `tokenize`, with `lower` for `str.lower`. -/
def tokenize (text : Text) : List Text := findTexts tokenPattern (lower text)

/-! ## Postings -/

/-- The terms of an item with their counts. -/
def termCounts (item : Item) : Dict Text Nat := countTerms (tokenize lower (recordText item))

/-- The items as documents of an inverted index. -/
def documents (index : Index) : List (Text × Dict Text Nat) :=
  (items index).map fun item => (itemId item, termCounts lower item)

abbrev Postings := Dict Text (List (Text × Nat))

/-- `postings.json`. -/
structure PostingsFile where
  version : Int
  builtAt : Text
  postings : Postings

/-- `_build_postings`. -/
def buildPostings (index : Index) : PostingsFile :=
  ⟨1, index.builtAt, postings (documents lower index)⟩

/-- `_load_postings`: a file of another version or of another build is not used. -/
def loadPostings (file : Option PostingsFile) (index : Index) : Option Postings :=
  (file.filter fun f => f.version = 1 && f.builtAt = index.builtAt).map PostingsFile.postings

theorem loadPostings_buildPostings (index : Index) :
    loadPostings (some (buildPostings lower index)) index =
      some (postings (documents lower index)) := by
  simp [loadPostings, buildPostings]

/-! ## Documents -/

/-- An entry of the corpus. -/
structure Doc where
  item : Item
  text : Text
  textLower : Text
  /-- `termCounts.get(term, 0)`; a term is in `termCounts` where this is not zero -/
  tf : Text → Nat
  tokenLen : Nat

def Doc.id (doc : Doc) : Text := itemId doc.item

/-- An entry by the counts of its terms and their total. -/
def corpusDoc (item : Item) (counts : Dict Text Nat) (tokenLen : Nat) : Doc where
  item := item
  text := recordText item
  textLower := lower (recordText item)
  tf := fun term => (counts.get term).getD 0
  tokenLen := tokenLen

/-- The entries, from the postings where there are some. -/
def docs (index : Index) : Option Postings → List Doc
  | some precomputed =>
    let postingsById := byDocument precomputed
    (items index).map fun item =>
      let counts := (postingsById.get (itemId item)).getD Dict.empty
      corpusDoc lower item counts (total counts)
  | none =>
    (items index).map fun item =>
      let tokens := tokenize lower (recordText item)
      corpusDoc lower item (countTerms tokens) tokens.length

structure Corpus (K : Type) where
  docs : List Doc
  docCount : Nat
  avgLen : K

/-- `_prepare_corpus`. -/
def prepareCorpus {K : Type} [Field K] (index : Index) (precomputed : Option Postings) :
    Corpus K :=
  let corpus := docs lower index precomputed
  let docCount := max 1 corpus.length
  let length : Nat := (corpus.map Doc.tokenLen).foldl (· + ·) 0
  ⟨corpus, docCount, if corpus = [] then 1 else (length : K) / docCount⟩

/-- The number of documents with a term. -/
def docFreq (precomputed : Option Postings) (corpus : List Doc) (term : Text) : Nat :=
  match precomputed with
  | some p => ((p.get term).getD []).length
  | none => corpus.countP fun doc => doc.tf term ≠ 0

end

/-! ## The two corpora -/

section
variable {lower : Text → Text}

theorem mem_documents {index : Index} {item : Item} (h : item ∈ items index) :
    (itemId item, termCounts lower item) ∈ documents lower index :=
  List.mem_map.mpr ⟨item, h, rfl⟩

theorem ids_documents (index : Index) :
    (documents lower index).map Prod.fst = (items index).map itemId := by
  unfold documents
  rw [List.map_map]
  rfl

/-- Counts read back from the postings are the counts of the text. -/
theorem get_postingsById {index : Index} (hids : ((items index).map itemId).Nodup) {item : Item}
    (hitem : item ∈ items index) (term : Text) :
    (((byDocument (postings (documents lower index))).get (itemId item)).getD Dict.empty).get term =
      (termCounts lower item).get term := by
  rw [← @ids_documents lower] at hids
  exact get_byDocument _ hids _ (mem_documents hitem) term

theorem docs_buildPostings (index : Index) (hids : ((items index).map itemId).Nodup) :
    docs lower index (some (postings (documents lower index))) = docs lower index none := by
  refine List.map_congr_left fun item hitem => ?_
  have hget := @get_postingsById lower _ hids _ hitem
  have htotal := total_congr hget
  rw [termCounts, total_countTerms] at htotal
  simp only [corpusDoc, htotal, hget]
  rfl

/-- Precomputed postings give the corpus that reading the texts gives. -/
theorem prepareCorpus_buildPostings {K : Type} [Field K] (index : Index)
    (hids : ((items index).map itemId).Nodup) :
    prepareCorpus (K := K) lower index (some (postings (documents lower index))) =
      prepareCorpus lower index none := by
  unfold prepareCorpus
  rw [docs_buildPostings index hids]

theorem tf_ne_zero_iff (item : Item) (term : Text) :
    ((termCounts lower item).get term).getD 0 ≠ 0 ↔ ((termCounts lower item).get term).isSome := by
  cases hget : (termCounts lower item).get term with
  | none => simp
  | some n =>
    have hpos := countTerms_pos _ term n hget
    simp [hpos.ne']

/-- A term's list is as long as there are documents with the term. -/
theorem docFreq_buildPostings (index : Index) (term : Text) :
    docFreq (some (postings (documents lower index))) (docs lower index none) term =
      docFreq none (docs lower index none) term := by
  show (((postings (documents lower index)).get term).getD []).length =
    (docs lower index none).countP fun doc => doc.tf term ≠ 0
  rw [length_postings]
  show ((items index).map _).countP _ = ((items index).map _).countP _
  rw [List.countP_map, List.countP_map]
  refine List.countP_congr fun item _ => ?_
  have h := @tf_ne_zero_iff lower item term
  simpa [corpusDoc, termCounts] using h.symm

/-- The ids in a term's list are those of the documents with the term. -/
theorem mem_postings_iff (index : Index) (term id : Text) :
    id ∈ (((postings (documents lower index)).get term).getD []).map Prod.fst ↔
      ∃ doc ∈ docs lower index none, doc.id = id ∧ doc.tf term ≠ 0 := by
  rw [List.mem_map]
  constructor
  · rintro ⟨⟨_, n⟩, hmem, rfl⟩
    obtain ⟨d, hd, hid, hget⟩ := (mem_postings _ _ _ _).mp hmem
    obtain ⟨item, hitem, rfl⟩ := List.mem_map.mp hd
    refine ⟨_, List.mem_map.mpr ⟨item, hitem, rfl⟩, hid, ?_⟩
    exact (tf_ne_zero_iff item term).mpr (by rw [hget]; rfl)
  · rintro ⟨doc, hdoc, rfl, htf⟩
    obtain ⟨item, hitem, rfl⟩ := List.mem_map.mp hdoc
    obtain ⟨n, hget⟩ := Option.isSome_iff_exists.mp ((tf_ne_zero_iff item term).mp htf)
    exact ⟨(itemId item, n), (mem_postings _ _ _ _).mpr ⟨_, mem_documents hitem, rfl, hget⟩, rfl⟩

end

end Agentrail.Retrieval
