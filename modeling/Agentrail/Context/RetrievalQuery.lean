import Mathlib.Algebra.Order.Field.Basic
import Mathlib.Data.List.Sort
import Agentrail.Context.RetrievalCorpus

/-!
# Scored results (`query_context` of `context/retrieval.py`)

A query is taken apart into its terms, references, phrases and definition patterns;
the corpus adds the lesson targets and the graph expansion (`plan`).  `scoreDoc` scores
one entry of the corpus, `rankResults` turns the scored entries into the ordered results.

`candidateIds` is the filter that precomputed postings allow: by hand it lists again what
can give an entry a score, and `scanned` leaves all other entries out.

Embeddings are inactive: every semantic part of a score is zero.  Scores are numbers of an
ordered field `K`, in which the code's decimals are exact; `log` is a parameter.
-/

namespace Agentrail.Retrieval

open Py Regex InvertedIndex

/-! ## What a query is answered with -/

structure Anchor where
  kind : Text
  value : Text
  deriving DecidableEq

/-- What the code graph adds: sources, paths and chunks. -/
structure Expansion where
  sourceIds : List Text := []
  paths : List Text := []
  chunkIds : List Text := []
  deriving DecidableEq

/-- The functions of the language and of the modules around, at the repository and index at hand. -/
structure Host (K : Type) where
  /-- `str.lower` -/
  lower : Text → Text
  /-- `str.isalnum` -/
  isAlnum : Char → Bool
  /-- `math.log` -/
  log : K → K
  /-- `round(x, 6)` -/
  round6 : K → K
  /-- `expand_query_tokens` -/
  expandQueryTokens : Text → List Text → List Text
  /-- the retrieval mode of `classify_query` is one of the exact ones -/
  exactMode : Text → Bool
  /-- `extract_anchors` of a memory's text -/
  memoryAnchors : Text → List Anchor
  /-- the path anchors of the query -/
  anchorPaths : Text → List Text
  /-- `graph_expansion_for_query` from the seeds, under its policy -/
  graphExpansion : Text → List Text → Expansion
  /-- `cross_file_imported_symbols` of the seeds -/
  crossFileImportedSymbols : List Text → List Text

/-- The state of the repository that a query reads besides the index. -/
structure Root where
  /-- the active issue of `state.json` -/
  activeIssue : Option Int := none
  /-- the stale pages of `wiki_status` -/
  staleWikiPaths : List Text := []
  /-- the time of the query, in microseconds -/
  now : Int := 0
  /-- `query_expansion_enabled()` -/
  queryExpansion : Bool := false
  postingsFile : Option PostingsFile := none

section
variable {K : Type} [Field K] [LinearOrder K] (host : Host K) (root : Root)

/-! ## The query's own parts -/

/-- A literal text in a pattern. -/
def literal (t : Text) : Re := .lit (fun c d => c = d) t

def textPattern (s : String) : Re := literal s.toList

def wordChar : Re := .cls fun c => host.isAlnum c || c = '_'

/-- `unique`. -/
def unique (values : List Text) : List Text :=
  values.foldl (fun result value => if result.contains value then result else result ++ [value]) []

/-- `sorted` of a set of numbers. -/
def sortedRefs (refs : List Nat) : List Int := (refs.dedup.insertionSort (· ≤ ·)).map Int.ofNat

/-- The numbers that group 1 of a pattern captures. -/
def capturedRefs (r : Re) (text : Text) : List Nat :=
  (findAll r text).map fun m => intOfDecimal (m.groupText 1)

/-- `(\d+)\b`. -/
def numberGroup : Re := .seq (.group 1 (.plus true (.cls isDecimal))) (wordBoundary host.isAlnum)

/-- `(?:^|\b)(?:pr|pull\s+request)\s*$` under `re.I`. -/
def prPrefix : Re :=
  Re.cat
    [ .alt (.assert fun before _ => before.isEmpty) (wordBoundary host.isAlnum),
      .alt (word "pr") (Re.cat [word "pull", .plus true space, word "request"]),
      .star true space,
      .assert fun _ after => after.isEmpty || after = ['\n'] ]

/-- `issue_refs`. -/
def issueRefs (text : Text) : List Int :=
  let hash := Re.cat
    [ .alt (.assert fun before _ => before.isEmpty) (.cls fun c => !c.isAlpha),
      .cls (· = '#'), numberGroup host ]
  let cited := (findAll hash text).filter fun m =>
    !test (prPrefix host) (m.before.drop ((m.groupText 1).length + 1)).reverse
  let links := .seq (textPattern "/issues/") (numberGroup host)
  sortedRefs ((cited.map fun m => intOfDecimal (m.groupText 1)) ++ capturedRefs links text)

/-- `pr_refs`. -/
def prRefs (text : Text) : List Int :=
  let number := Re.cat [.star true space, .opt true (.cls (· = '#')), numberGroup host]
  let b := wordBoundary host.isAlnum
  sortedRefs
    (capturedRefs (.seq (textPattern "/pull/") (numberGroup host)) text ++
      capturedRefs (Re.cat [b, word "pr", number]) text ++
      capturedRefs (Re.cat [b, word "pull", .plus true space, word "request", number]) text)

/-- The issues that count as referenced. -/
def effectiveIssueRefs (query : Text) : List Int :=
  let refs := issueRefs host query
  if refs ≠ [] then refs
  else if prRefs host query ≠ [] then []
  else root.activeIssue.toList

/-- The token without the punctuation around it, and what follows its last dot. -/
def symbolsOf (token : Text) : List Text :=
  let plain := fun c : Char => c.isLower || c.isDigit
  let stripped := (((token.dropWhile (!plain ·)).reverse).dropWhile (!plain ·)).reverse
  let tail := (rpartition token ['.']).2.2
  (if stripped = [] then [] else [stripped]) ++
    (if token.contains '.' && tail ≠ [] then [tail] else [])

/-- Definition sites of symbols, and the terms that a chunk needs before they are tried. -/
structure Definitions where
  patterns : List Re := []
  symbols : List Text := []
  useHint : Bool := true

/-- The places that define a symbol. -/
def definitionSites (sym : Text) : List Re :=
  let b := wordBoundary host.isAlnum
  let assignment := .seq (.star true space) (.cls fun c => c = ':' || c = '=')
  let async := .opt true (.seq (textPattern "async") (.star true space))
  [ Re.cat [b, textPattern "function", .plus true space, literal sym, b],
    Re.cat [b, literal sym, assignment, .star true space, async,
      .alt (textPattern "function") (.cls (· = '('))],
    Re.cat [b, .alt (textPattern "def") (textPattern "class"), .plus true space, literal sym, b] ]

/-- A symbol of at least four characters and its definition sites. -/
def Definitions.add (d : Definitions) (sym : Text) : Definitions :=
  if sym.length < 4 then d
  else { d with
    patterns := d.patterns ++ definitionSites host sym
    symbols := d.symbols ++ [sym] }

/-- `[a-z_$][\w$]*\.[a-z_$][\w$]*` for the whole text. -/
def isDottedMember (t : Text) : Bool :=
  let head := Re.cls fun c => c.isLower || c = '_' || c = '$'
  let rest := Re.star true (.cls fun c => host.isAlnum c || c = '_' || c = '$')
  let dotted := Re.cat [head, rest, .cls (· = '.'), head, rest, endOfText]
  (dotted.run ⟨[], t, []⟩ some).isSome

/-- The definition patterns of the query. -/
def queryDefinitions (query : Text) (querySymbols : List Text) : Definitions :=
  let rawLower := host.lower (strip query)
  if isDottedMember host rawLower then
    { patterns := [Re.cat [literal rawLower, .star true space, .cls fun c => c = ':' || c = '=']]
      symbols := [(rpartition rawLower ['.']).2.2]
      useHint := false }
  else querySymbols.foldl (Definitions.add host) {}

/-- `[a-z0-9_-]+(?:\s+[a-z0-9_-]+){1,4}`. -/
def phrasePattern : Re :=
  let run := .plus true (lowerOr "_-")
  .seq run (.rep (.seq (.plus true space) run) 1 4)

/-! ## Lessons and seeds -/

/-- The weight of a term in an entry. -/
def bm25Term (docCount : Nat) (avgLen : K) (df : Nat) (doc : Doc) (token : Text) : K :=
  let tf : K := doc.tf token
  let idf := host.log (1 + ((docCount : K) - df + 1 / 2) / (df + 1 / 2))
  idf * ((tf * (22 / 10)) / (tf + 12 / 10 * (1 - 3 / 4 + 3 / 4 * (doc.tokenLen / avgLen))))

/-- The weights of the terms that an entry has. -/
def bm25Score (corpus : Corpus K) (df : Text → Nat) (queryTokens : List Text) (doc : Doc) : K :=
  queryTokens.foldl (fun score token =>
    if doc.tf token = 0 then score
    else score + bm25Term host corpus.docCount corpus.avgLen (df token) doc token) 0

/-- `_pre_bm25_scores`. -/
def preBm25Scores (corpus : Corpus K) (df : Text → Nat) (queryTokens : List Text) : Dict Text K :=
  Dict.ofItems (corpus.docs.map fun doc => (doc.id, bm25Score host corpus df queryTokens doc))

/-- `sorted(…, key=…, reverse=True)`: equal ones keep their order. -/
def sortedDesc {α : Type} (key : α → K) (xs : List α) : List α :=
  xs.insertionSort fun a b => key b ≤ key a

/-- `_extract_retrieval_seeds`. -/
def extractRetrievalSeeds (corpus : Corpus K) (preBm25 : Dict Text K) : List Text :=
  let docById := Dict.ofItems (corpus.docs.map fun doc => (doc.id, doc))
  let ranked := sortedDesc Prod.snd preBm25.items
  match ranked.head? with
  | none => []
  | some top =>
    if top.2 ≤ 0 then []
    else
      (ranked.takeWhile fun entry => top.2 * (1 / 2) ≤ entry.2).foldl (fun seeds entry =>
        match (docById.get entry.1).bind fun doc => doc.item.1.path with
        | none => seeds
        | some path =>
          if seeds.length ≥ 5 || path = [] || seeds.contains path then seeds else seeds ++ [path]) []

/-- `score_authority`. -/
def scoreAuthority (record : SourceRecord) : K :=
  if record.authority = "critical".toList then 45 / 100
  else if record.authority = "high".toList then 3 / 10
  else 0

/-- `authority_demotion`. -/
def authorityDemotion (record : SourceRecord) : K :=
  if record.authority = "low".toList then 45 / 100
  else if record.authority = "denied".toList then 999
  else if record.authority = "generated".toList then 2 / 10
  else 0

/-- Half a year, in microseconds. -/
def staleAge : Int := 180 * 24 * 60 * 60 * 1000000

/-- `memory_freshness`. -/
def memoryFreshness (now : Int) (memory : Option Memory) : K × List Text :=
  match memory with
  | none => (0, [])
  | some m =>
    let expired := m.expiresAt.any (· < now)
    let stale := m.createdAt.any (· < now - staleAge)
    let low := host.lower m.confidence = "low".toList
    ((if expired then 3 / 2 else 0) + (if stale then 4 / 10 else 0) + (if low then 1 / 4 else 0),
      (if expired then ["expired memory".toList] else []) ++
        (if stale then ["stale memory".toList] else []) ++
        (if low then ["low-confidence memory".toList] else []))

/-- `wiki_page_freshness`. -/
def wikiPageFreshness (record : SourceRecord) (staleWikiPaths : List Text) : K × List Text :=
  if record.sourceType = "wiki_doc".toList &&
      staleWikiPaths.contains (record.path.getD "None".toList) then
    (3 / 2, ["stale wiki page".toList])
  else (0, [])

/-- `freshness_demotion`. -/
def freshnessDemotion (now : Int) (item : Item) (staleWikiPaths : List Text) : K × List Text :=
  let status := host.lower item.1.freshness
  let own : K × List Text :=
    if status = "expired".toList then (3 / 2, ["expired source".toList])
    else if status = "stale".toList then (3 / 4, ["stale source".toList])
    else if status = "unknown".toList then (15 / 100, ["unknown freshness".toList])
    else (0, [])
  let memory := memoryFreshness host now (memoryOf item)
  let wiki := wikiPageFreshness item.1 staleWikiPaths
  (own.1 + memory.1 + wiki.1, own.2 ++ memory.2 ++ wiki.2)

/-- `prior_mistake_demotion`. -/
def priorMistakeDemotion (priorMistake : Option PriorMistake) (issues : List Int) :
    K × List Text :=
  match priorMistake with
  | none => (0, [])
  | some p =>
    let status := host.lower p.status
    if p.issue.any issues.contains then (0, [])
    else if ["stale".toList, "expired".toList].contains status then
      (5 / 4, ["stale prior mistake".toList])
    else if ["resolved".toList, "closed".toList, "done".toList, "fixed".toList,
        "merged".toList].contains status then
      (3 / 2, ["resolved prior mistake".toList])
    else if p.issue.isSome then (2, ["unrelated prior mistake".toList])
    else (0, [])

def isDenied (record : SourceRecord) : Bool :=
  record.authority = "denied".toList || record.visibility = "denied".toList

/-- The records that a lesson may point to. -/
def eligiblePaths (index : Index) : List Text :=
  (index.records.filter fun record =>
    record.sourceType ≠ "memory".toList && !isDenied record &&
      host.lower record.freshness = "current".toList).filterMap fun record =>
    record.path.filter (· ≠ [])

/-- The first eligible path at or below an anchor, unless it is there already. -/
def addTarget (eligible : List Text) (targets : List Text) (anchor : Anchor) : List Text :=
  let anchorPath := strip ((partitionAt "::".toList anchor.value).elim anchor.value Prod.fst)
  let stem := (anchorPath.reverse.dropWhile (· = '/')).reverse
  if targets.length ≥ 8 || !(["path".toList, "test".toList].contains anchor.kind) ||
      anchorPath = [] then targets
  else
    match eligible.find? fun path =>
      path = anchorPath || (stem ≠ [] && (stem ++ ['/']).isPrefixOf path) with
    | none => targets
    | some path => if targets.contains path then targets else targets ++ [path]

/-- The target paths of `_lesson_target_hints`. -/
def lessonTargetPaths (index : Index) (corpus : Corpus K) (preBm25 : Dict Text K)
    (issues prs : List Int) : List Text :=
  let eligible := eligiblePaths host index
  let relevance := fun doc : Doc => (preBm25.get doc.id).getD 0
  let lessons := corpus.docs.filter fun doc =>
    let source := doc.item.1
    source.sourceType = "memory".toList && !isDenied source &&
      (freshnessDemotion host root.now doc.item []).1 ≤ 0 &&
      host.lower ((memoryOf doc.item).elim [] Memory.confidence) ≠ "low".toList &&
      (0 < relevance doc || issues.any source.linkedIssues.contains ||
        prs.any source.linkedPullRequests.contains)
  if eligible = [] then []
  else
    (((sortedDesc relevance lessons).take 5).flatMap fun doc => host.memoryAnchors doc.text).foldl
      (addTarget eligible) []

/-! ## The plan of a query -/

/-- What is known before entries are scored. -/
structure Plan (K : Type) where
  queryTokens : List Text
  querySymbols : List Text
  definitions : Definitions
  queryLower : Text
  phrases : List Text
  issues : List Int
  prs : List Int
  lessonTargets : List Text
  graph : Expansion
  exactMode : Bool
  docFreq : Text → Nat

/-- An imported symbol joins the query. -/
def injectSymbol (p : Plan K) (name : Text) : Plan K :=
  let token := host.lower name
  { p with
    queryTokens := if p.queryTokens.contains token then p.queryTokens else p.queryTokens ++ [token]
    querySymbols := p.querySymbols ++ [token]
    definitions :=
      if p.definitions.symbols.contains token then p.definitions
      else p.definitions.add host token }

/-- The part of `query_context` before its candidate filter; `injectSymbols` is its argument. -/
def plan (index : Index) (corpus : Corpus K) (df : Text → Nat) (query : Text)
    (injectSymbols : Bool) : Plan K :=
  let ownTokens := unique (tokenize host.lower query)
  let queryTokens :=
    if root.queryExpansion then unique (host.expandQueryTokens query ownTokens) else ownTokens
  let querySymbols := queryTokens.flatMap symbolsOf
  let issues := effectiveIssueRefs host root query
  let prs := prRefs host query
  let preBm25 := preBm25Scores host corpus df queryTokens
  let lessonTargets := lessonTargetPaths host root index corpus preBm25 issues prs
  let seeds := if lessonTargets = [] then extractRetrievalSeeds corpus preBm25 else lessonTargets
  let start : Plan K :=
    { queryTokens, querySymbols, issues, prs, lessonTargets
      definitions := queryDefinitions host query querySymbols
      queryLower := host.lower query
      phrases := findTexts phrasePattern (host.lower query)
      graph := host.graphExpansion query seeds
      exactMode := host.exactMode query
      docFreq := df }
  if injectSymbols then
    (host.crossFileImportedSymbols (unique (seeds ++ host.anchorPaths query))).foldl
      (injectSymbol host) start
  else start

end

/-! ## What gives an entry a score -/

section
variable {K : Type} (p : Plan K) (root : Root) (doc : Doc)

def lessonTarget : Bool := p.lessonTargets.contains (doc.item.1.path.getD [])

def graphExpanded : Bool :=
  p.graph.sourceIds.contains (doc.item.1.id.getD []) ||
    p.graph.paths.contains (doc.item.1.path.getD []) ||
    p.graph.chunkIds.contains (chunkField doc.item.2 ChunkRecord.id [])

def linkedIssue : Bool := p.issues.any doc.item.1.linkedIssues.contains

def linkedPr : Bool := p.prs.any doc.item.1.linkedPullRequests.contains

/-- The workflow state, when its active issue is the one asked about. -/
def activeState : Bool :=
  doc.item.1.path = some ".agentrail/state.json".toList && root.activeIssue.any p.issues.contains

/-- `t in text`. -/
def textContains (text t : Text) : Bool := t <:+: text

def sameIssue : Bool :=
  doc.item.1.sourceType = "run_artifact".toList && p.issues.any fun n =>
    textContains doc.textLower ("issue-".toList ++ intText n) ||
      textContains doc.textLower ("\"issue\": ".toList ++ intText n) ||
      textContains doc.textLower ("targetissue\": ".toList ++ intText n)

def requiredContext : Bool :=
  ["context_doc".toList, "taste_doc".toList].contains doc.item.1.sourceType &&
    (textContains p.queryLower "context".toList || textContains p.queryLower "taste".toList ||
      textContains p.queryLower "required".toList)

def definesByHint (host : Host K) : Bool :=
  p.definitions.useHint && p.querySymbols ≠ [] &&
    (chunkField doc.item.2 ChunkRecord.symbolHints []).any fun hint =>
      p.querySymbols.contains (host.lower hint)

def citesIssue (n : Int) : Bool :=
  textContains doc.textLower ('#' :: intText n) ||
    textContains doc.textLower ("/issues/".toList ++ intText n)

def citesPr (n : Int) : Bool :=
  textContains doc.textLower ("/pull/".toList ++ intText n) ||
    textContains doc.textLower ("pr #".toList ++ intText n)

def exactPath (token : Text) : Bool := token.contains '/' && textContains doc.textLower token

def exactPhrase (phrase : Text) : Bool := 8 < phrase.length && textContains doc.textLower phrase

def definesByPattern : Bool :=
  p.definitions.symbols.any (doc.tf · ≠ 0) && p.definitions.patterns.any (test · doc.textLower)

end

section
variable {K : Type} [Field K] [LinearOrder K] (host : Host K) (root : Root)

/-! ## The candidate filter -/

/-- The terms that are looked up. -/
def termLookup (p : Plan K) : List Text := p.queryTokens ++ (p.issues ++ p.prs).map intText

/-- The metadata pass over the corpus. -/
def metadataPass (p : Plan K) (doc : Doc) : Bool :=
  lessonTarget p doc || graphExpanded p doc || linkedIssue p doc || linkedPr p doc ||
    activeState p root doc || sameIssue p doc || requiredContext p doc ||
    definesByHint p doc host || p.issues.any (citesIssue doc) || p.prs.any (citesPr doc)

/-- `candidate_ids`. -/
def candidateIds (p : Plan K) (precomputed : Postings) (corpus : List Doc) : List Text :=
  ((termLookup p).flatMap fun term => ((precomputed.get term).getD []).map Prod.fst) ++
    (corpus.filter (metadataPass host root p)).map Doc.id

/-- The entries that are scored. -/
def scanned (p : Plan K) (precomputed : Option Postings) (corpus : List Doc) : List Doc :=
  match precomputed with
  | none => corpus
  | some postings =>
    let candidates := candidateIds host root p postings corpus
    corpus.filter fun doc => candidates.contains doc.id

/-! ## Scoring -/

structure Score (K : Type) where
  deterministic : K
  keyword : K
  bm25 : K
  lexicalScore : K
  rrf : K
  fusedScore : K
  lessonTargetBoost : K
  authorityBoost : K
  authorityDemotion : K
  freshnessDemotion : K
  priorMistakeDemotion : K
  relevance : K
  final : K
  deriving DecidableEq

structure Entry (K : Type) where
  item : Item
  reasons : List Text
  definitionTier : Nat
  score : Score K
  deriving DecidableEq

def Entry.id (e : Entry K) : Text := itemId e.item

/-- `if condition: score += amount`. -/
def bonus (condition : Bool) (amount : K) : K := if condition then amount else 0

/-- `for x in xs: if condition(x): score += amount`. -/
def bonusEach {α : Type} (xs : List α) (condition : α → Bool) (amount : K) : K :=
  xs.foldl (fun score x => if condition x then score + amount else score) 0

def because (condition : Bool) (reason : String) : List Text :=
  if condition then [reason.toList] else []

def isDefinition (p : Plan K) (doc : Doc) : Bool := definesByPattern p doc || definesByHint p doc host

def deterministicScore (p : Plan K) (doc : Doc) : K :=
  bonus (activeState p root doc) 4 + bonus (sameIssue p doc) (7 / 2) + bonus (linkedIssue p doc) 3 +
    bonus (linkedPr p doc) (5 / 2) + bonus (requiredContext p doc) 2 +
    bonus (lessonTarget p doc) 3 + bonus (graphExpanded p doc) (7 / 4) +
    bonus (isDefinition host p doc) (5 / 2)

def keywordScore (p : Plan K) (doc : Doc) : K :=
  bonusEach p.issues (citesIssue doc) 2 + bonusEach p.prs (citesPr doc) (3 / 2) +
    bonusEach p.queryTokens (exactPath doc) (3 / 2) + bonusEach p.phrases (exactPhrase doc) 1

/-- One round of the scoring loop; `rrf`, `relevance` and `final` come later. -/
def scoreDoc (corpus : Corpus K) (p : Plan K) (doc : Doc) : Entry K :=
  let source := doc.item.1
  let deterministic := deterministicScore host root p doc
  let keyword := keywordScore p doc
  let bm25 := bm25Score host corpus p.docFreq p.queryTokens doc
  let penalty : K := authorityDemotion source
  let freshness := freshnessDemotion host root.now doc.item root.staleWikiPaths
  let priorMistake := priorMistakeDemotion host (priorMistakeOf doc.item) p.issues
  { item := doc.item
    reasons :=
      because (activeState p root doc) "active workflow state" ++
        because (activeState p root doc || requiredContext p doc) "deterministic required context" ++
        because (sameIssue p doc) "same issue prior failure" ++
        because (linkedIssue p doc) "linked issue" ++
        because (linkedPr p doc) "linked pull request" ++
        because (lessonTarget p doc) "lesson target" ++
        because (graphExpanded p doc) "graph expansion" ++
        because (p.issues.any (citesIssue doc) || p.prs.any (citesPr doc) ||
          p.phrases.any (exactPhrase doc)) "exact identifier" ++
        because (p.queryTokens.any (exactPath doc)) "exact path" ++
        because (isDefinition host p doc) "symbol definition" ++
        because (0 < bm25) "BM25 keyword match" ++
        because (0 < (scoreAuthority source : K)) "high authority source" ++
        because (0 < penalty && penalty < 999)
          (if source.authority = "generated".toList then "generated source"
            else "low authority source") ++
        freshness.2 ++ priorMistake.2 ++
        because (priorMistakeOf doc.item).isSome "prior mistake" ++
        because ((memoryOf doc.item).isSome && freshness.1 = 0) "current memory"
    definitionTier := if isDefinition host p doc && p.exactMode then 1 else 0
    score :=
      { deterministic, keyword, bm25
        lexicalScore := keyword + bm25
        rrf := 0
        fusedScore := 0
        lessonTargetBoost := bonus (lessonTarget p doc) 3
        authorityBoost := scoreAuthority source
        authorityDemotion := if 999 ≤ penalty then 0 else penalty
        freshnessDemotion := freshness.1
        priorMistakeDemotion := priorMistake.1
        relevance := 0
        final := 0 } }

/-! ## Ranking -/

def Entry.lexical (e : Entry K) : K := e.score.deterministic + e.score.keyword + e.score.bm25

/-- `lexical_raw`. -/
def lexicalRaw (scored : List (Entry K)) : Dict Text K :=
  Dict.ofItems (scored.map fun e => (e.id, e.lexical))

/-- `lexical_raw[id]`. -/
def rawOf (scored : List (Entry K)) (e : Entry K) : K := ((lexicalRaw scored).get e.id).getD 0

/-- `lexical_rank`. -/
def lexicalRank (scored : List (Entry K)) : Dict Text Nat :=
  let ranked := sortedDesc (rawOf scored) (scored.filter fun e => 0 < rawOf scored e)
  Dict.ofItems (ranked.zipIdx.map fun entry => (entry.1.id, entry.2 + 1))

/-- `reciprocal_rank`. -/
def reciprocalRank (rank : Nat) : K := if 0 < rank then 1 / (60 + (rank : K)) else 0

def rrfOf (scored : List (Entry K)) (e : Entry K) : K :=
  reciprocalRank (((lexicalRank scored).get e.id).getD 0)

/-- The relevance of an entry among the scored ones. -/
def relevanceOf (scored : List (Entry K)) (e : Entry K) : K :=
  rawOf scored e + rrfOf scored e * 10

/-- The entry with its fused score, relevance and final score. -/
def finish (scored : List (Entry K)) (e : Entry K) : Entry K :=
  let relevance := relevanceOf scored e
  { e with score := { e.score with
      rrf := rrfOf scored e
      fusedScore := rrfOf scored e
      relevance := host.round6 relevance
      final := relevance + e.score.authorityBoost - e.score.authorityDemotion -
        e.score.freshnessDemotion - e.score.priorMistakeDemotion } }

/-- Definitions first, then by final score, then by citation. -/
def resultLe (a b : Entry K) : Prop :=
  b.definitionTier < a.definitionTier ∨ a.definitionTier = b.definitionTier ∧
    (b.score.final < a.score.final ∨ a.score.final = b.score.final ∧
      citationOf a.item ≤ citationOf b.item)

instance (a b : Entry K) : Decidable (resultLe a b) := by
  unfold resultLe
  infer_instance

/-- The ordered results: no denied source, nothing irrelevant. -/
def rankResults (scored : List (Entry K)) : List (Entry K) :=
  (((scored.filter fun e => !isDenied e.item.1).filter fun e => 0 < relevanceOf scored e).map
    (finish host scored)).filter (fun e => 0 < e.score.final) |>.insertionSort resultLe

/-! ## `query_context` -/

/-- What a query computed up to its ordered results. -/
structure Answer (K : Type) where
  candidateIds : Option (List Text)
  scored : List (Entry K)
  results : List (Entry K)

/-- `query_context` as far as its scored results. -/
def queryContext (index : Index) (query : Text) (injectSymbols : Bool) : Answer K :=
  let precomputed := loadPostings root.postingsFile index
  let corpus : Corpus K := prepareCorpus host.lower index precomputed
  let df := docFreq precomputed corpus.docs
  let p := plan host root index corpus df query injectSymbols
  let scored := (scanned host root p precomputed corpus.docs).map (scoreDoc host root corpus p)
  { candidateIds := precomputed.map fun postings => candidateIds host root p postings corpus.docs
    scored := scored
    results := rankResults host scored }

end

end Agentrail.Retrieval
