import Mathlib.Algebra.Order.Field.Rat
import Mathlib.Tactic.Positivity
import Mathlib.Tactic.Ring
import Agentrail.Context.RetrievalQuery

/-!
# The fast path of retrieval

With postings, `query_context` scores the candidates only.  `rankResults_filter`: entries
without a lexical score can be left out.  `lexical_eq_zero_iff`: an entry that is no
candidate has such a score exactly if it holds a path or a phrase of the query, or a place
that defines one of its symbols, without having one of the query's terms.

`fastPath_iff`: the fast path has the results of the full scan, and what it leaves out is
irrelevant, exactly if there is no such entry.
-/

namespace Agentrail.Retrieval

open Py Regex InvertedIndex

section
variable {K : Type} [Field K] [LinearOrder K] [IsStrictOrderedRing K]
variable (host : Host K) (root : Root)

/-! ## Accumulators -/

omit [LinearOrder K] [IsStrictOrderedRing K] in
theorem bonusEach_eq {α : Type} (xs : List α) (condition : α → Bool) (amount : K) :
    bonusEach xs condition amount = xs.countP condition * amount := by
  have hfold : ∀ start : K,
      xs.foldl (fun score x => if condition x then score + amount else score) start =
        start + xs.countP condition * amount := by
    induction xs with
    | nil =>
      intro start
      simp
    | cons x xs ih =>
      intro start
      rw [List.foldl_cons, ih]
      cases hx : condition x with
      | false => simp [hx]
      | true =>
        simp only [if_true, List.countP_cons, hx]
        push_cast
        ring
  rw [bonusEach, hfold, zero_add]

theorem bonusEach_nonneg {α : Type} (xs : List α) (condition : α → Bool) (amount : K)
    (h : 0 ≤ amount) : 0 ≤ bonusEach xs condition amount := by
  rw [bonusEach_eq]
  exact mul_nonneg (Nat.cast_nonneg _) h

theorem bonusEach_eq_zero_iff {α : Type} (xs : List α) (condition : α → Bool) (amount : K)
    (h : 0 < amount) : bonusEach xs condition amount = 0 ↔ xs.any condition = false := by
  rw [bonusEach_eq, mul_eq_zero, or_iff_left h.ne', Nat.cast_eq_zero, List.countP_eq_zero]
  simp

omit [IsStrictOrderedRing K] [LinearOrder K] in
theorem bonus_false (amount : K) : bonus false amount = 0 := rfl

omit [IsStrictOrderedRing K] in
theorem bonus_nonneg (condition : Bool) (amount : K) (h : 0 ≤ amount) :
    0 ≤ bonus condition amount := by
  cases condition with
  | false => exact le_refl _
  | true => exact h

omit [IsStrictOrderedRing K] in
theorem bonus_eq_zero_iff (condition : Bool) (amount : K) (h : 0 < amount) :
    bonus condition amount = 0 ↔ condition = false := by
  cases condition with
  | false => exact ⟨fun _ => rfl, fun _ => rfl⟩
  | true => exact ⟨fun hz => absurd hz h.ne', fun hf => Bool.noConfusion hf⟩

omit [IsStrictOrderedRing K] [LinearOrder K] in
theorem bm25Score_eq_zero (corpus : Corpus K) (df : Text → Nat) (queryTokens : List Text)
    (doc : Doc) (h : ∀ token ∈ queryTokens, doc.tf token = 0) :
    bm25Score host corpus df queryTokens doc = 0 := by
  unfold bm25Score
  induction queryTokens with
  | nil => rfl
  | cons token tokens ih =>
    rw [List.foldl_cons, if_pos (h token List.mem_cons_self)]
    exact ih fun t ht => h t (List.mem_cons_of_mem _ ht)

/-! ## What the filter keeps and what it misses -/

/-- The entry has a term that is looked up, or the metadata pass names it. -/
def Anchored (p : Plan K) (doc : Doc) : Prop :=
  (∃ term ∈ termLookup p, doc.tf term ≠ 0) ∨ metadataPass host root p doc = true

/-- The text holds a path or a phrase of the query, or a place that defines one of its symbols. -/
def TextMatch (p : Plan K) (doc : Doc) : Prop :=
  p.queryTokens.any (exactPath doc) = true ∨ p.phrases.any (exactPhrase doc) = true ∨
    definesByPattern p doc = true

variable {host root} {corpus : Corpus K} {p : Plan K} {doc : Doc}

omit [LinearOrder K] [IsStrictOrderedRing K] [Field K] in
/-- What the metadata pass does not name has none of the marks that are scored. -/
theorem marks_of_metadataPass (h : metadataPass host root p doc = false) :
    (lessonTarget p doc = false ∧ graphExpanded p doc = false ∧ linkedIssue p doc = false ∧
      linkedPr p doc = false ∧ activeState p root doc = false ∧ sameIssue p doc = false) ∧
    requiredContext p doc = false ∧ definesByHint p doc host = false ∧
      p.issues.any (citesIssue doc) = false ∧ p.prs.any (citesPr doc) = false := by
  unfold metadataPass at h
  simp only [Bool.or_eq_false_iff] at h
  obtain ⟨⟨⟨⟨⟨⟨⟨⟨⟨h1, h2⟩, h3⟩, h4⟩, h5⟩, h6⟩, h7⟩, h8⟩, h9⟩, h10⟩ := h
  exact ⟨⟨h1, h2, h3, h4, h5, h6⟩, h7, h8, h9, h10⟩

/-- All that gives a score to an entry that is no candidate. -/
theorem lexical_of_not_anchored (h : ¬ Anchored host root p doc) :
    (scoreDoc host root corpus p doc).lexical =
      bonus (definesByPattern p doc) (5 / 2) +
        (bonusEach p.queryTokens (exactPath doc) (3 / 2) +
          bonusEach p.phrases (exactPhrase doc) 1) := by
  have hmeta : metadataPass host root p doc = false := by
    cases hm : metadataPass host root p doc with
    | false => rfl
    | true => exact absurd (Or.inr hm) h
  have htf : ∀ token ∈ p.queryTokens, doc.tf token = 0 := by
    intro token htoken
    by_contra hne
    exact h (Or.inl ⟨token, List.mem_append_left _ htoken, hne⟩)
  obtain ⟨⟨h1, h2, h3, h4, h5, h6⟩, h7, h8, h9, h10⟩ := marks_of_metadataPass hmeta
  have hissues : bonusEach p.issues (citesIssue doc) (2 : K) = 0 :=
    (bonusEach_eq_zero_iff _ _ _ two_pos).mpr h9
  have hprs : bonusEach p.prs (citesPr doc) (3 / 2 : K) = 0 :=
    (bonusEach_eq_zero_iff _ _ _ (by positivity)).mpr h10
  show deterministicScore host root p doc + keywordScore p doc +
    bm25Score host corpus p.docFreq p.queryTokens doc = _
  rw [bm25Score_eq_zero host corpus p.docFreq p.queryTokens doc htf, deterministicScore,
    keywordScore, isDefinition, h1, h2, h3, h4, h5, h6, h7, h8, hissues, hprs]
  simp only [bonus_false, Bool.or_false, zero_add, add_zero]

theorem lexical_nonneg (h : ¬ Anchored host root p doc) :
    0 ≤ (scoreDoc host root corpus p doc).lexical := by
  rw [lexical_of_not_anchored h]
  have hpath := bonusEach_nonneg p.queryTokens (exactPath doc) (3 / 2 : K) (by positivity)
  have hphrase := bonusEach_nonneg p.phrases (exactPhrase doc) (1 : K) zero_le_one
  exact add_nonneg (bonus_nonneg _ _ (by positivity)) (add_nonneg hpath hphrase)

/-- The comment of the filter, "all non-candidates score exactly 0", is true of the entries without
a match in their text. -/
theorem lexical_eq_zero_iff (h : ¬ Anchored host root p doc) :
    (scoreDoc host root corpus p doc).lexical = 0 ↔ ¬ TextMatch p doc := by
  rw [lexical_of_not_anchored h]
  have hpath := bonusEach_nonneg p.queryTokens (exactPath doc) (3 / 2 : K) (by positivity)
  have hphrase := bonusEach_nonneg p.phrases (exactPhrase doc) (1 : K) zero_le_one
  have hdef := bonus_nonneg (definesByPattern p doc) (5 / 2 : K) (by positivity)
  rw [add_eq_zero_iff_of_nonneg hdef (add_nonneg hpath hphrase),
    add_eq_zero_iff_of_nonneg hpath hphrase, bonus_eq_zero_iff _ _ (by positivity),
    bonusEach_eq_zero_iff _ _ _ (by positivity), bonusEach_eq_zero_iff _ _ _ one_pos]
  unfold TextMatch
  simp only [not_or, Bool.not_eq_true]
  constructor
  · rintro ⟨hd, ht, hp⟩
    exact ⟨ht, hp, hd⟩
  · rintro ⟨ht, hp, hd⟩
    exact ⟨hd, ht, hp⟩

/-! ## Ranking without the entries that score nothing -/

omit [Field K] [IsStrictOrderedRing K] in
theorem sortedDesc_congr {α : Type} {f g : α → K} {xs : List α} (h : ∀ x ∈ xs, f x = g x) :
    sortedDesc f xs = sortedDesc g xs := by
  have hmap := List.map_insertionSort (fun a b => f b ≤ f a) (fun a b => g b ≤ g a) id xs
    fun a ha b hb => by rw [id, id, h a ha, h b hb]
  rw [List.map_id, List.map_id] at hmap
  exact hmap

section
variable {scored : List (Entry K)} (hids : (scored.map Entry.id).Nodup)

include hids

omit [LinearOrder K] [IsStrictOrderedRing K] in
theorem rawOf_eq {e : Entry K} (he : e ∈ scored) : rawOf scored e = e.lexical := by
  have hget : (lexicalRaw scored).get e.id = some e.lexical := by
    refine Dict.get_ofItems_of_mem _ _ _ ?_ (List.mem_map.mpr ⟨e, he, rfl⟩)
    rw [List.map_map]
    exact hids
  rw [rawOf, hget, Option.getD_some]

omit [IsStrictOrderedRing K] in
/-- An entry that scores nothing has no rank. -/
theorem rrfOf_eq_zero {e : Entry K} (he : e ∈ scored) (hzero : e.lexical = 0) :
    rrfOf scored e = 0 := by
  have hnone : (lexicalRank scored).get e.id = none := by
    rw [Option.eq_none_iff_forall_ne_some]
    intro rank hrank
    obtain ⟨⟨other, place⟩, hmem, hpair⟩ :=
      List.mem_map.mp (Dict.mem_of_get_ofItems _ _ _ hrank)
    have hother : other ∈ sortedDesc (rawOf scored) (scored.filter fun e => 0 < rawOf scored e) :=
      List.fst_mem_of_mem_zipIdx hmem
    rw [sortedDesc, List.mem_insertionSort, List.mem_filter, decide_eq_true_eq] at hother
    have heq : other = e :=
      List.inj_on_of_nodup_map hids hother.1 he (Prod.mk.inj hpair).1
    rw [heq, rawOf_eq hids he, hzero] at hother
    exact lt_irrefl _ hother.2
  rw [rrfOf, hnone]
  rfl

omit [IsStrictOrderedRing K] in
theorem relevanceOf_eq_zero {e : Entry K} (he : e ∈ scored) (hzero : e.lexical = 0) :
    relevanceOf scored e = 0 := by
  rw [relevanceOf, rawOf_eq hids he, rrfOf_eq_zero hids he hzero, hzero, zero_mul, add_zero]

omit hids in
theorem rrfOf_nonneg (e : Entry K) : 0 ≤ rrfOf scored e := by
  unfold rrfOf reciprocalRank
  split
  · positivity
  · exact le_refl _

/-- An entry is irrelevant exactly if it scores nothing. -/
theorem relevanceOf_eq_zero_iff {e : Entry K} (he : e ∈ scored) (hnonneg : 0 ≤ e.lexical) :
    relevanceOf scored e = 0 ↔ e.lexical = 0 := by
  refine ⟨fun h => ?_, relevanceOf_eq_zero hids he⟩
  rw [relevanceOf, rawOf_eq hids he] at h
  have hrrf := @rrfOf_nonneg K _ _ _ scored e
  have hboost : 0 ≤ rrfOf scored e * 10 := by positivity
  exact ((add_eq_zero_iff_of_nonneg hnonneg hboost).mp h).1

variable {keep : Entry K → Bool} (hkeep : ∀ e ∈ scored, keep e = false → e.lexical = 0)

include hkeep

omit [IsStrictOrderedRing K] in
theorem lexicalRank_filter : lexicalRank (scored.filter keep) = lexicalRank scored := by
  have hids' : ((scored.filter keep).map Entry.id).Nodup :=
    hids.sublist (List.filter_sublist.map _)
  have hraw : ∀ e ∈ scored.filter keep, rawOf (scored.filter keep) e = rawOf scored e := by
    intro e he
    rw [rawOf_eq hids' he, rawOf_eq hids (List.mem_filter.mp he).1]
  have hpositive : (scored.filter keep).filter (fun e => 0 < rawOf (scored.filter keep) e) =
      scored.filter fun e => 0 < rawOf scored e := by
    rw [List.filter_congr fun e he => by rw [hraw e he], List.filter_filter]
    refine List.filter_congr fun e he => ?_
    cases hk : keep e with
    | true => rw [Bool.and_true]
    | false => simp [rawOf_eq hids he, hkeep e he hk]
  unfold lexicalRank
  rw [hpositive]
  have hsame : sortedDesc (rawOf (scored.filter keep)) (scored.filter fun e => 0 < rawOf scored e) =
      sortedDesc (rawOf scored) (scored.filter fun e => 0 < rawOf scored e) := by
    refine sortedDesc_congr fun e he => hraw e ?_
    rw [← hpositive] at he
    exact List.mem_of_mem_filter he
  simp only [hsame]

omit [IsStrictOrderedRing K] in
/-- The results do not depend on entries that score nothing. -/
theorem rankResults_filter : rankResults host (scored.filter keep) = rankResults host scored := by
  have hids' : ((scored.filter keep).map Entry.id).Nodup :=
    hids.sublist (List.filter_sublist.map _)
  have hrrf : ∀ e, rrfOf (scored.filter keep) e = rrfOf scored e := by
    intro e
    rw [rrfOf, rrfOf, lexicalRank_filter hids hkeep]
  have hrelevance : ∀ e ∈ scored.filter keep,
      relevanceOf (scored.filter keep) e = relevanceOf scored e := by
    intro e he
    rw [relevanceOf, relevanceOf, hrrf, rawOf_eq hids' he, rawOf_eq hids (List.mem_filter.mp he).1]
  have hrelevant : ((scored.filter keep).filter fun e => !isDenied e.item.1).filter
        (fun e => 0 < relevanceOf (scored.filter keep) e) =
      (scored.filter fun e => !isDenied e.item.1).filter fun e => 0 < relevanceOf scored e := by
    rw [List.filter_congr fun e he => by rw [hrelevance e (List.mem_of_mem_filter he)],
      List.filter_filter, List.filter_filter, List.filter_filter]
    refine List.filter_congr fun e he => ?_
    cases hk : keep e with
    | true => rw [Bool.and_true]
    | false => simp [relevanceOf_eq_zero hids he (hkeep e he hk)]
  have hfinish : ∀ e ∈ (scored.filter fun e => !isDenied e.item.1).filter
      (fun e => 0 < relevanceOf scored e),
      finish host (scored.filter keep) e = finish host scored e := by
    intro e he
    rw [← hrelevant] at he
    unfold finish
    rw [hrelevance e (List.mem_of_mem_filter (List.mem_of_mem_filter he)), hrrf]
  unfold rankResults
  rw [hrelevant, List.map_congr_left hfinish]

end

/-! ## The two ways to answer -/

variable (host root) in
/-- The plan of a query over the whole corpus. -/
def fullPlan (index : Index) (query : Text) (injectSymbols : Bool) : Plan K :=
  plan host root index (prepareCorpus host.lower index none)
    (docFreq none (docs host.lower index none)) query injectSymbols

variable (host root) in
/-- The entries of the full scan. -/
def fullScored (index : Index) (query : Text) (injectSymbols : Bool) : List (Entry K) :=
  (docs host.lower index none).map
    (scoreDoc host root (prepareCorpus host.lower index none)
      (fullPlan host root index query injectSymbols))

variable (host root) in
/-- The candidates among the entries. -/
def fastCandidates (index : Index) (query : Text) (injectSymbols : Bool) : List Text :=
  candidateIds host root (fullPlan host root index query injectSymbols)
    (postings (documents host.lower index)) (docs host.lower index none)

/-- The same results in the same order with the same scores, and nothing relevant left out. -/
def FastAgrees (fast full : Answer K) : Prop :=
  fast.results = full.results ∧
    ∀ ids, fast.candidateIds = some ids →
      ∀ e ∈ full.scored, e.id ∉ ids → relevanceOf full.scored e = 0

variable {index : Index} {query : Text} {injectSymbols : Bool}

omit [IsStrictOrderedRing K] in
theorem queryContext_full :
    queryContext host { root with postingsFile := none } index query injectSymbols =
      { candidateIds := none
        scored := fullScored host root index query injectSymbols
        results := rankResults host (fullScored host root index query injectSymbols) } := rfl

theorem ids_docs (index : Index) (lower : Text → Text) :
    (docs lower index none).map Doc.id = (items index).map itemId := by
  show ((items index).map _).map Doc.id = _
  rw [List.map_map]
  rfl

omit [IsStrictOrderedRing K] in
theorem ids_fullScored :
    (fullScored host root index query injectSymbols).map Entry.id = (items index).map itemId := by
  rw [← ids_docs index host.lower, fullScored, List.map_map]
  rfl

section
variable (hids : ((items index).map itemId).Nodup)

include hids

omit [IsStrictOrderedRing K] in
theorem queryContext_fast :
    queryContext host { root with postingsFile := some (buildPostings host.lower index) } index
        query injectSymbols =
      let scored := (fullScored host root index query injectSymbols).filter fun e =>
        (fastCandidates host root index query injectSymbols).contains e.id
      { candidateIds := some (fastCandidates host root index query injectSymbols)
        scored := scored
        results := rankResults host scored } := by
  have hdf : docFreq (some (postings (documents host.lower index))) (docs host.lower index none) =
      docFreq none (docs host.lower index none) := funext (docFreq_buildPostings index)
  have hdocs : (prepareCorpus (K := K) host.lower index none).docs = docs host.lower index none :=
    rfl
  unfold queryContext
  simp only [loadPostings_buildPostings, prepareCorpus_buildPostings index hids, hdocs, hdf,
    Option.map_some]
  rw [fullScored, List.filter_map]
  rfl

omit [Field K] [LinearOrder K] [IsStrictOrderedRing K] in
/-- With distinct ids, the filter keeps the anchored entries. -/
theorem mem_candidateIds (p : Plan K) {doc : Doc} (hdoc : doc ∈ docs host.lower index none) :
    doc.id ∈ candidateIds host root p (postings (documents host.lower index))
        (docs host.lower index none) ↔ Anchored host root p doc := by
  have hunique : ∀ other ∈ docs host.lower index none, other.id = doc.id → other = doc :=
    fun other hother => List.inj_on_of_nodup_map (by rw [ids_docs]; exact hids) hother hdoc
  unfold candidateIds
  rw [List.mem_append]
  refine or_congr ?_ ?_
  · rw [List.mem_flatMap]
    refine exists_congr fun term => and_congr_right fun _ => ?_
    rw [mem_postings_iff]
    constructor
    · rintro ⟨other, hother, hid, htf⟩
      rwa [hunique other hother hid] at htf
    · exact fun htf => ⟨doc, hdoc, rfl, htf⟩
  · rw [List.mem_map]
    constructor
    · rintro ⟨other, hother, hid⟩
      obtain ⟨hmem, hpass⟩ := List.mem_filter.mp hother
      rwa [hunique other hmem hid] at hpass
    · exact fun hpass => ⟨doc, List.mem_filter.mpr ⟨hdoc, hpass⟩, rfl⟩

end

variable (host root index query injectSymbols) in
/-- The fast path agrees with the full scan exactly if every entry whose text holds a path or a
phrase of the query, or defines one of its symbols, also has one of the query's terms or is named
by the metadata pass. -/
theorem fastPath_iff (hids : ((items index).map itemId).Nodup) :
    FastAgrees
        (queryContext host { root with postingsFile := some (buildPostings host.lower index) }
          index query injectSymbols)
        (queryContext host { root with postingsFile := none } index query injectSymbols) ↔
      ∀ doc ∈ docs host.lower index none,
        TextMatch (fullPlan host root index query injectSymbols) doc →
          Anchored host root (fullPlan host root index query injectSymbols) doc := by
  have hscored : ((fullScored host root index query injectSymbols).map Entry.id).Nodup := by
    rw [ids_fullScored]
    exact hids
  rw [queryContext_full, queryContext_fast hids]
  constructor
  · rintro ⟨-, hleft⟩ doc hdoc hmatch
    by_contra hanchored
    have hmem : scoreDoc host root (prepareCorpus host.lower index none)
        (fullPlan host root index query injectSymbols) doc ∈
          fullScored host root index query injectSymbols := List.mem_map.mpr ⟨doc, hdoc, rfl⟩
    have hirrelevant := hleft _ rfl _ hmem
      fun hcandidate => hanchored ((mem_candidateIds hids _ hdoc).mp hcandidate)
    rw [relevanceOf_eq_zero_iff hscored hmem (lexical_nonneg hanchored),
      lexical_eq_zero_iff hanchored] at hirrelevant
    exact hirrelevant hmatch
  · intro hall
    have hzero : ∀ e ∈ fullScored host root index query injectSymbols,
        e.id ∉ fastCandidates host root index query injectSymbols → e.lexical = 0 := by
      intro e he hcandidate
      obtain ⟨doc, hdoc, rfl⟩ := List.mem_map.mp he
      have hanchored : ¬ Anchored host root (fullPlan host root index query injectSymbols) doc :=
        fun h => hcandidate ((mem_candidateIds hids _ hdoc).mpr h)
      exact (lexical_eq_zero_iff hanchored).mpr fun hmatch => hanchored (hall doc hdoc hmatch)
    refine ⟨rankResults_filter hscored fun e he hkeep => hzero e he ?_, ?_⟩
    · intro hcandidate
      rw [List.contains_iff_mem.mpr hcandidate] at hkeep
      cases hkeep
    · rintro ids hids' e he hcandidate
      obtain rfl := Option.some.inj hids'
      exact relevanceOf_eq_zero hscored he (hzero e he hcandidate)

end

/-! ## A path inside a longer path -/

/-- The language's functions on ASCII, and no code graph. -/
def sampleHost : Host ℚ where
  lower := fun t => t.map Char.toLower
  isAlnum := Char.isAlphanum
  log := fun x => x - 1
  round6 := id
  expandQueryTokens := fun _ tokens => tokens
  exactMode := fun _ => true
  memoryAnchors := fun _ => []
  anchorPaths := fun _ => []
  graphExpansion := fun _ _ => {}
  crossFileImportedSymbols := fun _ => []

/-- A note on issue 12 that cites a file by its whole path. -/
def sampleIndex : Index where
  records :=
    [{ id := some "source:a.md".toList, path := some "a.md".toList, linkedIssues := [12] }]
  chunks :=
    [{ id := "a.md:1".toList, sourceId := some "source:a.md".toList
       content := "see src/foo/bar.py".toList }]

theorem fastPath_iff_issue : ((items sampleIndex).map itemId).Nodup ∧
    FastAgrees
      (queryContext sampleHost
        { postingsFile := some (buildPostings sampleHost.lower sampleIndex) } sampleIndex
        "#12".toList false)
      (queryContext sampleHost {} sampleIndex "#12".toList false) := by
  have hids : ((items sampleIndex).map itemId).Nodup := by decide +kernel
  refine ⟨hids, (fastPath_iff sampleHost {} sampleIndex "#12".toList false hids).mpr ?_⟩
  intro doc hdoc _
  refine Or.inl ⟨"12".toList, by decide +kernel, ?_⟩
  obtain rfl : doc = (docs sampleHost.lower sampleIndex none).head (by decide +kernel) :=
    List.mem_singleton.mp hdoc
  decide +kernel

/-- Asked for `foo/bar`, the full scan finds the note by the exact path, the fast path nothing. -/
theorem fastPath_misses_path : ((items sampleIndex).map itemId).Nodup ∧
    ¬ FastAgrees
      (queryContext sampleHost
        { postingsFile := some (buildPostings sampleHost.lower sampleIndex) } sampleIndex
        "foo/bar".toList false)
      (queryContext sampleHost {} sampleIndex "foo/bar".toList false) := by
  refine ⟨by decide +kernel, ?_⟩
  rintro ⟨hresults, -⟩
  have hlength := congrArg List.length hresults
  revert hlength
  decide +kernel

end Agentrail.Retrieval
