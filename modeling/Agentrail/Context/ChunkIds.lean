import Agentrail.Context.ChunkRanges
import Agentrail.Lib.Numbered
import Agentrail.Py.Lines

/-!
# Ids of chunks

The ids of a code file differ: they end in the lines of their windows or symbols.  The ids of a
markdown file end in the slugs of its headings, told apart by a counter, in one space with the
slugs themselves and with the suffix `preamble` (`markdownChunks_ids`): they differ exactly if no
heading has the slug of a counted one, nor the one of a preamble that is there.
-/

namespace Agentrail.Chunks

open Py Regex Numbered

/-- The id of a chunk with the suffix. -/
def chunkId (source : SourceRecord) (suffix : Text) : Text :=
  "chunk:".toList ++ source.path ++ '#' :: suffix

theorem chunkId_injective (source : SourceRecord) : Function.Injective (chunkId source) := by
  intro suffix suffix' h
  exact List.cons_inj_right _ |>.mp (List.append_cancel_left h)

/-! ## Slugs -/

/-- The base slug with its number. -/
def slugMark (baseSlug : Text) (count : ℕ) : Text := baseSlug ++ '-' :: Nat.toDigits 10 count

theorem slugMark_inj (b : Text) (c : ℕ) (b' : Text) (c' : ℕ) (h : slugMark b c = slugMark b' c') :
    b = b' ∧ c = c' := append_toDigits_inj (by decide) h

theorem preamble_ne_slugMark (b : Text) (c : ℕ) : "preamble".toList ≠ slugMark b c := by
  intro h
  have hin : '-' ∈ "preamble".toList := by
    rw [h]
    exact List.mem_append_right _ List.mem_cons_self
  exact absurd hin (by decide)

section
variable (host : Host) (source : SourceRecord)

/-- The base slugs of the headings among the lines. -/
def headingSlugs (lines : List Text) : List Text :=
  (lines.filterMap headingOf).map fun found => slugify host found.2

/-- The suffix of the preamble, where there are headings and a text before the first. -/
def preambleSlugs (lines : List Text) : List Text :=
  if strip (joinLines (lines.takeWhile fun line => headingOf line = none)) = [] then []
  else ["preamble".toList]

/-! ## Markdown -/

/-- The ids after some lines: those of the closed sections and of the open one. -/
structure Labelled (lines done : List Text) (sections : Sections) : Prop where
  counts : ∀ slug, (sections.slugCounts.get slug).getD 0 = (headingSlugs host done).count slug
  outside : sections.current = none → sections.chunks = [] ∧ ∀ line ∈ done, headingOf line = none
  inside : ∀ current, sections.current = some current →
    sections.chunks.map ChunkRecord.id ++ [chunkId source current.slug] =
      (preambleSlugs lines ++ numbered slugMark (headingSlugs host done)).map (chunkId source)

variable {host source} {lines done : List Text} {sections : Sections}

theorem headingSlugs_concat (done : List Text) (line : Text) : headingSlugs host (done ++ [line]) =
    headingSlugs host done ++
      ((headingOf line).map fun found => slugify host found.2).toList := by
  unfold headingSlugs
  rw [List.filterMap_append, List.map_append]
  cases h : headingOf line <;> simp [h]

theorem headingSlugs_eq_nil (h : ∀ line ∈ done, headingOf line = none) :
    headingSlugs host done = [] := by
  unfold headingSlugs
  rw [List.filterMap_eq_nil_iff.mpr h]
  rfl

/-- The lines before the first heading. -/
theorem takeWhile_not_heading {rest : List Text} {line : Text}
    (h : ∀ line ∈ done, headingOf line = none) (hline : headingOf line ≠ none) :
    (done ++ line :: rest).takeWhile (fun line => headingOf line = none) = done := by
  rw [List.takeWhile_append_of_pos fun line hin => decide_eq_true (h line hin),
    List.takeWhile_cons_of_neg (by simpa using hline), List.append_nil]

theorem slugCounts_closed (endLine : ℕ) :
    (addPreamble host source lines endLine
      (closeCurrent host source lines endLine sections)).slugCounts = sections.slugCounts := by
  have hclose : (closeCurrent host source lines endLine sections).slugCounts =
      sections.slugCounts := by
    unfold closeCurrent
    cases sections.current <;> rfl
  rw [← hclose]
  unfold addPreamble
  split
  · rfl
  · split <;> rfl

/-- The ids of the sections that are closed before a heading. -/
theorem Labelled.closed {rest : List Text} {line : Text}
    (h : Labelled host source lines done sections) (hlines : lines = done ++ line :: rest)
    (hline : headingOf line ≠ none) :
    (addPreamble host source lines done.length
        (closeCurrent host source lines done.length sections)).chunks.map ChunkRecord.id =
      (preambleSlugs lines ++ numbered slugMark (headingSlugs host done)).map (chunkId source) := by
  cases hcurrent : sections.current with
  | none =>
    obtain ⟨hchunks, hdone⟩ := h.outside hcurrent
    have hbefore : preambleSlugs lines =
        if strip (joinLines done) = [] then [] else ["preamble".toList] := by
      unfold preambleSlugs
      rw [hlines, takeWhile_not_heading hdone hline]
    have htake : lines.take done.length = done := by rw [hlines, List.take_left]
    rw [addPreamble_none host source hcurrent hchunks, headingSlugs_eq_nil hdone, hbefore, htake]
    by_cases hblank : strip (joinLines done) = []
    · rw [if_pos hblank, if_pos hblank]
      rfl
    · rw [if_neg hblank, if_neg hblank]
      rfl
  | some current =>
    rw [addPreamble_some host source hcurrent, closeCurrent_some host source hcurrent,
      ← h.inside current hcurrent, List.map_append]
    rfl

theorem Labelled.round {rest : List Text} {line : Text}
    (h : Labelled host source lines done sections) (hlines : lines = done ++ line :: rest) :
    Labelled host source lines (done ++ [line])
      (sectionRound host source lines sections (line, done.length)) := by
  cases hline : headingOf line with
  | none =>
    have hsame : sectionRound host source lines sections (line, done.length) = sections := by
      unfold sectionRound
      rw [hline]
    have hslugs : headingSlugs host (done ++ [line]) = headingSlugs host done := by
      rw [headingSlugs_concat, hline]
      exact List.append_nil _
    rw [hsame]
    constructor
    · rw [hslugs]
      exact h.counts
    · intro hcurrent
      refine ⟨(h.outside hcurrent).1, fun l hl => ?_⟩
      rcases List.mem_append.mp hl with hl | hl
      · exact (h.outside hcurrent).2 l hl
      · rw [List.mem_singleton.mp hl, hline]
    · rw [hslugs]
      exact h.inside
  | some found =>
    obtain ⟨level, title⟩ := found
    have hslugs : headingSlugs host (done ++ [line]) =
        headingSlugs host done ++ [slugify host title] := by
      rw [headingSlugs_concat, hline]
      rfl
    have hclosed := h.closed hlines (by rw [hline]; exact nofun)
    have hcounts : (addPreamble host source lines done.length
        (closeCurrent host source lines done.length sections)).slugCounts = sections.slugCounts :=
      slugCounts_closed done.length
    unfold sectionRound
    rw [hline]
    dsimp only
    rw [hcounts]
    constructor
    · intro slug
      dsimp only
      rw [hslugs, Dict.get_set]
      by_cases he : slugify host title = slug
      · rw [if_pos he, he, count_concat_self, ← h.counts]
        rfl
      · rw [if_neg he, count_concat_ne _ he, ← h.counts]
    · exact nofun
    · intro current hcurrent
      cases hcurrent
      rw [hslugs, numbered_concat, ← List.append_assoc, List.map_append, ← hclosed, ← h.counts]
      rfl

/-- **The ids of a markdown file**, preamble first; one that has no heading is one chunk. -/
theorem markdownChunks_ids (host : Host) (source : SourceRecord) (text : Text) :
    (markdownChunks host source text).map ChunkRecord.id =
        (preambleSlugs (splitLines text) ++
          numbered slugMark (headingSlugs host (splitLines text))).map (chunkId source) ∨
      headingSlugs host (splitLines text) = [] ∧ (markdownChunks host source text).length ≤ 1 := by
  have hrun := foldl_sectionRound host source (splitLines text)
    (Labelled host source (splitLines text))
    ⟨fun slug => rfl, fun _ => ⟨rfl, nofun⟩, nofun⟩ fun _ _ _ _ hlines h => h.round hlines
  unfold markdownChunks
  dsimp only
  generalize (splitLines text).zipIdx.foldl _ _ = sections at hrun
  cases hcurrent : sections.current with
  | none =>
    obtain ⟨hchunks, hnone⟩ := hrun.outside hcurrent
    rw [closeCurrent_none host source hcurrent, hchunks]
    refine Or.inr ⟨headingSlugs_eq_nil hnone, ?_⟩
    split
    · exact Nat.le_refl _
    · exact Nat.zero_le _
  | some current =>
    rw [closeCurrent_some host source hcurrent, if_neg fun h => List.append_ne_nil_of_right_ne_nil
      _ (List.cons_ne_nil _ _) h.1, ← hrun.inside current hcurrent, List.map_append]
    exact Or.inl rfl

/-- **The ids of a markdown file differ** exactly if no heading has the slug of a counted one, nor
that of a preamble that is there. -/
theorem markdownChunks_nodup_iff (text : Text) :
    ((markdownChunks host source text).map ChunkRecord.id).Nodup ↔
      Unmarked slugMark (headingSlugs host (splitLines text)) ∧
        ("preamble".toList ∈ preambleSlugs (splitLines text) →
          "preamble".toList ∉ headingSlugs host (splitLines text)) := by
  rcases markdownChunks_ids host source text with hids | ⟨hnone, hlength⟩
  · have hpreamble : preambleSlugs (splitLines text) = [] ∨
        preambleSlugs (splitLines text) = ["preamble".toList] := by
      unfold preambleSlugs
      split
      · exact Or.inl rfl
      · exact Or.inr rfl
    have hin : "preamble".toList ∈ numbered slugMark (headingSlugs host (splitLines text)) ↔
        "preamble".toList ∈ headingSlugs host (splitLines text) := by
      rw [mem_numbered]
      refine ⟨fun h => h.resolve_right ?_, Or.inl⟩
      rintro ⟨b, c, -, -, he⟩
      exact preamble_ne_slugMark b c he
    rw [hids, List.nodup_map_iff (chunkId_injective source), ← nodup_numbered_iff slugMark_inj]
    rcases hpreamble with hempty | hone
    · rw [hempty]
      exact ⟨fun h => ⟨h, nofun⟩, fun h => h.1⟩
    · rw [hone, List.singleton_append, List.nodup_cons, hin, and_comm]
      exact and_congr_right fun _ => ⟨fun h _ => h, fun h => h (List.mem_singleton_self _)⟩
  · rw [hnone]
    refine ⟨fun _ => ⟨fun a c hc hle => List.not_mem_nil, fun _ => List.not_mem_nil⟩, fun _ => ?_⟩
    rcases hchunks : markdownChunks host source text with _ | ⟨chunk, _ | ⟨next, chunks⟩⟩
    · exact List.nodup_nil
    · exact List.nodup_singleton _
    · rw [hchunks] at hlength
      simp at hlength

/-! ## Code -/

/-- Chunks whose ids give away their first lines. -/
theorem Ranges.nodup_ids {lines : List Text} {chunks : List ChunkRecord} {upTo : ℕ}
    (h : Ranges lines chunks upTo)
    (hids : ∀ a ∈ chunks, ∀ b ∈ chunks, a.id = b.id → a.startLine = b.startLine) :
    (chunks.map ChunkRecord.id).Nodup := by
  rw [List.nodup_iff_pairwise_ne, List.pairwise_map]
  refine h.apart.imp_of_mem fun {a b} ha hb hlt he => ?_
  have hbound := h.bounds a ha
  have hsame := hids a ha b hb he
  omega

theorem windowSuffix_inj {first last first' last' : ℕ}
    (h : windowSuffix first last = windowSuffix first' last') : first = first' := by
  have hcut : ∀ first last, windowSuffix first last =
      ('L' :: (Nat.toDigits 10 first ++ ['-'])) ++ 'L' :: Nat.toDigits 10 last := by
    intro first last
    show 'L' :: (Nat.toDigits 10 first ++ "-L".toList ++ Nat.toDigits 10 last) = _
    simp
  rw [hcut, hcut] at h
  have hfirst := (append_toDigits_inj (by decide) h).1
  exact toDigits_injective (List.append_cancel_right (List.cons.inj hfirst).2)

theorem codeChunks_id {text relativePath : Text} {chunk : ChunkRecord}
    (h : chunk ∈ codeChunks host source text relativePath) :
    chunk.id = chunkId source (windowSuffix chunk.startLine chunk.endLine) := by
  obtain ⟨start, -, hchunk⟩ := List.mem_filterMap.mp h
  unfold windowChunk at hchunk
  dsimp only at hchunk
  split at hchunk
  · cases hchunk
  · cases hchunk
    rfl

theorem codeChunks_nodup (text relativePath : Text) :
    ((codeChunks host source text relativePath).map ChunkRecord.id).Nodup := by
  refine (codeChunks_ranges text relativePath).nodup_ids fun a ha b hb he => ?_
  rw [codeChunks_id ha, codeChunks_id hb] at he
  exact windowSuffix_inj (chunkId_injective source he)

/-- The suffix of the chunk of a symbol. -/
def symbolSuffix (name : Text) (line : ℕ) : Text :=
  "symbol:".toList ++ name ++ ':' :: Nat.toDigits 10 line

theorem symbolChunk_id {text relativePath : Text} {sym : Symbol} {endLine : ℕ}
    {chunk : ChunkRecord} (h : symbolChunk host source text relativePath sym endLine = some chunk) :
    chunk.id = chunkId source (symbolSuffix sym.name chunk.startLine) := by
  unfold symbolChunk at h
  dsimp only at h
  split at h
  · cases h
  · cases h
    rfl

theorem symbolChunks_id {text relativePath : Text} {chunk : ChunkRecord} (symbols : List Symbol)
    (h : some chunk ∈ symbolChunks host source text relativePath symbols) :
    ∃ name, chunk.id = chunkId source (symbolSuffix name chunk.startLine) := by
  induction symbols with
  | nil => cases h
  | cons sym symbols ih =>
    cases symbols with
    | nil => exact ⟨sym.name, symbolChunk_id (List.mem_singleton.mp h).symm⟩
    | cons next symbols =>
      rcases List.mem_cons.mp h with he | h
      · exact ⟨sym.name, symbolChunk_id he.symm⟩
      · exact ih h

theorem codePreamble_id {text relativePath : Text} {line : ℕ} {chunk : ChunkRecord}
    (h : codePreamble host source text relativePath line = some chunk) :
    chunk.id = chunkId source "preamble".toList ∧ chunk.startLine = 1 := by
  unfold codePreamble at h
  dsimp only at h
  split at h
  · cases h
    exact ⟨rfl, rfl⟩
  · cases h

theorem symbolAwareCodeChunks_nodup (text relativePath : Text)
    (h : (host.extractedSymbols text relativePath).Pairwise fun a b => a.line ≤ b.line) :
    ((symbolAwareCodeChunks host source text relativePath).map ChunkRecord.id).Nodup := by
  obtain ⟨upTo, hranges, -⟩ : ∃ upTo, Ranges (splitLines text)
      (symbolAwareCodeChunks host source text relativePath) upTo ∧ _ :=
    symbolAwareCodeChunks_ranges text relativePath h
  revert hranges
  unfold symbolAwareCodeChunks
  cases hsymbols : host.extractedSymbols text relativePath with
  | nil => exact fun _ => codeChunks_nodup text relativePath
  | cons first symbols =>
    dsimp only
    split
    · exact fun _ => codeChunks_nodup text relativePath
    · intro hranges
      have hid : ∀ chunk ∈ (codePreamble host source text relativePath first.line ::
          symbolChunks host source text relativePath (first :: symbols)).reduceOption,
          (chunk.id = chunkId source "preamble".toList ∧ chunk.startLine = 1) ∨
            ∃ name, chunk.id = chunkId source (symbolSuffix name chunk.startLine) := by
        intro chunk hchunk
        rcases List.mem_cons.mp (List.reduceOption_mem_iff.mp hchunk) with he | hin
        · exact Or.inl (codePreamble_id he.symm)
        · exact Or.inr (symbolChunks_id _ hin)
      have hother : ∀ name line, "preamble".toList ≠ symbolSuffix name line := by
        intro name line he
        have hhead : some 'p' = some 's' := congrArg List.head? he
        exact absurd hhead (by decide)
      refine hranges.nodup_ids fun a ha b hb he => ?_
      rcases hid a ha with ⟨hida, hlinea⟩ | ⟨name, hida⟩
      · rcases hid b hb with ⟨-, hlineb⟩ | ⟨name', hidb⟩
        · rw [hlinea, hlineb]
        · rw [hida, hidb] at he
          exact absurd (chunkId_injective source he) (hother _ _)
      · rcases hid b hb with ⟨hidb, -⟩ | ⟨name', hidb⟩
        · rw [hida, hidb] at he
          exact absurd (chunkId_injective source he).symm (hother _ _)
        · rw [hida, hidb] at he
          exact (append_toDigits_inj (by decide) (chunkId_injective source he)).2

end

/-- **Chunk ids are unique** in a code file, and in a markdown file exactly if no heading has the
slug of a counted one, nor that of a preamble that is there. -/
theorem chunkIds_nodup (host : Host) (source : SourceRecord) (text relativePath : Text) :
    (((markdownChunks host source text).map ChunkRecord.id).Nodup ↔
      Unmarked slugMark (headingSlugs host (splitLines text)) ∧
        ("preamble".toList ∈ preambleSlugs (splitLines text) →
          "preamble".toList ∉ headingSlugs host (splitLines text))) ∧
      ((codeChunks host source text relativePath).map ChunkRecord.id).Nodup ∧
      ((host.extractedSymbols text relativePath).Pairwise (fun a b => a.line ≤ b.line) →
        ((symbolAwareCodeChunks host source text relativePath).map ChunkRecord.id).Nodup) :=
  ⟨markdownChunks_nodup_iff text, codeChunks_nodup text relativePath,
    symbolAwareCodeChunks_nodup text relativePath⟩

/-- The code file with one function. -/
theorem sample_ids_nodup : ((symbolAwareCodeChunks sampleHost (sampleSource "a.py".toList)
    sampleFile "a.py".toList).map ChunkRecord.id).Nodup :=
  (chunkIds_nodup sampleHost (sampleSource "a.py".toList) sampleFile "a.py".toList).2.2
    (by decide +kernel)

/-- The second of two headings with one title, and a heading with its number in the title. -/
theorem repeated_and_numbered_heading : ¬ ((markdownChunks sampleHost
    (sampleSource "a.md".toList) "# A\n# A\n# A 2".toList).map ChunkRecord.id).Nodup := by
  decide +kernel

end Agentrail.Chunks
