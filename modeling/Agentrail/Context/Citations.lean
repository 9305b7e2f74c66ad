import Agentrail.Context.Snippets
import Mathlib.Algebra.Ring.Nat

/-!
# Search results and the lines they cite

The cited lines are counted from the first line of the chunk, while its content has lost the blank
lines at the chunk's start.  So a chunk whose first line is not blank cites what it shows, for
every query (`FromLines.cites`); of the chunks that are shown whole, no other does
(`FromLines.firstLineShown`), as what is shown has more ink than the cited lines.
-/

namespace Agentrail.Chunks

open Py

/-! ## What is cited -/

/-- Each line of the snippet, marks apart, occurs in its place on the cited lines of the file. -/
def Cites (lower : Text → Text) (queryTokens : List Text) (text : Text) (chunk : ChunkRecord) :
    Prop :=
  OccurIn (searchResult lower queryTokens chunk).snippet.lines
    (linesOf (splitLines text) (searchResult lower queryTokens chunk).lineStart
      (searchResult lower queryTokens chunk).lineEnd)

/-- The first line of the chunk is not blank. -/
def FirstLineShown (text : Text) (chunk : ChunkRecord) : Prop :=
  ∃ line, (splitLines text)[chunk.startLine - 1]? = some line ∧ strip line ≠ []

/-- A chunk that the indexer makes of the text. -/
def Indexed (host : Host) (source : SourceRecord) (text relativePath : Text)
    (chunk : ChunkRecord) : Prop :=
  chunk ∈ markdownChunks host source text ∨ chunk ∈ codeChunks host source text relativePath ∨
    chunk ∈ symbolAwareCodeChunks host source text relativePath

section
variable {host : Host} {source : SourceRecord} {text relativePath : Text} {chunk : ChunkRecord}

/-- The content of a chunk is that of its lines, for symbols in any order. -/
structure FromLines (text : Text) (chunk : ChunkRecord) : Prop where
  first : 1 ≤ chunk.startLine
  last : chunk.startLine ≤ chunk.endLine
  content : ∃ body, Joins (linesOf (splitLines text) chunk.startLine chunk.endLine) body ∧
    chunk.content = strip body

theorem Lossless.fromLines {chunks : List ChunkRecord} (h : Lossless text chunks)
    (hchunk : chunk ∈ chunks) : FromLines text chunk :=
  ⟨(h.bounds chunk hchunk).1, (h.bounds chunk hchunk).2.1, h.content chunk hchunk⟩

theorem symbolChunk_fromLines {sym : Symbol} {endLine : ℕ}
    (h : symbolChunk host source text relativePath sym endLine = some chunk) :
    FromLines text chunk := by
  unfold symbolChunk at h
  dsimp only at h
  split at h
  · cases h
  · next hblank =>
    cases h
    have hline : 1 ≤ sym.line := Nat.le_add_left _ _
    have hlt := (lt_of_not_blank hblank).1
    exact ⟨hline, show sym.line ≤ endLine by omega, _, joins_joinLines _, rfl⟩

theorem symbolChunks_fromLines (symbols : List Symbol)
    (h : some chunk ∈ symbolChunks host source text relativePath symbols) :
    FromLines text chunk := by
  induction symbols with
  | nil => cases h
  | cons sym symbols ih =>
    cases symbols with
    | nil => exact symbolChunk_fromLines (List.mem_singleton.mp h).symm
    | cons next symbols =>
      rcases List.mem_cons.mp h with he | h
      · exact symbolChunk_fromLines he.symm
      · exact ih h

theorem codePreamble_fromLines {line : ℕ}
    (h : codePreamble host source text relativePath line = some chunk) : FromLines text chunk := by
  unfold codePreamble at h
  dsimp only at h
  split at h
  · next hcond =>
    cases h
    exact ⟨Nat.le_refl 1, show 1 ≤ line - 1 by omega, _, joins_joinLines _, rfl⟩
  · cases h

theorem Indexed.fromLines (h : Indexed host source text relativePath chunk) :
    FromLines text chunk := by
  have hall := chunks_lossless host source text relativePath
  rcases h with h | h | h
  · exact hall.1.fromLines h
  · exact hall.2.1.fromLines h
  · unfold symbolAwareCodeChunks at h
    split at h
    · exact hall.2.1.fromLines h
    · dsimp only at h
      split at h
      · exact hall.2.1.fromLines h
      · rcases List.mem_cons.mp (List.reduceOption_mem_iff.mp h) with he | h
        · exact codePreamble_fromLines he.symm
        · exact symbolChunks_fromLines _ h

theorem newline_notMem_linesOf (text : Text) (first last : ℕ) :
    ∀ l ∈ linesOf (splitLines text) first last, '\n' ∉ l := fun l hl =>
  newline_notMem_splitLinesAux [] text List.not_mem_nil l
    (List.mem_of_mem_take (List.mem_of_mem_drop hl))

/-- The lines from the first one of a chunk on. -/
theorem linesOf_take (lines : List Text) {first last : ℕ} (hfirst : 1 ≤ first) (span : ℕ) :
    (linesOf lines first last).take (span + 1) = linesOf lines first (min last (first + span)) := by
  unfold linesOf
  rw [List.drop_take, List.drop_take, List.take_take]
  congr 1
  omega

/-- The cited range, where the snippet's span starts at the first line. -/
theorem FromLines.searchResult_lines (h : FromLines text chunk) {lower : Text → Text}
    {queryTokens : List Text}
    (hstart : (boundedSnippet lower chunk.content queryTokens).spanStart = 0) :
    linesOf (splitLines text) (searchResult lower queryTokens chunk).lineStart
        (searchResult lower queryTokens chunk).lineEnd =
      (linesOf (splitLines text) chunk.startLine chunk.endLine).take
        ((boundedSnippet lower chunk.content queryTokens).spanEnd + 1) := by
  have hfirst := h.first
  have hlast := h.last
  rw [linesOf_take _ h.first]
  unfold searchResult
  dsimp only
  rw [hstart, if_neg (by omega), if_neg (by omega), Nat.zero_max, Nat.add_zero,
    Nat.min_eq_right hlast]

/-- The lines of a chunk, its first one apart. -/
theorem FromLines.lines_cons (h : FromLines text chunk) {line : Text}
    (hline : (splitLines text)[chunk.startLine - 1]? = some line) :
    ∃ rest, linesOf (splitLines text) chunk.startLine chunk.endLine = line :: rest := by
  have hfirst := h.first
  have hlast := h.last
  unfold linesOf
  have hget : ((splitLines text).take chunk.endLine)[chunk.startLine - 1]? = some line := by
    rw [List.getElem?_take, if_pos (by omega), hline]
  obtain ⟨hlt, hat⟩ := List.getElem?_eq_some_iff.mp hget
  exact ⟨_, by rw [List.drop_eq_getElem_cons hlt, hat]⟩

/-- **A chunk whose first line is not blank cites what it shows**, for every query. -/
theorem FromLines.cites (h : FromLines text chunk) (hshown : FirstLineShown text chunk)
    (lower : Text → Text) (queryTokens : List Text) : Cites lower queryTokens text chunk := by
  obtain ⟨line, hline, hblank⟩ := hshown
  obtain ⟨rest, hlines⟩ := h.lines_cons hline
  obtain ⟨body, hjoins, hcontent⟩ := h.content
  have hfeed := newline_notMem_linesOf text chunk.startLine chunk.endLine
  rw [hlines] at hjoins hfeed
  have hne : chunk.content ≠ [] := by
    rw [hcontent]
    intro hnone
    rw [strip_eq_nil_iff] at hnone
    exact hblank ((strip_eq_nil_iff line).mpr fun c hc =>
      hnone c (hjoins.mem List.mem_cons_self hc))
  have hoccur : ∀ j, OccurIn ((splitlines chunk.content).take j) ((line :: rest).take j) := by
    rw [hcontent]
    exact occurIn_content hjoins hfeed hblank
  obtain ⟨hspan, hstart⟩ := boundedSnippet_occurIn lower queryTokens hne hoccur
  unfold Cites
  rw [h.searchResult_lines hstart, hlines]
  exact hspan

/-! ## Where it does not cite what it shows -/

/-- The number of characters that are not blank. -/
def ink (t : Text) : ℕ := t.countP fun c => !isSpace c

def inks (texts : List Text) : ℕ := (texts.map ink).sum

theorem ink_append (s t : Text) : ink (s ++ t) = ink s + ink t := List.countP_append

theorem ink_eq_zero_iff (t : Text) : ink t = 0 ↔ strip t = [] := by
  unfold ink
  rw [strip_eq_nil_iff, List.countP_eq_zero]
  simp

theorem ink_strip (t : Text) : ink (strip t) = ink t := by
  have hdrop : ∀ t : Text, ink (t.dropWhile isSpace) = ink t := by
    intro t
    have hblank : ink (t.takeWhile isSpace) = 0 := by
      unfold ink
      rw [List.countP_eq_zero]
      intro c hc
      simp [List.mem_takeWhile_imp hc]
    have happend := ink_append (t.takeWhile isSpace) (t.dropWhile isSpace)
    rw [List.takeWhile_append_dropWhile] at happend
    omega
  have hreverse : ∀ t : Text, ink t.reverse = ink t := fun t => List.countP_reverse
  unfold strip
  rw [hreverse, hdrop, hreverse, hdrop]

theorem isSpace_of_isLineBreak {c : Char} (h : isLineBreak c = true) : isSpace c = true := by
  unfold isLineBreak at h
  unfold isSpace
  simp only [Bool.or_eq_true, Bool.and_eq_true, decide_eq_true_eq, beq_iff_eq] at h ⊢
  omega

theorem ink_cons (c : Char) (t : Text) : ink (c :: t) = ink [c] + ink t := ink_append [c] t

theorem ink_reverse (t : Text) : ink t.reverse = ink t := List.countP_reverse

theorem ink_lineBreak {c : Char} (h : isLineBreak c = true) : ink [c] = 0 := by
  rw [ink_eq_zero_iff, strip_eq_nil_iff]
  intro d hd
  rw [List.mem_singleton.mp hd]
  exact isSpace_of_isLineBreak h

theorem inks_splitlinesAux (cur content : Text) :
    inks (splitlinesAux cur content) = ink cur + ink content := by
  fun_induction splitlinesAux cur content with
  | case1 => rfl
  | case2 cur hcur =>
    show ink cur.reverse + 0 = ink cur + 0
    rw [ink_reverse]
  | case3 cur s ih =>
    show ink cur.reverse + inks (splitlinesAux [] s) = ink cur + ink ('\r' :: '\n' :: s)
    rw [ih, ink_reverse, ink_cons, ink_cons '\n', ink_lineBreak (by decide),
      ink_lineBreak (by decide)]
    show ink cur + (0 + ink s) = ink cur + (0 + (0 + ink s))
    omega
  | case4 cur c s _ hbreak ih =>
    show ink cur.reverse + inks (splitlinesAux [] s) = ink cur + ink (c :: s)
    rw [ih, ink_reverse, ink_cons c, ink_lineBreak hbreak]
    rfl
  | case5 cur c s _ _ ih =>
    rw [ih, ink_cons c cur, ink_cons c s]
    omega

theorem Joins.ink_eq {lines : List Text} {body : Text} (h : Joins lines body) :
    ink body = inks lines := by
  induction h with
  | nil => rfl
  | last line => rfl
  | lf line _ ih =>
    rw [ink_append, ink_cons, ink_lineBreak (by decide), ih, Nat.zero_add]
    rfl
  | crlf line _ ih =>
    rw [ink_append, ink_cons, ink_cons '\n', ink_lineBreak (by decide),
      ink_lineBreak (by decide), ih, Nat.zero_add, Nat.zero_add]
    rfl

theorem OccurIn.inks_le {texts lines : List Text} (h : OccurIn texts lines) :
    inks texts ≤ inks lines := by
  induction h with
  | nil => exact Nat.zero_le _
  | @here before text after texts lines _ ih =>
    show ink text + inks texts ≤ ink (before ++ text ++ after) + inks lines
    rw [ink_append, ink_append]
    have hrest : inks texts ≤ ink after + inks lines := ih
    omega
  | @next line texts lines _ ih =>
    show inks texts ≤ ink line + inks lines
    omega

theorem rstrip_append {s t : Text} (h : ink t ≠ 0) : rstrip (s ++ t) = s ++ rstrip t := by
  unfold rstrip
  rw [List.reverse_append, List.dropWhile_append, if_neg, List.reverse_append,
    List.reverse_reverse]
  intro hnone
  rw [List.isEmpty_iff, List.dropWhile_eq_nil_iff] at hnone
  exact h ((ink_eq_zero_iff t).mpr ((strip_eq_nil_iff t).mpr fun c hc =>
    hnone c (List.mem_reverse.mpr hc)))

theorem rstrip_append_blank {s t : Text} (h : ink t = 0) : rstrip (s ++ t) = rstrip s := by
  unfold rstrip
  rw [List.reverse_append, List.dropWhile_append_of_pos]
  intro c hc
  exact (strip_eq_nil_iff t).mp ((ink_eq_zero_iff t).mp h) c (List.mem_reverse.mp hc)

theorem count_rstrip_line {line : Text} (h : '\n' ∉ line) : (rstrip line).count '\n' = 0 :=
  List.count_eq_zero.mpr fun hin => h ((rstrip_isPrefix line).subset hin)

/-- Before blank lines a text has no more line feeds than lines. -/
theorem Joins.count_rstrip {lines : List Text} {body : Text} (h : Joins lines body)
    (hfeed : ∀ l ∈ lines, '\n' ∉ l) :
    ∀ m, inks (lines.drop (m + 1)) = 0 → (rstrip body).count '\n' ≤ m := by
  have hround : ∀ (breaks line text : Text) (lines : List Text) (m : ℕ),
      breaks.count '\n' = 1 → ink breaks = 0 → '\n' ∉ line → ink text = inks lines →
      (∀ m, inks (lines.drop (m + 1)) = 0 → (rstrip text).count '\n' ≤ m) →
      inks (lines.drop m) = 0 → (rstrip (line ++ (breaks ++ text))).count '\n' ≤ m := by
    intro breaks line text lines m hbreaks hblank hline hink ih hdrop
    by_cases hnone : ink text = 0
    · rw [rstrip_append_blank (by rw [ink_append]; omega), count_rstrip_line hline]
      exact Nat.zero_le _
    · cases m with
      | zero =>
        rw [List.drop_zero] at hdrop
        omega
      | succ m =>
        have hrest := ih m hdrop
        rw [rstrip_append (by rw [ink_append]; omega), rstrip_append hnone, List.count_append,
          List.count_append, List.count_eq_zero.mpr hline, hbreaks]
        omega
  induction h with
  | nil => exact fun m _ => Nat.zero_le m
  | last line =>
    intro m _
    rw [count_rstrip_line (hfeed line List.mem_cons_self)]
    exact Nat.zero_le m
  | lf line h ih =>
    intro m hdrop
    exact hround ['\n'] line _ _ m (by decide) (by decide) (hfeed line List.mem_cons_self) h.ink_eq
      (ih fun l hl => hfeed l (List.mem_cons_of_mem _ hl)) hdrop
  | crlf line h ih =>
    intro m hdrop
    exact hround ['\r', '\n'] line _ _ m (by decide) (by decide) (hfeed line List.mem_cons_self)
      h.ink_eq (ih fun l hl => hfeed l (List.mem_cons_of_mem _ hl)) hdrop

/-- A content that a snippet shows whole, with line feeds for its only line breaks. -/
structure ShownWhole (content : Text) : Prop where
  lines : (splitlines content).length ≤ maxLines
  chars : (joinLines (splitlines content)).length ≤ maxChars
  plain : (splitlines content).length = content.count '\n' + 1

theorem ShownWhole.snippet {content : Text} (h : ShownWhole content) (lower : Text → Text)
    (queryTokens : List Text) :
    (boundedSnippet lower content queryTokens).lines = splitlines content ∧
      (boundedSnippet lower content queryTokens).spanStart = 0 ∧
      (boundedSnippet lower content queryTokens).spanEnd + 1 = (splitlines content).length := by
  have htotal : 0 < (splitlines content).length := by
    have hplain := h.plain
    omega
  have hpieces : splitlines content ≠ [] := List.ne_nil_of_length_pos htotal
  have hfeed : ∀ l ∈ splitlines content, '\n' ∉ l :=
    newline_notMem_pieces [] content List.not_mem_nil
  -- a match is in the first ten lines
  have hhead : (matchIdx lower queryTokens (splitlines content)).filter
      (fun found => maxLines ≤ found) = none := by
    rw [Option.filter_eq_none_iff]
    intro found hfound
    have hlt : found < (splitlines content).length :=
      (List.findIdx?_eq_some_iff_getElem.mp hfound).1
    have hlines := h.lines
    rw [decide_eq_true_eq]
    omega
  have hall : min maxLines (splitlines content).length = (splitlines content).length :=
    Nat.min_eq_right h.lines
  unfold boundedSnippet
  dsimp only
  rw [if_neg hpieces, hhead]
  dsimp only
  rw [hall, List.take_length, if_neg (Nat.not_lt.mpr h.chars), if_neg (Nat.not_lt.mpr h.lines)]
  refine ⟨splitOn1_intercalate _ _ hpieces hfeed, rfl, ?_⟩
  dsimp only
  omega

theorem strip_append_blank {s t : Text} (h : ink s = 0) : strip (s ++ t) = strip t := by
  unfold strip
  rw [List.dropWhile_append_of_pos ((strip_eq_nil_iff s).mp ((ink_eq_zero_iff s).mp h))]

theorem count_strip_le (t : Text) : (strip t).count '\n' ≤ (rstrip t).count '\n' := by
  by_cases hnone : ink t = 0
  · rw [(ink_eq_zero_iff t).mp hnone]
    exact Nat.zero_le _
  · have hdrop : ink (t.dropWhile isSpace) ≠ 0 := by
      intro hzero
      have hsplit := ink_append (t.takeWhile isSpace) (t.dropWhile isSpace)
      rw [List.takeWhile_append_dropWhile] at hsplit
      have hblank : ink (t.takeWhile isSpace) = 0 := (ink_eq_zero_iff _).mpr
        ((strip_eq_nil_iff _).mpr fun c hc => List.mem_takeWhile_imp hc)
      omega
    have hstrip : strip t = rstrip (t.dropWhile isSpace) := rfl
    have happend : rstrip t = t.takeWhile isSpace ++ rstrip (t.dropWhile isSpace) := by
      rw [← rstrip_append hdrop, List.takeWhile_append_dropWhile]
    rw [hstrip, happend, List.count_append]
    omega

/-- A content without its first line, which is blank, and without blank lines at its end. -/
theorem Joins.count_strip {line body : Text} {lines : List Text} (h : Joins (line :: lines) body)
    (hfeed : ∀ l ∈ line :: lines, '\n' ∉ l) (hline : ink line = 0) {m : ℕ}
    (hdrop : inks (lines.drop (m + 1)) = 0) : (strip body).count '\n' ≤ m := by
  have hround : ∀ (breaks text : Text), ink breaks = 0 → Joins lines text →
      (strip (line ++ (breaks ++ text))).count '\n' ≤ m := by
    intro breaks text hbreaks hjoins
    rw [strip_append_blank hline, strip_append_blank hbreaks]
    exact (count_strip_le text).trans
      (hjoins.count_rstrip (fun l hl => hfeed l (List.mem_cons_of_mem _ hl)) m hdrop)
  cases h with
  | last =>
    rw [(ink_eq_zero_iff line).mp hline]
    exact Nat.zero_le m
  | lf _ h => exact hround ['\n'] _ (by decide) h
  | crlf _ h => exact hround ['\r', '\n'] _ (by decide) h

/-- **A chunk that is shown whole cites what it shows only if its first line is not blank.** -/
theorem FromLines.firstLineShown (h : FromLines text chunk) (hwhole : ShownWhole chunk.content)
    {lower : Text → Text} {queryTokens : List Text} (hcites : Cites lower queryTokens text chunk) :
    FirstLineShown text chunk := by
  obtain ⟨hshown, hstart, hend⟩ := hwhole.snippet lower queryTokens
  obtain ⟨body, hjoins, hcontent⟩ := h.content
  have hfeed := newline_notMem_linesOf text chunk.startLine chunk.endLine
  have hplain := hwhole.plain
  have hsnippet : (searchResult lower queryTokens chunk).snippet =
      boundedSnippet lower chunk.content queryTokens := rfl
  unfold Cites at hcites
  rw [h.searchResult_lines hstart, hend, hsnippet, hshown] at hcites
  have hsome : ink chunk.content ≠ 0 := by
    intro hzero
    have hnone : chunk.content = [] := by
      rw [hcontent, ← ink_eq_zero_iff, ← ink_strip, ← hcontent]
      exact hzero
    rw [hnone] at hplain
    cases hplain
  -- all that is shown is on the first lines, so the lines after them are blank
  have hinks : ink chunk.content = inks (linesOf (splitLines text) chunk.startLine
      chunk.endLine) := by
    rw [hcontent, ink_strip, hjoins.ink_eq]
  have hle := hcites.inks_le
  have hpieces : inks (splitlines chunk.content) = ink chunk.content :=
    (inks_splitlinesAux [] chunk.content).trans (Nat.zero_add _)
  generalize hlines : linesOf (splitLines text) chunk.startLine chunk.endLine = lines
    at hjoins hfeed hle hinks
  have hsplit : inks lines = inks (lines.take (splitlines chunk.content).length) +
      inks (lines.drop (splitlines chunk.content).length) := by
    have happend : ∀ a b : List Text, inks (a ++ b) = inks a + inks b := by
      intro a b
      unfold inks
      rw [List.map_append, List.sum_append]
    rw [← happend, List.take_append_drop]
  cases lines with
  | nil =>
    cases hjoins
    exact absurd hinks hsome
  | cons line rest =>
    have hget : (splitLines text)[chunk.startLine - 1]? = some line := by
      have hfirst : (linesOf (splitLines text) chunk.startLine chunk.endLine)[0]? = some line := by
        rw [hlines]
        rfl
      unfold linesOf at hfirst
      rw [List.getElem?_drop, Nat.add_zero, List.getElem?_take] at hfirst
      split at hfirst
      · exact hfirst
      · cases hfirst
    refine ⟨line, hget, fun hblank => ?_⟩
    have hline : ink line = 0 := (ink_eq_zero_iff line).mpr hblank
    have hcons : inks (line :: rest) = ink line + inks rest := rfl
    rw [hplain] at hle
    rw [hplain, List.drop_succ_cons] at hsplit
    cases hcount : chunk.content.count '\n' with
    | zero =>
      rw [hcount] at hle hsplit
      rw [List.drop_zero] at hsplit
      omega
    | succ m =>
      rw [hcount] at hle hsplit
      have hdrop : inks (rest.drop (m + 1)) = 0 := by omega
      have hfew := hjoins.count_strip hfeed hline hdrop
      rw [← hcontent] at hfew
      omega

end

/-- **Search results cite what they show**: every chunk whose first line is not blank does, for
every query, and of the chunks shown whole no other. -/
theorem searchResult_cites (host : Host) (source : SourceRecord) (text relativePath : Text)
    (chunk : ChunkRecord) (h : Indexed host source text relativePath chunk) :
    (FirstLineShown text chunk →
      ∀ queryTokens, Cites host.lower queryTokens text chunk) ∧
    (ShownWhole chunk.content →
      ∀ queryTokens, Cites host.lower queryTokens text chunk ↔ FirstLineShown text chunk) :=
  ⟨fun hshown queryTokens => h.fromLines.cites hshown host.lower queryTokens,
    fun hwhole queryTokens => ⟨h.fromLines.firstLineShown hwhole,
      fun hshown => h.fromLines.cites hshown host.lower queryTokens⟩⟩

/-! ## Blank lines at the start of a file -/

def blankStart : Text := "\n\n\nx = 1".toList

/-- The one chunk of the file. -/
def blankStartChunk : ChunkRecord :=
  chunkRecord sampleHost (sampleSource "a.py".toList) "L1-L4".toList blankStart "python".toList
    "a.py#L1-L4".toList 1 4 [] "a.py".toList [] []

theorem blankStart_indexed : Indexed sampleHost (sampleSource "a.py".toList) blankStart
    "a.py".toList blankStartChunk :=
  Or.inr (Or.inl (by decide +kernel))

theorem blankStart_shownWhole : ShownWhole blankStartChunk.content :=
  ⟨by decide, by decide, by decide⟩

theorem blankStart_not_firstLineShown : ¬ FirstLineShown blankStart blankStartChunk := by
  rintro ⟨line, hline, hblank⟩
  cases hline
  exact hblank rfl

/-- The chunk shows its fourth line and cites its first. -/
theorem fourth_line_cited_as_first : ¬ ∀ (host : Host) (source : SourceRecord)
    (text relativePath : Text) (chunk : ChunkRecord), Indexed host source text relativePath chunk →
      ∀ queryTokens, Cites host.lower queryTokens text chunk := by
  intro h
  have hcites := h _ _ _ _ _ blankStart_indexed []
  exact blankStart_not_firstLineShown
    (blankStart_indexed.fromLines.firstLineShown blankStart_shownWhole hcites)

theorem blankStart_cites_iff : Cites sampleHost.lower ["x".toList] blankStart blankStartChunk ↔
    FirstLineShown blankStart blankStartChunk :=
  (searchResult_cites _ _ _ _ _ blankStart_indexed).2 blankStart_shownWhole ["x".toList]

end Agentrail.Chunks
