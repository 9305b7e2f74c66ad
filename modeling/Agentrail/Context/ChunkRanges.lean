import Agentrail.Context.Chunks
import Mathlib.Data.List.ReduceOption
import Mathlib.Data.List.TakeWhile

/-!
# Chunking loses no text

The ranges of a file's chunks are in order and apart, hold every line that is not blank, and the
content of a chunk is the text of its lines (`Ranges`).  Each chunker adds a chunk right after the
last line accounted for, or leaves blank lines out (`Ranges.add`, `Ranges.skip`).
-/

namespace Agentrail.Chunks

open Py Regex

/-! ## Blank texts -/

theorem strip_eq_nil_iff (t : Text) : strip t = [] ↔ ∀ c ∈ t, isSpace c = true := by
  unfold strip
  rw [List.reverse_eq_nil_iff, List.dropWhile_eq_nil_iff]
  constructor
  · intro h
    have hnone : t.dropWhile isSpace = [] := by
      by_contra hne
      have hhead := List.head_dropWhile_not isSpace hne
      rw [h _ (List.mem_reverse.mpr (List.head_mem hne))] at hhead
      cases hhead
    exact List.dropWhile_eq_nil_iff.mp hnone
  · intro h c hc
    exact h c ((List.dropWhile_sublist _).mem (List.mem_reverse.mp hc))

/-- A character of the joined lines is a line feed or in one of them. -/
theorem mem_joinLines {c : Char} {lines : List Text} :
    c ∈ joinLines lines → c = '\n' ∨ ∃ line ∈ lines, c ∈ line := by
  unfold joinLines
  induction lines with
  | nil => exact fun h => absurd h List.not_mem_nil
  | cons line lines ih =>
    intro h
    cases lines with
    | nil =>
      rw [List.intercalate_singleton] at h
      exact Or.inr ⟨line, List.mem_singleton_self _, h⟩
    | cons next lines =>
      rw [List.intercalate_cons_cons] at h
      rcases List.mem_append.mp h with h | h
      · rcases List.mem_append.mp h with h | h
        · exact Or.inr ⟨line, List.mem_cons_self, h⟩
        · exact Or.inl (List.mem_singleton.mp h)
      · rcases ih h with hfeed | ⟨other, hin, hc⟩
        · exact Or.inl hfeed
        · exact Or.inr ⟨other, List.mem_cons_of_mem _ hin, hc⟩

/-! ## Lines and the text they come from -/

/-- The text is that of the lines, with a line break between each two. -/
inductive Joins : List Text → Text → Prop where
  | nil : Joins [] []
  | last (line : Text) : Joins [line] line
  | lf (line : Text) {next : Text} {lines : List Text} {text : Text} :
      Joins (next :: lines) text → Joins (line :: next :: lines) (line ++ '\n' :: text)
  | crlf (line : Text) {next : Text} {lines : List Text} {text : Text} :
      Joins (next :: lines) text → Joins (line :: next :: lines) (line ++ '\r' :: '\n' :: text)

theorem joins_joinLines (lines : List Text) : Joins lines (joinLines lines) := by
  unfold joinLines
  induction lines with
  | nil => exact .nil
  | cons line lines ih =>
    cases lines with
    | nil =>
      rw [List.intercalate_singleton]
      exact .last line
    | cons next lines =>
      rw [List.intercalate_cons_cons, List.append_assoc]
      exact .lf line ih

theorem Joins.mem {lines : List Text} {text : Text} (h : Joins lines text) {line : Text}
    (hline : line ∈ lines) {c : Char} (hc : c ∈ line) : c ∈ text := by
  induction h with
  | nil => cases hline
  | last => rwa [← List.mem_singleton.mp hline]
  | lf first _ ih =>
    rcases List.mem_cons.mp hline with rfl | hline
    · exact List.mem_append_left _ hc
    · exact List.mem_append_right _ (List.mem_cons_of_mem _ (ih hline))
  | crlf first _ ih =>
    rcases List.mem_cons.mp hline with rfl | hline
    · exact List.mem_append_left _ hc
    · exact List.mem_append_right _ (List.mem_cons_of_mem _ (List.mem_cons_of_mem _ (ih hline)))

theorem joins_splitLinesAux (cur text : Text) :
    ∃ line lines, splitLinesAux cur text = (cur.reverse ++ line) :: lines ∧
      Joins (line :: lines) text := by
  fun_induction splitLinesAux cur text with
  | case1 cur => exact ⟨[], [], by rw [List.append_nil], .last []⟩
  | case2 cur rest ih =>
    obtain ⟨line, lines, hlines, hjoins⟩ := ih
    exact ⟨[], line :: lines, by rw [List.append_nil, hlines]; rfl, .crlf [] hjoins⟩
  | case3 cur rest hcrlf ih =>
    obtain ⟨line, lines, hlines, hjoins⟩ := ih
    exact ⟨[], line :: lines, by rw [List.append_nil, hlines]; rfl, .lf [] hjoins⟩
  | case4 cur c rest hcrlf hc ih =>
    obtain ⟨line, lines, hlines, hjoins⟩ := ih
    refine ⟨c :: line, lines, ?_, ?_⟩
    · rw [hlines, List.reverse_cons, List.append_assoc]
      rfl
    · cases hjoins with
      | last => exact .last _
      | lf _ h => exact .lf (c :: line) h
      | crlf _ h => exact .crlf (c :: line) h

theorem joins_splitLines (text : Text) : Joins (splitLines text) text := by
  obtain ⟨line, lines, hlines, hjoins⟩ := joins_splitLinesAux [] text
  unfold splitLines
  rw [hlines]
  exact hjoins

theorem blank_splitLines {text : Text} (h : strip text = []) :
    strip (joinLines (splitLines text)) = [] := by
  rw [strip_eq_nil_iff] at h ⊢
  intro c hc
  rcases mem_joinLines hc with rfl | ⟨line, hline, hc⟩
  · rfl
  · exact h c ((joins_splitLines text).mem hline hc)

/-- Without a carriage return the lines make up the text. -/
theorem Joins.eq_joinLines {lines : List Text} {text : Text} (h : Joins lines text)
    (hreturn : '\r' ∉ text) : joinLines lines = text := by
  unfold joinLines
  induction h with
  | nil => rfl
  | last line => exact List.intercalate_singleton
  | lf line _ ih =>
    rw [List.mem_append, not_or] at hreturn
    rw [List.intercalate_cons_cons, ih fun hin => hreturn.2 (List.mem_cons_of_mem _ hin),
      List.append_assoc]
    rfl
  | crlf line _ ih =>
    exact absurd (List.mem_append_right _ List.mem_cons_self) hreturn

/-! ## Ranges -/

/-- The chunks keep the lines up to one: their ranges are in order and apart, each line that is not
blank is in one of them, and each content is that of its lines. -/
structure Ranges (lines : List Text) (chunks : List ChunkRecord) (upTo : ℕ) : Prop where
  apart : chunks.Pairwise fun a b => a.endLine < b.startLine
  bounds : ∀ chunk ∈ chunks, 1 ≤ chunk.startLine ∧ chunk.startLine ≤ chunk.endLine ∧
    chunk.endLine ≤ upTo
  cover : ∀ i < upTo, ∀ line, lines[i]? = some line → strip line ≠ [] →
    ∃ chunk ∈ chunks, chunk.startLine ≤ i + 1 ∧ i + 1 ≤ chunk.endLine
  content : ∀ chunk ∈ chunks,
    chunk.content = strip (joinLines (linesOf lines chunk.startLine chunk.endLine))

variable {lines : List Text} {chunks : List ChunkRecord} {first upTo last : ℕ}

theorem Ranges.nil (lines : List Text) : Ranges lines [] 0 :=
  ⟨List.Pairwise.nil, nofun, fun i hi => absurd hi (Nat.not_lt_zero i), nofun⟩

theorem mem_linesOf {i : ℕ} {line : Text} (hline : lines[i]? = some line) (hfirst : first ≤ i + 1)
    (hlast : i < last) : line ∈ linesOf lines first last := by
  have hget : ((lines.take last).drop (first - 1))[i - (first - 1)]? = some line := by
    rw [List.getElem?_drop, Nat.add_sub_cancel' (by omega), List.getElem?_take, if_pos hlast,
      hline]
  exact List.mem_of_getElem? hget

/-- The lines of a blank text are blank. -/
theorem blank_of_mem {ls : List Text} (h : strip (joinLines ls) = []) {line : Text}
    (hline : line ∈ ls) : strip line = [] := by
  rw [strip_eq_nil_iff] at h ⊢
  exact fun c hc => h c ((joins_joinLines ls).mem hline hc)

/-- A range that is not blank has a line. -/
theorem lt_of_not_blank (h : strip (joinLines (linesOf lines first last)) ≠ []) :
    first - 1 < last ∧ first - 1 < lines.length := by
  by_contra hnot
  apply h
  have hnone : linesOf lines first last = [] := by
    unfold linesOf
    rw [List.drop_eq_nil_iff, List.length_take]
    omega
  rw [hnone]
  rfl

/-- A chunk after the last line accounted for. -/
theorem Ranges.add (h : Ranges lines chunks upTo) {chunk : ChunkRecord}
    (hstart : chunk.startLine = upTo + 1) (hend : upTo < chunk.endLine)
    (hcontent : chunk.content =
      strip (joinLines (linesOf lines chunk.startLine chunk.endLine))) :
    Ranges lines (chunks ++ [chunk]) chunk.endLine where
  apart := by
    refine List.pairwise_append.mpr ⟨h.apart, List.pairwise_singleton _ _, fun a ha b hb => ?_⟩
    rw [List.mem_singleton.mp hb, hstart]
    have hbound := (h.bounds a ha).2.2
    omega
  bounds c hc := by
    rcases List.mem_append.mp hc with hc | hc
    · have hbound := h.bounds c hc
      omega
    · rw [List.mem_singleton.mp hc]
      omega
  cover i hi line hline hblank := by
    by_cases hold : i < upTo
    · obtain ⟨c, hc, hrange⟩ := h.cover i hold line hline hblank
      exact ⟨c, List.mem_append_left _ hc, hrange⟩
    · exact ⟨chunk, List.mem_append_right _ (List.mem_singleton_self _), by omega, by omega⟩
  content c hc := by
    rcases List.mem_append.mp hc with hc | hc
    · exact h.content c hc
    · rw [List.mem_singleton.mp hc]
      exact hcontent

/-- Blank lines after the last line accounted for. -/
theorem Ranges.skip (h : Ranges lines chunks upTo) (hle : upTo ≤ last)
    (hblank : strip (joinLines (linesOf lines (upTo + 1) last)) = []) :
    Ranges lines chunks last where
  apart := h.apart
  bounds c hc := by
    have hbound := h.bounds c hc
    omega
  cover i hi line hline hline' := by
    by_cases hold : i < upTo
    · exact h.cover i hold line hline hline'
    · exact absurd (blank_of_mem hblank (mem_linesOf hline (by omega) hi)) hline'
  content := h.content

section
variable {host : Host} {source : SourceRecord}

/-! ## Markdown -/

/-- The lines accounted for before a line: all of them before a heading, and those before the open
section otherwise. -/
structure Cut (lines done : List Text) (sections : Sections) : Prop where
  outside : sections.current = none → sections.chunks = []
  inside : ∀ current, sections.current = some current →
    1 ≤ current.startLine ∧ current.startLine ≤ done.length ∧
      Ranges lines sections.chunks (current.startLine - 1)

variable {done : List Text} {sections : Sections}

/-- The open section is closed before a line. -/
theorem Cut.close {current : Current} (h : Cut lines done sections)
    (hcurrent : sections.current = some current) :
    Ranges lines (closeCurrent host source lines done.length sections).chunks done.length := by
  obtain ⟨hfirst, hlast, hranges⟩ := h.inside current hcurrent
  rw [closeCurrent_some host source hcurrent]
  refine hranges.add ?_ ?_ rfl
  · show current.startLine = current.startLine - 1 + 1
    omega
  · show current.startLine - 1 < done.length
    omega

theorem Cut.closed (h : Cut lines done sections) :
    Ranges lines (addPreamble host source lines done.length
      (closeCurrent host source lines done.length sections)).chunks done.length := by
  cases hcurrent : sections.current with
  | none =>
    rw [addPreamble_none host source hcurrent (h.outside hcurrent)]
    by_cases hblank : strip (joinLines (lines.take done.length)) = []
    · rw [if_pos hblank]
      exact (Ranges.nil lines).skip (Nat.zero_le _) hblank
    · rw [if_neg hblank]
      have hlines : 0 < done.length := (lt_of_not_blank (show strip (joinLines
        (linesOf lines 1 done.length)) ≠ [] from hblank)).1
      have hranges : Ranges lines ([] ++ [preambleChunk host source lines done.length])
          done.length := (Ranges.nil lines).add rfl hlines rfl
      exact hranges
  | some current =>
    rw [addPreamble_some host source hcurrent]
    exact h.close hcurrent

theorem Cut.round {line : Text} (h : Cut lines done sections) :
    Cut lines (done ++ [line]) (sectionRound host source lines sections (line, done.length)) := by
  have hlength : (done ++ [line]).length = done.length + 1 := List.length_append
  cases hline : headingOf line with
  | none =>
    have hsame : sectionRound host source lines sections (line, done.length) = sections := by
      unfold sectionRound
      rw [hline]
    rw [hsame]
    refine ⟨h.outside, fun current hcurrent => ?_⟩
    obtain ⟨hfirst, hlast, hranges⟩ := h.inside current hcurrent
    exact ⟨hfirst, by omega, hranges⟩
  | some found =>
    have hclosed : Ranges lines (addPreamble host source lines done.length
      (closeCurrent host source lines done.length sections)).chunks done.length := h.closed
    unfold sectionRound
    rw [hline]
    refine ⟨nofun, fun current hcurrent => ?_⟩
    cases hcurrent
    exact ⟨Nat.le_add_left _ _, by rw [hlength], hclosed⟩

/-- The line ranges of a markdown file, and the content of its one chunk where it has no heading. -/
theorem markdownChunks_cases (text : Text) :
    Ranges (splitLines text) (markdownChunks host source text) (splitLines text).length ∨
      ∃ chunk, markdownChunks host source text = [chunk] ∧ chunk.startLine = 1 ∧
        chunk.endLine = (splitLines text).length ∧ chunk.content = strip text := by
  have hrun := foldl_sectionRound host source (splitLines text) (Cut (splitLines text))
    ⟨fun _ => rfl, nofun⟩ fun _ _ _ _ _ h => h.round
  unfold markdownChunks
  dsimp only
  generalize (splitLines text).zipIdx.foldl _ _ = sections at hrun
  cases hcurrent : sections.current with
  | none =>
    rw [closeCurrent_none host source hcurrent, hrun.outside hcurrent]
    by_cases hblank : strip text = []
    · rw [if_neg fun h => h.2 hblank]
      refine Or.inl ((Ranges.nil _).skip (Nat.zero_le _) ?_)
      show strip (joinLines ((splitLines text).take (splitLines text).length)) = []
      rw [List.take_length]
      exact blank_splitLines hblank
    · rw [if_pos ⟨rfl, hblank⟩]
      exact Or.inr ⟨_, rfl, rfl, rfl, rfl⟩
  | some current =>
    have hranges : Ranges (splitLines text) (closeCurrent host source (splitLines text)
      (splitLines text).length sections).chunks (splitLines text).length := hrun.close hcurrent
    have hsome : (closeCurrent host source (splitLines text) (splitLines text).length
        sections).chunks ≠ [] := by
      rw [closeCurrent_some host source hcurrent]
      exact List.append_ne_nil_of_right_ne_nil _ (List.cons_ne_nil _ _)
    rw [if_neg fun h => hsome h.1]
    exact Or.inl hranges

/-! ## Windows of lines -/

theorem codeChunks_ranges (text relativePath : Text) :
    Ranges (splitLines text) (codeChunks host source text relativePath)
      (splitLines text).length := by
  have hrun : ∀ windows, windows ≤ ((splitLines text).length + 79) / 80 →
      Ranges (splitLines text)
        (((List.range windows).map fun window => window * 80 + 1).filterMap
          (windowChunk host source text relativePath))
        (min (splitLines text).length (windows * 80)) := by
    intro windows
    induction windows with
    | zero =>
      intro _
      rw [Nat.zero_mul, Nat.min_zero]
      exact Ranges.nil _
    | succ windows ih =>
      intro hle
      have h := ih (by omega)
      have hbefore : min (splitLines text).length (windows * 80) = windows * 80 := by omega
      have hafter : min (splitLines text).length (windows * 80 + 1 + 79) =
          min (splitLines text).length ((windows + 1) * 80) := by omega
      rw [hbefore] at h
      rw [List.range_succ, List.map_append, List.filterMap_append]
      show Ranges _ (_ ++ [windows * 80 + 1].filterMap (windowChunk host source text relativePath))
        _
      unfold windowChunk
      dsimp only
      rw [List.filterMap_cons, List.filterMap_nil, hafter]
      by_cases hblank : strip (joinLines (linesOf (splitLines text) (windows * 80 + 1)
          (min (splitLines text).length ((windows + 1) * 80)))) = []
      · rw [if_pos hblank]
        dsimp only
        rw [List.append_nil]
        exact h.skip (by omega) hblank
      · rw [if_neg hblank]
        exact h.add rfl (show windows * 80 < min _ _ by omega) rfl
  have hall := hrun (((splitLines text).length + 79) / 80) (Nat.le_refl _)
  have hlast : min (splitLines text).length (((splitLines text).length + 79) / 80 * 80) =
      (splitLines text).length := by omega
  rw [hlast] at hall
  exact hall

/-! ## Symbols -/

/-- The chunk of a symbol, or the blank lines in its place. -/
theorem Ranges.symbol {text relativePath : Text} {sym : Symbol}
    (h : Ranges (splitLines text) chunks (sym.line - 1)) (hle : sym.line - 1 ≤ last) :
    Ranges (splitLines text)
      (chunks ++ (symbolChunk host source text relativePath sym last).toList) last := by
  have hline : sym.line = sym.line - 1 + 1 := rfl
  unfold symbolChunk
  dsimp only
  by_cases hblank : strip (joinLines (linesOf (splitLines text) sym.line last)) = []
  · rw [if_pos hblank]
    dsimp only [Option.toList]
    rw [List.append_nil]
    exact h.skip hle hblank
  · rw [if_neg hblank]
    exact h.add hline (lt_of_not_blank hblank).1 rfl

theorem reduceOption_cons {α : Type} (a : Option α) (as : List (Option α)) :
    (a :: as).reduceOption = a.toList ++ as.reduceOption := by
  cases a <;> rfl

theorem symbolChunks_ranges {text relativePath : Text} (symbols : List Symbol) :
    ∀ (sym : Symbol) (chunks : List ChunkRecord),
    (sym :: symbols).Pairwise (fun a b => a.line ≤ b.line) →
    Ranges (splitLines text) chunks (sym.line - 1) →
    ∃ upTo, Ranges (splitLines text)
        (chunks ++ (symbolChunks host source text relativePath (sym :: symbols)).reduceOption)
        upTo ∧ (splitLines text).length ≤ upTo ∧
      ((∀ s ∈ sym :: symbols, s.line ≤ (splitLines text).length) →
        upTo = (splitLines text).length) := by
  induction symbols with
  | nil =>
    intro sym chunks _ h
    show ∃ upTo, Ranges _ (chunks ++
      [symbolChunk host source text relativePath sym (splitLines text).length].reduceOption) upTo ∧
        _ ∧ _
    rw [List.reduceOption_singleton]
    by_cases hin : sym.line - 1 ≤ (splitLines text).length
    · exact ⟨_, h.symbol hin, Nat.le_refl _, fun _ => rfl⟩
    · -- a symbol after the last line has no lines
      have hnone : symbolChunk host source text relativePath sym (splitLines text).length =
          none := by
        unfold symbolChunk
        apply if_pos
        by_contra hblank
        have hlt := (lt_of_not_blank hblank).2
        omega
      rw [hnone, Option.toList_none, List.append_nil]
      refine ⟨_, h, by omega, fun hall => ?_⟩
      have hline := hall sym List.mem_cons_self
      omega
  | cons next symbols ih =>
    intro sym chunks hsorted h
    obtain ⟨hsym, hrest⟩ := List.pairwise_cons.mp hsorted
    have hnext := hsym next List.mem_cons_self
    have hchunk : Ranges (splitLines text)
        (chunks ++ (symbolChunk host source text relativePath sym (next.line - 1)).toList)
        (next.line - 1) := h.symbol (by omega)
    obtain ⟨upTo, hranges, hlength, hin⟩ := ih next _ hrest hchunk
    refine ⟨upTo, ?_, hlength, fun hall => hin fun s hs => hall s (List.mem_cons_of_mem _ hs)⟩
    rw [List.append_assoc, ← reduceOption_cons] at hranges
    exact hranges

theorem symbolAwareCodeChunks_ranges (text relativePath : Text)
    (h : (host.extractedSymbols text relativePath).Pairwise fun a b => a.line ≤ b.line) :
    ∃ upTo, Ranges (splitLines text) (symbolAwareCodeChunks host source text relativePath) upTo ∧
      (splitLines text).length ≤ upTo ∧
      ((∀ sym ∈ host.extractedSymbols text relativePath, sym.line ≤ (splitLines text).length) →
        upTo = (splitLines text).length) := by
  have hcode : Ranges (splitLines text) (codeChunks host source text relativePath)
      (splitLines text).length := codeChunks_ranges text relativePath
  unfold symbolAwareCodeChunks
  cases hsymbols : host.extractedSymbols text relativePath with
  | nil => exact ⟨_, hcode, Nat.le_refl _, fun _ => rfl⟩
  | cons first symbols =>
    rw [hsymbols] at h
    have hpreamble : Ranges (splitLines text)
        (codePreamble host source text relativePath first.line).toList (first.line - 1) := by
      unfold codePreamble
      dsimp only
      by_cases hblank : strip (joinLines ((splitLines text).take (first.line - 1))) = []
      · rw [if_neg fun hboth => hboth.2 hblank]
        exact (Ranges.nil _).skip (Nat.zero_le _) hblank
      · have hlines : 0 < first.line - 1 := (lt_of_not_blank (show strip (joinLines
          (linesOf (splitLines text) 1 (first.line - 1))) ≠ [] from hblank)).1
        rw [if_pos ⟨by omega, hblank⟩]
        exact (Ranges.nil _).add rfl hlines rfl
    have hrun : ∃ upTo, Ranges (splitLines text)
        ((codePreamble host source text relativePath first.line).toList ++
          (symbolChunks host source text relativePath (first :: symbols)).reduceOption) upTo ∧
        (splitLines text).length ≤ upTo ∧
        ((∀ sym ∈ first :: symbols, sym.line ≤ (splitLines text).length) →
          upTo = (splitLines text).length) := symbolChunks_ranges symbols first _ h hpreamble
    rw [← reduceOption_cons] at hrun
    dsimp only
    by_cases hnone : (codePreamble host source text relativePath first.line ::
        symbolChunks host source text relativePath (first :: symbols)).reduceOption = []
    · rw [if_pos hnone]
      exact ⟨_, hcode, Nat.le_refl _, fun _ => rfl⟩
    · rw [if_neg hnone]
      exact hrun

end

/-! ## Every chunker -/

/-- Nothing of the text is lost: the ranges are in order and apart and in the file, they hold each
line that is not blank, and each content is a text of its lines without the blanks at its ends. -/
structure Lossless (text : Text) (chunks : List ChunkRecord) : Prop where
  apart : chunks.Pairwise fun a b => a.endLine < b.startLine
  bounds : ∀ chunk ∈ chunks, 1 ≤ chunk.startLine ∧ chunk.startLine ≤ chunk.endLine ∧
    chunk.endLine ≤ (splitLines text).length
  cover : ∀ i line, (splitLines text)[i]? = some line → strip line ≠ [] →
    ∃ chunk ∈ chunks, chunk.startLine ≤ i + 1 ∧ i + 1 ≤ chunk.endLine
  content : ∀ chunk ∈ chunks, ∃ body,
    Joins (linesOf (splitLines text) chunk.startLine chunk.endLine) body ∧
      chunk.content = strip body
  joined : '\r' ∉ text → ∀ chunk ∈ chunks, chunk.content =
    strip (joinLines (linesOf (splitLines text) chunk.startLine chunk.endLine))

theorem Ranges.lossless {text : Text}
    (h : Ranges (splitLines text) chunks (splitLines text).length) : Lossless text chunks where
  apart := h.apart
  bounds := h.bounds
  cover i line hline := h.cover i (List.getElem?_eq_some_iff.mp hline).1 line hline
  content chunk hchunk := ⟨_, joins_joinLines _, h.content chunk hchunk⟩
  joined _ := h.content

theorem splitLines_ne_nil (text : Text) : splitLines text ≠ [] := by
  obtain ⟨line, lines, hlines, -⟩ := joins_splitLinesAux [] text
  unfold splitLines
  rw [hlines]
  exact List.cons_ne_nil _ _

/-- The one chunk of a document. -/
theorem lossless_document {text : Text} {chunk : ChunkRecord} (hstart : chunk.startLine = 1)
    (hend : chunk.endLine = (splitLines text).length) (hcontent : chunk.content = strip text) :
    Lossless text [chunk] := by
  have hlength : 0 < (splitLines text).length := List.length_pos_of_ne_nil (splitLines_ne_nil text)
  have hall : linesOf (splitLines text) chunk.startLine chunk.endLine = splitLines text := by
    rw [hstart, hend]
    exact List.take_length
  constructor
  · exact List.pairwise_singleton _ _
  · intro c hc
    rw [List.mem_singleton.mp hc]
    omega
  · intro i line hline _
    have hi := (List.getElem?_eq_some_iff.mp hline).1
    exact ⟨chunk, List.mem_singleton_self _, by omega, by omega⟩
  · intro c hc
    rw [List.mem_singleton.mp hc, hall]
    exact ⟨text, joins_splitLines text, hcontent⟩
  · intro hreturn c hc
    rw [List.mem_singleton.mp hc, hall, (joins_splitLines text).eq_joinLines hreturn]
    exact hcontent

/-- **Chunking loses no text**, whichever chunker a file goes to. -/
theorem chunks_lossless (host : Host) (source : SourceRecord) (text relativePath : Text) :
    Lossless text (markdownChunks host source text) ∧
      Lossless text (codeChunks host source text relativePath) ∧
      ((host.extractedSymbols text relativePath).Pairwise (fun a b => a.line ≤ b.line) →
        (∀ sym ∈ host.extractedSymbols text relativePath,
          sym.line ≤ (splitLines text).length) →
        Lossless text (symbolAwareCodeChunks host source text relativePath)) := by
  refine ⟨?_, (codeChunks_ranges text relativePath).lossless, fun hsorted hin => ?_⟩
  · rcases markdownChunks_cases text with hranges | ⟨chunk, hchunks, hstart, hend, hcontent⟩
    · exact hranges.lossless
    · rw [hchunks]
      exact lossless_document hstart hend hcontent
  · obtain ⟨upTo, hranges, -, hlast⟩ := symbolAwareCodeChunks_ranges text relativePath hsorted
    rw [hlast hin] at hranges
    exact hranges.lossless

/-! ## A file with one function -/

/-- The digests of the contents here. -/
def sampleDigest (text : Text) : Text :=
  if text = "x = 1".toList then
    "sha256:8ff436def1451285599a1b1ad70800493b8dcafde2912e1a38345633054e4c26".toList
  else if text = "def f():\n  pass".toList then
    "sha256:38834d6d122bd934b9ad5ddc32255be146583314a46ba776dd5a48f5d8913ffc".toList
  else if text = "# A".toList then
    "sha256:327f031b25e00b1a7cd9b0c18f05948b60f55d09f9b3d177d21083f83a3cb6df".toList
  else "sha256:e7c385da89236bb5d1e661ebf783a64734b52715d799119f5ee911811c28d09e".toList

def sampleFile : Text := "x = 1\ndef f():\n  pass\n".toList

def sampleHost : Host where
  lower := List.map Char.toLower
  sha256Text := sampleDigest
  languageFor path := if path = "a.py".toList then "python".toList else "markdown".toList
  cheapImportHints _ := []
  cheapSymbolHints text := if text = sampleFile then [['f']] else []
  extractedSymbols text _ := if text = sampleFile then [⟨['f'], "function".toList, 1⟩] else []

def sampleSource (path : Text) : SourceRecord := ⟨"source:".toList ++ path, path⟩

/-- The file is cut before its function. -/
example : (symbolAwareCodeChunks sampleHost (sampleSource "a.py".toList) sampleFile
      "a.py".toList).map (fun chunk => (chunk.startLine, chunk.endLine, chunk.content)) =
    [(1, 1, "x = 1".toList), (2, 4, "def f():\n  pass".toList)] := by decide +kernel

theorem sample_lossless : Lossless sampleFile
    (symbolAwareCodeChunks sampleHost (sampleSource "a.py".toList) sampleFile "a.py".toList) :=
  (chunks_lossless sampleHost (sampleSource "a.py".toList) sampleFile "a.py".toList).2.2
    (by decide +kernel) (by decide +kernel)

end Agentrail.Chunks
