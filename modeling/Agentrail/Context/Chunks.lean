import Agentrail.Context.WikiPages
import Agentrail.Py.Dict

/-!
# Chunks of a file (`markdown_chunks`, `code_chunks`, `symbol_aware_code_chunks` of
`context/index.py`)

A markdown file is cut at its headings, a code file at the lines where its symbols start, and any
other file every 80 lines.  A chunk has an id made of the path and a suffix, its first and last
line, and the text of its lines without the blanks at both ends.
-/

namespace Agentrail.Chunks

open Py Regex

/-! ## Records -/

/-- What is read of a `SourceRecord`. -/
structure SourceRecord where
  id : Text
  path : Text
  deriving DecidableEq

structure ChunkRecord where
  id : Text
  sourceId : Text
  path : Text
  language : Text
  headingPath : List Text
  parentContext : Text
  startLine : ℕ
  endLine : ℕ
  symbolHints : List Text
  importHints : List Text
  textHash : Text
  citation : Text
  content : Text
  symbol : Option Text := none
  kind : Option Text := none
  deriving DecidableEq

/-- A symbol of `extracted_symbols`: `row` is the parser's row, counted from 0. -/
structure Symbol where
  name : Text
  kind : Text
  row : ℕ
  deriving DecidableEq

/-- `sym["line"]` -/
def Symbol.line (sym : Symbol) : ℕ := sym.row + 1

structure Host where
  /-- `str.lower` -/
  lower : Text → Text
  sha256Text : Text → Text
  languageFor : Text → Text
  cheapImportHints : Text → List Text
  cheapSymbolHints : Text → List Text
  /-- `extracted_symbols` of a text and its path, empty where it raises -/
  extractedSymbols : Text → Text → List Symbol

/-! ## Lines -/

/-- `re.split(r"\r?\n", text)`; `cur` is the line so far, reversed. -/
def splitLinesAux (cur : Text) : Text → List Text
  | [] => [cur.reverse]
  | '\r' :: '\n' :: rest => cur.reverse :: splitLinesAux [] rest
  | c :: rest => if c = '\n' then cur.reverse :: splitLinesAux [] rest
    else splitLinesAux (c :: cur) rest

def splitLines (text : Text) : List Text := splitLinesAux [] text

/-- `"\n".join(lines)` -/
def joinLines (lines : List Text) : Text := List.intercalate ['\n'] lines

/-- `lines[first - 1:last]` -/
def linesOf (lines : List Text) (first last : ℕ) : List Text := (lines.take last).drop (first - 1)

section
variable (host : Host) (source : SourceRecord)

/-! ## `chunk_record` -/

def chunkRecord (idSuffix text language citation : Text) (startLine endLine : ℕ)
    (headingPath : List Text) (parentContext : Text) (symbolHints importHints : List Text) :
    ChunkRecord where
  id := "chunk:".toList ++ source.path ++ '#' :: idSuffix
  sourceId := source.id
  path := source.path
  language := language
  headingPath := headingPath
  parentContext := parentContext
  startLine := startLine
  endLine := endLine
  symbolHints := symbolHints
  importHints := importHints
  textHash := host.sha256Text (strip text)
  citation := citation
  content := strip text

/-! ## `markdown_chunks` -/

def slugify (value : Text) : Text :=
  let kept := (host.lower value).filter fun c =>
    ('a' ≤ c && c ≤ 'z') || ('0' ≤ c && c ≤ '9') || isSpace c || c = '-'
  let slug := Wiki.collapseDashes ((strip kept).map fun c => if c = ' ' then '-' else c)
  if slug = [] then "section".toList else slug

/-- `^(#{1,6})\s+(.+?)\s*#*\s*$` -/
def headingPattern : Re :=
  .cat [.group 1 (.rep (.cls (· = '#')) 1 6), .plus true space, .group 2 (.plus false dot),
    .star true space, .star true (.cls (· = '#')), .star true space,
    .assert fun _ after => after = [] || after = ['\n']]

/-- The level and the title of a line that is a heading. -/
def headingOf (line : Text) : Option (ℕ × Text) :=
  (headingPattern.run ⟨[], line, []⟩ some).map fun found =>
    ((found.groupText 1).length, strip (found.groupText 2))

/-- The section that is open. -/
structure Current where
  startLine : ℕ
  slug : Text
  headingPath : List Text

/-- What the loop over the lines carries along. -/
structure Sections where
  chunks : List ChunkRecord := []
  stack : List Text := []
  slugCounts : Dict Text ℕ := Dict.empty
  current : Option Current := none

def sectionChunk (lines : List Text) (current : Current) (endLine : ℕ) : ChunkRecord :=
  chunkRecord host source current.slug (joinLines (linesOf lines current.startLine endLine))
    "markdown".toList (source.path ++ '#' :: current.slug) current.startLine endLine
    current.headingPath (List.intercalate " > ".toList current.headingPath.dropLast) [] []

def closeCurrent (lines : List Text) (endLine : ℕ) (sections : Sections) : Sections :=
  match sections.current with
  | none => sections
  | some current =>
    { sections with
      chunks := sections.chunks ++ [sectionChunk host source lines current endLine] }

def preambleChunk (lines : List Text) (endLine : ℕ) : ChunkRecord :=
  chunkRecord host source "preamble".toList (joinLines (lines.take endLine)) "markdown".toList
    (source.path ++ "#preamble".toList) 1 endLine [] source.path [] []

def addPreamble (lines : List Text) (endLine : ℕ) (sections : Sections) : Sections :=
  if sections.chunks ≠ [] ∨ sections.current.isSome ∨ endLine = 0 then sections
  else if strip (joinLines (lines.take endLine)) = [] then sections
  else { sections with chunks := sections.chunks ++ [preambleChunk host source lines endLine] }

/-- The slug of the `count`-th heading with the base slug. -/
def countedSlug (baseSlug : Text) (count : ℕ) : Text :=
  if count = 1 then baseSlug else baseSlug ++ '-' :: Nat.toDigits 10 count

/-- The titles above a heading of the level, an empty one for each level left out. -/
def titlesAbove (stack : List Text) (level : ℕ) : List Text :=
  let kept := stack.take (level - 1)
  kept ++ List.replicate (level - 1 - kept.length) []

/-- The round of a line in the loop. -/
def sectionRound (lines : List Text) (sections : Sections) (item : Text × ℕ) : Sections :=
  match headingOf item.1 with
  | none => sections
  | some (level, title) =>
    let closed := addPreamble host source lines item.2
      (closeCurrent host source lines item.2 sections)
    let stack := titlesAbove closed.stack level ++ [title]
    let baseSlug := slugify host title
    let count := (closed.slugCounts.get baseSlug).getD 0 + 1
    { chunks := closed.chunks
      stack := stack
      slugCounts := closed.slugCounts.set baseSlug count
      current := some
        { startLine := item.2 + 1
          slug := countedSlug baseSlug count
          headingPath := stack.filter (· ≠ []) } }

def markdownChunks (text : Text) : List ChunkRecord :=
  let lines := splitLines text
  let chunks := (closeCurrent host source lines lines.length
    (lines.zipIdx.foldl (sectionRound host source lines) {})).chunks
  if chunks = [] ∧ strip text ≠ [] then
    [chunkRecord host source "document".toList text "markdown".toList
      (source.path ++ "#document".toList) 1 lines.length [] source.path [] []]
  else chunks

/-! ## `code_chunks` -/

/-- `L{start}-L{end}` -/
def windowSuffix (first last : ℕ) : Text :=
  'L' :: (Nat.toDigits 10 first ++ "-L".toList ++ Nat.toDigits 10 last)

/-- The round of a window of lines, if it has a text. -/
def windowChunk (text relativePath : Text) (start : ℕ) : Option ChunkRecord :=
  let lines := splitLines text
  let last := min lines.length (start + 79)
  let chunkText := joinLines (linesOf lines start last)
  if strip chunkText = [] then none
  else some (chunkRecord host source (windowSuffix start last) chunkText
    (host.languageFor relativePath) (source.path ++ '#' :: windowSuffix start last) start last []
    source.path (host.cheapSymbolHints text) (host.cheapImportHints text))

/-- `range(1, len(lines) + 1, 80)` -/
def windowStarts (count : ℕ) : List ℕ :=
  (List.range ((count + 79) / 80)).map fun window => window * 80 + 1

def codeChunks (text relativePath : Text) : List ChunkRecord :=
  (windowStarts (splitLines text).length).filterMap (windowChunk host source text relativePath)

/-! ## `symbol_aware_code_chunks` -/

def codePreamble (text relativePath : Text) (firstSymLine : ℕ) : Option ChunkRecord :=
  let preambleText := joinLines ((splitLines text).take (firstSymLine - 1))
  if firstSymLine > 1 ∧ strip preambleText ≠ [] then
    some (chunkRecord host source "preamble".toList preambleText (host.languageFor relativePath)
      (source.path ++ "#preamble".toList) 1 (firstSymLine - 1) [] source.path []
      (host.cheapImportHints text))
  else none

/-- The round of a symbol whose chunk ends at the line. -/
def symbolChunk (text relativePath : Text) (sym : Symbol) (endLine : ℕ) : Option ChunkRecord :=
  let chunkText := joinLines (linesOf (splitLines text) sym.line endLine)
  if strip chunkText = [] then none
  else
    let suffix := "symbol:".toList ++ sym.name ++ ':' :: Nat.toDigits 10 sym.line
    some { chunkRecord host source suffix chunkText (host.languageFor relativePath)
        (source.path ++ '#' :: sym.name) sym.line endLine [] source.path [sym.name]
        (host.cheapImportHints text) with
      symbol := some sym.name
      kind := some sym.kind }

/-- The chunks of the symbols: each one ends before the next starts. -/
def symbolChunks (text relativePath : Text) : List Symbol → List (Option ChunkRecord)
  | [] => []
  | [sym] => [symbolChunk host source text relativePath sym (splitLines text).length]
  | sym :: next :: symbols =>
    symbolChunk host source text relativePath sym (next.line - 1) ::
      symbolChunks text relativePath (next :: symbols)

def symbolAwareCodeChunks (text relativePath : Text) : List ChunkRecord :=
  match host.extractedSymbols text relativePath with
  | [] => codeChunks host source text relativePath
  | first :: symbols =>
    let chunks := (codePreamble host source text relativePath first.line ::
      symbolChunks host source text relativePath (first :: symbols)).reduceOption
    if chunks = [] then codeChunks host source text relativePath else chunks

/-! ## The loop over the lines -/

section
variable {lines : List Text} {endLine : ℕ} {sections : Sections}

theorem closeCurrent_none (h : sections.current = none) :
    closeCurrent host source lines endLine sections = sections := by
  unfold closeCurrent
  rw [h]

theorem closeCurrent_some {current : Current} (h : sections.current = some current) :
    closeCurrent host source lines endLine sections =
      { sections with
        chunks := sections.chunks ++ [sectionChunk host source lines current endLine] } := by
  unfold closeCurrent
  rw [h]

/-- A closed section leaves no preamble to add. -/
theorem addPreamble_some {current : Current} (h : sections.current = some current) :
    addPreamble host source lines endLine (closeCurrent host source lines endLine sections) =
      closeCurrent host source lines endLine sections := by
  unfold addPreamble
  rw [closeCurrent_some host source h, if_pos (Or.inl (List.append_ne_nil_of_right_ne_nil _
    (List.cons_ne_nil _ _)))]

/-- Before the first heading the chunks are the preamble, if there is one. -/
theorem addPreamble_none (h : sections.current = none) (hchunks : sections.chunks = []) :
    (addPreamble host source lines endLine
        (closeCurrent host source lines endLine sections)).chunks =
      if strip (joinLines (lines.take endLine)) = [] then []
      else [preambleChunk host source lines endLine] := by
  rw [closeCurrent_none host source h]
  unfold addPreamble
  by_cases hzero : endLine = 0
  · subst hzero
    rw [if_pos (Or.inr (Or.inr rfl)), hchunks]
    rfl
  · rw [if_neg (by simp [hchunks, h, hzero])]
    by_cases hblank : strip (joinLines (lines.take endLine)) = []
    · rw [if_pos hblank, if_pos hblank, hchunks]
    · rw [if_neg hblank, if_neg hblank, hchunks]
      rfl

end

/-- What holds at the start and is kept by each round holds after the last line. -/
theorem foldl_sectionRound (lines : List Text) (P : List Text → Sections → Prop) (hstart : P [] {})
    (hround : ∀ done line rest sections, lines = done ++ line :: rest → P done sections →
      P (done ++ [line]) (sectionRound host source lines sections (line, done.length))) :
    P lines (lines.zipIdx.foldl (sectionRound host source lines) {}) := by
  have hrun : ∀ rest done sections, lines = done ++ rest → P done sections →
      P lines ((rest.zipIdx done.length).foldl (sectionRound host source lines) sections) := by
    intro rest
    induction rest with
    | nil =>
      intro done sections hsplit h
      rw [List.append_nil] at hsplit
      subst hsplit
      exact h
    | cons line rest ih =>
      intro done sections hsplit h
      have hnext := ih (done ++ [line])
        (sectionRound host source lines sections (line, done.length))
        (by rw [hsplit, List.append_assoc]; rfl) (hround done line rest sections hsplit h)
      rw [List.length_append] at hnext
      exact hnext
  exact hrun lines [] {} rfl hstart

end

end Agentrail.Chunks
