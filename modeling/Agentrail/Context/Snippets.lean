import Agentrail.Context.ChunkRanges
import Agentrail.Py.Lines

/-!
# Snippets (`_bounded_snippet`, `search_context` of `context/retrieval.py`)

A search result shows some lines of a chunk's content: the first ten, or the first one and those
around the line that has a token of the query.  The content's lines are those of `str.splitlines`,
which ends a line at more characters than the file's lines end at.

`boundedSnippet_occurIn`: what a snippet shows is in order on the lines of its span, where the
content starts on the first of them (`occurIn_content`).
-/

namespace Agentrail.Chunks

open Py

/-! ## `_bounded_snippet` -/

def maxLines : ℕ := 10
def maxChars : ℕ := 600

/-- The mark between the first line and the window, and the one at the end. -/
def gapMark : Text := "    …".toList
def endMark : Text := " …".toList

/-- What `_bounded_snippet` returns, and which marks it put in. -/
structure Snippet where
  text : Text
  spanStart : ℕ
  spanEnd : ℕ
  gap : Bool
  more : Bool
  deriving DecidableEq

/-- `str.rstrip` -/
def rstrip (t : Text) : Text := (t.reverse.dropWhile isSpace).reverse

/-- The first line with a token of four letters or more. -/
def matchIdx (lower : Text → Text) (queryTokens : List Text) (lines : List Text) : Option ℕ :=
  lines.findIdx? fun line =>
    queryTokens.any fun tok => 4 ≤ tok.length && decide (tok <:+: lower line)

/-- The start of the window of nine lines around a match. -/
def windowStart (total found : ℕ) : ℕ :=
  let budget := maxLines - 1
  let start := max 1 (found - budget / 2)
  let stop := min total (start + budget)
  if stop - start < budget then max 1 (stop - budget) else start

def windowEnd (total found : ℕ) : ℕ :=
  min total (max 1 (found - (maxLines - 1) / 2) + (maxLines - 1))

/-- The lines around a match, after the first one and the mark of a gap. -/
def deepParts (lines : List Text) (start stop : ℕ) : List Text :=
  lines.take 1 ++ (if start > 1 then [gapMark] else []) ++ (lines.take stop).drop start

def boundedSnippet (lower : Text → Text) (content : Text) (queryTokens : List Text) : Snippet :=
  let lines := splitlines content
  let total := lines.length
  if lines = [] then ⟨[], 0, 0, false, false⟩
  else
    match (matchIdx lower queryTokens lines).filter fun found => maxLines ≤ found with
    | none =>
      let snippet := joinLines (lines.take (min maxLines total))
      if snippet.length > maxChars then
        ⟨rstrip (snippet.take maxChars) ++ endMark, 0, min maxLines total - 1, false, true⟩
      else if total > maxLines then
        ⟨snippet ++ endMark, 0, min maxLines total - 1, false, true⟩
      else ⟨snippet, 0, min maxLines total - 1, false, false⟩
    | some found =>
      let start := windowStart total found
      let stop := windowEnd total found
      let snippet := joinLines (deepParts lines start stop)
      if snippet.length > maxChars then
        ⟨rstrip (snippet.take maxChars) ++ endMark, 0, stop - 1, start > 1, true⟩
      else ⟨snippet, 0, stop - 1, start > 1, false⟩

/-- The lines of a snippet other than the marks. -/
def Snippet.lines (snippet : Snippet) : List Text :=
  let body := if snippet.more then snippet.text.take (snippet.text.length - endMark.length)
    else snippet.text
  if snippet.gap then (splitOn1 '\n' body).eraseIdx 1 else splitOn1 '\n' body

/-! ## `search_context` -/

/-- What `search_context` returns of a chunk. -/
structure Cited where
  lineStart : ℕ
  lineEnd : ℕ
  snippet : Snippet
  deriving DecidableEq

def searchResult (lower : Text → Text) (queryTokens : List Text) (chunk : ChunkRecord) : Cited :=
  let chunkStart := if chunk.startLine = 0 then 1 else chunk.startLine
  let chunkEnd := if chunk.endLine = 0 then chunkStart else chunk.endLine
  let snippet := boundedSnippet lower chunk.content queryTokens
  { lineStart := min chunkEnd (chunkStart + snippet.spanStart)
    lineEnd := min chunkEnd (chunkStart + max snippet.spanStart snippet.spanEnd)
    snippet := snippet }

/-! ## Texts that occur on lines -/

/-- The texts occur on the lines, one after another. -/
inductive OccurIn : List Text → List Text → Prop where
  | nil (lines : List Text) : OccurIn [] lines
  | here (before text after : Text) {texts lines : List Text} :
      OccurIn texts (after :: lines) → OccurIn (text :: texts) ((before ++ text ++ after) :: lines)
  | next (line : Text) {texts lines : List Text} :
      OccurIn texts lines → OccurIn texts (line :: lines)

theorem OccurIn.widen {texts lines : List Text} {line : Text} (before after : Text)
    (h : OccurIn texts (line :: lines)) : OccurIn texts ((before ++ line ++ after) :: lines) := by
  generalize hall : line :: lines = all at h
  induction h generalizing line before with
  | nil => exact .nil _
  | here pre text post _ ih =>
    cases hall
    have hsplit : before ++ (pre ++ text ++ post) ++ after =
        (before ++ pre) ++ text ++ (post ++ after) := by simp
    have hrest := ih [] rfl
    rw [hsplit]
    exact .here _ _ _ hrest
  | next _ h _ =>
    cases hall
    exact .next _ h

theorem OccurIn.tail {text : Text} {texts lines : List Text} (h : OccurIn (text :: texts) lines) :
    OccurIn texts lines := by
  generalize hall : text :: texts = all at h
  induction h with
  | nil => cases hall
  | here before text after h _ =>
    cases hall
    have hwide := h.widen (before ++ text) []
    rwa [List.append_nil] at hwide
  | next _ _ ih => exact .next _ (ih hall)

/-- What is true of the texts after the first. -/
theorem OccurIn.cons_mono {text : Text} {texts texts' lines : List Text}
    (hmono : ∀ lines, OccurIn texts lines → OccurIn texts' lines)
    (h : OccurIn (text :: texts) lines) : OccurIn (text :: texts') lines := by
  generalize hall : text :: texts = all at h
  induction h with
  | nil => cases hall
  | here before text after h _ =>
    cases hall
    exact .here before text after (hmono _ h)
  | next _ _ ih => exact .next _ (ih hall)

theorem OccurIn.sublist {texts texts' : List Text} (hsub : texts'.Sublist texts) :
    ∀ lines, OccurIn texts lines → OccurIn texts' lines := by
  induction hsub with
  | slnil => exact fun _ h => h
  | cons _ _ ih => exact fun lines h => ih lines h.tail
  | cons_cons _ _ ih => exact fun lines h => h.cons_mono ih

/-- The last text may be cut. -/
theorem OccurIn.cut {p q : Text} (front : List Text) : ∀ lines,
    OccurIn (front ++ [p ++ q]) lines → OccurIn (front ++ [p]) lines := by
  induction front with
  | nil =>
    intro lines h
    have hone : ∀ all lines, OccurIn all lines → all = [p ++ q] → OccurIn [p] lines := by
      intro all lines h
      induction h with
      | nil => exact nofun
      | here before text after h _ =>
        intro hall
        cases hall
        have hsplit : before ++ (p ++ q) ++ after = before ++ p ++ (q ++ after) := by simp
        rw [hsplit]
        exact .here before p _ (.nil _)
      | next _ _ ih => exact fun hall => .next _ (ih hall)
    exact hone _ _ h rfl
  | cons text front ih => exact fun lines h => h.cons_mono ih

/-- More lines after those. -/
theorem OccurIn.extend {texts lines lines' : List Text} (h : OccurIn texts lines)
    (hfirst : lines <+: lines') : OccurIn texts lines' := by
  obtain ⟨more, rfl⟩ := hfirst
  induction h with
  | nil => exact .nil _
  | here before text after _ ih => exact .here before text after ih
  | next line _ ih => exact .next line ih

/-! ## The lines of a content and the lines of the file -/

/-- A line ends in no line feed. -/
theorem newline_notMem_splitLinesAux (cur text : Text) (hcur : '\n' ∉ cur) :
    ∀ line ∈ splitLinesAux cur text, '\n' ∉ line := by
  fun_induction splitLinesAux cur text with
  | case1 cur =>
    intro line hline
    rw [List.mem_singleton.mp hline, List.mem_reverse]
    exact hcur
  | case2 cur rest ih =>
    intro line hline
    rcases List.mem_cons.mp hline with rfl | hline
    · rwa [List.mem_reverse]
    · exact ih List.not_mem_nil line hline
  | case3 cur rest _ ih =>
    intro line hline
    rcases List.mem_cons.mp hline with rfl | hline
    · rwa [List.mem_reverse]
    · exact ih List.not_mem_nil line hline
  | case4 cur c rest _ hc ih =>
    refine ih fun hin => ?_
    rcases List.mem_cons.mp hin with he | hin
    · exact hc he.symm
    · exact hcur hin

/-! ### How a text starts -/

/-- A text that starts with a line feed: its first line is empty. -/
theorem Joins.of_newline {line text : Text} {lines : List Text} (hfeed : '\n' ∉ line)
    (h : Joins (line :: lines) ('\n' :: text)) :
    line = [] ∧ ∃ next rest, lines = next :: rest ∧ Joins (next :: rest) text := by
  generalize hall : '\n' :: text = all at h
  cases h with
  | last =>
    rw [← hall] at hfeed
    exact absurd List.mem_cons_self hfeed
  | lf _ h =>
    cases line with
    | nil =>
      cases hall
      exact ⟨rfl, _, _, rfl, h⟩
    | cons c line =>
      cases hall
      exact absurd List.mem_cons_self hfeed
  | crlf _ h =>
    cases line with
    | nil => cases hall
    | cons c line =>
      cases hall
      exact absurd List.mem_cons_self hfeed

/-- A text that starts with another character: its first line does, unless the character is the
carriage return of a line break. -/
theorem Joins.of_char {c : Char} {line text : Text} {lines : List Text} (hc : c ≠ '\n')
    (h : Joins (line :: lines) (c :: text)) :
    (∃ after, line = c :: after ∧ Joins (after :: lines) text) ∨
      (c = '\r' ∧ line = [] ∧ ∃ text' next rest, text = '\n' :: text' ∧ lines = next :: rest ∧
        Joins (next :: rest) text') := by
  generalize hall : c :: text = all at h
  cases h with
  | last =>
    rw [← hall]
    exact Or.inl ⟨text, rfl, .last text⟩
  | lf _ h =>
    cases line with
    | nil =>
      cases hall
      exact absurd rfl hc
    | cons d line =>
      cases hall
      exact Or.inl ⟨line, rfl, .lf line h⟩
  | crlf _ h =>
    cases line with
    | nil =>
      cases hall
      exact Or.inr ⟨rfl, rfl, _, _, _, rfl, rfl, h⟩
    | cons d line =>
      cases hall
      exact Or.inl ⟨line, rfl, .crlf line h⟩

/-- What follows a first text on its line, and on the lines after it. -/
theorem OccurIn.first {texts lines : List Text} (text after : Text) (j : ℕ)
    (h : OccurIn (texts.take j) (after :: lines.take j)) :
    OccurIn ((text :: texts).take (j + 1)) (((text ++ after) :: lines).take (j + 1)) := by
  rw [List.take_succ_cons, List.take_succ_cons]
  exact .here [] text after h

theorem take_prefix_cons (after : Text) (lines : List Text) (j : ℕ) :
    (after :: lines).take j <+: after :: lines.take j := by
  cases j with
  | zero => exact List.nil_prefix
  | succ j =>
    rw [List.take_succ_cons, List.prefix_cons_inj]
    exact List.take_prefix_take_left (Nat.le_succ j)

/-- **The first lines of a text are on the first lines of the file**, whatever else
`str.splitlines` takes for the end of a line. -/
theorem occurIn_splitlinesAux (cur content : Text) :
    ∀ (line rest : Text) (lines : List Text) (j : ℕ), Joins (line :: lines) (content ++ rest) →
      (∀ l ∈ line :: lines, '\n' ∉ l) →
      OccurIn ((splitlinesAux cur content).take j) (((cur.reverse ++ line) :: lines).take j) := by
  fun_induction splitlinesAux cur content with
  | case1 =>
    intro line rest lines j _ _
    rw [List.take_nil]
    exact .nil _
  | case2 cur hcur =>
    intro line rest lines j _ _
    cases j with
    | zero => exact .nil _
    | succ j =>
      apply OccurIn.first
      rw [List.take_nil]
      exact .nil _
  | case3 cur s ih =>
    intro line rest lines j hjoins hfeed
    cases j with
    | zero => exact .nil _
    | succ j =>
      apply OccurIn.first
      obtain ⟨next, later, rfl, hlater⟩ : ∃ next later, lines = next :: later ∧
          Joins (next :: later) (s ++ rest) := by
        rcases Joins.of_char (by decide) hjoins with ⟨after, rfl, h⟩ | ⟨-, rfl, text, next, later,
          htext, hlines, h⟩
        · have hafter : '\n' ∉ after := fun hin =>
            hfeed _ List.mem_cons_self (List.mem_cons_of_mem _ hin)
          exact (h.of_newline hafter).2
        · cases htext
          exact ⟨next, later, hlines, h⟩
      exact .next line (ih next rest later j hlater fun l hl =>
        hfeed l (List.mem_cons_of_mem _ hl))
  | case4 cur c s hcrlf hbreak ih =>
    intro line rest lines j hjoins hfeed
    cases j with
    | zero => exact .nil _
    | succ j =>
      apply OccurIn.first
      by_cases hc : c = '\n'
      · subst hc
        obtain ⟨rfl, next, later, rfl, hlater⟩ :=
          hjoins.of_newline (hfeed line List.mem_cons_self)
        exact .next [] (ih next rest later j hlater fun l hl =>
          hfeed l (List.mem_cons_of_mem _ hl))
      · rcases Joins.of_char hc hjoins with ⟨after, rfl, h⟩ | ⟨rfl, rfl, text, next, later, htext,
          hlines, -⟩
        · have hlines : ∀ l ∈ after :: lines, '\n' ∉ l := by
            intro l hl
            rcases List.mem_cons.mp hl with rfl | hl
            · exact fun hin => hfeed _ List.mem_cons_self (List.mem_cons_of_mem _ hin)
            · exact hfeed l (List.mem_cons_of_mem _ hl)
          have hrest := (ih after rest lines j h hlines).extend (take_prefix_cons _ _ _)
          have hwide := hrest.widen [c] []
          rwa [List.append_nil] at hwide
        · -- the carriage return of a line break that the text ends in
          cases s with
          | nil =>
            rw [splitlinesAux, if_pos rfl, List.take_nil]
            exact .nil _
          | cons d s =>
            cases htext
            exact absurd rfl (hcrlf s rfl)
  | case5 cur c s hcrlf hbreak ih =>
    intro line rest lines j hjoins hfeed
    have hc : c ≠ '\n' := by
      rintro rfl
      exact hbreak (by decide)
    rcases Joins.of_char hc hjoins with ⟨after, rfl, h⟩ | ⟨rfl, -⟩
    · have hlines : ∀ l ∈ after :: lines, '\n' ∉ l := by
        intro l hl
        rcases List.mem_cons.mp hl with rfl | hl
        · exact fun hin => hfeed _ List.mem_cons_self (List.mem_cons_of_mem _ hin)
        · exact hfeed l (List.mem_cons_of_mem _ hl)
      have hrest := ih after rest lines j h hlines
      rw [List.reverse_cons, List.append_assoc] at hrest
      exact hrest
    · exact absurd (by decide) hbreak

/-- The blanks at the start of a text whose first line is not blank are on that line. -/
theorem Joins.dropWhile_isSpace {line text : Text} {lines : List Text}
    (h : Joins (line :: lines) text) (hline : strip line ≠ []) :
    Joins (line.dropWhile isSpace :: lines) (text.dropWhile isSpace) := by
  have happend : ∀ rest, (line ++ rest).dropWhile isSpace = line.dropWhile isSpace ++ rest := by
    intro rest
    rw [List.dropWhile_append, if_neg]
    intro hnone
    rw [List.isEmpty_iff, List.dropWhile_eq_nil_iff] at hnone
    exact hline ((strip_eq_nil_iff line).mpr hnone)
  cases h with
  | last => exact .last _
  | lf _ h =>
    rw [happend]
    exact .lf _ h
  | crlf _ h =>
    rw [happend]
    exact .crlf _ h

/-- **A content whose text starts on its first line is on the lines counted from there.** -/
theorem occurIn_content {line body : Text} {lines : List Text} (h : Joins (line :: lines) body)
    (hfeed : ∀ l ∈ line :: lines, '\n' ∉ l) (hline : strip line ≠ []) (j : ℕ) :
    OccurIn ((splitlines (strip body)).take j) ((line :: lines).take j) := by
  have hsuffix : ∃ blanks, strip body ++ blanks = body.dropWhile isSpace := by
    refine ⟨((body.dropWhile isSpace).reverse.takeWhile isSpace).reverse, ?_⟩
    unfold strip
    rw [← List.reverse_append, List.takeWhile_append_dropWhile, List.reverse_reverse]
  obtain ⟨blanks, hblanks⟩ := hsuffix
  have hjoins := h.dropWhile_isSpace hline
  rw [← hblanks] at hjoins
  have hdrop : ∀ l ∈ line.dropWhile isSpace :: lines, '\n' ∉ l := by
    intro l hl
    rcases List.mem_cons.mp hl with rfl | hl
    · exact fun hin => hfeed line List.mem_cons_self ((List.dropWhile_sublist _).mem hin)
    · exact hfeed l (List.mem_cons_of_mem _ hl)
  have hoccur := occurIn_splitlinesAux [] (strip body) (line.dropWhile isSpace) blanks lines j
    hjoins hdrop
  cases j with
  | zero => exact .nil _
  | succ j =>
    rw [List.take_succ_cons] at hoccur ⊢
    have hwide := hoccur.widen (line.takeWhile isSpace) []
    rw [List.append_nil, List.reverse_nil, List.nil_append, List.takeWhile_append_dropWhile]
      at hwide
    exact hwide

/-! ## What a snippet shows -/

/-- A text is the start of some joined lines: its lines are the first of them, the last one cut. -/
def CutOf (texts parts : List Text) : Prop :=
  ∃ front p q rest, parts = front ++ (p ++ q) :: rest ∧ texts = front ++ [p]

theorem splitOn1_cutOf (parts : List Text) (hparts : parts ≠ []) (hfeed : ∀ l ∈ parts, '\n' ∉ l) :
    ∀ t, t <+: joinLines parts → CutOf (splitOn1 '\n' t) parts := by
  unfold joinLines
  induction parts with
  | nil => exact absurd rfl hparts
  | cons line lines ih =>
    -- what ends before the first line does is one line
    have hshort : ∀ t, t <+: line → CutOf (splitOn1 '\n' t) (line :: lines) := by
      rintro t ⟨q, rfl⟩
      have hnone : '\n' ∉ t := fun hin =>
        hfeed _ List.mem_cons_self (List.mem_append_left _ hin)
      rw [splitOn1_of_notMem _ _ hnone]
      exact ⟨[], t, q, lines, rfl, rfl⟩
    intro t ht
    cases lines with
    | nil =>
      rw [List.intercalate_singleton] at ht
      exact hshort t ht
    | cons next lines =>
      rw [List.intercalate_cons_cons, List.append_assoc] at ht
      rcases List.prefix_or_prefix_of_prefix ht (List.prefix_append line _) with hle | ⟨more, rfl⟩
      · exact hshort t hle
      · rw [List.prefix_append_right_inj] at ht
        cases more with
        | nil =>
          rw [List.append_nil]
          exact hshort line (List.prefix_refl line)
        | cons c more =>
          obtain ⟨rfl, hmore⟩ := List.cons_prefix_cons.mp ht
          obtain ⟨front, p, q, rest, hrest, hsplit⟩ := ih (List.cons_ne_nil _ _)
            (fun l hl => hfeed l (List.mem_cons_of_mem _ hl)) more hmore
          rw [splitOn1_cons_of_notMem _ _ _ (hfeed line List.mem_cons_self), hsplit, hrest]
          exact ⟨line :: front, p, q, rest, rfl, rfl⟩

theorem CutOf.occurIn {texts parts lines : List Text} (h : CutOf texts parts)
    (hparts : OccurIn parts lines) : OccurIn texts lines := by
  obtain ⟨front, p, q, rest, rfl, rfl⟩ := h
  have hsub : (front ++ [p ++ q]).Sublist (front ++ (p ++ q) :: rest) :=
    List.Sublist.append_left (List.singleton_sublist.mpr List.mem_cons_self) front
  exact OccurIn.cut front lines (hparts.sublist hsub lines)

/-- What is left of cut lines when the mark of the gap is taken out. -/
theorem CutOf.occurIn_eraseIdx {texts window lines : List Text} {sig mark : Text}
    (h : CutOf texts (sig :: mark :: window)) (hparts : OccurIn (sig :: window) lines) :
    OccurIn (texts.eraseIdx 1) lines := by
  obtain ⟨front, p, q, rest, hall, rfl⟩ := h
  match front with
  | [] =>
    cases hall
    have hone : CutOf [p] ((p ++ q) :: window) := ⟨[], p, q, window, rfl, rfl⟩
    exact hone.occurIn hparts
  | [_] =>
    cases hall
    exact OccurIn.sublist (List.singleton_sublist.mpr List.mem_cons_self) lines hparts
  | _ :: _ :: front =>
    cases hall
    have hrest : CutOf (sig :: (front ++ [p])) (sig :: (front ++ (p ++ q) :: rest)) :=
      ⟨sig :: front, p, q, rest, rfl, rfl⟩
    exact hrest.occurIn hparts

theorem newline_notMem_pieces (cur content : Text) (hcur : '\n' ∉ cur) :
    ∀ line ∈ splitlinesAux cur content, '\n' ∉ line := by
  fun_induction splitlinesAux cur content with
  | case1 =>
    intro line hline
    exact absurd hline List.not_mem_nil
  | case2 cur _ =>
    intro line hline
    rwa [List.mem_singleton.mp hline, List.mem_reverse]
  | case3 cur s ih =>
    intro line hline
    rcases List.mem_cons.mp hline with rfl | hline
    · rwa [List.mem_reverse]
    · exact ih List.not_mem_nil line hline
  | case4 cur c s _ _ ih =>
    intro line hline
    rcases List.mem_cons.mp hline with rfl | hline
    · rwa [List.mem_reverse]
    · exact ih List.not_mem_nil line hline
  | case5 cur c s _ hbreak ih =>
    refine ih fun hin => ?_
    rcases List.mem_cons.mp hin with rfl | hin
    · exact hbreak (by decide)
    · exact hcur hin

theorem rstrip_isPrefix (t : Text) : rstrip t <+: t := by
  unfold rstrip
  rw [← List.reverse_suffix, List.reverse_reverse]
  exact List.dropWhile_suffix isSpace

theorem windowStart_pos (total found : ℕ) : 1 ≤ windowStart total found := by
  unfold windowStart
  dsimp only
  split
  · exact Nat.le_max_left _ _
  · exact Nat.le_max_left _ _

/-- The lines of a snippet are those of its body, the mark of the gap taken out. -/
theorem Snippet.lines_more (body : Text) (first last : ℕ) (gap : Bool) :
    (⟨body ++ endMark, first, last, gap, true⟩ : Snippet).lines =
      if gap then (splitOn1 '\n' body).eraseIdx 1 else splitOn1 '\n' body := by
  unfold Snippet.lines
  dsimp only
  rw [if_pos rfl, List.length_append, Nat.add_sub_cancel, List.take_left]

theorem joinLines_occurIn {pieces lines : List Text} (hfeed : ∀ l ∈ pieces, '\n' ∉ l)
    (hpieces : pieces ≠ []) (h : OccurIn pieces lines) {body : Text}
    (hbody : body <+: joinLines pieces) : OccurIn (splitOn1 '\n' body) lines :=
  (splitOn1_cutOf pieces hpieces hfeed body hbody).occurIn h

/-- The first line and a window of the lines after it. -/
theorem deepParts_occurIn {pieces lines : List Text} {start stop : ℕ}
    (hfeed : ∀ l ∈ pieces, '\n' ∉ l) (hpieces : pieces ≠ []) (hstart : 1 ≤ start)
    (hstop : 1 ≤ stop) (h : OccurIn (pieces.take stop) lines) {body : Text}
    (hbody : body <+: joinLines (deepParts pieces start stop)) :
    OccurIn (if decide (start > 1) then (splitOn1 '\n' body).eraseIdx 1 else splitOn1 '\n' body)
      lines := by
  obtain ⟨sig, rest, rfl⟩ := List.exists_cons_of_ne_nil hpieces
  obtain ⟨stop, rfl⟩ := Nat.exists_eq_add_of_le' hstop
  have hwindow : (sig :: ((sig :: rest).take (stop + 1)).drop start).Sublist
      ((sig :: rest).take (stop + 1)) := by
    rw [List.take_succ_cons]
    apply List.Sublist.cons_cons
    obtain ⟨start, rfl⟩ := Nat.exists_eq_add_of_le' hstart
    exact List.drop_sublist start _
  have hshown := OccurIn.sublist hwindow lines h
  have hplain : ∀ l ∈ ((sig :: rest).take (stop + 1)).drop start, '\n' ∉ l := fun l hl =>
    hfeed l (List.mem_of_mem_take (List.mem_of_mem_drop hl))
  by_cases hgap : start > 1
  · rw [if_pos (decide_eq_true hgap)]
    have hparts : deepParts (sig :: rest) start (stop + 1) =
        sig :: gapMark :: ((sig :: rest).take (stop + 1)).drop start := by
      unfold deepParts
      rw [if_pos hgap]
      rfl
    rw [hparts] at hbody
    refine CutOf.occurIn_eraseIdx (splitOn1_cutOf _ (List.cons_ne_nil _ _) ?_ body hbody) hshown
    intro l hl
    rcases List.mem_cons.mp hl with rfl | hl
    · exact hfeed _ List.mem_cons_self
    · rcases List.mem_cons.mp hl with rfl | hl
      · decide
      · exact hplain l hl
  · rw [if_neg (by simpa using hgap)]
    have hparts : deepParts (sig :: rest) start (stop + 1) =
        sig :: ((sig :: rest).take (stop + 1)).drop start := by
      unfold deepParts
      rw [if_neg hgap]
      rfl
    rw [hparts] at hbody
    refine joinLines_occurIn ?_ (List.cons_ne_nil _ _) hshown hbody
    intro l hl
    rcases List.mem_cons.mp hl with rfl | hl
    · exact hfeed _ List.mem_cons_self
    · exact hplain l hl

/-- **A snippet shows lines of the content up to the end of its span.** -/
theorem boundedSnippet_occurIn (lower : Text → Text) {content : Text} (queryTokens : List Text)
    (hcontent : content ≠ []) {lines : List Text}
    (h : ∀ j, OccurIn ((splitlines content).take j) (lines.take j)) :
    OccurIn (boundedSnippet lower content queryTokens).lines
        (lines.take ((boundedSnippet lower content queryTokens).spanEnd + 1)) ∧
      (boundedSnippet lower content queryTokens).spanStart = 0 := by
  have hpieces : splitlines content ≠ [] := fun hnone => hcontent (splitlines_eq_nil content hnone)
  have hfeed : ∀ l ∈ splitlines content, '\n' ∉ l :=
    newline_notMem_pieces [] content List.not_mem_nil
  have htotal : 0 < (splitlines content).length := List.length_pos_of_ne_nil hpieces
  unfold boundedSnippet
  dsimp only
  rw [if_neg hpieces]
  cases (matchIdx lower queryTokens (splitlines content)).filter fun found => maxLines ≤ found with
  | none =>
    dsimp only
    have hcount : min maxLines (splitlines content).length - 1 + 1 =
        min maxLines (splitlines content).length := by
      unfold maxLines
      omega
    have htake : (splitlines content).take (min maxLines (splitlines content).length) ≠ [] := by
      rw [Ne, List.take_eq_nil_iff, not_or]
      refine ⟨by unfold maxLines; omega, hpieces⟩
    have hshown := h (min maxLines (splitlines content).length)
    have hbody : ∀ body, body <+: joinLines ((splitlines content).take
        (min maxLines (splitlines content).length)) →
        OccurIn (splitOn1 '\n' body)
          (lines.take (min maxLines (splitlines content).length)) := fun body hbody =>
      joinLines_occurIn (fun l hl => hfeed l (List.mem_of_mem_take hl)) htake hshown hbody
    split
    · rw [Snippet.lines_more, hcount]
      exact ⟨hbody _ ((rstrip_isPrefix _).trans (List.take_prefix _ _)), rfl⟩
    · split
      · rw [Snippet.lines_more, hcount]
        exact ⟨hbody _ (List.prefix_refl _), rfl⟩
      · rw [hcount]
        exact ⟨hbody _ (List.prefix_refl _), rfl⟩
  | some found =>
    dsimp only
    have hstart := windowStart_pos (splitlines content).length found
    have hstop : 1 ≤ windowEnd (splitlines content).length found := by
      unfold windowEnd
      omega
    have hcount : windowEnd (splitlines content).length found - 1 + 1 =
        windowEnd (splitlines content).length found := by omega
    have hshown := h (windowEnd (splitlines content).length found)
    split
    · rw [Snippet.lines_more, hcount]
      exact ⟨deepParts_occurIn hfeed hpieces hstart hstop hshown
        ((rstrip_isPrefix _).trans (List.take_prefix _ _)), rfl⟩
    · rw [hcount]
      exact ⟨deepParts_occurIn hfeed hpieces hstart hstop hshown (List.prefix_refl _), rfl⟩

end Agentrail.Chunks
