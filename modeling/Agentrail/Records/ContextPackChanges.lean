import Agentrail.Records.ContextPack
import Agentrail.Records.ExactHeadContext

/-!
# The changed lines of a context pack (`console/lib/acceptance-context-pack-compiler.ts`)

`changedSources` turns the lines of the head that a patch touches into sources, and writes down
an exclusion for what it leaves out.  `boundedPatchRanges` bounds the ranges of a file before,
and of what it cuts there is no exclusion: `accounts_for_every_line_iff` says for which changes
nothing is lost by it.
-/

namespace Agentrail.ContextPack

open Js
open ExactHead (LineRange ExactHeadChangedFile)

def maxChangedFiles : Nat := 32
def maxRangesPerFile : Nat := 8
def maxLinesPerChangedFile : Nat := 160
def maxSelectedExactRangeBytes : Nat := 12 * 1024

def metadataOnlyConfigurationPaths : List Text :=
  [".yarnrc.yml", ".cargo/config", ".cargo/config.toml"].map String.toList

/-- What reading the sources takes from the platform and from `secret-scan.ts`. -/
structure ReadHost where
  /-- `scanForSecrets(text).clean` -/
  scanClean : Text → Bool
  /-- The SHA-256 of a text in hexadecimal digits. -/
  sha256 : Text → Text
  /-- `text.toLowerCase()` -/
  toLowerCase : Text → Text

structure ExactHeadContentRecord where
  path : Text
  blobSha : Text
  contentSha256 : Text
  lineCount : Nat
  content : Text
  /-- `source` is `exact_head_overlay`, else it is `exact_head_tree_fallback`. -/
  overlay : Bool

/-! ## Ranges -/

def lines (content : Text) : List Text := content.splitOn '\n'

def rangeContent (content : Text) (range : LineRange) : Text :=
  join ['\n'] (((lines content).take range.endLine).drop (range.startLine - 1))

/-- The ranges that lie within the file, in the order of their lines. -/
def normalizedRanges (ranges : List LineRange) (lineCount : Nat) : List LineRange :=
  (ranges.filter fun range => 0 < range.startLine && range.startLine ≤ range.endLine &&
    range.endLine ≤ lineCount).insertionSort fun left right => left.before right

/-- The loop of `boundedPatchRanges`. -/
def selectRanges (remaining : Nat) : List LineRange → List LineRange
  | [] => []
  | range :: rest =>
    if remaining = 0 then []
    else
      let count := min remaining (range.endLine - range.startLine + 1)
      ⟨range.startLine, range.startLine + count - 1⟩ :: selectRanges (remaining - count) rest

def boundedPatchRanges (ranges : List LineRange) (lineCount : Nat) : List LineRange :=
  selectRanges maxLinesPerChangedFile ((normalizedRanges ranges lineCount).take maxRangesPerFile)

section
variable (host : ReadHost)

/-! ## Sources -/

/-- `kind` is `exact_head_overlay` or `exact_head_dependency`. -/
def exactSource (kind : ExactSource → Source) (record : ExactHeadContentRecord)
    (range : LineRange) (reason : Text) : Option SourceWithText :=
  let content := rangeContent record.content range
  let byteCount := bytes content
  let blobSha := host.toLowerCase record.blobSha
  if range.startLine < 1 ∨ range.endLine < range.startLine ∨ record.lineCount < range.endLine then
    none
  else if byteCount = 0 ∨ maxSelectedExactRangeBytes < byteCount ∨ !host.scanClean content then none
  else some {
    source := kind {
      path := record.path
      blobSha := blobSha
      fullContentSha256 := host.toLowerCase record.contentSha256
      startLine := range.startLine
      endLine := range.endLine
      rangeSha256 := host.sha256 content
      byteCount := byteCount
      reason := reason
      citation := record.path ++ '@' :: blobSha ++ "#L".toList ++ decimal range.startLine ++
        "-L".toList ++ decimal range.endLine }
    content := content }

def overlayExclusion (path : Text) (reason : String) (identity : Option Text) : Exclusion where
  source := .exactHeadOverlay
  path := some path
  reason := reason.toList
  identitySha256 := identity

structure ChangedSources where
  sources : List SourceWithText
  exclusions : List Exclusion

def removed : Text := "removed".toList

/-- The ranges of a file that has a patch. -/
def patchRanges (file : ExactHeadChangedFile) : Option (List LineRange) :=
  match file.headRanges with
  | none => none
  | some ranges => if ranges = [] ∨ file.patchSha256.getD [] = [] then none else some ranges

/-- The sources and exclusions of the ranges of one file. -/
def rangeSources (record : ExactHeadContentRecord) (path : Text) (ranges : List LineRange) :
    ChangedSources :=
  let selected := fun range =>
    exactSource host .exactHeadOverlay record range "exact_patch_head_range".toList
  { sources := ranges.filterMap selected
    exclusions := (ranges.filter fun range => (selected range).isNone).map fun _ =>
      overlayExclusion path "range_byte_or_secret_limit" (some record.contentSha256) }

/-- One file of the loop of `changedSources`; `none` ends it. -/
def changedFile (records : List ExactHeadContentRecord) (file : ExactHeadChangedFile) :
    Option ChangedSources :=
  if file.status = removed then
    some ⟨[], [overlayExclusion file.path "removed_at_exact_head" none]⟩
  else
    match records.find? fun record => record.path = file.path with
    | none => none
    | some record =>
      if !record.overlay ∨
          some (host.toLowerCase record.blobSha) ≠ file.blobSha.map host.toLowerCase then none
      else if metadataOnlyConfigurationPaths.contains record.path then
        some ⟨[], [overlayExclusion record.path "metadata_only_configuration_path"
          (some record.contentSha256)]⟩
      else
        match patchRanges file with
        | none =>
          some ⟨[], [overlayExclusion file.path "missing_patch_ranges"
            (some record.contentSha256)]⟩
        | some headRanges =>
          let ranges := boundedPatchRanges headRanges record.lineCount
          if ranges = [] then none else some (rangeSources host record file.path ranges)

def changedSources (changedFiles : List ExactHeadChangedFile)
    (records : List ExactHeadContentRecord) : Option ChangedSources :=
  if maxChangedFiles < (changedFiles.filter fun file => file.status ≠ removed).length then none
  else if ¬(records.map ExactHeadContentRecord.path).Nodup then none
  else (changedFiles.mapM (changedFile host records)).map fun parts =>
    ⟨parts.flatMap ChangedSources.sources, parts.flatMap ChangedSources.exclusions⟩

end

/-! ## What the account of a change is -/

/-- The line is one of the range. -/
def Covers (range : LineRange) (line : Nat) : Prop := range.startLine ≤ line ∧ line ≤ range.endLine

/-- A source of the file holds the line, or the file has an exclusion. -/
def Accounted (result : ChangedSources) (path : Text) (line : Nat) : Prop :=
  (∃ s ∈ result.sources, s.source.place.1 = path ∧
      Covers ⟨s.source.place.2.1, s.source.place.2.2⟩ line) ∨
    ∃ e ∈ result.exclusions, e.path = some path

/-- Every line of every range of a file that the head still has is accounted for. -/
def AccountsForEveryLine (changedFiles : List ExactHeadChangedFile) (result : ChangedSources) :
    Prop :=
  ∀ file ∈ changedFiles, file.status ≠ removed →
    ∀ range ∈ file.headRanges.getD [], ∀ line, Covers range line →
      Accounted result file.path line

/-! ## What is kept of the ranges -/

/-- How many lines the ranges have. -/
def lineTotal (ranges : List LineRange) : Nat :=
  (ranges.map fun range => range.endLine - range.startLine + 1).sum

/-- The piece of a range that is left of `budget` lines once the ranges before it had theirs. -/
def PieceOf (budget : Nat) (ranges : List LineRange) (piece : LineRange) : Prop :=
  ∃ before range after, ranges = before ++ range :: after ∧ lineTotal before < budget ∧
    piece = ⟨range.startLine,
      min range.endLine (range.startLine + (budget - lineTotal before) - 1)⟩

theorem mem_selectRanges {budget : Nat} {ranges : List LineRange} {piece : LineRange}
    (h : ∀ range ∈ ranges, range.startLine ≤ range.endLine) :
    piece ∈ selectRanges budget ranges ↔ PieceOf budget ranges piece := by
  induction ranges generalizing budget with
  | nil =>
    constructor
    · intro hmem
      cases hmem
    · rintro ⟨before, range, after, hsplit, _⟩
      simp at hsplit
  | cons range rest ih =>
    have hrange := h range List.mem_cons_self
    have hrest : ∀ r ∈ rest, r.startLine ≤ r.endLine := fun r hr => h r (List.mem_cons_of_mem _ hr)
    unfold selectRanges
    by_cases hzero : budget = 0
    · rw [if_pos hzero]
      constructor
      · intro hmem
        cases hmem
      · rintro ⟨before, _, _, _, hbudget, _⟩
        omega
    · rw [if_neg hzero, List.mem_cons, ih hrest]
      constructor
      · rintro (rfl | ⟨before, r, after, rfl, hbudget, rfl⟩)
        · refine ⟨[], range, rest, rfl, by simp [lineTotal]; omega, ?_⟩
          simp only [lineTotal, List.map_nil, List.sum_nil, LineRange.mk.injEq, true_and]
          omega
        · refine ⟨range :: before, r, after, rfl, ?_, ?_⟩
          · simp only [lineTotal, List.map_cons, List.sum_cons] at hbudget ⊢
            omega
          · simp only [lineTotal, List.map_cons, List.sum_cons, LineRange.mk.injEq,
              true_and] at hbudget ⊢
            omega
      · rintro ⟨before, r, after, hsplit, hbudget, rfl⟩
        cases before with
        | nil =>
          obtain ⟨rfl, rfl⟩ := List.cons.inj hsplit
          left
          simp only [lineTotal, List.map_nil, List.sum_nil, LineRange.mk.injEq, true_and]
          omega
        | cons first before =>
          obtain ⟨rfl, rfl⟩ := List.cons.inj hsplit
          right
          simp only [lineTotal, List.map_cons, List.sum_cons] at hbudget
          refine ⟨before, r, after, rfl, by unfold lineTotal; omega, ?_⟩
          simp only [lineTotal, List.map_cons, List.sum_cons, LineRange.mk.injEq, true_and]
          omega

/-- The pieces that the bounds of the pack leave of a file's ranges: of the first eight ranges
within the file what is left of 160 lines. -/
def Keeps (lineCount : Nat) (ranges : List LineRange) (piece : LineRange) : Prop :=
  PieceOf maxLinesPerChangedFile ((normalizedRanges ranges lineCount).take maxRangesPerFile) piece

theorem mem_normalizedRanges {ranges : List LineRange} {lineCount : Nat} {range : LineRange} :
    range ∈ normalizedRanges ranges lineCount ↔ range ∈ ranges ∧ 0 < range.startLine ∧
      range.startLine ≤ range.endLine ∧ range.endLine ≤ lineCount := by
  unfold normalizedRanges
  rw [List.mem_insertionSort, List.mem_filter]
  simp [and_assoc]

theorem mem_boundedPatchRanges {ranges : List LineRange} {lineCount : Nat} {piece : LineRange} :
    piece ∈ boundedPatchRanges ranges lineCount ↔ Keeps lineCount ranges piece := by
  apply mem_selectRanges
  intro range hrange
  exact (mem_normalizedRanges.mp (List.mem_of_mem_take hrange)).2.2.1

/-- A kept piece lies within the file. -/
theorem Keeps.within {ranges : List LineRange} {lineCount : Nat} {piece : LineRange}
    (h : Keeps lineCount ranges piece) :
    1 ≤ piece.startLine ∧ piece.startLine ≤ piece.endLine ∧ piece.endLine ≤ lineCount := by
  obtain ⟨before, range, after, hsplit, hbudget, rfl⟩ := h
  have hmem : range ∈ (normalizedRanges ranges lineCount).take maxRangesPerFile := by
    rw [hsplit]
    exact List.mem_append_right before List.mem_cons_self
  obtain ⟨_, hstart, hend, hcount⟩ := mem_normalizedRanges.mp (List.mem_of_mem_take hmem)
  refine ⟨hstart, ?_, ?_⟩
  · show range.startLine ≤ min range.endLine _
    omega
  · show min range.endLine _ ≤ lineCount
    omega

section
variable {host : ReadHost} {records : List ExactHeadContentRecord}

/-- The text of the piece is empty, too long or has a secret in it. -/
def Refused (host : ReadHost) (record : ExactHeadContentRecord) (piece : LineRange) : Prop :=
  bytes (rangeContent record.content piece) = 0 ∨
    maxSelectedExactRangeBytes < bytes (rangeContent record.content piece) ∨
    host.scanClean (rangeContent record.content piece) = false

theorem exactSource_eq_none {kind : ExactSource → Source} {record : ExactHeadContentRecord}
    {ranges : List LineRange} {piece : LineRange} {reason : Text}
    (h : Keeps record.lineCount ranges piece) :
    exactSource host kind record piece reason = none ↔ Refused host record piece := by
  obtain ⟨hstart, hend, hcount⟩ := h.within
  unfold exactSource Refused
  dsimp only
  rw [if_neg (by omega)]
  simp only [Bool.not_eq_true', ite_eq_left_iff, reduceCtorEq, imp_false, not_not]

theorem exactSource_place {record : ExactHeadContentRecord} {piece : LineRange} {reason : Text}
    {s : SourceWithText}
    (h : exactSource host .exactHeadOverlay record piece reason = some s) :
    s.source.place = (record.path, piece.startLine, piece.endLine) := by
  unfold exactSource at h
  dsimp only at h
  split at h
  · cases h
  · split at h
    · cases h
    · cases h
      rfl

/-! ## What one file leaves -/

/-- The file has an exclusion: it is removed, only its metadata counts, it has no patch, or one
of the kept pieces is refused. -/
def Excludes (host : ReadHost) (records : List ExactHeadContentRecord)
    (file : ExactHeadChangedFile) : Prop :=
  file.status = removed ∨ file.path ∈ metadataOnlyConfigurationPaths ∨ patchRanges file = none ∨
    ∃ record ∈ records, record.path = file.path ∧
      ∃ piece, Keeps record.lineCount ((patchRanges file).getD []) piece ∧
        Refused host record piece

/-- A kept piece of the file's ranges holds the line. -/
def HoldsLine (records : List ExactHeadContentRecord) (file : ExactHeadChangedFile)
    (line : Nat) : Prop :=
  ∃ record ∈ records, record.path = file.path ∧
    ∃ piece, Keeps record.lineCount ((patchRanges file).getD []) piece ∧ Covers piece line

/-- What holds of the part that one file adds to the result. -/
structure PartOf (host : ReadHost) (records : List ExactHeadContentRecord)
    (file : ExactHeadChangedFile) (part : ChangedSources) : Prop where
  sources : ∀ s ∈ part.sources, s.source.place.1 = file.path
  exclusions : ∀ e ∈ part.exclusions, e.path = some file.path
  lines : ∀ line, ((∃ s ∈ part.sources, Covers ⟨s.source.place.2.1, s.source.place.2.2⟩ line) ∨
    part.exclusions ≠ []) ↔ Excludes host records file ∨ HoldsLine records file line

theorem PartOf.single {file : ExactHeadChangedFile} (h : Excludes host records file)
    {reason : String} {identity : Option Text} :
    PartOf host records file ⟨[], [overlayExclusion file.path reason identity]⟩ where
  sources := fun s hs => by cases hs
  exclusions := fun e he => by
    rw [List.mem_singleton.mp he]
    rfl
  lines := fun line => by simp [h]

theorem PartOf.ranges {file : ExactHeadChangedFile} {record : ExactHeadContentRecord}
    (hrecord : record ∈ records) (hpath : record.path = file.path)
    (hunique : ∀ r ∈ records, r.path = file.path → r = record)
    (hremoved : file.status ≠ removed)
    (hmetadata : file.path ∉ metadataOnlyConfigurationPaths)
    {headRanges : List LineRange} (hranges : patchRanges file = some headRanges) :
    PartOf host records file
      (rangeSources host record file.path (boundedPatchRanges headRanges record.lineCount)) where
  sources := by
    intro s hs
    obtain ⟨piece, _, hsource⟩ := List.mem_filterMap.mp hs
    rw [exactSource_place hsource]
    exact hpath
  exclusions := by
    intro e he
    obtain ⟨piece, _, rfl⟩ := List.mem_map.mp he
    rfl
  lines := by
    intro line
    have hexcludes : Excludes host records file ↔
        ∃ piece, Keeps record.lineCount headRanges piece ∧ Refused host record piece := by
      unfold Excludes
      rw [hranges]
      constructor
      · rintro (h | h | h | ⟨r, hr, hrpath, piece, hkeeps, hrefused⟩)
        · exact absurd h hremoved
        · exact absurd h hmetadata
        · cases h
        · rw [hunique r hr hrpath] at hkeeps hrefused
          exact ⟨piece, hkeeps, hrefused⟩
      · rintro ⟨piece, hkeeps, hrefused⟩
        exact Or.inr (Or.inr (Or.inr ⟨record, hrecord, hpath, piece, hkeeps, hrefused⟩))
    have hholds : HoldsLine records file line ↔
        ∃ piece, Keeps record.lineCount headRanges piece ∧ Covers piece line := by
      unfold HoldsLine
      rw [hranges]
      constructor
      · rintro ⟨r, hr, hrpath, piece, hkeeps, hcovers⟩
        rw [hunique r hr hrpath] at hkeeps
        exact ⟨piece, hkeeps, hcovers⟩
      · rintro ⟨piece, hkeeps, hcovers⟩
        exact ⟨record, hrecord, hpath, piece, hkeeps, hcovers⟩
    rw [hexcludes, hholds]
    constructor
    · rintro (⟨s, hs, hcovers⟩ | hexclusions)
      · obtain ⟨piece, hpiece, hsource⟩ := List.mem_filterMap.mp hs
        rw [exactSource_place hsource] at hcovers
        exact Or.inr ⟨piece, mem_boundedPatchRanges.mp hpiece, hcovers⟩
      · obtain ⟨e, he⟩ := List.exists_mem_of_ne_nil _ hexclusions
        obtain ⟨piece, hpiece, _⟩ := List.mem_map.mp he
        obtain ⟨hmem, hnone⟩ := List.mem_filter.mp hpiece
        have hkeeps := mem_boundedPatchRanges.mp hmem
        exact Or.inl ⟨piece, hkeeps,
          (exactSource_eq_none hkeeps).mp (Option.isNone_iff_eq_none.mp hnone)⟩
    · have hrefuse : ∀ piece, Keeps record.lineCount headRanges piece →
          Refused host record piece →
          (rangeSources host record file.path
            (boundedPatchRanges headRanges record.lineCount)).exclusions ≠ [] := by
        intro piece hkeeps hrefused
        apply List.ne_nil_of_mem
        apply List.mem_map.mpr
        exact ⟨piece, List.mem_filter.mpr ⟨mem_boundedPatchRanges.mpr hkeeps,
          Option.isNone_iff_eq_none.mpr ((exactSource_eq_none hkeeps).mpr hrefused)⟩, rfl⟩
      rintro (⟨piece, hkeeps, hrefused⟩ | ⟨piece, hkeeps, hcovers⟩)
      · exact Or.inr (hrefuse piece hkeeps hrefused)
      · by_cases hrefused : Refused host record piece
        · exact Or.inr (hrefuse piece hkeeps hrefused)
        · have hsome := (@exactSource_eq_none host .exactHeadOverlay record headRanges piece
            "exact_patch_head_range".toList hkeeps).not.mpr hrefused
          obtain ⟨s, hs⟩ := Option.ne_none_iff_exists'.mp hsome
          refine Or.inl ⟨s, List.mem_filterMap.mpr
            ⟨piece, mem_boundedPatchRanges.mpr hkeeps, hs⟩, ?_⟩
          rw [exactSource_place hs]
          exact hcovers

theorem partOf_changedFile {file : ExactHeadChangedFile} {part : ChangedSources}
    (hnodup : (records.map ExactHeadContentRecord.path).Nodup)
    (h : changedFile host records file = some part) : PartOf host records file part := by
  unfold changedFile at h
  split at h
  · rename_i hremoved
    cases h
    exact PartOf.single (Or.inl hremoved)
  · rename_i hremoved
    split at h
    · cases h
    · rename_i record hfound
      have hpath : record.path = file.path := by simpa using List.find?_some hfound
      have hrecord := List.mem_of_find?_eq_some hfound
      split at h
      · cases h
      · split at h
        · rename_i hmetadata
          cases h
          rw [hpath] at hmetadata ⊢
          exact PartOf.single (Or.inr (Or.inl (by simpa using hmetadata)))
        · rename_i hmetadata
          split at h
          · rename_i hranges
            cases h
            exact PartOf.single (Or.inr (Or.inr (Or.inl hranges)))
          · rename_i headRanges hranges
            dsimp only at h
            split at h
            · cases h
            · cases h
              rw [hpath] at hmetadata
              refine PartOf.ranges hrecord hpath ?_ hremoved (by simpa using hmetadata) hranges
              intro r hr hrpath
              exact List.inj_on_of_nodup_map hnodup hr hrecord (hrpath.trans hpath.symm)

/-! ## The account of a change -/

/-- The parts of the result are those of the files. -/
theorem forall₂_changedFile {files : List ExactHeadChangedFile} {parts : List ChangedSources}
    (h : files.mapM (changedFile host records) = some parts) :
    List.Forall₂ (fun file part => changedFile host records file = some part) files parts := by
  induction files generalizing parts with
  | nil =>
    cases h
    exact List.Forall₂.nil
  | cons file files ih =>
    rw [List.mapM_cons] at h
    obtain ⟨part, hpart, h⟩ := Option.bind_eq_some_iff.mp h
    obtain ⟨rest, hrest, h⟩ := Option.bind_eq_some_iff.mp h
    cases h
    exact List.Forall₂.cons hpart (ih hrest)

theorem changedSources_eq_some {files : List ExactHeadChangedFile} {result : ChangedSources}
    (h : changedSources host files records = some result) :
    ∃ parts, List.Forall₂ (PartOf host records) files parts ∧
      result = ⟨parts.flatMap ChangedSources.sources,
        parts.flatMap ChangedSources.exclusions⟩ := by
  unfold changedSources at h
  split at h
  · cases h
  · split at h
    · cases h
    · rename_i hnodup
      obtain ⟨parts, hparts, rfl⟩ := Option.map_eq_some_iff.mp h
      exact ⟨parts, (forall₂_changedFile hparts).imp fun _ _ hpart =>
        partOf_changedFile (not_not.mp hnodup) hpart, rfl⟩

theorem accounted_append (a b : ChangedSources) (path : Text) (line : Nat) :
    Accounted ⟨a.sources ++ b.sources, a.exclusions ++ b.exclusions⟩ path line ↔
      Accounted a path line ∨ Accounted b path line := by
  unfold Accounted
  simp only [List.mem_append, or_and_right, exists_or]
  exact or_or_or_comm

theorem PartOf.accounted_iff {file : ExactHeadChangedFile} {part : ChangedSources}
    (hpart : PartOf host records file part) (path : Text) (line : Nat) :
    Accounted part path line ↔
      file.path = path ∧ (Excludes host records file ∨ HoldsLine records file line) := by
  rw [← hpart.lines line]
  constructor
  · rintro (⟨s, hs, hpath, hcovers⟩ | ⟨e, he, hpath⟩)
    · exact ⟨(hpart.sources s hs).symm.trans hpath, Or.inl ⟨s, hs, hcovers⟩⟩
    · have hfile := (hpart.exclusions e he).symm.trans hpath
      exact ⟨Option.some.inj hfile, Or.inr (List.ne_nil_of_mem he)⟩
  · rintro ⟨rfl, ⟨s, hs, hcovers⟩ | hexclusions⟩
    · exact Or.inl ⟨s, hs, hpart.sources s hs, hcovers⟩
    · obtain ⟨e, he⟩ := List.exists_mem_of_ne_nil _ hexclusions
      exact Or.inr ⟨e, he, hpart.exclusions e he⟩

theorem accounted_iff_parts {files : List ExactHeadChangedFile} {parts : List ChangedSources}
    (h : List.Forall₂ (PartOf host records) files parts) (path : Text) (line : Nat) :
    Accounted ⟨parts.flatMap ChangedSources.sources,
        parts.flatMap ChangedSources.exclusions⟩ path line ↔
      ∃ file ∈ files, file.path = path ∧
        (Excludes host records file ∨ HoldsLine records file line) := by
  induction h with
  | nil => simp [Accounted]
  | @cons file part files parts hpart hparts ih =>
    have happend := accounted_append part ⟨parts.flatMap ChangedSources.sources,
      parts.flatMap ChangedSources.exclusions⟩ path line
    rw [hpart.accounted_iff, ih] at happend
    rw [List.flatMap_cons, List.flatMap_cons, happend]
    simp [or_and_right, exists_or]

/-- The result accounts for every line of a change if and only if the file of every line has an
exclusion or keeps the line: it is in what is left of 160 lines of the file's first eight
ranges. -/
theorem accounts_for_every_line_iff (host : ReadHost) (changedFiles : List ExactHeadChangedFile)
    (records : List ExactHeadContentRecord) (result : ChangedSources)
    (h : changedSources host changedFiles records = some result) :
    AccountsForEveryLine changedFiles result ↔
      ∀ file ∈ changedFiles, file.status ≠ removed →
        ∀ range ∈ file.headRanges.getD [], ∀ line, Covers range line →
          ∃ other ∈ changedFiles, other.path = file.path ∧
            (Excludes host records other ∨ HoldsLine records other line) := by
  obtain ⟨parts, hparts, rfl⟩ := changedSources_eq_some h
  unfold AccountsForEveryLine
  simp only [accounted_iff_parts hparts]

/-! ## Ranges in order -/

/-- The ranges of a validated snapshot: within the file, one behind the other. -/
structure InOrder (ranges : List LineRange) (lineCount : Nat) : Prop where
  within : ∀ range ∈ ranges, 0 < range.startLine ∧ range.startLine ≤ range.endLine ∧
    range.endLine ≤ lineCount
  apart : ranges.Pairwise fun left right => left.endLine < right.startLine

theorem InOrder.normalizedRanges_eq {ranges : List LineRange} {lineCount : Nat}
    (h : InOrder ranges lineCount) : normalizedRanges ranges lineCount = ranges := by
  have hkept : (ranges.filter fun range => 0 < range.startLine &&
      range.startLine ≤ range.endLine && range.endLine ≤ lineCount) = ranges := by
    apply List.filter_eq_self.mpr
    intro range hrange
    obtain ⟨hstart, hend, hcount⟩ := h.within range hrange
    simp [hstart, hend, hcount]
  unfold normalizedRanges
  rw [hkept]
  apply List.Pairwise.insertionSort_eq
  apply h.apart.imp_of_mem
  intro left right hleft _ hapart
  have hend := (h.within left hleft).2.1
  unfold LineRange.before
  simp only [Bool.or_eq_true, decide_eq_true_eq]
  exact Or.inl (by omega)

theorem lineTotal_append (a b : List LineRange) :
    lineTotal (a ++ b) = lineTotal a + lineTotal b := by
  unfold lineTotal
  rw [List.map_append, List.sum_append]

/-- Of ranges in order every line is kept if and only if there are eight at most, with 160 lines
at most. -/
theorem InOrder.keeps_every_line_iff {ranges : List LineRange} {lineCount : Nat}
    (h : InOrder ranges lineCount) :
    (∀ range ∈ ranges, ∀ line, Covers range line →
      ∃ piece, Keeps lineCount ranges piece ∧ Covers piece line) ↔
      ranges.length ≤ maxRangesPerFile ∧ lineTotal ranges ≤ maxLinesPerChangedFile := by
  unfold Keeps
  rw [h.normalizedRanges_eq]
  constructor
  · intro hkeeps
    rcases List.eq_nil_or_concat ranges with rfl | ⟨init, last, rfl⟩
    · exact ⟨Nat.zero_le _, Nat.zero_le _⟩
    rw [List.concat_eq_append] at h hkeeps ⊢
    have hlast : last ∈ init ++ [last] := List.mem_append_right init (List.mem_singleton.mpr rfl)
    have hend := (h.within last hlast).2.1
    -- the last line of all lies behind every range but the last
    have hbefore : ∀ range ∈ init, range.endLine < last.startLine := fun range hrange =>
      (List.pairwise_append.mp h.apart).2.2 range hrange last (List.mem_singleton.mpr rfl)
    obtain ⟨piece, ⟨before, range, after, hsplit, hbudget, rfl⟩, _, hcovers⟩ :=
      hkeeps last hlast last.endLine ⟨hend, le_refl _⟩
    dsimp only at hcovers
    have hrange : range ∉ init := fun hmem => by
      have hlt := hbefore range hmem
      omega
    have hin : range ∈ (init ++ [last]).take maxRangesPerFile := by
      rw [hsplit]
      exact List.mem_append_right before List.mem_cons_self
    have hlength : (init ++ [last]).length ≤ maxRangesPerFile := by
      by_contra hlong
      rw [List.length_append, List.length_singleton, not_le] at hlong
      rw [List.take_append_of_le_length (by omega)] at hin
      exact hrange (List.mem_of_mem_take hin)
    rw [List.take_of_length_le hlength] at hsplit
    have hafter : after = [] := by
      by_contra hne
      obtain ⟨rest, x, rfl⟩ := List.eq_nil_or_concat after |>.resolve_left hne
      rw [List.concat_eq_append, ← List.cons_append, ← List.append_assoc] at hsplit
      have hinit := (List.append_inj' hsplit rfl).1
      exact hrange (hinit ▸ List.mem_append_right before List.mem_cons_self)
    subst hafter
    obtain ⟨rfl, hone⟩ := List.append_inj' hsplit rfl
    cases hone
    refine ⟨hlength, ?_⟩
    rw [lineTotal_append]
    simp only [lineTotal, List.map_cons, List.map_nil, List.sum_cons, List.sum_nil]
      at hbudget hcovers ⊢
    omega
  · rintro ⟨hlength, htotal⟩ range hrange line hline
    rw [List.take_of_length_le hlength]
    obtain ⟨before, after, rfl⟩ := List.append_of_mem hrange
    have hend := (h.within range hrange).2.1
    rw [lineTotal_append] at htotal
    simp only [lineTotal, List.map_cons, List.sum_cons] at htotal
    refine ⟨_, ⟨before, range, after, rfl, by unfold lineTotal; omega, rfl⟩, hline.1, ?_⟩
    have hle := hline.2
    simp only [lineTotal]
    omega

theorem keeps_every_line_of_two :
    (∀ range ∈ [(⟨1, 2⟩ : LineRange), ⟨4, 4⟩], ∀ line, Covers range line →
      ∃ piece, Keeps 5 [⟨1, 2⟩, ⟨4, 4⟩] piece ∧ Covers piece line) ↔
      [(⟨1, 2⟩ : LineRange), ⟨4, 4⟩].length ≤ maxRangesPerFile ∧
        lineTotal [⟨1, 2⟩, ⟨4, 4⟩] ≤ maxLinesPerChangedFile :=
  InOrder.keeps_every_line_iff ⟨by decide, by decide⟩

end

/-! ## A ninth hunk -/

/-- The platform on the lines of `seventeenLines`. -/
def plainHost : ReadHost where
  scanClean := fun _ => true
  sha256 := fun _ => "2d711642b726b04401627ca9fbac32f5c8530fb1903cc4db02258717921a4881".toList
  toLowerCase := fun t => t.map Char.toLower

def seventeenLines : ExactHeadContentRecord where
  path := "notes.txt".toList
  blobSha := "d7f98dfb883be4e0125cbecc4a84a9f5e2679e1a".toList
  contentSha256 := "c7c5733bfc3023a33a83638c0b14001b81c65894c60ded9f8601afdffddd8ea0".toList
  lineCount := 17
  content := "x\nx\nx\nx\nx\nx\nx\nx\nx\nx\nx\nx\nx\nx\nx\nx\nx".toList
  overlay := true

/-- `notes.txt` with a hunk at each of these lines. -/
def hunksAt (hunkLines : List Nat) : ExactHeadChangedFile where
  path := "notes.txt".toList
  status := "modified".toList
  blobSha := some "d7f98dfb883be4e0125cbecc4a84a9f5e2679e1a".toList
  previousPath := none
  headRanges := some (hunkLines.map fun line => ⟨line, line⟩)
  patchSha256 := some "cb1d401dadeef8058e911f93752b7487144555a0592fe268348b57df038851f2".toList
  patchByteCount := some 169

/-- Of nine changed lines the ninth has neither a source nor an exclusion. -/
theorem ninth_hunk_is_dropped :
    ∃ result, changedSources plainHost [hunksAt [1, 3, 5, 7, 9, 11, 13, 15, 17]]
        [seventeenLines] = some result ∧
      ¬AccountsForEveryLine [hunksAt [1, 3, 5, 7, 9, 11, 13, 15, 17]] result := by
  have hsome : (changedSources plainHost [hunksAt [1, 3, 5, 7, 9, 11, 13, 15, 17]]
      [seventeenLines]).isSome = true := by decide
  obtain ⟨result, hresult⟩ := Option.isSome_iff_exists.mp hsome
  have hexclusions : (changedSources plainHost [hunksAt [1, 3, 5, 7, 9, 11, 13, 15, 17]]
      [seventeenLines]).map ChangedSources.exclusions = some [] := by decide
  have hplaces : (changedSources plainHost [hunksAt [1, 3, 5, 7, 9, 11, 13, 15, 17]]
      [seventeenLines]).map (fun r => r.sources.map fun s => s.source.place.2) =
        some [(1, 1), (3, 3), (5, 5), (7, 7), (9, 9), (11, 11), (13, 13), (15, 15)] := by decide
  rw [hresult] at hexclusions hplaces
  refine ⟨result, hresult, fun h => ?_⟩
  have hline := h _ (List.mem_singleton.mpr rfl) (by decide) ⟨17, 17⟩ (by decide) 17
    ⟨le_refl _, le_refl _⟩
  rcases hline with ⟨s, hs, _, hcovers⟩ | ⟨e, he, _⟩
  · have hplace : s.source.place.2 ∈ result.sources.map fun s => s.source.place.2 :=
      List.mem_map.mpr ⟨s, hs, rfl⟩
    have hall : (result.sources.map fun s => s.source.place.2) =
        [(1, 1), (3, 3), (5, 5), (7, 7), (9, 9), (11, 11), (13, 13), (15, 15)] :=
      Option.some.inj hplaces
    rw [hall] at hplace
    have hend : ∀ place ∈ [(1, 1), (3, 3), (5, 5), (7, 7), (9, 9), (11, 11), (13, 13), (15, 15)],
        place.2 < 17 := by decide
    exact absurd hcovers.2 (not_le.mpr (hend _ hplace))
  · rw [Option.some.inj hexclusions] at he
    cases he

/-- One changed line is accounted for. -/
theorem one_hunk_is_kept :
    ∃ result, changedSources plainHost [hunksAt [3]] [seventeenLines] = some result ∧
      AccountsForEveryLine [hunksAt [3]] result := by
  have hsome : (changedSources plainHost [hunksAt [3]] [seventeenLines]).isSome = true := by decide
  obtain ⟨result, hresult⟩ := Option.isSome_iff_exists.mp hsome
  refine ⟨result, hresult,
    (accounts_for_every_line_iff plainHost _ _ result hresult).mpr ?_⟩
  intro file hfile _ range hrange line hline
  rw [List.mem_singleton] at hfile
  subst hfile
  have hthree : range = ⟨3, 3⟩ := List.mem_singleton.mp hrange
  subst hthree
  have hkeeps : Keeps 17 [⟨3, 3⟩] ⟨3, 3⟩ :=
    ⟨[], ⟨3, 3⟩, [], by decide, by decide, by decide⟩
  have hranges : (patchRanges (hunksAt [3])).getD [] = [⟨3, 3⟩] := by decide
  have hpath : seventeenLines.path = (hunksAt [3]).path := by decide
  refine ⟨hunksAt [3], List.mem_singleton.mpr rfl, rfl, Or.inr ⟨seventeenLines,
    List.mem_singleton.mpr rfl, hpath, ⟨3, 3⟩, ?_, hline⟩⟩
  rw [hranges]
  exact hkeeps

end Agentrail.ContextPack
