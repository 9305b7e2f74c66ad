import Agentrail.Py.Basic
import Agentrail.Records.ExactHeadContext
import Mathlib.Data.Option.Basic

/-!
# The stages behind the exact-head snapshot

Source custody (`console/lib/acceptance-context-pack-source-custody.ts`) and the
materializer (`console/lib/github-exact-head-content.ts`) check a snapshot again before
they use it.  A snapshot that was read from GitHub passes every stage if and only if the
comparison is agreeable (`stages_agree_iff`): no removed file carries its old blob, no two
paths have one key, the patches and the name of the repository are short.
-/

namespace Agentrail.ExactHead

open Js
open ExactGitTree (textAt arrayAt splitPath)

/-! ## Source custody -/

/-- `STATUSES`. -/
def statuses : List Text := fileStatuses

def safePath : Text → Bool := safeRelative

/-- `none` where the ranges are wrong (`undefined`), `some none` where there are none. -/
def canonicalRanges (file : ExactHeadChangedFile) : Option (Option (List LineRange)) :=
  match file.headRanges with
  | none => some none
  | some ranges =>
    if ranges.any fun range => maxSafeInteger < range.startLine ||
        maxSafeInteger < range.endLine || range.startLine < 1 || range.endLine < range.startLine
    then none
    else
      let sorted := ranges.insertionSort fun left right => left.before right
      if sorted ≠ ranges || !rangesApart sorted then none else some (some ranges)

/-- The patch of a file is whole or absent as a whole. -/
def admittedPatch (file : ExactHeadChangedFile) : Bool :=
  match canonicalRanges file, file.patchSha256, file.patchByteCount with
  | some none, none, none => true
  | some (some ranges), some patchSha256, some patchByteCount =>
    ranges ≠ [] && ranges.length ≤ 128 && isHex 64 patchSha256 &&
      patchByteCount ≤ maxSafeInteger && 0 < patchByteCount && patchByteCount ≤ 2 * 1024 * 1024
  | _, _, _ => false

/-- The rules for a file of an admitted snapshot, behind files with the paths `seen`. -/
def admittedFile (seen : List Text) (file : ExactHeadChangedFile) : Bool :=
  safePath file.path && file.path ∉ seen && file.status ∈ statuses && admittedPatch file &&
    (if file.status = removed then file.blobSha = none
      else file.blobSha.any fun sha => isHex 40 sha) &&
    (if file.status = renamed then
        file.previousPath.any fun previous => safePath previous && previous ≠ file.path
      else file.previousPath = none)

def admittedFiles (seen : List Text) : List ExactHeadChangedFile → Bool
  | [] => true
  | file :: rest => admittedFile seen file && admittedFiles (file.path :: seen) rest

/-- The file of a manifest with its blob in lower case. -/
def lowerManifestFile (file : ExactHeadChangedFile) : ManifestFile :=
  ⟨file.path, file.status, file.blobSha.map toLowerCase, file.previousPath⟩

/-- The digest of the manifest that a snapshot lists. -/
def manifestSha256Of (host : Host) (snapshot : ExactHeadGithubContextSnapshot) : Text :=
  acceptanceContextOverlayManifestSha256 host (toLowerCase snapshot.baseSha)
    (toLowerCase snapshot.mergeBaseSha) (toLowerCase snapshot.headSha)
    (snapshot.changedFiles.map lowerManifestFile)

def snapshotIsAdmitted (host : Host) (snapshot : ExactHeadGithubContextSnapshot) : Bool :=
  safePath snapshot.repo && isRepo snapshot.repo && isInteger snapshot.prNumber &&
    1 ≤ snapshot.prNumber && isHex 40 snapshot.baseSha && isHex 40 snapshot.mergeBaseSha &&
    isHex 40 snapshot.headSha && isHex 40 snapshot.headTreeSha &&
    isHex 64 snapshot.manifestSha256 && admittedFiles [] snapshot.changedFiles &&
    toLowerCase snapshot.manifestSha256 = manifestSha256Of host snapshot

/-! ## The materializer -/

/-- `CHANGED_STATUSES`. -/
def changedStatuses : List Text := fileStatuses

def isSafePath : Text → Bool := safeRelative

/-- The rules that a file of a materialized snapshot breaks, behind files with the keys `seen`
and the path `previousPath`. -/
def invalidFile (host : Host) (seen : List Text) (previousPath : Option Text)
    (file : ExactHeadChangedFile) : Bool :=
  !isSafePath file.path || host.pathKey file.path ∈ seen || file.status ∉ changedStatuses ||
    previousPath.any (fun previous => !textLt previous file.path) ||
    if file.status = removed then
      file.blobSha.any (fun sha => !isSha sha) || file.previousPath ≠ none
    else
      !file.blobSha.any (fun sha => isSha sha) ||
        (file.status = renamed &&
          !file.previousPath.any fun previous => isSafePath previous && previous ≠ file.path) ||
        (file.status ≠ renamed && file.previousPath ≠ none)

def invalidFiles (host : Host) (seen : List Text) (previousPath : Option Text) :
    List ExactHeadChangedFile → Bool
  | [] => false
  | file :: rest => invalidFile host seen previousPath file ||
    invalidFiles host (host.pathKey file.path :: seen) (some file.path) rest

def invalidInput (host : Host) (snapshot : ExactHeadGithubContextSnapshot) : Bool :=
  !isRepo snapshot.repo || (splitPath snapshot.repo).any isDots ||
    !isInteger snapshot.prNumber || snapshot.prNumber ≤ 0 || !isSha snapshot.headSha ||
    !isSha snapshot.headTreeSha || !isSha snapshot.baseSha || !isSha snapshot.mergeBaseSha ||
    invalidFiles host [] none snapshot.changedFiles

def hasValidManifest (host : Host) (snapshot : ExactHeadGithubContextSnapshot) : Bool :=
  snapshot.manifestSha256 = manifestSha256Of host snapshot

/-! ## What the stages ask for -/

/-- Every stage behind the parser takes a snapshot. -/
def Accepted (host : Host) (snapshot : ExactHeadGithubContextSnapshot) : Prop :=
  (exactHeadContextCustodyOverlay host snapshot).isSome ∧ snapshotIsAdmitted host snapshot ∧
    invalidInput host snapshot = false ∧ hasValidManifest host snapshot

/-- The files that a comparison lists. -/
def filesOf (response : Json) : List Json := (arrayAt "files" response).getD []

/-- What a comparison has to be, beyond what the parser asks for. -/
structure Agreeable (host : Host) (repo : Text) (response : Json) : Prop where
  repo_short : codeUnits repo ≤ maxPathUnits
  /-- No removed file carries the blob that it had. -/
  removed_bare : ∀ file ∈ filesOf response, textAt "status" file = some removed →
    ∀ sha, textAt "sha" file = some sha → ¬ isSha sha
  patch_short : ∀ file ∈ filesOf response, textAt "status" file ≠ some removed →
    ∀ patch, textAt "patch" file = some patch →
      (utf8 patch).length ≤ maxExactHeadCompareResponseBytes
  keys_distinct :
    (((filesOf response).filterMap (textAt "filename")).map host.pathKey).Nodup

/-! ## The ranges of a patch -/

/-- What the later stages ask of the lines of a patch. -/
structure RangesOk (ranges : List LineRange) : Prop where
  bounds : ∀ range ∈ ranges, 1 ≤ range.startLine ∧ range.startLine ≤ range.endLine ∧
    range.endLine ≤ maxExactHeadPatchLine
  apart : ranges.IsChain Apart

/-- A range that reaches further is as far from what stands before it. -/
theorem isChain_extend {ranges : List LineRange} {previous : LineRange} {line : Nat}
    (h : (ranges ++ [previous]).IsChain Apart) :
    (ranges ++ [{ previous with endLine := line }]).IsChain Apart := by
  rw [List.isChain_append] at h ⊢
  refine ⟨h.1, List.isChain_singleton _, fun a ha b hb => ?_⟩
  obtain rfl : b = { previous with endLine := line } := by simpa using hb.symm
  exact h.2.2 a ha previous (by simp)

theorem mergeRange_ok {merged : List LineRange} {range : LineRange} (h : RangesOk merged)
    (hrange : 1 ≤ range.startLine ∧ range.startLine ≤ range.endLine ∧
      range.endLine ≤ maxExactHeadPatchLine) : RangesOk (mergeRange merged range) := by
  rcases List.eq_nil_or_concat merged with rfl | ⟨init, previous, rfl⟩
  · exact ⟨by simpa [mergeRange] using hrange, List.isChain_singleton _⟩
  · have hlast : (init ++ [previous]).getLast? = some previous := by simp
    have hprevious := h.bounds previous (by simp)
    simp only [List.concat_eq_append] at h ⊢
    unfold mergeRange
    rw [hlast]
    dsimp only
    split
    · refine ⟨?_, ?_⟩
      · intro r hr
        rw [List.dropLast_concat, List.mem_append, List.mem_singleton] at hr
        rcases hr with hr | rfl
        · exact h.bounds r (by simp [hr])
        · dsimp only
          omega
      · rw [List.dropLast_concat]
        exact isChain_extend h.apart
    · refine ⟨?_, ?_⟩
      · intro r hr
        rw [List.mem_append, List.mem_singleton] at hr
        rcases hr with hr | rfl
        · exact h.bounds r hr
        · exact hrange
      · rw [List.isChain_append]
        refine ⟨h.apart, List.isChain_singleton _, fun a ha b hb => ?_⟩
        obtain rfl : b = range := by simpa using hb.symm
        obtain rfl : a = previous := by simpa using ha.symm
        unfold Apart
        omega

theorem length_mergeRange (merged : List LineRange) (range : LineRange) :
    (mergeRange merged range).length ≤ merged.length + 1 := by
  unfold mergeRange
  split
  · simp
  · split <;> simp

/-- What the loop that joins ranges keeps, range after range. -/
theorem foldl_mergeRange_ok {ranges merged : List LineRange} (h : RangesOk merged)
    (hranges : ∀ range ∈ ranges, 1 ≤ range.startLine ∧ range.startLine ≤ range.endLine ∧
      range.endLine ≤ maxExactHeadPatchLine) :
    RangesOk (ranges.foldl mergeRange merged) ∧
      (ranges.foldl mergeRange merged).length ≤ merged.length + ranges.length := by
  induction ranges generalizing merged with
  | nil => exact ⟨h, by simp⟩
  | cons range ranges ih =>
    obtain ⟨hok, hlength⟩ := ih (mergeRange_ok h (hranges range List.mem_cons_self))
      fun r hr => hranges r (List.mem_cons_of_mem _ hr)
    have hstep := length_mergeRange merged range
    refine ⟨hok, ?_⟩
    rw [List.foldl_cons, List.length_cons]
    omega

theorem parseHunkCoordinate_bounds {start : Text} {count : Option Text} {first lines : Nat}
    (h : parseHunkCoordinate start count = some (first, lines)) (hlines : 0 < lines) :
    1 ≤ first ∧ first + lines - 1 ≤ maxExactHeadPatchLine := by
  unfold parseHunkCoordinate at h
  simp only [Option.bind_eq_bind, Option.bind_eq_some_iff, Option.guard_eq_some',
    Option.pure_def, Option.some.injEq, Prod.mk.injEq] at h
  obtain ⟨parsedStart, -, parsedCount, -, _, -, _, hbounds, rfl, rfl⟩ := h
  rw [if_neg (by omega)] at hbounds
  simp only [Bool.and_eq_true, decide_eq_true_eq] at hbounds
  omega

/-- What the loop over the lines of a patch keeps: every range lies within the limits, and
there is at most one for every hunk. -/
theorem readHunks_ok {lines : List Text} {hunkCount : Nat} {ranges result : List LineRange}
    (h : readHunks hunkCount ranges lines = some result)
    (hranges : ∀ range ∈ ranges, 1 ≤ range.startLine ∧ range.startLine ≤ range.endLine ∧
      range.endLine ≤ maxExactHeadPatchLine)
    (hcount : ranges.length ≤ hunkCount) (hmax : hunkCount ≤ maxExactHeadPatchRanges) :
    (∀ range ∈ result, 1 ≤ range.startLine ∧ range.startLine ≤ range.endLine ∧
      range.endLine ≤ maxExactHeadPatchLine) ∧ result.length ≤ maxExactHeadPatchRanges := by
  induction lines generalizing hunkCount ranges with
  | nil =>
    obtain rfl := Option.some.inj h
    exact ⟨hranges, hcount.trans hmax⟩
  | cons rawLine rest ih =>
    rw [readHunks] at h
    dsimp only at h
    generalize (if rawLine.getLast? = some '\r' then rawLine.dropLast else rawLine) = line at h
    split at h
    · exact ih h hranges hcount hmax
    · split at h
      · exact absurd h (by simp)
      · simp only [Option.bind_eq_bind, Option.bind_eq_some_iff] at h
        obtain ⟨⟨oldRange, headRange⟩, -, _, -, ⟨start, count⟩, hcoordinate, h⟩ := h
        dsimp only at h
        split at h
        · have hbounds := parseHunkCoordinate_bounds hcoordinate ‹_›
          refine ih h ?_ (by rw [List.length_append, List.length_singleton]; omega) (by omega)
          intro range hrange
          rw [List.mem_append, List.mem_singleton] at hrange
          rcases hrange with hrange | rfl
          · exact hranges range hrange
          · dsimp only
            omega
        · exact ih h hranges (by omega) (by omega)

theorem length_utf8_pos {t : Text} (h : t ≠ []) : 0 < (utf8 t).length := by
  cases t with
  | nil => exact absurd rfl h
  | cons c t =>
    unfold utf8
    rw [List.flatMap_cons, List.length_append, String.length_utf8EncodeChar]
    have := c.utf8Size_pos
    omega

/-- A patch leaves nothing, or well-ordered ranges with its hash and its size. -/
inductive PatchRead (host : Host) (rawPatch : Option Text) : PatchIdentity → Prop
  | absent (h : rawPatch = none) : PatchRead host rawPatch noPatchIdentity
  | present (patch : Text) (ranges : List LineRange) (h : rawPatch = some patch)
      (hpatch : patch ≠ []) (hne : ranges ≠ []) (hlength : ranges.length ≤ maxExactHeadPatchRanges)
      (hok : RangesOk ranges) :
      PatchRead host rawPatch
        ⟨some ranges, some (hex (host.sha256 (utf8 patch))), some (utf8 patch).length⟩

theorem parseHeadRanges_read {host : Host} {file : Json} {patch : PatchIdentity}
    (h : parseHeadRanges host (file.get "patch".toList) = some patch) :
    PatchRead host (textAt "patch" file) patch := by
  unfold textAt
  generalize file.get "patch".toList = raw at h ⊢
  unfold parseHeadRanges at h
  split at h
  · obtain rfl := Option.some.inj h
    exact .absent rfl
  · obtain rfl := Option.some.inj h
    exact .absent rfl
  · split at h
    · exact absurd h (by simp)
    · simp only [Option.bind_eq_bind, Option.bind_eq_some_iff] at h
      obtain ⟨ranges, hread, h⟩ := h
      split at h
      · exact absurd h (by simp)
      · obtain ⟨hbounds, hlength⟩ := readHunks_ok hread (by simp) (by simp) (by simp)
        obtain rfl := Option.some.inj h
        obtain ⟨hok, hmerged⟩ := @foldl_mergeRange_ok
          (ranges.insertionSort fun left right => left.before right) [] ⟨by simp, List.isChain_nil⟩
          fun range hrange => hbounds range ((List.mem_insertionSort _).mp hrange)
        rw [List.length_insertionSort] at hmerged
        exact .present _ _ rfl ‹_› ‹_› (by simp at hmerged; omega) hok
  · exact absurd h (by simp)

/-! ## Hexadecimal digits -/

theorem isHexDigit_toLower {c : Char} (h : isHexDigit c) :
    isHexDigit c.toLower ∧ c.toLower.toLower = c.toLower := by
  have hall : ("0123456789abcdefABCDEF".toList.all fun d =>
      isHexDigit d.toLower ∧ d.toLower.toLower = d.toLower) = true := by decide
  exact of_decide_eq_true (List.all_eq_true.1 hall c (mem_of_isHexDigit h))

theorem isHex_toLowerCase {n : Nat} {t : Text} (h : isHex n t) : isHex n (toLowerCase t) := by
  unfold isHex toLowerCase at *
  rw [Bool.and_eq_true, List.all_eq_true] at *
  refine ⟨by simpa using h.1, fun c hc => ?_⟩
  obtain ⟨d, hd, rfl⟩ := List.mem_map.mp hc
  exact (isHexDigit_toLower (h.2 d hd)).1

theorem toLowerCase_toLowerCase {n : Nat} {t : Text} (h : isHex n t) :
    toLowerCase (toLowerCase t) = toLowerCase t := by
  unfold isHex at h
  rw [Bool.and_eq_true, List.all_eq_true] at h
  unfold toLowerCase
  rw [List.map_map]
  exact List.map_congr_left fun c hc => (isHexDigit_toLower (h.2 c hc)).2

theorem toLowerCase_hex (b : Bytes) : toLowerCase (hex b) = hex b := by
  unfold toLowerCase hex
  rw [List.map_flatMap]
  refine List.flatMap_congr fun x _ => ?_
  have hlt := x.toNat_lt
  rw [List.map_cons, List.map_cons, List.map_nil, (hexDigit_digitChar _ (by omega)).2,
    (hexDigit_digitChar _ (by omega)).2]

/-! ## What the parser has checked of a file -/

/-- A file of a comparison and what the parser keeps of it. -/
structure FileRead (host : Host) (file : Json) (parsed : ExactHeadChangedFile) : Prop where
  filename : textAt "filename" file = some parsed.path
  safe : safeRelative parsed.path
  status : textAt "status" file = some parsed.status
  known : parsed.status ∈ fileStatuses
  blob : parsed.blobSha = ((textAt "sha" file).filter fun sha => isSha sha).map toLowerCase
  blob_isSome : parsed.status ≠ removed → parsed.blobSha.isSome
  previous_renamed : parsed.status = renamed → parsed.previousPath.any fun previous =>
    safeRelative previous && previous ≠ parsed.path
  previous_none : parsed.status ≠ renamed → parsed.previousPath = none
  patch : PatchRead host (if parsed.status = removed then none else textAt "patch" file)
    ⟨parsed.headRanges, parsed.patchSha256, parsed.patchByteCount⟩

theorem readFile_read {host : Host} {paths : List Text} {file : Json}
    {parsed : ExactHeadChangedFile} (h : readFile host paths file = some parsed) :
    FileRead host file parsed ∧ parsed.path ∉ paths := by
  unfold readFile at h
  simp only [Option.bind_eq_bind, Option.bind_eq_some_iff, Option.guard_eq_some',
    Bool.and_eq_true, decide_eq_true_eq, Option.pure_def, Option.some.injEq] at h
  obtain ⟨path, hpath, status, hstatus, _, ⟨hsafe, hknown⟩, _, hnew, _, hblob, _, hprevious,
    patch, hpatch, rfl⟩ := h
  refine ⟨⟨hpath, hsafe, hstatus, hknown, rfl, fun hs => ?_, fun hs => ?_, fun hs => ?_, ?_⟩, hnew⟩
  · rwa [if_neg hs] at hblob
  · dsimp only at hs ⊢
    rw [if_pos hs] at hprevious ⊢
    exact hprevious
  · exact if_neg hs
  · dsimp only
    split at hpatch
    · obtain rfl := Option.some.inj hpatch
      rw [if_pos ‹_›]
      exact .absent rfl
    · rw [if_neg ‹_›]
      exact parseHeadRanges_read hpatch

/-! ## What the later stages ask of a file that the parser took -/

/-- A removed file has lost its blob. -/
def Bare (file : ExactHeadChangedFile) : Prop := file.status = removed → file.blobSha = none

/-- The patch of a file is no longer than a comparison may be. -/
def Short (file : ExactHeadChangedFile) : Prop :=
  ∀ n, file.patchByteCount = some n → n ≤ maxExactHeadCompareResponseBytes

variable {host : Host} {file : Json} {parsed : ExactHeadChangedFile}

theorem FileRead.isHex_blob (h : FileRead host file parsed) {sha : Text}
    (hsha : parsed.blobSha = some sha) : isHex 40 sha ∧ toLowerCase sha = sha := by
  rw [h.blob, Option.map_eq_some_iff] at hsha
  obtain ⟨raw, hraw, rfl⟩ := hsha
  have hhex : isHex 40 raw := (Option.filter_eq_some_iff.mp hraw).2
  exact ⟨isHex_toLowerCase hhex, toLowerCase_toLowerCase hhex⟩

/-- The rule for blobs is the rule for removed files. -/
theorem FileRead.blob_rule (h : FileRead host file parsed) :
    (if parsed.status = removed then decide (parsed.blobSha = none)
      else parsed.blobSha.any fun sha => isHex 40 sha) = true ↔ Bare parsed := by
  unfold Bare
  split
  · simp [*]
  · obtain ⟨sha, hsha⟩ := Option.isSome_iff_exists.mp (h.blob_isSome ‹_›)
    simp [*, (h.isHex_blob hsha).1]

theorem FileRead.previous_rule (h : FileRead host file parsed) :
    (if parsed.status = renamed then
        parsed.previousPath.any fun previous => safeRelative previous && previous ≠ parsed.path
      else decide (parsed.previousPath = none)) = true := by
  split
  · exact h.previous_renamed ‹_›
  · simpa using h.previous_none ‹_›

theorem overlayPatch_iff (h : FileRead host file parsed) :
    overlayPatch parsed = true ↔ Short parsed := by
  obtain ⟨path, status, blobSha, previousPath, headRanges, patchSha256, patchByteCount⟩ := parsed
  unfold overlayPatch Short
  obtain ⟨hraw⟩ | ⟨patch, ranges, hraw, hpatch, hne, hlength, hok⟩ := h.patch
  · simp
  · have hpos := length_utf8_pos hpatch
    have hhex := isHex_hex (host.sha256_length (utf8 patch))
    simp only [Nat.reduceMul] at hhex
    simp only [hhex, Bool.true_and, Bool.and_eq_true, decide_eq_true_eq, Option.some.injEq,
      forall_eq']
    refine ⟨fun hrules => hrules.1.1.2, fun hshort => ⟨⟨⟨⟨?_, hpos⟩, hshort⟩, hne⟩, hlength⟩⟩
    exact hshort.trans (by decide)

theorem insertionSort_of_apart {ranges : List LineRange} (h : RangesOk ranges) :
    (ranges.insertionSort fun left right => left.before right) = ranges := by
  refine List.Pairwise.insertionSort_eq ?_
  have hstart : ranges.Pairwise fun a b => a.startLine < b.startLine := by
    refine List.isChain_iff_pairwise.mp ?_
    refine List.IsChain.imp_of_mem_imp (fun a b ha _ hab => ?_) h.apart
    have := h.bounds a ha
    unfold Apart at hab
    omega
  refine hstart.imp fun hab => ?_
  simp [LineRange.before, hab]

/-- Source custody finds the ranges of a patch in order. -/
theorem canonicalRanges_of_ok {ranges : List LineRange} (h : RangesOk ranges)
    (hranges : parsed.headRanges = some ranges) :
    canonicalRanges parsed = some (some ranges) := by
  have hbounds : ¬ ranges.any (fun range => maxSafeInteger < range.startLine ||
      maxSafeInteger < range.endLine || range.startLine < 1 || range.endLine < range.startLine) := by
    have hmax : maxExactHeadPatchLine ≤ maxSafeInteger := by decide
    rw [List.any_eq_true]
    rintro ⟨range, hrange, hwrong⟩
    have := h.bounds range hrange
    simp only [Bool.or_eq_true, decide_eq_true_eq] at hwrong
    omega
  unfold canonicalRanges
  rw [hranges]
  dsimp only
  rw [if_neg hbounds, insertionSort_of_apart h, if_neg]
  simpa [rangesApart] using h.apart

theorem admittedPatch_iff (h : FileRead host file parsed) :
    admittedPatch parsed = true ↔ Short parsed := by
  obtain ⟨path, status, blobSha, previousPath, headRanges, patchSha256, patchByteCount⟩ := parsed
  unfold admittedPatch Short
  obtain ⟨hraw⟩ | ⟨patch, ranges, hraw, hpatch, hne, hlength, hok⟩ := h.patch
  · simp [canonicalRanges]
  · have hpos := length_utf8_pos hpatch
    have hhex := isHex_hex (host.sha256_length (utf8 patch))
    simp only [Nat.reduceMul] at hhex
    rw [canonicalRanges_of_ok hok rfl]
    simp only [hhex, Bool.and_true, Bool.and_eq_true, decide_eq_true_eq, Option.some.injEq,
      forall_eq']
    refine ⟨fun hrules => hrules.2, fun hshort => ⟨⟨⟨⟨hne, hlength⟩, ?_⟩, hpos⟩, hshort⟩⟩
    exact hshort.trans (by decide)

theorem overlayFile_isSome (h : FileRead host file parsed) :
    (overlayFile host parsed).isSome ↔ Bare parsed ∧ Short parsed := by
  have hranges : (parsed.headRanges.getD []).all (fun range =>
      range.startLine ≤ maxSafeInteger && range.endLine ≤ maxSafeInteger &&
        1 ≤ range.startLine && range.startLine ≤ range.endLine &&
        range.endLine ≤ maxExactHeadPatchLine) ∧
      rangesApart (parsed.headRanges.getD []) := by
    obtain ⟨path, status, blobSha, previousPath, headRanges, patchSha256, patchByteCount⟩ := parsed
    obtain ⟨hraw⟩ | ⟨patch, ranges, hraw, hpatch, hne, hlength, hok⟩ := h.patch
    · simp [rangesApart]
    · have hmax : maxExactHeadPatchLine ≤ maxSafeInteger := by decide
      refine ⟨?_, by simpa [rangesApart] using hok.apart⟩
      rw [Option.getD_some, List.all_eq_true]
      intro range hrange
      have := hok.bounds range hrange
      simp only [Bool.and_eq_true, decide_eq_true_eq]
      omega
  rw [← h.blob_rule, ← overlayPatch_iff h, Option.isSome_iff_exists]
  unfold overlayFile
  simp only [Option.bind_eq_bind, Option.bind_eq_some_iff, Option.guard_eq_some', Option.pure_def]
  refine ⟨?_, fun hrules => ?_⟩
  · rintro ⟨_, _, -, _, hblob, _, -, _, hpatch, -⟩
    exact ⟨by simpa [isSha] using hblob, hpatch⟩
  · refine ⟨_, (), ?_, (), ?_, (), ?_, (), hrules.2, (), hranges.1, (), hranges.2, rfl⟩
    · exact Bool.and_eq_true_iff.mpr ⟨h.safe, decide_eq_true h.known⟩
    · simpa [isSha] using hrules.1
    · simpa [isSafeRelativePath] using h.previous_rule

theorem admittedFile_iff (h : FileRead host file parsed) (seen : List Text) :
    admittedFile seen parsed = true ↔ parsed.path ∉ seen ∧ Bare parsed ∧ Short parsed := by
  unfold admittedFile safePath statuses
  rw [h.safe, h.previous_rule, decide_eq_true h.known, Bool.and_true, Bool.and_true, Bool.true_and,
    Bool.and_eq_true, Bool.and_eq_true, h.blob_rule, admittedPatch_iff h, decide_eq_true_eq]
  exact ⟨fun ⟨⟨hpath, hshort⟩, hbare⟩ => ⟨hpath, hbare, hshort⟩,
    fun ⟨hpath, hbare, hshort⟩ => ⟨⟨hpath, hshort⟩, hbare⟩⟩

/-- The materializer asks only for the order of the paths and for new keys. -/
theorem invalidFile_iff (h : FileRead host file parsed) (seen : List Text)
    (previousPath : Option Text) :
    invalidFile host seen previousPath parsed = false ↔
      host.pathKey parsed.path ∉ seen ∧
        ∀ previous, previousPath = some previous → textLt previous parsed.path := by
  have hrest : (if parsed.status = removed then
        parsed.blobSha.any (fun sha => !isSha sha) || parsed.previousPath ≠ none
      else
        !parsed.blobSha.any (fun sha => isSha sha) ||
          (parsed.status = renamed &&
            !parsed.previousPath.any fun previous => isSafePath previous && previous ≠ parsed.path) ||
          (parsed.status ≠ renamed && parsed.previousPath ≠ none)) = false := by
    split
    · have hne : parsed.status ≠ renamed := by
        rw [show parsed.status = removed from ‹_›]
        decide
      rw [h.previous_none hne]
      cases hblob : parsed.blobSha with
      | none => rfl
      | some sha => simp [isSha, (h.isHex_blob hblob).1]
    · obtain ⟨sha, hsha⟩ := Option.isSome_iff_exists.mp (h.blob_isSome ‹_›)
      have hprevious := h.previous_rule
      rw [hsha]
      split at hprevious
      · simpa [isSha, (h.isHex_blob hsha).1, isSafePath, *] using hprevious
      · simp [isSha, (h.isHex_blob hsha).1, h.previous_none ‹_›, *]
  unfold invalidFile
  rw [hrest]
  have hsafe : isSafePath parsed.path = true := h.safe
  have hknown : parsed.status ∈ changedStatuses := h.known
  cases previousPath with
  | none => simp [hsafe, hknown]
  | some previous => simp [hsafe, hknown]

/-! ## Lists of files -/

theorem readFiles_read {paths : List Text} {files : List Json}
    {parsed : List ExactHeadChangedFile} (h : readFiles host paths files = some parsed) :
    List.Forall₂ (FileRead host) files parsed ∧
      (parsed.map ExactHeadChangedFile.path).Nodup ∧ ∀ f ∈ parsed, f.path ∉ paths := by
  induction files generalizing paths parsed with
  | nil =>
    obtain rfl := Option.some.inj h
    exact ⟨.nil, List.nodup_nil, by simp⟩
  | cons file rest ih =>
    simp only [readFiles, Option.bind_eq_bind, Option.bind_eq_some_iff, Option.pure_def,
      Option.some.injEq] at h
    obtain ⟨first, hfirst, others, hothers, rfl⟩ := h
    obtain ⟨hread, hnew⟩ := readFile_read hfirst
    obtain ⟨hreads, hnodup, hfresh⟩ := ih hothers
    refine ⟨.cons hread hreads, ?_, ?_⟩
    · rw [List.map_cons, List.nodup_cons]
      refine ⟨fun hmem => ?_, hnodup⟩
      obtain ⟨f, hf, hpath⟩ := List.mem_map.mp hmem
      exact hfresh f hf (by rw [hpath]; exact List.mem_cons_self)
    · intro f hf
      rcases List.mem_cons.mp hf with rfl | hf
      · exact hnew
      · exact fun hmem => hfresh f hf (List.mem_cons_of_mem _ hmem)

theorem admittedFiles_iff {parsed : List ExactHeadChangedFile}
    (h : ∀ f ∈ parsed, ∃ file, FileRead host file f) (seen : List Text) :
    admittedFiles seen parsed = true ↔
      ((parsed.map ExactHeadChangedFile.path).Nodup ∧ ∀ f ∈ parsed, f.path ∉ seen) ∧
        ∀ f ∈ parsed, Bare f ∧ Short f := by
  induction parsed generalizing seen with
  | nil => simp [admittedFiles]
  | cons f rest ih =>
    obtain ⟨file, hread⟩ := h f List.mem_cons_self
    rw [admittedFiles, Bool.and_eq_true, admittedFile_iff hread,
      ih (fun g hg => h g (List.mem_cons_of_mem _ hg)), List.map_cons, List.nodup_cons,
      List.forall_mem_cons, List.forall_mem_cons]
    simp only [List.mem_cons, not_or, List.mem_map, not_exists, not_and]
    constructor
    · rintro ⟨⟨hnew, hf⟩, ⟨hnodup, hfresh⟩, hrest⟩
      exact ⟨⟨⟨fun g hg => (hfresh g hg).1, hnodup⟩, hnew, fun g hg => (hfresh g hg).2⟩, hf, hrest⟩
    · rintro ⟨⟨⟨hfresh, hnodup⟩, hnew, hseen⟩, hf, hrest⟩
      exact ⟨⟨hnew, hf⟩, ⟨hnodup, fun g hg => ⟨hfresh g hg, hseen g hg⟩⟩, hrest⟩

theorem invalidFiles_iff {parsed : List ExactHeadChangedFile}
    (h : ∀ f ∈ parsed, ∃ file, FileRead host file f) (seen : List Text)
    (previousPath : Option Text)
    (hsorted : (previousPath.toList ++ parsed.map ExactHeadChangedFile.path).Pairwise
      fun left right => textLt left right) :
    invalidFiles host seen previousPath parsed = false ↔
      ((parsed.map fun f => host.pathKey f.path).Nodup ∧
        ∀ f ∈ parsed, host.pathKey f.path ∉ seen) := by
  induction parsed generalizing seen previousPath with
  | nil => simp [invalidFiles]
  | cons f rest ih =>
    obtain ⟨file, hread⟩ := h f List.mem_cons_self
    have hrest : ((some f.path).toList ++ rest.map ExactHeadChangedFile.path).Pairwise
        fun left right => textLt left right := (List.pairwise_append.mp hsorted).2.1
    have hprevious : ∀ previous, previousPath = some previous → textLt previous f.path := by
      rintro previous rfl
      exact (List.pairwise_cons.mp hsorted).1 f.path (by simp)
    rw [invalidFiles, Bool.or_eq_false_iff, invalidFile_iff hread,
      ih (fun g hg => h g (List.mem_cons_of_mem _ hg)) _ _ hrest, List.map_cons, List.nodup_cons,
      List.forall_mem_cons]
    simp only [List.mem_cons, not_or, List.mem_map, not_exists, not_and]
    constructor
    · rintro ⟨⟨hnew, -⟩, hnodup, hfresh⟩
      exact ⟨⟨fun g hg => (hfresh g hg).1, hnodup⟩, hnew, fun g hg => (hfresh g hg).2⟩
    · rintro ⟨⟨hfresh, hnodup⟩, hnew, hseen⟩
      exact ⟨⟨hnew, hprevious⟩, hnodup, fun g hg => ⟨hfresh g hg, hseen g hg⟩⟩

theorem overlayFile_path {f : ExactHeadChangedFile} {o : OverlayFile}
    (h : overlayFile host f = some o) : o.path = f.path := by
  unfold overlayFile at h
  simp only [Option.bind_eq_bind, Option.bind_eq_some_iff, Option.pure_def,
    Option.some.injEq] at h
  obtain ⟨_, -, _, -, _, -, _, -, _, -, _, -, rfl⟩ := h
  rfl

theorem mapM_overlayFile_isSome {parsed : List ExactHeadChangedFile} :
    (parsed.mapM (overlayFile host)).isSome ↔ ∀ f ∈ parsed, (overlayFile host f).isSome := by
  induction parsed with
  | nil => simp
  | cons f rest ih =>
    rw [List.forall_mem_cons, ← ih, List.mapM_cons]
    simp only [Option.isSome_iff_exists, Option.bind_eq_bind, Option.bind_eq_some_iff,
      Option.pure_def]
    constructor
    · rintro ⟨_, o, ho, overlay, hoverlay, -⟩
      exact ⟨⟨o, ho⟩, overlay, hoverlay⟩
    · rintro ⟨⟨o, ho⟩, overlay, hoverlay⟩
      exact ⟨_, o, ho, overlay, hoverlay, rfl⟩

theorem mapM_overlayFile_path {parsed : List ExactHeadChangedFile} {overlay : List OverlayFile}
    (h : parsed.mapM (overlayFile host) = some overlay) :
    overlay.map OverlayFile.path = parsed.map ExactHeadChangedFile.path := by
  induction parsed generalizing overlay with
  | nil =>
    obtain rfl := Option.some.inj h
    rfl
  | cons f rest ih =>
    simp only [List.mapM_cons, Option.bind_eq_bind, Option.bind_eq_some_iff, Option.pure_def,
      Option.some.injEq] at h
    obtain ⟨o, ho, others, hothers, rfl⟩ := h
    rw [List.map_cons, List.map_cons, overlayFile_path ho, ih hothers]

/-- Two lists whose elements correspond agree on what corresponds. -/
theorem forall_mem_iff_of_forall₂ {α β : Type} {R : α → β → Prop} {p : α → Prop} {q : β → Prop}
    {xs : List α} {ys : List β} (h : List.Forall₂ R xs ys) (hpq : ∀ x y, R x y → (p x ↔ q y)) :
    (∀ x ∈ xs, p x) ↔ ∀ y ∈ ys, q y := by
  induction h with
  | nil => simp
  | cons hxy _ ih => rw [List.forall_mem_cons, List.forall_mem_cons, hpq _ _ hxy, ih]

/-! ## The order of the files -/

theorem not_textLt_iff {a b : Text} : textLt a b = false ↔ utf16 b ≤ utf16 a := by
  unfold textLt
  rw [decide_eq_false_iff_not, not_lt]

instance : Std.Total fun left right : ExactHeadChangedFile => pathBefore left right = true :=
  ⟨fun a b => by
    unfold pathBefore
    rw [Bool.not_eq_true', Bool.not_eq_true', not_textLt_iff, not_textLt_iff]
    exact le_total _ _⟩

instance : IsTrans ExactHeadChangedFile fun left right => pathBefore left right = true :=
  ⟨fun a b c hab hbc => by
    unfold pathBefore at *
    rw [Bool.not_eq_true', not_textLt_iff] at *
    exact hab.trans hbc⟩

/-- The files of a snapshot. -/
def sortFiles (parsed : List ExactHeadChangedFile) : List ExactHeadChangedFile :=
  parsed.insertionSort fun left right => pathBefore left right

theorem sortFiles_perm (parsed : List ExactHeadChangedFile) : (sortFiles parsed).Perm parsed :=
  List.perm_insertionSort _ _

theorem sortFiles_pairwise {parsed : List ExactHeadChangedFile}
    (h : (parsed.map ExactHeadChangedFile.path).Nodup) :
    ((sortFiles parsed).map ExactHeadChangedFile.path).Pairwise
      fun left right => textLt left right := by
  have hsorted : (sortFiles parsed).Pairwise fun left right => pathBefore left right = true :=
    List.pairwise_insertionSort _ _
  have hnodup : ((sortFiles parsed).map ExactHeadChangedFile.path).Nodup :=
    ((sortFiles_perm parsed).map _).nodup_iff.mpr h
  rw [List.Nodup, List.pairwise_map] at hnodup
  rw [List.pairwise_map]
  refine (hsorted.and hnodup).imp fun {a b} hab => ?_
  have hle : utf16 a.path ≤ utf16 b.path := by
    have := hab.1
    unfold pathBefore at this
    rwa [Bool.not_eq_true', not_textLt_iff] at this
  unfold textLt
  rw [decide_eq_true_eq]
  exact lt_of_le_of_ne hle fun heq => hab.2 (utf16_injective heq)

/-! ## The snapshot -/

/-- A commit that the reads of GitHub have put in lower case. -/
def LowerSha (sha : Text) : Prop := isHex 40 sha ∧ toLowerCase sha = sha

theorem lowerSha_toLowerCase {sha : Text} (h : isSha sha) : LowerSha (toLowerCase sha) :=
  ⟨isHex_toLowerCase h, toLowerCase_toLowerCase h⟩

theorem lowerSha_commitShaAt {key : String} {value : Json} {sha : Text}
    (h : commitShaAt key value = some sha) : LowerSha (toLowerCase sha) :=
  lowerSha_toLowerCase (Option.filter_eq_some_iff.mp h).2

/-- What is known of a snapshot that was read with this comparison. -/
structure SnapshotRead (host : Host) (input : ExactHeadGithubContextInput) (response : Json)
    (parsed : List ExactHeadChangedFile) (snapshot : ExactHeadGithubContextSnapshot) : Prop where
  input_valid : validInput input
  repo : snapshot.repo = input.repo
  prNumber : snapshot.prNumber = input.prNumber
  base : LowerSha snapshot.baseSha
  mergeBase : LowerSha snapshot.mergeBaseSha
  head : LowerSha snapshot.headSha
  headTree : LowerSha snapshot.headTreeSha
  files : List.Forall₂ (FileRead host) (filesOf response) parsed
  paths : (parsed.map ExactHeadChangedFile.path).Nodup
  length : 1 ≤ parsed.length ∧ parsed.length < maxCompareFilesExclusive
  changed : snapshot.changedFiles = sortFiles parsed
  manifest : snapshot.manifestSha256 = acceptanceContextOverlayManifestSha256 host
    snapshot.baseSha snapshot.mergeBaseSha snapshot.headSha
    (snapshot.changedFiles.map manifestFile)

theorem parseCompareManifest_read {response : Json} {base mergeBase : Text}
    {changed : List ExactHeadChangedFile}
    (h : parseCompareManifest host response base = some (changed, mergeBase)) :
    LowerSha mergeBase ∧ ∃ parsed, List.Forall₂ (FileRead host) (filesOf response) parsed ∧
      (parsed.map ExactHeadChangedFile.path).Nodup ∧
      (1 ≤ parsed.length ∧ parsed.length < maxCompareFilesExclusive) ∧
      changed = sortFiles parsed := by
  unfold parseCompareManifest at h
  simp only [Option.bind_eq_bind, Option.bind_eq_some_iff, Option.guard_eq_some', Option.pure_def,
    Option.some.injEq, Prod.mk.injEq, Bool.and_eq_true, decide_eq_true_eq] at h
  obtain ⟨_, -, files, hfiles, _, -, _, -, mergeBaseSha, hmerge, _, ⟨hne, hlt⟩, parsed, hparsed,
    rfl, rfl⟩ := h
  obtain ⟨hreads, hnodup, -⟩ := readFiles_read hparsed
  have hlength := hreads.length_eq
  have hpos := List.length_pos_iff.mpr hne
  refine ⟨lowerSha_commitShaAt hmerge, parsed, ?_, hnodup, ⟨by omega, by omega⟩, rfl⟩
  rwa [filesOf, hfiles]

theorem orFail_eq_ok {α : Type} {reason : NotProven} {o : Option α} {a : α} :
    orFail reason o = .ok a ↔ o = some a := by
  cases o with
  | none => simp [orFail]
  | some b => simp [orFail]

theorem require_eq_ok {reason : NotProven} {rule : Bool} {u : Unit} :
    require reason rule = .ok u ↔ rule := by
  cases rule with
  | false => simp [require]
  | true => simp [require]

theorem readExactHeadGithubContext_read {input : ExactHeadGithubContextInput}
    {prRead commitRead : GithubJsonRead} {response : Json}
    {snapshot : ExactHeadGithubContextSnapshot}
    (h : readExactHeadGithubContext host input prRead commitRead (.value response) =
      .ok snapshot) :
    ∃ parsed, SnapshotRead host input response parsed snapshot := by
  unfold readExactHeadGithubContext at h
  simp only [Py.except_bind_eq_ok, Py.pure_eq_ok, orFail_eq_ok, require_eq_ok,
    Except.ok.injEq] at h
  obtain ⟨_, hvalid, pr, -, actualHead, -, baseSha, hbase, _, -, commit, -, commitSha, -, _, -,
    headTreeSha, hheadTree, compare, hcompare, ⟨changedFiles, mergeBaseSha⟩, hparse, rfl⟩ := h
  obtain rfl := Except.ok.inj hcompare
  obtain ⟨hmerge, parsed, hfiles, hpaths, hlength, rfl⟩ := parseCompareManifest_read hparse
  have hhead : isSha input.expectedHeadSha := (Bool.and_eq_true_iff.mp hvalid).2
  exact ⟨parsed, {
    input_valid := hvalid
    repo := rfl
    prNumber := rfl
    base := lowerSha_commitShaAt hbase
    mergeBase := hmerge
    head := lowerSha_toLowerCase hhead
    headTree := lowerSha_commitShaAt hheadTree
    files := hfiles
    paths := hpaths
    length := hlength
    changed := rfl
    manifest := rfl }⟩

/-! ## The name of the repository -/

theorem join_splitPath (t : Text) : join ['/'] (splitPath t) = t := by
  induction t with
  | nil => rfl
  | cons c t ih =>
    rw [splitPath]
    split
    · rw [show c = '/' from ‹_›]
      cases hparts : splitPath t with
      | nil =>
        rw [hparts] at ih
        obtain rfl : t = [] := ih.symm
        exact absurd hparts (by decide)
      | cons part parts =>
        rw [hparts] at ih
        rw [← ih]
        rfl
    · split
      · rw [show splitPath t = [] from ‹_›] at ih
        rw [← ih]
        rfl
      · rename_i part parts hparts
        rw [hparts] at ih
        rw [← ih]
        cases parts <;> rfl

theorem repoChar_plain {c : Char} (h : repoChar c) :
    c ≠ '/' ∧ c ≠ '\\' ∧ 0x1f < c.toNat ∧ c.toNat ≠ 0x7f := by
  unfold repoChar at h
  simp only [Bool.or_eq_true, decide_eq_true_eq] at h
  rcases h with ((h | rfl) | rfl) | rfl
  · have hranges : (48 ≤ c.toNat ∧ c.toNat ≤ 57) ∨ (65 ≤ c.toNat ∧ c.toNat ≤ 90) ∨
        (97 ≤ c.toNat ∧ c.toNat ≤ 122) := by
      change (decide (c.val ≥ 65 ∧ c.val ≤ 90) || (c.val ≥ 97 && c.val ≤ 122) ||
        (c.val ≥ 48 && c.val ≤ 57)) = true at h
      simp only [Bool.or_eq_true, Bool.and_eq_true, decide_eq_true_eq, ge_iff_le,
        UInt32.le_iff_toNat_le] at h
      change ((65 ≤ c.toNat ∧ c.toNat ≤ 90) ∨ (97 ≤ c.toNat ∧ c.toNat ≤ 122)) ∨
        (48 ≤ c.toNat ∧ c.toNat ≤ 57) at h
      omega
    refine ⟨?_, ?_, by omega, by omega⟩
    · rintro rfl
      exact absurd hranges (by decide)
    · rintro rfl
      exact absurd hranges (by decide)
  all_goals decide

/-- A name of a repository is a path, unless it is too long. -/
theorem safeRelative_repo {repo : Text} (h : isRepo repo)
    (hdots : (splitPath repo).any isDots = false) :
    safeRelative repo = true ↔ codeUnits repo ≤ maxPathUnits := by
  have hjoin := join_splitPath repo
  unfold isRepo at h
  split at h
  · rename_i owner name hparts
    simp only [Bool.and_eq_true, decide_eq_true_eq, List.all_eq_true] at h
    obtain ⟨⟨⟨howner, hname⟩, hownerChars⟩, hnameChars⟩ := h
    have hrepo : repo = owner ++ '/' :: name := by
      rw [← hjoin, hparts]
      simp [join]
    have hhead : repo.head? ≠ some '/' := by
      obtain ⟨c, rest, rfl⟩ := List.exists_cons_of_ne_nil howner
      have := (repoChar_plain (hownerChars c List.mem_cons_self)).1
      simpa [hrepo] using this
    have hlast : repo.getLast? ≠ some '/' := by
      obtain ⟨init, c, rfl⟩ := (List.eq_nil_or_concat name).resolve_left hname
      have := (repoChar_plain (hnameChars c (by simp))).1
      simpa [hrepo, List.getLast?_append, List.getLast?_cons] using this
    have hchars : repo.all (fun c => c ≠ '\\' && 0x1f < c.toNat && c.toNat ≠ 0x7f) = true := by
      rw [List.all_eq_true]
      intro c hc
      simp only [Bool.and_eq_true, decide_eq_true_eq]
      rw [hrepo, List.mem_append, List.mem_cons] at hc
      rcases hc with hc | rfl | hc
      · have := repoChar_plain (hownerChars c hc)
        exact ⟨⟨this.2.1, this.2.2.1⟩, this.2.2.2⟩
      · decide
      · have := repoChar_plain (hnameChars c hc)
        exact ⟨⟨this.2.1, this.2.2.1⟩, this.2.2.2⟩
    have hall : (splitPath repo).all (fun part => part ≠ [] && !isDots part) = true := by
      rw [hparts] at hdots ⊢
      simpa [howner, hname] using hdots
    have hne : repo ≠ [] := by simp [hrepo]
    unfold safeRelative
    rw [hchars, hall]
    simp [hne, hhead, hlast]
  · exact absurd h (by simp)

/-! ## The stages agree -/

variable {input : ExactHeadGithubContextInput} {response : Json}
  {files : List ExactHeadChangedFile} {snapshot : ExactHeadGithubContextSnapshot}

theorem forall_sortFiles {p : ExactHeadChangedFile → Prop} :
    (∀ f ∈ sortFiles files, p f) ↔ ∀ f ∈ files, p f :=
  ⟨fun h f hf => h f ((sortFiles_perm files).mem_iff.mpr hf),
    fun h f hf => h f ((sortFiles_perm files).mem_iff.mp hf)⟩

theorem SnapshotRead.reads (h : SnapshotRead host input response files snapshot) :
    ∀ f ∈ sortFiles files, ∃ file, FileRead host file f := by
  rw [forall_sortFiles, ← forall_mem_iff_of_forall₂ (p := fun _ => True) h.files]
  · exact fun _ _ => trivial
  · exact fun file f hread => ⟨fun _ => ⟨file, hread⟩, fun _ => trivial⟩

/-- The digest that the later stages compute is the digest of the snapshot. -/
theorem SnapshotRead.manifestSha256Of (h : SnapshotRead host input response files snapshot) :
    manifestSha256Of host snapshot = snapshot.manifestSha256 := by
  have hfiles : snapshot.changedFiles.map lowerManifestFile =
      snapshot.changedFiles.map manifestFile := by
    refine List.map_congr_left fun f hf => ?_
    rw [h.changed] at hf
    obtain ⟨file, hread⟩ := h.reads f hf
    unfold lowerManifestFile manifestFile
    cases hblob : f.blobSha with
    | none => rfl
    | some sha => rw [Option.map_some, (hread.isHex_blob hblob).2]
  rw [h.manifest, ExactHead.manifestSha256Of, h.base.2, h.mergeBase.2, h.head.2, hfiles]

theorem SnapshotRead.overlay_iff (h : SnapshotRead host input response files snapshot) :
    (exactHeadContextCustodyOverlay host snapshot).isSome ↔ ∀ f ∈ files, Bare f ∧ Short f := by
  have hfiles : (∀ f ∈ files, Bare f ∧ Short f) ↔
      ((sortFiles files).mapM (overlayFile host)).isSome := by
    rw [mapM_overlayFile_isSome, ← forall_sortFiles]
    refine forall₂_congr fun f hf => ?_
    obtain ⟨file, hread⟩ := h.reads f hf
    exact (overlayFile_isSome hread).symm
  have hnodup : ((sortFiles files).map ExactHeadChangedFile.path).Nodup :=
    ((sortFiles_perm files).map _).nodup_iff.mpr h.paths
  have hlength := h.length
  rw [← (sortFiles_perm files).length_eq] at hlength
  rw [hfiles, Option.isSome_iff_exists, Option.isSome_iff_exists]
  unfold exactHeadContextCustodyOverlay isSha
  simp only [Option.bind_eq_bind, Option.bind_eq_some_iff, Option.guard_eq_some', Option.pure_def,
    h.changed, h.base.1, h.mergeBase.1, h.head.1]
  constructor
  · rintro ⟨_, _, -, _, -, overlay, hoverlay, -⟩
    exact ⟨overlay, hoverlay⟩
  · rintro ⟨overlay, hoverlay⟩
    refine ⟨_, (), rfl, (), ?_, overlay, hoverlay, (), ?_, rfl⟩
    · simpa using hlength
    · rw [((List.perm_insertionSort _ overlay).map _).nodup_iff, mapM_overlayFile_path hoverlay]
      exact hnodup

theorem one_le_of_isInteger {q : ℚ} (h : isInteger q) (hpos : 0 < q) : 1 ≤ q := by
  unfold isInteger at h
  rw [decide_eq_true_eq, Rat.den_eq_one_iff] at h
  rw [← h] at hpos ⊢
  have hnum : 0 < q.num := by exact_mod_cast hpos
  exact_mod_cast hnum

theorem SnapshotRead.admitted_iff (h : SnapshotRead host input response files snapshot) :
    snapshotIsAdmitted host snapshot = true ↔
      codeUnits input.repo ≤ maxPathUnits ∧ ∀ f ∈ files, Bare f ∧ Short f := by
  have hnodup : ((sortFiles files).map ExactHeadChangedFile.path).Nodup :=
    ((sortFiles_perm files).map _).nodup_iff.mpr h.paths
  have hmanifest : isHex 64 snapshot.manifestSha256 ∧
      toLowerCase snapshot.manifestSha256 = snapshot.manifestSha256 := by
    rw [h.manifest]
    exact ⟨isHex_hex (host.sha256_length _), toLowerCase_hex _⟩
  have hvalid := h.input_valid
  unfold validInput at hvalid
  simp only [Bool.and_eq_true, Bool.not_eq_true', decide_eq_true_eq] at hvalid
  obtain ⟨⟨⟨⟨⟨-, hrepo⟩, hdots⟩, hinteger⟩, hpositive⟩, -⟩ := hvalid
  have hfiles := admittedFiles_iff h.reads []
  rw [forall_sortFiles, forall_sortFiles (p := fun f => Bare f ∧ Short f)] at hfiles
  unfold snapshotIsAdmitted safePath
  rw [h.manifestSha256Of, hmanifest.2, h.changed, h.repo, h.prNumber, h.base.1, h.mergeBase.1,
    h.head.1, h.headTree.1, hmanifest.1, hrepo, hinteger,
    decide_eq_true (one_le_of_isInteger hinteger hpositive), decide_eq_true rfl]
  simp only [Bool.and_true, Bool.and_eq_true]
  rw [safeRelative_repo hrepo hdots, hfiles]
  exact and_congr_right fun _ => ⟨fun hall => hall.2, fun hall => ⟨⟨hnodup, by simp⟩, hall⟩⟩

theorem SnapshotRead.invalid_iff (h : SnapshotRead host input response files snapshot) :
    invalidInput host snapshot = false ↔ (files.map fun f => host.pathKey f.path).Nodup := by
  have hvalid := h.input_valid
  unfold validInput at hvalid
  simp only [Bool.and_eq_true, Bool.not_eq_true', decide_eq_true_eq] at hvalid
  obtain ⟨⟨⟨⟨⟨-, hrepo⟩, hdots⟩, hinteger⟩, hpositive⟩, -⟩ := hvalid
  have hfiles := invalidFiles_iff h.reads [] none (sortFiles_pairwise h.paths)
  rw [((sortFiles_perm files).map _).nodup_iff] at hfiles
  unfold invalidInput isSha
  rw [h.changed, h.repo, h.prNumber, h.base.1, h.mergeBase.1, h.head.1, h.headTree.1, hrepo,
    hdots, hinteger, decide_eq_false (not_le.mpr hpositive)]
  simp only [Bool.not_true, Bool.false_or]
  rw [hfiles]
  exact ⟨fun hall => hall.1, fun hall => ⟨hall, by simp⟩⟩

/-! ## What a comparison has to be -/

theorem FileRead.bare_iff {f : ExactHeadChangedFile} (h : FileRead host file f) :
    (textAt "status" file = some removed → ∀ sha, textAt "sha" file = some sha → ¬ isSha sha) ↔
      Bare f := by
  unfold Bare
  rw [h.status, Option.some.injEq, h.blob, Option.map_eq_none_iff, Option.filter_eq_none_iff]

theorem FileRead.short_iff {f : ExactHeadChangedFile} (h : FileRead host file f) :
    (textAt "status" file ≠ some removed → ∀ patch, textAt "patch" file = some patch →
      (utf8 patch).length ≤ maxExactHeadCompareResponseBytes) ↔ Short f := by
  obtain ⟨path, status, blobSha, previousPath, headRanges, patchSha256, patchByteCount⟩ := f
  unfold Short
  rw [h.status, Ne, Option.some.injEq]
  obtain ⟨hraw⟩ | ⟨patch, ranges, hraw, -, -, -, -⟩ := h.patch
  · refine ⟨by simp, fun _ hs patch hpatch => ?_⟩
    rw [if_neg hs, hpatch] at hraw
    exact absurd hraw (by simp)
  · have hs : status ≠ removed := by
      rintro rfl
      exact absurd hraw (by simp)
    rw [if_neg hs] at hraw
    simp [hs, hraw]

theorem filterMap_filename {entries : List Json} (h : List.Forall₂ (FileRead host) entries files) :
    entries.filterMap (textAt "filename") = files.map ExactHeadChangedFile.path := by
  induction h with
  | nil => rfl
  | cons hread _ ih => rw [List.filterMap_cons_some hread.filename, List.map_cons, ih]

theorem agreeable_iff (h : SnapshotRead host input response files snapshot) :
    Agreeable host input.repo response ↔ codeUnits input.repo ≤ maxPathUnits ∧
      (∀ f ∈ files, Bare f) ∧ (∀ f ∈ files, Short f) ∧
        (files.map fun f => host.pathKey f.path).Nodup := by
  have hkeys : ((filesOf response).filterMap (textAt "filename")).map host.pathKey =
      files.map fun f => host.pathKey f.path := by
    rw [filterMap_filename h.files, List.map_map]
    rfl
  rw [← forall_mem_iff_of_forall₂ h.files fun _ _ hread => hread.bare_iff,
    ← forall_mem_iff_of_forall₂ h.files fun _ _ hread => hread.short_iff, ← hkeys]
  exact ⟨fun ⟨hrepo, hbare, hshort, hnodup⟩ => ⟨hrepo, hbare, hshort, hnodup⟩,
    fun ⟨hrepo, hbare, hshort, hnodup⟩ => ⟨hrepo, hbare, hshort, hnodup⟩⟩

/-- A snapshot that was read passes every stage if and only if the comparison is agreeable. -/
theorem stages_agree_iff {prRead commitRead : GithubJsonRead}
    (h : readExactHeadGithubContext host input prRead commitRead (.value response) =
      .ok snapshot) :
    Accepted host snapshot ↔ Agreeable host input.repo response := by
  obtain ⟨files, hread⟩ := readExactHeadGithubContext_read h
  have hmanifest : hasValidManifest host snapshot = true := by
    unfold hasValidManifest
    rw [hread.manifestSha256Of, decide_eq_true rfl]
  unfold Accepted
  rw [hread.overlay_iff, hread.admitted_iff, hread.invalid_iff, hmanifest, agreeable_iff hread]
  constructor
  · rintro ⟨hfiles, ⟨hrepo, -⟩, hkeys, -⟩
    exact ⟨hrepo, fun f hf => (hfiles f hf).1, fun f hf => (hfiles f hf).2, hkeys⟩
  · rintro ⟨hrepo, hbare, hshort, hkeys⟩
    have hfiles : ∀ f ∈ files, Bare f ∧ Short f := fun f hf => ⟨hbare f hf, hshort f hf⟩
    exact ⟨hfiles, ⟨hrepo, hfiles⟩, hkeys, rfl⟩

/-! ## A removed file that carries its blob -/

/-- The manifest of the sample is the only text that is hashed here. -/
def sampleHost : Host where
  sha256 _ := [39, 113, 175, 180, 245, 44, 248, 87, 214, 45, 117, 192, 206, 153, 249, 56, 41, 110,
    93, 242, 32, 204, 219, 66, 99, 98, 44, 148, 122, 200, 213, 211]
  sha256_length _ := rfl
  pathKey := List.map Char.toLower

def sampleSha (c : Char) : Text := List.replicate 40 c

def sampleObject (fields : List (String × Json)) : Json :=
  .obj (fields.map fun f => (f.1.toList, f.2))

def sampleCommitOf (c : Char) : Json := sampleObject [("sha", .str (sampleSha c))]

def sampleInput : ExactHeadGithubContextInput where
  token := "token".toList
  repo := "o/r".toList
  prNumber := 1
  expectedHeadSha := sampleSha 'a'

def samplePr : Json := sampleObject [("head", sampleCommitOf 'a'), ("base", sampleCommitOf 'b')]

def sampleCommit : Json :=
  sampleObject [("sha", .str (sampleSha 'a')), ("tree", sampleCommitOf 'e')]

def sampleRemoved : Json := sampleObject [("filename", .str "gone.ts".toList),
  ("status", .str removed), ("sha", .str (sampleSha 'd'))]

def sampleCompare : Json := sampleObject [("base_commit", sampleCommitOf 'b'),
  ("merge_base_commit", sampleCommitOf 'c'), ("files", .arr [sampleRemoved])]

def sampleRead : Except NotProven ExactHeadGithubContextSnapshot :=
  readExactHeadGithubContext sampleHost sampleInput (.value samplePr) (.value sampleCommit)
    (.value sampleCompare)

theorem sampleRead_ok : ∃ snapshot, sampleRead = .ok snapshot := by
  have hok : sampleRead.isOk = true := by decide +kernel
  cases h : sampleRead with
  | error e =>
    rw [h] at hok
    exact absurd hok Bool.false_ne_true
  | ok snapshot => exact ⟨snapshot, rfl⟩

/-- The parser keeps the blob of a removed file, the overlay and source custody refuse it, the
materializer takes it. -/
theorem removed_blob_splits_stages : ∃ snapshot, sampleRead = .ok snapshot ∧
    exactHeadContextCustodyOverlay sampleHost snapshot = none ∧
    snapshotIsAdmitted sampleHost snapshot = false ∧
    invalidInput sampleHost snapshot = false ∧ hasValidManifest sampleHost snapshot = true := by
  obtain ⟨snapshot, h⟩ := sampleRead_ok
  have hstages : (sampleRead.toOption.any fun snapshot =>
      (exactHeadContextCustodyOverlay sampleHost snapshot).isNone &&
        !snapshotIsAdmitted sampleHost snapshot && !invalidInput sampleHost snapshot &&
        hasValidManifest sampleHost snapshot) = true := by decide +kernel
  rw [h] at hstages
  simp only [Except.toOption, Option.any_some, Bool.and_eq_true, Bool.not_eq_true',
    Option.isNone_iff_eq_none] at hstages
  exact ⟨snapshot, h, hstages.1.1.1, hstages.1.1.2, hstages.1.2, hstages.2⟩

theorem stages_agree_removed : ∃ snapshot, sampleRead = .ok snapshot ∧
    ¬ Accepted sampleHost snapshot := by
  obtain ⟨snapshot, h⟩ := sampleRead_ok
  refine ⟨snapshot, h, fun haccepted => ?_⟩
  have hagree := (stages_agree_iff h).mp haccepted
  have hmem : sampleRemoved ∈ filesOf sampleCompare := List.mem_singleton.mpr rfl
  exact hagree.removed_bare sampleRemoved hmem (by decide +kernel) (sampleSha 'd')
    (by decide +kernel) (by decide +kernel)

end Agentrail.ExactHead
