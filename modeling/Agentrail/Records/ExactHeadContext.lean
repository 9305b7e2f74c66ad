import Agentrail.Js.Bytes
import Agentrail.Records.ExactGitTree
import Mathlib.Data.Char
import Mathlib.Data.List.Chain
import Mathlib.Data.List.Lex
import Mathlib.Data.List.Sort

/-!
# The exact-head snapshot (`console/lib/github-exact-head-context.ts`)

`parseCompareManifest` reads GitHub's comparison of a base with a head,
`readExactHeadGithubContext` builds the snapshot of a pull request from it, and
`exactHeadContextCustodyOverlay` projects the snapshot into the identity that the
database keeps.  Of a patch only its hash, its size and the lines of the head that it
touches (`parseHeadRanges`) stay.
-/

namespace Agentrail.ExactHead

open Js
open ExactGitTree (textAt arrayAt splitPath)

/-- The functions of the platform that the stages call. -/
structure Host where
  sha256 : Bytes → Bytes
  sha256_length : ∀ b, (sha256 b).length = 32
  /-- `path.normalize("NFC").toLocaleLowerCase("en-US")` -/
  pathKey : Text → Text

/-! ## Limits -/

def maxCompareFilesExclusive : Nat := 300
def maxExactHeadCompareResponseBytes : Nat := 2 * 1024 * 1024
def maxExactHeadPatchRanges : Nat := 128
def maxExactHeadPatchLine : Nat := 1000000
def maxPathUnits : Nat := 4096

/-! ## Values -/

structure LineRange where
  startLine : Nat
  endLine : Nat
  deriving DecidableEq

structure ExactHeadChangedFile where
  path : Text
  status : Text
  /-- Null is valid only for a removed path. -/
  blobSha : Option Text
  previousPath : Option Text
  /-- The lines of the head, `none` where GitHub supplied no usable patch. -/
  headRanges : Option (List LineRange)
  /-- The hash of the raw patch, which is not kept. -/
  patchSha256 : Option Text
  patchByteCount : Option Nat
  deriving DecidableEq

structure ExactHeadGithubContextSnapshot where
  repo : Text
  prNumber : ℚ
  baseSha : Text
  mergeBaseSha : Text
  headSha : Text
  headTreeSha : Text
  changedFiles : List ExactHeadChangedFile
  manifestSha256 : Text
  deriving DecidableEq

/-! ## Predicates that the stages state each for itself -/

def isHexDigit (c : Char) : Bool :=
  ('0' ≤ c && c ≤ '9') || ('a' ≤ c && c ≤ 'f') || ('A' ≤ c && c ≤ 'F')

/-- `/^[0-9a-f]{n}$/i`. -/
def isHex (n : Nat) (t : Text) : Bool := t.length = n && t.all isHexDigit

theorem hexDigit_digitChar : ∀ n < 16, isHexDigit (Nat.digitChar n) ∧
    (Nat.digitChar n).toLower = Nat.digitChar n := by
  decide

theorem isHex_hex {n : Nat} {b : Bytes} (h : b.length = n) : isHex (2 * n) (hex b) := by
  unfold isHex hex
  rw [Bool.and_eq_true, List.all_eq_true, decide_eq_true_eq, List.length_flatMap]
  refine ⟨by simp; omega, fun c hc => ?_⟩
  obtain ⟨x, -, hx⟩ := List.mem_flatMap.mp hc
  have hlt := x.toNat_lt
  rw [List.mem_pair] at hx
  rcases hx with rfl | rfl
  · exact (hexDigit_digitChar _ (by omega)).1
  · exact (hexDigit_digitChar _ (by omega)).1

/-- `t.toLowerCase()` of hexadecimal digits. -/
def toLowerCase (t : Text) : Text := t.map Char.toLower

def isDots (part : Text) : Bool := part = ['.'] || part = ['.', '.']

/-- A path below the root of a repository, as every stage asks for it. -/
def safeRelative (t : Text) : Bool :=
  t ≠ [] && codeUnits t ≤ maxPathUnits && t.head? ≠ some '/' && t.getLast? ≠ some '/' &&
    t.all (fun c => c ≠ '\\' && 0x1f < c.toNat && c.toNat ≠ 0x7f) &&
    (splitPath t).all fun part => part ≠ [] && !isDots part

/-- A character of `[A-Za-z0-9._-]`. -/
def repoChar (c : Char) : Bool := c.isAlphanum || c = '.' || c = '_' || c = '-'

/-- `/^[A-Za-z0-9._-]+\/[A-Za-z0-9._-]+$/`. -/
def isRepo (t : Text) : Bool :=
  match splitPath t with
  | [owner, name] => owner ≠ [] && name ≠ [] && owner.all repoChar && name.all repoChar
  | _ => false

def isInteger (q : ℚ) : Bool := q.den = 1

/-- The six names of a file's status. -/
def fileStatuses : List Text :=
  ["added", "modified", "removed", "renamed", "copied", "changed"].map String.toList

/-- `SHA`. -/
def isSha : Text → Bool := isHex 40

def isSafeRelativePath : Text → Bool := safeRelative

/-- `ALLOWED_FILE_STATUSES`. -/
def allowedFileStatuses : List Text := fileStatuses

/-- The status of a file that the head does not have. -/
def removed : Text := "removed".toList

/-- The status of a file that the base has under another path. -/
def renamed : Text := "renamed".toList

/-! ## The lines of a patch -/

/-- The digits in front of a text, and what stands behind them. -/
def digits (t : Text) : Option (Text × Text) :=
  if t.takeWhile isDigit = [] then none else some (t.takeWhile isDigit, t.dropWhile isDigit)

/-- `(\d+)(?:,(\d+))?` in front of a text. -/
def coordinate (t : Text) : Option ((Text × Option Text) × Text) :=
  match digits t with
  | none => none
  | some (start, ',' :: rest) =>
    match digits rest with
    | none => some ((start, none), ',' :: rest)
    | some (count, rest) => some ((start, some count), rest)
  | some (start, rest) => some ((start, none), rest)

/-- What stands in a text behind `literal`. -/
def behind (literal : String) (t : Text) : Option Text :=
  if literal.toList.isPrefixOf t then some (t.drop literal.length) else none

/-- `/^@@ -(\d+)(?:,(\d+))? \+(\d+)(?:,(\d+))? @@(?: .*)?$/`. -/
def hunkHeader (line : Text) : Option ((Text × Option Text) × (Text × Option Text)) := do
  let (oldRange, rest) ← coordinate (← behind "@@ -" line)
  let (headRange, rest) ← coordinate (← behind " +" rest)
  let rest ← behind " @@" rest
  guard (rest = [] || (rest.head? = some ' ' && rest.all (!isLineTerminator ·)))
  return (oldRange, headRange)

def maxSafeInteger : Nat := 2 ^ 53 - 1

/-- The first line and the number of lines, within the limits. -/
def parseHunkCoordinate (start : Text) (count : Option Text) : Option (Nat × Nat) := do
  let parsedStart ← number start
  let parsedCount ← count.elim (some 1) number
  guard (parsedStart ≤ maxSafeInteger && parsedCount ≤ maxSafeInteger &&
    parsedCount ≤ maxExactHeadPatchLine)
  guard (if parsedCount = 0 then parsedStart ≤ maxExactHeadPatchLine
    else 1 ≤ parsedStart && parsedStart ≤ maxExactHeadPatchLine &&
      parsedStart + parsedCount - 1 ≤ maxExactHeadPatchLine)
  return (parsedStart, parsedCount)

/-- The lines of the head that the hunks of a patch name, read line after line. -/
def readHunks (hunkCount : Nat) (ranges : List LineRange) : List Text → Option (List LineRange)
  | [] => some ranges
  | rawLine :: rest =>
    let line := if rawLine.getLast? = some '\r' then rawLine.dropLast else rawLine
    if !"@@".toList.isPrefixOf line then readHunks hunkCount ranges rest
    else if maxExactHeadPatchRanges < hunkCount + 1 then none
    else do
      let (oldRange, headRange) ← hunkHeader line
      let _ ← parseHunkCoordinate oldRange.1 oldRange.2
      let (start, count) ← parseHunkCoordinate headRange.1 headRange.2
      readHunks (hunkCount + 1)
        (if 0 < count then ranges ++ [⟨start, start + count - 1⟩] else ranges) rest

/-- The comparison that sorts ranges. -/
def LineRange.before (left right : LineRange) : Bool :=
  left.startLine < right.startLine ||
    (left.startLine = right.startLine && left.endLine ≤ right.endLine)

/-- One step of the loop that joins ranges which touch. -/
def mergeRange (merged : List LineRange) (range : LineRange) : List LineRange :=
  match merged.getLast? with
  | none => merged ++ [range]
  | some previous =>
    if range.startLine ≤ previous.endLine + 1 then
      merged.dropLast ++ [{ previous with endLine := max previous.endLine range.endLine }]
    else merged ++ [range]

structure PatchIdentity where
  headRanges : Option (List LineRange)
  patchSha256 : Option Text
  patchByteCount : Option Nat
  deriving DecidableEq

def noPatchIdentity : PatchIdentity := ⟨none, none, none⟩

def parseHeadRanges (host : Host) : Option Json → Option PatchIdentity
  | none => some noPatchIdentity
  | some .null => some noPatchIdentity
  | some (.str rawPatch) =>
    if rawPatch = [] then none
    else do
      let ranges ← readHunks 0 [] (rawPatch.splitOn '\n')
      let merged := (ranges.insertionSort fun left right => left.before right).foldl mergeRange []
      if merged = [] then none
      else return {
        headRanges := some merged
        patchSha256 := some (hex (host.sha256 (utf8 rawPatch)))
        patchByteCount := some (utf8 rawPatch).length }
  | some _ => none

/-! ## The comparison -/

/-- `value[key]` is undefined or null. -/
def absentAt (key : String) (value : Json) : Bool :=
  match value.get key.toList with
  | none => true
  | some .null => true
  | _ => false

/-- One file of a comparison, behind files with these paths. -/
def readFile (host : Host) (paths : List Text) (file : Json) : Option ExactHeadChangedFile := do
  let path ← textAt "filename" file
  let status ← textAt "status" file
  guard (isSafeRelativePath path && status ∈ allowedFileStatuses)
  guard (path ∉ paths)
  let blobSha := ((textAt "sha" file).filter fun sha => isSha sha).map toLowerCase
  guard (if status = removed then absentAt "sha" file || blobSha.isSome else blobSha.isSome)
  let rawPreviousPath := textAt "previous_filename" file
  guard (if status = renamed then
      rawPreviousPath.any fun previous => isSafeRelativePath previous && previous ≠ path
    else absentAt "previous_filename" file)
  let patch ← (if status = removed then some noPatchIdentity
    else parseHeadRanges host (file.get "patch".toList))
  return {
    path, status, blobSha
    previousPath := if status = renamed then rawPreviousPath else none
    headRanges := patch.headRanges
    patchSha256 := patch.patchSha256
    patchByteCount := patch.patchByteCount }

/-- The loop over the files of a comparison. -/
def readFiles (host : Host) (paths : List Text) : List Json → Option (List ExactHeadChangedFile)
  | [] => some []
  | file :: rest => do
    let parsed ← readFile host paths file
    let parsedRest ← readFiles host (parsed.path :: paths) rest
    return parsed :: parsedRest

/-- The comparison that sorts files. -/
def pathBefore (left right : ExactHeadChangedFile) : Bool := !textLt right.path left.path

/-- `value[key]["sha"]` where it is a commit. -/
def commitShaAt (key : String) (value : Json) : Option Text :=
  ((value.get key.toList).bind (textAt "sha")).filter fun sha => isSha sha

def isTrueAt (key : String) (value : Json) : Bool :=
  match value.get key.toList with
  | some (.bool true) => true
  | _ => false

/-- The files and the merge base of a comparison. -/
def parseCompareManifest (host : Host) (value : Json) (expectedBaseSha : Text) :
    Option (List ExactHeadChangedFile × Text) := do
  guard (!isTrueAt "truncated" value)
  let files ← arrayAt "files" value
  let compareBaseSha ← commitShaAt "base_commit" value
  guard (toLowerCase compareBaseSha = expectedBaseSha)
  let mergeBaseSha ← commitShaAt "merge_base_commit" value
  guard (files ≠ [] && files.length < maxCompareFilesExclusive)
  let parsed ← readFiles host [] files
  return (parsed.insertionSort fun left right => pathBefore left right, toLowerCase mergeBaseSha)

/-! ## Digests (`db-postgres/src/queries/change_records.ts`) -/

/-- `JSON.stringify` of a string or null. -/
def quoteOrNull : Option Text → Text
  | none => "null".toList
  | some t => quote t

def field (key : String) (written : Text) : Text × Text := (key.toList, written)

def textField (key : String) (t : Text) : Text × Text := field key (quote t)

def sha256Text (host : Host) (t : Text) : Text := hex (host.sha256 (utf8 t))

/-- A file of the first version of the manifest. -/
structure ManifestFile where
  path : Text
  status : Text
  blobSha : Option Text
  previousPath : Option Text

def acceptanceContextOverlayManifestSha256 (host : Host) (baseSha mergeBaseSha headSha : Text)
    (files : List ManifestFile) : Text :=
  sha256Text host <| object [
    textField "kind" "acceptance_context_overlay_manifest".toList,
    field "version" (decimal 1),
    textField "baseSha" baseSha,
    textField "mergeBaseSha" mergeBaseSha,
    textField "headSha" headSha,
    field "files" <| array <| files.map fun file => object [
      textField "path" file.path,
      textField "status" file.status,
      field "blobSha" (quoteOrNull file.blobSha),
      field "previousPath" (quoteOrNull file.previousPath)]]

structure OverlayRange where
  startLine : Nat
  endLine : Nat
  coordinateSha256 : Text

/-- A file of the second version of the manifest. -/
structure OverlayFile where
  path : Text
  status : Text
  blobSha : Option Text
  previousPath : Option Text
  patchSha256 : Option Text
  patchByteCount : Option Nat
  headRanges : List OverlayRange

structure CustodyOverlay where
  baseSha : Text
  mergeBaseSha : Text
  headSha : Text
  files : List OverlayFile
  manifestSha256 : Text

/-- Canonical JSON writes the keys of an object in their order. -/
def acceptanceContextOverlayHeadRangeCoordinateSha256 (host : Host) (path patchSha256 : Text)
    (range : LineRange) : Text :=
  sha256Text host <| object [
    field "endLine" (decimal range.endLine),
    textField "kind" "acceptance_context_overlay_head_range".toList,
    textField "patchSha256" patchSha256,
    textField "path" path,
    field "startLine" (decimal range.startLine),
    field "version" (decimal 1)]

def acceptanceContextPackCustodyOverlayManifestSha256 (host : Host)
    (baseSha mergeBaseSha headSha : Text) (files : List OverlayFile) : Text :=
  sha256Text host <| object [
    textField "baseSha" baseSha,
    field "files" <| array <| files.map fun file => object [
      field "blobSha" (quoteOrNull file.blobSha),
      field "headRanges" <| array <| file.headRanges.map fun range => object [
        textField "coordinateSha256" range.coordinateSha256,
        field "endLine" (decimal range.endLine),
        field "startLine" (decimal range.startLine)],
      field "patchByteCount" ((file.patchByteCount.map decimal).getD "null".toList),
      field "patchSha256" (quoteOrNull file.patchSha256),
      textField "path" file.path,
      field "previousPath" (quoteOrNull file.previousPath),
      textField "status" file.status],
    textField "headSha" headSha,
    textField "kind" "acceptance_context_pack_custody_overlay_manifest".toList,
    textField "mergeBaseSha" mergeBaseSha,
    field "version" (decimal 2)]

/-! ## The snapshot -/

structure ExactHeadGithubContextInput where
  token : Text
  repo : Text
  prNumber : ℚ
  expectedHeadSha : Text

/-- What a capped read of GitHub gives. -/
inductive GithubJsonRead where
  | value (v : Json)
  | githubUnavailable
  | githubRejected
  | invalidResponse

inductive NotProven where
  | invalidInput
  | githubUnavailable
  | githubRejected
  | invalidPrMetadata
  | headMismatch
  | invalidHeadCommit
  | invalidCompareManifest
  deriving DecidableEq

/-- The value of a read, where the reason for an answer that is no JSON is the caller's. -/
def GithubJsonRead.orElse (invalid : NotProven) : GithubJsonRead → Except NotProven Json
  | .value v => .ok v
  | .githubUnavailable => .error .githubUnavailable
  | .githubRejected => .error .githubRejected
  | .invalidResponse => .error invalid

def validInput (input : ExactHeadGithubContextInput) : Bool :=
  trim input.token ≠ [] && isRepo input.repo && !(splitPath input.repo).any isDots &&
    isInteger input.prNumber && 0 < input.prNumber && isSha input.expectedHeadSha

def orFail {α : Type} (reason : NotProven) : Option α → Except NotProven α
  | some a => .ok a
  | none => .error reason

def require (reason : NotProven) (rule : Bool) : Except NotProven Unit :=
  if rule then .ok () else .error reason

def manifestFile (file : ExactHeadChangedFile) : ManifestFile :=
  ⟨file.path, file.status, file.blobSha, file.previousPath⟩

/-- The snapshot of a pull request from the reads of its metadata, of the commit of its head
and of the comparison with its base. -/
def readExactHeadGithubContext (host : Host) (input : ExactHeadGithubContextInput)
    (prRead commitRead compareRead : GithubJsonRead) :
    Except NotProven ExactHeadGithubContextSnapshot := do
  require .invalidInput (validInput input)
  let headSha := toLowerCase input.expectedHeadSha
  let pr ← prRead.orElse .invalidPrMetadata
  let actualHead ← orFail .invalidPrMetadata (commitShaAt "head" pr)
  let baseSha ← orFail .invalidPrMetadata (commitShaAt "base" pr)
  require .headMismatch (toLowerCase actualHead = headSha)
  let commit ← commitRead.orElse .invalidHeadCommit
  let commitSha ← orFail .invalidHeadCommit ((textAt "sha" commit).filter fun sha => isSha sha)
  require .invalidHeadCommit (toLowerCase commitSha = headSha)
  let headTreeSha ← orFail .invalidHeadCommit (commitShaAt "tree" commit)
  let normalizedBaseSha := toLowerCase baseSha
  let compare ← compareRead.orElse .invalidCompareManifest
  let (changedFiles, mergeBaseSha) ← orFail .invalidCompareManifest
    (parseCompareManifest host compare normalizedBaseSha)
  return {
    repo := input.repo
    prNumber := input.prNumber
    baseSha := normalizedBaseSha
    mergeBaseSha, headSha, changedFiles
    headTreeSha := toLowerCase headTreeSha
    manifestSha256 := acceptanceContextOverlayManifestSha256 host normalizedBaseSha mergeBaseSha
      headSha (changedFiles.map manifestFile) }

/-! ## The overlay -/

/-- A range stands behind the one before it. -/
def Apart (previous range : LineRange) : Prop := previous.endLine < range.startLine

instance : DecidableRel Apart := fun previous range =>
  inferInstanceAs (Decidable (previous.endLine < range.startLine))

/-- No range of a list meets the one before it. -/
def rangesApart (ranges : List LineRange) : Bool := ranges.IsChain Apart

/-- The patch of a file is whole or absent as a whole. -/
def overlayPatch (file : ExactHeadChangedFile) : Bool :=
  match file.patchSha256, file.patchByteCount, file.headRanges with
  | none, none, none => true
  | some patchSha256, some patchByteCount, some ranges =>
    isHex 64 patchSha256 && patchByteCount ≤ maxSafeInteger && 0 < patchByteCount &&
      patchByteCount ≤ maxExactHeadCompareResponseBytes && ranges ≠ [] &&
      ranges.length ≤ maxExactHeadPatchRanges
  | _, _, _ => false

/-- The identity of a changed file, unless it breaks a rule. -/
def overlayFile (host : Host) (file : ExactHeadChangedFile) : Option OverlayFile := do
  guard (isSafeRelativePath file.path && file.status ∈ allowedFileStatuses)
  guard (if file.status = removed then file.blobSha = none
    else file.blobSha.any fun sha => isSha sha)
  guard (if file.status = renamed then
      file.previousPath.any fun previous => isSafeRelativePath previous && previous ≠ file.path
    else file.previousPath = none)
  guard (overlayPatch file)
  let ranges := file.headRanges.getD []
  guard (ranges.all fun range => range.startLine ≤ maxSafeInteger &&
    range.endLine ≤ maxSafeInteger && 1 ≤ range.startLine && range.startLine ≤ range.endLine &&
    range.endLine ≤ maxExactHeadPatchLine)
  guard (rangesApart ranges)
  return {
    path := file.path
    status := file.status
    blobSha := file.blobSha.map toLowerCase
    previousPath := file.previousPath
    patchSha256 := file.patchSha256.map toLowerCase
    patchByteCount := file.patchByteCount
    headRanges := ranges.map fun range => {
      startLine := range.startLine
      endLine := range.endLine
      coordinateSha256 := acceptanceContextOverlayHeadRangeCoordinateSha256 host file.path
        (file.patchSha256.getD []) range } }

/-- The identity of a snapshot for the database, `none` where a stage before was wrong. -/
def exactHeadContextCustodyOverlay (host : Host) (snapshot : ExactHeadGithubContextSnapshot) :
    Option CustodyOverlay := do
  guard (isSha snapshot.baseSha && isSha snapshot.mergeBaseSha && isSha snapshot.headSha)
  guard (1 ≤ snapshot.changedFiles.length &&
    snapshot.changedFiles.length < maxCompareFilesExclusive)
  let files ← snapshot.changedFiles.mapM (overlayFile host)
  let files := files.insertionSort fun left right => !textLt right.path left.path
  guard (files.map OverlayFile.path).Nodup
  let baseSha := toLowerCase snapshot.baseSha
  let mergeBaseSha := toLowerCase snapshot.mergeBaseSha
  let headSha := toLowerCase snapshot.headSha
  return {
    baseSha, mergeBaseSha, headSha, files
    manifestSha256 := acceptanceContextPackCustodyOverlayManifestSha256 host baseSha mergeBaseSha
      headSha files }

/-! ## Hexadecimal digits -/

theorem mem_of_isHexDigit {c : Char} (h : isHexDigit c) :
    c ∈ "0123456789abcdefABCDEF".toList := by
  have hle : ∀ a b : Char, a ≤ b ↔ a.toNat ≤ b.toNat := fun _ _ => Iff.rfl
  unfold isHexDigit at h
  simp only [Bool.or_eq_true, Bool.and_eq_true, decide_eq_true_eq, hle] at h
  have hnat : c.toNat ∈ "0123456789abcdefABCDEF".toList.map Char.toNat := by
    have hmap : "0123456789abcdefABCDEF".toList.map Char.toNat =
      [48, 49, 50, 51, 52, 53, 54, 55, 56, 57, 97, 98, 99, 100, 101, 102, 65, 66, 67, 68, 69,
        70] := by decide
    have hends : '0'.toNat = 48 ∧ '9'.toNat = 57 ∧ 'a'.toNat = 97 ∧ 'f'.toNat = 102 ∧
      'A'.toNat = 65 ∧ 'F'.toNat = 70 := by decide
    simp only [hmap, List.mem_cons, List.not_mem_nil]
    omega
  obtain ⟨d, hd, hdc⟩ := List.mem_map.mp hnat
  rwa [← Char.toNat_inj.mp hdc]

end Agentrail.ExactHead
