import Agentrail.Js.Pretty
import Agentrail.Records.ExactGitTree
import Mathlib.Data.Char

/-!
# Fitting a context pack (`console/lib/acceptance-context-pack-compiler.ts`)

`fitBudget` takes the candidate sources of a pack in the order of their priority, measures
the rendered pack with each of them, and keeps what stays within the budget.  A candidate
that does not fit leaves an exclusion, which the next measurement sees.
-/

namespace Agentrail.ContextPack

open Js
open ExactGitTree (textAt splitPath)

/-- The functions outside this file that the compiler calls. -/
structure Host where
  /-- `JSON.stringify` and `String` of a number. -/
  numberText : ℚ → Text
  /-- `scanForSecrets(text).clean` -/
  scanClean : Text → Bool

/-! ## Constants -/

def compilerVersion : Text := "exact-head-correction-pack-v6".toList
def policyVersion : Text := "bounded-exact-ranges-v4".toList
def byteCounter : Text := "utf8_byte_upper_bound_v1".toList
def byteBudget : Nat := 65536
def maxPackSources : Nat := 64

/-! ## Values -/

structure ExactSource where
  path : Text
  blobSha : Text
  fullContentSha256 : Text
  startLine : Nat
  endLine : Nat
  rangeSha256 : Text
  byteCount : Nat
  reason : Text
  citation : Text
  deriving DecidableEq

structure WikiSource where
  pageId : Text
  slug : Text
  commitSha : Text
  inputsHashSha256 : Text
  pageBodySha256 : Text
  startLine : Nat
  endLine : Nat
  rangeSha256 : Text
  byteCount : Nat
  citation : Text
  deriving DecidableEq

inductive Source where
  | exactHeadOverlay (s : ExactSource)
  | exactHeadDependency (s : ExactSource)
  | baseIndexBackground (s : WikiSource)
  deriving DecidableEq

inductive SourceKind where
  | exactHeadOverlay
  | exactHeadDependency
  | baseIndexBackground
  deriving DecidableEq

structure SourceWithText where
  source : Source
  content : Text
  deriving DecidableEq

structure Exclusion where
  source : SourceKind
  path : Option Text
  reason : Text
  identitySha256 : Option Text
  deriving DecidableEq

structure Criterion where
  id : Text
  text : Text
  userVisible : Bool
  modality : Option Text

structure Question where
  id : Text
  text : Text

structure Contract where
  originalRequest : Text
  normalizedRequirements : List Text
  acceptanceCriteria : List Criterion
  nonGoals : List Text
  risks : List Text
  stops : List Text
  environment : Json
  unresolvedQuestions : List Question

structure Binding where
  sourceSnapshotId : Text
  workspaceId : Text
  recordId : Text
  reviewJobId : Text
  acceptanceContractId : Text
  acceptanceContractVersion : ℚ
  acceptanceContractSha256 : Text
  repo : Text
  prNumber : ℚ
  baseSha : Text
  mergeBaseSha : Text
  headSha : Text
  headTreeSha : Text
  packetSetSha256 : Text
  correctionPacketPayloadSetSha256 : Text
  sourceSnapshotCompilerVersion : Text
  baseIndexRevisionSha256 : Text
  overlayManifestSha256 : Text

structure Manifest where
  acceptanceCriterionIds : List Text
  unresolvedQuestionIds : List Text
  packetIds : List Text
  sources : List Source
  architectureBoundaries : List Text
  tests : List Text
  exclusions : List Exclusion
  sourceCustodyIdentitySha256 : Text

/-! ## Their JSON -/

def object (fields : List (String × Json)) : Json := .obj (fields.map fun f => (f.1.toList, f.2))

def texts (ts : List Text) : Json := .arr (ts.map .str)

def natural (n : Nat) : Json := .num n

def literal (s : String) : Json := .str s.toList

/-- A property that is left out where its value is undefined. -/
def optional (key : String) : Option Text → List (String × Json)
  | none => []
  | some t => [(key, .str t)]

def SourceKind.text : SourceKind → Text
  | exactHeadOverlay => "exact_head_overlay".toList
  | exactHeadDependency => "exact_head_dependency".toList
  | baseIndexBackground => "base_index_background".toList

def Source.kind : Source → SourceKind
  | exactHeadOverlay _ => .exactHeadOverlay
  | exactHeadDependency _ => .exactHeadDependency
  | baseIndexBackground _ => .baseIndexBackground

def ExactSource.json (kind : SourceKind) (s : ExactSource) : Json :=
  object [("kind", .str kind.text), ("path", .str s.path), ("blobSha", .str s.blobSha),
    ("fullContentSha256", .str s.fullContentSha256), ("startLine", natural s.startLine),
    ("endLine", natural s.endLine), ("rangeSha256", .str s.rangeSha256),
    ("byteCount", natural s.byteCount), ("reason", .str s.reason), ("citation", .str s.citation)]

def WikiSource.json (s : WikiSource) : Json :=
  object [("kind", .str SourceKind.baseIndexBackground.text), ("pageId", .str s.pageId),
    ("slug", .str s.slug), ("commitSha", .str s.commitSha),
    ("inputsHashSha256", .str s.inputsHashSha256), ("pageBodySha256", .str s.pageBodySha256),
    ("stale", .bool false), ("startLine", natural s.startLine), ("endLine", natural s.endLine),
    ("rangeSha256", .str s.rangeSha256), ("byteCount", natural s.byteCount),
    ("reason", literal "background_only"), ("citation", .str s.citation)]

def Source.json : Source → Json
  | exactHeadOverlay s => s.json .exactHeadOverlay
  | exactHeadDependency s => s.json .exactHeadDependency
  | baseIndexBackground s => s.json

def SourceWithText.json (s : SourceWithText) : Json :=
  object [("source", s.source.json), ("content", .str s.content)]

def textOrNull : Option Text → Json
  | none => .null
  | some t => .str t

def Exclusion.json (e : Exclusion) : Json :=
  object ([("source", .str e.source.text), ("path", textOrNull e.path), ("reason", .str e.reason)] ++
    optional "identitySha256" e.identitySha256)

def Criterion.json (c : Criterion) : Json :=
  object ([("id", .str c.id), ("text", .str c.text), ("userVisible", .bool c.userVisible)] ++
    optional "modality" c.modality)

def Question.json (q : Question) : Json := object [("id", .str q.id), ("text", .str q.text)]

def Contract.json (c : Contract) : Json :=
  object [("originalRequest", .str c.originalRequest),
    ("normalizedRequirements", texts c.normalizedRequirements),
    ("acceptanceCriteria", .arr (c.acceptanceCriteria.map Criterion.json)),
    ("nonGoals", texts c.nonGoals), ("risks", texts c.risks), ("stops", texts c.stops),
    ("environment", c.environment),
    ("unresolvedQuestions", .arr (c.unresolvedQuestions.map Question.json))]

def Binding.json (b : Binding) : Json :=
  object [("sourceSnapshotId", .str b.sourceSnapshotId), ("workspaceId", .str b.workspaceId),
    ("recordId", .str b.recordId), ("reviewJobId", .str b.reviewJobId),
    ("acceptanceContractId", .str b.acceptanceContractId),
    ("acceptanceContractVersion", .num b.acceptanceContractVersion),
    ("acceptanceContractSha256", .str b.acceptanceContractSha256), ("repo", .str b.repo),
    ("prNumber", .num b.prNumber), ("baseSha", .str b.baseSha),
    ("mergeBaseSha", .str b.mergeBaseSha), ("headSha", .str b.headSha),
    ("headTreeSha", .str b.headTreeSha), ("packetSetSha256", .str b.packetSetSha256),
    ("correctionPacketPayloadSetSha256", .str b.correctionPacketPayloadSetSha256),
    ("sourceSnapshotCompilerVersion", .str b.sourceSnapshotCompilerVersion),
    ("baseIndexRevisionSha256", .str b.baseIndexRevisionSha256),
    ("overlayManifestSha256", .str b.overlayManifestSha256)]

def sourceCustodyJson (identitySha256 : Text) : Json :=
  object [("kind", literal "exact_head_source_custody"), ("schemaVersion", natural 2),
    ("identitySha256", .str identitySha256)]

def exclusionsJson (exclusions : List Exclusion) : Json := .arr (exclusions.map Exclusion.json)

def Manifest.json (m : Manifest) : Json :=
  object [("version", natural 1), ("acceptanceCriterionIds", texts m.acceptanceCriterionIds),
    ("unresolvedQuestionIds", texts m.unresolvedQuestionIds), ("packetIds", texts m.packetIds),
    ("sources", .arr (m.sources.map Source.json)),
    ("architectureBoundaries", texts m.architectureBoundaries), ("tests", texts m.tests),
    ("decisions", .arr []), ("exclusions", exclusionsJson m.exclusions),
    ("sourceCustody", sourceCustodyJson m.sourceCustodyIdentitySha256),
    ("budget", object [("counter", .str byteCounter), ("limitBytes", natural byteBudget)]),
    ("custody", object [("fullSourceUploadAllowed", .bool false), ("rawSourcePersisted", .bool false),
      ("snippetsPersisted", .bool false)])]

/-! ## Canonical lists -/

/-- `compareText(left, right) <= 0`. -/
def notAfter (left right : Text) : Bool := (List.compareLex compare (utf8 left) (utf8 right)).isLE

/-- `[...new Set(values)].sort(compareText)`. -/
def sortedUnique (values : List Text) : List Text :=
  values.dedup.insertionSort fun left right => notAfter left right

section
variable {α : Type} (key : α → Text)

/-- `map.set(key(value), value)`, in the order of insertion. -/
def setByKey (values : List α) (value : α) : List α :=
  if values.any fun other => key other = key value then
    values.map fun other => if key other = key value then value else other
  else values ++ [value]

/-- The last value of every key, in the order of the keys. -/
def canonicalBy (values : List α) : List α :=
  (values.foldl (setByKey key) []).insertionSort fun left right => notAfter (key left) (key right)

end

/-- The identifier, the first line and the last line of a source. -/
def Source.place : Source → Text × Nat × Nat
  | exactHeadOverlay s => (s.path, s.startLine, s.endLine)
  | exactHeadDependency s => (s.path, s.startLine, s.endLine)
  | baseIndexBackground s => (s.slug, s.startLine, s.endLine)

/-- `String(n).padStart(10, "0")`. -/
def padded (n : Nat) : Text := List.replicate (10 - (decimal n).length) '0' ++ decimal n

def sourceKey (s : Source) : Text :=
  join ['\x00'] [s.kind.text, s.place.1, padded s.place.2.1, padded s.place.2.2]

def exclusionKey (e : Exclusion) : Text :=
  join ['\x00'] [e.source.text, e.path.getD [], e.reason, e.identitySha256.getD []]

def canonicalSources (values : List SourceWithText) : List SourceWithText :=
  canonicalBy (fun value => sourceKey value.source) values

def canonicalExclusions (values : List Exclusion) : List Exclusion :=
  canonicalBy exclusionKey values

/-! ## The manifest -/

/-- `/(?:^|\/)(?:test|tests|__tests__)(?:\/|$)|(?:\.test|\.spec)\.[^.]+$/u`. -/
def isTestPath (path : Text) : Bool :=
  (splitPath path).any (fun part => part ∈ ["test".toList, "tests".toList, "__tests__".toList]) ||
    match splitLast '.' path with
    | none => false
    | some (before, extension) => extension ≠ [] &&
      (".test".toList.isSuffixOf before || ".spec".toList.isSuffixOf before)

/-- The citation of a source of a test. -/
def testCitation : Source → List Text
  | .exactHeadOverlay s => if isTestPath s.path then [s.citation] else []
  | .exactHeadDependency s => if isTestPath s.path then [s.citation] else []
  | .baseIndexBackground _ => []

def buildManifest (contract : Contract) (packets : List Json) (sources : List SourceWithText)
    (exclusions : List Exclusion) (sourceCustodyIdentitySha256 : Text) : Manifest :=
  let sources := canonicalSources sources
  { acceptanceCriterionIds := sortedUnique (contract.acceptanceCriteria.map Criterion.id)
    unresolvedQuestionIds := sortedUnique (contract.unresolvedQuestions.map Question.id)
    packetIds := packets.map fun packet => (textAt "packetId" packet).getD []
    sources := sources.map SourceWithText.source
    architectureBoundaries := sortedUnique
      (contract.nonGoals.map ("non_goal:".toList ++ ·) ++ contract.stops.map ("stop:".toList ++ ·))
    tests := sortedUnique (sources.flatMap fun s => testCitation s.source)
    exclusions := canonicalExclusions exclusions
    sourceCustodyIdentitySha256 }

/-! ## Rendering -/

/-- What a pack renders besides its sources and its manifest. -/
structure PackInput where
  binding : Binding
  contract : Contract
  packets : List Json
  sources : List SourceWithText
  exclusions : List Exclusion

def compilerJson : Json :=
  object [("version", .str compilerVersion), ("policyVersion", .str policyVersion),
    ("byteCounter", .str byteCounter), ("byteBudget", natural byteBudget)]

def representationPayload (input : PackInput) (manifest : Manifest)
    (sources : List SourceWithText) : Json :=
  object [("kind", literal "acceptance_context_pack"), ("version", natural 1),
    ("binding", input.binding.json), ("compiler", compilerJson),
    ("acceptanceContract", input.contract.json), ("correctionPackets", .arr input.packets),
    ("manifest", manifest.json), ("sources", .arr (sources.map SourceWithText.json))]

/-- The run of backticks in front of a text and the longest run in it. -/
def backtickRuns (content : Text) : Nat × Nat :=
  content.foldr (fun c runs => if c = '`' then (runs.1 + 1, max (runs.1 + 1) runs.2) else (0, runs.2))
    (0, 0)

def markdownFence (content : Text) : Text :=
  List.replicate (max 3 ((backtickRuns content).2 + 1)) '`'

/-- A fenced block with a blank line behind it. -/
def fenced (language : String) (content : Text) : List Text :=
  [markdownFence content ++ language.toList, content, markdownFence content, []]

section
variable (host : Host)

def packetSection (packet : Json) : List Text :=
  ["### ".toList ++ (textAt "packetId" packet).getD [], []] ++
    fenced "json" (prettyJson host.numberText 0 packet)

def Source.citation : Source → Text
  | exactHeadOverlay s => s.citation
  | exactHeadDependency s => s.citation
  | baseIndexBackground s => s.citation

def sourceSection (s : SourceWithText) : List Text :=
  ["### ".toList ++ s.source.citation, []] ++ fenced "text" s.content

def exclusionLine (e : Exclusion) : Text :=
  "- ".toList ++ e.source.text ++ ':' :: e.path.getD "(none)".toList ++ " — ".toList ++ e.reason

def exclusionLines (exclusions : List Exclusion) : List Text :=
  if exclusions = [] then ["- None".toList] else exclusions.map exclusionLine

/-- The lines of the Markdown in front of the custody digest. -/
def headLines (binding : Binding) : List Text :=
  ["# Acceptance Context Pack".toList, [],
    "- Repository: ".toList ++ binding.repo,
    "- Pull request: #".toList ++ host.numberText binding.prNumber,
    "- Exact head: ".toList ++ binding.headSha,
    "- Base / merge base: ".toList ++ binding.baseSha ++ " / ".toList ++ binding.mergeBaseSha,
    "- Acceptance Contract: ".toList ++ binding.acceptanceContractId ++ " v".toList ++
      host.numberText binding.acceptanceContractVersion,
    "- Packet set: ".toList ++ binding.packetSetSha256]

def custodyLine (identitySha256 : Text) : Text :=
  "- Exact-source custody: ".toList ++ identitySha256

def contractLines (contract : Contract) : List Text :=
  [[], "## Confirmed Acceptance Contract".toList, []] ++
    fenced "json" (prettyJson host.numberText 0 contract.json)

/-- The lines of the Markdown between the contract and the exclusions. -/
def bodyLines (packets : List Json) (sources : List SourceWithText) : List Text :=
  ["## Immutable correction packets".toList, []] ++ packets.flatMap (packetSection host) ++
    ["## Exact sources and background".toList, []] ++ sources.flatMap sourceSection ++
    ["## Explicit exclusions and gaps".toList, []]

def markdownLines (input : PackInput) (manifest : Manifest) (sources : List SourceWithText) :
    List Text :=
  headLines host input.binding ++ [custodyLine manifest.sourceCustodyIdentitySha256] ++
    contractLines host input.contract ++ bodyLines host input.packets sources ++
    exclusionLines manifest.exclusions ++ [[]]

structure Representations where
  json : Text
  markdown : Text

/-- The two texts before they are scanned. -/
def representationTexts (input : PackInput) (manifest : Manifest)
    (sources : List SourceWithText) : Representations where
  json := prettyJson host.numberText 0 (representationPayload input manifest sources)
  markdown := join ['\n'] (markdownLines host input manifest sources)

def Representations.clean (r : Representations) : Bool :=
  host.scanClean r.json && host.scanClean r.markdown

def renderRepresentations (input : PackInput) (manifest : Manifest)
    (sources : List SourceWithText) : Option Representations :=
  let r := representationTexts host input manifest sources
  if r.clean host then some r else none

/-- `Math.max` of the lengths of the two texts. -/
def Representations.byteCount (r : Representations) : Nat := max (bytes r.json) (bytes r.markdown)

/-- A pack that could not be rendered counts as infinitely long. -/
def overBudget : Option Representations → Bool
  | none => true
  | some r => byteBudget < r.byteCount

/-! ## The loop -/

def Source.rank : Source → Nat
  | exactHeadOverlay _ => 0
  | exactHeadDependency _ => 1
  | baseIndexBackground _ => 2

/-- The order in which candidates are tried. -/
def priorityBefore (left right : SourceWithText) : Bool :=
  left.source.rank < right.source.rank ||
    (left.source.rank = right.source.rank &&
      notAfter (sourceKey left.source) (sourceKey right.source))

def priority (input : PackInput) : List SourceWithText :=
  input.sources.insertionSort fun left right => priorityBefore left right

/-- What the loop has selected and excluded. -/
structure Selection where
  selected : List SourceWithText
  exclusions : List Exclusion
  deriving DecidableEq

def placeholder : Text := List.replicate 64 '0'

def Selection.manifest (s : Selection) (input : PackInput) (digest : Text) : Manifest :=
  buildManifest input.contract input.packets (canonicalSources s.selected) s.exclusions digest

/-- The pack of a selection, measured with a digest of the right length. -/
def Selection.render (s : Selection) (input : PackInput) : Option Representations :=
  renderRepresentations host input (s.manifest input placeholder) (canonicalSources s.selected)

/-- The exclusion of a candidate that does not fit. -/
def packBudgetExclusion (candidate : SourceWithText) : Exclusion where
  source := candidate.source.kind
  path := some candidate.source.place.1
  reason := "pack_budget".toList
  identitySha256 := some (match candidate.source with
    | .exactHeadOverlay s => s.rangeSha256
    | .exactHeadDependency s => s.rangeSha256
    | .baseIndexBackground s => s.rangeSha256)

def Selection.push (s : Selection) (candidate : SourceWithText) : Selection :=
  { s with selected := s.selected ++ [candidate] }

def Selection.reject (s : Selection) (candidate : SourceWithText) : Selection :=
  { s with exclusions := s.exclusions ++ [packBudgetExclusion candidate] }

/-- A candidate is taken. -/
def takes (input : PackInput) (s : Selection) (candidate : SourceWithText) : Bool :=
  !(overBudget ((s.push candidate).render host input) ||
    maxPackSources < (s.push candidate).selected.length)

/-- One turn of the loop. -/
def fitStep (input : PackInput) (s : Selection) (candidate : SourceWithText) : Selection :=
  if takes host input s candidate then s.push candidate else s.reject candidate

def start (input : PackInput) : Selection := ⟨[], input.exclusions⟩

structure Fitted where
  sources : List SourceWithText
  exclusions : List Exclusion

def fitBudget (input : PackInput) : Option Fitted :=
  if overBudget ((start input).render host input) then none
  else
    let s := (priority input).foldl (fitStep host input) (start input)
    let sources := canonicalSources s.selected
    if sources.any fun s => s.source.kind = .exactHeadOverlay then
      some ⟨sources, canonicalExclusions s.exclusions⟩
    else none

/-- What `compileAcceptanceContextPackInternal` renders after a fit, with the digest of the
source custody. -/
def compiledRepresentations (input : PackInput) (fitted : Fitted) (digest : Text) :
    Option Representations :=
  renderRepresentations host input
    (buildManifest input.contract input.packets fitted.sources fitted.exclusions digest)
    fitted.sources

end

end Agentrail.ContextPack
