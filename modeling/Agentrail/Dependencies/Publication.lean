import Mathlib.Data.Char
import Mathlib.Data.List.Dedup
import Mathlib.Data.List.Lex
import Mathlib.Data.List.Sort
import Agentrail.Py.Dict
import Agentrail.Py.Re

/-!
# The publication contract (`agentrail/dependencies/publication.py`)

`evaluate_dependency_publication` reads the artifacts of a run, most of them under
several names and in several places, and collects what stands against a pull request.

Main results:

* `allowed_iff`: the prerequisites of an allowed publication;
* `publication_holds_iff`: an allowed publication is bound, proven and in scope, and
  stays allowed when a deleted artifact is put back, exactly when nothing is missing
  that the comparisons skip;
* `deleted_proof_allowed`: a run that is refused for an unproven criterion is allowed
  once its acceptance-criteria artifact is gone.
-/

namespace Agentrail.Publication

open Py

/-! ## Values -/

/-- A value of the run data.  `other` is a number or another object, with what `str` and `bool` make
of it; tuples are lists. -/
inductive Value where
  | none
  | bool (b : Bool)
  | str (t : Text)
  | list (xs : List Value)
  | mapping (fields : List (Text × Value))
  | other (text : Text) (truthy : Bool)

abbrev Fields := List (Text × Value)

/-- `_mapping`. -/
def Value.fields : Value → Fields
  | .mapping fields => fields
  | _ => []

/-- `_items`. -/
def Value.items : Value → List Value
  | .list xs => xs
  | _ => []

/-- `bool(value)`. -/
def Value.truthy : Value → Bool
  | .none => false
  | .bool b => b
  | .str t => !t.isEmpty
  | .list xs => !xs.isEmpty
  | .mapping fields => !fields.isEmpty
  | .other _ truthy => truthy

/-- `value is True`. -/
def Value.isTrue : Value → Bool
  | .bool b => b
  | _ => false

/-- `_get`, the value under the first name that is there; a value that is no mapping has none. -/
def get (m : Fields) : List String → Value
  | [] => .none
  | name :: names =>
    match getItem name.toList m with
    | some value => value
    | none => get m names

/-- `_section`. -/
def sectionOf (m : Fields) (names : List String) : Fields := (get m names).fields

/-- `first or second` of mappings. -/
def orElse (first second : Fields) : Fields := if first.isEmpty then second else first

/-! ## Where the artifacts are -/

def payloadNames : List String := ["dependencyPublication", "dependency_publication"]
def candidateNames : List String := ["candidate", "dependencyCandidate"]
def contractNames : List String := ["contract", "dependencyContract", "approvedDependencyUpgrade"]
def evidenceNames : List String := ["evidence", "dependencyEvidence"]
def executionNames : List String :=
  ["execution", "dependencyExecution", "dependencyExecutionResult"]
def acNames : List String := ["acEvidence", "ac_evidence"]
def baselineNames : List String := ["baselineSha", "baseline_sha"]

/-- `markers`. -/
def markers : List String := ["dependencyUpgrade", "dependency_upgrade", "dependencyContract",
  "approvedDependencyUpgrade", "dependencyEvidence", "dependencyExecution",
  "dependencyExecutionResult"]

/-- `_publication_payload`. -/
def publicationPayload (runData : Fields) : Option Fields :=
  match get runData payloadNames with
  | .mapping nested => some nested
  | _ => if markers.any fun name => (getItem name.toList runData).isSome then some runData else none

/-- The candidate that `_candidate` makes of an execution. -/
def executedCandidate (execution : Fields) : Fields :=
  [("package".toList, get execution ["package"]),
    ("ecosystem".toList, get execution ["ecosystem"]),
    ("packageManager".toList, get execution ["packageManager", "package_manager"]),
    ("packageManagerVersion".toList,
      get execution ["packageManagerVersion", "package_manager_version"]),
    ("dependencyKind".toList, get execution ["dependencyKind", "dependency_kind"]),
    ("currentVersion".toList, get execution ["currentVersion", "current_version"]),
    ("targetVersion".toList, get execution ["targetVersion", "target_version"]),
    ("manifestPath".toList, get execution ["manifestPath", "manifest_path"]),
    ("lockfilePath".toList, get execution ["lockfilePath", "lockfile_path"]),
    ("baselineSha".toList, get execution baselineNames),
    ("fingerprint".toList, get execution ["candidateFingerprint", "candidate_fingerprint"])]

/-- `_candidate`. -/
def candidateOf (payload : Fields) : Fields :=
  let candidate := sectionOf payload candidateNames
  if !candidate.isEmpty then candidate
  else
    let contract := sectionOf payload contractNames
    let candidate := orElse (sectionOf contract candidateNames) contract
    if !candidate.isEmpty then candidate
    else
      let execution := sectionOf payload executionNames
      if !execution.isEmpty then executedCandidate execution
      else sectionOf (sectionOf payload evidenceNames) candidateNames

/-- `_approval`. -/
def approvalOf (payload : Fields) : Fields :=
  let approval := sectionOf payload ["approval", "humanApproval"]
  if !approval.isEmpty then approval
  else
    let contract := sectionOf payload contractNames
    if !contract.isEmpty then contract
    else
      let execution := sectionOf payload executionNames
      [("approved".toList, get execution ["approved"]),
        ("approvalId".toList, get execution ["approvalId", "approval_id"])]

/-- `_evidence`. -/
def evidenceOf (payload runData : Fields) : Fields :=
  orElse (sectionOf payload evidenceNames) (sectionOf runData ["dependencyEvidence"])

/-- `_execution`. -/
def executionOf (payload runData : Fields) : Fields :=
  orElse (sectionOf payload executionNames)
    (sectionOf runData ["dependencyExecution", "dependencyExecutionResult"])

/-- `_ac_evidence`. -/
def acEvidenceOf (payload runData : Fields) : Fields :=
  orElse (sectionOf payload acNames) (sectionOf runData acNames)

/-- An artifact that is read under one name. -/
def namedOf (name : String) (payload runData : Fields) : Fields :=
  orElse (sectionOf payload [name]) (sectionOf runData [name])

/-! ## The reasons -/

def reasonIf (c : Bool) (reason : String) : List Text := if c then [reason.toList] else []

/-- The identity fields that are compared, with their labels. -/
def identityTable : List (String × List String) := [
  ("package", ["package"]),
  ("current version", ["currentVersion", "current_version"]),
  ("target version", ["targetVersion", "target_version"]),
  ("baseline SHA", baselineNames),
  ("package manager", ["packageManager", "package_manager"])]

section Reasons

-- `str(value)` of a list or a mapping
variable (repr : Value → Text)

/-- `_text`. -/
def text : Value → Text
  | .none => []
  | .bool true => "True".toList
  | .bool false => "False".toList
  | .str t => strip t
  | .other t _ => strip t
  | value => strip (repr value)

/-- `_text(_get(m, *names))`; `_candidate_value` of a candidate. -/
def textAt (m : Fields) (names : List String) : Text := text repr (get m names)

/-- `[_text(item) for item in _items(_get(m, *names)) if _text(item)]`. -/
def textsAt (m : Fields) (names : List String) : List Text :=
  ((get m names).items.map (text repr)).filter (!·.isEmpty)

/-- `[_text(_get(item, name)) for item in _items(_get(m, *names)) if _text(_get(item, name))]`. -/
def namedTextsAt (m : Fields) (names : List String) (name : String) : List Text :=
  ((get m names).items.map fun item => textAt repr item.fields [name]).filter (!·.isEmpty)

/-- `_proof_row`, whether it passed. -/
def proofRow (gate : Fields) (names : List String) : Bool :=
  match (get gate ["evidence"]).items.find? fun item =>
      names.any fun name => textAt repr item.fields ["name"] = name.toList with
  | some item => (get item.fields ["passed"]).truthy
  | none => false

def fingerprintNames : List String := ["fingerprint", "candidateFingerprint"]

def boundNames : List String := ["candidateFingerprint", "candidate_fingerprint"]

/-- The rows of an acceptance-criteria artifact. -/
def acRows (ac : Fields) : List Fields := (get ac ["acs"]).items.map (·.fields)

def listed (reason : String) (names : List Text) : List Text :=
  if names.isEmpty then [] else [reason.toList ++ List.intercalate [',', ' '] names]

/-- A row whose status is there, and not proven. -/
def acRowReasons (row : Fields) : List Text :=
  let status := textAt repr row ["status"]
  let id := textAt repr row ["id"]
  if status ≠ [] ∧ status ≠ "proven".toList then
    ["AC ".toList ++ (if id = [] then "unknown-ac".toList else id) ++ " is ".toList ++ status]
  else []

/-- `_blocked_ac_reasons`. -/
def blockedAcReasons (ac : Fields) : List Text :=
  listed "unbound AC evidence: " (textsAt repr ac ["unbound"]) ++
  listed "waived AC evidence: " (namedTextsAt repr ac ["waived"] "id") ++
  listed "unverifiable AC evidence: " (namedTextsAt repr ac ["unverifiable"] "ac") ++
  (acRows ac).flatMap (acRowReasons repr)

/-- The comparisons of the evidence's identity with the candidate. -/
def identityReasons (candidate identity : Fields) : List Text :=
  identityTable.flatMap fun (label, names) =>
    let expected := textAt repr candidate names
    let observed := textAt repr identity names
    reasonIf (expected ≠ [] ∧ observed ≠ [] ∧ expected ≠ observed)
      ("dependency evidence " ++ label ++ " is stale or mismatched")

/-- The files that the run changed. -/
def changedFiles (execution : Fields) : List Text :=
  textsAt repr execution ["changedFiles", "changed_files"]

/-- The files that the execution says were allowed. -/
def recordedFiles (execution : Fields) : List Text :=
  textsAt repr execution ["allowedFiles", "allowed_files"]

/-- The files of a candidate. -/
def candidateFiles (candidate : Fields) : List Text :=
  ([textAt repr candidate ["manifestPath", "manifest_path"],
      textAt repr candidate ["lockfilePath", "lockfile_path"]] ++
    (get candidate ["requiredTestPaths", "required_test_paths"]).items.map (text repr)).filter
      (!·.isEmpty)

/-- `allowed`. -/
def allowedFiles (candidate execution : Fields) : List Text :=
  if (recordedFiles repr execution).isEmpty then candidateFiles repr candidate
  else recordedFiles repr execution

def scopeReasons (candidate execution : Fields) : List Text :=
  let changed := changedFiles repr execution
  let outOfScope := (changed.filter fun path => path ∉ allowedFiles repr candidate execution).dedup
  let lockfile := textAt repr candidate ["lockfilePath", "lockfile_path"]
  listed "out-of-scope changed files: " (outOfScope.insertionSort (· ≤ ·)) ++
  reasonIf changed.isEmpty "dependency execution did not record changed files" ++
  if lockfile = [] then
    ["dependency execution did not record the approved lockfile path".toList]
  else
    reasonIf (lockfile ∉ changed)
      "dependency execution did not record the approved lockfile change"

/-- The reasons in the order in which they are appended. -/
def blockingReasons (runData payload : Fields) : List Text :=
  let candidate := candidateOf payload
  let approval := approvalOf payload
  let evidence := evidenceOf payload runData
  let execution := executionOf payload runData
  let gate := namedOf "objectiveGate" payload runData
  let reviewability := namedOf "reviewability" payload runData
  let ac := acEvidenceOf payload runData
  let fingerprint := textAt repr candidate fingerprintNames
  let decision := sectionOf evidence ["decision"]
  let executionFingerprint := textAt repr execution boundNames
  let executionBaseline := textAt repr execution baselineNames
  let candidateBaseline := textAt repr candidate baselineNames
  let reviewDecision := sectionOf reviewability ["decision"]
  reasonIf fingerprint.isEmpty "candidate fingerprint is missing" ++
  reasonIf (!(get approval ["approved"]).isTrue ||
      (textAt repr approval ["approvalId", "approval_id"]).isEmpty)
    "explicit human approval is missing" ++
  (if evidence.isEmpty then ["dependency evidence is missing".toList]
    else reasonIf (textAt repr evidence boundNames ≠ fingerprint)
      "dependency evidence fingerprint does not match the approved candidate") ++
  identityReasons repr candidate (sectionOf evidence ["candidate"]) ++
  reasonIf (!(get decision ["proofComplete"]).isTrue ||
      textAt repr decision ["status"] ≠ "ready".toList)
    "dependency evidence is not proof-complete" ++
  reasonIf (!(get decision ["waivedReasons", "waived_reasons"]).items.isEmpty &&
      (sectionOf decision ["waiver"]).isEmpty)
    "dependency evidence contains waivers without an explicit waiver record" ++
  reasonIf (textAt repr execution ["status"] ≠ "green".toList ||
      textAt repr (sectionOf execution ["gate"]) ["verdict"] ≠ "green".toList)
    "approved dependency execution is not green" ++
  (if executionFingerprint.isEmpty then ["dependency execution fingerprint is missing".toList]
    else reasonIf (executionFingerprint ≠ fingerprint)
      "dependency execution fingerprint does not match the approved candidate") ++
  reasonIf (executionBaseline ≠ [] ∧ candidateBaseline ≠ [] ∧
      executionBaseline ≠ candidateBaseline)
    "dependency execution ran from a stale baseline SHA" ++
  reasonIf (textAt repr gate ["verdict"] ≠ "green".toList || !(get gate ["isGreen"]).isTrue)
    "Objective Gate is not green" ++
  reasonIf (!proofRow repr gate ["red-green-proof", "redGreenProof"])
    "Red-Green Proof is missing or invalid" ++
  reasonIf (textAt repr runData ["independentReview"] ≠ "active".toList ||
      !proofRow repr gate ["independent-verification", "independentVerification"])
    "Independent Verification is missing or inactive" ++
  blockedAcReasons repr ac ++
  reasonIf (textAt repr reviewDecision ["status"] ≠ "reviewable".toList ||
      !(get reviewDecision ["proofComplete"]).isTrue)
    "reviewability evidence is not proof-complete" ++
  reasonIf (textAt repr (sectionOf reviewability ["diff"]) ["headSha", "head_sha"]).isEmpty
    "reviewability evidence has no final head SHA" ++
  scopeReasons repr candidate execution

structure Decision where
  allowed : Bool
  reasons : List Text
  payload : Fields

/-- `evaluate_dependency_publication`. -/
def evaluateDependencyPublication (runData : Fields) : Decision :=
  match publicationPayload runData with
  | none => { allowed := true, reasons := [], payload := [] }
  | some payload =>
    let reasons := blockingReasons repr runData payload
    { allowed := reasons.isEmpty
      reasons := (dictItems (reasons.map fun reason => (reason, ()))).map (·.1)
      payload := payload }

end Reasons

/-! ## What is promised -/

section Promise

variable (repr : Value → Text)

/-- The files of the approved contract: those of its candidate, its required tests and the usages it
affects. -/
def contractFiles (payload : Fields) : List Text :=
  let candidate := candidateOf payload
  let contract := sectionOf payload contractNames
  candidateFiles repr candidate ++
    textsAt repr candidate ["affectedUsagePaths", "affected_usage_paths"] ++
    textsAt repr contract ["requiredTestPaths", "required_test_paths"] ++
    textsAt repr contract ["affectedUsagePaths", "affected_usage_paths"]

/-- One fingerprint, and one identity, in the candidate, the evidence and the execution. -/
structure Bound (candidate evidence execution : Fields) : Prop where
  fingerprint : textAt repr candidate fingerprintNames ≠ []
  evidenceBound : textAt repr evidence boundNames = textAt repr candidate fingerprintNames
  executionBound : textAt repr execution boundNames = textAt repr candidate fingerprintNames
  identity : ∀ row ∈ identityTable,
    textAt repr (sectionOf evidence ["candidate"]) row.2 ≠ [] ∧
      textAt repr (sectionOf evidence ["candidate"]) row.2 = textAt repr candidate row.2
  baseline : textAt repr execution baselineNames ≠ [] ∧
    textAt repr execution baselineNames = textAt repr candidate baselineNames

/-- Nothing is listed under a name. -/
def Nothing (ac : Fields) (name : String) : Prop :=
  get ac [name] = .none ∨ get ac [name] = .list []

/-- There are rows, each is proven, and nothing is left over. -/
structure Proven (ac : Fields) : Prop where
  rows : acRows ac ≠ []
  proven : ∀ row ∈ acRows ac, textAt repr row ["status"] = "proven".toList
  unbound : Nothing ac "unbound"
  waived : Nothing ac "waived"
  unverifiable : Nothing ac "unverifiable"

/-! ### Deletions -/

/-- Change or delete the values under some names. -/
def editKeys (names : List String) (edit : Value → Option Value) (m : Fields) : Fields :=
  m.filterMap fun (key, value) =>
    if names.any fun name => key = name.toList then (edit value).map fun value => (key, value)
    else some (key, value)

def eraseKeys (names : List String) : Fields → Fields := editKeys names fun _ => none

def Value.inFields (edit : Fields → Fields) : Value → Value
  | .mapping fields => .mapping (edit fields)
  | value => value

def Value.inItem (i : Nat) (edit : Fields → Fields) : Value → Value
  | .list xs => .list (xs.modify i (·.inFields edit))
  | value => value

/-- Change the mappings under some names. -/
def editFields (names : List String) (edit : Fields → Fields) : Fields → Fields :=
  editKeys names fun value => some (value.inFields edit)

/-- Edit a payload wherever it may be. -/
def everywhere (edit : Fields → Fields) (runData : Fields) : Fields :=
  edit (editFields payloadNames edit runData)

def deleteAc : Fields → Fields := everywhere (eraseKeys acNames)

def deleteStatus (i : Nat) : Fields → Fields :=
  everywhere (editFields acNames
    (editKeys ["acs"] fun value => some (value.inItem i (eraseKeys ["status"]))))

def deleteIdentity : Fields → Fields :=
  everywhere (editFields evidenceNames (eraseKeys ["candidate"]))

def deleteBaseline : Fields → Fields :=
  everywhere (editFields executionNames (eraseKeys baselineNames))

/-- The rows of the acceptance criteria of a run. -/
def rowsOf (runData : Fields) : List Fields :=
  match publicationPayload runData with
  | none => []
  | some payload => acRows (acEvidenceOf payload runData)

/-- The run after a deletion; the rows are as many as before. -/
inductive Deleted (runData : Fields) : Fields → Prop
  | ac : Deleted runData (deleteAc runData)
  | status (i : Nat) (h : i < (rowsOf (deleteStatus i runData)).length) :
      Deleted runData (deleteStatus i runData)
  | identity : Deleted runData (deleteIdentity runData)
  | baseline : Deleted runData (deleteBaseline runData)

/-- If the publication is allowed, then it is bound, proven and in the scope of the contract, and it
was allowed before any deletion. -/
def PublicationHolds (runData payload : Fields) : Prop :=
  (evaluateDependencyPublication repr runData).allowed →
    Bound repr (candidateOf payload) (evidenceOf payload runData) (executionOf payload runData) ∧
    Proven repr (acEvidenceOf payload runData) ∧
    (∀ path ∈ changedFiles repr (executionOf payload runData), path ∈ contractFiles repr payload) ∧
    ∀ richer, Deleted richer runData → (evaluateDependencyPublication repr richer).allowed

/-! ### The condition -/

/-- Everything that the evaluator does look at. -/
structure Passes (runData payload candidate evidence execution gate reviewability ac : Fields) :
    Prop where
  fingerprint : textAt repr candidate fingerprintNames ≠ []
  approval : (get (approvalOf payload) ["approved"]).isTrue ∧
    textAt repr (approvalOf payload) ["approvalId", "approval_id"] ≠ []
  evidenceBound : evidence ≠ [] ∧
    textAt repr evidence boundNames = textAt repr candidate fingerprintNames
  identity : ∀ row ∈ identityTable, textAt repr candidate row.2 ≠ [] →
    textAt repr (sectionOf evidence ["candidate"]) row.2 ≠ [] →
    textAt repr candidate row.2 = textAt repr (sectionOf evidence ["candidate"]) row.2
  complete : (get (sectionOf evidence ["decision"]) ["proofComplete"]).isTrue ∧
    textAt repr (sectionOf evidence ["decision"]) ["status"] = "ready".toList
  waivers : (get (sectionOf evidence ["decision"]) ["waivedReasons", "waived_reasons"]).items = [] ∨
    sectionOf (sectionOf evidence ["decision"]) ["waiver"] ≠ []
  green : textAt repr execution ["status"] = "green".toList ∧
    textAt repr (sectionOf execution ["gate"]) ["verdict"] = "green".toList
  executionBound : textAt repr execution boundNames = textAt repr candidate fingerprintNames
  baseline : textAt repr execution baselineNames ≠ [] → textAt repr candidate baselineNames ≠ [] →
    textAt repr execution baselineNames = textAt repr candidate baselineNames
  gateGreen : textAt repr gate ["verdict"] = "green".toList ∧ (get gate ["isGreen"]).isTrue
  redGreen : proofRow repr gate ["red-green-proof", "redGreenProof"]
  independent : textAt repr runData ["independentReview"] = "active".toList ∧
    proofRow repr gate ["independent-verification", "independentVerification"]
  unbound : textsAt repr ac ["unbound"] = []
  waived : namedTextsAt repr ac ["waived"] "id" = []
  unverifiable : namedTextsAt repr ac ["unverifiable"] "ac" = []
  proven : ∀ row ∈ acRows ac, textAt repr row ["status"] ≠ [] →
    textAt repr row ["status"] = "proven".toList
  reviewable :
    textAt repr (sectionOf reviewability ["decision"]) ["status"] = "reviewable".toList ∧
      (get (sectionOf reviewability ["decision"]) ["proofComplete"]).isTrue
  head : textAt repr (sectionOf reviewability ["diff"]) ["headSha", "head_sha"] ≠ []
  scope : ∀ path ∈ changedFiles repr execution, path ∈ allowedFiles repr candidate execution
  changed : changedFiles repr execution ≠ []
  lockfile : textAt repr candidate ["lockfilePath", "lockfile_path"] ≠ [] ∧
    textAt repr candidate ["lockfilePath", "lockfile_path"] ∈ changedFiles repr execution

/-- A list whose items can all be read, or no value at all. -/
def Readable (ac : Fields) (name : String) (read : Value → Text) : Prop :=
  get ac [name] = .none ∨ ∃ xs, get ac [name] = .list xs ∧ ∀ x ∈ xs, read x ≠ []

/-- Nothing is missing that the evaluator skips. -/
structure Complete (payload candidate evidence execution ac : Fields) : Prop where
  identity : ∀ row ∈ identityTable, textAt repr candidate row.2 ≠ [] ∧
    textAt repr (sectionOf evidence ["candidate"]) row.2 ≠ []
  baseline : textAt repr execution baselineNames ≠ []
  rows : acRows ac ≠ []
  statuses : ∀ row ∈ acRows ac, textAt repr row ["status"] ≠ []
  unbound : Readable ac "unbound" (text repr)
  waived : Readable ac "waived" fun item => textAt repr item.fields ["id"]
  unverifiable : Readable ac "unverifiable" fun item => textAt repr item.fields ["ac"]
  recorded : ∀ path ∈ recordedFiles repr execution, path ∈ changedFiles repr execution →
    path ∈ contractFiles repr payload

end Promise

/-! ## An allowed publication passes -/

section

variable {repr : Value → Text}

theorem reasonIf_eq_nil {c : Bool} {reason : String} : reasonIf c reason = [] ↔ c = false := by
  cases c <;> simp [reasonIf]

theorem listed_eq_nil {reason : String} (names : List Text) :
    listed reason names = [] ↔ names = [] := by
  cases names <;> simp [listed]

theorem missing_or_mismatch {α : Type} {found : List α} {a b : Text} {missing mismatch : String} :
    (if found.isEmpty then [missing.toList] else reasonIf (a ≠ b) mismatch) = [] ↔
      found ≠ [] ∧ a = b := by
  cases found <;> simp [reasonIf_eq_nil]

theorem identityReasons_eq_nil {candidate identity : Fields} :
    identityReasons repr candidate identity = [] ↔
      ∀ row ∈ identityTable, textAt repr candidate row.2 ≠ [] → textAt repr identity row.2 ≠ [] →
        textAt repr candidate row.2 = textAt repr identity row.2 := by
  unfold identityReasons
  rw [List.flatMap_eq_nil_iff]
  refine forall₂_congr fun row _ => ?_
  simp [reasonIf_eq_nil]

theorem acRowReasons_eq_nil {row : Fields} :
    acRowReasons repr row = [] ↔
      (textAt repr row ["status"] ≠ [] → textAt repr row ["status"] = "proven".toList) := by
  unfold acRowReasons
  dsimp only
  split
  · rename_i hblocked
    exact ⟨nofun, fun hproven => absurd (hproven hblocked.1) hblocked.2⟩
  · rename_i hfree
    exact ⟨fun _ hne => by_contra fun hunproven => hfree ⟨hne, hunproven⟩, fun _ => rfl⟩

theorem blockedAcReasons_eq_nil {ac : Fields} :
    blockedAcReasons repr ac = [] ↔ textsAt repr ac ["unbound"] = [] ∧
      namedTextsAt repr ac ["waived"] "id" = [] ∧
      namedTextsAt repr ac ["unverifiable"] "ac" = [] ∧
      ∀ row ∈ acRows ac, textAt repr row ["status"] ≠ [] →
        textAt repr row ["status"] = "proven".toList := by
  unfold blockedAcReasons
  rw [List.append_eq_nil_iff, List.append_eq_nil_iff, List.append_eq_nil_iff, listed_eq_nil,
    listed_eq_nil, listed_eq_nil, List.flatMap_eq_nil_iff, and_assoc, and_assoc]
  exact and_congr_right fun _ => and_congr_right fun _ => and_congr_right fun _ =>
    forall₂_congr fun row _ => acRowReasons_eq_nil

theorem scopeReasons_eq_nil {candidate execution : Fields} :
    scopeReasons repr candidate execution = [] ↔
      (∀ path ∈ changedFiles repr execution, path ∈ allowedFiles repr candidate execution) ∧
      changedFiles repr execution ≠ [] ∧
      textAt repr candidate ["lockfilePath", "lockfile_path"] ≠ [] ∧
      textAt repr candidate ["lockfilePath", "lockfile_path"] ∈ changedFiles repr execution := by
  have hscope : ∀ (changed allowed : List Text),
      ((changed.filter fun path => path ∉ allowed).dedup).insertionSort (· ≤ ·) = [] ↔
        ∀ path ∈ changed, path ∈ allowed := by
    intro changed allowed
    rw [← List.length_eq_zero_iff, List.length_insertionSort, List.length_eq_zero_iff,
      List.eq_nil_iff_forall_not_mem]
    simp only [List.mem_dedup, List.mem_filter, decide_not, Bool.not_eq_true',
      decide_eq_false_iff_not, not_and, not_not]
  unfold scopeReasons
  simp only [List.append_eq_nil_iff, listed_eq_nil, reasonIf_eq_nil, and_assoc, hscope]
  refine and_congr_right fun _ => and_congr (by simp) ?_
  by_cases hlock : textAt repr candidate ["lockfilePath", "lockfile_path"] = [] <;>
    simp [hlock, reasonIf_eq_nil]

theorem allowed_iff {runData payload : Fields} (h : publicationPayload runData = some payload) :
    (evaluateDependencyPublication repr runData).allowed ↔
      Passes repr runData payload (candidateOf payload) (evidenceOf payload runData)
        (executionOf payload runData) (namedOf "objectiveGate" payload runData)
        (namedOf "reviewability" payload runData) (acEvidenceOf payload runData) := by
  unfold evaluateDependencyPublication
  rw [h]
  dsimp only
  rw [List.isEmpty_iff]
  unfold blockingReasons
  simp only [List.append_eq_nil_iff, missing_or_mismatch]
  simp only [reasonIf_eq_nil, identityReasons_eq_nil, blockedAcReasons_eq_nil,
    scopeReasons_eq_nil, Bool.or_eq_false_iff, Bool.and_eq_false_iff, Bool.not_eq_false',
    decide_eq_false_iff_not, not_not, List.isEmpty_eq_false_iff, List.isEmpty_iff, not_and]
  constructor
  · rintro ⟨⟨⟨⟨⟨⟨⟨⟨⟨⟨⟨⟨⟨⟨⟨h1, h2⟩, h3⟩, h4⟩, h5⟩, h6⟩, h7⟩, h8⟩, h9⟩, h10⟩, h11⟩, h12⟩, h13⟩, h14⟩,
      h15⟩, h16⟩
    exact ⟨h1, h2, h3, h4, h5, h6, h7, h8.2, h9, h10, h11, h12, h13.1, h13.2.1, h13.2.2.1,
      h13.2.2.2, h14, h15, h16.1, h16.2.1, h16.2.2⟩
  · intro h
    refine ⟨⟨⟨⟨⟨⟨⟨⟨⟨⟨⟨⟨⟨⟨⟨h.fingerprint, h.approval⟩, h.evidenceBound⟩, h.identity⟩, h.complete⟩,
      h.waivers⟩, h.green⟩, ?_, h.executionBound⟩, h.baseline⟩, h.gateGreen⟩, h.redGreen⟩,
      h.independent⟩, h.unbound, h.waived, h.unverifiable, h.proven⟩, h.reviewable⟩, h.head⟩,
      h.scope, h.changed, h.lockfile⟩
    rw [h.executionBound]
    exact h.fingerprint

end

/-! ## What is left by a deletion -/

theorem getItem_editKeys {names : List String} {edit : Value → Option Value} {m : Fields}
    {name : String} (hname : name ∈ names) {value : Value}
    (h : getItem name.toList (editKeys names edit m) = some value) : ∃ u, edit u = some value := by
  induction m with
  | nil => cases h
  | cons item m ih =>
    unfold editKeys at h ih
    rw [List.filterMap_cons] at h
    by_cases hin : names.any fun name => item.1 = name.toList
    · simp only [hin, if_true] at h
      cases hedit : edit item.2 with
      | none =>
        simp only [hedit, Option.map_none] at h
        exact ih h
      | some u =>
        simp only [hedit, Option.map_some, getItem] at h
        split at h
        · cases h
          exact ⟨_, hedit⟩
        · exact ih h
    · simp only [hin, Bool.false_eq_true, if_false, getItem] at h
      rw [if_neg] at h
      · exact ih h
      · intro heq
        exact hin (List.any_eq_true.2 ⟨name, hname, by simpa using heq⟩)

theorem getItem_editKeys_of_not_mem {names : List String} {edit : Value → Option Value}
    {name : String} (hname : ∀ other ∈ names, name.toList ≠ other.toList) (m : Fields) :
    getItem name.toList (editKeys names edit m) = getItem name.toList m := by
  induction m with
  | nil => rfl
  | cons item m ih =>
    unfold editKeys at ih ⊢
    rw [List.filterMap_cons]
    by_cases hin : names.any fun name => item.1 = name.toList
    · have hne : item.1 ≠ name.toList := by
        obtain ⟨other, hother, heq⟩ := List.any_eq_true.1 hin
        intro hsame
        exact hname other hother (hsame.symm.trans (by simpa using heq))
      simp only [hin, if_true]
      cases hedit : edit item.2 with
      | none => simp only [Option.map_none, getItem, if_neg hne, ih]
      | some u => simp only [Option.map_some, getItem, if_neg hne, ih]
    · simp only [hin, Bool.false_eq_true, if_false, getItem, ih]

/-- What is read under edited names has been edited. -/
theorem get_editKeys {names : List String} (edit : Value → Option Value) (m : Fields)
    {reads : List String} (hreads : reads ⊆ names) :
    get (editKeys names edit m) reads = .none ∨
      ∃ u, edit u = some (get (editKeys names edit m) reads) := by
  induction reads with
  | nil => exact .inl rfl
  | cons name reads ih =>
    rw [get]
    cases hitem : getItem name.toList (editKeys names edit m) with
    | none => exact ih fun _ h => hreads (List.mem_cons_of_mem _ h)
    | some value => exact .inr (getItem_editKeys (hreads List.mem_cons_self) hitem)

theorem get_editKeys_of_disjoint {names : List String} {edit : Value → Option Value} {m : Fields}
    {reads : List String} (hreads : ∀ name ∈ reads, ∀ other ∈ names, name.toList ≠ other.toList) :
    get (editKeys names edit m) reads = get m reads := by
  induction reads with
  | nil => rfl
  | cons name reads ih =>
    rw [get, get, getItem_editKeys_of_not_mem (hreads name List.mem_cons_self),
      ih fun other h => hreads other (List.mem_cons_of_mem _ h)]

theorem get_eraseKeys {names : List String} (m : Fields) :
    get (eraseKeys names m) names = .none := by
  rcases get_editKeys (fun _ => none) m (List.Subset.refl names) with hnone | ⟨u, hu⟩
  · exact hnone
  · cases hu

theorem sectionOf_editFields {names : List String} (edit : Fields → Fields) (hnil : edit [] = [])
    (m : Fields) {reads : List String} (hreads : reads ⊆ names) :
    ∃ fields, sectionOf (editFields names edit m) reads = edit fields := by
  unfold sectionOf editFields
  rcases get_editKeys (fun value => some (value.inFields edit)) m hreads with hnone | ⟨u, hu⟩
  · rw [hnone]
    exact ⟨[], hnil.symm⟩
  · rw [← Option.some.inj hu]
    cases u with
    | mapping fields => exact ⟨fields, rfl⟩
    | _ => exact ⟨[], hnil.symm⟩

/-- The payload of an edited run has been edited. -/
theorem payload_everywhere {names : List String} {edit : Value → Option Value}
    (hnames : ∀ name ∈ payloadNames, ∀ other ∈ names, name.toList ≠ other.toList)
    {runData payload : Fields}
    (h : publicationPayload (everywhere (editKeys names edit) runData) = some payload) :
    ∃ fields, payload = editKeys names edit fields := by
  unfold publicationPayload at h
  split at h
  · rename_i nested hnested
    cases h
    unfold everywhere at hnested
    rw [get_editKeys_of_disjoint hnames] at hnested
    obtain ⟨fields, hfields⟩ := sectionOf_editFields (editKeys names edit) rfl runData
      (List.Subset.refl payloadNames)
    refine ⟨fields, ?_⟩
    rw [← hfields, sectionOf, hnested]
    rfl
  · split at h
    · cases h
      exact ⟨_, rfl⟩
    · cases h

theorem orElse_edited (edit : Fields → Fields) {first second : Fields}
    (hfirst : ∃ fields, first = edit fields) (hsecond : ∃ fields, second = edit fields) :
    ∃ fields, orElse first second = edit fields := by
  unfold orElse
  split
  · exact hsecond
  · exact hfirst

section Deletions

variable {repr : Value → Text} {runData payload : Fields}

theorem deleteAc_rows (h : publicationPayload (deleteAc runData) = some payload) :
    acRows (acEvidenceOf payload (deleteAc runData)) = [] := by
  obtain ⟨fields, rfl⟩ := payload_everywhere (by decide) h
  have hempty : ∀ m : Fields, sectionOf (eraseKeys acNames m) acNames = [] := by
    intro m
    rw [sectionOf, get_eraseKeys]
    rfl
  have hac : acEvidenceOf (eraseKeys acNames fields) (deleteAc runData) = [] := by
    unfold acEvidenceOf deleteAc everywhere
    rw [hempty, hempty]
    rfl
  exact congrArg acRows hac

theorem deleteIdentity_identity (h : publicationPayload (deleteIdentity runData) = some payload) :
    sectionOf (evidenceOf payload (deleteIdentity runData)) ["candidate"] = [] := by
  obtain ⟨fields, rfl⟩ := payload_everywhere (by decide) h
  obtain ⟨evidence, hevidence⟩ := orElse_edited (eraseKeys ["candidate"])
    (sectionOf_editFields _ rfl fields (List.Subset.refl evidenceNames))
    (sectionOf_editFields _ rfl
      (editFields payloadNames (editFields evidenceNames (eraseKeys ["candidate"])) runData)
      (List.cons_subset.2 ⟨by decide, List.nil_subset _⟩ : ["dependencyEvidence"] ⊆ evidenceNames))
  have hread : evidenceOf (editFields evidenceNames (eraseKeys ["candidate"]) fields)
      (deleteIdentity runData) = eraseKeys ["candidate"] evidence := hevidence
  change sectionOf (evidenceOf (editFields _ _ fields) _) _ = []
  rw [hread, sectionOf, get_eraseKeys]
  rfl

theorem deleteBaseline_baseline
    (h : publicationPayload (deleteBaseline runData) = some payload) :
    textAt repr (executionOf payload (deleteBaseline runData)) baselineNames = [] := by
  obtain ⟨fields, rfl⟩ := payload_everywhere (by decide) h
  obtain ⟨execution, hexecution⟩ := orElse_edited (eraseKeys baselineNames)
    (sectionOf_editFields _ rfl fields (List.Subset.refl executionNames))
    (sectionOf_editFields _ rfl
      (editFields payloadNames (editFields executionNames (eraseKeys baselineNames)) runData)
      (by decide : ["dependencyExecution", "dependencyExecutionResult"] ⊆ executionNames))
  have hread : executionOf (editFields executionNames (eraseKeys baselineNames) fields)
      (deleteBaseline runData) = eraseKeys baselineNames execution := hexecution
  change textAt repr (executionOf (editFields _ _ fields) _) _ = []
  rw [hread, textAt, get_eraseKeys]
  rfl

theorem inFields_erased (value : Value) (name : String) :
    get (value.inFields (eraseKeys [name])).fields [name] = .none := by
  cases value with
  | mapping fields => exact get_eraseKeys fields
  | _ => rfl

/-- A row whose status is deleted has none. -/
theorem acRows_inItem {i : Nat} {ac : Fields}
    (hi : i < (acRows (editKeys ["acs"]
      (fun value => some (value.inItem i (eraseKeys ["status"]))) ac)).length) :
    ∃ row ∈ acRows (editKeys ["acs"]
        (fun value => some (value.inItem i (eraseKeys ["status"]))) ac),
      textAt repr row ["status"] = [] := by
  unfold acRows at hi ⊢
  rcases get_editKeys (fun value => some (value.inItem i (eraseKeys ["status"]))) ac
    (List.Subset.refl ["acs"]) with hnone | ⟨u, hu⟩
  · rw [hnone] at hi
    exact absurd hi (Nat.not_lt_zero i)
  · rw [← Option.some.inj hu] at hi ⊢
    cases u with
    | list xs =>
      simp only [Value.inItem, Value.items, List.length_map, List.length_modify] at hi ⊢
      refine ⟨((xs[i]).inFields (eraseKeys ["status"])).fields, List.mem_map_of_mem ?_, ?_⟩
      · have hlt : i < (xs.modify i (·.inFields (eraseKeys ["status"]))).length := by simpa using hi
        have hget : (xs.modify i (·.inFields (eraseKeys ["status"])))[i] =
            (xs[i]).inFields (eraseKeys ["status"]) := by
          rw [List.getElem_modify, if_pos rfl]
        rw [← hget]
        exact List.getElem_mem _
      · rw [textAt, inFields_erased]
        rfl
    | _ => exact absurd hi (Nat.not_lt_zero i)

variable (repr) in
theorem deleteStatus_status {i : Nat}
    (h : publicationPayload (deleteStatus i runData) = some payload)
    (hi : i < (acRows (acEvidenceOf payload (deleteStatus i runData))).length) :
    ∃ row ∈ acRows (acEvidenceOf payload (deleteStatus i runData)),
      textAt repr row ["status"] = [] := by
  obtain ⟨fields, rfl⟩ := payload_everywhere (by decide) h
  obtain ⟨ac, hac⟩ := orElse_edited
    (editKeys ["acs"] fun value => some (value.inItem i (eraseKeys ["status"])))
    (sectionOf_editFields _ rfl fields (List.Subset.refl acNames))
    (sectionOf_editFields _ rfl (editFields payloadNames (editFields acNames
      (editKeys ["acs"] fun value => some (value.inItem i (eraseKeys ["status"])))) runData)
      (List.Subset.refl acNames))
  have hread : acEvidenceOf (editFields acNames
      (editKeys ["acs"] fun value => some (value.inItem i (eraseKeys ["status"]))) fields)
      (deleteStatus i runData) =
        editKeys ["acs"] (fun value => some (value.inItem i (eraseKeys ["status"]))) ac := hac
  change i < (acRows (acEvidenceOf (editFields _ _ fields) _)).length at hi
  change ∃ row ∈ acRows (acEvidenceOf (editFields _ _ fields) _), _
  rw [hread] at hi ⊢
  exact acRows_inItem hi

end Deletions

/-! ## The condition -/

section Condition

variable {repr : Value → Text}
  {runData payload candidate evidence execution gate reviewability ac : Fields}

theorem bound_of_complete
    (hpasses : Passes repr runData payload candidate evidence execution gate reviewability ac)
    (hcomplete : Complete repr payload candidate evidence execution ac) :
    Bound repr candidate evidence execution := by
  refine ⟨hpasses.fingerprint, hpasses.evidenceBound.2, hpasses.executionBound,
    fun row hrow => ?_, hcomplete.baseline, ?_⟩
  · obtain ⟨hexpected, hobserved⟩ := hcomplete.identity row hrow
    exact ⟨hobserved, (hpasses.identity row hrow hexpected hobserved).symm⟩
  · have hcandidate :=
      (hcomplete.identity ("baseline SHA", baselineNames) (by simp [identityTable])).1
    exact hpasses.baseline hcomplete.baseline hcandidate

theorem nothing_of_readable {name : String} {read : Value → Text}
    (h : Readable ac name read)
    (hread : ((get ac [name]).items.map read).filter (!·.isEmpty) = []) : Nothing ac name := by
  rcases h with hnone | ⟨xs, hxs, hblank⟩
  · exact .inl hnone
  · rw [hxs] at hread
    refine .inr (hxs.trans ?_)
    cases xs with
    | nil => rfl
    | cons x xs =>
      have hx := List.filter_eq_nil_iff.1 hread (read x) List.mem_cons_self
      simp [hblank x List.mem_cons_self] at hx

theorem readable_of_nothing {name : String} (read : Value → Text) (h : Nothing ac name) :
    Readable ac name read := by
  rcases h with hnone | hempty
  · exact .inl hnone
  · exact .inr ⟨[], hempty, nofun⟩

theorem proven_of_complete
    (hpasses : Passes repr runData payload candidate evidence execution gate reviewability ac)
    (hcomplete : Complete repr payload candidate evidence execution ac) : Proven repr ac :=
  ⟨hcomplete.rows, fun row hrow => hpasses.proven row hrow (hcomplete.statuses row hrow),
    nothing_of_readable hcomplete.unbound hpasses.unbound,
    nothing_of_readable hcomplete.waived hpasses.waived,
    nothing_of_readable hcomplete.unverifiable hpasses.unverifiable⟩

theorem scope_of_complete
    (hpasses : Passes repr runData payload (candidateOf payload) evidence execution gate
      reviewability ac)
    (hcomplete : Complete repr payload (candidateOf payload) evidence execution ac) :
    ∀ path ∈ changedFiles repr execution, path ∈ contractFiles repr payload := by
  intro path hpath
  have hallowed := hpasses.scope path hpath
  unfold allowedFiles at hallowed
  split at hallowed
  · exact List.mem_append_left _ (List.mem_append_left _ (List.mem_append_left _ hallowed))
  · exact hcomplete.recorded path hallowed hpath

theorem complete_of_holds (hbound : Bound repr candidate evidence execution)
    (hproven : Proven repr ac)
    (hscope : ∀ path ∈ changedFiles repr execution, path ∈ contractFiles repr payload) :
    Complete repr payload candidate evidence execution ac := by
  refine ⟨fun row hrow => ?_, hbound.baseline.1, hproven.rows, fun row hrow => ?_,
    readable_of_nothing _ hproven.unbound, readable_of_nothing _ hproven.waived,
    readable_of_nothing _ hproven.unverifiable, fun path _ hpath => hscope path hpath⟩
  · obtain ⟨hobserved, hsame⟩ := hbound.identity row hrow
    exact ⟨hsame ▸ hobserved, hobserved⟩
  · rw [hproven.proven row hrow]
    decide

/-- A complete run is not what a deletion leaves. -/
theorem not_deleted {richer : Fields} (h : publicationPayload runData = some payload)
    (hcomplete : Complete repr payload (candidateOf payload) (evidenceOf payload runData)
      (executionOf payload runData) (acEvidenceOf payload runData)) :
    ¬ Deleted richer runData := by
  intro hdeleted
  cases hdeleted with
  | ac => exact hcomplete.rows (deleteAc_rows h)
  | status i hi =>
    rw [rowsOf, h] at hi
    obtain ⟨row, hrow, hstatus⟩ := deleteStatus_status repr h hi
    exact hcomplete.statuses row hrow hstatus
  | identity =>
    have hfirst := (hcomplete.identity ("package", ["package"]) List.mem_cons_self).2
    rw [deleteIdentity_identity h] at hfirst
    exact hfirst rfl
  | baseline => exact hcomplete.baseline (deleteBaseline_baseline h)

end Condition

/-! ## Runs -/

def str (s : String) : Value := .str s.toList

def mapping (fields : List (String × Value)) : Value :=
  .mapping (fields.map fun (name, value) => (name.toList, value))

/-- A publication with one acceptance criterion of a given status. -/
def samplePayload (status : String) : Fields := (mapping [
  ("candidate", mapping [("package", str "left-pad"), ("packageManager", str "pnpm"),
    ("currentVersion", str "1.3.0"), ("targetVersion", str "1.3.1"),
    ("manifestPath", str "package.json"), ("lockfilePath", str "pnpm-lock.yaml"),
    ("baselineSha", str "base-sha"), ("fingerprint", str "sha256:candidate")]),
  ("approval", mapping [("approved", .bool true), ("approvalId", str "approval-1")]),
  ("evidence", mapping [("candidateFingerprint", str "sha256:candidate"),
    ("candidate", mapping [("package", str "left-pad"), ("packageManager", str "pnpm"),
      ("currentVersion", str "1.3.0"), ("targetVersion", str "1.3.1"),
      ("baselineSha", str "base-sha")]),
    ("decision", mapping [("status", str "ready"), ("proofComplete", .bool true)])]),
  ("execution", mapping [("status", str "green"), ("gate", mapping [("verdict", str "green")]),
    ("candidateFingerprint", str "sha256:candidate"), ("baselineSha", str "base-sha"),
    ("changedFiles", .list [str "package.json", str "pnpm-lock.yaml"]),
    ("allowedFiles", .list [str "package.json", str "pnpm-lock.yaml"])]),
  ("reviewability", mapping [
    ("decision", mapping [("status", str "reviewable"), ("proofComplete", .bool true)]),
    ("diff", mapping [("headSha", str "head-sha")])]),
  ("objectiveGate", mapping [("verdict", str "green"), ("isGreen", .bool true),
    ("evidence", .list [
      mapping [("name", str "red-green-proof"), ("passed", .bool true)],
      mapping [("name", str "independent-verification"), ("passed", .bool true)]])]),
  ("acEvidence", mapping [
    ("acs", .list [mapping [("id", str "AC1"), ("status", str status)]]),
    ("unbound", .list []), ("waived", .list []), ("unverifiable", .list [])])]).fields

def sampleRun (status : String) : Fields :=
  [("dependencyPublication".toList, .mapping (samplePayload status)),
    ("independentReview".toList, str "active")]

/-- The contract of publication holds exactly where nothing is missing that the evaluator skips. -/
theorem publication_holds_iff (repr : Value → Text) (runData payload : Fields)
    (h : publicationPayload runData = some payload) :
    PublicationHolds repr runData payload ↔
      (Passes repr runData payload (candidateOf payload) (evidenceOf payload runData)
          (executionOf payload runData) (namedOf "objectiveGate" payload runData)
          (namedOf "reviewability" payload runData) (acEvidenceOf payload runData) →
        Complete repr payload (candidateOf payload) (evidenceOf payload runData)
          (executionOf payload runData) (acEvidenceOf payload runData)) := by
  unfold PublicationHolds
  rw [allowed_iff h]
  constructor
  · intro hholds hpasses
    obtain ⟨hbound, hproven, hscope, _⟩ := hholds hpasses
    exact complete_of_holds hbound hproven hscope
  · intro hcondition hpasses
    have hcomplete := hcondition hpasses
    exact ⟨bound_of_complete hpasses hcomplete, proven_of_complete hpasses hcomplete,
      scope_of_complete hpasses hcomplete, fun richer hdeleted =>
        absurd hdeleted (not_deleted h hcomplete)⟩

/-- A run with all its artifacts. -/
theorem publication_holds_iff_proven :
    PublicationHolds (fun _ => []) (sampleRun "proven") (samplePayload "proven") :=
  (publication_holds_iff _ _ _ rfl).2 fun _ =>
    ⟨by decide +kernel, by decide +kernel, by decide +kernel, by decide +kernel,
      .inr ⟨[], rfl, nofun⟩, .inr ⟨[], rfl, nofun⟩, .inr ⟨[], rfl, nofun⟩, by decide +kernel⟩

/-- A run with a criterion that is not proven is refused, and allowed once the artifact is gone. -/
theorem deleted_proof_allowed :
    (evaluateDependencyPublication (fun _ => []) (sampleRun "unproven")).allowed = false ∧
      Deleted (sampleRun "unproven") (deleteAc (sampleRun "unproven")) ∧
      (evaluateDependencyPublication (fun _ => [])
        (deleteAc (sampleRun "unproven"))).allowed = true ∧
      ¬ PublicationHolds (fun _ => []) (deleteAc (sampleRun "unproven"))
        (eraseKeys acNames (samplePayload "unproven")) := by
  have hrefused : (evaluateDependencyPublication (fun _ => [])
      (sampleRun "unproven")).allowed = false := by
    decide +kernel
  have hallowed : (evaluateDependencyPublication (fun _ => [])
      (deleteAc (sampleRun "unproven"))).allowed = true := by
    decide +kernel
  refine ⟨hrefused, .ac, hallowed, fun hholds => ?_⟩
  have hbefore := (hholds hallowed).2.2.2 _ .ac
  rw [hrefused] at hbefore
  cases hbefore

end Agentrail.Publication
