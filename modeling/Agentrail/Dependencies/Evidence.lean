import Agentrail.Py.Json

/-!
# Evidence for a dependency upgrade (`agentrail/dependencies/evidence.py`)

Four providers are asked for the release, the usage, the lock and the security data of
a candidate; `collect_dependency_evidence` turns what fails into evidence of failure and
has `evaluate_dependency_evidence` decide.

Main results:

* `evaluate_error_iff`: when the evaluation raises;
* `readyWhen_of_ready`: what a ready decision stands on;
* `collect_fail_closed_iff`: evidence with a fail-closed decision is returned exactly
  when the lock is resolved or the security data is not;
* `collect_raises`: a lock provider that raises beside resolved security data.
-/

namespace Agentrail.Evidence

open Py

/-! ## Data -/

inductive EvidenceState where
  | proven
  | notFound
  | unknown
  deriving DecidableEq, Repr

def EvidenceState.value : EvidenceState → Text
  | .proven => "proven".toList
  | .notFound => "not_found".toList
  | .unknown => "unknown".toList

inductive EvidenceResolution where
  | resolved
  | unknown
  | notVerifiable
  deriving DecidableEq, Repr

def EvidenceResolution.value : EvidenceResolution → Text
  | .resolved => "resolved".toList
  | .unknown => "unknown".toList
  | .notVerifiable => "not_verifiable".toList

inductive DecisionStatus where
  | ready
  | blocked
  deriving DecidableEq, Repr

def DecisionStatus.value : DecisionStatus → Text
  | .ready => "ready".toList
  | .blocked => "blocked".toList

/-- `not value.strip()`. -/
def isBlank (t : Text) : Bool := (strip t).isEmpty

structure CandidateIdentity where
  fingerprint : Text
  package : Text
  currentVersion : Text
  targetVersion : Text
  baselineSha : Text
  ecosystem : Text := []
  packageManager : Text := []
  adapterProfile : Option Text := none
  adapterIdentityFingerprint : Option Text := none
  deriving DecidableEq

structure EvidenceSource where
  identifier : Text
  url : Option Text
  observedAt : Text
  kind : Text
  deriving DecidableEq

def EvidenceSource.valid (source : EvidenceSource) : Bool :=
  (!isBlank source.identifier || source.url.any (!isBlank ·)) &&
    !isBlank source.observedAt && !isBlank source.kind

structure ReleaseEvidence where
  resolution : EvidenceResolution
  version : Text
  sources : List EvidenceSource := []
  observedAt : Text := []
  canonical : Bool := false
  summary : Option Text := none
  reason : Text := []

structure UsageFinding where
  status : EvidenceState
  paths : List Text := []
  sourceIds : List Text := []
  detail : Text := []

structure UsageEvidence where
  directImports : UsageFinding
  configReferences : UsageFinding
  peerUsage : UsageFinding
  workspaceUsage : UsageFinding
  observedAt : Text

structure DependencyChange where
  package : Text
  fromVersions : List Text
  toVersions : List Text
  scope : Text
  deriving DecidableEq

structure PeerConflict where
  package : Text
  peer : Text
  required : Text
  resolved : Option Text
  detail : Text

structure LockResolution where
  resolution : EvidenceResolution
  directChanges : List DependencyChange := []
  transitiveChanges : List DependencyChange := []
  peerConflicts : List PeerConflict := []
  observedAt : Text := []
  reason : Text := []

structure SecurityAdvisory where
  advisoryId : Text
  package : Text
  severity : Text
  introduced : Option Bool
  source : EvidenceSource
  summary : Text := []

structure SecurityEvidence where
  resolution : EvidenceResolution
  advisories : List SecurityAdvisory := []
  sources : List EvidenceSource := []
  observedAt : Text := []
  reason : Text := []

structure EvidenceWaiver where
  waiverId : Text
  actor : Text
  reason : Text
  approvedAt : Text
  scope : List Text

def EvidenceWaiver.valid (waiver : EvidenceWaiver) : Bool :=
  !isBlank waiver.waiverId && !isBlank waiver.actor && !isBlank waiver.reason &&
    !isBlank waiver.approvedAt && !waiver.scope.isEmpty

structure Decision where
  status : DecisionStatus
  blockingReasons : List Text := []
  waivedReasons : List Text := []
  waiver : Option EvidenceWaiver := none

structure DependencyEvidence where
  candidate : CandidateIdentity
  collectedAt : Text
  release : ReleaseEvidence
  usage : UsageEvidence
  lock : LockResolution
  security : SecurityEvidence
  decision : Decision

/-- `UnboundLocalError`, with the name of the local. -/
structure UnboundLocal where
  name : String
  deriving DecidableEq

/-! ## The adapter of a candidate -/

/-- `ADAPTER_PROFILE_IDS.get((ecosystem, package_manager))`. -/
def adapterProfileId (ecosystem packageManager : Text) : Option Text :=
  if ecosystem = "node".toList then
    if packageManager = "pnpm".toList then some "pnpm_lockfile_only_v1".toList
    else if packageManager = "npm".toList then some "npm_package_lock_only_v1".toList
    else none
  else none

section Evaluate

-- the hex digest of `hashlib.sha256`
variable (sha256 : Bytes → Text)

/-- `adapter_identity_fingerprint`; `none` where it raises `ValueError`. -/
def adapterIdentityFingerprint
    (candidateFingerprint ecosystem packageManager adapterProfile : Text) : Option Text :=
  if [candidateFingerprint, ecosystem, packageManager, adapterProfile].any isBlank then none
  else
    let canonical := dumps compact (.dict [
      ("adapter_identity_version".toList, .int 1),
      ("adapter_profile".toList, .str adapterProfile),
      ("candidate_fingerprint".toList, .str candidateFingerprint),
      ("ecosystem".toList, .str ecosystem),
      ("package_manager".toList, .str packageManager)])
    some ("sha256:".toList ++ sha256 (utf8Encode canonical))

def reasonIf (c : Bool) (reason : String) : List Text := if c then [reason.toList] else []

/-- The reasons of the candidate and its adapter. -/
def candidateReasons (candidate : CandidateIdentity) : List Text :=
  reasonIf (isBlank candidate.fingerprint) "candidate fingerprint is missing" ++
  reasonIf (candidate.currentVersion = candidate.targetVersion)
    "candidate dependency transition is a no-op" ++
  match adapterProfileId candidate.ecosystem candidate.packageManager with
  | none => ["candidate adapter capability is unavailable".toList]
  | some expected =>
    if candidate.adapterProfile ≠ some expected then
      ["candidate adapter profile is missing or mismatched".toList]
    else
      match adapterIdentityFingerprint sha256 candidate.fingerprint candidate.ecosystem
          candidate.packageManager expected with
      | none => ["candidate adapter identity fingerprint is missing or mismatched".toList]
      | some fingerprint =>
        reasonIf (candidate.adapterIdentityFingerprint ≠ some fingerprint)
          "candidate adapter identity fingerprint is missing or mismatched"

/-! ## The families -/

/-- What a finding adds to the reasons and to what is waived. -/
structure Blocks where
  reasons : List Text := []
  waived : List Text := []

/-- `key in valid_waiver.scope`. -/
def covers (validWaiver : Option EvidenceWaiver) (key : Text) : Bool :=
  validWaiver.any fun waiver => key ∈ waiver.scope

/-- `maybe_block`. -/
def maybeBlock (validWaiver : Option EvidenceWaiver) (key reason : Text) (waivable : Bool) :
    Blocks :=
  if waivable && covers validWaiver key then { waived := [reason] } else { reasons := [reason] }

/-- `release.reason or ...`. -/
def releaseReason (release : ReleaseEvidence) : Text :=
  if release.reason ≠ [] then release.reason
  else "release evidence is ".toList ++ release.resolution.value

def releaseBlocks (validWaiver : Option EvidenceWaiver) (candidate : CandidateIdentity)
    (release : ReleaseEvidence) : Blocks :=
  if release.resolution ≠ .resolved then
    maybeBlock validWaiver "release".toList (releaseReason release) (release.resolution = .unknown)
  else
    { reasons :=
        reasonIf (!release.canonical || release.sources.isEmpty || !release.sources.all (·.valid))
          "release evidence has no valid canonical source and timestamp" ++
        reasonIf (release.version ≠ candidate.targetVersion)
          "release evidence target does not match the candidate" }

/-- The usage findings with their names. -/
def UsageEvidence.findings (usage : UsageEvidence) : List (Text × UsageFinding) :=
  [("direct imports".toList, usage.directImports),
    ("config references".toList, usage.configReferences),
    ("peer usage".toList, usage.peerUsage),
    ("workspace usage".toList, usage.workspaceUsage)]

def usageKey (name : Text) : Text := "usage:".toList ++ name

def usageReason (name : Text) (finding : UsageFinding) : Text :=
  name ++ " usage evidence is not_verifiable".toList ++
    if finding.detail ≠ [] then ": ".toList ++ finding.detail else []

def findingBlocks (validWaiver : Option EvidenceWaiver) (named : Text × UsageFinding) : Blocks :=
  if named.2.status = .unknown then
    maybeBlock validWaiver (usageKey named.1) (usageReason named.1 named.2) true
  else {}

/-- `set(xs) == set(ys)`. -/
def sameSet (xs ys : List Text) : Bool := xs.all (· ∈ ys) && ys.all (· ∈ xs)

/-- A transitive change that may stand in a lock resolution. -/
def changeValid (package : Text) (seen : List Text) (change : DependencyChange) : Bool :=
  !isBlank change.package &&
    (change.fromVersions ++ change.toVersions).all (!isBlank ·) &&
    !(change.fromVersions.isEmpty && change.toVersions.isEmpty) &&
    !sameSet change.fromVersions change.toVersions &&
    decide change.fromVersions.Nodup && decide change.toVersions.Nodup &&
    decide (change.scope = "transitive".toList) && decide (change.package ≠ package) &&
    decide (change.package ∉ seen)

/-- `transitive_packages` in their order; `none` where a change is malformed. -/
def transitivePackages (package : Text) : List DependencyChange → List Text → Option (List Text)
  | [], seen => some seen
  | change :: changes, seen =>
    if changeValid package seen change then
      transitivePackages package changes (seen ++ [change.package])
    else none

/-- `transitive_valid` with the packages; `none` where the local is never set. -/
def transitiveOf (candidate : CandidateIdentity) (lock : LockResolution) :
    Option (Option (List Text)) :=
  if lock.resolution = .resolved then
    some (transitivePackages candidate.package lock.transitiveChanges [])
  else none

/-- The direct change of an upgrade to the candidate. -/
def directChange (candidate : CandidateIdentity) : DependencyChange where
  package := candidate.package
  fromVersions := [candidate.currentVersion]
  toVersions := [candidate.targetVersion]
  scope := "direct".toList

def conflictReason (conflict : PeerConflict) : Text :=
  "peer conflict: ".toList ++ conflict.package ++ " requires ".toList ++ conflict.peer ++ [' '] ++
    conflict.required ++ ", resolved ".toList ++
    match conflict.resolved with
    | some resolved => if resolved ≠ [] then resolved else "missing".toList
    | none => "missing".toList

def lockReasons (candidate : CandidateIdentity) (lock : LockResolution) : List Text :=
  (if lock.resolution ≠ .resolved then
    [if lock.reason ≠ [] then lock.reason
      else "target lock resolution is ".toList ++ lock.resolution.value]
  else
    reasonIf (lock.directChanges ≠ [directChange candidate])
      "target lock direct change does not exactly match the candidate" ++
    reasonIf (transitiveOf candidate lock = some none)
      "target lock transitive changes are malformed") ++
  lock.peerConflicts.map conflictReason

def securitySeverities : List Text :=
  ["low".toList, "moderate".toList, "medium".toList, "high".toList, "critical".toList]

/-- `severity in {"high", "critical"}`. -/
def isSevere (severity : Text) : Bool := severity = "high".toList || severity = "critical".toList

def advisoryValid (allowed : List Text) (sources : List EvidenceSource)
    (advisory : SecurityAdvisory) : Bool :=
  !isBlank advisory.advisoryId && !isBlank advisory.package &&
    decide (advisory.package ∈ allowed) && decide (advisory.severity ∈ securitySeverities) &&
    advisory.introduced.isSome && advisory.source.valid && decide (advisory.source ∈ sources)

def advisoryReasons (allowed : List Text) (sources : List EvidenceSource)
    (advisory : SecurityAdvisory) : List Text :=
  if !advisoryValid allowed sources advisory then
    ["security advisory data is malformed or not candidate-bound".toList]
  else if advisory.introduced = some true ∧ isSevere advisory.severity then
    ["new ".toList ++ advisory.severity ++ " security advisory ".toList ++ advisory.advisoryId ++
      " affects ".toList ++ advisory.package]
  else []

/-- The reasons of the security data, which read `transitive_valid`. -/
def securityReasons (candidate : CandidateIdentity) (lock : LockResolution)
    (security : SecurityEvidence) : Except UnboundLocal (List Text) :=
  if security.resolution ≠ .resolved then
    .ok [if security.reason ≠ [] then security.reason
      else "security advisory data is ".toList ++ security.resolution.value]
  else
    match transitiveOf candidate lock with
    | none => .error ⟨"transitive_valid"⟩
    | some transitive =>
      .ok (reasonIf (security.sources.isEmpty || !security.sources.all (·.valid))
          "security advisory source is missing or invalid" ++
        security.advisories.flatMap
          (advisoryReasons (candidate.package :: transitive.getD []) security.sources))

/-! ## The decision -/

/-- `tuple(dict.fromkeys(reasons))`. -/
def distinct (reasons : List Text) : List Text :=
  (dictItems (reasons.map fun reason => (reason, ()))).map Prod.fst

/-- `evaluate_dependency_evidence`. -/
def evaluateDependencyEvidence (evidence : DependencyEvidence) (waiver : Option EvidenceWaiver) :
    Except UnboundLocal Decision :=
  let validWaiver := waiver.filter (·.valid)
  let release := releaseBlocks validWaiver evidence.candidate evidence.release
  let usage := evidence.usage.findings.map (findingBlocks validWaiver)
  match securityReasons evidence.candidate evidence.lock evidence.security with
  | .error error => .error error
  | .ok security =>
    let reasons := candidateReasons sha256 evidence.candidate ++ release.reasons ++
      usage.flatMap (·.reasons) ++ lockReasons evidence.candidate evidence.lock ++ security ++
      reasonIf (waiver.isSome && validWaiver.isNone) "explicit evidence waiver is malformed"
    .ok {
      status := if reasons.isEmpty then .ready else .blocked
      blockingReasons := distinct reasons
      waivedReasons := distinct (release.waived ++ usage.flatMap (·.waived))
      waiver := validWaiver }

/-! ## The collection -/

/-- What a provider does: it returns evidence of its type, something else, or raises. -/
inductive Provided (α : Type) where
  | returned (value : α)
  | malformed
  | raised (exception : Text)

/-- The evidence of a family, with its failures turned into evidence. -/
def settle {α : Type} (failure : Text → α) (malformed : String) : Provided α → α
  | .returned value => value
  | .malformed => failure malformed.toList
  | .raised exception => failure ("provider failure: ".toList ++ exception)

def failureRelease (observedAt reason : Text) : ReleaseEvidence where
  resolution := .notVerifiable
  version := []
  observedAt := observedAt
  reason := "release evidence is not_verifiable: ".toList ++ reason

def failureUsage (observedAt reason : Text) : UsageEvidence :=
  let finding : UsageFinding :=
    { status := .unknown, detail := "usage evidence is not_verifiable: ".toList ++ reason }
  ⟨finding, finding, finding, finding, observedAt⟩

def failureLock (observedAt reason : Text) : LockResolution where
  resolution := .notVerifiable
  observedAt := observedAt
  reason := "target lock resolution is not_verifiable: ".toList ++ reason

def failureSecurity (observedAt reason : Text) : SecurityEvidence where
  resolution := .notVerifiable
  observedAt := observedAt
  reason := "security advisory data is not_verifiable: ".toList ++ reason

/-- The four providers. -/
structure Providers where
  release : CandidateIdentity → Provided ReleaseEvidence
  usage : CandidateIdentity → Provided UsageEvidence
  lock : CandidateIdentity → Provided LockResolution
  security : CandidateIdentity → Provided SecurityEvidence

def settledRelease (providers : Providers) (identity : CandidateIdentity) (timestamp : Text) :
    ReleaseEvidence :=
  settle (failureRelease timestamp) "release provider returned malformed evidence"
    (providers.release identity)

def settledUsage (providers : Providers) (identity : CandidateIdentity) (timestamp : Text) :
    UsageEvidence :=
  settle (failureUsage timestamp) "usage provider returned malformed evidence"
    (providers.usage identity)

def settledLock (providers : Providers) (identity : CandidateIdentity) (timestamp : Text) :
    LockResolution :=
  settle (failureLock timestamp) "lock provider returned malformed evidence"
    (providers.lock identity)

def settledSecurity (providers : Providers) (identity : CandidateIdentity) (timestamp : Text) :
    SecurityEvidence :=
  settle (failureSecurity timestamp) "security provider returned malformed evidence"
    (providers.security identity)

/-- The evidence before its decision. -/
def undecided (identity : CandidateIdentity) (providers : Providers) (timestamp : Text) :
    DependencyEvidence where
  candidate := identity
  collectedAt := timestamp
  release := settledRelease providers identity timestamp
  usage := settledUsage providers identity timestamp
  lock := settledLock providers identity timestamp
  security := settledSecurity providers identity timestamp
  decision := { status := .blocked }

/-- `collect_dependency_evidence`. -/
def collectDependencyEvidence (identity : CandidateIdentity) (providers : Providers)
    (waiver : Option EvidenceWaiver) (timestamp : Text) : Except UnboundLocal DependencyEvidence :=
  let evidence := undecided identity providers timestamp
  (evaluateDependencyEvidence sha256 evidence waiver).map fun decision =>
    { evidence with decision := decision }

end Evaluate

/-! ## What is promised -/

/-- An explicit and complete waiver for a key. -/
def Waived (waiver : Option EvidenceWaiver) (key : Text) : Prop :=
  ∃ w, waiver = some w ∧ w.valid ∧ key ∈ w.scope

/-- What a ready decision stands on. -/
structure ReadyWhen (evidence : DependencyEvidence) (waiver : Option EvidenceWaiver) : Prop where
  release : evidence.release.resolution = .resolved ∧
      evidence.release.version = evidence.candidate.targetVersion ∨
    evidence.release.resolution = .unknown ∧ Waived waiver "release".toList
  usage : ∀ named ∈ evidence.usage.findings, named.2.status = .unknown →
    Waived waiver (usageKey named.1)
  lock : evidence.lock.resolution = .resolved
  security : evidence.security.resolution = .resolved
  directChange : evidence.lock.directChanges = [directChange evidence.candidate]
  peerConflicts : evidence.lock.peerConflicts = []
  advisories : ∀ advisory ∈ evidence.security.advisories, advisory.introduced = some true →
    isSevere advisory.severity = false

/-- The decision fails closed, and only a release or a usage that is unknown is ever waived. -/
structure FailClosed (identity : CandidateIdentity) (evidence : DependencyEvidence)
    (waiver : Option EvidenceWaiver) : Prop where
  candidate : evidence.candidate = identity
  ready : evidence.decision.status = .ready → ReadyWhen evidence waiver
  waived : ∀ reason ∈ evidence.decision.waivedReasons,
    (evidence.release.resolution = .unknown ∧ reason = releaseReason evidence.release) ∨
      ∃ named ∈ evidence.usage.findings, named.2.status = .unknown ∧
        reason = usageReason named.1 named.2

/-! ## Reasons and what is waived -/

theorem reasonIf_eq_nil {c : Bool} {reason : String} : reasonIf c reason = [] ↔ c = false := by
  cases c <;> simp [reasonIf]

theorem mem_distinct {reasons : List Text} {reason : Text} (h : reason ∈ distinct reasons) :
    reason ∈ reasons := by
  obtain ⟨item, hitem, hreason⟩ := List.mem_map.1 (mem_keys_dictItems _ h)
  obtain ⟨found, hfound, rfl⟩ := List.mem_map.1 hitem
  exact hreason ▸ hfound

theorem covers_iff (waiver : Option EvidenceWaiver) (key : Text) :
    covers (waiver.filter (·.valid)) key ↔ Waived waiver key := by
  unfold covers Waived
  cases waiver with
  | none => simp
  | some w =>
    by_cases hvalid : w.valid <;> simp [Option.filter, hvalid]

/-- A finding that blocks nothing has been waived. -/
theorem maybeBlock_reasons {waiver : Option EvidenceWaiver} {key reason : Text} {waivable : Bool} :
    (maybeBlock (waiver.filter (·.valid)) key reason waivable).reasons = [] ↔
      waivable ∧ Waived waiver key := by
  rw [← covers_iff]
  unfold maybeBlock
  cases waivable <;> cases covers (waiver.filter (·.valid)) key <;> simp

theorem maybeBlock_waived {validWaiver : Option EvidenceWaiver} {key reason found : Text}
    {waivable : Bool} (h : found ∈ (maybeBlock validWaiver key reason waivable).waived) :
    waivable ∧ found = reason := by
  unfold maybeBlock at h
  split at h
  · rename_i hcovered
    exact ⟨(Bool.and_eq_true_iff.1 hcovered).1, List.mem_singleton.1 h⟩
  · cases h

theorem releaseBlocks_reasons {waiver : Option EvidenceWaiver} {candidate : CandidateIdentity}
    {release : ReleaseEvidence} :
    (releaseBlocks (waiver.filter (·.valid)) candidate release).reasons = [] ↔
      (release.resolution = .resolved ∧ release.canonical ∧ release.sources ≠ [] ∧
          (∀ source ∈ release.sources, source.valid) ∧ release.version = candidate.targetVersion) ∨
        (release.resolution = .unknown ∧ Waived waiver "release".toList) := by
  unfold releaseBlocks
  by_cases hresolved : release.resolution = .resolved
  · rw [if_neg (not_not.2 hresolved)]
    simp [reasonIf_eq_nil, hresolved, and_assoc]
  · rw [if_pos hresolved, maybeBlock_reasons]
    simp [hresolved]

theorem findingBlocks_reasons {waiver : Option EvidenceWaiver} {named : Text × UsageFinding} :
    (findingBlocks (waiver.filter (·.valid)) named).reasons = [] ↔
      (named.2.status = .unknown → Waived waiver (usageKey named.1)) := by
  unfold findingBlocks
  split
  · rename_i hunknown
    rw [maybeBlock_reasons]
    simp [hunknown]
  · rename_i hknown
    simp [hknown]

theorem lockReasons_eq_nil {candidate : CandidateIdentity} {lock : LockResolution} :
    lockReasons candidate lock = [] ↔ lock.resolution = .resolved ∧
      lock.directChanges = [directChange candidate] ∧
      (∃ packages, transitivePackages candidate.package lock.transitiveChanges [] =
        some packages) ∧ lock.peerConflicts = [] := by
  unfold lockReasons transitiveOf
  by_cases hresolved : lock.resolution = .resolved
  · rw [if_neg (not_not.2 hresolved), if_pos hresolved]
    simp [reasonIf_eq_nil, hresolved, Option.ne_none_iff_exists']
  · rw [if_pos hresolved]
    simp only [List.cons_append, reduceCtorEq, hresolved, false_and]

theorem advisoryReasons_eq_nil {allowed : List Text} {sources : List EvidenceSource}
    {advisory : SecurityAdvisory} : advisoryReasons allowed sources advisory = [] ↔
      advisoryValid allowed sources advisory ∧
        (advisory.introduced = some true → isSevere advisory.severity = false) := by
  unfold advisoryReasons
  by_cases hvalid : advisoryValid allowed sources advisory
  · rw [hvalid, Bool.not_true, if_neg Bool.false_ne_true]
    split
    · rename_i hsevere
      simp [hsevere.1, hsevere.2]
    · rename_i hfree
      simp only [true_and, true_iff]
      intro hintroduced
      rw [← Bool.not_eq_true]
      exact fun hsevere => hfree ⟨hintroduced, hsevere⟩
  · rw [if_pos (by simp [hvalid])]
    simp [hvalid]

/-! ## The evaluation -/

section

variable {sha256 : Bytes → Text} {evidence : DependencyEvidence} {waiver : Option EvidenceWaiver}

theorem securityReasons_error_iff {candidate : CandidateIdentity} {lock : LockResolution}
    {security : SecurityEvidence} :
    (∃ error, securityReasons candidate lock security = .error error) ↔
      security.resolution = .resolved ∧ lock.resolution ≠ .resolved := by
  unfold securityReasons transitiveOf
  by_cases hsecurity : security.resolution = .resolved
  · rw [if_neg (not_not.2 hsecurity)]
    by_cases hlock : lock.resolution = .resolved <;> simp [hsecurity, hlock]
  · rw [if_pos hsecurity]
    simp only [reduceCtorEq, exists_false, hsecurity, false_and]

theorem securityReasons_eq_nil {candidate : CandidateIdentity} {lock : LockResolution}
    {security : SecurityEvidence} (h : securityReasons candidate lock security = .ok []) :
    security.resolution = .resolved ∧ security.sources ≠ [] ∧
      (∀ source ∈ security.sources, source.valid) ∧
      ∃ transitive, transitiveOf candidate lock = some transitive ∧
        ∀ advisory ∈ security.advisories,
          advisoryValid (candidate.package :: transitive.getD []) security.sources advisory ∧
            (advisory.introduced = some true → isSevere advisory.severity = false) := by
  unfold securityReasons at h
  split at h
  · cases h
  · rename_i hresolved
    split at h
    · cases h
    · rename_i transitive htransitive
      simp only [Except.ok.injEq, List.append_eq_nil_iff, reasonIf_eq_nil, List.flatMap_eq_nil_iff,
        advisoryReasons_eq_nil, Bool.or_eq_false_iff, Bool.not_eq_false', List.all_eq_true,
        List.isEmpty_eq_false_iff] at h
      exact ⟨not_not.1 hresolved, h.1.1, h.1.2, transitive, htransitive, h.2⟩

/-- The evaluation raises where resolved security data stands beside an unresolved lock. -/
theorem evaluate_error_iff :
    (∃ error, evaluateDependencyEvidence sha256 evidence waiver = .error error) ↔
      evidence.security.resolution = .resolved ∧ evidence.lock.resolution ≠ .resolved := by
  rw [← @securityReasons_error_iff evidence.candidate evidence.lock evidence.security]
  unfold evaluateDependencyEvidence
  dsimp only
  cases securityReasons evidence.candidate evidence.lock evidence.security <;> simp

/-- The decision of an evaluation that does not raise. -/
theorem evaluate_ok {decision : Decision}
    (h : evaluateDependencyEvidence sha256 evidence waiver = .ok decision) :
    ∃ security, securityReasons evidence.candidate evidence.lock evidence.security = .ok security ∧
      (decision.status = .ready ↔ candidateReasons sha256 evidence.candidate = [] ∧
        (releaseBlocks (waiver.filter (·.valid)) evidence.candidate evidence.release).reasons = [] ∧
        (∀ named ∈ evidence.usage.findings,
          (findingBlocks (waiver.filter (·.valid)) named).reasons = []) ∧
        lockReasons evidence.candidate evidence.lock = [] ∧ security = [] ∧
        (waiver.isSome && (waiver.filter (·.valid)).isNone) = false) ∧
      decision.waivedReasons =
        distinct ((releaseBlocks (waiver.filter (·.valid)) evidence.candidate
          evidence.release).waived ++
            (evidence.usage.findings.map (findingBlocks (waiver.filter (·.valid)))).flatMap
              (·.waived)) := by
  unfold evaluateDependencyEvidence at h
  dsimp only at h
  cases hsecurity : securityReasons evidence.candidate evidence.lock evidence.security with
  | error error =>
    rw [hsecurity] at h
    cases h
  | ok security =>
    rw [hsecurity] at h
    cases h
    refine ⟨security, rfl, ?_, rfl⟩
    have hstatus : ∀ reasons : List Text,
        ((if reasons.isEmpty then DecisionStatus.ready else .blocked) = .ready) ↔ reasons = [] := by
      intro reasons
      cases reasons <;> simp
    rw [hstatus]
    simp only [List.append_eq_nil_iff, reasonIf_eq_nil, List.flatMap_eq_nil_iff, List.mem_map,
      forall_exists_index, and_imp, forall_apply_eq_imp_iff₂, and_assoc]

theorem readyWhen_of_ready {decision : Decision}
    (h : evaluateDependencyEvidence sha256 evidence waiver = .ok decision)
    (hready : decision.status = .ready) : ReadyWhen evidence waiver := by
  obtain ⟨security, hsecurity, hstatus, _⟩ := evaluate_ok h
  obtain ⟨_, hrelease, husage, hlock, rfl, _⟩ := hstatus.1 hready
  obtain ⟨hresolved, hdirect, _, hpeers⟩ := lockReasons_eq_nil.1 hlock
  obtain ⟨hsecured, _, _, transitive, _, hadvisories⟩ := securityReasons_eq_nil hsecurity
  refine ⟨?_, fun named hnamed => findingBlocks_reasons.1 (husage named hnamed), hresolved,
    hsecured, hdirect, hpeers, fun advisory hadvisory => (hadvisories advisory hadvisory).2⟩
  rcases releaseBlocks_reasons.1 hrelease with ⟨hrelease, _, _, _, hversion⟩ | hunknown
  · exact .inl ⟨hrelease, hversion⟩
  · exact .inr hunknown

theorem waived_of_evaluate {decision : Decision}
    (h : evaluateDependencyEvidence sha256 evidence waiver = .ok decision) :
    ∀ reason ∈ decision.waivedReasons,
      (evidence.release.resolution = .unknown ∧ reason = releaseReason evidence.release) ∨
        ∃ named ∈ evidence.usage.findings, named.2.status = .unknown ∧
          reason = usageReason named.1 named.2 := by
  obtain ⟨_, _, _, hwaived⟩ := evaluate_ok h
  intro reason hreason
  rw [hwaived] at hreason
  rcases List.mem_append.1 (mem_distinct hreason) with hrelease | husage
  · unfold releaseBlocks at hrelease
    split at hrelease
    · obtain ⟨hunknown, rfl⟩ := maybeBlock_waived hrelease
      exact .inl ⟨of_decide_eq_true hunknown, rfl⟩
    · cases hrelease
  · obtain ⟨blocks, hblocks, hin⟩ := List.mem_flatMap.1 husage
    obtain ⟨named, hnamed, rfl⟩ := List.mem_map.1 hblocks
    unfold findingBlocks at hin
    split at hin
    · rename_i hunknown
      exact .inr ⟨named, hnamed, hunknown, (maybeBlock_waived hin).2⟩
    · cases hin

end

/-! ## The collection -/

/-- The collection returns evidence with a fail-closed decision exactly where the lock is resolved
or the security data is not. -/
theorem collect_fail_closed_iff (sha256 : Bytes → Text) (identity : CandidateIdentity)
    (providers : Providers) (waiver : Option EvidenceWaiver) (timestamp : Text) :
    (∃ evidence, collectDependencyEvidence sha256 identity providers waiver timestamp =
        .ok evidence ∧ FailClosed identity evidence waiver) ↔
      ((settledSecurity providers identity timestamp).resolution = .resolved →
        (settledLock providers identity timestamp).resolution = .resolved) := by
  have herror := @evaluate_error_iff sha256 (undecided identity providers timestamp) waiver
  unfold collectDependencyEvidence
  dsimp only
  constructor
  · rintro ⟨evidence, hevidence, _⟩ hsecurity
    by_contra hlock
    obtain ⟨error, hraised⟩ := herror.2 ⟨hsecurity, hlock⟩
    rw [hraised] at hevidence
    cases hevidence
  · intro hcondition
    cases hdecision : evaluateDependencyEvidence sha256 (undecided identity providers timestamp)
        waiver with
    | error error =>
      obtain ⟨hsecurity, hlock⟩ := herror.1 ⟨error, hdecision⟩
      exact absurd (hcondition hsecurity) hlock
    | ok decision =>
      refine ⟨_, rfl, rfl, fun hready => ?_, waived_of_evaluate hdecision⟩
      have hwhen := readyWhen_of_ready hdecision hready
      exact ⟨hwhen.release, hwhen.usage, hwhen.lock, hwhen.security, hwhen.directChange,
        hwhen.peerConflicts, hwhen.advisories⟩

/-! ## A lock provider that raises -/

def sampleIdentity : CandidateIdentity where
  fingerprint := "sha256:candidate".toList
  package := "lodash".toList
  currentVersion := "4.17.21".toList
  targetVersion := "4.17.22".toList
  baselineSha := "base".toList
  ecosystem := "node".toList
  packageManager := "pnpm".toList
  adapterProfile := some "pnpm_lockfile_only_v1".toList

def sampleSource : EvidenceSource where
  identifier := "osv".toList
  url := none
  observedAt := "2026-08-03T00:00:00Z".toList
  kind := "security".toList

/-- `hashlib.sha256` of the sample's adapter identity. -/
def sampleSha256 (_ : Bytes) : Text :=
  "ff7abed2f47ab978c6fd6bc7e4d8259b0717894dbc5d50bd8f493c65e4c4b3f8".toList

/-- Resolved security data, and three providers that raise. -/
def sampleProviders : Providers where
  release _ := .raised "TimeoutError".toList
  usage _ := .raised "TimeoutError".toList
  lock _ := .raised "TimeoutError".toList
  security _ := .returned { resolution := .resolved, sources := [sampleSource] }

/-- The collection raises instead of blocking. -/
theorem collect_raises :
    collectDependencyEvidence sampleSha256 sampleIdentity sampleProviders none [] =
        .error ⟨"transitive_valid"⟩ ∧
      ¬ ∃ evidence, collectDependencyEvidence sampleSha256 sampleIdentity sampleProviders none [] =
        .ok evidence ∧ FailClosed sampleIdentity evidence none := by
  refine ⟨rfl, ?_⟩
  rintro ⟨evidence, hevidence, _⟩
  cases hevidence

end Agentrail.Evidence
