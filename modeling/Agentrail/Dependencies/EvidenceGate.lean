import Agentrail.Dependencies.Evidence

/-!
# The gate on serialized evidence (`agentrail/dependencies/evidence.py`)

`DependencyEvidence.to_dict` and `dependency_gate_input`, which validates the
serialized form once more before it enters the Objective Gate.

Main results:

* `gate_accepts_iff`: what the gate accepts of serialized evidence;
* `loads_toDict`: the serialized form survives a JSON round trip;
* `gate_agrees_iff`: the gate and the decision agree exactly when nothing that is
  unknown was waived;
* `waived_refused`: a waived release is ready, and refused by the gate.
-/

namespace Agentrail.Evidence

open Py

/-! ## The serialized form -/

def optionText : Option Text → Json
  | some t => .str t
  | none => .null

def texts (xs : List Text) : Json := .list (xs.map .str)

def CandidateIdentity.toDict (c : CandidateIdentity) : Json := .dict [
  ("fingerprint".toList, .str c.fingerprint),
  ("package".toList, .str c.package),
  ("currentVersion".toList, .str c.currentVersion),
  ("targetVersion".toList, .str c.targetVersion),
  ("baselineSha".toList, .str c.baselineSha),
  ("ecosystem".toList, .str c.ecosystem),
  ("packageManager".toList, .str c.packageManager),
  ("adapterProfile".toList, optionText c.adapterProfile),
  ("adapterIdentityFingerprint".toList, optionText c.adapterIdentityFingerprint)]

def EvidenceSource.toDict (s : EvidenceSource) : Json := .dict [
  ("identifier".toList, .str s.identifier),
  ("url".toList, optionText s.url),
  ("observedAt".toList, .str s.observedAt),
  ("kind".toList, .str s.kind)]

def ReleaseEvidence.toDict (r : ReleaseEvidence) : Json := .dict [
  ("resolution".toList, .str r.resolution.value),
  ("version".toList, .str r.version),
  ("sources".toList, .list (r.sources.map (·.toDict))),
  ("observedAt".toList, .str r.observedAt),
  ("canonical".toList, .bool r.canonical),
  ("summary".toList, optionText r.summary),
  ("reason".toList, .str r.reason)]

def UsageFinding.toDict (f : UsageFinding) : Json := .dict [
  ("status".toList, .str f.status.value),
  ("paths".toList, texts f.paths),
  ("sourceIds".toList, texts f.sourceIds),
  ("detail".toList, .str f.detail)]

def UsageEvidence.toDict (u : UsageEvidence) : Json := .dict [
  ("directImports".toList, u.directImports.toDict),
  ("configReferences".toList, u.configReferences.toDict),
  ("peerUsage".toList, u.peerUsage.toDict),
  ("workspaceUsage".toList, u.workspaceUsage.toDict),
  ("observedAt".toList, .str u.observedAt)]

def DependencyChange.toDict (c : DependencyChange) : Json := .dict [
  ("package".toList, .str c.package),
  ("fromVersions".toList, texts c.fromVersions),
  ("toVersions".toList, texts c.toVersions),
  ("scope".toList, .str c.scope)]

def PeerConflict.toDict (c : PeerConflict) : Json := .dict [
  ("package".toList, .str c.package),
  ("peer".toList, .str c.peer),
  ("required".toList, .str c.required),
  ("resolved".toList, optionText c.resolved),
  ("detail".toList, .str c.detail)]

def LockResolution.toDict (l : LockResolution) : Json := .dict [
  ("resolution".toList, .str l.resolution.value),
  ("directChanges".toList, .list (l.directChanges.map (·.toDict))),
  ("transitiveChanges".toList, .list (l.transitiveChanges.map (·.toDict))),
  ("peerConflicts".toList, .list (l.peerConflicts.map (·.toDict))),
  ("observedAt".toList, .str l.observedAt),
  ("reason".toList, .str l.reason)]

def SecurityAdvisory.toDict (a : SecurityAdvisory) : Json := .dict [
  ("id".toList, .str a.advisoryId),
  ("package".toList, .str a.package),
  ("severity".toList, .str a.severity),
  ("introduced".toList, match a.introduced with | some b => .bool b | none => .null),
  ("source".toList, a.source.toDict),
  ("summary".toList, .str a.summary)]

def SecurityEvidence.toDict (s : SecurityEvidence) : Json := .dict [
  ("resolution".toList, .str s.resolution.value),
  ("advisories".toList, .list (s.advisories.map (·.toDict))),
  ("sources".toList, .list (s.sources.map (·.toDict))),
  ("observedAt".toList, .str s.observedAt),
  ("reason".toList, .str s.reason)]

def EvidenceWaiver.toDict (w : EvidenceWaiver) : Json := .dict [
  ("id".toList, .str w.waiverId),
  ("actor".toList, .str w.actor),
  ("reason".toList, .str w.reason),
  ("approvedAt".toList, .str w.approvedAt),
  ("scope".toList, texts w.scope)]

def Decision.toDict (d : Decision) : Json := .dict [
  ("status".toList, .str d.status.value),
  ("proofComplete".toList, .bool (d.status = .ready)),
  ("blockingReasons".toList, texts d.blockingReasons),
  ("waivedReasons".toList, texts d.waivedReasons),
  ("waiver".toList, match d.waiver with | some w => w.toDict | none => .null)]

def DependencyEvidence.toDict (e : DependencyEvidence) : Json := .dict [
  ("kind".toList, .str "dependency-upgrade-evidence".toList),
  ("schemaVersion".toList, .int 2),
  ("candidate".toList, e.candidate.toDict),
  ("candidateFingerprint".toList, .str e.candidate.fingerprint),
  ("adapterProfile".toList, optionText e.candidate.adapterProfile),
  ("adapterIdentityFingerprint".toList, optionText e.candidate.adapterIdentityFingerprint),
  ("collectedAt".toList, .str e.collectedAt),
  ("release".toList, e.release.toDict),
  ("usage".toList, e.usage.toDict),
  ("lock".toList, e.lock.toDict),
  ("security".toList, e.security.toDict),
  ("decision".toList, e.decision.toDict)]

/-! ## The gate -/

/-- What the gate takes from the interpreter. -/
structure GateHost where
  /-- the hex digest of `hashlib.sha256` -/
  sha256 : Bytes → Text
  /-- `==` of two numbers one of which is a `float` -/
  floatEq : Json → Json → Bool
  /-- `str(value)` -/
  str : Json → Text

/-- A check that goes on, refuses with a reason, or raises a `TypeError` (`none`). -/
abbrev Check (α : Type) := Except (Option Text) α

def require (c : Bool) (reason : String) : Check Unit :=
  if c then .ok () else .error (some reason.toList)

/-- `payload.get(key)`. -/
def field (v : Json) (key : String) : Json := (v.get key.toList).getD .null

def isMapping : Json → Bool
  | .dict _ => true
  | _ => false

def listOf : Json → Option (List Json)
  | .list xs => some xs
  | _ => none

def textOf : Json → Option Text
  | .str t => some t
  | _ => none

/-- `nonempty_string`. -/
def nonemptyString (v : Json) : Bool := (textOf v).any (!isBlank ·)

/-- `v == text`. -/
def isText (v : Json) (text : Text) : Bool := textOf v = some text

def isTrue : Json → Bool
  | .bool b => b
  | _ => false

def isBool : Json → Bool
  | .bool _ => true
  | _ => false

/-- `hash(v)` does not raise. -/
def hashable : Json → Bool
  | .list _ => false
  | .dict _ => false
  | _ => true

def isNumber : Json → Bool
  | .bool _ => true
  | .int _ => true
  | .float _ => true
  | _ => false

/-- `int(v)` of an `int` or a `bool`. -/
def intOf : Json → Option Int
  | .bool b => some (if b then 1 else 0)
  | .int n => some n
  | _ => none

/-- `_serialized_evidence_source_valid`. -/
def serializedEvidenceSourceValid (source : Json) : Bool :=
  match field source "identifier", field source "url", field source "observedAt",
      field source "kind" with
  | .str identifier, .str url, .str observedAt, .str kind =>
    (!isBlank identifier || !isBlank url) && !isBlank observedAt && !isBlank kind
  | .str identifier, .null, .str observedAt, .str kind =>
    !isBlank identifier && !isBlank observedAt && !isBlank kind
  | _, _, _, _ => false

section Gate

variable (host : GateHost)

/-- `==` of a number and a value. -/
def numberEq (v w : Json) : Bool :=
  match intOf v, intOf w with
  | some n, some m => n = m
  | _, _ => isNumber w && host.floatEq v w

mutual

/-- `==` of two values. -/
def jsonEq : Json → Json → Bool
  | .null, w => match w with | .null => true | _ => false
  | .str t, w => isText w t
  | .list xs, w => match w with | .list ys => jsonEqItems xs ys | _ => false
  | .dict fields, w =>
    match w with
    | .dict fields' => fields.length = fields'.length && jsonEqFields fields fields'
    | _ => false
  | .bool b, w => numberEq host (.bool b) w
  | .int n, w => numberEq host (.int n) w
  | .float literal, w => numberEq host (.float literal) w

def jsonEqItems : List Json → List Json → Bool
  | [], ys => ys.isEmpty
  | x :: xs, ys => match ys with | y :: ys => jsonEq x y && jsonEqItems xs ys | [] => false

def jsonEqFields : List (Text × Json) → List (Text × Json) → Bool
  | [], _ => true
  | (key, v) :: fields, fields' =>
    (match getItem key fields' with | some w => jsonEq v w | none => false) &&
      jsonEqFields fields fields'

end

def schemaCheck (payload : Json) : Check Unit := do
  require (isMapping payload) "dependency evidence is not an object"
  if !hashable (field payload "kind") then throw none
  require (isText (field payload "kind") "dependency-upgrade-evidence".toList ||
      isText (field payload "kind") "pnpm-dependency-upgrade-evidence".toList)
    "dependency evidence schema is unsupported"
  require (jsonEq host (.int 2) (field payload "schemaVersion"))
    "dependency evidence schema is unsupported; regenerate current schemaVersion 2 evidence"

def requiredCandidate : List String := ["fingerprint", "package", "currentVersion",
  "targetVersion", "baselineSha", "ecosystem", "packageManager", "adapterProfile",
  "adapterIdentityFingerprint"]

def duplicatedIdentity : List (String × String) := [
  ("candidateFingerprint", "fingerprint"),
  ("adapterProfile", "adapterProfile"),
  ("adapterIdentityFingerprint", "adapterIdentityFingerprint")]

/-- The text of a field that is known to be one. -/
def textAt (v : Json) (key : String) : Text := (textOf (field v key)).getD []

/-- The adapter profile and fingerprint of the candidate. -/
def adapterCheck (candidate : Json) : Check Unit :=
  match adapterProfileId (textAt candidate "ecosystem") (textAt candidate "packageManager") with
  | none => require false "dependency evidence adapter capability is unavailable"
  | some expected => do
    require (textAt candidate "adapterProfile" = expected)
      "dependency evidence adapter profile is mismatched"
    match adapterIdentityFingerprint host.sha256 (textAt candidate "fingerprint")
        (textAt candidate "ecosystem") (textAt candidate "packageManager") expected with
    | none => require false "dependency evidence adapter identity is invalid"
    | some fingerprint =>
      require (textAt candidate "adapterIdentityFingerprint" = fingerprint)
        "dependency evidence adapter identity fingerprint is mismatched"

def candidateCheck (payload : Json) : Check Unit := do
  let candidate := field payload "candidate"
  require (isMapping candidate && requiredCandidate.all fun key =>
      nonemptyString (field candidate key))
    "dependency evidence candidate identity is incomplete"
  require (duplicatedIdentity.all fun names => nonemptyString (field payload names.1))
    "dependency evidence top-level candidate identity is incomplete"
  require (duplicatedIdentity.all fun names =>
      jsonEq host (field payload names.1) (field candidate names.2))
    "dependency evidence top-level candidate identity is mismatched"
  require (textAt candidate "currentVersion" ≠ textAt candidate "targetVersion")
    "dependency evidence candidate transition is a no-op"
  adapterCheck host candidate

/-- A list of valid sources that is not empty. -/
def sourcesValid (sources : Json) : Bool :=
  (listOf sources).any fun xs => !xs.isEmpty && xs.all serializedEvidenceSourceValid

def releaseCheck (candidate release : Json) : Check Unit := do
  require (isMapping release &&
      isText (field release "resolution") EvidenceResolution.resolved.value)
    "release evidence is not resolved"
  require (sourcesValid (field release "sources") && isTrue (field release "canonical") &&
      nonemptyString (field release "version"))
    "release evidence has no valid canonical source"
  require (isText (field release "version") (textAt candidate "targetVersion"))
    "release evidence target does not match the candidate"

def evidenceStates : List Text :=
  [EvidenceState.proven.value, EvidenceState.notFound.value, EvidenceState.unknown.value]

def findingCheck (usage : Json) (fieldName : String) : Check Unit := do
  let finding := field usage fieldName
  let status := field finding "status"
  require (isMapping finding) (fieldName ++ " usage evidence is malformed")
  if !hashable status then throw none
  require (evidenceStates.any fun state => isText status state)
    (fieldName ++ " usage evidence is malformed")
  require (!isText status EvidenceState.unknown.value) (fieldName ++ " usage evidence is unknown")

def usageCheck (usage : Json) : Check Unit := do
  require (isMapping usage) "usage evidence is missing"
  findingCheck usage "directImports"
  findingCheck usage "configReferences"
  findingCheck usage "peerUsage"
  findingCheck usage "workspaceUsage"

/-- The texts of a list of them. -/
def textsOf (v : Json) : Option (List Text) := (listOf v).bind fun xs => xs.mapM textOf

/-- A transitive change, with its package; `none` where it is malformed. -/
def serializedChange (package : Text) (seen : List Text) (change : Json) : Option Text :=
  match change, textOf (field change "package"), textsOf (field change "fromVersions"),
      textsOf (field change "toVersions"), textOf (field change "scope") with
  | .dict _, some name, some fromVersions, some toVersions, some scope =>
    if changeValid package seen ⟨name, fromVersions, toVersions, scope⟩ then some name else none
  | _, _, _, _, _ => none

def serializedPackages (package : Text) : List Json → List Text → Option (List Text)
  | [], seen => some seen
  | change :: changes, seen =>
    match serializedChange package seen change with
    | some name => serializedPackages package changes (seen ++ [name])
    | none => none

/-- The one direct change of the lock is the candidate's. -/
def directCheck (candidate lock : Json) : Check Unit :=
  match listOf (field lock "directChanges") with
  | some [change] =>
    require (isMapping change &&
        isText (field change "package") (textAt candidate "package") &&
        jsonEq host (.list [.str (textAt candidate "currentVersion")])
          (field change "fromVersions") &&
        jsonEq host (.list [.str (textAt candidate "targetVersion")]) (field change "toVersions") &&
        isText (field change "scope") "direct".toList)
      "target lock direct change does not exactly match the candidate"
  | _ => require false "target lock resolution must contain exactly one direct change"

/-- The packages of the transitive changes, beside no peer conflict. -/
def transitiveCheck (candidate lock : Json) : Check (List Text) :=
  match listOf (field lock "transitiveChanges"), listOf (field lock "peerConflicts") with
  | some changes, some conflicts =>
    match serializedPackages (textAt candidate "package") changes [] with
    | none => throw (some "target lock transitive changes are malformed".toList)
    | some packages => do
      require conflicts.isEmpty "target lock resolution contains peer conflicts"
      pure packages
  | _, _ => throw (some "target lock resolution is incomplete".toList)

/-- The lock, with the packages of its transitive changes. -/
def lockCheck (candidate lock : Json) : Check (List Text) := do
  require (isMapping lock && isText (field lock "resolution") EvidenceResolution.resolved.value)
    "target lock resolution is not resolved"
  directCheck host candidate lock
  transitiveCheck candidate lock

def advisoryCheck (allowed : List Text) (sources : List Json) (advisory : Json) : Check Unit := do
  require (isMapping advisory) "security advisory data is malformed or not candidate-bound"
  let package := field advisory "package"
  let severity := field advisory "severity"
  let introduced := field advisory "introduced"
  let source := field advisory "source"
  require (nonemptyString (field advisory "id") && nonemptyString package &&
      allowed.any (fun name => isText package name) &&
      securitySeverities.any (fun name => isText severity name) &&
      isBool introduced && serializedEvidenceSourceValid source &&
      sources.any (fun other => jsonEq host source other))
    "security advisory data is malformed or not candidate-bound"
  if isTrue introduced && isSevere ((textOf severity).getD []) then
    throw (some ("new ".toList ++ (textOf severity).getD [] ++
      " security advisory blocks upgrade".toList))

def advisoriesCheck (allowed : List Text) (sources : List Json) : List Json → Check Unit
  | [] => .ok ()
  | advisory :: advisories => do
    advisoryCheck host allowed sources advisory
    advisoriesCheck allowed sources advisories

def securityCheck (candidate security : Json) (packages : List Text) : Check Unit := do
  require (isMapping security &&
      isText (field security "resolution") EvidenceResolution.resolved.value)
    "security advisory data is not resolved"
  require (sourcesValid (field security "sources"))
    "security advisory source is missing or invalid"
  match listOf (field security "advisories") with
  | none => throw (some "security advisory data is malformed".toList)
  | some advisories =>
    advisoriesCheck host (textAt candidate "package" :: packages)
      ((listOf (field security "sources")).getD []) advisories

def decisionCheck (decision : Json) : Check Unit := do
  require (isMapping decision) "dependency evidence decision is missing"
  if !(isText (field decision "status") DecisionStatus.ready.value &&
      isTrue (field decision "proofComplete")) then
    match listOf (field decision "blockingReasons") with
    | some (reason :: reasons) =>
      throw (some (List.intercalate [';', ' '] ((reason :: reasons).map host.str)))
    | _ => throw (some "dependency evidence is not ready".toList)

def gateCheck (payload : Json) : Check Unit := do
  schemaCheck host payload
  candidateCheck host payload
  let candidate := field payload "candidate"
  releaseCheck candidate (field payload "release")
  usageCheck (field payload "usage")
  let packages ← lockCheck host candidate (field payload "lock")
  securityCheck host candidate (field payload "security") packages
  decisionCheck host (field payload "decision")

/-- `dependency_gate_input`; `none` where it raises. -/
def dependencyGateInput (payload : Json) : Option (Bool × Text) :=
  match gateCheck host payload with
  | .ok () => some (true,
      "candidate compatibility, usage, lock, release, and security evidence is complete".toList)
  | .error (some reason) => some (false, reason)
  | .error none => none

def Accepts (payload : Json) : Prop :=
  ∃ message, dependencyGateInput host payload = some (true, message)

end Gate

/-! ## The round trip -/

theorem plainItems_map {α : Type} (f : α → Json) {xs : List α} (h : ∀ x ∈ xs, Plain (f x)) :
    PlainItems (xs.map f) := by
  induction xs with
  | nil => trivial
  | cons x xs ih =>
    exact ⟨h x List.mem_cons_self, ih fun y hy => h y (List.mem_cons_of_mem x hy)⟩

theorem plain_optionText (t : Option Text) : Plain (optionText t) := by
  cases t <;> trivial

theorem plain_texts (xs : List Text) : Plain (texts xs) :=
  plainItems_map .str fun _ _ => trivial

theorem plain_source (s : EvidenceSource) : Plain s.toDict :=
  ⟨of_decide_eq_true rfl, trivial, plain_optionText _, trivial, trivial, trivial⟩

theorem plain_release (r : ReleaseEvidence) : Plain r.toDict :=
  ⟨of_decide_eq_true rfl, trivial, trivial, plainItems_map _ fun s _ => plain_source s, trivial,
    trivial, plain_optionText _, trivial, trivial⟩

theorem plain_finding (f : UsageFinding) : Plain f.toDict :=
  ⟨of_decide_eq_true rfl, trivial, plain_texts _, plain_texts _, trivial, trivial⟩

theorem plain_usage (u : UsageEvidence) : Plain u.toDict :=
  ⟨of_decide_eq_true rfl, plain_finding _, plain_finding _, plain_finding _, plain_finding _,
    trivial, trivial⟩

theorem plain_change (c : DependencyChange) : Plain c.toDict :=
  ⟨of_decide_eq_true rfl, trivial, plain_texts _, plain_texts _, trivial, trivial⟩

theorem plain_conflict (c : PeerConflict) : Plain c.toDict :=
  ⟨of_decide_eq_true rfl, trivial, trivial, trivial, plain_optionText _, trivial, trivial⟩

theorem plain_lock (l : LockResolution) : Plain l.toDict :=
  ⟨of_decide_eq_true rfl, trivial, plainItems_map _ fun c _ => plain_change c,
    plainItems_map _ fun c _ => plain_change c, plainItems_map _ fun c _ => plain_conflict c,
    trivial, trivial, trivial⟩

theorem plain_advisory (a : SecurityAdvisory) : Plain a.toDict := by
  refine ⟨of_decide_eq_true rfl, trivial, trivial, trivial, ?_, plain_source _, trivial, trivial⟩
  cases a.introduced <;> trivial

theorem plain_security (s : SecurityEvidence) : Plain s.toDict :=
  ⟨of_decide_eq_true rfl, trivial, plainItems_map _ fun a _ => plain_advisory a,
    plainItems_map _ fun s _ => plain_source s, trivial, trivial, trivial⟩

theorem plain_waiver (w : EvidenceWaiver) : Plain w.toDict :=
  ⟨of_decide_eq_true rfl, trivial, trivial, trivial, trivial, plain_texts _, trivial⟩

theorem plain_decision (d : Decision) : Plain d.toDict := by
  refine ⟨of_decide_eq_true rfl, trivial, trivial, plain_texts _, plain_texts _, ?_, trivial⟩
  cases d.waiver with
  | none => trivial
  | some w => exact plain_waiver w

theorem plain_candidate (c : CandidateIdentity) : Plain c.toDict :=
  ⟨of_decide_eq_true rfl, trivial, trivial, trivial, trivial, trivial, trivial, trivial,
    plain_optionText _, plain_optionText _, trivial⟩

/-- The serialized form survives a JSON round trip. -/
theorem loads_toDict (e : DependencyEvidence) : loads (dumps compact e.toDict) = some e.toDict :=
  loads_dumps e.toDict ⟨of_decide_eq_true rfl, trivial, trivial, plain_candidate _, trivial,
    plain_optionText _, plain_optionText _, trivial, plain_release _, plain_usage _,
    plain_lock _, plain_security _, plain_decision _, trivial⟩

/-! ## What the gate accepts -/

section Accept

variable {host : GateHost}

theorem require_ok {c : Bool} {reason : String} : require c reason = .ok () ↔ c = true := by
  cases c <;> simp [require]

theorem unit_bind_ok {α : Type} {x : Check Unit} {f : Check α} {a : α} :
    (x >>= fun _ => f) = .ok a ↔ x = .ok () ∧ f = .ok a := by
  rw [except_bind_eq_ok]
  exact ⟨fun ⟨_, hx, hf⟩ => ⟨hx, hf⟩, fun h => ⟨(), h⟩⟩

theorem accepts_iff {payload : Json} : Accepts host payload ↔ gateCheck host payload = .ok () := by
  unfold Accepts dependencyGateInput
  cases gateCheck host payload with
  | ok _ => simp
  | error reason => cases reason <;> simp

theorem isText_str (t text : Text) : isText (.str t) text = true ↔ t = text := by
  simp [isText, textOf]

theorem nonemptyString_optionText (t : Option Text) :
    nonemptyString (optionText t) = t.any (!isBlank ·) := by
  cases t <;> rfl

theorem source_valid (s : EvidenceSource) : serializedEvidenceSourceValid s.toDict = s.valid := by
  obtain ⟨identifier, url, observedAt, kind⟩ := s
  cases url with
  | none =>
    show (!isBlank identifier && !isBlank observedAt && !isBlank kind) =
      ((!isBlank identifier || false) && !isBlank observedAt && !isBlank kind)
    rw [Bool.or_false]
  | some url => rfl

theorem sourcesValid_map (xs : List EvidenceSource) :
    sourcesValid (.list (xs.map (·.toDict))) = true ↔ xs ≠ [] ∧ ∀ s ∈ xs, s.valid := by
  have hall : (xs.map (·.toDict)).all serializedEvidenceSourceValid = xs.all (·.valid) := by
    rw [List.all_map]
    exact congrArg xs.all (funext source_valid)
  show (!(xs.map (·.toDict)).isEmpty && (xs.map (·.toDict)).all serializedEvidenceSourceValid) =
    true ↔ _
  rw [hall]
  cases xs <;> simp

theorem resolution_value {r : EvidenceResolution} :
    r.value = EvidenceResolution.resolved.value ↔ r = .resolved := by
  cases r <;> decide

theorem releaseCheck_ok {c : CandidateIdentity} {r : ReleaseEvidence} :
    releaseCheck c.toDict r.toDict = .ok () ↔ r.resolution = .resolved ∧
      ((r.sources ≠ [] ∧ ∀ s ∈ r.sources, s.valid) ∧ r.canonical) ∧ isBlank r.version = false ∧
      r.version = c.targetVersion := by
  have hresolution : isText (field r.toDict "resolution") EvidenceResolution.resolved.value = true ↔
      r.resolution = .resolved := (isText_str _ _).trans resolution_value
  have hversion : isText (field r.toDict "version") (textAt c.toDict "targetVersion") = true ↔
      r.version = c.targetVersion := isText_str _ _
  have hblank : nonemptyString (field r.toDict "version") = !isBlank r.version := rfl
  have hcanonical : isTrue (field r.toDict "canonical") = r.canonical := rfl
  have hmapping : isMapping r.toDict = true := rfl
  have hsources : sourcesValid (field r.toDict "sources") = true ↔
      r.sources ≠ [] ∧ ∀ s ∈ r.sources, s.valid := sourcesValid_map r.sources
  unfold releaseCheck
  rw [unit_bind_ok, unit_bind_ok, require_ok, require_ok, require_ok, hversion, hblank, hcanonical,
    hmapping, Bool.true_and, hresolution, Bool.and_eq_true, Bool.and_eq_true, hsources,
    Bool.not_eq_true', and_assoc]

theorem findingCheck_ok {u : Json} {name : String} {f : UsageFinding}
    (h : field u name = f.toDict) : findingCheck u name = .ok () ↔ f.status ≠ .unknown := by
  unfold findingCheck
  rw [h]
  obtain ⟨status, paths, sourceIds, detail⟩ := f
  cases status with
  | proven => exact iff_of_true rfl nofun
  | notFound => exact iff_of_true rfl nofun
  | unknown => exact iff_of_false nofun (not_not.2 rfl)

theorem usageCheck_ok {u : UsageEvidence} :
    usageCheck u.toDict = .ok () ↔ ∀ named ∈ u.findings, named.2.status ≠ .unknown := by
  have hmapping : require (isMapping u.toDict) "usage evidence is missing" = .ok () := rfl
  unfold usageCheck
  rw [unit_bind_ok, unit_bind_ok, unit_bind_ok, unit_bind_ok, findingCheck_ok rfl,
    findingCheck_ok rfl, findingCheck_ok rfl, findingCheck_ok rfl]
  simp [hmapping, UsageEvidence.findings]

theorem textsOf_texts (xs : List Text) : textsOf (texts xs) = some xs := by
  show (xs.map Json.str).mapM textOf = some xs
  induction xs with
  | nil => rfl
  | cons x xs ih =>
    rw [List.map_cons, List.mapM_cons, ih]
    rfl

theorem serializedChange_toDict (package : Text) (seen : List Text) (c : DependencyChange) :
    serializedChange package seen c.toDict =
      if changeValid package seen c then some c.package else none := by
  have hfrom : textsOf (field c.toDict "fromVersions") = some c.fromVersions := textsOf_texts _
  have hto : textsOf (field c.toDict "toVersions") = some c.toVersions := textsOf_texts _
  unfold serializedChange
  rw [hfrom, hto]
  rfl

theorem serializedPackages_toDict (package : Text) (changes : List DependencyChange)
    (seen : List Text) : serializedPackages package (changes.map (·.toDict)) seen =
      transitivePackages package changes seen := by
  induction changes generalizing seen with
  | nil => rfl
  | cons change changes ih =>
    rw [List.map_cons, serializedPackages, transitivePackages, serializedChange_toDict]
    by_cases hvalid : changeValid package seen change
    · rw [if_pos hvalid, if_pos hvalid]
      exact ih _
    · rw [if_neg hvalid, if_neg hvalid]

theorem jsonEq_versions (host : GateHost) (t : Text) (xs : List Text) :
    jsonEq host (.list [.str t]) (texts xs) = true ↔ xs = [t] := by
  cases xs with
  | nil => exact iff_of_false nofun nofun
  | cons x xs =>
    cases xs with
    | nil =>
      show (isText (.str x) t && true) = true ↔ _
      rw [Bool.and_true, isText_str]
      simp
    | cons y xs =>
      show (isText (.str x) t && false) = true ↔ _
      simp

theorem directChange_toDict (host : GateHost) (c : CandidateIdentity) (change : DependencyChange) :
    (isMapping change.toDict &&
        isText (field change.toDict "package") (textAt c.toDict "package") &&
        jsonEq host (.list [.str (textAt c.toDict "currentVersion")])
          (field change.toDict "fromVersions") &&
        jsonEq host (.list [.str (textAt c.toDict "targetVersion")])
          (field change.toDict "toVersions") &&
        isText (field change.toDict "scope") "direct".toList) = true ↔
      change = directChange c := by
  have hpackage : isText (field change.toDict "package") (textAt c.toDict "package") = true ↔
      change.package = c.package := isText_str _ _
  have hfrom : jsonEq host (.list [.str (textAt c.toDict "currentVersion")])
      (field change.toDict "fromVersions") = true ↔ change.fromVersions = [c.currentVersion] :=
    jsonEq_versions host _ _
  have hto : jsonEq host (.list [.str (textAt c.toDict "targetVersion")])
      (field change.toDict "toVersions") = true ↔ change.toVersions = [c.targetVersion] :=
    jsonEq_versions host _ _
  have hscope : isText (field change.toDict "scope") "direct".toList = true ↔
      change.scope = "direct".toList := isText_str _ _
  have hmapping : isMapping change.toDict = true := rfl
  rw [Bool.and_eq_true, Bool.and_eq_true, Bool.and_eq_true, Bool.and_eq_true, hpackage, hfrom, hto,
    hscope, hmapping]
  unfold directChange
  constructor
  · rintro ⟨⟨⟨⟨_, hpackage⟩, hfrom⟩, hto⟩, hscope⟩
    rw [← hpackage, ← hfrom, ← hto, ← hscope]
  · intro h
    rw [h]
    exact ⟨⟨⟨⟨rfl, rfl⟩, rfl⟩, rfl⟩, rfl⟩

theorem directCheck_ok {c : CandidateIdentity} {l : LockResolution} :
    directCheck host c.toDict l.toDict = .ok () ↔ l.directChanges = [directChange c] := by
  have hdirect : listOf (field l.toDict "directChanges") =
      some (l.directChanges.map (·.toDict)) := rfl
  unfold directCheck
  rw [hdirect]
  cases l.directChanges with
  | nil => exact iff_of_false nofun nofun
  | cons change changes =>
    cases changes with
    | nil =>
      rw [List.map_cons, List.map_nil]
      dsimp only
      rw [require_ok, directChange_toDict, List.cons.injEq]
      exact (and_iff_left rfl).symm
    | cons other changes => exact iff_of_false nofun nofun

theorem transitiveCheck_ok {c : CandidateIdentity} {l : LockResolution} {packages : List Text} :
    transitiveCheck c.toDict l.toDict = .ok packages ↔
      transitivePackages c.package l.transitiveChanges [] = some packages ∧
      l.peerConflicts = [] := by
  have htransitive : listOf (field l.toDict "transitiveChanges") =
      some (l.transitiveChanges.map (·.toDict)) := rfl
  have hpeers : listOf (field l.toDict "peerConflicts") =
      some (l.peerConflicts.map (·.toDict)) := rfl
  have hpackage : textAt c.toDict "package" = c.package := rfl
  unfold transitiveCheck
  rw [htransitive, hpeers, hpackage]
  dsimp only
  rw [serializedPackages_toDict]
  cases transitivePackages c.package l.transitiveChanges [] with
  | none => exact iff_of_false nofun fun h => nomatch h.1
  | some found =>
    dsimp only
    rw [unit_bind_ok, require_ok, List.isEmpty_iff, List.map_eq_nil_iff, and_comm]
    exact and_congr_left' ⟨fun h => congrArg some (Except.ok.inj h),
      fun h => congrArg Except.ok (Option.some.inj h)⟩

theorem lockCheck_ok {c : CandidateIdentity} {l : LockResolution} {packages : List Text} :
    lockCheck host c.toDict l.toDict = .ok packages ↔ l.resolution = .resolved ∧
      l.directChanges = [directChange c] ∧
      transitivePackages c.package l.transitiveChanges [] = some packages ∧
      l.peerConflicts = [] := by
  have hresolution : (isMapping l.toDict &&
      isText (field l.toDict "resolution") EvidenceResolution.resolved.value) = true ↔
      l.resolution = .resolved := (isText_str _ _).trans resolution_value
  unfold lockCheck
  rw [unit_bind_ok, unit_bind_ok, require_ok, hresolution, directCheck_ok, transitiveCheck_ok]

theorem jsonEq_optionText (t t' : Option Text) :
    jsonEq host (optionText t) (optionText t') = true ↔ t = t' := by
  cases t with
  | none =>
    cases t' with
    | none => exact iff_of_true rfl rfl
    | some t' => exact iff_of_false nofun nofun
  | some t =>
    cases t' with
    | none => exact iff_of_false nofun nofun
    | some t' =>
      rw [Option.some.injEq]
      exact (isText_str t' t).trans eq_comm

theorem jsonEq_source (s s' : EvidenceSource) : jsonEq host s.toDict s'.toDict = true ↔ s = s' := by
  have hfields : jsonEq host s.toDict s'.toDict =
      (isText (.str s'.identifier) s.identifier &&
        (jsonEq host (optionText s.url) (optionText s'.url) &&
          (isText (.str s'.observedAt) s.observedAt && (isText (.str s'.kind) s.kind && true)))) :=
    rfl
  obtain ⟨identifier, url, observedAt, kind⟩ := s
  obtain ⟨identifier', url', observedAt', kind'⟩ := s'
  rw [hfields]
  simp only [Bool.and_eq_true, isText_str, jsonEq_optionText, EvidenceSource.mk.injEq, and_true]
  constructor
  · rintro ⟨rfl, rfl, rfl, rfl⟩
    exact ⟨rfl, rfl, rfl, rfl⟩
  · rintro ⟨rfl, rfl, rfl, rfl⟩
    exact ⟨rfl, rfl, rfl, rfl⟩

theorem any_isText (t : Text) (names : List Text) :
    (names.any fun name => isText (.str t) name) = decide (t ∈ names) := by
  rw [Bool.eq_iff_iff, List.any_eq_true, decide_eq_true_iff]
  constructor
  · rintro ⟨name, hname, hequal⟩
    rwa [(isText_str t name).1 hequal]
  · exact fun h => ⟨t, h, (isText_str t t).2 rfl⟩

theorem any_jsonEq_source (s : EvidenceSource) (sources : List EvidenceSource) :
    ((sources.map (·.toDict)).any fun other => jsonEq host s.toDict other) =
      decide (s ∈ sources) := by
  rw [Bool.eq_iff_iff, List.any_map, List.any_eq_true, decide_eq_true_iff]
  constructor
  · rintro ⟨other, hother, hequal⟩
    rwa [(jsonEq_source s other).1 hequal]
  · exact fun h => ⟨s, h, (jsonEq_source s s).2 rfl⟩

theorem unless_ok {c : Bool} {reason : Option Text} :
    (if c = true then throw reason else .ok () : Check Unit) = .ok () ↔ c = false := by
  cases c <;> simp [throw, throwThe, MonadExceptOf.throw]

theorem advisoryCheck_ok {allowed : List Text} {sources : List EvidenceSource}
    {a : SecurityAdvisory} :
    advisoryCheck host allowed (sources.map (·.toDict)) a.toDict = .ok () ↔
      advisoryValid allowed sources a ∧
        (a.introduced = some true → isSevere a.severity = false) := by
  have hmapping : isMapping a.toDict = true := rfl
  have hid : nonemptyString (field a.toDict "id") = !isBlank a.advisoryId := rfl
  have hpackage : field a.toDict "package" = .str a.package := rfl
  have hseverity : field a.toDict "severity" = .str a.severity := rfl
  have hsource : field a.toDict "source" = a.source.toDict := rfl
  have hblank : nonemptyString (.str a.package) = !isBlank a.package := rfl
  have hbool : isBool (field a.toDict "introduced") = a.introduced.isSome := by
    obtain ⟨_, _, _, introduced, _, _⟩ := a
    cases introduced <;> rfl
  have htrue : isTrue (field a.toDict "introduced") = decide (a.introduced = some true) := by
    obtain ⟨_, _, _, introduced, _, _⟩ := a
    cases introduced with
    | none => rfl
    | some b => cases b <;> rfl
  unfold advisoryCheck
  dsimp only
  rw [unit_bind_ok, unit_bind_ok, hmapping, require_ok, require_ok, hid, hpackage, hseverity,
    hsource, hblank, any_isText, any_isText, source_valid, any_jsonEq_source, hbool, htrue]
  unfold advisoryValid
  rw [and_iff_right rfl]
  refine and_congr_right fun _ => unless_ok.trans ?_
  show (decide (a.introduced = some true) && isSevere a.severity) = false ↔ _
  rw [Bool.and_eq_false_imp, decide_eq_true_iff]

theorem advisoriesCheck_ok {allowed : List Text} {sources : List EvidenceSource}
    {advisories : List SecurityAdvisory} :
    advisoriesCheck host allowed (sources.map (·.toDict)) (advisories.map (·.toDict)) = .ok () ↔
      ∀ a ∈ advisories, advisoryValid allowed sources a ∧
        (a.introduced = some true → isSevere a.severity = false) := by
  induction advisories with
  | nil => exact iff_of_true rfl nofun
  | cons a advisories ih =>
    rw [List.map_cons, advisoriesCheck, unit_bind_ok, advisoryCheck_ok, ih, List.forall_mem_cons]

theorem securityCheck_ok {c : CandidateIdentity} {s : SecurityEvidence} {packages : List Text} :
    securityCheck host c.toDict s.toDict packages = .ok () ↔ s.resolution = .resolved ∧
      (s.sources ≠ [] ∧ ∀ source ∈ s.sources, source.valid) ∧
      ∀ a ∈ s.advisories, advisoryValid (c.package :: packages) s.sources a ∧
        (a.introduced = some true → isSevere a.severity = false) := by
  have hresolution : (isMapping s.toDict &&
      isText (field s.toDict "resolution") EvidenceResolution.resolved.value) = true ↔
      s.resolution = .resolved := (isText_str _ _).trans resolution_value
  have hsources : sourcesValid (field s.toDict "sources") = true ↔
      s.sources ≠ [] ∧ ∀ source ∈ s.sources, source.valid := sourcesValid_map s.sources
  have hadvisories : listOf (field s.toDict "advisories") =
      some (s.advisories.map (·.toDict)) := rfl
  have hlist : (listOf (field s.toDict "sources")).getD [] = s.sources.map (·.toDict) := rfl
  have hpackage : textAt c.toDict "package" = c.package := rfl
  unfold securityCheck
  rw [unit_bind_ok, unit_bind_ok, require_ok, require_ok, hresolution, hsources, hadvisories, hlist,
    hpackage]
  dsimp only
  rw [advisoriesCheck_ok]

theorem decisionCheck_ok {d : Decision} :
    decisionCheck host d.toDict = .ok () ↔ d.status = .ready := by
  obtain ⟨status, blockingReasons, waivedReasons, waiver⟩ := d
  cases status with
  | ready => exact iff_of_true rfl rfl
  | blocked =>
    refine iff_of_false ?_ nofun
    cases blockingReasons with
    | nil => exact nofun
    | cons reason reasons => exact nofun

theorem schemaCheck_ok (e : DependencyEvidence) : schemaCheck host e.toDict = .ok () := by
  rfl

/-- The identity fields of a candidate are not blank. -/
structure NonBlank (c : CandidateIdentity) : Prop where
  fingerprint : isBlank c.fingerprint = false
  package : isBlank c.package = false
  currentVersion : isBlank c.currentVersion = false
  targetVersion : isBlank c.targetVersion = false
  baselineSha : isBlank c.baselineSha = false
  ecosystem : isBlank c.ecosystem = false
  packageManager : isBlank c.packageManager = false
  adapterProfile : c.adapterProfile.any (!isBlank ·)
  adapterIdentityFingerprint : c.adapterIdentityFingerprint.any (!isBlank ·)

/-- The adapter of a candidate is the one of its ecosystem and manager. -/
def AdapterMatches (sha256 : Bytes → Text) (c : CandidateIdentity) : Prop :=
  ∃ expected, adapterProfileId c.ecosystem c.packageManager = some expected ∧
    c.adapterProfile = some expected ∧
    ∃ fingerprint, adapterIdentityFingerprint sha256 c.fingerprint c.ecosystem c.packageManager
      expected = some fingerprint ∧ c.adapterIdentityFingerprint = some fingerprint

theorem candidateReasons_eq_nil {sha256 : Bytes → Text} {c : CandidateIdentity} :
    candidateReasons sha256 c = [] ↔ isBlank c.fingerprint = false ∧
      c.currentVersion ≠ c.targetVersion ∧ AdapterMatches sha256 c := by
  unfold candidateReasons AdapterMatches
  rw [List.append_eq_nil_iff, List.append_eq_nil_iff, reasonIf_eq_nil, reasonIf_eq_nil,
    decide_eq_false_iff_not, and_assoc]
  refine and_congr_right fun _ => and_congr_right fun _ => ?_
  cases adapterProfileId c.ecosystem c.packageManager with
  | none => exact iff_of_false nofun fun ⟨_, h, _⟩ => nomatch h
  | some expected =>
    dsimp only
    by_cases hprofile : c.adapterProfile = some expected
    · rw [if_neg (not_not.2 hprofile)]
      cases hidentity : adapterIdentityFingerprint sha256 c.fingerprint c.ecosystem
          c.packageManager expected with
      | none => simp [hidentity]
      | some fingerprint =>
        simp [hidentity, hprofile, reasonIf_eq_nil]
    · rw [if_pos hprofile]
      simp only [reduceCtorEq, Option.some.injEq, exists_eq_left', false_iff, not_and]
      exact fun h => absurd h hprofile

theorem adapterCheck_ok {c : CandidateIdentity} (h : NonBlank c) :
    adapterCheck host c.toDict = .ok () ↔ AdapterMatches host.sha256 c := by
  obtain ⟨profile, hprofile, _⟩ := (Option.any_eq_true _ _).1 h.adapterProfile
  obtain ⟨identity, hidentity, _⟩ := (Option.any_eq_true _ _).1 h.adapterIdentityFingerprint
  have hp : textAt c.toDict "adapterProfile" = profile := by
    obtain ⟨_, _, _, _, _, _, _, _, _⟩ := c
    cases hprofile
    rfl
  have hi : textAt c.toDict "adapterIdentityFingerprint" = identity := by
    obtain ⟨_, _, _, _, _, _, _, _, _⟩ := c
    cases hidentity
    rfl
  have hecosystem : textAt c.toDict "ecosystem" = c.ecosystem := rfl
  have hmanager : textAt c.toDict "packageManager" = c.packageManager := rfl
  have hfingerprint : textAt c.toDict "fingerprint" = c.fingerprint := rfl
  unfold adapterCheck AdapterMatches
  rw [hp, hi, hecosystem, hmanager, hfingerprint, hprofile, hidentity]
  cases adapterProfileId c.ecosystem c.packageManager with
  | none => exact iff_of_false nofun fun ⟨_, h, _⟩ => nomatch h
  | some expected =>
    dsimp only
    rw [unit_bind_ok, require_ok, decide_eq_true_iff]
    cases hsha : adapterIdentityFingerprint host.sha256 c.fingerprint c.ecosystem
        c.packageManager expected with
    | none => simp [hsha, require_ok]
    | some fingerprint =>
      simp only [require_ok, decide_eq_true_iff, Option.some.injEq, hsha, exists_eq_left',
        exists_eq_left,
        eq_comm (a := fingerprint)]

theorem candidateCheck_ok {e : DependencyEvidence} (h : NonBlank e.candidate) :
    candidateCheck host e.toDict = .ok () ↔ candidateReasons host.sha256 e.candidate = [] := by
  have hmapping : isMapping e.candidate.toDict = true := rfl
  have hrequired : (requiredCandidate.all fun key =>
      nonemptyString (field e.candidate.toDict key)) =
      (!isBlank e.candidate.fingerprint && (!isBlank e.candidate.package &&
        (!isBlank e.candidate.currentVersion && (!isBlank e.candidate.targetVersion &&
          (!isBlank e.candidate.baselineSha && (!isBlank e.candidate.ecosystem &&
            (!isBlank e.candidate.packageManager &&
              (nonemptyString (optionText e.candidate.adapterProfile) &&
                (nonemptyString (optionText e.candidate.adapterIdentityFingerprint) &&
                  true))))))))) := rfl
  have htop : (duplicatedIdentity.all fun names => nonemptyString (field e.toDict names.1)) =
      (!isBlank e.candidate.fingerprint &&
        (nonemptyString (optionText e.candidate.adapterProfile) &&
          (nonemptyString (optionText e.candidate.adapterIdentityFingerprint) && true))) := rfl
  have hsame : (duplicatedIdentity.all fun names =>
      jsonEq host (field e.toDict names.1) (field e.candidate.toDict names.2)) =
      (isText (.str e.candidate.fingerprint) e.candidate.fingerprint &&
        (jsonEq host (optionText e.candidate.adapterProfile)
            (optionText e.candidate.adapterProfile) &&
          (jsonEq host (optionText e.candidate.adapterIdentityFingerprint)
            (optionText e.candidate.adapterIdentityFingerprint) && true))) := rfl
  have hcandidate : field e.toDict "candidate" = e.candidate.toDict := rfl
  have hcurrent : textAt e.candidate.toDict "currentVersion" = e.candidate.currentVersion := rfl
  have htarget : textAt e.candidate.toDict "targetVersion" = e.candidate.targetVersion := rfl
  unfold candidateCheck
  dsimp only
  rw [hcandidate, unit_bind_ok, unit_bind_ok, unit_bind_ok, unit_bind_ok, require_ok, require_ok,
    require_ok, require_ok, hmapping, hrequired, htop, hsame, hcurrent, htarget,
    adapterCheck_ok h, candidateReasons_eq_nil]
  simp only [nonemptyString_optionText, h.fingerprint, h.package, h.currentVersion,
    h.targetVersion, h.baselineSha, h.ecosystem, h.packageManager, h.adapterProfile,
    h.adapterIdentityFingerprint, Bool.not_false, Bool.and_self, true_and,
    (isText_str e.candidate.fingerprint e.candidate.fingerprint).2 rfl,
    (jsonEq_optionText e.candidate.adapterProfile e.candidate.adapterProfile).2 rfl,
    (jsonEq_optionText e.candidate.adapterIdentityFingerprint
      e.candidate.adapterIdentityFingerprint).2 rfl, ne_eq, decide_eq_true_iff]

/-! ## The gate and the decision -/

/-- A release that the gate takes. -/
def ReleaseProven (c : CandidateIdentity) (r : ReleaseEvidence) : Prop :=
  r.resolution = .resolved ∧ r.canonical ∧ r.sources ≠ [] ∧ (∀ s ∈ r.sources, s.valid) ∧
    r.version = c.targetVersion

/-- A lock that the gate takes, with the packages of its transitive changes. -/
def LockProven (c : CandidateIdentity) (l : LockResolution) (packages : List Text) : Prop :=
  l.resolution = .resolved ∧ l.directChanges = [directChange c] ∧
    transitivePackages c.package l.transitiveChanges [] = some packages ∧ l.peerConflicts = []

/-- Security data that the gate takes beside these packages. -/
def SecurityProven (c : CandidateIdentity) (s : SecurityEvidence) (packages : List Text) : Prop :=
  s.resolution = .resolved ∧ s.sources ≠ [] ∧ (∀ source ∈ s.sources, source.valid) ∧
    ∀ a ∈ s.advisories, advisoryValid (c.package :: packages) s.sources a ∧
      (a.introduced = some true → isSevere a.severity = false)

/-- The candidate, the lock and the security data leave nothing to block. -/
structure BaseProven (sha256 : Bytes → Text) (e : DependencyEvidence) : Prop where
  transition : e.candidate.currentVersion ≠ e.candidate.targetVersion
  adapter : AdapterMatches sha256 e.candidate
  lock : ∃ packages, LockProven e.candidate e.lock packages ∧
    SecurityProven e.candidate e.security packages

/-- A release or a usage family is unknown. -/
def HasUnknown (e : DependencyEvidence) : Prop :=
  e.release.resolution = .unknown ∨ ∃ named ∈ e.usage.findings, named.2.status = .unknown

/-- What is unknown, and it is something, is waived, and everything else is proven. -/
structure WaivedThrough (sha256 : Bytes → Text) (e : DependencyEvidence)
    (waiver : Option EvidenceWaiver) : Prop where
  base : BaseProven sha256 e
  wellFormed : ∀ w, waiver = some w → w.valid
  unknown : HasUnknown e
  release : ReleaseProven e.candidate e.release ∨
    e.release.resolution = .unknown ∧ Waived waiver "release".toList
  usage : ∀ named ∈ e.usage.findings, named.2.status = .unknown → Waived waiver (usageKey named.1)

/-- What the gate accepts of serialized evidence. -/
theorem gate_accepts_iff {e : DependencyEvidence} (h : NonBlank e.candidate) :
    Accepts host e.toDict ↔ BaseProven host.sha256 e ∧ ReleaseProven e.candidate e.release ∧
      (∀ named ∈ e.usage.findings, named.2.status ≠ .unknown) ∧ e.decision.status = .ready := by
  have hcandidate : field e.toDict "candidate" = e.candidate.toDict := rfl
  have hrelease : field e.toDict "release" = e.release.toDict := rfl
  have husage : field e.toDict "usage" = e.usage.toDict := rfl
  have hlock : field e.toDict "lock" = e.lock.toDict := rfl
  have hsecurity : field e.toDict "security" = e.security.toDict := rfl
  have hdecision : field e.toDict "decision" = e.decision.toDict := rfl
  rw [accepts_iff]
  unfold gateCheck
  dsimp only
  rw [unit_bind_ok, unit_bind_ok, unit_bind_ok, unit_bind_ok, except_bind_eq_ok, hcandidate,
    hrelease, husage, hlock, hsecurity, hdecision, candidateCheck_ok h, candidateReasons_eq_nil,
    releaseCheck_ok, usageCheck_ok]
  constructor
  · rintro ⟨_, ⟨_, htransition, hadapter⟩,
      ⟨hresolved, ⟨⟨hsources, hvalid⟩, hcanonical⟩, _, hversion⟩, hknown, packages, hlocked, hrest⟩
    obtain ⟨hsecured, hready⟩ := unit_bind_ok.1 hrest
    obtain ⟨hresolution, ⟨hsome, hall⟩, hadvisories⟩ := securityCheck_ok.1 hsecured
    exact ⟨⟨htransition, hadapter, packages, lockCheck_ok.1 hlocked,
        hresolution, hsome, hall, hadvisories⟩,
      ⟨hresolved, hcanonical, hsources, hvalid, hversion⟩, hknown, decisionCheck_ok.1 hready⟩
  · rintro ⟨⟨htransition, hadapter, packages, hlocked, hresolution, hsome, hall, hadvisories⟩,
      ⟨hresolved, hcanonical, hsources, hvalid, hversion⟩, hknown, hready⟩
    refine ⟨schemaCheck_ok e, ⟨h.fingerprint, htransition, hadapter⟩,
      ⟨hresolved, ⟨⟨hsources, hvalid⟩, hcanonical⟩, ?_, hversion⟩, hknown, packages,
      lockCheck_ok.2 hlocked, unit_bind_ok.2 ⟨securityCheck_ok.2
        ⟨hresolution, ⟨hsome, hall⟩, hadvisories⟩, decisionCheck_ok.2 hready⟩⟩
    rw [hversion]
    exact h.targetVersion

theorem lockSecurity_iff {c : CandidateIdentity} {l : LockResolution} {s : SecurityEvidence} :
    (lockReasons c l = [] ∧ securityReasons c l s = .ok []) ↔
      ∃ packages, LockProven c l packages ∧ SecurityProven c s packages := by
  constructor
  · rintro ⟨hlock, hsecurity⟩
    obtain ⟨hresolved, hdirect, ⟨packages, hpackages⟩, hpeers⟩ := lockReasons_eq_nil.1 hlock
    obtain ⟨hsecured, hsources, hvalid, transitive, htransitive, hadvisories⟩ :=
      securityReasons_eq_nil hsecurity
    unfold transitiveOf at htransitive
    rw [if_pos hresolved, hpackages] at htransitive
    cases htransitive
    exact ⟨packages, ⟨hresolved, hdirect, hpackages, hpeers⟩, hsecured, hsources, hvalid,
      hadvisories⟩
  · rintro ⟨packages, ⟨hresolved, hdirect, hpackages, hpeers⟩, hsecured, hsources, hvalid,
      hadvisories⟩
    refine ⟨lockReasons_eq_nil.2 ⟨hresolved, hdirect, ⟨packages, hpackages⟩, hpeers⟩, ?_⟩
    unfold securityReasons transitiveOf
    rw [if_neg (not_not.2 hsecured), if_pos hresolved, hpackages]
    dsimp only
    rw [Except.ok.injEq, List.append_eq_nil_iff, reasonIf_eq_nil, List.flatMap_eq_nil_iff]
    exact ⟨by simpa [hsources] using hvalid,
      fun a ha => advisoryReasons_eq_nil.2 (hadvisories a ha)⟩

/-- When the decision is ready. -/
theorem ready_iff {sha256 : Bytes → Text} {e : DependencyEvidence}
    {waiver : Option EvidenceWaiver} (h : NonBlank e.candidate)
    (hdecision : evaluateDependencyEvidence sha256 e waiver = .ok e.decision) :
    e.decision.status = .ready ↔ BaseProven sha256 e ∧ (∀ w, waiver = some w → w.valid) ∧
      (ReleaseProven e.candidate e.release ∨
        e.release.resolution = .unknown ∧ Waived waiver "release".toList) ∧
      ∀ named ∈ e.usage.findings, named.2.status = .unknown → Waived waiver (usageKey named.1) := by
  obtain ⟨security, hsecurity, hstatus, _⟩ := evaluate_ok hdecision
  have hwaiver : (waiver.isSome && (waiver.filter (·.valid)).isNone) = false ↔
      ∀ w, waiver = some w → w.valid := by
    cases waiver with
    | none => simp
    | some w => by_cases hvalid : w.valid <;> simp [Option.filter, hvalid]
  have hboth := @lockSecurity_iff e.candidate e.lock e.security
  rw [hsecurity, Except.ok.injEq] at hboth
  rw [hstatus, candidateReasons_eq_nil, hwaiver, releaseBlocks_reasons]
  simp only [findingBlocks_reasons]
  constructor
  · rintro ⟨⟨_, htransition, hadapter⟩, hrelease, husage, hlock, hsecure, hwaived⟩
    exact ⟨⟨htransition, hadapter, hboth.1 ⟨hlock, hsecure⟩⟩, hwaived, hrelease, husage⟩
  · rintro ⟨⟨htransition, hadapter, hproven⟩, hwaived, hrelease, husage⟩
    exact ⟨⟨h.fingerprint, htransition, hadapter⟩, hrelease, husage, (hboth.2 hproven).1,
      (hboth.2 hproven).2, hwaived⟩

/-- The gate agrees with the decision, before and after a JSON round trip, exactly when nothing
that is unknown was waived through. -/
theorem gate_agrees_iff (host : GateHost) (e : DependencyEvidence) (waiver : Option EvidenceWaiver)
    (h : NonBlank e.candidate)
    (hdecision : evaluateDependencyEvidence host.sha256 e waiver = .ok e.decision) :
    ((Accepts host e.toDict ↔ e.decision.status = .ready) ∧
      ∃ payload, loads (dumps compact e.toDict) = some payload ∧
        (Accepts host payload ↔ e.decision.status = .ready)) ↔
      ¬ WaivedThrough host.sha256 e waiver := by
  have hready := ready_iff h hdecision
  have hgate := @gate_accepts_iff host e h
  constructor
  · rintro ⟨hagree, _⟩ hthrough
    obtain ⟨_, hproven, hknown, _⟩ := hgate.1 (hagree.2 (hready.2
      ⟨hthrough.base, hthrough.wellFormed, hthrough.release, hthrough.usage⟩))
    rcases hthrough.unknown with hunknown | ⟨named, hnamed, hunknown⟩
    · rw [hproven.1] at hunknown
      cases hunknown
    · exact hknown named hnamed hunknown
  · intro hthrough
    have hagree : Accepts host e.toDict ↔ e.decision.status = .ready := by
      refine ⟨fun haccepts => (hgate.1 haccepts).2.2.2, fun hstatus => ?_⟩
      obtain ⟨hbase, hwellFormed, hrelease, husage⟩ := hready.1 hstatus
      have hknown : ¬ HasUnknown e := fun hunknown =>
        hthrough ⟨hbase, hwellFormed, hunknown, hrelease, husage⟩
      refine hgate.2 ⟨hbase, ?_, fun named hnamed hunknown => ?_, hstatus⟩
      swap
      · exact hknown (.inr ⟨named, hnamed, hunknown⟩)
      exact hrelease.resolve_right fun hunknown => hknown (.inl hunknown.1)
    exact ⟨hagree, _, loads_toDict e, hagree⟩

end Accept

/-! ## A waived release -/

def sampleGateHost : GateHost where
  sha256 := sampleSha256
  floatEq _ _ := false
  str _ := []

def sampleCandidate : CandidateIdentity :=
  { sampleIdentity with
    adapterIdentityFingerprint := some ("sha256:".toList ++ sampleSha256 []) }

/-- Everything is proven. -/
def provenEvidence : DependencyEvidence where
  candidate := sampleCandidate
  collectedAt := "2026-08-03T00:00:00Z".toList
  release := {
    resolution := .resolved
    version := "4.17.22".toList
    sources := [sampleSource]
    canonical := true }
  usage := ⟨⟨.proven, [], [], []⟩, ⟨.notFound, [], [], []⟩, ⟨.notFound, [], [], []⟩,
    ⟨.proven, [], [], []⟩, []⟩
  lock := { resolution := .resolved, directChanges := [directChange sampleCandidate] }
  security := { resolution := .resolved, sources := [sampleSource] }
  decision := { status := .ready }

def sampleWaiver : EvidenceWaiver where
  waiverId := "waiver-2".toList
  actor := "human-1".toList
  reason := "release page unavailable; reviewed manually".toList
  approvedAt := "2026-08-03T00:00:00Z".toList
  scope := ["release".toList]

/-- The release is unknown, and waived. -/
def waivedEvidence : DependencyEvidence :=
  { provenEvidence with
    release := {
      resolution := .unknown
      version := "4.17.22".toList
      reason := "release notes not found".toList }
    decision := {
      status := .ready
      waivedReasons := ["release notes not found".toList]
      waiver := some sampleWaiver } }

theorem sampleCandidate_nonBlank : NonBlank sampleCandidate :=
  ⟨rfl, rfl, rfl, rfl, rfl, rfl, rfl, rfl, rfl⟩

/-- `gate_agrees_iff` of evidence without a waiver. -/
theorem gate_agrees_proven :
    (Accepts sampleGateHost provenEvidence.toDict ↔ provenEvidence.decision.status = .ready) ∧
      ∃ payload, loads (dumps compact provenEvidence.toDict) = some payload ∧
        (Accepts sampleGateHost payload ↔ provenEvidence.decision.status = .ready) := by
  refine (gate_agrees_iff sampleGateHost provenEvidence none sampleCandidate_nonBlank rfl).2 ?_
  rintro ⟨_, _, hunknown, _, _⟩
  rcases hunknown with hrelease | ⟨named, hnamed, hstatus⟩
  · cases hrelease
  · have hknown : ∀ named ∈ provenEvidence.usage.findings, named.2.status ≠ .unknown := by decide
    exact hknown named hnamed hstatus

/-- Evidence that is ready by an explicit waiver is refused by the gate. -/
theorem waived_refused :
    NonBlank waivedEvidence.candidate ∧
      evaluateDependencyEvidence sampleGateHost.sha256 waivedEvidence (some sampleWaiver) =
        .ok waivedEvidence.decision ∧
      waivedEvidence.decision.status = .ready ∧
      dependencyGateInput sampleGateHost waivedEvidence.toDict =
        some (false, "release evidence is not resolved".toList) ∧
      ¬ (Accepts sampleGateHost waivedEvidence.toDict ↔
        waivedEvidence.decision.status = .ready) := by
  have hrefused : dependencyGateInput sampleGateHost waivedEvidence.toDict =
      some (false, "release evidence is not resolved".toList) := rfl
  refine ⟨sampleCandidate_nonBlank, rfl, rfl, hrefused, fun hagree => ?_⟩
  obtain ⟨message, haccepted⟩ := hagree.2 rfl
  rw [hrefused] at haccepted
  cases haccepted

end Agentrail.Evidence
