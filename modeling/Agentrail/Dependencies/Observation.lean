import Agentrail.Dependencies.NpmSemver

/-!
# The observation loop (`agentrail/dependencies/observation.py`)

`_observe_entries` takes the direct dependencies of a snapshot one after the other.  Each is
refused, which refuses the whole observation, or left unchanged, or becomes a candidate with
the version that the target adapter chose among those offered to it.  Main results:

* `observeEntry_ok`, `observeEntry_unchanged`: what one dependency has gone through;
* `candidates_of_run`, `accepted_of_run`, `unchanged_of_run`, `run_of_accepted`: what a run
  returns.
-/

namespace Agentrail.Observation

open Py Versions NpmSemver Regex
open GoModules (isLowerOrDigit)

/-! ## Data -/

inductive ManagerName where
  | npm | pnpm | poetry | uv | cargo | composer | goModules
  deriving DecidableEq, Repr

def ManagerName.value : ManagerName → Text
  | .npm => "npm".toList
  | .pnpm => "pnpm".toList
  | .poetry => "poetry".toList
  | .uv => "uv".toList
  | .cargo => "cargo".toList
  | .composer => "composer".toList
  | .goModules => "go-modules".toList

structure Entry where
  package : Text
  kind : Text
  specifier : Text
  currentVersion : Text
  manifestPath : Text
  lockfilePath : Text
  deriving DecidableEq

structure ManagerAdapter where
  name : ManagerName
  ecosystem : Text
  manifestPath : Text
  lockfilePath : Text
  deriving DecidableEq

structure RegistryPackage where
  availableVersions : List Text
  yankedVersions : List Text := []

/-- What a registry answers; `.error` is the text of the exception it raises. -/
structure RegistryAdapter where
  packageMetadata : Text → Except Text (Option RegistryPackage)
  /-- `getattr(registry, "package_metadata_source_url", None)` -/
  packageMetadataSourceUrl : Option (Text → Except Text Text) := none

/-- `choose_target_version(package, current_version, specifier, available_versions)`. -/
abbrev TargetVersionAdapter := Text → Text → Text → List Text → Except Text (Option Text)

structure DependencyCandidate where
  package : Text
  dependencyKind : Text
  specifier : Text
  currentVersion : Text
  targetVersion : Text
  manifestPath : Text
  lockfilePath : Text
  baselineSha : Text
  ecosystem : Text
  packageManager : Text
  deriving DecidableEq

inductive ObservationResult where
  | candidates (candidates : List DependencyCandidate) (reasons : List Text)
  | unchanged (reasons : List Text)
  | unsupported (reasons : List Text)
  | insufficientEvidence (reasons : List Text)
  deriving DecidableEq

/-- What escapes from an observation. -/
inductive Raised where
  | value (error : PyError)
  | assertion
  deriving DecidableEq

/-- What ends the round of one dependency without a candidate. -/
inductive Stop where
  | insufficient (reason : Text)
  | unchanged
  | raised (error : Raised)
  deriving DecidableEq

def require (ok : Bool) (reason : Text) : Except Stop Unit :=
  if ok then .ok () else .error (.insufficient reason)

def liftPy {α : Type} : Except PyError α → Except Stop α
  | .ok a => .ok a
  | .error error => .error (.raised (.value error))

/-! ## The locked version -/

/-- `[a-z0-9][a-z0-9._-]*`. -/
def npmNamePart : Text → Bool
  | [] => false
  | c :: t => isLowerOrDigit c && t.all fun d => isLowerOrDigit d || d = '.' || d = '_' || d = '-'

/-- `_NPM_PACKAGE`. -/
def npmPackage : Text → Bool
  | '@' :: t =>
    match partitionAt ['/'] t with
    | some (scope, name) => npmNamePart scope && npmNamePart name
    | none => false
  | t => npmNamePart t

/-- `_EXACT_NPM_SEMVER`. -/
def exactNpmSemver (t : Text) : Bool := (semverGroups buildText buildText t).isSome

/-- `_UNSAFE_NPM_SPECIFIER`. -/
def unsafeNpmSpecifierPattern : Re := .seq
  (.any [word "file", word "link", word "workspace", word "git+", word "git", word "path",
    word "https", word "http", word "npm"]) (word ":")

def unsafeNpmSpecifier (specifier : Text) : Bool :=
  (unsafeNpmSpecifierPattern.run ⟨[], specifier, []⟩ some).isSome

def npmLockedVersion (entry : Entry) : Except Stop Unit := do
  require (npmPackage entry.package)
    ("npm package name is outside npm_package_lock_only_v1: ".toList ++ entry.package)
  require (exactNpmSemver entry.currentVersion)
    ("locked npm version for ".toList ++ entry.package ++ " must be exact semver".toList)
  require (!unsafeNpmSpecifier entry.specifier)
    (entry.package ++ " uses an unsupported local or alias specifier".toList)
  match npmConstraintMatches entry.specifier entry.currentVersion with
  | (_, some constraintError) => .error (.insufficient
      ("unsupported npm semver constraint for ".toList ++ entry.package ++ ": ".toList ++
        constraintError))
  | (currentMatches, none) =>
    require (currentMatches = some true)
      ("locked version for ".toList ++ entry.package ++
        " does not satisfy its npm semver constraint".toList)

def lockedVersion (manager : ManagerName) (entry : Entry) : Except Stop Unit :=
  match manager with
  | .goModules => require (stableGoVersion entry.currentVersion).isSome
      ("locked Go version for ".toList ++ entry.package ++
        " must be a canonical stable release".toList)
  | .composer => require (composerConstraintMatches entry.specifier entry.currentVersion)
      ("locked Composer version for ".toList ++ entry.package ++
        " does not satisfy its constraint".toList)
  | _ => do
    require (Versions.parseVersion entry.currentVersion).isSome
      ("locked version for ".toList ++ entry.package ++ " is not safely parseable".toList)
    if manager = .npm then npmLockedVersion entry else .ok ()

/-! ## The registry -/

/-- The check of the source of Go metadata. -/
def sourceIdentity (manager : ManagerName) (registry : RegistryAdapter) (entry : Entry) :
    Except Stop Unit :=
  if manager ≠ .goModules then .ok ()
  else match registry.packageMetadataSourceUrl with
    | none => .error (.insufficient
        ("Go registry source identity for ".toList ++ entry.package ++ " is unavailable".toList))
    | some sourceFor =>
      match sourceFor entry.package with
      | .error exc => .error (.insufficient
          ("Go registry source identity for ".toList ++ entry.package ++
            " is unavailable: ".toList ++ exc))
      | .ok sourceUrl => do
        let listUrl ← liftPy (goProxyListUrl entry.package)
        require (sourceUrl = listUrl)
          ("Go registry source identity for ".toList ++ entry.package ++
            " is not canonical".toList)

def registryData (registry : RegistryAdapter) (entry : Entry) : Except Stop RegistryPackage :=
  match registry.packageMetadata entry.package with
  | .error exc => .error (.insufficient
      ("registry data for ".toList ++ entry.package ++ " is unavailable: ".toList ++ exc))
  | .ok none => .error (.insufficient
      ("registry data for ".toList ++ entry.package ++ " is unavailable".toList))
  | .ok (some metadata) =>
    if metadata.availableVersions = [] then .error (.insufficient
      ("registry data for ".toList ++ entry.package ++ " is unavailable".toList))
    else .ok metadata

/-- A version that `_parse_version` puts past the locked one. -/
def comesAfter (current version : Text) : Bool :=
  (compareVersions current version).any (· < 0)

def comesAfterGo (current version : Text) : Bool :=
  match compareGoVersions current version with
  | .ok comparison => comparison < 0
  | .error _ => false

def offeredGo (entry : Entry) (metadata : RegistryPackage) : Except Stop (List Text) := do
  require (metadata.yankedVersions = [])
    ("Go proxy data for ".toList ++ entry.package ++
      " contains unsupported yanked metadata".toList)
  match validateGoProxyVersions entry.package metadata.availableVersions with
  | some exc => .error (.insufficient
      ("Go proxy data for ".toList ++ entry.package ++ " is malformed: ".toList ++ exc))
  | none =>
    require (entry.currentVersion ∈ metadata.availableVersions)
      ("Go proxy data for ".toList ++ entry.package ++
        " does not contain the exact locked current version".toList)
    let available ← liftPy (sameGoMajorVersions entry.currentVersion metadata.availableVersions)
    if available.any (comesAfterGo entry.currentVersion) then .ok available
    else .error .unchanged

def offeredUv (entry : Entry) (metadata : RegistryPackage) : Except Stop (List Text) := do
  let available := metadata.availableVersions.filter fun version => (uvRelease version).isSome
  require (available ≠ [])
    ("registry versions for ".toList ++ entry.package ++
      " contain no stable numeric releases".toList)
  .ok available

def unparseable (entry : Entry) : Text :=
  "registry versions for ".toList ++ entry.package ++ " are unparseable".toList

def isRelease (version : Text) : Bool :=
  (Versions.parseVersion version).any fun parsed => parsed.prerelease = []

def offeredNpm (entry : Entry) (metadata : RegistryPackage) : Except Stop (List Text) := do
  require (metadata.availableVersions.all fun version => (Versions.parseVersion version).isSome)
    (unparseable entry)
  let compatible := metadata.availableVersions.filter fun version =>
    isRelease version && npmConstraintMatches entry.specifier version = (some true, none)
  if compatible.any (comesAfter entry.currentVersion) then .ok compatible
  else .error .unchanged

def offeredCargo (entry : Entry) (metadata : RegistryPackage) : Except Stop (List Text) := do
  require (metadata.availableVersions.all fun version => (stableVersion version).isSome)
    (unparseable entry)
  require (entry.currentVersion ∈ metadata.availableVersions)
    ("registry data for ".toList ++ entry.package ++
      " does not contain the exact locked Cargo version".toList)
  require (entry.currentVersion ∉ metadata.yankedVersions)
    ("locked Cargo version for ".toList ++ entry.package ++ " is yanked".toList)
  let available := metadata.availableVersions.filter (· ∉ metadata.yankedVersions)
  require (available ≠ [])
    ("registry data for ".toList ++ entry.package ++ " has no non-yanked releases".toList)
  require (stableVersion entry.currentVersion).isSome
    ("locked Cargo version for ".toList ++ entry.package ++ " must be stable semver".toList)
  require (cargoConstraintMatches entry.specifier entry.currentVersion = (true, none))
    ("locked Cargo version for ".toList ++ entry.package ++
      " does not satisfy its Cargo semver constraint".toList)
  let compatible := available.filter fun version =>
    cargoConstraintMatches entry.specifier version = (true, none)
  require (compatible ≠ [])
    ("registry data for ".toList ++ entry.package ++
      " has no compatible stable Cargo releases".toList)
  .ok compatible

def offeredComposer (entry : Entry) (metadata : RegistryPackage) : Except Stop (List Text) := do
  let exact := metadata.availableVersions.filter fun version =>
    (composerConstraintParts version).any fun parsed => parsed.1 = .exact
  require (exact ≠ []) (unparseable entry)
  require (entry.currentVersion ∈ exact)
    ("Packagist data for ".toList ++ entry.package ++
      " does not contain the exact locked Composer version".toList)
  require (entry.currentVersion ∉ metadata.yankedVersions)
    ("locked Composer version for ".toList ++ entry.package ++ " is yanked".toList)
  let available := exact.filter fun version =>
    version ∉ metadata.yankedVersions && composerConstraintMatches entry.specifier version
  require (available ≠ [])
    ("Packagist data for ".toList ++ entry.package ++
      " has no compatible non-yanked stable releases".toList)
  .ok available

def offeredOther (entry : Entry) (metadata : RegistryPackage) : Except Stop (List Text) := do
  require (metadata.availableVersions.all fun version => (Versions.parseVersion version).isSome)
    (unparseable entry)
  .ok metadata.availableVersions

/-- The versions that the target adapter may choose from. -/
def offered (manager : ManagerName) (entry : Entry) (metadata : RegistryPackage) :
    Except Stop (List Text) :=
  match manager with
  | .goModules => offeredGo entry metadata
  | .uv => offeredUv entry metadata
  | .npm => offeredNpm entry metadata
  | .cargo => offeredCargo entry metadata
  | .composer => offeredComposer entry metadata
  | .poetry | .pnpm => offeredOther entry metadata

/-! ## The target -/

def targetIsParseable (manager : ManagerName) (target : Text) : Bool :=
  match manager with
  | .goModules => (stableGoVersion target).isSome
  | .composer => (composerConstraintParts target).isSome
  | _ => (Versions.parseVersion target).isSome

/-- The checks of a target that only one manager makes. -/
def targetChecks (manager : ManagerName) (entry : Entry) (target : Text) : Except Stop Unit :=
  match manager with
  | .npm => require (exactNpmSemver target)
      ("target npm version for ".toList ++ entry.package ++ " must be exact semver".toList)
  | .uv => do
    let violates :=
      "target version for ".toList ++ entry.package ++ " violates pyproject.toml".toList
    require (uvRelease target).isSome violates
    let comparison ← liftPy (compareUvReleases target (entry.specifier.drop 2))
    require (0 ≤ comparison) violates
  | .cargo => require (cargoConstraintMatches entry.specifier target = (true, none))
      ("target version for ".toList ++ entry.package ++
        " does not satisfy its Cargo semver constraint".toList)
  | .composer => require (composerConstraintMatches entry.specifier target)
      ("target version for ".toList ++ entry.package ++
        " does not satisfy its Composer constraint".toList)
  | .goModules =>
    match GoModules.validateGoModuleVersion (.str entry.package) (.str target) with
    | some versionError => .error (.insufficient
        ("target Go version for ".toList ++ entry.package ++ " is invalid: ".toList ++
          versionError.toList))
    | none => .ok ()
  | .poetry | .pnpm => .ok ()

def chosenTarget (manager : ManagerName) (targetVersions : TargetVersionAdapter) (entry : Entry)
    (available : List Text) : Except Stop Text :=
  match targetVersions entry.package entry.currentVersion entry.specifier available with
  | .error exc => .error (.insufficient
      ("target version for ".toList ++ entry.package ++ " is unavailable: ".toList ++ exc))
  | .ok none => .error (.insufficient
      ("target version for ".toList ++ entry.package ++ " is unavailable".toList))
  | .ok (some target) => do
    require (target ∈ available && targetIsParseable manager target)
      ("target version for ".toList ++ entry.package ++ " is unavailable".toList)
    targetChecks manager entry target
    .ok target

def compareTarget (manager : ManagerName) (entry : Entry) (target : Text) : Except Stop Int :=
  if manager = .goModules then liftPy (compareGoVersions entry.currentVersion target)
  else match compareVersions entry.currentVersion target with
    | some comparison => .ok comparison
    | none => .error (.raised .assertion)

/-! ## The loop -/

/-- One round of the loop: the target of a candidate, or why there is none. -/
def observeEntry (manager : ManagerName) (registry : RegistryAdapter)
    (targetVersions : TargetVersionAdapter) (entry : Entry) : Except Stop Text := do
  lockedVersion manager entry
  sourceIdentity manager registry entry
  let metadata ← registryData registry entry
  let available ← offered manager entry metadata
  let target ← chosenTarget manager targetVersions entry available
  let comparison ← compareTarget manager entry target
  if comparison = 0 then .error .unchanged
  else if comparison > 0 then .error (.insufficient
    ("target version for ".toList ++ entry.package ++
      " is older than the locked version".toList))
  else .ok target

/-- `_make_candidate`. -/
def makeCandidate (baselineSha : Text) (manager : ManagerAdapter) (entry : Entry) (target : Text) :
    DependencyCandidate where
  package := entry.package
  dependencyKind := entry.kind
  specifier := entry.specifier
  currentVersion := entry.currentVersion
  targetVersion := target
  manifestPath := entry.manifestPath
  lockfilePath := entry.lockfilePath
  baselineSha := baselineSha
  ecosystem := manager.ecosystem
  packageManager := manager.name.value

def unchangedReasons (unchanged : List Text) : List Text :=
  unchanged.map fun name => "unchanged: ".toList ++ name

def removePrefix (start t : Text) : Text := if start.isPrefixOf t then t.drop start.length else t

/-- `_insufficient` and `_unsupported`. -/
def insufficient (reason : Text) : ObservationResult :=
  .insufficientEvidence [removePrefix "insufficient: ".toList reason]

def unsupported (reason : Text) : ObservationResult :=
  .unsupported [removePrefix "unsupported: ".toList reason]

/-- `_observe_entries`, with the candidates and the unchanged packages so far. -/
def observeEntries (baselineSha : Text) (manager : ManagerAdapter) (registry : RegistryAdapter)
    (targetVersions : TargetVersionAdapter) :
    List Entry → List DependencyCandidate → List Text → Except Raised ObservationResult
  | [], candidates, unchanged =>
    .ok (if candidates = [] then .unchanged (unchangedReasons unchanged)
      else .candidates candidates (unchangedReasons unchanged))
  | entry :: entries, candidates, unchanged =>
    match observeEntry manager.name registry targetVersions entry with
    | .ok target => observeEntries baselineSha manager registry targetVersions entries
        (candidates ++ [makeCandidate baselineSha manager entry target]) unchanged
    | .error .unchanged => observeEntries baselineSha manager registry targetVersions entries
        candidates (unchanged ++ [entry.package])
    | .error (.insufficient reason) => .ok (insufficient reason)
    | .error (.raised error) => .error error

/-! ## What a round has gone through -/

@[simp] theorem require_eq_ok (ok : Bool) (reason : Text) (u : Unit) :
    require ok reason = .ok u ↔ ok = true := by
  cases ok <;> simp [require]

@[simp] theorem require_ne_unchanged (ok : Bool) (reason : Text) :
    require ok reason ≠ .error .unchanged := by
  cases ok <;> simp [require]

@[simp] theorem liftPy_eq_ok {α : Type} (x : Except PyError α) (a : α) :
    liftPy x = .ok a ↔ x = .ok a := by
  cases x <;> simp [liftPy]

@[simp] theorem liftPy_ne_unchanged {α : Type} (x : Except PyError α) :
    liftPy x ≠ .error .unchanged := by
  cases x <;> simp [liftPy]

theorem except_bind_eq_error {ε α β : Type} (x : Except ε α) (f : α → Except ε β) (e : ε) :
    (x >>= f) = .error e ↔ x = .error e ∨ ∃ a, x = .ok a ∧ f a = .error e := by
  cases x <;> simp [bind, Except.bind]

/-- What holds of every version that is offered for an entry. -/
def OfferedFor (manager : ManagerName) (entry : Entry) (metadata : RegistryPackage)
    (version : Text) : Prop :=
  version ∈ metadata.availableVersions ∧
    match manager with
    | .npm => isRelease version ∧ NpmAdmits entry.specifier version
    | .uv => (uvRelease version).isSome
    | .cargo => version ∉ metadata.yankedVersions ∧ CargoAdmits entry.specifier version
    | .composer => version ∉ metadata.yankedVersions ∧ ComposerAdmits entry.specifier version
    | .goModules => ∃ a b, stableGoVersion entry.currentVersion = some a ∧
        stableGoVersion version = some b ∧ b.major = a.major
    | .poetry | .pnpm => True

theorem sameGoMajorVersions_ok {current : Text} {versions available : List Text}
    (h : sameGoMajorVersions current versions = .ok available) :
    ∃ a, stableGoVersion current = some a ∧ ∀ v, v ∈ available ↔
      v ∈ versions ∧ ∃ b, stableGoVersion v = some b ∧ b.major = a.major := by
  unfold sameGoMajorVersions at h
  split at h
  · cases h
  · rename_i a ha
    cases h
    exact ⟨a, ha, fun v => by simp [Option.any_eq_true]⟩

theorem offered_ok {manager : ManagerName} {entry : Entry} {metadata : RegistryPackage}
    {available : List Text} (h : offered manager entry metadata = .ok available) :
    ∀ version ∈ available, OfferedFor manager entry metadata version := by
  intro version hv
  cases manager with
  | npm =>
    simp only [offered, offeredNpm, except_bind_eq_ok, require_eq_ok] at h
    obtain ⟨_, _, h⟩ := h
    split at h
    · cases h
      obtain ⟨hmem, hcompatible⟩ := List.mem_filter.1 hv
      simp only [Bool.and_eq_true, decide_eq_true_eq] at hcompatible
      exact ⟨hmem, hcompatible.1, (npmConstraintMatches_iff _ _).1 hcompatible.2⟩
    · cases h
  | pnpm =>
    simp only [offered, offeredOther, except_bind_eq_ok, Except.ok.injEq] at h
    obtain ⟨_, _, rfl⟩ := h
    exact ⟨hv, trivial⟩
  | poetry =>
    simp only [offered, offeredOther, except_bind_eq_ok, Except.ok.injEq] at h
    obtain ⟨_, _, rfl⟩ := h
    exact ⟨hv, trivial⟩
  | uv =>
    simp only [offered, offeredUv, except_bind_eq_ok, Except.ok.injEq] at h
    obtain ⟨_, _, rfl⟩ := h
    exact ⟨(List.mem_filter.1 hv).1, (List.mem_filter.1 hv).2⟩
  | cargo =>
    simp only [offered, offeredCargo, except_bind_eq_ok, Except.ok.injEq] at h
    obtain ⟨_, _, _, _, _, _, _, _, _, _, _, _, _, _, rfl⟩ := h
    obtain ⟨hmem, hmatch⟩ := List.mem_filter.1 hv
    obtain ⟨hmem, hyanked⟩ := List.mem_filter.1 hmem
    exact ⟨hmem, by simpa using hyanked, cargo_admits (of_decide_eq_true hmatch)⟩
  | composer =>
    simp only [offered, offeredComposer, except_bind_eq_ok, Except.ok.injEq] at h
    obtain ⟨_, _, _, _, _, _, _, _, rfl⟩ := h
    obtain ⟨hmem, hmatch⟩ := List.mem_filter.1 hv
    simp only [Bool.and_eq_true, decide_eq_true_eq] at hmatch
    exact ⟨(List.mem_filter.1 hmem).1, hmatch.1, composer_admits hmatch.2⟩
  | goModules =>
    simp only [offered, offeredGo, except_bind_eq_ok] at h
    obtain ⟨_, _, h⟩ := h
    split at h
    · cases h
    · simp only [except_bind_eq_ok, liftPy_eq_ok] at h
      obtain ⟨_, _, rows, hrows, h⟩ := h
      split at h
      · cases h
        obtain ⟨a, ha, hrows⟩ := sameGoMajorVersions_ok hrows
        obtain ⟨hmem, b, hb, hmajor⟩ := (hrows version).1 hv
        exact ⟨hmem, a, b, ha, hb, hmajor⟩
      · cases h

/-- Only npm and Go look for something newer before a target is chosen. -/
theorem offered_unchanged {manager : ManagerName} {entry : Entry} {metadata : RegistryPackage}
    (h : offered manager entry metadata = .error .unchanged) :
    (manager = .npm ∧ ∀ v ∈ metadata.availableVersions, isRelease v →
        NpmAdmits entry.specifier v → ¬comesAfter entry.currentVersion v) ∨
      (manager = .goModules ∧ ∃ a, stableGoVersion entry.currentVersion = some a ∧
        ∀ v ∈ metadata.availableVersions, ∀ b, stableGoVersion v = some b → b.major = a.major →
          ¬comesAfterGo entry.currentVersion v) := by
  cases manager with
  | npm =>
    simp only [offered, offeredNpm, except_bind_eq_error, require_ne_unchanged, false_or] at h
    obtain ⟨_, _, h⟩ := h
    split at h
    · cases h
    · rename_i hnone
      refine .inl ⟨rfl, fun v hv hrelease hadmits hafter => hnone ?_⟩
      refine List.any_eq_true.2 ⟨v, List.mem_filter.2 ⟨hv, ?_⟩, hafter⟩
      simp [hrelease, (npmConstraintMatches_iff _ _).2 hadmits]
  | goModules =>
    simp only [offered, offeredGo, except_bind_eq_error, require_ne_unchanged, false_or] at h
    obtain ⟨_, _, h⟩ := h
    split at h
    · cases h
    · simp only [except_bind_eq_error, require_ne_unchanged, liftPy_ne_unchanged, false_or,
        liftPy_eq_ok] at h
      obtain ⟨_, _, rows, hrows, h⟩ := h
      split at h
      · cases h
      · rename_i hnone
        obtain ⟨a, ha, hrows⟩ := sameGoMajorVersions_ok hrows
        refine .inr ⟨rfl, a, ha, fun v hv b hb hmajor hafter => hnone ?_⟩
        exact List.any_eq_true.2 ⟨v, (hrows v).2 ⟨hv, b, hb, hmajor⟩, hafter⟩
  | uv => simp [offered, offeredUv, except_bind_eq_error] at h
  | cargo => simp [offered, offeredCargo, except_bind_eq_error] at h
  | composer => simp [offered, offeredComposer, except_bind_eq_error] at h
  | pnpm => simp [offered, offeredOther, except_bind_eq_error] at h
  | poetry => simp [offered, offeredOther, except_bind_eq_error] at h

theorem registryData_ok {registry : RegistryAdapter} {entry : Entry} {metadata : RegistryPackage}
    (h : registryData registry entry = .ok metadata) :
    registry.packageMetadata entry.package = .ok (some metadata) ∧
      metadata.availableVersions ≠ [] := by
  unfold registryData at h
  split at h
  · cases h
  · cases h
  · rename_i found hfound
    split at h
    · cases h
    · rename_i hne
      cases h
      exact ⟨hfound, hne⟩

theorem registryData_ne_unchanged (registry : RegistryAdapter) (entry : Entry) :
    registryData registry entry ≠ .error .unchanged := by
  unfold registryData
  split
  · simp
  · simp
  · split <;> simp

theorem chosenTarget_ok {manager : ManagerName} {targetVersions : TargetVersionAdapter}
    {entry : Entry} {available : List Text} {target : Text}
    (h : chosenTarget manager targetVersions entry available = .ok target) :
    targetVersions entry.package entry.currentVersion entry.specifier available =
        .ok (some target) ∧
      target ∈ available ∧ targetIsParseable manager target ∧
      targetChecks manager entry target = .ok () := by
  unfold chosenTarget at h
  split at h
  · cases h
  · cases h
  · rename_i chosen hchosen
    simp only [except_bind_eq_ok, require_eq_ok, Bool.and_eq_true, decide_eq_true_eq,
      Except.ok.injEq] at h
    obtain ⟨_, ⟨hmem, hparse⟩, _, hchecks, rfl⟩ := h
    exact ⟨hchosen, hmem, hparse, hchecks⟩

theorem targetChecks_ne_unchanged (manager : ManagerName) (entry : Entry) (target : Text) :
    targetChecks manager entry target ≠ .error .unchanged := by
  cases manager with
  | uv => simp [targetChecks, except_bind_eq_error]
  | goModules =>
    simp only [targetChecks]
    split <;> simp
  | _ => simp [targetChecks]

theorem chosenTarget_ne_unchanged (manager : ManagerName) (targetVersions : TargetVersionAdapter)
    (entry : Entry) (available : List Text) :
    chosenTarget manager targetVersions entry available ≠ .error .unchanged := by
  unfold chosenTarget
  split
  · simp
  · simp
  · simp [except_bind_eq_error, targetChecks_ne_unchanged]

theorem lockedVersion_ne_unchanged (manager : ManagerName) (entry : Entry) :
    lockedVersion manager entry ≠ .error .unchanged := by
  have hnpm : npmLockedVersion entry ≠ .error .unchanged := by
    unfold npmLockedVersion
    simp only [ne_eq, except_bind_eq_error, require_ne_unchanged, false_or, not_exists, not_and]
    intro _ _ _ _ _ _
    split <;> simp
  cases manager <;> simp [lockedVersion, except_bind_eq_error, hnpm]

theorem sourceIdentity_ne_unchanged (manager : ManagerName) (registry : RegistryAdapter)
    (entry : Entry) : sourceIdentity manager registry entry ≠ .error .unchanged := by
  unfold sourceIdentity
  split
  · simp
  · split
    · simp
    · split
      · simp
      · simp [except_bind_eq_error]

theorem compareTarget_ne_unchanged (manager : ManagerName) (entry : Entry) (target : Text) :
    compareTarget manager entry target ≠ .error .unchanged := by
  unfold compareTarget
  split
  · simp
  · split <;> simp

section
variable {manager : ManagerName} {registry : RegistryAdapter}
  {targetVersions : TargetVersionAdapter} {entry : Entry}

theorem observeEntry_ok {target : Text}
    (h : observeEntry manager registry targetVersions entry = .ok target) :
    ∃ metadata available comparison,
      registry.packageMetadata entry.package = .ok (some metadata) ∧
      offered manager entry metadata = .ok available ∧ target ∈ available ∧
      targetVersions entry.package entry.currentVersion entry.specifier available =
        .ok (some target) ∧
      targetChecks manager entry target = .ok () ∧
      compareTarget manager entry target = .ok comparison ∧ comparison < 0 := by
  simp only [observeEntry, except_bind_eq_ok] at h
  obtain ⟨_, _, _, _, metadata, hmetadata, available, hoffered, chosen, hchosen, comparison,
    hcompare, h⟩ := h
  obtain ⟨hchoice, hmem, _, hchecks⟩ := chosenTarget_ok hchosen
  split_ifs at h with hzero hpos
  cases h
  exact ⟨metadata, available, comparison, (registryData_ok hmetadata).1, hoffered, hmem, hchoice,
    hchecks, hcompare, by omega⟩

theorem observeEntry_unchanged
    (h : observeEntry manager registry targetVersions entry = .error .unchanged) :
    ∃ metadata, registry.packageMetadata entry.package = .ok (some metadata) ∧
      (offered manager entry metadata = .error .unchanged ∨
        ∃ available target, offered manager entry metadata = .ok available ∧ target ∈ available ∧
          targetVersions entry.package entry.currentVersion entry.specifier available =
            .ok (some target) ∧
          compareTarget manager entry target = .ok 0) := by
  simp only [observeEntry, except_bind_eq_error, lockedVersion_ne_unchanged,
    sourceIdentity_ne_unchanged, registryData_ne_unchanged, false_or] at h
  obtain ⟨_, _, _, _, metadata, hmetadata, h⟩ := h
  refine ⟨metadata, (registryData_ok hmetadata).1, ?_⟩
  rcases h with hoffered | ⟨available, hoffered, h⟩
  · exact .inl hoffered
  · simp only [chosenTarget_ne_unchanged, compareTarget_ne_unchanged, false_or] at h
    obtain ⟨target, htarget, comparison, hcompare, h⟩ := h
    obtain ⟨hchoice, hmem, _, _⟩ := chosenTarget_ok htarget
    split_ifs at h with hzero hpos
    · subst hzero
      exact .inr ⟨available, target, hoffered, hmem, hchoice, hcompare⟩
    · cases h

end

/-! ## Runs -/

section
variable {baselineSha : Text} {manager : ManagerAdapter} {registry : RegistryAdapter}
  {targetVersions : TargetVersionAdapter}

/-- Every candidate of a run is that of some entry. -/
theorem candidates_of_run {entries : List Entry} {before found : List DependencyCandidate}
    {unchanged reasons : List Text}
    (h : observeEntries baselineSha manager registry targetVersions entries before unchanged =
      .ok (.candidates found reasons)) :
    ∀ c ∈ found, c ∈ before ∨ ∃ entry ∈ entries, ∃ target,
      observeEntry manager.name registry targetVersions entry = .ok target ∧
        c = makeCandidate baselineSha manager entry target := by
  induction entries generalizing before unchanged with
  | nil =>
    simp only [observeEntries, Except.ok.injEq] at h
    split at h
    · cases h
    · cases h
      exact fun c hc => .inl hc
  | cons entry entries ih =>
    simp only [observeEntries] at h
    intro c hc
    split at h
    · rename_i target htarget
      rcases ih h c hc with hbefore | ⟨e, he, t, ht, rfl⟩
      · rcases List.mem_append.1 hbefore with hbefore | hnew
        · exact .inl hbefore
        · exact .inr ⟨entry, List.mem_cons_self, target, htarget, List.mem_singleton.1 hnew⟩
      · exact .inr ⟨e, List.mem_cons_of_mem _ he, t, ht, rfl⟩
    · rcases ih h c hc with hbefore | ⟨e, he, t, ht, rfl⟩
      · exact .inl hbefore
      · exact .inr ⟨e, List.mem_cons_of_mem _ he, t, ht, rfl⟩
    · cases h
    · cases h

/-- A run that finds candidates has refused no entry. -/
theorem accepted_of_run {entries : List Entry} {before found : List DependencyCandidate}
    {unchanged reasons : List Text}
    (h : observeEntries baselineSha manager registry targetVersions entries before unchanged =
      .ok (.candidates found reasons)) :
    ∀ entry ∈ entries,
      observeEntry manager.name registry targetVersions entry = .error .unchanged ∨
        ∃ target, observeEntry manager.name registry targetVersions entry = .ok target := by
  induction entries generalizing before unchanged with
  | nil => exact fun entry he => by cases he
  | cons entry entries ih =>
    simp only [observeEntries] at h
    intro e he
    split at h
    · rename_i target htarget
      rcases List.mem_cons.1 he with rfl | he
      · exact .inr ⟨target, htarget⟩
      · exact ih h e he
    · rename_i hunchanged
      rcases List.mem_cons.1 he with rfl | he
      · exact .inl hunchanged
      · exact ih h e he
    · cases h
    · cases h

/-- A run that finds no candidate has left every entry unchanged. -/
theorem unchanged_of_run {entries : List Entry} {before : List DependencyCandidate}
    {unchanged reasons : List Text}
    (h : observeEntries baselineSha manager registry targetVersions entries before unchanged =
      .ok (.unchanged reasons)) :
    before = [] ∧ ∀ entry ∈ entries,
      observeEntry manager.name registry targetVersions entry = .error .unchanged := by
  induction entries generalizing before unchanged with
  | nil =>
    simp only [observeEntries, Except.ok.injEq] at h
    split at h
    · rename_i hnil
      exact ⟨hnil, fun entry he => by cases he⟩
    · cases h
  | cons entry entries ih =>
    simp only [observeEntries] at h
    split at h
    · exact absurd (ih h).1 (by simp)
    · rename_i hunchanged
      refine ⟨(ih h).1, fun e he => ?_⟩
      rcases List.mem_cons.1 he with rfl | he
      · exact hunchanged
      · exact (ih h).2 e he
    · cases h
    · cases h

/-- A run that refuses no entry keeps the candidates of all of them. -/
theorem run_of_accepted {entries : List Entry} {before : List DependencyCandidate}
    {unchanged : List Text}
    (haccepted : ∀ entry ∈ entries,
      observeEntry manager.name registry targetVersions entry = .error .unchanged ∨
        ∃ target, observeEntry manager.name registry targetVersions entry = .ok target) :
    ∃ result reasons,
      observeEntries baselineSha manager registry targetVersions entries before unchanged =
        .ok (if result = [] then .unchanged reasons else .candidates result reasons) ∧
      (∀ c ∈ before, c ∈ result) ∧
      ∀ entry ∈ entries, ∀ target,
        observeEntry manager.name registry targetVersions entry = .ok target →
          makeCandidate baselineSha manager entry target ∈ result := by
  induction entries generalizing before unchanged with
  | nil => exact ⟨before, _, rfl, fun c hc => hc, fun entry he => by cases he⟩
  | cons entry entries ih =>
    have htail := fun e he => haccepted e (List.mem_cons_of_mem _ he)
    rcases haccepted entry List.mem_cons_self with hunchanged | ⟨target, htarget⟩
    · obtain ⟨result, reasons, hrun, hbefore, hresult⟩ :=
        @ih before (unchanged ++ [entry.package]) htail
      refine ⟨result, reasons, by simp only [observeEntries, hunchanged, hrun], hbefore, ?_⟩
      intro e he t ht
      rcases List.mem_cons.1 he with rfl | he
      · rw [hunchanged] at ht
        cases ht
      · exact hresult e he t ht
    · obtain ⟨result, reasons, hrun, hbefore, hresult⟩ :=
        @ih (before ++ [makeCandidate baselineSha manager entry target]) unchanged htail
      refine ⟨result, reasons, by simp only [observeEntries, htarget, hrun],
        fun c hc => hbefore c (List.mem_append_left _ hc), ?_⟩
      intro e he t ht
      rcases List.mem_cons.1 he with rfl | he
      · rw [htarget] at ht
        cases ht
        exact hbefore _ (by simp)
      · exact hresult e he t ht

end

end Agentrail.Observation
