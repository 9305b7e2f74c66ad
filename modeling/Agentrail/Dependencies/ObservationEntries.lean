import Agentrail.Dependencies.Observation
import Agentrail.Py.Dict
import Mathlib.Data.List.Sort
import Mathlib.Data.List.Dedup

/-!
# From a snapshot to its observation (`agentrail/dependencies/observation.py`)

`observe_dependencies` finds the manager of a snapshot, reads its direct dependencies and
observes them.  The readers of Poetry and uv are those of the source, over decoded TOML
documents; whatever the other readers return is observed all the same, so they are
parameters, as are the detection without a requested manager and the pnpm detector.
Main result: `observeDependencies_eq`, which says what an observation comes down to.
-/

namespace Agentrail.Observation

open Py Versions
open GoModules (isLowerOrDigit)

abbrev Files := Dict Text Text

/-- What a TOML document decodes to. -/
inductive Toml where
  | str (t : Text)
  | int (n : Int)
  | array (xs : List Toml)
  | table (fields : List (Text × Toml))
  | other

def Toml.str? : Toml → Option Text
  | .str t => some t
  | _ => none

def Toml.table? : Toml → Option (List (Text × Toml))
  | .table fields => some fields
  | _ => none

def Toml.array? : Toml → Option (List Toml)
  | .array xs => some xs
  | _ => none

def field (key : String) (fields : List (Text × Toml)) : Option Toml := getItem key.toList fields

def strField (key : String) (fields : List (Text × Toml)) : Option Text :=
  (field key fields).bind Toml.str?

/-- `tomllib.loads`; `.error` is the text of the exception. -/
abbrev TomlLoads := Text → Except Text (List (Text × Toml))

/-- `_toml_mapping`. -/
def tomlMapping (tomlLoads : TomlLoads) (text : Text) (label : String) :
    Except Text (List (Text × Toml)) :=
  match tomlLoads text with
  | .error exc => .error (label.toList ++ " is malformed: ".toList ++ exc)
  | .ok fields => .ok fields

def refuse {α : Type} (message : String) : Except Text α := .error message.toList

def check (ok : Bool) (reason : Text) : Except Text Unit := if ok then .ok () else .error reason

/-- `sorted(set(names))`. -/
def sortedSet (names : List Text) : List Text := names.dedup.insertionSort (· ≤ ·)

/-! ## Locked maps -/

/-- `_unsupported_local_specifier`. -/
def unsupportedLocalSpecifier (specifier : Text) : Bool :=
  ["file:", "link:", "workspace:", "npm:", "git+", "git:", "path:", "http:"].any
    fun start => start.toList.isPrefixOf specifier

/-- `_entries_from_locked_maps`. -/
def entriesFromLockedMaps (maps : List (Text × List (Text × Text)))
    (lockRoot lockVersions : List (Text × Text)) (selected : List Text)
    (manifestPath lockfilePath : Text) (requireLockSpecifiers : Bool) :
    Except Text (List Entry) := do
  let allNames := maps.flatMap fun map => map.2.map (·.1)
  let names := sortedSet (if selected ≠ [] then selected else allNames)
  check (names.all (· ≠ [])) "selected dependency names must be non-empty strings".toList
  match names.find? (· ∉ allNames) with
  | some missing =>
    .error ("selected dependency is not declared in ".toList ++ manifestPath ++ ": ".toList ++
      missing)
  | none => names.mapM fun package => do
    let map := (maps.find? fun map => package ∈ map.2.map (·.1)).getD ([], [])
    let specifier := (getItem package map.2).getD []
    check (!unsupportedLocalSpecifier specifier)
      (package ++ " uses an unsupported local or alias specifier".toList)
    check (!requireLockSpecifiers || (getItem package lockRoot).isSome)
      (lockfilePath ++ " has no root specifier evidence for ".toList ++ package)
    check ((getItem package lockRoot).all (· = specifier))
      ("manifest and lockfile specifiers disagree for ".toList ++ package)
    match getItem package lockVersions with
    | some current =>
      if (parseVersion current).isSome then
        .ok ⟨package, map.1, specifier, current, manifestPath, lockfilePath⟩
      else .error (lockfilePath ++ " has no safely parseable version for ".toList ++ package)
    | none => .error (lockfilePath ++ " has no safely parseable version for ".toList ++ package)

/-! ## Poetry -/

/-- `_python_specifier`. -/
def pythonSpecifier : Toml → Option Text
  | .str t => if strip t ≠ [] then some (strip t) else none
  | .table fields =>
    match strField "version" fields with
    | some version =>
      if strip version ≠ [] &&
          !(["path", "git", "url"].any fun key => (field key fields).isSome) then
        some (strip version)
      else none
    | none => none
  | _ => none

/-- One section of `_python_dependency_maps`. -/
def poetrySection (fields : List (Text × Toml)) : Option (List (Text × Text)) :=
  (fields.filter (·.1 ≠ "python".toList)).mapM fun item =>
    (pythonSpecifier item.2).map fun specifier => (item.1, specifier)

/-- `table.get(key, {})` where it has to be a table. -/
def subtable (key : String) (fields : List (Text × Toml)) : Option (List (Text × Toml)) :=
  ((field key fields).getD (.table [])).table?

/-- The `(kind, dependencies)` pairs of the groups of a Poetry project. -/
def poetryGroups (poetry : List (Text × Toml)) : Option (List (Text × List (Text × Toml))) :=
  match subtable "group" poetry with
  | none => some []
  | some groups => groups.mapM fun group => do
    let fields ← group.2.table?
    let dependencies ← subtable "dependencies" fields
    some ("devDependencies:".toList ++ group.1, dependencies)

/-- `_python_dependency_maps` of a Poetry project. -/
def poetryDependencyMaps (data : List (Text × Toml)) : Option (List (Text × List (Text × Text))) := do
  let tool ← (field "tool" data).bind Toml.table?
  let poetry ← (field "poetry" tool).bind Toml.table?
  let dependencies ← subtable "dependencies" poetry
  let devDependencies ← subtable "dev-dependencies" poetry
  let groups ← poetryGroups poetry
  let sections := ("dependencies".toList, dependencies) ::
    ("devDependencies".toList, devDependencies) :: groups
  sections.mapM fun kind => (poetrySection kind.2).map fun values => (kind.1, values)

/-- The versions that a lockfile has for each name. -/
def lockedVersions : List Toml → List (Text × List Text) → Option (List (Text × List Text))
  | [], versions => some versions
  | item :: items, versions => do
    let fields ← item.table?
    let name ← strField "name" fields
    let version ← strField "version" fields
    let known := (getItem name versions).getD []
    lockedVersions items
      (setItem name (if version ∈ known then known else known ++ [version]) versions)

/-- `_python_entries` of a Poetry project. -/
def poetryEntries (tomlLoads : TomlLoads) (files : Files) (selected : List Text) :
    Except Text (List Entry) := do
  let data ← tomlMapping tomlLoads ((files.get "pyproject.toml".toList).getD []) "pyproject.toml"
  let lockData ← tomlMapping tomlLoads ((files.get "poetry.lock".toList).getD []) "Python lockfile"
  match poetryDependencyMaps data with
  | none => refuse "poetry dependencies are not safely parseable"
  | some maps =>
    match (field "package" lockData).bind Toml.array? with
    | none => refuse "poetry lockfile has no supported package entries"
    | some packages =>
      match lockedVersions packages [] with
      | none => refuse "poetry lockfile contains malformed package entries"
      | some versions =>
        match versions.find? fun package => package.2.length ≠ 1 with
        | some package =>
          .error ("poetry lockfile contains multiple versions of ".toList ++ package.1)
        | none =>
          entriesFromLockedMaps maps [] (versions.map fun package => (package.1, package.2.headD []))
            selected "pyproject.toml".toList "poetry.lock".toList false

/-! ## uv -/

/-- `_UV_CANONICAL_NAME`. -/
def uvCanonicalName (t : Text) : Bool :=
  (splitOn1 '-' t).all fun part => part ≠ [] && part.all isLowerOrDigit

/-- `_uv_requires_python_is_bounded`. -/
def uvRequiresPythonIsBounded (value : Text) : Bool :=
  let lowerStart := ">=3.".toList
  lowerStart.isPrefixOf value &&
    match partitionAt ",<3.".toList (value.drop lowerStart.length) with
    | none => false
    | some (lower, upper) =>
      match splitOn1 '.' lower, splitOn1 '.' upper with
      | [lowerMinor, lowerPatch], [upperMinor, zero] =>
        [lowerMinor, lowerPatch, upperMinor].all (fun part => part ≠ [] && part.all isDecimal) &&
          zero = ['0'] && intOfDecimal upperMinor = intOfDecimal lowerMinor + 1
      | _, _ => false

/-- `_UV_DIRECT_REQUIREMENT`: the package and the floor. -/
def uvDirectRequirement (requirement : Text) : Option (Text × Text) :=
  match partitionAt ['>', '='] requirement with
  | some (package, floor) =>
    if uvCanonicalName package && (uvRelease floor).isSome then some (package, floor) else none
  | none => none

/-- The floors of the requirements of a project. -/
def uvRequirements : List Toml → List (Text × Text) → Except Text (List (Text × Text))
  | [], requirements => .ok requirements
  | .str rawRequirement :: rest, requirements =>
    match uvDirectRequirement rawRequirement with
    | none => refuse "uv dependencies must use canonical name>=X.Y.Z requirements"
    | some (package, floor) =>
      if (getItem package requirements).isSome then
        .error ("uv project declares ".toList ++ package ++ " more than once".toList)
      else uvRequirements rest (requirements ++ [(package, floor)])
  | _ :: _, _ => refuse "uv project contains a non-text dependency"

/-- `_uv_root_dependency_names`. -/
def uvRootDependencyNames : List Toml → List Text → Option (List Text)
  | [], names => some names
  | dependency :: rest, names => do
    let fields ← dependency.table?
    let name ← strField "name" fields
    if fields.length = 1 && uvCanonicalName name && name ∉ names then
      uvRootDependencyNames rest (names ++ [name])
    else none

def isSha256 (digest : Text) : Bool :=
  "sha256:".toList.isPrefixOf digest && (digest.drop 7).length = 64 &&
    (digest.drop 7).all fun c => isDigit09 c || ('a' ≤ c && c ≤ 'f')

def uvDistributionIsBounded (distribution : Toml) : Bool :=
  match distribution with
  | .table fields =>
    match strField "url" fields, strField "hash" fields, field "size" fields with
    | some url, some digest, some (.int size) =>
      "https://files.pythonhosted.org/packages/".toList.isPrefixOf url && url.length ≤ 2048 &&
        isSha256 digest && 1 ≤ size
    | _, _, _ => false
  | _ => false

/-- `_uv_distribution_hashes_are_bounded`. -/
def uvDistributionHashesAreBounded (item : List (Text × Toml)) : Bool :=
  match (field "wheels" item).getD (.array []) with
  | .array wheels =>
    let distributions := (field "sdist" item).toList ++ wheels
    distributions ≠ [] && distributions.length ≤ 256 && distributions.all uvDistributionIsBounded
  | _ => false

inductive UvSource where
  | root
  | registry
  | foreign
  deriving DecidableEq

/-- What the `source` of a locked package says. -/
def uvSource : Option Toml → UvSource
  | some (.table [(key, .str value)]) =>
    if (key = "editable".toList || key = "virtual".toList) && value = ['.'] then .root
    else if key = "registry".toList && value = "https://pypi.org/simple".toList then .registry
    else .foreign
  | _ => .foreign

/-- The loop of `_uv_entries` over the locked packages: the dependencies of the root, and the
version of every registry package. -/
def uvPackages (projectName projectVersion : Text) :
    List Toml → Option (List Text) → List (Text × Text) →
      Except Text (Option (List Text) × List (Text × Text))
  | [], root, locked => .ok (root, locked)
  | .table item :: rest, root, locked =>
    match strField "name" item with
    | none => refuse "uv.lock package names must already be normalized"
    | some name =>
      if !uvCanonicalName name then refuse "uv.lock package names must already be normalized"
      else match (strField "version" item).filter fun version => (uvRelease version).isSome with
        | none => .error ("uv.lock has a non-stable version for ".toList ++ name)
        | some version =>
          match uvSource (field "source" item) with
          | .root =>
            if name ≠ projectName || version ≠ projectVersion || root.isSome then
              refuse "uv.lock has invalid root project custody"
            else
              match ((field "dependencies" item).getD (.array [])).array?.bind
                  (uvRootDependencyNames · []) with
              | none => refuse "uv.lock root dependencies are ambiguous"
              | some names => uvPackages projectName projectVersion rest (some names) locked
          | .foreign => .error ("uv.lock has a non-PyPI source for ".toList ++ name)
          | .registry =>
            if uvDistributionHashesAreBounded item then
              uvPackages projectName projectVersion rest root (locked ++ [(name, version)])
            else .error ("uv.lock has no bounded distribution hashes for ".toList ++ name)
  | _ :: _, _, _ => refuse "uv.lock contains a malformed package entry"

/-- `table.get(key, default)` is empty and of the kind of its default. -/
def emptyTable (key : String) (fields : List (Text × Toml)) : Bool :=
  match (field key fields).getD (.table []) with
  | .table [] => true
  | _ => false

def emptyArray (key : String) (fields : List (Text × Toml)) : Bool :=
  match (field key fields).getD (.array []) with
  | .array [] => true
  | _ => false

def isInt (n : Int) : Option Toml → Bool
  | some (.int m) => m = n
  | _ => false

/-- The checks of `_uv_entries` on the project: its name, version, range of Pythons and floors. -/
def uvProject (manifest : List (Text × Toml)) :
    Except Text (Text × Text × Text × List (Text × Text)) :=
  match (field "project" manifest).bind Toml.table? with
  | none => refuse "uv pyproject.toml must contain a static [project] table"
  | some project => do
    check ((strField "name" project).any uvCanonicalName)
      "uv project name must already be normalized".toList
    check ((strField "version" project).any fun version => (uvRelease version).isSome)
      "uv project version must be a stable numeric release".toList
    check ((strField "requires-python" project).any uvRequiresPythonIsBounded)
      "uv project requires-python must be one bounded Python 3 minor".toList
    check (emptyArray "dynamic" project) "uv project metadata must be static".toList
    check (emptyTable "optional-dependencies" project)
      "uv v1 does not admit optional dependencies".toList
    check (emptyTable "dependency-groups" manifest) "uv v1 does not admit dependency groups".toList
    match subtable "tool" manifest with
    | none => refuse "uv project tool configuration is malformed"
    | some tool =>
      check (emptyTable "uv" tool) "uv v1 does not admit project uv configuration".toList
      match (field "dependencies" project).bind Toml.array? with
      | none | some [] => refuse "uv project has no supported direct dependencies"
      | some rawRequirements =>
        let requirements ← uvRequirements rawRequirements []
        .ok ((strField "name" project).getD [], (strField "version" project).getD [],
          (strField "requires-python" project).getD [], requirements)

/-- The entry of one uv dependency. -/
def uvEntry (requirements locked : List (Text × Text)) (package : Text) : Except Text Entry :=
  match locked.filter (·.1 = package) with
  | [row] =>
    let floor := (getItem package requirements).getD []
    match compareUvReleases row.2 floor with
    | .ok comparison =>
      if comparison < 0 then
        .error ("uv.lock version for ".toList ++ package ++ " does not satisfy pyproject.toml".toList)
      else .ok ⟨package, "dependencies".toList, '>' :: '=' :: floor, row.2,
        "pyproject.toml".toList, "uv.lock".toList⟩
    -- both texts were admitted as releases
    | .error _ => refuse "uv releases must be canonical stable numeric versions"
  | _ => .error ("uv.lock must contain exactly one registry version of ".toList ++ package)

/-- `_uv_entries`. -/
def uvEntries (tomlLoads : TomlLoads) (files : Files) (selected : List Text) :
    Except Text (List Entry) := do
  let manifest ← tomlMapping tomlLoads ((files.get "pyproject.toml".toList).getD []) "pyproject.toml"
  let lock ← tomlMapping tomlLoads ((files.get "uv.lock".toList).getD []) "uv.lock"
  let (projectName, projectVersion, requiresPython, requirements) ← uvProject manifest
  check (isInt 1 (field "version" lock) && isInt 3 (field "revision" lock))
    "uv.lock must use schema version 1 revision 3".toList
  check (strField "requires-python" lock = some requiresPython)
    "pyproject.toml and uv.lock requires-python disagree".toList
  match (field "package" lock).bind Toml.array? with
  | none | some [] => refuse "uv.lock has no supported package entries"
  | some packages =>
    let (root, locked) ← uvPackages projectName projectVersion packages none []
    match root with
    | none => refuse "uv.lock has no exact root project entry"
    | some rootDependencies =>
      check (sortedSet rootDependencies = sortedSet (requirements.map (·.1)))
        "pyproject.toml and uv.lock direct dependencies disagree".toList
      let names := sortedSet (if selected ≠ [] then selected else requirements.map (·.1))
      check (names.all uvCanonicalName)
        "selected uv dependency names must already be normalized".toList
      match names.find? (· ∉ requirements.map (·.1)) with
      | some missing =>
        .error ("selected dependency is not declared in pyproject.toml: ".toList ++ missing)
      | none => names.mapM (uvEntry requirements locked)

/-! ## Dispatch -/

structure DependencySnapshot where
  files : Files
  baselineSha : Text

/-- What the observation of a snapshot calls beside the code of this development. -/
structure Readers where
  tomlLoads : TomlLoads
  /-- `detect_dependency_manager` and what `_detect_manager` makes of its answer -/
  detectDependencyManager : Files → Except Text ManagerAdapter
  explicitNpmConflict : Files → Option Text
  npmEntries : Files → List Text → Except Text (List Entry)
  cargoEntries : Files → List Text → Except Text (List Entry)
  composerEntries : Files → List Text → Except Text (List Entry)
  goEntries : Files → List Text → Except Text (List Entry)
  observePnpmDependencies : DependencySnapshot → List Text → RegistryAdapter →
    TargetVersionAdapter → Except Raised ObservationResult

/-- `while path.startswith("./")`. -/
def dropDotSlash : Text → Text
  | '.' :: '/' :: t => dropDotSlash t
  | t => t

def hasDrive : Text → Bool
  | c :: ':' :: '/' :: _ => ('A' ≤ c && c ≤ 'Z') || ('a' ≤ c && c ≤ 'z')
  | _ => false

/-- `_normalise_files`. -/
def normaliseFiles : List (Text × Text) → Files → Except Text Files
  | [], normalised => .ok normalised
  | (rawPath, text) :: rest, normalised =>
    let path := dropDotSlash (rawPath.map fun c => if c = '\\' then '/' else c)
    if path = [] || path.head? = some '/' || hasDrive path || ['.', '.'] ∈ splitOn1 '/' path then
      .error ("unsafe repository path: ".toList ++ rawPath)
    else if (normalised.get path).isSome then
      .error ("repository path collision after normalization: ".toList ++ path)
    else normaliseFiles rest (normalised.set path text)

def managers : List ManagerAdapter :=
  [⟨.pnpm, "node".toList, "package.json".toList, "pnpm-lock.yaml".toList⟩,
   ⟨.npm, "node".toList, "package.json".toList, "package-lock.json".toList⟩,
   ⟨.poetry, "python".toList, "pyproject.toml".toList, "poetry.lock".toList⟩,
   ⟨.uv, "python".toList, "pyproject.toml".toList, "uv.lock".toList⟩,
   ⟨.cargo, "rust".toList, "Cargo.toml".toList, "Cargo.lock".toList⟩,
   ⟨.composer, "php".toList, "composer.json".toList, "composer.lock".toList⟩,
   ⟨.goModules, "go".toList, "go.mod".toList, "go.sum".toList⟩]

/-- `_coerce_manager_name`, with the adapter of the name. -/
def coerceManagerName (value : Text) : Option ManagerAdapter :=
  let aliased := if value ∈ ["go".toList, "go_modules".toList, "gomod".toList] then
    "go-modules".toList else value
  managers.find? fun adapter => adapter.name.value = (partition aliased ['@']).1

/-- `_detect_manager`. -/
def detectManager (readers : Readers) (files : Files) (requested : Option Text) :
    Except Text ManagerAdapter :=
  match requested with
  | none => readers.detectDependencyManager files
  | some requested =>
    match coerceManagerName requested with
    | none => .error ("unsupported dependency manager: ".toList ++ requested)
    | some adapter => do
      check (files.get adapter.manifestPath).isSome
        ("insufficient: ".toList ++ adapter.manifestPath ++ " is missing".toList)
      if adapter.name = .npm then
        match readers.explicitNpmConflict files with
        | some conflict => .error ("unsupported: ".toList ++ conflict)
        | none => .ok ()
      else .ok ()
      check (files.get adapter.lockfilePath).isSome
        ("insufficient: ".toList ++ adapter.lockfilePath ++ " is missing".toList)
      .ok adapter

/-- The reader of each manager. -/
def entriesOf (readers : Readers) (manager : ManagerName) : Files → List Text →
    Except Text (List Entry) :=
  match manager with
  | .npm => readers.npmEntries
  | .uv => uvEntries readers.tomlLoads
  | .poetry => poetryEntries readers.tomlLoads
  | .cargo => readers.cargoEntries
  | .composer => readers.composerEntries
  | .goModules | .pnpm => readers.goEntries

/-- `observe_dependencies`. -/
def observeDependencies (readers : Readers) (snapshot : DependencySnapshot) (selected : List Text)
    (registry : RegistryAdapter) (targetVersions : TargetVersionAdapter) (manager : Option Text) :
    Except Raised ObservationResult :=
  match normaliseFiles snapshot.files.items .empty with
  | .error exc => .ok (insufficient ("repository snapshot paths are invalid: ".toList ++ exc))
  | .ok files =>
    match detectManager readers files manager with
    | .error reason =>
      .ok (if "insufficient:".toList.isPrefixOf reason then insufficient reason
        else unsupported reason)
    | .ok detected =>
      if detected.name = .pnpm then
        readers.observePnpmDependencies snapshot selected registry targetVersions
      else if strip snapshot.baselineSha = [] then .ok (insufficient "baseline SHA is missing".toList)
      else match entriesOf readers detected.name files selected with
        | .error error => .ok (insufficient error)
        | .ok entries =>
          observeEntries snapshot.baselineSha detected registry targetVersions entries [] []

/-- The entries that an observation of one of the six managers takes up. -/
def Observes (readers : Readers) (snapshot : DependencySnapshot) (selected : List Text)
    (manager : Option Text) (detected : ManagerAdapter) (entries : List Entry) : Prop :=
  ∃ files, normaliseFiles snapshot.files.items .empty = .ok files ∧
    detectManager readers files manager = .ok detected ∧ detected.name ≠ .pnpm ∧
    strip snapshot.baselineSha ≠ [] ∧ entriesOf readers detected.name files selected = .ok entries

theorem observeDependencies_eq {readers : Readers} {snapshot : DependencySnapshot}
    {selected : List Text} {manager : Option Text} {detected : ManagerAdapter}
    {entries : List Entry} (h : Observes readers snapshot selected manager detected entries)
    (registry : RegistryAdapter) (targetVersions : TargetVersionAdapter) :
    observeDependencies readers snapshot selected registry targetVersions manager =
      observeEntries snapshot.baselineSha detected registry targetVersions entries [] [] := by
  obtain ⟨files, hfiles, hdetected, hpnpm, hbaseline, hentries⟩ := h
  simp only [observeDependencies, hfiles, hdetected, if_neg hpnpm, if_neg hbaseline, hentries]

/-- An entry of a uv project asks for a floor. -/
theorem uvEntries_specifier {tomlLoads : TomlLoads} {files : Files} {selected : List Text}
    {entries : List Entry} (h : uvEntries tomlLoads files selected = .ok entries) :
    ∀ entry ∈ entries, ∃ floor, entry.specifier = '>' :: '=' :: floor := by
  have hentry : ∀ (requirements locked : List (Text × Text)) (package : Text) (entry : Entry),
      uvEntry requirements locked package = .ok entry →
        ∃ floor, entry.specifier = '>' :: '=' :: floor := by
    intro requirements locked package entry h
    unfold uvEntry at h
    split at h
    · simp only at h
      split at h
      · split at h
        · cases h
        · cases h
          exact ⟨_, rfl⟩
      · cases h
    · cases h
  simp only [uvEntries, except_bind_eq_ok] at h
  obtain ⟨_, _, _, _, ⟨projectName, projectVersion, requiresPython, requirements⟩, _, _, _, _, _, h⟩ := h
  split at h
  · cases h
  · cases h
  · simp only [except_bind_eq_ok] at h
    obtain ⟨⟨root, locked⟩, _, h⟩ := h
    simp only at h
    split at h
    · cases h
    · simp only [except_bind_eq_ok] at h
      obtain ⟨_, _, _, _, h⟩ := h
      split at h
      · cases h
      · intro entry he
        obtain ⟨package, _, hpackage⟩ := mem_mapM_ok _ _ _ h entry he
        exact hentry _ _ _ _ hpackage

end Agentrail.Observation
