import Agentrail.Lib.JsonText
import Agentrail.Dependencies.Observation
import Agentrail.Js.Bytes
import Agentrail.Py.JsonScan

/-!
# Dependency candidates and their fingerprints

`_make_candidate` of `observation.py` and of `pnpm.py` name a candidate by a digest
of its fields; the heartbeat stores it with `_legacy_candidate_payload`, and
`dependency_upgrade_contracts.ts` reads it back and takes the digest again.  Python
sorts the keys, TypeScript puts `package_manager` last: no two texts agree
(`payloads_differ`), and the digests of an observed candidate agree only where the
hash function collides on them (`collision_of_agreement`).
-/

namespace Agentrail.DependencyUpgrade

open Js
open Observation (DependencyCandidate Entry ManagerAdapter makeCandidate)

/-! ## Candidates as Python observes them -/

/-- `_make_candidate` of `pnpm.py`. -/
def pnpmCandidate (package dependencyKind specifier currentVersion targetVersion baselineSha : Text) :
    DependencyCandidate where
  package := package
  dependencyKind := dependencyKind
  specifier := specifier
  currentVersion := currentVersion
  targetVersion := targetVersion
  manifestPath := "package.json".toList
  lockfilePath := "pnpm-lock.yaml".toList
  baselineSha := baselineSha
  ecosystem := "node".toList
  packageManager := "pnpm".toList

/-- A candidate that `observe_dependencies` can return. -/
inductive Made : DependencyCandidate → Prop
  | entry (baselineSha : Text) (manager : ManagerAdapter) (entry : Entry) (target : Text) :
      Made (makeCandidate baselineSha manager entry target)
  | pnpm (package dependencyKind specifier currentVersion targetVersion baselineSha : Text) :
      Made (pnpmCandidate package dependencyKind specifier currentVersion targetVersion baselineSha)

theorem Made.packageManager_ne_nil {c : DependencyCandidate} (h : Made c) :
    c.packageManager ≠ [] := by
  cases h with
  | entry sha manager entry target =>
    show manager.name.value ≠ []
    cases manager.name <;> decide
  | pnpm => exact List.cons_ne_nil _ _

/-- The dict that is hashed; `pnpm.py` writes its keys in another order, before the same sort. -/
def observedFields (c : DependencyCandidate) : List (Text × Text) := [
  ("baseline_sha".toList, c.baselineSha),
  ("current_version".toList, c.currentVersion),
  ("dependency_kind".toList, c.dependencyKind),
  ("lockfile_path".toList, c.lockfilePath),
  ("manifest_path".toList, c.manifestPath),
  ("package".toList, c.package),
  ("package_manager".toList, c.packageManager),
  ("specifier".toList, c.specifier),
  ("target_version".toList, c.targetVersion)]

/-- `json.dumps(payload, sort_keys=True, separators=(",", ":"))`. -/
def observedPayload (c : DependencyCandidate) : Text :=
  Py.dumps Py.compact (Py.sortKeys (.dict ((observedFields c).map fun f => (f.1, .str f.2))))

section
-- the hex digest of SHA-256
variable (sha256 : Py.Bytes → Text)

def observedFingerprint (c : DependencyCandidate) : Text :=
  "sha256:".toList ++ sha256 (Py.utf8Encode (observedPayload c))

/-- What a candidate carries beside its identity. -/
structure Commands where
  verification : List Text
  manager : List (Text × Text)

/-- `_legacy_candidate_payload`, as the `jsonb` column holds it. -/
def legacyCandidatePayload (c : DependencyCandidate) (commands : Commands) : Json := .obj [
  ("package".toList, .str c.package),
  ("dependency_kind".toList, .str c.dependencyKind),
  ("specifier".toList, .str c.specifier),
  ("current_version".toList, .str c.currentVersion),
  ("target_version".toList, .str c.targetVersion),
  ("manifest_path".toList, .str c.manifestPath),
  ("lockfile_path".toList, .str c.lockfilePath),
  ("baseline_sha".toList, .str c.baselineSha),
  ("fingerprint".toList, .str (observedFingerprint sha256 c)),
  ("ecosystem".toList, .str c.ecosystem),
  ("package_manager".toList, .str c.packageManager),
  ("package_manager_version".toList, .null),
  ("verification_commands".toList, .arr (commands.verification.map .str)),
  ("manager_commands".toList, .obj (commands.manager.map fun f => (f.1, .str f.2)))]

/-! ## Candidates as TypeScript reads them -/

structure DependencyUpgradeCandidate where
  package : Text
  ecosystem : Option Text := none
  packageManager : Option Text := none
  packageManagerVersion : Option Text := none
  dependencyKind : Text
  specifier : Text
  currentVersion : Text
  targetVersion : Text
  manifestPath : Text
  lockfilePath : Text
  baselineSha : Text
  fingerprint : Text
  verificationCommands : Option (List Text) := none
  managerCommands : Option Json := none

/-- A property that is a string. -/
def stringAt (record : Json) (key : String) : Option Text :=
  match record.get key.toList with
  | some (.str t) => some t
  | _ => none

/-- A property that `CANDIDATE_KEYS` asks for. -/
def requiredAt (record : Json) (key : String) : Option Text :=
  (stringAt record key).filter (· ≠ [])

def verificationCommandsOf (record : Json) : Option (List Text) :=
  match record.get "verification_commands".toList with
  | some (.arr xs) => some (xs.filterMap fun
    | .str t => some t
    | _ => none)
  | _ => none

def managerCommandsOf (record : Json) : Option Json :=
  match record.get "manager_commands".toList with
  | some (.obj fields) => some (.obj fields)
  | some (.arr xs) => some (.arr xs)
  | _ => none

def candidateFromUnknown (value : Json) : Option DependencyUpgradeCandidate := do
  let package ← requiredAt value "package"
  let dependencyKind ← requiredAt value "dependency_kind"
  let specifier ← requiredAt value "specifier"
  let currentVersion ← requiredAt value "current_version"
  let targetVersion ← requiredAt value "target_version"
  let manifestPath ← requiredAt value "manifest_path"
  let lockfilePath ← requiredAt value "lockfile_path"
  let baselineSha ← requiredAt value "baseline_sha"
  let fingerprint ← requiredAt value "fingerprint"
  some {
    package := package
    ecosystem := stringAt value "ecosystem"
    packageManager := stringAt value "package_manager"
    packageManagerVersion := stringAt value "package_manager_version"
    dependencyKind := dependencyKind
    specifier := specifier
    currentVersion := currentVersion
    targetVersion := targetVersion
    manifestPath := manifestPath
    lockfilePath := lockfilePath
    baselineSha := baselineSha
    fingerprint := fingerprint
    verificationCommands := verificationCommandsOf value
    managerCommands := managerCommandsOf value }

/-- The values under `CANDIDATE_KEYS`. -/
def DependencyUpgradeCandidate.keys (c : DependencyUpgradeCandidate) : List Text :=
  [c.package, c.dependencyKind, c.specifier, c.currentVersion, c.targetVersion, c.manifestPath,
    c.lockfilePath, c.baselineSha, c.fingerprint]

def sameCandidate (a b : DependencyUpgradeCandidate) : Bool :=
  a.keys = b.keys && a.ecosystem.getD [] = b.ecosystem.getD [] &&
    a.packageManager.getD [] = b.packageManager.getD [] &&
    a.packageManagerVersion.getD [] = b.packageManagerVersion.getD []

/-- The properties of `payloadObject`, in the order in which they are set. -/
def payloadFields (c : DependencyUpgradeCandidate) : List (Text × Text) := [
  ("baseline_sha".toList, c.baselineSha),
  ("current_version".toList, c.currentVersion),
  ("dependency_kind".toList, c.dependencyKind),
  ("lockfile_path".toList, c.lockfilePath),
  ("manifest_path".toList, c.manifestPath),
  ("package".toList, c.package),
  ("specifier".toList, c.specifier),
  ("target_version".toList, c.targetVersion)] ++
  match c.packageManager with
  | none | some [] => []
  | some name => [("package_manager".toList, name)]

def candidatePayload (c : DependencyUpgradeCandidate) : Text :=
  object ((payloadFields c).map fun f => (f.1, quote f.2))

def candidateFingerprint (c : DependencyUpgradeCandidate) : Text :=
  "sha256:".toList ++ sha256 (utf8 (candidatePayload c))

/-- The hash function maps the bytes of both sides to one digest, which are not the same bytes. -/
def Collides (c : DependencyCandidate) (u : DependencyUpgradeCandidate) : Prop :=
  Py.utf8Encode (observedPayload c) ≠ utf8 (candidatePayload u) ∧
    sha256 (Py.utf8Encode (observedPayload c)) = sha256 (utf8 (candidatePayload u))

end

/-! ## The two texts -/

theorem inside_digits {n : Nat} : ∀ c ∈ Py.hex4 n, c ≠ '"' ∧ c ≠ '\\' := by
  have hdigit : ∀ m, Nat.digitChar (m % 16) ≠ '"' ∧ Nat.digitChar (m % 16) ≠ '\\' := fun m =>
    Py.hexValue_plain _ _ (Py.hexValue_digitChar _ (Nat.mod_lt _ (by decide)))
  intro c hc
  simp only [Py.hex4, List.mem_cons, List.not_mem_nil, or_false] at hc
  rcases hc with rfl | rfl | rfl | rfl <;> exact hdigit _

theorem inside_escapeCode (n : Nat) : JsonText.Inside (Py.escapeCode n) :=
  .escaped (.of_forall inside_digits)

theorem inside_escapeChar (c : Char) : JsonText.Inside (Py.escapeChar c) := by
  unfold Py.escapeChar
  split_ifs with hquote hslash
  iterate 7
    · exact .escaped .nil
  · exact .plain hquote hslash .nil
  · exact inside_escapeCode _
  · exact (inside_escapeCode _).append (inside_escapeCode _)

theorem isString_quoted (t : Text) : JsonText.IsString (Py.quoted t) :=
  ⟨_, .flatMap inside_escapeChar t, rfl⟩

theorem isString_quote (t : Text) : JsonText.IsString (quote t) := by
  refine ⟨_, .flatMap (fun c => ?_) t, rfl⟩
  split_ifs with hspecial _ _ _ _ _ hcontrol
  iterate 6
    · exact .escaped .nil
  · have hlow : c.toNat / 16 < 16 := by omega
    have hhigh := Py.hexValue_plain _ _ (Py.hexValue_digitChar _ hlow)
    have hlast := Py.hexValue_plain _ _ (Py.hexValue_digitChar (c.toNat % 16) (by omega))
    exact .escaped (.plain (by decide) (by decide) (.plain (by decide) (by decide)
      (.plain hhigh.1 hhigh.2 (.plain hlast.1 hlast.2 .nil))))
  · simp only [Bool.or_eq_true, decide_eq_true_eq, not_or] at hspecial
    exact .plain hspecial.1 hspecial.2 .nil

theorem dumpsFields_strings (fields : List (Text × Text)) :
    Py.dumpsFields Py.compact (fields.map fun f => (f.1, .str f.2)) =
      JsonText.members (fields.map fun f => (Py.quoted f.1, Py.quoted f.2)) := by
  induction fields with
  | nil => simp [Py.dumpsFields, JsonText.members]
  | cons f fields ih =>
    rw [List.map_cons, List.map_cons]
    unfold Py.dumpsFields JsonText.members
    rw [ih]
    simp [Py.compact, Py.dumps]

theorem dumps_strings (fields : List (Text × Text)) (hne : fields ≠ []) :
    Py.dumps Py.compact (.dict (fields.map fun f => (f.1, .str f.2))) =
      JsonText.objectText (fields.map fun f => (Py.quoted f.1, Py.quoted f.2)) := by
  cases fields with
  | nil => exact absurd rfl hne
  | cons f fields =>
    rw [List.map_cons]
    unfold Py.dumps
    rw [dumpsFields_strings]
    simp [Py.compact, Py.dumps, JsonText.objectText, JsonText.members]

theorem object_strings (fields : List (Text × Text)) (hne : fields ≠ []) :
    object (fields.map fun f => (f.1, quote f.2)) =
      JsonText.objectText (fields.map fun f => (quote f.1, quote f.2)) := by
  have hjoin : ∀ (f : Text × Text) (fields : List (Text × Text)),
      ',' :: (join [','] ((f :: fields).map fun f => quote f.1 ++ ':' :: quote f.2) ++ ['}']) =
        JsonText.members ((f :: fields).map fun f => (quote f.1, quote f.2)) := by
    intro f fields
    induction fields generalizing f with
    | nil => simp [join, JsonText.members]
    | cons g fields ih =>
      have htail := ih g
      simp only [List.map_cons, JsonText.members] at htail ⊢
      rw [← htail]
      simp [join]
  cases fields with
  | nil => exact absurd rfl hne
  | cons f fields =>
    unfold object JsonText.objectText
    rw [← hjoin f fields, List.map_map]
    rfl

theorem observedPayload_eq (c : DependencyCandidate) :
    observedPayload c =
      JsonText.objectText ((observedFields c).map fun f => (Py.quoted f.1, Py.quoted f.2)) := by
  have hsort : Py.sortKeys (.dict ((observedFields c).map fun f => (f.1, .str f.2))) =
      .dict ((observedFields c).map fun f => (f.1, .str f.2)) := by
    unfold Py.sortKeys
    refine congrArg Py.Json.dict (List.mergeSort_of_pairwise ?_)
    show List.Pairwise _ ((observedFields c).map fun f => (f.1, Py.Json.str f.2))
    rw [List.pairwise_map]
    simp only [observedFields, List.pairwise_cons, List.mem_cons, forall_eq_or_imp, forall_eq,
      List.not_mem_nil, or_false, false_implies, implies_true, List.Pairwise.nil, and_true]
    and_intros <;> rfl
  unfold observedPayload
  rw [hsort]
  exact dumps_strings _ (List.cons_ne_nil _ _)

theorem candidatePayload_eq (u : DependencyUpgradeCandidate) :
    candidatePayload u =
      JsonText.objectText ((payloadFields u).map fun f => (quote f.1, quote f.2)) :=
  object_strings _ (List.cons_ne_nil _ _)

/-- **The texts.** Their seventh keys differ. -/
theorem payloads_differ (c : DependencyCandidate) (u : DependencyUpgradeCandidate) :
    observedPayload c ≠ candidatePayload u := by
  intro h
  rw [observedPayload_eq, candidatePayload_eq] at h
  have hquoted : JsonText.AllStrings
      ((observedFields c).map fun f => (Py.quoted f.1, Py.quoted f.2)) := by
    intro f hf
    obtain ⟨g, _, rfl⟩ := List.mem_map.mp hf
    exact ⟨isString_quoted _, isString_quoted _⟩
  have hquote : JsonText.AllStrings ((payloadFields u).map fun f => (quote f.1, quote f.2)) := by
    intro f hf
    obtain ⟨g, _, rfl⟩ := List.mem_map.mp hf
    exact ⟨isString_quote _, isString_quote _⟩
  have hlist := JsonText.objectText_inj hquoted hquote (by simp [observedFields])
    (by simp [payloadFields]) h
  have hat := congrArg (fun fields : List (Text × Text) => (fields[6]?).map Prod.fst) hlist
  simp only [observedFields, payloadFields, List.map_cons, List.cons_append] at hat
  have hkey : Py.quoted "package_manager".toList = quote "specifier".toList := Option.some.inj hat
  exact absurd hkey (by decide)

theorem bytes_differ (c : DependencyCandidate) (u : DependencyUpgradeCandidate) :
    Py.utf8Encode (observedPayload c) ≠ utf8 (candidatePayload u) := by
  intro h
  have hdecode := congrArg Py.utf8Decode h
  rw [Py.utf8Decode_utf8Encode] at hdecode
  exact payloads_differ c u (Option.some.inj (hdecode.trans (Py.utf8Decode_utf8Encode _)))

/-! ## Read back -/

section
variable {sha256 : Py.Bytes → Text} {c : DependencyCandidate} {commands : Commands}
  {u : DependencyUpgradeCandidate}

/-- What a stored candidate is read as. -/
theorem read_stored
    (h : candidateFromUnknown (legacyCandidatePayload sha256 c commands) = some u) :
    u.packageManager = some c.packageManager ∧ u.fingerprint = observedFingerprint sha256 c := by
  unfold candidateFromUnknown at h
  simp only [Option.bind_eq_bind, Option.bind_eq_some_iff, Option.some.injEq] at h
  obtain ⟨_, _, _, _, _, _, _, _, _, _, _, _, _, _, _, _, fingerprint, hfingerprint, rfl⟩ := h
  refine ⟨rfl, ?_⟩
  exact (Option.some.inj (Option.filter_eq_some_iff.mp hfingerprint).1).symm

/-- **The digests.** What TypeScript takes of a stored candidate is its fingerprint only where they
collide. -/
theorem collision_of_agreement
    (h : candidateFromUnknown (legacyCandidatePayload sha256 c commands) = some u)
    (hsame : candidateFingerprint sha256 u = u.fingerprint) : Collides sha256 c u := by
  rw [(read_stored h).2] at hsame
  exact ⟨bytes_differ c u, (List.append_cancel_left hsame).symm⟩

end

end Agentrail.DependencyUpgrade
