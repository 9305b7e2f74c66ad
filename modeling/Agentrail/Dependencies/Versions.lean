import Agentrail.Lib.SemVer
import Agentrail.Dependencies.GoModules
import Agentrail.Py.Json
import Agentrail.Py.Re
import Mathlib.Data.Char

/-!
# Version texts of the dependency observer

The version grammars of `observation.py`, `cargo.py` and `go_modules.py` with their
comparisons and constraint checks.  Texts are read by where `+`, `-` and `.` stand, which is
the only way the patterns match.  `int` is taken without a limit on digits.  Main results:

* `compareParsed_neg_iff`: `_compare_versions` puts `a` before `b` exactly when `a` precedes
  `b` under semantic precedence or is overtaken by it as text only;
* `parseVersion_release`: texts of three numbers are releases for every grammar;
* `cargo_admits`, `composer_admits`: the constraint checks as ranges of releases.
-/

namespace Agentrail.Versions

open Py SemVer
open GoModules (isCanonicalNumeral)

/-! ## Three numbers -/

/-- The groups of `(0|[1-9]\d*)\.(0|[1-9]\d*)\.(0|[1-9]\d*)` on the whole text. -/
def releaseGroups (t : Text) : Option (Text × Text × Text) :=
  match splitOn1 '.' t with
  | [a, b, c] =>
    if isCanonicalNumeral a && isCanonicalNumeral b && isCanonicalNumeral c then some (a, b, c)
    else none
  | _ => none

def coreOf (groups : Text × Text × Text) : Core :=
  ⟨intOfDecimal groups.1, intOfDecimal groups.2.1, intOfDecimal groups.2.2⟩

def releaseNumbers (t : Text) : Option Core := (releaseGroups t).map coreOf

/-- A prerelease identifier: all digits, or a text. -/
def identifier (t : Text) : Identifier Text :=
  if t ≠ [] && t.all isDecimal then .numeric (intOfDecimal t) else .textual t

theorem keeps_identifier : Keeps identifier := by
  intro x t h
  unfold identifier at h
  split at h
  · cases h
  · exact (Identifier.textual.inj h).symm

/-- What `v?` may leave out. -/
def dropV : Text → Text
  | 'v' :: t => t
  | t => t

/-- Three numbers, then what `prereleaseOk` admits behind the first `-` and what `buildOk` admits
behind the first `+`; the core and the text of the prerelease part. -/
def semverGroups (prereleaseOk buildOk : Text → Bool) (t : Text) : Option (Core × Text) :=
  let (main, build) := match partitionAt ['+'] t with
    | none => (t, none)
    | some (main, build) => (main, some build)
  if build.any fun b => !buildOk b then none
  else match partitionAt ['-'] main with
    | none => (releaseNumbers main).map fun core => (core, [])
    | some (core, pre) =>
      if prereleaseOk pre then (releaseNumbers core).map fun core => (core, pre) else none

/-! ## `_parse_version` and `_compare_versions` -/

/-- `[0-9A-Za-z.-]+`. -/
def looseIdentifiers (t : Text) : Bool :=
  t ≠ [] && t.all fun c =>
    isDigit09 c || ('A' ≤ c && c ≤ 'Z') || ('a' ≤ c && c ≤ 'z') || c = '.' || c = '-'

structure ParsedVersion where
  core : Core
  prerelease : List Text
  deriving DecidableEq, Repr

/-- `_parse_version`, with `_SEMVER`. -/
def parseVersion (value : Text) : Option ParsedVersion :=
  (semverGroups looseIdentifiers looseIdentifiers (dropV (strip value))).map fun groups =>
    ⟨groups.1, if groups.2 = [] then [] else splitOn1 '.' groups.2⟩

/-- `_compare_versions` of two parsed versions: tuples of texts compare as such. -/
def compareParsed (a b : ParsedVersion) : Int :=
  if a.core ≠ b.core then (if a.core.Lt b.core then -1 else 1)
  else if a.prerelease = [] ∧ b.prerelease = [] then 0
  else if a.prerelease = [] then 1
  else if b.prerelease = [] then -1
  else if a.prerelease < b.prerelease then -1
  else if b.prerelease < a.prerelease then 1
  else 0

/-- `_compare_versions`; `none` is its failing assertion. -/
def compareVersions (left right : Text) : Option Int :=
  match parseVersion left, parseVersion right with
  | some a, some b => some (compareParsed a b)
  | _, _ => none

/-- The version that a parsed text stands for, its identifiers read as numbers and texts. -/
def ParsedVersion.version (a : ParsedVersion) : Version Text :=
  ⟨a.core, a.prerelease.map identifier⟩

/-- `target` is newer than `current` under semantic precedence. -/
def Newer (current target : Text) : Prop :=
  ∃ a b, parseVersion current = some a ∧ parseVersion target = some b ∧
    a.version.Precedes b.version

/-- Two prereleases of one release whose identifiers ascend as texts only. -/
def Overtaken (a b : ParsedVersion) : Prop :=
  a.core = b.core ∧ Misordered identifier a.prerelease b.prerelease

theorem precedes_version (a b : ParsedVersion) : a.version.Precedes b.version ↔
    a.core.Lt b.core ∨ a.core = b.core ∧ a.prerelease ≠ [] ∧ (b.prerelease = [] ∨
      PrereleaseLt (a.prerelease.map identifier) (b.prerelease.map identifier)) := by
  simp [Version.Precedes, ParsedVersion.version]

theorem misordered_ne_nil {xs ys : List Text} (h : Misordered identifier xs ys) :
    xs ≠ [] ∧ ys ≠ [] := by
  cases xs <;> cases ys <;> simp_all [Misordered]

theorem compareParsed_neg_iff (a b : ParsedVersion) : compareParsed a b < 0 ↔
    a.core.Lt b.core ∨ a.core = b.core ∧ a.prerelease ≠ [] ∧
      (b.prerelease = [] ∨ a.prerelease < b.prerelease) := by
  unfold compareParsed
  by_cases hcore : a.core = b.core
  · have hno : ¬b.core.Lt b.core := b.core.not_lt_self
    simp only [hcore, ne_eq, not_true_eq_false, if_false, hno, true_and, false_or]
    split_ifs <;> simp_all
  · simp only [ne_eq, hcore, not_false_eq_true, if_true, false_and, or_false]
    split_ifs with hlt <;> simp [hlt]

/-- As texts come the versions that precede, and those that are overtaken. -/
theorem precedes_iff_not_overtaken (a b : ParsedVersion) (h : compareParsed a b < 0) :
    a.version.Precedes b.version ↔ ¬Overtaken a b := by
  rw [compareParsed_neg_iff] at h
  rw [precedes_version, Overtaken, misordered_iff identifier keeps_identifier]
  rcases h with hlt | ⟨hcore, hpre, h⟩
  · have hne : a.core ≠ b.core := fun heq => b.core.not_lt_self (heq ▸ hlt)
    simp [hlt, hne]
  · have hno : ¬b.core.Lt b.core := b.core.not_lt_self
    simp only [hcore, hno, false_or, true_and, hpre, ne_eq, not_false_eq_true]
    rcases h with hnil | hlt
    · simp [hnil]
    · by_cases hnil : b.prerelease = []
      · simp [hnil]
      · simp [hnil, hlt]

theorem overtaken_neg {a b : ParsedVersion} (h : Overtaken a b) : compareParsed a b < 0 := by
  obtain ⟨hcore, hmis⟩ := h
  have hlt := ((misordered_iff identifier keeps_identifier _ _).1 hmis).1
  exact (compareParsed_neg_iff a b).2 (.inr ⟨hcore, (misordered_ne_nil hmis).1, .inr hlt⟩)

/-- A version that compares as equal is equal. -/
theorem eq_of_compareParsed (a b : ParsedVersion) (h : compareParsed a b = 0) : a = b := by
  obtain ⟨ca, pa⟩ := a
  obtain ⟨cb, pb⟩ := b
  unfold compareParsed at h
  simp only at h
  by_cases hcore : ca = cb
  · subst hcore
    simp only [ne_eq, not_true_eq_false, if_false] at h
    split_ifs at h with hnil hl hr hlt hgt
    · rw [hnil.1, hnil.2]
    · cases h
    · cases h
    · rw [le_antisymm (not_lt.1 hgt) (not_lt.1 hlt)]
  · rw [if_pos hcore] at h
    split_ifs at h
    cases h

/-! ## Texts of three numbers -/

theorem mem_splitOn1 (sep : Char) (t : Text) (c : Char) (h : c ∈ t) :
    c = sep ∨ ∃ part ∈ splitOn1 sep t, c ∈ part := by
  induction t with
  | nil => cases h
  | cons d t ih =>
    simp only [splitOn1]
    split
    · rename_i hd
      rcases List.mem_cons.1 h with rfl | h
      · exact .inl hd
      · rcases ih h with hc | ⟨part, hpart, hc⟩
        · exact .inl hc
        · exact .inr ⟨part, List.mem_cons_of_mem _ hpart, hc⟩
    · cases hsplit : splitOn1 sep t with
      | nil =>
        rcases List.mem_cons.1 h with rfl | h
        · exact .inr ⟨[c], List.mem_cons_self, List.mem_cons_self⟩
        · rcases ih h with hc | ⟨part, hpart, _⟩
          · exact .inl hc
          · rw [hsplit] at hpart
            cases hpart
      | cons first rest =>
        rcases List.mem_cons.1 h with rfl | h
        · exact .inr ⟨c :: first, List.mem_cons_self, List.mem_cons_self⟩
        · rcases ih h with hc | ⟨part, hpart, hc⟩
          · exact .inl hc
          · rw [hsplit] at hpart
            rcases List.mem_cons.1 hpart with rfl | hpart
            · exact .inr ⟨d :: part, List.mem_cons_self, List.mem_cons_of_mem _ hc⟩
            · exact .inr ⟨part, List.mem_cons_of_mem _ hpart, hc⟩

theorem isDecimal_of_numeral {t : Text} (h : isCanonicalNumeral t) : ∀ c ∈ t, isDecimal c := by
  intro c hc
  unfold isCanonicalNumeral at h
  split at h
  · cases h
  · obtain rfl := List.mem_singleton.1 hc
    decide
  · simp only [Bool.and_eq_true, decide_eq_true_eq, List.all_eq_true] at h
    rcases List.mem_cons.1 hc with rfl | hc
    · obtain ⟨⟨hlo, hhi⟩, _⟩ := h
      have hlo' : 49 ≤ c.toNat := hlo
      have hhi' : c.toNat ≤ 57 := hhi
      have hfind : decimalZeros.find? (fun z => z ≤ c.toNat && c.toNat < z + 10) = some 0x30 := by
        rw [decimalZeros, List.find?_cons_of_pos]
        simp only [Bool.and_eq_true, decide_eq_true_eq]
        omega
      simp [isDecimal, decimalValue, hfind]
    · exact h.2 c hc

theorem releaseGroups_chars {t : Text} {groups : Text × Text × Text}
    (h : releaseGroups t = some groups) : ∀ c ∈ t, c = '.' ∨ isDecimal c := by
  intro c hc
  unfold releaseGroups at h
  split at h
  · rename_i a b d hsplit
    split at h
    · rename_i hnum
      simp only [Bool.and_eq_true] at hnum
      rcases mem_splitOn1 '.' t c hc with hdot | ⟨part, hpart, hc⟩
      · exact .inl hdot
      · rw [hsplit] at hpart
        simp only [List.mem_cons, List.not_mem_nil, or_false] at hpart
        rcases hpart with rfl | rfl | rfl
        · exact .inr (isDecimal_of_numeral hnum.1.1 c hc)
        · exact .inr (isDecimal_of_numeral hnum.1.2 c hc)
        · exact .inr (isDecimal_of_numeral hnum.2 c hc)
    · cases h
  · cases h

theorem decimal_codes : ∀ z ∈ decimalZeros, ∀ k < 10,
    isSpace (Char.ofNat (z + k)) = false ∧ Char.ofNat (z + k) ≠ '-' ∧ Char.ofNat (z + k) ≠ '+' ∧
      Char.ofNat (z + k) ≠ 'v' := by
  decide +kernel

/-- A decimal digit is no white space, sign or letter. -/
theorem isDecimal_ne {c : Char} (h : isDecimal c) :
    isSpace c = false ∧ c ≠ '-' ∧ c ≠ '+' ∧ c ≠ 'v' := by
  unfold isDecimal decimalValue at h
  rw [Option.isSome_map, Option.isSome_iff_exists] at h
  obtain ⟨z, hz⟩ := h
  have hrange := List.find?_some hz
  simp only [Bool.and_eq_true, decide_eq_true_eq] at hrange
  have hcode := decimal_codes z (List.mem_of_find?_eq_some hz) (c.toNat - z) (by omega)
  rwa [Nat.add_sub_cancel' hrange.1, Char.ofNat_toNat] at hcode

theorem release_chars {t : Text} {groups : Text × Text × Text} (h : releaseGroups t = some groups) :
    ∀ c ∈ t, isSpace c = false ∧ c ≠ '-' ∧ c ≠ '+' ∧ c ≠ 'v' := by
  intro c hc
  rcases releaseGroups_chars h c hc with rfl | hdec
  · decide
  · exact isDecimal_ne hdec

theorem partitionAt_of_notMem (c : Char) (t : Text) (h : c ∉ t) : partitionAt [c] t = none := by
  induction t with
  | nil => rfl
  | cons d t ih =>
    have hne : c ≠ d := fun heq => h (heq ▸ List.mem_cons_self)
    simp [partitionAt, hne, ih (List.not_mem_of_not_mem_cons h)]

/-- Three numbers, with or without a `v`, are the release of these numbers. -/
theorem parseVersion_release {t : Text} {core : Core} (h : releaseNumbers (dropV t) = some core) :
    parseVersion t = some ⟨core, []⟩ := by
  obtain ⟨groups, hgroups, _⟩ := Option.map_eq_some_iff.1 h
  have hchars := release_chars hgroups
  have hspace : ∀ c ∈ t, isSpace c = false := by
    intro c hc
    unfold dropV at hchars
    split at hchars
    · rcases List.mem_cons.1 hc with rfl | hc
      · decide
      · exact (hchars c hc).1
    · exact (hchars c hc).1
  have hplus : '+' ∉ dropV t := fun hc => (hchars _ hc).2.2.1 rfl
  have hminus : '-' ∉ dropV t := fun hc => (hchars _ hc).2.1 rfl
  simp [parseVersion, semverGroups, strip_of_notSpace t hspace, partitionAt_of_notMem _ _ hplus,
    partitionAt_of_notMem _ _ hminus, h]

/-- A text of three numbers has no `v` to leave out. -/
theorem dropV_release {t : Text} {groups : Text × Text × Text} (h : releaseGroups t = some groups) :
    dropV t = t := by
  have hchars := release_chars h
  unfold dropV
  split
  · exact absurd rfl (hchars 'v' List.mem_cons_self).2.2.2
  · rfl

theorem newer_of_release {current target : Text} {a : ParsedVersion} {core : Core}
    (hcur : parseVersion current = some a) (htgt : releaseNumbers (dropV target) = some core)
    (h : compareVersions current target = some c) (hneg : c < 0) : Newer current target := by
  have hparse := parseVersion_release htgt
  simp only [compareVersions, hcur, hparse, Option.some.injEq] at h
  subst h
  refine ⟨a, _, hcur, hparse, ?_⟩
  refine (precedes_iff_not_overtaken a ⟨core, []⟩ hneg).2 fun hover => ?_
  exact (misordered_ne_nil hover.2).2 rfl

/-! ## uv releases -/

/-- `_uv_release`. -/
def uvRelease (value : Text) : Option Core := releaseNumbers value

/-- `_compare_uv_releases`. -/
def compareUvReleases (left right : Text) : Except PyError Int :=
  match uvRelease left, uvRelease right with
  | some l, some r => .ok (if r.Lt l then 1 else if l.Lt r then -1 else 0)
  | _, _ => .error (.valueError "uv releases must be canonical stable numeric versions")

/-- What the requirement `>=X.Y.Z` of a uv project admits. -/
def UvAdmits (specifier version : Text) : Prop :=
  ∃ floor lower actual, specifier = '>' :: '=' :: floor ∧ uvRelease floor = some lower ∧
    uvRelease version = some actual ∧ lower.Le actual

theorem compareUvReleases_nonneg {left right : Text} {c : Int}
    (h : compareUvReleases left right = .ok c) (hc : 0 ≤ c) :
    ∃ l r, uvRelease left = some l ∧ uvRelease right = some r ∧ r.Le l := by
  unfold compareUvReleases at h
  split at h
  · rename_i l r hl hr
    refine ⟨l, r, hl, hr, ?_⟩
    intro hlt
    have hno : ¬r.Lt l := fun hgt => l.not_lt_self (hlt.trans hgt)
    rw [if_neg hno, if_pos hlt] at h
    cases h
    omega
  · cases h

/-! ## Cargo -/

def cargoVersionMaxLength : Nat := 128
def cargoVersionComponentMaxDigits : Nat := 16
def cargoMaxSafeInteger : Nat := 9007199254740991

/-- `stable_version` of `cargo.py`. -/
def stableVersion (value : Text) : Option Core :=
  if value.length > cargoVersionMaxLength then none
  else match releaseGroups value with
    | none => none
    | some (a, b, c) =>
      if [a, b, c].any fun part => part.length > cargoVersionComponentMaxDigits then none
      else if [a, b, c].any fun part => intOfDecimal part > cargoMaxSafeInteger then none
      else some (coreOf (a, b, c))

/-- `stable_version(requirement[1:]) if requirement.startswith("^") else None`. -/
def caretFloor : Text → Option Core
  | '^' :: floor => stableVersion floor
  | _ => none

/-- The number of the floor that `^` lets grow no further than itself. -/
def controllingComponent (lower : Core) : Nat :=
  if lower.major ≠ 0 then lower.major else if lower.minor ≠ 0 then lower.minor else lower.patch

/-- `cargo_constraint_matches`. -/
def cargoConstraintMatches (requirement version : Text) : Bool × Option Text :=
  match caretFloor requirement, stableVersion version with
  | some lower, some actual =>
    if actual.Lt lower then (false, none)
    else if controllingComponent lower ≥ cargoMaxSafeInteger then
      (false, some "Cargo caret upper bound exceeds the cross-runtime safe-integer limit".toList)
    else (actual.Lt lower.caretUpper, none)
  | _, _ =>
    (false, some
      "Cargo v1 supports only stable ^MAJOR.MINOR.PATCH requirements and releases".toList)

/-- What the requirement `^X.Y.Z` of a Cargo manifest admits. -/
def CargoAdmits (requirement version : Text) : Prop :=
  ∃ floor lower actual, requirement = '^' :: floor ∧ stableVersion floor = some lower ∧
    stableVersion version = some actual ∧ Core.Caret lower actual

theorem caretFloor_eq_some {requirement : Text} {lower : Core}
    (h : caretFloor requirement = some lower) :
    ∃ floor, requirement = '^' :: floor ∧ stableVersion floor = some lower := by
  unfold caretFloor at h
  split at h
  · exact ⟨_, rfl, h⟩
  · cases h

theorem cargo_admits {requirement version : Text}
    (h : cargoConstraintMatches requirement version = (true, none)) :
    CargoAdmits requirement version := by
  unfold cargoConstraintMatches at h
  split at h
  · rename_i lower actual hfloor hactual
    obtain ⟨floor, rfl, hlower⟩ := caretFloor_eq_some hfloor
    split_ifs at h with hlt hmax
    · cases (Prod.mk.inj h).1
    · cases (Prod.mk.inj h).1
    · refine ⟨floor, lower, actual, rfl, hlower, hactual, ?_⟩
      rw [Core.caret_iff]
      exact ⟨hlt, of_decide_eq_true (Prod.mk.inj h).1⟩
  · cases h

theorem releaseNumbers_of_stableVersion {value : Text} {core : Core}
    (h : stableVersion value = some core) : releaseNumbers (dropV value) = some core := by
  unfold stableVersion at h
  split_ifs at h
  split at h
  · cases h
  · rename_i a b c hgroups
    split_ifs at h
    rw [dropV_release hgroups, releaseNumbers, hgroups]
    exact h

/-! ## Composer -/

inductive ComposerOperator where
  | exact | caret | tilde
  deriving DecidableEq, Repr

/-- The operator of `_COMPOSER_CONSTRAINT` and what is left of the text. -/
def composerOperator : Text → ComposerOperator × Text
  | '^' :: t => (.caret, t)
  | '~' :: t => (.tilde, t)
  | t => (.exact, t)

/-- `_composer_constraint_parts`. -/
def composerConstraintParts (value : Text) : Option (ComposerOperator × Core) :=
  if value.length > 64 then none
  else
    let (operator, numbers) := composerOperator value
    match releaseNumbers numbers with
    | none => none
    | some parts =>
      if [parts.major, parts.minor, parts.patch].any fun component => component > 999999999 then none
      else some (operator, parts)

/-- `_composer_constraint_matches`. -/
def composerConstraintMatches (constraint version : Text) : Bool :=
  match composerConstraintParts constraint, composerConstraintParts version with
  | some (operator, lower), some (.exact, actual) =>
    match operator with
    | .exact => actual = lower
    | .tilde => !actual.Lt lower && actual.Lt lower.tildeUpper
    | .caret => !actual.Lt lower && actual.Lt lower.caretUpper
  | _, _ => false

/-- The releases in the range of a Composer operator. -/
def ComposerOperator.Admits : ComposerOperator → Core → Core → Prop
  | .exact, lower, actual => actual = lower
  | .caret, lower, actual => Core.Caret lower actual
  | .tilde, lower, actual => Core.Tilde lower actual

/-- What a constraint of a Composer manifest admits. -/
def ComposerAdmits (constraint version : Text) : Prop :=
  ∃ operator lower actual, composerConstraintParts constraint = some (operator, lower) ∧
    composerConstraintParts version = some (.exact, actual) ∧ operator.Admits lower actual

theorem composer_admits {constraint version : Text}
    (h : composerConstraintMatches constraint version) : ComposerAdmits constraint version := by
  unfold composerConstraintMatches at h
  split at h
  · rename_i operator lower actual hlower hactual
    refine ⟨operator, lower, actual, hlower, hactual, ?_⟩
    cases operator with
    | exact => simpa [ComposerOperator.Admits] using h
    | caret =>
      rw [ComposerOperator.Admits, Core.caret_iff]
      simpa [Core.Le] using h
    | tilde =>
      rw [ComposerOperator.Admits, Core.tilde_iff]
      simpa [Core.Le] using h
  · cases h

theorem composerOperator_exact {t : Text} (h : (composerOperator t).1 = .exact) :
    (composerOperator t).2 = t := by
  unfold composerOperator at h ⊢
  split at h
  · cases h
  · cases h
  · rfl

theorem releaseNumbers_of_composer {value : Text} {core : Core}
    (h : composerConstraintParts value = some (.exact, core)) :
    releaseNumbers (dropV value) = some core := by
  unfold composerConstraintParts at h
  split_ifs at h
  simp only at h
  split at h
  · cases h
  · rename_i parts hparts
    split_ifs at h
    obtain ⟨hop, rfl⟩ := Prod.mk.inj (Option.some.inj h)
    rw [composerOperator_exact hop] at hparts
    obtain ⟨groups, hgroups, _⟩ := Option.map_eq_some_iff.1 hparts
    rwa [dropV_release hgroups]

/-! ## Go -/

def goCore (release : Nat × Nat × Nat) : Core := ⟨release.1, release.2.1, release.2.2⟩

/-- `stable_go_version`. -/
def stableGoVersion (value : Text) : Option Core := (GoModules.stableGoVersion (.str value)).map goCore

/-- `compare_go_versions`. -/
def compareGoVersions (left right : Text) : Except PyError Int :=
  match stableGoVersion left, stableGoVersion right with
  | some l, some r => .ok (if r.Lt l then 1 else if l.Lt r then -1 else 0)
  | _, _ => .error (.valueError "Go versions must be canonical stable vX.Y.Z releases")

/-- `same_go_major_versions`. -/
def sameGoMajorVersions (current : Text) (versions : List Text) : Except PyError (List Text) :=
  match stableGoVersion current with
  | none => .error (.valueError "locked Go version must be a canonical stable release")
  | some release =>
    .ok (versions.filter fun version =>
      (stableGoVersion version).any fun core => core.major = release.major)

def goProxyListMaxVersions : Nat := 20000

/-- The loop of `validate_go_proxy_versions`, with the versions seen. -/
def goProxyRows (modulePath : Text) : List Text → List Text → Option Text
  | [], _ => none
  | version :: versions, seen =>
    match GoModules.validateGoModuleVersion (.str modulePath) (.str version) with
    | some error => some ("Go proxy list contains an unsupported release: ".toList ++ error.toList)
    | none =>
      if version ∈ seen then
        some ("Go proxy list contains duplicate release row ".toList ++ version)
      else goProxyRows modulePath versions (version :: seen)

/-- `validate_go_proxy_versions`: the message of the `ValueError`. -/
def validateGoProxyVersions (modulePath : Text) (versions : List Text) : Option Text :=
  match GoModules.validateGoModulePath (.str modulePath) with
  | some error => some error.toList
  | none =>
    if versions = [] then some "Go proxy list has no release rows".toList
    else if versions.length > goProxyListMaxVersions then
      some "Go proxy list exceeds the release-row limit".toList
    else goProxyRows modulePath versions []

/-- `go_proxy_list_url`. -/
def goProxyListUrl (modulePath : Text) : Except PyError Text :=
  match GoModules.validateGoModulePath (.str modulePath) with
  | some error => .error (.valueError error)
  | none => .ok ("https://proxy.golang.org/".toList ++ modulePath ++ "/@v/list".toList)

theorem releaseNumbers_of_stableGoVersion {value : Text} {core : Core}
    (h : stableGoVersion value = some core) : releaseNumbers (dropV value) = some core := by
  obtain ⟨release, hrelease, rfl⟩ := Option.map_eq_some_iff.1 h
  unfold GoModules.stableGoVersion at hrelease
  simp only at hrelease
  split at hrelease
  · rename_i a b c hgroups
    split_ifs at hrelease
    cases hrelease
    unfold GoModules.stableVersionGroups at hgroups
    split at hgroups
    · rename_i t
      split at hgroups
      · rename_i hsplit
        split at hgroups
        · rename_i hnum
          cases hgroups
          simp [dropV, releaseNumbers, releaseGroups, hsplit, hnum, coreOf, goCore]
        · cases hgroups
      · cases hgroups
    · cases hgroups
  · cases hrelease

theorem newer_go_iff {current target : Text} {a b : Core} (ha : stableGoVersion current = some a)
    (hb : stableGoVersion target = some b) : Newer current target ↔ a.Lt b := by
  have hcur := parseVersion_release (releaseNumbers_of_stableGoVersion ha)
  have htgt := parseVersion_release (releaseNumbers_of_stableGoVersion hb)
  simp [Newer, hcur, htgt, precedes_version]

theorem compareGoVersions_neg_iff {current target : Text} {a b : Core}
    (ha : stableGoVersion current = some a) (hb : stableGoVersion target = some b) :
    (∃ c, compareGoVersions current target = .ok c ∧ c < 0) ↔ a.Lt b := by
  simp only [compareGoVersions, ha, hb, Except.ok.injEq, exists_eq_left']
  by_cases hlt : a.Lt b
  · have hno : ¬b.Lt a := fun hgt => a.not_lt_self (hlt.trans hgt)
    simp [hlt, hno]
  · split_ifs <;> simp [hlt]

/-- The majors that the last element of a module path stands for. -/
def GoPathAdmits (modulePath : Text) (major : Nat) : Prop :=
  match GoModules.declaredPathMajor modulePath with
  | .major declared => major = declared
  | .absent => major < 2
  | _ => False

theorem ite_some_eq_none {α : Type} (c : Prop) [Decidable c] (a : α) (x : Option α) :
    (if c then some a else x) = none ↔ ¬c ∧ x = none := by
  by_cases hc : c <;> simp [hc]

theorem go_path_admits {modulePath version : Text}
    (h : GoModules.validateGoModuleVersion (.str modulePath) (.str version) = none) :
    ∃ core, stableGoVersion version = some core ∧ GoPathAdmits modulePath core.major := by
  unfold GoModules.validateGoModuleVersion at h
  split at h
  · cases h
  · split at h
    · rename_i major minor patch path hstable hpath
      cases hpath
      refine ⟨⟨major, minor, patch⟩, ?_, ?_⟩
      · rw [stableGoVersion, hstable]
        rfl
      · unfold GoPathAdmits
        split at h <;> try contradiction
        · rename_i declared hmajor
          rw [hmajor]
          rw [ite_some_eq_none] at h
          rw [ite_some_eq_none] at h
          exact (not_not.1 h.2.1).symm
        · rename_i habsent
          rw [habsent]
          rw [ite_some_eq_none] at h
          exact not_le.1 h.1
    · cases h

end Agentrail.Versions
