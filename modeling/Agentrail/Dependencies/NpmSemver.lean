import Agentrail.Dependencies.Versions

/-!
# npm ranges (`agentrail/dependencies/npm_semver.py`)

A branch of a constraint is read into a range and a range is evaluated on a version, which
`_branch_matches` does in one go.  Main results:

* `compare_neg_iff`, `compare_pos_iff`: `_compare` is semantic precedence;
* `matches_iff`: the evaluation of a range is membership in it;
* `npmConstraintMatches_iff`: the constraint check is membership in one of the ranges of a
  constraint all of whose branches can be read;
* `npm_order_and_matching`: the order, and matching as comparators with the prerelease rule.
-/

namespace Agentrail.NpmSemver

open Py SemVer Versions
open GoModules (isCanonicalNumeral)

/-! ## Versions -/

/-- `[0-9A-Za-z-]`. -/
def identifierChar (c : Char) : Bool :=
  isDigit09 c || ('A' ≤ c && c ≤ 'Z') || ('a' ≤ c && c ≤ 'z') || c = '-'

/-- `_PRERELEASE_IDENTIFIER`. -/
def prereleaseIdentifier (t : Text) : Bool :=
  isCanonicalNumeral t || (t.all identifierChar && t.any fun c => !isDigit09 c)

/-- `_PRERELEASE`. -/
def prereleaseText (t : Text) : Bool := (splitOn1 '.' t).all prereleaseIdentifier

/-- `_BUILD`. -/
def buildText (t : Text) : Bool := (splitOn1 '.' t).all fun part => part ≠ [] && part.all identifierChar

/-- The version that a `_VERSION_TEXT` stands for. -/
def versionText (t : Text) : Option (Version Text) :=
  (semverGroups prereleaseText buildText (dropV t)).map fun groups =>
    ⟨groups.1, if groups.2 = [] then [] else (splitOn1 '.' groups.2).map identifier⟩

/-- `_parse_version` of `npm_semver.py`. -/
def parseVersion (value : Text) : Option (Version Text) := versionText (strip value)

/-- The loop of `_compare` over the prerelease parts and its comparison of lengths. -/
def comparePrerelease : List (Identifier Text) → List (Identifier Text) → Int
  | [], [] => 0
  | [], _ :: _ => -1
  | _ :: _, [] => 1
  | leftPart :: left, rightPart :: right =>
    if leftPart = rightPart then comparePrerelease left right
    else match leftPart, rightPart with
      | .numeric _, .textual _ => -1
      | .textual _, .numeric _ => 1
      | .numeric l, .numeric r => if l < r then -1 else 1
      | .textual l, .textual r => if l < r then -1 else 1

/-- `_compare`. -/
def compare (left right : Version Text) : Int :=
  if left.core ≠ right.core then (if left.core.Lt right.core then -1 else 1)
  else if left.prerelease = [] ∧ right.prerelease = [] then 0
  else if left.prerelease = [] then 1
  else if right.prerelease = [] then -1
  else comparePrerelease left.prerelease right.prerelease

theorem comparePrerelease_self (xs : List (Identifier Text)) : comparePrerelease xs xs = 0 := by
  induction xs with
  | nil => rfl
  | cons x xs ih => simp [comparePrerelease, ih]

theorem comparePrerelease_of_lt {xs ys : List (Identifier Text)} (h : PrereleaseLt xs ys) :
    comparePrerelease xs ys = -1 ∧ comparePrerelease ys xs = 1 := by
  induction xs generalizing ys with
  | nil =>
    cases ys with
    | nil => exact h.elim
    | cons y ys => exact ⟨rfl, rfl⟩
  | cons x xs ih =>
    cases ys with
    | nil => exact h.elim
    | cons y ys =>
      rcases h with hlt | ⟨rfl, htail⟩
      · have hne : x ≠ y := fun heq => y.not_lt_self (heq ▸ hlt)
        cases x with
        | numeric m =>
          cases y with
          | numeric n =>
            have hmn : m < n := hlt
            simp [comparePrerelease, hmn.ne, hmn.ne', hmn, hmn.not_gt]
          | textual t => simp [comparePrerelease]
        | textual s =>
          cases y with
          | numeric n => exact hlt.elim
          | textual t =>
            have hst : s < t := hlt
            simp [comparePrerelease, hst.ne, hst.ne', hst, hst.not_gt]
      · simp [comparePrerelease, ih htail]

theorem compare_self (v : Version Text) : compare v v = 0 := by
  by_cases hpre : v.prerelease = [] <;> simp [compare, hpre, comparePrerelease_self]

theorem compare_of_precedes {left right : Version Text} (h : left.Precedes right) :
    compare left right = -1 ∧ compare right left = 1 := by
  obtain ⟨cl, pl⟩ := left
  obtain ⟨cr, pr⟩ := right
  rcases h with hlt | ⟨hcore, hpl, h⟩
  · have hne : cl ≠ cr := fun heq => cr.not_lt_self (heq ▸ hlt)
    have hno : ¬cr.Lt cl := fun hgt => cr.not_lt_self (hgt.trans hlt)
    simp_all [compare, hne.symm]
  · simp only at hcore hpl h
    subst hcore
    by_cases hpr : pr = []
    · simp [compare, hpl, hpr]
    · simp [compare, hpl, hpr, comparePrerelease_of_lt (h.resolve_left hpr)]

theorem compare_neg_iff (left right : Version Text) :
    compare left right < 0 ↔ left.Precedes right := by
  refine ⟨fun h => ?_, fun h => by simp [compare_of_precedes h]⟩
  rcases left.trichotomy right with hlt | rfl | hgt
  · exact hlt
  · simp [compare_self] at h
  · simp [compare_of_precedes hgt] at h

theorem compare_pos_iff (left right : Version Text) :
    compare left right > 0 ↔ right.Precedes left := by
  refine ⟨fun h => ?_, fun h => by simp [compare_of_precedes h]⟩
  rcases left.trichotomy right with hlt | rfl | hgt
  · simp [compare_of_precedes hlt] at h
  · simp [compare_self] at h
  · exact hgt

/-! ## Ranges -/

inductive Operator where
  | eq | gt | ge | lt | le
  deriving DecidableEq, Repr

/-- The forms that `_branch_matches` tells apart. -/
inductive Range where
  | hyphen (lower upper : Version Text)
  | caret (lower : Version Text)
  | tilde (lower : Version Text)
  /-- `_wildcard_bounds`; without bounds every release -/
  | wildcard (bounds : Option (Core × Core))
  | comparators (parsed : List (Operator × Version Text))

/-- `_comparator_matches`. -/
def Operator.matches (operator : Operator) (actual expected : Version Text) : Bool :=
  let comparison := compare actual expected
  match operator with
  | .eq => comparison = 0
  | .gt => comparison > 0
  | .ge => comparison ≥ 0
  | .lt => comparison < 0
  | .le => comparison ≤ 0

/-- `_prerelease_is_admitted`, with the versions that a range names. -/
def prereleaseIsAdmitted (version : Version Text) (named : List (Version Text)) : Bool :=
  version.prerelease = [] ||
    ((named.filter fun bound => bound.prerelease ≠ []).map (·.core)).contains version.core

/-- What `_branch_matches` computes for a range. -/
def Range.matches (actual : Version Text) : Range → Bool
  | .hyphen lower upper =>
    (compare actual lower ≥ 0 && compare actual upper ≤ 0) &&
      prereleaseIsAdmitted actual [lower, upper]
  | .caret lower =>
    (compare actual lower ≥ 0 && compare actual (.release lower.core.caretUpper) < 0) &&
      prereleaseIsAdmitted actual [lower]
  | .tilde lower =>
    (compare actual lower ≥ 0 && compare actual (.release lower.core.tildeUpper) < 0) &&
      prereleaseIsAdmitted actual [lower]
  | .wildcard none => prereleaseIsAdmitted actual []
  | .wildcard (some (lower, upper)) =>
    (compare actual (.release lower) ≥ 0 && compare actual (.release upper) < 0) &&
      prereleaseIsAdmitted actual []
  | .comparators parsed =>
    (parsed.all fun (operator, expected) => operator.matches actual expected) &&
      prereleaseIsAdmitted actual (parsed.map (·.2))

/-! ## Reading a constraint -/

/-- The groups of `_HYPHEN_RE`, before they are tested for versions. -/
def hyphenGroups (branch : Text) : Option (Text × Text) :=
  match (branch.dropWhile fun c => !isSpace c).dropWhile isSpace with
  | '-' :: after =>
    if after.head?.any isSpace then
      some (branch.takeWhile (fun c => !isSpace c), after.dropWhile isSpace)
    else none
  | _ => none

def hyphenRange (branch : Text) : Option Range :=
  match hyphenGroups branch with
  | some (lower, upper) =>
    match versionText lower, versionText upper with
    | some lower, some upper => some (.hyphen lower upper)
    | _, _ => none
  | none => none

def isWildcard (part : Text) : Bool := part = ['x'] || part = ['X'] || part = ['*']

/-- `_wildcard_bounds`: `none` is no wildcard form. -/
def wildcardBounds (text : Text) : Option (Option (Core × Core)) :=
  if isWildcard text then some none
  else
    let parts := splitOn1 '.' text
    if parts.length > 3 then none
    else if parts.any fun part => !isWildcard part && !isCanonicalNumeral part then none
    else match parts with
      | [] => none
      | first :: rest =>
        if isWildcard first then some none
        else
          let major := intOfDecimal first
          match rest with
          | [] => some (some (⟨major, 0, 0⟩, ⟨major + 1, 0, 0⟩))
          | second :: rest =>
            if isWildcard second then some (some (⟨major, 0, 0⟩, ⟨major + 1, 0, 0⟩))
            else
              let minor := intOfDecimal second
              match rest with
              | [] => some (some (⟨major, minor, 0⟩, ⟨major, minor + 1, 0⟩))
              | third :: _ =>
                if isWildcard third then
                  some (some (⟨major, minor, 0⟩, ⟨major, minor + 1, 0⟩))
                else none

/-- `s.split()`, with the letters of the current word. -/
def words (cur : Text) : Text → List Text
  | [] => if cur = [] then [] else [cur.reverse]
  | c :: t =>
    if isSpace c then (if cur = [] then words [] t else cur.reverse :: words [] t)
    else words (c :: cur) t

/-- The operator of `_COMPARATOR_RE` and what is left of the token. -/
def comparatorGroups : Text → Option Operator × Text
  | '<' :: '=' :: t => (some .le, t)
  | '>' :: '=' :: t => (some .ge, t)
  | '<' :: t => (some .lt, t)
  | '>' :: t => (some .gt, t)
  | '=' :: t => (some .eq, t)
  | t => (none, t)

/-- The loop of `_branch_matches` over the tokens; `several` says whether there is more than
one. -/
def readComparators (branch : Text) (several : Bool) :
    List Text → Except Text (List (Operator × Version Text))
  | [] => .ok []
  | token :: tokens =>
    let (operator, version) := comparatorGroups token
    match versionText version with
    | none =>
      .error ("unsupported ".toList ++ (if several then "comparator range" else "range").toList ++
        " syntax: ".toList ++ branch)
    | some expected =>
      if several && operator.isNone then
        .error ("unsupported comparator range syntax: ".toList ++ branch)
      else match readComparators branch several tokens with
        | .error error => .error error
        | .ok parsed => .ok ((operator.getD .eq, expected) :: parsed)

/-- `^` and `~` with a full version behind them. -/
def readBounded (range : Version Text → Range) (branch version : Text) : Except Text Range :=
  if ' ' ∈ branch then .error ("unsupported range syntax: ".toList ++ branch)
  else match parseVersion version with
    | none => .error ("unsupported range syntax: ".toList ++ branch)
    | some lower => .ok (range lower)

/-- The range that `_branch_matches` evaluates. -/
def readBranch (branch : Text) : Except Text Range :=
  match hyphenRange branch with
  | some range => .ok range
  | none =>
    match branch with
    | '^' :: version => readBounded .caret branch version
    | '~' :: version => readBounded .tilde branch version
    | _ =>
      match wildcardBounds branch with
      | some bounds => .ok (.wildcard bounds)
      | none =>
        let tokens := words [] branch
        if tokens = [] then .error "constraint is empty".toList
        else match readComparators branch (1 < tokens.length) tokens with
          | .error error => .error error
          | .ok parsed => .ok (.comparators parsed)

/-- `s.split("||")`. -/
def splitBars : Text → List Text
  | [] => [[]]
  | '|' :: '|' :: t => [] :: splitBars t
  | c :: t =>
    match splitBars t with
    | [] => [[c]]
    | part :: parts => (c :: part) :: parts

/-- The loop of `npm_constraint_matches`. -/
def anyMatch (actual : Version Text) : List Text → Bool → Option Bool × Option Text
  | [], found => (some found, none)
  | branch :: branches, found =>
    match readBranch branch with
    | .error error => (none, some error)
    | .ok range => anyMatch actual branches (found || range.matches actual)

def branchesOf (specifier : Text) : List Text := (splitBars (strip specifier)).map strip

/-- `npm_constraint_matches`. -/
def npmConstraintMatches (specifier version : Text) : Option Bool × Option Text :=
  match parseVersion version with
  | none => (none, some ("version is not valid npm semver: ".toList ++ version))
  | some actual =>
    if strip specifier = [] then (none, some "constraint is empty".toList)
    else if branchesOf specifier |>.any (· = []) then
      (none, some "OR range contains an empty branch".toList)
    else anyMatch actual (branchesOf specifier) false

/-! ## Membership -/

/-- A prerelease is in no range that names no prerelease of its release. -/
def Named (version : Version Text) (named : List (Version Text)) : Prop :=
  version.prerelease = [] ∨ ∃ bound ∈ named, bound.prerelease ≠ [] ∧ bound.core = version.core

def Operator.Holds (actual expected : Version Text) : Operator → Prop
  | .eq => actual = expected
  | .gt => expected.Precedes actual
  | .ge => ¬actual.Precedes expected
  | .lt => actual.Precedes expected
  | .le => ¬expected.Precedes actual

/-- The versions of a range. -/
def Range.Contains (v : Version Text) : Range → Prop
  | .hyphen lower upper => ¬v.Precedes lower ∧ ¬upper.Precedes v ∧ Named v [lower, upper]
  | .caret lower =>
    ¬v.Precedes lower ∧ v.Precedes (.release lower.core.caretUpper) ∧ Named v [lower]
  | .tilde lower =>
    ¬v.Precedes lower ∧ v.Precedes (.release lower.core.tildeUpper) ∧ Named v [lower]
  | .wildcard none => Named v []
  | .wildcard (some (lower, upper)) =>
    ¬v.Precedes (.release lower) ∧ v.Precedes (.release upper) ∧ Named v []
  | .comparators parsed =>
    (∀ comparator ∈ parsed, comparator.1.Holds v comparator.2) ∧ Named v (parsed.map (·.2))

/-- What a constraint of an npm manifest admits: a version in one of its ranges, all of whose
branches can be read. -/
def NpmAdmits (specifier version : Text) : Prop :=
  ∃ actual, parseVersion version = some actual ∧
    (∀ branch ∈ branchesOf specifier, branch ≠ [] ∧ ∃ range, readBranch branch = .ok range) ∧
    ∃ branch ∈ branchesOf specifier, ∃ range, readBranch branch = .ok range ∧
      range.Contains actual

theorem prereleaseIsAdmitted_iff (version : Version Text) (named : List (Version Text)) :
    prereleaseIsAdmitted version named ↔ Named version named := by
  simp [prereleaseIsAdmitted, Named, and_assoc]

theorem compare_nonneg_iff (left right : Version Text) :
    0 ≤ compare left right ↔ ¬left.Precedes right := by
  rw [← compare_neg_iff, Int.not_lt]

theorem compare_nonpos_iff (left right : Version Text) :
    compare left right ≤ 0 ↔ ¬right.Precedes left := by
  rw [← compare_pos_iff, gt_iff_lt, Int.not_lt]

theorem compare_eq_zero_iff (left right : Version Text) : compare left right = 0 ↔ left = right := by
  refine ⟨fun h => ?_, fun h => h ▸ compare_self left⟩
  have hlt := (compare_neg_iff left right).not.1 (by omega)
  have hgt := (compare_pos_iff left right).not.1 (by omega)
  rcases left.trichotomy right with h | h | h
  · exact absurd h hlt
  · exact h
  · exact absurd h hgt

theorem Operator.matches_iff (operator : Operator) (actual expected : Version Text) :
    operator.matches actual expected ↔ operator.Holds actual expected := by
  cases operator with
  | eq => simp [Operator.matches, Operator.Holds, compare_eq_zero_iff]
  | gt => simp [Operator.matches, Operator.Holds, ← compare_pos_iff]
  | ge => simp [Operator.matches, Operator.Holds, compare_nonneg_iff]
  | lt => simp [Operator.matches, Operator.Holds, compare_neg_iff]
  | le => simp [Operator.matches, Operator.Holds, compare_nonpos_iff]

theorem Range.matches_iff (range : Range) (v : Version Text) :
    range.matches v ↔ range.Contains v := by
  cases range with
  | hyphen lower upper =>
    simp [Range.matches, Range.Contains, prereleaseIsAdmitted_iff, compare_nonneg_iff,
      compare_nonpos_iff, and_assoc]
  | caret lower =>
    simp [Range.matches, Range.Contains, prereleaseIsAdmitted_iff, compare_nonneg_iff,
      compare_neg_iff, and_assoc]
  | tilde lower =>
    simp [Range.matches, Range.Contains, prereleaseIsAdmitted_iff, compare_nonneg_iff,
      compare_neg_iff, and_assoc]
  | wildcard bounds =>
    cases bounds with
    | none => exact prereleaseIsAdmitted_iff v []
    | some bounds =>
      simp [Range.matches, Range.Contains, prereleaseIsAdmitted_iff, compare_nonneg_iff,
        compare_neg_iff, and_assoc]
  | comparators parsed =>
    simp [Range.matches, Range.Contains, prereleaseIsAdmitted_iff, Operator.matches_iff]

theorem anyMatch_iff (actual : Version Text) (branches : List Text) (found : Bool) :
    anyMatch actual branches found = (some true, none) ↔
      (∀ branch ∈ branches, ∃ range, readBranch branch = .ok range) ∧
        (found ∨ ∃ branch ∈ branches, ∃ range, readBranch branch = .ok range ∧
          range.Contains actual) := by
  induction branches generalizing found with
  | nil => simp [anyMatch]
  | cons branch branches ih =>
    simp only [anyMatch]
    cases hread : readBranch branch with
    | error error => simp [hread]
    | ok range => simp [hread, ih, Range.matches_iff, or_assoc]

theorem npmConstraintMatches_iff (specifier version : Text) :
    npmConstraintMatches specifier version = (some true, none) ↔ NpmAdmits specifier version := by
  unfold npmConstraintMatches NpmAdmits
  cases hactual : parseVersion version with
  | none => simp
  | some actual =>
    simp only [Option.some.injEq, exists_eq_left']
    by_cases hnil : strip specifier = []
    · have hbranches : branchesOf specifier = [[]] := by rw [branchesOf, hnil]; rfl
      rw [if_pos hnil]
      refine ⟨fun h => absurd (Prod.mk.inj h).1 (by simp), fun h => ?_⟩
      exact absurd rfl (h.1 [] (by simp [hbranches])).1
    · by_cases hempty : (branchesOf specifier).any (· = [])
      · rw [if_neg hnil, if_pos hempty]
        obtain ⟨branch, hbranch, hb⟩ := List.any_eq_true.1 hempty
        have hb' : branch = [] := of_decide_eq_true hb
        refine ⟨fun h => absurd (Prod.mk.inj h).1 (by simp), fun h => ?_⟩
        exact absurd hb' (h.1 branch hbranch).1
      · rw [if_neg hnil, if_neg hempty, anyMatch_iff]
        have hne : ∀ branch ∈ branchesOf specifier, branch ≠ [] := fun branch hbranch hb =>
          hempty (List.any_eq_true.2 ⟨branch, hbranch, decide_eq_true hb⟩)
        simp only [Bool.false_eq_true, false_or]
        refine and_congr_left fun _ => forall₂_congr fun branch hbranch => ?_
        simp [hne branch hbranch]

/-! ## The order, and alternatives as comparators -/

theorem compare_swap (left right : Version Text) : compare right left = -compare left right := by
  rcases left.trichotomy right with h | rfl | h
  · rw [(compare_of_precedes h).1, (compare_of_precedes h).2]
    rfl
  · rw [compare_self]
    rfl
  · rw [(compare_of_precedes h).1, (compare_of_precedes h).2]

theorem compare_trans {a b c : Version Text} (hab : compare a b < 0) (hbc : compare b c < 0) :
    compare a c < 0 :=
  (compare_neg_iff a c).mpr (((compare_neg_iff a b).mp hab).trans ((compare_neg_iff b c).mp hbc))

theorem compare_prerelease_release (core : Core) (prerelease : List (Identifier Text))
    (h : prerelease ≠ []) : compare ⟨core, prerelease⟩ ⟨core, []⟩ < 0 :=
  (compare_neg_iff _ _).mpr (.inr ⟨rfl, h, .inl rfl⟩)

/-- What a range stands for, written out: every sugared form is a lower and an upper bound. -/
def Range.expanded : Range → List (Operator × Version Text)
  | .hyphen lower upper => [(.ge, lower), (.le, upper)]
  | .caret lower => [(.ge, lower), (.lt, .release lower.core.caretUpper)]
  | .tilde lower => [(.ge, lower), (.lt, .release lower.core.tildeUpper)]
  | .wildcard none => []
  | .wildcard (some (lower, upper)) => [(.ge, .release lower), (.lt, .release upper)]
  | .comparators parsed => parsed

/-- All comparators are satisfied, and one of them names the release of a prerelease. -/
def Range.Admits (range : Range) (v : Version Text) : Prop :=
  (∀ comparator ∈ range.expanded, comparator.1.matches v comparator.2 = true) ∧
    (v.prerelease ≠ [] → ∃ comparator ∈ range.expanded,
      comparator.2.prerelease ≠ [] ∧ comparator.2.core = v.core)

/-- The bounds that a form adds are releases, so the prerelease rule sees only what was named. -/
theorem Range.matches_iff_admits (range : Range) (v : Version Text) :
    range.matches v ↔ range.Admits v := by
  have hnamed : ∀ named : List (Version Text), prereleaseIsAdmitted v named = true ↔
      (v.prerelease ≠ [] → ∃ bound ∈ named, bound.prerelease ≠ [] ∧ bound.core = v.core) := by
    intro named
    rw [prereleaseIsAdmitted_iff, Named]
    tauto
  have hrelease : ∀ core, (Version.release core : Version Text).prerelease = [] := fun _ => rfl
  cases range with
  | hyphen lower upper =>
    simp [Range.matches, Range.Admits, Range.expanded, Operator.matches, hnamed]
  | caret lower =>
    simp [Range.matches, Range.Admits, Range.expanded, Operator.matches, hnamed, hrelease]
  | tilde lower =>
    simp [Range.matches, Range.Admits, Range.expanded, Operator.matches, hnamed, hrelease]
  | wildcard bounds =>
    cases bounds with
    | none => simp [Range.matches, Range.Admits, Range.expanded, hnamed]
    | some bounds =>
      simp [Range.matches, Range.Admits, Range.expanded, Operator.matches, hnamed, hrelease]
  | comparators parsed =>
    have hmap : (∃ bound ∈ parsed.map (·.2), bound.prerelease ≠ [] ∧ bound.core = v.core) ↔
        ∃ comparator ∈ parsed, comparator.2.prerelease ≠ [] ∧ comparator.2.core = v.core := by
      constructor
      · rintro ⟨bound, hbound, h⟩
        obtain ⟨comparator, hcomparator, rfl⟩ := List.mem_map.mp hbound
        exact ⟨comparator, hcomparator, h⟩
      · rintro ⟨comparator, hcomparator, h⟩
        exact ⟨comparator.2, List.mem_map_of_mem hcomparator, h⟩
    rw [Range.matches, Bool.and_eq_true, List.all_eq_true, hnamed, hmap]
    rfl

theorem anyMatch_fst (actual : Version Text) (branches : List Text) (found : Bool)
    (h : (anyMatch actual branches found).2 = none) :
    (anyMatch actual branches found).1 = some true ↔
      found = true ∨ ∃ branch ∈ branches, ∃ range, readBranch branch = .ok range ∧
        range.Admits actual := by
  induction branches generalizing found with
  | nil => simp [anyMatch]
  | cons branch branches ih =>
    simp only [anyMatch] at h ⊢
    cases hread : readBranch branch with
    | error error =>
      rw [hread] at h
      cases h
    | ok range =>
      rw [hread] at h
      simp only [ih _ h, Bool.or_eq_true, range.matches_iff_admits, List.mem_cons,
        exists_eq_or_imp, hread, Except.ok.injEq, exists_eq_left', or_assoc]

/-- **npm matching.**  `_compare` is a strict total order of versions without their build parts in
which a release comes after its prereleases, and an accepted constraint matches exactly if one of
its alternatives has all its comparators satisfied in that order and, for a prerelease, names a
prerelease of the same release. -/
theorem npm_order_and_matching :
    (∀ a b c : Version Text, compare b a = -compare a b ∧ (compare a b = 0 ↔ a = b) ∧
      (compare a b < 0 → compare b c < 0 → compare a c < 0)) ∧
    (∀ (core : Core) (prerelease : List (Identifier Text)), prerelease ≠ [] →
      compare ⟨core, prerelease⟩ ⟨core, []⟩ < 0) ∧
    (∀ specifier version, (npmConstraintMatches specifier version).2 = none →
      ∃ actual, parseVersion version = some actual ∧
        ((npmConstraintMatches specifier version).1 = some true ↔
          ∃ branch ∈ branchesOf specifier, ∃ range, readBranch branch = .ok range ∧
            range.Admits actual)) := by
  refine ⟨fun a b c => ⟨compare_swap a b, compare_eq_zero_iff a b, compare_trans⟩,
    compare_prerelease_release, ?_⟩
  intro specifier version haccepted
  unfold npmConstraintMatches at haccepted ⊢
  cases hactual : parseVersion version with
  | none =>
    rw [hactual] at haccepted
    cases haccepted
  | some actual =>
    rw [hactual] at haccepted
    refine ⟨actual, rfl, ?_⟩
    simp only at haccepted ⊢
    split at haccepted
    · cases haccepted
    · next hnil =>
      split at haccepted
      · cases haccepted
      · next hempty =>
        rw [if_neg hnil, if_neg hempty, anyMatch_fst actual _ _ haccepted]
        simp

/-- A prerelease and the constraint `^1.0.0-a`. -/
theorem npm_order_and_matching_sample :
    ∃ actual, parseVersion ['1', '.', '0', '.', '0', '-', 'b'] = some actual ∧
      ((npmConstraintMatches ['^', '1', '.', '0', '.', '0', '-', 'a']
        ['1', '.', '0', '.', '0', '-', 'b']).1 = some true ↔
        ∃ branch ∈ branchesOf ['^', '1', '.', '0', '.', '0', '-', 'a'],
          ∃ range, readBranch branch = .ok range ∧ range.Admits actual) :=
  npm_order_and_matching.2.2 _ _ (by decide)

end Agentrail.NpmSemver
