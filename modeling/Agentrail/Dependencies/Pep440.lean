import Agentrail.Lib.Digits
import Agentrail.Lib.Cover
import Agentrail.Py.Re

/-!
# Poetry constraints on stable releases (`agentrail/dependencies/pep440.py`)

Constraints are parsed into clauses; a clause is a condition on releases and, for
the proof of containment, a list of intervals on the lattice of releases.
-/

namespace Agentrail.Pep440

open Py Regex

def pep440ConstraintMaxBytes : Nat := 512
def pep440MaxClauses : Nat := 32
def pep440MaxReleaseComponents : Nat := 8
def pep440MaxComponentDigits : Nat := 18

def releaseLatticeBase : Nat := 10 ^ pep440MaxComponentDigits
def releaseLatticeMax : Int := (releaseLatticeBase : Int) ^ pep440MaxReleaseComponents - 1

structure StablePep440Version where
  raw : Text
  release : List Nat
  deriving DecidableEq, Repr

/-- The kinds of `_ConstraintClause`, each with the fields that it uses. -/
inductive ConstraintClause where
  | any
  | prefixOf (components : List Nat)
  | excludePrefixOf (components : List Nat)
  | range (lower upper : StablePep440Version)
  | equal (expected : StablePep440Version)
  | notEqual (expected : StablePep440Version)
  | lt (expected : StablePep440Version)
  | le (expected : StablePep440Version)
  | gt (expected : StablePep440Version)
  | ge (expected : StablePep440Version)
  deriving DecidableEq, Repr

structure PoetryConstraint where
  raw : Text
  clauses : List ConstraintClause
  deriving DecidableEq, Repr

structure Interval where
  lower : Option (List Nat)
  lowerInclusive : Bool
  upper : Option (List Nat)
  upperInclusive : Bool
  deriving DecidableEq, Repr

/-! ## Versions -/

def startOfText : Re := .assert fun before _ => before.isEmpty

/-- `$` without `re.M`. -/
def dollar : Re := .assert fun _ after => after = [] || after = ['\n']

def text (s : String) : Re := .lit (fun c d => c = d) s.toList

def digitRun : Re := .plus true (.cls isDigit09)

/-- `[0-9]+(?:\.[0-9]+)*`. -/
def dotted : Re := .seq digitRun (.star true (.seq (text ".") digitRun))

/-- `_RELEASE`. -/
def releasePattern : Re := .cat [startOfText, .opt true (text "v"), .group 1 dotted, dollar]

/-- `pattern.fullmatch(value)`. -/
def fullmatch (pattern : Re) (value : Text) : Option State :=
  pattern.run ⟨[], value, []⟩ fun s => if s.after = [] then some s else none

/-- `parse_stable_version`. -/
def parseStableVersion (value : Text) : Option StablePep440Version :=
  if value = [] ∨ value ≠ strip value then none
  else
    match fullmatch releasePattern value with
    | none => none
    | some matched =>
      let rawComponents := splitOn1 '.' (matched.groupText 1)
      if ¬(1 ≤ rawComponents.length ∧ rawComponents.length ≤ pep440MaxReleaseComponents) then none
      else if rawComponents.any fun component => component.length > pep440MaxComponentDigits then
        none
      else some ⟨value, rawComponents.map intOfDecimal⟩

/-- `_require_stable_version`. -/
def requireStableVersion (value : Text) : Except Text StablePep440Version :=
  match parseStableVersion value with
  | none => .error ("version is outside the admitted stable PEP 440 subset: ".toList ++ value)
  | some parsed => .ok parsed

/-- `release + (0,) * (width - len(release))`. -/
def padded (width : Nat) (release : List Nat) : List Nat :=
  release ++ List.replicate (width - release.length) 0

/-- `_compare_release`: tuples are compared lexicographically. -/
def compareRelease (left right : List Nat) : Int :=
  let width := max left.length right.length
  if padded width left = padded width right then 0
  else if padded width left < padded width right then -1
  else 1

/-! ## Clauses -/

/-- `_WILDCARD`. -/
def wildcardPattern : Re :=
  .cat [startOfText, .opt true (.group 1 (.any [text "==", text "!="])), .star true space,
    .group 2 dotted, text ".*", dollar]

/-- `_CLAUSE`. -/
def clausePattern : Re :=
  .cat [startOfText,
    .opt true (.group 1 (.any [text "~=", text "==", text "!=", text "<=", text ">=", text "<",
      text ">", text "^", text "~"])),
    .star true space, .group 2 (.plus true (.cls fun c => !isSpace c)), dollar]

/-- `_parse_release_components(value, maximum=None)`. -/
def parseReleaseComponents (value : Text) : Except Text (List Nat) :=
  let components := splitOn1 '.' value
  if ¬(1 ≤ components.length ∧ components.length ≤ pep440MaxReleaseComponents) then
    .error "Poetry constraint has too many release components".toList
  else if components.any fun component =>
      component = [] || !component.all isDigit09 || component.length > pep440MaxComponentDigits then
    .error "Poetry constraint has an invalid release component".toList
  else .ok (components.map intOfDecimal)

/-- `".".join(str(part) for part in release)`. -/
def releaseText (release : List Nat) : Text :=
  (List.intersperse ['.'] (release.map (Nat.toDigits 10))).flatten

/-- `_range_clause`. -/
def rangeClause (lower : StablePep440Version) (upperRelease : List Nat) : ConstraintClause :=
  .range lower ⟨releaseText upperRelease, upperRelease⟩

/-- `_caret_upper`. -/
def caretUpper (release : List Nat) : List Nat :=
  Digits.bump ((release.findIdx? fun part => part ≠ 0).getD (release.length - 1)) release

/-- `_tilde_upper`. -/
def tildeUpper (release : List Nat) : List Nat :=
  Digits.bump (if release.length = 1 then 0 else 1) release

/-- `_compatible_upper`. -/
def compatibleUpper (release : List Nat) : List Nat := Digits.bump (release.length - 2) release

/-- `_increment_prefix`. -/
def incrementPrefix (components : List Nat) : List Nat :=
  Digits.bump (components.length - 1) components

/-- `_parse_clause`, of an operator and a version. -/
def versionClause (operator : Text) (expected : StablePep440Version) :
    Except Text ConstraintClause :=
  if operator = ['^'] then
    if expected.release.length > 3 then
      .error "Poetry caret constraints support at most three release components".toList
    else .ok (rangeClause expected (caretUpper expected.release))
  else if operator = ['~'] then
    if expected.release.length > 3 then
      .error "Poetry tilde constraints support at most three release components".toList
    else .ok (rangeClause expected (tildeUpper expected.release))
  else if operator = ['~', '='] then
    if expected.release.length < 2 then
      .error "PEP 440 compatible release requires at least two components".toList
    else .ok (rangeClause expected (compatibleUpper expected.release))
  else if operator = ['=', '='] then .ok (.equal expected)
  else if operator = ['!', '='] then .ok (.notEqual expected)
  else if operator = ['<'] then .ok (.lt expected)
  else if operator = ['<', '='] then .ok (.le expected)
  else if operator = ['>'] then .ok (.gt expected)
  else .ok (.ge expected)

/-- `_parse_clause`. -/
def parseClause (text : Text) : Except Text ConstraintClause :=
  if text = ['*'] then .ok .any
  else
    match fullmatch wildcardPattern text with
    | some wildcard => do
      let components ← parseReleaseComponents (wildcard.groupText 2)
      .ok (if wildcard.groupText 1 = ['!', '='] then .excludePrefixOf components
        else .prefixOf components)
    | none =>
      match fullmatch clausePattern text with
      | none => .error ("unsupported Poetry/PEP 440 constraint syntax: ".toList ++ text)
      | some matched => do
        let operator := if matched.groupText 1 = [] then ['=', '='] else matched.groupText 1
        let expected ← requireStableVersion (matched.groupText 2)
        versionClause operator expected

/-- `token in value`. -/
def isIn (token value : Text) : Bool := (partitionAt token value).isSome

/-- `parse_poetry_constraint`. -/
def parsePoetryConstraint (value : Text) : Except Text PoetryConstraint :=
  if value = [] ∨ value ≠ strip value then
    .error "Poetry constraint must be non-empty text without outer whitespace".toList
  else if (utf8Encode value).length > pep440ConstraintMaxBytes then
    .error "Poetry constraint exceeds the byte limit".toList
  else if ["||", ";", "@", "===", "\\"].any fun token => isIn token.toList value then
    .error "Poetry constraint uses an unsupported selector or source form".toList
  else
    let rawClauses := splitOn1 ',' value
    if ¬(1 ≤ rawClauses.length ∧ rawClauses.length ≤ pep440MaxClauses) ∨
        rawClauses.any fun clause => strip clause = [] then
      .error "Poetry constraint has an invalid clause list".toList
    else do
      let clauses ← rawClauses.mapM fun clause => parseClause (strip clause)
      .ok ⟨value, clauses⟩

/-- `_clause_matches`. -/
def clauseMatches (clause : ConstraintClause) (actual : StablePep440Version) : Bool :=
  let compare := fun (expected : StablePep440Version) =>
    compareRelease actual.release expected.release
  match clause with
  | .any => true
  | .prefixOf p => (padded p.length actual.release).take p.length = p
  | .excludePrefixOf p => !decide ((padded p.length actual.release).take p.length = p)
  | .range lower upper => compare lower ≥ 0 && compare upper < 0
  | .equal expected => compare expected = 0
  | .notEqual expected => compare expected ≠ 0
  | .lt expected => compare expected < 0
  | .le expected => compare expected ≤ 0
  | .gt expected => compare expected > 0
  | .ge expected => compare expected ≥ 0

/-- `PoetryConstraint.matches`. -/
def PoetryConstraint.matches (constraint : PoetryConstraint) (actual : StablePep440Version) :
    Bool :=
  constraint.clauses.all fun clause => clauseMatches clause actual

/-! ## Intervals -/

/-- `_release_lattice_index`. -/
def releaseLatticeIndex (release : List Nat) : Nat :=
  (padded pep440MaxReleaseComponents release).foldl
    (fun index component => index * releaseLatticeBase + component) 0

/-- `minimum` of `_validated_interval`. -/
def minimumOf (lower : Option (List Nat)) (inclusive : Bool) : Int :=
  match lower with
  | none => 0
  | some r => (releaseLatticeIndex r : Int) + if inclusive then 0 else 1

/-- `maximum` of `_validated_interval`. -/
def maximumOf (upper : Option (List Nat)) (inclusive : Bool) : Int :=
  match upper with
  | none => releaseLatticeMax
  | some r => (releaseLatticeIndex r : Int) - if inclusive then 0 else 1

/-- `_validated_interval`. -/
def validatedInterval (lower : Option (List Nat)) (lowerInclusive : Bool)
    (upper : Option (List Nat)) (upperInclusive : Bool) : Option Interval :=
  let minimum := minimumOf lower lowerInclusive
  let maximum := maximumOf upper upperInclusive
  if 0 ≤ minimum ∧ minimum ≤ maximum ∧ maximum ≤ releaseLatticeMax then
    some ⟨lower, lowerInclusive, upper, upperInclusive⟩
  else none

/-- `_later_lower`. -/
def laterLower (left right : Interval) : Option (List Nat) × Bool :=
  match left.lower, right.lower with
  | none, _ => (right.lower, right.lowerInclusive)
  | _, none => (left.lower, left.lowerInclusive)
  | some l, some r =>
    if compareRelease l r > 0 then (left.lower, left.lowerInclusive)
    else if compareRelease l r < 0 then (right.lower, right.lowerInclusive)
    else (left.lower, left.lowerInclusive && right.lowerInclusive)

/-- `_earlier_upper`. -/
def earlierUpper (left right : Interval) : Option (List Nat) × Bool :=
  match left.upper, right.upper with
  | none, _ => (right.upper, right.upperInclusive)
  | _, none => (left.upper, left.upperInclusive)
  | some l, some r =>
    if compareRelease l r < 0 then (left.upper, left.upperInclusive)
    else if compareRelease l r > 0 then (right.upper, right.upperInclusive)
    else (left.upper, left.upperInclusive && right.upperInclusive)

/-- `_intersect_interval`. -/
def intersectInterval (left right : Interval) : Option Interval :=
  let lower := laterLower left right
  let upper := earlierUpper left right
  validatedInterval lower.1 lower.2 upper.1 upper.2

/-- What is `left` of the intersection. -/
def leftOf (source intersection : Interval) : List Interval :=
  match intersection.lower with
  | none => []
  | some r =>
    (validatedInterval source.lower source.lowerInclusive (some r)
      (!intersection.lowerInclusive)).toList

/-- What is `right` of the intersection. -/
def rightOf (source intersection : Interval) : List Interval :=
  match intersection.upper with
  | none => []
  | some r =>
    (validatedInterval (some r) (!intersection.upperInclusive) source.upper
      source.upperInclusive).toList

/-- `_subtract_interval`. -/
def subtractInterval (source cover : Interval) : List Interval :=
  match intersectInterval source cover with
  | none => [source]
  | some intersection => leftOf source intersection ++ rightOf source intersection

def universeLower : List Nat := [0]

/-- `_clause_intervals`. -/
def clauseIntervals : ConstraintClause → List Interval
  | .any => [⟨some universeLower, true, none, false⟩]
  | .prefixOf p => [⟨some p, true, some (incrementPrefix p), false⟩]
  | .excludePrefixOf p =>
    (validatedInterval (some universeLower) true (some p) false).toList ++
      (validatedInterval (some (incrementPrefix p)) true none false).toList
  | .range lower upper => [⟨some lower.release, true, some upper.release, false⟩]
  | .equal expected => [⟨some expected.release, true, some expected.release, true⟩]
  | .notEqual expected =>
    (validatedInterval (some universeLower) true (some expected.release) false).toList ++
      (validatedInterval (some expected.release) false none false).toList
  | .lt expected => (validatedInterval (some universeLower) true (some expected.release) false).toList
  | .le expected => (validatedInterval (some universeLower) true (some expected.release) true).toList
  | .gt expected => [⟨some expected.release, false, none, false⟩]
  | .ge expected => [⟨some expected.release, true, none, false⟩]

/-- The loop of `_constraint_intervals`. -/
def constraintIntervalsFrom (intervals : List Interval) : List ConstraintClause → List Interval
  | [] => intervals
  | clause :: clauses =>
    let intersections := Cover.meets intersectInterval intervals (clauseIntervals clause)
    if intersections = [] then [] else constraintIntervalsFrom intersections clauses

/-- `_constraint_intervals`. -/
def constraintIntervals (constraint : PoetryConstraint) : List Interval :=
  constraintIntervalsFrom [⟨some universeLower, true, none, false⟩] constraint.clauses

/-- The loop of `poetry_constraint_is_subset`: whether nothing is left uncovered. -/
def coveredBy (uncovered : List Interval) : List Interval → Bool
  | [] => false
  | cover :: covers =>
    let remaining := Cover.without subtractInterval uncovered cover
    if remaining = [] then true else coveredBy remaining covers

/-- `poetry_constraint_is_subset`. -/
def poetryConstraintIsSubset (subset superset : Text) : Option Bool × Option Text :=
  match (do
      let p ← parsePoetryConstraint subset
      let q ← parsePoetryConstraint superset
      pure (constraintIntervals p, constraintIntervals q)) with
  | .error message => (none, some message)
  | .ok (subsetIntervals, supersetIntervals) =>
    if subsetIntervals = [] then
      (none, some "subset constraint admits no stable release".toList)
    else (some (coveredBy subsetIntervals supersetIntervals), none)

end Agentrail.Pep440
