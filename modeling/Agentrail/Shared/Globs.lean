import Agentrail.Lib.RegexRules
import Agentrail.Py.Re

/-!
# Globs (`shared/fs.py`)

`glob_to_regex` writes a glob as a regular expression under `re.I`.  `matches_glob` compares
strings instead where a literal prefix stands before `/**`.

`literal_prefix_agrees_iff`: the two ways agree on a path unless it lies below the prefix in
another letter case, or below the prefix with a line break inside.
-/

namespace Agentrail.Globs

open Py Regex

/-! ## Patterns under `re.I` -/

/-- The letter case of the interpreter's Unicode database. -/
structure CaseTable where
  lower : Char → Char
  upper : Char → Char
  /-- `_EXTRA_CASES`: the other lower case letters that a lower case letter stands for -/
  extraCases : Char → List Char

/-- Whether a character of a pattern reads `d`. -/
def CaseTable.same (table : CaseTable) (c d : Char) : Bool :=
  if table.lower c = c && table.upper c = c then d = c
  else (table.lower c :: table.extraCases (table.lower c)).contains (table.lower d)

/-- The letters of ASCII. -/
def asciiCase : CaseTable where
  lower := Char.toLower
  upper := Char.toUpper
  extraCases := fun _ => []

/-- `$` without `re.M`: the end, or the line break at the end. -/
def dollar : Re := .assert fun _ after => after = [] || after = ['\n']

section
variable (table : CaseTable)

/-- `(?:.*/)?`. -/
def anyDirectory : Re := .opt true (.seq (.star true dot) (.cls (table.same '/')))

/-! ## Globs as patterns -/

/-- The loop of `glob_to_regex`. -/
def globParts : Text → List Re
  | [] => []
  | '*' :: '*' :: '/' :: rest => anyDirectory table :: globParts rest
  | '*' :: '*' :: rest => .star true dot :: globParts rest
  | '*' :: rest => .star true (.cls (· ≠ '/')) :: globParts rest
  | '?' :: rest => .cls (· ≠ '/') :: globParts rest
  | char :: rest => .cls (table.same char) :: globParts rest

/-- `pattern.match(path)` of the parts between `^` and `$`. -/
def matchesParts (parts : List Re) (path : Text) : Bool :=
  ((Re.cat (parts ++ [dollar])).run ⟨[], path, []⟩ some).isSome

/-- `glob_to_regex(glob).match(path)`. -/
def globToRegex (glob path : Text) : Bool := matchesParts (globParts table glob) path

/-- `_doublestar_regex(glob).match(path)`. -/
def doublestarRegex (glob path : Text) : Bool :=
  matchesParts (anyDirectory table :: globParts table (glob.drop 3)) path

def isLiteral (t : Text) : Bool := !t.contains '*' && !t.contains '?'

def below : Text := "/**".toList

def matchesGlob (glob relativePath : Text) (isDirectory : Bool) : Bool :=
  if glob = "**/*".toList then true
  else if below.isSuffixOf glob && isLiteral (glob.take (glob.length - 3)) then
    let literal := glob.take (glob.length - 3)
    relativePath = literal || (literal ++ ['/']).isPrefixOf relativePath
  else if "**/".toList.isPrefixOf glob && doublestarRegex table glob relativePath then true
  else
    let target := if isDirectory then relativePath ++ ['/'] else relativePath
    globToRegex table glob relativePath || globToRegex table glob target

def matchesAny (globs : List Text) (relativePath : Text) (isDirectory : Bool) : Bool :=
  globs.any fun glob => matchesGlob table glob relativePath isDirectory

/-! ## What the patterns read -/

section
variable {table}

theorem globParts_literal (p : Text) (hp : isLiteral p = true) :
    globParts table (p ++ below) =
      ((p ++ ['/']).map fun c => .cls (table.same c)) ++ [.star true dot] := by
  induction p with
  | nil => rfl
  | cons c p ih =>
    have hc : c ≠ '*' ∧ c ≠ '?' ∧ isLiteral p = true := by
      unfold isLiteral at hp ⊢
      simp only [List.contains_cons, Bool.and_eq_true, Bool.not_eq_true', Bool.or_eq_false_iff,
        beq_eq_false_iff_ne] at hp ⊢
      exact ⟨Ne.symm hp.1.1, Ne.symm hp.2.1, hp.1.2, hp.2.2⟩
    obtain ⟨hstar, hmark, hrest⟩ := hc
    rw [List.cons_append, globParts]
    · rw [ih hrest]
      rfl
    all_goals simp_all

/-- `.*$` reads a text without line breaks, or with one at its end. -/
theorem takeGreedy_dollar (after : Text) : ∀ before : Text,
    (takeGreedy (fun c => c ≠ '\n') (fun b a => dollar.run ⟨b, a, []⟩ some) before after).isSome =
      decide ('\n' ∉ after.dropLast) := by
  induction after with
  | nil => exact fun before => rfl
  | cons c rest ih =>
    intro before
    rw [takeGreedy]
    have hdollar : (dollar.run ⟨before, c :: rest, []⟩ some).isSome =
        decide (c = '\n' ∧ rest = []) := by
      unfold dollar
      rw [run_assert]
      cases rest with
      | nil => by_cases h : c = '\n' <;> simp [h]
      | cons d rest => simp
    by_cases hc : c = '\n'
    · subst hc
      rw [if_neg (by simp), hdollar]
      cases rest <;> simp
    · rw [if_pos (by simpa using hc), Option.isSome_or, ih, hdollar]
      cases rest <;> simp [hc, Ne.symm hc]

theorem globToRegex_literal (p : Text) (hp : isLiteral p = true) (path : Text) :
    globToRegex table (p ++ below) path =
      (startsWith table.same (p ++ ['/']) path &&
        decide ('\n' ∉ (path.drop (p.length + 1)).dropLast)) := by
  unfold globToRegex matchesParts
  rw [globParts_literal p hp, List.append_assoc, run_cat_append]
  show ((Re.lit table.same (p ++ ['/'])).run ⟨[], path, []⟩ _).isSome = _
  rw [run_lit, List.length_append]
  cases startsWith table.same (p ++ ['/']) path with
  | false => rfl
  | true =>
    rw [if_pos rfl, Bool.true_and]
    show ((Re.cat [.star true dot, dollar]).run ⟨_, path.drop (p.length + 1), []⟩ some).isSome = _
    rw [← takeGreedy_dollar]
    exact congrArg Option.isSome (run_star_greedy _ _ _ _ _)

theorem matchesGlob_literal (p : Text) (hp : isLiteral p = true) (path : Text) (directory : Bool) :
    matchesGlob table (p ++ below) path directory = true ↔ path = p ∨ p ++ ['/'] <+: path := by
  have hlength : (p ++ below).length - 3 = p.length := by
    rw [List.length_append]
    exact Nat.add_sub_cancel ..
  have hall : p ++ below ≠ "**/*".toList := by
    intro h
    have hstar : (p ++ below).take p.length = "**/*".toList.take p.length := by rw [h]
    have hsame := congrArg List.length h
    rw [List.length_append] at hsame
    have hone : p.length = 1 := Nat.add_right_cancel hsame
    rw [List.take_left, hone] at hstar
    rw [hstar] at hp
    exact absurd hp (by decide)
  unfold matchesGlob
  rw [if_neg hall, hlength, List.take_left, hp]
  have hsuffix : below.isSuffixOf (p ++ below) = true :=
    List.isSuffixOf_iff_suffix.mpr (List.suffix_append p below)
  rw [hsuffix]
  show (decide (path = p) || (p ++ ['/']).isPrefixOf path) = true ↔ _
  rw [Bool.or_eq_true, decide_eq_true_iff, List.isPrefixOf_iff_prefix]

/-! ## The two ways side by side -/

theorem same_self (table : CaseTable) (c : Char) : table.same c c = true := by
  unfold CaseTable.same
  split <;> simp

/-- What lies below the prefix is spelled as the prefix is, and its rest is one line. -/
structure Plain (table : CaseTable) (p path : Text) : Prop where
  spelling : startsWith table.same (p ++ ['/']) path = true →
    '\n' ∉ (path.drop (p.length + 1)).dropLast → p ++ ['/'] <+: path
  oneLine : p ++ ['/'] <+: path → '\n' ∉ (path.drop (p.length + 1)).dropLast

/-- **The short cut agrees with the pattern** on a path if and only if the path is not below the
prefix in another letter case, nor below it with a line break before its last character. -/
theorem literal_prefix_agrees_iff (table : CaseTable) (p path : Text) (directory : Bool)
    (hp : isLiteral p = true) :
    (matchesGlob table (p ++ below) path directory = true ↔
        path = p ∨ globToRegex table (p ++ below) path = true) ↔
      Plain table p path := by
  have hself : ¬ p ++ ['/'] <+: p := fun h => by
    have hle := h.length_le
    rw [List.length_append] at hle
    exact absurd hle (Nat.not_succ_le_self _)
  have hself' : ¬ startsWith table.same (p ++ ['/']) p = true := fun h => by
    have hle := length_le_of_startsWith _ _ h
    rw [List.length_append] at hle
    exact absurd hle (Nat.not_succ_le_self _)
  rw [matchesGlob_literal p hp, globToRegex_literal p hp, Bool.and_eq_true, decide_eq_true_iff]
  constructor
  · intro h
    refine ⟨fun hspelled hline => ?_, fun hbelow => ?_⟩
    · obtain rfl | hbelow := h.mpr (Or.inr ⟨hspelled, hline⟩)
      · exact absurd hspelled hself'
      · exact hbelow
    · obtain rfl | hmatch := h.mp (Or.inr hbelow)
      · exact absurd hbelow hself
      · exact hmatch.2
  · intro h
    refine or_congr_right ⟨fun hbelow => ?_, fun hmatch => h.spelling hmatch.1 hmatch.2⟩
    exact ⟨startsWith_of_isPrefixOf (same_self table) hbelow, h.oneLine hbelow⟩

theorem secrets_below_secrets :
    (matchesGlob asciiCase ("secrets".toList ++ below) "secrets/key.pem".toList false = true ↔
        "secrets/key.pem".toList = "secrets".toList ∨
          globToRegex asciiCase ("secrets".toList ++ below) "secrets/key.pem".toList = true) ↔
      Plain asciiCase "secrets".toList "secrets/key.pem".toList :=
  literal_prefix_agrees_iff asciiCase "secrets".toList "secrets/key.pem".toList false (by decide)

/-- `Secrets/key.pem` is matched by the pattern of `secrets/**` and not by the short cut. -/
theorem short_cut_minds_letter_case :
    ¬ ∀ p path : Text, isLiteral p = true →
      (matchesGlob asciiCase (p ++ below) path false = true ↔
        path = p ∨ globToRegex asciiCase (p ++ below) path = true) := by
  intro h
  have hcase := h "secrets".toList "Secrets/key.pem".toList (by decide)
  exact absurd (hcase.mpr (Or.inr (by decide))) (by decide)

end

end

end Agentrail.Globs
