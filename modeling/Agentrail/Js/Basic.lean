import Agentrail.Lib.Text
import Mathlib.Data.List.Basic
import Mathlib.Data.List.TakeWhile
import Mathlib.Data.Rat.Defs

/-!
# The part of JavaScript's built-in types that the TypeScript modules use

A string is a list of Unicode scalar values: nothing here looks at the halves
of a surrogate pair.  Numbers that count are naturals (issue numbers stay below
2^53); `Json` is what a `jsonb` column holds.
-/

namespace Js

abbrev Text := List Char

/-! ## Characters -/

/-- What ends a line: `\n`, `\r`, U+2028 and U+2029. -/
def isLineTerminator (c : Char) : Bool :=
  let n := c.toNat
  n = 0x0a || n = 0x0d || n = 0x2028 || n = 0x2029

/-- `\s`; also what `trim` removes. -/
def isSpace (c : Char) : Bool :=
  let n := c.toNat
  (0x09 ≤ n && n ≤ 0x0d) || n = 0x20 || n = 0xa0 || n = 0x1680 || (0x2000 ≤ n && n ≤ 0x200a) ||
    n = 0x2028 || n = 0x2029 || n = 0x202f || n = 0x205f || n = 0x3000 || n = 0xfeff

def isDigit (c : Char) : Bool := c.isDigit

/-- `\w`. -/
def isWord (c : Char) : Bool :=
  isDigit c || ('A' ≤ c && c ≤ 'Z') || ('a' ≤ c && c ≤ 'z') || c = '_'

/-! ## Strings -/

def trimStart (t : Text) : Text := t.dropWhile isSpace

def trim (t : Text) : Text := (trimStart (trimStart t).reverse).reverse

/-- `a.join(sep)`. -/
def join (sep : Text) (parts : List Text) : Text := List.flatten (parts.intersperse sep)

/-- The text before and after the last occurrence of `c`: `t.lastIndexOf(c)` with the two
`slice`s around it. -/
def splitLast (c : Char) (t : Text) : Option (Text × Text) :=
  if c ∈ t then
    let last := (t.reverse.takeWhile (· ≠ c)).reverse
    some (t.take (t.length - last.length - 1), last)
  else none

/-- `t.split(c).pop()`. -/
def lastPart (c : Char) (t : Text) : Text := (t.reverse.takeWhile (· ≠ c)).reverse

theorem takeWhile_ne_append (c : Char) (a b : Text) (h : c ∉ a) :
    (a ++ c :: b).takeWhile (· ≠ c) = a := by
  rw [List.takeWhile_append_of_pos]
  · simp
  · intro x hx
    exact decide_eq_true fun he => h (he ▸ hx)

theorem lastPart_append (c : Char) (a b : Text) (h : c ∉ b) : lastPart c (a ++ c :: b) = b := by
  unfold lastPart
  rw [List.reverse_append, List.reverse_cons, List.append_assoc, List.singleton_append,
    takeWhile_ne_append c _ _ (by rwa [List.mem_reverse]), List.reverse_reverse]

theorem splitLast_append (c : Char) (a b : Text) (h : c ∉ b) :
    splitLast c (a ++ c :: b) = some (a, b) := by
  have hlast := lastPart_append c a b h
  unfold lastPart at hlast
  unfold splitLast
  rw [if_pos (by simp)]
  simp only [hlast]
  have hlen : (a ++ c :: b).length - b.length - 1 = a.length := by simp; omega
  rw [hlen, List.take_left]

/-! ## Numbers -/

/-- `String(n)` of an integer. -/
def decimal (n : Nat) : Text := Nat.toDigits 10 n

/-- `Number(t)` for the texts that end an external id: decimal digits between blanks; everything
else is taken as `NaN`. -/
def number (t : Text) : Option Nat :=
  let digits := trim t
  if digits.all isDigit then some (Nat.ofDigitChars 10 digits 0) else none

/-- `Number.parseInt(t, 10)` where it is a natural number. -/
def parseInt (t : Text) : Option Nat :=
  let rest := trimStart t
  let digits := (if rest.head? = some '+' then rest.tail else rest).takeWhile isDigit
  if digits = [] then none else some (Nat.ofDigitChars 10 digits 0)

theorem isDigit_of_mem_decimal (n : Nat) (c : Char) (h : c ∈ decimal n) : isDigit c :=
  Nat.isDigit_of_mem_toDigits (by decide) (by decide) h

theorem not_isSpace_of_isDigit (c : Char) (h : isDigit c) : isSpace c = false := by
  have hd : '0'.toNat ≤ c.toNat ∧ c.toNat ≤ '9'.toNat := Char.isDigit_iff_toNat.mp h
  have h0 : '0'.toNat = 48 := rfl
  have h9 : '9'.toNat = 57 := rfl
  unfold isSpace
  simp only [Bool.or_eq_false_iff, Bool.and_eq_false_iff, decide_eq_false_iff_not]
  omega

theorem trim_decimal (n : Nat) : trim (decimal n) = decimal n := by
  have hdrop : ∀ t : Text, (∀ c ∈ t, isDigit c) → trimStart t = t := by
    intro t ht
    cases t with
    | nil => rfl
    | cons c t =>
      unfold trimStart
      rw [List.dropWhile_cons_of_neg]
      simp [not_isSpace_of_isDigit c (ht c List.mem_cons_self)]
  have hdigits : ∀ c ∈ decimal n, isDigit c := isDigit_of_mem_decimal n
  unfold trim
  rw [hdrop _ hdigits, hdrop _ fun c hc => hdigits c (List.mem_reverse.mp hc), List.reverse_reverse]

/-- A printed number reads back. -/
theorem number_decimal (n : Nat) : number (decimal n) = some n := by
  unfold number
  rw [trim_decimal]
  simp only
  rw [if_pos (List.all_eq_true.mpr (isDigit_of_mem_decimal n))]
  exact congrArg some Nat.ofDigitChars_ten_toDigits

theorem hash_notMem_decimal (n : Nat) : '#' ∉ decimal n := fun h =>
  absurd (isDigit_of_mem_decimal n '#' h) (by decide)

/-! ## JSON -/

inductive Json where
  | null
  | bool (b : Bool)
  | num (q : ℚ)
  | str (t : Text)
  | arr (xs : List Json)
  | obj (fields : List (Text × Json))

/-- `v[key]` of a value that is an object and no array. -/
def Json.get (key : Text) : Json → Option Json
  | .obj fields => fields.lookup key
  | _ => none

end Js
