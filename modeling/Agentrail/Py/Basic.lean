import Agentrail.Lib.Text
import Mathlib.Data.List.Basic
import Mathlib.Data.List.Infix

/-!
# The part of Python's built-in types that the Python modules use

`bytes` is `List UInt8`, `str` is `List Char`.  A raised exception is a
`PyError` with its message; an argument annotated `object` is a `PyObject`.
`partition`, `rpartition` and `splitOn1` are the methods of both `bytes` and
`str`, so they are stated over any alphabet.
-/

namespace Py

abbrev Bytes := List UInt8
abbrev Text := List Char

/-- A raised exception: its class and its message. -/
inductive PyError where
  | valueError (msg : String)
  | runtimeError (msg : String)
  | indexError (msg : String)
  /-- `urllib.error.HTTPError` with its status code -/
  | httpError (code : Nat)
  /-- `urllib.error.URLError` -/
  | urlError (msg : String)
  deriving DecidableEq, Repr

/-- A value of static type `object`, as far as the code looks into it. -/
inductive PyObject where
  | bytes (b : Bytes)
  | str (s : Text)
  | list (xs : List PyObject)
  | tuple (xs : List PyObject)
  | other

/-! ## What code that did not raise went through -/

theorem throw_eq_error {ε α : Type} (e : ε) : (throw e : Except ε α) = .error e := rfl

theorem pure_eq_ok {ε α : Type} (a : α) : (pure a : Except ε α) = .ok a := rfl

theorem error_bind {ε α β : Type} (e : ε) (f : α → Except ε β) :
    ((.error e : Except ε α) >>= f) = .error e := rfl

theorem except_bind_eq_ok {ε α β : Type} (x : Except ε α) (f : α → Except ε β) (b : β) :
    (x >>= f) = .ok b ↔ ∃ a, x = .ok a ∧ f a = .ok b := by
  cases x with
  | error e => exact ⟨nofun, nofun⟩
  | ok a => exact ⟨fun h => ⟨a, rfl, h⟩, fun ⟨_, ha, h⟩ => by cases ha; exact h⟩

theorem ite_error_eq_ok {ε α : Type} (c : Prop) [Decidable c] (e : ε) (x : Except ε α) (a : α) :
    (if c then .error e else x) = .ok a ↔ ¬ c ∧ x = .ok a := by
  split <;> simp_all

theorem mem_mapM_ok {ε α β : Type} (f : α → Except ε β) (xs : List α) (ys : List β)
    (h : xs.mapM f = .ok ys) : ∀ y ∈ ys, ∃ x ∈ xs, f x = .ok y := by
  induction xs generalizing ys with
  | nil =>
    cases h
    intro y hy
    cases hy
  | cons x xs ih =>
    rw [List.mapM_cons] at h
    obtain ⟨y, hy, h⟩ := (except_bind_eq_ok _ _ _).mp h
    obtain ⟨ys', hys, h⟩ := (except_bind_eq_ok _ _ _).mp h
    cases h
    intro z hz
    rcases List.mem_cons.mp hz with rfl | hz
    · exact ⟨x, List.mem_cons_self, hy⟩
    · obtain ⟨x', hx', hf⟩ := ih ys' hys z hz
      exact ⟨x', List.mem_cons_of_mem x hx', hf⟩

/-! ## Splitting -/

section
variable {α : Type} [DecidableEq α]

/-- The text before and after the first occurrence of `sep`. -/
def partitionAt (sep : List α) : List α → Option (List α × List α)
  | [] => if sep.isPrefixOf [] then some ([], []) else none
  | c :: s =>
    if sep.isPrefixOf (c :: s) then some ([], (c :: s).drop sep.length)
    else (partitionAt sep s).map fun r => (c :: r.1, r.2)

/-- `s.partition(sep)`: the middle part is empty when `sep` does not occur. -/
def partition (s sep : List α) : List α × List α × List α :=
  match partitionAt sep s with
  | some (l, r) => (l, sep, r)
  | none => (s, [], [])

/-- `s.rpartition(sep)`: the last occurrence of `sep`. -/
def rpartition (s sep : List α) : List α × List α × List α :=
  match partitionAt sep.reverse s.reverse with
  | some (r, l) => (l.reverse, sep, r.reverse)
  | none => ([], [], s)

/-- `s.split(c)` for a one-character separator. -/
def splitOn1 (c : α) : List α → List (List α)
  | [] => [[]]
  | d :: s =>
    if d = c then [] :: splitOn1 c s
    else match splitOn1 c s with
      | [] => [[d]]
      | p :: ps => (d :: p) :: ps

end

/-! ## Characters -/

/-- `c.isspace()`; also what `\s` matches in a `str` pattern. -/
def isSpace (c : Char) : Bool :=
  let n := c.toNat
  (9 ≤ n && n ≤ 13) || (28 ≤ n && n ≤ 32) || n == 0x85 || n == 0xa0 || n == 0x1680 ||
    (0x2000 ≤ n && n ≤ 0x200a) || n == 0x2028 || n == 0x2029 || n == 0x202f || n == 0x205f ||
    n == 0x3000

/-- What ends a line for `str.splitlines`. -/
def isLineBreak (c : Char) : Bool :=
  let n := c.toNat
  (10 ≤ n && n ≤ 13) || (28 ≤ n && n ≤ 30) || n == 0x85 || n == 0x2028 || n == 0x2029

def splitlinesAux (cur : Text) : Text → List Text
  | [] => if cur = [] then [] else [cur.reverse]
  | '\r' :: '\n' :: s => cur.reverse :: splitlinesAux [] s
  | c :: s =>
    if isLineBreak c then cur.reverse :: splitlinesAux [] s
    else splitlinesAux (c :: cur) s

/-- `s.splitlines()`. -/
def splitlines (s : Text) : List Text := splitlinesAux [] s

/-- The zero of every run of ten decimal digits (Unicode category Nd). -/
def decimalZeros : List Nat :=
  [0x30, 0x660, 0x6f0, 0x7c0, 0x966, 0x9e6, 0xa66, 0xae6, 0xb66, 0xbe6, 0xc66, 0xce6, 0xd66,
   0xde6, 0xe50, 0xed0, 0xf20, 0x1040, 0x1090, 0x17e0, 0x1810, 0x1946, 0x19d0, 0x1a80, 0x1a90,
   0x1b50, 0x1bb0, 0x1c40, 0x1c50, 0xa620, 0xa8d0, 0xa900, 0xa9d0, 0xa9f0, 0xaa50, 0xabf0,
   0xff10, 0x104a0, 0x10d30, 0x11066, 0x110f0, 0x11136, 0x111d0, 0x112f0, 0x11450, 0x114d0,
   0x11650, 0x116c0, 0x11730, 0x118e0, 0x11950, 0x11c50, 0x11d50, 0x11da0, 0x16a60, 0x16ac0,
   0x16b50, 0x1d7ce, 0x1d7d8, 0x1d7e2, 0x1d7ec, 0x1d7f6, 0x1e140, 0x1e2f0, 0x1e950, 0x1fbf0]

/-- The value of a decimal digit of any script: what `\d` matches and `int` reads. -/
def decimalValue (c : Char) : Option Nat :=
  (decimalZeros.find? fun z => z ≤ c.toNat && c.toNat < z + 10).map fun z => c.toNat - z

/-- `\d` in a `str` pattern. -/
def isDecimal (c : Char) : Bool := (decimalValue c).isSome

/-- `int(s)` of a text that is known to match `\d+`. -/
def intOfDecimal (s : Text) : Nat :=
  s.foldl (fun n c => 10 * n + (decimalValue c).getD 0) 0

/-- `[0-9]` in a pattern. -/
def isDigit09 (c : Char) : Bool := '0' ≤ c && c ≤ '9'

/-- `s.isascii()`. -/
def isAscii (s : Text) : Bool := s.all fun c => c.toNat < 128

/-! ## UTF-8 -/

/-- `s.encode("utf-8")`. -/
def utf8Encode (s : Text) : Bytes := s.flatMap String.utf8EncodeChar

/-- `b.decode("utf-8")`; `none` is a `UnicodeDecodeError`. -/
def utf8Decode (b : Bytes) : Option Text := b.toByteArray.utf8Decode?.map Array.toList

theorem utf8Decode_utf8Encode (s : Text) : utf8Decode (utf8Encode s) = some s := by
  have h : (utf8Encode s).toByteArray = List.utf8Encode s := rfl
  unfold utf8Decode
  rw [h, List.utf8Decode?_utf8Encode]
  rfl

end Py
