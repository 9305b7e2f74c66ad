import Agentrail.Lib.Regex
import Agentrail.Py.Basic

/-!
# Regular expressions of Python's `re` on `str`

The assertions of `re.M` and the comparison of `re.I`.  `\w` follows the
Unicode database of the interpreter, which comes in as `isAlnum`.
-/

namespace Py

open Regex

/-- Equality under `re.I` with a letter `c` of ASCII: besides the other case, the letters whose
simple case folding meets it. -/
def same (c d : Char) : Bool :=
  c.toLower = d.toLower || (c.toLower = 'i' && (d.toNat = 0x130 || d.toNat = 0x131)) ||
    (c.toLower = 's' && d.toNat = 0x17f) || (c.toLower = 'k' && d.toNat = 0x212a)

def strip (t : Text) : Text := ((t.dropWhile isSpace).reverse.dropWhile isSpace).reverse

/-- `^` under `re.M`. -/
def bol : Re := .assert fun before _ => before.head?.all (· = '\n')

/-- `$` under `re.M`. -/
def eol : Re := .assert fun _ after => after.head?.all (· = '\n')

/-- `\Z`. -/
def endOfText : Re := .assert fun _ after => after.isEmpty

/-- `\b`, with `isAlnum` for `str.isalnum`. -/
def wordBoundary (isAlnum : Char → Bool) : Re := .assert fun before after =>
  let isWord := fun c => isAlnum c || c = '_'
  before.head?.any isWord != after.head?.any isWord

/-- `.` without `re.S`, and with it. -/
def dot : Re := .cls fun c => c ≠ '\n'
def dotAll : Re := .cls fun _ => true

def space : Re := .cls isSpace

/-- A literal under `re.I`. -/
def word (s : String) : Re := .lit same s.toList

end Py
