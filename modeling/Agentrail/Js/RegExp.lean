import Agentrail.Js.Basic
import Agentrail.Lib.Regex

/-!
# Regular expressions of JavaScript without the `u` flag

The assertions of ECMAScript.  The patterns of this repository never stop
between the two code units of a character.  `same` compares as the `i` flag
does for ASCII patterns: no character outside ASCII folds into it.
-/

namespace Js

/-- Equality under the `i` flag. -/
def same (c d : Char) : Bool := c.toUpper = d.toUpper

open Regex

/-! ## Pattern pieces -/

/-- `^` under the `m` flag. -/
def bol : Re := .assert fun before _ => before.head?.all isLineTerminator

/-- `$` under the `m` flag. -/
def eol : Re := .assert fun _ after => after.head?.all isLineTerminator

/-- `\b`. -/
def wordBoundary : Re := .assert fun before after =>
  before.head?.any isWord != after.head?.any isWord

/-- `.` without the `s` flag. -/
def dot : Re := .cls fun c => !isLineTerminator c

def space : Re := .cls isSpace

def digit : Re := .cls isDigit

/-- A literal under the `i` flag. -/
def word (s : String) : Re := .lit same s.toList

end Js
