import Agentrail.Py.Re

/-!
# Secret detectors (`context/redaction.py`)

`DETECTORS`: the patterns of texts shaped like credentials.  `\b` follows the Unicode
database of the interpreter, which comes in as `isAlnum`.
-/

namespace Agentrail.Context

open Py Regex

structure Detector where
  name : Text
  regex : Re
  token : Text

/-! ## Pieces of the patterns -/

/-- At least `n` of `r`, as many as possible. -/
def atLeast (r : Re) (n : Nat) : Re := .seq (Re.cat (List.replicate n r)) (.star true r)

def exactly (r : Re) (n : Nat) : Re := Re.cat (List.replicate n r)

/-- A literal without `re.I`. -/
def exact (s : String) : Re := .lit (fun c d => c = d) s.toList

/-- Letters and digits of ASCII, or one of `more`. -/
def asciiOr (more : String) : Re := .cls fun c => c.isAlphanum || more.toList.contains c

/-- The same under `re.I`, where `[a-z]` has the letters that fold to one of its own. -/
def foldedOr (more : String) : Re := .cls fun c =>
  c.isAlphanum || [0x130, 0x131, 0x17f, 0x212a].contains c.toNat || more.toList.contains c

/-- `[a-z]` under `re.I`. -/
def foldedLetter : Re := .cls fun c =>
  c.isAlpha || [0x130, 0x131, 0x17f, 0x212a].contains c.toNat

/-- Neither a space nor one of `not`. -/
def noneOf (not : String) : Re := .cls fun c => !(isSpace c || not.toList.contains c)

/-- `-----BEGIN [A-Z ]*PRIVATE KEY-----` and its counterpart. -/
def keyLine (word : String) : Re :=
  Re.cat [exact "-----", exact word, exact " ", .star true (.cls fun c => c.isUpper || c = ' '),
    exact "PRIVATE KEY-----"]

/-! ## Detectors -/

section
variable (isAlnum : Char → Bool)

/-- `DETECTORS`. -/
def detectors : List Detector :=
  let b := wordBoundary isAlnum
  [ ⟨"private_key".toList,
      Re.cat [keyLine "BEGIN", .star false dotAll, keyLine "END"],
      "[REDACTED:private_key]".toList⟩,
    ⟨"anthropic_key".toList,
      Re.cat [b, exact "sk-ant-", atLeast (asciiOr "_-") 20, b],
      "[REDACTED:anthropic_key]".toList⟩,
    ⟨"api_key".toList,
      Re.cat [b, exact "sk-", atLeast (asciiOr "_-") 10, b],
      "[REDACTED:api_key]".toList⟩,
    ⟨"token".toList,
      Re.cat [b, Re.any (["ghp", "gho", "ghu", "ghs", "ghr", "github_pat"].map exact), exact "_",
        atLeast (asciiOr "_") 20, b],
      "[REDACTED:token]".toList⟩,
    ⟨"aws_access_key".toList,
      Re.cat [b, Re.any (["AKIA", "ASIA"].map exact),
        exactly (.cls fun c => c.isDigit || c.isUpper) 16, b],
      "[REDACTED:aws_access_key]".toList⟩,
    ⟨"aws_secret_access_key".toList,
      Re.cat [b, word "aws", .upTo dot 20, Re.any (["secret", "access"].map word), .upTo dot 20,
        .cls fun c => c = '=' || c = ':', .star true space,
        .opt true (.cls fun c => c = '\x27' || c = '"'), exactly (foldedOr "/+") 40,
        .opt true (.cls fun c => c = '\x27' || c = '"')],
      "[REDACTED:aws_secret_access_key]".toList⟩,
    ⟨"slack_token".toList,
      Re.cat [b, exact "xox", .cls fun c => "baprs".toList.contains c, exact "-",
        atLeast (asciiOr "-") 10, b],
      "[REDACTED:slack_token]".toList⟩,
    ⟨"google_api_key".toList,
      Re.cat [b, exact "AIza", exactly (asciiOr "_-") 35, b],
      "[REDACTED:google_api_key]".toList⟩,
    ⟨"jwt".toList,
      Re.cat [b, exact "eyJ", atLeast (asciiOr "_-") 5, exact ".", atLeast (asciiOr "_-") 5,
        exact ".", atLeast (asciiOr "_-") 5, b],
      "[REDACTED:jwt]".toList⟩,
    ⟨"database_url".toList,
      Re.cat [b, foldedLetter, .star true (foldedOr "+.-"), exact "://",
        .plus true (noneOf "\"\x27\x60<>:/@"), exact ":", .plus true (noneOf "\"\x27\x60<>@"),
        exact "@", .plus true (noneOf "\"\x27\x60<>")],
      "[REDACTED:database_url]".toList⟩,
    ⟨"bearer_token".toList,
      Re.cat [b, word "Bearer", .plus true space, atLeast (foldedOr "._~+/=-") 8, b],
      "Bearer [REDACTED:bearer_token]".toList⟩ ]

end

end Agentrail.Context
