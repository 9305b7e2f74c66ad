import Agentrail.Js.Bytes
import Agentrail.Js.RegExp

/-!
# Patterns of the correction-packet guards

The patterns that the writer of correction packets (`queries/change_records.ts`,
`queries/criterion-visible-secret-scan.ts`) and the renderer
(`github-correction-dispatch-renderer.ts`) test ids and texts with.  All but the writer's
`SECRET_LIKE` have the `u` flag, under which `i` also folds U+017F into `s` and U+212A
into `k`.  The ten shapes that both lists spell alike are stated once.
-/

namespace Agentrail.Correction

open Js Regex

/-! ## Pieces -/

/-- How `i` compares a character under the `u` flag. -/
def fold (c : Char) : Char :=
  if c.toNat = 0x17f then 's' else if c.toNat = 0x212a then 'k' else c.toLower

/-- A literal without the `i` flag. -/
def lit (s : String) : Re := .lit (fun c d => c == d) s.toList

/-- A literal under `iu`. -/
def litI (s : String) : Re := .lit (fun c d => fold c == fold d) s.toList

/-- A class that lists lower-case letters, under `iu`. -/
def clsI (p : Char → Bool) : Re := .cls fun c => p (fold c)

/-- `\b` under `iu`. -/
def boundaryI : Re := .assert fun before after =>
  before.head?.any (isWord ∘ fold) != after.head?.any (isWord ∘ fold)

/-- `^` and `$` without the `m` flag. -/
def start : Re := .assert fun before _ => before.isEmpty

def finish : Re := .assert fun _ after => after.isEmpty

def many (r : Re) : Re := .star true r

def maybe (r : Re) : Re := .opt true r

/-- `r{n}` and `r{n,}`. -/
def exactly (n : Nat) (r : Re) : Re := .rep r n n

def atLeast (n : Nat) (r : Re) : Re := .seq (exactly n r) (many r)

def someOf (s : String) (c : Char) : Bool := s.toList.contains c

def upper (c : Char) : Bool := 'A' ≤ c && c ≤ 'Z'

def lower (c : Char) : Bool := 'a' ≤ c && c ≤ 'z'

def alnum (c : Char) : Bool := upper c || lower c || isDigit c

def upperDigit (c : Char) : Bool := upper c || isDigit c

/-- `[A-Za-z0-9_-]`. -/
def keyChar (c : Char) : Bool := isWord c || c = '-'

/-- A character of a bearer token. -/
def bearerChar (c : Char) : Bool := alnum c || someOf "._~+/-" c

/-- A character of an assigned credential. -/
def credentialChar (c : Char) : Bool := alnum c || someOf "._~+/=-" c

/-- `['"]`. -/
def quoteMark : Re := .cls (someOf "\"'")

/-! ## Secret shapes of both lists -/

/-- `(?: [A-Z0-9]+)* PRIVATE KEY-----` behind its first word. -/
def privateKeyLine (word : String) : Re := .cat [
  lit word, many (.cat [lit " ", .plus true (.cls upperDigit)]), lit " PRIVATE KEY-----"]

def privateKeyBlock : Re := .cat [
  privateKeyLine "-----BEGIN", .star false (.cls fun _ => true), privateKeyLine "-----END"]

def awsKeyId : Re := .cat [
  wordBoundary, .any [lit "AKIA", lit "ASIA"], exactly 16 (.cls upperDigit), wordBoundary]

def awsSecret : Re := .cat [
  boundaryI, litI "aws", .upTo dot 20, .any [litI "secret", litI "access"], .upTo dot 20,
  .cls (someOf "=:"), many space, maybe quoteMark,
  exactly 40 (clsI fun c => alnum c || someOf "/+" c), maybe quoteMark]

def githubToken : Re := .cat [
  wordBoundary,
  .any [lit "ghp", lit "gho", lit "ghu", lit "ghs", lit "ghr", lit "github_pat"],
  lit "_", atLeast 20 (.cls isWord), wordBoundary]

def slackToken : Re := .cat [
  wordBoundary, lit "xox", .cls (someOf "baprs"), lit "-",
  atLeast 10 (.cls fun c => alnum c || c = '-'), wordBoundary]

def googleKey : Re := .cat [wordBoundary, lit "AIza", exactly 35 (.cls keyChar), wordBoundary]

def skKey : Re := .cat [
  wordBoundary, lit "sk-", maybe (lit "proj-"), atLeast 20 (.cls keyChar), wordBoundary]

def skAntKey : Re := .cat [wordBoundary, lit "sk-ant-", atLeast 20 (.cls keyChar), wordBoundary]

def webToken : Re := .cat [
  wordBoundary, lit "eyJ", atLeast 5 (.cls keyChar), lit ".", atLeast 5 (.cls keyChar), lit ".",
  atLeast 5 (.cls keyChar), wordBoundary]

/-- `[^\s:@/]+`. -/
def urlPart : Re := .plus true (.cls fun c => !isSpace c && !someOf ":@/" c)

def urlCredentials : Re := .cat [
  boundaryI, clsI lower, many (clsI fun c => lower c || isDigit c || someOf "+.-" c),
  litI "://", urlPart, litI ":", urlPart, litI "@",
  .plus true (.cls fun c => !isSpace c && c ≠ '/')]

/-- The first nine shapes, and the two that follow the token formats. -/
def commonShapes : List Re := [
  privateKeyBlock, awsKeyId, awsSecret, githubToken, slackToken, googleKey, skKey, skAntKey]

/-- A name with `_`, `-` or nothing between its two parts. -/
def twoPart (a b : String) : Re := .cat [litI a, maybe (.cls (someOf "_-")), litI b]

/-! ## The writer's scanner (`queries/criterion-visible-secret-scan.ts`) -/

/-- The names of an explicit credential. -/
def credentialName : Re := .any [
  twoPart "api" "key", twoPart "secret" "key", twoPart "access" "token", twoPart "api" "token",
  twoPart "auth" "token", litI "authorization", twoPart "client" "secret", litI "password",
  litI "passwd", litI "secret", litI "token"]

def CREDENTIAL_FIELD_NAME : Re := .cat [start, credentialName, finish]

/-- `COMPACT_CREDENTIAL_VALUE`. -/
def compactCredentialValue (t : Text) : Bool := 8 ≤ t.length && t.all credentialChar

/-- A value between quotation marks. -/
def quoted (value : Re) : Re := .cat [quoteMark, value, quoteMark]

/-- `(?=$|[…])` under the `m` flag. -/
def followedBy (p : Char → Bool) : Re := .look (.any [eol, .cls p])

def assignedCredential : Re := .cat [
  boundaryI, credentialName, boundaryI, many space, lit "=", many space,
  .any [quoted (atLeast 8 (clsI credentialChar)), atLeast 8 (clsI credentialChar)],
  followedBy fun c => isSpace c || someOf ",;)\x7d]" c]

def labelledCredential : Re := .cat [
  boundaryI, credentialName, boundaryI, many space, lit ":", many space,
  .any [
    .cat [quoted (atLeast 10 (clsI credentialChar)),
      followedBy fun c => isSpace c || someOf ",;.!?)\x7d]" c],
    .cat [quoted (.rep (clsI credentialChar) 8 9), followedBy (someOf ",;)\x7d]")],
    .cat [atLeast 8 (clsI credentialChar), followedBy (someOf ",;)\x7d]")]]]

def SECRET_SHAPES : List Re := commonShapes ++ [
  .cat [wordBoundary, .any [lit "sk", lit "rk"], lit "_live_", atLeast 16 (.cls alnum),
    wordBoundary],
  .cat [wordBoundary, lit "glpat-", atLeast 20 (.cls keyChar), wordBoundary],
  .cat [wordBoundary, lit "npm_", atLeast 20 (.cls alnum), wordBoundary],
  webToken,
  urlCredentials,
  .cat [boundaryI, litI "Bearer", .plus true space, atLeast 20 (clsI bearerChar),
    many (lit "=")],
  assignedCredential,
  labelledCredential]

def criterionVisibleTextContainsSecret (value : Text) : Bool :=
  SECRET_SHAPES.any fun pattern => test pattern value

/-! ## The writer's ids (`queries/change_records.ts`) -/

/-- The one pattern with `i` and without `u`. -/
def SECRET_LIKE : Re := .any [
  .cat [wordBoundary, .any [word "bearer", word "token", word "authorization"],
    .plus true space],
  .cat [wordBoundary, .any [
    .cat [word "gh", .cls fun c => someOf "pousr" c.toLower, word "_", .plus true (.cls isWord)],
    .cat [word "github_pat_", .plus true (.cls isWord)],
    .cat [word "sk-", .plus true (.cls keyChar)]]]]

/-! ## The renderer (`github-correction-dispatch-renderer.ts`) -/

/-- `OPAQUE_ID`. -/
def isOpaqueId : Text → Bool
  | [] => false
  | c :: rest => alnum c && rest.length ≤ 511 && rest.all fun c => alnum c || someOf "._:-" c

/-- A character of `CONTROL_OR_BIDI`. -/
def controlOrBidi (c : Char) : Bool :=
  let n := c.toNat
  n ≤ 0x1f || (0x7f ≤ n && n ≤ 0x9f) || (0x202a ≤ n && n ≤ 0x202e) || (0x2066 ≤ n && n ≤ 0x2069) ||
    n = 0x200e || n = 0x200f || n = 0x61c

def urlLike : Re := .any [
  .cat [boundaryI, .any [
    .cat [clsI lower, .rep (clsI fun c => lower c || isDigit c || someOf "+.-" c) 1 31,
      litI "://"],
    litI "www.",
    litI "mailto:"]],
  .cat [boundaryI,
    .plus true (.cat [.plus true (clsI fun c => lower c || isDigit c || c = '-'), litI "."]),
    .any (["com", "org", "net", "io", "dev", "app", "ai", "co", "uk", "test"].map litI),
    boundaryI]]

/-- `[A-Za-z_$][\w$]*`. -/
def identifier : Re := .cat [
  .cls fun c => upper c || lower c || someOf "_$" c, many (.cls fun c => isWord c || c = '$')]

/-- A word and the blanks behind it. -/
def keyword (s : String) : Re := .cat [lit s, .plus true space]

def keywords (names : List String) : Re := .cat [.any (names.map lit), .plus true space]

def rawSourceLike : Re := .any [
  .cls (fun c => c.toNat = 0x60) |> exactly 3,
  .cat [wordBoundary, keyword "import", maybe (keyword "type"),
    .cls fun c => upper c || lower c || someOf "_$*\x7b" c],
  .cat [wordBoundary, keyword "export", maybe (keyword "async"),
    keywords ["function", "const", "let", "var", "class", "interface", "type"], identifier],
  .cat [wordBoundary, keywords ["const", "let", "var"], identifier, many space, lit "="],
  .cat [.any [start, .cls (someOf ";\x7b\x7d")], many space, maybe (keyword "async"),
    keywords ["function", "class", "interface", "type"], identifier],
  .cat [lit "=>", many space, .cls (someOf "(\x7b")]]

/-- The renderer's `SECRET_LIKE`. -/
def rendererSecretLike : List Re := commonShapes ++ [
  webToken,
  urlCredentials,
  .cat [wordBoundary, lit "Bearer", .plus true space, atLeast 20 (.cls bearerChar),
    many (lit "=")],
  .cat [.any [start, .cls fun c => !alnum (fold c)], .any [litI "_authToken", litI "_auth"],
    many space, lit "=", many space, atLeast 8 (.cls fun c => !isSpace c)],
  .cat [boundaryI, .any [
      twoPart "api" "key", twoPart "secret" "key", twoPart "access" "token",
      twoPart "auth" "token", twoPart "client" "secret", litI "password", litI "passwd",
      litI "secret", litI "token"],
    boundaryI, many space, .cls (someOf "=:"), many space, maybe quoteMark,
    atLeast 8 (.cls fun c => !isSpace c && !someOf "\"'" c), maybe quoteMark]]

def secretsClean (value : Text) : Bool := rendererSecretLike.all fun pattern => !test pattern value

def safeText (value : Text) : Bool :=
  value ≠ [] && !value.any controlOrBidi && !test urlLike value && !test rawSourceLike value &&
    secretsClean value

def safeOpaqueId (value : Text) : Bool := isOpaqueId value && safeText value

end Agentrail.Correction
