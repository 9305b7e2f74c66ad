import Agentrail.Js.Bytes
import Mathlib.Algebra.Order.Ring.Rat
import Mathlib.Data.List.Lex
import Mathlib.Data.List.Sort

/-!
# Source inventory receipts (`queries/dependency_watches.ts`)

`validateGoDependencySourceInventoryReceipt` takes a decoded receipt and the digest declared for
it, and restates the whole format: keys, constants, limits, paths, the order of the entries, and
the canonical JSON whose hash the digest is.
-/

namespace Agentrail.SourceReceipts

open Js

/-! ## Limits and patterns -/

def sourceMaxReceiptBytes : Nat := 16 * 1024 * 1024
def sourceMaxPathBytes : Nat := 4 * 1024
def sourceMaxTotalPathBytes : Nat := 8 * 1024 * 1024
def sourceMaxEntries : Nat := 20000

/-- `[0-9a-f]`. -/
def isHex (c : Char) : Bool := ('0' ≤ c && c ≤ '9') || ('a' ≤ c && c ≤ 'f')

/-- `[A-Za-z0-9]`. -/
def isLetterOrDigit (c : Char) : Bool :=
  ('A' ≤ c && c ≤ 'Z') || ('a' ≤ c && c ≤ 'z') || ('0' ≤ c && c ≤ '9')

/-- `SOURCE_SHA256.test`. -/
def isSourceSha256 (t : Text) : Bool := t.length = 64 && t.all isHex

/-- `SOURCE_GIT_SHA.test`. -/
def isSourceGitSha (t : Text) : Bool := (t.length = 40 || t.length = 64) && t.all isHex

/-- `SOURCE_REPOSITORY.test`; neither part holds a slash. -/
def isSourceRepository (t : Text) : Bool :=
  match t.splitOn '/' with
  | [owner, name] => [owner, name].all fun part =>
    part.head?.any isLetterOrDigit && part.tail.length ≤ 99 &&
      part.tail.all fun c => isLetterOrDigit c || c = '.' || c = '_' || c = '-'
  | _ => false

/-- `SOURCE_CONTROL`. -/
def isControl (c : Char) : Bool := c.toNat ≤ 0x1f || c.toNat = 0x7f

/-- `SOURCE_ASCII_PATH.test`. -/
def isAsciiPath (t : Text) : Bool := t ≠ [] && t.all fun c => 0x20 ≤ c.toNat && c.toNat ≤ 0x7e

/-! ## Values -/

def sourceRecord : Json → Bool
  | .obj _ => true
  | _ => false

/-- `typeof v === "string"`. -/
def strOf : Option Json → Option Text
  | some (.str t) => some t
  | _ => none

def numOf : Option Json → Option ℚ
  | some (.num q) => some q
  | _ => none

def boolOf : Option Json → Option Bool
  | some (.bool b) => some b
  | _ => none

def arrOf : Option Json → Option (List Json)
  | some (.arr xs) => some xs
  | _ => none

def recordOf (v : Option Json) : Option Json := v.filter sourceRecord

/-- `v.key === text`. -/
def hasText (v : Json) (key text : String) : Bool :=
  strOf (v.get key.toList) = some text.toList

/-- `Object.keys(v)`. -/
def keysOf : Json → List Text
  | .obj fields => fields.map Prod.fst
  | _ => []

/-- `keys.sort()`, by UTF-16 code units. -/
def sortKeys (keys : List Text) : List Text := keys.insertionSort fun a b => utf16 a ≤ utf16 b

def sourceExactKeys (value : Json) (keys : List String) : Bool :=
  sortKeys (keysOf value) = sortKeys (keys.map String.toList)

/-- `Number.isSafeInteger`. -/
def isSafeInteger (q : ℚ) : Bool := q.den = 1 && q.num.natAbs ≤ 2 ^ 53 - 1

/-- `JSON.stringify` of an integer. -/
def integerText (n : ℤ) : Text := if n < 0 then '-' :: decimal n.natAbs else decimal n.natAbs

/-! ## Canonical JSON -/

mutual

def sourceCanonicalJson : Json → Option Text
  | .null => some "null".toList
  | .bool true => some "true".toList
  | .bool false => some "false".toList
  | .str t => some (quote t)
  | .num q => if isSafeInteger q then some (integerText q.num) else none
  | .arr xs => (canonicalItems xs).map array
  | .obj fields => (canonicalFields fields).map fun items =>
    object (items.insertionSort fun a b => utf16 a.1 ≤ utf16 b.1)

def canonicalItems : List Json → Option (List Text)
  | [] => some []
  | x :: xs => (sourceCanonicalJson x).bind fun item => (canonicalItems xs).map (item :: ·)

def canonicalFields : List (Text × Json) → Option (List (Text × Text))
  | [] => some []
  | (k, v) :: fields =>
    (sourceCanonicalJson v).bind fun item => (canonicalFields fields).map ((k, item) :: ·)

end

section
variable (sha256 : Bytes → Text)

def sourceCanonicalSha256 (value : Json) : Option Text :=
  (sourceCanonicalJson value).map fun canonical => sha256 (utf8 canonical)

/-! ## Entries -/

def sourceSafePath (path : Text) : Bool :=
  path ≠ [] && (utf8 path).length ≤ sourceMaxPathBytes && isAsciiPath path &&
    path.head? ≠ some '/' && path.getLast? ≠ some '/' && !path.contains '\\' &&
    !path.any isControl &&
    (path.splitOn '/').all fun part => part ≠ [] && part ≠ ['.'] && part ≠ ['.', '.']

/-- `path.toLowerCase()` of ASCII. -/
def lowered (path : Text) : Text := path.map Char.toLower

/-- Whether the root profile refuses the path. -/
def isRefused (path : Text) : Bool :=
  let casefolded := lowered path
  let parts := casefolded.splitOn '/'
  let basename := parts.getLast?.getD []
  basename = "go.work".toList || basename = "go.work.sum".toList ||
    ((basename = "go.mod".toList || basename = "go.sum".toList) && path ≠ "go.mod".toList &&
      path ≠ "go.sum".toList) ||
    parts.contains "vendor".toList ||
    [".netrc".toList, ".gitconfig".toList, ".goenv".toList, "go.env".toList].contains basename ||
    casefolded = ".config/go/env".toList || "/.config/go/env".toList.isSuffixOf casefolded

/-- What the loop over the entries carries along. -/
structure Walk where
  seen : List Text
  folded : List Text
  previousPath : Option Text
  totalPathBytes : Nat
  /-- the latest entry of a path comes first -/
  entriesByPath : List (Text × Json)

/-- The path of an entry whose own fields are in order. -/
def entryPath (commitShaLength : Nat) (entry : Json) : Option Text := do
  guard (sourceRecord entry && sourceExactKeys entry ["path", "mode", "type", "objectSha"])
  let path ← strOf (entry.get "path".toList)
  guard (sourceSafePath path)
  guard ((hasText entry "type" "blob" &&
      (hasText entry "mode" "100644" || hasText entry "mode" "100755")) ||
    (hasText entry "type" "tree" && hasText entry "mode" "040000"))
  let objectSha ← strOf (entry.get "objectSha".toList)
  guard (isSourceGitSha objectSha && objectSha.length = commitShaLength)
  pure path

def checkEntry (commitShaLength : Nat) (walk : Walk) (entry : Json) : Option Walk := do
  let path ← entryPath commitShaLength entry
  let totalPathBytes := walk.totalPathBytes + (utf8 path).length
  guard (totalPathBytes ≤ sourceMaxTotalPathBytes && !isRefused path)
  guard (!walk.seen.contains path && !walk.folded.contains (lowered path) &&
    walk.previousPath.all fun previous => utf8 previous < utf8 path)
  pure ⟨path :: walk.seen, lowered path :: walk.folded, some path, totalPathBytes,
    (path, entry) :: walk.entriesByPath⟩

def checkEntries (commitShaLength : Nat) (walk : Walk) : List Json → Option Walk
  | [] => some walk
  | entry :: entries =>
    (checkEntry commitShaLength walk entry).bind fun walk =>
      checkEntries commitShaLength walk entries

/-! ## The receipt -/

def checkIdentity (identity : Json) : Bool :=
  sourceExactKeys identity ["ecosystem", "manager", "profile"] &&
    hasText identity "ecosystem" "go" && hasText identity "manager" "go-modules" &&
    hasText identity "profile" "go_github_exact_tree_source_inventory_v1"

/-- The length of the commit's SHA, of an authority that is in order. -/
def checkAuthority (authority : Json) : Option Nat := do
  guard (sourceExactKeys authority ["provider", "method", "apiOrigin", "repository",
      "requestedRef", "commitSha", "rootTreeSha"] &&
    hasText authority "provider" "github" &&
    hasText authority "method" "github_app_installation_api" &&
    hasText authority "apiOrigin" "https://api.github.com")
  let repository ← strOf (authority.get "repository".toList)
  guard (isSourceRepository repository)
  let requestedRef ← strOf (authority.get "requestedRef".toList)
  guard (requestedRef ≠ [] && (utf8 requestedRef).length ≤ 1024 && !requestedRef.any isControl)
  let commitSha ← strOf (authority.get "commitSha".toList)
  let rootTreeSha ← strOf (authority.get "rootTreeSha".toList)
  guard (isSourceGitSha commitSha && isSourceGitSha rootTreeSha &&
    commitSha.length = rootTreeSha.length)
  pure commitSha.length

/-- The entries of an inventory that is in order but for them. -/
def checkInventory (inventory : Json) : Option (List Json) := do
  guard (sourceExactKeys inventory ["recursive", "truncated", "entryCount", "entries",
      "entriesSha256"] &&
    boolOf (inventory.get "recursive".toList) = some true &&
    boolOf (inventory.get "truncated".toList) = some false)
  let entryCount ← numOf (inventory.get "entryCount".toList)
  guard (isSafeInteger entryCount && 2 ≤ entryCount && entryCount < sourceMaxEntries)
  let entries ← arrOf (inventory.get "entries".toList)
  guard (entries.length = entryCount)
  let entriesSha256 ← strOf (inventory.get "entriesSha256".toList)
  guard (isSourceSha256 entriesSha256 &&
    sourceCanonicalSha256 sha256 (.arr entries) = some entriesSha256)
  pure entries

def checkRequiredFile (commitShaLength : Nat) (entriesByPath : List (Text × Json)) (path : String)
    (maxBytes : Nat) (file : Json) : Option Unit := do
  guard (sourceRecord file && sourceExactKeys file ["path", "mode", "blobSha", "byteCount",
      "contentSha256"] && hasText file "path" path && hasText file "mode" "100644")
  let blobSha ← strOf (file.get "blobSha".toList)
  guard (isSourceGitSha blobSha && blobSha.length = commitShaLength)
  let byteCount ← numOf (file.get "byteCount".toList)
  guard (isSafeInteger byteCount && 0 ≤ byteCount && byteCount ≤ maxBytes)
  let contentSha256 ← strOf (file.get "contentSha256".toList)
  guard (isSourceSha256 contentSha256)
  let entry ← entriesByPath.lookup path.toList
  guard (hasText entry "type" "blob" && hasText entry "mode" "100644" &&
    strOf (entry.get "objectSha".toList) = some blobSha)

/-- The loop over `requiredPaths`. -/
def checkRequiredFiles (commitShaLength : Nat) (entriesByPath : List (Text × Json)) :
    List Json → Option Unit
  | [goMod, goSum] => do
    checkRequiredFile commitShaLength entriesByPath "go.mod" (256 * 1024) goMod
    checkRequiredFile commitShaLength entriesByPath "go.sum" (8 * 1024 * 1024) goSum
  | _ => none

def checkPolicy (policy : Json) : Bool :=
  sourceExactKeys policy ["name", "result"] &&
    hasText policy "name" "go_root_source_inventory_v1" && hasText policy "result" "admitted"

/-- `{ identitySha256: _, ...withoutIdentity } = value`. -/
def withoutIdentity : Json → Json
  | .obj fields => .obj (fields.filter fun field => field.1 ≠ "identitySha256".toList)
  | v => v

def validateGoDependencySourceInventoryReceipt (value : Json) (declaredSha256 : Text) :
    Option Json := do
  guard (isSourceSha256 declaredSha256 && sourceRecord value)
  let canonical ← sourceCanonicalJson value
  guard ((utf8 canonical).length ≤ sourceMaxReceiptBytes &&
    sourceExactKeys value ["kind", "schemaVersion", "identity", "authority", "inventory",
      "requiredFiles", "policy", "identitySha256"])
  guard (hasText value "kind" "github_exact_tree_dependency_source_inventory" &&
    numOf (value.get "schemaVersion".toList) = some 1 &&
    strOf (value.get "identitySha256".toList) = some declaredSha256)
  let identity ← recordOf (value.get "identity".toList)
  guard (checkIdentity identity)
  let authority ← recordOf (value.get "authority".toList)
  let commitShaLength ← checkAuthority authority
  let inventory ← recordOf (value.get "inventory".toList)
  let entries ← checkInventory sha256 inventory
  let walk ← checkEntries commitShaLength ⟨[], [], none, 0, []⟩ entries
  let requiredFiles ← arrOf (value.get "requiredFiles".toList)
  checkRequiredFiles commitShaLength walk.entriesByPath requiredFiles
  let policy ← recordOf (value.get "policy".toList)
  guard (checkPolicy policy)
  guard (sourceCanonicalSha256 sha256 (withoutIdentity value) = some declaredSha256)
  pure value

end

end Agentrail.SourceReceipts
