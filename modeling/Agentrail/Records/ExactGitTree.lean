import Agentrail.Js.Bytes
import Agentrail.Lib.GitTree
import Mathlib.Data.Char
import Mathlib.Data.List.Lex
import Mathlib.Data.List.Sort

/-!
# Git tree inclusion proofs (`db-postgres/src/exact-git-tree-path-proof.ts`)

A proof lists the bodies of tree objects and the paths that lead through them to blobs.
`verifyExactGitTreeInclusionProof` hashes and parses every body and walks every path over
the parsed entries.  Two of its decoders lose something: a `TextDecoder` drops a byte
order mark in front of a name, `toString("ascii")` the high bits of a mode.
-/

namespace Agentrail.ExactGitTree

open Js

/-- The functions of the platform that the verifier calls. -/
structure Host where
  sha1 : Bytes → Bytes
  /-- `path.normalize("NFC").toLocaleLowerCase("en-US")` -/
  normalize : Text → Text

/-! ## Limits -/

def maxPaths : Nat := 16
def maxDepth : Nat := 32
def maxTrees : Nat := 128
def maxEntriesPerTree : Nat := 4096
def maxTreeBytes : Nat := 256 * 1024
def maxDecodedBytes : Nat := 1024 * 1024
def maxSerializedBytes : Nat := 1400 * 1024

/-! ## Values -/

structure NativeTreeEntry where
  mode : Text
  name : Text
  sha : Text
  deriving DecidableEq

/-- `isRecord(value)` with `hasExactKeys(value, keys)`. -/
def hasExactKeys (keys : List String) : Json → Bool
  | .obj fields =>
    (fields.map Prod.fst).insertionSort (· ≤ ·) = (keys.map String.toList).insertionSort (· ≤ ·)
  | _ => false

/-- `value[key]` where it is a string. -/
def textAt (key : String) (value : Json) : Option Text :=
  match value.get key.toList with
  | some (.str t) => some t
  | _ => none

/-- `value[key]` where it is an array. -/
def arrayAt (key : String) (value : Json) : Option (List Json) :=
  match value.get key.toList with
  | some (.arr xs) => some xs
  | _ => none

/-- `value[key] === n`. -/
def isNumberAt (key : String) (n : ℚ) (value : Json) : Bool :=
  match value.get key.toList with
  | some (.num q) => q = n
  | _ => false

/-- `SHA1`. -/
def isSha (t : Text) : Bool :=
  t.length = 40 && t.all fun c => ('0' ≤ c && c ≤ '9') || ('a' ≤ c && c ≤ 'f')

/-- `SAFE_NAME`. -/
def safeName (t : Text) : Bool :=
  t ≠ [] && t.all fun c => c ≠ '/' && c ≠ '\\' && 0x1f < c.toNat && c.toNat ≠ 0x7f

/-- `path.split("/")`. -/
def splitPath : Text → List Text
  | [] => [[]]
  | c :: t =>
    if c = '/' then [] :: splitPath t
    else match splitPath t with
      | [] => [[c]]
      | part :: parts => (c :: part) :: parts

def safePath (t : Text) : Bool :=
  t ≠ [] && codeUnits t ≤ 4096 && t.head? ≠ some '/' && t.getLast? ≠ some '/' && !t.contains '\\' &&
    (splitPath t).all fun part => part ≠ ['.'] && part ≠ ['.', '.'] && safeName part

def compareUtf8 (left right : Text) : Ordering := List.compareLex compare (utf8 left) (utf8 right)

/-- Git's tree comparator treats a tree name as if it had a trailing slash. -/
def compareNativeEntry (left right : NativeTreeEntry) : Ordering :=
  compareUtf8 (left.name ++ if left.mode = "40000".toList then ['/'] else [])
    (right.name ++ if right.mode = "40000".toList then ['/'] else [])

def isNativeMode (mode : Text) : Bool :=
  mode = "40000".toList || mode = "100644".toList || mode = "100755".toList ||
    mode = "120000".toList || mode = "160000".toList

def gitTreeSha (host : Host) (body : Bytes) : Text :=
  hex (host.sha1 (utf8 ("tree ".toList ++ decimal body.length) ++ 0 :: body))

/-- A character of the base 64 alphabet. -/
def base64Char (c : Char) : Bool := c.isAlphanum || c = '+' || c = '/'

/-- `/^(?:[A-Za-z0-9+/]{4})*(?:[A-Za-z0-9+/]{2}==|[A-Za-z0-9+/]{3}=)?$/u`. -/
def canonicalBase64 : Text → Bool
  | [] => true
  | [a, b, '=', '='] => base64Char a && base64Char b
  | [a, b, c, '='] => base64Char a && base64Char b && base64Char c
  | a :: b :: c :: d :: t =>
    base64Char a && base64Char b && base64Char c && base64Char d && canonicalBase64 t
  | _ => false

def decodeCanonicalBase64 (value : Text) : Option Bytes :=
  if value = [] || maxSerializedBytes < codeUnits value then none
  else if !canonicalBase64 value then none
  else
    let bytes := bufferFromBase64 value
    if Base64.encode bytes = value then some bytes else none

/-! ## Parsing a tree body -/

/-- The bytes before and after the first `b`. -/
def cut (b : UInt8) : Bytes → Option (Bytes × Bytes)
  | [] => none
  | c :: s => if c = b then some ([], s) else (cut b s).map fun r => (c :: r.1, r.2)

/-- The first entry of what is left of a body, and what is left behind it. -/
def nextEntry (rest : Bytes) : Option (NativeTreeEntry × Bytes) := do
  -- a mode that ends where it starts is refused as no native mode
  let (modeBytes, afterSpace) ← cut 0x20 rest
  let mode := ascii modeBytes
  let (nameBytes, afterNul) ← cut 0 afterSpace
  if nameBytes = [] || afterNul.length < 20 || !isNativeMode mode then none
  else
    let name ← textDecode nameBytes
    if !safeName name || 4096 < (utf8 name).length then none
    else some (⟨mode, name, hex (afterNul.take 20)⟩, afterNul.drop 20)

/-- The loop of `parseNativeTree` over what is left of the body, with the entries so far and the
number of entries that may still come. -/
def parseLoop : Nat → Bytes → List NativeTreeEntry → Option (List NativeTreeEntry)
  | _, [], entries => some entries
  | 0, _ :: _, _ => none
  | n + 1, b :: rest, entries => do
    let (entry, rest) ← nextEntry (b :: rest)
    if (entries.map NativeTreeEntry.name).contains entry.name then none
    else parseLoop n rest (entries ++ [entry])

/-- Every entry stands before the next one. -/
def inOrder : List NativeTreeEntry → Bool
  | a :: b :: entries => compareNativeEntry a b = .lt && inOrder (b :: entries)
  | _ => true

def parseNativeTree (body : Bytes) : Option (List NativeTreeEntry) :=
  if body = [] || maxTreeBytes < body.length then none
  else do
    let entries ← parseLoop maxEntriesPerTree body []
    if entries ≠ [] && inOrder entries then some entries else none

/-! ## The verifier -/

section
variable (host : Host)

abbrev Trees := List (Text × List NativeTreeEntry)

structure TreeState where
  trees : Trees := []
  decodedTotal : Nat := 0
  previousTreeSha : Option Text := none

/-- One round of the loop over `value["trees"]`. -/
def addTree (s : TreeState) (rawTree : Json) : Option TreeState := do
  if !hasExactKeys ["sha1", "bodyBase64"] rawTree then none
  else
    let sha1 ← textAt "sha1" rawTree
    let bodyBase64 ← textAt "bodyBase64" rawTree
    if !isSha sha1 || s.previousTreeSha.any (compareUtf8 · sha1 ≠ .lt) then none
    else
      let body ← decodeCanonicalBase64 bodyBase64
      let decodedTotal := s.decodedTotal + body.length
      if maxDecodedBytes < decodedTotal || gitTreeSha host body ≠ sha1 then none
      else
        let entries ← parseNativeTree body
        if (s.trees.lookup sha1).isSome then none
        else some ⟨s.trees ++ [(sha1, entries)], decodedTotal, some sha1⟩

/-- The loop over the components of a path; the result is `usedTreeShas`. -/
def walk (trees : Trees) (blobSha : Text) : Text → List Text → List Text → Option (List Text)
  | _, [], used => some used
  | treeSha, part :: parts, used => do
    let entries ← trees.lookup treeSha
    let used := if used.contains treeSha then used else used ++ [treeSha]
    let entry ← entries.find? (·.name = part)
    if parts = [] then
      if (entry.mode ≠ "100644".toList && entry.mode ≠ "100755".toList) || entry.sha ≠ blobSha then
        none
      else some used
    else if entry.mode ≠ "40000".toList then none
    else walk trees blobSha entry.sha parts used

structure PathState where
  previousPath : Option Text := none
  normalizedPaths : List Text := []
  usedTreeShas : List Text := []

/-- One round of the loop over `value["paths"]`. -/
def checkPath (headTreeSha : Text) (trees : Trees) (s : PathState) (rawPath : Json) :
    Option PathState := do
  if !hasExactKeys ["path", "blobSha"] rawPath then none
  else
    let path ← textAt "path" rawPath
    let blobSha ← textAt "blobSha" rawPath
    if !safePath path || !isSha blobSha then none
    else if s.previousPath.any (compareUtf8 · path ≠ .lt) || maxDepth < (splitPath path).length then
      none
    else
      let normalized := host.normalize path
      if s.normalizedPaths.contains normalized then none
      else
        let used ← walk trees blobSha headTreeSha (splitPath path) s.usedTreeShas
        some ⟨some path, s.normalizedPaths ++ [normalized], used⟩

/-- `canonicalProofJson`, of a value that passed the checks before it. -/
def canonicalProofJson (headTreeSha : Text) (trees paths : List Json) : Text :=
  let field := fun (key : String) (x : Json) => (key.toList, quote ((textAt key x).getD []))
  object [("kind".toList, quote "exact_git_tree_inclusion_batch".toList),
    ("version".toList, decimal 1),
    ("headTreeSha".toList, quote headTreeSha),
    ("trees".toList, array (trees.map fun x => object [field "sha1" x, field "bodyBase64" x])),
    ("paths".toList, array (paths.map fun x => object [field "path" x, field "blobSha" x]))]

/-- The two loops and what is checked at their end. -/
def verifyParts (headTreeSha : Text) (rawTrees rawPaths : List Json) : Option Unit := do
  let s ← rawTrees.foldlM (addTree host) {}
  let p ← rawPaths.foldlM (checkPath host headTreeSha s.trees) {}
  if p.usedTreeShas.length = s.trees.length &&
      (utf8 (canonicalProofJson headTreeSha rawTrees rawPaths)).length ≤ maxSerializedBytes then
    some ()
  else none

def verifyExactGitTreeInclusionProof (value : Json) : Bool :=
  hasExactKeys ["kind", "version", "headTreeSha", "trees", "paths"] value &&
    textAt "kind" value = some "exact_git_tree_inclusion_batch".toList &&
    isNumberAt "version" 1 value &&
    match textAt "headTreeSha" value, arrayAt "trees" value, arrayAt "paths" value with
    | some headTreeSha, some rawTrees, some rawPaths =>
      isSha headTreeSha && rawTrees ≠ [] && rawTrees.length ≤ maxTrees && rawPaths ≠ [] &&
        rawPaths.length ≤ maxPaths && (verifyParts host headTreeSha rawTrees rawPaths).isSome
    | _, _, _ => false

end

end Agentrail.ExactGitTree
