import Agentrail.Lib.Base64
import Agentrail.Lib.Merkle
import Agentrail.Dependencies.GoModules

/-!
# The Go checksum-database verifier, `go_sumdb.py`

Lookups, signed tree notes, the two proof recursions and `GoSumdbVerifier`.

SHA-256 is a parameter.  The proof recursions only combine digests and compare
them, so digests are any type `δ` of a `HashSuite`: with `δ = Bytes32` and
`HashSuite.ofSha256` they are the program's own, and the security results take
a `δ` where record and node hashing are injective with disjoint ranges.
`ed25519Verify` is `Ed25519PublicKey.verify` of the `cryptography` package.
-/

namespace Agentrail.GoSumdb

open Py

def goSumdbName : Text := "sum.golang.org".toList
def goSumdbVerifierKey : Text :=
  "sum.golang.org+033de0ae+Ac4zctda0e5eza+HJyk9SxEdh+s3Ux18htTTAD8OuAn8".toList
def goSumdbLookupMaxBytes : Nat := 1024 * 1024
def goSumdbNoteMaxBytes : Nat := 1024 * 1024
def goSumdbMaxProofHashes : Nat := 64
def goSumdbMaxTreeSize : Nat := 2 ^ 63 - 1

def treePrefix : Text := "go.sum database tree".toList
def noteSignaturePrefix : Text := "— ".toList

/-! ## Hashing and signatures -/

/-- A byte string of the length of a SHA-256 digest. -/
abbrev Bytes32 := { b : Bytes // b.length = 32 }

/-- The hashing of the transparent log. -/
structure HashSuite (δ : Type) where
  /-- `sha256(b"")`, the hash of the empty tree -/
  emptyHash : δ
  /-- `sha256(b"\x00" + record)` -/
  recordHash : Bytes → δ
  /-- `sha256(b"\x01" + left + right)` -/
  nodeHash : δ → δ → δ
  /-- the digest that 32 given bytes are -/
  ofBytes : Bytes32 → δ

/-- The hashing the program runs. -/
def HashSuite.ofSha256 (sha256 : Bytes → Bytes32) : HashSuite Bytes32 where
  emptyHash := sha256 []
  recordHash record := sha256 (0 :: record)
  nodeHash left right := sha256 (1 :: (left.val ++ right.val))
  ofBytes b := b

/-- Record and node hashing are injective and never meet. -/
structure HashSuite.CollisionFree {δ : Type} (H : HashSuite δ) : Prop where
  record_injective : Function.Injective H.recordHash
  node_injective : Function.Injective2 H.nodeHash
  disjoint : ∀ record left right, H.recordHash record ≠ H.nodeHash left right

/-- The tree hash of a log of records. -/
def HashSuite.logRoot {δ : Type} (H : HashSuite δ) (records : List Bytes) : δ :=
  Merkle.mth H.nodeHash H.emptyHash (records.map H.recordHash)

/-- What the note parser needs of the outside: SHA-256 for the pinned key's own
check and the Ed25519 verification of (public key, signature, message). -/
structure Signatures where
  sha256 : Bytes → Bytes
  ed25519Verify : Bytes → Bytes → Bytes → Bool

/-! ## Text -/

/-- The bytes that `value` is the one canonical base 64 of. -/
def decodeCanonicalBase64 (value : Text) (label : String) : Except PyError Bytes :=
  match Base64.decode value with
  | some decoded =>
    if Base64.encode decoded = value then .ok decoded
    else .error (.valueError (label ++ " is not canonical base64"))
  | none => .error (.valueError (label ++ " is not canonical base64"))

/-- `_HASH_BASE64`: 43 digits and one pad. -/
def hashBase64 (s : Text) : Bool :=
  s.length = 44 && (s.take 43).all (· ∈ Base64.alphabet) && s.drop 43 = ['=']

def canonicalH1 (value : Text) (label : String) : Except PyError Text :=
  if "h1:".toList.isPrefixOf value && hashBase64 (value.drop 3) then do
    let decoded ← decodeCanonicalBase64 (value.drop 3) label
    if decoded.length ≠ 32 then
      throw (.valueError (label ++ " is not a canonical Go h1 checksum"))
    return value
  else .error (.valueError (label ++ " is not a canonical Go h1 checksum"))

/-- `_DECIMAL`: no sign, no leading zero, ASCII digits. -/
def isDecimalText : Text → Bool
  | [] => false
  | ['0'] => true
  | c :: s => '1' ≤ c && c ≤ '9' && s.all isDigit09

def boundedDecimal (value : Text) (label : String) : Except PyError Nat :=
  if !isDecimalText value || value.length > 19 || intOfDecimal value > goSumdbMaxTreeSize then
    .error (.valueError (label ++ " is malformed"))
  else .ok (intOfDecimal value)

/-- `int.from_bytes(b, "big")`. -/
def intFromBytes (b : Bytes) : Nat := b.foldl (fun n d => 256 * n + d.toNat) 0

def hexDigit (c : Char) : Nat :=
  if isDigit09 c then c.toNat - 48 else if 'a' ≤ c then c.toNat - 87 else c.toNat - 55

/-- `int(s, 16)`; `none` is its `ValueError`. -/
def intOfHex (s : Text) : Option Nat :=
  if s ≠ [] && s.all GoModules.isHexDigit then
    some (s.foldl (fun n c => 16 * n + hexDigit c) 0)
  else none

/-- The pinned key: its note hash and the raw Ed25519 public key. -/
def officialVerifier (sig : Signatures) : Except PyError (Nat × Bytes) := do
  let (name, _, rest) := partition goSumdbVerifierKey ['+']
  let (keyHashText, _, encodedKey) := partition rest ['+']
  if name ≠ goSumdbName || keyHashText.length ≠ 8 then
    throw (.runtimeError "the pinned Go checksum database verifier is malformed")
  let some keyHash := intOfHex keyHashText
    | throw (.valueError "invalid literal for int() with base 16")
  let key ← decodeCanonicalBase64 encodedKey "pinned verifier key"
  if key.length ≠ 33 || key.head? ≠ some 1 then
    throw (.runtimeError "the pinned Go checksum database verifier is unsupported")
  let actualHash := intFromBytes ((sig.sha256 (utf8Encode name ++ [10] ++ key)).take 4)
  if actualHash ≠ keyHash then
    throw (.runtimeError "the pinned Go checksum database verifier hash is invalid")
  return (keyHash, key.drop 1)

/-! ## Signed notes and lookups -/

/-- One official-key-authenticated tree head with its exact signed bytes. -/
structure SignedGoSumdbTreeHead where
  signedNoteBytes : Bytes
  signedTextBytes : Bytes
  treeSize : Nat
  treeHashBytes : Bytes32
  deriving DecidableEq

/-- One exact lookup record paired with an authenticated signed tree head. -/
structure SignedGoSumdbLookup where
  modulePath : Text
  version : Text
  recordNumber : Nat
  recordTextBytes : Bytes
  moduleH1 : Text
  goModH1 : Text
  treeHead : SignedGoSumdbTreeHead
  deriving DecidableEq

/-- `_proof_hashes`: a bounded list or tuple of canonical base 64 digests. -/
def proofHashes (value : PyObject) (label : String) : Except PyError (List Bytes32) :=
  match value with
  | .list xs | .tuple xs =>
    if xs.length > goSumdbMaxProofHashes then
      .error (.valueError (label ++ " exceeds the hash limit"))
    else xs.mapM item
  | _ => .error (.valueError (label ++ " must be a bounded list or tuple"))
where
  item : PyObject → Except PyError Bytes32
    | .str s =>
      if s.length ≠ 44 || !isAscii s || !hashBase64 s then
        .error (.valueError (label ++ " contains a malformed hash"))
      else do
        let decoded ← decodeCanonicalBase64 s (label ++ " hash")
        if h : decoded.length = 32 then return ⟨decoded, h⟩
        else throw (.valueError (label ++ " contains a malformed hash"))
    | _ => .error (.valueError (label ++ " contains a malformed hash"))

def parseTreeText (signedText : Text) : Except PyError (Nat × Bytes32) :=
  let malformed := PyError.valueError "Go checksum database tree head is malformed"
  if '\r' ∈ signedText || signedText.getLast? ≠ some '\n' then .error malformed
  else match splitlines signedText with
    | [first, second, third] => do
      if first ≠ treePrefix then throw malformed
      let treeSize ← boundedDecimal second "Go checksum database tree head"
      let treeHashBytes ← decodeCanonicalBase64 third "Go checksum database tree hash"
      if h : treeHashBytes.length = 32 then
        if treeSize < 1 then throw malformed
        return (treeSize, ⟨treeHashBytes, h⟩)
      else throw malformed
    | _ => .error malformed

def parseSignedTreeNote (sig : Signatures) (noteBytes : Bytes) :
    Except PyError SignedGoSumdbTreeHead := do
  let some note := utf8Decode noteBytes
    | throw (.valueError "Go checksum database tree note is not UTF-8")
  if '\r' ∈ note || note.getLast? ≠ some '\n' then
    throw (.valueError "Go checksum database tree note is not canonical text")
  let (text, separator, signatureBlock) := rpartition note ['\n', '\n']
  if separator = [] || text = [] || signatureBlock = [] then
    throw (.valueError "Go checksum database tree note is malformed")
  let signedText := text ++ ['\n']
  let [signatureLine] := splitlines signatureBlock
    | throw (.valueError "Go checksum database tree note must have one signature")
  let expectedPrefix := noteSignaturePrefix ++ goSumdbName ++ [' ']
  if !expectedPrefix.isPrefixOf signatureLine then
    throw (.valueError "Go checksum database tree note is not signed by the pinned authority")
  let signature ← decodeCanonicalBase64 (signatureLine.drop expectedPrefix.length)
    "Go checksum database tree signature"
  let (expectedKeyHash, publicKey) ← officialVerifier sig
  if signature.length ≠ 68 || intFromBytes (signature.take 4) ≠ expectedKeyHash then
    throw (.valueError "Go checksum database tree signature uses the wrong key")
  if !sig.ed25519Verify publicKey (signature.drop 4) (utf8Encode signedText) then
    throw (.valueError "Go checksum database tree signature is invalid")
  let (treeSize, treeHashBytes) ← parseTreeText signedText
  return { signedNoteBytes := noteBytes, signedTextBytes := utf8Encode signedText,
           treeSize, treeHashBytes }

/-- Parses one exact requested record and verifies its signed tree head. -/
def parseSignedGoSumdbLookup (sig : Signatures) (response modulePath version : PyObject) :
    Except PyError SignedGoSumdbLookup := do
  let .bytes response := response
    | throw (.valueError "Go checksum database lookup response must be bytes")
  if response.length > goSumdbLookupMaxBytes then
    throw (.valueError "Go checksum database lookup response exceeds the byte limit")
  let (.str path, .str vers) := (modulePath, version)
    | throw (.valueError "Go checksum database lookup identity is malformed")
  if let some err := GoModules.validateGoModuleVersion modulePath version then
    throw (.valueError err)
  let some text := utf8Decode response
    | throw (.valueError "Go checksum database lookup response is not UTF-8")
  if '\r' ∈ text || Char.ofNat 0 ∈ text then
    throw (.valueError "Go checksum database lookup response is not canonical text")
  let (recordBlockBytes, separator, signedTreeNoteBytes) := partition response [10, 10]
  if separator = [] || recordBlockBytes = [] || signedTreeNoteBytes = [] then
    throw (.valueError "Go checksum database lookup response is malformed")
  let some recordBlock := utf8Decode recordBlockBytes
    | throw (.valueError "Go checksum database lookup response is not UTF-8")
  let [numberLine, moduleLine, goModLine] := splitOn1 '\n' recordBlock
    | throw (.valueError "Go checksum database lookup record is malformed")
  let recordNumber ← boundedDecimal numberLine "Go checksum database lookup record"
  let expectedPrefix := path ++ [' '] ++ vers ++ [' ']
  let expectedModPrefix := path ++ [' '] ++ vers ++ "/go.mod ".toList
  if !expectedPrefix.isPrefixOf moduleLine || !expectedModPrefix.isPrefixOf goModLine then
    throw (.valueError "Go checksum database lookup does not contain the exact requested release")
  let moduleH1 ← canonicalH1 (moduleLine.drop expectedPrefix.length) "Go module checksum"
  let goModH1 ← canonicalH1 (goModLine.drop expectedModPrefix.length) "Go go.mod checksum"
  let treeHead ← parseSignedTreeNote sig signedTreeNoteBytes
  if recordNumber ≥ treeHead.treeSize then
    throw (.valueError "Go checksum database record is outside the signed tree")
  let (_, recordSeparator, rawRecord) := partition recordBlockBytes [10]
  if recordSeparator = [] then
    throw (.valueError "Go checksum database lookup record is malformed")
  return { modulePath := path, version := vers, recordNumber,
           recordTextBytes := rawRecord ++ [10], moduleH1, goModH1, treeHead }

/-! ## The proof recursions -/

/-- `1 << ((value - 1).bit_length() - 1)`. -/
def maximumPowerOfTwoBelow (value : Nat) : Except PyError Nat :=
  if value ≤ 1 then .error (.valueError "Go checksum database proof math is invalid")
  else .ok (1 <<< ((value - 1).size - 1))

section
variable {δ : Type} (nodeHash : δ → δ → δ)

/-- The root that an inclusion proof implies; the outermost hash is the last. -/
def runRecordProof (proof : List δ) (low high recordNumber : Nat) (leafHash : δ) :
    Except PyError δ :=
  if low + 1 = high then
    if proof ≠ [] then
      .error (.valueError "Go checksum database inclusion proof has extra hashes")
    else .ok leafHash
  else if h : proof = [] then
    .error (.valueError "Go checksum database inclusion proof is incomplete")
  else do
    let width ← maximumPowerOfTwoBelow (high - low)
    if recordNumber < low + width then
      let subtree ← runRecordProof proof.dropLast low (low + width) recordNumber leafHash
      return nodeHash subtree (proof.getLast h)
    let subtree ← runRecordProof proof.dropLast (low + width) high recordNumber leafHash
    return nodeHash (proof.getLast h) subtree
termination_by proof.length
decreasing_by
  all_goals
    have := List.length_pos_iff.mpr h
    simp only [List.length_dropLast]; omega

/-- The old and the new root that a consistency proof implies. -/
def runTreeProof (proof : List δ) (low high oldSize : Nat) (oldHash : δ) :
    Except PyError (δ × δ) :=
  if oldSize = high then
    if low = 0 then
      if proof ≠ [] then
        .error (.valueError "Go checksum database consistency proof has extra hashes")
      else .ok (oldHash, oldHash)
    else match proof with
      | [hash] => .ok (hash, hash)
      | _ => .error (.valueError "Go checksum database consistency proof is malformed")
  else if h : proof = [] then
    .error (.valueError "Go checksum database consistency proof is incomplete")
  else do
    let width ← maximumPowerOfTwoBelow (high - low)
    if oldSize ≤ low + width then
      let (impliedOld, impliedNew) ←
        runTreeProof proof.dropLast low (low + width) oldSize oldHash
      return (impliedOld, nodeHash impliedNew (proof.getLast h))
    let (impliedOld, impliedNew) ←
      runTreeProof proof.dropLast (low + width) high oldSize oldHash
    return (nodeHash (proof.getLast h) impliedOld, nodeHash (proof.getLast h) impliedNew)
termination_by proof.length
decreasing_by
  all_goals
    have := List.length_pos_iff.mpr h
    simp only [List.length_dropLast]; omega

end

/-! ## The verifier -/

section
variable {δ : Type} [DecidableEq δ] (H : HashSuite δ) (sig : Signatures)

def authenticateRecordInclusion (lookup : SignedGoSumdbLookup) (inclusionProof : PyObject) :
    Except PyError Unit := do
  let proof ← proofHashes inclusionProof "Go checksum database inclusion proof"
  let impliedRoot ← runRecordProof H.nodeHash (proof.map H.ofBytes) 0 lookup.treeHead.treeSize
    lookup.recordNumber (H.recordHash lookup.recordTextBytes)
  if impliedRoot ≠ H.ofBytes lookup.treeHead.treeHashBytes then
    throw (.valueError "Go checksum database inclusion proof does not match the signed tree")

/-- How a release joined the timeline. -/
inductive Timeline where
  | pinnedKeyEmptyTimelineBootstrap
  | pinnedKeySameTree
  | pinnedKeyConsistentExtension
  deriving DecidableEq

structure VerifiedGoSumdbRelease where
  lookup : SignedGoSumdbLookup
  timeline : Timeline
  gossipVerified : Bool := false
  witnessVerified : Bool := false
  deriving DecidableEq

/-- The retained head; `none` before the first accepted release. -/
structure GoSumdbVerifier where
  treeHead : Option SignedGoSumdbTreeHead := none
  deriving DecidableEq

def fromRetainedSignedTreeNote (priorSignedTreeNote : PyObject) :
    Except PyError GoSumdbVerifier := do
  let .bytes note := priorSignedTreeNote
    | throw (.valueError "retained Go checksum database tree note must be bytes")
  if note.length > goSumdbNoteMaxBytes then
    throw (.valueError "retained Go checksum database tree note exceeds the byte limit")
  let prior ← parseSignedTreeNote sig note
  return { treeHead := some prior }

def advance (verifier : GoSumdbVerifier) (newHead : SignedGoSumdbTreeHead)
    (consistencyProof : PyObject) : Except PyError Timeline := do
  let proof ← proofHashes consistencyProof "Go checksum database consistency proof"
  let some prior := verifier.treeHead
    | if proof ≠ [] then
        throw (.valueError
          "empty Go checksum database timeline cannot carry a consistency proof")
      return .pinnedKeyEmptyTimelineBootstrap
  if newHead.treeSize < prior.treeSize then
    throw (.valueError "Go checksum database tree rollback is forbidden")
  if newHead.treeSize = prior.treeSize then
    if newHead.treeHashBytes ≠ prior.treeHashBytes then
      throw (.valueError "Go checksum database tree fork is forbidden")
    if proof ≠ [] then
      throw (.valueError "unchanged Go checksum database tree cannot carry a proof")
    return .pinnedKeySameTree
  let (impliedOld, impliedNew) ← runTreeProof H.nodeHash (proof.map H.ofBytes) 0
    newHead.treeSize prior.treeSize (H.ofBytes prior.treeHashBytes)
  if impliedOld ≠ H.ofBytes prior.treeHashBytes || impliedNew ≠ H.ofBytes newHead.treeHashBytes then
    throw (.valueError "Go checksum database consistency proof is invalid")
  return .pinnedKeyConsistentExtension

/-- The arguments of one `verify_release` call. -/
structure ReleaseCall where
  response : PyObject
  modulePath : PyObject
  version : PyObject
  inclusionProof : PyObject
  consistencyProof : PyObject := .tuple []

/-- An exception leaves the verifier in the state it was raised in. -/
abbrev VerifierM := ExceptT PyError (StateM GoSumdbVerifier)

def verifyRelease (call : ReleaseCall) : VerifierM VerifiedGoSumdbRelease := do
  let lookup ← parseSignedGoSumdbLookup sig call.response call.modulePath call.version
  authenticateRecordInclusion H lookup call.inclusionProof
  let timeline ← advance H (← get) lookup.treeHead call.consistencyProof
  set ({ treeHead := some lookup.treeHead } : GoSumdbVerifier)
  return { lookup, timeline }

end

end Agentrail.GoSumdb
