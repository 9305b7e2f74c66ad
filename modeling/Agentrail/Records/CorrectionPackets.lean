import Agentrail.Records.CorrectionPatterns
import Agentrail.Records.ExactHeadContext
import Mathlib.Data.Char
import Mathlib.Data.List.Lex
import Mathlib.Data.List.Nodup
import Mathlib.Data.List.Sort

/-!
# Correction packets

A packet tells the author of a pull request what its review found.  The database
admits it to custody after `validateReviewJobCorrectionPacketPayload`
(`db-postgres/src/queries/change_records.ts`), and the renderer of the correction
comment reads it back after `validateStoredGitHubCorrectionPacketPayload`
(`db-postgres/src/github-correction-dispatch-renderer.ts`).  The two files state the
guard, the identity of a packet and the digest of a set of packets each for itself,
and so do the namespaces `Writer` and `Renderer` here.
-/

namespace Agentrail.Correction

open Js
open ExactGitTree (textAt arrayAt splitPath hasExactKeys isNumberAt compareUtf8)
open ExactHead (isHex isRepo isInteger)

/-- The functions of the platform that the two files call. -/
structure Host where
  sha256 : Bytes → Bytes
  sha256_length : ∀ b, (sha256 b).length = 32
  /-- `JSON.stringify` of a number. -/
  numberText : ℚ → Text
  /-- `left.localeCompare(right) <= 0` -/
  localeLe : Text → Text → Bool

/-! ## Values -/

/-- An object that is no array; its property names are distinct. -/
def isRecord : Json → Bool
  | .obj fields => (fields.map Prod.fst).Nodup
  | _ => false

/-- `value[key]` satisfies `p`. -/
def fieldIs (key : String) (p : Json → Bool) (value : Json) : Bool :=
  (value.get key.toList).any p

/-- `value[key]` is a string that satisfies `p`. -/
def textIs (key : String) (p : Text → Bool) (value : Json) : Bool := (textAt key value).any p

/-- `value[key] === text`. -/
def isTextAt (key text : String) (value : Json) : Bool := textIs key (· = text.toList) value

/-- `value[key]` where it is a number. -/
def numberAt (key : String) (value : Json) : Option ℚ :=
  match value.get key.toList with
  | some (.num q) => some q
  | _ => none

/-- `value[key]` is a number that satisfies `p`. -/
def numberIs (key : String) (p : ℚ → Bool) (value : Json) : Bool := (numberAt key value).any p

/-- `value[key]` is an array of one to `max` items that all satisfy `p`. -/
def itemsAre (key : String) (max : Nat) (p : Json → Bool) (value : Json) : Bool :=
  (arrayAt key value).any fun items => items ≠ [] && items.length ≤ max && items.all p

/-- `Object.keys(value)`. -/
def objectKeys : Json → List Text
  | .obj fields => fields.map Prod.fst
  | _ => []

/-- `hasOwn(value, key)`. -/
def hasOwn (value : Json) (key : String) : Bool := (objectKeys value).contains key.toList

def isNull : Json → Bool
  | .null => true
  | _ => false

/-- The text of a field that a guard has found to be a string. -/
def textOf (key : String) (value : Json) : Text := (textAt key value).getD []

/-- A field that a guard has found to be there. -/
def fieldOf (key : String) (value : Json) : Json := (value.get key.toList).getD .null

/-! ## Canonical JSON -/

section
variable (numberText : ℚ → Text) (before : Text → Text → Bool)

mutual

/-- JSON text with the names of every object in the order `before`. -/
def canonicalBy : Json → Text
  | .null => "null".toList
  | .bool true => "true".toList
  | .bool false => "false".toList
  | .num q => numberText q
  | .str t => quote t
  | .arr xs => array (canonicalItems xs)
  | .obj fields => object ((canonicalFields fields).insertionSort fun f g => before f.1 g.1)

def canonicalItems : List Json → List Text
  | [] => []
  | x :: xs => canonicalBy x :: canonicalItems xs

def canonicalFields : List (Text × Json) → List (Text × Text)
  | [] => []
  | (k, v) :: fields => (k, canonicalBy v) :: canonicalFields fields

end

end

/-- What both files hash as the identity of a packet: `JSON.stringify` writes the properties in
the order of the literal. -/
def idDocument (host : Host) (payload : Json) : Text := object [
  ("jobId".toList, quote (textOf "jobId" payload)),
  ("criterionId".toList, quote (textOf "id" (fieldOf "criterion" payload))),
  ("headSha".toList, quote (textOf "headSha" payload)),
  ("recordId".toList, quote (textOf "recordId" payload)),
  ("acceptanceContractId".toList, quote (textOf "id" (fieldOf "acceptanceContract" payload))),
  ("acceptanceContractVersion".toList,
    host.numberText ((numberAt "version" (fieldOf "acceptanceContract" payload)).getD 0))]

/-- The document whose digest names a set of packets. -/
def payloadSet (packets : List Json) : Json := .obj [
  ("kind".toList, .str "acceptance_correction_packet_payload_set".toList),
  ("version".toList, .num 1),
  ("packets".toList, .arr packets)]

def packetKeys : List String := [
  "kind", "version", "packetId", "workspaceId", "repo", "prNumber", "headSha", "recordId", "jobId",
  "acceptanceContract", "criterion", "basis", "state", "expected", "observed", "affectedContext",
  "evidence", "scopeBoundary", "impact", "requiredCorrection", "reverification"]

def dataRequestKeys : List String := [
  "method", "path", "expectedStatus", "digestAlgorithm", "digestKeyId", "digestContext",
  "expectedJson"]

/-! ## The writer (`queries/change_records.ts`) -/

namespace Writer

/-- `EXACT_SHA1` and `EXACT_SHA256`. -/
def exactSha1 (t : Text) : Bool := isHex 40 t

def exactSha256 (t : Text) : Bool := isHex 64 t

/-- `[\u0000-\u001f\u007f]`. -/
def control (c : Char) : Bool := c.toNat ≤ 0x1f || c.toNat = 0x7f

def safeSnapshotText (max : Nat) (value : Text) : Bool :=
  value ≠ [] && codeUnits value ≤ max && value = trim value && !value.any control &&
    !Regex.test SECRET_LIKE value

def safeCriterionSnapshotText (max : Nat) (value : Text) : Bool :=
  value ≠ [] && codeUnits value ≤ max && value = trim value && !value.any control &&
    !criterionVisibleTextContainsSecret value

def safeRepo (value : Text) : Bool :=
  isRepo value && (splitPath value).all fun segment => segment ≠ ['.'] && segment ≠ ['.', '.']

def isPositiveInteger (q : ℚ) : Bool := isInteger q && 0 < q

def isStatus (q : ℚ) : Bool := isInteger q && 100 ≤ q && q ≤ 599

mutual

/-- `visit` of `criterionVisibleValueContainsSecret`; a value that JSON can write has no cycle. -/
def visit (depth : Nat) : Json → Bool
  | .str t => criterionVisibleTextContainsSecret t
  | .arr xs => 16 < depth || visitItems (depth + 1) xs
  | .obj fields => 16 < depth || visitEntries (depth + 1) fields
  | _ => false

def visitItems (depth : Nat) : List Json → Bool
  | [] => false
  | x :: xs => visit depth x || visitItems depth xs

def visitEntries (depth : Nat) : List (Text × Json) → Bool
  | [] => false
  | (key, nested) :: fields =>
    criterionVisibleTextContainsSecret key ||
      (Regex.test CREDENTIAL_FIELD_NAME key &&
        match nested with
        | .str t => t = trim t && compactCredentialValue t
        | _ => false) ||
      visit depth nested || visitEntries depth fields

end

def criterionVisibleValueContainsSecret (value : Json) : Bool := visit 0 value

/-! ### Reproductions -/

def isCorrectionApiRequest (value : Json) : Bool :=
  isRecord value && hasExactKeys ["method", "path", "expectedStatus"] value &&
    isTextAt "method" "GET" value &&
    textIs "path" (safeCriterionSnapshotText 2048) value &&
    numberIs "expectedStatus" isStatus value

/-- One assertion of `expectedJson`. -/
def isCorrectionAssertion (value : Json) : Bool :=
  isRecord value && hasExactKeys ["pointer", "equalsType", "equalsHmacSha256"] value &&
    textIs "pointer" (safeCriterionSnapshotText 1024) value &&
    (isTextAt "equalsType" "null" value || isTextAt "equalsType" "boolean" value ||
      isTextAt "equalsType" "number" value || isTextAt "equalsType" "string" value) &&
    textIs "equalsHmacSha256" exactSha256 value

def isCorrectionDataRequest (value : Json) : Bool :=
  isRecord value && hasExactKeys dataRequestKeys value &&
    isTextAt "method" "GET" value &&
    textIs "path" (safeCriterionSnapshotText 2048) value &&
    numberIs "expectedStatus" isStatus value &&
    isTextAt "digestAlgorithm" "hmac-sha256-v1" value &&
    textIs "digestKeyId" (safeCriterionSnapshotText 64) value &&
    textIs "digestContext" exactSha256 value &&
    itemsAre "expectedJson" 12 isCorrectionAssertion value

/-- The trigger of a job. -/
def isCorrectionTrigger (value : Json) : Bool :=
  isRecord value && hasExactKeys ["method", "path", "expectedStatus"] value &&
    isTextAt "method" "POST" value &&
    textIs "path" (safeCriterionSnapshotText 2048) value &&
    numberIs "expectedStatus" isStatus value

/-- One step of a walk through the user interface. -/
def isCorrectionStep (step : Json) : Bool :=
  isRecord step && (textAt "action" step).any fun action =>
    if action = "open".toList then
      hasExactKeys ["action", "path"] step && textIs "path" (safeCriterionSnapshotText 2048) step
    else if action = "click".toList then
      hasExactKeys ["action", "selector"] step &&
        textIs "selector" (safeCriterionSnapshotText 2048) step
    else if action = "fill".toList then
      hasExactKeys ["action", "selector", "value"] step &&
        textIs "selector" (safeCriterionSnapshotText 2048) step &&
        isTextAt "value" "[REDACTED_FILL]" step
    else if action = "press".toList then
      hasExactKeys ["action", "key"] step && textIs "key" (safeCriterionSnapshotText 128) step
    else if action = "expect_text".toList then
      hasExactKeys ["action", "text"] step && textIs "text" (safeCriterionSnapshotText 2048) step
    else if action = "screenshot".toList then
      hasExactKeys ["action", "label"] step && textIs "label" (safeCriterionSnapshotText 512) step
    else false

def isCorrectionReproduction (modality : Text) (value : Json) : Bool :=
  isRecord value && textIs "modality" (· = modality) value &&
    if modality = "api".toList then
      hasExactKeys ["modality", "request"] value && fieldIs "request" isCorrectionApiRequest value
    else if modality = "data".toList then
      hasExactKeys ["modality", "request"] value && fieldIs "request" isCorrectionDataRequest value
    else if modality = "job".toList then
      hasExactKeys ["modality", "request"] value &&
        fieldIs "request" (fun request =>
          isRecord request && hasExactKeys ["trigger", "readback"] request &&
            fieldIs "trigger" isCorrectionTrigger request &&
            fieldIs "readback" isCorrectionDataRequest request) value
    else
      modality = "ui".toList && hasExactKeys ["modality", "steps"] value &&
        itemsAre "steps" 12 isCorrectionStep value

/-! ### Packets -/

/-- `reviewJobCorrectionPacketId`. -/
def reviewJobCorrectionPacketId (host : Host) (payload : Json) : Text :=
  "correction-".toList ++ (hex (host.sha256 (utf8 (idDocument host payload)))).take 48

def isAcceptanceContract (contract : Json) : Bool :=
  isRecord contract && hasExactKeys ["id", "version"] contract &&
    textIs "id" (safeSnapshotText 512) contract && numberIs "version" isPositiveInteger contract

def isCriterion (criterion : Json) : Bool :=
  isRecord criterion && hasExactKeys ["id", "snapshot"] criterion &&
    textIs "id" (safeSnapshotText 512) criterion &&
    textIs "snapshot" (safeCriterionSnapshotText 2000) criterion

def isAffectedContext (context : Json) : Bool :=
  isRecord context &&
    hasExactKeys ["modality", "environmentKind", "flow", "reproduction"] context &&
    (isTextAt "modality" "ui" context || isTextAt "modality" "api" context ||
      isTextAt "modality" "data" context || isTextAt "modality" "job" context) &&
    (fieldIs "environmentKind" isNull context ||
      isTextAt "environmentKind" "isolated_preview" context) &&
    textIs "flow" (safeCriterionSnapshotText 2000) context &&
    fieldIs "reproduction" (isCorrectionReproduction (textOf "modality" context)) context

def isEvidence (evidence : Json) : Bool :=
  isRecord evidence &&
    ((objectKeys evidence).all fun key => key = "evidenceRef".toList ||
      key = "artifactKey".toList || key = "executionId".toList || key = "previewBootId".toList) &&
    hasOwn evidence "evidenceRef" && hasOwn evidence "previewBootId" &&
    textIs "evidenceRef" (safeCriterionSnapshotText 2000) evidence &&
    textIs "previewBootId" (safeCriterionSnapshotText 512) evidence &&
    (!hasOwn evidence "artifactKey" ||
      textIs "artifactKey" (safeCriterionSnapshotText 2000) evidence) &&
    (!hasOwn evidence "executionId" ||
      textIs "executionId" (safeCriterionSnapshotText 512) evidence)

def validateReviewJobCorrectionPacketPayload (host : Host) (payload : Json) : Bool :=
  isRecord payload && hasExactKeys packetKeys payload &&
    isTextAt "kind" "review_job_correction_packet" payload && isNumberAt "version" 1 payload &&
    textIs "workspaceId" (safeSnapshotText 512) payload && textIs "repo" safeRepo payload &&
    numberIs "prNumber" isPositiveInteger payload && textIs "headSha" exactSha1 payload &&
    textIs "recordId" (safeSnapshotText 512) payload &&
    textIs "jobId" (safeSnapshotText 512) payload &&
    fieldIs "acceptanceContract" isAcceptanceContract payload &&
    fieldIs "criterion" isCriterion payload &&
    isTextAt "basis" "acceptance_contract" payload &&
    (isTextAt "state" "failed" payload || isTextAt "state" "not_proven" payload) &&
    textIs "expected" (· = textOf "snapshot" (fieldOf "criterion" payload)) payload &&
    textIs "expected" (safeCriterionSnapshotText 2000) payload &&
    textIs "observed" (safeCriterionSnapshotText 2000) payload &&
    fieldIs "affectedContext" isAffectedContext payload &&
    fieldIs "evidence" isEvidence payload &&
    textIs "scopeBoundary" (safeCriterionSnapshotText 2000) payload &&
    textIs "impact" (safeCriterionSnapshotText 2000) payload &&
    textIs "requiredCorrection" (safeCriterionSnapshotText 2000) payload &&
    textIs "reverification" (safeCriterionSnapshotText 2000) payload &&
    !criterionVisibleValueContainsSecret payload &&
    textIs "packetId" (· = reviewJobCorrectionPacketId host payload) payload

/-! ### Sets of packets -/

/-- Names of an object in the order of their UTF-16 code units. -/
def canonicalJson (host : Host) : Json → Text :=
  canonicalBy host.numberText fun left right => !textLt right left

/-- The order in which the writer hashes a set of packets. -/
def packetOrder (host : Host) (packets : List Json) : List Json :=
  packets.insertionSort fun left right =>
    host.localeLe (textOf "packetId" left) (textOf "packetId" right)

/-- `none` where it throws. -/
def acceptanceCorrectionPacketPayloadSetSha256 (host : Host) (packets : List Json) :
    Option Text := do
  guard (packets ≠ [] && packets.length ≤ 100 &&
    packets.all (validateReviewJobCorrectionPacketPayload host))
  guard (((packetOrder host packets).map (textOf "packetId")).Nodup)
  return hex (host.sha256 (utf8 (canonicalJson host (payloadSet (packetOrder host packets)))))

end Writer

/-! ## The renderer (`github-correction-dispatch-renderer.ts`) -/

namespace Renderer

/-- `SHA1`, `SHA256` and `CORRECTION_PACKET_ID`. -/
def isSha1 (t : Text) : Bool := isHex 40 t

def isSha256 (t : Text) : Bool := isHex 64 t

def isCorrectionPacketId (t : Text) : Bool :=
  (t.take 11).map fold = "correction-".toList && isHex 48 (t.drop 11)

def maxSafeInteger : ℚ := 9007199254740991

def isPositiveInteger (q : ℚ) : Bool := isInteger q && q ≤ maxSafeInteger && 0 < q

def validExpectedStatus (q : ℚ) : Bool := isInteger q && 100 ≤ q && q ≤ 599

def boundedStoredPacketText (max : Nat) (value : Text) : Bool :=
  value ≠ [] && codeUnits value ≤ max && value = trim value && !value.any controlOrBidi &&
    secretsClean value

/-! ### Reproductions -/

section
variable (boundedText : Nat → Text → Bool)

/-- A request by `method` without assertions. -/
def validateRequest (method : String) (value : Json) : Bool :=
  isRecord value && hasExactKeys ["method", "path", "expectedStatus"] value &&
    isTextAt "method" method value && textIs "path" (boundedText 2048) value &&
    numberIs "expectedStatus" validExpectedStatus value

def validateAssertion (value : Json) : Bool :=
  isRecord value && hasExactKeys ["pointer", "equalsType", "equalsHmacSha256"] value &&
    textIs "pointer" (boundedText 1024) value &&
    (isTextAt "equalsType" "null" value || isTextAt "equalsType" "boolean" value ||
      isTextAt "equalsType" "number" value || isTextAt "equalsType" "string" value) &&
    textIs "equalsHmacSha256" isSha256 value

def validateDataRequest (value : Json) : Bool :=
  isRecord value && hasExactKeys dataRequestKeys value &&
    isTextAt "method" "GET" value && textIs "path" (boundedText 2048) value &&
    numberIs "expectedStatus" validExpectedStatus value &&
    isTextAt "digestAlgorithm" "hmac-sha256-v1" value &&
    textIs "digestKeyId" (boundedText 64) value && textIs "digestContext" isSha256 value &&
    itemsAre "expectedJson" 12 (validateAssertion boundedText) value

def validateStep (step : Json) : Bool :=
  isRecord step && (textAt "action" step).any fun action =>
    if action = "open".toList then
      hasExactKeys ["action", "path"] step && textIs "path" (boundedText 2048) step
    else if action = "click".toList then
      hasExactKeys ["action", "selector"] step && textIs "selector" (boundedText 2048) step
    else if action = "fill".toList then
      hasExactKeys ["action", "selector", "value"] step &&
        textIs "selector" (boundedText 2048) step && isTextAt "value" "[REDACTED_FILL]" step
    else if action = "press".toList then
      hasExactKeys ["action", "key"] step && textIs "key" (boundedText 128) step
    else if action = "expect_text".toList then
      hasExactKeys ["action", "text"] step && textIs "text" (boundedText 2048) step
    else if action = "screenshot".toList then
      hasExactKeys ["action", "label"] step && textIs "label" (boundedText 512) step
    else false

def validateReproduction (modality : Text) (value : Json) : Bool :=
  isRecord value && textIs "modality" (· = modality) value &&
    if modality = "api".toList then
      hasExactKeys ["modality", "request"] value &&
        fieldIs "request" (validateRequest boundedText "GET") value
    else if modality = "data".toList then
      hasExactKeys ["modality", "request"] value &&
        fieldIs "request" (validateDataRequest boundedText) value
    else if modality = "job".toList then
      hasExactKeys ["modality", "request"] value &&
        fieldIs "request" (fun request =>
          isRecord request && hasExactKeys ["trigger", "readback"] request &&
            fieldIs "trigger" (validateRequest boundedText "POST") request &&
            fieldIs "readback" (validateDataRequest boundedText) request) value
    else
      modality = "ui".toList && hasExactKeys ["modality", "steps"] value &&
        itemsAre "steps" 12 (validateStep boundedText) value

/-! ### Packets -/

def validContract (contract : Json) : Bool :=
  isRecord contract && hasExactKeys ["id", "version"] contract &&
    textIs "id" safeOpaqueId contract && numberIs "version" isPositiveInteger contract

def validCriterion (criterion : Json) : Bool :=
  isRecord criterion && hasExactKeys ["id", "snapshot"] criterion &&
    textIs "id" safeOpaqueId criterion && textIs "snapshot" (boundedText 2000) criterion

def validContext (context : Json) : Bool :=
  isRecord context &&
    hasExactKeys ["modality", "environmentKind", "flow", "reproduction"] context &&
    (isTextAt "modality" "ui" context || isTextAt "modality" "api" context ||
      isTextAt "modality" "data" context || isTextAt "modality" "job" context) &&
    (fieldIs "environmentKind" isNull context ||
      isTextAt "environmentKind" "isolated_preview" context) &&
    textIs "flow" (boundedText 2000) context &&
    fieldIs "reproduction" (validateReproduction boundedText (textOf "modality" context)) context

/-- The names that evidence has, by the two that it may have. -/
def evidenceKeys (evidence : Json) : List String :=
  ["evidenceRef"] ++ (if hasOwn evidence "artifactKey" then ["artifactKey"] else []) ++
    (if hasOwn evidence "executionId" then ["executionId"] else []) ++ ["previewBootId"]

def validEvidence (evidence : Json) : Bool :=
  isRecord evidence && hasExactKeys (evidenceKeys evidence) evidence &&
    textIs "evidenceRef" (boundedText 2000) evidence &&
    textIs "previewBootId" (boundedText 512) evidence &&
    (!hasOwn evidence "artifactKey" || textIs "artifactKey" (boundedText 2000) evidence) &&
    (!hasOwn evidence "executionId" || textIs "executionId" (boundedText 512) evidence)

end

def expectedCorrectionPacketId (host : Host) (packet : Json) : Text :=
  "correction-".toList ++ (hex (host.sha256 (utf8 (idDocument host packet)))).take 48

def validateCorrectionPacketPayload (host : Host) (boundedText : Nat → Text → Bool)
    (value : Json) : Bool :=
  isRecord value && hasExactKeys packetKeys value &&
    isTextAt "kind" "review_job_correction_packet" value && isNumberAt "version" 1 value &&
    textIs "workspaceId" safeOpaqueId value && textIs "repo" isRepo value &&
    numberIs "prNumber" isPositiveInteger value && textIs "headSha" isSha1 value &&
    textIs "recordId" safeOpaqueId value && textIs "jobId" safeOpaqueId value &&
    textIs "packetId" isCorrectionPacketId value &&
    fieldIs "acceptanceContract" validContract value &&
    fieldIs "criterion" (validCriterion boundedText) value &&
    isTextAt "basis" "acceptance_contract" value &&
    (isTextAt "state" "failed" value || isTextAt "state" "not_proven" value) &&
    textIs "expected" (· = textOf "snapshot" (fieldOf "criterion" value)) value &&
    textIs "expected" (boundedText 2000) value && textIs "observed" (boundedText 2000) value &&
    fieldIs "affectedContext" (validContext boundedText) value &&
    fieldIs "evidence" (validEvidence boundedText) value &&
    textIs "scopeBoundary" (boundedText 2000) value && textIs "impact" (boundedText 2000) value &&
    textIs "requiredCorrection" (boundedText 2000) value &&
    textIs "reverification" (boundedText 2000) value &&
    textIs "packetId" (· = expectedCorrectionPacketId host value) value

def validateStoredGitHubCorrectionPacketPayload (host : Host) (value : Json) : Bool :=
  validateCorrectionPacketPayload host boundedStoredPacketText value

/-! ### Sets of packets -/

/-- Names of an object in the order of their UTF-8 bytes. -/
def canonicalJson (host : Host) : Json → Text :=
  canonicalBy host.numberText fun left right => compareUtf8 left right ≠ .gt

def expectedPacketPayloadSetSha256 (host : Host) (packets : List Json) : Text :=
  hex (host.sha256 (utf8 (canonicalJson host (payloadSet packets))))

end Renderer

end Agentrail.Correction
