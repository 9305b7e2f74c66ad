import Agentrail.Records.CorrectionPackets
import Agentrail.Records.HeadAuthority

/-!
# The human decision on a pull request (`change_records.ts`)

An owner or admin decides once for each cycle of a head.  The decision names a binding:
the id of everything the person has seen, which is the head, its cycle and generation,
the posted review with its verdict, and the confirmed contract.
`resolveCurrentAcceptancePrDecisionInTransaction` reads the current binding and the
decision on it, `recordAcceptancePrDecision` adds the event of a decision.

Both run in a transaction under the lock of the pull request; the repository and the
number of the pull request are read before it.
-/

namespace Agentrail.PrDecision

open Js Records
open Correction (canonicalBy isRecord textIs textOf fieldIs fieldOf hasOwn)
open Correction.Writer (safeCriterionSnapshotText criterionVisibleValueContainsSecret)
open ExactGitTree (arrayAt hasExactKeys)

/-- The functions of the platform. -/
structure Host extends Records.Host where
  sha256 : Bytes → Bytes
  /-- `JSON.stringify` of a number -/
  numberText : ℚ → Text
  /-- `new URL(text)`: protocol, hostname, username, password, port, pathname, search, hash;
  `none` where it throws -/
  parseUrl : Text → Option (List Text)

/-! ## The tables -/

/-- The columns of `acceptance_contracts` beside the key; the id is a `uuid`. -/
structure ContractColumns where
  id : Text
  id_plain : ':' ∉ id
  confirmedBy : Option Text
  confirmedAt : Option Int
  contract : Json

structure WorkspaceMembership where
  userId : Text
  workspaceId : Text
  role : Text
  deriving DecidableEq

structure ContractIdentity where
  id : Text
  version : Nat
  sha256 : Text
  deriving DecidableEq

/-- What a decision is bound to. -/
structure BaseBinding where
  workspaceId : Text
  recordId : Text
  repo : Text
  prNumber : Nat
  headSha : Text
  headCycleId : Text
  authorityGeneration : Nat
  reviewJobId : Text
  reviewVerdict : Text
  postedReviewUrl : Text
  postedAttestationEventId : Text
  acceptanceContract : ContractIdentity
  deriving DecidableEq

structure CurrentAcceptancePrDecisionBinding extends BaseBinding where
  bindingId : Text
  deriving DecidableEq

inductive AcceptancePrDecision where
  | approved
  | changesRequested
  | rejected
  | approvedWithException
  deriving DecidableEq

def AcceptancePrDecision.name : AcceptancePrDecision → Text
  | .approved => "approved".toList
  | .changesRequested => "changes_requested".toList
  | .rejected => "rejected".toList
  | .approvedWithException => "approved_with_exception".toList

inductive AcceptancePrDecisionRole where
  | owner
  | admin
  deriving DecidableEq

/-- `acceptance_pr_decision` -/
structure DecisionPayload where
  binding : CurrentAcceptancePrDecisionBinding
  decision : AcceptancePrDecision
  rationale : Option Text
  decidedBy : Text
  decidedRole : AcceptancePrDecisionRole
  deriving DecidableEq

/-- `review_job_github_posted` -/
structure AttestationPayload where
  jobId : Text
  workspaceId : Text
  repo : Text
  prNumber : Nat
  headSha : Text
  recordId : Text
  acceptanceContractId : Text
  acceptanceContractVersion : Nat
  outcomeDigest : Text
  postPayloadDigest : Text
  postedReviewUrl : Text
  inlineCommentsPosted : Option Int
  commentsFolded : Option Bool
  criterionOutcomeBundleSha256 : Option Text
  deriving DecidableEq

/-- What an event says; any other JSON value stands as its text. -/
inductive CustodyPayload where
  | decision (p : DecisionPayload)
  | attestation (p : AttestationPayload)
  | other (json : Text)
  deriving DecidableEq

/-- A row of `change_record_events` that no function on the head reads or writes. -/
structure CustodyEventRow where
  id : Text
  recordId : Text
  eventKey : Text
  stage : Text
  at_ : Int
  actor : Text
  payloadRef : CustodyPayload
  deriving DecidableEq

/-- The store of the functions on the head, and what a decision reads and writes beside it. -/
structure Store extends Records.Store where
  custody : List CustodyEventRow
  contractColumns : Text → Nat → ContractColumns
  memberships : List WorkspaceMembership

/-- What a `uuid` column makes of a text. -/
def uuidValue (t : Text) : Text := ExactHead.toLowerCase t

def Store.custodyOf (s : Store) (recordId eventKey : Text) : Option CustodyEventRow :=
  s.custody.find? fun e => e.recordId = recordId && e.eventKey = eventKey

/-! ## Constants -/

def ACCEPTANCE_PR_DECISION_STAGE : Text := "human_pr_decision".toList

def REVIEW_JOB_POSTED_ATTESTATION_STAGE : Text := "review".toList

def REVIEW_JOB_POSTED_ATTESTATION_ACTOR : Text := "reviewer-of-record".toList

def ACCEPTANCE_PR_DECISION_RATIONALE_LIMIT : Nat := 4000

def INVALID_INPUT : Text := "Invalid Acceptance Record PR decision input".toList

def INVALID_READ : Text :=
  "Current Acceptance PR decision read requires only workspace and Record".toList

/-- `AcceptancePrDecisionConflictError` -/
def DECISION_CONFLICT : Text :=
  "The current PR head cycle already has a different human decision".toList

def NOT_REVALIDATED : Text :=
  "Acceptance Record PR decision custody could not be revalidated".toList

def acceptancePrDecisionEventKey (headCycleId : Text) : Text :=
  "acceptance-pr-decision:".toList ++ headCycleId

def reviewJobPostedAttestationEventKey (reviewJobId : Text) : Text :=
  "review:github-posted:".toList ++ reviewJobId

/-! ## Contracts -/

mutual

def safeContractValue (depth : Nat) : Json → Bool
  | .null => depth ≤ 4
  | .bool _ => depth ≤ 4
  | .num _ => depth ≤ 4
  | .str t => depth ≤ 4 && safeCriterionSnapshotText 2000 t
  | .arr xs => depth ≤ 4 && xs.length ≤ 64 && safeContractItems (depth + 1) xs
  | .obj fields => depth ≤ 4 && fields.length ≤ 32 && safeContractFields (depth + 1) fields

def safeContractItems (depth : Nat) : List Json → Bool
  | [] => true
  | x :: xs => safeContractValue depth x && safeContractItems depth xs

def safeContractFields (depth : Nat) : List (Text × Json) → Bool
  | [] => true
  | (key, nested) :: fields => safeCriterionSnapshotText 128 key &&
      safeContractValue depth nested && safeContractFields depth fields

end

/-- `safeContractStringArray(contract[key])`. -/
def safeContractStringArray (key : String) (contract : Json) : Bool :=
  (arrayAt key contract).any fun items => items.length ≤ 100 && items.all fun
    | .str t => safeCriterionSnapshotText 2000 t
    | _ => false

def isBool : Json → Bool
  | .bool _ => true
  | _ => false

def isContractCriterion (criterion : Json) : Bool :=
  isRecord criterion &&
    (hasExactKeys ["id", "text", "userVisible"] criterion ||
      hasExactKeys ["id", "text", "userVisible", "modality"] criterion) &&
    textIs "id" (safeCriterionSnapshotText 512) criterion &&
    textIs "text" (safeCriterionSnapshotText 2000) criterion &&
    fieldIs "userVisible" isBool criterion &&
    (!hasOwn criterion "modality" || textIs "modality"
      (["ui".toList, "api".toList, "data".toList, "job".toList].contains ·) criterion)

def isContractQuestion (question : Json) : Bool :=
  isRecord question && hasExactKeys ["id", "text"] question &&
    textIs "id" (safeCriterionSnapshotText 512) question &&
    textIs "text" (safeCriterionSnapshotText 2000) question

def contractKeys : List String := [
  "originalRequest", "normalizedRequirements", "acceptanceCriteria", "nonGoals", "risks", "stops",
  "environment", "unresolvedQuestions"]

/-- `projectConfirmedAcceptanceContract(contract) !== null`. -/
def projectsContract (contract : Json) : Bool :=
  textIs "originalRequest" (safeCriterionSnapshotText 4000) contract &&
    safeContractStringArray "normalizedRequirements" contract &&
    safeContractStringArray "nonGoals" contract && safeContractStringArray "risks" contract &&
    safeContractStringArray "stops" contract &&
    fieldIs "environment" (fun value => isRecord value && safeContractValue 0 value) contract &&
    ((arrayAt "acceptanceCriteria" contract).any fun criteria =>
      criteria ≠ [] && criteria.length ≤ 100 && criteria.all isContractCriterion &&
        (criteria.map (textOf "id")).Nodup) &&
    ((arrayAt "unresolvedQuestions" contract).any fun questions =>
      questions.length ≤ 100 && questions.all isContractQuestion &&
        (questions.map (textOf "id")).Nodup) &&
    !criterionVisibleValueContainsSecret
      (.obj (contractKeys.map fun key => (key.toList, fieldOf key contract)))

/-! ## Inputs -/

structure RecordAcceptancePrDecisionInput where
  workspaceId : Text
  recordId : Text
  bindingId : Text
  decision : Text
  rationale : Option Text
  decidedBy : Text
  deriving DecidableEq

structure ParsedDecision where
  workspaceId : Text
  recordId : Text
  bindingId : Text
  decision : AcceptancePrDecision
  rationale : Option Text
  decidedBy : Text
  decidedByUserId : Text
  deriving DecidableEq

def parseDecision (value : Text) : Option AcceptancePrDecision :=
  [.approved, .changesRequested, .rejected, .approvedWithException].find?
    fun d : AcceptancePrDecision => d.name = value

/-- `none` is `undefined`, `some none` is `null`. -/
def canonicalAcceptancePrDecisionRationale : Option Text → Option (Option Text)
  | none => some none
  | some value =>
    let rationale := trim value
    if rationale = [] then some none
    else if Correction.Writer.safeSnapshotText ACCEPTANCE_PR_DECISION_RATIONALE_LIMIT rationale then
      some (some rationale)
    else none

/-- What `HUMAN_DECISION_ACTOR` captures. -/
def humanDecisionActor (value : Text) : Option Text :=
  if (value.take 5).map Char.toLower = "user:".toList && isUuid (value.drop 5) then
    some (value.drop 5)
  else none

def parseAcceptancePrDecisionInput (input : RecordAcceptancePrDecisionInput) :
    Option ParsedDecision :=
  match parseDecision input.decision, humanDecisionActor input.decidedBy,
      canonicalAcceptancePrDecisionRationale input.rationale with
  | some decision, some actor, some rationale =>
    if isUuid input.workspaceId && isUuid input.recordId && isUuid input.bindingId &&
        !(decision = .approvedWithException && rationale = none) then
      some {
        workspaceId := input.workspaceId
        recordId := input.recordId
        bindingId := input.bindingId
        decision
        rationale
        decidedBy := "user:".toList ++ ExactHead.toLowerCase actor
        decidedByUserId := ExactHead.toLowerCase actor }
    else none
  | _, _, _ => none

/-! ## The binding -/

def isAcceptanceReviewVerdict (value : Text) : Bool :=
  value = "proven".toList || value = "failed".toList || value = "not_proven".toList ||
    value = "not_testable".toList

/-- The text that the id of a binding is the hash of. -/
def bindingName (b : BaseBinding) : Text :=
  join [':'] [
    "acceptance-pr-decision-binding".toList, b.workspaceId, b.recordId, b.repo,
    decimal b.prNumber, b.headSha, b.headCycleId, decimal b.authorityGeneration, b.reviewJobId,
    b.reviewVerdict, b.postedReviewUrl, b.postedAttestationEventId, b.acceptanceContract.id,
    decimal b.acceptanceContract.version, b.acceptanceContract.sha256]

def acceptancePrDecisionBindingId (host : Host) (b : BaseBinding) : Text :=
  host.uuid5Url (bindingName b)

def acceptanceContractSha256 (host : Host) (id : Text) (version : Nat) (contract : Json) : Text :=
  hex (host.sha256 (utf8 (canonicalBy host.numberText (fun left right => !textLt right left)
    (.obj [
      ("kind".toList, .str "acceptance_contract_snapshot".toList),
      ("version".toList, .num 1),
      ("acceptanceContractId".toList, .str id),
      ("acceptanceContractVersion".toList, .num version),
      ("contract".toList, contract)]))))

/-- `/^#pullrequestreview-[1-9][0-9]*$/`. -/
def isReviewHash (hash : Text) : Bool :=
  let name := "#pullrequestreview-".toList
  name.isPrefixOf hash &&
    match hash.drop name.length with
    | [] => false
    | c :: rest => ('1' ≤ c && c ≤ '9') && rest.all isDigit

def isCanonicalGithubReviewUrl (host : Host) (value repo : Text) (prNumber : Nat) : Bool :=
  codeUnits value ≤ 2048 && value = trim value && !value.any Correction.Writer.control &&
    match host.parseUrl value with
    | some [protocol, hostname, username, password, port, pathname, search, hash] =>
      protocol = "https:".toList && hostname = "github.com".toList && username = [] &&
        password = [] && port = [] &&
        pathname = ['/'] ++ repo ++ "/pull/".toList ++ decimal prNumber && search = [] &&
        isReviewHash hash
    | _ => false

/-- `LOWER_SHA256`. -/
def isLowerSha256 (t : Text) : Bool :=
  t.length = 64 && t.all fun c => isDigit c || ('a' ≤ c && c ≤ 'f')

def matchesCanonicalPostedReviewAttestation (host : Host) (event : CustodyEventRow)
    (b : BaseBinding) : Bool :=
  let expectedEventKey := reviewJobPostedAttestationEventKey b.reviewJobId
  event.id = changeRecordEventId host.toHost b.recordId expectedEventKey &&
    event.recordId = b.recordId && event.eventKey = expectedEventKey &&
    event.stage = REVIEW_JOB_POSTED_ATTESTATION_STAGE &&
    event.actor = REVIEW_JOB_POSTED_ATTESTATION_ACTOR &&
    match event.payloadRef with
    | .attestation p =>
      p.criterionOutcomeBundleSha256.all isLowerSha256 &&
        p.jobId = b.reviewJobId && p.workspaceId = b.workspaceId && p.repo = b.repo &&
        p.prNumber = b.prNumber && p.headSha = b.headSha && p.recordId = b.recordId &&
        p.acceptanceContractId = b.acceptanceContract.id &&
        p.acceptanceContractVersion = b.acceptanceContract.version &&
        isLowerSha256 p.outcomeDigest && isLowerSha256 p.postPayloadDigest &&
        p.postedReviewUrl = b.postedReviewUrl &&
        isCanonicalGithubReviewUrl host p.postedReviewUrl b.repo b.prNumber &&
        p.inlineCommentsPosted.all fun n => 0 ≤ n && n ≤ 100
    | _ => false

inductive NotReadyReason where
  | reviewJobUnavailable
  | confirmedContractUnavailable
  | postedAttestationUnavailable
  | invalidReviewCustody
  | invalidDecisionCustody
  deriving DecidableEq

inductive Refusal where
  | notFound
  | notCurrent
  | notReady (reason : NotReadyReason)
  deriving DecidableEq

/-- The current head of a record that may be decided on. -/
structure CurrentHead where
  prNumber : Nat
  headSha : Text
  headCycleId : Text
  authorityGeneration : Nat

def currentHead (candidate : Text × Nat) (record : ChangeRecordRow) : Option CurrentHead :=
  match record.prNumber, record.currentPrHeadSha, record.currentPrHeadCycleId with
  | some prNumber, some headSha, some headCycleId =>
    if record.repo = candidate.1 && prNumber = candidate.2 && record.state = "open".toList &&
        record.mergedSha = none && record.currentPrHeadAuthoritative &&
        isExactGithubHeadSha headSha && isUuid headCycleId && headSha ∈ record.headShas then
      some ⟨prNumber, headSha, headCycleId, record.currentPrHeadAuthorityGeneration⟩
    else none
  | _, _, _ => none

def Store.recordOf (s : Store) (workspaceId recordId : Text) : Option ChangeRecordRow :=
  s.records.find? fun r => r.id = uuidValue recordId && r.workspaceId = uuidValue workspaceId

/-- The posted job of a cycle. -/
def Store.postedJob (s : Store) (record : ChangeRecordRow) (head : CurrentHead) :
    Option Review.ReviewJobRow :=
  (s.jobs.rows.find? fun j => j.id = head.headCycleId && j.workspaceId = record.workspaceId &&
    j.repo = record.repo && j.prNumber = head.prNumber && j.headSha = head.headSha).filter
    fun j => j.state = .posted

/-- The identity of the one confirmed contract. -/
def Store.contractIdentity (host : Host) (s : Store) (recordId : Text) :
    Except NotReadyReason ContractIdentity :=
  match s.contracts.filter fun c => c.recordId = recordId && c.status = "confirmed".toList with
  | [confirmed] =>
    let columns := s.contractColumns confirmed.recordId confirmed.version
    if (columns.confirmedBy.any fun by_ => trim by_ ≠ []) && columns.confirmedAt.isSome &&
        projectsContract columns.contract then
      .ok ⟨columns.id, confirmed.version,
        acceptanceContractSha256 host columns.id confirmed.version columns.contract⟩
    else .error .invalidReviewCustody
  | _ => .error .confirmedContractUnavailable

/-- The verdict and the address of a posted review. -/
def postedReview (host : Host) (record : ChangeRecordRow) (head : CurrentHead)
    (job : Review.ReviewJobRow) : Option (Text × Text) :=
  match job.verdict, job.postedReviewUrl with
  | some verdict, some url =>
    if isAcceptanceReviewVerdict verdict &&
        isCanonicalGithubReviewUrl host url record.repo head.prNumber then
      some (verdict, url)
    else none
  | _, _ => none

/-- The binding of the posted review of the current head. -/
def reviewBinding (host : Host) (record : ChangeRecordRow) (head : CurrentHead) (s : Store) :
    Except NotReadyReason CurrentAcceptancePrDecisionBinding :=
  match s.postedJob record head with
  | none => .error .reviewJobUnavailable
  | some job =>
    match s.contractIdentity host record.id with
    | .error reason => .error reason
    | .ok acceptanceContract =>
      match postedReview host record head job with
      | none => .error .invalidReviewCustody
      | some (verdict, url) =>
        match s.custodyOf record.id (reviewJobPostedAttestationEventKey job.id) with
        | none => .error .postedAttestationUnavailable
        | some attestation =>
          let base : BaseBinding := {
            workspaceId := record.workspaceId
            recordId := record.id
            repo := record.repo
            prNumber := head.prNumber
            headSha := head.headSha
            headCycleId := head.headCycleId
            authorityGeneration := head.authorityGeneration
            reviewJobId := job.id
            reviewVerdict := verdict
            postedReviewUrl := url
            postedAttestationEventId := attestation.id
            acceptanceContract }
          if matchesCanonicalPostedReviewAttestation host attestation base then
            .ok ⟨base, acceptancePrDecisionBindingId host base⟩
          else .error .invalidReviewCustody

/-! ## The decision -/

structure CurrentAcceptancePrDecision where
  eventId : Text
  eventKey : Text
  decision : AcceptancePrDecision
  rationale : Option Text
  decidedBy : Text
  decidedRole : AcceptancePrDecisionRole
  decidedAt : Int
  deriving DecidableEq

def parseCurrentAcceptancePrDecisionEvent (host : Host) (event : CustodyEventRow)
    (b : CurrentAcceptancePrDecisionBinding) : Option CurrentAcceptancePrDecision :=
  let eventKey := acceptancePrDecisionEventKey b.headCycleId
  match event.payloadRef with
  | .decision p =>
    if event.id = changeRecordEventId host.toHost b.recordId eventKey &&
        event.recordId = b.recordId && event.eventKey = eventKey &&
        event.stage = ACCEPTANCE_PR_DECISION_STAGE && p.binding = b &&
        (p.rationale.all fun r =>
          canonicalAcceptancePrDecisionRationale (some r) = some (some r)) &&
        !(p.decision = .approvedWithException && p.rationale = none) &&
        !(p.decision = .approved && b.reviewVerdict ≠ "proven".toList) &&
        (humanDecisionActor p.decidedBy).isSome && event.actor = p.decidedBy then
      some {
        eventId := event.id
        eventKey := event.eventKey
        decision := p.decision
        rationale := p.rationale
        decidedBy := p.decidedBy
        decidedRole := p.decidedRole
        decidedAt := event.at_ }
    else none
  | _ => none

inductive Resolved where
  | refused (refusal : Refusal)
  | current (binding : CurrentAcceptancePrDecisionBinding)
      (decision : Option CurrentAcceptancePrDecision)
  deriving DecidableEq

/-- The binding that a person may decide on. -/
def currentBinding (host : Host) (workspaceId recordId : Text) (candidate : Text × Nat)
    (s : Store) : Except Refusal CurrentAcceptancePrDecisionBinding :=
  match s.recordOf workspaceId recordId with
  | none => .error .notFound
  | some record =>
    match currentHead candidate record with
    | none => .error .notCurrent
    | some head =>
      match reviewBinding host record head s with
      | .error reason => .error (.notReady reason)
      | .ok binding => .ok binding

def resolveCurrentAcceptancePrDecisionInTransaction (host : Host) (workspaceId recordId : Text)
    (candidate : Text × Nat) (s : Store) : Resolved :=
  match currentBinding host workspaceId recordId candidate s with
  | .error refusal => .refused refusal
  | .ok binding =>
    match s.custodyOf binding.recordId (acceptancePrDecisionEventKey binding.headCycleId) with
    | none => .current binding none
    | some rawDecisionEvent =>
      match parseCurrentAcceptancePrDecisionEvent host rawDecisionEvent binding with
      | none => .refused (.notReady .invalidDecisionCustody)
      | some decision => .current binding (some decision)

/-- `none` where there is no record, `some none` where it has no pull request. -/
def currentAcceptancePrDecisionCandidate (workspaceId recordId : Text) (s : Store) :
    Option (Option (Text × Nat)) :=
  (s.recordOf workspaceId recordId).map fun record =>
    record.prNumber.map fun prNumber => (record.repo, prNumber)

/-- The candidate is read from the store `before` the lock. -/
def readCurrentAcceptancePrDecision (host : Host) (workspaceId recordId : Text)
    (before s : Store) : Except Text Resolved :=
  if !isUuid workspaceId || !isUuid recordId then .error INVALID_READ
  else match currentAcceptancePrDecisionCandidate workspaceId recordId before with
  | none => .ok (.refused .notFound)
  | some none => .ok (.refused .notCurrent)
  | some (some candidate) =>
    .ok (resolveCurrentAcceptancePrDecisionInTransaction host workspaceId recordId candidate s)

/-! ## Recording -/

inductive RecordResult where
  | recorded (binding : CurrentAcceptancePrDecisionBinding) (decision : CurrentAcceptancePrDecision)
  | replayed (binding : CurrentAcceptancePrDecisionBinding) (decision : CurrentAcceptancePrDecision)
  | refused (refusal : Refusal)
  | notAuthorized
  | decisionNotAllowed
  deriving DecidableEq

/-- The role of a user, where it may decide. -/
def Store.decidingRole (s : Store) (userId workspaceId : Text) :
    Option AcceptancePrDecisionRole :=
  match s.memberships.find? fun m =>
      m.userId = userId && m.workspaceId = uuidValue workspaceId with
  | none => none
  | some membership =>
    if membership.role = "owner".toList then some .owner
    else if membership.role = "admin".toList then some .admin
    else none

def decisionEvent (host : Host) (parsed : ParsedDecision)
    (b : CurrentAcceptancePrDecisionBinding) (role : AcceptancePrDecisionRole) (now : Int) :
    CustodyEventRow where
  id := changeRecordEventId host.toHost parsed.recordId (acceptancePrDecisionEventKey b.headCycleId)
  recordId := uuidValue parsed.recordId
  eventKey := acceptancePrDecisionEventKey b.headCycleId
  stage := ACCEPTANCE_PR_DECISION_STAGE
  at_ := now
  actor := parsed.decidedBy
  payloadRef := .decision {
    binding := b
    decision := parsed.decision
    rationale := parsed.rationale
    decidedBy := parsed.decidedBy
    decidedRole := role }

/-- `appendChangeRecordEventsAtomicallyInTransaction` of one event: the event that is there
afterwards, and whether it was inserted. -/
def appendCustodyEvent (event : CustodyEventRow) (s : Store) :
    Except Text ((CustodyEventRow × Bool) × Store) :=
  match s.custodyOf event.recordId event.eventKey with
  | some found =>
    if found.stage = event.stage ∧ found.actor = event.actor ∧
        found.payloadRef = event.payloadRef then
      .ok ((found, false), s)
    else .error boundDifferently
  | none =>
    if (s.custody.any fun e => e.id = event.id) || s.events.any fun e => e.id = event.id then
      .error UNIQUE_VIOLATION
    else if s.records.any fun r => r.id = event.recordId then
      .ok ((event, true), { s with custody := s.custody ++ [event] })
    else .error FOREIGN_KEY_VIOLATION

/-- The decision on a binding without one. -/
def appendDecision (host : Host) (parsed : ParsedDecision)
    (binding : CurrentAcceptancePrDecisionBinding) (role : AcceptancePrDecisionRole) (s : Store) :
    Except Text (RecordResult × Store) :=
  match appendCustodyEvent (decisionEvent host parsed binding role s.now) s with
  | .error message => .error (if message = boundDifferently then DECISION_CONFLICT else message)
  | .ok ((event, inserted), s') =>
    match parseCurrentAcceptancePrDecisionEvent host event binding with
    | none => .error NOT_REVALIDATED
    | some decision =>
      .ok (if inserted then .recorded binding decision else .replayed binding decision, s')

/-- What a call does to the decision on the current binding. -/
def decideOn (host : Host) (parsed : ParsedDecision)
    (binding : CurrentAcceptancePrDecisionBinding) (decision : Option CurrentAcceptancePrDecision)
    (role : AcceptancePrDecisionRole) (s : Store) : Except Text (RecordResult × Store) :=
  if parsed.bindingId ≠ binding.bindingId then .ok (.refused .notCurrent, s)
  else match decision with
  | some recorded =>
    if recorded.decision ≠ parsed.decision ∨ recorded.rationale ≠ parsed.rationale ∨
        recorded.decidedBy ≠ parsed.decidedBy then
      .error DECISION_CONFLICT
    else .ok (.replayed binding recorded, s)
  | none =>
    if parsed.decision = .approved ∧ binding.reviewVerdict ≠ "proven".toList then
      .ok (.decisionNotAllowed, s)
    else appendDecision host parsed binding role s

/-- The transaction of a call. -/
def decideInTransaction (host : Host) (parsed : ParsedDecision) (candidate : Text × Nat)
    (s : Store) : Except Text (RecordResult × Store) :=
  match s.decidingRole parsed.decidedByUserId parsed.workspaceId with
  | none => .ok (.notAuthorized, s)
  | some role =>
    match resolveCurrentAcceptancePrDecisionInTransaction host parsed.workspaceId parsed.recordId
        candidate s with
    | .refused (.notReady .invalidDecisionCustody) => .error DECISION_CONFLICT
    | .refused (.notReady .reviewJobUnavailable) => .ok (.refused .notCurrent, s)
    | .refused refusal => .ok (.refused refusal, s)
    | .current binding decision => decideOn host parsed binding decision role s

def recordAcceptancePrDecision (host : Host) (input : RecordAcceptancePrDecisionInput)
    (before s : Store) : Except Text (RecordResult × Store) :=
  match parseAcceptancePrDecisionInput input with
  | none => .error INVALID_INPUT
  | some parsed =>
    match currentAcceptancePrDecisionCandidate parsed.workspaceId parsed.recordId before with
    | none => .ok (.refused .notFound, s)
    | some none => .ok (.refused .notCurrent, s)
    | some (some candidate) => decideInTransaction host parsed candidate s

/-! ## Runs -/

inductive Action where
  /-- attach, advance, terminal event or reconciliation, of any record -/
  | head (op : HeadOp)
  | decide (input : RecordAcceptancePrDecisionInput) (before : Store)
  /-- whatever else happens, to the contracts, the jobs, the members; events are only added, and
  none under the key of a decision -/
  | elsewhere (now : Int) (contracts : List AcceptanceContractRow)
      (columns : Text → Nat → ContractColumns) (dispatches : List CorrectionDispatchRow)
      (jobs : Review.ReviewJobTable) (boots : Preview.PreviewBootTable)
      (memberships : List WorkspaceMembership) (appended : List CustodyEventRow)

/-- The key under which a table of events is unique. -/
def CustodyEventRow.key (e : CustodyEventRow) : Text × Text := (e.recordId, e.eventKey)

def isDecisionKey (key : Text) : Bool := "acceptance-pr-decision:".toList.isPrefixOf key

/-- The store after a call: one that throws is rolled back. -/
def commit {α : Type} (s : Store) : Except Text (α × Store) → Store
  | .ok (_, s') => s'
  | .error _ => s

def next (host : Host) (s : Store) : Action → Option Store
  | .head op => some { s with toStore := op.exec host.toHost s.toStore }
  | .decide input before => some (commit s (recordAcceptancePrDecision host input before s))
  | .elsewhere now contracts columns dispatches jobs boots memberships appended =>
    if ((s.custody ++ appended).map CustodyEventRow.key).Nodup ∧
        ∀ e ∈ appended, isDecisionKey e.eventKey = false then
      some { s with
        now, contracts, dispatches, jobs, boots, memberships
        contractColumns := columns
        custody := s.custody ++ appended }
    else none

end Agentrail.PrDecision
