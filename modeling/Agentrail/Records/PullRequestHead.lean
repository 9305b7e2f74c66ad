import Agentrail.Records.ChangeRecords

/-!
# The head of a pull request (`change_records.ts`)

An Acceptance Record is a change record with a confirmed contract.  Its current head is a commit,
the cycle in which it was seen, a flag that says whether it may be worked on, and a generation
that counts the changes.  Webhook deliveries advance the head or hold it, a closed or merged pull
request takes the authority away, and a reconciliation with what the GitHub API observes gives it
back.  Each function is one transaction under the advisory lock of the record.

A delivery is receipted under its own key before anything else is looked at; a second one of the
same key changes nothing.  Reviews and previews may only be worked on for the current head.
-/

namespace Agentrail.Records

open Js

/-! ## Ids -/

/-- `JSON.stringify` of a string. -/
def jsonString (t : Text) : Text :=
  let hex := fun n => if n < 10 then Char.ofNat (48 + n) else Char.ofNat (87 + n)
  let escape := fun c : Char =>
    if c = '"' then ['\\', '"']
    else if c = '\\' then ['\\', '\\']
    else if c.toNat = 8 then ['\\', 'b']
    else if c.toNat = 9 then ['\\', 't']
    else if c.toNat = 10 then ['\\', 'n']
    else if c.toNat = 12 then ['\\', 'f']
    else if c.toNat = 13 then ['\\', 'r']
    else if c.toNat < 32 then ['\\', 'u', '0', '0', hex (c.toNat / 16), hex (c.toNat % 16)]
    else [c]
  '"' :: t.flatMap escape ++ ['"']

def jsonOrNull : Option Text → Text
  | none => "null".toList
  | some t => jsonString t

/-- `JSON.stringify` of an array of values that are written already. -/
def jsonArray (items : List Text) : Text :=
  '[' :: join ",".toList items ++ [']']

/-- The pull request of a record. -/
structure PullRequestInput where
  workspaceId : Text
  recordId : Text
  repo : Text
  prNumber : Nat
  deriving DecidableEq, Repr

inductive HeadEvent where
  | opened
  | readyForReview
  | reopened
  | synchronize
  deriving DecidableEq, Repr

def HeadEvent.name : HeadEvent → Text
  | .opened => "opened".toList
  | .readyForReview => "ready_for_review".toList
  | .reopened => "reopened".toList
  | .synchronize => "synchronize".toList

structure AdvanceInput extends PullRequestInput where
  headSha : Text
  event : HeadEvent
  deliveryId : Text
  admitReviewJob : Bool
  headTransition : Option HeadTransition
  prUrl : Option Text := none
  deriving DecidableEq, Repr

inductive TerminalEvent where
  | closed
  | merged
  deriving DecidableEq, Repr

def TerminalEvent.name : TerminalEvent → Text
  | .closed => "closed".toList
  | .merged => "merged".toList

structure InvalidateInput extends PullRequestInput where
  headSha : Text
  event : TerminalEvent
  deliveryId : Text
  deriving DecidableEq, Repr

inductive ObservedState where
  | open
  | closed
  deriving DecidableEq, Repr

def ObservedState.name : ObservedState → Text
  | .open => "open".toList
  | .closed => "closed".toList

structure ReconcileInput extends PullRequestInput where
  expectedBlockedHeadSha : Text
  expectedBlockedCycleId : Text
  expectedBlockedAuthorityGeneration : Nat
  observedHeadSha : Text
  observedBaseSha : Text
  observedState : ObservedState
  observedDraft : Bool
  observedMerged : Bool
  deriving DecidableEq, Repr

inductive AttachSource where
  | githubWebhook
  | manual
  | mcp
  deriving DecidableEq, Repr

def AttachSource.name : AttachSource → Text
  | .githubWebhook => "github_webhook".toList
  | .manual => "manual".toList
  | .mcp => "mcp".toList

structure AttachInput extends PullRequestInput where
  headSha : Text
  source : AttachSource
  prUrl : Option Text := none
  deriving DecidableEq, Repr

section
variable (host : Host)

def acceptanceRecordPullRequestHeadCycleId (input : AdvanceInput) : Text :=
  host.uuid5Url ("acceptance-record-pr-head-cycle:".toList ++ jsonArray
    [jsonString input.workspaceId, jsonString input.recordId, jsonString input.repo,
      decimal input.prNumber, jsonString input.headSha, jsonString input.event.name,
      jsonString input.deliveryId,
      jsonOrNull (input.headTransition.map HeadTransition.beforeHeadSha),
      jsonOrNull (input.headTransition.map HeadTransition.afterHeadSha)])

def acceptanceRecordPullRequestReconciliationCycleId (input : ReconcileInput) : Text :=
  host.uuid5Url ("acceptance-record-pr-head-reconciliation-cycle:".toList ++ jsonArray
    [jsonString input.workspaceId, jsonString input.recordId, jsonString input.repo,
      decimal input.prNumber, jsonString input.expectedBlockedHeadSha,
      jsonString input.expectedBlockedCycleId,
      decimal input.expectedBlockedAuthorityGeneration, jsonString input.observedHeadSha,
      jsonString input.observedBaseSha])

end

/-! ## What the inputs must look like -/

def isHexDigit (c : Char) : Bool :=
  isDigit c || ('a' ≤ c && c ≤ 'f') || ('A' ≤ c && c ≤ 'F')

/-- `GIT_SHA` -/
def isGitSha (t : Text) : Bool := 7 ≤ t.length && t.length ≤ 64 && t.all isHexDigit

/-- `EXACT_GITHUB_HEAD_SHA` -/
def isExactGithubHeadSha (t : Text) : Bool := t.length = 40 && t.all isHexDigit

/-- `UUID` -/
def isUuid (t : Text) : Bool :=
  let parts := t.splitOn '-'
  t.all (fun c => isHexDigit c || c = '-') && parts.map List.length = [8, 4, 4, 4, 12] &&
    (parts[2]?.bind List.head?).any (· ∈ "12345".toList) &&
    (parts[3]?.bind List.head?).any (· ∈ "89abAB".toList)

/-- The length of a string in UTF-16 code units. -/
def utf16Length (t : Text) : Nat :=
  t.foldl (fun n c => n + if c.toNat < 0x10000 then 1 else 2) 0

def boundedPullRequestProvenanceText (value : Text) (limit : Nat) : Bool :=
  value ≠ [] && utf16Length value ≤ limit && value = trim value &&
    value.all fun c => 0x1f < c.toNat && c.toNat ≠ 0x7f

def AdvanceInput.valid (input : AdvanceInput) : Bool :=
  let expectedPrUrl := "https://github.com/".toList ++ input.repo ++ "/pull/".toList ++
    decimal input.prNumber
  0 < input.prNumber && isExactGithubHeadSha input.headSha &&
    boundedPullRequestProvenanceText input.deliveryId 256 &&
    input.prUrl.all (· = expectedPrUrl) &&
    if input.event = .synchronize then
      input.headTransition.any fun t => isExactGithubHeadSha t.beforeHeadSha &&
        isExactGithubHeadSha t.afterHeadSha && t.afterHeadSha = input.headSha
    else input.headTransition = none

def InvalidateInput.valid (input : InvalidateInput) : Bool :=
  0 < input.prNumber && isExactGithubHeadSha input.headSha &&
    boundedPullRequestProvenanceText input.deliveryId 256

def ReconcileInput.valid (input : ReconcileInput) : Bool :=
  0 < input.prNumber && isExactGithubHeadSha input.expectedBlockedHeadSha &&
    isUuid input.expectedBlockedCycleId && isExactGithubHeadSha input.observedHeadSha &&
    isExactGithubHeadSha input.observedBaseSha

def AttachInput.valid (input : AttachInput) : Bool :=
  0 < input.prNumber && isGitSha input.headSha

/-! ## What the functions read and write -/

def Store.recordOf (s : Store) (pr : PullRequestInput) : Option ChangeRecordRow :=
  s.records.find? fun r =>
    r.workspaceId = pr.workspaceId && r.id = pr.recordId && r.repo = pr.repo

def Store.confirmedContract (s : Store) (recordId : Text) : Option AcceptanceContractRow :=
  s.contracts.find? fun c => c.recordId = recordId && c.status = "confirmed".toList

inductive Refusal where
  | notFound
  | notConfirmed
  | alreadyAttached
  | notAttached
  | headAdvanceRequired
  deriving DecidableEq, Repr

/-- The record and the version of its confirmed contract. -/
def Store.confirmedRecord (s : Store) (pr : PullRequestInput) :
    Except Refusal (ChangeRecordRow × Nat) :=
  match s.recordOf pr with
  | none => .error .notFound
  | some record =>
    match s.confirmedContract pr.recordId with
    | none => .error .notConfirmed
    | some contract => .ok (record, contract.version)

/-- The pull request belongs to another record, or the record to another pull request. -/
def Store.isAttachedElsewhere (s : Store) (pr : PullRequestInput) (record : ChangeRecordRow) :
    Bool :=
  record.prNumber.any (· ≠ pr.prNumber) ||
    (s.recordOfPr pr.workspaceId pr.repo pr.prNumber).any fun r => r.id ≠ pr.recordId

/-- The jobs of the pull request that wait or run. -/
def isLiveJob (pr : PullRequestInput) (r : Review.ReviewJobRow) : Bool :=
  r.workspaceId = pr.workspaceId && r.repo = pr.repo && r.prNumber = pr.prNumber &&
    (r.state = .queued || r.state = .running)

/-- The boots of the pull request that have not ended. -/
def isLiveBoot (pr : PullRequestInput) (r : Preview.PreviewBootRow) : Bool :=
  r.workspaceId = pr.workspaceId && r.repo = pr.repo && r.prNumber = pr.prNumber &&
    Preview.isLive r

/-- The live jobs but `kept` are superseded. -/
def Store.supersedeJobs (s : Store) (pr : PullRequestInput) (kept : Option Text) : Store :=
  { s with
    jobs := s.jobs.update (fun r => isLiveJob pr r && kept ≠ some r.id)
      (Review.supersededRow s.now) (Review.keeps_reviewJobKeys _ fun _ => rfl) }

def Store.countSuperseded (s : Store) (pr : PullRequestInput) (kept : Option Text) : Nat :=
  (s.jobs.select fun r => isLiveJob pr r && kept ≠ some r.id).length

def tornDownRow (reason : Text) (now : Int) (r : Preview.PreviewBootRow) :
    Preview.PreviewBootRow :=
  { r with status := .tornDown, reason := some reason, updatedAt := now }

/-- The live boots but `kept` are torn down. -/
def Store.tearDownBoots (s : Store) (pr : PullRequestInput) (kept : Option Text) (reason : String) :
    Store :=
  { s with
    boots := s.boots.update (fun r => isLiveBoot pr r && kept ≠ some r.id)
      (tornDownRow reason.toList s.now) (Preview.keeps_previewBootKeys _ fun _ => rfl) }

def Store.countTornDown (s : Store) (pr : PullRequestInput) (kept : Option Text) : Nat :=
  (s.boots.select fun r => isLiveBoot pr r && kept ≠ some r.id).length

/-! ## Correction dispatches -/

structure DispatchInvalidation where
  head : Option Text
  cycle : Option Text
  reason : String
  successor : Option (Text × Text) := none

def isDispatchOf (pr : PullRequestInput) (headSha headCycleId : Text) (d : CorrectionDispatchRow) :
    Bool :=
  d.workspaceId = pr.workspaceId && d.recordId = pr.recordId && d.headSha = headSha &&
    d.headCycleId = headCycleId

def Store.updateDispatch (s : Store) (p : CorrectionDispatchRow → Bool)
    (f : CorrectionDispatchRow → CorrectionDispatchRow) : Store :=
  { s with dispatches := s.dispatches.map fun d => if p d then f d else d }

def dispatchEvent (pr : PullRequestInput) (key : Text) (payload : DispatchPayload) :
    AppendChangeRecordEventInput where
  recordId := pr.recordId
  eventKey := "acceptance-correction-dispatch:".toList ++ key
  stage := "builder_handoff".toList
  actor := "server:dispatch-preparation".toList
  payloadRef := .dispatch payload

def invalidationReplayed : Text :=
  "Correction dispatch invalidation event unexpectedly replayed before its row update".toList

/-- The dispatch of a head that is left is invalidated; one that was is told its successor. -/
def invalidateAcceptanceCorrectionDispatchForHead (host : Host) (pr : PullRequestInput)
    (input : DispatchInvalidation) (s : Store) : Except Text Store :=
  match input.head, input.cycle with
  | some headSha, some headCycleId =>
    if headSha = [] ∨ headCycleId = [] then .ok s
    else
      let ofHead := isDispatchOf pr headSha headCycleId
      match s.dispatches.find? fun d => ofHead d && d.invalidatedAt = none with
      | none =>
        match input.successor with
        | none => .ok s
        | some (successorHeadSha, successorHeadCycleId) =>
          match s.dispatches.find? ofHead with
          | none => .ok s
          | some tombstone =>
            if tombstone.invalidatedAt = none then .ok s
            else do
              let (_, s) ← appendProvenEvent host (dispatchEvent pr
                ("successor:".toList ++ headCycleId ++ ":".toList ++ successorHeadCycleId)
                { dispatchId := tombstone.id
                  dispatchIdentitySha256 := tombstone.dispatchIdentitySha256
                  reason := tombstone.invalidationReason
                  head := none
                  successor := input.successor }) s
              .ok (s.updateDispatch
                (fun d => d.id = tombstone.id && d.successorHeadSha = none &&
                  d.successorHeadCycleId = none)
                fun d => { d with successorHeadSha := some successorHeadSha,
                                  successorHeadCycleId := some successorHeadCycleId })
      | some active => do
        let (event, s) ← appendProvenEvent host (dispatchEvent pr
          ("invalidated:".toList ++ headCycleId)
          { dispatchId := active.id
            dispatchIdentitySha256 := active.dispatchIdentitySha256
            reason := some input.reason.toList
            head := some (headSha, headCycleId)
            successor := input.successor }) s
        if event.inserted then
          .ok (s.updateDispatch (fun d => d.id = active.id && d.invalidatedAt = none)
            fun d => { d with invalidatedAt := some s.now,
                              invalidationReason := some input.reason.toList,
                              successorHeadSha := input.successor.map Prod.fst,
                              successorHeadCycleId := input.successor.map Prod.snd })
        else .error invalidationReplayed
  | _, _ => .ok s

/-! ## Keys -/

section
variable (prNumber : Nat)

def externalPrKey (kind : String) (prNumber : Nat) (name : Text) : Text :=
  "external-pr:".toList ++ kind.toList ++ ":".toList ++ decimal prNumber ++ ":".toList ++ name

def deliveryEventKey (deliveryId : Text) : Text := externalPrKey "delivery" prNumber deliveryId

def heldEventKey (deliveryId : Text) : Text :=
  externalPrKey "head-transition-held" prNumber deliveryId

def terminalEventKey (deliveryId : Text) : Text :=
  externalPrKey "head-invalidated" prNumber deliveryId

def advancedEventKey (wasAttached : Bool) (cycleId : Text) : Text :=
  externalPrKey (if wasAttached then "head-advanced" else "attached") prNumber cycleId

def reconciliationEventKey (cycleId : Text) : Text :=
  externalPrKey "head-reconciled" prNumber cycleId

def closedEventKey (cycleId : Text) : Text :=
  externalPrKey "head-reconciliation-closed" prNumber cycleId

end

def externalPrEvent (pr : PullRequestInput) (key actor : Text) (payload : Payload) :
    AppendChangeRecordEventInput where
  recordId := pr.recordId
  eventKey := key
  stage := "external_pr".toList
  actor := actor
  payloadRef := payload

def GITHUB_WEBHOOK : Text := "github_webhook".toList

def GITHUB_APP_API : Text := "github_app_api".toList

/-! ## Attach -/

inductive AttachResult where
  | attached (record : ChangeRecordRow) (inserted : Bool)
  | refused (refusal : Refusal)
  deriving DecidableEq, Repr

/-- `INSERT … ON CONFLICT DO NOTHING`: any conflict inserts nothing. -/
def insertEvent (host : Host) (input : AppendChangeRecordEventInput) (s : Store) : Bool × Store :=
  let event := newEvent host input s.now
  if (s.eventOf input.recordId input.eventKey).isSome || s.events.any fun e => e.id = event.id then
    (false, s)
  else (true, { s with events := s.events ++ [event] })

def attachEvent (input : AttachInput) (version : Nat) : AppendChangeRecordEventInput :=
  externalPrEvent input.toPullRequestInput (externalPrKey "attached" input.prNumber input.headSha)
    input.source.name (.attachment
      { repo := input.repo
        prNumber := input.prNumber
        headSha := input.headSha
        prUrl := input.prUrl
        acceptanceContractVersion := version })

def attachedRow (input : AttachInput) (r : ChangeRecordRow) : ChangeRecordRow :=
  { r with prNumber := some input.prNumber
           headShas := normalizeHeadShas (r.headShas ++ [input.headSha]) }

def attachConfirmedAcceptanceRecordToExternalPullRequest (host : Host) (input : AttachInput)
    (s : Store) : Except Text (AttachResult × Store) :=
  if !input.valid then
    .error ("External pull request attachment requires a positive PR number and git head " ++
      "SHA").toList
  else match s.confirmedRecord input.toPullRequestInput with
  | .error refusal => .ok (.refused refusal, s)
  | .ok (record, version) =>
    if s.isAttachedElsewhere input.toPullRequestInput record then
      .ok (.refused .alreadyAttached, s)
    else if record.currentPrHeadSha.any fun head =>
        !record.currentPrHeadAuthoritative || head ≠ input.headSha then
      .ok (.refused .headAdvanceRequired, s)
    else if record.prNumber.isSome && input.headSha ∉ record.headShas then
      .ok (.refused .headAdvanceRequired, s)
    else
      let (attached, s) :=
        if record.prNumber = none then
          (attachedRow input record, s.updateRecord record.id (attachedRow input))
        else (record, s)
      let (inserted, s) := insertEvent host (attachEvent input version) s
      .ok (.attached attached inserted, s)

/-! ## Advance -/

inductive AdvanceResult where
  | advanced (record : ChangeRecordRow) (jobId : Text) (jobAdmitted deduped : Bool)
      (superseded previewBootsTornDown : Nat) (previousHeadSha : Option Text) (headChanged : Bool)
  | staleDelivery (provenanceEventId blockedHeadSha : Text) (blockedCycleId : Option Text)
      (authorityGeneration : Nat) (replayed : Bool) (superseded previewBootsTornDown : Nat)
  | deliveryReplayed (currentHeadSha currentHeadCycleId : Option Text)
      (currentAuthoritative : Bool) (authorityGeneration : Nat)
  | refused (refusal : Refusal)
  deriving DecidableEq, Repr

section
variable (host : Host) (input : AdvanceInput)

def deliveryEvent : AppendChangeRecordEventInput :=
  externalPrEvent input.toPullRequestInput (deliveryEventKey input.prNumber input.deliveryId)
    GITHUB_WEBHOOK (.delivery
      { repo := input.repo
        prNumber := input.prNumber
        headSha := input.headSha
        event := input.event.name
        deliveryId := input.deliveryId
        headTransition := input.headTransition
        admitReviewJob := input.admitReviewJob
        prUrl := input.prUrl })

/-- The hold that the delivery has caused, if it is the last thing that has happened. -/
def heldReceipt (record : ChangeRecordRow) (version : Nat) (s : Store) :
    Option (ChangeRecordEventRow × HeldPayload) :=
  match s.eventOf input.recordId (heldEventKey input.prNumber input.deliveryId) with
  | none => none
  | some held =>
    match held.payloadRef with
    | .held p =>
      if held.stage = "external_pr".toList ∧ held.actor = GITHUB_WEBHOOK ∧
          p.observedHeadSha = input.headSha ∧ p.event = input.event.name ∧
          p.deliveryId = input.deliveryId ∧ p.headTransition = input.headTransition ∧
          p.acceptanceContractVersion = version ∧
          p.authorityGenerationAfter = p.authorityGenerationBefore + 1 ∧
          p.currentHeadSha ≠ [] ∧ record.currentPrHeadAuthoritative = false ∧
          record.currentPrHeadSha = some p.currentHeadSha ∧
          record.currentPrHeadCycleId = p.currentHeadCycleId ∧
          record.currentPrHeadAuthorityGeneration = p.authorityGenerationAfter then
        some (held, p)
      else none
    | _ => none

def replayedAdvance (record : ChangeRecordRow) (version : Nat) (s : Store) : AdvanceResult :=
  match heldReceipt input record version s with
  | some (held, p) =>
    .staleDelivery held.id p.currentHeadSha p.currentHeadCycleId p.authorityGenerationAfter true
      0 0
  | none =>
    .deliveryReplayed record.currentPrHeadSha record.currentPrHeadCycleId
      record.currentPrHeadAuthoritative record.currentPrHeadAuthorityGeneration

/-- The delivery does not follow from the current head `previous`. -/
def isHeld (record : ChangeRecordRow) (previous : Text) : Bool :=
  !record.currentPrHeadAuthoritative ||
    if previous = input.headSha then
      input.event ≠ .readyForReview &&
        record.currentPrHeadCycleId ≠ some (acceptanceRecordPullRequestHeadCycleId host input)
    else
      input.event ≠ .synchronize ||
        input.headTransition.all fun t => t.beforeHeadSha ≠ previous

def heldEvent (record : ChangeRecordRow) (previous : Text) (version : Nat) :
    AppendChangeRecordEventInput :=
  externalPrEvent input.toPullRequestInput (heldEventKey input.prNumber input.deliveryId)
    GITHUB_WEBHOOK (.held
      { currentHeadSha := previous
        currentHeadCycleId := record.currentPrHeadCycleId
        authorityGenerationBefore := record.currentPrHeadAuthorityGeneration
        authorityGenerationAfter := record.currentPrHeadAuthorityGeneration + 1
        observedHeadSha := input.headSha
        event := input.event.name
        deliveryId := input.deliveryId
        headTransition := input.headTransition
        acceptanceContractVersion := version })

end

/-- The authority is taken away. -/
def blockedRow (r : ChangeRecordRow) : ChangeRecordRow :=
  { r with currentPrHeadAuthoritative := false
           currentPrHeadAuthorityGeneration := r.currentPrHeadAuthorityGeneration + 1 }

/-- The authority is taken away and the work for the head ends. -/
def Store.block (s : Store) (host : Host) (pr : PullRequestInput) (record : ChangeRecordRow)
    (tearDownReason reason : String) : Except Text Store :=
  let s := s.updateRecord record.id blockedRow
  let s := (s.supersedeJobs pr none).tearDownBoots pr none tearDownReason
  invalidateAcceptanceCorrectionDispatchForHead host pr
    { head := record.currentPrHeadSha, cycle := record.currentPrHeadCycleId, reason := reason } s

def holdAdvance (host : Host) (input : AdvanceInput) (record : ChangeRecordRow) (previous : Text)
    (version : Nat) (s : Store) : Except Text (AdvanceResult × Store) := do
  let pr := input.toPullRequestInput
  let (held, s) ← appendProvenEvent host (heldEvent input record previous version) s
  let result := fun n superseded tornDown => AdvanceResult.staleDelivery held.event.id previous
    record.currentPrHeadCycleId n false superseded tornDown
  if held.inserted then
    let s' ← s.block host pr record "acceptance record head transition held" "authority_blocked"
    .ok (result (record.currentPrHeadAuthorityGeneration + 1) (s.countSuperseded pr none)
      (s.countTornDown pr none), s')
  else .ok (result record.currentPrHeadAuthorityGeneration 0 0, s)

section
variable (host : Host) (input : AdvanceInput)

def advancedEvent (record : ChangeRecordRow) (cycleId : Text) (version : Nat) :
    AppendChangeRecordEventInput :=
  externalPrEvent input.toPullRequestInput
    (advancedEventKey input.prNumber record.prNumber.isSome cycleId) GITHUB_WEBHOOK (.advanced
      { wasAttached := record.prNumber.isSome
        repo := input.repo
        prNumber := input.prNumber
        previousHeadSha := record.currentPrHeadSha
        headSha := input.headSha
        headCycleId := cycleId
        event := input.event.name
        deliveryId := input.deliveryId
        headTransition := input.headTransition
        prUrl := input.prUrl
        acceptanceContractVersion := version })

def advancedRow (cycleId : Text) (inserted : Bool) (r : ChangeRecordRow) : ChangeRecordRow :=
  { r with
    prNumber := some input.prNumber
    currentPrHeadSha := some input.headSha
    currentPrHeadCycleId := some cycleId
    currentPrHeadAuthoritative := true
    currentPrHeadAuthorityGeneration :=
      r.currentPrHeadAuthorityGeneration + if inserted then 1 else 0
    headShas := normalizeHeadShas (r.headShas ++ [input.headSha]) }

/-- The review job of a cycle. -/
def cycleJob (pr : PullRequestInput) (cycleId headSha event : Text) (nextEligibleAt : Option Int)
    (now : Int) : Review.ReviewJobRow where
  id := cycleId
  workspaceId := pr.workspaceId
  repo := pr.repo
  prNumber := pr.prNumber
  headSha := headSha
  event := event
  nextEligibleAt := nextEligibleAt
  createdAt := now
  updatedAt := now

/-- `INSERT … ON CONFLICT (id) DO NOTHING`. -/
def Store.insertJob (s : Store) (job : Review.ReviewJobRow) : Bool × Store :=
  match s.jobs.insert job with
  | none => (false, s)
  | some jobs => (true, { s with jobs := jobs })

/-- The record after the delivery, and the store with the provenance of a change. -/
def advanceRecord (record : ChangeRecordRow) (cycleId : Text) (version : Nat) (s : Store) :
    Except Text (ChangeRecordRow × Store) :=
  if record.currentPrHeadSha = some input.headSha ∧ record.prNumber.isSome then .ok (record, s)
  else do
    let (provenance, s) ← appendProvenEvent host (advancedEvent input record cycleId version) s
    .ok (advancedRow input cycleId provenance.inserted record,
      s.updateRecord record.id (advancedRow input cycleId provenance.inserted))

/-- Whether a job was inserted for the cycle. -/
def admitJob (cycleId : Text) (s : Store) : Bool × Store :=
  if input.admitReviewJob then
    let nextEligibleAt :=
      if input.event = .synchronize then some (s.now + Review.SYNCHRONIZE_DEBOUNCE) else none
    s.insertJob (cycleJob input.toPullRequestInput cycleId input.headSha input.event.name
      nextEligibleAt s.now)
  else (false, s)

/-- The work for other cycles ends. -/
def endOtherCycles (record : ChangeRecordRow) (cycleId : Text) (headChanged jobInserted : Bool)
    (s : Store) : Except Text Store :=
  let pr := input.toPullRequestInput
  let s := if headChanged || jobInserted then s.supersedeJobs pr (some cycleId) else s
  if headChanged then
    invalidateAcceptanceCorrectionDispatchForHead host pr
      { head := record.currentPrHeadSha, cycle := record.currentPrHeadCycleId,
        reason := "head_advanced", successor := some (input.headSha, cycleId) }
      (s.tearDownBoots pr none "acceptance record head advanced")
  else .ok s

def promoteHead (record : ChangeRecordRow) (version : Nat) (s : Store) :
    Except Text (AdvanceResult × Store) := do
  let pr := input.toPullRequestInput
  let headChanged : Bool := record.currentPrHeadSha ≠ some input.headSha
  let observed := acceptanceRecordPullRequestHeadCycleId host input
  let some cycleId := if headChanged then some observed else record.currentPrHeadCycleId
    | .error "Authoritative PR head is missing its current cycle".toList
  let (advanced, s) ← advanceRecord host input record cycleId version s
  let (jobInserted, s) := admitJob input cycleId s
  let superseded := if headChanged || jobInserted then s.countSuperseded pr (some cycleId) else 0
  let tornDown := if headChanged then s.countTornDown pr none else 0
  let deduped := !(headChanged || record.prNumber = none || jobInserted) &&
    (!input.admitReviewJob || !jobInserted)
  let s ← endOtherCycles host input record cycleId headChanged jobInserted s
  .ok (.advanced advanced cycleId input.admitReviewJob deduped superseded tornDown
    record.currentPrHeadSha headChanged, s)

def advanceConfirmedAcceptanceRecordPullRequestHead (s : Store) :
    Except Text (AdvanceResult × Store) :=
  let pr := input.toPullRequestInput
  if !input.valid then .error "PR head advance requires bounded exact PR provenance".toList
  else match s.confirmedRecord pr with
  | .error refusal => .ok (.refused refusal, s)
  | .ok (record, version) =>
    if s.isAttachedElsewhere pr record then .ok (.refused .alreadyAttached, s)
    else do
      let (receipt, s) ← appendProvenEvent host (deliveryEvent input) s
      if !receipt.inserted then .ok (replayedAdvance input record version s, s)
      else match record.currentPrHeadSha with
        | some previous =>
          if isHeld host input record previous then
            holdAdvance host input record previous version s
          else promoteHead host input record version s
        | none => promoteHead host input record version s

end

/-! ## Closed and merged pull requests -/

inductive InvalidateResult where
  | invalidated (inserted : Bool) (provenanceEventId : Text)
      (superseded previewBootsTornDown : Nat) (currentHeadSha currentHeadCycleId : Option Text)
      (authorityGeneration : Nat) (currentAuthoritative : Bool)
  | refused (refusal : Refusal)
  deriving DecidableEq, Repr

section
variable (host : Host) (input : InvalidateInput)

def terminalDeliveryEvent : AppendChangeRecordEventInput :=
  externalPrEvent input.toPullRequestInput (deliveryEventKey input.prNumber input.deliveryId)
    GITHUB_WEBHOOK (.delivery
      { repo := input.repo
        prNumber := input.prNumber
        headSha := input.headSha
        event := input.event.name
        deliveryId := input.deliveryId
        headTransition := none
        admitReviewJob := false
        prUrl := none })

def terminalEvent (record : ChangeRecordRow) (version : Nat) : AppendChangeRecordEventInput :=
  externalPrEvent input.toPullRequestInput (terminalEventKey input.prNumber input.deliveryId)
    GITHUB_WEBHOOK (.terminal
      { repo := input.repo
        prNumber := input.prNumber
        currentHeadSha := record.currentPrHeadSha
        currentHeadCycleId := record.currentPrHeadCycleId
        observedHeadSha := input.headSha
        event := input.event.name
        deliveryId := input.deliveryId
        acceptanceContractVersion := version })

def alreadyInvalidated (record : ChangeRecordRow) (eventId : Text) : InvalidateResult :=
  .invalidated false eventId 0 0 record.currentPrHeadSha record.currentPrHeadCycleId
    record.currentPrHeadAuthorityGeneration record.currentPrHeadAuthoritative

def invalidateHead (record : ChangeRecordRow) (version : Nat) (s : Store) :
    Except Text (InvalidateResult × Store) := do
  let pr := input.toPullRequestInput
  let (provenance, s) ← appendProvenEvent host (terminalEvent input record version) s
  let result := fun n superseded tornDown => InvalidateResult.invalidated provenance.inserted
    provenance.event.id superseded tornDown record.currentPrHeadSha record.currentPrHeadCycleId n
    false
  if provenance.inserted then
    let s' ← s.block host pr record "acceptance record PR closed or merged" "terminal"
    .ok (result (record.currentPrHeadAuthorityGeneration + 1) (s.countSuperseded pr none)
      (s.countTornDown pr none), s')
  else .ok (result record.currentPrHeadAuthorityGeneration 0 0, s)

def invalidateConfirmedAcceptanceRecordPullRequestHeadForTerminalEvent (s : Store) :
    Except Text (InvalidateResult × Store) :=
  let pr := input.toPullRequestInput
  if !input.valid then
    .error "Terminal PR head invalidation requires bounded exact GitHub provenance".toList
  else match s.confirmedRecord pr with
  | .error refusal => .ok (.refused refusal, s)
  | .ok (record, version) =>
    if record.prNumber ≠ some input.prNumber then .ok (.refused .notAttached, s)
    else do
      let (receipt, s) ← appendProvenEvent host (terminalDeliveryEvent input) s
      if !receipt.inserted then .ok (alreadyInvalidated record receipt.event.id, s)
      else match s.eventOf input.recordId (terminalEventKey input.prNumber input.deliveryId) with
        | some existingTerminal => .ok (alreadyInvalidated record existingTerminal.id, s)
        | none => invalidateHead host input record version s

end

/-! ## Reconciliation -/

inductive ReconcileResult where
  | reconciled (record : ChangeRecordRow) (jobId : Option Text) (jobAdmitted : Bool)
      (currentHeadCycleId : Text) (authorityGeneration : Nat)
      (superseded previewBootsTornDown : Nat)
  | alreadyCurrent (record : ChangeRecordRow) (jobId : Option Text)
      (currentHeadCycleId : Text) (authorityGeneration : Nat)
  | closed (currentHeadSha currentHeadCycleId : Option Text) (currentAuthoritative : Bool)
      (authorityGeneration : Nat) (superseded previewBootsTornDown : Nat)
  | blockedPreconditionChanged (currentHeadSha currentHeadCycleId : Option Text)
      (currentAuthoritative : Bool) (authorityGeneration : Nat)
  | refused (refusal : Refusal)
  deriving DecidableEq, Repr

section
variable (host : Host) (input : ReconcileInput)

def ReconcileInput.observedOpen : Bool :=
  input.observedState = .open && !input.observedMerged

def reconciliationPayload (version : Nat) : ReconciliationPayload where
  repo := input.repo
  prNumber := input.prNumber
  expectedBlockedHeadSha := input.expectedBlockedHeadSha
  expectedBlockedCycleId := input.expectedBlockedCycleId
  expectedBlockedAuthorityGeneration := input.expectedBlockedAuthorityGeneration
  observedHeadSha := input.observedHeadSha
  observedBaseSha := input.observedBaseSha
  observedState := input.observedState.name
  observedDraft := input.observedDraft
  observedMerged := input.observedMerged
  headCycleId := acceptanceRecordPullRequestReconciliationCycleId host input
  acceptanceContractVersion := version

def reconciledEvent (version : Nat) : AppendChangeRecordEventInput :=
  externalPrEvent input.toPullRequestInput (reconciliationEventKey input.prNumber
    (acceptanceRecordPullRequestReconciliationCycleId host input)) GITHUB_APP_API
    (.reconciled (reconciliationPayload host input version))

def closedEvent (version : Nat) : AppendChangeRecordEventInput :=
  externalPrEvent input.toPullRequestInput (closedEventKey input.prNumber
    (acceptanceRecordPullRequestReconciliationCycleId host input)) GITHUB_APP_API
    (.closed (reconciliationPayload host input version))

def preconditionChanged (record : ChangeRecordRow) : ReconcileResult :=
  .blockedPreconditionChanged record.currentPrHeadSha record.currentPrHeadCycleId
    record.currentPrHeadAuthoritative record.currentPrHeadAuthorityGeneration

/-- The event of an earlier call is there and says the same. -/
def isRecorded (expected : AppendChangeRecordEventInput) (s : Store) : Bool :=
  (s.eventOf expected.recordId expected.eventKey).any fun event =>
    event.stage = expected.stage && event.actor = expected.actor &&
      event.payloadRef = expected.payloadRef

/-- The record is as this reconciliation has left it before. -/
def isReconciled (record : ChangeRecordRow) : Bool :=
  record.currentPrHeadAuthoritative && record.currentPrHeadSha = some input.observedHeadSha &&
    record.currentPrHeadCycleId =
      some (acceptanceRecordPullRequestReconciliationCycleId host input) &&
    record.currentPrHeadAuthorityGeneration = input.expectedBlockedAuthorityGeneration + 1

/-- The blocked tuple that the caller has seen, at this generation. -/
def isBlockedAt (record : ChangeRecordRow) (generation : Nat) : Bool :=
  !record.currentPrHeadAuthoritative &&
    record.currentPrHeadSha = some input.expectedBlockedHeadSha &&
    record.currentPrHeadCycleId = some input.expectedBlockedCycleId &&
    record.currentPrHeadAuthorityGeneration = generation

/-- The answer to a call that has had its effect before. -/
def repeatedReconcile (record : ChangeRecordRow) (version : Nat) (s : Store) : ReconcileResult :=
  let cycleId := acceptanceRecordPullRequestReconciliationCycleId host input
  let job := s.jobs.rows.find? fun r => r.id = cycleId && r.workspaceId = input.workspaceId &&
    r.repo = input.repo && r.prNumber = input.prNumber
  let jobMatches :=
    if input.observedDraft then
      job.all fun r => r.headSha = input.observedHeadSha && r.event = HeadEvent.readyForReview.name
    else job.any fun r => r.headSha = input.observedHeadSha && r.event = "reconciled".toList
  if isRecorded (reconciledEvent host input version) s && jobMatches then
    .alreadyCurrent record (job.map Review.ReviewJobRow.id) cycleId
      record.currentPrHeadAuthorityGeneration
  else preconditionChanged record

def closeReconcile (record : ChangeRecordRow) (version : Nat) (s : Store) :
    Except Text (ReconcileResult × Store) := do
  let pr := input.toPullRequestInput
  let (receipt, s) ← appendProvenEvent host (closedEvent host input version) s
  if !receipt.inserted then
    .error "Closed reconciliation provenance insertion unexpectedly replayed".toList
  else
    let s' ← s.block host pr record "acceptance record reconciliation observed closed PR"
      "authority_blocked"
    .ok (.closed record.currentPrHeadSha record.currentPrHeadCycleId false
      (record.currentPrHeadAuthorityGeneration + 1) (s.countSuperseded pr none)
      (s.countTornDown pr none), s')

def reconciledRow (cycleId : Text) (r : ChangeRecordRow) : ChangeRecordRow :=
  { r with
    currentPrHeadSha := some input.observedHeadSha
    currentPrHeadCycleId := some cycleId
    currentPrHeadAuthoritative := true
    currentPrHeadAuthorityGeneration := r.currentPrHeadAuthorityGeneration + 1
    headShas := normalizeHeadShas (r.headShas ++ [input.observedHeadSha]) }

/-- The job of the reconciled head, unless the pull request is a draft. -/
def admitReconciled (cycleId : Text) (s : Store) : Except Text (Bool × Store) :=
  if input.observedDraft then .ok (false, s)
  else
    match s.insertJob (cycleJob input.toPullRequestInput cycleId input.observedHeadSha
      "reconciled".toList none s.now) with
    | (true, s) => .ok (true, s)
    | (false, _) =>
      .error "Current-head reconciliation review job unexpectedly replayed".toList

def openReconcile (record : ChangeRecordRow) (version : Nat) (s : Store) :
    Except Text (ReconcileResult × Store) :=
  let pr := input.toPullRequestInput
  let cycleId := acceptanceRecordPullRequestReconciliationCycleId host input
  if (s.eventOf input.recordId (reconciliationEventKey input.prNumber cycleId)).isSome then
    .ok (preconditionChanged record, s)
  else do
    let (provenance, s) ← appendProvenEvent host (reconciledEvent host input version) s
    if !provenance.inserted then
      .error "Current-head reconciliation provenance insertion unexpectedly replayed".toList
    let s := s.updateRecord record.id (reconciledRow input cycleId)
    let (jobAdmitted, s) ← admitReconciled input cycleId s
    let superseded := s.countSuperseded pr (some cycleId)
    let tornDown := s.countTornDown pr none
    let s := (s.supersedeJobs pr (some cycleId)).tearDownBoots pr none
      "acceptance record head reconciled"
    let s ← invalidateAcceptanceCorrectionDispatchForHead host pr
      { head := some input.expectedBlockedHeadSha, cycle := some input.expectedBlockedCycleId,
        reason := "reconciled", successor := some (input.observedHeadSha, cycleId) } s
    .ok (.reconciled (reconciledRow input cycleId record)
      (if input.observedDraft then none else some cycleId) jobAdmitted cycleId
      (record.currentPrHeadAuthorityGeneration + 1) superseded tornDown, s)

def reconcileConfirmedAcceptanceRecordPullRequestHead (s : Store) :
    Except Text (ReconcileResult × Store) :=
  let pr := input.toPullRequestInput
  if !input.valid then
    .error ("GitHub current-head reconciliation requires bounded exact authenticated " ++
      "provenance").toList
  else match s.confirmedRecord pr with
  | .error refusal => .ok (.refused refusal, s)
  | .ok (record, version) =>
    if record.prNumber ≠ some input.prNumber then .ok (.refused .notAttached, s)
    else if input.observedOpen && isReconciled host input record then
      .ok (repeatedReconcile host input record version s, s)
    else if !input.observedOpen && isRecorded (closedEvent host input version) s &&
        isBlockedAt input record (input.expectedBlockedAuthorityGeneration + 1) then
      .ok (.closed record.currentPrHeadSha record.currentPrHeadCycleId
        record.currentPrHeadAuthoritative record.currentPrHeadAuthorityGeneration 0 0, s)
    else if !isBlockedAt input record input.expectedBlockedAuthorityGeneration then
      .ok (preconditionChanged record, s)
    else if !input.observedOpen then closeReconcile host input record version s
    else openReconcile host input record version s

end

/-! ## Work for the current head -/

def RECORD_NOT_CURRENT : Text :=
  "Acceptance Record tuple is not the current PR head".toList

def JOB_NOT_RUNNING : Text :=
  "Acceptance Record tuple does not own a running review job".toList

/-- The job of the current head of a record. -/
structure CurrentJobInput extends PullRequestInput where
  jobId : Text
  headSha : Text
  deriving DecidableEq, Repr

def isCurrentOf (input : CurrentJobInput) (r : ChangeRecordRow) : Bool :=
  r.workspaceId = input.workspaceId && r.id = input.recordId && r.repo = input.repo &&
    r.prNumber = some input.prNumber && r.currentPrHeadAuthoritative &&
    r.currentPrHeadSha = some input.headSha && r.currentPrHeadCycleId = some input.jobId

def isRunningJobOf (input : CurrentJobInput) (r : Review.ReviewJobRow) : Bool :=
  r.id = input.jobId && r.workspaceId = input.workspaceId && r.repo = input.repo &&
    r.prNumber = input.prNumber && r.headSha = input.headSha && r.state = .running

/-- The job runs and its cycle is the current one. -/
def requireCurrent (input : CurrentJobInput) (s : Store) : Except Text Unit :=
  if !s.records.any (isCurrentOf input) then .error RECORD_NOT_CURRENT
  else if !s.jobs.rows.any (isRunningJobOf input) then .error JOB_NOT_RUNNING
  else .ok ()

def appendCurrentReviewJobEventsAtomically (host : Host) (input : CurrentJobInput)
    (events : List AppendChangeRecordEventInput) (s : Store) :
    Except Text (List AppendChangeRecordEventResult × Store) := do
  if input.prNumber = 0 ∨ !isExactGithubHeadSha input.headSha ∨ events = [] then
    .error "Current review job append requires one exact-head event batch".toList
  if ¬ (events.map AppendChangeRecordEventInput.eventKey).Nodup then
    .error "Current review job append does not allow duplicate eventKeys".toList
  requireCurrent input s
  appendChangeRecordEventsAtomicallyInTransaction host
    (events.map fun e => { e with recordId := input.recordId }) s

structure EnqueuePreviewBootResult where
  id : Text
  deduped : Bool
  superseded : Nat
  deriving DecidableEq, Repr

def Host.boots (host : Host) : Preview.Host := ⟨host.uuid5Url, host.hashtext⟩

/-- The boot of a cycle. -/
def cycleBoot (host : Host) (input : CurrentJobInput) (ref : Text) (now : Int) :
    Preview.PreviewBootRow where
  id := Preview.previewBootId host.boots input.workspaceId input.repo input.prNumber input.headSha
    input.jobId
  workspaceId := input.workspaceId
  repo := input.repo
  prNumber := input.prNumber
  headSha := input.headSha
  ref := ref
  createdAt := now
  updatedAt := now

def Store.insertBoot (s : Store) (boot : Preview.PreviewBootRow) : Bool × Store :=
  match s.boots.insert boot with
  | none => (false, s)
  | some boots => (true, { s with boots := boots })

def enqueueCurrentReviewJobPreviewBoot (host : Host) (input : CurrentJobInput) (ref : Text)
    (s : Store) : Except Text (EnqueuePreviewBootResult × Store) := do
  let pullRef := "refs/pull/".toList ++ decimal input.prNumber ++ "/head".toList
  if input.prNumber = 0 ∨ !isUuid input.workspaceId ∨ !isUuid input.recordId ∨
      !isUuid input.jobId ∨ !isExactGithubHeadSha input.headSha ∨
      (ref ≠ input.headSha ∧ ref ≠ pullRef) then
    .error "Current review preview boot requires one exact PR ref".toList
  requireCurrent input s
  let boot := cycleBoot host input ref s.now
  let (inserted, s) := s.insertBoot boot
  if !(s.boots.rows.find? fun r => r.id = boot.id).any fun r =>
      r.workspaceId = boot.workspaceId && r.repo = boot.repo && r.prNumber = boot.prNumber &&
        r.headSha = boot.headSha && r.ref = boot.ref then
    .error "Current review preview boot id is bound to different provenance".toList
  let pr := input.toPullRequestInput
  .ok (⟨boot.id, !inserted, s.countTornDown pr (some boot.id)⟩,
    s.tearDownBoots pr (some boot.id) "superseded by current Acceptance Record cycle")

end Agentrail.Records
