import Agentrail.Queue.Statements

/-!
# The intake of issues (`github_intake.ts`)

Each function is a program over `Stmt`: its awaits are the places where other
functions may run.  `enqueueGithubIssue` and `enqueueLinearIssue` admit,
`unparkDependents` wakes the dependents of a finished entry, the alignment
functions carry the human answer to a brief.
-/

namespace Agentrail.Queue

open Js IntakeGate Interleaving

/-! ## Blockers -/

/-- The declared blockers that no green row is about. -/
def unmetAmong (blockedBy : List Nat) (greenRows : List Text) : List Nat :=
  let greenNumbers := greenRows.map fun externalId => number (lastPart '#' externalId)
  blockedBy.filter fun n => !greenNumbers.contains (some n)

/-- The declared blockers without a green entry in the repository. -/
def unmetBlockers (workspaceId repoFullName : Text) (blockedBy : List Nat) :
    Prog Stmt (List Nat) :=
  if blockedBy.length = 0 then pure []
  else do
    let greenRows ← .stmt (.greenAmong workspaceId
      (blockedBy.map fun n => repoFullName ++ '#' :: decimal n))
    pure (unmetAmong blockedBy greenRows)

/-- Defaults to `true` for a workspace that is missing. -/
def workspaceRequiresAlignment (workspaceId : Text) : Prog Stmt Bool := do
  let rows ← .stmt (.alignmentFlag workspaceId)
  pure (rows.getD true)

/-- The check before a release, on the row as it was read. -/
def isAligned (entry : QueueEntry) (requireAlignment : Bool) : Bool :=
  entry.kind ≠ "issue".toList || entry.estimatedBudgetUsd.isSome || !requireAlignment

/-- The body of the loop of `unparkDependents`: the external id if the row is released. -/
def unparkEntry (workspaceId repoFullName : Text) (requireAlignment : Bool) (entry : QueueEntry) :
    Prog Stmt (List Text) :=
  if entry.parkReason = some ALIGNMENT_DENIED_PARK_REASON then pure []
  else do
    let stillUnmet ← unmetBlockers workspaceId repoFullName entry.blockedBy
    if 0 < stillUnmet.length then pure []
    else if isAligned entry requireAlignment then do
      .stmt (.releaseParked workspaceId entry.externalId)
      pure [entry.externalId]
    else do
      .stmt (.restampParked workspaceId entry.externalId)
      pure []

def unparkEach (workspaceId repoFullName : Text) (requireAlignment : Bool) :
    List QueueEntry → Prog Stmt (List Text)
  | [] => pure []
  | entry :: parked => do
    let released ← unparkEntry workspaceId repoFullName requireAlignment entry
    let others ← unparkEach workspaceId repoFullName requireAlignment parked
    pure (released ++ others)

def unparkDependents (workspaceId completedExternalId : Text) : Prog Stmt (List Text) :=
  match splitLast '#' completedExternalId with
  | none => pure []
  | some (repoFullName, suffix) =>
    match number suffix with
    | none => pure []
    | some completedNumber => do
      let parked ← .stmt (.parkedDependents workspaceId completedNumber)
      if parked.length = 0 then pure []
      else do
        let requireAlignment ← workspaceRequiresAlignment workspaceId
        unparkEach workspaceId repoFullName requireAlignment parked

/-! ## The alignment gate -/

def githubIssueUrl (repoFullName : Text) (number : Nat) : Text :=
  "https://github.com/".toList ++ repoFullName ++ "/issues/".toList ++ decimal number

structure BriefValues where
  estimatedBudgetUsd : ℚ
  modelOverride : Text
  taskType : Option Text
  deriving DecidableEq, Repr

def extractBriefBudgetAndModel (toolInput : Json) : Option BriefValues :=
  match toolInput.get "_brief".toList with
  | none => none
  | some brief =>
    match brief.get "estimateUsd".toList with
    | some (.num estimateUsd) =>
      match (brief.get "suggestedModel".toList).bind (Json.get "slug".toList) with
      | some (.str slug) =>
        if slug.length = 0 then none
        else
          let taskType := match brief.get "taskType".toList with
            | some (.str taskType) => if 0 < taskType.length then some taskType else none
            | _ => none
          some ⟨estimateUsd, slug, taskType⟩
      | _ => none
    | _ => none

def confirmAlignmentBrief (input : Confirmation) : Prog Stmt Bool := .stmt (.confirm input)

def denyAlignmentBrief (queueEntryId : Text) : Prog Stmt Bool := .stmt (.deny queueEntryId)

inductive ReviseResult where
  | ok
  | notFound
  | notDenied
  deriving DecidableEq, Repr

def reviseAlignmentBrief (input : Revision) : Prog Stmt ReviseResult := do
  let row ← .stmt (.findById input.queueEntryId)
  match row with
  | none => pure .notFound
  | some row =>
    if row.state ≠ .parked ∨ row.parkReason ≠ some ALIGNMENT_DENIED_PARK_REASON then
      pure .notDenied
    else do
      let updated ← .stmt (.revise input)
      pure (if updated then .ok else .notDenied)

inductive RequeueResult where
  | requeued
  | notFound
  | notParked
  | alignmentLocked
  deriving DecidableEq, Repr

def requeueParkedQueueEntry (workspaceId id : Text) : Prog Stmt RequeueResult := do
  let row ← .stmt (.findInWorkspace id workspaceId)
  match row with
  | none => pure .notFound
  | some row =>
    if row.state = .queued then
      if row.nextEligibleAt = none then pure .notParked
      else do
        let cleared ← .stmt (.clearDelay id workspaceId)
        pure (if cleared then .requeued else .notParked)
    else if row.state ≠ .parked then pure .notParked
    else if row.parkReason = some ALIGNMENT_DENIED_PARK_REASON then pure .alignmentLocked
    else do
      let requireAlignment ← workspaceRequiresAlignment workspaceId
      if !isAligned row requireAlignment then do
        .stmt (.holdForAlignment id workspaceId)
        pure .alignmentLocked
      else do
        let result ← .stmt (.requeue id workspaceId requireAlignment)
        pure (if result then .requeued else .notParked)

/-! ## Admission -/

inductive EnqueueResult where
  | enqueued (id : Text) (state : QueueState) (blockedBy : List Nat) (reason : Option Text)
      (awaitingAlignment : Bool)
  | refused (reason : Text)
  deriving DecidableEq, Repr

/-- The variables `state`, `reason`, `parkReason` and `v2Parked` of an enqueue. -/
structure Hold where
  state : QueueState
  reason : Option Text := none
  parkReason : Option Text := none
  v2Parked : Bool := false
  deriving DecidableEq, Repr

/-- The guardrail part of both enqueues, off unless the flag is set; `inr` is a reject. -/
def guardrails (host : Host) (source : Source) (body : Text) (hold : Hold) :
    Prog Stmt (Hold ⊕ Text) :=
  if v2Enabled host then do
    let verdict ← .stmt (.screen body source)
    match verdict with
    | .reject reason _ => pure (.inr reason.toList)
    | .park reason _ => pure (.inl
        { hold with
          state := .parked, reason := some reason.toList, parkReason := some reason.toList,
          v2Parked := true })
    | .admitted _ => pure (.inl hold)
  else pure (.inl hold)

/-- No confirmed brief: a row that would be queued waits for one. -/
def awaitAlignment (hold : Hold) : Hold :=
  if hold.state = .queued then
    { hold with state := .parked, parkReason := some ALIGNMENT_PARK_REASON }
  else hold

structure GithubIssue where
  workspaceId : Text
  repoFullName : Text
  number : Nat
  title : Text
  body : Text
  deriving DecidableEq, Repr

structure LinearIssue where
  workspaceId : Text
  issueId : Text
  number : Nat
  title : Text
  body : Text
  deriving DecidableEq, Repr

def GithubIssue.externalId (data : GithubIssue) : Text :=
  data.repoFullName ++ '#' :: decimal data.number

/-- The alignment part of `enqueueGithubIssue`: the hold, the sanctioned values and whether a brief
is to be posted. -/
def alignGithub (requireAlignment : Bool) (matched : Option JaceApproval) (hold : Hold) :
    Hold × Option BriefValues × Bool :=
  if hold.v2Parked || !requireAlignment then (hold, none, false)
  else
    match matched with
    | some approval =>
      match extractBriefBudgetAndModel approval.toolInput with
      | some briefValues => (hold, some briefValues, false)
      | none => (hold, none, hold.state ≠ .queued)
    | none => (awaitAlignment hold, none, true)

/-- The row of `enqueueGithubIssue`. -/
def githubRow (host : Host) (data : GithubIssue) (hold : Hold) (brief : Option BriefValues) :
    QueueEntry where
  id := entryId host data.workspaceId .github data.externalId
  workspaceId := data.workspaceId
  source := .github
  externalId := data.externalId
  title := data.title
  body := data.body
  tier := 0
  remainingBudget := 5
  state := hold.state
  blockedBy := parseBlockedBy data.body
  parkReason := hold.parkReason
  estimatedBudgetUsd := brief.map BriefValues.estimatedBudgetUsd
  modelOverride := brief.map BriefValues.modelOverride
  taskType := brief.bind BriefValues.taskType

/-- How the dependency check leaves the entry. -/
def dependencyHold (unmet : List Nat) : Hold :=
  if 0 < unmet.length then { state := .parked, parkReason := some (formatWaitingOnReason unmet) }
  else { state := .queued }

/-- The flag as both enqueues read it: not for a row that a guardrail parked. -/
def alignmentGate (workspaceId : Text) (hold : Hold) : Prog Stmt Bool :=
  if hold.v2Parked then pure false else workspaceRequiresAlignment workspaceId

/-- `enqueueGithubIssue` after the guardrails. -/
def admitGithub (host : Host) (data : GithubIssue) (hold : Hold) : Prog Stmt EnqueueResult := do
  let matched ← .stmt (.approvedIssue data.workspaceId
    (githubIssueUrl data.repoFullName data.number))
  let requireAlignment ← alignmentGate data.workspaceId hold
  let (aligned, brief, parkedFor) := alignGithub requireAlignment matched hold
  let row := githubRow host data aligned brief
  let inserted ← .stmt (.insertEntry row hold.v2Parked matched.isSome)
  pure (if inserted then .enqueued row.id row.state row.blockedBy hold.reason parkedFor
    else .refused "already queued (deduped)".toList)

def enqueueGithubIssue (host : Host) (data : GithubIssue) : Prog Stmt EnqueueResult :=
  match validateAcceptanceCriteria data.body with
  | .rejected reason => pure (.refused reason.toList)
  | .ok _ => do
    let unmet ← unmetBlockers data.workspaceId data.repoFullName (parseBlockedBy data.body)
    let screened ← guardrails host .github data.body (dependencyHold unmet)
    match screened with
    | .inr reason => pure (.refused reason)
    | .inl hold => admitGithub host data hold

def linearRow (host : Host) (data : LinearIssue) (hold : Hold) : QueueEntry where
  id := entryId host data.workspaceId .linear (linearExternalId data.issueId data.number)
  workspaceId := data.workspaceId
  source := .linear
  externalId := linearExternalId data.issueId data.number
  title := data.title
  body := data.body
  tier := 0
  remainingBudget := 5
  state := hold.state
  blockedBy := []
  parkReason := hold.parkReason

/-- `enqueueLinearIssue` after the guardrails: no blockers, and always a fresh brief. -/
def admitLinear (host : Host) (data : LinearIssue) (hold : Hold) : Prog Stmt EnqueueResult := do
  let requireAlignment ← alignmentGate data.workspaceId hold
  let aligned := if requireAlignment then awaitAlignment hold else hold
  let row := linearRow host data aligned
  let inserted ← .stmt (.insertEntry row hold.v2Parked false)
  pure (if inserted then .enqueued row.id row.state row.blockedBy hold.reason requireAlignment
    else .refused "already queued (deduped)".toList)

def enqueueLinearIssue (host : Host) (data : LinearIssue) : Prog Stmt EnqueueResult :=
  match validateAcceptanceCriteria data.body with
  | .rejected reason => pure (.refused reason.toList)
  | .ok _ => do
    let screened ← guardrails host .linear data.body { state := .queued }
    match screened with
    | .inr reason => pure (.refused reason)
    | .inl hold => admitLinear host data hold

end Agentrail.Queue
