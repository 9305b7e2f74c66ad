import Mathlib.Algebra.Group.Nat.Defs
import Agentrail.Lib.Interleaving
import Agentrail.Queue.Schema

/-!
# The atomic statements of the queue's functions

`Stmt` has one constructor for each SQL statement that the functions of
`github_intake.ts` and `runner.ts` send (and one for the guardrail screen, which
runs between two awaits on the ledger of the process); its index is the type of
the answer.  `Stmt.exec` executes one statement on the store, `WHERE` clause and
`SET` list as in the source.

`Writes` and `Notes` say once what a statement can do to a row of the queue and
to the history; `exec_row` and `exec_history` derive it from `Stmt.exec`.
-/

namespace Agentrail.Queue

open Js IntakeGate

/-! ## Constants -/

/-- The exact park reason of a row that waits for its alignment brief. -/
def ALIGNMENT_PARK_REASON : Text := "awaiting alignment".toList

def ALIGNMENT_DENIED_PARK_REASON : Text :=
  "alignment denied — open a new issue to try again".toList

def LIVENESS_STALENESS_SECONDS : Int := 300

def STALE_RUN_MINUTES : Int := 90

def MAX_TIER : Nat := 2

/-- In milliseconds, as in the source. -/
def BACKOFF_BASE_MS : Nat := 30000
def BACKOFF_MULTIPLIER : Nat := 2
def BACKOFF_MAX_MS : Nat := 15 * 60 * 1000

/-- `BACKOFF_JITTER_RATIO = 0.2`, as a divisor. -/
def BACKOFF_JITTER_DIVISOR : Nat := 5

def seconds (n : Int) : Int := 1000000 * n

/-! ## Clauses that several statements share -/

/-- The `CASE` of `reconcileStaleRuns`; `since` is `started_at` or `updated_at`. -/
def isStale (lastLivenessAt since : Option Int) (now : Int) : Bool :=
  match lastLivenessAt with
  | some t => t < now - seconds LIVENESS_STALENESS_SECONDS
  | none => since.any fun t => t < now - seconds (60 * STALE_RUN_MINUTES)

/-- The eligibility clause of the claim and its pure mirror. -/
def isClaimEligible (entry : QueueEntry) (now : Int) : Bool :=
  entry.state = .queued && entry.nextEligibleAt.all (· ≤ now)

/-- `ORDER BY created_at ASC LIMIT 1`. -/
def oldest : List QueueEntry → Option QueueEntry
  | [] => none
  | r :: rows =>
    match oldest rows with
    | none => some r
    | some first => if first.createdAt < r.createdAt then some first else some r

theorem oldest_mem (rows : List QueueEntry) (row : QueueEntry) (h : oldest rows = some row) :
    row ∈ rows := by
  induction rows with
  | nil => cases h
  | cons r rows ih =>
    unfold oldest at h
    split at h
    · cases h
      exact List.mem_cons_self
    · next first hfirst =>
      split at h
      · exact List.mem_cons_of_mem _ (ih (hfirst.trans h))
      · cases h
        exact List.mem_cons_self

/-- The subquery of the claim: the oldest eligible row of the workspace. -/
def oldestEligible (s : Store) (workspaceId : Text) : Option QueueEntry :=
  oldest (s.selectQueue fun r => r.workspaceId = workspaceId && isClaimEligible r s.now)

theorem oldestEligible_mem (s : Store) (workspaceId : Text) (row : QueueEntry)
    (h : oldestEligible s workspaceId = some row) : row ∈ s.queue.rows ∧
      row.workspaceId = workspaceId ∧ isClaimEligible row s.now := by
  have hmem := oldest_mem _ _ h
  unfold Store.selectQueue at hmem
  rw [List.mem_filter] at hmem
  obtain ⟨hin, hwhere⟩ := hmem
  simp only [Bool.and_eq_true, decide_eq_true_eq] at hwhere
  exact ⟨hin, hwhere⟩

/-- The delay of the retry after `attempts` attempts, with `random` in millionths. -/
def backoffDelay (attempts random : Nat) : Int :=
  let floor := min BACKOFF_MAX_MS (BACKOFF_BASE_MS * BACKOFF_MULTIPLIER ^ attempts)
  1000 * floor + floor * random / (1000 * BACKOFF_JITTER_DIVISOR)

/-- `Waiting on #12, #14` -/
def formatWaitingOnReason (unmet : List Nat) : Text :=
  "Waiting on ".toList ++ join ", ".toList (unmet.map fun n => '#' :: decimal n)

/-- The subquery of `confirmAlignmentBrief`: the declared blockers that are not green, in declared
order. -/
def unmetNow (s : Store) (entry : QueueEntry) : List Nat :=
  entry.blockedBy.filter fun n =>
    !s.isGreen entry.workspaceId (entry.externalId.takeWhile (· ≠ '#') ++ '#' :: decimal n)

/-! ## What the functions pass to their statements -/

/-- The report of a runner.  `random` is the draw of the database; `claim` says which claim of the
entry the runner holds, which the code does not know. -/
structure RunnerResult where
  id : Text
  workspaceId : Text
  status : RunnerStatus
  gateReason : Option Text := none
  random : Nat := 0
  claim : Nat := 0
  deriving DecidableEq, Repr

structure Confirmation where
  queueEntryId : Text
  estimatedBudgetUsd : ℚ
  modelOverride : Text
  taskType : Option Text := none
  deriving DecidableEq, Repr

structure Revision where
  queueEntryId : Text
  title : Text
  body : Text
  deriving DecidableEq, Repr

/-! ## Statements -/

inductive Stmt : Type → Type where
  -- reconcileStaleRuns, recordRunnerLiveness
  | reconcileRuns (workspaceId : Text) : Stmt Nat
  | reconcileEntries (workspaceId : Text) : Stmt Unit
  | stampRun (id workspaceId : Text) : Stmt Bool
  | stampEntry (id workspaceId : Text) : Stmt Unit
  -- claimQueueEntry
  | claimOldest (workspaceId : Text) : Stmt (Option QueueEntry)
  | upsertRun (row : QueueEntry) : Stmt Unit
  -- recordRunnerResult
  | recordRefusal (data : RunnerResult) : Stmt (Option QueueEntry)
  | recordRetry (data : RunnerResult) : Stmt (Option QueueEntry)
  | recordState (data : RunnerResult) (next : QueueState) : Stmt (Option (QueueState × QueueEntry))
  | insertAttempt (attempt : QueueAttempt) : Stmt Unit
  | updateRun (data : RunnerResult) (status : RunStatus) : Stmt Unit
  -- unmetBlockers, workspaceRequiresAlignment, findConfirmedAlignmentBriefApproval
  | greenAmong (workspaceId : Text) (externalIds : List Text) : Stmt (List Text)
  | alignmentFlag (workspaceId : Text) : Stmt (Option Bool)
  | approvedIssue (workspaceId issueUrl : Text) : Stmt (Option JaceApproval)
  -- unparkDependents
  | parkedDependents (workspaceId : Text) (completed : Nat) : Stmt (List QueueEntry)
  | releaseParked (workspaceId externalId : Text) : Stmt Unit
  | restampParked (workspaceId externalId : Text) : Stmt Unit
  -- confirmAlignmentBrief, denyAlignmentBrief, reviseAlignmentBrief
  | confirm (input : Confirmation) : Stmt Bool
  | deny (queueEntryId : Text) : Stmt Bool
  | findById (queueEntryId : Text) : Stmt (Option QueueEntry)
  | revise (input : Revision) : Stmt Bool
  -- requeueParkedQueueEntry
  | findInWorkspace (id workspaceId : Text) : Stmt (Option QueueEntry)
  | clearDelay (id workspaceId : Text) : Stmt Bool
  | holdForAlignment (id workspaceId : Text) : Stmt Unit
  | requeue (id workspaceId : Text) (requireAlignment : Bool) : Stmt Bool
  -- enqueueGithubIssue, enqueueLinearIssue
  | screen (body : Text) (source : Source) : Stmt V2Verdict
  | insertEntry (row : QueueEntry) (guardrail approval : Bool) : Stmt Bool

/-! ## Execution -/

/-- The rows of a result statement: `id` and `workspace_id` only. -/
def isEntry (id workspaceId : Text) (r : QueueEntry) : Bool :=
  r.id = id && r.workspaceId = workspaceId

def Store.logAttempt (s : Store) (data : RunnerResult) : Store :=
  { s with
    attempts := s.attempts ++ (s.selectQueue (isEntry data.id data.workspaceId)).map fun r =>
      ⟨r.id, r.workspaceId, r.tier, data.status⟩ }

/-- The `SET` list of a red or error result, after `attempts` earlier attempts. -/
def retryEntry (data : RunnerResult) (attempts : Nat) (now : Int) (r : QueueEntry) : QueueEntry :=
  { r with
    state := if r.remainingBudget ≤ 1 then .escalatedToHuman else .queued
    remainingBudget := r.remainingBudget - 1
    tier := if data.status = .red then min (r.tier + 1) MAX_TIER else r.tier
    nextEligibleAt := if r.remainingBudget ≤ 1 then none
      else some (now + backoffDelay attempts data.random)
    updatedAt := now }

def Stmt.exec (host : Host) ⦃β : Type⦄ : Stmt β → Store → β × Store
  | .reconcileRuns workspaceId, s =>
    let stale := fun r : Run => r.workspaceId = workspaceId && r.status = .running &&
      isStale r.lastLivenessAt r.startedAt s.now
    ((s.runs.filter stale).length,
      { s with
        runs := s.runs.map fun r =>
          if stale r then
            { r with status := .failed, finishedAt := some s.now, updatedAt := some s.now }
          else r })
  | .reconcileEntries workspaceId, s =>
    ((), s.updateQueue
      (fun r => r.workspaceId = workspaceId && r.state = .running &&
        isStale r.lastLivenessAt (some r.updatedAt) s.now)
      fun r => { r with state := .queued, updatedAt := s.now })
  | .stampRun id workspaceId, s =>
    let inFlight := fun r : Run => r.id = id && r.workspaceId = workspaceId && r.status = .running
    (s.runs.any inFlight,
      { s with
        runs := s.runs.map fun r =>
          if inFlight r then { r with lastLivenessAt := some s.now } else r })
  | .stampEntry id workspaceId, s =>
    ((), s.updateQueue (fun r => isEntry id workspaceId r && r.state = .running)
      fun r => { r with lastLivenessAt := some s.now })
  | .claimOldest workspaceId, s =>
    match oldestEligible s workspaceId with
    | none => (none, s)
    | some row =>
      let claim := fun r : QueueEntry =>
        { r with state := .running, nextEligibleAt := none, updatedAt := s.now }
      (some (claim row),
        (s.updateQueue (fun r => r.id = row.id) claim).note (.claimed row.id s.now))
  | .upsertRun row, s =>
    let claimed : Run :=
      { id := row.id, workspaceId := row.workspaceId, title := some row.title, status := .running,
        startedAt := some s.now, queueEntryId := some row.id, updatedAt := some s.now }
    ((), { s with
      runs := if s.runs.any fun r => r.id = row.id then
          s.runs.map fun r =>
            if r.id = row.id then
              { r with status := .running, startedAt := some s.now, updatedAt := some s.now }
            else r
        else s.runs ++ [claimed] })
  | .recordRefusal data, s =>
    let refuse := fun r : QueueEntry =>
      { r with state := .escalatedToHuman, parkReason := data.gateReason, nextEligibleAt := none,
               updatedAt := s.now }
    let rows := s.selectQueue (isEntry data.id data.workspaceId)
    ((rows.map refuse).head?,
      (((s.logAttempt data).updateQueue (isEntry data.id data.workspaceId) refuse).noteIf
        (!rows.isEmpty) (.result data.id data.claim)))
  | .recordRetry data, s =>
    let attemptCount := (s.attempts.filter (·.queueEntryId = data.id)).length
    let retry := retryEntry data attemptCount s.now
    let rows := s.selectQueue (isEntry data.id data.workspaceId)
    ((rows.map retry).head?,
      (((s.logAttempt data).updateQueue (isEntry data.id data.workspaceId) retry).noteIf
        (!rows.isEmpty) (.result data.id data.claim)))
  | .recordState data next, s =>
    let set := fun r : QueueEntry => { r with state := next, updatedAt := s.now }
    let rows := s.selectQueue (isEntry data.id data.workspaceId)
    ((rows.map fun r => (r.state, set r)).head?,
      (s.updateQueue (isEntry data.id data.workspaceId) set).noteIf
        (!rows.isEmpty) (.result data.id data.claim))
  | .insertAttempt attempt, s => ((), { s with attempts := s.attempts ++ [attempt] })
  | .updateRun data status, s =>
    let finishedAt := if data.status = .running then none else some s.now
    ((), { s with
      runs := s.runs.map fun r =>
        if r.id = data.id && r.workspaceId = data.workspaceId then
          { r with status := status, finishedAt := finishedAt, updatedAt := some s.now }
        else r })
  | .greenAmong workspaceId externalIds, s =>
    ((s.selectQueue fun r => r.workspaceId = workspaceId && externalIds.contains r.externalId &&
      r.state = .green).map QueueEntry.externalId, s)
  | .alignmentFlag workspaceId, s =>
    ((s.workspaces.find? (·.id = workspaceId)).map Workspace.requireAlignment, s)
  | .approvedIssue workspaceId issueUrl, s =>
    (s.approvals.find? fun a => a.workspaceId = some workspaceId && a.status = .approved &&
      a.toolName = "create_issue".toList && a.publishedIssueUrl = some issueUrl, s)
  | .parkedDependents workspaceId completed, s =>
    (s.selectQueue fun r => r.workspaceId = workspaceId && r.state = .parked &&
      r.blockedBy.contains completed, s)
  | .releaseParked workspaceId externalId, s =>
    ((), s.updateQueue
      (fun r => r.workspaceId = workspaceId && r.externalId = externalId && r.state = .parked)
      fun r => { r with state := .queued, parkReason := none, updatedAt := s.now })
  | .restampParked workspaceId externalId, s =>
    ((), s.updateQueue
      (fun r => r.workspaceId = workspaceId && r.externalId = externalId && r.state = .parked &&
        r.estimatedBudgetUsd.isNone)
      fun r => { r with parkReason := some ALIGNMENT_PARK_REASON, updatedAt := s.now })
  | .confirm input, s =>
    let target := fun r : QueueEntry => r.id = input.queueEntryId && r.state = .parked
    (!(s.selectQueue target).isEmpty, s.updateQueue target fun r =>
      { r with
        state := if unmetNow s r = [] then .queued else .parked
        parkReason := if unmetNow s r = [] then none
          else some (formatWaitingOnReason (unmetNow s r))
        estimatedBudgetUsd := some input.estimatedBudgetUsd
        modelOverride := some input.modelOverride
        taskType := input.taskType
        updatedAt := s.now })
  | .deny queueEntryId, s =>
    let target := fun r : QueueEntry => r.id = queueEntryId && r.state = .parked
    let hit := !(s.selectQueue target).isEmpty
    (hit, (s.updateQueue target fun r =>
      { r with parkReason := some ALIGNMENT_DENIED_PARK_REASON, updatedAt := s.now }).noteIf
        hit (.denied queueEntryId))
  | .findById queueEntryId, s => ((s.selectQueue (·.id = queueEntryId)).head?, s)
  | .revise input, s =>
    let target := fun r : QueueEntry => r.id = input.queueEntryId && r.state = .parked &&
      r.parkReason = some ALIGNMENT_DENIED_PARK_REASON
    let hit := !(s.selectQueue target).isEmpty
    (hit, (s.updateQueue target fun r =>
      { r with title := input.title, body := input.body,
               parkReason := some ALIGNMENT_PARK_REASON, estimatedBudgetUsd := none,
               modelOverride := none, taskType := none, updatedAt := s.now }).noteIf
        hit (.revised input.queueEntryId))
  | .findInWorkspace id workspaceId, s => ((s.selectQueue (isEntry id workspaceId)).head?, s)
  | .clearDelay id workspaceId, s =>
    let target := fun r => isEntry id workspaceId r && r.state = .queued
    (!(s.selectQueue target).isEmpty, s.updateQueue target fun r =>
      { r with nextEligibleAt := none, updatedAt := s.now })
  | .holdForAlignment id workspaceId, s =>
    ((), s.updateQueue (fun r => isEntry id workspaceId r && r.state = .parked) fun r =>
      { r with parkReason := some ALIGNMENT_PARK_REASON, updatedAt := s.now })
  | .requeue id workspaceId requireAlignment, s =>
    let target := fun r => isEntry id workspaceId r && r.state = .parked &&
      r.parkReason ≠ some ALIGNMENT_DENIED_PARK_REASON &&
      (r.kind ≠ "issue".toList || r.estimatedBudgetUsd.isSome || !requireAlignment)
    let hit := !(s.selectQueue target).isEmpty
    (hit, (s.updateQueue target fun r =>
      { r with state := .queued, parkReason := none, updatedAt := s.now }).noteIf
        hit (.requeued id))
  | .screen body source, s =>
    let verdict := screenV2 host body (writerForSource source) s.ledger true s.now
    match verdict with
    | .reject _ _ => (verdict, s)
    | _ => (verdict, { s with ledger := verdict.ledger })
  | .insertEntry row guardrail approval, s =>
    match s.queue.insert { row with createdAt := s.now, updatedAt := s.now } with
    | none => (false, s)
    | some queue => (true, { s with queue := queue }.note (.admitted row.id guardrail approval))

/-! ## What a statement can do -/

/-- The statement turns the row `r` into `r'`. -/
inductive Writes : ∀ {β : Type}, Stmt β → Store → QueueEntry → QueueEntry → Prop
  | reconcileEntries {w s r} : r.workspaceId = w → r.state = .running →
      isStale r.lastLivenessAt (some r.updatedAt) s.now →
      Writes (.reconcileEntries w) s r { r with state := .queued, updatedAt := s.now }
  | stampEntry {id w s r} : isEntry id w r → r.state = .running →
      Writes (.stampEntry id w) s r { r with lastLivenessAt := some s.now }
  | claimOldest {w s r} : r.workspaceId = w → isClaimEligible r s.now →
      Writes (.claimOldest w) s r
        { r with state := .running, nextEligibleAt := none, updatedAt := s.now }
  | recordRefusal {data s r} : isEntry data.id data.workspaceId r →
      Writes (.recordRefusal data) s r
        { r with state := .escalatedToHuman, parkReason := data.gateReason, nextEligibleAt := none,
                 updatedAt := s.now }
  | recordRetry {data s r} (attempts : Nat) : isEntry data.id data.workspaceId r →
      Writes (.recordRetry data) s r (retryEntry data attempts s.now r)
  | recordState {data next s r} : isEntry data.id data.workspaceId r →
      Writes (.recordState data next) s r { r with state := next, updatedAt := s.now }
  | releaseParked {w e s r} : r.workspaceId = w → r.externalId = e → r.state = .parked →
      Writes (.releaseParked w e) s r
        { r with state := .queued, parkReason := none, updatedAt := s.now }
  | restampParked {w e s r} : r.workspaceId = w → r.externalId = e → r.state = .parked →
      r.estimatedBudgetUsd = none →
      Writes (.restampParked w e) s r
        { r with parkReason := some ALIGNMENT_PARK_REASON, updatedAt := s.now }
  | confirm {input : Confirmation} {s r} : r.id = input.queueEntryId → r.state = .parked →
      Writes (.confirm input) s r
        { r with
          state := if unmetNow s r = [] then .queued else .parked
          parkReason := if unmetNow s r = [] then none
            else some (formatWaitingOnReason (unmetNow s r))
          estimatedBudgetUsd := some input.estimatedBudgetUsd
          modelOverride := some input.modelOverride
          taskType := input.taskType
          updatedAt := s.now }
  | deny {id s r} : r.id = id → r.state = .parked →
      Writes (.deny id) s r
        { r with parkReason := some ALIGNMENT_DENIED_PARK_REASON, updatedAt := s.now }
  | revise {input : Revision} {s r} : r.id = input.queueEntryId → r.state = .parked →
      r.parkReason = some ALIGNMENT_DENIED_PARK_REASON →
      Writes (.revise input) s r
        { r with title := input.title, body := input.body,
                 parkReason := some ALIGNMENT_PARK_REASON, estimatedBudgetUsd := none,
                 modelOverride := none, taskType := none, updatedAt := s.now }
  | clearDelay {id w s r} : isEntry id w r → r.state = .queued →
      Writes (.clearDelay id w) s r { r with nextEligibleAt := none, updatedAt := s.now }
  | holdForAlignment {id w s r} : isEntry id w r → r.state = .parked →
      Writes (.holdForAlignment id w) s r
        { r with parkReason := some ALIGNMENT_PARK_REASON, updatedAt := s.now }
  | requeue {id w flag s r} : isEntry id w r → r.state = .parked →
      r.parkReason ≠ some ALIGNMENT_DENIED_PARK_REASON →
      (r.kind ≠ "issue".toList ∨ r.estimatedBudgetUsd.isSome ∨ flag = false) →
      Writes (.requeue id w flag) s r
        { r with state := .queued, parkReason := none, updatedAt := s.now }

/-- The statement adds the row, with what the enqueue knew of it. -/
inductive Inserts : ∀ {β : Type}, Stmt β → Store → QueueEntry → Bool → Bool → Prop
  | insertEntry {row guardrail approval s} : row.id ∉ s.queue.rows.map QueueEntry.id →
      Inserts (.insertEntry row guardrail approval) s
        { row with createdAt := s.now, updatedAt := s.now } guardrail approval

/-- The statement notes the event. -/
inductive Notes : ∀ {β : Type}, Stmt β → Store → Event → Prop
  | claimOldest {w s r} : r ∈ s.queue.rows → r.workspaceId = w → isClaimEligible r s.now →
      Notes (.claimOldest w) s (.claimed r.id s.now)
  | recordRefusal {data s r} : r ∈ s.queue.rows → isEntry data.id data.workspaceId r →
      Notes (.recordRefusal data) s (.result data.id data.claim)
  | recordRetry {data s r} : r ∈ s.queue.rows → isEntry data.id data.workspaceId r →
      Notes (.recordRetry data) s (.result data.id data.claim)
  | recordState {data next s r} : r ∈ s.queue.rows → isEntry data.id data.workspaceId r →
      Notes (.recordState data next) s (.result data.id data.claim)
  | deny {s r} : r ∈ s.queue.rows → r.state = .parked → Notes (.deny r.id) s (.denied r.id)
  | revise {input : Revision} {s r} : r ∈ s.queue.rows → r.id = input.queueEntryId →
      r.state = .parked → r.parkReason = some ALIGNMENT_DENIED_PARK_REASON →
      Notes (.revise input) s (.revised input.queueEntryId)
  | requeue {id w flag s r} : r ∈ s.queue.rows → r.id = id →
      Notes (.requeue id w flag) s (.requeued id)
  | insertEntry {row guardrail approval s} : row.id ∉ s.queue.rows.map QueueEntry.id →
      Notes (.insertEntry row guardrail approval) s (.admitted row.id guardrail approval)

section
variable {β : Type}

/-- An update rewrites each row or leaves it. -/
theorem update_rows (q : Stmt β) (s : Store) (p : QueueEntry → Bool)
    (f : QueueEntry → QueueEntry)
    (h : ∀ r ∈ s.queue.rows, p r → Writes q s r { f r with id := r.id }) :
    ∃ image : QueueEntry → QueueEntry, (s.queue.update p f).rows = s.queue.rows.map image ∧
      ∀ r ∈ s.queue.rows, image r = r ∨ Writes q s r (image r) := by
  refine ⟨fun r => if p r then { f r with id := r.id } else r, rfl, fun r hr => ?_⟩
  by_cases hp : p r
  · right
    simp only [hp, if_true]
    exact h r hr hp
  · left
    simp [hp]

/-- An insert of a new key. -/
theorem exec_insertEntry (host : Host) (row : QueueEntry) (guardrail approval : Bool) (s : Store)
    (h : row.id ∉ s.queue.rows.map QueueEntry.id) :
    ((Stmt.insertEntry row guardrail approval).exec host s).2.queue.rows =
      s.queue.rows ++ [{ row with createdAt := s.now, updatedAt := s.now }] := by
  unfold Stmt.exec QueueTable.insert
  dsimp only
  rw [dif_neg h]
  rfl

/-- What a statement does to the rows of the queue. -/
theorem exec_row (host : Host) (q : Stmt β) (s : Store) :
    (∃ image : QueueEntry → QueueEntry,
      (q.exec host s).2.queue.rows = s.queue.rows.map image ∧
      ∀ r ∈ s.queue.rows, image r = r ∨ Writes q s r (image r)) ∨
    ∃ row guardrail approval, (q.exec host s).2.queue.rows = s.queue.rows ++ [row] ∧
      (q.exec host s).2.history = .admitted row.id guardrail approval :: s.history ∧
      Inserts q s row guardrail approval := by
  have hread : ∀ s' : Store, s'.queue = s.queue → ∃ image : QueueEntry → QueueEntry,
      s'.queue.rows = s.queue.rows.map image ∧
      ∀ r ∈ s.queue.rows, image r = r ∨ Writes q s r (image r) :=
    fun s' h => ⟨id, by rw [h, List.map_id], fun r _ => Or.inl rfl⟩
  cases q with
  | reconcileRuns | stampRun | upsertRun | insertAttempt | updateRun | greenAmong | alignmentFlag
  | approvedIssue | parkedDependents | findById | findInWorkspace => exact Or.inl (hread _ rfl)
  | reconcileEntries w =>
    refine Or.inl (update_rows _ s _ _ fun r _ hp => ?_)
    simp only [Bool.and_eq_true, decide_eq_true_eq] at hp
    exact .reconcileEntries hp.1.1 hp.1.2 hp.2
  | stampEntry id w =>
    refine Or.inl (update_rows _ s _ _ fun r _ hp => ?_)
    simp only [Bool.and_eq_true, decide_eq_true_eq] at hp
    exact .stampEntry hp.1 hp.2
  | claimOldest w =>
    unfold Stmt.exec
    dsimp only
    split
    · exact Or.inl (hread _ rfl)
    · next row hrow =>
      refine Or.inl (update_rows _ s _ _ fun r hr hp => ?_)
      obtain ⟨hin, hw, heligible⟩ := oldestEligible_mem s w row hrow
      obtain rfl := s.queue.eq_of_id r row hr hin (of_decide_eq_true hp)
      exact .claimOldest hw heligible
  | recordRefusal data =>
    unfold Stmt.exec
    rw [Store.noteIf_queue]
    exact Or.inl (update_rows _ s _ _ fun r _ hp => .recordRefusal hp)
  | recordRetry data =>
    unfold Stmt.exec
    rw [Store.noteIf_queue]
    exact Or.inl (update_rows _ s _ _ fun r _ hp => .recordRetry _ hp)
  | recordState data next =>
    unfold Stmt.exec
    rw [Store.noteIf_queue]
    exact Or.inl (update_rows _ s _ _ fun r _ hp => .recordState hp)
  | releaseParked w e =>
    refine Or.inl (update_rows _ s _ _ fun r _ hp => ?_)
    simp only [Bool.and_eq_true, decide_eq_true_eq] at hp
    exact .releaseParked hp.1.1 hp.1.2 hp.2
  | restampParked w e =>
    refine Or.inl (update_rows _ s _ _ fun r _ hp => ?_)
    simp only [Bool.and_eq_true, decide_eq_true_eq] at hp
    exact .restampParked hp.1.1.1 hp.1.1.2 hp.1.2 (Option.isNone_iff_eq_none.mp hp.2)
  | confirm input =>
    refine Or.inl (update_rows _ s _ _ fun r _ hp => ?_)
    simp only [Bool.and_eq_true, decide_eq_true_eq] at hp
    exact .confirm hp.1 hp.2
  | deny id =>
    unfold Stmt.exec
    rw [Store.noteIf_queue]
    refine Or.inl (update_rows _ s _ _ fun r _ hp => ?_)
    simp only [Bool.and_eq_true, decide_eq_true_eq] at hp
    exact .deny hp.1 hp.2
  | revise input =>
    unfold Stmt.exec
    rw [Store.noteIf_queue]
    refine Or.inl (update_rows _ s _ _ fun r _ hp => ?_)
    simp only [Bool.and_eq_true, decide_eq_true_eq] at hp
    exact .revise hp.1.1 hp.1.2 hp.2
  | clearDelay id w =>
    refine Or.inl (update_rows _ s _ _ fun r _ hp => ?_)
    simp only [Bool.and_eq_true, decide_eq_true_eq] at hp
    exact .clearDelay hp.1 hp.2
  | holdForAlignment id w =>
    refine Or.inl (update_rows _ s _ _ fun r _ hp => ?_)
    simp only [Bool.and_eq_true, decide_eq_true_eq] at hp
    exact .holdForAlignment hp.1 hp.2
  | requeue id w flag =>
    unfold Stmt.exec
    rw [Store.noteIf_queue]
    refine Or.inl (update_rows _ s _ _ fun r _ hp => ?_)
    simp only [Bool.and_eq_true, Bool.or_eq_true, decide_eq_true_eq, Bool.not_eq_true'] at hp
    exact .requeue hp.1.1.1 hp.1.1.2 hp.1.2 (or_assoc.mp hp.2)
  | screen body source =>
    refine Or.inl (hread _ ?_)
    unfold Stmt.exec
    dsimp only
    split <;> rfl
  | insertEntry row guardrail approval =>
    unfold Stmt.exec QueueTable.insert
    dsimp only
    split
    · exact Or.inl (hread _ rfl)
    · next hid =>
      split at hid
      · cases hid
      · next hfresh =>
        cases hid
        exact Or.inr ⟨_, guardrail, approval, rfl, rfl, .insertEntry hfresh⟩

/-- What a statement adds to the history. -/
theorem exec_history (host : Host) (q : Stmt β) (s : Store) :
    (q.exec host s).2.history = s.history ∨
    ∃ e, (q.exec host s).2.history = e :: s.history ∧ Notes q s e := by
  -- a statement that notes its event if it selects a row
  have hnote : ∀ (s' : Store) (p : QueueEntry → Bool) (e : Event), s'.history = s.history →
      (∀ r ∈ s.queue.rows, p r → Notes q s e) →
      (s'.noteIf (!(s.selectQueue p).isEmpty) e).history = s.history ∨
        ∃ e', (s'.noteIf (!(s.selectQueue p).isEmpty) e).history = e' :: s.history ∧
          Notes q s e' := by
    intro s' p e hs' h
    rw [Store.noteIf_history, hs']
    cases hsel : s.selectQueue p with
    | nil => exact Or.inl rfl
    | cons r rest =>
      have hr : r ∈ s.selectQueue p := hsel ▸ List.mem_cons_self
      obtain ⟨hmem, hp⟩ := List.mem_filter.mp hr
      exact Or.inr ⟨e, rfl, h r hmem hp⟩
  cases q with
  | reconcileRuns | stampRun | upsertRun | insertAttempt | updateRun | greenAmong | alignmentFlag
  | approvedIssue | parkedDependents | findById | findInWorkspace | reconcileEntries | stampEntry
  | releaseParked | restampParked | confirm | clearDelay | holdForAlignment => exact Or.inl rfl
  | claimOldest w =>
    unfold Stmt.exec
    dsimp only
    split
    · exact Or.inl rfl
    · next row hrow =>
      obtain ⟨hin, hw, heligible⟩ := oldestEligible_mem s w row hrow
      exact Or.inr ⟨_, rfl, .claimOldest hin hw heligible⟩
  | recordRefusal data => exact hnote _ _ _ rfl fun r hr hp => .recordRefusal hr hp
  | recordRetry data => exact hnote _ _ _ rfl fun r hr hp => .recordRetry hr hp
  | recordState data next => exact hnote _ _ _ rfl fun r hr hp => .recordState hr hp
  | deny id =>
    refine hnote _ _ _ rfl fun r hr hp => ?_
    simp only [Bool.and_eq_true, decide_eq_true_eq] at hp
    obtain ⟨rfl, hstate⟩ := hp
    exact .deny hr hstate
  | revise input =>
    refine hnote _ _ _ rfl fun r hr hp => ?_
    simp only [Bool.and_eq_true, decide_eq_true_eq] at hp
    exact .revise hr hp.1.1 hp.1.2 hp.2
  | requeue id w flag =>
    refine hnote _ _ _ rfl fun r hr hp => ?_
    simp only [isEntry, Bool.and_eq_true, decide_eq_true_eq] at hp
    exact .requeue hr hp.1.1.1.1
  | screen body source =>
    left
    unfold Stmt.exec
    dsimp only
    split <;> rfl
  | insertEntry row guardrail approval =>
    unfold Stmt.exec QueueTable.insert
    dsimp only
    split
    · exact Or.inl rfl
    · next hid =>
      split at hid
      · cases hid
      · next hfresh =>
        cases hid
        exact Or.inr ⟨_, rfl, .insertEntry hfresh⟩

theorem exec_history_mono (host : Host) (q : Stmt β) (s : Store) (e : Event)
    (he : e ∈ s.history) : e ∈ (q.exec host s).2.history := by
  rcases exec_history host q s with h | ⟨e', h, _⟩
  · rwa [h]
  · rw [h]
    exact List.mem_cons_of_mem _ he

theorem exec_workspaces (host : Host) (q : Stmt β) (s : Store) :
    (q.exec host s).2.workspaces = s.workspaces := by
  cases q <;> unfold Stmt.exec <;> dsimp only <;> first | rfl | (split <;> rfl) | simp [Store.logAttempt]

/-- An update moves no row to another id. -/
theorem Writes.id_eq {q : Stmt β} {s : Store} {r r' : QueueEntry} (h : Writes q s r r') :
    r'.id = r.id := by
  cases h <;> rfl

end

end Agentrail.Queue
