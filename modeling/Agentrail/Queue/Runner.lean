import Agentrail.Queue.GithubIntake

/-!
# The runner's side of the queue (`runner.ts`)

Claiming, liveness and results, as programs over `Stmt`.
`nextQueueTransition` is the pure decision that the result statements mirror
(`retryEntry_eq_nextQueueTransition`).
-/

namespace Agentrail.Queue

open Js IntakeGate Interleaving

/-! ## Stale runs, liveness and claims -/

def reconcileStaleRuns (workspaceId : Text) : Prog Stmt Nat := do
  let rows ← .stmt (.reconcileRuns workspaceId)
  .stmt (.reconcileEntries workspaceId)
  pure rows

def recordRunnerLiveness (id workspaceId : Text) : Prog Stmt Bool := do
  let updated ← .stmt (.stampRun id workspaceId)
  .stmt (.stampEntry id workspaceId)
  pure updated

def claimQueueEntry (workspaceId : Text) : Prog Stmt (Option QueueEntry) := do
  let _ ← reconcileStaleRuns workspaceId
  let claimed ← .stmt (.claimOldest workspaceId)
  match claimed with
  | none => pure none
  | some row => do
    .stmt (.upsertRun row)
    pure (some row)

/-! ## Results -/

def HOSTED_REFUSAL_PREFIX : Text := "hosted-refusal: ".toList

def isHostedRefusal (status : RunnerStatus) (gateReason : Option Text) : Bool :=
  status = .error && gateReason.any HOSTED_REFUSAL_PREFIX.isPrefixOf

structure Transition where
  state : QueueState
  remainingBudget : Nat
  tier : Nat
  retryDelay : Option Int
  deriving DecidableEq, Repr

/-- `attempts` are the attempts before this one: the source counts from one. -/
def nextQueueTransition (status : RunnerStatus) (remainingBudget tier : Nat)
    (gateReason : Option Text) (attempts random : Nat) : Transition :=
  if status = .green then ⟨.green, remainingBudget, tier, none⟩
  else if status = .running then ⟨.running, remainingBudget, tier, none⟩
  else if isHostedRefusal status gateReason then
    ⟨.escalatedToHuman, remainingBudget, tier, none⟩
  else
    ⟨if remainingBudget ≤ 1 then .escalatedToHuman else .queued,
      remainingBudget - 1,
      if status = .red then min (tier + 1) MAX_TIER else tier,
      if remainingBudget ≤ 1 then none else some (backoffDelay attempts random)⟩

structure RecordRunnerResult where
  updated : Bool
  terminalState : Option QueueState
  externalId : Text
  taskType : Option Text
  transitioned : Bool
  deriving DecidableEq, Repr

def runStatusOf : RunnerStatus → RunStatus
  | .green => .success
  | .running => .running
  | .red => .failed
  | .error => .failed

/-- A green entry wakes its dependents. -/
def wakeDependents (data : RunnerResult) (row : QueueEntry) : Prog Stmt (List Text) :=
  if data.status = .green ∧ row.externalId ≠ [] then
    unparkDependents data.workspaceId row.externalId
  else pure []

/-- `recordRunnerResult` once its update hit `row`: the wake-up, the run, the answer. -/
def settleResult (data : RunnerResult) (row : QueueEntry) (transitioned : Bool) :
    Prog Stmt RecordRunnerResult := do
  let _ ← wakeDependents data row
  .stmt (.updateRun data (runStatusOf data.status))
  let terminalState := if row.state.isTerminal then some row.state else none
  pure ⟨true, terminalState, row.externalId, row.taskType, transitioned⟩

def noSuchEntry : RecordRunnerResult := ⟨false, none, [], none, false⟩

/-- A new green is an attempt of the log; a replayed one is not. -/
def logGreenAttempt (data : RunnerResult) (row : QueueEntry) (transitioned : Bool) :
    Prog Stmt Unit :=
  if data.status = .green ∧ transitioned then
    .stmt (.insertAttempt ⟨data.id, data.workspaceId, row.tier, .green⟩)
  else pure ()

/-- The green and running branch. -/
def recordProgress (data : RunnerResult) : Prog Stmt RecordRunnerResult := do
  let next := (nextQueueTransition data.status 0 0 none 0 0).state
  let committed ← .stmt (.recordState data next)
  match committed with
  | none => pure noSuchEntry
  | some (priorState, row) => do
    let transitioned : Bool := priorState ≠ row.state
    logGreenAttempt data row transitioned
    settleResult data row transitioned

/-- The update of a red or error result. -/
def recordFailure (data : RunnerResult) : Prog Stmt (Option QueueEntry) :=
  if isHostedRefusal data.status data.gateReason then .stmt (.recordRefusal data)
  else .stmt (.recordRetry data)

def recordRunnerResult (data : RunnerResult) : Prog Stmt RecordRunnerResult :=
  if data.status = .red ∨ data.status = .error then do
    let committed ← recordFailure data
    match committed with
    | none => pure noSuchEntry
    | some row => settleResult data row true
  else recordProgress data

/-- The update of a red or error result commits what the pure decision says. -/
theorem retryEntry_eq_nextQueueTransition (data : RunnerResult) (attempts : Nat) (now : Int)
    (r : QueueEntry) (hstatus : data.status = .red ∨ data.status = .error)
    (hordinary : isHostedRefusal data.status data.gateReason = false) :
    nextQueueTransition data.status r.remainingBudget r.tier data.gateReason attempts data.random =
      ⟨(retryEntry data attempts now r).state, (retryEntry data attempts now r).remainingBudget,
        (retryEntry data attempts now r).tier,
        (retryEntry data attempts now r).nextEligibleAt.map (· - now)⟩ := by
  have hgreen : data.status ≠ .green := by rcases hstatus with h | h <;> rw [h] <;> decide
  have hrunning : data.status ≠ .running := by rcases hstatus with h | h <;> rw [h] <;> decide
  unfold nextQueueTransition retryEntry
  rw [if_neg hgreen, if_neg hrunning, hordinary]
  by_cases hbudget : r.remainingBudget ≤ 1
  · simp [hbudget]
  · have hdelay (d : Int) : now + d - now = d := by omega
    simp [hbudget, hdelay]

end Agentrail.Queue
