import Agentrail.Goals.GoalRules
import Agentrail.Lib.Interleaving
import Agentrail.Lib.Table

/-!
# The ledger of a goal (`goals.ts`)

A goal counts its issues and its spend, and `goal_events` keeps what was counted.
Each transaction reads the goal, computes the new columns in memory and writes
them back.  What it writes is seen when it commits, and from its update on the row
is locked, so a transaction is two statements: the read, and the writes with the
commit.  Between the two anyone else may commit, and a stale write loses an issue
(`lost_issue`) or makes a paused goal active again.

`goal_ledger`: where no write is stale and outcomes cost whole cents, the counters
are those of the events and a goal that has ended stays so.
-/

namespace Agentrail.Goals

open Js Interleaving

/-! ## The tables -/

structure GoalRow where
  id : Text
  workspaceId : Text
  slug : Text
  checkType : GoalCheckType := .metric
  checkThreshold : Option Int := none
  status : GoalStatus := .active
  statusReason : Option Text := none
  maxIssues : Int := 10
  maxSpendUsd : ℚ := 50
  issuesFiled : Nat := 0
  spendUsd : ℚ := 0
  stuckThreshold : Int := 2
  consecutiveNonGreen : Nat := 0
  greenCount : Nat := 0
  createdAt : Int := 0
  updatedAt : Int := 0

def goalKeys : List (GoalRow → Text) := [GoalRow.id]

abbrev GoalTable := Table GoalRow goalKeys

inductive GoalEventType where
  | issueFiled
  | outcomeRecorded
  | statusChanged
  deriving DecidableEq, Repr

inductive GoalEventPayload where
  | none
  | reason (reason : Text)
  | change (fromStatus toStatus : GoalStatus) (reason : Text)
  deriving DecidableEq, Repr

structure GoalEvent where
  goalId : Text
  workspaceId : Text
  type : GoalEventType
  issueExternalId : Option Text := none
  outcome : Option GoalOutcome := none
  costUsd : Option ℚ := none
  payload : GoalEventPayload := .none
  createdAt : Int

structure Store where
  goals : GoalTable
  events : List GoalEvent
  now : Int

def emptyStore (now : Int) : Store := { goals := .empty, events := [], now := now }

theorem keeps_goalKeys (f : GoalRow → GoalRow) (hid : ∀ g, (f g).id = g.id) :
    Table.Keeps goalKeys f := by
  intro key hkey g
  obtain rfl := List.mem_singleton.mp hkey
  exact hid g

/-- One goal for each id. -/
theorem GoalTable.eq_of_id (t : GoalTable) (g g' : GoalRow) (h : g ∈ t.rows) (h' : g' ∈ t.rows)
    (hid : g.id = g'.id) : g = g' :=
  t.eq_of_key GoalRow.id List.mem_cons_self g g' h h' hid

/-- An inserted goal has a new id. -/
theorem insert_fresh (t t' : GoalTable) (row : GoalRow) (h : t.insert row = some t') :
    row.id ∉ t.rows.map GoalRow.id := by
  intro hmem
  have hnone : t.insert row = none :=
    (t.insert_eq_none row).mpr ⟨GoalRow.id, List.mem_cons_self, hmem⟩
  rw [hnone] at h
  cases h

/-! ## Columns -/

/-- A value put into a `numeric(10, 2)` column. -/
def numeric2 (q : ℚ) : ℚ := if q < 0 then -round2 (-q) else round2 q

def NUMERIC_LIMIT : ℚ := 100000000

def INTEGER_LIMIT : Int := 2147483648

def fitsNumeric (q : ℚ) : Bool := -NUMERIC_LIMIT < numeric2 q && numeric2 q < NUMERIC_LIMIT

def fitsInteger (n : Int) : Bool := -INTEGER_LIMIT ≤ n && n < INTEGER_LIMIT

theorem numeric2_wholeCents (q : ℚ) (h : WholeCents q) : numeric2 q = q := by
  unfold numeric2
  rw [if_neg (not_lt.mpr h.nonneg), round2_wholeCents q h]

/-! ## Statements -/

structure CreateGoalInput where
  workspaceId : Text
  slug : Text
  checkType : Option GoalCheckType := none
  checkThreshold : Option Int := none
  maxIssues : Option Int := none
  maxSpendUsd : Option ℚ := none
  stuckThreshold : Option Int := none

structure RecordOutcomeInput where
  workspaceId : Text
  issueExternalId : Text
  outcome : GoalOutcome
  costUsd : ℚ

/-- The inserted row with the columns' defaults; `id` is what `defaultRandom()` drew. -/
def newGoal (input : CreateGoalInput) (id : Text) (now : Int) : GoalRow where
  id := id
  workspaceId := input.workspaceId
  slug := input.slug
  checkType := input.checkType.getD .metric
  checkThreshold := input.checkThreshold
  maxIssues := input.maxIssues.getD 10
  maxSpendUsd := numeric2 (input.maxSpendUsd.getD 50)
  stuckThreshold := input.stuckThreshold.getD 2
  createdAt := now
  updatedAt := now

/-- The columns hold what is inserted. -/
def goalFits (input : CreateGoalInput) : Bool :=
  input.checkThreshold.all fitsInteger && fitsInteger (input.maxIssues.getD 10) &&
    fitsNumeric (input.maxSpendUsd.getD 50) && fitsInteger (input.stuckThreshold.getD 2)

def GoalRow.leashState (g : GoalRow) : GoalLeashState where
  status := g.status
  maxIssues := g.maxIssues
  maxSpendUsd := g.maxSpendUsd
  issuesFiled := g.issuesFiled
  spendUsd := g.spendUsd
  stuckThreshold := g.stuckThreshold
  consecutiveNonGreen := g.consecutiveNonGreen
  checkType := g.checkType
  checkThreshold := g.checkThreshold
  greenCount := g.greenCount

/-- The decision on the row that was read. -/
def decision (fresh : GoalRow) (input : RecordOutcomeInput) : GoalTransitionResult :=
  decideGoalTransition fresh.leashState ⟨input.outcome, input.costUsd⟩

def filedRow (fresh : GoalRow) (now : Int) (g : GoalRow) : GoalRow :=
  { g with issuesFiled := fresh.issuesFiled + 1, updatedAt := now }

def decidedRow (decision : GoalTransitionResult) (now : Int) (g : GoalRow) : GoalRow :=
  { g with
    status := decision.nextStatus
    statusReason := some decision.reason
    spendUsd := numeric2 decision.spendUsdAfter
    consecutiveNonGreen := decision.consecutiveNonGreenAfter
    greenCount := decision.greenCountAfter
    updatedAt := now }

def stoppedRow (status : GoalStatus) (reason : Text) (now : Int) (g : GoalRow) : GoalRow :=
  { g with status := status, statusReason := some reason, updatedAt := now }

def issueFiledEvent (goal : GoalRow) (issueExternalId : Text) (now : Int) : GoalEvent where
  goalId := goal.id
  workspaceId := goal.workspaceId
  type := .issueFiled
  issueExternalId := some issueExternalId
  createdAt := now

def outcomeEvent (goal : GoalRow) (input : RecordOutcomeInput) (reason : Text) (now : Int) :
    GoalEvent where
  goalId := goal.id
  workspaceId := input.workspaceId
  type := .outcomeRecorded
  issueExternalId := some input.issueExternalId
  outcome := some input.outcome
  costUsd := some (numeric2 input.costUsd)
  payload := .reason reason
  createdAt := now

def statusEvent (goal : GoalRow) (workspaceId : Text) (status : GoalStatus) (reason : Text)
    (now : Int) : GoalEvent where
  goalId := goal.id
  workspaceId := workspaceId
  type := .statusChanged
  payload := .change goal.status status reason
  createdAt := now

/-- The events of an outcome. -/
def outcomeEvents (fresh : GoalRow) (input : RecordOutcomeInput) (now : Int) : List GoalEvent :=
  outcomeEvent fresh input (decision fresh input).reason now ::
    if (decision fresh input).nextStatus ≠ fresh.status then
      [statusEvent fresh input.workspaceId (decision fresh input).nextStatus
        (decision fresh input).reason now]
    else []

/-- The columns hold what is written to them; a transaction that does not fit is rolled back. -/
def outcomeFits (fresh : GoalRow) (input : RecordOutcomeInput) : Bool :=
  fitsNumeric (decision fresh input).spendUsdAfter && fitsNumeric input.costUsd &&
    fitsInteger (decision fresh input).consecutiveNonGreenAfter &&
    fitsInteger (decision fresh input).greenCountAfter

/-- What a human may set. -/
inductive ManualStatus where
  | paused
  | abandoned
  | reached
  deriving DecidableEq, Repr

def ManualStatus.toGoalStatus : ManualStatus → GoalStatus
  | .paused => .paused
  | .abandoned => .abandoned
  | .reached => .reached

/-- `commit…` is what a transaction writes after it has read `fresh`. -/
inductive Stmt : Type → Type where
  | insertGoal (input : CreateGoalInput) (id : Text) : Stmt Bool
  | selectGoal (id : Text) : Stmt (Option GoalRow)
  | selectIssueFiled (workspaceId issueExternalId : Text) (scan : GoalEvent → Nat) :
      Stmt (Option GoalEvent)
  | commitIssueFiled (fresh : GoalRow) (issueExternalId : Text) : Stmt Bool
  | commitOutcome (fresh : GoalRow) (input : RecordOutcomeInput) : Stmt Bool
  | commitStatus (fresh : GoalRow) (status : ManualStatus) (reason : Text) : Stmt (Option GoalRow)

/-- `UPDATE goals SET f WHERE id = …` and the inserted events. -/
def Store.commit (s : Store) (id : Text) (f : GoalRow → GoalRow) (hf : ∀ g, (f g).id = g.id)
    (events : List GoalEvent) : Store :=
  { s with
    goals := s.goals.update (fun g => g.id = id) f (keeps_goalKeys f hf)
    events := s.events ++ events }

/-- The foreign key of an event of this goal. -/
def Store.hasGoal (s : Store) (id : Text) : Bool := s.goals.rows.any fun g => g.id = id

def Stmt.exec ⦃β : Type⦄ : Stmt β → Store → β × Store
  | .insertGoal input id, s =>
    if goalFits input then
      match s.goals.insert (newGoal input id s.now) with
      | none => (false, s)
      | some goals => (true, { s with goals := goals })
    else (false, s)
  | .selectGoal id, s => ((s.goals.select fun g => g.id = id).head?, s)
  | .selectIssueFiled workspaceId issueExternalId scan, s =>
    (Table.firstBy (fun e => -e.createdAt) scan (s.events.filter fun e =>
      e.workspaceId = workspaceId && e.type = .issueFiled &&
        e.issueExternalId = some issueExternalId), s)
  | .commitIssueFiled fresh issueExternalId, s =>
    if s.hasGoal fresh.id && fitsInteger (fresh.issuesFiled + 1) then
      (true, s.commit fresh.id (filedRow fresh s.now) (fun _ => rfl)
        [issueFiledEvent fresh issueExternalId s.now])
    else (false, s)
  | .commitOutcome fresh input, s =>
    if s.hasGoal fresh.id && outcomeFits fresh input then
      (true, s.commit fresh.id (decidedRow (decision fresh input) s.now) (fun _ => rfl)
        (outcomeEvents fresh input s.now))
    else (false, s)
  | .commitStatus fresh status reason, s =>
    if s.hasGoal fresh.id then
      (((s.goals.select fun g => g.id = fresh.id).map (stoppedRow status.toGoalStatus reason s.now)).head?,
        s.commit fresh.id (stoppedRow status.toGoalStatus reason s.now) (fun _ => rfl)
          [statusEvent fresh fresh.workspaceId status.toGoalStatus reason s.now])
    else (none, s)

/-! ## The functions of the module -/

def createGoal (input : CreateGoalInput) (id : Text) : Prog Stmt Bool :=
  .stmt (.insertGoal input id)

def getGoalById (goalId : Text) : Prog Stmt (Option GoalRow) := .stmt (.selectGoal goalId)

def findActiveGoalForIssue (workspaceId issueExternalId : Text) (scan : GoalEvent → Nat) :
    Prog Stmt (Option GoalRow) := do
  let event ← .stmt (.selectIssueFiled workspaceId issueExternalId scan)
  match event with
  | none => pure none
  | some event => do
    let goal ← getGoalById event.goalId
    pure (goal.filter fun g => g.status = .active)

/-- `false`: the transaction raised. -/
def recordIssueFiled (goalId issueExternalId : Text) : Prog Stmt Bool := do
  let goal ← .stmt (.selectGoal goalId)
  match goal with
  | none => pure true
  | some fresh => .stmt (.commitIssueFiled fresh issueExternalId)

structure RecordOutcomeResult where
  matched : Bool
  goal : Option GoalRow := none
  action : Option GoalAction := none
  reason : Option Text := none

/-- `none`: the transaction raised. -/
def recordOutcomeAndTransition (input : RecordOutcomeInput) (scan : GoalEvent → Nat) :
    Prog Stmt (Option RecordOutcomeResult) := do
  let goal ← findActiveGoalForIssue input.workspaceId input.issueExternalId scan
  match goal with
  | none => pure (some { matched := false })
  | some goal => do
    let fresh ← .stmt (.selectGoal goal.id)
    match fresh with
    | none => pure (some { matched := false })
    | some fresh => do
      let committed ← .stmt (.commitOutcome fresh input)
      if committed then
        pure (some
          { matched := true
            goal := some { fresh with
              status := (decision fresh input).nextStatus
              statusReason := some (decision fresh input).reason }
            action := some (decision fresh input).action
            reason := some (decision fresh input).reason })
      else pure none

def goalCanFileNextIssue (goalId : Text) : Prog Stmt FileDecision := do
  let goal ← getGoalById goalId
  match goal with
  | none => pure ⟨false, "goal not found".toList⟩
  | some g => pure (canFileNextIssue g.status g.issuesFiled g.maxIssues g.spendUsd g.maxSpendUsd)

def setGoalStatus (goalId : Text) (status : ManualStatus) (reason : Text) :
    Prog Stmt (Option GoalRow) := do
  let goal ← .stmt (.selectGoal goalId)
  match goal with
  | none => pure none
  | some fresh => .stmt (.commitStatus fresh status reason)

def pauseGoal (goalId reason : Text) : Prog Stmt (Option GoalRow) :=
  setGoalStatus goalId .paused reason

def abandonGoal (goalId reason : Text) : Prog Stmt (Option GoalRow) :=
  setGoalStatus goalId .abandoned reason

def markGoalReached (goalId reason : Text) : Prog Stmt (Option GoalRow) :=
  setGoalStatus goalId .reached reason

/-! ## Operations and their runs -/

inductive Op where
  | createGoal (input : CreateGoalInput) (id : Text)
  | recordIssueFiled (goalId issueExternalId : Text)
  | recordOutcome (input : RecordOutcomeInput) (scan : GoalEvent → Nat)
  | canFileNextIssue (goalId : Text)
  | pause (goalId reason : Text)
  | abandon (goalId reason : Text)
  | markReached (goalId reason : Text)

def opProgram : Op → Prog Stmt Unit
  | .createGoal input id => createGoal input id >>= fun _ => pure ()
  | .recordIssueFiled goalId issueExternalId =>
    recordIssueFiled goalId issueExternalId >>= fun _ => pure ()
  | .recordOutcome input scan => recordOutcomeAndTransition input scan >>= fun _ => pure ()
  | .canFileNextIssue goalId => goalCanFileNextIssue goalId >>= fun _ => pure ()
  | .pause goalId reason => pauseGoal goalId reason >>= fun _ => pure ()
  | .abandon goalId reason => abandonGoal goalId reason >>= fun _ => pure ()
  | .markReached goalId reason => markGoalReached goalId reason >>= fun _ => pure ()

/-- Only the clock changes on its own. -/
def Env (s s' : Store) : Prop := s.now ≤ s'.now ∧ s' = { s with now := s'.now }

def goalSystem : System Store Stmt where
  exec := Stmt.exec
  starts := fun p => ∃ op, p = opProgram op
  env := Env

end Agentrail.Goals
