import Mathlib.Data.Rat.Floor
import Agentrail.Js.Basic

/-!
# The rules of the goal loop (`goal_rules.ts`)

`decideGoalTransition` answers the outcome of a run: the check comes before the
leash, the leash before the stuck rule.  A goal that is no longer active keeps its
status and its counters.

Amounts are exact: for whole cents `round2` of the doubles is exact too.
-/

namespace Agentrail.Goals

open Js

inductive GoalStatus where
  | active
  | reached
  | leashed
  | paused
  | abandoned
  deriving DecidableEq, Repr

def GoalStatus.text : GoalStatus → Text
  | .active => "active".toList
  | .reached => "reached".toList
  | .leashed => "leashed".toList
  | .paused => "paused".toList
  | .abandoned => "abandoned".toList

inductive GoalOutcome where
  | green
  | escalatedToHuman
  | blocked
  deriving DecidableEq, Repr

inductive GoalCheckType where
  | metric
  | command
  deriving DecidableEq, Repr

inductive GoalAction where
  | refill
  | reached
  | escalateLeashed
  | escalateStuck
  | noop
  deriving DecidableEq, Repr

structure GoalLeashState where
  status : GoalStatus
  maxIssues : Int
  maxSpendUsd : ℚ
  issuesFiled : Nat
  spendUsd : ℚ
  stuckThreshold : Int
  consecutiveNonGreen : Nat
  checkType : GoalCheckType
  checkThreshold : Option Int
  greenCount : Nat

structure GoalOutcomeEvent where
  outcome : GoalOutcome
  costUsd : ℚ

structure GoalTransitionResult where
  nextStatus : GoalStatus
  action : GoalAction
  reason : Text
  issuesFiledAfter : Nat
  spendUsdAfter : ℚ
  consecutiveNonGreenAfter : Nat
  greenCountAfter : Nat

/-! ## Numbers -/

/-- `Math.round`: halves go up. -/
def round (q : ℚ) : Int := (q + 1 / 2).floor

def round2 (q : ℚ) : ℚ := round (q * 100) / 100

/-- A non-negative number of whole cents. -/
def WholeCents (q : ℚ) : Prop := ∃ cents : Nat, q = cents / 100

def integerText (n : Int) : Text :=
  if n < 0 then '-' :: decimal n.natAbs else decimal n.natAbs

/-- A number with at most two decimals as JavaScript prints it. -/
def amountText (q : ℚ) : Text :=
  let cents := (round (q * 100)).natAbs
  let sign := if q < 0 then "-".toList else []
  let fraction :=
    if cents % 100 = 0 then []
    else if cents % 10 = 0 then '.' :: decimal (cents % 100 / 10)
    else '.' :: decimal (cents % 100 / 10) ++ decimal (cents % 10)
  sign ++ decimal (cents / 100) ++ fraction

theorem round_intCast (n : Int) : round n = n := by
  unfold round
  have hfloor : ⌊(n : ℚ) + 1 / 2⌋ = n := by
    rw [Int.floor_eq_iff]
    constructor <;> norm_num
  exact hfloor

theorem round2_wholeCents (q : ℚ) (h : WholeCents q) : round2 q = q := by
  obtain ⟨cents, rfl⟩ := h
  unfold round2
  have hcents : (cents : ℚ) / 100 * 100 = ((cents : Int) : ℚ) := by
    push_cast
    ring
  rw [hcents, round_intCast]
  push_cast
  ring

theorem WholeCents.add {q q' : ℚ} (h : WholeCents q) (h' : WholeCents q') : WholeCents (q + q') := by
  obtain ⟨a, rfl⟩ := h
  obtain ⟨b, rfl⟩ := h'
  refine ⟨a + b, ?_⟩
  push_cast
  ring

theorem wholeCents_zero : WholeCents 0 := ⟨0, by norm_num⟩

theorem WholeCents.nonneg {q : ℚ} (h : WholeCents q) : 0 ≤ q := by
  obtain ⟨cents, rfl⟩ := h
  positivity

/-! ## The decision -/

def spendUsdAfter (state : GoalLeashState) (event : GoalOutcomeEvent) : ℚ :=
  round2 (state.spendUsd + max 0 event.costUsd)

def consecutiveNonGreenAfter (state : GoalLeashState) (event : GoalOutcomeEvent) : Nat :=
  if event.outcome = .green then 0 else state.consecutiveNonGreen + 1

def greenCountAfter (state : GoalLeashState) (event : GoalOutcomeEvent) : Nat :=
  if event.outcome = .green then state.greenCount + 1 else state.greenCount

/-- The check of a metric goal is reached. -/
def checkReached (state : GoalLeashState) (event : GoalOutcomeEvent) : Bool :=
  state.checkType = .metric &&
    state.checkThreshold.any fun threshold => threshold ≤ (greenCountAfter state event : Int)

def decideGoalTransition (state : GoalLeashState) (event : GoalOutcomeEvent) :
    GoalTransitionResult :=
  if state.status ≠ .active then
    { nextStatus := state.status
      action := .noop
      reason := "goal is already '".toList ++ state.status.text ++
        "'; no further transitions are possible".toList
      issuesFiledAfter := state.issuesFiled
      spendUsdAfter := state.spendUsd
      consecutiveNonGreenAfter := state.consecutiveNonGreen
      greenCountAfter := state.greenCount }
  else if checkReached state event then
    { nextStatus := .reached
      action := .reached
      reason := "check reached: ".toList ++ decimal (greenCountAfter state event) ++ "/".toList ++
        integerText (state.checkThreshold.getD 0) ++ " green outcomes".toList
      issuesFiledAfter := state.issuesFiled
      spendUsdAfter := spendUsdAfter state event
      consecutiveNonGreenAfter := consecutiveNonGreenAfter state event
      greenCountAfter := greenCountAfter state event }
  else if state.maxIssues ≤ state.issuesFiled ∨ state.maxSpendUsd ≤ spendUsdAfter state event then
    { nextStatus := .leashed
      action := .escalateLeashed
      reason :=
        if state.maxIssues ≤ state.issuesFiled then
          "leash exhausted: issues filed ".toList ++ decimal state.issuesFiled ++ "/".toList ++
            integerText state.maxIssues
        else
          "leash exhausted: spend $".toList ++ amountText (spendUsdAfter state event) ++
            "/$".toList ++ amountText state.maxSpendUsd
      issuesFiledAfter := state.issuesFiled
      spendUsdAfter := spendUsdAfter state event
      consecutiveNonGreenAfter := consecutiveNonGreenAfter state event
      greenCountAfter := greenCountAfter state event }
  else if state.stuckThreshold ≤ consecutiveNonGreenAfter state event then
    { nextStatus := .paused
      action := .escalateStuck
      reason := "stuck: ".toList ++ decimal (consecutiveNonGreenAfter state event) ++
        " consecutive non-green outcomes (threshold ".toList ++
        integerText state.stuckThreshold ++ ")".toList
      issuesFiledAfter := state.issuesFiled
      spendUsdAfter := spendUsdAfter state event
      consecutiveNonGreenAfter := consecutiveNonGreenAfter state event
      greenCountAfter := greenCountAfter state event }
  else
    { nextStatus := .active
      action := .refill
      reason :=
        "goal still active; leash remains and the stuck threshold is not met".toList
      issuesFiledAfter := state.issuesFiled
      spendUsdAfter := spendUsdAfter state event
      consecutiveNonGreenAfter := consecutiveNonGreenAfter state event
      greenCountAfter := greenCountAfter state event }

structure FileDecision where
  allow : Bool
  reason : Text
  deriving DecidableEq, Repr

def canFileNextIssue (status : GoalStatus) (issuesFiled : Nat) (maxIssues : Int)
    (spendUsd maxSpendUsd : ℚ) : FileDecision :=
  if status ≠ .active then
    ⟨false, "goal is '".toList ++ status.text ++ "', not active".toList⟩
  else if maxIssues ≤ issuesFiled then
    ⟨false, "leash exhausted: issues filed ".toList ++ decimal issuesFiled ++ "/".toList ++
      integerText maxIssues⟩
  else if maxSpendUsd ≤ spendUsd then
    ⟨false, "leash exhausted: spend $".toList ++ amountText spendUsd ++ "/$".toList ++
      amountText maxSpendUsd⟩
  else ⟨true, "leash remains".toList⟩

/-- The spend of an active goal grows by the cost. -/
theorem decide_spend (state : GoalLeashState) (event : GoalOutcomeEvent)
    (h : state.status = .active) :
    (decideGoalTransition state event).spendUsdAfter = spendUsdAfter state event := by
  unfold decideGoalTransition
  rw [if_neg (not_not_intro h)]
  by_cases hreached : checkReached state event
  · rw [if_pos hreached]
  · rw [if_neg hreached]
    by_cases hleash : state.maxIssues ≤ state.issuesFiled ∨
        state.maxSpendUsd ≤ spendUsdAfter state event
    · rw [if_pos hleash]
    · rw [if_neg hleash]
      split <;> rfl

end Agentrail.Goals
