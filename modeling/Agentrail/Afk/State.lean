import Mathlib.Data.Rat.Defs
import Agentrail.Py.Json

/-!
# The state machine of an AFK run (`afk/state.py`)

`reduce` is the one function that changes an `AfkState`, one branch for each
action; it raises where an action does not apply.  What a run cost is kept in the
state and decides nothing: `reduce_forgetCost`.
-/

namespace Agentrail.Afk

open Py

/-! ## State -/

inductive IssueStatus where
  | queued
  | claimed
  | running
  | prOpen
  | autofixing
  | merged
  | commented
  | humanReview
  | failed
  deriving DecidableEq, Repr

def IssueStatus.value : IssueStatus → Text
  | .queued => "queued".toList
  | .claimed => "claimed".toList
  | .running => "running".toList
  | .prOpen => "pr_open".toList
  | .autofixing => "autofixing".toList
  | .merged => "merged".toList
  | .commented => "commented".toList
  | .humanReview => "human_review".toList
  | .failed => "failed".toList

def IssueStatus.all : List IssueStatus :=
  [.queued, .claimed, .running, .prOpen, .autofixing, .merged, .commented, .humanReview, .failed]

/-- A value that was retired since is read as `human_review`. -/
def coerceIssueStatus (value : Text) : IssueStatus :=
  (IssueStatus.all.find? fun s => s.value = value).getD .humanReview

theorem coerceIssueStatus_value (s : IssueStatus) : coerceIssueStatus s.value = s := by
  cases s <;> decide

structure IssueState where
  number : Int
  title : Text
  url : Text
  status : IssueStatus := .queued
  pr : Option Int := none
  slot : Option Int := none
  retries : Int := 0
  reviewRounds : Int := 0
  error : Option Text := none
  costUsd : ℚ := 0
  blockedBy : List Int := []
  deriving DecidableEq

structure AfkState where
  issues : Dict Int IssueState
  slots : Dict Int (Option Int)
  concurrency : Int := 2
  maxRetries : Int := 2
  completed : Int := 0
  failed : Int := 0

/-! ## Actions -/

inductive Action where
  | enqueueIssue (number : Int) (title url : Text) (blockedBy : List Int)
  | setBlockedBy (number : Int) (blockedBy : List Int)
  | claimIssue (number slot : Int)
  | releaseIssue (number : Int)
  | setStatus (number : Int) (status : IssueStatus)
  | setPr (number pr : Int)
  | recordFailure (number : Int) (error : Option Text)
  | recordCost (number : Int) (costUsd : ℚ)
  | incrementReviewRound (number : Int)
  | freeSlot (slot : Int)
  | requeueIssue (number : Int)
  deriving DecidableEq

/-! ## Reducer -/

/-- What `reduce` raises. -/
inductive ReduceError where
  | keyError (msg : Text)
  | valueError (msg : Text)
  deriving DecidableEq, Repr

/-- `_require`. -/
def require (state : AfkState) (number : Int) : Except ReduceError IssueState :=
  match state.issues.get number with
  | none => .error (.keyError ("unknown issue #".toList ++ intText number))
  | some issue => .ok issue

/-- The slots once that of the issue is free. -/
def freed (slots : Dict Int (Option Int)) (issue : IssueState) : Dict Int (Option Int) :=
  match issue.slot with
  | none => slots
  | some slot => slots.set slot none

def IssueStatus.isTerminal (status : IssueStatus) : Bool :=
  status = .merged || status = .commented || status = .humanReview || status = .failed

def reduce (state : AfkState) : Action → Except ReduceError AfkState
  | .enqueueIssue number title url blockedBy =>
    match state.issues.get number with
    | some _ => .ok state
    | none => .ok { state with
        issues := state.issues.set number { number, title, url, blockedBy } }
  | .setBlockedBy number blockedBy =>
    match state.issues.get number with
    | none => .ok state
    | some issue =>
      if issue.blockedBy = blockedBy then .ok state
      else .ok { state with issues := state.issues.set number { issue with blockedBy } }
  | .claimIssue number slot => do
    let issue ← require state number
    if issue.status ≠ .queued then
      .error (.valueError ("cannot claim issue #".toList ++ intText number ++
        ": status is ".toList ++ issue.status.value))
    else if (state.slots.get slot).join.isSome then
      .error (.valueError ("slot ".toList ++ intText slot ++ " is already occupied".toList))
    else .ok { state with
      slots := state.slots.set slot (some number)
      issues := state.issues.set number { issue with status := .claimed, slot := some slot } }
  | .releaseIssue number => do
    let issue ← require state number
    .ok { state with
      slots := freed state.slots issue
      issues := state.issues.set number { issue with status := .queued, slot := none } }
  | .setStatus number status => do
    let issue ← require state number
    .ok { state with
      slots := if status.isTerminal then freed state.slots issue else state.slots
      issues := state.issues.set number
        { issue with status := status, slot := if status.isTerminal then none else issue.slot }
      completed := if status = .merged then state.completed + 1 else state.completed }
  | .setPr number pr => do
    let issue ← require state number
    .ok { state with issues := state.issues.set number { issue with pr := some pr } }
  | .recordCost number costUsd => do
    let issue ← require state number
    .ok { state with issues := state.issues.set number { issue with costUsd } }
  | .recordFailure number error => do
    let issue ← require state number
    let exhausted := state.maxRetries ≤ issue.retries + 1
    .ok { state with
      slots := freed state.slots issue
      issues := state.issues.set number
        { issue with
          retries := issue.retries + 1
          status := if exhausted then .humanReview else .queued
          slot := none
          error := error }
      failed := if exhausted then state.failed + 1 else state.failed }
  | .incrementReviewRound number => do
    let issue ← require state number
    .ok { state with
      issues := state.issues.set number { issue with reviewRounds := issue.reviewRounds + 1 } }
  | .freeSlot slot => .ok { state with slots := state.slots.set slot none }
  | .requeueIssue number => do
    let issue ← require state number
    .ok { state with
      slots := freed state.slots issue
      issues := state.issues.set number
        { issue with status := .queued, slot := none, retries := 0, reviewRounds := 0,
                     error := none }
      completed := if issue.status = .merged then max 0 (state.completed - 1) else state.completed
      failed :=
        if issue.status = .humanReview then max 0 (state.failed - 1) else state.failed }

/-! ## The cost decides nothing -/

def IssueState.forgetCost (issue : IssueState) : IssueState := { issue with costUsd := 0 }

def AfkState.forgetCost (state : AfkState) : AfkState :=
  { state with issues := state.issues.mapValues IssueState.forgetCost }

theorem get_forgetCost (state : AfkState) (number : Int) :
    state.forgetCost.issues.get number =
      (state.issues.get number).map IssueState.forgetCost :=
  Dict.get_mapValues _ _ _

theorem set_forgetCost (state : AfkState) (number : Int) (issue : IssueState) :
    (state.issues.set number issue).mapValues IssueState.forgetCost =
      state.forgetCost.issues.set number issue.forgetCost :=
  Dict.set_mapValues _ _ _ _

theorem require_forgetCost (state : AfkState) (number : Int) :
    require state.forgetCost number = (require state number).map IssueState.forgetCost := by
  unfold require
  rw [get_forgetCost]
  cases state.issues.get number <;> rfl

/-- A state that is built from a required issue. -/
theorem require_bind_forgetCost (state : AfkState) (number : Int)
    (f g : IssueState → Except ReduceError AfkState)
    (h : ∀ issue, g issue.forgetCost = (f issue).map AfkState.forgetCost) :
    (require state.forgetCost number >>= g) =
      (require state number >>= f).map AfkState.forgetCost := by
  rw [require_forgetCost]
  cases require state number with
  | error e => rfl
  | ok issue => exact h issue

/-- **The cost decides nothing.** Every action but `RecordCost` does to a state without its costs
what it does to the state. -/
theorem reduce_forgetCost (state : AfkState) (action : Action)
    (h : ∀ number costUsd, action ≠ .recordCost number costUsd) :
    reduce state.forgetCost action = (reduce state action).map AfkState.forgetCost := by
  cases action with
  | enqueueIssue number title url blockedBy =>
    simp only [reduce, get_forgetCost]
    cases state.issues.get number with
    | some issue => rfl
    | none =>
      simp only [Option.map_none, Except.map, AfkState.forgetCost, set_forgetCost]
      rfl
  | setBlockedBy number blockedBy =>
    simp only [reduce, get_forgetCost]
    cases state.issues.get number with
    | none => rfl
    | some issue =>
      show (if issue.blockedBy = blockedBy then _ else _) =
        Except.map AfkState.forgetCost (if issue.blockedBy = blockedBy then _ else _)
      by_cases hsame : issue.blockedBy = blockedBy
      · rw [if_pos hsame, if_pos hsame]
        rfl
      · rw [if_neg hsame, if_neg hsame]
        simp only [Except.map, AfkState.forgetCost, set_forgetCost]
        rfl
  | claimIssue number slot =>
    refine require_bind_forgetCost state number _ _ ?_
    intro issue
    show (if issue.status ≠ .queued then _ else _) =
      Except.map AfkState.forgetCost (if issue.status ≠ .queued then _ else _)
    by_cases hstatus : issue.status ≠ .queued
    · rw [if_pos hstatus, if_pos hstatus]
      rfl
    · rw [if_neg hstatus, if_neg hstatus]
      by_cases hslot : (state.slots.get slot).join.isSome
      · rw [if_pos hslot, if_pos (by exact hslot)]
        rfl
      · rw [if_neg hslot, if_neg (by exact hslot)]
        simp only [Except.map, AfkState.forgetCost, set_forgetCost]
        rfl
  | recordCost number costUsd => exact absurd rfl (h number costUsd)
  | freeSlot slot => rfl
  | releaseIssue number =>
    refine require_bind_forgetCost state number _ _ fun issue => ?_
    simp only [Except.map, AfkState.forgetCost, set_forgetCost]
    rfl
  | setStatus number status =>
    refine require_bind_forgetCost state number _ _ fun issue => ?_
    simp only [Except.map, AfkState.forgetCost, set_forgetCost]
    rfl
  | setPr number pr =>
    refine require_bind_forgetCost state number _ _ fun issue => ?_
    simp only [Except.map, AfkState.forgetCost, set_forgetCost]
    rfl
  | recordFailure number error =>
    refine require_bind_forgetCost state number _ _ fun issue => ?_
    simp only [Except.map, AfkState.forgetCost, set_forgetCost]
    rfl
  | incrementReviewRound number =>
    refine require_bind_forgetCost state number _ _ fun issue => ?_
    simp only [Except.map, AfkState.forgetCost, set_forgetCost]
    rfl
  | requeueIssue number =>
    refine require_bind_forgetCost state number _ _ fun issue => ?_
    simp only [Except.map, AfkState.forgetCost, set_forgetCost]
    rfl

end Agentrail.Afk
