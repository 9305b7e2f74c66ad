import Mathlib.Algebra.BigOperators.Group.Finset.Piecewise
import Mathlib.Algebra.Order.BigOperators.Group.List
import Agentrail.Goals.LedgerIntegrity

/-!
# A goal stops (`goal_rules.ts`, `goals.ts`)

Operations that come one after another: an issue is filed when `canFileNextIssue`
allows it, an outcome is applied with `decideGoalTransition`, a human may stop a
goal at any time.

`goal_stops`: the issues that a run files are those that the goals count, and no
goal counts more than its limit; a goal that left `active` is out of reach of
filings and outcomes; and an outcome follows the first rule of `precedence` that
applies.
-/

namespace Agentrail.Goals

open Js Interleaving

/-! ## The rules and their precedence -/

inductive StopRule where
  | reached
  | leashed
  | stuck
  | refill
  deriving DecidableEq, Repr

namespace StopRule

/-- What the rule asks for. -/
def applies (state : GoalLeashState) (event : GoalOutcomeEvent) : StopRule → Bool
  | .reached => checkReached state event
  | .leashed => state.maxIssues ≤ state.issuesFiled || state.maxSpendUsd ≤ spendUsdAfter state event
  | .stuck => state.stuckThreshold ≤ consecutiveNonGreenAfter state event
  | .refill => true

def status : StopRule → GoalStatus
  | .reached => .reached
  | .leashed => .leashed
  | .stuck => .paused
  | .refill => .active

def action : StopRule → GoalAction
  | .reached => .reached
  | .leashed => .escalateLeashed
  | .stuck => .escalateStuck
  | .refill => .refill

/-- How its reason begins. -/
def opening : StopRule → Text
  | .reached => "check reached: ".toList
  | .leashed => "leash exhausted: ".toList
  | .stuck => "stuck: ".toList
  | .refill => "goal still active".toList

end StopRule

/-- `REACHED > LEASHED > STUCK > refill`. -/
def precedence : List StopRule := [.reached, .leashed, .stuck, .refill]

/-- The decision is that of the rule. -/
structure DecidedBy (rule : StopRule) (decision : GoalTransitionResult) : Prop where
  status : decision.nextStatus = rule.status
  action : decision.action = rule.action
  reason : rule.opening <+: decision.reason

/-- The first rule of the precedence that applies decides on an active goal. -/
theorem decide_precedence (state : GoalLeashState) (event : GoalOutcomeEvent)
    (h : state.status = .active) :
    ∃ rule, precedence.find? (StopRule.applies state event) = some rule ∧
      DecidedBy rule (decideGoalTransition state event) := by
  unfold decideGoalTransition
  rw [if_neg (not_not_intro h)]
  by_cases hreached : checkReached state event
  · have hfirst : StopRule.applies state event .reached = true := hreached
    refine ⟨.reached, List.find?_cons_of_pos hfirst, ?_⟩
    rw [if_pos hreached]
    refine ⟨rfl, rfl, ?_⟩
    show StopRule.reached.opening <+: StopRule.reached.opening ++ _ ++ _ ++ _ ++ _
    rw [List.append_assoc, List.append_assoc, List.append_assoc]
    exact List.prefix_append _ _
  have hfirst : ¬ StopRule.applies state event .reached = true := hreached
  rw [if_neg hreached, precedence, List.find?_cons_of_neg hfirst]
  by_cases hleashed : state.maxIssues ≤ state.issuesFiled ∨
      state.maxSpendUsd ≤ spendUsdAfter state event
  · have hsecond : StopRule.applies state event .leashed = true := by
      simpa [StopRule.applies] using hleashed
    refine ⟨.leashed, List.find?_cons_of_pos hsecond, ?_⟩
    rw [if_pos hleashed]
    refine ⟨rfl, rfl, ?_⟩
    by_cases hissues : state.maxIssues ≤ state.issuesFiled
    · have hopens : "leash exhausted: issues filed ".toList =
          StopRule.leashed.opening ++ "issues filed ".toList := by decide
      simp only [if_pos hissues, hopens, List.append_assoc]
      exact List.prefix_append _ _
    · have hopens : "leash exhausted: spend $".toList =
          StopRule.leashed.opening ++ "spend $".toList := by decide
      simp only [if_neg hissues, hopens, List.append_assoc]
      exact List.prefix_append _ _
  have hsecond : ¬ StopRule.applies state event .leashed = true := by
    simpa [StopRule.applies] using hleashed
  rw [if_neg hleashed, List.find?_cons_of_neg hsecond]
  by_cases hstuck : state.stuckThreshold ≤ consecutiveNonGreenAfter state event
  · have hthird : StopRule.applies state event .stuck = true := decide_eq_true hstuck
    refine ⟨.stuck, List.find?_cons_of_pos hthird, ?_⟩
    rw [if_pos hstuck]
    refine ⟨rfl, rfl, ?_⟩
    show StopRule.stuck.opening <+: StopRule.stuck.opening ++ _ ++ _ ++ _ ++ _
    rw [List.append_assoc, List.append_assoc, List.append_assoc]
    exact List.prefix_append _ _
  · have hthird : ¬ StopRule.applies state event .stuck = true := by
      simpa [StopRule.applies] using hstuck
    refine ⟨.refill, ?_, ?_⟩
    · rw [List.find?_cons_of_neg hthird]
      rfl
    · rw [if_neg hstuck]
      have hopens : StopRule.refill.opening <+:
          "goal still active; leash remains and the stuck threshold is not met".toList := by decide
      exact ⟨rfl, rfl, hopens⟩

/-! ## Operations, one after another -/

/-- An issue is filed toward a goal: the leash is asked, and what was filed is recorded.  The answer
is whether it was filed. -/
def fileIssue (goalId issueExternalId : Text) : Prog Stmt Bool := do
  let check ← goalCanFileNextIssue goalId
  if check.allow then do
    let _ ← recordIssueFiled goalId issueExternalId
    pure true
  else pure false

inductive SequentialOp where
  | create (input : CreateGoalInput) (id : Text)
  | file (goalId issueExternalId : Text)
  | outcome (input : RecordOutcomeInput) (scan : GoalEvent → Nat)
  | stop (goalId : Text) (status : ManualStatus) (reason : Text)
  /-- the clock goes on -/
  | wait (time : Nat)

/-- A human stops this goal. -/
def SequentialOp.stops (goalId : Text) : SequentialOp → Bool
  | .stop id _ _ => id = goalId
  | _ => false

structure GoalRun where
  store : Store
  /-- the issues that were filed, with their goals -/
  filed : List (Text × Text)

def GoalRun.start (now : Int) : GoalRun := { store := emptyStore now, filed := [] }

def perform (r : GoalRun) : SequentialOp → GoalRun
  | .create input id => { r with store := ((createGoal input id).alone Stmt.exec r.store).2 }
  | .file goalId issueExternalId =>
    let answer := (fileIssue goalId issueExternalId).alone Stmt.exec r.store
    { store := answer.2
      filed := if answer.1 then (goalId, issueExternalId) :: r.filed else r.filed }
  | .outcome input scan =>
    { r with store := ((recordOutcomeAndTransition input scan).alone Stmt.exec r.store).2 }
  | .stop goalId status reason =>
    { r with store := ((setGoalStatus goalId status reason).alone Stmt.exec r.store).2 }
  | .wait time => { r with store := { r.store with now := r.store.now + time } }

def goalRun (now : Int) (ops : List SequentialOp) : GoalRun := ops.foldl perform (.start now)

/-! ## What an operation does to the store -/

theorem canFileNextIssue_allow (status : GoalStatus) (issuesFiled : Nat) (maxIssues : Int)
    (spendUsd maxSpendUsd : ℚ)
    (h : (canFileNextIssue status issuesFiled maxIssues spendUsd maxSpendUsd).allow = true) :
    status = .active ∧ (issuesFiled : Int) < maxIssues ∧ spendUsd < maxSpendUsd := by
  unfold canFileNextIssue at h
  by_cases hactive : status = .active
  · rw [if_neg (not_not_intro hactive)] at h
    by_cases hissues : maxIssues ≤ issuesFiled
    · rw [if_pos hissues] at h
      cases h
    · rw [if_neg hissues] at h
      by_cases hspend : maxSpendUsd ≤ spendUsd
      · rw [if_pos hspend] at h
        cases h
      · exact ⟨hactive, not_le.mp hissues, not_le.mp hspend⟩
  · rw [if_pos hactive] at h
    cases h

/-! A select leaves the store as it is. -/

theorem exec_selectGoal (s : Store) (id : Text) :
    (Stmt.exec (.selectGoal id) s).2 = s := rfl

theorem exec_selectIssueFiled (s : Store) (workspaceId issueExternalId : Text)
    (scan : GoalEvent → Nat) :
    (Stmt.exec (.selectIssueFiled workspaceId issueExternalId scan) s).2 = s := rfl

/-- The goal that a select by id finds. -/
theorem selectGoal_spec (s : Store) (id : Text) (g : GoalRow)
    (h : (Stmt.exec (.selectGoal id) s).1 = some g) :
    g ∈ s.goals.rows ∧ g.id = id ∧ s.hasGoal id := by
  have hmem := (s.goals.mem_select _ g).mp (List.mem_of_head? h)
  refine ⟨hmem.1, of_decide_eq_true hmem.2, ?_⟩
  exact List.any_eq_true.mpr ⟨g, hmem.1, hmem.2⟩

theorem goalCanFileNextIssue_alone (goalId : Text) (s : Store) :
    (goalCanFileNextIssue goalId).alone Stmt.exec s =
      (match (Stmt.exec (.selectGoal goalId) s).1 with
        | none => ⟨false, "goal not found".toList⟩
        | some g => canFileNextIssue g.status g.issuesFiled g.maxIssues g.spendUsd g.maxSpendUsd,
        s) := by
  unfold goalCanFileNextIssue getGoalById
  rw [Prog.alone_stmt_bind]
  cases (Stmt.exec (.selectGoal goalId) s).1 <;> rfl

theorem recordIssueFiled_alone (goalId issueExternalId : Text) (s : Store) (g : GoalRow)
    (hselect : (Stmt.exec (.selectGoal goalId) s).1 = some g) :
    (recordIssueFiled goalId issueExternalId).alone Stmt.exec s =
      Stmt.exec (.commitIssueFiled g issueExternalId) s := by
  unfold recordIssueFiled
  rw [Prog.alone_stmt_bind, hselect]
  rfl

/-- A filing that is refused does nothing; one that is allowed is counted. -/
theorem fileIssue_alone (goalId issueExternalId : Text) (s : Store)
    (hlimit : ∀ g ∈ s.goals.rows, g.maxIssues < INTEGER_LIMIT) :
    (fileIssue goalId issueExternalId).alone Stmt.exec s = (false, s) ∨
      ∃ g ∈ s.goals.rows, g.id = goalId ∧ g.status = .active ∧ (g.issuesFiled : Int) < g.maxIssues ∧
        (fileIssue goalId issueExternalId).alone Stmt.exec s =
          (true, s.commit g.id (filedRow g s.now) (fun _ => rfl)
            [issueFiledEvent g issueExternalId s.now]) := by
  unfold fileIssue
  rw [Prog.alone_bind, goalCanFileNextIssue_alone]
  dsimp only
  cases hselect : (Stmt.exec (.selectGoal goalId) s).1 with
  | none => exact .inl rfl
  | some g =>
    dsimp only
    split
    · next hallow =>
      right
      obtain ⟨hg, hid, hgoal⟩ := selectGoal_spec s goalId g hselect
      obtain ⟨hactive, hissues, -⟩ := canFileNextIssue_allow _ _ _ _ _ hallow
      refine ⟨g, hg, hid, hactive, hissues, ?_⟩
      rw [Prog.alone_bind, recordIssueFiled_alone goalId issueExternalId s g hselect]
      have hfits : (s.hasGoal g.id && fitsInteger (g.issuesFiled + 1)) = true := by
        have := hlimit g hg
        rw [hid, hgoal]
        unfold fitsInteger
        simp only [Bool.true_and, Bool.and_eq_true, decide_eq_true_eq]
        unfold INTEGER_LIMIT at this ⊢
        omega
      simp only [Stmt.exec]
      rw [if_pos hfits]
      rfl
    · exact .inl rfl

/-- What the lookup of an outcome finds is an active goal. -/
theorem findActiveGoal_alone (workspaceId issueExternalId : Text) (scan : GoalEvent → Nat)
    (s : Store) :
    (findActiveGoalForIssue workspaceId issueExternalId scan).alone Stmt.exec s = (none, s) ∨
      ∃ goalId g, (Stmt.exec (.selectGoal goalId) s).1 = some g ∧ g.status = .active ∧
        (findActiveGoalForIssue workspaceId issueExternalId scan).alone Stmt.exec s =
          (some g, s) := by
  unfold findActiveGoalForIssue getGoalById
  rw [Prog.alone_stmt_bind]
  cases (Stmt.exec (.selectIssueFiled workspaceId issueExternalId scan) s).1 with
  | none => exact .inl rfl
  | some event =>
    dsimp only
    rw [Prog.alone_stmt_bind, exec_selectIssueFiled]
    cases hselect : (Stmt.exec (.selectGoal event.goalId) s).1 with
    | none => exact .inl rfl
    | some g =>
      rw [Option.filter_some]
      by_cases hactive : g.status = .active
      · rw [if_pos (decide_eq_true hactive)]
        exact .inr ⟨event.goalId, g, hselect, hactive, rfl⟩
      · rw [if_neg (by simpa using hactive)]
        exact .inl rfl

/-- An outcome finds no active goal, or does not fit, and does nothing; or it writes its decision on
an active goal. -/
theorem recordOutcome_alone (input : RecordOutcomeInput) (scan : GoalEvent → Nat) (s : Store) :
    ((recordOutcomeAndTransition input scan).alone Stmt.exec s).2 = s ∨
      ∃ g ∈ s.goals.rows, g.status = .active ∧
        ((recordOutcomeAndTransition input scan).alone Stmt.exec s).2 =
          s.commit g.id (decidedRow (decision g input) s.now) (fun _ => rfl)
            (outcomeEvents g input s.now) := by
  unfold recordOutcomeAndTransition
  rw [Prog.alone_bind]
  rcases findActiveGoal_alone input.workspaceId input.issueExternalId scan s with
    hnone | ⟨goalId, g, hselect, hactive, hfound⟩
  · rw [hnone]
    exact .inl rfl
  · rw [hfound]
    obtain ⟨hg, hid, -⟩ := selectGoal_spec s goalId g hselect
    dsimp only
    rw [Prog.alone_stmt_bind, hid, hselect]
    dsimp only
    rw [Prog.alone_stmt_bind, exec_selectGoal]
    by_cases hfits : (s.hasGoal g.id && outcomeFits g input) = true
    · have hexec : Stmt.exec (.commitOutcome g input) s =
          (true, s.commit g.id (decidedRow (decision g input) s.now) (fun _ => rfl)
            (outcomeEvents g input s.now)) := if_pos hfits
      rw [hexec]
      exact .inr ⟨g, hg, hactive, rfl⟩
    · have hexec : Stmt.exec (.commitOutcome g input) s = (false, s) := if_neg hfits
      rw [hexec]
      exact .inl rfl

theorem setGoalStatus_alone (goalId reason : Text) (status : ManualStatus) (s : Store) :
    ((setGoalStatus goalId status reason).alone Stmt.exec s).2 = s ∨
      ∃ g ∈ s.goals.rows, g.id = goalId ∧
        ((setGoalStatus goalId status reason).alone Stmt.exec s).2 =
          s.commit g.id (stoppedRow status.toGoalStatus reason s.now) (fun _ => rfl)
            [statusEvent g g.workspaceId status.toGoalStatus reason s.now] := by
  unfold setGoalStatus
  rw [Prog.alone_stmt_bind]
  cases hselect : (Stmt.exec (.selectGoal goalId) s).1 with
  | none => exact .inl rfl
  | some g =>
    obtain ⟨hg, hid, hgoal⟩ := selectGoal_spec s goalId g hselect
    refine .inr ⟨g, hg, hid, ?_⟩
    show (Stmt.exec (.commitStatus g status reason) s).2 = _
    simp only [Stmt.exec]
    rw [hid, if_pos hgoal]

theorem createGoal_alone (input : CreateGoalInput) (id : Text) (s : Store) :
    ((createGoal input id).alone Stmt.exec s).2 = s ∨
      ∃ goals, goalFits input ∧ s.goals.insert (newGoal input id s.now) = some goals ∧
        ((createGoal input id).alone Stmt.exec s).2 = { s with goals := goals } := by
  show (Stmt.exec (.insertGoal input id) s).2 = s ∨ ∃ goals, _ ∧ _ ∧
    (Stmt.exec (.insertGoal input id) s).2 = _
  simp only [Stmt.exec]
  by_cases hfits : goalFits input = true
  · rw [if_pos hfits]
    cases hinsert : s.goals.insert (newGoal input id s.now) with
    | none => exact .inl rfl
    | some goals => exact .inr ⟨goals, hfits, rfl, rfl⟩
  · rw [if_neg hfits]
    exact .inl rfl

/-! ## What an operation does to a run -/

/-- **The effect of an operation.** It changes nothing but the clock, creates a goal, files an issue
toward an active goal that has one left, decides on an active goal, or stops a goal for a human. -/
inductive Performed (r : GoalRun) : SequentialOp → GoalRun → Prop
  | kept {op} (now : Int) : Performed r op { r with store := { r.store with now := now } }
  | created {input id goals} : goalFits input →
      r.store.goals.insert (newGoal input id r.store.now) = some goals →
      Performed r (.create input id) { r with store := { r.store with goals := goals } }
  | filed {g issueExternalId} : g ∈ r.store.goals.rows → g.status = .active →
      (g.issuesFiled : Int) < g.maxIssues → Performed r (.file g.id issueExternalId)
        { store := r.store.commit g.id (filedRow g r.store.now) (fun _ => rfl)
            [issueFiledEvent g issueExternalId r.store.now]
          filed := (g.id, issueExternalId) :: r.filed }
  | decided {g input scan} : g ∈ r.store.goals.rows → g.status = .active →
      Performed r (.outcome input scan) { r with
        store := r.store.commit g.id (decidedRow (decision g input) r.store.now) (fun _ => rfl)
          (outcomeEvents g input r.store.now) }
  | stopped {g status reason} : g ∈ r.store.goals.rows →
      Performed r (.stop g.id status reason) { r with
        store := r.store.commit g.id (stoppedRow status.toGoalStatus reason r.store.now)
          (fun _ => rfl) [statusEvent g g.workspaceId status.toGoalStatus reason r.store.now] }

theorem perform_spec (r : GoalRun) (op : SequentialOp)
    (hlimit : ∀ g ∈ r.store.goals.rows, g.maxIssues < INTEGER_LIMIT) :
    Performed r op (perform r op) := by
  cases op with
  | create input id =>
    show Performed r _ { r with store := ((createGoal input id).alone Stmt.exec r.store).2 }
    rcases createGoal_alone input id r.store with hkept | ⟨goals, hfits, hinsert, hnew⟩
    · rw [hkept]
      exact .kept r.store.now
    · rw [hnew]
      exact .created hfits hinsert
  | file goalId issueExternalId =>
    simp only [perform]
    rcases fileIssue_alone goalId issueExternalId r.store hlimit with
      hkept | ⟨g, hg, rfl, hactive, hissues, hfiled⟩
    · rw [hkept]
      exact .kept r.store.now
    · rw [hfiled]
      exact .filed hg hactive hissues
  | outcome input scan =>
    simp only [perform]
    rcases recordOutcome_alone input scan r.store with hkept | ⟨g, hg, hactive, hdecided⟩
    · rw [hkept]
      exact .kept r.store.now
    · rw [hdecided]
      exact .decided hg hactive
  | stop goalId status reason =>
    simp only [perform]
    rcases setGoalStatus_alone goalId reason status r.store with hkept | ⟨g, hg, rfl, hstopped⟩
    · rw [hkept]
      exact .kept r.store.now
    · rw [hstopped]
      exact .stopped hg
  | wait time => exact .kept _

/-! ## The leash holds -/

/-- The number of issues that a run filed toward a goal. -/
def GoalRun.filings (r : GoalRun) (goalId : Text) : Nat := r.filed.countP fun f => f.1 = goalId

/-- What every run keeps: each goal counts its filings, within its limit. -/
structure OnLeash (r : GoalRun) : Prop where
  limited : ∀ g ∈ r.store.goals.rows, g.maxIssues < INTEGER_LIMIT
  leashed : ∀ g ∈ r.store.goals.rows, (g.issuesFiled : Int) ≤ max 0 g.maxIssues
  counted : ∀ g ∈ r.store.goals.rows, r.filings g.id = g.issuesFiled
  owned : ∀ f ∈ r.filed, ∃ g ∈ r.store.goals.rows, g.id = f.1

theorem onLeash_start (now : Int) : OnLeash (.start now) :=
  ⟨List.forall_mem_nil _, List.forall_mem_nil _, List.forall_mem_nil _, List.forall_mem_nil _⟩

/-- A commit that files nothing. -/
theorem onLeash_commit (r : GoalRun) (id : Text) (f : GoalRow → GoalRow)
    (hf : ∀ g, (f g).id = g.id) (events : List GoalEvent) (h : OnLeash r)
    (hmax : ∀ g, (f g).maxIssues = g.maxIssues) (hissues : ∀ g, (f g).issuesFiled = g.issuesFiled) :
    OnLeash { r with store := r.store.commit id f hf events } := by
  refine ⟨?_, ?_, ?_, ?_⟩
  · intro g' hg'
    obtain ⟨g, hg, -, ⟨-, rfl⟩ | ⟨-, rfl⟩⟩ := mem_commit r.store id f hf events g' hg'
    · rw [hmax]
      exact h.limited g hg
    · exact h.limited g' hg
  · intro g' hg'
    obtain ⟨g, hg, -, ⟨-, rfl⟩ | ⟨-, rfl⟩⟩ := mem_commit r.store id f hf events g' hg'
    · rw [hmax, hissues]
      exact h.leashed g hg
    · exact h.leashed g' hg
  · intro g' hg'
    obtain ⟨g, hg, hid, ⟨-, rfl⟩ | ⟨-, rfl⟩⟩ := mem_commit r.store id f hf events g' hg'
    · rw [hid, hissues]
      exact h.counted g hg
    · exact h.counted g' hg
  · intro x hx
    obtain ⟨g, hg, hid⟩ := h.owned x hx
    obtain ⟨g', hg', hid'⟩ := exists_commit r.store id f hf events g hg
    exact ⟨g', hg', hid'.trans hid⟩

theorem onLeash_created (r : GoalRun) (input : CreateGoalInput) (id : Text) (goals : GoalTable)
    (h : OnLeash r) (hfits : goalFits input)
    (hinsert : r.store.goals.insert (newGoal input id r.store.now) = some goals) :
    OnLeash { r with store := { r.store with goals := goals } } := by
  have hrows := Table.rows_insert _ _ _ hinsert
  have hfresh := insert_fresh _ _ _ hinsert
  have hnew : ∀ g, g ∈ goals.rows ↔ g ∈ r.store.goals.rows ∨ g = newGoal input id r.store.now := by
    intro g
    rw [hrows, List.mem_append, List.mem_singleton]
  refine ⟨?_, ?_, ?_, ?_⟩
  · intro g hg
    rcases (hnew g).mp hg with hg | rfl
    · exact h.limited g hg
    · unfold goalFits fitsInteger at hfits
      simp only [Bool.and_eq_true, decide_eq_true_eq] at hfits
      exact hfits.1.1.2.2
  · intro g hg
    rcases (hnew g).mp hg with hg | rfl
    · exact h.leashed g hg
    · exact le_max_left _ _
  · intro g hg
    rcases (hnew g).mp hg with hg | rfl
    · exact h.counted g hg
    · refine List.countP_eq_zero.mpr ?_
      intro f hf
      obtain ⟨g, hg, hid⟩ := h.owned f hf
      simp only [decide_eq_true_eq]
      exact fun hsame => hfresh (List.mem_map.mpr ⟨g, hg, hid.trans hsame⟩)
  · intro f hf
    obtain ⟨g, hg, hid⟩ := h.owned f hf
    exact ⟨g, (hnew g).mpr (.inl hg), hid⟩

theorem onLeash_filed (r : GoalRun) (g : GoalRow) (issueExternalId : Text) (h : OnLeash r)
    (hg : g ∈ r.store.goals.rows) (hissues : (g.issuesFiled : Int) < g.maxIssues) :
    OnLeash
      { store := r.store.commit g.id (filedRow g r.store.now) (fun _ => rfl)
          [issueFiledEvent g issueExternalId r.store.now]
        filed := (g.id, issueExternalId) :: r.filed } := by
  have hrows := mem_commit r.store g.id (filedRow g r.store.now) (fun _ => rfl)
    [issueFiledEvent g issueExternalId r.store.now]
  have hone : ∀ g' ∈ r.store.goals.rows, g'.id = g.id → g' = g :=
    fun g' hg' hid => GoalTable.eq_of_id _ g' g hg' hg hid
  refine ⟨?_, ?_, ?_, ?_⟩
  · intro g' hg'
    obtain ⟨g₀, hg₀, -, ⟨-, rfl⟩ | ⟨-, rfl⟩⟩ := hrows g' hg'
    · exact h.limited g₀ hg₀
    · exact h.limited g' hg₀
  · intro g' hg'
    obtain ⟨g₀, hg₀, -, ⟨hid, rfl⟩ | ⟨-, rfl⟩⟩ := hrows g' hg'
    · rw [hone g₀ hg₀ hid]
      show ((g.issuesFiled + 1 : Nat) : Int) ≤ max 0 g.maxIssues
      have := le_max_right 0 g.maxIssues
      push_cast
      omega
    · exact h.leashed g' hg₀
  · intro g' hg'
    obtain ⟨g₀, hg₀, hsame, ⟨hid, rfl⟩ | ⟨hid, rfl⟩⟩ := hrows g' hg'
    · rw [hsame, hid]
      show List.countP _ (_ :: r.filed) = g.issuesFiled + 1
      rw [List.countP_cons_of_pos (by simp)]
      exact congrArg (· + 1) (h.counted g hg)
    · show List.countP _ (_ :: r.filed) = g'.issuesFiled
      rw [List.countP_cons_of_neg (by simpa using Ne.symm hid)]
      exact h.counted g' hg₀
  · intro f hf
    have hold : ∃ g₀ ∈ r.store.goals.rows, g₀.id = f.1 := by
      rcases List.mem_cons.mp hf with rfl | hf
      · exact ⟨g, hg, rfl⟩
      · exact h.owned f hf
    obtain ⟨g₀, hg₀, hid⟩ := hold
    obtain ⟨g', hg', hid'⟩ := exists_commit r.store g.id (filedRow g r.store.now) (fun _ => rfl)
      [issueFiledEvent g issueExternalId r.store.now] g₀ hg₀
    exact ⟨g', hg', hid'.trans hid⟩

theorem onLeash_perform (r : GoalRun) (op : SequentialOp) (h : OnLeash r) :
    OnLeash (perform r op) := by
  have hperformed := perform_spec r op h.limited
  generalize perform r op = r' at hperformed
  cases hperformed with
  | kept now => exact ⟨h.limited, h.leashed, h.counted, h.owned⟩
  | created hfits hinsert => exact onLeash_created r _ _ _ h hfits hinsert
  | filed hg _ hissues => exact onLeash_filed r _ _ h hg hissues
  | decided => exact onLeash_commit r _ _ _ _ h (fun _ => rfl) fun _ => rfl
  | stopped => exact onLeash_commit r _ _ _ _ h (fun _ => rfl) fun _ => rfl

theorem onLeash_run (now : Int) (ops : List SequentialOp) : OnLeash (goalRun now ops) :=
  List.foldlRecOn ops perform (onLeash_start now) fun r h op _ => onLeash_perform r op h

/-- Each element has one of the keys, so counting by key counts them all. -/
theorem sum_countP_eq_length {ι α : Type} [DecidableEq ι] (key : α → ι) (keys : List ι)
    (hkeys : keys.Nodup) (l : List α) (h : ∀ a ∈ l, key a ∈ keys) :
    (keys.map fun k => l.countP fun a => key a = k).sum = l.length := by
  rw [← List.sum_toFinset _ hkeys]
  induction l with
  | nil => exact Finset.sum_const_zero
  | cons a l ih =>
    rw [List.forall_mem_cons] at h
    simp only [List.countP_cons, Finset.sum_add_distrib, ih h.2, decide_eq_true_eq,
      Finset.sum_ite_eq, List.mem_toFinset, if_pos h.1, List.length_cons]

/-- The goals of a run count all issues that it filed. -/
theorem OnLeash.sum_issuesFiled {r : GoalRun} (h : OnLeash r) :
    (r.store.goals.rows.map GoalRow.issuesFiled).sum = r.filed.length := by
  have hsum := sum_countP_eq_length Prod.fst (r.store.goals.rows.map GoalRow.id)
    (r.store.goals.unique GoalRow.id List.mem_cons_self) r.filed (by
      intro f hf
      obtain ⟨g, hg, hid⟩ := h.owned f hf
      exact List.mem_map.mpr ⟨g, hg, hid⟩)
  rw [← hsum, List.map_map]
  congr 1
  exact List.map_congr_left fun g hg => (h.counted g hg).symm

/-- The run has filed no more issues than its goals may. -/
theorem OnLeash.total {r : GoalRun} (h : OnLeash r) :
    r.filed.length ≤ (r.store.goals.rows.map fun g => g.maxIssues.toNat).sum := by
  rw [← h.sum_issuesFiled]
  refine List.sum_le_sum fun g hg => ?_
  have := h.leashed g hg
  omega

/-! ## A goal that was stopped -/

/-- A row that an update does not select. -/
theorem mem_map_of_not {ρ : Type} (rows : List ρ) (p : ρ → Bool) (f : ρ → ρ) (r : ρ)
    (hr : r ∈ rows) (hp : p r = false) : r ∈ rows.map fun r => if p r then f r else r := by
  refine List.mem_map.mpr ⟨r, hr, ?_⟩
  rw [hp]
  rfl

/-- Only a human changes a goal that is not active. -/
theorem perform_stopped (r : GoalRun) (op : SequentialOp) (h : OnLeash r) (g : GoalRow)
    (hg : g ∈ r.store.goals.rows) (hended : g.status ≠ .active) (hop : op.stops g.id = false) :
    g ∈ (perform r op).store.goals.rows := by
  have hother : ∀ g₀ ∈ r.store.goals.rows, g₀.status = .active → g.id ≠ g₀.id := by
    intro g₀ hg₀ hactive hid
    rw [GoalTable.eq_of_id _ g g₀ hg hg₀ hid] at hended
    exact hended hactive
  have hperformed := perform_spec r op h.limited
  generalize perform r op = r' at hperformed
  cases hperformed with
  | kept now => exact hg
  | created _ hinsert =>
    show g ∈ Table.rows _
    rw [Table.rows_insert _ _ _ hinsert]
    exact List.mem_append_left _ hg
  | filed hg₀ hactive | decided hg₀ hactive =>
    exact mem_map_of_not _ _ _ g hg (decide_eq_false (hother _ hg₀ hactive))
  | stopped hg₀ =>
    refine mem_map_of_not _ _ _ g hg (decide_eq_false fun hid => ?_)
    simp [SequentialOp.stops, hid] at hop

theorem run_stopped (r : GoalRun) (ops : List SequentialOp) (h : OnLeash r) (g : GoalRow)
    (hg : g ∈ r.store.goals.rows) (hended : g.status ≠ .active)
    (hops : ∀ op ∈ ops, op.stops g.id = false) :
    g ∈ (ops.foldl perform r).store.goals.rows := by
  suffices hall : OnLeash (ops.foldl perform r) ∧ g ∈ (ops.foldl perform r).store.goals.rows from
    hall.2
  refine List.foldlRecOn ops perform (motive := fun r => OnLeash r ∧ g ∈ r.store.goals.rows)
    ⟨h, hg⟩ ?_
  rintro r' ⟨h', hg'⟩ op hop
  exact ⟨onLeash_perform r' op h', perform_stopped r' op h' g hg' hended (hops op hop)⟩

/-! ## The outcomes -/

/-- The outcome met an active goal, and the first rule that applies decided. -/
def Decided (now : Int) (input : RecordOutcomeInput) (g g' : GoalRow) : Prop :=
  g.status = .active ∧ ∃ rule,
    precedence.find? (StopRule.applies g.leashState ⟨input.outcome, input.costUsd⟩) = some rule ∧
      DecidedBy rule (decision g input) ∧ g' = decidedRow (decision g input) now g

theorem perform_outcome (r : GoalRun) (input : RecordOutcomeInput) (scan : GoalEvent → Nat)
    (g : GoalRow) (hg : g ∈ r.store.goals.rows) :
    ∃ g' ∈ (perform r (.outcome input scan)).store.goals.rows,
      g'.id = g.id ∧ (g' = g ∨ Decided r.store.now input g g') := by
  simp only [perform]
  rcases recordOutcome_alone input scan r.store with hkept | ⟨g₀, hg₀, hactive, hdecided⟩
  · rw [hkept]
    exact ⟨g, hg, rfl, .inl rfl⟩
  rw [hdecided]
  by_cases hid : g.id = g₀.id
  · obtain rfl := GoalTable.eq_of_id _ g g₀ hg hg₀ hid
    refine ⟨decidedRow (decision g input) r.store.now g, List.mem_map.mpr ⟨g, hg, ?_⟩, rfl, .inr ?_⟩
    · rw [if_pos (by simp)]
    · obtain ⟨rule, hfirst, hrule⟩ :=
        decide_precedence g.leashState ⟨input.outcome, input.costUsd⟩ hactive
      exact ⟨hactive, rule, hfirst, hrule, rfl⟩
  · exact ⟨g, mem_map_of_not _ _ _ g hg (decide_eq_false hid), rfl, .inl rfl⟩

/-- **A goal stops.** After every sequence of operations a goal has filed the issues that it counts,
which are within its limit, and all goals together bound what the run filed.  A goal that left
`active` stays as it is, unless a human stops it again.  An outcome leaves a goal alone or follows
the first rule of the precedence. -/
theorem goal_stops (now : Int) (ops later : List SequentialOp) :
    (∀ g ∈ (goalRun now ops).store.goals.rows,
      (g.issuesFiled : Int) ≤ max 0 g.maxIssues ∧
        (goalRun now ops).filings g.id = g.issuesFiled) ∧
      (goalRun now ops).filed.length ≤
        ((goalRun now ops).store.goals.rows.map fun g => g.maxIssues.toNat).sum ∧
      (∀ g ∈ (goalRun now ops).store.goals.rows, g.status ≠ .active →
        (∀ op ∈ later, op.stops g.id = false) →
        g ∈ (goalRun now (ops ++ later)).store.goals.rows) ∧
      ∀ input scan, ∀ g ∈ (goalRun now ops).store.goals.rows,
        ∃ g' ∈ (goalRun now (ops ++ [.outcome input scan])).store.goals.rows,
          g'.id = g.id ∧ (g' = g ∨ Decided (goalRun now ops).store.now input g g') := by
  have hleash := onLeash_run now ops
  refine ⟨?_, hleash.total, ?_, ?_⟩
  · exact fun g hg => ⟨hleash.leashed g hg, hleash.counted g hg⟩
  · intro g hg hended hlater
    unfold goalRun
    rw [List.foldl_append]
    exact run_stopped _ later hleash g hg hended hlater
  · intro input scan g hg
    unfold goalRun
    rw [List.foldl_append]
    exact perform_outcome _ input scan g hg

/-- A goal with one issue: the second filing is refused, and the first outcome ends it. -/
def leashedRun : List SequentialOp :=
  [.create { workspaceId := "w".toList, slug := "g".toList, maxIssues := some 1 } "g".toList,
   .file "g".toList "1".toList, .file "g".toList "2".toList,
   .outcome (outcomeOfIssue .blocked) fun _ => 0]

/-- It has filed one issue, and a green outcome that comes later leaves it as it is. -/
theorem goal_stops_leashed :
    ∃ g ∈ (goalRun 0 leashedRun).store.goals.rows,
      (g.status, g.statusReason, g.issuesFiled) =
          (.leashed, some "leash exhausted: issues filed 1/1".toList, 1) ∧
        (goalRun 0 leashedRun).filings g.id = 1 ∧
        g ∈ (goalRun 0 (leashedRun ++
          [.outcome (outcomeOfIssue .green) fun _ => 0])).store.goals.rows := by
  have hrows : (goalRun 0 leashedRun).store.goals.rows.map
      (fun g => (g.status, g.statusReason, g.issuesFiled)) =
        [(.leashed, some "leash exhausted: issues filed 1/1".toList, 1)] := by
    decide +kernel
  obtain ⟨g, hg, hrow⟩ := List.mem_map.mp (hrows ▸ List.mem_cons_self)
  obtain ⟨hfiled, -, hstopped, -⟩ :=
    goal_stops 0 leashedRun [.outcome (outcomeOfIssue .green) fun _ => 0]
  simp only [Prod.mk.injEq] at hrow
  refine ⟨g, hg, by rw [hrow.1, hrow.2.1, hrow.2.2], (hfiled g hg).2.trans hrow.2.2, ?_⟩
  refine hstopped g hg (by rw [hrow.1]; nofun) ?_
  intro op hop
  rw [List.mem_singleton.mp hop]
  rfl

end Agentrail.Goals
