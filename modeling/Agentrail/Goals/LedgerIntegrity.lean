import Agentrail.Goals.GoalLedger

/-!
# The ledger under concurrent transactions

`Ledger` is what the counters of a goal have to do with its events.  Every commit
is one update and the events it appends (`ledger_commit`); a write that is not
stale (`Undisturbed`) counts on from the current row.
-/

namespace Agentrail.Goals

open Js Interleaving

/-! ## What the events say -/

/-- The number of issues filed toward the goal. -/
def filedIssues (events : List GoalEvent) (goalId : Text) : Nat :=
  events.countP fun e => e.goalId = goalId && e.type = .issueFiled

/-- The sum of the costs recorded for the goal. -/
def recordedCosts (events : List GoalEvent) (goalId : Text) : ℚ :=
  ((events.filter fun e => e.goalId = goalId && e.type = .outcomeRecorded).map fun e =>
    e.costUsd.getD 0).sum

theorem filedIssues_append (events events' : List GoalEvent) (goalId : Text) :
    filedIssues (events ++ events') goalId =
      filedIssues events goalId + filedIssues events' goalId :=
  List.countP_append

theorem recordedCosts_append (events events' : List GoalEvent) (goalId : Text) :
    recordedCosts (events ++ events') goalId =
      recordedCosts events goalId + recordedCosts events' goalId := by
  unfold recordedCosts
  rw [List.filter_append, List.map_append, List.sum_append]

/-- Events of another goal do not count. -/
theorem filedIssues_other (events : List GoalEvent) (goalId : Text)
    (h : ∀ e ∈ events, e.goalId ≠ goalId) : filedIssues events goalId = 0 := by
  unfold filedIssues
  rw [List.countP_eq_zero]
  intro e he
  simp [h e he]

theorem recordedCosts_other (events : List GoalEvent) (goalId : Text)
    (h : ∀ e ∈ events, e.goalId ≠ goalId) : recordedCosts events goalId = 0 := by
  unfold recordedCosts
  rw [List.filter_eq_nil_iff.mpr]
  · rfl
  · intro e he
    simp [h e he]

/-! ## The invariant -/

/-- The counters of a goal are those of its events. -/
structure Counted (events : List GoalEvent) (g : GoalRow) : Prop where
  issues : g.issuesFiled = filedIssues events g.id
  spend : g.spendUsd = recordedCosts events g.id

/-- Every goal is counted, and every event is of a goal. -/
structure Ledger (s : Store) : Prop where
  counted : ∀ g ∈ s.goals.rows, Counted s.events g
  cents : ∀ g ∈ s.goals.rows, WholeCents g.spendUsd
  owned : ∀ e ∈ s.events, ∃ g ∈ s.goals.rows, g.id = e.goalId

/-- A row after a commit. -/
theorem mem_commit (s : Store) (id : Text) (f : GoalRow → GoalRow) (hf : ∀ g, (f g).id = g.id)
    (events : List GoalEvent) (g' : GoalRow) (h : g' ∈ (s.commit id f hf events).goals.rows) :
    ∃ g ∈ s.goals.rows, g'.id = g.id ∧ (g.id = id ∧ g' = f g ∨ g.id ≠ id ∧ g' = g) := by
  obtain ⟨g, hg, rfl⟩ := List.mem_map.mp h
  refine ⟨g, hg, ?_⟩
  by_cases hid : g.id = id
  · rw [if_pos (decide_eq_true hid)]
    exact ⟨hf g, Or.inl ⟨hid, rfl⟩⟩
  · rw [if_neg (by simpa using hid)]
    exact ⟨rfl, Or.inr ⟨hid, rfl⟩⟩

/-- Every goal is still there after a commit. -/
theorem exists_commit (s : Store) (id : Text) (f : GoalRow → GoalRow) (hf : ∀ g, (f g).id = g.id)
    (events : List GoalEvent) (g : GoalRow) (h : g ∈ s.goals.rows) :
    ∃ g' ∈ (s.commit id f hf events).goals.rows, g'.id = g.id := by
  refine ⟨_, List.mem_map_of_mem h, ?_⟩
  by_cases hid : g.id = id
  · rw [if_pos (decide_eq_true hid)]
    exact hf g
  · rw [if_neg (by simpa using hid)]

/-- A commit keeps the ledger if it counts what it appends. -/
theorem ledger_commit (s : Store) (id : Text) (f : GoalRow → GoalRow) (hf : ∀ g, (f g).id = g.id)
    (events : List GoalEvent) (h : Ledger s) (hgoal : s.hasGoal id)
    (hown : ∀ e ∈ events, e.goalId = id)
    (hissues : ∀ g ∈ s.goals.rows, g.id = id →
      (f g).issuesFiled = g.issuesFiled + filedIssues events id)
    (hspend : ∀ g ∈ s.goals.rows, g.id = id →
      (f g).spendUsd = g.spendUsd + recordedCosts events id)
    (hcents : WholeCents (recordedCosts events id)) :
    Ledger (s.commit id f hf events) := by
  constructor
  · intro g' hg'
    obtain ⟨g, hg, hsame, ⟨hid, rfl⟩ | ⟨hid, rfl⟩⟩ := mem_commit s id f hf events g' hg'
    · constructor
      · show (f g).issuesFiled = filedIssues (s.events ++ events) (f g).id
        rw [hissues g hg hid, hf, filedIssues_append, (h.counted g hg).issues, hid]
      · show (f g).spendUsd = recordedCosts (s.events ++ events) (f g).id
        rw [hspend g hg hid, hf, recordedCosts_append, (h.counted g hg).spend, hid]
    · have hother : ∀ e ∈ events, e.goalId ≠ g'.id := by
        intro e he heq
        exact hid (heq ▸ hown e he)
      constructor
      · show g'.issuesFiled = filedIssues (s.events ++ events) g'.id
        rw [filedIssues_append, filedIssues_other events _ hother, (h.counted g' hg).issues]
        rfl
      · show g'.spendUsd = recordedCosts (s.events ++ events) g'.id
        rw [recordedCosts_append, recordedCosts_other events _ hother, (h.counted g' hg).spend,
          add_zero]
  · intro g' hg'
    obtain ⟨g, hg, _, ⟨hid, rfl⟩ | ⟨_, rfl⟩⟩ := mem_commit s id f hf events g' hg'
    · rw [hspend g hg hid]
      exact (h.cents g hg).add hcents
    · exact h.cents g' hg
  · intro e he
    have hold : ∃ g ∈ s.goals.rows, g.id = e.goalId := by
      rcases List.mem_append.mp he with he | he
      · exact h.owned e he
      · obtain ⟨g, hg, hid⟩ := List.any_eq_true.mp hgoal
        exact ⟨g, hg, (of_decide_eq_true hid).trans (hown e he).symm⟩
    obtain ⟨g, hg, hid⟩ := hold
    obtain ⟨g', hg', hid'⟩ := exists_commit s id f hf events g hg
    exact ⟨g', hg', hid'.trans hid⟩

/-- A new goal has no events yet. -/
theorem ledger_insert (s : Store) (input : CreateGoalInput) (id : Text) (goals : GoalTable)
    (hinsert : s.goals.insert (newGoal input id s.now) = some goals) (h : Ledger s) :
    Ledger { s with goals := goals } := by
  have hrows := Table.rows_insert _ _ _ hinsert
  have hfresh := insert_fresh _ _ _ hinsert
  have hnone : ∀ e ∈ s.events, e.goalId ≠ id := by
    intro e he heq
    obtain ⟨g, hg, hid⟩ := h.owned e he
    exact hfresh (List.mem_map.mpr ⟨g, hg, hid.trans heq⟩)
  constructor
  · intro g hg
    rw [hrows] at hg
    rcases List.mem_append.mp hg with hg | hg
    · exact h.counted g hg
    · obtain rfl := List.mem_singleton.mp hg
      exact ⟨(filedIssues_other _ _ hnone).symm, (recordedCosts_other _ _ hnone).symm⟩
  · intro g hg
    rw [hrows] at hg
    rcases List.mem_append.mp hg with hg | hg
    · exact h.cents g hg
    · obtain rfl := List.mem_singleton.mp hg
      exact wholeCents_zero
  · intro e he
    obtain ⟨g, hg, hid⟩ := h.owned e he
    exact ⟨g, by rw [hrows]; exact List.mem_append_left _ hg, hid⟩

/-! ## Writes that are not stale -/

/-- The columns that a commit counts on are those of the current row.  An outcome costs whole cents
and meets a goal that is active. -/
def Undisturbed ⦃β : Type⦄ (_ : List (Prog Stmt Unit)) (s : Store) : Stmt β → Prop
  | .commitIssueFiled fresh _ => ∀ g ∈ s.goals.rows, g.id = fresh.id →
      g.issuesFiled = fresh.issuesFiled
  | .commitOutcome fresh input => WholeCents input.costUsd ∧ ∀ g ∈ s.goals.rows, g.id = fresh.id →
      g.status = .active ∧ fresh.status = .active ∧ g.spendUsd = fresh.spendUsd
  | _ => True

theorem outcomeEvents_goalId (fresh : GoalRow) (input : RecordOutcomeInput) (now : Int) :
    ∀ e ∈ outcomeEvents fresh input now, e.goalId = fresh.id := by
  unfold outcomeEvents
  intro e he
  rcases List.mem_cons.mp he with rfl | he
  · rfl
  · split at he
    · obtain rfl := List.mem_singleton.mp he
      rfl
    · cases he

theorem filedIssues_outcome (fresh : GoalRow) (input : RecordOutcomeInput) (now : Int) :
    filedIssues (outcomeEvents fresh input now) fresh.id = 0 := by
  unfold filedIssues outcomeEvents
  split <;> simp [outcomeEvent, statusEvent]

theorem recordedCosts_outcome (fresh : GoalRow) (input : RecordOutcomeInput) (now : Int) :
    recordedCosts (outcomeEvents fresh input now) fresh.id = numeric2 input.costUsd := by
  unfold recordedCosts outcomeEvents
  split <;> simp [outcomeEvent, statusEvent]

/-- The spend that a decision writes. -/
theorem decision_spend (fresh : GoalRow) (input : RecordOutcomeInput)
    (hactive : fresh.status = .active) (hspend : WholeCents fresh.spendUsd)
    (hcost : WholeCents input.costUsd) :
    numeric2 (decision fresh input).spendUsdAfter = fresh.spendUsd + numeric2 input.costUsd := by
  have hsum := hspend.add hcost
  unfold decision
  rw [decide_spend _ _ hactive]
  unfold spendUsdAfter
  rw [max_eq_right hcost.nonneg]
  show numeric2 (round2 (fresh.spendUsd + input.costUsd)) = _
  rw [round2_wholeCents _ hsum, numeric2_wholeCents _ hsum, numeric2_wholeCents _ hcost]

/-- Every statement keeps the ledger. -/
theorem exec_ledger {β : Type} (q : Stmt β) (others : List (Prog Stmt Unit)) (s : Store)
    (h : Ledger s) (hC : Undisturbed others s q) : Ledger (q.exec s).2 := by
  cases q with
  | insertGoal input id =>
    simp only [Stmt.exec]
    split
    · split
      · exact h
      · next goals hinsert => exact ledger_insert s input id goals hinsert h
    · exact h
  | selectGoal id => exact h
  | selectIssueFiled workspaceId issueExternalId scan => exact h
  | commitIssueFiled fresh issueExternalId =>
    simp only [Stmt.exec]
    split
    · next hok =>
      rw [Bool.and_eq_true] at hok
      have hfiled : filedIssues [issueFiledEvent fresh issueExternalId s.now] fresh.id = 1 := by
        simp [filedIssues, issueFiledEvent]
      have hnocost : recordedCosts [issueFiledEvent fresh issueExternalId s.now] fresh.id = 0 := by
        simp [recordedCosts, issueFiledEvent]
      refine ledger_commit s fresh.id (filedRow fresh s.now) (fun _ => rfl) _ h hok.1 ?_ ?_ ?_ ?_
      · intro e he
        obtain rfl := List.mem_singleton.mp he
        rfl
      · intro g hg hid
        show fresh.issuesFiled + 1 = _
        rw [hfiled, hC g hg hid]
      · intro g _ _
        rw [hnocost, add_zero]
        rfl
      · rw [hnocost]
        exact wholeCents_zero
    · exact h
  | commitOutcome fresh input =>
    simp only [Stmt.exec]
    split
    · next hok =>
      rw [Bool.and_eq_true] at hok
      obtain ⟨hcost, hcurrent⟩ := hC
      refine ledger_commit s fresh.id (decidedRow (decision fresh input) s.now) (fun _ => rfl) _ h
        hok.1 (outcomeEvents_goalId fresh input s.now) ?_ ?_ ?_
      · intro g _ _
        rw [filedIssues_outcome]
        rfl
      · intro g hg hid
        obtain ⟨_, hactive, hspend⟩ := hcurrent g hg hid
        rw [recordedCosts_outcome, hspend]
        exact decision_spend fresh input hactive (hspend ▸ h.cents g hg) hcost
      · rw [recordedCosts_outcome, numeric2_wholeCents _ hcost]
        exact hcost
    · exact h
  | commitStatus fresh status reason =>
    simp only [Stmt.exec]
    split
    · next hok =>
      have hnone : filedIssues [statusEvent fresh fresh.workspaceId status.toGoalStatus reason s.now]
          fresh.id = 0 := by
        simp [filedIssues, statusEvent]
      have hnocost : recordedCosts [statusEvent fresh fresh.workspaceId status.toGoalStatus reason s.now]
          fresh.id = 0 := by
        simp [recordedCosts, statusEvent]
      refine ledger_commit s fresh.id (stoppedRow status.toGoalStatus reason s.now) (fun _ => rfl)
        _ h hok ?_ ?_ ?_ ?_
      · intro e he
        obtain rfl := List.mem_singleton.mp he
        rfl
      · intro g _ _
        rw [hnone]
        rfl
      · intro g _ _
        rw [hnocost, add_zero]
        rfl
      · rw [hnocost]
        exact wholeCents_zero
    · exact h

/-! ## Goals that have ended -/

/-- The goal `id` is in the table and no longer active. -/
def Ended (id : Text) (s : Store) : Prop := ∃ g ∈ s.goals.rows, g.id = id ∧ g.status ≠ .active

/-- Only the stop of a goal and the decision on it write its status. -/
theorem commit_ended (s : Store) (id goalId : Text) (f : GoalRow → GoalRow)
    (hf : ∀ g, (f g).id = g.id) (events : List GoalEvent) (h : Ended id s)
    (hstatus : ∀ g ∈ s.goals.rows, g.id = goalId → g.status ≠ .active → (f g).status ≠ .active) :
    Ended id (s.commit goalId f hf events) := by
  obtain ⟨g, hg, hid, hended⟩ := h
  refine ⟨_, List.mem_map_of_mem hg, ?_⟩
  by_cases hgoal : g.id = goalId
  · rw [if_pos (decide_eq_true hgoal)]
    exact ⟨(hf g).trans hid, hstatus g hg hgoal hended⟩
  · rw [if_neg (by simpa using hgoal)]
    exact ⟨hid, hended⟩

theorem toGoalStatus_ne_active (status : ManualStatus) : status.toGoalStatus ≠ .active := by
  cases status <;> exact nofun

theorem exec_ended {β : Type} (q : Stmt β) (others : List (Prog Stmt Unit)) (s : Store) (id : Text)
    (h : Ended id s) (hC : Undisturbed others s q) : Ended id (q.exec s).2 := by
  cases q with
  | insertGoal input newId =>
    simp only [Stmt.exec]
    split
    · split
      · exact h
      · next goals hinsert =>
        obtain ⟨g, hg, hgoal⟩ := h
        refine ⟨g, ?_, hgoal⟩
        rw [Table.rows_insert _ _ _ hinsert]
        exact List.mem_append_left _ hg
    · exact h
  | selectGoal goalId => exact h
  | selectIssueFiled workspaceId issueExternalId scan => exact h
  | commitIssueFiled fresh issueExternalId =>
    simp only [Stmt.exec]
    split
    · exact commit_ended s id fresh.id (filedRow fresh s.now) (fun _ => rfl) _ h
        fun g _ _ hended => hended
    · exact h
  | commitOutcome fresh input =>
    simp only [Stmt.exec]
    split
    · refine commit_ended s id fresh.id (decidedRow (decision fresh input) s.now) (fun _ => rfl) _ h
        ?_
      intro g hg hid hended
      exact absurd (hC.2 g hg hid).1 hended
    · exact h
  | commitStatus fresh status reason =>
    simp only [Stmt.exec]
    split
    · exact commit_ended s id fresh.id (stoppedRow status.toGoalStatus reason s.now)
        (fun _ => rfl) _ h fun _ _ _ _ => toGoalStatus_ne_active status
    · exact h

/-- **The ledger of a goal.** In every run from empty tables in which no write is stale, outcomes
cost whole cents and meet an active goal: a goal has filed the issues and spent the costs that its
events record, and from the moment it has ended it is never active again. -/
theorem goal_ledger (now : Int) (c c' : Config Store Stmt)
    (h : goalSystem.Reaches Undisturbed ⟨emptyStore now, []⟩ c)
    (h' : goalSystem.Reaches Undisturbed c c') (g : GoalRow) (hg : g ∈ c.store.goals.rows) :
    g.issuesFiled = filedIssues c.store.events g.id ∧
      g.spendUsd = recordedCosts c.store.events g.id ∧
      (g.status ≠ .active →
        ∃ g' ∈ c'.store.goals.rows, g'.id = g.id ∧ g'.status ≠ .active) := by
  have hledger : Ledger c.store := by
    refine goalSystem.reaches_store ?_ ?_ h ?_
    · intro β q others s hs hC
      exact exec_ledger q others s hs hC
    · rintro s s' hs ⟨_, hsame⟩
      rw [hsame]
      exact ⟨hs.counted, hs.cents, hs.owned⟩
    · constructor
      · intro g hg
        cases hg
      · intro g hg
        cases hg
      · intro e he
        cases he
  obtain ⟨hissues, hspend⟩ := hledger.counted g hg
  refine ⟨hissues, hspend, ?_⟩
  intro hended
  suffices hJ : Ended g.id c'.store from hJ
  refine goalSystem.reaches_store ?_ ?_ h' ⟨g, hg, rfl, hended⟩
  · intro β q others s hs hC
    exact exec_ended q others s g.id hs hC
  · rintro s s' hs ⟨_, hsame⟩
    rw [hsame]
    exact hs

/-! ## Runs -/

/-- An operation on its own, with enough steps to end. -/
def solo (op : Op) (steps : Nat) : List (System.Choice Store Stmt) :=
  .start (opProgram op) :: List.replicate steps (.step 0)

theorem solo_valid (op : Op) (steps : Nat) :
    ∀ choice ∈ solo op steps, choice.Valid goalSystem := by
  refine List.forall_mem_cons.mpr ⟨⟨op, rfl⟩, ?_⟩
  intro choice hc
  rw [List.eq_of_mem_replicate hc]
  exact trivial

def goalG : List (System.Choice Store Stmt) :=
  solo (.createGoal { workspaceId := "w".toList, slug := "g".toList } "g".toList) 2

def outcomeOfIssue (outcome : GoalOutcome) : RecordOutcomeInput :=
  { workspaceId := "w".toList, issueExternalId := "1".toList, outcome := outcome,
    costUsd := 5 / 2 }

/-- An issue is filed, its run costs $2.50, and a human pauses the goal. -/
def untilPaused : List (System.Choice Store Stmt) :=
  goalG ++ solo (.recordIssueFiled "g".toList "1".toList) 3 ++
    solo (.recordOutcome (outcomeOfIssue .green) fun _ => 0) 5 ++
    solo (.pause "g".toList "enough".toList) 3

/-- A second outcome of the issue finds no active goal. -/
def secondOutcome : List (System.Choice Store Stmt) :=
  solo (.recordOutcome (outcomeOfIssue .blocked) fun _ => 0) 3

theorem untilPaused_valid : ∀ choice ∈ untilPaused, choice.Valid goalSystem := by
  unfold untilPaused goalG
  simp only [List.mem_append]
  rintro choice (((h | h) | h) | h) <;> exact solo_valid _ _ choice h

def paused : Config Store Stmt := goalSystem.schedule untilPaused ⟨emptyStore 0, []⟩

def pausedStill : Config Store Stmt := goalSystem.schedule secondOutcome paused

def undisturbed ⦃β : Type⦄ (_ : List (Prog Stmt Unit)) (s : Store) : Stmt β → Bool
  | .commitIssueFiled fresh _ => s.goals.rows.all fun g => g.issuesFiled = fresh.issuesFiled
  | .commitOutcome fresh input =>
    input.costUsd = ((round (input.costUsd * 100)).toNat : ℚ) / 100 && s.goals.rows.all fun g =>
      g.status = .active && fresh.status = .active && g.spendUsd = fresh.spendUsd
  | _ => true

theorem undisturbed_sound ⦃β : Type⦄ (others : List (Prog Stmt Unit)) (s : Store) (q : Stmt β)
    (h : undisturbed others s q) : Undisturbed others s q := by
  cases q with
  | commitIssueFiled fresh issueExternalId =>
    intro g hg _
    exact of_decide_eq_true (List.all_eq_true.mp h g hg)
  | commitOutcome fresh input =>
    unfold undisturbed at h
    simp only [Bool.and_eq_true, decide_eq_true_eq, List.all_eq_true] at h
    refine ⟨⟨_, h.1⟩, ?_⟩
    intro g hg _
    obtain ⟨⟨hcurrent, hread⟩, hspend⟩ := h.2 g hg
    exact ⟨hcurrent, hread, hspend⟩
  | _ => exact trivial

theorem paused_row : paused.store.goals.rows.map (fun g => (g.status, g.issuesFiled, g.spendUsd)) =
    [(.paused, 1, 5 / 2)] := by
  decide +kernel

/-- The paused goal has filed one issue and spent $2.50, and stays paused. -/
theorem goal_ledger_paused : ∃ g ∈ paused.store.goals.rows,
    g.issuesFiled = filedIssues paused.store.events g.id ∧
      g.spendUsd = recordedCosts paused.store.events g.id ∧
      ∃ g' ∈ pausedStill.store.goals.rows, g'.id = g.id ∧ g'.status ≠ .active := by
  have hrun : goalSystem.Reaches Undisturbed ⟨emptyStore 0, []⟩ paused :=
    goalSystem.schedule_reaches _ _ untilPaused_valid
      (goalSystem.meets_of_check undisturbed undisturbed_sound _ _ (by decide +kernel))
  have hsecond : goalSystem.Reaches Undisturbed paused pausedStill :=
    goalSystem.schedule_reaches _ _ (solo_valid _ _)
      (goalSystem.meets_of_check undisturbed undisturbed_sound _ _ (by decide +kernel))
  obtain ⟨g, hg, hrow⟩ := List.mem_map.mp (paused_row ▸ List.mem_cons_self)
  obtain ⟨hissues, hspend, hended⟩ := goal_ledger 0 paused pausedStill hrun hsecond g hg
  refine ⟨g, hg, hissues, hspend, hended ?_⟩
  rw [(Prod.mk.inj hrow).1]
  exact nofun

/-- Two issues are filed at once: both read the goal before either writes. -/
def twoFilings : List (System.Choice Store Stmt) :=
  goalG ++ [.start (opProgram (.recordIssueFiled "g".toList "1".toList)),
    .start (opProgram (.recordIssueFiled "g".toList "2".toList)),
    .step 1, .step 0, .step 1, .step 0, .step 1, .step 0]

theorem twoFilings_valid : ∀ choice ∈ twoFilings, choice.Valid goalSystem := by
  unfold twoFilings goalG
  simp only [List.mem_append, List.mem_cons, List.not_mem_nil, or_false]
  rintro choice (h | rfl | rfl | rfl | rfl | rfl | rfl | rfl | rfl)
  · exact solo_valid _ _ choice h
  · exact ⟨_, rfl⟩
  · exact ⟨_, rfl⟩
  all_goals exact trivial

/-- Both issues are recorded and one is counted. -/
theorem lost_issue : ¬ ∀ (now : Int) (c c' : Config Store Stmt),
    goalSystem.Reaches System.Any ⟨emptyStore now, []⟩ c → goalSystem.Reaches System.Any c c' →
    c.pool = [] → ∀ g ∈ c.store.goals.rows,
      g.issuesFiled = filedIssues c.store.events g.id ∧
        g.spendUsd = recordedCosts c.store.events g.id ∧
        (g.status ≠ .active →
          ∃ g' ∈ c'.store.goals.rows, g'.id = g.id ∧ g'.status ≠ .active) := by
  intro hclaim
  let c := goalSystem.schedule twoFilings ⟨emptyStore 0, []⟩
  have hrun : goalSystem.Reaches System.Any ⟨emptyStore 0, []⟩ c :=
    goalSystem.schedule_reaches _ _ twoFilings_valid (goalSystem.meets_any _ _)
  have hcounts : ∀ g ∈ c.store.goals.rows,
      g.issuesFiled = 1 ∧ filedIssues c.store.events g.id = 2 := by decide +kernel
  have hsome : c.store.goals.rows ≠ [] := by decide +kernel
  obtain ⟨g, hg⟩ := List.exists_mem_of_ne_nil _ hsome
  have hone := (hclaim 0 c c hrun .refl (List.isEmpty_iff.mp (by decide +kernel)) g hg).1
  rw [(hcounts g hg).1, (hcounts g hg).2] at hone
  cases hone

/-- An outcome has read the goal when the goal is paused. -/
def pausedBetween : Config Store Stmt :=
  goalSystem.schedule (goalG ++ (solo (.recordIssueFiled "g".toList "1".toList) 3 ++
    (.start (opProgram (.recordOutcome (outcomeOfIssue .green) fun _ => 0)) :: .step 0 ::
      .step 0 :: .step 0 :: solo (.pause "g".toList "enough".toList) 3))) ⟨emptyStore 0, []⟩

/-! Its write makes the goal active again. -/

example : pausedBetween.store.goals.rows.map GoalRow.status = [.paused] ∧
    (goalSystem.schedule [.step 0] pausedBetween).store.goals.rows.map GoalRow.status =
      [.active] := by
  decide +kernel

end Agentrail.Goals
