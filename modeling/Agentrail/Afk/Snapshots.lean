import Agentrail.Afk.Scheduling
import Agentrail.Afk.Store
import Agentrail.Lib.Runs

/-!
# Saved states (`afk/store.py`)

A state is saved after every dispatch and read back on a restart.  All of it comes
back but what the issues cost (`fromDict_toDict`), so a state reads back as itself
exactly where no issue has a cost (`reads_back_iff`).  `snapshots_read_back` says
of a run over any number of restarts which actions keep it so: all but a
`RecordCost` of a cost that is not zero.
-/

namespace Agentrail.Afk

open Py

/-! ## Restarts -/

/-- `build_store` on a saved state, before it seeds the queue. -/
def resume (concurrency maxRetries : Int) (s : AfkState) : Option AfkState :=
  (fromDict (toDict s)).map fun existing =>
    { existing with
      concurrency := concurrency
      maxRetries := maxRetries
      slots := (initial concurrency maxRetries).slots }

inductive StoreEvent where
  | dispatch (a : Action)
  | restart (concurrency maxRetries : Int)

def storeNext (s : AfkState) : StoreEvent → Option AfkState
  | .dispatch a => accept s a
  | .restart concurrency maxRetries => resume concurrency maxRetries s

/-- A cost that is recorded is zero. -/
def RecordsNoCost (e : StoreEvent) : Prop :=
  ∀ number costUsd, e = .dispatch (.recordCost number costUsd) → costUsd = 0

/-! ## What reads back -/

/-- A state reads back as itself where there is no cost to forget. -/
theorem reads_back_iff (s : AfkState) : fromDict (toDict s) = some s ↔ s.forgetCost = s := by
  rw [fromDict_toDict, Option.some.injEq]

theorem forgetCost_forgetCost_issues (s : AfkState) :
    s.forgetCost.issues.mapValues IssueState.forgetCost = s.forgetCost.issues := by
  refine Dict.ext_items ?_
  show (s.issues.items.map _).map _ = s.issues.items.map _
  rw [List.map_map]
  rfl

theorem forgetCost_recordCost (s : AfkState) (number : Int) (costUsd : ℚ) (i : IssueState)
    (hs : s.forgetCost = s) :
    ({ s with issues := s.issues.set number { i with costUsd } } : AfkState).forgetCost =
      { s with issues := s.issues.set number { i with costUsd := 0 } } := by
  have hissues : s.issues.mapValues IssueState.forgetCost = s.issues :=
    congrArg AfkState.issues hs
  unfold AfkState.forgetCost
  rw [Dict.set_mapValues, hissues]
  rfl

/-- From a state without costs an action leads to one exactly where it records none. -/
theorem accept_costless (s : AfkState) (a : Action) (t : AfkState) (h : accept s a = some t)
    (hs : s.forgetCost = s) :
    t.forgetCost = t ↔ ∀ number costUsd, a = .recordCost number costUsd → costUsd = 0 := by
  rw [accept_eq_some] at h
  by_cases ha : ∀ number costUsd, a ≠ .recordCost number costUsd
  · have hkeep := reduce_forgetCost s a ha
    rw [hs, h] at hkeep
    exact iff_of_true (Except.ok.inj hkeep).symm
      fun number costUsd heq => absurd heq (ha number costUsd)
  · push Not at ha
    obtain ⟨number, costUsd, rfl⟩ := ha
    simp only [reduce, except_bind_eq_ok] at h
    obtain ⟨i, -, h⟩ := h
    obtain rfl := Except.ok.inj h
    rw [forgetCost_recordCost s number costUsd i hs]
    constructor
    · intro heq
      have hget := congrArg (fun u : AfkState => (u.issues.get number).map IssueState.costUsd) heq
      simp only [Dict.get_set_self, Option.map_some, Option.some.injEq] at hget
      rintro _ _ ⟨⟩
      exact hget.symm
    · intro hzero
      rw [hzero number costUsd rfl]

theorem storeNext_costless (s : AfkState) (e : StoreEvent) (t : AfkState)
    (h : storeNext s e = some t) (hs : s.forgetCost = s) : t.forgetCost = t ↔ RecordsNoCost e := by
  cases e with
  | dispatch a =>
    rw [accept_costless s a t h hs]
    unfold RecordsNoCost
    simp only [StoreEvent.dispatch.injEq]
  | restart concurrency maxRetries =>
    change (fromDict (toDict s)).map _ = some t at h
    rw [fromDict_toDict] at h
    obtain rfl := Option.some.inj h
    refine iff_of_true ?_ fun _ _ heq => by cases heq
    unfold AfkState.forgetCost
    congr 1
    exact forgetCost_forgetCost_issues s

/-- **Saved states read back.** Everything but the costs always reads back; all states of a run over
dispatches and restarts read back as themselves exactly where every recorded cost is zero. -/
theorem snapshots_read_back (concurrency maxRetries : Int) (es : List StoreEvent)
    (hes : (Runs.run storeNext (initial concurrency maxRetries) es).isSome) :
    (∀ t : AfkState, fromDict (toDict t) = some t.forgetCost) ∧
    (Runs.Always storeNext (fun t => fromDict (toDict t) = some t)
        (initial concurrency maxRetries) es ↔
      Runs.Throughout storeNext (fun _ e => RecordsNoCost e)
        (initial concurrency maxRetries) es) := by
  refine ⟨fromDict_toDict, ?_⟩
  rw [← Runs.always_iff_throughout storeNext_costless hes rfl]
  constructor
  · exact fun h => h.mono fun t => (reads_back_iff t).mp
  · exact fun h => h.mono fun t => (reads_back_iff t).mpr

/-- A failed run that cost nothing, and a restart. -/
def freeRun : List StoreEvent :=
  [.dispatch (.enqueueIssue 1 "a".toList "u".toList [2]), .dispatch (.claimIssue 1 0),
    .dispatch (.recordCost 1 0), .dispatch (.recordFailure 1 none), .restart 3 2]

theorem snapshots_read_back_free :
    Runs.Always storeNext (fun t => fromDict (toDict t) = some t) (initial 2 2) freeRun := by
  refine (snapshots_read_back 2 2 freeRun (by decide)).2.mpr ?_
  refine ⟨?_, fun _ _ => ⟨?_, fun _ _ => ⟨?_, fun _ _ => ⟨?_, fun _ _ => ⟨?_,
    fun _ _ => trivial⟩⟩⟩⟩⟩
  all_goals rintro _ _ ⟨⟩
  rfl

def costlyRun : List StoreEvent :=
  [.dispatch (.enqueueIssue 1 [] [] []), .dispatch (.recordCost 1 1)]

/-- What a run cost is lost. -/
theorem cost_not_saved : ¬ ∀ (es : List StoreEvent) (s : AfkState),
    Runs.run storeNext (initial 2 2) es = some s → fromDict (toDict s) = some s := by
  intro hclaim
  have hcost : ((Runs.run storeNext (initial 2 2) costlyRun).bind fun s =>
      (s.issues.get 1).map IssueState.costUsd) = some 1 := by decide
  obtain ⟨s, hs, hi⟩ := Option.bind_eq_some_iff.mp hcost
  have hread := (reads_back_iff s).mp (hclaim costlyRun s hs)
  have hzero : (s.forgetCost.issues.get 1).map IssueState.costUsd = some 0 := by
    rw [get_forgetCost, Option.map_map]
    obtain ⟨i, hget, -⟩ := Option.map_eq_some_iff.mp hi
    rw [hget]
    rfl
  rw [hread, hi] at hzero
  exact absurd (Option.some.inj hzero) (by decide)

end Agentrail.Afk
