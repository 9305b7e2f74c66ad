import Agentrail.Afk.Scheduling

/-!
# The counters of a run

A run reports `completed` issues as merged and `failed` ones as left to a human.
The reducer counts up when it merges an issue or gives one up after its last retry,
and down when it requeues one.  A human review that `SetStatus` records is not
counted (`escalation_not_counted`).  `counters_truthful` says of every run whether
its counters are right.
-/

namespace Agentrail.Afk

open Py

def AfkState.countStatus (s : AfkState) (status : IssueStatus) : Nat :=
  s.issues.count fun i => i.status = status

/-- The counters are the numbers of issues that they stand for. -/
structure Truthful (s : AfkState) : Prop where
  completed : s.completed = s.countStatus .merged
  failed : s.failed = s.countStatus .humanReview

/-- The issue is in a state that is counted. -/
def IssueStatus.isCounted (status : IssueStatus) : Bool :=
  status = .merged || status = .humanReview

/-- A status is set where neither it nor the one before would have to be counted down or counted
as failed; failures and releases meet issues that are not counted. -/
def countsAlong (s : AfkState) : Action → Bool
  | .setStatus number status => (s.issues.get number).all fun i =>
      i.status ≠ .merged && (i.status = .humanReview ↔ status = .humanReview)
  | .recordFailure number _ => (s.issues.get number).all fun i => !i.status.isCounted
  | .releaseIssue number => (s.issues.get number).all fun i => !i.status.isCounted
  | _ => true

/-- What one issue adds to the number of a status. -/
def IssueState.share (i : IssueState) (status : IssueStatus) : Nat :=
  if i.status = status then 1 else 0

theorem share_of_eq (i : IssueState) (status : IssueStatus) (h : i.status = status) :
    i.share status = 1 := if_pos h

theorem share_of_ne (i : IssueState) (status : IssueStatus) (h : i.status ≠ status) :
    i.share status = 0 := if_neg h

/-- One issue for another. -/
theorem countStatus_set (s t : AfkState) (number : Int) (i i' : IssueState)
    (hi : s.issues.get number = some i) (ht : t.issues = s.issues.set number i')
    (status : IssueStatus) :
    t.countStatus status + i.share status = s.countStatus status + i'.share status := by
  have hcount := Dict.count_set (fun j : IssueState => decide (j.status = status)) s.issues number
    i i' hi
  simp only [decide_eq_true_eq] at hcount
  unfold AfkState.countStatus
  rw [ht]
  exact hcount

/-- The counters after one issue was put in the place of another. -/
theorem truthful_set (s t : AfkState) (number : Int) (i i' : IssueState)
    (hi : s.issues.get number = some i) (ht : t.issues = s.issues.set number i')
    (hs : Truthful s) : Truthful t ↔
      t.completed + i.share .merged = s.completed + i'.share .merged ∧
        t.failed + i.share .humanReview = s.failed + i'.share .humanReview := by
  have hmerged := countStatus_set s t number i i' hi ht .merged
  have hhuman := countStatus_set s t number i i' hi ht .humanReview
  have hcompleted := hs.completed
  have hfailed := hs.failed
  constructor
  · rintro ⟨hc, hf⟩
    constructor <;> omega
  · rintro ⟨hc, hf⟩
    constructor <;> omega

/-- An issue whose status stays. -/
theorem share_congr (i i' : IssueState) (h : i'.status = i.status) (status : IssueStatus) :
    i'.share status = i.share status := by
  unfold IssueState.share
  rw [h]

/-- An issue that is not counted. -/
theorem shares_zero_iff (i : IssueState) :
    i.share .merged = 0 ∧ i.share .humanReview = 0 ↔ (!i.status.isCounted) = true := by
  unfold IssueState.share IssueStatus.isCounted
  by_cases hm : i.status = .merged <;> by_cases hh : i.status = .humanReview <;> simp [hm, hh]

/-- A requeued issue that was counted is counted down: its counter is positive. -/
theorem requeued_counted_down (s : AfkState) (number : Int) (i : IssueState)
    (hi : s.issues.get number = some i) (status : IssueStatus) (hstatus : status ≠ .queued)
    (counter : Int) (hcounter : counter = s.countStatus status) :
    (if i.status = status then max 0 (counter - 1) else counter) + i.share status =
      counter + (requeuedIssue i).share status := by
  have hset := countStatus_set s { s with issues := s.issues.set number (requeuedIssue i) }
    number i _ hi rfl status
  have hnew : (requeuedIssue i).share status = 0 := share_of_ne _ _ hstatus.symm
  rw [hnew] at hset ⊢
  by_cases hcounted : i.status = status
  · rw [share_of_eq i status hcounted] at hset ⊢
    rw [if_pos hcounted]
    omega
  · rw [share_of_ne i status hcounted, if_neg hcounted]

/-- **One action.** Right counters stay right exactly where the action counts along. -/
theorem truthful_step (s : AfkState) (a : Action) (t : AfkState) (h : accept s a = some t)
    (hs : Truthful s) : Truthful t ↔ countsAlong s a := by
  cases accept_effect s t a h with
  | known => exact ⟨fun _ => rfl, fun _ => hs⟩
  | same => exact ⟨fun _ => rfl, fun _ => hs⟩
  | frees => exact ⟨fun _ => rfl, fun _ => ⟨hs.completed, hs.failed⟩⟩
  | @enqueues number title url blockedBy hnone =>
    refine ⟨fun _ => rfl, fun _ => ?_⟩
    have hcount : ∀ status, status ≠ IssueStatus.queued →
        (s.issues.set number { number, title, url, blockedBy }).count
          (fun j => decide (j.status = status)) = s.countStatus status := by
      intro status hstatus
      rw [Dict.count_set_new _ _ _ _ hnone, if_neg (by simpa using hstatus.symm)]
      rfl
    constructor
    · exact hs.completed.trans (congrArg _ (hcount .merged nofun).symm)
    · exact hs.failed.trans (congrArg _ (hcount .humanReview nofun).symm)
  | @edits _ number i i' hedit hi hstatus _ =>
    have hcounts : countsAlong s a := by
      cases a <;> first | rfl | cases hedit
    rw [truthful_set s _ number i i' hi rfl hs, share_congr i i' hstatus, share_congr i i' hstatus]
    exact ⟨fun _ => hcounts, fun _ => ⟨rfl, rfl⟩⟩
  | @claims number slot i hi hqueued _ =>
    rw [truthful_set s _ number i _ hi rfl hs]
    refine ⟨fun _ => rfl, fun _ => ?_⟩
    rw [share_of_ne i .merged (by simp [hqueued]), share_of_ne i .humanReview (by simp [hqueued])]
    exact ⟨rfl, rfl⟩
  | @releases number i hi =>
    rw [truthful_set s _ number i _ hi rfl hs]
    show _ ↔ (s.issues.get number).all (fun j => !j.status.isCounted) = true
    rw [hi, Option.all_some, ← shares_zero_iff]
    show s.completed + i.share .merged = s.completed + 0 ∧ s.failed + i.share .humanReview =
      s.failed + 0 ↔ _
    omega
  | @sets number status i hi =>
    rw [truthful_set s _ number i _ hi rfl hs]
    show _ ↔ (s.issues.get number).all (fun j => decide (j.status ≠ .merged) &&
      decide (j.status = .humanReview ↔ status = .humanReview)) = true
    rw [hi, Option.all_some, Bool.and_eq_true, decide_eq_true_eq, decide_eq_true_eq]
    show (if status = .merged then s.completed + 1 else s.completed) + _ = s.completed +
      ((if status = .merged then 1 else 0 : Nat) : Int) ∧ s.failed + _ = s.failed +
        ((if status = .humanReview then 1 else 0 : Nat) : Int) ↔ _
    unfold IssueState.share
    by_cases hm : i.status = .merged
    · simp only [hm, if_true]
      by_cases hset : status = .merged <;> simp [hset]
    · by_cases hh : i.status = .humanReview <;> by_cases hset : status = .humanReview <;>
        by_cases hset' : status = .merged <;> simp_all
  | @fails number error i hi =>
    rw [truthful_set s _ number i _ hi rfl hs]
    show _ ↔ (s.issues.get number).all (fun j => !j.status.isCounted) = true
    rw [hi, Option.all_some, ← shares_zero_iff]
    let i' := failedIssue s.maxRetries error i
    by_cases hcap : s.maxRetries ≤ i.retries + 1
    · have hnew : i'.status = .humanReview := if_pos hcap
      rw [share_of_ne i' .merged (by simp [hnew]), share_of_eq i' .humanReview hnew]
      simp only [hcap, if_true]
      omega
    · have hnew : i'.status = .queued := if_neg hcap
      rw [share_of_ne i' .merged (by simp [hnew]), share_of_ne i' .humanReview (by simp [hnew])]
      simp only [hcap, if_false]
      omega
  | @requeues number i hi =>
    rw [truthful_set s _ number i _ hi rfl hs]
    refine ⟨fun _ => rfl, fun _ => ?_⟩
    exact ⟨requeued_counted_down s number i hi .merged nofun s.completed hs.completed,
      requeued_counted_down s number i hi .humanReview nofun s.failed hs.failed⟩

/-- **The counters.** The counters of a run from the start are right after every action exactly
where every action counts along. -/
theorem counters_truthful (concurrency maxRetries : Int) (as : List Action)
    (has : (Runs.run accept (initial concurrency maxRetries) as).isSome) :
    Runs.Always accept Truthful (initial concurrency maxRetries) as ↔
      Runs.Throughout accept (fun s a => countsAlong s a) (initial concurrency maxRetries) as :=
  Runs.always_iff_throughout truthful_step has ⟨rfl, rfl⟩

/-! ## An escalation -/

/-- An issue that fails until it is given up is counted. -/
def untilGivenUp : List Action :=
  [.enqueueIssue 1 "a".toList "u".toList [], .claimIssue 1 0, .recordFailure 1 none,
    .claimIssue 1 0, .recordFailure 1 none]

def givenUp : AfkState := (Runs.run accept (initial 2 2) untilGivenUp).get (by decide)

theorem counters_truthful_givenUp : givenUp.failed = givenUp.countStatus .humanReview := by
  have hrun : Runs.run accept (initial 2 2) untilGivenUp = some givenUp := (Option.some_get _).symm
  have halways : Runs.Always accept Truthful (initial 2 2) untilGivenUp :=
    (counters_truthful 2 2 untilGivenUp (by decide)).mpr (by decide)
  exact (halways.finish hrun).failed

/-- The objective gate stays red: the issue is handed to a human. -/
def untilEscalated : List Action :=
  [.enqueueIssue 1 "a".toList "u".toList [], .claimIssue 1 0, .setStatus 1 .running,
    .setPr 1 7, .setStatus 1 .prOpen, .setStatus 1 .humanReview]

/-- The escalated issue is in human review and `failed` is still zero. -/
theorem escalation_not_counted : ¬ ∀ (as : List Action) (s : AfkState),
    Runs.run accept (initial 2 2) as = some s →
    s.completed = s.countStatus .merged ∧ s.failed = s.countStatus .humanReview := by
  intro hclaim
  let s := (Runs.run accept (initial 2 2) untilEscalated).get (by decide)
  have hcount := (hclaim untilEscalated s (Option.some_get _).symm).2
  exact absurd hcount (by decide)

end Agentrail.Afk
