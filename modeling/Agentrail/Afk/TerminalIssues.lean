import Agentrail.Afk.Scheduling

/-!
# Issues that are done

An issue that was merged or handed to a human is worked again only after
`RequeueIssue`.  The reducer does not look at the status when it records a failure,
releases an issue or sets a status, so a failure after a merge queues the issue
again (`failure_requeues_merged`); `finished_issue_rests` says exactly which runs
keep it out of the queue.
-/

namespace Agentrail.Afk

open Py

/-- Queued, or the next issue that a worker would claim. -/
def Waiting (number : Int) (s : AfkState) : Prop :=
  ∃ i, s.issues.get number = some i ∧
    (i.status = .queued ∨ ∃ openBlockers, s.nextClaimable openBlockers = some i)

theorem waiting_iff (number : Int) (s : AfkState) :
    Waiting number s ↔ ∃ i, s.issues.get number = some i ∧ i.status = .queued := by
  constructor
  · rintro ⟨i, hi, hqueued | ⟨openBlockers, hnext⟩⟩
    · exact ⟨i, hi, hqueued⟩
    · exact ⟨i, hi, (s.nextClaimable_queued openBlockers i hnext).2⟩
  · rintro ⟨i, hi, hqueued⟩
    exact ⟨i, hi, Or.inl hqueued⟩

/-- The action is a release, a failure with a retry left or the status `queued` for the issue. -/
def Revives (number : Int) (s : AfkState) : Action → Prop
  | .releaseIssue n => n = number
  | .setStatus n status => n = number ∧ status = .queued
  | .recordFailure n _ =>
    n = number ∧ ∀ i, s.issues.get number = some i → i.retries + 1 < s.maxRetries
  | _ => False

theorem not_revives_of_isEdit (number : Int) (s : AfkState) (a : Action) (h : a.isEdit) :
    ¬ Revives number s a := by
  cases a <;> first | exact not_false | cases h

/-- The actions but the requeue of the issue. -/
def acceptBut (number : Int) (s : AfkState) (a : Action) : Option AfkState :=
  if a = .requeueIssue number then none else accept s a

/-- The issue is known and not queued. -/
def OutOfQueue (number : Int) (s : AfkState) : Prop :=
  ∃ i, s.issues.get number = some i ∧ i.status ≠ .queued

theorem OutOfQueue.not_waiting {number : Int} {s : AfkState} (h : OutOfQueue number s) :
    ¬ Waiting number s := by
  obtain ⟨i, hi, hout⟩ := h
  rw [waiting_iff]
  rintro ⟨j, hj, hqueued⟩
  obtain rfl : i = j := Option.some.inj (hi.symm.trans hj)
  exact hout hqueued

/-- The status after an action on the issue itself. -/
theorem outOfQueue_set (s t : AfkState) (number : Int) (i' : IssueState)
    (ht : t.issues = s.issues.set number i') : OutOfQueue number t ↔ i'.status ≠ .queued := by
  unfold OutOfQueue
  rw [ht, Dict.get_set_self]
  constructor
  · rintro ⟨i, hi, hout⟩
    cases hi
    exact hout
  · intro hout
    exact ⟨i', rfl, hout⟩

/-- An action on another issue. -/
theorem outOfQueue_other (s t : AfkState) (number n : Int) (i' : IssueState) (hn : n ≠ number)
    (ht : t.issues = s.issues.set n i') (h : OutOfQueue number s) : OutOfQueue number t := by
  obtain ⟨i, hi, hout⟩ := h
  refine ⟨i, ?_, hout⟩
  rw [ht, Dict.get_set_ne _ _ _ _ hn]
  exact hi

/-- **One action.** An issue that is out of the queue stays so exactly where it is not revived. -/
theorem outOfQueue_step (number : Int) (s : AfkState) (a : Action) (t : AfkState)
    (h : acceptBut number s a = some t) (hs : OutOfQueue number s) :
    OutOfQueue number t ↔ ¬ Revives number s a := by
  unfold acceptBut at h
  split at h
  · cases h
  next hrequeue =>
  cases accept_effect s t a h with
  | known => exact ⟨fun _ => not_false, fun _ => hs⟩
  | same => exact ⟨fun _ => not_false, fun _ => hs⟩
  | frees => exact ⟨fun _ => not_false, fun _ => hs⟩
  | @enqueues n title url blockedBy hnone =>
    have hn : n ≠ number := by
      rintro rfl
      obtain ⟨i, hi, _⟩ := hs
      rw [hi] at hnone
      cases hnone
    exact ⟨fun _ => not_false, fun _ => outOfQueue_other s _ number n _ hn rfl hs⟩
  | @edits _ n i i' hedit hi hstatus _ =>
    have hkept : OutOfQueue number { s with issues := s.issues.set n i' } := by
      by_cases hn : n = number
      · subst hn
        rw [outOfQueue_set s _ n i' rfl, hstatus]
        obtain ⟨j, hj, hout⟩ := hs
        obtain rfl : i = j := Option.some.inj (hi.symm.trans hj)
        exact hout
      · exact outOfQueue_other s _ number n i' hn rfl hs
    exact ⟨fun _ => not_revives_of_isEdit number s a hedit, fun _ => hkept⟩
  | @claims n slot i hi hqueued _ =>
    have hn : n ≠ number := by
      rintro rfl
      exact hs.not_waiting ((waiting_iff n s).mpr ⟨i, hi, hqueued⟩)
    exact ⟨fun _ => not_false, fun _ => outOfQueue_other s _ number n _ hn rfl hs⟩
  | @releases n i hi =>
    show _ ↔ ¬ n = number
    by_cases hn : n = number
    · subst hn
      rw [outOfQueue_set s _ n _ rfl]
      simp
    · exact ⟨fun _ => hn, fun _ => outOfQueue_other s _ number n _ hn rfl hs⟩
  | @sets n status i hi =>
    show _ ↔ ¬ (n = number ∧ status = .queued)
    by_cases hn : n = number
    · subst hn
      rw [outOfQueue_set s _ n _ rfl]
      simp [statusIssue]
    · exact ⟨fun _ h => hn h.1, fun _ => outOfQueue_other s _ number n _ hn rfl hs⟩
  | @fails n error i hi =>
    show _ ↔ ¬ (n = number ∧ ∀ j, s.issues.get number = some j → j.retries + 1 < s.maxRetries)
    by_cases hn : n = number
    · subst hn
      rw [outOfQueue_set s _ n _ rfl]
      have hretries : (∀ j, s.issues.get n = some j → j.retries + 1 < s.maxRetries) ↔
          i.retries + 1 < s.maxRetries := by
        rw [hi]
        exact ⟨fun h => h i rfl, fun h j hj => by cases hj; exact h⟩
      rw [hretries]
      show (if s.maxRetries ≤ i.retries + 1 then IssueStatus.humanReview else .queued) ≠ .queued ↔ _
      by_cases hcap : s.maxRetries ≤ i.retries + 1
      · rw [if_pos hcap]
        simp
        omega
      · rw [if_neg hcap]
        simp
        omega
    · exact ⟨fun _ h => hn h.1, fun _ => outOfQueue_other s _ number n _ hn rfl hs⟩
  | @requeues n i hi =>
    have hn : n ≠ number := by
      rintro rfl
      exact hrequeue rfl
    exact ⟨fun _ => not_false, fun _ => outOfQueue_other s _ number n _ hn rfl hs⟩

theorem isTerminal_ne_queued (status : IssueStatus) (h : status.isTerminal) :
    status ≠ .queued := by
  rintro rfl
  cases h

/-- A known issue is out of the queue or waits. -/
theorem outOfQueue_iff (number : Int) (s : AfkState) (hknown : (s.issues.get number).isSome) :
    OutOfQueue number s ↔ ¬ Waiting number s := by
  obtain ⟨i, hi⟩ := Option.isSome_iff_exists.mp hknown
  constructor
  · exact OutOfQueue.not_waiting
  · intro hwait
    refine ⟨i, hi, ?_⟩
    intro hqueued
    exact hwait ((waiting_iff number s).mpr ⟨i, hi, hqueued⟩)

/-- No action forgets an issue. -/
theorem known_step (number : Int) (s : AfkState) (a : Action) (t : AfkState)
    (h : acceptBut number s a = some t) (hs : (s.issues.get number).isSome) :
    (t.issues.get number).isSome := by
  unfold acceptBut at h
  split at h
  · cases h
  have hset : ∀ n i', ((s.issues.set n i').get number).isSome := by
    intro n i'
    rw [Dict.get_set]
    split
    · rfl
    · exact hs
  cases accept_effect s t a h with
  | known => exact hs
  | same => exact hs
  | frees => exact hs
  | _ => exact hset _ _

/-- **Done stays done.** Once the status of an issue is terminal, and as long as it is not
requeued, it stays out of the queue exactly in the runs in which no action revives it. -/
theorem finished_issue_rests (s : AfkState) (number : Int) (i : IssueState)
    (hi : s.issues.get number = some i) (hdone : i.status.isTerminal) (as : List Action)
    (has : (Runs.run (acceptBut number) s as).isSome) :
    Runs.Always (acceptBut number) (fun t => ¬ Waiting number t) s as ↔
      Runs.Throughout (acceptBut number) (fun t a => ¬ Revives number t a) s as := by
  have hout : OutOfQueue number s := ⟨i, hi, isTerminal_ne_queued i.status hdone⟩
  rw [← Runs.always_iff_throughout (outOfQueue_step number) has hout]
  constructor
  · intro h
    exact h.mono_invariant (known_step number) (Option.isSome_iff_exists.mpr ⟨i, hi⟩)
      fun t hknown hwait => (outOfQueue_iff number t hknown).mpr hwait
  · intro h
    exact h.mono fun t hkept => hkept.not_waiting

/-! ## A failure after the merge -/

/-- The start of a worker on the one issue of the queue, up to its merge. -/
def untilMerged : List Action :=
  [.enqueueIssue 1 "a".toList "u".toList [], .claimIssue 1 0, .setStatus 1 .running,
    .setStatus 1 .merged]

def merged : AfkState := (Runs.run accept (initial 2 2) untilMerged).get (by decide)

theorem run_untilMerged : Runs.run accept (initial 2 2) untilMerged = some merged :=
  (Option.some_get _).symm

/-- The labels of the issue could not be removed: the worker records a failure. -/
def afterMerge : List Action := [.recordFailure 1 (some "worker exception: gh".toList)]

theorem merged_eq : (merged.issues.get 1).map IssueState.status = some .merged := by decide

/-- An edit of the merged issue leaves it alone. -/
theorem finished_issue_rests_merged :
    Runs.Always (acceptBut 1) (fun t => ¬ Waiting 1 t) merged [.setPr 1 7] := by
  obtain ⟨i, hi, hstatus⟩ := Option.map_eq_some_iff.mp merged_eq
  refine (finished_issue_rests merged 1 i hi ?_ [.setPr 1 7] (by decide)).mpr ?_
  · rw [hstatus]
    rfl
  · exact ⟨not_false, fun _ _ => trivial⟩

/-- A failure recorded after the merge queues the merged issue again. -/
theorem failure_requeues_merged : ¬ ∀ (as bs : List Action) (s t : AfkState) (i : IssueState),
    Runs.run accept (initial 2 2) as = some s → s.issues.get 1 = some i →
    (i.status = .merged ∨ i.status = .humanReview) → Runs.run accept s bs = some t →
    .requeueIssue 1 ∉ bs → ¬ Waiting 1 t := by
  intro hclaim
  obtain ⟨i, hi, hstatus⟩ := Option.map_eq_some_iff.mp merged_eq
  have hqueued : ((Runs.run accept merged afterMerge).bind fun t =>
      (t.issues.get 1).map IssueState.status) = some .queued := by decide
  obtain ⟨t, ht, hstatus'⟩ := Option.bind_eq_some_iff.mp hqueued
  obtain ⟨j, hj, hj'⟩ := Option.map_eq_some_iff.mp hstatus'
  refine hclaim untilMerged afterMerge merged t i run_untilMerged hi (Or.inl hstatus) ht
    (by decide) ?_
  exact (waiting_iff 1 t).mpr ⟨j, hj, hj'⟩

end Agentrail.Afk
