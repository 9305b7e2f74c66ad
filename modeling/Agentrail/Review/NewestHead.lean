import Agentrail.Review.ReviewJobs

/-!
# The newest head of a pull request

An enqueue supersedes the queued jobs of the pull request and leaves a running
one alone.  A running job that is released, that fails with a retry left or that
went stale is queued again, whatever was enqueued in the meantime
(`released_head_queues_twice`).

`newest_head_pending`: if only the newest head of a pull request is put back,
only the newest head is ever queued.
-/

namespace Agentrail.Review

open Js Interleaving

/-! ## Heads of one pull request -/

def SamePullRequest (r r' : ReviewJobRow) : Prop :=
  r.workspaceId = r'.workspaceId ∧ r.repo = r'.repo ∧ r.prNumber = r'.prNumber

/-- The job `r'` was enqueued after `r`. -/
def Store.EnqueuedAfter (s : Store) (r r' : ReviewJobRow) : Prop :=
  List.Sublist [r, r'] s.jobs.rows

/-- At most one job of a pull request is queued, and none that has a newer head. -/
structure NewestPending (s : Store) : Prop where
  one : ∀ r ∈ s.jobs.rows, ∀ r' ∈ s.jobs.rows, SamePullRequest r r' → r.state = .queued →
    r'.state = .queued → r = r'
  newest : ∀ r r', s.EnqueuedAfter r r' → SamePullRequest r r' → r.state ≠ .queued

/-- The statement puts the running job `r` back into the queue. -/
def putsBack (now : Int) {β : Type} (q : Stmt β) (r : ReviewJobRow) : Bool :=
  match q with
  | .requeueStaleRunning => isStaleRunning now r
  | .completeFailed input => isRunning input.jobId r && !exhausted r
  | .release jobId => isRunning jobId r
  | _ => false

/-- No job is put back that has a newer head. -/
def PutsBackNewest ⦃β : Type⦄ (_ : List (Prog Stmt Unit)) (s : Store) (q : Stmt β) : Prop :=
  ∀ r r', s.EnqueuedAfter r r' → SamePullRequest r r' → ¬ putsBack s.now q r

theorem Writes.samePullRequest {β : Type} {q : Stmt β} {s : Store} {r r' : ReviewJobRow}
    (h : Writes q s r r') : SamePullRequest r' r := by
  cases h <;> exact ⟨rfl, rfl, rfl⟩

/-- A job that is queued after a statement has been put back by it. -/
theorem Writes.putsBack_of_queued {β : Type} {q : Stmt β} {s : Store} {r r' : ReviewJobRow}
    (h : Writes q s r r') (hq : r'.state = .queued) : putsBack s.now q r := by
  cases h with
  | supersede => cases hq
  | requeueStaleRunning h => exact h
  | failStaleQueued => cases hq
  | claimOldest => cases hq
  | skip => cases hq
  | completePosted => cases hq
  | @completeFailed input _ _ h =>
    by_cases hex : exhausted r
    · have hfailed : (failedRow input.error s.now r).state = .failed := if_pos hex
      rw [hfailed] at hq
      cases hq
    · show (isRunning input.jobId r && !exhausted r) = true
      rw [h, Bool.eq_false_iff.mpr hex]
      rfl
  | release h => exact h

/-! ## The invariant -/

/-- Of two jobs of one pull request only the later one is queued. -/
def OnlyLaterQueued (rows : List ReviewJobRow) : Prop :=
  rows.Pairwise fun r r' => SamePullRequest r r' → r.state ≠ .queued

/-- Ids are those that `reviewJobId` gives. -/
def NamedByHead (host : Host) (rows : List ReviewJobRow) : Prop :=
  ∀ r ∈ rows, r.id = reviewJobId host r.workspaceId r.repo r.prNumber r.headSha

def HeadInvariant (host : Host) (s : Store) : Prop :=
  OnlyLaterQueued s.jobs.rows ∧ NamedByHead host s.jobs.rows

theorem namedByHead_image (host : Host) {β : Type} (q : Stmt β) (s : Store)
    (image : ReviewJobRow → ReviewJobRow)
    (himage : ∀ r ∈ s.jobs.rows, image r = r ∨ Writes q s r (image r))
    (h : NamedByHead host s.jobs.rows) : NamedByHead host (s.jobs.rows.map image) := by
  intro r' hr'
  obtain ⟨r, hr, rfl⟩ := List.mem_map.mp hr'
  rcases himage r hr with heq | hw
  · rw [heq]
    exact h r hr
  · have hsame := hw.identity_eq
    unfold identity at hsame
    simp only [Prod.mk.injEq] at hsame
    obtain ⟨hid, hworkspace, hrepo, hpr, hhead, _⟩ := hsame
    rw [hid, hworkspace, hrepo, hpr, hhead]
    exact h r hr

theorem onlyLaterQueued_image {β : Type} (q : Stmt β) (s : Store)
    (image : ReviewJobRow → ReviewJobRow)
    (himage : ∀ r ∈ s.jobs.rows, image r = r ∨ Writes q s r (image r))
    (others : List (Prog Stmt Unit)) (hC : PutsBackNewest others s q)
    (h : OnlyLaterQueued s.jobs.rows) : OnlyLaterQueued (s.jobs.rows.map image) := by
  have hsame : ∀ r ∈ s.jobs.rows, SamePullRequest (image r) r := by
    intro r hr
    rcases himage r hr with heq | hw
    · rw [heq]
      exact ⟨rfl, rfl, rfl⟩
    · exact hw.samePullRequest
  unfold OnlyLaterQueued
  rw [List.pairwise_map, List.pairwise_iff_forall_sublist]
  intro r r' hafter hpr hqueued
  have hr : r ∈ s.jobs.rows := hafter.subset List.mem_cons_self
  have hr' : r' ∈ s.jobs.rows := hafter.subset (List.mem_cons_of_mem _ List.mem_cons_self)
  obtain ⟨hw, hrepo, hn⟩ := hsame r hr
  obtain ⟨hw', hrepo', hn'⟩ := hsame r' hr'
  have hpr₀ : SamePullRequest r r' :=
    ⟨hw.symm.trans (hpr.1.trans hw'), hrepo.symm.trans (hpr.2.1.trans hrepo'),
      hn.symm.trans (hpr.2.2.trans hn')⟩
  rcases himage r hr with heq | hwrite
  · rw [heq] at hqueued
    exact List.pairwise_iff_forall_sublist.mp h hafter hpr₀ hqueued
  · exact hC r r' hafter hpr₀ (hwrite.putsBack_of_queued hqueued)

/-- An enqueue of a new head leaves no other job of its pull request in the queue. -/
theorem onlyLaterQueued_enqueued (host : Host) (input : ReviewJobInput) (s : Store)
    (hfresh : (newRow host input s.now).id ∉ s.jobs.rows.map ReviewJobRow.id)
    (h : HeadInvariant host s) : OnlyLaterQueued (enqueued host input s) := by
  obtain ⟨hlater, hnamed⟩ := h
  unfold OnlyLaterQueued enqueued
  rw [List.pairwise_append, List.pairwise_map]
  refine ⟨hlater.imp ?_, List.pairwise_singleton _ _, ?_⟩
  · intro r r' hrr' hpr hqueued
    by_cases hs : supersedes input r
    · rw [if_pos hs] at hqueued
      cases hqueued
    · rw [if_neg hs] at hqueued hpr
      by_cases hs' : supersedes input r'
      · rw [if_pos hs'] at hpr
        exact hrr' hpr hqueued
      · rw [if_neg hs'] at hpr
        exact hrr' hpr hqueued
  · intro x hx new hnew hpr hqueued
    obtain rfl := List.mem_singleton.mp hnew
    obtain ⟨r, hr, rfl⟩ := List.mem_map.mp hx
    by_cases hs : supersedes input r
    · rw [if_pos hs] at hqueued
      cases hqueued
    · rw [if_neg hs] at hqueued hpr
      obtain ⟨hw, hrepo, hn⟩ := hpr
      -- the same head would have the same id
      have hhead : r.headSha ≠ input.headSha := by
        intro hhead
        apply hfresh
        refine List.mem_map.mpr ⟨r, hr, ?_⟩
        rw [hnamed r hr, hw, hrepo, hn, hhead]
        rfl
      apply hs
      unfold supersedes
      simp only [Bool.and_eq_true, decide_eq_true_eq]
      exact ⟨⟨⟨⟨hw, hrepo⟩, hn⟩, hhead⟩, hqueued⟩

theorem namedByHead_enqueued (host : Host) (input : ReviewJobInput) (s : Store)
    (h : NamedByHead host s.jobs.rows) : NamedByHead host (enqueued host input s) := by
  intro x hx
  rcases List.mem_append.mp hx with hx | hx
  · obtain ⟨r, hr, rfl⟩ := List.mem_map.mp hx
    by_cases hs : supersedes input r
    · rw [if_pos hs]
      exact h r hr
    · rw [if_neg hs]
      exact h r hr
  · obtain rfl := List.mem_singleton.mp hx
    rfl

/-- Every statement keeps the invariant. -/
theorem exec_headInvariant (host : Host) {β : Type} (q : Stmt β) (others : List (Prog Stmt Unit))
    (s : Store) (h : HeadInvariant host s) (hC : PutsBackNewest others s q) :
    HeadInvariant host (q.exec host s).2 := by
  unfold HeadInvariant
  rcases exec_row host q s with ⟨image, hrows, himage⟩ | ⟨input, hrows, hfresh⟩ <;> rw [hrows]
  · constructor
    · exact onlyLaterQueued_image q s image himage others hC h.1
    · exact namedByHead_image host q s image himage h.2
  · constructor
    · exact onlyLaterQueued_enqueued host input s hfresh h
    · exact namedByHead_enqueued host input s h.2

theorem newestPending_of_onlyLaterQueued (s : Store) (h : OnlyLaterQueued s.jobs.rows) :
    NewestPending s := by
  constructor
  · intro r hr r' hr' hpr hq hq'
    by_contra hne
    -- of two jobs one stands before the other
    obtain ⟨i, hi, rfl⟩ := List.getElem_of_mem hr
    obtain ⟨j, hj, rfl⟩ := List.getElem_of_mem hr'
    have hpair := List.pairwise_iff_getElem.mp h
    rcases Nat.lt_trichotomy i j with hij | rfl | hij
    · exact hpair i j hi hj hij hpr hq
    · exact hne rfl
    · exact hpair j i hj hi hij ⟨hpr.1.symm, hpr.2.1.symm, hpr.2.2.symm⟩ hq'
  · intro r r' hrr' hpr
    exact List.pairwise_iff_forall_sublist.mp h hrr' hpr

/-- **The newest head.** In every run from an empty queue in which no job is put back that has a
newer head, at most one job of a pull request is queued, and none that has a newer head. -/
theorem newest_head_pending (host : Host) (now : Int) (c : Config Store Stmt)
    (h : (reviewSystem host).Reaches PutsBackNewest ⟨emptyStore now, []⟩ c) :
    NewestPending c.store := by
  have hinv : HeadInvariant host c.store := by
    refine (reviewSystem host).reaches_store ?_ ?_ h ?_
    · intro β q others s hs hC
      exact exec_headInvariant host q others s hs hC
    · rintro s s' hs ⟨_, hjobs⟩
      unfold HeadInvariant
      rw [hjobs]
      exact hs
    · constructor
      · exact List.Pairwise.nil
      · intro r hr
        cases hr
  exact newestPending_of_onlyLaterQueued c.store hinv.1

/-! ## Two pushes -/

/-- SHA-1 is of no matter here: every name is its own hash. -/
def plainHost : Host := ⟨id⟩

def push (headSha : String) : ReviewJobInput :=
  { workspaceId := "w".toList, repo := "o/r".toList, prNumber := 7, headSha := headSha.toList,
    event := "opened".toList }

/-- The head is the authoritative one of its change record. -/
def recordOf (headSha : String) : ChangeRecord where
  workspaceId := "w".toList
  repo := "o/r".toList
  prNumber := some 7
  currentPrHeadSha := some headSha.toList
  currentPrHeadCycleId :=
    some (reviewJobId plainHost "w".toList "o/r".toList 7 headSha.toList)
  currentPrHeadAuthoritative := true

/-- An operation on its own, with enough steps to end. -/
def solo (op : Op) (steps : Nat) : List (System.Choice Store Stmt) :=
  .start (opProgram plainHost op) :: List.replicate steps (.step 0)

def recorded (headSha : String) : System.Choice Store Stmt :=
  .env fun s => { s with changeRecords := [recordOf headSha] }

theorem solo_valid (op : Op) (steps : Nat) :
    ∀ choice ∈ solo op steps, choice.Valid (reviewSystem plainHost) := by
  refine List.forall_mem_cons.mpr ⟨⟨op, rfl⟩, ?_⟩
  intro choice hc
  rw [List.eq_of_mem_replicate hc]
  exact trivial

theorem recorded_valid (headSha : String) :
    (recorded headSha).Valid (reviewSystem plainHost) :=
  fun _ => ⟨Int.le_refl _, rfl⟩

def jobIdOf (headSha : String) : Text :=
  reviewJobId plainHost "w".toList "o/r".toList 7 headSha.toList

/-- The head `a` is claimed, the head `b` is pushed, and then the review of `a` ends. -/
def secondPush (ending : Op) : List (System.Choice Store Stmt) :=
  solo (.enqueue (push "a")) 2 ++ recorded "a" ::
    solo (.claim ⟨"worker".toList, 5⟩ [{}]) 5 ++ solo (.enqueue (push "b")) 2 ++ solo ending 2

theorem secondPush_valid (ending : Op) :
    ∀ choice ∈ secondPush ending, choice.Valid (reviewSystem plainHost) := by
  unfold secondPush
  simp only [List.mem_append, List.mem_cons]
  rintro choice (((h | rfl | h) | h) | h)
  · exact solo_valid _ _ choice h
  · exact recorded_valid _
  · exact solo_valid _ _ choice h
  · exact solo_valid _ _ choice h
  · exact solo_valid _ _ choice h

def afterSecondPush (ending : Op) : Config Store Stmt :=
  (reviewSystem plainHost).schedule (secondPush ending) ⟨emptyStore 0, []⟩

/-- No job is put back. -/
def putsNothingBack ⦃β : Type⦄ (_ : List (Prog Stmt Unit)) (s : Store) (q : Stmt β) : Bool :=
  s.jobs.rows.all fun r => !putsBack s.now q r

theorem putsNothingBack_newest ⦃β : Type⦄ (others : List (Prog Stmt Unit)) (s : Store)
    (q : Stmt β) (h : putsNothingBack others s q) : PutsBackNewest others s q := by
  intro r r' hafter _ hback
  have hr : r ∈ s.jobs.rows := hafter.subset List.mem_cons_self
  have hnot := List.all_eq_true.mp h r hr
  rw [hback] at hnot
  cases hnot

/-- The review of `a` is posted: `b` is the one head that is queued. -/
theorem newest_head_pending_posted : ∃ c : Config Store Stmt,
    c.store.jobs.rows.map (fun r => (r.headSha, r.state)) =
      [("a".toList, .posted), ("b".toList, .queued)] ∧ NewestPending c.store := by
  refine ⟨afterSecondPush (.complete { jobId := jobIdOf "a", posted := true }),
    by decide +kernel, ?_⟩
  refine newest_head_pending plainHost 0 _ ?_
  exact (reviewSystem plainHost).schedule_reaches _ _ (secondPush_valid _)
    ((reviewSystem plainHost).meets_of_check putsNothingBack putsNothingBack_newest _ _
      (by decide +kernel))

/-- The claim of `a` is released: both heads are queued. -/
theorem released_head_queues_twice : ¬ ∀ (host : Host) (now : Int) (c : Config Store Stmt),
    (reviewSystem host).Reaches System.Any ⟨emptyStore now, []⟩ c → c.pool = [] →
    NewestPending c.store := by
  intro hclaim
  let c := afterSecondPush (.release (jobIdOf "a"))
  have hpending : NewestPending c.store := by
    refine hclaim plainHost 0 c ?_ (List.isEmpty_iff.mp (by decide +kernel))
    exact (reviewSystem plainHost).schedule_reaches _ _ (secondPush_valid _)
      ((reviewSystem plainHost).meets_any _ _)
  have hrows : c.store.jobs.rows.map (fun r => (r.headSha, r.state)) =
      [("a".toList, .queued), ("b".toList, .queued)] := by decide +kernel
  have hprs : ∀ r ∈ c.store.jobs.rows, ∀ r' ∈ c.store.jobs.rows, SamePullRequest r r' := by
    unfold SamePullRequest
    decide +kernel
  obtain ⟨a, ha, hpa⟩ := List.mem_map.mp (hrows ▸ List.mem_cons_self)
  obtain ⟨b, hb, hpb⟩ := List.mem_map.mp
    (hrows ▸ List.mem_cons_of_mem _ List.mem_cons_self)
  have heq := hpending.one a ha b hb (hprs a ha b hb) (Prod.mk.inj hpa).2 (Prod.mk.inj hpb).2
  have hheads : "a".toList = "b".toList :=
    (Prod.mk.inj hpa).1.symm.trans ((congrArg _ heq).trans (Prod.mk.inj hpb).1)
  exact absurd hheads (by decide)

end Agentrail.Review
