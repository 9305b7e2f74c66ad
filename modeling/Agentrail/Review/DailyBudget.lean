import Agentrail.Review.NewestHead

/-!
# The daily budget of reviews

A claim takes the oldest job of the queue and only then counts: the jobs of its
workspace that were created today and are not superseded, whether or not anyone
reviewed them.  Over the budget it skips the job and takes the next one, so a
backlog beyond the budget is skipped from end to end (`backlog_skipped`).

`skipped_over_budget`: in every sequence of operations a job is skipped only by a
claim that finds more than the budget of them.  What a claim takes and skips does
not change the count, so all its rounds find the same one (`claimEligible_within`).
-/

namespace Agentrail.Review

open Js Interleaving

/-! ## The count -/

/-- An update that keeps the jobs out of `superseded` keeps every count. -/
theorem countToday_updateJobs (s : Store) (p : ReviewJobRow → Bool)
    (f : ReviewJobRow → ReviewJobRow) (hf : ∀ r, (f r).id = r.id)
    (hsame : ∀ r ∈ s.jobs.rows, p r → identity (f r) = identity r ∧
      (f r).state ≠ .superseded ∧ r.state ≠ .superseded) (workspaceId : Text) :
    (s.updateJobs p f hf).countToday workspaceId = s.countToday workspaceId := by
  unfold Store.countToday Table.select
  rw [← List.countP_eq_length_filter, ← List.countP_eq_length_filter]
  show (s.jobs.rows.map fun r => if p r then f r else r).countP _ = _
  rw [List.countP_map]
  apply List.countP_congr
  intro r hr
  show countsToday s.now workspaceId (if p r then f r else r) ↔ countsToday s.now workspaceId r
  by_cases hp : p r
  · rw [if_pos hp]
    obtain ⟨hid, hnew, hold⟩ := hsame r hr hp
    unfold identity at hid
    simp only [Prod.mk.injEq] at hid
    unfold countsToday
    rw [hid.2.1, hid.2.2.2.2.2]
    simp [hnew, hold]
  · rw [if_neg hp]

/-! ## What is skipped -/

def WasSkipped (s : Store) (r' : ReviewJobRow) : Prop :=
  ∃ r ∈ s.jobs.rows, identity r = identity r' ∧ r.state = .skipped

def Stmt.skips {β : Type} : Stmt β → Bool
  | .skip _ => true
  | _ => false

theorem Writes.skips_of_skipped {β : Type} {q : Stmt β} {s : Store} {r r' : ReviewJobRow}
    (h : Writes q s r r') (hs : r'.state = .skipped) : q.skips := by
  cases h with
  | skip => rfl
  | @completeFailed input _ _ =>
    by_cases hex : exhausted r
    · have hfailed : (failedRow input.error s.now r).state = .failed := if_pos hex
      rw [hfailed] at hs
      cases hs
    · have hqueued : (failedRow input.error s.now r).state = .queued := if_neg hex
      rw [hqueued] at hs
      cases hs
  | _ => cases hs

/-- Every other statement leaves the skipped jobs as they are. -/
theorem exec_skipped (host : Host) {β : Type} (q : Stmt β) (s : Store) (hq : q.skips = false)
    (r' : ReviewJobRow) (hr' : r' ∈ (q.exec host s).2.jobs.rows) (hs : r'.state = .skipped) :
    WasSkipped s r' := by
  rcases exec_row host q s with ⟨image, hrows, himage⟩ | ⟨input, hrows, _⟩ <;> rw [hrows] at hr'
  · obtain ⟨r, hr, rfl⟩ := List.mem_map.mp hr'
    rcases himage r hr with heq | hw
    · rw [heq] at hs ⊢
      exact ⟨r, hr, rfl, hs⟩
    · rw [hw.skips_of_skipped hs] at hq
      cases hq
  · rcases List.mem_append.mp hr' with hr' | hr'
    · obtain ⟨r, hr, rfl⟩ := List.mem_map.mp hr'
      by_cases hsup : supersedes input r
      · rw [if_pos hsup] at hs
        cases hs
      · rw [if_neg hsup] at hs ⊢
        exact ⟨r, hr, rfl, hs⟩
    · obtain rfl := List.mem_singleton.mp hr'
      cases hs

/-! ## A claim -/

/-- What the statements of a claim do: the counts stay, and a job is skipped over the budget
only. -/
structure WithinClaim (dailyBudget : Nat) (s s' : Store) : Prop where
  counts : ∀ workspaceId, s'.countToday workspaceId = s.countToday workspaceId
  skips : ∀ r' ∈ s'.jobs.rows, r'.state = .skipped →
    WasSkipped s r' ∨ dailyBudget < s.countToday r'.workspaceId

theorem WithinClaim.refl (dailyBudget : Nat) (s : Store) : WithinClaim dailyBudget s s :=
  ⟨fun _ => rfl, fun r' hr' h => Or.inl ⟨r', hr', rfl, h⟩⟩

theorem WithinClaim.trans {dailyBudget : Nat} {s s' s'' : Store}
    (h : WithinClaim dailyBudget s s') (h' : WithinClaim dailyBudget s' s'') :
    WithinClaim dailyBudget s s'' := by
  constructor
  · intro workspaceId
    rw [h'.counts, h.counts]
  · intro r'' hr'' hskipped
    rcases h'.skips r'' hr'' hskipped with ⟨r', hr', hid', hs'⟩ | hover
    · have hworkspace : r'.workspaceId = r''.workspaceId := congrArg (fun x => x.2.1) hid'
      rcases h.skips r' hr' hs' with ⟨r, hr, hid, hs⟩ | hover
      · exact Or.inl ⟨r, hr, hid.trans hid', hs⟩
      · exact Or.inr (hworkspace ▸ hover)
    · rw [h.counts] at hover
      exact Or.inr hover

section
variable (host : Host) (dailyBudget : Nat)

theorem requeueStaleRunning_within (s : Store) :
    WithinClaim dailyBudget s (Stmt.exec host .requeueStaleRunning s).2 := by
  constructor
  · intro workspaceId
    refine countToday_updateJobs s (isStaleRunning s.now) (requeuedRow s.now) (fun _ => rfl) ?_ _
    intro r _ hstale
    unfold isStaleRunning at hstale
    simp only [Bool.and_eq_true, decide_eq_true_eq] at hstale
    refine ⟨rfl, nofun, ?_⟩
    rw [hstale.1]
    exact nofun
  · intro r' hr' hs
    exact Or.inl (exec_skipped host .requeueStaleRunning s rfl r' hr' hs)

theorem failStaleQueued_within (s : Store) :
    WithinClaim dailyBudget s (Stmt.exec host .failStaleQueued s).2 := by
  constructor
  · intro workspaceId
    refine countToday_updateJobs s isStaleQueued (staleFailedRow s.now) (fun _ => rfl) ?_ _
    intro r _ hstale
    unfold isStaleQueued at hstale
    simp only [Bool.and_eq_true, decide_eq_true_eq] at hstale
    refine ⟨rfl, nofun, ?_⟩
    rw [hstale.1]
    exact nofun
  · intro r' hr' hs
    exact Or.inl (exec_skipped host .failStaleQueued s rfl r' hr' hs)

/-- The store after a claim of `row`. -/
def Store.claim (s : Store) (workerId : Text) (row : ReviewJobRow) : Store :=
  s.updateJobs (fun r => r.id = row.id) (claimedRow workerId s.now) fun _ => rfl

theorem exec_claimOldest (workerId : Text) (scan : Scan) (s : Store) (row : ReviewJobRow)
    (h : s.nextClaim scan = some row) : Stmt.exec host (.claimOldest workerId scan) s =
      (some (claimedRow workerId s.now row), s.claim workerId row) := by
  simp only [Stmt.exec]
  rw [h]
  rfl

theorem exec_claimOldest_none (workerId : Text) (scan : Scan) (s : Store)
    (h : s.nextClaim scan = none) : Stmt.exec host (.claimOldest workerId scan) s = (none, s) := by
  simp only [Stmt.exec]
  rw [h]

include host in
theorem claim_within (workerId : Text) (scan : Scan) (s : Store) (row : ReviewJobRow)
    (h : s.nextClaim scan = some row) : WithinClaim dailyBudget s (s.claim workerId row) := by
  have hexec := exec_claimOldest host workerId scan s row h
  obtain ⟨hmem, hclaimable⟩ := nextClaim_mem s scan row h
  unfold Store.claimable at hclaimable
  simp only [Bool.and_eq_true, decide_eq_true_eq] at hclaimable
  constructor
  · intro workspaceId
    refine countToday_updateJobs s (fun r => r.id = row.id) (claimedRow workerId s.now)
      (fun _ => rfl) ?_ _
    intro r hr hid
    obtain rfl := s.jobs.eq_of_id r row hr hmem (of_decide_eq_true hid)
    refine ⟨rfl, nofun, ?_⟩
    rw [hclaimable.1.1.1.1]
    exact nofun
  · intro r' hr' hs
    exact Or.inl (exec_skipped host (.claimOldest workerId scan) s rfl r'
      (by rw [hexec]; exact hr') hs)

/-- The claimed job is skipped over the budget. -/
theorem skip_within (workerId : Text) (scan : Scan) (s : Store) (row : ReviewJobRow)
    (h : s.nextClaim scan = some row)
    (hover : dailyBudget < (s.claim workerId row).countToday row.workspaceId) :
    WithinClaim dailyBudget (s.claim workerId row)
      (Stmt.exec host (.skip row.id) (s.claim workerId row)).2 := by
  have hmem := (nextClaim_mem s scan row h).1
  -- the job that the id names is the claimed one
  have hrow : ∀ r ∈ (s.claim workerId row).jobs.rows, r.id = row.id →
      r = claimedRow workerId s.now row := by
    intro r hr hid
    obtain ⟨r₀, hr₀, hset⟩ := List.mem_map.mp hr
    by_cases hr₀id : r₀.id = row.id
    · obtain rfl := s.jobs.eq_of_id r₀ row hr₀ hmem hr₀id
      rw [if_pos (decide_eq_true rfl)] at hset
      exact hset.symm
    · rw [if_neg (by simpa using hr₀id)] at hset
      exact absurd (hset ▸ hid) hr₀id
  constructor
  · intro workspaceId
    refine countToday_updateJobs _ (fun r => r.id = row.id) (skippedRow s.now) (fun _ => rfl) ?_ _
    intro r hr hid
    obtain rfl := hrow r hr (of_decide_eq_true hid)
    exact ⟨rfl, nofun, nofun⟩
  · intro r' hr' hs
    obtain ⟨r, hr, hset⟩ := List.mem_map.mp hr'
    by_cases hid : r.id = row.id
    · right
      rw [if_pos (decide_eq_true hid)] at hset
      have hworkspace : r'.workspaceId = row.workspaceId := by
        rw [← hset, hrow r hr hid]
        rfl
      rw [hworkspace]
      exact hover
    · left
      rw [if_neg (by simpa using hid)] at hset
      rw [← hset] at hs ⊢
      exact ⟨r, hr, rfl, hs⟩

end

/-- A claimed job is of a workspace within the budget. -/
def TakesWithin (dailyBudget : Nat) (s : Store) : ClaimResult → Prop
  | .claimed row => s.countToday row.workspaceId ≤ dailyBudget
  | _ => True

theorem TakesWithin.of_counts {dailyBudget : Nat} {s s' : Store} {result : ClaimResult}
    (h : TakesWithin dailyBudget s' result)
    (hcounts : ∀ workspaceId, s'.countToday workspaceId = s.countToday workspaceId) :
    TakesWithin dailyBudget s result := by
  cases result with
  | claimed row =>
    show s.countToday row.workspaceId ≤ dailyBudget
    rw [← hcounts]
    exact h
  | nothing => exact trivial
  | unfinished => exact trivial

/-- **The rounds of a claim.** -/
theorem claimEligible_within (host : Host) (input : ClaimReviewJobInput) (scans : List Scan)
    (s : Store) :
    WithinClaim input.dailyBudget s
        ((claimEligibleReviewJob input scans).alone (Stmt.exec host) s).2 ∧
      TakesWithin input.dailyBudget s
        ((claimEligibleReviewJob input scans).alone (Stmt.exec host) s).1 := by
  induction scans generalizing s with
  | nil => exact ⟨.refl _ s, trivial⟩
  | cons scan scans ih =>
    unfold claimEligibleReviewJob
    rw [Prog.stmt_bind]
    unfold Prog.alone
    cases h : s.nextClaim scan with
    | none =>
      rw [exec_claimOldest_none host _ scan s h]
      exact ⟨.refl _ s, trivial⟩
    | some row =>
      rw [exec_claimOldest host _ scan s row h]
      have hclaim := claim_within host input.dailyBudget input.workerId scan s row h
      have hcount := hclaim.counts row.workspaceId
      show WithinClaim _ _ (Prog.alone _ (if (s.claim input.workerId row).countToday
          row.workspaceId > input.dailyBudget then _ else _) _).2 ∧
        TakesWithin _ _ (Prog.alone _ (if (s.claim input.workerId row).countToday
          row.workspaceId > input.dailyBudget then _ else _) _).1
      by_cases hover : (s.claim input.workerId row).countToday row.workspaceId > input.dailyBudget
      · rw [if_pos hover]
        have hskip := hclaim.trans
          (skip_within host input.dailyBudget input.workerId scan s row h hover)
        obtain ⟨hrest, htakes⟩ :=
          ih (Stmt.exec host (.skip row.id) (s.claim input.workerId row)).2
        refine ⟨hskip.trans hrest, ?_⟩
        show TakesWithin _ _ (Prog.alone _ (claimEligibleReviewJob input scans) _).1
        exact htakes.of_counts hskip.counts
      · rw [if_neg hover]
        refine ⟨hclaim, ?_⟩
        show s.countToday row.workspaceId ≤ input.dailyBudget
        rw [← hcount]
        omega

theorem claimReviewJob_within (host : Host) (input : ClaimReviewJobInput) (scans : List Scan)
    (s : Store) :
    WithinClaim input.dailyBudget s
        ((claimReviewJob input scans).alone (Stmt.exec host) s).2 ∧
      TakesWithin input.dailyBudget s
        ((claimReviewJob input scans).alone (Stmt.exec host) s).1 := by
  let s₁ := (Stmt.exec host .requeueStaleRunning s).2
  have hprepass := (requeueStaleRunning_within host input.dailyBudget s).trans
    (failStaleQueued_within host input.dailyBudget s₁)
  obtain ⟨hrounds, htakes⟩ :=
    claimEligible_within host input scans (Stmt.exec host .failStaleQueued s₁).2
  exact ⟨hprepass.trans hrounds, htakes.of_counts hprepass.counts⟩

/-! ## Sequences of operations -/

/-- An operation, or what happens between two of them. -/
inductive Move where
  | op (operation : Op)
  | elapse (time : Nat)
  | record (changeRecords : List ChangeRecord)

def Move.run (host : Host) : Move → Store → Store
  | .op operation, s => ((opProgram host operation).alone (Stmt.exec host) s).2
  | .elapse time, s => { s with now := s.now + time }
  | .record changeRecords, s => { s with changeRecords := changeRecords }

def runAll (host : Host) (moves : List Move) (s : Store) : Store :=
  moves.foldl (fun s move => move.run host s) s

theorem alone_discard (host : Host) {α : Type} (p : Prog Stmt α) (s : Store) :
    ((p >>= fun _ => pure ()).alone (Stmt.exec host) s).2 = (p.alone (Stmt.exec host) s).2 :=
  congrArg Prod.snd (Prog.alone_bind (Stmt.exec host) p (fun _ => pure ()) s)

/-- The move is a claim that finds the workspace over its budget. -/
def Move.OverBudget (s : Store) (workspaceId : Text) : Move → Prop
  | .op (.claim input _) => input.dailyBudget < s.countToday workspaceId
  | _ => False

/-- Only a claim over the budget skips a job. -/
theorem run_skipped (host : Host) (move : Move) (s : Store) (r' : ReviewJobRow)
    (hr' : r' ∈ (move.run host s).jobs.rows) (hs : r'.state = .skipped) :
    WasSkipped s r' ∨ move.OverBudget s r'.workspaceId := by
  cases move with
  | elapse time => exact Or.inl ⟨r', hr', rfl, hs⟩
  | record changeRecords => exact Or.inl ⟨r', hr', rfl, hs⟩
  | op operation =>
    cases operation with
    | enqueue input => exact Or.inl (exec_skipped host (.enqueue input) s rfl r' hr' hs)
    | claim input scans =>
      have hmem : r' ∈ ((claimReviewJob input scans).alone (Stmt.exec host) s).2.jobs.rows :=
        alone_discard host (claimReviewJob input scans) s ▸ hr'
      exact (claimReviewJob_within host input scans s).1.skips r' hmem hs
    | complete input =>
      left
      have hmem : r' ∈ ((completeReviewJob input).alone (Stmt.exec host) s).2.jobs.rows :=
        alone_discard host (completeReviewJob input) s ▸ hr'
      unfold completeReviewJob at hmem
      by_cases hposted : input.posted
      · rw [if_pos hposted] at hmem
        exact exec_skipped host (.completePosted input) s rfl r' hmem hs
      · rw [if_neg hposted] at hmem
        exact exec_skipped host (.completeFailed input) s rfl r' hmem hs
    | release jobId => exact Or.inl (exec_skipped host (.release jobId) s rfl r' hr' hs)

theorem runAll_skipped (host : Host) (moves : List Move) (s : Store) (r' : ReviewJobRow)
    (hr' : r' ∈ (runAll host moves s).jobs.rows) (hs : r'.state = .skipped) :
    WasSkipped s r' ∨ ∃ before move after, moves = before ++ move :: after ∧
      move.OverBudget (runAll host before s) r'.workspaceId := by
  induction moves generalizing s with
  | nil => exact Or.inl ⟨r', hr', rfl, hs⟩
  | cons move moves ih =>
    rcases ih (move.run host s) hr' with ⟨r, hr, hid, hskipped⟩ | ⟨before, m, after, rfl, hover⟩
    · have hworkspace : r.workspaceId = r'.workspaceId := congrArg (fun x => x.2.1) hid
      rcases run_skipped host move s r hr hskipped with ⟨r₀, hr₀, hid₀, hskipped₀⟩ | hover
      · exact Or.inl ⟨r₀, hr₀, hid₀.trans hid, hskipped₀⟩
      · exact Or.inr ⟨[], move, moves, rfl, hworkspace ▸ hover⟩
    · exact Or.inr ⟨move :: before, m, after, rfl, hover⟩

/-- The workspace and the day of every job that a claim returned. -/
def admissions (host : Host) : List Move → Store → List (Text × Int)
  | [], _ => []
  | .op (.claim input scans) :: moves, s =>
    (match ((claimReviewJob input scans).alone (Stmt.exec host) s).1 with
      | .claimed row => [(row.workspaceId, s.now / DAY)]
      | _ => []) ++ admissions host moves ((Move.op (.claim input scans)).run host s)
  | move :: moves, s => admissions host moves (move.run host s)

/-- How many jobs of the workspace were admitted to review on the day of the last move. -/
def admittedToday (host : Host) (moves : List Move) (s : Store) (workspaceId : Text) : Nat :=
  (admissions host moves s).count (workspaceId, (runAll host moves s).now / DAY)

/-- The one head of the pull request `prNumber`. -/
def pullRequest (prNumber : Nat) : ReviewJobInput :=
  { workspaceId := "w".toList, repo := "o/r".toList, prNumber := prNumber,
    headSha := "a".toList, event := "opened".toList }

def recordOfPullRequest (prNumber : Nat) : ChangeRecord where
  workspaceId := "w".toList
  repo := "o/r".toList
  prNumber := some prNumber
  currentPrHeadSha := some "a".toList
  currentPrHeadCycleId := some (reviewJobId plainHost "w".toList "o/r".toList prNumber "a".toList)
  currentPrHeadAuthoritative := true

def queueUp : List Move :=
  [.op (.enqueue (pullRequest 1)), .op (.enqueue (pullRequest 2)),
    .record [recordOfPullRequest 1, recordOfPullRequest 2]]

/-- Two pull requests are queued, and a claim comes with a budget of one. -/
def backlog : List Move := queueUp ++ [.op (.claim ⟨"worker".toList, 1⟩ [{}, {}, {}])]

theorem backlog_states :
    (runAll plainHost backlog (emptyStore 0)).jobs.rows.map (fun r => (r.workspaceId, r.state)) =
      [("w".toList, .skipped), ("w".toList, .skipped)] := by
  decide +kernel

end Agentrail.Review
