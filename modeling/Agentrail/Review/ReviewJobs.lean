import Agentrail.Js.Basic
import Agentrail.Lib.Interleaving
import Agentrail.Lib.Table

/-!
# The review queue (`review_jobs.ts`)

Every event of a pull request enqueues a job for its head; a worker claims jobs
one by one and completes, fails or releases each.  `Stmt` has one constructor for
each SQL statement of the module.  The transaction of an enqueue holds the
advisory lock of its pull request from end to end and is one statement.

`Writes` says once what a statement can do to a job (`exec_row`).  Rows stand in
the order in which they were enqueued.  Times count microseconds.
-/

namespace Agentrail.Review

open Js Interleaving

/-! ## The tables -/

inductive ReviewJobState where
  | queued
  | running
  | posted
  | superseded
  | skipped
  | failed
  deriving DecidableEq, Repr

structure ReviewJobRow where
  id : Text
  workspaceId : Text
  repo : Text
  prNumber : Nat
  headSha : Text
  event : Text
  state : ReviewJobState := .queued
  attempts : Nat := 0
  claimedBy : Option Text := none
  claimedAt : Option Int := none
  nextEligibleAt : Option Int := none
  postedReviewUrl : Option Text := none
  verdict : Option Text := none
  skipReason : Option Text := none
  evidenceKeys : Option (List Text) := none
  createdAt : Int := 0
  updatedAt : Int := 0

/-- The primary key. -/
def reviewJobKeys : List (ReviewJobRow → Text) := [ReviewJobRow.id]

abbrev ReviewJobTable := Table ReviewJobRow reviewJobKeys

/-- The columns of `change_records` that the claim reads. -/
structure ChangeRecord where
  workspaceId : Text
  repo : Text
  prNumber : Option Nat
  currentPrHeadSha : Option Text
  currentPrHeadCycleId : Option Text
  currentPrHeadAuthoritative : Bool
  deriving DecidableEq, Repr

structure Store where
  jobs : ReviewJobTable
  changeRecords : List ChangeRecord
  now : Int

def emptyStore (now : Int) : Store := { jobs := .empty, changeRecords := [], now := now }

theorem keeps_reviewJobKeys (f : ReviewJobRow → ReviewJobRow) (hid : ∀ r, (f r).id = r.id) :
    Table.Keeps reviewJobKeys f := by
  intro key hkey r
  obtain rfl := List.mem_singleton.mp hkey
  exact hid r

/-- One job for each id. -/
theorem ReviewJobTable.eq_of_id (t : ReviewJobTable) (r r' : ReviewJobRow) (h : r ∈ t.rows)
    (h' : r' ∈ t.rows) (hid : r.id = r'.id) : r = r' :=
  t.eq_of_key ReviewJobRow.id List.mem_cons_self r r' h h' hid

/-- An inserted job has a new id. -/
theorem insert_fresh (t t' : ReviewJobTable) (row : ReviewJobRow) (h : t.insert row = some t') :
    row.id ∉ t.rows.map ReviewJobRow.id := by
  intro hmem
  have hnone : t.insert row = none :=
    (t.insert_eq_none row).mpr ⟨ReviewJobRow.id, List.mem_cons_self, hmem⟩
  rw [hnone] at h
  cases h

/-! ## Ids -/

/-- `uuid5Url`: the SHA-1 hash of the name in the URL namespace. -/
structure Host where
  uuid5Url : Text → Text

structure ReviewJobInput where
  workspaceId : Text
  repo : Text
  prNumber : Nat
  headSha : Text
  event : Text

def reviewJobId (host : Host) (workspaceId repo : Text) (prNumber : Nat) (headSha : Text) : Text :=
  host.uuid5Url ("review-job:".toList ++ workspaceId ++ ":".toList ++ repo ++ ":".toList ++
    decimal prNumber ++ ":".toList ++ headSha)

/-! ## What the statements set and select -/

def SYNCHRONIZE_DEBOUNCE : Int := 60000000

def STALE_RUNNING : Int := 900000000

def FAILED_BACKOFF : Int := 300000000

def DAY : Int := 86400000000

def newRow (host : Host) (input : ReviewJobInput) (now : Int) : ReviewJobRow where
  id := reviewJobId host input.workspaceId input.repo input.prNumber input.headSha
  workspaceId := input.workspaceId
  repo := input.repo
  prNumber := input.prNumber
  headSha := input.headSha
  event := input.event
  nextEligibleAt :=
    if input.event = "synchronize".toList then some (now + SYNCHRONIZE_DEBOUNCE) else none
  createdAt := now
  updatedAt := now

/-- The `WHERE` clause of the supersede. -/
def supersedes (input : ReviewJobInput) (r : ReviewJobRow) : Bool :=
  r.workspaceId = input.workspaceId && r.repo = input.repo && r.prNumber = input.prNumber &&
    r.headSha ≠ input.headSha && r.state = .queued

def supersededRow (now : Int) (r : ReviewJobRow) : ReviewJobRow :=
  { r with state := .superseded, updatedAt := now }

/-- `claimed_at < now() - interval '15 minutes'` holds for no job without a claim. -/
def isStaleRunning (now : Int) (r : ReviewJobRow) : Bool :=
  r.state = .running && r.claimedAt.any fun t => t < now - STALE_RUNNING

def requeuedRow (now : Int) (r : ReviewJobRow) : ReviewJobRow :=
  { r with state := .queued, attempts := r.attempts + 1, claimedBy := none, claimedAt := none,
           updatedAt := now }

def isStaleQueued (r : ReviewJobRow) : Bool := r.state = .queued && 2 < r.attempts

def staleFailedRow (now : Int) (r : ReviewJobRow) : ReviewJobRow :=
  { r with state := .failed, skipReason := some "stale after retries".toList, updatedAt := now }

def claimedRow (workerId : Text) (now : Int) (r : ReviewJobRow) : ReviewJobRow :=
  { r with state := .running, claimedBy := some workerId, claimedAt := some now,
           updatedAt := now }

def skippedRow (now : Int) (r : ReviewJobRow) : ReviewJobRow :=
  { r with state := .skipped, skipReason := some "daily budget exhausted".toList,
           updatedAt := now }

def postedRow (url verdict : Option Text) (evidenceKeys : Option (List Text)) (now : Int)
    (r : ReviewJobRow) : ReviewJobRow :=
  { r with state := .posted, postedReviewUrl := url, verdict := verdict,
           evidenceKeys := evidenceKeys, updatedAt := now }

/-- `attempts + 1 > 2`: no retry is left. -/
def exhausted (r : ReviewJobRow) : Bool := 2 < r.attempts + 1

def failedRow (error : Option Text) (now : Int) (r : ReviewJobRow) : ReviewJobRow :=
  { r with
    attempts := r.attempts + 1
    state := if exhausted r then .failed else .queued
    nextEligibleAt := if exhausted r then none else some (now + FAILED_BACKOFF)
    skipReason :=
      if exhausted r then some (error.getD "review failed (no error detail)".toList) else none
    claimedBy := if exhausted r then r.claimedBy else none
    claimedAt := if exhausted r then r.claimedAt else none
    updatedAt := now }

def releasedRow (now : Int) (r : ReviewJobRow) : ReviewJobRow :=
  { r with state := .queued, claimedBy := none, claimedAt := none, updatedAt := now }

def isRunning (jobId : Text) (r : ReviewJobRow) : Bool := r.id = jobId && r.state = .running

/-- The job is the current head of its pull request. -/
def Store.isCurrentHead (s : Store) (rj : ReviewJobRow) : Bool :=
  s.changeRecords.any fun cr =>
    cr.workspaceId = rj.workspaceId && cr.repo = rj.repo && cr.prNumber = some rj.prNumber &&
      cr.currentPrHeadAuthoritative && cr.currentPrHeadSha = some rj.headSha &&
      cr.currentPrHeadCycleId = some rj.id

/-- How a claim finds the table: the rows that other transactions hold locked, which it skips, and
the order in which it reads the rest, which decides between equal times. -/
structure Scan where
  locked : ReviewJobRow → Bool := fun _ => false
  order : ReviewJobRow → Nat := fun _ => 0

def Store.claimable (s : Store) (scan : Scan) (rj : ReviewJobRow) : Bool :=
  rj.state = .queued && rj.nextEligibleAt.all (· ≤ s.now) && s.isCurrentHead rj &&
    !(s.jobs.rows.any fun r2 => r2.workspaceId = rj.workspaceId && r2.state = .running) &&
    !scan.locked rj

def Store.nextClaim (s : Store) (scan : Scan) : Option ReviewJobRow :=
  Table.firstBy ReviewJobRow.createdAt scan.order (s.jobs.select (s.claimable scan))

/-- Counted today: created on this day (UTC) and not superseded. -/
def countsToday (now : Int) (workspaceId : Text) (r : ReviewJobRow) : Bool :=
  r.workspaceId = workspaceId && r.state ≠ .superseded && r.createdAt / DAY = now / DAY

def Store.countToday (s : Store) (workspaceId : Text) : Nat :=
  (s.jobs.select (countsToday s.now workspaceId)).length

/-! ## Statements -/

structure CompleteReviewJobInput where
  jobId : Text
  posted : Bool
  postedReviewUrl : Option Text := none
  verdict : Option Text := none
  error : Option Text := none
  evidenceKeys : Option (List Text) := none

inductive Stmt : Type → Type where
  | enqueue (input : ReviewJobInput) : Stmt (Option Nat)
  | requeueStaleRunning : Stmt Unit
  | failStaleQueued : Stmt Unit
  | claimOldest (workerId : Text) (scan : Scan) : Stmt (Option ReviewJobRow)
  | countToday (workspaceId : Text) : Stmt Nat
  | skip (id : Text) : Stmt Unit
  | completePosted (input : CompleteReviewJobInput) : Stmt (Option ReviewJobRow)
  | completeFailed (input : CompleteReviewJobInput) : Stmt (Option ReviewJobRow)
  | release (jobId : Text) : Stmt Unit

/-- `UPDATE review_jobs SET f WHERE p`. -/
def Store.updateJobs (s : Store) (p : ReviewJobRow → Bool) (f : ReviewJobRow → ReviewJobRow)
    (hf : ∀ r, (f r).id = r.id) : Store :=
  { s with jobs := s.jobs.update p f (keeps_reviewJobKeys f hf) }

/-- `RETURNING *` of such an update. -/
def Store.returning (s : Store) (p : ReviewJobRow → Bool) (f : ReviewJobRow → ReviewJobRow) :
    Option ReviewJobRow :=
  ((s.jobs.select p).map f).head?

def Stmt.exec (host : Host) ⦃β : Type⦄ : Stmt β → Store → β × Store
  | .enqueue input, s =>
    match s.jobs.insert (newRow host input s.now) with
    | none => (none, s)
    | some jobs =>
      let inserted := { s with jobs := jobs }
      (some (jobs.select (supersedes input)).length,
        inserted.updateJobs (supersedes input) (supersededRow s.now) fun _ => rfl)
  | .requeueStaleRunning, s =>
    ((), s.updateJobs (isStaleRunning s.now) (requeuedRow s.now) fun _ => rfl)
  | .failStaleQueued, s =>
    ((), s.updateJobs isStaleQueued (staleFailedRow s.now) fun _ => rfl)
  | .claimOldest workerId scan, s =>
    match s.nextClaim scan with
    | none => (none, s)
    | some row => (some (claimedRow workerId s.now row),
        s.updateJobs (fun r => r.id = row.id) (claimedRow workerId s.now) fun _ => rfl)
  | .countToday workspaceId, s => (s.countToday workspaceId, s)
  | .skip id, s => ((), s.updateJobs (fun r => r.id = id) (skippedRow s.now) fun _ => rfl)
  | .completePosted input, s =>
    let set := postedRow input.postedReviewUrl input.verdict input.evidenceKeys s.now
    (s.returning (isRunning input.jobId) set,
      s.updateJobs (isRunning input.jobId) set fun _ => rfl)
  | .completeFailed input, s =>
    (s.returning (isRunning input.jobId) (failedRow input.error s.now),
      s.updateJobs (isRunning input.jobId) (failedRow input.error s.now) fun _ => rfl)
  | .release jobId, s =>
    ((), s.updateJobs (isRunning jobId) (releasedRow s.now) fun _ => rfl)

/-! ## What a statement can do -/

/-- The statement turns the job `r` into `r'`. -/
inductive Writes : ∀ {β : Type}, Stmt β → Store → ReviewJobRow → ReviewJobRow → Prop
  | supersede {input s r} : supersedes input r →
      Writes (.enqueue input) s r (supersededRow s.now r)
  | requeueStaleRunning {s r} : isStaleRunning s.now r →
      Writes .requeueStaleRunning s r (requeuedRow s.now r)
  | failStaleQueued {s r} : isStaleQueued r → Writes .failStaleQueued s r (staleFailedRow s.now r)
  | claimOldest {workerId scan s r} : s.nextClaim scan = some r →
      Writes (.claimOldest workerId scan) s r (claimedRow workerId s.now r)
  | skip {s r} : Writes (.skip r.id) s r (skippedRow s.now r)
  | completePosted {input s r} : isRunning input.jobId r → Writes (.completePosted input) s r
      (postedRow input.postedReviewUrl input.verdict input.evidenceKeys s.now r)
  | completeFailed {input s r} : isRunning input.jobId r →
      Writes (.completeFailed input) s r (failedRow input.error s.now r)
  | release {jobId s r} : isRunning jobId r → Writes (.release jobId) s r (releasedRow s.now r)

/-- What names a job and its head. -/
def identity (r : ReviewJobRow) : Text × Text × Text × Nat × Text × Int :=
  (r.id, r.workspaceId, r.repo, r.prNumber, r.headSha, r.createdAt)

theorem Writes.identity_eq {β : Type} {q : Stmt β} {s : Store} {r r' : ReviewJobRow}
    (h : Writes q s r r') : identity r' = identity r := by
  cases h <;> rfl

theorem nextClaim_mem (s : Store) (scan : Scan) (row : ReviewJobRow)
    (h : s.nextClaim scan = some row) : row ∈ s.jobs.rows ∧ s.claimable scan row :=
  (s.jobs.mem_select _ row).mp (Table.firstBy_mem _ _ _ row h)

/-- The jobs that an enqueue of a new head leaves. -/
def enqueued (host : Host) (input : ReviewJobInput) (s : Store) : List ReviewJobRow :=
  s.jobs.rows.map (fun r => if supersedes input r then supersededRow s.now r else r) ++
    [newRow host input s.now]

/-- The statement rewrites jobs one by one, or enqueues one with a new id. -/
def Effect (host : Host) {β : Type} (q : Stmt β) (s : Store) (rows : List ReviewJobRow) : Prop :=
  (∃ image : ReviewJobRow → ReviewJobRow, rows = s.jobs.rows.map image ∧
    ∀ r ∈ s.jobs.rows, image r = r ∨ Writes q s r (image r)) ∨
  ∃ input, rows = enqueued host input s ∧
    (newRow host input s.now).id ∉ s.jobs.rows.map ReviewJobRow.id

theorem effect_unchanged (host : Host) {β : Type} (q : Stmt β) (s : Store) :
    Effect host q s s.jobs.rows :=
  Or.inl ⟨id, (List.map_id _).symm, fun _ _ => Or.inl rfl⟩

theorem effect_update (host : Host) {β : Type} (q : Stmt β) (s : Store) (p : ReviewJobRow → Bool)
    (f : ReviewJobRow → ReviewJobRow) (hf : ∀ r, (f r).id = r.id)
    (h : ∀ r ∈ s.jobs.rows, p r → Writes q s r (f r)) :
    Effect host q s (s.updateJobs p f hf).jobs.rows := by
  refine Or.inl ⟨fun r => if p r then f r else r, rfl, ?_⟩
  intro r hr
  show (if p r then f r else r) = r ∨ Writes q s r (if p r then f r else r)
  by_cases hp : p r
  · rw [if_pos hp]
    exact Or.inr (h r hr hp)
  · rw [if_neg hp]
    exact Or.inl rfl

/-- An enqueue leaves the head it enqueues alone. -/
theorem not_supersedes_newRow (host : Host) (input : ReviewJobInput) (now : Int) :
    supersedes input (newRow host input now) = false := by
  unfold supersedes newRow
  simp

/-- **The effect of a statement.** -/
theorem exec_row (host : Host) {β : Type} (q : Stmt β) (s : Store) :
    Effect host q s (q.exec host s).2.jobs.rows := by
  cases q with
  | enqueue input =>
    simp only [Stmt.exec]
    split
    · exact effect_unchanged host _ s
    · next jobs h =>
      refine Or.inr ⟨input, ?_, insert_fresh _ _ _ h⟩
      show jobs.rows.map _ = _
      rw [Table.rows_insert _ _ _ h, List.map_append, List.map_singleton,
        not_supersedes_newRow]
      rfl
  | requeueStaleRunning =>
    exact effect_update host _ s (isStaleRunning s.now) (requeuedRow s.now) (fun _ => rfl)
      fun r _ h => .requeueStaleRunning h
  | failStaleQueued =>
    exact effect_update host _ s isStaleQueued (staleFailedRow s.now) (fun _ => rfl)
      fun r _ h => .failStaleQueued h
  | claimOldest workerId scan =>
    simp only [Stmt.exec]
    split
    · exact effect_unchanged host _ s
    · next row h =>
      refine effect_update host _ s _ (claimedRow workerId s.now) (fun _ => rfl) ?_
      intro r hr hid
      obtain rfl := s.jobs.eq_of_id r row hr (nextClaim_mem s scan row h).1
        (of_decide_eq_true hid)
      exact .claimOldest h
  | countToday workspaceId => exact effect_unchanged host _ s
  | skip id =>
    refine effect_update host _ s (fun r => r.id = id) (skippedRow s.now) (fun _ => rfl) ?_
    intro r _ hid
    obtain rfl := of_decide_eq_true hid
    exact .skip
  | completePosted input =>
    exact effect_update host _ s (isRunning input.jobId)
      (postedRow input.postedReviewUrl input.verdict input.evidenceKeys s.now) (fun _ => rfl)
      fun r _ h => .completePosted h
  | completeFailed input =>
    exact effect_update host _ s (isRunning input.jobId) (failedRow input.error s.now)
      (fun _ => rfl) fun r _ h => .completeFailed h
  | release jobId =>
    exact effect_update host _ s (isRunning jobId) (releasedRow s.now) (fun _ => rfl)
      fun r _ h => .release h

/-! ## The functions of the module -/

structure EnqueueReviewJobResult where
  id : Text
  deduped : Bool
  superseded : Nat
  deriving DecidableEq, Repr

def enqueueReviewJob (host : Host) (input : ReviewJobInput) :
    Prog Stmt EnqueueReviewJobResult := do
  let superseded ← .stmt (.enqueue input)
  pure ⟨reviewJobId host input.workspaceId input.repo input.prNumber input.headSha,
    superseded.isNone, superseded.getD 0⟩

structure ClaimReviewJobInput where
  workerId : Text
  dailyBudget : Nat

/-- `unfinished`: the claim was watched for too few rounds. -/
inductive ClaimResult where
  | claimed (row : ReviewJobRow)
  | nothing
  | unfinished

/-- One round of the recursion for each scan. -/
def claimEligibleReviewJob (input : ClaimReviewJobInput) : List Scan → Prog Stmt ClaimResult
  | [] => pure .unfinished
  | scan :: scans => do
    let claimed ← .stmt (.claimOldest input.workerId scan)
    match claimed with
    | none => pure .nothing
    | some row => do
      let countToday ← .stmt (.countToday row.workspaceId)
      if countToday > input.dailyBudget then do
        .stmt (.skip row.id)
        claimEligibleReviewJob input scans
      else pure (.claimed row)

def claimReviewJob (input : ClaimReviewJobInput) (scans : List Scan) : Prog Stmt ClaimResult := do
  .stmt .requeueStaleRunning
  .stmt .failStaleQueued
  claimEligibleReviewJob input scans

def completeReviewJob (input : CompleteReviewJobInput) : Prog Stmt (Option ReviewJobRow) :=
  if input.posted then .stmt (.completePosted input) else .stmt (.completeFailed input)

def releaseReviewJob (jobId : Text) : Prog Stmt Unit := .stmt (.release jobId)

/-! ## Operations and their runs -/

inductive Op where
  | enqueue (input : ReviewJobInput)
  | claim (input : ClaimReviewJobInput) (scans : List Scan)
  | complete (input : CompleteReviewJobInput)
  | release (jobId : Text)

def opProgram (host : Host) : Op → Prog Stmt Unit
  | .enqueue input => enqueueReviewJob host input >>= fun _ => pure ()
  | .claim input scans => claimReviewJob input scans >>= fun _ => pure ()
  | .complete input => completeReviewJob input >>= fun _ => pure ()
  | .release jobId => releaseReviewJob jobId

/-- The clock and the change records change on their own. -/
def Env (s s' : Store) : Prop := s.now ≤ s'.now ∧ s'.jobs = s.jobs

def reviewSystem (host : Host) : System Store Stmt where
  exec := Stmt.exec host
  starts := fun p => ∃ op, p = opProgram host op
  env := Env

end Agentrail.Review
