import Agentrail.Review.NewestHead

/-!
# Claims that overlap

A claim is one `UPDATE`, yet it takes time: it reads what was committed before it started, takes
a lock on the job it finds, and commits later.  `Phase` has these three moments as statements of
their own; every other statement of the module is as it was, and waits for a locked job
(`Waits`).

`one_running_exact`: a workspace has one running job as long as no claim commits after another
one has put a job of the workspace into `running` that the snapshot does not have, and no longer.
`one_running_of_alone`: claims that do not overlap are of that kind.  Two claims that do leave two
running jobs (`claims_overtake`).
-/

namespace Agentrail.Review

open Js Interleaving

/-! ## A claim under way -/

structure ClaimUpdate where
  token : Nat
  /-- What was committed when the statement started. -/
  snapshot : Store
  /-- The job that the statement has locked. -/
  row : Option ReviewJobRow := none

structure Claims where
  store : Store
  updates : List ClaimUpdate := []
  next : Nat := 0

def Claims.find (s : Claims) (token : Nat) : Option ClaimUpdate :=
  s.updates.find? fun u => u.token = token

def Claims.without (s : Claims) (token : Nat) : List ClaimUpdate :=
  s.updates.filter fun u => u.token ≠ token

/-- A claim has the job locked. -/
def Claims.locks (s : Claims) (id : Text) : Bool :=
  s.updates.any fun u => u.row.any fun r => r.id = id

/-- The committed version of a job. -/
def Claims.current (s : Claims) (id : Text) : Option ReviewJobRow :=
  s.store.jobs.rows.find? fun r => r.id = id

/-- A job of the snapshot that has changed is tested again, in its committed version. -/
def Claims.recheck (s : Claims) (snapshot : Store) (r : ReviewJobRow) : Bool :=
  (s.current r.id).any (snapshot.claimable {})

/-- The `SELECT … FOR UPDATE SKIP LOCKED` of the claim. -/
def Claims.candidate (s : Claims) (snapshot : Store) (scan : Scan) : Option ReviewJobRow :=
  let skipped := fun r => scan.locked r || s.locks r.id || !s.recheck snapshot r
  (snapshot.nextClaim { scan with locked := skipped }).bind fun r => s.current r.id

def Stmt.claims {β : Type} : Stmt β → Bool
  | .claimOldest _ _ => true
  | _ => false

/-- The moments of the `UPDATE`. -/
inductive ClaimPhase : Type → Type where
  | start : ClaimPhase Nat
  | lock (token : Nat) (scan : Scan) : ClaimPhase Bool
  | commit (token : Nat) (workerId : Text) : ClaimPhase (Option ReviewJobRow)

inductive Phase (β : Type) : Type where
  | plain (q : Stmt β) (hq : q.claims = false)
  | claim (q : ClaimPhase β)

theorem id_claimedRow (workerId : Text) (snapshot : Store) (r : ReviewJobRow) :
    (claimedRow workerId snapshot.now r).id = r.id := rfl

def ClaimPhase.exec ⦃β : Type⦄ : ClaimPhase β → Claims → β × Claims
  | .start, s => (s.next,
      { s with updates := s.updates ++ [{ token := s.next, snapshot := s.store }],
               next := s.next + 1 })
  | .lock token scan, s =>
    match s.find token with
    | none => (false, s)
    | some u =>
      match s.candidate u.snapshot scan with
      | none => (false, { s with updates := s.without token })
      | some row => (true, { s with updates := s.without token ++ [{ u with row := some row }] })
  | .commit token workerId, s =>
    match s.find token with
    | some ⟨_, snapshot, some row⟩ => (some (claimedRow workerId snapshot.now row),
        { s with
          store := s.store.updateJobs (fun r => r.id = row.id)
            (claimedRow workerId snapshot.now) (id_claimedRow workerId snapshot)
          updates := s.without token })
    | _ => (none, s)

def Phase.exec (host : Host) ⦃β : Type⦄ : Phase β → Claims → β × Claims
  | .plain q _, s => ((q.exec host s.store).1, { s with store := (q.exec host s.store).2 })
  | .claim q, s => q.exec s

/-! ## The programs of the module -/

/-- The claim as its three moments. -/
def claimUpdate (workerId : Text) (scan : Scan) : Prog Phase (Option ReviewJobRow) := do
  let token ← .stmt (.claim .start)
  let locked ← .stmt (.claim (.lock token scan))
  if locked then .stmt (.claim (.commit token workerId)) else pure none

def phases {α : Type} : Prog Stmt α → Prog Phase α
  | .done a => .done a
  | .call (.claimOldest workerId scan) k => claimUpdate workerId scan >>= fun row => phases (k row)
  | .call (.enqueue input) k => .call (.plain (.enqueue input) rfl) fun b => phases (k b)
  | .call .requeueStaleRunning k => .call (.plain .requeueStaleRunning rfl) fun b => phases (k b)
  | .call .failStaleQueued k => .call (.plain .failStaleQueued rfl) fun b => phases (k b)
  | .call (.countToday workspaceId) k =>
    .call (.plain (.countToday workspaceId) rfl) fun b => phases (k b)
  | .call (.skip id) k => .call (.plain (.skip id) rfl) fun b => phases (k b)
  | .call (.completePosted input) k =>
    .call (.plain (.completePosted input) rfl) fun b => phases (k b)
  | .call (.completeFailed input) k =>
    .call (.plain (.completeFailed input) rfl) fun b => phases (k b)
  | .call (.release jobId) k => .call (.plain (.release jobId) rfl) fun b => phases (k b)

/-- The clock, the change records and the other modules, which put jobs into the queue and take
them out, but neither start one nor write one that is locked. -/
structure Elsewhere (s s' : Claims) : Prop where
  now : s.store.now ≤ s'.store.now
  updates : s'.updates = s.updates
  next : s'.next = s.next
  started : ∀ r ∈ s'.store.jobs.rows, r.state = .running → r ∈ s.store.jobs.rows
  locked : ∀ r ∈ s.store.jobs.rows, s.locks r.id → r ∈ s'.store.jobs.rows

def overlappingSystem (host : Host) : System Claims Phase where
  exec := Phase.exec host
  starts := fun p => ∃ op, p = phases (opProgram host op)
  env := Elsewhere

/-! ## What a step does -/

/-- A statement waits for the jobs that a claim has locked. -/
def Waits ⦃β : Type⦄ (_ : List (Prog Phase Unit)) (s : Claims) : Phase β → Prop
  | .plain q _ => ∀ r ∈ s.store.jobs.rows, s.locks r.id → ∀ r', ¬ Writes q s.store r r'
  | .claim _ => True

/-- Every job that is running in the workspace of the job to commit is in the snapshot, too. -/
def ClaimPhase.NotOvertaken {β : Type} (s : Claims) : ClaimPhase β → Prop
  | .commit token _ => ∀ u row, s.find token = some u → u.row = some row →
      ∀ r ∈ s.store.jobs.rows, r.workspaceId = row.workspaceId → r.state = .running →
        r ∈ u.snapshot.jobs.rows
  | _ => True

def NotOvertaken ⦃β : Type⦄ (_ : List (Prog Phase Unit)) (s : Claims) : Phase β → Prop
  | .claim q => q.NotOvertaken s
  | .plain _ _ => True

def ClaimPhase.starts {β : Type} : ClaimPhase β → Bool
  | .start => true
  | _ => false

/-- A claim starts when no other is under way. -/
def Alone ⦃β : Type⦄ (_ : List (Prog Phase Unit)) (s : Claims) : Phase β → Prop
  | .claim q => q.starts → s.updates = []
  | .plain _ _ => True

def InOrder ⦃β : Type⦄ (others : List (Prog Phase Unit)) (s : Claims) (q : Phase β) : Prop :=
  Waits others s q ∧ NotOvertaken others s q

def OneRunning (s : Store) : Prop :=
  ∀ r ∈ s.jobs.rows, ∀ r' ∈ s.jobs.rows, r.workspaceId = r'.workspaceId → r.state = .running →
    r'.state = .running → r = r'

theorem Writes.claims_of_running {β : Type} {q : Stmt β} {s : Store} {r r' : ReviewJobRow}
    (h : Writes q s r r') (hr : r'.state = .running) : q.claims = true := by
  cases h with
  | claimOldest => rfl
  | @completeFailed input _ _ =>
    by_cases hex : exhausted r
    · have hfailed : (failedRow input.error s.now r).state = .failed := if_pos hex
      rw [hfailed] at hr
      cases hr
    · have hqueued : (failedRow input.error s.now r).state = .queued := if_neg hex
      rw [hqueued] at hr
      cases hr
  | _ => cases hr

/-- Only a claim makes a job running. -/
theorem exec_running (host : Host) {β : Type} (q : Stmt β) (hq : q.claims = false) (s : Store)
    (r' : ReviewJobRow) (hr' : r' ∈ (q.exec host s).2.jobs.rows) (hs : r'.state = .running) :
    r' ∈ s.jobs.rows := by
  rcases exec_row host q s with ⟨image, hrows, himage⟩ | ⟨input, hrows, _⟩ <;> rw [hrows] at hr'
  · obtain ⟨r, hr, rfl⟩ := List.mem_map.mp hr'
    rcases himage r hr with heq | hw
    · rw [heq]
      exact hr
    · rw [hw.claims_of_running hs] at hq
      cases hq
  · rcases List.mem_append.mp hr' with hr' | hr'
    · obtain ⟨r, hr, rfl⟩ := List.mem_map.mp hr'
      by_cases hsup : supersedes input r
      · rw [if_pos hsup] at hs
        cases hs
      · rw [if_neg hsup]
        exact hr
    · obtain rfl := List.mem_singleton.mp hr'
      cases hs

theorem mem_updateJobs_of_not (s : Store) (p : ReviewJobRow → Bool)
    (f : ReviewJobRow → ReviewJobRow) (hf : ∀ r, (f r).id = r.id) (r : ReviewJobRow)
    (hr : r ∈ s.jobs.rows) (hp : ¬ p r) : r ∈ (s.updateJobs p f hf).jobs.rows :=
  (s.jobs.mem_update p f (keeps_reviewJobKeys f hf) r).mpr ⟨r, hr, if_neg hp⟩

/-- A job that a statement does not write stays. -/
theorem exec_keeps (host : Host) {β : Type} (q : Stmt β) (s : Store) (r : ReviewJobRow)
    (hr : r ∈ s.jobs.rows) (h : ∀ r', ¬ Writes q s r r') : r ∈ (q.exec host s).2.jobs.rows := by
  cases q with
  | enqueue input =>
    simp only [Stmt.exec]
    split
    · exact hr
    · next jobs hjobs =>
      refine mem_updateJobs_of_not _ (supersedes input) (supersededRow s.now) (fun _ => rfl) r ?_
        fun hp => h _ (.supersede hp)
      show r ∈ jobs.rows
      rw [Table.rows_insert _ _ _ hjobs]
      exact List.mem_append_left _ hr
  | requeueStaleRunning =>
    exact mem_updateJobs_of_not s (isStaleRunning s.now) (requeuedRow s.now) (fun _ => rfl) r hr
      fun hp => h _ (.requeueStaleRunning hp)
  | failStaleQueued =>
    exact mem_updateJobs_of_not s isStaleQueued (staleFailedRow s.now) (fun _ => rfl) r hr
      fun hp => h _ (.failStaleQueued hp)
  | claimOldest workerId scan =>
    simp only [Stmt.exec]
    split
    · exact hr
    · next row hrow =>
      refine mem_updateJobs_of_not s (fun r => r.id = row.id) (claimedRow workerId s.now)
        (fun _ => rfl) r hr fun hp => ?_
      obtain rfl := s.jobs.eq_of_id r row hr (nextClaim_mem s scan row hrow).1
        (of_decide_eq_true hp)
      exact h _ (.claimOldest hrow)
  | countToday workspaceId => exact hr
  | skip id =>
    refine mem_updateJobs_of_not s (fun r => r.id = id) (skippedRow s.now) (fun _ => rfl) r hr
      fun hp => ?_
    obtain rfl := of_decide_eq_true hp
    exact h _ .skip
  | completePosted input =>
    exact mem_updateJobs_of_not s (isRunning input.jobId)
      (postedRow input.postedReviewUrl input.verdict input.evidenceKeys s.now) (fun _ => rfl) r hr
      fun hp => h _ (.completePosted hp)
  | completeFailed input =>
    exact mem_updateJobs_of_not s (isRunning input.jobId) (failedRow input.error s.now)
      (fun _ => rfl) r hr fun hp => h _ (.completeFailed hp)
  | release jobId =>
    exact mem_updateJobs_of_not s (isRunning jobId) (releasedRow s.now) (fun _ => rfl) r hr
      fun hp => h _ (.release hp)

/-! ## The invariant -/

/-- The locked job of a claim waits in the queue, and nothing of its workspace runs in the
snapshot. -/
structure Held (s : Store) (snapshot : Store) (row : ReviewJobRow) : Prop where
  mem : row ∈ s.jobs.rows
  queued : row.state = .queued
  idle : ∀ r ∈ snapshot.jobs.rows, r.workspaceId = row.workspaceId → r.state ≠ .running

structure ClaimsInvariant (s : Claims) : Prop where
  held : ∀ u ∈ s.updates, ∀ row, u.row = some row → Held s.store u.snapshot row
  apart : ∀ u ∈ s.updates, ∀ u' ∈ s.updates, ∀ row row', u.row = some row → u'.row = some row' →
    row.id = row'.id → u.token = u'.token

theorem locks_iff (s : Claims) (id : Text) :
    s.locks id ↔ ∃ u ∈ s.updates, ∃ row, u.row = some row ∧ row.id = id := by
  unfold Claims.locks
  rw [List.any_eq_true]
  refine exists_congr fun u => and_congr_right fun _ => ?_
  rw [Option.any_eq_true]
  refine exists_congr fun row => and_congr_right fun _ => ?_
  exact decide_eq_true_iff

theorem find_spec (s : Claims) (token : Nat) (u : ClaimUpdate) (h : s.find token = some u) :
    u ∈ s.updates ∧ u.token = token := by
  have htoken := List.find?_some h
  exact ⟨List.mem_of_find?_eq_some h, of_decide_eq_true htoken⟩

theorem mem_without (s : Claims) (token : Nat) (u : ClaimUpdate) :
    u ∈ s.without token ↔ u ∈ s.updates ∧ u.token ≠ token := by
  unfold Claims.without
  rw [List.mem_filter, decide_eq_true_iff]

theorem claimable_idle (snapshot : Store) (scan : Scan) (row : ReviewJobRow)
    (h : snapshot.claimable scan row) : row.state = .queued ∧
      ∀ r ∈ snapshot.jobs.rows, r.workspaceId = row.workspaceId → r.state ≠ .running := by
  unfold Store.claimable at h
  simp only [Bool.and_eq_true, decide_eq_true_eq, Bool.not_eq_true', List.any_eq_false,
    not_and] at h
  exact ⟨h.1.1.1.1, h.1.2⟩

theorem candidate_spec (s : Claims) (snapshot : Store) (scan : Scan) (row : ReviewJobRow)
    (h : s.candidate snapshot scan = some row) :
    Held s.store snapshot row ∧ s.locks row.id = false := by
  unfold Claims.candidate at h
  obtain ⟨r, hnext, hcurrent⟩ := Option.bind_eq_some_iff.mp h
  have hid : row.id = r.id := by
    have hsome := List.find?_some hcurrent
    exact of_decide_eq_true hsome
  have hclaim := (nextClaim_mem snapshot _ r hnext).2
  unfold Store.claimable at hclaim
  simp only [Bool.and_eq_true, Bool.not_eq_true', Bool.or_eq_false_iff, Bool.not_eq_false']
    at hclaim
  obtain ⟨_, ⟨_, hlocks⟩, hrecheck⟩ := hclaim
  unfold Claims.recheck at hrecheck
  rw [hcurrent] at hrecheck
  obtain ⟨hqueued, hidle⟩ := claimable_idle snapshot {} row hrecheck
  refine ⟨⟨List.mem_of_find?_eq_some hcurrent, hqueued, hidle⟩, ?_⟩
  rw [hid]
  exact hlocks

section
variable (host : Host) {β : Type}

theorem plain_invariant (q : Stmt β) (hq : q.claims = false) (others : List (Prog Phase Unit))
    (s : Claims) (h : ClaimsInvariant s) (hC : Waits others s (.plain q hq)) :
    ClaimsInvariant ((Phase.plain q hq).exec host s).2 := by
  refine ⟨?_, h.apart⟩
  intro u hu row hrow
  obtain ⟨hmem, hqueued, hidle⟩ := h.held u hu row hrow
  refine ⟨?_, hqueued, hidle⟩
  exact exec_keeps host q s.store row hmem
    (hC row hmem ((locks_iff s row.id).mpr ⟨u, hu, row, hrow, rfl⟩))

theorem start_invariant (s : Claims) (h : ClaimsInvariant s) :
    ClaimsInvariant (ClaimPhase.start.exec s).2 := by
  -- the new claim has nothing locked
  have hold : ∀ u ∈ (ClaimPhase.start.exec s).2.updates, ∀ row, u.row = some row →
      u ∈ s.updates := by
    intro u hu row hrow
    rcases List.mem_append.mp hu with hu | hu
    · exact hu
    · obtain rfl := List.mem_singleton.mp hu
      cases hrow
  constructor
  · intro u hu row hrow
    exact h.held u (hold u hu row hrow) row hrow
  · intro u hu u' hu' row row' hrow hrow'
    exact h.apart u (hold u hu row hrow) u' (hold u' hu' row' hrow') row row' hrow hrow'

theorem without_invariant (s : Claims) (h : ClaimsInvariant s) (token : Nat) :
    ClaimsInvariant { s with updates := s.without token } := by
  constructor
  · intro u hu
    exact h.held u ((mem_without s token u).mp hu).1
  · intro u hu u' hu'
    exact h.apart u ((mem_without s token u).mp hu).1 u' ((mem_without s token u').mp hu').1

theorem lock_invariant (s : Claims) (h : ClaimsInvariant s) (token : Nat) (scan : Scan) :
    ClaimsInvariant ((ClaimPhase.lock token scan).exec s).2 := by
  unfold ClaimPhase.exec
  dsimp only
  split
  · exact h
  next u _ =>
  split
  · exact without_invariant s h token
  next row hrow =>
  obtain ⟨hheld, hfree⟩ := candidate_spec s u.snapshot scan row hrow
  -- no other claim has locked the job
  have hother : ∀ v ∈ s.without token, ∀ row', v.row = some row' → row'.id ≠ row.id := by
    intro v hv row' hrow' hid
    have hlocks : s.locks row.id :=
      (locks_iff s row.id).mpr ⟨v, ((mem_without s token v).mp hv).1, row', hrow', hid⟩
    rw [hfree] at hlocks
    cases hlocks
  obtain ⟨hold, hapart⟩ := without_invariant s h token
  constructor
  · intro v hv row' hrow'
    rcases List.mem_append.mp hv with hv | hv
    · exact hold v hv row' hrow'
    · obtain rfl := List.mem_singleton.mp hv
      cases hrow'
      exact hheld
  · intro v hv v' hv' r r' hr hr' hid
    rcases List.mem_append.mp hv with hv | hv <;> rcases List.mem_append.mp hv' with hv' | hv'
    · exact hapart v hv v' hv' r r' hr hr' hid
    · obtain rfl := List.mem_singleton.mp hv'
      cases hr'
      exact absurd hid (hother v hv r hr)
    · obtain rfl := List.mem_singleton.mp hv
      cases hr
      exact absurd hid.symm (hother v' hv' r' hr')
    · obtain rfl := List.mem_singleton.mp hv
      obtain rfl := List.mem_singleton.mp hv'
      rfl

theorem commit_invariant (s : Claims) (h : ClaimsInvariant s) (token : Nat) (workerId : Text) :
    ClaimsInvariant ((ClaimPhase.commit token workerId).exec s).2 := by
  unfold ClaimPhase.exec
  dsimp only
  split
  · next token' snapshot row hfind =>
    obtain ⟨hmem, htoken⟩ := find_spec s token _ hfind
    refine ⟨?_, (without_invariant s h token).apart⟩
    intro u hu row' hrow'
    obtain ⟨hu, hne⟩ := (mem_without s token u).mp hu
    obtain ⟨hrow, hqueued, hidle⟩ := h.held u hu row' hrow'
    refine ⟨?_, hqueued, hidle⟩
    refine mem_updateJobs_of_not s.store (fun r => r.id = row.id)
      (claimedRow workerId snapshot.now) (fun _ => rfl) row' hrow ?_
    intro hid
    exact hne ((h.apart u hu _ hmem row' row hrow' rfl (of_decide_eq_true hid)).trans htoken)
  · exact h

/-- **Every step keeps the invariant.** -/
theorem exec_claimsInvariant (q : Phase β) (others : List (Prog Phase Unit)) (s : Claims)
    (h : ClaimsInvariant s) (hC : Waits others s q) : ClaimsInvariant (q.exec host s).2 := by
  cases q with
  | plain q hq => exact plain_invariant host q hq others s h hC
  | claim q =>
    cases q with
    | start => exact start_invariant s h
    | lock token scan => exact lock_invariant s h token scan
    | commit token workerId => exact commit_invariant s h token workerId

end

/-! ## One running job for each workspace -/

theorem oneRunning_of_subset (s s' : Store) (h : OneRunning s)
    (hsub : ∀ r ∈ s'.jobs.rows, r.state = .running → r ∈ s.jobs.rows) : OneRunning s' := by
  intro r hr r' hr' hw hs hs'
  exact h r (hsub r hr hs) r' (hsub r' hr' hs') hw hs hs'

/-- The committed job is the only one of its workspace exactly when nothing runs there. -/
theorem oneRunning_claim (s : Store) (row : ReviewJobRow) (hrow : row ∈ s.jobs.rows)
    (hqueued : row.state = .queued) (h : OneRunning s) (workerId : Text) (now : Int) :
    OneRunning (s.updateJobs (fun r => r.id = row.id) (claimedRow workerId now) fun _ => rfl) ↔
      ∀ r ∈ s.jobs.rows, r.workspaceId = row.workspaceId → r.state ≠ .running := by
  have himage : ∀ r',
      r' ∈ (s.updateJobs (fun r => r.id = row.id) (claimedRow workerId now)
        fun _ => rfl).jobs.rows ↔
      r' = claimedRow workerId now row ∨ r' ∈ s.jobs.rows ∧ r' ≠ row := by
    refine Table.mem_map_update_one s.jobs.rows _ (claimedRow workerId now) row hrow ?_
    intro r hr
    rw [decide_eq_true_iff]
    exact ⟨s.jobs.eq_of_id r row hr hrow, congrArg ReviewJobRow.id⟩
  constructor
  · intro hone r hr hw hs
    have hne : r ≠ row := by
      rintro rfl
      rw [hqueued] at hs
      cases hs
    have heq : r = claimedRow workerId now row :=
      hone r ((himage r).mpr (Or.inr ⟨hr, hne⟩)) _ ((himage _).mpr (Or.inl rfl)) hw hs rfl
    have hid : r.id = row.id := by
      rw [heq]
      rfl
    exact hne (s.jobs.eq_of_id r row hr hrow hid)
  · intro hnone r hr r' hr' hw hs hs'
    rcases (himage r).mp hr with rfl | ⟨hr, _⟩ <;> rcases (himage r').mp hr' with rfl | ⟨hr', _⟩
    · rfl
    · exact absurd hs' (hnone r' hr' hw.symm)
    · exact absurd hs (hnone r hr hw)
    · exact h r hr r' hr' hw hs hs'

theorem commit_oneRunning (s : Claims) (hinv : ClaimsInvariant s) (h : OneRunning s.store)
    (token : Nat) (workerId : Text) :
    OneRunning ((ClaimPhase.commit token workerId).exec s).2.store ↔
      (ClaimPhase.commit token workerId).NotOvertaken s := by
  unfold ClaimPhase.exec ClaimPhase.NotOvertaken
  dsimp only
  split
  · next token' snapshot row hfind =>
    obtain ⟨hmem, hqueued, hidle⟩ := hinv.held _ (find_spec s token _ hfind).1 row rfl
    refine (oneRunning_claim s.store row hmem hqueued h workerId snapshot.now).trans ?_
    constructor
    · intro hnone u row' hu hrow' r hr hw hs
      rw [hfind] at hu
      cases hu
      cases hrow'
      exact absurd hs (hnone r hr hw)
    · intro hover r hr hw hs
      exact hidle r (hover _ row hfind rfl r hr hw hs) hw hs
  · next hnone =>
    refine iff_of_true h ?_
    intro u row hu hrow
    obtain ⟨token', snapshot, row'⟩ := u
    cases hrow
    exact absurd hu (hnone token' snapshot row)

/-- **One step.** It leaves one running job for each workspace exactly when it is not a commit that
was overtaken. -/
theorem exec_oneRunning (host : Host) {β : Type} (q : Phase β) (others : List (Prog Phase Unit))
    (s : Claims) (hinv : ClaimsInvariant s) (h : OneRunning s.store) :
    OneRunning (q.exec host s).2.store ↔ NotOvertaken others s q := by
  cases q with
  | plain q hq =>
    refine iff_of_true ?_ trivial
    exact oneRunning_of_subset s.store _ h fun r hr hs => exec_running host q hq s.store r hr hs
  | claim q =>
    cases q with
    | start => exact iff_of_true h trivial
    | lock token scan =>
      refine iff_of_true ?_ trivial
      have hsame : ((ClaimPhase.lock token scan).exec s).2.store = s.store := by
        unfold ClaimPhase.exec
        dsimp only
        split
        · rfl
        · split <;> rfl
      show OneRunning ((ClaimPhase.lock token scan).exec s).2.store
      rw [hsame]
      exact h
    | commit token workerId => exact commit_oneRunning s hinv h token workerId

theorem elsewhere_invariant (s s' : Claims) (h : ClaimsInvariant s) (he : Elsewhere s s') :
    ClaimsInvariant s' := by
  constructor
  · rw [he.updates]
    intro u hu row hrow
    obtain ⟨hmem, hqueued, hidle⟩ := h.held u hu row hrow
    refine ⟨?_, hqueued, hidle⟩
    exact he.locked row hmem ((locks_iff s row.id).mpr ⟨u, hu, row, hrow, rfl⟩)
  · rw [he.updates]
    exact h.apart

theorem claimsInvariant_start (s : Store) : ClaimsInvariant { store := s } :=
  ⟨List.forall_mem_nil _, List.forall_mem_nil _⟩

/-- **One running job.** In every run in which no claim is overtaken a workspace has at most one
running job; and a step ends that exactly when it commits a claim that was overtaken. -/
theorem one_running_exact (host : Host) (s : Store) (hs : OneRunning s) (c : Config Claims Phase)
    (h : (overlappingSystem host).Reaches InOrder ⟨{ store := s }, []⟩ c) :
    OneRunning c.store.store ∧ ∀ ⦃β : Type⦄ (q : Phase β) (others : List (Prog Phase Unit)),
      OneRunning (q.exec host c.store).2.store ↔ NotOvertaken others c.store q := by
  have hinv : ClaimsInvariant c.store ∧ OneRunning c.store.store := by
    refine (overlappingSystem host).reaches_store
      (I := fun t => ClaimsInvariant t ∧ OneRunning t.store) ?_ ?_ h
      ⟨claimsInvariant_start s, hs⟩
    · rintro β q others t ⟨ht, hone⟩ ⟨hwaits, hover⟩
      exact ⟨exec_claimsInvariant host q others t ht hwaits,
        (exec_oneRunning host q others t ht hone).mpr hover⟩
    · rintro t t' ⟨ht, hone⟩ he
      exact ⟨elsewhere_invariant t t' ht he, oneRunning_of_subset _ _ hone he.started⟩
  exact ⟨hinv.2, fun β q others => exec_oneRunning host q others c.store hinv.1 hinv.2⟩

/-! ## Claims one after the other -/

/-- One claim is under way at most, and what runs ran when it started. -/
structure AloneInvariant (s : Claims) : Prop where
  alone : s.updates.length ≤ 1
  ran : ∀ u ∈ s.updates, ∀ r ∈ s.store.jobs.rows, r.state = .running → r ∈ u.snapshot.jobs.rows

theorem without_length (s : Claims) (token : Nat) (h : s.updates.length ≤ 1) (u : ClaimUpdate)
    (hu : s.find token = some u) : s.updates = [u] ∧ s.without token = [] := by
  obtain ⟨hmem, htoken⟩ := find_spec s token u hu
  have hone : s.updates = [u] := by
    obtain ⟨v, hv⟩ := List.length_eq_one_iff.mp
      (Nat.le_antisymm h (List.length_pos_of_mem hmem))
    rw [hv] at hmem ⊢
    rw [List.mem_singleton.mp hmem]
  refine ⟨hone, ?_⟩
  unfold Claims.without
  rw [hone, List.filter_cons_of_neg (by simpa using htoken), List.filter_nil]

theorem exec_alone (host : Host) {β : Type} (q : Phase β) (others : List (Prog Phase Unit))
    (s : Claims) (h : AloneInvariant s) (hC : Alone others s q) :
    AloneInvariant (q.exec host s).2 := by
  cases q with
  | plain q hq =>
    refine ⟨h.alone, ?_⟩
    intro u hu r hr hs
    exact h.ran u hu r (exec_running host q hq s.store r hr hs) hs
  | claim q =>
    cases q with
    | start =>
      have hnone : s.updates = [] := hC rfl
      show AloneInvariant { s with updates := s.updates ++ [_], next := _ }
      rw [hnone]
      refine ⟨Nat.le_refl 1, ?_⟩
      intro u hu r hr _
      obtain rfl := List.mem_singleton.mp hu
      exact hr
    | lock token scan =>
      show AloneInvariant ((ClaimPhase.lock token scan).exec s).2
      unfold ClaimPhase.exec
      dsimp only
      split
      · exact h
      next u hu =>
      obtain ⟨hone, hwithout⟩ := without_length s token h.alone u hu
      split <;> rw [hwithout]
      · exact ⟨Nat.zero_le 1, List.forall_mem_nil _⟩
      · refine ⟨Nat.le_refl 1, ?_⟩
        intro v hv
        obtain rfl := List.mem_singleton.mp hv
        exact h.ran u (find_spec s token u hu).1
    | commit token workerId =>
      show AloneInvariant ((ClaimPhase.commit token workerId).exec s).2
      unfold ClaimPhase.exec
      dsimp only
      split
      · next hu =>
        rw [(without_length s token h.alone _ hu).2]
        exact ⟨Nat.zero_le 1, List.forall_mem_nil _⟩
      · exact h

theorem alone_notOvertaken {β : Type} (q : Phase β) (others : List (Prog Phase Unit))
    (s : Claims) (h : AloneInvariant s) : NotOvertaken others s q := by
  cases q with
  | plain q hq => exact trivial
  | claim q =>
    cases q with
    | commit token workerId =>
      intro u row hu hrow r hr _ hs
      exact h.ran u (find_spec s token u hu).1 r hr hs
    | _ => exact trivial

/-- Claims that do not overlap leave one running job for each workspace. -/
theorem one_running_of_alone (host : Host) (s : Store) (hs : OneRunning s)
    (c : Config Claims Phase)
    (h : (overlappingSystem host).Reaches
      (fun _ others t q => Waits others t q ∧ Alone others t q) ⟨{ store := s }, []⟩ c) :
    OneRunning c.store.store := by
  have hinv : (ClaimsInvariant c.store ∧ OneRunning c.store.store) ∧ AloneInvariant c.store := by
    refine (overlappingSystem host).reaches_store
      (I := fun t => (ClaimsInvariant t ∧ OneRunning t.store) ∧ AloneInvariant t) ?_ ?_ h
      ⟨⟨claimsInvariant_start s, hs⟩, Nat.zero_le 1, List.forall_mem_nil _⟩
    · rintro β q others t ⟨⟨ht, hone⟩, halone⟩ ⟨hwaits, hC⟩
      exact ⟨⟨exec_claimsInvariant host q others t ht hwaits,
        (exec_oneRunning host q others t ht hone).mpr (alone_notOvertaken q others t halone)⟩,
        exec_alone host q others t halone hC⟩
    · rintro t t' ⟨⟨ht, hone⟩, halone⟩ he
      refine ⟨⟨elsewhere_invariant t t' ht he, oneRunning_of_subset _ _ hone he.started⟩, ?_, ?_⟩
      · rw [he.updates]
        exact halone.alone
      · rw [he.updates]
        intro u hu r hr hstate
        exact halone.ran u hu r (he.started r hr hstate) hstate
  exact hinv.1.2

/-! ## Two workers -/

def openedAs (prNumber : Nat) : ReviewJobInput :=
  { workspaceId := "w".toList, repo := "o/r".toList, prNumber := prNumber,
    headSha := "a".toList, event := "opened".toList }

def headOf (prNumber : Nat) : ChangeRecord where
  workspaceId := "w".toList
  repo := "o/r".toList
  prNumber := some prNumber
  currentPrHeadSha := some "a".toList
  currentPrHeadCycleId :=
    some (reviewJobId plainHost "w".toList "o/r".toList prNumber "a".toList)
  currentPrHeadAuthoritative := true

def starts (op : Op) : System.Choice Claims Phase := .start (phases (opProgram plainHost op))

def workerClaims (workerId : String) : System.Choice Claims Phase :=
  starts (.claim ⟨workerId.toList, 5⟩ [{}])

/-- The jobs of two pull requests of one workspace wait in the queue. -/
def twoQueued : List (System.Choice Claims Phase) :=
  [starts (.enqueue (openedAs 1)), .step 0, .step 0, starts (.enqueue (openedAs 2)),
    .step 0, .step 0,
    .env fun s => { s with store := { s.store with changeRecords := [headOf 1, headOf 2] } }]

/-- One worker after the other. -/
def inTurn : List (System.Choice Claims Phase) :=
  twoQueued ++ workerClaims "x" :: List.replicate 7 (.step 0) ++
    workerClaims "y" :: List.replicate 5 (.step 0)

/-- The second worker starts before the first one commits. -/
def atOnce : List (System.Choice Claims Phase) :=
  twoQueued ++ workerClaims "x" :: List.replicate 3 (.step 0) ++
    workerClaims "y" :: List.replicate 3 (.step 0) ++ [.step 1, .step 0, .step 1, .step 0]

def afterClaims (choices : List (System.Choice Claims Phase)) : Config Claims Phase :=
  (overlappingSystem plainHost).schedule choices ⟨{ store := emptyStore 0 }, []⟩

theorem starts_valid (op : Op) : (starts op).Valid (overlappingSystem plainHost) := ⟨op, rfl⟩

theorem twoQueued_valid : ∀ choice ∈ twoQueued, choice.Valid (overlappingSystem plainHost) := by
  unfold twoQueued
  simp only [List.forall_mem_cons]
  refine ⟨starts_valid _, trivial, trivial, starts_valid _, trivial, trivial, ?_,
    List.forall_mem_nil _⟩
  intro s
  exact ⟨Int.le_refl _, rfl, rfl, fun r hr _ => hr, fun r hr _ => hr⟩

theorem steps_valid (n i : Nat) :
    ∀ choice ∈ List.replicate n (System.Choice.step i),
      choice.Valid (overlappingSystem plainHost) := by
  intro choice hc
  rw [List.eq_of_mem_replicate hc]
  exact trivial

theorem inTurn_valid : ∀ choice ∈ inTurn, choice.Valid (overlappingSystem plainHost) := by
  unfold inTurn
  simp only [List.forall_mem_append, List.forall_mem_cons]
  exact ⟨⟨twoQueued_valid, starts_valid _, steps_valid 7 0⟩, starts_valid _, steps_valid 5 0⟩

theorem atOnce_valid : ∀ choice ∈ atOnce, choice.Valid (overlappingSystem plainHost) := by
  unfold atOnce
  simp only [List.forall_mem_append, List.forall_mem_cons]
  exact ⟨⟨⟨twoQueued_valid, starts_valid _, steps_valid 3 0⟩, starts_valid _, steps_valid 3 0⟩,
    trivial, trivial, trivial, trivial, List.forall_mem_nil _⟩

/-- Nothing is locked where a statement could have to wait for it. -/
def waitsForNothing ⦃β : Type⦄ (_ : List (Prog Phase Unit)) (s : Claims) : Phase β → Bool
  | .plain _ _ => s.store.jobs.rows.all fun r => !s.locks r.id
  | .claim _ => true

theorem waits_of_nothing ⦃β : Type⦄ (others : List (Prog Phase Unit)) (s : Claims) (q : Phase β)
    (h : waitsForNothing others s q) : Waits others s q := by
  cases q with
  | plain q hq =>
    intro r hr hlocks
    have hfree := List.all_eq_true.mp h r hr
    rw [hlocks] at hfree
    cases hfree
  | claim q => exact trivial

def ClaimPhase.commits {β : Type} : ClaimPhase β → Bool
  | .commit _ _ => true
  | _ => false

/-- Besides, nothing runs where a claim commits. -/
def commitsIdle ⦃β : Type⦄ (others : List (Prog Phase Unit)) (s : Claims) (q : Phase β) : Bool :=
  waitsForNothing others s q && match q with
    | .claim q => !q.commits || s.store.jobs.rows.all fun r => r.state ≠ .running
    | .plain _ _ => true

theorem inOrder_of_idle ⦃β : Type⦄ (others : List (Prog Phase Unit)) (s : Claims) (q : Phase β)
    (h : commitsIdle others s q) : InOrder others s q := by
  unfold commitsIdle at h
  rw [Bool.and_eq_true] at h
  refine ⟨waits_of_nothing others s q h.1, ?_⟩
  cases q with
  | plain q hq => exact trivial
  | claim q =>
    cases q with
    | commit token workerId =>
      intro u row _ _ r hr _ hs
      exact absurd hs (of_decide_eq_true (List.all_eq_true.mp h.2 r hr))
    | _ => exact trivial

/-- The second worker finds nothing. -/
theorem one_running_in_turn : ∃ c : Config Claims Phase,
    c.store.store.jobs.rows.map (fun r => (r.prNumber, r.state)) =
      [(1, .running), (2, .queued)] ∧ OneRunning c.store.store := by
  refine ⟨afterClaims inTurn, by decide +kernel, ?_⟩
  refine (one_running_exact plainHost (emptyStore 0) (List.forall_mem_nil _) _ ?_).1
  exact (overlappingSystem plainHost).schedule_reaches _ _ inTurn_valid
    ((overlappingSystem plainHost).meets_of_check commitsIdle inOrder_of_idle _ _
      (by decide +kernel))

/-- Besides, no claim starts while another one is under way. -/
def startsAlone ⦃β : Type⦄ (others : List (Prog Phase Unit)) (s : Claims) (q : Phase β) : Bool :=
  waitsForNothing others s q && match q with
    | .claim q => !q.starts || s.updates.length = 0
    | .plain _ _ => true

theorem alone_of_startsAlone ⦃β : Type⦄ (others : List (Prog Phase Unit)) (s : Claims)
    (q : Phase β) (h : startsAlone others s q) : Waits others s q ∧ Alone others s q := by
  unfold startsAlone at h
  rw [Bool.and_eq_true] at h
  refine ⟨waits_of_nothing others s q h.1, ?_⟩
  cases q with
  | plain q hq => exact trivial
  | claim q =>
    intro hstarts
    simpa [hstarts] using h.2

theorem one_running_of_alone_in_turn : OneRunning (afterClaims inTurn).store.store := by
  refine one_running_of_alone plainHost (emptyStore 0) (List.forall_mem_nil _) _ ?_
  exact (overlappingSystem plainHost).schedule_reaches _ _ inTurn_valid
    ((overlappingSystem plainHost).meets_of_check startsAlone alone_of_startsAlone _ _
      (by decide +kernel))

/-- Each of two workers has a job of the workspace. -/
theorem claims_overtake : ¬ ∀ (host : Host) (s : Store) (c : Config Claims Phase),
    OneRunning s → (overlappingSystem host).Reaches Waits ⟨{ store := s }, []⟩ c →
    OneRunning c.store.store := by
  intro hclaim
  have hone : OneRunning (afterClaims atOnce).store.store := by
    refine hclaim plainHost (emptyStore 0) _ (List.forall_mem_nil _) ?_
    exact (overlappingSystem plainHost).schedule_reaches _ _ atOnce_valid
      ((overlappingSystem plainHost).meets_of_check waitsForNothing waits_of_nothing _ _
        (by decide +kernel))
  have hrows : (afterClaims atOnce).store.store.jobs.rows.map
      (fun r => (r.prNumber, r.workspaceId, r.state)) =
      [(1, "w".toList, .running), (2, "w".toList, .running)] := by decide +kernel
  obtain ⟨a, ha, hpa⟩ := List.mem_map.mp (hrows ▸ List.mem_cons_self)
  obtain ⟨b, hb, hpb⟩ := List.mem_map.mp (hrows ▸ List.mem_cons_of_mem _ List.mem_cons_self)
  simp only [Prod.mk.injEq] at hpa hpb
  have heq := hone a ha b hb (hpa.2.1.trans hpb.2.1.symm) hpa.2.2 hpb.2.2
  have hnumbers : 1 = 2 := hpa.1.symm.trans ((congrArg ReviewJobRow.prNumber heq).trans hpb.1)
  exact absurd hnumbers (by decide)

end Agentrail.Review
