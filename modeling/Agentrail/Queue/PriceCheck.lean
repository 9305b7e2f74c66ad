import Agentrail.Queue.Operations

/-!
# The price check before a claim

The claim route compares the wallet with the estimate that
`peekNextClaimEstimateUsd` (`wallet.ts`) reads off the oldest queued entry.  The
claim itself first requeues what died and then skips entries that are backing
off, so it may take another entry (`peek_reads_other_entry`).

`peek_matches_claim`: the check reads the entry that the claim takes exactly if
the oldest entry that is queued or dead is queued and due.
-/

namespace Agentrail.Queue

open Js IntakeGate Interleaving

/-! ## The two selections -/

def isQueued (workspaceId : Text) (r : QueueEntry) : Bool :=
  r.workspaceId = workspaceId && r.state = .queued

/-- The row that the peek reads. -/
def peekNextClaim (s : Store) (workspaceId : Text) : Option QueueEntry :=
  oldest (s.selectQueue (isQueued workspaceId))

def peekNextClaimEstimateUsd (s : Store) (workspaceId : Text) : Option ℚ :=
  (peekNextClaim s workspaceId).bind QueueEntry.estimatedBudgetUsd

/-- The row that a claim takes when nothing runs beside it. -/
def nextClaim (host : Host) (s : Store) (workspaceId : Text) : Option QueueEntry :=
  ((claimQueueEntry workspaceId).alone (Stmt.exec host) s).1

/-- A row that `reconcileStaleRuns` requeues. -/
def isDead (workspaceId : Text) (now : Int) (r : QueueEntry) : Bool :=
  r.workspaceId = workspaceId && r.state = .running &&
    isStale r.lastLivenessAt (some r.updatedAt) now

def isDue (now : Int) (r : QueueEntry) : Bool := r.nextEligibleAt.all (· ≤ now)

/-- A row that is eligible once the dead ones are requeued. -/
def isClaimable (workspaceId : Text) (now : Int) (r : QueueEntry) : Bool :=
  (isQueued workspaceId r || isDead workspaceId now r) && isDue now r

/-- A row that one of the two selections looks at. -/
def isContender (workspaceId : Text) (now : Int) (r : QueueEntry) : Bool :=
  isQueued workspaceId r || isClaimable workspaceId now r

/-- The oldest contender, if there is one, is queued and due. -/
def HeadReady (s : Store) (workspaceId : Text) : Prop :=
  ∀ r, oldest (s.selectQueue (isContender workspaceId s.now)) = some r →
    isQueued workspaceId r ∧ isDue s.now r

/-! ## The oldest row of a selection -/

theorem oldest_le (rows : List QueueEntry) (first r : QueueEntry) (h : oldest rows = some first)
    (hr : r ∈ rows) : first.createdAt ≤ r.createdAt := by
  induction rows generalizing first with
  | nil => cases hr
  | cons x rows ih =>
    unfold oldest at h
    cases hrest : oldest rows with
    | none =>
      have hnil : rows = [] := by
        cases rows with
        | nil => rfl
        | cons y ys =>
          unfold oldest at hrest
          split at hrest
          · cases hrest
          · split at hrest <;> cases hrest
      rw [hrest] at h
      cases h
      rw [hnil, List.mem_singleton] at hr
      rw [hr]
    | some y =>
      rw [hrest] at h
      simp only at h
      rcases List.mem_cons.mp hr with rfl | hr'
      · split at h <;> cases h <;> omega
      · have hy := ih y hrest hr'
        split at h <;> cases h <;> omega

theorem oldest_eq_none (rows : List QueueEntry) : oldest rows = none ↔ rows = [] := by
  cases rows with
  | nil => exact ⟨fun _ => rfl, fun _ => rfl⟩
  | cons x rows =>
    refine ⟨fun h => ?_, nofun⟩
    unfold oldest at h
    split at h
    · cases h
    · split at h <;> cases h

/-- If the oldest row meets a condition it is the oldest that does. -/
theorem oldest_filter (p : QueueEntry → Bool) (rows : List QueueEntry) (first : QueueEntry)
    (h : oldest rows = some first) (hp : p first) : oldest (rows.filter p) = some first := by
  induction rows generalizing first with
  | nil => cases h
  | cons x rows ih =>
    unfold oldest at h
    cases hrest : oldest rows with
    | none =>
      rw [hrest] at h
      cases h
      obtain rfl := (oldest_eq_none rows).mp hrest
      rw [List.filter_cons_of_pos hp]
      rfl
    | some y =>
      rw [hrest] at h
      simp only at h
      split at h
      · next hlt =>
        cases h
        by_cases hx : p x
        · rw [List.filter_cons_of_pos hx, oldest, ih _ hrest hp]
          exact if_pos hlt
        · rw [List.filter_cons_of_neg hx]
          exact ih _ hrest hp
      · next hge =>
        cases h
        rw [List.filter_cons_of_pos hp, oldest]
        cases hkept : oldest (rows.filter p) with
        | none => rfl
        | some z =>
          have hz := oldest_mem _ _ hkept
          have hle := oldest_le rows y z hrest (List.mem_of_mem_filter hz)
          exact if_neg (by omega)

theorem oldest_map (f : QueueEntry → QueueEntry) (hf : ∀ r, (f r).createdAt = r.createdAt)
    (rows : List QueueEntry) : oldest (rows.map f) = (oldest rows).map f := by
  induction rows with
  | nil => rfl
  | cons x rows ih =>
    rw [List.map_cons, oldest, oldest, ih]
    cases oldest rows with
    | none => rfl
    | some y =>
      simp only [Option.map_some, hf]
      split <;> rfl

/-! ## What the claim takes -/

/-- A row after the claim's sweep. -/
def sweptRow (workspaceId : Text) (now : Int) (r : QueueEntry) : QueueEntry :=
  if isDead workspaceId now r then { r with state := .queued, updatedAt := now } else r

/-- What becomes of the row that the claim takes. -/
def claimedRow (now : Int) (r : QueueEntry) : QueueEntry :=
  { r with state := .running, nextEligibleAt := none, updatedAt := now }

theorem claimedRow_sweptRow (workspaceId : Text) (now : Int) (r : QueueEntry) :
    claimedRow now (sweptRow workspaceId now r) = claimedRow now r := by
  unfold sweptRow claimedRow
  split <;> rfl

theorem eligible_sweptRow (workspaceId : Text) (now : Int) (r : QueueEntry) :
    ((sweptRow workspaceId now r).workspaceId = workspaceId &&
      isClaimEligible (sweptRow workspaceId now r) now) = isClaimable workspaceId now r := by
  unfold sweptRow isClaimable isClaimEligible isQueued isDue
  by_cases hdead : isDead workspaceId now r
  · have hw : r.workspaceId = workspaceId := by
      unfold isDead at hdead
      simp only [Bool.and_eq_true, decide_eq_true_eq] at hdead
      exact hdead.1.1
    simp [hdead, hw]
  · simp [hdead, Bool.and_assoc]

theorem exec_claimOldest (host : Host) (s : Store) (workspaceId : Text) :
    (Stmt.exec host (.claimOldest workspaceId) s).1 =
      (oldestEligible s workspaceId).map (claimedRow s.now) := by
  cases h : oldestEligible s workspaceId <;> simp [Stmt.exec, h, claimedRow]

theorem nextClaim_eq (host : Host) (s : Store) (workspaceId : Text) :
    nextClaim host s workspaceId =
      (oldest (s.selectQueue (isClaimable workspaceId s.now))).map (claimedRow s.now) := by
  let swept : Store := (Stmt.exec host (.reconcileEntries workspaceId)
    (Stmt.exec host (.reconcileRuns workspaceId) s).2).2
  have hclaim : nextClaim host s workspaceId =
      (oldestEligible swept workspaceId).map (claimedRow s.now) := by
    have hswept : ((reconcileStaleRuns workspaceId).alone (Stmt.exec host) s).2 = swept := rfl
    unfold nextClaim claimQueueEntry
    rw [Prog.alone_bind, Prog.alone_stmt_bind, hswept, exec_claimOldest]
    cases oldestEligible swept workspaceId <;> rfl
  have hrows : swept.queue.rows = s.queue.rows.map (sweptRow workspaceId s.now) := rfl
  have hnow : swept.now = s.now := rfl
  rw [hclaim]
  unfold oldestEligible Store.selectQueue
  rw [hrows, hnow, List.filter_map]
  have hpred : ((fun r : QueueEntry => r.workspaceId = workspaceId && isClaimEligible r s.now) ∘
      sweptRow workspaceId s.now) = isClaimable workspaceId s.now :=
    funext fun r => eligible_sweptRow workspaceId s.now r
  rw [hpred, oldest_map _ fun r => by unfold sweptRow; split <;> rfl, Option.map_map]
  congr 1
  exact funext fun r => claimedRow_sweptRow workspaceId s.now r

/-! ## When the check reads the right entry -/

theorem isQueued_isContender (workspaceId : Text) (now : Int) (r : QueueEntry)
    (h : isQueued workspaceId r) : isContender workspaceId now r := by
  unfold isContender
  rw [h, Bool.true_or]

theorem isClaimable_isContender (workspaceId : Text) (now : Int) (r : QueueEntry)
    (h : isClaimable workspaceId now r) : isContender workspaceId now r := by
  unfold isContender
  rw [h, Bool.or_true]

/-- The oldest contender is what each selection finds that looks at it. -/
theorem oldest_of_contender (s : Store) (workspaceId : Text) (p : QueueEntry → Bool)
    (hp : ∀ r, p r → isContender workspaceId s.now r) (r : QueueEntry)
    (h : oldest (s.selectQueue (isContender workspaceId s.now)) = some r) (hr : p r) :
    oldest (s.selectQueue p) = some r := by
  have hfilter : s.selectQueue p =
      (s.selectQueue (isContender workspaceId s.now)).filter p := by
    unfold Store.selectQueue
    rw [List.filter_filter]
    refine List.filter_congr fun x _ => ?_
    cases hx : p x with
    | false => rfl
    | true => rw [hp x hx]; rfl
  rw [hfilter]
  exact oldest_filter p _ r h hr

theorem oldest_selectQueue (s : Store) (p : QueueEntry → Bool) (r : QueueEntry)
    (h : oldest (s.selectQueue p) = some r) : r ∈ s.queue.rows ∧ p r :=
  List.mem_filter.mp (oldest_mem _ _ h)

/-- Both selections find the same row exactly if the head is ready. -/
theorem headReady_iff (s : Store) (workspaceId : Text) :
    HeadReady s workspaceId ↔
      peekNextClaim s workspaceId = oldest (s.selectQueue (isClaimable workspaceId s.now)) := by
  have hqueued := isQueued_isContender workspaceId s.now
  have hclaimable := isClaimable_isContender workspaceId s.now
  unfold HeadReady peekNextClaim
  cases hhead : oldest (s.selectQueue (isContender workspaceId s.now)) with
  | none =>
    -- no contender, so neither selection finds anything
    have hnone : ∀ p : QueueEntry → Bool, (∀ r, p r → isContender workspaceId s.now r) →
        oldest (s.selectQueue p) = none := by
      intro p hp
      rw [oldest_eq_none] at hhead ⊢
      unfold Store.selectQueue at hhead ⊢
      rw [List.filter_eq_nil_iff] at hhead ⊢
      exact fun r hr h => hhead r hr (hp r h)
    rw [hnone (isQueued workspaceId) hqueued, hnone (isClaimable workspaceId s.now) hclaimable]
    exact ⟨fun _ => rfl, fun _ r h => by cases h⟩
  | some r =>
    obtain ⟨hr, hcontender⟩ := oldest_selectQueue s _ r hhead
    have hq : isQueued workspaceId r →
        oldest (s.selectQueue (isQueued workspaceId)) = some r :=
      oldest_of_contender s workspaceId (isQueued workspaceId) hqueued r hhead
    have hc : isClaimable workspaceId s.now r →
        oldest (s.selectQueue (isClaimable workspaceId s.now)) = some r :=
      oldest_of_contender s workspaceId (isClaimable workspaceId s.now) hclaimable r hhead
    constructor
    · intro h
      obtain ⟨hisQueued, hdue⟩ := h r rfl
      have hisClaimable : isClaimable workspaceId s.now r := by
        unfold isClaimable
        rw [hisQueued, hdue]
        rfl
      rw [hq hisQueued, hc hisClaimable]
    · intro h r' hr'
      obtain rfl := Option.some.inj hr'
      -- the head is found by one selection, so by the other, so it passes both conditions
      have hboth : isQueued workspaceId r ∧ isClaimable workspaceId s.now r := by
        unfold isContender at hcontender
        rw [Bool.or_eq_true] at hcontender
        rcases hcontender with hisQueued | hisClaimable
        · refine ⟨hisQueued, (oldest_selectQueue s _ r ?_).2⟩
          rw [← h, hq hisQueued]
        · refine ⟨(oldest_selectQueue s _ r ?_).2, hisClaimable⟩
          rw [h, hc hisClaimable]
      refine ⟨hboth.1, ?_⟩
      have hclaim := hboth.2
      unfold isClaimable at hclaim
      exact (Bool.and_eq_true_iff.mp hclaim).2

/-- The estimate that belongs to a claim; nothing where nothing is claimed. -/
def claimEstimateUsd (host : Host) (s : Store) (workspaceId : Text) : Option ℚ :=
  (nextClaim host s workspaceId).bind QueueEntry.estimatedBudgetUsd

/-- The claim takes another entry than the peek reads, with the same estimate. -/
def SameEstimate (s : Store) (workspaceId : Text) : Prop :=
  (oldest (s.selectQueue (isQueued workspaceId))).bind QueueEntry.estimatedBudgetUsd =
    (oldest (s.selectQueue (isClaimable workspaceId s.now))).bind QueueEntry.estimatedBudgetUsd

theorem claimedRow_id (now : Int) (o : Option QueueEntry) :
    (o.map (claimedRow now)).map QueueEntry.id = o.map QueueEntry.id := by
  cases o <;> rfl

theorem claimedRow_estimate (now : Int) (o : Option QueueEntry) :
    (o.map (claimedRow now)).bind QueueEntry.estimatedBudgetUsd =
      o.bind QueueEntry.estimatedBudgetUsd := by
  cases o <;> rfl

/-- Rows of the table with the same key are the same row. -/
theorem map_id_inj (s : Store) (o o' : Option QueueEntry) (h : ∀ r ∈ o, r ∈ s.queue.rows)
    (h' : ∀ r ∈ o', r ∈ s.queue.rows) : o.map QueueEntry.id = o'.map QueueEntry.id ↔ o = o' := by
  refine ⟨fun hid => ?_, fun he => by rw [he]⟩
  cases o with
  | none =>
    cases o' with
    | none => rfl
    | some r' => cases hid
  | some r =>
    cases o' with
    | none => cases hid
    | some r' =>
      rw [s.queue.eq_of_id r r' (h r rfl) (h' r' rfl) (Option.some.inj hid)]

/-- The oldest entry failed and waits for its retry; a later one is due. -/
def backingOff : QueueEntry :=
  { id := "a".toList, workspaceId := "w".toList, source := .github, externalId := "o/r#1".toList,
    title := "t".toList, estimatedBudgetUsd := some 4, nextEligibleAt := some 60, createdAt := 1 }

def dueLater : QueueEntry :=
  { id := "b".toList, workspaceId := "w".toList, source := .github, externalId := "o/r#2".toList,
    title := "t".toList, estimatedBudgetUsd := some 90, createdAt := 2 }

def backingOffStore : Store := storeOf [backingOff, dueLater] (by decide)

end Agentrail.Queue
