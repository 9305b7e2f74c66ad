import Agentrail.Queue.TerminalStates

/-!
# The retry budget of an entry

`recordRunnerResult` writes in SQL what `nextQueueTransition` decides in code.
`setColumns` is the `SET` list over the `integer` columns, `nextColumns` the
decision over the same integers; `setColumns_eq` compares them at every value, and
`recordRunnerResult_row` says it of the row that the function leaves behind.

Every red or error result spends a unit of the budget or escalates.  So whatever
else runs on the queue, an entry is escalated by the time it has had as many of
them as its budget, or one where it had none (`escalates_within`).
-/

namespace Agentrail.Queue

open Js IntakeGate Interleaving

/-! ## The columns of a result -/

/-- `state`, `remaining_budget` and `tier`. -/
structure ResultColumns where
  state : QueueState
  remainingBudget : Int
  tier : Int
  deriving DecidableEq, Repr

def QueueEntry.columns (r : QueueEntry) : ResultColumns := ⟨r.state, r.remainingBudget, r.tier⟩

def Transition.columns (t : Transition) : ResultColumns := ⟨t.state, t.remainingBudget, t.tier⟩

/-- `nextQueueTransition` on any integers, less the delay. -/
def nextColumns (status : RunnerStatus) (gateReason : Option Text) (remainingBudget tier : Int) :
    ResultColumns :=
  if status = .green then ⟨.green, remainingBudget, tier⟩
  else if status = .running then ⟨.running, remainingBudget, tier⟩
  else if isHostedRefusal status gateReason then ⟨.escalatedToHuman, remainingBudget, tier⟩
  else
    ⟨if remainingBudget ≤ 1 then .escalatedToHuman else .queued,
      max (remainingBudget - 1) 0,
      if status = .red then min (tier + 1) MAX_TIER else tier⟩

/-- The `SET` list of the update that `recordRunnerResult` sends, on the columns of a row. -/
def setColumns (status : RunnerStatus) (gateReason : Option Text) (row : ResultColumns) :
    ResultColumns :=
  if status = .red ∨ status = .error then
    if isHostedRefusal status gateReason then { row with state := .escalatedToHuman }
    else
      let tierExpr := if status = .red then min (row.tier + 1) MAX_TIER else row.tier
      -- CASE WHEN, GREATEST
      { state := if row.remainingBudget ≤ 1 then .escalatedToHuman else .queued
        remainingBudget := max (row.remainingBudget - 1) 0
        tier := tierExpr }
  else { row with state := (nextColumns status none 0 0).state }

/-- The two agree, whatever the columns hold. -/
theorem setColumns_eq (status : RunnerStatus) (gateReason : Option Text) (row : ResultColumns) :
    setColumns status gateReason row =
      nextColumns status gateReason row.remainingBudget row.tier := by
  unfold setColumns nextColumns
  cases status with
  | green | running => rfl
  | red | error =>
    cases isHostedRefusal _ gateReason <;> rfl

theorem nextQueueTransition_columns (status : RunnerStatus) (remainingBudget tier : Nat)
    (gateReason : Option Text) (attempts random : Nat) :
    (nextQueueTransition status remainingBudget tier gateReason attempts random).columns =
      nextColumns status gateReason remainingBudget tier := by
  have hspent : ((remainingBudget - 1 : Nat) : Int) = max (remainingBudget - 1 : Int) 0 := by omega
  have hstate : (if remainingBudget ≤ 1 then QueueState.escalatedToHuman else .queued) =
      if (remainingBudget : Int) ≤ 1 then .escalatedToHuman else .queued :=
    if_congr (by omega) rfl rfl
  cases status with
  | green | running => rfl
  | red =>
    have htier : ((min (tier + 1) MAX_TIER : Nat) : Int) = min (tier + 1 : Int) MAX_TIER := by omega
    show ResultColumns.mk (if remainingBudget ≤ 1 then QueueState.escalatedToHuman else .queued)
      ((remainingBudget - 1 : Nat) : Int) ((min (tier + 1) MAX_TIER : Nat) : Int) = _
    rw [hstate, hspent, htier]
    rfl
  | error =>
    unfold nextQueueTransition nextColumns
    cases isHostedRefusal .error gateReason with
    | true => rfl
    | false =>
      show ResultColumns.mk (if remainingBudget ≤ 1 then QueueState.escalatedToHuman else .queued)
        ((remainingBudget - 1 : Nat) : Int) tier = _
      rw [hstate, hspent]
      rfl

theorem retryEntry_columns (data : RunnerResult) (attempts : Nat) (now : Int) (r : QueueEntry)
    (hstatus : data.status = .red ∨ data.status = .error)
    (hordinary : isHostedRefusal data.status data.gateReason = false) :
    (retryEntry data attempts now r).columns =
      setColumns data.status data.gateReason r.columns := by
  have h := retryEntry_eq_nextQueueTransition data attempts now r hstatus hordinary
  rw [setColumns_eq]
  show _ = nextColumns data.status data.gateReason (r.remainingBudget : Int) r.tier
  rw [← nextQueueTransition_columns data.status r.remainingBudget r.tier data.gateReason attempts
    data.random, h]
  rfl

/-! ## What a result statement writes -/

/-- The statement records a result for the entry. -/
def Stmt.records (r : QueueEntry) : ∀ {β : Type}, Stmt β → Bool
  | _, .recordRefusal data => isEntry data.id data.workspaceId r
  | _, .recordRetry data => isEntry data.id data.workspaceId r
  | _, .recordState data _ => isEntry data.id data.workspaceId r
  | _, _ => false

theorem recordRefusal_columns (data : RunnerResult) (now : Int) (r : QueueEntry)
    (herror : data.status = .error) (hhosted : isHostedRefusal data.status data.gateReason) :
    { r with state := .escalatedToHuman, parkReason := data.gateReason, nextEligibleAt := none,
             updatedAt := now : QueueEntry }.columns =
      setColumns data.status data.gateReason r.columns := by
  unfold setColumns
  rw [if_pos (Or.inr herror), if_pos hhosted]
  rfl

theorem recordState_columns (data : RunnerResult) (next : QueueState) (now : Int) (r : QueueEntry)
    (hnext : data.status = .green ∧ next = .green ∨ data.status = .running ∧ next = .running) :
    { r with state := next, updatedAt := now : QueueEntry }.columns =
      setColumns data.status data.gateReason r.columns := by
  rcases hnext with ⟨hs, rfl⟩ | ⟨hs, rfl⟩ <;> rw [hs] <;> rfl

/-- What a result statement writes is what its `SET` list says. -/
theorem Writes.columns_eq {host : Host} {flag : Text → Bool} {data : RunnerResult} {β : Type}
    {q : Stmt β} {s : Store} {r r' : QueueEntry} (h : Writes q s r r')
    (hq : Issued host flag (.recordRunnerResult data) q) (hrecords : q.records r) :
    r'.columns = setColumns data.status data.gateReason r.columns := by
  cases h with
  | recordRefusal _ =>
    obtain ⟨hop, herror, hhosted⟩ := hq
    cases hop
    exact recordRefusal_columns data s.now r herror hhosted
  | recordRetry attempts _ =>
    obtain ⟨hop, hstatus, hordinary⟩ := hq
    cases hop
    exact retryEntry_columns data attempts s.now r hstatus hordinary
  | recordState _ =>
    obtain ⟨hop, hnext⟩ := hq
    cases hop
    exact recordState_columns data _ s.now r hnext
  | _ => cases hrecords

/-- The other statements of `recordRunnerResult` write parked entries only. -/
theorem Writes.records {host : Host} {flag : Text → Bool} {data : RunnerResult} {β : Type}
    {q : Stmt β} {s : Store} {r r' : QueueEntry} (h : Writes q s r r')
    (hq : Issued host flag (.recordRunnerResult data) q) (hstate : r.state ≠ .parked) :
    q.records r := by
  cases h with
  | recordRefusal he | recordRetry _ he | recordState he => exact he
  | releaseParked _ _ hs | restampParked _ _ hs _ | confirm _ hs | deny _ hs | revise _ hs _
  | holdForAlignment _ hs | requeue _ hs _ _ => exact absurd hs hstate
  | reconcileEntries _ _ _ => rcases hq with h | h <;> cases h
  | stampEntry _ _ | claimOldest _ _ | clearDelay _ _ => cases hq

/-! ## The count of the results -/

/-- The results of the entry, among the events. -/
def resultsOf (id : Text) (history : List Event) : Nat :=
  history.countP fun
    | .result i _ => i = id
    | _ => false

theorem resultsOf_result (id : Text) (claim : Nat) (history : List Event) :
    resultsOf id (.result id claim :: history) = resultsOf id history + 1 :=
  List.countP_cons_of_pos (by simp)

theorem resultsOf_other (id : Text) (e : Event) (history : List Event)
    (h : ∀ claim, e ≠ .result id claim) : resultsOf id (e :: history) = resultsOf id history := by
  refine List.countP_cons_of_neg ?_
  cases e with
  | result i claim =>
    simp only [decide_eq_true_eq]
    rintro rfl
    exact h claim rfl
  | admitted | denied | revised | requeued | claimed => exact Bool.false_ne_true

section
variable {β : Type} {q : Stmt β} {s : Store} {r r' : QueueEntry}

theorem Writes.workspaceId_eq (h : Writes q s r r') : r'.workspaceId = r.workspaceId := by
  cases h <;> rfl

/-- No other statement writes the budget, or escalates. -/
theorem Writes.quiet (h : Writes q s r r') (hq : q.records r = false) :
    r'.remainingBudget = r.remainingBudget ∧
      (r'.state = .escalatedToHuman → r.state = .escalatedToHuman) := by
  cases h with
  | recordRefusal he | recordRetry _ he | recordState he =>
    exact absurd he (Bool.eq_false_iff.mp hq)
  | confirm _ _ =>
    refine ⟨rfl, fun h => ?_⟩
    dsimp only at h
    split at h <;> cases h
  | reconcileEntries | claimOldest | releaseParked | requeue => exact ⟨rfl, fun h => nomatch h⟩
  | stampEntry | restampParked | deny | revise | clearDelay | holdForAlignment =>
    exact ⟨rfl, id⟩

theorem Notes.quiet {e : Event} (h : Notes q s e) (hr : r ∈ s.queue.rows)
    (hq : q.records r = false) (claim : Nat) : e ≠ .result r.id claim := by
  -- the row that a result statement has hit is the one of that id
  have hhit : ∀ (data : RunnerResult) (x : QueueEntry), x ∈ s.queue.rows →
      isEntry data.id data.workspaceId x → isEntry data.id data.workspaceId r = false →
      Event.result data.id data.claim ≠ .result r.id claim := by
    rintro data x hx he hne heq
    have hid : data.id = r.id := (Event.result.inj heq).1
    obtain rfl : x = r := by
      refine s.queue.eq_of_id x r hx hr ?_
      unfold isEntry at he
      rw [Bool.and_eq_true, decide_eq_true_eq] at he
      exact he.1.trans hid
    rw [he] at hne
    cases hne
  cases h with
  | recordRefusal hx he | recordRetry hx he | recordState hx he => exact hhit _ _ hx he hq
  | claimOldest | deny | revise | requeue | insertEntry => exact fun h => nomatch h

/-- A statement that records no result of the entry leaves its budget and its count. -/
theorem exec_quiet (host : Host) (hr : r ∈ s.queue.rows) (hq : q.records r = false) :
    resultsOf r.id (q.exec host s).2.history = resultsOf r.id s.history ∧
      ∃ x ∈ (q.exec host s).2.queue.rows, x.id = r.id ∧ x.workspaceId = r.workspaceId ∧
        x.remainingBudget = r.remainingBudget ∧
        (x.state = .escalatedToHuman → r.state = .escalatedToHuman) := by
  constructor
  · rcases exec_history host q s with h | ⟨e, h, hnotes⟩
    · rw [h]
    · rw [h]
      exact resultsOf_other _ _ _ (hnotes.quiet hr hq)
  · rcases exec_row host q s with ⟨image, hrows, himage⟩ | ⟨row, _, _, hrows, _⟩
    · refine ⟨image r, hrows ▸ List.mem_map_of_mem hr, ?_⟩
      rcases himage r hr with heq | hw
      · rw [heq]
        exact ⟨rfl, rfl, rfl, id⟩
      · exact ⟨hw.id_eq, hw.workspaceId_eq, hw.quiet hq⟩
    · exact ⟨r, hrows ▸ List.mem_append_left _ hr, rfl, rfl, rfl, id⟩

/-- One that does writes the entry, and notes it. -/
theorem exec_records (host : Host) (hr : r ∈ s.queue.rows) (hq : q.records r) :
    (∃ claim, (q.exec host s).2.history = .result r.id claim :: s.history) ∧
      ∃ r' ∈ (q.exec host s).2.queue.rows, Writes q s r r' := by
  have hhit : ∀ (data : RunnerResult) (s' : Store) (f : QueueEntry → QueueEntry),
      s'.history = s.history → s'.queue = s.queue.update (isEntry data.id data.workspaceId) f →
      isEntry data.id data.workspaceId r → (f r).id = r.id →
      (∃ claim, (s'.noteIf (!(s.selectQueue (isEntry data.id data.workspaceId)).isEmpty)
        (.result data.id data.claim)).history = .result r.id claim :: s.history) ∧
      f r ∈ (s'.noteIf (!(s.selectQueue (isEntry data.id data.workspaceId)).isEmpty)
        (.result data.id data.claim)).queue.rows := by
    intro data s' f hhistory hqueue he hid
    have hdata : r.id = data.id := by
      unfold isEntry at he
      rw [Bool.and_eq_true, decide_eq_true_eq] at he
      exact he.1
    constructor
    · rw [s.noteIf_of_mem _ _ s' r hr he, hhistory, hdata]
      exact ⟨_, rfl⟩
    · rw [Store.noteIf_queue, hqueue, QueueTable.mem_update]
      refine ⟨r, hr, ?_⟩
      rw [if_pos he, ← hid]
  cases q with
  | recordRefusal data =>
    obtain ⟨hnote, hmem⟩ := hhit data (s.logAttempt data |>.updateQueue _ _)
      (fun r => { r with state := .escalatedToHuman, parkReason := data.gateReason,
                         nextEligibleAt := none, updatedAt := s.now }) rfl rfl hq rfl
    exact ⟨hnote, _, hmem, .recordRefusal hq⟩
  | recordRetry data =>
    obtain ⟨hnote, hmem⟩ := hhit data (s.logAttempt data |>.updateQueue _ _)
      (retryEntry data (s.attempts.filter (·.queueEntryId = data.id)).length s.now) rfl rfl hq rfl
    exact ⟨hnote, _, hmem, .recordRetry _ hq⟩
  | recordState data next =>
    obtain ⟨hnote, hmem⟩ := hhit data (s.updateQueue _ _)
      (fun r => { r with state := next, updatedAt := s.now }) rfl rfl hq rfl
    exact ⟨hnote, _, hmem, .recordState hq⟩
  | _ => cases hq

end

/-! ## The function on its own -/

/-- `r` is in the queue and not parked. -/
def Settled (r : QueueEntry) (s : Store) : Prop := r ∈ s.queue.rows ∧ r.state ≠ .parked

/-- Statements that write at most parked entries. -/
def Stmt.sparesUnparked : ∀ {β : Type}, Stmt β → Bool
  | _, .releaseParked _ _ => true
  | _, .restampParked _ _ => true
  | _, q => q.isSilent

theorem Writes.parked {β : Type} {q : Stmt β} {s : Store} {r r' : QueueEntry}
    (h : Writes q s r r') (hq : q.sparesUnparked) : r.state = .parked := by
  cases h with
  | releaseParked _ _ hs | restampParked _ _ hs _ => exact hs
  | _ => cases hq

theorem Settled.exec (host : Host) {r : QueueEntry} ⦃β : Type⦄ (q : Stmt β) (s : Store)
    (hs : Settled r s) (hq : q.sparesUnparked) : Settled r (q.exec host s).2 := by
  refine ⟨?_, hs.2⟩
  rcases exec_row host q s with ⟨image, hrows, himage⟩ | ⟨row, _, _, hrows, _⟩
  · rcases himage r hs.1 with heq | hw
    · rw [hrows, ← heq]
      exact List.mem_map_of_mem hs.1
    · exact absurd (hw.parked hq) hs.2
  · rw [hrows]
    exact List.mem_append_left _ hs.1

/-- After its update a result leaves the entry as it is. -/
theorem Settled.settleResult (host : Host) {r : QueueEntry} (data : RunnerResult)
    (row : QueueEntry) (transitioned : Bool) {s : Store} (hs : Settled r s) :
    Settled r ((settleResult data row transitioned).alone (Stmt.exec host) s).2 := by
  have hguarded : Guarded (Stmt.exec host) (Settled r) (fun _ q => q.sparesUnparked)
      (Queue.settleResult data row transitioned) fun _ => True := by
    refine guarded_settleResult ?_ data row transitioned (fun _ _ => rfl) fun _ _ => rfl
    intro β q hsilent
    cases q <;> first | rfl | cases hsilent
  exact hguarded.alone (Settled.exec host) hs

theorem setColumns_unparked (status : RunnerStatus) (gateReason : Option Text)
    (row : ResultColumns) : (setColumns status gateReason row).state ≠ .parked := by
  rw [setColumns_eq]
  unfold nextColumns
  split
  · exact QueueState.noConfusion
  · split
    · exact QueueState.noConfusion
    · split
      · exact QueueState.noConfusion
      · dsimp only
        split <;> exact QueueState.noConfusion

/-- The row that `recordRunnerResult` leaves behind. -/
theorem recordRunnerResult_row (host : Host) (data : RunnerResult) (s : Store) (r : QueueEntry)
    (hr : r ∈ s.queue.rows) (he : isEntry data.id data.workspaceId r) :
    ∃ r' ∈ ((recordRunnerResult data).alone (Stmt.exec host) s).2.queue.rows, r'.id = r.id ∧
      r'.columns = setColumns data.status data.gateReason r.columns := by
  -- the update comes first, and the rest leaves the row
  have hfirst : ∀ {β α : Type} (q : Stmt β) (k : β → Prog Stmt α), q.records r →
      Issued host (fun _ => true) (.recordRunnerResult data) q →
      (∀ b r' s', Settled r' s' → Settled r' ((k b).alone (Stmt.exec host) s').2) →
      ∃ r' ∈ ((Prog.stmt q >>= k).alone (Stmt.exec host) s).2.queue.rows, r'.id = r.id ∧
        r'.columns = setColumns data.status data.gateReason r.columns := by
    intro β α q k hrecords hq hk
    obtain ⟨_, r', hr', hw⟩ := exec_records host hr hrecords
    have hcolumns := hw.columns_eq hq hrecords
    have hunparked : r'.state ≠ .parked := by
      show r'.columns.state ≠ .parked
      rw [hcolumns]
      exact setColumns_unparked _ _ _
    rw [Prog.alone_stmt_bind]
    exact ⟨r', (hk _ r' _ ⟨hr', hunparked⟩).1, hw.id_eq, hcolumns⟩
  have hissues := recordRunnerResult_issues (I := fun _ => True) host (fun _ => true) data
  unfold recordRunnerResult recordFailure recordProgress at hissues ⊢
  split at hissues
  · next hstatus =>
    rw [if_pos hstatus]
    split at hissues
    · next hhosted =>
      rw [if_pos hhosted]
      refine hfirst _ _ he hissues.1 ?_
      intro b r' s' hs'
      cases b with
      | none => exact hs'
      | some row => exact hs'.settleResult host data row true
    · next hordinary =>
      rw [if_neg hordinary]
      refine hfirst _ _ he hissues.1 ?_
      intro b r' s' hs'
      cases b with
      | none => exact hs'
      | some row => exact hs'.settleResult host data row true
  · next hstatus =>
    rw [if_neg hstatus]
    refine hfirst _ _ he hissues.1 ?_
    intro b r' s' hs'
    cases b with
    | none => exact hs'
    | some committed =>
      dsimp only
      rw [Prog.alone_bind]
      refine Settled.settleResult host data _ _ ?_
      unfold logGreenAttempt
      split
      · exact hs'
      · exact hs'

/-! ## Runs of failures -/

/-- Of the results for `r` only red and error ones are recorded. -/
def FailuresOnly (r : QueueEntry) ⦃β : Type⦄ (_ : List (Prog Stmt Unit)) (_ : Store) :
    Stmt β → Prop
  | .recordState data _ => isEntry data.id data.workspaceId r = false
  | _ => True

/-- The entry with the key of `r` is escalated, after at most `n` results. -/
def EscalatedWithin (r : QueueEntry) (n : Nat) (s : Store) : Prop :=
  resultsOf r.id s.history ≤ n ∧
    ∃ x ∈ s.queue.rows, x.id = r.id ∧ x.state = .escalatedToHuman

/-- As long as the entry has not been escalated each result has spent a unit of its budget. -/
def Spending (r : QueueEntry) (start : Nat) (s : Store) : Prop :=
  ∃ x ∈ s.queue.rows, x.id = r.id ∧ x.workspaceId = r.workspaceId ∧
    resultsOf r.id s.history < start + max r.remainingBudget 1 ∧
    x.remainingBudget + resultsOf r.id s.history = r.remainingBudget + start

theorem isEntry_congr (id workspaceId : Text) {r x : QueueEntry} (hid : x.id = r.id)
    (hworkspace : x.workspaceId = r.workspaceId) :
    isEntry id workspaceId x = isEntry id workspaceId r := by
  unfold isEntry
  rw [hid, hworkspace]

/-- A failure escalates the entry or spends a unit of its budget. -/
theorem exec_failure (host : Host) {β : Type} {q : Stmt β} {s : Store} {x r : QueueEntry}
    {others : List (Prog Stmt Unit)} (hx : x ∈ s.queue.rows) (hq : q.records x)
    (hid : x.id = r.id) (hworkspace : x.workspaceId = r.workspaceId)
    (hC : FailuresOnly r others s q) :
    ∃ x' ∈ (q.exec host s).2.queue.rows, x'.id = x.id ∧ x'.workspaceId = x.workspaceId ∧
      (x'.state = .escalatedToHuman ∨
        1 < x.remainingBudget ∧ x'.remainingBudget = x.remainingBudget - 1) := by
  obtain ⟨_, x', hx', hw⟩ := exec_records host hx hq
  refine ⟨x', hx', hw.id_eq, hw.workspaceId_eq, ?_⟩
  cases hw with
  | recordRefusal _ => exact Or.inl rfl
  | recordRetry attempts _ =>
    unfold retryEntry
    by_cases hbudget : x.remainingBudget ≤ 1
    · exact Or.inl (if_pos hbudget)
    · exact Or.inr ⟨Nat.lt_of_not_le hbudget, rfl⟩
  | recordState he =>
    rw [isEntry_congr _ _ hid hworkspace] at he
    rw [show isEntry _ _ r = false from hC] at he
    cases he
  | _ => cases hq

theorem Spending.exec (host : Host) {r : QueueEntry} {start : Nat} {β : Type} (q : Stmt β)
    (others : List (Prog Stmt Unit)) (s : Store) (hs : Spending r start s)
    (hC : FailuresOnly r others s q) :
    EscalatedWithin r (start + max r.remainingBudget 1) (q.exec host s).2 ∨
      Spending r start (q.exec host s).2 := by
  obtain ⟨x, hx, hid, hworkspace, hlt, hspent⟩ := hs
  cases hq : q.records x with
  | false =>
    obtain ⟨hcount, x', hx', hid', hworkspace', hbudget, _⟩ := exec_quiet host hx hq
    rw [hid] at hcount
    right
    refine ⟨x', hx', hid'.trans hid, hworkspace'.trans hworkspace, ?_, ?_⟩
    · rwa [hcount]
    · rw [hcount, hbudget, hspent]
  | true =>
    obtain ⟨⟨claim, hhistory⟩, _⟩ := exec_records host hx hq
    have hcount : resultsOf r.id (q.exec host s).2.history = resultsOf r.id s.history + 1 := by
      rw [hhistory, ← hid]
      exact resultsOf_result _ _ _
    obtain ⟨x', hx', hid', hworkspace', hescalated | ⟨hbudget, hleft⟩⟩ :=
      exec_failure host hx hq hid hworkspace hC
    · left
      refine ⟨?_, x', hx', hid'.trans hid, hescalated⟩
      omega
    · right
      refine ⟨x', hx', hid'.trans hid, hworkspace'.trans hworkspace, ?_, ?_⟩
      · omega
      · omega

/-- **The retry budget.** Whatever operations run, once an entry has had as many red and error
results as its budget, or one if it had no budget, it has been escalated. -/
theorem escalates_within (host : Host) (allowed : Op → Prop) (c c' : Config Store Stmt)
    (r : QueueEntry) (hr : r ∈ c.store.queue.rows)
    (h : (queueSystem host allowed).Reaches (FailuresOnly r) c c')
    (hcount : resultsOf r.id c.store.history + max r.remainingBudget 1 ≤
      resultsOf r.id c'.store.history) :
    ∃ c₁, (queueSystem host allowed).Reaches (FailuresOnly r) c c₁ ∧
      (queueSystem host allowed).Reaches (FailuresOnly r) c₁ c' ∧
      EscalatedWithin r (resultsOf r.id c.store.history + max r.remainingBudget 1) c₁.store := by
  have hstart : Spending r (resultsOf r.id c.store.history) c.store :=
    ⟨r, hr, rfl, rfl, by omega, rfl⟩
  have henv : ∀ s s', Spending r (resultsOf r.id c.store.history) s → Env s s' →
      Spending r (resultsOf r.id c.store.history) s' := by
    rintro s s' ⟨x, hx, hrest⟩ he
    rw [← env_history he] at hrest
    exact ⟨x, (env_queue he).symm ▸ hx, hrest⟩
  rcases (queueSystem host allowed).reaches_goal
    (fun _ q others s hs hC => hs.exec host q others s hC) henv h hstart with
    hreached | ⟨x, _, _, _, hlt, _⟩
  · exact hreached
  · omega

/-- **The update and the decision in lockstep.** The `SET` list and `nextQueueTransition` agree on
any integers; the row that `recordRunnerResult` leaves behind, and what any of its statements writes
into an entry that is not parked, whatever runs beside, holds what `nextQueueTransition` says; and
in every run of red and error results the entry is escalated by the last unit of its budget, or by
the first result where it has none. -/
theorem results_in_lockstep :
    (∀ (status : RunnerStatus) (gateReason : Option Text) (row : ResultColumns),
      setColumns status gateReason row =
        nextColumns status gateReason row.remainingBudget row.tier) ∧
    (∀ (host : Host) (data : RunnerResult) (s : Store) (r : QueueEntry), r ∈ s.queue.rows →
      isEntry data.id data.workspaceId r →
      ∃ r' ∈ ((recordRunnerResult data).alone (Stmt.exec host) s).2.queue.rows, r'.id = r.id ∧
        ∀ attempts random, r'.columns = (nextQueueTransition data.status r.remainingBudget r.tier
          data.gateReason attempts random).columns) ∧
    (∀ (host : Host) (flag : Text → Bool) (data : RunnerResult) (β : Type) (q : Stmt β) (s : Store)
      (r r' : QueueEntry), Issued host flag (.recordRunnerResult data) q → Writes q s r r' →
      r.state ≠ .parked → ∀ attempts random, r'.columns = (nextQueueTransition data.status
        r.remainingBudget r.tier data.gateReason attempts random).columns) ∧
    ∀ (host : Host) (allowed : Op → Prop) (c c' : Config Store Stmt) (r : QueueEntry),
      r ∈ c.store.queue.rows →
      (queueSystem host allowed).Reaches (FailuresOnly r) c c' →
      resultsOf r.id c.store.history + max r.remainingBudget 1 ≤ resultsOf r.id c'.store.history →
      ∃ c₁, (queueSystem host allowed).Reaches (FailuresOnly r) c c₁ ∧
        (queueSystem host allowed).Reaches (FailuresOnly r) c₁ c' ∧
        EscalatedWithin r (resultsOf r.id c.store.history + max r.remainingBudget 1) c₁.store := by
  have hset : ∀ (data : RunnerResult) (r : QueueEntry) (attempts random : Nat),
      setColumns data.status data.gateReason r.columns = (nextQueueTransition data.status
        r.remainingBudget r.tier data.gateReason attempts random).columns := by
    intro data r attempts random
    rw [setColumns_eq, nextQueueTransition_columns]
    rfl
  refine ⟨setColumns_eq, ?_, ?_, ?_⟩
  · intro host data s r hr he
    obtain ⟨r', hr', hid, hcolumns⟩ := recordRunnerResult_row host data s r hr he
    exact ⟨r', hr', hid, fun attempts random => hcolumns.trans (hset data r attempts random)⟩
  · intro host flag data β q s r r' hq hw hstate attempts random
    exact (hw.columns_eq hq (hw.records hq hstate)).trans (hset data r attempts random)
  · intro host allowed c c' r hr h hcount
    exact escalates_within host allowed c c' r hr h hcount

/-! ## An entry without budget -/

/-- A heartbeat after the last failure brings an entry here. -/
def spentEntry : QueueEntry := { waitingEntry with state := .running, remainingBudget := 0 }

def spentConfig : Config Store Stmt := ⟨storeOf [spentEntry] (List.nodup_singleton _), []⟩

def redReport : List (System.Choice Store Stmt) :=
  solo plainHost (.recordRunnerResult
    ⟨"e".toList, "w".toList, .red, some "tests failed".toList, 0, 1⟩) 3

def afterRed : Config Store Stmt :=
  (queueSystem plainHost isRunnerOp).schedule redReport spentConfig

def recordsFailure ⦃β : Type⦄ (_ : List (Prog Stmt Unit)) (_ : Store) : Stmt β → Bool
  | .recordState _ _ => false
  | _ => true

theorem afterRed_reached :
    (queueSystem plainHost isRunnerOp).Reaches (FailuresOnly spentEntry) spentConfig afterRed := by
  refine System.schedule_reaches _ redReport _ (solo_valid _ _ trivial)
    (System.meets_of_check _ recordsFailure ?_ _ _ (by decide +kernel))
  intro β others s q h
  cases q <;> first | exact trivial | cases h

theorem resultsOf_mono (host : Host) {β : Type} (q : Stmt β) (s : Store) (id : Text) :
    resultsOf id s.history ≤ resultsOf id (q.exec host s).2.history := by
  rcases exec_history host q s with h | ⟨e, h, _⟩
  · rw [h]
  · rw [h]
    exact List.Sublist.countP_le (List.sublist_cons_self e s.history)

/-- Only a result escalates an entry. -/
theorem escalated_after_result (host : Host) (allowed : Op → Prop) (c c' : Config Store Stmt)
    (r : QueueEntry) (hr : r ∈ c.store.queue.rows) (hstate : r.state ≠ .escalatedToHuman)
    (h : (queueSystem host allowed).Reaches (FailuresOnly r) c c') (n : Nat)
    (hescalated : EscalatedWithin r n c'.store) : 0 < n := by
  let J : Store → Prop := fun s => 0 < resultsOf r.id s.history ∨
    ∃ x ∈ s.queue.rows, x.id = r.id ∧ x.state ≠ .escalatedToHuman
  have hJ : J c'.store := by
    refine (queueSystem host allowed).reaches_store ?_ ?_ h (Or.inr ⟨r, hr, rfl, hstate⟩)
    · rintro β q others s (hpos | ⟨x, hx, hid, hx'⟩) _
      · exact Or.inl (hpos.trans_le (resultsOf_mono host q s r.id))
      · cases hq : q.records x with
        | false =>
          obtain ⟨_, y, hy, hyid, _, _, hback⟩ := exec_quiet host hx hq
          exact Or.inr ⟨y, hy, hyid.trans hid, fun he => hx' (hback he)⟩
        | true =>
          obtain ⟨⟨claim, hhistory⟩, _⟩ := exec_records host hx hq
          left
          show 0 < resultsOf r.id (q.exec host s).2.history
          rw [hhistory, ← hid, resultsOf_result]
          exact Nat.succ_pos _
    · rintro s s' hs he
      show 0 < resultsOf r.id s'.history ∨ _
      rw [env_history he, env_queue he]
      exact hs
  obtain ⟨hcount, y, hy, hyid, hyes⟩ := hescalated
  rcases hJ with hpos | ⟨x, hx, hid, hx'⟩
  · exact hpos.trans_le hcount
  · obtain rfl := c'.store.queue.eq_of_id x y hx hy (hid.trans hyid.symm)
    exact absurd hyes hx'

/-- The first red result of an entry without budget is one attempt more than its budget. -/
theorem empty_budget_attempt : ¬ ∀ (host : Host) (allowed : Op → Prop) (c c' : Config Store Stmt)
    (r : QueueEntry), r ∈ c.store.queue.rows → r.state = .running →
    (queueSystem host allowed).Reaches (FailuresOnly r) c c' →
    resultsOf r.id c.store.history + r.remainingBudget < resultsOf r.id c'.store.history →
    ∃ c₁, (queueSystem host allowed).Reaches (FailuresOnly r) c c₁ ∧
      (queueSystem host allowed).Reaches (FailuresOnly r) c₁ c' ∧
      EscalatedWithin r (resultsOf r.id c.store.history + r.remainingBudget) c₁.store := by
  intro hclaim
  obtain ⟨c₁, hto, _, hescalated⟩ := hclaim plainHost isRunnerOp spentConfig afterRed spentEntry
    List.mem_cons_self rfl afterRed_reached (by decide +kernel)
  exact absurd (escalated_after_result _ _ _ _ _ List.mem_cons_self (by decide) hto _ hescalated)
    (by decide)

/-- The entry without budget is escalated by that result. -/
theorem results_in_lockstep_spent : ∃ c₁ : Config Store Stmt,
    EscalatedWithin spentEntry 1 c₁.store := by
  obtain ⟨c₁, _, _, hescalated⟩ := results_in_lockstep.2.2.2 plainHost isRunnerOp spentConfig
    afterRed spentEntry List.mem_cons_self afterRed_reached (by decide +kernel)
  exact ⟨c₁, hescalated⟩

end Agentrail.Queue
