import Agentrail.Queue.Runner

/-!
# The operations of the queue as one system

`Op` lists the operations of the intake and of the runner's side, `queueSystem`
runs any allowed set of them at once.  `Issued` says which statements an
operation can come to execute and with which arguments; `opProgram_issues`
derives it from the programs, so that no result about runs looks into a program
again.
-/

namespace Agentrail.Queue

open Js IntakeGate Interleaving

/-! ## Operations and their runs -/

inductive Op where
  | enqueueGithubIssue (data : GithubIssue)
  | enqueueLinearIssue (data : LinearIssue)
  | unparkDependents (workspaceId completedExternalId : Text)
  | confirmAlignmentBrief (input : Confirmation)
  | denyAlignmentBrief (queueEntryId : Text)
  | reviseAlignmentBrief (input : Revision)
  | requeueParkedQueueEntry (workspaceId id : Text)
  | claimQueueEntry (workspaceId : Text)
  | reconcileStaleRuns (workspaceId : Text)
  | recordRunnerLiveness (id workspaceId : Text)
  | recordRunnerResult (data : RunnerResult)
  deriving DecidableEq, Repr

/-- An operation as a program of the pool. -/
def opProgram (host : Host) : Op → Prog Stmt Unit
  | .enqueueGithubIssue data => enqueueGithubIssue host data >>= fun _ => pure ()
  | .enqueueLinearIssue data => enqueueLinearIssue host data >>= fun _ => pure ()
  | .unparkDependents workspaceId completed =>
    unparkDependents workspaceId completed >>= fun _ => pure ()
  | .confirmAlignmentBrief input => confirmAlignmentBrief input >>= fun _ => pure ()
  | .denyAlignmentBrief id => denyAlignmentBrief id >>= fun _ => pure ()
  | .reviseAlignmentBrief input => reviseAlignmentBrief input >>= fun _ => pure ()
  | .requeueParkedQueueEntry workspaceId id =>
    requeueParkedQueueEntry workspaceId id >>= fun _ => pure ()
  | .claimQueueEntry workspaceId => claimQueueEntry workspaceId >>= fun _ => pure ()
  | .reconcileStaleRuns workspaceId => reconcileStaleRuns workspaceId >>= fun _ => pure ()
  | .recordRunnerLiveness id workspaceId => recordRunnerLiveness id workspaceId >>= fun _ => pure ()
  | .recordRunnerResult data => recordRunnerResult data >>= fun _ => pure ()

/-- The clock goes on; approvals are recorded and answered; the server may restart and lose its
ledger. -/
def Env (s s' : Store) : Prop :=
  s.now ≤ s'.now ∧
    s' = { s with now := s'.now, approvals := s'.approvals, ledger := s'.ledger }

def queueSystem (host : Host) (allowed : Op → Prop) : System Store Stmt where
  exec := Stmt.exec host
  starts := fun p => ∃ op, allowed op ∧ p = opProgram host op
  env := Env

/-! ## The statements of an operation -/

/-- Statements that neither write the queue nor note an event. -/
def Stmt.isSilent {β : Type} : Stmt β → Bool
  | .reconcileRuns _ => true
  | .stampRun _ _ => true
  | .upsertRun _ => true
  | .insertAttempt _ => true
  | .updateRun _ _ => true
  | .greenAmong _ _ => true
  | .alignmentFlag _ => true
  | .approvedIssue _ _ => true
  | .parkedDependents _ _ => true
  | .findById _ => true
  | .findInWorkspace _ _ => true
  | .screen _ _ => true
  | _ => false

/-- What `workspaceRequiresAlignment` finds. -/
def Store.requiresAlignment (s : Store) (workspaceId : Text) : Bool :=
  ((s.workspaces.find? (·.id = workspaceId)).map Workspace.requireAlignment).getD true

/-- What the guardrails make of a hold, unless they refuse the issue. -/
inductive Screened (hold : Hold) : Hold → Prop
  | clean : Screened hold hold
  | parked (reason : Text) : Screened hold
      { hold with state := .parked, reason := some reason, parkReason := some reason,
                  v2Parked := true }

/-- Whether the alignment gate of an enqueue is closed, where `flag` says which workspaces require
alignment. -/
def gateClosed (flag : Text → Bool) (workspaceId : Text) (hold : Hold) : Bool :=
  !hold.v2Parked && flag workspaceId

/-- How `enqueueGithubIssue` fills its insert. -/
inductive GithubAdmission (host : Host) (flag : Text → Bool) (data : GithubIssue) :
    QueueEntry → Bool → Bool → Prop
  | intro {unmet hold} (matched : Option JaceApproval) : Screened (dependencyHold unmet) hold →
      GithubAdmission host flag data
        (githubRow host data
          (alignGithub (gateClosed flag data.workspaceId hold) matched hold).1
          (alignGithub (gateClosed flag data.workspaceId hold) matched hold).2.1)
        hold.v2Parked matched.isSome

/-- How `enqueueLinearIssue` fills its insert. -/
inductive LinearAdmission (host : Host) (flag : Text → Bool) (data : LinearIssue) :
    QueueEntry → Bool → Bool → Prop
  | intro {hold} : Screened { state := .queued } hold →
      LinearAdmission host flag data
        (linearRow host data
          (if gateClosed flag data.workspaceId hold then awaitAlignment hold else hold))
        hold.v2Parked false

/-- `unparkDependents` runs for a workspace on its own or at the end of a green result. -/
def wakesIn (workspaceId : Text) : Op → Prop
  | .unparkDependents w _ => w = workspaceId
  | .recordRunnerResult data => data.status = .green ∧ data.workspaceId = workspaceId
  | _ => False

/-- Which operation executes a statement, and with which arguments, where `flag` says which
workspaces require alignment. -/
def Issued (host : Host) (flag : Text → Bool) (op : Op) ⦃β : Type⦄ : Stmt β → Prop
  | .reconcileEntries w => op = .claimQueueEntry w ∨ op = .reconcileStaleRuns w
  | .stampEntry id w => op = .recordRunnerLiveness id w
  | .claimOldest w => op = .claimQueueEntry w
  | .recordRefusal data => op = .recordRunnerResult data ∧ data.status = .error ∧
      isHostedRefusal data.status data.gateReason
  | .recordRetry data => op = .recordRunnerResult data ∧
      (data.status = .red ∨ data.status = .error) ∧
      isHostedRefusal data.status data.gateReason = false
  | .recordState data next => op = .recordRunnerResult data ∧
      (data.status = .green ∧ next = .green ∨ data.status = .running ∧ next = .running)
  | .releaseParked w _ => wakesIn w op
  | .restampParked w _ => wakesIn w op
  | .confirm input => op = .confirmAlignmentBrief input
  | .deny id => op = .denyAlignmentBrief id
  | .revise input => op = .reviseAlignmentBrief input
  | .clearDelay id w => op = .requeueParkedQueueEntry w id
  | .holdForAlignment id w => op = .requeueParkedQueueEntry w id ∧ flag w
  | .requeue id w required => op = .requeueParkedQueueEntry w id ∧ required = flag w
  | .insertEntry row guardrail approval =>
      (∃ data, op = .enqueueGithubIssue data ∧
        GithubAdmission host flag data row guardrail approval) ∨
      ∃ data, op = .enqueueLinearIssue data ∧
        LinearAdmission host flag data row guardrail approval
  | _ => True

theorem issued_of_isSilent {host : Host} {flag : Text → Bool} {op : Op} ⦃β : Type⦄ (q : Stmt β)
    (h : q.isSilent) : Issued host flag op q := by
  cases q <;> first | exact trivial | cases h

section
variable {host : Host} {flag : Text → Bool} {I : Store → Prop}
  {G : ∀ ⦃β : Type⦄, Stmt β → Prop} {α : Type}

theorem guarded_unmetBlockers (hsilent : ∀ ⦃β : Type⦄ (q : Stmt β), q.isSilent → G q)
    (w repo : Text) (blockedBy : List Nat) (post : List Nat → Prop) (hpost : ∀ unmet, post unmet) :
    Guarded (Stmt.exec host) I G (unmetBlockers w repo blockedBy) post := by
  unfold unmetBlockers
  split
  · exact hpost _
  · exact ⟨hsilent _ rfl, fun s _ => hpost _⟩

theorem guarded_workspaceRequiresAlignment
    (hsilent : ∀ ⦃β : Type⦄ (q : Stmt β), q.isSilent → G q)
    (hflag : ∀ s, I s → ∀ w, s.requiresAlignment w = flag w) (w : Text) (post : Bool → Prop)
    (hpost : post (flag w)) :
    Guarded (Stmt.exec host) I G (workspaceRequiresAlignment w) post := by
  refine ⟨hsilent _ rfl, fun s hs => ?_⟩
  show post (s.requiresAlignment w)
  rw [hflag s hs]
  exact hpost

theorem guarded_unparkEach (hsilent : ∀ ⦃β : Type⦄ (q : Stmt β), q.isSilent → G q)
    (w repo : Text) (hrelease : ∀ e, G (.releaseParked w e)) (hrestamp : ∀ e, G (.restampParked w e))
    (required : Bool) (parked : List QueueEntry) :
    Guarded (Stmt.exec host) I G (unparkEach w repo required parked) fun _ => True := by
  induction parked with
  | nil => exact trivial
  | cons entry parked ih =>
    have hrest : ∀ released : List Text, Guarded (Stmt.exec host) I G
        (unparkEach w repo required parked >>= fun others => pure (released ++ others))
        fun _ => True := fun released => by
      rw [guarded_bind]
      exact guarded_mono _ _ _ (fun _ h => h) (fun _ _ h => h) (fun _ _ => trivial) ih
    unfold unparkEach
    rw [guarded_bind]
    unfold unparkEntry
    split
    · exact hrest []
    · rw [guarded_bind]
      refine guarded_unmetBlockers hsilent w repo _ _ fun unmet => ?_
      split
      · exact hrest []
      · split
        · exact ⟨hrelease _, fun s _ => hrest _⟩
        · exact ⟨hrestamp _, fun s _ => hrest []⟩

theorem guarded_unparkDependents (hsilent : ∀ ⦃β : Type⦄ (q : Stmt β), q.isSilent → G q)
    (w completed : Text) (hrelease : ∀ e, G (.releaseParked w e))
    (hrestamp : ∀ e, G (.restampParked w e)) :
    Guarded (Stmt.exec host) I G (unparkDependents w completed) fun _ => True := by
  unfold unparkDependents
  split
  · exact trivial
  · split
    · exact trivial
    · rw [guarded_stmt_bind]
      refine ⟨hsilent _ rfl, fun s _ => ?_⟩
      split
      · exact trivial
      · exact ⟨hsilent _ rfl, fun s _ => guarded_unparkEach hsilent w _ hrelease hrestamp _ _⟩

theorem guarded_guardrails (hsilent : ∀ ⦃β : Type⦄ (q : Stmt β), q.isSilent → G q)
    (source : Source) (body : Text) (hold : Hold) (post : Hold ⊕ Text → Prop)
    (hclear : ∀ hold', Screened hold hold' → post (.inl hold')) (hreject : ∀ r, post (.inr r)) :
    Guarded (Stmt.exec host) I G (guardrails host source body hold) post := by
  unfold guardrails
  split
  · rw [guarded_stmt_bind]
    refine ⟨hsilent _ rfl, fun s _ => ?_⟩
    split
    · exact hreject _
    · exact hclear _ (.parked _)
    · exact hclear _ .clean
  · exact hclear _ .clean

/-- The flag as the two enqueues read it. -/
theorem guarded_gate (hsilent : ∀ ⦃β : Type⦄ (q : Stmt β), q.isSilent → G q)
    (hflag : ∀ s, I s → ∀ w, s.requiresAlignment w = flag w) (w : Text) (hold : Hold)
    (post : Bool → Prop) (hpost : post (gateClosed flag w hold)) :
    Guarded (Stmt.exec host) I G (alignmentGate w hold) post := by
  unfold gateClosed at hpost
  unfold alignmentGate
  cases hv2 : hold.v2Parked with
  | true =>
    rw [hv2] at hpost
    exact hpost
  | false =>
    rw [hv2] at hpost
    exact guarded_workspaceRequiresAlignment hsilent hflag w post hpost

theorem guarded_settleResult (hsilent : ∀ ⦃β : Type⦄ (q : Stmt β), q.isSilent → G q)
    (data : RunnerResult) (row : QueueEntry) (transitioned : Bool)
    (hrelease : data.status = .green → ∀ e, G (.releaseParked data.workspaceId e))
    (hrestamp : data.status = .green → ∀ e, G (.restampParked data.workspaceId e)) :
    Guarded (Stmt.exec host) I G (settleResult data row transitioned) fun _ => True := by
  unfold settleResult
  rw [guarded_bind]
  unfold wakeDependents
  split
  · next hgreen =>
    refine guarded_mono _ _ _ (fun _ h => h) (fun _ _ h => h) (fun _ _ => ?_)
      (guarded_unparkDependents hsilent _ _ (hrelease hgreen.1) (hrestamp hgreen.1))
    exact ⟨hsilent _ rfl, fun _ _ => trivial⟩
  · exact ⟨hsilent _ rfl, fun _ _ => trivial⟩

variable (host flag)

theorem recordRunnerResult_issues (data : RunnerResult) :
    Guarded (Stmt.exec host) I (Issued host flag (.recordRunnerResult data))
      (recordRunnerResult data) fun _ => True := by
  have hsettle : ∀ row transitioned, Guarded (Stmt.exec host) I
      (Issued host flag (.recordRunnerResult data))
      (settleResult data row transitioned) fun _ => True := fun row transitioned =>
    guarded_settleResult issued_of_isSilent data row transitioned
      (fun h _ => ⟨h, rfl⟩) (fun h _ => ⟨h, rfl⟩)
  unfold recordRunnerResult
  split
  · next hstatus =>
    rw [guarded_bind]
    unfold recordFailure
    split
    · next hhosted =>
      have herror : data.status = .error := by
        unfold isHostedRefusal at hhosted
        simp only [Bool.and_eq_true, decide_eq_true_eq] at hhosted
        exact hhosted.1
      refine ⟨⟨rfl, herror, hhosted⟩, fun s _ => ?_⟩
      cases (Stmt.exec host (.recordRefusal data) s).1 with
      | none => exact trivial
      | some row => exact hsettle row true
    · next hhosted =>
      refine ⟨⟨rfl, hstatus, by simpa using hhosted⟩, fun s _ => ?_⟩
      cases (Stmt.exec host (.recordRetry data) s).1 with
      | none => exact trivial
      | some row => exact hsettle row true
  · next hstatus =>
    have hnext : Issued host flag (.recordRunnerResult data)
        (.recordState data (nextQueueTransition data.status 0 0 none 0 0).state) := by
      unfold nextQueueTransition
      cases hs : data.status with
      | green => exact ⟨rfl, Or.inl ⟨hs, rfl⟩⟩
      | running => exact ⟨rfl, Or.inr ⟨hs, rfl⟩⟩
      | red => exact absurd (Or.inl hs) hstatus
      | error => exact absurd (Or.inr hs) hstatus
    unfold recordProgress
    rw [guarded_stmt_bind]
    refine ⟨hnext, fun s _ => ?_⟩
    split
    · exact trivial
    · rw [guarded_bind]
      unfold logGreenAttempt
      split
      · exact ⟨trivial, fun s _ => hsettle _ _⟩
      · exact hsettle _ _

theorem requeueParkedQueueEntry_issues (hflag : ∀ s, I s → ∀ w, s.requiresAlignment w = flag w)
    (w id : Text) :
    Guarded (Stmt.exec host) I (Issued host flag (.requeueParkedQueueEntry w id))
      (requeueParkedQueueEntry w id) fun _ => True := by
  unfold requeueParkedQueueEntry
  rw [guarded_stmt_bind]
  refine ⟨trivial, fun s _ => ?_⟩
  split
  · exact trivial
  · split
    · split
      · exact trivial
      · exact ⟨rfl, fun _ _ => trivial⟩
    · split
      · exact trivial
      · split
        · exact trivial
        · rw [guarded_bind]
          refine guarded_workspaceRequiresAlignment issued_of_isSilent hflag w _ ?_
          split
          · next haligned =>
            have hw : flag w := by
              unfold isAligned at haligned
              simp only [Bool.not_or, Bool.and_eq_true, Bool.not_not] at haligned
              exact haligned.2
            exact ⟨⟨rfl, hw⟩, fun _ _ => trivial⟩
          · exact ⟨⟨rfl, rfl⟩, fun _ _ => trivial⟩

theorem enqueueGithubIssue_issues (hflag : ∀ s, I s → ∀ w, s.requiresAlignment w = flag w)
    (data : GithubIssue) :
    Guarded (Stmt.exec host) I (Issued host flag (.enqueueGithubIssue data))
      (enqueueGithubIssue host data) fun _ => True := by
  unfold enqueueGithubIssue
  split
  · exact trivial
  · rw [guarded_bind]
    refine guarded_unmetBlockers issued_of_isSilent _ _ _ _ fun unmet => ?_
    rw [guarded_bind]
    refine guarded_guardrails issued_of_isSilent _ _ _ _ (fun hold hscreened => ?_)
      fun _ => trivial
    show Guarded _ _ _ (admitGithub host data hold) _
    unfold admitGithub
    rw [guarded_stmt_bind]
    refine ⟨trivial, fun s _ => ?_⟩
    rw [guarded_bind]
    refine guarded_gate issued_of_isSilent hflag _ hold _ ?_
    exact ⟨Or.inl ⟨data, rfl, .intro _ hscreened⟩, fun _ _ => trivial⟩

theorem enqueueLinearIssue_issues (hflag : ∀ s, I s → ∀ w, s.requiresAlignment w = flag w)
    (data : LinearIssue) :
    Guarded (Stmt.exec host) I (Issued host flag (.enqueueLinearIssue data))
      (enqueueLinearIssue host data) fun _ => True := by
  unfold enqueueLinearIssue
  split
  · exact trivial
  · rw [guarded_bind]
    refine guarded_guardrails issued_of_isSilent _ _ _ _ (fun hold hscreened => ?_)
      fun _ => trivial
    unfold admitLinear
    rw [guarded_bind]
    refine guarded_gate issued_of_isSilent hflag _ hold _ ?_
    exact ⟨Or.inr ⟨data, rfl, .intro hscreened⟩, fun _ _ => trivial⟩

/-- **The statements of an operation.** -/
theorem opProgram_issues (hflag : ∀ s, I s → ∀ w, s.requiresAlignment w = flag w) (op : Op) :
    Guarded (Stmt.exec host) I (Issued host flag op) (opProgram host op)
      fun _ => True := by
  have hdrop : ∀ {α : Type} (p : Prog Stmt α),
      Guarded (Stmt.exec host) I (Issued host flag op) p (fun _ => True) →
      Guarded (Stmt.exec host) I (Issued host flag op) (p >>= fun _ => pure ())
        fun _ => True := fun p h => by
    rw [guarded_bind]
    exact h
  cases op with
  | enqueueGithubIssue data => exact hdrop _ (enqueueGithubIssue_issues host flag hflag data)
  | enqueueLinearIssue data => exact hdrop _ (enqueueLinearIssue_issues host flag hflag data)
  | unparkDependents w completed =>
    exact hdrop _ (guarded_unparkDependents issued_of_isSilent w completed
      (fun _ => rfl) fun _ => rfl)
  | confirmAlignmentBrief input => exact hdrop _ ⟨rfl, fun _ _ => trivial⟩
  | denyAlignmentBrief id => exact hdrop _ ⟨rfl, fun _ _ => trivial⟩
  | reviseAlignmentBrief input =>
    refine hdrop _ ?_
    unfold reviseAlignmentBrief
    rw [guarded_stmt_bind]
    refine ⟨trivial, fun s _ => ?_⟩
    split
    · exact trivial
    · split
      · exact trivial
      · exact ⟨rfl, fun _ _ => trivial⟩
  | requeueParkedQueueEntry w id =>
    exact hdrop _ (requeueParkedQueueEntry_issues host flag hflag w id)
  | claimQueueEntry w =>
    refine hdrop _ ?_
    unfold claimQueueEntry
    rw [guarded_bind]
    refine ⟨trivial, fun _ _ => ⟨Or.inl rfl, fun _ _ => ?_⟩⟩
    show Guarded _ _ _ (.stmt (Stmt.claimOldest w) >>= _) _
    rw [guarded_stmt_bind]
    refine ⟨rfl, fun s _ => ?_⟩
    split
    · exact trivial
    · exact ⟨trivial, fun _ _ => trivial⟩
  | reconcileStaleRuns w =>
    exact hdrop _ ⟨trivial, fun _ _ => ⟨Or.inr rfl, fun _ _ => trivial⟩⟩
  | recordRunnerLiveness id w =>
    exact hdrop _ ⟨trivial, fun _ _ => ⟨rfl, fun _ _ => trivial⟩⟩
  | recordRunnerResult data => exact hdrop _ (recordRunnerResult_issues host flag data)

end

/-! ## Invariants of runs -/

theorem env_queue {s s' : Store} (h : Env s s') : s'.queue = s.queue := by
  rw [h.2]

theorem env_history {s s' : Store} (h : Env s s') : s'.history = s.history := by
  rw [h.2]

theorem env_workspaces {s s' : Store} (h : Env s s') : s'.workspaces = s.workspaces := by
  rw [h.2]

/-- **Invariants of runs.** From any configuration `c` that a run reaches: what the statements of
the allowed operations keep holds from there on.  The alignment flags are those of the start. -/
theorem queue_invariant {host : Host} {allowed : Op → Prop}
    {C : ∀ ⦃β : Type⦄, List (Prog Stmt Unit) → Store → Stmt β → Prop} (J : Store → Prop)
    {s₀ : Store} {c c' : Config Store Stmt}
    (h₀ : (queueSystem host allowed).Reaches C ⟨s₀, []⟩ c) (hJ : J c.store)
    (hcall : ∀ {β : Type} (q : Stmt β) others s op, allowed op →
      Issued host s₀.requiresAlignment op q → C others s q → J s → J (q.exec host s).2)
    (henv : ∀ s s', Env s s' → J s → J s')
    (h : (queueSystem host allowed).Reaches C c c') : J c'.store := by
  let I : Store → Prop := fun s => s.workspaces = s₀.workspaces
  let G : ∀ ⦃β : Type⦄, Stmt β → Prop := fun _ q =>
    ∃ op, allowed op ∧ Issued host s₀.requiresAlignment op q
  have hflag : ∀ s, I s → ∀ w, s.requiresAlignment w = s₀.requiresAlignment w := by
    intro s hs w
    unfold Store.requiresAlignment
    rw [show s.workspaces = s₀.workspaces from hs]
  have hstart : ∀ p, (queueSystem host allowed).starts p →
      Guarded (Stmt.exec host) I G p fun _ => True := by
    rintro p ⟨op, hop, rfl⟩
    exact guarded_mono _ _ _ (fun _ h => h) (fun _ q hq => ⟨op, hop, hq⟩) (fun _ h => h)
      (opProgram_issues host _ hflag op)
  have hI : ∀ {β : Type} (q : Stmt β) s, I s → I (q.exec host s).2 := fun q s hs =>
    (exec_workspaces host q s).trans hs
  -- the programs in progress at `c` are guarded, so they stay so beside `J`
  have hc : (queueSystem host allowed).Keeps I G c :=
    (queueSystem host allowed).reaches_keeps hstart (fun _ q _ s hs _ _ => hI q s hs)
      (fun s s' hs he => (env_workspaces he).trans hs) h₀ ⟨rfl, by simp⟩
  have hc' : (queueSystem host allowed).Keeps (fun s => I s ∧ J s) G c :=
    ⟨⟨hc.1, hJ⟩, fun p hp =>
      guarded_mono _ _ _ (fun _ h => h.1) (fun _ _ h => h) (fun _ h => h) (hc.2 p hp)⟩
  suffices hkeeps : (queueSystem host allowed).Keeps (fun s => I s ∧ J s) G c' from hkeeps.1.2
  refine (queueSystem host allowed).reaches_keeps ?_ ?_ ?_ h hc'
  · intro p hp
    exact guarded_mono _ _ _ (fun _ h => h.1) (fun _ _ h => h) (fun _ h => h) (hstart p hp)
  · rintro β q others s ⟨hs, hj⟩ ⟨op, hop, hq⟩ hC
    exact ⟨hI q s hs, hcall q others s op hop hq hC hj⟩
  · rintro s s' ⟨hs, hj⟩ he
    exact ⟨(env_workspaces he).trans hs, henv s s' he hj⟩

/-! ## Runs of one operation after the other -/

/-- The operation on its own, with enough steps to end. -/
def solo (host : Host) (op : Op) (steps : Nat) : List (System.Choice Store Stmt) :=
  .start (opProgram host op) :: List.replicate steps (.step 0)

/-- Time that passes. -/
def wait (time : Nat) : System.Choice Store Stmt := .env fun s => { s with now := s.now + time }

theorem solo_valid {host : Host} {allowed : Op → Prop} (op : Op) (steps : Nat) (h : allowed op) :
    ∀ choice ∈ solo host op steps, choice.Valid (queueSystem host allowed) := by
  refine List.forall_mem_cons.mpr ⟨⟨op, h, rfl⟩, fun choice hc => ?_⟩
  rw [List.eq_of_mem_replicate hc]
  exact trivial

theorem wait_valid {host : Host} {allowed : Op → Prop} (time : Nat) :
    (wait time).Valid (queueSystem host allowed) :=
  fun _ => ⟨Int.le_add_of_nonneg_right (Int.natCast_nonneg time), rfl⟩

/-- A workspace that requires alignment, with these entries. -/
def storeOf (entries : List QueueEntry) (h : (entries.map QueueEntry.id).Nodup) : Store where
  queue := ⟨entries, h⟩
  runs := []
  attempts := []
  workspaces := [{ id := "w".toList }]
  approvals := []
  ledger := {}
  now := 0
  history := []

def plainHost : Host := ⟨none, none, id, id, id⟩

end Agentrail.Queue
