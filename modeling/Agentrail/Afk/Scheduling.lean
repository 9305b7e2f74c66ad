import Agentrail.Afk.State
import Agentrail.Lib.Runs

/-!
# Which issue is worked next (`afk/state.py`)

The selectors of a state and the atomic claim of the store, on top of the reducer.
`Effect` says once what an accepted action does to the state (`reduce_effect`);
what whole runs keep is derived from it.
-/

namespace Agentrail.Afk

open Py

/-! ## Selectors -/

namespace AfkState

/-- The lowest number first. -/
def lowest (candidates : List IssueState) : Option IssueState :=
  (candidates.mergeSort fun i j => i.number ≤ j.number).head?

def values (state : AfkState) : List IssueState := state.issues.items.map Prod.snd

def nextQueued (state : AfkState) : Option IssueState :=
  lowest (state.values.filter fun i => i.status = .queued)

/-- `set(i.blocked_by) & open_blockers`. -/
def isWithheld (openBlockers : List Int) (i : IssueState) : Bool :=
  i.blockedBy.any fun b => openBlockers.contains b

def nextClaimable (state : AfkState) (openBlockers : List Int) : Option IssueState :=
  lowest (state.values.filter fun i => i.status = .queued && !isWithheld openBlockers i)

def freeSlot (state : AfkState) : Option Int :=
  ((List.range state.concurrency.toNat).map Int.ofNat).find? fun idx =>
    (state.slots.get idx).join.isNone

theorem mem_values (state : AfkState) (i : IssueState) (h : i ∈ state.values) :
    ∃ number, state.issues.get number = some i := by
  obtain ⟨item, hitem, rfl⟩ := List.mem_map.mp h
  exact ⟨item.1, (state.issues.mem_items_iff item.1 item.2).mp hitem⟩

theorem lowest_mem (candidates : List IssueState) (i : IssueState)
    (h : lowest candidates = some i) : i ∈ candidates := by
  have hhead := List.mem_of_mem_head? h
  exact (List.mergeSort_perm candidates _).mem_iff.mp hhead

/-- A claimable issue is queued. -/
theorem nextClaimable_queued (state : AfkState) (openBlockers : List Int) (i : IssueState)
    (h : state.nextClaimable openBlockers = some i) :
    (∃ number, state.issues.get number = some i) ∧ i.status = .queued := by
  have hmem := lowest_mem _ i h
  rw [List.mem_filter, Bool.and_eq_true, decide_eq_true_eq] at hmem
  exact ⟨state.mem_values i hmem.1, hmem.2.1⟩

end AfkState

/-! ## Runs of accepted actions -/

/-- The state in which a store starts. -/
def initial (concurrency maxRetries : Int) : AfkState where
  issues := .empty
  slots := .ofItems ((List.range concurrency.toNat).map fun idx => (Int.ofNat idx, none))
  concurrency := concurrency
  maxRetries := maxRetries

/-- The state after an action, if the reducer accepts it. -/
def accept (state : AfkState) (action : Action) : Option AfkState :=
  (reduce state action).toOption

theorem accept_eq_some (s t : AfkState) (a : Action) :
    accept s a = some t ↔ reduce s a = .ok t := by
  unfold accept
  cases reduce s a with
  | error e => exact ⟨nofun, nofun⟩
  | ok u =>
    show some u = some t ↔ Except.ok u = Except.ok t
    constructor
    · intro h
      rw [Option.some.inj h]
    · intro h
      rw [Except.ok.inj h]

/-- `Store.claim_next`. -/
def claimNext (state : AfkState) (openBlockers : List Int) :
    Except ReduceError (Option IssueState × AfkState) :=
  match state.nextClaimable openBlockers, state.freeSlot with
  | some nxt, some slot => do
    let state ← reduce state (.claimIssue nxt.number slot)
    .ok (state.issues.get nxt.number, state)
  | _, _ => .ok (none, state)

/-! ## What an accepted action does -/

/-- The issue after a failure. -/
def failedIssue (maxRetries : Int) (error : Option Text) (i : IssueState) : IssueState :=
  { i with
    retries := i.retries + 1
    status := if maxRetries ≤ i.retries + 1 then .humanReview else .queued
    slot := none
    error := error }

/-- The issue after a change of its status. -/
def statusIssue (status : IssueStatus) (i : IssueState) : IssueState :=
  { i with status := status, slot := if status.isTerminal then none else i.slot }

def requeuedIssue (i : IssueState) : IssueState :=
  { i with status := .queued, slot := none, retries := 0, reviewRounds := 0, error := none }

/-- The actions that change neither status nor slot of an issue. -/
def Action.isEdit : Action → Bool
  | .setBlockedBy _ _ | .setPr _ _ | .recordCost _ _ | .incrementReviewRound _ => true
  | _ => false

/-- The action turns one state into another. -/
inductive Effect (s : AfkState) : Action → AfkState → Prop
  | known {number title url blockedBy} : Effect s (.enqueueIssue number title url blockedBy) s
  | same {number blockedBy} : Effect s (.setBlockedBy number blockedBy) s
  | enqueues {number title url blockedBy} : s.issues.get number = none →
      Effect s (.enqueueIssue number title url blockedBy)
        { s with issues := s.issues.set number { number, title, url, blockedBy } }
  | edits {a : Action} {number i i'} : a.isEdit → s.issues.get number = some i →
      i'.status = i.status → i'.slot = i.slot →
      Effect s a { s with issues := s.issues.set number i' }
  | claims {number slot i} : s.issues.get number = some i → i.status = .queued →
      (s.slots.get slot).join = none → Effect s (.claimIssue number slot)
        { s with slots := s.slots.set slot (some number)
                 issues := s.issues.set number { i with status := .claimed, slot := some slot } }
  | releases {number i} : s.issues.get number = some i → Effect s (.releaseIssue number)
      { s with slots := freed s.slots i
               issues := s.issues.set number { i with status := .queued, slot := none } }
  | sets {number status i} : s.issues.get number = some i → Effect s (.setStatus number status)
      { s with slots := if status.isTerminal then freed s.slots i else s.slots
               issues := s.issues.set number (statusIssue status i)
               completed := if status = .merged then s.completed + 1 else s.completed }
  | fails {number error i} : s.issues.get number = some i → Effect s (.recordFailure number error)
      { s with slots := freed s.slots i
               issues := s.issues.set number (failedIssue s.maxRetries error i)
               failed := if s.maxRetries ≤ i.retries + 1 then s.failed + 1 else s.failed }
  | frees {slot} : Effect s (.freeSlot slot) { s with slots := s.slots.set slot none }
  | requeues {number i} : s.issues.get number = some i → Effect s (.requeueIssue number)
      { s with slots := freed s.slots i
               issues := s.issues.set number (requeuedIssue i)
               completed := if i.status = .merged then max 0 (s.completed - 1) else s.completed
               failed := if i.status = .humanReview then max 0 (s.failed - 1) else s.failed }

theorem require_eq_ok (s : AfkState) (number : Int) (i : IssueState)
    (h : require s number = .ok i) : s.issues.get number = some i := by
  unfold require at h
  cases hget : s.issues.get number with
  | none =>
    rw [hget] at h
    cases h
  | some j =>
    rw [hget] at h
    cases h
    rfl

/-- **The effect of an accepted action.** -/
theorem reduce_effect (s t : AfkState) (a : Action) (h : reduce s a = .ok t) : Effect s a t := by
  cases a with
  | enqueueIssue number title url blockedBy =>
    simp only [reduce] at h
    split at h
    · cases h
      exact .known
    · next hnone =>
      cases h
      exact .enqueues hnone
  | setBlockedBy number blockedBy =>
    simp only [reduce] at h
    split at h
    · cases h
      exact .same
    · next i hi =>
      split at h <;> cases h
      · exact .same
      · exact .edits rfl hi rfl rfl
  | claimIssue number slot =>
    simp only [reduce, except_bind_eq_ok] at h
    obtain ⟨i, hi, h⟩ := h
    split at h
    · cases h
    · next hqueued =>
      split at h
      · cases h
      · next hslot =>
        cases h
        rw [Option.not_isSome_iff_eq_none] at hslot
        exact .claims (require_eq_ok s number i hi) (not_not.mp hqueued) hslot
  | freeSlot slot =>
    cases h
    exact .frees
  | releaseIssue number =>
    simp only [reduce, except_bind_eq_ok] at h
    obtain ⟨i, hi, h⟩ := h
    cases h
    exact .releases (require_eq_ok s number i hi)
  | setStatus number status =>
    simp only [reduce, except_bind_eq_ok] at h
    obtain ⟨i, hi, h⟩ := h
    cases h
    exact .sets (require_eq_ok s number i hi)
  | recordFailure number error =>
    simp only [reduce, except_bind_eq_ok] at h
    obtain ⟨i, hi, h⟩ := h
    cases h
    exact .fails (require_eq_ok s number i hi)
  | requeueIssue number =>
    simp only [reduce, except_bind_eq_ok] at h
    obtain ⟨i, hi, h⟩ := h
    cases h
    exact .requeues (require_eq_ok s number i hi)
  | setPr number pr =>
    simp only [reduce, except_bind_eq_ok] at h
    obtain ⟨i, hi, h⟩ := h
    cases h
    exact .edits rfl (require_eq_ok s number i hi) rfl rfl
  | recordCost number costUsd =>
    simp only [reduce, except_bind_eq_ok] at h
    obtain ⟨i, hi, h⟩ := h
    cases h
    exact .edits rfl (require_eq_ok s number i hi) rfl rfl
  | incrementReviewRound number =>
    simp only [reduce, except_bind_eq_ok] at h
    obtain ⟨i, hi, h⟩ := h
    cases h
    exact .edits rfl (require_eq_ok s number i hi) rfl rfl

theorem accept_effect (s t : AfkState) (a : Action) (h : accept s a = some t) : Effect s a t :=
  reduce_effect s t a ((accept_eq_some s t a).mp h)

end Agentrail.Afk
