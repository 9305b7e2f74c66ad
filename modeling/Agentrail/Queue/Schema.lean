import Agentrail.Queue.IntakeGate
import Mathlib.Data.List.Nodup

/-!
# The tables of the issue queue

The columns the queue's functions read or write, with the defaults of
`queue_entries.ts`, `runs.ts` and `queue_attempts.ts`.  The primary key of
`queue_entries` is part of its type (`QueueTable`).  Times count microseconds.

`Store.history` is no table: it keeps the events the results speak about
(admissions, human decisions, claims and their results), latest first.  No
function reads it.
-/

namespace Agentrail.Queue

open Js IntakeGate

/-! ## Rows -/

inductive QueueState where
  | queued
  | parked
  | running
  | green
  | escalatedToHuman
  | blocked
  deriving DecidableEq, Repr

def QueueState.isTerminal (state : QueueState) : Bool :=
  state = .green || state = .escalatedToHuman || state = .blocked

structure QueueEntry where
  id : Text
  workspaceId : Text
  source : Source
  kind : Text := "issue".toList
  externalId : Text
  title : Text
  body : Text := []
  tier : Nat := 0
  remainingBudget : Nat := 5
  state : QueueState := .queued
  blockedBy : List Nat := []
  parkReason : Option Text := none
  estimatedBudgetUsd : Option ℚ := none
  modelOverride : Option Text := none
  taskType : Option Text := none
  lastLivenessAt : Option Int := none
  nextEligibleAt : Option Int := none
  createdAt : Int := 0
  updatedAt : Int := 0
  deriving DecidableEq, Repr

inductive RunStatus where
  | queued
  | running
  | success
  | failed
  deriving DecidableEq, Repr

structure Run where
  id : Text
  workspaceId : Text
  title : Option Text
  status : RunStatus := .queued
  startedAt : Option Int := none
  finishedAt : Option Int := none
  queueEntryId : Option Text := none
  lastLivenessAt : Option Int := none
  updatedAt : Option Int := none
  deriving DecidableEq, Repr

inductive RunnerStatus where
  | green
  | red
  | error
  | running
  deriving DecidableEq, Repr

structure QueueAttempt where
  queueEntryId : Text
  workspaceId : Text
  tier : Nat
  outcome : RunnerStatus
  deriving DecidableEq, Repr

structure Workspace where
  id : Text
  requireAlignment : Bool := true
  deriving DecidableEq, Repr

inductive ApprovalStatus where
  | pending
  | approved
  | denied
  | expired
  deriving DecidableEq, Repr

structure JaceApproval where
  workspaceId : Option Text
  toolName : Text
  toolInput : Json
  status : ApprovalStatus := .pending
  publishedIssueUrl : Option Text := none

/-! ## The queue table -/

structure QueueTable where
  rows : List QueueEntry
  primaryKey : (rows.map QueueEntry.id).Nodup

namespace QueueTable

/-- `UPDATE … SET f WHERE p`; the key is no column that an update sets. -/
def update (t : QueueTable) (p : QueueEntry → Bool) (f : QueueEntry → QueueEntry) : QueueTable where
  rows := t.rows.map fun r => if p r then { f r with id := r.id } else r
  primaryKey := by
    have hid : (t.rows.map fun r => if p r then { f r with id := r.id } else r).map
        QueueEntry.id = t.rows.map QueueEntry.id := by
      rw [List.map_map]
      refine List.map_congr_left fun r _ => ?_
      show (if p r then { f r with id := r.id } else r).id = r.id
      split <;> rfl
    rw [hid]
    exact t.primaryKey

/-- `INSERT … ON CONFLICT (id) DO NOTHING`: `none` on a conflict. -/
def insert (t : QueueTable) (row : QueueEntry) : Option QueueTable :=
  if h : row.id ∈ t.rows.map QueueEntry.id then none
  else some ⟨t.rows ++ [row], by
    rw [List.map_append, List.nodup_append]
    refine ⟨t.primaryKey, List.nodup_singleton _, ?_⟩
    rintro a ha b hb rfl
    rw [List.map_singleton, List.mem_singleton] at hb
    exact h (hb ▸ ha)⟩

theorem mem_update (t : QueueTable) (p : QueueEntry → Bool) (f : QueueEntry → QueueEntry)
    (r : QueueEntry) : r ∈ (t.update p f).rows ↔
      ∃ r₀ ∈ t.rows, (if p r₀ then { f r₀ with id := r₀.id } else r₀) = r :=
  List.mem_map

theorem mem_insert (t t' : QueueTable) (row r : QueueEntry) (h : t.insert row = some t') :
    r ∈ t'.rows ↔ r ∈ t.rows ∨ r = row := by
  unfold insert at h
  split at h
  · cases h
  · cases h
    rw [List.mem_append, List.mem_singleton]

/-- One row for each key. -/
theorem eq_of_id (t : QueueTable) (r r' : QueueEntry) (h : r ∈ t.rows) (h' : r' ∈ t.rows)
    (hid : r.id = r'.id) : r = r' :=
  List.inj_on_of_nodup_map t.primaryKey h h' hid

end QueueTable

/-! ## The store -/

inductive Event where
  /-- inserted by an enqueue, with whether a guardrail parked it and whether the enqueue found an
  approved `create_issue` approval for it -/
  | admitted (id : Text) (guardrail approval : Bool)
  | denied (id : Text)
  | revised (id : Text)
  | requeued (id : Text)
  | claimed (id : Text) (at_ : Int)
  /-- a result from the runner that holds the `claim`-th claim of the entry -/
  | result (id : Text) (claim : Nat)
  deriving DecidableEq, Repr

structure Store where
  queue : QueueTable
  runs : List Run
  attempts : List QueueAttempt
  workspaces : List Workspace
  approvals : List JaceApproval
  /-- `processLedger` of the server process -/
  ledger : AdmissionLedger
  now : Int
  history : List Event

namespace Store

def updateQueue (s : Store) (p : QueueEntry → Bool) (f : QueueEntry → QueueEntry) : Store :=
  { s with queue := s.queue.update p f }

/-- The rows that a condition selects. -/
def selectQueue (s : Store) (p : QueueEntry → Bool) : List QueueEntry := s.queue.rows.filter p

def note (s : Store) (e : Event) : Store := { s with history := e :: s.history }

/-- Notes the event if the condition selects a row. -/
def noteIf (s : Store) (hit : Bool) (e : Event) : Store := if hit then s.note e else s

/-- Whether a row with this external id is green. -/
def isGreen (s : Store) (workspaceId externalId : Text) : Bool :=
  s.queue.rows.any fun g =>
    g.workspaceId = workspaceId && g.externalId = externalId && g.state = .green

variable (s : Store) (p : QueueEntry → Bool) (f : QueueEntry → QueueEntry) (e : Event) (hit : Bool)

@[simp] theorem updateQueue_queue : (s.updateQueue p f).queue = s.queue.update p f := rfl

@[simp] theorem updateQueue_workspaces : (s.updateQueue p f).workspaces = s.workspaces := rfl

@[simp] theorem updateQueue_now : (s.updateQueue p f).now = s.now := rfl

@[simp] theorem updateQueue_history : (s.updateQueue p f).history = s.history := rfl

@[simp] theorem note_queue : (s.note e).queue = s.queue := rfl

@[simp] theorem note_workspaces : (s.note e).workspaces = s.workspaces := rfl

@[simp] theorem note_now : (s.note e).now = s.now := rfl

@[simp] theorem note_history : (s.note e).history = e :: s.history := rfl

@[simp] theorem noteIf_queue : (s.noteIf hit e).queue = s.queue := by
  unfold noteIf
  split <;> rfl

@[simp] theorem noteIf_workspaces : (s.noteIf hit e).workspaces = s.workspaces := by
  unfold noteIf
  split <;> rfl

@[simp] theorem noteIf_now : (s.noteIf hit e).now = s.now := by
  unfold noteIf
  split <;> rfl

@[simp] theorem noteIf_history :
    (s.noteIf hit e).history = if hit then e :: s.history else s.history := by
  unfold noteIf
  split <;> rfl

/-- A condition that selects a row has its event noted. -/
theorem noteIf_of_mem (s' : Store) (r : QueueEntry) (hr : r ∈ s.queue.rows) (hp : p r) :
    (s'.noteIf (!(s.selectQueue p).isEmpty) e).history = e :: s'.history := by
  have hmem : r ∈ s.selectQueue p := List.mem_filter.mpr ⟨hr, hp⟩
  have hhit : (!(s.selectQueue p).isEmpty) = true := by
    rw [Bool.not_eq_true', List.isEmpty_eq_false_iff]
    exact List.ne_nil_of_mem hmem
  rw [noteIf_history, hhit, if_pos rfl]

end Store

end Agentrail.Queue
