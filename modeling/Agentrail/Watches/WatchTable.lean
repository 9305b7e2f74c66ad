import Agentrail.Js.Basic
import Agentrail.Lib.Table

/-!
# Dependency watches (`dependency_watches.ts`, `dependency_runtime.py`)

A watch is a row with a cadence, a status and the outcome of its last check; the
observations of a repository are a ledger that is unique by key.  Each statement
that the two files send is one definition over the rows: the triggers, the two
claims (`claimDueDependencyWatches`, the heartbeat's `claimWatches`) and the
recordings.  Times count microseconds.

Equal sort keys are read in the order of the table.
-/

namespace Agentrail.DependencyWatch

open Js

/-! ## Rows -/

inductive Trigger where
  | manual
  | scheduled
  | push
  deriving DecidableEq, Repr

inductive Status where
  | idle
  | checking
  | candidates
  | unchanged
  | failed
  deriving DecidableEq, Repr

inductive ErrorCode where
  | unsupported
  | insufficientEvidence
  | registryUnavailable
  | invalidSnapshot
  | authorization
  deriving DecidableEq, Repr

/-- What an observation says of the watch, and the time of the next check. -/
structure Cursor where
  lastCheckedSha : Option Text := none
  selectedFileHashes : List (Text × Text) := []
  candidateFingerprint : Option Text := none
  status : Status := .idle
  errorCode : Option ErrorCode := none
  errorMessage : Option Text := none
  nextCheckAt : Option Int := none
  deriving DecidableEq, Repr

structure Watch extends Cursor where
  id : Text
  workspaceId : Text
  repositoryId : Text
  manifestPath : Text := "auto".toList
  lockfilePath : Text := "auto".toList
  selectedDependencies : List Text := []
  cadenceSeconds : Option Nat := none
  lastTrigger : Option Trigger := none
  lastTriggeredAt : Option Int := none
  lastCheckedAt : Option Int := none
  updatedAt : Int := 0
  deriving DecidableEq, Repr

structure Observation where
  workspaceId : Text
  watchId : Text
  repositoryId : Text
  trigger : Trigger
  baselineSha : Option Text
  selectedFileHashes : List (Text × Text)
  observationKey : Text
  candidateFingerprint : Option Text
  sourceInventoryReceipt : Option Json
  sourceInventoryReceiptSha256 : Option Text
  status : Status
  candidates : List Json
  errorCode : Option ErrorCode
  errorMessage : Option Text
  observedAt : Int

/-- The columns of the unique index. -/
def Observation.key (o : Observation) : Text × Text × Text :=
  (o.workspaceId, o.repositoryId, o.observationKey)

structure Repository where
  id : Text
  workspaceId : Text
  name : Text
  deriving DecidableEq, Repr

structure Db where
  watches : Table Watch [fun w => w.id]
  observations : Table Observation [Observation.key]
  repositories : List Repository

/-- An update that leaves the key alone. -/
theorem keeps_id {f : Watch → Watch} (h : ∀ w, (f w).id = w.id) :
    Table.Keeps [fun w : Watch => w.id] f := by
  intro key hkey w
  rw [List.mem_singleton] at hkey
  rw [hkey]
  exact h w

/-- `UPDATE dependency_watches SET f WHERE p`. -/
def Db.updateWatches (db : Db) (p : Watch → Bool) (f : Watch → Watch) (hf : ∀ w, (f w).id = w.id) :
    Db :=
  { db with watches := db.watches.update p f (keeps_id hf) }

/-- `workspace_id = … AND id = …`. -/
def isWatch (workspaceId watchId : Text) (w : Watch) : Bool :=
  w.workspaceId = workspaceId && w.id = watchId

def seconds (n : Nat) : Int := 1000000 * n

/-! ## Triggers -/

inductive WatchError where
  | authorization
  | validation (message : Text)
  deriving DecidableEq, Repr

def getDependencyWatch (db : Db) (workspaceId watchId : Text) : Option Watch :=
  (db.watches.select (isWatch workspaceId watchId)).head?

def Watch.triggered (trigger : Trigger) (now : Int) (w : Watch) : Watch :=
  { w with lastTrigger := some trigger, lastTriggeredAt := some now, status := .checking,
           updatedAt := now }

/-- The update of `triggerDependencyWatch`, and that of `triggerDependencyWatchesForPush` for each
watch it has matched. -/
def setTriggered (db : Db) (workspaceId watchId : Text) (trigger : Trigger) (now : Int) : Db :=
  db.updateWatches (isWatch workspaceId watchId) (Watch.triggered trigger now) fun _ => rfl

def triggerDependencyWatch (db : Db) (workspaceId watchId : Text) (trigger : Trigger) (now : Int) :
    Except WatchError Db :=
  match getDependencyWatch db workspaceId watchId with
  | none => .error .authorization
  | some _ => .ok (setTriggered db workspaceId watchId trigger now)

/-! ## Claims -/

/-- The cadence is due: what both claims ask for. -/
def Watch.isDue (now : Int) (w : Watch) : Bool :=
  w.cadenceSeconds.isSome && w.nextCheckAt.any (· ≤ now) && w.status ≠ .checking

/-- The next check from the cadence. -/
def Watch.nextFrom (now : Int) (w : Watch) : Option Int :=
  w.cadenceSeconds.map fun cadence => now + seconds cadence

/-- The `SET` list of `claimDueDependencyWatches`. -/
def Watch.claimedDue (now : Int) (w : Watch) : Watch :=
  { w with status := .checking, lastTrigger := some .scheduled, lastTriggeredAt := some now,
           nextCheckAt := w.nextFrom now, updatedAt := now }

def safeLimit (limit : Int) : Nat := (max 1 (min 100 limit)).toNat

/-- The rows that `claimDueDependencyWatches` locks. -/
def dueIds (db : Db) (workspaceId : Text) (now : Int) (limit : Int) : List Text :=
  (((db.watches.select fun w => w.workspaceId = workspaceId && w.isDue now).mergeSort
    fun v w => v.nextCheckAt.getD 0 ≤ w.nextCheckAt.getD 0).take (safeLimit limit)).map (·.id)

def claimDueDependencyWatches (db : Db) (workspaceId : Text) (now : Int) (limit : Int) :
    List Text × Db :=
  let ids := dueIds db workspaceId now limit
  (ids, db.updateWatches (fun w => ids.contains w.id) (Watch.claimedDue now) fun _ => rfl)

def Watch.isTriggered (w : Watch) : Bool :=
  w.status = .checking && (w.lastTrigger = some .manual || w.lastTrigger = some .push)

/-- The `SET` list of `CLAIM_WATCHES_OP`. -/
def Watch.claimed (now : Int) (w : Watch) : Watch :=
  { w with
    status := .checking
    lastTrigger := if w.lastTrigger = some .manual ∨ w.lastTrigger = some .push then w.lastTrigger
      else some .scheduled
    lastTriggeredAt := some now
    nextCheckAt := w.nextFrom now
    updatedAt := now }

/-- `ORDER BY next_check_at NULLS FIRST, updated_at`. -/
def Watch.checkedBefore (v w : Watch) : Bool :=
  match v.nextCheckAt, w.nextCheckAt with
  | none, none => v.updatedAt ≤ w.updatedAt
  | none, some _ => true
  | some _, none => false
  | some s, some t => s < t || s = t && v.updatedAt ≤ w.updatedAt

/-- The rows that `CLAIM_WATCHES_OP` locks. -/
def claimableIds (db : Db) (workspaceId : Text) (now : Int) (limit : Nat) : List Text :=
  (((db.watches.select fun w => w.workspaceId = workspaceId && (w.isTriggered || w.isDue now)).mergeSort
    Watch.checkedBefore).take limit).map (·.id)

/-- `CLAIM_WATCHES_OP`. -/
def claimWatches (db : Db) (workspaceId : Text) (now : Int) (limit : Nat) : List Text × Db :=
  let ids := claimableIds db workspaceId now limit
  (ids, db.updateWatches (fun w => ids.contains w.id) (Watch.claimed now) fun _ => rfl)

/-! ## Recordings -/

structure RecordInput where
  workspaceId : Text
  watchId : Text
  repositoryId : Text
  trigger : Trigger
  baselineSha : Option Text := none
  selectedFileHashes : List (Text × Text)
  observationKey : Text
  candidateFingerprint : Option Text := none
  sourceInventoryReceipt : Option Json := none
  sourceInventoryReceiptSha256 : Option Text := none
  status : Status
  candidates : List Json := []
  errorCode : Option ErrorCode := none
  errorMessage : Option Text := none
  observedAt : Option Int := none
  nextCheckAt : Option Int := none

/-- The two checks of a receipt: `validateGoDependencySourceInventoryReceipt`, and the message with
which `validateSourceReceiptObservationBindings` refuses. -/
structure ReceiptChecks where
  validReceipt : Json → Text → Option Json
  bindingRefusal : RecordInput → (manifestPath lockfilePath repositoryName : Text) → Json →
    Option Text

/-- What `recordDependencyWatchObservation` checks before it writes; the validated receipt. -/
def admitObservation (checks : ReceiptChecks) (db : Db) (input : RecordInput) :
    Except WatchError (Option Json) :=
  match getDependencyWatch db input.workspaceId input.watchId with
  | none => .error .authorization
  | some watch =>
    if watch.repositoryId ≠ input.repositoryId then .error .authorization
    else match input.sourceInventoryReceipt, input.sourceInventoryReceiptSha256 with
    | none, none => .ok none
    | some receipt, some sha256 =>
      match checks.validReceipt receipt sha256 with
      | none => .error (.validation
          "source inventory receipt is not canonical or recomputable".toList)
      | some validated =>
        if (":source:".toList ++ sha256).isSuffixOf input.observationKey then
          match db.repositories.find? fun r =>
              r.id = input.repositoryId && r.workspaceId = input.workspaceId with
          | none => .error .authorization
          | some repository =>
            match checks.bindingRefusal input watch.manifestPath watch.lockfilePath repository.name
                validated with
            | some message => .error (.validation message)
            | none => .ok (some validated)
        else .error (.validation
          "source inventory receipt identity is not bound to the observation key".toList)
    | _, _ => .error (.validation
        "source inventory receipt and identity must be both absent or both present".toList)

def RecordInput.observation (input : RecordInput) (receipt : Option Json) (observedAt : Int) :
    Observation :=
  { workspaceId := input.workspaceId
    watchId := input.watchId
    repositoryId := input.repositoryId
    trigger := input.trigger
    baselineSha := input.baselineSha
    selectedFileHashes := input.selectedFileHashes
    observationKey := input.observationKey
    candidateFingerprint := input.candidateFingerprint
    sourceInventoryReceipt := receipt
    sourceInventoryReceiptSha256 := input.sourceInventoryReceiptSha256
    status := input.status
    candidates := input.candidates
    errorCode := input.errorCode
    errorMessage := input.errorMessage
    observedAt := observedAt }

/-- What the update of a recording writes, less its two time stamps. -/
def RecordInput.cursor (input : RecordInput) : Cursor where
  lastCheckedSha := input.baselineSha
  selectedFileHashes := input.selectedFileHashes
  candidateFingerprint := if input.status = .candidates then input.candidateFingerprint else none
  status := input.status
  errorCode := input.errorCode
  errorMessage := input.errorMessage
  nextCheckAt := input.nextCheckAt

/-- The `SET` list of `recordDependencyWatchObservation`. -/
def Watch.recorded (cursor : Cursor) (observedAt : Int) (w : Watch) : Watch :=
  { w with toCursor := cursor, lastCheckedAt := some observedAt, updatedAt := observedAt }

/-- `INSERT … ON CONFLICT DO NOTHING`. -/
def insertObservation (db : Db) (o : Observation) : Db :=
  match db.observations.insert o with
  | none => db
  | some observations => { db with observations := observations }

/-- Whether a new observation was stored, and the tables after it. -/
def recordDependencyWatchObservation (checks : ReceiptChecks) (db : Db) (input : RecordInput)
    (now : Int) : Except WatchError (Bool × Db) :=
  match admitObservation checks db input with
  | .error e => .error e
  | .ok receipt =>
    let observedAt := input.observedAt.getD now
    let observation := input.observation receipt observedAt
    .ok ((db.observations.insert observation).isSome,
      (insertObservation db observation).updateWatches (isWatch input.workspaceId input.watchId)
        (Watch.recorded input.cursor observedAt) fun _ => rfl)

/-- The `SET` list of `RECORD_WATCH_OBSERVATION_OP`: the next check stays. -/
def Watch.observed (cursor : Cursor) (observedAt : Int) (w : Watch) : Watch :=
  w.recorded { cursor with nextCheckAt := w.nextCheckAt } observedAt

/-- `RECORD_WATCH_OBSERVATION_OP`. -/
def recordWatchObservation (db : Db) (input : RecordInput) (observedAt : Int) : Db :=
  (insertObservation db
    (input.observation input.sourceInventoryReceipt observedAt)).updateWatches
      (isWatch input.workspaceId input.watchId) (Watch.observed input.cursor observedAt) fun _ => rfl

end Agentrail.DependencyWatch
