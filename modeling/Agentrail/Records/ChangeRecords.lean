import Mathlib.Data.Char
import Mathlib.Data.List.Lex
import Mathlib.Data.List.Dedup
import Agentrail.Js.Basic
import Agentrail.Preview.PreviewBoots
import Agentrail.Review.ReviewJobs

/-!
# Change records and their timelines (`change_records.ts`)

A change record binds the issue and the pull request of one change; its timeline is the list of
its events.  A function of the module is one transaction: it answers and gives the new store, or
it throws, and the store stays (`commit`).

`findOrCreateChangeRecord` finds a record by issue or pull request, merges two records or inserts
one; `appendChangeRecordEvent` adds an event under a key.  A key that is taken adds nothing, an id
that is taken or a record that is not there throws.
-/

namespace Agentrail.Records

open Js

/-! ## The tables -/

structure ChangeRecordRow where
  id : Text
  workspaceId : Text
  repo : Text
  issueNumber : Option Nat := none
  prNumber : Option Nat := none
  currentPrHeadSha : Option Text := none
  currentPrHeadCycleId : Option Text := none
  currentPrHeadAuthoritative : Bool := false
  currentPrHeadAuthorityGeneration : Nat := 0
  headShas : List Text := []
  mergedSha : Option Text := none
  state : Text := "open".toList
  deriving DecidableEq, Repr

structure HeadTransition where
  beforeHeadSha : Text
  afterHeadSha : Text
  deriving DecidableEq, Repr

/-- `external_pr_delivery` -/
structure DeliveryPayload where
  repo : Text
  prNumber : Nat
  headSha : Text
  event : Text
  deliveryId : Text
  headTransition : Option HeadTransition
  admitReviewJob : Bool
  prUrl : Option Text
  deriving DecidableEq, Repr

/-- `external_pr_head_transition_held` -/
structure HeldPayload where
  currentHeadSha : Text
  currentHeadCycleId : Option Text
  authorityGenerationBefore : Nat
  authorityGenerationAfter : Nat
  observedHeadSha : Text
  event : Text
  deliveryId : Text
  headTransition : Option HeadTransition
  acceptanceContractVersion : Nat
  deriving DecidableEq, Repr

/-- `external_pr_head_advanced`, and `external_pr_attachment` where the record was not attached. -/
structure AdvancedPayload where
  wasAttached : Bool
  repo : Text
  prNumber : Nat
  previousHeadSha : Option Text
  headSha : Text
  headCycleId : Text
  event : Text
  deliveryId : Text
  headTransition : Option HeadTransition
  prUrl : Option Text
  acceptanceContractVersion : Nat
  deriving DecidableEq, Repr

/-- `external_pr_attachment` of a pull request that was named by hand. -/
structure AttachmentPayload where
  repo : Text
  prNumber : Nat
  headSha : Text
  prUrl : Option Text
  acceptanceContractVersion : Nat
  deriving DecidableEq, Repr

/-- `external_pr_head_invalidated_terminal` -/
structure TerminalPayload where
  repo : Text
  prNumber : Nat
  currentHeadSha : Option Text
  currentHeadCycleId : Option Text
  observedHeadSha : Text
  event : Text
  deliveryId : Text
  acceptanceContractVersion : Nat
  deriving DecidableEq, Repr

/-- `external_pr_head_reconciled` and `external_pr_head_reconciliation_closed`. -/
structure ReconciliationPayload where
  repo : Text
  prNumber : Nat
  expectedBlockedHeadSha : Text
  expectedBlockedCycleId : Text
  expectedBlockedAuthorityGeneration : Nat
  observedHeadSha : Text
  observedBaseSha : Text
  observedState : Text
  observedDraft : Bool
  observedMerged : Bool
  headCycleId : Text
  acceptanceContractVersion : Nat
  deriving DecidableEq, Repr

/-- `acceptance_correction_dispatch_invalidated` and `…_successor_recorded`. -/
structure DispatchPayload where
  dispatchId : Text
  dispatchIdentitySha256 : Text
  reason : Option Text
  head : Option (Text × Text)
  successor : Option (Text × Text)
  deriving DecidableEq, Repr

/-- What an event says; any other JSON value stands as its text. -/
inductive Payload where
  | delivery (p : DeliveryPayload)
  | held (p : HeldPayload)
  | advanced (p : AdvancedPayload)
  | attachment (p : AttachmentPayload)
  | terminal (p : TerminalPayload)
  | reconciled (p : ReconciliationPayload)
  | closed (p : ReconciliationPayload)
  | dispatch (p : DispatchPayload)
  | other (json : Text)
  deriving DecidableEq, Repr

structure ChangeRecordEventRow where
  id : Text
  recordId : Text
  eventKey : Text
  stage : Text
  at_ : Int
  actor : Text
  payloadRef : Payload
  deriving DecidableEq, Repr

/-- The columns of `acceptance_contracts` that are read here. -/
structure AcceptanceContractRow where
  recordId : Text
  version : Nat
  status : Text
  deriving DecidableEq, Repr

/-- The columns of `acceptance_correction_dispatches` that are read or written here. -/
structure CorrectionDispatchRow where
  id : Text
  workspaceId : Text
  recordId : Text
  headSha : Text
  headCycleId : Text
  dispatchIdentitySha256 : Text
  invalidatedAt : Option Int := none
  invalidationReason : Option Text := none
  successorHeadSha : Option Text := none
  successorHeadCycleId : Option Text := none
  deriving DecidableEq, Repr

structure Store where
  records : List ChangeRecordRow
  events : List ChangeRecordEventRow
  contracts : List AcceptanceContractRow
  dispatches : List CorrectionDispatchRow
  jobs : Review.ReviewJobTable
  boots : Preview.PreviewBootTable
  now : Int

def emptyStore (now : Int) : Store where
  records := []
  events := []
  contracts := []
  dispatches := []
  jobs := .empty
  boots := .empty
  now := now

/-- The store after a transaction: one that throws is rolled back. -/
def commit {α : Type} (s : Store) : Except Text (α × Store) → Store
  | .ok (_, s') => s'
  | .error _ => s

def UNIQUE_VIOLATION : Text := "duplicate key value violates unique constraint".toList

def FOREIGN_KEY_VIOLATION : Text := "violates foreign key constraint".toList

/-! ## Ids -/

structure Host where
  /-- `uuid5Url`: the SHA-1 hash of the name in the URL namespace -/
  uuid5Url : Text → Text
  /-- `hashtext` of the database -/
  hashtext : Text → Int

structure ChangeRecordAnchor where
  workspaceId : Text
  repo : Text
  workKey : Option Text := none
  issueNumber : Option Nat := none
  prNumber : Option Nat := none
  deriving DecidableEq, Repr

def anchorName (kind : String) (anchor : ChangeRecordAnchor) (key : Text) : Text :=
  "change-record:".toList ++ kind.toList ++ ":".toList ++ anchor.workspaceId ++ ":".toList ++
    anchor.repo ++ ":".toList ++ key

def changeRecordId (host : Host) (input : ChangeRecordAnchor) : Except Text Text :=
  let workKey := trim (input.workKey.getD [])
  if workKey ≠ [] then .ok (host.uuid5Url (anchorName "work" input workKey))
  else match input.issueNumber, input.prNumber with
    | some issue, _ => .ok (host.uuid5Url (anchorName "issue" input (decimal issue)))
    | none, some pr => .ok (host.uuid5Url (anchorName "pr" input (decimal pr)))
    | none, none =>
      .error "changeRecordId requires workKey, issueNumber, or prNumber".toList

def changeRecordEventId (host : Host) (recordId eventKey : Text) : Text :=
  host.uuid5Url ("change-record-event:".toList ++ recordId ++ ":".toList ++ eventKey)

/-! ## Heads -/

def normalizeHeadShas (headShas : List Text) : List Text :=
  (headShas.filter (· ≠ [])).dedup.mergeSort fun a b => decide (a ≤ b)

/-- `mergeHeadShasSql` -/
def mergeHeadShas (old new : List Text) : List Text :=
  (old ++ new).dedup.mergeSort fun a b => decide (a ≤ b)

/-! ## Find or create -/

structure FindOrCreateChangeRecordInput extends ChangeRecordAnchor where
  headShas : List Text := []
  mergedSha : Option Text := none
  state : Option Text := none
  deriving DecidableEq, Repr

def isIssueOf (workspaceId repo : Text) (issueNumber : Nat) (r : ChangeRecordRow) : Bool :=
  r.workspaceId = workspaceId && r.repo = repo && r.issueNumber = some issueNumber

def isPrOf (workspaceId repo : Text) (prNumber : Nat) (r : ChangeRecordRow) : Bool :=
  r.workspaceId = workspaceId && r.repo = repo && r.prNumber = some prNumber

def Store.recordOfIssue (s : Store) (workspaceId repo : Text) (issueNumber : Nat) :
    Option ChangeRecordRow :=
  s.records.find? (isIssueOf workspaceId repo issueNumber)

def Store.recordOfPr (s : Store) (workspaceId repo : Text) (prNumber : Nat) :
    Option ChangeRecordRow :=
  s.records.find? (isPrOf workspaceId repo prNumber)

def readChangeRecordByPr (s : Store) (workspaceId repo : Text) (prNumber : Nat) :
    Option ChangeRecordRow :=
  if 0 < prNumber then s.recordOfPr workspaceId repo prNumber else none

/-- `UPDATE change_records SET f WHERE id = …`. -/
def Store.updateRecord (s : Store) (id : Text) (f : ChangeRecordRow → ChangeRecordRow) : Store :=
  { s with records := s.records.map fun r => if r.id = id then f r else r }

/-- `DELETE FROM change_records WHERE id = …`, with the rows that refer to it. -/
def Store.deleteRecord (s : Store) (id : Text) : Store :=
  { s with
    records := s.records.filter fun r => r.id ≠ id
    events := s.events.filter fun e => e.recordId ≠ id
    contracts := s.contracts.filter fun c => c.recordId ≠ id
    dispatches := s.dispatches.filter fun d => d.recordId ≠ id }

/-- The events of the record `old` move to `kept`, except under keys that `kept` has. -/
def moveEvents (events : List ChangeRecordEventRow) (old kept : Text) :
    List ChangeRecordEventRow :=
  (events.filter fun e =>
      !(e.recordId = old && events.any fun k => k.recordId = kept && k.eventKey = e.eventKey)).map
    fun e => if e.recordId = old then { e with recordId := kept } else e

/-- The issue record after it has taken over the record of the pull request. -/
def mergedRow (input : FindOrCreateChangeRecordInput) (prRecord r : ChangeRecordRow) :
    ChangeRecordRow :=
  { r with
    prNumber := r.prNumber <|> input.prNumber
    currentPrHeadSha := r.currentPrHeadSha <|> prRecord.currentPrHeadSha
    currentPrHeadCycleId := r.currentPrHeadCycleId <|> prRecord.currentPrHeadCycleId
    currentPrHeadAuthoritative :=
      if r.currentPrHeadSha.isSome then r.currentPrHeadAuthoritative
      else prRecord.currentPrHeadAuthoritative
    currentPrHeadAuthorityGeneration :=
      if r.currentPrHeadSha.isSome then r.currentPrHeadAuthorityGeneration
      else prRecord.currentPrHeadAuthorityGeneration
    headShas := mergeHeadShas r.headShas
      (normalizeHeadShas (normalizeHeadShas input.headShas ++ prRecord.headShas))
    mergedSha := input.mergedSha <|> r.mergedSha
    state := input.state.getD r.state }

def enrichedRow (input : FindOrCreateChangeRecordInput) (r : ChangeRecordRow) : ChangeRecordRow :=
  { r with
    issueNumber := r.issueNumber <|> input.issueNumber
    prNumber := r.prNumber <|> input.prNumber
    headShas := mergeHeadShas r.headShas (normalizeHeadShas input.headShas)
    mergedSha := input.mergedSha <|> r.mergedSha
    state := input.state.getD r.state }

def createdRow (id : Text) (input : FindOrCreateChangeRecordInput) : ChangeRecordRow where
  id := id
  workspaceId := input.workspaceId
  repo := input.repo
  issueNumber := input.issueNumber
  prNumber := input.prNumber
  headShas := normalizeHeadShas input.headShas
  mergedSha := input.mergedSha
  state := input.state.getD "open".toList

def Store.mergeRecords (s : Store) (input : FindOrCreateChangeRecordInput)
    (issueRecord prRecord : ChangeRecordRow) : Store :=
  (({ s with events := moveEvents s.events prRecord.id issueRecord.id }).deleteRecord
    prRecord.id).updateRecord issueRecord.id (mergedRow input prRecord)

def findOrCreateChangeRecord (host : Host) (input : FindOrCreateChangeRecordInput) (s : Store) :
    Except Text (ChangeRecordRow × Store) := do
  if input.issueNumber = none ∧ input.prNumber = none then
    .error "findOrCreateChangeRecord requires issueNumber or prNumber".toList
  let canonicalId ← changeRecordId host input.toChangeRecordAnchor
  let issueRecord := input.issueNumber.bind (s.recordOfIssue input.workspaceId input.repo)
  let prRecord := input.prNumber.bind (s.recordOfPr input.workspaceId input.repo)
  match issueRecord, prRecord with
  | some issue, some pr =>
    if issue.id ≠ pr.id then
      .ok (mergedRow input pr issue, s.mergeRecords input issue pr)
    else .ok (enrichedRow input issue, s.updateRecord issue.id (enrichedRow input))
  | some existing, none | none, some existing =>
    .ok (enrichedRow input existing, s.updateRecord existing.id (enrichedRow input))
  | none, none =>
    if s.records.any fun r => r.id = canonicalId then .error UNIQUE_VIOLATION
    else
      let row := createdRow canonicalId input
      .ok (row, { s with records := s.records ++ [row] })

/-! ## Events -/

structure AppendChangeRecordEventInput where
  recordId : Text
  eventKey : Text
  stage : Text
  actor : Text
  payloadRef : Payload
  at_ : Option Int := none
  deriving DecidableEq, Repr

structure AppendChangeRecordEventResult where
  event : ChangeRecordEventRow
  inserted : Bool
  deriving DecidableEq, Repr

def Store.eventOf (s : Store) (recordId eventKey : Text) : Option ChangeRecordEventRow :=
  s.events.find? fun e => e.recordId = recordId && e.eventKey = eventKey

def Store.HasEvent (s : Store) (recordId eventKey : Text) : Prop :=
  ∃ e ∈ s.events, e.recordId = recordId ∧ e.eventKey = eventKey

theorem eventOf_eq_some (s : Store) (recordId eventKey : Text) (e : ChangeRecordEventRow)
    (h : s.eventOf recordId eventKey = some e) :
    e ∈ s.events ∧ e.recordId = recordId ∧ e.eventKey = eventKey := by
  have hkey := List.find?_some h
  rw [Bool.and_eq_true, decide_eq_true_iff, decide_eq_true_iff] at hkey
  exact ⟨List.mem_of_find?_eq_some h, hkey⟩

theorem eventOf_isSome_iff (s : Store) (recordId eventKey : Text) :
    (s.eventOf recordId eventKey).isSome ↔ s.HasEvent recordId eventKey := by
  unfold Store.eventOf Store.HasEvent
  rw [List.find?_isSome]
  simp only [Bool.and_eq_true, decide_eq_true_eq]

def newEvent (host : Host) (input : AppendChangeRecordEventInput) (now : Int) :
    ChangeRecordEventRow where
  id := changeRecordEventId host input.recordId input.eventKey
  recordId := input.recordId
  eventKey := input.eventKey
  stage := input.stage
  at_ := input.at_.getD now
  actor := input.actor
  payloadRef := input.payloadRef

/-- `INSERT … ON CONFLICT (record_id, event_key) DO NOTHING`, and the event that is then there. -/
def appendChangeRecordEvent (host : Host) (input : AppendChangeRecordEventInput) (s : Store) :
    Except Text (AppendChangeRecordEventResult × Store) :=
  match s.eventOf input.recordId input.eventKey with
  | some event => .ok (⟨event, false⟩, s)
  | none =>
    let event := newEvent host input s.now
    if s.events.any fun e => e.id = event.id then .error UNIQUE_VIOLATION
    else if s.records.any fun r => r.id = input.recordId then
      .ok (⟨event, true⟩, { s with events := s.events ++ [event] })
    else .error FOREIGN_KEY_VIOLATION

def boundDifferently : Text :=
  ("appendChangeRecordEventsAtomically: event key is already bound to different stage, actor, " ++
    "or payloadRef").toList

/-- One round of `appendChangeRecordEventsAtomicallyInTransaction`. -/
def appendProvenEvent (host : Host) (input : AppendChangeRecordEventInput) (s : Store) :
    Except Text (AppendChangeRecordEventResult × Store) := do
  let (result, s) ← appendChangeRecordEvent host input s
  let event := result.event
  if event.stage ≠ input.stage ∨ event.actor ≠ input.actor ∨
      event.payloadRef ≠ input.payloadRef then
    .error boundDifferently
  .ok (result, s)

def appendChangeRecordEventsAtomicallyInTransaction (host : Host) :
    List AppendChangeRecordEventInput → Store →
      Except Text (List AppendChangeRecordEventResult × Store)
  | [], s => .ok ([], s)
  | input :: inputs, s => do
    let (result, s) ← appendProvenEvent host input s
    let (results, s) ← appendChangeRecordEventsAtomicallyInTransaction host inputs s
    .ok (result :: results, s)

end Agentrail.Records
