import Agentrail.Js.Basic
import Agentrail.Lib.Runs
import Mathlib.Data.List.Nodup
import Mathlib.Data.List.Range
import Mathlib.Logic.Function.Basic

/-!
# Acceptance Contracts and their approvals (`queries/change_records.ts`, `queries/jace_sessions.ts`)

`createDraftAcceptanceContract` adds a draft version under the advisory lock of its record;
`resolveAcceptanceContractApproval` locks its approval, reads the contract that it is bound to,
and only then takes the lock of the record.  Every call is a transaction at READ COMMITTED; its
statements may be interleaved with those of any other calls, and it may break off anywhere.

Main results:

* `step_settled`: what a statement does to contracts and approvals;
* `confirmed_exactly`: what holds in every state that can be reached.
-/

namespace Agentrail.AcceptanceContract

open Js

/-! ## Rows -/

inductive ContractStatus where
  | draft
  | confirmed
  deriving DecidableEq

structure Contract where
  id : Text
  recordId : Text
  version : Nat
  status : ContractStatus
  contract : Json
  createdBy : Text
  confirmedBy : Option Text := none

inductive ApprovalStatus where
  | pending
  | approved
  | denied
  | expired
  deriving DecidableEq

structure Approval where
  workspaceId : Option Text
  status : ApprovalStatus
  toolName : Text
  acceptanceContractId : Option Text

structure Event where
  recordId : Text
  eventKey : Text
  actor : Text
  contractId : Text
  version : Nat
  status : ContractStatus

/-- What is committed. -/
structure Db where
  /-- the workspace of a change record -/
  records : Text → Option Text
  contracts : List Contract
  events : List Event
  approvals : Text → Option Approval

/-! ## The shape of a contract -/

def isRecord : Option Json → Bool
  | some (.obj _) => true
  | _ => false

def isArray : Option Json → Bool
  | some (.arr _) => true
  | _ => false

/-- An array of such items. -/
def isArrayOf (p : Json → Bool) : Option Json → Bool
  | some (.arr items) => items.all p
  | _ => false

def isEmptyArray : Option Json → Bool
  | some (.arr []) => true
  | _ => false

def isNonBlankString : Option Json → Bool
  | some (.str t) => trim t ≠ []
  | _ => false

def hasNamedText (item : Json) : Bool :=
  isRecord (some item) && isNonBlankString (item.get "id".toList) &&
    isNonBlankString (item.get "text".toList)

def isAcceptanceCriterion (item : Json) : Bool :=
  hasNamedText item && match item.get "userVisible".toList with
    | some (.bool _) => true
    | _ => false

/-- `validateAcceptanceContract(contract).errors`. -/
def validateAcceptanceContract (contract : Json) : List String :=
  let field (key : String) : Option Json := contract.get key.toList
  let error (c : Bool) (key : String) : List String := if c then [] else [key]
  let criteria := field "acceptanceCriteria"
  let questions := field "unresolvedQuestions"
  error (isNonBlankString (field "originalRequest")) "originalRequest" ++
    error (isArray (field "normalizedRequirements")) "normalizedRequirements" ++
    error (isArrayOf isAcceptanceCriterion criteria && !isEmptyArray criteria) "acceptanceCriteria" ++
    ["nonGoals", "risks", "stops", "unresolvedQuestions"].flatMap
      (fun key => error (isArray (field key)) key) ++
    error (isRecord (field "environment")) "environment" ++
    error (!isArray questions || isArrayOf hasNamedText questions) "unresolvedQuestions"

def hasOpenQuestions (contract : Json) : Bool :=
  isArray (contract.get "unresolvedQuestions".toList) &&
    !isEmptyArray (contract.get "unresolvedQuestions".toList)

/-! ## Calls -/

structure DraftInput where
  recordId : Text
  contract : Json
  createdBy : Text

structure ResolveInput where
  workspaceId : Text
  approvalId : Text
  /-- the decision is `"approved"` and not `"denied"` -/
  approve : Bool
  confirmedBy : Text

inductive Reason where
  | notFound
  | wrongWorkspace
  | notPending
  | wrongToolName
  | missingContractBinding
  | foreignContract
  | notDraft
  | incompleteContract
  | openQuestions
  deriving DecidableEq

inductive Outcome where
  | created (contract : Contract)
  | resolved (contract : Option Contract)
  | unresolved (reason : Reason)

/-- What a transaction has written and not committed. -/
structure Writes where
  inserted : Option Contract := none
  confirmed : Option Contract := none
  event : Option Event := none
  approval : Option (Text × ApprovalStatus) := none

/-- The statement that a call comes to next. -/
inductive Stage where
  | idle
  | lockDraft (input : DraftInput)
  | selectLatest (input : DraftInput)
  | insertDraft (input : DraftInput) (version : Nat)
  | logDraft (row : Contract)
  | lockApproval (input : ResolveInput)
  | selectApproval (input : ResolveInput)
  | denyApproval (input : ResolveInput)
  | selectAlready (input : ResolveInput) (contractId : Text)
  | selectContract (input : ResolveInput) (contractId : Text)
  | lockRecord (input : ResolveInput) (row : Contract)
  | selectConfirmed (input : ResolveInput) (row : Contract)
  | approveAgain (input : ResolveInput) (row : Contract)
  | confirmRow (input : ResolveInput) (row : Contract)
  | logConfirmed (input : ResolveInput) (row : Contract)
  | approve (input : ResolveInput) (row : Contract) (event : Option Event)
  | commit (writes : Writes) (outcome : Outcome)
  | returned (outcome : Outcome)
  | threw (message : String)

inductive LockKey where
  /-- `pg_advisory_xact_lock` -/
  | record (key : Int)
  /-- a row of `acceptance_contracts`, or the key of one that is being inserted -/
  | contract (id : Text)
  /-- a row of `jace_approvals` -/
  | approval (id : Text)
  deriving DecidableEq

structure Host where
  /-- `hashtext` of the lock key of a record -/
  hashtext : Text → Int
  /-- `acceptanceContractId` -/
  contractId : Text → Nat → Text

structure State where
  db : Db
  locks : LockKey → Option Nat
  stage : Nat → Stage

/-! ## Statements -/

def rowsOf (db : Db) (recordId : Text) : List Contract :=
  db.contracts.filter fun c => c.recordId = recordId

/-- `latest[0]?.version ?? 0`. -/
def latestVersion (db : Db) (recordId : Text) : Nat :=
  ((rowsOf db recordId).map Contract.version).foldr max 0

/-- The row that `ON CONFLICT (record_id, event_key) DO NOTHING` inserts. -/
def newEvent (db : Db) (event : Event) : Option Event :=
  if db.events.any fun e => e.recordId = event.recordId && e.eventKey = event.eventKey then none
  else some event

def contractEvent (kind : String) (actor : Text) (row : Contract) : Event where
  recordId := row.recordId
  eventKey := "acceptance-contract:".toList ++ kind.toList ++ ':' :: decimal row.version
  actor := actor
  contractId := row.id
  version := row.version
  status := row.status

/-- A contract whose record is in the workspace. -/
def contractIn (db : Db) (workspaceId contractId : Text) : Option Contract :=
  (db.contracts.find? fun c => c.id = contractId).filter fun c =>
    db.records c.recordId = some workspaceId

def isPending (db : Db) (approvalId : Text) : Bool :=
  (db.approvals approvalId).any fun a => a.status = .pending

/-- What a statement comes to: the next one, with a lock or without, an error, or a commit. -/
inductive Move where
  | go (stage : Stage)
  | take (key : LockKey) (stage : Stage)
  | throw (message : String)
  | commit (writes : Writes) (outcome : Outcome)
  | none

def unresolved (reason : Reason) : Move := .go (.commit {} (.unresolved reason))

/-- What follows on the approval that was read. -/
def selectedApproval (input : ResolveInput) : Option Approval → Move
  | none => unresolved .notFound
  | some approval =>
    if approval.workspaceId ≠ some input.workspaceId then unresolved .wrongWorkspace
    else if !input.approve then
      if approval.status ≠ .pending then unresolved .notPending else .go (.denyApproval input)
    else if approval.status = .approved then
      match approval.acceptanceContractId with
      | none => unresolved .missingContractBinding
      | some contractId => .go (.selectAlready input contractId)
    else if approval.status ≠ .pending then unresolved .notPending
    else if approval.toolName ≠ "confirm_acceptance_contract".toList then
      unresolved .wrongToolName
    else
      match approval.acceptanceContractId with
      | none => unresolved .missingContractBinding
      | some contractId => .go (.selectContract input contractId)

/-- What follows on the contract that the approval is bound to. -/
def selectedContract (input : ResolveInput) : Option Contract → Move
  | none => unresolved .foreignContract
  | some row =>
    if row.status ≠ .draft then unresolved .notDraft
    else if validateAcceptanceContract row.contract ≠ [] then unresolved .incompleteContract
    else if hasOpenQuestions row.contract then unresolved .openQuestions
    else .go (.lockRecord input row)

/-- What follows on the confirmed version of the record. -/
def selectedConfirmed (input : ResolveInput) (row : Contract) : Option Contract → Move
  | none => .go (.confirmRow input row)
  | some current =>
    if current.version = row.version then .go (.approveAgain input current)
    else .throw "another Acceptance Contract version is already confirmed"

section
variable (host : Host) (db : Db)

def newRow (input : DraftInput) (version : Nat) : Contract where
  id := host.contractId input.recordId version
  recordId := input.recordId
  version := version
  status := .draft
  contract := input.contract
  createdBy := input.createdBy

/-- The next statement of a call, on what is committed. -/
def move : Stage → Move
  | .lockDraft input => .take (.record (host.hashtext input.recordId)) (.selectLatest input)
  | .selectLatest input => .go (.insertDraft input (latestVersion db input.recordId + 1))
  | .insertDraft input version =>
    let row := newRow host input version
    if (db.records row.recordId).isNone || db.contracts.any fun c =>
        c.id = row.id || c.recordId = row.recordId && c.version = row.version then
      .throw "acceptance_contracts constraint violation"
    else .take (.contract row.id) (.logDraft row)
  | .logDraft row =>
    let event := newEvent db (contractEvent "draft" row.createdBy row)
    .go (.commit { inserted := some row, event := event } (.created row))
  | .lockApproval input =>
    if (db.approvals input.approvalId).isSome then
      .take (.approval input.approvalId) (.selectApproval input)
    else .go (.selectApproval input)
  | .selectApproval input => selectedApproval input (db.approvals input.approvalId)
  | .denyApproval input =>
    if isPending db input.approvalId then
      .take (.approval input.approvalId)
        (.commit { approval := some (input.approvalId, .denied) } (.resolved none))
    else unresolved .notPending
  | .selectAlready input contractId =>
    match (contractIn db input.workspaceId contractId).filter (·.status = .confirmed) with
    | some row => .go (.commit {} (.resolved (some row)))
    | none => unresolved .notPending
  | .selectContract input contractId =>
    selectedContract input (contractIn db input.workspaceId contractId)
  | .lockRecord input row =>
    .take (.record (host.hashtext row.recordId)) (.selectConfirmed input row)
  | .selectConfirmed input row =>
    selectedConfirmed input row ((rowsOf db row.recordId).find? (·.status = .confirmed))
  | .approveAgain input row =>
    if isPending db input.approvalId then
      .take (.approval input.approvalId)
        (.commit { approval := some (input.approvalId, .approved) } (.resolved (some row)))
    else .go (.commit {} (.resolved (some row)))
  | .confirmRow input row =>
    match (rowsOf db row.recordId).find? fun c => c.version = row.version ∧ c.status = .draft with
    | some c =>
      .take (.contract c.id) (.logConfirmed input
        { c with status := .confirmed, confirmedBy := some input.confirmedBy })
    | none => .throw "Acceptance Contract draft was not found"
  | .logConfirmed input row =>
    .go (.approve input row (newEvent db (contractEvent "confirmed" input.confirmedBy row)))
  | .approve input row event =>
    if isPending db input.approvalId then
      .take (.approval input.approvalId) (.commit
        { confirmed := some row, event := event, approval := some (input.approvalId, .approved) }
        (.resolved (some row)))
    else .throw "Acceptance Contract approval was not pending"
  | .commit writes outcome => .commit writes outcome
  | .idle => .none
  | .returned _ => .none
  | .threw _ => .none

end

/-! ## Runs -/

def replaceRow (row c : Contract) : Contract := if c.id = row.id then row else c

/-- The writes of a transaction, committed. -/
def Db.apply (db : Db) (w : Writes) : Db where
  records := db.records
  contracts := (match w.confirmed with
    | some row => db.contracts.map (replaceRow row)
    | none => db.contracts) ++ w.inserted.toList
  events := db.events ++ w.event.toList
  approvals id :=
    match w.approval with
    | some (approvalId, status) =>
      if id = approvalId then (db.approvals id).map fun a => { a with status := status }
      else db.approvals id
    | none => db.approvals id

def State.goto (s : State) (p : Nat) (stage : Stage) : State :=
  { s with stage := Function.update s.stage p stage }

/-- The end of a transaction, which gives its locks back. -/
def State.finish (s : State) (p : Nat) (db : Db) (stage : Stage) : State where
  db := db
  locks key := if s.locks key = some p then none else s.locks key
  stage := Function.update s.stage p stage

/-- A move of a call; it waits for a lock that another one has. -/
def State.take (s : State) (p : Nat) : Move → Option State
  | .go stage => some (s.goto p stage)
  | .take key stage =>
    if (s.locks key).all (· = p) then
      some { s.goto p stage with locks := Function.update s.locks key (some p) }
    else none
  | .throw message => some (s.finish p s.db (.threw message))
  | .commit writes outcome => some (s.finish p (s.db.apply writes) (.returned outcome))
  | .none => none

inductive Action where
  | createDraft (p : Nat) (input : DraftInput)
  | resolve (p : Nat) (input : ResolveInput)
  | advance (p : Nat)
  /-- the connection is lost -/
  | abort (p : Nat)
  /-- an approval is asked for -/
  | request (id : Text) (approval : Approval)

def next (host : Host) (s : State) : Action → Option State
  | .createDraft p input =>
    match s.stage p with
    | .idle =>
      if validateAcceptanceContract input.contract = [] then some (s.goto p (.lockDraft input))
      else some (s.goto p (.threw "Acceptance Contract is incomplete"))
    | _ => none
  | .resolve p input =>
    match s.stage p with
    | .idle => some (s.goto p (.lockApproval input))
    | _ => none
  | .advance p => s.take p (move host s.db (s.stage p))
  | .abort p =>
    match s.stage p with
    | .idle => none
    | .returned _ => none
    | .threw _ => none
    | _ => some (s.finish p s.db (.threw "connection lost"))
  | .request id approval =>
    if (s.db.approvals id).isNone && approval.status = .pending then
      some { s with db := { s.db with
        approvals := Function.update s.db.approvals id (some approval) } }
    else none

def start (db : Db) : State := ⟨db, fun _ => none, fun _ => .idle⟩

/-! ## What holds of contracts -/

/-- The same version; only its confirmation may differ. -/
def Same (c c' : Contract) : Prop :=
  c'.id = c.id ∧ c'.recordId = c.recordId ∧ c'.version = c.version ∧ c'.contract = c.contract ∧
    c'.createdBy = c.createdBy

/-- Every version stays, and a confirmed one stays as it is. -/
def Evolves (db db' : Db) : Prop :=
  ∀ c ∈ db.contracts, ∃ c' ∈ db'.contracts, Same c c' ∧ (c.status = .confirmed → c' = c)

structure Consistent (db : Db) : Prop where
  ids : (db.contracts.map Contract.id).Nodup
  numbered : ∀ r, (rowsOf db r).map Contract.version = List.range' 1 (rowsOf db r).length
  single : ∀ c ∈ db.contracts, ∀ c' ∈ db.contracts, c.recordId = c'.recordId →
    c.status = .confirmed → c'.status = .confirmed → c = c'

def Bound (db : Db) (approvalId contractId : Text) : Prop :=
  ∃ approval, db.approvals approvalId = some approval ∧
    approval.acceptanceContractId = some contractId

theorem Same.refl (c : Contract) : Same c c := ⟨rfl, rfl, rfl, rfl, rfl⟩

theorem Evolves.refl (db : Db) : Evolves db db := fun c hc => ⟨c, hc, .refl c, fun _ => rfl⟩

theorem Evolves.trans {db db' db'' : Db} (h : Evolves db db') (h' : Evolves db' db'') :
    Evolves db db'' := by
  intro c hc
  obtain ⟨c', hc', ⟨h1, h2, h3, h4, h5⟩, hsame⟩ := h c hc
  obtain ⟨c'', hc'', ⟨h1', h2', h3', h4', h5'⟩, hsame'⟩ := h' c' hc'
  refine ⟨c'', hc'', ⟨h1'.trans h1, h2'.trans h2, h3'.trans h3, h4'.trans h4, h5'.trans h5⟩, ?_⟩
  intro hconfirmed
  obtain rfl := hsame hconfirmed
  exact hsame' hconfirmed

theorem mem_rowsOf {db : Db} {r : Text} {c : Contract} :
    c ∈ rowsOf db r ↔ c ∈ db.contracts ∧ c.recordId = r := by
  unfold rowsOf
  rw [List.mem_filter, decide_eq_true_iff]

theorem Consistent.eq_of_id {db : Db} (h : Consistent db) {c c' : Contract}
    (hc : c ∈ db.contracts) (hc' : c' ∈ db.contracts) (hid : c.id = c'.id) : c = c' :=
  List.inj_on_of_nodup_map h.ids hc hc' hid

theorem Consistent.eq_of_version {db : Db} (h : Consistent db) {r : Text} {c c' : Contract}
    (hc : c ∈ rowsOf db r) (hc' : c' ∈ rowsOf db r) (hversion : c.version = c'.version) :
    c = c' := by
  have hnodup : ((rowsOf db r).map Contract.version).Nodup := by
    rw [h.numbered r]
    exact List.nodup_range'
  exact List.inj_on_of_nodup_map hnodup hc hc' hversion

theorem foldr_max_range' (n : Nat) : (List.range' 1 n).foldr max 0 = n := by
  induction n with
  | zero => rfl
  | succ n ih =>
    have hmax : ∀ (xs : List Nat) (m : Nat), xs.foldr max m = max (xs.foldr max 0) m := by
      intro xs m
      induction xs with
      | nil => exact (Nat.zero_max m).symm
      | cons x xs ih => rw [List.foldr_cons, List.foldr_cons, ih, Nat.max_assoc]
    rw [List.range'_1_concat, List.foldr_append, hmax, ih]
    simp only [List.foldr_cons, List.foldr_nil]
    omega

theorem Consistent.latestVersion_eq {db : Db} (h : Consistent db) (r : Text) :
    latestVersion db r = (rowsOf db r).length := by
  unfold latestVersion
  rw [h.numbered r, foldr_max_range']

/-! ## What a call has made sure of -/

section
variable (host : Host) (s : State) (p : Nat)

def Holds (recordId : Text) : Prop := s.locks (.record (host.hashtext recordId)) = some p

/-- A draft that may be inserted. -/
structure InsertOk (row : Contract) : Prop where
  draft : row.status = .draft
  lock : Holds host s p row.recordId
  key : s.locks (.contract row.id) = some p
  version : row.version = (rowsOf s.db row.recordId).length + 1
  fresh : ∀ c ∈ s.db.contracts, c.id ≠ row.id

/-- A version that may be confirmed. -/
structure ConfirmOk (row : Contract) : Prop where
  lock : Holds host s p row.recordId
  draft : ∃ c ∈ s.db.contracts, c.status = .draft ∧
    ∃ confirmedBy, row = { c with status := .confirmed, confirmedBy := confirmedBy }
  first : ∀ c ∈ s.db.contracts, c.recordId = row.recordId → c.status ≠ .confirmed

structure WritesOk (w : Writes) : Prop where
  inserted : ∀ row, w.inserted = some row → InsertOk host s p row ∧ w.confirmed = none
  confirmed : ∀ row, w.confirmed = some row → ConfirmOk host s p row ∧
    ∃ approvalId, w.approval = some (approvalId, .approved) ∧ Bound s.db approvalId row.id
  approval : ∀ approvalId status, w.approval = some (approvalId, status) →
    s.locks (.approval approvalId) = some p ∧ isPending s.db approvalId ∧
    (status = .denied ∧ w.confirmed = none ∧ w.inserted = none ∨
      status = .approved ∧ ∃ contractId, Bound s.db approvalId contractId ∧
        ((∃ row, w.confirmed = some row ∧ row.id = contractId) ∨
          ∃ c ∈ s.db.contracts, c.id = contractId ∧ c.status = .confirmed))

/-- The version that the approval is bound to, as it was read before. -/
def Seen (input : ResolveInput) (row : Contract) : Prop :=
  Bound s.db input.approvalId row.id ∧ ∃ c ∈ s.db.contracts, Same row c

def StageOk : Stage → Prop
  | .selectLatest input => Holds host s p input.recordId
  | .insertDraft input version => Holds host s p input.recordId ∧
      version = (rowsOf s.db input.recordId).length + 1
  | .logDraft row => InsertOk host s p row
  | .selectContract input contractId => Bound s.db input.approvalId contractId
  | .lockRecord input row => Seen s input row
  | .selectConfirmed input row => Seen s input row ∧ Holds host s p row.recordId
  | .approveAgain input row => Bound s.db input.approvalId row.id ∧ row ∈ s.db.contracts ∧
      row.status = .confirmed
  | .confirmRow input row => Seen s input row ∧ Holds host s p row.recordId ∧
      ∀ c ∈ s.db.contracts, c.recordId = row.recordId → c.status ≠ .confirmed
  | .logConfirmed input row => ConfirmOk host s p row ∧ Bound s.db input.approvalId row.id
  | .approve input row _ => ConfirmOk host s p row ∧ Bound s.db input.approvalId row.id
  | .commit w _ => WritesOk host s p w
  | _ => True

/-- What a call may rely on while the others go on. -/
structure Frame (t : State) : Prop where
  locks : ∀ key, s.locks key = some p → t.locks key = some p
  rows : ∀ r, Holds host s p r → rowsOf t.db r = rowsOf s.db r
  ids : ∀ id, s.locks (.contract id) = some p → (∀ c ∈ s.db.contracts, c.id ≠ id) →
    ∀ c ∈ t.db.contracts, c.id ≠ id
  pending : ∀ id, s.locks (.approval id) = some p → isPending s.db id → isPending t.db id
  evolves : Evolves s.db t.db
  bound : ∀ approvalId contractId, Bound s.db approvalId contractId →
    Bound t.db approvalId contractId

end

section
variable {host : Host} {s t : State} {p : Nat}

theorem Frame.of_db (hdb : t.db = s.db)
    (hlocks : ∀ key, s.locks key = some p → t.locks key = some p) : Frame host s p t := by
  refine ⟨hlocks, ?_, ?_, ?_, ?_, ?_⟩
  · exact fun r _ => by rw [hdb]
  · exact fun id _ h => by rwa [hdb]
  · exact fun id _ h => by rwa [hdb]
  · rw [hdb]
    exact .refl _
  · exact fun _ _ h => by rwa [hdb]

theorem Frame.holds (h : Frame host s p t) {r : Text} (hr : Holds host s p r) : Holds host t p r :=
  h.locks _ hr

/-- The rows of a record whose lock the call has. -/
theorem Frame.mem_iff (h : Frame host s p t) {c : Contract} (hr : Holds host s p c.recordId) :
    c ∈ t.db.contracts ↔ c ∈ s.db.contracts := by
  have hrows := h.rows c.recordId hr
  have hmem : c ∈ rowsOf t.db c.recordId ↔ c ∈ rowsOf s.db c.recordId := by rw [hrows]
  rw [mem_rowsOf, mem_rowsOf] at hmem
  simpa using hmem

theorem Frame.insertOk (h : Frame host s p t) {row : Contract} (hrow : InsertOk host s p row) :
    InsertOk host t p row where
  draft := hrow.draft
  lock := h.holds hrow.lock
  key := h.locks _ hrow.key
  version := by rw [h.rows _ hrow.lock]; exact hrow.version
  fresh := h.ids _ hrow.key hrow.fresh

theorem Frame.none_confirmed (h : Frame host s p t) {r : Text} (hr : Holds host s p r)
    (hnone : ∀ c ∈ s.db.contracts, c.recordId = r → c.status ≠ .confirmed) :
    ∀ c ∈ t.db.contracts, c.recordId = r → c.status ≠ .confirmed := by
  intro c hc hrecord
  exact hnone c ((h.mem_iff (hrecord ▸ hr)).1 hc) hrecord

theorem Frame.confirmOk (h : Frame host s p t) {row : Contract} (hrow : ConfirmOk host s p row) :
    ConfirmOk host t p row := by
  obtain ⟨c, hc, hdraft, confirmedBy, hequal⟩ := hrow.draft
  refine ⟨h.holds hrow.lock, ⟨c, (h.mem_iff ?_).2 hc, hdraft, confirmedBy, hequal⟩,
    h.none_confirmed hrow.lock hrow.first⟩
  have hlock := hrow.lock
  rwa [hequal] at hlock

theorem Frame.confirmed (h : Frame host s p t) {c : Contract} (hc : c ∈ s.db.contracts)
    (hconfirmed : c.status = .confirmed) : c ∈ t.db.contracts := by
  obtain ⟨c', hc', _, hsame⟩ := h.evolves c hc
  rwa [hsame hconfirmed] at hc'

theorem Frame.seen (h : Frame host s p t) {input : ResolveInput} {row : Contract}
    (hseen : Seen s input row) : Seen t input row := by
  obtain ⟨hbound, c, hc, h1, h2, h3, h4, h5⟩ := hseen
  obtain ⟨c', hc', ⟨h1', h2', h3', h4', h5'⟩, _⟩ := h.evolves c hc
  exact ⟨h.bound _ _ hbound, c', hc', h1'.trans h1, h2'.trans h2, h3'.trans h3, h4'.trans h4,
    h5'.trans h5⟩

theorem Frame.writesOk (h : Frame host s p t) {w : Writes} (hw : WritesOk host s p w) :
    WritesOk host t p w where
  inserted row hrow := ⟨h.insertOk (hw.inserted row hrow).1, (hw.inserted row hrow).2⟩
  confirmed row hrow := by
    obtain ⟨hok, approvalId, happroval, hbound⟩ := hw.confirmed row hrow
    exact ⟨h.confirmOk hok, approvalId, happroval, h.bound _ _ hbound⟩
  approval approvalId status happroval := by
    obtain ⟨hlock, hpending, hstatus⟩ := hw.approval approvalId status happroval
    refine ⟨h.locks _ hlock, h.pending _ hlock hpending, hstatus.imp_right ?_⟩
    rintro ⟨hstatus, contractId, hbound, hconfirmed⟩
    refine ⟨hstatus, contractId, h.bound _ _ hbound, hconfirmed.imp_right ?_⟩
    rintro ⟨c, hc, hid, hc'⟩
    exact ⟨c, h.confirmed hc hc', hid, hc'⟩

/-- What the others do leaves standing what a call has made sure of. -/
theorem Frame.stageOk (h : Frame host s p t) {stage : Stage} (hstage : StageOk host s p stage) :
    StageOk host t p stage := by
  cases stage with
  | selectLatest input => exact h.holds hstage
  | insertDraft input version =>
    refine ⟨h.holds hstage.1, ?_⟩
    rw [h.rows _ hstage.1]
    exact hstage.2
  | logDraft row => exact h.insertOk hstage
  | selectContract input contractId => exact h.bound _ _ hstage
  | lockRecord input row => exact h.seen hstage
  | selectConfirmed input row => exact ⟨h.seen hstage.1, h.holds hstage.2⟩
  | approveAgain input row =>
    exact ⟨h.bound _ _ hstage.1, h.confirmed hstage.2.1 hstage.2.2, hstage.2.2⟩
  | confirmRow input row =>
    exact ⟨h.seen hstage.1, h.holds hstage.2.1, h.none_confirmed hstage.2.1 hstage.2.2⟩
  | logConfirmed input row => exact ⟨h.confirmOk hstage.1, h.bound _ _ hstage.2⟩
  | approve input row event => exact ⟨h.confirmOk hstage.1, h.bound _ _ hstage.2⟩
  | commit w outcome => exact h.writesOk hstage
  | _ => trivial

end

/-! ## What a call makes sure of -/

/-- A move that makes sure of what its next stage stands on. -/
def MoveOk (host : Host) (s : State) (p : Nat) : Move → Prop
  | .go stage => StageOk host s p stage
  | .take key stage => ∀ t : State, t.db = s.db →
      (∀ k, s.locks k = some p → t.locks k = some p) → t.locks key = some p →
      StageOk host t p stage
  | .commit w _ => WritesOk host s p w
  | _ => True

section
variable {host : Host} {s : State} {p : Nat}

theorem writesOk_empty : WritesOk host s p {} :=
  ⟨fun _ h => absurd h (Option.some_ne_none _).symm, fun _ h => absurd h (Option.some_ne_none _).symm,
    fun _ _ h => absurd h (Option.some_ne_none _).symm⟩

theorem find?_decide {α : Type} {P : α → Prop} [DecidablePred P] {xs : List α} {x : α}
    (h : xs.find? (fun x => decide (P x)) = some x) : x ∈ xs ∧ P x := by
  have hP := List.find?_some h
  exact ⟨List.mem_of_find?_eq_some h, of_decide_eq_true hP⟩

theorem contractIn_some {db : Db} {workspaceId contractId : Text} {row : Contract}
    (h : contractIn db workspaceId contractId = some row) :
    row ∈ db.contracts ∧ row.id = contractId := by
  unfold contractIn at h
  rw [Option.filter_eq_some_iff] at h
  exact find?_decide h.1

theorem selectedApproval_ok (input : ResolveInput) :
    MoveOk host s p (selectedApproval input (s.db.approvals input.approvalId)) := by
  cases happroval : s.db.approvals input.approvalId with
  | none => exact writesOk_empty
  | some approval =>
    unfold selectedApproval
    dsimp only
    repeat' split
    all_goals first
      | exact writesOk_empty
      | trivial
      | exact ⟨approval, happroval, ‹_›⟩

theorem selectedContract_ok {input : ResolveInput} {contractId : Text}
    (h : Bound s.db input.approvalId contractId) :
    MoveOk host s p (selectedContract input (contractIn s.db input.workspaceId contractId)) := by
  cases hrow : contractIn s.db input.workspaceId contractId with
  | none => exact writesOk_empty
  | some row =>
    obtain ⟨hmem, rfl⟩ := contractIn_some hrow
    unfold selectedContract
    dsimp only
    split
    · exact writesOk_empty
    split
    · exact writesOk_empty
    split
    · exact writesOk_empty
    exact ⟨h, row, hmem, .refl row⟩

theorem selectedConfirmed_ok (hdb : Consistent s.db) {input : ResolveInput} {row : Contract}
    (hseen : Seen s input row) (hlock : Holds host s p row.recordId) :
    MoveOk host s p (selectedConfirmed input row
      ((rowsOf s.db row.recordId).find? (·.status = .confirmed))) := by
  obtain ⟨hbound, c, hc, hid, hrecord, hversion, _⟩ := hseen
  cases hfind : (rowsOf s.db row.recordId).find? (·.status = .confirmed) with
  | none =>
    refine ⟨⟨hbound, c, hc, hid, hrecord, hversion, ‹_›⟩, hlock, fun c' hc' hrecord' hstatus => ?_⟩
    exact List.find?_eq_none.1 hfind c' (mem_rowsOf.2 ⟨hc', hrecord'⟩) (decide_eq_true hstatus)
  | some current =>
    obtain ⟨hcurrent, hstatus⟩ := find?_decide hfind
    unfold selectedConfirmed
    dsimp only
    split
    · next hequal =>
      obtain rfl : c = current :=
        hdb.eq_of_version (mem_rowsOf.2 ⟨hc, hrecord⟩) hcurrent (hversion.trans hequal.symm)
      exact ⟨by rwa [hid], hc, hstatus⟩
    · trivial

/-- Every statement makes sure of what the next one stands on. -/
theorem move_ok (hdb : Consistent s.db) {stage : Stage} (h : StageOk host s p stage) :
    MoveOk host s p (move host s.db stage) := by
  cases stage with
  | lockDraft input => exact fun t _ _ hkey => hkey
  | selectLatest input => exact ⟨h, congrArg (· + 1) (hdb.latestVersion_eq input.recordId)⟩
  | insertDraft input version =>
    unfold move
    dsimp only
    split
    · trivial
    · next hnew =>
      intro t hdb' hlocks hkey
      have hframe : Frame host s p t := .of_db hdb' hlocks
      refine ⟨rfl, hframe.holds h.1, hkey, ?_, fun c hc hid => hnew ?_⟩
      · rw [hdb']
        exact h.2
      · rw [hdb'] at hc
        exact Bool.or_eq_true_iff.2 (.inr (List.any_eq_true.2 ⟨c, hc, by simp [hid]⟩))
  | logDraft row =>
    refine ⟨fun row' hrow => ?_, fun _ hrow => ?_, fun _ _ happroval => ?_⟩
    · cases hrow
      exact ⟨h, rfl⟩
    · cases hrow
    · cases happroval
  | lockApproval input =>
    unfold move
    dsimp only
    split
    · exact fun t _ _ _ => trivial
    · trivial
  | selectApproval input => exact selectedApproval_ok input
  | denyApproval input =>
    unfold move
    dsimp only
    split
    · next hpending =>
      intro t hdb' hlocks hkey
      refine ⟨fun _ hrow => ?_, fun _ hrow => ?_, fun approvalId status happroval => ?_⟩
      · cases hrow
      · cases hrow
      · cases happroval
        exact ⟨hkey, by rwa [hdb'], .inl ⟨rfl, rfl, rfl⟩⟩
    · exact writesOk_empty
  | selectAlready input contractId =>
    unfold move
    dsimp only
    split <;> exact writesOk_empty
  | selectContract input contractId => exact selectedContract_ok h
  | lockRecord input row =>
    intro t hdb' hlocks hkey
    exact ⟨(@Frame.of_db host _ _ _ hdb' hlocks).seen h, hkey⟩
  | selectConfirmed input row => exact selectedConfirmed_ok hdb h.1 h.2
  | approveAgain input row =>
    unfold move
    dsimp only
    split
    · next hpending =>
      intro t hdb' hlocks hkey
      refine ⟨fun _ hrow => ?_, fun _ hrow => ?_, fun approvalId status happroval => ?_⟩
      · cases hrow
      · cases hrow
      · cases happroval
        rw [hdb']
        exact ⟨hkey, hpending, .inr ⟨rfl, row.id, h.1, .inr ⟨row, h.2.1, rfl, h.2.2⟩⟩⟩
    · exact writesOk_empty
  | confirmRow input row =>
    obtain ⟨⟨hbound, c, hc, hid, hrecord, hversion, _⟩, hlock, hnone⟩ := h
    unfold move
    dsimp only
    split
    · next found hfound =>
      obtain ⟨hmem, hequal, hdraft⟩ := find?_decide hfound
      obtain rfl : c = found := hdb.eq_of_version (mem_rowsOf.2 ⟨hc, hrecord⟩) hmem
        (hversion.trans hequal.symm)
      intro t hdb' hlocks hkey
      have hframe : Frame host s p t := .of_db hdb' hlocks
      refine ⟨hframe.confirmOk ⟨by rwa [← hrecord] at hlock, ⟨c, hc, hdraft, _, rfl⟩, ?_⟩, ?_⟩
      · intro c' hc' hrecord'
        exact hnone c' hc' (hrecord'.trans hrecord)
      · rw [hdb']
        rwa [← hid] at hbound
    · trivial
  | logConfirmed input row => exact h
  | approve input row event =>
    unfold move
    dsimp only
    split
    · next hpending =>
      intro t hdb' hlocks hkey
      have hframe : Frame host s p t := .of_db hdb' hlocks
      refine ⟨fun _ hrow => ?_, fun _ hrow => ?_, fun approvalId status happroval => ?_⟩
      · cases hrow
      · cases hrow
        exact ⟨hframe.confirmOk h.1, input.approvalId, rfl, hframe.bound _ _ h.2⟩
      · cases happroval
        exact ⟨hkey, by rwa [hdb'],
          .inr ⟨rfl, row.id, hframe.bound _ _ h.2, .inl ⟨row, rfl, rfl⟩⟩⟩
    · trivial
  | commit w outcome => exact h
  | _ => trivial

end

/-! ## What a commit does -/

section
variable {host : Host} {s : State} {p : Nat} {w : Writes}

/-- A commit that confirms. -/
theorem apply_confirmed {row : Contract} (hw : WritesOk host s p w) (hrow : w.confirmed = some row) :
    (s.db.apply w).contracts = s.db.contracts.map (replaceRow row) := by
  have hinserted : w.inserted = none := by
    cases hinserted : w.inserted with
    | none => rfl
    | some new =>
      have hnone := (hw.inserted new hinserted).2
      rw [hrow] at hnone
      cases hnone
  unfold Db.apply
  rw [hrow, hinserted]
  exact List.append_nil _

theorem apply_inserted (hnone : w.confirmed = none) :
    (s.db.apply w).contracts = s.db.contracts ++ w.inserted.toList := by
  unfold Db.apply
  rw [hnone]

/-- A confirmation replaces a draft, and keeps all but its status. -/
theorem ConfirmOk.replaceRow {row c : Contract} (hrow : ConfirmOk host s p row)
    (hdb : Consistent s.db) (hc : c ∈ s.db.contracts) :
    Same c (replaceRow row c) ∧ (c.id = row.id → c.status = .draft ∧ c.recordId = row.recordId) ∧
      (c.status = .confirmed → replaceRow row c = c) := by
  obtain ⟨old, hold, hdraft, confirmedBy, rfl⟩ := hrow.draft
  unfold AcceptanceContract.replaceRow
  split
  · next hid =>
    obtain rfl := hdb.eq_of_id hc hold hid
    refine ⟨⟨rfl, rfl, rfl, rfl, rfl⟩, fun _ => ⟨hdraft, rfl⟩, fun hconfirmed => ?_⟩
    rw [hdraft] at hconfirmed
    cases hconfirmed
  · next hid => exact ⟨.refl c, fun h => absurd h hid, fun _ => rfl⟩

/-- The rows of a record after a confirmation. -/
theorem rowsOf_replace {row : Contract} (hw : WritesOk host s p w) (hdb : Consistent s.db)
    (hrow : w.confirmed = some row) (r : Text) :
    rowsOf (s.db.apply w) r = (rowsOf s.db r).map (replaceRow row) := by
  unfold rowsOf
  rw [apply_confirmed hw hrow, List.filter_map]
  congr 1
  refine List.filter_congr fun c hc => ?_
  obtain ⟨⟨_, hrecord, _⟩, _⟩ := (hw.confirmed row hrow).1.replaceRow hdb hc
  rw [Function.comp_apply, hrecord]

/-- The rows of a record after an insertion. -/
theorem rowsOf_insert (hnone : w.confirmed = none) (r : Text) :
    rowsOf (s.db.apply w) r =
      rowsOf s.db r ++ w.inserted.toList.filter fun c => c.recordId = r := by
  unfold rowsOf
  rw [apply_inserted hnone, List.filter_append]

theorem evolves_apply (hw : WritesOk host s p w) (hdb : Consistent s.db) :
    Evolves s.db (s.db.apply w) := by
  intro c hc
  cases hrow : w.confirmed with
  | none =>
    rw [apply_inserted hrow]
    exact ⟨c, List.mem_append_left _ hc, .refl c, fun _ => rfl⟩
  | some row =>
    obtain ⟨hsame, _, hconfirmed⟩ := (hw.confirmed row hrow).1.replaceRow hdb hc
    rw [apply_confirmed hw hrow]
    exact ⟨_, List.mem_map_of_mem hc, hsame, hconfirmed⟩

theorem consistent_insert {row : Contract} (hrow : InsertOk host s p row) (hdb : Consistent s.db)
    (hnone : w.confirmed = none) (hinserted : w.inserted = some row) :
    Consistent (s.db.apply w) := by
  have hcontracts : (s.db.apply w).contracts = s.db.contracts ++ [row] := by
    rw [apply_inserted hnone, hinserted, Option.toList_some]
  refine ⟨?_, fun r => ?_, fun c hc c' hc' hrecord hc1 hc2 => ?_⟩
  · rw [hcontracts, List.map_append, List.map_singleton, List.nodup_append]
    refine ⟨hdb.ids, List.nodup_singleton _, fun id hid id' hid' => ?_⟩
    obtain ⟨c, hc, rfl⟩ := List.mem_map.1 hid
    rw [List.mem_singleton.1 hid']
    exact hrow.fresh c hc
  · rw [rowsOf_insert hnone, hinserted, Option.toList_some]
    by_cases hr : row.recordId = r
    · rw [List.filter_singleton, decide_eq_true hr, cond_true, List.map_append,
        List.length_append, hdb.numbered r, List.map_singleton, List.length_singleton,
        List.range'_1_concat, hrow.version, hr, Nat.add_comm 1]
    · rw [List.filter_singleton, decide_eq_false hr, cond_false, List.append_nil]
      exact hdb.numbered r
  · rw [hcontracts, List.mem_append, List.mem_singleton] at hc hc'
    rcases hc with hc | rfl
    · rcases hc' with hc' | rfl
      · exact hdb.single c hc c' hc' hrecord hc1 hc2
      · rw [hrow.draft] at hc2
        cases hc2
    · rw [hrow.draft] at hc1
      cases hc1

theorem consistent_confirm {row : Contract} (hw : WritesOk host s p w) (hdb : Consistent s.db)
    (hconfirmed : w.confirmed = some row) : Consistent (s.db.apply w) := by
  have hrow := (hw.confirmed row hconfirmed).1
  have hcontracts := apply_confirmed hw hconfirmed
  refine ⟨?_, fun r => ?_, fun c hc c' hc' hrecord hc1 hc2 => ?_⟩
  · have hids : ∀ c ∈ s.db.contracts, (Contract.id ∘ replaceRow row) c = c.id :=
      fun c hc => (hrow.replaceRow hdb hc).1.1
    rw [hcontracts, List.map_map, List.map_congr_left hids]
    exact hdb.ids
  · have hversions : ∀ c ∈ rowsOf s.db r, (Contract.version ∘ replaceRow row) c = c.version :=
      fun c hc => (hrow.replaceRow hdb (mem_rowsOf.1 hc).1).1.2.2.1
    rw [rowsOf_replace hw hdb hconfirmed, List.length_map, List.map_map,
      List.map_congr_left hversions]
    exact hdb.numbered r
  · rw [hcontracts] at hc hc'
    obtain ⟨a, ha, rfl⟩ := List.mem_map.1 hc
    obtain ⟨b, hb, rfl⟩ := List.mem_map.1 hc'
    unfold replaceRow at *
    by_cases hida : a.id = row.id <;> by_cases hidb : b.id = row.id
    · rw [if_pos hida, if_pos hidb]
    · rw [if_pos hida, if_neg hidb] at hrecord
      rw [if_neg hidb] at hc2
      exact absurd hc2 (hrow.first b hb hrecord.symm)
    · rw [if_neg hida, if_pos hidb] at hrecord
      rw [if_neg hida] at hc1
      exact absurd hc1 (hrow.first a ha hrecord)
    · rw [if_neg hida, if_neg hidb] at hrecord ⊢
      rw [if_neg hida] at hc1
      rw [if_neg hidb] at hc2
      exact hdb.single a ha b hb hrecord hc1 hc2

theorem consistent_apply (hw : WritesOk host s p w) (hdb : Consistent s.db) :
    Consistent (s.db.apply w) := by
  cases hconfirmed : w.confirmed with
  | some row => exact consistent_confirm hw hdb hconfirmed
  | none =>
    cases hinserted : w.inserted with
    | some row => exact consistent_insert (hw.inserted row hinserted).1 hdb hconfirmed hinserted
    | none =>
      have hcontracts : (s.db.apply w).contracts = s.db.contracts := by
        rw [apply_inserted hconfirmed, hinserted]
        exact List.append_nil _
      refine ⟨by rw [hcontracts]; exact hdb.ids, fun r => ?_, by rw [hcontracts]; exact hdb.single⟩
      unfold rowsOf
      rw [hcontracts]
      exact hdb.numbered r

/-- An approval after a commit. -/
theorem approvals_apply (id : Text) : (s.db.apply w).approvals id = s.db.approvals id ∨
    ∃ status, w.approval = some (id, status) ∧
      (s.db.apply w).approvals id = (s.db.approvals id).map fun a => { a with status := status } := by
  unfold Db.apply
  cases w.approval with
  | none => exact .inl rfl
  | some written =>
    obtain ⟨approvalId, status⟩ := written
    by_cases hid : id = approvalId
    · exact .inr ⟨status, by rw [hid], if_pos hid⟩
    · exact .inl (if_neg hid)

/-- A commit leaves standing what the other calls have made sure of. -/
theorem frame_apply {q : Nat} (hq : q ≠ p) (hw : WritesOk host s p w) (hdb : Consistent s.db)
    (stage : Stage) : Frame host s q (s.finish p (s.db.apply w) stage) := by
  have hother : ∀ key key', s.locks key = some q → s.locks key' = some p → key' ≠ key := by
    rintro key _ hkey hkey' rfl
    exact hq (Option.some.inj (hkey.symm.trans hkey'))
  refine ⟨fun key hkey => ?_, fun r hr => ?_, fun id hid hfresh c hc => ?_,
    fun id hid hpending => ?_, evolves_apply hw hdb, fun approvalId contractId hbound => ?_⟩
  · show (if s.locks key = some p then none else s.locks key) = some q
    rw [hkey, if_neg fun h => hq (Option.some.inj h)]
  · have hrecord : ∀ recordId, Holds host s p recordId → recordId ≠ r := by
      rintro _ hlock rfl
      exact hother _ _ hr hlock rfl
    show rowsOf (s.db.apply w) r = rowsOf s.db r
    cases hconfirmed : w.confirmed with
    | some row =>
      have hrow := (hw.confirmed row hconfirmed).1
      rw [rowsOf_replace hw hdb hconfirmed]
      rw [List.map_congr_left fun c hc => ?_, List.map_id]
      refine if_neg fun hid => ?_
      obtain ⟨hmem, hr'⟩ := mem_rowsOf.1 hc
      exact hrecord _ hrow.lock (((hrow.replaceRow hdb hmem).2.1 hid).2.symm.trans hr')
    | none =>
      rw [rowsOf_insert hconfirmed]
      cases hinserted : w.inserted with
      | none => exact List.append_nil _
      | some row => simp [hrecord _ (hw.inserted row hinserted).1.lock]
  · cases hconfirmed : w.confirmed with
    | some row =>
      obtain ⟨c', hc', rfl⟩ := List.mem_map.1 (apply_confirmed hw hconfirmed ▸ hc)
      rw [((hw.confirmed row hconfirmed).1.replaceRow hdb hc').1.1]
      exact hfresh c' hc'
    | none =>
      rcases List.mem_append.1 (apply_inserted hconfirmed ▸ hc) with hc | hc
      · exact hfresh c hc
      · rintro rfl
        exact hother _ _ hid (hw.inserted c (Option.mem_toList.1 hc)).1.key rfl
  · show isPending (s.db.apply w) id
    unfold isPending
    rcases @approvals_apply s w id with hsame | ⟨status, hwritten, _⟩
    · rwa [hsame]
    · exact absurd rfl (hother _ _ hid (hw.approval id status hwritten).1)
  · obtain ⟨approval, happroval, hcontract⟩ := hbound
    rcases @approvals_apply s w approvalId with hsame | ⟨status, _, hwritten⟩
    · exact ⟨approval, hsame.trans happroval, hcontract⟩
    · rw [happroval] at hwritten
      exact ⟨_, hwritten, hcontract⟩

end

/-! ## What a statement does -/

/-- What a step does to contracts and approvals. -/
structure Settled (s : State) (a : Action) (t : State) : Prop where
  evolves : Evolves s.db t.db
  /-- a version is confirmed together with the approval that is bound to it -/
  confirmed : ∀ c ∈ s.db.contracts, c.status = .draft → ∀ c' ∈ t.db.contracts, c'.id = c.id →
    c'.status = .confirmed → ∃ approvalId approval, s.db.approvals approvalId = some approval ∧
      approval.status = .pending ∧ approval.acceptanceContractId = some c.id ∧
      t.db.approvals approvalId = some { approval with status := .approved }
  /-- an approval that is not pending stays; one that is approved has its version confirmed -/
  approvals : ∀ id approval, s.db.approvals id = some approval →
    t.db.approvals id = some approval ∨ approval.status = .pending ∧
      ((t.db.approvals id = some { approval with status := .approved } ∧
          ∃ c ∈ t.db.contracts, approval.acceptanceContractId = some c.id ∧
            c.status = .confirmed) ∨
        t.db.approvals id = some { approval with status := .denied } ∧
          t.db.contracts = s.db.contracts)
  /-- only a call that returns has changed anything -/
  unchanged : (∃ id approval, a = .request id approval) ∨
    (∃ p outcome, a = .advance p ∧ t.stage p = .returned outcome) ∨ t.db = s.db

/-- A step that changes nothing. -/
theorem Settled.of_db {s t : State} {a : Action} (hdb : Consistent s.db) (h : t.db = s.db) :
    Settled s a t := by
  refine ⟨by rw [h]; exact .refl _, fun c hc hdraft c' hc' hid hconfirmed => ?_, ?_, .inr (.inr h)⟩
  · rw [h] at hc'
    rw [hdb.eq_of_id hc' hc hid, hdraft] at hconfirmed
    cases hconfirmed
  · exact fun id approval happroval => .inl (h ▸ happroval)

section
variable {host : Host} {s : State} {p : Nat} {w : Writes}

theorem isPending_iff {db : Db} {id : Text} : isPending db id = true ↔
    ∃ approval, db.approvals id = some approval ∧ approval.status = .pending := by
  unfold isPending
  cases db.approvals id <;> simp

/-- A commit settles what it has made sure of. -/
theorem settled_apply (hw : WritesOk host s p w) (hdb : Consistent s.db) (outcome : Outcome) :
    Settled s (.advance p) (s.finish p (s.db.apply w) (.returned outcome)) := by
  refine ⟨evolves_apply hw hdb, fun c hc hdraft c' hc' hid hstatus => ?_,
    fun id approval happroval => ?_, .inr (.inl ⟨p, outcome, rfl, Function.update_self ..⟩)⟩
  · change c' ∈ (s.db.apply w).contracts at hc'
    cases hconfirmed : w.confirmed with
    | none =>
      rcases List.mem_append.1 (apply_inserted hconfirmed ▸ hc') with hold | hnew
      · rw [hdb.eq_of_id hold hc hid, hdraft] at hstatus
        cases hstatus
      · rw [(hw.inserted c' (Option.mem_toList.1 hnew)).1.draft] at hstatus
        cases hstatus
    | some row =>
      obtain ⟨hok, approvalId, hwritten, approval, happroval, hbound⟩ :=
        hw.confirmed row hconfirmed
      obtain ⟨a, ha, rfl⟩ := List.mem_map.1 (apply_confirmed hw hconfirmed ▸ hc')
      obtain ⟨⟨haid, _⟩, _⟩ := hok.replaceRow hdb ha
      obtain rfl := hdb.eq_of_id ha hc (haid.symm.trans hid)
      have hrow : a.id = row.id := by
        by_contra hne
        unfold replaceRow at hstatus
        rw [if_neg hne, hdraft] at hstatus
        cases hstatus
      obtain ⟨pending, hpending, hstatus'⟩ :=
        isPending_iff.1 (hw.approval approvalId .approved hwritten).2.1
      obtain rfl := Option.some.inj (happroval.symm.trans hpending)
      refine ⟨approvalId, approval, happroval, hstatus', hrow ▸ hbound, ?_⟩
      show (s.db.apply w).approvals approvalId = _
      unfold Db.apply
      rw [hwritten]
      dsimp only
      rw [if_pos rfl, happroval, Option.map_some]
  · rcases @approvals_apply s w id with hsame | ⟨status, hwritten, hnew⟩
    · exact .inl (hsame.trans happroval)
    rw [happroval, Option.map_some] at hnew
    obtain ⟨_, hpending, hwhat⟩ := hw.approval id status hwritten
    obtain ⟨pending, hpending, hstatus⟩ := isPending_iff.1 hpending
    obtain rfl := Option.some.inj (happroval.symm.trans hpending)
    refine .inr ⟨hstatus, ?_⟩
    rcases hwhat with ⟨rfl, hconfirmed, hinserted⟩ | ⟨rfl, contractId, hbound, hwhere⟩
    · refine .inr ⟨hnew, ?_⟩
      show (s.db.apply w).contracts = s.db.contracts
      rw [apply_inserted hconfirmed, hinserted]
      exact List.append_nil _
    · obtain ⟨bound, hfound, hcontract⟩ := hbound
      obtain rfl := Option.some.inj (happroval.symm.trans hfound)
      refine .inl ⟨hnew, ?_⟩
      show ∃ c ∈ (s.db.apply w).contracts, _
      rcases hwhere with ⟨row, hconfirmed, rfl⟩ | ⟨c, hc, rfl, hstatus⟩
      · obtain ⟨old, hold, _, confirmedBy, rfl⟩ := (hw.confirmed row hconfirmed).1.draft
        rw [apply_confirmed hw hconfirmed]
        exact ⟨_, List.mem_map.2 ⟨old, hold, if_pos rfl⟩, hcontract, rfl⟩
      · obtain ⟨c', hc', hsame, hstays⟩ := evolves_apply hw hdb c hc
        obtain rfl := hstays hstatus
        exact ⟨c', hc', hcontract, hstatus⟩

end

/-! ## Runs -/

def Inv (host : Host) (s : State) : Prop :=
  Consistent s.db ∧ ∀ p, StageOk host s p (s.stage p)

section
variable {host : Host} {s t : State} {p : Nat}

/-- What a step of a call keeps. -/
theorem Inv.step (h : Inv host s) {stage : Stage} (hdb : Consistent t.db)
    (hstages : t.stage = Function.update s.stage p stage)
    (hframe : ∀ q, q ≠ p → Frame host s q t) (hstage : StageOk host t p stage) : Inv host t := by
  refine ⟨hdb, fun q => ?_⟩
  rw [hstages]
  by_cases hq : q = p
  · rw [hq, Function.update_self]
    exact hstage
  · rw [Function.update_of_ne hq]
    exact (hframe q hq).stageOk (h.2 q)

theorem Inv.goto (h : Inv host s) {stage : Stage} (hstage : StageOk host s p stage) :
    Inv host (s.goto p stage) :=
  h.step h.1 rfl (fun _ _ => .of_db rfl fun _ hkey => hkey)
    ((@Frame.of_db host s (s.goto p stage) p rfl fun _ hkey => hkey).stageOk hstage)

/-- A call that breaks off keeps what holds. -/
theorem Inv.throw (h : Inv host s) (message : String) :
    Inv host (s.finish p s.db (.threw message)) := by
  refine h.step h.1 rfl (fun q hq => .of_db rfl fun key hkey => ?_) trivial
  show (if s.locks key = some p then none else s.locks key) = some q
  rw [hkey, if_neg fun hp => hq (Option.some.inj hp)]

theorem take_settled (h : Inv host s) {m : Move} (hm : MoveOk host s p m)
    (ht : s.take p m = some t) : Inv host t ∧ Settled s (.advance p) t := by
  cases m with
  | go stage =>
    cases ht
    exact ⟨h.goto hm, .of_db h.1 rfl⟩
  | take key stage =>
    dsimp only [State.take] at ht
    split at ht
    · next hfree =>
      cases ht
      have hlocks : ∀ q k, (k = key → q = p) → s.locks k = some q →
          Function.update s.locks key (some p) k = some q := by
        intro q k hq hk
        by_cases hkey : k = key
        · rw [hkey, Function.update_self, hq hkey]
        · rw [Function.update_of_ne hkey]
          exact hk
      refine ⟨h.step h.1 rfl (fun q hq => .of_db rfl fun k hk => hlocks q k ?_ hk) (hm _ rfl
        (fun k hk => hlocks p k (fun _ => rfl) hk) (Function.update_self ..)), .of_db h.1 rfl⟩
      rintro rfl
      rw [hk] at hfree
      simpa using hfree
    · cases ht
  | throw message =>
    cases ht
    exact ⟨h.throw message, .of_db h.1 rfl⟩
  | commit w outcome =>
    cases ht
    exact ⟨h.step (consistent_apply hm h.1) rfl
      (fun q hq => frame_apply hq hm h.1 _) trivial, settled_apply hm h.1 outcome⟩
  | none => cases ht

/-- What a statement, or what is asked for, does to contracts and approvals. -/
theorem step_settled {a : Action} (h : Inv host s) (ht : next host s a = some t) :
    Inv host t ∧ Settled s a t := by
  cases a with
  | createDraft p input =>
    unfold next at ht
    dsimp only at ht
    split at ht
    · split at ht
      · cases ht
        exact ⟨h.goto trivial, .of_db h.1 rfl⟩
      · cases ht
        exact ⟨h.goto trivial, .of_db h.1 rfl⟩
    · cases ht
  | resolve p input =>
    unfold next at ht
    dsimp only at ht
    split at ht
    · cases ht
      exact ⟨h.goto trivial, .of_db h.1 rfl⟩
    · cases ht
  | advance p => exact take_settled h (move_ok h.1 (h.2 p)) ht
  | abort p =>
    unfold next at ht
    dsimp only at ht
    split at ht <;> cases ht
    exact ⟨h.throw _, .of_db h.1 rfl⟩
  | request id approval =>
    unfold next at ht
    dsimp only at ht
    split at ht
    · next hnew =>
      cases ht
      rw [Bool.and_eq_true, Option.isNone_iff_eq_none] at hnew
      have hstays : ∀ id' approval', s.db.approvals id' = some approval' →
          Function.update s.db.approvals id (some approval) id' = some approval' := by
        intro id' approval' happroval
        rw [Function.update_of_ne]
        · exact happroval
        · rintro rfl
          rw [hnew.1] at happroval
          cases happroval
      have hframe : ∀ q, Frame host s q { s with db := { s.db with
          approvals := Function.update s.db.approvals id (some approval) } } := by
        intro q
        refine ⟨fun _ hkey => hkey, fun _ _ => rfl, fun _ _ hfresh => hfresh, ?_, .refl _, ?_⟩
        · intro id' _ hpending
          obtain ⟨approval', happroval, hstatus⟩ := isPending_iff.1 hpending
          exact isPending_iff.2 ⟨approval', hstays id' approval' happroval, hstatus⟩
        · rintro id' contractId ⟨approval', happroval, hcontract⟩
          exact ⟨approval', hstays id' approval' happroval, hcontract⟩
      refine ⟨⟨⟨h.1.ids, h.1.numbered, h.1.single⟩, fun q => (hframe q).stageOk (h.2 q)⟩,
        (hframe 0).evolves, fun c hc hdraft c' hc' hid hconfirmed => ?_,
        fun id' approval' happroval => .inl (hstays id' approval' happroval),
        .inl ⟨id, approval, rfl⟩⟩
      rw [h.1.eq_of_id hc' hc hid, hdraft] at hconfirmed
      cases hconfirmed
    · cases ht

/-- A call that has returned takes no step. -/
theorem returned_stays {a : Action} {outcome : Outcome} (ht : next host s a = some t)
    (h : s.stage p = .returned outcome) : t.stage p = .returned outcome := by
  have hupdate : ∀ q stage, q ≠ p → Function.update s.stage q stage p = .returned outcome := by
    intro q stage hq
    rw [Function.update_of_ne (Ne.symm hq)]
    exact h
  cases a with
  | createDraft q input =>
    dsimp only [next] at ht
    split at ht
    · next hidle =>
      have hq : q ≠ p := by
        rintro rfl
        rw [h] at hidle
        cases hidle
      split at ht <;> cases ht <;> exact hupdate q _ hq
    · cases ht
  | resolve q input =>
    dsimp only [next] at ht
    split at ht
    · next hidle =>
      cases ht
      refine hupdate q _ ?_
      rintro rfl
      rw [h] at hidle
      cases hidle
    · cases ht
  | advance q =>
    have hq : q ≠ p := by
      rintro rfl
      dsimp only [next] at ht
      rw [h] at ht
      cases ht
    dsimp only [next] at ht
    unfold State.take at ht
    split at ht
    · cases ht
      exact hupdate q _ hq
    · split at ht
      · cases ht
        exact hupdate q _ hq
      · cases ht
    · cases ht
      exact hupdate q _ hq
    · cases ht
      exact hupdate q _ hq
    · cases ht
  | abort q =>
    have hq : q ≠ p := by
      rintro rfl
      dsimp only [next] at ht
      rw [h] at ht
      cases ht
    dsimp only [next] at ht
    split at ht <;> cases ht
    exact hupdate q _ hq
  | request id approval =>
    dsimp only [next] at ht
    split at ht
    · cases ht
      exact h
    · cases ht

/-- **Contracts.** However the calls are interleaved, the versions of every record are numbered
without a gap and at most one of them is confirmed (`Consistent`); a version stays what it is, a
confirmed one stays confirmed, and it is confirmed together with an approval that is bound to it
(`Settled`); and a call that ends in an error has changed nothing. -/
theorem confirmed_exactly (host : Host) {db : Db} (hdb : Consistent db) {as : List Action}
    {s : State} (hs : Runs.run (next host) (start db) as = some s) :
    Consistent s.db ∧ (∀ a t, next host s a = some t → Settled s a t) ∧
      (∀ bs t, Runs.run (next host) s bs = some t → Evolves s.db t.db) ∧
      ∀ p t bs u message, next host s (.advance p) = some t →
        Runs.run (next host) t bs = some u → u.stage p = .threw message → t.db = s.db := by
  have hinv : Inv host s :=
    Runs.invariant (fun _ _ _ ht h => (step_settled h ht).1) hs ⟨hdb, fun _ => trivial⟩
  refine ⟨hinv.1, fun a t ht => (step_settled hinv ht).2, fun bs t hrun => ?_,
    fun p t bs u message ht hrun hthrew => ?_⟩
  · have hkeeps : ∀ x a y, next host x a = some y → Inv host x ∧ Evolves s.db x.db →
        Inv host y ∧ Evolves s.db y.db := fun x a y hy h =>
      ⟨(step_settled h.1 hy).1, h.2.trans (step_settled h.1 hy).2.evolves⟩
    exact (Runs.invariant hkeeps hrun ⟨hinv, .refl _⟩).2
  · rcases (step_settled hinv ht).2.unchanged with ⟨_, _, ha⟩ | ⟨q, outcome, ha, hreturned⟩ | hsame
    · cases ha
    · cases ha
      have hstays := Runs.invariant (fun _ _ _ hy h => returned_stays hy h) hrun hreturned
      rw [hthrew] at hstays
      cases hstays
    · exact hsame

end

/-! ## A draft and two approvals of it -/

def sampleHost : Host where
  hashtext _ := 0
  contractId recordId version := recordId ++ '/' :: decimal version

def sampleContract : Json := .obj [
  ("originalRequest".toList, .str "Add a page".toList),
  ("normalizedRequirements".toList, .arr []),
  ("acceptanceCriteria".toList, .arr [.obj [("id".toList, .str "ac-1".toList),
    ("text".toList, .str "The page loads".toList), ("userVisible".toList, .bool true)]]),
  ("nonGoals".toList, .arr []), ("risks".toList, .arr []), ("stops".toList, .arr []),
  ("environment".toList, .obj []), ("unresolvedQuestions".toList, .arr [])]

def sampleDb : Db where
  records recordId := if recordId = ['r'] then some ['w'] else none
  contracts := []
  events := []
  approvals _ := none

def sampleApproval : Approval where
  workspaceId := some ['w']
  status := .pending
  toolName := "confirm_acceptance_contract".toList
  acceptanceContractId := some "r/1".toList

/-- A draft is written; both approvals have read it before the first confirms it. -/
def sampleRun : List Action :=
  [.createDraft 0 ⟨['r'], sampleContract, ['u']⟩] ++ List.replicate 5 (.advance 0) ++
    [.request ['a'] sampleApproval, .request ['b'] sampleApproval,
      .resolve 1 ⟨['w'], ['a'], true, ['u']⟩, .resolve 2 ⟨['w'], ['b'], true, ['u']⟩] ++
    List.replicate 3 (.advance 1) ++ List.replicate 3 (.advance 2) ++
    List.replicate 6 (.advance 1) ++ List.replicate 4 (.advance 2)

theorem sampleRun_ends : (Runs.run (next sampleHost) (start sampleDb) sampleRun).any fun s =>
    s.db.contracts.map Contract.status = [.confirmed] ∧
      (s.db.approvals ['b']).map Approval.status = some .approved := by
  decide +kernel

/-- `confirmed_exactly` of such a run. -/
theorem confirmed_exactly_sample : ∃ s, Runs.run (next sampleHost) (start sampleDb) sampleRun =
    some s ∧ Consistent s.db ∧ ∀ a t, next sampleHost s a = some t → Settled s a t := by
  obtain ⟨s, hs, _⟩ := (Option.any_eq_true _ _).1 sampleRun_ends
  have hdb : Consistent sampleDb :=
    ⟨List.nodup_nil, fun _ => rfl, fun _ hc => absurd hc List.not_mem_nil⟩
  obtain ⟨hconsistent, hsettled, _⟩ := confirmed_exactly sampleHost hdb hs
  exact ⟨s, hs, hconsistent, hsettled⟩

end Agentrail.AcceptanceContract
