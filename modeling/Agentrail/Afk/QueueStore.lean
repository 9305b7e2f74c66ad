import Agentrail.Afk.QueueState
import Agentrail.Lib.Table

/-!
# The persistence edge of the queue (`afk/queue_store.py`)

A `QueueEntry` carries only a number, so the store keeps for every number the row
that it was enqueued or rehydrated from last (`identity`) and writes to that.  Each
operation is the function of the source from the process's memory and the tables
to what it returns or raises and the state it leaves; what the driver answers is
its argument (`Driver`).
-/

namespace Agentrail.AfkQueue

open Py

/-- What the store takes from the interpreter and its environment. -/
structure Host where
  gate : InputContract.Interpreter
  /-- `os.environ.get(_V2_FLAG) == "1"` -/
  guardrailsV2 : Bool
  /-- `c.isdigit()` -/
  isDigit : Char → Bool
  /-- `str(uuid.uuid5(uuid.NAMESPACE_URL, name))` -/
  uuid5 : Text → Text

inductive StoreError where
  | raised (error : PyError)
  /-- `KeyError` of the identity map -/
  | unknownEntry (number : Nat)
  /-- what the database driver raised -/
  | driver
  deriving DecidableEq, Repr

/-! ## Tables -/

structure Row where
  id : Text
  workspaceId : Text
  source : Text
  externalId : Text
  title : Text
  body : Text
  tier : Int
  remainingBudget : Int
  state : String
  blockedBy : List Nat
  parkReason : Option String
  createdAt : Int
  updatedAt : Int
  deriving DecidableEq

structure RunRow where
  id : Text
  workspaceId : Text
  queueEntryId : Text
  phase : Text
  status : String
  costUsd : Rat
  updatedAt : Int
  repositoryId : Text
  agent : Text
  branch : Text
  deriving DecidableEq

structure Database where
  entries : Table Row [Row.id]
  runs : Table RunRow [RunRow.id]
  deriving DecidableEq

/-- What comes back from the driver during one call, and the clock. -/
structure Driver where
  now : Int
  /-- `time.time()` of the gate, in microseconds -/
  gateNow : Int := 0
  /-- the `require_alignment` of the rows found, or an exception -/
  workspaceRows : Option (List (Option Bool)) := some []
  /-- the order in which rows with one `created_at` come -/
  scan : Row → Nat := fun _ => 0
  writeFails : Bool := false

/-! ## Values -/

def State.value : State → String
  | .live .queued => "queued"
  | .live .parked => "parked"
  | .live .running => "running"
  | .terminal .green => "green"
  | .terminal .escalatedToHuman => "escalated-to-human"
  | .terminal .blocked => "blocked"

/-- `_parse_state`. -/
def parseState (value : String) : Except PyError State :=
  let members : List State := [.live .queued, .live .parked, .live .running, .terminal .green,
    .terminal .escalatedToHuman, .terminal .blocked]
  match members.find? fun member => member.value = value with
  | some member => .ok member
  | none => .error (.valueError ("unknown persisted state: '" ++ value ++ "'"))

def runStatusEnum : List (Text × String) :=
  [("queued".toList, "queued"), ("running".toList, "running"), ("success".toList, "success"),
   ("failed".toList, "failed"), ("green".toList, "success"), ("red".toList, "failed"),
   ("error".toList, "failed")]

/-- `_normalize_run_status`. -/
def normalizeRunStatus (host : Host) (status : Text) : String :=
  (getItem (host.gate.lower status) runStatusEnum).getD "failed"

/-- `_writer_for_source`. -/
def writerForSource (source : Text) : InputContract.WriterClass :=
  if source = "eval".toList then .evalAutoticket
  else if source = "jace".toList then .jace
  else .humanGithub

/-- `zlib.crc32`. -/
def crc32 (data : Bytes) : Nat :=
  let shifted (crc : Nat) : Nat := if crc % 2 = 1 then (crc / 2) ^^^ 0xedb88320 else crc / 2
  let taken (crc : Nat) (b : UInt8) : Nat := shifted^[8] (crc ^^^ b.toNat)
  data.foldl taken 0xffffffff ^^^ 0xffffffff

example : crc32 (utf8Encode "123456789".toList) = 0xcbf43926 := by decide +kernel

/-- `_entry_number`; `int` refuses digits that are not decimal and more than 4300 of them. -/
def entryNumber (host : Host) (workspaceId source externalId : Text) : Except PyError Nat :=
  if externalId ≠ [] ∧ externalId.all host.isDigit then
    if externalId.all isDecimal ∧ externalId.length ≤ 4300 then .ok (intOfDecimal externalId)
    else .error (.valueError "invalid literal for int() with base 10")
  else .ok (crc32 (utf8Encode (workspaceId ++ ':' :: source ++ ':' :: externalId)))

/-- `_entry_uuid`. -/
def entryUuid (host : Host) (workspaceId source externalId : Text) : Text :=
  host.uuid5 ("agentrail-queue:".toList ++ workspaceId ++ ':' :: source ++ ':' :: externalId)

/-! ## Statements -/

/-- `update_entry`: the row that takes the state of an entry. -/
def Row.withState (row : Row) (entry : QueueEntry) (now : Int) : Row :=
  { row with
    tier := entry.tier.value
    remainingBudget := entry.remainingBudget
    state := entry.state.value
    blockedBy := entry.blockedBy.sort (· ≤ ·)
    parkReason := if entry.reason = "" then none else some entry.reason
    updatedAt := now }

theorem withState_keeps (entry : QueueEntry) (now : Int) :
    Table.Keeps [Row.id] fun row => row.withState entry now := by
  intro key hkey row
  rw [List.mem_singleton.mp hkey]
  rfl

namespace Database

/-- `insert_entry`. -/
def insertEntry (db : Database) (row : Row) : Database :=
  { db with entries := (db.entries.insert row).getD db.entries }

def updateEntry (db : Database) (id : Text) (entry : QueueEntry) (now : Int) : Database :=
  { db with
    entries := db.entries.update (fun row => row.id = id) (fun row => row.withState entry now)
      (withState_keeps entry now) }

/-- The set list of `upsert_run` on a conflict. -/
def excluded (run row : RunRow) : RunRow :=
  { row with
    workspaceId := run.workspaceId
    queueEntryId := run.queueEntryId
    phase := run.phase
    status := run.status
    costUsd := run.costUsd
    updatedAt := run.updatedAt }

theorem excluded_keeps (run : RunRow) : Table.Keeps [RunRow.id] (excluded run) := by
  intro key hkey row
  rw [List.mem_singleton.mp hkey]
  rfl

def upsertRun (db : Database) (run : RunRow) : Database :=
  { db with
    runs := (db.runs.insert run).getD
      (db.runs.update (fun row => row.id = run.id) (excluded run) (excluded_keeps run)) }

/-- `next_grabbable`. -/
def nextGrabbable (db : Database) (driver : Driver) (workspaceId : Text) : List Row :=
  (Table.firstBy Row.createdAt driver.scan
    (db.entries.select fun row => row.workspaceId = workspaceId ∧ row.state = "queued")).toList

/-- `list_queue`. -/
def listQueue (db : Database) (driver : Driver) (workspaceId : Text) : List Row :=
  (db.entries.select fun row => row.workspaceId = workspaceId).mergeSort fun a b =>
    a.createdAt < b.createdAt ∨ a.createdAt = b.createdAt ∧ driver.scan a ≤ driver.scan b

end Database

/-! ## The store -/

structure Identity where
  id : Text
  workspaceId : Text
  source : Text
  externalId : Text
  deriving DecidableEq, Repr

def Row.identity (row : Row) : Identity where
  id := row.id
  workspaceId := row.workspaceId
  source := row.source
  externalId := row.externalId

structure QueueStore where
  identity : Dict Nat Identity := .empty
  ledger : InputContract.AdmissionLedger := {}

structure Issue where
  workspaceId : Text
  source : Text
  externalId : Text
  title : Text
  body : Text
  blockedBy : Finset Nat := ∅

inductive Enqueued where
  | entry (entry : QueueEntry)
  | rejected (missingAc : String)
  deriving DecidableEq

namespace QueueStore

/-- `self._identity[number] = {…}`. -/
def remember (store : QueueStore) (number : Nat) (row : Row) : QueueStore :=
  { store with identity := store.identity.set number row.identity }

/-- The gate of `enqueue`; without the flag it runs on no ledger. -/
def admission (host : Host) (store : QueueStore) (number : Nat) (issue : Issue)
    (driver : Driver) : InputContract.Admission :=
  let request : InputContract.Request :=
    { number := number, blockedBy := issue.blockedBy.sort (· ≤ ·) }
  if host.guardrailsV2 then
    InputContract.admitToQueue host.gate request issue.body (writerForSource issue.source)
      store.ledger true driver.gateNow
  else
    InputContract.admitToQueue host.gate request issue.body .humanGithub {} false driver.gateNow

def issueRow (host : Host) (issue : Issue) (entry : QueueEntry) (now : Int) : Row where
  id := entryUuid host issue.workspaceId issue.source issue.externalId
  workspaceId := issue.workspaceId
  source := issue.source
  externalId := issue.externalId
  title := issue.title
  body := issue.body
  tier := entry.tier.value
  remainingBudget := entry.remainingBudget
  state := entry.state.value
  blockedBy := entry.blockedBy.sort (· ≤ ·)
  parkReason := if entry.reason = "" then none else some entry.reason
  createdAt := now
  updatedAt := now

/-- `_workspace_requires_alignment`. -/
def workspaceRequiresAlignment (driver : Driver) : Except StoreError Bool :=
  match driver.workspaceRows with
  | none => .error .driver
  | some [] => .ok true
  | some (requireAlignment :: _) => .ok (requireAlignment.getD true)

/-- The entry of an issue that passed the gate. -/
def held (issue : Issue) (gated : InputContract.QueueEntry) (driver : Driver) :
    Except StoreError QueueEntry :=
  let entry := admitEntry (.ofGate gated) issue.blockedBy
  if gated.state = .parked then .ok entry
  else
    (workspaceRequiresAlignment driver).map fun required =>
      applyAdmissionAlignment entry (!required)

/-- `enqueue` up to where the entry is persisted. -/
def gateIssue (host : Host) (store : QueueStore) (issue : Issue) (driver : Driver) :
    Except StoreError Enqueued × QueueStore :=
  match entryNumber host issue.workspaceId issue.source issue.externalId with
  | .error error => (.error (.raised error), store)
  | .ok number =>
    let gate := admission host store number issue driver
    let store := if host.guardrailsV2 then { store with ledger := gate.ledger } else store
    match gate with
    | .rejected missingAc _ => (.ok (.rejected missingAc), store)
    | .entry gated _ => ((held issue gated driver).map .entry, store)

def enqueue (host : Host) (store : QueueStore) (db : Database) (issue : Issue) (driver : Driver) :
    Except StoreError Enqueued × QueueStore × Database :=
  match gateIssue host store issue driver with
  | (.ok (.entry entry), store) =>
    let row := issueRow host issue entry driver.now
    let store := store.remember entry.number row
    if driver.writeFails then (.error .driver, store, db)
    else (.ok (.entry entry), store, db.insertEntry row)
  | (refused, store) => (refused, store, db)

def readEntry (number : Nat) (row : Row) : Except PyError QueueEntry := do
  let state ← parseState row.state
  let tier ← Tier.ofValue row.tier
  .ok { number := number, tier := tier, remainingBudget := row.remainingBudget, state := state,
        blockedBy := row.blockedBy.toFinset, reason := row.parkReason.getD "" }

/-- `_row_to_entry`; the identity is set before the columns are read. -/
def rowToEntry (host : Host) (store : QueueStore) (row : Row) :
    Except PyError QueueEntry × QueueStore :=
  match entryNumber host row.workspaceId row.source row.externalId with
  | .error error => (.error error, store)
  | .ok number => (readEntry number row, store.remember number row)

/-- `[self._row_to_entry(r) for r in rows]`. -/
def rowsToEntries (host : Host) (store : QueueStore) :
    List Row → Except PyError (List QueueEntry) × QueueStore
  | [] => (.ok [], store)
  | row :: rows =>
    match rowToEntry host store row with
    | (.error error, store) => (.error error, store)
    | (.ok entry, store) =>
      let rest := rowsToEntries host store rows
      (rest.1.map (entry :: ·), rest.2)

def nextGrabbable (host : Host) (store : QueueStore) (db : Database) (workspaceId : Text)
    (driver : Driver) : Except PyError (Option QueueEntry) × QueueStore :=
  match db.nextGrabbable driver workspaceId with
  | [] => (.ok none, store)
  | row :: _ =>
    let read := rowToEntry host store row
    (read.1.map some, read.2)

def listQueue (host : Host) (store : QueueStore) (db : Database) (workspaceId : Text)
    (driver : Driver) : Except PyError (List QueueEntry) × QueueStore :=
  rowsToEntries host store (db.listQueue driver workspaceId)

/-- `transition` with `_persist_state`. -/
def transition (store : QueueStore) (db : Database) (entry : QueueEntry) (event : Event)
    (driver : Driver) : Except StoreError QueueEntry × Database :=
  match AfkQueue.transition entry event with
  | .error error => (.error (.raised error), db)
  | .ok nxt =>
    match store.identity.get nxt.number with
    | none => (.error (.unknownEntry nxt.number), db)
    | some ident =>
      if driver.writeFails then (.error .driver, db)
      else (.ok nxt, db.updateEntry ident.id nxt driver.now)

structure RunState where
  runId : Text
  phase : Text
  status : Text
  costUsd : Rat := 0

def runRow (host : Host) (ident : Identity) (run : RunState) (now : Int) : RunRow where
  id := run.runId
  workspaceId := ident.workspaceId
  queueEntryId := ident.id
  phase := run.phase
  status := normalizeRunStatus host run.status
  costUsd := run.costUsd
  updatedAt := now
  repositoryId := ident.externalId
  agent := ident.source
  branch := "afk/".toList ++ ident.source ++ '-' :: ident.externalId

def registerRun (host : Host) (store : QueueStore) (db : Database) (entry : QueueEntry)
    (run : RunState) (driver : Driver) : Except StoreError Unit × Database :=
  match store.identity.get entry.number with
  | none => (.error (.unknownEntry entry.number), db)
  | some ident =>
    if driver.writeFails then (.error .driver, db)
    else (.ok (), db.upsertRun (runRow host ident run driver.now))

end QueueStore

end Agentrail.AfkQueue
