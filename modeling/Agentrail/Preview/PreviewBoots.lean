import Agentrail.Js.Basic
import Agentrail.Lib.Runs
import Agentrail.Lib.Table

/-!
# The boot queue (`preview_boots.ts`)

A preview boot is requested for a head of a pull request, claimed by a runner that
boots it and reports on it, and ended by a report, by the sweeps or by a newer head.

`Action` has one constructor for each SQL statement of the module.  The statements
of an enqueue are those of one transaction: it waits for the advisory lock of its
pull request, its row is seen by no one before the commit, and the rows that it
superseded are locked until then.  A statement that has to wait is not enabled
(`next` is `none`).  Times count microseconds.
-/

namespace Agentrail.Preview

open Js

/-! ## The table -/

inductive PreviewBootStatus where
  | pending
  | claimed
  | booting
  | ready
  | failed
  | tornDown
  deriving DecidableEq, Repr

structure PreviewBootRow where
  id : Text
  workspaceId : Text
  repo : Text
  prNumber : Nat
  headSha : Text
  ref : Text
  status : PreviewBootStatus := .pending
  workerId : Option Text := none
  claimedAt : Option Int := none
  url : Option Text := none
  port : Option Int := none
  bootLogKey : Option Text := none
  reason : Option Text := none
  attempts : Nat := 0
  expiresAt : Option Int := none
  lastLivenessAt : Option Int := none
  nextEligibleAt : Option Int := none
  createdAt : Int := 0
  updatedAt : Int := 0
  deriving DecidableEq

/-- The primary key. -/
def previewBootKeys : List (PreviewBootRow → Text) := [PreviewBootRow.id]

abbrev PreviewBootTable := Table PreviewBootRow previewBootKeys

theorem keeps_previewBootKeys (f : PreviewBootRow → PreviewBootRow) (hid : ∀ r, (f r).id = r.id) :
    Table.Keeps previewBootKeys f := by
  intro key hkey r
  obtain rfl := List.mem_singleton.mp hkey
  exact hid r

def isTerminal (r : PreviewBootRow) : Bool := r.status = .failed || r.status = .tornDown

/-- `status IN ('claimed', 'booting', 'ready')`. -/
def isHeld (r : PreviewBootRow) : Bool :=
  r.status = .claimed || r.status = .booting || r.status = .ready

/-- `status IN ('pending', 'claimed', 'booting', 'ready')`. -/
def isLive (r : PreviewBootRow) : Bool := r.status = .pending || isHeld r

theorem isLive_eq (r : PreviewBootRow) : isLive r = !isTerminal r := by
  unfold isLive isHeld isTerminal
  cases r.status <;> rfl

/-! ## Ids -/

structure Host where
  /-- `uuid5Url`: the SHA-1 hash of the name in the URL namespace -/
  uuid5Url : Text → Text
  /-- `hashtext` of the database -/
  hashtext : Text → Int

structure EnqueuePreviewBootInput where
  workspaceId : Text
  repo : Text
  prNumber : Nat
  headSha : Text
  ref : Text
  deriving DecidableEq

def pullRequestKey (workspaceId repo : Text) (prNumber : Nat) : Text :=
  workspaceId ++ ":".toList ++ repo ++ ":".toList ++ decimal prNumber

def previewBootId (host : Host) (workspaceId repo : Text) (prNumber : Nat) (headSha : Text)
    (cycleId : Text) : Text :=
  if cycleId ≠ [] then
    host.uuid5Url ("preview-boot-cycle:".toList ++ pullRequestKey workspaceId repo prNumber ++
      ":".toList ++ headSha ++ ":".toList ++ cycleId)
  else
    host.uuid5Url ("preview-boot:".toList ++ pullRequestKey workspaceId repo prNumber ++
      ":".toList ++ headSha)

def lockKey (input : EnqueuePreviewBootInput) : Text :=
  "preview-boot:".toList ++ pullRequestKey input.workspaceId input.repo input.prNumber

/-! ## What the statements set and select -/

def STALE_SECONDS : Int := 180000000

def PENDING_STALE_SECONDS : Int := 600000000

def newRow (host : Host) (input : EnqueuePreviewBootInput) (now : Int) : PreviewBootRow where
  id := previewBootId host input.workspaceId input.repo input.prNumber input.headSha []
  workspaceId := input.workspaceId
  repo := input.repo
  prNumber := input.prNumber
  headSha := input.headSha
  ref := input.ref
  createdAt := now
  updatedAt := now

/-- The `WHERE` clause of the supersede. -/
def supersedes (input : EnqueuePreviewBootInput) (r : PreviewBootRow) : Bool :=
  r.workspaceId = input.workspaceId && r.repo = input.repo && r.prNumber = input.prNumber &&
    r.headSha ≠ input.headSha && isLive r

def supersededRow (now : Int) (r : PreviewBootRow) : PreviewBootRow :=
  { r with status := .tornDown, reason := some "superseded".toList, updatedAt := now }

def isStale (now : Int) (r : PreviewBootRow) : Bool :=
  isHeld r && r.lastLivenessAt.any fun t => t < now - STALE_SECONDS

def staleRow (now : Int) (r : PreviewBootRow) : PreviewBootRow :=
  { r with status := .failed, reason := some "stale".toList, updatedAt := now }

def isNeverClaimed (now : Int) (r : PreviewBootRow) : Bool :=
  r.status = .pending && r.createdAt < now - PENDING_STALE_SECONDS

def neverClaimedRow (now : Int) (r : PreviewBootRow) : PreviewBootRow :=
  { r with status := .failed, reason := some "never_claimed".toList, updatedAt := now }

def claimedRow (workerId : Text) (ttl now : Int) (r : PreviewBootRow) : PreviewBootRow :=
  { r with
    status := .claimed
    workerId := some workerId
    claimedAt := some now
    expiresAt := some (now + ttl)
    lastLivenessAt := some now
    updatedAt := now }

/-- The status of a report. -/
inductive ReportStatus where
  | booting
  | ready
  | failed
  | tornDown
  deriving DecidableEq, Repr

structure ReportPreviewBootInput where
  id : Text
  workerId : Text
  status : ReportStatus
  url : Option Text := none
  port : Option Int := none
  reason : Option Text := none

/-- The `WHERE` clause of the report, which depends on its status. -/
def accepts (input : ReportPreviewBootInput) (r : PreviewBootRow) : Bool :=
  r.id = input.id && r.workerId = some input.workerId &&
    match input.status with
    | .booting => r.status = .claimed || r.status = .booting
    | .ready => r.status = .claimed || r.status = .booting || r.status = .ready
    | .failed | .tornDown => !isTerminal r

def reportedRow (input : ReportPreviewBootInput) (now : Int) (r : PreviewBootRow) :
    PreviewBootRow :=
  let touched := { r with lastLivenessAt := some now, updatedAt := now }
  match input.status with
  | .booting => { touched with status := .booting }
  | .ready =>
    { touched with status := .ready, url := input.url.or r.url, port := input.port.or r.port }
  | .failed => { touched with status := .failed, reason := input.reason }
  | .tornDown => { touched with status := .tornDown, reason := input.reason }

theorem id_reportedRow (input : ReportPreviewBootInput) (now : Int) (r : PreviewBootRow) :
    (reportedRow input now r).id = r.id := by
  unfold reportedRow
  cases input.status <;> rfl

/-! ## Transactions -/

/-- How far the transaction of an enqueue got. -/
inductive Phase where
  | waiting
  | locked
  | deduped
  | inserted (row : PreviewBootRow)
  | superseded (row : PreviewBootRow) (ids : List Text)
  deriving DecidableEq

structure Transaction where
  number : Nat
  input : EnqueuePreviewBootInput
  /-- `now()` of its statements -/
  startedAt : Int
  phase : Phase
  deriving DecidableEq

namespace Transaction

def holdsLock (t : Transaction) : Bool := t.phase ≠ .waiting

/-- The row that it inserted. -/
def row (t : Transaction) : Option PreviewBootRow :=
  match t.phase with
  | .inserted row | .superseded row _ => some row
  | _ => none

/-- The rows that it wrote. -/
def lockedIds (t : Transaction) : List Text :=
  match t.phase with
  | .superseded _ ids => ids
  | _ => []

end Transaction

structure Store where
  boots : PreviewBootTable
  transactions : List Transaction
  started : Nat
  now : Int
  /-- the boots that claims returned, and to which runner, the newest first -/
  claims : List (Text × Text)

def emptyStore (now : Int) : Store where
  boots := .empty
  transactions := []
  started := 0
  now := now
  claims := []

namespace Store

def transaction (s : Store) (number : Nat) : Option Transaction :=
  s.transactions.find? fun t => t.number = number

def setPhase (s : Store) (number : Nat) (phase : Phase) : Store :=
  { s with
    transactions := s.transactions.map fun t =>
      if t.number = number then { t with phase := phase } else t }

def close (s : Store) (number : Nat) : Store :=
  { s with transactions := s.transactions.filter fun t => t.number ≠ number }

def ids (s : Store) : List Text := s.boots.rows.map PreviewBootRow.id

/-- An open transaction wrote the row. -/
def isLocked (s : Store) (r : PreviewBootRow) : Bool :=
  s.transactions.any fun t => t.lockedIds.contains r.id

/-- `UPDATE preview_boots SET f WHERE p`, which waits for locked rows. -/
def update (s : Store) (p : PreviewBootRow → Bool) (f : PreviewBootRow → PreviewBootRow)
    (hf : ∀ r, (f r).id = r.id) : Option Store :=
  if (s.boots.select p).any s.isLocked then none
  else some { s with boots := s.boots.update p f (keeps_previewBootKeys f hf) }

end Store

/-- How a claim finds the table: the rows that other statements hold locked, which it skips, and
the order in which it reads the rest, which decides between equal times. -/
structure Scan where
  locked : PreviewBootRow → Bool := fun _ => false
  order : PreviewBootRow → Nat := fun _ => 0

def Store.claimable (s : Store) (scan : Scan) (r : PreviewBootRow) : Bool :=
  r.status = .pending && r.nextEligibleAt.all (· ≤ s.now) && !s.isLocked r && !scan.locked r

def Store.nextClaim (s : Store) (scan : Scan) : Option PreviewBootRow :=
  Table.firstBy PreviewBootRow.createdAt scan.order (s.boots.select (s.claimable scan))

/-! ## Statements -/

inductive Action where
  | begin (input : EnqueuePreviewBootInput)
  | lock (number : Nat)
  | insert (number : Nat)
  | supersede (number : Nat)
  | commit (number : Nat)
  | rollback (number : Nat)
  | expireStale
  | expireNeverClaimed
  | claimOldest (workerId : Text) (ttl : Int) (scan : Scan)
  | report (input : ReportPreviewBootInput)
  /-- the clock goes on -/
  | wait (time : Nat)

section
variable (host : Host)

def lockFree (s : Store) (input : EnqueuePreviewBootInput) : Bool :=
  s.transactions.all fun t =>
    !t.holdsLock || host.hashtext (lockKey t.input) ≠ host.hashtext (lockKey input)

def next (s : Store) : Action → Option Store
  | .begin input =>
    some { s with
      transactions := { number := s.started, input := input, startedAt := s.now,
                        phase := .waiting } :: s.transactions
      started := s.started + 1 }
  | .lock number => do
    let t ← s.transaction number
    match t.phase with
    | .waiting => if lockFree host s t.input then some (s.setPhase number .locked) else none
    | _ => none
  | .insert number => do
    let t ← s.transaction number
    match t.phase with
    | .locked =>
      let row := newRow host t.input t.startedAt
      -- an uncommitted row of the same id decides at its commit
      if s.transactions.any fun t' => t'.row.any fun r => r.id = row.id then none
      else if row.id ∈ s.ids then some (s.setPhase number .deduped)
      else some (s.setPhase number (.inserted row))
    | _ => none
  | .supersede number => do
    let t ← s.transaction number
    match t.phase with
    | .inserted row =>
      let selected := s.boots.select (supersedes t.input)
      if selected.any s.isLocked then none
      else some (s.setPhase number (.superseded row (selected.map PreviewBootRow.id)))
    | _ => none
  | .commit number => do
    let t ← s.transaction number
    match t.phase with
    | .deduped => some (s.close number)
    | .superseded row ids =>
      let boots := s.boots.update (fun r => ids.contains r.id) (supersededRow t.startedAt)
        (keeps_previewBootKeys _ fun _ => rfl)
      some { s.close number with boots := (boots.insert row).getD boots }
    | _ => none
  | .rollback number => (s.transaction number).map fun _ => s.close number
  | .expireStale => s.update (isStale s.now) (staleRow s.now) fun _ => rfl
  | .expireNeverClaimed => s.update (isNeverClaimed s.now) (neverClaimedRow s.now) fun _ => rfl
  | .claimOldest workerId ttl scan =>
    match s.nextClaim scan with
    | none => some s
    | some row =>
      some { s with
        boots := s.boots.update (fun r => r.id = row.id) (claimedRow workerId ttl s.now)
          (keeps_previewBootKeys _ fun _ => rfl)
        claims := (row.id, workerId) :: s.claims }
  | .report input => s.update (accepts input) (reportedRow input s.now) (id_reportedRow input s.now)
  | .wait time => some { s with now := s.now + time }

end

/-! ## The functions of the module -/

structure EnqueuePreviewBootResult where
  id : Text
  deduped : Bool
  superseded : Nat
  deriving DecidableEq, Repr

/-- What an enqueue returns when its transaction commits. -/
def Transaction.result (host : Host) (t : Transaction) : EnqueuePreviewBootResult where
  id := (newRow host t.input t.startedAt).id
  deduped := t.row.isNone
  superseded := t.lockedIds.length

def enqueuePreviewBoot (input : EnqueuePreviewBootInput) (number : Nat) (deduped : Bool) :
    List Action :=
  if deduped then [.begin input, .lock number, .insert number, .commit number]
  else [.begin input, .lock number, .insert number, .supersede number, .commit number]

def expireStalePreviewBoots : List Action := [.expireStale, .expireNeverClaimed]

def claimPreviewBoot (workerId : Text) (ttl : Int) (scan : Scan) : List Action :=
  expireStalePreviewBoots ++ [.claimOldest workerId ttl scan]

def reportPreviewBoot (input : ReportPreviewBootInput) : List Action := [.report input]

/-- What a report returns. -/
def Store.reported (s : Store) (input : ReportPreviewBootInput) : Option PreviewBootRow :=
  ((s.boots.select (accepts input)).map (reportedRow input s.now)).head?

end Agentrail.Preview
