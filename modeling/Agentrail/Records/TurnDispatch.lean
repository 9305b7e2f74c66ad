import Agentrail.Lib.Table
import Agentrail.Records.PullRequestHead

/-!
# Dispatches of MCP turns (`change_records.ts`)

A turn of a conversation is handed to the agent by whoever gets `claimed` from
`reserveAcceptanceMcpTurnDispatch`.  The four functions on the dispatch of a turn (reserve, read,
complete, hold) are one transaction each, under the advisory lock of the turn: they answer and
give the new store, or they throw and the store stays.

`turn_dispatched_once`: over every run of such calls, on any turns, with any clocks, and with
other writers of credentials, intakes and messages between them, a turn is claimed at most once,
its stored status only moves out of `reserved`, and a call that conflicts with what is stored
throws and changes nothing.
-/

namespace Agentrail.McpTurn

open Js Records

/-! ## The tables -/

inductive Status where
  | reserved
  | accepted
  | held
  deriving DecidableEq, Repr

structure AcceptanceMcpTurnDispatchRow where
  id : Text
  workspaceId : Text
  credentialId : Text
  taskContextKey : Text
  messageKey : Text
  intakeId : Text
  inboundMessageId : Text
  sourceKey : Text
  messageSha256 : Text
  status : Status
  sessionId : Option Text := none
  continuationToken : Option Text := none
  resultReason : Option Text := none
  /-- in microseconds, as `completedAt` and `updatedAt` -/
  reservedAt : Int
  completedAt : Option Int := none
  updatedAt : Int
  deriving DecidableEq, Repr

structure AcceptanceIntakeRow where
  id : Text
  workspaceId : Text
  originChannel : Text
  conversationKey : Text
  updatedAt : Int
  deriving DecidableEq, Repr

structure AcceptanceIntakeMessageRow where
  id : Text
  intakeId : Text
  sourceKey : Text
  direction : Text
  text : Text
  deriving DecidableEq, Repr

structure ApiKeyRow where
  id : Text
  workspaceId : Text
  kind : Text
  revoked : Bool
  deriving DecidableEq, Repr

abbrev DispatchTable := Table AcceptanceMcpTurnDispatchRow
  [fun r => [r.id], fun r => [r.workspaceId, r.credentialId, r.taskContextKey, r.messageKey],
    fun r => [r.inboundMessageId]]

abbrev IntakeTable := Table AcceptanceIntakeRow
  [fun r => [r.id], fun r => [r.workspaceId, r.originChannel, r.conversationKey]]

abbrev MessageTable := Table AcceptanceIntakeMessageRow
  [fun r => [r.id], fun r => [r.intakeId, r.sourceKey]]

structure Store where
  apiKeys : List ApiKeyRow
  intakes : IntakeTable
  messages : MessageTable
  dispatches : DispatchTable

structure Host where
  /-- `uuid5Url`: the SHA-1 hash of the name in the URL namespace -/
  uuid5Url : Text → Text
  /-- the SHA-256 of the text, in hexadecimal digits -/
  sha256 : Text → Text
  /-- `[[:cntrl:]]` of the database -/
  isControl : Char → Bool

/-- The clocks during a call: `now()` of the database in microseconds, `new Date()` of the
application in milliseconds. -/
structure Clock where
  db : Int
  app : Int
  deriving DecidableEq, Repr

/-! ## Inputs -/

structure Identity where
  workspaceId : Text
  credentialId : Text
  taskContextKey : Text
  messageKey : Text
  deriving DecidableEq, Repr

structure ReserveInput extends Identity where
  conversationKey : Text
  sourceKey : Text
  message : Text
  deriving DecidableEq, Repr

/-- `safeMcpTurnKey`. -/
def safeMcpTurnKey (value : Text) (max : Nat) : Bool :=
  value ≠ [] && utf16Length value ≤ max && value = trim value &&
    value.all fun c => 0x1f < c.toNat && c.toNat ≠ 0x7f

/-- `parseAcceptanceMcpTurnIdentity` accepts. -/
def Identity.valid (i : Identity) : Bool :=
  isUuid i.workspaceId && isUuid i.credentialId && safeMcpTurnKey i.taskContextKey 256 &&
    safeMcpTurnKey i.messageKey 256

def Identity.conversationKey (i : Identity) : Text :=
  "mcp:".toList ++ i.credentialId ++ ':' :: i.taskContextKey

def Identity.sourceKey (i : Identity) : Text :=
  "mcp-inbound:".toList ++ i.credentialId ++ ':' :: i.taskContextKey ++ ':' :: i.messageKey

/-- `parseReserveAcceptanceMcpTurnDispatchInput` accepts. -/
def ReserveInput.valid (input : ReserveInput) : Bool :=
  input.toIdentity.valid && safeMcpTurnKey input.conversationKey 1024 &&
    safeMcpTurnKey input.sourceKey 1024 && safeMcpTurnKey input.message 8000 &&
    input.conversationKey = input.toIdentity.conversationKey &&
    input.sourceKey = input.toIdentity.sourceKey

/-- `parseCompleteAcceptanceMcpTurnDispatchInput` accepts. -/
def validCompletion (i : Identity) (sessionId continuationToken : Text) : Bool :=
  i.valid && safeMcpTurnKey sessionId 512 && utf16Length continuationToken ≤ 1024 &&
    continuationToken.all fun c => 0x1f < c.toNat && c.toNat ≠ 0x7f

/-! ## Errors -/

def CONFLICT : Text := "MCP turn identity is already bound to different content".toList

def CHECK_VIOLATION : Text := "violates check constraint".toList

section
variable (host : Host)

/-! ## Ids -/

def acceptanceIntakeId (workspaceId originChannel conversationKey : Text) : Text :=
  host.uuid5Url ("acceptance-intake:".toList ++ workspaceId ++ ':' :: originChannel ++
    ':' :: conversationKey)

def acceptanceIntakeMessageId (intakeId sourceKey : Text) : Text :=
  host.uuid5Url ("acceptance-intake-message:".toList ++ intakeId ++ ':' :: sourceKey)

def acceptanceMcpTurnDispatchId (i : Identity) : Text :=
  host.uuid5Url ("acceptance-mcp-turn-dispatch:".toList ++ jsonArray
    [jsonString i.workspaceId, jsonString i.credentialId, jsonString i.taskContextKey,
      jsonString i.messageKey])

def Identity.intakeId (i : Identity) : Text :=
  acceptanceIntakeId host i.workspaceId "mcp".toList i.conversationKey

def Identity.inboundMessageId (i : Identity) : Text :=
  acceptanceIntakeMessageId host (i.intakeId host) i.sourceKey

/-! ## The constraints of the dispatch table -/

def boundedText (t : Text) (min max : Nat) : Bool :=
  min ≤ t.length && t.length ≤ max && t.all (!host.isControl ·)

/-- No blanks at the ends: `t = btrim(t)`. -/
def isTrimmed (t : Text) : Bool := t.head? ≠ some ' ' && t.getLast? ≠ some ' '

/-- `acceptance_mcp_turn_dispatches_binding_check` -/
def bindingCheck (r : AcceptanceMcpTurnDispatchRow) : Bool :=
  boundedText host r.taskContextKey 1 256 && isTrimmed r.taskContextKey &&
    boundedText host r.messageKey 1 256 && isTrimmed r.messageKey &&
    boundedText host r.sourceKey 1 1024 && isTrimmed r.sourceKey &&
    r.messageSha256.length = 64 && r.messageSha256.all fun c => isDigit c || ('a' ≤ c && c ≤ 'f')

/-- `acceptance_mcp_turn_dispatches_state_check` -/
def stateCheck (r : AcceptanceMcpTurnDispatchRow) : Bool :=
  (r.status = .reserved) = r.completedAt.isNone &&
    (r.status = .accepted) = r.sessionId.isSome &&
    (r.status = .accepted) = r.continuationToken.isSome &&
    (r.status = .held) = r.resultReason.isSome &&
    r.sessionId.all (boundedText host · 1 512) &&
    r.continuationToken.all (boundedText host · 0 1024) &&
    r.resultReason.all (boundedText host · 1 256)

def checked (r : AcceptanceMcpTurnDispatchRow) : Bool := bindingCheck host r && stateCheck host r

/-! ## The functions -/

def ACCEPTANCE_MCP_TURN_RESERVATION_STALE_MS : Int := 2 * 60 * 1000

/-- What a call answers. -/
inductive Answer where
  | claimed (dispatch : AcceptanceMcpTurnDispatchRow)
  | replayed (dispatch : AcceptanceMcpTurnDispatchRow)
  | read (dispatch : Option AcceptanceMcpTurnDispatchRow)
  | accepted (dispatch : AcceptanceMcpTurnDispatchRow)
  | held (dispatch : AcceptanceMcpTurnDispatchRow)
  | notFound
  deriving DecidableEq, Repr

/-- What an update of the dispatch sets. -/
structure Settlement where
  status : Status
  sessionId : Option Text := none
  continuationToken : Option Text := none
  resultReason : Option Text := none
  at_ : Int
  deriving DecidableEq, Repr

def Settlement.apply (w : Settlement) (r : AcceptanceMcpTurnDispatchRow) :
    AcceptanceMcpTurnDispatchRow :=
  { r with
    status := w.status
    sessionId := w.sessionId.or r.sessionId
    continuationToken := w.continuationToken.or r.continuationToken
    resultReason := w.resultReason.or r.resultReason
    completedAt := some w.at_
    updatedAt := w.at_ }

theorem Settlement.keeps (w : Settlement) :
    Table.Keeps [fun r : AcceptanceMcpTurnDispatchRow => [r.id],
      fun r => [r.workspaceId, r.credentialId, r.taskContextKey, r.messageKey],
      fun r => [r.inboundMessageId]] w.apply := by
  intro key hkey r
  simp only [List.mem_cons, List.not_mem_nil, or_false] at hkey
  rcases hkey with rfl | rfl | rfl <;> rfl

/-- `UPDATE … SET w WHERE id = … AND status = 'reserved' AND extra`, of which one row is expected. -/
def settle (table : DispatchTable) (id : Text) (extra : AcceptanceMcpTurnDispatchRow → Bool)
    (w : Settlement) (lost : String) :
    Except Text (AcceptanceMcpTurnDispatchRow × DispatchTable) :=
  let target := fun r : AcceptanceMcpTurnDispatchRow => r.id = id && r.status = .reserved && extra r
  match table.select target with
  | [row] =>
    if checked host (w.apply row) then .ok (w.apply row, table.update target w.apply w.keeps)
    else .error CHECK_VIOLATION
  | _ => .error lost.toList

/-- `holdStaleAcceptanceMcpTurnDispatch`; a JavaScript date has no microseconds. -/
def holdStaleAcceptanceMcpTurnDispatch (clock : Clock) (table : DispatchTable)
    (dispatch : AcceptanceMcpTurnDispatchRow) :
    Except Text (AcceptanceMcpTurnDispatchRow × DispatchTable) :=
  let limit := clock.app - ACCEPTANCE_MCP_TURN_RESERVATION_STALE_MS
  if dispatch.status ≠ .reserved ∨ limit < dispatch.reservedAt / 1000 then .ok (dispatch, table)
  else
    settle host table dispatch.id (fun r => r.reservedAt ≤ limit * 1000)
      { status := .held, resultReason := some "stale_reserved_claim".toList
        at_ := clock.app * 1000 }
      "Acceptance MCP stale reservation lost its custody"

/-- The dispatch that a reservation inserts. -/
def newDispatch (clock : Clock) (input : ReserveInput) (fresh : Bool) :
    AcceptanceMcpTurnDispatchRow where
  id := acceptanceMcpTurnDispatchId host input.toIdentity
  workspaceId := input.workspaceId
  credentialId := input.credentialId
  taskContextKey := input.taskContextKey
  messageKey := input.messageKey
  intakeId := input.toIdentity.intakeId host
  inboundMessageId := input.toIdentity.inboundMessageId host
  sourceKey := input.sourceKey
  messageSha256 := host.sha256 input.message
  status := if fresh then .reserved else .held
  resultReason := if fresh then none else some "preexisting_message_without_dispatch_custody".toList
  reservedAt := clock.db
  completedAt := if fresh then none else some (clock.app * 1000)
  updatedAt := clock.db

/-- `mcpTurnDispatchComparable` of two rows is the same. -/
def sameContent (a b : AcceptanceMcpTurnDispatchRow) : Bool :=
  a.workspaceId = b.workspaceId && a.credentialId = b.credentialId &&
    a.taskContextKey = b.taskContextKey && a.messageKey = b.messageKey &&
    a.intakeId = b.intakeId && a.inboundMessageId = b.inboundMessageId &&
    a.sourceKey = b.sourceKey && a.messageSha256 = b.messageSha256

def newIntake (clock : Clock) (input : ReserveInput) : AcceptanceIntakeRow where
  id := input.toIdentity.intakeId host
  workspaceId := input.workspaceId
  originChannel := "mcp".toList
  conversationKey := input.conversationKey
  updatedAt := clock.db

def newMessage (input : ReserveInput) : AcceptanceIntakeMessageRow where
  id := input.toIdentity.inboundMessageId host
  intakeId := input.toIdentity.intakeId host
  sourceKey := input.sourceKey
  direction := "inbound".toList
  text := input.message

def touchIntakes (id : Text) (now : Int) (intakes : IntakeTable) : IntakeTable :=
  intakes.update (fun r => r.id = id) (fun r => { r with updatedAt := now }) (by
    intro key hkey r
    simp only [List.mem_cons, List.not_mem_nil, or_false] at hkey
    rcases hkey with rfl | rfl <;> rfl)

/-- `reserveAcceptanceMcpTurnDispatch`. -/
def reserveAcceptanceMcpTurnDispatch (clock : Clock) (input : ReserveInput) (s : Store) :
    Except Text (Answer × Store) := do
  if !input.valid then throw "Invalid Acceptance MCP turn reservation".toList
  if !(s.apiKeys.any fun k => k.id = input.credentialId && k.workspaceId = input.workspaceId &&
      k.kind = "agent_mcp".toList && !k.revoked) then
    throw "Acceptance MCP credential is not current".toList
  let intakes := (s.intakes.insert (newIntake host clock input)).getD s.intakes
  if !(intakes.rows.any fun r => r.id = input.toIdentity.intakeId host &&
      r.workspaceId = input.workspaceId && r.originChannel = "mcp".toList &&
      r.conversationKey = input.conversationKey) then
    throw CONFLICT
  let insertedMessages := s.messages.insert (newMessage host input)
  let messages := insertedMessages.getD s.messages
  if !(insertedMessages.isSome || s.messages.rows.any (· = newMessage host input)) then
    throw CONFLICT
  let row := newDispatch host clock input insertedMessages.isSome
  if !checked host row then throw CHECK_VIOLATION
  let inserted := s.dispatches.insert row
  let table := inserted.getD s.dispatches
  let stored := table.rows.find? fun r => r.id = row.id && r.workspaceId = row.workspaceId
  match stored.filter (sameContent row) with
  | none => throw CONFLICT
  | some storedDispatch =>
    let (dispatch, dispatches) ← holdStaleAcceptanceMcpTurnDispatch host clock table storedDispatch
    let intakes := touchIntakes (input.toIdentity.intakeId host) (clock.app * 1000) intakes
    let answer :=
      if inserted.isSome && dispatch.status = .reserved then .claimed dispatch
      else .replayed dispatch
    return (answer, { s with intakes, messages, dispatches })

/-- The dispatch of a turn, as read, complete and hold look it up. -/
def dispatchOf (i : Identity) (s : Store) : Option AcceptanceMcpTurnDispatchRow :=
  s.dispatches.rows.find? fun r => r.id = acceptanceMcpTurnDispatchId host i &&
    r.workspaceId = i.workspaceId && r.credentialId = i.credentialId

/-- `readAcceptanceMcpTurnDispatch`. -/
def readAcceptanceMcpTurnDispatch (clock : Clock) (i : Identity) (s : Store) :
    Except Text (Answer × Store) := do
  if !i.valid then throw "Invalid Acceptance MCP turn identity".toList
  match dispatchOf host i s with
  | none => return (.read none, s)
  | some dispatch =>
    let (row, dispatches) ← holdStaleAcceptanceMcpTurnDispatch host clock s.dispatches dispatch
    return (.read (some row), { s with dispatches })

/-- `completeAcceptanceMcpTurnDispatch`. -/
def completeAcceptanceMcpTurnDispatch (clock : Clock) (i : Identity)
    (sessionId continuationToken : Text) (s : Store) : Except Text (Answer × Store) := do
  if !validCompletion i sessionId continuationToken then
    throw "Invalid Acceptance MCP turn completion".toList
  match dispatchOf host i s with
  | none => return (.notFound, s)
  | some existing =>
    match existing.status with
    | .held => return (.held existing, s)
    | .accepted =>
      if existing.sessionId ≠ some sessionId ∨
          existing.continuationToken ≠ some continuationToken then
        throw CONFLICT
      return (.accepted existing, s)
    | .reserved =>
      let (row, dispatches) ← settle host s.dispatches (acceptanceMcpTurnDispatchId host i)
        (fun _ => true)
        { status := .accepted, sessionId := some sessionId
          continuationToken := some continuationToken, at_ := clock.app * 1000 }
        "Acceptance MCP turn completion lost its reservation"
      return (.accepted row, { s with dispatches })

/-- `holdAcceptanceMcpTurnDispatch`. -/
def holdAcceptanceMcpTurnDispatch (clock : Clock) (i : Identity) (reason : Text) (s : Store) :
    Except Text (Answer × Store) := do
  if !(i.valid && safeMcpTurnKey reason 256) then throw "Invalid Acceptance MCP turn hold".toList
  match dispatchOf host i s with
  | none => return (.notFound, s)
  | some existing =>
    match existing.status with
    | .accepted => return (.accepted existing, s)
    | .held => return (.held existing, s)
    | .reserved =>
      let (row, dispatches) ← settle host s.dispatches (acceptanceMcpTurnDispatchId host i)
        (fun _ => true)
        { status := .held, resultReason := some reason, at_ := clock.app * 1000 }
        "Acceptance MCP turn hold lost its reservation"
      return (.held row, { s with dispatches })

/-! ## Runs -/

inductive Call where
  | reserve (input : ReserveInput)
  | read (i : Identity)
  | complete (i : Identity) (sessionId continuationToken : Text)
  | hold (i : Identity) (reason : Text)
  deriving DecidableEq, Repr

/-- The transaction of a call. -/
def perform (clock : Clock) : Call → Store → Except Text (Answer × Store)
  | .reserve input => reserveAcceptanceMcpTurnDispatch host clock input
  | .read i => readAcceptanceMcpTurnDispatch host clock i
  | .complete i sessionId token => completeAcceptanceMcpTurnDispatch host clock i sessionId token
  | .hold i reason => holdAcceptanceMcpTurnDispatch host clock i reason

/-- A call with the clocks it reads, or another writer of the other tables. -/
inductive Action where
  | call (clock : Clock) (c : Call)
  | setApiKeys (keys : List ApiKeyRow)
  | insertIntake (row : AcceptanceIntakeRow)
  | insertMessage (row : AcceptanceIntakeMessageRow)

/-- The store, and the calls made with what they answered. -/
structure State where
  store : Store
  log : List (Call × Except Text Answer)

def step (s : State) : Action → State
  | .call clock c =>
    match perform host clock c s.store with
    | .ok (answer, store) => ⟨store, s.log ++ [(c, .ok answer)]⟩
    | .error e => ⟨s.store, s.log ++ [(c, .error e)]⟩
  | .setApiKeys keys => { s with store := { s.store with apiKeys := keys } }
  | .insertIntake row =>
    { s with store := { s.store with intakes := (s.store.intakes.insert row).getD s.store.intakes } }
  | .insertMessage row =>
    { s with store :=
        { s.store with messages := (s.store.messages.insert row).getD s.store.messages } }

def run (s : State) (as : List Action) : State := as.foldl (step host) s

end

/-! ## What a call does to the dispatches -/

/-- A row may stay as it is, or leave `reserved` for good. -/
def Moves (r r' : AcceptanceMcpTurnDispatchRow) : Prop :=
  r' = r ∨ r.status = .reserved ∧ r'.status ≠ .reserved ∧ r'.id = r.id ∧ sameContent r r' = true

/-- No row is lost, and each has only moved. -/
def Evolves (rows rows' : List AcceptanceMcpTurnDispatchRow) : Prop :=
  ∀ r ∈ rows, ∃ r' ∈ rows', Moves r r'

theorem Evolves.refl (rows : List AcceptanceMcpTurnDispatchRow) : Evolves rows rows :=
  fun r hr => ⟨r, hr, Or.inl rfl⟩

theorem Moves.trans {r r' r'' : AcceptanceMcpTurnDispatchRow} (h : Moves r r')
    (h' : Moves r' r'') : Moves r r'' := by
  rcases h with rfl | ⟨hreserved, hleft, hid, hsame⟩
  · exact h'
  · rcases h' with rfl | ⟨hreserved', hleft', hid', hsame'⟩
    · exact Or.inr ⟨hreserved, hleft, hid, hsame⟩
    · exact absurd hreserved' hleft

theorem Evolves.trans {a b c : List AcceptanceMcpTurnDispatchRow} (h : Evolves a b)
    (h' : Evolves b c) : Evolves a c := by
  intro r hr
  obtain ⟨r', hr', hmoves⟩ := h r hr
  obtain ⟨r'', hr'', hmoves'⟩ := h' r' hr'
  exact ⟨r'', hr'', hmoves.trans hmoves'⟩

section
variable {host : Host} {clock : Clock}

theorem settle_ok {table table' : DispatchTable} {id : Text}
    {extra : AcceptanceMcpTurnDispatchRow → Bool} {w : Settlement} {lost : String}
    {row : AcceptanceMcpTurnDispatchRow} (hw : w.status ≠ .reserved)
    (h : settle host table id extra w lost = .ok (row, table')) :
    Evolves table.rows table'.rows ∧ row ∈ table'.rows ∧ row.id = id ∧ row.status = w.status := by
  unfold settle at h
  simp only at h
  split at h
  · next r hselect =>
    have hr : r ∈ table.rows ∧ r.id = id ∧ r.status = .reserved := by
      have hmem : r ∈ table.select _ := hselect ▸ List.mem_singleton_self r
      rw [Table.mem_select] at hmem
      simp only [Bool.and_eq_true, decide_eq_true_eq] at hmem
      exact ⟨hmem.1, hmem.2.1.1, hmem.2.1.2⟩
    have htarget : (r.id = id && r.status = .reserved && extra r) = true := by
      have hmem : r ∈ table.select _ := hselect ▸ List.mem_singleton_self r
      exact ((Table.mem_select _ _ _).mp hmem).2
    split at h
    · obtain ⟨rfl, rfl⟩ := Prod.mk.inj (Except.ok.inj h)
      refine ⟨?_, (Table.mem_update _ _ _ _ _).mpr ⟨r, hr.1, if_pos htarget⟩, hr.2.1, rfl⟩
      intro x hx
      refine ⟨_, (Table.mem_update _ _ _ _ _).mpr ⟨x, hx, rfl⟩, ?_⟩
      split
      · next hx' =>
        simp only [Bool.and_eq_true, decide_eq_true_eq] at hx'
        exact Or.inr ⟨hx'.1.2, hw, rfl, by simp [sameContent, Settlement.apply]⟩
      · exact Or.inl rfl
    · cases h
  · cases h

theorem holdStale_ok {table table' : DispatchTable} {dispatch row : AcceptanceMcpTurnDispatchRow}
    (hmem : dispatch ∈ table.rows)
    (h : holdStaleAcceptanceMcpTurnDispatch host clock table dispatch = .ok (row, table')) :
    Evolves table.rows table'.rows ∧ row ∈ table'.rows ∧ row.id = dispatch.id := by
  unfold holdStaleAcceptanceMcpTurnDispatch at h
  simp only at h
  split at h
  · obtain ⟨rfl, rfl⟩ := Prod.mk.inj (Except.ok.inj h)
    exact ⟨Evolves.refl _, hmem, rfl⟩
  · obtain ⟨hevolves, hrow, hid, -⟩ := settle_ok (by simp) h
    exact ⟨hevolves, hrow, hid⟩

/-- What a reservation went through when it did not throw. -/
theorem reserve_ok {input : ReserveInput} {s s' : Store} {answer : Answer}
    (h : reserveAcceptanceMcpTurnDispatch host clock input s = .ok (answer, s')) :
    ((s.messages.insert (newMessage host input)).isSome ∨
        newMessage host input ∈ s.messages.rows) ∧
      ∃ fresh table stored dispatch,
        table = (s.dispatches.insert (newDispatch host clock input fresh)).getD s.dispatches ∧
        stored ∈ table.rows ∧ stored.id = acceptanceMcpTurnDispatchId host input.toIdentity ∧
        sameContent (newDispatch host clock input fresh) stored = true ∧
        holdStaleAcceptanceMcpTurnDispatch host clock table stored = .ok (dispatch, s'.dispatches) ∧
        answer = if (s.dispatches.insert (newDispatch host clock input fresh)).isSome &&
            dispatch.status = .reserved then .claimed dispatch else .replayed dispatch := by
  unfold reserveAcceptanceMcpTurnDispatch at h
  simp only [bind, Except.bind, throw, throwThe, MonadExceptOf.throw, pure, Except.pure] at h
  split at h
  · cases h
  split at h
  · cases h
  split at h
  · cases h
  split at h
  · cases h
  next hmessage =>
  split at h
  · cases h
  split at h
  · cases h
  next stored hstored =>
  split at h
  · cases h
  next result hresult =>
  obtain ⟨dispatch, dispatches⟩ := result
  obtain ⟨hanswer, hs'⟩ := Prod.mk.inj (Except.ok.inj h)
  rw [Option.filter_eq_some_iff] at hstored
  obtain ⟨hfind, hsame⟩ := hstored
  have hpred := List.find?_some hfind
  simp only [Bool.and_eq_true, decide_eq_true_eq] at hpred
  refine ⟨?_, _, _, stored, dispatch, rfl, List.mem_of_find?_eq_some hfind, hpred.1, hsame, ?_, ?_⟩
  · simp only [Bool.not_eq_true, Bool.not_eq_false', Bool.or_eq_true, List.any_eq_true,
      decide_eq_true_eq, exists_eq_right] at hmessage
    exact hmessage
  · rw [← hs']
    exact hresult
  · exact hanswer.symm

/-- What a call that did not throw has done: rows have only moved, and a claim is a new row. -/
theorem perform_ok {c : Call} {s s' : Store} {answer : Answer}
    (h : perform host clock c s = .ok (answer, s')) :
    Evolves s.dispatches.rows s'.dispatches.rows ∧
      ∀ d, answer = .claimed d → ∃ input, c = .reserve input ∧
        d.id = acceptanceMcpTurnDispatchId host input.toIdentity ∧
        (∀ r ∈ s.dispatches.rows, r.id ≠ d.id) ∧ d ∈ s'.dispatches.rows := by
  cases c with
  | reserve input =>
    obtain ⟨-, fresh, table, stored, dispatch, htable, hstored, hid, -, hstale, hanswer⟩ :=
      reserve_ok h
    obtain ⟨hevolves, hrow, hrowId⟩ := holdStale_ok hstored hstale
    have hinserted : Evolves s.dispatches.rows table.rows := by
      cases hinsert : s.dispatches.insert (newDispatch host clock input fresh) with
      | none =>
        rw [htable, hinsert]
        exact Evolves.refl _
      | some t =>
        rw [htable, hinsert, Option.getD_some, Table.rows_insert _ _ _ hinsert]
        exact fun r hr => ⟨r, List.mem_append_left _ hr, Or.inl rfl⟩
    refine ⟨hinserted.trans hevolves, fun d hd => ?_⟩
    rw [hd] at hanswer
    split at hanswer
    · next hclaimed =>
      obtain rfl := Answer.claimed.inj hanswer
      rw [Bool.and_eq_true] at hclaimed
      refine ⟨input, rfl, hrowId.trans hid, fun r hr hsame => ?_, hrow⟩
      have hsome := hclaimed.1
      rw [← Option.ne_none_iff_isSome] at hsome
      refine hsome ((Table.insert_eq_none _ _).mpr ⟨_, List.mem_cons_self, ?_⟩)
      refine List.mem_map.mpr ⟨r, hr, ?_⟩
      show [r.id] = [acceptanceMcpTurnDispatchId host input.toIdentity]
      rw [hsame, hrowId, hid]
    · cases hanswer
  | read i =>
    simp only [perform, readAcceptanceMcpTurnDispatch, bind, Except.bind, throw, throwThe,
      MonadExceptOf.throw, pure, Except.pure] at h
    split at h
    · cases h
    split at h
    · obtain ⟨rfl, rfl⟩ := Prod.mk.inj (Except.ok.inj h)
      exact ⟨Evolves.refl _, fun d hd => by cases hd⟩
    next dispatch hdispatch =>
    split at h
    · cases h
    next result hstale =>
    obtain ⟨rfl, rfl⟩ := Prod.mk.inj (Except.ok.inj h)
    exact ⟨(holdStale_ok (List.mem_of_find?_eq_some hdispatch) hstale).1, fun d hd => by cases hd⟩
  | complete i sessionId token =>
    simp only [perform, completeAcceptanceMcpTurnDispatch, bind, Except.bind, throw, throwThe,
      MonadExceptOf.throw, pure, Except.pure] at h
    split at h
    · cases h
    split at h
    · obtain ⟨rfl, rfl⟩ := Prod.mk.inj (Except.ok.inj h)
      exact ⟨Evolves.refl _, fun d hd => by cases hd⟩
    split at h
    · obtain ⟨rfl, rfl⟩ := Prod.mk.inj (Except.ok.inj h)
      exact ⟨Evolves.refl _, fun d hd => by cases hd⟩
    · split at h
      · cases h
      obtain ⟨rfl, rfl⟩ := Prod.mk.inj (Except.ok.inj h)
      exact ⟨Evolves.refl _, fun d hd => by cases hd⟩
    · split at h
      · cases h
      next result hsettle =>
      obtain ⟨rfl, rfl⟩ := Prod.mk.inj (Except.ok.inj h)
      exact ⟨(settle_ok (by simp) hsettle).1, fun d hd => by cases hd⟩
  | hold i reason =>
    simp only [perform, holdAcceptanceMcpTurnDispatch, bind, Except.bind, throw, throwThe,
      MonadExceptOf.throw, pure, Except.pure] at h
    split at h
    · cases h
    split at h
    · obtain ⟨rfl, rfl⟩ := Prod.mk.inj (Except.ok.inj h)
      exact ⟨Evolves.refl _, fun d hd => by cases hd⟩
    split at h
    · obtain ⟨rfl, rfl⟩ := Prod.mk.inj (Except.ok.inj h)
      exact ⟨Evolves.refl _, fun d hd => by cases hd⟩
    · obtain ⟨rfl, rfl⟩ := Prod.mk.inj (Except.ok.inj h)
      exact ⟨Evolves.refl _, fun d hd => by cases hd⟩
    · split at h
      · cases h
      next result hsettle =>
      obtain ⟨rfl, rfl⟩ := Prod.mk.inj (Except.ok.inj h)
      exact ⟨(settle_ok (by simp) hsettle).1, fun d hd => by cases hd⟩

/-! ## Conflicting calls -/

variable (host) in
/-- A reservation with another message than the stored one, or a completion of an accepted turn with
another session or token. -/
def Conflicts (s : Store) : Call → Prop
  | .reserve input =>
    (∃ m ∈ s.messages.rows, m.id = input.toIdentity.inboundMessageId host ∧
      m.text ≠ input.message) ∨
    ∃ r ∈ s.dispatches.rows, r.id = acceptanceMcpTurnDispatchId host input.toIdentity ∧
      r.messageSha256 ≠ host.sha256 input.message
  | .read _ => False
  | .complete i sessionId token =>
    ∃ r, dispatchOf host i s = some r ∧ r.status = .accepted ∧
      (r.sessionId ≠ some sessionId ∨ r.continuationToken ≠ some token)
  | .hold _ _ => False

theorem perform_of_conflicts {c : Call} {s : Store} (h : Conflicts host s c) :
    ∃ e, perform host clock c s = .error e := by
  cases hperform : perform host clock c s with
  | error e => exact ⟨e, rfl⟩
  | ok result =>
    obtain ⟨answer, s'⟩ := result
    exfalso
    cases c with
    | reserve input =>
      obtain ⟨hmessage, fresh, table, stored, -, htable, hstored, hid, hsame, -⟩ :=
        reserve_ok hperform
      rcases h with ⟨m, hm, hmid, htext⟩ | ⟨r, hr, hrid, hsha⟩
      · have hkey : (fun r : AcceptanceIntakeMessageRow => [r.id]) ∈
            [fun r : AcceptanceIntakeMessageRow => [r.id], fun r => [r.intakeId, r.sourceKey]] :=
          List.mem_cons_self
        have hsameId : [m.id] = [(newMessage host input).id] := by
          rw [hmid]
          rfl
        rcases hmessage with hinsert | hmem
        · rw [← Option.ne_none_iff_isSome] at hinsert
          exact hinsert ((Table.insert_eq_none _ _).mpr
            ⟨_, hkey, List.mem_map.mpr ⟨m, hm, hsameId⟩⟩)
        · have heq := Table.eq_of_key s.messages _ hkey m _ hm hmem hsameId
          exact htext (congrArg AcceptanceIntakeMessageRow.text heq)
      · have hkey : (fun r : AcceptanceMcpTurnDispatchRow => [r.id]) ∈
            [fun r : AcceptanceMcpTurnDispatchRow => [r.id],
              fun r => [r.workspaceId, r.credentialId, r.taskContextKey, r.messageKey],
              fun r => [r.inboundMessageId]] := List.mem_cons_self
        have hnone : s.dispatches.insert (newDispatch host clock input fresh) = none := by
          refine (Table.insert_eq_none _ _).mpr ⟨_, hkey, List.mem_map.mpr ⟨r, hr, ?_⟩⟩
          show [r.id] = [acceptanceMcpTurnDispatchId host input.toIdentity]
          rw [hrid]
        rw [htable, hnone, Option.getD_none] at hstored
        have heq : stored = r := by
          refine Table.eq_of_key s.dispatches _ hkey stored r hstored hr ?_
          show [stored.id] = [r.id]
          rw [hid, hrid]
        unfold sameContent at hsame
        simp only [Bool.and_eq_true, decide_eq_true_eq] at hsame
        exact hsha ((congrArg AcceptanceMcpTurnDispatchRow.messageSha256 heq).symm.trans
          hsame.2.symm)
    | read i => exact h
    | complete i sessionId token =>
      obtain ⟨r, hr, hstatus, hother⟩ := h
      simp only [perform, completeAcceptanceMcpTurnDispatch, bind, Except.bind, throw, throwThe,
        MonadExceptOf.throw, pure, Except.pure, hr, hstatus] at hperform
      split at hperform
      · cases hperform
      · cases hperform
    | hold i reason => exact h

/-! ## Runs -/

variable (host) in
/-- The reservations of a turn that were answered `claimed`. -/
def claims (i : Identity) (log : List (Call × Except Text Answer)) : Nat :=
  log.countP fun entry =>
    match entry with
    | (.reserve input, .ok (.claimed _)) => input.toIdentity = i
    | _ => false

variable (host) in
/-- A turn that was claimed, was claimed once and has a dispatch. -/
def ClaimedOnce (i : Identity) (s : State) : Prop :=
  claims i s.log = 0 ∨ claims i s.log = 1 ∧
    ∃ r ∈ s.store.dispatches.rows, r.id = acceptanceMcpTurnDispatchId host i

theorem claims_append (i : Identity) (log : List (Call × Except Text Answer))
    (entry : Call × Except Text Answer) :
    claims i (log ++ [entry]) = claims i log + claims i [entry] :=
  List.countP_append

theorem Evolves.id {rows rows' : List AcceptanceMcpTurnDispatchRow} (h : Evolves rows rows')
    {id : Text} (hid : ∃ r ∈ rows, r.id = id) : ∃ r ∈ rows', r.id = id := by
  obtain ⟨r, hr, rfl⟩ := hid
  obtain ⟨r', hr', hmoves⟩ := h r hr
  rcases hmoves with rfl | ⟨-, -, hsame, -⟩
  · exact ⟨r', hr', rfl⟩
  · exact ⟨r', hr', hsame⟩

theorem step_evolves (s : State) (a : Action) :
    Evolves s.store.dispatches.rows (step host s a).store.dispatches.rows := by
  cases a with
  | call clock c =>
    unfold step
    simp only
    split
    · next answer store hperform => exact (perform_ok hperform).1
    · exact Evolves.refl _
  | setApiKeys keys => exact Evolves.refl _
  | insertIntake row => exact Evolves.refl _
  | insertMessage row => exact Evolves.refl _

theorem step_claimedOnce (i : Identity) (s : State) (a : Action) (h : ClaimedOnce host i s) :
    ClaimedOnce host i (step host s a) := by
  cases a with
  | call clock c =>
    unfold step
    simp only
    split
    · next answer store hperform =>
      obtain ⟨hevolves, hclaim⟩ := perform_ok hperform
      unfold ClaimedOnce at h ⊢
      simp only [claims_append]
      by_cases hc : claims i [(c, .ok answer)] = 0
      · rw [hc, Nat.add_zero]
        exact h.imp_right (And.imp_right fun hid => hevolves.id hid)
      · cases c with
        | reserve input =>
          cases answer with
          | claimed d =>
            obtain ⟨input', heq, hid, hnew, hd⟩ := hclaim d rfl
            obtain rfl := Call.reserve.inj heq
            have hone : claims i [(.reserve input, .ok (.claimed d))] =
                if input.toIdentity = i then 1 else 0 := by
              simp [claims, List.countP_cons]
            rw [hone] at hc ⊢
            have hi : input.toIdentity = i := by
              by_contra hne
              exact hc (if_neg hne)
            rw [if_pos hi]
            rcases h with hzero | ⟨-, r, hr, hrid⟩
            · exact Or.inr ⟨by rw [hzero], d, hd, by rw [hid, hi]⟩
            · exact absurd (by rw [hrid, hid, hi]) (hnew r hr)
          | _ => exact absurd rfl hc
        | _ => exact absurd rfl hc
    · unfold ClaimedOnce at h ⊢
      simp only [claims_append]
      have hzero : ∀ e : Text, claims i [(c, .error e)] = 0 := by
        intro e
        cases c <;> rfl
      rw [hzero, Nat.add_zero]
      exact h
  | setApiKeys keys => exact h
  | insertIntake row => exact h
  | insertMessage row => exact h

/-- What every step keeps holds at the end of a run. -/
theorem run_induction {P : State → Prop} (hstep : ∀ s a, P s → P (step host s a)) (s : State)
    (as : List Action) (hs : P s) : P (run host s as) := by
  induction as generalizing s with
  | nil => exact hs
  | cons a as ih => exact ih (step host s a) (hstep s a hs)

end

/-- **One dispatch per turn.** In every run of calls on a store: a turn is claimed at most once; a
row that is there at some point is there at the end and has at most left `reserved`; and a call that
conflicts with the store throws and leaves it as it is. -/
theorem turn_dispatched_once (host : Host) (store : Store) (before after : List Action) :
    let middle := run host ⟨store, []⟩ before
    let final := run host middle after
    (∀ i, claims i final.log ≤ 1) ∧
      Evolves middle.store.dispatches.rows final.store.dispatches.rows ∧
      ∀ clock c, Conflicts host middle.store c →
        ∃ e, step host middle (.call clock c) = ⟨middle.store, middle.log ++ [(c, .error e)]⟩ := by
  intro middle final
  refine ⟨fun i => ?_, ?_, fun clock c hconflicts => ?_⟩
  · have hmiddle : ClaimedOnce host i middle :=
      run_induction (step_claimedOnce i) ⟨store, []⟩ before (Or.inl rfl)
    have hfinal : ClaimedOnce host i final := run_induction (step_claimedOnce i) middle after hmiddle
    rcases hfinal with hzero | ⟨hone, -⟩ <;> omega
  · refine run_induction (P := fun s => Evolves middle.store.dispatches.rows s.store.dispatches.rows)
      (fun s a hs => hs.trans (step_evolves s a)) middle after (Evolves.refl _)
  · obtain ⟨e, he⟩ := @perform_of_conflicts _ clock _ _ hconflicts
    refine ⟨e, ?_⟩
    unfold step
    simp only [he]

end Agentrail.McpTurn
