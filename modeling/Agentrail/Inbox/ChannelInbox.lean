import Agentrail.Js.Basic
import Agentrail.Lib.Interleaving
import Agentrail.Lib.Table

/-!
# The channel inbox (`channel_inbox.ts`)

Webhooks insert messages, the dispatcher claims them one by one and completes or
fails each.  `Stmt` has one constructor for each SQL statement of the module,
`Op` one for each thing a webhook, a dispatcher or the console does; statements
are atomic, and any number of operations run at once.

`Writes` says once what a statement can do to a row (`exec_row`).  Rows stand in
the order in which they were enqueued.  Times count microseconds.
-/

namespace Agentrail.Inbox

open Js Interleaving

/-! ## Retries -/

def INBOX_MAX_ATTEMPTS : Nat := 3

def INBOX_BACKOFF_SECONDS : List Nat := [30, 120, 600]

def INBOX_STALE_PROCESSING_MINUTES : Int := 15

def DEFAULT_WORKSPACE_INFLIGHT_LIMIT : Nat := 3

inductive InboxState where
  | queued
  | processing
  | done
  | failed
  | dead
  deriving DecidableEq, Repr

inductive InboxRetryDecision where
  | queued (delaySeconds : Nat)
  | dead
  deriving DecidableEq, Repr

def InboxRetryDecision.state : InboxRetryDecision → InboxState
  | .queued _ => .queued
  | .dead => .dead

def InboxRetryDecision.delaySeconds : InboxRetryDecision → Nat
  | .queued delaySeconds => delaySeconds
  | .dead => 0

def nextInboxStateAfterFailure (attempts : Nat) : InboxRetryDecision :=
  if INBOX_MAX_ATTEMPTS ≤ attempts then .dead
  else .queued (INBOX_BACKOFF_SECONDS[attempts - 1]?.getD 30)

/-! ## The table -/

structure ChannelInboxRow where
  id : Text
  workspaceId : Option Text := none
  chatIdentityId : Option Text := none
  channel : Text
  conversationKey : Text
  kind : Text := "message".toList
  senderId : Text := []
  senderDisplay : Text := []
  providerMessageId : Text
  payload : Json := .obj []
  state : InboxState := .queued
  attempts : Nat := 0
  nextAttemptAt : Int := 0
  lastError : Option Text := none
  createdAt : Int := 0
  updatedAt : Int := 0

/-- The primary key and `channel_inbox_provider_message_unique`. -/
def inboxKeys : List (ChannelInboxRow → List Text) :=
  [fun r => [r.id], fun r => [r.channel, r.providerMessageId]]

abbrev InboxTable := Table ChannelInboxRow inboxKeys

/-- A claim, with the messages that were queued when it was made. -/
structure Claim where
  id : Text
  queued : List Text
  deriving DecidableEq, Repr

/-- `claims` is no table: it keeps the claims that were made, latest first.  No function reads
it. -/
structure Store where
  inbox : InboxTable
  now : Int
  claims : List Claim := []

theorem keeps_inboxKeys (f : ChannelInboxRow → ChannelInboxRow) (hid : ∀ r, (f r).id = r.id)
    (hchannel : ∀ r, (f r).channel = r.channel)
    (hprovider : ∀ r, (f r).providerMessageId = r.providerMessageId) :
    Table.Keeps inboxKeys f := by
  intro key hkey r
  unfold inboxKeys at hkey
  rcases List.mem_cons.mp hkey with rfl | hkey
  · show [(f r).id] = [r.id]
    rw [hid]
  · obtain rfl := List.mem_singleton.mp hkey
    show [(f r).channel, (f r).providerMessageId] = [r.channel, r.providerMessageId]
    rw [hchannel, hprovider]

/-- One row for each id. -/
theorem InboxTable.eq_of_id (t : InboxTable) (r r' : ChannelInboxRow) (h : r ∈ t.rows)
    (h' : r' ∈ t.rows) (hid : r.id = r'.id) : r = r' :=
  t.eq_of_key (fun r => [r.id]) List.mem_cons_self r r' h h' (by rw [hid])

/-- An inserted row has a new id. -/
theorem insert_fresh (t t' : InboxTable) (row : ChannelInboxRow) (h : t.insert row = some t') :
    row.id ∉ t.rows.map ChannelInboxRow.id := by
  intro hmem
  obtain ⟨r, hr, hid⟩ := List.mem_map.mp hmem
  have hnone : t.insert row = none := (t.insert_eq_none row).mpr
    ⟨fun r => [r.id], List.mem_cons_self, List.mem_map.mpr ⟨r, hr, by rw [hid]⟩⟩
  rw [hnone] at h
  cases h

/-! ## What the statements set and select -/

structure EnqueueChannelMessageInput where
  workspaceId : Option Text := none
  chatIdentityId : Option Text := none
  channel : Text
  conversationKey : Text
  kind : Option Text := none
  senderId : Option Text := none
  senderDisplay : Option Text := none
  providerMessageId : Text
  payload : Json := .obj []

/-- The inserted row with the columns' defaults; `id` is what `gen_random_uuid()` drew. -/
def newRow (input : EnqueueChannelMessageInput) (id : Text) (now : Int) : ChannelInboxRow where
  id := id
  workspaceId := input.workspaceId
  chatIdentityId := input.chatIdentityId
  channel := input.channel
  conversationKey := input.conversationKey
  kind := input.kind.getD "message".toList
  senderId := input.senderId.getD []
  senderDisplay := input.senderDisplay.getD []
  providerMessageId := input.providerMessageId
  payload := input.payload
  nextAttemptAt := now
  createdAt := now
  updatedAt := now

/-- `payload - 'interactionToken' - 'applicationId'` -/
def scrubbed : Json → Json
  | .obj fields => .obj <| fields.filter fun f =>
      f.1 ≠ "interactionToken".toList && f.1 ≠ "applicationId".toList
  | v => v

def claimedRow (now : Int) (r : ChannelInboxRow) : ChannelInboxRow :=
  { r with state := .processing, updatedAt := now }

def completedRow (now : Int) (r : ChannelInboxRow) : ChannelInboxRow :=
  { r with state := .done, payload := scrubbed r.payload, updatedAt := now }

def failedRow (attempts : Nat) (decision : InboxRetryDecision) (error : Text) (now : Int)
    (r : ChannelInboxRow) : ChannelInboxRow :=
  { r with
    attempts := attempts
    state := decision.state
    lastError := some error
    nextAttemptAt := now + 1000000 * decision.delaySeconds
    updatedAt := now }

def reclaimedRow (now : Int) (r : ChannelInboxRow) : ChannelInboxRow :=
  { r with state := .queued, updatedAt := now }

def requeuedRow (now : Int) (r : ChannelInboxRow) : ChannelInboxRow :=
  { r with state := .queued, attempts := 0, nextAttemptAt := now, lastError := none,
           updatedAt := now }

def stampedRow (workspaceId : Text) (now : Int) (r : ChannelInboxRow) : ChannelInboxRow :=
  { r with workspaceId := some workspaceId, updatedAt := now }

def isStaleProcessing (now : Int) (r : ChannelInboxRow) : Bool :=
  r.state = .processing && r.updatedAt < now - 60000000 * INBOX_STALE_PROCESSING_MINUTES

/-- A turn of the conversation is running. -/
def Store.conversationBusy (s : Store) (conversationKey : Text) : Bool :=
  s.inbox.rows.any fun other =>
    other.conversationKey = conversationKey && other.state = .processing

/-- `wip.workspace_id = ci.workspace_id` holds for no row where the workspace is null. -/
def Store.inflight (s : Store) (workspaceId : Option Text) : Nat :=
  match workspaceId with
  | none => 0
  | some w => (s.inbox.select fun wip => wip.workspaceId = some w && wip.state = .processing).length

/-- The `WHERE` clause of the claim.  Its advisory lock is free when statements are atomic. -/
def Store.claimable (s : Store) (workspaceInflightLimit : Nat) (ci : ChannelInboxRow) : Bool :=
  ci.state = .queued && ci.nextAttemptAt ≤ s.now && !s.conversationBusy ci.conversationKey &&
    s.inflight ci.workspaceId < workspaceInflightLimit

/-- The subquery of the claim; `scan` decides between equal times. -/
def Store.nextClaim (s : Store) (workspaceInflightLimit : Nat) (scan : ChannelInboxRow → Nat) :
    Option ChannelInboxRow :=
  Table.firstBy ChannelInboxRow.nextAttemptAt scan
    (s.inbox.select (s.claimable workspaceInflightLimit))

def Store.queuedIds (s : Store) : List Text :=
  (s.inbox.select fun r => r.state = .queued).map ChannelInboxRow.id

/-! ## Statements -/

inductive Stmt : Type → Type where
  | insertMessage (input : EnqueueChannelMessageInput) (id : Text) : Stmt (Option Text)
  | claimNext (workspaceInflightLimit : Nat) (scan : ChannelInboxRow → Nat) :
      Stmt (Option ChannelInboxRow)
  | complete (id : Text) : Stmt Unit
  | readAttempts (id : Text) : Stmt (Option Nat)
  | recordFailure (id : Text) (attempts : Nat) (decision : InboxRetryDecision) (error : Text) :
      Stmt Unit
  | reclaimStale : Stmt Nat
  | requeueDead (workspaceId id : Text) : Stmt Bool
  | stampWorkspace (rowId workspaceId : Text) : Stmt Unit

/-- `UPDATE channel_inbox`. -/
def Store.updateInbox (s : Store) (p : ChannelInboxRow → Bool)
    (f : ChannelInboxRow → ChannelInboxRow) (hf : Table.Keeps inboxKeys f) : Store :=
  { s with inbox := s.inbox.update p f hf }

def Stmt.exec ⦃β : Type⦄ : Stmt β → Store → β × Store
  | .insertMessage input id, s =>
    match s.inbox.insert (newRow input id s.now) with
    | none => (none, s)
    | some inbox => (some id, { s with inbox := inbox })
  | .claimNext limit scan, s =>
    match s.nextClaim limit scan with
    | none => (none, s)
    | some row => (some (claimedRow s.now row),
        { s.updateInbox (fun r => r.id = row.id) (claimedRow s.now)
            (keeps_inboxKeys _ (fun _ => rfl) (fun _ => rfl) fun _ => rfl) with
          claims := ⟨row.id, s.queuedIds⟩ :: s.claims })
  | .complete id, s =>
    ((), s.updateInbox (fun r => r.id = id) (completedRow s.now)
      (keeps_inboxKeys _ (fun _ => rfl) (fun _ => rfl) fun _ => rfl))
  | .readAttempts id, s =>
    (((s.inbox.select fun r => r.id = id).head?).map ChannelInboxRow.attempts, s)
  | .recordFailure id attempts decision error, s =>
    ((), s.updateInbox (fun r => r.id = id) (failedRow attempts decision error s.now)
      (keeps_inboxKeys _ (fun _ => rfl) (fun _ => rfl) fun _ => rfl))
  | .reclaimStale, s =>
    ((s.inbox.select (isStaleProcessing s.now)).length,
      s.updateInbox (isStaleProcessing s.now) (reclaimedRow s.now)
        (keeps_inboxKeys _ (fun _ => rfl) (fun _ => rfl) fun _ => rfl))
  | .requeueDead workspaceId id, s =>
    let target := fun r : ChannelInboxRow =>
      r.id = id && r.workspaceId = some workspaceId && r.state = .dead
    (!(s.inbox.select target).isEmpty, s.updateInbox target (requeuedRow s.now)
      (keeps_inboxKeys _ (fun _ => rfl) (fun _ => rfl) fun _ => rfl))
  | .stampWorkspace rowId workspaceId, s =>
    ((), s.updateInbox (fun r => r.id = rowId && r.workspaceId.isNone)
      (stampedRow workspaceId s.now)
      (keeps_inboxKeys _ (fun _ => rfl) (fun _ => rfl) fun _ => rfl))

/-! ## What a statement can do -/

/-- The statement turns the row `r` into `r'`. -/
inductive Writes : ∀ {β : Type}, Stmt β → Store → ChannelInboxRow → ChannelInboxRow → Prop
  | claimNext {limit scan s r} : s.nextClaim limit scan = some r →
      Writes (.claimNext limit scan) s r (claimedRow s.now r)
  | complete {s r} : Writes (.complete r.id) s r (completedRow s.now r)
  | recordFailure {attempts decision error s r} :
      Writes (.recordFailure r.id attempts decision error) s r
        (failedRow attempts decision error s.now r)
  | reclaimStale {s r} : isStaleProcessing s.now r →
      Writes .reclaimStale s r (reclaimedRow s.now r)
  | requeueDead {w s r} : r.workspaceId = some w → r.state = .dead →
      Writes (.requeueDead w r.id) s r (requeuedRow s.now r)
  | stampWorkspace {w s r} : r.workspaceId = none →
      Writes (.stampWorkspace r.id w) s r (stampedRow w s.now r)

theorem Writes.id_eq {β : Type} {q : Stmt β} {s : Store} {r r' : ChannelInboxRow}
    (h : Writes q s r r') : r'.id = r.id := by
  cases h <;> rfl

theorem Writes.conversationKey_eq {β : Type} {q : Stmt β} {s : Store} {r r' : ChannelInboxRow}
    (h : Writes q s r r') : r'.conversationKey = r.conversationKey := by
  cases h <;> rfl

theorem nextClaim_mem (s : Store) (limit : Nat) (scan : ChannelInboxRow → Nat)
    (row : ChannelInboxRow) (h : s.nextClaim limit scan = some row) :
    row ∈ s.inbox.rows ∧ s.claimable limit row :=
  (s.inbox.mem_select _ row).mp (Table.firstBy_mem _ _ _ row h)

/-- The statement rewrites rows one by one, or adds a queued one. -/
def Effect {β : Type} (q : Stmt β) (s : Store) (rows : List ChannelInboxRow) : Prop :=
  (∃ image : ChannelInboxRow → ChannelInboxRow, rows = s.inbox.rows.map image ∧
    ∀ r ∈ s.inbox.rows, image r = r ∨ Writes q s r (image r)) ∨
  ∃ row : ChannelInboxRow, rows = s.inbox.rows ++ [row] ∧ row.state = .queued ∧
    row.id ∉ s.inbox.rows.map ChannelInboxRow.id

theorem effect_unchanged {β : Type} (q : Stmt β) (s : Store) : Effect q s s.inbox.rows :=
  Or.inl ⟨id, (List.map_id _).symm, fun _ _ => Or.inl rfl⟩

theorem effect_update {β : Type} (q : Stmt β) (s : Store) (p : ChannelInboxRow → Bool)
    (f : ChannelInboxRow → ChannelInboxRow) (hf : Table.Keeps inboxKeys f)
    (h : ∀ r ∈ s.inbox.rows, p r → Writes q s r (f r)) :
    Effect q s (s.updateInbox p f hf).inbox.rows := by
  refine Or.inl ⟨fun r => if p r then f r else r, rfl, fun r hr => ?_⟩
  show (if p r then f r else r) = r ∨ Writes q s r (if p r then f r else r)
  split
  · next hp => exact Or.inr (h r hr hp)
  · exact Or.inl rfl

/-- **The effect of a statement.** -/
theorem exec_row {β : Type} (q : Stmt β) (s : Store) : Effect q s (q.exec s).2.inbox.rows := by
  cases q with
  | insertMessage input id =>
    simp only [Stmt.exec]
    split
    · exact effect_unchanged _ s
    · next inbox h =>
      exact Or.inr ⟨_, Table.rows_insert _ _ _ h, rfl, insert_fresh _ _ _ h⟩
  | claimNext limit scan =>
    simp only [Stmt.exec]
    split
    · exact effect_unchanged _ s
    · next row h =>
      refine effect_update _ s _ (claimedRow s.now)
        (keeps_inboxKeys _ (fun _ => rfl) (fun _ => rfl) fun _ => rfl) fun r hr hid => ?_
      obtain rfl := s.inbox.eq_of_id r row hr (nextClaim_mem s limit scan row h).1
        (of_decide_eq_true hid)
      exact .claimNext h
  | complete id =>
    refine effect_update _ s _ _ _ fun r _ hid => ?_
    obtain rfl := of_decide_eq_true hid
    exact .complete
  | readAttempts id => exact effect_unchanged _ s
  | recordFailure id attempts decision error =>
    refine effect_update _ s _ _ _ fun r _ hid => ?_
    obtain rfl := of_decide_eq_true hid
    exact .recordFailure
  | reclaimStale => exact effect_update _ s _ _ _ fun r _ h => .reclaimStale h
  | requeueDead w id =>
    refine effect_update _ s _ _ _ fun r _ h => ?_
    simp only [Bool.and_eq_true, decide_eq_true_eq] at h
    obtain ⟨⟨rfl, hw⟩, hdead⟩ := h
    exact .requeueDead hw hdead
  | stampWorkspace id w =>
    refine effect_update _ s _ _ _ fun r _ h => ?_
    simp only [Bool.and_eq_true, decide_eq_true_eq, Option.isNone_iff_eq_none] at h
    obtain ⟨rfl, hw⟩ := h
    exact .stampWorkspace hw

/-- The row that a statement claims. -/
def Stmt.claims (s : Store) {β : Type} : Stmt β → Option ChannelInboxRow
  | .claimNext limit scan => s.nextClaim limit scan
  | _ => none

theorem exec_claims {β : Type} (q : Stmt β) (s : Store) :
    (q.exec s).2.claims =
      (q.claims s).elim s.claims fun row => ⟨row.id, s.queuedIds⟩ :: s.claims := by
  cases q <;> try rfl
  all_goals
    simp only [Stmt.exec, Stmt.claims]
    split
  · rfl
  · rfl
  · next h => rw [h]; rfl
  · next h => rw [h]; rfl

/-! ## The functions of the module -/

/-- JavaScript's truthiness of an optional string. -/
def isSet (t : Option Text) : Bool := t.any (· ≠ [])

structure EnqueueChannelMessageResult where
  id : Option Text
  deduped : Bool
  deriving DecidableEq, Repr

def enqueueChannelMessage (input : EnqueueChannelMessageInput) (id : Text) :
    Prog Stmt (Except String EnqueueChannelMessageResult) :=
  if !isSet input.workspaceId && !isSet input.chatIdentityId then
    pure (.error "enqueueChannelMessage: requires either workspaceId or chatIdentityId")
  else do
    let row ← .stmt (.insertMessage input id)
    pure (.ok ⟨row, row.isNone⟩)

def claimNextChannelMessage (workspaceInflightLimit : Option Nat)
    (scan : ChannelInboxRow → Nat) : Prog Stmt (Option ChannelInboxRow) :=
  .stmt (.claimNext (workspaceInflightLimit.getD DEFAULT_WORKSPACE_INFLIGHT_LIMIT) scan)

def completeChannelMessage (id : Text) : Prog Stmt Unit := .stmt (.complete id)

inductive FailResult where
  | requeued
  | dead
  deriving DecidableEq, Repr

def failChannelMessage (id error : Text) : Prog Stmt FailResult := do
  let current ← .stmt (.readAttempts id)
  let attempts := current.getD 0 + 1
  let decision := nextInboxStateAfterFailure attempts
  .stmt (.recordFailure id attempts decision error)
  pure (if decision.state = .dead then .dead else .requeued)

def reclaimStaleChannelMessages : Prog Stmt Nat := .stmt .reclaimStale

def requeueDeadChannelMessage (workspaceId id : Text) : Prog Stmt Bool :=
  .stmt (.requeueDead workspaceId id)

def stampChannelInboxWorkspace (rowId workspaceId : Text) : Prog Stmt Unit :=
  .stmt (.stampWorkspace rowId workspaceId)

/-! ## Operations and their runs -/

/-- How a turn ends. -/
inductive TurnOutcome where
  | completed
  | failed (error : Text)
  deriving DecidableEq, Repr

/-- `processRow` of the dispatcher, once the turn ended. -/
def processRow (row : ChannelInboxRow) : TurnOutcome → Prog Stmt Unit
  | .completed => completeChannelMessage row.id
  | .failed error => do
    let _ ← failChannelMessage row.id error
    pure ()

/-- One round of the dispatcher's loop. -/
def dispatchNext (scan : ChannelInboxRow → Nat) (outcome : TurnOutcome) : Prog Stmt Unit := do
  let claimed ← claimNextChannelMessage none scan
  match claimed with
  | none => pure ()
  | some row => processRow row outcome

inductive Op where
  | enqueue (input : EnqueueChannelMessageInput) (id : Text)
  | dispatchNext (scan : ChannelInboxRow → Nat) (outcome : TurnOutcome)
  | reclaimStale
  | requeueDead (workspaceId id : Text)
  | stampWorkspace (rowId workspaceId : Text)

/-- An operation as a program of the pool. -/
def opProgram : Op → Prog Stmt Unit
  | .enqueue input id => enqueueChannelMessage input id >>= fun _ => pure ()
  | .dispatchNext scan outcome => dispatchNext scan outcome
  | .reclaimStale => reclaimStaleChannelMessages >>= fun _ => pure ()
  | .requeueDead workspaceId id => requeueDeadChannelMessage workspaceId id >>= fun _ => pure ()
  | .stampWorkspace rowId workspaceId => stampChannelInboxWorkspace rowId workspaceId

/-- Only the clock changes on its own. -/
def Env (s s' : Store) : Prop := s.now ≤ s'.now ∧ s' = { s with now := s'.now }

def inboxSystem : System Store Stmt where
  exec := Stmt.exec
  starts := fun p => ∃ op, p = opProgram op
  env := Env

theorem env_inbox {s s' : Store} (h : Env s s') : s'.inbox = s.inbox := by
  rw [h.2]

theorem env_claims {s s' : Store} (h : Env s s') : s'.claims = s.claims := by
  rw [h.2]

/-- **Invariants of rows.** What every write keeps of a row stays true of it, whatever runs. -/
theorem row_invariant (P : ChannelInboxRow → Prop) (id : Text)
    {C : ∀ ⦃β : Type⦄, List (Prog Stmt Unit) → Store → Stmt β → Prop}
    (hwrite : ∀ {β : Type} (q : Stmt β) others s r r', C others s q → r ∈ s.inbox.rows →
      Writes q s r r' → r.id = id → P r → P r')
    {c c' : Config Store Stmt} (h : inboxSystem.Reaches C c c')
    (hc : ∃ r ∈ c.store.inbox.rows, r.id = id ∧ P r) :
    ∃ r ∈ c'.store.inbox.rows, r.id = id ∧ P r := by
  let J : Store → Prop := fun s => ∃ r ∈ s.inbox.rows, r.id = id ∧ P r
  suffices hJ : J c'.store from hJ
  refine inboxSystem.reaches_store ?_ ?_ h hc
  · rintro β q others s ⟨r, hr, hid, hP⟩ hC
    show ∃ r ∈ (Stmt.exec q s).2.inbox.rows, _
    rcases exec_row q s with ⟨image, hrows, himage⟩ | ⟨row, hrows, _, _⟩ <;> rw [hrows]
    · refine ⟨image r, List.mem_map_of_mem hr, ?_⟩
      rcases himage r hr with heq | hw
      · rw [heq]
        exact ⟨hid, hP⟩
      · exact ⟨hw.id_eq.trans hid, hwrite q others s r _ hC hr hw hid hP⟩
    · exact ⟨r, List.mem_append_left _ hr, hid, hP⟩
  · rintro s s' ⟨r, hr, hid, hP⟩ he
    exact ⟨r, (env_inbox he).symm ▸ hr, hid, hP⟩

/-! ## Runs of one operation after the other -/

/-- An operation on its own, with enough steps to end. -/
def solo (op : Op) (steps : Nat) : List (System.Choice Store Stmt) :=
  .start (opProgram op) :: List.replicate steps (.step 0)

/-- Time that passes. -/
def wait (time : Nat) : System.Choice Store Stmt := .env fun s => { s with now := s.now + time }

theorem solo_valid (op : Op) (steps : Nat) :
    ∀ choice ∈ solo op steps, choice.Valid inboxSystem := by
  refine List.forall_mem_cons.mpr ⟨⟨op, rfl⟩, fun choice hc => ?_⟩
  rw [List.eq_of_mem_replicate hc]
  exact trivial

theorem wait_valid (time : Nat) : (wait time).Valid inboxSystem :=
  fun s => ⟨by show s.now ≤ s.now + time; omega, rfl⟩

def emptyInbox : Store := { inbox := .empty, now := 0 }

/-- A message of the conversation `k`. -/
def message (provider : String) : EnqueueChannelMessageInput :=
  { workspaceId := some "w".toList, channel := "telegram".toList, conversationKey := "k".toList,
    providerMessageId := provider.toList }

end Agentrail.Inbox
