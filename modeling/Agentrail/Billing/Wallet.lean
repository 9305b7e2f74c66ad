import Agentrail.Js.Basic
import Mathlib.Algebra.BigOperators.Group.Finset.Basic
import Mathlib.Data.Rat.Floor

/-!
# The prepaid wallet (`wallet.ts`, `stripe_events.ts`, `pricing.ts`)

The wallet is an append-only ledger: the balance is the sum of its rows.  Money
comes in once for each Stripe event and goes out once for each run, whatever is
delivered how often; the unique indexes of the two tables are part of their
types (`StripeEvents`, `Ledger`).

A statement that breaks a constraint raises (`PgError`), and its transaction
leaves the tables as they were.  `wallet_conserved`: after any deliveries the
balance is what the distinct accepted top-ups add up to, less the prices of the
distinct accepted charges.
-/

namespace Agentrail.Billing

open Js

/-! ## Prices -/

def FLAT_SERVER_FEE_CENTS : Int := 50

def FLAT_PROFIT_CENTS : Int := 100

/-- `Math.round` -/
def round (x : ℚ) : Int := ⌊x + 1 / 2⌋

def usdToCents (usd : ℚ) : Int := round (usd * 100)

def taskPriceCents (actualTokenCostCents : ℚ) : Int :=
  round actualTokenCostCents + FLAT_SERVER_FEE_CENTS + FLAT_PROFIT_CENTS

/-! ## Tables -/

inductive PgError where
  /-- `integer out of range` -/
  | numericValueOutOfRange
  | foreignKeyViolation
  deriving DecidableEq, Repr

/-- The range of an `integer` column and of the cast `::int`. -/
def FitsInt4 (n : Int) : Prop := -2147483648 ≤ n ∧ n ≤ 2147483647

instance (n : Int) : Decidable (FitsInt4 n) := inferInstanceAs (Decidable (_ ∧ _))

structure Workspace where
  id : Text
  billingEnabled : Bool := false
  deriving DecidableEq, Repr

inductive TransactionKind where
  | topUp
  | taskCharge
  deriving DecidableEq, Repr

structure WalletTransaction where
  workspaceId : Text
  kind : TransactionKind
  amountUsdCents : Int
  runId : Option Text
  taskRef : Option Text
  description : Text
  deriving DecidableEq, Repr

/-- What the index `wallet_transactions_task_charge_run_id_idx` is about. -/
def WalletTransaction.chargedRun (row : WalletTransaction) : Option Text :=
  if row.kind = .taskCharge then row.runId else none

structure Ledger where
  rows : List WalletTransaction
  taskChargeRunUnique : (rows.filterMap WalletTransaction.chargedRun).Nodup

structure StripeEvent where
  eventId : Text
  eventType : Text
  workspaceId : Option Text
  amountUsdCents : Option Int
  deriving DecidableEq, Repr

structure StripeEvents where
  rows : List StripeEvent
  eventIdUnique : (rows.map StripeEvent.eventId).Nodup

/-- `INSERT … ON CONFLICT (event_id) DO NOTHING`: `none` on a conflict. -/
def StripeEvents.insert (t : StripeEvents) (row : StripeEvent) : Option StripeEvents :=
  if h : row.eventId ∈ t.rows.map StripeEvent.eventId then none
  else some ⟨t.rows ++ [row], by
    rw [List.map_append, List.map_singleton]
    exact List.nodup_append_comm.mp (List.nodup_cons.mpr ⟨h, t.eventIdUnique⟩)⟩

/-- A row that the partial index does not see. -/
def Ledger.append (t : Ledger) (row : WalletTransaction) (h : row.chargedRun = none) : Ledger :=
  ⟨t.rows ++ [row], by
    rw [List.filterMap_append, List.filterMap_cons_none h, List.filterMap_nil, List.append_nil]
    exact t.taskChargeRunUnique⟩

/-- `INSERT … ON CONFLICT (run_id) WHERE kind = 'task_charge' DO NOTHING`: `none` on a conflict. -/
def Ledger.insertCharge (t : Ledger) (row : WalletTransaction) (runId : Text)
    (hrun : row.chargedRun = some runId) : Option Ledger :=
  if h : runId ∈ t.rows.filterMap WalletTransaction.chargedRun then none
  else some ⟨t.rows ++ [row], by
    rw [List.filterMap_append, List.filterMap_cons_some hrun, List.filterMap_nil]
    exact List.nodup_append_comm.mp (List.nodup_cons.mpr ⟨h, t.taskChargeRunUnique⟩)⟩

structure Store where
  workspaces : List Workspace
  stripeEvents : StripeEvents
  ledger : Ledger

/-! ## Reading -/

def isBillingEnabled (s : Store) (workspaceId : Text) : Bool :=
  ((s.workspaces.find? (·.id = workspaceId)).map Workspace.billingEnabled).getD false

/-- `COALESCE(SUM(amount_usd_cents), 0)` over the rows of the workspace. -/
def sumCents (rows : List WalletTransaction) (workspaceId : Text) : Int :=
  ((rows.filter (·.workspaceId = workspaceId)).map WalletTransaction.amountUsdCents).sum

/-- `::int` -/
def castInt4 (n : Int) : Except PgError Int :=
  if FitsInt4 n then .ok n else .error .numericValueOutOfRange

def getWalletBalanceCents (s : Store) (workspaceId : Text) : Except PgError Int :=
  castInt4 (sumCents s.ledger.rows workspaceId)

def walletCanAdmit (s : Store) (workspaceId : Text) (estimateUsd : ℚ) : Except PgError Bool :=
  if estimateUsd ≤ 0 then .ok true
  else (getWalletBalanceCents s workspaceId).map (usdToCents estimateUsd ≤ ·)

/-! ## Writing -/

structure CreditTopUpForStripeEventInput where
  eventId : Text
  eventType : Text
  workspaceId : Text
  amountUsdCents : Int
  description : Option Text := none
  deriving DecidableEq, Repr

structure ChargeCompletedTaskInput where
  workspaceId : Text
  runId : Text
  taskRef : Option Text := none
  actualTokenCostCents : ℚ
  description : Option Text := none
  deriving DecidableEq

/-- What `NOT NULL REFERENCES workspaces` and the type `integer` ask of a row. -/
def Holds (s : Store) (workspaceId : Text) (amountUsdCents : Int) : Prop :=
  FitsInt4 amountUsdCents ∧ workspaceId ∈ s.workspaces.map Workspace.id

instance (s : Store) (workspaceId : Text) (n : Int) : Decidable (Holds s workspaceId n) :=
  inferInstanceAs (Decidable (_ ∧ _))

def topUpRow (input : CreditTopUpForStripeEventInput) : WalletTransaction where
  workspaceId := input.workspaceId
  kind := .topUp
  amountUsdCents := input.amountUsdCents
  runId := none
  taskRef := none
  description := input.description.getD "Top-up".toList

def enableBilling (workspaceId : Text) (w : Workspace) : Workspace :=
  if w.id = workspaceId ∧ w.billingEnabled = false then { w with billingEnabled := true } else w

/-- One transaction; the flag says whether this call posted the credit. -/
def creditTopUpForStripeEvent (input : CreditTopUpForStripeEventInput) (s : Store) :
    Except PgError (Bool × Store) :=
  let event : StripeEvent :=
    ⟨input.eventId, input.eventType, some input.workspaceId, some input.amountUsdCents⟩
  if ¬ FitsInt4 input.amountUsdCents then .error .numericValueOutOfRange
  else match s.stripeEvents.insert event with
  | none => .ok (false, s)
  | some stripeEvents =>
    -- the row is there to be checked only if there was no conflict
    if input.workspaceId ∉ s.workspaces.map Workspace.id then .error .foreignKeyViolation
    else .ok (true,
      { workspaces := s.workspaces.map (enableBilling input.workspaceId)
        stripeEvents := stripeEvents
        ledger := s.ledger.append (topUpRow input) rfl })

structure ChargeCompletedTaskResult where
  charged : Bool
  amountUsdCents : Int
  priceCents : Int
  deriving DecidableEq, Repr

def chargeRow (input : ChargeCompletedTaskInput) : WalletTransaction where
  workspaceId := input.workspaceId
  kind := .taskCharge
  amountUsdCents := -taskPriceCents input.actualTokenCostCents
  runId := some input.runId
  taskRef := input.taskRef
  description := input.description.getD <|
    match input.taskRef with
    | some (c :: ref) => "Task completed: ".toList ++ c :: ref
    | _ => "Task completed".toList

def chargeCompletedTask (input : ChargeCompletedTaskInput) (s : Store) :
    Except PgError (ChargeCompletedTaskResult × Store) :=
  let priceCents := taskPriceCents input.actualTokenCostCents
  if ¬ FitsInt4 (-priceCents) then .error .numericValueOutOfRange
  else match s.ledger.insertCharge (chargeRow input) input.runId rfl with
  | none => .ok (⟨false, -priceCents, priceCents⟩, s)
  | some ledger =>
    if input.workspaceId ∉ s.workspaces.map Workspace.id then .error .foreignKeyViolation
    else .ok (⟨true, -priceCents, priceCents⟩, { s with ledger := ledger })

/-! ## Deliveries -/

inductive Delivery where
  | topUp (input : CreditTopUpForStripeEventInput)
  | charge (input : ChargeCompletedTaskInput)
  deriving DecidableEq

/-- The tables after a delivery; one that raises rolls back. -/
def deliver (s : Store) : Delivery → Store
  | .topUp input =>
    match creditTopUpForStripeEvent input s with
    | .ok (_, s') => s'
    | .error _ => s
  | .charge input =>
    match chargeCompletedTask input s with
    | .ok (_, s') => s'
    | .error _ => s

def deliverAll (ds : List Delivery) (s : Store) : Store := ds.foldl deliver s

/-- What makes two deliveries the same: the event id, the run id. -/
def Delivery.SameKey : Delivery → Delivery → Prop
  | .topUp e, .topUp e' => e.eventId = e'.eventId
  | .charge c, .charge c' => c.runId = c'.runId
  | _, _ => False

instance (d d' : Delivery) : Decidable (d.SameKey d') :=
  match d, d' with
  | .topUp e, .topUp e' => inferInstanceAs (Decidable (e.eventId = e'.eventId))
  | .charge c, .charge c' => inferInstanceAs (Decidable (c.runId = c'.runId))
  | .topUp _, .charge _ => isFalse id
  | .charge _, .topUp _ => isFalse id

/-- A key is redelivered with what it was delivered with. -/
def Consistent (ds : List Delivery) : Prop :=
  ∀ d ∈ ds, ∀ d' ∈ ds, d.SameKey d' → d = d'

instance (ds : List Delivery) : Decidable (Consistent ds) :=
  inferInstanceAs (Decidable (∀ d ∈ ds, ∀ d' ∈ ds, d.SameKey d' → d = d'))

/-- The tables take the delivery. -/
def Delivery.Accepted (s : Store) : Delivery → Prop
  | .topUp e => Holds s e.workspaceId e.amountUsdCents
  | .charge c => Holds s c.workspaceId (-taskPriceCents c.actualTokenCostCents)

instance (s : Store) (d : Delivery) : Decidable (d.Accepted s) := by
  cases d <;> exact inferInstanceAs (Decidable (Holds _ _ _))

def Delivery.workspaceId : Delivery → Text
  | .topUp e => e.workspaceId
  | .charge c => c.workspaceId

def Delivery.topUp? : Delivery → Option CreditTopUpForStripeEventInput
  | .topUp e => some e
  | .charge _ => none

def Delivery.charge? : Delivery → Option ChargeCompletedTaskInput
  | .topUp _ => none
  | .charge c => some c

section
variable (s₀ : Store) (ds : List Delivery) (w : Text)

/-- The deliveries for a workspace that its tables take. -/
def acceptedFor : List Delivery := ds.filter fun d => d.Accepted s₀ ∧ d.workspaceId = w

/-- The distinct top-up events of a workspace. -/
def topUps : Finset CreditTopUpForStripeEventInput :=
  ((acceptedFor s₀ ds w).filterMap Delivery.topUp?).toFinset

/-- The distinct charged runs of a workspace. -/
def charges : Finset ChargeCompletedTaskInput :=
  ((acceptedFor s₀ ds w).filterMap Delivery.charge?).toFinset

/-- What was paid in less what the runs cost. -/
def expectedCents : Int :=
  ∑ e ∈ topUps s₀ ds w, e.amountUsdCents -
    ∑ c ∈ charges s₀ ds w, taskPriceCents c.actualTokenCostCents

end

/-! ## What a further delivery adds -/

/-- What the ledger row of a delivery carries. -/
def Delivery.cents : Delivery → Int
  | .topUp e => e.amountUsdCents
  | .charge c => -taskPriceCents c.actualTokenCostCents

theorem mem_acceptedFor (s₀ : Store) (ds : List Delivery) (w : Text) (d : Delivery) :
    d ∈ (acceptedFor s₀ ds w).toFinset ↔ d ∈ ds ∧ d.Accepted s₀ ∧ d.workspaceId = w := by
  unfold acceptedFor
  rw [List.mem_toFinset, List.mem_filter, decide_eq_true_eq]

theorem topUp_mem_topUps (s₀ : Store) (ds : List Delivery) (w : Text)
    (e : CreditTopUpForStripeEventInput) :
    e ∈ topUps s₀ ds w ↔ .topUp e ∈ (acceptedFor s₀ ds w).toFinset := by
  unfold topUps
  rw [List.mem_toFinset, List.mem_toFinset, List.mem_filterMap]
  constructor
  · rintro ⟨d, hd, he⟩
    cases d with
    | charge c => cases he
    | topUp e' => exact Option.some.inj he ▸ hd
  · intro h
    exact ⟨.topUp e, h, rfl⟩

theorem charge_mem_charges (s₀ : Store) (ds : List Delivery) (w : Text)
    (c : ChargeCompletedTaskInput) :
    c ∈ charges s₀ ds w ↔ .charge c ∈ (acceptedFor s₀ ds w).toFinset := by
  unfold charges
  rw [List.mem_toFinset, List.mem_toFinset, List.mem_filterMap]
  constructor
  · rintro ⟨d, hd, hc⟩
    cases d with
    | topUp e => cases hc
    | charge c' => exact Option.some.inj hc ▸ hd
  · intro h
    exact ⟨.charge c, h, rfl⟩

/-- Both sums in one. -/
theorem expectedCents_eq_sum (s₀ : Store) (ds : List Delivery) (w : Text) :
    expectedCents s₀ ds w = ∑ d ∈ (acceptedFor s₀ ds w).toFinset, d.cents := by
  have hsplit : (acceptedFor s₀ ds w).toFinset =
      (topUps s₀ ds w).image .topUp ∪ (charges s₀ ds w).image .charge := by
    ext d
    rw [Finset.mem_union, Finset.mem_image, Finset.mem_image]
    cases d with
    | topUp e => simp [topUp_mem_topUps]
    | charge c => simp [charge_mem_charges]
  have hdisjoint : Disjoint ((topUps s₀ ds w).image Delivery.topUp)
      ((charges s₀ ds w).image Delivery.charge) := by
    rw [Finset.disjoint_left]
    simp
  rw [hsplit, Finset.sum_union hdisjoint, Finset.sum_image fun _ _ _ _ h => Delivery.topUp.inj h,
    Finset.sum_image fun _ _ _ _ h => Delivery.charge.inj h]
  simp only [Delivery.cents, Finset.sum_neg_distrib]
  rfl

/-- The expected balance depends on what was delivered, not on how often or when. -/
theorem expectedCents_congr (s₀ : Store) (ds ds' : List Delivery) (w : Text)
    (h : ∀ d, d.Accepted s₀ → (d ∈ ds ↔ d ∈ ds')) :
    expectedCents s₀ ds w = expectedCents s₀ ds' w := by
  have hsame : (acceptedFor s₀ ds w).toFinset = (acceptedFor s₀ ds' w).toFinset := by
    ext d
    rw [mem_acceptedFor, mem_acceptedFor]
    constructor
    · rintro ⟨hd, hacc, hw⟩
      exact ⟨(h d hacc).mp hd, hacc, hw⟩
    · rintro ⟨hd, hacc, hw⟩
      exact ⟨(h d hacc).mpr hd, hacc, hw⟩
  rw [expectedCents_eq_sum, expectedCents_eq_sum, hsame]

/-- A delivery that the tables refuse, or that is a repetition, adds nothing. -/
theorem accepted_append (s₀ : Store) (ds : List Delivery) (d x : Delivery)
    (h : ¬ d.Accepted s₀ ∨ d ∈ ds) (hx : x.Accepted s₀) : x ∈ ds ++ [d] ↔ x ∈ ds := by
  rw [List.mem_append, List.mem_singleton]
  constructor
  · rintro (hmem | rfl)
    · exact hmem
    · exact h.resolve_left (not_not_intro hx)
  · exact Or.inl

theorem expectedCents_append_new (s₀ : Store) (ds : List Delivery) (d : Delivery) (w : Text)
    (hacc : d.Accepted s₀) (hnew : d ∉ ds) :
    expectedCents s₀ (ds ++ [d]) w =
      expectedCents s₀ ds w + if d.workspaceId = w then d.cents else 0 := by
  rw [expectedCents_eq_sum, expectedCents_eq_sum]
  by_cases hw : d.workspaceId = w
  · have hinsert : (acceptedFor s₀ (ds ++ [d]) w).toFinset =
        insert d (acceptedFor s₀ ds w).toFinset := by
      ext x
      rw [Finset.mem_insert, mem_acceptedFor, mem_acceptedFor, List.mem_append, List.mem_singleton]
      constructor
      · rintro ⟨h | rfl, hx⟩
        · exact Or.inr ⟨h, hx⟩
        · exact Or.inl rfl
      · rintro (rfl | ⟨h, hx⟩)
        · exact ⟨Or.inr rfl, hacc, hw⟩
        · exact ⟨Or.inl h, hx⟩
    rw [hinsert, Finset.sum_insert fun h => hnew ((mem_acceptedFor s₀ ds w d).mp h).1, if_pos hw,
      add_comm]
  · have hsame : (acceptedFor s₀ (ds ++ [d]) w).toFinset = (acceptedFor s₀ ds w).toFinset := by
      ext x
      rw [mem_acceptedFor, mem_acceptedFor, List.mem_append, List.mem_singleton]
      constructor
      · rintro ⟨h | rfl, hx⟩
        · exact ⟨h, hx⟩
        · exact absurd hx.2 hw
      · rintro ⟨h, hx⟩
        exact ⟨Or.inl h, hx⟩
    rw [hsame, if_neg hw, add_zero]

theorem sumCents_append (rows : List WalletTransaction) (row : WalletTransaction) (w : Text) :
    sumCents (rows ++ [row]) w =
      sumCents rows w + if row.workspaceId = w then row.amountUsdCents else 0 := by
  unfold sumCents
  rw [List.filter_append, List.map_append, List.sum_append]
  by_cases hw : row.workspaceId = w <;> simp [hw]

/-! ## What a delivery does to the tables -/

/-- The event ids and the charged runs that the tables know. -/
def Store.eventIds (s : Store) : List Text := s.stripeEvents.rows.map StripeEvent.eventId

def Store.chargedRuns (s : Store) : List Text := s.ledger.rows.filterMap WalletTransaction.chargedRun

def Store.workspaceIds (s : Store) : List Text := s.workspaces.map Workspace.id

def Delivery.row : Delivery → WalletTransaction
  | .topUp e => topUpRow e
  | .charge c => chargeRow c

/-- The tables have the key of the delivery. -/
def Delivery.Known (s : Store) : Delivery → Prop
  | .topUp e => e.eventId ∈ s.eventIds
  | .charge c => c.runId ∈ s.chargedRuns

theorem map_enableBilling (workspaceId : Text) (ws : List Workspace) :
    (ws.map (enableBilling workspaceId)).map Workspace.id = ws.map Workspace.id := by
  rw [List.map_map]
  refine List.map_congr_left fun x _ => ?_
  show (enableBilling workspaceId x).id = x.id
  unfold enableBilling
  split <;> rfl

/-- What is refused or known changes nothing. -/
theorem deliver_old (s : Store) (d : Delivery) (h : ¬ d.Accepted s ∨ d.Known s) :
    deliver s d = s := by
  cases d with
  | topUp e =>
    unfold deliver creditTopUpForStripeEvent StripeEvents.insert
    by_cases hfits : FitsInt4 e.amountUsdCents
    · by_cases hid : e.eventId ∈ s.stripeEvents.rows.map StripeEvent.eventId
      · simp [hfits, hid]
      · have hws : e.workspaceId ∉ s.workspaces.map Workspace.id :=
          fun hw => (h.resolve_right hid) ⟨hfits, hw⟩
        simp only [hfits, hid, hws, not_true_eq_false, not_false_eq_true, if_true, if_false,
          dite_false]
    · simp [hfits]
  | charge c =>
    unfold deliver chargeCompletedTask Ledger.insertCharge
    by_cases hfits : FitsInt4 (-taskPriceCents c.actualTokenCostCents)
    · by_cases hrun : c.runId ∈ s.ledger.rows.filterMap WalletTransaction.chargedRun
      · simp [hfits, hrun]
      · have hws : c.workspaceId ∉ s.workspaces.map Workspace.id :=
          fun hw => (h.resolve_right hrun) ⟨hfits, hw⟩
        simp only [hfits, hrun, hws, not_true_eq_false, not_false_eq_true, if_true, if_false,
          dite_false]
    · simp [hfits]

/-- A new delivery appends its row and makes its key known. -/
theorem deliver_new (s : Store) (d : Delivery) (hacc : d.Accepted s) (hnew : ¬ d.Known s) :
    (deliver s d).ledger.rows = s.ledger.rows ++ [d.row] ∧
      (deliver s d).workspaceIds = s.workspaceIds ∧
      (∀ id, id ∈ (deliver s d).eventIds ↔
        id ∈ s.eventIds ∨ ∃ e, d = .topUp e ∧ e.eventId = id) := by
  cases d with
  | topUp e =>
    obtain ⟨hfits, hws⟩ := hacc
    have hid : e.eventId ∉ s.stripeEvents.rows.map StripeEvent.eventId := hnew
    unfold deliver creditTopUpForStripeEvent StripeEvents.insert
    simp only [hfits, hid, hws, not_true_eq_false, if_false, dite_false]
    refine ⟨rfl, map_enableBilling _ _, fun id => ?_⟩
    simp [Store.eventIds, eq_comm]
  | charge c =>
    obtain ⟨hfits, hws⟩ := hacc
    have hrun : c.runId ∉ s.ledger.rows.filterMap WalletTransaction.chargedRun := hnew
    unfold deliver chargeCompletedTask Ledger.insertCharge
    simp only [hfits, hrun, hws, not_true_eq_false, if_false, dite_false]
    refine ⟨rfl, rfl, fun id => ?_⟩
    simp [Store.eventIds]

/-! ## Conservation -/

/-- The tables after the deliveries `ds` to `s₀`: which keys they know, and what they add up to. -/
structure Posted (s₀ s : Store) (ds : List Delivery) : Prop where
  workspaces : s.workspaceIds = s₀.workspaceIds
  events : ∀ id, id ∈ s.eventIds ↔
    ∃ e, .topUp e ∈ ds ∧ (Delivery.topUp e).Accepted s₀ ∧ e.eventId = id
  runs : ∀ run, run ∈ s.chargedRuns ↔
    ∃ c, .charge c ∈ ds ∧ (Delivery.charge c).Accepted s₀ ∧ c.runId = run
  balance : ∀ w, sumCents s.ledger.rows w = expectedCents s₀ ds w

theorem Posted.accepted_iff {s₀ s : Store} {ds : List Delivery} (h : Posted s₀ s ds)
    (d : Delivery) : d.Accepted s ↔ d.Accepted s₀ := by
  have hws : s.workspaces.map Workspace.id = s₀.workspaces.map Workspace.id := h.workspaces
  cases d <;> unfold Delivery.Accepted Holds <;> rw [hws]

theorem Posted.known_iff {s₀ s : Store} {ds : List Delivery} (h : Posted s₀ s ds)
    (d : Delivery) (hacc : d.Accepted s₀) (hds : Consistent (ds ++ [d])) :
    d.Known s ↔ d ∈ ds := by
  have hlast : d ∈ ds ++ [d] := List.mem_append_right _ List.mem_cons_self
  cases d with
  | topUp e =>
    show e.eventId ∈ s.eventIds ↔ _
    rw [h.events]
    constructor
    · rintro ⟨e', hmem, _, hid⟩
      rw [← hds _ (List.mem_append_left _ hmem) _ hlast hid]
      exact hmem
    · intro hmem
      exact ⟨e, hmem, hacc, rfl⟩
  | charge c =>
    show c.runId ∈ s.chargedRuns ↔ _
    rw [h.runs]
    constructor
    · rintro ⟨c', hmem, _, hid⟩
      rw [← hds _ (List.mem_append_left _ hmem) _ hlast hid]
      exact hmem
    · intro hmem
      exact ⟨c, hmem, hacc, rfl⟩

theorem chargedRuns_append (s s' : Store) (d : Delivery)
    (h : s'.ledger.rows = s.ledger.rows ++ [d.row]) (run : Text) :
    run ∈ s'.chargedRuns ↔ run ∈ s.chargedRuns ∨ ∃ c, d = .charge c ∧ c.runId = run := by
  unfold Store.chargedRuns
  rw [h, List.filterMap_append, List.mem_append]
  refine or_congr_right ?_
  cases d with
  | topUp e => simp [Delivery.row, topUpRow, WalletTransaction.chargedRun]
  | charge c => simp [Delivery.row, chargeRow, WalletTransaction.chargedRun, eq_comm]

theorem row_workspaceId (d : Delivery) : d.row.workspaceId = d.workspaceId := by
  cases d <;> rfl

theorem row_amountUsdCents (d : Delivery) : d.row.amountUsdCents = d.cents := by
  cases d <;> rfl

/-- A delivery that is refused or was made before posts nothing. -/
theorem Posted.old {s₀ s : Store} {ds : List Delivery} {d : Delivery} (h : Posted s₀ s ds)
    (hold : ¬ d.Accepted s₀ ∨ d ∈ ds) : Posted s₀ s (ds ++ [d]) := by
  have hmem : ∀ x : Delivery, x.Accepted s₀ → (x ∈ ds ++ [d] ↔ x ∈ ds) :=
    fun x => accepted_append s₀ ds d x hold
  refine ⟨h.workspaces, fun id => ?_, fun run => ?_, fun w => ?_⟩
  · rw [h.events]
    refine exists_congr fun e => ?_
    constructor
    · rintro ⟨he, hacc, hid⟩
      exact ⟨(hmem _ hacc).mpr he, hacc, hid⟩
    · rintro ⟨he, hacc, hid⟩
      exact ⟨(hmem _ hacc).mp he, hacc, hid⟩
  · rw [h.runs]
    refine exists_congr fun c => ?_
    constructor
    · rintro ⟨hc, hacc, hid⟩
      exact ⟨(hmem _ hacc).mpr hc, hacc, hid⟩
    · rintro ⟨hc, hacc, hid⟩
      exact ⟨(hmem _ hacc).mp hc, hacc, hid⟩
  · rw [h.balance, expectedCents_congr s₀ _ _ w hmem]

/-- An accepted delivery that was not made before posts its row. -/
theorem Posted.new {s₀ s : Store} {ds : List Delivery} {d : Delivery} (h : Posted s₀ s ds)
    (hds : Consistent (ds ++ [d])) (hacc : d.Accepted s₀) (hnew : d ∉ ds) :
    Posted s₀ (deliver s d) (ds ++ [d]) := by
  obtain ⟨hrows, hws, hevents⟩ := deliver_new s d ((h.accepted_iff d).mpr hacc)
    (mt (h.known_iff d hacc hds).mp hnew)
  refine ⟨hws.trans h.workspaces, fun id => ?_, fun run => ?_, fun w => ?_⟩
  · rw [hevents, h.events]
    constructor
    · rintro (⟨e, he, heacc, hid⟩ | ⟨e, rfl, hid⟩)
      · exact ⟨e, List.mem_append_left _ he, heacc, hid⟩
      · exact ⟨e, List.mem_append_right _ List.mem_cons_self, hacc, hid⟩
    · rintro ⟨e, he, heacc, hid⟩
      rcases List.mem_append.mp he with he | he
      · exact Or.inl ⟨e, he, heacc, hid⟩
      · exact Or.inr ⟨e, (List.mem_singleton.mp he).symm, hid⟩
  · rw [chargedRuns_append s _ d hrows, h.runs]
    constructor
    · rintro (⟨c, hc, hcacc, hid⟩ | ⟨c, rfl, hid⟩)
      · exact ⟨c, List.mem_append_left _ hc, hcacc, hid⟩
      · exact ⟨c, List.mem_append_right _ List.mem_cons_self, hacc, hid⟩
    · rintro ⟨c, hc, hcacc, hid⟩
      rcases List.mem_append.mp hc with hc | hc
      · exact Or.inl ⟨c, hc, hcacc, hid⟩
      · exact Or.inr ⟨c, (List.mem_singleton.mp hc).symm, hid⟩
  · rw [hrows, sumCents_append, h.balance, expectedCents_append_new s₀ ds d w hacc hnew,
      row_workspaceId, row_amountUsdCents]

theorem posted_deliver (s₀ s : Store) (ds : List Delivery) (d : Delivery) (h : Posted s₀ s ds)
    (hds : Consistent (ds ++ [d])) : Posted s₀ (deliver s d) (ds ++ [d]) := by
  by_cases hold : ¬ d.Accepted s₀ ∨ d ∈ ds
  · have hsame : deliver s d = s := by
      refine deliver_old s d ?_
      by_cases hacc : d.Accepted s₀
      · exact Or.inr ((h.known_iff d hacc hds).mpr (hold.resolve_left (not_not_intro hacc)))
      · exact Or.inl fun hs => hacc ((h.accepted_iff d).mp hs)
    rw [hsame]
    exact h.old hold
  · rw [not_or, not_not] at hold
    exact h.new hds hold.1 hold.2

/-- Tables before anything was paid or charged. -/
def Fresh (s : Store) : Prop := s.stripeEvents.rows = [] ∧ s.ledger.rows = []

theorem posted_deliverAll (s₀ : Store) (hfresh : Fresh s₀) (ds : List Delivery)
    (hds : Consistent ds) : Posted s₀ (deliverAll ds s₀) ds := by
  induction ds using List.reverseRecOn with
  | nil =>
    have hevents : s₀.eventIds = [] := by
      unfold Store.eventIds
      rw [hfresh.1, List.map_nil]
    have hruns : s₀.chargedRuns = [] := by
      unfold Store.chargedRuns
      rw [hfresh.2, List.filterMap_nil]
    have hsum (w : Text) : sumCents s₀.ledger.rows w = 0 := by
      rw [hfresh.2]
      rfl
    exact ⟨rfl, by simp [deliverAll, hevents], by simp [deliverAll, hruns], fun w => hsum w⟩
  | append_singleton ds d ih =>
    have hprior : Consistent ds := fun x hx y hy =>
      hds x (List.mem_append_left _ hx) y (List.mem_append_left _ hy)
    unfold deliverAll
    rw [List.foldl_append]
    exact posted_deliver s₀ _ ds d (ih hprior) hds

/-- **Conservation.** Whatever is delivered, in any order and any number of times, the balance of
a workspace is what its distinct accepted top-ups add up to less the prices of its distinct
accepted charges; where that is no `integer` the query raises. -/
theorem wallet_conserved (s₀ : Store) (hfresh : Fresh s₀) (ds : List Delivery)
    (hds : Consistent ds) (w : Text) :
    getWalletBalanceCents (deliverAll ds s₀) w = castInt4 (expectedCents s₀ ds w) ∧
      ∀ ds', (∀ d, d ∈ ds' ↔ d ∈ ds) →
        getWalletBalanceCents (deliverAll ds' s₀) w = getWalletBalanceCents (deliverAll ds s₀) w := by
  have hbalance : ∀ xs : List Delivery, Consistent xs →
      getWalletBalanceCents (deliverAll xs s₀) w = castInt4 (expectedCents s₀ xs w) := by
    intro xs hxs
    unfold getWalletBalanceCents
    rw [(posted_deliverAll s₀ hfresh xs hxs).balance]
  refine ⟨hbalance ds hds, fun ds' hmem => ?_⟩
  have hds' : Consistent ds' := fun x hx y hy => hds x ((hmem x).mp hx) y ((hmem y).mp hy)
  rw [hbalance ds hds, hbalance ds' hds', expectedCents_congr s₀ ds' ds w fun d _ => hmem d]

/-! ## Samples -/

def emptyTables : Store where
  workspaces := [{ id := "w".toList }]
  stripeEvents := ⟨[], List.nodup_nil⟩
  ledger := ⟨[], List.nodup_nil⟩

def sampleTopUp (eventId : String) (amountUsdCents : Int) : Delivery :=
  .topUp ⟨eventId.toList, "checkout.session.completed".toList, "w".toList, amountUsdCents, none⟩

/-- One event and one run, each delivered twice. -/
def redelivered : List Delivery :=
  let charge := Delivery.charge ⟨"w".toList, "r".toList, none, 25, none⟩
  [sampleTopUp "evt_1" 1000, charge, sampleTopUp "evt_1" 1000, charge]

theorem wallet_conserved_redelivered :
    getWalletBalanceCents (deliverAll redelivered emptyTables) "w".toList = .ok 825 := by
  have hexpected : expectedCents emptyTables redelivered "w".toList = 825 := by decide +kernel
  rw [(wallet_conserved emptyTables ⟨rfl, rfl⟩ redelivered (by decide +kernel) "w".toList).1,
    hexpected]
  rfl

/-- Ten million dollars, three times. -/
def largeTopUps : List Delivery :=
  [sampleTopUp "evt_1" 1000000000, sampleTopUp "evt_2" 1000000000, sampleTopUp "evt_3" 1000000000]

/-- The cast of the sum raises beyond the range of `integer`. -/
theorem balance_out_of_range : ¬ ∀ (s₀ : Store) (ds : List Delivery), Fresh s₀ → Consistent ds →
    (∀ d ∈ ds, d.Accepted s₀) → ∀ w ∈ s₀.workspaceIds,
      getWalletBalanceCents (deliverAll ds s₀) w = .ok (expectedCents s₀ ds w) := by
  intro h
  have hok := h emptyTables largeTopUps ⟨rfl, rfl⟩ (by decide +kernel) (by decide +kernel)
    "w".toList (by decide)
  have herror : getWalletBalanceCents (deliverAll largeTopUps emptyTables) "w".toList =
      .error .numericValueOutOfRange := by rfl
  rw [herror] at hok
  cases hok

end Agentrail.Billing
