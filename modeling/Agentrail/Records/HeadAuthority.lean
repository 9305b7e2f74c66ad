import Agentrail.Lib.Runs
import Agentrail.Records.HeadEffects

/-!
# The generation of the authority

The head of a record is the commit, the cycle and the flag that says whether it may be worked on;
the generation counts its changes.  Operations come in any order and any number of times, and
between two of them the clock and the tables of others may change (`Action`).

Main result: `authority_generations`.  It rests on one invariant of the timeline, `Receipted`: an
event that a delivery causes stands beside the receipt of that delivery, so a fresh delivery finds
none of its own events.
-/

namespace Agentrail.Records

open Js Runs

/-! ## The head of a record -/

/-- What may be worked on. -/
structure Head where
  sha : Option Text
  cycleId : Option Text
  authoritative : Bool
  deriving DecidableEq, Repr

def ChangeRecordRow.head (r : ChangeRecordRow) : Head where
  sha := r.currentPrHeadSha
  cycleId := r.currentPrHeadCycleId
  authoritative := r.currentPrHeadAuthoritative

def Store.row (s : Store) (recordId : Text) : Option ChangeRecordRow :=
  s.records.find? fun r => r.id = recordId

def Store.head (s : Store) (recordId : Text) : Option Head :=
  (s.row recordId).map ChangeRecordRow.head

def Store.generation (s : Store) (recordId : Text) : Nat :=
  ((s.row recordId).map ChangeRecordRow.currentPrHeadAuthorityGeneration).getD 0

/-- The delivery has been processed. -/
def Store.Received (s : Store) (recordId : Text) (prNumber : Nat) (deliveryId : Text) : Prop :=
  s.HasEvent recordId (deliveryEventKey prNumber deliveryId)

/-! ## Runs -/

inductive Action where
  | call (op : HeadOp)
  /-- whatever else happens: to the clock, the contracts, the dispatches, the jobs, the boots -/
  | elsewhere (now : Int) (contracts : List AcceptanceContractRow)
      (dispatches : List CorrectionDispatchRow) (jobs : Review.ReviewJobTable)
      (boots : Preview.PreviewBootTable)

def Action.exec (host : Host) : Action → Store → Store
  | .call op, s => op.exec host s
  | .elsewhere now contracts dispatches jobs boots, s =>
    { s with now := now, contracts := contracts, dispatches := dispatches, jobs := jobs,
             boots := boots }

def next (host : Host) (s : Store) (a : Action) : Option Store := some (a.exec host s)

/-- The delivery that an operation is about. -/
def HeadOp.delivery : HeadOp → Option (Text × Nat × Text)
  | .advance input => some (input.recordId, input.prNumber, input.deliveryId)
  | .invalidate input => some (input.recordId, input.prNumber, input.deliveryId)
  | .attach _ | .reconcile _ => none

/-- The blocked tuple that a reconciliation names. -/
def HeadOp.blockedTuple : HeadOp → Option (Text × Text × Text × Nat)
  | .reconcile input => some (input.recordId, input.expectedBlockedHeadSha,
      input.expectedBlockedCycleId, input.expectedBlockedAuthorityGeneration)
  | .attach _ | .advance _ | .invalidate _ => none

/-- Two calls for one delivery, or for one blocked tuple. -/
def HeadOp.SameAs (op op' : HeadOp) : Prop :=
  op.delivery.isSome ∧ op.delivery = op'.delivery ∨
    op.blockedTuple.isSome ∧ op.blockedTuple = op'.blockedTuple

def ReconcileResult.succeeds : ReconcileResult → Bool
  | .reconciled .. | .alreadyCurrent .. | .closed .. => true
  | .blockedPreconditionChanged .. | .refused _ => false

/-- The reconciliation has succeeded before: its own event is on the timeline. -/
def ReconcileInput.Recorded (host : Host) (input : ReconcileInput) (s : Store) : Prop :=
  ∃ version, isRecorded (reconciledEvent host input version) s ∨
    isRecorded (closedEvent host input version) s

/-! ## Rows -/

section
variable (s : Store) (recordId : Text)

theorem row_eq_some {s : Store} {recordId : Text} {r : ChangeRecordRow}
    (h : s.row recordId = some r) : r ∈ s.records ∧ r.id = recordId := by
  have hid := List.find?_some h
  exact ⟨List.mem_of_find?_eq_some h, of_decide_eq_true hid⟩

theorem row_of_mem (hids : (s.records.map ChangeRecordRow.id).Nodup) (r : ChangeRecordRow)
    (hr : r ∈ s.records) : s.row r.id = some r := by
  cases hrow : s.row r.id with
  | none =>
    have hno := List.find?_eq_none.mp hrow r hr
    exact absurd (decide_eq_true rfl) hno
  | some r' =>
    obtain ⟨hr', hid⟩ := row_eq_some hrow
    rw [List.inj_on_of_nodup_map hids hr' hr hid]

/-- The record that the functions of the module read. -/
theorem row_of_confirmedRecord (hids : (s.records.map ChangeRecordRow.id).Nodup)
    (pr : PullRequestInput) (record : ChangeRecordRow) (version : Nat)
    (h : s.confirmedRecord pr = .ok (record, version)) :
    record.id = pr.recordId ∧ s.row pr.recordId = some record := by
  unfold Store.confirmedRecord at h
  split at h
  · cases h
  next r hr =>
  split at h
  · cases h
  cases h
  have hkey := List.find?_some hr
  simp only [Bool.and_eq_true, decide_eq_true_eq] at hkey
  have hrow := row_of_mem s hids record (List.mem_of_find?_eq_some hr)
  rw [hkey.1.2] at hrow
  exact ⟨hkey.1.2, hrow⟩

variable {f : ChangeRecordRow → ChangeRecordRow} (hf : ∀ r, (f r).id = r.id)
include hf

theorem ids_updateRecord (id : Text) : (s.updateRecord id f).records.map ChangeRecordRow.id =
    s.records.map ChangeRecordRow.id := by
  show (s.records.map _).map _ = _
  rw [List.map_map]
  refine List.map_congr_left fun r _ => ?_
  show (if r.id = id then f r else r).id = r.id
  split
  · exact hf r
  · rfl

theorem row_updateRecord (id : Text) : (s.updateRecord id f).row recordId =
    (s.row recordId).map fun r => if r.id = id then f r else r := by
  show (s.records.map _).find? _ = _
  rw [List.find?_map]
  have hsame : ((fun r : ChangeRecordRow => decide (r.id = recordId)) ∘
      fun r => if r.id = id then f r else r) = fun r => decide (r.id = recordId) := by
    funext r
    show decide ((if r.id = id then f r else r).id = recordId) = _
    split
    · rw [hf r]
    · rfl
  rw [hsame]
  rfl

theorem row_updateRecord_self (id : Text) :
    (s.updateRecord id f).row id = (s.row id).map f := by
  rw [row_updateRecord s id hf]
  cases hrow : s.row id with
  | none => rfl
  | some r =>
    show some (if r.id = id then f r else r) = some (f r)
    rw [if_pos (row_eq_some hrow).2]

theorem row_updateRecord_of_ne (id : Text) (hne : recordId ≠ id) :
    (s.updateRecord id f).row recordId = s.row recordId := by
  rw [row_updateRecord s recordId hf]
  cases hrow : s.row recordId with
  | none => rfl
  | some r =>
    show some (if r.id = id then f r else r) = some r
    rw [if_neg]
    rw [(row_eq_some hrow).2]
    exact hne

end

/-! ## Receipts -/

/-- An event that is there only after this delivery has been receipted. -/
inductive CausedBy (prNumber : Nat) (deliveryId : Text) : Text → Payload → Prop
  | held (p : Payload) : CausedBy prNumber deliveryId (heldEventKey prNumber deliveryId) p
  | terminal (p : Payload) : CausedBy prNumber deliveryId (terminalEventKey prNumber deliveryId) p
  | advanced (wasAttached : Bool) (cycleId : Text) (p : AdvancedPayload) :
    p.prNumber = prNumber → p.deliveryId = deliveryId →
    CausedBy prNumber deliveryId (advancedEventKey prNumber wasAttached cycleId) (.advanced p)

/-- Every delivery that has caused an event is receipted. -/
def Receipted (s : Store) (recordId : Text) : Prop :=
  ∀ e ∈ s.events, e.recordId = recordId → ∀ prNumber deliveryId,
    CausedBy prNumber deliveryId e.eventKey e.payloadRef → s.Received recordId prNumber deliveryId

theorem CausedBy.isExternalPrKey {prNumber : Nat} {deliveryId key : Text} {p : Payload}
    (h : CausedBy prNumber deliveryId key p) :
    ∃ kind n name, key = externalPrKey kind n name := by
  cases h <;> exact ⟨_, _, _, rfl⟩

/-- What an event is caused by can be read off its key, by its kind. -/
theorem CausedBy.of_externalPrKey (kind : String) {prNumber : Nat} {deliveryId : Text}
    {p : Payload} {n : Nat} {name : Text} (hkind : ':' ∉ kind.toList)
    (h : CausedBy prNumber deliveryId (externalPrKey kind n name) p) :
    n = prNumber ∧
      (kind = "head-transition-held" ∧ name = deliveryId ∨
        kind = "head-invalidated" ∧ name = deliveryId ∨
        (kind = "head-advanced" ∨ kind = "attached") ∧
          ∃ q, p = .advanced q ∧ q.prNumber = prNumber ∧ q.deliveryId = deliveryId) := by
  generalize hkey : externalPrKey kind n name = key at h
  cases h with
  | held p =>
    obtain ⟨hk, rfl, rfl⟩ := externalPrKey_injective _ _ _ _ _ _ hkind (by decide) hkey
    exact ⟨rfl, Or.inl ⟨String.toList_inj.mp hk, rfl⟩⟩
  | terminal p =>
    obtain ⟨hk, rfl, rfl⟩ := externalPrKey_injective _ _ _ _ _ _ hkind (by decide) hkey
    exact ⟨rfl, Or.inr (Or.inl ⟨String.toList_inj.mp hk, rfl⟩)⟩
  | advanced wasAttached cycleId q hn hd =>
    obtain ⟨hk, rfl, rfl⟩ := externalPrKey_injective _ _ _ _ _ _ hkind
      (by cases wasAttached <;> decide) hkey
    refine ⟨rfl, Or.inr (Or.inr ⟨?_, q, rfl, hn, hd⟩)⟩
    have hkind' := String.toList_inj.mp hk
    cases wasAttached with
    | true => exact Or.inl hkind'
    | false => exact Or.inr hkind'

section
variable {host : Host} {s s' : Store}

theorem Grown.received {recordId : Text} {inputs : List AppendChangeRecordEventInput}
    (hgrown : Grown host s s' recordId inputs) {rid : Text} {n : Nat} {d : Text}
    (h : s.Received rid n d) : s'.Received rid n d := by
  obtain ⟨e, he, hkey⟩ := h
  exact ⟨e, hgrown.kept e he, hkey⟩

theorem Receipted.grown {rid recordId : Text} {inputs : List AppendChangeRecordEventInput}
    (h : Receipted s rid) (hgrown : Grown host s s' recordId inputs)
    (hcaused : ∀ i ∈ inputs, ∀ n d, CausedBy n d i.eventKey i.payloadRef →
      ∃ j ∈ inputs, j.recordId = i.recordId ∧ j.eventKey = deliveryEventKey n d) :
    Receipted s' rid := by
  intro e he hid n d hby
  rcases hgrown.new e he with hold | ⟨i, hi, rfl⟩ | ⟨_, hdispatch⟩
  · exact hgrown.received (h e hold hid n d hby)
  · obtain ⟨j, hj, hjid, hjkey⟩ := hcaused i hi n d hby
    have hthere := hgrown.there j hj
    rw [hjid, hjkey] at hthere
    have hrid : i.recordId = rid := hid
    rw [hrid] at hthere
    exact hthere
  · obtain ⟨kind, n', name, hkey⟩ := hby.isExternalPrKey
    rw [hkey] at hdispatch
    exact absurd hdispatch (externalPrKey_ne_dispatchKey kind n' name)

/-- Events that no delivery causes. -/
theorem not_causedBy_of_kind {n : Nat} {d : Text} {p : Payload} (kind : String) (m : Nat)
    (name : Text) (hkind : ':' ∉ kind.toList) (hheld : kind ≠ "head-transition-held")
    (hterminal : kind ≠ "head-invalidated") (hpayload : ∀ q, p ≠ .advanced q) :
    ¬ CausedBy n d (externalPrKey kind m name) p := by
  intro h
  obtain ⟨_, ⟨hk, _⟩ | ⟨hk, _⟩ | ⟨_, q, hq, _⟩⟩ := CausedBy.of_externalPrKey kind hkind h
  · exact hheld hk
  · exact hterminal hk
  · exact hpayload q hq

theorem grown_of_effect {op : HeadOp} (heffect : Effect host op s s') :
    ∃ inputs, Grown host s s' op.pr.recordId inputs := by
  cases heffect with
  | unchanged => exact ⟨[], Grown.refl host s _⟩
  | _ => exact ⟨_, by assumption⟩

/-- Every operation keeps the invariant. -/
theorem receipted_of_effect {op : HeadOp} (heffect : Effect host op s s') {rid : Text}
    (h : Receipted s rid) : Receipted s' rid := by
  -- the receipts themselves
  have hreceipt : ∀ (m : Nat) (name : Text) (p : DeliveryPayload) (n : Nat) (d : Text),
      ¬ CausedBy n d (deliveryEventKey m name) (.delivery p) := fun m name p n d =>
    not_causedBy_of_kind "delivery" m name (by decide) (by decide) (by decide)
      (fun q hq => by cases hq)
  cases heffect with
  | unchanged => exact h
  | attached input _ _ record version inputs _ _ _ _ _ hinputs hgrown =>
    refine h.grown hgrown fun i hi n d hby => ?_
    rw [hinputs i hi] at hby
    exact absurd hby (not_causedBy_of_kind "attached" _ _ (by decide) (by decide) (by decide)
      (fun q hq => by cases hq))
  | receipted input _ _ record version _ _ _ _ _ hgrown =>
    refine h.grown hgrown fun i hi n d hby => ?_
    rw [List.mem_singleton.mp hi] at hby
    exact absurd hby (hreceipt _ _ _ n d)
  | held input _ _ record version previous _ _ _ _ _ hgrown =>
    refine h.grown hgrown fun i hi n d hby => ?_
    rcases List.mem_pair.mp hi with rfl | rfl
    · obtain ⟨rfl, ⟨_, rfl⟩ | ⟨hk, _⟩ | ⟨_, _, hq, _⟩⟩ :=
        CausedBy.of_externalPrKey "head-transition-held" (by decide) hby
      · exact ⟨_, List.mem_cons_of_mem _ List.mem_cons_self, rfl, rfl⟩
      · exact absurd hk (by decide)
      · cases hq
    · exact absurd hby (hreceipt _ _ _ n d)
  | current input _ _ record version cycleId _ _ _ _ _ _ _ hgrown =>
    refine h.grown hgrown fun i hi n d hby => ?_
    rw [List.mem_singleton.mp hi] at hby
    exact absurd hby (hreceipt _ _ _ n d)
  | promoted input _ _ record version cycleId inserted inputs _ _ _ _ _ _ hinputs hmem hgrown =>
    refine h.grown hgrown fun i hi n d hby => ?_
    rcases hinputs i hi with rfl | rfl
    · obtain ⟨rfl, ⟨hk, _⟩ | ⟨hk, _⟩ | ⟨_, q, hq, _, rfl⟩⟩ :=
        CausedBy.of_externalPrKey _ (by cases record.prNumber.isSome <;> decide) hby
      · cases hattached : record.prNumber.isSome <;> rw [hattached] at hk <;>
          exact absurd hk (by decide)
      · cases hattached : record.prNumber.isSome <;> rw [hattached] at hk <;>
          exact absurd hk (by decide)
      · cases hq
        exact ⟨_, hmem, rfl, rfl⟩
    · exact absurd hby (hreceipt _ _ _ n d)
  | terminalReceipted input _ _ record version _ _ _ _ _ hgrown =>
    refine h.grown hgrown fun i hi n d hby => ?_
    rw [List.mem_singleton.mp hi] at hby
    exact absurd hby (hreceipt _ _ _ n d)
  | invalidated input _ _ record version _ _ _ _ hgrown =>
    refine h.grown hgrown fun i hi n d hby => ?_
    rcases List.mem_pair.mp hi with rfl | rfl
    · obtain ⟨rfl, ⟨hk, _⟩ | ⟨_, rfl⟩ | ⟨_, _, hq, _⟩⟩ :=
        CausedBy.of_externalPrKey "head-invalidated" (by decide) hby
      · exact absurd hk (by decide)
      · exact ⟨_, List.mem_cons_of_mem _ List.mem_cons_self, rfl, rfl⟩
      · cases hq
    · exact absurd hby (hreceipt _ _ _ n d)
  | closed input _ _ record version _ _ _ _ _ _ hgrown =>
    refine h.grown hgrown fun i hi n d hby => ?_
    rw [List.mem_singleton.mp hi] at hby
    exact absurd hby (not_causedBy_of_kind "head-reconciliation-closed" _ _ (by decide)
      (by decide) (by decide) (fun q hq => by cases hq))
  | reconciled input _ _ record version _ _ _ _ _ _ hgrown =>
    refine h.grown hgrown fun i hi n d hby => ?_
    rw [List.mem_singleton.mp hi] at hby
    exact absurd hby (not_causedBy_of_kind "head-reconciled" _ _ (by decide) (by decide)
      (by decide) (fun q hq => by cases hq))

/-! ## Generations -/

/-- The head has stayed, or its generation has been raised by one. -/
def Moved (s s' : Store) (recordId : Text) : Prop :=
  s'.generation recordId = s.generation recordId ∧ s'.head recordId = s.head recordId ∨
    s'.generation recordId = s.generation recordId + 1

theorem Moved.of_row_eq {recordId : Text} (h : s'.row recordId = s.row recordId) :
    s'.generation recordId = s.generation recordId ∧ s'.head recordId = s.head recordId := by
  unfold Store.generation Store.head
  rw [h]
  exact ⟨rfl, rfl⟩

theorem row_congr {t : Store} (h : s'.records = t.records) (recordId : Text) :
    s'.row recordId = t.row recordId := by
  unfold Store.row
  rw [h]

/-- The rows after an update of the record of the pull request. -/
theorem row_changed (hids : (s.records.map ChangeRecordRow.id).Nodup) {pr : PullRequestInput}
    {record : ChangeRecordRow} {version : Nat} {f : ChangeRecordRow → ChangeRecordRow}
    (hconfirmed : s.confirmedRecord pr = .ok (record, version))
    (hrecords : s'.records = (s.updateRecord record.id f).records)
    (hf : ∀ r, (f r).id = r.id) (recordId : Text) :
    recordId ≠ pr.recordId ∧ s'.row recordId = s.row recordId ∨
      recordId = pr.recordId ∧ s.row recordId = some record ∧ s'.row recordId = some (f record) := by
  obtain ⟨hid, hrow⟩ := row_of_confirmedRecord s hids pr record version hconfirmed
  by_cases h : recordId = pr.recordId
  · subst h
    refine Or.inr ⟨rfl, hrow, ?_⟩
    rw [row_congr hrecords, hid, row_updateRecord_self s hf, hrow]
    rfl
  · refine Or.inl ⟨h, ?_⟩
    rw [row_congr hrecords, hid, row_updateRecord_of_ne s recordId hf pr.recordId h]

/-- A step that raises the generation of the record. -/
theorem generation_changed (hids : (s.records.map ChangeRecordRow.id).Nodup)
    {pr : PullRequestInput} {record : ChangeRecordRow} {version : Nat}
    {f : ChangeRecordRow → ChangeRecordRow}
    (hconfirmed : s.confirmedRecord pr = .ok (record, version))
    (hrecords : s'.records = (s.updateRecord record.id f).records)
    (hf : ∀ r, (f r).id = r.id)
    (hup : (f record).currentPrHeadAuthorityGeneration =
      record.currentPrHeadAuthorityGeneration + 1) (recordId : Text) :
    Moved s s' recordId ∧
      (recordId = pr.recordId → s'.generation recordId = s.generation recordId + 1) := by
  rcases row_changed hids hconfirmed hrecords hf recordId with ⟨hne, hrow⟩ | ⟨_, hrow, hrow'⟩
  · exact ⟨Or.inl (Moved.of_row_eq hrow), fun h => absurd h hne⟩
  · have hgeneration : s'.generation recordId = s.generation recordId + 1 := by
      unfold Store.generation
      rw [hrow, hrow']
      exact hup
    exact ⟨Or.inr hgeneration, fun _ => hgeneration⟩

theorem Accepted.not_received {pr : PullRequestInput} {deliveryId : Text}
    {record : ChangeRecordRow} {version : Nat}
    (h : Accepted s pr deliveryId record version) :
    ¬ s.Received pr.recordId pr.prNumber deliveryId := by
  intro hreceived
  have hsome := (eventOf_isSome_iff s _ _).mpr hreceived
  rw [h.fresh] at hsome
  cases hsome

/-- The event of a promoted head is new: its delivery is. -/
theorem inserted_of_provenance {input : AdvanceInput} {record : ChangeRecordRow} {version : Nat}
    {cycleId : Text} {inserted : Bool}
    (haccepted : Accepted s input.toPullRequestInput input.deliveryId record version)
    (h : Receipted s input.recordId)
    (hprovenance : Provenance s (advancedEvent input record cycleId version) inserted) :
    inserted = true := by
  rcases hprovenance with hinserted | ⟨e, he, hpayload⟩
  · exact hinserted
  · obtain ⟨hmem, hid, hkey⟩ := eventOf_eq_some s _ _ e he
    refine absurd (h e hmem hid input.prNumber input.deliveryId ?_) haccepted.not_received
    rw [hkey, hpayload]
    exact .advanced _ _ _ rfl rfl

/-- Every operation keeps the head or raises its generation by one. -/
theorem moved_of_effect {op : HeadOp} (heffect : Effect host op s s')
    (hids : (s.records.map ChangeRecordRow.id).Nodup) {recordId : Text}
    (h : Receipted s recordId) : Moved s s' recordId := by
  cases heffect with
  | unchanged => exact Or.inl ⟨rfl, rfl⟩
  | attached input _ _ record version inputs hconfirmed _ hrecords _ _ _ _ =>
    rcases hrecords with hsame | ⟨_, hrecords⟩
    · exact Or.inl (Moved.of_row_eq (row_congr hsame recordId))
    · rcases row_changed hids hconfirmed hrecords (fun _ => rfl) recordId with
        ⟨_, hrow⟩ | ⟨_, hrow, hrow'⟩
      · exact Or.inl (Moved.of_row_eq hrow)
      · refine Or.inl ?_
        unfold Store.generation Store.head
        rw [hrow, hrow']
        exact ⟨rfl, rfl⟩
  | receipted _ _ _ _ _ _ _ hrecords _ _ _ =>
    exact Or.inl (Moved.of_row_eq (row_congr hrecords recordId))
  | held input _ _ record version previous haccepted _ _ hrecords _ _ =>
    exact (generation_changed hids haccepted.confirmed hrecords (fun _ => rfl) rfl recordId).1
  | current _ _ _ _ _ _ _ _ _ _ _ hrecords _ _ =>
    exact Or.inl (Moved.of_row_eq (row_congr hrecords recordId))
  | promoted input _ _ record version cycleId inserted inputs haccepted _ _ hprovenance hrecords
      _ _ _ _ =>
    rcases row_changed hids haccepted.confirmed hrecords (fun _ => rfl) recordId with
      ⟨_, hrow⟩ | ⟨rfl, _⟩
    · exact Or.inl (Moved.of_row_eq hrow)
    · obtain rfl := inserted_of_provenance haccepted h hprovenance
      exact (generation_changed hids haccepted.confirmed hrecords (fun _ => rfl) rfl _).1
  | terminalReceipted _ _ _ _ _ _ _ hrecords _ _ _ =>
    exact Or.inl (Moved.of_row_eq (row_congr hrecords recordId))
  | invalidated input _ _ record version haccepted _ hrecords _ _ =>
    exact (generation_changed hids haccepted.confirmed hrecords (fun _ => rfl) rfl recordId).1
  | closed input _ _ record version hconfirmed _ _ _ hrecords _ _ =>
    exact (generation_changed hids hconfirmed hrecords (fun _ => rfl) rfl recordId).1
  | reconciled input _ _ record version hconfirmed _ _ _ hrecords _ _ =>
    exact (generation_changed hids hconfirmed hrecords (fun _ => rfl) rfl recordId).1

/-- The columns of a record that no operation on its head writes. -/
def ChangeRecordRow.identity (r : ChangeRecordRow) : Text × Text × Text :=
  (r.id, r.workspaceId, r.repo)

theorem identities_of_effect {op : HeadOp} (heffect : Effect host op s s') :
    s'.records.map ChangeRecordRow.identity = s.records.map ChangeRecordRow.identity := by
  have hupdate : ∀ {id : Text} {f : ChangeRecordRow → ChangeRecordRow},
      s'.records = (s.updateRecord id f).records → (∀ r, (f r).identity = r.identity) →
        s'.records.map ChangeRecordRow.identity = s.records.map ChangeRecordRow.identity := by
    intro id f hrecords hf
    rw [hrecords]
    show (s.records.map _).map _ = _
    rw [List.map_map]
    refine List.map_congr_left fun r _ => ?_
    show (if r.id = id then f r else r).identity = r.identity
    split
    · exact hf r
    · rfl
  cases heffect with
  | unchanged => rfl
  | attached _ _ _ _ _ _ _ _ hrecords _ _ _ _ =>
    rcases hrecords with hsame | ⟨_, hrecords⟩
    · rw [hsame]
    · exact hupdate hrecords fun _ => rfl
  | receipted _ _ _ _ _ _ _ hrecords _ _ _ => rw [hrecords]
  | held _ _ _ _ _ _ _ _ _ hrecords _ _ => exact hupdate hrecords fun _ => rfl
  | current _ _ _ _ _ _ _ _ _ _ _ hrecords _ _ => rw [hrecords]
  | promoted _ _ _ _ _ _ _ _ _ _ _ _ hrecords _ _ _ _ => exact hupdate hrecords fun _ => rfl
  | terminalReceipted _ _ _ _ _ _ _ hrecords _ _ _ => rw [hrecords]
  | invalidated _ _ _ _ _ _ _ hrecords _ _ => exact hupdate hrecords fun _ => rfl
  | closed _ _ _ _ _ _ _ _ _ hrecords _ _ => exact hupdate hrecords fun _ => rfl
  | reconciled _ _ _ _ _ _ _ _ _ hrecords _ _ => exact hupdate hrecords fun _ => rfl

theorem ids_of_effect {op : HeadOp} (heffect : Effect host op s s') :
    s'.records.map ChangeRecordRow.id = s.records.map ChangeRecordRow.id := by
  have h := congrArg (List.map Prod.fst) (identities_of_effect heffect)
  rw [List.map_map, List.map_map] at h
  exact h

/-! ## Deliveries -/

theorem Grown.received_cases {recordId : Text} {inputs : List AppendChangeRecordEventInput}
    (hgrown : Grown host s s' recordId inputs) {rid : Text} {n : Nat} {d : Text}
    (h : s'.Received rid n d) :
    s.Received rid n d ∨ ∃ i ∈ inputs, i.recordId = rid ∧ i.eventKey = deliveryEventKey n d := by
  obtain ⟨e, he, hid, hkey⟩ := h
  rcases hgrown.new e he with hold | ⟨i, hi, rfl⟩ | ⟨_, hdispatch⟩
  · exact Or.inl ⟨e, hold, hid, hkey⟩
  · exact Or.inr ⟨i, hi, hid, hkey⟩
  · rw [hkey] at hdispatch
    exact absurd hdispatch (externalPrKey_ne_dispatchKey _ _ _)

theorem authoritative_of_follows {input : AdvanceInput} {record : ChangeRecordRow} {sha : Text}
    (hfollows : Follows host input record) (hsha : record.currentPrHeadSha = some sha) :
    record.currentPrHeadAuthoritative := by
  have hheld := hfollows sha hsha
  unfold isHeld at hheld
  rw [Bool.or_eq_false_iff, Bool.not_eq_false'] at hheld
  exact hheld.1

/-- While the head is blocked, a delivery is processed only with a new generation. -/
theorem received_of_effect {op : HeadOp} (heffect : Effect host op s s')
    (hids : (s.records.map ChangeRecordRow.id).Nodup) {rid : Text} (h : Receipted s rid)
    {n : Nat} {d : Text} (hreceived : s'.Received rid n d) :
    s.Received rid n d ∨ s'.generation rid = s.generation rid + 1 ∨
      ∃ head, s.head rid = some head ∧ head.authoritative := by
  cases heffect with
  | unchanged => exact Or.inl hreceived
  | attached input _ _ record version inputs _ _ _ _ _ hinputs hgrown =>
    rcases hgrown.received_cases hreceived with hold | ⟨i, hi, _, hkey⟩
    · exact Or.inl hold
    · rw [hinputs i hi] at hkey
      have hkind := (externalPrKey_injective "attached" "delivery" _ _ _ _ (by decide) (by decide)
        hkey).1
      exact absurd hkind (by decide)
  | receipted input _ _ record version haccepted hheld _ _ _ hgrown =>
    rcases hgrown.received_cases hreceived with hold | ⟨i, hi, rfl, _⟩
    · exact Or.inl hold
    obtain rfl := List.mem_singleton.mp hi
    obtain ⟨e, he, hid, hkey⟩ := hheld
    refine absurd (h e he hid input.prNumber input.deliveryId ?_) haccepted.not_received
    rw [hkey]
    exact .held _
  | held input _ _ record version previous haccepted _ _ hrecords _ hgrown =>
    rcases hgrown.received_cases hreceived with hold | ⟨i, hi, rfl, _⟩
    · exact Or.inl hold
    · refine Or.inr (Or.inl ?_)
      refine (generation_changed hids haccepted.confirmed hrecords (fun _ => rfl) rfl _).2 ?_
      rcases List.mem_pair.mp hi with rfl | rfl <;> rfl
  | current input _ _ record version cycleId haccepted hfollows hsha _ _ _ _ hgrown =>
    rcases hgrown.received_cases hreceived with hold | ⟨i, hi, rfl, _⟩
    · exact Or.inl hold
    · refine Or.inr (Or.inr ⟨record.head, ?_, authoritative_of_follows hfollows hsha⟩)
      rw [List.mem_singleton.mp hi]
      show (s.row input.recordId).map _ = _
      rw [(row_of_confirmedRecord s hids _ record version haccepted.confirmed).2]
      rfl
  | promoted input _ _ record version cycleId inserted inputs haccepted _ _ hprovenance hrecords
      _ hinputs _ hgrown =>
    rcases hgrown.received_cases hreceived with hold | ⟨i, hi, rfl, _⟩
    · exact Or.inl hold
    · have hid : i.recordId = input.recordId := by
        rcases hinputs i hi with rfl | rfl <;> rfl
      rw [hid] at h ⊢
      obtain rfl := inserted_of_provenance haccepted h hprovenance
      refine Or.inr (Or.inl ?_)
      exact (generation_changed hids haccepted.confirmed hrecords (fun _ => rfl) rfl _).2 rfl
  | terminalReceipted input _ _ record version haccepted hterminal _ _ _ hgrown =>
    rcases hgrown.received_cases hreceived with hold | ⟨i, hi, rfl, _⟩
    · exact Or.inl hold
    obtain rfl := List.mem_singleton.mp hi
    obtain ⟨e, he, hid, hkey⟩ := hterminal
    refine absurd (h e he hid input.prNumber input.deliveryId ?_) haccepted.not_received
    rw [hkey]
    exact .terminal _
  | invalidated input _ _ record version haccepted _ hrecords _ hgrown =>
    rcases hgrown.received_cases hreceived with hold | ⟨i, hi, rfl, _⟩
    · exact Or.inl hold
    · refine Or.inr (Or.inl ?_)
      refine (generation_changed hids haccepted.confirmed hrecords (fun _ => rfl) rfl _).2 ?_
      rcases List.mem_pair.mp hi with rfl | rfl <;> rfl
  | closed input _ _ record version hconfirmed _ _ _ hrecords _ hgrown =>
    rcases hgrown.received_cases hreceived with hold | ⟨i, hi, rfl, _⟩
    · exact Or.inl hold
    · refine Or.inr (Or.inl ?_)
      refine (generation_changed hids hconfirmed hrecords (fun _ => rfl) rfl _).2 ?_
      rw [List.mem_singleton.mp hi]
      rfl
  | reconciled input _ _ record version hconfirmed _ _ _ hrecords _ hgrown =>
    rcases hgrown.received_cases hreceived with hold | ⟨i, hi, rfl, _⟩
    · exact Or.inl hold
    · refine Or.inr (Or.inl ?_)
      refine (generation_changed hids hconfirmed hrecords (fun _ => rfl) rfl _).2 ?_
      rw [List.mem_singleton.mp hi]
      rfl

/-! ## Repeated calls -/

/-- A call that changes anything is for a delivery that is not there before and is there after. -/
theorem received_iff_of_effect {op : HeadOp} (heffect : Effect host op s s') {rid : Text} {n : Nat}
    {d : Text} (hop : op.delivery = some (rid, n, d)) (hne : s' ≠ s) :
    ¬ s.Received rid n d ∧ s'.Received rid n d := by
  cases heffect with
  | unchanged => exact absurd rfl hne
  | attached => cases hop
  | receipted input _ _ record version haccepted _ _ _ _ hgrown =>
    cases hop
    exact ⟨haccepted.not_received, hgrown.there _ List.mem_cons_self⟩
  | held input _ _ record version previous haccepted _ _ _ _ hgrown =>
    cases hop
    exact ⟨haccepted.not_received,
      hgrown.there _ (List.mem_cons_of_mem _ List.mem_cons_self)⟩
  | current input _ _ record version cycleId haccepted _ _ _ _ _ _ hgrown =>
    cases hop
    exact ⟨haccepted.not_received, hgrown.there _ List.mem_cons_self⟩
  | promoted input _ _ record version cycleId inserted inputs haccepted _ _ _ _ _ _ hmem hgrown =>
    cases hop
    exact ⟨haccepted.not_received, hgrown.there _ hmem⟩
  | terminalReceipted input _ _ record version haccepted _ _ _ _ hgrown =>
    cases hop
    exact ⟨haccepted.not_received, hgrown.there _ List.mem_cons_self⟩
  | invalidated input _ _ record version haccepted _ _ _ hgrown =>
    cases hop
    exact ⟨haccepted.not_received,
      hgrown.there _ (List.mem_cons_of_mem _ List.mem_cons_self)⟩
  | closed => cases hop
  | reconciled => cases hop

/-- A reconciliation that changes anything meets the generation that it names, and raises it. -/
theorem generation_of_effect {op : HeadOp} (heffect : Effect host op s s')
    (hids : (s.records.map ChangeRecordRow.id).Nodup) {rid sha cycleId : Text} {generation : Nat}
    (hop : op.blockedTuple = some (rid, sha, cycleId, generation)) (hne : s' ≠ s) :
    s.generation rid = generation ∧ s'.generation rid = generation + 1 := by
  have hblocked : ∀ {input : ReconcileInput} {record : ChangeRecordRow} {version : Nat},
      s.confirmedRecord input.toPullRequestInput = .ok (record, version) →
      isBlockedAt input record input.expectedBlockedAuthorityGeneration →
        s.generation input.recordId = input.expectedBlockedAuthorityGeneration := by
    intro input record version hconfirmed hblocked
    unfold isBlockedAt at hblocked
    simp only [Bool.and_eq_true, decide_eq_true_eq] at hblocked
    unfold Store.generation
    rw [(row_of_confirmedRecord s hids _ record version hconfirmed).2]
    exact hblocked.2
  cases heffect with
  | unchanged => exact absurd rfl hne
  | attached => cases hop
  | receipted => cases hop
  | held => cases hop
  | current => cases hop
  | promoted => cases hop
  | terminalReceipted => cases hop
  | invalidated => cases hop
  | closed input _ _ record version hconfirmed _ _ hat hrecords _ _ =>
    cases hop
    have hgeneration := hblocked hconfirmed hat
    refine ⟨hgeneration, ?_⟩
    rw [(generation_changed hids hconfirmed hrecords (fun _ => rfl) rfl _).2 rfl, hgeneration]
  | reconciled input _ _ record version hconfirmed _ _ hat hrecords _ _ =>
    cases hop
    have hgeneration := hblocked hconfirmed hat
    refine ⟨hgeneration, ?_⟩
    rw [(generation_changed hids hconfirmed hrecords (fun _ => rfl) rfl _).2 rfl, hgeneration]

/-! ## Reconciliations -/

theorem recorded_of_repeated {input : ReconcileInput} {record : ChangeRecordRow} {version : Nat}
    (h : (repeatedReconcile host input record version s).succeeds) :
    isRecorded (reconciledEvent host input version) s := by
  by_contra hno
  rw [Bool.not_eq_true] at hno
  unfold repeatedReconcile at h
  dsimp only at h
  rw [hno, Bool.false_and, if_neg Bool.false_ne_true] at h
  cases h

/-- A reconciliation that succeeds meets the blocked tuple, or has succeeded before. -/
theorem blocked_of_succeeds {input : ReconcileInput} {result : ReconcileResult}
    (hids : (s.records.map ChangeRecordRow.id).Nodup)
    (h : reconcileConfirmedAcceptanceRecordPullRequestHead host input s = .ok (result, s'))
    (hsucceeds : result.succeeds) :
    input.Recorded host s ∨
      s.generation input.recordId = input.expectedBlockedAuthorityGeneration ∧
        ∃ head, s.head input.recordId = some head ∧ head.authoritative = false := by
  unfold reconcileConfirmedAcceptanceRecordPullRequestHead at h
  split at h
  · cases h
  dsimp only at h
  split at h
  · cases h
    cases hsucceeds
  next record version hconfirmed =>
  split at h
  · cases h
    cases hsucceeds
  split at h
  · cases h
    exact Or.inl ⟨version, Or.inl (recorded_of_repeated hsucceeds)⟩
  split at h
  · next hclosed =>
    rw [Bool.and_eq_true, Bool.and_eq_true] at hclosed
    exact Or.inl ⟨version, Or.inr hclosed.1.2⟩
  split at h
  · cases h
    cases hsucceeds
  next hblocked =>
  rw [Bool.not_eq_true', Bool.not_eq_false] at hblocked
  unfold isBlockedAt at hblocked
  simp only [Bool.and_eq_true, Bool.not_eq_true', decide_eq_true_eq] at hblocked
  have hrow := (row_of_confirmedRecord s hids _ record version hconfirmed).2
  refine Or.inr ⟨?_, record.head, ?_, hblocked.1.1.1⟩
  · unfold Store.generation
    rw [hrow]
    exact hblocked.2
  · unfold Store.head
    rw [hrow]
    rfl

/-! ## Runs -/

/-- What every step keeps. -/
structure Consistent (s : Store) (recordId : Text) : Prop where
  ids : (s.records.map ChangeRecordRow.id).Nodup
  receipted : Receipted s recordId

theorem consistent_step {recordId : Text} (s : Store) (a : Action) (t : Store)
    (h : next host s a = some t) (hs : Consistent s recordId) : Consistent t recordId := by
  cases h
  cases a with
  | call op =>
    have heffect := exec_effect host op s
    exact ⟨(ids_of_effect heffect).symm ▸ hs.ids, receipted_of_effect heffect hs.receipted⟩
  | elsewhere => exact ⟨hs.ids, hs.receipted⟩

theorem moved_step {recordId : Text} (s : Store) (a : Action) (t : Store)
    (h : next host s a = some t) (hs : Consistent s recordId) : Moved s t recordId := by
  cases h
  cases a with
  | call op => exact moved_of_effect (exec_effect host op s) hs.ids hs.receipted
  | elsewhere => exact Or.inl ⟨rfl, rfl⟩

/-- The timeline only grows. -/
theorem received_run {recordId : Text} {t : Store} {as : List Action}
    (hrun : run (next host) s as = some t) {n : Nat} {d : Text}
    (h : s.Received recordId n d) : t.Received recordId n d := by
  refine invariant (I := fun s => s.Received recordId n d) ?_ hrun h
  intro s a t hstep hreceived
  cases hstep
  cases a with
  | elsewhere => exact hreceived
  | call op =>
    obtain ⟨inputs, hgrown⟩ := grown_of_effect (exec_effect host op s)
    exact hgrown.received hreceived

theorem receipted_of_new {recordId : Text}
    (hnew : ∀ e ∈ s.events, e.recordId = recordId → ¬ "external-pr:".toList <+: e.eventKey) :
    Receipted s recordId := by
  intro e he hid n d hby
  obtain ⟨kind, m, name, hkey⟩ := hby.isExternalPrKey
  refine absurd ?_ (hnew e he hid)
  rw [hkey, externalPrKey_eq]
  exact List.prefix_append _ _

/-- The generation never decreases, and one generation has one head. -/
theorem generation_run {recordId : Text} {t : Store} {as : List Action}
    (hrun : run (next host) s as = some t) (hs : Consistent s recordId) :
    s.generation recordId ≤ t.generation recordId ∧
      (s.generation recordId = t.generation recordId → s.head recordId = t.head recordId) := by
  refine versioned (fun s : Store => s.generation recordId) (fun s : Store => s.head recordId)
    consistent_step ?_ hrun hs
  intro s a t hstep hs
  refine (moved_step s a t hstep hs).imp_right fun hup => ?_
  rw [hup]
  exact Nat.lt_succ_self _

/-- While the generation stays and the head is blocked, no delivery is processed. -/
theorem received_of_blocked {recordId : Text} {t u : Store} {as : List Action}
    (hrun : run (next host) t as = some u) (ht : Consistent t recordId)
    (hsame : u.generation recordId = t.generation recordId) {head : Head}
    (hhead : u.head recordId = some head) (hblocked : head.authoritative = false) {n : Nat}
    {d : Text} (hreceived : u.Received recordId n d) : t.Received recordId n d := by
  induction as generalizing t with
  | nil =>
    cases hrun
    exact hreceived
  | cons a as ih =>
    obtain ⟨v, hv, hrest⟩ := run_cons hrun
    have hvc := consistent_step t a v hv ht
    have hle : t.generation recordId ≤ v.generation recordId ∧
        v.generation recordId ≤ u.generation recordId :=
      ⟨by rcases moved_step t a v hv ht with ⟨h, _⟩ | h <;> omega,
        (generation_run hrest hvc).1⟩
    have hgeneration : v.generation recordId = t.generation recordId := by omega
    have hreceived_v := ih hrest hvc (hsame.trans hgeneration.symm)
    cases a with
    | elsewhere =>
      cases hv
      exact hreceived_v
    | call op =>
      cases hv
      rcases received_of_effect (exec_effect host op t) ht.ids ht.receipted hreceived_v with
        hold | hup | ⟨head', hhead', hauthoritative⟩
      · exact hold
      · exact absurd (hup.symm.trans hgeneration) (Nat.succ_ne_self _)
      · have heq := (generation_run hrun ht).2 hsame.symm
        rw [hhead', hhead] at heq
        cases heq
        rw [hblocked] at hauthoritative
        cases hauthoritative

end

/-- **Generations.** From a record without events of a pull request, whatever the calls: the
generation never decreases and belongs to one head; a call that changes the head raises it by one;
a call for a delivery or a blocked tuple that has been processed changes nothing; a reconciliation
succeeds for the first time only if no delivery has been processed at the generation it names. -/
theorem authority_generations (host : Host) (recordId : Text) (s t u : Store)
    (as bs : List Action) (hids : (s.records.map ChangeRecordRow.id).Nodup)
    (hnew : ∀ e ∈ s.events, e.recordId = recordId → ¬ "external-pr:".toList <+: e.eventKey)
    (hst : run (next host) s as = some t) (htu : run (next host) t bs = some u) :
    t.generation recordId ≤ u.generation recordId ∧
      (t.generation recordId = u.generation recordId → t.head recordId = u.head recordId) ∧
      (∀ op : HeadOp, (op.exec host t).head recordId ≠ t.head recordId →
        (op.exec host t).generation recordId = t.generation recordId + 1) ∧
      (∀ (op op' : HeadOp) (v : Store), op.pr.recordId = recordId → op.SameAs op' →
        op.exec host t ≠ t → run (next host) (op.exec host t) bs = some v →
          op'.exec host v = v) ∧
      ∀ (input : ReconcileInput) (result : ReconcileResult) (v : Store),
        input.recordId = recordId →
        input.expectedBlockedAuthorityGeneration = t.generation recordId →
        reconcileConfirmedAcceptanceRecordPullRequestHead host input u = .ok (result, v) →
        result.succeeds → ¬ input.Recorded host u →
          ∀ prNumber deliveryId, u.Received recordId prNumber deliveryId →
            t.Received recordId prNumber deliveryId := by
  have ht : Consistent t recordId :=
    invariant consistent_step hst ⟨hids, receipted_of_new hnew⟩
  have hu : Consistent u recordId := invariant consistent_step htu ht
  obtain ⟨hle, hsame⟩ := generation_run htu ht
  refine ⟨hle, hsame, ?_, ?_, ?_⟩
  · intro op hne
    rcases moved_of_effect (exec_effect host op t) ht.ids ht.receipted with ⟨_, hhead⟩ | hup
    · exact absurd hhead hne
    · exact hup
  · intro op op' v hrid hsameAs hchanged hrun
    have heffect := exec_effect host op t
    have hafter : Consistent (op.exec host t) recordId :=
      consistent_step t (.call op) _ rfl ht
    have hv : Consistent v recordId := invariant consistent_step hrun hafter
    by_contra hchanged'
    rcases hsameAs with ⟨hsome, heq⟩ | ⟨hsome, heq⟩
    · obtain ⟨⟨rid, n, d⟩, hop⟩ := Option.isSome_iff_exists.mp hsome
      have hthere := (received_iff_of_effect heffect hop hchanged).2
      have hfresh := (received_iff_of_effect (exec_effect host op' v) (heq ▸ hop) hchanged').1
      exact hfresh (received_run hrun hthere)
    · obtain ⟨⟨rid, sha, cycleId, generation⟩, hop⟩ := Option.isSome_iff_exists.mp hsome
      have hid : rid = recordId := by
        cases op with
        | reconcile input =>
          cases hop
          exact hrid
        | _ => cases hop
      subst hid
      have hup := (generation_of_effect heffect ht.ids hop hchanged).2
      have hat := (generation_of_effect (exec_effect host op' v) hv.ids (heq ▸ hop) hchanged').1
      have hmono := (generation_run hrun hafter).1
      omega
  · intro input result v hid hgeneration hcall hsucceeds hnot prNumber deliveryId hreceived
    subst hid
    rcases blocked_of_succeeds hu.ids hcall hsucceeds with hrecorded | ⟨hat, head, hhead, hblocked⟩
    · exact absurd hrecorded hnot
    · exact received_of_blocked htu ht (hat.trans hgeneration) hhead hblocked hreceived

/-! ## A record -/

/-- An id of the form of a UUID. -/
def sampleUuid (name : Text) : Text :=
  let digits := Nat.toDigits 16 (name.foldl (fun h c => (h * 31 + c.toNat) % 16 ^ 12) 7)
  "00000000-0000-5000-8000-".toList ++ List.replicate (12 - digits.length) '0' ++ digits

def sampleHost : Host := ⟨sampleUuid, fun _ => 0⟩

def sampleStore : Store :=
  { emptyStore 0 with
    records := [{ id := "r".toList, workspaceId := "w".toList, repo := "o/r".toList }]
    contracts := [⟨"r".toList, 1, "confirmed".toList⟩] }

def samplePr : PullRequestInput := ⟨"w".toList, "r".toList, "o/r".toList, 7⟩

def sampleHead : Text := List.replicate 40 'a'

def sampleOpened : AdvanceInput :=
  { samplePr with
    headSha := sampleHead, event := .opened, deliveryId := "d1".toList, admitReviewJob := true,
    headTransition := none }

def sampleMerged : InvalidateInput :=
  { samplePr with headSha := sampleHead, event := .merged, deliveryId := "d2".toList }

/-- A pull request is opened and merged. -/
theorem authority_generations_merged :
    let t := (HeadOp.advance sampleOpened).exec sampleHost sampleStore
    let u := (HeadOp.invalidate sampleMerged).exec sampleHost t
    t.generation "r".toList = 1 ∧ u.generation "r".toList = t.generation "r".toList + 1 := by
  intro t u
  have hgenerations := authority_generations sampleHost "r".toList sampleStore t u
    [.call (.advance sampleOpened)] [.call (.invalidate sampleMerged)] (by decide)
    (List.forall_mem_nil _) rfl rfl
  refine ⟨by decide +kernel, hgenerations.2.2.1 (.invalidate sampleMerged) ?_⟩
  decide +kernel

end Agentrail.Records
