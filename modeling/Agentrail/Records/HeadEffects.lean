import Agentrail.Records.PullRequestHead

/-!
# What a head operation does

`Effect` has one constructor for each thing that an operation on the head of a pull request can
do to the store: nothing, an attachment, a receipt without any effect, a hold, a promoted head, a
terminal event, and the two ends of a reconciliation.  `exec_effect` reads it off the functions of
the module once; everything about runs is proved from it.
-/

namespace Agentrail.Records

open Js

/-! ## Operations -/

inductive HeadOp where
  | attach (input : AttachInput)
  | advance (input : AdvanceInput)
  | invalidate (input : InvalidateInput)
  | reconcile (input : ReconcileInput)
  deriving DecidableEq, Repr

def HeadOp.pr : HeadOp → PullRequestInput
  | .attach input => input.toPullRequestInput
  | .advance input => input.toPullRequestInput
  | .invalidate input => input.toPullRequestInput
  | .reconcile input => input.toPullRequestInput

/-- The store after an operation. -/
def HeadOp.exec (host : Host) : HeadOp → Store → Store
  | .attach input, s =>
    commit s (attachConfirmedAcceptanceRecordToExternalPullRequest host input s)
  | .advance input, s => commit s (advanceConfirmedAcceptanceRecordPullRequestHead host input s)
  | .invalidate input, s =>
    commit s (invalidateConfirmedAcceptanceRecordPullRequestHeadForTerminalEvent host input s)
  | .reconcile input, s =>
    commit s (reconcileConfirmedAcceptanceRecordPullRequestHead host input s)

/-! ## Timelines and live work -/

def IsDispatchKey (key : Text) : Prop :=
  ∃ name, key = "acceptance-correction-dispatch:".toList ++ name

/-- The timeline has grown by these events, and by one about a correction dispatch at most. -/
structure Grown (host : Host) (s s' : Store) (recordId : Text)
    (inputs : List AppendChangeRecordEventInput) : Prop where
  kept : ∀ e ∈ s.events, e ∈ s'.events
  new : ∀ e ∈ s'.events, e ∈ s.events ∨ (∃ i ∈ inputs, e = newEvent host i s.now) ∨
    e.recordId = recordId ∧ IsDispatchKey e.eventKey
  there : ∀ i ∈ inputs, s'.HasEvent i.recordId i.eventKey

/-- A job that waits or runs. -/
def isLive (r : Review.ReviewJobRow) : Bool := r.state = .queued || r.state = .running

/-- The work for the pull request has ended, and no other work has changed. -/
structure Ended (s s' : Store) (pr : PullRequestInput) : Prop where
  ids : s'.jobs.rows.map Review.ReviewJobRow.id = s.jobs.rows.map Review.ReviewJobRow.id
  jobs : ∀ r ∈ s'.jobs.rows, isLive r → r ∈ s.jobs.rows ∧ ¬ isLiveJob pr r
  boots : ∀ r ∈ s'.boots.rows, Preview.isLive r → r ∈ s.boots.rows ∧ ¬ isLiveBoot pr r

/-- Only the job of the cycle is left for the pull request; if the head has not changed, what was
there may be, too. -/
structure Restarted (s s' : Store) (pr : PullRequestInput) (cycleId : Text) (headChanged : Prop) :
    Prop where
  jobs : ∀ r ∈ s'.jobs.rows, isLive r → r.id = cycleId ∧ isLiveJob pr r ∨
    r ∈ s.jobs.rows ∧ (isLiveJob pr r → ¬ headChanged)
  boots : ∀ r ∈ s'.boots.rows, Preview.isLive r →
    r ∈ s.boots.rows ∧ (isLiveBoot pr r → ¬ headChanged)

theorem Restarted.congr {s s' : Store} {pr : PullRequestInput} {cycleId : Text} {p q : Prop}
    (h : Restarted s s' pr cycleId p) (hpq : p ↔ q) : Restarted s s' pr cycleId q := by
  rw [propext hpq] at h
  exact h

/-- Nothing but the timeline and the dispatches has changed. -/
structure Beside (s s' : Store) : Prop where
  records : s'.records = s.records
  contracts : s'.contracts = s.contracts
  jobs : s'.jobs = s.jobs
  boots : s'.boots = s.boots
  now : s'.now = s.now

/-! ## Transactions -/

theorem bind_ok_iff {α β : Type} (x : Except Text α) (f : α → Except Text β) (b : β) :
    (x >>= f) = .ok b ↔ ∃ a, x = .ok a ∧ f a = .ok b := by
  cases x with
  | error message =>
    constructor
    · intro h
      cases h
    · rintro ⟨_, h, _⟩
      cases h
  | ok a =>
    constructor
    · intro h
      exact ⟨a, rfl, h⟩
    · rintro ⟨_, h, hf⟩
      cases h
      exact hf

section
variable (host : Host)

/-- An event is found, with the same payload, or inserted. -/
theorem appendProvenEvent_cases (input : AppendChangeRecordEventInput) (s s' : Store)
    (result : AppendChangeRecordEventResult)
    (h : appendProvenEvent host input s = .ok (result, s')) :
    (result.inserted = false ∧ s' = s ∧ ∃ e, s.eventOf input.recordId input.eventKey = some e ∧
        e.payloadRef = input.payloadRef) ∨
      (result.inserted = true ∧ s.eventOf input.recordId input.eventKey = none ∧
        s' = { s with events := s.events ++ [newEvent host input s.now] }) := by
  obtain ⟨⟨result', s₁⟩, happend, h⟩ := (bind_ok_iff _ _ _).mp h
  dsimp only at h
  split at h
  · cases h
  next hsame =>
  cases h
  unfold appendChangeRecordEvent at happend
  split at happend
  · next e he =>
    cases happend
    push Not at hsame
    exact Or.inl ⟨rfl, rfl, e, he, hsame.2.2⟩
  · next hnone =>
    dsimp only at happend
    split at happend
    · cases happend
    split at happend <;> cases happend
    exact Or.inr ⟨rfl, hnone, rfl⟩

theorem Grown.refl (s : Store) (recordId : Text) : Grown host s s recordId [] :=
  ⟨fun _ h => h, fun _ h => Or.inl h, List.forall_mem_nil _⟩

/-- One more event. -/
theorem Grown.insert {s s' : Store} {recordId : Text} {inputs : List AppendChangeRecordEventInput}
    (h : Grown host s s' recordId inputs) (input : AppendChangeRecordEventInput)
    (hnow : s'.now = s.now) :
    Grown host s { s' with events := s'.events ++ [newEvent host input s'.now] } recordId
      (input :: inputs) := by
  constructor
  · intro e he
    exact List.mem_append_left _ (h.kept e he)
  · intro e he
    rcases List.mem_append.mp he with he | he
    · rcases h.new e he with hold | ⟨i, hi, hei⟩ | hdispatch
      · exact Or.inl hold
      · exact Or.inr (Or.inl ⟨i, List.mem_cons_of_mem _ hi, hei⟩)
      · exact Or.inr (Or.inr hdispatch)
    · rw [hnow] at he
      exact Or.inr (Or.inl ⟨input, List.mem_cons_self, List.mem_singleton.mp he⟩)
  · intro i hi
    rcases List.mem_cons.mp hi with rfl | hi
    · exact ⟨_, List.mem_append_right _ List.mem_cons_self, rfl, rfl⟩
    · obtain ⟨e, he, hkey⟩ := h.there i hi
      exact ⟨e, List.mem_append_left _ he, hkey⟩

/-- Changes of other tables do not matter. -/
theorem Grown.congr {s s' t : Store} {recordId : Text}
    {inputs : List AppendChangeRecordEventInput} (h : Grown host s s' recordId inputs)
    (hevents : t.events = s'.events) : Grown host s t recordId inputs := by
  obtain ⟨hkept, hnew, hthere⟩ := h
  unfold Store.HasEvent at hthere
  rw [← hevents] at hkept hnew hthere
  exact ⟨hkept, hnew, hthere⟩

/-- One more event about a correction dispatch. -/
theorem Grown.dispatch {s s' t : Store} {recordId : Text}
    {inputs : List AppendChangeRecordEventInput} (h : Grown host s s' recordId inputs)
    (input : AppendChangeRecordEventInput) (hid : input.recordId = recordId)
    (hkey : IsDispatchKey input.eventKey)
    (hevents : t.events = s'.events ++ [newEvent host input s'.now]) :
    Grown host s t recordId inputs := by
  constructor
  · intro e he
    rw [hevents]
    exact List.mem_append_left _ (h.kept e he)
  · intro e he
    rw [hevents] at he
    rcases List.mem_append.mp he with he | he
    · exact h.new e he
    · obtain rfl := List.mem_singleton.mp he
      exact Or.inr (Or.inr ⟨hid, hkey⟩)
  · intro i hi
    obtain ⟨e, he, hsame⟩ := h.there i hi
    exact ⟨e, by rw [hevents]; exact List.mem_append_left _ he, hsame⟩

theorem Beside.refl (s : Store) : Beside s s := ⟨rfl, rfl, rfl, rfl, rfl⟩

/-- What the end of a dispatch does. -/
theorem invalidateDispatch_spec (pr : PullRequestInput) (input : DispatchInvalidation)
    (s s' : Store)
    (h : invalidateAcceptanceCorrectionDispatchForHead host pr input s = .ok s') :
    Beside s s' ∧ ∀ {t : Store} {inputs : List AppendChangeRecordEventInput},
      Grown host t s pr.recordId inputs → Grown host t s' pr.recordId inputs := by
  have hsame : ∀ s', s = s' → Beside s s' ∧ ∀ {t : Store}
      {inputs : List AppendChangeRecordEventInput},
      Grown host t s pr.recordId inputs → Grown host t s' pr.recordId inputs := by
    rintro _ rfl
    exact ⟨Beside.refl s, fun h => h⟩
  -- an event about a dispatch, and then an update of the dispatches
  have hevent : ∀ (key : Text) (payload : DispatchPayload) s₁ result dispatches,
      appendProvenEvent host (dispatchEvent pr key payload) s = .ok (result, s₁) →
      Beside s { s₁ with dispatches := dispatches } ∧ ∀ {t : Store}
        {inputs : List AppendChangeRecordEventInput}, Grown host t s pr.recordId inputs →
          Grown host t { s₁ with dispatches := dispatches } pr.recordId inputs := by
    intro key payload s₁ result dispatches happend
    rcases appendProvenEvent_cases host _ s s₁ result happend with ⟨_, rfl, _⟩ | ⟨_, _, rfl⟩
    · exact ⟨⟨rfl, rfl, rfl, rfl, rfl⟩, fun h => h.congr host rfl⟩
    · exact ⟨⟨rfl, rfl, rfl, rfl, rfl⟩,
        fun h => h.dispatch host _ rfl ⟨key, rfl⟩ rfl⟩
  unfold invalidateAcceptanceCorrectionDispatchForHead at h
  split at h
  · split at h
    · exact hsame s' (Except.ok.inj h)
    dsimp only at h
    split at h
    · split at h
      · exact hsame s' (Except.ok.inj h)
      split at h
      · exact hsame s' (Except.ok.inj h)
      split at h
      · exact hsame s' (Except.ok.inj h)
      obtain ⟨⟨result, s₁⟩, happend, h⟩ := (bind_ok_iff _ _ _).mp h
      cases h
      exact hevent _ _ s₁ result _ happend
    · obtain ⟨⟨result, s₁⟩, happend, h⟩ := (bind_ok_iff _ _ _).mp h
      dsimp only at h
      split at h <;> cases h
      exact hevent _ _ s₁ result _ happend
  · exact hsame s' (Except.ok.inj h)

end

/-! ## Live work -/

theorem isLive_of_isLiveJob (pr : PullRequestInput) (r : Review.ReviewJobRow)
    (h : isLiveJob pr r) : isLive r := by
  unfold isLiveJob at h
  rw [Bool.and_eq_true] at h
  exact h.2

section
variable (s : Store) (pr : PullRequestInput) (kept : Option Text)

/-- The live jobs after the others have been superseded. -/
theorem live_supersedeJobs (r : Review.ReviewJobRow)
    (hr : r ∈ (s.supersedeJobs pr kept).jobs.rows) (hlive : isLive r) :
    r ∈ s.jobs.rows ∧ (isLiveJob pr r → kept = some r.id) := by
  obtain ⟨r₀, hr₀, rfl⟩ := List.mem_map.mp hr
  by_cases hp : (isLiveJob pr r₀ && decide (kept ≠ some r₀.id)) = true
  · rw [if_pos hp] at hlive
    cases hlive
  · rw [if_neg hp]
    refine ⟨hr₀, fun hjob => ?_⟩
    rw [hjob, Bool.true_and, decide_eq_true_iff, not_not] at hp
    exact hp

theorem live_tearDownBoots (reason : String) (r : Preview.PreviewBootRow)
    (hr : r ∈ (s.tearDownBoots pr kept reason).boots.rows) (hlive : Preview.isLive r) :
    r ∈ s.boots.rows ∧ (isLiveBoot pr r → kept = some r.id) := by
  obtain ⟨r₀, hr₀, rfl⟩ := List.mem_map.mp hr
  by_cases hp : (isLiveBoot pr r₀ && decide (kept ≠ some r₀.id)) = true
  · rw [if_pos hp] at hlive
    cases hlive
  · rw [if_neg hp]
    refine ⟨hr₀, fun hboot => ?_⟩
    rw [hboot, Bool.true_and, decide_eq_true_iff, not_not] at hp
    exact hp

theorem ids_supersedeJobs : (s.supersedeJobs pr kept).jobs.rows.map Review.ReviewJobRow.id =
    s.jobs.rows.map Review.ReviewJobRow.id := by
  show (s.jobs.rows.map _).map _ = _
  rw [List.map_map]
  refine List.map_congr_left fun r _ => ?_
  show (if isLiveJob pr r && decide (kept ≠ some r.id) then _ else r : Review.ReviewJobRow).id = _
  split <;> rfl

end

/-- The end of the authority is the end of the work. -/
theorem block_spec (host : Host) (s s' : Store) (pr : PullRequestInput) (record : ChangeRecordRow)
    (tearDownReason reason : String)
    (h : s.block host pr record tearDownReason reason = .ok s') :
    s'.records = (s.updateRecord record.id blockedRow).records ∧ s'.contracts = s.contracts ∧
      s'.now = s.now ∧ Ended s s' pr ∧
      ∀ {t : Store} {inputs : List AppendChangeRecordEventInput},
        Grown host t s pr.recordId inputs → Grown host t s' pr.recordId inputs := by
  obtain ⟨hbeside, hgrown⟩ := invalidateDispatch_spec host pr _ _ s' h
  refine ⟨hbeside.records, hbeside.contracts, hbeside.now, ⟨?_, ?_, ?_⟩, ?_⟩
  · rw [hbeside.jobs]
    exact ids_supersedeJobs _ pr none
  · rw [hbeside.jobs]
    intro r hr hlive
    obtain ⟨hold, hkept⟩ := live_supersedeJobs _ pr none r hr hlive
    refine ⟨hold, fun hjob => ?_⟩
    cases hkept hjob
  · rw [hbeside.boots]
    intro r hr hlive
    obtain ⟨hold, hkept⟩ := live_tearDownBoots _ pr none tearDownReason r hr hlive
    refine ⟨hold, fun hboot => ?_⟩
    cases hkept hboot
  · intro t inputs ht
    exact hgrown (ht.congr host rfl)

/-! ## Keys -/

theorem colon_notMem_decimal (n : Nat) : ':' ∉ decimal n := fun h =>
  absurd (isDigit_of_mem_decimal n ':' h) (by decide)

theorem externalPrKey_eq (kind : String) (n : Nat) (name : Text) :
    externalPrKey kind n name =
      "external-pr:".toList ++ (kind.toList ++ ':' :: (decimal n ++ ':' :: name)) := by
  unfold externalPrKey
  simp only [List.append_assoc]
  rfl

/-- A key names its kind, its pull request and the rest. -/
theorem externalPrKey_injective (kind kind' : String) (n n' : Nat) (name name' : Text)
    (hkind : ':' ∉ kind.toList) (hkind' : ':' ∉ kind'.toList)
    (h : externalPrKey kind n name = externalPrKey kind' n' name') :
    kind.toList = kind'.toList ∧ n = n' ∧ name = name' := by
  rw [externalPrKey_eq, externalPrKey_eq] at h
  obtain ⟨hkinds, hrest⟩ := List.eq_of_append_cons_eq hkind hkind' (List.append_cancel_left h)
  obtain ⟨hnumbers, hnames⟩ := List.eq_of_append_cons_eq (colon_notMem_decimal n)
    (colon_notMem_decimal n') hrest
  refine ⟨hkinds, ?_, hnames⟩
  have hnumber := congrArg number hnumbers
  rw [number_decimal, number_decimal] at hnumber
  exact Option.some.inj hnumber

theorem externalPrKey_ne_dispatchKey (kind : String) (n : Nat) (name : Text) :
    ¬ IsDispatchKey (externalPrKey kind n name) := by
  intro hdispatch
  obtain ⟨rest, h⟩ := hdispatch
  rw [externalPrKey_eq, show "external-pr:".toList = 'e' :: "xternal-pr:".toList from rfl,
    show "acceptance-correction-dispatch:".toList = 'a' :: "cceptance-correction-dispatch:".toList
      from rfl, List.cons_append, List.cons_append] at h
  injection h with hfirst
  exact absurd hfirst (by decide)

/-- The kinds of keys of a head. -/
theorem deliveryEventKey_ne_heldEventKey (n m : Nat) (d d' : Text) :
    deliveryEventKey n d ≠ heldEventKey m d' := by
  intro h
  have hkind := (externalPrKey_injective _ _ n m d d' (by decide) (by decide) h).1
  exact absurd hkind (by decide)

theorem deliveryEventKey_ne_terminalEventKey (n m : Nat) (d d' : Text) :
    deliveryEventKey n d ≠ terminalEventKey m d' := by
  intro h
  have hkind := (externalPrKey_injective _ _ n m d d' (by decide) (by decide) h).1
  exact absurd hkind (by decide)

/-! ## The effects -/

/-- A delivery that is not refused and is seen for the first time. -/
structure Accepted (s : Store) (pr : PullRequestInput) (deliveryId : Text)
    (record : ChangeRecordRow) (version : Nat) : Prop where
  confirmed : s.confirmedRecord pr = .ok (record, version)
  ours : record.prNumber = some pr.prNumber ∨ s.isAttachedElsewhere pr record = false
  fresh : s.eventOf pr.recordId (deliveryEventKey pr.prNumber deliveryId) = none

/-- The delivery follows from the current head of the record. -/
def Follows (host : Host) (input : AdvanceInput) (record : ChangeRecordRow) : Prop :=
  ∀ previous, record.currentPrHeadSha = some previous → isHeld host input record previous = false

/-- The event is new, or it was there with the same payload. -/
def Provenance (s : Store) (input : AppendChangeRecordEventInput) (inserted : Bool) : Prop :=
  inserted = true ∨ ∃ e, s.eventOf input.recordId input.eventKey = some e ∧
    e.payloadRef = input.payloadRef

inductive Effect (host : Host) : HeadOp → Store → Store → Prop
  | unchanged (op : HeadOp) (s : Store) : Effect host op s s
  | attached (input : AttachInput) (s s' : Store) (record : ChangeRecordRow) (version : Nat)
      (inputs : List AppendChangeRecordEventInput) :
      s.confirmedRecord input.toPullRequestInput = .ok (record, version) →
      s.isAttachedElsewhere input.toPullRequestInput record = false →
      s'.records = s.records ∨ record.prNumber = none ∧
        s'.records = (s.updateRecord record.id (attachedRow input)).records →
      s'.jobs = s.jobs → s'.boots = s.boots → (∀ i ∈ inputs, i = attachEvent input version) →
      Grown host s s' input.recordId inputs → Effect host (.attach input) s s'
  | receipted (input : AdvanceInput) (s s' : Store) (record : ChangeRecordRow) (version : Nat) :
      Accepted s input.toPullRequestInput input.deliveryId record version →
      s.HasEvent input.recordId (heldEventKey input.prNumber input.deliveryId) →
      s'.records = s.records → s'.jobs = s.jobs → s'.boots = s.boots →
      Grown host s s' input.recordId [deliveryEvent input] → Effect host (.advance input) s s'
  | held (input : AdvanceInput) (s s' : Store) (record : ChangeRecordRow) (version : Nat)
      (previous : Text) :
      Accepted s input.toPullRequestInput input.deliveryId record version →
      record.currentPrHeadSha = some previous → isHeld host input record previous →
      s'.records = (s.updateRecord record.id blockedRow).records →
      Ended s s' input.toPullRequestInput →
      Grown host s s' input.recordId
        [heldEvent input record previous version, deliveryEvent input] →
      Effect host (.advance input) s s'
  | current (input : AdvanceInput) (s s' : Store) (record : ChangeRecordRow) (version : Nat)
      (cycleId : Text) :
      Accepted s input.toPullRequestInput input.deliveryId record version →
      Follows host input record → record.currentPrHeadSha = some input.headSha →
      record.prNumber.isSome → record.currentPrHeadCycleId = some cycleId →
      s'.records = s.records → Restarted s s' input.toPullRequestInput cycleId False →
      Grown host s s' input.recordId [deliveryEvent input] → Effect host (.advance input) s s'
  | promoted (input : AdvanceInput) (s s' : Store) (record : ChangeRecordRow) (version : Nat)
      (cycleId : Text) (inserted : Bool) (inputs : List AppendChangeRecordEventInput) :
      Accepted s input.toPullRequestInput input.deliveryId record version →
      Follows host input record →
      (record.currentPrHeadSha = some input.headSha →
        record.currentPrHeadCycleId = some cycleId) →
      Provenance s (advancedEvent input record cycleId version) inserted →
      s'.records = (s.updateRecord record.id (advancedRow input cycleId inserted)).records →
      Restarted s s' input.toPullRequestInput cycleId
        (record.currentPrHeadSha ≠ some input.headSha) →
      (∀ i ∈ inputs, i = advancedEvent input record cycleId version ∨ i = deliveryEvent input) →
      deliveryEvent input ∈ inputs →
      Grown host s s' input.recordId inputs → Effect host (.advance input) s s'
  | terminalReceipted (input : InvalidateInput) (s s' : Store) (record : ChangeRecordRow)
      (version : Nat) :
      Accepted s input.toPullRequestInput input.deliveryId record version →
      s.HasEvent input.recordId (terminalEventKey input.prNumber input.deliveryId) →
      s'.records = s.records → s'.jobs = s.jobs → s'.boots = s.boots →
      Grown host s s' input.recordId [terminalDeliveryEvent input] →
      Effect host (.invalidate input) s s'
  | invalidated (input : InvalidateInput) (s s' : Store) (record : ChangeRecordRow)
      (version : Nat) :
      Accepted s input.toPullRequestInput input.deliveryId record version →
      record.prNumber = some input.prNumber →
      s'.records = (s.updateRecord record.id blockedRow).records →
      Ended s s' input.toPullRequestInput →
      Grown host s s' input.recordId
        [terminalEvent input record version, terminalDeliveryEvent input] →
      Effect host (.invalidate input) s s'
  | closed (input : ReconcileInput) (s s' : Store) (record : ChangeRecordRow) (version : Nat) :
      s.confirmedRecord input.toPullRequestInput = .ok (record, version) →
      record.prNumber = some input.prNumber → input.observedOpen = false →
      isBlockedAt input record input.expectedBlockedAuthorityGeneration →
      s'.records = (s.updateRecord record.id blockedRow).records →
      Ended s s' input.toPullRequestInput →
      Grown host s s' input.recordId [closedEvent host input version] →
      Effect host (.reconcile input) s s'
  | reconciled (input : ReconcileInput) (s s' : Store) (record : ChangeRecordRow)
      (version : Nat) :
      s.confirmedRecord input.toPullRequestInput = .ok (record, version) →
      record.prNumber = some input.prNumber → input.observedOpen →
      isBlockedAt input record input.expectedBlockedAuthorityGeneration →
      s'.records = (s.updateRecord record.id (reconciledRow input
        (acceptanceRecordPullRequestReconciliationCycleId host input))).records →
      Restarted s s' input.toPullRequestInput
        (acceptanceRecordPullRequestReconciliationCycleId host input) True →
      Grown host s s' input.recordId [reconciledEvent host input version] →
      Effect host (.reconcile input) s s'

section
variable (host : Host)

theorem attach_effect (input : AttachInput) (s : Store) :
    Effect host (.attach input) s ((HeadOp.attach input).exec host s) := by
  show Effect host _ s (commit s _)
  unfold attachConfirmedAcceptanceRecordToExternalPullRequest
  split
  · exact .unchanged _ s
  split
  · exact .unchanged _ s
  next record version hconfirmed =>
  split
  · exact .unchanged _ s
  next helsewhere =>
  split
  · exact .unchanged _ s
  split
  · exact .unchanged _ s
  have hours := Bool.eq_false_iff.mpr helsewhere
  -- the event is inserted or not, whatever has happened to the record
  have hinsert : ∀ t : Store, t.now = s.now → t.events = s.events → ∃ inputs,
      (∀ i ∈ inputs, i = attachEvent input version) ∧
      Grown host s (insertEvent host (attachEvent input version) t).2 input.recordId inputs ∧
      (insertEvent host (attachEvent input version) t).2.records = t.records ∧
      (insertEvent host (attachEvent input version) t).2.jobs = t.jobs ∧
      (insertEvent host (attachEvent input version) t).2.boots = t.boots := by
    intro t hnow hevents
    have ht := (Grown.refl host s input.recordId).congr host hevents
    unfold insertEvent
    dsimp only
    split
    · exact ⟨[], List.forall_mem_nil _, ht, rfl, rfl, rfl⟩
    · exact ⟨[attachEvent input version], fun i hi => List.mem_singleton.mp hi,
        ht.insert host (attachEvent input version) hnow, rfl, rfl, rfl⟩
  dsimp only [commit]
  split
  · next hnone =>
    obtain ⟨inputs, hinputs, hgrown, hrecords, hjobs, hboots⟩ :=
      hinsert (s.updateRecord record.id (attachedRow input)) rfl rfl
    exact .attached input s _ record version inputs hconfirmed hours
      (Or.inr ⟨hnone, hrecords⟩) hjobs hboots hinputs hgrown
  · obtain ⟨inputs, hinputs, hgrown, hrecords, hjobs, hboots⟩ := hinsert s rfl rfl
    exact .attached input s _ record version inputs hconfirmed hours
      (Or.inl hrecords) hjobs hboots hinputs hgrown

/-- What a hold does. -/
theorem holdAdvance_spec (input : AdvanceInput) (record : ChangeRecordRow) (previous : Text)
    (version : Nat) (s s' : Store) (result : AdvanceResult)
    (h : holdAdvance host input record previous version s = .ok (result, s')) :
    s' = s ∧ s.HasEvent input.recordId (heldEventKey input.prNumber input.deliveryId) ∨
      s'.records = (s.updateRecord record.id blockedRow).records ∧
        Ended s s' input.toPullRequestInput ∧
        ∀ {t : Store} {inputs : List AppendChangeRecordEventInput}, s.now = t.now →
          Grown host t s input.recordId inputs →
          Grown host t s' input.recordId (heldEvent input record previous version :: inputs) := by
  obtain ⟨⟨held, s₁⟩, happend, hrest⟩ := (bind_ok_iff _ _ _).mp h
  dsimp only at hrest
  rcases appendProvenEvent_cases host _ s s₁ held happend with
    ⟨hfalse, rfl, e, he, _⟩ | ⟨htrue, _, rfl⟩
  · rw [hfalse] at hrest
    cases hrest
    exact Or.inl ⟨rfl, e, eventOf_eq_some _ _ _ e he⟩
  · rw [htrue] at hrest
    obtain ⟨s₂, hblock, hrest⟩ := (bind_ok_iff _ _ _).mp hrest
    cases hrest
    obtain ⟨hrecords, _, _, hended, hgrown⟩ := block_spec host _ s' _ record _ _ hblock
    refine Or.inr ⟨hrecords, ⟨hended.ids, hended.jobs, hended.boots⟩, ?_⟩
    intro t inputs hnow ht
    exact hgrown (ht.insert host _ hnow)

/-- Inserting a job adds a row of its cycle or nothing. -/
theorem insertJob_spec (s : Store) (job : Review.ReviewJobRow) :
    (s.insertJob job).2.records = s.records ∧ (s.insertJob job).2.events = s.events ∧
      (s.insertJob job).2.boots = s.boots ∧ (s.insertJob job).2.now = s.now ∧
      ((s.insertJob job).1 = true ∧ (s.insertJob job).2.jobs.rows = s.jobs.rows ++ [job] ∨
        (s.insertJob job).1 = false ∧ (s.insertJob job).2 = s) := by
  unfold Store.insertJob
  split
  · exact ⟨rfl, rfl, rfl, rfl, Or.inr ⟨rfl, rfl⟩⟩
  · next jobs h =>
    exact ⟨rfl, rfl, rfl, rfl, Or.inl ⟨rfl, Table.rows_insert _ _ _ h⟩⟩

theorem isLiveJob_cycleJob (pr : PullRequestInput) (cycleId headSha event : Text)
    (nextEligibleAt : Option Int) (now : Int) :
    isLiveJob pr (cycleJob pr cycleId headSha event nextEligibleAt now) := by
  unfold isLiveJob cycleJob
  simp

/-- A job is admitted for a cycle, and the others are superseded where anything has changed. -/
theorem endOtherCycles_spec (input : AdvanceInput) (record : ChangeRecordRow) (cycleId : Text)
    (headChanged jobInserted : Bool) (s s₁ s' : Store) (job : Review.ReviewJobRow)
    (hid : job.id = cycleId) (hjob : isLiveJob input.toPullRequestInput job)
    (hrows : jobInserted = true ∧ s₁.jobs.rows = s.jobs.rows ++ [job] ∨
      jobInserted = false ∧ s₁.jobs.rows = s.jobs.rows)
    (hboots : s₁.boots = s.boots)
    (h : endOtherCycles host input record cycleId headChanged jobInserted s₁ = .ok s') :
    s'.records = s₁.records ∧
      Restarted s s' input.toPullRequestInput cycleId (headChanged = true) ∧
      ∀ {t : Store} {inputs : List AppendChangeRecordEventInput},
        Grown host t s₁ input.recordId inputs → Grown host t s' input.recordId inputs := by
  let pr := input.toPullRequestInput
  let s₂ := if headChanged || jobInserted then s₁.supersedeJobs pr (some cycleId) else s₁
  have hjobs : ∀ r ∈ s₂.jobs.rows, isLive r → r.id = cycleId ∧ isLiveJob pr r ∨
      r ∈ s.jobs.rows ∧ (isLiveJob pr r → ¬ headChanged = true) := by
    intro r hr hlive
    by_cases hc : (headChanged || jobInserted) = true
    · rw [show s₂ = s₁.supersedeJobs pr (some cycleId) from if_pos hc] at hr
      obtain ⟨hr, hkept⟩ := live_supersedeJobs s₁ pr (some cycleId) r hr hlive
      by_cases hof : isLiveJob pr r
      · exact Or.inl ⟨(Option.some.inj (hkept hof)).symm, hof⟩
      · refine Or.inr ⟨?_, fun h => absurd h hof⟩
        rcases hrows with ⟨_, hrows⟩ | ⟨_, hrows⟩
        · rw [hrows, List.mem_append, List.mem_singleton] at hr
          rcases hr with hr | rfl
          · exact hr
          · exact absurd hjob hof
        · exact hrows ▸ hr
    · rw [show s₂ = s₁ from if_neg hc] at hr
      rw [Bool.or_eq_true, not_or] at hc
      rcases hrows with ⟨hyes, _⟩ | ⟨_, hrows⟩
      · exact absurd hyes hc.2
      · exact Or.inr ⟨hrows ▸ hr, fun _ => hc.1⟩
  have hsame : s₂.records = s₁.records ∧ s₂.boots = s.boots ∧ s₂.events = s₁.events := by
    by_cases hc : (headChanged || jobInserted) = true
    · rw [show s₂ = s₁.supersedeJobs pr (some cycleId) from if_pos hc]
      exact ⟨rfl, hboots, rfl⟩
    · rw [show s₂ = s₁ from if_neg hc]
      exact ⟨rfl, hboots, rfl⟩
  obtain ⟨hrecords, hboots₂, hevents⟩ := hsame
  unfold endOtherCycles at h
  dsimp only at h
  split at h
  · next hchanged =>
    obtain ⟨hbeside, hgrown⟩ := invalidateDispatch_spec host pr _ _ s' h
    refine ⟨hbeside.records.trans hrecords, ⟨?_, ?_⟩, fun ht => hgrown (ht.congr host hevents)⟩
    · rw [hbeside.jobs]
      exact hjobs
    · rw [hbeside.boots]
      intro r hr hlive
      obtain ⟨hr, hkept⟩ := live_tearDownBoots s₂ pr none _ r hr hlive
      refine ⟨hboots₂ ▸ hr, fun hof => ?_⟩
      cases hkept hof
  · next hchanged =>
    cases h
    refine ⟨hrecords, ⟨hjobs, ?_⟩, fun ht => ht.congr host hevents⟩
    intro r hr _
    exact ⟨hboots₂ ▸ hr, fun _ => hchanged⟩

/-- The job that a delivery admits. -/
theorem admitJob_spec (input : AdvanceInput) (cycleId : Text) (s : Store) :
    ∃ job : Review.ReviewJobRow, job.id = cycleId ∧ isLiveJob input.toPullRequestInput job ∧
      (admitJob input cycleId s).2.records = s.records ∧
      (admitJob input cycleId s).2.events = s.events ∧
      (admitJob input cycleId s).2.boots = s.boots ∧
      ((admitJob input cycleId s).1 = true ∧
          (admitJob input cycleId s).2.jobs.rows = s.jobs.rows ++ [job] ∨
        (admitJob input cycleId s).1 = false ∧
          (admitJob input cycleId s).2.jobs.rows = s.jobs.rows) := by
  unfold admitJob
  dsimp only
  refine ⟨cycleJob input.toPullRequestInput cycleId input.headSha input.event.name
    (if input.event = .synchronize then some (s.now + Review.SYNCHRONIZE_DEBOUNCE) else none)
    s.now, rfl, isLiveJob_cycleJob _ _ _ _ _ _, ?_⟩
  split
  · obtain ⟨hrecords, hevents, hboots, _, hjobs⟩ := insertJob_spec s
      (cycleJob input.toPullRequestInput cycleId input.headSha input.event.name
        (if input.event = .synchronize then some (s.now + Review.SYNCHRONIZE_DEBOUNCE) else none)
        s.now)
    refine ⟨hrecords, hevents, hboots, hjobs.imp_right fun hnone => ⟨hnone.1, ?_⟩⟩
    rw [hnone.2]
  · exact ⟨rfl, rfl, rfl, Or.inr ⟨rfl, rfl⟩⟩

/-- What becomes of the record. -/
theorem advanceRecord_spec (input : AdvanceInput) (record advanced : ChangeRecordRow)
    (cycleId : Text) (version : Nat) (s s' : Store)
    (h : advanceRecord host input record cycleId version s = .ok (advanced, s')) :
    (record.currentPrHeadSha = some input.headSha ∧ record.prNumber.isSome) ∧ s' = s ∨
      ∃ inserted, Provenance s (advancedEvent input record cycleId version) inserted ∧
        s'.records = (s.updateRecord record.id (advancedRow input cycleId inserted)).records ∧
        s'.jobs = s.jobs ∧ s'.boots = s.boots ∧ s'.now = s.now ∧
        ∀ {t : Store} {inputs : List AppendChangeRecordEventInput}, s.now = t.now →
          Grown host t s input.recordId inputs → Grown host t s' input.recordId
            (if inserted then advancedEvent input record cycleId version :: inputs
              else inputs) := by
  unfold advanceRecord at h
  split at h
  · next hsame =>
    cases h
    exact Or.inl ⟨hsame, rfl⟩
  obtain ⟨⟨provenance, s₁⟩, happend, hrest⟩ := (bind_ok_iff _ _ _).mp h
  cases hrest
  refine Or.inr ⟨provenance.inserted, ?_⟩
  rcases appendProvenEvent_cases host _ s s₁ provenance happend with
    ⟨hfalse, rfl, hfound⟩ | ⟨htrue, _, rfl⟩
  · rw [hfalse]
    exact ⟨Or.inr hfound, rfl, rfl, rfl, rfl, fun _ ht => ht.congr host rfl⟩
  · rw [htrue]
    exact ⟨Or.inl rfl, rfl, rfl, rfl, rfl, fun hnow ht => (ht.insert host _ hnow).congr host rfl⟩

/-- What a delivery does that follows from the current head. -/
theorem promoteHead_spec (input : AdvanceInput) (record : ChangeRecordRow) (version : Nat)
    (s s' : Store) (result : AdvanceResult)
    (h : promoteHead host input record version s = .ok (result, s')) :
    ∃ cycleId, (record.currentPrHeadSha = some input.headSha →
        record.currentPrHeadCycleId = some cycleId) ∧
      Restarted s s' input.toPullRequestInput cycleId
        (record.currentPrHeadSha ≠ some input.headSha) ∧
      ((record.currentPrHeadSha = some input.headSha ∧ record.prNumber.isSome) ∧
          s'.records = s.records ∧
          (∀ {t : Store} {inputs : List AppendChangeRecordEventInput},
            Grown host t s input.recordId inputs → Grown host t s' input.recordId inputs) ∨
        ∃ inserted, Provenance s (advancedEvent input record cycleId version) inserted ∧
          s'.records = (s.updateRecord record.id (advancedRow input cycleId inserted)).records ∧
          ∀ {t : Store} {inputs : List AppendChangeRecordEventInput}, s.now = t.now →
            Grown host t s input.recordId inputs → Grown host t s' input.recordId
              (if inserted then advancedEvent input record cycleId version :: inputs
                else inputs)) := by
  unfold promoteHead at h
  dsimp only at h
  split at h
  · next cycleId hcycle =>
    obtain ⟨⟨advanced, s₁⟩, hadvance, hrest⟩ := (bind_ok_iff _ _ _).mp h
    dsimp only at hrest
    obtain ⟨s₃, hend, hrest⟩ := (bind_ok_iff _ _ _).mp hrest
    cases hrest
    obtain ⟨job, hid, hlive, hrecords, hevents, hboots, hrows⟩ := admitJob_spec input cycleId s₁
    refine ⟨cycleId, ?_, ?_⟩
    · intro hsame
      rw [if_neg (by simpa using hsame)] at hcycle
      exact hcycle
    rcases advanceRecord_spec host input record advanced cycleId version s s₁ hadvance with
      ⟨hsame, rfl⟩ | ⟨inserted, hprovenance, hrecord, hjobs₁, hboots₁, hnow, hgrown₁⟩
    · obtain ⟨hrecords', hrestarted, hgrown⟩ := endOtherCycles_spec host input record cycleId _ _
        s₁ _ s' job hid hlive hrows hboots hend
      refine ⟨hrestarted.congr (by simp), Or.inl ⟨hsame, hrecords'.trans hrecords, ?_⟩⟩
      intro t inputs ht
      exact hgrown (ht.congr host hevents)
    · obtain ⟨hrecords', hrestarted, hgrown⟩ := endOtherCycles_spec host input record cycleId _ _
        s _ s' job hid hlive (hjobs₁ ▸ hrows) (hboots.trans hboots₁) hend
      refine ⟨hrestarted.congr (by simp), Or.inr ⟨inserted, hprovenance,
        (hrecords'.trans hrecords).trans hrecord, ?_⟩⟩
      intro t inputs hnow' ht
      exact hgrown ((hgrown₁ hnow' ht).congr host hevents)
  · cases h

/-- An event that is there after the receipt, under another key or with another payload, was there
before it. -/
theorem eventOf_after_receipt (s : Store) (receipt : AppendChangeRecordEventInput)
    (recordId key : Text) (e : ChangeRecordEventRow)
    (h : ({ s with events := s.events ++ [newEvent host receipt s.now] } : Store).eventOf
      recordId key = some e)
    (hne : key ≠ receipt.eventKey ∨ e.payloadRef ≠ receipt.payloadRef) :
    s.eventOf recordId key = some e := by
  unfold Store.eventOf at h ⊢
  rw [List.find?_append] at h
  rcases Option.or_eq_some_iff.mp h with h | ⟨_, h⟩
  · exact h
  · rw [List.find?_singleton] at h
    split at h
    · next hkey =>
      cases h
      rw [Bool.and_eq_true, decide_eq_true_iff, decide_eq_true_iff] at hkey
      rcases hne with hne | hne
      · exact absurd hkey.2.symm hne
      · exact absurd rfl hne
    · cases h

theorem hasEvent_after_receipt (s : Store) (receipt : AppendChangeRecordEventInput)
    (recordId key : Text)
    (h : ({ s with events := s.events ++ [newEvent host receipt s.now] } : Store).HasEvent
      recordId key) (hne : key ≠ receipt.eventKey) : s.HasEvent recordId key := by
  obtain ⟨e, he, hid, hkey⟩ := h
  rcases List.mem_append.mp he with he | he
  · exact ⟨e, he, hid, hkey⟩
  · obtain rfl := List.mem_singleton.mp he
    exact absurd hkey.symm hne

theorem advance_effect (input : AdvanceInput) (s : Store) :
    Effect host (.advance input) s ((HeadOp.advance input).exec host s) := by
  cases hexec : advanceConfirmedAcceptanceRecordPullRequestHead host input s with
  | error message =>
    rw [show (HeadOp.advance input).exec host s = s by simp [HeadOp.exec, hexec, commit]]
    exact .unchanged _ s
  | ok result =>
  obtain ⟨answer, s'⟩ := result
  rw [show (HeadOp.advance input).exec host s = s' by simp [HeadOp.exec, hexec, commit]]
  unfold advanceConfirmedAcceptanceRecordPullRequestHead at hexec
  split at hexec
  · cases hexec
  dsimp only at hexec
  split at hexec
  · cases hexec
    exact .unchanged _ s
  next record version hconfirmed =>
  split at hexec
  · cases hexec
    exact .unchanged _ s
  next helsewhere =>
  obtain ⟨⟨receipt, s₁⟩, happend, hrest⟩ := (bind_ok_iff _ _ _).mp hexec
  dsimp only at hrest
  rcases appendProvenEvent_cases host _ s s₁ receipt happend with
    ⟨hfalse, hsame, _⟩ | ⟨htrue, hfresh, rfl⟩
  · rw [hfalse] at hrest
    cases hrest
    rw [hsame]
    exact .unchanged _ s
  rw [htrue] at hrest
  have haccepted : Accepted s input.toPullRequestInput input.deliveryId record version :=
    ⟨hconfirmed, Or.inr (Bool.eq_false_iff.mpr helsewhere), hfresh⟩
  have hreceipt := (Grown.refl host s input.recordId).insert host (deliveryEvent input) rfl
  have hpromote : Follows host input record → promoteHead host input record version
      { s with events := s.events ++ [newEvent host (deliveryEvent input) s.now] } =
        .ok (answer, s') → Effect host (.advance input) s s' := by
    intro hfollows hpromote
    obtain ⟨cycleId, hcycle, hrestarted, hwhat⟩ := promoteHead_spec host input record version _ s'
      answer hpromote
    have hrestarted' : Restarted s s' input.toPullRequestInput cycleId
        (record.currentPrHeadSha ≠ some input.headSha) := ⟨hrestarted.jobs, hrestarted.boots⟩
    rcases hwhat with ⟨⟨hsame, hattached⟩, hrecords, hgrown⟩ | ⟨inserted, hprovenance, hrecords,
      hgrown⟩
    · exact .current input s s' record version cycleId haccepted hfollows hsame hattached
        (hcycle hsame) hrecords (hrestarted'.congr (iff_false_intro (not_not.mpr hsame)))
        (hgrown hreceipt)
    · refine .promoted input s s' record version cycleId inserted _ haccepted hfollows hcycle ?_
        hrecords hrestarted' ?_ ?_ (hgrown rfl hreceipt)
      · refine hprovenance.imp_right ?_
        rintro ⟨e, he, hpayload⟩
        refine ⟨e, eventOf_after_receipt host s _ _ _ e he (Or.inr ?_), hpayload⟩
        rw [hpayload]
        intro h
        cases h
      · intro i hi
        split at hi
        · rcases List.mem_cons.mp hi with rfl | hi
          · exact Or.inl rfl
          · exact Or.inr (List.mem_singleton.mp hi)
        · exact Or.inr (List.mem_singleton.mp hi)
      · split
        · exact List.mem_cons_of_mem _ List.mem_cons_self
        · exact List.mem_cons_self
  split at hrest
  · next hnot => exact absurd hnot (by decide)
  split at hrest
  · next previous hprevious =>
    split at hrest
    · next hheld =>
      rcases holdAdvance_spec host input record previous version _ s' answer hrest with
        ⟨rfl, hthere⟩ | ⟨hrecords, hended, hgrown⟩
      · refine .receipted input s _ record version haccepted ?_ rfl rfl rfl hreceipt
        exact hasEvent_after_receipt host s _ _ _ hthere
          (deliveryEventKey_ne_heldEventKey _ _ _ _).symm
      · exact .held input s s' record version previous haccepted hprevious hheld hrecords
          ⟨hended.ids, hended.jobs, hended.boots⟩ (hgrown rfl hreceipt)
    · next hheld =>
      refine hpromote ?_ hrest
      intro previous' hprevious'
      obtain rfl := Option.some.inj (hprevious.symm.trans hprevious')
      exact Bool.eq_false_iff.mpr hheld
  · next hnone =>
    refine hpromote ?_ hrest
    intro previous hprevious
    rw [hnone] at hprevious
    cases hprevious

theorem invalidate_effect (input : InvalidateInput) (s : Store) :
    Effect host (.invalidate input) s ((HeadOp.invalidate input).exec host s) := by
  cases hexec :
      invalidateConfirmedAcceptanceRecordPullRequestHeadForTerminalEvent host input s with
  | error message =>
    rw [show (HeadOp.invalidate input).exec host s = s by simp [HeadOp.exec, hexec, commit]]
    exact .unchanged _ s
  | ok result =>
  obtain ⟨answer, s'⟩ := result
  rw [show (HeadOp.invalidate input).exec host s = s' by simp [HeadOp.exec, hexec, commit]]
  unfold invalidateConfirmedAcceptanceRecordPullRequestHeadForTerminalEvent at hexec
  split at hexec
  · cases hexec
  dsimp only at hexec
  split at hexec
  · cases hexec
    exact .unchanged _ s
  next record version hconfirmed =>
  split at hexec
  · cases hexec
    exact .unchanged _ s
  next hpr =>
  rw [not_not] at hpr
  obtain ⟨⟨receipt, s₁⟩, happend, hrest⟩ := (bind_ok_iff _ _ _).mp hexec
  dsimp only at hrest
  rcases appendProvenEvent_cases host _ s s₁ receipt happend with
    ⟨hfalse, hsame, _⟩ | ⟨htrue, hfresh, rfl⟩
  · rw [hfalse] at hrest
    cases hrest
    rw [hsame]
    exact .unchanged _ s
  rw [htrue] at hrest
  have haccepted : Accepted s input.toPullRequestInput input.deliveryId record version :=
    ⟨hconfirmed, Or.inl hpr, hfresh⟩
  have hreceipt := (Grown.refl host s input.recordId).insert host (terminalDeliveryEvent input) rfl
  split at hrest
  · next hnot => exact absurd hnot (by decide)
  split at hrest
  · next existing hexisting =>
    cases hrest
    refine .terminalReceipted input s _ record version haccepted ?_ rfl rfl rfl hreceipt
    exact hasEvent_after_receipt host s _ _ _ ⟨existing, eventOf_eq_some _ _ _ _ hexisting⟩
      (deliveryEventKey_ne_terminalEventKey _ _ _ _).symm
  · next hnone =>
    obtain ⟨⟨provenance, s₂⟩, hprovenance, hlast⟩ := (bind_ok_iff _ _ _).mp hrest
    dsimp only at hlast
    rcases appendProvenEvent_cases host _ _ s₂ provenance hprovenance with
      ⟨_, _, e, he, _⟩ | ⟨hinserted, _, rfl⟩
    · exact absurd (hnone.symm.trans he) (by simp)
    rw [if_pos hinserted] at hlast
    obtain ⟨s₃, hblock, hanswer⟩ := (bind_ok_iff _ _ _).mp hlast
    cases hanswer
    obtain ⟨hrecords, _, _, hended, hgrown⟩ := block_spec host _ s' _ record _ _ hblock
    exact .invalidated input s s' record version haccepted hpr hrecords
      ⟨hended.ids, hended.jobs, hended.boots⟩
      (hgrown (hreceipt.insert host (terminalEvent input record version) rfl))

/-- What the closing end of a reconciliation does. -/
theorem closeReconcile_spec (input : ReconcileInput) (record : ChangeRecordRow) (version : Nat)
    (s s' : Store) (result : ReconcileResult)
    (h : closeReconcile host input record version s = .ok (result, s')) :
    s'.records = (s.updateRecord record.id blockedRow).records ∧
      Ended s s' input.toPullRequestInput ∧
      Grown host s s' input.recordId [closedEvent host input version] := by
  obtain ⟨⟨receipt, s₁⟩, happend, hrest⟩ := (bind_ok_iff _ _ _).mp h
  dsimp only at hrest
  split at hrest
  · cases hrest
  next hinserted =>
  rcases appendProvenEvent_cases host _ s s₁ receipt happend with
    ⟨hfalse, _, _⟩ | ⟨_, _, rfl⟩
  · rw [hfalse] at hinserted
    exact absurd rfl hinserted
  obtain ⟨s₂, hblock, hanswer⟩ := (bind_ok_iff _ _ _).mp hrest
  cases hanswer
  obtain ⟨hrecords, _, _, hended, hgrown⟩ := block_spec host _ s' _ record _ _ hblock
  exact ⟨hrecords, ⟨hended.ids, hended.jobs, hended.boots⟩,
    hgrown ((Grown.refl host s input.recordId).insert host (closedEvent host input version) rfl)⟩

/-- The job of the reconciled head, if any. -/
theorem admitReconciled_spec (input : ReconcileInput) (cycleId : Text) (s s' : Store)
    (admitted : Bool) (h : admitReconciled input cycleId s = .ok (admitted, s')) :
    s'.records = s.records ∧ s'.events = s.events ∧ s'.boots = s.boots ∧
      ∀ r ∈ s'.jobs.rows,
        r ∈ s.jobs.rows ∨ r.id = cycleId ∧ isLiveJob input.toPullRequestInput r := by
  unfold admitReconciled at h
  split at h
  · cases h
    exact ⟨rfl, rfl, rfl, fun r hr => Or.inl hr⟩
  have hspec := insertJob_spec s (cycleJob input.toPullRequestInput cycleId input.observedHeadSha
    "reconciled".toList none s.now)
  split at h
  · next s₁ hinsert =>
    cases h
    rw [hinsert] at hspec
    obtain ⟨hrecords, hevents, hboots, _, ⟨_, hrows⟩ | ⟨hfalse, _⟩⟩ := hspec
    · refine ⟨hrecords, hevents, hboots, fun r hr => ?_⟩
      rw [hrows, List.mem_append, List.mem_singleton] at hr
      refine hr.imp_right ?_
      rintro rfl
      exact ⟨rfl, isLiveJob_cycleJob _ _ _ _ _ _⟩
    · cases hfalse
  · cases h

/-- What the opening end of a reconciliation does. -/
theorem openReconcile_spec (input : ReconcileInput) (record : ChangeRecordRow) (version : Nat)
    (s s' : Store) (result : ReconcileResult)
    (h : openReconcile host input record version s = .ok (result, s')) :
    s' = s ∨
      s'.records = (s.updateRecord record.id (reconciledRow input
        (acceptanceRecordPullRequestReconciliationCycleId host input))).records ∧
      Restarted s s' input.toPullRequestInput
        (acceptanceRecordPullRequestReconciliationCycleId host input) True ∧
      Grown host s s' input.recordId [reconciledEvent host input version] := by
  unfold openReconcile at h
  dsimp only at h
  split at h
  · cases h
    exact Or.inl rfl
  obtain ⟨⟨provenance, s₁⟩, happend, hrest⟩ := (bind_ok_iff _ _ _).mp h
  dsimp only at hrest
  split at hrest
  · cases hrest
  next hyes =>
  rcases appendProvenEvent_cases host _ s s₁ provenance happend with
    ⟨hfalse, _, _⟩ | ⟨_, _, rfl⟩
  · rw [hfalse] at hyes
    exact absurd rfl hyes
  obtain ⟨⟨admitted, s₂⟩, hadmit, hrest⟩ := (bind_ok_iff _ _ _).mp hrest
  dsimp only at hrest
  obtain ⟨s₃, hdispatch, hrest⟩ := (bind_ok_iff _ _ _).mp hrest
  cases hrest
  obtain ⟨hrecords, hevents, hboots, hjobs⟩ := admitReconciled_spec input _ _ s₂ admitted hadmit
  obtain ⟨hbeside, hgrown⟩ := invalidateDispatch_spec host _ _ _ s' hdispatch
  refine Or.inr ⟨hbeside.records.trans hrecords, ⟨?_, ?_⟩, ?_⟩
  · rw [hbeside.jobs]
    intro r hr hlive
    obtain ⟨hr, hkept⟩ := live_supersedeJobs s₂ input.toPullRequestInput _ r hr hlive
    by_cases hof : isLiveJob input.toPullRequestInput r
    · exact Or.inl ⟨(Option.some.inj (hkept hof)).symm, hof⟩
    · refine Or.inr ⟨?_, fun h => absurd h hof⟩
      rcases hjobs r hr with hold | ⟨_, hnew⟩
      · exact hold
      · exact absurd hnew hof
  · rw [hbeside.boots]
    intro r hr hlive
    obtain ⟨hr, hkept⟩ := live_tearDownBoots _ input.toPullRequestInput none _ r hr hlive
    refine ⟨?_, fun hof => ?_⟩
    · have hr₂ : r ∈ s₂.boots.rows := hr
      rw [hboots] at hr₂
      exact hr₂
    · cases hkept hof
  · exact hgrown (((Grown.refl host s input.recordId).insert host
      (reconciledEvent host input version) rfl).congr host hevents)

theorem reconcile_effect (input : ReconcileInput) (s : Store) :
    Effect host (.reconcile input) s ((HeadOp.reconcile input).exec host s) := by
  cases hexec : reconcileConfirmedAcceptanceRecordPullRequestHead host input s with
  | error message =>
    rw [show (HeadOp.reconcile input).exec host s = s by simp [HeadOp.exec, hexec, commit]]
    exact .unchanged _ s
  | ok result =>
  obtain ⟨answer, s'⟩ := result
  rw [show (HeadOp.reconcile input).exec host s = s' by simp [HeadOp.exec, hexec, commit]]
  unfold reconcileConfirmedAcceptanceRecordPullRequestHead at hexec
  split at hexec
  · cases hexec
  dsimp only at hexec
  split at hexec
  · cases hexec
    exact .unchanged _ s
  next record version hconfirmed =>
  split at hexec
  · cases hexec
    exact .unchanged _ s
  next hpr =>
  rw [not_not] at hpr
  split at hexec
  · cases hexec
    exact .unchanged _ s
  split at hexec
  · cases hexec
    exact .unchanged _ s
  split at hexec
  · cases hexec
    exact .unchanged _ s
  next hblocked =>
  rw [Bool.not_eq_true', Bool.not_eq_false] at hblocked
  split at hexec
  · next hclosed =>
    rw [Bool.not_eq_true'] at hclosed
    obtain ⟨hrecords, hended, hgrown⟩ := closeReconcile_spec host input record version s s' answer
      hexec
    exact .closed input s s' record version hconfirmed hpr hclosed hblocked hrecords hended hgrown
  · next hopen =>
    rw [Bool.not_eq_true', Bool.not_eq_false] at hopen
    rcases openReconcile_spec host input record version s s' answer hexec with
      rfl | ⟨hrecords, hrestarted, hgrown⟩
    · exact .unchanged _ s'
    · exact .reconciled input s s' record version hconfirmed hpr hopen hblocked hrecords
        hrestarted hgrown

/-- **Effects.** Every operation on the head of a pull request does one of these. -/
theorem exec_effect (op : HeadOp) (s : Store) : Effect host op s (op.exec host s) := by
  cases op with
  | attach input => exact attach_effect host input s
  | advance input => exact advance_effect host input s
  | invalidate input => exact invalidate_effect host input s
  | reconcile input => exact reconcile_effect host input s

end

end Agentrail.Records
