import Agentrail.Records.HeadAuthority

/-!
# Closed and merged pull requests

A terminal delivery takes the authority of the head away.  A later delivery gets past the hold
only if the head pointer of the record is empty: the hold compares with a head, and a record that
was attached by hand has none.

Main result: `terminal_revokes`.  As long as no fresh delivery meets a record without a head, no
delivery after a terminal one makes the head authoritative or admits a job; only a reconciliation
with an open pull request does.  `late_delivery_restores` is the run in which one meets it.
-/

namespace Agentrail.Records

open Js Runs

/-! ## What is revoked -/

/-- The head of the record may not be worked on. -/
def Store.Blocked (s : Store) (recordId : Text) : Prop :=
  ∀ head, s.head recordId = some head → head.authoritative = false

/-- The action is no call for the record, or one that admits no job. -/
def Action.AdmitsNothing (host : Host) (recordId : Text) (s : Store) (a : Action) : Prop :=
  ∀ op, a = .call op → op.pr.recordId = recordId →
    (op.exec host s).jobs.rows.map Review.ReviewJobRow.id =
      s.jobs.rows.map Review.ReviewJobRow.id

/-- The action is a reconciliation that has observed the pull request open. -/
def Action.Reopens (recordId : Text) (a : Action) : Prop :=
  ∃ input, a = .call (.reconcile input) ∧ input.recordId = recordId ∧ input.observedOpen

/-- The delivery passes every check before the hold. -/
structure Admissible (s : Store) (input : AdvanceInput) (record : ChangeRecordRow) : Prop where
  valid : input.valid
  confirmed : ∃ version, s.confirmedRecord input.toPullRequestInput = .ok (record, version)
  attached : s.isAttachedElsewhere input.toPullRequestInput record = false
  fresh : s.eventOf input.recordId (deliveryEventKey input.prNumber input.deliveryId) = none

/-- A delivery that passes every other check meets a record with a head. -/
def MeetsHead (recordId : Text) (s : Store) (a : Action) : Prop :=
  ∀ input record, a = .call (.advance input) → input.recordId = recordId →
    Admissible s input record → record.currentPrHeadSha.isSome

/-- From here on the head is not authoritative, and no call for the record admits a job. -/
def Revoked (host : Host) (recordId : Text) (s : Store) (as : List Action) : Prop :=
  Always (next host) (fun t => t.Blocked recordId) s as ∧
    Throughout (next host) (fun t a => a.AdmitsNothing host recordId t) s as

/-! ## One step -/

section
variable {host : Host} {s s' : Store}

theorem head_eq_some {recordId : Text} {record : ChangeRecordRow}
    (h : s.row recordId = some record) : s.head recordId = some record.head := by
  unfold Store.head
  rw [h]
  rfl

theorem Store.Blocked.congr {recordId : Text} (h : s.Blocked recordId)
    (hhead : s'.head recordId = s.head recordId) : s'.Blocked recordId := by
  intro head hsome
  exact h head (hhead ▸ hsome)

/-- An update that ends in a blocked record, or is one of another record. -/
theorem blocked_changed (hids : (s.records.map ChangeRecordRow.id).Nodup) {pr : PullRequestInput}
    {record : ChangeRecordRow} {version : Nat} {f : ChangeRecordRow → ChangeRecordRow}
    (hconfirmed : s.confirmedRecord pr = .ok (record, version))
    (hrecords : s'.records = (s.updateRecord record.id f).records)
    (hf : ∀ r, (f r).id = r.id) {recordId : Text} (hs : s.Blocked recordId)
    (hblocked : recordId = pr.recordId → (f record).currentPrHeadAuthoritative = false) :
    s'.Blocked recordId := by
  rcases row_changed hids hconfirmed hrecords hf recordId with ⟨_, hrow⟩ | ⟨hid, _, hrow⟩
  · exact hs.congr (Moved.of_row_eq hrow).2
  · intro head hhead
    rw [head_eq_some hrow] at hhead
    cases hhead
    exact hblocked hid

/-- A delivery that changes anything has passed every check before the hold. -/
theorem admissible_of_changed {input : AdvanceInput}
    (hchanged : (HeadOp.advance input).exec host s ≠ s) :
    ∃ record, Admissible s input record := by
  have hdelivery : (HeadOp.advance input).delivery =
      some (input.recordId, input.prNumber, input.deliveryId) := rfl
  have hnot := (received_iff_of_effect (exec_effect host _ s) hdelivery hchanged).1
  have hfresh : s.eventOf input.recordId (deliveryEventKey input.prNumber input.deliveryId) =
      none := by
    rw [← Option.not_isSome_iff_eq_none, eventOf_isSome_iff]
    exact hnot
  cases hexec : advanceConfirmedAcceptanceRecordPullRequestHead host input s with
  | error message =>
    refine absurd ?_ hchanged
    simp [HeadOp.exec, hexec, commit]
  | ok result =>
  have hresult : result.2 ≠ s := by
    intro h
    refine hchanged ?_
    simp [HeadOp.exec, hexec, commit, h]
  unfold advanceConfirmedAcceptanceRecordPullRequestHead at hexec
  split at hexec
  · cases hexec
  next hvalid =>
  dsimp only at hexec
  split at hexec
  · cases hexec
    exact absurd rfl hresult
  next record version hconfirmed =>
  split at hexec
  · cases hexec
    exact absurd rfl hresult
  next helsewhere =>
  rw [Bool.not_eq_true', Bool.not_eq_false] at hvalid
  exact ⟨record, hvalid, ⟨version, hconfirmed⟩, Bool.eq_false_iff.mpr helsewhere, hfresh⟩

/-- A delivery that follows from the head of a blocked record has met no head. -/
theorem no_head_of_follows (hids : (s.records.map ChangeRecordRow.id).Nodup)
    {input : AdvanceInput} {record : ChangeRecordRow} {version : Nat}
    (hs : s.Blocked input.recordId) (hfollows : Follows host input record)
    (hconfirmed : s.confirmedRecord input.toPullRequestInput = .ok (record, version)) :
    record.currentPrHeadSha = none := by
  cases hsha : record.currentPrHeadSha with
  | none => rfl
  | some sha =>
    have hrow := (row_of_confirmedRecord s hids _ record version hconfirmed).2
    have hblocked : record.currentPrHeadAuthoritative = false := hs _ (head_eq_some hrow)
    rw [authoritative_of_follows hfollows hsha] at hblocked
    cases hblocked

/-- **One step.** A blocked record stays blocked, and no job is admitted for it. -/
theorem revoked_step {recordId : Text} (hids : (s.records.map ChangeRecordRow.id).Nodup)
    (hs : s.Blocked recordId) (op : HeadOp) (hopen : ¬ (Action.call op).Reopens recordId)
    (hmeets : MeetsHead recordId s (.call op)) :
    (op.exec host s).Blocked recordId ∧
      (op.pr.recordId = recordId → (op.exec host s).jobs.rows.map Review.ReviewJobRow.id =
        s.jobs.rows.map Review.ReviewJobRow.id) := by
  by_cases hsame : op.exec host s = s
  · rw [hsame]
    exact ⟨hs, fun _ => rfl⟩
  have hhead : ∀ input record version, op = .advance input → input.recordId = recordId →
      s.confirmedRecord input.toPullRequestInput = .ok (record, version) →
      record.currentPrHeadSha ≠ none := by
    rintro input record version rfl hid hconfirmed
    obtain ⟨record', hadmissible⟩ := admissible_of_changed hsame
    obtain ⟨version', hconfirmed'⟩ := hadmissible.confirmed
    obtain rfl : record' = record := by
      rw [hconfirmed'] at hconfirmed
      cases hconfirmed
      rfl
    exact Option.isSome_iff_ne_none.mp (hmeets input record' rfl hid hadmissible)
  have heffect := exec_effect host op s
  generalize op.exec host s = s' at heffect ⊢
  cases heffect with
  | unchanged => exact ⟨hs, fun _ => rfl⟩
  | attached input _ _ record version inputs hconfirmed _ hrecords hjobs _ _ _ =>
    refine ⟨?_, fun _ => by rw [hjobs]⟩
    rcases hrecords with hrecords | ⟨_, hrecords⟩
    · exact hs.congr (Moved.of_row_eq (row_congr hrecords recordId)).2
    · refine blocked_changed hids hconfirmed hrecords (fun _ => rfl) hs fun hid => ?_
      rw [hid] at hs
      exact hs _ (head_eq_some (row_of_confirmedRecord s hids _ record version hconfirmed).2)
  | receipted _ _ _ _ _ _ _ hrecords hjobs _ _ =>
    exact ⟨hs.congr (Moved.of_row_eq (row_congr hrecords recordId)).2, fun _ => by rw [hjobs]⟩
  | held _ _ _ _ _ _ haccepted _ _ hrecords hended _ =>
    exact ⟨blocked_changed hids haccepted.confirmed hrecords (fun _ => rfl) hs fun _ => rfl,
      fun _ => hended.ids⟩
  | current input _ _ record version _ haccepted hfollows hsha _ _ hrecords _ _ =>
    refine ⟨hs.congr (Moved.of_row_eq (row_congr hrecords recordId)).2, fun hid => ?_⟩
    have hid' : input.recordId = recordId := hid
    subst hid'
    rw [no_head_of_follows hids hs hfollows haccepted.confirmed] at hsha
    cases hsha
  | promoted input _ _ record version _ _ _ haccepted hfollows _ _ hrecords _ _ _ _ =>
    have hno : input.recordId ≠ recordId := by
      rintro rfl
      exact hhead input record version rfl rfl haccepted.confirmed
        (no_head_of_follows hids hs hfollows haccepted.confirmed)
    exact ⟨blocked_changed hids haccepted.confirmed hrecords (fun _ => rfl) hs
      fun hid => absurd hid.symm hno, fun hid => absurd hid hno⟩
  | terminalReceipted _ _ _ _ _ _ _ hrecords hjobs _ _ =>
    exact ⟨hs.congr (Moved.of_row_eq (row_congr hrecords recordId)).2, fun _ => by rw [hjobs]⟩
  | invalidated _ _ _ _ _ haccepted _ hrecords hended _ =>
    exact ⟨blocked_changed hids haccepted.confirmed hrecords (fun _ => rfl) hs fun _ => rfl,
      fun _ => hended.ids⟩
  | closed _ _ _ _ _ hconfirmed _ _ _ hrecords hended _ =>
    exact ⟨blocked_changed hids hconfirmed hrecords (fun _ => rfl) hs fun _ => rfl,
      fun _ => hended.ids⟩
  | reconciled input _ _ record version hconfirmed _ hobserved _ hrecords _ _ =>
    have hno : input.recordId ≠ recordId := fun hid => hopen ⟨input, rfl, hid, hobserved⟩
    exact ⟨blocked_changed hids hconfirmed hrecords (fun _ => rfl) hs
      fun hid => absurd hid.symm hno, fun hid => absurd hid hno⟩

/-- A terminal delivery that is recorded blocks the head. -/
theorem blocked_of_recorded (hids : (s.records.map ChangeRecordRow.id).Nodup)
    {input : InvalidateInput}
    (hbefore : ¬ s.HasEvent input.recordId (terminalEventKey input.prNumber input.deliveryId))
    (hafter : ((HeadOp.invalidate input).exec host s).HasEvent input.recordId
      (terminalEventKey input.prNumber input.deliveryId)) :
    ((HeadOp.invalidate input).exec host s).Blocked input.recordId := by
  have heffect := exec_effect host (.invalidate input) s
  generalize (HeadOp.invalidate input).exec host s = s' at heffect hafter ⊢
  cases heffect with
  | unchanged => exact absurd hafter hbefore
  | terminalReceipted _ _ _ _ _ _ hthere => exact absurd hthere hbefore
  | invalidated _ _ _ record version haccepted _ hrecords _ _ =>
    intro head hhead
    rcases row_changed hids haccepted.confirmed hrecords (fun _ => rfl) input.recordId with
      ⟨hne, _⟩ | ⟨_, _, hrow⟩
    · exact absurd rfl hne
    · rw [head_eq_some hrow] at hhead
      cases hhead
      rfl

/-! ## Runs -/

theorem revoked_run {recordId : Text} (as : List Action)
    (hids : (s.records.map ChangeRecordRow.id).Nodup) (hs : s.Blocked recordId)
    (hopen : ∀ a ∈ as, ¬ a.Reopens recordId)
    (hmeets : Throughout (next host) (MeetsHead recordId) s as) : Revoked host recordId s as := by
  induction as generalizing s with
  | nil => exact ⟨hs, trivial⟩
  | cons a as ih =>
    rw [List.forall_mem_cons] at hopen
    cases a with
    | elsewhere now contracts dispatches jobs boots =>
      obtain ⟨halways, hthroughout⟩ := ih (s := (Action.elsewhere now contracts dispatches jobs
        boots).exec host s) hids hs hopen.2 (hmeets.2 _ rfl)
      refine ⟨⟨hs, ?_⟩, ⟨?_, ?_⟩⟩
      · intro t ht
        cases ht
        exact halways
      · intro op hop
        cases hop
      · intro t ht
        cases ht
        exact hthroughout
    | call op =>
      have hstep : (op.exec host s).Blocked recordId ∧ _ :=
        revoked_step hids hs op hopen.1 hmeets.1
      obtain ⟨hblocked, hjobs⟩ := hstep
      obtain ⟨halways, hthroughout⟩ := ih (s := op.exec host s)
        ((ids_of_effect (exec_effect host op s)).symm ▸ hids) hblocked hopen.2 (hmeets.2 _ rfl)
      refine ⟨⟨hs, ?_⟩, ⟨?_, ?_⟩⟩
      · intro t ht
        cases ht
        exact halways
      · intro op' hop hid
        cases hop
        exact hjobs hid
      · intro t ht
        cases ht
        exact hthroughout

end

/-- **Terminal deliveries.** After a closed or merged delivery has been recorded, no delivery and
no attachment makes the head authoritative or admits a job, if no fresh delivery meets a record
whose head pointer is empty. -/
theorem terminal_revokes (host : Host) (s : Store) (input : InvalidateInput) (as : List Action)
    (hids : (s.records.map ChangeRecordRow.id).Nodup)
    (hbefore : ¬ s.HasEvent input.recordId (terminalEventKey input.prNumber input.deliveryId))
    (hafter : ((HeadOp.invalidate input).exec host s).HasEvent input.recordId
      (terminalEventKey input.prNumber input.deliveryId))
    (hopen : ∀ a ∈ as, ¬ a.Reopens input.recordId)
    (hmeets : Throughout (next host) (MeetsHead input.recordId)
      ((HeadOp.invalidate input).exec host s) as) :
    Revoked host input.recordId ((HeadOp.invalidate input).exec host s) as :=
  revoked_run as ((ids_of_effect (exec_effect host _ s)).symm ▸ hids)
    (blocked_of_recorded hids hbefore hafter) hopen hmeets

/-! ## A known head, and none -/

def sampleReopened : AdvanceInput :=
  { sampleOpened with event := .reopened, deliveryId := "d3".toList }

def sampleAttached : AttachInput :=
  { samplePr with headSha := sampleHead, source := .manual }

def knownHead : Store := (HeadOp.advance sampleOpened).exec sampleHost sampleStore

def noHead : Store := (HeadOp.attach sampleAttached).exec sampleHost sampleStore

theorem not_reopens_advance (recordId : Text) (input : AdvanceInput) :
    ∀ a ∈ [Action.call (.advance input)], ¬ a.Reopens recordId := by
  intro a ha hreopens
  obtain rfl := List.mem_singleton.mp ha
  obtain ⟨_, heq, _⟩ := hreopens
  cases heq

/-- The pull request was opened and merged, and is opened again. -/
theorem terminal_revokes_reopened :
    Revoked sampleHost "r".toList ((HeadOp.invalidate sampleMerged).exec sampleHost knownHead)
      [.call (.advance sampleReopened)] := by
  refine terminal_revokes sampleHost knownHead sampleMerged [.call (.advance sampleReopened)]
    (by decide +kernel) ?_ ?_ (not_reopens_advance _ _) ⟨?_, fun _ _ => trivial⟩
  · rw [← eventOf_isSome_iff]
    decide +kernel
  · rw [← eventOf_isSome_iff]
    decide +kernel
  · intro input record heq _ hadmissible
    cases heq
    obtain ⟨version, hconfirmed⟩ := hadmissible.confirmed
    have hrow := (row_of_confirmedRecord _ (by decide +kernel) _ record version hconfirmed).2
    have hhead : ((HeadOp.invalidate sampleMerged).exec sampleHost knownHead).head "r".toList =
      some ⟨record.currentPrHeadSha, record.currentPrHeadCycleId,
        record.currentPrHeadAuthoritative⟩ := head_eq_some hrow
    have hsha : (((HeadOp.invalidate sampleMerged).exec sampleHost knownHead).head
      "r".toList).all (fun head => head.sha.isSome) := by decide +kernel
    rw [hhead] at hsha
    exact hsha

/-- The record was attached by hand and has no head: a delivery after the merge gives it one. -/
theorem late_delivery_restores :
    ¬ ∀ (host : Host) (s : Store) (input : InvalidateInput) (as : List Action),
      (s.records.map ChangeRecordRow.id).Nodup →
      ¬ s.HasEvent input.recordId (terminalEventKey input.prNumber input.deliveryId) →
      ((HeadOp.invalidate input).exec host s).HasEvent input.recordId
        (terminalEventKey input.prNumber input.deliveryId) →
      (∀ a ∈ as, ¬ a.Reopens input.recordId) →
      Revoked host input.recordId ((HeadOp.invalidate input).exec host s) as := by
  intro hclaim
  have hrevoked := hclaim sampleHost noHead sampleMerged [.call (.advance sampleOpened)]
    (by decide +kernel) (by rw [← eventOf_isSome_iff]; decide +kernel)
    (by rw [← eventOf_isSome_iff]; decide +kernel) (not_reopens_advance _ _)
  have hend := hrevoked.1.finish (t := (HeadOp.advance sampleOpened).exec sampleHost
    ((HeadOp.invalidate sampleMerged).exec sampleHost noHead)) rfl
  have hhead : (((HeadOp.advance sampleOpened).exec sampleHost
      ((HeadOp.invalidate sampleMerged).exec sampleHost noHead)).head "r".toList).map
      Head.authoritative = some true := by decide +kernel
  obtain ⟨head, hsome, htrue⟩ := Option.map_eq_some_iff.mp hhead
  have hfalse : head.authoritative = false := hend head hsome
  rw [htrue] at hfalse
  cases hfalse

end Agentrail.Records
