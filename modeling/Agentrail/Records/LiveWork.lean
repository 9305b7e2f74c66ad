import Agentrail.Lib.Interleaving
import Agentrail.Records.HeadAuthority

/-!
# Work for the current head

Jobs and boots of a pull request are started by the head operations and by workers that hold a
running job; workers move jobs between their states without the lock of the record.  Each
transaction is one statement here, and a claim is the program of its statements; any number of
programs run at once.

Main result: `only_current_cycle_works`.  The invariant is `CurrentWork`: what is live is supported
by the record of the pull request (`Store.Supports`).
-/

namespace Agentrail.Records

open Js Interleaving

/-! ## Statements and programs -/

/-- What the claim of a review job reads of a record. -/
def ChangeRecordRow.reviewed (r : ChangeRecordRow) : Review.ChangeRecord where
  workspaceId := r.workspaceId
  repo := r.repo
  prNumber := r.prNumber
  currentPrHeadSha := r.currentPrHeadSha
  currentPrHeadCycleId := r.currentPrHeadCycleId
  currentPrHeadAuthoritative := r.currentPrHeadAuthoritative

def Store.review (s : Store) : Review.Store where
  jobs := s.jobs
  changeRecords := s.records.map ChangeRecordRow.reviewed
  now := s.now

def Host.review (host : Host) : Review.Host := ⟨host.uuid5Url⟩

/-- The transactions of the module. -/
inductive RecordStmt : Type → Type where
  | head (op : HeadOp) : RecordStmt Unit
  | append (input : CurrentJobInput) (events : List AppendChangeRecordEventInput) :
    RecordStmt (Except Text (List AppendChangeRecordEventResult))
  | boot (input : CurrentJobInput) (ref : Text) :
    RecordStmt (Except Text EnqueuePreviewBootResult)

def RecordStmt.exec (host : Host) ⦃β : Type⦄ : RecordStmt β → Store → β × Store
  | .head op, s => ((), op.exec host s)
  | .append input events, s =>
    let result := appendCurrentReviewJobEventsAtomically host input events s
    (result.map Prod.fst, commit s result)
  | .boot input ref, s =>
    let result := enqueueCurrentReviewJobPreviewBoot host input ref s
    (result.map Prod.fst, commit s result)

/-- The statements of both modules. -/
inductive WorkStmt (β : Type) : Type where
  | record (q : RecordStmt β)
  | review (q : Review.Stmt β)

def WorkStmt.exec (host : Host) ⦃β : Type⦄ : WorkStmt β → Store → β × Store
  | .record q, s => q.exec host s
  | .review q, s =>
    ((q.exec host.review s.review).1, { s with jobs := (q.exec host.review s.review).2.jobs })

def reviewing {α : Type} : Prog Review.Stmt α → Prog WorkStmt α
  | .done a => .done a
  | .call q k => .call (.review q) fun b => reviewing (k b)

inductive WorkOp where
  | head (op : HeadOp)
  | append (input : CurrentJobInput) (events : List AppendChangeRecordEventInput)
  | boot (input : CurrentJobInput) (ref : Text)
  | review (op : Review.Op)

def workProgram (host : Host) : WorkOp → Prog WorkStmt Unit
  | .head op => .stmt (.record (.head op))
  | .append input events => .stmt (.record (.append input events)) >>= fun _ => pure ()
  | .boot input ref => .stmt (.record (.boot input ref)) >>= fun _ => pure ()
  | .review op => reviewing (Review.opProgram host.review op)

section
variable (pr : PullRequestInput)

def isAttached (r : ChangeRecordRow) : Bool := isPrOf pr.workspaceId pr.repo pr.prNumber r

/-- The clock, and the rest of the database: it neither writes a record of the pull request nor
starts any work for it. -/
structure Elsewhere (s s' : Store) : Prop where
  ids : (s'.records.map ChangeRecordRow.id).Nodup
  records : ∀ r, isAttached pr r → (r ∈ s'.records ↔ r ∈ s.records)
  jobs : ∀ j ∈ s'.jobs.rows, isLiveJob pr j → ∃ j' ∈ s.jobs.rows, isLiveJob pr j' ∧ j'.id = j.id
  boots : ∀ b ∈ s'.boots.rows, isLiveBoot pr b →
    ∃ b' ∈ s.boots.rows, isLiveBoot pr b' ∧ b'.id = b.id ∧ b'.headSha = b.headSha

/-- `enqueueReviewJob` for the pull request, which knows no cycles. -/
def enqueuesFor : ∀ {β : Type}, Review.Stmt β → Bool
  | _, .enqueue input =>
    input.workspaceId = pr.workspaceId && input.repo = pr.repo && input.prNumber = pr.prNumber
  | _, _ => false

/-- The jobs of the pull request are created by the head operations only. -/
def OnlyHeadJobs ⦃β : Type⦄ (_ : List (Prog WorkStmt Unit)) (_ : Store) : WorkStmt β → Prop
  | .record _ => True
  | .review q => enqueuesFor pr q = false

def workSystem (host : Host) : System Store WorkStmt where
  exec := WorkStmt.exec host
  starts := fun p => ∃ op, p = workProgram host op
  env := Elsewhere pr

/-! ## The invariant -/

/-- An authoritative record of the pull request has such a head and such a cycle. -/
def Store.Supports (s : Store) (P : Option Text → Option Text → Prop) : Prop :=
  ∃ r ∈ s.records, isAttached pr r ∧ r.currentPrHeadAuthoritative ∧
    P r.currentPrHeadSha r.currentPrHeadCycleId

def JobOf (j : Review.ReviewJobRow) (_ cycleId : Option Text) : Prop := cycleId = some j.id

def BootOf (host : Host) (b : Preview.PreviewBootRow) (sha cycleId : Option Text) : Prop :=
  sha = some b.headSha ∧ ∃ c, cycleId = some c ∧
    b.id = Preview.previewBootId host.boots pr.workspaceId pr.repo pr.prNumber b.headSha c

structure CurrentWork (host : Host) (s : Store) : Prop where
  ids : (s.records.map ChangeRecordRow.id).Nodup
  one : ∀ r ∈ s.records, ∀ r' ∈ s.records, isAttached pr r → isAttached pr r' → r = r'
  jobs : ∀ j ∈ s.jobs.rows, isLiveJob pr j → s.Supports pr (JobOf j)
  boots : ∀ b ∈ s.boots.rows, isLiveBoot pr b → s.Supports pr (BootOf pr host b)

end

/-! ## Pull requests -/

/-- Two names of one pull request. -/
def SamePr (pr pr' : PullRequestInput) : Prop :=
  pr.workspaceId = pr'.workspaceId ∧ pr.repo = pr'.repo ∧ pr.prNumber = pr'.prNumber

section
variable {pr pr' : PullRequestInput}

theorem isAttached_iff (r : ChangeRecordRow) : isAttached pr r ↔
    r.workspaceId = pr.workspaceId ∧ r.repo = pr.repo ∧ r.prNumber = some pr.prNumber := by
  unfold isAttached isPrOf
  simp only [Bool.and_eq_true, decide_eq_true_eq, and_assoc]

theorem isAttached_congr (h : SamePr pr pr') (r : ChangeRecordRow) :
    isAttached pr r = isAttached pr' r := by
  unfold isAttached
  rw [h.1, h.2.1, h.2.2]

theorem isLiveJob_congr (h : SamePr pr pr') (j : Review.ReviewJobRow) :
    isLiveJob pr j = isLiveJob pr' j := by
  unfold isLiveJob
  rw [h.1, h.2.1, h.2.2]

theorem isLiveBoot_congr (h : SamePr pr pr') (b : Preview.PreviewBootRow) :
    isLiveBoot pr b = isLiveBoot pr' b := by
  unfold isLiveBoot
  rw [h.1, h.2.1, h.2.2]

theorem samePr_of_liveJob {j : Review.ReviewJobRow} (h : isLiveJob pr j) (h' : isLiveJob pr' j) :
    SamePr pr pr' := by
  unfold isLiveJob at h h'
  simp only [Bool.and_eq_true, decide_eq_true_eq] at h h'
  exact ⟨h.1.1.1.symm.trans h'.1.1.1, h.1.1.2.symm.trans h'.1.1.2, h.1.2.symm.trans h'.1.2⟩

theorem samePr_of_liveBoot {b : Preview.PreviewBootRow} (h : isLiveBoot pr b)
    (h' : isLiveBoot pr' b) : SamePr pr pr' := by
  unfold isLiveBoot at h h'
  simp only [Bool.and_eq_true, decide_eq_true_eq] at h h'
  exact ⟨h.1.1.1.symm.trans h'.1.1.1, h.1.1.2.symm.trans h'.1.1.2, h.1.2.symm.trans h'.1.2⟩

theorem isLive_of_isLiveBoot {b : Preview.PreviewBootRow} (h : isLiveBoot pr b) :
    Preview.isLive b := by
  unfold isLiveBoot at h
  rw [Bool.and_eq_true] at h
  exact h.2

end

/-! ## Records after an operation -/

theorem confirmedRecord_spec {s : Store} {pr : PullRequestInput} {record : ChangeRecordRow}
    {version : Nat} (h : s.confirmedRecord pr = .ok (record, version)) :
    record ∈ s.records ∧ record.workspaceId = pr.workspaceId ∧ record.id = pr.recordId ∧
      record.repo = pr.repo := by
  unfold Store.confirmedRecord at h
  split at h
  · cases h
  next r hr =>
  split at h
  · cases h
  cases h
  have hkey := List.find?_some hr
  simp only [Bool.and_eq_true, decide_eq_true_eq] at hkey
  exact ⟨List.mem_of_find?_eq_some hr, hkey.1.1, hkey.1.2, hkey.2⟩

section
variable {s s' : Store} {record : ChangeRecordRow} {f : ChangeRecordRow → ChangeRecordRow}
  (hids : (s.records.map ChangeRecordRow.id).Nodup)

include hids

theorem mem_updateRecord_iff (hrecord : record ∈ s.records) (r : ChangeRecordRow) :
    r ∈ (s.updateRecord record.id f).records ↔
      r = f record ∨ r ∈ s.records ∧ r.id ≠ record.id := by
  show r ∈ s.records.map _ ↔ _
  rw [List.mem_map]
  constructor
  · rintro ⟨r₀, hr₀, rfl⟩
    by_cases hid : r₀.id = record.id
    · rw [if_pos hid]
      rw [List.inj_on_of_nodup_map hids hr₀ hrecord hid]
      exact Or.inl rfl
    · rw [if_neg hid]
      exact Or.inr ⟨hr₀, hid⟩
  · rintro (rfl | ⟨hr, hid⟩)
    · exact ⟨record, hrecord, if_pos rfl⟩
    · exact ⟨r, hr, if_neg hid⟩

/-- Nothing is supported by a record of another pull request. -/
theorem supports_of_update {pr : PullRequestInput} {P : Option Text → Option Text → Prop}
    (hrecord : record ∈ s.records)
    (hrecords : s'.records = (s.updateRecord record.id f).records)
    (hother : isAttached pr record = false) (h : s.Supports pr P) : s'.Supports pr P := by
  obtain ⟨r, hr, hattached, hrest⟩ := h
  refine ⟨r, ?_, hattached, hrest⟩
  rw [hrecords, mem_updateRecord_iff hids hrecord]
  refine Or.inr ⟨hr, fun hid => ?_⟩
  rw [List.inj_on_of_nodup_map hids hr hrecord hid, hother] at hattached
  cases hattached

end

theorem Store.Supports.congr {s s' : Store} {pr : PullRequestInput}
    {P : Option Text → Option Text → Prop} (h : s.Supports pr P)
    (hrecords : s'.records = s.records) : s'.Supports pr P := by
  obtain ⟨r, hr, hrest⟩ := h
  exact ⟨r, hrecords ▸ hr, hrest⟩

section
variable {s : Store} {pr pr' : PullRequestInput} {record : ChangeRecordRow} {version : Nat}
  (hconfirmed : s.confirmedRecord pr' = .ok (record, version))
  (hours : record.prNumber = some pr'.prNumber ∨ s.isAttachedElsewhere pr' record = false)

include hconfirmed hours

/-- A record is worked on only for its own pull request. -/
theorem samePr_of_attached (h : isAttached pr record) : SamePr pr pr' := by
  obtain ⟨_, hworkspace, _, hrepo⟩ := confirmedRecord_spec hconfirmed
  obtain ⟨hws, hr, hn⟩ := (isAttached_iff record).mp h
  refine ⟨hws.symm.trans hworkspace, hr.symm.trans hrepo, ?_⟩
  rcases hours with hpr | helsewhere
  · rw [hpr] at hn
    exact (Option.some.inj hn).symm
  · unfold Store.isAttachedElsewhere at helsewhere
    rw [Bool.or_eq_false_iff, hn] at helsewhere
    have hne := helsewhere.1
    rw [Option.any_some, decide_eq_false_iff_not, not_not] at hne
    exact hne

/-- No other record has the pull request. -/
theorem eq_record_of_attached (hs : CurrentWork pr host s) (hpr : SamePr pr pr')
    {r : ChangeRecordRow} (hr : r ∈ s.records) (hattached : isAttached pr r) : r = record := by
  obtain ⟨hmem, hworkspace, hid, hrepo⟩ := confirmedRecord_spec hconfirmed
  rcases hours with hnumber | helsewhere
  · refine hs.one r hr record hmem hattached ?_
    rw [isAttached_congr hpr, isAttached_iff]
    exact ⟨hworkspace, hrepo, hnumber⟩
  · unfold Store.isAttachedElsewhere at helsewhere
    rw [Bool.or_eq_false_iff] at helsewhere
    have hfound := helsewhere.2
    rw [isAttached_congr hpr] at hattached
    cases hof : s.recordOfPr pr'.workspaceId pr'.repo pr'.prNumber with
    | none => exact absurd hattached (List.find?_eq_none.mp hof r hr)
    | some r₀ =>
      rw [hof, Option.any_some, decide_eq_false_iff_not, not_not] at hfound
      have hr₀ := List.mem_of_find?_eq_some hof
      have hattached₀ : isAttached pr' r₀ := List.find?_some hof
      obtain rfl : r₀ = record :=
        List.inj_on_of_nodup_map hs.ids hr₀ hmem (hfound.trans hid.symm)
      rw [← isAttached_congr hpr] at hattached hattached₀
      exact hs.one r hr r₀ hr₀ hattached hattached₀

end

/-! ## Head operations -/

section
variable {host : Host} {s s' : Store} {pr pr' : PullRequestInput} {record : ChangeRecordRow}
  {version : Nat} {f : ChangeRecordRow → ChangeRecordRow}
  (hs : CurrentWork pr host s)
  (hconfirmed : s.confirmedRecord pr' = .ok (record, version))
  (hours : record.prNumber = some pr'.prNumber ∨ s.isAttachedElsewhere pr' record = false)
  (hrecords : s'.records = (s.updateRecord record.id f).records)

include hs hconfirmed hrecords

theorem one_of_update
    (hmine : isAttached pr (f record) → ∀ r ∈ s.records, isAttached pr r → r = record) :
    ∀ r ∈ s'.records, ∀ r' ∈ s'.records, isAttached pr r → isAttached pr r' → r = r' := by
  have hrecord := (confirmedRecord_spec hconfirmed).1
  intro r hr r' hr' hattached hattached'
  rw [hrecords, mem_updateRecord_iff hs.ids hrecord] at hr hr'
  rcases hr with rfl | ⟨hr, hne⟩ <;> rcases hr' with rfl | ⟨hr', hne'⟩
  · rfl
  · exact absurd (congrArg ChangeRecordRow.id (hmine hattached r' hr' hattached')) hne'
  · exact absurd (congrArg ChangeRecordRow.id (hmine hattached' r hr hattached)) hne
  · exact hs.one r hr r' hr' hattached hattached'

include hours

/-- The work for a pull request ends with the authority of its head. -/
theorem currentWork_ended (hid : ∀ r, (f r).id = r.id)
    (hsame : isAttached pr (f record) = isAttached pr record) (hended : Ended s s' pr') :
    CurrentWork pr host s' := by
  have hrecord := (confirmedRecord_spec hconfirmed).1
  have hkept : ∀ {P : Option Text → Option Text → Prop}, ¬ SamePr pr pr' → s.Supports pr P →
      s'.Supports pr P := fun hno =>
    supports_of_update hs.ids hrecord hrecords
      (Bool.eq_false_iff.mpr fun h => hno (samePr_of_attached hconfirmed hours h))
  refine ⟨?_, ?_, ?_, ?_⟩
  · rw [hrecords, ids_updateRecord s hid]
    exact hs.ids
  · refine one_of_update hs hconfirmed hrecords fun h r hr hattached => ?_
    rw [hsame] at h
    exact hs.one r hr record hrecord hattached h
  · intro j hj hlive
    obtain ⟨hold, hother⟩ := hended.jobs j hj (isLive_of_isLiveJob pr j hlive)
    refine hkept (fun hpr => ?_) (hs.jobs j hold hlive)
    rw [isLiveJob_congr hpr] at hlive
    exact hother hlive
  · intro b hb hlive
    obtain ⟨hold, hother⟩ := hended.boots b hb (isLive_of_isLiveBoot hlive)
    refine hkept (fun hpr => ?_) (hs.boots b hold hlive)
    rw [isLiveBoot_congr hpr] at hlive
    exact hother hlive

/-- The work for a pull request is that of its new cycle; if the head is the old one, the cycle is,
too. -/
theorem currentWork_restarted {headSha cycleId : Text} {headChanged : Prop}
    (hid : ∀ r, (f r).id = r.id) (hattached : isAttached pr' (f record))
    (hauthoritative : (f record).currentPrHeadAuthoritative)
    (hsha : (f record).currentPrHeadSha = some headSha)
    (hcycle : (f record).currentPrHeadCycleId = some cycleId)
    (hkept : ¬ headChanged → record.currentPrHeadSha = some headSha ∧
      record.currentPrHeadCycleId = some cycleId)
    (hrestarted : Restarted s s' pr' cycleId headChanged) : CurrentWork pr host s' := by
  have hrecord := (confirmedRecord_spec hconfirmed).1
  have hnew : ∀ {P : Option Text → Option Text → Prop}, SamePr pr pr' →
      P (some headSha) (some cycleId) → s'.Supports pr P := by
    intro P hpr hP
    refine ⟨f record, ?_, ?_, hauthoritative, ?_⟩
    · rw [hrecords, mem_updateRecord_iff hs.ids hrecord]
      exact Or.inl rfl
    · rw [isAttached_congr hpr]
      exact hattached
    · rw [hsha, hcycle]
      exact hP
  -- what was there before the operation is of another pull request or of the same head
  have hold : ∀ {P : Option Text → Option Text → Prop}, s.Supports pr P →
      (SamePr pr pr' → ¬ headChanged) → s'.Supports pr P := by
    intro P hP hunchanged
    by_cases hpr : SamePr pr pr'
    · obtain ⟨r, hr, hattached', _, hof⟩ := hP
      obtain rfl := eq_record_of_attached hconfirmed hours hs hpr hr hattached'
      obtain ⟨hsha', hcycle'⟩ := hkept (hunchanged hpr)
      rw [hsha', hcycle'] at hof
      exact hnew hpr hof
    · exact supports_of_update hs.ids hrecord hrecords
        (Bool.eq_false_iff.mpr fun h => hpr (samePr_of_attached hconfirmed hours h)) hP
  refine ⟨?_, ?_, ?_, ?_⟩
  · rw [hrecords, ids_updateRecord s hid]
    exact hs.ids
  · refine one_of_update hs hconfirmed hrecords fun h r hr hr' => ?_
    obtain ⟨hws, hrepo, hn⟩ := (isAttached_iff _).mp h
    obtain ⟨hws', hrepo', hn'⟩ := (isAttached_iff _).mp hattached
    have hpr : SamePr pr pr' :=
      ⟨hws.symm.trans hws', hrepo.symm.trans hrepo', Option.some.inj (hn.symm.trans hn')⟩
    exact eq_record_of_attached hconfirmed hours hs hpr hr hr'
  · intro j hj hlive
    rcases hrestarted.jobs j hj (isLive_of_isLiveJob pr j hlive) with ⟨rfl, hof⟩ | ⟨hj', hsame⟩
    · exact hnew (samePr_of_liveJob hlive hof) rfl
    · refine hold (hs.jobs j hj' hlive) fun hpr => hsame ?_
      rw [← isLiveJob_congr hpr]
      exact hlive
  · intro b hb hlive
    obtain ⟨hb', hsame⟩ := hrestarted.boots b hb (isLive_of_isLiveBoot hlive)
    refine hold (hs.boots b hb' hlive) fun hpr => hsame ?_
    rw [← isLiveBoot_congr hpr]
    exact hlive

end

section
variable {host : Host} {s s' : Store} {pr : PullRequestInput}

/-- Nothing that matters here has changed. -/
theorem CurrentWork.congr (hs : CurrentWork pr host s) (hrecords : s'.records = s.records)
    (hjobs : s'.jobs = s.jobs) (hboots : s'.boots = s.boots) : CurrentWork pr host s' := by
  obtain ⟨hids, hone, hjob, hboot⟩ := hs
  refine ⟨hrecords ▸ hids, hrecords ▸ hone, ?_, ?_⟩
  · rw [hjobs]
    exact fun j hj hlive => (hjob j hj hlive).congr hrecords
  · rw [hboots]
    exact fun b hb hlive => (hboot b hb hlive).congr hrecords

/-- **Head operations.** They keep the invariant, for every pull request. -/
theorem currentWork_of_effect {op : HeadOp} (heffect : Effect host op s s')
    (hs : CurrentWork pr host s) : CurrentWork pr host s' := by
  cases heffect with
  | unchanged => exact hs
  | attached input _ _ record version inputs hconfirmed helsewhere hrecords hjobs hboots _ _ =>
    rcases hrecords with hrecords | ⟨hnone, hrecords⟩
    · exact hs.congr hrecords hjobs hboots
    have hrecord := (confirmedRecord_spec hconfirmed).1
    have hno : isAttached pr record = false := by
      refine Bool.eq_false_iff.mpr fun h => ?_
      have hn := ((isAttached_iff record).mp h).2.2
      rw [hnone] at hn
      cases hn
    refine ⟨?_, ?_, ?_, ?_⟩
    · rw [hrecords, ids_updateRecord s (f := attachedRow input) fun _ => rfl]
      exact hs.ids
    · refine one_of_update hs hconfirmed hrecords fun h r hr hattached => ?_
      obtain ⟨hws, hrepo, hn⟩ := (isAttached_iff _).mp h
      obtain ⟨_, hws', _, hrepo'⟩ := confirmedRecord_spec hconfirmed
      have hpr : SamePr pr input.toPullRequestInput :=
        ⟨hws.symm.trans hws', hrepo.symm.trans hrepo', (Option.some.inj hn).symm⟩
      exact eq_record_of_attached hconfirmed (Or.inr helsewhere) hs hpr hr hattached
    · rw [hjobs]
      exact fun j hj hlive => supports_of_update hs.ids hrecord hrecords hno (hs.jobs j hj hlive)
    · rw [hboots]
      exact fun b hb hlive => supports_of_update hs.ids hrecord hrecords hno (hs.boots b hb hlive)
  | receipted _ _ _ _ _ _ _ hrecords hjobs hboots _ => exact hs.congr hrecords hjobs hboots
  | held _ _ _ _ _ _ haccepted _ _ hrecords hended _ =>
    exact currentWork_ended hs haccepted.confirmed haccepted.ours hrecords (fun _ => rfl) rfl hended
  | current input _ _ record version cycleId haccepted hfollows hsha hsome hcycle hrecords
      hrestarted _ =>
    obtain ⟨_, hws, _, hrepo⟩ := confirmedRecord_spec haccepted.confirmed
    have hself : s'.records = (s.updateRecord record.id id).records := by
      show _ = s.records.map _
      rw [hrecords]
      simp
    have hpr : record.prNumber = some input.prNumber := by
      rcases haccepted.ours with hpr | helsewhere
      · exact hpr
      · obtain ⟨n, hn⟩ := Option.isSome_iff_exists.mp hsome
        unfold Store.isAttachedElsewhere at helsewhere
        rw [Bool.or_eq_false_iff, hn, Option.any_some, decide_eq_false_iff_not, not_not]
          at helsewhere
        rw [hn, helsewhere.1]
    exact currentWork_restarted hs haccepted.confirmed haccepted.ours hself (fun _ => rfl)
      ((isAttached_iff _).mpr ⟨hws, hrepo, hpr⟩) (authoritative_of_follows hfollows hsha) hsha
      hcycle (fun _ => ⟨hsha, hcycle⟩) hrestarted
  | promoted input _ _ record version cycleId inserted inputs haccepted _ hcycle _ hrecords
      hrestarted _ _ _ =>
    obtain ⟨_, hws, _, hrepo⟩ := confirmedRecord_spec haccepted.confirmed
    refine currentWork_restarted hs haccepted.confirmed haccepted.ours hrecords (fun _ => rfl)
      ((isAttached_iff _).mpr ⟨hws, hrepo, rfl⟩) rfl rfl rfl (fun hsame => ?_) hrestarted
    rw [not_not] at hsame
    exact ⟨hsame, hcycle hsame⟩
  | terminalReceipted _ _ _ _ _ _ _ hrecords hjobs hboots _ =>
    exact hs.congr hrecords hjobs hboots
  | invalidated _ _ _ _ _ haccepted _ hrecords hended _ =>
    exact currentWork_ended hs haccepted.confirmed haccepted.ours hrecords (fun _ => rfl) rfl hended
  | closed _ _ _ _ _ hconfirmed hpr _ _ hrecords hended _ =>
    exact currentWork_ended hs hconfirmed (Or.inl hpr) hrecords (fun _ => rfl) rfl hended
  | reconciled input _ _ record version hconfirmed hpr _ _ hrecords hrestarted _ =>
    obtain ⟨_, hws, _, hrepo⟩ := confirmedRecord_spec hconfirmed
    exact currentWork_restarted hs hconfirmed (Or.inl hpr) hrecords (fun _ => rfl)
      ((isAttached_iff _).mpr ⟨hws, hrepo, hpr⟩) rfl rfl rfl (fun h => absurd trivial h) hrestarted

end

/-! ## Work for the current head -/

section
variable {host : Host} {s s' : Store} {pr : PullRequestInput} {input : CurrentJobInput}

theorem Beside.trans {s₁ s₂ s₃ : Store} (h : Beside s₁ s₂) (h' : Beside s₂ s₃) : Beside s₁ s₃ :=
  ⟨h'.records.trans h.records, h'.contracts.trans h.contracts, h'.jobs.trans h.jobs,
    h'.boots.trans h.boots, h'.now.trans h.now⟩

/-- A batch of events only changes the timeline. -/
theorem beside_of_append (inputs : List AppendChangeRecordEventInput)
    (results : List AppendChangeRecordEventResult)
    (h : appendChangeRecordEventsAtomicallyInTransaction host inputs s = .ok (results, s')) :
    Beside s s' := by
  induction inputs generalizing s results with
  | nil =>
    cases h
    exact Beside.refl _
  | cons input inputs ih =>
    obtain ⟨⟨result, s₁⟩, happend, hrest⟩ := (bind_ok_iff _ _ _).mp h
    dsimp only at hrest
    obtain ⟨⟨others, s₂⟩, hothers, hlast⟩ := (bind_ok_iff _ _ _).mp hrest
    cases hlast
    have hfirst : Beside s s₁ := by
      rcases appendProvenEvent_cases host input s s₁ result happend with ⟨_, rfl, _⟩ | ⟨_, _, rfl⟩
      · exact Beside.refl _
      · exact ⟨rfl, rfl, rfl, rfl, rfl⟩
    exact hfirst.trans (ih _ hothers)

theorem current_of_require (h : requireCurrent input s = .ok ()) :
    ∃ r ∈ s.records, isCurrentOf input r := by
  unfold requireCurrent at h
  split at h
  · cases h
  next hany =>
  rw [Bool.not_eq_true', Bool.not_eq_false] at hany
  exact List.any_eq_true.mp hany

/-- Events for a job are appended only while its cycle is the current one. -/
theorem appendCurrent_spec {events : List AppendChangeRecordEventInput}
    {results : List AppendChangeRecordEventResult}
    (h : appendCurrentReviewJobEventsAtomically host input events s = .ok (results, s')) :
    (∃ r ∈ s.records, isCurrentOf input r) ∧ Beside s s' := by
  unfold appendCurrentReviewJobEventsAtomically at h
  dsimp only at h
  split at h
  · cases h
  split at h
  · cases h
  obtain ⟨_, hrequire, hrest⟩ := (bind_ok_iff _ _ _).mp h
  exact ⟨current_of_require hrequire, beside_of_append _ results hrest⟩

theorem insertBoot_spec (boot : Preview.PreviewBootRow) :
    (s.insertBoot boot).2.records = s.records ∧ (s.insertBoot boot).2.jobs = s.jobs ∧
      ∀ b ∈ (s.insertBoot boot).2.boots.rows, b ∈ s.boots.rows ∨ b = boot := by
  unfold Store.insertBoot
  split
  · exact ⟨rfl, rfl, fun b hb => Or.inl hb⟩
  · next boots hinsert =>
    refine ⟨rfl, rfl, fun b hb => ?_⟩
    have hb' : b ∈ boots.rows := hb
    rw [Table.rows_insert _ _ _ hinsert, List.mem_append, List.mem_singleton] at hb'
    exact hb'

/-- A boot is requested only for the current cycle, and the other boots end. -/
theorem enqueueBoot_spec {ref : Text} {result : EnqueuePreviewBootResult}
    (h : enqueueCurrentReviewJobPreviewBoot host input ref s = .ok (result, s')) :
    (∃ r ∈ s.records, isCurrentOf input r) ∧ s'.records = s.records ∧ s'.jobs = s.jobs ∧
      ∀ b ∈ s'.boots.rows, Preview.isLive b →
        (isLiveBoot input.toPullRequestInput b → b.headSha = input.headSha ∧
          b.id = Preview.previewBootId host.boots input.workspaceId input.repo input.prNumber
            input.headSha input.jobId) ∧
        (¬ isLiveBoot input.toPullRequestInput b → b ∈ s.boots.rows) := by
  unfold enqueueCurrentReviewJobPreviewBoot at h
  dsimp only at h
  split at h
  · cases h
  obtain ⟨_, hrequire, hrest⟩ := (bind_ok_iff _ _ _).mp h
  split at hrest
  · cases hrest
  next hbound =>
  cases hrest
  obtain ⟨hrecords, hjobs, hboots⟩ := insertBoot_spec (s := s) (cycleBoot host input ref s.now)
  rw [Bool.not_eq_true', Bool.not_eq_false] at hbound
  refine ⟨current_of_require hrequire, hrecords, hjobs, ?_⟩
  intro b hb hlive
  obtain ⟨hmem, hkept⟩ := live_tearDownBoots _ input.toPullRequestInput _ _ b hb hlive
  constructor
  · intro hof
    have hid : b.id = (cycleBoot host input ref s.now).id := (Option.some.inj (hkept hof)).symm
    obtain ⟨b', hfound, hsame⟩ := (Option.any_eq_true _ _).mp hbound
    have hid' := List.find?_some hfound
    rw [decide_eq_true_iff] at hid'
    obtain rfl : b = b' := Table.eq_of_key _ Preview.PreviewBootRow.id List.mem_cons_self b b' hmem
      (List.mem_of_find?_eq_some hfound) (hid.trans hid'.symm)
    simp only [Bool.and_eq_true, decide_eq_true_eq] at hsame
    exact ⟨hsame.1.2, hid⟩
  · intro hnot
    rcases hboots b hmem with hold | rfl
    · exact hold
    · refine absurd ?_ hnot
      unfold isLiveBoot cycleBoot Preview.isLive
      simp

theorem isCurrentOf_spec {r : ChangeRecordRow} (h : isCurrentOf input r) :
    isAttached input.toPullRequestInput r ∧ r.currentPrHeadAuthoritative ∧
      r.currentPrHeadSha = some input.headSha ∧ r.currentPrHeadCycleId = some input.jobId := by
  unfold isCurrentOf at h
  simp only [Bool.and_eq_true, decide_eq_true_eq] at h
  obtain ⟨⟨⟨⟨⟨⟨hws, _⟩, hrepo⟩, hn⟩, hauthoritative⟩, hsha⟩, hcycle⟩ := h
  exact ⟨(isAttached_iff r).mpr ⟨hws, hrepo, hn⟩, hauthoritative, hsha, hcycle⟩

/-- **The transactions of the module** keep the invariant. -/
theorem currentWork_record {β : Type} (q : RecordStmt β) (hs : CurrentWork pr host s) :
    CurrentWork pr host (q.exec host s).2 := by
  cases q with
  | head op => exact currentWork_of_effect (exec_effect host op s) hs
  | append input events =>
    show CurrentWork pr host (commit s _)
    cases hcall : appendCurrentReviewJobEventsAtomically host input events s with
    | error message => exact hs
    | ok result =>
      obtain ⟨results, s'⟩ := result
      have hbeside := (appendCurrent_spec hcall).2
      exact hs.congr hbeside.records hbeside.jobs hbeside.boots
  | boot input ref =>
    show CurrentWork pr host (commit s _)
    cases hcall : enqueueCurrentReviewJobPreviewBoot host input ref s with
    | error message => exact hs
    | ok result =>
      obtain ⟨answer, s'⟩ := result
      obtain ⟨⟨r, hr, hcurrent⟩, hrecords, hjobs, hboots⟩ := enqueueBoot_spec hcall
      obtain ⟨hattached, hauthoritative, hsha, hcycle⟩ := isCurrentOf_spec hcurrent
      refine ⟨hrecords.symm ▸ hs.ids, hrecords.symm ▸ hs.one, ?_, ?_⟩
      · show ∀ j ∈ s'.jobs.rows, _
        rw [hjobs]
        exact fun j hj hlive => (hs.jobs j hj hlive).congr hrecords
      · intro b hb hlive
        obtain ⟨hnew, hold⟩ := hboots b hb (isLive_of_isLiveBoot hlive)
        by_cases hof : isLiveBoot input.toPullRequestInput b
        · obtain ⟨hhead, hid⟩ := hnew hof
          have hpr := samePr_of_liveBoot hlive hof
          refine ⟨r, hrecords.symm ▸ hr, ?_, hauthoritative, ?_, input.jobId, hcycle, ?_⟩
          · rw [isAttached_congr hpr]
            exact hattached
          · rw [hhead]
            exact hsha
          · rw [hhead, hpr.1, hpr.2.1, hpr.2.2]
            exact hid
        · exact (hs.boots b (hold hof) hlive).congr hrecords

end

/-! ## Review jobs -/

section
variable {host : Host} {s : Store} {pr : PullRequestInput}

/-- A statement keeps a job alive, but gives none its life back. -/
theorem live_of_writes {β : Type} {q : Review.Stmt β} {t : Review.Store}
    {r r' : Review.ReviewJobRow} (h : Review.Writes q t r r') (hlive : isLive r') : isLive r := by
  have hrunning : ∀ {jobId : Text}, Review.isRunning jobId r → isLive r := by
    intro jobId h
    unfold Review.isRunning at h
    unfold isLive
    rw [Bool.and_eq_true] at h
    rw [Bool.or_eq_true]
    exact Or.inr h.2
  cases h with
  | supersede => cases hlive
  | requeueStaleRunning h =>
    unfold Review.isStaleRunning at h
    unfold isLive
    rw [Bool.and_eq_true] at h
    rw [Bool.or_eq_true]
    exact Or.inr h.1
  | failStaleQueued => cases hlive
  | claimOldest h =>
    have hclaimable := (Review.nextClaim_mem _ _ r h).2
    unfold Review.Store.claimable at hclaimable
    simp only [Bool.and_eq_true] at hclaimable
    unfold isLive
    rw [Bool.or_eq_true]
    exact Or.inl hclaimable.1.1.1.1
  | skip => cases hlive
  | completePosted => cases hlive
  | completeFailed h => exact hrunning h
  | release h => exact hrunning h

theorem isLiveJob_of_writes {β : Type} {q : Review.Stmt β} {t : Review.Store}
    {r r' : Review.ReviewJobRow} (h : Review.Writes q t r r') (hlive : isLiveJob pr r') :
    isLiveJob pr r ∧ r.id = r'.id := by
  have hsame := h.identity_eq
  unfold Review.identity at hsame
  simp only [Prod.mk.injEq] at hsame
  obtain ⟨hid, hws, hrepo, hn, _⟩ := hsame
  have hof := live_of_writes h (isLive_of_isLiveJob pr r' hlive)
  unfold isLiveJob at hlive ⊢
  unfold isLive at hof
  rw [← hws, ← hrepo, ← hn, hof, Bool.and_true]
  rw [Bool.and_eq_true] at hlive
  exact ⟨hlive.1, hid.symm⟩

/-- A job that is enqueued for another pull request. -/
theorem not_isLiveJob_newRow {input : Review.ReviewJobInput} {now : Int}
    (hno : enqueuesFor pr (.enqueue input) = false) :
    ¬ isLiveJob pr (Review.newRow host.review input now) := by
  intro hlive
  unfold isLiveJob Review.newRow at hlive
  rw [Bool.and_eq_true] at hlive
  have hyes : enqueuesFor pr (.enqueue input) = true := hlive.1
  rw [hno] at hyes
  cases hyes

/-- The live jobs after an enqueue were there before, or one of them is the new one. -/
theorem live_enqueue (input : Review.ReviewJobInput) (t : Review.Store) (j : Review.ReviewJobRow)
    (hj : j ∈ ((Review.Stmt.enqueue input).exec host.review t).2.jobs.rows) (hlive : isLive j) :
    j ∈ t.jobs.rows ∨ j = Review.newRow host.review input t.now := by
  simp only [Review.Stmt.exec] at hj
  split at hj
  · exact Or.inl hj
  · next jobs hinsert =>
    obtain ⟨r, hr, rfl⟩ := List.mem_map.mp hj
    by_cases hsuperseded : Review.supersedes input r
    · rw [if_pos hsuperseded] at hlive
      cases hlive
    · rw [if_neg hsuperseded]
      have hr' : r ∈ jobs.rows := hr
      rw [Table.rows_insert _ _ _ hinsert, List.mem_append, List.mem_singleton] at hr'
      exact hr'

def isEnqueue : ∀ {β : Type}, Review.Stmt β → Bool
  | _, .enqueue _ => true
  | _, _ => false

theorem length_exec (host : Host) {β : Type} (q : Review.Stmt β) (t : Review.Store)
    (hq : isEnqueue q = false) :
    (q.exec host.review t).2.jobs.rows.length = t.jobs.rows.length := by
  cases q with
  | enqueue input => cases hq
  | countToday workspaceId => rfl
  | claimOldest workerId scan =>
    simp only [Review.Stmt.exec]
    split
    · rfl
    · exact List.length_map _
  | _ => exact List.length_map _

/-- **The statements of the review queue** keep the invariant, but for an enqueue. -/
theorem currentWork_review {β : Type} (q : Review.Stmt β) (hno : enqueuesFor pr q = false)
    (hs : CurrentWork pr host s) :
    CurrentWork pr host { s with jobs := (q.exec host.review s.review).2.jobs } := by
  refine ⟨hs.ids, hs.one, ?_, hs.boots⟩
  intro j hj hlive
  have hj' : j ∈ (q.exec host.review s.review).2.jobs.rows := hj
  have hplain : isEnqueue q = false → s.Supports pr (JobOf j) := by
    intro hq
    rcases Review.exec_row host.review q s.review with ⟨image, hrows, hwrites⟩ | ⟨input, hrows, _⟩
    · rw [hrows, List.mem_map] at hj'
      obtain ⟨r, hr, rfl⟩ := hj'
      rcases hwrites r hr with hsame | hwrites
      · rw [hsame] at hlive ⊢
        exact hs.jobs r hr hlive
      · obtain ⟨hlive', hid⟩ := isLiveJob_of_writes hwrites hlive
        have hsupports := hs.jobs r hr hlive'
        unfold JobOf at hsupports ⊢
        rw [← hid]
        exact hsupports
    · have hlength := length_exec host q s.review hq
      rw [hrows, Review.enqueued, List.length_append, List.length_map, List.length_singleton]
        at hlength
      omega
  cases q with
  | enqueue input =>
    rcases live_enqueue input s.review j hj' (isLive_of_isLiveJob pr j hlive) with hold | rfl
    · exact hs.jobs j hold hlive
    · exact absurd hlive (not_isLiveJob_newRow hno)
  | _ => exact hplain rfl

/-! ## Runs -/

theorem currentWork_elsewhere {s' : Store} (hs : CurrentWork pr host s)
    (h : Elsewhere pr s s') : CurrentWork pr host s' := by
  have hkept : ∀ {P : Option Text → Option Text → Prop}, s.Supports pr P → s'.Supports pr P := by
    rintro P ⟨r, hr, hattached, hrest⟩
    exact ⟨r, (h.records r hattached).mpr hr, hattached, hrest⟩
  refine ⟨h.ids, ?_, ?_, ?_⟩
  · intro r hr r' hr' hattached hattached'
    exact hs.one r ((h.records r hattached).mp hr) r' ((h.records r' hattached').mp hr') hattached
      hattached'
  · intro j hj hlive
    obtain ⟨j', hj', hlive', hid⟩ := h.jobs j hj hlive
    have hsupports := hkept (hs.jobs j' hj' hlive')
    unfold JobOf at hsupports ⊢
    rw [← hid]
    exact hsupports
  · intro b hb hlive
    obtain ⟨b', hb', hlive', hid, hsha⟩ := h.boots b hb hlive
    have hsupports := hkept (hs.boots b' hb' hlive')
    unfold BootOf at hsupports ⊢
    rw [← hid, ← hsha]
    exact hsupports

/-- The record of the pull request. -/
theorem recordOfPr_of_supports (hs : CurrentWork pr host s)
    {P : Option Text → Option Text → Prop} (h : s.Supports pr P) :
    ∃ record, s.recordOfPr pr.workspaceId pr.repo pr.prNumber = some record ∧
      record.currentPrHeadAuthoritative ∧
      P record.currentPrHeadSha record.currentPrHeadCycleId := by
  obtain ⟨r, hr, hattached, hrest⟩ := h
  cases hof : s.recordOfPr pr.workspaceId pr.repo pr.prNumber with
  | none => exact absurd hattached (List.find?_eq_none.mp hof r hr)
  | some record =>
    have hattached' : isAttached pr record := List.find?_some hof
    obtain rfl := hs.one r hr record (List.mem_of_find?_eq_some hof) hattached hattached'
    exact ⟨r, rfl, hrest⟩

end

/-- **Live work.** From a store without work for the pull request, at every moment of every run in
which only the head operations create its jobs: a job that waits or runs is that of the current
cycle, and so is a boot that has not ended; and events for a job are appended only while its cycle
is the current one. -/
theorem only_current_cycle_works (host : Host) (pr : PullRequestInput) (s : Store)
    (hids : (s.records.map ChangeRecordRow.id).Nodup)
    (hone : ∀ r ∈ s.records, ∀ r' ∈ s.records, isAttached pr r → isAttached pr r' → r = r')
    (hjobs : ∀ j ∈ s.jobs.rows, ¬ isLiveJob pr j) (hboots : ∀ b ∈ s.boots.rows, ¬ isLiveBoot pr b)
    (c : Config Store WorkStmt)
    (h : (workSystem pr host).Reaches (OnlyHeadJobs pr) ⟨s, []⟩ c) :
    (∀ j ∈ c.store.jobs.rows, isLiveJob pr j →
      ∃ record, c.store.recordOfPr pr.workspaceId pr.repo pr.prNumber = some record ∧
        record.currentPrHeadAuthoritative ∧ record.currentPrHeadCycleId = some j.id) ∧
    (∀ b ∈ c.store.boots.rows, isLiveBoot pr b →
      ∃ record, c.store.recordOfPr pr.workspaceId pr.repo pr.prNumber = some record ∧
        record.currentPrHeadAuthoritative ∧ record.currentPrHeadSha = some b.headSha ∧
        ∃ cycleId, record.currentPrHeadCycleId = some cycleId ∧
          b.id = Preview.previewBootId host.boots pr.workspaceId pr.repo pr.prNumber b.headSha
            cycleId) ∧
    ∀ (input : CurrentJobInput) (events : List AppendChangeRecordEventInput)
      (results : List AppendChangeRecordEventResult) (s' : Store),
      appendCurrentReviewJobEventsAtomically host input events c.store = .ok (results, s') →
        s'.records = c.store.records ∧ ∃ record ∈ c.store.records,
          isAttached input.toPullRequestInput record ∧ record.currentPrHeadAuthoritative ∧
          record.currentPrHeadSha = some input.headSha ∧
          record.currentPrHeadCycleId = some input.jobId := by
  have hc : CurrentWork pr host c.store := by
    refine (workSystem pr host).reaches_store (I := CurrentWork pr host) ?_ ?_ h
      ⟨hids, hone, fun j hj hlive => absurd hlive (hjobs j hj),
        fun b hb hlive => absurd hlive (hboots b hb)⟩
    · intro β q others t ht hq
      cases q with
      | record q => exact currentWork_record q ht
      | review q => exact currentWork_review q hq ht
    · intro t t' ht he
      exact currentWork_elsewhere ht he
  refine ⟨?_, ?_, ?_⟩
  · intro j hj hlive
    exact recordOfPr_of_supports hc (hc.jobs j hj hlive)
  · intro b hb hlive
    exact recordOfPr_of_supports hc (hc.boots b hb hlive)
  · intro input events results s' happend
    obtain ⟨⟨r, hr, hcurrent⟩, hbeside⟩ := appendCurrent_spec happend
    exact ⟨hbeside.records, r, hr, isCurrentOf_spec hcurrent⟩

/-! ## A run -/

/-- Tests `OnlyHeadJobs`. -/
def enqueuesNothing ⦃β : Type⦄ (_ : List (Prog WorkStmt Unit)) (_ : Store) : WorkStmt β → Bool
  | .record _ => true
  | .review q => !isEnqueue q

theorem onlyHeadJobs_of_test (pr : PullRequestInput) ⦃β : Type⦄
    (others : List (Prog WorkStmt Unit)) (s : Store) (q : WorkStmt β)
    (h : enqueuesNothing others s q) : OnlyHeadJobs pr others s q := by
  cases q with
  | record q => exact trivial
  | review q =>
    cases q with
    | enqueue input => cases h
    | _ => exact rfl

/-- The pull request is opened, and a worker claims its job. -/
def openedAndClaimed : List (System.Choice Store WorkStmt) :=
  [.start (workProgram sampleHost (.head (.advance sampleOpened))), .step 0, .step 0,
    .start (workProgram sampleHost (.review (.claim ⟨"worker".toList, 10⟩ [{}]))), .step 0,
    .step 0, .step 0, .step 0]

/-- The job that runs is that of the current cycle. -/
theorem only_current_cycle_works_claimed : ∃ c : Config Store WorkStmt,
    ∃ j ∈ c.store.jobs.rows, j.state = .running ∧
      ∃ record, c.store.recordOfPr "w".toList "o/r".toList 7 = some record ∧
        record.currentPrHeadAuthoritative ∧ record.currentPrHeadCycleId = some j.id := by
  let S := workSystem samplePr sampleHost
  have hvalid : ∀ choice ∈ openedAndClaimed, choice.Valid S := by
    unfold openedAndClaimed
    simp only [List.forall_mem_cons]
    exact ⟨⟨_, rfl⟩, trivial, trivial, ⟨_, rfl⟩, trivial, trivial, trivial, trivial,
      List.forall_mem_nil _⟩
  have hreaches := S.schedule_reaches openedAndClaimed ⟨sampleStore, []⟩ hvalid
    (S.meets_of_check enqueuesNothing (onlyHeadJobs_of_test samplePr) _ _ (by decide +kernel))
  have hworks := (only_current_cycle_works sampleHost samplePr sampleStore (by decide)
    (by decide) (List.forall_mem_nil _) (List.forall_mem_nil _) _ hreaches).1
  have hrunning : ∃ j ∈ (S.schedule openedAndClaimed ⟨sampleStore, []⟩).store.jobs.rows,
      j.state = .running ∧ isLiveJob samplePr j := by decide +kernel
  obtain ⟨j, hj, hstate, hlive⟩ := hrunning
  exact ⟨_, j, hj, hstate, hworks j hj hlive⟩

end Agentrail.Records
