import Agentrail.Lib.Runs
import Agentrail.Records.ChangeRecords

/-!
# One record for one change

A record is found by its anchors, the issue and the pull request.  `findOrCreate_cases` says once
what a call of `findOrCreateChangeRecord` does: it merges two records, enriches one or inserts
one.  No two records share an anchor (`findOrCreate_unique`).

A record keeps the first issue and the first pull request that it sees.  As long as no call names
other ones (`Agrees`) every anchor leads to a record that has its whole history
(`records_converge`); a second pull request of an issue is lost (`second_pull_request_lost`).
-/

namespace Agentrail.Records

open Js Runs

/-! ## Anchors -/

inductive Anchor where
  | issue (workspaceId repo : Text) (issueNumber : Nat)
  | pr (workspaceId repo : Text) (prNumber : Nat)
  deriving DecidableEq, Repr

def Anchor.isOf : Anchor → ChangeRecordRow → Bool
  | .issue workspaceId repo issueNumber => isIssueOf workspaceId repo issueNumber
  | .pr workspaceId repo prNumber => isPrOf workspaceId repo prNumber

def Store.find (s : Store) (a : Anchor) : Option ChangeRecordRow := s.records.find? a.isOf

def anchorsOf (r : ChangeRecordRow) : List Anchor :=
  (r.issueNumber.map (Anchor.issue r.workspaceId r.repo)).toList ++
    (r.prNumber.map (Anchor.pr r.workspaceId r.repo)).toList

theorem isOf_issue_iff (workspaceId repo : Text) (n : Nat) (r : ChangeRecordRow) :
    (Anchor.issue workspaceId repo n).isOf r ↔
      r.workspaceId = workspaceId ∧ r.repo = repo ∧ r.issueNumber = some n := by
  unfold Anchor.isOf isIssueOf
  simp only [Bool.and_eq_true, decide_eq_true_eq, and_assoc]

theorem isOf_pr_iff (workspaceId repo : Text) (n : Nat) (r : ChangeRecordRow) :
    (Anchor.pr workspaceId repo n).isOf r ↔
      r.workspaceId = workspaceId ∧ r.repo = repo ∧ r.prNumber = some n := by
  unfold Anchor.isOf isPrOf
  simp only [Bool.and_eq_true, decide_eq_true_eq, and_assoc]

theorem mem_anchorsOf (a : Anchor) (r : ChangeRecordRow) : a ∈ anchorsOf r ↔ a.isOf r := by
  unfold anchorsOf
  rw [List.mem_append, Option.mem_toList, Option.mem_toList, Option.map_eq_some_iff,
    Option.map_eq_some_iff]
  cases a with
  | issue workspaceId repo n =>
    rw [isOf_issue_iff]
    constructor
    · rintro (⟨m, hm, heq⟩ | ⟨m, _, heq⟩) <;> cases heq
      exact ⟨rfl, rfl, hm⟩
    · rintro ⟨rfl, rfl, hn⟩
      exact Or.inl ⟨n, hn, rfl⟩
  | pr workspaceId repo n =>
    rw [isOf_pr_iff]
    constructor
    · rintro (⟨m, _, heq⟩ | ⟨m, hm, heq⟩) <;> cases heq
      exact ⟨rfl, rfl, hm⟩
    · rintro ⟨rfl, rfl, hn⟩
      exact Or.inr ⟨n, hn, rfl⟩

/-- The unique indexes of the table. -/
structure Unique (records : List ChangeRecordRow) : Prop where
  ids : (records.map ChangeRecordRow.id).Nodup
  anchors : ∀ r ∈ records, ∀ r' ∈ records, ∀ a : Anchor, a.isOf r → a.isOf r' → r = r'

section
variable {records : List ChangeRecordRow} (h : Unique records)
include h

theorem Unique.eq_of_id (r r' : ChangeRecordRow) (hr : r ∈ records) (hr' : r' ∈ records) :
    r.id = r'.id ↔ r = r' :=
  ⟨List.inj_on_of_nodup_map h.ids hr hr', congrArg ChangeRecordRow.id⟩

theorem Unique.find_iff (a : Anchor) (r : ChangeRecordRow) :
    records.find? a.isOf = some r ↔ r ∈ records ∧ a.isOf r := by
  constructor
  · intro hfind
    exact ⟨List.mem_of_find?_eq_some hfind, List.find?_some hfind⟩
  · rintro ⟨hr, ha⟩
    obtain ⟨r', hfind⟩ := Option.isSome_iff_exists.mp (List.find?_isSome.mpr ⟨r, hr, ha⟩)
    rw [hfind, h.anchors r' (List.mem_of_find?_eq_some hfind) r hr a (List.find?_some hfind) ha]

theorem Unique.filter (p : ChangeRecordRow → Bool) : Unique (records.filter p) :=
  ⟨h.ids.sublist (List.filter_sublist.map _), fun r hr r' hr' =>
    h.anchors r (List.mem_of_mem_filter hr) r' (List.mem_of_mem_filter hr')⟩

/-- The rows after an update of one. -/
theorem Unique.mem_update (f : ChangeRecordRow → ChangeRecordRow) (e : ChangeRecordRow)
    (he : e ∈ records) (r' : ChangeRecordRow) :
    (r' ∈ records.map fun r => if r.id = e.id then f r else r) ↔
      r' = f e ∨ r' ∈ records ∧ r' ≠ e :=
  Table.mem_map_update_one records _ f e he (fun r hr => h.eq_of_id r e hr he) r'

/-- An update that takes no anchor of another row. -/
theorem Unique.update (f : ChangeRecordRow → ChangeRecordRow) (hid : ∀ r, (f r).id = r.id)
    (e : ChangeRecordRow) (he : e ∈ records)
    (hfree : ∀ a : Anchor, a.isOf (f e) → ∀ r ∈ records, a.isOf r → r = e) :
    Unique (records.map fun r => if r.id = e.id then f r else r) := by
  constructor
  · have hsame : (records.map fun r => if r.id = e.id then f r else r).map ChangeRecordRow.id =
        records.map ChangeRecordRow.id := by
      rw [List.map_map]
      refine List.map_congr_left fun r _ => ?_
      show (if r.id = e.id then f r else r).id = r.id
      split
      · exact hid r
      · rfl
    rw [hsame]
    exact h.ids
  · intro r hr r' hr' a ha ha'
    rcases (h.mem_update f e he r).mp hr with rfl | ⟨hr, hne⟩ <;>
      rcases (h.mem_update f e he r').mp hr' with rfl | ⟨hr', hne'⟩
    · rfl
    · exact absurd (hfree a ha r' hr' ha') hne'
    · exact absurd (hfree a ha' r hr ha) hne
    · exact h.anchors r hr r' hr' a ha ha'

theorem Unique.insert (row : ChangeRecordRow) (hid : ∀ r ∈ records, r.id ≠ row.id)
    (hfree : ∀ a : Anchor, a.isOf row → ∀ r ∈ records, ¬ a.isOf r) :
    Unique (records ++ [row]) := by
  constructor
  · rw [List.map_append, List.map_singleton]
    refine List.nodup_append_comm.mp (List.nodup_cons.mpr ⟨?_, h.ids⟩)
    intro hmem
    obtain ⟨r, hr, heq⟩ := List.mem_map.mp hmem
    exact hid r hr heq
  · intro r hr r' hr' a ha ha'
    rw [List.mem_append, List.mem_singleton] at hr hr'
    rcases hr with hr | rfl <;> rcases hr' with hr' | rfl
    · exact h.anchors r hr r' hr' a ha ha'
    · exact absurd ha (hfree a ha' r hr)
    · exact absurd ha' (hfree a ha r' hr')
    · rfl

end

/-! ## What a call does -/

section
variable (host : Host) (input : FindOrCreateChangeRecordInput) (s : Store)

def issueRecord : Option ChangeRecordRow :=
  input.issueNumber.bind (s.recordOfIssue input.workspaceId input.repo)

def prRecord : Option ChangeRecordRow :=
  input.prNumber.bind (s.recordOfPr input.workspaceId input.repo)

/-- A call merges the record of the pull request into that of the issue, enriches the one record
that is found, or inserts one. -/
inductive Finds : ChangeRecordRow → Store → Prop
  | merged (issue pr : ChangeRecordRow) : issueRecord input s = some issue →
      prRecord input s = some pr → issue.id ≠ pr.id →
      Finds (mergedRow input pr issue) (s.mergeRecords input issue pr)
  | both (e pr : ChangeRecordRow) : issueRecord input s = some e → prRecord input s = some pr →
      e.id = pr.id → Finds (enrichedRow input e) (s.updateRecord e.id (enrichedRow input))
  | issue (e : ChangeRecordRow) : issueRecord input s = some e → prRecord input s = none →
      Finds (enrichedRow input e) (s.updateRecord e.id (enrichedRow input))
  | pr (e : ChangeRecordRow) : issueRecord input s = none → prRecord input s = some e →
      Finds (enrichedRow input e) (s.updateRecord e.id (enrichedRow input))
  | created (id : Text) : issueRecord input s = none → prRecord input s = none →
      (∀ r ∈ s.records, r.id ≠ id) →
      Finds (createdRow id input) { s with records := s.records ++ [createdRow id input] }

theorem findOrCreate_cases (r : ChangeRecordRow) (s' : Store)
    (h : findOrCreateChangeRecord host input s = .ok (r, s')) : Finds input s r s' := by
  unfold findOrCreateChangeRecord at h
  simp only [bind, Except.bind] at h
  split at h
  · cases h
  next _ _ =>
  cases hid : changeRecordId host input.toChangeRecordAnchor with
  | error message =>
    rw [hid] at h
    cases h
  | ok id =>
    rw [hid] at h
    dsimp only at h
    split at h
    · next issue pr hissue hpr =>
      split at h <;> cases h
      · next hne => exact .merged issue pr hissue hpr hne
      · next heq => exact .both issue pr hissue hpr (not_not.mp heq)
    · next e hissue hpr =>
      cases h
      exact .issue e hissue hpr
    · next e hissue hpr =>
      cases h
      exact .pr e hissue hpr
    · next hissue hpr =>
      split at h <;> cases h
      next hfresh =>
      refine .created id hissue hpr ?_
      intro r hr heq
      exact hfresh (List.any_eq_true.mpr ⟨r, hr, decide_eq_true heq⟩)

variable {host input s}

theorem issueRecord_some {e : ChangeRecordRow} (h : issueRecord input s = some e) :
    e ∈ s.records ∧ ∃ n, input.issueNumber = some n ∧
      (Anchor.issue input.workspaceId input.repo n).isOf e := by
  obtain ⟨n, hn, hfind⟩ := Option.bind_eq_some_iff.mp h
  exact ⟨List.mem_of_find?_eq_some hfind, n, hn, List.find?_some hfind⟩

theorem prRecord_some {e : ChangeRecordRow} (h : prRecord input s = some e) :
    e ∈ s.records ∧ ∃ n, input.prNumber = some n ∧
      (Anchor.pr input.workspaceId input.repo n).isOf e := by
  obtain ⟨n, hn, hfind⟩ := Option.bind_eq_some_iff.mp h
  exact ⟨List.mem_of_find?_eq_some hfind, n, hn, List.find?_some hfind⟩

theorem issueRecord_none (h : issueRecord input s = none) (n : Nat)
    (hn : input.issueNumber = some n) (r : ChangeRecordRow) (hr : r ∈ s.records) :
    ¬ (Anchor.issue input.workspaceId input.repo n).isOf r := by
  unfold issueRecord at h
  rw [hn] at h
  exact List.find?_eq_none.mp h r hr

theorem prRecord_none (h : prRecord input s = none) (n : Nat) (hn : input.prNumber = some n)
    (r : ChangeRecordRow) (hr : r ∈ s.records) :
    ¬ (Anchor.pr input.workspaceId input.repo n).isOf r := by
  unfold prRecord at h
  rw [hn] at h
  exact List.find?_eq_none.mp h r hr

/-- What the merged row is found by. -/
theorem isOf_merged (pr e : ChangeRecordRow) (a : Anchor) :
    a.isOf (mergedRow input pr e) ↔ a.isOf e ∨
      e.prNumber = none ∧ ∃ n, input.prNumber = some n ∧ a = .pr e.workspaceId e.repo n := by
  cases a with
  | issue workspaceId repo n =>
    rw [isOf_issue_iff, isOf_issue_iff]
    refine ⟨Or.inl, ?_⟩
    rintro (h | ⟨_, _, _, heq⟩)
    · exact h
    · cases heq
  | pr workspaceId repo n =>
    rw [isOf_pr_iff, isOf_pr_iff]
    show e.workspaceId = workspaceId ∧ e.repo = repo ∧ (e.prNumber <|> input.prNumber) = some n ↔ _
    cases e.prNumber with
    | none =>
      constructor
      · rintro ⟨rfl, rfl, hn⟩
        exact Or.inr ⟨rfl, n, hn, rfl⟩
      · rintro (⟨_, _, h⟩ | ⟨_, m, hm, heq⟩)
        · cases h
        · cases heq
          exact ⟨rfl, rfl, hm⟩
    | some m =>
      refine ⟨Or.inl, ?_⟩
      rintro (h | ⟨h, _⟩)
      · exact h
      · cases h

/-- What an enriched row is found by. -/
theorem isOf_enriched (e : ChangeRecordRow) (a : Anchor) :
    a.isOf (enrichedRow input e) ↔ a.isOf e ∨
      (e.issueNumber = none ∧
        ∃ n, input.issueNumber = some n ∧ a = .issue e.workspaceId e.repo n) ∨
      (e.prNumber = none ∧ ∃ n, input.prNumber = some n ∧ a = .pr e.workspaceId e.repo n) := by
  cases a with
  | issue workspaceId repo n =>
    rw [isOf_issue_iff, isOf_issue_iff]
    show e.workspaceId = workspaceId ∧ e.repo = repo ∧
      (e.issueNumber <|> input.issueNumber) = some n ↔ _
    cases e.issueNumber with
    | none =>
      constructor
      · rintro ⟨rfl, rfl, hn⟩
        exact Or.inr (Or.inl ⟨rfl, n, hn, rfl⟩)
      · rintro (⟨_, _, h⟩ | ⟨_, m, hm, heq⟩ | ⟨_, _, _, heq⟩)
        · cases h
        · cases heq
          exact ⟨rfl, rfl, hm⟩
        · cases heq
    | some m =>
      refine ⟨Or.inl, ?_⟩
      rintro (h | ⟨h, _⟩ | ⟨_, _, _, heq⟩)
      · exact h
      · cases h
      · cases heq
  | pr workspaceId repo n =>
    rw [isOf_pr_iff, isOf_pr_iff]
    show e.workspaceId = workspaceId ∧ e.repo = repo ∧ (e.prNumber <|> input.prNumber) = some n ↔ _
    cases e.prNumber with
    | none =>
      constructor
      · rintro ⟨rfl, rfl, hn⟩
        exact Or.inr (Or.inr ⟨rfl, n, hn, rfl⟩)
      · rintro (⟨_, _, h⟩ | ⟨_, _, _, heq⟩ | ⟨_, m, hm, heq⟩)
        · cases h
        · cases heq
        · cases heq
          exact ⟨rfl, rfl, hm⟩
    | some m =>
      refine ⟨Or.inl, ?_⟩
      rintro (h | ⟨_, _, _, heq⟩ | ⟨h, _⟩)
      · exact h
      · cases heq
      · cases h

/-- **One record for each anchor**, whatever is called. -/
theorem findOrCreate_unique (h : Unique s.records) (r : ChangeRecordRow) (s' : Store)
    (hf : Finds input s r s') : Unique s'.records := by
  cases hf with
  | merged issue pr hissue hpr hne =>
    obtain ⟨hi, m, hm, hmi⟩ := issueRecord_some hissue
    obtain ⟨hp, n, hn, hnp⟩ := prRecord_some hpr
    refine (h.filter fun r => r.id ≠ pr.id).update (mergedRow input pr) (fun _ => rfl) issue
      (List.mem_filter.mpr ⟨hi, decide_eq_true hne⟩) ?_
    intro a ha r hr har
    rw [List.mem_filter, decide_eq_true_iff] at hr
    rcases (isOf_merged pr issue a).mp ha with ha | ⟨_, k, hk, rfl⟩
    · exact h.anchors r hr.1 issue hi a har ha
    · -- the number is that of the deleted record
      obtain rfl := Option.some.inj (hk.symm.trans hn)
      rw [isOf_issue_iff] at hmi
      rw [hmi.1, hmi.2.1] at har
      exact absurd (congrArg ChangeRecordRow.id (h.anchors r hr.1 pr hp _ har hnp)) hr.2
  | both e pr hissue hpr heq =>
    obtain ⟨hi, m, hm, hmi⟩ := issueRecord_some hissue
    obtain ⟨hp, n, hn, hnp⟩ := prRecord_some hpr
    obtain rfl := (h.eq_of_id e pr hi hp).mp heq
    refine h.update (enrichedRow input) (fun _ => rfl) e hi ?_
    intro a ha r hr har
    rw [isOf_issue_iff] at hmi
    rw [isOf_pr_iff] at hnp
    rcases (isOf_enriched e a).mp ha with ha | ⟨hnone, _⟩ | ⟨hnone, _⟩
    · exact h.anchors r hr e hi a har ha
    · rw [hmi.2.2] at hnone
      cases hnone
    · rw [hnp.2.2] at hnone
      cases hnone
  | issue e hissue hpr =>
    obtain ⟨hi, m, hm, hmi⟩ := issueRecord_some hissue
    rw [isOf_issue_iff] at hmi
    refine h.update (enrichedRow input) (fun _ => rfl) e hi ?_
    intro a ha r hr har
    rcases (isOf_enriched e a).mp ha with ha | ⟨hnone, _⟩ | ⟨_, n, hn, rfl⟩
    · exact h.anchors r hr e hi a har ha
    · rw [hmi.2.2] at hnone
      cases hnone
    · rw [hmi.1, hmi.2.1] at har
      exact absurd har (prRecord_none hpr n hn r hr)
  | pr e hissue hpr =>
    obtain ⟨hp, n, hn, hnp⟩ := prRecord_some hpr
    rw [isOf_pr_iff] at hnp
    refine h.update (enrichedRow input) (fun _ => rfl) e hp ?_
    intro a ha r hr har
    rcases (isOf_enriched e a).mp ha with ha | ⟨_, m, hm, rfl⟩ | ⟨hnone, _⟩
    · exact h.anchors r hr e hp a har ha
    · rw [hnp.1, hnp.2.1] at har
      exact absurd har (issueRecord_none hissue m hm r hr)
    · rw [hnp.2.2] at hnone
      cases hnone
  | created id hissue hpr hfresh =>
    refine h.insert (createdRow id input) hfresh ?_
    intro a ha r hr
    cases a with
    | issue workspaceId repo n =>
      rw [isOf_issue_iff] at ha
      obtain ⟨rfl, rfl, hn⟩ := ha
      exact issueRecord_none hissue n hn r hr
    | pr workspaceId repo n =>
      rw [isOf_pr_iff] at ha
      obtain ⟨rfl, rfl, hn⟩ := ha
      exact prRecord_none hpr n hn r hr

end

/-! ## Timelines -/

/-- Every anchor leads on to a record, and its timeline has grown. -/
def Carries (s s' : Store) : Prop :=
  ∀ a r, s.find a = some r → ∃ r', s'.find a = some r' ∧
    ∀ key, s.HasEvent r.id key → s'.HasEvent r'.id key

/-- The call names no other pull request than the record of the issue has, and no other issue than
the record of the pull request has. -/
def Agrees (s : Store) (input : FindOrCreateChangeRecordInput) : Prop :=
  ∀ m ∈ input.issueNumber, ∀ n ∈ input.prNumber,
    (∀ e ∈ issueRecord input s, e.prNumber = none ∨ e.prNumber = some n) ∧
      ∀ e ∈ prRecord input s, e.issueNumber = none ∨ e.issueNumber = some m

instance decidableAgrees (s : Store) (input : FindOrCreateChangeRecordInput) :
    Decidable (Agrees s input) :=
  inferInstanceAs (Decidable (∀ m ∈ input.issueNumber, ∀ n ∈ input.prNumber,
    (∀ e ∈ issueRecord input s, e.prNumber = none ∨ e.prNumber = some n) ∧
      ∀ e ∈ prRecord input s, e.issueNumber = none ∨ e.issueNumber = some m))

/-- The issue and the pull request of the call lead to one record. -/
def Joined (s : Store) (input : FindOrCreateChangeRecordInput) : Prop :=
  ∀ m n, input.issueNumber = some m → input.prNumber = some n →
    ∃ r, s.recordOfIssue input.workspaceId input.repo m = some r ∧
      s.recordOfPr input.workspaceId input.repo n = some r

/-- A merge leaves every event, that of the deleted record with the other one. -/
theorem merge_hasEvent (input : FindOrCreateChangeRecordInput) (s : Store)
    (issue pr : ChangeRecordRow) (hne : issue.id ≠ pr.id) (id key : Text)
    (h : s.HasEvent id key) :
    (s.mergeRecords input issue pr).HasEvent (if id = pr.id then issue.id else id) key := by
  obtain ⟨e, he, rfl, rfl⟩ := h
  -- an event that is not of the deleted record stays
  have hstays : ∀ k ∈ s.events, k.recordId ≠ pr.id →
      k ∈ (s.mergeRecords input issue pr).events := by
    intro k hk hother
    refine List.mem_filter.mpr ⟨List.mem_map.mpr ⟨k, List.mem_filter.mpr ⟨hk, ?_⟩, ?_⟩, ?_⟩
    · simp [hother]
    · rw [if_neg hother]
    · exact decide_eq_true hother
  by_cases hold : e.recordId = pr.id
  · rw [if_pos hold]
    by_cases hdup : ∃ k ∈ s.events, k.recordId = issue.id ∧ k.eventKey = e.eventKey
    · obtain ⟨k, hk, hkid, hkkey⟩ := hdup
      exact ⟨k, hstays k hk (hkid ▸ hne), hkid, hkkey⟩
    · refine ⟨{ e with recordId := issue.id }, ?_, rfl, rfl⟩
      refine List.mem_filter.mpr ⟨List.mem_map.mpr ⟨e, List.mem_filter.mpr ⟨he, ?_⟩, ?_⟩, ?_⟩
      · rw [Bool.not_eq_true', Bool.and_eq_false_iff, List.any_eq_false]
        refine Or.inr fun k hk hsame => hdup ⟨k, hk, ?_⟩
        rw [Bool.and_eq_true, decide_eq_true_iff, decide_eq_true_iff] at hsame
        exact hsame
      · rw [if_pos hold]
      · exact decide_eq_true hne
  · rw [if_neg hold]
    exact ⟨e, hstays e he hold, rfl, rfl⟩

section
variable {input : FindOrCreateChangeRecordInput} {s s' : Store} {r : ChangeRecordRow}

/-- An update that keeps the anchors of its row. -/
theorem carries_update (h : Unique s.records) (f : ChangeRecordRow → ChangeRecordRow)
    (hid : ∀ r, (f r).id = r.id) (e : ChangeRecordRow) (he : e ∈ s.records)
    (hkeep : ∀ a : Anchor, a.isOf e → a.isOf (f e))
    (h' : Unique (s.updateRecord e.id f).records) : Carries s (s.updateRecord e.id f) := by
  intro a r hr
  obtain ⟨hr, ha⟩ := (h.find_iff a r).mp hr
  by_cases heq : r = e
  · subst heq
    refine ⟨f r, (h'.find_iff a _).mpr ⟨?_, hkeep a ha⟩, ?_⟩
    · exact (h.mem_update f r he _).mpr (Or.inl rfl)
    · rw [hid]
      exact fun key hkey => hkey
  · refine ⟨r, (h'.find_iff a r).mpr ⟨?_, ha⟩, fun key hkey => hkey⟩
    exact (h.mem_update f e he r).mpr (Or.inr ⟨hr, heq⟩)

/-- The rows after a merge. -/
theorem mem_mergeRecords (h : Unique s.records) (issue pr : ChangeRecordRow)
    (hi : issue ∈ s.records) (hne : issue.id ≠ pr.id) (r : ChangeRecordRow) :
    r ∈ (s.mergeRecords input issue pr).records ↔
      r = mergedRow input pr issue ∨ (r ∈ s.records ∧ r.id ≠ pr.id) ∧ r ≠ issue := by
  have hfilter := (h.filter fun r => r.id ≠ pr.id).mem_update (mergedRow input pr) issue
    (List.mem_filter.mpr ⟨hi, decide_eq_true hne⟩) r
  rwa [List.mem_filter, decide_eq_true_iff] at hfilter

/-- Two records that a call merges have one number each. -/
theorem merge_numbers (h : Unique s.records) (issue pr : ChangeRecordRow)
    (hissue : issueRecord input s = some issue) (hpr : prRecord input s = some pr)
    (hne : issue.id ≠ pr.id) (hagrees : Agrees s input) :
    issue.prNumber = none ∧ pr.issueNumber = none := by
  obtain ⟨hi, m, hm, hmi⟩ := issueRecord_some hissue
  obtain ⟨hp, n, hn, hnp⟩ := prRecord_some hpr
  obtain ⟨hfree, hfree'⟩ := hagrees m hm n hn
  have hdistinct : issue ≠ pr := fun heq => hne (congrArg ChangeRecordRow.id heq)
  have hmi' := (isOf_issue_iff _ _ _ _).mp hmi
  have hnp' := (isOf_pr_iff _ _ _ _).mp hnp
  constructor
  · refine (hfree issue hissue).resolve_right fun heq => hdistinct ?_
    exact h.anchors issue hi pr hp _ ((isOf_pr_iff _ _ _ _).mpr ⟨hmi'.1, hmi'.2.1, heq⟩) hnp
  · refine (hfree' pr hpr).resolve_right fun heq => hdistinct ?_
    exact h.anchors issue hi pr hp _ hmi ((isOf_issue_iff _ _ _ _).mpr ⟨hnp'.1, hnp'.2.1, heq⟩)

theorem carries_merge (h : Unique s.records) (issue pr : ChangeRecordRow)
    (hissue : issueRecord input s = some issue) (hpr : prRecord input s = some pr)
    (hne : issue.id ≠ pr.id) (hagrees : Agrees s input)
    (h' : Unique (s.mergeRecords input issue pr).records) :
    Carries s (s.mergeRecords input issue pr) := by
  obtain ⟨hi, m, hm, hmi⟩ := issueRecord_some hissue
  obtain ⟨hp, n, hn, hnp⟩ := prRecord_some hpr
  obtain ⟨hnone, hnone'⟩ := merge_numbers h issue pr hissue hpr hne hagrees
  have hmi' := (isOf_issue_iff _ _ _ _).mp hmi
  have hnp' := (isOf_pr_iff _ _ _ _).mp hnp
  have hmem : ∀ r, r ∈ (s.mergeRecords input issue pr).records ↔ _ :=
    mem_mergeRecords h issue pr hi hne
  intro a r hr
  obtain ⟨hr, ha⟩ := (h.find_iff a r).mp hr
  by_cases heq : r = pr
  · subst heq
    refine ⟨mergedRow input r issue, (h'.find_iff a _).mpr ⟨(hmem _).mpr (Or.inl rfl), ?_⟩, ?_⟩
    · refine (isOf_merged r issue a).mpr (Or.inr ⟨hnone, n, hn, ?_⟩)
      cases a with
      | issue workspaceId repo k =>
        have hk := ((isOf_issue_iff _ _ _ _).mp ha).2.2
        rw [hnone'] at hk
        cases hk
      | pr workspaceId repo k =>
        obtain ⟨rfl, rfl, hk⟩ := (isOf_pr_iff _ _ _ _).mp ha
        rw [hmi'.1, hmi'.2.1, hnp'.1, hnp'.2.1, Option.some.inj (hk.symm.trans hnp'.2.2)]
    · intro key hkey
      have hmoved := merge_hasEvent input s issue r hne r.id key hkey
      rwa [if_pos rfl] at hmoved
  · have hother : r.id ≠ pr.id := fun hid => heq ((h.eq_of_id r pr hr hp).mp hid)
    have hkeeps : ∀ key, s.HasEvent r.id key →
        (s.mergeRecords input issue pr).HasEvent r.id key := by
      intro key hkey
      have hkept := merge_hasEvent input s issue pr hne r.id key hkey
      rwa [if_neg hother] at hkept
    by_cases hself : r = issue
    · subst hself
      exact ⟨mergedRow input pr r, (h'.find_iff a _).mpr
        ⟨(hmem _).mpr (Or.inl rfl), (isOf_merged pr r a).mpr (Or.inl ha)⟩, hkeeps⟩
    · exact ⟨r, (h'.find_iff a r).mpr ⟨(hmem r).mpr (Or.inr ⟨⟨hr, hother⟩, hself⟩), ha⟩, hkeeps⟩

/-- **No history is lost** by a call that agrees with the records. -/
theorem findOrCreate_carries (h : Unique s.records) (hagrees : Agrees s input)
    (hf : Finds input s r s') : Carries s s' := by
  have h' := findOrCreate_unique h r s' hf
  cases hf with
  | merged issue pr hissue hpr hne => exact carries_merge h issue pr hissue hpr hne hagrees h'
  | both e pr hissue hpr heq =>
    exact carries_update h (enrichedRow input) (fun _ => rfl) e (issueRecord_some hissue).1
      (fun a ha => (isOf_enriched e a).mpr (Or.inl ha)) h'
  | issue e hissue hpr =>
    exact carries_update h (enrichedRow input) (fun _ => rfl) e (issueRecord_some hissue).1
      (fun a ha => (isOf_enriched e a).mpr (Or.inl ha)) h'
  | pr e hissue hpr =>
    exact carries_update h (enrichedRow input) (fun _ => rfl) e (prRecord_some hpr).1
      (fun a ha => (isOf_enriched e a).mpr (Or.inl ha)) h'
  | created id hissue hpr hfresh =>
    intro a r hr
    obtain ⟨hr, ha⟩ := (h.find_iff a r).mp hr
    exact ⟨r, (h'.find_iff a r).mpr ⟨List.mem_append_left _ hr, ha⟩, fun key hkey => hkey⟩

/-- The anchors of a call that agrees with the records lead to the record that it returns. -/
theorem findOrCreate_joined (h : Unique s.records) (hagrees : Agrees s input)
    (hf : Finds input s r s') : Joined s' input := by
  have h' := findOrCreate_unique h r s' hf
  intro m n hm hn
  obtain ⟨hfree, hfree'⟩ := hagrees m hm n hn
  -- a row with both numbers is the one that both lookups find
  have hjoin : ∀ r ∈ s'.records, (Anchor.issue input.workspaceId input.repo m).isOf r →
      (Anchor.pr input.workspaceId input.repo n).isOf r →
      ∃ r, s'.recordOfIssue input.workspaceId input.repo m = some r ∧
        s'.recordOfPr input.workspaceId input.repo n = some r :=
    fun r hr hi hp => ⟨r, (h'.find_iff _ r).mpr ⟨hr, hi⟩, (h'.find_iff _ r).mpr ⟨hr, hp⟩⟩
  cases hf with
  | merged issue pr hissue hpr hne =>
    obtain ⟨hi, m', hm', hmi⟩ := issueRecord_some hissue
    obtain rfl := Option.some.inj (hm'.symm.trans hm)
    have hmi' := (isOf_issue_iff _ _ _ _).mp hmi
    have hnone := (merge_numbers h issue pr hissue hpr hne hagrees).1
    refine hjoin _ ((mem_mergeRecords h issue pr hi hne _).mpr (Or.inl rfl)) ?_ ?_
    · exact (isOf_merged pr issue _).mpr (Or.inl hmi)
    · refine (isOf_merged pr issue _).mpr (Or.inr ⟨hnone, n, hn, ?_⟩)
      rw [hmi'.1, hmi'.2.1]
  | both e pr hissue hpr heq =>
    obtain ⟨hi, m', hm', hmi⟩ := issueRecord_some hissue
    obtain ⟨hp, n', hn', hnp⟩ := prRecord_some hpr
    obtain rfl := (h.eq_of_id e pr hi hp).mp heq
    obtain rfl := Option.some.inj (hm'.symm.trans hm)
    obtain rfl := Option.some.inj (hn'.symm.trans hn)
    refine hjoin _ ((h.mem_update _ e hi _).mpr (Or.inl rfl)) ?_ ?_
    · exact (isOf_enriched e _).mpr (Or.inl hmi)
    · exact (isOf_enriched e _).mpr (Or.inl hnp)
  | issue e hissue hpr =>
    obtain ⟨hi, m', hm', hmi⟩ := issueRecord_some hissue
    obtain rfl := Option.some.inj (hm'.symm.trans hm)
    have hmi' := (isOf_issue_iff _ _ _ _).mp hmi
    refine hjoin _ ((h.mem_update _ e hi _).mpr (Or.inl rfl)) ?_ ?_
    · exact (isOf_enriched e _).mpr (Or.inl hmi)
    · rcases hfree e hissue with hnone | hsame
      · refine (isOf_enriched e _).mpr (Or.inr (Or.inr ⟨hnone, n, hn, ?_⟩))
        rw [hmi'.1, hmi'.2.1]
      · exact (isOf_enriched e _).mpr
          (Or.inl ((isOf_pr_iff _ _ _ _).mpr ⟨hmi'.1, hmi'.2.1, hsame⟩))
  | pr e hissue hpr =>
    obtain ⟨hp, n', hn', hnp⟩ := prRecord_some hpr
    obtain rfl := Option.some.inj (hn'.symm.trans hn)
    have hnp' := (isOf_pr_iff _ _ _ _).mp hnp
    refine hjoin _ ((h.mem_update _ e hp _).mpr (Or.inl rfl)) ?_ ?_
    · rcases hfree' e hpr with hnone | hsame
      · refine (isOf_enriched e _).mpr (Or.inr (Or.inl ⟨hnone, m, hm, ?_⟩))
        rw [hnp'.1, hnp'.2.1]
      · exact (isOf_enriched e _).mpr
          (Or.inl ((isOf_issue_iff _ _ _ _).mpr ⟨hnp'.1, hnp'.2.1, hsame⟩))
    · exact (isOf_enriched e _).mpr (Or.inl hnp)
  | created id hissue hpr hfresh =>
    refine hjoin (createdRow id input) (List.mem_append_right _ List.mem_cons_self) ?_ ?_
    · exact (isOf_issue_iff _ _ _ _).mpr ⟨rfl, rfl, hm⟩
    · exact (isOf_pr_iff _ _ _ _).mpr ⟨rfl, rfl, hn⟩

end

/-! ## Sequences of calls -/

inductive Call where
  | findOrCreate (input : FindOrCreateChangeRecordInput)
  | append (input : AppendChangeRecordEventInput)
  deriving DecidableEq, Repr

/-- The tables, and the keys that were appended, each with an anchor by which its record was
found. -/
structure History where
  store : Store
  appended : List (Anchor × Text) := []

/-- The anchors by which a record is found. -/
def Store.foundBy (s : Store) (recordId : Text) : List Anchor :=
  (s.records.filter fun r => r.id = recordId).flatMap anchorsOf

def History.next (host : Host) (h : History) : Call → History
  | .findOrCreate input =>
    { h with store := commit h.store (findOrCreateChangeRecord host input h.store) }
  | .append input =>
    match appendChangeRecordEvent host input h.store with
    | .error _ => h
    | .ok (_, s) =>
      let anchors := h.store.foundBy input.recordId
      { store := s, appended := h.appended ++ anchors.map fun a => (a, input.eventKey) }

def startHistory (now : Int) : History := { store := emptyStore now }

/-- Every appended key is found in the timeline to which its anchor leads. -/
def Kept (h : History) : Prop :=
  ∀ p ∈ h.appended, ∃ r, h.store.find p.1 = some r ∧ h.store.HasEvent r.id p.2

/-- A call that does not throw joins the anchors that it names. -/
def Call.Joins (host : Host) (h : History) : Call → Prop
  | .findOrCreate input => ∀ r s', findOrCreateChangeRecord host input h.store = .ok (r, s') →
      Joined s' input
  | .append _ => True

def Call.Agrees (h : History) : Call → Prop
  | .findOrCreate input => Records.Agrees h.store input
  | .append _ => True

instance decidableCallAgrees (h : History) : ∀ call : Call, Decidable (call.Agrees h)
  | .findOrCreate input => inferInstanceAs (Decidable (Records.Agrees h.store input))
  | .append _ => isTrue trivial

section
variable (host : Host)

/-- The calls as steps of a run: none is refused. -/
def step (h : History) (call : Call) : Option History := some (h.next host call)

theorem append_spec (input : AppendChangeRecordEventInput) (s s' : Store)
    (result : AppendChangeRecordEventResult)
    (h : appendChangeRecordEvent host input s = .ok (result, s')) :
    s'.records = s.records ∧ s'.HasEvent input.recordId input.eventKey ∧
      ∀ id key, s.HasEvent id key → s'.HasEvent id key := by
  unfold appendChangeRecordEvent at h
  split at h
  · next event hevent =>
    cases h
    exact ⟨rfl, ⟨event, eventOf_eq_some s _ _ event hevent⟩, fun _ _ h => h⟩
  · dsimp only at h
    split at h
    · cases h
    split at h <;> cases h
    refine ⟨rfl, ⟨_, List.mem_append_right _ List.mem_cons_self, rfl, rfl⟩, ?_⟩
    rintro id key ⟨e, he, hid, hkey⟩
    exact ⟨e, List.mem_append_left _ he, hid, hkey⟩

theorem next_unique (h : History) (call : Call) (hu : Unique h.store.records) :
    Unique (h.next host call).store.records := by
  cases call with
  | findOrCreate input =>
    show Unique (commit h.store (findOrCreateChangeRecord host input h.store)).records
    cases hcall : findOrCreateChangeRecord host input h.store with
    | error message => exact hu
    | ok answer =>
      exact findOrCreate_unique hu answer.1 answer.2
        (findOrCreate_cases host input h.store answer.1 answer.2 hcall)
  | append input =>
    unfold History.next
    dsimp only
    split
    · exact hu
    · next result s' happend =>
      rw [(append_spec host input h.store s' result happend).1]
      exact hu

theorem next_kept (h : History) (call : Call) (hu : Unique h.store.records) (hk : Kept h)
    (hagrees : call.Agrees h) : Kept (h.next host call) := by
  cases call with
  | findOrCreate input =>
    intro p hp
    obtain ⟨r, hr, hkey⟩ := hk p hp
    show ∃ r, (commit h.store (findOrCreateChangeRecord host input h.store)).find p.1 = some r ∧ _
    cases hcall : findOrCreateChangeRecord host input h.store with
    | error message => exact ⟨r, hr, by rw [History.next, hcall]; exact hkey⟩
    | ok answer =>
      obtain ⟨r', hr', hgrown⟩ := findOrCreate_carries hu hagrees
        (findOrCreate_cases host input h.store answer.1 answer.2 hcall) p.1 r hr
      exact ⟨r', hr', by rw [History.next, hcall]; exact hgrown p.2 hkey⟩
  | append input =>
    unfold History.next
    dsimp only
    split
    · exact hk
    next result s' happend =>
    obtain ⟨hrecords, hnew, hgrown⟩ := append_spec host input h.store s' result happend
    have hfind : ∀ a, s'.find a = h.store.find a := fun a => by
      unfold Store.find
      rw [hrecords]
    intro p hp
    rcases List.mem_append.mp hp with hp | hp
    · obtain ⟨r, hr, hkey⟩ := hk p hp
      exact ⟨r, (hfind p.1).trans hr, hgrown r.id p.2 hkey⟩
    · obtain ⟨a, ha, rfl⟩ := List.mem_map.mp hp
      obtain ⟨r, hr, har⟩ := List.mem_flatMap.mp ha
      rw [List.mem_filter, decide_eq_true_iff] at hr
      refine ⟨r, (hfind a).trans ((hu.find_iff a r).mpr ⟨hr.1, (mem_anchorsOf a r).mp har⟩), ?_⟩
      rw [hr.2]
      exact hnew

/-- **Convergence.** In every sequence of calls an issue and a pull request have at most one record
each.  If every call agrees with the records that it finds, each call joins the anchors that it
names, and every key that was appended to a record is found from the anchors of the record ever
after. -/
theorem records_converge (now : Int) (calls : List Call) :
    Always (step host) (fun h => Unique h.store.records) (startHistory now) calls ∧
      (Throughout (step host) (fun h call => call.Agrees h) (startHistory now) calls →
        Always (step host) Kept (startHistory now) calls ∧
          Throughout (step host) (fun h call => call.Joins host h) (startHistory now) calls) := by
  have hstart : Unique (startHistory now).store.records :=
    ⟨List.nodup_nil, List.forall_mem_nil _⟩
  have hunique : ∀ h call t, step host h call = some t → Unique h.store.records →
      Unique t.store.records := by
    rintro h call t ht hu
    cases ht
    exact next_unique host h call hu
  refine ⟨always_of_invariant hunique calls hstart, fun hagrees => ⟨?_, ?_⟩⟩
  · have hboth : Always (step host) (fun h => Unique h.store.records ∧ Kept h)
        (startHistory now) calls := by
      refine always_of_throughout ?_ hagrees ⟨hstart, List.forall_mem_nil _⟩
      rintro h call t ht ⟨hu, hk⟩ hcall
      cases ht
      exact ⟨next_unique host h call hu, next_kept host h call hu hk hcall⟩
    exact hboth.mono fun h hu => hu.2
  · refine hagrees.mono_invariant hunique hstart ?_
    intro h call hu hcall
    cases call with
    | findOrCreate input =>
      intro r s' hok
      exact findOrCreate_joined hu hcall (findOrCreate_cases host input h.store r s' hok)
    | append input => exact trivial

end

/-! ## Two pull requests of one issue -/

/-- SHA-1 is of no matter here: every name is its own hash. -/
def plainHost : Host := ⟨id, fun _ => 0⟩

def named (issueNumber prNumber : Option Nat) : FindOrCreateChangeRecordInput :=
  { workspaceId := "w".toList, repo := "o/r".toList, issueNumber := issueNumber,
    prNumber := prNumber }

/-- An event of the record that was created for the pull request 8. -/
def reviewed : AppendChangeRecordEventInput :=
  { recordId := "change-record:pr:w:o/r:8".toList, eventKey := "review".toList,
    stage := "review".toList, actor := "reviewer".toList, payloadRef := .other "\x7b\x7d".toList }

/-- The pull request comes first, then the issue, then both. -/
def enriched : List Call :=
  [.findOrCreate (named none (some 8)), .append reviewed, .findOrCreate (named (some 5) none),
    .findOrCreate (named (some 5) (some 8))]

/-- The issue has had the pull request 7 before. -/
def secondPullRequest : List Call :=
  [.findOrCreate (named (some 5) (some 7)), .findOrCreate (named none (some 8)),
    .append reviewed, .findOrCreate (named (some 5) (some 8))]

def historyAfter (calls : List Call) : History :=
  calls.foldl (History.next plainHost) (startHistory 0)

theorem run_historyAfter (calls : List Call) (h : History) :
    run (step plainHost) h calls = some (calls.foldl (History.next plainHost) h) := by
  induction calls generalizing h with
  | nil => rfl
  | cons call calls ih => exact ih (h.next plainHost call)

/-- The review of the pull request is in the timeline of the issue. -/
theorem records_converge_enriched : ∃ r, (historyAfter enriched).store.find
    (.pr "w".toList "o/r".toList 8) = some r ∧ r.issueNumber = some 5 ∧
    (historyAfter enriched).store.HasEvent r.id "review".toList := by
  have hkept := (((records_converge plainHost 0 enriched).2 (by decide +kernel)).1).finish
    (run_historyAfter enriched (startHistory 0))
  obtain ⟨r, hr, hkey⟩ := hkept (.pr "w".toList "o/r".toList 8, "review".toList)
    (by decide +kernel)
  have hissue : (historyAfter enriched).store.find (.pr "w".toList "o/r".toList 8) =
      (historyAfter enriched).store.find (.issue "w".toList "o/r".toList 5) := by decide +kernel
  refine ⟨r, hr, ?_, hkey⟩
  have hfound := List.find?_some (hissue.symm.trans hr)
  exact ((isOf_issue_iff _ _ _ r).mp hfound).2.2

/-- The review of the second pull request is lost, and so is its record. -/
theorem second_pull_request_lost :
    (¬ ∀ (host : Host) (now : Int) (calls : List Call),
      Always (step host) Kept (startHistory now) calls) ∧
    ¬ ∀ (host : Host) (now : Int) (calls : List Call),
      Throughout (step host) (fun h call => call.Joins host h) (startHistory now) calls := by
  have hnone : (historyAfter secondPullRequest).store.find (.pr "w".toList "o/r".toList 8) =
      none := by decide +kernel
  constructor
  · intro hclaim
    have hkept : Kept (historyAfter secondPullRequest) :=
      (hclaim plainHost 0 secondPullRequest).finish
        (run_historyAfter secondPullRequest (startHistory 0))
    obtain ⟨r, hr, _⟩ := hkept (.pr "w".toList "o/r".toList 8, "review".toList)
      (by decide +kernel)
    rw [hnone] at hr
    cases hr
  · intro hclaim
    have hall : Throughout (step plainHost) (fun h call => call.Joins plainHost h)
        (startHistory 0) (secondPullRequest.take 3 ++ secondPullRequest.drop 3) :=
      hclaim plainHost 0 secondPullRequest
    have hjoins := (hall.append (run_historyAfter _ (startHistory 0))).2.1
    let h := historyAfter (secondPullRequest.take 3)
    let input := named (some 5) (some 8)
    have hok : (findOrCreateChangeRecord plainHost input h.store).isOk := by decide +kernel
    have hstore : commit h.store (findOrCreateChangeRecord plainHost input h.store) =
        (historyAfter secondPullRequest).store := rfl
    cases hcall : findOrCreateChangeRecord plainHost input h.store with
    | error message =>
      rw [hcall] at hok
      cases hok
    | ok answer =>
      obtain ⟨r, _, hr⟩ := hjoins answer.1 answer.2 hcall 5 8 rfl rfl
      rw [hcall] at hstore
      have hfound : (historyAfter secondPullRequest).store.find
          (.pr "w".toList "o/r".toList 8) = some r := hstore ▸ hr
      rw [hnone] at hfound
      cases hfound

end Agentrail.Records
