import Agentrail.Afk.Scheduling

/-!
# Slots and issues

Who holds a slot is written twice: in the slot table and in the issue.  Claims,
releases, failures, requeues and terminal statuses write both.  `FreeSlot` writes
the table alone, and `SetStatus` can queue an issue that keeps its slot; then one
slot runs two issues (`freed_slot_runs_twice`).  `slots_agree` says of every run
whether table and issues agree; the actions of the runner keep them so
(`keepsSlots_of_runner`).
-/

namespace Agentrail.Afk

open Py

/-! ## The agreement -/

/-- The issue that the table has in the slot. -/
def AfkState.holder (s : AfkState) (slot : Int) : Option Int := (s.slots.get slot).join

/-- The slot that the issue records. -/
def AfkState.slotOf (s : AfkState) (number : Int) : Option Int :=
  (s.issues.get number).bind IssueState.slot

structure SlotsAgree (s : AfkState) : Prop where
  /-- the table has the issue in the slot that the issue records, and no other -/
  both : ∀ slot number, s.holder slot = some number ↔ s.slotOf number = some slot
  oneSlot : ∀ slot slot' number, s.holder slot = some number → s.holder slot' = some number →
    slot = slot'
  oneIssue : ∀ number number' slot, s.slotOf number = some slot → s.slotOf number' = some slot →
    number = number'

/-- The first field is enough. -/
theorem slotsAgree_iff (s : AfkState) :
    SlotsAgree s ↔ ∀ slot number, s.holder slot = some number ↔ s.slotOf number = some slot := by
  constructor
  · exact SlotsAgree.both
  · intro h
    refine ⟨h, ?_, ?_⟩
    · intro slot slot' number hslot hslot'
      rw [h] at hslot hslot'
      exact Option.some.inj (hslot.symm.trans hslot')
    · intro number number' slot hnumber hnumber'
      rw [← h] at hnumber hnumber'
      exact Option.some.inj (hnumber.symm.trans hnumber')

/-- A claim meets an issue that records no slot, and only a free slot is freed. -/
def keepsSlots (s : AfkState) : Action → Bool
  | .claimIssue number _ => (s.slotOf number).isNone
  | .freeSlot slot => (s.holder slot).isNone
  | _ => true

/-! ## Tables that change at one place -/

theorem slotOf_of_get (s : AfkState) (number : Int) (i : IssueState)
    (hi : s.issues.get number = some i) : s.slotOf number = i.slot := by
  unfold AfkState.slotOf
  rw [hi]
  rfl

theorem slotOf_set (s t : AfkState) (number : Int) (i' : IssueState)
    (ht : t.issues = s.issues.set number i') (n : Int) :
    t.slotOf n = if number = n then i'.slot else s.slotOf n := by
  unfold AfkState.slotOf
  rw [ht, Dict.get_set]
  by_cases hn : number = n
  · rw [if_pos hn, if_pos hn]
    rfl
  · rw [if_neg hn, if_neg hn]

theorem holder_set (s t : AfkState) (slot : Int) (o : Option Int)
    (ht : t.slots = s.slots.set slot o) (x : Int) :
    t.holder x = if slot = x then o else s.holder x := by
  unfold AfkState.holder
  rw [ht, Dict.get_set]
  by_cases hx : slot = x
  · rw [if_pos hx, if_pos hx]
    cases o <;> rfl
  · rw [if_neg hx, if_neg hx]

/-- Freeing the slot of an issue. -/
theorem holder_freed (s t : AfkState) (i : IssueState) (ht : t.slots = freed s.slots i) (x : Int) :
    t.holder x = if i.slot = some x then none else s.holder x := by
  unfold freed at ht
  cases hslot : i.slot with
  | none =>
    rw [hslot] at ht
    show (t.slots.get x).join = if none = some x then none else s.holder x
    rw [ht, if_neg nofun]
    rfl
  | some slot =>
    rw [hslot] at ht
    rw [holder_set s t slot none ht]
    simp only [Option.some.injEq]

/-- An issue that keeps its slot, or a new one without a slot. -/
theorem agree_keep (s t : AfkState) (number : Int) (i' : IssueState)
    (ht : t.issues = s.issues.set number i') (hslots : t.slots = s.slots)
    (hsame : i'.slot = s.slotOf number) (hs : SlotsAgree s) : SlotsAgree t := by
  rw [slotsAgree_iff]
  intro slot n
  have hholder : t.holder slot = s.holder slot := by
    unfold AfkState.holder
    rw [hslots]
  have hslot : t.slotOf n = s.slotOf n := by
    rw [slotOf_set s t number i' ht]
    by_cases hn : number = n
    · subst hn
      rw [if_pos rfl, hsame]
    · rw [if_neg hn]
  rw [hholder, hslot]
  exact hs.both slot n

/-- An issue that gives its slot back. -/
theorem agree_free (s t : AfkState) (number : Int) (i i' : IssueState)
    (hi : s.issues.get number = some i) (ht : t.issues = s.issues.set number i')
    (hslots : t.slots = freed s.slots i) (hnone : i'.slot = none) (hs : SlotsAgree s) :
    SlotsAgree t := by
  rw [slotsAgree_iff]
  intro slot n
  rw [holder_freed s t i hslots, slotOf_set s t number i' ht, hnone]
  have hold := slotOf_of_get s number i hi
  by_cases hn : number = n
  · subst hn
    rw [if_pos rfl]
    by_cases hslot : i.slot = some slot
    · rw [if_pos hslot]
      exact ⟨nofun, nofun⟩
    · rw [if_neg hslot, hs.both, hold]
      exact ⟨fun h => absurd h hslot, nofun⟩
  · rw [if_neg hn, ← hs.both]
    by_cases hslot : i.slot = some slot
    · rw [if_pos hslot]
      refine ⟨nofun, fun h => ?_⟩
      have hmine : s.holder slot = some number := (hs.both slot number).mpr (hold.trans hslot)
      exact absurd (Option.some.inj (hmine.symm.trans h)) hn
    · rw [if_neg hslot]

/-- An issue that takes a free slot: one that has a slot already would have two. -/
theorem agree_claim (s t : AfkState) (number slot : Int) (i' : IssueState)
    (hslots : t.slots = s.slots.set slot (some number))
    (ht : t.issues = s.issues.set number i') (hslot : i'.slot = some slot)
    (hempty : s.holder slot = none) (hs : SlotsAgree s) :
    SlotsAgree t ↔ s.slotOf number = none := by
  have hholder := holder_set s t slot (some number) hslots
  have hslotOf := slotOf_set s t number i' ht
  rw [hslot] at hslotOf
  constructor
  · -- the slot recorded before would hold the issue too
    intro hagree
    by_contra hhad
    obtain ⟨old, hold⟩ := Option.ne_none_iff_exists'.mp hhad
    have hheld := (hs.both old number).mpr hold
    have hne : slot ≠ old := by
      rintro rfl
      rw [hempty] at hheld
      cases hheld
    have hstill : t.holder old = some number := by
      rw [hholder, if_neg hne]
      exact hheld
    have hnew : t.holder slot = some number := by
      rw [hholder, if_pos rfl]
    exact hne (hagree.oneSlot slot old number hnew hstill)
  · intro hfree
    rw [slotsAgree_iff]
    intro x n
    rw [hholder, hslotOf]
    by_cases hx : slot = x
    · subst hx
      rw [if_pos rfl]
      by_cases hn : number = n
      · rw [if_pos hn, hn]
        exact ⟨fun _ => rfl, fun _ => rfl⟩
      · rw [if_neg hn, ← hs.both, hempty]
        exact ⟨fun h => absurd (Option.some.inj h) hn, nofun⟩
    · rw [if_neg hx]
      by_cases hn : number = n
      · subst hn
        rw [if_pos rfl, hs.both, hfree]
        exact ⟨nofun, fun h => absurd (Option.some.inj h) hx⟩
      · rw [if_neg hn]
        exact hs.both x n

/-- A slot that is cleared in the table alone: the issue that held it would still record it. -/
theorem agree_freeSlot (s t : AfkState) (slot : Int) (hslots : t.slots = s.slots.set slot none)
    (hissues : t.issues = s.issues) (hs : SlotsAgree s) :
    SlotsAgree t ↔ s.holder slot = none := by
  have hholder := holder_set s t slot none hslots
  have hslotOf : ∀ n, t.slotOf n = s.slotOf n := by
    intro n
    unfold AfkState.slotOf
    rw [hissues]
  constructor
  · intro hagree
    by_contra hheld
    obtain ⟨number, hnumber⟩ := Option.ne_none_iff_exists'.mp hheld
    have hrecords : t.slotOf number = some slot :=
      (hslotOf number).trans ((hs.both slot number).mp hnumber)
    have hstill := (hagree.both slot number).mpr hrecords
    rw [hholder, if_pos rfl] at hstill
    cases hstill
  · intro hfree
    rw [slotsAgree_iff]
    intro x n
    rw [hholder, hslotOf, ← hs.both]
    by_cases hx : slot = x
    · subst hx
      rw [if_pos rfl, hfree]
    · rw [if_neg hx]

/-- **One action.** Table and issues go on to agree exactly where the action keeps the slots. -/
theorem slotsAgree_step (s : AfkState) (a : Action) (t : AfkState) (h : accept s a = some t)
    (hs : SlotsAgree s) : SlotsAgree t ↔ keepsSlots s a := by
  cases accept_effect s t a h with
  | known => exact ⟨fun _ => rfl, fun _ => hs⟩
  | same => exact ⟨fun _ => rfl, fun _ => hs⟩
  | @enqueues number title url blockedBy hnone =>
    refine ⟨fun _ => rfl, fun _ => agree_keep s _ number _ rfl rfl ?_ hs⟩
    unfold AfkState.slotOf
    rw [hnone]
    rfl
  | @edits _ number i i' hedit hi _ hslot =>
    have hkeeps : keepsSlots s a := by
      cases a <;> first | rfl | cases hedit
    have hsame : i'.slot = s.slotOf number := by
      rw [hslot, slotOf_of_get s number i hi]
    exact ⟨fun _ => hkeeps, fun _ => agree_keep s _ number i' rfl rfl hsame hs⟩
  | @claims number slot i hi _ hempty =>
    show _ ↔ (s.slotOf number).isNone = true
    rw [Option.isNone_iff_eq_none]
    exact agree_claim s _ number slot _ rfl rfl rfl hempty hs
  | @releases number i hi =>
    exact ⟨fun _ => rfl, fun _ => agree_free s _ number i _ hi rfl rfl rfl hs⟩
  | @sets number status i hi =>
    refine ⟨fun _ => rfl, fun _ => ?_⟩
    by_cases hterminal : status.isTerminal
    · refine agree_free s _ number i (statusIssue status i) hi rfl ?_ ?_ hs
      · simp only [hterminal, if_true]
      · exact if_pos hterminal
    · refine agree_keep s _ number (statusIssue status i) rfl ?_ ?_ hs
      · simp only [hterminal, Bool.false_eq_true, if_false]
      · rw [slotOf_of_get s number i hi]
        exact if_neg hterminal
  | @fails number error i hi =>
    exact ⟨fun _ => rfl, fun _ => agree_free s _ number i _ hi rfl rfl rfl hs⟩
  | @frees slot =>
    show _ ↔ (s.holder slot).isNone = true
    rw [Option.isNone_iff_eq_none]
    exact agree_freeSlot s _ slot rfl rfl hs
  | @requeues number i hi =>
    exact ⟨fun _ => rfl, fun _ => agree_free s _ number i _ hi rfl rfl rfl hs⟩

theorem slotsAgree_initial (concurrency maxRetries : Int) :
    SlotsAgree (initial concurrency maxRetries) := by
  rw [slotsAgree_iff]
  intro slot number
  have hfree : (initial concurrency maxRetries).holder slot = none := by
    unfold AfkState.holder
    cases hget : (initial concurrency maxRetries).slots.get slot with
    | none => rfl
    | some o =>
      obtain ⟨idx, _, hidx⟩ := List.mem_map.mp (Dict.mem_of_get_ofItems _ slot o hget)
      rw [← (Prod.mk.inj hidx).2]
      rfl
  rw [hfree]
  exact ⟨nofun, nofun⟩

/-- **Slots and issues.** In a run from the start table and issues agree after every action exactly
where every action keeps the slots. -/
theorem slots_agree (concurrency maxRetries : Int) (as : List Action)
    (has : (Runs.run accept (initial concurrency maxRetries) as).isSome) :
    Runs.Always accept SlotsAgree (initial concurrency maxRetries) as ↔
      Runs.Throughout accept (fun s a => keepsSlots s a) (initial concurrency maxRetries) as :=
  Runs.always_iff_throughout slotsAgree_step has (slotsAgree_initial concurrency maxRetries)

/-! ## Two issues in one slot -/

/-- A claim, the objective gate and the merge of one issue, while another one waits. -/
def oneMerged : List Action :=
  [.enqueueIssue 1 "a".toList "u".toList [], .enqueueIssue 2 "b".toList "v".toList [],
    .claimIssue 1 0, .setStatus 1 .running, .setStatus 1 .merged, .claimIssue 2 0]

def merging : AfkState := (Runs.run accept (initial 1 2) oneMerged).get (by decide)

theorem slots_agree_merging : SlotsAgree merging := by
  have halways : Runs.Always accept SlotsAgree (initial 1 2) oneMerged :=
    (slots_agree 1 2 oneMerged (by decide)).mpr (by decide)
  exact halways.finish (Option.some_get _).symm

/-- The slot of a running issue is freed and claimed by the next. -/
def slotFreed : List Action :=
  [.enqueueIssue 1 "a".toList "u".toList [], .enqueueIssue 2 "b".toList "v".toList [],
    .claimIssue 1 0, .setStatus 1 .running, .freeSlot 0, .claimIssue 2 0]

/-- Both issues record the slot, and the first still runs. -/
theorem freed_slot_runs_twice : ¬ ∀ (as : List Action) (s : AfkState),
    Runs.run accept (initial 1 2) as = some s → SlotsAgree s := by
  intro hclaim
  let s := (Runs.run accept (initial 1 2) slotFreed).get (by decide)
  have hagree := hclaim slotFreed s (Option.some_get _).symm
  exact absurd (hagree.oneIssue 1 2 0 (by decide) (by decide)) (by decide)

/-! ## The actions of the runner -/

/-- The runner never frees a slot on its own and never sets the status `queued`. -/
def Action.isRunners : Action → Bool
  | .freeSlot _ => false
  | .setStatus _ status => status ≠ .queued
  | _ => true

/-- An issue that waits records no slot. -/
def QueuedHoldNothing (s : AfkState) : Prop :=
  ∀ number i, s.issues.get number = some i → i.status = .queued → i.slot = none

/-- One issue for another. -/
theorem queuedHoldNothing_set (s t : AfkState) (number : Int) (i' : IssueState)
    (ht : t.issues = s.issues.set number i') (hs : QueuedHoldNothing s)
    (hi' : i'.status = .queued → i'.slot = none) : QueuedHoldNothing t := by
  intro n i hi
  rw [ht, Dict.get_set] at hi
  split at hi
  · cases hi
    exact hi'
  · exact hs n i hi

theorem queuedHoldNothing_step (s : AfkState) (a : Action) (t : AfkState)
    (h : accept s a = some t) (ha : a.isRunners) (hs : QueuedHoldNothing s) :
    QueuedHoldNothing t := by
  cases accept_effect s t a h with
  | known => exact hs
  | same => exact hs
  | frees => cases ha
  | @edits _ number i i' _ hi hstatus hslot =>
    refine queuedHoldNothing_set s _ number i' rfl hs ?_
    rw [hstatus, hslot]
    exact hs number i hi
  | @sets number status i hi =>
    refine queuedHoldNothing_set s _ number (statusIssue status i) rfl hs ?_
    intro hqueued
    exact absurd hqueued (of_decide_eq_true ha)
  | claims => exact queuedHoldNothing_set s _ _ _ rfl hs nofun
  | enqueues => exact queuedHoldNothing_set s _ _ _ rfl hs fun _ => rfl
  | releases => exact queuedHoldNothing_set s _ _ _ rfl hs fun _ => rfl
  | fails => exact queuedHoldNothing_set s _ _ _ rfl hs fun _ => rfl
  | requeues => exact queuedHoldNothing_set s _ _ _ rfl hs fun _ => rfl

/-- A claim meets an issue that waits, and such an issue records no slot. -/
theorem keepsSlots_of_runner (s : AfkState) (a : Action) (t : AfkState) (h : accept s a = some t)
    (ha : a.isRunners) (hs : QueuedHoldNothing s) : keepsSlots s a := by
  cases accept_effect s t a h with
  | @claims number slot i hi hqueued _ =>
    show (s.slotOf number).isNone = true
    rw [slotOf_of_get s number i hi, hs number i hi hqueued]
    rfl
  | frees => cases ha
  | @edits _ _ _ _ hedit => cases a <;> first | rfl | cases hedit
  | _ => rfl

end Agentrail.Afk
