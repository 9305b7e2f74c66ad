import Agentrail.Afk.Slots

/-!
# Workers (`afk/runner.py`)

A worker claims the next issue; where there is none it ends, sleeps or looks at the blockers
again.  `next` is what workers and the processing of issues do to the store.

`runner_safe`: in every run the issues that hold a slot are as many as the busy slots, and never
more than there are workers.  `worker_spec`: no claim of a worker is refused, and a worker ends or
gives up on the cached blockers only where nothing is left to claim.
-/

namespace Agentrail.Afk

open Py

/-! ## The loop -/

def AfkState.activeCount (state : AfkState) : Nat := state.slots.count Option.isSome

def AfkState.isDrained (state : AfkState) : Bool :=
  state.nextQueued.isNone && state.activeCount = 0

inductive WorkerStep where
  | process (claimed : IssueState)
  | done
  /-- Nothing is in flight: the blockers are looked at again. -/
  | recheck
  | sleep

/-- `_worker`, up to where it waits. -/
def workerStep (state : AfkState) (openBlockers : List Int) :
    Except ReduceError (WorkerStep × AfkState) := do
  match ← claimNext state openBlockers with
  | (some claimed, state) => .ok (.process claimed, state)
  | (none, state) =>
    if state.isDrained then .ok (.done, state)
    else if state.activeCount = 0 && state.nextQueued.isSome then .ok (.recheck, state)
    else .ok (.sleep, state)

inductive Event where
  | worker (openBlockers : List Int)
  | dispatch (action : Action)

/-- Only workers claim. -/
def Action.isDispatched : Action → Bool
  | .claimIssue _ _ => false
  | a => a.isRunners

def next (state : AfkState) : Event → Option AfkState
  -- the claim after a `recheck` is a `worker` of its own
  | .worker openBlockers => (workerStep state openBlockers).toOption.map Prod.snd
  | .dispatch action => if action.isDispatched then accept state action else none

/-! ## Free slots -/

theorem freeSlot_spec (s : AfkState) (slot : Int) (h : s.freeSlot = some slot) :
    0 ≤ slot ∧ slot < s.concurrency ∧ s.holder slot = none := by
  unfold AfkState.freeSlot at h
  rw [List.find?_map, Option.map_eq_some_iff] at h
  obtain ⟨idx, hidx, rfl⟩ := h
  rw [List.find?_range_eq_some, List.mem_range] at hidx
  obtain ⟨hfree, hlt, -⟩ := hidx
  refine ⟨Int.natCast_nonneg idx, ?_, Option.isNone_iff_eq_none.mp hfree⟩
  show (idx : Int) < s.concurrency
  omega

theorem freeSlot_none (s : AfkState) (h : s.freeSlot = none) (slot : Int) (hpos : 0 ≤ slot)
    (hlt : slot < s.concurrency) : (s.holder slot).isSome := by
  unfold AfkState.freeSlot at h
  rw [List.find?_eq_none] at h
  have hmem : slot ∈ (List.range s.concurrency.toNat).map Int.ofNat := by
    refine List.mem_map.mpr ⟨slot.toNat, List.mem_range.mpr (by omega), ?_⟩
    exact Int.toNat_of_nonneg hpos
  have hbusy := h slot hmem
  rwa [Option.isNone_iff_eq_none, ← Ne, ← Option.isSome_iff_ne_none] at hbusy

/-! ## Claims -/

/-- Every issue is kept under its number. -/
def Keyed (s : AfkState) : Prop := ∀ number i, s.issues.get number = some i → i.number = number

theorem keyed_set (s t : AfkState) (number : Int) (i' : IssueState)
    (ht : t.issues = s.issues.set number i') (hi' : i'.number = number) (hs : Keyed s) :
    Keyed t := by
  intro n i hi
  rw [ht, Dict.get_set] at hi
  split at hi
  · next hn =>
    cases hi
    exact hi'.trans hn
  · exact hs n i hi

theorem keyed_step (s : AfkState) (a : Action) (t : AfkState) (h : accept s a = some t)
    (hs : Keyed s) : Keyed t := by
  rw [accept_eq_some] at h
  cases a with
  | enqueueIssue number title url blockedBy =>
    simp only [reduce] at h
    split at h <;> cases h
    · exact hs
    · exact keyed_set s _ number _ rfl rfl hs
  | setBlockedBy number blockedBy =>
    simp only [reduce] at h
    split at h
    · cases h
      exact hs
    · next i hi =>
      split at h <;> cases h
      · exact hs
      · exact keyed_set s _ number _ rfl (hs number i hi) hs
  | claimIssue number slot =>
    simp only [reduce, except_bind_eq_ok] at h
    obtain ⟨i, hi, h⟩ := h
    split at h
    · cases h
    · split at h <;> cases h
      exact keyed_set s _ number _ rfl (hs number i (require_eq_ok s number i hi)) hs
  | freeSlot slot =>
    cases h
    exact hs
  | _ =>
    simp only [reduce, except_bind_eq_ok] at h
    obtain ⟨i, hi, h⟩ := h
    cases h
    exact keyed_set s _ _ _ rfl (hs _ i (require_eq_ok s _ i hi)) hs

/-- An issue that waits, and for none of the open blockers. -/
def Claimable (s : AfkState) (openBlockers : List Int) (i : IssueState) : Prop :=
  s.issues.get i.number = some i ∧ i.status = .queued ∧ ∀ b ∈ i.blockedBy, b ∉ openBlockers

theorem claimable_iff (s : AfkState) (openBlockers : List Int) (i : IssueState) (hs : Keyed s) :
    Claimable s openBlockers i ↔
      i ∈ s.values.filter fun i =>
        i.status = .queued && !AfkState.isWithheld openBlockers i := by
  have hvalues : i ∈ s.values ↔ s.issues.get i.number = some i := by
    constructor
    · intro hi
      obtain ⟨number, hnumber⟩ := s.mem_values i hi
      rwa [hs number i hnumber]
    · exact fun hi => List.mem_map_of_mem (f := Prod.snd) ((s.issues.mem_items_iff _ i).mpr hi)
  unfold Claimable
  rw [List.mem_filter, hvalues]
  simp [AfkState.isWithheld]

/-- The head of a sorted list. -/
theorem lowest_spec (candidates : List IssueState) (i : IssueState)
    (h : AfkState.lowest candidates = some i) :
    i ∈ candidates ∧ ∀ j ∈ candidates, i.number ≤ j.number := by
  refine ⟨AfkState.lowest_mem candidates i h, ?_⟩
  intro j hj
  have hsorted : (candidates.mergeSort fun i j => decide (i.number ≤ j.number)).Pairwise
      fun i j => decide (i.number ≤ j.number) = true := by
    apply List.pairwise_mergeSort
    · intro a b c hab hbc
      simp only [decide_eq_true_eq] at *
      omega
    · intro a b
      simp only [Bool.or_eq_true, decide_eq_true_eq]
      omega
  unfold AfkState.lowest at h
  obtain ⟨rest, hrest⟩ := List.head?_eq_some_iff.mp h
  have hmem := (List.mergeSort_perm candidates fun i j =>
    decide (i.number ≤ j.number)).mem_iff.mpr hj
  rw [hrest] at hsorted hmem
  rcases List.mem_cons.mp hmem with rfl | hmem
  · exact le_refl _
  · exact of_decide_eq_true ((List.pairwise_cons.mp hsorted).1 j hmem)

theorem lowest_none (candidates : List IssueState) (h : AfkState.lowest candidates = none) :
    candidates = [] := by
  unfold AfkState.lowest at h
  rw [List.head?_eq_none_iff] at h
  exact List.length_eq_zero_iff.mp (by rw [← List.length_mergeSort, h]; rfl)

/-- **A claim is never refused.** -/
theorem claimNext_cases (s : AfkState) (openBlockers : List Int) (hs : Keyed s) :
    (∃ i slot t, s.freeSlot = some slot ∧ Claimable s openBlockers i ∧
      (∀ j, Claimable s openBlockers j → i.number ≤ j.number) ∧
      accept s (.claimIssue i.number slot) = some t ∧
      claimNext s openBlockers =
        .ok (some { i with status := .claimed, slot := some slot }, t)) ∨
    (claimNext s openBlockers = .ok (none, s) ∧
      ((∀ i, ¬ Claimable s openBlockers i) ∨ s.freeSlot = none)) := by
  unfold claimNext
  cases hnext : s.nextClaimable openBlockers with
  | none =>
    refine Or.inr ⟨rfl, Or.inl fun i hi => ?_⟩
    rw [claimable_iff s openBlockers i hs, lowest_none _ hnext] at hi
    cases hi
  | some i =>
    cases hslot : s.freeSlot with
    | none => exact Or.inr ⟨rfl, Or.inr rfl⟩
    | some slot =>
      obtain ⟨hmem, hlowest⟩ := lowest_spec _ i hnext
      have hi := (claimable_iff s openBlockers i hs).mpr hmem
      have hfree : (s.slots.get slot).join = none := (freeSlot_spec s slot hslot).2.2
      have hreduce : reduce s (.claimIssue i.number slot) = .ok { s with
          slots := s.slots.set slot (some i.number)
          issues := s.issues.set i.number { i with status := .claimed, slot := some slot } } := by
        simp only [reduce, require, hi.1, hfree]
        show (if i.status ≠ .queued then _ else _) = _
        rw [if_neg (not_not_intro hi.2.1)]
        rfl
      refine Or.inl ⟨i, slot, _, rfl, hi, ?_, (accept_eq_some _ _ _).mpr hreduce, ?_⟩
      · exact fun j hj => hlowest j ((claimable_iff s openBlockers j hs).mp hj)
      · dsimp only
        rw [hreduce]
        show Except.ok (Dict.get _ _, _) = _
        rw [Dict.get_set_self]

/-! ## A worker -/

/-- What a worker does is what the state calls for. -/
def WorkerStep.Right (s : AfkState) (openBlockers : List Int) (t : AfkState) : WorkerStep → Prop
  | .process claimed => ∃ i slot, s.freeSlot = some slot ∧ Claimable s openBlockers i ∧
      (∀ j, Claimable s openBlockers j → i.number ≤ j.number) ∧
      accept s (.claimIssue i.number slot) = some t ∧
      claimed = { i with status := .claimed, slot := some slot }
  | .done => t = s ∧ s.activeCount = 0 ∧
      ∀ number i, s.issues.get number = some i → i.status ≠ .queued
  | .recheck => t = s ∧ s.activeCount = 0 ∧
      (∃ number i, s.issues.get number = some i ∧ i.status = .queued) ∧
      (0 < s.concurrency → ∀ i, ¬ Claimable s openBlockers i)
  | .sleep => t = s ∧ 0 < s.activeCount

theorem active_pos (s : AfkState) (slot : Int) (h : (s.holder slot).isSome) :
    0 < s.activeCount := by
  obtain ⟨number, hnumber⟩ := Option.isSome_iff_exists.mp h
  have hget : s.slots.get slot = some (some number) := Option.join_eq_some_iff.mp hnumber
  exact List.countP_pos_iff.mpr ⟨(slot, some number), (s.slots.mem_items_iff _ _).mpr hget, rfl⟩

theorem nextQueued_none (s : AfkState) (h : s.nextQueued = none) (number : Int) (i : IssueState)
    (hi : s.issues.get number = some i) : i.status ≠ .queued := by
  intro hqueued
  have hmem : i ∈ s.values.filter fun i => i.status = .queued :=
    List.mem_filter.mpr ⟨List.mem_map_of_mem (f := Prod.snd)
      ((s.issues.mem_items_iff number i).mpr hi), decide_eq_true hqueued⟩
  rw [lowest_none _ h] at hmem
  cases hmem

theorem workerStep_right (s : AfkState) (openBlockers : List Int) (hs : Keyed s) :
    ∃ step t, workerStep s openBlockers = .ok (step, t) ∧ step.Right s openBlockers t := by
  unfold workerStep
  rcases claimNext_cases s openBlockers hs with
    ⟨i, slot, t, hslot, hi, hlowest, haccept, hclaim⟩ | ⟨hclaim, hnone⟩
  · rw [hclaim]
    exact ⟨.process _, t, rfl, i, slot, hslot, hi, hlowest, haccept, rfl⟩
  rw [hclaim]
  show ∃ step t, (if s.isDrained then _ else _) = _ ∧ _
  by_cases hdrained : s.isDrained
  · rw [if_pos hdrained]
    unfold AfkState.isDrained at hdrained
    rw [Bool.and_eq_true, decide_eq_true_eq, Option.isNone_iff_eq_none] at hdrained
    exact ⟨.done, s, rfl, rfl, hdrained.2, nextQueued_none s hdrained.1⟩
  rw [if_neg hdrained]
  by_cases hidle : s.activeCount = 0
  · -- what is not drained and has nothing in flight has an issue that waits
    have hqueued : s.nextQueued.isSome := by
      simpa [AfkState.isDrained, hidle, Option.isSome_iff_ne_none] using hdrained
    rw [if_pos (by simp [hidle, hqueued])]
    obtain ⟨i, hi⟩ := Option.isSome_iff_exists.mp hqueued
    have hmem := List.mem_filter.mp (AfkState.lowest_mem _ i hi)
    obtain ⟨number, hnumber⟩ := s.mem_values i hmem.1
    refine ⟨.recheck, s, rfl, rfl, hidle, ⟨number, i, hnumber, of_decide_eq_true hmem.2⟩, ?_⟩
    intro hpos
    refine hnone.resolve_right fun hfull => ?_
    have hbusy := active_pos s 0 (freeSlot_none s hfull 0 (le_refl 0) hpos)
    omega
  · rw [if_neg (by simp [hidle])]
    exact ⟨.sleep, s, rfl, rfl, Nat.pos_of_ne_zero hidle⟩

/-! ## Busy slots -/

def AfkState.busy (s : AfkState) : List Int :=
  (s.slots.items.filter fun item => item.2.isSome).map Prod.fst

theorem mem_busy (s : AfkState) (slot : Int) : slot ∈ s.busy ↔ (s.holder slot).isSome := by
  unfold AfkState.busy AfkState.holder
  rw [List.mem_map]
  constructor
  · rintro ⟨⟨slot, o⟩, hitem, rfl⟩
    obtain ⟨hitem, ho⟩ := List.mem_filter.mp hitem
    rw [(s.slots.mem_items_iff slot o).mp hitem]
    exact ho
  · intro h
    obtain ⟨number, hnumber⟩ := Option.isSome_iff_exists.mp h
    have hget := (s.slots.mem_items_iff _ _).mpr (Option.join_eq_some_iff.mp hnumber)
    exact ⟨(slot, some number), List.mem_filter.mpr ⟨hget, rfl⟩, rfl⟩

theorem nodup_busy (s : AfkState) : s.busy.Nodup :=
  s.slots.nodup.sublist (List.filter_sublist.map Prod.fst)

theorem length_busy (s : AfkState) : s.busy.length = s.activeCount := by
  unfold AfkState.busy AfkState.activeCount Dict.count
  rw [List.length_map, List.countP_eq_length_filter]

/-- Issues hold slots of workers. -/
def InRange (s : AfkState) : Prop :=
  ∀ number slot, s.slotOf number = some slot → 0 ≤ slot ∧ slot < s.concurrency

theorem active_le (s : AfkState) (hagree : SlotsAgree s) (hs : InRange s) :
    s.activeCount ≤ s.concurrency.toNat := by
  have hsub : s.busy ⊆ (List.range s.concurrency.toNat).map Int.ofNat := by
    intro slot hslot
    obtain ⟨number, hnumber⟩ := Option.isSome_iff_exists.mp ((mem_busy s slot).mp hslot)
    obtain ⟨hpos, hlt⟩ := hs number slot ((hagree.both slot number).mp hnumber)
    exact List.mem_map.mpr ⟨slot.toNat, List.mem_range.mpr (by omega), Int.toNat_of_nonneg hpos⟩
  have hle := (List.subperm_of_subset (nodup_busy s) hsub).length_le
  rwa [List.length_map, List.length_range, length_busy] at hle

/-- The slots that issues record are the busy ones. -/
theorem holding_eq_active (s : AfkState) (hs : SlotsAgree s) :
    (s.issues.count fun i => i.slot.isSome) = s.activeCount := by
  have hlength : (s.issues.items.filterMap fun item => item.2.slot).length =
      s.issues.count fun i => i.slot.isSome := List.length_filterMap_eq_countP
  have hslot : ∀ item ∈ s.issues.items, s.slotOf item.1 = item.2.slot := fun item hitem =>
    slotOf_of_get s item.1 item.2 ((s.issues.mem_items_iff _ _).mp hitem)
  have hnodup : (s.issues.items.filterMap fun item => item.2.slot).Nodup := by
    refine List.pairwise_filterMap.mpr ((List.pairwise_map.mp s.issues.nodup).imp_of_mem ?_)
    rintro a b ha hb hne x hx y hy rfl
    exact hne (hs.oneIssue a.1 b.1 x ((hslot a ha).trans hx) ((hslot b hb).trans hy))
  rw [← hlength, ← length_busy]
  refine ((List.perm_ext_iff_of_nodup hnodup (nodup_busy s)).mpr fun slot => ?_).length_eq
  rw [mem_busy, List.mem_filterMap]
  constructor
  · rintro ⟨item, hitem, hx⟩
    rw [(hs.both slot item.1).mpr ((hslot item hitem).trans hx)]
    rfl
  · intro h
    obtain ⟨number, hnumber⟩ := Option.isSome_iff_exists.mp h
    obtain ⟨i, hi, hx⟩ := Option.bind_eq_some_iff.mp ((hs.both slot number).mp hnumber)
    exact ⟨(number, i), (s.issues.mem_items_iff _ _).mpr hi, hx⟩

theorem inRange_set (s t : AfkState) (number : Int) (i' : IssueState)
    (ht : t.issues = s.issues.set number i') (hc : t.concurrency = s.concurrency)
    (hs : InRange s) (hi' : ∀ slot, i'.slot = some slot → 0 ≤ slot ∧ slot < s.concurrency) :
    InRange t := by
  intro n slot hslot
  rw [slotOf_set s t number i' ht] at hslot
  rw [hc]
  split at hslot
  · exact hi' slot hslot
  · exact hs n slot hslot

theorem inRange_step (s : AfkState) (a : Action) (t : AfkState) (h : accept s a = some t)
    (ha : ∀ number slot, a = .claimIssue number slot → s.freeSlot = some slot)
    (hs : InRange s) : InRange t := by
  cases accept_effect s t a h with
  | known => exact hs
  | same => exact hs
  | frees => exact hs
  | enqueues => exact inRange_set s _ _ _ rfl rfl hs nofun
  | @edits _ number i i' _ hi _ hslot =>
    refine inRange_set s _ number i' rfl rfl hs fun slot hi' => hs number slot ?_
    rw [slotOf_of_get s number i hi, ← hslot, hi']
  | @claims number slot =>
    refine inRange_set s _ number _ rfl rfl hs ?_
    rintro _ ⟨⟩
    obtain ⟨hpos, hlt, -⟩ := freeSlot_spec s slot (ha number slot rfl)
    exact ⟨hpos, hlt⟩
  | @sets number status i hi =>
    refine inRange_set s _ number (statusIssue status i) rfl rfl hs fun slot hi' => ?_
    refine hs number slot ((slotOf_of_get s number i hi).trans ?_)
    obtain ⟨-, hkept⟩ := Option.ite_none_left_eq_some.mp hi'
    exact hkept
  | releases => exact inRange_set s _ _ _ rfl rfl hs nofun
  | fails => exact inRange_set s _ _ _ rfl rfl hs nofun
  | requeues => exact inRange_set s _ _ _ rfl rfl hs nofun

/-! ## Runs of the runner -/

structure Invariant (s : AfkState) : Prop where
  keyed : Keyed s
  waiting : QueuedHoldNothing s
  agree : SlotsAgree s
  inRange : InRange s

theorem next_cases (s t : AfkState) (e : Event) (hs : Keyed s) (h : next s e = some t) :
    t = s ∨ ∃ a, accept s a = some t ∧ a.isRunners ∧
      ∀ number slot, a = .claimIssue number slot → s.freeSlot = some slot := by
  cases e with
  | worker openBlockers =>
    obtain ⟨step, u, hstep, hright⟩ := workerStep_right s openBlockers hs
    change (workerStep s openBlockers).toOption.map Prod.snd = some t at h
    rw [hstep] at h
    obtain rfl : u = t := Option.some.inj h
    cases step with
    | process claimed =>
      obtain ⟨i, slot, hslot, -, -, haccept, -⟩ := hright
      refine Or.inr ⟨_, haccept, rfl, ?_⟩
      rintro _ _ ⟨⟩
      exact hslot
    | done => exact Or.inl hright.1
    | recheck => exact Or.inl hright.1
    | sleep => exact Or.inl hright.1
  | dispatch a =>
    obtain ⟨ha, haccept⟩ := Option.ite_none_right_eq_some.mp h
    refine Or.inr ⟨a, haccept, ?_, ?_⟩
    · cases a <;> first | exact ha | rfl
    · rintro number slot rfl
      cases ha

theorem invariant_next (s : AfkState) (e : Event) (t : AfkState) (h : next s e = some t)
    (hs : Invariant s) : Invariant t := by
  obtain rfl | ⟨a, haccept, ha, hfree⟩ := next_cases s t e hs.keyed h
  · exact hs
  exact ⟨keyed_step s a t haccept hs.keyed, queuedHoldNothing_step s a t haccept ha hs.waiting,
    (slotsAgree_step s a t haccept hs.agree).mpr (keepsSlots_of_runner s a t haccept ha hs.waiting),
    inRange_step s a t haccept hfree hs.inRange⟩

theorem invariant_initial (concurrency maxRetries : Int) :
    Invariant (initial concurrency maxRetries) := by
  have hempty : ∀ number i, (initial concurrency maxRetries).issues.get number ≠ some i := by
    intro number i hi
    have hnone : (initial concurrency maxRetries).issues.get number = none := rfl
    rw [hnone] at hi
    cases hi
  refine ⟨fun number i hi => absurd hi (hempty number i),
    fun number i hi => absurd hi (hempty number i), slotsAgree_initial concurrency maxRetries, ?_⟩
  intro number slot hslot
  obtain ⟨i, hi, -⟩ := Option.bind_eq_some_iff.mp hslot
  exact absurd hi (hempty number i)

structure Safe (s : AfkState) : Prop where
  agree : SlotsAgree s
  /-- as many issues hold a slot as slots are busy -/
  holding : (s.issues.count fun i => i.slot.isSome) = s.activeCount
  bounded : s.activeCount ≤ s.concurrency.toNat

/-- **Safety.** In every run of the runner slots and issues agree, and never more issues hold a slot
than there are workers. -/
theorem runner_safe (concurrency maxRetries : Int) (events : List Event) :
    Runs.Always next Safe (initial concurrency maxRetries) events := by
  have hinv := Runs.always_of_invariant invariant_next events
    (invariant_initial concurrency maxRetries)
  exact hinv.mono fun s hs =>
    ⟨hs.agree, holding_eq_active s hs.agree, active_le s hs.agree hs.inRange⟩

/-- **The loop of a worker.** After every run a claim is not refused. A worker claims the lowest
issue that no open blocker withholds, ends where nothing waits and nothing is in flight, looks at
the blockers again where they withhold all that waits, and else sleeps while work is in flight. -/
theorem worker_spec (concurrency maxRetries : Int) (events : List Event) (s : AfkState)
    (h : Runs.run next (initial concurrency maxRetries) events = some s)
    (openBlockers : List Int) :
    ∃ step t, workerStep s openBlockers = .ok (step, t) ∧ step.Right s openBlockers t := by
  have hinv := Runs.invariant invariant_next h (invariant_initial concurrency maxRetries)
  exact workerStep_right s openBlockers hinv.keyed

/-- Two issues, the first of which waits for a third, and one slot. -/
def twoIssues : List Event :=
  [.dispatch (.enqueueIssue 1 "a".toList "u".toList [3]),
    .dispatch (.enqueueIssue 2 "b".toList "v".toList []), .worker [3]]

def working : AfkState := (Runs.run next (initial 1 2) twoIssues).get (by decide +kernel)

theorem worker_spec_working : working.slotOf 2 = some 0 ∧
    ∃ step t, workerStep working [3] = .ok (step, t) ∧ step.Right working [3] t :=
  ⟨by decide +kernel, worker_spec 1 2 twoIssues working (Option.some_get _).symm [3]⟩

end Agentrail.Afk
