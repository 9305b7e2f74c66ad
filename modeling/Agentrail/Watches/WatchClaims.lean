import Agentrail.Lib.Runs
import Agentrail.Watches.WatchTable

/-!
# Triggered watches and their workers

One status is trigger flag, lock and result.  `World` adds to the tables what no
column holds: which workers check which watch, which watches a claim has taken,
and whose check has been asked for and not been served.  `checked_once_and_found`:
in every orderly run no claim takes a watch that is being checked, and a watch
whose check is outstanding and that no worker holds can be claimed.

A run need not be orderly (`Orderly`): the heartbeat takes a triggered watch again
while it is checked, and a crash or a `scheduled` trigger leaves a watch in `checking`
for good (`claimed_twice_and_stuck`).
-/

namespace Agentrail.DependencyWatch

open Js

/-! ## Workers -/

/-- A worker that checks a watch; `current` while the watch has not been asked for again. -/
structure Hold where
  worker : Nat
  watchId : Text
  current : Bool
  deriving DecidableEq, Repr

structure World where
  db : Db
  clock : Int
  holds : List Hold := []
  /-- taken by a claim, and since then neither triggered nor recorded -/
  taken : Text → Bool := fun _ => false
  /-- asked for by a trigger or a due time, and not served -/
  asked : Text → Bool := fun _ => false
  /-- a claim has taken a watch that was taken -/
  twice : Bool := false

inductive Action where
  | trigger (workspaceId watchId : Text) (trigger : Trigger)
  | claimDue (worker : Nat) (workspaceId : Text) (limit : Int)
  | claim (worker : Nat) (workspaceId : Text) (limit : Nat)
  | record (worker : Nat) (input : RecordInput)
  | observe (worker : Nat) (input : RecordInput)
  | crash (worker : Nat)
  | wait

/-- Sets one value. -/
def set (f : Text → Bool) (id : Text) (value : Bool) (x : Text) : Bool :=
  if x = id then value else f x

def Db.hasWatch (db : Db) (workspaceId watchId : Text) : Bool :=
  db.watches.rows.any (isWatch workspaceId watchId)

/-- The checks of the watches under way are of an older request. -/
def overtake (p : Text → Bool) (holds : List Hold) : List Hold :=
  holds.map fun h => if p h.watchId then { h with current := false } else h

/-- A trigger of either function reaches the watch. -/
def World.trigger (s : World) (workspaceId watchId : Text) (trigger : Trigger) (now : Int) :
    World :=
  if s.db.hasWatch workspaceId watchId then
    { s with
      db := setTriggered s.db workspaceId watchId trigger now
      holds := overtake (· = watchId) s.holds
      taken := set s.taken watchId false
      asked := set s.asked watchId true }
  else s

/-- A claim has returned these watches to the worker; `due` says which of them for a due time. -/
def World.take (s : World) (worker : Nat) (ids : List Text) (due : Text → Bool) (db : Db) : World :=
  { s with
    db := db
    holds := overtake (fun id => ids.contains id && due id) s.holds ++ ids.map (⟨worker, ·, true⟩)
    taken := fun id => s.taken id || ids.contains id
    asked := fun id => s.asked id || ids.contains id
    twice := s.twice || ids.any s.taken }

/-- The worker has a check of the watch under way that was started after the latest request. -/
def World.serves (s : World) (worker : Nat) (watchId : Text) : Bool :=
  s.holds.any fun h => h.worker = worker && h.watchId = watchId && h.current

/-- The worker has recorded an observation of the watch. -/
def World.settle (s : World) (worker : Nat) (watchId : Text) (db : Db) : World :=
  { s with
    db := db
    holds := s.holds.filter fun h => !(h.worker = worker && h.watchId = watchId)
    taken := set s.taken watchId false
    asked := if s.serves worker watchId then set s.asked watchId false else s.asked }

def Db.isDue (db : Db) (now : Int) (id : Text) : Bool :=
  db.watches.rows.any fun w => w.id = id && w.isDue now

/-- One step at the time `now`. -/
def World.step (checks : ReceiptChecks) (s : World) (now : Int) : Action → World
  | .trigger workspaceId watchId trigger => s.trigger workspaceId watchId trigger now
  | .claimDue worker workspaceId limit =>
    let (ids, db) := claimDueDependencyWatches s.db workspaceId now limit
    s.take worker ids (s.db.isDue now) db
  | .claim worker workspaceId limit =>
    let (ids, db) := claimWatches s.db workspaceId now limit
    s.take worker ids (s.db.isDue now) db
  | .record worker input =>
    match recordDependencyWatchObservation checks s.db input now with
    | .error _ => s
    | .ok (_, db) => s.settle worker input.watchId db
  | .observe worker input =>
    let db := recordWatchObservation s.db input now
    if s.db.hasWatch input.workspaceId input.watchId then s.settle worker input.watchId db
    else { s with db := db }
  | .crash worker => { s with holds := s.holds.filter fun h => h.worker ≠ worker }
  | .wait => s

/-- Time does not go back. -/
def World.next (checks : ReceiptChecks) (s : World) (a : Int × Action) : Option World :=
  if s.clock ≤ a.1 then some { s.step checks a.1 a.2 with clock := a.1 } else none

/-! ## What the runs should keep -/

def World.isHeld (s : World) (id : Text) : Prop := ∃ h ∈ s.holds, h.watchId = id

/-- A claim statement can take the watch now, or as soon as its next check time has passed. -/
def Watch.Claimable (w : Watch) : Prop :=
  w.isTriggered ∨ ∃ at_, w.nextCheckAt = some at_ ∧ ∀ now, at_ ≤ now → w.isDue now

/-- The check of the watch has been asked for and not been served. -/
def World.outstanding (s : World) (w : Watch) : Prop :=
  s.asked w.id ∨ w.cadenceSeconds.isSome ∧ ∃ at_, w.nextCheckAt = some at_ ∧ at_ ≤ s.clock

structure World.Good (s : World) : Prop where
  once : s.twice = false
  found : ∀ w ∈ s.db.watches.rows, ¬ s.isHeld w.id → s.outstanding w → w.Claimable

/-- No watch is being checked. -/
structure World.Quiet (s : World) : Prop where
  holds : s.holds = []
  taken : ∀ id, s.taken id = false
  asked : ∀ id, s.asked id = false
  once : s.twice = false
  idle : ∀ w ∈ s.db.watches.rows, w.status ≠ .checking

/-- The watch has a cadence and a next check. -/
def Watch.hasNext (w : Watch) : Bool := w.cadenceSeconds.isSome && w.nextCheckAt.isSome

/-- Without a worker the watch is not lost: its last trigger still asks for it, or it is free and
has a next check or nothing outstanding. -/
def World.Frees (s : World) (w : Watch) : Prop :=
  w.isTriggered ∨ w.status ≠ .checking ∧ (w.hasNext ∨ s.asked w.id = false)

/-- Another worker checks the watch, or it is not lost by this recording. -/
def RecordsInOrder (s : World) (worker : Nat) (w : Watch) (cursor : Cursor) : Prop :=
  (∃ h ∈ s.holds, h.watchId = w.id ∧ h.worker ≠ worker) ∨
    if cursor.status = .checking then w.lastTrigger = some .manual ∨ w.lastTrigger = some .push
    else s.serves worker w.id ∨ s.asked w.id = false ∨
      w.cadenceSeconds.isSome ∧ cursor.nextCheckAt.isSome

/-- The steps after which nothing is lost and no check is started twice. -/
def Orderly (s : World) : Int × Action → Prop
  | (_, .trigger _ watchId trigger) => trigger = .scheduled → s.isHeld watchId
  | (_, .claim _ workspaceId _) => ∀ w ∈ s.db.watches.rows, w.workspaceId = workspaceId →
      w.isTriggered → s.taken w.id = false
  | (_, .record worker input) => ∀ w ∈ s.db.watches.rows,
      isWatch input.workspaceId input.watchId w → RecordsInOrder s worker w input.cursor
  | (_, .observe worker input) => ∀ w ∈ s.db.watches.rows,
      isWatch input.workspaceId input.watchId w →
        RecordsInOrder s worker w { input.cursor with nextCheckAt := w.nextCheckAt }
  | (_, .crash worker) => ∀ w ∈ s.db.watches.rows, s.isHeld w.id →
      (∀ h ∈ s.holds, h.watchId = w.id → h.worker = worker) → s.Frees w
  | _ => True

/-! ## The invariant -/

structure World.Ready (s : World) : Prop where
  once : s.twice = false
  taken : ∀ w ∈ s.db.watches.rows, s.taken w.id → w.status = .checking
  found : ∀ w ∈ s.db.watches.rows, ¬ s.isHeld w.id → s.Frees w

theorem World.Quiet.ready {s : World} (h : s.Quiet) : s.Ready := by
  refine ⟨h.once, fun w _ ht => ?_, fun w hw _ => Or.inr ⟨h.idle w hw, Or.inr (h.asked w.id)⟩⟩
  rw [h.taken] at ht
  cases ht

theorem World.Ready.good {s : World} (h : s.Ready) : s.Good := by
  refine ⟨h.once, fun w hw hheld hout => ?_⟩
  rcases h.found w hw hheld with htriggered | ⟨hfree, hnext⟩
  · exact Or.inl htriggered
  · have hcadence : w.hasNext := by
      rcases hnext with hnext | hasked
      · exact hnext
      · rcases hout with hout | ⟨hcadence, at_, hat, _⟩
        · rw [hasked] at hout
          cases hout
        · unfold Watch.hasNext
          rw [hcadence, hat]
          rfl
    unfold Watch.hasNext at hcadence
    rw [Bool.and_eq_true, Option.isSome_iff_exists (x := w.nextCheckAt)] at hcadence
    obtain ⟨hcadence, at_, hat⟩ := hcadence
    refine Or.inr ⟨at_, hat, fun now hnow => ?_⟩
    unfold Watch.isDue
    simp [hcadence, hat, hnow, hfree]

/-! ## Steps -/

@[simp] theorem set_self (f : Text → Bool) (id : Text) (value : Bool) :
    set f id value id = value := if_pos rfl

theorem set_of_ne (f : Text → Bool) (value : Bool) {id x : Text} (h : x ≠ id) :
    set f id value x = f x := if_neg h

theorem id_of_isWatch {workspaceId watchId : Text} {w : Watch} (h : isWatch workspaceId watchId w) :
    w.id = watchId := by
  unfold isWatch at h
  simp only [Bool.and_eq_true, decide_eq_true_eq] at h
  exact h.2

/-- Ids are unique over the workspaces. -/
theorem ne_of_not_isWatch {db : Db} {workspaceId watchId : Text} {w : Watch}
    (hw : w ∈ db.watches.rows) (hnot : ¬ isWatch workspaceId watchId w)
    (hhas : db.hasWatch workspaceId watchId) : w.id ≠ watchId := by
  rintro rfl
  obtain ⟨x, hx, his⟩ := List.any_eq_true.mp hhas
  obtain rfl : x = w :=
    Table.eq_of_key _ (fun w => w.id) (List.mem_singleton_self _) x w hx hw (id_of_isWatch his)
  exact hnot his

theorem isHeld_overtake (p : Text → Bool) (holds : List Hold) (id : Text) :
    (∃ h ∈ overtake p holds, h.watchId = id) ↔ ∃ h ∈ holds, h.watchId = id := by
  have hid : ∀ h : Hold, (if p h.watchId then { h with current := false } else h).watchId =
      h.watchId := by
    intro h
    split <;> rfl
  unfold overtake
  constructor
  · rintro ⟨_, hx, rfl⟩
    obtain ⟨h, hh, rfl⟩ := List.mem_map.mp hx
    exact ⟨h, hh, (hid h).symm⟩
  · rintro ⟨h, hh, rfl⟩
    exact ⟨_, List.mem_map_of_mem hh, hid h⟩

/-- What holds of the rows that an update hits and of those that it leaves. -/
theorem forall_updated {rows : List Watch} {p : Watch → Bool} {f : Watch → Watch}
    {Q : Watch → Prop} (hhit : ∀ w ∈ rows, p w → Q (f w)) (hrest : ∀ w ∈ rows, ¬ p w → Q w) :
    ∀ w' ∈ rows.map fun w => if p w then f w else w, Q w' := by
  intro w' hw'
  obtain ⟨w, hw, rfl⟩ := List.mem_map.mp hw'
  split
  · next hp => exact hhit w hw hp
  · next hp => exact hrest w hw hp

theorem Ready_trigger {s : World} (hs : s.Ready) (workspaceId watchId : Text) (trigger : Trigger)
    (now : Int) (hC : trigger = .scheduled → s.isHeld watchId) :
    (s.trigger workspaceId watchId trigger now).Ready := by
  unfold World.trigger
  split
  · next hhas =>
    refine ⟨hs.once, forall_updated (fun w _ _ _ => rfl) ?_, forall_updated ?_ ?_⟩
    · intro w hw hnot htaken
      dsimp only at htaken
      rw [set_of_ne _ _ (ne_of_not_isWatch hw hnot hhas)] at htaken
      exact hs.taken w hw htaken
    · intro w _ his hheld
      left
      have hid : (w.triggered trigger now).id = watchId := id_of_isWatch his
      rw [hid] at hheld
      cases trigger with
      | manual | push => rfl
      | scheduled => exact absurd ((isHeld_overtake (· = watchId) s.holds _).mpr (hC rfl)) hheld
    · intro w hw hnot hheld
      have hheld' : ¬ s.isHeld w.id := fun h =>
        hheld ((isHeld_overtake (· = watchId) s.holds _).mpr h)
      rcases hs.found w hw hheld' with htriggered | ⟨hfree, hnext⟩
      · exact Or.inl htriggered
      · refine Or.inr ⟨hfree, hnext.imp_right fun hasked => ?_⟩
        show set s.asked watchId true w.id = false
        rw [set_of_ne _ _ (ne_of_not_isWatch hw hnot hhas), hasked]
  · exact hs

theorem Ready_take {s : World} (hs : s.Ready) (worker : Nat) (ids : List Text) (due : Text → Bool)
    (f : Watch → Watch) (hid : ∀ w, (f w).id = w.id) (hstatus : ∀ w, (f w).status = .checking)
    (hids : ∀ id ∈ ids, s.taken id = false) :
    (s.take worker ids due (s.db.updateWatches (fun w => ids.contains w.id) f hid)).Ready := by
  refine ⟨?_, forall_updated (fun w _ _ _ => hstatus w) ?_, forall_updated ?_ ?_⟩
  · show (s.twice || ids.any s.taken) = false
    rw [hs.once, Bool.false_or, List.any_eq_false]
    intro id hmem
    rw [hids id hmem]
    exact Bool.false_ne_true
  · intro w hw hnot htaken
    change (s.taken w.id || ids.contains w.id) = true at htaken
    rw [Bool.eq_false_iff.mpr hnot, Bool.or_false] at htaken
    exact hs.taken w hw htaken
  · intro w _ hin hheld
    refine absurd ⟨⟨worker, w.id, true⟩, ?_, (hid w).symm⟩ hheld
    exact List.mem_append_right _ (List.mem_map_of_mem (List.contains_iff_mem.mp hin))
  · intro w hw hnot hheld
    have hheld' : ¬ s.isHeld w.id := by
      intro h
      obtain ⟨x, hx, hxid⟩ := (isHeld_overtake (fun id => ids.contains id && due id) _ _).mpr h
      exact hheld ⟨x, List.mem_append_left _ hx, hxid⟩
    rcases hs.found w hw hheld' with htriggered | ⟨hfree, hnext⟩
    · exact Or.inl htriggered
    · refine Or.inr ⟨hfree, hnext.imp_right fun hasked => ?_⟩
      show (s.asked w.id || ids.contains w.id) = false
      rw [hasked, Bool.eq_false_iff.mpr hnot]
      rfl

/-- What is due has not been taken. -/
theorem not_taken_of_isDue {s : World} (hs : s.Ready) {now : Int} {w : Watch}
    (hw : w ∈ s.db.watches.rows) (hdue : w.isDue now) : s.taken w.id = false := by
  rw [Bool.eq_false_iff]
  intro htaken
  unfold Watch.isDue at hdue
  rw [hs.taken w hw htaken] at hdue
  simp at hdue

theorem Ready_settle {s : World} (hs : s.Ready) (worker : Nat) (workspaceId watchId : Text) (db : Db)
    (cursor : Watch → Cursor) (observedAt : Int) (hhas : s.db.hasWatch workspaceId watchId)
    (hrows : db.watches.rows = s.db.watches.rows.map fun w =>
      if isWatch workspaceId watchId w then w.recorded (cursor w) observedAt else w)
    (hC : ∀ w ∈ s.db.watches.rows, isWatch workspaceId watchId w →
      RecordsInOrder s worker w (cursor w)) :
    (s.settle worker watchId db).Ready := by
  -- the holds that are left, of another watch or another worker
  have hleft : ∀ h ∈ s.holds, ¬ (h.worker = worker ∧ h.watchId = watchId) →
      h ∈ (s.settle worker watchId db).holds := by
    intro h hh hne
    refine List.mem_filter.mpr ⟨hh, ?_⟩
    rw [Bool.not_eq_true', Bool.and_eq_false_imp, decide_eq_true_eq, decide_eq_false_iff_not]
    exact fun hworker hwatch => hne ⟨hworker, hwatch⟩
  have hasked_of : s.asked watchId = false → (s.settle worker watchId db).asked watchId = false := by
    intro hasked
    show (if s.serves worker watchId then set s.asked watchId false else s.asked) watchId = false
    split
    · exact set_self _ _ _
    · exact hasked
  refine ⟨hs.once, ?_, ?_⟩
  · show ∀ w ∈ db.watches.rows, set s.taken watchId false w.id = true → w.status = .checking
    rw [hrows]
    refine forall_updated ?_ ?_
    · intro w _ his htaken
      have hid : (w.recorded (cursor w) observedAt).id = watchId := id_of_isWatch his
      rw [hid, set_self] at htaken
      cases htaken
    · intro w hw hnot htaken
      rw [set_of_ne _ _ (ne_of_not_isWatch hw hnot hhas)] at htaken
      exact hs.taken w hw htaken
  · show ∀ w ∈ db.watches.rows, ¬ (s.settle worker watchId db).isHeld w.id →
      (s.settle worker watchId db).Frees w
    rw [hrows]
    refine forall_updated ?_ ?_
    · intro w hw his hheld
      have hid : w.id = watchId := id_of_isWatch his
      rcases hC w hw his with ⟨h, hh, hwatch, hworker⟩ | horder
      · exact absurd ⟨h, hleft h hh fun hboth => hworker hboth.1, hwatch⟩ hheld
      · by_cases hchecking : (cursor w).status = .checking
        · rw [if_pos hchecking] at horder
          left
          show (decide ((cursor w).status = .checking) &&
            (decide (w.lastTrigger = some .manual) || decide (w.lastTrigger = some .push))) = true
          simpa [hchecking] using horder
        · rw [if_neg hchecking, hid] at horder
          refine Or.inr ⟨hchecking, ?_⟩
          show (w.cadenceSeconds.isSome && (cursor w).nextCheckAt.isSome) = true ∨
            (s.settle worker watchId db).asked w.id = false
          rw [hid]
          rcases horder with hserves | hasked | ⟨hcadence, hnext⟩
          · right
            show (if s.serves worker watchId then set s.asked watchId false else s.asked) watchId =
              false
            rw [if_pos hserves, set_self]
          · exact Or.inr (hasked_of hasked)
          · left
            rw [hcadence, hnext]
            rfl
    · intro w hw hnot hheld
      have hne := ne_of_not_isWatch hw hnot hhas
      have hheld' : ¬ s.isHeld w.id := by
        rintro ⟨h, hh, hwatch⟩
        exact hheld ⟨h, hleft h hh fun hboth => hne (hwatch.symm.trans hboth.2), hwatch⟩
      rcases hs.found w hw hheld' with htriggered | ⟨hfree, hnext⟩
      · exact Or.inl htriggered
      · refine Or.inr ⟨hfree, hnext.imp_right fun hasked => ?_⟩
        show (if s.serves worker watchId then set s.asked watchId false else s.asked) w.id = false
        split
        · rw [set_of_ne _ _ hne, hasked]
        · exact hasked

theorem insertObservation_rows (db : Db) (o : Observation) :
    (insertObservation db o).watches.rows = db.watches.rows := by
  unfold insertObservation
  split <;> rfl

/-- A call that is admitted has found its watch. -/
theorem hasWatch_of_admitted {checks : ReceiptChecks} {db : Db} {input : RecordInput}
    {receipt : Option Json} (h : admitObservation checks db input = .ok receipt) :
    db.hasWatch input.workspaceId input.watchId := by
  unfold admitObservation at h
  split at h
  · cases h
  · next watch hget =>
    have hmem : watch ∈ db.watches.select (isWatch input.workspaceId input.watchId) :=
      List.mem_of_head? hget
    obtain ⟨hin, his⟩ := (Table.mem_select _ _ _).mp hmem
    exact List.any_eq_true.mpr ⟨watch, hin, his⟩

/-- **A step.** -/
theorem Ready_step (checks : ReceiptChecks) {s : World} (hs : s.Ready) (now : Int) (a : Action)
    (hC : Orderly s (now, a)) : (s.step checks now a).Ready := by
  cases a with
  | trigger workspaceId watchId trigger => exact Ready_trigger hs _ _ _ _ hC
  | claimDue worker workspaceId limit =>
    refine Ready_take hs worker _ _ (Watch.claimedDue now) (fun _ => rfl) (fun _ => rfl) ?_
    intro id hid
    obtain ⟨w, hw, rfl⟩ := List.mem_map.mp hid
    have hsel := List.mem_mergeSort.mp (List.mem_of_mem_take hw)
    obtain ⟨hin, hdue⟩ := (Table.mem_select _ _ _).mp hsel
    rw [Bool.and_eq_true] at hdue
    exact not_taken_of_isDue hs hin hdue.2
  | claim worker workspaceId limit =>
    refine Ready_take hs worker _ _ (Watch.claimed now) (fun _ => rfl) (fun _ => rfl) ?_
    intro id hid
    obtain ⟨w, hw, rfl⟩ := List.mem_map.mp hid
    have hsel := List.mem_mergeSort.mp (List.mem_of_mem_take hw)
    obtain ⟨hin, hwhere⟩ := (Table.mem_select _ _ _).mp hsel
    rw [Bool.and_eq_true, Bool.or_eq_true, decide_eq_true_eq] at hwhere
    rcases hwhere.2 with htriggered | hdue
    · exact hC w hin hwhere.1 htriggered
    · exact not_taken_of_isDue hs hin hdue
  | record worker input =>
    show World.Ready (match recordDependencyWatchObservation checks s.db input now with
      | .error _ => s
      | .ok (_, db) => s.settle worker input.watchId db)
    unfold recordDependencyWatchObservation
    cases hadmitted : admitObservation checks s.db input with
    | error e => exact hs
    | ok receipt =>
      refine Ready_settle hs worker input.workspaceId input.watchId _ (fun _ => input.cursor)
        (input.observedAt.getD now) (hasWatch_of_admitted hadmitted) ?_ hC
      show (List.map _ (insertObservation s.db _).watches.rows) = _
      rw [insertObservation_rows]
  | observe worker input =>
    have hrows : (recordWatchObservation s.db input now).watches.rows =
        s.db.watches.rows.map fun w => if isWatch input.workspaceId input.watchId w then
          w.recorded { input.cursor with nextCheckAt := w.nextCheckAt } now else w := by
      show (List.map _ (insertObservation s.db _).watches.rows) = _
      rw [insertObservation_rows]
      rfl
    show World.Ready (if s.db.hasWatch input.workspaceId input.watchId then _ else _)
    split
    · next hhas => exact Ready_settle hs worker _ _ _ _ now hhas hrows hC
    · next hnone =>
      have hsame : (recordWatchObservation s.db input now).watches.rows = s.db.watches.rows := by
        rw [hrows]
        refine (List.map_congr_left fun w hw => ?_).trans (List.map_id _)
        refine if_neg fun his => hnone ?_
        exact List.any_eq_true.mpr ⟨w, hw, his⟩
      refine ⟨hs.once, ?_, ?_⟩
      · intro w hw
        exact hs.taken w (hsame ▸ hw)
      · intro w hw
        exact hs.found w (hsame ▸ hw)
  | crash worker =>
    refine ⟨hs.once, hs.taken, fun w hw hheld => ?_⟩
    by_cases hbefore : s.isHeld w.id
    · refine hC w hw hbefore fun h hh hwatch => ?_
      by_contra hne
      exact hheld ⟨h, List.mem_filter.mpr ⟨hh, by simpa using hne⟩, hwatch⟩
    · exact hs.found w hw hbefore
  | wait => exact hs

/-- **Checked by one worker, and found again.** In every run whose steps are orderly no claim takes a
watch that a claim has taken before it was triggered or recorded again, and a watch without a worker
whose check is outstanding can be claimed. -/
theorem checked_once_and_found (checks : ReceiptChecks) (s : World) (steps : List (Int × Action))
    (hs : s.Quiet) (h : Runs.Throughout (World.next checks) Orderly s steps) :
    Runs.Always (World.next checks) World.Good s steps := by
  have hready : Runs.Always (World.next checks) World.Ready s steps := by
    refine Runs.always_of_throughout ?_ h hs.ready
    rintro s ⟨now, a⟩ t ht hs hC
    unfold World.next at ht
    split at ht
    · cases ht
      obtain ⟨honce, htaken, hfound⟩ := Ready_step checks hs now a hC
      exact ⟨honce, htaken, hfound⟩
    · cases ht
  exact hready.mono fun _ => World.Ready.good

/-! ## Runs -/

instance (s : World) (id : Text) : Decidable (s.isHeld id) :=
  inferInstanceAs (Decidable (∃ h ∈ s.holds, h.watchId = id))

instance (s : World) (w : Watch) : Decidable (s.Frees w) :=
  inferInstanceAs (Decidable (_ ∨ _ ∧ (_ ∨ _)))

instance (s : World) (worker : Nat) (w : Watch) (cursor : Cursor) :
    Decidable (RecordsInOrder s worker w cursor) :=
  inferInstanceAs (Decidable ((∃ h ∈ s.holds, h.watchId = w.id ∧ h.worker ≠ worker) ∨
    if cursor.status = .checking then w.lastTrigger = some .manual ∨ w.lastTrigger = some .push
    else s.serves worker w.id ∨ s.asked w.id = false ∨
      w.cadenceSeconds.isSome ∧ cursor.nextCheckAt.isSome))

instance (s : World) : ∀ a, Decidable (Orderly s a)
  | (_, .trigger _ watchId trigger) =>
    inferInstanceAs (Decidable (trigger = .scheduled → s.isHeld watchId))
  | (_, .claim _ workspaceId _) => inferInstanceAs (Decidable (∀ w ∈ s.db.watches.rows,
      w.workspaceId = workspaceId → w.isTriggered → s.taken w.id = false))
  | (_, .record worker input) => inferInstanceAs (Decidable (∀ w ∈ s.db.watches.rows,
      isWatch input.workspaceId input.watchId w → RecordsInOrder s worker w input.cursor))
  | (_, .observe worker input) => inferInstanceAs (Decidable (∀ w ∈ s.db.watches.rows,
      isWatch input.workspaceId input.watchId w →
        RecordsInOrder s worker w { input.cursor with nextCheckAt := w.nextCheckAt }))
  | (_, .crash worker) => inferInstanceAs (Decidable (∀ w ∈ s.db.watches.rows, s.isHeld w.id →
      (∀ h ∈ s.holds, h.watchId = w.id → h.worker = worker) → s.Frees w))
  | (_, .claimDue ..) => isTrue trivial
  | (_, .wait) => isTrue trivial

def hourly : World :=
  ⟨⟨⟨[{ id := "w".toList, workspaceId := "s".toList, repositoryId := "r".toList,
        cadenceSeconds := some 3600, nextCheckAt := some 5 }], by
    intro key hkey
    rw [List.mem_singleton] at hkey
    subst hkey
    exact List.nodup_singleton _⟩, .empty, []⟩, 0, [], fun _ => false, fun _ => false, false⟩

theorem hourly_quiet : hourly.Quiet :=
  ⟨rfl, fun _ => rfl, fun _ => rfl, rfl, by decide⟩

def noReceipt : ReceiptChecks := ⟨fun _ _ => none, fun _ _ _ _ _ => none⟩

def unchanged (nextCheckAt : Int) : RecordInput :=
  { workspaceId := "s".toList, watchId := "w".toList, repositoryId := "r".toList,
    trigger := .manual, baselineSha := some ['a'], selectedFileHashes := [], observationKey := ['a'],
    status := .unchanged, nextCheckAt := some nextCheckAt }

/-- The watch is checked twice, the second time by a worker that crashes. -/
def twoChecks : List (Int × Action) :=
  [(1, .trigger "s".toList "w".toList .manual), (2, .claim 1 "s".toList 10),
    (3, .record 1 (unchanged 5)), (6, .claim 2 "s".toList 10),
    (7, .trigger "s".toList "w".toList .push), (8, .crash 2)]

theorem checked_once_and_found_hourly :
    Runs.Always (World.next noReceipt) World.Good hourly twoChecks :=
  checked_once_and_found noReceipt hourly twoChecks hourly_quiet (by decide +kernel)

/-- A second heartbeat claims what the first one checks. -/
def twoHeartbeats : List (Int × Action) :=
  [(1, .trigger "s".toList "w".toList .manual), (2, .claim 1 "s".toList 10),
    (3, .claim 2 "s".toList 10)]

/-- The worker that has claimed a due watch crashes. -/
def crashed : List (Int × Action) := [(6, .claimDue 1 "s".toList 10), (7, .crash 1)]

/-- No claim statement takes it, now or later. -/
def Watch.isStuck (w : Watch) : Bool := w.status = .checking && !w.isTriggered

theorem not_claimable_of_isStuck {w : Watch} (h : w.isStuck) : ¬ w.Claimable := by
  unfold Watch.isStuck at h
  rw [Bool.and_eq_true, decide_eq_true_eq, Bool.not_eq_true'] at h
  rintro (htriggered | ⟨at_, _, hdue⟩)
  · rw [h.2] at htriggered
    cases htriggered
  · have hnow := hdue at_ le_rfl
    unfold Watch.isDue at hnow
    rw [h.1] at hnow
    simp at hnow

theorem claimed_twice_and_stuck :
    ¬ Runs.Always (World.next noReceipt) World.Good hourly twoHeartbeats ∧
    ¬ Runs.Always (World.next noReceipt) World.Good hourly crashed := by
  constructor
  · intro h
    have hend : (Runs.run (World.next noReceipt) hourly twoHeartbeats).any (·.twice) := by
      decide +kernel
    obtain ⟨s, hrun, htwice⟩ := (Option.any_eq_true _ _).mp hend
    rw [(h.finish hrun).once] at htwice
    cases htwice
  · intro h
    have hend : (Runs.run (World.next noReceipt) hourly crashed).any fun s =>
        s.holds = [] && s.db.watches.rows.any fun w => s.asked w.id && w.isStuck := by
      decide +kernel
    obtain ⟨s, hrun, hstuck⟩ := (Option.any_eq_true _ _).mp hend
    rw [Bool.and_eq_true, decide_eq_true_eq, List.any_eq_true] at hstuck
    obtain ⟨hnone, w, hw, hstuck⟩ := hstuck
    rw [Bool.and_eq_true] at hstuck
    refine not_claimable_of_isStuck hstuck.2 ((h.finish hrun).found w hw ?_ (Or.inl hstuck.1))
    rintro ⟨x, hx, _⟩
    rw [hnone] at hx
    cases hx

end Agentrail.DependencyWatch
