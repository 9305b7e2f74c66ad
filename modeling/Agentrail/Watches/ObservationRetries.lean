import Agentrail.Lib.Runs
import Agentrail.Watches.WatchTable

/-!
# Redelivered observations

`recordDependencyWatchObservation` inserts an observation unless its key is
stored, and then updates the watch in any case.  So a redelivery leaves the ledger
as it is (`one_observation`) and writes the watch once more: a late one takes it
back to an older observation (`late_retry_rolls_back`).

`retries_change_nothing_iff`: a run with redeliveries always agrees with the run
of the first deliveries alone exactly if each redelivery finds the watch with the
columns that it writes.
-/

namespace Agentrail.DependencyWatch

open Js

/-! ## Runs -/

inductive Event where
  | record (input : RecordInput) (now : Int)
  | claim (workspaceId : Text) (now limit : Int)

/-- A call that throws leaves the tables as they are. -/
def Event.exec (checks : ReceiptChecks) (db : Db) : Event → Db
  | .record input now =>
    match recordDependencyWatchObservation checks db input now with
    | .error _ => db
    | .ok (_, db') => db'
  | .claim workspaceId now limit => (claimDueDependencyWatches db workspaceId now limit).2

def runEvents (checks : ReceiptChecks) (db : Db) (events : List Event) : Db :=
  events.foldl (Event.exec checks) db

def RecordInput.key (input : RecordInput) : Text × Text × Text :=
  (input.workspaceId, input.repositoryId, input.observationKey)

/-- Whether the observation of this key is stored. -/
def Db.hasObservation (db : Db) (key : Text × Text × Text) : Bool :=
  (db.observations.rows.map Observation.key).contains key

/-- The delivery of an observation that is already recorded. -/
def Event.isRetry (db : Db) : Event → Bool
  | .record input _ => db.hasObservation input.key
  | .claim _ _ _ => false

/-- The run without its redeliveries. -/
def firstDeliveries (checks : ReceiptChecks) (db : Db) : List Event → List Event
  | [] => []
  | e :: events =>
    let rest := firstDeliveries checks (e.exec checks db) events
    if e.isRetry db then rest else e :: rest

theorem firstDeliveries_cons (checks : ReceiptChecks) (db : Db) (e : Event)
    (events : List Event) : firstDeliveries checks db (e :: events) =
      if e.isRetry db then firstDeliveries checks (e.exec checks db) events
      else e :: firstDeliveries checks (e.exec checks db) events := rfl

/-! ## What has to agree -/

/-- A watch without the two time stamps of its last update. -/
def Watch.plain (w : Watch) : Watch := { w with lastCheckedAt := none, updatedAt := 0 }

structure Agrees (s t : Db) : Prop where
  watches : s.watches.rows.map Watch.plain = t.watches.rows.map Watch.plain
  observations : s.observations = t.observations
  repositories : s.repositories = t.repositories

theorem Agrees.refl (s : Db) : Agrees s s := ⟨rfl, rfl, rfl⟩

/-- A redelivery that is admitted finds what it writes. -/
def RepeatsLast (checks : ReceiptChecks) (db : Db) : Event → Prop
  | .record input _ => db.hasObservation input.key → ∀ receipt,
      admitObservation checks db input = .ok receipt →
      ∀ w ∈ db.watches.rows, isWatch input.workspaceId input.watchId w → w.toCursor = input.cursor
  | .claim _ _ _ => True

/-! ## Statements on tables that agree -/

theorem map_plain_update {s t : List Watch} (h : s.map Watch.plain = t.map Watch.plain)
    (p : Watch → Bool) (f : Watch → Watch) (hp : ∀ w, p w.plain = p w)
    (hf : ∀ w, (f w.plain).plain = (f w).plain) :
    (s.map fun w => if p w then f w else w).map Watch.plain =
      (t.map fun w => if p w then f w else w).map Watch.plain := by
  have hrows : ∀ rows : List Watch, (rows.map fun w => if p w then f w else w).map Watch.plain =
      (rows.map Watch.plain).map fun w => (if p w then f w else w).plain := by
    intro rows
    rw [List.map_map, List.map_map]
    refine List.map_congr_left fun w _ => ?_
    show (if p w then f w else w).plain = (if p w.plain then f w.plain else w.plain).plain
    rw [hp]
    split
    · exact (hf w).symm
    · rfl
  rw [hrows, hrows, h]

theorem Agrees.updateWatches {s t : Db} (h : Agrees s t) (p : Watch → Bool) (f : Watch → Watch)
    (hid : ∀ w, (f w).id = w.id) (hp : ∀ w, p w.plain = p w)
    (hf : ∀ w, (f w.plain).plain = (f w).plain) :
    Agrees (s.updateWatches p f hid) (t.updateWatches p f hid) :=
  ⟨map_plain_update h.watches p f hp hf, h.observations, h.repositories⟩

/-- Both claims read nothing that differs. -/
theorem Agrees.dueIds_eq {s t : Db} (h : Agrees s t) (workspaceId : Text) (now limit : Int) :
    dueIds s workspaceId now limit = dueIds t workspaceId now limit := by
  have hrows : ∀ rows : List Watch,
      (((rows.filter fun w => w.workspaceId = workspaceId && w.isDue now).mergeSort
        fun v w => v.nextCheckAt.getD 0 ≤ w.nextCheckAt.getD 0).take (safeLimit limit)).map (·.id) =
      ((((rows.map Watch.plain).filter fun w => w.workspaceId = workspaceId && w.isDue now).mergeSort
        fun v w => v.nextCheckAt.getD 0 ≤ w.nextCheckAt.getD 0).take (safeLimit limit)).map
          (·.id) := by
    intro rows
    have hsort := List.map_mergeSort (f := Watch.plain)
      (r := fun v w => decide (v.nextCheckAt.getD 0 ≤ w.nextCheckAt.getD 0))
      (s := fun v w => decide (v.nextCheckAt.getD 0 ≤ w.nextCheckAt.getD 0))
      (l := rows.filter fun w => w.workspaceId = workspaceId && w.isDue now) fun _ _ _ _ => rfl
    rw [List.filter_map]
    show _ = (List.take _ ((List.map _ (rows.filter fun w => w.workspaceId = workspaceId &&
      w.isDue now)).mergeSort _)).map _
    rw [← hsort, ← List.map_take, List.map_map]
    rfl
  unfold dueIds Table.select
  rw [hrows s.watches.rows, hrows t.watches.rows, h.watches]

theorem Agrees.getDependencyWatch_eq {s t : Db} (h : Agrees s t) (workspaceId watchId : Text) :
    (getDependencyWatch s workspaceId watchId).map Watch.plain =
      (getDependencyWatch t workspaceId watchId).map Watch.plain := by
  have hrows : ∀ rows : List Watch, ((rows.filter (isWatch workspaceId watchId)).head?).map
      Watch.plain = ((rows.map Watch.plain).filter (isWatch workspaceId watchId)).head? := by
    intro rows
    rw [List.filter_map, List.head?_map]
    rfl
  unfold getDependencyWatch Table.select
  rw [hrows, hrows, h.watches]

theorem Agrees.admitObservation_eq {s t : Db} (h : Agrees s t) (checks : ReceiptChecks)
    (input : RecordInput) : admitObservation checks s input = admitObservation checks t input := by
  have hget := h.getDependencyWatch_eq input.workspaceId input.watchId
  unfold admitObservation
  rw [h.repositories]
  cases hs : getDependencyWatch s input.workspaceId input.watchId with
  | none =>
    rw [hs] at hget
    rw [Option.map_eq_none_iff.mp hget.symm]
  | some v =>
    rw [hs] at hget
    obtain ⟨w, hw, hvw⟩ := Option.map_eq_some_iff.mp hget.symm
    have hrepository : v.plain.repositoryId = w.plain.repositoryId := by rw [hvw]
    have hmanifest : v.plain.manifestPath = w.plain.manifestPath := by rw [hvw]
    have hlockfile : v.plain.lockfilePath = w.plain.lockfilePath := by rw [hvw]
    rw [hw]
    unfold Watch.plain at hrepository hmanifest hlockfile
    dsimp only at hrepository hmanifest hlockfile ⊢
    rw [hrepository, hmanifest, hlockfile]

theorem Watch.recorded_id (cursor : Cursor) (observedAt : Int) (w : Watch) :
    (w.recorded cursor observedAt).id = w.id := rfl

/-- The writes of a recording. -/
def Db.recorded (db : Db) (input : RecordInput) (receipt : Option Json) (now : Int) : Db :=
  (insertObservation db (input.observation receipt (input.observedAt.getD now))).updateWatches
    (isWatch input.workspaceId input.watchId)
    (Watch.recorded input.cursor (input.observedAt.getD now)) (Watch.recorded_id _ _)

theorem exec_record (checks : ReceiptChecks) (db : Db) (input : RecordInput) (now : Int) :
    (Event.record input now).exec checks db =
      match admitObservation checks db input with
      | .error _ => db
      | .ok receipt => db.recorded input receipt now := by
  unfold Event.exec recordDependencyWatchObservation
  dsimp only
  cases admitObservation checks db input <;> rfl

theorem insertObservation_watches (db : Db) (o : Observation) :
    (insertObservation db o).watches = db.watches ∧
      (insertObservation db o).repositories = db.repositories := by
  unfold insertObservation
  split <;> exact ⟨rfl, rfl⟩

theorem Agrees.insertObservation {s t : Db} (h : Agrees s t) (o : Observation) :
    Agrees (insertObservation s o) (insertObservation t o) := by
  refine ⟨?_, ?_, ?_⟩
  · rw [(insertObservation_watches s o).1, (insertObservation_watches t o).1]
    exact h.watches
  · unfold DependencyWatch.insertObservation
    rw [h.observations]
    split
    · exact h.observations
    · rfl
  · rw [(insertObservation_watches s o).2, (insertObservation_watches t o).2]
    exact h.repositories

/-- The same event on both sides. -/
theorem Agrees.exec {s t : Db} (h : Agrees s t) (checks : ReceiptChecks) (e : Event) :
    Agrees (e.exec checks s) (e.exec checks t) := by
  cases e with
  | record input now =>
    rw [exec_record, exec_record, h.admitObservation_eq checks input]
    split
    · exact h
    · exact (h.insertObservation _).updateWatches _ _ _ (fun _ => rfl) fun _ => rfl
  | claim workspaceId now limit =>
    unfold Event.exec claimDueDependencyWatches
    dsimp only
    rw [h.dueIds_eq]
    exact h.updateWatches _ _ _ (fun _ => rfl) fun _ => rfl

/-! ## A redelivery -/

theorem insertObservation_stored (db : Db) (o : Observation) (h : db.hasObservation o.key) :
    insertObservation db o = db := by
  have hnone : db.observations.insert o = none := by
    rw [Table.insert_eq_none]
    exact ⟨Observation.key, List.mem_singleton_self _, List.contains_iff_mem.mp h⟩
  unfold insertObservation
  rw [hnone]

/-- One side takes a redelivery and the other does not. -/
theorem Agrees.retry_iff {s t : Db} (h : Agrees s t) (checks : ReceiptChecks) (e : Event)
    (hretry : e.isRetry s) : Agrees (e.exec checks s) t ↔ RepeatsLast checks s e := by
  cases e with
  | claim => cases hretry
  | record input now =>
    rw [exec_record]
    unfold RepeatsLast
    cases hadmitted : admitObservation checks s input with
    | error =>
      refine ⟨fun _ _ receipt hreceipt => ?_, fun _ => h⟩
      cases hadmitted.symm.trans hreceipt
    | ok receipt =>
      have hrows : (s.recorded input receipt now).watches.rows.map Watch.plain =
          s.watches.rows.map fun w => if isWatch input.workspaceId input.watchId w then
            (w.recorded input.cursor 0).plain else w.plain := by
        unfold Db.recorded
        rw [insertObservation_stored s (input.observation receipt _) hretry]
        show (s.watches.rows.map _).map Watch.plain = _
        rw [List.map_map]
        refine List.map_congr_left fun w _ => ?_
        show (if isWatch input.workspaceId input.watchId w then _ else w).plain = _
        split <;> rfl
      have hledger : (s.recorded input receipt now).observations = s.observations ∧
          (s.recorded input receipt now).repositories = s.repositories := by
        unfold Db.recorded
        rw [insertObservation_stored s (input.observation receipt _) hretry]
        exact ⟨rfl, rfl⟩
      constructor
      · intro hagrees _ _ _ w hw his
        have hmap := hagrees.watches.trans h.watches.symm
        rw [hrows, List.map_inj_left] at hmap
        have hsame := hmap w hw
        rw [if_pos his] at hsame
        exact (congrArg Watch.toCursor hsame).symm
      · intro hrepeats
        refine ⟨?_, hledger.1.trans h.observations, hledger.2.trans h.repositories⟩
        rw [hrows, ← h.watches]
        refine List.map_congr_left fun w hw => ?_
        split
        · next his =>
          have hcursor := hrepeats hretry receipt hadmitted w hw his
          unfold Watch.recorded Watch.plain
          rw [← hcursor]
        · rfl

/-! ## The ledger -/

theorem hasObservation_exec (checks : ReceiptChecks) (db : Db) (e : Event)
    (key : Text × Text × Text) (h : db.hasObservation key) :
    (e.exec checks db).hasObservation key := by
  cases e with
  | claim => exact h
  | record input now =>
    rw [exec_record]
    split
    · exact h
    · next receipt _ =>
      show (insertObservation db _).hasObservation key
      unfold insertObservation
      split
      · exact h
      · next observations hinsert =>
        unfold Db.hasObservation at h ⊢
        rw [List.contains_iff_mem] at h ⊢
        rw [Table.rows_insert _ _ _ hinsert, List.map_append]
        exact List.mem_append_left _ h

theorem hasObservation_run (checks : ReceiptChecks) (db : Db) (events : List Event)
    (key : Text × Text × Text) (h : db.hasObservation key) :
    (runEvents checks db events).hasObservation key := by
  induction events generalizing db with
  | nil => exact h
  | cons e events ih => exact ih _ (hasObservation_exec checks db e key h)

theorem hasObservation_recorded (db : Db) (input : RecordInput) (receipt : Option Json)
    (now : Int) : (db.recorded input receipt now).hasObservation input.key := by
  show (insertObservation db _).hasObservation input.key
  unfold insertObservation
  split
  · next hnone =>
    obtain ⟨key, hkey, hstored⟩ := (Table.insert_eq_none _ _).mp hnone
    rw [List.mem_singleton] at hkey
    subst hkey
    exact List.contains_iff_mem.mpr hstored
  · next observations hinsert =>
    unfold Db.hasObservation
    rw [List.contains_iff_mem, Table.rows_insert _ _ _ hinsert, List.map_append]
    exact List.mem_append_right _ (List.mem_singleton_self _)

/-- An observation that was delivered and admitted is stored once. -/
theorem one_observation (checks : ReceiptChecks) (db : Db) (before after : List Event)
    (input : RecordInput) (now : Int) (receipt : Option Json)
    (h : admitObservation checks (runEvents checks db before) input = .ok receipt) :
    ∃! o, o ∈ (runEvents checks db (before ++ .record input now :: after)).observations.rows ∧
      o.key = input.key := by
  have hstored : (runEvents checks db (before ++ .record input now :: after)).hasObservation
      input.key := by
    unfold runEvents
    rw [List.foldl_append, List.foldl_cons]
    refine hasObservation_run checks _ after _ ?_
    show ((Event.record input now).exec checks (runEvents checks db before)).hasObservation _
    rw [exec_record, h]
    exact hasObservation_recorded _ _ _ _
  obtain ⟨o, ho, hkey⟩ := List.mem_map.mp (List.contains_iff_mem.mp hstored)
  refine ⟨o, ⟨ho, hkey⟩, ?_⟩
  rintro o' ⟨ho', hkey'⟩
  exact Table.eq_of_key _ Observation.key (List.mem_singleton_self _) o' o ho' ho
    (hkey'.trans hkey.symm)

/-! ## Runs with redeliveries -/

/-- The machine that takes every event. -/
def nextDb (checks : ReceiptChecks) (db : Db) (e : Event) : Option Db := some (e.exec checks db)

theorem agrees_prefixes_iff (checks : ReceiptChecks) (db once : Db) (events : List Event)
    (h : Agrees db once) :
    (∀ n, Agrees (runEvents checks db (events.take n))
      (runEvents checks once (firstDeliveries checks db (events.take n)))) ↔
    Runs.Throughout (nextDb checks) (RepeatsLast checks) db events := by
  induction events generalizing db once with
  | nil =>
    refine ⟨fun _ => trivial, fun _ n => ?_⟩
    rw [List.take_nil]
    exact h
  | cons e events ih =>
    -- what the first event leaves on both sides
    have hsplit : ∀ once', (∀ n, runEvents checks once
          (firstDeliveries checks db ((e :: events).take (n + 1))) =
        runEvents checks once' (firstDeliveries checks (e.exec checks db) (events.take n))) →
        ((∀ n, Agrees (runEvents checks db ((e :: events).take n))
          (runEvents checks once (firstDeliveries checks db ((e :: events).take n)))) ↔
        ∀ n, Agrees (runEvents checks (e.exec checks db) (events.take n))
          (runEvents checks once'
            (firstDeliveries checks (e.exec checks db) (events.take n)))) := by
      intro once' honce
      constructor
      · intro hall n
        rw [← honce n]
        exact hall (n + 1)
      · intro hall n
        cases n with
        | zero => exact h
        | succ n =>
          rw [honce n]
          exact hall n
    cases hretry : e.isRetry db with
    | true =>
      rw [hsplit once fun n => by
        rw [List.take_succ_cons, firstDeliveries_cons, if_pos hretry]]
      constructor
      · intro hall
        have hagrees : Agrees (e.exec checks db) once := hall 0
        refine ⟨(h.retry_iff checks e hretry).mp hagrees, ?_⟩
        rintro db' hdb'
        cases hdb'
        exact (ih _ _ hagrees).mp hall
      · rintro ⟨hrepeats, hrest⟩
        exact (ih _ _ ((h.retry_iff checks e hretry).mpr hrepeats)).mpr (hrest _ rfl)
    | false =>
      rw [hsplit (e.exec checks once) fun n => by
        rw [List.take_succ_cons, firstDeliveries_cons, hretry]
        rfl]
      have hfresh : RepeatsLast checks db e := by
        cases e with
        | record input now =>
          intro hstored
          rw [show Event.isRetry db (.record input now) = db.hasObservation input.key from rfl,
            hstored] at hretry
          cases hretry
        | claim => trivial
      rw [ih _ _ (h.exec checks e)]
      constructor
      · intro hrest
        refine ⟨hfresh, ?_⟩
        rintro db' hdb'
        cases hdb'
        exact hrest
      · exact fun hall => hall.2 _ rfl

/-- **Retried observations.** After every part of a run the watches are as after the first
deliveries alone, in every column but the two time stamps of the last update, exactly if each
redelivery that is admitted finds its watch with the columns that it writes. -/
theorem retries_change_nothing_iff (checks : ReceiptChecks) (db : Db) (events : List Event) :
    (∀ n, Agrees (runEvents checks db (events.take n))
      (runEvents checks db (firstDeliveries checks db (events.take n)))) ∧
      (∀ before after input now receipt, events = before ++ .record input now :: after →
        admitObservation checks (runEvents checks db before) input = .ok receipt →
        ∃! o, o ∈ (runEvents checks db events).observations.rows ∧ o.key = input.key) ↔
    Runs.Throughout (nextDb checks) (RepeatsLast checks) db events := by
  rw [← agrees_prefixes_iff checks db db events (Agrees.refl db)]
  refine ⟨fun h => h.1, fun h => ⟨h, ?_⟩⟩
  rintro before after input now receipt rfl hadmitted
  exact one_observation checks db before after input now receipt hadmitted

/-! ## A late redelivery -/

def noReceipts : ReceiptChecks := ⟨fun _ _ => none, fun _ _ _ _ _ => none⟩

def sampleWatch : Watch :=
  { id := "w".toList, workspaceId := "s".toList, repositoryId := "r".toList }

def sampleDb : Db :=
  ⟨⟨[sampleWatch], by
    intro key hkey
    rw [List.mem_singleton] at hkey
    subst hkey
    exact List.nodup_singleton _⟩, .empty, []⟩

def sampleInput (sha : Text) : RecordInput :=
  { workspaceId := "s".toList, watchId := "w".toList, repositoryId := "r".toList,
    trigger := .manual, baselineSha := some sha, selectedFileHashes := [], observationKey := sha,
    status := .unchanged }

/-- The older of two observations is delivered again after the newer one. -/
def lateRetry : List Event :=
  [.record (sampleInput ['a']) 1, .record (sampleInput ['b']) 2, .record (sampleInput ['a']) 3]

/-- The watch goes back to the commit of the older observation. -/
theorem late_retry_rolls_back :
    (runEvents noReceipts sampleDb lateRetry).watches.rows.map (·.lastCheckedSha) =
      [some ['a']] ∧
    (runEvents noReceipts sampleDb
      (firstDeliveries noReceipts sampleDb lateRetry)).watches.rows.map (·.lastCheckedSha) =
      [some ['b']] := by
  decide +kernel

end Agentrail.DependencyWatch
