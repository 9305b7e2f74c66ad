import Agentrail.Afk.QueueStore
import Agentrail.Guardrails.AdmissionParity
import Agentrail.Lib.Runs

/-!
# Which row an entry is written to

A process holds the entries that the calls returned, each with the row it came from.
A write goes to the row that was enqueued or rehydrated last under the number of the
entry (`Bound`), and that is the row of the entry as long as no other row of that
number came since.

Main results:

* `store_writes_its_row`: a run whose writes all meet the condition writes the rows
  it read.
* `own_rows_of_distinct_numbers`: where the numbers tell the rows apart, all do.
* `issue_of_other_workspace_written`: two workspaces with an issue 5.
-/

namespace Agentrail.AfkQueue

open Py

/-! ## Runs of a process -/

/-- An entry that a call returned, and the id of the row it was enqueued or rehydrated from. -/
structure Handle where
  entry : QueueEntry
  row : Text

structure Process where
  store : QueueStore := {}
  db : Database
  handles : List Handle := []
  /-- the rows that were enqueued or rehydrated, with their numbers, the newest first -/
  met : List (Nat × Text) := []

/-- An operation; an entry is given by its place among the handles. -/
inductive Operation where
  | enqueue (issue : Issue) (driver : Driver)
  | nextGrabbable (workspaceId : Text) (driver : Driver)
  | listQueue (workspaceId : Text) (driver : Driver)
  | transition (handle : Nat) (event : Event) (driver : Driver)
  | registerRun (handle : Nat) (run : QueueStore.RunState) (driver : Driver)

section
variable (host : Host)

/-- The rows met when rows are rehydrated one after the other, up to one that raises. -/
def meetRows (met : List (Nat × Text)) : List Row → List (Nat × Text)
  | [] => met
  | row :: rows =>
    match entryNumber host row.workspaceId row.source row.externalId with
    | .error _ => met
    | .ok number =>
      match QueueStore.readEntry number row with
      | .error _ => (number, row.id) :: met
      | .ok _ => meetRows ((number, row.id) :: met) rows

def meetIssue (store : QueueStore) (issue : Issue) (driver : Driver) (met : List (Nat × Text)) :
    List (Nat × Text) :=
  match QueueStore.gateIssue host store issue driver with
  | (.ok (.entry entry), _) => (entry.number, (QueueStore.issueRow host issue entry driver.now).id) :: met
  | _ => met

/-- The process after rows came back as the entries `returned`. -/
def Process.afterRead (p : Process) (rows : List Row) (returned : List QueueEntry)
    (store : QueueStore) : Process :=
  { p with
    store := store
    handles := p.handles ++ (returned.zip rows).map fun read => ⟨read.1, read.2.id⟩
    met := meetRows host p.met rows }

def perform (p : Process) : Operation → Option Process
  | .enqueue issue driver =>
    let done := p.store.enqueue host p.db issue driver
    let returned : List Handle :=
      match done.1 with
      | .ok (.entry entry) => [⟨entry, entryUuid host issue.workspaceId issue.source issue.externalId⟩]
      | _ => []
    some
      { store := done.2.1
        db := done.2.2
        handles := p.handles ++ returned
        met := meetIssue host p.store issue driver p.met }
  | .nextGrabbable workspaceId driver =>
    let done := p.store.nextGrabbable host p.db workspaceId driver
    some (p.afterRead host (p.db.nextGrabbable driver workspaceId)
      (done.1.toOption.join.toList) done.2)
  | .listQueue workspaceId driver =>
    let done := p.store.listQueue host p.db workspaceId driver
    some (p.afterRead host (p.db.listQueue driver workspaceId) (done.1.toOption.getD []) done.2)
  | .transition handle event driver =>
    p.handles[handle]?.map fun h =>
      let done := p.store.transition p.db h.entry event driver
      let returned : List Handle :=
        match done.1 with
        | .ok nxt => [⟨nxt, h.row⟩]
        | .error _ => []
      { p with db := done.2, handles := p.handles ++ returned }
  | .registerRun handle run driver =>
    p.handles[handle]?.map fun h =>
      { p with db := (p.store.registerRun host p.db h.entry run driver).2 }

/-- The row met last under a number. -/
def latest (met : List (Nat × Text)) (number : Nat) : Option Text :=
  (met.find? fun m => m.1 = number).map Prod.snd

/-- The entry that an operation writes comes from the row met last under its number. -/
def LatestIsOwn (p : Process) : Operation → Prop
  | .transition handle _ _ | .registerRun handle _ _ =>
    ∀ h, p.handles[handle]? = some h → latest p.met h.entry.number = some h.row
  | _ => True

/-- The tables after a write to the row `id`, which is there, and to no other. -/
def WrittenTo (id : Text) (f : Row → Row) (before after : Database) : Prop :=
  (∃ row ∈ before.entries.rows, row.id = id) ∧
    after.entries.rows = (before.entries.rows.map fun row => if row.id = id then f row else row) ∧
    after.runs = before.runs

/-- The tables after the run `runId` was registered for the row `id`, which is there. -/
def RegisteredFor (id runId : Text) (before after : Database) : Prop :=
  (∃ row ∈ before.entries.rows, row.id = id) ∧ after.entries = before.entries ∧
    (∃ run ∈ after.runs.rows, run.id = runId ∧ run.queueEntryId = id) ∧
    after.runs.rows.filter (fun run => run.id ≠ runId) =
      before.runs.rows.filter fun run => run.id ≠ runId

/-- What an operation may do to the tables: a transition and a registration write for the row of
their entry, or raise and write nothing; the others leave every row there is. -/
def WritesOwnRow (p : Process) (operation : Operation) : Prop :=
  ∀ p', perform host p operation = some p' →
    match operation with
    | .transition handle event driver =>
      ∀ h, p.handles[handle]? = some h →
        if driver.writeFails then p'.db = p.db
        else
          match transition h.entry event with
          | .error _ => p'.db = p.db
          | .ok nxt => WrittenTo h.row (fun row => row.withState nxt driver.now) p.db p'.db
    | .registerRun handle run driver =>
      ∀ h, p.handles[handle]? = some h →
        if driver.writeFails then p'.db = p.db else RegisteredFor h.row run.runId p.db p'.db
    | _ => p.db.entries.rows <+: p'.db.entries.rows ∧ p'.db.runs = p.db.runs

instance decidableLatestIsOwn (p : Process) : ∀ operation, Decidable (LatestIsOwn p operation)
  | .enqueue _ _ | .nextGrabbable _ _ | .listQueue _ _ => isTrue trivial
  | .transition handle _ _ | .registerRun handle _ _ =>
    inferInstanceAs (Decidable (∀ h ∈ p.handles[handle]?, latest p.met h.entry.number = some h.row))

instance decidableWrittenTo (id : Text) (f : Row → Row) (before after : Database) :
    Decidable (WrittenTo id f before after) :=
  inferInstanceAs (Decidable (_ ∧ _ ∧ _))

instance decidableRegisteredFor (id runId : Text) (before after : Database) :
    Decidable (RegisteredFor id runId before after) :=
  inferInstanceAs (Decidable (_ ∧ _ ∧ _ ∧ _))

instance decidableWritesOwnRow (p : Process) : ∀ operation, Decidable (WritesOwnRow host p operation)
  | .enqueue issue driver =>
    inferInstanceAs (Decidable (∀ p' ∈ perform host p (.enqueue issue driver),
      p.db.entries.rows <+: p'.db.entries.rows ∧ p'.db.runs = p.db.runs))
  | .nextGrabbable workspaceId driver =>
    inferInstanceAs (Decidable (∀ p' ∈ perform host p (.nextGrabbable workspaceId driver),
      p.db.entries.rows <+: p'.db.entries.rows ∧ p'.db.runs = p.db.runs))
  | .listQueue workspaceId driver =>
    inferInstanceAs (Decidable (∀ p' ∈ perform host p (.listQueue workspaceId driver),
      p.db.entries.rows <+: p'.db.entries.rows ∧ p'.db.runs = p.db.runs))
  | .transition handle event driver =>
    have (p' : Process) (h : Handle) : Decidable
        (match transition h.entry event with
          | .error _ => p'.db = p.db
          | .ok nxt => WrittenTo h.row (fun row => row.withState nxt driver.now) p.db p'.db) := by
      cases transition h.entry event <;> infer_instance
    inferInstanceAs (Decidable (∀ p' ∈ perform host p (.transition handle event driver),
      ∀ h ∈ p.handles[handle]?, if driver.writeFails then p'.db = p.db else
        match transition h.entry event with
        | .error _ => p'.db = p.db
        | .ok nxt => WrittenTo h.row (fun row => row.withState nxt driver.now) p.db p'.db))
  | .registerRun handle run driver =>
    inferInstanceAs (Decidable (∀ p' ∈ perform host p (.registerRun handle run driver),
      ∀ h ∈ p.handles[handle]?,
        if driver.writeFails then p'.db = p.db else RegisteredFor h.row run.runId p.db p'.db))

/-! ## The identity map -/

/-- The store has under every number the row met last. -/
def Bound (store : QueueStore) (met : List (Nat × Text)) : Prop :=
  ∀ number, latest met number = (store.identity.get number).map Identity.id

theorem Bound.remember {store : QueueStore} {met : List (Nat × Text)} (h : Bound store met)
    (number : Nat) (row : Row) :
    Bound (store.remember number row) ((number, row.id) :: met) := by
  intro n
  have hget : (store.remember number row).identity.get n =
      if number = n then some row.identity else store.identity.get n :=
    store.identity.get_set _ _ _
  rw [hget]
  unfold latest
  by_cases hn : number = n
  · rw [if_pos hn, List.find?_cons_of_pos (by simpa using hn)]
    rfl
  · rw [if_neg hn, List.find?_cons_of_neg (by simpa using hn)]
    exact h n

theorem mem_of_latest (met : List (Nat × Text)) (number : Nat) (id : Text)
    (h : latest met number = some id) : (number, id) ∈ met := by
  unfold latest at h
  obtain ⟨m, hm, rfl⟩ := Option.map_eq_some_iff.mp h
  have hnumber : m.1 = number := by simpa using List.find?_some hm
  rw [← hnumber]
  exact List.mem_of_find?_eq_some hm

theorem latest_of_mem (met : List (Nat × Text)) (number : Nat) (id : Text)
    (h : (number, id) ∈ met) : ∃ id', latest met number = some id' := by
  unfold latest
  cases hfound : met.find? fun m => m.1 = number with
  | some m => exact ⟨m.2, rfl⟩
  | none => exact absurd (List.find?_eq_none.mp hfound _ h) (by simp)

/-! ## Rehydration -/

def rehydrate (p : Process) (rows : List Row) : Process :=
  let done := QueueStore.rowsToEntries host p.store rows
  p.afterRead host rows (done.1.toOption.getD []) done.2

theorem perform_listQueue (p : Process) (workspaceId : Text) (driver : Driver) :
    perform host p (.listQueue workspaceId driver) =
      some (rehydrate host p (p.db.listQueue driver workspaceId)) := rfl

theorem perform_nextGrabbable (p : Process) (workspaceId : Text) (driver : Driver) :
    perform host p (.nextGrabbable workspaceId driver) =
      some (rehydrate host p (p.db.nextGrabbable driver workspaceId)) := by
  simp only [perform, rehydrate, QueueStore.nextGrabbable]
  cases hrows : p.db.nextGrabbable driver workspaceId with
  | nil => rfl
  | cons row rows =>
    have hnil : rows = [] := by
      unfold Database.nextGrabbable at hrows
      cases hfirst : Table.firstBy Row.createdAt driver.scan (p.db.entries.select fun row =>
        row.workspaceId = workspaceId ∧ row.state = "queued") <;> simp_all
    subst hnil
    simp only [QueueStore.rowsToEntries]
    cases QueueStore.rowToEntry host p.store row with
    | mk read store => cases read <;> rfl

theorem meetRows_mono (met : List (Nat × Text)) (rows : List Row) :
    met ⊆ meetRows host met rows := by
  induction rows generalizing met with
  | nil => exact List.Subset.refl _
  | cons row rows ih =>
    unfold meetRows
    split
    · exact List.Subset.refl _
    · split
      · exact List.subset_cons_self _ _
      · exact List.Subset.trans (List.subset_cons_self _ _) (ih _)

theorem rowsToEntries_bound (store : QueueStore) (met : List (Nat × Text)) (rows : List Row)
    (h : Bound store met) :
    Bound (QueueStore.rowsToEntries host store rows).2 (meetRows host met rows) := by
  induction rows generalizing store met with
  | nil => exact h
  | cons row rows ih =>
    unfold QueueStore.rowsToEntries QueueStore.rowToEntry meetRows
    cases entryNumber host row.workspaceId row.source row.externalId with
    | error error => exact h
    | ok number =>
      cases hread : QueueStore.readEntry number row with
      | error error => simpa [hread] using h.remember number row
      | ok entry => simpa [hread] using ih _ _ (h.remember number row)

theorem readEntry_number (number : Nat) (row : Row) (entry : QueueEntry)
    (h : QueueStore.readEntry number row = .ok entry) : entry.number = number := by
  unfold QueueStore.readEntry at h
  obtain ⟨state, -, h⟩ := (except_bind_eq_ok _ _ _).mp h
  obtain ⟨tier, -, h⟩ := (except_bind_eq_ok _ _ _).mp h
  cases h
  rfl

theorem meetRows_read (met : List (Nat × Text)) (row : Row) (rows : List Row) (number : Nat)
    (entry : QueueEntry)
    (hnumber : entryNumber host row.workspaceId row.source row.externalId = .ok number)
    (hread : QueueStore.readEntry number row = .ok entry) :
    meetRows host met (row :: rows) = meetRows host ((number, row.id) :: met) rows := by
  rw [meetRows, hnumber]
  simp only [hread]

/-- Every entry read back was met under its number. -/
theorem rowsToEntries_met (store : QueueStore) (met : List (Nat × Text)) (rows : List Row)
    (entries : List QueueEntry)
    (h : (QueueStore.rowsToEntries host store rows).1 = .ok entries) :
    ∀ read ∈ entries.zip rows, (read.1.number, read.2.id) ∈ meetRows host met rows := by
  induction rows generalizing store met entries with
  | nil => simp
  | cons row rows ih =>
    unfold QueueStore.rowsToEntries QueueStore.rowToEntry at h
    cases hnumber : entryNumber host row.workspaceId row.source row.externalId with
    | error error =>
      rw [hnumber] at h
      cases h
    | ok number =>
      simp only [hnumber] at h
      cases hread : QueueStore.readEntry number row with
      | error error =>
        simp only [hread] at h
        cases h
      | ok entry =>
        simp only [hread] at h
        cases hrest : (QueueStore.rowsToEntries host (store.remember number row) rows).1 with
        | error error =>
          rw [hrest] at h
          cases h
        | ok rest =>
          rw [hrest] at h
          cases h
          rw [meetRows_read host met row rows number entry hnumber hread]
          intro read hmem
          rcases List.mem_cons.mp hmem with rfl | hmem
          · rw [readEntry_number number row entry hread]
            exact meetRows_mono host _ rows List.mem_cons_self
          · exact ih _ _ rest hrest read hmem

theorem listQueue_stored (db : Database) (driver : Driver) (workspaceId : Text) :
    db.listQueue driver workspaceId ⊆ db.entries.rows := by
  intro row hrow
  have hselected := (List.mergeSort_perm _ _).mem_iff.mp hrow
  exact ((db.entries.mem_select _ row).mp hselected).1

theorem nextGrabbable_stored (db : Database) (driver : Driver) (workspaceId : Text) :
    db.nextGrabbable driver workspaceId ⊆ db.entries.rows := by
  intro row hrow
  have hfirst := Table.firstBy_mem _ _ _ row (Option.mem_toList.mp hrow)
  exact ((db.entries.mem_select _ row).mp hfirst).1

/-! ## Enqueueing -/

theorem gateIssue_identity (store : QueueStore) (issue : Issue) (driver : Driver) :
    (QueueStore.gateIssue host store issue driver).2.identity = store.identity := by
  have hledger : ∀ ledger, (if host.guardrailsV2 then { store with ledger := ledger }
      else store).identity = store.identity := by
    intro ledger
    split <;> rfl
  unfold QueueStore.gateIssue
  split
  · rfl
  · dsimp only
    split
    · exact hledger _
    · exact hledger _

/-- What an enqueueing leaves: the process as it was but for the ledger, or with the row of the
issue met, and stored unless the driver raised. -/
theorem perform_enqueue {p p' : Process} (issue : Issue) (driver : Driver)
    (h : perform host p (.enqueue issue driver) = some p') :
    ∃ store : QueueStore, store.identity = p.store.identity ∧
      (p' = { p with store := store } ∨ ∃ entry row,
        p'.store = store.remember entry.number row ∧
        p'.met = (entry.number, row.id) :: p.met ∧
        (p'.db = p.db ∧ p'.handles = p.handles ∨
          p'.db = p.db.insertEntry row ∧ p'.handles = p.handles ++ [⟨entry, row.id⟩])) := by
  have hidentity := gateIssue_identity host p.store issue driver
  simp only [perform, QueueStore.enqueue, meetIssue] at h
  cases hgate : QueueStore.gateIssue host p.store issue driver with
  | mk result store =>
    rw [hgate] at h hidentity
    refine ⟨store, hidentity, ?_⟩
    rcases result with error | entry | missingAc
    · cases h
      exact .inl (by simp)
    · right
      refine ⟨entry, QueueStore.issueRow host issue entry driver.now, ?_⟩
      cases hwrite : driver.writeFails with
      | true =>
        simp only [hwrite] at h
        cases h
        exact ⟨rfl, rfl, .inl ⟨rfl, by simp⟩⟩
      | false =>
        simp only [hwrite] at h
        cases h
        exact ⟨rfl, rfl, .inr ⟨rfl, rfl⟩⟩
    · cases h
      exact .inl (by simp)

theorem insertEntry_rows (db : Database) (row : Row) :
    (db.insertEntry row).entries.rows = db.entries.rows ++ [row] ∨
      (db.insertEntry row).entries = db.entries ∧ ∃ r ∈ db.entries.rows, r.id = row.id := by
  unfold Database.insertEntry
  cases hinsert : db.entries.insert row with
  | some entries => exact .inl (db.entries.rows_insert entries row hinsert)
  | none =>
    obtain ⟨key, hkey, hrow⟩ := (db.entries.insert_eq_none row).mp hinsert
    rw [List.mem_singleton.mp hkey] at hrow
    exact .inr ⟨rfl, List.mem_map.mp hrow⟩

theorem insertEntry_grows (db : Database) (row : Row) :
    db.entries.rows <+: (db.insertEntry row).entries.rows := by
  rcases insertEntry_rows db row with h | ⟨h, -⟩
  · rw [h]
    exact List.prefix_append _ _
  · rw [h]

theorem insertEntry_stored (db : Database) (row : Row) :
    ∃ r ∈ (db.insertEntry row).entries.rows, r.id = row.id := by
  rcases insertEntry_rows db row with h | ⟨h, hrow⟩
  · rw [h]
    exact ⟨row, by simp, rfl⟩
  · rw [h]
    exact hrow

/-! ## What every run keeps -/

/-- The map is up to date, and every entry was met in a row that is still there. -/
structure Sound (p : Process) : Prop where
  bound : Bound p.store p.met
  stored : ∀ h ∈ p.handles, ∃ row ∈ p.db.entries.rows, row.id = h.row
  known : ∀ h ∈ p.handles, (h.entry.number, h.row) ∈ p.met

theorem Sound.rehydrate {p : Process} (hp : Sound p) (rows : List Row)
    (hrows : rows ⊆ p.db.entries.rows) : Sound (rehydrate host p rows) where
  bound := rowsToEntries_bound host p.store p.met rows hp.bound
  stored := by
    intro h hh
    rcases List.mem_append.mp hh with hh | hh
    · exact hp.stored h hh
    · obtain ⟨read, hread, rfl⟩ := List.mem_map.mp hh
      exact ⟨read.2, hrows (List.of_mem_zip hread).2, rfl⟩
  known := by
    intro h hh
    rcases List.mem_append.mp hh with hh | hh
    · exact meetRows_mono host p.met rows (hp.known h hh)
    · obtain ⟨read, hread, rfl⟩ := List.mem_map.mp hh
      cases hentries : (QueueStore.rowsToEntries host p.store rows).1 with
      | error error => simp [hentries, Except.toOption] at hread
      | ok entries =>
        simp only [hentries, Except.toOption, Option.getD_some] at hread
        exact rowsToEntries_met host p.store p.met rows entries hentries read hread

theorem Sound.enqueue {p p' : Process} (hp : Sound p) (issue : Issue) (driver : Driver)
    (h : perform host p (.enqueue issue driver) = some p') : Sound p' := by
  obtain ⟨store, hidentity, hkept | ⟨entry, row, hstore, hmet, hdb⟩⟩ :=
    perform_enqueue host issue driver h
  · subst hkept
    refine ⟨fun number => ?_, hp.stored, hp.known⟩
    rw [hidentity]
    exact hp.bound number
  have hbound : Bound store p.met := by
    intro number
    rw [hidentity]
    exact hp.bound number
  have hstored : ∀ h ∈ p.handles, ∃ r ∈ p'.db.entries.rows, r.id = h.row := by
    intro h hh
    obtain ⟨r, hr, hid⟩ := hp.stored h hh
    refine ⟨r, ?_, hid⟩
    rcases hdb with ⟨hdb, -⟩ | ⟨hdb, -⟩
    · rw [hdb]
      exact hr
    · rw [hdb]
      exact (insertEntry_grows p.db row).subset hr
  refine ⟨?_, ?_, ?_⟩
  · rw [hstore, hmet]
    exact hbound.remember entry.number row
  · rcases hdb with ⟨-, hhandles⟩ | ⟨hdb, hhandles⟩
    · rw [hhandles]
      exact hstored
    · rw [hhandles]
      intro h hh
      rcases List.mem_append.mp hh with hh | hh
      · exact hstored h hh
      · rw [List.mem_singleton.mp hh, hdb]
        exact insertEntry_stored p.db row
  · rw [hmet]
    rcases hdb with ⟨-, hhandles⟩ | ⟨-, hhandles⟩
    · rw [hhandles]
      exact fun h hh => List.mem_cons_of_mem _ (hp.known h hh)
    · rw [hhandles]
      intro h hh
      rcases List.mem_append.mp hh with hh | hh
      · exact List.mem_cons_of_mem _ (hp.known h hh)
      · rw [List.mem_singleton.mp hh]
        exact List.mem_cons_self

/-! ## Writing -/

theorem transition_number (entry nxt : QueueEntry) (event : Event)
    (h : transition entry event = .ok nxt) : nxt.number = entry.number := by
  cases transition_fired entry nxt event h <;> rfl

/-- A transition writes nothing, or the entry to the row of its number. -/
theorem transition_cases (store : QueueStore) (db : Database) (entry : QueueEntry) (event : Event)
    (driver : Driver) :
    (∃ error, store.transition db entry event driver = (.error error, db)) ∨
      ∃ nxt ident, transition entry event = .ok nxt ∧ driver.writeFails = false ∧
        store.identity.get entry.number = some ident ∧
        store.transition db entry event driver =
          (.ok nxt, db.updateEntry ident.id nxt driver.now) := by
  unfold QueueStore.transition
  cases hfired : transition entry event with
  | error error => exact .inl ⟨_, rfl⟩
  | ok nxt =>
    have hnumber := transition_number entry nxt event hfired
    simp only [hnumber]
    cases hident : store.identity.get entry.number with
    | none => exact .inl ⟨_, rfl⟩
    | some ident =>
      cases hwrite : driver.writeFails with
      | true => exact .inl ⟨_, rfl⟩
      | false => exact .inr ⟨nxt, ident, rfl, rfl, rfl, rfl⟩

theorem updateEntry_stored (db : Database) (id : Text) (entry : QueueEntry) (now : Int)
    (key : Text) (h : ∃ row ∈ db.entries.rows, row.id = key) :
    ∃ row ∈ (db.updateEntry id entry now).entries.rows, row.id = key := by
  obtain ⟨row, hrow, hid⟩ := h
  refine ⟨_, List.mem_map.mpr ⟨row, hrow, rfl⟩, ?_⟩
  split
  · exact hid
  · exact hid

theorem Sound.transition {p p' : Process} (hp : Sound p) (handle : Nat) (event : Event)
    (driver : Driver) (h : perform host p (.transition handle event driver) = some p') :
    Sound p' := by
  obtain ⟨held, hheld, hdone⟩ := Option.map_eq_some_iff.mp h
  have hmem : held ∈ p.handles := List.mem_of_getElem? hheld
  subst hdone
  rcases transition_cases p.store p.db held.entry event driver with
    ⟨error, hcall⟩ | ⟨nxt, ident, hfired, -, -, hcall⟩
  · simp only [hcall, List.append_nil]
    exact ⟨hp.bound, hp.stored, hp.known⟩
  · simp only [hcall]
    refine ⟨hp.bound, ?_, ?_⟩
    · intro h hh
      refine updateEntry_stored p.db ident.id nxt driver.now h.row ?_
      rcases List.mem_append.mp hh with hh | hh
      · exact hp.stored h hh
      · rw [List.mem_singleton.mp hh]
        exact hp.stored held hmem
    · intro h hh
      rcases List.mem_append.mp hh with hh | hh
      · exact hp.known h hh
      · rw [List.mem_singleton.mp hh]
        show (nxt.number, held.row) ∈ p.met
        rw [transition_number held.entry nxt event hfired]
        exact hp.known held hmem

theorem registerRun_entries (store : QueueStore) (db : Database) (entry : QueueEntry)
    (run : QueueStore.RunState) (driver : Driver) :
    (store.registerRun host db entry run driver).2.entries = db.entries := by
  unfold QueueStore.registerRun
  split
  · rfl
  · split <;> rfl

theorem Sound.registerRun {p p' : Process} (hp : Sound p) (handle : Nat)
    (run : QueueStore.RunState) (driver : Driver)
    (h : perform host p (.registerRun handle run driver) = some p') : Sound p' := by
  obtain ⟨held, hheld, hdone⟩ := Option.map_eq_some_iff.mp h
  subst hdone
  refine ⟨hp.bound, ?_, hp.known⟩
  rw [registerRun_entries]
  exact hp.stored

theorem sound_perform (p : Process) (operation : Operation) (p' : Process)
    (h : perform host p operation = some p') (hp : Sound p) : Sound p' := by
  cases operation with
  | enqueue issue driver => exact hp.enqueue host issue driver h
  | nextGrabbable workspaceId driver =>
    rw [perform_nextGrabbable] at h
    cases h
    exact hp.rehydrate host _ (nextGrabbable_stored p.db driver workspaceId)
  | listQueue workspaceId driver =>
    rw [perform_listQueue] at h
    cases h
    exact hp.rehydrate host _ (listQueue_stored p.db driver workspaceId)
  | transition handle event driver => exact hp.transition host handle event driver h
  | registerRun handle run driver => exact hp.registerRun host handle run driver h

theorem sound_fresh (db : Database) : Sound { db := db } where
  bound := fun _ => rfl
  stored := nofun
  known := nofun

/-! ## The row that is written -/

theorem Sound.identity {p : Process} (hp : Sound p) (entry : QueueEntry) (row : Text)
    (ident : Identity) (hlatest : latest p.met entry.number = some row)
    (hident : p.store.identity.get entry.number = some ident) : ident.id = row := by
  have hbound := hp.bound entry.number
  rw [hlatest, hident] at hbound
  exact (Option.some.inj hbound).symm

theorem Sound.known_identity {p : Process} (hp : Sound p) (h : Handle) (hh : h ∈ p.handles) :
    ∃ ident, p.store.identity.get h.entry.number = some ident := by
  obtain ⟨id, hid⟩ := latest_of_mem p.met h.entry.number h.row (hp.known h hh)
  have hbound := hp.bound h.entry.number
  rw [hid] at hbound
  obtain ⟨ident, hident, -⟩ := Option.map_eq_some_iff.mp hbound.symm
  exact ⟨ident, hident⟩

/-- An update leaves the rows alone that it does not select. -/
theorem filter_update (rows : List RunRow) (run : RunRow) :
    (rows.map fun row => if row.id = run.id then Database.excluded run row else row).filter
        (fun row => row.id ≠ run.id) = rows.filter fun row => row.id ≠ run.id := by
  induction rows with
  | nil => rfl
  | cons row rows ih =>
    rw [List.map_cons]
    by_cases hid : row.id = run.id
    · have hkept : (Database.excluded run row).id = run.id := hid
      rw [if_pos hid, List.filter_cons_of_neg (by simp [hkept]),
        List.filter_cons_of_neg (by simp [hid]), ih]
    · rw [if_neg hid, List.filter_cons_of_pos (by simp [hid]),
        List.filter_cons_of_pos (by simp [hid]), ih]

theorem upsertRun_registered (db : Database) (id : Text) (run : RunRow)
    (hrow : ∃ row ∈ db.entries.rows, row.id = id) (hrun : run.queueEntryId = id) :
    RegisteredFor id run.id db (db.upsertRun run) := by
  refine ⟨hrow, rfl, ?_⟩
  unfold Database.upsertRun
  cases hinsert : db.runs.insert run with
  | some runs =>
    have hrows := db.runs.rows_insert runs run hinsert
    rw [Option.getD_some, hrows]
    refine ⟨⟨run, by simp, rfl, hrun⟩, ?_⟩
    rw [List.filter_append, List.filter_cons_of_neg (by simp), List.filter_nil, List.append_nil]
  | none =>
    obtain ⟨key, hkey, hmem⟩ := (db.runs.insert_eq_none run).mp hinsert
    rw [List.mem_singleton.mp hkey] at hmem
    obtain ⟨row, hrow, hid⟩ := List.mem_map.mp hmem
    refine ⟨⟨Database.excluded run row, ?_, hid, hrun⟩, ?_⟩
    · refine List.mem_map.mpr ⟨row, hrow, ?_⟩
      rw [if_pos (by simpa using hid)]
    · simpa [Table.update] using filter_update db.runs.rows run

theorem writesOwnRow_transition (p : Process) (handle : Nat) (event : Event) (driver : Driver)
    (hp : Sound p) (hown : LatestIsOwn p (.transition handle event driver)) :
    WritesOwnRow host p (.transition handle event driver) := by
  intro p' hdone h hh
  obtain ⟨held, hheld, rfl⟩ := Option.map_eq_some_iff.mp hdone
  obtain rfl : held = h := Option.some.inj (hheld.symm.trans hh)
  have hmem := List.mem_of_getElem? hh
  obtain ⟨ident, hident⟩ := hp.known_identity held hmem
  have hrow := hp.identity held.entry held.row ident (hown held hh) hident
  cases hwrite : driver.writeFails with
  | true =>
    rcases transition_cases p.store p.db held.entry event driver with
      ⟨error, hcall⟩ | ⟨_, _, _, hnofail, _⟩
    · simp [hcall]
    · rw [hwrite] at hnofail
      cases hnofail
  | false =>
    rw [if_neg nofun]
    cases hfired : transition held.entry event with
    | error error => simp [QueueStore.transition, hfired]
    | ok nxt =>
      have hnumber := transition_number held.entry nxt event hfired
      refine ⟨hp.stored held hmem, ?_, ?_⟩
      · simp [QueueStore.transition, hfired, hnumber, hident, hwrite, Database.updateEntry,
          Table.update, hrow]
      · simp [QueueStore.transition, hfired, hnumber, hident, hwrite, Database.updateEntry]

theorem writesOwnRow_registerRun (p : Process) (handle : Nat) (run : QueueStore.RunState)
    (driver : Driver) (hp : Sound p) (hown : LatestIsOwn p (.registerRun handle run driver)) :
    WritesOwnRow host p (.registerRun handle run driver) := by
  intro p' hdone h hh
  obtain ⟨held, hheld, rfl⟩ := Option.map_eq_some_iff.mp hdone
  obtain rfl : held = h := Option.some.inj (hheld.symm.trans hh)
  have hmem := List.mem_of_getElem? hh
  obtain ⟨ident, hident⟩ := hp.known_identity held hmem
  have hrow := hp.identity held.entry held.row ident (hown held hh) hident
  simp only [QueueStore.registerRun, hident]
  cases hwrite : driver.writeFails with
  | true => rfl
  | false =>
    exact upsertRun_registered p.db held.row (QueueStore.runRow host ident run driver.now)
      (hp.stored held hmem) hrow

theorem writesOwnRow_of_latest (p : Process) (operation : Operation) (hp : Sound p)
    (hown : LatestIsOwn p operation) : WritesOwnRow host p operation := by
  cases operation with
  | enqueue issue driver =>
    intro p' hdone
    obtain ⟨store, -, rfl | ⟨entry, row, -, -, ⟨hdb, -⟩ | ⟨hdb, -⟩⟩⟩ :=
      perform_enqueue host issue driver hdone
    · exact ⟨List.prefix_rfl, rfl⟩
    · rw [hdb]
      exact ⟨List.prefix_rfl, rfl⟩
    · rw [hdb]
      exact ⟨insertEntry_grows p.db row, rfl⟩
  | nextGrabbable workspaceId driver =>
    intro p' hdone
    rw [perform_nextGrabbable] at hdone
    cases hdone
    exact ⟨List.prefix_rfl, rfl⟩
  | listQueue workspaceId driver =>
    intro p' hdone
    rw [perform_listQueue] at hdone
    cases hdone
    exact ⟨List.prefix_rfl, rfl⟩
  | transition handle event driver =>
    exact writesOwnRow_transition host p handle event driver hp hown
  | registerRun handle run driver =>
    exact writesOwnRow_registerRun host p handle run driver hp hown

/-- **The store writes the row it read**, in every run of a new process over any tables in which
each write meets the condition. -/
theorem store_writes_its_row (db : Database) (operations : List Operation)
    (h : Runs.Throughout (perform host) LatestIsOwn { db := db } operations) :
    Runs.Throughout (perform host) (WritesOwnRow host) { db := db } operations :=
  h.mono_invariant (sound_perform host) (sound_fresh db)
    (fun p operation hp hown => writesOwnRow_of_latest host p operation hp hown)

/-- Two rows were met under one number only if they are the same. -/
def NumbersApart (p : Process) : Prop :=
  ∀ m ∈ p.met, ∀ m' ∈ p.met, m.1 = m'.1 → m.2 = m'.2

instance (p : Process) : Decidable (NumbersApart p) :=
  inferInstanceAs (Decidable (∀ m ∈ p.met, ∀ m' ∈ p.met, m.1 = m'.1 → m.2 = m'.2))

theorem latestIsOwn_of_apart (p : Process) (operation : Operation) (hp : Sound p)
    (h : NumbersApart p) : LatestIsOwn p operation := by
  have hall : ∀ (handle : Nat) (held : Handle), p.handles[handle]? = some held →
      latest p.met held.entry.number = some held.row := by
    intro handle held hheld
    have hknown := hp.known held (List.mem_of_getElem? hheld)
    obtain ⟨id, hid⟩ := latest_of_mem p.met held.entry.number held.row hknown
    rw [hid]
    exact congrArg some (h _ (mem_of_latest p.met _ id hid) _ hknown rfl)
  cases operation with
  | transition handle event driver => exact hall handle
  | registerRun handle run driver => exact hall handle
  | _ => trivial

end

/-! ## Two workspaces -/

/-- The ids of issue 5 of the two workspaces below. -/
def sampleUuid5 (name : Text) : Text :=
  if name = "agentrail-queue:w1:github:5".toList then
    "7a90c509-4f70-5dd5-89c2-14003057f2bd".toList
  else if name = "agentrail-queue:w2:github:5".toList then
    "2e5e51b4-8863-5e0a-b943-f12f74b4d065".toList
  else []

def sampleHost : Host where
  gate := AdmissionParity.samplePy
  guardrailsV2 := false
  isDigit := isDecimal
  uuid5 := sampleUuid5

def sampleIssue (workspaceId : String) : Issue where
  workspaceId := workspaceId.toList
  source := "github".toList
  externalId := ['5']
  title := []
  body := "## Acceptance criteria\n- [ ] a\n".toList

def sampleDriver (now : Int) : Driver where
  now := now
  workspaceRows := some [some false]

def noTables : Database where
  entries := .empty
  runs := .empty

/-- The operations: both workspaces enqueue their issue, and the entry of the first is started. -/
def bothWorkspaces : List Operation :=
  [.enqueue (sampleIssue "w1") (sampleDriver 0), .enqueue (sampleIssue "w2") (sampleDriver 1),
   .transition 0 .start (sampleDriver 2)]

theorem store_writes_its_row_alone :
    Runs.Throughout (perform sampleHost) (WritesOwnRow sampleHost) { db := noTables }
      [.enqueue (sampleIssue "w1") (sampleDriver 0), .transition 0 .start (sampleDriver 1),
       .enqueue (sampleIssue "w2") (sampleDriver 2), .transition 2 .start (sampleDriver 3)] :=
  store_writes_its_row sampleHost noTables _ (by decide +kernel)

/-- The row of the first workspace stays queued, and the row of the second one runs. -/
theorem issue_of_other_workspace_written :
    ¬ Runs.Throughout (perform sampleHost) (WritesOwnRow sampleHost) { db := noTables }
        bothWorkspaces ∧
      (Runs.run (perform sampleHost) { db := noTables } bothWorkspaces).map
          (fun p => p.db.entries.rows.map fun row => (row.workspaceId, row.state)) =
        some [("w1".toList, "queued"), ("w2".toList, "running")] := by
  decide +kernel

end Agentrail.AfkQueue
