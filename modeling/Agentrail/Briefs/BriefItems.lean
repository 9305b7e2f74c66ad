import Agentrail.Js.Basic
import Agentrail.Lib.ReadCommitted

/-!
# Items of a brief (`queries/briefs.ts`)

The functions that write `brief_items`, as programs of SQL statements at READ COMMITTED.
`patchBriefItems` is one transaction that reads the rows its batch names and then updates them one
by one, with nothing but the identity and the brief in the `WHERE`; the others are on their own.

`brief_items_guaranteed`: in every run in which each update meets the row as its check took it to be (no
human's, and of the kind and in the state that were read, where the update leaves them), no patch
overwrites a row of a human, no unknown is resolved, and so every unknown blocks the brief.  Runs
that do not: `human_edit_overwritten` and `unknown_resolved`.
-/

namespace Agentrail.Briefs

open Js Interleaving ReadCommitted

/-! ## Rows and inputs -/

inductive BriefArea where
  | problem
  | users
  | constraints
  | scope
  | successSignal
  deriving DecidableEq, Repr

inductive BriefItemKind where
  | required
  | optional
  | unknown
  | outOfScope
  deriving DecidableEq, Repr

inductive BriefItemState where
  | open
  | resolved
  deriving DecidableEq, Repr

inductive BriefItemResolution where
  | implemented
  | deferred
  | rejected
  | satisfiedElsewhere
  deriving DecidableEq, Repr

inductive BriefAuthority where
  | human
  | jace
  deriving DecidableEq, Repr

/-- A row of `brief_items`; its `id` is the identity of its cell. -/
structure BriefItem where
  briefId : Text
  area : BriefArea
  statement : Text
  evidence : Text := []
  kind : BriefItemKind
  state : BriefItemState := .open
  resolution : Option BriefItemResolution := none
  authority : BriefAuthority := .jace
  deriving DecidableEq, Repr

/-- `none` where a key is missing. -/
structure PatchBriefItemInput where
  id : Option Text := none
  area : BriefArea
  statement : Text
  evidence : Option Text := none
  kind : BriefItemKind
  state : Option BriefItemState := none
  resolution : Option (Option BriefItemResolution) := none
  deriving DecidableEq, Repr

structure PatchBriefItemsResult where
  upserted : List BriefItem := []
  skippedHumanAuthorityIds : List Text := []
  skippedUnknownResolvedIds : List Text := []
  deriving DecidableEq, Repr

/-- What may never be. -/
def unknownResolved (kind : BriefItemKind) (state : BriefItemState) : Bool :=
  kind = .unknown && state = .resolved

/-! ## The functions -/

abbrev Program (α : Type) := Prog (Stmt Text BriefItem) α

/-- The `SET` of an update by `patchBriefItems`. -/
def PatchBriefItemInput.set (item : PatchBriefItemInput) (r : BriefItem) : BriefItem where
  briefId := r.briefId
  area := item.area
  statement := item.statement
  evidence := item.evidence.getD r.evidence
  kind := item.kind
  state := item.state.getD r.state
  resolution := item.resolution.getD r.resolution
  authority := r.authority

/-- The row of a new item. -/
def PatchBriefItemInput.newRow (briefId : Text) (item : PatchBriefItemInput) : BriefItem where
  briefId := briefId
  area := item.area
  statement := item.statement
  evidence := item.evidence.getD []
  kind := item.kind
  state := item.state.getD .open
  resolution := item.resolution.getD none

/-- An update by `patchBriefItems`; the check has taken the row to be no human's, and in the state
that was read. -/
def patchUpdate (briefId : Text) (tx : Nat) (id : Text) (item : PatchBriefItemInput)
    (existingState : BriefItemState) : Stmt Text BriefItem (Option BriefItem) :=
  .update (some tx) id (fun r => r.briefId = briefId) item.set
    (fun r => r.authority ≠ .human && (item.state.isSome || r.state = existingState))

/-- The loop of `patchBriefItems`: each item comes with the identity that a new row would get. -/
def patchLoop (briefId : Text) (tx : Nat) (existingById : Text → Option BriefItem) :
    List (PatchBriefItemInput × Text) → PatchBriefItemsResult → Program PatchBriefItemsResult
  | [], result => pure result
  | (item, newId) :: items, result =>
    -- an empty id counts as none
    let id := item.id.filter (· ≠ [])
    let existing := id.bind existingById
    let existingState := (existing.map (·.state)).getD .open
    if existing.any (·.authority = .human) then
      patchLoop briefId tx existingById items { result with
        skippedHumanAuthorityIds := result.skippedHumanAuthorityIds ++ [id.getD []] }
    else if unknownResolved item.kind (item.state.getD existingState) then
      patchLoop briefId tx existingById items { result with
        skippedUnknownResolvedIds :=
          result.skippedUnknownResolvedIds ++ [item.id.getD item.statement] }
    else
      match id with
      | some id => do
        let row ← Prog.stmt (patchUpdate briefId tx id item existingState)
        patchLoop briefId tx existingById items
          { result with upserted := result.upserted ++ row.toList }
      | none => do
        Prog.stmt (.insert (some tx) newId (item.newRow briefId))
        patchLoop briefId tx existingById items
          { result with upserted := result.upserted ++ [item.newRow briefId] }

def patchBriefItems (briefId : Text) (items : List (PatchBriefItemInput × Text)) :
    Program PatchBriefItemsResult :=
  if items = [] then pure {}
  else do
    let idsToCheck := items.filterMap fun i => i.1.id.filter (· ≠ [])
    let tx ← Prog.stmt .begin
    let existingById ← Prog.stmt
      (.select (some tx) fun x r => r.briefId = briefId && x ∈ idsToCheck)
    let result ← patchLoop briefId tx existingById items {}
    Prog.stmt (.commit tx)
    pure result

structure UpdateBriefItemAsHumanInput where
  area : Option BriefArea := none
  statement : Option Text := none
  evidence : Option Text := none
  kind : Option BriefItemKind := none
  state : Option BriefItemState := none
  resolution : Option (Option BriefItemResolution) := none
  deriving DecidableEq, Repr

def UpdateBriefItemAsHumanInput.set (fields : UpdateBriefItemAsHumanInput) (r : BriefItem) :
    BriefItem where
  briefId := r.briefId
  area := fields.area.getD r.area
  statement := fields.statement.getD r.statement
  evidence := fields.evidence.getD r.evidence
  kind := fields.kind.getD r.kind
  state := fields.state.getD r.state
  resolution := fields.resolution.getD r.resolution
  authority := .human

structure HumanEditResult where
  item : Option BriefItem
  refusedUnknownResolved : Bool
  deriving DecidableEq, Repr

def updateBriefItemAsHuman (briefId itemId : Text) (fields : UpdateBriefItemAsHumanInput) :
    Program HumanEditResult := do
  let rows ← Prog.stmt (.select none fun x r => x = itemId && r.briefId = briefId)
  match rows itemId with
  | none => pure ⟨none, false⟩
  | some existing =>
    if unknownResolved (fields.kind.getD existing.kind) (fields.state.getD existing.state) then
      pure ⟨none, true⟩
    else do
      let row ← Prog.stmt (.update none itemId (fun r => r.briefId = briefId) fields.set
        (fun r => (fields.kind.isSome || r.kind = existing.kind) &&
          (fields.state.isSome || r.state = existing.state)))
      pure ⟨row, false⟩

structure CreateBriefItemAsHumanInput where
  area : BriefArea
  statement : Text
  evidence : Option Text := none
  kind : BriefItemKind
  state : Option BriefItemState := none
  resolution : Option BriefItemResolution := none
  deriving DecidableEq, Repr

def createBriefItemAsHuman (briefId : Text) (input : CreateBriefItemAsHumanInput) (newId : Text) :
    Program HumanEditResult :=
  let state := input.state.getD .open
  if unknownResolved input.kind state then pure ⟨none, true⟩
  else do
    let row : BriefItem :=
      { briefId := briefId
        area := input.area
        statement := input.statement
        evidence := input.evidence.getD []
        kind := input.kind
        state := state
        resolution := input.resolution
        authority := .human }
    Prog.stmt (.insert none newId row)
    pure ⟨some row, false⟩

def deleteBriefItem (briefId itemId : Text) : Program Bool :=
  Prog.stmt (.delete none itemId fun r => r.briefId = briefId)

/-- The `blockingItems` of `computeBriefReadiness`, under their identities. -/
def computeBriefReadiness (briefId : Text) : Stmt Text BriefItem (Text → Option BriefItem) :=
  .select none fun _ r => r.briefId = briefId && r.state = .open && r.kind = .unknown

/-- `ready` of `computeBriefReadiness`. -/
def Ready (blockingItems : Text → Option BriefItem) : Prop := ∀ x, blockingItems x = none

/-! ## The system -/

/-- A call of one of the functions. -/
inductive Starts : Program Unit → Prop
  | patch (briefId : Text) (items : List (PatchBriefItemInput × Text)) :
    Starts (patchBriefItems briefId items >>= fun _ => pure ())
  | update (briefId itemId : Text) (fields : UpdateBriefItemAsHumanInput) :
    Starts (updateBriefItemAsHuman briefId itemId fields >>= fun _ => pure ())
  | create (briefId : Text) (input : CreateBriefItemAsHumanInput) (newId : Text) :
    Starts (createBriefItemAsHuman briefId input newId >>= fun _ => pure ())
  | delete (briefId itemId : Text) : Starts (deleteBriefItem briefId itemId >>= fun _ => pure ())

def system : System (Db Text BriefItem) (Stmt Text BriefItem) where
  exec := exec
  starts := Starts
  env := fun _ _ => False

def emptyDb : Db Text BriefItem := ⟨fun _ => {}, 0⟩

/-- What every statement has to wait for; nothing else. -/
def Waits ⦃β : Type⦄ (_ : List (Program Unit)) (s : Db Text BriefItem)
    (q : Stmt Text BriefItem β) : Prop :=
  enabled s q

/-- Every update meets the row as the check took it to be. -/
def WaitsOnBasis ⦃β : Type⦄ (_ : List (Program Unit)) (s : Db Text BriefItem)
    (q : Stmt Text BriefItem β) : Prop :=
  enabled s q ∧ onBasis s q

/-! ## The guarantees -/

/-- No commit of a transaction changes a row of a human: only patches are transactions. -/
def HumanKept (c : Cell BriefItem) : Prop :=
  ∀ tx old, c.committed = some old → old.authority = .human → (c.commit tx).committed = some old

/-- No version of the row is an unknown that is resolved. -/
def NeverUnknownResolved (c : Cell BriefItem) : Prop :=
  ∀ r, c.Version r → unknownResolved r.kind r.state = false

/-! ## The invariant -/

def Good (r : BriefItem) : Prop := unknownResolved r.kind r.state = false

/-- Nothing is asked of a version and the row as it was inserted. -/
def Any (_ _ : BriefItem) : Prop := True

/-- The row that a patch overwrites and its new version. -/
def Overwrites (old _ : BriefItem) : Prop := old.authority ≠ .human

def Inv (s : Db Text BriefItem) : Prop := ∀ x, (s.cells x).Ordered Good Any Overwrites

/-- What the programs guarantee of their statements. -/
def Guarantee ⦃β : Type⦄ (_ : Db Text BriefItem) : Stmt Text BriefItem β → Prop
  | .update tx _ _ set basis => ∀ r, basis r → Good (set r) ∧ (tx.isSome → r.authority ≠ .human)
  | .insert _ _ row => Good row
  | .delete tx _ _ => tx = none
  | _ => True

theorem exec_inv ⦃β : Type⦄ (q : Stmt Text BriefItem β) (s : Db Text BriefItem) (hs : Inv s)
    (hq : Guarantee s q) (hbasis : onBasis s q) : Inv (exec q s).2 := by
  refine exec_ordered q s hs ?_
  cases q with
  | update tx x p set basis =>
    intro r hr
    obtain ⟨hgood, hauthority⟩ := hq r (basis_of_onBasis s tx x p set basis hbasis r hr)
    exact ⟨hgood, fun _ _ _ => trivial, fun htx => ⟨hauthority htx, fun _ hold => hold⟩⟩
  | insert tx x row => exact ⟨hq, trivial⟩
  | delete tx x p => exact hq
  | _ => exact trivial

/-! ## The programs -/

theorem patchUpdate_guarantee (briefId : Text) (tx : Nat) (id : Text) (item : PatchBriefItemInput)
    (existingState : BriefItemState)
    (h : unknownResolved item.kind (item.state.getD existingState) = false)
    (s : Db Text BriefItem) : Guarantee s (patchUpdate briefId tx id item existingState) := by
  intro r hbasis
  simp only [Bool.and_eq_true, Bool.or_eq_true, decide_eq_true_eq] at hbasis
  refine ⟨?_, fun _ => by simpa using hbasis.1⟩
  have hstate : item.state.getD r.state = item.state.getD existingState := by
    rcases hbasis.2 with hsome | heq
    · obtain ⟨v, hv⟩ := Option.isSome_iff_exists.mp hsome
      rw [hv, Option.getD_some, Option.getD_some]
    · rw [heq]
  show unknownResolved item.kind (item.state.getD r.state) = false
  rw [hstate]
  exact h

theorem patchLoop_relies (briefId : Text) (tx : Nat) (existingById : Text → Option BriefItem)
    (items : List (PatchBriefItemInput × Text)) (result : PatchBriefItemsResult)
    (s : Db Text BriefItem) :
    Relies exec Inv Later Guarantee (patchLoop briefId tx existingById items result) s
      fun _ _ => True := by
  induction items generalizing result s with
  | nil => exact trivial
  | cons i items ih =>
    obtain ⟨item, newId⟩ := i
    simp only [patchLoop]
    split
    · exact ih _ _
    · split
      · exact ih _ _
      · next hchecked =>
        rw [Bool.not_eq_true] at hchecked
        split
        · rw [relies_stmt_bind]
          exact fun t _ _ => ⟨patchUpdate_guarantee briefId tx _ item _ hchecked t, ih _ _⟩
        · next hid =>
          rw [relies_stmt_bind]
          rw [hid] at hchecked
          exact fun t _ _ => ⟨hchecked, ih _ _⟩

theorem patch_relies (briefId : Text) (items : List (PatchBriefItemInput × Text))
    (s : Db Text BriefItem) :
    Relies exec Inv Later Guarantee (patchBriefItems briefId items) s fun _ _ => True := by
  unfold patchBriefItems
  split
  · exact trivial
  · rw [relies_stmt_bind]
    intro t _ _
    refine ⟨trivial, ?_⟩
    rw [relies_stmt_bind]
    intro u _ _
    refine ⟨trivial, ?_⟩
    rw [relies_bind]
    exact (patchLoop_relies briefId _ _ items {} _).imp fun _ _ _ _ _ _ => ⟨trivial, trivial⟩

theorem humanUpdate_relies (briefId itemId : Text) (fields : UpdateBriefItemAsHumanInput)
    (s : Db Text BriefItem) :
    Relies exec Inv Later Guarantee (updateBriefItemAsHuman briefId itemId fields) s
      fun _ _ => True := by
  unfold updateBriefItemAsHuman
  rw [relies_stmt_bind]
  intro t _ _
  refine ⟨trivial, ?_⟩
  split
  · exact trivial
  · next existing _ =>
    split
    · exact trivial
    · next hchecked =>
      rw [relies_stmt_bind]
      refine fun u _ _ => ⟨fun r hbasis => ⟨?_, fun htx => by cases htx⟩, trivial⟩
      simp only [Bool.and_eq_true, Bool.or_eq_true, decide_eq_true_eq] at hbasis
      have hkind : fields.kind.getD r.kind = fields.kind.getD existing.kind := by
        rcases hbasis.1 with hsome | heq
        · obtain ⟨v, hv⟩ := Option.isSome_iff_exists.mp hsome
          rw [hv, Option.getD_some, Option.getD_some]
        · rw [heq]
      have hstate : fields.state.getD r.state = fields.state.getD existing.state := by
        rcases hbasis.2 with hsome | heq
        · obtain ⟨v, hv⟩ := Option.isSome_iff_exists.mp hsome
          rw [hv, Option.getD_some, Option.getD_some]
        · rw [heq]
      show unknownResolved (fields.kind.getD r.kind) (fields.state.getD r.state) = false
      rw [hkind, hstate]
      exact Bool.not_eq_true _ ▸ hchecked

theorem create_relies (briefId : Text) (input : CreateBriefItemAsHumanInput) (newId : Text)
    (s : Db Text BriefItem) :
    Relies exec Inv Later Guarantee (createBriefItemAsHuman briefId input newId) s
      fun _ _ => True := by
  unfold createBriefItemAsHuman
  simp only []
  split
  · exact trivial
  · next hchecked =>
    exact fun t _ _ => ⟨by simpa [Guarantee, Good] using hchecked, trivial⟩

theorem starts_relies (p : Program Unit) (hp : Starts p) (s : Db Text BriefItem) :
    Relies exec Inv Later Guarantee p s fun _ _ => True := by
  cases hp with
  | patch briefId items => exact (relies_bind _ _ _ _).mpr (patch_relies briefId items s)
  | update briefId itemId fields =>
    exact (relies_bind _ _ _ _).mpr (humanUpdate_relies briefId itemId fields s)
  | create briefId input newId =>
    exact (relies_bind _ _ _ _).mpr (create_relies briefId input newId s)
  | delete briefId itemId => exact fun t _ _ => ⟨rfl, trivial⟩

theorem reaches_inv {c : Config (Db Text BriefItem) (Stmt Text BriefItem)}
    (h : system.Reaches WaitsOnBasis ⟨emptyDb, []⟩ c) : Inv c.store := by
  have hstart : ∀ p s, system.starts p →
      Relies system.exec Inv Later Guarantee p s fun _ _ => True :=
    fun p s hp => starts_relies p hp s
  have hcall : ∀ ⦃β : Type⦄ (q : Stmt Text BriefItem β) others s, Inv s → Guarantee s q →
      WaitsOnBasis others s q → Inv (system.exec q s).2 ∧ Later s (system.exec q s).2 :=
    fun _ q others s hs hq hC => ⟨exec_inv q s hs hq hC.2, exec_later q s⟩
  exact (system.reaches_trusts Later.refl Later.trans hstart hcall (fun _ _ _ he => he.elim) h
    ⟨fun _ => Cell.Ordered.empty, by simp⟩).1

/-! ## Runs -/

/-- **What the items keep.**  In every run in which each update meets the row as its check took it
to be, no patch changes a committed row of a human, no row is an unknown that is resolved, committed
or not, and every committed unknown is among the blocking items of its brief, which is not ready. -/
theorem brief_items_guaranteed (c : Config (Db Text BriefItem) (Stmt Text BriefItem))
    (hc : system.Reaches WaitsOnBasis ⟨emptyDb, []⟩ c) (x : Text) :
    HumanKept (c.store.cells x) ∧ NeverUnknownResolved (c.store.cells x) ∧
      ∀ r, (c.store.cells x).committed = some r → r.kind = .unknown →
        (exec (computeBriefReadiness r.briefId) c.store).1 x = some r ∧
          ¬ Ready (exec (computeBriefReadiness r.briefId) c.store).1 := by
  have h := reaches_inv hc x
  have hnever : NeverUnknownResolved (c.store.cells x) := fun r hr => (h.versions r hr).1
  refine ⟨fun tx old hold hhuman => ?_, hnever, fun r hr hkind => ?_⟩
  · rcases h.of_commit tx old hold with hsame | ⟨new, -, hnew⟩
    · exact hsame
    · exact absurd hhuman hnew
  · have hopen : r.state = .open := by
      have hr' := hnever r (Or.inl hr)
      cases hstate : r.state with
      | «open» => rfl
      | resolved => simp [unknownResolved, hkind, hstate] at hr'
    have hblocks : (exec (computeBriefReadiness r.briefId) c.store).1 x = some r := by
      have hvisible : (c.store.cells x).visible none = some r := by
        unfold Cell.visible
        split
        · rw [if_neg (by simp)]
          exact hr
        · exact hr
      simp [computeBriefReadiness, exec, hvisible, Option.filter, hopen, hkind]
    refine ⟨hblocks, fun hready => ?_⟩
    rw [hready x] at hblocks
    cases hblocks

/-! ## Some runs -/

def unknownItem : PatchBriefItemInput where
  area := .scope
  statement := "who approves?".toList
  kind := .unknown

/-- A patch adds an unknown. -/
def unknownAdded : List (System.Choice (Db Text BriefItem) (Stmt Text BriefItem)) :=
  [.start (patchBriefItems "b".toList [(unknownItem, "i".toList)] >>= fun _ => pure ()),
    .step 0, .step 0, .step 0, .step 0, .step 0]

/-- A patch has read the item when a human edits it, and goes on. -/
def editedMeanwhile : List (System.Choice (Db Text BriefItem) (Stmt Text BriefItem)) :=
  unknownAdded ++
    [.start (patchBriefItems "b".toList
        [({ unknownItem with id := some "i".toList, kind := .optional }, [])] >>= fun _ => pure ()),
      .step 0, .step 0,
      .start (updateBriefItemAsHuman "b".toList "i".toList
        { kind := some .required } >>= fun _ => pure ()),
      .step 0, .step 0, .step 0, .step 0]

/-- One batch makes the item required and resolved, and then an unknown again. -/
def resolvedAndUnknown : List (System.Choice (Db Text BriefItem) (Stmt Text BriefItem)) :=
  unknownAdded ++
    [.start (patchBriefItems "b".toList
        [({ unknownItem with id := some "i".toList, kind := .required, state := some .resolved }, []),
          ({ unknownItem with id := some "i".toList }, [])] >>= fun _ => pure ()),
      .step 0, .step 0, .step 0, .step 0, .step 0]

theorem unknownAdded_valid : ∀ choice ∈ unknownAdded, choice.Valid system := by
  simp only [unknownAdded, List.forall_mem_cons]
  exact ⟨.patch _ _, trivial, trivial, trivial, trivial, trivial, by simp⟩

/-- The unknown blocks. -/
theorem unknown_blocks : ¬ Ready (exec (computeBriefReadiness "b".toList)
    (system.schedule unknownAdded ⟨emptyDb, []⟩).store).1 := by
  have hrun : system.Reaches WaitsOnBasis ⟨emptyDb, []⟩ (system.schedule unknownAdded ⟨emptyDb, []⟩) :=
    system.schedule_reaches unknownAdded _ unknownAdded_valid
      (system.meets_of_check (fun _ _ s q => enabled s q && onBasis s q)
        (fun _ _ _ _ h => Bool.and_eq_true_iff.mp h) _ _ (by decide +kernel))
  have hrow : ((system.schedule unknownAdded ⟨emptyDb, []⟩).store.cells "i".toList).committed =
      some (unknownItem.newRow "b".toList) := by decide +kernel
  exact ((brief_items_guaranteed _ hrun "i".toList).2.2 _ hrow rfl).2

/-- A human's edit is overwritten, and an unknown is resolved. -/
theorem items_not_guaranteed :
    (∃ c, system.Reaches Waits ⟨emptyDb, []⟩ c ∧ ¬ HumanKept (c.store.cells "i".toList)) ∧
    ∃ c, system.Reaches Waits ⟨emptyDb, []⟩ c ∧
      ¬ NeverUnknownResolved (c.store.cells "i".toList) := by
  have hedited : ∀ choice ∈ editedMeanwhile, choice.Valid system := by
    rw [editedMeanwhile, List.forall_mem_append]
    refine ⟨unknownAdded_valid, ?_⟩
    simp only [List.forall_mem_cons]
    exact ⟨.patch _ _, trivial, trivial, .update _ _ _, trivial, trivial, trivial, trivial, by simp⟩
  have hresolved : ∀ choice ∈ resolvedAndUnknown, choice.Valid system := by
    rw [resolvedAndUnknown, List.forall_mem_append]
    refine ⟨unknownAdded_valid, ?_⟩
    simp only [List.forall_mem_cons]
    exact ⟨.patch _ _, trivial, trivial, trivial, trivial, trivial, by simp⟩
  have hrun := fun choices hvalid (hcheck : system.check (fun _ _ s q => enabled s q) choices
      ⟨emptyDb, []⟩ = true) =>
    system.schedule_reaches choices ⟨emptyDb, []⟩ hvalid
      (system.meets_of_check (C := Waits) (fun _ _ s q => enabled s q) (fun _ _ _ _ h => h) _ _ hcheck)
  refine ⟨⟨_, hrun editedMeanwhile hedited (by decide +kernel), fun hkept => ?_⟩,
    ⟨_, hrun resolvedAndUnknown hresolved (by decide +kernel), fun hnever => ?_⟩⟩
  · have hold : ((system.schedule editedMeanwhile ⟨emptyDb, []⟩).store.cells "i".toList).committed =
        some { unknownItem.newRow "b".toList with kind := .required, authority := .human } := by
      decide +kernel
    have hnew : ((system.schedule editedMeanwhile ⟨emptyDb, []⟩).store.cells "i".toList |>.commit
        1).committed =
        some { unknownItem.newRow "b".toList with kind := .optional, authority := .human } := by
      decide +kernel
    exact absurd (hnew.symm.trans (hkept 1 _ hold rfl)) (by decide)
  · have hrow : ((system.schedule resolvedAndUnknown ⟨emptyDb, []⟩).store.cells
        "i".toList).committed =
        some { unknownItem.newRow "b".toList with state := .resolved } := by
      decide +kernel
    exact absurd (hnever _ (Or.inl hrow)) (by decide)

end Agentrail.Briefs
