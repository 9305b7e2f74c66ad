import Agentrail.Js.Basic
import Agentrail.Lib.ReadCommitted

/-!
# Items of an investigation (`queries/investigations.ts`)

The functions that write `investigation_items`, as programs of SQL statements at READ COMMITTED.
`patchInvestigationItems` is one transaction: it reads the rows that its batch names, checks each
item against what it read, and updates rows one by one; the others are on their own.

`items_guaranteed`: in every run an evidence row stays as it was inserted and a row of a human is
not overwritten by a patch.  That a decided hypothesis has evidence, and that a patch keeps the kind
of a row, holds in every run in which each update meets the row as the check took it to be: the
check is made against what was read before, and one batch that names a row twice is enough to pass
it and break the rule (`supported_without_evidence`).
-/

namespace Agentrail.Investigations

open Js Interleaving ReadCommitted

/-! ## Rows and inputs -/

inductive Kind where
  | timelineEvent
  | evidence
  | hypothesis
  | finding
  | verdict
  | lessonCandidate
  deriving DecidableEq, Repr

inductive HypothesisState where
  | open
  | supported
  | refuted
  | inconclusive
  deriving DecidableEq, Repr

inductive Authority where
  | human
  | jace
  deriving DecidableEq, Repr

/-- A row of `investigation_items`; its `id` is the identity of its cell. -/
structure Item where
  investigationId : Text
  kind : Kind
  body : Text
  mechanism : Text := []
  state : Option HypothesisState := none
  evidenceRefs : List Text := []
  data : Json := .obj []
  authority : Authority := .jace

/-- What a caller sends of an item; `none` where the key is missing. -/
structure Patch where
  kind : Option Kind := none
  body : Option Text := none
  mechanism : Option Text := none
  state : Option (Option HypothesisState) := none
  evidenceRefs : Option (List Text) := none
  data : Option Json := none

structure PatchInvestigationItemInput extends Patch where
  id : Option Text := none

structure PatchInvestigationItemsResult where
  applied : List Text := []
  skippedHumanAuthorityIds : List Text := []
  skippedEvidenceImmutableIds : List Text := []
  skippedHypothesisNeedsEvidence : List Text := []
  skippedKindChangeIds : List Text := []
  unmatchedIds : List Text := []
  deriving DecidableEq, Repr

/-- A decided hypothesis without evidence. -/
def needsEvidence (kind : Option Kind) (state : Option HypothesisState) (evidenceRefs : List Text) :
    Bool :=
  kind = some .hypothesis && (state = some .supported || state = some .refuted) &&
    evidenceRefs = []

/-! ## What the checks take a row to be -/

/-- What a check takes the row of an item to be: what was read of it, else what the item itself
says. -/
structure Taken where
  kind : Option Kind
  state : Option HypothesisState
  evidenceRefs : List Text

def Taken.ofExisting (existing : Option Item) (patch : Patch) : Taken where
  kind := (existing.map (·.kind)).or patch.kind
  state := existing.bind (·.state)
  evidenceRefs := (existing.map (·.evidenceRefs)).getD []

def Patch.effectiveState (patch : Patch) (taken : Taken) : Option HypothesisState :=
  patch.state.getD taken.state

def Patch.effectiveRefs (patch : Patch) (taken : Taken) : List Text :=
  patch.evidenceRefs.getD taken.evidenceRefs

/-- The `SET` of an update: the columns whose keys are there. -/
def Patch.set (patch : Patch) (r : Item) : Item where
  investigationId := r.investigationId
  kind := patch.kind.getD r.kind
  body := patch.body.getD r.body
  mechanism := patch.mechanism.getD r.mechanism
  state := patch.state.getD r.state
  evidenceRefs := patch.evidenceRefs.getD r.evidenceRefs
  data := patch.data.getD r.data
  authority := r.authority

/-- The row is what the check took it to be, in the columns that the update leaves. -/
def Patch.agrees (patch : Patch) (taken : Taken) (r : Item) : Bool :=
  (patch.state.isSome || r.state = taken.state) &&
    (patch.evidenceRefs.isSome || r.evidenceRefs = taken.evidenceRefs)

/-! ## The functions -/

abbrev Program (α : Type) := Prog (Stmt Text Item) α

inductive Review where
  | humanAuthority
  | kindChange
  | evidenceImmutable
  | needsEvidence
  | write
  deriving DecidableEq, Repr

/-- The checks of `patchInvestigationItems` on one item. -/
def review (id : Option Text) (patch : Patch) (existing : Option Item) : Review :=
  if id.isSome && existing.any (·.authority = .human) then .humanAuthority
  else if id.isSome && existing.any (fun e => patch.kind.any (· ≠ e.kind)) then .kindChange
  else if existing.any (·.kind = .evidence) ||
      (existing.isNone && patch.kind = some .evidence) then .evidenceImmutable
  else
    let taken := Taken.ofExisting existing patch
    if needsEvidence taken.kind (patch.effectiveState taken) (patch.effectiveRefs taken) then
      .needsEvidence
    else .write

/-- An update by `patchInvestigationItems`, with the authority and the kind checked again. -/
def patchUpdate (investigationId : Text) (tx : Nat) (id : Text) (patch : Patch)
    (existing : Option Item) : Stmt Text Item (Option Item) :=
  let taken := Taken.ofExisting existing patch
  .update (some tx) id
    (fun r => r.investigationId = investigationId && r.authority ≠ .human && r.kind ≠ .evidence)
    patch.set (fun r => taken.kind = some r.kind && patch.agrees taken r)

/-- The row of a new item, if the item has a kind. -/
def newRow (investigationId : Text) (patch : Patch) : Option Item :=
  patch.kind.map fun kind =>
    { investigationId := investigationId
      kind := kind
      body := patch.body.getD []
      mechanism := patch.mechanism.getD []
      state := patch.state.getD none
      evidenceRefs := patch.evidenceRefs.getD []
      data := patch.data.getD (.obj []) }

/-- The loop of `patchInvestigationItems`: each item comes with the identity that a new row would
get; `none` when an insert throws. -/
def patchLoop (investigationId : Text) (tx : Nat) (byId : Text → Option Item) :
    List (PatchInvestigationItemInput × Text) → PatchInvestigationItemsResult →
      Program (Option PatchInvestigationItemsResult)
  | [], result => pure (some result)
  | (item, newId) :: items, result =>
    -- an empty id counts as none
    let id := item.id.filter (· ≠ [])
    let existing := id.bind byId
    let shown := item.id.getD (item.body.getD "new".toList)
    match review id item.toPatch existing with
    | .humanAuthority => patchLoop investigationId tx byId items
        { result with skippedHumanAuthorityIds := result.skippedHumanAuthorityIds ++ [shown] }
    | .kindChange => patchLoop investigationId tx byId items
        { result with skippedKindChangeIds := result.skippedKindChangeIds ++ [shown] }
    | .evidenceImmutable => patchLoop investigationId tx byId items
        { result with skippedEvidenceImmutableIds := result.skippedEvidenceImmutableIds ++ [shown] }
    | .needsEvidence => patchLoop investigationId tx byId items
        { result with
          skippedHypothesisNeedsEvidence := result.skippedHypothesisNeedsEvidence ++ [shown] }
    | .write =>
      match id with
      | some id => do
        let row ← Prog.stmt (patchUpdate investigationId tx id item.toPatch existing)
        if row.isSome then
          patchLoop investigationId tx byId items { result with applied := result.applied ++ [id] }
        else if existing.isSome then
          patchLoop investigationId tx byId items
            { result with skippedHumanAuthorityIds := result.skippedHumanAuthorityIds ++ [id] }
        else
          patchLoop investigationId tx byId items
            { result with unmatchedIds := result.unmatchedIds ++ [id] }
      | none =>
        match newRow investigationId item.toPatch with
        | none => pure none
        | some row => do
          Prog.stmt (.insert (some tx) newId row)
          patchLoop investigationId tx byId items { result with applied := result.applied ++ [newId] }

/-- `none` when it throws. -/
def patchInvestigationItems (investigationId : Text)
    (items : List (PatchInvestigationItemInput × Text)) :
    Program (Option PatchInvestigationItemsResult) :=
  if items = [] then pure (some {})
  else do
    let idsToCheck := items.filterMap fun i => i.1.id.filter (· ≠ [])
    let tx ← Prog.stmt .begin
    let byId ← Prog.stmt
      (.select (some tx) fun x r => r.investigationId = investigationId && x ∈ idsToCheck)
    let result ← patchLoop investigationId tx byId items {}
    match result with
    | some result => do
      Prog.stmt (.commit tx)
      pure (some result)
    | none => do
      Prog.stmt (.rollback tx)
      pure none

def appendEvidenceItem (investigationId body : Text) (data : Json) (newId : Text) : Program Text := do
  Prog.stmt (.insert none newId
    { investigationId := investigationId, kind := .evidence, body := body, data := data })
  pure newId

structure HumanEditResult where
  item : Option Item
  refusedEvidenceImmutable : Bool
  refusedHypothesisNeedsEvidence : Bool

def updateInvestigationItemAsHuman (itemId : Text) (patch : Patch) : Program HumanEditResult := do
  let rows ← Prog.stmt (.select none fun x _ => x = itemId)
  match rows itemId with
  | none => pure ⟨none, false, false⟩
  | some existing =>
    let effectiveKind := patch.kind.getD existing.kind
    let taken : Taken := ⟨some effectiveKind, existing.state, existing.evidenceRefs⟩
    if existing.kind = .evidence || effectiveKind = .evidence then pure ⟨none, true, false⟩
    else if needsEvidence taken.kind (patch.effectiveState taken) (patch.effectiveRefs taken) then
      pure ⟨none, false, true⟩
    else do
      let row ← Prog.stmt (.update none itemId (fun _ => true)
        (fun r => { patch.set r with authority := .human })
        (fun r => (patch.kind.isSome || r.kind = existing.kind) && patch.agrees taken r))
      pure ⟨row, false, false⟩

structure CreateInvestigationItemAsHumanInput where
  kind : Kind
  body : Text
  mechanism : Option Text := none
  state : Option HypothesisState := none
  evidenceRefs : Option (List Text) := none
  data : Option Json := none

def createInvestigationItemAsHuman (investigationId : Text)
    (item : CreateInvestigationItemAsHumanInput) (newId : Text) : Program HumanEditResult :=
  let evidenceRefs := item.evidenceRefs.getD []
  if item.kind = .evidence then pure ⟨none, true, false⟩
  else if needsEvidence (some item.kind) item.state evidenceRefs then pure ⟨none, false, true⟩
  else do
    let row : Item :=
      { investigationId := investigationId
        kind := item.kind
        body := item.body
        mechanism := item.mechanism.getD []
        state := item.state
        evidenceRefs := evidenceRefs
        data := item.data.getD (.obj [])
        authority := .human }
    Prog.stmt (.insert none newId row)
    pure ⟨some row, false, false⟩

def deleteInvestigationItem (itemId : Text) : Program Unit := do
  let _ ← Prog.stmt (.delete none itemId fun _ => true)
  pure ()

/-! ## The system -/

/-- A call of one of the functions. -/
inductive Starts : Program Unit → Prop
  | patch (investigationId : Text) (items : List (PatchInvestigationItemInput × Text)) :
    Starts (patchInvestigationItems investigationId items >>= fun _ => pure ())
  | append (investigationId body : Text) (data : Json) (newId : Text) :
    Starts (appendEvidenceItem investigationId body data newId >>= fun _ => pure ())
  | update (itemId : Text) (patch : Patch) :
    Starts (updateInvestigationItemAsHuman itemId patch >>= fun _ => pure ())
  | create (investigationId : Text) (item : CreateInvestigationItemAsHumanInput) (newId : Text) :
    Starts (createInvestigationItemAsHuman investigationId item newId >>= fun _ => pure ())
  | delete (itemId : Text) : Starts (deleteInvestigationItem itemId)

def system : System (Db Text Item) (Stmt Text Item) where
  exec := exec
  starts := Starts
  env := fun _ _ => False

def emptyDb : Db Text Item := ⟨fun _ => {}, 0⟩

/-- What every statement has to wait for; nothing else. -/
def Waits ⦃β : Type⦄ (_ : List (Program Unit)) (s : Db Text Item) (q : Stmt Text Item β) : Prop :=
  enabled s q

/-- Every update meets the row as the check took it to be. -/
def WaitsOnBasis ⦃β : Type⦄ (_ : List (Program Unit)) (s : Db Text Item)
    (q : Stmt Text Item β) : Prop :=
  enabled s q ∧ onBasis s q

/-! ## The guarantees -/

/-- A row of kind evidence is as it was inserted. -/
def EvidenceFixed (c : Cell Item) : Prop :=
  (∀ r, c.Version r → r.kind = .evidence → c.first = some r) ∧
    ∀ f, c.first = some f → f.kind = .evidence → ∀ r, c.Version r → r = f

/-- No commit of a transaction changes a row of a human: only patches are transactions. -/
def HumanKept (c : Cell Item) : Prop :=
  ∀ tx old, c.committed = some old → old.authority = .human → (c.commit tx).committed = some old

/-- No decided hypothesis is without evidence. -/
def Evidenced (c : Cell Item) : Prop :=
  ∀ r, c.Version r → needsEvidence (some r.kind) r.state r.evidenceRefs = false

/-- No commit of a transaction changes the kind of a row. -/
def KindKept (c : Cell Item) : Prop :=
  ∀ tx old, c.committed = some old → ∃ new, (c.commit tx).committed = some new ∧
    new.kind = old.kind

/-! ## The invariant -/

section
-- the run respects what the checks took the rows to be
variable (B : Prop)

def Good (r : Item) : Prop := B → needsEvidence (some r.kind) r.state r.evidenceRefs = false

/-- A version and the row as it was inserted. -/
def SameEvidence (f r : Item) : Prop := r.kind = .evidence ∨ f.kind = .evidence → r = f

/-- The row that a patch overwrites and its new version. -/
def Overwrites (old new : Item) : Prop := old.authority ≠ .human ∧ (B → new.kind = old.kind)

def Inv (s : Db Text Item) : Prop :=
  ∀ x, (s.cells x).Ordered (Good B) SameEvidence (Overwrites B)

end

/-! ## What the programs guarantee of their statements -/

def Guarantee ⦃β : Type⦄ (s : Db Text Item) : Stmt Text Item β → Prop
  | .update tx x p set basis => ∀ r, (s.cells x).target tx p = some r →
      r.kind ≠ .evidence ∧ (set r).kind ≠ .evidence ∧
      (basis r → needsEvidence (some (set r).kind) (set r).state (set r).evidenceRefs = false) ∧
      (tx.isSome → r.authority ≠ .human ∧ (basis r → (set r).kind = r.kind))
  | .insert _ _ row => needsEvidence (some row.kind) row.state row.evidenceRefs = false
  | .delete tx _ _ => tx = none
  | _ => True

variable {B : Prop}

theorem exec_inv ⦃β : Type⦄ (q : Stmt Text Item β) (s : Db Text Item) (hs : Inv B s)
    (hq : Guarantee s q) (hbasis : B → onBasis s q) : Inv B (exec q s).2 := by
  refine exec_ordered q s hs ?_
  cases q with
  | update tx x p set basis =>
    intro r hr
    obtain ⟨hkind, hnew, hevidenced, hpatch⟩ := hq r hr
    have hr' : B → basis r := fun hB => basis_of_onBasis s tx x p set basis (hbasis hB) r hr
    refine ⟨fun hB => hevidenced (hr' hB), fun f _ hfr => ?_, fun htx => ?_⟩
    · rintro (hk | hk)
      · exact absurd hk hnew
      · rw [hfr (Or.inr hk)] at hkind
        exact absurd hk hkind
    · obtain ⟨hauthority, hsame⟩ := hpatch htx
      refine ⟨⟨hauthority, fun hB => hsame (hr' hB)⟩, fun old hold => ⟨hold.1, fun hB => ?_⟩⟩
      rw [hsame (hr' hB), hold.2 hB]
  | insert tx x row => exact ⟨fun _ => hq, fun _ => rfl⟩
  | delete tx x p => exact hq
  | _ => exact trivial

/-! ## The patch -/

theorem review_write (id : Option Text) (patch : Patch) (existing : Option Item)
    (hid : existing.isSome → id.isSome) (h : review id patch existing = .write) :
    patch.kind ≠ some .evidence ∧ (∀ e k, existing = some e → patch.kind = some k → k = e.kind) ∧
      needsEvidence (Taken.ofExisting existing patch).kind
        (patch.effectiveState (Taken.ofExisting existing patch))
        (patch.effectiveRefs (Taken.ofExisting existing patch)) = false := by
  unfold review at h
  split at h
  · cases h
  · split at h
    · cases h
    · next hkind =>
      split at h
      · cases h
      · next hevidence =>
        simp only [] at h
        split at h
        · cases h
        · next hneeds =>
          have hsame : ∀ e k, existing = some e → patch.kind = some k → k = e.kind := by
            rintro e k rfl hk
            by_contra hne
            refine hkind ?_
            simp [hid rfl, hk, hne]
          refine ⟨?_, hsame, by simpa using hneeds⟩
          intro hk
          refine hevidence ?_
          cases existing with
          | none => simp [hk]
          | some e => simp [← hsame e _ rfl hk]

theorem Patch.set_of_agrees (patch : Patch) (taken : Taken) (r : Item) (h : patch.agrees taken r) :
    (patch.set r).state = patch.effectiveState taken ∧
      (patch.set r).evidenceRefs = patch.effectiveRefs taken := by
  simp only [Patch.agrees, Bool.and_eq_true, Bool.or_eq_true, decide_eq_true_eq] at h
  constructor
  · rcases h.1 with hsome | heq
    · obtain ⟨v, hv⟩ := Option.isSome_iff_exists.mp hsome
      simp [Patch.set, Patch.effectiveState, hv]
    · simp [Patch.set, Patch.effectiveState, heq]
  · rcases h.2 with hsome | heq
    · obtain ⟨v, hv⟩ := Option.isSome_iff_exists.mp hsome
      simp [Patch.set, Patch.effectiveRefs, hv]
    · simp [Patch.set, Patch.effectiveRefs, heq]

theorem patchUpdate_guarantee (investigationId : Text) (tx : Nat) (id : Text) (patch : Patch)
    (existing : Option Item) (h : review (some id) patch existing = .write) (s : Db Text Item) :
    Guarantee s (patchUpdate investigationId tx id patch existing) := by
  obtain ⟨hnoevidence, hsame, hneeds⟩ := review_write (some id) patch existing (fun _ => rfl) h
  intro r hr
  obtain ⟨-, -, hp⟩ := (Cell.target_eq_some _ _ _ _).mp hr
  simp only [Bool.and_eq_true, decide_eq_true_eq, decide_not, Bool.not_eq_true',
    decide_eq_false_iff_not] at hp
  obtain ⟨⟨-, hauthority⟩, hkind⟩ := hp
  -- on its basis the update keeps the kind
  have hkeep : ∀ r, (Taken.ofExisting existing patch).kind = some r.kind →
      (patch.set r).kind = r.kind := by
    intro r htaken
    cases hk : patch.kind with
    | none => simp [Patch.set, hk]
    | some k =>
      have hkr : k = r.kind := by
        cases hex : existing with
        | none => simpa [Taken.ofExisting, hex, hk] using htaken
        | some e =>
          have he : e.kind = r.kind := by simpa [Taken.ofExisting, hex] using htaken
          rw [hsame e k hex hk, he]
      simp [Patch.set, hk, hkr]
  refine ⟨hkind, ?_, fun hbasis => ?_, fun _ => ⟨hauthority, fun hbasis => ?_⟩⟩
  · cases hk : patch.kind with
    | none => simpa [Patch.set, hk] using hkind
    | some k =>
      rw [hk] at hnoevidence
      simpa [Patch.set, hk] using hnoevidence
  · rw [Bool.and_eq_true, decide_eq_true_eq] at hbasis
    obtain ⟨hstate, hrefs⟩ := patch.set_of_agrees _ r hbasis.2
    rw [hkeep r hbasis.1, hstate, hrefs, ← hbasis.1]
    exact hneeds
  · rw [Bool.and_eq_true, decide_eq_true_eq] at hbasis
    exact hkeep r hbasis.1

theorem newRow_evidenced (investigationId : Text) (patch : Patch) (row : Item)
    (h : review none patch none = .write) (hrow : newRow investigationId patch = some row) :
    needsEvidence (some row.kind) row.state row.evidenceRefs = false := by
  obtain ⟨-, -, hneeds⟩ := review_write none patch none (fun h => h) h
  obtain ⟨kind, hkind, rfl⟩ := Option.map_eq_some_iff.mp hrow
  simpa [Taken.ofExisting, Patch.effectiveState, Patch.effectiveRefs, hkind] using hneeds

section
variable (I : Db Text Item → Prop)

theorem patchLoop_relies (investigationId : Text) (tx : Nat) (byId : Text → Option Item)
    (items : List (PatchInvestigationItemInput × Text)) (result : PatchInvestigationItemsResult)
    (s : Db Text Item) :
    Relies exec I Later Guarantee (patchLoop investigationId tx byId items result) s
      fun _ _ => True := by
  induction items generalizing result s with
  | nil => exact trivial
  | cons i items ih =>
    obtain ⟨item, newId⟩ := i
    simp only [patchLoop]
    split
    · exact ih _ _
    · exact ih _ _
    · exact ih _ _
    · exact ih _ _
    · next hreview =>
      split
      · next id hid =>
        rw [hid] at hreview ⊢
        rw [relies_stmt_bind]
        intro t _ _
        refine ⟨patchUpdate_guarantee investigationId tx id item.toPatch _ hreview t, ?_⟩
        split
        · exact ih _ _
        · split
          · exact ih _ _
          · exact ih _ _
      · next hid =>
        rw [hid] at hreview
        split
        · exact trivial
        · next row hrow =>
          rw [relies_stmt_bind]
          exact fun t _ _ => ⟨newRow_evidenced investigationId item.toPatch row hreview hrow, ih _ _⟩

theorem patch_relies (investigationId : Text) (items : List (PatchInvestigationItemInput × Text))
    (s : Db Text Item) :
    Relies exec I Later Guarantee (patchInvestigationItems investigationId items) s
      fun _ _ => True := by
  unfold patchInvestigationItems
  split
  · exact trivial
  · rw [relies_stmt_bind]
    intro t _ _
    refine ⟨trivial, ?_⟩
    rw [relies_stmt_bind]
    intro u _ _
    refine ⟨trivial, ?_⟩
    rw [relies_bind]
    refine (patchLoop_relies I investigationId _ _ items {} _).imp ?_
    intro result v _
    cases result with
    | some result => exact fun _ _ _ => ⟨trivial, trivial⟩
    | none => exact fun _ _ _ => ⟨trivial, trivial⟩

/-- What is stored under an identity keeps being no evidence. -/
theorem humanUpdate_relies (itemId : Text) (patch : Patch) (s : Db Text Item) :
    Relies exec (Inv B) Later Guarantee (updateInvestigationItemAsHuman itemId patch) s
      fun _ _ => True := by
  unfold updateInvestigationItemAsHuman
  rw [relies_stmt_bind]
  intro t _ ht
  refine ⟨trivial, ?_⟩
  split
  · exact trivial
  · next existing hexisting =>
    have hvisible : (t.cells itemId).visible none = some existing :=
      (Option.filter_eq_some_iff.mp hexisting).1
    have hversion := (t.cells itemId).version_of_visible none existing hvisible
    simp only []
    split
    · exact trivial
    · next hkinds =>
      split
      · exact trivial
      · next hneeds =>
        rw [relies_stmt_bind]
        intro u htu hu
        refine ⟨fun r hr => ?_, trivial⟩
        simp only [Bool.or_eq_true, decide_eq_true_eq, not_or] at hkinds
        obtain ⟨hkind, hnew⟩ := hkinds
        -- the row that is updated was inserted as no evidence, and so it is none
        have hrkind : r.kind ≠ .evidence := by
          obtain ⟨-, f, hf, hfexisting⟩ := (ht itemId).versions existing hversion
          obtain ⟨-, hrvisible, -⟩ := (Cell.target_eq_some _ _ _ _).mp hr
          obtain ⟨-, f', hf', hfr⟩ := (hu itemId).versions r
            ((u.cells itemId).version_of_visible none r hrvisible)
          obtain rfl : f = f' := Option.some.inj ((htu itemId f hf).symm.trans hf')
          intro hk
          rw [hfr (Or.inl hk)] at hk
          rw [hfexisting (Or.inr hk)] at hkind
          exact hkind hk
        refine ⟨hrkind, ?_, fun hbasis => ?_, fun htx => (by cases htx)⟩
        · cases hk : patch.kind with
          | none => simpa [Patch.set, hk] using hrkind
          | some k => simpa [Patch.set, hk] using hnew
        · rw [Bool.and_eq_true] at hbasis
          obtain ⟨hstate, hrefs⟩ := patch.set_of_agrees _ r hbasis.2
          have hsame : (patch.set r).kind = patch.kind.getD existing.kind := by
            rcases Bool.or_eq_true_iff.mp hbasis.1 with hsome | heq
            · obtain ⟨k, hk⟩ := Option.isSome_iff_exists.mp hsome
              simp [Patch.set, hk]
            · rw [decide_eq_true_eq] at heq
              simp [Patch.set, heq]
          show needsEvidence (some (patch.set r).kind) (patch.set r).state
            (patch.set r).evidenceRefs = false
          rw [hsame, hstate, hrefs]
          exact Bool.not_eq_true _ ▸ hneeds

theorem create_relies (investigationId : Text) (item : CreateInvestigationItemAsHumanInput)
    (newId : Text) (s : Db Text Item) :
    Relies exec I Later Guarantee (createInvestigationItemAsHuman investigationId item newId) s
      fun _ _ => True := by
  unfold createInvestigationItemAsHuman
  simp only []
  split
  · exact trivial
  · split
    · exact trivial
    · next hneeds => exact fun t _ _ => ⟨by simpa [Guarantee] using hneeds, trivial⟩

theorem starts_relies (p : Program Unit) (hp : Starts p) (s : Db Text Item) :
    Relies exec (Inv B) Later Guarantee p s fun _ _ => True := by
  cases hp with
  | patch investigationId items =>
    exact (relies_bind _ _ _ _).mpr (patch_relies _ investigationId items s)
  | append investigationId body data newId =>
    exact fun t _ _ => ⟨rfl, trivial⟩
  | update itemId patch => exact (relies_bind _ _ _ _).mpr (humanUpdate_relies itemId patch s)
  | create investigationId item newId =>
    exact (relies_bind _ _ _ _).mpr (create_relies _ investigationId item newId s)
  | delete itemId => exact fun t _ _ => ⟨rfl, trivial⟩

end

/-! ## Runs -/

theorem reaches_inv {C : ∀ ⦃β : Type⦄, List (Program Unit) → Db Text Item → Stmt Text Item β → Prop}
    (hC : ∀ ⦃β : Type⦄ others s (q : Stmt Text Item β), C others s q → B → onBasis s q)
    {c : Config (Db Text Item) (Stmt Text Item)} (h : system.Reaches C ⟨emptyDb, []⟩ c) :
    Inv B c.store := by
  have hstart : ∀ p s, system.starts p →
      Relies system.exec (Inv B) Later Guarantee p s fun _ _ => True :=
    fun p s hp => starts_relies p hp s
  have hcall : ∀ ⦃β : Type⦄ (q : Stmt Text Item β) others s, Inv B s → Guarantee s q →
      C others s q → Inv B (system.exec q s).2 ∧ Later s (system.exec q s).2 :=
    fun _ q others s hs hq hqC => ⟨exec_inv q s hs hq (hC others s q hqC), exec_later q s⟩
  exact (system.reaches_trusts Later.refl Later.trans hstart hcall (fun _ _ _ he => he.elim) h
    ⟨fun _ => Cell.Ordered.empty, by simp⟩).1

section
variable {c : Cell Item} (h : c.Ordered (Good B) SameEvidence (Overwrites B))
include h

theorem evidenceFixed_of_ordered : EvidenceFixed c := by
  constructor
  · intro r hr hk
    obtain ⟨-, f, hf, hfr⟩ := h.versions r hr
    rw [hf, hfr (Or.inl hk)]
  · intro f hf hk r hr
    obtain ⟨-, f', hf', hfr⟩ := h.versions r hr
    obtain rfl : f = f' := Option.some.inj (hf.symm.trans hf')
    exact hfr (Or.inr hk)

theorem humanKept_of_ordered : HumanKept c := by
  intro tx old hold hhuman
  rcases h.of_commit tx old hold with hsame | ⟨new, -, hnew⟩
  · exact hsame
  · exact absurd hhuman hnew.1

theorem kindKept_of_ordered (hB : B) : KindKept c := by
  intro tx old hold
  rcases h.of_commit tx old hold with hsame | ⟨new, hcommit, hnew⟩
  · exact ⟨old, hsame, rfl⟩
  · exact ⟨new, hcommit, hnew.2 hB⟩

end

/-- **What the items keep.**  In every run a row of kind evidence is as it was inserted, and no
patch changes a row of a human.  In every run in which each update meets the row as its check took
it to be, no decided hypothesis is without evidence either, committed or not, and no patch changes
the kind of a row. -/
theorem items_guaranteed (c : Config (Db Text Item) (Stmt Text Item)) :
    (system.Reaches Waits ⟨emptyDb, []⟩ c → ∀ x,
      EvidenceFixed (c.store.cells x) ∧ HumanKept (c.store.cells x)) ∧
    (system.Reaches WaitsOnBasis ⟨emptyDb, []⟩ c → ∀ x,
      EvidenceFixed (c.store.cells x) ∧ HumanKept (c.store.cells x) ∧
        Evidenced (c.store.cells x) ∧ KindKept (c.store.cells x)) := by
  constructor
  · intro hc x
    have h := reaches_inv (fun _ _ _ _ _ => False.elim) hc x
    exact ⟨evidenceFixed_of_ordered h, humanKept_of_ordered h⟩
  · intro hc x
    have h := reaches_inv (B := True) (fun _ _ _ _ hq _ => hq.2) hc x
    exact ⟨evidenceFixed_of_ordered h, humanKept_of_ordered h,
      fun r hr => (h.versions r hr).1 trivial, kindKept_of_ordered h trivial⟩

/-! ## A batch that names a row twice -/

/-- Two calls: a hypothesis is added; then one batch decides it, with evidence, and takes the
evidence away. -/
def addHypothesis : Program Unit :=
  patchInvestigationItems "inv".toList
    [({ kind := some .hypothesis, body := some "b".toList }, "h".toList)] >>= fun _ => pure ()

def decideAndStrip : Program Unit :=
  patchInvestigationItems "inv".toList
    [({ id := some "h".toList, state := some (some .supported),
        evidenceRefs := some ["e".toList] }, []),
      ({ id := some "h".toList, evidenceRefs := some [] }, [])] >>= fun _ => pure ()

def stripped : List (System.Choice (Db Text Item) (Stmt Text Item)) :=
  [.start addHypothesis, .step 0, .step 0, .step 0, .step 0, .start decideAndStrip, .step 0, .step 0,
    .step 0, .step 0, .step 0]

/-- A supported hypothesis without evidence. -/
theorem supported_without_evidence : ∃ c, system.Reaches Waits ⟨emptyDb, []⟩ c ∧
    ∃ r, (c.store.cells "h".toList).committed = some r ∧
      needsEvidence (some r.kind) r.state r.evidenceRefs := by
  have hvalid : ∀ choice ∈ stripped, choice.Valid system := by
    simp only [stripped, List.forall_mem_cons]
    exact ⟨.patch _ _, trivial, trivial, trivial, trivial, .patch _ _, trivial, trivial, trivial,
      trivial, trivial, by simp⟩
  have hrun := system.schedule_reaches stripped ⟨emptyDb, []⟩ hvalid
    (system.meets_of_check (fun _ _ s q => enabled s q) (fun _ _ _ _ h => h) _ _ (by decide +kernel))
  have hbad : (((system.schedule stripped ⟨emptyDb, []⟩).store.cells "h".toList).committed.any
      fun r => needsEvidence (some r.kind) r.state r.evidenceRefs) = true := by decide +kernel
  obtain ⟨r, hr, hneeds⟩ := (Option.any_eq_true _ _).mp hbad
  exact ⟨_, hrun, r, hr, hneeds⟩

end Agentrail.Investigations
