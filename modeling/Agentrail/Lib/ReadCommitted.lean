import Agentrail.Lib.Interleaving
import Mathlib.Logic.Function.Basic

/-!
# Transactions at READ COMMITTED

A table is a cell for each identity (`Cell`): the committed row, and the version that an open
transaction has written, which locks the row and which only that transaction sees.  A statement
(`Stmt`) runs inside a transaction or on its own, and sees what is committed when it runs and what
its own transaction has written; a statement that has to wait for a lock is not `enabled`.

An `update` says, beside its `WHERE` and its `SET`, what the program took the row to be when it made
up its mind (`basis`): the database does not look at it, but a run can be asked to respect it
(`onBasis`).  `exec_cells` is the rule for invariants that hold of every cell, `exec_ordered` the
one for rows that every write keeps in order.
-/

namespace ReadCommitted

open Interleaving

structure Cell (ρ : Type) where
  committed : Option ρ := none
  /-- the open transaction that has written the row, and its version (`none`: deleted) -/
  lock : Option (Nat × Option ρ) := none
  /-- the row as it was inserted; it stays when the row is deleted -/
  first : Option ρ := none

structure Db (ι ρ : Type) where
  cells : ι → Cell ρ
  begun : Nat

inductive Stmt (ι ρ : Type) : Type → Type where
  | begin : Stmt ι ρ Nat
  | select (tx : Option Nat) (p : ι → ρ → Bool) : Stmt ι ρ (ι → Option ρ)
  | update (tx : Option Nat) (x : ι) (p : ρ → Bool) (set : ρ → ρ) (basis : ρ → Bool) :
    Stmt ι ρ (Option ρ)
  | insert (tx : Option Nat) (x : ι) (row : ρ) : Stmt ι ρ Unit
  | delete (tx : Option Nat) (x : ι) (p : ρ → Bool) : Stmt ι ρ Bool
  | commit (tx : Nat) : Stmt ι ρ Unit
  | rollback (tx : Nat) : Stmt ι ρ Unit

variable {ι ρ : Type}

namespace Cell

/-- What a statement of the transaction sees; `none` for a statement on its own. -/
def visible (c : Cell ρ) (tx : Option Nat) : Option ρ :=
  match c.lock with
  | some (t, v) => if tx = some t then v else c.committed
  | none => c.committed

/-- No other transaction has the row. -/
def free (c : Cell ρ) (tx : Option Nat) : Bool :=
  match c.lock with
  | some (t, _) => tx = some t
  | none => true

def put (c : Cell ρ) (tx : Option Nat) (v : Option ρ) : Cell ρ :=
  match tx with
  | some t => { c with lock := some (t, v) }
  | none => { c with committed := v }

def commit (c : Cell ρ) (tx : Nat) : Cell ρ :=
  match c.lock with
  | some (t, v) => if t = tx then { c with committed := v, lock := none } else c
  | none => c

def rollback (c : Cell ρ) (tx : Nat) : Cell ρ :=
  match c.lock with
  | some (t, _) => if t = tx then { c with lock := none } else c
  | none => c

/-- A version of the row, committed or not. -/
def Version (c : Cell ρ) (r : ρ) : Prop := c.committed = some r ∨ ∃ t, c.lock = some (t, some r)

/-- The row that a statement with this `WHERE` finds and may write. -/
def target (c : Cell ρ) (tx : Option Nat) (p : ρ → Bool) : Option ρ :=
  if c.free tx then (c.visible tx).filter p else none

theorem target_eq_some (c : Cell ρ) (tx : Option Nat) (p : ρ → Bool) (r : ρ) :
    c.target tx p = some r ↔ c.free tx ∧ c.visible tx = some r ∧ p r := by
  unfold target
  split
  · next h => rw [Option.filter_eq_some_iff, and_iff_right h]
  · next h =>
    constructor
    · intro hnone
      cases hnone
    · exact fun hfree => absurd hfree.1 h

theorem version_of_visible (c : Cell ρ) (tx : Option Nat) (r : ρ) (h : c.visible tx = some r) :
    c.Version r := by
  unfold visible at h
  split at h
  · next t v hlock =>
    split at h
    · exact Or.inr ⟨t, hlock.trans (by rw [h])⟩
    · exact Or.inl h
  · exact Or.inl h

theorem version_put (c : Cell ρ) (tx : Option Nat) (v : Option ρ) (r : ρ)
    (h : (c.put tx v).Version r) : v = some r ∨ c.Version r := by
  unfold put at h
  split at h
  · rcases h with hcommitted | ⟨t, hlock⟩
    · exact Or.inr (Or.inl hcommitted)
    · injection hlock with hlock
      injection hlock with _ hv
      exact Or.inl hv
  · rcases h with hcommitted | hlock
    · exact Or.inl hcommitted
    · exact Or.inr (Or.inr hlock)

theorem version_commit (c : Cell ρ) (tx : Nat) (r : ρ) (h : (c.commit tx).Version r) :
    c.Version r := by
  unfold commit at h
  split at h
  · next t v hlock =>
    split at h
    · rcases h with hcommitted | ⟨t', hlock'⟩
      · exact Or.inr ⟨t, hlock.trans (by rw [show v = some r from hcommitted])⟩
      · cases hlock'
    · exact h
  · exact h

theorem version_rollback (c : Cell ρ) (tx : Nat) (r : ρ) (h : (c.rollback tx).Version r) :
    c.Version r := by
  unfold rollback at h
  split at h
  · split at h
    · rcases h with hcommitted | ⟨t', hlock'⟩
      · exact Or.inl hcommitted
      · cases hlock'
    · exact h
  · exact h

/-- A commit that leaves a lock leaves the cell. -/
theorem commit_eq_self (c : Cell ρ) (tx : Nat) (h : (c.commit tx).lock ≠ none) :
    c.commit tx = c := by
  unfold commit at h ⊢
  split
  · next t v hlock =>
    rw [hlock] at h
    split
    · next ht =>
      simp only [ht, if_true] at h
      exact absurd rfl h
    · rfl
  · rfl

theorem rollback_eq_self (c : Cell ρ) (tx : Nat) (h : (c.rollback tx).lock ≠ none) :
    c.rollback tx = c := by
  unfold rollback at h ⊢
  split
  · next t v hlock =>
    rw [hlock] at h
    split
    · next ht =>
      simp only [ht, if_true] at h
      exact absurd rfl h
    · rfl
  · rfl

@[simp] theorem first_put (c : Cell ρ) (tx : Option Nat) (v : Option ρ) :
    (c.put tx v).first = c.first := by
  unfold put
  split <;> rfl

@[simp] theorem first_commit (c : Cell ρ) (tx : Nat) : (c.commit tx).first = c.first := by
  unfold commit
  split
  · split <;> rfl
  · rfl

@[simp] theorem first_rollback (c : Cell ρ) (tx : Nat) : (c.rollback tx).first = c.first := by
  unfold rollback
  split
  · split <;> rfl
  · rfl

end Cell

/-! ## What stays -/

/-- Rows that were inserted have been inserted. -/
def Later (s t : Db ι ρ) : Prop :=
  ∀ x row, (s.cells x).first = some row → (t.cells x).first = some row

theorem Later.refl (s : Db ι ρ) : Later s s := fun _ _ h => h

theorem Later.trans (s t u : Db ι ρ) (hst : Later s t) (htu : Later t u) : Later s u :=
  fun x row h => htu x row (hst x row h)

/-- The statement does not wait: no other transaction has the row, or it does not match, and the
identity of a new row is new. -/
def enabled ⦃β : Type⦄ (s : Db ι ρ) : Stmt ι ρ β → Bool
  | .update tx x p _ _ => (s.cells x).free tx || !(s.cells x).committed.any p
  | .delete tx x p => (s.cells x).free tx || !(s.cells x).committed.any p
  | .insert _ x _ =>
    (s.cells x).first.isNone && (s.cells x).committed.isNone && (s.cells x).lock.isNone
  | _ => true

/-- The row that is updated is what the program took it to be. -/
def onBasis ⦃β : Type⦄ (s : Db ι ρ) : Stmt ι ρ β → Bool
  | .update tx x p _ basis => ((s.cells x).target tx p).all basis
  | _ => true

theorem basis_of_onBasis (s : Db ι ρ) (tx : Option Nat) (x : ι) (p : ρ → Bool) (set : ρ → ρ)
    (basis : ρ → Bool) (h : onBasis s (.update tx x p set basis)) (r : ρ)
    (hr : (s.cells x).target tx p = some r) : basis r := by
  simpa [onBasis, hr] using h

section
variable [DecidableEq ι]

def Db.setCell (s : Db ι ρ) (x : ι) (c : Cell ρ) : Db ι ρ :=
  { s with cells := Function.update s.cells x c }

def exec ⦃β : Type⦄ : Stmt ι ρ β → Db ι ρ → β × Db ι ρ
  | .begin, s => (s.begun, { s with begun := s.begun + 1 })
  | .select tx p, s => (fun x => ((s.cells x).visible tx).filter (p x), s)
  | .update tx x p set _, s =>
    match (s.cells x).target tx p with
    | some r => (some (set r), s.setCell x ((s.cells x).put tx (some (set r))))
    | none => (none, s)
  | .insert tx x row, s =>
    if (s.cells x).first.isNone then
      ((), s.setCell x ({ s.cells x with first := some row }.put tx (some row)))
    else ((), s)
  | .delete tx x p, s =>
    match (s.cells x).target tx p with
    | some _ => (true, s.setCell x ((s.cells x).put tx none))
    | none => (false, s)
  | .commit tx, s => ((), { s with cells := fun x => (s.cells x).commit tx })
  | .rollback tx, s => ((), { s with cells := fun x => (s.cells x).rollback tx })

/-- What a statement writes to a cell keeps `J`. -/
def Writes (J : ι → Cell ρ → Prop) ⦃β : Type⦄ (s : Db ι ρ) : Stmt ι ρ β → Prop
  | .update tx x p set _ => ∀ r, (s.cells x).target tx p = some r →
      J x ((s.cells x).put tx (some (set r)))
  | .insert tx x row => (s.cells x).first = none →
      J x ({ s.cells x with first := some row }.put tx (some row))
  | .delete tx x p => ∀ r, (s.cells x).target tx p = some r → J x ((s.cells x).put tx none)
  | _ => True

theorem forall_setCell (J : ι → Cell ρ → Prop) (s : Db ι ρ) (x : ι) (c : Cell ρ)
    (hs : ∀ x, J x (s.cells x)) (hc : J x c) (y : ι) : J y ((s.setCell x c).cells y) := by
  show J y (Function.update s.cells x c y)
  by_cases hy : y = x
  · subst hy
    rw [Function.update_self]
    exact hc
  · rw [Function.update_of_ne hy]
    exact hs y

/-- **Cells.** What commits and rollbacks keep of a cell, and the writes of a statement, the
statement keeps of all cells. -/
theorem exec_cells {J : ι → Cell ρ → Prop} (hcommit : ∀ x c tx, J x c → J x (c.commit tx))
    (hrollback : ∀ x c tx, J x c → J x (c.rollback tx)) ⦃β : Type⦄ (q : Stmt ι ρ β) (s : Db ι ρ)
    (hs : ∀ x, J x (s.cells x)) (hq : Writes J s q) (x : ι) : J x ((exec q s).2.cells x) := by
  cases q with
  | begin => exact hs x
  | select tx p => exact hs x
  | update tx y p set basis =>
    simp only [exec]
    split
    · next r hr => exact forall_setCell J s y _ hs (hq r hr) x
    · exact hs x
  | insert tx y row =>
    simp only [exec]
    split
    · next hnew => exact forall_setCell J s y _ hs (hq (Option.isNone_iff_eq_none.mp hnew)) x
    · exact hs x
  | delete tx y p =>
    simp only [exec]
    split
    · next r hr => exact forall_setCell J s y _ hs (hq r hr) x
    · exact hs x
  | commit tx => exact hcommit x _ tx (hs x)
  | rollback tx => exact hrollback x _ tx (hs x)

theorem exec_later ⦃β : Type⦄ (q : Stmt ι ρ β) (s : Db ι ρ) : Later s (exec q s).2 := by
  intro x row hx
  have hJ : ∀ y, (s.cells y).first = some row ∨ y ≠ x := by
    intro y
    by_cases hy : y = x
    · exact Or.inl (hy ▸ hx)
    · exact Or.inr hy
  have hwrites : Writes (fun y c => c.first = some row ∨ y ≠ x) s q := by
    cases q with
    | update tx y p set basis => exact fun r _ => by simpa using hJ y
    | insert tx y new =>
      intro hnone
      refine Or.inr ?_
      rintro rfl
      rw [hnone] at hx
      cases hx
    | delete tx y p => exact fun r _ => by simpa using hJ y
    | _ => exact trivial
  have hall := exec_cells
    (fun y c tx h => by simpa using h) (fun y c tx h => by simpa using h) q s hJ hwrites x
  exact hall.resolve_right fun h => h rfl

/-! ## Rows that every write keeps in order -/

section
variable (P : ρ → Prop) (F Q : ρ → ρ → Prop)

/-- Every version is in `P`, and stands in `F` to the row as it was inserted; a version that is not
committed stands in `Q` to the committed row that it will replace, and deletes nothing. -/
structure Cell.Ordered (c : Cell ρ) : Prop where
  versions : ∀ r, c.Version r → P r ∧ ∃ f, c.first = some f ∧ F f r
  pending : ∀ t v, c.lock = some (t, v) →
    ∃ new, v = some new ∧ ∀ old, c.committed = some old → Q old new

/-- What a statement has to see to for the rows to stay in order. -/
def Orderly ⦃β : Type⦄ (s : Db ι ρ) : Stmt ι ρ β → Prop
  | .update tx x p set _ => ∀ r, (s.cells x).target tx p = some r →
      P (set r) ∧ (∀ f, (s.cells x).first = some f → F f r → F f (set r)) ∧
      (tx.isSome → Q r (set r) ∧ ∀ old, Q old r → Q old (set r))
  | .insert _ _ row => P row ∧ F row row
  | .delete tx _ _ => tx = none
  | _ => True

variable {P F Q}

theorem Cell.Ordered.empty : Cell.Ordered P F Q ({} : Cell ρ) := by
  refine ⟨?_, ?_⟩
  · rintro r (h | ⟨t, h⟩) <;> cases h
  · intro t v h
    cases h

/-- What only takes versions away. -/
theorem Cell.Ordered.sub {c c' : Cell ρ} (h : c.Ordered P F Q) (hfirst : c'.first = c.first)
    (hversion : ∀ r, c'.Version r → c.Version r) (hlock : c'.lock ≠ none → c' = c) :
    c'.Ordered P F Q := by
  refine ⟨fun r hr => ?_, fun t v hl => ?_⟩
  · rw [hfirst]
    exact h.versions r (hversion r hr)
  · obtain rfl := hlock (by rw [hl]; exact Option.some_ne_none _)
    exact h.pending t v hl

theorem Cell.Ordered.commit {c : Cell ρ} (h : c.Ordered P F Q) (tx : Nat) :
    (c.commit tx).Ordered P F Q :=
  h.sub (c.first_commit tx) (fun r hr => c.version_commit tx r hr) (c.commit_eq_self tx)

theorem Cell.Ordered.rollback {c : Cell ρ} (h : c.Ordered P F Q) (tx : Nat) :
    (c.rollback tx).Ordered P F Q :=
  h.sub (c.first_rollback tx) (fun r hr => c.version_rollback tx r hr) (c.rollback_eq_self tx)

/-- What a commit replaces. -/
theorem Cell.Ordered.of_commit {c : Cell ρ} (h : c.Ordered P F Q) (tx : Nat) (old : ρ)
    (hold : c.committed = some old) : (c.commit tx).committed = some old ∨
      ∃ new, (c.commit tx).committed = some new ∧ Q old new := by
  unfold Cell.commit
  split
  · next t v hlock =>
    split
    · obtain ⟨new, hv, hnew⟩ := h.pending t v hlock
      exact Or.inr ⟨new, hv, hnew old hold⟩
    · exact Or.inl hold
  · exact Or.inl hold

theorem Cell.Ordered.insert {c : Cell ρ} (h : c.Ordered P F Q) (tx : Option Nat) (row : ρ)
    (hfirst : c.first = none) (hP : P row) (hF : F row row) :
    ({ c with first := some row }.put tx (some row)).Ordered P F Q := by
  have hnone : ∀ r, ¬ c.Version r := by
    intro r hr
    obtain ⟨-, f, hf, -⟩ := h.versions r hr
    rw [hfirst] at hf
    cases hf
  refine ⟨fun r hr => ?_, fun t v hl => ?_⟩
  · obtain rfl : r = row := by
      rcases Cell.version_put _ tx _ r hr with hput | hold
      · exact (Option.some.inj hput).symm
      · exact absurd hold (hnone r)
    exact ⟨hP, r, by simp, hF⟩
  · cases tx with
    | none =>
      obtain ⟨new, rfl, -⟩ := h.pending t v hl
      exact absurd (Or.inr ⟨t, hl⟩) (hnone new)
    | some t' =>
      injection hl with hl
      injection hl with _ hv
      exact ⟨row, hv.symm, fun old hc => absurd (Or.inl hc) (hnone old)⟩

theorem Cell.Ordered.update {c : Cell ρ} (h : c.Ordered P F Q) (tx : Option Nat) (r new : ρ)
    (hfree : c.free tx) (hvisible : c.visible tx = some r) (hP : P new)
    (hF : ∀ f, c.first = some f → F f r → F f new)
    (hQ : tx.isSome → Q r new ∧ ∀ old, Q old r → Q old new) :
    (c.put tx (some new)).Ordered P F Q := by
  refine ⟨fun r' hr' => ?_, fun t v hl => ?_⟩
  · rw [Cell.first_put]
    rcases c.version_put tx _ r' hr' with hput | hold
    · obtain rfl := Option.some.inj hput
      obtain ⟨-, f, hf, hfr⟩ := h.versions r (c.version_of_visible tx r hvisible)
      exact ⟨hP, f, hf, hF f hf hfr⟩
    · exact h.versions r' hold
  · cases tx with
    | none =>
      -- a statement on its own has the row for itself
      rw [Cell.free, show c.lock = some (t, v) from hl] at hfree
      simp at hfree
    | some t' =>
      injection hl with hl
      injection hl with _ hv
      refine ⟨new, hv.symm, fun old hc => ?_⟩
      have hc : c.committed = some old := hc
      obtain ⟨hself, htrans⟩ := hQ rfl
      cases hlock : c.lock with
      | none =>
        simp only [Cell.visible, hlock] at hvisible
        obtain rfl := Option.some.inj (hvisible.symm.trans hc)
        exact hself
      | some w =>
        obtain ⟨u, v'⟩ := w
        obtain ⟨mid, rfl, hmid⟩ := h.pending u v' hlock
        have hu : some t' = some u := by simpa [Cell.free, hlock] using hfree
        simp only [Cell.visible, hlock, hu, if_true] at hvisible
        obtain rfl := Option.some.inj hvisible
        exact htrans old (hmid old hc)

theorem Cell.Ordered.delete {c : Cell ρ} (h : c.Ordered P F Q) (hfree : c.free none) :
    (c.put none none).Ordered P F Q := by
  have hlock : c.lock = none := by
    cases hl : c.lock with
    | none => rfl
    | some w => simp [Cell.free, hl] at hfree
  refine h.sub (c.first_put none none) (fun r hr => ?_) fun hl => absurd hlock hl
  rcases c.version_put none none r hr with hput | hold
  · cases hput
  · exact hold

/-- **Order.** Orderly statements keep all rows in order. -/
theorem exec_ordered ⦃β : Type⦄ (q : Stmt ι ρ β) (s : Db ι ρ)
    (hs : ∀ x, (s.cells x).Ordered P F Q) (hq : Orderly P F Q s q) (x : ι) :
    ((exec q s).2.cells x).Ordered P F Q := by
  refine exec_cells (fun x c tx h => h.commit tx) (fun x c tx h => h.rollback tx) q s hs ?_ x
  cases q with
  | update tx x p set basis =>
    intro r hr
    obtain ⟨hP, hF, hQ⟩ := hq r hr
    obtain ⟨hfree, hvisible, -⟩ := (Cell.target_eq_some _ _ _ _).mp hr
    exact (hs x).update tx r _ hfree hvisible hP hF hQ
  | insert tx x row => exact fun hfirst => (hs x).insert tx row hfirst hq.1 hq.2
  | delete tx x p =>
    intro r hr
    obtain rfl : tx = none := hq
    exact (hs x).delete ((Cell.target_eq_some _ _ _ _).mp hr).1
  | _ => exact trivial

end

end

end ReadCommitted
