import Mathlib.Data.List.Nodup

/-!
# Tables with unique constraints

A table (`Table`) is the list of its rows, in the order they were inserted,
together with a proof that it meets its constraints; a constraint is the list of
columns whose values no two rows may share.  `update` and `insert` are the two
ways to change one, `delete` takes rows out.  `firstBy` is `ORDER BY … LIMIT 1`.
-/

/-- Rows of which no two agree on all columns of a constraint. -/
structure Table (ρ : Type) {κ : Type} (constraints : List (ρ → κ)) where
  rows : List ρ
  unique : ∀ key ∈ constraints, (rows.map key).Nodup

namespace Table

variable {ρ κ : Type} {constraints : List (ρ → κ)}

def empty : Table ρ constraints := ⟨[], fun _ _ => List.nodup_nil⟩

/-- A set list that leaves the constrained columns alone. -/
def Keeps (constraints : List (ρ → κ)) (f : ρ → ρ) : Prop :=
  ∀ key ∈ constraints, ∀ r, key (f r) = key r

/-- `UPDATE … SET f WHERE p`. -/
def update (t : Table ρ constraints) (p : ρ → Bool) (f : ρ → ρ) (hf : Keeps constraints f) :
    Table ρ constraints where
  rows := t.rows.map fun r => if p r then f r else r
  unique := by
    intro key hkey
    have hsame : (t.rows.map fun r => if p r then f r else r).map key = t.rows.map key := by
      rw [List.map_map]
      refine List.map_congr_left fun r _ => ?_
      show key (if p r then f r else r) = key r
      split
      · exact hf key hkey r
      · rfl
    rw [hsame]
    exact t.unique key hkey

/-- `INSERT … ON CONFLICT DO NOTHING`: `none` on a conflict. -/
def insert [DecidableEq κ] (t : Table ρ constraints) (row : ρ) : Option (Table ρ constraints) :=
  if h : ∀ key ∈ constraints, key row ∉ t.rows.map key then
    some ⟨t.rows ++ [row], fun key hkey => by
      rw [List.map_append, List.map_singleton]
      exact List.nodup_append_comm.mp (List.nodup_cons.mpr ⟨h key hkey, t.unique key hkey⟩)⟩
  else none

instance decidableEq [DecidableEq ρ] : DecidableEq (Table ρ constraints) := fun s t =>
  decidable_of_iff (s.rows = t.rows)
    ⟨fun h => by cases s; cases t; cases h; rfl, fun h => congrArg rows h⟩

/-- `DELETE … WHERE p`. -/
def delete (t : Table ρ constraints) (p : ρ → Bool) : Table ρ constraints where
  rows := t.rows.filter fun r => !p r
  unique := fun key hkey => (t.unique key hkey).sublist (List.filter_sublist.map key)

def select (t : Table ρ constraints) (p : ρ → Bool) : List ρ := t.rows.filter p

theorem mem_select (t : Table ρ constraints) (p : ρ → Bool) (r : ρ) :
    r ∈ t.select p ↔ r ∈ t.rows ∧ p r :=
  List.mem_filter

theorem mem_update (t : Table ρ constraints) (p : ρ → Bool) (f : ρ → ρ)
    (hf : Keeps constraints f) (r : ρ) :
    r ∈ (t.update p f hf).rows ↔ ∃ r₀ ∈ t.rows, (if p r₀ then f r₀ else r₀) = r :=
  List.mem_map

theorem rows_insert [DecidableEq κ] (t t' : Table ρ constraints) (row : ρ)
    (h : t.insert row = some t') : t'.rows = t.rows ++ [row] := by
  unfold insert at h
  split at h
  · cases h
    rfl
  · cases h

theorem insert_eq_none [DecidableEq κ] (t : Table ρ constraints) (row : ρ) :
    t.insert row = none ↔ ∃ key ∈ constraints, key row ∈ t.rows.map key := by
  unfold insert
  split
  · next h =>
    refine ⟨nofun, ?_⟩
    rintro ⟨key, hkey, hrow⟩
    exact absurd hrow (h key hkey)
  · next h =>
    push Not at h
    exact ⟨fun _ => h, fun _ => rfl⟩

/-- One row for each value of a constraint. -/
theorem eq_of_key (t : Table ρ constraints) (key : ρ → κ) (hkey : key ∈ constraints) (r r' : ρ)
    (h : r ∈ t.rows) (h' : r' ∈ t.rows) (hsame : key r = key r') : r = r' :=
  List.inj_on_of_nodup_map (t.unique key hkey) h h' hsame

/-- An update of one row replaces it and leaves the others. -/
theorem mem_map_update_one (rows : List ρ) (p : ρ → Prop) [DecidablePred p] (f : ρ → ρ) (e : ρ)
    (he : e ∈ rows) (hp : ∀ r ∈ rows, p r ↔ r = e) (r' : ρ) :
    (r' ∈ rows.map fun r => if p r then f r else r) ↔ r' = f e ∨ r' ∈ rows ∧ r' ≠ e := by
  rw [List.mem_map]
  constructor
  · rintro ⟨r, hr, rfl⟩
    by_cases hpr : p r
    · rw [if_pos hpr, (hp r hr).mp hpr]
      exact Or.inl rfl
    · rw [if_neg hpr]
      exact Or.inr ⟨hr, fun heq => hpr ((hp r hr).mpr heq)⟩
  · rintro (rfl | ⟨hr', hne⟩)
    · exact ⟨e, he, if_pos ((hp e he).mpr rfl)⟩
    · exact ⟨r', hr', if_neg fun hpr => hne ((hp r' hr').mp hpr)⟩

/-! ## The first row of an order -/

/-- `ORDER BY f LIMIT 1`; `scan` is the order in which the rows happen to be read, which decides
between equals. -/
def firstBy (f : ρ → Int) (scan : ρ → Nat) : List ρ → Option ρ
  | [] => none
  | r :: rows =>
    match firstBy f scan rows with
    | none => some r
    | some m => if f m < f r ∨ f m = f r ∧ scan m < scan r then some m else some r

section
variable (f : ρ → Int) (scan : ρ → Nat)

theorem firstBy_eq_none (rows : List ρ) : firstBy f scan rows = none ↔ rows = [] := by
  cases rows with
  | nil => exact ⟨fun _ => rfl, fun _ => rfl⟩
  | cons r rows =>
    refine ⟨fun h => ?_, nofun⟩
    unfold firstBy at h
    split at h
    · cases h
    · split at h <;> cases h

theorem firstBy_mem (rows : List ρ) (m : ρ) (h : firstBy f scan rows = some m) : m ∈ rows := by
  induction rows generalizing m with
  | nil => cases h
  | cons r rows ih =>
    unfold firstBy at h
    split at h
    · cases h
      exact List.mem_cons_self
    · next n hn =>
      split at h <;> cases h
      · exact List.mem_cons_of_mem _ (ih _ hn)
      · exact List.mem_cons_self

theorem firstBy_le (rows : List ρ) (m r : ρ) (h : firstBy f scan rows = some m) (hr : r ∈ rows) :
    f m ≤ f r := by
  induction rows generalizing m with
  | nil => cases hr
  | cons x rows ih =>
    unfold firstBy at h
    split at h
    · next hnone =>
      cases h
      rw [(firstBy_eq_none f scan rows).mp hnone, List.mem_singleton] at hr
      exact hr ▸ Int.le_refl _
    · next n hn =>
      rcases List.mem_cons.mp hr with rfl | hr'
      · split at h <;> cases h <;> omega
      · have hle := ih n hn hr'
        split at h <;> cases h <;> omega

end

end Table
