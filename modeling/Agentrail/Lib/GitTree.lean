import Agentrail.Lib.Text

/-!
# Git tree objects

The body of a tree object is a row of entries, each `mode`, a space, `name`, a zero
byte and the 20 bytes of an object id, with nothing between them.  A body has at most
one reading (`IsTree.unique`).

A `Repository` maps the ids of tree objects to their bodies, and has the subtrees of
every tree it has.  `Walks` follows names, byte for byte, from a tree to an entry.
-/

namespace GitTree

abbrev Bytes := List UInt8

structure Entry where
  mode : Bytes
  name : Bytes
  id : Bytes
  deriving DecidableEq

/-- The parts of the entry can be told apart in what is written. -/
structure Entry.WellFormed (e : Entry) : Prop where
  mode : 0x20 ∉ e.mode
  name : 0 ∉ e.name
  id : e.id.length = 20

instance (e : Entry) : Decidable e.WellFormed :=
  decidable_of_iff (0x20 ∉ e.mode ∧ 0 ∉ e.name ∧ e.id.length = 20)
    ⟨fun h => ⟨h.1, h.2.1, h.2.2⟩, fun h => ⟨h.mode, h.name, h.id⟩⟩

def Entry.bytes (e : Entry) : Bytes := e.mode ++ 0x20 :: (e.name ++ 0 :: e.id)

/-- The body is that of a tree with these entries. -/
structure IsTree (body : Bytes) (entries : List Entry) : Prop where
  wellFormed : ∀ e ∈ entries, e.WellFormed
  bytes : entries.flatMap Entry.bytes = body

/-! ## One reading -/

theorem Entry.bytes_ne_nil (e : Entry) : e.bytes ≠ [] := by
  unfold Entry.bytes
  simp

/-- The first entry of a body and what is left of it. -/
theorem Entry.bytes_append_inj {e e' : Entry} {rest rest' : Bytes} (he : e.WellFormed)
    (he' : e'.WellFormed) (h : e.bytes ++ rest = e'.bytes ++ rest') : e = e' ∧ rest = rest' := by
  unfold Entry.bytes at h
  simp only [List.append_assoc, List.cons_append] at h
  obtain ⟨hmode, hafter⟩ := List.eq_of_append_cons_eq he.mode he'.mode h
  obtain ⟨hname, hid⟩ := List.eq_of_append_cons_eq he.name he'.name hafter
  obtain ⟨hid, hrest⟩ := List.append_inj hid (he.id.trans he'.id.symm)
  obtain ⟨mode, name, id⟩ := e
  obtain ⟨mode', name', id'⟩ := e'
  cases hmode
  cases hname
  cases hid
  exact ⟨rfl, hrest⟩

/-- A body has at most one reading. -/
theorem IsTree.unique {body : Bytes} {entries entries' : List Entry} (h : IsTree body entries)
    (h' : IsTree body entries') : entries = entries' := by
  obtain ⟨hwf, rfl⟩ := h
  obtain ⟨hwf', hbytes⟩ := h'
  induction entries generalizing entries' with
  | nil =>
    cases entries' with
    | nil => rfl
    | cons e' entries' =>
      rw [List.flatMap_cons, List.flatMap_nil] at hbytes
      exact absurd (List.append_eq_nil_iff.mp hbytes).1 e'.bytes_ne_nil
  | cons e entries ih =>
    cases entries' with
    | nil =>
      rw [List.flatMap_cons, List.flatMap_nil] at hbytes
      exact absurd (List.append_eq_nil_iff.mp hbytes.symm).1 e.bytes_ne_nil
    | cons e' entries' =>
      rw [List.flatMap_cons, List.flatMap_cons] at hbytes
      obtain ⟨rfl, hrest⟩ := Entry.bytes_append_inj (hwf' e' List.mem_cons_self)
        (hwf e List.mem_cons_self) hbytes
      rw [ih (fun x hx => hwf x (List.mem_cons_of_mem e' hx))
        (fun x hx => hwf' x (List.mem_cons_of_mem e' hx)) hrest]

/-! ## Repositories -/

/-- `40000`. -/
def directoryMode : Bytes := [0x34, 0x30, 0x30, 0x30, 0x30]

/-- `100644` and `100755`. -/
def fileModes : List Bytes :=
  [[0x31, 0x30, 0x30, 0x36, 0x34, 0x34], [0x31, 0x30, 0x30, 0x37, 0x35, 0x35]]

section
variable {τ : Type} {objectId : Bytes → τ} {spell : Bytes → τ}

/-- The tree objects of a repository; `objectId` is the id of a body and `spell` writes the bytes
of an id that an entry holds. -/
structure Repository (objectId spell : Bytes → τ) where
  tree : τ → Option Bytes
  addressed : ∀ id body, tree id = some body → objectId body = id
  closed : ∀ id body entries, tree id = some body → IsTree body entries →
    ∀ e ∈ entries, e.mode = directoryMode → (tree (spell e.id)).isSome

/-- The entry that the names lead to from a tree, all but the last through directories. -/
inductive Walks (repo : Repository objectId spell) : τ → List Bytes → Entry → Prop
  | here {id : τ} {body : Bytes} {entries : List Entry} {e : Entry} :
      repo.tree id = some body → IsTree body entries → e ∈ entries → Walks repo id [e.name] e
  | into {id : τ} {body : Bytes} {entries : List Entry} {d e : Entry} {names : List Bytes} :
      repo.tree id = some body → IsTree body entries → d ∈ entries → d.mode = directoryMode →
      Walks repo (spell d.id) names e → Walks repo id (d.name :: names) e

/-- The tree that a walk starts from has its entry of the first name. -/
theorem Walks.first {repo : Repository objectId spell} {id : τ} {name : Bytes}
    {names : List Bytes} {e : Entry} (h : Walks repo id (name :: names) e) :
    ∃ body entries, repo.tree id = some body ∧ IsTree body entries ∧ ∃ d ∈ entries,
      d.name = name ∧
        ((names = [] ∧ d = e) ∨ (d.mode = directoryMode ∧ Walks repo (spell d.id) names e)) := by
  cases h with
  | here htree hbody hmem => exact ⟨_, _, htree, hbody, _, hmem, rfl, Or.inl ⟨rfl, rfl⟩⟩
  | into htree hbody hmem hmode hrest =>
    exact ⟨_, _, htree, hbody, _, hmem, rfl, Or.inr ⟨hmode, hrest⟩⟩

end

end GitTree
