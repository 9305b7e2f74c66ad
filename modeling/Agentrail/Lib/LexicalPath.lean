import Mathlib.Data.List.Basic

/-!
# Lexical paths

A path is a list of segments, one of which (`up`) stands for the directory above.  `walk` follows
a path from a place below the root and names the place it comes to: a name goes down, `up` goes
back, and nothing is above the root.
-/

namespace LexicalPath

variable {α : Type*} [DecidableEq α] (up : α)

/-- The place that `path` leads to from `here`, if it stays below the root. -/
def walk (here : List α) : List α → Option (List α)
  | [] => some here
  | segment :: path =>
    if segment = up then
      if here = [] then none else walk here.dropLast path
    else walk (here ++ [segment]) path

/-- The path from the root, with every step back undone. -/
def normalise (path : List α) : Option (List α) := walk up [] path

variable {up}

@[simp] theorem walk_nil (here : List α) : walk up here [] = some here := rfl

theorem walk_up (here path : List α) (hhere : here ≠ []) :
    walk up here (up :: path) = walk up here.dropLast path := by
  simp [walk, hhere]

theorem walk_name (here path : List α) {segment : α} (h : segment ≠ up) :
    walk up here (segment :: path) = walk up (here ++ [segment]) path := by
  simp [walk, h]

theorem walk_append (here xs ys : List α) :
    walk up here (xs ++ ys) = (walk up here xs).bind fun there => walk up there ys := by
  induction xs generalizing here with
  | nil => rfl
  | cons segment xs ih =>
    rw [List.cons_append]
    by_cases hup : segment = up
    · by_cases hhere : here = []
      · simp [walk, hup, hhere]
      · subst hup
        rw [walk_up _ _ hhere, walk_up _ _ hhere, ih]
    · rw [walk_name _ _ hup, walk_name _ _ hup, ih]

/-- A path without steps back goes down all the way. -/
theorem walk_of_notMem (here path : List α) (h : up ∉ path) :
    walk up here path = some (here ++ path) := by
  induction path generalizing here with
  | nil => simp
  | cons segment path ih =>
    have hne : segment ≠ up := fun e => h (e ▸ List.mem_cons_self)
    rw [walk_name here path hne, ih _ fun hmem => h (List.mem_cons_of_mem _ hmem)]
    simp

/-- A place consists of names on the way to it. -/
theorem mem_walk {here path there : List α} (h : walk up here path = some there) {s : α}
    (hs : s ∈ there) : s ∈ here ∨ s ∈ path ∧ s ≠ up := by
  induction path generalizing here with
  | nil =>
    obtain rfl := Option.some.inj h
    exact Or.inl hs
  | cons segment path ih =>
    by_cases hup : segment = up
    · by_cases hhere : here = []
      · simp [walk, hup, hhere] at h
      · subst hup
        rw [walk_up here path hhere] at h
        obtain hmem | ⟨hmem, hne⟩ := ih h
        · exact Or.inl ((List.dropLast_sublist _).mem hmem)
        · exact Or.inr ⟨List.mem_cons_of_mem _ hmem, hne⟩
    · rw [walk_name here path hup] at h
      obtain hmem | ⟨hmem, hne⟩ := ih h
      · obtain hmem | hmem := List.mem_append.1 hmem
        · exact Or.inl hmem
        · obtain rfl := List.mem_singleton.1 hmem
          exact Or.inr ⟨List.mem_cons_self, hup⟩
      · exact Or.inr ⟨List.mem_cons_of_mem _ hmem, hne⟩

theorem mem_normalise {path there : List α} (h : normalise up path = some there) {s : α}
    (hs : s ∈ there) : s ∈ path ∧ s ≠ up := by
  obtain hmem | hmem := mem_walk h hs
  · exact absurd hmem List.not_mem_nil
  · exact hmem

theorem up_notMem_normalise {path there : List α} (h : normalise up path = some there) :
    up ∉ there := fun hup => (mem_normalise h hup).2 rfl

end LexicalPath
