import Mathlib.Data.List.Basic

/-!
# Texts

A text is the list of its characters.  Whether one is among others is decided by the
equality of this module, whatever else a definition imports.
-/

instance List.instLawfulBEqChar : LawfulBEq (List Char) := inferInstance

/-- The first `c` divides a text in one way. -/
theorem List.eq_of_append_cons_eq {α : Type*} {c : α} {x y z w : List α} (hx : c ∉ x)
    (hy : c ∉ y) (h : x ++ c :: z = y ++ c :: w) : x = y ∧ z = w := by
  induction x generalizing y with
  | nil =>
    cases y with
    | nil => exact ⟨rfl, (List.cons.inj h).2⟩
    | cons b y =>
      obtain ⟨rfl, _⟩ := List.cons.inj h
      exact absurd List.mem_cons_self hy
  | cons a x ih =>
    cases y with
    | nil =>
      obtain ⟨rfl, _⟩ := List.cons.inj h
      exact absurd List.mem_cons_self hx
    | cons b y =>
      obtain ⟨rfl, htail⟩ := List.cons.inj h
      obtain ⟨rfl, hzw⟩ := ih (List.not_mem_of_not_mem_cons hx)
        (List.not_mem_of_not_mem_cons hy) htail
      exact ⟨rfl, hzw⟩
