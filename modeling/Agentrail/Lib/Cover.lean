import Mathlib.Data.List.Basic

/-!
# Finite unions of pieces

A list of pieces stands for the union of what they hold (`Covers`).  From what a
meet and a difference of two pieces hold follows what the pairwise meets of two
lists and the successive differences of a list hold.
-/

namespace Cover

section
variable {ι α : Type} (Mem : ι → α → Prop) (Ok : ι → Prop)

def Covers (pieces : List ι) (a : α) : Prop := ∃ i ∈ pieces, Mem i a

theorem covers_flatMap (f : ι → List ι) (pieces : List ι) (a : α) :
    Covers Mem (pieces.flatMap f) a ↔ ∃ i ∈ pieces, Covers Mem (f i) a := by
  constructor
  · rintro ⟨k, hk, hmem⟩
    obtain ⟨i, hi, hki⟩ := List.mem_flatMap.mp hk
    exact ⟨i, hi, k, hki, hmem⟩
  · rintro ⟨i, hi, k, hki, hmem⟩
    exact ⟨k, List.mem_flatMap.mpr ⟨i, hi, hki⟩, hmem⟩

/-- The pairwise meets. -/
def meets (meet : ι → ι → Option ι) (xs ys : List ι) : List ι :=
  xs.flatMap fun i => ys.filterMap (meet i)

theorem covers_meets (meet : ι → ι → Option ι)
    (hmeet : ∀ i j a, Ok i → Ok j → ((∃ k, meet i j = some k ∧ Mem k a) ↔ Mem i a ∧ Mem j a))
    (xs ys : List ι) (hx : ∀ i ∈ xs, Ok i) (hy : ∀ j ∈ ys, Ok j) (a : α) :
    Covers Mem (meets meet xs ys) a ↔ Covers Mem xs a ∧ Covers Mem ys a := by
  unfold meets
  rw [covers_flatMap]
  constructor
  · rintro ⟨i, hi, k, hk, hmem⟩
    obtain ⟨j, hj, hij⟩ := List.mem_filterMap.mp hk
    obtain ⟨hia, hja⟩ := (hmeet i j a (hx i hi) (hy j hj)).mp ⟨k, hij, hmem⟩
    exact ⟨⟨i, hi, hia⟩, ⟨j, hj, hja⟩⟩
  · rintro ⟨⟨i, hi, hia⟩, ⟨j, hj, hja⟩⟩
    obtain ⟨k, hij, hmem⟩ := (hmeet i j a (hx i hi) (hy j hj)).mpr ⟨hia, hja⟩
    exact ⟨i, hi, k, List.mem_filterMap.mpr ⟨j, hj, hij⟩, hmem⟩

/-- What is left of the pieces of `xs` without one piece. -/
def without (sub : ι → ι → List ι) (xs : List ι) (j : ι) : List ι := xs.flatMap fun i => sub i j

variable (sub : ι → ι → List ι)
variable (hsub : ∀ i j a, Ok i → Ok j → (Covers Mem (sub i j) a ↔ Mem i a ∧ ¬Mem j a))
variable (hok : ∀ i j, Ok i → Ok j → ∀ k ∈ sub i j, Ok k)

include hok in
theorem ok_without (xs : List ι) (j : ι) (hx : ∀ i ∈ xs, Ok i) (hj : Ok j) :
    ∀ k ∈ without sub xs j, Ok k := by
  intro k hk
  obtain ⟨i, hi, hki⟩ := List.mem_flatMap.mp hk
  exact hok i j (hx i hi) hj k hki

include hsub in
theorem covers_without (xs : List ι) (j : ι) (hx : ∀ i ∈ xs, Ok i) (hj : Ok j) (a : α) :
    Covers Mem (without sub xs j) a ↔ Covers Mem xs a ∧ ¬Mem j a := by
  unfold without
  rw [covers_flatMap]
  constructor
  · rintro ⟨i, hi, hmem⟩
    obtain ⟨hia, hja⟩ := (hsub i j a (hx i hi) hj).mp hmem
    exact ⟨⟨i, hi, hia⟩, hja⟩
  · rintro ⟨⟨i, hi, hia⟩, hja⟩
    exact ⟨i, hi, (hsub i j a (hx i hi) hj).mpr ⟨hia, hja⟩⟩

include hsub hok in
/-- Piece after piece is taken out. -/
theorem covers_foldl_without (xs covers : List ι) (hx : ∀ i ∈ xs, Ok i)
    (hc : ∀ j ∈ covers, Ok j) (a : α) :
    Covers Mem (covers.foldl (without sub) xs) a ↔ Covers Mem xs a ∧ ¬Covers Mem covers a := by
  induction covers generalizing xs with
  | nil =>
    constructor
    · rintro h
      exact ⟨h, fun ⟨_, hj, _⟩ => by cases hj⟩
    · exact fun h => h.1
  | cons j covers ih =>
    have hj := hc j List.mem_cons_self
    rw [List.foldl_cons, ih (without sub xs j) (ok_without Ok sub hok xs j hx hj)
      fun i hi => hc i (List.mem_cons_of_mem j hi), covers_without Mem Ok sub hsub xs j hx hj]
    constructor
    · rintro ⟨⟨hxa, hja⟩, hrest⟩
      refine ⟨hxa, fun ⟨i, hi, hia⟩ => ?_⟩
      rcases List.mem_cons.mp hi with rfl | hi
      · exact hja hia
      · exact hrest ⟨i, hi, hia⟩
    · rintro ⟨hxa, hnone⟩
      refine ⟨⟨hxa, fun hja => hnone ⟨j, List.mem_cons_self, hja⟩⟩, fun ⟨i, hi, hia⟩ => ?_⟩
      exact hnone ⟨i, List.mem_cons_of_mem j hi, hia⟩

include hok in
theorem ok_foldl_without (xs covers : List ι) (hx : ∀ i ∈ xs, Ok i) (hc : ∀ j ∈ covers, Ok j) :
    ∀ k ∈ covers.foldl (without sub) xs, Ok k := by
  induction covers generalizing xs with
  | nil => exact hx
  | cons j covers ih =>
    exact ih (without sub xs j) (ok_without Ok sub hok xs j hx (hc j List.mem_cons_self))
      fun i hi => hc i (List.mem_cons_of_mem j hi)

end

end Cover
