import Mathlib.Data.List.Nodup

/-!
# The first element of every key

`firstByKey key seen xs` keeps of `xs` the elements whose key is neither in `seen` nor that of one
before them.  Every key stays and none stays twice; the list is as long as before if and only if
its keys were distinct.
-/

namespace FirstByKey

variable {α κ : Type*} [DecidableEq κ] (key : α → κ)

def firstByKey (seen : List κ) : List α → List α
  | [] => []
  | x :: xs => if key x ∈ seen then firstByKey seen xs else x :: firstByKey (key x :: seen) xs

variable {key}

theorem firstByKey_sublist (seen : List κ) (xs : List α) :
    (firstByKey key seen xs).Sublist xs := by
  induction xs generalizing seen with
  | nil => exact List.Sublist.refl _
  | cons x xs ih =>
    unfold firstByKey
    by_cases h : key x ∈ seen
    · rw [if_pos h]
      exact (ih seen).cons x
    · rw [if_neg h]
      exact (ih _).cons_cons x

theorem key_notMem_seen {seen : List κ} {xs : List α} {y : α}
    (h : y ∈ firstByKey key seen xs) : key y ∉ seen := by
  induction xs generalizing seen with
  | nil => exact absurd h List.not_mem_nil
  | cons x xs ih =>
    unfold firstByKey at h
    by_cases hx : key x ∈ seen
    · rw [if_pos hx] at h
      exact ih h
    · rw [if_neg hx] at h
      obtain rfl | h := List.mem_cons.1 h
      · exact hx
      · exact fun hy => ih h (List.mem_cons_of_mem _ hy)

theorem nodup_keys (seen : List κ) (xs : List α) :
    ((firstByKey key seen xs).map key).Nodup := by
  induction xs generalizing seen with
  | nil => exact List.nodup_nil
  | cons x xs ih =>
    unfold firstByKey
    by_cases h : key x ∈ seen
    · rw [if_pos h]
      exact ih seen
    · rw [if_neg h, List.map_cons, List.nodup_cons]
      refine ⟨fun hmem => ?_, ih _⟩
      obtain ⟨y, hy, heq⟩ := List.mem_map.1 hmem
      exact key_notMem_seen hy (heq ▸ List.mem_cons_self)

theorem exists_mem {seen : List κ} {xs : List α} {x : α} (h : x ∈ xs) (hseen : key x ∉ seen) :
    ∃ y ∈ firstByKey key seen xs, key y = key x := by
  induction xs generalizing seen with
  | nil => exact absurd h List.not_mem_nil
  | cons z xs ih =>
    unfold firstByKey
    by_cases hz : key z ∈ seen
    · rw [if_pos hz]
      obtain rfl | h := List.mem_cons.1 h
      · exact absurd hz hseen
      · exact ih h hseen
    · rw [if_neg hz]
      by_cases heq : key x = key z
      · exact ⟨z, List.mem_cons_self, heq.symm⟩
      · obtain rfl | h := List.mem_cons.1 h
        · exact absurd rfl heq
        · have hnew : key x ∉ key z :: seen := fun hmem =>
            (List.mem_cons.1 hmem).elim heq hseen
          obtain ⟨y, hy, hkey⟩ := ih h hnew
          exact ⟨y, List.mem_cons_of_mem _ hy, hkey⟩

/-- Distinct keys that were not seen stay. -/
theorem firstByKey_eq_self {seen : List κ} {xs : List α} (hnodup : (xs.map key).Nodup)
    (hseen : ∀ x ∈ xs, key x ∉ seen) : firstByKey key seen xs = xs := by
  induction xs generalizing seen with
  | nil => rfl
  | cons x xs ih =>
    rw [List.map_cons, List.nodup_cons] at hnodup
    unfold firstByKey
    rw [if_neg (hseen x List.mem_cons_self), ih hnodup.2]
    intro y hy hmem
    obtain heq | hmem := List.mem_cons.1 hmem
    · exact hnodup.1 (heq ▸ List.mem_map_of_mem hy)
    · exact hseen y (List.mem_cons_of_mem _ hy) hmem

/-- Distinct keys that are new stay after what is in front of them. -/
theorem firstByKey_append {seen : List κ} {xs ys : List α} (hnodup : (ys.map key).Nodup)
    (hseen : ∀ y ∈ ys, key y ∉ seen) (hnew : ∀ y ∈ ys, ∀ x ∈ xs, key y ≠ key x) :
    firstByKey key seen (xs ++ ys) = firstByKey key seen xs ++ ys := by
  induction xs generalizing seen with
  | nil => exact firstByKey_eq_self hnodup hseen
  | cons x xs ih =>
    have htail : ∀ y ∈ ys, ∀ z ∈ xs, key y ≠ key z := fun y hy z hz =>
      hnew y hy z (List.mem_cons_of_mem _ hz)
    rw [List.cons_append]
    unfold firstByKey
    by_cases h : key x ∈ seen
    · rw [if_pos h, if_pos h, ih hseen htail]
    · rw [if_neg h, if_neg h, ih _ htail, List.cons_append]
      intro y hy hmem
      obtain heq | hmem := List.mem_cons.1 hmem
      · exact hnew y hy x List.mem_cons_self heq
      · exact hseen y hy hmem

theorem length_firstByKey_eq_iff {xs : List α} :
    (firstByKey key [] xs).length = xs.length ↔ (xs.map key).Nodup := by
  constructor
  · intro h
    rw [← (firstByKey_sublist [] xs).eq_of_length h]
    exact nodup_keys [] xs
  · intro h
    rw [firstByKey_eq_self h fun x _ => List.not_mem_nil]

end FirstByKey
