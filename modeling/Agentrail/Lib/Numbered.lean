import Mathlib.Data.List.Induction
import Mathlib.Data.List.Nodup

/-!
# Names told apart by a counter

Each name of a list is given out as it is the first time and with its number from the second time
on: `mark a c` is the `c`-th name `a`.  The names given out are in one space with the names
themselves: they differ exactly if no name of the list is itself such a mark
(`nodup_numbered_iff`).
-/

namespace Numbered

variable {α : Type} [BEq α] [LawfulBEq α] (mark : α → ℕ → α)

/-- The `c`-th name `a`. -/
def nth (a : α) (c : ℕ) : α := if c = 1 then a else mark a c

/-- The names as they are given out after those of `before`. -/
def numberedFrom (before : List α) : List α → List α
  | [] => []
  | a :: as => nth mark a (before.count a + 1) :: numberedFrom (before ++ [a]) as

def numbered (names : List α) : List α := numberedFrom mark [] names

/-- No mark that is given out is a name of the list. -/
def Unmarked (names : List α) : Prop :=
  ∀ a c, 2 ≤ c → c ≤ names.count a → mark a c ∉ names

variable {mark}

omit [BEq α] [LawfulBEq α] in
theorem nth_one (a : α) : nth mark a 1 = a := if_pos rfl

omit [BEq α] [LawfulBEq α] in
theorem nth_of_two_le (a : α) {c : ℕ} (h : 2 ≤ c) : nth mark a c = mark a c :=
  if_neg (by omega)

omit [LawfulBEq α] in
theorem count_concat (names : List α) (b a : α) :
    (names ++ [b]).count a = names.count a + if b == a then 1 else 0 := by
  rw [List.count_append, List.count_singleton]

theorem count_concat_self (names : List α) (b : α) :
    (names ++ [b]).count b = names.count b + 1 := by
  rw [count_concat, if_pos (beq_self_eq_true b)]

theorem count_concat_ne (names : List α) {b a : α} (h : b ≠ a) :
    (names ++ [b]).count a = names.count a := by
  rw [count_concat, if_neg fun he => h (eq_of_beq he)]
  rfl

omit [LawfulBEq α] in
theorem numberedFrom_concat (names : List α) (a : α) : ∀ before : List α,
    numberedFrom mark before (names ++ [a]) =
      numberedFrom mark before names ++ [nth mark a ((before ++ names).count a + 1)] := by
  induction names with
  | nil =>
    intro before
    rw [List.append_nil]
    rfl
  | cons b names ih =>
    intro before
    rw [List.cons_append, numberedFrom, ih, List.append_assoc]
    rfl

omit [LawfulBEq α] in
theorem numbered_concat (names : List α) (a : α) : numbered mark (names ++ [a]) =
    numbered mark names ++ [nth mark a (names.count a + 1)] :=
  numberedFrom_concat names a []

/-- What is given out: the names, and the marks up to their counts. -/
theorem mem_numbered (names : List α) (x : α) : x ∈ numbered mark names ↔
    x ∈ names ∨ ∃ a c, 2 ≤ c ∧ c ≤ names.count a ∧ x = mark a c := by
  induction names using List.reverseRecOn with
  | nil =>
    constructor
    · exact Or.inl
    · rintro (h | ⟨a, c, hc, hcount, -⟩)
      · exact h
      · rw [List.count_nil] at hcount
        omega
  | append_singleton names b ih =>
    rw [numbered_concat, List.mem_append, ih, List.mem_append, List.mem_singleton,
      List.mem_singleton]
    constructor
    · rintro ((hin | ⟨a, c, hc, hle, rfl⟩) | rfl)
      · exact Or.inl (Or.inl hin)
      · exact Or.inr ⟨a, c, hc, by rw [count_concat]; omega, rfl⟩
      · by_cases hfirst : names.count b = 0
        · rw [hfirst, nth_one]
          exact Or.inl (Or.inr rfl)
        · refine Or.inr ⟨b, names.count b + 1, by omega, ?_, nth_of_two_le b (by omega)⟩
          exact Nat.le_of_eq (count_concat_self names b).symm
    · rintro ((hin | rfl) | ⟨a, c, hc, hle, rfl⟩)
      · exact Or.inl (Or.inl hin)
      · by_cases hfirst : names.count x = 0
        · rw [hfirst, nth_one]
          exact Or.inr rfl
        · exact Or.inl (Or.inl (List.count_pos_iff.mp (by omega)))
      · by_cases hold : c ≤ names.count a
        · exact Or.inl (Or.inr ⟨a, c, hc, hold, rfl⟩)
        · have hb : b = a := by
            by_contra hne
            rw [count_concat_ne names hne] at hle
            omega
          subst hb
          rw [count_concat_self] at hle
          have hnew : c = names.count b + 1 := by omega
          subst hnew
          exact Or.inr (nth_of_two_le b (by omega)).symm

/-- **The names given out differ exactly if no mark among them is a name of the list.** -/
theorem nodup_numbered_iff (hinj : ∀ a c a' c', mark a c = mark a' c' → a = a' ∧ c = c')
    (names : List α) : (numbered mark names).Nodup ↔ Unmarked mark names := by
  induction names using List.reverseRecOn with
  | nil => exact ⟨fun _ a c _ _ => List.not_mem_nil, fun _ => List.nodup_nil⟩
  | append_singleton names b ih =>
    have hsplit : (numbered mark (names ++ [b])).Nodup ↔
        nth mark b (names.count b + 1) ∉ numbered mark names ∧ Unmarked mark names := by
      rw [numbered_concat, ← ih, List.nodup_append_comm]
      exact List.nodup_cons
    rw [hsplit, mem_numbered]
    constructor
    · rintro ⟨hnew, hold⟩ a c hc hle hmem
      rw [not_or] at hnew
      have hin : mark a c ∈ names := by
        rcases List.mem_append.mp hmem with hin | hin
        · exact hin
        · -- the mark is the new name, which is then not new
          rw [List.mem_singleton.mp hin]
          by_contra hb
          have hzero := List.count_eq_zero_of_not_mem hb
          rw [hzero, nth_one] at hnew
          have hother : b ≠ a := by
            rintro rfl
            rw [count_concat_self, hzero] at hle
            omega
          rw [count_concat_ne names hother] at hle
          exact hnew.2 ⟨a, c, hc, hle, (List.mem_singleton.mp hin).symm⟩
      by_cases hle' : c ≤ names.count a
      · exact hold a c hc hle' hin
      · have hb : b = a := by
          by_contra hne
          rw [count_concat_ne names hne] at hle
          omega
        subst hb
        rw [count_concat_self] at hle
        obtain rfl : c = names.count b + 1 := by omega
        rw [nth_of_two_le b hc] at hnew
        exact hnew.1 hin
    · intro h
      refine ⟨?_, fun a c hc hle hin => h a c hc ?_ (List.mem_append_left _ hin)⟩
      · rintro (hin | ⟨a, c, hc, hle, he⟩)
        · by_cases hfirst : names.count b = 0
          · rw [hfirst, nth_one] at hin
            have hpos := List.count_pos_iff.mpr hin
            omega
          · have hc : 2 ≤ names.count b + 1 := by omega
            rw [nth_of_two_le b hc] at hin
            refine h b _ hc ?_ (List.mem_append_left _ hin)
            exact Nat.le_of_eq (count_concat_self names b).symm
        · by_cases hfirst : names.count b = 0
          · rw [hfirst, nth_one] at he
            refine h a c hc ?_ (List.mem_append_right _ (List.mem_singleton.mpr he.symm))
            rw [count_concat]
            omega
          · rw [nth_of_two_le b (by omega)] at he
            obtain ⟨rfl, rfl⟩ := hinj _ _ _ _ he
            omega
      · rw [count_concat]
        omega

end Numbered
