import Mathlib.Data.List.Infix
import Mathlib.Data.List.Basic

/-!
# Occurrences of a word in a text

`occurrences m s` counts the places of `s` where the word `m` stands, `replaceAll`
replaces the places from left to right that do not overlap.

A letter that is not in the word divides what is counted (`occurrences_append_cons`).
Where `z` is not in the words, to replace a word by its letters with `z` between them
adds no place of any word (`occurrences_replaceAll_le`), and leaves none of the word
itself when it does not end as it starts (`occurrences_replaceAll_self`).
-/

namespace Occurrences

section
variable {α : Type}

/-- A word without `c` that stands before a `c` ends before it. -/
theorem prefix_append_cons_iff (m : List α) (c : α) (a b : List α) (hc : c ∉ m) :
    m <+: a ++ c :: b ↔ m <+: a := by
  constructor
  · intro h
    induction m generalizing a with
    | nil => exact List.nil_prefix
    | cons d m ih =>
      rw [List.mem_cons, not_or] at hc
      cases a with
      | nil =>
        obtain ⟨hdc, -⟩ := List.cons_prefix_cons.mp h
        exact absurd hdc.symm hc.1
      | cons e a =>
        obtain ⟨rfl, htail⟩ := List.cons_prefix_cons.mp h
        exact List.cons_prefix_cons.mpr ⟨rfl, ih a hc.2 htail⟩
  · exact fun h => h.trans (List.prefix_append a _)

theorem intersperse_cons_append (z c : α) (word s : List α) (hword : word ≠ []) :
    (c :: word).intersperse z ++ s = c :: z :: (word.intersperse z ++ s) := by
  obtain ⟨d, word, rfl⟩ := List.exists_cons_of_ne_nil hword
  rfl

/-- Each of the texts put together is a part of the whole. -/
theorem infix_intercalate (sep x : List α) (xs : List (List α)) (hx : x ∈ xs) :
    x <:+: List.intercalate sep xs := by
  induction xs with
  | nil => exact absurd hx List.not_mem_nil
  | cons y xs ih =>
    cases xs with
    | nil =>
      rw [List.intercalate_singleton, List.mem_singleton.mp hx]
    | cons z zs =>
      rw [List.intercalate_cons_cons]
      rcases List.mem_cons.mp hx with rfl | hx
      · exact ⟨[], sep ++ List.intercalate sep (z :: zs), by simp⟩
      · exact (ih hx).trans (List.suffix_append _ _).isInfix

variable [DecidableEq α]

/-- The places of the text where the word stands. -/
def occurrences (m : List α) : List α → Nat
  | [] => 0
  | c :: s => (if m.isPrefixOf (c :: s) then 1 else 0) + occurrences m s

/-- The text with the word replaced, without the letters of a place that is being skipped. -/
def replaceFrom (old new : List α) : Nat → List α → List α
  | _, [] => []
  | 0, c :: s =>
    if old.isPrefixOf (c :: s) then new ++ replaceFrom old new (old.length - 1) s
    else c :: replaceFrom old new 0 s
  | n + 1, _ :: s => replaceFrom old new n s

/-- `s` with every `old` replaced by `new`, from the left, for an `old` that is not empty. -/
def replaceAll (old new s : List α) : List α := replaceFrom old new 0 s

/-! ## Counting -/

@[simp] theorem occurrences_nil (m : List α) : occurrences m [] = 0 := rfl

theorem occurrences_cons (m : List α) (c : α) (s : List α) :
    occurrences m (c :: s) = (if m <+: c :: s then 1 else 0) + occurrences m s := by
  rw [occurrences]
  simp only [List.isPrefixOf_iff_prefix]

theorem occurrences_le_append (m a b : List α) : occurrences m b ≤ occurrences m (a ++ b) := by
  induction a with
  | nil => exact le_refl _
  | cons c a ih =>
    rw [List.cons_append, occurrences_cons]
    omega

/-- No place reaches over a letter that the word does not have. -/
theorem occurrences_append_cons (m : List α) (c : α) (a b : List α) (hc : c ∉ m) (hm : m ≠ []) :
    occurrences m (a ++ c :: b) = occurrences m a + occurrences m b := by
  induction a with
  | nil =>
    have hnot : ¬m <+: c :: b := by
      intro h
      have hnil := (prefix_append_cons_iff m c [] b hc).mp h
      exact hm (List.prefix_nil.mp hnil)
    rw [List.nil_append, occurrences_cons, if_neg hnot, occurrences_nil]
  | cons d a ih =>
    rw [List.cons_append, occurrences_cons, occurrences_cons, ih]
    have hiff := prefix_append_cons_iff m c (d :: a) b hc
    rw [List.cons_append] at hiff
    simp only [hiff]
    omega

/-- A word counts in a text exactly when it stands somewhere in it. -/
theorem occurrences_pos_iff (m s : List α) (hm : m ≠ []) : 0 < occurrences m s ↔ m <:+: s := by
  induction s with
  | nil =>
    constructor
    · intro h
      exact absurd h (lt_irrefl 0)
    · intro h
      exact absurd (List.infix_nil.mp h) hm
  | cons c s ih =>
    rw [occurrences_cons, List.infix_cons_iff, ← ih]
    split
    · rename_i h
      exact ⟨fun _ => Or.inl h, fun _ => by omega⟩
    · rename_i h
      rw [Nat.zero_add]
      exact ⟨Or.inr, fun hor => hor.resolve_left h⟩

/-- Texts put together with a letter between them that the word does not have. -/
theorem occurrences_intercalate (m : List α) (c : α) (hc : c ∉ m) (hm : m ≠ [])
    (xs : List (List α)) :
    occurrences m (List.intercalate [c] xs) = 0 ↔ ∀ x ∈ xs, occurrences m x = 0 := by
  induction xs with
  | nil => exact ⟨fun _ x hx => absurd hx List.not_mem_nil, fun _ => rfl⟩
  | cons x xs ih =>
    rw [List.forall_mem_cons]
    cases xs with
    | nil =>
      rw [List.intercalate_singleton]
      exact ⟨fun h => ⟨h, fun y hy => absurd hy List.not_mem_nil⟩, fun h => h.1⟩
    | cons y ys =>
      rw [List.intercalate_cons_cons, List.append_assoc, List.singleton_append,
        occurrences_append_cons m c x _ hc hm, ← ih, Nat.add_eq_zero_iff]

/-! ## Replacing -/

theorem replaceFrom_skip (old new a b : List α) :
    replaceFrom old new a.length (a ++ b) = replaceFrom old new 0 b := by
  induction a with
  | nil => rfl
  | cons c a ih => exact ih

theorem replaceAll_match (new : List α) (c : α) (old s : List α) :
    replaceAll (c :: old) new (c :: old ++ s) = new ++ replaceAll (c :: old) new s := by
  have hpre : (c :: old).isPrefixOf (c :: (old ++ s)) = true :=
    List.isPrefixOf_iff_prefix.mpr ⟨s, rfl⟩
  unfold replaceAll
  rw [List.cons_append, replaceFrom, if_pos hpre, List.length_cons, Nat.add_sub_cancel,
    replaceFrom_skip]

theorem replaceAll_cons (old new : List α) (c : α) (s : List α) (h : ¬old <+: c :: s) :
    replaceAll old new (c :: s) = c :: replaceAll old new s := by
  have hpre : ¬old.isPrefixOf (c :: s) = true := fun hp => h (List.isPrefixOf_iff_prefix.mp hp)
  unfold replaceAll
  rw [replaceFrom, if_neg hpre]

/-- What holds of the empty text, behind a letter where the word does not stand and behind the
word holds of every text. -/
theorem replaceAll_induction {old : List α} (hold : old ≠ []) {motive : List α → Prop}
    (nil : motive []) (cons : ∀ c s, ¬old <+: c :: s → motive s → motive (c :: s))
    (word : ∀ s, motive s → motive (old ++ s)) (s : List α) : motive s := by
  induction hn : s.length using Nat.strong_induction_on generalizing s with
  | _ n ih =>
    subst hn
    cases s with
    | nil => exact nil
    | cons c s =>
      by_cases hpre : old <+: c :: s
      · obtain ⟨rest, hrest⟩ := hpre
        have hlen : rest.length < (c :: s).length := by
          have hpos := List.length_pos_iff.mpr hold
          rw [← hrest, List.length_append]
          omega
        rw [← hrest]
        exact word rest (ih rest.length hlen rest rfl)
      · exact cons c s hpre (ih s.length (Nat.lt_succ_self _) s rfl)

/-! ## A letter between the letters of a word -/

variable (z : α)

/-- Only the last letter of a word taken apart can start a place. -/
theorem occurrences_intersperse (m : List α) (hz : z ∉ m) (hlen : 1 < m.length) (d : α)
    (word s : List α) :
    occurrences m ((word ++ [d]).intersperse z ++ s) = occurrences m (d :: s) := by
  have hm : m ≠ [] := List.ne_nil_of_length_pos (Nat.lt_of_succ_lt hlen)
  have hone : ∀ c, occurrences m [c] = 0 := by
    intro c
    have hnot : ¬m <+: [c] := fun h => absurd h.length_le (by simpa using hlen)
    rw [occurrences_cons, if_neg hnot, occurrences_nil]
  induction word with
  | nil => rfl
  | cons c word ih =>
    rw [List.cons_append, intersperse_cons_append z c _ s (by simp)]
    have hsplit := occurrences_append_cons m z [c] ((word ++ [d]).intersperse z ++ s) hz hm
    rw [List.singleton_append] at hsplit
    rw [hsplit, hone, Nat.zero_add, ih]

/-- What stands at the start of the replaced text without a `z` stood there before. -/
theorem prefix_of_prefix_replaceAll (old : List α) (hold : 1 < old.length) (s p : List α)
    (hz : z ∉ p) (hp : p <+: replaceAll old (old.intersperse z) s) : p <+: s := by
  have hne : old ≠ [] := List.ne_nil_of_length_pos (Nat.lt_of_succ_lt hold)
  induction s using replaceAll_induction hne generalizing p with
  | nil => exact hp
  | cons c s hnot ih =>
    rw [replaceAll_cons old _ c s hnot] at hp
    cases p with
    | nil => exact List.nil_prefix
    | cons e p =>
      obtain ⟨rfl, htail⟩ := List.cons_prefix_cons.mp hp
      rw [List.mem_cons, not_or] at hz
      exact List.cons_prefix_cons.mpr ⟨rfl, ih p hz.2 htail⟩
  | word s ih =>
    obtain ⟨c, word, rfl⟩ := List.exists_cons_of_ne_nil hne
    have hword : word ≠ [] := by
      rintro rfl
      exact absurd hold (lt_irrefl 1)
    rw [replaceAll_match, intersperse_cons_append z c word _ hword] at hp
    have hfirst : p <+: [c] := (prefix_append_cons_iff p z [c] _ hz).mp hp
    exact hfirst.trans ⟨word ++ s, rfl⟩

/-- To take one word apart makes no place of another. -/
theorem occurrences_replaceAll_le (m old : List α) (hz : z ∉ m) (hlen : 1 < m.length)
    (hold : 1 < old.length) (s : List α) :
    occurrences m (replaceAll old (old.intersperse z) s) ≤ occurrences m s := by
  have hne : old ≠ [] := List.ne_nil_of_length_pos (Nat.lt_of_succ_lt hold)
  have hcons : ∀ (c : α) (s : List α),
      occurrences m (replaceAll old (old.intersperse z) s) ≤ occurrences m s →
      occurrences m (c :: replaceAll old (old.intersperse z) s) ≤ occurrences m (c :: s) := by
    intro c s ih
    rw [occurrences_cons, occurrences_cons]
    have hmono : m <+: c :: replaceAll old (old.intersperse z) s → m <+: c :: s := by
      intro hp
      cases m with
      | nil => exact List.nil_prefix
      | cons e m =>
        obtain ⟨rfl, htail⟩ := List.cons_prefix_cons.mp hp
        rw [List.mem_cons, not_or] at hz
        exact List.cons_prefix_cons.mpr
          ⟨rfl, prefix_of_prefix_replaceAll z old hold s m hz.2 htail⟩
    split
    · rename_i hp
      rw [if_pos (hmono hp)]
      omega
    · omega
  induction s using replaceAll_induction hne with
  | nil => exact le_refl _
  | cons c s hnot ih =>
    rw [replaceAll_cons old _ c s hnot]
    exact hcons c s ih
  | word s ih =>
    obtain ⟨c, word, rfl⟩ := List.exists_cons_of_ne_nil hne
    rw [replaceAll_match]
    obtain ⟨front, d, hlast⟩ : ∃ front d, c :: word = front ++ [d] :=
      ⟨(c :: word).dropLast, (c :: word).getLast hne, (List.dropLast_append_getLast hne).symm⟩
    calc occurrences m ((c :: word).intersperse z ++ replaceAll (c :: word) _ s)
        = occurrences m (d :: replaceAll (c :: word) ((c :: word).intersperse z) s) := by
          rw [hlast, occurrences_intersperse z m hz hlen]
      _ ≤ occurrences m (d :: s) := hcons d s ih
      _ ≤ occurrences m (front ++ d :: s) := occurrences_le_append m front (d :: s)
      _ = occurrences m (c :: word ++ s) := by rw [hlast, List.append_assoc]; rfl

/-- A word that does not end as it starts is nowhere once it is taken apart. -/
theorem occurrences_replaceAll_self (old : List α) (hz : z ∉ old) (hold : 1 < old.length)
    (hends : old.head? ≠ old.getLast?) (s : List α) :
    occurrences old (replaceAll old (old.intersperse z) s) = 0 := by
  have hne : old ≠ [] := List.ne_nil_of_length_pos (Nat.lt_of_succ_lt hold)
  induction s using replaceAll_induction hne with
  | nil => rfl
  | cons c s hnot ih =>
    rw [replaceAll_cons old _ c s hnot, occurrences_cons, ih]
    refine if_neg fun hp => hnot ?_
    rw [← replaceAll_cons old (old.intersperse z) c s hnot] at hp
    exact prefix_of_prefix_replaceAll z old hold (c :: s) old hz hp
  | word s ih =>
    obtain ⟨c, word, rfl⟩ := List.exists_cons_of_ne_nil hne
    rw [replaceAll_match]
    obtain ⟨front, d, hlast⟩ : ∃ front d, c :: word = front ++ [d] :=
      ⟨(c :: word).dropLast, (c :: word).getLast hne, (List.dropLast_append_getLast hne).symm⟩
    have hcount : occurrences (c :: word) ((c :: word).intersperse z ++
        replaceAll (c :: word) ((c :: word).intersperse z) s) =
        occurrences (c :: word) (d :: replaceAll (c :: word) ((c :: word).intersperse z) s) := by
      have hinter := occurrences_intersperse z (c :: word) hz hold d front
        (replaceAll (c :: word) ((c :: word).intersperse z) s)
      rwa [← hlast] at hinter
    rw [hcount, occurrences_cons, ih]
    refine if_neg fun hp => hends ?_
    obtain ⟨hcd, -⟩ := List.cons_prefix_cons.mp hp
    rw [hlast, List.getLast?_concat, ← hlast, List.head?_cons, hcd]

end

end Occurrences
