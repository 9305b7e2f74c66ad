import Mathlib.Data.Nat.Size
import Mathlib.Data.List.Basic
import Mathlib.Logic.Function.Basic
import Mathlib.Tactic.Ring

/-!
# Merkle tree hashes of lists (RFC 6962, section 2.1)

`mth node empty D` is the tree hash of the leaf hashes `D`: a list of `n ≥ 2`
leaves splits at `splitWidth n`, the largest power of two below `n`.
`auditPath` and `consistencyPath` are the two proofs of the RFC, outermost
hash last.  Everything is over an arbitrary digest type `δ` and an arbitrary
`node : δ → δ → δ`; what needs `node` to be injective says so.
-/

namespace Merkle

/-! ## The split point -/

/-- The largest power of two below `n` (for `2 ≤ n`). -/
def splitWidth (n : Nat) : Nat := 2 ^ ((n - 1).size - 1)

theorem splitWidth_pos (n : Nat) : 0 < splitWidth n := Nat.two_pow_pos _

theorem size_pred_pos (n : Nat) (h : 2 ≤ n) : 1 ≤ (n - 1).size :=
  Nat.size_pos.mpr (by omega)

theorem splitWidth_lt (n : Nat) (h : 2 ≤ n) : splitWidth n < n := by
  have hs := size_pred_pos n h
  have : 2 ^ ((n - 1).size - 1) ≤ n - 1 := Nat.lt_size.mp (by omega)
  unfold splitWidth
  omega

theorem le_two_mul_splitWidth (n : Nat) (h : 2 ≤ n) : n ≤ 2 * splitWidth n := by
  have hs := size_pred_pos n h
  have hlt : n - 1 < 2 ^ (n - 1).size := Nat.lt_size_self (n - 1)
  have he : 2 ^ (n - 1).size = 2 * splitWidth n := by
    unfold splitWidth
    rw [← pow_succ', Nat.sub_add_cancel hs]
  omega

/-- The split point is the only power of two in `[n / 2, n)`. -/
theorem splitWidth_eq (n k : Nat) (h1 : 2 ^ k < n) (h2 : n ≤ 2 ^ (k + 1)) :
    splitWidth n = 2 ^ k := by
  have hk : 1 ≤ 2 ^ k := Nat.one_le_two_pow
  have h3 : k < (n - 1).size := Nat.lt_size.mpr (by omega)
  have h4 : (n - 1).size ≤ k + 1 := Nat.size_le.mpr (by omega)
  unfold splitWidth
  congr 1
  omega

theorem splitWidth_eq_pow (n : Nat) : ∃ k, splitWidth n = 2 ^ k := ⟨_, rfl⟩

/-- A prefix that reaches past the split point splits at the same place. -/
theorem splitWidth_stable (n m : Nat) (h : 2 ≤ n) (h1 : splitWidth n < m) (h2 : m ≤ n) :
    splitWidth m = splitWidth n := by
  obtain ⟨k, hk⟩ := splitWidth_eq_pow n
  have h3 := le_two_mul_splitWidth n h
  rw [hk] at h1 h3 ⊢
  exact splitWidth_eq m k h1 (by rw [pow_succ']; omega)

theorem splitWidth_le_two_pow (n k : Nat) (h : 2 ≤ n) (hn : n ≤ 2 ^ (k + 1)) :
    splitWidth n ≤ 2 ^ k := by
  obtain ⟨j, hj⟩ := splitWidth_eq_pow n
  have hlt := splitWidth_lt n h
  rw [hj] at hlt ⊢
  have hjk : 2 ^ j < 2 ^ (k + 1) := by omega
  have := (Nat.pow_lt_pow_iff_right (by omega)).mp hjk
  exact Nat.pow_le_pow_right (by omega) (by omega)

/-! ## Tree hash -/

section
variable {δ : Type} (node : δ → δ → δ) (empty : δ)

/-- `MTH(D)`. -/
def mth (D : List δ) : δ :=
  if _h : 2 ≤ D.length then
    node (mth (D.take (splitWidth D.length))) (mth (D.drop (splitWidth D.length)))
  else D.headD empty
termination_by D.length
decreasing_by
  · have := splitWidth_lt D.length _h
    simp only [List.length_take]; omega
  · have := splitWidth_pos D.length
    simp only [List.length_drop]; omega

theorem mth_singleton (d : δ) : mth node empty [d] = d := by
  rw [mth]; rfl

theorem mth_split (D : List δ) (h : 2 ≤ D.length) :
    mth node empty D = node (mth node empty (D.take (splitWidth D.length)))
      (mth node empty (D.drop (splitWidth D.length))) := by
  rw [mth, dif_pos h]

theorem mth_of_length_one (D : List δ) (i : Nat) (h : D.length = 1) (hi : i < D.length) :
    mth node empty D = D[i] := by
  obtain ⟨d, rfl⟩ := List.length_eq_one_iff.mp h
  obtain rfl : i = 0 := by simp at h hi; omega
  exact mth_singleton node empty d

/-- A full left tree of `2 ^ k` leaves is one subtree of every longer list it starts,
up to twice its size. -/
theorem mth_append (D E : List δ) (k : Nat) (hD : D.length = 2 ^ k) (hE : 0 < E.length)
    (hE' : E.length ≤ 2 ^ k) :
    mth node empty (D ++ E) = node (mth node empty D) (mth node empty E) := by
  have hk : 1 ≤ 2 ^ k := Nat.one_le_two_pow
  have hw : splitWidth (D ++ E).length = D.length := by
    rw [hD, List.length_append, hD]
    exact splitWidth_eq _ k (by omega) (by rw [pow_succ']; omega)
  rw [mth_split node empty _ (by rw [List.length_append]; omega), hw, List.take_left',
    List.drop_left'] <;> rfl

/-- The hash of a prefix that reaches past the split point of the whole list. -/
theorem mth_take_split (D : List δ) (m : Nat) (h : splitWidth D.length < m) (hm : m ≤ D.length) :
    mth node empty (D.take m) = node (mth node empty (D.take (splitWidth D.length)))
      (mth node empty ((D.drop (splitWidth D.length)).take (m - splitWidth D.length))) := by
  have hp := splitWidth_pos D.length
  have hlen : (D.take m).length = m := by simp; omega
  rw [mth_split node empty _ (by omega), hlen, splitWidth_stable D.length m (by omega) h hm,
    List.take_take, Nat.min_eq_left (by omega), List.drop_take]

/-- Lists of one length are determined by their tree hash. -/
theorem mth_injective (hnode : Function.Injective2 node) :
    ∀ D E : List δ, D.length = E.length → mth node empty D = mth node empty E → D = E := by
  intro D
  induction hn : D.length using Nat.strong_induction_on generalizing D with
  | _ n ih =>
    intro E hlen heq
    by_cases h : 2 ≤ n
    · have hw := splitWidth_lt n h
      have hp := splitWidth_pos n
      rw [mth_split node empty D (by omega), mth_split node empty E (by omega), ← hlen, hn] at heq
      obtain ⟨hl, hr⟩ := hnode heq
      have htake := ih (splitWidth n) hw (D.take (splitWidth n)) (by simp; omega)
        (E.take (splitWidth n)) (by simp; omega) hl
      have hdrop := ih (n - splitWidth n) (by omega) (D.drop (splitWidth n)) (by simp; omega)
        (E.drop (splitWidth n)) (by simp; omega) hr
      rw [← List.take_append_drop (splitWidth n) D, ← List.take_append_drop (splitWidth n) E,
        htake, hdrop]
    · rcases Nat.lt_or_ge 0 n with h0 | h0
      · obtain ⟨d, rfl⟩ := List.length_eq_one_iff.mp (show D.length = 1 by omega)
        obtain ⟨e, rfl⟩ := List.length_eq_one_iff.mp (show E.length = 1 by omega)
        rw [mth_singleton, mth_singleton] at heq
        rw [heq]
      · rw [List.length_eq_zero_iff.mp (show D.length = 0 by omega),
          List.length_eq_zero_iff.mp (show E.length = 0 by omega)]

/-! ## Audit paths and consistency paths -/

/-- `PATH(i, D)`: the sibling hashes on the way from leaf `i` to the root. -/
def auditPath (i : Nat) (D : List δ) : List δ :=
  if _h : 2 ≤ D.length then
    if i < splitWidth D.length then
      auditPath i (D.take (splitWidth D.length)) ++ [mth node empty (D.drop (splitWidth D.length))]
    else
      auditPath (i - splitWidth D.length) (D.drop (splitWidth D.length)) ++
        [mth node empty (D.take (splitWidth D.length))]
  else []
termination_by D.length
decreasing_by
  · have := splitWidth_lt D.length _h
    simp only [List.length_take]; omega
  · have := splitWidth_pos D.length
    simp only [List.length_drop]; omega

/-- Number of hashes in `PATH(i, D)` for `n = |D|`: the depth of leaf `i`. -/
def pathLength (n i : Nat) : Nat :=
  if _h : 2 ≤ n then
    if i < splitWidth n then pathLength (splitWidth n) i + 1
    else pathLength (n - splitWidth n) (i - splitWidth n) + 1
  else 0
termination_by n
decreasing_by
  · exact splitWidth_lt n _h
  · have := splitWidth_pos n
    omega

/-- `SUBPROOF(m, D, anchored)`: what leads from the root of the first `m`
leaves to the root of `D`; `anchored` while the old root is a subtree the
verifier already holds. -/
def consistencyPath (m : Nat) (D : List δ) (anchored : Bool) : List δ :=
  if _h : m < D.length ∧ 2 ≤ D.length then
    if m ≤ splitWidth D.length then
      consistencyPath m (D.take (splitWidth D.length)) anchored ++
        [mth node empty (D.drop (splitWidth D.length))]
    else
      consistencyPath (m - splitWidth D.length) (D.drop (splitWidth D.length)) false ++
        [mth node empty (D.take (splitWidth D.length))]
  else if anchored then [] else [mth node empty D]
termination_by D.length
decreasing_by
  · have := splitWidth_lt D.length _h.2
    simp only [List.length_take]; omega
  · have := splitWidth_pos D.length
    simp only [List.length_drop]; omega

theorem length_auditPath (i : Nat) (D : List δ) :
    (auditPath node empty i D).length = pathLength D.length i := by
  induction hn : D.length using Nat.strong_induction_on generalizing D i with
  | _ n ih =>
    rw [auditPath, pathLength]
    by_cases h : 2 ≤ n
    · have hw := splitWidth_lt n h
      have hp := splitWidth_pos n
      rw [dif_pos (by omega), dif_pos h, hn]
      split
      · rw [List.length_append, ih (splitWidth n) hw _ _ (by simp; omega)]; rfl
      · rw [List.length_append, ih (n - splitWidth n) (by omega) _ _ (by simp; omega)]; rfl
    · rw [dif_neg (by omega), dif_neg h]; rfl

/-- A tree of at most `2 ^ k` leaves has depth at most `k`. -/
theorem pathLength_le (k : Nat) : ∀ n i, n ≤ 2 ^ k → pathLength n i ≤ k := by
  induction k with
  | zero =>
    intro n i h
    rw [pathLength, dif_neg (by simp at h; omega)]
  | succ k ih =>
    intro n i h
    rw [pathLength]
    split
    · next h2 =>
      have hw := splitWidth_le_two_pow n k h2 h
      have := le_two_mul_splitWidth n h2
      split
      · have := ih _ i hw; omega
      · have := ih (n - splitWidth n) (i - splitWidth n) (by omega); omega
    · omega

/-- A consistency path over at most `2 ^ k` leaves has at most `k + 1` hashes. -/
theorem length_consistencyPath_le (k : Nat) : ∀ (m : Nat) (D : List δ) (b : Bool),
    D.length ≤ 2 ^ k → (consistencyPath node empty m D b).length ≤ k + 1 := by
  induction k with
  | zero =>
    intro m D b h
    rw [consistencyPath, dif_neg (by simp at h; omega)]
    split <;> simp
  | succ k ih =>
    intro m D b h
    rw [consistencyPath]
    split
    · next h2 =>
      have hw := splitWidth_le_two_pow D.length k h2.2 h
      have := le_two_mul_splitWidth D.length h2.2
      split
      · have := ih m (D.take (splitWidth D.length)) b (by simp; omega)
        rw [List.length_append]; simp; omega
      · have := ih (m - splitWidth D.length) (D.drop (splitWidth D.length)) false (by simp; omega)
        rw [List.length_append]; simp; omega
    · split <;> simp

end

end Merkle
