import Agentrail.Lib.Merkle
import Mathlib.Tactic.Ring

/-!
# Stored nodes of an append-only Merkle tree

A log that only grows keeps the hash of every complete subtree: at `level` the
subtree `number` covers the leaves from `number * 2 ^ level` up to
`(number + 1) * 2 ^ level` (`subtreeHash`).  Written down when their last leaf
arrives, lower levels first, these nodes form one sequence; `nodesBefore n`
counts the nodes of it that are there before leaf `n`.  `segment` is a range of
leaves, for the trees that are not complete.
-/

namespace Merkle

/-! ## Ranges of leaves -/

section
variable {δ : Type}

/-- The leaves from `low` up to `high`. -/
def segment (D : List δ) (low high : Nat) : List δ := (D.drop low).take (high - low)

theorem length_segment (D : List δ) (low high : Nat) (h : high ≤ D.length) :
    (segment D low high).length = high - low := by
  unfold segment
  rw [List.length_take, List.length_drop]
  omega

theorem segment_zero (D : List δ) (high : Nat) : segment D 0 high = D.take high := rfl

theorem take_segment (D : List δ) (low mid high : Nat) (h : mid ≤ high) :
    (segment D low high).take (mid - low) = segment D low mid := by
  unfold segment
  rw [List.take_take, Nat.min_eq_left (by omega)]

theorem drop_segment (D : List δ) (low mid high : Nat) (h : low ≤ mid) :
    (segment D low high).drop (mid - low) = segment D mid high := by
  unfold segment
  rw [List.drop_take, List.drop_drop, Nat.add_sub_cancel' h]
  congr 1
  omega

theorem segment_append (D : List δ) (low mid high : Nat) (h1 : low ≤ mid) (h2 : mid ≤ high) :
    segment D low mid ++ segment D mid high = segment D low high := by
  rw [← take_segment D low mid high h2, ← drop_segment D low mid high h1,
    List.take_append_drop]

end

/-! ## Complete subtrees -/

section
variable {δ : Type} (node : δ → δ → δ) (empty : δ) (D : List δ)

/-- A range splits at a full left tree that its right part does not exceed. -/
theorem mth_segment (low mid high k : Nat) (hk : mid = low + 2 ^ k) (h1 : mid < high)
    (h2 : high ≤ mid + 2 ^ k) (hD : high ≤ D.length) :
    mth node empty (segment D low high) =
      node (mth node empty (segment D low mid)) (mth node empty (segment D mid high)) := by
  have hl := length_segment D low mid (by omega)
  have hr := length_segment D mid high hD
  rw [← segment_append D low mid high (by omega) (by omega)]
  exact mth_append node empty _ _ k (by omega) (by omega) (by omega)

/-- The hash of the complete subtree `number` at `level`. -/
def subtreeHash (level number : Nat) : δ :=
  mth node empty (segment D (number * 2 ^ level) ((number + 1) * 2 ^ level))

theorem subtreeHash_succ (level number : Nat) (h : (number + 1) * 2 ^ (level + 1) ≤ D.length) :
    subtreeHash node empty D (level + 1) number =
      node (subtreeHash node empty D level (2 * number))
        (subtreeHash node empty D level (2 * number + 1)) := by
  have hp : 0 < 2 ^ level := Nat.two_pow_pos level
  have h0 : 2 * number * 2 ^ level = number * 2 ^ (level + 1) := by ring
  have h1 : (2 * number + 1) * 2 ^ level = number * 2 ^ (level + 1) + 2 ^ level := by ring
  have h2 : (2 * number + 1 + 1) * 2 ^ level = (number + 1) * 2 ^ (level + 1) := by ring
  have h3 : (number + 1) * 2 ^ (level + 1) = number * 2 ^ (level + 1) + 2 ^ level + 2 ^ level := by
    ring
  unfold subtreeHash
  rw [h0, h1, h2]
  exact mth_segment node empty D _ _ _ level rfl (by omega) (by omega) h

/-- The hash of subtrees side by side, widest first: each hangs left of the rest. -/
def spineHash : List δ → δ
  | [] => empty
  | [d] => d
  | d :: e :: ds => node d (spineHash (e :: ds))

theorem spineHash_cons (d : δ) (ds : List δ) (h : ds ≠ []) :
    spineHash node empty (d :: ds) = node d (spineHash node empty ds) := by
  cases ds with
  | nil => exact absurd rfl h
  | cons e ds => rfl

/-- A range of leaves that can only be cut at the multiples of powers of two: it starts at a
multiple of a power of two that bounds its length. -/
def Aligned (low high : Nat) : Prop := ∃ k, 2 ^ k ∣ low ∧ high ≤ low + 2 ^ k

theorem aligned_zero (n : Nat) : Aligned 0 n :=
  ⟨n, Nat.dvd_zero _, by have := Nat.lt_two_pow_self (n := n); omega⟩

/-- The largest power of two that an aligned range can hold divides its start. -/
theorem Aligned.dvd (low high j : Nat) (h : Aligned low high) (hj : low + 2 ^ j ≤ high) :
    2 ^ j ∣ low := by
  obtain ⟨k, hk, hle⟩ := h
  have hjk : j ≤ k := (Nat.pow_le_pow_iff_right (by omega)).mp (show 2 ^ j ≤ 2 ^ k by omega)
  exact (Nat.pow_dvd_pow 2 hjk).trans hk

theorem Aligned.left (low high j : Nat) (h : Aligned low high) (hj : low + 2 ^ j ≤ high) :
    Aligned low (low + 2 ^ j) := ⟨j, h.dvd low high j hj, Nat.le_refl _⟩

theorem Aligned.right (low high j : Nat) (h : Aligned low high) (hj : low + 2 ^ j ≤ high)
    (hle : high ≤ low + 2 ^ j + 2 ^ j) : Aligned (low + 2 ^ j) high :=
  ⟨j, Nat.dvd_add (h.dvd low high j hj) (Nat.dvd_refl _), hle⟩

end

/-! ## The order of the stored nodes -/

/-- The exponent of 2 in `n`. -/
def trailingZeros (n : Nat) : Nat :=
  if n = 0 ∨ n % 2 = 1 then 0 else trailingZeros (n / 2) + 1

theorem trailingZeros_odd (n : Nat) : trailingZeros (2 * n + 1) = 0 := by
  rw [trailingZeros, if_pos (by omega)]

theorem trailingZeros_even (n : Nat) (h : 0 < n) :
    trailingZeros (2 * n) = trailingZeros n + 1 := by
  rw [trailingZeros, if_neg (by omega), Nat.mul_div_cancel_left n (by omega)]

theorem le_trailingZeros (k : Nat) : ∀ n, 0 < n → 2 ^ k ∣ n → k ≤ trailingZeros n := by
  induction k with
  | zero => exact fun n _ _ => Nat.zero_le _
  | succ k ih =>
    rintro n hn ⟨m, rfl⟩
    have hm : 0 < 2 ^ k * m := by
      rw [pow_succ'] at hn
      rcases Nat.eq_zero_or_pos (2 ^ k * m) with h | h
      · rw [Nat.mul_assoc, h] at hn
        omega
      · exact h
    have h := ih (2 ^ k * m) hm (Nat.dvd_mul_right _ _)
    rw [show 2 ^ (k + 1) * m = 2 * (2 ^ k * m) by ring, trailingZeros_even _ hm]
    omega

theorem two_pow_trailingZeros_dvd (n : Nat) : 2 ^ trailingZeros n ∣ n := by
  induction n using Nat.strong_induction_on with
  | _ n ih =>
    rw [trailingZeros]
    split
    · exact Nat.one_dvd n
    · obtain ⟨m, hm⟩ := ih (n / 2) (by omega)
      refine ⟨m, ?_⟩
      calc n = 2 * (n / 2) := by omega
        _ = 2 * (2 ^ trailingZeros (n / 2) * m) := by rw [← hm]
        _ = 2 ^ (trailingZeros (n / 2) + 1) * m := by ring

/-- How many nodes are stored before leaf `n` is: each leaf `i < n` adds itself and every
subtree that it completes. -/
def nodesBefore (n : Nat) : Nat := if n = 0 then 0 else n + nodesBefore (n / 2)

theorem nodesBefore_double (n : Nat) : nodesBefore (2 * n) = 2 * n + nodesBefore n := by
  rcases Nat.eq_zero_or_pos n with rfl | h
  · rw [Nat.mul_zero, Nat.zero_add]
  · rw [nodesBefore, if_neg (by omega), Nat.mul_div_cancel_left n (by omega)]

theorem nodesBefore_double_add_one (n : Nat) :
    nodesBefore (2 * n + 1) = 2 * n + 1 + nodesBefore n := by
  rw [nodesBefore, if_neg (by omega), show (2 * n + 1) / 2 = n by omega]

theorem nodesBefore_succ (n : Nat) :
    nodesBefore (n + 1) = nodesBefore n + 1 + trailingZeros (n + 1) := by
  induction n using Nat.strong_induction_on with
  | _ n ih =>
    rcases Nat.even_or_odd' n with ⟨q, rfl | rfl⟩
    · rw [nodesBefore_double_add_one, nodesBefore_double, trailingZeros_odd]
      omega
    · have h := ih q (by omega)
      rw [show 2 * q + 1 + 1 = 2 * (q + 1) by omega, nodesBefore_double,
        nodesBefore_double_add_one, trailingZeros_even _ (by omega), h]
      omega

theorem nodesBefore_mono : Monotone nodesBefore :=
  monotone_nat_of_le_succ fun n => by rw [nodesBefore_succ]; omega

theorem nodesBefore_le (n : Nat) : nodesBefore n ≤ 2 * n := by
  induction n using Nat.strong_induction_on with
  | _ n ih =>
    rw [nodesBefore]
    split
    · omega
    · have := ih (n / 2) (by omega)
      omega

/-- Every place of the sequence belongs to the leaf whose arrival filled it. -/
theorem exists_leaf (index : Nat) :
    ∃ leaf, nodesBefore leaf ≤ index ∧ index < nodesBefore (leaf + 1) := by
  induction index with
  | zero => exact ⟨0, by rw [nodesBefore, if_pos rfl], by rw [nodesBefore_succ]; omega⟩
  | succ index ih =>
    obtain ⟨leaf, h1, h2⟩ := ih
    by_cases h : index + 1 < nodesBefore (leaf + 1)
    · exact ⟨leaf, by omega, h⟩
    · exact ⟨leaf + 1, by omega, by rw [nodesBefore_succ (leaf + 1)]; omega⟩

/-- The last leaf of a subtree. -/
def lastLeaf (level number : Nat) : Nat := (number + 1) * 2 ^ level - 1

theorem lastLeaf_add_one (level number : Nat) :
    lastLeaf level number + 1 = (number + 1) * 2 ^ level := by
  have : 0 < (number + 1) * 2 ^ level := Nat.mul_pos (by omega) (Nat.two_pow_pos level)
  unfold lastLeaf
  omega

theorem lastLeaf_div (level number : Nat) : lastLeaf level number / 2 ^ level = number := by
  have hp : 0 < 2 ^ level := Nat.two_pow_pos level
  have h : lastLeaf level number = (2 ^ level - 1) + number * 2 ^ level := by
    unfold lastLeaf
    rw [Nat.add_mul]
    omega
  rw [h, Nat.add_mul_div_right _ _ hp, Nat.div_eq_of_lt (by omega), Nat.zero_add]

/-- A leaf ends one subtree at each level up to the trailing zeros of its successor. -/
theorem lastLeaf_of_dvd (level leaf : Nat) (h : 2 ^ level ∣ leaf + 1) :
    lastLeaf level (leaf / 2 ^ level) = leaf := by
  obtain ⟨m, hm⟩ := h
  have hp : 0 < 2 ^ level := Nat.two_pow_pos level
  cases m with
  | zero => omega
  | succ m =>
    have hleaf : leaf = lastLeaf level m := by
      unfold lastLeaf
      rw [Nat.mul_comm, ← hm, Nat.add_sub_cancel]
    rw [hleaf, lastLeaf_div]

/-- A subtree's node is stored with its last leaf, before the next leaf. -/
theorem level_lt (level number : Nat) :
    nodesBefore (lastLeaf level number) + level < nodesBefore (lastLeaf level number + 1) := by
  have h := le_trailingZeros level ((number + 1) * 2 ^ level)
    (Nat.mul_pos (by omega) (Nat.two_pow_pos level)) (Nat.dvd_mul_left _ _)
  rw [nodesBefore_succ, lastLeaf_add_one]
  omega

end Merkle
