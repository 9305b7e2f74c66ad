import Agentrail.Dependencies.GoSumdbTransport
import Agentrail.Dependencies.GoSumdbInclusion
import Agentrail.Lib.MerkleStorage
import Mathlib.Data.List.Forall2

/-!
# The proof planner against the proofs of RFC 6962

`storedHashIndex` numbers the stored nodes of the log in the order of
`Merkle.nodesBefore`, and `splitStoredHashIndex` takes the number apart again.
Each planned group lists complete subtrees whose right fold is the tree hash of
a range of leaves (`subtreeIndexGroup_hash`); the groups of a whole plan are
the audit path and the consistency path (`recordProofIndexGroups_hashes`,
`treeProofIndexGroups_hashes`), for every tree size.
-/

namespace Agentrail.GoSumdbTransport

open Py GoSumdb Merkle

/-! ## The numbering -/

theorem addShifts_eq (number : Nat) : ∀ index, addShifts index number =
    index + nodesBefore number := by
  induction number using Nat.strong_induction_on with
  | _ n ih =>
    intro index
    rw [addShifts, nodesBefore]
    split
    · rfl
    · rw [Nat.shiftRight_eq_div_pow, Nat.pow_one, ih (n / 2) (by omega)]
      omega

theorem descend_eq (level : Nat) : ∀ number,
    (fun number => 2 * number + 1)^[level] number = lastLeaf level number := by
  induction level with
  | zero =>
    intro number
    simp [lastLeaf]
  | succ level ih =>
    intro number
    rw [Function.iterate_succ_apply, ih]
    unfold lastLeaf
    congr 1
    ring

theorem storedHashIndex_eq (level number : Nat) :
    storedHashIndex level number = nodesBefore (lastLeaf level number) + level := by
  show addShifts 0 ((fun number => 2 * number + 1)^[level] number) + level = _
  rw [descend_eq, addShifts_eq, Nat.zero_add]

theorem lastLeaf_zero (number : Nat) : lastLeaf 0 number = number := by simp [lastLeaf]

/-- `n & -n` is the largest power of two that divides `n`. -/
theorem ldiff_pred (n : Nat) (h : 0 < n) : Nat.ldiff n (n - 1) = 2 ^ trailingZeros n := by
  induction n using Nat.strong_induction_on with
  | _ n ih =>
    rcases Nat.even_or_odd' n with ⟨q, rfl | rfl⟩
    · have hq : 0 < q := by omega
      have hpred : 2 * q - 1 = Nat.bit true (q - 1) := by rw [Nat.bit_true_apply]; omega
      have hself : 2 * q = Nat.bit false q := rfl
      rw [hpred, trailingZeros_even q hq, hself, Nat.ldiff_bit, ih q (by omega) hq, pow_succ']
      rfl
    · have hpred : 2 * q + 1 - 1 = Nat.bit false q := rfl
      have hself : 2 * q + 1 = Nat.bit true q := rfl
      have hzero : Nat.ldiff q q = 0 := Nat.eq_of_testBit_eq fun i => by
        rw [Nat.testBit_ldiff]
        simp
      rw [trailingZeros_odd, hpred, hself, Nat.ldiff_bit, hzero]
      rfl

theorem lowestBitLength_eq (number : Nat) :
    lowestBitLength number = trailingZeros (number + 1) + 1 := by
  have hland : Int.land (number + 1 : Int) (-(number + 1 : Int)) =
      ((Nat.ldiff (number + 1) number : Nat) : Int) := rfl
  have h := ldiff_pred (number + 1) (by omega)
  rw [Nat.add_sub_cancel] at h
  unfold lowestBitLength
  rw [hland, Int.toNat_natCast, h, Nat.size_pow]

/-- The search stops at the leaf that the index was stored with. -/
theorem splitFrom_eq (index leaf : Nat) (h1 : nodesBefore leaf ≤ index)
    (h2 : index < nodesBefore (leaf + 1)) (k : Nat) : ∀ number, number + k = leaf →
    splitFrom index number (nodesBefore number) =
      (index - nodesBefore leaf, leaf >>> (index - nodesBefore leaf)) := by
  have hnext : ∀ number, nodesBefore number + 1 + (lowestBitLength number - 1) =
      nodesBefore (number + 1) := fun number => by
    rw [lowestBitLength_eq, nodesBefore_succ, Nat.add_sub_cancel]
  induction k with
  | zero =>
    rintro number rfl
    rw [splitFrom, hnext]
    exact if_pos h2
  | succ k ih =>
    intro number hk
    have hmono : nodesBefore (number + 1) ≤ nodesBefore leaf := nodesBefore_mono (by omega)
    rw [splitFrom, hnext]
    exact (if_neg (by omega)).trans (ih (number + 1) (by omega))

/-- **The numbering is faithful.** -/
theorem splitStoredHashIndex_storedHashIndex (level number : Nat) :
    splitStoredHashIndex (storedHashIndex level number) = (level, number) := by
  have hlt := level_lt level number
  have hstart : storedHashIndex level number / 2 ≤ lastLeaf level number := by
    by_contra hgt
    have h1 := nodesBefore_mono
      (show lastLeaf level number + 1 ≤ storedHashIndex level number / 2 by omega)
    have h2 := nodesBefore_le (storedHashIndex level number / 2)
    rw [storedHashIndex_eq] at h1 h2
    omega
  unfold splitStoredHashIndex
  rw [storedHashIndex_eq 0, lastLeaf_zero, Nat.add_zero,
    splitFrom_eq (storedHashIndex level number) (lastLeaf level number)
      (by rw [storedHashIndex_eq]; omega) (by rw [storedHashIndex_eq]; omega)
      (lastLeaf level number - storedHashIndex level number / 2) _ (by omega),
    storedHashIndex_eq, Nat.add_sub_cancel_left, Nat.shiftRight_eq_div_pow, lastLeaf_div]

/-- The leaf that the search stops at ends the subtree that it answers. -/
theorem storedHashIndex_splitStoredHashIndex (index : Nat) :
    storedHashIndex (splitStoredHashIndex index).1 (splitStoredHashIndex index).2 = index := by
  obtain ⟨leaf, h1, h2⟩ := exists_leaf index
  have hlevel : index - nodesBefore leaf ≤ trailingZeros (leaf + 1) := by
    rw [nodesBefore_succ] at h2
    omega
  have hdvd : 2 ^ (index - nodesBefore leaf) ∣ leaf + 1 :=
    (Nat.pow_dvd_pow 2 hlevel).trans (two_pow_trailingZeros_dvd _)
  have hlast := lastLeaf_of_dvd _ _ hdvd
  have hback : storedHashIndex (index - nodesBefore leaf) (leaf / 2 ^ (index - nodesBefore leaf)) =
      index := by
    rw [storedHashIndex_eq, hlast]
    omega
  rw [← hback, splitStoredHashIndex_storedHashIndex]

/-- The loop of `_split_stored_hash_index`, cut off after `fuel` passes. -/
def splitPasses (index : Nat) : Nat → Nat → Nat → Option (Nat × Nat)
  | 0, _, _ => none
  | fuel + 1, number, indexAtNumber =>
    let nextIndex := indexAtNumber + 1 + (lowestBitLength number - 1)
    if nextIndex > index then
      let level := index - indexAtNumber
      some (level, number >>> level)
    else splitPasses index fuel (number + 1) nextIndex

theorem splitPasses_eq (index fuel : Nat) : ∀ number indexAtNumber, 0 < fuel →
    index < indexAtNumber + fuel →
    splitPasses index fuel number indexAtNumber = some (splitFrom index number indexAtNumber) := by
  induction fuel with
  | zero => exact fun _ _ h => absurd h (Nat.lt_irrefl 0)
  | succ fuel ih =>
    intro number indexAtNumber _ h
    rw [splitPasses, splitFrom]
    by_cases hnext : indexAtNumber + 1 + (lowestBitLength number - 1) > index
    · rw [if_pos hnext, if_pos hnext]
    · rw [if_neg hnext, if_neg hnext]
      exact ih _ _ (by omega) (by omega)

/-- **The numbering is a bijection** between the pairs of a level and an offset and the natural
numbers, and the search for the inverse ends within `index + 1` passes. -/
theorem storedHashIndex_bijection :
    (∀ level number, splitStoredHashIndex (storedHashIndex level number) = (level, number)) ∧
    (∀ index, storedHashIndex (splitStoredHashIndex index).1 (splitStoredHashIndex index).2 =
      index) ∧
    (∀ index, ∃ passes, passes ≤ index + 1 ∧
      splitPasses index passes (index / 2) (storedHashIndex 0 (index / 2)) =
        some (splitStoredHashIndex index)) := by
  refine ⟨splitStoredHashIndex_storedHashIndex, storedHashIndex_splitStoredHashIndex,
    fun index => ⟨index + 1, Nat.le_refl _, ?_⟩⟩
  exact splitPasses_eq index (index + 1) _ _ (by omega) (by omega)

/-! ## Groups of stored hashes -/

section
variable {δ : Type} (node : δ → δ → δ) (empty : δ) (D : List δ)

/-- The hash that the log stores under an index. -/
def hashAt (index : Nat) : δ :=
  let (level, number) := splitStoredHashIndex index
  subtreeHash node empty D level number

/-- The subtree of an index is complete in a tree of `size` records. -/
def InTree (size index : Nat) : Prop :=
  let (level, number) := splitStoredHashIndex index
  (number + 1) * 2 ^ level ≤ size

/-- A group of stored indexes stands for the hash `h`. -/
structure GroupHash (size : Nat) (group : List Nat) (h : δ) : Prop where
  nonempty : group ≠ []
  inTree : ∀ index ∈ group, InTree size index
  fold : spineHash node empty (group.map (hashAt node empty D)) = h

theorem hashAt_storedHashIndex (level number : Nat) :
    hashAt node empty D (storedHashIndex level number) = subtreeHash node empty D level number := by
  unfold hashAt
  rw [splitStoredHashIndex_storedHashIndex]

theorem inTree_storedHashIndex (size level number : Nat) :
    InTree size (storedHashIndex level number) ↔ (number + 1) * 2 ^ level ≤ size := by
  unfold InTree
  rw [splitStoredHashIndex_storedHashIndex]

theorem maximumPowerOfTwoBelow_eq (n : Nat) (h : 2 ≤ n) :
    maximumPowerOfTwoBelow n = .ok (splitWidth n, (n - 1).size - 1) := by
  unfold maximumPowerOfTwoBelow splitWidth
  rw [if_neg (by omega)]
  simp only [Nat.one_shiftLeft]

theorem subtreeIndexes_step (low high level : Nat) (indexes : List Nat) (h1 : 2 ^ level ∣ low)
    (h2 : low + 2 ^ level ≤ high) (h3 : high < low + 2 ^ (level + 1)) :
    subtreeIndexes low high indexes = subtreeIndexes (low + 2 ^ level) high
      (indexes ++ [storedHashIndex level (low / 2 ^ level)]) := by
  have hp : 0 < 2 ^ level := Nat.two_pow_pos level
  have hw : splitWidth (high - low + 1) = 2 ^ level := splitWidth_eq _ level (by omega) (by omega)
  have hl : (high - low + 1 - 1).size - 1 = level :=
    Nat.pow_right_injective (Nat.le_refl 2) hw
  have hmax := maximumPowerOfTwoBelow_eq (high - low + 1) (by omega)
  rw [hw, hl] at hmax
  have hland : low &&& (2 ^ level - 1) = 0 := by
    rw [Nat.and_two_pow_sub_one_eq_mod, Nat.mod_eq_zero_of_dvd h1]
  rw [subtreeIndexes, if_pos (by omega)]
  split
  · next e he => rw [hmax] at he; cases he
  · next width level' he =>
    rw [hmax] at he
    cases he
    rw [hland, if_neg (by simp), Nat.shiftRight_eq_div_pow]

/-- The planned subtrees of an aligned range fold to its tree hash. -/
theorem subtreeIndexes_hash (n : Nat) : ∀ (low high size : Nat) (indexes : List Nat),
    high = low + n → Aligned low high → high ≤ size → size ≤ D.length →
    ∃ group, subtreeIndexes low high indexes = .ok (indexes ++ group) ∧
      (0 < n → GroupHash node empty D size group (mth node empty (segment D low high))) := by
  induction n using Nat.strong_induction_on with
  | _ n ih =>
    intro low high size indexes hhigh halign hsize hD
    rcases Nat.eq_zero_or_pos n with rfl | hn
    · refine ⟨[], ?_, nofun⟩
      rw [subtreeIndexes, if_neg (by omega), List.append_nil]
    · -- the first subtree is as wide as the range allows
      obtain ⟨level, hle, hlt⟩ : ∃ level, 2 ^ level ≤ n ∧ n < 2 ^ (level + 1) :=
        have hs : 0 < n.size := Nat.size_pos.mpr hn
        ⟨n.size - 1, Nat.lt_size.mp (by omega), by
          rw [Nat.sub_add_cancel hs]; exact Nat.lt_size_self n⟩
      have hpow : 2 ^ (level + 1) = 2 ^ level + 2 ^ level := by ring
      obtain ⟨number, hnumber⟩ := halign.dvd low high level (by omega)
      have hdiv : low / 2 ^ level = number := by
        rw [hnumber, Nat.mul_div_cancel_left _ (Nat.two_pow_pos level)]
      have hlow : number * 2 ^ level = low := by rw [hnumber, Nat.mul_comm]
      have hmid : (number + 1) * 2 ^ level = low + 2 ^ level := by rw [Nat.add_mul, hlow]; omega
      have hfirst : hashAt node empty D (storedHashIndex level number) =
          mth node empty (segment D low (low + 2 ^ level)) := by
        rw [hashAt_storedHashIndex, subtreeHash, hlow, hmid]
      obtain ⟨group, hgroup, hrest⟩ := ih (n - 2 ^ level)
        (by have := Nat.two_pow_pos level; omega) (low + 2 ^ level) high size
        (indexes ++ [storedHashIndex level number]) (by omega)
        (halign.right low high level (by omega) (by omega)) hsize hD
      refine ⟨storedHashIndex level number :: group, ?_, fun _ => ?_⟩
      · rw [subtreeIndexes_step low high level indexes ⟨number, hnumber⟩ (by omega) (by omega),
          hdiv, hgroup, List.append_assoc]
        rfl
      · have hin : InTree size (storedHashIndex level number) :=
          (inTree_storedHashIndex size level number).mpr (by omega)
        rcases Nat.eq_zero_or_pos (n - 2 ^ level) with h0 | hpos
        · obtain rfl : high = low + 2 ^ level := by omega
          have hnil : group = [] := by
            rw [subtreeIndexes, if_neg (by omega)] at hgroup
            simpa using hgroup
          subst hnil
          exact ⟨by simp, by simpa using hin, hfirst⟩
        · obtain ⟨hne, htree, hfold⟩ := hrest hpos
          refine ⟨by simp, fun index hindex => ?_, ?_⟩
          · rcases List.mem_cons.mp hindex with rfl | hindex
            · exact hin
            · exact htree index hindex
          · rw [List.map_cons, spineHash_cons _ _ _ _ (by simpa using hne), hfirst, hfold]
            exact (mth_segment node empty D low _ high level rfl (by omega) (by omega)
              (by omega)).symm

theorem subtreeIndexGroup_hash (low high size : Nat) (h : low < high) (halign : Aligned low high)
    (hsize : high ≤ size) (hD : size ≤ D.length) :
    ∃ group, subtreeIndexGroup low high = .ok group ∧
      GroupHash node empty D size group (mth node empty (segment D low high)) := by
  obtain ⟨group, hgroup, hhash⟩ := subtreeIndexes_hash node empty D (high - low) low high size []
    (by omega) halign hsize hD
  have hh := hhash (by omega)
  refine ⟨group, ?_, hh⟩
  unfold subtreeIndexGroup
  rw [hgroup]
  exact if_neg hh.nonempty

/-! ## Whole plans -/

theorem recordProofIndexGroups_left (low high i : Nat) (acc groups : List (List Nat))
    (group : List Nat) (h : low + 2 ≤ high) (hi : i < low + splitWidth (high - low))
    (hgroups : recordProofIndexGroups low (low + splitWidth (high - low)) i acc = .ok groups)
    (hgroup : subtreeIndexGroup (low + splitWidth (high - low)) high = .ok group) :
    recordProofIndexGroups low high i acc = .ok (groups ++ [group]) := by
  have hmax := maximumPowerOfTwoBelow_eq (high - low) (by omega)
  rw [recordProofIndexGroups, if_neg (by omega)]
  split
  · next e he => rw [hmax] at he; cases he
  · next width level he =>
    rw [hmax] at he
    cases he
    rw [if_pos hi, hgroups, hgroup]
    rfl

theorem recordProofIndexGroups_right (low high i : Nat) (acc groups : List (List Nat))
    (group : List Nat) (h : low + 2 ≤ high) (hi : low + splitWidth (high - low) ≤ i)
    (hgroups : recordProofIndexGroups (low + splitWidth (high - low)) high i acc = .ok groups)
    (hgroup : subtreeIndexGroup low (low + splitWidth (high - low)) = .ok group) :
    recordProofIndexGroups low high i acc = .ok (groups ++ [group]) := by
  have hmax := maximumPowerOfTwoBelow_eq (high - low) (by omega)
  rw [recordProofIndexGroups, if_neg (by omega)]
  split
  · next e he => rw [hmax] at he; cases he
  · next width level he =>
    rw [hmax] at he
    cases he
    rw [if_neg (by omega), hgroups, hgroup]
    rfl

/-- The inclusion plan is the audit path: as many groups, in its order, each standing for its
hash. -/
theorem recordProofIndexGroups_hashes (n : Nat) :
    ∀ (low high size i : Nat) (acc : List (List Nat)), high = low + n → Aligned low high →
      low ≤ i → i < high → high ≤ size → size ≤ D.length →
      ∃ groups, recordProofIndexGroups low high i acc = .ok (acc ++ groups) ∧
        List.Forall₂ (GroupHash node empty D size) groups
          (auditPath node empty (i - low) (segment D low high)) := by
  induction n using Nat.strong_induction_on with
  | _ n ih =>
    intro low high size i acc hhigh halign hlow hi hsize hD
    have hlen : (segment D low high).length = n := by
      rw [length_segment D low high (by omega)]
      omega
    rw [auditPath, hlen]
    by_cases h1 : n = 1
    · refine ⟨[], ?_, ?_⟩
      · rw [recordProofIndexGroups, if_pos (by omega), List.append_nil]
      · rw [dif_neg (by omega)]
        exact List.Forall₂.nil
    · have hw := splitWidth_lt n (by omega)
      have hp := splitWidth_pos n
      have hd := le_two_mul_splitWidth n (by omega)
      have hn : high - low = n := by omega
      obtain ⟨j, hj⟩ := splitWidth_eq_pow n
      have htake := take_segment D low (low + splitWidth n) high (by omega)
      have hdrop := drop_segment D low (low + splitWidth n) high (by omega)
      rw [Nat.add_sub_cancel_left] at htake hdrop
      have hleft : Aligned low (low + splitWidth n) := by
        rw [hj]; exact halign.left low high j (by omega)
      have hright : Aligned (low + splitWidth n) high := by
        rw [hj]; exact halign.right low high j (by omega) (by omega)
      rw [dif_pos (by omega), htake, hdrop]
      by_cases hiw : i < low + splitWidth n
      · obtain ⟨groups, hgroups, hall⟩ := ih _ hw low _ size i acc rfl hleft hlow hiw (by omega) hD
        obtain ⟨group, hgroup, hhash⟩ := subtreeIndexGroup_hash node empty D _ high size
          (by omega) hright hsize hD
        refine ⟨groups ++ [group], ?_, ?_⟩
        · rw [← List.append_assoc]
          exact recordProofIndexGroups_left low high i acc _ group (by omega)
            (by rw [hn]; exact hiw) (by rw [hn]; exact hgroups) (by rw [hn]; exact hgroup)
        · rw [if_pos (by omega)]
          exact List.rel_append hall (List.Forall₂.cons hhash List.Forall₂.nil)
      · obtain ⟨groups, hgroups, hall⟩ := ih (n - splitWidth n) (by omega) (low + splitWidth n) high
          size i acc (by omega) hright (by omega) hi hsize hD
        obtain ⟨group, hgroup, hhash⟩ := subtreeIndexGroup_hash node empty D low _ size
          (by omega) hleft (by omega) hD
        refine ⟨groups ++ [group], ?_, ?_⟩
        · rw [← List.append_assoc]
          exact recordProofIndexGroups_right low high i acc _ group (by omega)
            (by rw [hn]; omega) (by rw [hn]; exact hgroups) (by rw [hn]; exact hgroup)
        · rw [if_neg (by omega), Nat.sub_sub]
          exact List.rel_append hall (List.Forall₂.cons hhash List.Forall₂.nil)

theorem treeProofIndexGroups_left (low high m : Nat) (acc groups : List (List Nat))
    (group : List Nat) (h : low + 2 ≤ high) (hne : m ≠ high)
    (hm : m ≤ low + splitWidth (high - low))
    (hgroups : treeProofIndexGroups low (low + splitWidth (high - low)) m acc = .ok groups)
    (hgroup : subtreeIndexGroup (low + splitWidth (high - low)) high = .ok group) :
    treeProofIndexGroups low high m acc = .ok (groups ++ [group]) := by
  have hmax := maximumPowerOfTwoBelow_eq (high - low) (by omega)
  rw [treeProofIndexGroups.eq_def, if_neg hne]
  split
  · next e he => rw [hmax] at he; cases he
  · next width level he =>
    rw [hmax] at he
    cases he
    rw [if_pos hm, hgroups, hgroup]
    rfl

theorem treeProofIndexGroups_right (low high m : Nat) (acc groups : List (List Nat))
    (group : List Nat) (h : low + 2 ≤ high) (hne : m ≠ high)
    (hm : low + splitWidth (high - low) < m)
    (hgroups : treeProofIndexGroups (low + splitWidth (high - low)) high m acc = .ok groups)
    (hgroup : subtreeIndexGroup low (low + splitWidth (high - low)) = .ok group) :
    treeProofIndexGroups low high m acc = .ok (groups ++ [group]) := by
  have hmax := maximumPowerOfTwoBelow_eq (high - low) (by omega)
  rw [treeProofIndexGroups.eq_def, if_neg hne]
  split
  · next e he => rw [hmax] at he; cases he
  · next width level he =>
    rw [hmax] at he
    cases he
    rw [if_neg (by omega), hgroups, hgroup]
    rfl

/-- The plan of the old root itself: nothing where the verifier holds it. -/
theorem treeProofIndexGroups_end (low high size : Nat) (acc : List (List Nat)) (h : low < high)
    (halign : Aligned low high) (hsize : high ≤ size) (hD : size ≤ D.length) :
    ∃ groups, treeProofIndexGroups low high high acc = .ok (acc ++ groups) ∧
      List.Forall₂ (GroupHash node empty D size) groups
        (if low = 0 then [] else [mth node empty (segment D low high)]) := by
  rw [treeProofIndexGroups.eq_def, if_pos rfl]
  by_cases h0 : low = 0
  · rw [if_neg (by simpa using h0), if_pos h0]
    exact ⟨[], by rw [List.append_nil], List.Forall₂.nil⟩
  · obtain ⟨group, hgroup, hhash⟩ := subtreeIndexGroup_hash node empty D low high size h halign
      hsize hD
    rw [if_pos h0, if_neg h0, hgroup]
    exact ⟨[group], rfl, List.Forall₂.cons hhash List.Forall₂.nil⟩

/-- The consistency plan is the consistency path. -/
theorem treeProofIndexGroups_hashes (n : Nat) :
    ∀ (low high size m : Nat) (acc : List (List Nat)), high = low + n → Aligned low high →
      low < m → m ≤ high → high ≤ size → size ≤ D.length →
      ∃ groups, treeProofIndexGroups low high m acc = .ok (acc ++ groups) ∧
        List.Forall₂ (GroupHash node empty D size) groups
          (consistencyPath node empty (m - low) (segment D low high) (low = 0)) := by
  induction n using Nat.strong_induction_on with
  | _ n ih =>
    intro low high size m acc hhigh halign hlow hm hsize hD
    have hlen : (segment D low high).length = n := by
      rw [length_segment D low high (by omega)]
      omega
    rw [consistencyPath, hlen]
    by_cases hmh : m = high
    · subst hmh
      rw [dif_neg (by omega)]
      simpa using treeProofIndexGroups_end node empty D low m size acc hlow halign hsize hD
    · have hw := splitWidth_lt n (by omega)
      have hp := splitWidth_pos n
      have hd := le_two_mul_splitWidth n (by omega)
      have hn : high - low = n := by omega
      obtain ⟨j, hj⟩ := splitWidth_eq_pow n
      have htake := take_segment D low (low + splitWidth n) high (by omega)
      have hdrop := drop_segment D low (low + splitWidth n) high (by omega)
      rw [Nat.add_sub_cancel_left] at htake hdrop
      have hleft : Aligned low (low + splitWidth n) := by
        rw [hj]; exact halign.left low high j (by omega)
      have hright : Aligned (low + splitWidth n) high := by
        rw [hj]; exact halign.right low high j (by omega) (by omega)
      rw [dif_pos (by omega), htake, hdrop]
      by_cases hmw : m ≤ low + splitWidth n
      · obtain ⟨groups, hgroups, hall⟩ := ih _ hw low _ size m acc rfl hleft hlow hmw (by omega) hD
        obtain ⟨group, hgroup, hhash⟩ := subtreeIndexGroup_hash node empty D _ high size
          (by omega) hright hsize hD
        refine ⟨groups ++ [group], ?_, ?_⟩
        · rw [← List.append_assoc]
          exact treeProofIndexGroups_left low high m acc _ group (by omega) hmh
            (by rw [hn]; exact hmw) (by rw [hn]; exact hgroups) (by rw [hn]; exact hgroup)
        · rw [if_pos (by omega)]
          exact List.rel_append hall (List.Forall₂.cons hhash List.Forall₂.nil)
      · obtain ⟨groups, hgroups, hall⟩ := ih (n - splitWidth n) (by omega) (low + splitWidth n) high
          size m acc (by omega) hright (by omega) hm hsize hD
        obtain ⟨group, hgroup, hhash⟩ := subtreeIndexGroup_hash node empty D low _ size
          (by omega) hleft (by omega) hD
        have h0 : ¬ low + splitWidth n = 0 := by omega
        simp only [h0, decide_false] at hall
        refine ⟨groups ++ [group], ?_, ?_⟩
        · rw [← List.append_assoc]
          exact treeProofIndexGroups_right low high m acc _ group (by omega) hmh
            (by rw [hn]; omega) (by rw [hn]; exact hgroups) (by rw [hn]; exact hgroup)
        · rw [if_neg (by omega), Nat.sub_sub]
          exact List.rel_append hall (List.Forall₂.cons hhash List.Forall₂.nil)

end

end Agentrail.GoSumdbTransport
