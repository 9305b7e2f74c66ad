import Agentrail.Dependencies.GoSumdb

/-!
# Inclusion proofs

`runRecordProof` against the audit path of RFC 6962: the honest path is accepted
(`runRecordProof_auditPath`), and with an injective node hash nothing else is
(`runRecordProof_sound`), whatever the shape of the tree.
-/

namespace Agentrail.GoSumdb

open Py Merkle

theorem maximumPowerOfTwoBelow_eq (n : Nat) (h : 2 ≤ n) :
    maximumPowerOfTwoBelow n = .ok (splitWidth n) := by
  unfold maximumPowerOfTwoBelow splitWidth
  rw [if_neg (by omega), Nat.one_shiftLeft]

section
variable {δ : Type} (nodeHash : δ → δ → δ) (empty : δ)

/-! ## One step of the recursion -/

theorem runRecordProof_leaf (P : List δ) (low i : Nat) (L r : δ) :
    runRecordProof nodeHash P low (low + 1) i L = .ok r ↔ P = [] ∧ L = r := by
  rw [runRecordProof, if_pos rfl]
  split <;> simp_all

theorem runRecordProof_nil (low high i : Nat) (h : low + 1 ≠ high) (L r : δ) :
    runRecordProof nodeHash [] low high i L ≠ .ok r := by
  rw [runRecordProof, if_neg h, dif_pos rfl]
  simp

/-- Below the split point the last hash is the right sibling. -/
theorem runRecordProof_left (P : List δ) (s : δ) (low high i : Nat) (L r : δ)
    (h : low + 2 ≤ high) (hi : i < low + splitWidth (high - low)) :
    runRecordProof nodeHash (P ++ [s]) low high i L = .ok r ↔
      ∃ t, runRecordProof nodeHash P low (low + splitWidth (high - low)) i L = .ok t ∧
        nodeHash t s = r := by
  rw [runRecordProof, if_neg (by omega), dif_neg (by simp),
    maximumPowerOfTwoBelow_eq _ (by omega)]
  simp only [List.dropLast_concat, List.getLast_append_singleton]
  show (if _ then _ else _) = _ ↔ _
  rw [if_pos hi]
  cases runRecordProof nodeHash P low (low + splitWidth (high - low)) i L with
  | error e => exact ⟨nofun, nofun⟩
  | ok t =>
    show Except.ok _ = _ ↔ _
    simp

/-- From the split point on the last hash is the left sibling. -/
theorem runRecordProof_right (P : List δ) (s : δ) (low high i : Nat) (L r : δ)
    (h : low + 2 ≤ high) (hi : low + splitWidth (high - low) ≤ i) :
    runRecordProof nodeHash (P ++ [s]) low high i L = .ok r ↔
      ∃ t, runRecordProof nodeHash P (low + splitWidth (high - low)) high i L = .ok t ∧
        nodeHash s t = r := by
  rw [runRecordProof, if_neg (by omega), dif_neg (by simp),
    maximumPowerOfTwoBelow_eq _ (by omega)]
  simp only [List.dropLast_concat, List.getLast_append_singleton]
  show (if _ then _ else _) = _ ↔ _
  rw [if_neg (by omega)]
  show (runRecordProof nodeHash P (low + splitWidth (high - low)) high i L >>= _) = _ ↔ _
  cases runRecordProof nodeHash P (low + splitWidth (high - low)) high i L with
  | error e => exact ⟨nofun, nofun⟩
  | ok t =>
    show Except.ok _ = _ ↔ _
    simp

/-! ## Whole runs -/

/-- An accepted proof has as many hashes as the split recursion has levels. -/
theorem length_of_runRecordProof (n : Nat) : ∀ (P : List δ) (low high i : Nat) (L r : δ),
    high = low + n → low ≤ i → i < high →
    runRecordProof nodeHash P low high i L = .ok r → P.length = pathLength n (i - low) := by
  induction n using Nat.strong_induction_on with
  | _ n ih =>
    intro P low high i L r hhigh hlow hlt hrun
    by_cases h1 : n = 1
    · subst h1 hhigh
      rw [((runRecordProof_leaf nodeHash P low i L r).mp hrun).1, pathLength]
      rfl
    · have hw := splitWidth_lt n (by omega)
      have hp := splitWidth_pos n
      have hn : high - low = n := by omega
      rcases List.eq_nil_or_concat P with rfl | ⟨Q, s, rfl⟩
      · exact absurd hrun (runRecordProof_nil nodeHash low high i (by omega) L r)
      · rw [List.concat_eq_append] at hrun ⊢
        rw [pathLength, dif_pos (by omega), List.length_append]
        by_cases hi : i < low + splitWidth n
        · obtain ⟨t, ht, -⟩ := (runRecordProof_left nodeHash Q s low high i L r (by omega)
            (by rw [hn]; exact hi)).mp hrun
          rw [hn] at ht
          rw [if_pos (by omega), ih _ hw Q low _ i L t rfl hlow hi ht]
          rfl
        · obtain ⟨t, ht, -⟩ := (runRecordProof_right nodeHash Q s low high i L r (by omega)
            (by rw [hn]; omega)).mp hrun
          rw [hn] at ht
          rw [if_neg (by omega), ih (n - splitWidth n) (by omega) Q (low + splitWidth n) high i L t
            (by omega) (by omega) hlt ht, Nat.sub_sub]
          rfl

/-- The leaf and the whole proof are determined by the root they lead to. -/
theorem runRecordProof_unique (hnode : Function.Injective2 nodeHash) (n : Nat) :
    ∀ (P D : List δ) (low high i : Nat) (L : δ), D.length = n → high = low + n → low ≤ i →
      i < high → runRecordProof nodeHash P low high i L = .ok (mth nodeHash empty D) →
      D[i - low]? = some L ∧ P = auditPath nodeHash empty (i - low) D := by
  induction n using Nat.strong_induction_on with
  | _ n ih =>
    intro P D low high i L hD hhigh hlow hi hrun
    by_cases h1 : n = 1
    · subst h1 hhigh
      obtain ⟨rfl, hL⟩ := (runRecordProof_leaf nodeHash P low i L _).mp hrun
      rw [auditPath, dif_neg (by omega)]
      have h0 : i - low < D.length := by omega
      rw [mth_of_length_one nodeHash empty D _ hD h0] at hL
      exact ⟨by rw [List.getElem?_eq_getElem h0, hL], rfl⟩
    · have hw := splitWidth_lt n (by omega)
      have hp := splitWidth_pos n
      have hn : high - low = n := by omega
      rcases List.eq_nil_or_concat P with rfl | ⟨Q, s, rfl⟩
      · exact absurd hrun (runRecordProof_nil nodeHash low high i (by omega) L _)
      · rw [List.concat_eq_append, mth_split nodeHash empty D (by omega), hD] at hrun
        rw [List.concat_eq_append, auditPath, dif_pos (by omega), hD]
        by_cases hiw : i < low + splitWidth n
        · obtain ⟨t, ht, hroot⟩ := (runRecordProof_left nodeHash Q s low high i L _ (by omega)
            (by rw [hn]; exact hiw)).mp hrun
          obtain ⟨rfl, rfl⟩ := hnode hroot
          rw [hn] at ht
          obtain ⟨hL, rfl⟩ := ih _ hw Q (D.take (splitWidth n)) low _ i L (by simp; omega) rfl
            hlow hiw ht
          rw [List.getElem?_take_of_lt (by omega)] at hL
          rw [if_pos (by omega)]
          exact ⟨hL, rfl⟩
        · obtain ⟨t, ht, hroot⟩ := (runRecordProof_right nodeHash Q s low high i L _ (by omega)
            (by rw [hn]; omega)).mp hrun
          obtain ⟨rfl, rfl⟩ := hnode hroot
          rw [hn] at ht
          obtain ⟨hL, rfl⟩ := ih (n - splitWidth n) (by omega) Q (D.drop (splitWidth n))
            (low + splitWidth n) high i L (by simp; omega) (by omega) (by omega) hi ht
          rw [List.getElem?_drop, show splitWidth n + (i - (low + splitWidth n)) = i - low by omega]
            at hL
          rw [if_neg (by omega), Nat.sub_sub]
          exact ⟨hL, rfl⟩

/-- The honest audit path is accepted. -/
theorem runRecordProof_auditPath (n : Nat) :
    ∀ (D : List δ) (low high i : Nat) (L : δ), D.length = n → high = low + n → low ≤ i →
      D[i - low]? = some L →
      runRecordProof nodeHash (auditPath nodeHash empty (i - low) D) low high i L =
        .ok (mth nodeHash empty D) := by
  induction n using Nat.strong_induction_on with
  | _ n ih =>
    intro D low high i L hD hhigh hlow hL
    obtain ⟨hi, hget⟩ := List.getElem?_eq_some_iff.mp hL
    by_cases h1 : n = 1
    · subst h1 hhigh
      rw [auditPath, dif_neg (by omega), runRecordProof_leaf, ← hget]
      exact ⟨rfl, (mth_of_length_one nodeHash empty D _ hD (by omega)).symm⟩
    · have hw := splitWidth_lt n (by omega)
      have hp := splitWidth_pos n
      have hn : high - low = n := by omega
      rw [auditPath, dif_pos (by omega), hD, mth_split nodeHash empty D (by omega), hD]
      by_cases hiw : i < low + splitWidth n
      · rw [if_pos (by omega), runRecordProof_left _ _ _ _ _ _ _ _ (by omega)
          (by rw [hn]; exact hiw), hn]
        exact ⟨_, ih _ hw (D.take (splitWidth n)) low _ i L (by simp; omega) rfl hlow
          (by rw [List.getElem?_take_of_lt (by omega)]; exact hL), rfl⟩
      · rw [if_neg (by omega), runRecordProof_right _ _ _ _ _ _ _ _ (by omega)
          (by rw [hn]; omega), hn, Nat.sub_sub]
        refine ⟨_, ih (n - splitWidth n) (by omega) (D.drop (splitWidth n)) (low + splitWidth n)
          high i L (by simp; omega) (by omega) (by omega) ?_, rfl⟩
        rw [List.getElem?_drop, show splitWidth n + (i - (low + splitWidth n)) = i - low by omega]
        exact hL

/-- **Inclusion soundness.**  Against the tree hash of the leaf hashes `D`, a proof for index
`i` is accepted only for the leaf that is there.  Whatever the root, an accepted proof has
exactly as many hashes as the splits above leaf `i`: none missing, none left over. -/
theorem runRecordProof_sound (hnode : Function.Injective2 nodeHash) (D P : List δ) (i : Nat)
    (hi : i < D.length) (L : δ) :
    (runRecordProof nodeHash P 0 D.length i L = .ok (mth nodeHash empty D) → L = D[i]) ∧
    ∀ root, runRecordProof nodeHash P 0 D.length i L = .ok root →
      P.length = pathLength D.length i := by
  constructor
  · intro hrun
    have h := (runRecordProof_unique nodeHash empty hnode D.length P D 0 D.length i L rfl
      (Nat.zero_add _).symm (Nat.zero_le i) hi hrun).1
    rw [Nat.sub_zero, List.getElem?_eq_getElem hi] at h
    exact (Option.some.inj h).symm
  · intro root hrun
    exact length_of_runRecordProof nodeHash D.length P 0 D.length i L root
      (Nat.zero_add _).symm (Nat.zero_le i) hi hrun

end

/-! ## The free hashing -/

/-- Hash values as the terms that denote them. -/
inductive HashTerm where
  | record (record : Bytes)
  | node (left right : HashTerm)
  deriving DecidableEq

/-- Hashing without collisions; `ofBytes` says which hash 32 given bytes are. -/
def HashSuite.free (ofBytes : Bytes32 → HashTerm) : HashSuite HashTerm where
  emptyHash := .record []
  recordHash := .record
  nodeHash := .node
  ofBytes := ofBytes

theorem HashSuite.free_collisionFree (ofBytes : Bytes32 → HashTerm) :
    (HashSuite.free ofBytes).CollisionFree where
  record_injective := fun _ _ h => HashTerm.record.inj h
  node_injective := fun _ _ _ _ h => HashTerm.node.inj h
  disjoint := fun _ _ _ h => nomatch h

/-- Leaf 2 of a tree of three, whose only sibling is the left pair. -/
theorem runRecordProof_sound_three :
    let D := [HashTerm.record [0], .record [1], .record [2]]
    (runRecordProof HashTerm.node [.node (.record [0]) (.record [1])] 0 3 2 (.record [2]) =
        .ok (mth HashTerm.node (.record []) D)) ∧
      HashTerm.record [2] = D[2] ∧ 1 = pathLength 3 2 := by
  have hpath : auditPath HashTerm.node (.record []) 2 [.record [0], .record [1], .record [2]] =
      [.node (.record [0]) (.record [1])] := by
    simp [auditPath, mth, show splitWidth 3 = 2 by decide, show splitWidth 2 = 1 by decide]
  have hrun := runRecordProof_auditPath HashTerm.node (.record []) 3
    [.record [0], .record [1], .record [2]] 0 3 2 (.record [2]) rfl rfl (by decide) rfl
  rw [Nat.sub_zero, hpath] at hrun
  have hsound := runRecordProof_sound HashTerm.node (.record [])
    (HashSuite.free_collisionFree fun _ => .record []).node_injective
    [.record [0], .record [1], .record [2]] [.node (.record [0]) (.record [1])] 2 (by decide)
    (.record [2])
  exact ⟨hrun, hsound.1 hrun, hsound.2 _ hrun⟩

end Agentrail.GoSumdb
