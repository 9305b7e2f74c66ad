import Agentrail.Dependencies.GoSumdbInclusion

/-!
# Consistency proofs and the timeline of one verifier

`runTreeProof` implies the hash of the retained prefix of whatever tree the new
root is (`runTreeProof_old`), so a verifier that moves from one signed head to
another stays inside one log.  `verifyRelease_timeline` says so for every
sequence of calls: `advance_ok` is what one accepted step can do, and
`acceptedHeads_oneLog` carries it along a run.
-/

namespace Agentrail.GoSumdb

open Py Merkle

section
variable {δ : Type} (nodeHash : δ → δ → δ) (empty : δ)

/-! ## One step of the recursion -/

theorem runTreeProof_anchor (P : List δ) (m : Nat) (oldHash : δ) (r : δ × δ) :
    runTreeProof nodeHash P 0 m m oldHash = .ok r ↔ P = [] ∧ r = (oldHash, oldHash) := by
  rw [runTreeProof.eq_def, if_pos rfl, if_pos rfl]
  split <;> simp_all [eq_comm]

theorem runTreeProof_end (P : List δ) (low m : Nat) (hlow : low ≠ 0) (oldHash : δ) (r : δ × δ) :
    runTreeProof nodeHash P low m m oldHash = .ok r ↔ ∃ h, P = [h] ∧ r = (h, h) := by
  rw [runTreeProof.eq_def, if_pos rfl, if_neg hlow]
  split
  · simp [eq_comm]
  · next hP =>
    constructor
    · intro h
      cases h
    · rintro ⟨h, hP', _⟩
      exact absurd hP' (hP h)

theorem runTreeProof_nil (low high m : Nat) (h : m ≠ high) (oldHash : δ) (r : δ × δ) :
    runTreeProof nodeHash [] low high m oldHash ≠ .ok r := by
  rw [runTreeProof.eq_def, if_neg h, dif_pos rfl]
  simp

/-- The retained tree lies in the left subtree. -/
theorem runTreeProof_left (P : List δ) (s : δ) (low high m : Nat) (oldHash : δ) (r : δ × δ)
    (h : low + 2 ≤ high) (hne : m ≠ high) (hm : m ≤ low + splitWidth (high - low)) :
    runTreeProof nodeHash (P ++ [s]) low high m oldHash = .ok r ↔
      ∃ t, runTreeProof nodeHash P low (low + splitWidth (high - low)) m oldHash = .ok t ∧
        (t.1, nodeHash t.2 s) = r := by
  rw [runTreeProof.eq_def, if_neg hne, dif_neg (by simp), maximumPowerOfTwoBelow_eq _ (by omega)]
  simp only [List.dropLast_concat, List.getLast_append_singleton]
  show (if _ then _ else _) = _ ↔ _
  rw [if_pos hm]
  cases runTreeProof nodeHash P low (low + splitWidth (high - low)) m oldHash with
  | error e => exact ⟨nofun, nofun⟩
  | ok t =>
    show Except.ok _ = _ ↔ _
    simp

/-- The retained tree reaches into the right subtree, so it splits at the same place. -/
theorem runTreeProof_right (P : List δ) (s : δ) (low high m : Nat) (oldHash : δ) (r : δ × δ)
    (h : low + 2 ≤ high) (hne : m ≠ high) (hm : low + splitWidth (high - low) < m) :
    runTreeProof nodeHash (P ++ [s]) low high m oldHash = .ok r ↔
      ∃ t, runTreeProof nodeHash P (low + splitWidth (high - low)) high m oldHash = .ok t ∧
        (nodeHash s t.1, nodeHash s t.2) = r := by
  rw [runTreeProof.eq_def, if_neg hne, dif_neg (by simp), maximumPowerOfTwoBelow_eq _ (by omega)]
  simp only [List.dropLast_concat, List.getLast_append_singleton]
  show (if _ then _ else _) = _ ↔ _
  rw [if_neg (by omega)]
  show (runTreeProof nodeHash P (low + splitWidth (high - low)) high m oldHash >>= _) = _ ↔ _
  cases runTreeProof nodeHash P (low + splitWidth (high - low)) high m oldHash with
  | error e => exact ⟨nofun, nofun⟩
  | ok t =>
    show Except.ok _ = _ ↔ _
    simp

/-! ## Whole runs -/

/-- If the implied new root is the hash of `D`, the implied old root is the hash of the
part of `D` below the retained size. -/
theorem runTreeProof_old (hnode : Function.Injective2 nodeHash) (n : Nat) :
    ∀ (P D : List δ) (low high m : Nat) (oldHash old : δ), D.length = n → high = low + n →
      low < m → m ≤ high →
      runTreeProof nodeHash P low high m oldHash = .ok (old, mth nodeHash empty D) →
      old = mth nodeHash empty (D.take (m - low)) := by
  induction n using Nat.strong_induction_on with
  | _ n ih =>
    intro P D low high m oldHash old hD hhigh hlow hm hrun
    by_cases hmh : m = high
    · subst hmh
      rw [List.take_of_length_le (by omega)]
      by_cases h0 : low = 0
      · subst h0
        obtain ⟨-, hr⟩ := (runTreeProof_anchor nodeHash P m oldHash _).mp hrun
        simp only [Prod.mk.injEq] at hr
        exact hr.1.trans hr.2.symm
      · obtain ⟨h, -, hr⟩ := (runTreeProof_end nodeHash P low m h0 oldHash _).mp hrun
        simp only [Prod.mk.injEq] at hr
        exact hr.1.trans hr.2.symm
    · have hw := splitWidth_lt n (by omega)
      have hp := splitWidth_pos n
      have hn : high - low = n := by omega
      rcases List.eq_nil_or_concat P with rfl | ⟨Q, s, rfl⟩
      · exact absurd hrun (runTreeProof_nil nodeHash low high m hmh oldHash _)
      · rw [List.concat_eq_append, mth_split nodeHash empty D (by omega), hD] at hrun
        by_cases hmw : m ≤ low + splitWidth n
        · obtain ⟨⟨o, t⟩, ht, hr⟩ := (runTreeProof_left nodeHash Q s low high m oldHash _
            (by omega) hmh (by rw [hn]; exact hmw)).mp hrun
          simp only [Prod.mk.injEq] at hr
          obtain ⟨rfl, hroot⟩ := hr
          obtain ⟨rfl, -⟩ := hnode hroot
          rw [hn] at ht
          rw [ih _ hw Q (D.take (splitWidth n)) low _ m oldHash o (by simp; omega) rfl hlow hmw ht,
            List.take_take, Nat.min_eq_left (by omega)]
        · obtain ⟨⟨o, t⟩, ht, hr⟩ := (runTreeProof_right nodeHash Q s low high m oldHash _
            (by omega) hmh (by rw [hn]; omega)).mp hrun
          simp only [Prod.mk.injEq] at hr
          obtain ⟨rfl, hroot⟩ := hr
          obtain ⟨rfl, rfl⟩ := hnode hroot
          rw [hn] at ht
          rw [ih (n - splitWidth n) (by omega) Q (D.drop (splitWidth n)) (low + splitWidth n) high m
            oldHash o (by simp; omega) (by omega) (by omega) hm ht]
          have := mth_take_split nodeHash empty D (m - low) (by rw [hD]; omega) (by omega)
          rw [hD] at this
          rw [this, Nat.sub_sub]

/-- The honest consistency path is accepted, for the hash of the retained prefix. -/
theorem runTreeProof_consistencyPath (n : Nat) :
    ∀ (D : List δ) (low high m : Nat) (oldHash : δ), D.length = n → high = low + n →
      low < m → m ≤ high → (low = 0 → oldHash = mth nodeHash empty (D.take m)) →
      runTreeProof nodeHash (consistencyPath nodeHash empty (m - low) D (low = 0)) low high m
        oldHash = .ok (mth nodeHash empty (D.take (m - low)), mth nodeHash empty D) := by
  induction n using Nat.strong_induction_on with
  | _ n ih =>
    intro D low high m oldHash hD hhigh hlow hm hold
    rw [consistencyPath]
    by_cases hmh : m = high
    · subst hmh
      rw [dif_neg (by omega), List.take_of_length_le (by omega)]
      by_cases h0 : low = 0
      · subst h0
        rw [if_pos (by simp), runTreeProof_anchor]
        rw [List.take_of_length_le (by omega)] at hold
        exact ⟨rfl, by rw [hold rfl]⟩
      · rw [if_neg (by simpa using h0), runTreeProof_end nodeHash _ low m h0]
        exact ⟨_, rfl, rfl⟩
    · have hw := splitWidth_lt n (by omega)
      have hp := splitWidth_pos n
      have hn : high - low = n := by omega
      rw [dif_pos (by omega), hD, mth_split nodeHash empty D (by omega), hD]
      by_cases hmw : m ≤ low + splitWidth n
      · rw [if_pos (by omega), runTreeProof_left _ _ _ _ _ _ _ _ (by omega) hmh
          (by rw [hn]; exact hmw), hn]
        have htake : (D.take (splitWidth n)).take m = D.take m ∨ low ≠ 0 := by
          by_cases h0 : low = 0
          · left; rw [List.take_take, Nat.min_eq_left (by omega)]
          · exact Or.inr h0
        refine ⟨_, ih _ hw (D.take (splitWidth n)) low _ m oldHash (by simp; omega) rfl hlow hmw
          (fun h0 => ?_), ?_⟩
        · rcases htake with h | h
          · rw [h]; exact hold h0
          · exact absurd h0 h
        · rw [List.take_take, Nat.min_eq_left (by omega)]
      · rw [if_neg (by omega), runTreeProof_right _ _ _ _ _ _ _ _ (by omega) hmh
          (by rw [hn]; omega), hn, Nat.sub_sub]
        have hrec := ih (n - splitWidth n) (by omega) (D.drop (splitWidth n)) (low + splitWidth n)
          high m oldHash (by simp; omega) (by omega) (by omega) hm (by omega)
        rw [show decide (low + splitWidth n = 0) = false by simp; omega] at hrec
        have hsplit := mth_take_split nodeHash empty D (m - low) (by rw [hD]; omega) (by omega)
        rw [hD, Nat.sub_sub] at hsplit
        exact ⟨_, hrec, by rw [hsplit]⟩

end

/-! ## What a step accepts -/

section
variable {δ : Type} (H : HashSuite δ) (sig : Signatures)

/-- The head was parsed from a note with a valid signature of the pinned key. -/
def Authentic (head : SignedGoSumdbTreeHead) : Prop :=
  ∃ note, parseSignedTreeNote sig note = .ok head

/-- `head` is the tree head of the log `records`. -/
def IsHeadOf (head : SignedGoSumdbTreeHead) (records : List Bytes) : Prop :=
  records.length = head.treeSize ∧ H.ofBytes head.treeHashBytes = H.logRoot records

/-- The pinned key signs a tree head text only when it is the tree of a log. -/
def SignsOnlyLogRoots : Prop :=
  ∀ (keyHash : Nat) (publicKey signature : Bytes) (text : Text) (size : Nat) (hash : Bytes32),
    officialVerifier sig = .ok (keyHash, publicKey) →
    sig.ed25519Verify publicKey signature (utf8Encode text) = true →
    parseTreeText text = .ok (size, hash) →
    ∃ records : List Bytes, records.length = size ∧ H.ofBytes hash = H.logRoot records

theorem parseSignedTreeNote_ok (note : Bytes) (head : SignedGoSumdbTreeHead)
    (h : parseSignedTreeNote sig note = .ok head) :
    ∃ keyHash publicKey signature text, officialVerifier sig = .ok (keyHash, publicKey) ∧
      sig.ed25519Verify publicKey signature (utf8Encode text) = true ∧
      parseTreeText text = .ok (head.treeSize, head.treeHashBytes) := by
  unfold parseSignedTreeNote at h
  split at h
  · simp only [throw_eq_error, error_bind, ite_error_eq_ok, pure_eq_ok] at h
    obtain ⟨-, -, h⟩ := h
    split at h
    · simp only [ite_error_eq_ok, except_bind_eq_ok, Except.ok.injEq] at h
      obtain ⟨-, signature, -, ⟨keyHash, publicKey⟩, hkey, -, hsig, tree, htree, rfl⟩ := h
      exact ⟨keyHash, publicKey, signature.drop 4, _, hkey, by simpa using hsig, htree⟩
    · cases h
  · cases h

theorem parseSignedGoSumdbLookup_authentic (response modulePath version : PyObject)
    (lookup : SignedGoSumdbLookup)
    (h : parseSignedGoSumdbLookup sig response modulePath version = .ok lookup) :
    Authentic sig lookup.treeHead := by
  unfold parseSignedGoSumdbLookup at h
  simp only [throw_eq_error, error_bind, pure_eq_ok] at h
  split at h
  · rw [ite_error_eq_ok] at h
    obtain ⟨-, h⟩ := h
    split at h
    · split at h
      · cases h
      · split at h
        · simp only [ite_error_eq_ok] at h
          obtain ⟨-, -, h⟩ := h
          split at h
          · split at h
            · simp only [ite_error_eq_ok, except_bind_eq_ok, Except.ok.injEq] at h
              obtain ⟨_, -, -, _, -, _, -, head, hhead, -, -, rfl⟩ := h
              exact ⟨_, hhead⟩
            · cases h
          · cases h
        · cases h
    · cases h
  · cases h

theorem authentic_isHeadOf (hsig : SignsOnlyLogRoots H sig) (head : SignedGoSumdbTreeHead)
    (h : Authentic sig head) : ∃ records, IsHeadOf H head records := by
  obtain ⟨note, hnote⟩ := h
  obtain ⟨keyHash, publicKey, signature, text, hkey, hverify, htree⟩ :=
    parseSignedTreeNote_ok sig note head hnote
  exact hsig keyHash publicKey signature text _ _ hkey hverify htree

/-- Two logs of one head are the same. -/
theorem IsHeadOf.unique (hH : H.CollisionFree) (head : SignedGoSumdbTreeHead)
    (R1 R2 : List Bytes) (h1 : IsHeadOf H head R1) (h2 : IsHeadOf H head R2) : R1 = R2 := by
  have hroot : H.logRoot R1 = H.logRoot R2 := h1.2.symm.trans h2.2
  have hlen : R1.length = R2.length := h1.1.trans h2.1.symm
  exact (List.map_injective_iff.mpr hH.record_injective)
    (mth_injective H.nodeHash H.emptyHash hH.node_injective _ _ (by simpa using hlen) hroot)

/-- **Consistency soundness.**  An accepted consistency proof from a head of `R1` to a head
of `R2` shows that `R1` is where `R2` began. -/
theorem runTreeProof_extends (hH : H.CollisionFree) (prior newHead : SignedGoSumdbTreeHead)
    (R1 R2 : List Bytes) (h1 : IsHeadOf H prior R1) (h2 : IsHeadOf H newHead R2)
    (hsize : prior.treeSize < newHead.treeSize) (P : List δ)
    (hrun : runTreeProof H.nodeHash P 0 newHead.treeSize prior.treeSize
        (H.ofBytes prior.treeHashBytes) =
      .ok (H.ofBytes prior.treeHashBytes, H.ofBytes newHead.treeHashBytes)) : R1 <+: R2 := by
  rcases Nat.eq_zero_or_pos prior.treeSize with h0 | hpos
  · rw [List.length_eq_zero_iff.mp (h1.1.trans h0)]
    exact List.nil_prefix
  · rw [h2.2] at hrun
    have hold := runTreeProof_old H.nodeHash H.emptyHash hH.node_injective newHead.treeSize P
      (R2.map H.recordHash) 0 newHead.treeSize prior.treeSize _ _ (by rw [List.length_map, h2.1])
      (Nat.zero_add _).symm hpos (by omega) hrun
    rw [Nat.sub_zero, ← List.map_take] at hold
    have : IsHeadOf H prior (R2.take prior.treeSize) :=
      ⟨by rw [List.length_take, h2.1, Nat.min_eq_left (by omega)], hold⟩
    rw [IsHeadOf.unique H hH prior R1 _ h1 this]
    exact List.take_prefix _ _

end

section
variable {δ : Type} [DecidableEq δ] (H : HashSuite δ) (sig : Signatures)

/-- What an accepted new head is next to the retained one. -/
theorem advance_ok (verifier : GoSumdbVerifier) (newHead : SignedGoSumdbTreeHead)
    (consistencyProof : PyObject) (timeline : Timeline) (prior : SignedGoSumdbTreeHead)
    (hprior : verifier.treeHead = some prior)
    (h : advance H verifier newHead consistencyProof = .ok timeline) :
    (newHead.treeSize = prior.treeSize ∧ newHead.treeHashBytes = prior.treeHashBytes) ∨
    (prior.treeSize < newHead.treeSize ∧ ∃ P,
      runTreeProof H.nodeHash P 0 newHead.treeSize prior.treeSize (H.ofBytes prior.treeHashBytes) =
        .ok (H.ofBytes prior.treeHashBytes, H.ofBytes newHead.treeHashBytes)) := by
  unfold advance at h
  simp only [hprior, throw_eq_error, error_bind, pure_eq_ok, except_bind_eq_ok,
    ite_error_eq_ok] at h
  obtain ⟨P, -, hsize, h⟩ := h
  split at h
  · next heq =>
    simp only [ite_error_eq_ok] at h
    exact Or.inl ⟨heq, by simpa using h.1⟩
  · next hne =>
    simp only [ite_error_eq_ok, except_bind_eq_ok] at h
    obtain ⟨⟨old, new⟩, hrun, hmatch, -⟩ := h
    obtain ⟨rfl, rfl⟩ : old = _ ∧ new = _ := by simpa using hmatch
    exact Or.inr ⟨by omega, _, hrun⟩

/-! ## One log -/

/-- An accepted step stays in one log. -/
theorem advance_extends (hH : H.CollisionFree) (verifier : GoSumdbVerifier)
    (prior newHead : SignedGoSumdbTreeHead) (consistencyProof : PyObject) (timeline : Timeline)
    (hprior : verifier.treeHead = some prior)
    (h : advance H verifier newHead consistencyProof = .ok timeline) :
    prior.treeSize ≤ newHead.treeSize ∧
    ∀ R1 R2, IsHeadOf H prior R1 → IsHeadOf H newHead R2 → R1 <+: R2 := by
  rcases advance_ok H verifier newHead consistencyProof timeline prior hprior h with
    ⟨hs, hh⟩ | ⟨hs, P, hrun⟩
  · refine ⟨by omega, fun R1 R2 h1 h2 => ?_⟩
    have h2' : IsHeadOf H prior R2 := ⟨h2.1.trans hs, by rw [← hh]; exact h2.2⟩
    rw [IsHeadOf.unique H hH prior R1 R2 h1 h2']
  · exact ⟨by omega, fun R1 R2 h1 h2 => runTreeProof_extends H hH prior newHead R1 R2 h1 h2 hs P hrun⟩

/-! ## Runs of `verify_release` -/

/-- What one call did: the exception or the release, and the verifier after it. -/
def callRelease (verifier : GoSumdbVerifier) (call : ReleaseCall) :
    Except PyError VerifiedGoSumdbRelease × GoSumdbVerifier :=
  (verifyRelease H sig call).run verifier

def runCalls (verifier : GoSumdbVerifier) (calls : List ReleaseCall) : GoSumdbVerifier :=
  calls.foldl (fun v call => (callRelease H sig v call).2) verifier

/-- The heads retained one after the other during a run, the first one included. -/
def acceptedHeads (verifier : GoSumdbVerifier) : List ReleaseCall → List SignedGoSumdbTreeHead
  | [] => verifier.treeHead.toList
  | call :: calls =>
    verifier.treeHead.toList ++ acceptedHeads (callRelease H sig verifier call).2 calls

/-- A new verifier, or one restarted from a retained note. -/
def Started (verifier : GoSumdbVerifier) : Prop :=
  verifier = {} ∨ ∃ note, fromRetainedSignedTreeNote sig note = .ok verifier

/-- A call stops at the first check that raises; the verifier changes after the last. -/
theorem callRelease_eq (verifier : GoSumdbVerifier) (call : ReleaseCall) :
    callRelease H sig verifier call =
      match parseSignedGoSumdbLookup sig call.response call.modulePath call.version with
      | .error e => (.error e, verifier)
      | .ok lookup =>
        match authenticateRecordInclusion H lookup call.inclusionProof with
        | .error e => (.error e, verifier)
        | .ok _ =>
          match advance H verifier lookup.treeHead call.consistencyProof with
          | .error e => (.error e, verifier)
          | .ok timeline => (.ok { lookup, timeline }, { treeHead := some lookup.treeHead }) := by
  unfold callRelease verifyRelease
  cases parseSignedGoSumdbLookup sig call.response call.modulePath call.version with
  | error e => rfl
  | ok lookup =>
    dsimp only
    change ExceptT.run (do
      liftM (authenticateRecordInclusion H lookup call.inclusionProof)
      let timeline ← (liftM (advance H (← get) lookup.treeHead call.consistencyProof) : VerifierM _)
      set ({ treeHead := some lookup.treeHead } : GoSumdbVerifier)
      return ({ lookup, timeline } : VerifiedGoSumdbRelease)) verifier = _
    cases authenticateRecordInclusion H lookup call.inclusionProof with
    | error e => rfl
    | ok u =>
      dsimp only
      change ExceptT.run (do
        let timeline ← (liftM (advance H verifier lookup.treeHead call.consistencyProof) : VerifierM _)
        set ({ treeHead := some lookup.treeHead } : GoSumdbVerifier)
        return ({ lookup, timeline } : VerifiedGoSumdbRelease)) verifier = _
      cases advance H verifier lookup.treeHead call.consistencyProof <;> rfl

/-- A call either raises and leaves the verifier alone, or moves it to an authentic head. -/
theorem callRelease_cases (verifier : GoSumdbVerifier) (call : ReleaseCall) :
    (∃ e, callRelease H sig verifier call = (.error e, verifier)) ∨
    ∃ lookup timeline, Authentic sig lookup.treeHead ∧
      advance H verifier lookup.treeHead call.consistencyProof = .ok timeline ∧
      callRelease H sig verifier call =
        (.ok { lookup, timeline }, { treeHead := some lookup.treeHead }) := by
  rw [callRelease_eq]
  cases hparse : parseSignedGoSumdbLookup sig call.response call.modulePath call.version with
  | error e => exact Or.inl ⟨e, rfl⟩
  | ok lookup =>
    dsimp only
    cases authenticateRecordInclusion H lookup call.inclusionProof with
    | error e => exact Or.inl ⟨e, rfl⟩
    | ok u =>
      dsimp only
      cases hadv : advance H verifier lookup.treeHead call.consistencyProof with
      | error e => exact Or.inl ⟨e, rfl⟩
      | ok timeline =>
        exact Or.inr ⟨lookup, timeline, parseSignedGoSumdbLookup_authentic sig _ _ _ _ hparse,
          hadv, rfl⟩

theorem started_authentic (verifier : GoSumdbVerifier) (h : Started sig verifier)
    (head : SignedGoSumdbTreeHead) (hhead : verifier.treeHead = some head) :
    Authentic sig head := by
  rcases h with rfl | ⟨note, hnote⟩
  · cases hhead
  · unfold fromRetainedSignedTreeNote at hnote
    split at hnote
    · simp only [throw_eq_error, error_bind, ite_error_eq_ok, except_bind_eq_ok, pure_eq_ok,
        Except.ok.injEq] at hnote
      obtain ⟨-, prior, hprior, rfl⟩ := hnote
      cases hhead
      exact ⟨_, hprior⟩
    · cases hnote

theorem callRelease_authentic (verifier : GoSumdbVerifier) (call : ReleaseCall)
    (hv : ∀ head, verifier.treeHead = some head → Authentic sig head)
    (head : SignedGoSumdbTreeHead)
    (h : (callRelease H sig verifier call).2.treeHead = some head) : Authentic sig head := by
  rcases callRelease_cases H sig verifier call with ⟨e, he⟩ | ⟨lookup, timeline, ha, -, he⟩
  · rw [he] at h; exact hv head h
  · rw [he] at h; cases h; exact ha

theorem mem_acceptedHeads (verifier : GoSumdbVerifier) (calls : List ReleaseCall)
    (head : SignedGoSumdbTreeHead) (h : verifier.treeHead = some head) :
    head ∈ acceptedHeads H sig verifier calls := by
  cases calls <;> simp [acceptedHeads, h]

/-- The heads of a run are heads of prefixes of one log. -/
theorem acceptedHeads_oneLog (hH : H.CollisionFree) (hsig : SignsOnlyLogRoots H sig)
    (calls : List ReleaseCall) : ∀ verifier : GoSumdbVerifier,
    (∀ head, verifier.treeHead = some head → Authentic sig head) →
    ∃ log, ∀ head ∈ acceptedHeads H sig verifier calls,
      ∃ records, IsHeadOf H head records ∧ records <+: log := by
  induction calls with
  | nil =>
    intro verifier hv
    cases hhead : verifier.treeHead with
    | none => exact ⟨[], by simp [acceptedHeads, hhead]⟩
    | some head =>
      obtain ⟨records, hr⟩ := authentic_isHeadOf H sig hsig head (hv head hhead)
      refine ⟨records, ?_⟩
      simp only [acceptedHeads, hhead, Option.toList_some, List.mem_singleton, forall_eq]
      exact ⟨records, hr, List.prefix_rfl⟩
  | cons call calls ih =>
    intro verifier hv
    obtain ⟨log, hlog⟩ := ih _ (callRelease_authentic H sig verifier call hv)
    refine ⟨log, fun head hmem => ?_⟩
    rw [acceptedHeads, List.mem_append] at hmem
    rcases hmem with hmem | hmem
    · have hhead : verifier.treeHead = some head := by simpa using hmem
      rcases callRelease_cases H sig verifier call with ⟨e, he⟩ | ⟨lookup, timeline, -, hadv, he⟩
      · exact hlog head (mem_acceptedHeads H sig _ calls head (by rw [he]; exact hhead))
      · obtain ⟨R2, hR2, hpre⟩ := hlog lookup.treeHead
          (mem_acceptedHeads H sig _ calls lookup.treeHead (by rw [he]))
        obtain ⟨R1, hR1⟩ := authentic_isHeadOf H sig hsig head (hv head hhead)
        have := (advance_extends H hH verifier head lookup.treeHead _ timeline hhead hadv).2
        exact ⟨R1, hR1, (this R1 R2 hR1 hR2).trans hpre⟩
    · exact hlog head hmem

end

/-! ## A log of two equal records -/

def sampleRecord : Bytes :=
  utf8Encode ("golang.org/x/text v0.3.0 h1:".toList ++ List.replicate 43 'A' ++
    "=\ngolang.org/x/text v0.3.0/go.mod h1:".toList ++ List.replicate 43 'A' ++ ['=', '\n'])

/-- The signed text of a tree of `size` records whose hash starts with the digit `first`. -/
def sampleHeadText (size first : Char) : Text :=
  treePrefix ++ ['\n', size, '\n', first] ++ List.replicate 42 'A' ++ ['=', '\n']

/-- A hash that starts with the byte 0 is the record's, any other the root of two records. -/
def sampleHashing : HashSuite HashTerm :=
  .free fun b => if b.val.head? = some 0 then .record sampleRecord
    else .node (.record sampleRecord) (.record sampleRecord)

/-- The pinned key has signed the heads of the first record and of both. -/
def sampleSignatures : Signatures where
  sha256 _ := [0x03, 0x3d, 0xe0, 0xae]
  ed25519Verify _ _ message :=
    message = utf8Encode (sampleHeadText '1' 'A') || message = utf8Encode (sampleHeadText '2' 'B')

theorem sampleSignatures_signsOnlyLogRoots : SignsOnlyLogRoots sampleHashing sampleSignatures := by
  intro keyHash publicKey signature text size hash _ hverify htree
  have henc : ∀ t : Text, utf8Encode text = utf8Encode t → text = t := fun t h =>
    Option.some.inj (by rw [← utf8Decode_utf8Encode, h, utf8Decode_utf8Encode])
  have h1 : parseTreeText (sampleHeadText '1' 'A') = .ok (1, ⟨List.replicate 32 0, rfl⟩) := by
    decide +kernel
  have h2 : parseTreeText (sampleHeadText '2' 'B') =
      .ok (2, ⟨4 :: List.replicate 31 0, rfl⟩) := by
    decide +kernel
  rcases Bool.or_eq_true_iff.mp hverify with hm | hm
  · rw [henc _ (of_decide_eq_true hm), h1] at htree
    cases htree
    exact ⟨[sampleRecord], rfl, (mth_singleton _ _ _).symm⟩
  · rw [henc _ (of_decide_eq_true hm), h2] at htree
    cases htree
    refine ⟨[sampleRecord, sampleRecord], rfl, ?_⟩
    unfold HashSuite.logRoot
    rw [mth_split _ _ _ (by decide)]
    simp only [List.map_cons, List.map_nil, List.length_cons, List.length_nil, Nat.reduceAdd,
      show splitWidth 2 = 1 by decide, List.take_succ_cons, List.take_zero, List.drop_succ_cons,
      List.drop_zero, mth_singleton]
    rfl

/-- A response that is no signed lookup. -/
def sampleCall : ReleaseCall where
  response := .bytes [103, 111]
  modulePath := .str ['g']
  version := .other
  inclusionProof := .list []

end Agentrail.GoSumdb
