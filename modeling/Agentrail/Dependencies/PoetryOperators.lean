import Agentrail.Dependencies.Pep440Containment
import Agentrail.Lib.RegexRules
import Agentrail.Py.Lines
import Mathlib.Data.List.GetD

/-!
# Poetry operators mean what they say

The clauses of `~=X`, `^X` and `~X` are ranges from `X` to an incremented release
filled up with zeros.  Trailing zeros do not matter to a comparison
(`compareRelease_zeros`), so the upper bound is the increment with the rest dropped.
`parsePoetryConstraint_operator` and `parsePoetryConstraint_prefix` say that these
texts are read as meant; `poetry_operators` puts both together.
-/

namespace Agentrail.Pep440

open Py Digits Regex

/-! ## Trailing zeros -/

theorem padded_zeros (width k : Nat) (r : List Nat) (h : r.length ≤ width) :
    padded (width + k) r = padded width r ++ List.replicate k 0 := by
  unfold padded
  rw [List.append_assoc, List.replicate_append_replicate]
  congr 2
  omega

theorem padded_append_zeros (width k : Nat) (r : List Nat) (h : r.length + k ≤ width) :
    padded width (r ++ List.replicate k 0) = padded width r := by
  unfold padded
  rw [List.append_assoc, List.replicate_append_replicate, List.length_append,
    List.length_replicate]
  congr 2
  omega

/-- Lists of one length compare before common endings. -/
theorem append_lt_append_iff (u v w : List Nat) (h : u.length = v.length) :
    u ++ w < v ++ w ↔ u < v := by
  induction u generalizing v with
  | nil =>
    obtain rfl : v = [] := List.eq_nil_of_length_eq_zero h.symm
    simp
  | cons a u ih =>
    cases v with
    | nil => cases h
    | cons b v =>
      rw [List.cons_append, List.cons_append, List.cons_lt_cons_iff, List.cons_lt_cons_iff,
        ih v (Nat.succ.inj h)]

/-- A comparison may pad to any width. -/
theorem compareRelease_width (width : Nat) (l r : List Nat) (hl : l.length ≤ width)
    (hr : r.length ≤ width) :
    compareRelease l r = if padded width l = padded width r then 0
      else if padded width l < padded width r then -1 else 1 := by
  obtain ⟨k, rfl⟩ : ∃ k, width = max l.length r.length + k :=
    ⟨width - max l.length r.length, by omega⟩
  have hlen : (padded (max l.length r.length) l).length =
      (padded (max l.length r.length) r).length := by
    rw [length_padded _ _ (le_max_left _ _), length_padded _ _ (le_max_right _ _)]
  rw [padded_zeros _ k l (le_max_left _ _), padded_zeros _ k r (le_max_right _ _)]
  simp only [append_lt_append_iff _ _ _ hlen, List.append_left_inj]
  rfl

/-- **Trailing zero components are irrelevant** to a comparison. -/
theorem compareRelease_zeros (l r : List Nat) (j k : Nat) :
    compareRelease (l ++ List.replicate j 0) (r ++ List.replicate k 0) = compareRelease l r := by
  have hl : l.length + j ≤ l.length + j + r.length + k := by omega
  have hr : r.length + k ≤ l.length + j + r.length + k := by omega
  rw [compareRelease_width (l.length + j + r.length + k) _ _
      (by rw [List.length_append, List.length_replicate]; exact hl)
      (by rw [List.length_append, List.length_replicate]; exact hr),
    compareRelease_width (l.length + j + r.length + k) l r (by omega) (by omega),
    padded_append_zeros _ _ _ hl, padded_append_zeros _ _ _ hr]

theorem compareRelease_right_zeros (l r : List Nat) (k : Nat) :
    compareRelease l (r ++ List.replicate k 0) = compareRelease l r := by
  have h := compareRelease_zeros l r 0 k
  rwa [List.replicate_zero, List.append_nil] at h

/-- Nor do they matter to any clause, on the side of the version. -/
theorem clauseMatches_zeros (clause : ConstraintClause) (actual padding : StablePep440Version)
    (k : Nat) (h : padding.release = actual.release ++ List.replicate k 0) :
    clauseMatches clause padding = clauseMatches clause actual := by
  have hcompare : ∀ r, compareRelease padding.release r = compareRelease actual.release r := by
    intro r
    have hzeros := compareRelease_zeros actual.release r k 0
    rwa [List.replicate_zero, List.append_nil, ← h] at hzeros
  have htake : ∀ p : List Nat, (padded p.length padding.release).take p.length =
      (padded p.length actual.release).take p.length := by
    intro p
    rw [h]
    unfold padded
    rw [List.append_assoc, List.replicate_append_replicate]
    rw [List.take_append, List.take_append, List.take_replicate, List.take_replicate,
      List.length_append, List.length_replicate]
    congr 2
    omega
  cases clause <;> simp only [clauseMatches, hcompare, htake]

/-- `_semantic_release`. -/
def semanticRelease (release : List Nat) : List Nat :=
  if 1 < release.length ∧ release.getLast? = some 0 then semanticRelease release.dropLast
  else release
termination_by release.length
decreasing_by simp only [List.length_dropLast]; omega

theorem semanticRelease_zeros (release : List Nat) :
    ∃ k, release = semanticRelease release ++ List.replicate k 0 := by
  fun_induction semanticRelease release with
  | case1 release h ih =>
    obtain ⟨k, hk⟩ := ih
    refine ⟨k + 1, ?_⟩
    have hlast := List.dropLast_append_getLast? 0 h.2
    rw [List.replicate_succ', ← List.append_assoc, ← hk]
    exact hlast.symm
  | case2 release h => exact ⟨0, by simp⟩

theorem semanticRelease_ne_nil (release : List Nat) (h : release ≠ []) :
    semanticRelease release ≠ [] := by
  fun_induction semanticRelease release with
  | case1 release hzero ih =>
    refine ih ?_
    intro hnil
    have hlen := congrArg List.length hnil
    rw [List.length_dropLast, List.length_nil] at hlen
    omega
  | case2 release _ => exact h

theorem semanticRelease_last (release : List Nat) (h : 1 < (semanticRelease release).length) :
    (semanticRelease release).getLast? ≠ some 0 := by
  fun_induction semanticRelease release with
  | case1 release _ ih => exact ih h
  | case2 release hzero => exact fun hlast => hzero ⟨h, hlast⟩

/-- Releases that compare as equal have one semantic release. -/
theorem compareRelease_eq_zero_iff (l r : List Nat) (hl : l ≠ []) (hr : r ≠ []) :
    compareRelease l r = 0 ↔ semanticRelease l = semanticRelease r := by
  obtain ⟨j, hj⟩ := semanticRelease_zeros l
  obtain ⟨k, hk⟩ := semanticRelease_zeros r
  have hsemantic : compareRelease l r = compareRelease (semanticRelease l) (semanticRelease r) := by
    conv_lhs => rw [hj, hk]
    exact compareRelease_zeros _ _ j k
  -- of two semantic releases the shorter one cannot be the longer one without its last zeros
  have hshort : ∀ a b : List Nat, semanticRelease a ≠ [] →
      (semanticRelease a).length ≤ (semanticRelease b).length →
      compareRelease (semanticRelease a) (semanticRelease b) = 0 →
      semanticRelease a = semanticRelease b := by
    intro a b ha hle h
    rcases compareRelease_cases (semanticRelease a) (semanticRelease b) with
      ⟨hpad, -⟩ | ⟨-, hc⟩ | ⟨-, hc⟩
    · rw [Nat.max_eq_right hle] at hpad
      unfold padded at hpad
      rw [Nat.sub_self, List.replicate_zero, List.append_nil] at hpad
      generalize hn : (semanticRelease b).length - (semanticRelease a).length = n at hpad
      cases n with
      | zero => simpa using hpad
      | succ n =>
        have hpos := List.length_pos_iff.mpr ha
        have hlast := semanticRelease_last b (by omega)
        rw [← hpad, List.replicate_succ', ← List.append_assoc, List.getLast?_concat] at hlast
        exact absurd rfl hlast
    · omega
    · omega
  rw [hsemantic]
  constructor
  · intro h
    rcases Nat.le_total (semanticRelease l).length (semanticRelease r).length with hle | hle
    · exact hshort l r (semanticRelease_ne_nil l hl) hle h
    · refine (hshort r l (semanticRelease_ne_nil r hr) hle ?_).symm
      rcases compareRelease_cases (semanticRelease l) (semanticRelease r) with
        ⟨hpad, -⟩ | ⟨-, hc⟩ | ⟨-, hc⟩
      · unfold compareRelease
        rw [Nat.max_comm]
        exact if_pos hpad.symm
      · omega
      · omega
  · intro h
    unfold compareRelease
    rw [h]
    exact if_pos rfl

/-! ## Increments -/

/-- The release with the component at `i` incremented and the rest dropped. -/
def incrementAt (i : Nat) (release : List Nat) : List Nat :=
  release.take i ++ [release.getD i 0 + 1]

theorem bump_eq (i : Nat) (release : List Nat) (h : i < release.length) :
    bump i release = incrementAt i release ++ List.replicate (release.length - i - 1) 0 := by
  fun_induction bump i release with
  | case1 => cases h
  | case2 d l => simp [incrementAt, List.map_const']
  | case3 i d l ih =>
    have hrest := ih (Nat.lt_of_succ_lt_succ h)
    rw [hrest]
    simp [incrementAt, Nat.succ_sub_succ]

/-- A clause up to an increment is one up to the increment with the rest dropped. -/
theorem compareRelease_bump (i : Nat) (actual release : List Nat) (h : i < release.length) :
    compareRelease actual (bump i release) = compareRelease actual (incrementAt i release) := by
  rw [bump_eq i release h, compareRelease_right_zeros]

/-- The leftmost component that is not zero, or the last where all are zero. -/
def Leading (release : List Nat) (i : Nat) : Prop :=
  i < release.length ∧ (∀ j < i, release.getD j 0 = 0) ∧
    (release.getD i 0 ≠ 0 ∨ i + 1 = release.length)

theorem leading_caret (release : List Nat) (h : release ≠ []) :
    Leading release ((release.findIdx? fun part => part ≠ 0).getD (release.length - 1)) := by
  have hpos := List.length_pos_iff.mpr h
  cases hfind : release.findIdx? fun part => part ≠ 0 with
  | none =>
    have hzero := List.findIdx?_eq_none_iff.mp hfind
    have hall : ∀ j, release.getD j 0 = 0 := by
      intro j
      rcases Nat.lt_or_ge j release.length with hj | hj
      · rw [List.getD_eq_getElem _ _ hj]
        simpa using hzero _ (List.getElem_mem hj)
      · rw [List.getD_eq_default _ _ hj]
    exact ⟨by simp only [Option.getD_none]; omega, fun j _ => hall j,
      .inr (by simp only [Option.getD_none]; omega)⟩
  | some i =>
    obtain ⟨hi, hne, hbefore⟩ := List.findIdx?_eq_some_iff_getElem.mp hfind
    refine ⟨hi, fun j hj => ?_, .inl ?_⟩
    · rw [List.getD_eq_getElem _ _ (Nat.lt_trans hj hi)]
      simpa using hbefore j hj
    · rw [Option.getD_some, List.getD_eq_getElem _ _ hi]
      simpa using hne

/-! ## The clauses of the operators -/

theorem range_matches_iff (lower actual : StablePep440Version) (i : Nat)
    (h : i < lower.release.length) :
    clauseMatches (rangeClause lower (bump i lower.release)) actual = true ↔
      compareRelease actual.release lower.release ≥ 0 ∧
        compareRelease actual.release (incrementAt i lower.release) < 0 := by
  rw [← compareRelease_bump i actual.release lower.release h]
  unfold rangeClause
  simp only [clauseMatches, Bool.and_eq_true, decide_eq_true_eq]

theorem incrementAt_dropLast (release : List Nat) (h : 2 ≤ release.length) :
    incrementAt (release.length - 2) release =
      incrementAt (release.dropLast.length - 1) release.dropLast := by
  have hlen : release.dropLast.length - 1 = release.length - 2 := by
    rw [List.length_dropLast]
    omega
  have hget : release.dropLast.getD (release.length - 2) 0 =
      release.getD (release.length - 2) 0 := by
    rw [List.getD_eq_getElem _ _ (by rw [List.length_dropLast]; omega),
      List.getD_eq_getElem _ _ (by omega), List.getElem_dropLast]
  unfold incrementAt
  rw [hlen, hget, List.dropLast_eq_take, List.take_take, Nat.min_eq_left (by omega)]

/-- The first components of a release do not exceed it. -/
theorem index_dropLast_le (release : List Nat) (h : release ≠ [])
    (hlen : release.length ≤ components) :
    releaseLatticeIndex release.dropLast ≤ releaseLatticeIndex release := by
  have hsplit := List.dropLast_concat_getLast h
  have hdrop : release.dropLast.length = release.length - 1 := List.length_dropLast
  have hpos := List.length_pos_iff.mpr h
  have hwidth : components - (release.length - 1) = components - release.length + 1 := by omega
  have hshort : padded components release.dropLast =
      release.dropLast ++ List.replicate (components - release.length + 1) 0 := by
    unfold padded
    rw [hdrop, hwidth]
  have hlong : padded components release =
      release.dropLast ++
        (release.getLast h :: List.replicate (components - release.length) 0) := by
    calc release ++ List.replicate (components - release.length) 0
        = (release.dropLast ++ [release.getLast h]) ++
            List.replicate (components - release.length) 0 := by rw [hsplit]
      _ = _ := by rw [List.append_assoc]; rfl
  rw [releaseLatticeIndex_eq, releaseLatticeIndex_eq, hshort, hlong, index_append, index_append,
    index_zeros, List.length_cons, List.length_replicate, List.length_replicate]
  omega

theorem admissible_dropLast (release : List Nat) (h : Admissible release)
    (h2 : 2 ≤ release.length) : Admissible release.dropLast := by
  have hlen : release.dropLast.length = release.length - 1 := List.length_dropLast
  exact ⟨by omega, by have := h.2.1; omega, fun d hd => h.2.2 d (List.mem_of_mem_dropLast hd)⟩

/-- `~=X` is from `X` on and `==P.*`, where `P` is `X` without its last component. -/
theorem compatible_matches_iff (lower actual : StablePep440Version)
    (hl : Admissible lower.release) (ha : Admissible actual.release)
    (h2 : 2 ≤ lower.release.length) :
    clauseMatches (rangeClause lower (compatibleUpper lower.release)) actual = true ↔
      compareRelease actual.release lower.release ≥ 0 ∧
        clauseMatches (.prefixOf lower.release.dropLast) actual = true := by
  have hp := admissible_dropLast lower.release hl h2
  have hne : lower.release ≠ [] := by
    intro hnil
    rw [hnil] at h2
    exact absurd h2 (by decide)
  have hbump : compareRelease actual.release (incrementAt (lower.release.length - 2) lower.release)
      = compareRelease actual.release (incrementPrefix lower.release.dropLast) := by
    have hone := hp.1
    unfold incrementPrefix
    rw [compareRelease_bump _ _ _ (by omega), incrementAt_dropLast _ h2]
  have hprefix := prefix_iff actual.release lower.release.dropLast ha hp
  have hupper := compare_lt_iff actual.release (incrementPrefix lower.release.dropLast) ha
    (isBound_bump _ _ hp)
  have hlower := compare_ge_iff actual.release lower.release ha hl.isBound
  have hle := index_dropLast_le lower.release hne hl.2.1
  unfold compatibleUpper
  rw [range_matches_iff lower actual _ (by omega), hbump, hupper, hlower]
  simp only [clauseMatches, decide_eq_true_eq, hprefix]
  omega

/-! ## Reading the texts -/

/-- The characters of releases, of `.*` and of the operators `~=`, `==`, `^` and `~`. -/
def plainChar (c : Char) : Bool := isDigit09 c || ['v', '.', '~', '=', '^', '*'].contains c

theorem plainChar_spec (c : Char) (h : plainChar c = true) :
    isSpace c = false ∧ c.toNat < 128 ∧ c ≠ ',' ∧ c ≠ '|' ∧ c ≠ ';' ∧ c ≠ '@' ∧ c ≠ '\\' := by
  rcases Bool.or_eq_true_iff.mp h with hd | hc
  · have hdigit := isDigit_of_isDigit09 c hd
    have hrange := Char.isDigit_iff_toNat.mp hdigit
    have h9 : '9'.toNat = 57 := rfl
    have hne : ∀ d : Char, 57 < d.toNat ∨ d.toNat < 48 → c ≠ d := by
      rintro d hd rfl
      have h0 : '0'.toNat = 48 := rfl
      omega
    exact ⟨not_isSpace_of_isDigit c hdigit, by omega, hne _ (by decide), hne _ (by decide),
      hne _ (by decide), hne _ (by decide), hne _ (by decide)⟩
  · simp only [List.contains_eq_mem, decide_eq_true_eq, List.mem_cons, List.not_mem_nil,
      or_false] at hc
    rcases hc with rfl | rfl | rfl | rfl | rfl | rfl <;> decide

theorem length_utf8Encode_ascii (t : Text) (h : ∀ c ∈ t, c.toNat < 128) :
    (utf8Encode t).length = t.length := by
  induction t with
  | nil => rfl
  | cons c t ih =>
    have hc : c.val ≤ 127 := Nat.le_of_lt_succ (h c List.mem_cons_self)
    have hsize : c.utf8Size = 1 := Char.utf8Size_eq_one_iff.mpr hc
    unfold utf8Encode at ih ⊢
    rw [List.flatMap_cons, List.length_append, String.length_utf8EncodeChar, hsize,
      ih fun d hd => h d (List.mem_cons_of_mem c hd), List.length_cons]
    omega

theorem isIn_eq_false (token value : Text) (c : Char) (hc : c ∈ token) (h : c ∉ value) :
    isIn token value = false := by
  unfold isIn
  cases hat : partitionAt token value with
  | none => rfl
  | some r =>
    have hjoin := partitionAt_join token value r.1 r.2 hat
    exact absurd (by rw [hjoin]; simp [hc]) h

/-- A text of such characters is one clause. -/
theorem parsePoetryConstraint_plain (value : Text) (hne : value ≠ [])
    (hplain : ∀ c ∈ value, plainChar c = true) (hlen : value.length ≤ pep440ConstraintMaxBytes)
    (heq : isIn ['=', '=', '='] value = false) :
    parsePoetryConstraint value =
      (parseClause value).map fun clause => ⟨value, [clause]⟩ := by
  have hspec := fun c hc => plainChar_spec c (hplain c hc)
  have hstrip : strip value = value := strip_of_notSpace value fun c hc => (hspec c hc).1
  have hbytes := length_utf8Encode_ascii value fun c hc => (hspec c hc).2.1
  have hsplit : splitOn1 ',' value = [value] :=
    splitOn1_of_notMem ',' value fun hc => (hspec _ hc).2.2.1 rfl
  have hbars := isIn_eq_false ['|', '|'] value '|' (by decide) fun hc => (hspec _ hc).2.2.2.1 rfl
  have hsemi := isIn_eq_false [';'] value ';' (by decide) fun hc => (hspec _ hc).2.2.2.2.1 rfl
  have hat := isIn_eq_false ['@'] value '@' (by decide) fun hc => (hspec _ hc).2.2.2.2.2.1 rfl
  have hslash := isIn_eq_false ['\\'] value '\\' (by decide) fun hc =>
    (hspec _ hc).2.2.2.2.2.2 rfl
  have htokens : (["||", ";", "@", "===", "\\"].any fun token => isIn token.toList value) =
      false := by
    show (isIn ['|', '|'] value || (isIn [';'] value || (isIn ['@'] value ||
      (isIn ['=', '=', '='] value || (isIn ['\\'] value || false))))) = false
    rw [hbars, hsemi, hat, heq, hslash]
    rfl
  unfold parsePoetryConstraint
  rw [if_neg (by rw [hstrip]; simp [hne]), if_neg (by rw [hbytes]; omega), htokens]
  simp only [Bool.false_eq_true, if_false, hsplit]
  rw [if_neg (by simp [hstrip, hne, pep440MaxClauses])]
  simp only [List.mapM_cons, List.mapM_nil, hstrip]
  cases parseClause value <;> rfl

/-! ## Matching the patterns -/

theorem run_text {β : Type} (word : String) (before after : Text)
    (groups : List (Nat × List Char)) (k : State → Option β) :
    (text word).run ⟨before, after, groups⟩ k =
      if startsWith (fun c d => c = d) word.toList after then
        k ⟨(after.take word.toList.length).reverse ++ before, after.drop word.toList.length, groups⟩
      else none :=
  run_lit _ _ before after groups k

theorem run_startOfText {β : Type} (after : Text) (k : State → Option β) :
    startOfText.run ⟨[], after, []⟩ k = k ⟨[], after, []⟩ := rfl

theorem run_opt {β : Type} (r : Re) (s : State) (k : State → Option β) :
    (Re.opt true r).run s k = (r.run s k).or (k s) := rfl

theorem run_group {β : Type} (n : Nat) (r : Re) (s : State) (k : State → Option β) :
    (Re.group n r).run s k = r.run s fun t =>
      k { t with groups := (n, s.after.take (s.after.length - t.after.length)) :: t.groups } := rfl

theorem run_alt {β : Type} (r r' : Re) (s : State) (k : State → Option β) :
    (Re.alt r r').run s k = (r.run s k).or (r'.run s k) := rfl

/-- No blank is skipped in front of what is no blank. -/
theorem run_spaces {β : Type} (before after : Text) (groups : List (Nat × List Char))
    (k : State → Option β) (h : ∀ c, after.head? = some c → isSpace c = false) :
    (Re.star true space).run ⟨before, after, groups⟩ k = k ⟨before, after, groups⟩ := by
  unfold space
  rw [run_star_greedy]
  cases after with
  | nil => rfl
  | cons c rest =>
    rw [takeGreedy, h c rfl]
    rfl

/-- A run of digits is taken whole. -/
theorem run_digitRun {β : Type} (ds before after : Text) (groups : List (Nat × List Char))
    (k : State → Option β) (x : β) (hne : ds ≠ []) (hds : ∀ c ∈ ds, isDigit09 c = true)
    (hafter : ∀ c, after.head? = some c → isDigit09 c = false)
    (hk : k ⟨ds.reverse ++ before, after, groups⟩ = some x) :
    digitRun.run ⟨before, ds ++ after, groups⟩ k = some x := by
  obtain ⟨d, ds, rfl⟩ := List.exists_cons_of_ne_nil hne
  unfold digitRun Re.plus
  rw [run_seq, List.cons_append, run_cls_cons, if_pos (hds d List.mem_cons_self), run_star_greedy]
  exact takeGreedy_some _ _ x after hafter ds _ (fun c hc => hds c (List.mem_cons_of_mem d hc))
    (by simpa using hk)

/-- Where no component follows, the pattern of a further one fails. -/
theorem run_component_none {β : Type} (before after : Text) (groups : List (Nat × List Char))
    (k : State → Option β) (h : ∀ c rest, after = '.' :: c :: rest → isDigit09 c = false) :
    (Re.seq (text ".") digitRun).run ⟨before, after, groups⟩ k = none := by
  rw [run_seq, run_text]
  cases after with
  | nil => rfl
  | cons d rest =>
    by_cases hd : d = '.'
    · subst hd
      cases rest with
      | nil => rfl
      | cons c rest =>
        show digitRun.run ⟨['.'] ++ before, c :: rest, groups⟩ k = none
        unfold digitRun Re.plus
        rw [run_seq, run_cls_cons, if_neg (by rw [h c rest rfl]; simp)]
    · have hne : startsWith (fun c d => decide (c = d)) ".".toList (d :: rest) = false := by
        show (decide ('.' = d) && true) = false
        simp [Ne.symm hd]
      rw [hne]
      rfl

theorem loop_components {β : Type} (k : State → Option β) (x : β) (parts : List Text)
    (after : Text) (groups : List (Nat × List Char))
    (hparts : ∀ ds ∈ parts, ds ≠ [] ∧ ∀ c ∈ ds, isDigit09 c = true)
    (hafter : ∀ c, after.head? = some c → isDigit09 c = false)
    (hend : ∀ c rest, after = '.' :: c :: rest → isDigit09 c = false) (n : Nat) :
    ∀ before, parts.length ≤ n →
      k ⟨(parts.flatMap ('.' :: ·)).reverse ++ before, after, groups⟩ = some x →
      loop true (Re.seq (text ".") digitRun).run n
        ⟨before, parts.flatMap ('.' :: ·) ++ after, groups⟩ k = some x := by
  induction parts generalizing n with
  | nil =>
    intro before _ hk
    cases n with
    | zero => exact hk
    | succ n =>
      rw [loop]
      show (Option.or _ _) = _
      rw [List.flatMap_nil, List.nil_append, run_component_none before after groups _ hend]
      exact hk
  | cons ds parts ih =>
    intro before hn hk
    cases n with
    | zero => exact absurd hn (by simp)
    | succ n =>
      obtain ⟨hne, hdigits⟩ := hparts ds List.mem_cons_self
      have hrest := ih (fun d hd => hparts d (List.mem_cons_of_mem ds hd)) n
        (ds.reverse ++ ('.' :: before)) (Nat.le_of_succ_le_succ hn) (by simpa using hk)
      have hhead : ∀ c, (parts.flatMap ('.' :: ·) ++ after).head? = some c →
          isDigit09 c = false := by
        cases parts with
        | nil => exact hafter
        | cons d parts =>
          intro c hc
          cases hc
          decide
      rw [loop]
      show (Option.or _ _) = _
      have hround : (Re.seq (text ".") digitRun).run
          ⟨before, (ds :: parts).flatMap ('.' :: ·) ++ after, groups⟩ (fun t =>
            if t.after.length < ((ds :: parts).flatMap ('.' :: ·) ++ after).length then
              loop true (Re.seq (text ".") digitRun).run n t k else none) = some x := by
        rw [List.flatMap_cons, List.cons_append, List.cons_append, List.append_assoc, run_seq,
          run_text]
        refine (if_pos rfl).trans ?_
        show digitRun.run ⟨'.' :: before, ds ++ (parts.flatMap ('.' :: ·) ++ after), groups⟩ _ = _
        refine run_digitRun ds _ _ groups _ x hne hdigits hhead ?_
        rw [if_pos (by simp only [List.length_cons, List.length_append]; omega)]
        exact hrest
      rw [hround]
      rfl

theorem length_le_dotted (parts : List Text) :
    parts.length ≤ (parts.flatMap ('.' :: ·)).length := by
  induction parts with
  | nil => exact Nat.le_refl 0
  | cons d parts ih =>
    rw [List.flatMap_cons, List.length_append, List.length_cons, List.length_cons]
    omega

/-- The pattern of a release takes all its components. -/
theorem run_dotted {β : Type} (k : State → Option β) (x : β) (ds : Text) (parts : List Text)
    (before after : Text) (groups : List (Nat × List Char))
    (hds : ds ≠ [] ∧ ∀ c ∈ ds, isDigit09 c = true)
    (hparts : ∀ ds ∈ parts, ds ≠ [] ∧ ∀ c ∈ ds, isDigit09 c = true)
    (hafter : ∀ c, after.head? = some c → isDigit09 c = false)
    (hend : ∀ c rest, after = '.' :: c :: rest → isDigit09 c = false)
    (hk : k ⟨(ds ++ parts.flatMap ('.' :: ·)).reverse ++ before, after, groups⟩ = some x) :
    dotted.run ⟨before, ds ++ parts.flatMap ('.' :: ·) ++ after, groups⟩ k = some x := by
  have hhead : ∀ c, (parts.flatMap ('.' :: ·) ++ after).head? = some c → isDigit09 c = false := by
    cases parts with
    | nil => exact hafter
    | cons d parts =>
      intro c hc
      cases hc
      decide
  have hcount : parts.length ≤ (parts.flatMap ('.' :: ·) ++ after).length := by
    have hparts := length_le_dotted parts
    rw [List.length_append]
    omega
  unfold dotted
  rw [List.append_assoc, run_seq]
  refine run_digitRun ds before _ groups _ x hds.1 hds.2 hhead ?_
  show loop true (Re.seq (text ".") digitRun).run _ ⟨ds.reverse ++ before, _, groups⟩ k = some x
  exact loop_components k x parts after groups hparts hafter hend _ _ hcount (by simpa using hk)

/-- `==` and a release before `.*` is a wildcard. -/
theorem fullmatch_wildcard (ds : Text) (parts : List Text)
    (hds : ds ≠ [] ∧ ∀ c ∈ ds, isDigit09 c = true)
    (hparts : ∀ ds ∈ parts, ds ≠ [] ∧ ∀ c ∈ ds, isDigit09 c = true) :
    ∃ matched, fullmatch wildcardPattern
        ('=' :: '=' :: (ds ++ parts.flatMap ('.' :: ·) ++ ['.', '*'])) = some matched ∧
      matched.groupText 1 = ['=', '='] ∧ matched.groupText 2 = ds ++ parts.flatMap ('.' :: ·) := by
  generalize hbody : ds ++ parts.flatMap ('.' :: ·) = body
  have hhead : ∀ c, (body ++ ['.', '*']).head? = some c → isSpace c = false := by
    obtain ⟨d, rest, rfl⟩ := List.exists_cons_of_ne_nil hds.1
    intro c hc
    rw [← hbody] at hc
    cases hc
    exact not_isSpace_of_isDigit d (isDigit_of_isDigit09 d (hds.2 d List.mem_cons_self))
  have hfirst : ('=' :: '=' :: (body ++ ['.', '*'])).take
      (('=' :: '=' :: (body ++ ['.', '*'])).length - (body ++ ['.', '*']).length) = ['=', '='] := by
    have hlen : ('=' :: '=' :: (body ++ ['.', '*'])).length - (body ++ ['.', '*']).length = 2 := by
      simp only [List.length_cons]
      omega
    rw [hlen]
    rfl
  have hsecond : (body ++ ['.', '*']).take ((body ++ ['.', '*']).length - ['.', '*'].length) =
      body := by
    rw [List.length_append, Nat.add_sub_cancel, List.take_left]
  refine ⟨⟨['*', '.'] ++ (body.reverse ++ ['=', '=']), [],
    [(2, body), (1, ['=', '='])]⟩, ?_, rfl, rfl⟩
  have hdotted : dotted.run ⟨['=', '='], body ++ ['.', '*'], [(1, ['=', '='])]⟩ (fun t =>
      (Re.cat [text ".*", dollar]).run
        { t with groups := (2, (body ++ ['.', '*']).take
          ((body ++ ['.', '*']).length - t.after.length)) :: t.groups }
        fun s => if s.after = [] then some s else none) =
      some ⟨['*', '.'] ++ (body.reverse ++ ['=', '=']), [], [(2, body), (1, ['=', '='])]⟩ := by
    rw [← hbody]
    refine run_dotted _ _ ds parts _ _ _ hds hparts (by simp; decide) ?_ ?_
    · intro c rest hc
      cases hc
      decide
    · rw [hbody]
      simp only [hsecond]
      rfl
  unfold fullmatch wildcardPattern
  rw [run_cat_cons, run_startOfText, run_cat_cons, run_opt, run_group]
  show (Option.or ((Re.alt (text "==") (text "!=")).run _ _) _) = _
  rw [run_alt, run_text]
  have hprefix : startsWith (fun c d => decide (c = d)) "==".toList
      ('=' :: '=' :: (body ++ ['.', '*'])) = true := rfl
  rw [if_pos hprefix]
  simp only [Option.or_eq_some_iff]
  refine .inl (.inl ?_)
  rw [run_cat_cons]
  refine (run_spaces ['=', '='] (body ++ ['.', '*']) _ _ hhead).trans ?_
  rw [run_cat_cons, run_group]
  have hgroup : (1, ('=' :: '=' :: (body ++ ['.', '*'])).take
      (('=' :: '=' :: (body ++ ['.', '*'])).length - (body ++ ['.', '*']).length)) =
      (1, ['=', '=']) := congrArg (Prod.mk 1) hfirst
  show dotted.run ⟨['=', '='], body ++ ['.', '*'], [(1, ('=' :: '=' :: (body ++ ['.', '*'])).take
      (('=' :: '=' :: (body ++ ['.', '*'])).length - (body ++ ['.', '*']).length))]⟩ _ = _
  rw [hgroup]
  exact hdotted

/-- What starts with neither `==` nor a digit is no wildcard. -/
theorem fullmatch_wildcard_none (c : Char) (rest : Text) (heq : c ≠ '=') (hne : c ≠ '!')
    (hspace : isSpace c = false) (hdigit : isDigit09 c = false) :
    fullmatch wildcardPattern (c :: rest) = none := by
  have hword : ∀ d : Char, c ≠ d →
      startsWith (fun c d => decide (c = d)) [d, '='] (c :: rest) = false := by
    intro d hd
    show (decide (d = c) && _) = false
    simp [Ne.symm hd]
  have hbody : ∀ (k : State → Option State) (groups : List (Nat × List Char)),
      (Re.group 2 dotted).run ⟨[], c :: rest, groups⟩ k = none := by
    intro k groups
    rw [run_group]
    unfold dotted digitRun Re.plus
    rw [run_seq, run_seq, run_cls_cons, hdigit]
    rfl
  have hrest : ∀ k : State → Option State, (Re.cat [.star true space, .group 2 dotted, text ".*",
      dollar]).run ⟨[], c :: rest, []⟩ k = none := by
    intro k
    rw [run_cat_cons, run_spaces _ _ _ _ (by rintro d ⟨⟩; exact hspace), run_cat_cons]
    exact hbody _ _
  unfold fullmatch wildcardPattern
  rw [run_cat_cons, run_startOfText, run_cat_cons, run_opt, run_group]
  show (Option.or ((Re.alt (text "==") (text "!=")).run _ _) _) = _
  rw [run_alt, run_text, run_text]
  show (Option.or (Option.or (if startsWith _ ['=', '='] _ then _ else _)
    (if startsWith _ ['!', '='] _ then _ else _)) _) = _
  rw [hword '=' heq, hword '!' hne, hrest]
  rfl

/-- The operators of ranges are read whole. -/
theorem run_operator {β : Type} (op x : Text) (hop : op = ['~', '='] ∨ op = ['^'] ∨ op = ['~'])
    (hx : x.head? ≠ some '=') (k : State → Option β) (r : β)
    (hk : k ⟨op.reverse, x, []⟩ = some r) :
    (Re.any [text "~=", text "==", text "!=", text "<=", text ">=", text "<", text ">", text "^",
      text "~"]).run ⟨[], op ++ x, []⟩ k = some r := by
  have htake : ((text "~=").run ⟨[], '~' :: x, []⟩ k) = none := by
    rw [run_text]
    cases x with
    | nil => rfl
    | cons c rest =>
      have hc : '=' ≠ c := fun h => hx (by rw [← h]; rfl)
      show (if (decide ('~' = '~') && (decide ('=' = c) && true)) = true then _ else none) = none
      simp [hc]
  rcases hop with rfl | rfl | rfl
  · show (Option.or ((text "~=").run ⟨[], '~' :: '=' :: x, []⟩ k) _) = _
    rw [run_text]
    exact (congrArg (Option.or · _) hk).trans rfl
  · show (Option.or (k ⟨['^'].reverse, x, []⟩) _) = _
    rw [hk]
    rfl
  · show (Option.or ((text "~=").run ⟨[], '~' :: x, []⟩ k) (k ⟨['~'].reverse, x, []⟩)) = _
    rw [htake, hk]
    rfl

theorem fullmatch_clause (op x : Text) (hop : op = ['~', '='] ∨ op = ['^'] ∨ op = ['~'])
    (hx : x.head? ≠ some '=') (hne : x ≠ []) (hspace : ∀ c ∈ x, isSpace c = false) :
    ∃ matched, fullmatch clausePattern (op ++ x) = some matched ∧ matched.groupText 1 = op ∧
      matched.groupText 2 = x := by
  have hfirst : (op ++ x).take ((op ++ x).length - x.length) = op := by
    rw [List.length_append, Nat.add_sub_cancel, List.take_left]
  refine ⟨⟨x.reverse ++ op.reverse, [], [(2, x), (1, op)]⟩, ?_, rfl, rfl⟩
  have hbody : (Re.cat [.star true space, .group 2 (.plus true (.cls fun c => !isSpace c)),
      dollar]).run ⟨op.reverse, x, [(1, op)]⟩ (fun s => if s.after = [] then some s else none) =
      some ⟨x.reverse ++ op.reverse, [], [(2, x), (1, op)]⟩ := by
    obtain ⟨c, rest, rfl⟩ := List.exists_cons_of_ne_nil hne
    have hc := hspace c List.mem_cons_self
    rw [run_cat_cons, run_spaces _ _ _ _ (by rintro d ⟨⟩; exact hc), run_cat_cons, run_group]
    unfold Re.plus
    rw [run_seq, run_cls_cons, if_pos (by rw [hc]; rfl), run_star_greedy]
    have htaken := takeGreedy_some (fun c => !isSpace c) (fun b a => (Re.cat [dollar]).run
      ⟨b, a, (2, (c :: rest).take ((c :: rest).length - a.length)) :: [(1, op)]⟩
        fun s => if s.after = [] then some s else none)
      ⟨(c :: rest).reverse ++ op.reverse, [], [(2, c :: rest), (1, op)]⟩ [] (by rintro d ⟨⟩) rest
      (c :: op.reverse) (fun d hd => by
        rw [hspace d (List.mem_cons_of_mem c hd)]
        rfl) (by
        show some (State.mk _ _ _) = _
        simp)
    rw [List.append_nil] at htaken
    exact htaken
  unfold fullmatch clausePattern
  rw [run_cat_cons, run_startOfText, run_cat_cons, run_opt, run_group]
  rw [run_operator op x hop hx _ ⟨x.reverse ++ op.reverse, [], [(2, x), (1, op)]⟩]
  · rfl
  · rw [← hbody]
    simp only [hfirst]

/-! ## What an accepted release looks like -/

theorem length_intercalate_le (c : Char) (m : Nat) (pieces : List Text)
    (h : ∀ piece ∈ pieces, piece.length ≤ m) :
    ([c].intercalate pieces).length ≤ pieces.length * (m + 1) := by
  induction pieces with
  | nil => simp
  | cons p ps ih =>
    have hp := h p List.mem_cons_self
    have hrest := ih fun q hq => h q (List.mem_cons_of_mem p hq)
    rw [List.length_cons, Nat.succ_mul]
    cases ps with
    | nil =>
      rw [List.intercalate_singleton]
      omega
    | cons q qs =>
      rw [List.intercalate_cons_cons, List.length_append, List.length_append,
        List.length_singleton]
      omega

/-- The characters of the release in a version. -/
def releaseChar (c : Char) : Prop := isDigit09 c = true ∨ c = '.'

theorem dotted_reads : dotted.Reads releaseChar := by
  have hdigits : digitRun.Reads releaseChar := ⟨fun _ => .inl, fun _ => .inl⟩
  refine ⟨hdigits, ?_, hdigits⟩
  intro c hc
  exact .inr (of_decide_eq_true hc).symm

/-- What is read of a release is all of it, up to a `v`. -/
theorem fullmatch_release (x : Text) (matched : State)
    (h : fullmatch releasePattern x = some matched) :
    (x = matched.groupText 1 ∨ x = 'v' :: matched.groupText 1) ∧
      ∀ c ∈ matched.groupText 1, releaseChar c := by
  have hbody : ∀ before after : Text, (Re.cat [.group 1 dotted, dollar]).run ⟨before, after, []⟩
      (fun s => if s.after = [] then some s else none) = some matched →
      matched.groupText 1 = after ∧ ∀ c ∈ after, releaseChar c := by
    intro before after hrun
    rw [run_cat_cons, run_group] at hrun
    obtain ⟨t, ⟨hgroups, w, hw, hread⟩, ht⟩ := run_reads dotted dotted_reads _ _ _ hrun
    rw [show (Re.cat [dollar]) = dollar from rfl] at ht
    unfold dollar at ht
    rw [run_assert] at ht
    split at ht
    · split at ht
      · next hnil =>
        obtain rfl := Option.some.inj ht
        change t.after = [] at hnil
        change after = w ++ t.after at hw
        rw [hnil, List.append_nil] at hw
        refine ⟨?_, by rw [hw]; exact hread⟩
        show after.take (after.length - t.after.length) = after
        rw [hnil]
        exact List.take_length
      · cases ht
    · cases ht
  unfold fullmatch releasePattern at h
  rw [run_cat_cons, run_startOfText, run_cat_cons, run_opt, Option.or_eq_some_iff, run_text] at h
  rcases h with hv | ⟨-, hv⟩
  · split at hv
    · next hstart =>
      cases x with
      | nil => cases hstart
      | cons c rest =>
        have hc : 'v' = c := by
          change (decide ('v' = c) && true) = true at hstart
          simpa using hstart
        obtain ⟨hgroup, hread⟩ := hbody _ _ hv
        change matched.groupText 1 = rest at hgroup
        subst hc
        exact ⟨.inr (by rw [hgroup]), by rw [hgroup]; exact hread⟩
    · cases hv
  · obtain ⟨hgroup, hread⟩ := hbody _ _ hv
    exact ⟨.inl hgroup.symm, by rw [hgroup]; exact hread⟩

/-- An accepted release is short and has no other characters. -/
theorem parseStableVersion_reads (x : Text) (v : StablePep440Version)
    (h : parseStableVersion x = some v) :
    x ≠ [] ∧ x.length ≤ 153 ∧ ∀ c ∈ x, plainChar c = true ∧ c ≠ '=' := by
  unfold parseStableVersion at h
  split at h
  · cases h
  next hne =>
  split at h
  · cases h
  next matched hmatched =>
  simp only at h
  split at h
  · cases h
  next hlen =>
  split at h
  · cases h
  next hdigits =>
  simp only [List.any_eq_true, decide_eq_true_eq, not_exists, not_and, not_lt] at hdigits
  obtain ⟨hx, hread⟩ := fullmatch_release x matched hmatched
  have hjoin := length_intercalate_le '.' pep440MaxComponentDigits _ hdigits
  rw [splitOn1_join] at hjoin
  have hcount := (not_not.mp hlen).2
  have hshort : (matched.groupText 1).length ≤ 152 := by
    calc (matched.groupText 1).length
        ≤ (splitOn1 '.' (matched.groupText 1)).length * (pep440MaxComponentDigits + 1) := hjoin
      _ ≤ pep440MaxReleaseComponents * (pep440MaxComponentDigits + 1) :=
          Nat.mul_le_mul_right _ hcount
      _ = 152 := rfl
  have hchars : ∀ c ∈ matched.groupText 1, plainChar c = true ∧ c ≠ '=' := by
    intro c hc
    rcases hread c hc with hd | rfl
    · refine ⟨by unfold plainChar; rw [hd]; rfl, ?_⟩
      rintro rfl
      exact absurd hd (by decide)
    · decide
  refine ⟨fun hnil => hne (.inl hnil), ?_, ?_⟩
  · rcases hx with hx | hx
    · rw [hx]
      omega
    · rw [hx, List.length_cons]
      omega
  · rcases hx with hx | hx
    · rw [hx]
      exact hchars
    · rw [hx]
      intro c hc
      rcases List.mem_cons.mp hc with rfl | hc
      · decide
      · exact hchars c hc

/-! ## The text of a release -/

theorem releaseText_cons (d : Nat) (rest : List Nat) :
    releaseText (d :: rest) =
      Nat.toDigits 10 d ++ (rest.map (Nat.toDigits 10)).flatMap ('.' :: ·) := by
  induction rest generalizing d with
  | nil => simp [releaseText]
  | cons e rest ih =>
    have hrest := ih e
    unfold releaseText at hrest ⊢
    simp only [List.map_cons, List.intersperse_cons_cons, List.flatten_cons, List.flatMap_cons]
      at hrest ⊢
    rw [hrest]
    rfl

theorem splitOn1_releaseText (d : Nat) (rest : List Nat) :
    splitOn1 '.' (releaseText (d :: rest)) = (d :: rest).map (Nat.toDigits 10) := by
  induction rest generalizing d with
  | nil =>
    rw [releaseText_cons, List.map_nil, List.flatMap_nil, List.append_nil,
      splitOn1_of_notMem _ _ (dot_notMem_toDigits d)]
    rfl
  | cons e rest ih =>
    have htext : releaseText (d :: e :: rest) =
        Nat.toDigits 10 d ++ '.' :: releaseText (e :: rest) := by
      rw [releaseText_cons, releaseText_cons]
      rfl
    rw [htext, splitOn1_cons_of_notMem _ _ _ (dot_notMem_toDigits d), ih e]
    rfl

theorem isDigit09_of_mem_toDigits (d : Nat) (c : Char) (h : c ∈ Nat.toDigits 10 d) :
    isDigit09 c = true := by
  have hdigit := Nat.isDigit_of_mem_toDigits (by omega) (by omega) h
  rw [Char.isDigit_iff_toNat] at hdigit
  unfold isDigit09
  simp only [Bool.and_eq_true, decide_eq_true_eq]
  exact ⟨Char.le_def.mpr hdigit.1, Char.le_def.mpr hdigit.2⟩

theorem parseReleaseComponents_releaseText (release : List Nat) (h : Admissible release) :
    parseReleaseComponents (releaseText release) = .ok release := by
  obtain ⟨hpos, hlen, hinRange⟩ := h
  cases release with
  | nil => exact absurd hpos (by decide)
  | cons d rest =>
    have hvalues : ((d :: rest).map (Nat.toDigits 10)).map intOfDecimal = d :: rest := by
      rw [List.map_map]
      refine (List.map_congr_left fun e _ => ?_).trans (List.map_id _)
      show intOfDecimal (Nat.toDigits 10 e) = e
      rw [intOfDecimal_digits _ fun c hc => Nat.isDigit_of_mem_toDigits (by omega) (by omega) hc]
      exact Nat.ofDigitChars_ten_toDigits
    have hparts : ((d :: rest).map (Nat.toDigits 10)).any (fun component =>
        component = [] || !component.all isDigit09 ||
          component.length > pep440MaxComponentDigits) = false := by
      rw [List.any_eq_false]
      intro component hcomponent
      obtain ⟨e, he, rfl⟩ := List.mem_map.mp hcomponent
      have hshort : (Nat.toDigits 10 e).length ≤ pep440MaxComponentDigits :=
        (Nat.length_toDigits_le_iff (by omega) (by decide)).mpr (hinRange e he)
      have hne : Nat.toDigits 10 e ≠ [] := Nat.toDigits_ne_nil
      have hall : (Nat.toDigits 10 e).all isDigit09 = true :=
        List.all_eq_true.mpr (isDigit09_of_mem_toDigits e)
      simp [hne, hall, hshort]
    unfold parseReleaseComponents
    simp only [splitOn1_releaseText, hparts, hvalues]
    rw [if_neg (by rw [List.length_map]; exact not_not.mpr ⟨hpos, hlen⟩)]
    rfl

/-! ## The constraints -/

/-- Fewer than three `=` are no `===`. -/
theorem isIn_arbitraryEquality (value : Text) (h : value.count '=' < 3) :
    isIn ['=', '=', '='] value = false := by
  unfold isIn
  cases hat : partitionAt ['=', '=', '='] value with
  | none => rfl
  | some r =>
    have hjoin := partitionAt_join _ value r.1 r.2 hat
    rw [hjoin, List.count_append, List.count_append] at h
    have h3 : ['=', '=', '='].count '=' = 3 := by decide
    omega

theorem parseClause_operator (op x : Text) (X : StablePep440Version)
    (hop : op = ['~', '='] ∨ op = ['^'] ∨ op = ['~']) (h : parseStableVersion x = some X) :
    parseClause (op ++ x) = versionClause op X := by
  obtain ⟨hne, _, hchars⟩ := parseStableVersion_reads x X h
  have hhead : x.head? ≠ some '=' := by
    intro heq
    exact (hchars '=' (List.mem_of_mem_head? heq)).2 rfl
  have hspace : ∀ c ∈ x, isSpace c = false := fun c hc => (plainChar_spec c (hchars c hc).1).1
  obtain ⟨matched, hmatched, h1, h2⟩ := fullmatch_clause op x hop hhead hne hspace
  have hwild : fullmatch wildcardPattern (op ++ x) = none := by
    rcases hop with rfl | rfl | rfl <;>
      exact fullmatch_wildcard_none _ _ (by decide) (by decide) (by decide) (by decide)
  have hany : op ++ x ≠ ['*'] := by
    rcases hop with rfl | rfl | rfl <;> exact fun hc => absurd (List.cons.inj hc).1 (by decide)
  have hopne : op ≠ [] := by
    rcases hop with rfl | rfl | rfl <;> decide
  have hrequire : requireStableVersion x = .ok X := by
    unfold requireStableVersion
    rw [h]
  unfold parseClause
  rw [if_neg hany, hwild]
  simp only [hmatched, h1, h2, if_neg hopne, hrequire]
  rfl

/-- An operator and an accepted release are one clause. -/
theorem parsePoetryConstraint_operator (op x : Text) (X : StablePep440Version)
    (hop : op = ['~', '='] ∨ op = ['^'] ∨ op = ['~']) (h : parseStableVersion x = some X) :
    parsePoetryConstraint (op ++ x) =
      (versionClause op X).map fun clause => ⟨op ++ x, [clause]⟩ := by
  obtain ⟨hne, hlen, hchars⟩ := parseStableVersion_reads x X h
  have hopchars : (∀ c ∈ op, plainChar c = true) ∧ op.length ≤ 2 ∧ op.count '=' ≤ 1 := by
    rcases hop with rfl | rfl | rfl <;>
      exact ⟨List.all_eq_true.mp (by decide), by decide, by decide⟩
  rw [← parseClause_operator op x X hop h]
  refine parsePoetryConstraint_plain (op ++ x) (by simp [hne]) ?_ ?_ ?_
  · intro c hc
    rcases List.mem_append.mp hc with hc | hc
    · exact hopchars.1 c hc
    · exact (hchars c hc).1
  · have hmax : pep440ConstraintMaxBytes = 512 := rfl
    rw [List.length_append]
    omega
  · refine isIn_arbitraryEquality _ ?_
    have hx : x.count '=' = 0 := List.count_eq_zero.mpr fun hc => (hchars '=' hc).2 rfl
    rw [List.count_append]
    omega

/-- `==P.*`. -/
def prefixConstraint (release : List Nat) : Text := ['=', '='] ++ releaseText release ++ ['.', '*']

theorem parseClause_prefix (release : List Nat) (h : Admissible release) :
    parseClause (prefixConstraint release) = .ok (.prefixOf release) := by
  have hparse := parseReleaseComponents_releaseText release h
  obtain ⟨hpos, _, _⟩ := h
  cases release with
  | nil => exact absurd hpos (by decide)
  | cons d rest =>
    have hdigits : ∀ e, Nat.toDigits 10 e ≠ [] ∧ ∀ c ∈ Nat.toDigits 10 e, isDigit09 c = true :=
      fun e => ⟨Nat.toDigits_ne_nil, isDigit09_of_mem_toDigits e⟩
    obtain ⟨matched, hmatched, h1, h2⟩ := fullmatch_wildcard (Nat.toDigits 10 d)
      (rest.map (Nat.toDigits 10)) (hdigits d) (by
        intro ds hds
        obtain ⟨e, _, rfl⟩ := List.mem_map.mp hds
        exact hdigits e)
    rw [← releaseText_cons] at hmatched h2
    have hmatch : fullmatch wildcardPattern (prefixConstraint (d :: rest)) = some matched :=
      hmatched
    have hany : prefixConstraint (d :: rest) ≠ ['*'] := fun hc =>
      absurd (List.cons.inj hc).1 (by decide)
    unfold parseClause
    rw [if_neg hany, hmatch]
    simp only [h1, h2, hparse]
    rfl

/-- The text `==P.*` is the clause of the prefix `P`. -/
theorem parsePoetryConstraint_prefix (release : List Nat) (h : Admissible release) :
    parsePoetryConstraint (prefixConstraint release) =
      .ok ⟨prefixConstraint release, [.prefixOf release]⟩ := by
  have hclause := parseClause_prefix release h
  have hjoin := splitOn1_join '.' (releaseText release)
  have hlen : (releaseText release).length ≤ 152 := by
    have hcomponents := parseReleaseComponents_releaseText release h
    unfold parseReleaseComponents at hcomponents
    simp only at hcomponents
    split at hcomponents
    · cases hcomponents
    next hcount =>
    split at hcomponents
    · cases hcomponents
    next hparts =>
    simp only [List.any_eq_true, Bool.or_eq_true, decide_eq_true_eq, not_exists, not_and, not_or,
      not_lt] at hparts
    have hle := length_intercalate_le '.' pep440MaxComponentDigits _ fun piece hpiece =>
      (hparts piece hpiece).2
    rw [hjoin] at hle
    calc (releaseText release).length
        ≤ (splitOn1 '.' (releaseText release)).length * (pep440MaxComponentDigits + 1) := hle
      _ ≤ pep440MaxReleaseComponents * (pep440MaxComponentDigits + 1) :=
          Nat.mul_le_mul_right _ (not_not.mp hcount).2
      _ = 152 := rfl
  have hchars : ∀ c ∈ releaseText release, plainChar c = true ∧ c ≠ '=' := by
    have hdigit : ∀ (e : Nat) (c : Char), c ∈ Nat.toDigits 10 e → plainChar c = true ∧ c ≠ '=' := by
      intro e c hc
      have hd := isDigit09_of_mem_toDigits e c hc
      refine ⟨by unfold plainChar; rw [hd]; rfl, ?_⟩
      rintro rfl
      exact absurd hd (by decide)
    cases release with
    | nil => exact fun c hc => absurd hc (by simp [releaseText])
    | cons d rest =>
      intro c hc
      rw [releaseText_cons] at hc
      rcases List.mem_append.mp hc with hc | hc
      · exact hdigit d c hc
      · obtain ⟨ds, hds, hc⟩ := List.mem_flatMap.mp hc
        obtain ⟨e, _, rfl⟩ := List.mem_map.mp hds
        rcases List.mem_cons.mp hc with rfl | hc
        · decide
        · exact hdigit e c hc
  have hmap : (.ok ⟨prefixConstraint release, [.prefixOf release]⟩ : Except Text PoetryConstraint) =
      (parseClause (prefixConstraint release)).map fun clause =>
        ⟨prefixConstraint release, [clause]⟩ := by
    rw [hclause]
    rfl
  rw [hmap]
  refine parsePoetryConstraint_plain _ (List.cons_ne_nil _ _) ?_ ?_ ?_
  · intro c hc
    rcases List.mem_append.mp hc with hc | hc
    · rcases List.mem_append.mp hc with hc | hc
      · exact List.all_eq_true.mp (by decide : ['=', '='].all plainChar = true) c hc
      · exact (hchars c hc).1
    · exact List.all_eq_true.mp (by decide : ['.', '*'].all plainChar = true) c hc
  · have hmax : pep440ConstraintMaxBytes = 512 := rfl
    unfold prefixConstraint
    simp only [List.length_append, List.length_cons, List.length_nil]
    omega
  · refine isIn_arbitraryEquality _ ?_
    have hx : (releaseText release).count '=' = 0 :=
      List.count_eq_zero.mpr fun hc => (hchars '=' hc).2 rfl
    have h2 : ['=', '='].count '=' = 2 := by decide
    have h0 : ['.', '*'].count '=' = 0 := by decide
    unfold prefixConstraint
    rw [List.count_append, List.count_append]
    omega

/-- `poetry_constraint_matches`. -/
def poetryConstraintMatches (constraint version : Text) : Option Bool × Option Text :=
  match (do
      let parsed ← parsePoetryConstraint constraint
      let actual ← requireStableVersion version
      pure (parsed.matches actual)) with
  | .error message => (none, some message)
  | .ok matched => (some matched, none)

theorem requireStableVersion_some (y : Text) (v : StablePep440Version)
    (hy : parseStableVersion y = some v) : requireStableVersion y = .ok v := by
  unfold requireStableVersion
  rw [hy]

theorem poetryConstraintMatches_single (value y : Text) (clause : ConstraintClause)
    (v : StablePep440Version) (hvalue : parsePoetryConstraint value = .ok ⟨value, [clause]⟩)
    (hy : parseStableVersion y = some v) :
    poetryConstraintMatches value y = (some (clauseMatches clause v), none) := by
  have hmatches : PoetryConstraint.matches ⟨value, [clause]⟩ v = clauseMatches clause v :=
    Bool.and_true _
  unfold poetryConstraintMatches
  rw [hvalue, requireStableVersion_some y v hy]
  show (some (PoetryConstraint.matches ⟨value, [clause]⟩ v), none) = _
  rw [hmatches]

/-- The constraint is answered, and the answer is right. -/
def Answers (value y : Text) (right : Prop) : Prop :=
  ∃ matched, poetryConstraintMatches value y = (some matched, none) ∧ (matched = true ↔ right)

/-- The constraint is refused with an error. -/
def Refused (value y : Text) : Prop :=
  ∃ message, poetryConstraintMatches value y = (none, some message)

theorem answers_range (op x y : Text) (X v : StablePep440Version) (i : Nat)
    (hop : op = ['~', '='] ∨ op = ['^'] ∨ op = ['~']) (hx : parseStableVersion x = some X)
    (hy : parseStableVersion y = some v) (hi : i < X.release.length)
    (hclause : versionClause op X = .ok (rangeClause X (bump i X.release))) :
    Answers (op ++ x) y (compareRelease v.release X.release ≥ 0 ∧
      compareRelease v.release (incrementAt i X.release) < 0) := by
  have hparse := parsePoetryConstraint_operator op x X hop hx
  rw [hclause] at hparse
  exact ⟨_, poetryConstraintMatches_single _ y _ v hparse hy, range_matches_iff X v i hi⟩

theorem refused_operator (op x y : Text) (X : StablePep440Version)
    (hop : op = ['~', '='] ∨ op = ['^'] ∨ op = ['~']) (hx : parseStableVersion x = some X)
    (hclause : ∃ message, versionClause op X = .error message) : Refused (op ++ x) y := by
  obtain ⟨message, hclause⟩ := hclause
  have hparse := parsePoetryConstraint_operator op x X hop hx
  rw [hclause] at hparse
  refine ⟨message, ?_⟩
  unfold poetryConstraintMatches
  rw [hparse]
  rfl

/-- The answer for `~=X` is that for `>=X` and `==P.*`. -/
theorem answers_compatible (x y : Text) (X v : StablePep440Version)
    (hx : parseStableVersion x = some X) (hy : parseStableVersion y = some v)
    (h2 : 2 ≤ X.release.length) :
    ∃ inPrefix, poetryConstraintMatches (prefixConstraint X.release.dropLast) y =
        (some inPrefix, none) ∧
      Answers (['~', '='] ++ x) y
        (compareRelease v.release X.release ≥ 0 ∧ inPrefix = true) := by
  have hX := admissible_parseStableVersion x X hx
  have hv := admissible_parseStableVersion y v hy
  have hprefix := parsePoetryConstraint_prefix _ (admissible_dropLast _ hX h2)
  have hclause : versionClause ['~', '='] X =
      .ok (rangeClause X (compatibleUpper X.release)) := by
    unfold versionClause
    rw [if_neg (by decide), if_neg (by decide), if_pos rfl, if_neg (Nat.not_lt.mpr h2)]
  have hparse := parsePoetryConstraint_operator ['~', '='] x X (.inl rfl) hx
  rw [hclause] at hparse
  exact ⟨_, poetryConstraintMatches_single _ y _ v hprefix hy, _,
    poetryConstraintMatches_single _ y _ v hparse hy, compatible_matches_iff X v hX hv h2⟩

/-- **The operators mean what they say**, for all accepted releases and all versions. -/
theorem poetry_operators (x y : Text) (X v : StablePep440Version)
    (hx : parseStableVersion x = some X) (hy : parseStableVersion y = some v) :
    ((2 ≤ X.release.length → ∃ inPrefix,
        poetryConstraintMatches (prefixConstraint X.release.dropLast) y = (some inPrefix, none) ∧
        Answers (['~', '='] ++ x) y
          (compareRelease v.release X.release ≥ 0 ∧ inPrefix = true)) ∧
      (X.release.length < 2 → Refused (['~', '='] ++ x) y)) ∧
    ((X.release.length ≤ 3 → ∃ i, Leading X.release i ∧
        Answers (['^'] ++ x) y (compareRelease v.release X.release ≥ 0 ∧
          compareRelease v.release (incrementAt i X.release) < 0)) ∧
      (3 < X.release.length → Refused (['^'] ++ x) y)) ∧
    ((X.release.length ≤ 3 → Answers (['~'] ++ x) y (compareRelease v.release X.release ≥ 0 ∧
        compareRelease v.release
          (incrementAt (if X.release.length = 1 then 0 else 1) X.release) < 0)) ∧
      (3 < X.release.length → Refused (['~'] ++ x) y)) ∧
    (∀ j k, compareRelease (v.release ++ List.replicate j 0) (X.release ++ List.replicate k 0) =
      compareRelease v.release X.release) ∧
    (compareRelease v.release X.release = 0 ↔
      semanticRelease v.release = semanticRelease X.release) ∧
    ∀ clause padding k, padding.release = v.release ++ List.replicate k 0 →
      clauseMatches clause padding = clauseMatches clause v := by
  have hone := (admissible_parseStableVersion x X hx).1
  have hX : X.release ≠ [] := List.length_pos_iff.mp hone
  have hv : v.release ≠ [] :=
    List.length_pos_iff.mp (admissible_parseStableVersion y v hy).1
  have htilde : (if X.release.length = 1 then 0 else 1) < X.release.length := by
    split <;> omega
  refine ⟨⟨answers_compatible x y X v hx hy, fun h => ?_⟩, ⟨fun h => ?_, fun h => ?_⟩,
    ⟨fun h => ?_, fun h => ?_⟩, compareRelease_zeros v.release X.release,
    compareRelease_eq_zero_iff _ _ hv hX,
    fun clause padding k => clauseMatches_zeros clause v padding k⟩
  · refine refused_operator _ x y X (.inl rfl) hx ?_
    unfold versionClause
    rw [if_neg (by decide), if_neg (by decide), if_pos rfl, if_pos h]
    exact ⟨_, rfl⟩
  · have hlead := leading_caret X.release hX
    refine ⟨_, hlead, answers_range ['^'] x y X v _ (.inr (.inl rfl)) hx hy hlead.1 ?_⟩
    unfold versionClause
    rw [if_pos rfl, if_neg (Nat.not_lt.mpr h)]
    rfl
  · refine refused_operator _ x y X (.inr (.inl rfl)) hx ?_
    unfold versionClause
    rw [if_pos rfl, if_pos h]
    exact ⟨_, rfl⟩
  · refine answers_range ['~'] x y X v _ (.inr (.inr rfl)) hx hy htilde ?_
    unfold versionClause
    rw [if_neg (by decide), if_pos rfl, if_neg (Nat.not_lt.mpr h)]
    rfl
  · refine refused_operator _ x y X (.inr (.inr rfl)) hx ?_
    unfold versionClause
    rw [if_neg (by decide), if_pos rfl, if_pos h]
    exact ⟨_, rfl⟩

theorem poetry_operators_sample :
    Answers (['~', '='] ++ ['1', '.', '2']) ['1', '.', '3'] True ∧
      Refused (['~', '='] ++ ['1']) ['1', '.', '3'] := by
  have hv : parseStableVersion ['1', '.', '3'] = some ⟨['1', '.', '3'], [1, 3]⟩ := by decide
  have hpair := poetry_operators ['1', '.', '2'] ['1', '.', '3'] ⟨['1', '.', '2'], [1, 2]⟩ _
    (by decide) hv
  have hone := poetry_operators ['1'] ['1', '.', '3'] ⟨['1'], [1]⟩ _ (by decide) hv
  refine ⟨?_, hone.1.2 (by decide)⟩
  obtain ⟨inPrefix, hprefix, matched, hmatched, hiff⟩ := hpair.1.1 (by decide)
  have hin : poetryConstraintMatches (prefixConstraint [1]) ['1', '.', '3'] =
      (some true, none) := by decide +kernel
  have htrue : inPrefix = true := by
    have h := hprefix.symm.trans hin
    exact Option.some.inj (Prod.ext_iff.mp h).1
  exact ⟨matched, hmatched, by rw [hiff, htrue]; decide⟩

end Agentrail.Pep440
