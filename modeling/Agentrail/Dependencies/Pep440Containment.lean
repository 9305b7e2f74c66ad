import Agentrail.Dependencies.Pep440Intervals

/-!
# Containment of Poetry constraints is exact

A clause, and so a constraint, matches a release where its intervals hold the
release's index (`covers_constraintIntervals`).  `subset_spec` compares the answer
of `poetry_constraint_is_subset` with `_clause_matches` on all releases.
-/

namespace Agentrail.Pep440

open Py Digits Cover Agentrail.Pep440.Interval

/-! ## Clauses -/

/-- What the parser promises of a clause. -/
def ClauseOk : ConstraintClause → Prop
  | .any => True
  | .prefixOf p => Admissible p
  | .excludePrefixOf p => Admissible p
  | .range lower upper => Admissible lower.release ∧ IsBound upper.release
  | .equal expected => Admissible expected.release
  | .notEqual expected => Admissible expected.release
  | .lt expected => Admissible expected.release
  | .le expected => Admissible expected.release
  | .gt expected => Admissible expected.release
  | .ge expected => Admissible expected.release

theorem isBound_bump (k : Nat) (r : List Nat) (h : Admissible r) : IsBound (bump k r) := by
  refine ⟨?_, bump_inRange k r base_pos h.2.2⟩
  rw [length_bump]
  exact h.2.1

theorem admissible_universeLower : Admissible universeLower := by
  refine ⟨by decide, by decide, ?_⟩
  intro d hd
  rw [List.mem_singleton.mp hd]
  exact base_pos

theorem index_universeLower : releaseLatticeIndex universeLower = 0 := by
  decide

/-- The intervals of a clause have sound bounds. -/
theorem sound_clauseIntervals (clause : ConstraintClause) (h : ClauseOk clause) :
    ∀ i ∈ clauseIntervals clause, i.Sound := by
  have hzero := lowerOk_of_admissible admissible_universeLower true
  have hone : ∀ (i j : Interval), j.Sound → i ∈ [j] → i.Sound := by
    intro i j hj hi
    rw [List.mem_singleton.mp hi]
    exact hj
  intro i hi
  cases clause with
  | any => exact hone i _ ⟨hzero, upperOk_none _⟩ hi
  | prefixOf p =>
    exact hone i _ ⟨lowerOk_of_admissible h _, upperOk_exclusive (isBound_bump _ p h)⟩ hi
  | excludePrefixOf p =>
    rcases List.mem_append.mp hi with hi | hi
    · exact (sound_validatedInterval _ _ _ _ hzero (upperOk_of_admissible h _) i hi).1
    · exact (sound_validatedInterval _ _ _ _ (lowerOk_inclusive (isBound_bump _ p h))
        (upperOk_none _) i hi).1
  | range lower upper =>
    exact hone i _ ⟨lowerOk_of_admissible h.1 _, upperOk_exclusive h.2⟩ hi
  | equal e => exact hone i _ ⟨lowerOk_of_admissible h _, upperOk_of_admissible h _⟩ hi
  | notEqual e =>
    rcases List.mem_append.mp hi with hi | hi
    · exact (sound_validatedInterval _ _ _ _ hzero (upperOk_of_admissible h _) i hi).1
    · exact (sound_validatedInterval _ _ _ _ (lowerOk_of_admissible h _) (upperOk_none _) i hi).1
  | lt e => exact (sound_validatedInterval _ _ _ _ hzero (upperOk_of_admissible h _) i hi).1
  | le e => exact (sound_validatedInterval _ _ _ _ hzero (upperOk_of_admissible h _) i hi).1
  | gt e => exact hone i _ ⟨lowerOk_of_admissible h _, upperOk_none _⟩ hi
  | ge e => exact hone i _ ⟨lowerOk_of_admissible h _, upperOk_none _⟩ hi

/-- A quotient read off the range that it spans. -/
theorem digit_range_iff (k v u p : Nat) (hv : v < k) :
    k * p ≤ v + k * u ∧ v + k * u < k * (p + 1) ↔ u = p := by
  constructor
  · rintro ⟨hle, hlt⟩
    have hp : k * p < k * (u + 1) := by
      rw [Nat.mul_succ]
      omega
    have hu : k * u < k * (p + 1) := by omega
    have h1 := Nat.lt_of_mul_lt_mul_left hp
    have h2 := Nat.lt_of_mul_lt_mul_left hu
    omega
  · rintro rfl
    rw [Nat.mul_succ]
    omega

/-- Releases with the components `p` first are those from `p` up to its increment. -/
theorem prefix_iff (a p : List Nat) (ha : Admissible a) (hp : Admissible p) :
    (padded p.length a).take p.length = p ↔
      releaseLatticeIndex p ≤ releaseLatticeIndex a ∧
        releaseLatticeIndex a < releaseLatticeIndex (incrementPrefix p) := by
  have hlen : p.length ≤ (padded p.length a).length := by
    unfold padded
    rw [List.length_append, List.length_replicate]
    omega
  have htake : (padded components a).take p.length = (padded p.length a).take p.length := by
    have hsplit : padded components a = padded p.length a ++
        List.replicate (components - max p.length a.length) 0 := by
      unfold padded
      rw [List.append_assoc, List.replicate_append_replicate]
      congr 2
      have h1 := hp.2.1
      have h2 := ha.2.1
      omega
    rw [hsplit, List.take_append_of_le_length hlen]
  generalize hu : (padded p.length a).take p.length = u at htake
  have hulen : u.length = p.length := by
    rw [← hu, List.length_take]
    omega
  have hproper := proper_append_zeros base_pos a (components - a.length) ha.2.2
  have hsplit : padded components a = u ++ (padded components a).drop p.length := by
    rw [← htake, List.take_append_drop]
  generalize hv : (padded components a).drop p.length = v at hsplit
  have hvlen : v.length = components - p.length := by
    rw [← hv, List.length_drop, length_padded components a ha.2.1]
  have huproper : Proper base u := fun d hd => hproper d (by
    show d ∈ padded components a
    rw [hsplit]
    exact List.mem_append_left _ hd)
  have hvproper : Proper base v := fun d hd => hproper d (by
    show d ∈ padded components a
    rw [hsplit]
    exact List.mem_append_right _ hd)
  have hvlt := index_lt one_lt_base v hvproper
  have hpne : p ≠ [] := by
    intro hnil
    have h1 := hp.1
    rw [hnil] at h1
    exact absurd h1 (by decide)
  have hpadded : padded p.length p = p := by
    unfold padded
    rw [Nat.sub_self]
    exact List.append_nil p
  have hinc : padded p.length (incrementPrefix p) = incrementPrefix p := by
    unfold padded incrementPrefix
    rw [length_bump, Nat.sub_self]
    exact List.append_nil _
  rw [releaseLatticeIndex_padded p.length p (Nat.le_refl _) hp.2.1, hpadded,
    releaseLatticeIndex_padded p.length (incrementPrefix p) (by
      unfold incrementPrefix
      rw [length_bump]) hp.2.1, hinc]
  unfold incrementPrefix
  rw [index_bump_last p hpne, releaseLatticeIndex_eq a, hsplit, index_append, hvlen]
  rw [hvlen] at hvlt
  rw [digit_range_iff _ _ _ _ hvlt]
  constructor
  · rintro rfl
    rfl
  · exact index_injective one_lt_base u p hulen huproper hp.2.2

theorem mem_mk (lower : Option (List Nat)) (li : Bool) (upper : Option (List Nat)) (ui : Bool)
    (n : Nat) : Covers Mem [⟨lower, li, upper, ui⟩] n ↔
      startOf lower li ≤ n ∧ n < stopOf upper ui :=
  covers_singleton _ n

/-- **A clause and its intervals agree** on every release. -/
theorem covers_clauseIntervals (clause : ConstraintClause) (actual : StablePep440Version)
    (h : ClauseOk clause) (ha : Admissible actual.release) :
    Covers Mem (clauseIntervals clause) (releaseLatticeIndex actual.release) ↔
      clauseMatches clause actual = true := by
  have hlt := ha.index_lt
  have hzero : startOf (some universeLower) true = 0 := index_universeLower
  have hnone : ∀ ui, stopOf none ui = base ^ components := fun _ => rfl
  cases clause with
  | any =>
    show Covers Mem [_] _ ↔ true = true
    rw [mem_mk, hzero, hnone]
    simp [hlt]
  | prefixOf p =>
    show Covers Mem [_] _ ↔ decide _ = true
    rw [mem_mk, decide_eq_true_iff, prefix_iff actual.release p ha h]
    rfl
  | excludePrefixOf p =>
    show Covers Mem (_ ++ _) _ ↔ (!decide _) = true
    have hinc := isBound_bump (p.length - 1) p h
    have hle : releaseLatticeIndex p ≤ releaseLatticeIndex (incrementPrefix p) := by
      have hself := (prefix_iff p p h h).mp (by simp [padded])
      omega
    rw [covers_append, mem_validatedInterval _ _ _ _ (upperOk_of_admissible h _),
      mem_validatedInterval _ _ _ _ (upperOk_none _), hzero, hnone, Bool.not_eq_true',
      decide_eq_false_iff_not, prefix_iff actual.release p ha h]
    simp only [startOf, stopOf]
    simp only [if_true, Bool.false_eq_true, if_false]
    omega
  | range lower upper =>
    show Covers Mem [_] _ ↔ (decide _ && decide _) = true
    rw [mem_mk, Bool.and_eq_true, decide_eq_true_iff, decide_eq_true_iff,
      compare_ge_iff _ _ ha h.1.isBound, compare_lt_iff _ _ ha h.2]
    rfl
  | equal e =>
    show Covers Mem [_] _ ↔ decide _ = true
    rw [mem_mk, decide_eq_true_iff, compare_eq_iff _ _ ha h]
    simp only [startOf, stopOf]
    simp only [if_true]
    omega
  | notEqual e =>
    show Covers Mem (_ ++ _) _ ↔ decide _ = true
    rw [covers_append, mem_validatedInterval _ _ _ _ (upperOk_of_admissible h _),
      mem_validatedInterval _ _ _ _ (upperOk_none _), hzero, hnone, decide_eq_true_iff, ne_eq,
      compare_eq_iff _ _ ha h]
    simp only [startOf, stopOf]
    simp only [Bool.false_eq_true, if_false]
    omega
  | lt e =>
    show Covers Mem _ _ ↔ decide _ = true
    unfold clauseIntervals
    rw [mem_validatedInterval _ _ _ _ (upperOk_of_admissible h _), hzero, decide_eq_true_iff,
      compare_lt_iff _ _ ha h.isBound]
    simp only [stopOf]
    simp
  | le e =>
    show Covers Mem _ _ ↔ decide _ = true
    have hgt := compare_gt_iff _ _ ha h
    unfold clauseIntervals
    rw [mem_validatedInterval _ _ _ _ (upperOk_of_admissible h _), hzero, decide_eq_true_iff]
    simp only [stopOf]
    simp only [if_true]
    omega
  | gt e =>
    show Covers Mem [_] _ ↔ decide _ = true
    rw [mem_mk, hnone, decide_eq_true_iff, compare_gt_iff _ _ ha h]
    simp only [startOf]
    simp only [Bool.false_eq_true, if_false]
    omega
  | ge e =>
    show Covers Mem [_] _ ↔ decide _ = true
    rw [mem_mk, hnone, decide_eq_true_iff, compare_ge_iff _ _ ha h.isBound]
    simp only [startOf]
    simp only [if_true]
    omega

/-! ## What the parser promises -/

theorem decimalValue_lt (c : Char) : (decimalValue c).getD 0 < 10 := by
  unfold decimalValue
  cases hz : decimalZeros.find? fun z => z ≤ c.toNat && c.toNat < z + 10 with
  | none => exact Nat.succ_pos 9
  | some z =>
    have hrange := List.find?_some hz
    simp only [Bool.and_eq_true, decide_eq_true_eq] at hrange
    simp only [Option.map_some, Option.getD_some]
    omega

theorem intOfDecimal_lt (s : Text) : intOfDecimal s < 10 ^ s.length := by
  induction s using List.reverseRecOn with
  | nil => decide
  | append_singleton s c ih =>
    have hc := decimalValue_lt c
    have hstep : intOfDecimal (s ++ [c]) = 10 * intOfDecimal s + (decimalValue c).getD 0 := by
      unfold intOfDecimal
      rw [List.foldl_append]
      rfl
    rw [hstep, List.length_append, List.length_singleton, Nat.pow_succ]
    omega

/-- Components of at most 18 digits. -/
theorem admissible_map (parts : List Text) (hlen : 1 ≤ parts.length ∧ parts.length ≤ components)
    (h : ∀ part ∈ parts, part.length ≤ pep440MaxComponentDigits) :
    Admissible (parts.map intOfDecimal) := by
  refine ⟨by simpa using hlen.1, by simpa using hlen.2, ?_⟩
  intro d hd
  obtain ⟨part, hpart, rfl⟩ := List.mem_map.mp hd
  exact Nat.lt_of_lt_of_le (intOfDecimal_lt part)
    (Nat.pow_le_pow_right (by decide) (h part hpart))

theorem admissible_parseStableVersion (value : Text) (v : StablePep440Version)
    (h : parseStableVersion value = some v) : Admissible v.release := by
  unfold parseStableVersion at h
  split at h
  · cases h
  split at h
  · cases h
  · rename_i matched _
    simp only at h
    split at h
    · cases h
    · rename_i hlen
      split at h
      · cases h
      · rename_i hdigits
        cases h
        refine admissible_map _ (not_not.mp hlen) fun part hpart => ?_
        simp only [List.any_eq_true, decide_eq_true_eq, not_exists, not_and, not_lt] at hdigits
        exact hdigits part hpart

theorem admissible_requireStableVersion (value : Text) (v : StablePep440Version)
    (h : requireStableVersion value = .ok v) : Admissible v.release := by
  unfold requireStableVersion at h
  cases hp : parseStableVersion value with
  | none =>
    rw [hp] at h
    cases h
  | some v' =>
    rw [hp] at h
    cases h
    exact admissible_parseStableVersion value v hp

theorem admissible_parseReleaseComponents (value : Text) (r : List Nat)
    (h : parseReleaseComponents value = .ok r) : Admissible r := by
  unfold parseReleaseComponents at h
  simp only at h
  split at h
  · cases h
  · rename_i hlen
    split at h
    · cases h
    · rename_i hparts
      cases h
      refine admissible_map _ (not_not.mp hlen) fun part hpart => ?_
      simp only [List.any_eq_true, Bool.or_eq_true, decide_eq_true_eq, not_exists, not_and,
        not_or, not_lt] at hparts
      exact (hparts part hpart).2

theorem clauseOk_versionClause (operator : Text) (e : StablePep440Version) (c : ConstraintClause)
    (he : Admissible e.release) (h : versionClause operator e = .ok c) : ClauseOk c := by
  have hrange : ∀ k, ClauseOk (rangeClause e (bump k e.release)) := fun k =>
    ⟨he, isBound_bump k e.release he⟩
  unfold versionClause at h
  repeat' split at h
  all_goals cases h
  all_goals first
    | exact he
    | exact hrange _

theorem clauseOk_parseClause (text : Text) (c : ConstraintClause)
    (h : parseClause text = .ok c) : ClauseOk c := by
  unfold parseClause at h
  split at h
  · cases h
    exact trivial
  split at h
  · obtain ⟨p, hp, hc⟩ := (except_bind_eq_ok _ _ _).mp h
    have hadm := admissible_parseReleaseComponents _ p hp
    cases hc
    split
    · exact hadm
    · exact hadm
  · split at h
    · cases h
    · obtain ⟨e, he, hc⟩ := (except_bind_eq_ok _ _ _).mp h
      exact clauseOk_versionClause _ e c (admissible_requireStableVersion _ e he) hc

theorem clauseOk_parsePoetryConstraint (value : Text) (p : PoetryConstraint)
    (h : parsePoetryConstraint value = .ok p) : ∀ c ∈ p.clauses, ClauseOk c := by
  unfold parsePoetryConstraint at h
  repeat' split at h
  all_goals first
    | cases h
    | skip
  simp only at h
  split at h
  · cases h
  · obtain ⟨clauses, hclauses, hp⟩ := (except_bind_eq_ok _ _ _).mp h
    cases hp
    intro c hc
    obtain ⟨clause, _, hparse⟩ := mem_mapM_ok _ _ _ hclauses c hc
    exact clauseOk_parseClause _ c hparse

/-! ## Constraints -/

theorem sound_meets (xs ys : List Interval) (hx : ∀ i ∈ xs, i.Sound) (hy : ∀ j ∈ ys, j.Sound) :
    ∀ k ∈ meets intersectInterval xs ys, k.Sound ∧ k.start < k.stop := by
  intro k hk
  obtain ⟨i, hi, hk⟩ := List.mem_flatMap.mp hk
  obtain ⟨j, hj, hij⟩ := List.mem_filterMap.mp hk
  rcases intersectInterval_eq i j (hx i hi) (hy j hj) with ⟨k', hk', hs, hne, _⟩ | ⟨hnone, _⟩
  · rw [hk'] at hij
    cases hij
    exact ⟨hs, hne⟩
  · rw [hnone] at hij
    cases hij

/-- The loop of `_constraint_intervals`: clause after clause is met. -/
theorem constraintIntervalsFrom_spec (clauses : List ConstraintClause)
    (hok : ∀ c ∈ clauses, ClauseOk c) (intervals : List Interval)
    (hs : ∀ i ∈ intervals, i.Sound ∧ i.start < i.stop) :
    (∀ i ∈ constraintIntervalsFrom intervals clauses, i.Sound ∧ i.start < i.stop) ∧
    ∀ n, Covers Mem (constraintIntervalsFrom intervals clauses) n ↔
      Covers Mem intervals n ∧ ∀ c ∈ clauses, Covers Mem (clauseIntervals c) n := by
  induction clauses generalizing intervals with
  | nil => exact ⟨hs, fun n => by simp [constraintIntervalsFrom]⟩
  | cons c clauses ih =>
    have hx : ∀ i ∈ intervals, i.Sound := fun i hi => (hs i hi).1
    have hy := sound_clauseIntervals c (hok c List.mem_cons_self)
    have hmeet := sound_meets intervals (clauseIntervals c) hx hy
    have hcovers := covers_meets Mem Interval.Sound intersectInterval
      (fun i j n hi hj => mem_intersectInterval i j n hi hj) intervals (clauseIntervals c) hx hy
    unfold constraintIntervalsFrom
    simp only
    by_cases hempty : meets intersectInterval intervals (clauseIntervals c) = []
    · rw [if_pos hempty]
      constructor
      · intro i hi
        cases hi
      · intro n
        constructor
        · rintro ⟨i, hi, _⟩
          cases hi
        · rintro ⟨hint, hall⟩
          have hmem := (hcovers n).mpr ⟨hint, hall c List.mem_cons_self⟩
          rw [hempty] at hmem
          exact hmem
    · rw [if_neg hempty]
      obtain ⟨hsound, hrest⟩ := ih (fun c' hc' => hok c' (List.mem_cons_of_mem c hc')) _ hmeet
      refine ⟨hsound, fun n => ?_⟩
      rw [hrest, hcovers, List.forall_mem_cons, and_assoc]

/-- The universe of a constraint. -/
theorem sound_universe : ∀ i ∈ ([⟨some universeLower, true, none, false⟩] : List Interval),
    i.Sound ∧ i.start < i.stop := by
  intro i hi
  rw [List.mem_singleton.mp hi]
  refine ⟨⟨lowerOk_of_admissible admissible_universeLower _, upperOk_none _⟩, ?_⟩
  show startOf (some universeLower) true < base ^ components
  exact admissible_universeLower.index_lt

theorem sound_constraintIntervals (p : PoetryConstraint) (hok : ∀ c ∈ p.clauses, ClauseOk c) :
    ∀ i ∈ constraintIntervals p, i.Sound ∧ i.start < i.stop :=
  (constraintIntervalsFrom_spec p.clauses hok _ sound_universe).1

/-- **A constraint and its intervals agree** on every release. -/
theorem covers_constraintIntervals (p : PoetryConstraint) (hok : ∀ c ∈ p.clauses, ClauseOk c)
    (actual : StablePep440Version) (ha : Admissible actual.release) :
    Covers Mem (constraintIntervals p) (releaseLatticeIndex actual.release) ↔
      p.matches actual = true := by
  have huniverse : Covers Mem [⟨some universeLower, true, none, false⟩]
      (releaseLatticeIndex actual.release) := by
    rw [mem_mk]
    exact ⟨Nat.le_trans (Nat.le_of_eq index_universeLower) (Nat.zero_le _), ha.index_lt⟩
  unfold constraintIntervals PoetryConstraint.matches
  rw [(constraintIntervalsFrom_spec p.clauses hok _ sound_universe).2, List.all_eq_true]
  constructor
  · intro h c hc
    exact (covers_clauseIntervals c actual (hok c hc) ha).mp (h.2 c hc)
  · intro h
    exact ⟨huniverse, fun c hc => (covers_clauseIntervals c actual (hok c hc) ha).mpr (h c hc)⟩

/-- The loop of `poetry_constraint_is_subset` finds out whether anything is left. -/
theorem coveredBy_iff (covers uncovered : List Interval) (h : uncovered ≠ []) :
    coveredBy uncovered covers = true ↔ covers.foldl (without subtractInterval) uncovered = [] := by
  induction covers generalizing uncovered with
  | nil => simp [coveredBy, h]
  | cons c covers ih =>
    unfold coveredBy
    simp only
    rw [List.foldl_cons]
    by_cases hempty : without subtractInterval uncovered c = []
    · rw [if_pos hempty, hempty]
      have hnil : ∀ cs : List Interval, cs.foldl (without subtractInterval) [] = [] := by
        intro cs
        induction cs with
        | nil => rfl
        | cons c cs ih => exact ih
      simp [hnil]
    · rw [if_neg hempty]
      exact ih _ hempty

/-- An interval that is not empty holds a release. -/
theorem exists_release (i : Interval) (hs : i.Sound) (h : i.start < i.stop) :
    ∃ r, Admissible r ∧ i.Mem (releaseLatticeIndex r) := by
  have hlt : i.start < base ^ components := Nat.lt_of_lt_of_le h hs.upper.stopOf_le
  obtain ⟨r, hlen, hproper, hindex⟩ := exists_digits one_lt_base components i.start hlt
  have hpadded : padded components r = r := by
    unfold padded
    rw [hlen, Nat.sub_self]
    exact List.append_nil r
  refine ⟨r, ⟨by rw [hlen]; decide, Nat.le_of_eq hlen, hproper⟩, ?_⟩
  rw [releaseLatticeIndex_eq, hpadded, hindex]
  exact ⟨Nat.le_refl _, h⟩

/-- Intervals are empty exactly where they hold no release. -/
theorem eq_nil_iff (is : List Interval) (hs : ∀ i ∈ is, i.Sound ∧ i.start < i.stop) :
    is = [] ↔ ∀ actual : StablePep440Version, Admissible actual.release →
      ¬Covers Mem is (releaseLatticeIndex actual.release) := by
  constructor
  · rintro rfl actual _ ⟨i, hi, _⟩
    cases hi
  · intro h
    cases is with
    | nil => rfl
    | cons i is =>
      obtain ⟨hsound, hne⟩ := hs i List.mem_cons_self
      obtain ⟨r, hr, hmem⟩ := exists_release i hsound hne
      exact absurd ⟨i, List.mem_cons_self, hmem⟩ (h ⟨[], r⟩ hr)

/-! ## Main theorem -/

/-- An admissible release that satisfies a constraint. -/
def Satisfies (p : PoetryConstraint) (actual : StablePep440Version) : Prop :=
  Admissible actual.release ∧ p.matches actual = true

def noReleaseMessage : Text := "subset constraint admits no stable release".toList

theorem poetryConstraintIsSubset_eq (subset superset : Text) (p q : PoetryConstraint)
    (hp : parsePoetryConstraint subset = .ok p) (hq : parsePoetryConstraint superset = .ok q) :
    poetryConstraintIsSubset subset superset =
      if constraintIntervals p = [] then (none, some noReleaseMessage)
      else (some (coveredBy (constraintIntervals p) (constraintIntervals q)), none) := by
  unfold poetryConstraintIsSubset
  rw [hp, hq]
  rfl

/-- No intervals are left of a constraint that no release satisfies. -/
theorem constraintIntervals_eq_nil_iff (p : PoetryConstraint)
    (hpok : ∀ clause ∈ p.clauses, ClauseOk clause) :
    constraintIntervals p = [] ↔ ¬∃ actual, Satisfies p actual := by
  rw [eq_nil_iff _ (sound_constraintIntervals p hpok), not_exists]
  refine forall_congr' fun actual => ?_
  constructor
  · rintro h ⟨ha, hm⟩
    exact h ha ((covers_constraintIntervals p hpok actual ha).mpr hm)
  · intro h ha hc
    exact h ⟨ha, (covers_constraintIntervals p hpok actual ha).mp hc⟩

/-- Nothing is left of a constraint without another one that contains it. -/
theorem remaining_eq_nil_iff (p q : PoetryConstraint)
    (hpok : ∀ clause ∈ p.clauses, ClauseOk clause) (hqok : ∀ clause ∈ q.clauses, ClauseOk clause) :
    (constraintIntervals q).foldl (without subtractInterval) (constraintIntervals p) = [] ↔
      ∀ actual, Satisfies p actual → Satisfies q actual := by
  have hps := sound_constraintIntervals p hpok
  have hqs := sound_constraintIntervals q hqok
  have hremaining := ok_foldl_without (fun i => i.Sound ∧ i.start < i.stop) subtractInterval
    (fun i j hi hj => sound_subtractInterval i j hi.1 hj.1 hi.2) (constraintIntervals p)
    (constraintIntervals q) hps hqs
  rw [eq_nil_iff _ hremaining]
  refine forall_congr' fun actual => ?_
  rw [covers_foldl_without Mem (fun i => i.Sound ∧ i.start < i.stop) subtractInterval
    (fun i j n hi hj => covers_subtractInterval i j n hi.1 hj.1)
    (fun i j hi hj => sound_subtractInterval i j hi.1 hj.1 hi.2) _ _ hps hqs]
  constructor
  · rintro h ⟨ha, hm⟩
    have hnot := h ha
    rw [covers_constraintIntervals p hpok actual ha,
      covers_constraintIntervals q hqok actual ha] at hnot
    exact ⟨ha, by_contra fun hq => hnot ⟨hm, hq⟩⟩
  · intro h ha
    rw [covers_constraintIntervals p hpok actual ha, covers_constraintIntervals q hqok actual ha]
    rintro ⟨hm, hq⟩
    exact hq (h ⟨ha, hm⟩).2

/-- **Containment is decided exactly.** -/
theorem subset_spec (subset superset : Text) (p q : PoetryConstraint)
    (hp : parsePoetryConstraint subset = .ok p) (hq : parsePoetryConstraint superset = .ok q) :
    (poetryConstraintIsSubset subset superset = (some true, none) ↔
      (∃ actual, Satisfies p actual) ∧ ∀ actual, Satisfies p actual → Satisfies q actual) ∧
    (poetryConstraintIsSubset subset superset = (some false, none) ↔
      ∃ actual, Satisfies p actual ∧ ¬Satisfies q actual) ∧
    (poetryConstraintIsSubset subset superset = (none, some noReleaseMessage) ↔
      ¬∃ actual, Satisfies p actual) := by
  have hpok := clauseOk_parsePoetryConstraint subset p hp
  have hqok := clauseOk_parsePoetryConstraint superset q hq
  have hempty := constraintIntervals_eq_nil_iff p hpok
  have hleft := remaining_eq_nil_iff p q hpok hqok
  have hcounter : (¬∀ actual, Satisfies p actual → Satisfies q actual) ↔
      ∃ actual, Satisfies p actual ∧ ¬Satisfies q actual := by
    simp only [not_forall, exists_prop]
  rw [poetryConstraintIsSubset_eq subset superset p q hp hq]
  by_cases hnil : constraintIntervals p = []
  · have hnone := hempty.mp hnil
    rw [if_pos hnil]
    refine ⟨?_, ?_, ?_⟩
    · simp [hnone]
    · constructor
      · intro h
        cases h
      · rintro ⟨actual, hs, _⟩
        exact absurd ⟨actual, hs⟩ hnone
    · simp [hnone]
  · have hsome := not_not.mp (mt hempty.mpr hnil)
    have hcovered := coveredBy_iff (constraintIntervals q) (constraintIntervals p) hnil
    rw [hleft] at hcovered
    rw [if_neg hnil, ← hcounter, ← hcovered]
    refine ⟨?_, ?_, ?_⟩
    · simp [hsome]
    · simp
    · simp [hsome]

/-- A constraint that every release of the other one satisfies. -/
theorem subset_spec_caret : poetryConstraintIsSubset "~1.2".toList "^1".toList = (some true, none) ↔
    (∃ actual, Satisfies ⟨"~1.2".toList, [.range ⟨"1.2".toList, [1, 2]⟩ ⟨"1.3".toList, [1, 3]⟩]⟩
      actual) ∧
    ∀ actual, Satisfies ⟨"~1.2".toList, [.range ⟨"1.2".toList, [1, 2]⟩ ⟨"1.3".toList, [1, 3]⟩]⟩
      actual → Satisfies ⟨"^1".toList, [.range ⟨"1".toList, [1]⟩ ⟨"2".toList, [2]⟩]⟩ actual :=
  (subset_spec "~1.2".toList "^1".toList _ _ (by decide) (by decide)).1

/-- Every release of an empty constraint is one of any other, yet the answer is an error. -/
theorem empty_subset_refused : ∃ p q, parsePoetryConstraint ">1,<1".toList = .ok p ∧
    parsePoetryConstraint "1".toList = .ok q ∧
    (∀ actual, Satisfies p actual → Satisfies q actual) ∧
    poetryConstraintIsSubset ">1,<1".toList "1".toList ≠ (some true, none) := by
  refine ⟨⟨">1,<1".toList, [.gt ⟨"1".toList, [1]⟩, .lt ⟨"1".toList, [1]⟩]⟩,
    ⟨"1".toList, [.equal ⟨"1".toList, [1]⟩]⟩, by decide, by decide, ?_, by decide +kernel⟩
  rintro actual ⟨_, hm⟩
  unfold PoetryConstraint.matches at hm
  rw [List.all_eq_true] at hm
  have hgt : decide (compareRelease actual.release [1] > 0) = true := hm (.gt ⟨"1".toList, [1]⟩)
    (by simp)
  have hlt : decide (compareRelease actual.release [1] < 0) = true := hm (.lt ⟨"1".toList, [1]⟩)
    (by simp)
  rw [decide_eq_true_iff] at hgt hlt
  omega

end Agentrail.Pep440
