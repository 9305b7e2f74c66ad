import Agentrail.Dependencies.Pep440

/-!
# Intervals of releases

An interval stands for a half-open range of lattice indices (`Interval.start`,
`Interval.stop`).  Bounds that a carry took out of range are inclusive below and
exclusive above, where they stand for the next release (`Interval.Sound`).

    compare_lt_iff          : a release is below a bound where its index is
    mem_intersectInterval   : an intersection holds what both hold
    covers_subtractInterval : a difference holds what the first alone holds
-/

namespace Agentrail.Pep440

open Py Digits Cover

abbrev base : Nat := releaseLatticeBase
abbrev components : Nat := pep440MaxReleaseComponents

theorem one_lt_base : 1 < base := by decide

theorem base_pos : 0 < base := by decide

/-- One to eight components, each below `10 ^ 18`. -/
def Admissible (release : List Nat) : Prop :=
  1 ≤ release.length ∧ release.length ≤ components ∧ Proper base release

/-- What a bound of an interval may be. -/
def IsBound (r : List Nat) : Prop := r.length ≤ components ∧ InRange base r

theorem Admissible.isBound {r : List Nat} (h : Admissible r) : IsBound r :=
  ⟨h.2.1, Or.inl h.2.2⟩

/-! ## Comparing releases -/

theorem length_padded (width : Nat) (r : List Nat) (h : r.length ≤ width) :
    (padded width r).length = width := by
  unfold padded
  rw [List.length_append, List.length_replicate]
  omega

theorem releaseLatticeIndex_eq (r : List Nat) :
    releaseLatticeIndex r = index base (padded components r) :=
  foldl_eq_index _

/-- Padding on the way to the eight components. -/
theorem releaseLatticeIndex_padded (width : Nat) (r : List Nat) (hr : r.length ≤ width)
    (hw : width ≤ components) :
    releaseLatticeIndex r = base ^ (components - width) * index base (padded width r) := by
  have hsplit : padded components r =
      padded width r ++ List.replicate (components - width) 0 := by
    unfold padded
    rw [List.append_assoc, List.replicate_append_replicate]
    congr 2
    omega
  rw [releaseLatticeIndex_eq, hsplit, index_append_zeros]

/-- The three outcomes of a comparison. -/
theorem compareRelease_cases (l r : List Nat) :
    let width := max l.length r.length
    (padded width l = padded width r ∧ compareRelease l r = 0) ∨
    (padded width l < padded width r ∧ compareRelease l r = -1) ∨
    (padded width r < padded width l ∧ compareRelease l r = 1) := by
  intro width
  show (_ ∧ (if padded width l = padded width r then (0 : Int) else _) = 0) ∨
    (_ ∧ (if padded width l = padded width r then (0 : Int) else _) = -1) ∨
    (_ ∧ (if padded width l = padded width r then (0 : Int) else _) = 1)
  by_cases heq : padded width l = padded width r
  · left
    exact ⟨heq, if_pos heq⟩
  · by_cases hlt : padded width l < padded width r
    · right
      left
      exact ⟨hlt, by rw [if_neg heq, if_pos hlt]⟩
    · right
      right
      refine ⟨?_, by rw [if_neg heq, if_neg hlt]⟩
      rcases lt_trichotomy (padded width l) (padded width r) with h | h | h
      · exact absurd h hlt
      · exact absurd h heq
      · exact h

/-- Lexicographic order of the padded releases and the order of their indices. -/
theorem lattice_of_padded_lt (width : Nat) (l r : List Nat) (hl : IsBound l) (hr : IsBound r)
    (hlw : l.length ≤ width) (hrw : r.length ≤ width) (hw : width ≤ components)
    (h : padded width l < padded width r) :
    releaseLatticeIndex l < releaseLatticeIndex r ∨
      (releaseLatticeIndex l = releaseLatticeIndex r ∧ Carried base l) := by
  have hlen : (padded width l).length = (padded width r).length := by
    rw [length_padded width l hlw, length_padded width r hrw]
  have hpos : 0 < base ^ (components - width) := Nat.pow_pos base_pos
  rw [releaseLatticeIndex_padded width l hlw hw, releaseLatticeIndex_padded width r hrw hw]
  rcases index_lt_or_carried one_lt_base _ _ hlen (hl.2.append_zeros base_pos l _)
    (hr.2.append_zeros base_pos r _) h with hlt | ⟨heq, hcar⟩
  · exact Or.inl (Nat.mul_lt_mul_of_pos_left hlt hpos)
  · exact Or.inr ⟨by rw [heq], carried_of_append_zeros l _ base_pos hcar⟩

theorem lattice_of_lt (l r : List Nat) (hl : IsBound l) (hr : IsBound r)
    (h : compareRelease l r < 0) :
    releaseLatticeIndex l < releaseLatticeIndex r ∨
      (releaseLatticeIndex l = releaseLatticeIndex r ∧ Carried base l) := by
  rcases compareRelease_cases l r with ⟨_, hc⟩ | ⟨hlt, _⟩ | ⟨_, hc⟩
  · omega
  · exact lattice_of_padded_lt _ l r hl hr (le_max_left _ _) (le_max_right _ _)
      (max_le hl.1 hr.1) hlt
  · omega

theorem lattice_of_gt (l r : List Nat) (hl : IsBound l) (hr : IsBound r)
    (h : compareRelease l r > 0) :
    releaseLatticeIndex r < releaseLatticeIndex l ∨
      (releaseLatticeIndex r = releaseLatticeIndex l ∧ Carried base r) := by
  rcases compareRelease_cases l r with ⟨_, hc⟩ | ⟨_, hc⟩ | ⟨hgt, _⟩
  · omega
  · omega
  · exact lattice_of_padded_lt _ r l hr hl (le_max_right _ _) (le_max_left _ _)
      (max_le hl.1 hr.1) hgt

theorem lattice_of_eq (l r : List Nat) (hl : IsBound l) (hr : IsBound r)
    (h : compareRelease l r = 0) : releaseLatticeIndex l = releaseLatticeIndex r := by
  rcases compareRelease_cases l r with ⟨heq, _⟩ | ⟨_, hc⟩ | ⟨_, hc⟩
  · have hw := max_le hl.1 hr.1
    rw [releaseLatticeIndex_padded _ l (le_max_left _ _) hw,
      releaseLatticeIndex_padded _ r (le_max_right _ _) hw, heq]
  · omega
  · omega

theorem carried_of_eq (l r : List Nat) (h : compareRelease l r = 0) (hl : Carried base l) :
    Carried base r := by
  rcases compareRelease_cases l r with ⟨heq, _⟩ | ⟨_, hc⟩ | ⟨_, hc⟩
  · refine carried_of_append_zeros r (max l.length r.length - r.length) base_pos ?_
    show Carried base (padded _ r)
    rw [← heq]
    exact carried_append_zeros l _ hl
  · omega
  · omega

section
variable (a r : List Nat) (ha : Admissible a)
include ha

/-- A release is below a bound where its index is. -/
theorem compare_lt_iff (hr : IsBound r) :
    compareRelease a r < 0 ↔ releaseLatticeIndex a < releaseLatticeIndex r := by
  constructor
  · intro h
    rcases lattice_of_lt a r ha.isBound hr h with hlt | ⟨_, hcar⟩
    · exact hlt
    · exact absurd hcar (not_carried a ha.2.2)
  · intro h
    by_contra hge
    rcases Int.lt_or_eq_of_le (Int.not_lt.mp hge) with hgt | heq
    · rcases lattice_of_gt a r ha.isBound hr hgt with hlt | ⟨heq, _⟩ <;> omega
    · have hsame := lattice_of_eq a r ha.isBound hr heq.symm
      omega

theorem compare_ge_iff (hr : IsBound r) :
    compareRelease a r ≥ 0 ↔ releaseLatticeIndex r ≤ releaseLatticeIndex a := by
  have hlt := compare_lt_iff a r ha hr
  omega

theorem compare_gt_iff (hr : Admissible r) :
    compareRelease a r > 0 ↔ releaseLatticeIndex r < releaseLatticeIndex a := by
  constructor
  · intro h
    rcases lattice_of_gt a r ha.isBound hr.isBound h with hlt | ⟨_, hcar⟩
    · exact hlt
    · exact absurd hcar (not_carried r hr.2.2)
  · intro h
    have hge := (compare_ge_iff a r ha hr.isBound).mpr (by omega)
    by_contra hle
    have hsame := lattice_of_eq a r ha.isBound hr.isBound (by omega)
    omega

theorem compare_eq_iff (hr : Admissible r) :
    compareRelease a r = 0 ↔ releaseLatticeIndex a = releaseLatticeIndex r := by
  have hlt := compare_lt_iff a r ha hr.isBound
  have hgt := compare_gt_iff a r ha hr
  omega

end

/-! ## Intervals as ranges of indices -/

/-- The first index inside, of a lower bound. -/
def startOf (lower : Option (List Nat)) (inclusive : Bool) : Nat :=
  match lower with
  | none => 0
  | some r => releaseLatticeIndex r + if inclusive then 0 else 1

/-- The first index beyond, of an upper bound. -/
def stopOf (upper : Option (List Nat)) (inclusive : Bool) : Nat :=
  match upper with
  | none => base ^ components
  | some r => releaseLatticeIndex r + if inclusive then 1 else 0

def LowerOk (lower : Option (List Nat)) (inclusive : Bool) : Prop :=
  ∀ r, lower = some r → IsBound r ∧ (Carried base r → inclusive = true)

def UpperOk (upper : Option (List Nat)) (inclusive : Bool) : Prop :=
  ∀ r, upper = some r → IsBound r ∧ (Carried base r → inclusive = false)

namespace Interval

def start (i : Interval) : Nat := startOf i.lower i.lowerInclusive

def stop (i : Interval) : Nat := stopOf i.upper i.upperInclusive

/-- A carried bound is inclusive below and exclusive above. -/
structure Sound (i : Interval) : Prop where
  lower : LowerOk i.lower i.lowerInclusive
  upper : UpperOk i.upper i.upperInclusive

def Mem (i : Interval) (n : Nat) : Prop := i.start ≤ n ∧ n < i.stop

end Interval

open Agentrail.Pep440.Interval

theorem upperOk_none (inclusive : Bool) : UpperOk none inclusive := by
  intro r hr
  cases hr

theorem lowerOk_of_admissible {r : List Nat} (h : Admissible r) (inclusive : Bool) :
    LowerOk (some r) inclusive := by
  intro r' hr'
  cases hr'
  exact ⟨h.isBound, fun hc => absurd hc (not_carried r h.2.2)⟩

theorem upperOk_of_admissible {r : List Nat} (h : Admissible r) (inclusive : Bool) :
    UpperOk (some r) inclusive := by
  intro r' hr'
  cases hr'
  exact ⟨h.isBound, fun hc => absurd hc (not_carried r h.2.2)⟩

theorem lowerOk_inclusive {r : List Nat} (h : IsBound r) : LowerOk (some r) true := by
  intro r' hr'
  cases hr'
  exact ⟨h, fun _ => rfl⟩

theorem upperOk_exclusive {r : List Nat} (h : IsBound r) : UpperOk (some r) false := by
  intro r' hr'
  cases hr'
  exact ⟨h, fun _ => rfl⟩

/-- A lower bound turned into the upper bound of what is below. -/
theorem LowerOk.flip {r : List Nat} {inclusive : Bool} (h : LowerOk (some r) inclusive) :
    UpperOk (some r) (!inclusive) := by
  intro r' hr'
  cases hr'
  obtain ⟨hb, hc⟩ := h r rfl
  refine ⟨hb, fun hcar => ?_⟩
  rw [hc hcar]
  rfl

theorem UpperOk.flip {r : List Nat} {inclusive : Bool} (h : UpperOk (some r) inclusive) :
    LowerOk (some r) (!inclusive) := by
  intro r' hr'
  cases hr'
  obtain ⟨hb, hc⟩ := h r rfl
  refine ⟨hb, fun hcar => ?_⟩
  rw [hc hcar]
  rfl

theorem stopOf_flip (r : List Nat) (inclusive : Bool) :
    stopOf (some r) (!inclusive) = startOf (some r) inclusive := by
  cases inclusive <;> rfl

theorem startOf_flip (r : List Nat) (inclusive : Bool) :
    startOf (some r) (!inclusive) = stopOf (some r) inclusive := by
  cases inclusive <;> rfl

/-- The indices of releases. -/
theorem Admissible.index_lt {r : List Nat} (h : Admissible r) :
    releaseLatticeIndex r < base ^ components := by
  have hlt := Digits.index_lt one_lt_base (padded components r)
    (proper_append_zeros base_pos r _ h.2.2)
  rw [length_padded components r h.2.1] at hlt
  rwa [releaseLatticeIndex_eq]

theorem IsBound.index_le {r : List Nat} (h : IsBound r) :
    releaseLatticeIndex r ≤ base ^ components := by
  have hle := (h.2.append_zeros base_pos r (components - r.length)).index_le one_lt_base
  have hlen := length_padded components r h.1
  unfold padded at hlen
  rw [hlen] at hle
  rwa [releaseLatticeIndex_eq]

theorem UpperOk.stopOf_le {upper : Option (List Nat)} {inclusive : Bool}
    (h : UpperOk upper inclusive) : stopOf upper inclusive ≤ base ^ components := by
  cases upper with
  | none => exact Nat.le_refl _
  | some r =>
    obtain ⟨hb, hc⟩ := h r rfl
    have hle := hb.index_le
    cases inclusive with
    | false => exact hle
    | true =>
      rcases hb.2 with hp | hcar
      · have hlt := Digits.index_lt one_lt_base (padded components r)
          (proper_append_zeros base_pos r _ hp)
        rw [length_padded components r hb.1, ← releaseLatticeIndex_eq] at hlt
        exact hlt
      · cases hc hcar

/-- What `_validated_interval` keeps: the intervals that are not empty. -/
theorem validatedInterval_eq (lower : Option (List Nat)) (li : Bool) (upper : Option (List Nat))
    (ui : Bool) (hu : UpperOk upper ui) :
    validatedInterval lower li upper ui =
      if startOf lower li < stopOf upper ui then some ⟨lower, li, upper, ui⟩ else none := by
  have hle := hu.stopOf_le
  have hmax : releaseLatticeMax = ((base ^ components : Nat) : Int) - 1 := by
    unfold releaseLatticeMax
    push_cast
    rfl
  have hmin : minimumOf lower li = startOf lower li := by
    unfold minimumOf startOf
    cases lower with
    | none => rfl
    | some r => cases li <;> simp
  have hmaximum : maximumOf upper ui = (stopOf upper ui : Int) - 1 := by
    unfold maximumOf stopOf
    cases upper with
    | none => exact hmax
    | some r => cases ui <;> simp
  unfold validatedInterval
  simp only [hmin, hmaximum]
  by_cases hlt : startOf lower li < stopOf upper ui
  · rw [if_pos hlt, if_pos (by omega)]
  · rw [if_neg hlt, if_neg (by omega)]

theorem mem_validatedInterval (lower : Option (List Nat)) (li : Bool) (upper : Option (List Nat))
    (ui : Bool) (hu : UpperOk upper ui) (n : Nat) :
    Covers Mem (validatedInterval lower li upper ui).toList n ↔
      startOf lower li ≤ n ∧ n < stopOf upper ui := by
  rw [validatedInterval_eq lower li upper ui hu]
  by_cases hlt : startOf lower li < stopOf upper ui
  · rw [if_pos hlt]
    simp [Covers, Mem, start, stop]
  · rw [if_neg hlt]
    constructor
    · rintro ⟨i, hi, _⟩
      cases hi
    · rintro ⟨h1, h2⟩
      omega

theorem sound_validatedInterval (lower : Option (List Nat)) (li : Bool)
    (upper : Option (List Nat)) (ui : Bool) (hl : LowerOk lower li) (hu : UpperOk upper ui) :
    ∀ i ∈ (validatedInterval lower li upper ui).toList, i.Sound ∧ i.start < i.stop := by
  intro i hi
  rw [validatedInterval_eq lower li upper ui hu] at hi
  by_cases hlt : startOf lower li < stopOf upper ui
  · rw [if_pos hlt] at hi
    have heq : i = ⟨lower, li, upper, ui⟩ := by simpa using hi
    subst heq
    exact ⟨⟨hl, hu⟩, hlt⟩
  · rw [if_neg hlt] at hi
    cases hi

/-! ## Intersection -/

/-- Of two equal bounds the stricter one. -/
theorem compareRelease_eq_zero (l r : List Nat) (hgt : ¬compareRelease l r > 0)
    (hlt : ¬compareRelease l r < 0) : compareRelease l r = 0 := by
  omega

theorem laterLower_spec (l r : Interval) (hl : l.Sound) (hr : r.Sound) :
    LowerOk (laterLower l r).1 (laterLower l r).2 ∧
      startOf (laterLower l r).1 (laterLower l r).2 = max l.start r.start := by
  obtain ⟨ll, li, lu, lui⟩ := l
  obtain ⟨rl, ri, ru, rui⟩ := r
  have hlo : LowerOk ll li := hl.lower
  have hro : LowerOk rl ri := hr.lower
  show _ ∧ _ = max (startOf ll li) (startOf rl ri)
  unfold laterLower
  cases ll with
  | none => exact ⟨hro, by simp [startOf]⟩
  | some a =>
    cases rl with
    | none => exact ⟨hlo, by simp [startOf]⟩
    | some b =>
      obtain ⟨hab, hac⟩ := hlo a rfl
      obtain ⟨hbb, hbc⟩ := hro b rfl
      simp only
      by_cases hgt : compareRelease a b > 0
      · rw [if_pos hgt]
        refine ⟨hlo, ?_⟩
        unfold startOf
        rcases lattice_of_gt a b hab hbb hgt with hlt | ⟨heq, hcar⟩
        · cases li <;> cases ri <;> simp <;> omega
        · rw [hbc hcar]
          cases li <;> simp <;> omega
      by_cases hlt : compareRelease a b < 0
      · rw [if_neg hgt, if_pos hlt]
        refine ⟨hro, ?_⟩
        unfold startOf
        rcases lattice_of_lt a b hab hbb hlt with hlt | ⟨heq, hcar⟩
        · cases li <;> cases ri <;> simp <;> omega
        · rw [hac hcar]
          cases ri <;> simp <;> omega
      · have hzero := compareRelease_eq_zero a b hgt hlt
        have heq := lattice_of_eq a b hab hbb hzero
        rw [if_neg hgt, if_neg hlt]
        constructor
        · intro a' ha'
          cases ha'
          refine ⟨hab, fun hcar => ?_⟩
          rw [hac hcar, hbc (carried_of_eq a b hzero hcar)]
          rfl
        · show releaseLatticeIndex a + _ = max (releaseLatticeIndex a + _) (releaseLatticeIndex b + _)
          rw [heq]
          cases li <;> cases ri <;> simp

theorem earlierUpper_spec (l r : Interval) (hl : l.Sound) (hr : r.Sound) :
    UpperOk (earlierUpper l r).1 (earlierUpper l r).2 ∧
      stopOf (earlierUpper l r).1 (earlierUpper l r).2 = min l.stop r.stop := by
  obtain ⟨ll, li, lu, lui⟩ := l
  obtain ⟨rl, ri, ru, rui⟩ := r
  have hlo : UpperOk lu lui := hl.upper
  have hro : UpperOk ru rui := hr.upper
  show _ ∧ _ = min (stopOf lu lui) (stopOf ru rui)
  have hlle := hlo.stopOf_le
  have hrle := hro.stopOf_le
  unfold earlierUpper
  cases lu with
  | none => exact ⟨hro, (min_eq_right hrle).symm⟩
  | some a =>
    cases ru with
    | none => exact ⟨hlo, (min_eq_left hlle).symm⟩
    | some b =>
      obtain ⟨hab, hac⟩ := hlo a rfl
      obtain ⟨hbb, hbc⟩ := hro b rfl
      clear hlle hrle
      simp only
      by_cases hlt : compareRelease a b < 0
      · rw [if_pos hlt]
        refine ⟨hlo, ?_⟩
        unfold stopOf
        rcases lattice_of_lt a b hab hbb hlt with hlt | ⟨heq, hcar⟩
        · cases lui <;> cases rui <;> simp <;> omega
        · rw [hac hcar]
          cases rui <;> simp <;> omega
      by_cases hgt : compareRelease a b > 0
      · rw [if_neg hlt, if_pos hgt]
        refine ⟨hro, ?_⟩
        unfold stopOf
        rcases lattice_of_gt a b hab hbb hgt with hlt | ⟨heq, hcar⟩
        · cases lui <;> cases rui <;> simp <;> omega
        · rw [hbc hcar]
          cases lui <;> simp <;> omega
      · have hzero := compareRelease_eq_zero a b hgt hlt
        have heq := lattice_of_eq a b hab hbb hzero
        rw [if_neg hlt, if_neg hgt]
        constructor
        · intro a' ha'
          cases ha'
          refine ⟨hab, fun hcar => ?_⟩
          rw [hac hcar]
          rfl
        · show releaseLatticeIndex a + _ = min (releaseLatticeIndex a + _) (releaseLatticeIndex b + _)
          rw [heq]
          cases lui <;> cases rui <;> simp

/-- What an intersection holds; it is `none` exactly where that is nothing. -/
theorem intersectInterval_eq (l r : Interval) (hl : l.Sound) (hr : r.Sound) :
    (∃ k, intersectInterval l r = some k ∧ k.Sound ∧ k.start < k.stop ∧
      k.start = max l.start r.start ∧ k.stop = min l.stop r.stop) ∨
    (intersectInterval l r = none ∧ min l.stop r.stop ≤ max l.start r.start) := by
  obtain ⟨hlow, hstart⟩ := laterLower_spec l r hl hr
  obtain ⟨hup, hstop⟩ := earlierUpper_spec l r hl hr
  unfold intersectInterval
  simp only
  rw [validatedInterval_eq _ _ _ _ hup, hstart, hstop]
  by_cases hlt : max l.start r.start < min l.stop r.stop
  · left
    rw [if_pos hlt]
    refine ⟨_, rfl, ⟨hlow, hup⟩, ?_, hstart, hstop⟩
    show startOf _ _ < stopOf _ _
    rw [hstart, hstop]
    exact hlt
  · right
    rw [if_neg hlt]
    exact ⟨rfl, Nat.not_lt.mp hlt⟩

theorem mem_intersectInterval (l r : Interval) (n : Nat) (hl : l.Sound) (hr : r.Sound) :
    (∃ k, intersectInterval l r = some k ∧ k.Mem n) ↔ l.Mem n ∧ r.Mem n := by
  unfold Mem
  rcases intersectInterval_eq l r hl hr with ⟨k, hk, _, _, hstart, hstop⟩ | ⟨hnone, hle⟩
  · constructor
    · rintro ⟨k', hk', h1, h2⟩
      rw [hk] at hk'
      cases hk'
      omega
    · intro h
      exact ⟨k, hk, by omega, by omega⟩
  · constructor
    · rintro ⟨k, hk, _⟩
      rw [hnone] at hk
      cases hk
    · intro h
      omega

/-! ## Difference -/

section
variable (source i : Interval) (hs : source.Sound) (hi : i.Sound)
include hs hi

theorem sound_leftOf : ∀ k ∈ leftOf source i, k.Sound ∧ k.start < k.stop := by
  have hlow := hi.lower
  unfold leftOf
  cases hlower : i.lower with
  | none =>
    intro k hk
    cases hk
  | some r =>
    rw [hlower] at hlow
    exact sound_validatedInterval _ _ _ _ hs.lower hlow.flip

theorem sound_rightOf : ∀ k ∈ rightOf source i, k.Sound ∧ k.start < k.stop := by
  have hup := hi.upper
  unfold rightOf
  cases hupper : i.upper with
  | none =>
    intro k hk
    cases hk
  | some r =>
    rw [hupper] at hup
    exact sound_validatedInterval _ _ _ _ hup.flip hs.upper

omit hs in
theorem covers_leftOf (n : Nat) :
    Covers Mem (leftOf source i) n ↔ source.start ≤ n ∧ n < i.start := by
  have hlow := hi.lower
  unfold leftOf start
  cases hlower : i.lower with
  | none => simp [Covers, startOf]
  | some r =>
    rw [hlower] at hlow
    simp only
    rw [mem_validatedInterval _ _ _ _ hlow.flip, stopOf_flip]

theorem covers_rightOf (n : Nat) :
    Covers Mem (rightOf source i) n ↔ i.stop ≤ n ∧ n < source.stop := by
  have hup := hi.upper
  have hsle := hs.upper.stopOf_le
  unfold rightOf stop
  cases hupper : i.upper with
  | none =>
    constructor
    · rintro ⟨k, hk, _⟩
      cases hk
    · rintro ⟨h1, h2⟩
      have hbeyond : base ^ components ≤ n := h1
      omega
  | some r =>
    rw [hupper] at hup
    simp only
    rw [mem_validatedInterval _ _ _ _ hs.upper, startOf_flip]

end

theorem covers_append (xs ys : List Interval) (n : Nat) :
    Covers Mem (xs ++ ys) n ↔ Covers Mem xs n ∨ Covers Mem ys n := by
  simp [Covers, or_and_right, exists_or]

theorem covers_singleton (i : Interval) (n : Nat) : Covers Mem [i] n ↔ i.Mem n := by
  simp [Covers]

theorem sound_subtractInterval (source cover : Interval) (hs : source.Sound) (hc : cover.Sound)
    (hne : source.start < source.stop) :
    ∀ k ∈ subtractInterval source cover, k.Sound ∧ k.start < k.stop := by
  intro k hk
  unfold subtractInterval at hk
  rcases intersectInterval_eq source cover hs hc with ⟨i, hi, hsound, _⟩ | ⟨hnone, _⟩
  · rw [hi] at hk
    rcases List.mem_append.mp hk with hk | hk
    · exact sound_leftOf source i hs hsound k hk
    · exact sound_rightOf source i hs hsound k hk
  · rw [hnone] at hk
    rw [List.mem_singleton.mp hk]
    exact ⟨hs, hne⟩

theorem covers_subtractInterval (source cover : Interval) (n : Nat) (hs : source.Sound)
    (hc : cover.Sound) :
    Covers Mem (subtractInterval source cover) n ↔ source.Mem n ∧ ¬cover.Mem n := by
  unfold subtractInterval
  rcases intersectInterval_eq source cover hs hc with
    ⟨i, hi, hsound, hne, hstart, hstop⟩ | ⟨hnone, hle⟩
  · rw [hi]
    simp only
    rw [covers_append, covers_leftOf source i hsound, covers_rightOf source i hs hsound]
    unfold Mem
    omega
  · rw [hnone]
    simp only
    rw [covers_singleton]
    unfold Mem
    omega

end Agentrail.Pep440
