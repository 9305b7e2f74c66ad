import Agentrail.Py.Lines

/-!
# Pure POSIX paths (`pathlib.PurePosixPath`)

A path is a root (empty, `/` or `//`) and the segments after it, of which the empty ones and `.`
are dropped.  Nothing resolves `..`.
-/

namespace Py

structure PurePath where
  root : Text
  parts : List Text
  deriving DecidableEq

/-- Whether a segment of a text is a part of its path. -/
def isPart (segment : Text) : Bool := segment ≠ [] && segment ≠ ['.']

/-- Two slashes are a root of their own, three and more are one. -/
def rootOf (t : Text) : Text :=
  if t.head? = some '/' then
    if t[1]? = some '/' && t[2]? ≠ some '/' then ['/', '/'] else ['/']
  else []

namespace PurePath

def ofText (t : Text) : PurePath := ⟨rootOf t, (splitOn1 '/' t).filter isPart⟩

def asPosix (p : PurePath) : Text :=
  if p.root = [] && p.parts = [] then ['.'] else p.root ++ List.intercalate ['/'] p.parts

def parent (p : PurePath) : PurePath := { p with parts := p.parts.dropLast }

/-- `p / q`. -/
def join (p q : PurePath) : PurePath :=
  if q.root = [] then { p with parts := p.parts ++ q.parts } else q

end PurePath

/-! ## The text of some segments -/

theorem notMem_of_mem_splitOn1 {c : Char} {t piece : Text} (h : piece ∈ splitOn1 c t) :
    c ∉ piece := by
  induction t generalizing piece with
  | nil =>
    obtain rfl := List.mem_singleton.1 h
    exact List.not_mem_nil
  | cons d t ih =>
    rw [splitOn1_eq_splitOn, List.splitOn_cons_eq_if_modifyHead, ← splitOn1_eq_splitOn] at h
    by_cases hd : d = c
    · rw [if_pos (beq_iff_eq.2 hd)] at h
      obtain rfl | h := List.mem_cons.1 h
      · exact List.not_mem_nil
      · exact ih h
    · rw [if_neg (by simpa using hd)] at h
      cases hpieces : splitOn1 c t with
      | nil => exact absurd hpieces (splitOn1_ne_nil c t)
      | cons p ps =>
        rw [hpieces] at h ih
        obtain rfl | h := List.mem_cons.1 h
        · intro hc
          obtain hc | hc := List.mem_cons.1 hc
          · exact hd hc.symm
          · exact ih List.mem_cons_self hc
        · exact ih (List.mem_cons_of_mem _ h)

/-- Segments joined by slashes. -/
def slashed (segments : List Text) : Text := List.intercalate ['/'] segments

@[simp] theorem slashed_singleton (s : Text) : slashed [s] = s := List.intercalate_singleton

theorem slashed_cons (s : Text) {segments : List Text} (h : segments ≠ []) :
    slashed (s :: segments) = s ++ '/' :: slashed segments := by
  unfold slashed
  rw [List.intercalate_cons_of_ne_nil h, List.append_assoc]
  rfl

theorem slashed_concat {segments : List Text} (h : segments ≠ []) (s : Text) :
    slashed (segments ++ [s]) = slashed segments ++ '/' :: s := by
  induction segments with
  | nil => exact absurd rfl h
  | cons p segments ih =>
    cases segments with
    | nil => rw [List.singleton_append, slashed_cons p (List.cons_ne_nil _ _)]; simp
    | cons q segments =>
      rw [List.cons_append,
        slashed_cons p (List.append_ne_nil_of_left_ne_nil (List.cons_ne_nil _ _) _),
        ih (List.cons_ne_nil _ _), slashed_cons p (List.cons_ne_nil _ _)]
      simp

/-- What is written after the text goes to its last segment. -/
theorem slashed_concat_append (segments : List Text) (s ext : Text) :
    slashed (segments ++ [s]) ++ ext = slashed (segments ++ [s ++ ext]) := by
  by_cases h : segments = []
  · simp [h]
  · rw [slashed_concat h, slashed_concat h]
    simp

theorem splitOn1_slashed {segments : List Text} (h : segments ≠ [])
    (hslash : ∀ s ∈ segments, '/' ∉ s) : splitOn1 '/' (slashed segments) = segments :=
  splitOn1_intercalate '/' segments h hslash

/-- What a path is made of. -/
structure IsPart (segment : Text) : Prop where
  ne_nil : segment ≠ []
  ne_dot : segment ≠ ['.']
  noSlash : '/' ∉ segment

theorem IsPart.isPart {segment : Text} (h : IsPart segment) : isPart segment = true := by
  simp [Py.isPart, h.ne_nil, h.ne_dot]

namespace PurePath

theorem isPart_of_mem_ofText {t segment : Text} (h : segment ∈ (ofText t).parts) :
    IsPart segment := by
  obtain ⟨hmem, hpart⟩ := List.mem_filter.1 h
  have hne : segment ≠ [] ∧ segment ≠ ['.'] := by simpa [isPart] using hpart
  exact ⟨hne.1, hne.2, notMem_of_mem_splitOn1 hmem⟩

/-- A relative path reads its segments back. -/
theorem ofText_slashed {s : Text} {segments : List Text} (hs : s ≠ [])
    (hslash : ∀ p ∈ s :: segments, '/' ∉ p) :
    ofText (slashed (s :: segments)) = ⟨[], (s :: segments).filter isPart⟩ := by
  have hroot : rootOf (slashed (s :: segments)) = [] := by
    have hhead : (slashed (s :: segments)).head? ≠ some '/' := by
      cases s with
      | nil => exact absurd rfl hs
      | cons c s =>
        have hc : c ≠ '/' := fun e => hslash _ List.mem_cons_self (e ▸ List.mem_cons_self)
        cases segments with
        | nil => simpa using hc
        | cons q segments =>
          rw [slashed_cons _ (List.cons_ne_nil _ _)]
          simpa using hc
    simp [rootOf, hhead]
  rw [ofText, hroot, splitOn1_slashed (List.cons_ne_nil _ _) hslash]

/-- The text of a path's own parts stands for the path. -/
theorem ofText_slashed_of_isPart {segments : List Text} (h : segments ≠ [])
    (hpart : ∀ s ∈ segments, IsPart s) : ofText (slashed segments) = ⟨[], segments⟩ := by
  cases segments with
  | nil => exact absurd rfl h
  | cons s segments =>
    rw [ofText_slashed (hpart s List.mem_cons_self).ne_nil fun p hp => (hpart p hp).noSlash,
      List.filter_eq_self.2 fun p hp => (hpart p hp).isPart]

theorem asPosix_ofText_slashed {segments : List Text} (h : segments ≠ [])
    (hpart : ∀ s ∈ segments, IsPart s) :
    (ofText (slashed segments)).asPosix = slashed segments := by
  rw [ofText_slashed_of_isPart h hpart]
  simp [asPosix, h, slashed]

end PurePath

end Py
