import Agentrail.Py.Json
import Mathlib.Data.List.Nodup
import Mathlib.Data.List.Perm.Basic

/-!
# The listwise rerank (`context/llm_rerank.py`)

`llm_rerank` lets a model order the candidates, window by window from the back to the
front.  A window is asked for once; the reply is read by `parse_window_order`, which
makes a permutation of the window of any text, and put in the window's place.

    (llmRerank … candidates).ordered is a permutation of candidates

One window ends behind the start of the next one, so a candidate that is put first in every
window travels with the windows to the front (`rounds_favourite`).
-/

namespace Agentrail.ListwiseRerank

open Py

/-! ## Windows -/

/-- `_WINDOW_SIZE` and `_WINDOW_OVERLAP`. -/
def defaultWindowSize : Nat := 10
def defaultOverlap : Nat := 5

/-- The loop of `window_spans`, from the span that ends at `stop` on. -/
def spansFrom (count windowSize overlap stop : Nat) : List (Nat × Nat) :=
  if stop - windowSize = 0 then [(0, min windowSize count)]
  else (stop - windowSize, stop) ::
    spansFrom count windowSize overlap (stop - max 1 (windowSize - overlap))
termination_by stop

def windowSpans (count windowSize overlap : Nat) : List (Nat × Nat) :=
  if count = 0 then []
  else if count ≤ windowSize then [(0, count)]
  else spansFrom count windowSize overlap count

/-! ## Reading a reply -/

/-- What the code takes from `json.loads`: nothing from a text that is no JSON (`none`), and
from a list (`some (some _)`) the `str` of its items. -/
abbrev Loads := Text → Option (Option (List Text))

/-- `json.loads`, with a way to write the items that are no strings. -/
def jsonLoads (repr : Json → Text) : Loads := fun raw =>
  (loads raw).map fun value =>
    match value with
    | .list items => some (items.map fun item =>
      match item with
      | .str t => t
      | v => repr v)
    | _ => none

/-- `raw[raw.find("[") : raw.rfind("]") + 1]`, where the one stands before the other. -/
def bracketed (raw : Text) : Option Text :=
  match raw.findIdx? (· = '['), raw.reverse.findIdx? (· = ']') with
  | some start, some back =>
    let stop := raw.length - 1 - back
    if start < stop then some ((raw.take (stop + 1)).drop start) else none
  | _, _ => none

def parsedReply (loads : Loads) (text : Text) : Option (List Text) :=
  let raw := strip text
  match loads raw with
  | some value => value
  | none => (bracketed raw).bind fun inner => (loads inner).join

/-- The ids of a window that a reply names, each where it is named first. -/
def namedIds (window values : List Text) : List Text :=
  values.foldl (fun ordered value =>
    if value ∈ window ∧ value ∉ ordered then ordered ++ [value] else ordered) []

def parseWindowOrder (loads : Loads) (text : Text) (window : List Text) : List Text :=
  match parsedReply loads text with
  | none => window
  | some values =>
    let ordered := namedIds window values
    ordered ++ window.filter fun id => id ∉ ordered

/-! ## The rerank -/

/-- `order[start:end]`. -/
def slice (order : List Text) (span : Nat × Nat) : List Text := (order.take span.2).drop span.1

/-- `order[start:end] = window`. -/
def splice (order : List Text) (span : Nat × Nat) (window : List Text) : List Text :=
  order.take span.1 ++ window ++ order.drop span.2

/-- The text a call of the model returns for its number and the ids of its window; an error is
the class of the exception that ended the round. -/
abbrev Reply := Nat → List Text → Except Text Text

section
variable (loads : Loads) (reply : Reply)

/-- The loop over the spans, from the `n`-th call on. -/
def rounds : Nat → List (Nat × Nat) → List Text → Except Text (List Text)
  | _, [], order => .ok order
  | n, span :: spans, order => do
    let text ← reply n (slice order span)
    rounds (n + 1) spans (splice order span (parseWindowOrder loads text (slice order span)))

/-- The windows that the loop asks for, with the replies to them. -/
def dialogue : Nat → List (Nat × Nat) → List Text → List (List Text × Text)
  | _, [], _ => []
  | n, span :: spans, order =>
    match reply n (slice order span) with
    | .error _ => []
    | .ok text => (slice order span, text) ::
      dialogue (n + 1) spans (splice order span (parseWindowOrder loads text (slice order span)))

end

/-- `c1`, `c2`, … -/
def candidateId (position : Nat) : Text := 'c' :: intText (position + 1)

def candidateIds (count : Nat) : List Text := (List.range count).map candidateId

structure RerankResult (α : Type) where
  ordered : List α
  changed : Bool
  fallback : Option Text

section
variable {α : Type} (loads : Loads) (pathAvailable : Bool) (reply : Reply)

def llmRerank (candidates : List α) : RerankResult α :=
  let unchanged := fun fallback : Option Text => RerankResult.mk candidates false fallback
  if candidates.length < 2 then unchanged none
  else if !pathAvailable then unchanged (some "missing_model_path".toList)
  else
    let ids := candidateIds candidates.length
    let byId := dictItems (ids.zip candidates)
    let spans := windowSpans ids.length defaultWindowSize defaultOverlap
    match rounds loads reply 0 spans ids with
    | .error name => unchanged (some ("api_error:".toList ++ name))
    | .ok order => ⟨order.filterMap fun id => getItem id byId, order ≠ ids, none⟩

/-- The windows a rerank asks for, with the replies to them. -/
def asked (candidates : List α) : List (List Text × Text) :=
  let ids := candidateIds candidates.length
  dialogue loads reply 0 (windowSpans ids.length defaultWindowSize defaultOverlap) ids

end

/-! ## Spans -/

/-- The loop covers all positions before its first end. -/
theorem spansFrom_cover (count : Nat) (stop p : Nat) (hcount : stop ≤ count) (hp : p < stop) :
    ∃ span ∈ spansFrom count defaultWindowSize defaultOverlap stop, span.1 ≤ p ∧ p < span.2 := by
  induction stop using Nat.strongRecOn with
  | ind stop ih =>
    rw [spansFrom]
    by_cases hlast : stop - defaultWindowSize = 0
    · rw [if_pos hlast]
      refine ⟨_, List.mem_singleton_self _, Nat.zero_le _, ?_⟩
      simp only [defaultWindowSize] at hlast ⊢
      omega
    · rw [if_neg hlast]
      by_cases hin : stop - defaultWindowSize ≤ p
      · exact ⟨_, List.mem_cons_self, hin, hp⟩
      · simp only [defaultWindowSize, defaultOverlap] at hlast hin ih ⊢
        obtain ⟨span, hspan, hcover⟩ := ih (stop - 5) (by omega) (by omega) (by omega)
        exact ⟨span, List.mem_cons_of_mem _ hspan, hcover⟩

/-- A list that fits in one window is one round of the loop. -/
theorem windowSpans_eq (count : Nat) (h : 0 < count) :
    windowSpans count defaultWindowSize defaultOverlap =
      spansFrom count defaultWindowSize defaultOverlap count := by
  unfold windowSpans
  rw [if_neg (by omega)]
  by_cases hfits : count ≤ defaultWindowSize
  · have hlast : count - defaultWindowSize = 0 := by omega
    rw [if_pos hfits, spansFrom, if_pos hlast, Nat.min_eq_right hfits]
  · rw [if_neg hfits]

/-! ## One window -/

section
variable (loads : Loads)

theorem namedIds_spec (window values : List Text) :
    (namedIds window values).Nodup ∧ ∀ id ∈ namedIds window values, id ∈ window := by
  have hfold : ∀ ordered : List Text, ordered.Nodup → (∀ id ∈ ordered, id ∈ window) →
      (values.foldl (fun ordered value =>
        if value ∈ window ∧ value ∉ ordered then ordered ++ [value] else ordered) ordered).Nodup ∧
      ∀ id ∈ values.foldl (fun ordered value =>
        if value ∈ window ∧ value ∉ ordered then ordered ++ [value] else ordered) ordered,
        id ∈ window := by
    induction values with
    | nil => exact fun ordered hnodup hsub => ⟨hnodup, hsub⟩
    | cons value values ih =>
      intro ordered hnodup hsub
      rw [List.foldl_cons]
      by_cases hnew : value ∈ window ∧ value ∉ ordered
      · rw [if_pos hnew]
        refine ih _ ?_ ?_
        · rw [List.nodup_append_comm, List.singleton_append, List.nodup_cons]
          exact ⟨hnew.2, hnodup⟩
        · intro id hid
          rcases List.mem_append.mp hid with hid | hid
          · exact hsub id hid
          · exact List.mem_singleton.mp hid ▸ hnew.1
      · rw [if_neg hnew]
        exact ih ordered hnodup hsub
  exact hfold [] List.nodup_nil (fun id hid => absurd hid List.not_mem_nil)

/-- **Any reply makes a permutation of the window.** -/
theorem parseWindowOrder_perm (text : Text) {window : List Text} (h : window.Nodup) :
    (parseWindowOrder loads text window).Perm window := by
  unfold parseWindowOrder
  cases parsedReply loads text with
  | none => exact List.Perm.refl _
  | some values =>
    obtain ⟨hnodup, hsub⟩ := namedIds_spec window values
    simp only
    have hnamed : (namedIds window values).Perm
        (window.filter fun id => id ∈ namedIds window values) := by
      rw [List.perm_ext_iff_of_nodup hnodup (h.filter _)]
      intro id
      rw [List.mem_filter, decide_eq_true_eq]
      exact ⟨fun hid => ⟨hsub id hid, hid⟩, And.right⟩
    have hsplit := List.filter_append_perm (fun id => decide (id ∈ namedIds window values)) window
    simp only [← decide_not] at hsplit
    exact (hnamed.append_right _).trans hsplit

theorem slice_nodup {order : List Text} (h : order.Nodup) (span : Nat × Nat) :
    (slice order span).Nodup :=
  h.sublist ((List.drop_sublist _ _).trans (List.take_sublist _ _))

theorem take_slice (order : List Text) (span : Nat × Nat) (h : span.1 ≤ span.2) :
    order.take span.1 ++ slice order span = order.take span.2 := by
  have hfront : order.take span.1 = (order.take span.2).take span.1 := by
    rw [List.take_take, Nat.min_eq_left h]
  unfold slice
  rw [hfront, List.take_append_drop]

theorem splice_perm {order : List Text} (hnodup : order.Nodup) (span : Nat × Nat)
    (h : span.1 ≤ span.2) (text : Text) :
    (splice order span (parseWindowOrder loads text (slice order span))).Perm order := by
  have hwindow := parseWindowOrder_perm loads text (slice_nodup hnodup span)
  have hmiddle := (hwindow.append_left (order.take span.1)).append_right (order.drop span.2)
  rwa [take_slice order span h, List.take_append_drop] at hmiddle

end

/-! ## A run -/

section
variable {loads : Loads} {reply : Reply}

theorem rounds_perm (spans : List (Nat × Nat)) (h : ∀ span ∈ spans, span.1 ≤ span.2) (n : Nat)
    (order order' : List Text) (hnodup : order.Nodup)
    (hrun : rounds loads reply n spans order = .ok order') : order'.Perm order := by
  induction spans generalizing n order with
  | nil =>
    cases hrun
    exact List.Perm.refl _
  | cons span spans ih =>
    obtain ⟨hspan, hspans⟩ := List.forall_mem_cons.mp h
    obtain ⟨text, -, hrest⟩ := (except_bind_eq_ok _ _ _).mp hrun
    have hround := splice_perm loads hnodup _ hspan text
    exact (ih hspans _ _ (hround.nodup_iff.mpr hnodup) hrest).trans hround

theorem spansFrom_ordered (count stop : Nat) :
    ∀ span ∈ spansFrom count defaultWindowSize defaultOverlap stop, span.1 ≤ span.2 := by
  induction stop using Nat.strongRecOn with
  | ind stop ih =>
    intro span hspan
    rw [spansFrom] at hspan
    by_cases hlast : stop - defaultWindowSize = 0
    · rw [if_pos hlast] at hspan
      rw [List.mem_singleton.mp hspan]
      exact Nat.zero_le _
    · rw [if_neg hlast] at hspan
      simp only [defaultWindowSize, defaultOverlap] at hlast hspan ih
      rcases List.mem_cons.mp hspan with rfl | hspan
      · exact Nat.sub_le _ _
      · exact ih _ (by omega) span hspan

/-- **A candidate put first in each of its windows ends first**, if it stood before the end of
the window that is asked for first. -/
theorem rounds_favourite {id : Text} (count stop : Nat) (n : Nat) (order order' : List Text)
    (hlength : order.length = count) (hnodup : order.Nodup) (hstop : stop ≤ count)
    (hid : id ∈ order.take stop)
    (hfirst : ∀ asked ∈ dialogue loads reply n
        (spansFrom count defaultWindowSize defaultOverlap stop) order,
      id ∈ asked.1 → (parseWindowOrder loads asked.2 asked.1).head? = some id)
    (hrun : rounds loads reply n
      (spansFrom count defaultWindowSize defaultOverlap stop) order = .ok order') :
    order'.head? = some id := by
  induction stop using Nat.strongRecOn generalizing n order with
  | ind stop ih =>
    rw [spansFrom] at hfirst hrun
    by_cases hlast : stop - defaultWindowSize = 0
    · rw [if_pos hlast] at hfirst hrun
      obtain ⟨text, htext, hrest⟩ := (except_bind_eq_ok _ _ _).mp hrun
      cases hrest
      have hwindow : id ∈ slice order (0, min defaultWindowSize count) := by
        unfold slice
        have hle : stop ≤ min defaultWindowSize count := by omega
        exact (List.take_sublist_take_left hle).subset hid
      have hhead := hfirst (slice order (0, min defaultWindowSize count), text)
        (by simp [dialogue, htext]) hwindow
      obtain ⟨rest, hrest⟩ := List.head?_eq_some_iff.mp hhead
      simp only at hrest
      rw [splice, hrest]
      rfl
    · rw [if_neg hlast] at hfirst hrun
      obtain ⟨text, htext, hrest⟩ := (except_bind_eq_ok _ _ _).mp hrun
      have hspan : stop - defaultWindowSize ≤ stop := Nat.sub_le _ _
      have hround := splice_perm loads hnodup (stop - defaultWindowSize, stop) hspan text
      simp only [dialogue, htext, List.forall_mem_cons] at hfirst
      have hstride : max 1 (defaultWindowSize - defaultOverlap) = 5 := rfl
      rw [hstride] at hfirst hrest
      have hlate : stop - defaultWindowSize + 1 ≤ stop - 5 := by
        simp only [defaultWindowSize] at hlast ⊢
        omega
      refine ih (stop - 5) (by omega) (n + 1) _ (by rw [hround.length_eq, hlength])
        (hround.nodup_iff.mpr hnodup) (by omega) ?_ hfirst.2 hrest
      have hfront : (order.take (stop - defaultWindowSize)).length = stop - defaultWindowSize := by
        rw [List.length_take]
        omega
      unfold splice
      rw [List.append_assoc, List.take_append, hfront]
      by_cases hwindow : id ∈ slice order (stop - defaultWindowSize, stop)
      · -- the window starts with the candidate, before the end of the next window
        obtain ⟨tail, htail⟩ := List.head?_eq_some_iff.mp (hfirst.1 hwindow)
        rw [htail]
        apply List.mem_append_right
        obtain ⟨k, hk⟩ : ∃ k, stop - 5 - (stop - defaultWindowSize) = k + 1 :=
          ⟨stop - 5 - (stop - defaultWindowSize) - 1, by omega⟩
        rw [hk, List.cons_append, List.take_succ_cons]
        exact List.mem_cons_self
      · have hbefore : id ∈ order.take (stop - defaultWindowSize) := by
          rw [← take_slice order (stop - defaultWindowSize, stop) hspan] at hid
          exact (List.mem_append.mp hid).resolve_right hwindow
        apply List.mem_append_left
        rw [List.take_of_length_le (by rw [hfront]; omega)]
        exact hbefore

end

/-! ## The rerank permutes -/

theorem candidateId_injective : Function.Injective candidateId := by
  intro m n h
  have hint := intText_injective _ _ (List.cons.inj h).2
  omega

theorem candidateIds_nodup (count : Nat) : (candidateIds count).Nodup :=
  List.nodup_range.map candidateId_injective

theorem length_candidateIds (count : Nat) : (candidateIds count).length = count := by
  unfold candidateIds
  rw [List.length_map, List.length_range]

section
variable {α : Type}

/-- The ids and the candidates they stand for. -/
def byId (candidates : List α) : List (Text × α) :=
  (candidateIds candidates.length).zip candidates

theorem keys_byId (candidates : List α) :
    (byId candidates).map Prod.fst = candidateIds candidates.length :=
  List.map_fst_zip (Nat.le_of_eq (length_candidateIds _))

theorem keys_byId_nodup (candidates : List α) : ((byId candidates).map Prod.fst).Nodup := by
  rw [keys_byId]
  exact candidateIds_nodup _

theorem getItem_candidateId (candidates : List α) (p : Nat) (hp : p < candidates.length) :
    getItem (candidateId p) (byId candidates) = some (candidates[p]) := by
  rw [getItem_eq_some_iff _ _ _ (keys_byId_nodup candidates), List.mem_iff_getElem]
  refine ⟨p, by simp [byId, length_candidateIds, hp], ?_⟩
  simp [byId, candidateIds]

theorem filterMap_candidateIds (candidates : List α) :
    (candidateIds candidates.length).filterMap (fun id => getItem id (byId candidates)) =
      candidates := by
  have hown : ∀ f ∈ byId candidates, getItem f.1 (byId candidates) = some f.2 := fun f hf =>
    (getItem_eq_some_iff _ _ _ (keys_byId_nodup candidates)).mpr hf
  rw [← keys_byId, List.filterMap_map]
  calc (byId candidates).filterMap ((fun id => getItem id (byId candidates)) ∘ Prod.fst)
      = (byId candidates).filterMap (some ∘ Prod.snd) := List.filterMap_congr hown
    _ = (byId candidates).map Prod.snd := by rw [List.filterMap_eq_map]
    _ = candidates := List.map_snd_zip (Nat.le_of_eq (length_candidateIds _).symm)

variable {loads : Loads} {pathAvailable : Bool} {reply : Reply} {candidates : List α}

/-- A rerank keeps the order it was given, or is the run of the windows. -/
theorem llmRerank_cases (loads : Loads) (pathAvailable : Bool) (reply : Reply)
    (candidates : List α) :
    (llmRerank loads pathAvailable reply candidates).ordered = candidates ∧
        (candidates.length < 2 ∨
          (llmRerank loads pathAvailable reply candidates).fallback ≠ none) ∨
      ∃ order,
        rounds loads reply 0
          (windowSpans candidates.length defaultWindowSize defaultOverlap)
          (candidateIds candidates.length) = .ok order ∧
        (llmRerank loads pathAvailable reply candidates).ordered =
          order.filterMap (fun id => getItem id (byId candidates)) ∧
        (llmRerank loads pathAvailable reply candidates).fallback = none := by
  have hdict : dictItems ((candidateIds candidates.length).zip candidates) = byId candidates :=
    dictItems_of_nodup _ (keys_byId_nodup candidates)
  unfold llmRerank
  simp only [hdict, length_candidateIds]
  by_cases hshort : candidates.length < 2
  · rw [if_pos hshort]
    exact Or.inl ⟨rfl, Or.inl hshort⟩
  rw [if_neg hshort]
  cases pathAvailable with
  | false => exact Or.inl ⟨rfl, Or.inr (by simp)⟩
  | true =>
    simp only [Bool.not_true, Bool.false_eq_true, if_false]
    cases hrun : rounds loads reply 0
        (windowSpans candidates.length defaultWindowSize defaultOverlap)
        (candidateIds candidates.length) with
    | error name => exact Or.inl ⟨rfl, Or.inr (by simp)⟩
    | ok order => exact Or.inr ⟨order, rfl, rfl, rfl⟩

/-- **The listwise rerank only permutes, and promotes from anywhere.**  Whatever the model
replies, the result is a permutation of the candidates, and the candidates as they were where
the stage fell back; every position is in some window; and a candidate that every reply about
a window of it puts first is first in the end, unless the stage fell back. -/
theorem llmRerank_permutes_and_promotes (loads : Loads) (pathAvailable : Bool) (reply : Reply)
    (candidates : List α) :
    (llmRerank loads pathAvailable reply candidates).ordered.Perm candidates ∧
      ((llmRerank loads pathAvailable reply candidates).fallback ≠ none →
        (llmRerank loads pathAvailable reply candidates).ordered = candidates) ∧
      (∀ p < candidates.length,
        ∃ span ∈ windowSpans candidates.length defaultWindowSize defaultOverlap,
          span.1 ≤ p ∧ p < span.2) ∧
      ∀ p < candidates.length,
        (∀ window ∈ asked loads reply candidates, candidateId p ∈ window.1 →
          (parseWindowOrder loads window.2 window.1).head? = some (candidateId p)) →
        (llmRerank loads pathAvailable reply candidates).fallback = none →
        (llmRerank loads pathAvailable reply candidates).ordered.head? = candidates[p]? := by
  have hspans : ∀ p < candidates.length,
      windowSpans candidates.length defaultWindowSize defaultOverlap =
        spansFrom candidates.length defaultWindowSize defaultOverlap candidates.length :=
    fun p hp => windowSpans_eq _ (by omega)
  have hnodup := candidateIds_nodup candidates.length
  rcases llmRerank_cases loads pathAvailable reply candidates with
    ⟨hsame, hwhy⟩ | ⟨order, hrun, hordered, hfallback⟩
  · refine ⟨by rw [hsame], fun _ => hsame, fun p hp => ?_, fun p hp _ hnone => ?_⟩
    · rw [hspans p hp]
      exact spansFrom_cover _ _ p (Nat.le_refl _) hp
    · have hshort : candidates.length < 2 := hwhy.resolve_right fun h => h hnone
      have hzero : p = 0 := by omega
      rw [hsame, hzero, List.head?_eq_getElem?]
  · refine ⟨?_, fun h => absurd hfallback h, fun p hp => ?_, fun p hp hfirst _ => ?_⟩
    · by_cases hempty : candidates.length = 0
      · rw [hempty] at hrun
        cases hrun
        rw [hordered, List.length_eq_zero_iff.mp hempty]
        exact List.Perm.refl _
      · rw [hspans 0 (by omega)] at hrun
        have hperm := rounds_perm _ (spansFrom_ordered _ _) 0 _ order hnodup hrun
        have hitems := hperm.filterMap fun id => getItem id (byId candidates)
        rwa [filterMap_candidateIds, ← hordered] at hitems
    · rw [hspans p hp]
      exact spansFrom_cover _ _ p (Nat.le_refl _) hp
    · have hmem : candidateId p ∈ (candidateIds candidates.length).take candidates.length := by
        rw [List.take_of_length_le (Nat.le_of_eq (length_candidateIds _))]
        exact List.mem_map_of_mem (List.mem_range.mpr hp)
      unfold asked at hfirst
      simp only [length_candidateIds] at hfirst
      rw [hspans p hp] at hrun hfirst
      have hhead := rounds_favourite _ _ 0 _ order (length_candidateIds _) hnodup (Nat.le_refl _)
        hmem hfirst hrun
      obtain ⟨rest, rfl⟩ := List.head?_eq_some_iff.mp hhead
      rw [hordered, List.filterMap_cons, getItem_candidateId candidates p hp]
      exact (List.getElem?_eq_getElem hp).symm

/-- The second of two candidates is promoted by a reply that names it alone, in a sentence. -/
theorem second_of_two_promoted :
    let loads := jsonLoads fun _ => []
    let reply : Reply := fun _ _ => .ok "Best: [\"c2\"]".toList
    (llmRerank loads true reply ['a', 'b']).ordered.head? = some 'b' := by
  intro loads reply
  refine (llmRerank_permutes_and_promotes loads true reply ['a', 'b']).2.2.2 1 (by decide) ?_ ?_
  · decide +kernel
  · decide +kernel

end

end Agentrail.ListwiseRerank
