import Agentrail.Py.Basic
import Mathlib.Algebra.Ring.Nat
import Mathlib.Data.List.Sort
import Mathlib.Order.BoundedOrder.Basic

/-!
# The token budget of a context pack (`context/packs.py`)

`_greedy_token_budget_fill` drops items of the retrieval sections, lowest score first,
until the tokens of the included items are within the budget.

Every round keeps that a droppable section holds the candidates of it that are still to
come (`Pending`): items are removed by equality, so it holds them in some order only.
-/

namespace Agentrail.BudgetFill

open Py

/-! ## Sections and items -/

inductive SectionKey where
  | requiredContext | repoOverview | availableSkills | availableTools
  | likelyFiles | likelyDocs | relevantMemory | memoryLane | priorMistakes | activeState | goals
  | excludedContext | openQuestions
  deriving DecidableEq

/-- `PACK_SECTION_KEYS`. -/
def packSectionKeys : List SectionKey := [
  .requiredContext, .repoOverview, .availableSkills, .availableTools,
  .likelyFiles, .likelyDocs, .relevantMemory, .memoryLane, .priorMistakes, .activeState, .goals,
  .excludedContext, .openQuestions]

/-- `_RETRIEVAL_SECTION_KEYS`, the sections whose items may be dropped. -/
def retrievalSectionKeys : List SectionKey := [
  .likelyFiles, .likelyDocs, .relevantMemory, .priorMistakes, .activeState]

def includedSections : List SectionKey :=
  packSectionKeys.filter fun key => key ≠ .excludedContext && key ≠ .openQuestions

/-- An item of a pack, with scores in `S`: the floats but NaN. -/
structure Item (S ρ : Type) where
  /-- `item["content"]` where it is a string -/
  content : Option Text
  /-- `item["score"]["final"]` where it is a number -/
  final : Option S
  /-- the other fields -/
  fields : ρ
  deriving DecidableEq

/-- `sections.get(key, [])` of every key. -/
abbrev Sections (S ρ : Type) := SectionKey → List (Item S ρ)

def estimateTokens (text : Text) : Nat := (text.length + 3) / 4

section
variable {S ρ : Type}

def itemTokens (item : Item S ρ) : Nat := (item.content.map estimateTokens).getD 0

def tokensOf (items : List (Item S ρ)) : Nat := (items.map itemTokens).sum

def includedTokens (sections : Sections S ρ) : Nat := tokensOf (includedSections.flatMap sections)

/-- The items of all sections. -/
def allItems (sections : Sections S ρ) : List (Item S ρ) := packSectionKeys.flatMap sections

/-- `sections[key].remove(item)`. -/
def remove [DecidableEq S] [DecidableEq ρ] (sections : Sections S ρ) (key : SectionKey)
    (item : Item S ρ) : Sections S ρ :=
  Function.update sections key ((sections key).erase item)

/-! ## The fill -/

abbrev Candidates (S ρ : Type) := List (SectionKey × Item S ρ)

/-- Infinity where there is no score. -/
def scoreFinal [LinearOrder S] [OrderTop S] (item : Item S ρ) : S := item.final.getD ⊤

def candidates [LinearOrder S] [OrderTop S] (sections : Sections S ρ) : Candidates S ρ :=
  (retrievalSectionKeys.flatMap fun key => (sections key).map fun item => (key, item)).insertionSort
    fun left right => scoreFinal left.2 ≤ scoreFinal right.2

/-- The loop over the candidates. -/
def fillLoop [DecidableEq S] [DecidableEq ρ] (budget : Int) :
    Candidates S ρ → Sections S ρ → List (Item S ρ) → Sections S ρ × List (Item S ρ)
  | [], sections, dropped => (sections, dropped)
  | (key, item) :: rest, sections, dropped =>
    if includedTokens sections ≤ budget then (sections, dropped)
    else if item ∈ sections key then
      fillLoop budget rest (remove sections key item) (dropped ++ [item])
    -- the `ValueError` of an item that is not there
    else fillLoop budget rest sections dropped

/-- The sections after the fill, and the items dropped, in order. -/
def greedyTokenBudgetFill [LinearOrder S] [OrderTop S] [DecidableEq ρ] (budget : Int)
    (sections : Sections S ρ) : Sections S ρ × List (Item S ρ) :=
  if includedTokens sections ≤ budget then (sections, [])
  else fillLoop budget (candidates sections) sections []

/-! ## One removal -/

/-- Where one of distinct keys has an item more, so have all of them together. -/
theorem flatMap_perm {κ α : Type} {f g : κ → List α} {key : κ} {x : α}
    (hkey : (f key).Perm (x :: g key)) (hother : ∀ k, k ≠ key → f k = g k) {keys : List κ}
    (hnodup : keys.Nodup) (hin : key ∈ keys) : (keys.flatMap f).Perm (x :: keys.flatMap g) := by
  induction keys with
  | nil => cases hin
  | cons k keys ih =>
    obtain ⟨hk, hnodup⟩ := List.nodup_cons.mp hnodup
    rw [List.flatMap_cons, List.flatMap_cons]
    by_cases he : k = key
    · subst he
      have hsame : keys.flatMap f = keys.flatMap g := by
        rw [List.flatMap_congr]
        intro k' hk'
        exact hother k' fun h => hk (h ▸ hk')
      rw [hsame]
      exact hkey.append_right _
    · have hin' : key ∈ keys := (List.mem_cons.mp hin).resolve_left fun h => he h.symm
      rw [hother k he]
      exact ((ih hnodup hin').append_left _).trans List.perm_middle

section
variable [DecidableEq S] [DecidableEq ρ]
variable {sections : Sections S ρ} {key : SectionKey} {item : Item S ρ}

theorem remove_self : remove sections key item key = (sections key).erase item :=
  Function.update_self ..

theorem remove_of_ne {k : SectionKey} (h : k ≠ key) : remove sections key item k = sections k :=
  Function.update_of_ne h ..

theorem flatMap_remove (hitem : item ∈ sections key) {keys : List SectionKey}
    (hnodup : keys.Nodup) (hin : key ∈ keys) :
    (keys.flatMap sections).Perm (item :: keys.flatMap (remove sections key item)) := by
  refine flatMap_perm ?_ (fun k hk => (remove_of_ne hk).symm) hnodup hin
  rw [remove_self]
  exact List.perm_cons_erase hitem

theorem allItems_remove (hitem : item ∈ sections key) :
    (allItems sections).Perm (item :: allItems (remove sections key item)) := by
  have hall : ∀ k : SectionKey, k ∈ packSectionKeys := by
    intro k
    cases k <;> decide
  exact flatMap_remove hitem (by decide) (hall key)

theorem includedTokens_remove (hkey : key ∈ retrievalSectionKeys) (hitem : item ∈ sections key) :
    includedTokens sections =
      itemTokens item + includedTokens (remove sections key item) := by
  have hincluded : ∀ k ∈ retrievalSectionKeys, k ∈ includedSections := by decide
  have hperm := (flatMap_remove hitem (by decide) (hincluded key hkey)).map itemTokens
  unfold includedTokens tokensOf
  rw [hperm.sum_nat, List.map_cons, List.sum_cons]

end

/-! ## The candidates to come -/

/-- The items of one section among candidates. -/
def ofSection (key : SectionKey) (cs : Candidates S ρ) : List (Item S ρ) :=
  (cs.filter fun c => c.1 = key).map Prod.snd

/-- The droppable sections hold the candidates `cs`. -/
def Pending (sections : Sections S ρ) (cs : Candidates S ρ) : Prop :=
  ∀ key ∈ retrievalSectionKeys, (sections key).Perm (ofSection key cs)

theorem ofSection_perm (key : SectionKey) {cs cs' : Candidates S ρ} (h : cs.Perm cs') :
    (ofSection key cs).Perm (ofSection key cs') := (h.filter _).map _

theorem ofSection_flatMap (sections : Sections S ρ) {keys : List SectionKey} (hnodup : keys.Nodup)
    {key : SectionKey} (hin : key ∈ keys) :
    ofSection key (keys.flatMap fun k => (sections k).map fun item => (k, item)) =
      sections key := by
  have hown : ∀ k, ofSection key ((sections k).map fun item => (k, item)) =
      if k = key then sections k else [] := by
    intro k
    unfold ofSection
    by_cases he : k = key
    · simp [he, List.filter_map, Function.comp_def]
    · simp [he, List.filter_map, Function.comp_def]
  induction keys with
  | nil => cases hin
  | cons k keys ih =>
    obtain ⟨hk, hnodup⟩ := List.nodup_cons.mp hnodup
    have happend : ofSection key ((k :: keys).flatMap fun k => (sections k).map fun i => (k, i)) =
        (if k = key then sections k else []) ++
          ofSection key (keys.flatMap fun k => (sections k).map fun i => (k, i)) := by
      rw [← hown k, List.flatMap_cons]
      unfold ofSection
      rw [List.filter_append, List.map_append]
    rw [happend]
    by_cases he : k = key
    · subst he
      have hnone : ofSection k (keys.flatMap fun k => (sections k).map fun i => (k, i)) = [] := by
        unfold ofSection
        rw [List.map_eq_nil_iff, List.filter_eq_nil_iff]
        intro c hc hck
        obtain ⟨k', hk', hc'⟩ := List.mem_flatMap.mp hc
        obtain ⟨i, _, rfl⟩ := List.mem_map.mp hc'
        exact hk (of_decide_eq_true hck ▸ hk')
      rw [if_pos rfl, hnone, List.append_nil]
    · rw [if_neg he, List.nil_append]
      exact ih hnodup ((List.mem_cons.mp hin).resolve_left fun h => he h.symm)

section
variable [LinearOrder S] [OrderTop S]

theorem pending_candidates (sections : Sections S ρ) :
    Pending sections (candidates sections) := by
  intro key hkey
  have hall := ofSection_flatMap sections (by decide : retrievalSectionKeys.Nodup) hkey
  have hperm := ofSection_perm key (List.perm_insertionSort
    (fun left right : SectionKey × Item S ρ => scoreFinal left.2 ≤ scoreFinal right.2)
    (retrievalSectionKeys.flatMap fun k => (sections k).map fun item => (k, item)))
  rw [hall] at hperm
  exact hperm.symm

theorem mem_retrieval_of_mem_candidates {sections : Sections S ρ} {c : SectionKey × Item S ρ}
    (h : c ∈ candidates sections) : c.1 ∈ retrievalSectionKeys := by
  unfold candidates at h
  rw [List.mem_insertionSort, List.mem_flatMap] at h
  obtain ⟨key, hkey, hc⟩ := h
  obtain ⟨item, _, rfl⟩ := List.mem_map.mp hc
  exact hkey

theorem candidates_pairwise (sections : Sections S ρ) :
    (candidates sections).Pairwise fun left right => scoreFinal left.2 ≤ scoreFinal right.2 :=
  List.pairwise_insertionSort _ _

end

/-- The first candidate is in its section, and removing it leaves the others to come. -/
theorem Pending.step [DecidableEq S] [DecidableEq ρ] {sections : Sections S ρ}
    {key : SectionKey} {item : Item S ρ}
    {rest : Candidates S ρ} (h : Pending sections ((key, item) :: rest))
    (hkey : key ∈ retrievalSectionKeys) :
    item ∈ sections key ∧ Pending (remove sections key item) rest := by
  have hfirst : (sections key).Perm (item :: ofSection key rest) := by
    have hperm := h key hkey
    unfold ofSection at hperm ⊢
    rwa [List.filter_cons_of_pos (by simp), List.map_cons] at hperm
  have hin : item ∈ sections key := hfirst.mem_iff.mpr List.mem_cons_self
  refine ⟨hin, fun k hk => ?_⟩
  by_cases he : k = key
  · subst he
    rw [remove_self]
    exact (List.cons_perm_iff_perm_erase.mp hfirst.symm).2.symm
  · have hperm := h k hk
    unfold ofSection at hperm ⊢
    rw [List.filter_cons_of_neg (by simpa using Ne.symm he)] at hperm
    rwa [remove_of_ne he]

/-! ## The run -/

/-- What the loop has done when it stops: it dropped the candidates `front` and left `back`. -/
structure Filled (budget : Int) (before after : Sections S ρ) (front back : Candidates S ρ) :
    Prop where
  pending : Pending after back
  conserved : (allItems after ++ front.map Prod.snd).Perm (allItems before)
  tokens : includedTokens before = includedTokens after + tokensOf (front.map Prod.snd)
  protected_eq : ∀ key ∉ retrievalSectionKeys, after key = before key
  enough : (includedTokens after : Int) ≤ budget ∨ back = []
  needed : ∀ init last, front = init ++ [last] →
    budget < includedTokens after + itemTokens last.2

theorem Filled.nothing {budget : Int} {sections : Sections S ρ} {cs : Candidates S ρ}
    (hpending : Pending sections cs) (h : (includedTokens sections : Int) ≤ budget ∨ cs = []) :
    Filled budget sections sections [] cs where
  pending := hpending
  conserved := by rw [List.map_nil, List.append_nil]
  tokens := rfl
  protected_eq _ _ := rfl
  enough := h
  needed init last hfront := absurd hfront (by simp)

/-- A round that drops an item, before the rest of the run. -/
theorem Filled.drop [DecidableEq S] [DecidableEq ρ] {budget : Int} {before after : Sections S ρ}
    {key : SectionKey} {item : Item S ρ} {front back : Candidates S ρ}
    (hkey : key ∈ retrievalSectionKeys) (hin : item ∈ before key)
    (hover : ¬ (includedTokens before : Int) ≤ budget)
    (h : Filled budget (remove before key item) after front back) :
    Filled budget before after ((key, item) :: front) back where
  pending := h.pending
  conserved := by
    rw [List.map_cons]
    exact (List.perm_middle.trans (h.conserved.cons _)).trans (allItems_remove hin).symm
  tokens := by
    have hone := includedTokens_remove hkey hin
    have hrest := h.tokens
    simp only [tokensOf, List.map_cons, List.sum_cons] at hrest ⊢
    omega
  protected_eq k hk := by
    have hne : k ≠ key := by
      rintro rfl
      exact hk hkey
    rw [h.protected_eq k hk, remove_of_ne hne]
  enough := h.enough
  needed init last hlast := by
    cases init with
    | nil =>
      obtain ⟨rfl, rfl⟩ := List.cons.inj hlast
      have hone := includedTokens_remove hkey hin
      have hrest : includedTokens (remove before key item) = includedTokens after := h.tokens
      simp only
      omega
    | cons d init => exact h.needed init last (List.cons.inj hlast).2

theorem fillLoop_filled [DecidableEq S] [DecidableEq ρ] (budget : Int) (cs : Candidates S ρ)
    (sections : Sections S ρ)
    (dropped : List (Item S ρ)) (hpending : Pending sections cs)
    (hkeys : ∀ c ∈ cs, c.1 ∈ retrievalSectionKeys) :
    ∃ front back, cs = front ++ back ∧
      (fillLoop budget cs sections dropped).2 = dropped ++ front.map Prod.snd ∧
      Filled budget sections (fillLoop budget cs sections dropped).1 front back := by
  induction cs generalizing sections dropped with
  | nil => exact ⟨[], [], rfl, by simp [fillLoop], .nothing hpending (Or.inr rfl)⟩
  | cons c cs ih =>
    obtain ⟨key, item⟩ := c
    obtain ⟨hkey, hkeys⟩ := List.forall_mem_cons.mp hkeys
    unfold fillLoop
    by_cases hfits : (includedTokens sections : Int) ≤ budget
    · rw [if_pos hfits]
      exact ⟨[], (key, item) :: cs, rfl, by simp, .nothing hpending (Or.inl hfits)⟩
    obtain ⟨hin, hnext⟩ := hpending.step hkey
    rw [if_neg hfits, if_pos hin]
    obtain ⟨front, back, rfl, hdropped, hfilled⟩ :=
      ih (remove sections key item) (dropped ++ [item]) hnext hkeys
    refine ⟨(key, item) :: front, back, rfl, ?_, hfilled.drop hkey hin hfits⟩
    rw [hdropped, List.map_cons, List.append_assoc, List.singleton_append]

section
variable [LinearOrder S] [OrderTop S] [DecidableEq ρ]

/-- The whole fill drops a start of the candidates. -/
theorem greedyTokenBudgetFill_filled (budget : Int) (sections : Sections S ρ) :
    ∃ front back, candidates sections = front ++ back ∧
      (greedyTokenBudgetFill budget sections).2 = front.map Prod.snd ∧
      Filled budget sections (greedyTokenBudgetFill budget sections).1 front back := by
  unfold greedyTokenBudgetFill
  by_cases hfits : (includedTokens sections : Int) ≤ budget
  · rw [if_pos hfits]
    exact ⟨[], _, rfl, rfl, .nothing (pending_candidates sections) (Or.inl hfits)⟩
  · rw [if_neg hfits]
    obtain ⟨front, back, hcs, hdropped, hfilled⟩ := fillLoop_filled budget (candidates sections)
      sections [] (pending_candidates sections) fun _ hc => mem_retrieval_of_mem_candidates hc
    exact ⟨front, back, hcs, hdropped, hfilled⟩

/-- **The fill drops the right items.**  What is left is within the budget or cannot be cut
further; nothing is lost and no protected section touched; no item is dropped while one of a
lower score stays; and the last drop was needed. -/
theorem greedyTokenBudgetFill_drops (budget : Int) (sections : Sections S ρ) :
    let remaining := (greedyTokenBudgetFill budget sections).1
    let dropped := (greedyTokenBudgetFill budget sections).2
    ((includedTokens remaining : Int) ≤ budget ∨
        ∀ key ∈ retrievalSectionKeys, remaining key = []) ∧
      (allItems remaining ++ dropped).Perm (allItems sections) ∧
      (∀ key ∉ retrievalSectionKeys, remaining key = sections key) ∧
      (∀ item ∈ dropped, ∀ key ∈ retrievalSectionKeys, ∀ kept ∈ remaining key,
        scoreFinal item ≤ scoreFinal kept) ∧
      ∀ init last, dropped = init ++ [last] →
        budget < includedTokens remaining + itemTokens last := by
  obtain ⟨front, back, hcs, hdropped, hfilled⟩ := greedyTokenBudgetFill_filled budget sections
  intro remaining dropped
  have hdrop : dropped = front.map Prod.snd := hdropped
  have hsorted := candidates_pairwise sections
  rw [hcs] at hsorted
  refine ⟨?_, ?_, hfilled.protected_eq, ?_, ?_⟩
  · refine hfilled.enough.imp_right fun hnil key hkey => ?_
    have hempty := hfilled.pending key hkey
    rw [hnil] at hempty
    exact List.perm_nil.mp hempty
  · rw [hdrop]
    exact hfilled.conserved
  · intro item hitem key hkey kept hkept
    rw [hdrop] at hitem
    obtain ⟨c, hc, rfl⟩ := List.mem_map.mp hitem
    obtain ⟨d, hd, rfl⟩ := List.mem_map.mp ((hfilled.pending key hkey).mem_iff.mp hkept)
    exact (List.pairwise_append.mp hsorted).2.2 c hc d (List.mem_of_mem_filter hd)
  · intro init last hlast
    rw [hdrop] at hlast
    obtain ⟨init', tail, rfl, _, htail⟩ := List.map_eq_append_iff.mp hlast
    obtain ⟨c, rfl, rfl⟩ := List.map_eq_singleton_iff.mp htail
    exact hfilled.needed init' c rfl

end

end

end Agentrail.BudgetFill
