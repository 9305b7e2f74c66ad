import Agentrail.Lib.FirstByKey
import Agentrail.Lib.Text
import Agentrail.Py.Basic
import Mathlib.Algebra.Order.Ring.Rat
import Mathlib.Data.List.Perm.Subperm
import Mathlib.Data.List.Sort

/-!
# The recall layer (`query_context` of `context/retrieval.py`)

With symbols injected, the pack is guarded by that of a query without them: members of the
baseline that score at least half of its best and whose file is gone are put back.  Then the
definitions of imported symbols are promoted into the places of the weakest members that nothing
protects.  Both steps tell members apart by one key, made of the ids and the citation.

`recallMonotone_iff`: where a key stands for one file, the layer loses no such file, and it repeats
no result and keeps the size of the pack exactly if no member that stays has the key of another.
-/

namespace Agentrail.Recall

open Py FirstByKey

/-! ## The results -/

/-- A result, its missing fields empty. -/
structure Item where
  path : Text
  sourceId : Text
  chunkId : Text
  citation : Text
  symbol : Text
  symbolKind : Text
  /-- `score["final"]`, if there is one and it is a number -/
  final : Option ℚ
  deriving DecidableEq

/-- An entry of `symbolTable`. -/
structure SymbolEntry where
  path : Text
  authority : Text
  deriving DecidableEq

/-- What a query brings to the layer. -/
structure Query where
  limit : ℕ
  anchorPaths : List Text
  seedAnchorPaths : List Text
  /-- `cross_file_imported_symbols` of some paths -/
  importedSymbols : List Text → List Text
  /-- `index["symbolTable"]`, empty for a name that it does not hold -/
  symbolTable : Text → List SymbolEntry
  /-- `results`, the ranking that the pack is the head of -/
  results : List Item

/-- `_RECALL_GUARD_SCORE_RATIO`. -/
def recallGuardScoreRatio : ℚ := 1 / 2

/-- `_DEF_AWARE_SEED_TOPK`. -/
def defAwareSeedTopk : ℕ := 1

/-- `_DEFINITION_KINDS`. -/
def definitionKinds : List Text :=
  ["function".toList, "class".toList, "method".toList, "interface".toList, "type".toList,
    "enum".toList, "struct".toList, "const".toList, "constant".toList, "var".toList,
    "module".toList, "namespace".toList, "trait".toList, "impl".toList]

/-- `str(chunkId or sourceId or citation or path)`. -/
def Item.key (item : Item) : Text :=
  if item.chunkId ≠ [] then item.chunkId
  else if item.sourceId ≠ [] then item.sourceId
  else if item.citation ≠ [] then item.citation
  else item.path

section
variable (q : Query)

/-! ## The guard -/

/-- The part of the baseline's score that is worth protecting. -/
def floor (baseline : List Item) : ℚ :=
  recallGuardScoreRatio * (((baseline.take q.limit).filterMap Item.final).max?.getD 0)

/-- A member of the baseline with a file and a score of at least the floor. -/
def confident (baseline : List Item) (r : Item) : Bool :=
  r.path ≠ [] && r.final.any fun final => floor q baseline ≤ final

def dropped (baseline formatted : List Item) : List Item :=
  (baseline.take q.limit).filter fun r =>
    confident q baseline r && r.path ∉ formatted.map Item.path

def guarded (baseline formatted : List Item) : List Item :=
  let dropped := dropped q baseline formatted
  if dropped = [] then formatted
  else
    let keepN := min formatted.length q.limit - dropped.length
    firstByKey Item.key [] (formatted.take keepN ++ dropped ++ formatted.drop keepN)

/-! ## The promotion of definitions -/

/-- The loop that collects `promo_seed_paths`, up to `room` of them. -/
def addSeedPaths (room : ℕ) (paths : List Text) : List Item → List Text
  | [] => paths
  | item :: rest =>
    if room ≤ paths.length then paths
    else addSeedPaths room
      (if item.symbolKind ≠ [] && item.path ≠ [] && item.path ∉ paths then paths ++ [item.path]
      else paths) rest

def promoSeedPaths (pack : List Item) : List Text :=
  addSeedPaths (defAwareSeedTopk + q.anchorPaths.length) q.anchorPaths pack

/-- The names that some other file defines, with the files. -/
def definitionSitePaths (seedPaths names : List Text) : List (Text × List Text) :=
  names.filterMap fun name =>
    let paths := ((q.symbolTable name).filter fun rec =>
      rec.authority ≠ "denied".toList && rec.path ≠ [] && rec.path ∉ seedPaths).map SymbolEntry.path
    if paths = [] then none else some (name, paths)

/-- `def_site_map.get(name)`. -/
def sitesOf (sites : List (Text × List Text)) (name : Text) : List Text :=
  (sites.lookup name).getD []

def selectDefinitionPromotions (sites : List (Text × List Text)) (excluded : List Text)
    (seenFiles : List Text) : List Item → List Item
  | [] => []
  | cand :: rest =>
    if cand.symbol = [] || cand.path = [] || cand.path ∈ excluded || cand.path ∈ seenFiles ||
        cand.path ∉ sitesOf sites cand.symbol || cand.symbolKind ∉ definitionKinds then
      selectDefinitionPromotions sites excluded seenFiles rest
    else cand :: selectDefinitionPromotions sites excluded (cand.path :: seenFiles) rest

def defSiteMap (pack : List Item) : List (Text × List Text) :=
  let seeds := promoSeedPaths q pack
  definitionSitePaths q seeds (q.importedSymbols seeds)

def promotions (pack : List Item) : List Item :=
  let sites := defSiteMap q pack
  let defCandidates := q.results.filter fun entry => entry.path ∈ sitesOf sites entry.symbol
  selectDefinitionPromotions sites (pack.map Item.path) [] defCandidates

def finalOf (item : Item) : ℚ := item.final.getD 0

/-- Neither a seed nor a definition of an imported symbol nor a confident member of the baseline. -/
def protectedFiles (baseline pack : List Item) : List Text :=
  q.seedAnchorPaths ++ (defSiteMap q pack).flatMap Prod.snd ++
    ((baseline.take q.limit).filter (confident q baseline)).map Item.path

def displaceable (baseline pack : List Item) : List Item :=
  (pack.filter fun item => item.path ∉ protectedFiles q baseline pack).insertionSort
    fun item other => finalOf item ≤ finalOf other

/-- The promotion, which does nothing where no definition or no place for one is found. -/
def promote (baseline pack : List Item) : List Item :=
  let promotions := promotions q pack
  let displaceable := displaceable q baseline pack
  let n := min promotions.length displaceable.length
  if n = 0 then pack
  else
    let evict := (displaceable.take n).map Item.key
    let kept := pack.filter fun item => item.key ∉ evict
    firstByKey Item.key [] (kept ++ promotions.take n)

/-- The results of a query with the results before the layer. -/
def recalled (baseline formatted : List Item) : List Item :=
  promote q baseline (guarded q baseline formatted)

/-! ## What the layer is for -/

/-- No confident file of the baseline is lost, no result occurs twice, and the promotion keeps the
size of the pack. -/
structure RecallMonotone (baseline formatted : List Item) : Prop where
  survives : ∀ r ∈ baseline.take q.limit, confident q baseline r = true →
    ∃ item ∈ recalled q baseline formatted, item.path = r.path
  once : ((recalled q baseline formatted).map Item.key).Nodup
  size : (recalled q baseline formatted).length = (guarded q baseline formatted).length

/-- A key stands for one file: ids and citations are made from the path. -/
def KeysNameFiles (items : List Item) : Prop :=
  ∀ x ∈ items, ∀ y ∈ items, x.key = y.key → x.path = y.path

/-- The members whose places the promotion takes. -/
def displaced (baseline pack : List Item) : List Item :=
  let displaceable := displaceable q baseline pack
  displaceable.take (min (promotions q pack).length displaceable.length)

/-- No member that stays in the pack has the key of another member. -/
structure Apart (baseline pack : List Item) : Prop where
  stay : ((pack.diff (displaced q baseline pack)).map Item.key).Nodup
  leave : ∀ item ∈ pack.diff (displaced q baseline pack), ∀ gone ∈ displaced q baseline pack,
    item.key ≠ gone.key

variable {q} {baseline formatted pack : List Item}

/-! ## The guard -/

theorem mem_of_mem_guarded {item : Item} (h : item ∈ guarded q baseline formatted) :
    item ∈ formatted ++ baseline := by
  unfold guarded at h
  by_cases hdropped : dropped q baseline formatted = []
  · rw [if_pos hdropped] at h
    exact List.mem_append_left _ h
  · rw [if_neg hdropped] at h
    replace h := (firstByKey_sublist _ _).mem h
    rw [List.append_assoc] at h
    obtain h | h := List.mem_append.1 h
    · exact List.mem_append_left _ (List.mem_of_mem_take h)
    obtain h | h := List.mem_append.1 h
    · exact List.mem_append_right _ (List.mem_of_mem_take (List.mem_filter.1 h).1)
    · exact List.mem_append_left _ (List.mem_of_mem_drop h)

/-- What the guard works on is in the pack, if only under its key. -/
theorem exists_mem_guarded {item : Item}
    (h : item ∈ formatted ∨ item ∈ dropped q baseline formatted) :
    ∃ x ∈ guarded q baseline formatted, x.key = item.key := by
  unfold guarded
  by_cases hdropped : dropped q baseline formatted = []
  · rw [hdropped] at h
    rw [if_pos hdropped]
    exact ⟨item, h.resolve_right List.not_mem_nil, rfl⟩
  · rw [if_neg hdropped]
    refine exists_mem ?_ List.not_mem_nil
    rw [List.append_assoc, List.mem_append, List.mem_append]
    obtain h | h := h
    · rw [← List.take_append_drop
        (min formatted.length q.limit - (dropped q baseline formatted).length) formatted] at h
      obtain h | h := List.mem_append.1 h
      · exact Or.inl h
      · exact Or.inr (Or.inr h)
    · exact Or.inr (Or.inl h)

/-- No confident file of the baseline leaves the guarded pack. -/
theorem guarded_survives (hkeys : KeysNameFiles (formatted ++ baseline)) {r : Item}
    (hr : r ∈ baseline.take q.limit) (hconf : confident q baseline r = true) :
    ∃ x ∈ guarded q baseline formatted, x.path = r.path := by
  by_cases hpath : r.path ∈ formatted.map Item.path
  · obtain ⟨item, hitem, heq⟩ := List.mem_map.1 hpath
    obtain ⟨x, hx, hkey⟩ := exists_mem_guarded (Or.inl hitem)
    refine ⟨x, hx, (hkeys x (mem_of_mem_guarded hx) item ?_ hkey).trans heq⟩
    exact List.mem_append_left _ hitem
  · have hdropped : r ∈ dropped q baseline formatted := by
      refine List.mem_filter.2 ⟨hr, ?_⟩
      simp only [hconf, hpath, not_false_eq_true, decide_true, Bool.and_self]
    obtain ⟨x, hx, hkey⟩ := exists_mem_guarded (Or.inr hdropped)
    refine ⟨x, hx, hkeys x (mem_of_mem_guarded hx) r ?_ hkey⟩
    exact List.mem_append_right _ (List.mem_of_mem_take hr)

/-! ## The promotion -/

theorem mem_selectDefinitionPromotions {sites : List (Text × List Text)}
    {excluded seen : List Text} {candidates : List Item} {item : Item}
    (h : item ∈ selectDefinitionPromotions sites excluded seen candidates) :
    item ∈ candidates ∧ item.path ∉ excluded ∧ item.path ∉ seen := by
  induction candidates generalizing seen with
  | nil => exact absurd h List.not_mem_nil
  | cons cand rest ih =>
    unfold selectDefinitionPromotions at h
    split at h
    · obtain ⟨hmem, hout⟩ := ih h
      exact ⟨List.mem_cons_of_mem _ hmem, hout⟩
    · next hcand =>
      obtain rfl | h := List.mem_cons.1 h
      · simp only [Bool.or_eq_true, decide_eq_true_eq, not_or] at hcand
        exact ⟨List.mem_cons_self, hcand.1.1.1.2, hcand.1.1.2⟩
      · obtain ⟨hmem, hout, hseen⟩ := ih h
        exact ⟨List.mem_cons_of_mem _ hmem, hout, fun hs => hseen (List.mem_cons_of_mem _ hs)⟩

/-- One promotion a file. -/
theorem nodup_selectDefinitionPromotions (sites : List (Text × List Text))
    (excluded seen : List Text) (candidates : List Item) :
    ((selectDefinitionPromotions sites excluded seen candidates).map Item.path).Nodup := by
  induction candidates generalizing seen with
  | nil => exact List.nodup_nil
  | cons cand rest ih =>
    unfold selectDefinitionPromotions
    split
    · exact ih seen
    · rw [List.map_cons, List.nodup_cons]
      refine ⟨fun hmem => ?_, ih _⟩
      obtain ⟨item, hitem, heq⟩ := List.mem_map.1 hmem
      exact (mem_selectDefinitionPromotions hitem).2.2 (heq ▸ List.mem_cons_self)

theorem mem_promotions {item : Item} (h : item ∈ promotions q pack) :
    item ∈ q.results ∧ item.path ∉ pack.map Item.path := by
  obtain ⟨hmem, hout, _⟩ := mem_selectDefinitionPromotions h
  exact ⟨(List.mem_filter.1 hmem).1, hout⟩

theorem displaced_subperm : (displaced q baseline pack).Subperm pack := by
  refine (List.take_sublist _ _).subperm.trans ?_
  exact (List.perm_insertionSort _ _).subperm.trans List.filter_sublist.subperm

theorem unprotected_of_mem_displaced {item : Item} (h : item ∈ displaced q baseline pack) :
    item.path ∉ protectedFiles q baseline pack := by
  have hmem := (List.perm_insertionSort _ _).mem_iff.1 (List.mem_of_mem_take h)
  simpa using (List.mem_filter.1 hmem).2

/-- The pack is what is displaced and what stays. -/
theorem perm_displaced :
    (displaced q baseline pack ++ pack.diff (displaced q baseline pack)).Perm pack :=
  List.subperm_append_diff_self_of_count_le fun x _ => displaced_subperm.count_le x

/-- The members that keep their place. -/
def kept (displaced pack : List Item) : List Item :=
  pack.filter fun item => item.key ∉ displaced.map Item.key

theorem promote_eq :
    promote q baseline pack =
      if displaced q baseline pack = [] then pack
      else firstByKey Item.key [] (kept (displaced q baseline pack) pack ++
        (promotions q pack).take (displaced q baseline pack).length) := by
  have hlen : (displaced q baseline pack).length =
      min (promotions q pack).length (displaceable q baseline pack).length := by
    simp only [displaced, List.length_take]
    omega
  have hnil : displaced q baseline pack = [] ↔
      min (promotions q pack).length (displaceable q baseline pack).length = 0 := by
    rw [← hlen, List.length_eq_zero_iff]
  by_cases h : displaced q baseline pack = []
  · rw [if_pos h]
    exact if_pos (hnil.1 h)
  · rw [if_neg h, hlen]
    exact if_neg fun h' => h (hnil.2 h')

theorem kept_perm {gone rest : List Item} (h : (gone ++ rest).Perm pack) :
    (kept gone pack).Perm (kept gone rest) := by
  have hfilter := h.filter fun item => decide (item.key ∉ gone.map Item.key)
  have hgone : gone.filter (fun item => decide (item.key ∉ gone.map Item.key)) = [] := by
    rw [List.filter_eq_nil_iff]
    intro item hitem
    simpa using ⟨item, hitem, rfl⟩
  rw [List.filter_append, hgone, List.nil_append] at hfilter
  exact hfilter.symm

theorem key_ne_of_mem_promotions (hkeys : KeysNameFiles (pack ++ q.results)) {item x : Item}
    (hitem : item ∈ promotions q pack) (hx : x ∈ pack) : item.key ≠ x.key := by
  obtain ⟨hmem, hout⟩ := mem_promotions hitem
  intro hkey
  apply hout
  rw [hkeys item (List.mem_append_right _ hmem) x (List.mem_append_left _ hx) hkey]
  exact List.mem_map_of_mem hx

theorem nodup_key_promotions (hkeys : KeysNameFiles (pack ++ q.results)) :
    ((promotions q pack).map Item.key).Nodup := by
  have hpaths : ((promotions q pack).map Item.path).Nodup :=
    nodup_selectDefinitionPromotions _ _ _ _
  rw [List.Nodup, List.pairwise_map] at hpaths ⊢
  refine hpaths.imp_of_mem fun hx hy hne hkey => hne ?_
  exact hkeys _ (List.mem_append_right _ (mem_promotions hx).1) _
    (List.mem_append_right _ (mem_promotions hy).1) hkey

/-- The promotions all get in, behind the members that keep their place. -/
theorem promote_eq_append (hkeys : KeysNameFiles (pack ++ q.results))
    (h : displaced q baseline pack ≠ []) :
    promote q baseline pack =
      firstByKey Item.key [] (kept (displaced q baseline pack) pack) ++
        (promotions q pack).take (displaced q baseline pack).length := by
  rw [promote_eq, if_neg h]
  refine firstByKey_append ?_ (fun _ _ => List.not_mem_nil) fun y hy x hx => ?_
  · exact (nodup_key_promotions hkeys).sublist ((List.take_sublist _ _).map _)
  · exact key_ne_of_mem_promotions hkeys (List.mem_of_mem_take hy) (List.mem_filter.1 hx).1

theorem length_promote (hkeys : KeysNameFiles (pack ++ q.results))
    (h : displaced q baseline pack ≠ []) :
    (promote q baseline pack).length =
      (firstByKey Item.key [] (kept (displaced q baseline pack) pack)).length +
        (displaced q baseline pack).length := by
  have hle : (displaced q baseline pack).length ≤ (promotions q pack).length := by
    simp only [displaced, List.length_take]
    omega
  rw [promote_eq_append hkeys h, List.length_append, List.length_take, Nat.min_eq_left hle]

/-- What is protected is not promoted away. -/
theorem promote_survives (hkeys : KeysNameFiles (pack ++ q.results)) {x : Item} (hx : x ∈ pack)
    (hpath : x.path ∈ protectedFiles q baseline pack) :
    ∃ y ∈ promote q baseline pack, y.path = x.path := by
  have hname : ∀ y ∈ pack, y.key = x.key → y.path = x.path := fun y hy =>
    hkeys y (List.mem_append_left _ hy) x (List.mem_append_left _ hx)
  by_cases h : displaced q baseline pack = []
  · rw [promote_eq, if_pos h]
    exact ⟨x, hx, rfl⟩
  · rw [promote_eq_append hkeys h]
    have hkept : x ∈ kept (displaced q baseline pack) pack := by
      refine List.mem_filter.2 ⟨hx, decide_eq_true fun hmem => ?_⟩
      obtain ⟨gone, hgone, hkey⟩ := List.mem_map.1 hmem
      have heq := hname gone (displaced_subperm.subset hgone) hkey
      exact unprotected_of_mem_displaced hgone (heq ▸ hpath)
    obtain ⟨y, hy, hkey⟩ : ∃ y ∈ firstByKey Item.key [] (kept (displaced q baseline pack) pack),
        y.key = x.key := exists_mem hkept List.not_mem_nil
    refine ⟨y, List.mem_append_left _ hy, hname y ?_ hkey⟩
    exact (List.mem_filter.1 ((firstByKey_sublist _ _).mem hy)).1

/-- As many first members of a key keep their place as there are places, if no key is shared. -/
theorem length_firstByKey_kept {gone rest : List Item} (h : (gone ++ rest).Perm pack) :
    (firstByKey Item.key [] (kept gone pack)).length = rest.length ↔
      (rest.map Item.key).Nodup ∧ ∀ item ∈ rest, ∀ other ∈ gone, item.key ≠ other.key := by
  have hperm := kept_perm h
  have hapart : kept gone rest = rest ↔ ∀ item ∈ rest, ∀ other ∈ gone, item.key ≠ other.key := by
    rw [kept, List.filter_eq_self]
    refine forall₂_congr fun item _ => ?_
    simp only [List.mem_map, not_exists, not_and, decide_eq_true_eq]
    exact forall₂_congr fun other _ => ne_comm
  constructor
  · intro heq
    have hfirst : (firstByKey Item.key [] (kept gone pack)).length ≤ (kept gone pack).length :=
      (firstByKey_sublist _ _).length_le
    have hrest : (kept gone rest).Sublist rest := List.filter_sublist
    have hle : (kept gone rest).length ≤ rest.length := hrest.length_le
    have hlen := hperm.length_eq
    have hsame : kept gone rest = rest := by
      refine hrest.eq_of_length ?_
      omega
    have hnodup : ((kept gone pack).map Item.key).Nodup := by
      rw [← length_firstByKey_eq_iff]
      omega
    refine ⟨?_, hapart.1 hsame⟩
    rw [hsame] at hperm
    exact (hperm.map Item.key).nodup_iff.1 hnodup
  · rintro ⟨hnodup, hout⟩
    rw [hapart.2 hout] at hperm
    rw [length_firstByKey_eq_iff.2 ((hperm.map Item.key).nodup_iff.2 hnodup), hperm.length_eq]

/-! ## The layer -/

theorem apart_iff : Apart q baseline pack ↔
    ((pack.diff (displaced q baseline pack)).map Item.key).Nodup ∧
      ∀ item ∈ pack.diff (displaced q baseline pack), ∀ gone ∈ displaced q baseline pack,
        item.key ≠ gone.key :=
  ⟨fun h => ⟨h.stay, h.leave⟩, fun h => ⟨h.1, h.2⟩⟩

/-- Members with distinct keys are apart. -/
theorem apart_of_nodup (h : (pack.map Item.key).Nodup) : Apart q baseline pack := by
  have hperm := (@perm_displaced q baseline pack).map Item.key
  rw [List.map_append] at hperm
  obtain ⟨_, hstay, hout⟩ := List.nodup_append.1 (hperm.nodup_iff.2 h)
  refine ⟨hstay, fun item hitem gone hgone heq => ?_⟩
  exact hout _ (List.mem_map_of_mem hgone) _ (List.mem_map_of_mem hitem) heq.symm

/-- The guarded pack is apart where the results before the layer have distinct keys, and where the
guard puts something back. -/
theorem apart_guarded (h : (formatted.map Item.key).Nodup ∨ dropped q baseline formatted ≠ []) :
    Apart q baseline (guarded q baseline formatted) := by
  apply apart_of_nodup
  unfold guarded
  by_cases hdropped : dropped q baseline formatted = []
  · rw [if_pos hdropped]
    exact h.resolve_right fun hne => hne hdropped
  · rw [if_neg hdropped]
    exact nodup_keys _ _

/-- The layer keeps what it promises exactly if no member of the guarded pack that stays has the
key of another. -/
theorem recallMonotone_iff (q : Query) (baseline formatted : List Item)
    (hkeys : KeysNameFiles (formatted ++ baseline ++ q.results)) :
    RecallMonotone q baseline formatted ↔
      Apart q baseline (guarded q baseline formatted) := by
  have hguard : KeysNameFiles (formatted ++ baseline) := fun x hx y hy =>
    hkeys x (List.mem_append_left _ hx) y (List.mem_append_left _ hy)
  have hlift : ∀ x ∈ guarded q baseline formatted ++ q.results,
      x ∈ formatted ++ baseline ++ q.results := by
    intro x hx
    obtain hx | hx := List.mem_append.1 hx
    · exact List.mem_append_left _ (mem_of_mem_guarded hx)
    · exact List.mem_append_right _ hx
  have hpack : KeysNameFiles (guarded q baseline formatted ++ q.results) := fun x hx y hy =>
    hkeys x (hlift x hx) y (hlift y hy)
  have hsurvives : ∀ r ∈ baseline.take q.limit, confident q baseline r = true →
      ∃ item ∈ recalled q baseline formatted, item.path = r.path := by
    intro r hr hconf
    obtain ⟨x, hx, heq⟩ := guarded_survives hguard hr hconf
    have hprotected : x.path ∈ protectedFiles q baseline (guarded q baseline formatted) := by
      refine List.mem_append_right _ (List.mem_map.2 ⟨r, ?_, heq.symm⟩)
      exact List.mem_filter.2 ⟨hr, hconf⟩
    obtain ⟨y, hy, hpath⟩ := promote_survives hpack hx hprotected
    exact ⟨y, hy, hpath.trans heq⟩
  by_cases hnone : displaced q baseline (guarded q baseline formatted) = []
  · have hrecall : recalled q baseline formatted = guarded q baseline formatted := by
      rw [recalled, promote_eq, if_pos hnone]
    constructor
    · intro h
      refine apart_of_nodup ?_
      rw [← hrecall]
      exact h.once
    · intro h
      have hstay := h.stay
      rw [hnone, List.diff_nil] at hstay
      exact ⟨hsurvives, by rwa [hrecall], by rw [hrecall]⟩
  · have hlen := length_promote hpack hnone
    have hplaces := (@perm_displaced q baseline (guarded q baseline formatted)).length_eq
    rw [List.length_append] at hplaces
    have hsize : (recalled q baseline formatted).length = (guarded q baseline formatted).length ↔
        Apart q baseline (guarded q baseline formatted) := by
      rw [apart_iff, ← length_firstByKey_kept perm_displaced, recalled]
      omega
    have honce : ((recalled q baseline formatted).map Item.key).Nodup := by
      rw [recalled, promote_eq, if_neg hnone]
      exact nodup_keys _ _
    exact ⟨fun h => hsize.1 h.size, fun h => ⟨hsurvives, honce, hsize.2 h⟩⟩

end

/-! ## Two sections of one id -/

def appChunk : Item where
  path := "app.py".toList
  sourceId := "source:app.py".toList
  chunkId := "chunk:app.py#main".toList
  citation := "app.py#L1".toList
  symbol := "main".toList
  symbolKind := "function".toList
  final := some 9

/-- A section of a document with a heading of its own or a repeated one. -/
def noteChunk (slug : String) (final : ℚ) : Item where
  path := "notes.md".toList
  sourceId := "source:notes.md".toList
  chunkId := "chunk:notes.md#".toList ++ slug.toList
  citation := "notes.md#".toList ++ slug.toList
  symbol := []
  symbolKind := []
  final := some final

def helperChunk : Item where
  path := "helper.py".toList
  sourceId := "source:helper.py".toList
  chunkId := "chunk:helper.py#help".toList
  citation := "helper.py#L1".toList
  symbol := "help".toList
  symbolKind := "function".toList
  final := some 1

/-- `app.py` imports `help`, which `helper.py` defines. -/
def importQuery (pack : List Item) : Query where
  limit := 20
  anchorPaths := []
  seedAnchorPaths := ["app.py".toList]
  importedSymbols := fun _ => ["help".toList]
  symbolTable := fun name =>
    if name = "help".toList then [⟨"helper.py".toList, "repository".toList⟩] else []
  results := pack ++ [helperChunk]

/-- Both sections leave for one definition. -/
theorem repeated_section_shrinks_pack :
    ¬ RecallMonotone (importQuery [appChunk, noteChunk "setup-2" 3, noteChunk "setup-2" 2])
      [appChunk] [appChunk, noteChunk "setup-2" 3, noteChunk "setup-2" 2] := by
  intro h
  have hsize := h.size
  revert hsize
  decide +kernel

theorem distinct_sections_are_kept :
    RecallMonotone (importQuery [appChunk, noteChunk "setup" 3, noteChunk "setup-2" 2])
      [appChunk] [appChunk, noteChunk "setup" 3, noteChunk "setup-2" 2] := by
  refine (recallMonotone_iff _ _ _ ?_).2 (apart_guarded (Or.inl ?_))
  · unfold KeysNameFiles
    decide
  · decide

end Agentrail.Recall
