import Agentrail.Context.WikiFreshness
import Mathlib.Data.List.Perm.Basic

/-!
# Module pages and the page cap (`context/wiki.py`)

A unit with many files is split into a tree of pages.  Every file is in the own scope of one of
them (`ownScopes_perm`): small directories go to the page above, and a directory without anything
to split off keeps all of its files.  The cap keeps a prefix of the modules ranked by size, but a
hub lists all of its children, kept or not.

`splitHolds_iff`: no listed child lacks a page exactly if the modules fit into the budget, where
pages do not share slugs.
-/

namespace Agentrail.Wiki

open Py
open scoped List

/-! ## The scopes of a tree -/

/-- The files of a leaf, and those of a hub that are in none of its children. -/
def ownScope (n : ModuleNode) : List SourceRecord :=
  if n.children.length = 0 then n.allFiles else n.directFiles

/-- Grouping by distinct keys loses nothing. -/
theorem flatMap_filter_perm {α κ : Type} [DecidableEq κ] (key : α → κ) (keys : List κ)
    (hkeys : keys.Nodup) (xs : List α) (hcover : ∀ x ∈ xs, key x ∈ keys) :
    (keys.flatMap fun k => xs.filter fun x => key x = k).Perm xs := by
  induction keys generalizing xs with
  | nil =>
    cases xs with
    | nil => exact List.Perm.nil
    | cons x xs => exact absurd (hcover x List.mem_cons_self) List.not_mem_nil
  | cons k keys ih =>
    obtain ⟨hk, hkeys⟩ := List.nodup_cons.1 hkeys
    have hrest : (keys.flatMap fun k' => xs.filter fun x => key x = k') =
        keys.flatMap fun k' => (xs.filter fun x => !decide (key x = k)).filter
          fun x => key x = k' := by
      refine List.flatMap_congr fun k' hk' => ?_
      rw [List.filter_filter]
      refine List.filter_congr fun x _ => ?_
      by_cases h : key x = k'
      · have hne : k' ≠ k := fun e => hk (e ▸ hk')
        simp [h, hne]
      · simp [h]
    rw [List.flatMap_cons, hrest]
    refine (List.Perm.append_left _ (ih hkeys _ fun x hx => ?_)).trans
      (List.filter_append_perm _ xs)
    obtain ⟨hx, hne⟩ := List.mem_filter.1 hx
    have hmem := hcover x hx
    rw [List.mem_cons] at hmem
    exact hmem.resolve_left fun e => by simp [e] at hne

/-- The directory below the base that a file is grouped under. -/
def subdirOf (basePath : Text) (record : SourceRecord) : Text :=
  let normalizedBase := normalizedUnitPath basePath
  let pre := if normalizedBase = ['.'] then [] else normalizedBase ++ ['/']
  let rest := if pre ≠ [] && pre.isPrefixOf record.path then record.path.drop pre.length
    else record.path
  if rest.contains '/' then rest.takeWhile (· ≠ '/') else []

theorem groupByImmediateSubdir_eq (basePath : Text) (files : List SourceRecord) :
    groupByImmediateSubdir basePath files =
      files.foldl (fun groups record => groups.append (subdirOf basePath record) record)
        Dict.empty := rfl

/-- The files of a group. -/
theorem get_groups (basePath : Text) (files : List SourceRecord) (subdir : Text) :
    ((groupByImmediateSubdir basePath files).get subdir).getD [] =
      files.filter fun record => subdirOf basePath record = subdir := by
  rw [groupByImmediateSubdir_eq, Dict.get_foldl_append]
  rfl

/-- The directories below the base, sorted. -/
def subdirsOf (basePath : Text) (files : List SourceRecord) : List Text :=
  (((groupByImmediateSubdir basePath files).erase []).items.map Prod.fst).insertionSort (· ≤ ·)

theorem nodup_subdirsOf (basePath : Text) (files : List SourceRecord) :
    ([] :: subdirsOf basePath files).Nodup := by
  have hperm : (subdirsOf basePath files).Perm
      (((groupByImmediateSubdir basePath files).erase []).items.map Prod.fst) :=
    List.perm_insertionSort _ _
  rw [List.nodup_cons, hperm.mem_iff, hperm.nodup_iff]
  refine ⟨fun hmem => ?_, Dict.nodup _⟩
  obtain ⟨item, hitem, hnil⟩ := List.mem_map.1 hmem
  have hkeep := (List.mem_filter.1 hitem).2
  simp [hnil] at hkeep

theorem subdirOf_mem_subdirsOf {basePath : Text} {files : List SourceRecord}
    {record : SourceRecord} (h : record ∈ files) :
    subdirOf basePath record ∈ [] :: subdirsOf basePath files := by
  by_cases hnil : subdirOf basePath record = []
  · rw [hnil]
    exact List.mem_cons_self
  · have hkey : subdirOf basePath record ∈
        (groupByImmediateSubdir basePath files).items.map Prod.fst := by
      rw [groupByImmediateSubdir_eq, Dict.mem_keys_foldl_append]
      exact Or.inr ⟨record, h, rfl⟩
    obtain ⟨item, hitem, heq⟩ := List.mem_map.1 hkey
    have herase : item ∈ ((groupByImmediateSubdir basePath files).erase []).items :=
      List.mem_filter.2 ⟨hitem, decide_eq_true (heq ▸ hnil)⟩
    refine List.mem_cons_of_mem _ ((List.perm_insertionSort _ _).mem_iff.2 ?_)
    exact List.mem_map.2 ⟨item, herase, heq⟩

/-- `child_path`. -/
def childPath (path subdir : Text) : Text :=
  if normalizedUnitPath path = ['.'] then subdir else normalizedUnitPath path ++ '/' :: subdir

/-- The files of a group of a sorted list. -/
def groupOf (path : Text) (files : List SourceRecord) (subdir : Text) : List SourceRecord :=
  (sortByPath files).filter fun record => subdirOf path record = subdir

/-- A tree is a leaf, or a hub over the directories that are big enough, with the files of the
others for its own. -/
theorem buildModuleTree_cases (threshold floor levels : Nat) (path : Text) (depth : Nat)
    (files : List SourceRecord) :
    buildModuleTree threshold floor levels path depth files =
        .node path depth (sortByPath files) [] (sortByPath files) ∨
      ∃ (levels' : Nat) (big small : List Text) (directFiles : List SourceRecord)
          (children : List ModuleNode), levels = levels' + 1 ∧ children ≠ [] ∧
        (big ++ small).Perm (subdirsOf path (sortByPath files)) ∧
        buildModuleTree threshold floor levels path depth files =
          .node path depth directFiles children (sortByPath files) ∧
        directFiles.Perm (groupOf path files [] ++ small.flatMap (groupOf path files)) ∧
        children.Perm (big.map fun subdir => buildModuleTree threshold floor levels'
          (childPath path subdir) (depth + 1) (groupOf path files subdir)) := by
  cases levels with
  | zero => exact Or.inl rfl
  | succ levels =>
    rw [buildModuleTree]
    extract_lets groups filesOf subdirs direct normalizedPath children
    have hfilesOf : filesOf = groupOf path files := by
      funext subdir
      exact get_groups path (sortByPath files) subdir
    split
    · exact Or.inl rfl
    split
    · exact Or.inl rfl
    next hchildren =>
    right
    refine ⟨levels, subdirs.filter fun subdir => !((filesOf subdir).length < floor),
      subdirs.filter fun subdir => (filesOf subdir).length < floor, _, _, rfl, ?_, ?_, rfl, ?_, ?_⟩
    · intro hnil
      apply hchildren
      rw [← (List.perm_insertionSort (fun a b : ModuleNode => a.path ≤ b.path) children).length_eq,
        hnil, List.length_nil]
    · exact List.perm_append_comm.trans (List.filter_append_perm _ subdirs)
    · rw [← hfilesOf]
      exact List.perm_insertionSort _ _
    · rw [← hfilesOf]
      exact List.perm_insertionSort _ _

theorem flatMap_iterForest {α : Type} (f : ModuleNode → List α) (children : List ModuleNode) :
    (iterForest children).flatMap f = children.flatMap fun child => (iterTree child).flatMap f := by
  induction children with
  | nil => rfl
  | cons child children ih =>
    rw [iterForest, List.flatMap_append, ih, List.flatMap_cons]

/-- Each file is in the own scope of one page. -/
theorem ownScopes_perm (threshold floor levels : Nat) (path : Text) (depth : Nat)
    (files : List SourceRecord) :
    ((iterTree (buildModuleTree threshold floor levels path depth files)).flatMap ownScope).Perm
      files := by
  induction levels using Nat.strong_induction_on generalizing path depth files with
  | _ levels ih =>
    have hsort : (sortByPath files).Perm files := List.perm_insertionSort _ _
    obtain hleaf | ⟨levels', big, small, directFiles, children, rfl, hne, hsubdirs, htree, hdirect,
      hchildren⟩ := buildModuleTree_cases threshold floor levels path depth files
    · rw [hleaf, iterTree_eq, List.flatMap_cons]
      simpa [ownScope, ModuleNode.children, ModuleNode.allFiles, iterForest] using hsort
    · rw [htree, iterTree_eq, List.flatMap_cons, flatMap_iterForest]
      have hown : ownScope (.node path depth directFiles children (sortByPath files)) =
          directFiles := if_neg fun h => hne (List.length_eq_zero_iff.1 h)
      have hforest : (children.flatMap fun child => (iterTree child).flatMap ownScope).Perm
          (big.flatMap (groupOf path files)) := by
        refine (hchildren.flatMap_right _).trans ?_
        rw [List.flatMap_map]
        exact List.Perm.flatMap_left _ fun subdir _ => ih levels' (Nat.lt_succ_self _) _ _ _
      have hcover := flatMap_filter_perm (subdirOf path)
        ([] :: subdirsOf path (sortByPath files)) (nodup_subdirsOf _ _) (sortByPath files)
        fun record hrecord => subdirOf_mem_subdirsOf hrecord
      rw [hown]
      calc directFiles ++ children.flatMap (fun child => (iterTree child).flatMap ownScope)
          _ ~ (groupOf path files [] ++ small.flatMap (groupOf path files)) ++
              big.flatMap (groupOf path files) := hdirect.append hforest
          _ ~ groupOf path files [] ++ (big ++ small).flatMap (groupOf path files) := by
            rw [List.append_assoc, List.flatMap_append]
            exact List.perm_append_comm.append_left _
          _ ~ groupOf path files [] ++
              (subdirsOf path (sortByPath files)).flatMap (groupOf path files) :=
            (hsubdirs.flatMap_right _).append_left _
          _ ~ sortByPath files := hcover
          _ ~ files := hsort

/-! ## Parents and children -/

/-- Every node but the root is a child of a node. -/
theorem exists_parent (threshold floor levels : Nat) (path : Text) (depth : Nat)
    (files : List SourceRecord) {n : ModuleNode}
    (hn : n ∈ iterTree (buildModuleTree threshold floor levels path depth files)) :
    n = buildModuleTree threshold floor levels path depth files ∨
      ∃ m ∈ iterTree (buildModuleTree threshold floor levels path depth files),
        n ∈ m.children := by
  induction levels using Nat.strong_induction_on generalizing path depth files with
  | _ levels ih =>
    rw [iterTree_eq] at hn ⊢
    obtain hroot | hn := List.mem_cons.1 hn
    · exact Or.inl hroot
    · right
      obtain ⟨child, hchild, hn⟩ := (mem_iterForest n _).1 hn
      obtain ⟨levels', hlt, path', files', rfl⟩ :=
        (buildModuleTree_spec threshold floor levels path depth files).2 child hchild
      obtain rfl | ⟨m, hm, hmem⟩ := ih levels' hlt path' (depth + 1) files' hn
      · exact ⟨_, List.mem_cons_self, hchild⟩
      · exact ⟨m, List.mem_cons_of_mem _ ((mem_iterForest m _).2 ⟨_, hchild, hm⟩), hmem⟩

/-- A node, and its children one level below, in a tree that is built. -/
theorem depth_of_mem_children (threshold floor levels : Nat) (path : Text) (depth : Nat)
    (files : List SourceRecord) {m n : ModuleNode}
    (hm : m ∈ iterTree (buildModuleTree threshold floor levels path depth files))
    (hn : n ∈ m.children) :
    n.depth = m.depth + 1 ∧
      n ∈ iterTree (buildModuleTree threshold floor levels path depth files) := by
  induction levels using Nat.strong_induction_on generalizing path depth files with
  | _ levels ih =>
    obtain ⟨hroot, hchildren⟩ := buildModuleTree_spec threshold floor levels path depth files
    rw [iterTree_eq] at hm ⊢
    obtain rfl | hm := List.mem_cons.1 hm
    · obtain ⟨levels', hlt, path', files', rfl⟩ := hchildren n hn
      refine ⟨?_, List.mem_cons_of_mem _ ((mem_iterForest _ _).2 ⟨_, hn, ?_⟩)⟩
      · rw [hroot, (buildModuleTree_spec _ _ _ _ _ _).1]
      · rw [iterTree_eq]
        exact List.mem_cons_self
    · obtain ⟨child, hchild, hm⟩ := (mem_iterForest m _).1 hm
      obtain ⟨levels', hlt, path', files', rfl⟩ := hchildren child hchild
      obtain ⟨hdepth, hmem⟩ := ih levels' hlt path' (depth + 1) files' hm
      exact ⟨hdepth, List.mem_cons_of_mem _ ((mem_iterForest n _).2 ⟨_, hchild, hmem⟩)⟩

section
variable (host : Host) (index : Index)

theorem exists_planned {unit : CodebaseUnit} {n : ModuleNode} (hunit : unit ∈ included index)
    (hn : n ∈ iterTree (treeOf host index unit)) :
    ∃ p ∈ plannedNodes host index, p.unit = unit ∧ p.node = n := by
  have hmem : (unit, treeOf host index unit, n) ∈ (unitPlans host index).flatMap fun plan =>
      (iterTree plan.2).map fun node => (plan.1, plan.2, node) := by
    rw [unitPlans_eq, List.mem_flatMap]
    exact ⟨_, List.mem_map_of_mem hunit, List.mem_map_of_mem hn⟩
  obtain ⟨i, hi⟩ := List.getElem?_of_mem hmem
  refine ⟨⟨unit, treeOf host index unit, n, i⟩, ?_, rfl, rfl⟩
  exact List.mem_map.2 ⟨_, List.mk_mem_zipIdx_iff_getElem?.2 hi, rfl⟩

/-- The planned node is told by its position. -/
theorem nodup_position : ((plannedNodes host index).map Planned.position).Nodup := by
  unfold plannedNodes
  rw [List.map_map]
  show (List.map Prod.snd _).Nodup
  rw [List.zipIdx_map_snd]
  exact List.nodup_range' 

/-- The children of a planned node are planned, one level below. -/
theorem exists_planned_child {p : Planned} (hp : p ∈ plannedNodes host index) {n : ModuleNode}
    (hn : n ∈ p.node.children) :
    ∃ c ∈ plannedNodes host index, c.unit = p.unit ∧ c.node = n ∧
      c.node.depth = p.node.depth + 1 := by
  obtain ⟨hunit, htree, hnode⟩ := plannedNodes_spec host index p hp
  rw [htree] at hnode
  obtain ⟨hdepth, hmem⟩ := depth_of_mem_children _ _ _ _ _ _ hnode hn
  obtain ⟨c, hc, hcunit, rfl⟩ := exists_planned host index hunit hmem
  exact ⟨c, hc, hcunit, rfl, hdepth⟩

/-- A planned module is a child of a planned node, one level above. -/
theorem exists_planned_parent {c : Planned} (hc : c ∈ plannedNodes host index)
    (hdepth : 0 < c.node.depth) :
    ∃ p ∈ plannedNodes host index, p.unit = c.unit ∧ c.node ∈ p.node.children ∧
      c.node.depth = p.node.depth + 1 := by
  obtain ⟨hunit, htree, hnode⟩ := plannedNodes_spec host index c hc
  rw [htree] at hnode
  obtain hroot | ⟨m, hm, hmem⟩ := exists_parent _ _ _ _ _ _ hnode
  · have hzero : (treeOf host index c.unit).depth = 0 := (buildModuleTree_spec _ _ _ _ _ _).1
    have hsame : c.node = treeOf host index c.unit := hroot
    rw [hsame, hzero] at hdepth
    omega
  · obtain ⟨hchild, _⟩ := depth_of_mem_children _ _ _ _ _ _ hm hmem
    obtain ⟨p, hp, hpunit, rfl⟩ := exists_planned host index hunit hm
    exact ⟨p, hp, hpunit, hmem, hchild⟩

/-! ## The cap -/

/-- The ranking: more files first, then by the id of the unit and the path. -/
def ranksBefore (p q : Planned) : Bool :=
  q.node.allFiles.length < p.node.allFiles.length ||
    (p.node.allFiles.length = q.node.allFiles.length &&
      (p.unit.id < q.unit.id || (p.unit.id = q.unit.id && p.node.path ≤ q.node.path)))

/-- The modules among the planned nodes, by their rank. -/
def candidates : List Planned :=
  ((plannedNodes host index).filter fun p => 0 < p.node.depth).insertionSort fun p q =>
    ranksBefore p q

/-- `remaining_budget`. -/
def remainingBudget : Nat := host.wikiMaxPages - 1 - (included index).length

theorem keptPositions_eq : keptPositions host index =
    ((candidates host index).take (remainingBudget host index)).map Planned.position := rfl

/-- The page budget holds all modules. -/
def Fits : Prop :=
  ((plannedNodes host index).filter fun p => 0 < p.node.depth).length ≤ remainingBudget host index

/-- No two planned pages have one slug. -/
def DistinctSlugs : Prop :=
  ((plannedNodes host index).map fun p => nodeSlug host (p.unit, p.node)).Nodup

/-- The split is a partition, the cap keeps a page only with the one above it, and what a written
hub lists is written. -/
structure SplitHolds : Prop where
  partition : ∀ (threshold floor levels : Nat) (path : Text) (depth : Nat)
    (files : List SourceRecord),
    ((iterTree (buildModuleTree threshold floor levels path depth files)).flatMap ownScope).Perm
      files
  parents : ∀ c ∈ plannedNodes host index, c.position ∈ keptPositions host index →
    ∀ p ∈ plannedNodes host index, p.unit = c.unit → c.node ∈ p.node.children →
      p.node.depth = 0 ∨ p.position ∈ keptPositions host index
  children : ∀ p ∈ plannedNodes host index, isWritten host index p = true →
    ∀ slug ∈ childSlugs host p.unit p.node, ∃ entry ∈ manifestPages host index, entry.slug = slug

theorem candidates_perm : (candidates host index).Perm
    ((plannedNodes host index).filter fun p => 0 < p.node.depth) := List.perm_insertionSort _ _

theorem mem_candidates {p : Planned} :
    p ∈ candidates host index ↔ p ∈ plannedNodes host index ∧ 0 < p.node.depth := by
  rw [(candidates_perm host index).mem_iff, List.mem_filter, decide_eq_true_eq]

/-- All modules are kept exactly if there is room for them. -/
theorem fits_iff : Fits host index ↔
    ∀ p ∈ plannedNodes host index, 0 < p.node.depth → p.position ∈ keptPositions host index := by
  have hlen := (candidates_perm host index).length_eq
  unfold Fits
  rw [← hlen, keptPositions_eq]
  constructor
  · intro hfits p hp hdepth
    rw [List.take_of_length_le hfits]
    exact List.mem_map_of_mem ((mem_candidates host index).2 ⟨hp, hdepth⟩)
  · intro hkept
    have hnodup : ((candidates host index).map Planned.position).Nodup := by
      rw [((candidates_perm host index).map Planned.position).nodup_iff]
      exact (nodup_position host index).sublist (List.filter_sublist.map _)
    have hsubset : (candidates host index).map Planned.position ⊆
        ((candidates host index).take (remainingBudget host index)).map Planned.position := by
      intro position hposition
      obtain ⟨p, hp, rfl⟩ := List.mem_map.1 hposition
      obtain ⟨hp, hdepth⟩ := (mem_candidates host index).1 hp
      exact hkept p hp hdepth
    have hle := (List.subperm_of_subset hnodup hsubset).length_le
    rw [List.length_map, List.length_map, List.length_take] at hle
    omega

/-! ## Listed children -/

theorem isWritten_iff (p : Planned) : isWritten host index p = true ↔
    p.tree.children.length = 0 ∨ p.node.depth = 0 ∨ p.position ∈ keptPositions host index := by
  unfold isWritten
  simp only [Bool.or_eq_true, decide_eq_true_eq, List.contains_iff_mem, or_assoc]

/-- A written page has the slug of its node. -/
theorem exists_entry {p : Planned} (hp : p ∈ plannedNodes host index)
    (hwritten : isWritten host index p = true) :
    ∃ entry ∈ manifestPages host index, entry.slug = nodeSlug host (p.unit, p.node) := by
  rw [manifestPages_eq]
  have hmem : (p.unit, p.node) ∈ writtenNodes host index :=
    List.mem_map_of_mem (List.mem_filter.2 ⟨hp, hwritten⟩)
  exact ⟨_, List.mem_cons_of_mem _ (List.mem_map_of_mem hmem), rfl⟩

/-- Where slugs are distinct, the slug of a planned node is that of a page only if its own page is
written. -/
theorem isWritten_of_entry (hdistinct : DistinctSlugs host index) {c : Planned}
    (hc : c ∈ plannedNodes host index) {entry : Page} (hentry : entry ∈ manifestPages host index)
    (hslug : entry.slug = nodeSlug host (c.unit, c.node)) : isWritten host index c = true := by
  rw [manifestPages_eq, List.mem_cons] at hentry
  obtain rfl | hentry := hentry
  · exact absurd hslug.symm (overviewSlug_ne host (c.unit, c.node))
  · obtain ⟨x, hx, rfl⟩ := List.mem_map.1 hentry
    obtain ⟨p, hp, rfl⟩ := List.mem_map.1 hx
    obtain ⟨hp, hwritten⟩ := List.mem_filter.1 hp
    have hsame : p = c := List.inj_on_of_nodup_map hdistinct hp hc hslug
    rwa [← hsame]

theorem nodeSlug_of_module {c : Planned} (h : c.node.depth ≠ 0) :
    nodeSlug host (c.unit, c.node) = moduleSlug host c.unit c.node.path := if_neg h

theorem splitHolds_of_fits (h : Fits host index) : SplitHolds host index where
  partition := ownScopes_perm
  parents := by
    intro c hc hkept p hp hunit hchild
    by_cases hdepth : p.node.depth = 0
    · exact Or.inl hdepth
    · exact Or.inr ((fits_iff host index).1 h p hp (Nat.pos_of_ne_zero hdepth))
  children := by
    intro p hp hwritten slug hslug
    obtain ⟨n, hn, rfl⟩ := List.mem_map.1 hslug
    obtain ⟨c, hc, hunit, rfl, hdepth⟩ := exists_planned_child host index hp hn
    have hkept := (fits_iff host index).1 h c hc (by omega)
    obtain ⟨entry, hentry, heq⟩ :=
      exists_entry host index hc ((isWritten_iff host index c).2 (Or.inr (Or.inr hkept)))
    refine ⟨entry, hentry, heq.trans ?_⟩
    rw [nodeSlug_of_module host (by omega), hunit]

/-- A module has a page only if it is kept. -/
theorem kept_of_isWritten {c : Planned} (hc : c ∈ plannedNodes host index)
    (hdepth : 0 < c.node.depth) (h : isWritten host index c = true) :
    c.position ∈ keptPositions host index := by
  obtain ⟨_, htree, hnode⟩ := plannedNodes_spec host index c hc
  have hzero : c.tree.depth = 0 := by
    rw [htree]
    exact (buildModuleTree_spec _ _ _ _ _ _).1
  obtain hleaf | hroot | hkept := (isWritten_iff host index c).1 h
  · rw [iterTree_eq, List.length_eq_zero_iff.1 hleaf] at hnode
    rw [List.mem_singleton.1 hnode, hzero] at hdepth
    omega
  · omega
  · exact hkept

/-- Where slugs are distinct, a listed child that has a page is kept. -/
theorem kept_of_listed (hdistinct : DistinctSlugs host index) (h : SplitHolds host index)
    {p c : Planned} (hp : p ∈ plannedNodes host index) (hc : c ∈ plannedNodes host index)
    (hunit : p.unit = c.unit) (hchild : c.node ∈ p.node.children) (hdepth : 0 < c.node.depth)
    (hwritten : isWritten host index p = true) : c.position ∈ keptPositions host index := by
  obtain ⟨entry, hentry, hslug⟩ :=
    h.children p hp hwritten _ (List.mem_map_of_mem hchild)
  refine kept_of_isWritten host index hc hdepth
    (isWritten_of_entry host index hdistinct hc hentry ?_)
  rw [hslug, nodeSlug_of_module host (by omega), hunit]

/-- Where slugs are distinct and listed children have pages, every module is kept: one whose
parent is written is listed there. -/
theorem kept_of_splitHolds (hdistinct : DistinctSlugs host index) (h : SplitHolds host index)
    (depth : Nat) : ∀ c ∈ plannedNodes host index, c.node.depth = depth + 1 →
      c.position ∈ keptPositions host index := by
  induction depth with
  | zero =>
    intro c hc hdepth
    obtain ⟨p, hp, hunit, hchild, hlevel⟩ := exists_planned_parent host index hc (by omega)
    have hroot : p.node.depth = 0 := by omega
    exact kept_of_listed host index hdistinct h hp hc hunit hchild (by omega)
      ((isWritten_iff host index p).2 (Or.inr (Or.inl hroot)))
  | succ depth ih =>
    intro c hc hdepth
    obtain ⟨p, hp, hunit, hchild, hlevel⟩ := exists_planned_parent host index hc (by omega)
    have hkept := ih p hp (by omega)
    exact kept_of_listed host index hdistinct h hp hc hunit hchild (by omega)
      ((isWritten_iff host index p).2 (Or.inr (Or.inr hkept)))

/-- The split holds where the modules fit into the budget, and with distinct slugs only there. -/
theorem splitHolds_iff : (Fits host index → SplitHolds host index) ∧
    (DistinctSlugs host index → (SplitHolds host index ↔ Fits host index)) := by
  refine ⟨splitHolds_of_fits host index, fun hdistinct => ?_⟩
  refine ⟨fun h => ?_, splitHolds_of_fits host index⟩
  rw [fits_iff]
  intro p hp hdepth
  exact kept_of_splitHolds host index hdistinct h (p.node.depth - 1) p hp (by omega)

end

/-! ## A unit of two modules -/

/-- Units of more than three files are split, with room for some pages. -/
def splittingHost (maxPages : Nat) : Host where
  lower := id
  sha256Text := id
  pageContentHash := id
  moduleSplitFiles := 3
  wikiMaxPages := maxPages

/-- `app` with three files in each of two directories. -/
def twoModules : Index where
  records := ["app/a/x", "app/a/y", "app/a/z", "app/b/x", "app/b/y", "app/b/z"].map fun path =>
    ⟨"source_code".toList, path.toList, path.toList⟩
  unitNodes := [⟨"codebase-unit:app".toList, "app".toList, 6⟩]

/-- With room for one module the page of the unit still lists both. -/
theorem dropped_module_is_listed : ¬ SplitHolds (splittingHost 3) twoModules :=
  fun h => absurd h.children (by decide +kernel)

theorem two_modules_fit : SplitHolds (splittingHost 4) twoModules := by
  refine (splitHolds_iff (splittingHost 4) twoModules).1 ?_
  unfold Fits
  decide +kernel

end Agentrail.Wiki
