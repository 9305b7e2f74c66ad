import Agentrail.Context.WikiPages

/-!
# Staleness of a fresh wiki

`compile_wiki` and `wiki_status` plan the same tree for a unit (`moduleTree_sortByPath`)
and hash the same inputs for a node of it (`compileNode_eq`).  They part in two places:
the overview is compiled from at most `maxUnitPages` units but compared with all of them,
and pages are compared by slug, of which the last one visited counts.

`fresh_iff`: right after a compile no page is stale exactly when no unit is past the cap
and every page written has the inputs of the last page of its slug.
-/

namespace Agentrail.Wiki

open Py

/-! ## Trees -/

theorem pairwise_sortByPath (files : List SourceRecord) :
    (sortByPath files).Pairwise fun a b => a.path ≤ b.path := by
  have : Std.Total fun a b : SourceRecord => a.path ≤ b.path := ⟨fun a b => le_total a.path b.path⟩
  have : IsTrans SourceRecord fun a b => a.path ≤ b.path := ⟨fun a b c h h' => le_trans h h'⟩
  exact List.pairwise_insertionSort _ files

theorem sortByPath_sortByPath (files : List SourceRecord) :
    sortByPath (sortByPath files) = sortByPath files :=
  (pairwise_sortByPath files).insertionSort_eq

section
variable (host : Host)

/-- A tree does not depend on the order in which its files are given up to paths. -/
theorem moduleTree_sortByPath (unit : CodebaseUnit) (files : List SourceRecord) :
    moduleTree host unit (sortByPath files) = moduleTree host unit files := by
  unfold moduleTree moduleSplitDepthCap
  rw [buildModuleTree, buildModuleTree, sortByPath_sortByPath]

theorem iterTree_eq (t : ModuleNode) : iterTree t = t :: iterForest t.children := by
  cases t with
  | node path depth directFiles children allFiles => rw [iterTree]; rfl

theorem mem_iterForest (n : ModuleNode) (children : List ModuleNode) :
    n ∈ iterForest children ↔ ∃ child ∈ children, n ∈ iterTree child := by
  induction children with
  | nil => simp [iterForest]
  | cons child children ih =>
    rw [iterForest, List.mem_append, ih]
    simp only [List.mem_cons, exists_eq_or_imp]

/-- A node has the depth it is built at, and its children are built one level below. -/
theorem buildModuleTree_spec (threshold floor levels : Nat) (path : Text) (depth : Nat)
    (files : List SourceRecord) :
    (buildModuleTree threshold floor levels path depth files).depth = depth ∧
    ∀ child ∈ (buildModuleTree threshold floor levels path depth files).children,
      ∃ levels' < levels, ∃ path' files',
        child = buildModuleTree threshold floor levels' path' (depth + 1) files' := by
  cases levels with
  | zero => exact ⟨rfl, fun child h => absurd h List.not_mem_nil⟩
  | succ levels =>
    rw [buildModuleTree]
    extract_lets groups filesOf subdirs direct normalizedPath children
    split
    · exact ⟨rfl, fun child h => absurd h List.not_mem_nil⟩
    split
    · exact ⟨rfl, fun child h => absurd h List.not_mem_nil⟩
    refine ⟨rfl, fun child h => ?_⟩
    rw [ModuleNode.children, List.mem_insertionSort] at h
    obtain ⟨subdir, -, rfl⟩ := List.mem_map.mp h
    exact ⟨levels, Nat.lt_succ_self levels, _, _, rfl⟩

/-- The modules below a node lie deeper than it. -/
theorem depth_lt_of_mem (threshold floor levels : Nat) : ∀ (path : Text) (depth : Nat)
    (files : List SourceRecord),
    ∀ n ∈ iterForest (buildModuleTree threshold floor levels path depth files).children,
      depth < n.depth := by
  induction levels using Nat.strong_induction_on with
  | _ levels ih =>
    intro path depth files n hn
    obtain ⟨child, hchild, hn⟩ := (mem_iterForest n _).mp hn
    obtain ⟨levels', hlt, path', files', rfl⟩ :=
      (buildModuleTree_spec threshold floor levels path depth files).2 child hchild
    rw [iterTree_eq] at hn
    rcases List.mem_cons.mp hn with rfl | hn
    · rw [(buildModuleTree_spec threshold floor levels' path' (depth + 1) files').1]
      exact Nat.lt_succ_self depth
    · exact Nat.lt_of_succ_lt (ih levels' hlt path' (depth + 1) files' n hn)

/-- The unit itself is the only node of its tree that is no module. -/
theorem roots_moduleTree (unit : CodebaseUnit) (files : List SourceRecord) :
    (iterTree (moduleTree host unit files)).filter (fun n => n.depth = 0) =
      [moduleTree host unit files] := by
  have hroot : (moduleTree host unit files).depth = 0 := (buildModuleTree_spec _ _ _ _ _ _).1
  have hbelow : (iterForest (moduleTree host unit files).children).filter
      (fun n => n.depth = 0) = [] := by
    rw [List.filter_eq_nil_iff]
    intro n hn
    have hlt := depth_lt_of_mem _ _ _ _ _ _ n hn
    rw [decide_eq_true_eq]
    omega
  rw [iterTree_eq, List.filter_cons_of_pos (by rw [hroot]; rfl), hbelow]

/-! ## The two plans -/

variable (index : Index)

/-- The files of a unit. -/
def unitFiles (unit : CodebaseUnit) : List SourceRecord :=
  (nonWikiRecords index).filter fun r => unitContainsPath unit.path r.path

/-- The tree of a unit, in the compiler and in `wiki_status`. -/
def treeOf (unit : CodebaseUnit) : ModuleNode := moduleTree host unit (unitFiles index unit)

theorem unitPlans_eq :
    unitPlans host index = (included index).map fun unit => (unit, treeOf host index unit) := by
  unfold unitPlans treeOf unitFiles
  refine List.map_congr_left fun unit _ => ?_
  rw [moduleTree_sortByPath]

theorem included_perm (h : index.unitNodes.length ≤ maxUnitPages) :
    (included index).Perm (units index) := by
  have hperm : (rankedUnits index).Perm (units index) := List.perm_insertionSort _ _
  have hlen : (rankedUnits index).length ≤ maxUnitPages := by
    rw [hperm.length_eq]
    unfold units
    rw [List.length_map]
    exact h
  unfold included
  rw [List.take_of_length_le hlen]
  exact hperm

theorem mem_units_of_included (unit : CodebaseUnit) (h : unit ∈ included index) :
    unit ∈ units index := by
  have hranked := List.mem_of_mem_take h
  exact (List.mem_insertionSort _).mp hranked

/-- The text whose hash a page records: of its files, or of a hub's own files and children. -/
def nodeInputs (x : CodebaseUnit × ModuleNode) : Text :=
  if x.2.children.length ≠ 0 then hubInputs x.2.directFiles (childSlugs host x.1 x.2)
  else unitInputs x.2.allFiles

def nodeSlug (x : CodebaseUnit × ModuleNode) : Text :=
  if x.2.depth = 0 then unitSlug x.1 else moduleSlug host x.1 x.2.path

theorem currentHash_eq (x : CodebaseUnit × ModuleNode) :
    currentHash host x.1 x.2 = (nodeSlug host x, host.sha256Text (nodeInputs host x)) := by
  unfold currentHash nodeSlug nodeInputs
  split
  · rfl
  · rfl

theorem unitHash_eq (unit : CodebaseUnit) :
    unitHash host (unit, treeOf host index unit) =
      host.sha256Text (nodeInputs host (unit, treeOf host index unit)) := by
  unfold unitHash nodeInputs
  dsimp only
  split
  · rename_i hleaf
    rw [if_neg (not_not.mpr hleaf)]
    rfl
  · rfl

/-- Whether the compiler writes a page for a planned node. -/
def isWritten (p : Planned) : Bool :=
  p.tree.children.length = 0 || p.node.depth = 0 || (keptPositions host index).contains p.position

/-- The nodes that the compiler writes pages for. -/
def writtenNodes : List (CodebaseUnit × ModuleNode) :=
  ((plannedNodes host index).filter (isWritten host index)).map fun p => (p.unit, p.node)

/-- What a planned node is. -/
theorem plannedNodes_spec (p : Planned) (hp : p ∈ plannedNodes host index) :
    p.unit ∈ included index ∧ p.tree = treeOf host index p.unit ∧ p.node ∈ iterTree p.tree := by
  unfold plannedNodes at hp
  obtain ⟨x, hx, rfl⟩ := List.mem_map.mp hp
  have hmem := List.fst_mem_of_mem_zipIdx hx
  obtain ⟨plan, hplan, hnode⟩ := List.mem_flatMap.mp hmem
  rw [unitPlans_eq] at hplan
  obtain ⟨unit, hunit, rfl⟩ := List.mem_map.mp hplan
  obtain ⟨node, hnode, hx⟩ := List.mem_map.mp hnode
  rw [← hx]
  exact ⟨hunit, rfl, hnode⟩

/-- A page that is written has the slug and the inputs of its node. -/
theorem compileNode_eq (p : Planned) (hp : p ∈ plannedNodes host index) :
    compileNode host (keptPositions host index) p =
      if isWritten host index p then
        some (page (nodeSlug host (p.unit, p.node))
          (host.sha256Text (nodeInputs host (p.unit, p.node))))
      else none := by
  obtain ⟨hunit, htree, hnode⟩ := plannedNodes_spec host index p hp
  have hroot : ∀ n ∈ iterTree p.tree, n.depth = 0 → n = p.tree := by
    intro n hn hdepth
    have hfilter := roots_moduleTree host p.unit (unitFiles index p.unit)
    change (iterTree (treeOf host index p.unit)).filter _ = [treeOf host index p.unit] at hfilter
    rw [← htree] at hfilter
    have hmem : n ∈ (iterTree p.tree).filter fun n => n.depth = 0 :=
      List.mem_filter.mpr ⟨hn, decide_eq_true hdepth⟩
    rw [hfilter] at hmem
    exact List.mem_singleton.mp hmem
  have hdepth : p.tree.depth = 0 := by
    rw [htree]
    exact (buildModuleTree_spec _ _ _ _ _ _).1
  unfold compileNode isWritten nodeSlug nodeInputs
  dsimp only
  by_cases hsplit : p.tree.children.length = 0
  · have hsame : p.node = p.tree := by
      rw [iterTree_eq, List.length_eq_zero_iff.mp hsplit] at hnode
      exact List.mem_singleton.mp hnode
    rw [if_pos hsplit, hsame, hdepth, if_neg (not_not.mpr hsplit)]
    simp [hsplit, unitInputsHash]
  · rw [if_neg hsplit]
    by_cases hzero : p.node.depth = 0
    · have hsame := hroot p.node hnode hzero
      rw [hsame, hdepth]
      simp [hsplit, hubInputsHash]
    · by_cases hkept : p.position ∈ keptPositions host index
      · by_cases hleaf : p.node.children.length = 0
        · simp [hsplit, hzero, hkept, hleaf, unitInputsHash]
        · simp [hsplit, hzero, hkept, hleaf, hubInputsHash]
      · simp [hsplit, hzero, hkept]

/-! ## The two sets of hashes -/

/-- The last of the nodes that `wiki_status` visits with a slug. -/
def lastNode (slug : Text) : Option (CodebaseUnit × ModuleNode) :=
  (currentNodes host index).reverse.find? fun x => nodeSlug host x = slug

/-- What the compiler and `wiki_status` hash. -/
def hashedTexts : List Text :=
  overviewInputs ((unitPlans host index).map (unitHash host)) ::
    overviewInputs ((currentTrees host index).map (unitHash host)) ::
    (currentNodes host index).map (nodeInputs host)

theorem currentTrees_eq :
    currentTrees host index = (units index).map fun unit => (unit, treeOf host index unit) := rfl

/-- The roots that `wiki_status` hashes are the trees of the units. -/
theorem unitRootHashes_eq :
    ((currentNodes host index).filter fun x => x.2.depth = 0).map
        (fun x => (currentHash host x.1 x.2).2) =
      (currentTrees host index).map (unitHash host) := by
  unfold currentNodes
  rw [currentTrees_eq]
  induction units index with
  | nil => rfl
  | cons unit rest ih =>
    have hroots := roots_moduleTree host unit (unitFiles index unit)
    change (iterTree (treeOf host index unit)).filter _ = [treeOf host index unit] at hroots
    have hfirst : (((iterTree (treeOf host index unit)).map fun node => (unit, node)).filter
        fun x => x.2.depth = 0) = [(unit, treeOf host index unit)] := by
      rw [List.filter_map]
      exact congrArg (List.map _) hroots
    rw [List.map_cons, List.flatMap_cons, List.filter_append, List.map_append, ih, hfirst,
      List.map_singleton, List.map_cons, currentHash_eq, unitHash_eq, List.singleton_append]

theorem overviewSlug_ne (x : CodebaseUnit × ModuleNode) : nodeSlug host x ≠ overviewSlug := by
  have hpre : unitSlugPrefix <+: nodeSlug host x := by
    unfold nodeSlug moduleSlug unitSlug
    split
    · exact List.prefix_append _ _
    · rw [List.append_assoc]
      exact List.prefix_append _ _
  intro h
  rw [h] at hpre
  exact absurd hpre (by decide)

/-- Setting entries one after the other, the last one of a key counts. -/
theorem get_foldl_set {α : Type} (key value : α → Text) (xs : List α) (d : Dict Text Text)
    (k : Text) :
    (xs.foldl (fun d x => d.set (key x) (value x)) d).get k =
      ((xs.reverse.find? fun x => key x = k).map value).or (d.get k) := by
  induction xs generalizing d with
  | nil => rfl
  | cons x xs ih =>
    rw [List.foldl_cons, ih, List.reverse_cons, List.find?_append]
    cases hfind : xs.reverse.find? fun x => key x = k with
    | some y => rfl
    | none =>
      rw [Option.none_or, Option.map_none, Option.none_or, Dict.get_set]
      by_cases hk : key x = k
      · simp [hk]
      · simp [hk]

/-- What `wiki_status` compares a page with. -/
theorem get_currentUnitHashes (x : CodebaseUnit × ModuleNode) :
    (currentUnitHashes host index).get (nodeSlug host x) =
      (lastNode host index (nodeSlug host x)).map fun y => host.sha256Text (nodeInputs host y) := by
  have hne := overviewSlug_ne host x
  have hfold : ((currentNodes host index).foldl (fun hashes x =>
      hashes.set (currentHash host x.1 x.2).1 (currentHash host x.1 x.2).2) Dict.empty).get
        (nodeSlug host x) =
      (lastNode host index (nodeSlug host x)).map
        fun y => host.sha256Text (nodeInputs host y) := by
    simp only [currentHash_eq]
    rw [get_foldl_set (nodeSlug host) fun y => host.sha256Text (nodeInputs host y)]
    exact Option.or_none
  unfold currentUnitHashes
  dsimp only
  split
  · exact hfold
  · rw [Dict.get_set_ne _ _ _ _ (Ne.symm hne)]
    exact hfold

theorem get_currentUnitHashes_overview :
    (currentUnitHashes host index).get overviewSlug =
      if units index = [] then none
      else some (overviewInputsHash host ((currentTrees host index).map (unitHash host))) := by
  have hfold : ((currentNodes host index).foldl (fun hashes x =>
      hashes.set (currentHash host x.1 x.2).1 (currentHash host x.1 x.2).2) Dict.empty).get
        overviewSlug = none := by
    simp only [currentHash_eq]
    rw [get_foldl_set (nodeSlug host) fun y => host.sha256Text (nodeInputs host y)]
    have hnone : ((currentNodes host index).reverse.find? fun y => nodeSlug host y = overviewSlug) =
        none := List.find?_eq_none.mpr fun y _ => by
      rw [decide_eq_true_eq]
      exact overviewSlug_ne host y
    rw [hnone]
    rfl
  unfold currentUnitHashes
  dsimp only
  rw [unitRootHashes_eq]
  by_cases hempty : units index = []
  · rw [if_pos hempty, if_pos (by rw [currentTrees_eq, hempty]; rfl)]
    exact hfold
  · rw [if_neg hempty, if_neg, Dict.get_set_self]
    rw [currentTrees_eq, List.map_map]
    exact fun h => hempty (List.map_eq_nil_iff.mp h)

/-! ## The overview -/

theorem sortedTexts_perm {a b : List Text} (h : a.Perm b) : sortedTexts a = sortedTexts b := by
  unfold sortedTexts
  have hperm : (a.insertionSort (· ≤ ·)).Perm (b.insertionSort (· ≤ ·)) :=
    (List.perm_insertionSort _ a).trans (h.trans (List.perm_insertionSort _ b).symm)
  rw [hperm.eq_of_pairwise' (List.pairwise_insertionSort _ a) (List.pairwise_insertionSort _ b)]

theorem plain_sortedTexts (ts : List Text) : Plain (.list (sortedTexts ts)) := by
  have hitems : ∀ ts : List Text, PlainItems (ts.map Json.str) := by
    intro ts
    induction ts with
    | nil => exact trivial
    | cons t ts ih => exact ⟨trivial, ih⟩
  exact hitems _

/-- As many hashes go into one text as into the other. -/
theorem length_of_overviewInputs_eq {a b : List Text} (h : overviewInputs a = overviewInputs b) :
    a.length = b.length := by
  have hload := congrArg loads h
  unfold overviewInputs at hload
  rw [loads_dumps _ (plain_sortedTexts a), loads_dumps _ (plain_sortedTexts b)] at hload
  have hlists : sortedTexts a = sortedTexts b := Json.list.inj (Option.some.inj hload)
  have hlengths := congrArg List.length hlists
  simpa [sortedTexts] using hlengths

/-- The overview is compiled from the units that it is compared with unless the cap drops some. -/
theorem overview_fresh_iff (hcollision : ∀ a ∈ hashedTexts host index, ∀ b ∈ hashedTexts host index,
    host.sha256Text a = host.sha256Text b → a = b) :
    ((currentUnitHashes host index).get overviewSlug).any
        (· ≠ overviewInputsHash host ((unitPlans host index).map (unitHash host))) = false ↔
      index.unitNodes.length ≤ maxUnitPages := by
  rw [get_currentUnitHashes_overview]
  have hlen : (units index).length = index.unitNodes.length := List.length_map _
  by_cases hempty : units index = []
  · rw [if_pos hempty]
    have hzero : index.unitNodes.length = 0 := by rw [← hlen, hempty]; rfl
    exact ⟨fun _ => by omega, fun _ => rfl⟩
  · rw [if_neg hempty, Option.any_some, decide_eq_false_iff_not, not_not]
    constructor
    · intro hsame
      have htexts := hcollision _ (List.mem_cons_of_mem _ List.mem_cons_self) _ List.mem_cons_self
        hsame
      have hlengths := length_of_overviewInputs_eq htexts
      rw [currentTrees_eq, unitPlans_eq] at hlengths
      simp only [List.length_map] at hlengths
      have htake : (included index).length ≤ maxUnitPages := List.length_take_le _ _
      omega
    · intro hcap
      have hperm : ((currentTrees host index).map (unitHash host)).Perm
          ((unitPlans host index).map (unitHash host)) := by
        rw [currentTrees_eq, unitPlans_eq]
        exact (((included_perm index hcap).map _).map _).symm
      unfold overviewInputsHash overviewInputs
      rw [sortedTexts_perm hperm]

/-! ## Right after a compile -/

/-- The pages of the wiki itself are not among what it is compiled from. -/
theorem currentUnitHashes_compileWiki :
    currentUnitHashes host (compileWiki host index).2 = currentUnitHashes host index := by
  have hrecords : nonWikiRecords (compileWiki host index).2 = nonWikiRecords index := by
    unfold compileWiki nonWikiRecords
    dsimp only
    rw [List.filter_append]
    have hnone : ((manifestPages host index).map fun p : Page =>
        (⟨wikiDoc, p.file, host.pageContentHash p.slug⟩ : SourceRecord)).filter
          (·.sourceType ≠ wikiDoc) = [] := by
      rw [List.filter_eq_nil_iff]
      intro r hr
      obtain ⟨p, -, rfl⟩ := List.mem_map.mp hr
      simp
    rw [hnone, List.append_nil]
  have htrees : currentTrees host (compileWiki host index).2 = currentTrees host index := by
    unfold currentTrees
    rw [hrecords]
    rfl
  unfold currentUnitHashes currentNodes
  rw [htrees]

theorem manifestPages_eq :
    manifestPages host index =
      page overviewSlug (overviewInputsHash host ((unitPlans host index).map (unitHash host))) ::
        (writtenNodes host index).map fun x =>
          page (nodeSlug host x) (host.sha256Text (nodeInputs host x)) := by
  unfold manifestPages writtenNodes
  refine congrArg _ ?_
  have hpages : ∀ ps : List Planned, (∀ p ∈ ps, p ∈ plannedNodes host index) →
      ps.filterMap (compileNode host (keptPositions host index)) =
        ((ps.filter (isWritten host index)).map fun p => (p.unit, p.node)).map fun x =>
          page (nodeSlug host x) (host.sha256Text (nodeInputs host x)) := by
    intro ps hps
    induction ps with
    | nil => rfl
    | cons p ps ih =>
      obtain ⟨hp, hps⟩ := List.forall_mem_cons.mp hps
      rw [List.filterMap_cons, compileNode_eq host index p hp, ih hps, List.filter_cons]
      by_cases hw : isWritten host index p
      · rw [if_pos hw, if_pos hw, List.map_cons, List.map_cons]
      · rw [if_neg hw, if_neg hw]
  exact hpages _ fun p hp => hp

theorem mem_currentNodes_of_written (x : CodebaseUnit × ModuleNode)
    (hx : x ∈ writtenNodes host index) : x ∈ currentNodes host index := by
  obtain ⟨p, hp, rfl⟩ := List.mem_map.mp hx
  obtain ⟨hunit, htree, hnode⟩ := plannedNodes_spec host index p (List.mem_filter.mp hp).1
  unfold currentNodes
  rw [currentTrees_eq, List.mem_flatMap]
  refine ⟨(p.unit, treeOf host index p.unit), ?_, ?_⟩
  · exact List.mem_map_of_mem (mem_units_of_included index p.unit hunit)
  · rw [htree] at hnode
    exact List.mem_map_of_mem hnode

/-- A written page is fresh exactly when the last page of its slug has its inputs. -/
theorem page_fresh_iff (hcollision : ∀ a ∈ hashedTexts host index, ∀ b ∈ hashedTexts host index,
    host.sha256Text a = host.sha256Text b → a = b) (x : CodebaseUnit × ModuleNode)
    (hx : x ∈ writtenNodes host index) :
    ((currentUnitHashes host index).get (nodeSlug host x)).any
        (· ≠ host.sha256Text (nodeInputs host x)) = false ↔
      ∀ y, lastNode host index (nodeSlug host x) = some y → nodeInputs host y = nodeInputs host x := by
  have hmem := mem_currentNodes_of_written host index x hx
  have hhashed : ∀ y ∈ currentNodes host index, nodeInputs host y ∈ hashedTexts host index :=
    fun y hy => List.mem_cons_of_mem _ (List.mem_cons_of_mem _ (List.mem_map_of_mem hy))
  rw [get_currentUnitHashes]
  cases hlast : lastNode host index (nodeSlug host x) with
  | none =>
    have hnone := List.find?_eq_none.mp hlast x (List.mem_reverse.mpr hmem)
    exact absurd (decide_eq_true rfl) hnone
  | some y =>
    have hy : y ∈ currentNodes host index :=
      List.mem_reverse.mp (List.mem_of_find?_eq_some hlast)
    rw [Option.map_some, Option.any_some, decide_eq_false_iff_not, not_not]
    constructor
    · rintro hsame z hz
      cases hz
      exact hcollision _ (hhashed y hy) _ (hhashed x hmem) hsame
    · intro hall
      rw [hall y rfl]

/-- Right after a compile no page is stale exactly when no unit is past the cap, and every page
written has the inputs of the last page of its slug. -/
theorem fresh_iff (hcollision : ∀ a ∈ hashedTexts host index, ∀ b ∈ hashedTexts host index,
    host.sha256Text a = host.sha256Text b → a = b) :
    (∀ s ∈ wikiStatus host (compileWiki host index).1 (compileWiki host index).2,
      s.stale = false) ↔
    index.unitNodes.length ≤ maxUnitPages ∧
      ∀ x ∈ writtenNodes host index, ∀ y, lastNode host index (nodeSlug host x) = some y →
        nodeInputs host y = nodeInputs host x := by
  have hmanifest : (compileWiki host index).1 = manifestPages host index := rfl
  unfold wikiStatus
  rw [currentUnitHashes_compileWiki, hmanifest, manifestPages_eq]
  dsimp only
  rw [List.map_cons, List.forall_mem_cons, List.forall_mem_map, List.forall_mem_map]
  refine and_congr (overview_fresh_iff host index hcollision) ?_
  exact forall₂_congr fun x hx => page_fresh_iff host index hcollision x hx

end

/-! ## Repositories of units without files -/

/-- SHA-256 of the empty list. -/
def emptyHash : Text :=
  "sha256:4f53cda18c2baa0c0354bb5f9a3ecbe5ed12ab4d8e11ba873c2f11161202b945".toList

/-- SHA-256 of the texts that the repositories below come to. -/
def sampleSha256 (t : Text) : Text :=
  if t = "[]".toList then emptyHash
  else if t = overviewInputs [emptyHash] then
    "sha256:31d41ac4facebd66bf7241c0a0f5726c13b03f73e06efa2a581a578abeb19c35".toList
  else if t = overviewInputs (List.replicate 24 emptyHash) then
    "sha256:a3de1083efada6a2d084ff10a2c513168b9988ac2047fa6e0ff19b33a8f741a9".toList
  else if t = overviewInputs (List.replicate 25 emptyHash) then
    "sha256:45dfbcbab7e5dcc044d23755ea6b5a79bc495e974a49865701e8e39aa41aa34c".toList
  else []

def sampleHost : Host where
  lower := id
  sha256Text := sampleSha256
  pageContentHash := id
  moduleSplitFiles := 40
  wikiMaxPages := 64

/-- As many units as letters. -/
def letterUnits (letters : String) : Index where
  records := []
  unitNodes := letters.toList.map fun c => ⟨unitIdPrefix ++ [c], [c], 0⟩

theorem fresh_iff_one : (letterUnits "a").unitNodes.length ≤ maxUnitPages ∧
    ∀ x ∈ writtenNodes sampleHost (letterUnits "a"), ∀ y,
      lastNode sampleHost (letterUnits "a") (nodeSlug sampleHost x) = some y →
        nodeInputs sampleHost y = nodeInputs sampleHost x :=
  (fresh_iff sampleHost (letterUnits "a") (by decide +kernel)).mp (by decide +kernel)

/-- With 25 units the overview is stale as soon as it is written. -/
theorem overview_born_stale :
    ¬∀ s ∈ wikiStatus sampleHost
      (compileWiki sampleHost (letterUnits "abcdefghijklmnopqrstuvwxy")).1
      (compileWiki sampleHost (letterUnits "abcdefghijklmnopqrstuvwxy")).2, s.stale = false := by
  decide +kernel

end Agentrail.Wiki
