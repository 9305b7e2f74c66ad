import Agentrail.Py.Dict
import Agentrail.Py.Json
import Agentrail.Py.Re
import Mathlib.Data.Char
import Mathlib.Data.List.Lex
import Mathlib.Data.List.Sort

/-!
# The repo wiki (`context/wiki.py`)

`compile_wiki` plans the pages of a repository (one for each codebase unit, split into
module pages where a unit is large, and an overview), caps them, and records for every
page written the hash of its inputs in `manifest.json`.  `wiki_status` recomputes the
hashes from the index (`_current_unit_hashes`) and calls a page stale where they differ.

What the pages say does not take part: prose, skeletons, links and costs are left out,
and so is whether a page is written anew or its old text is kept.
-/

namespace Agentrail.Wiki

open Py

/-! ## The index -/

structure SourceRecord where
  sourceType : Text
  path : Text
  contentHash : Text
  deriving DecidableEq

/-- A `codebase_unit` node of the graph. -/
structure UnitNode where
  unitId : Text
  path : Text
  fileCount : Int
  deriving DecidableEq

structure Index where
  records : List SourceRecord
  unitNodes : List UnitNode
  deriving DecidableEq

/-- A unit as the compiler passes it around. -/
structure CodebaseUnit where
  id : Text
  path : Text
  deriving DecidableEq

/-- What the compiler is run with. -/
structure Host where
  /-- `str.lower` -/
  lower : Text → Text
  sha256Text : Text → Text
  /-- the content hash of the text of a page, by its slug -/
  pageContentHash : Text → Text
  /-- `module_split_files()` -/
  moduleSplitFiles : Nat
  /-- `wiki_max_pages()` -/
  wikiMaxPages : Nat

/-- `SOURCE_TYPE`. -/
def wikiDoc : Text := "wiki_doc".toList

def overviewSlug : Text := "wiki/overview".toList
def unitSlugPrefix : Text := "wiki/unit/".toList
def unitIdPrefix : Text := "codebase-unit:".toList

def maxUnitPages : Nat := 24
def moduleSplitDepthCap : Nat := 3
def moduleSubstanceFloor : Nat := 3

/-! ## Paths and slugs -/

/-- `value.strip("/")`. -/
def stripSlashes (t : Text) : Text :=
  ((t.dropWhile (· = '/')).reverse.dropWhile (· = '/')).reverse

def normalizedUnitPath (value : Text) : Text :=
  let normalized := stripSlashes (strip value)
  if normalized ≠ [] && normalized ≠ ['.'] then normalized else ['.']

def unitContainsPath (unitPath recordPath : Text) : Bool :=
  let normalized := normalizedUnitPath unitPath
  normalized = ['.'] || recordPath = normalized || (normalized ++ ['/']).isPrefixOf recordPath

/-- `re.sub(r"-+", "-", …)`. -/
def collapseDashes : Text → Text
  | c :: d :: t =>
    if c = '-' && d = '-' then collapseDashes (d :: t) else c :: collapseDashes (d :: t)
  | t => t

section
variable (host : Host)

def slugify (value : Text) : Text :=
  let kept := (host.lower value).filter fun c =>
    ('a' ≤ c && c ≤ 'z') || ('0' ≤ c && c ≤ '9') || isSpace c || c = '-'
  let slug := collapseDashes ((strip kept).map fun c => if c = ' ' then '-' else c)
  if slug = [] then "section".toList else slug

def unitLocalId (unit : CodebaseUnit) : Text :=
  if unitIdPrefix.isPrefixOf unit.id then unit.id.drop unitIdPrefix.length else unit.id

def unitSlug (unit : CodebaseUnit) : Text := unitSlugPrefix ++ unitLocalId unit

def moduleRelpathSlug (unitPath modulePath : Text) : Text :=
  let normalizedUnit := normalizedUnitPath unitPath
  let normalizedModule := normalizedUnitPath modulePath
  let pre := if normalizedUnit = ['.'] then [] else normalizedUnit ++ ['/']
  let rest := if pre ≠ [] && pre.isPrefixOf normalizedModule then normalizedModule.drop pre.length
    else normalizedModule
  let segments := (splitOn1 '/' rest).filter (· ≠ [])
  let slug := List.intercalate ['-'] (segments.map (slugify host))
  if slug = [] then "module".toList else slug

def moduleSlug (unit : CodebaseUnit) (modulePath : Text) : Text :=
  unitSlug unit ++ '/' :: moduleRelpathSlug host unit.path modulePath

/-- `slug_to_filename`, of the slugs above. -/
def slugToFilename (slug : Text) : Text :=
  if slug = overviewSlug then "overview.md".toList
  else "unit__".toList ++
    (slug.drop unitSlugPrefix.length).flatMap (fun c => if c = '/' then ['_', '_'] else [c]) ++
      ".md".toList

end

/-! ## The module tree -/

/-- `_ModuleNode`. -/
inductive ModuleNode where
  | node (path : Text) (depth : Nat) (directFiles : List SourceRecord)
      (children : List ModuleNode) (allFiles : List SourceRecord)

namespace ModuleNode

def path : ModuleNode → Text
  | node path _ _ _ _ => path

def depth : ModuleNode → Nat
  | node _ depth _ _ _ => depth

def directFiles : ModuleNode → List SourceRecord
  | node _ _ directFiles _ _ => directFiles

def children : ModuleNode → List ModuleNode
  | node _ _ _ children _ => children

def allFiles : ModuleNode → List SourceRecord
  | node _ _ _ _ allFiles => allFiles

end ModuleNode

/-- `sorted(files, key=lambda record: record.path)`. -/
def sortByPath (files : List SourceRecord) : List SourceRecord :=
  files.insertionSort fun a b => a.path ≤ b.path

/-- `_group_by_immediate_subdir`. -/
def groupByImmediateSubdir (basePath : Text) (files : List SourceRecord) :
    Dict Text (List SourceRecord) :=
  let normalizedBase := normalizedUnitPath basePath
  let pre := if normalizedBase = ['.'] then [] else normalizedBase ++ ['/']
  files.foldl (fun groups record =>
    let rest := if pre ≠ [] && pre.isPrefixOf record.path then record.path.drop pre.length
      else record.path
    let subdir := if rest.contains '/' then rest.takeWhile (· ≠ '/') else []
    groups.set subdir ((groups.get subdir).getD [] ++ [record])) Dict.empty

/-- `_build_module_tree`, by the levels that are left below the node. -/
def buildModuleTree (splitThreshold substanceFloor : Nat) :
    Nat → Text → Nat → List SourceRecord → ModuleNode
  | 0, path, depth, files => .node path depth (sortByPath files) [] (sortByPath files)
  | levels + 1, path, depth, files =>
    let sortedFiles := sortByPath files
    if sortedFiles.length ≤ splitThreshold then .node path depth sortedFiles [] sortedFiles
    else
      let groups := groupByImmediateSubdir path sortedFiles
      let filesOf := fun subdir => (groups.get subdir).getD []
      let subdirs := ((groups.erase []).items.map Prod.fst).insertionSort (· ≤ ·)
      let direct := filesOf [] ++
        (subdirs.filter fun subdir => (filesOf subdir).length < substanceFloor).flatMap filesOf
      let normalizedPath := normalizedUnitPath path
      let children := (subdirs.filter fun subdir =>
        !((filesOf subdir).length < substanceFloor)).map fun subdir =>
          let childPath := if normalizedPath = ['.'] then subdir
            else normalizedPath ++ '/' :: subdir
          buildModuleTree splitThreshold substanceFloor levels childPath (depth + 1)
            (filesOf subdir)
      if children.length = 0 then .node path depth sortedFiles [] sortedFiles
      else .node path depth (sortByPath direct)
        (children.insertionSort fun a b => a.path ≤ b.path) sortedFiles

mutual

/-- `_iter_tree`, without the slugs of the parents. -/
def iterTree : ModuleNode → List ModuleNode
  | .node path depth directFiles children allFiles =>
    .node path depth directFiles children allFiles :: iterForest children

def iterForest : List ModuleNode → List ModuleNode
  | [] => []
  | child :: children => iterTree child ++ iterForest children

end

/-! ## Hashes -/

section
variable (host : Host)

/-- `sorted((record.path, record.contentHash) for record in files)`. -/
def sortedPairs (files : List SourceRecord) : List Json :=
  ((files.map fun r => (r.path, r.contentHash)).insertionSort fun a b =>
    a.1 < b.1 || (a.1 = b.1 && a.2 ≤ b.2)).map fun pair => .list [.str pair.1, .str pair.2]

def sortedTexts (ts : List Text) : List Json := (ts.insertionSort (· ≤ ·)).map .str

/-- The texts that the three hash functions hash. -/
def unitInputs (unitFiles : List SourceRecord) : Text :=
  dumps compact (.list (sortedPairs unitFiles))

def overviewInputs (unitHashes : List Text) : Text :=
  dumps compact (.list (sortedTexts unitHashes))

def hubInputs (directFiles : List SourceRecord) (childSlugs : List Text) : Text :=
  dumps compact (.dict [("directFiles".toList, .list (sortedPairs directFiles)),
    ("children".toList, .list (sortedTexts childSlugs))])

def unitInputsHash (unitFiles : List SourceRecord) : Text :=
  host.sha256Text (unitInputs unitFiles)

def overviewInputsHash (unitHashes : List Text) : Text :=
  host.sha256Text (overviewInputs unitHashes)

def hubInputsHash (directFiles : List SourceRecord) (childSlugs : List Text) : Text :=
  host.sha256Text (hubInputs directFiles childSlugs)

/-! ## `compile_wiki` -/

/-- An entry of `manifest["pages"]`. -/
structure Page where
  slug : Text
  file : Text
  inputsHash : Text
  deriving DecidableEq

def page (slug inputsHash : Text) : Page :=
  ⟨slug, ".agentrail/context/wiki/".toList ++ slugToFilename slug, inputsHash⟩

def units (index : Index) : List CodebaseUnit := index.unitNodes.map fun node => ⟨node.unitId, node.path⟩

/-- `nodes_by_unit_id.get(id, {}).get("fileCount", 0)`. -/
def fileCountOf (index : Index) (id : Text) : Int :=
  ((index.unitNodes.reverse.find? (·.unitId = id)).map UnitNode.fileCount).getD 0

/-- `ranked_units`: the most files first, then by id. -/
def rankedUnits (index : Index) : List CodebaseUnit :=
  (units index).insertionSort fun u v =>
    fileCountOf index v.id < fileCountOf index u.id ||
      (fileCountOf index u.id = fileCountOf index v.id && u.id ≤ v.id)

def included (index : Index) : List CodebaseUnit := (rankedUnits index).take maxUnitPages

def nonWikiRecords (index : Index) : List SourceRecord :=
  index.records.filter (·.sourceType ≠ wikiDoc)

def moduleTree (unit : CodebaseUnit) (unitFiles : List SourceRecord) : ModuleNode :=
  buildModuleTree host.moduleSplitFiles moduleSubstanceFloor moduleSplitDepthCap unit.path 0
    unitFiles

/-- `unit_plans`. -/
def unitPlans (index : Index) : List (CodebaseUnit × ModuleNode) :=
  (included index).map fun unit =>
    (unit, moduleTree host unit
      (sortByPath ((nonWikiRecords index).filter fun r => unitContainsPath unit.path r.path)))

/-- A node of a planned tree; `position` tells it from all others. -/
structure Planned where
  unit : CodebaseUnit
  tree : ModuleNode
  node : ModuleNode
  position : Nat

def plannedNodes (index : Index) : List Planned :=
  ((unitPlans host index).flatMap fun plan =>
    (iterTree plan.2).map fun node => (plan.1, plan.2, node)).zipIdx.map fun x =>
      ⟨x.1.1, x.1.2.1, x.1.2.2, x.2⟩

/-- The positions of `kept_nodes`: the modules with the most files, within the budget. -/
def keptPositions (index : Index) : List Nat :=
  let candidates := ((plannedNodes host index).filter fun p => 0 < p.node.depth).insertionSort
    fun p q =>
      q.node.allFiles.length < p.node.allFiles.length ||
        (p.node.allFiles.length = q.node.allFiles.length &&
          (p.unit.id < q.unit.id || (p.unit.id = q.unit.id && p.node.path ≤ q.node.path)))
  (candidates.take (host.wikiMaxPages - 1 - (included index).length)).map Planned.position

def childSlugs (unit : CodebaseUnit) (node : ModuleNode) : List Text :=
  node.children.map fun child => moduleSlug host unit child.path

/-- The page of a node, unless the cap drops it. -/
def compileNode (kept : List Nat) (p : Planned) : Option Page :=
  if p.tree.children.length = 0 then
    -- a unit that never needed to split
    some (page (unitSlug p.unit) (unitInputsHash host p.tree.allFiles))
  else if p.node.depth ≠ 0 && !kept.contains p.position then none
  else if p.node.children.length ≠ 0 then
    let inputsHash := hubInputsHash host p.node.directFiles (childSlugs host p.unit p.node)
    some (page (if p.node.depth = 0 then unitSlug p.unit else moduleSlug host p.unit p.node.path)
      inputsHash)
  else some (page (moduleSlug host p.unit p.node.path) (unitInputsHash host p.node.allFiles))

/-- What a unit adds to `unit_hashes`. -/
def unitHash (plan : CodebaseUnit × ModuleNode) : Text :=
  if plan.2.children.length = 0 then unitInputsHash host plan.2.allFiles
  else hubInputsHash host plan.2.directFiles (childSlugs host plan.1 plan.2)

/-- `manifest["pages"]`. -/
def manifestPages (index : Index) : List Page :=
  let pages := (plannedNodes host index).filterMap (compileNode host (keptPositions host index))
  let unitHashes := (unitPlans host index).map (unitHash host)
  page overviewSlug (overviewInputsHash host unitHashes) :: pages

/-- `compile_wiki`: the manifest, and the index with a record for each page. -/
def compileWiki (index : Index) : List Page × Index :=
  let pages := manifestPages host index
  (pages, { index with
    records := index.records ++ pages.map fun p =>
      ⟨wikiDoc, p.file, host.pageContentHash p.slug⟩ })

/-! ## `wiki_status` -/

/-- The page of a node of the split tree of a unit, and its hash. -/
def currentHash (unit : CodebaseUnit) (splitNode : ModuleNode) : Text × Text :=
  let pageHash := if splitNode.children.length ≠ 0 then
      hubInputsHash host splitNode.directFiles (childSlugs host unit splitNode)
    else unitInputsHash host splitNode.allFiles
  (if splitNode.depth = 0 then unitSlug unit else moduleSlug host unit splitNode.path, pageHash)

/-- The units of the index with their trees. -/
def currentTrees (index : Index) : List (CodebaseUnit × ModuleNode) :=
  (units index).map fun unit =>
    (unit, moduleTree host unit
      ((nonWikiRecords index).filter fun r => unitContainsPath unit.path r.path))

/-- The nodes of all trees, in the order in which `_current_unit_hashes` visits them. -/
def currentNodes (index : Index) : List (CodebaseUnit × ModuleNode) :=
  (currentTrees host index).flatMap fun x => (iterTree x.2).map fun node => (x.1, node)

/-- `_current_unit_hashes`. -/
def currentUnitHashes (index : Index) : Dict Text Text :=
  let hashes := (currentNodes host index).foldl (fun hashes x =>
    let entry := currentHash host x.1 x.2
    hashes.set entry.1 entry.2) Dict.empty
  let unitRootHashes := ((currentNodes host index).filter fun x => x.2.depth = 0).map fun x =>
    (currentHash host x.1 x.2).2
  if unitRootHashes = [] then hashes
  else hashes.set overviewSlug (overviewInputsHash host unitRootHashes)

structure PageStatus where
  slug : Text
  inputsHash : Text
  currentInputsHash : Option Text
  stale : Bool
  deriving DecidableEq

/-- `wiki_status`. -/
def wikiStatus (manifest : List Page) (index : Index) : List PageStatus :=
  let currentHashes := currentUnitHashes host index
  manifest.map fun entry =>
    let currentHash := currentHashes.get entry.slug
    ⟨entry.slug, entry.inputsHash, currentHash, currentHash.any (· ≠ entry.inputsHash)⟩

end

end Agentrail.Wiki
