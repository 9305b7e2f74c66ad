import Mathlib.Data.Char
import Mathlib.Data.List.Lex
import Mathlib.Data.List.Sort
import Agentrail.Context.CodeGraph

/-!
# From a symbol's name to its nodes (`_build_symbol_node_map` of `context/retrieval.py`)

The records of an index give both the symbol table and the symbol nodes of the code graph.  The
map of names to node ids looks the place of each entry of the table up in the graph, where one
place has one node: of the symbols declared on one line it finds the one with the greatest id, as
the nodes are sorted.  An index without a table is scanned for the nodes with the name.

`symbolNodeMap_agrees`: the two agree on a name exactly if its node is the one found on every line
that declares it, as it is where a line declares one symbol.
-/

namespace Agentrail.SymbolMap

open Py CodeGraph

/-! ## The records -/

/-- What `extracted_symbols` finds in a file. -/
structure Symbol where
  name : Text
  kind : Text
  line : ℕ
  lineEnd : ℕ
  citation : Text
  deterministic : Bool := true
  deriving DecidableEq

structure SourceRecord where
  id : Text
  path : Text
  /-- empty where there is none -/
  content : Text
  authority : Text
  deriving DecidableEq

structure ChunkRecord where
  id : Text
  path : Text
  deriving DecidableEq

structure CodebaseUnit where
  id : Text
  name : Text
  path : Text
  deriving DecidableEq

structure Host where
  sha256Text : Text → Text
  /-- `extracted_symbols` of a text and its path -/
  extractedSymbols : Text → Text → List Symbol
  languageFor : Text → Text
  isTestPath : Text → Bool

section
variable (host : Host)

/-! ## `build_symbol_table` -/

/-- An entry of the symbol table. -/
structure Definition where
  path : Text
  lineStart : ℕ
  lineEnd : ℕ
  kind : Text
  language : Text
  citation : Text
  deterministic : Bool
  authority : Text
  deriving DecidableEq

/-- The symbols of the records that have a content, each with its record. -/
def declarations (records : List SourceRecord) : List (SourceRecord × Symbol) :=
  records.flatMap fun record =>
    if record.content = [] then []
    else (host.extractedSymbols record.content record.path).map fun sym => (record, sym)

def definition (record : SourceRecord) (sym : Symbol) : Definition where
  path := record.path
  lineStart := sym.line
  lineEnd := sym.lineEnd
  kind := sym.kind
  language := host.languageFor record.path
  citation := sym.citation
  deterministic := sym.deterministic
  authority := record.authority

def buildSymbolTable (records : List SourceRecord) : Dict Text (List Definition) :=
  (declarations host records).foldl
    (fun table found => table.append found.2.name (definition host found.1 found.2)) Dict.empty

/-! ## The nodes of `build_code_graph` -/

/-- `sha256_text(text)[7:23]` -/
def fingerprint (text : Text) : Text := ((host.sha256Text text).take 23).drop 7

def graphCodebaseUnitNodeId (unitId : Text) : Text :=
  "graph:codebase_unit:".toList ++ fingerprint host unitId

def graphFileNodeId (record : SourceRecord) : Text :=
  "graph:file:".toList ++ fingerprint host record.id

def graphSymbolNodeId (path name : Text) (line : ℕ) : Text :=
  "graph:symbol:".toList ++
    fingerprint host (path ++ ':' :: (name ++ ':' :: Nat.toDigits 10 line))

def graphTestNodeId (path : Text) : Text := "graph:test:".toList ++ fingerprint host path

def graphChunkNodeId (chunk : ChunkRecord) : Text :=
  "graph:chunk:".toList ++ fingerprint host chunk.id

def symbolNode (found : SourceRecord × Symbol) : Node where
  id := graphSymbolNodeId host found.1.path found.2.name found.2.line
  kind := "symbol".toList
  path := found.1.path
  name := found.2.name
  line := found.2.line

/-- The key that nodes are sorted by: kind, path and id. -/
def nodeKey (node : Node) : List Text := [node.kind, node.path, node.id]

/-- The nodes before they are sorted. -/
def collectedNodes (records : List SourceRecord) (chunks : List ChunkRecord)
    (codebaseUnits : List CodebaseUnit) : List Node :=
  codebaseUnits.map (fun unit =>
    { id := graphCodebaseUnitNodeId host unit.id, kind := "codebase_unit".toList
      path := unit.path, name := unit.name }) ++
  records.map (fun record =>
    { id := graphFileNodeId host record, kind := "file".toList, path := record.path }) ++
  (declarations host records).map (symbolNode host) ++
  (records.filter fun record => record.content ≠ [] ∧ host.isTestPath record.path).map
    (fun record =>
      { id := graphTestNodeId host record.path, kind := "test".toList, path := record.path }) ++
  chunks.map fun chunk =>
    { id := graphChunkNodeId host chunk, kind := "chunk".toList, path := chunk.path }

/-- The nodes of `build_code_graph`. -/
def codeGraphNodes (records : List SourceRecord) (chunks : List ChunkRecord)
    (codebaseUnits : List CodebaseUnit) : List Node :=
  (collectedNodes host records chunks codebaseUnits).insertionSort fun left right =>
    nodeKey left ≤ nodeKey right

end

/-! ## `_build_symbol_node_map` and the scan of `_anchor_start_nodes` -/

/-- The paths and lines of the symbol nodes, with their ids. -/
def symbolPlaces (nodes : List Node) : List ((Text × ℕ) × Text) :=
  (nodes.filter fun node => node.kind = "symbol".toList ∧ node.id ≠ []).map
    fun node => ((node.path, node.line), node.id)

def pathLineToNodeId (nodes : List Node) : Dict (Text × ℕ) Text :=
  Dict.ofItems (symbolPlaces nodes)

/-- The node ids of the entries of a name. -/
def nodeIds (places : Dict (Text × ℕ) Text) (entries : List Definition) : List Text :=
  (entries.filterMap fun entry => places.get (entry.path, entry.lineStart)).filter (· ≠ [])

def buildSymbolNodeMap (nodes : List Node) (symbolTable : Dict Text (List Definition)) :
    Dict Text (List Text) :=
  Dict.ofItems ((symbolTable.items.map fun item =>
    (item.1, nodeIds (pathLineToNodeId nodes) item.2)).filter fun item => item.2 ≠ [])

/-- The ids of the nodes that a linear scan finds for a name. -/
def scanSymbolNodes (nodes : List Node) (symbol : Text) : List Text :=
  ((nodes.filter fun node => node.kind = "symbol".toList ∧ node.name = symbol).map Node.id).filter
    (· ≠ [])

/-- The ids of the start nodes of a symbol anchor, by the map where the index has a table. -/
def anchorSymbolNodes (nodes : List Node) (symbolTable : Option (Dict Text (List Definition)))
    (symbol : Text) : List Text :=
  match symbolTable with
  | some table => ((buildSymbolNodeMap nodes table).get symbol).getD []
  | none => scanSymbolNodes nodes symbol

/-! ## What both are about -/

section
variable (host : Host) (records : List SourceRecord)

/-- A record declares the name at the place. -/
def Declares (name path : Text) (line : ℕ) : Prop :=
  ∃ found ∈ declarations host records,
    found.2.name = name ∧ found.1.path = path ∧ found.2.line = line

/-- On every line that declares the name, its node has the greatest id. -/
def Topmost (name : Text) : Prop :=
  ∀ path line, Declares host records name path line → ∀ other,
    Declares host records other path line →
      graphSymbolNodeId host path other line ≤ graphSymbolNodeId host path name line

/-- No node id belongs to two names. -/
def IdsApart : Prop :=
  ∀ name path line name' path' line', Declares host records name path line →
    Declares host records name' path' line' →
      graphSymbolNodeId host path name line = graphSymbolNodeId host path' name' line' →
        name = name'

end

section
variable {host : Host} {records : List SourceRecord} {chunks : List ChunkRecord}
  {codebaseUnits : List CodebaseUnit}

/-! ## The symbol table -/

theorem mem_buildSymbolTable (name : Text) (entry : Definition) :
    entry ∈ ((buildSymbolTable host records).get name).getD [] ↔
      ∃ found ∈ declarations host records,
        found.2.name = name ∧ entry = definition host found.1 found.2 := by
  have hfold : ∀ (founds : List (SourceRecord × Symbol)) (table : Dict Text (List Definition)),
      entry ∈ ((founds.foldl (fun table found =>
        table.append found.2.name (definition host found.1 found.2)) table).get name).getD [] ↔
      entry ∈ (table.get name).getD [] ∨
        ∃ found ∈ founds, found.2.name = name ∧ entry = definition host found.1 found.2 := by
    intro founds
    induction founds with
    | nil => simp
    | cons found founds ih =>
      intro table
      rw [List.foldl_cons, ih, Dict.mem_append, or_assoc, List.exists_mem_cons_iff]
  refine (hfold (declarations host records) Dict.empty).trans ⟨fun h => h.resolve_left ?_, Or.inr⟩
  exact List.not_mem_nil

theorem get_buildSymbolNodeMap_eq_some (nodes : List Node) (table : Dict Text (List Definition))
    (name : Text) (ids : List Text) :
    (buildSymbolNodeMap nodes table).get name = some ids ↔
      ids ≠ [] ∧ ∃ entries, table.get name = some entries ∧
        ids = nodeIds (pathLineToNodeId nodes) entries := by
  have hitem : (name, ids) ∈ ((table.items.map fun item =>
      (item.1, nodeIds (pathLineToNodeId nodes) item.2)).filter fun item => item.2 ≠ []) ↔
      ids ≠ [] ∧ ∃ entries, table.get name = some entries ∧
        ids = nodeIds (pathLineToNodeId nodes) entries := by
    rw [List.mem_filter, decide_eq_true_eq, and_comm, List.mem_map]
    apply and_congr_right
    intro _
    constructor
    · rintro ⟨⟨key, entries⟩, hin, he⟩
      cases he
      exact ⟨entries, (table.mem_items_iff _ _).mp hin, rfl⟩
    · rintro ⟨entries, hget, rfl⟩
      exact ⟨(name, entries), (table.mem_items_iff _ _).mpr hget, rfl⟩
  rw [← hitem]
  constructor
  · exact Dict.mem_of_get_ofItems _ _ _
  · refine Dict.get_ofItems_of_mem _ _ _ (List.Nodup.sublist (List.filter_sublist.map _) ?_)
    rw [List.map_map]
    exact table.nodup

/-- The map has what the places of a name's entries hold. -/
theorem get_buildSymbolNodeMap (nodes : List Node) (table : Dict Text (List Definition))
    (name : Text) : ((buildSymbolNodeMap nodes table).get name).getD [] =
      nodeIds (pathLineToNodeId nodes) ((table.get name).getD []) := by
  have hget := get_buildSymbolNodeMap_eq_some nodes table name
  cases hentries : table.get name with
  | none =>
    cases hids : (buildSymbolNodeMap nodes table).get name with
    | none => rfl
    | some ids =>
      obtain ⟨-, entries, hsome, -⟩ := (hget ids).mp hids
      rw [hentries] at hsome
      cases hsome
  | some entries =>
    by_cases hne : nodeIds (pathLineToNodeId nodes) entries = []
    · cases hids : (buildSymbolNodeMap nodes table).get name with
      | none => exact hne.symm
      | some ids =>
        obtain ⟨hids', entries', hsome, rfl⟩ := (hget ids).mp hids
        rw [hentries] at hsome
        cases hsome
        rfl
    · rw [(hget _).mpr ⟨hne, entries, hentries, rfl⟩]
      rfl

/-! ## The nodes -/

/-- The symbol nodes of the graph are those of the declarations. -/
theorem mem_symbolNodes (node : Node) :
    node ∈ codeGraphNodes host records chunks codebaseUnits ∧ node.kind = "symbol".toList ↔
      ∃ found ∈ declarations host records, node = symbolNode host found := by
  unfold codeGraphNodes collectedNodes
  rw [List.mem_insertionSort]
  simp only [List.mem_append, List.mem_map]
  constructor
  · rintro ⟨(((⟨_, -, rfl⟩ | ⟨_, -, rfl⟩) | ⟨found, hin, rfl⟩) | ⟨_, -, rfl⟩) | ⟨_, -, rfl⟩, hkind⟩
    · exact absurd hkind (show ¬ "codebase_unit".toList = "symbol".toList by decide)
    · exact absurd hkind (show ¬ "file".toList = "symbol".toList by decide)
    · exact ⟨found, hin, rfl⟩
    · exact absurd hkind (show ¬ "test".toList = "symbol".toList by decide)
    · exact absurd hkind (show ¬ "chunk".toList = "symbol".toList by decide)
  · rintro ⟨found, hin, rfl⟩
    exact ⟨Or.inl (Or.inl (Or.inr ⟨found, hin, rfl⟩)), rfl⟩

theorem mem_scanSymbolNodes (name id : Text) :
    id ∈ scanSymbolNodes (codeGraphNodes host records chunks codebaseUnits) name ↔
      ∃ path line, Declares host records name path line ∧
        id = graphSymbolNodeId host path name line := by
  unfold scanSymbolNodes
  rw [List.mem_filter, List.mem_map]
  constructor
  · rintro ⟨⟨node, hnode, rfl⟩, -⟩
    obtain ⟨hin, hcond⟩ := List.mem_filter.mp hnode
    obtain ⟨hkind, hname⟩ := of_decide_eq_true hcond
    obtain ⟨found, hfound, rfl⟩ := (mem_symbolNodes node).mp ⟨hin, hkind⟩
    exact ⟨found.1.path, found.2.line, ⟨found, hfound, hname, rfl, rfl⟩, hname ▸ rfl⟩
  · rintro ⟨_, _, ⟨found, hfound, rfl, rfl, rfl⟩, rfl⟩
    obtain ⟨hin, hkind⟩ : symbolNode host found ∈ codeGraphNodes host records chunks
        codebaseUnits ∧ (symbolNode host found).kind = "symbol".toList :=
      (mem_symbolNodes _).mpr ⟨found, hfound, rfl⟩
    refine ⟨⟨symbolNode host found, List.mem_filter.mpr ⟨hin, ?_⟩, rfl⟩, ?_⟩
    · exact decide_eq_true ⟨hkind, rfl⟩
    · exact decide_eq_true nofun

theorem last_le_of_key_le {kind path id id' : Text} (h : [kind, path, id] ≤ [kind, path, id']) :
    id ≤ id' := by
  by_contra hnot
  have hlt : id' < id := Std.not_le.mp hnot
  have hkeys : [kind, path, id'] < [kind, path, id] := .cons (.cons (.rel hlt))
  exact Std.not_le.mpr hkeys h

/-- Nodes of one kind and path are sorted by their ids. -/
theorem codeGraphNodes_sorted : (codeGraphNodes host records chunks codebaseUnits).Pairwise
    fun a b => a.kind = b.kind → a.path = b.path → a.id ≤ b.id := by
  have hsorted : (codeGraphNodes host records chunks codebaseUnits).Pairwise
      fun a b => nodeKey a ≤ nodeKey b := by
    have htotal : Std.Total fun a b : Node => nodeKey a ≤ nodeKey b :=
      ⟨fun a b => Std.le_total⟩
    have htrans : IsTrans Node fun a b => nodeKey a ≤ nodeKey b :=
      ⟨fun a b c => Std.le_trans⟩
    exact List.pairwise_insertionSort _ _
  refine hsorted.imp fun {a b} hle hkind hpath => ?_
  unfold nodeKey at hle
  rw [hkind, hpath] at hle
  exact last_le_of_key_le hle

theorem mem_symbolPlaces (path : Text) (line : ℕ) (id : Text) :
    ((path, line), id) ∈ symbolPlaces (codeGraphNodes host records chunks codebaseUnits) ↔
      ∃ name, Declares host records name path line ∧
        id = graphSymbolNodeId host path name line := by
  unfold symbolPlaces
  rw [List.mem_map]
  constructor
  · rintro ⟨node, hnode, he⟩
    obtain ⟨hin, hcond⟩ := List.mem_filter.mp hnode
    obtain ⟨found, hfound, rfl⟩ :=
      (mem_symbolNodes node).mp ⟨hin, (of_decide_eq_true hcond).1⟩
    cases he
    exact ⟨found.2.name, ⟨found, hfound, rfl, rfl, rfl⟩, rfl⟩
  · rintro ⟨_, ⟨found, hfound, rfl, rfl, rfl⟩, rfl⟩
    obtain ⟨hin, hkind⟩ : symbolNode host found ∈ codeGraphNodes host records chunks
        codebaseUnits ∧ (symbolNode host found).kind = "symbol".toList :=
      (mem_symbolNodes _).mpr ⟨found, hfound, rfl⟩
    exact ⟨symbolNode host found,
      List.mem_filter.mpr ⟨hin, decide_eq_true ⟨hkind, nofun⟩⟩, rfl⟩

theorem symbolPlaces_sorted :
    (symbolPlaces (codeGraphNodes host records chunks codebaseUnits)).Pairwise
      fun a b => a.1 = b.1 → a.2 ≤ b.2 := by
  unfold symbolPlaces
  rw [List.pairwise_map]
  refine (codeGraphNodes_sorted.filter _).imp_of_mem fun {a b} ha hb hle he => ?_
  have hkinda := (of_decide_eq_true (List.mem_filter.mp ha).2).1
  have hkindb := (of_decide_eq_true (List.mem_filter.mp hb).2).1
  exact hle (hkinda.trans hkindb.symm) (congrArg Prod.fst he)

/-- **A place where a name is declared has the greatest id of the symbols declared there.** -/
theorem exists_get_pathLineToNodeId {name path : Text} {line : ℕ}
    (h : Declares host records name path line) :
    ∃ id, (pathLineToNodeId (codeGraphNodes host records chunks codebaseUnits)).get (path, line) =
        some id ∧
      (∃ top, Declares host records top path line ∧ id = graphSymbolNodeId host path top line) ∧
        ∀ other, Declares host records other path line →
          graphSymbolNodeId host path other line ≤ id := by
  have hin : ((path, line), graphSymbolNodeId host path name line) ∈
      symbolPlaces (codeGraphNodes host records chunks codebaseUnits) :=
    (mem_symbolPlaces path line _).mpr ⟨name, h, rfl⟩
  obtain ⟨id, hget⟩ := Dict.exists_get_ofItems (List.mem_map.mpr ⟨_, hin, rfl⟩)
  refine ⟨id, hget, (mem_symbolPlaces path line id).mp (Dict.mem_of_get_ofItems _ _ _ hget), ?_⟩
  intro other hother
  exact getItem_dictItems_greatest (· ≤ ·) (fun _ => Std.le_refl _) symbolPlaces_sorted hget
    ((mem_symbolPlaces path line _).mpr ⟨other, hother, rfl⟩)

theorem mem_nodeIds (name id : Text) :
    id ∈ anchorSymbolNodes (codeGraphNodes host records chunks codebaseUnits)
        (some (buildSymbolTable host records)) name ↔
      ∃ path line, Declares host records name path line ∧
        (pathLineToNodeId (codeGraphNodes host records chunks codebaseUnits)).get (path, line) =
          some id := by
  show id ∈ ((buildSymbolNodeMap _ _).get name).getD [] ↔ _
  rw [get_buildSymbolNodeMap]
  unfold nodeIds
  rw [List.mem_filter, List.mem_filterMap]
  constructor
  · rintro ⟨⟨entry, hentry, hget⟩, -⟩
    obtain ⟨found, hfound, hname, rfl⟩ := (mem_buildSymbolTable name entry).mp hentry
    exact ⟨found.1.path, found.2.line, ⟨found, hfound, hname, rfl, rfl⟩, hget⟩
  · rintro ⟨_, _, ⟨found, hfound, hname, rfl, rfl⟩, hget⟩
    refine ⟨⟨definition host found.1 found.2, ?_, hget⟩, ?_⟩
    · exact (mem_buildSymbolTable name _).mpr ⟨found, hfound, hname, rfl⟩
    · obtain ⟨other, -, rfl⟩ :=
        (mem_symbolPlaces _ _ _).mp (Dict.mem_of_get_ofItems _ _ _ hget)
      exact decide_eq_true nofun

/-! ## Map and scan -/

/-- Where a name's nodes have the greatest ids, the map finds what the scan does. -/
theorem agrees_of_topmost {name : Text} (h : Topmost host records name) (id : Text) :
    id ∈ anchorSymbolNodes (codeGraphNodes host records chunks codebaseUnits)
        (some (buildSymbolTable host records)) name ↔
      id ∈ anchorSymbolNodes (codeGraphNodes host records chunks codebaseUnits) none name := by
  rw [mem_nodeIds]
  show _ ↔ id ∈ scanSymbolNodes _ name
  rw [mem_scanSymbolNodes]
  -- on a line that declares the name, the node found is the name's
  have hown : ∀ path line, Declares host records name path line →
      (pathLineToNodeId (codeGraphNodes host records chunks codebaseUnits)).get (path, line) =
        some (graphSymbolNodeId host path name line) := by
    intro path line hname
    obtain ⟨id, hget, ⟨top, htop, rfl⟩, hgreatest⟩ := exists_get_pathLineToNodeId hname
    rw [hget, Std.le_antisymm (h path line hname top htop) (hgreatest name hname)]
  constructor
  · rintro ⟨path, line, hname, hget⟩
    rw [hown path line hname] at hget
    exact ⟨path, line, hname, (Option.some.inj hget).symm⟩
  · rintro ⟨path, line, hname, rfl⟩
    exact ⟨path, line, hname, hown path line hname⟩

/-- Where no id belongs to two names, the map finds what the scan does for no other name. -/
theorem topmost_of_agrees (hapart : IdsApart host records) {name : Text}
    (h : ∀ id, id ∈ anchorSymbolNodes (codeGraphNodes host records chunks codebaseUnits)
        (some (buildSymbolTable host records)) name →
      id ∈ anchorSymbolNodes (codeGraphNodes host records chunks codebaseUnits) none name) :
    Topmost host records name := by
  intro path line hname other hother
  -- the node found on the line is one of the name's by the scan, so it is the name's node there
  obtain ⟨id, hid, ⟨top, htop, rfl⟩, hgreatest⟩ := exists_get_pathLineToNodeId hname
  obtain ⟨path', line', hname', hsame⟩ := (mem_scanSymbolNodes name _).mp
    (h _ ((mem_nodeIds name _).mpr ⟨path, line, hname, hid⟩))
  obtain rfl : top = name := hapart _ _ _ _ _ _ htop hname' hsame
  exact hgreatest other hother

end

/-- **The map agrees with the scan** on a name exactly if, on every line that declares it, its node
has the greatest id of those declared there. -/
theorem symbolNodeMap_agrees (host : Host) (records : List SourceRecord)
    (chunks : List ChunkRecord) (codebaseUnits : List CodebaseUnit) (name : Text) :
    (Topmost host records name →
      ∀ id, id ∈ anchorSymbolNodes (codeGraphNodes host records chunks codebaseUnits)
          (some (buildSymbolTable host records)) name ↔
        id ∈ anchorSymbolNodes (codeGraphNodes host records chunks codebaseUnits) none name) ∧
    (IdsApart host records →
      ((∀ id, id ∈ anchorSymbolNodes (codeGraphNodes host records chunks codebaseUnits)
          (some (buildSymbolTable host records)) name ↔
        id ∈ anchorSymbolNodes (codeGraphNodes host records chunks codebaseUnits) none name) ↔
        Topmost host records name)) :=
  ⟨agrees_of_topmost, fun hapart =>
    ⟨fun h => topmost_of_agrees hapart fun id => (h id).mp, agrees_of_topmost⟩⟩

/-! ## A class and its method on one line -/

/-- The digests of what is hashed here. -/
def sampleDigest (text : Text) : Text :=
  if text = "a.js:A:1".toList then
    "sha256:05dda2243173ce884dfa2901ae87cc6195e47c323fcae8d5a98225c1ac5ece97".toList
  else if text = "a.js:m:1".toList then
    "sha256:7b819ea923484920a4be0de655a7847b48949af20767b707a1d4ec24408aae73".toList
  else "sha256:a51e95154c39c1cd244ab145813b559a1a301c21db7a102bbaa5c5a658c4366d".toList

def sampleText : Text := "class A { m() {} }".toList

def sampleHost : Host where
  sha256Text := sampleDigest
  extractedSymbols text path :=
    if text = sampleText then
      [⟨['A'], "class".toList, 1, 1, path ++ "#L1".toList, true⟩,
        ⟨['m'], "method".toList, 1, 1, path ++ "#L1".toList, true⟩]
    else []
  languageFor _ := "javascript".toList
  isTestPath _ := false

def sampleRecords : List SourceRecord :=
  [⟨"source:a.js".toList, "a.js".toList, sampleText, "high".toList⟩]

theorem declares_sample {name path : Text} {line : ℕ}
    (h : Declares sampleHost sampleRecords name path line) :
    (name = ['A'] ∨ name = ['m']) ∧ path = "a.js".toList ∧ line = 1 := by
  obtain ⟨found, hfound, rfl, rfl, rfl⟩ := h
  have hall : ∀ found ∈ declarations sampleHost sampleRecords,
      (found.2.name = ['A'] ∨ found.2.name = ['m']) ∧ found.1.path = "a.js".toList ∧
        found.2.line = 1 := by decide +kernel
  exact hall found hfound

theorem sample_idsApart : IdsApart sampleHost sampleRecords := by
  intro name path line name' path' line' h h' hsame
  obtain ⟨hname, rfl, rfl⟩ := declares_sample h
  obtain ⟨hname', rfl, rfl⟩ := declares_sample h'
  have hother : graphSymbolNodeId sampleHost "a.js".toList ['A'] 1 ≠
      graphSymbolNodeId sampleHost "a.js".toList ['m'] 1 := by decide +kernel
  rcases hname with rfl | rfl
  · rcases hname' with rfl | rfl
    · rfl
    · exact absurd hsame hother
  · rcases hname' with rfl | rfl
    · exact absurd hsame.symm hother
    · rfl

theorem sample_topmost : Topmost sampleHost sampleRecords ['m'] := by
  intro path line h other hother
  obtain ⟨-, rfl, rfl⟩ := declares_sample h
  rcases (declares_sample hother).1 with rfl | rfl
  · decide +kernel
  · exact Std.le_refl _

/-- The method is found as itself, and the class as its node is the greater one or not. -/
theorem method_found_as_itself :
    (∀ id, id ∈ anchorSymbolNodes (codeGraphNodes sampleHost sampleRecords [] [])
        (some (buildSymbolTable sampleHost sampleRecords)) ['m'] ↔
      id ∈ anchorSymbolNodes (codeGraphNodes sampleHost sampleRecords [] []) none ['m']) ∧
    ((∀ id, id ∈ anchorSymbolNodes (codeGraphNodes sampleHost sampleRecords [] [])
        (some (buildSymbolTable sampleHost sampleRecords)) ['A'] ↔
      id ∈ anchorSymbolNodes (codeGraphNodes sampleHost sampleRecords [] []) none ['A']) ↔
      Topmost sampleHost sampleRecords ['A']) :=
  ⟨(symbolNodeMap_agrees sampleHost sampleRecords [] [] ['m']).1 sample_topmost,
    (symbolNodeMap_agrees sampleHost sampleRecords [] [] ['A']).2 sample_idsApart⟩

/-- The map takes the class for its method. -/
theorem class_found_as_its_method :
    ¬ ∀ name id, id ∈ anchorSymbolNodes (codeGraphNodes sampleHost sampleRecords [] [])
        (some (buildSymbolTable sampleHost sampleRecords)) name ↔
      id ∈ anchorSymbolNodes (codeGraphNodes sampleHost sampleRecords [] []) none name := by
  intro h
  have hscan := (h ['A'] "graph:symbol:05dda2243173ce88".toList).mpr (by decide +kernel)
  exact absurd hscan (by decide +kernel)

end Agentrail.SymbolMap
