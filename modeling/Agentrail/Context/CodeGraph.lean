import Mathlib.Data.Finset.Dedup
import Mathlib.Order.Bounds.Basic
import Mathlib.Order.Lattice.Nat
import Agentrail.Lib.HopSearch
import Agentrail.Py.Basic

/-!
# Distances in the code graph (`_graph_distance_by_path`, `_bfs_transitive_callers` of
`context/retrieval.py`)

Ranking takes the distance of a file from the nodes a query is anchored at, in edges taken in
either direction; the blast radius of a symbol takes its callers, the callers of these and so on.
Both are searches of `HopSearch`: from a queue, and level by level.

`graphDistanceByPath_spec`: the queue runs empty, and the distance of a path is the least number
of edges.  `mem_bfsTransitiveCallers`: the callers are the nodes with a chain of calls to a start.
-/

namespace Agentrail.CodeGraph

open Py HopSearch

/-! ## The graph -/

/-- A node; a text is empty where the field is missing. -/
structure Node where
  id : Text
  kind : Text
  path : Text
  name : Text := []
  line : ℕ := 0
  deriving DecidableEq

structure Edge where
  kind : Text
  fromId : Option Text
  toId : Option Text
  resolved : Bool := false
  reversed : Bool := false
  deriving DecidableEq

structure Graph where
  nodes : List Node
  edges : List Edge

/-- A value of `edge.get(..)` as a condition: neither missing nor empty. -/
def truthy (value : Option Text) : Option Text := value.filter fun t => t ≠ []

/-- `_QUERY_TIME_EXCLUDED_EDGE_KINDS` -/
def queryTimeExcludedEdgeKinds : List Text := ["unit_depends_on".toList]

/-! ## `_graph_neighbors` -/

def Edge.reverse (edge : Edge) : Edge :=
  { edge with fromId := edge.toId, toId := edge.fromId, reversed := true }

def addNeighbors (neighbors : Dict Text (List Edge)) (edge : Edge) : Dict Text (List Edge) :=
  if edge.kind ∈ queryTimeExcludedEdgeKinds then neighbors
  else
    match truthy edge.fromId, truthy edge.toId with
    | some left, some right => (neighbors.append left edge).append right edge.reverse
    | _, _ => neighbors

def graphNeighbors (graph : Graph) : Dict Text (List Edge) :=
  graph.edges.foldl addNeighbors Dict.empty

/-! ## `_graph_distance_by_path` -/

/-- The nodes with an id, under it: the last one where several have it. -/
def nodesById (graph : Graph) : Dict Text Node :=
  Dict.ofItems ((graph.nodes.filter fun node => node.id ≠ []).map fun node => (node.id, node))

/-- Where the loop goes from a node: the guard against excluded kinds is made once more. -/
def successors (neighbors : Dict Text (List Edge)) (nodeId : Text) : List Text :=
  (((neighbors.get nodeId).getD []).filter fun edge =>
    edge.kind ∉ queryTimeExcludedEdgeKinds).filterMap fun edge => truthy edge.toId

/-- The round of a node in the loop over the depths found. -/
def lowerPath (nodes : Dict Text Node) (distance : Dict Text ℕ) (item : Text × ℕ) : Dict Text ℕ :=
  match nodes.get item.1 with
  | none => distance
  | some node =>
    if node.path = [] then distance
    else if (distance.get node.path).all (item.2 < ·) then distance.set node.path item.2
    else distance

/-- More rounds than the queue can take. -/
def rounds (graph : Graph) (starts : List Text) (maxHops : ℕ) : ℕ :=
  2 * graph.edges.length * (maxHops + 1) + starts.length + 1

/-- `_graph_distance_by_path` from the start nodes of the anchors. -/
def graphDistanceByPath (graph : Graph) (anchorStartNodes : List Text) (maxHops : ℕ) :
    Option (Dict Text ℕ) :=
  if anchorStartNodes = [] then some Dict.empty
  else
    (search (successors (graphNeighbors graph)) maxHops (rounds graph anchorStartNodes maxHops)
      (startState anchorStartNodes)).map fun bestDepth =>
        bestDepth.items.foldl (lowerPath (nodesById graph)) Dict.empty

/-! ## `_bfs_transitive_callers` -/

def addInbound (inbound : Dict Text (List Text)) (edge : Edge) : Dict Text (List Text) :=
  if edge.kind ≠ "calls".toList then inbound
  else if edge.resolved = false then inbound
  else
    match edge.toId, edge.fromId with
    | some toId, some fromId => inbound.append toId fromId
    | _, _ => inbound

def inboundCalls (graph : Graph) : Dict Text (List Text) :=
  graph.edges.foldl addInbound Dict.empty

def bfsTransitiveCallers (graph : Graph) (startNodeIds : Finset Text) (maxDepth : ℤ) :
    Finset Text :=
  levels (fun nodeId => (((inboundCalls graph).get nodeId).getD []).toFinset) startNodeIds
    maxDepth.toNat ∅ startNodeIds

/-! ## What they are for -/

/-- An edge between two nodes, in either direction, that queries may take. -/
def Linked (graph : Graph) (a b : Text) : Prop :=
  a ≠ [] ∧ b ≠ [] ∧ ∃ edge ∈ graph.edges, edge.kind ∉ queryTimeExcludedEdgeKinds ∧
    ((edge.fromId = some a ∧ edge.toId = some b) ∨ (edge.fromId = some b ∧ edge.toId = some a))

/-- A resolved call of the second node by the first. -/
def Calls (graph : Graph) (a b : Text) : Prop :=
  ∃ edge ∈ graph.edges, edge.kind = "calls".toList ∧ edge.resolved = true ∧
    edge.fromId = some a ∧ edge.toId = some b

/-- The node of an id has the path. -/
def HasPath (graph : Graph) (nodeId path : Text) : Prop :=
  path ≠ [] ∧ ∃ node, (nodesById graph).get nodeId = some node ∧ node.path = path

/-- The numbers of edges that lead from a start to a node with the path. -/
def pathHops (graph : Graph) (starts : List Text) (path : Text) : Set ℕ :=
  {n | ∃ a ∈ starts, ∃ b, Walk (Linked graph) n a b ∧ HasPath graph b path}

/-! ## The neighbours -/

theorem truthy_eq_some {value : Option Text} {t : Text} :
    truthy value = some t ↔ value = some t ∧ t ≠ [] := by
  unfold truthy
  rw [Option.filter_eq_some_iff, decide_eq_true_eq]

/-- What one edge adds to the neighbours of a node. -/
theorem mem_addNeighbors (neighbors : Dict Text (List Edge)) (edge : Edge) (a : Text)
    (found : Edge) : found ∈ ((addNeighbors neighbors edge).get a).getD [] ↔
      found ∈ (neighbors.get a).getD [] ∨
        (edge.kind ∉ queryTimeExcludedEdgeKinds ∧ ∃ left right, truthy edge.fromId = some left ∧
          truthy edge.toId = some right ∧
            ((left = a ∧ found = edge) ∨ (right = a ∧ found = edge.reverse))) := by
  unfold addNeighbors
  by_cases hkind : edge.kind ∈ queryTimeExcludedEdgeKinds
  · rw [if_pos hkind]
    exact ⟨Or.inl, fun h => h.resolve_right fun hnew => hnew.1 hkind⟩
  · rw [if_neg hkind]
    cases hleft : truthy edge.fromId with
    | none => simp
    | some left =>
      cases hright : truthy edge.toId with
      | none => simp
      | some right =>
        show found ∈ (((neighbors.append left edge).append right edge.reverse).get a).getD [] ↔ _
        rw [Dict.mem_append, Dict.mem_append, or_assoc]
        apply or_congr_right
        constructor
        · exact fun h => ⟨hkind, left, right, rfl, rfl, h⟩
        · rintro ⟨-, l, r, hl, hr, h⟩
          cases hl
          cases hr
          exact h

theorem mem_graphNeighbors (graph : Graph) (a : Text) (found : Edge) :
    found ∈ ((graphNeighbors graph).get a).getD [] ↔
      ∃ edge ∈ graph.edges, edge.kind ∉ queryTimeExcludedEdgeKinds ∧
        ∃ left right, truthy edge.fromId = some left ∧ truthy edge.toId = some right ∧
          ((left = a ∧ found = edge) ∨ (right = a ∧ found = edge.reverse)) := by
  have hfold : ∀ (edges : List Edge) (neighbors : Dict Text (List Edge)),
      found ∈ ((edges.foldl addNeighbors neighbors).get a).getD [] ↔
        found ∈ (neighbors.get a).getD [] ∨
        ∃ edge ∈ edges, edge.kind ∉ queryTimeExcludedEdgeKinds ∧
          ∃ left right, truthy edge.fromId = some left ∧ truthy edge.toId = some right ∧
            ((left = a ∧ found = edge) ∨ (right = a ∧ found = edge.reverse)) := by
    intro edges
    induction edges with
    | nil => simp
    | cons edge edges ih =>
      intro neighbors
      rw [List.foldl_cons, ih, mem_addNeighbors, or_assoc, List.exists_mem_cons_iff]
  refine (hfold graph.edges Dict.empty).trans ⟨fun h => h.resolve_left ?_, Or.inr⟩
  exact List.not_mem_nil

/-- **The loop goes along the edges**, in either direction. -/
theorem mem_successors (graph : Graph) (a b : Text) :
    b ∈ successors (graphNeighbors graph) a ↔ Linked graph a b := by
  unfold successors Linked
  rw [List.mem_filterMap]
  constructor
  · rintro ⟨found, hfound, hb⟩
    obtain ⟨edge, hin, hkind, left, right, hl, hr, hcase⟩ :=
      (mem_graphNeighbors graph a found).mp (List.mem_filter.mp hfound).1
    rw [truthy_eq_some] at hl hr hb
    rcases hcase with ⟨rfl, rfl⟩ | ⟨rfl, rfl⟩
    · exact ⟨hl.2, hb.2, found, hin, hkind, Or.inl ⟨hl.1, hb.1⟩⟩
    · exact ⟨hr.2, hb.2, edge, hin, hkind, Or.inr ⟨hb.1, hr.1⟩⟩
  · rintro ⟨ha, hb, edge, hin, hkind, ⟨hfrom, hto⟩ | ⟨hfrom, hto⟩⟩
    · refine ⟨edge, List.mem_filter.mpr ⟨?_, decide_eq_true hkind⟩, truthy_eq_some.mpr ⟨hto, hb⟩⟩
      exact (mem_graphNeighbors graph a edge).mpr ⟨edge, hin, hkind, a, b,
        truthy_eq_some.mpr ⟨hfrom, ha⟩, truthy_eq_some.mpr ⟨hto, hb⟩, Or.inl ⟨rfl, rfl⟩⟩
    · refine ⟨edge.reverse, List.mem_filter.mpr ⟨?_, decide_eq_true hkind⟩,
        truthy_eq_some.mpr ⟨hfrom, hb⟩⟩
      exact (mem_graphNeighbors graph a edge.reverse).mpr ⟨edge, hin, hkind, b, a,
        truthy_eq_some.mpr ⟨hfrom, hb⟩, truthy_eq_some.mpr ⟨hto, ha⟩, Or.inr ⟨rfl, rfl⟩⟩

/-! ## The distances -/

/-- The depths found for the nodes that have a path. -/
def depthsAt (graph : Graph) (items : List (Text × ℕ)) (path : Text) : Set ℕ :=
  {depth | ∃ nodeId, (nodeId, depth) ∈ items ∧ HasPath graph nodeId path}

theorem depthsAt_append (graph : Graph) (items : List (Text × ℕ)) (item : Text × ℕ)
    (path : Text) (depth : ℕ) : depth ∈ depthsAt graph (items ++ [item]) path ↔
      depth ∈ depthsAt graph items path ∨ (item.2 = depth ∧ HasPath graph item.1 path) := by
  constructor
  · rintro ⟨nodeId, hin, hpath⟩
    rcases List.mem_append.mp hin with hin | hin
    · exact Or.inl ⟨nodeId, hin, hpath⟩
    · cases List.mem_singleton.mp hin
      exact Or.inr ⟨rfl, hpath⟩
  · rintro (⟨nodeId, hin, hpath⟩ | ⟨rfl, hpath⟩)
    · exact ⟨nodeId, List.mem_append_left _ hin, hpath⟩
    · exact ⟨item.1, List.mem_append_right _ (List.mem_singleton_self _), hpath⟩

theorem lowerPath_of_path (graph : Graph) (distance : Dict Text ℕ) (item : Text × ℕ)
    {path : Text} (h : HasPath graph item.1 path) :
    (lowerPath (nodesById graph) distance item).get path =
      some (((distance.get path).map (min item.2)).getD item.2) := by
  obtain ⟨hne, node, hnode, rfl⟩ := h
  unfold lowerPath
  rw [hnode]
  dsimp only
  rw [if_neg hne]
  cases hget : distance.get node.path with
  | none =>
    rw [Option.all_none, if_pos rfl, Dict.get_set_self]
    rfl
  | some depth =>
    rw [Option.all_some]
    by_cases hlt : item.2 < depth
    · rw [if_pos (decide_eq_true hlt), Dict.get_set_self]
      exact congrArg some (Nat.min_eq_left (Nat.le_of_lt hlt)).symm
    · rw [if_neg fun h => hlt (of_decide_eq_true h), hget]
      exact congrArg some (Nat.min_eq_right (Nat.le_of_not_lt hlt)).symm

theorem lowerPath_of_not_path (graph : Graph) (distance : Dict Text ℕ) (item : Text × ℕ)
    {path : Text} (h : ¬ HasPath graph item.1 path) :
    (lowerPath (nodesById graph) distance item).get path = distance.get path := by
  unfold lowerPath
  cases hnode : (nodesById graph).get item.1 with
  | none => rfl
  | some node =>
    dsimp only
    by_cases hempty : node.path = []
    · rw [if_pos hempty]
    · rw [if_neg hempty]
      have hother : node.path ≠ path := by
        rintro rfl
        exact h ⟨hempty, node, hnode, rfl⟩
      by_cases hlt : (distance.get node.path).all (item.2 < ·)
      · rw [if_pos hlt, Dict.get_set_ne _ _ _ _ hother]
      · rw [if_neg hlt]

/-- One round keeps the least depth of each path. -/
theorem lowerPath_isLeast (graph : Graph) (items : List (Text × ℕ)) (item : Text × ℕ)
    (distance : Dict Text ℕ)
    (h : ∀ path k, distance.get path = some k ↔ IsLeast (depthsAt graph items path) k)
    (path : Text) (k : ℕ) : (lowerPath (nodesById graph) distance item).get path = some k ↔
      IsLeast (depthsAt graph (items ++ [item]) path) k := by
  by_cases hpath : HasPath graph item.1 path
  · have hinsert : depthsAt graph (items ++ [item]) path =
        insert item.2 (depthsAt graph items path) := by
      ext depth
      rw [depthsAt_append, Set.mem_insert_iff, or_comm]
      exact or_congr_left ⟨fun hnew => hnew.1.symm, fun hnew => ⟨hnew.symm, hpath⟩⟩
    have hleast : IsLeast (insert item.2 (depthsAt graph items path))
        (((distance.get path).map (min item.2)).getD item.2) := by
      cases hget : distance.get path with
      | none =>
        -- nothing found for the path so far: a set of numbers without a least one is empty
        have hempty : depthsAt graph items path = ∅ := by
          by_contra hsome
          have hne := Set.nonempty_iff_ne_empty.mpr hsome
          have hinf := (h path (sInf (depthsAt graph items path))).mpr
            ⟨Nat.sInf_mem hne, fun m hm => Nat.sInf_le hm⟩
          rw [hget] at hinf
          cases hinf
        rw [hempty, insert_empty_eq]
        exact isLeast_singleton
      | some depth => exact ((h path depth).mp hget).insert item.2
    rw [hinsert, lowerPath_of_path graph distance item hpath, Option.some_inj]
    exact ⟨fun hk => hk ▸ hleast, hleast.unique⟩
  · have hsame : depthsAt graph (items ++ [item]) path = depthsAt graph items path := by
      ext depth
      rw [depthsAt_append]
      exact ⟨fun hd => hd.resolve_right fun hnew => hpath hnew.2, Or.inl⟩
    rw [hsame, lowerPath_of_not_path graph distance item hpath, h path k]

/-- The loop over the depths leaves the least one for each path. -/
theorem foldl_lowerPath_isLeast (graph : Graph) (items : List (Text × ℕ)) (path : Text) (k : ℕ) :
    (items.foldl (lowerPath (nodesById graph)) Dict.empty).get path = some k ↔
      IsLeast (depthsAt graph items path) k := by
  induction items using List.reverseRecOn generalizing path k with
  | nil =>
    constructor
    · exact nofun
    · rintro ⟨⟨nodeId, hin, -⟩, -⟩
      cases hin
  | append_singleton items item ih =>
    rw [List.foldl_append]
    exact lowerPath_isLeast graph items item _ ih path k

theorem next_successors (graph : Graph) :
    Next (successors (graphNeighbors graph)) = Linked graph := by
  ext a b
  exact mem_successors graph a b

/-- The ends of the edges. -/
def ends (graph : Graph) : Finset Text :=
  (graph.edges.filterMap fun edge => truthy edge.fromId).toFinset ∪
    (graph.edges.filterMap fun edge => truthy edge.toId).toFinset

theorem card_ends_le (graph : Graph) : (ends graph).card ≤ 2 * graph.edges.length := by
  have hunion := Finset.card_union_le
    (graph.edges.filterMap fun edge => truthy edge.fromId).toFinset
    (graph.edges.filterMap fun edge => truthy edge.toId).toFinset
  have hfrom := (List.toFinset_card_le (graph.edges.filterMap fun edge => truthy edge.fromId)).trans
    (List.length_filterMap_le _ _)
  have hto := (List.toFinset_card_le (graph.edges.filterMap fun edge => truthy edge.toId)).trans
    (List.length_filterMap_le _ _)
  unfold ends
  omega

theorem mem_ends (graph : Graph) (a b : Text) (h : b ∈ successors (graphNeighbors graph) a) :
    b ∈ ends graph := by
  obtain ⟨-, hb, edge, hin, -, ⟨-, hto⟩ | ⟨hfrom, -⟩⟩ := (mem_successors graph a b).mp h
  · apply Finset.mem_union_right
    exact List.mem_toFinset.mpr
      (List.mem_filterMap.mpr ⟨edge, hin, truthy_eq_some.mpr ⟨hto, hb⟩⟩)
  · apply Finset.mem_union_left
    exact List.mem_toFinset.mpr
      (List.mem_filterMap.mpr ⟨edge, hin, truthy_eq_some.mpr ⟨hfrom, hb⟩⟩)

/-- The least depth found for a path is its least number of edges. -/
theorem isLeast_depthsAt (graph : Graph) (starts : List Text) (maxHops : ℕ) (best : Dict Text ℕ)
    (hbest : ∀ v k, best.get v = some k ↔
      k ≤ maxHops ∧ Distance (successors (graphNeighbors graph)) starts v k)
    (path : Text) (k : ℕ) : IsLeast (depthsAt graph best.items path) k ↔
      k ≤ maxHops ∧ IsLeast (pathHops graph starts path) k := by
  have hwalks : ∀ n a b, Walk (Next (successors (graphNeighbors graph))) n a b ↔
      Walk (Linked graph) n a b := by
    intro n a b
    rw [next_successors]
  have hsound : ∀ depth ∈ depthsAt graph best.items path,
      depth ≤ maxHops ∧ depth ∈ pathHops graph starts path := by
    rintro depth ⟨nodeId, hin, hpath⟩
    obtain ⟨hle, ⟨a, ha, hwalk⟩, -⟩ := (hbest nodeId depth).mp ((best.mem_items_iff _ _).mp hin)
    exact ⟨hle, a, ha, nodeId, (hwalks _ _ _).mp hwalk, hpath⟩
  constructor
  · rintro ⟨hmem, hlower⟩
    refine ⟨(hsound k hmem).1, (hsound k hmem).2, ?_⟩
    rintro n ⟨a, ha, b, hwalk, hpath⟩
    by_contra hlt
    obtain ⟨m, hm, hdistance⟩ := exists_distance_le ha ((hwalks _ _ _).mpr hwalk)
    have hle := (hsound k hmem).1
    have hfound : m ∈ depthsAt graph best.items path :=
      ⟨b, (best.mem_items_iff _ _).mpr ((hbest b m).mpr ⟨by omega, hdistance⟩), hpath⟩
    have hkm := hlower hfound
    omega
  · rintro ⟨hle, ⟨a, ha, b, hwalk, hpath⟩, hlower⟩
    have hdistance : Distance (successors (graphNeighbors graph)) starts b k := by
      refine ⟨⟨a, ha, (hwalks _ _ _).mpr hwalk⟩, fun n c hc hn => ?_⟩
      exact hlower ⟨c, hc, b, (hwalks _ _ _).mp hn, hpath⟩
    constructor
    · exact ⟨b, (best.mem_items_iff _ _).mpr ((hbest b k).mpr ⟨hle, hdistance⟩), hpath⟩
    · exact fun depth hdepth => hlower (hsound depth hdepth).2

/-- **The queue runs empty, and the distance of a path is its least number of edges.** -/
theorem graphDistanceByPath_spec (graph : Graph) (starts : List Text) (maxHops : ℕ) :
    ∃ distance, graphDistanceByPath graph starts maxHops = some distance ∧
      ∀ path k, distance.get path = some k ↔
        k ≤ maxHops ∧ IsLeast (pathHops graph starts path) k := by
  unfold graphDistanceByPath
  by_cases hnone : starts = []
  · rw [if_pos hnone]
    refine ⟨Dict.empty, rfl, fun path k => ⟨nofun, ?_⟩⟩
    rintro ⟨-, ⟨a, ha, -⟩, -⟩
    rw [hnone] at ha
    cases ha
  · rw [if_neg hnone]
    have hrounds : (ends graph).card * (maxHops + 1) + starts.length <
        rounds graph starts maxHops :=
      Nat.lt_succ_of_le (Nat.add_le_add_right (Nat.mul_le_mul_right _ (card_ends_le graph)) _)
    obtain ⟨best, hrun, hbest⟩ := search_spec (mem_ends graph) hrounds
    rw [hrun]
    refine ⟨_, rfl, fun path k => ?_⟩
    rw [foldl_lowerPath_isLeast]
    exact isLeast_depthsAt graph starts maxHops best hbest path k

/-- Two files that import the same third one are two edges apart. -/
example : (graphDistanceByPath
    ⟨[⟨['a'], "file".toList, "a.ts".toList, [], 0⟩, ⟨['b'], "file".toList, "b.ts".toList, [], 0⟩],
      [⟨"imports".toList, some ['a'], some ['c'], true, false⟩,
        ⟨"imports".toList, some ['b'], some ['c'], true, false⟩]⟩ [['a']] 2).map Dict.items =
    some [("a.ts".toList, 0), ("b.ts".toList, 2)] := by decide

/-! ## The callers -/

theorem mem_inboundCalls (graph : Graph) (a b : Text) :
    b ∈ ((inboundCalls graph).get a).getD [] ↔ Calls graph b a := by
  have hadd : ∀ (inbound : Dict Text (List Text)) (edge : Edge),
      b ∈ ((addInbound inbound edge).get a).getD [] ↔ b ∈ (inbound.get a).getD [] ∨
        (edge.kind = "calls".toList ∧ edge.resolved = true ∧ edge.fromId = some b ∧
          edge.toId = some a) := by
    intro inbound edge
    unfold addInbound
    by_cases hkind : edge.kind = "calls".toList
    · rw [if_neg (not_not.mpr hkind)]
      cases hresolved : edge.resolved with
      | false => simp
      | true =>
        cases hto : edge.toId with
        | none => simp
        | some toId =>
          cases hfrom : edge.fromId with
          | none => simp
          | some fromId =>
            show b ∈ ((inbound.append toId fromId).get a).getD [] ↔ _
            rw [Dict.mem_append]
            simp [hkind, and_comm, eq_comm]
    · rw [if_pos hkind]
      exact ⟨Or.inl, fun h => h.resolve_right fun hnew => hkind hnew.1⟩
  have hfold : ∀ (edges : List Edge) (inbound : Dict Text (List Text)),
      b ∈ ((edges.foldl addInbound inbound).get a).getD [] ↔ b ∈ (inbound.get a).getD [] ∨
        ∃ edge ∈ edges, edge.kind = "calls".toList ∧ edge.resolved = true ∧
          edge.fromId = some b ∧ edge.toId = some a := by
    intro edges
    induction edges with
    | nil => simp
    | cons edge edges ih =>
      intro inbound
      rw [List.foldl_cons, ih, hadd, or_assoc, List.exists_mem_cons_iff]
  refine (hfold graph.edges Dict.empty).trans ⟨fun h => h.resolve_left ?_, Or.inr⟩
  exact List.not_mem_nil

/-- **The callers are the nodes with a chain of calls to a start.** -/
theorem mem_bfsTransitiveCallers (graph : Graph) (starts : Finset Text) (maxDepth : ℤ) (v : Text) :
    v ∈ bfsTransitiveCallers graph starts maxDepth ↔
      v ∉ starts ∧ ∃ n : ℕ, n ≤ maxDepth ∧ ∃ a ∈ starts, Walk (Calls graph) n v a := by
  unfold bfsTransitiveCallers
  rw [mem_levels]
  apply and_congr_right
  intro hout
  have hcalls : (fun a b => b ∈ (((inboundCalls graph).get a).getD []).toFinset) =
      fun a b => Calls graph b a := by
    ext a b
    rw [List.mem_toFinset, mem_inboundCalls]
  rw [hcalls]
  constructor
  · rintro ⟨n, hn, a, ha, hwalk⟩
    cases n with
    | zero =>
      cases hwalk
      exact absurd ha hout
    | succ n => exact ⟨n + 1, by omega, a, ha, hwalk.reverse⟩
  · rintro ⟨n, hn, a, ha, hwalk⟩
    exact ⟨n, by omega, a, ha, hwalk.reverse⟩

/-- **Graph distances are shortest paths**, and the callers those within the depth. -/
theorem distances_are_shortest (graph : Graph) :
    (∀ (starts : List Text) (maxHops : ℕ), ∃ distance,
      graphDistanceByPath graph starts maxHops = some distance ∧
        ∀ path k, distance.get path = some k ↔
          k ≤ maxHops ∧ IsLeast (pathHops graph starts path) k) ∧
    ∀ (starts : Finset Text) (maxDepth : ℤ) (v : Text),
      v ∈ bfsTransitiveCallers graph starts maxDepth ↔
        v ∉ starts ∧ ∃ n : ℕ, n ≤ maxDepth ∧ ∃ a ∈ starts, Walk (Calls graph) n v a :=
  ⟨graphDistanceByPath_spec graph, mem_bfsTransitiveCallers graph⟩

end Agentrail.CodeGraph
