import GraphScript.Proofs.Search.FloatWeights
import GraphScript.Proofs.Search.LeastSums
import GraphScript.Search.Run

namespace GraphScript

/-!
# Shortest distances

A search without a target reports the least sum of every node. This holds for
all weights that obey the laws, and so for floating-point numbers, whose sums
along walks are plain sums.
-/

/-- Every node has an entry, which is its least sum if it has any. -/
structure Graph.HasLeastSums
    {Sum : Type} [Search.Weight Sum]
    (graph : Graph)
    (start : String)
    (distances : NameMap (Option Sum)) :
    Prop where
  nodes : distances.keys = graph.nodeNames
  least :
    ∀ node entry, distances.get? node = some entry →
      graph.ReportsLeast start node entry

namespace Graph.HasLeastSums

variable
  {Sum : Type} [Search.Weight Sum]
  {graph : Graph}
  {start node : String}
  {distances : NameMap (Option Sum)}

theorem exists_entry
    (hasLeast : graph.HasLeastSums start distances)
    (isNode : node ∈ graph.nodeNames) :
    ∃ entry,
      distances.get? node = some entry ∧
      graph.ReportsLeast start node entry := by
  rw [← hasLeast.nodes] at isNode
  obtain ⟨entry, held⟩ := NameMap.exists_of_mem_keys isNode
  exact ⟨entry, held, hasLeast.least node entry held⟩

/-- A node at the end of a walk has a least sum, which no walk falls below. -/
theorem exists_least
    (hasLeast : graph.HasLeastSums start distances)
    (isNode : node ∈ graph.nodeNames)
    {sum : Sum}
    (walk : graph.WalkSum start node sum) :
    ∃ least,
      distances.get? node = some (some least) ∧
      graph.IsLeastSum start node least ∧
      Search.AtMost least sum := by
  obtain ⟨entry, held, reports⟩ := hasLeast.exists_entry isNode
  cases entry with
  | none => exact absurd walk (reports sum)
  | some least => exact ⟨least, held, reports, reports.2 sum walk⟩

end Graph.HasLeastSums

namespace Search

variable {graph : Graph} {start : String}

/-- A search that has a result is recorded by a run. -/
theorem dijkstra_of_shortestPaths
    {search : ShortestPaths Float}
    {target : Option String}
    (succeeds : shortestPaths graph start target = .ok search) :
    ∃ run,
      dijkstra graph start target = .ok run ∧
      run.finding =
        .shortestPath search.final.distances
          ((target.map search.final.pathTo).getD [])
          (target.bind search.final.distance?) := by
  unfold dijkstra
  rw [succeeds]
  exact ⟨_, rfl, rfl⟩

theorem Tentative.distance?_of_get?
    {Sum : Type}
    {tentative : Tentative Sum}
    {node : String}
    {entry : Option Sum}
    (held : tentative.distances.get? node = some entry) :
    tentative.distance? node = entry := by
  rw [Tentative.distance?, held]
  rfl

/-- A search without a target finds the least sums. -/
theorem exists_leastSums
    {Sum : Type} [Weight Sum] [LawfulWeight Sum]
    (closed : graph.Closed)
    (weights : graph.HasValidWeights)
    (enough : 2 ≤ graph.nodes.size)
    (startIsNode : graph.hasNode start = true) :
    ∃ search : ShortestPaths Sum,
      shortestPaths graph start none = .ok search ∧
      graph.HasLeastSums start search.final.distances := by
  have ends :
      ∃ (search : ShortestPaths Sum) (left : List String),
        shortestPaths graph start none = .ok search ∧
        search.final.Sound graph start left ∧
        (search.final.nearest? left = none ∨
          ∃ node, none = some node ∧ node ∉ left) :=
    shortestPaths_ends
      (.initially graph (Graph.hasNode_iff.mp startIsNode))
      (fun prepared sound isNearest =>
        sound.settle closed weights prepared isNearest)
      weights enough startIsNode nofun
  obtain ⟨search, left, succeeds, sound, noneNearest | ⟨node, isTarget, _⟩⟩ := ends
  · refine ⟨search, succeeds, sound.keys, ?_⟩
    intro node entry held
    rw [← Tentative.distance?_of_get? held]
    exact sound.reportsLeast weights noneNearest node
  · cases isTarget

/--
A search without a target reports the least sum of every node.

So does a search with any other weights that obey the laws.
-/
theorem dijkstra_finds_least_sums
    (graph : Graph)
    (start : String)
    (closed : graph.Closed)
    (enough : 2 ≤ graph.nodes.size)
    (startIsNode : graph.hasNode start = true)
    (weights : graph.HasValidWeights) :
    (∃ run distances,
      dijkstra graph start none = .ok run ∧
      run.finding = .shortestPath distances [] none ∧
      graph.HasLeastSums start distances) ∧
    (∀ (node : String) (sum : Float),
      graph.WalkSum start node sum ↔
        ∃ walked,
          graph.Walk start node walked ∧
          plainSum walked = sum ∧
          sum.isFinite = true) ∧
    ∀ (Sum : Type) [Weight Sum] [LawfulWeight Sum],
      ∃ search : ShortestPaths Sum,
        shortestPaths graph start none = .ok search ∧
        graph.HasLeastSums start search.final.distances := by
  refine ⟨?_, fun _ _ => walkSum_iff_plainSum weights,
    fun _ _ _ => exists_leastSums closed weights enough startIsNode⟩
  have found :
      ∃ search : ShortestPaths Float,
        shortestPaths graph start none = .ok search ∧
        graph.HasLeastSums start search.final.distances :=
    exists_leastSums closed weights enough startIsNode
  obtain ⟨search, succeeds, hasLeast⟩ := found
  obtain ⟨run, runs, finds⟩ := dijkstra_of_shortestPaths succeeds
  exact ⟨run, search.final.distances, runs, finds, hasLeast⟩

/-- Parallel edges, a loop, an edge without a weight, and a node apart. -/
def parallelEdges :
    Graph :=
  let weighing (number : Float) : Attributes :=
    NameMap.ofList [(Graph.weightKey, .number number)]
  let edges :=
    [("a", "b", weighing 2.0), ("b", "a", weighing 0.5),
      ("b", "b", weighing 0.0), ("c", "b", .empty)]
  let nodes := ["a", "b", "c", "d"].foldl Graph.mention (.empty "g" false)
  edges.foldl
    (fun graph (left, right, attributes) =>
      graph.appendEdge (.between left .undirected right attributes))
    nodes

theorem parallelEdges_hasValidWeights :
    parallelEdges.HasValidWeights := by
  have stated :
      parallelEdges.edges.map parallelEdges.statedWeight? =
        [some (.number 2.0), some (.number 0.5), some (.number 0.0), none] :=
    rfl
  intro edge isEdge value isValue
  have listed := List.mem_map_of_mem (f := parallelEdges.statedWeight?) isEdge
  rw [stated, isValue] at listed
  simp only [List.mem_cons, Option.some.injEq, reduceCtorEq, List.not_mem_nil,
    or_false] at listed
  rcases listed with rfl | rfl | rfl
  · exact ⟨2.0, rfl, by decide⟩
  · exact ⟨0.5, rfl, by decide⟩
  · exact ⟨0.0, rfl, by decide⟩

/-- The weights of the parallel edges, in both directions. -/
def parallelArcs :
    List (Arc Float) :=
  [⟨"a", "b", 2.0⟩, ⟨"b", "a", 2.0⟩, ⟨"b", "a", 0.5⟩, ⟨"a", "b", 0.5⟩,
    ⟨"b", "b", 0.0⟩, ⟨"b", "b", 0.0⟩, ⟨"c", "b", 1.0⟩, ⟨"b", "c", 1.0⟩]

/-- The distances when the nodes that can be reached are settled. -/
def parallelTentative :
    Tentative Float :=
  let atStart := Tentative.atStart ["a", "b", "c", "d"] "a"
  let afterA := settle parallelArcs ["a", "b", "c", "d"] atStart "a" 0.0
  let afterB := settle parallelArcs ["b", "c", "d"] afterA "b" 0.5
  settle parallelArcs ["c", "d"] afterB "c" 1.5

/-- The last node that can be reached is settled last, as a target or not. -/
theorem parallelEdges_searched
    {target : Option String}
    (lastIsTarget : target = none ∨ target = some "c") :
    ∃ search : ShortestPaths Float,
      shortestPaths parallelEdges "a" target = .ok search ∧
      search.final = parallelTentative := by
  let atStart : Tentative Float := Tentative.atStart ["a", "b", "c", "d"] "a"
  let afterA := settle parallelArcs ["a", "b", "c", "d"] atStart "a" 0.0
  let afterB := settle parallelArcs ["b", "c", "d"] afterA "b" 0.5
  have nearestFirst :
      atStart.nearest? ["a", "b", "c", "d"] = some ("a", 0.0) :=
    rfl
  have nearestSecond : afterA.nearest? ["b", "c", "d"] = some ("b", 0.5) := rfl
  have nearestThird : afterB.nearest? ["c", "d"] = some ("c", 1.5) := rfl
  have toSecond :
      (settleFrom parallelArcs target ["a", "b", "c", "d"] [] atStart).2 =
        (settleFrom parallelArcs target ["b", "c", "d"] ["a"] afterA).2 :=
    settleFrom_of_other nearestFirst (by grind)
  have toThird :
      (settleFrom parallelArcs target ["b", "c", "d"] ["a"] afterA).2 =
        (settleFrom parallelArcs target ["c", "d"] ["a", "b"] afterB).2 :=
    settleFrom_of_other nearestSecond (by grind)
  have settles :
      (settleFrom parallelArcs target ["a", "b", "c", "d"] [] atStart).2 =
        parallelTentative := by
    rw [toSecond, toThird]
    rcases lastIsTarget with rfl | rfl
    · refine (settleFrom_of_other nearestThird (by nofun)).trans ?_
      exact settleFrom_of_none rfl
    · exact settleFrom_of_target nearestThird rfl
  refine
    ⟨{ initial := atStart
       settled :=
        (settleFrom parallelArcs target ["a", "b", "c", "d"] [] atStart).1
       final :=
        (settleFrom parallelArcs target ["a", "b", "c", "d"] [] atStart).2 },
      ?_, settles⟩
  rcases lastIsTarget with rfl | rfl <;> rfl

theorem dijkstra_finds_least_sums_of_parallel_edges :
    parallelEdges.Closed ∧
      parallelEdges.HasValidWeights ∧
      ∃ run distances,
        dijkstra parallelEdges "a" none = .ok run ∧
        run.finding = .shortestPath distances [] none ∧
        parallelEdges.HasLeastSums "a" distances ∧
        distances.entries =
          [("a", some 0.0), ("b", some 0.5), ("c", some 1.5), ("d", none)] := by
  have closed : parallelEdges.Closed := by
    unfold Graph.Closed
    decide
  obtain ⟨⟨run, distances, runs, finds, hasLeast⟩, _⟩ :=
    dijkstra_finds_least_sums parallelEdges "a" closed (by decide) (by decide)
      parallelEdges_hasValidWeights
  refine ⟨closed, parallelEdges_hasValidWeights, run, distances, runs, finds,
    hasLeast, ?_⟩
  obtain ⟨search, searched, isFinal⟩ := parallelEdges_searched (.inl rfl)
  obtain ⟨other, runsToo, findsToo⟩ := dijkstra_of_shortestPaths searched
  cases runs.symm.trans runsToo
  cases finds.symm.trans findsToo
  rw [isFinal]
  rfl

end Search

end GraphScript
