import GraphScript.Proofs.Search.ShortestDistances
import GraphScript.Proofs.Search.TracedPaths

namespace GraphScript

/-!
# Searches that stop at a target

A search with a target ends once the target is settled. By then the target has
its least sum, and so the one that a search without a target reports. The path
to it is traced back over settled nodes.
-/

namespace Graph

variable {Sum : Type} [Search.Weight Sum]

/-- A path leads to the target, and its cheapest edges have the length as sum. -/
structure FindsPath
    (graph : Graph)
    (start target : String)
    (path : List String)
    (length : Sum) :
    Prop where
  starts : path.head? = some start
  ends : path.getLast? = some target
  distinct : path.Nodup
  adjoins : ∀ step ∈ steps path, graph.Adjoins step.1 step.2
  weighed : ∃ weights : List Sum, graph.AreCheapest path weights
  sums :
    ∀ weights, graph.AreCheapest path weights →
      Search.total? weights = some length

/-- What a search that stops at a target reports, next to a full search. -/
structure StopsSoundly
    (graph : Graph)
    (start target : String)
    (fullDistances distances : NameMap (Option Sum))
    (path : List String)
    (length : Option Sum) :
    Prop where
  agrees : fullDistances.get? target = some length
  emptyPath : path = [] ↔ length = none
  findsPath : ∀ sum, length = some sum → graph.FindsPath start target path sum
  nodes : distances.keys = graph.nodeNames
  sums :
    ∀ node sum, distances.get? node = some (some sum) →
      graph.WalkSum start node sum
  notBelow :
    ∀ node sum, distances.get? node = some (some sum) →
      ∃ least,
        fullDistances.get? node = some (some least) ∧
        graph.IsLeastSum start node least ∧
        Search.AtMost least sum

end Graph

namespace Search

/-- A stopped search is sound, and its path is the one back from the target. -/
structure ShortestPaths.IsSoundStop
    {Sum : Type} [Weight Sum]
    (graph : Graph)
    (start target : String)
    (full stopped : ShortestPaths Sum) :
    Prop where
  reports :
    graph.StopsSoundly start target full.final.distances
      stopped.final.distances (stopped.final.pathTo target)
      (stopped.final.distance? target)
  leadsBack :
    ∀ sum, stopped.final.distance? target = some sum →
      FollowsBack stopped.final.previous start target
        (stopped.final.pathTo target)

variable
  {Sum : Type} [Weight Sum]
  {graph : Graph}
  {start : String}

theorem reportsLeast_unique
    [LawfulWeight Sum]
    {node : String}
    {entry other : Option Sum}
    (weights : graph.HasValidWeights)
    (reports : graph.ReportsLeast start node entry)
    (reportsToo : graph.ReportsLeast start node other) :
    entry = other := by
  cases entry with
  | none =>
      cases other with
      | none => rfl
      | some sum => exact absurd reportsToo.1 (reports sum)
  | some sum =>
      cases other with
      | none => exact absurd reports.1 (reportsToo sum)
      | some otherSum =>
          exact congrArg some
            (LawfulWeight.atMost_antisymm
              (weights.isDistance_of_walkSum reports.1)
              (weights.isDistance_of_walkSum reportsToo.1)
              (reports.2 otherSum reportsToo.1)
              (reportsToo.2 sum reports.1))

namespace Tentative.Traceable

variable
  {pending : List String}
  {tentative : Tentative Sum}
  {node : String}
  {path : List String}

theorem adjoins
    (traceable : tentative.Traceable graph start pending)
    (follows : FollowsBack tentative.previous start node path) :
    ∀ step ∈ steps path, graph.Adjoins step.1 step.2 := by
  induction follows with
  | first => nofun
  | after isPrevious follows inductionHypothesis =>
      obtain ⟨earlier, rfl⟩ := follows.exists_eq_append
      intro step isStep
      rw [steps_append_singleton] at isStep
      rcases List.mem_append.mp isStep with isEarlier | isLast
      · exact inductionHypothesis step isEarlier
      · cases List.mem_singleton.mp isLast
        obtain ⟨_, _, _, _, ⟨edge, isEdge, leads, _⟩, _⟩ :=
          traceable.arrives isPrevious
        exact ⟨edge, isEdge, leads⟩

variable [MonotoneWeight Sum]

theorem exists_areCheapest
    (weights : graph.HasValidWeights)
    (traceable : tentative.Traceable graph start pending)
    (follows : FollowsBack tentative.previous start node path) :
    ∃ cheapest : List Sum, graph.AreCheapest path cheapest := by
  induction follows with
  | first => exact ⟨[], .nil⟩
  | after isPrevious follows inductionHypothesis =>
      obtain ⟨others, areOthers⟩ := inductionHypothesis
      obtain ⟨_, _, _, _, joins, _⟩ := traceable.arrives isPrevious
      obtain ⟨last, isLast⟩ := weights.exists_isCheapest joins
      obtain ⟨earlier, rfl⟩ := follows.exists_eq_append
      exact ⟨others ++ [last],
        Graph.areCheapest_append_singleton_iff.mpr
          ⟨others, last, rfl, areOthers, isLast⟩⟩

/-- Cheapest edges along a path of settled nodes have its distance as sum. -/
theorem total?_of_areCheapest
    (weights : graph.HasValidWeights)
    (traceable : tentative.Traceable graph start pending)
    (follows : FollowsBack tentative.previous start node path)
    (settled : ∀ member ∈ path, member ∉ pending)
    {distance : Sum}
    (held : tentative.distance? node = some distance)
    {cheapest : List Sum}
    (areCheapest : graph.AreCheapest path cheapest) :
    total? cheapest = some distance := by
  induction follows generalizing distance cheapest with
  | first =>
      cases areCheapest
      exact traceable.atStart.symm.trans held
  | after isPrevious follows inductionHypothesis =>
      obtain ⟨earlier, rfl⟩ := follows.exists_eq_append
      obtain ⟨others, last, rfl, areOthers, isCheapest⟩ :=
        Graph.areCheapest_append_singleton_iff.mp areCheapest
      obtain ⟨_, weight, beforeDistance, found, joins, beforeHeld, isSum,
        foundHeld⟩ := traceable.arrives isPrevious
      rw [held] at foundHeld
      cases foundHeld
      have isEarlier : total? others = some beforeDistance :=
        inductionHypothesis
          (fun member isMember =>
            settled member (List.mem_append_left _ isMember))
          beforeHeld areOthers
      have walk := traceable.sums beforeHeld
      obtain ⟨lesser, isLesser, lesserBelow⟩ :=
        MonotoneWeight.add?_mono_weight (weights.isDistance_of_walkSum walk)
          (weights.isWeight_of_joins isCheapest.1)
          (weights.isWeight_of_joins joins) (isCheapest.2 weight joins) isSum
      have lesserWalk := walk.along isCheapest.1 isLesser
      have isLeast :=
        traceable.toSound.isLeastSum_of_settled weights
          (settled _ (by simp)) held
      have same : lesser = distance :=
        LawfulWeight.atMost_antisymm (weights.isDistance_of_walkSum lesserWalk)
          (weights.isDistance_of_walkSum isLeast.1) lesserBelow
          (isLeast.2 lesser lesserWalk)
      rw [same] at isLesser
      exact total?_append_singleton.mpr ⟨beforeDistance, isEarlier, isLesser⟩

theorem findsPath
    (weights : graph.HasValidWeights)
    (traceable : tentative.Traceable graph start pending)
    (follows : FollowsBack tentative.previous start node path)
    (settled : ∀ member ∈ path, member ∉ pending)
    {distance : Sum}
    (held : tentative.distance? node = some distance) :
    graph.FindsPath start node path distance where
  starts := follows.head?_eq
  ends := by
    obtain ⟨earlier, rfl⟩ := follows.exists_eq_append
    exact List.getLast?_concat
  distinct := follows.nodup
  adjoins := traceable.adjoins follows
  weighed := traceable.exists_areCheapest weights follows
  sums _ := traceable.total?_of_areCheapest weights follows settled held

/-- The path to a settled node is the one that leads back from it. -/
theorem pathTo_of_settled
    (weights : graph.HasValidWeights)
    (traceable : tentative.Traceable graph start pending)
    (settled : node ∉ pending)
    {distance : Sum}
    (held : tentative.distance? node = some distance) :
    FollowsBack tentative.previous start node (tentative.pathTo node) ∧
      graph.FindsPath start node (tentative.pathTo node) distance := by
  obtain ⟨path, follows, nonePending⟩ := traceable.leadsBack settled held
  have isPath : tentative.pathTo node = path := by
    rw [Tentative.pathTo, held]
    exact follows.traceBack_eq fun _ _ => rfl
  rw [isPath]
  exact ⟨follows, traceable.findsPath weights follows nonePending held⟩

end Tentative.Traceable

/-- A target has its least sum at the end of a search, and is settled if any. -/
theorem Tentative.Traceable.target_settled
    [LawfulWeight Sum]
    {left : List String}
    {tentative : Tentative Sum}
    {target : String}
    (weights : graph.HasValidWeights)
    (targetIsNode : target ∈ graph.nodeNames)
    (traceable : tentative.Traceable graph start left)
    (stops :
      tentative.nearest? left = none ∨
        ∃ node, some target = some node ∧ node ∉ left) :
    graph.ReportsLeast start target (tentative.distance? target) ∧
      ∀ sum, tentative.distance? target = some sum → target ∉ left := by
  rcases stops with noneNearest | ⟨node, isTarget, settled⟩
  · refine ⟨traceable.toSound.reportsLeast weights noneNearest target, ?_⟩
    intro sum held isLeft
    rw [Tentative.nearest?_eq_none_iff.mp noneNearest target isLeft] at held
    cases held
  · cases isTarget
    obtain ⟨sum, held⟩ := traceable.reached targetIsNode settled
    rw [held]
    exact ⟨traceable.toSound.isLeastSum_of_settled weights settled held,
      fun _ _ => settled⟩

/-- A search that has stopped at its target is sound next to a full search. -/
theorem Tentative.Traceable.isSoundStop
    [MonotoneWeight Sum]
    {left : List String}
    {target : String}
    {full stopped : ShortestPaths Sum}
    (weights : graph.HasValidWeights)
    (targetIsNode : target ∈ graph.nodeNames)
    (hasLeast : graph.HasLeastSums start full.final.distances)
    (traceable : stopped.final.Traceable graph start left)
    (stops :
      stopped.final.nearest? left = none ∨
        ∃ node, some target = some node ∧ node ∉ left) :
    full.IsSoundStop graph start target stopped := by
  obtain ⟨targetReports, settled⟩ :=
    traceable.target_settled weights targetIsNode stops
  have leadsBack :
      ∀ sum, stopped.final.distance? target = some sum →
        FollowsBack stopped.final.previous start target
            (stopped.final.pathTo target) ∧
          graph.FindsPath start target (stopped.final.pathTo target) sum :=
    fun sum held => traceable.pathTo_of_settled weights (settled sum held) held
  have walks :
      ∀ node sum, stopped.final.distances.get? node = some (some sum) →
        graph.WalkSum start node sum :=
    fun node sum held => traceable.sums (Tentative.distance?_of_get? held)
  refine ⟨?_, fun sum held => (leadsBack sum held).1⟩
  refine
    { agrees := ?_
      emptyPath := Tentative.pathTo_eq_nil_iff
      findsPath := fun sum held => (leadsBack sum held).2
      nodes := traceable.keys
      sums := walks
      notBelow := ?_ }
  · obtain ⟨entry, held, reports⟩ := hasLeast.exists_entry targetIsNode
    rw [held, reportsLeast_unique weights reports targetReports]
  · intro node sum held
    have isNode : node ∈ graph.nodeNames := by
      rw [← traceable.keys]
      exact NameMap.mem_keys_of_get? held
    exact hasLeast.exists_least isNode (walks node sum held)

/-- The search that stops at a target agrees with the full search about it. -/
theorem exists_soundStop
    [MonotoneWeight Sum]
    {target : String}
    (closed : graph.Closed)
    (weights : graph.HasValidWeights)
    (enough : 2 ≤ graph.nodes.size)
    (startIsNode : graph.hasNode start = true)
    (targetIsNode : graph.hasNode target = true) :
    ∃ full stopped : ShortestPaths Sum,
      shortestPaths graph start none = .ok full ∧
      shortestPaths graph start (some target) = .ok stopped ∧
      full.IsSoundStop graph start target stopped := by
  have searched :
      ∃ full : ShortestPaths Sum,
        shortestPaths graph start none = .ok full ∧
        graph.HasLeastSums start full.final.distances :=
    exists_leastSums closed weights enough startIsNode
  have ends :
      ∃ (stopped : ShortestPaths Sum) (left : List String),
        shortestPaths graph start (some target) = .ok stopped ∧
        stopped.final.Traceable graph start left ∧
        (stopped.final.nearest? left = none ∨
          ∃ node, some target = some node ∧ node ∉ left) :=
    shortestPaths_ends
      (.initially graph (Graph.hasNode_iff.mp startIsNode))
      (fun prepared traceable isNearest =>
        traceable.settle closed weights prepared isNearest)
      weights enough startIsNode
      (by rintro _ ⟨⟩; exact targetIsNode)
  obtain ⟨full, fullSucceeds, hasLeast⟩ := searched
  obtain ⟨stopped, left, succeeds, traceable, stops⟩ := ends
  exact ⟨full, stopped, fullSucceeds, succeeds,
    traceable.isSoundStop weights (Graph.hasNode_iff.mp targetIsNode) hasLeast
      stops⟩

/--
A search that stops at a target finds its least sum and a path with that sum.

With fewer than two nodes, searches are refused, with a target or without one.
-/
theorem dijkstra_stops_soundly
    (graph : Graph)
    (start target : String)
    (closed : graph.Closed)
    (startIsNode : graph.hasNode start = true)
    (targetIsNode : graph.hasNode target = true)
    (weights : graph.HasValidWeights) :
    (graph.nodes.size < 2 →
      ∀ goal,
        dijkstra graph start goal =
          .error (.tooFewNodes .dijkstra 2 graph.nodes.size)) ∧
    (2 ≤ graph.nodes.size →
      (∃ fullRun run fullDistances distances path length,
        dijkstra graph start none = .ok fullRun ∧
        fullRun.finding = .shortestPath fullDistances [] none ∧
        dijkstra graph start (some target) = .ok run ∧
        run.finding = .shortestPath distances path length ∧
        graph.StopsSoundly start target fullDistances distances path length) ∧
      ∀ (Sum : Type) [Weight Sum] [MonotoneWeight Sum],
        ∃ full stopped : ShortestPaths Sum,
          shortestPaths graph start none = .ok full ∧
          shortestPaths graph start (some target) = .ok stopped ∧
          full.IsSoundStop graph start target stopped) := by
  constructor
  · intro tooFew goal
    simp [dijkstra, shortestPaths, tooFew, Except.map]
  · intro enough
    refine ⟨?_, fun _ _ _ =>
      exists_soundStop closed weights enough startIsNode targetIsNode⟩
    have found :
        ∃ full stopped : ShortestPaths Float,
          shortestPaths graph start none = .ok full ∧
          shortestPaths graph start (some target) = .ok stopped ∧
          full.IsSoundStop graph start target stopped :=
      exists_soundStop closed weights enough startIsNode targetIsNode
    obtain ⟨full, stopped, fullSucceeds, succeeds, soundStop⟩ := found
    obtain ⟨fullRun, fullRuns, fullFinds⟩ :=
      dijkstra_of_shortestPaths fullSucceeds
    obtain ⟨run, runs, finds⟩ := dijkstra_of_shortestPaths succeeds
    exact ⟨fullRun, run, _, _, _, _, fullRuns, fullFinds, runs, finds,
      soundStop.reports⟩

theorem pathTo_parallelTentative :
    parallelTentative.pathTo "c" = ["a", "b", "c"] := by
  have follows :
      FollowsBack parallelTentative.previous "a" "c" ["a", "b", "c"] :=
    .after rfl (.after rfl (.first rfl))
  have isReached : (parallelTentative.distance? "c").isSome = true := rfl
  rw [Tentative.pathTo, if_pos isReached]
  exact follows.traceBack_eq fun _ _ => rfl

theorem dijkstra_stops_soundly_of_parallel_edges :
    parallelEdges.Closed ∧
      parallelEdges.HasValidWeights ∧
      ∃ run fullDistances distances,
        dijkstra parallelEdges "a" (some "c") = .ok run ∧
        run.finding =
          .shortestPath distances ["a", "b", "c"] (some 1.5) ∧
        parallelEdges.StopsSoundly "a" "c" fullDistances distances
          ["a", "b", "c"] (some 1.5) := by
  have closed : parallelEdges.Closed := by
    unfold Graph.Closed
    decide
  obtain ⟨⟨_, run, fullDistances, distances, path, length, _, _, runs, finds,
      sound⟩, _⟩ :=
    (dijkstra_stops_soundly parallelEdges "a" "c" closed (by decide) (by decide)
      parallelEdges_hasValidWeights).2 (by decide)
  obtain ⟨search, searched, isFinal⟩ := parallelEdges_searched (.inr rfl)
  obtain ⟨other, runsToo, findsToo⟩ := dijkstra_of_shortestPaths searched
  cases runs.symm.trans runsToo
  cases finds.symm.trans findsToo
  have isPath :
      ((some "c").map search.final.pathTo).getD [] = ["a", "b", "c"] := by
    rw [isFinal]
    exact pathTo_parallelTentative
  have isLength : (some "c").bind search.final.distance? = some 1.5 := by
    rw [isFinal]
    rfl
  rw [isPath, isLength] at finds sound
  exact ⟨closed, parallelEdges_hasValidWeights, run, fullDistances, _, runs,
    finds, sound⟩

/-- A graph with a single node, and without edges. -/
def loneNode :
    Graph :=
  Graph.mention (.empty "g" true) "a"

/-- Even from the only node of a graph to itself no path is reported. -/
theorem dijkstra_refuses_lone_node :
    loneNode.Closed ∧
      loneNode.HasValidWeights ∧
      loneNode.hasNode "a" = true ∧
      ¬ ∃ run distances path length,
        dijkstra loneNode "a" (some "a") = .ok run ∧
        run.finding = .shortestPath distances path length := by
  refine ⟨nofun, nofun, by decide, ?_⟩
  rintro ⟨run, _, _, _, runs, _⟩
  cases runs

end Search

end GraphScript
