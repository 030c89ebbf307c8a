import GraphScript.Proofs.Search.Levels
import GraphScript.Proofs.Search.ReachedNodes
import GraphScript.Search.Encoding
import Mathlib.Data.Set.Card

namespace GraphScript

/-!
# The breadth-first order

While a queue works off a level, it holds the rest of the level and then the
nodes of the next one that have been found so far. When the level is done, all
of the next one is in the queue, in its order. So a breadth-first traversal
visits level after level.
-/

namespace Search

/-! ## Working off a level -/

/-- A queue takes up the nodes that are neither visited nor waiting. -/
theorem foldl_enqueue_unseen
    {visited waiting seen : List String}
    (isSeen : ∀ node, node ∈ seen ↔ node ∈ visited ∨ node ∈ waiting)
    (found successors : List String) :
    successors.foldl (Discipline.enqueue visited)
        (waiting ++ Graph.unseen seen found) =
      waiting ++ Graph.unseen seen (found ++ successors) := by
  induction successors generalizing found with
  | nil =>
      simp
  | cons node rest inductionHypothesis =>
      have enqueued :
          Discipline.enqueue visited (waiting ++ Graph.unseen seen found) node =
            waiting ++ Graph.unseen seen (found ++ [node]) := by
        have known :
            node ∈ visited ∨ node ∈ waiting ++ Graph.unseen seen found ↔
              node ∈ seen ∨ node ∈ Graph.unseen seen found := by
          rw [isSeen, List.mem_append, or_assoc]
        simp only [Discipline.enqueue, known, Graph.unseen_append_singleton]
        split <;> simp
      rw [List.foldl_cons, enqueued, inductionHypothesis, ← List.append_cons]

/--
Working off the rest of a level leaves the next level in the queue.

The nodes of the level that have been visited already come right after the ones
of earlier levels.
-/
theorem visitsFrom_rest_of_level
    (graph : Graph)
    {earlier done rest : List String}
    (distinct : (earlier ++ (done ++ rest)).Nodup) :
    visitsFrom graph.arcs .queue (earlier ++ done)
        (rest ++
          Graph.unseen (earlier ++ (done ++ rest))
            (done.flatMap graph.nextNodes)) =
      rest ++
        visitsFrom graph.arcs .queue (earlier ++ (done ++ rest))
          (Graph.unseen (earlier ++ (done ++ rest))
            ((done ++ rest).flatMap graph.nextNodes)) := by
  induction rest generalizing done with
  | nil =>
      simp
  | cons node rest inductionHypothesis =>
      have same : done ++ node :: rest = done ++ [node] ++ rest := by simp
      rw [same] at distinct ⊢
      have unvisited : node ∉ earlier ++ done := by
        rw [List.append_assoc, ← List.append_assoc] at distinct
        intro visited
        exact (List.nodup_append.mp distinct).2.2 node visited node
          (by simp) rfl
      have isSeen :
          ∀ other,
            other ∈ earlier ++ (done ++ [node] ++ rest) ↔
              other ∈ earlier ++ done ++ [node] ∨ other ∈ rest := by
        intro other
        simp only [List.mem_append, or_assoc]
      have worked :
          Discipline.queue.extend (earlier ++ done ++ [node])
              (rest ++
                Graph.unseen (earlier ++ (done ++ [node] ++ rest))
                  (done.flatMap graph.nextNodes))
              (Arc.successors graph.arcs node) =
            rest ++
              Graph.unseen (earlier ++ (done ++ [node] ++ rest))
                ((done ++ [node]).flatMap graph.nextNodes) := by
        rw [graph.successors_arcs, List.flatMap_append, List.flatMap_singleton]
        exact foldl_enqueue_unseen isSeen _ _
      rw [List.cons_append, visitsFrom_of_unvisited rfl unvisited, worked,
        List.append_assoc earlier, inductionHypothesis distinct]
      rfl

/-- A queue that holds a level visits it and goes on with the next level. -/
theorem visitsFrom_level
    (graph : Graph)
    {level : Graph.Level}
    (distinct : level.upTo.Nodup) :
    visitsFrom graph.arcs .queue level.earlier level.nodes =
      level.nodes ++
        visitsFrom graph.arcs .queue (level.next graph).earlier
          (level.next graph).nodes := by
  have distinctNodes : (level.earlier ++ ([] ++ level.nodes)).Nodup := distinct
  have worked := visitsFrom_rest_of_level graph distinctNodes
  simpa only [List.append_nil, List.nil_append, List.flatMap_nil,
    Graph.unseen_nil, Graph.Level.next, Graph.Level.upTo] using worked

/-! ## The whole order -/

/-- The levels up to some depth come first in the order. -/
theorem visitOrder_split_at_level
    (graph : Graph)
    (start : String)
    (depth : Nat) :
    visitOrder graph.arcs .queue start =
      (List.range depth).flatMap (graph.level start) ++
        visitsFrom graph.arcs .queue (graph.levelAt start depth).earlier
          (graph.level start depth) := by
  induction depth with
  | zero =>
      rfl
  | succ depth inductionHypothesis =>
      have distinct := Graph.nodup_upTo_levelAt graph start depth
      rw [inductionHypothesis, Graph.level, visitsFrom_level graph distinct,
        List.range_succ, List.flatMap_append, List.flatMap_singleton,
        List.append_assoc]
      rfl

/-- The order consists of the levels before one that is empty. -/
theorem visitOrder_eq_levels
    {graph : Graph}
    {start : String}
    {depth : Nat}
    (isEmpty : graph.level start depth = []) :
    visitOrder graph.arcs .queue start =
      (List.range depth).flatMap (graph.level start) := by
  rw [visitOrder_split_at_level graph start depth, isEmpty,
    visitsFrom_of_none rfl, List.append_nil]

/-- Some level is empty, since each one before adds a node to the order. -/
theorem exists_level_eq_nil
    (graph : Graph)
    (start : String) :
    ∃ depth, graph.level start depth = [] := by
  let bound := (visitOrder graph.arcs .queue start).length + 1
  apply Classical.byContradiction
  intro noneEmpty
  have longer :
      bound ≤ ((List.range bound).flatMap (graph.level start)).length :=
    Graph.le_length_flatMap_level fun hops _ isEmpty =>
      noneEmpty ⟨hops, isEmpty⟩
  have whole :=
    congrArg List.length (visitOrder_split_at_level graph start bound)
  rw [List.length_append] at whole
  omega

end Search

/-! ## The JSON form of a traversal -/

theorem Json.sorted_strings
    (contents : List String) :
    (Json.strings contents).sorted = .strings contents := by
  have kept :
      Json.sortedItems (contents.map .string) = contents.map .string := by
    induction contents with
    | nil =>
        rfl
    | cons first rest inductionHypothesis =>
        simp [Json.sortedItems, Json.sorted, inductionHypothesis]
  simp [Json.strings, Json.sorted, kept]

/-- A traversal is reported by its order and the number of its nodes. -/
theorem Search.Finding.json_traversal
    (order : List String) :
    (Finding.traversal order).json =
      .object
        [("visit_order", .strings order),
          ("visited_count", .count order.length)] := by
  have inOrder :
      ∀ (first second : Json),
        Json.sortMembers
            [("visit_order", first), ("visited_count", second)] =
          [("visit_order", first), ("visited_count", second)] := by
    intro first second
    have ascending : (!decide ("visited_count" < "visit_order")) = true := by
      decide
    apply List.mergeSort_of_pairwise
    exact List.pairwise_pair.mpr ascending
  simp [Finding.json, Json.sorted, Json.sortedMembers, Json.sorted_strings,
    inOrder]

/-! ## Breadth-first traversals -/

/-- An order of nodes that goes through the levels of a graph one by one. -/
structure Graph.IsLevelOrder
    (graph : Graph)
    (start : String)
    (order : List String) :
    Prop where
  /-- The levels that are left out are empty. -/
  levels :
    ∃ depth,
      order = (List.range depth).flatMap (graph.level start) ∧
      ∀ hops, depth ≤ hops → graph.level start hops = []
  distinct : order.Nodup
  reached : ∀ node, node ∈ order ↔ graph.Reaches start node
  nearestFirst :
    order.Pairwise fun node later =>
      ∀ hops laterHops,
        graph.IsDistance start node hops →
        graph.IsDistance start later laterHops →
        hops ≤ laterHops
  count : order.length = {node | graph.Reaches start node}.ncard

theorem Search.isLevelOrder_visitOrder
    (graph : Graph)
    (start : String) :
    graph.IsLevelOrder start (visitOrder graph.arcs .queue start) := by
  have distinct := visitOrder_nodup graph.arcs .queue start
  have reached :
      ∀ node,
        node ∈ visitOrder graph.arcs .queue start ↔
          graph.Reaches start node :=
    fun node => mem_visitOrder_iff
  obtain ⟨depth, isEmpty⟩ := exists_level_eq_nil graph start
  have isOrder := visitOrder_eq_levels isEmpty
  refine
    { levels :=
        ⟨depth, isOrder, fun _ => Graph.level_eq_nil_of_le isEmpty⟩
      distinct
      reached
      nearestFirst := isOrder ▸ Graph.pairwise_flatMap_level graph start depth
      count := ?_ }
  have sameNodes :
      {node | graph.Reaches start node} =
        ((visitOrder graph.arcs .queue start).toFinset : Set String) := by
    ext node
    simp [reached]
  rw [sameNodes, Set.ncard_coe_finset, List.toFinset_card_of_nodup distinct]

/--
A breadth-first traversal reports the nodes level by level, and their number.

The nodes of a level are those at its distance from the start.
-/
theorem Search.breadthFirst_visits_by_levels
    (graph : Graph)
    (start : String)
    (startIsNode : graph.hasNode start = true) :
    (∃ run order,
      traverse .queue graph start = .ok run ∧
      run.finding = .traversal order ∧
      run.finding.json =
        .object
          [("visit_order", .strings order),
            ("visited_count", .count order.length)] ∧
      graph.IsLevelOrder start order) ∧
    ∀ node hops,
      node ∈ graph.level start hops ↔ graph.IsDistance start node hops := by
  refine ⟨?_, fun node hops => Graph.mem_level_iff⟩
  obtain ⟨run, runs, finds⟩ := traverse_of_hasNode .queue startIsNode
  refine ⟨run, visitOrder graph.arcs .queue start, runs, finds, ?_,
    isLevelOrder_visitOrder graph start⟩
  rw [finds]
  exact Finding.json_traversal _

/-- A directed graph in which two nodes of a level lead to the same next one. -/
def Search.crossedLevels :
    Graph :=
  let ends :=
    [("a", "c"), ("a", "b"), ("b", "d"), ("c", "e"), ("c", "d"), ("d", "a"),
      ("f", "e")]
  let nodes :=
    ["a", "b", "c", "d", "e", "f"].foldl Graph.mention (.empty "g" true)
  ends.foldl
    (fun graph (left, right) =>
      graph.appendEdge (.between left .forward right .empty))
    nodes

theorem Search.breadthFirst_visits_by_levels_of_crossed_levels :
    crossedLevels.hasNode "a" = true ∧
      ∃ run,
        traverse .queue crossedLevels "a" = .ok run ∧
        run.finding = .traversal ["a", "c", "b", "e", "d"] ∧
        crossedLevels.IsLevelOrder "a" ["a", "c", "b", "e", "d"] ∧
        crossedLevels.IsDistance "a" "d" 2 := by
  have startIsNode : crossedLevels.hasNode "a" = true := by decide
  have isOrder :
      visitOrder crossedLevels.arcs .queue "a" = ["a", "c", "b", "e", "d"] := by
    have isEmpty : crossedLevels.level "a" 3 = [] := by decide
    rw [visitOrder_eq_levels isEmpty]
    decide
  obtain ⟨⟨run, order, runs, finds, _, isLevelOrder⟩, levels⟩ :=
    breadthFirst_visits_by_levels crossedLevels "a" startIsNode
  cases (finding_of_traverse runs).symm.trans finds
  rw [isOrder] at finds isLevelOrder
  exact ⟨startIsNode, run, runs, finds, isLevelOrder,
    (levels "d" 2).mp (by decide)⟩

end GraphScript
