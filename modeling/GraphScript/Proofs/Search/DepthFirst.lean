import GraphScript.Proofs.Search.ReachedNodes

namespace GraphScript

/-!
# The depth-first order

A recursive search visits a node and then goes through the nodes next to it,
searching from each one that it has not visited by then. A depth-first
traversal is written with a stack instead, on which nodes may lie several times
and after they have been visited. Read from its top, the stack lists the nodes
that the suspended calls of the recursive search have still to go through.
-/

namespace Graph

/--
The recursive search goes through some nodes, with others visited before.

The last argument lists all nodes visited afterwards, in their order.
-/
inductive Searches
    (graph : Graph) :
    List String → List String → List String → Prop
  | done
      (visited : List String) :
      Searches graph visited [] visited
  | pass
      {visited rest final : List String}
      {node : String}
      (isVisited : node ∈ visited)
      (later : Searches graph visited rest final) :
      Searches graph visited (node :: rest) final
  | enter
      {visited inner rest final : List String}
      {node : String}
      (unvisited : node ∉ visited)
      (within :
        Searches graph (visited ++ [node]) (graph.nextNodes node) inner)
      (later : Searches graph inner rest final) :
      Searches graph visited (node :: rest) final

/-- The order in which the recursive search from a node visits nodes. -/
def Preorder
    (graph : Graph)
    (start : String)
    (order : List String) :
    Prop :=
  graph.Searches [start] (graph.nextNodes start) order

namespace Searches

variable
  {graph : Graph}
  {visited between final : List String}
  {nodes others : List String}

/-- A search only adds to the visited nodes. -/
theorem subset
    (search : graph.Searches visited nodes final) :
    visited ⊆ final := by
  induction search with
  | done visited =>
      exact List.Subset.refl visited
  | pass _ _ inductionHypothesis =>
      exact inductionHypothesis
  | enter _ _ _ inside afterwards =>
      exact List.Subset.trans (List.subset_append_left _ _)
        (List.Subset.trans inside afterwards)

/-- A search from two lists of nodes passes through the nodes visited between them. -/
theorem split
    (search : graph.Searches visited (nodes ++ others) final) :
    ∃ between,
      graph.Searches visited nodes between ∧
      graph.Searches between others final := by
  induction nodes generalizing visited with
  | nil =>
      exact ⟨visited, .done visited, search⟩
  | cons node rest inductionHypothesis =>
      cases search with
      | pass isVisited later =>
          obtain ⟨between, first, second⟩ := inductionHypothesis later
          exact ⟨between, .pass isVisited first, second⟩
      | enter unvisited within later =>
          obtain ⟨between, first, second⟩ := inductionHypothesis later
          exact ⟨between, .enter unvisited within first, second⟩

/-- Leaving out nodes that are visited already makes no difference. -/
theorem of_filter
    {seen : List String}
    (behind : seen ⊆ visited)
    (search :
      graph.Searches visited (nodes.filter fun node => node ∉ seen) final) :
    graph.Searches visited nodes final := by
  induction nodes generalizing visited with
  | nil =>
      exact search
  | cons node rest inductionHypothesis =>
      by_cases isSeen : node ∈ seen
      · rw [List.filter_cons_of_neg (by simpa using isSeen)] at search
        exact .pass (behind isSeen) (inductionHypothesis behind search)
      · rw [List.filter_cons_of_pos (by simpa using isSeen)] at search
        cases search with
        | pass isVisited later =>
            exact .pass isVisited (inductionHypothesis behind later)
        | enter unvisited within later =>
            have stillBehind :=
              List.Subset.trans
                (List.Subset.trans behind (List.subset_append_left _ _))
                within.subset
            exact .enter unvisited within
              (inductionHypothesis stillBehind later)

/-- A search from some nodes visits the same nodes in the same order. -/
theorem unique
    {otherFinal : List String}
    (search : graph.Searches visited nodes final)
    (other : graph.Searches visited nodes otherFinal) :
    final = otherFinal := by
  induction search generalizing otherFinal with
  | done =>
      cases other
      rfl
  | pass isVisited _ inductionHypothesis =>
      cases other with
      | pass _ later =>
          exact inductionHypothesis later
      | enter unvisited _ _ =>
          exact absurd isVisited unvisited
  | enter unvisited _ _ inside afterwards =>
      cases other with
      | pass isVisited _ =>
          exact absurd isVisited unvisited
      | enter _ within later =>
          cases inside within
          exact afterwards later

end Searches

end Graph

namespace Search

/-- A stack is its list read backwards. -/
theorem Discipline.reverse_of_next?_stack
    {frontier rest : List String}
    {node : String}
    (taken : Discipline.stack.next? frontier = some (node, rest)) :
    frontier.reverse = node :: rest.reverse := by
  cases frontier with
  | nil =>
      simp [next?] at taken
  | cons first others =>
      simp only [next?, Option.some.injEq, Prod.mk.injEq] at taken
      have split :=
        List.dropLast_concat_getLast (List.cons_ne_nil first others)
      rw [taken.1, taken.2] at split
      rw [← split, List.reverse_append]
      rfl

/-- A stack is worked off like the calls that its nodes stand for. -/
theorem searches_stack
    (graph : Graph)
    (visited frontier : List String) :
    graph.Searches visited frontier.reverse
      (visited ++ visitsFrom graph.arcs .stack visited frontier) := by
  induction visited, frontier using exploreFrom.induct graph.arcs .stack with
  | case1 visited frontier none =>
      rw [visitsFrom_of_none none, Discipline.next?_eq_none_iff.mp none,
        List.append_nil]
      exact .done visited
  | case2 visited frontier node rest taken shorter isVisited
      inductionHypothesis =>
      rw [visitsFrom_of_visited taken isVisited,
        Discipline.reverse_of_next?_stack taken]
      exact .pass isVisited inductionHypothesis
  | case3 visited frontier node rest taken shorter unvisited nowVisited
      nowWaiting inductionHypothesis =>
      rw [visitsFrom_of_unvisited taken unvisited,
        Discipline.reverse_of_next?_stack taken, List.append_cons]
      -- The successors lie on the stack without the visited ones among them.
      have worked :
          nowWaiting.reverse =
            ((graph.nextNodes node).filter fun next => next ∉ nowVisited) ++
              rest.reverse := by
        simp only [nowWaiting, Discipline.extend, graph.successors_arcs,
          List.reverse_append, ← List.filter_reverse, List.reverse_reverse]
      rw [worked] at inductionHypothesis
      obtain ⟨inner, within, later⟩ := inductionHypothesis.split
      exact .enter unvisited
        (within.of_filter (List.Subset.refl nowVisited)) later

/-- An exploration with a stack visits the nodes in preorder. -/
theorem preorder_visitOrder
    (graph : Graph)
    (start : String) :
    graph.Preorder start (visitOrder graph.arcs .stack start) := by
  rw [visitOrder_eq_visitsFrom]
  cases searches_stack graph [] [start] with
  | pass isVisited _ =>
      cases isVisited
  | enter _ within later =>
      cases later
      exact within

/--
A depth-first traversal reports the order of the recursive search.

There is no other such order, and it has every node that a walk from the start
reaches, once.
-/
theorem depthFirst_visits_in_preorder
    (graph : Graph)
    (start : String)
    (startIsNode : graph.hasNode start = true) :
    ∃ run order,
      traverse .stack graph start = .ok run ∧
      run.finding = .traversal order ∧
      (∀ other, graph.Preorder start other ↔ other = order) ∧
      order.Nodup ∧
      ∀ node, node ∈ order ↔ graph.Reaches start node := by
  obtain ⟨run, runs, finds⟩ := traverse_of_hasNode .stack startIsNode
  refine ⟨run, visitOrder graph.arcs .stack start, runs, finds, ?_,
    visitOrder_nodup _ _ _, fun node => mem_visitOrder_iff⟩
  intro other
  constructor
  · intro isPreorder
    exact isPreorder.unique (preorder_visitOrder graph start)
  · rintro rfl
    exact preorder_visitOrder graph start

/-- An undirected cycle with a loop, a parallel edge and a way out. -/
def loopedCycle :
    Graph :=
  let ends :=
    [("a", "c"), ("a", "b"), ("c", "b"), ("b", "b"), ("b", "a"), ("b", "d")]
  let nodes := ["a", "b", "c", "d"].foldl Graph.mention (.empty "g" false)
  ends.foldl
    (fun graph (left, right) =>
      graph.appendEdge (.between left .undirected right .empty))
    nodes

theorem depthFirst_visits_in_preorder_of_cycle :
    loopedCycle.hasNode "a" = true ∧
      ∃ run,
        traverse .stack loopedCycle "a" = .ok run ∧
        run.finding = .traversal ["a", "c", "b", "d"] ∧
        loopedCycle.Preorder "a" ["a", "c", "b", "d"] := by
  have startIsNode : loopedCycle.hasNode "a" = true := by decide
  have searched : loopedCycle.Preorder "a" ["a", "c", "b", "d"] := by
    have atA : loopedCycle.nextNodes "a" = ["c", "b", "b"] := by decide
    have atB : loopedCycle.nextNodes "b" = ["a", "c", "b", "b", "a", "d"] := by
      decide
    have atC : loopedCycle.nextNodes "c" = ["a", "b"] := by decide
    have atD : loopedCycle.nextNodes "d" = ["b"] := by decide
    unfold Graph.Preorder
    rw [atA]
    refine .enter (by decide) ?_ (.pass (by decide) (.pass (by decide) (.done _)))
    rw [atC]
    refine .pass (by decide) (.enter (by decide) ?_ (.done _))
    rw [atB]
    refine .pass (by decide) (.pass (by decide) (.pass (by decide)
      (.pass (by decide) (.pass (by decide) (.enter (by decide) ?_ (.done _))))))
    rw [atD]
    exact .pass (by decide) (.done _)
  obtain ⟨run, order, runs, finds, isOnly, _⟩ :=
    depthFirst_visits_in_preorder loopedCycle "a" startIsNode
  rw [← (isOnly _).mp searched] at finds
  exact ⟨startIsNode, run, runs, finds, searched⟩

end Search

end GraphScript
