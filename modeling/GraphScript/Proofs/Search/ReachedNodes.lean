import GraphScript.Proofs.Search.Walks
import GraphScript.Search.Run

namespace GraphScript.Search

/-!
# What an exploration visits

With either discipline an exploration visits every node at most once, and it
visits exactly the nodes that a walk from its start reaches: a node gets into
the frontier only as a successor of a visited node, and whatever is in the
frontier is visited in the end.
-/

namespace Discipline

variable {discipline : Discipline} {visited frontier rest : List String}

/-- There is no next node exactly if none waits. -/
theorem next?_eq_none_iff :
    discipline.next? frontier = none ↔ frontier = [] := by
  cases discipline <;> cases frontier <;> simp [next?]

/-- The waiting nodes are the next one and the rest. -/
theorem mem_of_next?
    {node other : String}
    (taken : discipline.next? frontier = some (node, rest)) :
    other ∈ frontier ↔ other = node ∨ other ∈ rest := by
  cases frontier with
  | nil =>
      cases discipline <;> simp [next?] at taken
  | cons first others =>
      cases discipline with
      | queue =>
          simp only [next?, Option.some.injEq, Prod.mk.injEq] at taken
          rw [← taken.1, ← taken.2, List.mem_cons]
      | stack =>
          simp only [next?, Option.some.injEq, Prod.mk.injEq] at taken
          have split :=
            List.dropLast_concat_getLast (List.cons_ne_nil first others)
          rw [taken.1, taken.2] at split
          rw [← split, List.mem_append, List.mem_singleton, or_comm]

/-- Successors wait unless they were visited. -/
theorem mem_foldl_enqueue
    (visited : List String)
    {other : String}
    (successors : List String)
    (frontier : List String) :
    other ∈ successors.foldl (enqueue visited) frontier ↔
      other ∈ frontier ∨ other ∈ successors ∧ other ∉ visited := by
  induction successors generalizing frontier with
  | nil =>
      simp
  | cons first later inductionHypothesis =>
      rw [List.foldl_cons, inductionHypothesis, List.mem_cons, enqueue]
      split <;> grind

/-- Both disciplines add the successors that have not been visited. -/
theorem mem_extend_iff
    {successors : List String}
    {other : String} :
    other ∈ discipline.extend visited frontier successors ↔
      other ∈ frontier ∨ other ∈ successors ∧ other ∉ visited := by
  cases discipline with
  | queue =>
      exact mem_foldl_enqueue visited successors frontier
  | stack =>
      simp [extend]

end Discipline

variable {Label : Type}

/-- The nodes visited by an exploration that goes on from a frontier. -/
def visitsFrom
    (arcs : List (Arc Label))
    (discipline : Discipline)
    (visited frontier : List String) :
    List String :=
  (exploreFrom arcs discipline visited frontier).map (·.node)

variable
  {arcs : List (Arc Label)}
  {discipline : Discipline}
  {visited frontier rest : List String}
  {node : String}

theorem exploreFrom_of_none
    (none : discipline.next? frontier = none) :
    exploreFrom arcs discipline visited frontier = [] := by
  rw [exploreFrom]
  grind

theorem exploreFrom_of_visited
    (taken : discipline.next? frontier = some (node, rest))
    (isVisited : node ∈ visited) :
    exploreFrom arcs discipline visited frontier =
      exploreFrom arcs discipline visited rest := by
  rw [exploreFrom]
  grind

/-- An unvisited node is visited, and the exploration goes on behind it. -/
theorem exploreFrom_of_unvisited
    (taken : discipline.next? frontier = some (node, rest))
    (unvisited : node ∉ visited) :
    exploreFrom arcs discipline visited frontier =
      ⟨node, visited ++ [node],
          discipline.extend (visited ++ [node]) rest
            (Arc.successors arcs node)⟩ ::
        exploreFrom arcs discipline (visited ++ [node])
          (discipline.extend (visited ++ [node]) rest
            (Arc.successors arcs node)) := by
  rw [exploreFrom]
  grind

theorem visitsFrom_of_none
    (none : discipline.next? frontier = none) :
    visitsFrom arcs discipline visited frontier = [] := by
  rw [visitsFrom, exploreFrom_of_none none, List.map_nil]

/-- A node that was visited before is passed over. -/
theorem visitsFrom_of_visited
    (taken : discipline.next? frontier = some (node, rest))
    (isVisited : node ∈ visited) :
    visitsFrom arcs discipline visited frontier =
      visitsFrom arcs discipline visited rest := by
  rw [visitsFrom, exploreFrom_of_visited taken isVisited, visitsFrom]

/-- An unvisited node comes first among the visits. -/
theorem visitsFrom_of_unvisited
    (taken : discipline.next? frontier = some (node, rest))
    (unvisited : node ∉ visited) :
    visitsFrom arcs discipline visited frontier =
      node ::
        visitsFrom arcs discipline (visited ++ [node])
          (discipline.extend (visited ++ [node]) rest
            (Arc.successors arcs node)) := by
  rw [visitsFrom, exploreFrom_of_unvisited taken unvisited, List.map_cons,
    visitsFrom]

/-- An exploration that starts without a node visited twice never has one. -/
theorem visited_append_visitsFrom_nodup
    (distinct : visited.Nodup) :
    (visited ++ visitsFrom arcs discipline visited frontier).Nodup := by
  induction visited, frontier using exploreFrom.induct arcs discipline with
  | case1 visited frontier none =>
      rw [visitsFrom_of_none none, List.append_nil]
      exact distinct
  | case2 visited frontier node rest taken shorter isVisited
      inductionHypothesis =>
      rw [visitsFrom_of_visited taken isVisited]
      exact inductionHypothesis distinct
  | case3 visited frontier node rest taken shorter unvisited nowVisited
      nowWaiting inductionHypothesis =>
      rw [visitsFrom_of_unvisited taken unvisited, List.append_cons]
      apply inductionHypothesis
      rw [List.nodup_append]
      refine ⟨distinct, by simp, ?_⟩
      intro before isBefore last isLast same
      rw [List.mem_singleton] at isLast
      exact unvisited (isLast ▸ same ▸ isBefore)

/-- Whatever is in the frontier has been visited or will be. -/
theorem mem_visitsFrom_of_mem_frontier
    {other : String}
    (waits : other ∈ frontier) :
    other ∈ visited ++ visitsFrom arcs discipline visited frontier := by
  induction visited, frontier using exploreFrom.induct arcs discipline with
  | case1 visited frontier none =>
      rw [Discipline.next?_eq_none_iff.mp none] at waits
      cases waits
  | case2 visited frontier node rest taken shorter isVisited
      inductionHypothesis =>
      rw [visitsFrom_of_visited taken isVisited]
      cases (Discipline.mem_of_next? taken).mp waits with
      | inl same =>
          exact List.mem_append_left _ (same ▸ isVisited)
      | inr later =>
          exact inductionHypothesis later
  | case3 visited frontier node rest taken shorter unvisited nowVisited
      nowWaiting inductionHypothesis =>
      rw [visitsFrom_of_unvisited taken unvisited, List.append_cons]
      cases (Discipline.mem_of_next? taken).mp waits with
      | inl same =>
          simp [same]
      | inr later =>
          exact inductionHypothesis
            (Discipline.mem_extend_iff.mpr (.inl later))

/-- Every successor of a visited node has been visited or will be. -/
theorem successors_visited
    {other : String}
    (isVisited : node ∈ visitsFrom arcs discipline visited frontier)
    (follows : other ∈ Arc.successors arcs node) :
    other ∈ visited ++ visitsFrom arcs discipline visited frontier := by
  induction visited, frontier using exploreFrom.induct arcs discipline with
  | case1 visited frontier none =>
      rw [visitsFrom_of_none none] at isVisited
      cases isVisited
  | case2 visited frontier first rest taken shorter firstVisited
      inductionHypothesis =>
      rw [visitsFrom_of_visited taken firstVisited] at isVisited ⊢
      exact inductionHypothesis isVisited
  | case3 visited frontier first rest taken shorter unvisited nowVisited
      nowWaiting inductionHypothesis =>
      rw [visitsFrom_of_unvisited taken unvisited] at isVisited ⊢
      rw [List.append_cons]
      cases isVisited with
      | head =>
          by_cases before : other ∈ nowVisited
          · exact List.mem_append_left _ before
          · exact mem_visitsFrom_of_mem_frontier
              (Discipline.mem_extend_iff.mpr (.inr ⟨follows, before⟩))
      | tail _ later =>
          exact inductionHypothesis later

/-- What holds in the frontier and passes to successors holds at every visit. -/
theorem visitsFrom_induction
    {holds : String → Prop}
    (passes :
      ∀ node, holds node → ∀ other ∈ Arc.successors arcs node, holds other)
    (atFrontier : ∀ waiting ∈ frontier, holds waiting)
    (isVisited : node ∈ visitsFrom arcs discipline visited frontier) :
    holds node := by
  induction visited, frontier using exploreFrom.induct arcs discipline with
  | case1 visited frontier none =>
      rw [visitsFrom_of_none none] at isVisited
      cases isVisited
  | case2 visited frontier first rest taken shorter firstVisited
      inductionHypothesis =>
      rw [visitsFrom_of_visited taken firstVisited] at isVisited
      apply inductionHypothesis _ isVisited
      intro waiting waits
      exact atFrontier waiting
        ((Discipline.mem_of_next? taken).mpr (.inr waits))
  | case3 visited frontier first rest taken shorter unvisited nowVisited
      nowWaiting inductionHypothesis =>
      have atFirst : holds first :=
        atFrontier first ((Discipline.mem_of_next? taken).mpr (.inl rfl))
      rw [visitsFrom_of_unvisited taken unvisited] at isVisited
      cases isVisited with
      | head =>
          exact atFirst
      | tail _ later =>
          apply inductionHypothesis _ later
          intro waiting waits
          cases Discipline.mem_extend_iff.mp waits with
          | inl before =>
              exact atFrontier waiting
                ((Discipline.mem_of_next? taken).mpr (.inr before))
          | inr added =>
              exact passes first atFirst waiting added.1

/-! ## Explorations of a graph -/

theorem visitOrder_eq_visitsFrom
    (arcs : List (Arc Label))
    (discipline : Discipline)
    (start : String) :
    visitOrder arcs discipline start =
      visitsFrom arcs discipline [] [start] :=
  rfl

/-- No node is visited twice. -/
theorem visitOrder_nodup
    (arcs : List (Arc Label))
    (discipline : Discipline)
    (start : String) :
    (visitOrder arcs discipline start).Nodup := by
  rw [visitOrder_eq_visitsFrom]
  exact visited_append_visitsFrom_nodup List.nodup_nil

/-- An exploration visits exactly the nodes that walks from its start reach. -/
theorem mem_visitOrder_iff
    {graph : Graph}
    {start : String} :
    node ∈ visitOrder graph.arcs discipline start ↔
      graph.Reaches start node := by
  rw [visitOrder_eq_visitsFrom]
  constructor
  · intro isVisited
    apply visitsFrom_induction _ _ isVisited
    · intro current reached other follows
      rw [graph.successors_arcs, Graph.mem_nextNodes_iff] at follows
      exact reached.tail follows
    · intro waiting waits
      rw [List.mem_singleton] at waits
      rw [waits]
      exact .refl
  · intro reached
    induction reached with
    | refl =>
        have isVisited :
            start ∈ [] ++ visitsFrom graph.arcs discipline [] [start] :=
          mem_visitsFrom_of_mem_frontier (List.mem_singleton_self start)
        exact isVisited
    | tail _ adjoins inductionHypothesis =>
        apply successors_visited inductionHypothesis
        rw [graph.successors_arcs, Graph.mem_nextNodes_iff]
        exact adjoins

/-- From a node of the graph the exploration runs, and reports its visits. -/
theorem traverse_of_hasNode
    (discipline : Discipline)
    {graph : Graph}
    {start : String}
    (startIsNode : graph.hasNode start = true) :
    ∃ run,
      traverse discipline graph start = .ok run ∧
      run.finding = .traversal (visitOrder graph.arcs discipline start) := by
  have nonempty : graph.nodes.isEmpty = false := by
    apply Bool.eq_false_iff.mpr
    intro isEmpty
    have noEntries : graph.nodes.entries = [] := by
      simpa [NameMap.isEmpty] using isEmpty
    simp [Graph.hasNode, NameMap.contains, NameMap.get?, noEntries,
      NameMap.find?] at startIsNode
  simp [traverse, nonempty, startIsNode, visitOrder]

/-- An exploration that runs reports its visits. -/
theorem finding_of_traverse
    {graph : Graph}
    {start : String}
    {run : Run}
    (runs : traverse discipline graph start = .ok run) :
    run.finding = .traversal (visitOrder graph.arcs discipline start) := by
  by_cases startIsNode : graph.hasNode start = true
  · obtain ⟨same, runsToo, finds⟩ := traverse_of_hasNode discipline startIsNode
    cases runs.symm.trans runsToo
    exact finds
  · simp only [traverse, startIsNode] at runs
    split at runs <;> cases runs

end GraphScript.Search
