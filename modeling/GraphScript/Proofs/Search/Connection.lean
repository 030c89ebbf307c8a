import GraphScript.Proofs.Search.BreadthFirst
import GraphScript.Proofs.Search.DepthFirst
import GraphScript.Proofs.Search.WalkSums
import Mathlib.Data.List.Perm.Subperm

namespace GraphScript

/-!
# Connected graphs

A graph is connected when its edges join any two nodes, whatever their
directions. This is decided by counting the nodes that a search from the first
one visits. The count is right because all ends of edges are nodes. Without
directions, a breadth-first traversal from any node decides the same.
-/

namespace Graph

/-- A path that ignores the directions of edges joins two nodes. -/
def Joined
    (graph : Graph) :
    String → String → Prop :=
  Relation.ReflTransGen fun node next =>
    ∃ edge ∈ graph.edges, edge.Leads false node next

/-- A breadth-first traversal from a node reports all nodes of the graph. -/
def TraversedFrom
    (graph : Graph)
    (start : String) :
    Prop :=
  ∃ run order,
    Search.traverse .queue graph start = .ok run ∧
    run.finding = .traversal order ∧
    ∀ node, graph.hasNode node = true → node ∈ order

variable {graph : Graph} {node other : String}

/-- Joined nodes are the ones that walks reach when edges have no directions. -/
theorem joined_eq_reaches
    (graph : Graph) :
    graph.Joined = { graph with directed := false }.Reaches :=
  rfl

theorem joined_eq_reaches_of_undirected
    (undirected : graph.directed = false) :
    graph.Joined = graph.Reaches := by
  cases graph
  cases undirected
  rfl

theorem Joined.symm
    (joined : graph.Joined node other) :
    graph.Joined other node := by
  induction joined with
  | refl =>
      exact .refl
  | tail _ leads inductionHypothesis =>
      obtain ⟨edge, isEdge, forward | backward⟩ := leads
      · exact .head ⟨edge, isEdge, .inr ⟨rfl, forward.2, forward.1⟩⟩
          inductionHypothesis
      · exact .head ⟨edge, isEdge, .inl ⟨backward.2.2, backward.2.1⟩⟩
          inductionHypothesis

theorem Closed.hasNode_of_joined
    (closed : graph.Closed)
    (isNode : graph.hasNode node = true)
    (joined : graph.Joined node other) :
    graph.hasNode other = true := by
  induction joined with
  | refl =>
      exact isNode
  | tail _ leads _ =>
      obtain ⟨edge, isEdge, forward | backward⟩ := leads
      · exact forward.2 ▸ (closed edge isEdge).2
      · exact backward.2.2 ▸ (closed edge isEdge).1

end Graph

namespace Search

/-! ## Marking nodes when they are met -/

/-- Mark a node and let it wait, unless it is marked already. -/
def mark
    (state : List String × List String)
    (node : String) :
    List String × List String :=
  if node ∈ state.1 then
    state
  else
    (state.1 ++ [node], state.2 ++ [node])

/--
A search marks nodes when it meets them, and not when it takes them up.

It starts with some nodes marked and some waiting. The last argument lists the
nodes that are marked when none is waiting any more.
-/
inductive Marks
    {Label : Type}
    (arcs : List (Arc Label)) :
    List String → List String → List String → Prop
  | done
      (marked : List String) :
      Marks arcs marked [] marked
  | take
      {marked rest nowMarked nowWaiting final : List String}
      {node : String}
      (marking :
        (Arc.successors arcs node).foldl mark (marked, rest) =
          (nowMarked, nowWaiting))
      (later : Marks arcs nowMarked nowWaiting final) :
      Marks arcs marked (node :: rest) final

section Marking

variable
  {Label : Type}
  {arcs : List (Arc Label)}
  {visited waiting final other : List String}

theorem Marks.unique
    (marks : Marks arcs visited waiting final)
    (marksToo : Marks arcs visited waiting other) :
    final = other := by
  induction marks with
  | done =>
      cases marksToo
      rfl
  | take marking _ inductionHypothesis =>
      cases marksToo with
      | take markingToo later =>
          cases marking.symm.trans markingToo
          exact inductionHypothesis later

/-- The marked nodes are those that have been visited and those that wait. -/
theorem foldl_mark
    (visited successors waiting : List String) :
    successors.foldl mark (visited ++ waiting, waiting) =
      (visited ++ successors.foldl (Discipline.enqueue visited) waiting,
        successors.foldl (Discipline.enqueue visited) waiting) := by
  induction successors generalizing waiting with
  | nil =>
      rfl
  | cons node rest inductionHypothesis =>
      have marked :
          mark (visited ++ waiting, waiting) node =
            (visited ++ Discipline.enqueue visited waiting node,
              Discipline.enqueue visited waiting node) := by
        simp only [mark, Discipline.enqueue, List.mem_append]
        split <;> simp
      rw [List.foldl_cons, List.foldl_cons, marked, inductionHypothesis]

theorem nodup_append_foldl_enqueue
    {successors : List String}
    (distinct : (visited ++ waiting).Nodup) :
    (visited ++
      successors.foldl (Discipline.enqueue visited) waiting).Nodup := by
  induction successors generalizing waiting with
  | nil =>
      exact distinct
  | cons node rest inductionHypothesis =>
      rw [List.foldl_cons]
      apply inductionHypothesis
      by_cases known : node ∈ visited ∨ node ∈ waiting
      · simpa only [Discipline.enqueue, known, if_true] using distinct
      · rw [Discipline.enqueue, if_neg known, ← List.append_assoc,
          ← List.concat_eq_append]
        exact distinct.concat (by simpa using known)

/-- Nodes are met in the order in which a queue takes them up. -/
theorem marks_queue
    (distinct : (visited ++ waiting).Nodup) :
    Marks arcs (visited ++ waiting) waiting
      (visited ++ visitsFrom arcs .queue visited waiting) := by
  induction visited, waiting using exploreFrom.induct arcs .queue with
  | case1 visited waiting none =>
      rw [visitsFrom_of_none none, Discipline.next?_eq_none_iff.mp none]
      exact .done _
  | case2 visited waiting node rest taken shorter isVisited
      inductionHypothesis =>
      have waits : node ∈ waiting :=
        (Discipline.mem_of_next? taken).mpr (.inl rfl)
      exact absurd rfl
        ((List.nodup_append.mp distinct).2.2 node isVisited node waits)
  | case3 visited waiting node rest taken shorter unvisited nowVisited
      nowWaiting inductionHypothesis =>
      rw [visitsFrom_of_unvisited taken unvisited]
      cases waiting with
      | nil =>
          cases taken
      | cons first others =>
          cases taken
          rw [List.append_cons] at distinct ⊢
          rw [List.append_cons visited node (visitsFrom _ _ _ _)]
          exact .take (foldl_mark nowVisited _ rest)
            (inductionHypothesis (nodup_append_foldl_enqueue distinct))

end Marking

/-- A search that marks nodes when it meets them ends with those it visits. -/
theorem marks_visitOrder_iff
    {Label : Type}
    {arcs : List (Arc Label)}
    {start : String}
    {marked : List String} :
    Marks arcs [start] [start] marked ↔
      marked = visitOrder arcs .queue start := by
  have distinct : ([] ++ [start]).Nodup := List.nodup_singleton start
  have marks :
      Marks arcs [start] [start] (visitOrder arcs .queue start) :=
    marks_queue distinct
  constructor
  · intro marksToo
    exact marksToo.unique marks
  · intro same
    exact same ▸ marks

end Search

namespace Graph

open Search

variable {graph : Graph} {first start : String} {rest : List String}

/-! ## Deciding connection -/

/-- The nodes that a search from the first node marks are counted. -/
theorem isConnected_iff_length_marked
    {marked : List String}
    (isFirst : graph.nodeNames = first :: rest)
    (marks : Marks graph.weakArcs [first] [first] marked) :
    graph.isConnected = true ↔ marked.length = graph.nodeNames.length := by
  have size : graph.nodes.size = graph.nodeNames.length :=
    (List.length_map Prod.fst).symm
  simp only [isConnected, isFirst, size, decide_eq_true_eq,
    marks_visitOrder_iff.mp marks]

theorem isConnected_iff_joined_to_first
    (closed : graph.Closed)
    (isFirst : graph.nodeNames = first :: rest) :
    graph.isConnected = true ↔
      ∀ node, graph.hasNode node = true → graph.Joined first node := by
  let order := visitOrder graph.weakArcs .queue first
  have firstIsNode : graph.hasNode first = true := by
    simp [hasNode_iff, isFirst]
  have distinct : order.Nodup := visitOrder_nodup _ _ _
  let undirected : Graph := { graph with directed := false }
  have reached :
      ∀ node,
        node ∈ visitOrder undirected.arcs .queue first ↔
          undirected.Reaches first node :=
    fun node => mem_visitOrder_iff
  have visited : ∀ node, node ∈ order ↔ graph.Joined first node := by
    rw [joined_eq_reaches]
    exact reached
  have areNodes : order ⊆ graph.nodeNames := by
    intro node isVisited
    exact hasNode_iff.mp
      (closed.hasNode_of_joined firstIsNode ((visited node).mp isVisited))
  rw [isConnected_iff_length_marked isFirst (marks_visitOrder_iff.mpr rfl)]
  constructor
  · intro sameLength node isNode
    have rearranged : order.Perm graph.nodeNames :=
      (List.subperm_of_subset distinct areNodes).perm_of_length_le
        (Nat.le_of_eq sameLength.symm)
    exact (visited node).mp (rearranged.mem_iff.mpr (hasNode_iff.mp isNode))
  · intro allJoined
    have allVisited : graph.nodeNames ⊆ order := by
      intro node isNode
      exact (visited node).mpr (allJoined node (hasNode_iff.mpr isNode))
    have rearranged : order.Perm graph.nodeNames :=
      (List.perm_ext_iff_of_nodup distinct graph.nodes.distinct).mpr
        fun node => ⟨fun member => areNodes member,
          fun member => allVisited member⟩
    exact rearranged.length_eq

theorem isConnected_of_nodeNames_eq_nil
    (isEmpty : graph.nodeNames = []) :
    graph.isConnected = true := by
  simp only [isConnected, isEmpty]

/-- A node to which all nodes are joined joins any two of them. -/
theorem isConnected_iff_allJoined
    (closed : graph.Closed) :
    graph.isConnected = true ↔
      ∀ node other,
        graph.hasNode node = true → graph.hasNode other = true →
        graph.Joined node other := by
  cases isFirst : graph.nodeNames with
  | nil =>
      simp [isConnected_of_nodeNames_eq_nil isFirst, hasNode_iff, isFirst]
  | cons first rest =>
      rw [isConnected_iff_joined_to_first closed isFirst]
      constructor
      · intro toFirst node other isNode isOther
        exact (toFirst node isNode).symm.trans (toFirst other isOther)
      · intro allJoined node isNode
        exact allJoined first node (by simp [hasNode_iff, isFirst]) isNode

/-- Without directions, a traversal from a node reports what is joined to it. -/
theorem traversedFrom_iff
    (undirected : graph.directed = false)
    (startIsNode : graph.hasNode start = true) :
    graph.TraversedFrom start ↔
      ∀ node, graph.hasNode node = true → graph.Joined start node := by
  rw [joined_eq_reaches_of_undirected undirected]
  constructor
  · intro traversed node isNode
    obtain ⟨run, order, runs, finds, reports⟩ := traversed
    cases (finding_of_traverse runs).symm.trans finds
    exact mem_visitOrder_iff.mp (reports node isNode)
  · intro allReached
    obtain ⟨run, runs, finds⟩ := traverse_of_hasNode .queue startIsNode
    exact ⟨run, _, runs, finds, fun node isNode =>
      mem_visitOrder_iff.mpr (allReached node isNode)⟩

/-- One traversal decides the connection, wherever it starts. -/
theorem isConnected_iff_traversedFrom
    (closed : graph.Closed)
    (undirected : graph.directed = false)
    (startIsNode : graph.hasNode start = true) :
    graph.isConnected = true ↔ graph.TraversedFrom start := by
  rw [isConnected_iff_allJoined closed,
    traversedFrom_iff undirected startIsNode]
  constructor
  · intro allJoined node isNode
    exact allJoined start node startIsNode isNode
  · intro toStart node other isNode isOther
    exact (toStart node isNode).symm.trans (toStart other isOther)

/--
A graph is connected exactly if paths that ignore directions join all nodes.

Without directions, this is so exactly if a breadth-first traversal reports all
nodes, from some node or from every one.
-/
theorem isConnected_means_all_joined
    (graph : Graph)
    (closed : graph.Closed) :
    (graph.isConnected = true ↔
      ∀ node other,
        graph.hasNode node = true → graph.hasNode other = true →
        graph.Joined node other) ∧
    (graph.nodes.size ≤ 1 → graph.isConnected = true) ∧
    (graph.directed = false → 1 ≤ graph.nodes.size →
      (graph.isConnected = true ↔
        ∃ start, graph.hasNode start = true ∧ graph.TraversedFrom start) ∧
      (graph.isConnected = true ↔
        ∀ start, graph.hasNode start = true → graph.TraversedFrom start)) := by
  have size : graph.nodes.size = graph.nodeNames.length :=
    (List.length_map Prod.fst).symm
  refine ⟨isConnected_iff_allJoined closed, ?_, ?_⟩
  · intro atMostOne
    rw [isConnected_iff_allJoined closed]
    intro node other isNode isOther
    rw [hasNode_iff] at isNode isOther
    match isFirst : graph.nodeNames with
    | [] =>
        rw [isFirst] at isNode
        cases isNode
    | [only] =>
        rw [isFirst, List.mem_singleton] at isNode isOther
        rw [isNode, isOther]
        exact .refl
    | _ :: _ :: _ =>
        simp [size, isFirst] at atMostOne
  · intro undirected atLeastOne
    obtain ⟨first, isFirst⟩ := List.exists_mem_of_length_pos (size ▸ atLeastOne)
    have firstIsNode := hasNode_iff.mpr isFirst
    constructor
    · constructor
      · intro connected
        exact ⟨first, firstIsNode,
          (isConnected_iff_traversedFrom closed undirected firstIsNode).mp
            connected⟩
      · rintro ⟨start, startIsNode, traversed⟩
        exact (isConnected_iff_traversedFrom closed undirected startIsNode).mpr
          traversed
    · constructor
      · intro connected start startIsNode
        exact (isConnected_iff_traversedFrom closed undirected startIsNode).mp
          connected
      · intro allTraversed
        exact (isConnected_iff_traversedFrom closed undirected firstIsNode).mpr
          (allTraversed first firstIsNode)

theorem traversedFrom_loopedCycle :
    loopedCycle.TraversedFrom "a" := by
  have isEmpty : loopedCycle.level "a" 3 = [] := by decide
  have startIsNode : loopedCycle.hasNode "a" = true := by decide
  obtain ⟨run, runs, finds⟩ := traverse_of_hasNode .queue startIsNode
  refine ⟨run, _, runs, finds, ?_⟩
  intro node isNode
  have allVisited :
      ∀ name ∈ loopedCycle.nodeNames,
        name ∈ (List.range 3).flatMap (loopedCycle.level "a") := by
    decide
  rw [visitOrder_eq_levels isEmpty]
  exact allVisited node (hasNode_iff.mp isNode)

/-- An undirected cycle with a way out, and a single node with no edges. -/
theorem isConnected_means_all_joined_of_cycle :
    loopedCycle.Closed ∧
      loopedCycle.isConnected = true ∧
      loopedCycle.Joined "d" "c" ∧
      loopedCycle.TraversedFrom "d" ∧
      ((empty "g" true).mention "a").isConnected = true := by
  have closed : loopedCycle.Closed := by
    unfold Closed
    decide
  have loneClosed : ((empty "g" true).mention "a").Closed := nofun
  obtain ⟨joins, _, undirected⟩ :=
    isConnected_means_all_joined loopedCycle closed
  obtain ⟨fromSome, fromEvery⟩ := undirected (by decide) (by decide)
  have connected : loopedCycle.isConnected = true :=
    fromSome.mpr ⟨"a", by decide, traversedFrom_loopedCycle⟩
  obtain ⟨_, alone, _⟩ := isConnected_means_all_joined _ loneClosed
  exact ⟨closed, connected,
    joins.mp connected "d" "c" (by decide) (by decide),
    fromEvery.mp connected "d" (by decide), alone (by decide)⟩

end Graph

end GraphScript
