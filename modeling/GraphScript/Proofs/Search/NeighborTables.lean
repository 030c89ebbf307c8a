import GraphScript.Proofs.Search.Loops
import GraphScript.Proofs.Search.ShortestDistances

namespace GraphScript

/-!
# Tables of neighbours

The neighbours of a node are listed in three ways: by the graph itself with the
attributes of the edges, for explorations by name, and for shortest paths with
weights. All three go through the edges in order. They differ in one point. A
loop can be followed both ways when edges have no direction, and only the lists
for searches have it twice.
-/

open Search

variable {Label Other Sum : Type}

/-! ## Loops that are listed twice -/

namespace Arc

/-- The ways of following an edge, where a loop has only one. -/
def ofEdgeOnce
    (directed : Bool)
    (edge : Edge)
    (label : Label) :
    List (Arc Label) :=
  if directed = true ∨ edge.source = edge.target then
    [⟨edge.source, edge.target, label⟩]
  else
    [⟨edge.source, edge.target, label⟩, ⟨edge.target, edge.source, label⟩]

/-- Without directions, the steps that lead back to their node come twice. -/
def withLoopsTwice
    (directed : Bool)
    (node : String)
    (steps : List (String × Label)) :
    List (String × Label) :=
  steps.flatMap fun step =>
    if directed = false ∧ step.1 = node then [step, step] else [step]

/-- Loops are doubled origin by origin. -/
theorem withLoopsTwice_flatMap
    {Origin : Type}
    (directed : Bool)
    (node : String)
    (origins : List Origin)
    (steps : Origin → List (String × Label)) :
    withLoopsTwice directed node (origins.flatMap steps) =
      origins.flatMap fun origin =>
        withLoopsTwice directed node (steps origin) :=
  List.flatMap_assoc

/-- The steps with what is read from their labels. -/
def readLabels
    (read : Label → Other)
    (steps : List (String × Label)) :
    List (String × Other) :=
  steps.map fun step => (step.1, read step.2)

/-- Reading labels changes no name. -/
theorem map_fst_readLabels
    (read : Label → Other)
    (steps : List (String × Label)) :
    (readLabels read steps).map Prod.fst = steps.map Prod.fst := by
  unfold readLabels
  rw [List.map_map]
  rfl

/-- Labels may be read before or after loops are doubled. -/
theorem readLabels_withLoopsTwice
    (read : Label → Other)
    (directed : Bool)
    (node : String)
    (steps : List (String × Label)) :
    readLabels read (withLoopsTwice directed node steps) =
      withLoopsTwice directed node (readLabels read steps) := by
  unfold readLabels withLoopsTwice
  rw [List.map_flatMap, List.flatMap_map]
  congr 1
  funext step
  split <;> rfl

/-- Labels may be read before or after loops are left out. -/
theorem otherSteps_readLabels
    (read : Label → Other)
    (node : String)
    (steps : List (String × Label)) :
    otherSteps node (readLabels read steps) =
      readLabels read (otherSteps node steps) := by
  unfold readLabels otherSteps
  rw [List.filter_map]
  rfl

/-- The steps that lead elsewhere are the same as without the repetitions. -/
theorem otherSteps_withLoopsTwice
    (directed : Bool)
    (node : String)
    (steps : List (String × Label)) :
    otherSteps node (withLoopsTwice directed node steps) =
      otherSteps node steps := by
  unfold otherSteps withLoopsTwice
  induction steps with
  | nil =>
      rfl
  | cons step rest inductionHypothesis =>
      rw [List.flatMap_cons, List.filter_append, inductionHypothesis]
      by_cases leadsBack : step.1 = node
      · rw [List.filter_cons_of_neg (by simp [leadsBack])]
        split <;> simp [leadsBack]
      · rw [if_neg fun twice => leadsBack twice.2,
          List.filter_cons_of_pos (by simp [leadsBack]),
          List.filter_cons_of_pos (by simp [leadsBack])]
        rfl

/-- The arcs that leave a node are found origin by origin. -/
theorem leaving_flatMap
    {Origin : Type}
    (origins : List Origin)
    (arcs : Origin → List (Arc Label))
    (node : String) :
    leaving (origins.flatMap arcs) node =
      origins.flatMap fun origin => leaving (arcs origin) node := by
  unfold leaving
  rw [List.filter_flatMap, List.map_flatMap]

/-- An edge leaves its source, and without directions its target too. -/
theorem leaving_ofEdgeOnce
    (directed : Bool)
    (edge : Edge)
    (label : Label)
    (node : String) :
    leaving (ofEdgeOnce directed edge label) node =
      if edge.source = node then
        [(edge.target, label)]
      else if directed = false ∧ edge.target = node then
        [(edge.source, label)]
      else
        [] := by
  unfold ofEdgeOnce leaving
  by_cases forward : edge.source = node
  · rw [if_pos forward]
    split
    · simp [forward]
    · next twoWays =>
        have notBack : edge.target ≠ node :=
          fun back => twoWays (.inr (forward.trans back.symm))
        simp [forward, notBack]
  · rw [if_neg forward]
    cases directed with
    | true =>
        simp [forward]
    | false =>
        by_cases backward : edge.target = node
        · have notLoop : edge.source ≠ edge.target := backward ▸ forward
          simp [forward, backward]
        · split <;> simp [forward, backward]

/-- The searches follow an edge as it stands once, with loops doubled. -/
theorem leaving_ofEdge
    (directed : Bool)
    (edge : Edge)
    (label : Label)
    (node : String) :
    leaving (ofEdge directed edge label) node =
      withLoopsTwice directed node
        (leaving (ofEdgeOnce directed edge label) node) := by
  rw [leaving_ofEdgeOnce]
  unfold leaving ofEdge withLoopsTwice
  cases directed <;>
    by_cases forward : edge.source = node <;>
    by_cases backward : edge.target = node <;>
    simp [forward, backward]

/-- Labels may be read before or after an edge is followed. -/
theorem readLabels_leaving_ofEdgeOnce
    (read : Label → Other)
    (directed : Bool)
    (edge : Edge)
    (label : Label)
    (node : String) :
    readLabels read (leaving (ofEdgeOnce directed edge label) node) =
      leaving (ofEdgeOnce directed edge (read label)) node := by
  rw [leaving_ofEdgeOnce, leaving_ofEdgeOnce]
  split
  · rfl
  · split <;> rfl

end Arc

namespace Graph

/-! ## Arcs in the order of the edges -/

variable
  {graph : Graph}

/-- The arcs of a graph with a label for each edge. -/
def labelledArcs
    (graph : Graph)
    (label : Edge → Label) :
    List (Arc Label) :=
  graph.edges.flatMap fun edge =>
    Arc.ofEdge graph.directed edge (label edge)

/-- The arcs of a graph with a label for each edge, and with loops only once. -/
def neighborArcs
    (graph : Graph)
    (label : Edge → Label) :
    List (Arc Label) :=
  graph.edges.flatMap fun edge =>
    Arc.ofEdgeOnce graph.directed edge (label edge)

/-- The arcs of a graph leave a node as its neighbors do, with loops doubled. -/
theorem leaving_labelledArcs
    (graph : Graph)
    (label : Edge → Label)
    (node : String) :
    Arc.leaving (graph.labelledArcs label) node =
      Arc.withLoopsTwice graph.directed node
        (Arc.leaving (graph.neighborArcs label) node) := by
  unfold labelledArcs neighborArcs
  rw [Arc.leaving_flatMap, Arc.leaving_flatMap, Arc.withLoopsTwice_flatMap]
  simp only [Arc.leaving_ofEdge]

/--
An edge makes its neighbors as it is followed once, with its effective attributes.
-/
theorem neighborAlong?_toList
    (graph : Graph)
    (node : String)
    (edge : Edge) :
    (graph.neighborAlong? node edge).toList =
      Arc.leaving
        (Arc.ofEdgeOnce graph.directed edge
          (graph.effectiveEdgeAttributes edge)) node := by
  rw [Arc.leaving_ofEdgeOnce]
  unfold neighborAlong?
  cases graph.directed <;>
    by_cases forward : edge.source = node <;>
    by_cases backward : edge.target = node <;>
    simp [forward, backward]

/-- The arcs in which loops come once lead from each node to its neighbours. -/
theorem leaving_neighborArcs
    (graph : Graph)
    (node : String) :
    Arc.leaving (graph.neighborArcs graph.effectiveEdgeAttributes) node =
      graph.neighbors node := by
  unfold neighborArcs neighbors
  rw [Arc.leaving_flatMap]
  induction graph.edges with
  | nil =>
      rfl
  | cons edge rest inductionHypothesis =>
      rw [List.flatMap_cons, inductionHypothesis, ← neighborAlong?_toList,
        List.filterMap_cons]
      cases graph.neighborAlong? node edge <;> rfl

/-- Labels may be read before or after the neighbors are listed. -/
theorem readLabels_leaving_neighborArcs
    (graph : Graph)
    (read : Label → Other)
    (label : Edge → Label)
    (node : String) :
    Arc.readLabels read (Arc.leaving (graph.neighborArcs label) node) =
      Arc.leaving (graph.neighborArcs fun edge => read (label edge)) node := by
  unfold neighborArcs
  rw [Arc.leaving_flatMap, Arc.leaving_flatMap, Arc.readLabels,
    List.map_flatMap]
  congr 1
  funext edge
  exact Arc.readLabels_leaving_ofEdgeOnce read graph.directed edge (label edge)
    node

/-- The edges from a node to itself. -/
def loopsAt
    (graph : Graph)
    (node : String) :
    List Edge :=
  graph.edges.filter fun edge => edge.source = node ∧ edge.target = node

/-- A node is listed among its own neighbours once for each of its loops. -/
theorem filter_neighbors
    (graph : Graph)
    (node : String) :
    (graph.neighbors node).filter (·.1 = node) =
      (graph.loopsAt node).map fun edge =>
        (node, graph.effectiveEdgeAttributes edge) := by
  unfold neighbors loopsAt
  induction graph.edges with
  | nil =>
      rfl
  | cons edge rest inductionHypothesis =>
      rw [List.filterMap_cons, List.filter_cons]
      unfold neighborAlong? at inductionHypothesis ⊢
      by_cases forward : edge.source = node <;>
        by_cases backward : edge.target = node <;>
        cases directed : graph.directed <;>
        simp [forward, backward, directed] at inductionHypothesis ⊢ <;>
        exact inductionHypothesis

/-! ## Explorations -/

/-- The unweighted arcs lead to the neighbors of a node, with loops doubled. -/
theorem leaving_arcs
    (graph : Graph)
    (node : String) :
    Arc.leaving graph.arcs node =
      Arc.withLoopsTwice graph.directed node
        (Arc.readLabels (fun _ => ()) (graph.neighbors node)) := by
  have unlabelled : graph.arcs = graph.labelledArcs fun _ => () := rfl
  rw [unlabelled, leaving_labelledArcs, ← leaving_neighborArcs,
    readLabels_leaving_neighborArcs]

/-- The explorations continue with the neighbors of a node, with loops doubled. -/
theorem successors_arcs_eq_neighbors
    (graph : Graph)
    (node : String) :
    Arc.successors graph.arcs node =
      (Arc.withLoopsTwice graph.directed node
        (graph.neighbors node)).map Prod.fst := by
  unfold Arc.successors
  rw [leaving_arcs, ← Arc.readLabels_withLoopsTwice, Arc.map_fst_readLabels]

/-- An exploration goes the same way when loops are followed only once. -/
theorem leadAlike_neighborArcs
    (graph : Graph) :
    LeadAlike (graph.neighborArcs graph.effectiveEdgeAttributes)
      graph.arcs := by
  intro node
  rw [leaving_arcs, leaving_neighborArcs, Arc.otherSteps_withLoopsTwice,
    Arc.otherSteps_readLabels, Arc.map_fst_readLabels]

/-! ## Shortest paths -/

variable [Weight Sum]

/-- The weight that attributes give an edge, unless it is rejected. -/
def weightIn?
    (attributes : Attributes) :
    Option Sum :=
  match attributes.get? weightKey with
  | none => some Weight.unit
  | some (.number number) => Weight.ofNumber? number
  | some (.word _) => none
  | some (.string _) => none

/-- The weight of an edge is the one its effective attributes state. -/
theorem weightIn?_of_weightOf
    {edge : Edge}
    {weight : Sum}
    (isWeight : weightOf graph edge = .ok weight) :
    weightIn? (graph.effectiveEdgeAttributes edge) = some weight := by
  unfold weightIn?
  rw [get?_effectiveEdgeAttributes]
  rcases weightOf_eq_ok_iff.mp isWeight with
    ⟨absent, rfl⟩ | ⟨number, stated, isWeight⟩
  · rw [absent]
  · rw [stated]
    exact isWeight

/-- The weight of an edge, where a weight that is rejected counts as unit. -/
def weightOrUnit
    (graph : Graph)
    (edge : Edge) :
    Sum :=
  (weightIn? (graph.effectiveEdgeAttributes edge)).getD Weight.unit

/--
The weights that were prepared are the ones the edges state, and the arcs are in
the order of the edges.
-/
theorem weighted_of_groups
    {edges : List Edge}
    {groups : List (List (Arc Sum))}
    (areGroups : edges.mapM (weightedArcsOf graph) = .ok groups) :
    (∀ edge ∈ edges,
      weightIn? (graph.effectiveEdgeAttributes edge) =
        some (graph.weightOrUnit edge : Sum)) ∧
    groups.flatten =
      edges.flatMap fun edge =>
        Arc.ofEdge graph.directed edge (graph.weightOrUnit edge) := by
  induction edges generalizing groups with
  | nil =>
      cases areGroups
      exact ⟨nofun, rfl⟩
  | cons edge rest inductionHypothesis =>
      rw [List.mapM_cons] at areGroups
      obtain ⟨group, ofEdge, areGroups⟩ := bind_eq_ok.mp areGroups
      obtain ⟨others, areOthers, areGroups⟩ := bind_eq_ok.mp areGroups
      obtain ⟨weight, isWeight, rfl⟩ := map_eq_ok.mp ofEdge
      obtain ⟨restWeigh, sameRest⟩ := inductionHypothesis areOthers
      cases areGroups
      have reads := weightIn?_of_weightOf isWeight
      have sameWeight : graph.weightOrUnit edge = weight := by
        rw [weightOrUnit, reads, Option.getD_some]
      constructor
      · rw [List.forall_mem_cons, sameWeight]
        exact ⟨reads, restWeigh⟩
      · rw [List.flatten_cons, List.flatMap_cons, sameRest, sameWeight]

variable {arcs : List (Arc Sum)}

/-- The prepared arcs are those of the edges with their weights. -/
theorem weightedArcs_eq_labelledArcs
    (prepared : weightedArcs graph = .ok arcs) :
    arcs = graph.labelledArcs graph.weightOrUnit := by
  obtain ⟨groups, areGroups, rfl⟩ := map_eq_ok.mp prepared
  exact (weighted_of_groups areGroups).2

/-- With loops listed once, a node has its neighbours with their weights. -/
theorem readLabels_leaving_weightOrUnit
    (prepared : weightedArcs graph = .ok arcs)
    (node : String) :
    Arc.readLabels some
        (Arc.leaving (graph.neighborArcs graph.weightOrUnit) node) =
      Arc.readLabels (weightIn? : Attributes → Option Sum)
        (graph.neighbors node) := by
  obtain ⟨groups, areGroups, _⟩ := map_eq_ok.mp prepared
  have sameArcs :
      (graph.neighborArcs fun edge => some (graph.weightOrUnit edge : Sum)) =
        graph.neighborArcs fun edge =>
          weightIn? (graph.effectiveEdgeAttributes edge) := by
    unfold neighborArcs
    refine List.flatMap_congr fun edge isEdge => ?_
    exact congrArg _ ((weighted_of_groups areGroups).1 edge isEdge).symm
  rw [readLabels_leaving_neighborArcs, sameArcs,
    ← readLabels_leaving_neighborArcs, leaving_neighborArcs]

/--
The weighted arcs lead to the neighbors of a node with the weights these have,
loops doubled.
-/
theorem readLabels_leaving_weightedArcs
    (prepared : weightedArcs graph = .ok arcs)
    (node : String) :
    Arc.readLabels some (Arc.leaving arcs node) =
      Arc.withLoopsTwice graph.directed node
        (Arc.readLabels weightIn? (graph.neighbors node)) := by
  rw [weightedArcs_eq_labelledArcs prepared, leaving_labelledArcs,
    Arc.readLabels_withLoopsTwice, readLabels_leaving_weightOrUnit prepared]

/-- A search weighs the same steps when loops are followed only once. -/
theorem weighAlike_neighborArcs
    (prepared : weightedArcs graph = .ok arcs) :
    WeighAlike (graph.neighborArcs graph.weightOrUnit) arcs := by
  intro node
  rw [weightedArcs_eq_labelledArcs prepared, leaving_labelledArcs,
    Arc.otherSteps_withLoopsTwice]

/--
The three tables of neighbours agree.

A node occurs among its own neighbours once for each of its loops. Explorations
and searches for shortest paths go from a node to just its neighbours, in the
same order and by the weights of the attributes that the neighbours come with,
except that without directions they go along each loop twice. They do the same
along arcs that lead from each node to its neighbours as these are listed.
-/
theorem neighbor_tables_agree
    (graph : Graph) :
    (∀ node,
      (graph.neighbors node).filter (·.1 = node) =
          (graph.loopsAt node).map fun edge =>
            (node, graph.effectiveEdgeAttributes edge)) ∧
    (∀ node,
      Arc.successors graph.arcs node =
        (Arc.withLoopsTwice graph.directed node
          (graph.neighbors node)).map Prod.fst) ∧
    (∃ once : List (Arc Attributes),
      (∀ node, Arc.leaving once node = graph.neighbors node) ∧
      ∀ discipline start,
        explore once discipline start =
          explore graph.arcs discipline start) ∧
    ∀ arcs : List (Arc Sum),
      weightedArcs graph = .ok arcs →
      (∀ node,
        Arc.readLabels some (Arc.leaving arcs node) =
          Arc.withLoopsTwice graph.directed node
            (Arc.readLabels weightIn? (graph.neighbors node))) ∧
      ∃ once : List (Arc Sum),
        (∀ node,
          Arc.readLabels some (Arc.leaving once node) =
            Arc.readLabels weightIn? (graph.neighbors node)) ∧
        ∀ start target search,
          shortestPaths graph start target = .ok search →
          searchAlong once graph start target = search := by
  refine ⟨graph.filter_neighbors, graph.successors_arcs_eq_neighbors,
    ⟨_, graph.leaving_neighborArcs, graph.leadAlike_neighborArcs.explore⟩, ?_⟩
  intro arcs prepared
  refine ⟨readLabels_leaving_weightedArcs prepared, _,
    readLabels_leaving_weightOrUnit prepared, ?_⟩
  intro start target search searched
  obtain ⟨_, _, _, others, preparedOthers, rfl⟩ :=
    shortestPaths_eq_ok_iff.mp searched
  exact (weighAlike_neighborArcs preparedOthers).searchAlong graph start target

/-- A node with a loop, and with two edges to the same neighbour. -/
theorem neighbor_tables_agree_of_parallel_edges :
    weightedArcs parallelEdges = .ok parallelArcs ∧
      (parallelEdges.neighbors "b").map Prod.fst = ["a", "a", "b", "c"] ∧
      Arc.successors parallelEdges.arcs "b" = ["a", "a", "b", "b", "c"] ∧
      Arc.readLabels some (Arc.leaving parallelArcs "b") =
        [("a", some 2.0), ("a", some 0.5), ("b", some 0.0), ("b", some 0.0),
          ("c", some 1.0)] := by
  have prepared : weightedArcs parallelEdges = .ok parallelArcs := rfl
  obtain ⟨_, explored, _, weighed⟩ :=
    @neighbor_tables_agree Float _ parallelEdges
  exact ⟨prepared, rfl, explored "b", (weighed parallelArcs prepared).1 "b"⟩

end Graph

end GraphScript
