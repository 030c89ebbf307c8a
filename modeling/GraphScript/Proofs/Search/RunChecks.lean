import GraphScript.Proofs.Model.Outcome
import GraphScript.Proofs.Search.ReachedDistances
import GraphScript.Search.Requirements

namespace GraphScript

/-!
# When runs are refused

Everything that can keep an algorithm from running is listed here in the order
in which it is looked for: the requirements of the algorithm, then the start,
and for shortest paths the target and the weights of all edges, whether a search
would come across them or not. A run fails with the first entry of this list.

Some of it is looked for twice, by the requirements and by the search itself. A
graph that meets the requirements never fails the second time.
-/

namespace Graph

/-- Why the weight that an edge states is refused, if it is. -/
def weightObstacle?
    (graph : Graph)
    (edge : Edge) :
    Option Search.Failure :=
  match graph.statedWeight? edge with
  | none =>
      none
  | some (.number number) =>
      if number < 0.0 then
        some (.negativeWeight edge.source edge.target number)
      else
        none
  | some _ =>
      some (.nonNumericWeight edge.source edge.target)

/-- Every weight that is stated is a number, and none is below zero. -/
def HasAcceptedWeights
    (graph : Graph) :
    Prop :=
  ∀ edge ∈ graph.edges, ∀ value, graph.statedWeight? edge = some value →
    ∃ number : Float, value = .number number ∧ ¬ number < 0.0

/--
An edge is no obstacle exactly if its weight, where it states one, is a number
that is not negative.
-/
theorem weightObstacle?_eq_none_iff
    {graph : Graph}
    {edge : Edge} :
    graph.weightObstacle? edge = none ↔
      ∀ value, graph.statedWeight? edge = some value →
        ∃ number : Float, value = .number number ∧ ¬ number < 0.0 := by
  unfold weightObstacle?
  cases graph.statedWeight? edge with
  | none =>
      simp
  | some value =>
      cases value <;> simp

/-- All weights of a graph are accepted exactly if no edge is an obstacle. -/
theorem hasAcceptedWeights_iff
    {graph : Graph} :
    graph.HasAcceptedWeights ↔
      graph.edges.filterMap graph.weightObstacle? = [] := by
  simp only [HasAcceptedWeights, List.filterMap_eq_nil_iff,
    weightObstacle?_eq_none_iff]

end Graph

namespace Search

/-! ## Obstacles -/

/-- A failure, unless a condition holds. -/
def failingUnless
    (condition : Bool)
    (failure : Failure) :
    List Failure :=
  if condition then [] else [failure]

/-- A condition that fails is reported as the one failure given for it. -/
theorem eq_of_mem_failingUnless
    {condition : Bool}
    {failure other : Failure}
    (member : other ∈ failingUnless condition failure) :
    other = failure := by
  cases condition with
  | true => cases member
  | false => exact List.mem_singleton.mp member

/-- Nothing fails exactly if the condition holds. -/
theorem failingUnless_eq_nil_iff
    {condition : Bool}
    {failure : Failure} :
    failingUnless condition failure = [] ↔ condition = true := by
  cases condition <;> simp [failingUnless]

namespace Requirements

/-- The failures of a graph that has too few or too many nodes. -/
def unmetSizes
    (requirements : Requirements)
    (found : Nat) :
    List Failure :=
  let least := requirements.leastNodes
  failingUnless (0 < found || least = 0) .emptyGraph ++
    failingUnless (least ≤ found)
      (.tooFewNodes requirements.algorithm least found) ++
    requirements.mostNodes.toList.flatMap fun most =>
      failingUnless (found ≤ most)
        (.tooManyNodes requirements.algorithm most found)

/-- The failure of a graph that has not the direction it needs. -/
def unmetDirections
    (requirements : Requirements)
    (directed : Bool) :
    List Failure :=
  failingUnless (directed || requirements.direction ≠ some .directed)
      (.requiresDirected requirements.algorithm) ++
    failingUnless (!directed || requirements.direction ≠ some .undirected)
      (.requiresUndirected requirements.algorithm)

/-- The failures for all requirements that a graph does not meet, in order. -/
def unmet
    (requirements : Requirements)
    (graph : Graph) :
    List Failure :=
  let states (edge : Edge) := (graph.statedWeight? edge).isSome
  requirements.unmetSizes graph.nodes.size ++
    requirements.unmetDirections graph.directed ++
    failingUnless (!requirements.weighted || graph.edges.any states)
      (.requiresWeighted requirements.algorithm) ++
    failingUnless (!requirements.connected || graph.isConnected)
      (.notConnected requirements.algorithm)

end Requirements

/-- What only a search for shortest paths needs, and does not find. -/
def Algorithm.missing
    (algorithm : Algorithm)
    (graph : Graph)
    (target : Option String) :
    List Failure :=
  match algorithm with
  | .breadthFirst | .depthFirst =>
      []
  | .dijkstra =>
      (target.toList.flatMap fun node =>
        failingUnless (graph.hasNode node) (.targetNotFound node)) ++
        graph.edges.filterMap graph.weightObstacle?

/-- What keeps an algorithm from running, in the order in which it is looked for. -/
def obstacles
    (algorithm : Algorithm)
    (graph : Graph)
    (start : String)
    (target : Option String) :
    List Failure :=
  algorithm.requirements.unmet graph ++
    (failingUnless (graph.hasNode start) (.startNotFound start) ++
      algorithm.missing graph target)

/-! ## Requirements -/

/-- A graph is weighted if some edge of it states a weight. -/
theorem isWeighted_eq
    (graph : Graph) :
    graph.isWeighted =
      graph.edges.any fun edge => (graph.statedWeight? edge).isSome := by
  unfold Graph.isWeighted Graph.statedWeight? NameMap.contains
  simp only [Option.isSome_or]
  cases graph.edges with
  | nil =>
      rfl
  | cons edge rest =>
      cases (graph.edgeDefaults.get? Graph.weightKey).isSome with
      | false =>
          simp
      | true =>
          simp

namespace Requirements

variable (requirements : Requirements) (graph : Graph)

/-- The check of the size fails with the first bound that is missed. -/
theorem failure?_checkSize
    (found : Nat) :
    failure? (requirements.checkSize found) =
      (requirements.unmetSizes found).head? := by
  unfold checkSize unmetSizes failingUnless
  by_cases isEmpty : found = 0 ∧ 0 < requirements.leastNodes
  · simp [isEmpty, Nat.ne_of_gt isEmpty.2, failure?]
  · rw [if_neg isEmpty]
    have notEmpty : 0 < found ∨ requirements.leastNodes = 0 := by omega
    by_cases tooFew : found < requirements.leastNodes
    · simp [notEmpty, tooFew, Nat.not_le.mpr tooFew, failure?]
    · have enough : requirements.leastNodes ≤ found := Nat.not_lt.mp tooFew
      cases requirements.mostNodes with
      | none =>
          simp [notEmpty, tooFew, enough, failure?]
      | some most =>
          by_cases tooMany : most < found
          · simp [notEmpty, tooFew, enough, tooMany, Nat.not_le.mpr tooMany,
              failure?]
          · simp [notEmpty, tooFew, enough, tooMany, Nat.not_lt.mp tooMany,
              failure?]

/--
The check of the direction fails exactly if the direction is not the one asked
for.
-/
theorem failure?_checkDirection
    (directed : Bool) :
    failure? (requirements.checkDirection directed) =
      (requirements.unmetDirections directed).head? := by
  unfold checkDirection unmetDirections failingUnless
  rcases requirements.direction with _ | _ | _ <;> cases directed <;>
    simp [failure?]

/-- A check fails with the first requirement that is not met. -/
theorem failure?_check :
    failure? (requirements.check graph) =
      (requirements.unmet graph).head? := by
  rw [unmet, List.head?_append, List.head?_append, List.head?_append,
    ← failure?_checkSize, ← failure?_checkDirection, ← isWeighted_eq, check]
  cases requirements.checkSize graph.nodes.size with
  | error error => rfl
  | ok =>
      cases requirements.checkDirection graph.directed with
      | error error => rfl
      | ok =>
          cases requirements.weighted <;> cases graph.isWeighted <;>
            cases requirements.connected <;> cases graph.isConnected <;> rfl

/-- The check passes exactly if nothing required is unmet. -/
theorem check_eq_ok_iff
    {requirements : Requirements}
    {graph : Graph} :
    requirements.check graph = .ok () ↔ requirements.unmet graph = [] := by
  rw [← List.head?_eq_none_iff, ← failure?_check, failure?_eq_none_iff]
  exact ⟨fun met => ⟨(), met⟩, fun ⟨_, met⟩ => met⟩

/-- A graph that passes the check has as many nodes as required. -/
theorem leastNodes_le_of_check
    {requirements : Requirements}
    {graph : Graph}
    (met : requirements.check graph = .ok ()) :
    requirements.leastNodes ≤ graph.nodes.size := by
  rw [check_eq_ok_iff] at met
  simp only [unmet, unmetSizes, List.append_eq_nil_iff,
    failingUnless_eq_nil_iff, decide_eq_true_eq] at met
  exact met.1.1.1.1.2

end Requirements

/-! ## Searches -/

/-- Reading the weight of an edge fails exactly with its obstacle. -/
theorem failure?_weightOf
    (graph : Graph)
    (edge : Edge) :
    failure? (weightOf graph edge : Except Failure Float) =
      graph.weightObstacle? edge := by
  unfold weightOf Graph.weightObstacle?
  rw [Graph.get?_effectiveEdgeAttributes]
  cases graph.statedWeight? edge with
  | none =>
      rfl
  | some value =>
      cases value with
      | number number =>
          have read :
              (Weight.ofNumber? number : Option Float) =
                if number < 0.0 then none else some number :=
            rfl
          by_cases below : number < 0.0 <;> simp [read, below, failure?]
      | word name =>
          rfl
      | string contents =>
          rfl

/-- The arcs cannot be prepared because of the first weight that is refused. -/
theorem failure?_weightedArcs
    (graph : Graph) :
    failure? (weightedArcs graph : Except Failure (List (Arc Float))) =
      (graph.edges.filterMap graph.weightObstacle?).head? := by
  unfold weightedArcs weightedArcsOf
  rw [failure?_map, failure?_mapM]
  simp only [failure?_map, failure?_weightOf]

/-- A traversal of a graph with nodes fails only where its start is missing. -/
theorem failure?_traverse
    (discipline : Discipline)
    {graph : Graph}
    (nonempty : 0 < graph.nodes.size)
    (start : String) :
    failure? (traverse discipline graph start) =
      (failingUnless (graph.hasNode start) (.startNotFound start)).head? := by
  have notEmpty : graph.nodes.isEmpty = false := by
    simpa [NameMap.isEmpty] using List.ne_nil_of_length_pos nonempty
  unfold traverse failingUnless
  cases graph.hasNode start <;> simp [notEmpty, failure?]

/--
The search for shortest paths fails where a node is missing, its start before its
target, or else at the first weight that is not accepted.
-/
theorem failure?_dijkstra
    {graph : Graph}
    (enough : 2 ≤ graph.nodes.size)
    (start : String)
    (target : Option String) :
    failure? (dijkstra graph start target) =
      (failingUnless (graph.hasNode start) (.startNotFound start) ++
        Algorithm.dijkstra.missing graph target).head? := by
  unfold dijkstra shortestPaths Algorithm.missing
  rw [failure?_map, if_neg (Nat.not_lt.mpr enough), List.head?_append,
    List.head?_append, ← failure?_weightedArcs]
  cases isStart : graph.hasNode start with
  | false =>
      rfl
  | true =>
      cases target with
      | none =>
          simp [failingUnless, failure?_map]
      | some node =>
          cases isTarget : graph.hasNode node with
          | false =>
              simp [failingUnless, isTarget, Option.filter, failure?]
          | true =>
              simp [failingUnless, isTarget, Option.filter, failure?_map]

/-- A run fails with the first of its obstacles. -/
theorem failure?_run
    (algorithm : Algorithm)
    (graph : Graph)
    (start : String)
    (target : Option String) :
    failure? (algorithm.run graph start target) =
      (obstacles algorithm graph start target).head? := by
  unfold Algorithm.run
  rw [obstacles, List.head?_append, ← Requirements.failure?_check]
  cases checked : algorithm.requirements.check graph with
  | error failure =>
      rfl
  | ok =>
      have enough := Requirements.leastNodes_le_of_check checked
      rw [failure?, Option.none_or]
      cases algorithm with
      | breadthFirst =>
          rw [Algorithm.missing, List.append_nil]
          exact failure?_traverse .queue enough start
      | depthFirst =>
          rw [Algorithm.missing, List.append_nil]
          exact failure?_traverse .stack enough start
      | dijkstra =>
          exact failure?_dijkstra enough start target

/-! ## Names -/

namespace Algorithm

/-- A name in small letters is the short or the long name of an algorithm. -/
def IsNamed
    (algorithm : Algorithm)
    (name : String) :
    Prop :=
  algorithm.text = String.ofList (name.toList.map Char.toLower) ∨
    algorithm.longText = String.ofList (name.toList.map Char.toLower)

/-- Algorithms are found under their names, and under no others. -/
theorem ofName?_eq_some_iff
    {algorithm : Algorithm}
    {name : String} :
    ofName? name = some algorithm ↔ algorithm.IsNamed name := by
  unfold ofName?
  constructor
  · intro found
    simpa [IsNamed] using List.find?_some found
  · rintro (isShort | isLong)
    · rw [← isShort]
      cases algorithm <;> decide
    · rw [← isLong]
      cases algorithm <;> decide

end Algorithm

/-- A graph is checked alike under all names of an algorithm. -/
theorem validate_of_isNamed
    {algorithm : Algorithm}
    {name : String}
    (named : algorithm.IsNamed name)
    (graph : Graph) :
    validate name graph = algorithm.requirements.check graph := by
  rw [validate, Algorithm.ofName?_eq_some_iff.mpr named]

/-- A name that is not one of an algorithm is reported as unknown. -/
theorem validate_of_not_isNamed
    {name : String}
    (unnamed : ∀ algorithm : Algorithm, ¬ algorithm.IsNamed name)
    (graph : Graph) :
    validate name graph = .error (.unknownAlgorithm name) := by
  have unknown : Algorithm.ofName? name = none := by
    rw [Option.eq_none_iff_forall_ne_some]
    intro algorithm found
    exact unnamed algorithm (Algorithm.ofName?_eq_some_iff.mp found)
  rw [validate, unknown]

/-- The verdict on a graph is what the check of an algorithm says. -/
theorem verdicts_eq
    (graph : Graph) :
    verdicts graph =
      Algorithm.all.map fun algorithm =>
        (algorithm,
          { requirements := algorithm.requirements
            failure := failure? (algorithm.requirements.check graph) }) := by
  unfold verdicts
  congr
  funext algorithm
  cases checked : algorithm.requirements.check graph <;>
    simp [checked, failure?]

/-- A verdict is the outcome of a check. -/
structure Suitability.Reports
    (suitability : Suitability)
    (requirements : Requirements)
    (graph : Graph) :
    Prop where
  isAbout : suitability.requirements = requirements
  valid : suitability.isValid = true ↔ requirements.check graph = .ok ()
  fails :
    ∀ failure,
      suitability.failure = some failure ↔
        requirements.check graph = .error failure

/-- Each verdict reports what its algorithm requires of the graph. -/
theorem reports_of_mem_verdicts
    {graph : Graph}
    {algorithm : Algorithm}
    {suitability : Suitability}
    (isVerdict : (algorithm, suitability) ∈ verdicts graph) :
    suitability.Reports algorithm.requirements graph := by
  rw [verdicts_eq, List.mem_map] at isVerdict
  obtain ⟨_, _, same⟩ := isVerdict
  cases same
  refine ⟨rfl, ?_, fun _ => failure?_eq_some_iff⟩
  rw [Suitability.isValid, Option.isNone_iff_eq_none, failure?_eq_none_iff]
  exact ⟨fun ⟨_, met⟩ => met, fun met => ⟨(), met⟩⟩

/-! ## Runs -/

/-- Whether a failure is that of a requirement. -/
def Failure.isUnmet :
    Failure →
    Bool
  | .emptyGraph => true
  | .tooFewNodes .. => true
  | .tooManyNodes .. => true
  | .requiresDirected _ => true
  | .requiresUndirected _ => true
  | .requiresWeighted _ => true
  | .notConnected _ => true
  | .startNotFound _ => false
  | .targetNotFound _ => false
  | .negativeWeight .. => false
  | .nonNumericWeight .. => false
  | .unknownAlgorithm _ => false
  | .unknownGraph _ => false
  | .missingGraph => false
  | .badArgument .. => false

/-- A weight that is not accepted is not an unmet requirement. -/
theorem isUnmet_of_weightObstacle?
    {graph : Graph}
    {edge : Edge}
    {failure : Failure}
    (refused : graph.weightObstacle? edge = some failure) :
    failure.isUnmet = false := by
  unfold Graph.weightObstacle? at refused
  split at refused
  · cases refused
  · split at refused
    · cases refused
      rfl
    · cases refused
  · cases refused
    rfl

/--
A run succeeds exactly if the requirements are met, the nodes it is given exist
and, for shortest paths, all weights are accepted.
-/
theorem exists_run_iff
    (algorithm : Algorithm)
    (graph : Graph)
    (start : String)
    (target : Option String) :
    (∃ run, algorithm.run graph start target = .ok run) ↔
      algorithm.requirements.check graph = .ok () ∧
      graph.hasNode start = true ∧
      (algorithm = .dijkstra →
        (∀ node, target = some node → graph.hasNode node = true) ∧
        graph.HasAcceptedWeights) := by
  rw [← failure?_eq_none_iff, failure?_run, List.head?_eq_none_iff, obstacles,
    List.append_eq_nil_iff, List.append_eq_nil_iff, failingUnless_eq_nil_iff,
    ← Requirements.check_eq_ok_iff]
  refine and_congr_right fun _ => and_congr_right fun _ => ?_
  cases algorithm with
  | breadthFirst =>
      simp [Algorithm.missing]
  | depthFirst =>
      simp [Algorithm.missing]
  | dijkstra =>
      simp [Algorithm.missing, Graph.hasAcceptedWeights_iff,
        failingUnless_eq_nil_iff]

/-- A missing node or a refused weight is not an unmet requirement. -/
theorem isUnmet_of_mem_missing
    {algorithm : Algorithm}
    {graph : Graph}
    {target : Option String}
    {failure : Failure}
    (isMissing : failure ∈ algorithm.missing graph target) :
    failure.isUnmet = false := by
  cases algorithm with
  | breadthFirst =>
      cases isMissing
  | depthFirst =>
      cases isMissing
  | dijkstra =>
      rcases List.mem_append.mp isMissing with noTarget | refused
      · obtain ⟨node, _, isFailure⟩ := List.mem_flatMap.mp noTarget
        rw [eq_of_mem_failingUnless isFailure]
        rfl
      · obtain ⟨edge, _, isFailure⟩ := List.mem_filterMap.mp refused
        exact isUnmet_of_weightObstacle? isFailure

/-- Where the requirements are met, no run fails with one of them. -/
theorem isUnmet_of_run
    {algorithm : Algorithm}
    {graph : Graph}
    {start : String}
    {target : Option String}
    {failure : Failure}
    (met : algorithm.requirements.check graph = .ok ())
    (fails : algorithm.run graph start target = .error failure) :
    failure.isUnmet = false := by
  rw [← failure?_eq_some_iff, failure?_run, obstacles,
    Requirements.check_eq_ok_iff.mp met, List.nil_append] at fails
  rcases List.mem_append.mp (List.mem_of_head? fails) with noStart | missing
  · rw [eq_of_mem_failingUnless noStart]
    rfl
  · exact isUnmet_of_mem_missing missing

/--
A run succeeds where nothing keeps it from running, and otherwise fails with the
first of what does. Checks under any name and verdicts agree on the requirements,
and where these are met, no run fails with one of them.
-/
theorem run_fails_with_first_obstacle
    (algorithm : Algorithm)
    (graph : Graph) :
    (∀ start target,
      ((∃ run, algorithm.run graph start target = .ok run) ↔
        algorithm.requirements.check graph = .ok () ∧
        graph.hasNode start = true ∧
        (algorithm = .dijkstra →
          (∀ node, target = some node → graph.hasNode node = true) ∧
          graph.HasAcceptedWeights)) ∧
      ∀ failure,
        algorithm.run graph start target = .error failure ↔
          (obstacles algorithm graph start target).head? = some failure) ∧
    (∀ failure,
      algorithm.requirements.check graph = .error failure ↔
        (algorithm.requirements.unmet graph).head? = some failure) ∧
    (∀ name,
      algorithm.IsNamed name →
        validate name graph = algorithm.requirements.check graph) ∧
    (∀ name,
      (∀ other : Algorithm, ¬ other.IsNamed name) →
        validate name graph = .error (.unknownAlgorithm name)) ∧
    (verdicts graph).map Prod.fst = [.breadthFirst, .depthFirst, .dijkstra] ∧
    (∀ suitability,
      (algorithm, suitability) ∈ verdicts graph →
        suitability.Reports algorithm.requirements graph) ∧
    (algorithm.requirements.check graph = .ok () →
      ∀ start target failure,
        algorithm.run graph start target = .error failure →
          failure.isUnmet = false) := by
  refine ⟨?_, ?_, fun name named => validate_of_isNamed named graph,
    fun name unnamed => validate_of_not_isNamed unnamed graph, rfl,
    fun suitability => reports_of_mem_verdicts,
    fun met start target failure => isUnmet_of_run met⟩
  · intro start target
    refine ⟨exists_run_iff algorithm graph start target, fun failure => ?_⟩
    rw [← failure?_eq_some_iff, failure?_run]
  · intro failure
    rw [← failure?_eq_some_iff, Requirements.failure?_check]

/-- A graph with a weight below zero and a word for a weight, away from its start. -/
def refusedWeights :
    Graph :=
  let weighing (value : Scalar) : Attributes :=
    NameMap.ofList [(Graph.weightKey, value)]
  let edges :=
    [("a", "b", weighing (.number 1.0)), ("c", "d", weighing (.number (-2.0))),
      ("d", "c", weighing (.word "far"))]
  let nodes := ["a", "b", "c", "d"].foldl Graph.mention (.empty "g" true)
  edges.foldl
    (fun graph (source, target, attributes) =>
      graph.appendEdge (.between source .forward target attributes))
    nodes

/-- The first weight that is refused is reported, although it is never reached. -/
theorem run_fails_with_first_obstacle_of_refused_weights :
    Algorithm.dijkstra.IsNamed "Shortest_Path" ∧
      validate "Shortest_Path" refusedWeights = .ok () ∧
      Algorithm.dijkstra.run refusedWeights "a" none =
        .error (.negativeWeight "c" "d" (-2.0)) ∧
      (Failure.negativeWeight "c" "d" (-2.0)).isUnmet = false := by
  have named : Algorithm.dijkstra.IsNamed "Shortest_Path" :=
    .inr (by decide)
  have met :
      Algorithm.dijkstra.requirements.check refusedWeights = .ok () :=
    rfl
  obtain ⟨runs, _, validates, _, _, _, neverUnmet⟩ :=
    run_fails_with_first_obstacle .dijkstra refusedWeights
  have fails :
      Algorithm.dijkstra.run refusedWeights "a" none =
        .error (.negativeWeight "c" "d" (-2.0)) :=
    ((runs "a" none).2 _).mpr rfl
  exact ⟨named, (validates _ named).trans met, fails,
    neverUnmet met "a" none _ fails⟩

end Search

end GraphScript
