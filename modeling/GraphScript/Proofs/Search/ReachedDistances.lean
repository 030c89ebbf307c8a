import GraphScript.Proofs.Search.BreadthFirst
import GraphScript.Proofs.Search.InertArcs
import GraphScript.Proofs.Search.ShortestDistances

namespace GraphScript

/-!
# Reached distances

A search for shortest paths has a distance for a node if the weights of some
walk to it have a finite sum. A breadth-first traversal visits a node if there
is a walk to it at all. The two differ where all sums to a node are too great
for a floating-point number.

The weights that a search accepts are those that are not below zero. Among them
are numbers without a value, which neither add up with others nor compare with
them; edges with such weights are inert.
-/

namespace Search

open Float.Model

/-! ## Numbers without a value -/

/-- A number is the result of an operation that has none. -/
def HasNoValue
    (number : Float) :
    Prop :=
  number.toModel.unpack = .notANumber

/-- A number is not below zero, and has a value. -/
def isLength
    (number : Float) :
    Bool :=
  decide (0.0 ≤ number)

variable {left right number : Float} {numbers : List Float}

theorem HasNoValue.not_isFinite
    (hasNoValue : HasNoValue number) :
    number.isFinite = false := by
  change number.toModel.unpack.isFinite = false
  rw [hasNoValue]
  rfl

theorem HasNoValue.add_left
    (hasNoValue : HasNoValue left)
    (right : Float) :
    HasNoValue (left + right) := by
  have added :
      UnpackedFloat.add Format.binary64 .notANumber right.toModel.unpack =
        .notANumber := by
    cases right.toModel.unpack <;> rfl
  rw [HasNoValue, unpack_add, hasNoValue, added]
  rfl

theorem HasNoValue.add_right
    (hasNoValue : HasNoValue right)
    (left : Float) :
    HasNoValue (left + right) := by
  have added :
      UnpackedFloat.add Format.binary64 left.toModel.unpack .notANumber =
        .notANumber := by
    cases left.toModel.unpack <;> rfl
  rw [HasNoValue, unpack_add, hasNoValue, added]
  rfl

theorem HasNoValue.inert
    (hasNoValue : HasNoValue number) :
    Inert number := by
  intro distance
  have notFinite := (hasNoValue.add_right distance).not_isFinite
  exact if_neg (ne_true_of_eq_false notFinite)

/-- A sum has no value if one of its numbers has none. -/
theorem HasNoValue.plainSum
    (hasNoValue : HasNoValue number)
    (member : number ∈ numbers) :
    HasNoValue (plainSum numbers) := by
  induction numbers using List.reverseRecOn with
  | nil =>
      cases member
  | append_singleton earlier last inductionHypothesis =>
      rw [plainSum_append_singleton]
      rcases List.mem_append.mp member with isEarlier | isLast
      · exact (inductionHypothesis isEarlier).add_left last
      · cases List.mem_singleton.mp isLast
        exact hasNoValue.add_right _

/-- A number that is not below zero is a length, or has no value. -/
theorem hasNoValue_of_not_isLength
    (notBelow : ¬ number < 0.0)
    (notLength : isLength number = false) :
    HasNoValue number := by
  change ¬ decide (number.toModel < (0.0 : Float).toModel) = true at notBelow
  change decide (decide ((0.0 : Float).toModel ≤ number.toModel) = true) = false
    at notLength
  rw [decide_eq_true_iff] at notBelow
  rw [decide_eq_false_iff_not, decide_eq_true_iff] at notLength
  change
    ¬ (number.toModel.unpack.compare (.zero .positive) == some .lt) = true
      at notBelow
  change
    ¬ ((UnpackedFloat.compare (.zero .positive) number.toModel.unpack).any
      (·.isLE)) = true at notLength
  unfold HasNoValue
  cases unpacked : number.toModel.unpack with
  | notANumber =>
      rfl
  | infinity sign =>
      rw [unpacked] at notBelow notLength
      cases sign with
      | positive => exact absurd rfl notLength
      | negative => exact absurd rfl notBelow
  | zero sign =>
      rw [unpacked] at notLength
      exact absurd rfl notLength
  | finite sign significand exponent positive =>
      rw [unpacked] at notBelow notLength
      cases sign with
      | positive => exact absurd rfl notLength
      | negative => exact absurd rfl notBelow

/-! ## Accepted weights -/

variable {graph : Graph} {start node : String} {arcs : List (Arc Float)}

theorem ofNumber?_eq_some_iff
    {weight : Float} :
    Weight.ofNumber? number = some weight ↔
      ¬ number < 0.0 ∧ number = weight := by
  change (if number < 0.0 then none else some number) = some weight ↔ _
  by_cases below : number < 0.0
  · simp [below]
  · simp [below]

theorem not_below_of_weighs
    {edge : Edge}
    {weight : Float}
    (weighs : graph.Weighs edge weight) :
    ¬ weight < 0.0 := by
  rcases weighs with ⟨_, rfl⟩ | ⟨number, _, read⟩
  · decide
  · obtain ⟨notBelow, rfl⟩ := ofNumber?_eq_some_iff.mp read
    exact notBelow

/-- All weights that a search accepts are lengths, or else they are inert. -/
theorem othersInert_of_prepared
    (prepared : weightedArcs graph = .ok arcs) :
    OthersInert isLength arcs := by
  intro arc isArc notLength
  obtain ⟨edge, _, _, weighs⟩ := (mem_weightedArcs_iff prepared).mp isArc
  have hasNoValue : HasNoValue arc.label :=
    hasNoValue_of_not_isLength (not_below_of_weighs weighs) notLength
  exact hasNoValue.inert

/-- The edges that are left have valid weights. -/
theorem hasValidWeights_keeping
    (prepared : weightedArcs graph = .ok arcs) :
    (graph.keeping isLength).HasValidWeights := by
  intro edge isEdge value stated
  obtain ⟨isEdge, isKept⟩ := List.mem_filter.mp isEdge
  obtain ⟨weight, weighs⟩ := Graph.exists_weighs_of_prepared prepared isEdge
  rw [Graph.keepsEdge_eq weighs] at isKept
  rcases weighs with ⟨unstated, _⟩ | ⟨number, isStated, read⟩
  · cases unstated.symm.trans stated
  · cases isStated.symm.trans stated
    obtain ⟨_, rfl⟩ := ofNumber?_eq_some_iff.mp read
    exact ⟨number, rfl, of_decide_eq_true isKept⟩

theorem not_below_of_walk
    {walked : List Float}
    (walk : graph.Walk start node walked) :
    ∀ weight ∈ walked, ¬ weight < 0.0 := by
  induction walk with
  | here =>
      nofun
  | along _ joins inductionHypothesis =>
      intro weight member
      rcases List.mem_append.mp member with isEarlier | isLast
      · exact inductionHypothesis weight isEarlier
      · cases List.mem_singleton.mp isLast
        obtain ⟨edge, _, _, weighs⟩ := joins
        exact not_below_of_weighs weighs

/-- Only walks without inert edges have finite sums. -/
theorem walk_keeping_of_isFinite
    {walked : List Float}
    (finite : (plainSum walked).isFinite = true)
    (walk : graph.Walk start node walked) :
    (graph.keeping isLength).Walk start node walked := by
  refine Graph.walk_keeping_iff.mpr ⟨walk, ?_⟩
  intro weight member
  apply Bool.of_not_eq_false
  intro notLength
  have hasNoValue : HasNoValue weight :=
    hasNoValue_of_not_isLength (not_below_of_walk walk weight member) notLength
  exact ne_true_of_eq_false (hasNoValue.plainSum member).not_isFinite finite

end Search

/-- The weights of some walk from one node to another have a finite sum. -/
def Graph.ReachesFinitely
    (graph : Graph)
    (start node : String) :
    Prop :=
  ∃ walked : List Float,
    graph.Walk start node walked ∧ (Search.plainSum walked).isFinite = true

namespace Search

variable {graph : Graph} {start node : String} {arcs : List (Arc Float)}

/-- Walks with finite sums are those that have sums without inert edges. -/
theorem reachesFinitely_iff
    (prepared : weightedArcs graph = .ok arcs) :
    graph.ReachesFinitely start node ↔
      ∃ sum : Float, (graph.keeping isLength).WalkSum start node sum := by
  simp only [walkSum_iff_plainSum (hasValidWeights_keeping prepared)]
  constructor
  · rintro ⟨walked, walk, finite⟩
    exact ⟨_, walked, walk_keeping_of_isFinite finite walk, rfl, finite⟩
  · rintro ⟨_, walked, walk, rfl, finite⟩
    exact ⟨walked, (Graph.walk_keeping_iff.mp walk).1, finite⟩

/-! ## Searches that succeed -/

section Searching

variable {Sum : Type} [Weight Sum]

/-- A node has a distance if a walk to it has a sum. -/
theorem exists_distance_iff
    {distances : NameMap (Option Sum)}
    (closed : graph.Closed)
    (startIsNode : graph.hasNode start = true)
    (hasLeast : graph.HasLeastSums start distances) :
    (∃ distance, distances.get? node = some (some distance)) ↔
      ∃ sum : Sum, graph.WalkSum start node sum := by
  constructor
  · rintro ⟨distance, held⟩
    exact ⟨distance, (hasLeast.least node (some distance) held).1⟩
  · rintro ⟨sum, walk⟩
    have isNode : node ∈ graph.nodeNames := by
      cases walk with
      | here => exact Graph.hasNode_iff.mp startIsNode
      | along _ joins _ => exact closed.mem_nodeNames_of_joins joins
    obtain ⟨least, held, _⟩ := hasLeast.exists_least isNode walk
    exact ⟨least, held⟩

end Searching

/-- A search that succeeds finds the least sums without inert edges. -/
theorem hasLeastSums_keeping
    {search : ShortestPaths Float}
    (closed : graph.Closed)
    (succeeds : shortestPaths graph start none = .ok search) :
    (graph.keeping isLength).HasLeastSums start search.final.distances := by
  obtain ⟨enough, startIsNode, _, arcs, prepared, rfl⟩ :=
    shortestPaths_eq_ok_iff.mp succeeds
  have found :
      ∃ other : ShortestPaths Float,
        shortestPaths (graph.keeping isLength) start none = .ok other ∧
        (graph.keeping isLength).HasLeastSums start other.final.distances :=
    exists_leastSums (closed.keeping isLength)
      (hasValidWeights_keeping prepared) enough startIsNode
  obtain ⟨other, searched, hasLeast⟩ := found
  obtain ⟨_, _, _, otherArcs, areOthers, rfl⟩ :=
    shortestPaths_eq_ok_iff.mp searched
  cases (Graph.weightedArcs_keeping prepared).symm.trans areOthers
  have same :
      searchAlong (keptArcs isLength arcs) graph start none =
        searchAlong arcs graph start none := by
    unfold searchAlong
    simp only [settleFrom_keptArcs (othersInert_of_prepared prepared)]
  exact same ▸ hasLeast

/-- Every node that is reached is at the end of a walk along weights. -/
theorem reaches_iff_exists_walk
    (prepared : weightedArcs graph = .ok arcs) :
    graph.Reaches start node ↔
      ∃ walked : List Float, graph.Walk start node walked := by
  constructor
  · intro reached
    induction reached with
    | refl =>
        exact ⟨[], .here⟩
    | tail _ adjoins inductionHypothesis =>
        obtain ⟨walked, walk⟩ := inductionHypothesis
        obtain ⟨edge, isEdge, leads⟩ := adjoins
        obtain ⟨weight, weighs⟩ :=
          Graph.exists_weighs_of_prepared prepared isEdge
        exact ⟨_, walk.along ⟨edge, isEdge, leads, weighs⟩⟩
  · rintro ⟨walked, walk⟩
    induction walk with
    | here =>
        exact .refl
    | along _ joins inductionHypothesis =>
        obtain ⟨edge, isEdge, leads, _⟩ := joins
        exact inductionHypothesis.tail ⟨edge, isEdge, leads⟩

/-- A run that succeeds reports the distances at the end of a search. -/
theorem exists_search_of_dijkstra
    {run : Run}
    (runs : dijkstra graph start none = .ok run) :
    ∃ search : ShortestPaths Float,
      shortestPaths graph start none = .ok search ∧
      run.finding = .shortestPath search.final.distances [] none ∧
      run.steps.getLast?.bind (·.distances) = some search.final.distances := by
  obtain ⟨search, succeeds, rfl⟩ := map_eq_ok.mp runs
  exact ⟨search, succeeds, rfl,
    congrArg (Option.bind · Step.distances) List.getLast?_concat⟩

/--
A search without a target has a distance for a node if the weights of a walk to
it have a finite sum. A traversal visits the node if there is a walk at all.

So both find the same nodes just where all visited nodes have a finite sum.
-/
theorem dijkstra_reaches_by_finite_sums
    (graph : Graph)
    (start : String)
    {run : Run}
    (closed : graph.Closed)
    (runs : dijkstra graph start none = .ok run) :
    ∃ distances traversal order,
      run.finding = .shortestPath distances [] none ∧
      run.steps.getLast?.bind (·.distances) = some distances ∧
      distances.keys = graph.nodeNames ∧
      traverse .queue graph start = .ok traversal ∧
      traversal.finding = .traversal order ∧
      (∀ node,
        (∃ distance, distances.get? node = some (some distance)) ↔
          graph.ReachesFinitely start node) ∧
      (∀ node,
        node ∈ order ↔ ∃ walked : List Float, graph.Walk start node walked) ∧
      ((∀ node,
          (∃ distance, distances.get? node = some (some distance)) ↔
            node ∈ order) ↔
        ∀ node ∈ order, graph.ReachesFinitely start node) := by
  obtain ⟨search, succeeds, finds, reports⟩ := exists_search_of_dijkstra runs
  obtain ⟨_, startIsNode, _, arcs, prepared, _⟩ :=
    shortestPaths_eq_ok_iff.mp succeeds
  obtain ⟨traversal, traverses, findsOrder⟩ :=
    traverse_of_hasNode .queue startIsNode
  have hasLeast := hasLeastSums_keeping closed succeeds
  have hasDistance :
      ∀ node,
        (∃ distance, search.final.distances.get? node = some (some distance)) ↔
          graph.ReachesFinitely start node := by
    intro node
    rw [reachesFinitely_iff prepared]
    exact exists_distance_iff (closed.keeping isLength) startIsNode hasLeast
  have isVisited :
      ∀ node,
        node ∈ visitOrder graph.arcs .queue start ↔
          ∃ walked : List Float, graph.Walk start node walked := by
    intro node
    rw [mem_visitOrder_iff, reaches_iff_exists_walk prepared]
  refine ⟨search.final.distances, traversal, _, finds, reports, hasLeast.nodes,
    traverses, findsOrder, hasDistance, isVisited, ?_⟩
  constructor
  · intro agree node visited
    exact (hasDistance node).mp ((agree node).mpr visited)
  · intro allFinite node
    rw [hasDistance]
    refine ⟨?_, allFinite node⟩
    rintro ⟨walked, walk, _⟩
    exact (isVisited node).mpr ⟨walked, walk⟩

/-- More than half of the greatest number there is. -/
def greatWeight :
    Float :=
  Float.ofBits 0x7FE1CCF385EBC8A0

/-- A chain of edges whose weights have no finite sum. -/
def greatWeights :
    Graph :=
  let weighing : Attributes :=
    NameMap.ofList [(Graph.weightKey, .number greatWeight)]
  let nodes := ["a", "b", "c"].foldl Graph.mention (.empty "g" true)
  [("a", "b"), ("b", "c")].foldl
    (fun graph (left, right) =>
      graph.appendEdge (.between left .forward right weighing))
    nodes

/-- The last node of the chain is visited, but no distance is found for it. -/
theorem greatWeights_searched :
    ∃ search : ShortestPaths Float,
      shortestPaths greatWeights "a" none = .ok search ∧
      search.final.distances.entries =
        [("a", some 0.0), ("b", some greatWeight), ("c", none)] := by
  let arcs : List (Arc Float) :=
    [⟨"a", "b", greatWeight⟩, ⟨"b", "c", greatWeight⟩]
  let atStart : Tentative Float := Tentative.atStart ["a", "b", "c"] "a"
  let afterA := settle arcs ["a", "b", "c"] atStart "a" 0.0
  let afterB := settle arcs ["b", "c"] afterA "b" greatWeight
  have nearestFirst : atStart.nearest? ["a", "b", "c"] = some ("a", 0.0) := rfl
  have nearestSecond :
      afterA.nearest? ["b", "c"] = some ("b", greatWeight) :=
    rfl
  have settles :
      (settleFrom arcs none ["a", "b", "c"] [] atStart).2 = afterB :=
    calc
      (settleFrom arcs none ["a", "b", "c"] [] atStart).2 =
          (settleFrom arcs none ["b", "c"] ["a"] afterA).2 :=
        settleFrom_of_other nearestFirst (by nofun)
      _ = (settleFrom arcs none ["c"] ["a", "b"] afterB).2 :=
        settleFrom_of_other nearestSecond (by nofun)
      _ = afterB :=
        settleFrom_of_none rfl
  refine
    ⟨{ initial := atStart
       settled := (settleFrom arcs none ["a", "b", "c"] [] atStart).1
       final := (settleFrom arcs none ["a", "b", "c"] [] atStart).2 },
      rfl, ?_⟩
  rw [settles]
  rfl

theorem dijkstra_reaches_by_finite_sums_of_great_weights :
    greatWeights.Closed ∧
      ∃ run distances traversal,
        dijkstra greatWeights "a" none = .ok run ∧
        run.finding = .shortestPath distances [] none ∧
        distances.entries =
          [("a", some 0.0), ("b", some greatWeight), ("c", none)] ∧
        traverse .queue greatWeights "a" = .ok traversal ∧
        traversal.finding = .traversal ["a", "b", "c"] ∧
        ¬ greatWeights.ReachesFinitely "a" "c" := by
  have closed : greatWeights.Closed := by
    unfold Graph.Closed
    decide
  have isOrder :
      visitOrder greatWeights.arcs .queue "a" = ["a", "b", "c"] := by
    have isEmpty : greatWeights.level "a" 3 = [] := by decide
    rw [visitOrder_eq_levels isEmpty]
    decide
  obtain ⟨search, searched, entries⟩ := greatWeights_searched
  obtain ⟨run, runs, finds⟩ := dijkstra_of_shortestPaths searched
  obtain ⟨distances, traversal, order, findsToo, _, _, traverses, findsOrder,
      hasDistance, _⟩ :=
    dijkstra_reaches_by_finite_sums greatWeights "a" closed runs
  cases finds.symm.trans findsToo
  cases (finding_of_traverse traverses).symm.trans findsOrder
  rw [isOrder] at findsOrder
  refine ⟨closed, run, _, traversal, runs, finds, entries, traverses,
    findsOrder, ?_⟩
  intro reaches
  obtain ⟨distance, held⟩ := (hasDistance "c").mpr reaches
  rw [NameMap.get?, entries] at held
  cases held

end Search

end GraphScript
