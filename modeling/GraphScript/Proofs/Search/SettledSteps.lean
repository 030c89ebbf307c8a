import GraphScript.Proofs.Search.FloatWeights
import GraphScript.Proofs.Search.ReachedDistances
import GraphScript.Proofs.Search.SettlingOrder
import GraphScript.Proofs.Search.StepRecords

namespace GraphScript.Search

/-!
# The steps of searches for shortest paths

A step records the distances after a node has been settled. The nodes that wait
are those that have a distance and have not been settled, and the nearest of
them is settled next. The distances that steps record never get longer, and that
of a node stays the same once the node is settled.
-/

/-! ## Distances in steps -/

namespace Step

/-- The distance that a step records for a node, if it has been reached. -/
def distance?
    (step : Step)
    (node : String) :
    Option Float :=
  step.distances.bind fun distances => reached? distances node

/-- The distance of the node that a step is about. -/
def length?
    (step : Step) :
    Option Float :=
  step.current.bind step.distance?

/-- All nodes are listed, and those that have been reached and not settled wait. -/
structure Charts
    (nodes : List String)
    (step : Step) :
    Prop where
  listed :
    ∃ distances, step.distances = some distances ∧ distances.keys = nodes
  frontier :
    step.frontier =
      nodes.filter fun node =>
        node ∉ step.visited ∧ (step.distance? node).isSome

/-- Of the waiting nodes the next step settles the nearest, the first of equals. -/
def LeadsToNearest
    (before after : Step) :
    Prop :=
  ∃ earlier node later distance,
    before.frontier = earlier ++ node :: later ∧
    after.current = some node ∧
    before.distance? node = some distance ∧
    after.distance? node = some distance ∧
    (∀ other ∈ earlier, ∀ otherDistance,
      before.distance? other = some otherDistance → distance < otherDistance) ∧
    ∀ other ∈ later, ∀ otherDistance,
      before.distance? other = some otherDistance → distance ≤ otherDistance

/-- A later step keeps the distances of settled nodes, and lengthens none. -/
structure Refines
    (earlier later : Step) :
    Prop where
  kept :
    ∀ node ∈ earlier.visited, later.distance? node = earlier.distance? node
  notLonger :
    ∀ node longer, earlier.distance? node = some longer →
      ∃ shorter, later.distance? node = some shorter ∧ shorter ≤ longer

/-- A step shows the distances of a search and the nodes settled by then. -/
structure Shows
    (nodes visited : List String)
    (tentative : Tentative Float)
    (step : Step) :
    Prop where
  nowVisited : step.visited = visited
  nowWaiting :
    step.frontier =
      (unsettled nodes visited).filter fun node =>
        (tentative.distance? node).isSome
  nowDistances : step.distances = some tentative.distances

namespace Shows

variable
  {nodes visited : List String}
  {tentative final : Tentative Float}
  {trail : List (Settled Float)}
  {step last : Step}

/-- A step that shows a search has its distances. -/
theorem distance?_eq
    (shows : Shows nodes visited tentative step)
    (node : String) :
    step.distance? node = tentative.distance? node := by
  rw [distance?, shows.nowDistances]
  rfl

/-- A step that shows an ordered search charts its nodes. -/
theorem charts
    (shows : Shows nodes visited tentative step)
    (ordered : Ordered nodes visited tentative) :
    step.Charts nodes where
  listed := ⟨_, shows.nowDistances, ordered.keys⟩
  frontier := by
    rw [shows.nowWaiting, unsettled, List.filter_filter, shows.nowVisited]
    simp only [shows.distance?_eq, Bool.decide_and, Bool.and_comm,
      Bool.decide_eq_true]

/--
A later step whose distances refine those of a search refines the step that shows
it.
-/
theorem refines
    (shows : Shows nodes visited tentative step)
    (areDistances : AreDistances tentative.distances)
    {later : Step}
    {distances : NameMap (Option Float)}
    (isLater : later.distances = some distances)
    (refines : Search.Refines visited tentative.distances distances) :
    step.Refines later := by
  have same : ∀ node, later.distance? node = reached? distances node := by
    intro node
    rw [distance?, isLater, Option.bind_some]
  refine ⟨?_, ?_⟩
  · intro node isSettled
    rw [same, shows.distance?_eq]
    exact refines.kept node (shows.nowVisited ▸ isSettled)
  · intro node longer held
    rw [shows.distance?_eq] at held
    obtain ⟨shorter, heldAfter, notLonger⟩ := refines.notLonger node longer held
    obtain ⟨_, shorterLength⟩ := refines.areDistances node shorter heldAfter
    obtain ⟨_, longerLength⟩ := areDistances node longer held
    exact ⟨shorter, (same node).trans heldAfter,
      (atMost_iff_le shorterLength.hasUnits longerLength.hasUnits).mp notLonger⟩

/-- The step after shows the distances after, and is about the nearest node. -/
theorem leadsToNearest
    {after : Tentative Float}
    {settled : Settled Float}
    (shows : Shows nodes visited tentative step)
    (ordered : Ordered nodes visited tentative)
    (settles : Settles nodes visited tentative after settled)
    (showsAfter : Shows nodes settled.visited after settled.step) :
    step.LeadsToNearest settled.step := by
  obtain ⟨earlier, later, split, farther, notNearer⟩ :=
    Tentative.exists_split_of_nearest? ordered.areDistances settles.isNearest
  have held := Tentative.distance?_of_nearest? settles.isNearest
  let reached (node : String) : Bool := (tentative.distance? node).isSome
  refine ⟨earlier.filter reached, settled.node, later.filter reached,
    settled.distance, ?_, rfl, ?_, ?_, ?_, ?_⟩
  · have isReached : reached settled.node = true := by
      simp [reached, held]
    rw [shows.nowWaiting, split, List.filter_append,
      List.filter_cons_of_pos isReached]
  · exact (shows.distance?_eq _).trans held
  · exact (showsAfter.distance?_eq _).trans settles.held_after
  · intro other member distance heldToo
    rw [shows.distance?_eq] at heldToo
    exact of_decide_eq_true
      (farther other (List.mem_of_mem_filter member) distance heldToo)
  · intro other member distance heldToo
    rw [shows.distance?_eq] at heldToo
    obtain ⟨_, length⟩ := ordered.areDistances _ _ held
    obtain ⟨_, otherLength⟩ := ordered.areDistances _ _ heldToo
    exact (atMost_iff_le length.hasUnits otherLength.hasUnits).mp
      (notNearer other (List.mem_of_mem_filter member) distance heldToo)

/-- At the start of a search only the start has a distance, and waits. -/
theorem first
    {start : String}
    (distinct : nodes.Nodup)
    (startIsNode : start ∈ nodes)
    (description : String) :
    Shows nodes [] (Tentative.atStart nodes start)
      (.first description start
        (some (Tentative.atStart nodes start).distances)) where
  nowVisited := rfl
  nowWaiting := by
    have isStart :
        ∀ node,
          ((Tentative.atStart nodes start : Tentative Float).distance?
            node).isSome = decide (node = start) := by
      intro node
      rw [Tentative.distance?_atStart distinct]
      split <;> simp_all [eq_comm]
    have all : unsettled nodes [] = nodes := by simp [unsettled]
    simp only [all, isStart]
    rw [List.filter_eq, List.count_eq_one_of_mem distinct startIsNode]
    rfl
  nowDistances := rfl

end Shows

end Step

/-! ## Steps along a trail -/

variable
  {nodes visited : List String}
  {before after final : Tentative Float}
  {settled : Settled Float}
  {trail : List (Settled Float)}
  {first last : Step}

/-- The step of a settled node shows the search after it. -/
theorem Settles.shows
    (settles : Settles nodes visited before after settled) :
    settled.step.Shows nodes settled.visited after :=
  ⟨rfl, settles.nowWaiting, congrArg some settles.nowDistances⟩

/-- The length of a step is the distance of the node it settles. -/
theorem Settles.length?_step
    (settles : Settles nodes visited before after settled) :
    settled.step.length? = some settled.distance :=
  (settles.shows.distance?_eq settled.node).trans settles.held_after

namespace Trail

/-- The steps of a trail replay its nodes. -/
theorem replays
    (leaves : Trail nodes visited before trail final) :
    Replays visited (trail.map Settled.step)
      (visited ++ trail.map Settled.node) := by
  induction leaves with
  | done =>
      rw [List.map_nil, List.map_nil, List.append_nil]
      exact .done _
  | @settle visited _ _ _ settled rest _ settles _ inductionHypothesis =>
      have unvisited :=
        (mem_unsettled_iff.mp
          (Tentative.mem_of_nearest? settles.isNearest)).2
      rw [settles.nowVisited] at inductionHypothesis
      rw [List.map_cons, List.map_cons,
        List.append_cons visited settled.node (rest.map Settled.node)]
      exact .visit unvisited rfl settles.nowVisited
        (congrArg List.length settles.nowVisited) inductionHypothesis

/-- Along a trail each step leads to the nearest node that the one before shows. -/
theorem isChain_leadsToNearest
    (leaves : Trail nodes visited before trail final)
    (shows : first.Shows nodes visited before) :
    (first :: trail.map Settled.step).IsChain Step.LeadsToNearest := by
  induction leaves generalizing first with
  | done =>
      exact List.isChain_singleton first
  | settle ordered settles _ inductionHypothesis =>
      rw [List.map_cons, List.isChain_cons_cons]
      exact ⟨shows.leadsToNearest ordered settles settles.shows,
        inductionHypothesis settles.shows⟩

/-- Every step of a trail charts the nodes of the graph. -/
theorem charts
    (leaves : Trail nodes visited before trail final)
    (shows : first.Shows nodes visited before) :
    ∀ step ∈ first :: trail.map Settled.step, step.Charts nodes := by
  induction leaves generalizing first with
  | done ordered =>
      rw [List.map_nil, List.forall_mem_singleton]
      exact shows.charts ordered
  | settle ordered settles _ inductionHypothesis =>
      rw [List.map_cons, List.forall_mem_cons]
      exact ⟨shows.charts ordered, inductionHypothesis settles.shows⟩

/-- Every later step of a trail, and the last one, refines the first. -/
theorem refines_steps
    (leaves : Trail nodes visited before trail final)
    (shows : first.Shows nodes visited before)
    (lastDistances : last.distances = some final.distances) :
    ∀ later ∈ trail.map Settled.step ++ [last], first.Refines later := by
  have refines := leaves.refines
  have areDistances := leaves.ordered.areDistances
  rw [List.forall_mem_append, List.forall_mem_map, List.forall_mem_singleton]
    at refines ⊢
  exact
    ⟨fun settled member =>
      shows.refines areDistances rfl (refines.1 settled member),
      shows.refines areDistances lastDistances refines.2⟩

/-- Along a trail every step refines all before it. -/
theorem pairwise_refines
    (leaves : Trail nodes visited before trail final)
    (shows : first.Shows nodes visited before)
    (lastDistances : last.distances = some final.distances) :
    (first :: trail.map Settled.step ++ [last]).Pairwise Step.Refines := by
  induction leaves generalizing first with
  | done ordered =>
      rw [List.cons_append, List.pairwise_cons]
      exact ⟨(Trail.done ordered).refines_steps shows lastDistances,
        List.pairwise_singleton _ _⟩
  | settle ordered settles later inductionHypothesis =>
      rw [List.cons_append, List.pairwise_cons]
      exact ⟨(later.settle ordered settles).refines_steps shows lastDistances,
        inductionHypothesis settles.shows lastDistances⟩

/-- The lengths of the steps are the distances of the settled nodes. -/
theorem lengths
    (leaves : Trail nodes visited before trail final) :
    (trail.map Settled.step).map Step.length? =
      (trail.map Settled.distance).map some := by
  induction leaves with
  | done =>
      rfl
  | settle _ settles _ inductionHypothesis =>
      rw [List.map_cons, List.map_cons, inductionHypothesis,
        settles.length?_step]
      rfl

/-- The distances of the settled nodes never decrease. -/
theorem pairwise_le
    (leaves : Trail nodes visited before trail final) :
    (trail.map Settled.distance).Pairwise (· ≤ ·) := by
  refine leaves.pairwise_atMost.imp_of_mem ?_
  intro left right isLeft isRight atMost
  obtain ⟨leftSettled, leftMember, rfl⟩ := List.mem_map.mp isLeft
  obtain ⟨rightSettled, rightMember, rfl⟩ := List.mem_map.mp isRight
  obtain ⟨_, leftLength⟩ := leaves.isDistance _ leftMember
  obtain ⟨_, rightLength⟩ := leaves.isDistance _ rightMember
  exact (atMost_iff_le leftLength.hasUnits rightLength.hasUnits).mp atMost

end Trail

/-! ## The steps of a run -/

/--
The steps of a search for shortest paths are a first one, one for each settled
node, and a last one with the final distances.
-/
theorem steps_of_dijkstra
    {graph : Graph}
    {start : String}
    {target : Option String}
    {run : Run}
    (runs : dijkstra graph start target = .ok run) :
    ∃ (search : ShortestPaths Float) (path : List String)
      (length : Option Float) (description lastDescription : String),
      shortestPaths graph start target = .ok search ∧
      run.finding = .shortestPath search.final.distances path length ∧
      run.steps =
        .first description start (some search.initial.distances) ::
            search.settled.map Settled.step ++
          [.last lastDescription (search.settled.map Settled.node) path
            (some search.final.distances)] := by
  obtain ⟨search, succeeds, rfl⟩ := map_eq_ok.mp runs
  exact ⟨search, _, _, _, _, succeeds, rfl, rfl⟩

/-- A search along accepted weights leaves a trail from its start. -/
theorem trail_searchAlong
    {graph : Graph}
    {start : String}
    {arcs : List (Arc Float)}
    (startIsNode : graph.hasNode start = true)
    (prepared : weightedArcs graph = .ok arcs)
    (target : Option String) :
    Trail graph.nodeNames [] (Tentative.atStart graph.nodeNames start)
      (searchAlong arcs graph start target).settled
      (searchAlong arcs graph start target).final := by
  have areWeights :
      ∀ arc ∈ keptArcs isLength arcs, LawfulWeight.IsWeight arc.label := by
    intro arc isArc
    exact exists_units_of_zero_le
      (of_decide_eq_true (List.mem_filter.mp isArc).2)
  have allPending : graph.nodeNames = unsettled graph.nodeNames [] := by
    simp [unsettled]
  have initially :
      Ordered graph.nodeNames []
        (Tentative.atStart graph.nodeNames start : Tentative Float) :=
    .initially graph.nodes.distinct (Graph.hasNode_iff.mp startIsNode)
  have leaves := initially.trail_settleFrom areWeights target allPending
  rw [settleFrom_keptArcs (othersInert_of_prepared prepared)] at leaves
  exact leaves

end GraphScript.Search
