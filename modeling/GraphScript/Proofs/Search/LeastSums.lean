import GraphScript.Proofs.Search.Relaxation

namespace GraphScript.Search

/-!
# Least sums of weights

Settled nodes are never farther away than those that are pending, and all edges
that leave them are accounted for. So the sum of a walk is bounded from below,
by the distance of the node where it ends or by that of some pending node. The
distances of settled nodes are therefore least sums, and nodes without a
distance at the end of a search are at the end of no walk with a sum.
-/

variable {Sum : Type} [Weight Sum]

/-- What holds of the distances before and after a node is settled. -/
structure Tentative.Sound
    (graph : Graph)
    (start : String)
    (pending : List String)
    (tentative : Tentative Sum) :
    Prop where
  keys : tentative.distances.keys = graph.nodeNames
  pendingNodes : pending ⊆ graph.nodeNames
  distinct : pending.Nodup
  atStart : tentative.distance? start = some Weight.zero
  sums :
    ∀ {node distance}, tentative.distance? node = some distance →
      graph.WalkSum start node distance
  reached :
    ∀ {node}, node ∈ graph.nodeNames → node ∉ pending →
      ∃ distance, tentative.distance? node = some distance
  nearer :
    ∀ {node distance other otherDistance},
      node ∉ pending → tentative.distance? node = some distance →
      other ∈ pending → tentative.distance? other = some otherDistance →
      AtMost distance otherDistance
  relaxed :
    ∀ {node distance next weight sum},
      node ∉ pending → tentative.distance? node = some distance →
      graph.Joins node next weight → Weight.add? distance weight = some sum →
      ∃ shorter, tentative.distance? next = some shorter ∧ AtMost shorter sum

namespace Tentative.Sound

/-- A search is sound at its beginning. -/
theorem initially
    (graph : Graph)
    {start : String}
    (startIsNode : start ∈ graph.nodeNames) :
    (Tentative.atStart graph.nodeNames start : Tentative Sum).Sound graph start
      graph.nodeNames := by
  have distinct : graph.nodeNames.Nodup := graph.nodes.distinct
  refine
    { keys := keys_atStart distinct startIsNode
      pendingNodes := List.Subset.refl _
      distinct
      atStart := by rw [distance?_atStart distinct, if_pos rfl]
      sums := ?_
      reached := fun isNode notPending => absurd isNode notPending
      nearer := fun notPending held =>
        absurd ((eq_of_distance?_atStart distinct held).1 ▸ startIsNode) notPending
      relaxed := fun notPending held =>
        absurd ((eq_of_distance?_atStart distinct held).1 ▸ startIsNode) notPending }
  intro node distance held
  obtain ⟨rfl, rfl⟩ := eq_of_distance?_atStart distinct held
  exact .here

theorem settled_or_now
    {pending : List String}
    {node other : String}
    (notLeft : other ∉ pending.erase node) :
    other = node ∨ other ∉ pending := by
  by_cases same : other = node
  · exact .inl same
  · exact .inr fun stillPending =>
      notLeft ((List.mem_erase_of_ne same).mpr stillPending)

/-- Every settled node of a search has a distance, the nearest one included. -/
theorem exists_held
    {graph : Graph}
    {start node other : String}
    {pending : List String}
    {tentative : Tentative Sum}
    {distance : Sum}
    (sound : tentative.Sound graph start pending)
    (isNearest : tentative.nearest? pending = some (node, distance))
    (isNode : other ∈ graph.nodeNames)
    (notLeft : other ∉ pending.erase node) :
    ∃ otherDistance, tentative.distance? other = some otherDistance := by
  rcases settled_or_now notLeft with rfl | notPending
  · exact ⟨distance, distance?_of_nearest? isNearest⟩
  · exact sound.reached isNode notPending

section Settling

variable
  [LawfulWeight Sum]
  {graph : Graph}
  {start : String}
  {arcs : List (Arc Sum)}
  {pending : List String}
  {tentative : Tentative Sum}
  {node : String}
  {distance : Sum}

theorem hasDistances
    (sound : tentative.Sound graph start pending)
    (weights : graph.HasValidWeights) :
    tentative.HasDistances :=
  fun _ _ held => weights.isDistance_of_walkSum (sound.sums held)

theorem haveWeights_leaving
    (weights : graph.HasValidWeights)
    (prepared : weightedArcs graph = .ok arcs)
    (node : String) :
    HaveWeights (Arc.leaving arcs node) := by
  intro next weight isStep
  apply weights.isWeight_of_joins
  exact (mem_weightedArcs_iff prepared).mp (Arc.mem_leaving_iff.mp isStep)

/-- Settling a node relaxes the arcs that leave it. -/
theorem relaxes_settle
    (weights : graph.HasValidWeights)
    (prepared : weightedArcs graph = .ok arcs)
    (sound : tentative.Sound graph start pending)
    (isNearest : tentative.nearest? pending = some (node, distance)) :
    Relaxes (pending.erase node) node distance (Arc.leaving arcs node) tentative
      (settle arcs pending tentative node distance) := by
  have hasDistances := sound.hasDistances weights
  apply relaxes_foldl
  · rw [sound.keys]
    exact List.Subset.trans List.erase_subset sound.pendingNodes
  · exact hasDistances _ _ (distance?_of_nearest? isNearest)
  · exact haveWeights_leaving weights prepared node
  · exact hasDistances

/-- What settling a node changes: some nodes are reached by an edge from it. -/
theorem kept_or_joined
    (weights : graph.HasValidWeights)
    (prepared : weightedArcs graph = .ok arcs)
    (sound : tentative.Sound graph start pending)
    (isNearest : tentative.nearest? pending = some (node, distance))
    (other : String) :
    tentative.KeepsAt (settle arcs pending tentative node distance) other ∨
      ∃ weight sum,
        graph.Joins node other weight ∧
        Weight.add? distance weight = some sum ∧
        (settle arcs pending tentative node distance).distance? other =
          some sum ∧
        (settle arcs pending tentative node distance).previous.get? other =
          some node ∧
        ∀ longer, tentative.distance? other = some longer →
          Weight.less sum longer = true := by
  have relaxes := relaxes_settle weights prepared sound isNearest
  refine (relaxes.inside other).imp_right ?_
  rintro ⟨weight, sum, isStep, gains⟩
  exact ⟨weight, sum,
    (mem_weightedArcs_iff prepared).mp (Arc.mem_leaving_iff.mp isStep), gains⟩

/-- After settling a node, every distance is still the sum of a walk. -/
theorem sums_settle
    (weights : graph.HasValidWeights)
    (prepared : weightedArcs graph = .ok arcs)
    (sound : tentative.Sound graph start pending)
    (isNearest : tentative.nearest? pending = some (node, distance))
    {other : String}
    {sum : Sum}
    (held :
      (settle arcs pending tentative node distance).distance? other =
        some sum) :
    graph.WalkSum start other sum := by
  rcases kept_or_joined weights prepared sound isNearest other with
    keeps | ⟨weight, found, joins, isSum, now, _⟩
  · exact sound.sums (keeps.1.symm.trans held)
  · rw [now] at held
    cases held
    exact .along (sound.sums (distance?_of_nearest? isNearest)) joins isSum

/-- Settling a node leaves the start as it is. -/
theorem atStart_settle
    (weights : graph.HasValidWeights)
    (prepared : weightedArcs graph = .ok arcs)
    (sound : tentative.Sound graph start pending)
    (isNearest : tentative.nearest? pending = some (node, distance)) :
    tentative.KeepsAt (settle arcs pending tentative node distance) start := by
  rcases kept_or_joined weights prepared sound isNearest start with
    keeps | ⟨weight, sum, _, _, now, _, shortens⟩
  · exact keeps
  · have notBelow : AtMost Weight.zero sum :=
      weights.zero_atMost_walkSum
        (sums_settle weights prepared sound isNearest now)
    rw [AtMost, shortens Weight.zero sound.atStart] at notBelow
    cases notBelow

/-- Settled nodes keep their distances, and the one settled now gets the last. -/
theorem held_before
    (weights : graph.HasValidWeights)
    (prepared : weightedArcs graph = .ok arcs)
    (sound : tentative.Sound graph start pending)
    (isNearest : tentative.nearest? pending = some (node, distance))
    {other : String}
    {otherDistance : Sum}
    (notLeft : other ∉ pending.erase node)
    (held :
      (settle arcs pending tentative node distance).distance? other =
        some otherDistance) :
    tentative.distance? other = some otherDistance ∧
      (other = node ∧ otherDistance = distance ∨ other ∉ pending) := by
  have relaxes := relaxes_settle weights prepared sound isNearest
  have before := (relaxes.outside other notLeft).1.symm.trans held
  refine ⟨before, (settled_or_now notLeft).imp_left ?_⟩
  rintro rfl
  rw [distance?_of_nearest? isNearest] at before
  cases before
  exact ⟨rfl, rfl⟩

/-- No node that is settled by now is farther away than the one settled last. -/
theorem atMost_nearest
    (weights : graph.HasValidWeights)
    (sound : tentative.Sound graph start pending)
    (isNearest : tentative.nearest? pending = some (node, distance))
    {other : String}
    {otherDistance : Sum}
    (notLeft : other ∉ pending.erase node)
    (held : tentative.distance? other = some otherDistance) :
    AtMost otherDistance distance := by
  have nodeHeld : tentative.distance? node = some distance :=
    distance?_of_nearest? isNearest
  rcases settled_or_now notLeft with rfl | notPending
  · rw [nodeHeld] at held
    cases held
    exact atMost_refl (sound.hasDistances weights _ _ nodeHeld)
  · exact sound.nearer notPending held (mem_of_nearest? isNearest) nodeHeld

/-- No node that is left is closer than a settled one. -/
theorem nearer_settle
    (weights : graph.HasValidWeights)
    (prepared : weightedArcs graph = .ok arcs)
    (sound : tentative.Sound graph start pending)
    (isNearest : tentative.nearest? pending = some (node, distance))
    {settled other : String}
    {settledDistance otherDistance : Sum}
    (notLeft : settled ∉ pending.erase node)
    (settledHeld :
      (settle arcs pending tentative node distance).distance? settled =
        some settledDistance)
    (isLeft : other ∈ pending.erase node)
    (held :
      (settle arcs pending tentative node distance).distance? other =
        some otherDistance) :
    AtMost settledDistance otherDistance := by
  have hasDistances := sound.hasDistances weights
  have isDistance := hasDistances node distance (distance?_of_nearest? isNearest)
  obtain ⟨settledBefore, _⟩ :=
    held_before weights prepared sound isNearest notLeft settledHeld
  have belowNode : AtMost settledDistance distance :=
    atMost_nearest weights sound isNearest notLeft settledBefore
  rcases kept_or_joined weights prepared sound isNearest other with
    keeps | ⟨weight, sum, joins, isSum, now, _⟩
  · have otherBefore := keeps.1.symm.trans held
    have nodeBelow : AtMost distance otherDistance :=
      atMost_of_nearest? hasDistances isNearest (List.mem_of_mem_erase isLeft)
        otherBefore
    exact LawfulWeight.atMost_trans (hasDistances _ _ settledBefore) isDistance
      (hasDistances _ _ otherBefore) belowNode nodeBelow
  · rw [now] at held
    cases held
    have isWeight := weights.isWeight_of_joins joins
    exact LawfulWeight.atMost_trans (hasDistances _ _ settledBefore) isDistance
      (LawfulWeight.add?_isDistance isDistance isWeight isSum) belowNode
      (LawfulWeight.atMost_add? isDistance isWeight isSum)

/-- An edge from the node settled last is accounted for by relaxing. -/
theorem relaxed_now
    (closed : graph.Closed)
    (weights : graph.HasValidWeights)
    (prepared : weightedArcs graph = .ok arcs)
    (sound : tentative.Sound graph start pending)
    (isNearest : tentative.nearest? pending = some (node, distance))
    {next : String}
    {weight sum : Sum}
    (joins : graph.Joins node next weight)
    (isSum : Weight.add? distance weight = some sum) :
    ∃ shorter,
      (settle arcs pending tentative node distance).distance? next =
        some shorter ∧
      AtMost shorter sum := by
  have relaxes := relaxes_settle weights prepared sound isNearest
  have hasDistances := sound.hasDistances weights
  have isDistance := hasDistances node distance (distance?_of_nearest? isNearest)
  have isWeight := weights.isWeight_of_joins joins
  by_cases nextLeft : next ∈ pending.erase node
  · have isStep : (next, weight) ∈ Arc.leaving arcs node :=
      Arc.mem_leaving_iff.mpr ((mem_weightedArcs_iff prepared).mpr joins)
    exact relaxes.covers next weight sum isStep nextLeft isSum
  · -- The next node is settled already, so it is not farther away.
    obtain ⟨nextDistance, nextHeld⟩ :=
      sound.exists_held isNearest (closed.mem_nodeNames_of_joins joins) nextLeft
    have kept := (relaxes.outside next nextLeft).1
    exact ⟨nextDistance, kept.trans nextHeld,
      LawfulWeight.atMost_trans (hasDistances _ _ nextHeld) isDistance
        (LawfulWeight.add?_isDistance isDistance isWeight isSum)
        (atMost_nearest weights sound isNearest nextLeft nextHeld)
        (LawfulWeight.atMost_add? isDistance isWeight isSum)⟩

/-- The edges that leave settled nodes offer no shorter distance. -/
theorem relaxed_settle
    (closed : graph.Closed)
    (weights : graph.HasValidWeights)
    (prepared : weightedArcs graph = .ok arcs)
    (sound : tentative.Sound graph start pending)
    (isNearest : tentative.nearest? pending = some (node, distance))
    {settled next : String}
    {settledDistance weight sum : Sum}
    (notLeft : settled ∉ pending.erase node)
    (settledHeld :
      (settle arcs pending tentative node distance).distance? settled =
        some settledDistance)
    (joins : graph.Joins settled next weight)
    (isSum : Weight.add? settledDistance weight = some sum) :
    ∃ shorter,
      (settle arcs pending tentative node distance).distance? next =
        some shorter ∧
      AtMost shorter sum := by
  obtain ⟨settledBefore, ⟨rfl, rfl⟩ | notPending⟩ :=
    held_before weights prepared sound isNearest notLeft settledHeld
  · exact relaxed_now closed weights prepared sound isNearest joins isSum
  · have relaxes := relaxes_settle weights prepared sound isNearest
    have hasDistances := sound.hasDistances weights
    have isDistance :=
      hasDistances node distance (distance?_of_nearest? isNearest)
    have hasDistancesAfter :=
      relaxes.hasDistances isDistance (haveWeights_leaving weights prepared node)
        hasDistances
    have sumIs : LawfulWeight.IsDistance sum :=
      LawfulWeight.add?_isDistance (hasDistances _ _ settledBefore)
        (weights.isWeight_of_joins joins) isSum
    obtain ⟨longer, longerHeld, longerBelow⟩ :=
      sound.relaxed notPending settledBefore joins isSum
    obtain ⟨shorter, shorterHeld, shorterBelow⟩ :=
      relaxes.exists_atMost hasDistances hasDistancesAfter longerHeld
    exact ⟨shorter, shorterHeld,
      LawfulWeight.atMost_trans (hasDistancesAfter _ _ shorterHeld)
        (hasDistances _ _ longerHeld) sumIs shorterBelow longerBelow⟩

/-- Settling the nearest pending node keeps the distances sound. -/
theorem settle
    (closed : graph.Closed)
    (weights : graph.HasValidWeights)
    (prepared : weightedArcs graph = .ok arcs)
    (sound : tentative.Sound graph start pending)
    (isNearest : tentative.nearest? pending = some (node, distance)) :
    (Search.settle arcs pending tentative node distance).Sound graph start
      (pending.erase node) where
  keys :=
    (relaxes_settle weights prepared sound isNearest).keys.trans sound.keys
  pendingNodes := List.Subset.trans List.erase_subset sound.pendingNodes
  distinct := sound.distinct.erase node
  atStart :=
    (atStart_settle weights prepared sound isNearest).1.trans sound.atStart
  sums := sums_settle weights prepared sound isNearest
  reached := by
    intro other isNode notLeft
    have kept :=
      ((relaxes_settle weights prepared sound isNearest).outside other notLeft).1
    obtain ⟨otherDistance, held⟩ := sound.exists_held isNearest isNode notLeft
    exact ⟨otherDistance, kept.trans held⟩
  nearer := nearer_settle weights prepared sound isNearest
  relaxed := relaxed_settle closed weights prepared sound isNearest

/-! ### Lower bounds of walks -/

/--
The sum of a walk is at least the distance of the node where it ends, or that of
a node which is still pending.
-/
theorem exists_bound
    (weights : graph.HasValidWeights)
    (sound : tentative.Sound graph start pending)
    {sum : Sum}
    (walk : graph.WalkSum start node sum) :
    ∃ bound,
      AtMost bound sum ∧
      (tentative.distance? node = some bound ∨
        ∃ waiting ∈ pending, tentative.distance? waiting = some bound) := by
  have hasDistances := sound.hasDistances weights
  induction walk with
  | here =>
      exact ⟨Weight.zero, atMost_refl LawfulWeight.zero_isDistance,
        .inl sound.atStart⟩
  | @along before next total weight sum walk joins isSum inductionHypothesis =>
      have totalIs := weights.isDistance_of_walkSum walk
      have isWeight := weights.isWeight_of_joins joins
      have sumIs := weights.isDistance_of_walkSum (walk.along joins isSum)
      have totalBelow := LawfulWeight.atMost_add? totalIs isWeight isSum
      obtain ⟨bound, boundBelow, place⟩ := inductionHypothesis
      -- A bound that comes from a pending node stays one along the next edge.
      have fromPending :
          ∀ waiting ∈ pending, tentative.distance? waiting = some bound →
            ∃ bound,
              AtMost bound sum ∧
              (tentative.distance? next = some bound ∨
                ∃ waiting ∈ pending,
                  tentative.distance? waiting = some bound) := by
        intro waiting isWaiting held
        exact ⟨bound,
          LawfulWeight.atMost_trans (hasDistances _ _ held) totalIs sumIs
            boundBelow totalBelow,
          .inr ⟨waiting, isWaiting, held⟩⟩
      rcases place with held | ⟨waiting, isWaiting, held⟩
      · by_cases isPending : before ∈ pending
        · exact fromPending before isPending held
        · have boundIs := hasDistances _ _ held
          obtain ⟨lesser, isLesser, lesserBelow⟩ :=
            LawfulWeight.add?_mono boundIs totalIs isWeight boundBelow isSum
          obtain ⟨shorter, nextHeld, shorterBelow⟩ :=
            sound.relaxed isPending held joins isLesser
          have lesserIs := LawfulWeight.add?_isDistance boundIs isWeight isLesser
          exact ⟨shorter,
            LawfulWeight.atMost_trans (hasDistances _ _ nextHeld) lesserIs sumIs
              shorterBelow lesserBelow,
            .inl nextHeld⟩
      · exact fromPending waiting isWaiting held

/-- The distance of a settled node is the least sum of its walks. -/
theorem isLeastSum_of_settled
    (weights : graph.HasValidWeights)
    (sound : tentative.Sound graph start pending)
    (notPending : node ∉ pending)
    (held : tentative.distance? node = some distance) :
    graph.IsLeastSum start node distance := by
  refine ⟨sound.sums held, ?_⟩
  intro other walk
  have hasDistances := sound.hasDistances weights
  obtain ⟨bound, boundBelow, place⟩ := sound.exists_bound weights walk
  rcases place with same | ⟨waiting, isWaiting, waitingHeld⟩
  · rw [held] at same
    cases same
    exact boundBelow
  · exact LawfulWeight.atMost_trans (hasDistances _ _ held)
      (hasDistances _ _ waitingHeld) (weights.isDistance_of_walkSum walk)
      (sound.nearer notPending held isWaiting waitingHeld) boundBelow

/-- When no pending node has been reached, all distances are least sums. -/
theorem reportsLeast
    (weights : graph.HasValidWeights)
    (sound : tentative.Sound graph start pending)
    (noneNearest : tentative.nearest? pending = none)
    (node : String) :
    graph.ReportsLeast start node (tentative.distance? node) := by
  have unreached := nearest?_eq_none_iff.mp noneNearest
  cases held : tentative.distance? node with
  | some distance =>
      apply sound.isLeastSum_of_settled weights _ held
      intro isPending
      rw [unreached node isPending] at held
      cases held
  | none =>
      intro sum walk
      obtain ⟨bound, _, same | ⟨waiting, isWaiting, waitingHeld⟩⟩ :=
        sound.exists_bound weights walk
      · rw [held] at same
        cases same
      · rw [unreached waiting isWaiting] at waitingHeld
        cases waitingHeld

end Settling

end Tentative.Sound

/-! ## Searches of a graph -/

section Searching

variable
  [LawfulWeight Sum]
  {graph : Graph}
  {start : String}
  {target : Option String}

/--
A search of a graph with valid weights succeeds, and what settling a node keeps
holds at its end.
-/
theorem shortestPaths_ends
    {holds : List String → Tentative Sum → Prop}
    (initially :
      holds graph.nodeNames (Tentative.atStart graph.nodeNames start))
    (keeps :
      ∀ {arcs pending tentative node distance},
        weightedArcs graph = .ok arcs →
        holds pending tentative →
        tentative.nearest? pending = some (node, distance) →
        holds (pending.erase node)
          (settle arcs pending tentative node distance))
    (weights : graph.HasValidWeights)
    (enough : 2 ≤ graph.nodes.size)
    (startIsNode : graph.hasNode start = true)
    (targetIsNode : ∀ node, target = some node → graph.hasNode node = true) :
    ∃ (search : ShortestPaths Sum) (left : List String),
      shortestPaths graph start target = .ok search ∧
      holds left search.final ∧
      (search.final.nearest? left = none ∨
        ∃ node, target = some node ∧ node ∉ left) := by
  have preparable : ∃ arcs : List (Arc Sum), weightedArcs graph = .ok arcs :=
    exists_weightedArcs weights
  obtain ⟨arcs, prepared⟩ := preparable
  have searched :
      shortestPaths graph start target =
        .ok (searchAlong arcs graph start target) :=
    shortestPaths_eq_ok_iff.mpr
      ⟨enough, startIsNode, targetIsNode, arcs, prepared, rfl⟩
  obtain ⟨left, held, stops⟩ :=
    settleFrom_ends
      (fun held isNearest => keeps prepared held isNearest)
      graph.nodes.distinct initially
  exact ⟨_, left, searched, held, stops⟩

end Searching

end GraphScript.Search
