import GraphScript.Proofs.Search.Relaxation

namespace GraphScript.Search

/-!
# The order in which nodes are settled

Settled nodes are never farther away than the others. So relaxing the arcs of
the nearest of the others leaves the distances of settled nodes alone, and it
makes no other distance less than the one of the node that was settled last.
-/

/-! ## The first of the nearest -/

namespace Tentative

variable {Sum : Type} [Weight Sum] [LawfulWeight Sum]

/-- Nodes before the nearest one are farther away, and later ones not nearer. -/
theorem exists_split_of_nearest?
    {tentative : Tentative Sum}
    {nodes : List String}
    {nearest : String}
    {least : Sum}
    (hasDistances : tentative.HasDistances)
    (found : tentative.nearest? nodes = some (nearest, least)) :
    ∃ earlier later,
      nodes = earlier ++ nearest :: later ∧
      (∀ node ∈ earlier, ∀ distance,
        tentative.distance? node = some distance →
          Weight.less least distance = true) ∧
      ∀ node ∈ later, ∀ distance,
        tentative.distance? node = some distance → AtMost least distance := by
  induction nodes generalizing nearest least with
  | nil =>
      cases found
  | cons first rest inductionHypothesis =>
      have first?_lt :
          ∀ distance, tentative.distance? first = some distance →
            Weight.less least distance = true →
            ∀ other, tentative.distance? first = some other →
              Weight.less least other = true := by
        intro distance held isLess other heldToo
        cases held.symm.trans heldToo
        exact isLess
      rw [nearest?] at found
      split at found
      · next unreached =>
          obtain ⟨earlier, later, rfl, farther, notNearer⟩ :=
            inductionHypothesis found
          refine ⟨first :: earlier, later, rfl, ?_, notNearer⟩
          rw [List.forall_mem_cons]
          exact ⟨by simp [unreached], farther⟩
      · next isLater =>
          cases found
          refine ⟨[], rest, rfl, List.forall_mem_nil _, ?_⟩
          intro node member distance held
          rw [nearest?_eq_none_iff.mp isLater node member] at held
          cases held
      · next firstDistance other otherDistance isFirst isLater =>
          split at found
          · next isLess =>
              cases found
              obtain ⟨earlier, later, rfl, farther, notNearer⟩ :=
                inductionHypothesis isLater
              refine ⟨first :: earlier, later, rfl, ?_, notNearer⟩
              rw [List.forall_mem_cons]
              exact ⟨first?_lt firstDistance isFirst isLess, farther⟩
          · next notLess =>
              cases found
              refine ⟨[], rest, rfl, List.forall_mem_nil _, ?_⟩
              intro node member distance held
              exact LawfulWeight.atMost_trans (hasDistances _ _ isFirst)
                (hasDistances _ _ (distance?_of_nearest? isLater))
                (hasDistances _ _ held) (Bool.eq_false_iff.mpr notLess)
                (atMost_of_nearest? hasDistances isLater member held)

end Tentative

/-! ## Tables of distances -/

section Tables

variable {Sum : Type}

/-- The distance of a node in a table, if the node has been reached. -/
def reached?
    (distances : NameMap (Option Sum))
    (node : String) :
    Option Sum :=
  (distances.get? node).join

variable [Weight Sum] [LawfulWeight Sum]

/-- All distances of a table are sums that walks can have. -/
def AreDistances
    (distances : NameMap (Option Sum)) :
    Prop :=
  ∀ node distance, reached? distances node = some distance →
    LawfulWeight.IsDistance distance

/-- Later distances of settled nodes are the same, and none gets longer. -/
structure Refines
    (settled : List String)
    (before after : NameMap (Option Sum)) :
    Prop where
  areDistances : AreDistances after
  kept : ∀ node ∈ settled, reached? after node = reached? before node
  notLonger :
    ∀ node longer, reached? before node = some longer →
      ∃ shorter, reached? after node = some shorter ∧ AtMost shorter longer

namespace Refines

variable
  {settled others : List String}
  {before between after : NameMap (Option Sum)}

/-- Distances refine themselves. -/
theorem refl
    (areDistances : AreDistances before)
    (settled : List String) :
    Refines settled before before :=
  ⟨areDistances, fun _ _ => rfl,
    fun node distance held =>
      ⟨distance, held, atMost_refl (areDistances node distance held)⟩⟩

/-- Later distances that keep some settled nodes keep any fewer of them. -/
theorem mono
    (refines : Refines settled before after)
    (fewer : others ⊆ settled) :
    Refines others before after :=
  ⟨refines.areDistances, fun node isSettled => refines.kept node (fewer isSettled),
    refines.notLonger⟩

/-- Refining twice is refining. -/
theorem trans
    (first : Refines settled before between)
    (second : Refines settled between after)
    (areBefore : AreDistances before) :
    Refines settled before after := by
  refine ⟨second.areDistances, ?_, ?_⟩
  · intro node isSettled
    exact (second.kept node isSettled).trans (first.kept node isSettled)
  · intro node longest held
    obtain ⟨longer, heldBetween, notLonger⟩ := first.notLonger node longest held
    obtain ⟨shorter, heldAfter, shortens⟩ :=
      second.notLonger node longer heldBetween
    exact ⟨shorter, heldAfter,
      LawfulWeight.atMost_trans (second.areDistances _ _ heldAfter)
        (first.areDistances _ _ heldBetween) (areBefore _ _ held) shortens
        notLonger⟩

end Refines

end Tables

/-! ## Settling in order -/

section Settling

variable {Sum : Type} [Weight Sum]

/-- The nodes that have not been settled, in their order. -/
def unsettled
    (nodes visited : List String) :
    List String :=
  nodes.filter fun node => node ∉ visited

/-- The unsettled nodes are the nodes not visited yet. -/
theorem mem_unsettled_iff
    {nodes visited : List String}
    {node : String} :
    node ∈ unsettled nodes visited ↔ node ∈ nodes ∧ node ∉ visited := by
  simp [unsettled]

/-- Visiting one more node removes it from the unsettled ones. -/
theorem erase_unsettled
    {nodes : List String}
    (distinct : nodes.Nodup)
    (visited : List String)
    (node : String) :
    (unsettled nodes visited).erase node =
      unsettled nodes (visited ++ [node]) := by
  rw [unsettled, List.Nodup.erase_eq_filter (distinct.filter _),
    List.filter_filter, unsettled]
  congr
  funext other
  rw [Bool.eq_iff_iff]
  simp [and_comm]

variable [LawfulWeight Sum]

/-- Settled nodes are not farther away than the others. -/
structure Ordered
    (nodes visited : List String)
    (tentative : Tentative Sum) :
    Prop where
  keys : tentative.distances.keys = nodes
  areDistances : AreDistances tentative.distances
  notFarther :
    ∀ node ∈ visited, ∀ other ∉ visited, ∀ distance otherDistance,
      tentative.distance? node = some distance →
      tentative.distance? other = some otherDistance →
      AtMost distance otherDistance

namespace Ordered

variable
  {nodes visited : List String}
  {tentative : Tentative Sum}
  {arcs : List (Arc Sum)}
  {node : String}
  {distance : Sum}

/-- The nodes of an ordered search are listed once each. -/
theorem distinct
    (ordered : Ordered nodes visited tentative) :
    nodes.Nodup :=
  ordered.keys ▸ tentative.distances.distinct

/-- A search starts in order. -/
theorem initially
    {nodes : List String}
    (distinct : nodes.Nodup)
    {start : String}
    (startIsNode : start ∈ nodes) :
    Ordered nodes [] (Tentative.atStart nodes start : Tentative Sum) where
  keys := Tentative.keys_atStart distinct startIsNode
  areDistances := by
    intro node distance held
    obtain ⟨_, rfl⟩ := Tentative.eq_of_distance?_atStart distinct held
    exact LawfulWeight.zero_isDistance
  notFarther := nofun

/-- The distance of the nearest node is a sum that a walk can have. -/
theorem isDistance_nearest
    (ordered : Ordered nodes visited tentative)
    (isNearest :
      tentative.nearest? (unsettled nodes visited) = some (node, distance)) :
    LawfulWeight.IsDistance distance :=
  ordered.areDistances _ _ (Tentative.distance?_of_nearest? isNearest)

/-- The arcs that leave a node have the weights that edges can have. -/
theorem haveWeights_leaving
    (areWeights : ∀ arc ∈ arcs, LawfulWeight.IsWeight arc.label)
    (node : String) :
    Tentative.HaveWeights (Arc.leaving arcs node) := by
  intro other weight leaves
  obtain ⟨arc, isArc, same⟩ := List.mem_map.mp leaves
  cases same
  exact areWeights arc (List.mem_filter.mp isArc).1

/-- Settling the nearest node relaxes the arcs that leave it. -/
theorem relaxes
    (ordered : Ordered nodes visited tentative)
    (areWeights : ∀ arc ∈ arcs, LawfulWeight.IsWeight arc.label)
    (isNearest :
      tentative.nearest? (unsettled nodes visited) = some (node, distance)) :
    Tentative.Relaxes (unsettled nodes (visited ++ [node])) node distance
      (Arc.leaving arcs node) tentative
      (settle arcs (unsettled nodes visited) tentative node distance) := by
  rw [settle, Tentative.relaxAll, erase_unsettled ordered.distinct]
  apply Tentative.relaxes_foldl
  · intro other isUnsettled
    exact ordered.keys ▸ (mem_unsettled_iff.mp isUnsettled).1
  · exact ordered.isDistance_nearest isNearest
  · exact haveWeights_leaving areWeights node
  · exact ordered.areDistances

/-- The node that is settled is not nearer than those settled before. -/
theorem atMost_nearest
    (ordered : Ordered nodes visited tentative)
    (isNearest :
      tentative.nearest? (unsettled nodes visited) = some (node, distance))
    {other : String}
    {otherDistance : Sum}
    (isSettled : other ∈ visited)
    (held : tentative.distance? other = some otherDistance) :
    AtMost otherDistance distance :=
  ordered.notFarther other isSettled node
    (mem_unsettled_iff.mp (Tentative.mem_of_nearest? isNearest)).2 _ _ held
    (Tentative.distance?_of_nearest? isNearest)

/-- The nearest node is at most as far as any other that is not visited. -/
theorem atMost_other
    (ordered : Ordered nodes visited tentative)
    (isNearest :
      tentative.nearest? (unsettled nodes visited) = some (node, distance))
    {other : String}
    {otherDistance : Sum}
    (unvisited : other ∉ visited)
    (held : tentative.distance? other = some otherDistance) :
    AtMost distance otherDistance := by
  have isNode : other ∈ nodes :=
    ordered.keys ▸
      NameMap.mem_keys_of_get? (Option.join_eq_some_iff.mp held)
  exact Tentative.atMost_of_nearest? ordered.areDistances isNearest
    (mem_unsettled_iff.mpr ⟨isNode, unvisited⟩) held

/-- Afterwards, the node that was settled is the farthest settled one. -/
theorem settled_atMost
    (ordered : Ordered nodes visited tentative)
    (areWeights : ∀ arc ∈ arcs, LawfulWeight.IsWeight arc.label)
    (isNearest :
      tentative.nearest? (unsettled nodes visited) = some (node, distance))
    {other : String}
    {otherDistance : Sum}
    (isSettled : other ∈ visited ++ [node])
    (held :
      (settle arcs (unsettled nodes visited) tentative node
        distance).distance? other = some otherDistance) :
    AtMost otherDistance distance := by
  have relaxes := ordered.relaxes areWeights isNearest
  have notUnsettled : other ∉ unsettled nodes (visited ++ [node]) :=
    fun isUnsettled => (mem_unsettled_iff.mp isUnsettled).2 isSettled
  rw [(relaxes.outside other notUnsettled).1] at held
  rcases List.mem_append.mp isSettled with isEarlier | isNode
  · exact ordered.atMost_nearest isNearest isEarlier held
  · cases List.mem_singleton.mp isNode
    cases held.symm.trans (Tentative.distance?_of_nearest? isNearest)
    exact atMost_refl (ordered.isDistance_nearest isNearest)

/-- Afterwards, no other node is nearer than the one that was settled. -/
theorem atMost_unsettled
    (ordered : Ordered nodes visited tentative)
    (areWeights : ∀ arc ∈ arcs, LawfulWeight.IsWeight arc.label)
    (isNearest :
      tentative.nearest? (unsettled nodes visited) = some (node, distance))
    {other : String}
    {otherDistance : Sum}
    (notSettled : other ∉ visited ++ [node])
    (held :
      (settle arcs (unsettled nodes visited) tentative node
        distance).distance? other = some otherDistance) :
    AtMost distance otherDistance := by
  have relaxes := ordered.relaxes areWeights isNearest
  rcases relaxes.inside other with kept | gained
  · rw [kept.1] at held
    exact ordered.atMost_other isNearest
      (fun isVisited => notSettled (List.mem_append_left _ isVisited)) held
  · obtain ⟨weight, sum, isStep, isSum, nowHeld, _⟩ := gained
    cases held.symm.trans nowHeld
    exact LawfulWeight.atMost_add? (ordered.isDistance_nearest isNearest)
      (haveWeights_leaving areWeights node _ _ isStep) isSum

/-- Settling the nearest node keeps the order. -/
theorem after
    (ordered : Ordered nodes visited tentative)
    (areWeights : ∀ arc ∈ arcs, LawfulWeight.IsWeight arc.label)
    (isNearest :
      tentative.nearest? (unsettled nodes visited) = some (node, distance)) :
    Ordered nodes (visited ++ [node])
      (settle arcs (unsettled nodes visited) tentative node distance) := by
  have relaxes := ordered.relaxes areWeights isNearest
  have isDistance := ordered.isDistance_nearest isNearest
  have areAfter :=
    relaxes.hasDistances isDistance (haveWeights_leaving areWeights node)
      ordered.areDistances
  refine
    { keys := relaxes.keys.trans ordered.keys
      areDistances := areAfter
      notFarther := ?_ }
  intro settled isSettled other notSettled _ _ held otherHeld
  exact LawfulWeight.atMost_trans (areAfter _ _ held) isDistance
    (areAfter _ _ otherHeld)
    (ordered.settled_atMost areWeights isNearest isSettled held)
    (ordered.atMost_unsettled areWeights isNearest notSettled otherHeld)

/-- Settling the nearest node refines the distances, and the settled ones stay. -/
theorem refines_settle
    (ordered : Ordered nodes visited tentative)
    (areWeights : ∀ arc ∈ arcs, LawfulWeight.IsWeight arc.label)
    (isNearest :
      tentative.nearest? (unsettled nodes visited) = some (node, distance)) :
    Refines (visited ++ [node]) tentative.distances
      (settle arcs (unsettled nodes visited) tentative node
        distance).distances := by
  have relaxes := ordered.relaxes areWeights isNearest
  have areAfter := (ordered.after areWeights isNearest).areDistances
  refine ⟨areAfter, ?_, ?_⟩
  · intro other isSettled
    refine (relaxes.outside other ?_).1
    intro isUnsettled
    exact (mem_unsettled_iff.mp isUnsettled).2 isSettled
  · intro other longer held
    exact relaxes.exists_atMost ordered.areDistances areAfter held

end Ordered

/-! ## The trail of a search -/

/-- The nearest node is settled, and recorded with the distances afterwards. -/
structure Settles
    (nodes visited : List String)
    (before after : Tentative Sum)
    (settled : Settled Sum) :
    Prop where
  isNearest :
    before.nearest? (unsettled nodes visited) =
      some (settled.node, settled.distance)
  nowVisited : settled.visited = visited ++ [settled.node]
  nowWaiting :
    settled.waiting =
      (unsettled nodes settled.visited).filter fun other =>
        (after.distance? other).isSome
  nowDistances : settled.distances = after.distances
  refines : Refines settled.visited before.distances after.distances

/-- Nodes are settled one after another, while the distances stay in order. -/
inductive Trail
    (nodes : List String) :
    List String → Tentative Sum → List (Settled Sum) → Tentative Sum → Prop
  | done
      {visited : List String}
      {tentative : Tentative Sum}
      (ordered : Ordered nodes visited tentative) :
      Trail nodes visited tentative [] tentative
  | settle
      {visited : List String}
      {before after final : Tentative Sum}
      {settled : Settled Sum}
      {rest : List (Settled Sum)}
      (ordered : Ordered nodes visited before)
      (settles : Settles nodes visited before after settled)
      (later : Trail nodes settled.visited after rest final) :
      Trail nodes visited before (settled :: rest) final

section Trails

variable
  {nodes visited : List String}
  {tentative final : Tentative Sum}
  {trail : List (Settled Sum)}

/-- Settling the nearest node is a step of an ordered search. -/
theorem Ordered.settles_nearest
    {arcs : List (Arc Sum)}
    {node : String}
    {distance : Sum}
    (ordered : Ordered nodes visited tentative)
    (areWeights : ∀ arc ∈ arcs, LawfulWeight.IsWeight arc.label)
    (isNearest :
      tentative.nearest? (unsettled nodes visited) = some (node, distance)) :
    Settles nodes visited tentative
      (settle arcs (unsettled nodes visited) tentative node distance)
      (settledAt arcs (unsettled nodes visited) visited tentative node
        distance) where
  isNearest := isNearest
  nowVisited := rfl
  nowWaiting := by
    unfold settledAt
    rw [erase_unsettled ordered.distinct]
  nowDistances := rfl
  refines := ordered.refines_settle areWeights isNearest

namespace Settles

variable {before after : Tentative Sum} {settled : Settled Sum}

/-- What was visited stays visited. -/
theorem subset_visited
    (settles : Settles nodes visited before after settled) :
    visited ⊆ settled.visited := by
  rw [settles.nowVisited]
  exact List.subset_append_left _ _

/-- The settled node is visited. -/
theorem mem_visited
    (settles : Settles nodes visited before after settled) :
    settled.node ∈ settled.visited := by
  rw [settles.nowVisited]
  exact List.mem_append_right _ (List.mem_singleton_self _)

/-- The node keeps the distance at which it was settled. -/
theorem held_after
    (settles : Settles nodes visited before after settled) :
    after.distance? settled.node = some settled.distance :=
  (settles.refines.kept _ settles.mem_visited).trans
    (Tentative.distance?_of_nearest? settles.isNearest)

end Settles

/-- A search leaves a trail. -/
theorem Ordered.trail_settleFrom
    {arcs : List (Arc Sum)}
    (areWeights : ∀ arc ∈ arcs, LawfulWeight.IsWeight arc.label)
    (target : Option String)
    {pending : List String}
    (arePending : pending = unsettled nodes visited)
    (ordered : Ordered nodes visited tentative) :
    Trail nodes visited tentative
      (settleFrom arcs target pending visited tentative).1
      (settleFrom arcs target pending visited tentative).2 := by
  induction pending, visited, tentative using settleFrom.induct arcs target with
  | case1 pending visited tentative none =>
      rw [settleFrom_eq_of_none none]
      exact .done ordered
  | case2 pending visited tentative node distance isNearest shorter isTarget =>
      subst arePending
      rw [settleFrom_eq_of_target isNearest isTarget]
      exact .settle ordered (ordered.settles_nearest areWeights isNearest)
        (.done (ordered.after areWeights isNearest))
  | case3 pending visited tentative node distance isNearest shorter left next
      isOther later last goesOn inductionHypothesis =>
      subst arePending
      rw [settleFrom_eq_of_other isNearest isOther]
      exact .settle ordered (ordered.settles_nearest areWeights isNearest)
        (inductionHypothesis (erase_unsettled ordered.distinct visited node)
          (ordered.after areWeights isNearest))

namespace Trail

/-- A trail starts in order. -/
theorem ordered
    (leaves : Trail nodes visited tentative trail final) :
    Ordered nodes visited tentative := by
  cases leaves with
  | done ordered => exact ordered
  | settle ordered _ _ => exact ordered

/-- The distances at the start of a trail are refined all along it. -/
theorem refines
    (leaves : Trail nodes visited tentative trail final) :
    ∀ distances ∈ trail.map Settled.distances ++ [final.distances],
      Refines visited tentative.distances distances := by
  induction leaves with
  | @done visited tentative ordered =>
      rw [List.map_nil, List.nil_append, List.forall_mem_singleton]
      exact .refl ordered.areDistances visited
  | @settle visited before after final settled rest ordered settles _
      inductionHypothesis =>
      have first := settles.refines.mono settles.subset_visited
      rw [List.map_cons, List.cons_append, List.forall_mem_cons,
        settles.nowDistances]
      refine ⟨first, fun distances member => ?_⟩
      have later := inductionHypothesis distances member
      exact first.trans (later.mono settles.subset_visited)
        ordered.areDistances

/-- Whatever is settled on a trail is not nearer than what was settled before. -/
theorem notNearer
    (leaves : Trail nodes visited tentative trail final)
    {node : String}
    {distance : Sum}
    (isSettled : node ∈ visited)
    (held : tentative.distance? node = some distance) :
    ∀ settled ∈ trail, AtMost distance settled.distance := by
  induction leaves with
  | done =>
      nofun
  | settle ordered settles _ inductionHypothesis =>
      rw [List.forall_mem_cons]
      refine ⟨ordered.atMost_nearest settles.isNearest isSettled held, ?_⟩
      have isSettledAfter := settles.subset_visited isSettled
      exact inductionHypothesis isSettledAfter
        ((settles.refines.kept node isSettledAfter).trans held)

/-- Along a trail the distances never decrease. -/
theorem pairwise_atMost
    (leaves : Trail nodes visited tentative trail final) :
    (trail.map Settled.distance).Pairwise AtMost := by
  induction leaves with
  | done =>
      exact .nil
  | settle _ settles later inductionHypothesis =>
      rw [List.map_cons, List.pairwise_cons, List.forall_mem_map]
      exact ⟨later.notNearer settles.mem_visited settles.held_after,
        inductionHypothesis⟩

/-- Along a trail all distances are sums that walks can have. -/
theorem isDistance
    (leaves : Trail nodes visited tentative trail final) :
    ∀ settled ∈ trail, LawfulWeight.IsDistance settled.distance := by
  induction leaves with
  | done =>
      nofun
  | settle ordered settles _ inductionHypothesis =>
      rw [List.forall_mem_cons]
      exact ⟨ordered.isDistance_nearest settles.isNearest, inductionHypothesis⟩

end Trail

end Trails

end Settling

end GraphScript.Search
