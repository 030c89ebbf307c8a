import GraphScript.Proofs.Search.LeastSums
import GraphScript.Proofs.Search.PathSteps
import Mathlib.Data.List.Nodup

namespace GraphScript.Search

/-!
# Paths traced back

Going back from a settled node leads over settled nodes only, and so to the
start: each of them was reached by an edge from one that was settled before it.
The sums along such a path are the distances of its nodes, and they would not be
less if cheapest edges were taken.
-/

/-- Going back from a node again and again ends with a path from the start. -/
inductive FollowsBack
    (previous : NameMap String)
    (start : String) :
    String → List String → Prop
  | first
      (isFirst : previous.get? start = none) :
      FollowsBack previous start start [start]
  | after
      {node before : String}
      {path : List String}
      (isPrevious : previous.get? node = some before)
      (follows : FollowsBack previous start before path) :
      FollowsBack previous start node (path ++ [node])

/-- A path is traced back to a node without one before it. -/
theorem traceBack_of_none
    {previous : NameMap String}
    {node : String}
    (isFirst : previous.get? node = none) :
    Tentative.traceBack previous node = [node] := by
  rw [Tentative.traceBack]
  grind

/-- A path goes through the node that stands before its last one. -/
theorem traceBack_of_some
    {previous : NameMap String}
    {node before : String}
    (isPrevious : previous.get? node = some before) :
    Tentative.traceBack previous node =
      Tentative.traceBack (previous.erase node) before ++ [node] := by
  rw [Tentative.traceBack]
  grind

theorem traceBack_ne_nil
    (previous : NameMap String)
    (node : String) :
    Tentative.traceBack previous node ≠ [] := by
  cases isPrevious : previous.get? node with
  | none => simp [traceBack_of_none isPrevious]
  | some before => simp [traceBack_of_some isPrevious]

/-- Only a node that has not been reached has no path. -/
theorem Tentative.pathTo_eq_nil_iff
    {Sum : Type}
    {tentative : Tentative Sum}
    {node : String} :
    tentative.pathTo node = [] ↔ tentative.distance? node = none := by
  unfold pathTo
  cases tentative.distance? node with
  | none => simp
  | some distance => simp [traceBack_ne_nil]

namespace FollowsBack

variable {previous : NameMap String} {start node : String} {path : List String}

/-- A path that is followed back begins at its start. -/
theorem head?_eq
    (follows : FollowsBack previous start node path) :
    path.head? = some start := by
  induction follows with
  | first => rfl
  | after _ _ inductionHypothesis =>
      rw [List.head?_append, inductionHypothesis]
      rfl

/-- A path that is followed back ends at its node. -/
theorem exists_eq_append
    (follows : FollowsBack previous start node path) :
    ∃ earlier, path = earlier ++ [node] := by
  cases follows with
  | first => exact ⟨[], rfl⟩
  | after => exact ⟨_, rfl⟩

/-- There is one path that is followed back from a node. -/
theorem unique
    {other : List String}
    (follows : FollowsBack previous start node path)
    (followsToo : FollowsBack previous start node other) :
    other = path := by
  induction follows generalizing other with
  | first isFirst =>
      cases followsToo with
      | first => rfl
      | after isPrevious _ =>
          rw [isFirst] at isPrevious
          cases isPrevious
  | after isPrevious _ inductionHypothesis =>
      cases followsToo with
      | first isFirst =>
          rw [isFirst] at isPrevious
          cases isPrevious
      | after isPreviousToo later =>
          rw [isPrevious] at isPreviousToo
          cases isPreviousToo
          rw [inductionHypothesis later]

/-- Going back from a node of a path gives no longer path. -/
theorem exists_of_mem
    {member : String}
    (follows : FollowsBack previous start node path)
    (isMember : member ∈ path) :
    ∃ earlier,
      FollowsBack previous start member earlier ∧
      earlier.length ≤ path.length := by
  induction follows with
  | first isFirst =>
      cases List.mem_singleton.mp isMember
      exact ⟨_, .first isFirst, Nat.le_refl _⟩
  | after isPrevious follows inductionHypothesis =>
      rcases List.mem_append.mp isMember with isEarlier | isLast
      · obtain ⟨earlier, followsToo, shorter⟩ := inductionHypothesis isEarlier
        exact ⟨earlier, followsToo, by rw [List.length_append]; omega⟩
      · cases List.mem_singleton.mp isLast
        exact ⟨_, .after isPrevious follows, Nat.le_refl _⟩

/-- A node that came twice would lead back to itself for ever. -/
theorem nodup
    (follows : FollowsBack previous start node path) :
    path.Nodup := by
  induction follows with
  | first => exact List.nodup_singleton start
  | after isPrevious follows inductionHypothesis =>
      rw [List.nodup_append]
      refine ⟨inductionHypothesis, List.nodup_singleton _, ?_⟩
      rintro member isMember last isLast rfl
      cases List.mem_singleton.mp isLast
      obtain ⟨earlier, followsToo, shorter⟩ := follows.exists_of_mem isMember
      rw [(after isPrevious follows).unique followsToo,
        List.length_append] at shorter
      exact Nat.not_succ_le_self _ shorter

/-- Only the nodes of a path decide whether it is followed back. -/
theorem congr
    {other : NameMap String}
    (follows : FollowsBack previous start node path)
    (same : ∀ member ∈ path, other.get? member = previous.get? member) :
    FollowsBack other start node path := by
  induction follows with
  | first isFirst =>
      exact .first ((same start (by simp)).trans isFirst)
  | after isPrevious _ inductionHypothesis =>
      exact .after ((same _ (by simp)).trans isPrevious)
        (inductionHypothesis fun member isMember =>
          same member (List.mem_append_left _ isMember))

/-- Names can be removed on the way back, as no node comes twice. -/
theorem traceBack_eq
    {remaining : NameMap String}
    (follows : FollowsBack previous start node path)
    (same : ∀ member ∈ path, remaining.get? member = previous.get? member) :
    Tentative.traceBack remaining node = path := by
  induction follows generalizing remaining with
  | first isFirst =>
      exact traceBack_of_none ((same start (by simp)).trans isFirst)
  | @after node before path isPrevious follows inductionHypothesis =>
      rw [traceBack_of_some ((same node (by simp)).trans isPrevious),
        inductionHypothesis]
      intro member isMember
      have isOther : node ≠ member := by
        rintro rfl
        have distinct := (after isPrevious follows).nodup
        rw [List.nodup_append] at distinct
        exact distinct.2.2 node isMember node (by simp) rfl
      rw [NameMap.get?_erase, if_neg isOther]
      exact same member (List.mem_append_left _ isMember)

end FollowsBack

variable {Sum : Type} [Weight Sum]

/-- A node got its distance by an edge from a settled node. -/
def Tentative.ArrivesFrom
    (graph : Graph)
    (pending : List String)
    (tentative : Tentative Sum)
    (before node : String) :
    Prop :=
  before ∉ pending ∧
    ∃ weight beforeDistance distance,
      graph.Joins before node weight ∧
      tentative.distance? before = some beforeDistance ∧
      Weight.add? beforeDistance weight = some distance ∧
      tentative.distance? node = some distance

/-- Every settled node can be traced back to the start. -/
structure Tentative.Traceable
    (graph : Graph)
    (start : String)
    (pending : List String)
    (tentative : Tentative Sum) :
    Prop extends Tentative.Sound graph start pending tentative where
  startFirst : tentative.previous.get? start = none
  comesFrom :
    ∀ {node distance}, tentative.distance? node = some distance →
      node = start ∨ ∃ before, tentative.previous.get? node = some before
  arrives :
    ∀ {node before}, tentative.previous.get? node = some before →
      tentative.ArrivesFrom graph pending before node
  leadsBack :
    ∀ {node distance}, node ∉ pending →
      tentative.distance? node = some distance →
      ∃ path,
        FollowsBack tentative.previous start node path ∧
        ∀ member ∈ path, member ∉ pending

namespace Tentative.Traceable

/-- A search can be traced from its beginning. -/
theorem initially
    (graph : Graph)
    {start : String}
    (startIsNode : start ∈ graph.nodeNames) :
    (Tentative.atStart graph.nodeNames start : Tentative Sum).Traceable graph
      start graph.nodeNames where
  toSound := .initially graph startIsNode
  startFirst := rfl
  comesFrom held := .inl (eq_of_distance?_atStart graph.nodes.distinct held).1
  arrives := nofun
  leadsBack notPending held :=
    absurd
      ((eq_of_distance?_atStart graph.nodes.distinct held).1 ▸ startIsNode)
      notPending

variable
  [LawfulWeight Sum]
  {graph : Graph}
  {start : String}
  {arcs : List (Arc Sum)}
  {pending : List String}
  {tentative : Tentative Sum}
  {node : String}
  {distance : Sum}

/-- After settling a node, paths still arrive from nodes that are settled. -/
theorem arrives_settle
    (weights : graph.HasValidWeights)
    (prepared : weightedArcs graph = .ok arcs)
    (traceable : tentative.Traceable graph start pending)
    (isNearest : tentative.nearest? pending = some (node, distance))
    {other before : String}
    (isPrevious :
      (settle arcs pending tentative node distance).previous.get? other =
        some before) :
    (settle arcs pending tentative node distance).ArrivesFrom graph
      (pending.erase node) before other := by
  have outside :=
    (traceable.toSound.relaxes_settle weights prepared isNearest).outside
  rcases traceable.toSound.kept_or_joined weights prepared isNearest other with
    keeps | ⟨weight, sum, joins, isSum, now, comesFrom, _⟩
  · obtain ⟨notPending, weight, beforeDistance, found, joins, beforeHeld, isSum,
      held⟩ := traceable.arrives (keeps.2.symm.trans isPrevious)
    have notLeft : before ∉ pending.erase node :=
      fun isLeft => notPending (List.mem_of_mem_erase isLeft)
    exact ⟨notLeft, weight, beforeDistance, found, joins,
      (outside before notLeft).1.trans beforeHeld, isSum, keeps.1.trans held⟩
  · rw [comesFrom] at isPrevious
    cases isPrevious
    have notLeft : node ∉ pending.erase node := traceable.distinct.not_mem_erase
    exact ⟨notLeft, weight, distance, sum, joins,
      (outside node notLeft).1.trans (distance?_of_nearest? isNearest), isSum,
      now⟩

/-- From every settled node a path leads back to the start. -/
theorem leadsBack_settle
    (weights : graph.HasValidWeights)
    (prepared : weightedArcs graph = .ok arcs)
    (traceable : tentative.Traceable graph start pending)
    (isNearest : tentative.nearest? pending = some (node, distance))
    {other : String}
    {otherDistance : Sum}
    (notLeft : other ∉ pending.erase node)
    (held :
      (settle arcs pending tentative node distance).distance? other =
        some otherDistance) :
    ∃ path,
      FollowsBack (settle arcs pending tentative node distance).previous start
        other path ∧
      ∀ member ∈ path, member ∉ pending.erase node := by
  have outside :=
    (traceable.toSound.relaxes_settle weights prepared isNearest).outside
  -- The way back from a settled node is the one it had before.
  have keptPath :
      ∀ {path : List String},
        FollowsBack tentative.previous start other path →
        (∀ member ∈ path, member ∉ pending.erase node) →
        ∃ path,
          FollowsBack (settle arcs pending tentative node distance).previous
            start other path ∧
          ∀ member ∈ path, member ∉ pending.erase node := by
    intro path follows noneLeft
    exact ⟨path,
      follows.congr fun member isMember =>
        (outside member (noneLeft member isMember)).2,
      noneLeft⟩
  have noneLeft_of_notPending :
      ∀ {path : List String},
        (∀ member ∈ path, member ∉ pending) →
        ∀ member ∈ path, member ∉ pending.erase node :=
    fun nonePending member isMember isLeft =>
      nonePending member isMember (List.mem_of_mem_erase isLeft)
  obtain ⟨heldBefore, ⟨rfl, rfl⟩ | notPending⟩ :=
    Sound.held_before weights prepared traceable.toSound isNearest notLeft held
  · rcases traceable.comesFrom heldBefore with rfl | ⟨before, isPrevious⟩
    · exact keptPath (.first traceable.startFirst) (by simpa using notLeft)
    · obtain ⟨notPending, _, beforeDistance, _, _, beforeHeld, _⟩ :=
        traceable.arrives isPrevious
      obtain ⟨path, follows, nonePending⟩ :=
        traceable.leadsBack notPending beforeHeld
      refine keptPath (.after isPrevious follows) ?_
      intro member isMember
      rcases List.mem_append.mp isMember with isEarlier | isLast
      · exact noneLeft_of_notPending nonePending member isEarlier
      · cases List.mem_singleton.mp isLast
        exact notLeft
  · obtain ⟨path, follows, nonePending⟩ :=
      traceable.leadsBack notPending heldBefore
    exact keptPath follows (noneLeft_of_notPending nonePending)

/-- Settling the nearest pending node keeps all settled nodes traceable. -/
theorem settle
    (closed : graph.Closed)
    (weights : graph.HasValidWeights)
    (prepared : weightedArcs graph = .ok arcs)
    (traceable : tentative.Traceable graph start pending)
    (isNearest : tentative.nearest? pending = some (node, distance)) :
    (Search.settle arcs pending tentative node distance).Traceable graph start
      (pending.erase node) where
  toSound := traceable.toSound.settle closed weights prepared isNearest
  startFirst :=
    (Sound.atStart_settle weights prepared traceable.toSound isNearest).2.trans
      traceable.startFirst
  comesFrom := by
    intro other otherDistance held
    rcases Sound.kept_or_joined weights prepared traceable.toSound isNearest
        other with keeps | ⟨_, _, _, _, _, comesFrom, _⟩
    · refine (traceable.comesFrom (keeps.1.symm.trans held)).imp_right ?_
      rintro ⟨before, isPrevious⟩
      exact ⟨before, keeps.2.trans isPrevious⟩
    · exact .inr ⟨node, comesFrom⟩
  arrives := arrives_settle weights prepared traceable isNearest
  leadsBack := leadsBack_settle weights prepared traceable isNearest

end Tentative.Traceable

end GraphScript.Search
