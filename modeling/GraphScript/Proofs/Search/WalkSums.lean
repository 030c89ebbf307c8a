import GraphScript.Proofs.Model.Outcome
import GraphScript.Proofs.NameMap
import GraphScript.Proofs.Search.Walks
import GraphScript.Search.Weight

namespace GraphScript

/-!
# Sums of weights along walks

The weight of an edge is read off its own attributes or the defaults, and an
edge without one weighs one unit. A walk adds the weights of its edges from left
to right, starting with zero, and has no sum if some sum on the way is not
finite. This is stated without the arcs that a search prepares, which are then
shown to carry the same weights.
-/

namespace Graph

/-- Every end of an edge is a node. -/
def Closed
    (graph : Graph) :
    Prop :=
  ∀ edge ∈ graph.edges,
    graph.hasNode edge.source = true ∧ graph.hasNode edge.target = true

/-- A graph has the nodes it lists. -/
theorem hasNode_iff
    {graph : Graph}
    {node : String} :
    graph.hasNode node = true ↔ node ∈ graph.nodeNames := by
  unfold hasNode NameMap.contains nodeNames
  rw [Option.isSome_iff_ne_none, ne_eq, NameMap.get?_eq_none_iff,
    Decidable.not_not]

/-- The weight that an edge states, or else the default that its graph states. -/
def statedWeight?
    (graph : Graph)
    (edge : Edge) :
    Option Scalar :=
  (edge.attributes.get? weightKey).or (graph.edgeDefaults.get? weightKey)

/-- Every weight that is stated is a number not below zero. -/
def HasValidWeights
    (graph : Graph) :
    Prop :=
  ∀ edge ∈ graph.edges, ∀ value, graph.statedWeight? edge = some value →
    ∃ number : Float, value = .number number ∧ 0.0 ≤ number

end Graph

namespace Search

/-! ## The laws of weights -/

variable {Sum : Type} [Weight Sum]

/-- A sum is not above another one. -/
def AtMost
    (left right : Sum) :
    Prop :=
  Weight.less right left = false

/--
The laws of weights and of their sums, which are called distances.

Distances are linearly ordered. Adding a weight never makes a distance less, and
it keeps the order of distances. A sum below a finite one is finite.
-/
class LawfulWeight (Sum : Type) [Weight Sum] where
  IsWeight : Sum → Prop
  IsDistance : Sum → Prop
  unit_isWeight : IsWeight Weight.unit
  ofNumber?_isWeight :
    ∀ number : Float, 0.0 ≤ number →
      ∃ weight, Weight.ofNumber? number = some weight ∧ IsWeight weight
  zero_isDistance : IsDistance Weight.zero
  add?_isDistance :
    ∀ {distance weight sum}, IsDistance distance → IsWeight weight →
      Weight.add? distance weight = some sum → IsDistance sum
  atMost_total :
    ∀ {left right}, IsDistance left → IsDistance right →
      AtMost left right ∨ AtMost right left
  atMost_trans :
    ∀ {left middle right}, IsDistance left → IsDistance middle →
      IsDistance right → AtMost left middle → AtMost middle right →
      AtMost left right
  atMost_antisymm :
    ∀ {left right}, IsDistance left → IsDistance right →
      AtMost left right → AtMost right left → left = right
  atMost_add? :
    ∀ {distance weight sum}, IsDistance distance → IsWeight weight →
      Weight.add? distance weight = some sum → AtMost distance sum
  add?_mono :
    ∀ {distance other weight sum}, IsDistance distance → IsDistance other →
      IsWeight weight → AtMost distance other →
      Weight.add? other weight = some sum →
      ∃ lesser, Weight.add? distance weight = some lesser ∧ AtMost lesser sum

/-- Weights are compared like distances, and a heavier one never adds less. -/
class MonotoneWeight (Sum : Type) [Weight Sum] extends LawfulWeight Sum where
  weight_total :
    ∀ {left right}, IsWeight left → IsWeight right →
      AtMost left right ∨ AtMost right left
  weight_trans :
    ∀ {left middle right}, IsWeight left → IsWeight middle → IsWeight right →
      AtMost left middle → AtMost middle right → AtMost left right
  add?_mono_weight :
    ∀ {distance lighter heavier sum}, IsDistance distance → IsWeight lighter →
      IsWeight heavier → AtMost lighter heavier →
      Weight.add? distance heavier = some sum →
      ∃ lesser, Weight.add? distance lighter = some lesser ∧ AtMost lesser sum

/-- The sum of some weights from left to right, if all sums on the way are finite. -/
def total?
    (weights : List Sum) :
    Option Sum :=
  weights.foldlM Weight.add? Weight.zero

/-- A total with one more weight is the total before it and that weight. -/
theorem total?_append_singleton
    {weights : List Sum}
    {weight sum : Sum} :
    total? (weights ++ [weight]) = some sum ↔
      ∃ total,
        total? weights = some total ∧ Weight.add? total weight = some sum := by
  simp [total?, List.foldlM_append, Option.bind_eq_some_iff]

section Order

variable [LawfulWeight Sum] {left middle right : Sum}

/-- Every distance is at most itself. -/
theorem atMost_refl
    (isDistance : LawfulWeight.IsDistance left) :
    AtMost left left :=
  (LawfulWeight.atMost_total isDistance isDistance).elim id id

/-- Every weight is at most itself. -/
theorem weight_atMost_refl
    {Sum : Type} [Weight Sum] [MonotoneWeight Sum]
    {weight : Sum}
    (isWeight : LawfulWeight.IsWeight weight) :
    AtMost weight weight :=
  (MonotoneWeight.weight_total isWeight isWeight).elim id id

/-- A shorter distance is at most a longer one. -/
theorem atMost_of_less
    (leftIsDistance : LawfulWeight.IsDistance left)
    (rightIsDistance : LawfulWeight.IsDistance right)
    (isLess : Weight.less left right = true) :
    AtMost left right := by
  rcases LawfulWeight.atMost_total leftIsDistance rightIsDistance with
    below | above
  · exact below
  · rw [AtMost, isLess] at above
    cases above

/-- What is shorter than something shorter is shorter. -/
theorem less_trans
    (leftIsDistance : LawfulWeight.IsDistance left)
    (middleIsDistance : LawfulWeight.IsDistance middle)
    (rightIsDistance : LawfulWeight.IsDistance right)
    (leftLess : Weight.less left middle = true)
    (middleLess : Weight.less middle right = true) :
    Weight.less left right = true := by
  apply Bool.of_not_eq_false
  intro notLess
  have below := atMost_of_less leftIsDistance middleIsDistance leftLess
  have above : AtMost right middle :=
    LawfulWeight.atMost_trans rightIsDistance leftIsDistance middleIsDistance
      notLess below
  rw [AtMost, middleLess] at above
  cases above

end Order

end Search

namespace Graph

open Search

variable {Sum : Type} [Weight Sum]

/-- An edge has a weight, of its own, by default or for want of any. -/
def Weighs
    (graph : Graph)
    (edge : Edge)
    (weight : Sum) :
    Prop :=
  graph.statedWeight? edge = none ∧ weight = Weight.unit ∨
    ∃ number,
      graph.statedWeight? edge = some (.number number) ∧
      Weight.ofNumber? number = some weight

/-- An edge of some weight can be followed from one node to another. -/
def Joins
    (graph : Graph)
    (source target : String)
    (weight : Sum) :
    Prop :=
  ∃ edge ∈ graph.edges,
    edge.Leads graph.directed source target ∧ graph.Weighs edge weight

/-- A walk leads from the start to a node along edges with the weights. -/
inductive Walk
    (graph : Graph)
    (start : String) :
    String → List Sum → Prop
  | here :
      Walk graph start start []
  | along
      {node next : String}
      {weights : List Sum}
      {weight : Sum}
      (walk : Walk graph start node weights)
      (joins : graph.Joins node next weight) :
      Walk graph start next (weights ++ [weight])

/-- Some walk from the start to a node has the sum. -/
inductive WalkSum
    (graph : Graph)
    (start : String) :
    String → Sum → Prop
  | here :
      WalkSum graph start start Weight.zero
  | along
      {node next : String}
      {total weight sum : Sum}
      (walk : WalkSum graph start node total)
      (joins : graph.Joins node next weight)
      (isSum : Weight.add? total weight = some sum) :
      WalkSum graph start next sum

/-- A sum is the least one of all walks from the start to a node. -/
def IsLeastSum
    (graph : Graph)
    (start node : String)
    (sum : Sum) :
    Prop :=
  graph.WalkSum start node sum ∧
    ∀ other, graph.WalkSum start node other → AtMost sum other

/-- What a search ought to report for a node: its least sum, if there is any. -/
def ReportsLeast
    (graph : Graph)
    (start node : String) :
    Option Sum → Prop
  | some sum => graph.IsLeastSum start node sum
  | none => ∀ sum : Sum, ¬ graph.WalkSum start node sum

variable {graph : Graph} {edge : Edge}

/-- The sums of walks are the totals of their weights from left to right. -/
theorem walkSum_iff
    {start node : String}
    {sum : Sum} :
    graph.WalkSum start node sum ↔
      ∃ weights, graph.Walk start node weights ∧ total? weights = some sum := by
  constructor
  · intro walkSum
    induction walkSum with
    | here =>
        exact ⟨[], .here, rfl⟩
    | along _ joins isSum inductionHypothesis =>
        obtain ⟨weights, walk, isTotal⟩ := inductionHypothesis
        exact ⟨_, walk.along joins, total?_append_singleton.mpr ⟨_, isTotal, isSum⟩⟩
  · rintro ⟨weights, walk, isTotal⟩
    induction walk generalizing sum with
    | here =>
        cases isTotal
        exact .here
    | along _ joins inductionHypothesis =>
        obtain ⟨total, isEarlier, isSum⟩ := total?_append_singleton.mp isTotal
        exact .along (inductionHypothesis isEarlier) joins isSum

/-- The effective attributes of an edge hold the weight stated for it. -/
theorem get?_effectiveEdgeAttributes
    (graph : Graph)
    (edge : Edge) :
    (graph.effectiveEdgeAttributes edge).get? weightKey =
      graph.statedWeight? edge :=
  NameMap.get?_merge graph.edgeDefaults edge.attributes weightKey

/-- A weight is prepared for an edge exactly if the edge has that weight. -/
theorem weightOf_eq_ok_iff
    {weight : Sum} :
    weightOf graph edge = .ok weight ↔ graph.Weighs edge weight := by
  unfold weightOf Weighs
  rw [get?_effectiveEdgeAttributes]
  cases stated : graph.statedWeight? edge with
  | none =>
      simp [eq_comm]
  | some value =>
      cases value with
      | number number =>
          cases read : (Weight.ofNumber? number : Option Sum) with
          | none => simp [read]
          | some own => simp [read]
      | word name =>
          simp
      | string contents =>
          simp

/-- In a closed graph an edge leads to a node of it. -/
theorem Closed.mem_nodeNames_of_joins
    {source target : String}
    {weight : Sum}
    (closed : graph.Closed)
    (joins : graph.Joins source target weight) :
    target ∈ graph.nodeNames := by
  obtain ⟨edge, isEdge, leads, _⟩ := joins
  rw [← hasNode_iff]
  rcases leads with ⟨_, rfl⟩ | ⟨_, _, rfl⟩
  · exact (closed edge isEdge).2
  · exact (closed edge isEdge).1

variable [LawfulWeight Sum]

/-- Where all weights are valid, every edge has one. -/
theorem HasValidWeights.exists_weighs
    (weights : graph.HasValidWeights)
    (isEdge : edge ∈ graph.edges) :
    ∃ weight : Sum, graph.Weighs edge weight := by
  cases stated : graph.statedWeight? edge with
  | none =>
      exact ⟨Weight.unit, .inl ⟨stated, rfl⟩⟩
  | some value =>
      obtain ⟨number, rfl, notBelowZero⟩ := weights edge isEdge value stated
      have readable :
          ∃ weight : Sum,
            Weight.ofNumber? number = some weight ∧
            LawfulWeight.IsWeight weight :=
        LawfulWeight.ofNumber?_isWeight number notBelowZero
      obtain ⟨weight, read, _⟩ := readable
      exact ⟨weight, .inr ⟨number, stated, read⟩⟩

/-- The weight of an edge is one that edges can have. -/
theorem HasValidWeights.isWeight_of_weighs
    {weight : Sum}
    (weights : graph.HasValidWeights)
    (isEdge : edge ∈ graph.edges)
    (weighs : graph.Weighs edge weight) :
    LawfulWeight.IsWeight weight := by
  rcases weighs with ⟨_, rfl⟩ | ⟨number, stated, read⟩
  · exact LawfulWeight.unit_isWeight
  · obtain ⟨same, isNumber, notBelowZero⟩ := weights edge isEdge _ stated
    cases isNumber
    have readable :
        ∃ other : Sum,
          Weight.ofNumber? number = some other ∧
          LawfulWeight.IsWeight other :=
      LawfulWeight.ofNumber?_isWeight number notBelowZero
    obtain ⟨other, readAgain, isWeight⟩ := readable
    rw [read] at readAgain
    cases readAgain
    exact isWeight

/-- The weight between two joined nodes is one that edges can have. -/
theorem HasValidWeights.isWeight_of_joins
    {source target : String}
    {weight : Sum}
    (weights : graph.HasValidWeights)
    (joins : graph.Joins source target weight) :
    LawfulWeight.IsWeight weight := by
  obtain ⟨edge, isEdge, _, weighs⟩ := joins
  exact weights.isWeight_of_weighs isEdge weighs

/-- All weights along a walk are ones that edges can have. -/
theorem HasValidWeights.isWeight_of_walk
    {start node : String}
    {walked : List Sum}
    (weights : graph.HasValidWeights)
    (walk : graph.Walk start node walked) :
    ∀ weight ∈ walked, LawfulWeight.IsWeight weight := by
  induction walk with
  | here =>
      nofun
  | along _ joins inductionHypothesis =>
      intro weight member
      rcases List.mem_append.mp member with earlier | last
      · exact inductionHypothesis weight earlier
      · cases List.mem_singleton.mp last
        exact weights.isWeight_of_joins joins

/-- The sum of a walk is a distance. -/
theorem HasValidWeights.isDistance_of_walkSum
    {start node : String}
    {sum : Sum}
    (weights : graph.HasValidWeights)
    (walk : graph.WalkSum start node sum) :
    LawfulWeight.IsDistance sum := by
  induction walk with
  | here =>
      exact LawfulWeight.zero_isDistance
  | along _ joins isSum inductionHypothesis =>
      exact LawfulWeight.add?_isDistance inductionHypothesis
        (weights.isWeight_of_joins joins) isSum

/-- No walk is shorter than staying at its start. -/
theorem HasValidWeights.zero_atMost_walkSum
    {start node : String}
    {sum : Sum}
    (weights : graph.HasValidWeights)
    (walk : graph.WalkSum start node sum) :
    AtMost Weight.zero sum := by
  induction walk with
  | here =>
      exact atMost_refl LawfulWeight.zero_isDistance
  | along walk joins isSum inductionHypothesis =>
      have totalIs := weights.isDistance_of_walkSum walk
      have weightIs := weights.isWeight_of_joins joins
      exact LawfulWeight.atMost_trans LawfulWeight.zero_isDistance totalIs
        (LawfulWeight.add?_isDistance totalIs weightIs isSum)
        inductionHypothesis (LawfulWeight.atMost_add? totalIs weightIs isSum)

end Graph

namespace Search

variable {Sum : Type} [Weight Sum]

/-- The arcs of a graph carry the weights of its edges. -/
theorem mem_weightedArcs_iff
    {graph : Graph}
    {arcs : List (Arc Sum)}
    (prepared : weightedArcs graph = .ok arcs)
    {arc : Arc Sum} :
    arc ∈ arcs ↔ graph.Joins arc.source arc.target arc.label := by
  obtain ⟨groups, areGroups, rfl⟩ := map_eq_ok.mp prepared
  rw [List.mem_flatten]
  constructor
  · rintro ⟨group, isGroup, inGroup⟩
    obtain ⟨edge, isEdge, ofEdge⟩ := exists_of_mem_mapM areGroups isGroup
    obtain ⟨weight, weighs, rfl⟩ := map_eq_ok.mp ofEdge
    obtain ⟨leads, rfl⟩ := Arc.mem_ofEdge_iff.mp inGroup
    exact ⟨edge, isEdge, leads, Graph.weightOf_eq_ok_iff.mp weighs⟩
  · rintro ⟨edge, isEdge, leads, weighs⟩
    have ofEdge :
        weightedArcsOf graph edge =
          .ok (Arc.ofEdge graph.directed edge arc.label) :=
      map_eq_ok.mpr ⟨arc.label, Graph.weightOf_eq_ok_iff.mpr weighs, rfl⟩
    exact ⟨_, mem_of_mapM areGroups isEdge ofEdge,
      Arc.mem_ofEdge_iff.mpr ⟨leads, rfl⟩⟩

/-- Where all weights are valid, the arcs can be prepared. -/
theorem exists_weightedArcs
    [LawfulWeight Sum]
    {graph : Graph}
    (weights : graph.HasValidWeights) :
    ∃ arcs : List (Arc Sum), weightedArcs graph = .ok arcs := by
  have succeeds :
      ∀ edge ∈ graph.edges,
        ∃ group : List (Arc Sum), weightedArcsOf graph edge = .ok group := by
    intro edge isEdge
    have weighed : ∃ weight : Sum, graph.Weighs edge weight :=
      weights.exists_weighs isEdge
    obtain ⟨weight, weighs⟩ := weighed
    exact ⟨_, map_eq_ok.mpr ⟨weight, Graph.weightOf_eq_ok_iff.mpr weighs, rfl⟩⟩
  obtain ⟨groups, areGroups⟩ := exists_mapM_of_forall succeeds
  exact ⟨groups.flatten, map_eq_ok.mpr ⟨groups, areGroups, rfl⟩⟩

end Search

end GraphScript
