import GraphScript.Proofs.Search.Relaxation

namespace GraphScript

/-!
# Weights without sums

A weight that has no sum with any distance never shortens a distance. So a
search for shortest paths goes the same way when edges with such weights are
left out of the graph.
-/

namespace Search

variable {Sum : Type} [Weight Sum]

/-- A weight has no sum with any distance. -/
def Inert
    (weight : Sum) :
    Prop :=
  ∀ distance : Sum, Weight.add? distance weight = none

/-- Some of the weights of arcs are kept, and all others are inert. -/
def OthersInert
    (kept : Sum → Bool)
    (arcs : List (Arc Sum)) :
    Prop :=
  ∀ arc ∈ arcs, kept arc.label = false → Inert arc.label

/-- The arcs whose weights are kept. -/
def keptArcs
    (kept : Sum → Bool)
    (arcs : List (Arc Sum)) :
    List (Arc Sum) :=
  arcs.filter fun arc => kept arc.label

variable
  {kept : Sum → Bool}
  {arcs : List (Arc Sum)}
  {pending visited : List String}
  {node : String}
  {distance : Sum}
  {tentative : Tentative Sum}

/-! ## Searching without inert arcs -/

theorem relax_of_inert
    {weight : Sum}
    (inert : Inert weight)
    (target : String) :
    tentative.relax pending node distance (target, weight) = tentative := by
  simp only [Tentative.relax, inert distance]

theorem relaxAll_cons
    (arc : Arc Sum)
    (rest : List (Arc Sum)) :
    tentative.relaxAll (arc :: rest) pending node distance =
      if arc.source = node then
        (tentative.relax pending node distance (arc.target, arc.label)).relaxAll
          rest pending node distance
      else
        tentative.relaxAll rest pending node distance := by
  by_cases leaves : arc.source = node
  · simp [Tentative.relaxAll, Arc.leaving, leaves]
  · simp [Tentative.relaxAll, Arc.leaving, leaves]

/-- Relaxing the arcs that leave a node does not depend on inert ones. -/
theorem relaxAll_keptArcs
    (inert : OthersInert kept arcs) :
    tentative.relaxAll (keptArcs kept arcs) pending node distance =
      tentative.relaxAll arcs pending node distance := by
  induction arcs generalizing tentative with
  | nil =>
      rfl
  | cons arc rest inductionHypothesis =>
      have restInert : OthersInert kept rest :=
        fun other member => inert other (List.mem_cons_of_mem _ member)
      cases isKept : kept arc.label with
      | true =>
          have first :
              keptArcs kept (arc :: rest) = arc :: keptArcs kept rest :=
            List.filter_cons_of_pos isKept
          rw [first, relaxAll_cons, relaxAll_cons,
            inductionHypothesis restInert, inductionHypothesis restInert]
      | false =>
          have left : keptArcs kept (arc :: rest) = keptArcs kept rest :=
            List.filter_cons_of_neg (ne_true_of_eq_false isKept)
          have unchanged :
              tentative.relax pending node distance (arc.target, arc.label) =
                tentative :=
            relax_of_inert (inert arc List.mem_cons_self isKept) arc.target
          rw [left, relaxAll_cons, unchanged, ite_self,
            inductionHypothesis restInert]

theorem settle_keptArcs
    (inert : OthersInert kept arcs) :
    settle (keptArcs kept arcs) pending tentative node distance =
      settle arcs pending tentative node distance :=
  relaxAll_keptArcs inert

theorem settledAt_keptArcs
    (inert : OthersInert kept arcs) :
    settledAt (keptArcs kept arcs) pending visited tentative node distance =
      settledAt arcs pending visited tentative node distance := by
  unfold settledAt
  rw [settle_keptArcs inert]

/-- A search settles the same nodes in the same way without inert arcs. -/
theorem settleFrom_keptArcs
    {target : Option String}
    (inert : OthersInert kept arcs) :
    settleFrom (keptArcs kept arcs) target pending visited tentative =
      settleFrom arcs target pending visited tentative := by
  induction pending, visited, tentative using settleFrom.induct arcs target with
  | case1 pending visited tentative none =>
      rw [settleFrom_eq_of_none none, settleFrom_eq_of_none none]
  | case2 pending visited tentative node distance isNearest shorter isTarget =>
      rw [settleFrom_eq_of_target isNearest isTarget,
        settleFrom_eq_of_target isNearest isTarget, settle_keptArcs inert,
        settledAt_keptArcs inert]
  | case3 pending visited tentative node distance isNearest shorter left next
      isOther later last goesOn inductionHypothesis =>
      rw [settleFrom_eq_of_other isNearest isOther,
        settleFrom_eq_of_other isNearest isOther, settle_keptArcs inert,
        settledAt_keptArcs inert]
      have later :
          settleFrom (keptArcs kept arcs) target (pending.erase node)
              (visited ++ [node])
              (settle arcs pending tentative node distance) =
            settleFrom arcs target (pending.erase node) (visited ++ [node])
              (settle arcs pending tentative node distance) :=
        inductionHypothesis
      rw [later]

end Search

/-! ## Graphs without inert edges -/

namespace Graph

open Search

variable {Sum : Type} [Weight Sum]

/-- An edge is kept unless it has a weight that is not. -/
def keepsEdge
    (graph : Graph)
    (kept : Sum → Bool)
    (edge : Edge) :
    Bool :=
  match (weightOf graph edge : Except Failure Sum) with
  | .ok weight => kept weight
  | .error _ => true

/-- The graph with only those edges whose weights are kept. -/
def keeping
    (graph : Graph)
    (kept : Sum → Bool) :
    Graph :=
  { graph with edges := graph.edges.filter (graph.keepsEdge kept) }

variable
  {graph : Graph}
  {kept : Sum → Bool}
  {arcs : List (Arc Sum)}

theorem keepsEdge_eq
    {edge : Edge}
    {weight : Sum}
    (weighs : graph.Weighs edge weight) :
    graph.keepsEdge kept edge = kept weight := by
  unfold keepsEdge
  rw [weightOf_eq_ok_iff.mpr weighs]

theorem Closed.keeping
    (closed : graph.Closed)
    (kept : Sum → Bool) :
    (graph.keeping kept).Closed :=
  fun edge isEdge => closed edge (List.mem_filter.mp isEdge).1

theorem joins_keeping_iff
    {source target : String}
    {weight : Sum} :
    (graph.keeping kept).Joins source target weight ↔
      graph.Joins source target weight ∧ kept weight = true := by
  constructor
  · rintro ⟨edge, isEdge, leads, weighs⟩
    obtain ⟨isEdge, isKept⟩ := List.mem_filter.mp isEdge
    have weighs : graph.Weighs edge weight := weighs
    rw [keepsEdge_eq weighs] at isKept
    exact ⟨⟨edge, isEdge, leads, weighs⟩, isKept⟩
  · rintro ⟨⟨edge, isEdge, leads, weighs⟩, isKept⟩
    exact ⟨edge,
      List.mem_filter.mpr ⟨isEdge, (keepsEdge_eq weighs).trans isKept⟩, leads,
      weighs⟩

/-- The walks that are left are those along kept weights. -/
theorem walk_keeping_iff
    {start node : String}
    {walked : List Sum} :
    (graph.keeping kept).Walk start node walked ↔
      graph.Walk start node walked ∧
        ∀ weight ∈ walked, kept weight = true := by
  constructor
  · intro walk
    induction walk with
    | here =>
        exact ⟨.here, nofun⟩
    | along _ joins inductionHypothesis =>
        obtain ⟨walk, areKept⟩ := inductionHypothesis
        obtain ⟨joins, isKept⟩ := joins_keeping_iff.mp joins
        refine ⟨walk.along joins, ?_⟩
        simpa [or_imp, forall_and, isKept] using areKept
  · rintro ⟨walk, areKept⟩
    induction walk with
    | here =>
        exact .here
    | along _ joins inductionHypothesis =>
        simp only [List.mem_append, or_imp, forall_and, List.mem_singleton,
          forall_eq] at areKept
        exact (inductionHypothesis areKept.1).along
          (joins_keeping_iff.mpr ⟨joins, areKept.2⟩)

/-- Every edge has a weight if the arcs of the graph can be prepared. -/
theorem exists_weighs_of_prepared
    (prepared : weightedArcs graph = .ok arcs)
    {edge : Edge}
    (isEdge : edge ∈ graph.edges) :
    ∃ weight : Sum, graph.Weighs edge weight := by
  obtain ⟨groups, areGroups, _⟩ := map_eq_ok.mp prepared
  obtain ⟨group, ofEdge⟩ := exists_of_mapM areGroups isEdge
  obtain ⟨weight, isWeight, _⟩ := map_eq_ok.mp ofEdge
  exact ⟨weight, weightOf_eq_ok_iff.mp isWeight⟩

/-- All arcs of an edge are kept, or none of them is. -/
theorem keptArcs_of_edge
    {edge : Edge}
    {group : List (Arc Sum)}
    (ofEdge : weightedArcsOf graph edge = .ok group) :
    keptArcs kept group = if graph.keepsEdge kept edge then group else [] := by
  obtain ⟨weight, isWeight, rfl⟩ := map_eq_ok.mp ofEdge
  rw [keepsEdge_eq (weightOf_eq_ok_iff.mp isWeight), keptArcs]
  have labels :
      ∀ arc ∈ Arc.ofEdge graph.directed edge weight,
        kept arc.label = kept weight :=
    fun arc member => congrArg kept (Arc.mem_ofEdge_iff.mp member).2
  cases isKept : kept weight with
  | true =>
      rw [if_pos rfl, List.filter_eq_self]
      exact fun arc member => (labels arc member).trans isKept
  | false =>
      rw [if_neg Bool.false_ne_true, List.filter_eq_nil_iff]
      intro arc member
      rw [labels arc member, isKept]
      exact Bool.false_ne_true

theorem exists_groups_keeping
    {edges : List Edge}
    {groups : List (List (Arc Sum))}
    (areGroups : edges.mapM (weightedArcsOf graph) = .ok groups) :
    ∃ left,
      (edges.filter (graph.keepsEdge kept)).mapM (weightedArcsOf graph) =
        .ok left ∧
      left.flatten = keptArcs kept groups.flatten := by
  induction edges generalizing groups with
  | nil =>
      cases areGroups
      exact ⟨[], rfl, rfl⟩
  | cons edge rest inductionHypothesis =>
      rw [List.mapM_cons] at areGroups
      obtain ⟨group, ofEdge, areGroups⟩ := bind_eq_ok.mp areGroups
      obtain ⟨others, areOthers, areGroups⟩ := bind_eq_ok.mp areGroups
      cases areGroups
      obtain ⟨left, isLeft, sameLeft⟩ := inductionHypothesis areOthers
      have split :
          keptArcs kept (group :: others).flatten =
            keptArcs kept group ++ left.flatten := by
        rw [sameLeft]
        exact List.filter_append group others.flatten
      rw [split, keptArcs_of_edge ofEdge]
      by_cases isKept : graph.keepsEdge kept edge = true
      · refine ⟨group :: left, ?_, ?_⟩
        · rw [List.filter_cons_of_pos isKept, List.mapM_cons, ofEdge, isLeft]
          rfl
        · rw [if_pos isKept, List.flatten_cons]
      · refine ⟨left, ?_, ?_⟩
        · rw [List.filter_cons_of_neg isKept, isLeft]
        · rw [if_neg isKept, List.nil_append]

/-- The arcs of the edges that are left are the arcs that are kept. -/
theorem weightedArcs_keeping
    (prepared : weightedArcs graph = .ok arcs) :
    weightedArcs (graph.keeping kept) = .ok (keptArcs kept arcs) := by
  obtain ⟨groups, areGroups, rfl⟩ := map_eq_ok.mp prepared
  obtain ⟨left, isLeft, sameLeft⟩ := exists_groups_keeping areGroups
  exact map_eq_ok.mpr ⟨left, isLeft, sameLeft⟩

end Graph

end GraphScript
