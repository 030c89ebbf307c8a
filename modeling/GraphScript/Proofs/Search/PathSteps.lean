import GraphScript.Proofs.Search.WalkSums
import Mathlib.Data.List.Forall2

namespace GraphScript

open Search

/-!
# The steps of a path and their cheapest edges

A path leads from each of its nodes to the next one. Several edges may allow
such a step. One of them is no heavier than the others, as edges are finitely
many and their weights can be compared.
-/

/-- One of some weights is not above the others. -/
theorem Search.exists_lightest
    {Sum : Type} [Weight Sum] [MonotoneWeight Sum]
    {first : Sum}
    {rest : List Sum}
    (areWeights : ∀ weight ∈ first :: rest, LawfulWeight.IsWeight weight) :
    ∃ lightest ∈ first :: rest, ∀ other ∈ first :: rest,
      AtMost lightest other := by
  induction rest generalizing first with
  | nil =>
      have firstIs := areWeights first (by simp)
      refine ⟨first, by simp, ?_⟩
      intro other member
      cases List.mem_singleton.mp member
      exact weight_atMost_refl firstIs
  | cons second others inductionHypothesis =>
      have firstIs := areWeights first (by simp)
      obtain ⟨lightest, member, isLightest⟩ :=
        inductionHypothesis fun weight later =>
          areWeights weight (List.mem_cons_of_mem _ later)
      have lightestIs := areWeights lightest (List.mem_cons_of_mem _ member)
      rcases MonotoneWeight.weight_total firstIs lightestIs with below | above
      · refine ⟨first, by simp, ?_⟩
        intro other isOther
        have otherIs := areWeights other isOther
        rcases List.mem_cons.mp isOther with rfl | later
        · exact weight_atMost_refl firstIs
        · exact MonotoneWeight.weight_trans firstIs lightestIs otherIs below
            (isLightest other later)
      · refine ⟨lightest, List.mem_cons_of_mem _ member, ?_⟩
        intro other isOther
        rcases List.mem_cons.mp isOther with rfl | later
        · exact above
        · exact isLightest other later

/-- The steps of a path, from each node to the next one. -/
def steps
    (path : List String) :
    List (String × String) :=
  path.zip path.tail

theorem steps_append_singleton
    (earlier : List String)
    (before node : String) :
    steps (earlier ++ [before] ++ [node]) =
      steps (earlier ++ [before]) ++ [(before, node)] := by
  induction earlier with
  | nil =>
      rfl
  | cons first rest inductionHypothesis =>
      cases rest with
      | nil =>
          rfl
      | cons second others =>
          exact congrArg ((first, second) :: ·) inductionHypothesis

namespace Graph

variable {Sum : Type} [Weight Sum] {graph : Graph}

/-- No edge for a step has less than the weight, which some edge for it has. -/
def IsCheapest
    (graph : Graph)
    (source target : String)
    (weight : Sum) :
    Prop :=
  graph.Joins source target weight ∧
    ∀ other, graph.Joins source target other → AtMost weight other

/-- The weights are those of cheapest edges for the steps of a path. -/
def AreCheapest
    (graph : Graph)
    (path : List String)
    (weights : List Sum) :
    Prop :=
  List.Forall₂ (fun step weight => graph.IsCheapest step.1 step.2 weight)
    (steps path) weights

theorem areCheapest_append_singleton_iff
    {earlier : List String}
    {before node : String}
    {weights : List Sum} :
    graph.AreCheapest (earlier ++ [before] ++ [node]) weights ↔
      ∃ others last,
        weights = others ++ [last] ∧
        graph.AreCheapest (earlier ++ [before]) others ∧
        graph.IsCheapest before node last := by
  unfold AreCheapest
  rw [steps_append_singleton, ← List.forall₂_reverse_iff, List.reverse_append]
  constructor
  · intro related
    obtain ⟨last, reversed, isLast, areOthers, isReverse⟩ :=
      List.forall₂_cons_left_iff.mp related
    refine ⟨reversed.reverse, last, ?_, ?_, isLast⟩
    · rw [← List.reverse_reverse weights, isReverse, List.reverse_cons]
    · rwa [← List.forall₂_reverse_iff, List.reverse_reverse]
  · rintro ⟨others, last, rfl, areOthers, isLast⟩
    rw [List.reverse_append]
    exact .cons isLast (List.forall₂_reverse_iff.mpr areOthers)

variable [MonotoneWeight Sum]

/-- Where an edge leads from one node to another, there is a cheapest one. -/
theorem HasValidWeights.exists_isCheapest
    {source target : String}
    {weight : Sum}
    (weights : graph.HasValidWeights)
    (joins : graph.Joins source target weight) :
    ∃ cheapest : Sum, graph.IsCheapest source target cheapest := by
  have preparable : ∃ arcs : List (Arc Sum), weightedArcs graph = .ok arcs :=
    exists_weightedArcs weights
  obtain ⟨arcs, prepared⟩ := preparable
  obtain ⟨labels, areLabels⟩ :
      ∃ labels : List Sum,
        ∀ other, other ∈ labels ↔ graph.Joins source target other := by
    refine ⟨(arcs.filter fun arc =>
      arc.source = source ∧ arc.target = target).map (·.label), ?_⟩
    intro other
    have isArc_iff :
        ⟨source, target, other⟩ ∈ arcs ↔ graph.Joins source target other :=
      mem_weightedArcs_iff prepared
    rw [← isArc_iff]
    simp only [List.mem_map, List.mem_filter, decide_eq_true_eq]
    constructor
    · rintro ⟨arc, ⟨isArc, rfl, rfl⟩, rfl⟩
      exact isArc
    · intro isArc
      exact ⟨_, ⟨isArc, rfl, rfl⟩, rfl⟩
  have areWeights : ∀ other ∈ labels, LawfulWeight.IsWeight other :=
    fun other member => weights.isWeight_of_joins ((areLabels other).mp member)
  have listed := (areLabels weight).mpr joins
  cases labels with
  | nil =>
      cases listed
  | cons first rest =>
      obtain ⟨cheapest, member, isLightest⟩ := exists_lightest areWeights
      exact ⟨cheapest, (areLabels cheapest).mp member,
        fun other joinsToo => isLightest other ((areLabels other).mpr joinsToo)⟩

end Graph

end GraphScript
