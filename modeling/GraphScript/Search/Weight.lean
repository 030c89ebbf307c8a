import GraphScript.Graph.Analysis
import GraphScript.Search.Failure

namespace GraphScript.Search

/-!
# Weights of edges

A search for shortest paths needs little of its weights: a reading of numbers as
weights, a comparison, and an addition that may have no finite result. It is
written for any type with these, and runs with floating-point numbers.
-/

/-- The operations on weights and on sums of weights. -/
class Weight (Sum : Type) where
  /-- The weight that a number stands for, unless it is below zero. -/
  ofNumber? : Float → Option Sum
  /-- The weight of an edge that has none. -/
  unit : Sum
  /-- The distance from a node to itself. -/
  zero : Sum
  /-- A distance with a weight added to it, if the sum is finite. -/
  add? : Sum → Sum → Option Sum
  less : Sum → Sum → Bool

instance : Weight Float where
  ofNumber? number := if number < 0.0 then none else some number
  unit := 1.0
  zero := 0.0
  add? distance weight :=
    let sum := distance + weight
    if sum.isFinite then some sum else none
  less left right := left < right

variable {Sum : Type} [Weight Sum]

/-- The weight of an edge, of its own or by default. -/
def weightOf
    (graph : Graph)
    (edge : Edge) :
    Except Failure Sum :=
  match (graph.effectiveEdgeAttributes edge).get? Graph.weightKey with
  | none =>
      .ok Weight.unit
  | some (.number number) =>
      match Weight.ofNumber? number with
      | some weight =>
          .ok weight
      | none =>
          .error (.negativeWeight edge.source edge.target number)
  | some _ =>
      .error (.nonNumericWeight edge.source edge.target)

/-- The arcs of one edge with its weight. -/
def weightedArcsOf
    (graph : Graph)
    (edge : Edge) :
    Except Failure (List (Arc Sum)) :=
  (weightOf graph edge).map (Arc.ofEdge graph.directed edge)

/-- The arcs of a graph with their weights, if all of them are valid. -/
def weightedArcs
    (graph : Graph) :
    Except Failure (List (Arc Sum)) :=
  (graph.edges.mapM (weightedArcsOf graph)).map List.flatten

end GraphScript.Search
