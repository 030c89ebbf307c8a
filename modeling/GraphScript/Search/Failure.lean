import GraphScript.Decimal.Layout
import GraphScript.Search.Algorithm

namespace GraphScript.Search

/-!
# Why a search does not run
-/

/-- The form of a resolved argument. -/
inductive ArgumentForm where
  | variableValue
  | graph
  | node
  | scalar
  | number
  deriving DecidableEq, Repr

namespace ArgumentForm

/-- What a form is called in messages. -/
def text :
    ArgumentForm →
    String
  | .variableValue => "variable"
  | .graph => "graph"
  | .node => "node"
  | .scalar => "scalar"
  | .number => "number"

end ArgumentForm

/-- What an argument of a search has to be. -/
inductive ArgumentRole where
  | nodePath
  | graphName
  | targetNode
  | algorithmName
  deriving DecidableEq, Repr

namespace ArgumentRole

/-- What is required, in words. -/
def text :
    ArgumentRole →
    String
  | .nodePath => "a node path such as g.a"
  | .graphName => "a graph id"
  | .targetNode => "a node of the start graph"
  | .algorithmName => "an algorithm name"

end ArgumentRole

/-- The reasons for which a search refuses to run. -/
inductive Failure where
  | emptyGraph
  | tooFewNodes (algorithm : Algorithm) (least found : Nat)
  | tooManyNodes (algorithm : Algorithm) (most found : Nat)
  | startNotFound (node : String)
  | targetNotFound (node : String)
  | negativeWeight (source target : String) (weight : Float)
  | nonNumericWeight (source target : String)
  | requiresDirected (algorithm : Algorithm)
  | requiresUndirected (algorithm : Algorithm)
  | requiresWeighted (algorithm : Algorithm)
  | notConnected (algorithm : Algorithm)
  | unknownAlgorithm (name : String)
  | unknownGraph (id : String)
  | missingGraph
  | badArgument (key : String) (role : ArgumentRole) (found : ArgumentForm)
  deriving Repr

namespace Failure

/-- The wording of a failure. -/
def message :
    Failure →
    String
  | .emptyGraph =>
      "Graph has no nodes"
  | .tooFewNodes algorithm least found =>
      s!"{algorithm.text} requires at least {least} nodes, got {found}"
  | .tooManyNodes algorithm most found =>
      s!"{algorithm.text} supports at most {most} nodes, got {found}"
  | .startNotFound node =>
      s!"Start node '{node}' not found in graph"
  | .targetNotFound node =>
      s!"Target node '{node}' not found in graph"
  | .negativeWeight source target weight =>
      s!"negative weight {Decimal.plainText weight} on edge {source} -> {target}"
  | .nonNumericWeight source target =>
      s!"non-numeric weight on edge {source} -> {target}"
  | .requiresDirected algorithm =>
      s!"{algorithm.text} requires a directed graph"
  | .requiresUndirected algorithm =>
      s!"{algorithm.text} requires an undirected graph"
  | .requiresWeighted algorithm =>
      s!"{algorithm.text} requires weighted edges"
  | .notConnected algorithm =>
      s!"{algorithm.text} requires a connected graph"
  | .unknownAlgorithm name =>
      s!"unknown algorithm '{name}'"
  | .unknownGraph id =>
      s!"unknown graph '{id}'"
  | .missingGraph =>
      "expected a 'start' node path or a 'graph' argument"
  | .badArgument key role found =>
      s!"argument '{key}' must be {role.text}, found {found.text}"

end Failure

end GraphScript.Search
