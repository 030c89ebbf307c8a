import GraphScript.Graph.Analysis
import GraphScript.Search.Failure

namespace GraphScript.Search

/-!
# What the algorithms require of a graph
-/

/-- What an algorithm is for. -/
inductive Purpose where
  | traversal
  | shortestPath
  deriving DecidableEq, Repr

/-- What a graph has to look like before an algorithm runs on it. -/
structure Requirements where
  algorithm : Algorithm
  purpose : Purpose
  /-- The only direction that is accepted, if not both are. -/
  direction : Option Direction
  weighted : Bool
  connected : Bool
  leastNodes : Nat
  mostNodes : Option Nat
  deriving DecidableEq, Repr

namespace Requirements

/-- Check the number of nodes. -/
def checkSize
    (requirements : Requirements)
    (found : Nat) :
    Except Failure Unit :=
  if found = 0 ∧ 0 < requirements.leastNodes then
    .error .emptyGraph
  else if found < requirements.leastNodes then
    .error
      (.tooFewNodes requirements.algorithm requirements.leastNodes found)
  else
    match requirements.mostNodes with
    | some most =>
        if most < found then
          .error (.tooManyNodes requirements.algorithm most found)
        else
          .ok ()
    | none =>
        .ok ()

/-- Check the direction of the edges. -/
def checkDirection
    (requirements : Requirements)
    (directed : Bool) :
    Except Failure Unit :=
  match requirements.direction, directed with
  | some .directed, false =>
      .error (.requiresDirected requirements.algorithm)
  | some .undirected, true =>
      .error (.requiresUndirected requirements.algorithm)
  | _, _ =>
      .ok ()

/--
The first requirement that a graph does not meet.

Size comes first, then direction, weights and connection.
-/
def check
    (requirements : Requirements)
    (graph : Graph) :
    Except Failure Unit := do
  requirements.checkSize graph.nodes.size
  requirements.checkDirection graph.directed
  if requirements.weighted && !graph.isWeighted then
    throw (.requiresWeighted requirements.algorithm)
  if requirements.connected && !graph.isConnected then
    throw (.notConnected requirements.algorithm)

end Requirements

namespace Algorithm

/-- The requirements of an algorithm. -/
def requirements
    (algorithm : Algorithm) :
    Requirements :=
  match algorithm with
  | .breadthFirst | .depthFirst =>
      { algorithm
        purpose := .traversal
        direction := none
        weighted := false
        connected := false
        leastNodes := 1
        mostNodes := none }
  | .dijkstra =>
      { algorithm
        purpose := .shortestPath
        direction := none
        weighted := true
        connected := false
        leastNodes := 2
        mostNodes := none }

end Algorithm

/-- The requirements of the algorithm with a given name. -/
def requirementsOf?
    (name : String) :
    Option Requirements :=
  (Algorithm.ofName? name).map Algorithm.requirements

/-- Check a graph against the algorithm with a given name. -/
def validate
    (name : String)
    (graph : Graph) :
    Except Failure Unit :=
  match Algorithm.ofName? name with
  | some algorithm => algorithm.requirements.check graph
  | none => .error (.unknownAlgorithm name)

/-- Whether an algorithm can run on a graph, and otherwise why not. -/
structure Suitability where
  requirements : Requirements
  failure : Option Failure

namespace Suitability

/-- Whether an algorithm can run. -/
def isValid
    (suitability : Suitability) :
    Bool :=
  suitability.failure.isNone

end Suitability

/-- The suitability of a graph for every algorithm. -/
def verdicts
    (graph : Graph) :
    List (Algorithm × Suitability) :=
  Algorithm.all.map fun algorithm =>
    let requirements := algorithm.requirements
    let failure :=
      match requirements.check graph with
      | .ok () => none
      | .error failure => some failure
    (algorithm, ⟨requirements, failure⟩)

end GraphScript.Search
