import GraphScript.Registry
import GraphScript.Search.Encoding

namespace GraphScript.Search

/-!
# The commands that search graphs

Every algorithm is a command under its short and its long name. The command
`animate` takes its algorithm from an argument or infers it from the others.
-/

/-- The keys that give the start of a search. -/
def startKeys :
    List String :=
  ["start", "start_node", "source"]

/-- The keys that give the target of a search. -/
def targetKeys :
    List String :=
  ["target", "target_node", "destination"]

/-- The key that gives the graph of a search without a start. -/
def graphKeys :
    List String :=
  ["graph"]

/-- The key that gives the algorithm. -/
def algorithmKeys :
    List String :=
  ["algorithm"]

/-- The first argument that has one of the keys. -/
def argument?
    (arguments : List ResolvedArgument)
    (keys : List String) :
    Option ResolvedArgument :=
  arguments.find? fun argument => argument.key ∈ keys

/-- The failure of an argument that is not what its role requires. -/
def badArgument
    (argument : ResolvedArgument)
    (role : ArgumentRole) :
    Failure :=
  .badArgument argument.key role argument.value.form

/-- The graph that the arguments name, and the start node if they name one. -/
def address
    (arguments : List ResolvedArgument) :
    Except Failure (String × Option String) :=
  match argument? arguments startKeys with
  | some argument =>
      match argument.value with
      | .node graph name _ => .ok (graph, some name)
      | _ => .error (badArgument argument .nodePath)
  | none =>
      match argument? arguments graphKeys with
      | some argument =>
          match argument.value with
          | .graph id => .ok (id, none)
          | _ => .error (badArgument argument .graphName)
      | none =>
          .error .missingGraph

/-- The graph with a given name, which has to exist. -/
def graphOf
    (model : Model)
    (id : String) :
    Except Failure Graph :=
  match model.get? id with
  | some graph => .ok graph
  | none => .error (.unknownGraph id)

/-- The start node, which is the first node of the graph if none is named. -/
def startOf
    (graph : Graph)
    (named : Option String) :
    Except Failure String :=
  match named, graph.nodeNames with
  | some node, _ => .ok node
  | none, first :: _ => .ok first
  | none, [] => .error .emptyGraph

/-- The target that the arguments name, which has to be a node of the graph. -/
def targetOf
    (graph : Graph)
    (arguments : List ResolvedArgument) :
    Except Failure (Option String) :=
  match argument? arguments targetKeys with
  | none =>
      .ok none
  | some argument =>
      match argument.value with
      | .node owner name _ =>
          if owner = graph.id then
            .ok (some name)
          else
            .error (badArgument argument .targetNode)
      | _ =>
          .error (badArgument argument .targetNode)

/--
The algorithm that the arguments name.

Without one, a start and a target mean a shortest path, and anything else means
a breadth-first traversal.
-/
def chooseAlgorithm
    (arguments : List ResolvedArgument) :
    Except Failure Algorithm :=
  match argument? arguments algorithmKeys with
  | some argument =>
      match argument.value with
      | .scalar value =>
          match value.text? with
          | some name =>
              match Algorithm.ofName? name with
              | some algorithm => .ok algorithm
              | none => .error (.unknownAlgorithm name)
          | none =>
              .error (.badArgument argument.key .algorithmName .number)
      | _ =>
          .error (badArgument argument .algorithmName)
  | none =>
      if (argument? arguments startKeys).isSome &&
          (argument? arguments targetKeys).isSome then
        .ok .dijkstra
      else
        .ok .breadthFirst

/-- Run an algorithm on what the arguments name. -/
def runOn
    (algorithm : Algorithm)
    (model : Model)
    (arguments : List ResolvedArgument) :
    Except Failure Run := do
  let (id, named) ← address arguments
  let graph ← graphOf model id
  let start ← startOf graph named
  let target ←
    match algorithm with
    | .dijkstra => targetOf graph arguments
    | .breadthFirst | .depthFirst => .ok none
  algorithm.run graph start target

/-- The outcome of a command from the outcome of a run. -/
def commandOutcome :
    Except Failure Run →
    Except CommandFailure Json
  | .ok run => .ok run.json
  | .error failure => .error (.search failure)

variable {State : Type}

/-- The command that runs an algorithm. It leaves the state alone. -/
def handler
    (algorithm : Algorithm) :
    Handler State :=
  fun model arguments state =>
    (commandOutcome (runOn algorithm model arguments), state)

/-- The command that chooses its algorithm. -/
def animateHandler :
    Handler State :=
  fun model arguments state =>
    let outcome := do
      runOn (← chooseAlgorithm arguments) model arguments
    (commandOutcome outcome, state)

/-- Register an algorithm under its short and its long name. -/
def registerAlgorithm
    (built : Registry State)
    (algorithm : Algorithm) :
    Registry State :=
  (built.register algorithm.text (handler algorithm)).register
    algorithm.longText (handler algorithm)

/-- The registry of all commands that search graphs. -/
def registry :
    Registry State :=
  (Algorithm.all.foldl registerAlgorithm .empty).register "animate"
    animateHandler

end GraphScript.Search
