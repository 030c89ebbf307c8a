import GraphScript.Json.Basic
import GraphScript.Json.Encoding
import GraphScript.Search.Run

namespace GraphScript.Search

/-!
# JSON forms of requirements and runs
-/

namespace Purpose

/-- The word for a purpose. -/
def text :
    Purpose →
    String
  | .traversal => "traversal"
  | .shortestPath => "shortest_path"

end Purpose

namespace Requirements

/-- Requirements are an object in which what is not required is null. -/
def json
    (requirements : Requirements) :
    Json :=
  .object
    [("name", .string requirements.algorithm.text),
      ("kind", .string requirements.purpose.text),
      ("requires_directed",
        .ofOption (requirements.direction.map fun direction =>
          .bool direction.isDirected)),
      ("requires_weighted", .bool requirements.weighted),
      ("requires_connected", .bool requirements.connected),
      ("min_nodes", .count requirements.leastNodes),
      ("max_nodes", .ofOption (requirements.mostNodes.map .count))]

end Requirements

namespace Suitability

/-- A reason is a member only where there is one. -/
def json
    (suitability : Suitability) :
    Json :=
  let reason :=
    match suitability.failure with
    | some failure => [("reason", Json.string failure.message)]
    | none => []
  .object
    ([("requirements", suitability.requirements.json),
        ("valid", .bool suitability.isValid)] ++ reason)

end Suitability

/-- The verdicts on a graph are an object with the names of the algorithms. -/
def verdictsJson
    (graph : Graph) :
    Json :=
  .object ((verdicts graph).map fun (algorithm, suitability) =>
    (algorithm.text, suitability.json))

/-- Distances are an object in which unreached nodes have null. -/
def distancesJson
    (distances : NameMap (Option Float)) :
    Json :=
  distances.json fun distance => .ofOption (distance.map .real)

namespace Step

/-- Distances are a member only where the algorithm computes them. -/
def json
    (step : Step) :
    Json :=
  let distances :=
    match step.distances with
    | some distances => [("distances", distancesJson distances)]
    | none => []
  .object
    ([("step", .count step.number),
        ("description", .string step.description),
        ("current", .ofOption (step.current.map .string)),
        ("visited", .strings step.visited),
        ("frontier", .strings step.frontier),
        ("colors", step.colors.json fun color => .string color.text)] ++
      distances)

end Step

namespace Finding

/-- The finding of a run has its members and theirs sorted by name. -/
def json
    (finding : Finding) :
    Json :=
  match finding with
  | .traversal visitOrder =>
      Json.sorted
        (.object
          [("visit_order", .strings visitOrder),
            ("visited_count", .count visitOrder.length)])
  | .shortestPath distances path length =>
      Json.sorted
        (.object
          [("distances", distancesJson distances),
            ("shortest_path", .strings path),
            ("path_length", .ofOption (length.map .real))])

end Finding

namespace Run

/-- A run is an object with its steps and what it has found. -/
def json
    (run : Run) :
    Json :=
  .object
    [("algorithm", .string run.algorithm.text),
      ("graph", .string run.graph),
      ("start", .string run.start),
      ("steps", .array (run.steps.map Step.json)),
      ("result", run.finding.json)]

end Run

end GraphScript.Search
