import GraphScript.Evaluation
import GraphScript.Json.Encoding

namespace GraphScript

/-!
# JSON forms of evaluations
-/

namespace Resolved

/-- A resolved argument is an object with its kind among its members. -/
def json :
    Resolved →
    Json
  | .binding name value =>
      .object
        [("kind", .string "variable"),
          ("name", .string name),
          ("value", value.json)]
  | .graph id =>
      .object [("kind", .string "graph"), ("id", .string id)]
  | .node owner name attributes =>
      .object
        [("kind", .string "node"),
          ("graph", .string owner),
          ("name", .string name),
          ("attrs", Attributes.json attributes)]
  | .scalar value =>
      .object [("kind", .string "scalar"), ("value", value.json)]

end Resolved

namespace ResolvedArgument

/-- An argument is an object with the word for its separator. -/
def json
    (argument : ResolvedArgument) :
    Json :=
  .object
    [("key", .string argument.key),
      ("op", .string argument.separator.word),
      ("value", argument.value.json)]

end ResolvedArgument

namespace Invocation

/-- The output of a command has its members sorted by name. -/
def json
    (invocation : Invocation) :
    Json :=
  .object
    [("command", .string invocation.command),
      ("args", .array (invocation.arguments.map ResolvedArgument.json)),
      ("output", invocation.output.sorted)]

end Invocation

namespace Evaluation

/-- An evaluation is an object with its graphs, variables and commands. -/
def json
    (evaluation : Evaluation) :
    Json :=
  .object
    [("model", evaluation.model.json),
      ("variables", evaluation.bindings.json Variable.json),
      ("invocations", .array (evaluation.invocations.map Invocation.json))]

namespace Summary

/-- A summary is an object with its counts. -/
def json
    (summary : Summary) :
    Json :=
  .object
    [("graphs", .count summary.graphs),
      ("variables", .count summary.bindings),
      ("commands", .count summary.commands),
      ("nodes", .count summary.nodes),
      ("edges", .count summary.edges),
      ("per_graph", .array (summary.perGraph.map Graph.Statistics.json))]

end Summary

end Evaluation

end GraphScript
