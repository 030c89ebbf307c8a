import GraphScript.Diagnostic.Log
import GraphScript.Graph.Analysis
import GraphScript.Json.Basic
import GraphScript.Model

namespace GraphScript

/-!
# JSON forms of diagnostics, values and graphs
-/

namespace NameMap

variable {α : Type}

/-- A map is an object with its names in order. -/
def json
    (map : NameMap α)
    (encode : α → Json) :
    Json :=
  .object (map.entries.map fun (name, value) => (name, encode value))

end NameMap

namespace Span

/-- The members of a span, which other objects may hold among their own. -/
def members
    (span : Span) :
    List (String × Json) :=
  [("line", .count span.start.line),
    ("column", .count span.start.column),
    ("end_line", .count span.stop.line),
    ("end_column", .count span.stop.column)]

/-- A span is an object with its lines and columns. -/
def json
    (span : Span) :
    Json :=
  .object span.members

end Span

namespace Diagnostic

/-- A suggestion is a member only where there is one. -/
def json
    (diagnostic : Diagnostic) :
    Json :=
  let suggestion :=
    match diagnostic.suggestion with
    | some text => [("suggestion", Json.string text)]
    | none => []
  .object
    ([("file", .string diagnostic.file),
        ("code", .count diagnostic.code.number),
        ("severity", .string diagnostic.severity.text),
        ("category", .string diagnostic.category.text),
        ("message", .string diagnostic.message)] ++
      diagnostic.span.members ++
      [("source_line", .string diagnostic.sourceLine)] ++ suggestion)

namespace Log

/-- A log is an object with what it stores and what it counts. -/
def json
    (log : Log) :
    Json :=
  .object
    [("errors", .array (log.errors.map Diagnostic.json)),
      ("warnings", .array (log.warnings.map Diagnostic.json)),
      ("total_errors", .count log.totalErrors),
      ("total_warnings", .count log.totalWarnings)]

end Log

end Diagnostic

namespace Scalar

/-- A scalar is an object whose only member tells what it is. -/
def json :
    Scalar →
    Json
  | .word name => .object [("identifier", .string name)]
  | .number value => .object [("number", .real value)]
  | .string contents => .object [("string", .string contents)]

end Scalar

namespace Attributes

/-- Attributes are an object with their keys in order. -/
def json
    (attributes : Attributes) :
    Json :=
  NameMap.json attributes Scalar.json

end Attributes

namespace Edge

/-- An edge is an object with its ends and the word for its operator. -/
def json
    (edge : Edge) :
    Json :=
  .object
    [("source", .string edge.source),
      ("target", .string edge.target),
      ("op", .string edge.operator.word),
      ("attrs", Attributes.json edge.attributes)]

end Edge

namespace Value

/-- A value is an object with its kind and its contents. -/
def json
    (value : Value) :
    Json :=
  let (kind, contents) :=
    match value with
    | .nodeReference name => ("node_ref", Json.string name)
    | .nodeList names => ("node_list", Json.strings names)
    | .edgeList edges => ("edge_list", Json.array (edges.map Edge.json))
    | .attributeList attributes => ("attr_list", Attributes.json attributes)
  .object [("kind", .string kind), ("value", contents)]

end Value

namespace Variable

/-- The place of a variable's declaration is not part of its JSON form. -/
def json
    (bound : Variable) :
    Json :=
  .object
    [("name", .string bound.name),
      ("declared_type", .string bound.declaredType.text),
      ("value", bound.value.json)]

end Variable

namespace Graph

/-- A graph is an object in which its nodes are an object as well. -/
def json
    (graph : Graph) :
    Json :=
  .object
    [("id", .string graph.id),
      ("directed", .bool graph.directed),
      ("global_attrs", Attributes.json graph.globalAttributes),
      ("node_defaults", Attributes.json graph.nodeDefaults),
      ("edge_defaults", Attributes.json graph.edgeDefaults),
      ("nodes", graph.nodes.json Attributes.json),
      ("edges", .array (graph.edges.map Edge.json))]

namespace Statistics

/-- Statistics are an object with the name of the graph. -/
def json
    (statistics : Statistics) :
    Json :=
  .object
    [("id", .string statistics.id),
      ("directed", .bool statistics.directed),
      ("nodes", .count statistics.nodes),
      ("edges", .count statistics.edges),
      ("isolated", .strings statistics.isolated),
      ("weighted", .bool statistics.weighted),
      ("connected", .bool statistics.connected)]

end Statistics

end Graph

namespace Model

/-- A model is an object with its graphs by their names. -/
def json
    (model : Model) :
    Json :=
  model.graphs.json Graph.json

end Model

end GraphScript
