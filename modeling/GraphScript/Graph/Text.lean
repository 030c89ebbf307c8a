import GraphScript.Graph.Basic

namespace GraphScript

/-!
# Graphs as text

A graph is shown with its defaults, its nodes and its edges, one to a line.
-/

namespace Graph

/-- The attributes of a line, in brackets after a blank, or nothing. -/
def attributesText
    (attributes : Attributes) :
    String :=
  if attributes.isEmpty then
    ""
  else
    let pairs := attributes.entries.map fun (key, value) =>
      key ++ "=" ++ value.text
    " [" ++ ", ".intercalate pairs ++ "]"

/-- One indented line. -/
def line
    (head : String)
    (attributes : Attributes) :
    String :=
  "  " ++ head ++ attributesText attributes ++ ";\n"

/-- The line of a kind of defaults, if there are any. -/
def defaultsLine
    (graph : Graph)
    (target : DefaultTarget) :
    String :=
  let attributes := graph.defaults target
  if attributes.isEmpty then "" else line target.text attributes

/-- The text of a graph. -/
def text
    (graph : Graph) :
    String :=
  let (kind, sign) :=
    if graph.directed then ("digraph", " -> ") else ("graph", " -- ")
  let defaults :=
    [DefaultTarget.graph, .node, .edge].map graph.defaultsLine
  let nodes := graph.nodes.entries.map fun (name, attributes) =>
    line name attributes
  let edges := graph.edges.map fun edge =>
    line (edge.source ++ sign ++ edge.target) edge.attributes
  kind ++ " " ++ graph.id ++ " \x7b\n" ++
    String.join (defaults ++ nodes ++ edges) ++ "\x7d"

end Graph

end GraphScript
