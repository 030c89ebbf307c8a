import GraphScript.Graph.Basic

namespace GraphScript

/-!
# Arcs

The arcs of a graph are the ways in which its edges can be followed: from the
source to the target and, without directions, from the target to the source as
well. Every arc carries a label, which a search may read as a weight.
-/

/-- One way of following an edge. -/
structure Arc (Label : Type) where
  source : String
  target : String
  label : Label

namespace Arc

variable {Label : Type}

/-- The targets and labels of the arcs that leave a node, in order. -/
def leaving
    (arcs : List (Arc Label))
    (node : String) :
    List (String × Label) :=
  (arcs.filter fun arc => arc.source = node).map fun arc =>
    (arc.target, arc.label)

/-- The nodes that one arc leads to from a node, in order. -/
def successors
    (arcs : List (Arc Label))
    (node : String) :
    List String :=
  (leaving arcs node).map Prod.fst

/-- The ways of following an edge. An edge from a node to itself has two. -/
def ofEdge
    (directed : Bool)
    (edge : Edge)
    (label : Label) :
    List (Arc Label) :=
  if directed then
    [⟨edge.source, edge.target, label⟩]
  else
    [⟨edge.source, edge.target, label⟩, ⟨edge.target, edge.source, label⟩]

end Arc

namespace Graph

/-- The arcs of a graph in the order of its edges. -/
def arcs
    (graph : Graph) :
    List (Arc Unit) :=
  graph.edges.flatMap fun edge => Arc.ofEdge graph.directed edge ()

/-- The arcs of a graph when the directions of its edges are ignored. -/
def weakArcs
    (graph : Graph) :
    List (Arc Unit) :=
  graph.edges.flatMap fun edge => Arc.ofEdge false edge ()

/-- The step along an edge from a node, with the edge's effective attributes. -/
def neighborAlong?
    (graph : Graph)
    (node : String)
    (edge : Edge) :
    Option (String × Attributes) :=
  if edge.source = node then
    some (edge.target, graph.effectiveEdgeAttributes edge)
  else if !graph.directed && edge.target = node then
    some (edge.source, graph.effectiveEdgeAttributes edge)
  else
    none

/-- The neighbours of a node, one for each edge that can be followed from it. -/
def neighbors
    (graph : Graph)
    (node : String) :
    List (String × Attributes) :=
  graph.edges.filterMap (graph.neighborAlong? node)

end Graph

end GraphScript
