import GraphScript.Value

namespace GraphScript

/-!
# Graphs

A graph lists its nodes in the order in which they are first mentioned, and its
edges in the order in which they are stated. The defaults of nodes and edges are
kept apart from the attributes that single nodes and edges have.
-/

/-- A graph with its attributes. -/
structure Graph where
  id : String
  directed : Bool
  globalAttributes : Attributes
  nodeDefaults : Attributes
  edgeDefaults : Attributes
  nodes : NameMap Attributes
  edges : List Edge

namespace Graph

/-- The graph without nodes and edges. -/
def empty
    (id : String)
    (directed : Bool) :
    Graph :=
  { id
    directed
    globalAttributes := .empty
    nodeDefaults := .empty
    edgeDefaults := .empty
    nodes := .empty
    edges := [] }

/-- Lay attributes over those of a node, which is created if it is missing. -/
def decorate
    (graph : Graph)
    (node : String)
    (attributes : Attributes) :
    Graph :=
  { graph with
    nodes := graph.nodes.alter node fun own =>
      (own.getD .empty).merge attributes }

/-- Create a node without attributes if it is missing. -/
def mention
    (graph : Graph)
    (node : String) :
    Graph :=
  { graph with nodes := graph.nodes.alter node (·.getD .empty) }

/-- Append an edge. Its ends need not be nodes of the graph. -/
def appendEdge
    (graph : Graph)
    (edge : Edge) :
    Graph :=
  { graph with edges := graph.edges ++ [edge] }

/-- Lay attributes over those of the graph or over the defaults. -/
def addDefaults
    (graph : Graph)
    (target : DefaultTarget)
    (attributes : Attributes) :
    Graph :=
  match target with
  | .graph =>
      { graph with
        globalAttributes := graph.globalAttributes.merge attributes }
  | .node =>
      { graph with nodeDefaults := graph.nodeDefaults.merge attributes }
  | .edge =>
      { graph with edgeDefaults := graph.edgeDefaults.merge attributes }

/-- The attributes of the graph, or the defaults of its nodes or edges. -/
def defaults
    (graph : Graph) :
    DefaultTarget →
    Attributes
  | .graph => graph.globalAttributes
  | .node => graph.nodeDefaults
  | .edge => graph.edgeDefaults

/-- Whether a graph has a node of the given name. -/
def hasNode
    (graph : Graph)
    (node : String) :
    Bool :=
  graph.nodes.contains node

/-- The names of the nodes in the order of their first mention. -/
def nodeNames
    (graph : Graph) :
    List String :=
  graph.nodes.keys

/-- The attributes of a node, laid over the defaults. -/
def effectiveNodeAttributes?
    (graph : Graph)
    (node : String) :
    Option Attributes :=
  (graph.nodes.get? node).map graph.nodeDefaults.merge

/-- The attributes of an edge, laid over the defaults. -/
def effectiveEdgeAttributes
    (graph : Graph)
    (edge : Edge) :
    Attributes :=
  graph.edgeDefaults.merge edge.attributes

/-- An attribute of a node, or else its default. -/
def nodeAttribute?
    (graph : Graph)
    (node key : String) :
    Option Scalar :=
  (graph.nodes.get? node).bind fun own =>
    (own.get? key).or (graph.nodeDefaults.get? key)

end Graph

end GraphScript
