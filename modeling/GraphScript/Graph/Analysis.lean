import GraphScript.Search.Exploration

namespace GraphScript

/-!
# The shape of a graph
-/

namespace Graph

/-- The key of the attribute that holds the weight of an edge. -/
def weightKey : String := "weight"

/-- Whether some edge has a weight, of its own or by default. -/
def isWeighted
    (graph : Graph) :
    Bool :=
  !graph.edges.isEmpty &&
    (graph.edgeDefaults.contains weightKey ||
      graph.edges.any (·.attributes.contains weightKey))

/--
Whether the edges join all nodes when their directions are ignored.

The nodes that the first one is joined to are counted. An end of an edge that
is no node counts as well, so it makes the count differ.
-/
def isConnected
    (graph : Graph) :
    Bool :=
  match graph.nodeNames with
  | [] =>
      true
  | first :: _ =>
      (Search.visitOrder graph.weakArcs .queue first).length =
        graph.nodes.size

/-- The nodes that no edge touches. -/
def isolatedNodes
    (graph : Graph) :
    List String :=
  graph.nodeNames.filter fun node =>
    !graph.edges.any fun edge => edge.source = node || edge.target = node

/-- A summary of the shape of a graph. -/
structure Statistics where
  id : String
  directed : Bool
  nodes : Nat
  edges : Nat
  isolated : List String
  weighted : Bool
  connected : Bool
  deriving DecidableEq, Repr

/-- The summary of a graph. -/
def statistics
    (graph : Graph) :
    Statistics :=
  { id := graph.id
    directed := graph.directed
    nodes := graph.nodes.size
    edges := graph.edges.length
    isolated := graph.isolatedNodes
    weighted := graph.isWeighted
    connected := graph.isConnected }

end Graph

end GraphScript
