import GraphScript.Environment
import GraphScript.Graph.Basic

namespace GraphScript

/-!
# Models

A model holds the finished graphs of a program by their names, in the order in
which they were declared.
-/

/-- The graphs of a program. -/
structure Model where
  graphs : NameMap Graph

namespace Model

/-- The model without graphs. -/
def empty :
    Model :=
  ⟨.empty⟩

instance : Inhabited Model where
  default := empty

/-- The graph with a given name. -/
def get?
    (model : Model)
    (id : String) :
    Option Graph :=
  model.graphs.get? id

/-- Whether a model has a graph of the given name. -/
def contains
    (model : Model)
    (id : String) :
    Bool :=
  model.graphs.contains id

/-- The number of graphs. -/
def size
    (model : Model) :
    Nat :=
  model.graphs.size

/-- Add a finished graph. -/
def add
    (model : Model)
    (graph : Graph) :
    Model :=
  ⟨model.graphs.insert graph.id graph⟩

/-- An attribute of a node of a graph, or else the default of that graph. -/
def nodeAttribute?
    (model : Model)
    (graph node key : String) :
    Option Scalar :=
  (model.get? graph).bind (·.nodeAttribute? node key)

end Model

end GraphScript
