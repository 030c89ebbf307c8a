import GraphScript.Program.Basic

namespace GraphScript

/-!
# Values of variables

A value never points at another variable: names are resolved when a
declaration is evaluated.
-/

/--
An edge from its source to its target.

The operator is kept as it was written, so that `a <- b` has the source `b` and
the target `a`.
-/
structure Edge where
  source : String
  target : String
  operator : EdgeOperator
  attributes : Attributes

namespace Edge

/-- The edge between a left and a right node. -/
def between
    (left : String)
    (operator : EdgeOperator)
    (right : String)
    (attributes : Attributes) :
    Edge :=
  match operator with
  | .backward =>
      ⟨right, left, operator, attributes⟩
  | .forward | .undirected =>
      ⟨left, right, operator, attributes⟩

/-- The ends of an edge in the order in which they were written. -/
def writtenEnds
    (edge : Edge) :
    String × String :=
  match edge.operator with
  | .backward =>
      (edge.target, edge.source)
  | .forward | .undirected =>
      (edge.source, edge.target)

/-- The same edge with further attributes laid over its own. -/
def overlay
    (edge : Edge)
    (attributes : Attributes) :
    Edge :=
  { edge with attributes := edge.attributes.merge attributes }

/-- An edge is shown from its source to its target. -/
def text
    (edge : Edge) :
    String :=
  let sign := if edge.operator.isDirected then "->" else "--"
  s!"{edge.source} {sign} {edge.target}"

end Edge

/-- The value of a variable. -/
inductive Value where
  /-- A single node, which no graph needs to have. -/
  | nodeReference (name : String)
  /-- Node names in order, which may repeat. -/
  | nodeList (names : List String)
  | edgeList (edges : List Edge)
  | attributeList (attributes : Attributes)

/-- The forms that right-hand sides and values take. -/
inductive Form where
  | reference
  | nodeReference
  | nodeList
  | edgeList
  | attributeList
  deriving DecidableEq, Repr

namespace Form

/-- What a form is called in messages. -/
def text :
    Form →
    String
  | .reference => "reference"
  | .nodeReference => "node reference"
  | .nodeList => "node list"
  | .edgeList => "edge list"
  | .attributeList => "attribute list"

end Form

namespace VariableSource

/-- The form of a right-hand side. -/
def form :
    VariableSource →
    Form
  | .reference _ => .reference
  | .nodes _ => .nodeList
  | .edges _ => .edgeList
  | .attributes _ => .attributeList

end VariableSource

namespace Value

/-- The form of a value. -/
def form :
    Value →
    Form
  | .nodeReference _ => .nodeReference
  | .nodeList _ => .nodeList
  | .edgeList _ => .edgeList
  | .attributeList _ => .attributeList

/-- The type of the variables that can hold a value. -/
def type :
    Value →
    VariableType
  | .nodeReference _ => .node
  | .nodeList _ => .node
  | .edgeList _ => .edge
  | .attributeList _ => .attributes

/-- The node names that a value denotes. -/
def nodeNames? :
    Value →
    Option (List String)
  | .nodeReference name => some [name]
  | .nodeList names => some names
  | _ => none

end Value

/-- A variable that has been declared, and where its name was declared. -/
structure Variable where
  name : String
  declaredType : VariableType
  value : Value
  span : Span

end GraphScript
