namespace GraphScript

/-!
# Edge operators and directions
-/

/-- The sign between the two ends of an edge. -/
inductive EdgeOperator where
  | undirected
  | forward
  | backward
  deriving DecidableEq, Repr, Inhabited

namespace EdgeOperator

/-- Whether an operator gives an edge a direction. -/
def isDirected :
    EdgeOperator →
    Bool
  | .undirected => false
  | .forward => true
  | .backward => true

/-- The sign as it is written. -/
def text :
    EdgeOperator →
    String
  | .undirected => "--"
  | .forward => "->"
  | .backward => "<-"

/-- The word for an operator. -/
def word :
    EdgeOperator →
    String
  | .undirected => "undirected"
  | .forward => "forward"
  | .backward => "backward"

/-- All edge operators. -/
def all :
    List EdgeOperator :=
  [.undirected, .forward, .backward]

end EdgeOperator

/-- Whether the edges of a graph have a direction. -/
inductive Direction where
  | directed
  | undirected
  deriving DecidableEq, Repr, Inhabited

namespace Direction

/-- Whether edges have a direction. -/
def isDirected :
    Direction →
    Bool
  | .directed => true
  | .undirected => false

/-- The word for a direction. -/
def text :
    Direction →
    String
  | .directed => "directed"
  | .undirected => "undirected"

end Direction

end GraphScript
