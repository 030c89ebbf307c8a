import GraphScript.EdgeOperator
import GraphScript.Scalar
import GraphScript.Source.Span

namespace GraphScript

/-!
# Program trees

A program declares variables, then graphs, and then gives commands. The tree
keeps everything in the order in which it is written, and it may name one
attribute key twice: whether that makes sense is decided when it is evaluated.
-/

/-- A name and the place where it is written. -/
structure Identifier where
  name : String
  span : Span
  deriving DecidableEq, Repr, Inhabited

/-- The sign between a key and its value. -/
inductive Separator where
  | assign
  | typed
  deriving DecidableEq, Repr

namespace Separator

/-- The sign as it is written. -/
def text :
    Separator →
    String
  | .assign => "="
  | .typed => ":"

/-- The word for a separator. -/
def word :
    Separator →
    String
  | .assign => "assign"
  | .typed => "typed"

/-- All separators. -/
def all :
    List Separator :=
  [.assign, .typed]

end Separator

/-- A key with its value in an attribute list. -/
structure Attribute where
  key : Identifier
  separator : Separator
  value : Scalar
  span : Span
  deriving Repr

/-- Attributes between brackets. -/
structure AttributeList where
  attributes : List Attribute
  span : Span
  deriving Repr

/-- Attributes that are written out, or named by an attributes variable. -/
inductive AttributeSource where
  | list (attributes : AttributeList)
  | reference (variableName : Identifier)
  deriving Repr

namespace AttributeSource

/-- Where attributes are written or named. -/
def span :
    AttributeSource →
    Span
  | .list attributes => attributes.span
  | .reference variableName => variableName.span

end AttributeSource

/-- Two nodes with an edge operator between them, in the order written. -/
structure EdgeStatement where
  left : Identifier
  operator : EdgeOperator
  right : Identifier
  attributes : Option AttributeSource
  span : Span
  deriving Repr

/-- The types of variables. -/
inductive VariableType where
  | node
  | edge
  | attributes
  deriving DecidableEq, Repr

namespace VariableType

/-- The word for a type. -/
def text :
    VariableType →
    String
  | .node => "node"
  | .edge => "edge"
  | .attributes => "attributes"

/-- All types. -/
def all :
    List VariableType :=
  [.node, .edge, .attributes]

end VariableType

/-- The right-hand side of a variable declaration. -/
inductive VariableSource where
  | reference (variableName : Identifier)
  | nodes (names : List Identifier)
  | edges (statements : List EdgeStatement)
  | attributes (list : AttributeList)
  deriving Repr

/-- The declaration of a variable. -/
structure VariableDeclaration where
  declaredType : VariableType
  name : Identifier
  source : VariableSource
  span : Span
  deriving Repr

/-- What a default attribute declaration in a graph applies to. -/
inductive DefaultTarget where
  | graph
  | node
  | edge
  deriving DecidableEq, Repr

namespace DefaultTarget

/-- The word for a target. -/
def text :
    DefaultTarget →
    String
  | .graph => "graph"
  | .node => "node"
  | .edge => "edge"

end DefaultTarget

/-- Attributes of the whole graph, or defaults of its nodes or edges. -/
structure DefaultDeclaration where
  target : DefaultTarget
  source : AttributeSource
  span : Span
  deriving Repr

/-- The nodes that a node statement is about. -/
inductive NodeTarget where
  | list (names : List Identifier)
  | reference (variableName : Identifier)
  deriving Repr

/-- A statement that names nodes and may give them attributes. -/
structure NodeStatement where
  target : NodeTarget
  attributes : Option AttributeSource
  span : Span
  deriving Repr

/-- An item of a graph's body that is evaluated in the order written. -/
inductive Statement where
  | binding (declaration : VariableDeclaration)
  | node (statement : NodeStatement)
  | edge (statement : EdgeStatement)
  deriving Repr

/-- An item between the braces of a graph. -/
inductive BodyItem where
  | defaults (declaration : DefaultDeclaration)
  | statement (statement : Statement)
  deriving Repr

namespace BodyItem

/-- The default attribute declaration that an item is. -/
def defaults? :
    BodyItem →
    Option DefaultDeclaration
  | .defaults declared => some declared
  | .statement _ => none

/-- The statement that an item is. -/
def statement? :
    BodyItem →
    Option Statement
  | .defaults _ => none
  | .statement written => some written

end BodyItem

/-- The declaration of a graph, with the items of its body in written order. -/
structure GraphDeclaration where
  direction : Direction
  name : Identifier
  items : List BodyItem
  span : Span
  deriving Repr

namespace GraphDeclaration

/-- The default attribute declarations of the body. -/
def defaults
    (declaration : GraphDeclaration) :
    List DefaultDeclaration :=
  declaration.items.filterMap BodyItem.defaults?

/-- The other items of the body. -/
def statements
    (declaration : GraphDeclaration) :
    List Statement :=
  declaration.items.filterMap BodyItem.statement?

end GraphDeclaration

/-- Names joined by dots. -/
structure Path where
  segments : List Identifier
  span : Span
  deriving DecidableEq, Repr

namespace Path

/-- The names of a path without their places. -/
def names
    (path : Path) :
    List String :=
  path.segments.map (·.name)

/-- A path is written with dots between its names. -/
def text
    (path : Path) :
    String :=
  ".".intercalate path.names

end Path

/-- The value of a command's argument. -/
inductive ArgumentSource where
  | path (path : Path)
  | literal (value : Scalar)
  deriving Repr

/-- A key with its value in a command. -/
structure Argument where
  key : Identifier
  separator : Separator
  source : ArgumentSource
  span : Span
  deriving Repr

/-- A command with its arguments. -/
structure Command where
  name : Identifier
  arguments : List Argument
  span : Span
  deriving Repr

/-- A complete program. -/
structure Program where
  bindings : List VariableDeclaration
  graphs : List GraphDeclaration
  commands : List Command
  span : Span
  deriving Repr

end GraphScript
