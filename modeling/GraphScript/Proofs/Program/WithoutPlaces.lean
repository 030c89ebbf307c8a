import GraphScript.Program.Reader

namespace GraphScript

/-!
# Trees without their places

Two trees say the same where they are equal once every span in them is
forgotten.
-/

/-- The name alone. -/
def Identifier.withoutPlace
    (name : Identifier) :
    Identifier :=
  { name with span := default }

namespace Attribute

/-- The key, the separator and the value alone. -/
def withoutPlaces
    (pair : Attribute) :
    Attribute :=
  { pair with
    key := pair.key.withoutPlace
    span := default }

end Attribute

namespace AttributeList

/-- The attributes alone. -/
def withoutPlaces
    (list : AttributeList) :
    AttributeList :=
  ⟨list.attributes.map Attribute.withoutPlaces, default⟩

end AttributeList

namespace AttributeSource

/-- The attributes or the name of the variable alone. -/
def withoutPlaces :
    AttributeSource →
    AttributeSource
  | .list attributes => .list attributes.withoutPlaces
  | .reference variableName => .reference variableName.withoutPlace

end AttributeSource

namespace EdgeStatement

/-- The two ends, the operator and the attributes alone. -/
def withoutPlaces
    (statement : EdgeStatement) :
    EdgeStatement :=
  { statement with
    left := statement.left.withoutPlace
    right := statement.right.withoutPlace
    attributes := statement.attributes.map AttributeSource.withoutPlaces
    span := default }

end EdgeStatement

namespace VariableSource

/-- The right-hand side alone. -/
def withoutPlaces :
    VariableSource →
    VariableSource
  | .reference variableName => .reference variableName.withoutPlace
  | .nodes names => .nodes (names.map Identifier.withoutPlace)
  | .edges statements => .edges (statements.map EdgeStatement.withoutPlaces)
  | .attributes list => .attributes list.withoutPlaces

end VariableSource

namespace VariableDeclaration

/-- The type, the name and the right-hand side alone. -/
def withoutPlaces
    (declaration : VariableDeclaration) :
    VariableDeclaration :=
  { declaration with
    name := declaration.name.withoutPlace
    source := declaration.source.withoutPlaces
    span := default }

end VariableDeclaration

namespace DefaultDeclaration

/-- The target and the attributes alone. -/
def withoutPlaces
    (declaration : DefaultDeclaration) :
    DefaultDeclaration :=
  { declaration with
    source := declaration.source.withoutPlaces
    span := default }

end DefaultDeclaration

namespace NodeTarget

/-- The names alone. -/
def withoutPlaces :
    NodeTarget →
    NodeTarget
  | .list names => .list (names.map Identifier.withoutPlace)
  | .reference variableName => .reference variableName.withoutPlace

end NodeTarget

namespace NodeStatement

/-- The target and the attributes alone. -/
def withoutPlaces
    (statement : NodeStatement) :
    NodeStatement :=
  { target := statement.target.withoutPlaces
    attributes := statement.attributes.map AttributeSource.withoutPlaces
    span := default }

end NodeStatement

namespace Statement

/-- The statement alone. -/
def withoutPlaces :
    Statement →
    Statement
  | .binding declared => .binding declared.withoutPlaces
  | .node written => .node written.withoutPlaces
  | .edge written => .edge written.withoutPlaces

end Statement

namespace BodyItem

/-- The item alone. -/
def withoutPlaces :
    BodyItem →
    BodyItem
  | .defaults declared => .defaults declared.withoutPlaces
  | .statement written => .statement written.withoutPlaces

end BodyItem

namespace GraphDeclaration

/-- The direction, the name and the items alone. -/
def withoutPlaces
    (declaration : GraphDeclaration) :
    GraphDeclaration :=
  { declaration with
    name := declaration.name.withoutPlace
    items := declaration.items.map BodyItem.withoutPlaces
    span := default }

end GraphDeclaration

namespace Path

/-- The names alone. -/
def withoutPlaces
    (path : Path) :
    Path :=
  ⟨path.segments.map Identifier.withoutPlace, default⟩

end Path

namespace ArgumentSource

/-- The path or the literal alone. -/
def withoutPlaces :
    ArgumentSource →
    ArgumentSource
  | .path followed => .path followed.withoutPlaces
  | .literal value => .literal value

end ArgumentSource

namespace Argument

/-- The key, the separator and the value alone. -/
def withoutPlaces
    (argument : Argument) :
    Argument :=
  { argument with
    key := argument.key.withoutPlace
    source := argument.source.withoutPlaces
    span := default }

end Argument

namespace Command

/-- The name and the arguments alone. -/
def withoutPlaces
    (command : Command) :
    Command :=
  { name := command.name.withoutPlace
    arguments := command.arguments.map Argument.withoutPlaces
    span := default }

end Command

namespace Program

/-- The variables, the graphs and the commands alone. -/
def withoutPlaces
    (program : Program) :
    Program :=
  { bindings := program.bindings.map VariableDeclaration.withoutPlaces
    graphs := program.graphs.map GraphDeclaration.withoutPlaces
    commands := program.commands.map Command.withoutPlaces
    span := default }

end Program

namespace Item

/-- The declaration or the command alone. -/
def withoutPlaces :
    Item →
    Item
  | .binding declared => .binding declared.withoutPlaces
  | .graph declared => .graph declared.withoutPlaces
  | .command given => .command given.withoutPlaces

end Item

/-- The program of the items alone is the program alone. -/
theorem Program.withoutPlaces_ofItems
    (items : List Item)
    (span : Span) :
    (ofItems items span).withoutPlaces =
      ofItems (items.map Item.withoutPlaces) default := by
  simp only [Program.withoutPlaces, ofItems, List.map_filterMap,
    List.filterMap_map, Program.mk.injEq, and_true]
  refine ⟨?_, ?_, ?_⟩
  all_goals
    refine congrArg (List.filterMap · items) (funext fun item => ?_)
    cases item <;> rfl

end GraphScript
