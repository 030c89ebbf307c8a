import GraphScript.Environment

namespace GraphScript

/-!
# Evaluating declarations

References and node names are resolved in the scopes that are open when a
declaration or a statement is evaluated.
-/

namespace Attributes

/-- Add attributes that are written out. No key may be there already. -/
def addWritten :
    Attributes →
    List Attribute →
    Except EvaluationError Attributes
  | built, [] =>
      .ok built
  | built, written :: rest =>
      if built.contains written.key.name then
        .error (.attributeKeyConflict written.key.name written.key.span)
      else
        addWritten (built.insert written.key.name written.value) rest

/-- The attributes of a list, in which no key may occur twice. -/
def ofList
    (list : AttributeList) :
    Except EvaluationError Attributes :=
  addWritten .empty list.attributes

end Attributes

namespace Environment

/-- The value of the variable that a name stands for. -/
def value?
    (environment : Environment)
    (name : String) :
    Option Value :=
  (environment.get? name).map (·.value)

/-- The attributes that are written out or that a variable holds. -/
def attributesOf
    (environment : Environment) :
    AttributeSource →
    Except EvaluationError Attributes
  | .list attributes =>
      Attributes.ofList attributes
  | .reference name => do
      let found ← environment.lookup name
      match found.value with
      | .attributeList attributes =>
          return attributes
      | other =>
          throw
            (.typeMismatch name.name (.valueOf .attributes) other.form
              name.span)

/-- The attributes of a statement, which are empty when there are none. -/
def optionalAttributes
    (environment : Environment) :
    Option AttributeSource →
    Except EvaluationError Attributes
  | none => .ok .empty
  | some source => environment.attributesOf source

/--
The node that a name denotes.

A variable that holds one node stands for that node, and one that holds a list
stands for no single node. Every other name is the name of a node itself.
-/
def nodeOf
    (environment : Environment)
    (name : Identifier) :
    Except EvaluationError String :=
  match environment.value? name.name with
  | some (.nodeReference node) =>
      .ok node
  | some (.nodeList _) =>
      .error (.typeMismatch name.name .singleNode .nodeList name.span)
  | _ =>
      .ok name.name

/-- The nodes that a name in a node list denotes. Variables with lists expand. -/
def nodesOf
    (environment : Environment)
    (name : Identifier) :
    List String :=
  match environment.value? name.name with
  | some (.nodeReference node) => [node]
  | some (.nodeList nodes) => nodes
  | _ => [name.name]

/-- The edge of an edge statement. -/
def edgeOf
    (environment : Environment)
    (statement : EdgeStatement) :
    Except EvaluationError Edge := do
  let left ← environment.nodeOf statement.left
  let right ← environment.nodeOf statement.right
  let attributes ← environment.optionalAttributes statement.attributes
  return .between left statement.operator right attributes

/-- The value of a reference that has to be a variable of the given type. -/
def copyOf
    (environment : Environment)
    (name : Identifier)
    (declaredType : VariableType) :
    Except EvaluationError Value := do
  let found ← environment.lookup name
  if found.declaredType = declaredType then
    return found.value
  else
    throw
      (.typeMismatch name.name (.valueOf declaredType) found.value.form
        name.span)

/-- The value of names in a node declaration: one name may stand for one node. -/
def nodeValue
    (environment : Environment)
    (names : List Identifier) :
    Value :=
  match names, names.flatMap environment.nodesOf with
  | [_], [node] => .nodeReference node
  | _, nodes => .nodeList nodes

/-- The value of a declaration's right-hand side. -/
def valueOf
    (environment : Environment)
    (declaration : VariableDeclaration) :
    Except EvaluationError Value :=
  match declaration.source, declaration.declaredType with
  | .reference name, .node =>
      if (environment.get? name.name).isNone then
        .ok (.nodeReference name.name)
      else
        environment.copyOf name .node
  | .reference name, declaredType =>
      environment.copyOf name declaredType
  | .nodes names, .node =>
      .ok (environment.nodeValue names)
  | .edges statements, .edge =>
      (statements.mapM environment.edgeOf).map .edgeList
  | .attributes list, .attributes =>
      (Attributes.ofList list).map .attributeList
  | other, declaredType =>
      .error
        (.typeMismatch declaration.name.name (.valueOf declaredType)
          other.form declaration.span)

/--
Evaluate a variable declaration in the innermost scope.

A name that is declared there already is refused before the value is looked at.
-/
def declareVariable
    (environment : Environment)
    (declaration : VariableDeclaration) :
    Except EvaluationError Environment := do
  environment.checkUnbound declaration.name
  let value ← environment.valueOf declaration
  environment.declare declaration.name declaration.declaredType value

end Environment

end GraphScript
