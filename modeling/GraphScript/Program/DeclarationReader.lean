import GraphScript.Program.AttributeReader

namespace GraphScript.Reader

/-!
# Reading declarations and statements

The readers whose names end in `After` go on behind a token that has told what
follows, and are given the place of that token.
-/

/-- Read an edge operator. -/
def edgeOperator :
    Reader EdgeOperator := do
  match (← peek).operator? with
  | some operator =>
      let _ ← advance
      return operator
  | none =>
      unexpected .edgeOperator

/-- Read the rest of an edge after its left node. -/
def edgeAfter
    (left : Identifier) :
    Reader EdgeStatement := do
  let operator ← edgeOperator
  let right ← identifier
  let attributes ← attributes?
  return ⟨left, operator, right, attributes, ← spanFrom left.span⟩

/-- Read an edge. -/
def edge :
    Reader EdgeStatement := do
  edgeAfter (← identifier)

/-- Read a type of variables. -/
def variableType :
    Reader VariableType := do
  match ← peek with
  | .keyword .node =>
      let _ ← advance
      return .node
  | .keyword .edge =>
      let _ ← advance
      return .edge
  | .keyword .attributes =>
      let _ ← advance
      return .attributes
  | _ =>
      unexpected .variableType

/-- Read nodes or edges after the first name. An edge operator tells which. -/
def namesAfter
    (first : Identifier) :
    Reader VariableSource := do
  match (← peek).operator? with
  | some _ =>
      let firstEdge ← edgeAfter first
      let others ← further .comma (fun _ => false) edge
      return .edges (firstEdge :: others)
  | none =>
      let others ← further .comma (fun _ => false) identifier
      return .nodes (first :: others)

/-- Read the right-hand side of a variable declaration. -/
def variableSource :
    Reader VariableSource := do
  match ← peek with
  | .mark .dollar =>
      return .reference (← referenceAfter (← advance))
  | .mark .leftBracket =>
      return .attributes (← attributeList)
  | .identifier _ =>
      namesAfter (← identifier)
  | _ =>
      unexpected .variableValue

/-- Read a variable declaration after its first word. -/
def variableAfter
    (start : Span) :
    Reader VariableDeclaration := do
  let declaredType ← variableType
  let name ← identifier
  let _ ← mark .equals
  let source ← variableSource
  return ⟨declaredType, name, source, ← spanFrom start⟩

/-- Read the attributes of a default declaration after its first word. -/
def defaultsAfter
    (start : Span)
    (target : DefaultTarget) :
    Reader DefaultDeclaration := do
  match ← attributes? with
  | some source =>
      return ⟨target, source, ← spanFrom start⟩
  | none =>
      unexpected .attributeSource

/-- Read the rest of a node statement after its target. -/
def nodeAfter
    (start : Span)
    (target : NodeTarget) :
    Reader NodeStatement := do
  let attributes ← attributes?
  return ⟨target, attributes, ← spanFrom start⟩

/-- Read a node or edge statement after its first name. -/
def statementAfter
    (first : Identifier) :
    Reader Statement := do
  match (← peek).operator? with
  | some _ =>
      return .edge (← edgeAfter first)
  | none =>
      let others ← further .comma (fun _ => false) identifier
      return .node (← nodeAfter first.span (.list (first :: others)))

/-- Read a node statement that names a variable, after the dollar sign. -/
def referenceStatementAfter
    (dollar : Span) :
    Reader Statement := do
  let variableName ← referenceAfter dollar
  return .node (← nodeAfter dollar (.reference variableName))

end GraphScript.Reader
