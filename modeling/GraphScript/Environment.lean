import GraphScript.EvaluationError

namespace GraphScript

/-!
# Scopes and variables

The program scope is always there. The scopes of graphs are opened on top of it
and closed again, innermost first. A name is looked up from the innermost scope
outward, and it is declared once in a scope.
-/

/-- The variables declared inside a graph, in order. -/
structure Scope where
  graph : String
  bindings : NameMap Variable

/-- The open scopes. The first one of `inner` is the innermost. -/
structure Environment where
  program : NameMap Variable
  inner : List Scope

namespace Environment

/-- The program scope alone, without variables. -/
def empty :
    Environment :=
  ⟨.empty, []⟩

instance : Inhabited Environment where
  default := empty

/-- The number of open scopes, with the program scope. -/
def depth
    (environment : Environment) :
    Nat :=
  environment.inner.length + 1

/-- The graph whose scope is the innermost one. -/
def currentGraph?
    (environment : Environment) :
    Option String :=
  environment.inner.head?.map (·.graph)

/-- The variables of the innermost scope. -/
def innermost
    (environment : Environment) :
    NameMap Variable :=
  match environment.inner with
  | [] => environment.program
  | scope :: _ => scope.bindings

/-- The variables of all scopes, from the innermost outward. -/
def tables
    (environment : Environment) :
    List (NameMap Variable) :=
  environment.inner.map (·.bindings) ++ [environment.program]

/-- The variable that a name stands for: the innermost one wins. -/
def get?
    (environment : Environment)
    (name : String) :
    Option Variable :=
  environment.tables.findSome? (·.get? name)

/-- The variable that a name stands for, which has to exist. -/
def lookup
    (environment : Environment)
    (name : Identifier) :
    Except EvaluationError Variable :=
  match environment.get? name.name with
  | some found => .ok found
  | none => .error (.unboundName name.name name.span)

/-- Refuse a name that the innermost scope declares already. -/
def checkUnbound
    (environment : Environment)
    (name : Identifier) :
    Except EvaluationError Unit :=
  match environment.innermost.get? name.name with
  | some earlier =>
      .error (.redeclaration name.name name.span earlier.span)
  | none =>
      .ok ()

/-- Store a variable in the innermost scope. -/
def bind
    (environment : Environment)
    (added : Variable) :
    Environment :=
  match environment.inner with
  | [] =>
      { environment with
        program := environment.program.insert added.name added }
  | scope :: outer =>
      let bindings := scope.bindings.insert added.name added
      { environment with inner := { scope with bindings } :: outer }

/--
Declare a variable in the innermost scope.

The name has to be new there, and the value has to be of the declared type.
-/
def declare
    (environment : Environment)
    (name : Identifier)
    (declaredType : VariableType)
    (value : Value) :
    Except EvaluationError Environment := do
  environment.checkUnbound name
  if value.type = declaredType then
    return environment.bind ⟨name.name, declaredType, value, name.span⟩
  else
    throw
      (.typeMismatch name.name (.valueOf declaredType) value.form name.span)

/-- Open the scope of a graph. -/
def enter
    (environment : Environment)
    (graph : String) :
    Environment :=
  { environment with inner := ⟨graph, .empty⟩ :: environment.inner }

/-- Close the innermost scope of a graph. The program scope stays open. -/
def leave
    (environment : Environment) :
    Environment :=
  { environment with inner := environment.inner.tail }

end Environment

end GraphScript
