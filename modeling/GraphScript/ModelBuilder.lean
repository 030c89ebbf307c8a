import GraphScript.Draft
import GraphScript.Model

namespace GraphScript

/-!
# Building models

Graph declarations are evaluated one after another. Each one opens a scope of
its own and closes it again, whether it succeeds or not; only the graphs of
successful declarations enter the model.
-/

/-- The finished graphs, and where each name was first given to a graph. -/
structure ModelBuilder where
  model : Model
  declaredAt : NameMap Span

namespace ModelBuilder

/-- The builder without graphs. -/
def empty :
    ModelBuilder :=
  ⟨.empty, .empty⟩

instance : Inhabited ModelBuilder where
  default := empty

/-- What is left after the evaluation of a graph declaration. -/
structure Result where
  outcome : Except EvaluationError Unit
  builder : ModelBuilder
  environment : Environment

/--
Evaluate a graph declaration.

The name of a graph is taken from here on, even if the declaration fails.
-/
def build
    (builder : ModelBuilder)
    (environment : Environment)
    (declaration : GraphDeclaration) :
    Result :=
  let name := declaration.name
  match builder.declaredAt.get? name.name with
  | some earlier =>
      { outcome := .error (.duplicateGraph name.name name.span earlier)
        builder
        environment }
  | none =>
      let declaredAt := builder.declaredAt.insert name.name name.span
      let draft : Draft :=
        { environment := environment.enter name.name
          graph := .empty name.name declaration.direction.isDirected }
      let (outcome, last) := draft.complete declaration
      let model :=
        match outcome with
        | .ok () => builder.model.add last.graph
        | .error _ => builder.model
      { outcome
        builder := ⟨model, declaredAt⟩
        environment := last.environment.leave }

/-- Evaluate graph declarations up to the first that fails. -/
def buildAll
    (builder : ModelBuilder)
    (environment : Environment) :
    List GraphDeclaration →
    Result
  | [] =>
      { outcome := .ok ()
        builder
        environment }
  | declaration :: rest =>
      let result := builder.build environment declaration
      match result.outcome with
      | .ok () =>
          result.builder.buildAll result.environment rest
      | .error _ =>
          result

end ModelBuilder

end GraphScript
