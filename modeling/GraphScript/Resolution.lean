import GraphScript.Model
import GraphScript.Search.Failure

namespace GraphScript

/-!
# Resolving the arguments of commands

The first name of a path stands for a variable or, failing that, for a graph.
Each later name narrows what the path has led to: a graph to one of its nodes, a
node to one of its attributes, and a variable with attributes to one of them. A
single name that stands for nothing is a word.
-/

/-- What an argument stands for. -/
inductive Resolved where
  | binding (name : String) (value : Value)
  | graph (id : String)
  | node (graph name : String) (attributes : Attributes)
  | scalar (value : Scalar)

namespace Resolved

/-- The form of a resolved argument. -/
def form :
    Resolved →
    Search.ArgumentForm
  | .binding _ _ => .variableValue
  | .graph _ => .graph
  | .node _ _ _ => .node
  | .scalar _ => .scalar

/-- The value of a scalar. -/
def scalar? :
    Resolved →
    Option Scalar
  | .scalar value => some value
  | _ => none

end Resolved

/-- A resolved argument. Its separator is kept as it was written. -/
structure ResolvedArgument where
  key : String
  separator : Separator
  value : Resolved

namespace Resolved

/-- What a single name stands for. -/
def root?
    (environment : Environment)
    (model : Model)
    (name : String) :
    Option Resolved :=
  match environment.get? name with
  | some found =>
      some (.binding found.name found.value)
  | none =>
      (model.get? name).map fun graph => .graph graph.id

/-- The node of a graph that a name denotes: one of that name comes first. -/
def nodeName?
    (environment : Environment)
    (graph : Graph)
    (name : String) :
    Option String :=
  if graph.hasNode name then
    some name
  else
    match environment.get? name with
    | some ⟨_, _, .nodeReference denoted, _⟩ =>
        if graph.hasNode denoted then some denoted else none
    | _ =>
        none

/-- Follow a path by one more name. -/
def narrow?
    (environment : Environment)
    (model : Model)
    (current : Resolved)
    (name : String) :
    Option Resolved :=
  match current with
  | .graph id => do
      let found ← model.get? id
      let chosen ← nodeName? environment found name
      let attributes ← found.nodes.get? chosen
      return .node id chosen attributes
  | .node owner chosen attributes =>
      ((attributes.get? name).or
        (model.nodeAttribute? owner chosen name)).map .scalar
  | .binding _ (.attributeList attributes) =>
      (attributes.get? name).map .scalar
  | .binding _ _ =>
      none
  | .scalar _ =>
      none

/-- Follow the later names of a path. -/
def narrowAll
    (environment : Environment)
    (model : Model)
    (path : Path)
    (current : Resolved) :
    List Identifier →
    Except EvaluationError Resolved
  | [] =>
      .ok current
  | segment :: rest =>
      match current.narrow? environment model segment.name with
      | some next =>
          narrowAll environment model path next rest
      | none =>
          .error (.pathResolution path.names segment.name segment.span)

/-- What a path stands for. -/
def ofPath
    (environment : Environment)
    (model : Model)
    (path : Path) :
    Except EvaluationError Resolved :=
  match path.segments with
  | [] =>
      .error (.pathResolution [] "" path.span)
  | [only] =>
      .ok ((root? environment model only.name).getD
        (.scalar (.word only.name)))
  | first :: rest =>
      match root? environment model first.name with
      | some current =>
          narrowAll environment model path current rest
      | none =>
          .error (.pathResolution path.names first.name first.span)

end Resolved

namespace ResolvedArgument

/-- Resolve an argument. A literal stands for itself. -/
def ofArgument
    (environment : Environment)
    (model : Model)
    (argument : Argument) :
    Except EvaluationError ResolvedArgument := do
  let value ←
    match argument.source with
    | .path path => Resolved.ofPath environment model path
    | .literal value => .ok (.scalar value)
  return ⟨argument.key.name, argument.separator, value⟩

end ResolvedArgument

end GraphScript
