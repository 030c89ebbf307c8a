import GraphScript.Diagnostic.Basic
import GraphScript.Search.Failure
import GraphScript.Value

namespace GraphScript

/-!
# Why an evaluation fails

Every error ends the evaluation. It carries the names and the places that a
precise diagnostic needs.
-/

/-- Why a command did not succeed. -/
inductive CommandFailure where
  | search (failure : Search.Failure)
  | other (message : String)
  deriving Repr

namespace CommandFailure

/-- The wording of a failure. -/
def message :
    CommandFailure →
    String
  | .search failure => failure.message
  | .other message => message

end CommandFailure

/-- What the use of a name or of a value requires of it. -/
inductive Demand where
  | valueOf (type : VariableType)
  | singleNode
  | nodesOrEdges
  deriving DecidableEq, Repr

namespace Demand

/-- What is required, in words. -/
def text :
    Demand →
    String
  | .valueOf type => s!"a {type.text} value"
  | .singleNode => "a single node"
  | .nodesOrEdges => "a node or edge variable"

end Demand

/-- The errors of an evaluation. -/
inductive EvaluationError where
  /-- A name was declared twice in one scope. -/
  | redeclaration (name : String) (span previous : Span)
  /-- A reference names no variable of any open scope. -/
  | unboundName (name : String) (span : Span)
  /-- Two graphs have one name. -/
  | duplicateGraph (graph : String) (span previous : Span)
  /-- One attribute list has a key twice. -/
  | attributeKeyConflict (key : String) (span : Span)
  /-- The operator of an edge does not go with the direction of its graph. -/
  | directionMismatch
      (graph : String)
      (direction : Direction)
      (operator : EdgeOperator)
      (span : Span)
  /-- A value of one form was declared or used as one of another. -/
  | typeMismatch (name : String) (demand : Demand) (found : Form) (span : Span)
  /-- A path cannot be followed at one of its names. -/
  | pathResolution (path : List String) (segment : String) (span : Span)
  /-- No command of the given name is registered. -/
  | unknownCommand (command : String) (span : Span)
  /-- A command was run and did not succeed. -/
  | commandFailed (command : String) (span : Span) (failure : CommandFailure)
  deriving Repr

namespace EvaluationError

/-- The wording of an error. -/
def message :
    EvaluationError →
    String
  | .redeclaration name _ _ =>
      s!"'{name}' is already declared in this scope"
  | .unboundName name _ =>
      s!"'{name}' is not bound to a variable"
  | .duplicateGraph graph _ _ =>
      s!"graph '{graph}' is already declared"
  | .attributeKeyConflict key _ =>
      s!"attribute '{key}' appears more than once in the same list"
  | .directionMismatch graph direction operator _ =>
      s!"edge operator '{operator.text}' is not allowed in {direction.text} graph '{graph}'"
  | .typeMismatch name demand found _ =>
      s!"'{name}' expected {demand.text}, found {found.text}"
  | .pathResolution path segment _ =>
      s!"cannot resolve '{segment}' in path '" ++ ".".intercalate path ++ "'"
  | .unknownCommand command _ =>
      s!"no handler registered for command '{command}'"
  | .commandFailed command _ failure =>
      s!"command '{command}' failed: {failure.message}"

/-- The code of an error. -/
def code :
    EvaluationError →
    Diagnostic.Code
  | .redeclaration .. => .redeclaration
  | .unboundName .. => .unboundName
  | .duplicateGraph .. => .duplicateGraph
  | .attributeKeyConflict .. => .attributeKeyConflict
  | .directionMismatch .. => .directionMismatch
  | .typeMismatch .. => .typeMismatch
  | .pathResolution .. => .pathResolution
  | .unknownCommand .. => .unknownCommand
  | .commandFailed .. => .commandFailed

/-- The place that an error is reported at. -/
def span :
    EvaluationError →
    Span
  | .redeclaration _ span _ => span
  | .unboundName _ span => span
  | .duplicateGraph _ span _ => span
  | .attributeKeyConflict _ span => span
  | .directionMismatch _ _ _ span => span
  | .typeMismatch _ _ _ span => span
  | .pathResolution _ _ span => span
  | .unknownCommand _ span => span
  | .commandFailed _ span _ => span

/-- How to mend an error, where there is an obvious way. -/
def suggestion :
    EvaluationError →
    Option String
  | .redeclaration _ _ previous =>
      some s!"first declared at {previous.text}; choose another name"
  | .duplicateGraph _ _ previous =>
      some s!"first declared at {previous.text}; rename one of the graphs"
  | .directionMismatch _ .directed _ _ =>
      some "use '->' or '<-' in a directed graph"
  | .directionMismatch _ .undirected _ _ =>
      some "use '--' in an undirected graph"
  | .unknownCommand .. =>
      some "register a handler for this command before evaluating"
  | _ =>
      none

/-- The diagnostic of an error in a source file. -/
def diagnostic
    (error : EvaluationError)
    (source : SourceFile) :
    Diagnostic :=
  .inSource source error.code error.message error.span error.suggestion

end EvaluationError

end GraphScript
