import GraphScript.Json.Decoding
import GraphScript.Json.Encoding

namespace GraphScript.Json

/-!
# Shapes of stored values

A shape tells what kind of value a text is meant to hold. Such a text is brought
into its normal form by reading the value and writing it again.
-/

/-- The kinds of values that can be read from a text. -/
inductive Shape where
  | scalar
  | span
  | diagnostic
  | diagnostics
  | edgeOperator
  | separator
  | variableType
  deriving DecidableEq, Repr

namespace Shape

/-- All shapes. -/
def all :
    List Shape :=
  [.scalar, .span, .diagnostic, .diagnostics, .edgeOperator, .separator,
    .variableType]

/-- The name of a shape. -/
def text :
    Shape →
    String
  | .scalar => "attr_value"
  | .span => "span"
  | .diagnostic => "diagnostic"
  | .diagnostics => "diagnostics"
  | .edgeOperator => "edge_op"
  | .separator => "attr_op"
  | .variableType => "var_type"

/-- Read a value of a shape from a document, in the form in which it is written. -/
def reread?
    (shape : Shape)
    (document : Document) :
    Option Json :=
  match shape with
  | .scalar =>
      (Scalar.ofDocument? document).map Scalar.json
  | .span =>
      (Span.ofDocument? document).map Span.json
  | .diagnostic =>
      (Diagnostic.ofDocument? Document.nestingLimit document).map
        Diagnostic.json
  | .diagnostics =>
      (Diagnostic.Log.ofDocument? document).map Diagnostic.Log.json
  | .edgeOperator =>
      (document.word? EdgeOperator.all EdgeOperator.word).map fun operator =>
        .string operator.word
  | .separator =>
      (document.word? Separator.all Separator.word).map fun separator =>
        .string separator.word
  | .variableType =>
      (document.word? VariableType.all VariableType.text).map fun type =>
        .string type.text

/-- The normal form of a text that holds a value of a shape, and nothing else. -/
def normalize?
    (shape : Shape)
    (contents : String) :
    Option String :=
  ((Document.ofText? contents).bind shape.reread?).map Json.text

end Shape

end GraphScript.Json
