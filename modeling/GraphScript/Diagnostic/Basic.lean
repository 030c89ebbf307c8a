import GraphScript.Diagnostic.Code
import GraphScript.Source.File

namespace GraphScript

/-!
# Diagnostics

A diagnostic reports one fault: where it is, what it is, the line of the text
that holds it and, where there is one, a suggestion for mending it.
-/

namespace Diagnostic

/-- Whether a diagnostic stops the stage that reports it from succeeding. -/
inductive Severity where
  | error
  | warning
  deriving DecidableEq, Repr

namespace Severity

/-- The word for a severity. -/
def text :
    Severity →
    String
  | .error => "error"
  | .warning => "warning"

/-- All severities. -/
def all :
    List Severity :=
  [.error, .warning]

end Severity

end Diagnostic

/-- The report of one fault. -/
structure Diagnostic where
  file : String
  code : Diagnostic.Code
  severity : Diagnostic.Severity
  category : Diagnostic.Category
  message : String
  span : Span
  sourceLine : String
  suggestion : Option String
  deriving DecidableEq, Repr

namespace Diagnostic

/-- An error whose category follows from its code. -/
def error
    (file : String)
    (code : Code)
    (message : String)
    (span : Span)
    (sourceLine : String)
    (suggestion : Option String) :
    Diagnostic :=
  { file
    code
    severity := .error
    category := code.category
    message
    span
    sourceLine
    suggestion }

/--
An error that takes its file name and its source line from a source file.

A span that starts outside the text has an empty source line.
-/
def inSource
    (source : SourceFile)
    (code : Code)
    (message : String)
    (span : Span)
    (suggestion : Option String) :
    Diagnostic :=
  error source.name code message span
    ((source.line? span.start.line).getD "") suggestion

/-- The same diagnostic as a warning. -/
def asWarning
    (diagnostic : Diagnostic) :
    Diagnostic :=
  { diagnostic with severity := .warning }

/-- The one-line form: file, position, code, category and message. -/
def text
    (diagnostic : Diagnostic) :
    String :=
  s!"{diagnostic.file}:{diagnostic.span.text}: {diagnostic.code.text}" ++
    s!" [{diagnostic.category.text}] {diagnostic.message}"

end Diagnostic

end GraphScript
