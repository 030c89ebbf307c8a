import GraphScript.Evaluation
import GraphScript.Program.Reader
import GraphScript.Token.Scanner

namespace GraphScript

/-!
# Scripts

A script is a source file together with what its two reading stages find in it.
Reading always gives a program. A script with errors is run only on demand.
-/

/-- A source file, its tokens and its program. -/
structure Script where
  source : SourceFile
  scan : Token.Scan
  reading : Program.Reading

namespace Script

/-- Read a source file. The program is read even if its tokens have faults. -/
def ofSource
    (source : SourceFile) :
    Script :=
  let scan := Token.scan source.contents.toList
  ⟨source, scan, Program.ofTokens scan.tokens⟩

/-- The program of a script. -/
def program
    (script : Script) :
    Program :=
  script.reading.program

/-- The diagnostics of cutting a script into tokens. -/
def tokenLog
    (script : Script) :
    Diagnostic.Log :=
  FaultReport.log script.source script.scan.faults

/-- The diagnostics of reading a program from the tokens of a script. -/
def programLog
    (script : Script) :
    Diagnostic.Log :=
  FaultReport.log script.source script.reading.faults

/-- The diagnostics of both stages, in the order of the stages. -/
def log
    (script : Script) :
    Diagnostic.Log :=
  (Diagnostic.Log.empty.extend script.tokenLog).extend script.programLog

/-- Why a script has no evaluation. -/
inductive Failure where
  | unreadable (log : Diagnostic.Log)
  | evaluation (error : EvaluationError)

/-- Evaluate a script if it has no errors, or if errors are tolerated. -/
def run
    {State : Type}
    (script : Script)
    (registry : Registry State)
    (tolerant : Bool)
    (state : State) :
    Except Failure Evaluation × State :=
  if script.log.hasErrors && !tolerant then
    (.error (.unreadable script.log), state)
  else
    let (outcome, last) := registry.evaluate script.program state
    (outcome.mapError .evaluation, last)

end Script

end GraphScript
