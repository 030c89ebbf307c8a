import GraphScript.Graph.Analysis
import GraphScript.ModelBuilder
import GraphScript.Registry

namespace GraphScript

/-!
# Evaluating programs

A program is evaluated in three phases: its variables, its graphs, and its
commands. The first error ends the evaluation, and nothing partial is returned.
-/

/-- The result of a successful evaluation. -/
structure Evaluation where
  model : Model
  /-- The variables of the program scope in the order of their declarations. -/
  bindings : NameMap Variable
  /-- The commands in the order in which they were run. -/
  invocations : List Invocation

namespace Evaluation

/-- The sizes of an evaluation and of each of its graphs. -/
structure Summary where
  graphs : Nat
  bindings : Nat
  commands : Nat
  nodes : Nat
  edges : Nat
  perGraph : List Graph.Statistics
  deriving DecidableEq, Repr

/-- The sum of a count over some graphs. -/
def total
    (count : Graph.Statistics → Nat)
    (graphs : List Graph.Statistics) :
    Nat :=
  graphs.foldr (fun statistics sum => count statistics + sum) 0

/-- The summary of an evaluation. -/
def summary
    (evaluation : Evaluation) :
    Summary :=
  let perGraph := evaluation.model.graphs.values.map Graph.statistics
  { graphs := perGraph.length
    bindings := evaluation.bindings.size
    commands := evaluation.invocations.length
    nodes := total (·.nodes) perGraph
    edges := total (·.edges) perGraph
    perGraph }

end Evaluation

namespace Environment

/-- Evaluate variable declarations one after another. -/
def declareAll
    (environment : Environment)
    (declarations : List VariableDeclaration) :
    Except EvaluationError Environment :=
  declarations.foldlM declareVariable environment

end Environment

namespace Registry

variable {State : Type}

/-- Evaluate a program, starting without variables and graphs. -/
def evaluate
    (registry : Registry State)
    (program : Program)
    (state : State) :
    Except EvaluationError Evaluation × State :=
  match Environment.empty.declareAll program.bindings with
  | .error error =>
      (.error error, state)
  | .ok declared =>
      let built := ModelBuilder.empty.buildAll declared program.graphs
      match built.outcome with
      | .error error =>
          (.error error, state)
      | .ok () =>
          let model := built.builder.model
          let (outcome, last) :=
            registry.dispatchAll built.environment model program.commands
              state
          (outcome.map fun invocations =>
              ⟨model, built.environment.program, invocations⟩,
            last)

end Registry

end GraphScript
