import GraphScript.Json.Basic
import GraphScript.Resolution

namespace GraphScript

/-!
# Commands and their handlers

A handler is a function from the finished model and the resolved arguments to
an output or a failure. It may keep a state from one call to the next, which is
passed along explicitly.
-/

/-- What a command does. -/
abbrev Handler (State : Type) : Type :=
  Model →
    List ResolvedArgument →
    State →
    Except CommandFailure Json × State

/-- The handlers by the names of their commands, in order of registration. -/
structure Registry (State : Type) where
  handlers : NameMap (Handler State)

namespace Registry

variable {State : Type}

/-- The registry without handlers. -/
def empty :
    Registry State :=
  ⟨.empty⟩

/-- Register a handler. One of the same name is replaced in its place. -/
def register
    (registry : Registry State)
    (name : String)
    (handler : Handler State) :
    Registry State :=
  ⟨registry.handlers.insert name handler⟩

/-- The handler of a command. -/
def get?
    (registry : Registry State)
    (name : String) :
    Option (Handler State) :=
  registry.handlers.get? name

/-- Whether a command has a handler. -/
def contains
    (registry : Registry State)
    (name : String) :
    Bool :=
  registry.handlers.contains name

/-- The names of the commands in order of registration. -/
def names
    (registry : Registry State) :
    List String :=
  registry.handlers.keys

/-- A registry is shown by the names of its commands. -/
def text
    (registry : Registry State) :
    String :=
  "HandlerRegistry \x7b handlers: [" ++
    ", ".intercalate (registry.names.map Text.quoted) ++ "] \x7d"

end Registry

/-- A command that was run, and what it put out. -/
structure Invocation where
  command : String
  arguments : List ResolvedArgument
  output : Json

namespace Registry

variable {State : Type}

/--
Run a command.

Its arguments are resolved first, then its handler is looked up, and then the
handler is called once.
-/
def dispatch
    (registry : Registry State)
    (environment : Environment)
    (model : Model)
    (command : Command)
    (state : State) :
    Except EvaluationError Invocation × State :=
  match command.arguments.mapM (ResolvedArgument.ofArgument environment model) with
  | .error error =>
      (.error error, state)
  | .ok arguments =>
      match registry.get? command.name.name with
      | none =>
          (.error (.unknownCommand command.name.name command.name.span), state)
      | some handler =>
          match handler model arguments state with
          | (.ok output, next) =>
              (.ok ⟨command.name.name, arguments, output⟩, next)
          | (.error failure, next) =>
              (.error (.commandFailed command.name.name command.span failure),
                next)

/-- Run commands in order up to the first that fails. -/
def dispatchAll
    (registry : Registry State)
    (environment : Environment)
    (model : Model) :
    List Command →
    State →
    Except EvaluationError (List Invocation) × State
  | [], state =>
      (.ok [], state)
  | command :: rest, state =>
      match registry.dispatch environment model command state with
      | (.error error, next) =>
          (.error error, next)
      | (.ok invocation, next) =>
          let (outcome, last) :=
            registry.dispatchAll environment model rest next
          (outcome.map (invocation :: ·), last)

end Registry

end GraphScript
