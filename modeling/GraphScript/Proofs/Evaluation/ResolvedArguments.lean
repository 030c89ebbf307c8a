import GraphScript.Proofs.Evaluation.Calls

namespace GraphScript

/-!
# What arguments stand for

A path is followed through the finished model, so a graph or a node that an
argument stands for is one of that model. Every handler is called with arguments
of this kind.
-/

/-- Whether an error is the failure of a handler that was called. -/
def EvaluationError.arisesInHandlers :
    EvaluationError →
    Bool
  | .commandFailed .. => true
  | .redeclaration .. => false
  | .unboundName .. => false
  | .duplicateGraph .. => false
  | .attributeKeyConflict .. => false
  | .directionMismatch .. => false
  | .typeMismatch .. => false
  | .pathResolution .. => false
  | .unknownCommand .. => false

/-- Whether an error is that a path cannot be followed. -/
def EvaluationError.arisesInPaths :
    EvaluationError →
    Bool
  | .pathResolution .. => true
  | _ => false

/-- Whether every graph of a model is stored under its own name. -/
def Model.NamedByKey
    (model : Model) :
    Prop :=
  ∀ id graph, model.get? id = some graph → graph.id = id

/-- An empty model stores no graph under a wrong name. -/
theorem Model.NamedByKey.empty :
    Model.empty.NamedByKey := by
  rintro id graph ⟨⟩

/-- A finished graph is stored under its own name. -/
theorem Model.NamedByKey.add
    {model : Model}
    (named : model.NamedByKey)
    (graph : Graph) :
    (model.add graph).NamedByKey := by
  intro id other held
  simp only [Model.add, Model.get?, NameMap.get?_insert] at held
  split at held
  · next same =>
      cases held
      exact same
  · exact named id other held

namespace Resolved

/-- Whether the graph or the node that an argument stands for is in a model. -/
def ExistsIn
    (model : Model) :
    Resolved →
    Prop
  | .binding _ _ => True
  | .graph id => ∃ graph, model.get? id = some graph
  | .node owner name attributes =>
      ∃ graph,
        model.get? owner = some graph ∧
          graph.nodes.get? name = some attributes
  | .scalar _ => True

variable
  {environment : Environment}
  {model : Model}

/-- What the first segment of a path stands for exists. -/
theorem existsIn_of_root
    (named : model.NamedByKey)
    {name : String}
    {resolved : Resolved}
    (isRoot : root? environment model name = some resolved) :
    resolved.ExistsIn model := by
  unfold root? at isRoot
  split at isRoot
  · cases isRoot
    trivial
  · obtain ⟨graph, isGraph, rfl⟩ := Option.map_eq_some_iff.1 isRoot
    exact ⟨graph, (named name graph isGraph).symm ▸ isGraph⟩

/-- A step along a path ends at a node of the graph that it starts from. -/
theorem existsIn_of_narrow
    {current next : Resolved}
    {name : String}
    (narrowed : current.narrow? environment model name = some next) :
    next.ExistsIn model := by
  unfold narrow? at narrowed
  split at narrowed
  · obtain ⟨graph, isGraph, narrowed⟩ := Option.bind_eq_some_iff.1 narrowed
    obtain ⟨chosen, _, narrowed⟩ := Option.bind_eq_some_iff.1 narrowed
    obtain ⟨attributes, held, narrowed⟩ := Option.bind_eq_some_iff.1 narrowed
    cases narrowed
    exact ⟨graph, isGraph, held⟩
  · obtain ⟨value, _, rfl⟩ := Option.map_eq_some_iff.1 narrowed
    trivial
  · obtain ⟨value, _, rfl⟩ := Option.map_eq_some_iff.1 narrowed
    trivial
  · cases narrowed
  · cases narrowed

/-- What stands behind the further segments of a path exists. -/
theorem existsIn_of_narrowAll
    {path : Path}
    {current resolved : Resolved}
    {segments : List Identifier}
    (present : current.ExistsIn model)
    (followed :
      narrowAll environment model path current segments = .ok resolved) :
    resolved.ExistsIn model := by
  induction segments generalizing current with
  | nil =>
      cases followed
      exact present
  | cons segment rest inductionHypothesis =>
      rw [narrowAll] at followed
      split at followed
      · next next narrowed =>
          exact inductionHypothesis (existsIn_of_narrow narrowed) followed
      · cases followed

/-- What a path leads to exists. -/
theorem existsIn_of_path
    (named : model.NamedByKey)
    {path : Path}
    {resolved : Resolved}
    (isPath : ofPath environment model path = .ok resolved) :
    resolved.ExistsIn model := by
  unfold ofPath at isPath
  split at isPath
  · cases isPath
  · next only _ =>
      cases isRoot : root? environment model only.name with
      | none =>
          rw [isRoot] at isPath
          cases isPath
          trivial
      | some found =>
          rw [isRoot] at isPath
          cases isPath
          exact existsIn_of_root named isRoot
  · split at isPath
    · next current isRoot =>
        exact existsIn_of_narrowAll (existsIn_of_root named isRoot) isPath
    · cases isPath

/-- Following segments fails only because a path cannot be followed. -/
theorem narrowAll_fails
    (environment : Environment)
    (model : Model)
    (path : Path)
    (current : Resolved)
    (segments : List Identifier) :
    FailsOnly (·.arisesInPaths = true)
      (narrowAll environment model path current segments) := by
  induction segments generalizing current with
  | nil =>
      exact .ok current
  | cons segment rest inductionHypothesis =>
      rw [narrowAll]
      split
      · exact inductionHypothesis _
      · exact .error rfl

/-- A path fails only because it cannot be followed. -/
theorem ofPath_fails
    (environment : Environment)
    (model : Model)
    (path : Path) :
    FailsOnly (·.arisesInPaths = true)
      (ofPath environment model path) := by
  unfold ofPath
  split
  · exact .error rfl
  · exact .ok _
  · split
    · exact narrowAll_fails _ _ _ _ _
    · exact .error rfl

end Resolved

namespace ResolvedArgument

/-- What an argument stands for exists. -/
theorem existsIn_of_argument
    {environment : Environment}
    {model : Model}
    (named : model.NamedByKey)
    {argument : Argument}
    {resolved : ResolvedArgument}
    (isArgument : ofArgument environment model argument = .ok resolved) :
    resolved.value.ExistsIn model := by
  unfold ofArgument at isArgument
  split at isArgument
  · obtain ⟨value, isValue, isResolved⟩ := bind_eq_ok.1 isArgument
    cases isResolved
    exact Resolved.existsIn_of_path named isValue
  · cases isArgument
    trivial

/-- An argument fails only because its path cannot be followed. -/
theorem ofArgument_fails
    (environment : Environment)
    (model : Model)
    (argument : Argument) :
    FailsOnly (·.arisesInPaths = true)
      (ofArgument environment model argument) := by
  unfold ofArgument
  split
  · apply FailsOnly.bind (Resolved.ofPath_fails _ _ _)
    intro value
    exact .ok _
  · exact .ok _

/-- All arguments of a command stand for what the model has. -/
theorem existsIn_of_arguments
    {environment : Environment}
    {model : Model}
    (named : model.NamedByKey)
    {arguments : List Argument}
    {resolved : List ResolvedArgument}
    (areResolved :
      arguments.mapM (ofArgument environment model) = .ok resolved) :
    ∀ argument ∈ resolved, argument.value.ExistsIn model := by
  intro argument member
  obtain ⟨written, _, isArgument⟩ := exists_of_mem_mapM areResolved member
  exact existsIn_of_argument named isArgument

end ResolvedArgument

/-! ## Models that are built -/

namespace ModelBuilder

/-- Building one more graph keeps all graphs under their own names. -/
theorem namedByKey_build
    {builder : ModelBuilder}
    (named : builder.model.NamedByKey)
    (environment : Environment)
    (declaration : GraphDeclaration) :
    (builder.build environment declaration).builder.model.NamedByKey := by
  cases isTaken : builder.declaredAt.get? declaration.name.name with
  | some earlier =>
      rw [build_of_taken environment isTaken]
      exact named
  | none =>
      rw [model_build_of_unused environment isTaken]
      split
      · exact named.add _
      · exact named

/-- Building a graph never fails as a handler does. -/
theorem outcome_build_fails
    (builder : ModelBuilder)
    (environment : Environment)
    (declaration : GraphDeclaration) :
    FailsOnly (·.arisesInHandlers = false)
      (builder.build environment declaration).outcome := by
  cases isTaken : builder.declaredAt.get? declaration.name.name with
  | some earlier =>
      rw [build_of_taken environment isTaken]
      exact .error rfl
  | none =>
      rw [outcome_build_of_unused environment isTaken]
      have bodyErrors :=
        Draft.finished_declarationErrorsOnly
          (opening environment declaration) declaration
      refine (bodyErrors.map _).imp fun error arises => ?_
      cases error with
      | commandFailed => cases arises
      | _ => rfl

/-- The models of successful declarations store graphs under their names. -/
theorem Builds.namedByKey
    {environment : Environment}
    {builder final : ModelBuilder}
    {declarations : List GraphDeclaration}
    (builds : builder.Builds environment declarations final)
    (named : builder.model.NamedByKey) :
    final.model.NamedByKey := by
  apply Succession.keeps (·.model.NamedByKey) ?_ builds named
  intro reached declaration next built namedReached
  have namedNext := namedByKey_build namedReached environment declaration
  rw [built] at namedNext
  exact namedNext

end ModelBuilder

namespace Registry

variable
  {State : Type}
  {registry : Registry State}
  {environment : Environment}
  {model : Model}

/-- Whether the arguments of all calls stand for what the called model has. -/
def ArgumentsExist
    (calls : List Call) :
    Prop :=
  ∀ call ∈ calls, ∀ argument ∈ call.arguments,
    argument.value.ExistsIn call.model

section Serving

variable
  {progress next : Progress State}
  {command : Command}

/-- One more call with the resolved arguments of a command. -/
theorem argumentsExist_append
    (named : model.NamedByKey)
    {calls : List Call}
    (exist : ArgumentsExist calls)
    {name : String}
    {written : List Argument}
    {arguments : List ResolvedArgument}
    (resolved :
      written.mapM (ResolvedArgument.ofArgument environment model) =
        .ok arguments) :
    ArgumentsExist (calls ++ [⟨name, model, arguments⟩]) := by
  intro call member
  rcases List.mem_append.1 member with earlier | isLast
  · exact exist call earlier
  · cases List.mem_singleton.1 isLast
    exact ResolvedArgument.existsIn_of_arguments named resolved

/-- A command that is called gets arguments that exist. -/
theorem Serves.argumentsExist
    (serves : registry.Serves environment model progress command next)
    (named : model.NamedByKey)
    (exist : ArgumentsExist progress.calls) :
    ArgumentsExist next.calls := by
  cases serves with
  | called resolved _ _ =>
      exact argumentsExist_append named exist resolved

/-- All commands that are called get arguments that exist. -/
theorem ServesAll.argumentsExist
    {commands : List Command}
    (serves : registry.ServesAll environment model progress commands next)
    (named : model.NamedByKey)
    (exist : ArgumentsExist progress.calls) :
    ArgumentsExist next.calls :=
  Succession.keeps (fun reached => ArgumentsExist reached.calls)
    (fun served kept => served.argumentsExist named kept) serves exist

/--
A command that stops the program has got arguments that exist, if it was called.
-/
theorem Stops.argumentsExist
    {error : EvaluationError}
    (stops :
      registry.Stops environment model progress command (error, next))
    (named : model.NamedByKey)
    (exist : ArgumentsExist progress.calls) :
    ArgumentsExist next.calls := by
  cases stops with
  | unresolved _ =>
      exact exist
  | unregistered _ _ =>
      exact exist
  | failed resolved _ _ =>
      exact argumentsExist_append named exist resolved

end Serving

variable
  {program : Program}
  {state last : State}
  {outcome : Except EvaluationError Evaluation}
  {calls : List Call}

/-- Handlers are called only with what the model has that they are given. -/
theorem Evaluates.argumentsExist
    (evaluates : registry.Evaluates program state outcome last calls) :
    ArgumentsExist calls := by
  have none : ArgumentsExist [] := by
    intro call member
    cases member
  cases evaluates with
  | undeclared _ _ _ =>
      exact none
  | unbuilt _ _ _ _ =>
      exact none
  | stopped _ builds _ serves stops =>
      have named := builds.namedByKey Model.NamedByKey.empty
      exact stops.argumentsExist named (serves.argumentsExist named none)
  | completed _ builds serves =>
      have named := builds.namedByKey Model.NamedByKey.empty
      exact serves.argumentsExist named none

/-- The failure of a handler is what the handler answers to existing arguments. -/
theorem Evaluates.handler_failed
    {command : String}
    {span : Span}
    {failure : CommandFailure}
    (evaluates :
      registry.Evaluates program state
        (.error (.commandFailed command span failure)) last calls) :
    ∃ handler model arguments before,
      registry.get? command = some handler ∧
        model.NamedByKey ∧
        (∀ argument ∈ arguments, argument.value.ExistsIn model) ∧
        (handler model arguments before).1 = .error failure := by
  cases evaluates with
  | @undeclared _ _ _ reached _ _ _ fails =>
      have arises := reached.declareVariable_declarationErrorsOnly _ _ fails
      cases arises
  | @unbuilt _ _ _ _ reached _ _ _ _ fails =>
      have arises := reached.outcome_build_fails _ _ _ fails
      cases arises
  | stopped _ builds _ _ stops =>
      have named := builds.namedByKey Model.NamedByKey.empty
      cases stops with
      | unresolved fails =>
          have arises :=
            FailsOnly.mapM (ResolvedArgument.ofArgument_fails _ _) _ _ fails
          cases arises
      | failed resolved registered fails =>
          exact ⟨_, _, _, _, registered, named,
            ResolvedArgument.existsIn_of_arguments named resolved,
            congrArg Prod.fst fails⟩

end Registry

end GraphScript
