import GraphScript.Proofs.Evaluation.Succession

namespace GraphScript

/-!
# The calls of handlers

Handlers may keep a state, so it matters how often each of them is called, when,
and with what. A registry whose handlers note their calls shows that a program
whose declarations fail calls none, and that the commands of any other program
are served one after another: each of them calls its handler once, and the first
one that fails is the last one that is looked at.
-/

namespace Registry

/-- A call of a handler: the name under which it is registered, and its input. -/
structure Call where
  command : String
  model : Model
  arguments : List ResolvedArgument

variable {State : Type}

/-- A handler that notes each of its calls behind the state. -/
def recordedHandler
    (name : String)
    (handler : Handler State) :
    Handler (State × List Call) :=
  fun model arguments (state, calls) =>
    let (outcome, next) := handler model arguments state
    (outcome, next, calls ++ [⟨name, model, arguments⟩])

/-- The registry of the same handlers, which note their calls. -/
def recorded
    (registry : Registry State) :
    Registry (State × List Call) :=
  ⟨registry.handlers.mapValues recordedHandler⟩

theorem get?_recorded
    (registry : Registry State)
    (name : String) :
    registry.recorded.get? name =
      (registry.get? name).map (recordedHandler name) :=
  NameMap.get?_mapValues recordedHandler registry.handlers name

/-! ## Serving commands -/

/-- How far the commands of a program have been served. -/
structure Progress (State : Type) where
  state : State
  calls : List Call
  invocations : List Invocation

section Serving

variable
  (registry : Registry State)
  (environment : Environment)
  (model : Model)

/--
A command is served if its arguments resolve and its handler, called with them
once, succeeds.
-/
inductive Serves :
    Progress State →
    Command →
    Progress State →
    Prop where
  | called
      {progress : Progress State}
      {command : Command}
      {arguments : List ResolvedArgument}
      {handler : Handler State}
      {output : Json}
      {next : State}
      (resolved :
        command.arguments.mapM (ResolvedArgument.ofArgument environment model) =
          .ok arguments)
      (registered : registry.get? command.name.name = some handler)
      (succeeded : handler model arguments progress.state = (.ok output, next)) :
      Serves progress command
        { state := next
          calls :=
            progress.calls ++ [⟨command.name.name, model, arguments⟩]
          invocations :=
            progress.invocations ++
              [⟨command.name.name, arguments, output⟩] }

/--
A command stops an evaluation if an argument does not resolve, or else if it has
no handler, or else if its handler, called once, fails.
-/
inductive Stops :
    Progress State →
    Command →
    EvaluationError × Progress State →
    Prop where
  | unresolved
      {progress : Progress State}
      {command : Command}
      {error : EvaluationError}
      (fails :
        command.arguments.mapM (ResolvedArgument.ofArgument environment model) =
          .error error) :
      Stops progress command (error, progress)
  | unregistered
      {progress : Progress State}
      {command : Command}
      {arguments : List ResolvedArgument}
      (resolved :
        command.arguments.mapM (ResolvedArgument.ofArgument environment model) =
          .ok arguments)
      (missing : registry.get? command.name.name = none) :
      Stops progress command
        (.unknownCommand command.name.name command.name.span, progress)
  | failed
      {progress : Progress State}
      {command : Command}
      {arguments : List ResolvedArgument}
      {handler : Handler State}
      {failure : CommandFailure}
      {next : State}
      (resolved :
        command.arguments.mapM (ResolvedArgument.ofArgument environment model) =
          .ok arguments)
      (registered : registry.get? command.name.name = some handler)
      (fails :
        handler model arguments progress.state = (.error failure, next)) :
      Stops progress command
        (.commandFailed command.name.name command.span failure,
          { progress with
            state := next
            calls :=
              progress.calls ++ [⟨command.name.name, model, arguments⟩] })

/-- Whether some commands are all served, one after another. -/
def ServesAll :
    Progress State →
    List Command →
    Progress State →
    Prop :=
  Succession (registry.Serves environment model)

variable
  {registry environment model}
  {progress next : Progress State}
  {command : Command}

/-- Every command is served or stops the evaluation. -/
theorem serves_or_stops
    (registry : Registry State)
    (environment : Environment)
    (model : Model)
    (progress : Progress State)
    (command : Command) :
    (∃ next, registry.Serves environment model progress command next) ∨
      ∃ stop, registry.Stops environment model progress command stop := by
  cases resolved :
      command.arguments.mapM
        (ResolvedArgument.ofArgument environment model) with
  | error error =>
      exact .inr ⟨_, .unresolved resolved⟩
  | ok arguments =>
      cases registered : registry.get? command.name.name with
      | none =>
          exact .inr ⟨_, .unregistered resolved registered⟩
      | some handler =>
          rcases called : handler model arguments progress.state with
            ⟨_ | _, _⟩
          · exact .inr ⟨_, .failed resolved registered called⟩
          · exact .inl ⟨_, .called resolved registered called⟩

/-- A command that is served is dispatched, and its call is noted. -/
theorem Serves.dispatch
    (serves : registry.Serves environment model progress command next) :
    ∃ invocation,
      registry.recorded.dispatch environment model command
          (progress.state, progress.calls) =
        (.ok invocation, next.state, next.calls) ∧
      next.invocations = progress.invocations ++ [invocation] := by
  cases serves with
  | called resolved registered succeeded =>
      refine ⟨_, ?_, rfl⟩
      simp only [Registry.dispatch, get?_recorded, resolved, registered,
        Option.map_some, recordedHandler, succeeded]

/-- A command that stops an evaluation is refused with the error. -/
theorem Stops.dispatch
    {error : EvaluationError}
    (stops :
      registry.Stops environment model progress command (error, next)) :
    registry.recorded.dispatch environment model command
        (progress.state, progress.calls) =
      (.error error, next.state, next.calls) := by
  cases stops with
  | unresolved fails =>
      simp only [Registry.dispatch, fails]
  | unregistered resolved missing =>
      simp only [Registry.dispatch, get?_recorded, resolved, missing,
        Option.map_none]
  | failed resolved registered fails =>
      simp only [Registry.dispatch, get?_recorded, resolved, registered,
        Option.map_some, recordedHandler, fails]

/-- Commands that are served are dispatched before the commands behind them. -/
theorem ServesAll.dispatchAll_append
    {done : List Command}
    (serves : registry.ServesAll environment model progress done next) :
    ∃ invocations,
      next.invocations = progress.invocations ++ invocations ∧
        ∀ left,
          registry.recorded.dispatchAll environment model (done ++ left)
              (progress.state, progress.calls) =
            (registry.recorded.dispatchAll environment model left
              (next.state, next.calls)).map
                (Except.map (invocations ++ ·)) id := by
  -- For any commands that are left: `dispatchAll` collects its invocations from
  -- the front, while progress collects them from the back.
  induction serves with
  | nil progress =>
      refine ⟨[], (List.append_nil _).symm, fun left => ?_⟩
      rw [List.nil_append]
      generalize registry.recorded.dispatchAll environment model left
        (progress.state, progress.calls) = ran
      rcases ran with ⟨_ | _, _⟩ <;> rfl
  | cons first _ inductionHypothesis =>
      obtain ⟨invocation, dispatched, isFirst⟩ := first.dispatch
      obtain ⟨invocations, areLater, later⟩ := inductionHypothesis
      refine ⟨invocation :: invocations, ?_, fun left => ?_⟩
      · rw [areLater, isFirst, List.append_assoc]
        rfl
      · simp only [List.cons_append, Registry.dispatchAll, dispatched, later]
        generalize registry.recorded.dispatchAll environment model left _ = ran
        rcases ran with ⟨_ | _, _⟩ <;> rfl

/-- Commands that are served are called and answered once each, in their order. -/
theorem ServesAll.inOrder
    {done : List Command}
    (serves : registry.ServesAll environment model progress done next) :
    next.calls.map (·.command) =
        progress.calls.map (·.command) ++ done.map (·.name.name) ∧
      next.invocations.map (·.command) =
        progress.invocations.map (·.command) ++ done.map (·.name.name) := by
  induction serves with
  | nil progress =>
      simp
  | cons first _ inductionHypothesis =>
      cases first with
      | called _ _ _ =>
          simpa using inductionHypothesis

/-- All calls that serve commands get the same model. -/
theorem ServesAll.sameModel
    {done : List Command}
    (serves : registry.ServesAll environment model progress done next)
    (initial : ∀ call ∈ progress.calls, call.model = model) :
    ∀ call ∈ next.calls, call.model = model := by
  apply serves.keeps (fun reached => ∀ call ∈ reached.calls, call.model = model)
    ?_ initial
  intro reached command later served same call member
  cases served with
  | called _ _ _ =>
      rcases List.mem_append.1 member with earlier | isLast
      · exact same call earlier
      · cases List.mem_singleton.1 isLast
        rfl

/-- A command that stops an evaluation calls its own handler at most, and once. -/
theorem Stops.calls
    {error : EvaluationError}
    (stops :
      registry.Stops environment model progress command (error, next)) :
    next.calls.map (·.command) <+:
      progress.calls.map (·.command) ++ [command.name.name] := by
  cases stops with
  | unresolved _ =>
      exact List.prefix_append _ _
  | unregistered _ _ =>
      exact List.prefix_append _ _
  | failed _ _ _ =>
      simp

theorem commands_served_or_stopped
    (registry : Registry State)
    (environment : Environment)
    (model : Model)
    (progress : Progress State)
    (commands : List Command) :
    (∃ final,
        registry.ServesAll environment model progress commands final) ∨
      ∃ done failing left reached stop,
        commands = done ++ failing :: left ∧
          registry.ServesAll environment model progress done reached ∧
          registry.Stops environment model reached failing stop :=
  Succession.complete_or_stopped
    (registry.serves_or_stops environment model) progress commands

end Serving

/-! ## Programs -/

/--
How the evaluation of a program ends, with the state and the calls that it
leaves.

The phases are the variables, the graphs and the commands. Each of them is
worked off up to the first item that fails, and only the commands call handlers.
-/
inductive Evaluates
    (registry : Registry State)
    (program : Program)
    (state : State) :
    Except EvaluationError Evaluation →
    State →
    List Call →
    Prop where
  | undeclared
      {done left : List VariableDeclaration}
      {failing : VariableDeclaration}
      {reached : Environment}
      {error : EvaluationError}
      (split : program.bindings = done ++ failing :: left)
      (declares : Environment.empty.Declares done reached)
      (fails : reached.declareVariable failing = .error error) :
      Evaluates registry program state (.error error) state []
  | unbuilt
      {declared : Environment}
      {done left : List GraphDeclaration}
      {failing : GraphDeclaration}
      {reached : ModelBuilder}
      {error : EvaluationError}
      (declares : Environment.empty.Declares program.bindings declared)
      (split : program.graphs = done ++ failing :: left)
      (builds : ModelBuilder.empty.Builds declared done reached)
      (fails : (reached.build declared failing).outcome = .error error) :
      Evaluates registry program state (.error error) state []
  | stopped
      {declared : Environment}
      {built : ModelBuilder}
      {done left : List Command}
      {failing : Command}
      {reached last : Progress State}
      {error : EvaluationError}
      (declares : Environment.empty.Declares program.bindings declared)
      (builds : ModelBuilder.empty.Builds declared program.graphs built)
      (split : program.commands = done ++ failing :: left)
      (serves :
        registry.ServesAll declared built.model ⟨state, [], []⟩ done reached)
      (stops :
        registry.Stops declared built.model reached failing (error, last)) :
      Evaluates registry program state (.error error) last.state last.calls
  | completed
      {declared : Environment}
      {built : ModelBuilder}
      {last : Progress State}
      (declares : Environment.empty.Declares program.bindings declared)
      (builds : ModelBuilder.empty.Builds declared program.graphs built)
      (serves :
        registry.ServesAll declared built.model ⟨state, [], []⟩
          program.commands last) :
      Evaluates registry program state
        (.ok ⟨built.model, declared.program, last.invocations⟩)
        last.state last.calls

variable
  {registry : Registry State}
  {program : Program}
  {state last : State}
  {outcome : Except EvaluationError Evaluation}
  {calls : List Call}

/-- Every evaluation ends in one of the four ways. -/
theorem exists_evaluates
    (registry : Registry State)
    (program : Program)
    (state : State) :
    ∃ outcome last calls,
      registry.Evaluates program state outcome last calls := by
  rcases Environment.empty.declares_or_fails program.bindings with
    ⟨declared, declares⟩ | ⟨_, _, _, _, _, split, declares, fails⟩
  · rcases ModelBuilder.empty.builds_or_fails declared program.graphs with
      ⟨built, builds⟩ | ⟨_, _, _, _, _, split, builds, fails⟩
    · rcases registry.commands_served_or_stopped declared built.model
          ⟨state, [], []⟩ program.commands with
        ⟨final, serves⟩ | ⟨_, _, _, _, _, split, serves, stops⟩
      · exact ⟨_, _, _, .completed declares builds serves⟩
      · exact ⟨_, _, _, .stopped declares builds split serves stops⟩
    · exact ⟨_, _, _, .unbuilt declares split builds fails⟩
  · exact ⟨_, _, _, .undeclared split declares fails⟩

/-- A registry that notes its calls evaluates a program in the way described. -/
theorem Evaluates.evaluate_recorded
    (evaluates : registry.Evaluates program state outcome last calls) :
    registry.recorded.evaluate program (state, []) =
      (outcome, last, calls) := by
  cases evaluates with
  | undeclared split declares fails =>
      simp only [evaluate, split, declares.declareAll_of_error fails]
  | unbuilt declares split builds fails =>
      simp only [evaluate, declares.declareAll, split,
        builds.outcome_buildAll_of_error fails]
  | stopped declares builds split serves stops =>
      obtain ⟨invocations, _, dispatched⟩ := serves.dispatchAll_append
      simp only [evaluate, declares.declareAll, builds.buildAll, split,
        dispatched, dispatchAll, stops.dispatch]
      rfl
  | completed declares builds serves =>
      obtain ⟨invocations, areAll, dispatched⟩ := serves.dispatchAll_append
      have all := dispatched []
      rw [List.append_nil] at all
      rw [List.nil_append] at areAll
      simp only [evaluate, declares.declareAll, builds.buildAll, all,
        dispatchAll, areAll]
      simp [Except.map]

/-! ## Forgetting the calls -/

section Forgetting

variable
  (registry : Registry State)
  (environment : Environment)
  (model : Model)
  (state : State)
  (calls : List Call)

/-- Noting calls changes neither outcomes nor states. -/
theorem dispatch_recorded
    (command : Command) :
    registry.dispatch environment model command state =
      let (outcome, last, _) :=
        registry.recorded.dispatch environment model command (state, calls)
      (outcome, last) := by
  unfold dispatch
  rw [get?_recorded]
  cases command.arguments.mapM
      (ResolvedArgument.ofArgument environment model) with
  | error error =>
      rfl
  | ok arguments =>
      cases registry.get? command.name.name with
      | none =>
          rfl
      | some handler =>
          simp only [Option.map_some, recordedHandler]
          rcases handler model arguments state with ⟨_ | _, _⟩ <;> rfl

theorem dispatchAll_recorded
    (commands : List Command) :
    registry.dispatchAll environment model commands state =
      let (outcome, last, _) :=
        registry.recorded.dispatchAll environment model commands (state, calls)
      (outcome, last) := by
  induction commands generalizing state calls with
  | nil =>
      rfl
  | cons command rest inductionHypothesis =>
      simp only [dispatchAll,
        dispatch_recorded registry environment model state calls]
      rcases registry.recorded.dispatch environment model command
        (state, calls) with ⟨_ | _, next, noted⟩
      · rfl
      · simp only [inductionHypothesis next noted]

theorem evaluate_recorded
    (program : Program) :
    registry.evaluate program state =
      let (outcome, last, _) :=
        registry.recorded.evaluate program (state, calls)
      (outcome, last) := by
  unfold evaluate
  cases Environment.empty.declareAll program.bindings with
  | error error =>
      rfl
  | ok declared =>
      dsimp only
      split
      · rfl
      · rw [registry.dispatchAll_recorded _ _ state calls]

end Forgetting

/-- A program is evaluated in the way described, whether calls are noted or not. -/
theorem Evaluates.evaluate
    (evaluates : registry.Evaluates program state outcome last calls) :
    registry.evaluate program state = (outcome, last) := by
  rw [registry.evaluate_recorded state [], evaluates.evaluate_recorded]

/-- Whatever an evaluation gives, it ends in one of the four ways. -/
theorem evaluates_of_evaluate
    (evaluated : registry.evaluate program state = (outcome, last)) :
    ∃ calls, registry.Evaluates program state outcome last calls := by
  obtain ⟨_, _, calls, evaluates⟩ := exists_evaluates registry program state
  rw [evaluates.evaluate] at evaluated
  cases evaluated
  exact ⟨calls, evaluates⟩

/-- No command is called twice, before an earlier one, or behind one that fails. -/
theorem Evaluates.calls_prefix
    (evaluates : registry.Evaluates program state outcome last calls) :
    calls.map (·.command) <+: program.commands.map (·.name.name) := by
  cases evaluates with
  | undeclared _ _ _ =>
      exact List.nil_prefix
  | unbuilt _ _ _ _ =>
      exact List.nil_prefix
  | @stopped _ _ done left failing _ _ _ _ _ split serves stops =>
      have called := stops.calls
      rw [serves.inOrder.1] at called
      rw [split, List.map_append, List.map_cons]
      exact called.trans ⟨left.map (·.name.name), by simp⟩
  | completed _ _ serves =>
      rw [serves.inOrder.1]
      exact List.prefix_rfl

/-- An evaluation that succeeds has called and answered every command once. -/
theorem Evaluates.calls_of_ok
    {evaluation : Evaluation}
    (evaluates : registry.Evaluates program state (.ok evaluation) last calls) :
    calls.map (·.command) = program.commands.map (·.name.name) ∧
      evaluation.invocations.map (·.command) =
        program.commands.map (·.name.name) ∧
      ∀ call ∈ calls, call.model = evaluation.model := by
  cases evaluates with
  | completed _ _ serves =>
      exact ⟨serves.inOrder.1, serves.inOrder.2, serves.sameModel nofun⟩

/-- What a registry notes is the way in which the evaluation ends. -/
theorem evaluates_iff :
    registry.Evaluates program state outcome last calls ↔
      registry.recorded.evaluate program (state, []) =
          (outcome, last, calls) ∧
        registry.evaluate program state = (outcome, last) := by
  constructor
  · intro evaluates
    exact ⟨evaluates.evaluate_recorded, evaluates.evaluate⟩
  · intro ends
    obtain ⟨_, _, _, evaluates⟩ := exists_evaluates registry program state
    have recorded := ends.1
    rw [evaluates.evaluate_recorded] at recorded
    cases recorded
    exact evaluates

/--
What an evaluation gives, what state it leaves and which calls it makes is what
the phases of its program say. No command is called twice or out of order, and
an evaluation that succeeds has called all of them, with the model it returns.
-/
theorem commands_are_called_once_in_order
    (registry : Registry State)
    (program : Program)
    (state : State) :
    let noted := registry.recorded.evaluate program (state, [])
    let names := program.commands.map (·.name.name)
    (∀ outcome last calls,
      registry.Evaluates program state outcome last calls ↔
        noted = (outcome, last, calls) ∧
          registry.evaluate program state = (outcome, last)) ∧
      noted.2.2.map (·.command) <+: names ∧
      ∀ evaluation,
        (registry.evaluate program state).1 = .ok evaluation →
        noted.2.2.map (·.command) = names ∧
          evaluation.invocations.map (·.command) = names ∧
          ∀ call ∈ noted.2.2, call.model = evaluation.model := by
  intro noted names
  obtain ⟨outcome, last, calls, evaluates⟩ :=
    exists_evaluates registry program state
  have ends : noted = (outcome, last, calls) := evaluates.evaluate_recorded
  rw [ends]
  refine ⟨fun _ _ _ => ?_, evaluates.calls_prefix, ?_⟩
  · rw [← ends]
    exact evaluates_iff
  · intro evaluation succeeded
    rw [evaluates.evaluate] at succeeded
    cases succeeded
    exact evaluates.calls_of_ok

/--
Two commands share a counter. The third one is not registered, which counts only if
its argument can be resolved.
-/
theorem commands_are_called_once_in_order_of_counter :
    let name (text : String) : Identifier := ⟨text, default⟩
    let command (text : String) (segments : List String) : Command :=
      ⟨name text,
        [⟨name "at", .assign, .path ⟨segments.map name, default⟩, default⟩],
        default⟩
    let marks : AttributeList :=
      ⟨[⟨name "k", .assign, .word "x", default⟩], default⟩
    let body : List BodyItem :=
      [.statement (.node ⟨.list [name "a"], none, default⟩)]
    let program (commands : List Command) : Program :=
      ⟨[⟨.attributes, name "v", .attributes marks, default⟩],
        [⟨.directed, name "g", body, default⟩], commands, default⟩
    let counts := [command "count" ["v", "k"], command "count" ["g", "a"]]
    let unknown := counts ++ [command "skip" ["g", "a"]] ++ counts
    let unresolved := counts ++ [command "skip" ["g", "b"]] ++ counts
    let registry : Registry Nat :=
      Registry.empty.register "count"
        fun _ _ calls => (.ok (.count calls), calls + 1)
    let noted (commands : List Command) :=
      registry.recorded.evaluate (program commands) (0, [])
    let arguments : List (List ResolvedArgument) :=
      [[⟨"at", .assign, .scalar (.word "x")⟩],
        [⟨"at", .assign, .node "g" "a" .empty⟩]]
    (∃ calls,
      registry.Evaluates (program unknown) 0
          (.error (.unknownCommand "skip" default)) 2 calls ∧
        calls.map (·.arguments) = arguments) ∧
      (∃ calls,
        registry.Evaluates (program unresolved) 0
            (.error (.pathResolution ["g", "b"] "b" default)) 2 calls ∧
          calls.map (·.arguments) = arguments) ∧
      (noted unresolved).2.2.map (·.command) <+:
        ["count", "count", "skip", "count", "count"] ∧
      ∃ evaluation,
        (registry.evaluate (program counts) 0).1 = .ok evaluation ∧
          (noted counts).2.2.map (·.command) = ["count", "count"] ∧
          evaluation.invocations.map (·.command) = ["count", "count"] ∧
          evaluation.invocations.map (·.arguments) = arguments := by
  intro name command marks body program counts unknown unresolved registry
    noted arguments
  obtain ⟨ofUnknown, _, _⟩ :=
    commands_are_called_once_in_order registry (program unknown) 0
  obtain ⟨ofUnresolved, isPrefix, _⟩ :=
    commands_are_called_once_in_order registry (program unresolved) 0
  obtain ⟨_, _, whole⟩ :=
    commands_are_called_once_in_order registry (program counts) 0
  obtain ⟨called, answered, _⟩ := whole _ rfl
  exact ⟨⟨_, (ofUnknown _ _ _).2 ⟨rfl, rfl⟩, rfl⟩,
    ⟨_, (ofUnresolved _ _ _).2 ⟨rfl, rfl⟩, rfl⟩, isPrefix, _, rfl, called,
    answered, rfl⟩

end Registry

end GraphScript
