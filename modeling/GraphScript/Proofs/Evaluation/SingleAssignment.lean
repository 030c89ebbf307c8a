import GraphScript.Proofs.Evaluation.ResolvedArguments
import GraphScript.Proofs.Model.HeldNames

namespace GraphScript

/-!
# Names are declared once in a scope

The program and the body of each graph are scopes of their own. A name that one
of them declares again ends the evaluation, if the evaluation gets so far, and
nothing else is reported as a redeclaration. What a graph declares leaves the
variables of the program as they are.
-/

namespace Program

/-- The variables that are declared in each scope of a program. -/
def scopes
    (program : Program) :
    List (List VariableDeclaration) :=
  program.bindings :: program.graphs.map GraphDeclaration.bindings

/--
What of a program is evaluated in front of the declaration of a variable, as a
program of its own, and the declarations that stand in front of it in its scope.

The defaults of a graph are evaluated in front of all its other items.
-/
inductive InFrontOf
    (program : Program) :
    VariableDeclaration →
    Program →
    List VariableDeclaration →
    Prop where
  | inProgram
      {earlier later : List VariableDeclaration}
      {declaration : VariableDeclaration}
      (split : program.bindings = earlier ++ declaration :: later) :
      InFrontOf program declaration
        { program with bindings := earlier, graphs := [], commands := [] }
        earlier
  | inGraph
      {before after : List GraphDeclaration}
      {graph : GraphDeclaration}
      {earlier later : List Statement}
      {declaration : VariableDeclaration}
      (isGraph : program.graphs = before ++ graph :: after)
      (split : graph.statements = earlier ++ .binding declaration :: later) :
      InFrontOf program declaration
        { program with
          graphs := before ++ [graph.withStatements earlier]
          commands := [] }
        (earlier.filterMap Statement.binding?)

/-- A declaration and those in front of it belong to one scope. -/
theorem InFrontOf.exists_scope
    {program before : Program}
    {declaration : VariableDeclaration}
    {earlier : List VariableDeclaration}
    (inFront : program.InFrontOf declaration before earlier) :
    ∃ scope ∈ program.scopes,
      ∃ later, scope = earlier ++ declaration :: later := by
  cases inFront with
  | inProgram split =>
      exact ⟨_, List.mem_cons_self, _, split⟩
  | @inGraph _ _ graph _ later _ isGraph split =>
      refine
        ⟨graph.bindings, List.mem_cons_of_mem _ ?_,
          later.filterMap Statement.binding?, ?_⟩
      · apply List.mem_map_of_mem
        simp [isGraph]
      · simp [GraphDeclaration.bindings, split, Statement.binding?]

end Program

/-- Declarations hold their variables in the order in which they are evaluated. -/
theorem Environment.Declares.holds
    {environment reached : Environment}
    {done declared : List VariableDeclaration}
    (declares : environment.Declares done reached)
    (holds : environment.Holds declared) :
    reached.Holds (declared ++ done) := by
  induction declares generalizing declared with
  | nil environment =>
      simpa using holds
  | cons first _ inductionHypothesis =>
      simpa using inductionHypothesis (holds.declareVariable first)

namespace ModelBuilder

/-- Graphs leave the variables of their program as they are. -/
theorem environment_buildAll
    (builder : ModelBuilder)
    (environment : Environment)
    (declarations : List GraphDeclaration) :
    (builder.buildAll environment declarations).environment = environment := by
  induction declarations generalizing builder with
  | nil =>
      rfl
  | cons declaration rest inductionHypothesis =>
      have kept := builder.environment_build environment declaration
      unfold buildAll
      dsimp only
      split
      · rw [kept]
        exact inductionHypothesis _
      · exact kept

/-- A call is refused with a redeclaration where its body is. -/
theorem outcome_build_redeclaration_iff
    {builder : ModelBuilder}
    {environment : Environment}
    {declaration : GraphDeclaration}
    {name : String}
    {span previous : Span} :
    (builder.build environment declaration).outcome =
        .error (.redeclaration name span previous) ↔
      builder.declaredAt.get? declaration.name.name = none ∧
        (opening environment declaration).finished declaration =
          .error (.redeclaration name span previous) := by
  cases isTaken : builder.declaredAt.get? declaration.name.name with
  | some earlier =>
      rw [build_of_taken environment isTaken]
      simp
  | none =>
      rw [outcome_build_of_unused environment isTaken, map_eq_error]
      simp

/-- A call succeeds where its name is new and its body is evaluated. -/
theorem outcome_build_ok_iff
    {builder : ModelBuilder}
    {environment : Environment}
    {declaration : GraphDeclaration} :
    (builder.build environment declaration).outcome = .ok () ↔
      builder.declaredAt.get? declaration.name.name = none ∧
        ∃ graph,
          (opening environment declaration).finished declaration =
            .ok graph := by
  cases isTaken : builder.declaredAt.get? declaration.name.name with
  | some earlier =>
      rw [build_of_taken environment isTaken]
      simp
  | none =>
      rw [outcome_build_of_unused environment isTaken, map_eq_ok]
      simp

/-- What is built behind other graphs is built with them. -/
theorem Builds.append_built
    {builder reached : ModelBuilder}
    {environment : Environment}
    {done : List GraphDeclaration}
    (builds : builder.Builds environment done reached)
    {declaration : GraphDeclaration}
    (built : (reached.build environment declaration).outcome = .ok ()) :
    ∃ final,
      builder.Builds environment (done ++ [declaration]) final := by
  have kept := reached.environment_build environment declaration
  rcases isResult : reached.build environment declaration with
    ⟨outcome, next, left⟩
  rw [isResult] at kept built
  cases kept
  cases built
  exact ⟨next, Succession.append builds (.cons isResult (.nil next))⟩

/-- A graph that is built with others is built behind those in front of it. -/
theorem Builds.split_at
    {builder final : ModelBuilder}
    {environment : Environment}
    {done left : List GraphDeclaration}
    {declaration : GraphDeclaration}
    (builds :
      builder.Builds environment (done ++ declaration :: left) final) :
    ∃ reached,
      builder.Builds environment done reached ∧
        (reached.build environment declaration).outcome = .ok () := by
  obtain ⟨reached, earlier, later⟩ := Succession.split builds
  cases later with
  | cons first _ => exact ⟨reached, earlier, by rw [first]⟩

end ModelBuilder

namespace Registry

variable
  {State : Type}
  {registry : Registry State}
  {program : Program}
  {state last : State}
  {calls : List Call}
  {name : String}
  {span previous : Span}

/-- A program without commands is evaluated where its graphs are built. -/
theorem exists_evaluation
    (registry : Registry State)
    (program : Program)
    (state : State)
    {declared : Environment}
    {built : ModelBuilder}
    (declares : Environment.empty.Declares program.bindings declared)
    (builds : ModelBuilder.empty.Builds declared program.graphs built)
    (noCommands : program.commands = []) :
    ∃ evaluation,
      (registry.evaluate program state).1 = .ok evaluation := by
  have serves :
      registry.ServesAll declared built.model ⟨state, [], []⟩
        program.commands ⟨state, [], []⟩ := by
    rw [noCommands]
    exact .nil _
  have evaluates := Evaluates.completed declares builds serves
  exact ⟨_, congrArg Prod.fst evaluates.evaluate⟩

/-- A program that is evaluated declares its variables and builds its graphs. -/
theorem exists_phases
    {evaluation : Evaluation}
    (evaluated : (registry.evaluate program state).1 = .ok evaluation) :
    ∃ declared built,
      Environment.empty.Declares program.bindings declared ∧
        ModelBuilder.empty.Builds declared program.graphs built ∧
        evaluation.bindings = declared.program := by
  rcases ran : registry.evaluate program state with ⟨outcome, last⟩
  obtain ⟨calls, evaluates⟩ := evaluates_of_evaluate ran
  rw [ran] at evaluated
  cases evaluated
  cases evaluates with
  | completed declares builds _ =>
      exact ⟨_, _, declares, builds, rfl⟩

/-- Commands are never refused with a redeclaration. -/
theorem Stops.notRedeclaration
    {environment : Environment}
    {model : Model}
    {progress next : Progress State}
    {command : Command}
    {error : EvaluationError}
    (stops :
      registry.Stops environment model progress command (error, next)) :
    error ≠ .redeclaration name span previous := by
  rintro rfl
  cases stops with
  | unresolved fails =>
      have arises :=
        FailsOnly.mapM (ResolvedArgument.ofArgument_fails _ _) _ _ fails
      cases arises

/-- An evaluation that ends in a redeclaration ends at a repeated name. -/
theorem Evaluates.exists_repeated
    (evaluates :
      registry.Evaluates program state
        (.error (.redeclaration name span previous)) last calls) :
    ∃ again before earlier evaluation,
      program.InFrontOf again before earlier ∧
        (registry.evaluate before state).1 = .ok evaluation ∧
        EvaluationError.Repeats earlier again
          (.redeclaration name span previous) := by
  cases evaluates with
  | @undeclared done left again reached _ split declares fails =>
      have repeats :=
        (declares.holds .empty).redeclaration_iff.1 fails
      let before : Program :=
        { program with bindings := done, graphs := [], commands := [] }
      obtain ⟨evaluation, evaluated⟩ :=
        exists_evaluation registry before state declares (.nil _) rfl
      exact ⟨again, _, done, evaluation, .inProgram split, evaluated,
        repeats⟩
  | @unbuilt declared done left graph reached _ declares split builds fails =>
      obtain ⟨unused, body⟩ :=
        ModelBuilder.outcome_build_redeclaration_iff.1 fails
      obtain ⟨earlier, again, later, finished, isBody, evaluated, repeats⟩ :=
        ModelBuilder.finished_redeclaration_iff.1 body
      have built :
          (reached.build declared (graph.withStatements earlier)).outcome =
            .ok () :=
        ModelBuilder.outcome_build_ok_iff.2 ⟨unused, finished, evaluated⟩
      obtain ⟨final, builtBefore⟩ := builds.append_built built
      let before : Program :=
        { program with
          graphs := done ++ [graph.withStatements earlier]
          commands := [] }
      obtain ⟨evaluation, evaluated⟩ :=
        exists_evaluation registry before state declares builtBefore rfl
      exact ⟨again, _, _, evaluation, .inGraph split isBody, evaluated,
        repeats⟩
  | stopped _ _ _ _ stops =>
      exact absurd rfl stops.notRedeclaration

/-- A repeated name ends an evaluation that reaches its second declaration. -/
theorem evaluate_of_repeated
    {again : VariableDeclaration}
    {before : Program}
    {earlier : List VariableDeclaration}
    {evaluation : Evaluation}
    (inFront : program.InFrontOf again before earlier)
    (evaluated : (registry.evaluate before state).1 = .ok evaluation)
    (repeats :
      EvaluationError.Repeats earlier again
        (.redeclaration name span previous)) :
    (registry.evaluate program state).1 =
      .error (.redeclaration name span previous) := by
  obtain ⟨declared, built, declares, builds, _⟩ := exists_phases evaluated
  cases inFront with
  | inProgram split =>
      have fails := (declares.holds .empty).redeclaration_iff.2 repeats
      have evaluates :
          registry.Evaluates program state _ state [] :=
        .undeclared split declares fails
      rw [evaluates.evaluate]
  | @inGraph _ _ graph _ _ _ isGraph split =>
      obtain ⟨reached, builtBefore, outcome⟩ := builds.split_at
      obtain ⟨unused, built, finished⟩ :=
        ModelBuilder.outcome_build_ok_iff.1 outcome
      have body :=
        ModelBuilder.finished_redeclaration_iff.2
          ⟨_, _, _, built, split, finished, repeats⟩
      have isNew :
          reached.declaredAt.get? graph.name.name = none :=
        unused
      have fails :=
        ModelBuilder.outcome_build_redeclaration_iff.2 ⟨isNew, body⟩
      have evaluates :
          registry.Evaluates program state _ state [] :=
        .unbuilt declares isGraph builtBefore fails
      rw [evaluates.evaluate]

/-- How names are declared in the scopes of a program, and how that ends. -/
structure AssignsOnce
    (registry : Registry State)
    (program : Program)
    (state : State) :
    Prop where
  /-- A program that is evaluated declares no name twice in a scope. -/
  distinct :
    ∀ evaluation,
      (registry.evaluate program state).1 = .ok evaluation →
      ∀ scope ∈ program.scopes, (scope.map (·.name.name)).Nodup
  /--
  A name that a scope declares again ends the evaluation, if all that is
  evaluated in front of it succeeds, and nothing else is a redeclaration.
  -/
  repeated :
    ∀ name span previous,
      (registry.evaluate program state).1 =
          .error (.redeclaration name span previous) ↔
        ∃ again before earlier evaluation,
          program.InFrontOf again before earlier ∧
            (registry.evaluate before state).1 = .ok evaluation ∧
            EvaluationError.Repeats earlier again
              (.redeclaration name span previous)
  /-- A name that no scope declares twice may be declared in many scopes. -/
  shadowed :
    ∀ name,
      (∀ scope ∈ program.scopes,
        (scope.map (·.name.name)).count name ≤ 1) →
      ∀ span previous,
        (registry.evaluate program state).1 ≠
          .error (.redeclaration name span previous)
  /-- Graphs and commands find the variables of the program as declared. -/
  kept :
    ∀ declared,
      Environment.empty.declareAll program.bindings = .ok declared →
      (∀ outer ∈ program.bindings,
        ∃ value,
          declared.get? outer.name.name = some (outer.boundTo value)) ∧
        ∀ done,
          done <+: program.graphs →
          (ModelBuilder.empty.buildAll declared done).environment = declared
  /-- An evaluation returns the variables of the program as declared. -/
  returned :
    ∀ evaluation,
      (registry.evaluate program state).1 = .ok evaluation →
      ∀ declared,
        Environment.empty.declareAll program.bindings = .ok declared →
        evaluation.bindings = declared.program

theorem evaluate_redeclaration_iff
    (registry : Registry State)
    (program : Program)
    (state : State)
    (name : String)
    (span previous : Span) :
    (registry.evaluate program state).1 =
        .error (.redeclaration name span previous) ↔
      ∃ again before earlier evaluation,
        program.InFrontOf again before earlier ∧
          (registry.evaluate before state).1 = .ok evaluation ∧
          EvaluationError.Repeats earlier again
            (.redeclaration name span previous) := by
  constructor
  · intro failed
    rcases ran : registry.evaluate program state with ⟨outcome, last⟩
    obtain ⟨calls, evaluates⟩ := evaluates_of_evaluate ran
    rw [ran] at failed
    cases failed
    exact evaluates.exists_repeated
  · rintro ⟨again, before, earlier, evaluation, inFront, evaluated, repeats⟩
    exact evaluate_of_repeated inFront evaluated repeats

/--
A scope declares a name once: an evaluation ends in a redeclaration exactly where
a name is declared again in its scope, and what a graph declares is not seen by
the later graphs and commands.
-/
theorem scopes_declare_names_once
    (registry : Registry State)
    (program : Program)
    (state : State) :
    registry.AssignsOnce program state := by
  constructor
  case distinct =>
    intro evaluation evaluated scope isScope
    obtain ⟨declared, built, declares, builds, _⟩ := exists_phases evaluated
    rcases List.mem_cons.1 isScope with rfl | isBody
    · exact (declares.holds .empty).distinct
    · obtain ⟨graph, isGraph, rfl⟩ := List.mem_map.1 isBody
      obtain ⟨before, after, isSplit⟩ := List.mem_iff_append.1 isGraph
      rw [isSplit] at builds
      obtain ⟨reached, _, outcome⟩ := builds.split_at
      obtain ⟨_, finished, isFinished⟩ :=
        ModelBuilder.outcome_build_ok_iff.1 outcome
      exact ModelBuilder.distinct_of_finished isFinished
  case repeated =>
    exact evaluate_redeclaration_iff registry program state
  case shadowed =>
    intro name once span previous failed
    obtain ⟨again, before, earlier, evaluation, inFront, _, repeats⟩ :=
      (evaluate_redeclaration_iff registry program state name span previous).1
        failed
    obtain ⟨first, isEarlier, sameName, isError⟩ := repeats
    cases isError
    obtain ⟨scope, isScope, later, rfl⟩ := inFront.exists_scope
    have atMostOnce := once _ isScope
    have isNamed :
        again.name.name ∈ earlier.map (·.name.name) :=
      sameName ▸ List.mem_map_of_mem isEarlier
    have declaredBefore := List.count_pos_iff.2 isNamed
    rw [List.map_append, List.map_cons, List.count_append,
      List.count_cons_self] at atMostOnce
    omega
  case kept =>
    intro declared isDeclared
    have declares := Environment.declares_of_declareAll isDeclared
    constructor
    · intro outer isOuter
      obtain ⟨value, held⟩ := (declares.holds .empty).get? isOuter
      exact ⟨value, Environment.get?_of_innermost held⟩
    · intro done _
      exact ModelBuilder.environment_buildAll _ _ _
  case returned =>
    intro evaluation evaluated declared isDeclared
    obtain ⟨reached, built, declares, _, returns⟩ := exists_phases evaluated
    rw [declares.declareAll] at isDeclared
    cases isDeclared
    exact returns

/--
A variable that one graph shadows and the next one reads, and a graph that
declares a name again with a right-hand side that has no value.
-/
theorem scopes_declare_names_once_of_shadowing :
    let name (text : String) (line : Nat) : Identifier :=
      ⟨text, .point ⟨line, 1⟩⟩
    let outer : VariableDeclaration :=
      ⟨.node, name "a" 1, .nodes [name "x" 1], default⟩
    let inner : VariableDeclaration :=
      ⟨.edge, name "a" 2, .reference (name "e" 2), default⟩
    let again : VariableDeclaration :=
      ⟨.attributes, name "a" 3, .reference (name "missing" 3), default⟩
    let edge : VariableDeclaration :=
      ⟨.edge, name "e" 1,
        .edges [⟨name "y" 1, .forward, name "z" 1, none, default⟩], default⟩
    let graph (id : String) (statements : List Statement) :
        GraphDeclaration :=
      ⟨.directed, name id 4, statements.map .statement, default⟩
    let splice : Statement := .node ⟨.reference (name "a" 5), none, default⟩
    let program (repeated : List Statement) : Program :=
      ⟨[outer, edge],
        [graph "g" (.binding inner :: splice :: repeated), graph "h" [splice]],
        [], default⟩
    let registry : Registry Unit := .empty
    (∃ evaluation,
      (registry.evaluate (program []) ()).1 = .ok evaluation ∧
        evaluation.model.graphs.values.map Graph.nodeNames =
          [["y", "z"], ["x"]] ∧
        evaluation.bindings.keys = ["a", "e"]) ∧
      (registry.evaluate (program [.binding again, splice]) ()).1 =
        .error
          (.redeclaration "a" (.point ⟨3, 1⟩) (.point ⟨2, 1⟩)) := by
  intro name outer inner again edge graph splice program registry
  refine ⟨⟨_, rfl, rfl, rfl⟩, ?_⟩
  have assigns :=
    scopes_declare_names_once registry (program [.binding again, splice]) ()
  have isGraph :
      (program [.binding again, splice]).graphs =
        [] ++ graph "g" [.binding inner, splice, .binding again, splice] ::
          [graph "h" [splice]] :=
    rfl
  have inBody :
      (graph "g" [.binding inner, splice, .binding again, splice]).statements =
        [.binding inner, splice] ++ .binding again :: [splice] :=
    rfl
  have inFront := Program.InFrontOf.inGraph isGraph inBody
  refine (assigns.repeated _ _ _).2 ⟨again, _, _, _, inFront, rfl, ?_⟩
  exact ⟨inner, List.mem_singleton.2 rfl, rfl, rfl⟩

end Registry

end GraphScript
