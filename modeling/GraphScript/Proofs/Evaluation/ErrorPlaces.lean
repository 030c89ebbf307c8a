import GraphScript.Proofs.Evaluation.ResolvedArguments
import GraphScript.Proofs.Program.Parts

namespace GraphScript

/-!
# Errors point into the program

Whatever ends an evaluation, and however far from its declaration a variable was
used, the error is reported at a part of the program, and every name that it
gives is written in the program. Each evaluating function is given parts of the
program only, and reports nothing else.
-/

/-- A name that is written in a program, alone or behind a dollar sign. -/
def Program.Uses
    (program : Program)
    (identifier : Identifier) :
    Prop :=
  program.Contains (.name identifier) ∨
    program.Contains (.reference identifier)

/-- The paths of a program have names. -/
def Program.PathsHaveNames
    (program : Program) :
    Prop :=
  ∀ followed, program.Contains (.path followed) → followed.segments ≠ []

namespace EvaluationError

/--
The names that an error gives: of variables, nodes, keys, graphs and commands.

What a handler says about its failure is its own.
-/
def names :
    EvaluationError →
    List String
  | .redeclaration name _ _ => [name]
  | .unboundName name _ => [name]
  | .duplicateGraph graph _ _ => [graph]
  | .attributeKeyConflict key _ => [key]
  | .directionMismatch graph _ _ _ => [graph]
  | .typeMismatch name _ _ _ => [name]
  | .pathResolution path segment _ => segment :: path
  | .unknownCommand command _ => [command]
  | .commandFailed command _ _ => [command]

/-- An error is reported at a part of a program, in names of the program. -/
structure PointsInto
    (program : Program)
    (error : EvaluationError) :
    Prop where
  spans : ∃ part, program.Contains part ∧ part.span = error.span
  spells :
    ∀ name ∈ error.names,
      ∃ identifier, program.Uses identifier ∧ identifier.name = name

/-- An error may be reported at a part, in the name of something else. -/
theorem PointsInto.of_part
    {program : Program}
    {error : EvaluationError}
    {part : Part}
    {identifier : Identifier}
    (contains : program.Contains part)
    (isSpan : part.span = error.span)
    (uses : program.Uses identifier)
    (isName : error.names = [identifier.name]) :
    error.PointsInto program := by
  refine ⟨⟨part, contains, isSpan⟩, fun name member => ?_⟩
  rw [isName] at member
  exact ⟨identifier, uses, (List.mem_singleton.1 member).symm⟩

/-- An error may be about a name where it is written. -/
theorem PointsInto.of_name
    {program : Program}
    {error : EvaluationError}
    {name : Identifier}
    (contains : program.Contains (.name name))
    (isSpan : name.span = error.span)
    (isName : error.names = [name.name]) :
    error.PointsInto program :=
  .of_part contains isSpan (.inl contains) isName

/-- An error may be about a variable where it is referred to. -/
theorem PointsInto.of_reference
    {program : Program}
    {error : EvaluationError}
    {variableName : Identifier}
    (contains : program.Contains (.reference variableName))
    (isSpan : variableName.span = error.span)
    (isName : error.names = [variableName.name]) :
    error.PointsInto program :=
  .of_part contains isSpan (.inr contains) isName

end EvaluationError

open EvaluationError

/-- Whether a computation fails only with errors that point into a program. -/
abbrev FailsInside
    {α : Type}
    (program : Program)
    (computed : Except EvaluationError α) :
    Prop :=
  FailsOnly (PointsInto program) computed

/-! ## Parts of declarations and statements -/

namespace Program.Contains

variable {program : Program}

/-- What is right inside a part of a program is in the program. -/
theorem of_mem
    {outer part : Part}
    (contains : program.Contains outer)
    (member : part ∈ outer.parts) :
    program.Contains part :=
  .inside contains member

/-- A program contains its variable declarations. -/
theorem of_binding
    {declaration : VariableDeclaration}
    (member : declaration ∈ program.bindings) :
    program.Contains (.binding declaration) :=
  .here (by simp [parts, member])

/-- A program contains its graphs. -/
theorem of_graph
    {declaration : GraphDeclaration}
    (member : declaration ∈ program.graphs) :
    program.Contains (.graph declaration) :=
  .here (by simp [parts, member])

/-- A program contains its commands. -/
theorem of_command
    {command : Command}
    (member : command ∈ program.commands) :
    program.Contains (.command command) :=
  .here (by simp [parts, member])

variable {declaration : GraphDeclaration}

/-- It contains the names of its graphs. -/
theorem graphName
    (contains : program.Contains (.graph declaration)) :
    program.Contains (.name declaration.name) :=
  contains.of_mem List.mem_cons_self

/-- It contains the items of its graphs. -/
theorem of_item
    (contains : program.Contains (.graph declaration))
    {item : BodyItem}
    (member : item ∈ declaration.items) :
    program.Contains item.part :=
  contains.of_mem (List.mem_cons_of_mem _ (List.mem_map_of_mem member))

/-- It contains the default declarations of its graphs. -/
theorem of_defaults
    (contains : program.Contains (.graph declaration))
    {declared : DefaultDeclaration}
    (member : declared ∈ declaration.defaults) :
    program.Contains (.defaults declared) := by
  obtain ⟨item, isItem, isDefaults⟩ := List.mem_filterMap.1 member
  cases item <;> cases isDefaults
  exact contains.of_item isItem

/-- It contains the statements of its graphs. -/
theorem of_statement
    (contains : program.Contains (.graph declaration))
    {statement : Statement}
    (member : statement ∈ declaration.statements) :
    program.Contains statement.part := by
  obtain ⟨item, isItem, isStatement⟩ := List.mem_filterMap.1 member
  cases item <;> cases isStatement
  exact contains.of_item isItem

end Program.Contains

/-! ## Evaluating declarations -/

section Declarations

variable {program : Program}

namespace Attributes

/-- A key that is written twice is reported where it is written again. -/
theorem addWritten_failsInside
    (built : Attributes)
    {listed : List Attribute}
    (contains : ∀ written ∈ listed, program.Contains (.pair written)) :
    FailsInside program (addWritten built listed) := by
  induction listed generalizing built with
  | nil =>
      exact .ok built
  | cons written rest inductionHypothesis =>
      have containsKey : program.Contains (.name written.key) :=
        (contains written List.mem_cons_self).of_mem List.mem_cons_self
      rw [addWritten]
      split
      · exact .error (.of_name containsKey rfl rfl)
      · exact inductionHypothesis _ fun later member =>
          contains later (List.mem_cons_of_mem _ member)

/-- A list of the program fails only at one of its own keys. -/
theorem ofList_failsInside
    {list : AttributeList}
    (contains : program.Contains (.attributeList list)) :
    FailsInside program (ofList list) :=
  addWritten_failsInside _ fun _ member =>
    contains.of_mem (List.mem_map_of_mem member)

end Attributes

namespace Environment

variable (environment : Environment)

/-- A variable that is missing is reported where it is referred to. -/
theorem lookup_failsInside
    {name : Identifier}
    (contains : program.Contains (.reference name)) :
    FailsInside program (environment.lookup name) := by
  unfold lookup
  split
  · exact .ok _
  · exact .error (.of_reference contains rfl rfl)

/-- Attributes fail inside their list or at the reference to them. -/
theorem attributesOf_failsInside
    {source : AttributeSource}
    (contains : program.Contains source.part) :
    FailsInside program (environment.attributesOf source) := by
  cases source with
  | list attributes =>
      exact Attributes.ofList_failsInside contains
  | reference name =>
      apply FailsOnly.bind (environment.lookup_failsInside contains)
      intro found
      split
      · exact .ok _
      · exact .error (.of_reference contains rfl rfl)

/-- Attributes that may be missing fail only where they are written. -/
theorem optionalAttributes_failsInside
    {source : Option AttributeSource}
    (contains :
      ∀ part ∈ AttributeSource.optionalParts source,
        program.Contains part) :
    FailsInside program (environment.optionalAttributes source) := by
  cases source with
  | none =>
      exact .ok _
  | some written =>
      exact environment.attributesOf_failsInside
        (contains _ List.mem_cons_self)

/-- A list in place of a node is reported at the name that stands for it. -/
theorem nodeOf_failsInside
    {name : Identifier}
    (contains : program.Contains (.name name)) :
    FailsInside program (environment.nodeOf name) := by
  unfold nodeOf
  split
  · exact .ok _
  · exact .error (.of_name contains rfl rfl)
  · exact .ok _

/-- An edge fails at one of its ends or inside its attributes. -/
theorem edgeOf_failsInside
    {statement : EdgeStatement}
    (contains : program.Contains (.edge statement)) :
    FailsInside program (environment.edgeOf statement) := by
  have inside (part : Part) (member : part ∈ (Part.edge statement).parts) :
      program.Contains part :=
    contains.of_mem member
  simp only [Part.parts, List.mem_cons, forall_eq_or_imp] at inside
  obtain ⟨containsLeft, containsRight, containAttributes⟩ := inside
  apply FailsOnly.bind (environment.nodeOf_failsInside containsLeft)
  intro left
  apply FailsOnly.bind (environment.nodeOf_failsInside containsRight)
  intro right
  apply FailsOnly.bind
    (environment.optionalAttributes_failsInside containAttributes)
  intro attributes
  exact .ok _

/-- A copy fails where the copied variable is referred to. -/
theorem copyOf_failsInside
    {name : Identifier}
    (contains : program.Contains (.reference name))
    (declaredType : VariableType) :
    FailsInside program (environment.copyOf name declaredType) := by
  apply FailsOnly.bind (environment.lookup_failsInside contains)
  intro found
  split
  · exact .ok _
  · exact .error (.of_reference contains rfl rfl)

/-- A name that is declared again is reported at the later declaration. -/
theorem checkUnbound_failsInside
    {name : Identifier}
    (contains : program.Contains (.name name)) :
    FailsInside program (environment.checkUnbound name) := by
  unfold checkUnbound
  split
  · exact .error (.of_name contains rfl rfl)
  · exact .ok _

variable {declaration : VariableDeclaration}

/-- A right-hand side fails inside the declaration that it belongs to. -/
theorem valueOf_failsInside
    (contains : program.Contains (.binding declaration)) :
    FailsInside program (environment.valueOf declaration) := by
  have containsName : program.Contains (.name declaration.name) :=
    contains.of_mem List.mem_cons_self
  have containsSource
      (part : Part)
      (member : part ∈ declaration.source.parts) :
      program.Contains part :=
    contains.of_mem (List.mem_cons_of_mem _ member)
  unfold valueOf
  split
  · next isSource _ =>
    rw [isSource] at containsSource
    split
    · exact .ok _
    · exact environment.copyOf_failsInside
        (containsSource _ List.mem_cons_self) _
  · next isSource _ =>
    rw [isSource] at containsSource
    exact environment.copyOf_failsInside
      (containsSource _ List.mem_cons_self) _
  · exact .ok _
  · next isSource _ =>
    rw [isSource] at containsSource
    refine (FailsOnly.mapM_of_mem fun statement member => ?_).map _
    exact environment.edgeOf_failsInside
      (containsSource _ (List.mem_map_of_mem member))
  · next isSource _ =>
    rw [isSource] at containsSource
    exact (Attributes.ofList_failsInside
      (containsSource _ List.mem_cons_self)).map _
  · exact .error (.of_part contains rfl (.inl containsName) rfl)

/-- A declaration fails at its name or inside its right-hand side. -/
theorem declareVariable_failsInside
    (contains : program.Contains (.binding declaration)) :
    FailsInside program (environment.declareVariable declaration) := by
  have containsName : program.Contains (.name declaration.name) :=
    contains.of_mem List.mem_cons_self
  apply FailsOnly.bind (environment.checkUnbound_failsInside containsName)
  intro _
  apply FailsOnly.bind (environment.valueOf_failsInside contains)
  intro value
  apply FailsOnly.bind (environment.checkUnbound_failsInside containsName)
  intro _
  split
  · exact .ok _
  · exact .error (.of_name containsName rfl rfl)

end Environment

/-! ## Evaluating the bodies of graphs -/

/-- The name of a graph is that of a declaration in a program. -/
def Graph.NamedIn
    (program : Program)
    (graph : Graph) :
    Prop :=
  ∃ identifier, program.Uses identifier ∧ graph.id = identifier.name

namespace Graph

variable {graph : Graph}

/-- An edge against the direction is reported at the statement that adds it. -/
theorem addEdge_failsInside
    (named : graph.NamedIn program)
    (edge : Edge)
    {part : Part}
    (contains : program.Contains part) :
    FailsInside program (graph.addEdge edge part.span) := by
  obtain ⟨identifier, uses, isName⟩ := named
  unfold addEdge
  split
  · exact .ok _
  · exact .error (.of_part contains rfl uses (by rw [names, isName]))

/-- Spliced edges are reported at the statement that splices them. -/
theorem addEdges_failsInside
    (named : graph.NamedIn program)
    (edges : List Edge)
    {part : Part}
    (contains : program.Contains part) :
    FailsInside program (graph.addEdges edges part.span) := by
  induction edges generalizing graph with
  | nil =>
      exact .ok _
  | cons edge rest inductionHypothesis =>
      rw [addEdges, List.foldlM_cons]
      refine FailsOnly.bindOk (addEdge_failsInside named edge contains)
        fun next added => ?_
      rw [addEdge_receives added]
      exact inductionHypothesis named

end Graph

namespace Draft

variable {draft next : Draft}

/-- Defaults do not change the name of a graph. -/
theorem namedIn_of_applyDefaults
    {declaration : DefaultDeclaration}
    (applied : draft.applyDefaults declaration = .ok next)
    (named : draft.graph.NamedIn program) :
    next.graph.NamedIn program := by
  obtain ⟨attributes, _, isNext⟩ := bind_eq_ok.1 applied
  cases isNext
  rw [Graph.addDefaults_eq]
  exact named

/-- No statement changes the name of a graph. -/
theorem namedIn_of_applyStatement
    {statement : Statement}
    (applied : draft.applyStatement statement = .ok next)
    (named : draft.graph.NamedIn program) :
    next.graph.NamedIn program := by
  cases statement with
  | binding declaration =>
      obtain ⟨environment, _, isNext⟩ := bind_eq_ok.1 applied
      cases isNext
      exact named
  | node written =>
      obtain ⟨graph, evaluated, isNext⟩ := bind_eq_ok.1 applied
      cases isNext
      obtain ⟨_, _, rfl⟩ := afterNode_receives evaluated
      exact named
  | edge written =>
      obtain ⟨edge, _, applied⟩ := bind_eq_ok.1 applied
      obtain ⟨graph, evaluated, isNext⟩ := bind_eq_ok.1 applied
      cases isNext
      rw [Graph.addEdge_receives evaluated]
      exact named

/-- A default declaration fails inside its attributes. -/
theorem applyDefaults_failsInside
    (draft : Draft)
    {declaration : DefaultDeclaration}
    (contains : program.Contains (.defaults declaration)) :
    FailsInside program (draft.applyDefaults declaration) := by
  apply FailsOnly.bind
    (draft.environment.attributesOf_failsInside
      (contains.of_mem List.mem_cons_self))
  intro attributes
  exact .ok _

/-- A node statement fails inside it, with errors about its own names. -/
theorem afterNode_failsInside
    (named : draft.graph.NamedIn program)
    {statement : NodeStatement}
    (contains : program.Contains (.nodes statement)) :
    FailsInside program (draft.afterNode statement) := by
  have containAttributes
      (part : Part)
      (member : part ∈ AttributeSource.optionalParts statement.attributes) :
      program.Contains part :=
    contains.of_mem (List.mem_append_right _ member)
  have containTarget
      (part : Part)
      (member : part ∈ statement.target.parts) :
      program.Contains part :=
    contains.of_mem (List.mem_append_left _ member)
  apply FailsOnly.bind
    (draft.environment.optionalAttributes_failsInside containAttributes)
  intro attributes
  split
  · exact .ok _
  · next isTarget =>
    rw [isTarget] at containTarget
    have containsName := containTarget _ List.mem_cons_self
    apply FailsOnly.bind (draft.environment.lookup_failsInside containsName)
    intro found
    split
    · exact .ok _
    · exact .ok _
    -- Edges are reported where they are added, not where they were written.
    · exact Graph.addEdges_failsInside named _ contains
    · exact .error (.of_reference containsName rfl rfl)

/-- Every statement of a body fails inside it. -/
theorem applyStatement_failsInside
    (named : draft.graph.NamedIn program)
    {statement : Statement}
    (contains : program.Contains statement.part) :
    FailsInside program (draft.applyStatement statement) := by
  cases statement with
  | binding declaration =>
      apply FailsOnly.bind
        (draft.environment.declareVariable_failsInside contains)
      intro environment
      exact .ok _
  | node written =>
      apply FailsOnly.bind (afterNode_failsInside named contains)
      intro graph
      exact .ok _
  | edge written =>
      apply FailsOnly.bind (draft.environment.edgeOf_failsInside contains)
      intro edge
      apply FailsOnly.bind (Graph.addEdge_failsInside named edge contains)
      intro graph
      exact .ok _

/-- The body of a graph fails inside the declaration of the graph. -/
theorem finished_failsInside
    (named : draft.graph.NamedIn program)
    {declaration : GraphDeclaration}
    (contains : program.Contains (.graph declaration)) :
    FailsInside program (draft.finished declaration) := by
  have ranDefaults :
      FailsInside program (run applyDefaults draft declaration.defaults) :=
    run_failsOnly_of_mem
      (fun _ _ _ => namedIn_of_applyDefaults)
      (fun draft _ _ member =>
        draft.applyDefaults_failsInside (contains.of_defaults member))
      named
  have ranStatements :
      FailsInside program (run applyStatement draft declaration.statements) :=
    run_failsOnly_of_mem
      (fun _ _ _ applied kept => namedIn_of_applyStatement applied kept)
      (fun _ kept _ member =>
        applyStatement_failsInside kept (contains.of_statement member))
      named
  rw [finished_eq_settle]
  apply FailsOnly.bind (ranDefaults.map _)
  intro maps
  exact ranStatements.map _

end Draft

/-- A graph fails inside its declaration, also where its name is in use. -/
theorem ModelBuilder.outcome_build_failsInside
    (builder : ModelBuilder)
    (environment : Environment)
    {declaration : GraphDeclaration}
    (contains : program.Contains (.graph declaration)) :
    FailsInside program (builder.build environment declaration).outcome := by
  cases isTaken : builder.declaredAt.get? declaration.name.name with
  | some earlier =>
      rw [build_of_taken environment isTaken]
      exact .error (.of_name contains.graphName rfl rfl)
  | none =>
      rw [outcome_build_of_unused environment isTaken]
      have named :
          (opening environment declaration).graph.NamedIn program :=
        ⟨declaration.name, .inl contains.graphName, rfl⟩
      exact (Draft.finished_failsInside named contains).map _

end Declarations

/-! ## Running commands -/

section Commands

variable
  {program : Program}
  (environment : Environment)
  (model : Model)

/-- A path that cannot be followed is reported at one of its names. -/
theorem EvaluationError.PointsInto.of_segment
    {followed : Path}
    (contains : program.Contains (.path followed))
    {segment : Identifier}
    (member : segment ∈ followed.segments) :
    PointsInto program
      (.pathResolution followed.names segment.name segment.span) := by
  have containsSegment
      (identifier : Identifier)
      (among : identifier ∈ followed.segments) :
      program.Contains (.name identifier) :=
    contains.of_mem (List.mem_map_of_mem among)
  refine ⟨⟨_, containsSegment segment member, rfl⟩, fun name given => ?_⟩
  rcases List.mem_cons.1 given with rfl | isInPath
  · exact ⟨segment, .inl (containsSegment segment member), rfl⟩
  · obtain ⟨identifier, among, rfl⟩ := List.mem_map.1 isInPath
    exact ⟨identifier, .inl (containsSegment identifier among), rfl⟩

namespace Resolved

/-- A path fails at one of its segments. -/
theorem narrowAll_failsInside
    {followed : Path}
    (contains : program.Contains (.path followed))
    (current : Resolved)
    {segments : List Identifier}
    (among : segments ⊆ followed.segments) :
    FailsInside program
      (narrowAll environment model followed current segments) := by
  induction segments generalizing current with
  | nil =>
      exact .ok current
  | cons segment rest inductionHypothesis =>
      obtain ⟨isSegment, areSegments⟩ := List.cons_subset.1 among
      rw [narrowAll]
      split
      · exact inductionHypothesis _ areSegments
      · exact .error (.of_segment contains isSegment)

/-- A path of the program fails at one of its segments, and gives all their names. -/
theorem ofPath_failsInside
    (haveNames : program.PathsHaveNames)
    {followed : Path}
    (contains : program.Contains (.path followed)) :
    FailsInside program (ofPath environment model followed) := by
  unfold ofPath
  split
  · next isEmpty =>
    exact absurd isEmpty (haveNames followed contains)
  · exact .ok _
  · next first rest _ areSegments =>
    split
    · refine narrowAll_failsInside environment model contains _ ?_
      rw [areSegments]
      exact List.subset_cons_self first rest
    · refine .error (.of_segment contains ?_)
      rw [areSegments]
      exact List.mem_cons_self

end Resolved

/-- An argument fails inside its path, and a literal does not fail. -/
theorem ResolvedArgument.ofArgument_failsInside
    (haveNames : program.PathsHaveNames)
    {argument : Argument}
    (contains : program.Contains (.argument argument)) :
    FailsInside program (ofArgument environment model argument) := by
  have containsSource
      (part : Part)
      (member : part ∈ argument.source.parts) :
      program.Contains part :=
    contains.of_mem (List.mem_cons_of_mem _ member)
  unfold ofArgument
  split
  · next isSource =>
    rw [isSource] at containsSource
    apply FailsOnly.bind
      (Resolved.ofPath_failsInside environment model haveNames
        (containsSource _ List.mem_cons_self))
    intro value
    exact .ok _
  · exact .ok _

variable
  {environment model}
  {State : Type}
  {registry : Registry State}

namespace Registry

/-- A command that ends an evaluation is reported inside the command. -/
theorem Stops.pointsInto
    (haveNames : program.PathsHaveNames)
    {progress next : Progress State}
    {command : Command}
    (contains : program.Contains (.command command))
    {error : EvaluationError}
    (stops :
      registry.Stops environment model progress command (error, next)) :
    error.PointsInto program := by
  have containsName : program.Contains (.name command.name) :=
    contains.of_mem List.mem_cons_self
  cases stops with
  | unresolved fails =>
      have failsInside :
          FailsInside program
            (command.arguments.mapM
              (ResolvedArgument.ofArgument environment model)) :=
        FailsOnly.mapM_of_mem fun argument member =>
          ResolvedArgument.ofArgument_failsInside environment model haveNames
            (contains.of_mem
              (List.mem_cons_of_mem _ (List.mem_map_of_mem member)))
      exact failsInside error fails
  | unregistered _ _ =>
      exact .of_name containsName rfl rfl
  | failed _ _ _ =>
      exact .of_part contains rfl (.inl containsName) rfl

/-- Whatever ends an evaluation points into the program. -/
theorem evaluate_failsInside
    (haveNames : program.PathsHaveNames)
    (registry : Registry State)
    (state : State) :
    FailsInside program (registry.evaluate program state).1 := by
  intro error fails
  rcases ran : registry.evaluate program state with ⟨outcome, last⟩
  obtain ⟨calls, evaluates⟩ := evaluates_of_evaluate ran
  rw [ran] at fails
  cases fails
  cases evaluates with
  | undeclared split _ fails =>
      have contains :=
        Program.Contains.of_binding (split ▸ List.mem_append_cons_self)
      exact Environment.declareVariable_failsInside _ contains _ fails
  | unbuilt _ split _ fails =>
      have contains :=
        Program.Contains.of_graph (split ▸ List.mem_append_cons_self)
      exact ModelBuilder.outcome_build_failsInside _ _ contains _ fails
  | stopped _ _ split _ stops =>
      have contains :=
        Program.Contains.of_command (split ▸ List.mem_append_cons_self)
      exact stops.pointsInto haveNames contains

end Registry

end Commands

end GraphScript
