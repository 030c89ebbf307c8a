import GraphScript.Proofs.Evaluation.ErrorPlaces
import GraphScript.Proofs.Evaluation.SingleAssignment
import GraphScript.Proofs.Program.Hulls
import GraphScript.Script

namespace GraphScript

/-!
# Reports of errors in a text

An error that says where a name was declared before cites an earlier declaration
of that name, among the variables of one scope or among the graphs. In a program
that is read from a text, the citation stands in front of the error, and the
diagnostic of the error quotes the line of the text that it starts on.
-/

namespace EvaluationError

/-- The place of an earlier declaration that an error cites. -/
def previous? :
    EvaluationError →
    Option Span
  | .redeclaration _ _ previous => some previous
  | .duplicateGraph _ _ previous => some previous
  | _ => none

/-- Where an error cites an earlier declaration, its name is declared there. -/
def CitesEarlier
    (program : Program) :
    EvaluationError →
    Prop
  | .redeclaration name span previous =>
      ∃ scope ∈ program.scopes,
        List.Sublist [⟨name, previous⟩, ⟨name, span⟩] (scope.map (·.name))
  | .duplicateGraph graph span previous =>
      List.Sublist [⟨graph, previous⟩, ⟨graph, span⟩]
        (program.graphs.map (·.name))
  | _ => True

end EvaluationError

open EvaluationError

/-! ## Earlier declarations -/

theorem EvaluationError.Repeats.sublist
    {earlier later : List VariableDeclaration}
    {again : VariableDeclaration}
    {name : String}
    {span previous : Span}
    (repeats :
      Repeats earlier again (.redeclaration name span previous)) :
    List.Sublist [⟨name, previous⟩, ⟨name, span⟩]
      ((earlier ++ again :: later).map (·.name)) := by
  obtain ⟨first, isEarlier, sameName, isError⟩ := repeats
  cases isError
  have declaredFirst :
      List.Sublist [⟨again.name.name, first.name.span⟩]
        (earlier.map (·.name)) := by
    rw [← sameName, List.singleton_sublist]
    exact List.mem_map_of_mem isEarlier
  have declaredAgain :
      List.Sublist [again.name] ((again :: later).map (·.name)) := by
    simp
  rw [List.map_append]
  exact declaredFirst.append declaredAgain

namespace ModelBuilder

/-- A name that is taken was given to one of the graphs that were built. -/
theorem Builds.declaredAt
    {builder reached : ModelBuilder}
    {environment : Environment}
    {done : List GraphDeclaration}
    (builds : builder.Builds environment done reached)
    {name : String}
    {place : Span}
    (taken : reached.declaredAt.get? name = some place) :
    builder.declaredAt.get? name = some place ∨
      ⟨name, place⟩ ∈ done.map (·.name) := by
  induction builds with
  | nil builder =>
      exact .inl taken
  | @cons builder middle reached declaration rest first _
      inductionHypothesis =>
      -- A name that was taken before the later graphs is that of the first one
      -- or was taken before it, since a graph that is built has a new name.
      rcases inductionHypothesis taken with before | later
      · cases isTaken : builder.declaredAt.get? declaration.name.name with
        | some earlier =>
            rw [build_of_taken environment isTaken] at first
            cases first
        | none =>
            have added := declaredAt_build_of_unused environment isTaken
            rw [first] at added
            change middle.declaredAt = _ at added
            rw [added, NameMap.get?_insert] at before
            split at before
            · next isName =>
              cases before
              subst isName
              exact .inr List.mem_cons_self
            · exact .inl before
      · exact .inr (List.mem_cons_of_mem _ later)

/-- A call is refused as a second one where its name is taken. -/
theorem outcome_build_duplicateGraph
    {builder : ModelBuilder}
    {environment : Environment}
    {declaration : GraphDeclaration}
    {graph : String}
    {span previous : Span}
    (refused :
      (builder.build environment declaration).outcome =
        .error (.duplicateGraph graph span previous)) :
    declaration.name = ⟨graph, span⟩ ∧
      builder.declaredAt.get? graph = some previous := by
  cases isTaken : builder.declaredAt.get? declaration.name.name with
  | some earlier =>
      rw [build_of_taken environment isTaken] at refused
      cases refused
      exact ⟨rfl, isTaken⟩
  | none =>
      rw [outcome_build_of_unused environment isTaken, map_eq_error] at refused
      have arises := Draft.finished_declarationErrorsOnly _ _ _ refused
      cases arises

end ModelBuilder

namespace Registry

variable
  {State : Type}
  {registry : Registry State}
  {program : Program}
  {state last : State}

/-- A graph that is refused for its name repeats that of an earlier one. -/
theorem Evaluates.duplicateGraph_sublist
    {calls : List Call}
    {graph : String}
    {span previous : Span}
    (evaluates :
      registry.Evaluates program state
        (.error (.duplicateGraph graph span previous)) last calls) :
    List.Sublist [⟨graph, previous⟩, ⟨graph, span⟩]
      (program.graphs.map (·.name)) := by
  cases evaluates with
  | @undeclared _ _ _ reached _ _ _ fails =>
      have arises := reached.declareVariable_declarationErrorsOnly _ _ fails
      cases arises
  | unbuilt _ split builds fails =>
      obtain ⟨isName, taken⟩ := ModelBuilder.outcome_build_duplicateGraph fails
      have declaredFirst := (builds.declaredAt taken).resolve_left nofun
      rw [split, List.map_append, List.map_cons, isName]
      exact (List.singleton_sublist.2 declaredFirst).append (by simp)
  | stopped _ _ _ _ stops =>
      cases stops with
      | unresolved fails =>
          have arises :=
            FailsOnly.mapM (ResolvedArgument.ofArgument_fails _ _) _ _ fails
          cases arises

/-- An error that cites an earlier declaration repeats its name. -/
theorem evaluate_citesEarlier
    (registry : Registry State)
    (program : Program)
    (state : State) :
    FailsOnly (CitesEarlier program) (registry.evaluate program state).1 := by
  intro error fails
  cases error with
  | redeclaration name span previous =>
      obtain ⟨again, before, earlier, evaluation, inFront, _, repeats⟩ :=
        (evaluate_redeclaration_iff registry program state name span
          previous).1 fails
      obtain ⟨scope, isScope, later, rfl⟩ := inFront.exists_scope
      exact ⟨_, isScope, repeats.sublist⟩
  | duplicateGraph graph span previous =>
      rcases ran : registry.evaluate program state with ⟨outcome, last⟩
      obtain ⟨calls, evaluates⟩ := evaluates_of_evaluate ran
      rw [ran] at fails
      cases fails
      exact evaluates.duplicateGraph_sublist
  | _ =>
      trivial

end Registry

/-! ## Names in the order of a text -/

/-- What is within one of two spans in order is in order with the other. -/
theorem Span.Precedes.of_within
    {earlier later inEarlier inLater : Span}
    (precedes : earlier.Precedes later)
    (within : inEarlier.Within earlier)
    (laterWithin : inLater.Within later) :
    inEarlier.Precedes inLater :=
  lt_of_le_of_lt within.2 (lt_of_lt_of_le precedes laterWithin.1)

/-- The names of some declarations are in order where their items are. -/
theorem pairwise_names
    {Item Declaration : Type}
    {part : Item → Part}
    {declared? : Item → Option Declaration}
    {name : Declaration → Identifier}
    {items : List Item}
    (inOrder :
      (items.map part).Pairwise
        fun earlier later => earlier.span.Precedes later.span)
    (named :
      ∀ item ∈ items, ∀ declared,
        declared? item = some declared →
        (name declared).span.Within (part item).span) :
    ((items.filterMap declared?).map name).Pairwise
      fun earlier later => earlier.span.Precedes later.span := by
  rw [List.pairwise_map] at inOrder ⊢
  refine List.Pairwise.filterMap declared? ?_
    (inOrder.imp_of_mem fun {_ _} isEarlier isLater precedes =>
      And.intro isEarlier (And.intro isLater precedes))
  rintro earlier later ⟨isEarlier, isLater, precedes⟩ first isFirst second
    isSecond
  exact precedes.of_within (named earlier isEarlier first isFirst)
    (named later isLater second isSecond)

namespace Program

variable
  {text : List Char}
  {part : Part}

/-- The parts right inside a part of a read program are within its span. -/
theorem within_of_contains
    (contains :
      (ofTokens (Token.scan text).tokens).program.Contains part)
    {inner : Part}
    (member : inner ∈ part.parts) :
    inner.span.Within part.span := by
  obtain ⟨read, isRead, _, hull, stands⟩ := exists_hull text contains
  exact stands.within
    ((inOrder_pending_scan text).sublist isRead.sublist) hull member

/-- A read program has its variables and its graphs from items in order. -/
theorem exists_items_inOrder
    (text : List Char) :
    ∃ items : List Item,
      (ofTokens (Token.scan text).tokens).program.bindings =
          items.filterMap Item.binding? ∧
        (ofTokens (Token.scan text).tokens).program.graphs =
          items.filterMap Item.graph? ∧
        (items.map Item.part).Pairwise
          fun earlier later => earlier.span.Precedes later.span := by
  obtain ⟨items, isProgram, stands⟩ :=
    exists_items_standIn (Token.scan text).tokens
  exact ⟨items, congrArg Program.bindings isProgram,
    congrArg Program.graphs isProgram,
    stands.pairwise_precedes (inOrder_pending_scan text)⟩

/-- The names of the graphs are in order. -/
theorem pairwise_graphNames
    (text : List Char) :
    ((ofTokens (Token.scan text).tokens).program.graphs.map
        (·.name)).Pairwise
      fun earlier later => earlier.span.Precedes later.span := by
  obtain ⟨items, _, graphs, inOrder⟩ := exists_items_inOrder text
  rw [graphs]
  refine pairwise_names inOrder fun item isItem declared isGraph => ?_
  have member :
      declared ∈ (ofTokens (Token.scan text).tokens).program.graphs :=
    graphs ▸ List.mem_filterMap.2 ⟨item, isItem, isGraph⟩
  cases item <;> cases isGraph
  exact within_of_contains (.of_graph member) List.mem_cons_self

/-- The names of the variables of each scope are in order. -/
theorem pairwise_scopeNames
    (text : List Char)
    {scope : List VariableDeclaration}
    (isScope :
      scope ∈ (ofTokens (Token.scan text).tokens).program.scopes) :
    (scope.map (·.name)).Pairwise
      fun earlier later => earlier.span.Precedes later.span := by
  rcases List.mem_cons.1 isScope with rfl | isBody
  · obtain ⟨items, bindings, _, inOrder⟩ := exists_items_inOrder text
    rw [bindings]
    refine pairwise_names inOrder fun item isItem declared isBinding => ?_
    have member :
        declared ∈ (ofTokens (Token.scan text).tokens).program.bindings :=
      bindings ▸ List.mem_filterMap.2 ⟨item, isItem, isBinding⟩
    cases item <;> cases isBinding
    exact within_of_contains (.of_binding member) List.mem_cons_self
  · obtain ⟨graph, isGraph, rfl⟩ := List.mem_map.1 isBody
    have contains := Contains.of_graph isGraph
    obtain ⟨read, isRead, _, _, stands⟩ := exists_hull text contains
    have inOrder :=
      stands.pairwise_precedes
        ((inOrder_pending_scan text).sublist isRead.sublist)
    rw [GraphDeclaration.bindings, GraphDeclaration.statements,
      List.filterMap_filterMap]
    refine pairwise_names (List.pairwise_cons.1 inOrder).2
      fun item isItem declared isBinding => ?_
    obtain ⟨statement, isStatement, isDeclared⟩ :=
      Option.bind_eq_some_iff.1 isBinding
    cases item <;> cases isStatement
    cases statement <;> cases isDeclared
    exact within_of_contains (contains.of_item isItem) List.mem_cons_self

/-- In a read program, a citation stands in front of the error that gives it. -/
theorem previous_precedes
    {error : EvaluationError}
    (cites :
      error.CitesEarlier (ofTokens (Token.scan text).tokens).program)
    {previous : Span}
    (isPrevious : error.previous? = some previous) :
    previous.Precedes error.span := by
  have precedes_of_sublist
      {name : String}
      {span : Span}
      {names : List Identifier}
      (among : List.Sublist [⟨name, previous⟩, ⟨name, span⟩] names)
      (inOrder :
        names.Pairwise
          fun earlier later => earlier.span.Precedes later.span) :
      previous.Precedes span :=
    (List.pairwise_cons.1 (inOrder.sublist among)).1 _
      (List.mem_singleton_self _)
  cases error <;> cases isPrevious
  · obtain ⟨scope, isScope, among⟩ := cites
    exact precedes_of_sublist among (pairwise_scopeNames text isScope)
  · exact precedes_of_sublist cites (pairwise_graphNames text)

/-- The paths of a read program are read with at least one name. -/
theorem pathsHaveNames
    (text : List Char) :
    (ofTokens (Token.scan text).tokens).program.PathsHaveNames := by
  intro followed contains isEmpty
  obtain ⟨read, _, spelled, _⟩ := exists_hull text contains
  rcases followed with ⟨_ | ⟨_, _⟩, span⟩
  · exact spelled
  · cases isEmpty

/-- A part of a read program starts on a line of the text. -/
theorem startLine_of_contains
    (source : SourceFile)
    (contains :
      (ofTokens (Token.scan source.contents.toList).tokens).program.Contains
        part) :
    1 ≤ part.span.start.line ∧
      part.span.start.line ≤ source.lineCount := by
  obtain ⟨read, isRead, _, ⟨first, last, isFirst, _, isSpan⟩, _⟩ :=
    exists_hull _ contains
  have isPending := isRead.subset (List.mem_of_head? isFirst)
  have isToken : first ∈ (Token.scan source.contents.toList).tokens :=
    (List.takeWhile_sublist _).subset isPending
  obtain ⟨before, after, whole, starts⟩ :=
    (Token.placed_scan _).inText first isToken
  rw [isSpan, starts]
  exact source.line_advanceBy whole

end Program

namespace Script

/--
Errors point into the program, in every text and with every registry, whether or
not the text has faults.

An error is reported at a part of the program and in names that the program
spells. If it cites an earlier declaration, that one has the same name and is
written in front. Its diagnostic starts on a line of the text, and quotes it.
-/
theorem evaluation_errors_point_into_program
    {State : Type}
    (registry : Registry State)
    (source : SourceFile)
    (state : State)
    {error : EvaluationError}
    (fails :
      (registry.evaluate (ofSource source).program state).1 = .error error) :
    let program := (ofSource source).program
    let diagnostic := error.diagnostic source
    error.PointsInto program ∧
      error.CitesEarlier program ∧
      (∀ previous,
        error.previous? = some previous → previous.Precedes error.span) ∧
      diagnostic.span = error.span ∧
      1 ≤ diagnostic.span.start.line ∧
      diagnostic.span.start.line ≤ source.lineCount ∧
      source.line? diagnostic.span.start.line =
        some diagnostic.sourceLine := by
  intro program diagnostic
  have pointsInto : error.PointsInto program :=
    Registry.evaluate_failsInside (Program.pathsHaveNames _) registry state
      error fails
  have cites : error.CitesEarlier program :=
    registry.evaluate_citesEarlier program state error fails
  obtain ⟨part, contains, isSpan⟩ := pointsInto.spans
  have isLine :
      1 ≤ error.span.start.line ∧
        error.span.start.line ≤ source.lineCount :=
    isSpan ▸ Program.startLine_of_contains source contains
  obtain ⟨line, isText⟩ := source.exists_line? isLine
  have quoted : diagnostic.sourceLine = line := by
    change (source.line? error.span.start.line).getD "" = line
    rw [isText]
    rfl
  exact ⟨pointsInto, cites, fun _ => Program.previous_precedes cites, rfl,
    isLine.1, isLine.2, quoted ▸ isText⟩

/-- A name that is declared again on the second line of a text. -/
theorem evaluation_errors_point_into_program_of_repeated_name :
    let source : SourceFile :=
      ⟨"names", "var node a = x;\nvar edge a = b -> c;"⟩
    let registry : Registry Unit := .empty
    let place (line column : Nat) : Span := .point ⟨line, column⟩
    let error : EvaluationError :=
      .redeclaration "a" (place 2 10) (place 1 10)
    let program := (ofSource source).program
    (registry.evaluate program ()).1 = .error error ∧
      error.PointsInto program ∧
      error.CitesEarlier program ∧
      (error.diagnostic source).sourceLine = "var edge a = b -> c;" := by
  intro source registry place error program
  have fails : (registry.evaluate program ()).1 = .error error := by
    dsimp only [program, error, place, registry, source]
    with_unfolding_all rfl
  obtain ⟨pointsInto, cites, _, _, _, _, quoted⟩ :=
    evaluation_errors_point_into_program registry source () fails
  have secondLine : source.line? 2 = some "var edge a = b -> c;" := by
    decide
  exact ⟨fails, pointsInto, cites,
    Option.some.inj (quoted.symm.trans secondLine)⟩

end Script

end GraphScript
