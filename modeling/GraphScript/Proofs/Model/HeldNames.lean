import GraphScript.Proofs.Evaluation.Succession

namespace GraphScript

/-!
# Names that a scope holds

A scope holds what its declarations bound, so a name that it declares for the
second time is found there with the place of its first declaration, and this is
looked at before the value of the second one. Nothing else that happens in a scope
is reported as a redeclaration.
-/

/-- The variable that a declaration binds if its right-hand side has a value. -/
def VariableDeclaration.boundTo
    (declaration : VariableDeclaration)
    (value : Value) :
    Variable :=
  { name := declaration.name.name
    declaredType := declaration.declaredType
    value
    span := declaration.name.span }

/-- Whether an error says that a declaration repeats a name declared earlier. -/
def EvaluationError.Repeats
    (earlier : List VariableDeclaration)
    (again : VariableDeclaration)
    (error : EvaluationError) :
    Prop :=
  ∃ first ∈ earlier,
    first.name.name = again.name.name ∧
      error =
        .redeclaration again.name.name again.name.span first.name.span

/-! ## Scopes -/

namespace Environment

variable
  {environment next : Environment}
  {declared : List VariableDeclaration}
  {declaration : VariableDeclaration}

/-- Whether the innermost scope has the variables of some declarations, in order. -/
def Holds
    (environment : Environment)
    (declared : List VariableDeclaration) :
    Prop :=
  ∃ bound : List (VariableDeclaration × Value),
    declared = bound.map Prod.fst ∧
      environment.innermost.entries =
        bound.map fun each => (each.1.name.name, each.1.boundTo each.2)

namespace Holds

theorem empty :
    Environment.empty.Holds [] :=
  ⟨[], rfl, rfl⟩

theorem enter
    (environment : Environment)
    (graph : String) :
    (environment.enter graph).Holds [] :=
  ⟨[], rfl, rfl⟩

/-- A declaration that succeeds is held behind the ones before it. -/
theorem declareVariable
    (holds : environment.Holds declared)
    (succeeded : environment.declareVariable declaration = .ok next) :
    next.Holds (declared ++ [declaration]) := by
  obtain ⟨bound, rfl, entries⟩ := holds
  obtain ⟨isNew, value, _, _, rfl⟩ := declareVariable_eq_ok.1 succeeded
  have isNew := NameMap.get?_eq_none_iff.1 isNew
  refine ⟨bound ++ [(declaration, value)], by simp, ?_⟩
  rw [innermost_bind, NameMap.entries_insert_of_new isNew, entries,
    List.map_append]
  rfl

theorem keys
    (holds : environment.Holds declared) :
    environment.innermost.keys = declared.map (·.name.name) := by
  obtain ⟨bound, rfl, entries⟩ := holds
  simp [NameMap.keys, entries]

/-- A scope holds no name twice. -/
theorem distinct
    (holds : environment.Holds declared) :
    (declared.map (·.name.name)).Nodup :=
  holds.keys ▸ environment.innermost.distinct

/-- What a scope holds is found under its name. -/
theorem get?
    (holds : environment.Holds declared)
    (member : declaration ∈ declared) :
    ∃ value,
      environment.innermost.get? declaration.name.name =
        some (declaration.boundTo value) := by
  obtain ⟨bound, rfl, entries⟩ := holds
  obtain ⟨⟨_, value⟩, isBound, rfl⟩ := List.mem_map.1 member
  refine ⟨value, NameMap.find?_of_mem environment.innermost.distinct ?_⟩
  rw [entries]
  exact List.mem_map.2 ⟨_, isBound, rfl⟩

/-- What is found under a name was declared with that name. -/
theorem exists_of_get?
    (holds : environment.Holds declared)
    {name : String}
    {earlier : Variable}
    (found : environment.innermost.get? name = some earlier) :
    ∃ first ∈ declared,
      first.name.name = name ∧ earlier.span = first.name.span := by
  have member := NameMap.mem_keys_of_get? found
  rw [holds.keys] at member
  obtain ⟨first, isFirst, rfl⟩ := List.mem_map.1 member
  obtain ⟨value, isHeld⟩ := holds.get? isFirst
  rw [found] at isHeld
  cases isHeld
  exact ⟨first, isFirst, rfl, rfl⟩

end Holds

/-- A name that the innermost scope has is refused before its value is looked at. -/
theorem declareVariable_of_held
    {earlier : Variable}
    (held :
      environment.innermost.get? declaration.name.name = some earlier) :
    environment.declareVariable declaration =
      .error
        (.redeclaration declaration.name.name declaration.name.span
          earlier.span) := by
  unfold declareVariable checkUnbound
  rw [held]
  rfl

/-- A name that the innermost scope does not have is never a redeclaration. -/
theorem declareVariable_of_new
    (isNew :
      environment.innermost.get? declaration.name.name = none) :
    UseErrorsOnly (environment.declareVariable declaration) := by
  have unbound := checkUnbound_eq_ok.2 isNew
  unfold declareVariable declare
  rw [unbound]
  apply FailsOnly.bind (environment.valueOf_useErrorsOnly declaration)
  intro value
  change UseErrorsOnly (if _ then _ else _)
  split
  · exact .ok _
  · exact .error rfl

/-- A declaration is a redeclaration where it repeats a name of its scope. -/
theorem Holds.redeclaration_iff
    (holds : environment.Holds declared)
    {name : String}
    {span previous : Span} :
    environment.declareVariable declaration =
        .error (.redeclaration name span previous) ↔
      EvaluationError.Repeats declared declaration
        (.redeclaration name span previous) := by
  constructor
  · intro failed
    cases held :
        environment.innermost.get? declaration.name.name with
    | none =>
        have arises := declareVariable_of_new held _ failed
        cases arises
    | some earlier =>
        rw [declareVariable_of_held held] at failed
        obtain ⟨first, member, sameName, sameSpan⟩ :=
          holds.exists_of_get? held
        cases failed
        exact ⟨first, member, sameName, by rw [sameSpan]⟩
  · rintro ⟨first, member, sameName, isError⟩
    obtain ⟨value, held⟩ := holds.get? member
    rw [sameName] at held
    rw [declareVariable_of_held held, isError]
    rfl

end Environment

/-! ## Bodies of graphs -/

namespace Statement

/-- The declaration of a variable that a statement is. -/
def binding? :
    Statement →
    Option VariableDeclaration
  | .binding declaration => some declaration
  | .node _ => none
  | .edge _ => none

end Statement

namespace GraphDeclaration

/-- The variables that are declared in the body of a graph. -/
def bindings
    (declaration : GraphDeclaration) :
    List VariableDeclaration :=
  declaration.statements.filterMap Statement.binding?

/-- The declaration of a graph with all its defaults and other statements. -/
def withStatements
    (declaration : GraphDeclaration)
    (statements : List Statement) :
    GraphDeclaration :=
  { declaration with
    items :=
      declaration.defaults.map .defaults ++ statements.map .statement }

@[simp] theorem defaults_withStatements
    (declaration : GraphDeclaration)
    (statements : List Statement) :
    (declaration.withStatements statements).defaults =
      declaration.defaults := by
  unfold withStatements
  generalize declaration.defaults = defaults
  simp [GraphDeclaration.defaults, List.filterMap_append,
    List.filterMap_map, Function.comp_def, BodyItem.defaults?]

@[simp] theorem statements_withStatements
    (declaration : GraphDeclaration)
    (written : List Statement) :
    (declaration.withStatements written).statements = written := by
  simp [withStatements, statements, List.filterMap_append,
    List.filterMap_map, Function.comp_def, BodyItem.statement?]

end GraphDeclaration

namespace Draft

variable
  {draft reached : Draft}
  {done statements : List Statement}

/-- Whether some statements are all evaluated, one after another. -/
def Applies :
    Draft →
    List Statement →
    Draft →
    Prop :=
  Succession fun draft statement next =>
    draft.applyStatement statement = .ok next

/-- What is evaluated in one succession is evaluated first by the whole body. -/
theorem Applies.run_append
    (applies : draft.Applies done reached)
    (left : List Statement) :
    run applyStatement draft (done ++ left) =
      run applyStatement reached left := by
  induction applies with
  | nil draft =>
      rfl
  | cons first _ inductionHypothesis =>
      rw [List.cons_append, run_cons, first]
      exact inductionHypothesis

theorem Applies.run
    (applies : draft.Applies done reached) :
    run applyStatement draft done = .ok reached.graph := by
  have whole := applies.run_append []
  rwa [List.append_nil] at whole

theorem applies_or_fails
    (draft : Draft)
    (statements : List Statement) :
    (∃ final, draft.Applies statements final) ∨
      ∃ done failing left reached error,
        statements = done ++ failing :: left ∧
          draft.Applies done reached ∧
          reached.applyStatement failing = .error error := by
  apply Succession.complete_or_stopped
  intro state statement
  cases evaluated : state.applyStatement statement with
  | ok next => exact .inl ⟨next, rfl⟩
  | error error => exact .inr ⟨error, rfl⟩

theorem applies_of_run
    {graph : Graph}
    (ran : run applyStatement draft statements = .ok graph) :
    ∃ final, draft.Applies statements final := by
  rcases draft.applies_or_fails statements with
    applies | ⟨done, failing, left, reached, error, rfl, applies, fails⟩
  · exact applies
  · rw [applies.run_append, run_cons, fails] at ran
    cases ran

/-- The scope of a body holds the variables that its statements declared. -/
theorem Applies.holds
    (applies : draft.Applies done reached)
    {declared : List VariableDeclaration}
    (holds : draft.environment.Holds declared) :
    reached.environment.Holds
      (declared ++ done.filterMap Statement.binding?) := by
  induction applies generalizing declared with
  | nil draft =>
      simpa using holds
  | @cons draft middle final statement rest first _ inductionHypothesis =>
      cases statement with
      | binding declaration =>
          obtain ⟨environment, succeeded, isNext⟩ := bind_eq_ok.1 first
          cases isNext
          have later := inductionHypothesis (holds.declareVariable succeeded)
          simpa [Statement.binding?] using later
      | node statement =>
          obtain ⟨graph, _, isNext⟩ := bind_eq_ok.1 first
          cases isNext
          exact inductionHypothesis holds
      | edge statement =>
          obtain ⟨edge, _, first⟩ := bind_eq_ok.1 first
          obtain ⟨graph, _, isNext⟩ := bind_eq_ok.1 first
          cases isNext
          exact inductionHypothesis holds

/-- A declaration in a body fails as it does in the scopes of the body. -/
theorem applyBinding_eq_error
    {declaration : VariableDeclaration}
    {error : EvaluationError} :
    draft.applyStatement (.binding declaration) = .error error ↔
      draft.environment.declareVariable declaration = .error error := by
  simp only [applyStatement]
  cases draft.environment.declareVariable declaration <;>
    simp [bind, Except.bind, pure, Except.pure]

/--
The statements of a body end in a redeclaration where one of them, with all
those in front of it evaluated, declares a name that they declare.
-/
theorem run_redeclaration_iff
    {declared : List VariableDeclaration}
    (holds : draft.environment.Holds declared)
    {name : String}
    {span previous : Span} :
    run applyStatement draft statements =
        .error (.redeclaration name span previous) ↔
      ∃ done again left graph,
        statements = done ++ .binding again :: left ∧
          run applyStatement draft done = .ok graph ∧
          EvaluationError.Repeats
            (declared ++ done.filterMap Statement.binding?) again
            (.redeclaration name span previous) := by
  constructor
  · intro ran
    rcases draft.applies_or_fails statements with
      ⟨final, applies⟩ |
        ⟨done, failing, left, reached, error, rfl, applies, fails⟩
    · rw [applies.run] at ran
      cases ran
    · rw [applies.run_append, run_cons, fails] at ran
      cases ran
      cases failing with
      | binding again =>
          have repeats :=
            (applies.holds holds).redeclaration_iff.1
              (applyBinding_eq_error.1 fails)
          exact ⟨done, again, left, _, rfl, applies.run, repeats⟩
      | node statement =>
          have arises := reached.applyNode_useErrorsOnly statement _ fails
          cases arises
      | edge statement =>
          have arises := reached.applyEdge_useErrorsOnly statement _ fails
          cases arises
  · rintro ⟨done, again, left, graph, rfl, ran, repeats⟩
    obtain ⟨reached, applies⟩ := applies_of_run ran
    have fails :=
      applyBinding_eq_error.2
        ((applies.holds holds).redeclaration_iff.2 repeats)
    rw [applies.run_append, run_cons, fails]
    rfl

end Draft

namespace ModelBuilder

variable
  {environment : Environment}
  {declaration : GraphDeclaration}

/-- The variables of a body that is evaluated have different names. -/
theorem distinct_of_finished
    {graph : Graph}
    (finished :
      (opening environment declaration).finished declaration = .ok graph) :
    (declaration.bindings.map (·.name.name)).Nodup := by
  rw [Draft.finished_eq_settle] at finished
  obtain ⟨_, _, settled⟩ := bind_eq_ok.1 finished
  obtain ⟨built, ran, _⟩ := map_eq_ok.1 settled
  obtain ⟨final, applies⟩ := Draft.applies_of_run ran
  have holds := applies.holds (Environment.Holds.enter environment _)
  exact holds.distinct

/--
A body ends in a redeclaration where one of its declarations repeats a name, and
the defaults with the statements in front of that declaration are a body that is
evaluated.
-/
theorem finished_redeclaration_iff
    {name : String}
    {span previous : Span} :
    (opening environment declaration).finished declaration =
        .error (.redeclaration name span previous) ↔
      ∃ done again left graph,
        declaration.statements = done ++ .binding again :: left ∧
          (opening environment (declaration.withStatements done)).finished
              (declaration.withStatements done) =
            .ok graph ∧
          EvaluationError.Repeats (done.filterMap Statement.binding?) again
            (.redeclaration name span previous) := by
  have defaultsFail :
      UseErrorsOnly
        (Draft.defaultsOf Draft.applyDefaults
          (opening environment declaration) declaration.defaults) :=
    (Draft.run_failsOnly _ Draft.applyDefaults_useErrorsOnly _).map _
  have holds := Environment.Holds.enter environment declaration.name.name
  have opened
      (done : List Statement) :
      opening environment (declaration.withStatements done) =
        opening environment declaration :=
    rfl
  simp only [Draft.finished_eq_settle, opened,
    GraphDeclaration.defaults_withStatements,
    GraphDeclaration.statements_withStatements]
  cases maps :
      Draft.defaultsOf Draft.applyDefaults
        (opening environment declaration) declaration.defaults with
  | error error =>
      simp only [Draft.settle, Except.bind]
      constructor
      · intro failed
        cases failed
        have arises := defaultsFail _ maps
        cases arises
      · rintro ⟨_, _, _, _, _, settled, _⟩
        cases settled
  | ok found =>
      have settled
          (ran : Except EvaluationError Graph) :
          Draft.settle (.ok found) ran =
            ran.map (·.withDefaults found) :=
        rfl
      simp only [settled, map_eq_error, map_eq_ok]
      rw [Draft.run_redeclaration_iff holds]
      constructor
      · rintro ⟨done, again, left, graph, split, ran, repeats⟩
        exact ⟨done, again, left, _, split, ⟨graph, ran, rfl⟩, repeats⟩
      · rintro ⟨done, again, left, _, split, ⟨graph, ran, _⟩, repeats⟩
        exact ⟨done, again, left, graph, split, ran, repeats⟩

end ModelBuilder

end GraphScript
