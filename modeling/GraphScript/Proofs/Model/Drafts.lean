import GraphScript.ModelBuilder

namespace GraphScript

/-!
# Running the body of a graph

The default declarations of a body and its other items change different parts
of a draft, and neither reads what the other one writes. A complete evaluation
is therefore the defaults of the one run put into the graph of the other.
-/

namespace Graph

/-- The graph with all three kinds of defaults replaced. -/
def withDefaults
    (graph : Graph)
    (maps : DefaultTarget → Attributes) :
    Graph :=
  { graph with
    globalAttributes := maps .graph
    nodeDefaults := maps .node
    edgeDefaults := maps .edge }

@[simp] theorem withDefaults_defaults
    (graph : Graph) :
    graph.withDefaults graph.defaults = graph :=
  rfl

@[simp] theorem defaults_withDefaults
    (graph : Graph)
    (maps : DefaultTarget → Attributes) :
    (graph.withDefaults maps).defaults = maps := by
  funext target
  cases target <;> rfl

/-- New defaults of one kind leave the rest of the graph alone. -/
theorem addDefaults_eq
    (graph : Graph)
    (target : DefaultTarget)
    (attributes : Attributes) :
    graph.addDefaults target attributes =
      graph.withDefaults fun other =>
        if other = target then
          (graph.defaults other).merge attributes
        else
          graph.defaults other := by
  cases target <;> rfl

theorem addEdge_withDefaults
    (graph : Graph)
    (maps : DefaultTarget → Attributes)
    (edge : Edge)
    (span : Span) :
    (graph.withDefaults maps).addEdge edge span =
      (graph.addEdge edge span).map (·.withDefaults maps) := by
  have sameDirection : (graph.withDefaults maps).directed = graph.directed :=
    rfl
  by_cases allowed : edge.operator.isDirected = graph.directed
  · simp only [addEdge, sameDirection, if_pos allowed]
    rfl
  · simp only [addEdge, sameDirection, if_neg allowed]
    rfl

theorem addEdges_withDefaults
    (graph : Graph)
    (maps : DefaultTarget → Attributes)
    (edges : List Edge)
    (span : Span) :
    (graph.withDefaults maps).addEdges edges span =
      (graph.addEdges edges span).map (·.withDefaults maps) := by
  induction edges generalizing graph with
  | nil =>
      rfl
  | cons edge rest inductionHypothesis =>
      simp only [addEdges, List.foldlM_cons] at inductionHypothesis ⊢
      rw [addEdge_withDefaults]
      cases graph.addEdge edge span with
      | error error =>
          rfl
      | ok next =>
          exact inductionHypothesis next

theorem decorateAll_withDefaults
    (graph : Graph)
    (maps : DefaultTarget → Attributes)
    (nodes : List String)
    (attributes : Attributes) :
    (graph.withDefaults maps).decorateAll nodes attributes =
      (graph.decorateAll nodes attributes).withDefaults maps := by
  induction nodes generalizing graph with
  | nil =>
      rfl
  | cons node rest inductionHypothesis =>
      exact inductionHypothesis (graph.decorate node attributes)

end Graph

namespace Draft

/-- The draft with all three kinds of defaults replaced. -/
def withDefaults
    (draft : Draft)
    (maps : DefaultTarget → Attributes) :
    Draft :=
  { draft with graph := draft.graph.withDefaults maps }

/-- No node statement reads the defaults. -/
theorem afterNode_withDefaults
    (draft : Draft)
    (maps : DefaultTarget → Attributes)
    (statement : NodeStatement) :
    (draft.withDefaults maps).afterNode statement =
      (draft.afterNode statement).map (·.withDefaults maps) := by
  simp only [afterNode, withDefaults]
  cases draft.environment.optionalAttributes statement.attributes with
  | error error =>
      rfl
  | ok attributes =>
      cases statement.target with
      | list names =>
          exact congrArg Except.ok
            (draft.graph.decorateAll_withDefaults maps _ attributes)
      | reference name =>
          simp only [bind, Except.bind]
          cases draft.environment.lookup name with
          | error error =>
              rfl
          | ok found =>
              rcases found with ⟨_, _, value, _⟩
              cases value with
              | nodeReference node =>
                  exact congrArg Except.ok
                    (draft.graph.decorateAll_withDefaults maps _ attributes)
              | nodeList nodes =>
                  exact congrArg Except.ok
                    (draft.graph.decorateAll_withDefaults maps _ attributes)
              | edgeList edges =>
                  exact draft.graph.addEdges_withDefaults maps _ _
              | attributeList own =>
                  rfl

/-- No statement reads the defaults. -/
theorem applyStatement_withDefaults
    (draft : Draft)
    (maps : DefaultTarget → Attributes)
    (statement : Statement) :
    (draft.withDefaults maps).applyStatement statement =
      (draft.applyStatement statement).map (·.withDefaults maps) := by
  cases statement with
  | binding declared =>
      simp only [applyStatement, withDefaults]
      cases draft.environment.declareVariable declared <;> rfl
  | node written =>
      simp only [applyStatement, afterNode_withDefaults]
      cases draft.afterNode written <;> rfl
  | edge written =>
      simp only [applyStatement, withDefaults]
      cases draft.environment.edgeOf written with
      | error error =>
          rfl
      | ok edge =>
          simp only [bind, Except.bind, Graph.addEdge_withDefaults]
          cases draft.graph.addEdge edge written.span <;> rfl

/-- What every item of a run keeps, the run keeps, also where an item fails. -/
theorem applyAll_keeps
    {Part : Type}
    {apply : Draft → Part → Except EvaluationError Draft}
    {Keeps : Draft → Prop}
    (step :
      ∀ draft item next,
        apply draft item = .ok next → Keeps draft → Keeps next)
    {draft : Draft}
    (initial : Keeps draft)
    (items : List Part) :
    Keeps (applyAll apply draft items).2 := by
  induction items generalizing draft with
  | nil =>
      exact initial
  | cons item rest inductionHypothesis =>
      rw [applyAll]
      cases applied : apply draft item with
      | error error =>
          exact initial
      | ok next =>
          exact inductionHypothesis (step draft item next applied initial)

/-- What the items of a body keep, its evaluation keeps. -/
theorem complete_keeps
    {Keeps : Draft → Prop}
    (defaultsStep :
      ∀ draft declaration next,
        applyDefaults draft declaration = .ok next →
        Keeps draft →
        Keeps next)
    (statementStep :
      ∀ draft statement next,
        applyStatement draft statement = .ok next →
        Keeps draft →
        Keeps next)
    {draft : Draft}
    (initial : Keeps draft)
    (declaration : GraphDeclaration) :
    Keeps (draft.complete declaration).2 := by
  have afterDefaults :=
    applyAll_keeps defaultsStep initial declaration.defaults
  unfold complete
  generalize applyAll applyDefaults draft declaration.defaults = ran
    at afterDefaults ⊢
  rcases ran with ⟨outcome, next⟩
  cases outcome with
  | error error =>
      exact afterDefaults
  | ok _ =>
      exact applyAll_keeps statementStep afterDefaults
        declaration.statements

/-- The graph that a run of items ends with, or the error that ends it. -/
def run
    {Part : Type}
    (apply : Draft → Part → Except EvaluationError Draft)
    (draft : Draft)
    (items : List Part) :
    Except EvaluationError Graph :=
  let (outcome, last) := applyAll apply draft items
  outcome.map fun _ => last.graph

section Run

variable
  {Part : Type}
  (apply : Draft → Part → Except EvaluationError Draft)
  (draft : Draft)

@[simp] theorem run_nil :
    run apply draft [] = .ok draft.graph :=
  rfl

@[simp] theorem run_cons
    (item : Part)
    (rest : List Part) :
    run apply draft (item :: rest) =
      (apply draft item).bind fun next => run apply next rest := by
  unfold run
  rw [applyAll]
  cases apply draft item <;> rfl

end Run

/-- The other items of a body end with the same graph whatever the defaults. -/
theorem run_withDefaults
    (draft : Draft)
    (maps : DefaultTarget → Attributes)
    (statements : List Statement) :
    run applyStatement (draft.withDefaults maps) statements =
      (run applyStatement draft statements).map (·.withDefaults maps) := by
  induction statements generalizing draft with
  | nil =>
      rfl
  | cons statement rest inductionHypothesis =>
      simp only [run_cons, applyStatement_withDefaults]
      cases draft.applyStatement statement with
      | error error =>
          rfl
      | ok next =>
          exact inductionHypothesis next

/-- The other items of a body keep the defaults that they find. -/
theorem run_defaults
    (draft : Draft)
    (statements : List Statement) :
    (run applyStatement draft statements).map
        (·.withDefaults draft.graph.defaults) =
      run applyStatement draft statements :=
  (run_withDefaults draft draft.graph.defaults statements).symm

/-- A default declaration changes nothing but the defaults. -/
theorem applyDefaults_eq
    {draft next : Draft}
    {declaration : DefaultDeclaration}
    (applied : draft.applyDefaults declaration = .ok next) :
    next = draft.withDefaults next.graph.defaults := by
  unfold applyDefaults at applied
  cases found : draft.environment.attributesOf declaration.source with
  | error error =>
      rw [found] at applied
      cases applied
  | ok attributes =>
      rw [found] at applied
      cases applied
      simp only [withDefaults, Graph.addDefaults_eq,
        Graph.defaults_withDefaults]

/-- The defaults that some items of a body end with. -/
def defaultsOf
    {Part : Type}
    (apply : Draft → Part → Except EvaluationError Draft)
    (draft : Draft)
    (items : List Part) :
    Except EvaluationError (DefaultTarget → Attributes) :=
  (run apply draft items).map Graph.defaults

/-- Defaults that are put into the graph of a run, where both succeed. -/
def settle
    (maps : Except EvaluationError (DefaultTarget → Attributes))
    (finished : Except EvaluationError Graph) :
    Except EvaluationError Graph :=
  maps.bind fun found => finished.map (·.withDefaults found)

/-- What is put into a graph later replaces what was put into it before. -/
theorem settle_withDefaults
    (maps : Except EvaluationError (DefaultTarget → Attributes))
    (earlier : DefaultTarget → Attributes)
    (finished : Except EvaluationError Graph) :
    settle maps (finished.map (·.withDefaults earlier)) =
      settle maps finished := by
  cases maps with
  | error error =>
      rfl
  | ok found =>
      cases finished <;> rfl

/-- The graph of a whole body, or the error that ends its evaluation. -/
def finished
    (draft : Draft)
    (declaration : GraphDeclaration) :
    Except EvaluationError Graph :=
  let (outcome, last) := draft.complete declaration
  outcome.map fun _ => last.graph

/-- The defaults are evaluated before the other items, and apart from them. -/
theorem finished_eq_settle
    (draft : Draft)
    (declaration : GraphDeclaration) :
    draft.finished declaration =
      settle (defaultsOf applyDefaults draft declaration.defaults)
        (run applyStatement draft declaration.statements) := by
  unfold finished complete defaultsOf
  induction declaration.defaults generalizing draft with
  | nil =>
      exact (run_defaults draft declaration.statements).symm
  | cons declared rest inductionHypothesis =>
      rw [run_cons, applyAll]
      cases applied : draft.applyDefaults declared with
      | error error =>
          rfl
      | ok next =>
          refine (inductionHypothesis next).trans ?_
          rw [applyDefaults_eq applied, run_withDefaults,
            settle_withDefaults]
          rfl

end Draft

/-! ## Declarations -/

namespace ModelBuilder

/-- The draft in which the body of a graph is evaluated. -/
def opening
    (environment : Environment)
    (declaration : GraphDeclaration) :
    Draft :=
  { environment := environment.enter declaration.name.name
    graph :=
      .empty declaration.name.name declaration.direction.isDirected }

/-- The graph that a declaration has added to the model, or why there is none. -/
def Result.added
    (result : Result)
    (declaration : GraphDeclaration) :
    Except EvaluationError (Option Graph) :=
  result.outcome.map fun _ =>
    result.builder.model.get? declaration.name.name

end ModelBuilder

end GraphScript
