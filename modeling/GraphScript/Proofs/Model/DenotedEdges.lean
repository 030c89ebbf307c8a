import GraphScript.Proofs.Model.Contribution

namespace GraphScript

/-!
# The edges that names denote

Which edges a variable holds can be read off the declarations alone: the nearest
declaration of a name counts, and a copy denotes what the copied name denoted
above it. Evaluation follows this reading, so the operators of the edges of a
graph are known before it is built.
-/

/--
The edges that a name denotes behind some declarations, of which the nearest
one comes first.
-/
def edgesDenoted :
    List VariableDeclaration →
    String →
    List EdgeStatement
  | [], _ =>
      []
  | declared :: earlier, name =>
      if declared.name.name = name then
        match declared.source with
        | .edges statements => statements
        | .reference copied => edgesDenoted earlier copied.name
        | .nodes _ => []
        | .attributes _ => []
      else
        edgesDenoted earlier name

/-- The edges that a right-hand side denotes behind some declarations. -/
def VariableSource.edgesDenoted
    (earlier : List VariableDeclaration) :
    VariableSource →
    List EdgeStatement
  | .edges statements => statements
  | .reference copied => GraphScript.edgesDenoted earlier copied.name
  | .nodes _ => []
  | .attributes _ => []

theorem edgesDenoted_cons
    (declared : VariableDeclaration)
    (earlier : List VariableDeclaration)
    (name : String) :
    edgesDenoted (declared :: earlier) name =
      if declared.name.name = name then
        declared.source.edgesDenoted earlier
      else
        edgesDenoted earlier name := by
  rw [edgesDenoted]
  cases declared.source <;> rfl

/-- The operators of the edges that the target of a node statement denotes. -/
def NodeTarget.operators
    (declared : List VariableDeclaration) :
    NodeTarget →
    List EdgeOperator
  | .list _ => []
  | .reference name => (edgesDenoted declared name.name).map (·.operator)

/-- The operators with which the statements of a body add edges. -/
def operatorsUsed :
    List VariableDeclaration →
    List Statement →
    List EdgeOperator
  | _, [] =>
      []
  | declared, .binding declaration :: rest =>
      operatorsUsed (declaration :: declared) rest
  | declared, .node statement :: rest =>
      statement.target.operators declared ++ operatorsUsed declared rest
  | declared, .edge statement :: rest =>
      statement.operator :: operatorsUsed declared rest

/-- The operators of the edges that are denoted, if there are any. -/
def Referent.operators :
    Referent →
    List EdgeOperator
  | .edges listed => listed.map (·.operator)
  | .nodes _ => []
  | .attributes _ => []

namespace Meaning

/-- The operators of the edges that a name stands for. -/
def operatorsOf
    (meaning : Meaning)
    (name : String) :
    List EdgeOperator :=
  ((meaning name).map Referent.operators).getD []

/-- Whether names stand for edges with the operators that declarations say. -/
def Follows
    (meaning : Meaning)
    (declared : List VariableDeclaration) :
    Prop :=
  ∀ name,
    meaning.operatorsOf name =
      (edgesDenoted declared name).map (·.operator)

variable
  {meaning : Meaning}
  {declared : List VariableDeclaration}
  {declaration : VariableDeclaration}
  {denoted : Referent}

/-- Only the name that is declared gets other operators. -/
theorem operatorsOf_declare
    (meaning : Meaning)
    (denoted : Referent)
    (name other : String) :
    (meaning.declare name denoted).operatorsOf other =
      if name = other then
        denoted.operators
      else
        meaning.operatorsOf other := by
  unfold operatorsOf declare
  by_cases same : name = other
  · simp [same]
  · simp [same, Ne.symm same]

/-- A name that stands for something has the operators of what it stands for. -/
theorem operatorsOf_of_some
    {name : String}
    (isMeant : meaning name = some denoted) :
    meaning.operatorsOf name = denoted.operators := by
  rw [operatorsOf, isMeant]
  rfl

/-- An edge has the operator of the statement that states it. -/
theorem operator_of_edge?
    {statement : EdgeStatement}
    {edge : Edge}
    (isEdge : meaning.edge? statement = some edge) :
    edge.operator = statement.operator := by
  unfold edge? at isEdge
  obtain ⟨left, _, isEdge⟩ := Option.bind_eq_some_iff.1 isEdge
  obtain ⟨right, _, isEdge⟩ := Option.bind_eq_some_iff.1 isEdge
  obtain ⟨attributes, _, isEdge⟩ := Option.bind_eq_some_iff.1 isEdge
  cases isEdge
  rfl

/-- Edges that are listed have the operators of their statements, in order. -/
theorem operators_of_edges
    {statements : List EdgeStatement}
    {edges : List Edge}
    (areEdges : statements.mapM meaning.edge? = some edges) :
    edges.map (·.operator) = statements.map (·.operator) := by
  induction statements generalizing edges with
  | nil =>
      cases areEdges
      rfl
  | cons statement rest inductionHypothesis =>
      rw [List.mapM_cons] at areEdges
      obtain ⟨edge, isEdge, areEdges⟩ := Option.bind_eq_some_iff.1 areEdges
      obtain ⟨others, areOthers, areEdges⟩ :=
        Option.bind_eq_some_iff.1 areEdges
      cases areEdges
      rw [List.map_cons, List.map_cons, operator_of_edge? isEdge,
        inductionHypothesis areOthers]

namespace Follows

/-- Nothing is declared in an empty environment. -/
theorem empty :
    Environment.empty.meaning.Follows [] := by
  intro name
  rfl

/-- A right-hand side means edges with the operators that it denotes. -/
theorem referent?
    (follows : meaning.Follows declared)
    (isDenoted : meaning.referent? declaration = some denoted) :
    denoted.operators =
      (declaration.source.edgesDenoted declared).map (·.operator) := by
  unfold Meaning.referent? at isDenoted
  split at isDenoted
  · next names areNodes =>
      cases isDenoted
      rw [areNodes]
      rfl
  · next statements areEdges =>
      obtain ⟨edges, areStated, rfl⟩ := Option.map_eq_some_iff.1 isDenoted
      rw [areEdges]
      exact operators_of_edges areStated
  · next list areAttributes =>
      obtain ⟨attributes, _, rfl⟩ := Option.map_eq_some_iff.1 isDenoted
      rw [areAttributes]
      rfl
  · next copied isReference =>
      rw [isReference]
      refine Eq.trans ?_ (follows copied.name)
      cases isMeant : meaning copied.name with
      | some earlier =>
          rw [isMeant] at isDenoted
          cases isDenoted
          exact (operatorsOf_of_some isMeant).symm
      | none =>
          -- A node variable names the node itself, which denotes no edges.
          rw [isMeant, Option.none_or] at isDenoted
          split at isDenoted
          · cases isDenoted
            rw [operatorsOf, isMeant]
            rfl
          · cases isDenoted

/-- One more declaration is the nearest one from there on. -/
theorem declare
    (follows : meaning.Follows declared)
    (isDenoted : meaning.referent? declaration = some denoted) :
    (meaning.declare declaration.name.name denoted).Follows
      (declaration :: declared) := by
  intro name
  rw [operatorsOf_declare, edgesDenoted_cons]
  by_cases same : declaration.name.name = name
  · rw [if_pos same, if_pos same]
    exact follows.referent? isDenoted
  · rw [if_neg same, if_neg same]
    exact follows name

/-- A declaration that is evaluated is the nearest one from there on. -/
theorem declareVariable
    {environment next : Environment}
    (follows : environment.meaning.Follows declared)
    (succeeded : environment.declareVariable declaration = .ok next) :
    next.meaning.Follows (declaration :: declared) := by
  obtain ⟨denoted, isDenoted, isMeaning⟩ :=
    Environment.meaning_declareVariable succeeded
  rw [isMeaning]
  exact follows.declare isDenoted

/-- A node statement contributes edges only by the edges that a name denotes. -/
theorem operators_of_nodeContribution
    (follows : meaning.Follows declared)
    {statement : NodeStatement}
    {added : Contribution}
    (contributed : meaning.nodeContribution? statement = some added) :
    added.edges.map (·.operator) = statement.target.operators declared := by
  obtain ⟨attributes, _, contributed⟩ :=
    Option.bind_eq_some_iff.1 contributed
  cases target : statement.target with
  | list names =>
      rw [target] at contributed
      cases contributed
      rfl
  | reference name =>
      rw [target] at contributed
      obtain ⟨denoted, isMeant, contributed⟩ :=
        Option.bind_eq_some_iff.1 contributed
      rw [NodeTarget.operators, ← follows name.name,
        operatorsOf_of_some isMeant]
      cases denoted with
      | nodes nodes =>
          cases contributed
          rfl
      | edges edges =>
          cases contributed
          simp [Referent.operators]
      | attributes own =>
          cases contributed

end Follows

/-- An edge statement contributes one edge, with the operator that it states. -/
theorem operators_of_edgeContribution
    {statement : EdgeStatement}
    {added : Contribution}
    (contributed : meaning.edgeContribution? statement = some added) :
    added.edges.map (·.operator) = [statement.operator] := by
  unfold edgeContribution? at contributed
  obtain ⟨left, _, contributed⟩ := Option.bind_eq_some_iff.1 contributed
  obtain ⟨right, _, contributed⟩ := Option.bind_eq_some_iff.1 contributed
  obtain ⟨edge, isEdge, contributed⟩ :=
    Option.bind_eq_some_iff.1 contributed
  cases contributed
  exact congrArg ([·]) (operator_of_edge? isEdge)

/-- The items of a body contribute edges with the operators they use. -/
theorem Follows.operators_of_contributions
    (follows : meaning.Follows declared)
    {items : List BodyItem}
    {contributions : List Contribution}
    (resolved : meaning.contributions? items = some contributions) :
    (contributions.flatMap (·.edges)).map (·.operator) =
      operatorsUsed declared (items.filterMap BodyItem.statement?) := by
  induction items generalizing meaning declared contributions with
  | nil =>
      cases resolved
      rfl
  | cons item rest inductionHypothesis =>
      rcases item with defaults | ⟨declaration | statement | statement⟩
      · exact inductionHypothesis follows resolved
      · obtain ⟨denoted, isDenoted, resolved⟩ :=
          Option.bind_eq_some_iff.1 resolved
        exact inductionHypothesis (follows.declare isDenoted) resolved
      · obtain ⟨first, contributed, resolved⟩ :=
          Option.bind_eq_some_iff.1 resolved
        obtain ⟨later, resolvedLater, isAll⟩ :=
          Option.bind_eq_some_iff.1 resolved
        cases isAll
        rw [List.flatMap_cons, List.map_append,
          follows.operators_of_nodeContribution contributed,
          inductionHypothesis follows resolvedLater]
        rfl
      · obtain ⟨first, contributed, resolved⟩ :=
          Option.bind_eq_some_iff.1 resolved
        obtain ⟨later, resolvedLater, isAll⟩ :=
          Option.bind_eq_some_iff.1 resolved
        cases isAll
        rw [List.flatMap_cons, List.map_append,
          operators_of_edgeContribution contributed,
          inductionHypothesis follows resolvedLater]
        rfl

end Meaning

end GraphScript
