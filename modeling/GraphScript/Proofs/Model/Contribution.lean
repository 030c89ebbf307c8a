import GraphScript.Proofs.Model.Drafts
import GraphScript.Proofs.Model.Meaning

namespace GraphScript

/-!
# What the statements of a body contribute

Each node or edge statement contributes the nodes that it mentions, attributes
for them, and edges. Names have the meaning that they have at the statement, so a
variable declaration between two statements is seen by the later one only. A graph
is composed of contributions without a look at the order in which its parts were
changed.
-/

/-- What a statement contributes to a graph. -/
structure Contribution where
  /-- The nodes in the order in which they are mentioned. -/
  mentioned : List String
  /-- What each of these nodes is given. -/
  attributes : Attributes
  edges : List Edge

namespace Edge

/-- Both ends of an edge in the order in which they were written. -/
def endsInOrder
    (edge : Edge) :
    List String :=
  if edge.operator = .backward then
    [edge.target, edge.source]
  else
    [edge.source, edge.target]

/-- The ends of an edge that is written are the nodes that are written. -/
theorem endsInOrder_written
    (left : String)
    (operator : EdgeOperator)
    (right : String)
    (attributes : Attributes) :
    (written left operator right attributes).endsInOrder = [left, right] := by
  cases operator <;> rfl

/-- The ends in order are the ones that are mentioned when the edge is added. -/
theorem endsInOrder_eq
    (edge : Edge) :
    edge.endsInOrder = [edge.writtenEnds.1, edge.writtenEnds.2] := by
  rcases edge with ⟨source, target, operator, attributes⟩
  cases operator <;> rfl

end Edge

namespace Meaning

/--
What a node statement contributes.

Edges that a name stands for get the statement's attributes laid over their own,
are not turned around, and mention their ends.
-/
def nodeContribution?
    (meaning : Meaning)
    (statement : NodeStatement) :
    Option Contribution := do
  let attributes ← meaning.optionalAttributes? statement.attributes
  match statement.target with
  | .list names =>
      return ⟨names.flatMap meaning.nodes, attributes, []⟩
  | .reference name =>
      match ← meaning name.name with
      | .nodes nodes =>
          return ⟨nodes, attributes, []⟩
      | .edges edges =>
          return ⟨edges.flatMap Edge.endsInOrder, .empty,
            edges.map fun edge =>
              { edge with attributes := edge.attributes.merge attributes }⟩
      | .attributes _ =>
          none

/-- What an edge statement contributes: its edge, and both ends as written. -/
def edgeContribution?
    (meaning : Meaning)
    (statement : EdgeStatement) :
    Option Contribution := do
  let left ← meaning.node? statement.left
  let right ← meaning.node? statement.right
  let edge ← meaning.edge? statement
  return ⟨[left, right], .empty, [edge]⟩

/--
What the items of a body contribute, one after another.

Each item is read with the meaning that the declarations above it have given to
names. Default declarations contribute nothing.
-/
def contributions?
    (meaning : Meaning) :
    List BodyItem →
    Option (List Contribution)
  | [] =>
      some []
  | .defaults _ :: rest =>
      meaning.contributions? rest
  | .statement (.binding declared) :: rest => do
      let denoted ← meaning.referent? declared
      (meaning.declare declared.name.name denoted).contributions? rest
  | .statement (.node statement) :: rest => do
      let first ← meaning.nodeContribution? statement
      let later ← meaning.contributions? rest
      return first :: later
  | .statement (.edge statement) :: rest => do
      let first ← meaning.edgeContribution? statement
      let later ← meaning.contributions? rest
      return first :: later

/--
What the default declarations of one kind give, in their order.

They are read with the meaning that names have above the body.
-/
def defaults?
    (meaning : Meaning)
    (target : DefaultTarget) :
    List BodyItem →
    Option (List Attributes)
  | [] =>
      some []
  | .defaults declared :: rest =>
      if declared.target = target then do
        let first ← meaning.attributes? declared.source
        let later ← meaning.defaults? target rest
        return first :: later
      else
        meaning.defaults? target rest
  | .statement _ :: rest =>
      meaning.defaults? target rest

end Meaning

namespace Contribution

/-- The nodes of a graph with the attributes that a contribution gives them. -/
def give
    (added : Contribution)
    (nodes : NameMap Attributes) :
    NameMap Attributes :=
  added.mentioned.foldl
    (fun built node =>
      built.alter node fun own => (own.getD .empty).merge added.attributes)
    nodes

end Contribution

namespace Graph

/-- The graph with one more contribution. -/
def receive
    (graph : Graph)
    (added : Contribution) :
    Graph :=
  { graph with
    nodes := added.give graph.nodes
    edges := graph.edges ++ added.edges }

/-- Nodes that are decorated are received without edges. -/
theorem decorateAll_eq_receive
    (graph : Graph)
    (nodes : List String)
    (attributes : Attributes) :
    graph.decorateAll nodes attributes =
      graph.receive ⟨nodes, attributes, []⟩ := by
  induction nodes generalizing graph with
  | nil =>
      simp [decorateAll, receive, Contribution.give]
  | cons node rest inductionHypothesis =>
      exact inductionHypothesis (graph.decorate node attributes)

/-- Two contributions with the same attributes are received together. -/
theorem receive_receive
    (graph : Graph)
    (attributes : Attributes)
    (mentioned more : List String)
    (edges later : List Edge) :
    (graph.receive ⟨mentioned, attributes, edges⟩).receive
        ⟨more, attributes, later⟩ =
      graph.receive ⟨mentioned ++ more, attributes, edges ++ later⟩ := by
  simp [receive, Contribution.give]

/-- An edge is added only if its operator goes with the direction of the graph. -/
theorem addEdge_in_direction
    {graph next : Graph}
    {edge : Edge}
    {span : Span}
    (added : graph.addEdge edge span = .ok next) :
    edge.operator.isDirected = graph.directed := by
  unfold addEdge at added
  split at added
  · assumption
  · cases added

/-- An edge that is added is received with its ends. -/
theorem addEdge_receives
    {graph next : Graph}
    {edge : Edge}
    {span : Span}
    (added : graph.addEdge edge span = .ok next) :
    next = graph.receive ⟨edge.endsInOrder, .empty, [edge]⟩ := by
  unfold addEdge at added
  split at added
  · cases added
    rw [Edge.endsInOrder_eq]
    rfl
  · cases added

/-- Edges that are added one after another are received together. -/
theorem addEdges_receives
    {graph next : Graph}
    {edges : List Edge}
    {span : Span}
    (added : graph.addEdges edges span = .ok next) :
    next =
      graph.receive ⟨edges.flatMap Edge.endsInOrder, .empty, edges⟩ := by
  induction edges generalizing graph with
  | nil =>
      cases added
      simp [receive, Contribution.give]
  | cons edge rest inductionHypothesis =>
      simp only [addEdges, List.foldlM_cons] at added
      cases first : graph.addEdge edge span with
      | error error =>
          rw [first] at added
          cases added
      | ok middle =>
          rw [first] at added
          rw [inductionHypothesis added, addEdge_receives first,
            receive_receive]
          rfl

end Graph

namespace Draft

variable {draft next : Draft}

/-- A node statement adds what it contributes. -/
theorem afterNode_receives
    {statement : NodeStatement}
    {graph : Graph}
    (evaluated : draft.afterNode statement = .ok graph) :
    ∃ added,
      draft.environment.meaning.nodeContribution? statement = some added ∧
        graph = draft.graph.receive added := by
  obtain ⟨attributes, areGiven, evaluated⟩ := bind_eq_ok.1 evaluated
  unfold Meaning.nodeContribution?
  rw [Environment.optionalAttributes?_of_optionalAttributes areGiven]
  cases target : statement.target with
  | list names =>
      rw [target] at evaluated
      cases evaluated
      refine ⟨_, rfl, ?_⟩
      rw [Graph.decorateAll_eq_receive,
        funext draft.environment.nodesOf_eq_nodes]
  | reference name =>
      rw [target] at evaluated
      obtain ⟨found, isFound, evaluated⟩ := bind_eq_ok.1 evaluated
      have isMeant := Environment.meaning_of_lookup isFound
      rcases found with ⟨_, _, value, _⟩
      simp only [Option.bind_eq_bind, isMeant]
      cases value with
      | nodeReference node =>
          cases evaluated
          exact ⟨_, rfl, draft.graph.decorateAll_eq_receive _ _⟩
      | nodeList nodes =>
          cases evaluated
          exact ⟨_, rfl, draft.graph.decorateAll_eq_receive _ _⟩
      | edgeList edges =>
          have spliced := Graph.addEdges_receives evaluated
          rw [List.flatMap_map] at spliced
          exact ⟨_, rfl, spliced⟩
      | attributeList own =>
          cases evaluated

/-- An edge statement adds what it contributes. -/
theorem edge_receives
    {statement : EdgeStatement}
    {edge : Edge}
    {graph : Graph}
    (resolved : draft.environment.edgeOf statement = .ok edge)
    (evaluated : draft.graph.addEdge edge statement.span = .ok graph) :
    ∃ added,
      draft.environment.meaning.edgeContribution? statement = some added ∧
        graph = draft.graph.receive added := by
  have isEdge := Environment.edge?_of_edgeOf resolved
  obtain ⟨left, isLeft, resolved⟩ := bind_eq_ok.1 resolved
  obtain ⟨right, isRight, resolved⟩ := bind_eq_ok.1 resolved
  obtain ⟨attributes, _, resolved⟩ := bind_eq_ok.1 resolved
  cases resolved
  rw [Meaning.edgeContribution?, Environment.node?_of_nodeOf isLeft,
    Environment.node?_of_nodeOf isRight, isEdge]
  refine ⟨_, rfl, ?_⟩
  rw [Graph.addEdge_receives evaluated, Edge.between_eq_written,
    Edge.endsInOrder_written]

/-- A statement adds what it contributes in front of what the items below it do. -/
theorem applyStatement_receives
    {statement : Statement}
    (applied : draft.applyStatement statement = .ok next) :
    ∃ added,
      next.graph = added.foldl Graph.receive draft.graph ∧
        ∀ {rest later},
          next.environment.meaning.contributions? rest = some later →
          draft.environment.meaning.contributions?
              (.statement statement :: rest) =
            some (added ++ later) := by
  cases statement with
  | binding declared =>
      obtain ⟨environment, isDeclared, isNext⟩ := bind_eq_ok.1 applied
      cases isNext
      obtain ⟨denoted, isDenoted, isMeaning⟩ :=
        Environment.meaning_declareVariable isDeclared
      refine ⟨[], rfl, fun resolved => ?_⟩
      rw [isMeaning] at resolved
      rw [Meaning.contributions?, isDenoted]
      exact resolved
  | node written =>
      obtain ⟨graph, evaluated, isNext⟩ := bind_eq_ok.1 applied
      cases isNext
      obtain ⟨first, contributed, received⟩ := afterNode_receives evaluated
      refine ⟨[first], received, fun resolved => ?_⟩
      rw [Meaning.contributions?, contributed, resolved]
      rfl
  | edge written =>
      obtain ⟨edge, isEdge, applied⟩ := bind_eq_ok.1 applied
      obtain ⟨graph, evaluated, isNext⟩ := bind_eq_ok.1 applied
      cases isNext
      obtain ⟨first, contributed, received⟩ := edge_receives isEdge evaluated
      refine ⟨[first], received, fun resolved => ?_⟩
      rw [Meaning.contributions?, contributed, resolved]
      rfl

/-- The items of a body add what they contribute, one after another. -/
theorem run_receives
    {items : List BodyItem}
    {graph : Graph}
    (ran :
      run applyStatement draft (items.filterMap BodyItem.statement?) =
        .ok graph) :
    ∃ contributions,
      draft.environment.meaning.contributions? items = some contributions ∧
        graph = contributions.foldl Graph.receive draft.graph := by
  induction items generalizing draft with
  | nil =>
      cases ran
      exact ⟨[], rfl, rfl⟩
  | cons item rest inductionHypothesis =>
      cases item with
      | defaults declared =>
          exact inductionHypothesis ran
      | statement statement =>
          simp only [List.filterMap_cons, BodyItem.statement?, run_cons]
            at ran
          obtain ⟨next, applied, ran⟩ := bind_eq_ok.1 ran
          obtain ⟨added, received, contributes⟩ :=
            applyStatement_receives applied
          obtain ⟨later, resolved, rfl⟩ := inductionHypothesis ran
          refine ⟨added ++ later, contributes resolved, ?_⟩
          rw [List.foldl_append, received]

end Draft

namespace Graph

/-- Contributions leave the name, the direction and the defaults of a graph. -/
theorem foldl_receive_eq
    (graph : Graph)
    (contributions : List Contribution) :
    contributions.foldl receive graph =
      { graph with
        nodes := (contributions.foldl receive graph).nodes
        edges := (contributions.foldl receive graph).edges } := by
  induction contributions generalizing graph with
  | nil =>
      rfl
  | cons first later inductionHypothesis =>
      exact inductionHypothesis (graph.receive first)

end Graph

namespace ModelBuilder

/--
The parts of a finished graph: what the statements contribute, and the defaults.
-/
theorem parts_of_finished
    {environment : Environment}
    {declaration : GraphDeclaration}
    {graph : Graph}
    (finished :
      (opening environment declaration).finished declaration = .ok graph) :
    ∃ contributions maps,
      environment.meaning.contributions? declaration.items =
          some contributions ∧
        Draft.defaultsOf Draft.applyDefaults
            (opening environment declaration) declaration.defaults =
          .ok maps ∧
        graph =
          (contributions.foldl Graph.receive
            (opening environment declaration).graph).withDefaults maps := by
  rw [Draft.finished_eq_settle] at finished
  obtain ⟨maps, isMaps, settled⟩ := bind_eq_ok.1 finished
  cases ran :
      Draft.run Draft.applyStatement (opening environment declaration)
        declaration.statements with
  | error error =>
      rw [ran] at settled
      cases settled
  | ok built =>
      rw [ran] at settled
      cases settled
      obtain ⟨contributions, resolved, rfl⟩ := Draft.run_receives ran
      exact ⟨contributions, maps, resolved, isMaps, rfl⟩

/-- A finished graph has the name of its declaration. -/
theorem id_of_finished
    {environment : Environment}
    {declaration : GraphDeclaration}
    {graph : Graph}
    (finished :
      (opening environment declaration).finished declaration = .ok graph) :
    graph.id = declaration.name.name := by
  obtain ⟨contributions, maps, _, _, rfl⟩ := parts_of_finished finished
  rw [Graph.foldl_receive_eq]
  rfl

/-- A declaration of a new name adds the graph of its body. -/
theorem added_build
    {builder : ModelBuilder}
    (environment : Environment)
    {declaration : GraphDeclaration}
    (unused : builder.declaredAt.get? declaration.name.name = none) :
    (builder.build environment declaration).added declaration =
      ((opening environment declaration).finished declaration).map some := by
  have named
      (graph : Graph)
      (finished :
        (opening environment declaration).finished declaration =
          .ok graph) :
      graph.id = declaration.name.name :=
    id_of_finished finished
  unfold Draft.finished opening at named ⊢
  simp only [build, Result.added, unused]
  generalize Draft.complete _ declaration = completed at named ⊢
  rcases completed with ⟨outcome, last⟩
  cases outcome with
  | error error =>
      rfl
  | ok finished =>
      have isNamed := named last.graph rfl
      simp [Except.map, Model.get?, Model.add, NameMap.get?_insert, isNamed]

end ModelBuilder

end GraphScript
