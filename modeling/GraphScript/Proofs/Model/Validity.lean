import GraphScript.Proofs.Evaluation.Calls
import GraphScript.Proofs.Model.DenotedEdges
import GraphScript.Proofs.Model.Isolation
import GraphScript.Proofs.Model.Reference
import Mathlib.Data.List.Forall2

namespace GraphScript

/-!
# Valid models

Every statement of a body keeps its graph well formed: the ends of edges are
nodes, and no edge goes against the direction of the graph. A program that is
evaluated therefore has one well-formed graph for each declaration. As the
operators of a graph's edges can be read off the program, a program with an
edge against the direction of its graph is never evaluated.
-/

namespace Graph

/-- A graph of a given direction whose edges join its nodes in that direction. -/
structure WellFormed
    (graph : Graph)
    (directed : Bool) :
    Prop where
  direction : graph.directed = directed
  sources : ∀ edge ∈ graph.edges, edge.source ∈ graph.nodeNames
  targets : ∀ edge ∈ graph.edges, edge.target ∈ graph.nodeNames
  operators : ∀ edge ∈ graph.edges, edge.operator.isDirected = directed
  distinctNames : graph.nodeNames.Nodup

theorem mem_nodeNames_receive
    {graph : Graph}
    {added : Contribution}
    {node : String} :
    node ∈ (graph.receive added).nodeNames ↔
      node ∈ graph.nodeNames ∨ node ∈ added.mentioned := by
  have held (map : NameMap Attributes) :
      node ∈ map.keys ↔ map.get? node ≠ none := by
    rw [ne_eq, NameMap.get?_eq_none_iff, not_not]
  have given := added.get?_give graph.nodes node
  unfold nodeNames
  rw [held, held]
  by_cases mentioned : node ∈ added.mentioned
  · rw [if_pos mentioned] at given
    simp [receive, given, mentioned]
  · rw [if_neg mentioned] at given
    simp [receive, given, mentioned]

namespace WellFormed

variable
  {graph next : Graph}
  {directed : Bool}

theorem empty
    (id : String)
    (directed : Bool) :
    (Graph.empty id directed).WellFormed directed := by
  constructor
  case direction =>
    rfl
  case distinctNames =>
    exact List.nodup_nil
  all_goals
    intro edge member
    cases member

/-- A contribution whose edges join nodes that it mentions. -/
theorem receive
    (wellFormed : graph.WellFormed directed)
    {added : Contribution}
    (sources : ∀ edge ∈ added.edges, edge.source ∈ added.mentioned)
    (targets : ∀ edge ∈ added.edges, edge.target ∈ added.mentioned)
    (operators :
      ∀ edge ∈ added.edges, edge.operator.isDirected = directed) :
    (graph.receive added).WellFormed directed := by
  constructor
  case direction =>
    exact wellFormed.direction
  case sources =>
    intro edge member
    apply mem_nodeNames_receive.2
    rcases List.mem_append.1 member with earlier | isAdded
    · exact .inl (wellFormed.sources edge earlier)
    · exact .inr (sources edge isAdded)
  case targets =>
    intro edge member
    apply mem_nodeNames_receive.2
    rcases List.mem_append.1 member with earlier | isAdded
    · exact .inl (wellFormed.targets edge earlier)
    · exact .inr (targets edge isAdded)
  case operators =>
    intro edge member
    rcases List.mem_append.1 member with earlier | isAdded
    · exact wellFormed.operators edge earlier
    · exact operators edge isAdded
  case distinctNames =>
    exact (graph.receive added).nodes.distinct

/-- Attributes of nodes have nothing to do with the edges. -/
theorem decorateAll
    (wellFormed : graph.WellFormed directed)
    (nodes : List String)
    (attributes : Attributes) :
    (graph.decorateAll nodes attributes).WellFormed directed := by
  rw [decorateAll_eq_receive]
  apply wellFormed.receive
  all_goals
    intro edge member
    cases member

/-- An edge is added with its ends, and only in the direction of the graph. -/
theorem addEdge
    (wellFormed : graph.WellFormed directed)
    {edge : Edge}
    {span : Span}
    (added : graph.addEdge edge span = .ok next) :
    next.WellFormed directed := by
  have sameDirection : edge.operator.isDirected = directed :=
    (addEdge_in_direction added).trans wellFormed.direction
  have mentionsEnds :
      edge.source ∈ edge.endsInOrder ∧ edge.target ∈ edge.endsInOrder := by
    unfold Edge.endsInOrder
    split <;> simp
  rw [addEdge_receives added]
  apply wellFormed.receive
  all_goals
    intro other member
    cases List.mem_singleton.1 member
  · exact mentionsEnds.1
  · exact mentionsEnds.2
  · exact sameDirection

theorem addEdges
    (wellFormed : graph.WellFormed directed)
    {edges : List Edge}
    {span : Span}
    (added : graph.addEdges edges span = .ok next) :
    next.WellFormed directed := by
  induction edges generalizing graph with
  | nil =>
      cases added
      exact wellFormed
  | cons edge rest inductionHypothesis =>
      unfold Graph.addEdges at added
      rw [List.foldlM_cons] at added
      obtain ⟨middle, first, added⟩ := bind_eq_ok.1 added
      exact inductionHypothesis (wellFormed.addEdge first) added

/-- Defaults are not part of the nodes or the edges. -/
theorem addDefaults
    (wellFormed : graph.WellFormed directed)
    (target : DefaultTarget)
    (attributes : Attributes) :
    (graph.addDefaults target attributes).WellFormed directed := by
  rw [addDefaults_eq]
  obtain ⟨direction, sources, targets, operators, distinctNames⟩ :=
    wellFormed
  exact ⟨direction, sources, targets, operators, distinctNames⟩

end WellFormed

end Graph

namespace Draft

variable
  {draft next : Draft}
  {directed : Bool}

theorem wellFormed_of_applyDefaults
    {declaration : DefaultDeclaration}
    (applied : draft.applyDefaults declaration = .ok next)
    (wellFormed : draft.graph.WellFormed directed) :
    next.graph.WellFormed directed := by
  obtain ⟨attributes, _, isNext⟩ := bind_eq_ok.1 applied
  cases isNext
  exact wellFormed.addDefaults _ _

theorem wellFormed_of_afterNode
    {statement : NodeStatement}
    {graph : Graph}
    (evaluated : draft.afterNode statement = .ok graph)
    (wellFormed : draft.graph.WellFormed directed) :
    graph.WellFormed directed := by
  obtain ⟨attributes, _, evaluated⟩ := bind_eq_ok.1 evaluated
  split at evaluated
  · cases evaluated
    exact wellFormed.decorateAll _ _
  · obtain ⟨found, _, evaluated⟩ := bind_eq_ok.1 evaluated
    split at evaluated
    · cases evaluated
      exact wellFormed.decorateAll _ _
    · cases evaluated
      exact wellFormed.decorateAll _ _
    · exact wellFormed.addEdges evaluated
    · cases evaluated

/-- Every statement keeps the graph of a body well formed. -/
theorem wellFormed_of_applyStatement
    {statement : Statement}
    (applied : draft.applyStatement statement = .ok next)
    (wellFormed : draft.graph.WellFormed directed) :
    next.graph.WellFormed directed := by
  cases statement with
  | binding declaration =>
      obtain ⟨environment, _, isNext⟩ := bind_eq_ok.1 applied
      cases isNext
      exact wellFormed
  | node statement =>
      obtain ⟨graph, evaluated, isNext⟩ := bind_eq_ok.1 applied
      cases isNext
      exact wellFormed_of_afterNode evaluated wellFormed
  | edge statement =>
      obtain ⟨edge, _, applied⟩ := bind_eq_ok.1 applied
      obtain ⟨graph, added, isNext⟩ := bind_eq_ok.1 applied
      cases isNext
      exact wellFormed.addEdge added

/-- A graph that is finished is as well formed as the one it was begun with. -/
theorem wellFormed_of_finished
    {declaration : GraphDeclaration}
    {graph : Graph}
    (finished : draft.finished declaration = .ok graph)
    (wellFormed : draft.graph.WellFormed directed) :
    graph.WellFormed directed := by
  have kept :=
    complete_keeps
      (fun _ _ _ => wellFormed_of_applyDefaults)
      (fun _ _ _ => wellFormed_of_applyStatement)
      wellFormed declaration
  obtain ⟨_, _, rfl⟩ := map_eq_ok.1 finished
  exact kept

end Draft

/-! ## Graphs and their declarations -/

/-- The operators with which the body of a graph adds edges. -/
def GraphDeclaration.operators
    (declaration : GraphDeclaration)
    (declared : List VariableDeclaration) :
    List EdgeOperator :=
  operatorsUsed declared declaration.statements

namespace ModelBuilder

variable
  {environment : Environment}
  {declaration : GraphDeclaration}
  {graph : Graph}

theorem wellFormed_of_finished
    (finished :
      (opening environment declaration).finished declaration = .ok graph) :
    graph.WellFormed declaration.direction.isDirected :=
  Draft.wellFormed_of_finished finished (.empty _ _)

/-- The edges of a finished graph have the operators that its body uses. -/
theorem operators_of_finished
    (finished :
      (opening environment declaration).finished declaration = .ok graph)
    {declared : List VariableDeclaration}
    (follows : environment.meaning.Follows declared) :
    graph.edges.map (·.operator) = declaration.operators declared := by
  obtain ⟨contributions, maps, resolved, _, rfl⟩ :=
    parts_of_finished finished
  have composed :=
    (Graph.ComposedOf.empty declaration.name.name
      declaration.direction.isDirected).receiveAll contributions
  have operators := follows.operators_of_contributions resolved
  exact (congrArg (List.map (·.operator)) composed.edges).trans operators

/--
Declarations that are all built leave one graph each, in their order, behind the
graphs that were there.
-/
theorem graphs_of_buildAll
    {builder : ModelBuilder}
    {calls : List Call}
    (remembers : builder.Remembers calls)
    {declarations : List GraphDeclaration}
    (built :
      (builder.buildAll environment declarations).outcome = .ok ()) :
    ∃ graphs : List Graph,
      List.Forall₂
          (fun declaration graph =>
            (opening environment declaration).finished declaration =
              .ok graph)
          declarations graphs ∧
        (builder.buildAll environment declarations).builder.model.graphs.entries =
          builder.model.graphs.entries ++
            graphs.map fun graph => (graph.id, graph) := by
  induction declarations generalizing builder calls with
  | nil =>
      exact ⟨[], .nil, by simp [buildAll]⟩
  | cons declaration rest inductionHypothesis =>
      let made : Call := ⟨environment, declaration⟩
      rw [buildAll] at built ⊢
      cases outcome : (builder.build environment declaration).outcome with
      | error error =>
          simp [outcome] at built
      | ok _ =>
          simp only [outcome, environment_build] at built ⊢
          obtain ⟨graphs, finished, entries⟩ :=
            inductionHypothesis (remembers.call made) built
          have succeeded : (builder.call made).outcome = .ok () := outcome
          obtain ⟨graph, described, success⟩ := success_of_call succeeded
          refine ⟨graph :: graphs, .cons described finished, ?_⟩
          have grown := remembers.entries_call made
          have named : graph.id = made.name := id_of_finished described
          rw [success, Option.toList_some, ← named] at grown
          apply entries.trans
          rw [grown, List.append_assoc]
          rfl

end ModelBuilder

/-! ## Programs -/

/--
Whether a graph of a program has an edge against its direction, by an edge
statement of its body or by a name that denotes such an edge there.
-/
def Program.Misdirected
    (program : Program) :
    Prop :=
  ∃ declaration ∈ program.graphs,
    ∃ operator ∈ declaration.operators program.bindings.reverse,
      operator.isDirected ≠ declaration.direction.isDirected

/-- Whether a graph is what a declaration may be evaluated to. -/
structure Graph.ValidFor
    (graph : Graph)
    (declaration : GraphDeclaration) :
    Prop where
  id : graph.id = declaration.name.name
  wellFormed : graph.WellFormed declaration.direction.isDirected

/--
Whether a model holds one graph for each of some declarations, in their order,
under the name of the declaration.
-/
def Model.ValidFor
    (model : Model)
    (declarations : List GraphDeclaration) :
    Prop :=
  List.Forall₂
    (fun declaration (entry : String × Graph) =>
      entry.1 = declaration.name.name ∧ entry.2.ValidFor declaration)
    declarations model.graphs.entries

/-- Declarations that are all evaluated are the nearest ones from there on. -/
theorem Meaning.Follows.declareAll
    {environment next : Environment}
    {declared declarations : List VariableDeclaration}
    (follows : environment.meaning.Follows declared)
    (succeeded : environment.declareAll declarations = .ok next) :
    next.meaning.Follows (declarations.reverse ++ declared) := by
  induction declarations generalizing environment declared with
  | nil =>
      cases succeeded
      exact follows
  | cons declaration rest inductionHypothesis =>
      unfold Environment.declareAll at succeeded
      rw [List.foldlM_cons] at succeeded
      obtain ⟨middle, first, succeeded⟩ := bind_eq_ok.1 succeeded
      have later :=
        inductionHypothesis (follows.declareVariable first) succeeded
      rw [List.reverse_cons, List.append_assoc]
      exact later

namespace Registry

variable
  {State : Type}
  {registry : Registry State}
  {program : Program}
  {state : State}
  {evaluation : Evaluation}

/-- A program is evaluated only where its variables and its graphs are. -/
theorem phases_of_evaluate
    (evaluated : (registry.evaluate program state).1 = .ok evaluation) :
    ∃ declared,
      Environment.empty.declareAll program.bindings = .ok declared ∧
        (ModelBuilder.empty.buildAll declared program.graphs).outcome =
          .ok () ∧
        evaluation.model =
          (ModelBuilder.empty.buildAll declared
            program.graphs).builder.model := by
  rcases ran : registry.evaluate program state with ⟨outcome, last⟩
  obtain ⟨calls, evaluates⟩ := evaluates_of_evaluate ran
  rw [ran] at evaluated
  cases evaluated
  cases evaluates with
  | @completed declared _ _ declares builds _ =>
      refine ⟨declared, declares.declareAll, ?_⟩
      rw [builds.buildAll]
      exact ⟨rfl, rfl⟩

/-- The graphs of an evaluated program, with the operators that it uses. -/
theorem graphs_of_evaluate
    (evaluated : (registry.evaluate program state).1 = .ok evaluation) :
    List.Forall₂
      (fun declaration (entry : String × Graph) =>
        entry.1 = declaration.name.name ∧
          entry.2.ValidFor declaration ∧
          entry.2.edges.map (·.operator) =
            declaration.operators program.bindings.reverse)
      program.graphs evaluation.model.graphs.entries := by
  obtain ⟨declared, isDeclared, isBuilt, isModel⟩ :=
    phases_of_evaluate evaluated
  have follows := Meaning.Follows.empty.declareAll isDeclared
  rw [List.append_nil] at follows
  obtain ⟨graphs, finished, entries⟩ :=
    ModelBuilder.graphs_of_buildAll ModelBuilder.Remembers.empty isBuilt
  rw [isModel, entries]
  apply List.forall₂_map_right_iff.2
  apply finished.imp
  intro declaration graph isFinished
  have named := ModelBuilder.id_of_finished isFinished
  exact ⟨named,
    ⟨named, ModelBuilder.wellFormed_of_finished isFinished⟩,
    ModelBuilder.operators_of_finished isFinished follows⟩

/--
An evaluated program has one well-formed graph for each of its declarations, and
a program with an edge against the direction of its graph is never evaluated.
-/
theorem evaluated_model_is_valid
    (registry : Registry State)
    (program : Program)
    (state : State) :
    (∀ evaluation,
      (registry.evaluate program state).1 = .ok evaluation →
      evaluation.model.ValidFor program.graphs) ∧
    (program.Misdirected →
      ∀ evaluation,
        (registry.evaluate program state).1 ≠ .ok evaluation) := by
  constructor
  · intro evaluation evaluated
    apply (graphs_of_evaluate evaluated).imp
    rintro declaration entry ⟨named, valid, _⟩
    exact ⟨named, valid⟩
  · rintro ⟨declaration, isDeclared, operator, isUsed, against⟩
    intro evaluation evaluated
    have graphs := graphs_of_evaluate evaluated
    obtain ⟨index, rfl⟩ := List.mem_iff_get.1 isDeclared
    obtain ⟨_, valid, operators⟩ :=
      graphs.get index.isLt (graphs.length_eq ▸ index.isLt)
    rw [← operators] at isUsed
    obtain ⟨edge, isEdge, rfl⟩ := List.mem_map.1 isUsed
    exact against (valid.wellFormed.operators edge isEdge)

/-- A copied edge variable whose name a graph declares again, above or below. -/
theorem evaluated_model_is_valid_of_copy :
    let name (text : String) : Identifier := ⟨text, default⟩
    let edges
        (variableName left : String)
        (operator : EdgeOperator)
        (right : String) :
        VariableDeclaration :=
      ⟨.edge, name variableName,
        .edges [⟨name left, operator, name right, none, default⟩], default⟩
    let copy : VariableDeclaration :=
      ⟨.edge, name "f", .reference (name "e"), default⟩
    let splice : Statement :=
      .node ⟨.reference (name "f"), none, default⟩
    let program (statements : List Statement) : Program :=
      ⟨[edges "e" "a" .forward "b"],
        [⟨.undirected, name "g", statements.map .statement, default⟩], [],
        default⟩
    let shadow := edges "e" "c" .undirected "d"
    let valid := program [.binding shadow, .binding copy, splice]
    let misdirected := program [.binding copy, .binding shadow, splice]
    let registry : Registry Unit := .empty
    (∃ evaluation,
      (registry.evaluate valid ()).1 = .ok evaluation ∧
        evaluation.model.ValidFor valid.graphs) ∧
      misdirected.Misdirected ∧
      ∀ evaluation, (registry.evaluate misdirected ()).1 ≠ .ok evaluation := by
  intro name edges copy splice program shadow valid misdirected registry
  have against : misdirected.Misdirected := by
    refine ⟨_, List.mem_singleton.2 rfl, .forward, ?_, by decide⟩
    exact List.mem_singleton.2 rfl
  refine ⟨⟨_, rfl, ?_⟩, against, ?_⟩
  · exact (evaluated_model_is_valid registry valid ()).1 _ rfl
  · exact (evaluated_model_is_valid registry misdirected ()).2 against

end Registry

end GraphScript
