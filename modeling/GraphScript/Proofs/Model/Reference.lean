import GraphScript.Proofs.Model.Contribution

namespace GraphScript

/-!
# What a declaration builds

The graph of a declaration is composed of what its statements contribute. Its
nodes are the mentioned ones, each once and in the order of the first mention,
and each node holds what the statements that mention it gave it last. The three
kinds of defaults hold what their declarations gave last.
-/

open NameMap

namespace Contribution

/-- The mentioned nodes are appended where they are new. -/
theorem keys_give
    {nodes : NameMap Attributes}
    {names : List String}
    (listed : nodes.keys = names.eraseDups)
    (added : Contribution) :
    (added.give nodes).keys = (names ++ added.mentioned).eraseDups := by
  rcases added with ⟨mentioned, attributes, edges⟩
  induction mentioned generalizing nodes names with
  | nil =>
      simpa [give] using listed
  | cons node rest inductionHypothesis =>
      have one := keys_alter_of_listed listed node fun own =>
        (own.getD .empty).merge attributes
      simpa [give] using inductionHypothesis one

/-- A mentioned node is given the attributes, however often it is mentioned. -/
theorem get?_give
    (added : Contribution)
    (nodes : NameMap Attributes)
    (node : String) :
    (added.give nodes).get? node =
      if node ∈ added.mentioned then
        some (((nodes.get? node).getD .empty).merge added.attributes)
      else
        nodes.get? node := by
  rcases added with ⟨mentioned, attributes, edges⟩
  induction mentioned generalizing nodes with
  | nil =>
      simp [give]
  | cons first rest inductionHypothesis =>
      have later := inductionHypothesis (nodes.alter first fun own =>
        (own.getD .empty).merge attributes)
      rw [get?_alter] at later
      refine later.trans ?_
      by_cases same : first = node
      · subst same
        by_cases again : first ∈ rest <;> simp [again]
      · simp [same, Ne.symm same]

end Contribution

namespace Graph

/--
Whether a graph is composed of contributions.

Its edges are theirs, its nodes are the ones that they mention, and each node
holds what was given to it last.
-/
structure ComposedOf
    (graph : Graph)
    (contributions : List Contribution) :
    Prop where
  edges : graph.edges = contributions.flatMap (·.edges)
  names :
    graph.nodes.keys = (contributions.flatMap (·.mentioned)).eraseDups
  attributes :
    ∀ node own,
      graph.nodes.get? node = some own →
      LastWins
        ((contributions.filter (node ∈ ·.mentioned)).map (·.attributes))
        own

namespace ComposedOf

variable {graph : Graph} {contributions : List Contribution}

theorem empty
    (id : String)
    (directed : Bool) :
    (Graph.empty id directed).ComposedOf [] :=
  ⟨rfl, rfl, by rintro _ _ ⟨⟩⟩

/-- What a node holds that may be missing. -/
theorem ownOrEmpty
    (composed : graph.ComposedOf contributions)
    (node : String) :
    LastWins
      ((contributions.filter (node ∈ ·.mentioned)).map (·.attributes))
      ((graph.nodes.get? node).getD .empty) := by
  cases held : graph.nodes.get? node with
  | some own =>
      exact composed.attributes node own held
  | none =>
      have unmentioned :
          contributions.filter (node ∈ ·.mentioned) = [] := by
        have absent := get?_eq_none_iff.1 held
        rw [composed.names, List.mem_eraseDups] at absent
        simpa [List.filter_eq_nil_iff] using absent
      rw [unmentioned]
      exact .nil

/-- One more contribution. -/
theorem receive
    (composed : graph.ComposedOf contributions)
    (added : Contribution) :
    (graph.receive added).ComposedOf (contributions ++ [added]) := by
  refine ⟨?_, ?_, fun node own held => ?_⟩
  · simp [Graph.receive, composed.edges]
  · have keys := Contribution.keys_give composed.names added
    rw [List.flatMap_append, List.flatMap_singleton]
    exact keys
  · replace held : (added.give graph.nodes).get? node = some own := held
    rw [Contribution.get?_give] at held
    by_cases mentioned : node ∈ added.mentioned
    · rw [if_pos mentioned] at held
      cases held
      simpa [List.filter_append, mentioned] using
        (composed.ownOrEmpty node).append added.attributes
    · rw [if_neg mentioned] at held
      simpa [List.filter_append, mentioned] using
        composed.attributes node own held

/-- Contributions one after another. -/
theorem receiveAll
    (composed : graph.ComposedOf contributions)
    (later : List Contribution) :
    (later.foldl Graph.receive graph).ComposedOf
      (contributions ++ later) := by
  induction later generalizing graph contributions with
  | nil =>
      simpa using composed
  | cons first rest inductionHypothesis =>
      simpa using inductionHypothesis (composed.receive first)

end ComposedOf

end Graph

namespace Draft

/-- Default declarations are laid over what was there, one after another. -/
theorem lastWins_of_defaults
    {draft : Draft}
    {items : List BodyItem}
    {maps : DefaultTarget → Attributes}
    (evaluated :
      defaultsOf applyDefaults draft (items.filterMap BodyItem.defaults?) =
        .ok maps)
    (target : DefaultTarget) :
    ∃ lists,
      draft.environment.meaning.defaults? target items = some lists ∧
        ∀ earlier,
          LastWins earlier (draft.graph.defaults target) →
          LastWins (earlier ++ lists) (maps target) := by
  induction items generalizing draft with
  | nil =>
      cases evaluated
      exact ⟨[], rfl, fun earlier held => by simpa using held⟩
  | cons item rest inductionHypothesis =>
      cases item with
      | statement statement =>
          exact inductionHypothesis evaluated
      | defaults first =>
          obtain ⟨graph, ran, isMaps⟩ := map_eq_ok.1 evaluated
          simp only [List.filterMap_cons, BodyItem.defaults?, run_cons] at ran
          obtain ⟨next, applied, ran⟩ := bind_eq_ok.1 ran
          obtain ⟨attributes, isFirst, isNext⟩ := bind_eq_ok.1 applied
          cases isNext
          obtain ⟨lists, areLists, held⟩ :=
            inductionHypothesis (map_eq_ok.2 ⟨graph, ran, isMaps⟩)
          rw [Graph.addDefaults_eq, Graph.defaults_withDefaults] at held
          have isMeant := Environment.attributes?_of_attributesOf isFirst
          rw [Meaning.defaults?]
          by_cases same : first.target = target
          · refine ⟨attributes :: lists, ?_, fun earlier heldBefore => ?_⟩
            · rw [if_pos same, isMeant, areLists]
              rfl
            · rw [if_pos same.symm] at held
              simpa using held _ (heldBefore.append attributes)
          · refine ⟨lists, ?_, ?_⟩
            · rw [if_neg same]
              exact areLists
            · rwa [if_neg (Ne.symm same)] at held

end Draft

namespace ModelBuilder

/--
A graph that is built is composed of what its statements contribute, and its
defaults are what their declarations gave last.
-/
theorem build_composes
    {builder : ModelBuilder}
    {environment : Environment}
    {declaration : GraphDeclaration}
    (built : (builder.build environment declaration).outcome = .ok ()) :
    ∃ graph contributions,
      (builder.build environment declaration).builder.model.get?
          declaration.name.name = some graph ∧
        graph.id = declaration.name.name ∧
        graph.directed = declaration.direction.isDirected ∧
        environment.meaning.contributions? declaration.items =
          some contributions ∧
        graph.ComposedOf contributions ∧
        ∀ target, ∃ lists,
          environment.meaning.defaults? target declaration.items =
              some lists ∧
            LastWins lists (graph.defaults target) := by
  have unused : builder.declaredAt.get? declaration.name.name = none := by
    cases earlier : builder.declaredAt.get? declaration.name.name with
    | none =>
        rfl
    | some span =>
        simp [build, earlier] at built
  have added := added_build environment unused
  unfold Result.added at added
  rw [built] at added
  obtain ⟨graph, finished, inModel⟩ := map_eq_ok.1 added.symm
  obtain ⟨contributions, maps, resolved, isMaps, rfl⟩ :=
    parts_of_finished finished
  have composed :=
    (Graph.ComposedOf.empty declaration.name.name
      declaration.direction.isDirected).receiveAll contributions
  refine ⟨_, contributions, inModel.symm, id_of_finished finished, ?_,
    resolved, ⟨composed.edges, composed.names, composed.attributes⟩,
    fun target => ?_⟩
  · rw [Graph.foldl_receive_eq]
    rfl
  · obtain ⟨lists, areLists, held⟩ :=
      Draft.lastWins_of_defaults isMaps target
    refine ⟨lists, areLists, ?_⟩
    rw [Graph.defaults_withDefaults]
    refine held [] ?_
    cases target <;> exact .nil

/-- A list that is expanded, edges that are spliced, and a name at an end. -/
theorem build_composes_of_splice :
    let name (text : String) : Identifier := ⟨text, default⟩
    let marked (value : String) : Option AttributeSource :=
      some (.list
        ⟨[⟨name "k", .assign, .word value, default⟩], default⟩)
    let binding
        (type : VariableType)
        (text : String)
        (source : VariableSource) :
        BodyItem :=
      .statement (.binding ⟨type, name text, source, default⟩)
    let items : List BodyItem :=
      [.defaults ⟨.edge, .list ⟨[], default⟩, default⟩,
        binding .node "l" (.nodes [name "p", name "q"]),
        binding .node "r" (.nodes [name "p"]),
        binding .edge "e"
          (.edges [⟨name "a", .backward, name "b", marked "x", default⟩]),
        .statement (.node ⟨.list [name "c", name "l"], marked "y", default⟩),
        .statement (.node ⟨.reference (name "e"), marked "z", default⟩),
        .statement (.edge ⟨name "r", .forward, name "c", none, default⟩)]
    let declaration : GraphDeclaration :=
      ⟨.directed, name "g", items, default⟩
    let result := ModelBuilder.empty.build .empty declaration
    result.outcome = .ok () ∧
      ∃ graph contributions,
        result.builder.model.get? "g" = some graph ∧
          Environment.empty.meaning.contributions? items =
            some contributions ∧
          graph.ComposedOf contributions ∧
          contributions.map (·.mentioned) =
            [["c", "p", "q"], ["a", "b"], ["p", "c"]] ∧
          graph.nodeNames = ["c", "p", "q", "a", "b"] ∧
          graph.edges.map (fun edge => (edge.source, edge.target)) =
            [("b", "a"), ("p", "c")] ∧
          graph.edges.map (·.attributes.entries) =
            [[("k", .word "z")], []] := by
  intro name marked binding items declaration result
  have built : result.outcome = .ok () :=
    rfl
  obtain ⟨graph, contributions, inModel, _, _, resolved, composed, _⟩ :=
    build_composes built
  have areMentioned :
      contributions.map (·.mentioned) =
        [["c", "p", "q"], ["a", "b"], ["p", "c"]] := by
    rw [← Option.some.inj resolved]
    rfl
  refine ⟨built, graph, contributions, inModel, resolved, composed,
    areMentioned, ?_⟩
  rw [← Option.some.inj inModel]
  exact ⟨rfl, rfl, rfl⟩

end ModelBuilder

end GraphScript
