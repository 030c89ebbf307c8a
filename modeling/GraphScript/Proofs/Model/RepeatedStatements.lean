import GraphScript.Proofs.Model.Reference

namespace GraphScript

/-!
# Statements that are repeated

Attributes laid over those of a node a second time change nothing. A node
statement that is repeated at once therefore leaves everything as it is, unless it
names a variable with edges: these are added to the graph once more.
-/

open NameMap

namespace Contribution

/-- A node that holds what is given keeps it. -/
theorem give_eq_self
    {added : Contribution}
    {nodes : NameMap Attributes}
    (settled :
      ∀ node ∈ added.mentioned,
        ∃ own,
          nodes.get? node = some own ∧ own.merge added.attributes = own) :
    added.give nodes = nodes := by
  rcases added with ⟨mentioned, attributes, edges⟩
  induction mentioned with
  | nil =>
      rfl
  | cons first rest inductionHypothesis =>
      obtain ⟨own, held, unchanging⟩ := settled first List.mem_cons_self
      have first :
          (nodes.alter first fun own => (own.getD .empty).merge attributes) =
            nodes :=
        alter_of_get? held unchanging
      simp only [give, List.foldl_cons, first]
      exact inductionHypothesis fun node member =>
        settled node (List.mem_cons_of_mem _ member)

/-- What is given a second time changes nothing. -/
theorem give_give
    (added : Contribution)
    (nodes : NameMap Attributes) :
    added.give (added.give nodes) = added.give nodes := by
  apply give_eq_self
  intro node mentioned
  have held := added.get?_give nodes node
  rw [if_pos mentioned] at held
  exact ⟨_, held, merge_merge_self _ _⟩

end Contribution

namespace Graph

variable {graph next other : Graph}

/-- Of a contribution that is received twice, only the edges count twice. -/
theorem receive_receive_self
    (graph : Graph)
    (added : Contribution) :
    (graph.receive added).receive added =
      { graph.receive added with
        edges := (graph.receive added).edges ++ added.edges } := by
  simp only [receive, Contribution.give_give]

/-- Edges that one graph takes are taken by every graph of its direction. -/
theorem exists_addEdges
    {edges : List Edge}
    {span : Span}
    (added : graph.addEdges edges span = .ok next)
    (sameDirection : other.directed = graph.directed) :
    ∃ otherNext, other.addEdges edges span = .ok otherNext := by
  induction edges generalizing graph other with
  | nil =>
      exact ⟨other, rfl⟩
  | cons edge rest inductionHypothesis =>
      rw [addEdges, List.foldlM_cons] at added ⊢
      obtain ⟨middle, first, later⟩ := bind_eq_ok.1 added
      have direction := addEdge_in_direction first
      have otherFirst :
          other.addEdge edge span =
            .ok (((other.mention edge.writtenEnds.1).mention
              edge.writtenEnds.2).appendEdge edge) :=
        if_pos (direction.trans sameDirection.symm)
      have middleDirection : middle.directed = graph.directed := by
        rw [addEdge_receives first]
        rfl
      rw [otherFirst]
      exact inductionHypothesis later
        (sameDirection.trans middleDirection.symm)

end Graph

namespace Draft

variable
  {draft once other : Draft}
  {statement : NodeStatement}
  {graph : Graph}

/-- A node statement succeeds in all graphs of one direction or in none. -/
theorem exists_afterNode
    (evaluated : draft.afterNode statement = .ok graph)
    (sameScopes : other.environment = draft.environment)
    (sameDirection : other.graph.directed = draft.graph.directed) :
    ∃ otherGraph, other.afterNode statement = .ok otherGraph := by
  obtain ⟨attributes, isGiven, evaluated⟩ := bind_eq_ok.1 evaluated
  unfold afterNode
  rw [sameScopes, isGiven]
  cases target : statement.target with
  | list names =>
      exact ⟨_, rfl⟩
  | reference name =>
      rw [target] at evaluated
      obtain ⟨found, isFound, evaluated⟩ := bind_eq_ok.1 evaluated
      simp only [isFound]
      rcases found with ⟨_, _, value, _⟩
      cases value with
      | nodeReference node =>
          exact ⟨_, rfl⟩
      | nodeList nodes =>
          exact ⟨_, rfl⟩
      | edgeList edges =>
          exact Graph.exists_addEdges evaluated sameDirection
      | attributeList own =>
          cases evaluated

/-- A node statement adds what it contributes, and its edges each time. -/
theorem repeat_node
    (applied : draft.applyStatement (.node statement) = .ok once) :
    ∃ added,
      draft.environment.meaning.nodeContribution? statement = some added ∧
        once.graph.edges = draft.graph.edges ++ added.edges ∧
        once.applyStatement (.node statement) =
          .ok { once with
            graph := { once.graph with
              edges := once.graph.edges ++ added.edges } } := by
  obtain ⟨graph, evaluated, isOnce⟩ := bind_eq_ok.1 applied
  cases isOnce
  obtain ⟨added, contributed, rfl⟩ := afterNode_receives evaluated
  let reached : Draft := { draft with graph := draft.graph.receive added }
  have repeats : ∃ again, reached.afterNode statement = .ok again :=
    exists_afterNode evaluated rfl rfl
  obtain ⟨again, evaluatedAgain⟩ := repeats
  obtain ⟨addedAgain, contributedAgain, rfl⟩ :=
    afterNode_receives evaluatedAgain
  have isSame : addedAgain = added :=
    Option.some.inj (contributedAgain.symm.trans contributed)
  refine ⟨added, contributed, rfl, ?_⟩
  rw [applyStatement, evaluatedAgain, isSame, Graph.receive_receive_self]
  rfl

end Draft

namespace Environment

/-- Whether a node statement names a variable that holds edges. -/
def NamesEdges
    (environment : Environment)
    (statement : NodeStatement) :
    Prop :=
  ∃ name edges,
    statement.target = .reference name ∧
      environment.value? name.name = some (.edgeList edges)

/-- Only the edges of a variable are contributed by a node statement. -/
theorem edges_nodeContribution?
    {environment : Environment}
    {statement : NodeStatement}
    {added : Contribution}
    (noEdges : ¬ environment.NamesEdges statement)
    (contributed :
      environment.meaning.nodeContribution? statement = some added) :
    added.edges = [] := by
  unfold Meaning.nodeContribution? at contributed
  obtain ⟨attributes, _, contributed⟩ := Option.bind_eq_some_iff.1 contributed
  cases target : statement.target with
  | list names =>
      rw [target] at contributed
      cases contributed
      rfl
  | reference name =>
      rw [target] at contributed
      obtain ⟨denoted, isMeant, contributed⟩ :=
        Option.bind_eq_some_iff.1 contributed
      rw [meaning_eq] at isMeant
      obtain ⟨value, isValue, rfl⟩ := Option.map_eq_some_iff.1 isMeant
      cases value with
      | nodeReference node =>
          cases contributed
          rfl
      | nodeList nodes =>
          cases contributed
          rfl
      | edgeList edges =>
          exact absurd ⟨name, edges, target, isValue⟩ noEdges
      | attributeList own =>
          cases contributed

end Environment

/--
Merging attributes is an idempotent monoid that keeps the order of the keys.

Keys stay where they are, new ones come last, and the later value wins. So a node
statement that is applied again at once changes nothing; one that names a variable
with edges adds these edges again, and changes nothing else.
-/
theorem Attributes.merging_is_ordered_idempotent_monoid
    (first second third : Attributes) :
    (first.merge second).merge third = first.merge (second.merge third) ∧
      first.merge .empty = first ∧
      NameMap.empty.merge first = first ∧
      (first.merge second).merge second = first.merge second ∧
      (first.merge second).keys.Nodup ∧
      first.keys <+: (first.merge second).keys ∧
      (∀ key,
        (first.merge second).get? key =
          (second.get? key).or (first.get? key)) ∧
      ∀ (draft once : Draft) (statement : NodeStatement),
        draft.applyStatement (.node statement) = .ok once →
        (¬ draft.environment.NamesEdges statement →
          once.applyStatement (.node statement) = .ok once) ∧
          ∃ added,
            once.graph.edges = draft.graph.edges ++ added ∧
              once.applyStatement (.node statement) =
                .ok { once with
                  graph := { once.graph with
                    edges := once.graph.edges ++ added } } := by
  refine ⟨merge_assoc first second third, merge_empty first,
    empty_merge first, merge_merge_self first second,
    (first.merge second).distinct, ?_, get?_merge first second, ?_⟩
  · rw [keys_merge]
    exact List.prefix_append _ _
  · intro draft once statement applied
    obtain ⟨added, contributed, areEdges, appliedAgain⟩ :=
      Draft.repeat_node applied
    refine ⟨fun noEdges => ?_, added.edges, areEdges, appliedAgain⟩
    rw [appliedAgain, Environment.edges_nodeContribution? noEdges contributed,
      List.append_nil]

/-- Keys that overlap, and a statement about two nodes of which one is repeated. -/
theorem Attributes.merging_is_ordered_idempotent_monoid_of_overlap :
    let base : Attributes := NameMap.ofList [("k", .word "x"), ("l", .word "x")]
    let upper : Attributes := NameMap.ofList [("m", .word "y"), ("k", .word "y")]
    let name (text : String) : Identifier := ⟨text, default⟩
    let marks : AttributeList :=
      ⟨[⟨name "k", .assign, .word "z", default⟩], default⟩
    let statement : NodeStatement :=
      ⟨.list [name "a", name "b", name "a"], some (.list marks), default⟩
    let draft : Draft := ⟨Environment.empty.enter "g", .empty "g" true⟩
    ∃ once,
      draft.applyStatement (.node statement) = .ok once ∧
        ¬ draft.environment.NamesEdges statement ∧
        once.applyStatement (.node statement) = .ok once ∧
        (base.merge upper).merge base = base.merge (upper.merge base) ∧
        (base.merge upper).keys = ["k", "l", "m"] ∧
        (base.merge upper).get? "k" = some (.word "y") := by
  intro base upper name marks statement draft
  obtain ⟨grouped, _, _, _, _, _, values, repeats⟩ :=
    merging_is_ordered_idempotent_monoid base upper base
  have noEdges : ¬ draft.environment.NamesEdges statement := by
    rintro ⟨_, _, ⟨⟩, _⟩
  exact ⟨_, rfl, noEdges, (repeats draft _ statement rfl).1 noEdges, grouped,
    rfl, values "k"⟩

/-- An empty graph in whose scope a variable holds an edge. -/
def Draft.besideEdge : Draft :=
  { environment :=
      (Environment.empty.enter "g").bind
        ⟨"e", .edge, .edgeList [.between "a" .forward "b" .empty], default⟩
    graph := .empty "g" true }

/-- The statement that adds the edges of this variable. -/
def NodeStatement.addingEdge : NodeStatement :=
  ⟨.reference ⟨"e", default⟩, none, default⟩

/-- A statement that adds edges is one that changes the graph each time. -/
theorem Draft.repeated_splice_changes_graph :
    ∃ once,
      Draft.besideEdge.applyStatement (.node .addingEdge) = .ok once ∧
        once.applyStatement (.node .addingEdge) ≠ .ok once := by
  refine ⟨_, rfl, ?_⟩
  intro unchanged
  have sameCount :=
    congrArg (·.toOption.map (·.graph.edges.length)) unchanged
  cases sameCount

end GraphScript
