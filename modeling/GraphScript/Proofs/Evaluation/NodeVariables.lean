import GraphScript.Proofs.Evaluation.ErrorPlaces
import GraphScript.Proofs.Evaluation.SingleAssignment
import GraphScript.Proofs.Model.DenotedNodes
import GraphScript.Proofs.Program.Hulls

namespace GraphScript

/-!
# What node variables store

Every list of nodes that is read from tokens names a node. So, wherever an
evaluation has come, a node variable stores a single node as a reference and
several nodes as a list, whichever scope declares it.
-/

namespace Program

/-- Every list of nodes that a variable is declared with names a node. -/
def NamesNodes
    (program : Program) :
    Prop :=
  ∀ scope ∈ program.scopes,
    ∀ declaration ∈ scope, declaration.source.NamesNodes

instance : DecidablePred NamesNodes :=
  fun _ => inferInstanceAs (Decidable (∀ _ ∈ _, ∀ _ ∈ _, _))

/-! ## Lists that are read -/

theorem contains_of_mem_scope
    {program : Program}
    {scope : List VariableDeclaration}
    {declaration : VariableDeclaration}
    (isScope : scope ∈ program.scopes)
    (member : declaration ∈ scope) :
    program.Contains (.binding declaration) := by
  rcases List.mem_cons.mp isScope with rfl | isBody
  · exact .of_binding member
  · obtain ⟨graph, isGraph, rfl⟩ := List.mem_map.mp isBody
    obtain ⟨statement, isStatement, isBinding⟩ :=
      List.mem_filterMap.mp member
    have contains := (Contains.of_graph isGraph).of_statement isStatement
    cases statement with
    | binding declared =>
        cases isBinding
        exact contains
    | node statement => cases isBinding
    | edge statement => cases isBinding

/-- A declaration that some tokens spell names a node where it lists nodes. -/
theorem namesNodes_of_spelling
    {declaration : VariableDeclaration}
    {kinds : List Token.Kind}
    (spelled : kinds ∈ declaration.spelling) :
    declaration.source.NamesNodes := by
  obtain ⟨_, _, _, spellsSource, _⟩ := spelled
  cases isSource : declaration.source with
  | nodes names =>
      rintro rfl
      rw [isSource] at spellsSource
      cases spellsSource
  | reference copied => trivial
  | edges statements => trivial
  | attributes list => trivial

theorem namesNodes_ofTokens
    (tokens : List Token) :
    (ofTokens tokens).program.NamesNodes := by
  intro scope isScope declaration member
  obtain ⟨items, isProgram, stands⟩ := exists_items_standIn tokens
  have contains := contains_of_mem_scope isScope member
  rw [isProgram] at contains
  obtain ⟨_, _, fits, _⟩ := stands.exists_read (among_of_contains contains)
  exact namesNodes_of_spelling fits.spelled

/-! ## Where an evaluation comes -/

/-- An evaluation comes to the body of a graph, with the program's variables. -/
inductive Enters
    (program : Program) :
    Environment →
    GraphDeclaration →
    Prop where
  | body
      {declared : Environment}
      {before after : List GraphDeclaration}
      {graph : GraphDeclaration}
      {built : ModelBuilder}
      (declares : Environment.empty.Declares program.bindings declared)
      (isGraph : program.graphs = before ++ graph :: after)
      (builds : ModelBuilder.empty.Builds declared before built)
      (isNew : built.declaredAt.get? graph.name.name = none) :
      Enters program declared graph

/--
An evaluation comes to an environment, behind some declarations of which the
nearest one comes first.

Between the graphs, and while commands are run, the environment is the one behind
all declarations of the program.
-/
inductive Reaches
    (program : Program) :
    Environment →
    List VariableDeclaration →
    Prop where
  | inProgram
      {done left : List VariableDeclaration}
      {reached : Environment}
      (split : program.bindings = done ++ left)
      (declares : Environment.empty.Declares done reached) :
      Reaches program reached done.reverse
  | inDefaults
      {declared : Environment}
      {graph : GraphDeclaration}
      {done left : List DefaultDeclaration}
      {draft : Draft}
      (enters : program.Enters declared graph)
      (split : graph.defaults = done ++ left)
      (applied :
        Draft.applyAll Draft.applyDefaults
            (ModelBuilder.opening declared graph) done =
          (.ok (), draft)) :
      Reaches program draft.environment program.bindings.reverse
  | inStatements
      {declared : Environment}
      {graph : GraphDeclaration}
      {done left : List Statement}
      {opened draft : Draft}
      (enters : program.Enters declared graph)
      (applied :
        Draft.applyAll Draft.applyDefaults
            (ModelBuilder.opening declared graph) graph.defaults =
          (.ok (), opened))
      (split : graph.statements = done ++ left)
      (applies : opened.Applies done draft) :
      Reaches program draft.environment
        ((done.filterMap Statement.binding?).reverse ++
          program.bindings.reverse)

end Program

/-! ## What declarations say in a run -/

theorem Environment.Declares.denotes
    {environment reached : Environment}
    {declared done : List VariableDeclaration}
    (declares : environment.Declares done reached)
    (namesNodes : ∀ declaration ∈ done, declaration.source.NamesNodes)
    (denotes : environment.Denotes declared) :
    reached.Denotes (done.reverse ++ declared) := by
  induction declares generalizing declared with
  | nil environment =>
      exact denotes
  | cons first _ inductionHypothesis =>
      obtain ⟨firstNames, laterName⟩ := List.forall_mem_cons.mp namesNodes
      rw [List.reverse_cons, List.append_assoc]
      exact inductionHypothesis laterName
        (denotes.declareVariable firstNames first)

namespace Draft

theorem environment_of_applyDefaults
    {draft last : Draft}
    {declarations : List DefaultDeclaration}
    (applied : applyAll applyDefaults draft declarations = (.ok (), last)) :
    last.environment = draft.environment := by
  have step
      (reached : Draft)
      (declaration : DefaultDeclaration)
      (next : Draft)
      (isNext : reached.applyDefaults declaration = .ok next)
      (same : reached.environment = draft.environment) :
      next.environment = draft.environment := by
    obtain ⟨_, _, isNext⟩ := bind_eq_ok.1 isNext
    cases isNext
    exact same
  have kept := applyAll_keeps step rfl declarations
  rwa [applied] at kept

/-- The declarations of a body are the nearest ones behind it. -/
theorem Applies.denotes
    {draft reached : Draft}
    {declared : List VariableDeclaration}
    {done : List Statement}
    (applies : draft.Applies done reached)
    (namesNodes :
      ∀ declaration ∈ done.filterMap Statement.binding?,
        declaration.source.NamesNodes)
    (denotes : draft.environment.Denotes declared) :
    reached.environment.Denotes
      ((done.filterMap Statement.binding?).reverse ++ declared) := by
  induction applies generalizing declared with
  | nil draft =>
      exact denotes
  | @cons draft middle final statement rest first _ inductionHypothesis =>
      cases statement with
      | binding declaration =>
          obtain ⟨environment, succeeded, isNext⟩ := bind_eq_ok.1 first
          cases isNext
          obtain ⟨firstNames, laterName⟩ := List.forall_mem_cons.mp namesNodes
          have later :=
            inductionHypothesis laterName
              (denotes.declareVariable firstNames succeeded)
          simpa [Statement.binding?] using later
      | node statement =>
          obtain ⟨graph, _, isNext⟩ := bind_eq_ok.1 first
          cases isNext
          exact inductionHypothesis namesNodes denotes
      | edge statement =>
          obtain ⟨edge, _, first⟩ := bind_eq_ok.1 first
          obtain ⟨graph, _, isNext⟩ := bind_eq_ok.1 first
          cases isNext
          exact inductionHypothesis namesNodes denotes

end Draft

namespace Program

variable
  {program : Program}
  {environment : Environment}
  {declared : List VariableDeclaration}

theorem NamesNodes.of_binding
    (namesNodes : program.NamesNodes)
    {declaration : VariableDeclaration}
    (member : declaration ∈ program.bindings) :
    declaration.source.NamesNodes :=
  namesNodes _ List.mem_cons_self declaration member

theorem NamesNodes.of_statements
    (namesNodes : program.NamesNodes)
    {graph : GraphDeclaration}
    (isGraph : graph ∈ program.graphs)
    {done left : List Statement}
    (split : graph.statements = done ++ left)
    {declaration : VariableDeclaration}
    (member : declaration ∈ done.filterMap Statement.binding?) :
    declaration.source.NamesNodes := by
  apply namesNodes graph.bindings
  · exact List.mem_cons_of_mem _ (List.mem_map_of_mem isGraph)
  · rw [GraphDeclaration.bindings, split, List.filterMap_append]
    exact List.mem_append_left _ member

/-- A body is entered behind all declarations of the program. -/
theorem Enters.denotes
    {graph : GraphDeclaration}
    (enters : program.Enters environment graph)
    (namesNodes : program.NamesNodes) :
    graph ∈ program.graphs ∧
      (ModelBuilder.opening environment graph).environment.Denotes
        program.bindings.reverse := by
  cases enters with
  | body declares isGraph builds isNew =>
      constructor
      · rw [isGraph]
        exact List.mem_append_right _ List.mem_cons_self
      · have denotes :=
          declares.denotes (fun _ => namesNodes.of_binding) .empty
        rw [List.append_nil] at denotes
        exact denotes.enter graph.name.name

/-- Wherever an evaluation comes, the names stand for what was declared. -/
theorem Reaches.denotes
    (reaches : program.Reaches environment declared)
    (namesNodes : program.NamesNodes) :
    environment.Denotes declared := by
  cases reaches with
  | @inProgram done left reached split declares =>
      have doneName :
          ∀ declaration ∈ done, declaration.source.NamesNodes := by
        intro declaration member
        apply namesNodes.of_binding
        rw [split]
        exact List.mem_append_left _ member
      have denotes := declares.denotes doneName .empty
      rwa [List.append_nil] at denotes
  | inDefaults enters split applied =>
      rw [Draft.environment_of_applyDefaults applied]
      exact (enters.denotes namesNodes).2
  | @inStatements entered graph done left opened draft enters applied split
      applies =>
      obtain ⟨isGraph, denotes⟩ := enters.denotes namesNodes
      rw [← Draft.environment_of_applyDefaults applied] at denotes
      exact applies.denotes
        (fun _ => namesNodes.of_statements isGraph split) denotes

end Program

/-! ## What is stored -/

namespace Environment

/--
Node variables store references and lists as their declarations say.

The nearest of the declarations comes first.
-/
structure StoresNodes
    (environment : Environment)
    (declared : List VariableDeclaration) :
    Prop where
  /-- In every scope a node variable stores one node, or a list of several. -/
  stored :
    ∀ bindings ∈ environment.tables,
      ∀ entry ∈ bindings.entries,
        entry.2.declaredType = .node →
        (∃ node, entry.2.value = .nodeReference node) ∨
          ∃ nodes, entry.2.value = .nodeList nodes ∧ 2 ≤ nodes.length
  /-- A declaration stores what it denotes, and a reference if that is one node. -/
  declarations :
    ∀ declaration next,
      declaration.declaredType = .node →
      declaration.source.NamesNodes →
      environment.declareVariable declaration = .ok next →
      ∃ value,
        next.innermost.get? declaration.name.name =
            some (declaration.boundTo value) ∧
          value.nodeNames? =
            some (declaration.source.nodesDenoted declared) ∧
          ((∃ node, value = .nodeReference node) ↔
            (declaration.source.nodesDenoted declared).length = 1)
  /-- An end of an edge is refused as a list if it is bound to several names. -/
  ends :
    ∀ name,
      environment.nodeOf name = .error (refusedList name) ↔
        environment.BindsSeveral name
  /-- A name is bound to several names if it denotes several. -/
  several :
    ∀ name : Identifier,
      environment.BindsSeveral name ↔
        2 ≤ (nodesDenoted declared name.name).length
  edges : ∀ statement, environment.RefusesLists declared statement

theorem Denotes.storesNodes
    {environment : Environment}
    {declared : List VariableDeclaration}
    (denotes : environment.Denotes declared) :
    environment.StoresNodes declared where
  stored bindings isScope entry member isNode := by
    obtain ⟨nodes, stores⟩ :=
      denotes.stores bindings isScope entry member isNode
    generalize entry.2.value = value at stores ⊢
    cases stores with
    | single node =>
        exact .inl ⟨node, rfl⟩
    | several atLeastTwo =>
        exact .inr ⟨nodes, rfl, atLeastTwo⟩
  declarations declaration next isNode namesNodes succeeded := by
    obtain ⟨isNew, value, isValue, _, rfl⟩ :=
      declareVariable_eq_ok.1 succeeded
    have stores := denotes.valueOf_stores namesNodes isNode isValue
    refine ⟨value, ?_, stores.nodeNames?, stores.isReference_iff⟩
    rw [innermost_bind, NameMap.get?_insert, if_pos rfl]
    rfl
  ends _ := denotes.nodeOf_refuses_iff
  several _ := denotes.bindsSeveral_iff
  edges := denotes.refusesLists

end Environment

/--
A node variable is a list exactly when it denotes several nodes.

Programs that are read from tokens list no nodes without naming one. Wherever the
evaluation of such a program comes, node variables store references and lists as
their declarations say, and the ends of edges are refused accordingly.
-/
theorem node_variables_list_several_nodes :
    (∀ tokens, (Program.ofTokens tokens).program.NamesNodes) ∧
      ∀ (program : Program) (environment : Environment)
          (declared : List VariableDeclaration),
        program.NamesNodes →
        program.Reaches environment declared →
        environment.StoresNodes declared := by
  constructor
  · exact Program.namesNodes_ofTokens
  · intro program environment declared namesNodes reaches
    exact (reaches.denotes namesNodes).storesNodes

/-- In a graph, a list is named that the program declares, and a node is copied. -/
theorem node_variables_list_several_nodes_of_copy :
    let name (text : String) : Identifier := ⟨text, default⟩
    let one : VariableDeclaration :=
      ⟨.node, name "one", .nodes [name "x"], default⟩
    let both : VariableDeclaration :=
      ⟨.node, name "both", .nodes [name "one", name "y"], default⟩
    let pair : VariableDeclaration :=
      ⟨.node, name "pair", .nodes [name "both"], default⟩
    let copy : VariableDeclaration :=
      ⟨.node, name "copy", .reference (name "one"), default⟩
    let edge : EdgeStatement :=
      ⟨name "copy", .forward, name "pair", none, default⟩
    let statements : List Statement := [.binding pair, .binding copy, .edge edge]
    let program : Program :=
      ⟨[one, both],
        [⟨.directed, name "g", statements.map .statement, default⟩], [],
        default⟩
    program.NamesNodes ∧
      ∃ environment,
        program.Reaches environment [copy, pair, both, one] ∧
          environment.StoresNodes [copy, pair, both, one] ∧
          nodesDenoted [copy, pair, both, one] "pair" = ["x", "y"] ∧
          environment.nodeOf (name "copy") = .ok "x" ∧
          environment.edgeOf edge =
            .error (Environment.refusedList (name "pair")) := by
  intro name one both pair copy edge statements program
  have namesNodes : program.NamesNodes := of_decide_eq_true rfl
  have enters :
      program.Enters _
        ⟨.directed, name "g", statements.map .statement, default⟩ :=
    .body (.cons rfl (.cons rfl (.nil _))) rfl (.nil _) rfl
  have reaches :=
    Program.Reaches.inStatements enters rfl rfl
      (.cons rfl (.cons rfl (.nil _)))
  have stores :=
    node_variables_list_several_nodes.2 program _ _ namesNodes reaches
  exact ⟨namesNodes, _, reaches, stores, rfl, rfl, rfl⟩

end GraphScript
