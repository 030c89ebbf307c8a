import GraphScript.Proofs.Model.ScopeHistory

namespace GraphScript

/-!
# The nodes that names denote

Which nodes a name stands for can be read off the declarations alone: a list is
expanded where it is named, and a copy denotes what the copied name denoted above
it. A variable stores a list just in case it denotes several nodes, so that what
stands for no single node is exactly what was declared as several.
-/

/--
The nodes that a name denotes behind some declarations, of which the nearest one
comes first.

A name that stands for no variable of nodes is the name of a node itself.
-/
def nodesDenoted :
    List VariableDeclaration →
    String →
    List String
  | [], name =>
      [name]
  | declared :: earlier, name =>
      if declared.name.name = name then
        match declared.declaredType, declared.source with
        | .node, .nodes names =>
            names.flatMap fun each => nodesDenoted earlier each.name
        | .node, .reference copied =>
            nodesDenoted earlier copied.name
        | _, _ =>
            [name]
      else
        nodesDenoted earlier name

/-- The nodes that a right-hand side denotes behind some declarations. -/
def VariableSource.nodesDenoted
    (earlier : List VariableDeclaration) :
    VariableSource →
    List String
  | .nodes names =>
      names.flatMap fun each => GraphScript.nodesDenoted earlier each.name
  | .reference copied =>
      GraphScript.nodesDenoted earlier copied.name
  | .edges _ => []
  | .attributes _ => []

section NearestDeclaration

variable
  {declared : VariableDeclaration}
  {earlier : List VariableDeclaration}

theorem nodesDenoted_of_node
    (isNode : declared.declaredType = .node)
    (nonempty : declared.source.nodesDenoted earlier ≠ []) :
    nodesDenoted (declared :: earlier) declared.name.name =
      declared.source.nodesDenoted earlier := by
  rw [nodesDenoted, if_pos rfl]
  rcases declared with ⟨declaredType, name, source, span⟩
  cases isNode
  cases source with
  | nodes names => rfl
  | reference copied => rfl
  | edges statements => exact absurd rfl nonempty
  | attributes list => exact absurd rfl nonempty

theorem nodesDenoted_of_notNode
    (notNode : declared.declaredType ≠ .node) :
    nodesDenoted (declared :: earlier) declared.name.name =
      [declared.name.name] := by
  rw [nodesDenoted, if_pos rfl]
  rcases declared with ⟨declaredType, name, source, span⟩
  cases declaredType with
  | node => exact absurd rfl notNode
  | edge => rfl
  | attributes => rfl

theorem nodesDenoted_of_other
    {name : String}
    (other : declared.name.name ≠ name) :
    nodesDenoted (declared :: earlier) name = nodesDenoted earlier name := by
  rw [nodesDenoted, if_neg other]

end NearestDeclaration

/-- Whether a right-hand side that lists nodes names any. -/
def VariableSource.NamesNodes :
    VariableSource →
    Prop
  | .nodes names => names ≠ []
  | .reference _ => True
  | .edges _ => True
  | .attributes _ => True

instance : DecidablePred VariableSource.NamesNodes
  | .nodes names => inferInstanceAs (Decidable (names ≠ []))
  | .reference _ => .isTrue trivial
  | .edges _ => .isTrue trivial
  | .attributes _ => .isTrue trivial

/-- A value stores nodes: one as a reference, and several as a list. -/
inductive Value.Stores :
    Value →
    List String →
    Prop where
  | single
      (node : String) :
      Stores (.nodeReference node) [node]
  | several
      {nodes : List String}
      (atLeastTwo : 2 ≤ nodes.length) :
      Stores (.nodeList nodes) nodes

theorem Value.nodeNames?_of_type_ne
    {value : Value}
    (notNode : value.type ≠ .node) :
    value.nodeNames? = none := by
  cases value with
  | nodeReference node => exact absurd rfl notNode
  | nodeList nodes => exact absurd rfl notNode
  | edgeList edges => rfl
  | attributeList attributes => rfl

namespace Value.Stores

variable
  {value : Value}
  {nodes : List String}

theorem nodeNames?
    (stores : value.Stores nodes) :
    value.nodeNames? = some nodes := by
  cases stores
  all_goals rfl

theorem nonempty
    (stores : value.Stores nodes) :
    nodes ≠ [] := by
  rintro rfl
  cases stores with
  | several atLeastTwo =>
      exact absurd atLeastTwo (by decide)

/-- Only a single node is stored as a reference. -/
theorem isReference_iff
    (stores : value.Stores nodes) :
    (∃ node, value = .nodeReference node) ↔ nodes.length = 1 := by
  cases stores with
  | single node =>
      exact iff_of_true ⟨node, rfl⟩ rfl
  | several atLeastTwo =>
      refine iff_of_false nofun ?_
      omega

/-- Only several nodes are stored as a list. -/
theorem isList_iff
    (stores : value.Stores nodes) :
    (∃ listed, value = .nodeList listed) ↔ 2 ≤ nodes.length := by
  cases stores with
  | single node =>
      exact iff_of_false nofun (Nat.not_succ_le_self 1)
  | several atLeastTwo =>
      exact iff_of_true ⟨_, rfl⟩ atLeastTwo

end Value.Stores

namespace Environment

/--
Whether the node variables of an environment are what declarations say.

The nearest of the declarations comes first.
-/
structure Denotes
    (environment : Environment)
    (declared : List VariableDeclaration) :
    Prop where
  tidy : environment.Tidy
  stores :
    ∀ bindings ∈ environment.tables,
      ∀ entry ∈ bindings.entries,
        entry.2.declaredType = .node →
        ∃ nodes, entry.2.value.Stores nodes
  nodes :
    ∀ name : Identifier,
      environment.nodesOf name = nodesDenoted declared name.name

variable
  {environment next : Environment}
  {declared : List VariableDeclaration}
  {declaration : VariableDeclaration}
  {value : Value}

/-! ## What names stand for -/

/-- A name stands for the nodes of its variable, or else for itself. -/
theorem nodesOf_eq
    (environment : Environment)
    (name : Identifier) :
    environment.nodesOf name =
      ((environment.value? name.name).bind Value.nodeNames?).getD
        [name.name] := by
  unfold nodesOf
  cases environment.value? name.name with
  | none =>
      rfl
  | some value =>
      cases value
      all_goals rfl

theorem nodesOf_of_get?
    {name : Identifier}
    {found : Variable}
    {nodes : List String}
    (isFound : environment.get? name.name = some found)
    (stores : found.value.Stores nodes) :
    environment.nodesOf name = nodes := by
  rw [nodesOf_eq, value?, isFound]
  simp [stores.nodeNames?]

theorem nodesOf_of_unbound
    {name : Identifier}
    (unbound : environment.get? name.name = none) :
    environment.nodesOf name = [name.name] := by
  rw [nodesOf_eq, value?, unbound]
  rfl

/-- A declared variable is seen, and other names stand for what they did. -/
theorem nodesOf_bind
    (environment : Environment)
    (added : Variable)
    (name : Identifier) :
    (environment.bind added).nodesOf name =
      if added.name = name.name then
        added.value.nodeNames?.getD [name.name]
      else
        environment.nodesOf name := by
  simp only [nodesOf_eq, value?, get?_bind]
  split
  · rfl
  · rfl

/-- What a scope holds after a declaration is new or was held before. -/
theorem eq_or_mem_of_bind
    {added : Variable}
    {bindings : NameMap Variable}
    {entry : String × Variable}
    (isNew : environment.innermost.get? added.name = none)
    (isScope : bindings ∈ (environment.bind added).tables)
    (member : entry ∈ bindings.entries) :
    entry.2 = added ∨
      ∃ earlier ∈ environment.tables, entry ∈ earlier.entries := by
  have entries :=
    NameMap.entries_insert_of_new (NameMap.get?_eq_none_iff.1 isNew) added
  have ofInnermost
      (inserted :
        entry ∈ (environment.innermost.insert added.name added).entries) :
      entry.2 = added ∨ entry ∈ environment.innermost.entries := by
    rw [entries, List.mem_append, List.mem_singleton] at inserted
    rcases inserted with earlier | rfl
    · exact .inr earlier
    · exact .inl rfl
  rcases environment with ⟨program, inner⟩
  cases inner with
  | nil =>
      cases List.mem_singleton.1 isScope
      exact (ofInnermost member).imp_right fun earlier =>
        ⟨_, List.mem_singleton_self _, earlier⟩
  | cons scope outer =>
      rcases List.mem_cons.1 isScope with rfl | below
      · exact (ofInnermost member).imp_right fun earlier =>
          ⟨_, List.mem_cons_self, earlier⟩
      · exact .inr ⟨bindings, List.mem_cons_of_mem _ below, member⟩

/-! ## What declarations say -/

namespace Denotes

theorem empty :
    Environment.empty.Denotes [] where
  tidy := .empty
  stores bindings isScope entry member := by
    cases List.mem_singleton.1 isScope
    cases member
  nodes _ := rfl

/-- The scope of a graph starts without variables of its own. -/
theorem enter
    (denotes : environment.Denotes declared)
    (graph : String) :
    (environment.enter graph).Denotes declared where
  tidy := denotes.tidy.enter graph
  stores bindings isScope entry member := by
    rcases List.mem_cons.1 isScope with rfl | below
    · cases member
    · exact denotes.stores bindings below entry member
  nodes := denotes.nodes

/-- A variable of nodes stores them, in whichever scope it is found. -/
theorem stores_of_get?
    (denotes : environment.Denotes declared)
    {name : String}
    {found : Variable}
    (isFound : environment.get? name = some found)
    (isNode : found.declaredType = .node) :
    ∃ nodes, found.value.Stores nodes := by
  obtain ⟨bindings, isScope, held⟩ :=
    List.exists_of_findSome?_eq_some isFound
  exact denotes.stores bindings isScope _ (NameMap.mem_of_find? held) isNode

/-- The type of a variable tells whether it holds nodes. -/
theorem type_of_get?
    (denotes : environment.Denotes declared)
    {name : String}
    {found : Variable}
    (isFound : environment.get? name = some found) :
    found.value.type = found.declaredType := by
  obtain ⟨bindings, isScope, held⟩ :=
    List.exists_of_findSome?_eq_some isFound
  exact (denotes.tidy bindings isScope).types _ (NameMap.mem_of_find? held)

/-- A variable that is not declared to hold nodes stands for no node but itself. -/
theorem nodesOf_of_notNode
    (denotes : environment.Denotes declared)
    {name : Identifier}
    {found : Variable}
    (isFound : environment.get? name.name = some found)
    (notNode : found.declaredType ≠ .node) :
    environment.nodesOf name = [name.name] := by
  have holdsNone : found.value.nodeNames? = none := by
    apply Value.nodeNames?_of_type_ne
    rw [denotes.type_of_get? isFound]
    exact notNode
  rw [nodesOf_eq, value?, isFound]
  simp [holdsNone]

/-- Every name stands for some node. -/
theorem nodesOf_ne_nil
    (denotes : environment.Denotes declared)
    (name : Identifier) :
    environment.nodesOf name ≠ [] := by
  cases isFound : environment.get? name.name with
  | none =>
      rw [nodesOf_of_unbound isFound]
      exact List.cons_ne_nil _ _
  | some found =>
      by_cases isNode : found.declaredType = .node
      · obtain ⟨nodes, stores⟩ := denotes.stores_of_get? isFound isNode
        rw [nodesOf_of_get? isFound stores]
        exact stores.nonempty
      · rw [denotes.nodesOf_of_notNode isFound isNode]
        exact List.cons_ne_nil _ _

/-- Listed names are stored as a reference just in case they denote one node. -/
theorem nodeValue_stores
    (denotes : environment.Denotes declared)
    {names : List Identifier}
    (nonempty : names ≠ []) :
    (environment.nodeValue names).Stores
      (names.flatMap environment.nodesOf) := by
  rcases names with _ | ⟨first, _ | ⟨second, rest⟩⟩
  · exact absurd rfl nonempty
  · have someNode := denotes.nodesOf_ne_nil first
    rw [← List.flatMap_singleton environment.nodesOf first] at someNode
    unfold nodeValue
    generalize [first].flatMap environment.nodesOf = nodes at someNode ⊢
    rcases nodes with _ | ⟨node, _ | ⟨other, others⟩⟩
    · exact absurd rfl someNode
    · exact .single node
    · exact .several (Nat.le_add_left 2 _)
  · -- Two names denote two nodes at least, whatever each of them denotes.
    have someNode := List.length_pos_iff.mpr (denotes.nodesOf_ne_nil first)
    have otherNode := List.length_pos_iff.mpr (denotes.nodesOf_ne_nil second)
    apply Value.Stores.several
    simp only [List.flatMap_cons, List.length_append]
    omega

/-- The nodes that a right-hand side denotes are those that its names stand for. -/
theorem nodesDenoted_nodes
    (denotes : environment.Denotes declared)
    (names : List Identifier) :
    (VariableSource.nodes names).nodesDenoted declared =
      names.flatMap environment.nodesOf :=
  congrArg names.flatMap (funext fun name => (denotes.nodes name).symm)

theorem copyOf_stores
    (denotes : environment.Denotes declared)
    {name : Identifier}
    (copied : environment.copyOf name .node = .ok value) :
    value.Stores (environment.nodesOf name) := by
  obtain ⟨found, isFound, copied⟩ := bind_eq_ok.1 copied
  have held := get?_of_lookup isFound
  split at copied
  · next isNode =>
      cases copied
      obtain ⟨nodes, stores⟩ := denotes.stores_of_get? held isNode
      rw [nodesOf_of_get? held stores]
      exact stores
  · cases copied

/-- The value of a node declaration stores what its right-hand side denotes. -/
theorem valueOf_stores
    (denotes : environment.Denotes declared)
    (namesNodes : declaration.source.NamesNodes)
    (isNode : declaration.declaredType = .node)
    (isValue : environment.valueOf declaration = .ok value) :
    value.Stores (declaration.source.nodesDenoted declared) := by
  unfold Environment.valueOf at isValue
  split at isValue
  · next name isReference _ =>
      rw [isReference]
      show value.Stores (GraphScript.nodesDenoted declared name.name)
      rw [← denotes.nodes]
      split at isValue
      · next unbound =>
          cases isValue
          rw [nodesOf_of_unbound (Option.isNone_iff_eq_none.mp unbound)]
          exact .single name.name
      · exact denotes.copyOf_stores isValue
  · next name isReference _ =>
      rw [isNode] at isValue
      rw [isReference]
      show value.Stores (GraphScript.nodesDenoted declared name.name)
      rw [← denotes.nodes]
      exact denotes.copyOf_stores isValue
  · next names areNodes _ =>
      cases isValue
      rw [areNodes] at namesNodes ⊢
      rw [denotes.nodesDenoted_nodes]
      exact denotes.nodeValue_stores namesNodes
  · next isEdge =>
      rw [isNode] at isEdge
      cases isEdge
  · next isAttributes =>
      rw [isNode] at isAttributes
      cases isAttributes
  · cases isValue

/-- A declaration that succeeds is the nearest one from there on. -/
theorem declareVariable
    (denotes : environment.Denotes declared)
    (namesNodes : declaration.source.NamesNodes)
    (succeeded : environment.declareVariable declaration = .ok next) :
    next.Denotes (declaration :: declared) := by
  have tidy := denotes.tidy.declareVariable succeeded
  obtain ⟨isNew, value, isValue, sameType, rfl⟩ :=
    declareVariable_eq_ok.1 succeeded
  refine ⟨tidy, fun bindings isScope entry member isNode => ?_,
    fun name => ?_⟩
  · rcases eq_or_mem_of_bind isNew isScope member with
      isAdded | ⟨earlier, wasScope, isEarlier⟩
    · rw [isAdded] at isNode ⊢
      exact ⟨_, denotes.valueOf_stores namesNodes isNode isValue⟩
    · exact denotes.stores earlier wasScope entry isEarlier isNode
  · rw [nodesOf_bind]
    by_cases same : declaration.name.name = name.name
    · rw [if_pos same, ← same]
      by_cases isNode : declaration.declaredType = .node
      · have stores := denotes.valueOf_stores namesNodes isNode isValue
        rw [nodesDenoted_of_node isNode stores.nonempty]
        simp [stores.nodeNames?]
      · have holdsNone : value.nodeNames? = none :=
          Value.nodeNames?_of_type_ne (sameType ▸ isNode)
        rw [nodesDenoted_of_notNode isNode]
        simp [holdsNone]
    · rw [if_neg same, nodesDenoted_of_other same]
      exact denotes.nodes name

end Denotes

/-! ## Ends of edges -/

/-- An identifier is bound to several names. -/
def BindsSeveral
    (environment : Environment)
    (name : Identifier) :
    Prop :=
  ∃ found nodes,
    environment.get? name.name = some found ∧
      found.value.nodeNames? = some nodes ∧
      2 ≤ nodes.length

/-- The refusal of a name that stands for a list where a single node is needed. -/
def refusedList
    (name : Identifier) :
    EvaluationError :=
  .typeMismatch name.name .singleNode .nodeList name.span

/-- An edge is refused at its first end that is bound to several names. -/
structure RefusesLists
    (environment : Environment)
    (declared : List VariableDeclaration)
    (statement : EdgeStatement) :
    Prop where
  left :
    environment.BindsSeveral statement.left →
    environment.edgeOf statement = .error (refusedList statement.left)
  right :
    ¬ environment.BindsSeveral statement.left →
    environment.BindsSeveral statement.right →
    environment.edgeOf statement = .error (refusedList statement.right)
  neither :
    ¬ environment.BindsSeveral statement.left →
    ¬ environment.BindsSeveral statement.right →
    ∃ left right,
      nodesDenoted declared statement.left.name = [left] ∧
        nodesDenoted declared statement.right.name = [right] ∧
        environment.edgeOf statement =
          (environment.optionalAttributes statement.attributes).map
            (.between left statement.operator right)

namespace Denotes

/-- A name is bound to several names just in case it denotes several. -/
theorem bindsSeveral_iff
    (denotes : environment.Denotes declared)
    {name : Identifier} :
    environment.BindsSeveral name ↔
      2 ≤ (nodesDenoted declared name.name).length := by
  rw [← denotes.nodes]
  constructor
  · rintro ⟨found, nodes, isFound, areNodes, several⟩
    rw [nodesOf_eq, value?, isFound]
    simpa [areNodes] using several
  · intro several
    cases isFound : environment.get? name.name with
    | none =>
        rw [nodesOf_of_unbound isFound] at several
        exact absurd several (Nat.not_succ_le_self 1)
    | some found =>
        by_cases isNode : found.declaredType = .node
        · obtain ⟨nodes, stores⟩ := denotes.stores_of_get? isFound isNode
          rw [nodesOf_of_get? isFound stores] at several
          exact ⟨found, nodes, isFound, stores.nodeNames?, several⟩
        · rw [denotes.nodesOf_of_notNode isFound isNode] at several
          exact absurd several (Nat.not_succ_le_self 1)

/-- A name is one end of an edge, unless it is bound to several names. -/
theorem nodeOf_cases
    (denotes : environment.Denotes declared)
    (name : Identifier) :
    environment.BindsSeveral name ∧
        environment.nodeOf name = .error (refusedList name) ∨
      ∃ node,
        nodesDenoted declared name.name = [node] ∧
          environment.nodeOf name = .ok node := by
  rw [← denotes.nodes]
  unfold nodeOf nodesOf
  split
  · next node isReference =>
      exact .inr ⟨node, rfl, rfl⟩
  · next nodes isList =>
      obtain ⟨found, isFound, isValue⟩ := Option.map_eq_some_iff.mp isList
      have isNode : found.declaredType = .node := by
        rw [← denotes.type_of_get? isFound, isValue]
        rfl
      obtain ⟨names, stores⟩ := denotes.stores_of_get? isFound isNode
      have several := stores.isList_iff.mp ⟨nodes, isValue⟩
      exact .inl ⟨⟨found, names, isFound, stores.nodeNames?, several⟩, rfl⟩
  · next notReference notList =>
      exact .inr ⟨name.name, rfl, rfl⟩

/-- Exactly the names that are bound to several names are refused as ends. -/
theorem nodeOf_refuses_iff
    (denotes : environment.Denotes declared)
    {name : Identifier} :
    environment.nodeOf name = .error (refusedList name) ↔
      environment.BindsSeveral name := by
  rcases denotes.nodeOf_cases name with
    ⟨several, isRefused⟩ | ⟨node, isNode, isEnd⟩
  · exact iff_of_true isRefused several
  · rw [denotes.bindsSeveral_iff, isNode, isEnd]
    exact iff_of_false nofun (Nat.not_succ_le_self 1)

theorem refusesLists
    (denotes : environment.Denotes declared)
    (statement : EdgeStatement) :
    environment.RefusesLists declared statement := by
  have single
      {name : Identifier}
      (notSeveral : ¬ environment.BindsSeveral name) :
      ∃ node,
        nodesDenoted declared name.name = [node] ∧
          environment.nodeOf name = .ok node :=
    (denotes.nodeOf_cases name).resolve_left fun isSeveral =>
      notSeveral isSeveral.1
  refine ⟨fun leftSeveral => ?_, fun leftSingle rightSeveral => ?_,
    fun leftSingle rightSingle => ?_⟩
  · rw [edgeOf, denotes.nodeOf_refuses_iff.mpr leftSeveral]
    rfl
  · obtain ⟨left, -, isLeft⟩ := single leftSingle
    rw [edgeOf, isLeft, denotes.nodeOf_refuses_iff.mpr rightSeveral]
    rfl
  · obtain ⟨left, denotesLeft, isLeft⟩ := single leftSingle
    obtain ⟨right, denotesRight, isRight⟩ := single rightSingle
    refine ⟨left, right, denotesLeft, denotesRight, ?_⟩
    rw [edgeOf, isLeft, isRight]
    cases environment.optionalAttributes statement.attributes
    all_goals rfl

end Denotes

end Environment

end GraphScript
