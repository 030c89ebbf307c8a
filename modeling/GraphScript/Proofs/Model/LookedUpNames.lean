import GraphScript.Proofs.Model.Isolation

namespace GraphScript

/-!
# The names that are looked up

Declarations and statements read the scopes only at the names that occur in
them, and only the types and the values of the variables that they find. In
environments that agree on these names a graph is therefore built alike.
-/

/-! ## Names -/

namespace AttributeSource

/-- The name that stands for attributes, if they are not written out. -/
def lookedUp :
    AttributeSource →
    List String
  | .list _ => []
  | .reference name => [name.name]

/-- The name that stands for the attributes of a statement, if there is one. -/
def optionallyLookedUp
    (source : Option AttributeSource) :
    List String :=
  source.toList.flatMap lookedUp

end AttributeSource

/-- The names that an edge statement looks up. -/
def EdgeStatement.lookedUp
    (statement : EdgeStatement) :
    List String :=
  [statement.left.name, statement.right.name] ++
    AttributeSource.optionallyLookedUp statement.attributes

/-- The names that a right-hand side looks up. -/
def VariableSource.lookedUp :
    VariableSource →
    List String
  | .reference name => [name.name]
  | .nodes names => names.map (·.name)
  | .edges statements => statements.flatMap EdgeStatement.lookedUp
  | .attributes _ => []

/-- The names that the target of a node statement looks up. -/
def NodeTarget.lookedUp :
    NodeTarget →
    List String
  | .list names => names.map (·.name)
  | .reference name => [name.name]

/-- The names that a statement looks up. -/
def Statement.lookedUp :
    Statement →
    List String
  | .binding declaration =>
      declaration.source.lookedUp
  | .node statement =>
      AttributeSource.optionallyLookedUp statement.attributes ++
        statement.target.lookedUp
  | .edge statement =>
      statement.lookedUp

/-- The names that the body of a graph looks up. -/
def GraphDeclaration.lookedUp
    (declaration : GraphDeclaration) :
    List String :=
  declaration.defaults.flatMap (·.source.lookedUp) ++
    declaration.statements.flatMap Statement.lookedUp

namespace Environment

/-! ## Agreement -/

/-- The declared type and the value of the variable that a name stands for. -/
def meaning?
    (environment : Environment)
    (name : String) :
    Option (VariableType × Value) :=
  (environment.get? name).map fun found => (found.declaredType, found.value)

/-- Whether names stand for variables of the same types and values, or for none. -/
def AgreesOn
    (environment other : Environment)
    (names : List String) :
    Prop :=
  ∀ name ∈ names, environment.meaning? name = other.meaning? name

/-- The value of a name is part of what the name stands for. -/
theorem value?_eq
    (environment : Environment)
    (name : String) :
    environment.value? name = (environment.meaning? name).map Prod.snd := by
  unfold value? meaning?
  rw [Option.map_map]
  rfl

/-- A bound variable is what its name stands for, and no other name is affected. -/
theorem meaning?_bind
    (environment : Environment)
    (added : Variable)
    (name : String) :
    (environment.bind added).meaning? name =
      if added.name = name then
        some (added.declaredType, added.value)
      else
        environment.meaning? name := by
  unfold meaning?
  rw [get?_bind]
  split <;> rfl

namespace AgreesOn

variable
  {environment other : Environment}
  {names fewer : List String}

/-- Environments that agree on some names agree on fewer. -/
theorem mono
    (agrees : environment.AgreesOn other names)
    (subset : fewer ⊆ names) :
    environment.AgreesOn other fewer :=
  fun name member => agrees name (subset member)

/-- Environments that agree on a name have one value for it. -/
theorem value?
    (agrees : environment.AgreesOn other names)
    {name : String}
    (member : name ∈ names) :
    environment.value? name = other.value? name := by
  rw [value?_eq, value?_eq, agrees name member]

/-- What a name stands for is alike, or the same error says that it is missing. -/
theorem lookup
    (agrees : environment.AgreesOn other names)
    {name : Identifier}
    (member : name.name ∈ names) :
    EndsAlike
      (fun found same =>
        found.declaredType = same.declaredType ∧ found.value = same.value)
      (environment.lookup name)
      (other.lookup name) := by
  have agree := agrees name.name member
  unfold meaning? at agree
  unfold Environment.lookup
  cases isFound : environment.get? name.name with
  | none =>
      rw [isFound, Option.map_none, eq_comm, Option.map_eq_none_iff] at agree
      rw [agree]
      exact .error _
  | some found =>
      rw [isFound, Option.map_some, eq_comm, Option.map_eq_some_iff] at agree
      obtain ⟨same, isSame, agree⟩ := agree
      obtain ⟨sameType, sameValue⟩ := Prod.mk.inj agree
      rw [isSame]
      exact .ok ⟨sameType.symm, sameValue.symm⟩

/-- Both environments with one more variable that is the same. -/
theorem bind
    (agrees : environment.AgreesOn other names)
    (added : Variable) :
    (environment.bind added).AgreesOn (other.bind added) names := by
  intro name member
  rw [meaning?_bind, meaning?_bind, agrees name member]

end AgreesOn

/-! ## Values -/

section Values

variable
  {environment other : Environment}

/-- Attributes depend only on the names they mention. -/
theorem attributesOf_of_agreesOn
    {source : AttributeSource}
    (agrees : environment.AgreesOn other source.lookedUp) :
    environment.attributesOf source = other.attributesOf source := by
  cases source with
  | list attributes =>
      rfl
  | reference name =>
      apply (agrees.lookup (List.mem_singleton.2 rfl)).bind_eq
      rintro _ _ ⟨_, sameValue⟩
      rw [sameValue]

/-- Attributes that may be left out depend only on the names they mention. -/
theorem optionalAttributes_of_agreesOn
    {source : Option AttributeSource}
    (agrees :
      environment.AgreesOn other
        (AttributeSource.optionallyLookedUp source)) :
    environment.optionalAttributes source =
      other.optionalAttributes source := by
  cases source with
  | none =>
      rfl
  | some written =>
      apply attributesOf_of_agreesOn
      simpa [AttributeSource.optionallyLookedUp] using agrees

/-- The node that a name stands for depends on that name only. -/
theorem nodeOf_of_agreesOn
    {name : Identifier}
    (agrees : environment.AgreesOn other [name.name]) :
    environment.nodeOf name = other.nodeOf name := by
  unfold nodeOf
  rw [agrees.value? (List.mem_singleton.2 rfl)]

/-- The nodes that names stand for depend on those names only. -/
theorem flatMap_nodesOf_of_agreesOn
    {names : List Identifier}
    (agrees : environment.AgreesOn other (names.map (·.name))) :
    names.flatMap environment.nodesOf = names.flatMap other.nodesOf := by
  unfold List.flatMap
  congr 1
  apply List.map_congr_left
  intro name member
  unfold nodesOf
  rw [agrees.value? (List.mem_map_of_mem member)]

/-- An edge depends only on the names it mentions. -/
theorem edgeOf_of_agreesOn
    {statement : EdgeStatement}
    (agrees : environment.AgreesOn other statement.lookedUp) :
    environment.edgeOf statement = other.edgeOf statement := by
  have left : environment.nodeOf statement.left = other.nodeOf statement.left :=
    nodeOf_of_agreesOn (agrees.mono (by simp [EdgeStatement.lookedUp]))
  have right :
      environment.nodeOf statement.right = other.nodeOf statement.right :=
    nodeOf_of_agreesOn (agrees.mono (by simp [EdgeStatement.lookedUp]))
  have attributes :
      environment.optionalAttributes statement.attributes =
        other.optionalAttributes statement.attributes :=
    optionalAttributes_of_agreesOn
      (agrees.mono (by simp [EdgeStatement.lookedUp]))
  unfold edgeOf
  rw [left, right, attributes]

/-- A list of edges depends only on the names it mentions. -/
theorem mapM_edgeOf_of_agreesOn
    {statements : List EdgeStatement}
    (agrees :
      environment.AgreesOn other
        (statements.flatMap EdgeStatement.lookedUp)) :
    statements.mapM environment.edgeOf = statements.mapM other.edgeOf := by
  apply mapM_congr
  intro statement member
  apply edgeOf_of_agreesOn
  exact agrees.mono fun name isName =>
    List.mem_flatMap.2 ⟨statement, member, isName⟩

/-- A copy depends only on the variable it copies. -/
theorem copyOf_of_agreesOn
    {name : Identifier}
    (agrees : environment.AgreesOn other [name.name])
    (declaredType : VariableType) :
    environment.copyOf name declaredType =
      other.copyOf name declaredType := by
  apply (agrees.lookup (List.mem_singleton.2 rfl)).bind_eq
  rintro _ _ ⟨sameType, sameValue⟩
  rw [sameType, sameValue]

/-- Environments that agree on a name agree on whether it is free. -/
theorem isNone_get?_of_agreesOn
    {names : List String}
    (agrees : environment.AgreesOn other names)
    {name : String}
    (member : name ∈ names) :
    (environment.get? name).isNone = (other.get? name).isNone := by
  have agree := congrArg Option.isNone (agrees name member)
  unfold meaning? at agree
  rw [Option.isNone_map, Option.isNone_map] at agree
  exact agree

/-- The value of a right-hand side depends only on the names that it looks up. -/
theorem valueOf_of_agreesOn
    {declaration : VariableDeclaration}
    (agrees : environment.AgreesOn other declaration.source.lookedUp) :
    environment.valueOf declaration = other.valueOf declaration := by
  rcases declaration with ⟨declaredType, name, source, span⟩
  cases source with
  | reference referred =>
      have copied := copyOf_of_agreesOn agrees
      have unbound :=
        isNone_get?_of_agreesOn agrees (List.mem_singleton.2 rfl)
      cases declaredType <;> simp only [valueOf, copied, unbound]
  | nodes names =>
      have denoted := flatMap_nodesOf_of_agreesOn agrees
      cases declaredType <;> simp only [valueOf, nodeValue, denoted]
  | edges statements =>
      have described := mapM_edgeOf_of_agreesOn agrees
      cases declaredType <;> simp only [valueOf, described]
  | attributes list =>
      cases declaredType <;> rfl

end Values

/-! ## Declaring -/

/--
Whether environments agree on names, and have the same variables in the
innermost scope.
-/
structure Alike
    (names : List String)
    (environment other : Environment) :
    Prop where
  innermost : environment.innermost = other.innermost
  agrees : environment.AgreesOn other names

/-- Both environments declare a variable, or both refuse it with one error. -/
theorem Alike.declareVariable
    {names : List String}
    {environment other : Environment}
    (alike : Alike names environment other)
    {declaration : VariableDeclaration}
    (subset : declaration.source.lookedUp ⊆ names) :
    EndsAlike (Alike names)
      (environment.declareVariable declaration)
      (other.declareVariable declaration) := by
  have unbound :
      environment.checkUnbound declaration.name =
        other.checkUnbound declaration.name := by
    unfold checkUnbound
    rw [alike.innermost]
  have value := valueOf_of_agreesOn (alike.agrees.mono subset)
  apply (EndsAlike.of_eq unbound).bind
  rintro _ _ -
  apply (EndsAlike.of_eq value).bind
  rintro found _ rfl
  apply (EndsAlike.of_eq unbound).bind
  rintro _ _ -
  by_cases sameType : found.type = declaration.declaredType
  · rw [if_pos sameType, if_pos sameType]
    refine .ok ⟨?_, alike.agrees.bind _⟩
    rw [innermost_bind, innermost_bind, alike.innermost]
  · rw [if_neg sameType, if_neg sameType]
    exact .error _

end Environment

/-! ## Bodies -/

namespace Draft

/-- Whether drafts are of the same graph, in scopes that agree on names. -/
structure Alike
    (names : List String)
    (draft other : Draft) :
    Prop where
  environment : Environment.Alike names draft.environment other.environment
  graph : draft.graph = other.graph

variable
  {names : List String}
  {draft other : Draft}

/-- A default declaration changes alike drafts alike. -/
theorem Alike.applyDefaults
    (alike : Alike names draft other)
    {declaration : DefaultDeclaration}
    (subset : declaration.source.lookedUp ⊆ names) :
    EndsAlike (Alike names)
      (draft.applyDefaults declaration)
      (other.applyDefaults declaration) := by
  have attributes :=
    Environment.attributesOf_of_agreesOn
      (alike.environment.agrees.mono subset)
  apply (EndsAlike.of_eq attributes).bind
  rintro found _ rfl
  refine .ok ⟨alike.environment, ?_⟩
  rw [alike.graph]

/-- A node statement changes alike drafts to the same graph. -/
theorem Alike.afterNode
    (alike : Alike names draft other)
    {statement : NodeStatement}
    (subset : (Statement.node statement).lookedUp ⊆ names) :
    draft.afterNode statement = other.afterNode statement := by
  have agrees := alike.environment.agrees.mono subset
  have attributes :
      draft.environment.optionalAttributes statement.attributes =
        other.environment.optionalAttributes statement.attributes :=
    Environment.optionalAttributes_of_agreesOn
      (agrees.mono (List.subset_append_left _ _))
  have target :
      draft.environment.AgreesOn other.environment
        statement.target.lookedUp :=
    agrees.mono (List.subset_append_right _ _)
  apply (EndsAlike.of_eq attributes).bind_eq
  rintro found _ rfl
  rw [alike.graph]
  rcases statement with ⟨listed | name, written, span⟩
  · simp only [Environment.flatMap_nodesOf_of_agreesOn target]
  · apply (target.lookup (List.mem_singleton.2 rfl)).bind_eq
    rintro _ _ ⟨_, sameValue⟩
    rw [sameValue]

/-- A statement changes alike drafts alike, or fails in both with one error. -/
theorem Alike.applyStatement
    (alike : Alike names draft other)
    {statement : Statement}
    (subset : statement.lookedUp ⊆ names) :
    EndsAlike (Alike names)
      (draft.applyStatement statement)
      (other.applyStatement statement) := by
  cases statement with
  | binding declaration =>
      have declared :=
        alike.environment.declareVariable subset
      exact declared.bind fun related => .ok ⟨related, alike.graph⟩
  | node statement =>
      have sameGraph := alike.afterNode subset
      exact (EndsAlike.of_eq sameGraph).bind fun same =>
        .ok ⟨alike.environment, same⟩
  | edge statement =>
      have sameEdge :=
        Environment.edgeOf_of_agreesOn (alike.environment.agrees.mono subset)
      apply (EndsAlike.of_eq sameEdge).bind
      rintro edge _ rfl
      have sameGraph :
          draft.graph.addEdge edge statement.span =
            other.graph.addEdge edge statement.span := by
        rw [alike.graph]
      exact (EndsAlike.of_eq sameGraph).bind fun same =>
        .ok ⟨alike.environment, same⟩

/-- Items that treat alike drafts alike end with the same graph or error. -/
theorem run_of_alike
    {Part : Type}
    {apply : Draft → Part → Except EvaluationError Draft}
    {items : List Part}
    (step :
      ∀ item ∈ items, ∀ {draft other : Draft},
        Alike names draft other →
        EndsAlike (Alike names) (apply draft item) (apply other item))
    (alike : Alike names draft other) :
    run apply draft items = run apply other items := by
  induction items generalizing draft other with
  | nil =>
      rw [run_nil, run_nil, alike.graph]
  | cons item rest inductionHypothesis =>
      rw [run_cons, run_cons]
      exact (step item List.mem_cons_self alike).bind_eq fun related =>
        inductionHypothesis
          (fun later member => step later (List.mem_cons_of_mem _ member))
          related

/-- The graph of a body depends only on the names that the body looks up. -/
theorem finished_of_alike
    {declaration : GraphDeclaration}
    (alike : Alike declaration.lookedUp draft other) :
    draft.finished declaration = other.finished declaration := by
  have defaults :
      run applyDefaults draft declaration.defaults =
        run applyDefaults other declaration.defaults := by
    refine run_of_alike (fun item member _ _ related => ?_) alike
    apply related.applyDefaults
    intro name isName
    exact List.mem_append_left _ (List.mem_flatMap.2 ⟨item, member, isName⟩)
  have statements :
      run applyStatement draft declaration.statements =
        run applyStatement other declaration.statements := by
    refine run_of_alike (fun item member _ _ related => ?_) alike
    apply related.applyStatement
    intro name isName
    exact List.mem_append_right _ (List.mem_flatMap.2 ⟨item, member, isName⟩)
  rw [finished_eq_settle, finished_eq_settle, statements]
  unfold defaultsOf
  rw [defaults]

end Draft

/-! ## Graphs -/

namespace ModelBuilder

variable
  {environment other : Environment}
  {declaration : GraphDeclaration}

/-- A graph opens alike under environments that agree on the names of its body. -/
theorem opening_alike
    (agrees : environment.AgreesOn other declaration.lookedUp) :
    Draft.Alike declaration.lookedUp
      (opening environment declaration)
      (opening other declaration) :=
  ⟨⟨rfl, agrees⟩, rfl⟩

/--
What a declaration does depends only on the names that its body looks up, and on
no other variable of the environment.
-/
theorem build_of_agreesOn
    (builder : ModelBuilder)
    (agrees : environment.AgreesOn other declaration.lookedUp) :
    builder.build other declaration =
      { builder.build environment declaration with environment := other } := by
  cases isTaken : builder.declaredAt.get? declaration.name.name with
  | some earlier =>
      rw [build_of_taken environment isTaken, build_of_taken other isTaken]
  | none =>
      have sameGraph := Draft.finished_of_alike (opening_alike agrees)
      have sameOutcome :=
        outcome_build_of_unused other isTaken
      have sameModel :=
        model_build_of_unused other isTaken
      have sameNames :=
        declaredAt_build_of_unused other isTaken
      rw [← sameGraph] at sameOutcome sameModel
      rw [← outcome_build_of_unused environment isTaken] at sameOutcome
      rw [← model_build_of_unused environment isTaken] at sameModel
      rw [← declaredAt_build_of_unused environment isTaken] at sameNames
      have kept := builder.environment_build other declaration
      generalize builder.build other declaration = result at *
      rcases result with ⟨_, ⟨_, _⟩, _⟩
      cases sameOutcome
      cases sameModel
      cases sameNames
      cases kept
      rfl

end ModelBuilder

end GraphScript
