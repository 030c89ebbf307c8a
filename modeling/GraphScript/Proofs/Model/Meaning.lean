import GraphScript.Proofs.Model.Scopes
import GraphScript.Proofs.NameMap

namespace GraphScript

/-!
# What names stand for

A name stands for nodes, for edges or for attributes, or for nothing. What the
names stand for is a function, which a declaration changes at one name. Nodes,
attributes, edges and right-hand sides are given their meaning by it alone, with
no look at scopes or at the way in which they are evaluated, and without errors:
whatever is evaluated successfully has the meaning that is given here.
-/

/-- What a name stands for. A single node is a list of one. -/
inductive Referent where
  | nodes (names : List String)
  | edges (edges : List Edge)
  | attributes (attributes : Attributes)

/-- What each name stands for, if it stands for anything. -/
abbrev Meaning : Type :=
  String →
    Option Referent

/-- The edge of `left operator right`. An arrow to the left starts at the right. -/
def Edge.written
    (left : String)
    (operator : EdgeOperator)
    (right : String)
    (attributes : Attributes) :
    Edge :=
  { source := if operator = .backward then right else left
    target := if operator = .backward then left else right
    operator
    attributes }

/-- The attributes that a list writes, if it writes none of its keys twice. -/
def AttributeList.written?
    (list : AttributeList) :
    Option Attributes :=
  let entries :=
    list.attributes.map fun written => (written.key.name, written.value)
  if distinct : (entries.map Prod.fst).Nodup then
    some ⟨entries, distinct⟩
  else
    none

namespace Meaning

/-- What the names stand for behind one more declaration. -/
def declare
    (meaning : Meaning)
    (name : String)
    (denoted : Referent) :
    Meaning :=
  fun other => if other = name then some denoted else meaning other

/-- The nodes that a name in a list stands for. It may be that of a node itself. -/
def nodes
    (meaning : Meaning)
    (name : Identifier) :
    List String :=
  match meaning name.name with
  | some (.nodes names) => names
  | some (.edges _) => [name.name]
  | some (.attributes _) => [name.name]
  | none => [name.name]

/-- The node that a name at the end of an edge stands for, which has to be one. -/
def node?
    (meaning : Meaning)
    (name : Identifier) :
    Option String :=
  match meaning.nodes name with
  | [node] => some node
  | _ => none

/-- Attributes that are written out, or those that a name stands for. -/
def attributes?
    (meaning : Meaning) :
    AttributeSource →
    Option Attributes
  | .list list =>
      list.written?
  | .reference name =>
      match meaning name.name with
      | some (.attributes attributes) => some attributes
      | _ => none

/-- The attributes of a statement. There are none where nothing is written. -/
def optionalAttributes?
    (meaning : Meaning) :
    Option AttributeSource →
    Option Attributes
  | none => some .empty
  | some source => meaning.attributes? source

/-- The edge that a statement states. -/
def edge?
    (meaning : Meaning)
    (statement : EdgeStatement) :
    Option Edge := do
  let left ← meaning.node? statement.left
  let right ← meaning.node? statement.right
  let attributes ← meaning.optionalAttributes? statement.attributes
  return .written left statement.operator right attributes

/--
What a declared name stands for.

A copy stands for what the copied name does. A node variable may copy a name that
stands for nothing, which is then the name of a node itself.
-/
def referent?
    (meaning : Meaning)
    (declaration : VariableDeclaration) :
    Option Referent :=
  match declaration.source with
  | .nodes names =>
      some (.nodes (names.flatMap meaning.nodes))
  | .edges statements =>
      (statements.mapM meaning.edge?).map .edges
  | .attributes list =>
      list.written?.map .attributes
  | .reference copied =>
      (meaning copied.name).or
        (if declaration.declaredType = .node then
          some (.nodes [copied.name])
        else
          none)

end Meaning

/-! ## The meaning of an environment -/

/-- What a variable with the value stands for. -/
def Value.referent :
    Value →
    Referent
  | .nodeReference name => .nodes [name]
  | .nodeList names => .nodes names
  | .edgeList edges => .edges edges
  | .attributeList attributes => .attributes attributes

/-- What the names stand for in scopes, of which the innermost comes first. -/
def meaningIn :
    List (NameMap Variable) →
    Meaning
  | [], _ =>
      none
  | bindings :: outer, name =>
      match bindings.get? name with
      | some found => some found.value.referent
      | none => meaningIn outer name

/-- What the names stand for in the open scopes. -/
def Environment.meaning
    (environment : Environment) :
    Meaning :=
  meaningIn
    (environment.inner.map (·.bindings) ++ [environment.program])

/-- An edge between two nodes is the edge that is written with them. -/
theorem Edge.between_eq_written
    (left : String)
    (operator : EdgeOperator)
    (right : String)
    (attributes : Attributes) :
    between left operator right attributes =
      written left operator right attributes := by
  cases operator <;> rfl

namespace Attributes

/-- Attributes that are added one after another come behind those that are there. -/
theorem entries_addWritten
    {built attributes : Attributes}
    {listed : List Attribute}
    (added : addWritten built listed = .ok attributes) :
    attributes.entries =
      built.entries ++
        listed.map fun written => (written.key.name, written.value) := by
  induction listed generalizing built with
  | nil =>
      cases added
      exact (List.append_nil _).symm
  | cons written rest inductionHypothesis =>
      rw [addWritten] at added
      split at added
      · cases added
      · next isNew =>
        have missing : written.key.name ∉ built.keys := by
          rw [← NameMap.get?_eq_none_iff]
          simpa [NameMap.contains] using isNew
        rw [inductionHypothesis added,
          NameMap.entries_insert_of_new missing]
        simp

/-- A list of attributes is evaluated to what it writes. -/
theorem written?_of_ofList
    {list : AttributeList}
    {attributes : Attributes}
    (evaluated : ofList list = .ok attributes) :
    list.written? = some attributes := by
  have entries :
      attributes.entries =
        list.attributes.map fun written =>
          (written.key.name, written.value) :=
    entries_addWritten evaluated
  have distinct := attributes.distinct
  rw [entries] at distinct
  rw [AttributeList.written?, dif_pos distinct]
  exact congrArg some (NameMap.ext entries.symm)

end Attributes

namespace Environment

variable
  {environment next : Environment}
  {name : Identifier}
  {value : Value}

/-- A name stands for what the value of its variable does. -/
theorem meaning_eq
    (environment : Environment)
    (name : String) :
    environment.meaning name =
      (environment.value? name).map Value.referent := by
  have inScopes
      (scopes : List (NameMap Variable)) :
      meaningIn scopes name =
        (scopes.findSome? (·.get? name)).map (·.value.referent) := by
    induction scopes with
    | nil =>
        rfl
    | cons bindings outer inductionHypothesis =>
        rw [meaningIn, List.findSome?_cons, inductionHypothesis]
        cases bindings.get? name <;> rfl
  rw [value?, Option.map_map]
  exact inScopes environment.tables

/-- A variable that is bound changes the meaning of its name alone. -/
theorem meaning_bind
    (environment : Environment)
    (added : Variable) :
    (environment.bind added).meaning =
      environment.meaning.declare added.name added.value.referent := by
  funext name
  simp only [Meaning.declare, meaning_eq, value?, get?_bind]
  by_cases same : added.name = name
  · simp [same]
  · simp [same, Ne.symm same]

/-- The expansion of a name in a list is what the name stands for. -/
theorem nodesOf_eq_nodes
    (environment : Environment)
    (name : Identifier) :
    environment.nodesOf name = environment.meaning.nodes name := by
  unfold nodesOf Meaning.nodes
  rw [meaning_eq]
  cases environment.value? name.name with
  | none =>
      rfl
  | some value =>
      cases value <;> rfl

/-- A name that is a single node stands for it, and for no other one. -/
theorem node?_of_nodeOf
    {node : String}
    (resolved : environment.nodeOf name = .ok node) :
    environment.meaning.node? name = some node := by
  unfold nodeOf at resolved
  unfold Meaning.node? Meaning.nodes
  rw [meaning_eq]
  cases isValue : environment.value? name.name with
  | none =>
      rw [isValue] at resolved
      cases resolved
      rfl
  | some value =>
      rw [isValue] at resolved
      cases value with
      | nodeReference node =>
          cases resolved
          rfl
      | nodeList nodes =>
          cases resolved
      | edgeList edges =>
          cases resolved
          rfl
      | attributeList attributes =>
          cases resolved
          rfl

/-- What a name is looked up as is what it stands for. -/
theorem meaning_of_lookup
    {found : Variable}
    (isFound : environment.lookup name = .ok found) :
    environment.meaning name.name = some found.value.referent := by
  rw [meaning_eq, value?_of_lookup isFound]
  rfl

/-- Attributes are evaluated to those that are written or stood for. -/
theorem attributes?_of_attributesOf
    {source : AttributeSource}
    {attributes : Attributes}
    (evaluated : environment.attributesOf source = .ok attributes) :
    environment.meaning.attributes? source = some attributes := by
  cases source with
  | list list =>
      exact Attributes.written?_of_ofList evaluated
  | reference name =>
      obtain ⟨found, isFound, evaluated⟩ := bind_eq_ok.1 evaluated
      rw [Meaning.attributes?, meaning_of_lookup isFound]
      rcases found with ⟨_, _, value, _⟩
      cases value with
      | attributeList held =>
          cases evaluated
          rfl
      | nodeReference node =>
          cases evaluated
      | nodeList nodes =>
          cases evaluated
      | edgeList edges =>
          cases evaluated

/-- So are attributes that may be left out. -/
theorem optionalAttributes?_of_optionalAttributes
    {source? : Option AttributeSource}
    {attributes : Attributes}
    (evaluated : environment.optionalAttributes source? = .ok attributes) :
    environment.meaning.optionalAttributes? source? = some attributes := by
  cases source? with
  | none =>
      cases evaluated
      rfl
  | some source =>
      exact attributes?_of_attributesOf evaluated

/-- An edge statement is evaluated to the edge that it states. -/
theorem edge?_of_edgeOf
    {statement : EdgeStatement}
    {edge : Edge}
    (evaluated : environment.edgeOf statement = .ok edge) :
    environment.meaning.edge? statement = some edge := by
  obtain ⟨left, isLeft, evaluated⟩ := bind_eq_ok.1 evaluated
  obtain ⟨right, isRight, evaluated⟩ := bind_eq_ok.1 evaluated
  obtain ⟨attributes, areGiven, evaluated⟩ := bind_eq_ok.1 evaluated
  cases evaluated
  rw [Meaning.edge?, node?_of_nodeOf isLeft, node?_of_nodeOf isRight,
    optionalAttributes?_of_optionalAttributes areGiven,
    Edge.between_eq_written]
  rfl

/-! ## Declarations -/

/-- Node names are evaluated to a value that stands for their expansions. -/
theorem referent_nodeValue
    (environment : Environment)
    (names : List Identifier) :
    (environment.nodeValue names).referent =
      .nodes (names.flatMap environment.meaning.nodes) := by
  have expanded : environment.nodesOf = environment.meaning.nodes :=
    funext environment.nodesOf_eq_nodes
  rw [← expanded]
  unfold nodeValue
  split
  · next isOne =>
    rw [isOne]
    rfl
  · rfl

/-- A copied value stands for what the copied name does. -/
theorem meaning_of_copyOf
    {declaredType : VariableType}
    (copied : environment.copyOf name declaredType = .ok value) :
    environment.meaning name.name = some value.referent := by
  obtain ⟨found, isFound, copied⟩ := bind_eq_ok.1 copied
  split at copied
  · cases copied
    exact meaning_of_lookup isFound
  · cases copied

/-- A right-hand side is evaluated to a value that stands for what it means. -/
theorem referent?_of_valueOf
    {declaration : VariableDeclaration}
    (evaluated : environment.valueOf declaration = .ok value) :
    environment.meaning.referent? declaration = some value.referent := by
  unfold valueOf at evaluated
  split at evaluated
  · next copied isReference isNode =>
      simp only [Meaning.referent?, isReference, isNode]
      split at evaluated
      · next unbound =>
          cases evaluated
          rw [Option.isNone_iff_eq_none] at unbound
          rw [meaning_eq, value?, unbound]
          rfl
      · rw [meaning_of_copyOf evaluated]
        rfl
  · next copied isReference _ =>
      simp only [Meaning.referent?, isReference]
      rw [meaning_of_copyOf evaluated]
      rfl
  · next names areNodes _ =>
      cases evaluated
      simp only [Meaning.referent?, areNodes]
      rw [referent_nodeValue]
  · next statements areEdges _ =>
      obtain ⟨edges, resolved, rfl⟩ := map_eq_ok.1 evaluated
      simp only [Meaning.referent?, areEdges]
      rw [mapM_eq_some_of_ok (fun _ _ => edge?_of_edgeOf) resolved]
      rfl
  · next list areAttributes _ =>
      obtain ⟨attributes, written, rfl⟩ := map_eq_ok.1 evaluated
      simp only [Meaning.referent?, areAttributes]
      rw [Attributes.written?_of_ofList written]
      rfl
  · cases evaluated

/-- A declaration that succeeds gives its name the meaning of its right-hand side. -/
theorem meaning_declareVariable
    {declaration : VariableDeclaration}
    (declared : environment.declareVariable declaration = .ok next) :
    ∃ denoted,
      environment.meaning.referent? declaration = some denoted ∧
        next.meaning =
          environment.meaning.declare declaration.name.name denoted := by
  obtain ⟨_, value, isValue, _, rfl⟩ := declareVariable_eq_ok.1 declared
  exact ⟨value.referent, referent?_of_valueOf isValue, meaning_bind _ _⟩

end Environment

end GraphScript
