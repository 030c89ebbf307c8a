import GraphScript.Proofs.Program.Spelling

namespace GraphScript

/-!
# Well-formed programs

A program is well formed where the grammar has a spelling for it: the lists
that need a member have one, the words that are given as literals are reserved,
and the items of each body are in order. No spelling contains the end of the
text, and no item contains what ends an item.
-/

/-- Whether no item goes on at a token, because an item or a body ends there. -/
def Token.Kind.endsItem
    (kind : Token.Kind) :
    Bool :=
  kind.isMark .semicolon || kind.isMark .rightBrace || kind.isEndOfFile

namespace Spellings

/-! ## Whether there is a spelling -/

/-- Whether there is anything to write. -/
def Writable
    (spelled : Spellings) :
    Prop :=
  ∃ kinds, kinds ∈ spelled

/-- What has no spelling cannot be written. -/
@[simp] theorem writable_zero :
    ¬ Writable 0 := by
  rintro ⟨_, ⟨⟩⟩

/-- Nothing at all can be written. -/
@[simp] theorem writable_one :
    Writable 1 :=
  ⟨[], rfl⟩

/-- A single token can be written. -/
@[simp] theorem writable_alone
    (kind : Token.Kind) :
    Writable kind.alone :=
  ⟨[kind], rfl⟩

@[simp] theorem writable_mark
    (sign : Mark) :
    Writable sign.spelling :=
  writable_alone _

@[simp] theorem writable_keyword
    (word : Keyword) :
    Writable word.spelling :=
  writable_alone _

/-- Two things are written one after the other if each of them can be. -/
@[simp] theorem writable_mul
    {first second : Spellings} :
    Writable (first * second) ↔ Writable first ∧ Writable second := by
  constructor
  · rintro ⟨_, kinds, spells, more, spellsMore, rfl⟩
    exact ⟨⟨kinds, spells⟩, more, spellsMore⟩
  · rintro ⟨⟨kinds, spells⟩, more, spellsMore⟩
    exact ⟨kinds ++ more, Language.append_mem_mul spells spellsMore⟩

/-- One of two things is written if either of them can be. -/
@[simp] theorem writable_add
    {first second : Spellings} :
    Writable (first + second) ↔ Writable first ∨ Writable second := by
  constructor
  · rintro ⟨kinds, spells | spells⟩
    · exact .inl ⟨kinds, spells⟩
    · exact .inr ⟨kinds, spells⟩
  · rintro (⟨kinds, spells⟩ | ⟨kinds, spells⟩)
    · exact ⟨kinds, .inl spells⟩
    · exact ⟨kinds, .inr spells⟩

/-- Several things are written in a row if each of them can be. -/
@[simp] theorem writable_prod
    {members : List Spellings} :
    Writable members.prod ↔ ∀ member ∈ members, Writable member := by
  induction members with
  | nil =>
      simp
  | cons member members inductionHypothesis =>
      simp [inductionHypothesis]

/-- A reserved word is written if there is such a keyword. -/
@[simp] theorem writable_reserved
    {text : String} :
    Writable (reserved text) ↔ ∃ word : Keyword, word.text = text := by
  constructor
  · rintro ⟨_, word, isText, _⟩
    exact ⟨word, isText⟩
  · rintro ⟨word, isText⟩
    exact ⟨_, word, isText, rfl⟩

/-- Every name can be written, as an identifier at least. -/
@[simp] theorem writable_anyName
    (text : String) :
    Writable (anyName text) :=
  ⟨_, .inl rfl⟩

/-- Further members behind a mark are written if each member can be. -/
@[simp] theorem writable_further
    {sign : Mark}
    {members : List Spellings} :
    Writable (further sign members) ↔ ∀ member ∈ members, Writable member := by
  simp [further]

/-- Members with semicolons behind them are written if each member can be. -/
@[simp] theorem writable_terminated
    {members : List Spellings} :
    Writable (terminated members) ↔ ∀ member ∈ members, Writable member := by
  simp [terminated]

/-- A list between marks is written if it has members that all can be. -/
@[simp] theorem writable_separated
    {sign : Mark}
    {members : List Spellings} :
    Writable (separated sign members) ↔
      members ≠ [] ∧ ∀ member ∈ members, Writable member := by
  cases members with
  | nil =>
      simp [separated]
  | cons first others =>
      simp [separated]

/-- What is only written under a condition is writable under it. -/
theorem writable_where
    {condition : Prop}
    {spelled : Spellings} :
    Writable {kinds | condition ∧ kinds ∈ spelled} ↔
      condition ∧ Writable spelled :=
  exists_and_left

/-! ## Spellings without certain tokens -/

/-- Whether no token that `stop` accepts occurs in any of the token lists. -/
def Avoids
    (stop : Token.Kind → Bool)
    (spelled : Spellings) :
    Prop :=
  ∀ kinds ∈ spelled, ∀ kind ∈ kinds, stop kind = false

namespace Avoids

variable {stop : Token.Kind → Bool} {first second : Spellings}

theorem zero :
    Avoids stop 0 := by
  rintro _ ⟨⟩

theorem one :
    Avoids stop 1 := by
  rintro _ rfl _ ⟨⟩

/-- A single token avoids what it is not. -/
theorem alone
    {kind : Token.Kind}
    (inside : stop kind = false) :
    Avoids stop kind.alone := by
  rintro _ rfl
  simpa using inside

theorem mark
    {sign : Mark}
    (inside : stop (.mark sign) = false) :
    Avoids stop sign.spelling :=
  alone inside

theorem keyword
    {word : Keyword}
    (inside : stop (.keyword word) = false) :
    Avoids stop word.spelling :=
  alone inside

/-- What two things avoid is avoided where they are written one after the other. -/
theorem mul
    (avoidsFirst : Avoids stop first)
    (avoidsSecond : Avoids stop second) :
    Avoids stop (first * second) := by
  rintro _ ⟨kinds, spells, more, spellsMore, rfl⟩ kind member
  rcases List.mem_append.1 member with member | member
  · exact avoidsFirst kinds spells kind member
  · exact avoidsSecond more spellsMore kind member

/-- What two things avoid is avoided by either. -/
theorem add
    (avoidsFirst : Avoids stop first)
    (avoidsSecond : Avoids stop second) :
    Avoids stop (first + second) := by
  rintro kinds (spells | spells)
  · exact avoidsFirst kinds spells
  · exact avoidsSecond kinds spells

/-- What several things avoid is avoided where they are written in a row. -/
theorem prod
    {members : List Spellings}
    (avoids : ∀ member ∈ members, Avoids stop member) :
    Avoids stop members.prod := by
  induction members with
  | nil =>
      exact one
  | cons member members inductionHypothesis =>
      rw [List.prod_cons]
      exact mul (avoids member (by simp))
        (inductionHypothesis fun other isMember =>
          avoids other (List.mem_cons_of_mem _ isMember))

/-- A reserved word avoids what no keyword is. -/
theorem reserved
    {text : String}
    (inside : ∀ word, stop (.keyword word) = false) :
    Avoids stop (Spellings.reserved text) := by
  rintro _ ⟨word, _, rfl⟩
  exact keyword (inside word) _ rfl

/-- A name avoids what neither its identifier nor a keyword is. -/
theorem anyName
    {text : String}
    (inside : stop (.identifier text) = false)
    (insideWords : ∀ word, stop (.keyword word) = false) :
    Avoids stop (Spellings.anyName text) :=
  add (alone inside) (reserved insideWords)

section Lists

variable {α : Type} {spelled : α → Spellings}

/-- Further members avoid what neither the mark nor a member contains. -/
theorem further
    {sign : Mark}
    (inside : stop (.mark sign) = false)
    (avoids : ∀ tree, Avoids stop (spelled tree))
    (trees : List α) :
    Avoids stop (Spellings.further sign (trees.map spelled)) := by
  refine prod fun member isMember => ?_
  simp only [List.map_map, List.mem_map] at isMember
  obtain ⟨tree, _, rfl⟩ := isMember
  exact mul (mark inside) (avoids tree)

/-- A list avoids what neither the mark between its members nor a member contains. -/
theorem separated
    {sign : Mark}
    (inside : stop (.mark sign) = false)
    (avoids : ∀ tree, Avoids stop (spelled tree))
    (trees : List α) :
    Avoids stop (Spellings.separated sign (trees.map spelled)) := by
  cases trees with
  | nil =>
      exact zero
  | cons first others =>
      exact mul (avoids first) (further inside avoids others)

/-- Members with semicolons avoid what neither a semicolon nor a member contains. -/
theorem terminated
    (inside : stop (.mark .semicolon) = false)
    (avoids : ∀ tree, Avoids stop (spelled tree))
    (trees : List α) :
    Avoids stop (Spellings.terminated (trees.map spelled)) := by
  refine prod fun member isMember => ?_
  simp only [List.map_map, List.mem_map] at isMember
  obtain ⟨tree, _, rfl⟩ := isMember
  exact mul (avoids tree) (mark inside)

end Lists

end Avoids

/-- Whether the text never ends in the middle. -/
abbrev Unfinished
    (spelled : Spellings) :
    Prop :=
  Avoids Token.Kind.isEndOfFile spelled

/-- Whether no item, no body and no text ends in the middle. -/
abbrev Unbroken
    (spelled : Spellings) :
    Prop :=
  Avoids Token.Kind.endsItem spelled

/-- Where no item ends in the middle, the text does not end there either. -/
theorem Unbroken.unfinished
    {spelled : Spellings}
    (unbroken : Unbroken spelled) :
    Unfinished spelled := by
  intro kinds spells kind member
  exact (Bool.or_eq_false_iff.1 (unbroken kinds spells kind member)).2

end Spellings

open Spellings

/-! ## Well-formed trees -/

/-- A list of attributes is not empty. -/
def AttributeList.WellFormed
    (list : AttributeList) :
    Prop :=
  list.attributes ≠ []

/-- A list of attributes that is written out is not empty. -/
def AttributeSource.WellFormed :
    AttributeSource →
    Prop
  | .list attributes => attributes.WellFormed
  | .reference _ => True

/-- The attributes of an edge are well formed, if it has any. -/
def EdgeStatement.WellFormed
    (statement : EdgeStatement) :
    Prop :=
  ∀ source ∈ statement.attributes, source.WellFormed

/-- A variable gets at least one node, edge or attribute. -/
def VariableSource.WellFormed :
    VariableSource →
    Prop
  | .reference _ => True
  | .nodes names => names ≠ []
  | .edges statements =>
      statements ≠ [] ∧ ∀ statement ∈ statements, statement.WellFormed
  | .attributes list => list.WellFormed

/-- A node statement names at least one node. -/
def NodeTarget.WellFormed :
    NodeTarget →
    Prop
  | .list names => names ≠ []
  | .reference _ => True

/-- The lists of a statement have the members that they need. -/
def Statement.WellFormed :
    Statement →
    Prop
  | .binding declared => declared.source.WellFormed
  | .node written =>
      written.target.WellFormed ∧
        ∀ source ∈ written.attributes, source.WellFormed
  | .edge written => written.WellFormed

/-- The lists of an item have the members that they need. -/
def BodyItem.WellFormed :
    BodyItem →
    Prop
  | .defaults declared => declared.source.WellFormed
  | .statement written => written.WellFormed

/-- The items of a graph are in order and well formed. -/
def GraphDeclaration.WellFormed
    (declaration : GraphDeclaration) :
    Prop :=
  BodyItem.InOrder declaration.items ∧
    ∀ item ∈ declaration.items, item.WellFormed

/-- A path has a name. A word that is given as a literal is reserved. -/
def ArgumentSource.WellFormed :
    ArgumentSource →
    Prop
  | .path followed => followed.segments ≠ []
  | .literal (.word name) => ∃ word : Keyword, word.text = name
  | .literal _ => True

/-- The arguments of a command are well formed. -/
def Command.WellFormed
    (command : Command) :
    Prop :=
  ∀ argument ∈ command.arguments, argument.source.WellFormed

/-- All parts of a program are well formed. -/
structure Program.WellFormed
    (program : Program) :
    Prop where
  bindings : ∀ declared ∈ program.bindings, declared.source.WellFormed
  graphs : ∀ declared ∈ program.graphs, declared.WellFormed
  commands : ∀ given ∈ program.commands, given.WellFormed

/-! ## Well-formed trees have spellings -/

/-- Every identifier can be written. -/
@[simp] theorem Identifier.writable_spelling
    (name : Identifier) :
    Writable name.spelling :=
  writable_alone _

/-- Every reference can be written. -/
@[simp] theorem Identifier.writable_referenceSpelling
    (name : Identifier) :
    Writable name.referenceSpelling := by
  simp [referenceSpelling]

/-- Both separators can be written. -/
@[simp] theorem Separator.writable_spelling
    (sign : Separator) :
    Writable sign.spelling := by
  cases sign <;> simp [spelling]

/-- Every pair of a key and a value can be written. -/
@[simp] theorem Attribute.writable_spelling
    (pair : Attribute) :
    Writable pair.spelling := by
  rcases pair with ⟨key, sign, value, span⟩
  cases value <;> simp [spelling, Scalar.spelling]

/-- The attribute lists that can be written are those that are not empty. -/
@[simp] theorem AttributeList.writable_spelling
    {list : AttributeList} :
    Writable list.spelling ↔ list.WellFormed := by
  simp [spelling, WellFormed]

/-- Attributes can be written if a list that is written out is not empty. -/
@[simp] theorem AttributeSource.writable_spelling
    {source : AttributeSource} :
    Writable source.spelling ↔ source.WellFormed := by
  cases source <;> simp [spelling, WellFormed]

/-- Attributes that may be missing can be written if those that are given can. -/
@[simp] theorem AttributeSource.writable_optionalSpelling
    {source : Option AttributeSource} :
    Writable (optionalSpelling source) ↔
      ∀ given ∈ source, given.WellFormed := by
  cases source <;> simp [optionalSpelling]

/-- An edge can be written if its attributes can. -/
@[simp] theorem EdgeStatement.writable_spelling
    {statement : EdgeStatement} :
    Writable statement.spelling ↔ statement.WellFormed := by
  simp [spelling, WellFormed]

/-- A right-hand side can be written if it lists something. -/
@[simp] theorem VariableSource.writable_spelling
    {source : VariableSource} :
    Writable source.spelling ↔ source.WellFormed := by
  cases source <;> simp [spelling, WellFormed]

/-- A variable declaration can be written if its right-hand side can. -/
@[simp] theorem VariableDeclaration.writable_spelling
    {declaration : VariableDeclaration} :
    Writable declaration.spelling ↔ declaration.source.WellFormed := by
  rcases declaration with ⟨declaredType, name, source, span⟩
  cases declaredType <;> simp [spelling, VariableType.spelling]

/-- A default declaration can be written if its attributes can. -/
@[simp] theorem DefaultDeclaration.writable_spelling
    {declaration : DefaultDeclaration} :
    Writable declaration.spelling ↔ declaration.source.WellFormed := by
  rcases declaration with ⟨target, source, span⟩
  cases target <;> simp [spelling, DefaultTarget.spelling]

/-- A target can be written if it names a node. -/
@[simp] theorem NodeTarget.writable_spelling
    {target : NodeTarget} :
    Writable target.spelling ↔ target.WellFormed := by
  cases target <;> simp [spelling, WellFormed]

/-- The items that can be written are the well-formed ones. -/
@[simp] theorem BodyItem.writable_spelling
    {item : BodyItem} :
    Writable item.spelling ↔ item.WellFormed := by
  cases item with
  | defaults declared =>
      simp [spelling, WellFormed]
  | statement written =>
      cases written <;>
        simp [spelling, WellFormed, Statement.spelling, Statement.WellFormed,
          NodeStatement.spelling]

/-- The graphs that can be written are the well-formed ones. -/
@[simp] theorem GraphDeclaration.writable_spelling
    {declaration : GraphDeclaration} :
    Writable declaration.spelling ↔ declaration.WellFormed := by
  rcases declaration with ⟨direction, name, items, span⟩
  rw [spelling, writable_where]
  cases direction <;> simp [Direction.spelling, WellFormed]

/-- The values of arguments that can be written are the well-formed ones. -/
@[simp] theorem ArgumentSource.writable_spelling
    {source : ArgumentSource} :
    Writable source.spelling ↔ source.WellFormed := by
  cases source with
  | path followed =>
      rcases followed with ⟨segments, span⟩
      cases segments <;> simp [spelling, Path.spelling, WellFormed]
  | literal value =>
      cases value <;> simp [spelling, WellFormed]

/-- Arguments can be written if the value of each of them can. -/
@[simp] theorem Argument.writable_listSpelling
    {arguments : List Argument} :
    Writable (listSpelling arguments) ↔
      ∀ argument ∈ arguments, argument.source.WellFormed := by
  cases arguments <;> simp [listSpelling, spelling]

/-- The commands that can be written are the well-formed ones. -/
@[simp] theorem Command.writable_spelling
    {command : Command} :
    Writable command.spelling ↔ command.WellFormed := by
  simp [spelling, WellFormed]

/-- The well-formed programs are the ones that can be written. -/
theorem Program.writable_spelling
    {program : Program} :
    Writable program.spelling ↔ program.WellFormed := by
  have parts :
      Writable program.spelling ↔
        ((∀ declared ∈ program.bindings, declared.source.WellFormed) ∧
          ∀ declared ∈ program.graphs, declared.WellFormed) ∧
          ∀ given ∈ program.commands, given.WellFormed := by
    simp [spelling]
  rw [parts]
  constructor
  · rintro ⟨⟨bindings, graphs⟩, commands⟩
    exact ⟨bindings, graphs, commands⟩
  · rintro ⟨bindings, graphs, commands⟩
    exact ⟨⟨bindings, graphs⟩, commands⟩

/-! ## Items without their ends, programs without the end of the text -/

theorem Identifier.unbroken_spelling
    (name : Identifier) :
    Unbroken name.spelling :=
  .alone rfl

theorem Identifier.unbroken_referenceSpelling
    (name : Identifier) :
    Unbroken name.referenceSpelling :=
  .mul (.mark rfl) name.unbroken_spelling

theorem Separator.unbroken_spelling
    (sign : Separator) :
    Unbroken sign.spelling := by
  cases sign with
  | assign =>
      exact .mark rfl
  | typed =>
      exact .mark rfl

theorem Attribute.unbroken_spelling
    (pair : Attribute) :
    Unbroken pair.spelling := by
  rcases pair with ⟨key, sign, value, span⟩
  refine .mul (.mul (.anyName rfl fun _ => rfl) sign.unbroken_spelling) ?_
  cases value with
  | word name =>
      exact .anyName rfl fun _ => rfl
  | number value =>
      exact .alone rfl
  | string contents =>
      exact .alone rfl

/-- An attribute list contains no semicolon, no closing brace and no end. -/
theorem AttributeList.unbroken_spelling
    (list : AttributeList) :
    Unbroken list.spelling :=
  .mul
    (.mul
      (.mul (.mark rfl)
        (.separated rfl Attribute.unbroken_spelling list.attributes))
      (.add .one (.mark rfl)))
    (.mark rfl)

theorem AttributeSource.unbroken_spelling
    (source : AttributeSource) :
    Unbroken source.spelling := by
  cases source with
  | list attributes =>
      exact attributes.unbroken_spelling
  | reference variableName =>
      exact variableName.unbroken_referenceSpelling

theorem AttributeSource.unbroken_optionalSpelling
    (source : Option AttributeSource) :
    Unbroken (optionalSpelling source) := by
  cases source with
  | none =>
      exact .one
  | some given =>
      exact given.unbroken_spelling

/-- An edge contains no semicolon, no closing brace and no end. -/
theorem EdgeStatement.unbroken_spelling
    (statement : EdgeStatement) :
    Unbroken statement.spelling :=
  .mul
    (.mul
      (.mul statement.left.unbroken_spelling (.alone rfl))
      statement.right.unbroken_spelling)
    (AttributeSource.unbroken_optionalSpelling statement.attributes)

theorem VariableSource.unbroken_spelling
    (source : VariableSource) :
    Unbroken source.spelling := by
  cases source with
  | reference variableName =>
      exact variableName.unbroken_referenceSpelling
  | nodes names =>
      exact .separated rfl Identifier.unbroken_spelling names
  | edges statements =>
      exact .separated rfl EdgeStatement.unbroken_spelling statements
  | attributes list =>
      exact list.unbroken_spelling

/-- A variable declaration contains no semicolon, no closing brace and no end. -/
theorem VariableDeclaration.unbroken_spelling
    (declaration : VariableDeclaration) :
    Unbroken declaration.spelling := by
  rcases declaration with ⟨declaredType, name, source, span⟩
  have type : Unbroken declaredType.spelling := by
    cases declaredType with
    | node =>
        exact .keyword rfl
    | edge =>
        exact .keyword rfl
    | attributes =>
        exact .keyword rfl
  exact .mul
    (.mul (.mul (.mul (.keyword rfl) type) name.unbroken_spelling)
      (.mark rfl))
    source.unbroken_spelling

theorem DefaultDeclaration.unbroken_spelling
    (declaration : DefaultDeclaration) :
    Unbroken declaration.spelling := by
  rcases declaration with ⟨target, source, span⟩
  refine .mul ?_ source.unbroken_spelling
  cases target with
  | graph =>
      exact .add (.keyword rfl) (.keyword rfl)
  | node =>
      exact .keyword rfl
  | edge =>
      exact .keyword rfl

theorem NodeTarget.unbroken_spelling
    (target : NodeTarget) :
    Unbroken target.spelling := by
  cases target with
  | list names =>
      exact .separated rfl Identifier.unbroken_spelling names
  | reference variableName =>
      exact variableName.unbroken_referenceSpelling

/-- An item contains no semicolon: the one behind it is not a part of it. -/
theorem BodyItem.unbroken_spelling
    (item : BodyItem) :
    Unbroken item.spelling := by
  cases item with
  | defaults declared =>
      exact declared.unbroken_spelling
  | statement written =>
      cases written with
      | binding declared =>
          exact declared.unbroken_spelling
      | node statement =>
          exact .mul statement.target.unbroken_spelling
            (AttributeSource.unbroken_optionalSpelling statement.attributes)
      | edge statement =>
          exact statement.unbroken_spelling

theorem Path.unbroken_spelling
    (path : Path) :
    Unbroken path.spelling := by
  rcases path with ⟨segments, span⟩
  cases segments with
  | nil =>
      exact .zero
  | cons first others =>
      exact .mul first.unbroken_spelling
        (.further rfl (fun name => .anyName rfl fun _ => rfl) others)

/-- An argument contains no semicolon, no closing brace and no end. -/
theorem Argument.unbroken_spelling
    (argument : Argument) :
    Unbroken argument.spelling := by
  rcases argument with ⟨key, sign, source, span⟩
  refine .mul (.mul (.anyName rfl fun _ => rfl) sign.unbroken_spelling) ?_
  cases source with
  | path followed =>
      exact followed.unbroken_spelling
  | literal value =>
      cases value with
      | word name =>
          exact .reserved fun _ => rfl
      | number value =>
          exact .alone rfl
      | string contents =>
          exact .alone rfl

/-- A command contains no semicolon, no closing brace and no end. -/
theorem Command.unbroken_spelling
    (command : Command) :
    Unbroken command.spelling := by
  rcases command with ⟨name, arguments, span⟩
  have given : Unbroken (Argument.listSpelling arguments) := by
    cases arguments with
    | nil =>
        exact .one
    | cons first others =>
        exact .separated rfl Argument.unbroken_spelling (first :: others)
  exact .mul
    (.mul
      (.mul
        (.mul (.mul (.keyword rfl) name.unbroken_spelling)
          (.keyword rfl))
        (.mark rfl))
      given)
    (.mark rfl)

theorem Direction.unbroken_spelling
    (direction : Direction) :
    Unbroken direction.spelling := by
  cases direction with
  | directed =>
      exact .keyword rfl
  | undirected =>
      exact .keyword rfl

/-- The items of a body do not contain the end of the text. -/
theorem BodyItem.unfinished_terminated_spelling
    (items : List BodyItem) :
    Unfinished (terminated (items.map BodyItem.spelling)) :=
  .terminated rfl (fun item => item.unbroken_spelling.unfinished) items

/-- A graph does not contain the end of the text where its body does not. -/
theorem unfinished_braces
    {bodySpelling : Spellings}
    (direction : Direction)
    (name : Identifier)
    (unfinished : Unfinished bodySpelling) :
    Unfinished
      (direction.spelling * Keyword.graph.spelling * name.spelling *
        Mark.leftBrace.spelling * bodySpelling * Mark.rightBrace.spelling) :=
  .mul
    (.mul
      (.mul
        (.mul (.mul direction.unbroken_spelling.unfinished (.keyword rfl))
          name.unbroken_spelling.unfinished)
        (.mark rfl))
      unfinished)
    (.mark rfl)

/-- The text does not end in the middle of a graph. -/
theorem GraphDeclaration.unfinished_spelling
    (declaration : GraphDeclaration) :
    Unfinished declaration.spelling := by
  rintro kinds ⟨_, spells⟩
  exact unfinished_braces declaration.direction declaration.name
    (BodyItem.unfinished_terminated_spelling declaration.items) kinds spells

/-- The text does not end in the middle of an item. -/
theorem Item.unfinished_spelling
    (item : Item) :
    Unfinished item.spelling := by
  cases item with
  | binding declared =>
      exact .mul declared.unbroken_spelling.unfinished (.mark rfl)
  | graph declared =>
      exact .mul declared.unfinished_spelling (.add .one (.mark rfl))
  | command given =>
      exact .mul given.unbroken_spelling.unfinished (.mark rfl)

/-- The text does not end in the middle of items. -/
theorem Item.unfinished_prod_spelling
    (items : List Item) :
    Unfinished (items.map Item.spelling).prod := by
  refine .prod fun member isMember => ?_
  obtain ⟨item, _, rfl⟩ := List.mem_map.1 isMember
  exact item.unfinished_spelling

end GraphScript
