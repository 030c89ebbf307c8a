import GraphScript.Program.Reader
import Mathlib.Computability.Language

namespace GraphScript

/-!
# The spellings of programs

The grammar of programs, as the set of token lists that each tree stands for.
A concatenation is a product of languages, an alternative is a sum, and a part
that may be missing adds the empty word `1`.

A tree has several spellings where the grammar leaves a choice: a comma may
follow the last attribute of a list, a semicolon may follow a graph, and the
attributes of a graph start with either of two words. A list that has to have a
member has no spelling when it is empty.
-/

/-- The token lists that a tree may be written as. -/
abbrev Spellings : Type :=
  Language Token.Kind

namespace Token.Kind

/-- The spelling that is a single token. -/
def alone
    (kind : Token.Kind) :
    Spellings :=
  {[kind]}

@[simp] theorem mem_alone
    {kind : Token.Kind}
    {kinds : List Token.Kind} :
    kinds ∈ kind.alone ↔ kinds = [kind] :=
  Iff.rfl

end Token.Kind

/-- The spelling of a mark. -/
def Mark.spelling
    (sign : Mark) :
    Spellings :=
  (Token.Kind.mark sign).alone

/-- The spelling of a reserved word. -/
def Keyword.spelling
    (word : Keyword) :
    Spellings :=
  (Token.Kind.keyword word).alone

namespace Spellings

/-- The reserved word of the given text. -/
def reserved
    (text : String) :
    Spellings :=
  {kinds | ∃ word : Keyword, word.text = text ∧ kinds = [.keyword word]}

/-- A name where a reserved word is a name as well. -/
def anyName
    (text : String) :
    Spellings :=
  (Token.Kind.identifier text).alone + reserved text

/-- The further members of a list, each one after the given mark. -/
def further
    (sign : Mark)
    (members : List Spellings) :
    Spellings :=
  (members.map (sign.spelling * ·)).prod

@[simp] theorem further_nil
    (sign : Mark) :
    further sign [] = 1 :=
  rfl

@[simp] theorem further_cons
    (sign : Mark)
    (member : Spellings)
    (members : List Spellings) :
    further sign (member :: members) =
      sign.spelling * member * further sign members := by
  simp [further]

/-- At least one member, with marks between them. -/
def separated
    (sign : Mark) :
    List Spellings →
    Spellings
  | [] => 0
  | first :: others => first * further sign others

/-- Members one after another, each one before a semicolon. -/
def terminated
    (members : List Spellings) :
    Spellings :=
  (members.map (· * Mark.semicolon.spelling)).prod

@[simp] theorem terminated_nil :
    terminated [] = 1 :=
  rfl

@[simp] theorem terminated_cons
    (member : Spellings)
    (members : List Spellings) :
    terminated (member :: members) =
      member * Mark.semicolon.spelling * terminated members := by
  simp [terminated]

/-- What starts with a single token is spelled if that token is the first one. -/
theorem cons_mem_alone_mul
    {kind first : Token.Kind}
    {kinds : List Token.Kind}
    {spelled : Spellings} :
    first :: kinds ∈ kind.alone * spelled ↔
      first = kind ∧ kinds ∈ spelled := by
  constructor
  · rintro ⟨_, rfl, more, spells, whole⟩
    obtain ⟨rfl, rfl⟩ := List.cons.inj whole
    exact ⟨rfl, spells⟩
  · rintro ⟨rfl, spells⟩
    exact ⟨_, rfl, kinds, spells, rfl⟩

/-- A name may be written as an identifier. -/
theorem identifier_cons_mem_anyName_mul
    {name text : String}
    {kinds : List Token.Kind}
    {spelled : Spellings} :
    .identifier name :: kinds ∈ anyName text * spelled ↔
      name = text ∧ kinds ∈ spelled := by
  constructor
  · rintro ⟨_, rfl | ⟨word, _, rfl⟩, more, spells, whole⟩
    · obtain ⟨⟨⟩, rfl⟩ := List.cons.inj whole
      exact ⟨rfl, spells⟩
    · cases whole
  · rintro ⟨rfl, spells⟩
    exact ⟨_, .inl rfl, kinds, spells, rfl⟩

/-- A name may be written as the keyword of the same text. -/
theorem keyword_cons_mem_anyName_mul
    {word : Keyword}
    {text : String}
    {kinds : List Token.Kind}
    {spelled : Spellings} :
    .keyword word :: kinds ∈ anyName text * spelled ↔
      word.text = text ∧ kinds ∈ spelled := by
  constructor
  · rintro ⟨_, rfl | ⟨word, rfl, rfl⟩, more, spells, whole⟩
    · cases whole
    · obtain ⟨⟨⟩, rfl⟩ := List.cons.inj whole
      exact ⟨rfl, spells⟩
  · rintro ⟨rfl, spells⟩
    exact ⟨_, .inr ⟨word, rfl, rfl⟩, kinds, spells, rfl⟩

end Spellings

open Spellings

/-- A name that is not a reserved word. -/
def Identifier.spelling
    (name : Identifier) :
    Spellings :=
  (Token.Kind.identifier name.name).alone

/-- A variable that is referred to. -/
def Identifier.referenceSpelling
    (name : Identifier) :
    Spellings :=
  Mark.dollar.spelling * name.spelling

/-- A separator is the sign that it is. -/
def Separator.spelling :
    Separator →
    Spellings
  | .assign => Mark.equals.spelling
  | .typed => Mark.colon.spelling

/-- A word may be a reserved one. -/
def Scalar.spelling :
    Scalar →
    Spellings
  | .word name => anyName name
  | .number value => (Token.Kind.number value).alone
  | .string contents => (Token.Kind.string contents).alone

/-- `key = value` or `key : value`. -/
def Attribute.spelling
    (pair : Attribute) :
    Spellings :=
  anyName pair.key.name * pair.separator.spelling * pair.value.spelling

/-- `[attribute, …]`, where a comma may follow the last attribute. -/
def AttributeList.spelling
    (list : AttributeList) :
    Spellings :=
  Mark.leftBracket.spelling *
    separated .comma (list.attributes.map Attribute.spelling) *
    (1 + Mark.comma.spelling) * Mark.rightBracket.spelling

/-- `[attribute, …]` or `$name`. -/
def AttributeSource.spelling :
    AttributeSource →
    Spellings
  | .list attributes => attributes.spelling
  | .reference variableName => variableName.referenceSpelling

/-- Attributes that may be missing. -/
def AttributeSource.optionalSpelling :
    Option AttributeSource →
    Spellings
  | none => 1
  | some source => source.spelling

/-- `left operator right`, with attributes or without. -/
def EdgeStatement.spelling
    (statement : EdgeStatement) :
    Spellings :=
  statement.left.spelling *
    (Token.Kind.operator statement.operator).alone *
    statement.right.spelling *
    AttributeSource.optionalSpelling statement.attributes

/-- The word of a type. -/
def VariableType.spelling :
    VariableType →
    Spellings
  | .node => Keyword.node.spelling
  | .edge => Keyword.edge.spelling
  | .attributes => Keyword.attributes.spelling

/-- `$name`, names, edges or `[attribute, …]`. -/
def VariableSource.spelling :
    VariableSource →
    Spellings
  | .reference variableName => variableName.referenceSpelling
  | .nodes names => separated .comma (names.map Identifier.spelling)
  | .edges statements =>
      separated .comma (statements.map EdgeStatement.spelling)
  | .attributes list => list.spelling

/-- `var type name = source`. -/
def VariableDeclaration.spelling
    (declaration : VariableDeclaration) :
    Spellings :=
  Keyword.var.spelling * declaration.declaredType.spelling *
    declaration.name.spelling * Mark.equals.spelling *
    declaration.source.spelling

/-- The attributes of a whole graph start with either of two words. -/
def DefaultTarget.spelling :
    DefaultTarget →
    Spellings
  | .graph => Keyword.graph.spelling + Keyword.attributes.spelling
  | .node => Keyword.node.spelling
  | .edge => Keyword.edge.spelling

/-- `graph [attribute, …]`, `node $name` and the like. -/
def DefaultDeclaration.spelling
    (declaration : DefaultDeclaration) :
    Spellings :=
  declaration.target.spelling * declaration.source.spelling

/-- Names with commas between them, or `$name`. -/
def NodeTarget.spelling :
    NodeTarget →
    Spellings
  | .list names => separated .comma (names.map Identifier.spelling)
  | .reference variableName => variableName.referenceSpelling

/-- The target with attributes or without. -/
def NodeStatement.spelling
    (statement : NodeStatement) :
    Spellings :=
  statement.target.spelling *
    AttributeSource.optionalSpelling statement.attributes

/-- A statement without its semicolon. -/
def Statement.spelling :
    Statement →
    Spellings
  | .binding declared => declared.spelling
  | .node written => written.spelling
  | .edge written => written.spelling

/-- A body item without its semicolon. -/
def BodyItem.spelling :
    BodyItem →
    Spellings
  | .defaults declared => declared.spelling
  | .statement written => written.spelling

namespace BodyItem

/-- Whether an item is a node or edge statement. -/
def mentionsNodes :
    BodyItem →
    Bool
  | .statement (.node _) => true
  | .statement (.edge _) => true
  | _ => false

/-- No default declaration stands behind a node or edge statement. -/
def InOrder
    (items : List BodyItem) :
    Prop :=
  items.Pairwise fun earlier later =>
    earlier.mentionsNodes = true → later.defaults? = none

end BodyItem

/-- The word of a direction. -/
def Direction.spelling :
    Direction →
    Spellings
  | .directed => Keyword.directed.spelling
  | .undirected => Keyword.undirected.spelling

/-- `directed graph name { item; … }`, with the items in order. -/
def GraphDeclaration.spelling
    (declaration : GraphDeclaration) :
    Spellings :=
  {kinds |
    BodyItem.InOrder declaration.items ∧
      kinds ∈
        declaration.direction.spelling * Keyword.graph.spelling *
          declaration.name.spelling * Mark.leftBrace.spelling *
          terminated (declaration.items.map BodyItem.spelling) *
          Mark.rightBrace.spelling}

/-- Names with dots between them. Only the first one cannot be reserved. -/
def Path.spelling
    (path : Path) :
    Spellings :=
  match path.segments with
  | [] => 0
  | first :: others =>
      first.spelling * further .dot (others.map fun name => anyName name.name)

/-- A path or a literal. A word that is not reserved would be a path. -/
def ArgumentSource.spelling :
    ArgumentSource →
    Spellings
  | .path followed => followed.spelling
  | .literal (.word name) => reserved name
  | .literal (.number value) => (Token.Kind.number value).alone
  | .literal (.string contents) => (Token.Kind.string contents).alone

/-- `key = source` or `key : source`. -/
def Argument.spelling
    (argument : Argument) :
    Spellings :=
  anyName argument.key.name * argument.separator.spelling *
    argument.source.spelling

/-- Arguments with commas between them, of which there may be none. -/
def Argument.listSpelling :
    List Argument →
    Spellings
  | [] => 1
  | arguments => separated .comma (arguments.map Argument.spelling)

/-- `run name with (argument, …)`. -/
def Command.spelling
    (command : Command) :
    Spellings :=
  Keyword.run.spelling * command.name.spelling *
    Keyword.withArguments.spelling * Mark.leftParenthesis.spelling *
    Argument.listSpelling command.arguments * Mark.rightParenthesis.spelling

namespace Item

/-- What kind of item an item is. -/
def kind :
    Item →
    ItemKind
  | .binding _ => .variableDeclaration
  | .graph _ => .graphDeclaration
  | .command _ => .command

/-- An item with its semicolon, which a graph may leave out. -/
def spelling :
    Item →
    Spellings
  | .binding declared => declared.spelling * Mark.semicolon.spelling
  | .graph declared => declared.spelling * (1 + Mark.semicolon.spelling)
  | .command given => given.spelling * Mark.semicolon.spelling

/-- No item stands behind one of a later kind. -/
def InOrder
    (items : List Item) :
    Prop :=
  items.Pairwise fun earlier later => earlier.kind.rank ≤ later.kind.rank

end Item

/-- Variables, then graphs, then commands. A graph needs no semicolon. -/
def Program.spelling
    (program : Program) :
    Spellings :=
  terminated (program.bindings.map VariableDeclaration.spelling) *
    (program.graphs.map
      (·.spelling * (1 + Mark.semicolon.spelling))).prod *
    terminated (program.commands.map Command.spelling)

namespace Item

/-- Only items of the first kind bind variables. -/
theorem binding?_eq_none
    {item : Item}
    (later : 1 ≤ item.kind.rank) :
    item.binding? = none := by
  cases item with
  | binding declared =>
      cases later
  | graph declared =>
      rfl
  | command given =>
      rfl

/-- No item behind the graphs declares one. -/
theorem graph?_eq_none
    {item : Item}
    (later : 2 ≤ item.kind.rank) :
    item.graph? = none := by
  cases item with
  | binding declared =>
      cases later
  | graph declared =>
      simp [kind, ItemKind.rank] at later
  | command given =>
      rfl

/-- Items in order are spelled one after another, as the program of them is. -/
theorem prod_spelling
    {items : List Item}
    (inOrder : InOrder items)
    (span : Span) :
    (items.map spelling).prod = (Program.ofItems items span).spelling := by
  induction items with
  | nil =>
      simp [Program.spelling, Program.ofItems]
  | cons item rest inductionHypothesis =>
      obtain ⟨first, restInOrder⟩ := List.pairwise_cons.1 inOrder
      rw [List.map_cons, List.prod_cons, inductionHypothesis restInOrder]
      simp only [Program.spelling, Program.ofItems]
      cases item with
      | binding declared =>
          simp [List.filterMap_cons, spelling, binding?, graph?, command?,
            mul_assoc]
      | graph declared =>
          have noBinding : rest.filterMap binding? = [] :=
            List.filterMap_eq_nil_iff.2 fun item member =>
              binding?_eq_none (first item member)
          simp [List.filterMap_cons, spelling, binding?, graph?, command?,
            noBinding, mul_assoc]
      | command given =>
          have noBinding : rest.filterMap binding? = [] :=
            List.filterMap_eq_nil_iff.2 fun item member =>
              binding?_eq_none (Nat.le_of_succ_le (first item member))
          have noGraph : rest.filterMap graph? = [] :=
            List.filterMap_eq_nil_iff.2 fun item member =>
              graph?_eq_none (first item member)
          simp [List.filterMap_cons, spelling, binding?, graph?, command?,
            noBinding, noGraph, mul_assoc]

end Item

end GraphScript
