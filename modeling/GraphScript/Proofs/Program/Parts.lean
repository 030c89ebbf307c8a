import GraphScript.Proofs.Program.Spelling
import GraphScript.Proofs.Source.Positions

namespace GraphScript

/-!
# The parts of a program and the tokens they stand in

Every tree in a program that has a span is a part of it, and holds further parts
in the order in which they are written. Parts stand in a list of tokens if each
is spelled by a stretch of them, its span goes from the first of these tokens
through the last, and its own parts stand in them as well. Where the tokens are
in order, so are the spans.
-/

/-- A tree with a span. The name in a reference goes with its dollar sign. -/
inductive Part where
  | name (written : Identifier)
  | reference (variableName : Identifier)
  | pair (written : Attribute)
  | attributeList (written : AttributeList)
  | edge (written : EdgeStatement)
  | nodes (written : NodeStatement)
  | defaults (written : DefaultDeclaration)
  | binding (declared : VariableDeclaration)
  | graph (declared : GraphDeclaration)
  | path (followed : Path)
  | argument (given : Argument)
  | command (given : Command)

/-! ## Parts and their parts -/

/-- Attributes are a single part. -/
def AttributeSource.part :
    AttributeSource →
    Part
  | .list attributes => .attributeList attributes
  | .reference variableName => .reference variableName

/-- Attributes that may be missing. -/
def AttributeSource.optionalParts
    (source : Option AttributeSource) :
    List Part :=
  (source.map part).toList

/-- The parts of the right-hand side of a variable declaration. -/
def VariableSource.parts :
    VariableSource →
    List Part
  | .reference variableName => [.reference variableName]
  | .nodes names => names.map .name
  | .edges statements => statements.map .edge
  | .attributes list => [.attributeList list]

/-- The names of the nodes that a statement is about. -/
def NodeTarget.parts :
    NodeTarget →
    List Part
  | .list names => names.map .name
  | .reference variableName => [.reference variableName]

/-- A statement is a single part. -/
def Statement.part :
    Statement →
    Part
  | .binding declared => .binding declared
  | .node written => .nodes written
  | .edge written => .edge written

/-- A body item is a single part. -/
def BodyItem.part :
    BodyItem →
    Part
  | .defaults declared => .defaults declared
  | .statement written => written.part

/-- A literal has no span of its own. -/
def ArgumentSource.parts :
    ArgumentSource →
    List Part
  | .path followed => [.path followed]
  | .literal _ => []

/-- An item is a single part. -/
def Item.part :
    Item →
    Part
  | .binding declared => .binding declared
  | .graph declared => .graph declared
  | .command given => .command given

/-- The declarations and commands of a program. -/
def Program.parts
    (program : Program) :
    List Part :=
  program.bindings.map .binding ++ program.graphs.map .graph ++
    program.commands.map .command

namespace Part

/-- Where a part is written. -/
def span :
    Part →
    Span
  | .name written => written.span
  | .reference variableName => variableName.span
  | .pair written => written.span
  | .attributeList written => written.span
  | .edge written => written.span
  | .nodes written => written.span
  | .defaults written => written.span
  | .binding declared => declared.span
  | .graph declared => declared.span
  | .path followed => followed.span
  | .argument given => given.span
  | .command given => given.span

/-- The parts right inside a part, in written order. -/
def parts :
    Part →
    List Part
  | .name _ => []
  | .reference _ => []
  | .pair written => [.name written.key]
  | .attributeList written => written.attributes.map .pair
  | .edge written =>
      .name written.left :: .name written.right ::
        AttributeSource.optionalParts written.attributes
  | .nodes written =>
      written.target.parts ++
        AttributeSource.optionalParts written.attributes
  | .defaults written => [written.source.part]
  | .binding declared => .name declared.name :: declared.source.parts
  | .graph declared =>
      .name declared.name :: declared.items.map BodyItem.part
  | .path followed => followed.segments.map .name
  | .argument given => .name given.key :: given.source.parts
  | .command given => .name given.name :: given.arguments.map .argument

/--
The ways of writing a part.

Some keys and path segments may be reserved words. Anything may stand between
the braces of a graph, because items that cannot be read are skipped there.
-/
def spelling :
    Part →
    Spellings
  | .name written => Spellings.anyName written.name
  | .reference variableName => variableName.referenceSpelling
  | .pair written => written.spelling
  | .attributeList written => written.spelling
  | .edge written => written.spelling
  | .nodes written => written.spelling
  | .defaults written => written.spelling
  | .binding declared => declared.spelling
  | .graph declared =>
      declared.direction.spelling * Keyword.graph.spelling *
        declared.name.spelling * Mark.leftBrace.spelling * ⊤ *
        Mark.rightBrace.spelling
  | .path followed => followed.spelling
  | .argument given => given.spelling
  | .command given => given.spelling

/-- The parts that some parts hold, however deep inside, and these themselves. -/
inductive Among
    (whole : List Part) :
    Part →
    Prop where
  | here
      {part : Part}
      (member : part ∈ whole) :
      Among whole part
  | inside
      {outer part : Part}
      (among : Among whole outer)
      (member : part ∈ outer.parts) :
      Among whole part

end Part

/-- A part is somewhere in a program. -/
def Program.Contains
    (program : Program)
    (part : Part) :
    Prop :=
  Part.Among program.parts part

/-! ## Tokens in order -/

/-- No token ends before it starts, and each ends before the next ones start. -/
structure Token.InOrder
    (tokens : List Token) :
    Prop where
  forward : ∀ token ∈ tokens, token.span.start ≤ token.span.stop
  precede :
    tokens.Pairwise fun earlier later => earlier.span.Precedes later.span

/-- A span covers exactly some tokens, from the first one through the last. -/
def Span.IsHull
    (span : Span)
    (tokens : List Token) :
    Prop :=
  ∃ first last,
    tokens.head? = some first ∧
      tokens.getLast? = some last ∧
      span = ⟨first.span.start, last.span.stop⟩

namespace Token.InOrder

variable {tokens others : List Token}

theorem sublist
    (inOrder : InOrder tokens)
    (among : others.Sublist tokens) :
    InOrder others :=
  ⟨fun token member => inOrder.forward token (among.subset member),
    inOrder.precede.sublist among⟩

/-- The first token starts first. -/
theorem head_le
    (inOrder : InOrder tokens)
    {first token : Token}
    (isFirst : tokens.head? = some first)
    (member : token ∈ tokens) :
    first.span.start ≤ token.span.start := by
  obtain ⟨rest, rfl⟩ := List.head?_eq_some_iff.mp isFirst
  rcases List.mem_cons.mp member with rfl | isLater
  · exact le_refl _
  · exact le_trans (inOrder.forward first (List.mem_cons_self ..))
      (le_of_lt ((List.pairwise_cons.mp inOrder.precede).1 token isLater))

/-- The last token ends last. -/
theorem le_getLast
    (inOrder : InOrder tokens)
    {last token : Token}
    (isLast : tokens.getLast? = some last)
    (member : token ∈ tokens) :
    token.span.stop ≤ last.span.stop := by
  obtain ⟨earlier, rfl⟩ := List.getLast?_eq_some_iff.mp isLast
  rcases List.mem_append.mp member with isEarlier | isLast
  · have precedes :=
      (List.pairwise_append.mp inOrder.precede).2.2 token isEarlier last
        (List.mem_singleton_self last)
    exact le_trans (le_of_lt precedes) (inOrder.forward last (by simp))
  · exact le_of_eq (by rw [List.mem_singleton.mp isLast])

theorem merge_eq
    (inOrder : InOrder tokens)
    {first last : Token}
    (isFirst : tokens.head? = some first)
    (isLast : tokens.getLast? = some last) :
    first.span.merge last.span = ⟨first.span.start, last.span.stop⟩ := by
  have starts := inOrder.head_le isFirst (List.mem_of_getLast? isLast)
  have ends := inOrder.le_getLast isLast (List.mem_of_head? isFirst)
  rw [Span.merge, min_eq_left starts, max_eq_right ends]

end Token.InOrder

/-- A span is joined from the ends of some tokens. -/
def Span.JoinsEnds
    (span : Span)
    (tokens : List Token) :
    Prop :=
  ∃ first last,
    tokens.head? = some first ∧
      tokens.getLast? = some last ∧
      span = first.span.merge last.span

theorem Span.JoinsEnds.isHull
    {span : Span}
    {tokens : List Token}
    (joins : span.JoinsEnds tokens)
    (inOrder : Token.InOrder tokens) :
    span.IsHull tokens := by
  obtain ⟨first, last, isFirst, isLast, joined⟩ := joins
  exact ⟨first, last, isFirst, isLast,
    joined.trans (inOrder.merge_eq isFirst isLast)⟩

/-! ## Parts in their tokens -/

namespace Part

/-- A part is spelled by some tokens, and its span is joined from their ends. -/
structure Fits
    (part : Part)
    (tokens : List Token) :
    Prop where
  spelled : tokens.map (·.kind) ∈ part.spelling
  joins : part.span.JoinsEnds tokens

/-- Parts stand in a list of tokens, in order and with their own parts inside. -/
inductive StandIn :
    List Part →
    List Token →
    Prop where
  | nil
      (tokens : List Token) :
      StandIn [] tokens
  | cons
      {part : Part}
      {parts : List Part}
      {read rest : List Token}
      (skipped : List Token)
      (fits : part.Fits read)
      (inner : StandIn part.parts read)
      (later : StandIn parts rest) :
      StandIn (part :: parts) (skipped ++ (read ++ rest))

namespace StandIn

variable
  {part other : Part}
  {parts others : List Part}
  {read tokens more : List Token}

/-- Other tokens may stand in front. -/
theorem behind
    (stands : StandIn parts tokens)
    (skipped : List Token) :
    StandIn parts (skipped ++ tokens) := by
  cases stands with
  | nil =>
      exact .nil _
  | cons earlier fits inner later =>
      rw [← List.append_assoc]
      exact .cons (skipped ++ earlier) fits inner later

theorem append
    (stands : StandIn parts tokens)
    (standOthers : StandIn others more) :
    StandIn (parts ++ others) (tokens ++ more) := by
  induction stands with
  | nil tokens =>
      exact standOthers.behind tokens
  | cons skipped fits inner later _ inductionHypothesis =>
      rw [List.append_assoc, List.append_assoc]
      exact .cons skipped fits inner inductionHypothesis

/-- Other tokens may stand behind. -/
theorem before
    (stands : StandIn parts tokens)
    (more : List Token) :
    StandIn parts (tokens ++ more) := by
  have both := stands.append (.nil more)
  rwa [List.append_nil] at both

theorem single
    (fits : part.Fits read)
    (inner : StandIn part.parts read) :
    StandIn [part] read := by
  have stands := StandIn.cons [] fits inner (.nil [])
  rwa [List.nil_append, List.append_nil] at stands

theorem exists_read_of_mem
    (stands : StandIn parts tokens)
    (member : part ∈ parts) :
    ∃ read, read <:+: tokens ∧ part.Fits read ∧ StandIn part.parts read := by
  induction stands with
  | nil =>
      cases member
  | @cons first parts read rest skipped fits inner later _
      inductionHypothesis =>
      rcases List.mem_cons.mp member with rfl | isLater
      · exact ⟨read, ⟨skipped, rest, by simp⟩, fits, inner⟩
      · obtain ⟨others, isPart, found⟩ := inductionHypothesis isLater
        have isSuffix : rest <:+: skipped ++ (read ++ rest) :=
          ⟨skipped ++ read, [], by simp⟩
        exact ⟨others, isPart.trans isSuffix, found⟩

/-- Wherever a part is inside, it is spelled by a stretch of the tokens. -/
theorem exists_read
    (stands : StandIn parts tokens)
    (among : Among parts part) :
    ∃ read, read <:+: tokens ∧ part.Fits read ∧ StandIn part.parts read := by
  induction among with
  | here member =>
      exact stands.exists_read_of_mem member
  | inside _ member inductionHypothesis =>
      obtain ⟨outer, isOuter, _, inner⟩ := inductionHypothesis
      obtain ⟨read, isRead, found⟩ := inner.exists_read_of_mem member
      exact ⟨read, isRead.trans isOuter, found⟩

end StandIn

/-! ## Spans of parts -/

variable
  {part other : Part}
  {parts : List Part}
  {read tokens : List Token}

/-- A stretch of tokens is covered inside what covers all of them. -/
theorem within_of_infix
    {inner outer : Span}
    (inOrder : Token.InOrder tokens)
    (isPart : read <:+: tokens)
    (innerHull : inner.IsHull read)
    (outerHull : outer.IsHull tokens) :
    inner.Within outer := by
  obtain ⟨first, last, isFirst, isLast, rfl⟩ := innerHull
  obtain ⟨outerFirst, outerLast, isOuterFirst, isOuterLast, rfl⟩ := outerHull
  exact
    ⟨inOrder.head_le isOuterFirst (isPart.subset (List.mem_of_head? isFirst)),
      inOrder.le_getLast isOuterLast
        (isPart.subset (List.mem_of_getLast? isLast))⟩

theorem StandIn.within
    {outer : Span}
    (stands : StandIn parts tokens)
    (inOrder : Token.InOrder tokens)
    (outerHull : outer.IsHull tokens)
    (member : part ∈ parts) :
    part.span.Within outer := by
  obtain ⟨read, isRead, fits, _⟩ := stands.exists_read_of_mem member
  exact within_of_infix inOrder isRead
    (fits.joins.isHull (inOrder.sublist isRead.sublist)) outerHull

/-- What stands in earlier tokens ends before what stands in later ones starts. -/
theorem precedes_of_append
    {earlier later : Span}
    {more : List Token}
    (inOrder : Token.InOrder (tokens ++ more))
    (earlierHull : earlier.IsHull tokens)
    (isPart : read <:+: more)
    (laterHull : later.IsHull read) :
    earlier.Precedes later := by
  obtain ⟨_, last, _, isLast, rfl⟩ := earlierHull
  obtain ⟨first, _, isFirst, _, rfl⟩ := laterHull
  exact (List.pairwise_append.mp inOrder.precede).2.2 last
    (List.mem_of_getLast? isLast) first
    (isPart.subset (List.mem_of_head? isFirst))

/-- Parts that stand in tokens end before the next ones start. -/
theorem StandIn.pairwise_precedes
    (stands : StandIn parts tokens)
    (inOrder : Token.InOrder tokens) :
    parts.Pairwise fun earlier later => earlier.span.Precedes later.span := by
  induction stands with
  | nil =>
      exact .nil
  | @cons first parts read rest skipped fits inner later _
      inductionHypothesis =>
      have behindInOrder : Token.InOrder (read ++ rest) :=
        inOrder.sublist (List.sublist_append_right skipped _)
      have firstHull :=
        fits.joins.isHull (behindInOrder.sublist (List.sublist_append_left read rest))
      have restInOrder :=
        behindInOrder.sublist (List.sublist_append_right read rest)
      refine List.pairwise_cons.mpr
        ⟨fun other member => ?_, inductionHypothesis restInOrder⟩
      obtain ⟨others, isOthers, fitsOther, _⟩ :=
        later.exists_read_of_mem member
      exact precedes_of_append behindInOrder firstHull isOthers
        (fitsOther.joins.isHull (restInOrder.sublist isOthers.sublist))

end Part

end GraphScript
