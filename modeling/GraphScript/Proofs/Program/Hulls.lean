import GraphScript.Proofs.Program.PlacedStatements
import GraphScript.Proofs.Program.Soundness
import GraphScript.Proofs.Token.Places

namespace GraphScript

/-!
# Spans are hulls

In a program read from any text, whether or not faults are found, every part has
the span of exactly the tokens it was read from. Tokens that are skipped belong
to no part but a graph, so this holds of what is read around them.
-/

open Spellings GraphScript.Part

namespace Reader

variable {α β : Type}

/-! ## Graphs and commands -/

theorem semicolonAfter_steps
    (construct : String) :
    (semicolonAfter construct).Steps := by
  intro cursor _
  simp only [semicolonAfter]
  split
  · obtain ⟨tokens, steps⟩ := cursor.stepsOver_advance
    exact ⟨tokens, steps, fun _ _ => trivial⟩
  · exact ⟨[], cursor.stepsOver_report _, fun _ _ => trivial⟩

theorem optionalMark_steps
    (sign : Mark) :
    (optionalMark sign).Steps := by
  intro cursor
  refine .peek ?_
  split
  · next isMark =>
    exact .advance (Token.Kind.eq_mark isMark) (by simp)
      fun _ _ => .pure trivial
  · exact .pure trivial

/-- A part before a semicolon becomes an item. -/
theorem beforeSemicolon_places
    {reader : Reader α}
    {wrap : α → β}
    {construct : String}
    {cursor : Cursor}
    {taken : List Token}
    {toPart : α → Part}
    {finished : β → Part}
    (places :
      reader.PlacesFrom cursor taken fun value tokens =>
        StandIn [toPart value] tokens)
    (same : ∀ value, finished (wrap value) = toPart value) :
    (do
      let value ← reader
      semicolonAfter construct
      return wrap value).PlacesFrom cursor taken fun value tokens =>
        StandIn [finished value] tokens := by
  refine places.bindWhole fun value tokens next stands => ?_
  refine (semicolonAfter_steps construct next).bind fun _ more _ _ => ?_
  exact .pure (same value ▸ stands.before more)

theorem bodyItemAfter?_places
    {token : Token}
    {reader : Reader BodyItem}
    (starts : bodyItemAfter? token = some reader)
    (cursor : Cursor) :
    reader.PlacesFrom cursor [token] fun item tokens =>
      StandIn [item.part] tokens := by
  rcases token with ⟨kind, place⟩
  unfold bodyItemAfter? at starts
  split at starts
  · next isVar =>
    cases starts
    cases isVar
    exact beforeSemicolon_places (variableAfter_places place cursor)
      fun _ => rfl
  · next word _ isKeyword =>
    obtain ⟨target, isTarget, rfl⟩ := Option.map_eq_some_iff.1 starts
    cases isKeyword
    exact beforeSemicolon_places
      (defaultsAfter_places (defaultTarget?_spelling isTarget) place cursor)
      fun _ => rfl
  · next isDollar =>
    cases starts
    cases isDollar
    exact beforeSemicolon_places (referenceStatementAfter_places place cursor)
      fun _ => rfl
  · next name isName =>
    cases starts
    cases isName
    exact beforeSemicolon_places
      (statementAfter_places ⟨name, place⟩ cursor) fun _ => rfl
  · cases starts

/-- Late defaults are reported where they stand. -/
theorem stepsOver_checkDefaults
    (seenStatement : Bool)
    (cursor : Cursor) :
    cursor.StepsOver [] (checkDefaults seenStatement cursor) := by
  unfold checkDefaults
  split
  · split
    · exact cursor.stepsOver_report _
    · exact .refl cursor
  · exact .refl cursor

/-- The items of a body stand in the tokens up to where it ends. -/
theorem bodyRun_places
    (seenStatement : Bool)
    (cursor : Cursor) :
    ∃ tokens,
      cursor.StepsOver tokens (bodyRun seenStatement cursor).2 ∧
        StandIn ((bodyRun seenStatement cursor).1.map BodyItem.part)
          tokens := by
  fun_induction bodyRun seenStatement cursor with
  | case1 seenStatement cursor =>
      exact ⟨[], .refl cursor, .nil []⟩
  | case2 seenStatement cursor =>
      exact ⟨[], .refl cursor, .nil []⟩
  | case3 seenStatement cursor token rest ahead _ seen started shorter reader
      starts item next ran _ later last more inductionHypothesis =>
      have steps :=
        (stepsOver_checkDefaults seenStatement cursor).advance ahead
      obtain ⟨tokens, stepsItem, gives⟩ :=
        bodyItemAfter?_places starts started (steps.behind cursor.behind_nil)
      rw [ran] at stepsItem gives
      rw [more] at inductionHypothesis
      obtain ⟨others, stepsOthers, standOthers⟩ := inductionHypothesis
      exact ⟨_, (steps.trans stepsItem).trans stepsOthers,
        (gives item rfl).append standOthers⟩
  | case4 seenStatement cursor token rest ahead _ seen started shorter reader
      starts next ran _ inductionHypothesis =>
      have steps :=
        (stepsOver_checkDefaults seenStatement cursor).advance ahead
      obtain ⟨tokens, stepsItem, _⟩ :=
        bodyItemAfter?_places starts started (steps.behind cursor.behind_nil)
      rw [ran] at stepsItem
      obtain ⟨skipped, stepsSkipped⟩ := next.stepsOver_synchronize
      obtain ⟨others, stepsOthers, standOthers⟩ := inductionHypothesis
      exact ⟨_, ((steps.trans stepsItem).trans stepsSkipped).trans stepsOthers,
        standOthers.behind _⟩
  | case5 seenStatement cursor =>
      exact ⟨[], .refl cursor, .nil []⟩
  | case6 seenStatement cursor token rest ahead _ seen started shorter noReader
      notItem fault _ inductionHypothesis =>
      obtain ⟨skipped, stepsSkipped⟩ := cursor.stepsOver_skipItem fault
      obtain ⟨others, stepsOthers, standOthers⟩ := inductionHypothesis
      exact ⟨_, stepsSkipped.trans stepsOthers, standOthers.behind skipped⟩

theorem body_places :
    body.Places fun items tokens =>
      StandIn (items.map BodyItem.part) tokens := by
  intro cursor _
  obtain ⟨tokens, steps, stands⟩ := bodyRun_places false cursor
  refine ⟨tokens, steps, ?_⟩
  rintro _ ⟨⟩
  exact stands

theorem graphAfter_places
    {word : Keyword}
    (direction : Direction)
    (spellsDirection : [.keyword word] ∈ direction.spelling)
    (start : Span)
    (cursor : Cursor) :
    (graphAfter start direction).PlacesFrom cursor [⟨.keyword word, start⟩]
      fun declared tokens => StandIn [.graph declared] tokens := by
  refine (keyword_places .graph cursor).bind ?_
  rintro _ _ _ rfl
  refine (identifier_places _).bind ?_
  rintro name _ _ rfl
  refine (mark_places .leftBrace _).bind ?_
  rintro opening _ _ rfl
  refine (body_places _).bind fun items itemTokens next stands => ?_
  refine (closing_places .rightBrace opening next).bind ?_
  rintro close _ _ rfl
  refine .spanFrom rfl fun span joins => .pure (.single ⟨?_, joins⟩ ?_)
  · have spellsBody : itemTokens.map (·.kind) ∈ (⊤ : Spellings) := trivial
    simp only [List.map_append]
    exact Language.append_mem_mul
      (Language.append_mem_mul
        (Language.append_mem_mul
          (Language.append_mem_mul
            (Language.append_mem_mul spellsDirection rfl) rfl) rfl)
        spellsBody) rfl
  · exact ((((standIn_name name).behind _).before _).append stands).before _

theorem arguments_places :
    arguments.Places fun given tokens =>
      StandIn (given.map .argument) tokens := by
  intro cursor
  refine .peek ?_
  split
  · exact .pure (.nil [])
  · unfold separated
    refine (argument_places cursor).bind fun first tokens next stands => ?_
    refine (further_places argument_places next).bind
      fun others more _ standOthers => ?_
    exact .pure (stands.append standOthers)

theorem commandAfter_places
    (start : Span)
    (cursor : Cursor) :
    (commandAfter start).PlacesFrom cursor [⟨.keyword .run, start⟩]
      fun given tokens => StandIn [.command given] tokens := by
  refine .part Part.command (commandAfter_reads start cursor) ?_
  refine (identifier_stands cursor).bind fun name nameTokens _ standsName => ?_
  refine (keyword_places .withArguments _).bind fun _ withTokens _ _ => ?_
  refine (mark_places .leftParenthesis _).bind fun opening openTokens _ _ => ?_
  refine (arguments_places _).bind fun given givenTokens _ standsGiven => ?_
  refine (closing_places .rightParenthesis opening _).bind
    fun _ closeTokens _ _ => ?_
  refine .spanFrom rfl fun span joins => .pure ⟨joins, ?_⟩
  exact ((((standsName.behind _).before withTokens).before openTokens).append
    standsGiven).before closeTokens

/-! ## Programs -/

theorem graphItemAfter_places
    {word : Keyword}
    (direction : Direction)
    (spellsDirection : [.keyword word] ∈ direction.spelling)
    (start : Span)
    (cursor : Cursor) :
    (graphItemAfter start direction).PlacesFrom cursor [⟨.keyword word, start⟩]
      fun item tokens => StandIn [item.part] tokens := by
  refine (graphAfter_places direction spellsDirection start cursor).bindWhole
    fun declared tokens next stands => ?_
  refine (optionalMark_steps .semicolon next).bind fun _ more _ _ => ?_
  exact .pure (stands.before more)

theorem itemAfter?_places
    {token : Token}
    {kind : ItemKind}
    {reader : Reader Item}
    (starts : itemAfter? token = some (kind, reader))
    (cursor : Cursor) :
    reader.PlacesFrom cursor [token] fun item tokens =>
      StandIn [item.part] tokens := by
  rcases token with ⟨found, place⟩
  unfold itemAfter? at starts
  split at starts
  · next isVar =>
    cases starts
    cases isVar
    exact beforeSemicolon_places (variableAfter_places place cursor)
      fun _ => rfl
  · next isDirected =>
    cases starts
    cases isDirected
    exact graphItemAfter_places .directed rfl place cursor
  · next isUndirected =>
    cases starts
    cases isUndirected
    exact graphItemAfter_places .undirected rfl place cursor
  · next isRun =>
    cases starts
    cases isRun
    exact beforeSemicolon_places (commandAfter_places place cursor)
      fun _ => rfl
  · cases starts

/-- Items out of their order are reported where they stand. -/
theorem stepsOver_checkOrder
    (latest : Option ItemKind)
    (kind : ItemKind)
    (cursor : Cursor) :
    cursor.StepsOver [] (checkOrder latest kind cursor) := by
  unfold checkOrder
  split
  · split
    · exact cursor.stepsOver_report _
    · exact .refl cursor
  · exact .refl cursor

/-- The items of a program stand in its tokens. -/
theorem itemsRun_places
    (latest : Option ItemKind)
    (cursor : Cursor) :
    ∃ tokens,
      cursor.StepsOver tokens (itemsRun latest cursor).2 ∧
        StandIn ((itemsRun latest cursor).1.map Item.part) tokens := by
  fun_induction itemsRun latest cursor with
  | case1 latest cursor =>
      exact ⟨[], .refl cursor, .nil []⟩
  | case2 latest cursor =>
      exact ⟨[], .refl cursor, .nil []⟩
  | case3 latest cursor token rest ahead _ kind reader starts started shorter
      item next ran _ later last more inductionHypothesis =>
      have steps := (stepsOver_checkOrder latest kind cursor).advance ahead
      obtain ⟨tokens, stepsItem, gives⟩ :=
        itemAfter?_places starts started (steps.behind cursor.behind_nil)
      rw [ran] at stepsItem gives
      rw [more] at inductionHypothesis
      obtain ⟨others, stepsOthers, standOthers⟩ := inductionHypothesis
      exact ⟨_, (steps.trans stepsItem).trans stepsOthers,
        (gives item rfl).append standOthers⟩
  | case4 latest cursor token rest ahead _ kind reader starts started shorter
      next ran _ inductionHypothesis =>
      have steps := (stepsOver_checkOrder latest kind cursor).advance ahead
      obtain ⟨tokens, stepsItem, _⟩ :=
        itemAfter?_places starts started (steps.behind cursor.behind_nil)
      rw [ran] at stepsItem
      -- What a failed item has read, and what is skipped after it, holds no part.
      obtain ⟨skipped, stepsSkipped⟩ := next.stepsOver_synchronize
      obtain ⟨others, stepsOthers, standOthers⟩ := inductionHypothesis
      exact ⟨_, ((steps.trans stepsItem).trans stepsSkipped).trans stepsOthers,
        standOthers.behind _⟩
  | case5 latest cursor token rest ahead _ noReader fault _
      inductionHypothesis =>
      obtain ⟨skipped, stepsSkipped⟩ := cursor.stepsOver_skipItem fault
      obtain ⟨others, stepsOthers, standOthers⟩ := inductionHypothesis
      exact ⟨_, stepsSkipped.trans stepsOthers, standOthers.behind skipped⟩

end Reader

namespace Program

theorem among_of_contains
    {items : List Item}
    {span : Span}
    {part : Part}
    (contains : (ofItems items span).Contains part) :
    Among (items.map Item.part) part := by
  have top :
      ∀ outer ∈ (ofItems items span).parts, outer ∈ items.map Item.part := by
    intro outer member
    simp only [parts, ofItems, List.mem_append, List.mem_map,
      List.mem_filterMap] at member
    rcases member with
      (⟨declared, ⟨item, isItem, isBinding⟩, rfl⟩ |
        ⟨declared, ⟨item, isItem, isGraph⟩, rfl⟩) |
      ⟨given, ⟨item, isItem, isCommand⟩, rfl⟩
    · cases item <;> cases isBinding
      exact List.mem_map_of_mem isItem
    · cases item <;> cases isGraph
      exact List.mem_map_of_mem isItem
    · cases item <;> cases isCommand
      exact List.mem_map_of_mem isItem
  induction contains with
  | here member =>
      exact .here (top _ member)
  | inside _ member inductionHypothesis =>
      exact .inside inductionHypothesis member

/-- A program consists of items that stand in its tokens. -/
theorem exists_items_standIn
    (tokens : List Token) :
    ∃ items,
      (ofTokens tokens).program =
          ofItems items (ofTokens tokens).program.span ∧
        StandIn (items.map Item.part) (Cursor.ofTokens tokens).pending := by
  obtain ⟨read, steps, stands⟩ :=
    Reader.itemsRun_places none (Cursor.ofTokens tokens)
  refine ⟨_, rfl, ?_⟩
  rw [steps.split]
  exact stands.before _

/-- The tokens that a program is read from are those before the end of the text. -/
theorem pending_ofTokens
    {written : List Token}
    {finish : Token}
    (inText : ∀ token ∈ written, token.kind ≠ .endOfFile)
    (isEnd : finish.kind = .endOfFile) :
    (Cursor.ofTokens (written ++ [finish])).pending = written := by
  have unfinished : ∀ token ∈ written, (!token.kind.isEndOfFile) = true := by
    intro token member
    have notEnd := inText token member
    cases kind : token.kind with
    | endOfFile => exact absurd kind notEnd
    | _ => rfl
  simp only [Cursor.ofTokens]
  rw [List.takeWhile_append_of_pos unfinished]
  simp [isEnd, Token.Kind.isEndOfFile]

/-- The tokens of a text are in order. -/
theorem inOrder_pending_scan
    (text : List Char) :
    Token.InOrder (Cursor.ofTokens (Token.scan text).tokens).pending := by
  have placed := Token.placed_scan text
  have among :
      (Cursor.ofTokens (Token.scan text).tokens).pending.Sublist
        (Token.scan text).tokens :=
    List.takeWhile_sublist _
  exact
    { forward := fun token member =>
        (placed.onLine token (among.subset member)).inOrder
      precede := placed.inOrder.sublist among }

/-- Every part of a program stands in a stretch of its tokens that it spans. -/
theorem exists_hull
    (text : List Char)
    {part : Part}
    (contains :
      (ofTokens (Token.scan text).tokens).program.Contains part) :
    ∃ read,
      read <:+: (Cursor.ofTokens (Token.scan text).tokens).pending ∧
        read.map (·.kind) ∈ part.spelling ∧
        part.span.IsHull read ∧
        StandIn part.parts read := by
  obtain ⟨items, isProgram, stands⟩ :=
    exists_items_standIn (Token.scan text).tokens
  rw [isProgram] at contains
  obtain ⟨read, isRead, fits, inner⟩ :=
    stands.exists_read (among_of_contains contains)
  exact ⟨read, isRead, fits.spelled,
    fits.joins.isHull ((inOrder_pending_scan text).sublist isRead.sublist),
    inner⟩

/--
Spans are exact hulls, in every text and in spite of any faults.

The tokens before the end of the text are each on one line and follow each
other. The items of the program stand in them. Every part of the program has the
span from the start of the first through the end of the last of the tokens that
it was read from; so the parts inside it are within its span, and the ones next
to each other are in order and apart.
-/
theorem spans_are_hulls
    (text : List Char) :
    ∃ (written : List Token) (finish : Token) (items : List Item),
      (Token.scan text).tokens = written ++ [finish] ∧
      finish.kind = .endOfFile ∧
      (∀ token ∈ written, token.kind ≠ .endOfFile ∧ token.span.OnLine) ∧
      written.Pairwise
        (fun earlier later => earlier.span.Precedes later.span) ∧
      let program := (ofTokens (Token.scan text).tokens).program
      program = ofItems items program.span ∧
      StandIn (items.map Item.part) written ∧
      (items.map Item.part).Pairwise
        (fun earlier later => earlier.span.Precedes later.span) ∧
      ∀ part, program.Contains part →
        (∃ read,
          read <:+: written ∧
            read.map (·.kind) ∈ part.spelling ∧
            part.span.IsHull read) ∧
        (∀ inner ∈ part.parts, inner.span.Within part.span) ∧
        part.parts.Pairwise
          (fun earlier later => earlier.span.Precedes later.span) := by
  obtain ⟨written, finish, isScan, isEnd, inText⟩ :=
    Token.exists_written_scan text
  have placed := Token.placed_scan text
  have inOrder := inOrder_pending_scan text
  obtain ⟨items, isProgram, stands⟩ :=
    exists_items_standIn (Token.scan text).tokens
  have pending :
      (Cursor.ofTokens (Token.scan text).tokens).pending = written := by
    rw [isScan]
    exact pending_ofTokens inText isEnd
  rw [pending] at inOrder stands
  refine ⟨written, finish, items, isScan, isEnd, fun token member =>
    ⟨inText token member, placed.onLine token ?_⟩, inOrder.precede, isProgram,
    stands, stands.pairwise_precedes inOrder, fun part contains => ?_⟩
  · rw [isScan]
    exact List.mem_append_left _ member
  · obtain ⟨read, isRead, spells, hull, inner⟩ := exists_hull text contains
    rw [pending] at isRead
    have readInOrder := inOrder.sublist isRead.sublist
    exact ⟨⟨read, isRead, spells, hull⟩,
      fun part member => inner.within readInOrder hull member,
      inner.pairwise_precedes readInOrder⟩

/-- A graph on three lines, and the edge in its body. -/
theorem spans_are_hulls_of_graph :
    let text := "directed graph g \x7b\n  a -> b;\n\x7d".toList
    let span (line column endLine endColumn : Nat) : Span :=
      ⟨⟨line, column⟩, ⟨endLine, endColumn⟩⟩
    let edge : EdgeStatement :=
      ⟨⟨"a", span 2 3 2 3⟩, .forward, ⟨"b", span 2 8 2 8⟩, none,
        span 2 3 2 8⟩
    let graph : GraphDeclaration :=
      ⟨.directed, ⟨"g", span 1 16 1 16⟩, [.statement (.edge edge)],
        span 1 1 3 1⟩
    let program := (ofTokens (Token.scan text).tokens).program
    program.graphs = [graph] ∧
      (∃ read,
        read <:+: (Token.scan text).tokens ∧ graph.span.IsHull read) ∧
      edge.span.Within graph.span ∧
      graph.name.span.Precedes edge.span := by
  intro text span edge graph program
  have isGraph : program.graphs = [graph] := by
    dsimp only [program, graph, edge, span, text]
    with_unfolding_all rfl
  have contains : program.Contains (.graph graph) :=
    .here (by simp [parts, isGraph])
  obtain ⟨written, finish, _, isScan, _, _, _, _, _, _, areHulls⟩ :=
    spans_are_hulls text
  obtain ⟨⟨read, isRead, _, hull⟩, within, inOrder⟩ :=
    areHulls (.graph graph) contains
  have isPart : read <:+: (Token.scan text).tokens :=
    isScan ▸ isRead.trans (List.infix_append' [] written [finish])
  exact ⟨isGraph, ⟨read, isPart, hull⟩,
    within (.edge edge) (.tail _ (.head _)),
    (List.pairwise_cons.1 inOrder).1 (.edge edge) (.head _)⟩

end Program

end GraphScript
