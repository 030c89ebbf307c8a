import GraphScript.Proofs.Program.StatementCompleteness
import GraphScript.Proofs.Program.WellFormed

namespace GraphScript

/-!
# What is written is read

Every spelling of a program is read without a fault, and the program that is
read is the one that was written, up to the places of its parts.
-/

open Spellings Token.Kind

namespace Reader

variable {α β : Type}

/-! ## Bodies of graphs -/

/-- A tree before a semicolon becomes an item. -/
theorem beforeSemicolon_accepts
    {reader : Reader α}
    {wrap : α → β}
    {construct : String}
    {rest : List Token.Kind}
    {cursor : Cursor}
    {good : α → Prop}
    {better : β → Prop}
    (accepts : reader.Accepts cursor (.mark .semicolon :: rest) good)
    (wraps : ∀ value, good value → better (wrap value)) :
    (do
      let value ← reader
      semicolonAfter construct
      return wrap value).Accepts cursor rest better := by
  refine accepts.bind fun value next isGood ahead _ => ?_
  have semicolon :
      (semicolonAfter construct).Accepts next rest fun _ => True := by
    refine ⟨(), next.advance, ?_, trivial, Cursor.kinds_advance ahead,
      Cursor.faults_advance next⟩
    simp [semicolonAfter, Cursor.kind_of_kinds ahead]
  exact semicolon.bind fun _ _ _ ahead _ => .pure ahead (wraps value isGood)

/-- The token that starts a body item tells what kind of item it is. -/
structure Starts
    (kind : Token.Kind)
    (item : BodyItem) :
    Prop where
  statement : startsStatement kind = item.mentionsNodes
  defaults :
    ∀ word,
      kind = .keyword word →
      item.defaults? = none →
      defaultTarget? word = none
  notClosing : kind.isMark .rightBrace = false

/-- Each word of a target tells that target. -/
theorem word_of_target
    {target : DefaultTarget}
    {kinds : List Token.Kind}
    (spelled : kinds ∈ target.spelling) :
    ∃ word,
      kinds = [.keyword word] ∧ defaultTarget? word = some target := by
  cases target with
  | graph =>
      rcases spelled with rfl | rfl
      · exact ⟨.graph, rfl, rfl⟩
      · exact ⟨.attributes, rfl, rfl⟩
  | node =>
      exact ⟨.node, spelled, rfl⟩
  | edge =>
      exact ⟨.edge, spelled, rfl⟩

/-- A keyword for a target starts a default declaration. -/
theorem bodyItemAfter?_of_target
    {token : Token}
    {word : Keyword}
    {target : DefaultTarget}
    (isKeyword : token.kind = .keyword word)
    (isTarget : defaultTarget? word = some target) :
    bodyItemAfter? token =
      some do
        let declaration ← defaultsAfter token.span target
        semicolonAfter "global attribute declaration"
        return .defaults declaration := by
  cases word <;>
    simp_all [bodyItemAfter?, defaultTarget?]

/-- The keyword `var` starts a declaration inside a graph. -/
theorem bodyItemAfter?_of_var
    {token : Token}
    (isVar : token.kind = .keyword .var) :
    bodyItemAfter? token =
      some do
        let declaration ← variableAfter token.span
        semicolonAfter "variable declaration"
        return .statement (.binding declaration) := by
  rw [bodyItemAfter?, isVar]

/-- A dollar sign starts a statement about a variable. -/
theorem bodyItemAfter?_of_dollar
    {token : Token}
    (isDollar : token.kind = .mark .dollar) :
    bodyItemAfter? token =
      some do
        let statement ← referenceStatementAfter token.span
        semicolonAfter "statement"
        return .statement statement := by
  rw [bodyItemAfter?, isDollar]

/-- A name starts a statement about a node or an edge. -/
theorem bodyItemAfter?_of_identifier
    {token : Token}
    {name : String}
    (isName : token.kind = .identifier name) :
    bodyItemAfter? token =
      some do
        let statement ← statementAfter ⟨name, token.span⟩
        semicolonAfter "statement"
        return .statement statement := by
  rw [bodyItemAfter?, isName]

/-- A statement other than a binding starts with a name or a dollar sign. -/
theorem kinds_of_statement
    {statement : Statement}
    {kinds : List Token.Kind}
    (notBinding : (BodyItem.statement statement).mentionsNodes = true)
    (spelled : kinds ∈ statement.spelling) :
    (∃ name more, kinds = .identifier name :: more) ∨
      ∃ variableName attributes span attributeKinds,
        statement = .node ⟨.reference variableName, attributes, span⟩ ∧
          attributeKinds ∈ AttributeSource.optionalSpelling attributes ∧
          kinds =
            .mark .dollar :: .identifier variableName.name ::
              attributeKinds := by
  cases statement with
  | binding declared =>
      cases notBinding
  | edge written =>
      obtain ⟨attributeKinds, _, rfl⟩ := kinds_of_edge spelled
      exact .inl ⟨_, _, rfl⟩
  | node written =>
      rcases written with ⟨target, attributes, span⟩
      obtain ⟨targetKinds, spellsTarget, attributeKinds, spellsAttributes,
        rfl⟩ := spelled
      cases target with
      | reference variableName =>
          obtain ⟨_, rfl, _, rfl, rfl⟩ := spellsTarget
          exact .inr ⟨variableName, attributes, span, attributeKinds, rfl,
            spellsAttributes, rfl⟩
      | list names =>
          cases names with
          | nil =>
              cases spellsTarget
          | cons name others =>
              obtain ⟨_, rfl, otherKinds, _, rfl⟩ := spellsTarget
              exact .inl ⟨_, _, rfl⟩

/-- A body item is read behind the token that it starts with. -/
theorem bodyItemAfter?_accepts
    {item : BodyItem}
    {kinds : List Token.Kind}
    (spelled : kinds ∈ item.spelling * Mark.semicolon.spelling) :
    ∃ kind more,
      kinds = kind :: more ∧
        Starts kind item ∧
        ∀ token,
          token.kind = kind →
          ∃ reader,
            bodyItemAfter? token = some reader ∧
              ∀ {cursor rest},
                cursor.kinds = more ++ rest →
                reader.Accepts cursor rest fun read =>
                  read.withoutPlaces = item.withoutPlaces := by
  obtain ⟨itemKinds, spellsItem, _, rfl, rfl⟩ := spelled
  cases item with
  | defaults declared =>
      obtain ⟨_, spellsTarget, sourceKinds, spellsSource, rfl⟩ := spellsItem
      obtain ⟨word, rfl, isTarget⟩ := word_of_target spellsTarget
      refine ⟨.keyword word, sourceKinds ++ [.mark .semicolon], rfl,
        ⟨rfl, fun _ _ none => (by cases none), rfl⟩,
        fun token isKeyword =>
          ⟨_, bodyItemAfter?_of_target isKeyword isTarget, fun ahead => ?_⟩⟩
      refine beforeSemicolon_accepts
        (defaultsAfter_accepts spellsSource (by simpa using ahead)) ?_
      intro read same
      simp [BodyItem.withoutPlaces, same]
  | statement written =>
      cases notBinding : (BodyItem.statement written).mentionsNodes with
      | false =>
          cases written with
          | node statement =>
              cases notBinding
          | edge statement =>
              cases notBinding
          | binding declared =>
              obtain ⟨more, rfl⟩ := kinds_of_variable spellsItem
              refine ⟨.keyword .var, more ++ [.mark .semicolon], rfl,
                ⟨rfl, fun word isVar _ => ?_, rfl⟩,
                fun token isVar =>
                  ⟨_, bodyItemAfter?_of_var isVar, fun ahead => ?_⟩⟩
              · cases isVar
                rfl
              · refine beforeSemicolon_accepts
                  (variableAfter_accepts spellsItem (by simpa using ahead)) ?_
                intro read same
                simp [BodyItem.withoutPlaces, Statement.withoutPlaces, same]
      | true =>
          rcases kinds_of_statement notBinding spellsItem with
            ⟨name, more, rfl⟩ |
              ⟨variableName, attributes, span, attributeKinds, rfl,
                spellsAttributes, rfl⟩
          · refine ⟨.identifier name, more ++ [.mark .semicolon], rfl,
              ⟨notBinding.symm, fun word isName _ => (by cases isName), rfl⟩,
              fun token isName =>
                ⟨_, bodyItemAfter?_of_identifier isName, fun ahead => ?_⟩⟩
            refine beforeSemicolon_accepts
              (statementAfter_accepts ⟨name, token.span⟩
                notBinding spellsItem (by simpa using ahead)) ?_
            intro read same
            simp [BodyItem.withoutPlaces, same]
          · refine ⟨.mark .dollar, _, rfl,
              ⟨rfl, fun word isName _ => (by cases isName), rfl⟩,
              fun token isDollar =>
                ⟨_, bodyItemAfter?_of_dollar isDollar, fun ahead => ?_⟩⟩
            refine beforeSemicolon_accepts
              (referenceStatementAfter_accepts span spellsAttributes
                (by simpa using ahead)) ?_
            intro read same
            simp only [BodyItem.withoutPlaces, same]

/-- The items of a graph end at its closing brace. -/
theorem bodyRun_of_closing
    {seenStatement : Bool}
    {cursor : Cursor}
    (closes : cursor.kind.isMark .rightBrace = true) :
    bodyRun seenStatement cursor = ([], cursor) := by
  rw [bodyRun]
  split
  · rfl
  · next token rest ahead =>
    have kind : cursor.kind = token.kind := by
      simp [Cursor.kind, ahead]
    rw [if_pos (by simp [← kind, closes])]

/-- An item of a body is read, and so are the ones behind it. -/
theorem bodyRun_of_item
    {seenStatement : Bool}
    {cursor next last : Cursor}
    {token : Token}
    {rest : List Token}
    {reader : Reader BodyItem}
    {item : BodyItem}
    {items : List BodyItem}
    (ahead : cursor.pending = token :: rest)
    (notClosing : token.kind.isMark .rightBrace = false)
    (notFull : cursor.isFull = false)
    (starts : bodyItemAfter? token = some reader)
    (ran :
      reader.run (checkDefaults seenStatement cursor).advance =
        (some item, next))
    (ranOthers :
      bodyRun (seenStatement || startsStatement token.kind) next =
        (items, last)) :
    bodyRun seenStatement cursor = (item :: items, last) := by
  rw [bodyRun]
  split
  · next none =>
    simp [none] at ahead
  · next first others pending =>
    obtain ⟨rfl, rfl⟩ := List.cons.inj (pending.symm.trans ahead)
    rw [if_neg (by simp [notClosing, notFull])]
    simp only [starts]
    split
    · next value middle ranFound =>
      obtain ⟨⟨⟩, ⟨⟩⟩ := Prod.mk.inj (ran.symm.trans ranFound)
      rw [ranOthers]
    · next failed =>
      simp [ran] at failed

/-- A default declaration that stands before every statement is not reported. -/
theorem checkDefaults_of_starts
    {seenStatement : Bool}
    {cursor : Cursor}
    {item : BodyItem}
    (starts : Starts cursor.kind item)
    (inTime : seenStatement = true → item.defaults? = none) :
    checkDefaults seenStatement cursor = cursor := by
  unfold checkDefaults
  split
  · next word isKeyword =>
    cases seenStatement with
    | false =>
        rfl
    | true =>
        simp [starts.defaults word isKeyword (inTime rfl)]
  · rfl

/-- The items ahead are read, and the body is read on behind them. -/
theorem bodyRun_of_items
    {items : List BodyItem}
    (seenStatement : Bool)
    {kinds rest : List Token.Kind}
    {cursor : Cursor}
    (spelled : kinds ∈ terminated (items.map BodyItem.spelling))
    (inOrder : BodyItem.InOrder items)
    (inTime :
      seenStatement = true → ∀ item ∈ items, item.defaults? = none)
    (notFull : cursor.isFull = false)
    (ahead : cursor.kinds = kinds ++ rest) :
    ∃ read next,
      (∀ others last,
        bodyRun (seenStatement || items.any BodyItem.mentionsNodes) next =
          (others, last) →
        bodyRun seenStatement cursor = (read ++ others, last)) ∧
        read.map BodyItem.withoutPlaces =
          items.map BodyItem.withoutPlaces ∧
        next.kinds = rest ∧
        next.faults = cursor.faults := by
  induction items generalizing seenStatement kinds cursor with
  | nil =>
      cases spelled
      exact ⟨[], cursor, by simp, rfl, ahead, rfl⟩
  | cons item items inductionHypothesis =>
      rw [List.map_cons, terminated_cons] at spelled
      obtain ⟨itemKinds, spellsItem, otherKinds, spellsOthers, rfl⟩ := spelled
      obtain ⟨kind, more, rfl, starts, accepts⟩ :=
        bodyItemAfter?_accepts spellsItem
      obtain ⟨first, restInOrder⟩ := List.pairwise_cons.1 inOrder
      simp only [List.cons_append, List.append_assoc] at ahead
      obtain ⟨token, others, pending, rfl, _⟩ :=
        Cursor.pending_of_kinds ahead
      obtain ⟨reader, isReader, acceptsRest⟩ := accepts token rfl
      have startsHere : Starts cursor.kind item := by
        simpa [Cursor.kind_of_kinds ahead] using starts
      have unreported : checkDefaults seenStatement cursor = cursor :=
        checkDefaults_of_starts startsHere
          fun seen => inTime seen item (by simp)
      obtain ⟨value, next, ran, same, aheadOthers, silent⟩ :=
        acceptsRest (Cursor.kinds_advance ahead)
      have silentItem : next.faults = cursor.faults :=
        silent.trans (Cursor.faults_advance cursor)
      have inTimeOthers :
          (seenStatement || startsStatement token.kind) = true →
            ∀ other ∈ items, other.defaults? = none := by
        intro seen other member
        rcases Bool.or_eq_true_iff.1 seen with seen | isStatement
        · exact inTime seen other (List.mem_cons_of_mem _ member)
        · exact first other member (starts.statement ▸ isStatement)
      obtain ⟨values, last, goesOn, sameOthers, left, silentOthers⟩ :=
        inductionHypothesis _ spellsOthers restInOrder inTimeOthers
          (by simpa [Cursor.isFull, silentItem] using notFull) aheadOthers
      refine ⟨value :: values, last, fun later final ran' => ?_, ?_, left,
        silentOthers.trans silentItem⟩
      · rw [List.any_cons, ← starts.statement, ← Bool.or_assoc] at ran'
        exact bodyRun_of_item pending starts.notClosing notFull isReader
          (by rw [unreported]; exact ran) (goesOn later final ran')
      · simp only [List.map_cons, same, sameOthers]

/-- The items of a body are read up to its closing brace. -/
theorem bodyRun_accepts
    {items : List BodyItem}
    (seenStatement : Bool)
    {kinds rest : List Token.Kind}
    {cursor : Cursor}
    (spelled : kinds ∈ terminated (items.map BodyItem.spelling))
    (inOrder : BodyItem.InOrder items)
    (inTime :
      seenStatement = true → ∀ item ∈ items, item.defaults? = none)
    (notFull : cursor.isFull = false)
    (ahead : cursor.kinds = kinds ++ .mark .rightBrace :: rest) :
    ∃ read last,
      bodyRun seenStatement cursor = (read, last) ∧
        read.map BodyItem.withoutPlaces =
          items.map BodyItem.withoutPlaces ∧
        last.kinds = .mark .rightBrace :: rest ∧
        last.faults = cursor.faults := by
  obtain ⟨read, last, goesOn, same, left, silent⟩ :=
    bodyRun_of_items seenStatement spelled inOrder inTime notFull ahead
  have closes : last.kind.isMark .rightBrace = true := by
    simp [Cursor.kind_of_kinds left]
  have ran := goesOn [] last (bodyRun_of_closing closes)
  exact ⟨read, last, by rw [ran, List.append_nil], same, left, silent⟩

/-! ## Items of programs -/

/-- The word of a direction. -/
def directionWord :
    Direction →
    Keyword
  | .directed => .directed
  | .undirected => .undirected

/-- A graph is spelled by its head and its body between braces. -/
theorem kinds_of_braces
    {direction : Direction}
    {name : Identifier}
    {bodySpelling : Spellings}
    {kinds : List Token.Kind}
    (spelled :
      kinds ∈
        direction.spelling * Keyword.graph.spelling * name.spelling *
          Mark.leftBrace.spelling * bodySpelling * Mark.rightBrace.spelling) :
    ∃ bodyKinds ∈ bodySpelling,
      kinds =
        .keyword (directionWord direction) ::
          .keyword .graph :: .identifier name.name ::
          .mark .leftBrace :: (bodyKinds ++ [.mark .rightBrace]) := by
  obtain ⟨_, ⟨_, ⟨_, ⟨_, ⟨directionKinds, spellsDirection, _, rfl,
    rfl⟩, _, rfl, rfl⟩, _, rfl, rfl⟩, bodyKinds, spellsBody, rfl⟩,
    _, rfl, rfl⟩ := spelled
  refine ⟨bodyKinds, spellsBody, ?_⟩
  cases direction with
  | directed =>
      cases spellsDirection
      simp [directionWord]
  | undirected =>
      cases spellsDirection
      simp [directionWord]

/-- Read a graph declaration after its opening brace. -/
def graphAfterBrace
    (start : Span)
    (direction : Direction)
    (name : Identifier)
    (opening : Span) :
    Reader GraphDeclaration := do
  let items ← body
  let _ ← closing .rightBrace opening
  return ⟨direction, name, items, ← spanFrom start⟩

/-- Behind the head of a graph, its body is read. -/
theorem graphAfter_run
    {direction : Direction}
    {start : Span}
    {name : String}
    {kinds : List Token.Kind}
    {cursor : Cursor}
    (ahead :
      cursor.kinds =
        .keyword .graph :: .identifier name :: .mark .leftBrace :: kinds) :
    ∃ read opening inside,
      (graphAfter start direction).run cursor =
          (graphAfterBrace start direction read opening).run inside ∧
        read.name = name ∧
        inside.kinds = kinds ∧
        inside.faults = cursor.faults := by
  obtain ⟨_, afterWord, ranWord, _, ahead, silentWord⟩ :=
    keyword_accepts ahead
  obtain ⟨read, afterName, ranName, sameName, ahead, silentName⟩ :=
    identifier_accepts ahead
  obtain ⟨opening, inside, ranMark, _, ahead, silentMark⟩ :=
    mark_accepts ahead
  refine ⟨read, opening, inside, ?_, sameName, ahead,
    silentMark.trans (silentName.trans silentWord)⟩
  simp only [graphAfter, graphAfterBrace, run_bind, ranWord, ranName,
    ranMark]

/-- A graph is complete where its body has been read up to the closing brace. -/
theorem graphAfterBrace_of_body
    {direction : Direction}
    {start opening : Span}
    {name : Identifier}
    {items : List BodyItem}
    {rest : List Token.Kind}
    {inside last : Cursor}
    (ran : bodyRun false inside = (items, last))
    (ahead : last.kinds = .mark .rightBrace :: rest) :
    ∃ read next,
      (graphAfterBrace start direction name opening).run inside =
          (some read, next) ∧
        read.withoutPlaces =
          GraphDeclaration.withoutPlaces ⟨direction, name, items, default⟩ ∧
        next.kinds = rest ∧
        next.faults = last.faults := by
  have closes :
      (closing .rightBrace opening).Accepts last rest fun _ => True :=
    closing_accepts ahead
  obtain ⟨span, next, ranClosing, _, left, silent⟩ := closes
  refine ⟨⟨direction, name, items, start.merge next.previous⟩, next, ?_, rfl,
    left, silent⟩
  simp only [graphAfterBrace, run_bind, body, ran, ranClosing]
  rfl

/-- The rest of a graph declaration is read behind its direction. -/
theorem graphAfter_accepts
    {declaration : GraphDeclaration}
    {start : Span}
    {itemKinds rest : List Token.Kind}
    {cursor : Cursor}
    (spelled :
      itemKinds ∈ terminated (declaration.items.map BodyItem.spelling))
    (inOrder : BodyItem.InOrder declaration.items)
    (notFull : cursor.isFull = false)
    (ahead :
      cursor.kinds =
        .keyword .graph :: .identifier declaration.name.name ::
          .mark .leftBrace :: (itemKinds ++ .mark .rightBrace :: rest)) :
    (graphAfter start declaration.direction).Accepts cursor rest fun read =>
      read.withoutPlaces = declaration.withoutPlaces := by
  obtain ⟨name, opening, inside, ran, sameName, ahead, silent⟩ :=
    graphAfter_run ahead
  obtain ⟨items, last, ranBody, sameItems, left, silentBody⟩ :=
    bodyRun_accepts false spelled inOrder (by simp)
      (by simpa [Cursor.isFull, silent] using notFull) ahead
  obtain ⟨read, next, ranGraph, same, left, silentGraph⟩ :=
    graphAfterBrace_of_body ranBody left
  refine ⟨read, next, ran.trans ranGraph, same.trans ?_, left,
    silentGraph.trans (silentBody.trans silent)⟩
  simp [GraphDeclaration.withoutPlaces, Identifier.withoutPlace, sameName,
    sameItems]

/-- The rest of a command is read behind its keyword. -/
theorem commandAfter_accepts
    {command : Command}
    {start : Span}
    {kinds rest : List Token.Kind}
    {cursor : Cursor}
    (spelled : .keyword .run :: kinds ∈ command.spelling)
    (ahead : cursor.kinds = kinds ++ rest) :
    (commandAfter start).Accepts cursor rest fun read =>
      read.withoutPlaces = command.withoutPlaces := by
  obtain ⟨_, ⟨_, ⟨_, ⟨_, ⟨_, rfl, _, rfl, rfl⟩, _, rfl, rfl⟩, _, rfl, rfl⟩,
    argumentKinds, spellsArguments, rfl⟩, _, rfl, whole⟩ := spelled
  simp only [List.cons_append, List.nil_append, List.cons.injEq,
    true_and] at whole
  subst whole
  simp only [List.cons_append, List.append_assoc,
    List.nil_append] at ahead
  refine (identifier_accepts ahead).bind fun name _ sameName ahead _ => ?_
  refine (keyword_accepts ahead).bind fun _ _ _ ahead _ => ?_
  refine (mark_accepts ahead).bind fun opening _ _ ahead _ => ?_
  refine (arguments_accepts spellsArguments ahead).bind
    fun given _ sameArguments ahead _ => ?_
  refine (closing_accepts ahead).bind fun _ _ _ ahead _ => ?_
  refine .spanFrom fun span => .pure ahead ?_
  simp [Command.withoutPlaces, Identifier.withoutPlace, sameName,
    sameArguments]

/-- A mark that may be left out is accepted written or left out. -/
theorem optionalMark_accepts
    {sign : Mark}
    {kinds rest : List Token.Kind}
    {cursor : Cursor}
    (spelled : kinds ∈ 1 + sign.spelling)
    (ends : (front rest).isMark sign = false)
    (ahead : cursor.kinds = kinds ++ rest) :
    (optionalMark sign).Accepts cursor rest fun _ => True := by
  rcases spelled with rfl | rfl
  · refine .peek (Cursor.kind_of_kinds ahead) ?_
    rw [if_neg (by simp [ends])]
    exact .pure ahead trivial
  · refine .peek (Cursor.kind_of_kinds ahead) ?_
    rw [if_pos (by simp)]
    exact (Accepts.advance ahead).bind
      fun _ _ _ ahead _ => .pure ahead trivial

/-- A graph becomes an item with or without a semicolon. -/
theorem graphItemAfter_accepts
    {declaration : GraphDeclaration}
    {start : Span}
    {itemKinds endKinds rest : List Token.Kind}
    {cursor : Cursor}
    (spelled :
      itemKinds ∈ terminated (declaration.items.map BodyItem.spelling))
    (inOrder : BodyItem.InOrder declaration.items)
    (spellsEnd : endKinds ∈ 1 + Mark.semicolon.spelling)
    (ends : (front rest).isMark .semicolon = false)
    (notFull : cursor.isFull = false)
    (ahead :
      cursor.kinds =
        .keyword .graph :: .identifier declaration.name.name ::
          .mark .leftBrace ::
          (itemKinds ++ .mark .rightBrace :: (endKinds ++ rest))) :
    (graphItemAfter start declaration.direction).Accepts cursor rest
      fun read =>
        read.withoutPlaces = (Item.graph declaration).withoutPlaces := by
  refine (graphAfter_accepts spelled inOrder notFull ahead).bind
    fun read _ same ahead _ => ?_
  refine (optionalMark_accepts spellsEnd ends ahead).bind
    fun _ _ _ ahead _ => .pure ahead ?_
  simp [Item.withoutPlaces, same]

/-- The keyword `var` starts a variable declaration. -/
theorem itemAfter?_of_var
    {token : Token}
    (isVar : token.kind = .keyword .var) :
    itemAfter? token =
      some (.variableDeclaration, do
        let declaration ← variableAfter token.span
        semicolonAfter ItemKind.variableDeclaration.text
        return .binding declaration) := by
  rw [itemAfter?, isVar]

/-- A direction starts a graph declaration. -/
theorem itemAfter?_of_direction
    {token : Token}
    {direction : Direction}
    (isDirection : token.kind = .keyword (directionWord direction)) :
    itemAfter? token =
      some (.graphDeclaration, graphItemAfter token.span direction) := by
  cases direction with
  | directed =>
      rw [directionWord] at isDirection
      rw [itemAfter?, isDirection, graphItemAfter]
  | undirected =>
      rw [directionWord] at isDirection
      rw [itemAfter?, isDirection, graphItemAfter]

/-- The keyword `run` starts a command. -/
theorem itemAfter?_of_run
    {token : Token}
    (isRun : token.kind = .keyword .run) :
    itemAfter? token =
      some (.command, do
        let command ← commandAfter token.span
        semicolonAfter ItemKind.command.text
        return .command command) := by
  rw [itemAfter?, isRun]

/-- A command starts with its word. -/
theorem kinds_of_command
    {command : Command}
    {kinds : List Token.Kind}
    (spelled : kinds ∈ command.spelling) :
    ∃ more, kinds = .keyword .run :: more := by
  obtain ⟨_, ⟨_, ⟨_, ⟨_, ⟨_, rfl, _, _, rfl⟩, _, _, rfl⟩, _, _, rfl⟩,
    _, _, rfl⟩, _, _, rfl⟩ := spelled
  exact ⟨_, rfl⟩

/-- An item of a program is read behind the word that it starts with. -/
theorem itemAfter?_accepts
    {item : Item}
    {kinds : List Token.Kind}
    (spelled : kinds ∈ item.spelling) :
    ∃ word more,
      kinds = .keyword word :: more ∧
        ∀ token,
          token.kind = .keyword word →
          ∃ reader,
            itemAfter? token = some (item.kind, reader) ∧
              ∀ {cursor rest},
                cursor.isFull = false →
                (front rest).isMark .semicolon = false →
                cursor.kinds = more ++ rest →
                reader.Accepts cursor rest fun read =>
                  read.withoutPlaces = item.withoutPlaces := by
  cases item with
  | binding declared =>
      obtain ⟨itemKinds, spellsItem, _, rfl, rfl⟩ := spelled
      obtain ⟨more, rfl⟩ := kinds_of_variable spellsItem
      refine ⟨.var, more ++ [.mark .semicolon], rfl, fun token isVar =>
        ⟨_, itemAfter?_of_var isVar, fun _ _ ahead => ?_⟩⟩
      refine beforeSemicolon_accepts
        (variableAfter_accepts spellsItem (by simpa using ahead)) ?_
      intro read same
      simp [Item.withoutPlaces, same]
  | graph declared =>
      obtain ⟨itemKinds, spellsItem, endKinds, spellsEnd, rfl⟩ := spelled
      obtain ⟨inOrder, spellsGraph⟩ := spellsItem
      obtain ⟨bodyKinds, spellsBody, rfl⟩ := kinds_of_braces spellsGraph
      refine ⟨directionWord declared.direction, _, rfl,
        fun token isDirection =>
          ⟨_, itemAfter?_of_direction isDirection,
            fun notFull ends ahead => ?_⟩⟩
      exact graphItemAfter_accepts spellsBody inOrder spellsEnd ends notFull
        (by simpa using ahead)
  | command given =>
      obtain ⟨itemKinds, spellsItem, _, rfl, rfl⟩ := spelled
      obtain ⟨more, rfl⟩ := kinds_of_command spellsItem
      refine ⟨.run, more ++ [.mark .semicolon], rfl, fun token isRun =>
        ⟨_, itemAfter?_of_run isRun, fun _ _ ahead => ?_⟩⟩
      refine beforeSemicolon_accepts
        (commandAfter_accepts spellsItem (by simpa using ahead)) ?_
      intro read same
      simp [Item.withoutPlaces, same]

/-- An item in its order is not reported. -/
theorem checkOrder_of_follows
    {latest : Option ItemKind}
    {kind : ItemKind}
    (follows : Follows latest kind)
    (cursor : Cursor) :
    checkOrder latest kind cursor = cursor := by
  unfold checkOrder
  split
  · next earlier =>
    rw [if_neg (Nat.not_lt.2 (follows earlier rfl))]
  · rfl

/-- An item of a program is read, and so are the ones behind it. -/
theorem itemsRun_of_item
    {latest : Option ItemKind}
    {cursor next last : Cursor}
    {token : Token}
    {rest : List Token}
    {kind : ItemKind}
    {reader : Reader Item}
    {item : Item}
    {items : List Item}
    (ahead : cursor.pending = token :: rest)
    (notFull : cursor.isFull = false)
    (starts : itemAfter? token = some (kind, reader))
    (ran :
      reader.run (checkOrder latest kind cursor).advance =
        (some item, next))
    (ranOthers :
      itemsRun (laterKind latest kind) next = (items, last)) :
    itemsRun latest cursor = (item :: items, last) := by
  rw [itemsRun]
  split
  · next none =>
    simp [none] at ahead
  · next first others pending =>
    obtain ⟨rfl, rfl⟩ := List.cons.inj (pending.symm.trans ahead)
    rw [if_neg (by simp [notFull])]
    simp only [starts]
    split
    · next value middle ranFound =>
      obtain ⟨⟨⟩, ⟨⟩⟩ := Prod.mk.inj (ran.symm.trans ranFound)
      rw [ranOthers]
    · next failed =>
      simp [ran] at failed

/-- No item of a program starts with a semicolon. -/
theorem front_of_items
    {items : List Item}
    {kinds rest : List Token.Kind}
    (spelled : kinds ∈ (items.map Item.spelling).prod)
    (ends : (front rest).isMark .semicolon = false) :
    (front (kinds ++ rest)).isMark .semicolon = false := by
  cases items with
  | nil =>
      cases spelled
      exact ends
  | cons item items =>
      rw [List.map_cons, List.prod_cons] at spelled
      obtain ⟨_, spellsItem, _, _, rfl⟩ := spelled
      obtain ⟨_, _, rfl, _⟩ := itemAfter?_accepts spellsItem
      rfl

/-- The items ahead are read, and the program is read on behind them. -/
theorem itemsRun_of_items
    {items : List Item}
    (latest : Option ItemKind)
    {kinds rest : List Token.Kind}
    {cursor : Cursor}
    (spelled : kinds ∈ (items.map Item.spelling).prod)
    (inOrder : Item.InOrder items)
    (follows : ∀ item ∈ items, Follows latest item.kind)
    (ends : (front rest).isMark .semicolon = false)
    (notFull : cursor.isFull = false)
    (ahead : cursor.kinds = kinds ++ rest) :
    ∃ read reached next,
      (∀ others last,
        itemsRun reached next = (others, last) →
        itemsRun latest cursor = (read ++ others, last)) ∧
        read.map Item.withoutPlaces = items.map Item.withoutPlaces ∧
        (∀ kind,
          Follows latest kind →
          (∀ item ∈ items, item.kind.rank ≤ kind.rank) →
          Follows reached kind) ∧
        next.kinds = rest ∧
        next.faults = cursor.faults := by
  induction items generalizing latest kinds cursor with
  | nil =>
      cases spelled
      exact ⟨[], latest, cursor, by simp, rfl, fun _ follows _ => follows,
        ahead, rfl⟩
  | cons item items inductionHypothesis =>
      rw [List.map_cons, List.prod_cons] at spelled
      obtain ⟨itemKinds, spellsItem, otherKinds, spellsOthers, rfl⟩ := spelled
      obtain ⟨word, more, rfl, accepts⟩ := itemAfter?_accepts spellsItem
      obtain ⟨first, restInOrder⟩ := List.pairwise_cons.1 inOrder
      have endsItem := front_of_items spellsOthers ends
      simp only [List.cons_append, List.append_assoc] at ahead
      obtain ⟨token, others, pending, isWord, _⟩ :=
        Cursor.pending_of_kinds ahead
      obtain ⟨reader, isReader, acceptsRest⟩ := accepts token isWord
      have followsItem : Follows latest item.kind :=
        follows item (by simp)
      have stillNotFull : cursor.advance.isFull = false := by
        simpa [Cursor.isFull, Cursor.faults_advance] using notFull
      obtain ⟨value, next, ran, same, aheadOthers, silent⟩ :=
        acceptsRest stillNotFull endsItem (Cursor.kinds_advance ahead)
      have silentItem : next.faults = cursor.faults :=
        silent.trans (Cursor.faults_advance cursor)
      have latestIs : laterKind latest item.kind = item.kind :=
        laterKind_of_follows followsItem
      have followsOthers :
          ∀ other ∈ items,
            Follows (laterKind latest item.kind) other.kind := by
        intro other member
        rw [latestIs]
        rintro _ ⟨⟩
        exact first other member
      obtain ⟨values, reached, last, goesOn, sameOthers, followsReached, left,
        silentOthers⟩ :=
        inductionHypothesis _ spellsOthers restInOrder followsOthers
          (by simpa [Cursor.isFull, silentItem] using notFull) aheadOthers
      refine ⟨value :: values, reached, last, fun later final ranLater => ?_,
        ?_, fun kind _ least => ?_, left, silentOthers.trans silentItem⟩
      · exact itemsRun_of_item pending notFull isReader
          (by rw [checkOrder_of_follows followsItem]; exact ran)
          (goesOn later final ranLater)
      · simp only [List.map_cons, same, sameOthers]
      · refine followsReached kind ?_ fun other member =>
          least other (List.mem_cons_of_mem _ member)
        rw [latestIs]
        rintro _ ⟨⟩
        exact least item (by simp)

/-- Items in order are read up to the end of the text. -/
theorem itemsRun_accepts
    {items : List Item}
    (latest : Option ItemKind)
    {kinds : List Token.Kind}
    {cursor : Cursor}
    (spelled : kinds ∈ (items.map Item.spelling).prod)
    (inOrder : Item.InOrder items)
    (follows : ∀ item ∈ items, Follows latest item.kind)
    (notFull : cursor.isFull = false)
    (ahead : cursor.kinds = kinds) :
    ∃ read last,
      itemsRun latest cursor = (read, last) ∧
        read.map Item.withoutPlaces = items.map Item.withoutPlaces ∧
        last.faults = cursor.faults := by
  have nothingElse : cursor.kinds = kinds ++ [] := by
    rw [ahead, List.append_nil]
  have ends : (front []).isMark .semicolon = false :=
    rfl
  obtain ⟨read, reached, last, goesOn, same, _, left, silent⟩ :=
    itemsRun_of_items latest spelled inOrder follows ends notFull nothingElse
  have ended : itemsRun reached last = ([], last) := by
    have none : last.pending = [] := List.map_eq_nil_iff.1 left
    rw [itemsRun]
    split
    · rfl
    · next pending =>
      simp [none] at pending
  have ran := goesOn [] last ended
  exact ⟨read, last, by rw [ran, List.append_nil], same, silent⟩

end Reader

namespace Program

/-- The items of a program, in the order in which they are written. -/
def items
    (program : Program) :
    List Item :=
  program.bindings.map .binding ++
    (program.graphs.map .graph ++ program.commands.map .command)

/-- A program is put together again from its items. -/
theorem ofItems_items
    (program : Program)
    (span : Span) :
    ofItems program.items span = { program with span } := by
  rcases program with ⟨bindings, graphs, commands, _⟩
  simp [ofItems, items, List.filterMap_append, List.filterMap_map,
    Function.comp_def, Item.binding?, Item.graph?, Item.command?]

/-- The items of a program are listed in the order they may be written. -/
theorem items_inOrder
    (program : Program) :
    Item.InOrder program.items := by
  simp [Item.InOrder, items, List.pairwise_append, List.pairwise_map,
    List.pairwise_of_forall, Item.kind, ItemKind.rank]

/-- The spellings of a program are those of its items, one after the other. -/
theorem prod_spelling_items
    (program : Program) :
    (program.items.map Item.spelling).prod = program.spelling := by
  rw [Item.prod_spelling program.items_inOrder program.span, ofItems_items]

/-- Items that agree up to places make programs that agree up to places. -/
theorem withoutPlaces_of_items
    {program : Program}
    {read : List Item}
    {span : Span}
    (same :
      read.map Item.withoutPlaces =
        program.items.map Item.withoutPlaces) :
    (ofItems read span).withoutPlaces = program.withoutPlaces := by
  rw [withoutPlaces_ofItems, same, ← withoutPlaces_ofItems _ span,
    ofItems_items]
  rfl

/--
Each spelling of a well-formed program, of which there is at least one, is read
without a fault as that program.
-/
theorem reading_undoes_writing
    {program : Program}
    (wellFormed : program.WellFormed) :
    (∃ kinds, kinds ∈ program.spelling) ∧
      ∀ (tokens : List Token) (finish : Token),
        tokens.map (·.kind) ∈ program.spelling →
        finish.kind.isEndOfFile = true →
        (ofTokens (tokens ++ [finish])).faults = [] ∧
          (ofTokens (tokens ++ [finish])).program.withoutPlaces =
            program.withoutPlaces := by
  refine ⟨writable_spelling.2 wellFormed, fun tokens finish spelled finished => ?_⟩
  rw [← prod_spelling_items] at spelled
  have unfinished : ∀ token ∈ tokens, token.kind.isEndOfFile = false :=
    fun token member => Item.unfinished_prod_spelling _ _ spelled _
      (List.mem_map_of_mem member)
  have ahead := Cursor.kinds_ofTokens unfinished finished
  obtain ⟨read, last, ran, same, silent⟩ :=
    Reader.itemsRun_accepts none spelled program.items_inOrder
      (by simp [Reader.Follows]) rfl ahead
  simp only [ofTokens, ran]
  exact ⟨silent, withoutPlaces_of_items same⟩

/-- The two words, the trailing comma and the last semicolon are free to choose. -/
theorem reading_undoes_writing_of_graph :
    let name (text : String) : Identifier := ⟨text, default⟩
    let items : List BodyItem :=
      [.defaults
        ⟨.graph,
          .list ⟨[⟨name "k", .assign, .word "run", default⟩], default⟩,
          default⟩,
        .statement (.node ⟨.list [name "a"], none, default⟩)]
    let program : Program :=
      ⟨[], [⟨.directed, name "g", items, default⟩], [], default⟩
    let kinds : List Token.Kind :=
      [.keyword .directed, .keyword .graph, .identifier "g",
        .mark .leftBrace, .keyword .attributes, .mark .leftBracket,
        .identifier "k", .mark .equals, .keyword .run, .mark .comma,
        .mark .rightBracket, .mark .semicolon, .identifier "a",
        .mark .semicolon, .mark .rightBrace, .mark .semicolon]
    let reading :=
      ofTokens (kinds.map (⟨·, default⟩) ++ [⟨.endOfFile, default⟩])
    reading.faults = [] ∧
      reading.program.withoutPlaces = program.withoutPlaces := by
  intro name items program kinds reading
  have inOrder : BodyItem.InOrder items := by
    simp [items, BodyItem.InOrder, BodyItem.mentionsNodes]
  have wellFormed : program.WellFormed :=
    ⟨by simp [program],
      by simp [program, items, inOrder, GraphDeclaration.WellFormed,
        BodyItem.WellFormed, Statement.WellFormed, NodeTarget.WellFormed,
        AttributeSource.WellFormed, AttributeList.WellFormed],
      by simp [program]⟩
  have graph :
      kinds.dropLast ∈
        GraphDeclaration.spelling ⟨.directed, name "g", items, default⟩ := by
    refine ⟨inOrder, ?_⟩
    simp [kinds, items, name, Direction.spelling, Mark.spelling,
      Keyword.spelling, Keyword.text, Identifier.spelling,
      BodyItem.spelling, DefaultDeclaration.spelling,
      DefaultTarget.spelling, AttributeSource.spelling,
      AttributeSource.optionalSpelling, AttributeList.spelling,
      Attribute.spelling, Separator.spelling, Scalar.spelling,
      Statement.spelling, NodeStatement.spelling, NodeTarget.spelling,
      Spellings.separated, mul_assoc, add_mul, Language.mem_add,
      cons_mem_alone_mul, identifier_cons_mem_anyName_mul,
      keyword_cons_mem_anyName_mul]
  have terminated :=
    Language.append_mem_mul graph
      (show [.mark .semicolon] ∈ 1 + Mark.semicolon.spelling from .inr rfl)
  have spelled : kinds ∈ program.spelling := by
    simp only [program, spelling, List.map_cons, List.map_nil,
      List.prod_cons, List.prod_nil, terminated_nil, one_mul, mul_one]
    exact terminated
  have sameKinds :
      (kinds.map fun kind => (⟨kind, default⟩ : Token)).map (·.kind) =
        kinds := by
    simp [Function.comp_def]
  exact (reading_undoes_writing wellFormed).2 _ ⟨.endOfFile, default⟩
    (sameKinds ▸ spelled) rfl

end Program

end GraphScript
