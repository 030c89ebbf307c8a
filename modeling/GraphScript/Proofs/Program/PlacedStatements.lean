import GraphScript.Proofs.Program.PlacedReading
import GraphScript.Proofs.Program.StatementSoundness

namespace GraphScript

/-!
# The parts of statements stand in their tokens

Every reader of a statement, a declaration or a part of one gives a part that
stands in the tokens it was read from.
-/

open Spellings GraphScript.Part

namespace Reader

variable {α β : Type}

/-! ## Single tokens -/

/-- A mark is at the place of its token. -/
theorem mark_places
    (sign : Mark) :
    (mark sign).Places fun span tokens => tokens = [⟨.mark sign, span⟩] := by
  intro cursor
  refine .peek ?_
  split
  · next isMark =>
    exact .token (Token.Kind.eq_mark isMark) (by simp)
  · exact .unexpected

/-- A closing mark is at the place of its token. -/
theorem closing_places
    (sign : Mark)
    (opening : Span) :
    (closing sign opening).Places fun span tokens =>
      tokens = [⟨.mark sign, span⟩] := by
  intro cursor
  refine .peek ?_
  split
  · next isMark =>
    exact .token (Token.Kind.eq_mark isMark) (by simp)
  · exact .unexpected

/-- A keyword is at the place of its token. -/
theorem keyword_places
    (word : Keyword) :
    (keyword word).Places fun span tokens =>
      tokens = [⟨.keyword word, span⟩] := by
  intro cursor
  refine .peek ?_
  split
  · next found isKeyword =>
    split
    · next same =>
      subst same
      exact .token isKeyword (by simp)
    · exact .unexpected
  · exact .unexpected

/-- An identifier has the name and the place of its token. -/
theorem identifier_places :
    identifier.Places fun name tokens =>
      tokens = [⟨.identifier name.name, name.span⟩] := by
  intro cursor
  refine .peek ?_
  split
  · next name isName =>
    exact .advance isName (by simp) fun _ _ => .pure rfl
  · exact .fail
  · exact .unexpected

end Reader

namespace Part

/-- A token joins its own ends. -/
theorem joinsEnds_singleton
    (token : Token) :
    token.span.JoinsEnds [token] :=
  ⟨token, token, rfl, rfl, (Span.merge_self token.span).symm⟩

/-- A name stands in the token that it is. -/
theorem standIn_name
    (name : Identifier) :
    StandIn [.name name] [⟨.identifier name.name, name.span⟩] :=
  .single ⟨.inl rfl, joinsEnds_singleton _⟩ (.nil _)

end Part

namespace Reader

/-- A name, also one that is a keyword, has the place of its token. -/
theorem anyName_places :
    Reader.anyName.Places fun name tokens =>
      name.span.Begins tokens ∧ StandIn [.name name] tokens := by
  intro cursor
  refine .peek ?_
  split
  · next name isName =>
    exact .advance isName (by simp) fun span _ =>
      .pure ⟨rfl, standIn_name ⟨name, span⟩⟩
  · next word isKeyword =>
    exact .advance isKeyword (by simp) fun span _ =>
      .pure ⟨rfl, .single ⟨.inr ⟨word, rfl, rfl⟩, joinsEnds_singleton _⟩
        (.nil _)⟩
  · exact .unexpected

/-- A name stands in its token. -/
theorem anyName_stands :
    Reader.anyName.Places fun name tokens => StandIn [.name name] tokens :=
  fun cursor => (anyName_places cursor).mono fun _ _ found => found.2

/-- An identifier stands in its token. -/
theorem identifier_stands :
    identifier.Places fun name tokens => StandIn [.name name] tokens := by
  refine fun cursor => (identifier_places cursor).mono ?_
  rintro name _ rfl
  exact standIn_name name

/-! ## Lists -/

/-- The further members of a list stand in their tokens, one behind another. -/
theorem further_places
    {sign : Mark}
    {stop : Token.Kind → Bool}
    {member : Reader α}
    {toPart : α → Part}
    (places : member.Places fun value tokens => StandIn [toPart value] tokens) :
    (Reader.further sign stop member).Places fun values tokens =>
      StandIn (values.map toPart) tokens := by
  intro cursor _
  simp only [Reader.further, List.nil_append]
  fun_induction furtherRun sign stop member cursor with
  | case1 cursor =>
      refine ⟨[], .refl cursor, ?_⟩
      rintro _ ⟨⟩
      exact .nil []
  | case2 cursor token rest ahead isSign stops =>
      refine ⟨[token], Cursor.stepsOver_token ahead, ?_⟩
      rintro _ ⟨⟩
      exact .nil [token]
  | case3 cursor token rest ahead isSign goesOn next ran =>
      obtain ⟨tokens, steps, _⟩ :=
        places cursor.advance cursor.advance.behind_nil
      rw [ran] at steps
      refine ⟨_, (Cursor.stepsOver_token ahead).trans steps, ?_⟩
      rintro _ ⟨⟩
  | case4 cursor token rest ahead isSign goesOn value next ran shorter values
      last more inductionHypothesis =>
      obtain ⟨tokens, steps, gives⟩ :=
        places cursor.advance cursor.advance.behind_nil
      rw [ran] at steps gives
      rw [more] at inductionHypothesis
      obtain ⟨others, stepsOthers, givesOthers⟩ :=
        inductionHypothesis next.behind_nil
      refine ⟨_, ((Cursor.stepsOver_token ahead).trans steps).trans stepsOthers,
        ?_⟩
      rintro _ ⟨⟩
      exact ((gives value rfl).behind [token]).append (givesOthers values rfl)
  | case5 cursor token rest ahead isSign goesOn value next ran shorter last
      more inductionHypothesis =>
      obtain ⟨tokens, steps, _⟩ :=
        places cursor.advance cursor.advance.behind_nil
      rw [ran] at steps
      rw [more] at inductionHypothesis
      obtain ⟨others, stepsOthers, _⟩ := inductionHypothesis next.behind_nil
      refine ⟨_, ((Cursor.stepsOver_token ahead).trans steps).trans stepsOthers,
        ?_⟩
      rintro _ ⟨⟩
  | case6 cursor =>
      refine ⟨[], .refl cursor, ?_⟩
      rintro _ ⟨⟩
      exact .nil []

/-! ## Attributes, paths and arguments -/

/-- A reference stands in the dollar sign and the name behind it. -/
theorem referenceAfter_places
    (dollar : Span)
    (cursor : Cursor) :
    (referenceAfter dollar).PlacesFrom cursor [⟨.mark .dollar, dollar⟩]
      fun name tokens => StandIn [.reference name] tokens := by
  refine .part Part.reference (referenceAfter_reads dollar cursor) ?_
  refine (identifier_places cursor).bind ?_
  rintro name _ next rfl
  exact .pure ⟨⟨_, _, rfl, rfl, rfl⟩, .nil _⟩

/-- A separator is one token, which has no part of its own. -/
theorem separator_steps :
    separator.Steps := by
  intro cursor
  refine .peek ?_
  split
  · next isEquals =>
    exact .advance isEquals (by simp) fun _ _ => .pure trivial
  · next isColon =>
    exact .advance isColon (by simp) fun _ _ => .pure trivial
  · exact .unexpected

/-- A value is one token, which has no part of its own. -/
theorem scalar_steps :
    scalar.Steps := by
  intro cursor
  refine .peek ?_
  split
  · next name isName =>
    exact .advance isName (by simp) fun _ _ => .pure trivial
  · next value isNumber =>
    exact .advance isNumber (by simp) fun _ _ => .pure trivial
  · next contents isString =>
    exact .advance isString (by simp) fun _ _ => .pure trivial
  · next word isKeyword =>
    exact .advance isKeyword (by simp) fun _ _ => .pure trivial
  · exact .unexpected

/-- A pair stands in its key, its sign and its value. -/
theorem attributePair_places :
    attributePair.Places fun pair tokens =>
      StandIn [.pair pair] tokens := by
  intro cursor
  refine .part Part.pair (attributePair_reads cursor) ?_
  refine (anyName_places cursor).bind
    fun key keyTokens _ ⟨begins, stands⟩ => ?_
  refine (separator_steps _).bind fun sign signTokens _ _ => ?_
  refine (scalar_steps _).bind fun value valueTokens _ _ => ?_
  refine .spanFrom ((begins.append signTokens).append valueTokens)
    fun span joins => .pure ⟨joins, ?_⟩
  exact (stands.before signTokens).before valueTokens

/-- An attribute list stands in its tokens with both brackets. -/
theorem attributeList_places :
    attributeList.Places fun list tokens =>
      StandIn [.attributeList list] tokens := by
  intro cursor
  refine .part Part.attributeList (attributeList_reads cursor) ?_
  refine (mark_places .leftBracket cursor).bind ?_
  rintro opening _ next rfl
  refine .peek ?_
  split
  · exact .failPast
  · refine (attributePair_places next).bind fun first firstTokens _ stands => ?_
    refine (further_places attributePair_places _).bind
      fun others otherTokens _ standOthers => ?_
    refine (closing_places .rightBracket opening _).bind
      fun _ closeTokens _ _ => ?_
    refine .spanFrom rfl fun span joins => .pure ⟨joins, ?_⟩
    exact ((stands.behind _).append standOthers).before closeTokens

/-- Attributes stand in their tokens, and missing ones in none. -/
theorem attributes?_places :
    attributes?.Places fun source tokens =>
      StandIn (AttributeSource.optionalParts source) tokens := by
  intro cursor
  refine .peek ?_
  split
  · exact (attributeList_places cursor).bind fun _ _ _ stands => .pure stands
  · next isDollar =>
    refine .advance isDollar (by simp) fun dollar next => ?_
    exact (referenceAfter_places dollar next).bindWhole
      fun _ _ _ stands => .pure stands
  · exact .pure (.nil [])

/-- A path stands in its names and the dots between them. -/
theorem path_places :
    path.Places fun followed tokens => StandIn [.path followed] tokens := by
  intro cursor
  refine .part Part.path (path_reads cursor) ?_
  refine (identifier_places cursor).bind ?_
  rintro first _ next rfl
  refine (further_places anyName_stands next).bind
    fun others otherTokens _ standOthers => ?_
  exact .spanFrom rfl fun span joins =>
    .pure ⟨joins, (standIn_name first).append standOthers⟩

/-- A path stands in its tokens, and a literal is no part. -/
theorem argumentSource_places :
    argumentSource.Places fun source tokens =>
      StandIn source.parts tokens := by
  intro cursor
  refine .peek ?_
  split
  · exact (path_places cursor).bind fun _ _ _ stands => .pure stands
  · exact (scalar_steps cursor).bind fun _ tokens _ _ => .pure (.nil tokens)

/-- An argument stands in its key, its sign and its value. -/
theorem argument_places :
    argument.Places fun given tokens => StandIn [.argument given] tokens := by
  intro cursor
  refine .part Part.argument (argument_reads cursor) ?_
  refine (anyName_places cursor).bind
    fun key keyTokens _ ⟨begins, stands⟩ => ?_
  refine (separator_steps _).bind fun sign signTokens _ _ => ?_
  refine (argumentSource_places _).bind
    fun source sourceTokens _ standSource => ?_
  refine .spanFrom ((begins.append signTokens).append sourceTokens)
    fun span joins => .pure ⟨joins, ?_⟩
  exact (stands.before signTokens).append standSource

/-! ## Declarations and statements -/

theorem edgeOperator_steps :
    edgeOperator.Steps := by
  intro cursor
  refine .peek ?_
  split
  · next sign isOperator =>
    exact .advance (Token.Kind.eq_operator isOperator) (by simp)
      fun _ _ => .pure trivial
  · exact .unexpected

/-- An edge stands in its tokens, of which the left end was read before. -/
theorem edgeAfter_places
    (left : Identifier)
    (cursor : Cursor) :
    (edgeAfter left).PlacesFrom cursor [⟨.identifier left.name, left.span⟩]
      fun written tokens => StandIn [.edge written] tokens := by
  refine .part Part.edge (edgeAfter_reads rfl cursor) ?_
  refine (edgeOperator_steps cursor).bind fun sign signTokens _ _ => ?_
  refine (identifier_stands _).bind fun right rightTokens _ standsRight => ?_
  refine (attributes?_places _).bind
    fun attributes attributeTokens _ standAttributes => ?_
  exact .spanFrom rfl fun span joins =>
    .pure ⟨joins,
      (((standIn_name left).before signTokens).append standsRight).append
        standAttributes⟩

/-- An edge stands in its tokens. -/
theorem edge_places :
    edge.Places fun written tokens => StandIn [.edge written] tokens := by
  intro cursor
  refine (identifier_places cursor).bind ?_
  rintro left _ next rfl
  exact edgeAfter_places left next

theorem variableType_steps :
    variableType.Steps := by
  intro cursor
  refine .peek ?_
  split
  · next isKeyword =>
    exact .advance isKeyword (by simp) fun _ _ => .pure trivial
  · next isKeyword =>
    exact .advance isKeyword (by simp) fun _ _ => .pure trivial
  · next isKeyword =>
    exact .advance isKeyword (by simp) fun _ _ => .pure trivial
  · exact .unexpected

/-- The nodes or edges of a right-hand side stand in their tokens. -/
theorem namesAfter_places
    (first : Identifier)
    (cursor : Cursor) :
    (namesAfter first).PlacesFrom cursor [⟨.identifier first.name, first.span⟩]
      fun source tokens => StandIn source.parts tokens := by
  refine .peek ?_
  split
  · refine (edgeAfter_places first cursor).bindWhole
      fun firstEdge _ next stands => ?_
    refine (further_places edge_places next).bind
      fun others _ _ standOthers => ?_
    exact .pure (stands.append standOthers)
  · refine (further_places identifier_stands cursor).bind
      fun others _ _ standOthers => ?_
    exact .pure ((standIn_name first).append standOthers)

/-- The parts of a right-hand side stand in its tokens. -/
theorem variableSource_places :
    variableSource.Places fun source tokens =>
      StandIn source.parts tokens := by
  intro cursor
  refine .peek ?_
  split
  · next isDollar =>
    refine .advance isDollar (by simp) fun dollar next => ?_
    exact (referenceAfter_places dollar next).bindWhole
      fun _ _ _ stands => .pure stands
  · exact (attributeList_places cursor).bind fun _ _ _ stands => .pure stands
  · refine (identifier_places cursor).bind ?_
    rintro first _ next rfl
    exact namesAfter_places first next
  · exact .unexpected

/-- A variable declaration stands in its tokens, from its first word on. -/
theorem variableAfter_places
    (start : Span)
    (cursor : Cursor) :
    (variableAfter start).PlacesFrom cursor [⟨.keyword .var, start⟩]
      fun declared tokens => StandIn [.binding declared] tokens := by
  refine .part Part.binding (variableAfter_reads start cursor) ?_
  refine (variableType_steps cursor).bind fun type typeTokens _ _ => ?_
  refine (identifier_stands _).bind fun name nameTokens _ standsName => ?_
  refine (mark_places .equals _).bind fun _ equalsTokens _ _ => ?_
  refine (variableSource_places _).bind
    fun source sourceTokens _ standsSource => ?_
  exact .spanFrom rfl fun span joins =>
    .pure ⟨joins,
      ((standsName.behind _).before equalsTokens).append standsSource⟩

/-- A default declaration stands in its tokens, from its first word on. -/
theorem defaultsAfter_places
    {word : Keyword}
    {target : DefaultTarget}
    (spellsTarget : [.keyword word] ∈ target.spelling)
    (start : Span)
    (cursor : Cursor) :
    (defaultsAfter start target).PlacesFrom cursor [⟨.keyword word, start⟩]
      fun declared tokens => StandIn [.defaults declared] tokens := by
  refine .part Part.defaults (defaultsAfter_reads spellsTarget start cursor) ?_
  refine (attributes?_places cursor).bind
    fun source? sourceTokens _ stands => ?_
  cases source? with
  | some source =>
      exact .spanFrom rfl fun span joins => .pure ⟨joins, stands.behind _⟩
  | none =>
      exact .unexpected

/-- A node statement stands in the tokens of its target and of its attributes. -/
theorem nodeAfter_places
    (target : NodeTarget)
    {targetTokens : List Token}
    {start : Span}
    (spellsTarget : targetTokens.map (·.kind) ∈ target.spelling)
    (begins : start.Begins targetTokens)
    (stands : StandIn target.parts targetTokens)
    (cursor : Cursor) :
    (nodeAfter start target).PlacesFrom cursor targetTokens
      fun written tokens => StandIn [.nodes written] tokens := by
  refine .part Part.nodes (nodeAfter_reads target spellsTarget start cursor) ?_
  refine (attributes?_places cursor).bind
    fun attributes attributeTokens _ standAttributes => ?_
  exact .spanFrom (begins.append attributeTokens) fun span joins =>
    .pure ⟨joins, stands.append standAttributes⟩

/-- A statement stands in its tokens, from the first name on. -/
theorem statementAfter_places
    (first : Identifier)
    (cursor : Cursor) :
    (statementAfter first).PlacesFrom cursor
      [⟨.identifier first.name, first.span⟩]
      fun written tokens => StandIn [written.part] tokens := by
  refine .peek ?_
  split
  · exact (edgeAfter_places first cursor).bindWhole
      fun _ _ _ stands => .pure stands
  · refine ((further_places identifier_stands cursor).spelled
      (further_reads_untrailed identifier_reads cursor)).bind
      fun others otherTokens next ⟨spellsOthers, standOthers⟩ => ?_
    have spellsFirst : [.identifier first.name] ∈ first.spelling := rfl
    have spellsTarget :
        (⟨.identifier first.name, first.span⟩ :: otherTokens : List Token).map
            (·.kind) ∈
          (NodeTarget.list (first :: others)).spelling :=
      Language.append_mem_mul spellsFirst spellsOthers
    exact (nodeAfter_places (.list (first :: others)) spellsTarget rfl
      ((standIn_name first).append standOthers) next).bindWhole
      fun _ _ _ stands => .pure stands

/-- A statement about a variable stands in its tokens, with the dollar sign. -/
theorem referenceStatementAfter_places
    (dollar : Span)
    (cursor : Cursor) :
    (referenceStatementAfter dollar).PlacesFrom cursor [⟨.mark .dollar, dollar⟩]
      fun written tokens => StandIn [written.part] tokens := by
  refine ((referenceAfter_places dollar cursor).spelled
    (referenceAfter_reads dollar cursor)).begun.bindWhole ?_
  rintro name _ next ⟨⟨more, rfl⟩, spells, stands⟩
  exact (nodeAfter_places (.reference name) spells rfl stands
    next).bindWhole fun _ _ _ stands => .pure stands

end Reader

end GraphScript
