import GraphScript.Proofs.Program.Reading

namespace GraphScript

/-!
# Statements that are read are what is written

Every reader of a statement, a declaration or a part of one takes a spelling of
what it gives or reports a fault.
-/

open Spellings

namespace Token.Kind

/-- What tests as a mark is that mark. -/
theorem eq_mark
    {kind : Token.Kind}
    {sign : Mark}
    (isMark : kind.isMark sign = true) :
    kind = .mark sign := by
  cases kind with
  | mark found =>
      rw [of_decide_eq_true isMark]
  | _ =>
      cases isMark

/-- What tests as an edge operator is that operator. -/
theorem eq_operator
    {kind : Token.Kind}
    {sign : EdgeOperator}
    (isOperator : kind.operator? = some sign) :
    kind = .operator sign := by
  cases kind with
  | operator found =>
      rw [Option.some.inj isOperator]
  | _ =>
      cases isOperator

end Token.Kind

namespace Reader

variable {α β : Type}

/-! ## Single tokens -/

/-- A mark is read from its token. -/
theorem mark_reads
    (sign : Mark) :
    (mark sign).Reads fun _ => sign.spelling := by
  intro cursor
  refine .peek ?_
  split
  · next isMark =>
    exact .token (Token.Kind.eq_mark isMark) (by simp)
  · exact .unexpected

/-- A closing mark is read from its token. -/
theorem closing_reads
    (sign : Mark)
    (opening : Span) :
    (closing sign opening).Reads fun _ => sign.spelling := by
  intro cursor
  refine .peek ?_
  split
  · next isMark =>
    exact .token (Token.Kind.eq_mark isMark) (by simp)
  · exact .unexpected

/-- A keyword is read from its token. -/
theorem keyword_reads
    (word : Keyword) :
    (keyword word).Reads fun _ => word.spelling := by
  intro cursor
  refine .peek ?_
  split
  · next found isKeyword =>
    split
    · next same =>
      subst same
      exact .token isKeyword (by simp)
    · exact .unexpected
  · exact .unexpected

/-- An identifier is read from its token, and no keyword is read as one. -/
theorem identifier_reads :
    identifier.Reads Identifier.spelling := by
  intro cursor
  refine .peek ?_
  split
  · next name isName =>
    exact .advance isName (by simp) fun _ _ => .pure rfl
  · exact .fail
  · exact .unexpected

/-- A name is read from an identifier or from the keyword that is written so. -/
theorem anyName_reads :
    Reader.anyName.Reads fun name => Spellings.anyName name.name := by
  intro cursor
  refine .peek ?_
  split
  · next name isName =>
    exact .advance isName (by simp) fun _ _ => .pure (.inl rfl)
  · next word isKeyword =>
    exact .advance isKeyword (by simp)
      fun _ _ => .pure (.inr ⟨word, rfl, rfl⟩)
  · exact .unexpected

/-! ## Lists -/

/-- Where a mark comes next, stepping over it takes it. -/
theorem takes_mark
    {cursor : Cursor}
    {token : Token}
    {rest : List Token}
    {sign : Mark}
    (ahead : cursor.pending = token :: rest)
    (isSign : token.kind.isMark sign = true) :
    cursor.Takes [.mark sign] cursor.advance :=
  Token.Kind.eq_mark isSign ▸ Cursor.takes_token ahead

/--
The further members of a list are spelled with a mark before each.

`trailing` is what may follow the last member: nothing, or a mark where the
token behind it stops the list.
-/
theorem further_reads
    {sign : Mark}
    {stop : Token.Kind → Bool}
    {member : Reader α}
    {spelled : α → Spellings}
    (trailing : Spellings)
    (reads : member.Reads spelled)
    (mayEnd : [] ∈ trailing)
    (mayStop : ∀ kind, stop kind = true → [.mark sign] ∈ trailing) :
    (Reader.further sign stop member).Reads fun values =>
      Spellings.further sign (values.map spelled) * trailing := by
  intro cursor
  simp only [ReadsFrom, Reader.further, List.nil_append]
  fun_induction furtherRun sign stop member cursor with
  | case1 cursor =>
      exact .inr ⟨[], [], rfl, .refl cursor, by simpa using mayEnd⟩
  | case2 cursor token rest ahead isSign stops =>
      exact .inr ⟨[], [.mark sign], rfl, takes_mark ahead isSign,
        by simpa using mayStop _ stops⟩
  | case3 cursor token rest ahead isSign goesOn next ran =>
      have faulted := (reads cursor.advance).of_none ran
      exact .inl ⟨rfl,
        faulted.of_silent_left (takes_mark ahead isSign).silent⟩
  | case4 cursor token rest ahead isSign goesOn value next ran shorter values
      last more inductionHypothesis =>
      obtain ⟨kinds, takes, spells⟩ := (reads cursor.advance).of_some ran
      have takesBoth := (takes_mark ahead isSign).trans takes
      simp only [more] at inductionHypothesis
      rcases inductionHypothesis with
          ⟨failed, _⟩ | ⟨_, others, ⟨⟩, takesOthers, spellsOthers⟩
      · cases failed
      · refine .inr ⟨_, _, rfl, takesBoth.trans takesOthers, ?_⟩
        rw [List.map_cons, further_cons, mul_assoc]
        exact Language.append_mem_mul
          (Language.append_mem_mul rfl spells) spellsOthers
  | case5 cursor token rest ahead isSign goesOn value next ran shorter last
      more inductionHypothesis =>
      obtain ⟨kinds, takes, spells⟩ := (reads cursor.advance).of_some ran
      have takesBoth := (takes_mark ahead isSign).trans takes
      simp only [more] at inductionHypothesis
      rcases inductionHypothesis with ⟨_, faulted⟩ | ⟨_, _, gave, _⟩
      · exact .inl ⟨rfl, faulted.of_silent_left takesBoth.silent⟩
      · cases gave
  | case6 cursor =>
      exact .inr ⟨[], [], rfl, .refl cursor, by simpa using mayEnd⟩

/-- Further members without a mark behind the last one. -/
theorem further_reads_untrailed
    {sign : Mark}
    {member : Reader α}
    {spelled : α → Spellings}
    (reads : member.Reads spelled) :
    (Reader.further sign (fun _ => false) member).Reads fun values =>
      Spellings.further sign (values.map spelled) := by
  have untrailed :
      (Reader.further sign (fun _ => false) member).Reads fun values =>
        Spellings.further sign (values.map spelled) * 1 :=
    further_reads 1 reads rfl (by simp)
  simpa using untrailed

/-! ## Attributes, paths and arguments -/

/-- A reference is read from a name behind the dollar sign. -/
theorem referenceAfter_reads
    (dollar : Span)
    (cursor : Cursor) :
    (referenceAfter dollar).ReadsFrom cursor [.mark .dollar]
      Identifier.referenceSpelling := by
  refine (identifier_reads cursor).bind fun name kinds next spells => ?_
  exact .pure (Language.append_mem_mul rfl spells)

/-- A separator is read from its token. -/
theorem separator_reads :
    separator.Reads Separator.spelling := by
  intro cursor
  refine .peek ?_
  split
  · next isEquals =>
    exact .advance isEquals (by simp) fun _ _ => .pure rfl
  · next isColon =>
    exact .advance isColon (by simp) fun _ _ => .pure rfl
  · exact .unexpected

/-- A value is read from a token that spells it. -/
theorem scalar_reads :
    scalar.Reads Scalar.spelling := by
  intro cursor
  refine .peek ?_
  split
  · next name isName =>
    exact .advance isName (by simp) fun _ _ => .pure (.inl rfl)
  · next value isNumber =>
    exact .advance isNumber (by simp) fun _ _ => .pure rfl
  · next contents isString =>
    exact .advance isString (by simp) fun _ _ => .pure rfl
  · next word isKeyword =>
    exact .advance isKeyword (by simp)
      fun _ _ => .pure (.inr ⟨word, rfl, rfl⟩)
  · exact .unexpected

/-- A pair is read from a key, a sign and a value. -/
theorem attributePair_reads :
    attributePair.Reads Attribute.spelling := by
  intro cursor
  refine (anyName_reads cursor).bind fun key keyKinds _ spellsKey => ?_
  refine (separator_reads _).bind fun sign signKinds _ spellsSign => ?_
  refine (scalar_reads _).bind fun value valueKinds _ spellsValue => ?_
  refine .spanFrom fun span => .pure ?_
  exact Language.append_mem_mul
    (Language.append_mem_mul spellsKey spellsSign) spellsValue

/-- An attribute list is read from pairs between brackets, one at least. -/
theorem attributeList_reads :
    attributeList.Reads AttributeList.spelling := by
  intro cursor
  refine (mark_reads .leftBracket cursor).bind
    fun opening openKinds next opens => .peek ?_
  split
  · exact .failPast
  · refine (attributePair_reads next).bind
      fun first firstKinds _ spellsFirst => ?_
    refine (further_reads (1 + Mark.comma.spelling)
      attributePair_reads (.inl rfl) (fun _ _ => .inr rfl) _).bind
      fun others otherKinds _ spellsOthers => ?_
    refine (closing_reads .rightBracket opening _).bind
      fun _ closeKinds _ closes => ?_
    refine .spanFrom fun span => .pure ?_
    have shape :
        AttributeList.spelling ⟨first :: others, span⟩ =
          Mark.leftBracket.spelling * first.spelling *
            (Spellings.further .comma (others.map Attribute.spelling) *
              (1 + Mark.comma.spelling)) *
            Mark.rightBracket.spelling := by
      simp only [AttributeList.spelling, List.map_cons,
        Spellings.separated, mul_assoc]
    rw [shape]
    exact Language.append_mem_mul
      (Language.append_mem_mul
        (Language.append_mem_mul opens spellsFirst) spellsOthers) closes

/-- Attributes are read from a list or a reference, and missing ones from nothing. -/
theorem attributes?_reads :
    attributes?.Reads AttributeSource.optionalSpelling := by
  intro cursor
  refine .peek ?_
  split
  · exact (attributeList_reads cursor).bind fun _ _ _ spells => .pure spells
  · next isDollar =>
    refine .advance isDollar (by simp) fun dollar next => ?_
    exact (referenceAfter_reads dollar next).bindAfter
      fun _ _ _ spells => .pure spells
  · exact .pure rfl

/-- A path is read from names with dots between them. -/
theorem path_reads :
    path.Reads Path.spelling := by
  intro cursor
  refine (identifier_reads cursor).bind fun first firstKinds _ spells => ?_
  refine (further_reads_untrailed anyName_reads _).bind
    fun others otherKinds _ spellsOthers => ?_
  exact .spanFrom fun span =>
    .pure (Language.append_mem_mul spells spellsOthers)

/-- Where no name comes next, a scalar is spelled as a literal argument is. -/
theorem literal_reads
    {cursor : Cursor}
    (notName : ∀ name, cursor.kind ≠ .identifier name) :
    scalar.ReadsFrom cursor [] fun value =>
      ArgumentSource.spelling (.literal value) := by
  refine .peek ?_
  split
  · next name isName =>
    exact (notName name isName).elim
  · next value isNumber =>
    exact .advance isNumber (by simp) fun _ _ => .pure rfl
  · next contents isString =>
    exact .advance isString (by simp) fun _ _ => .pure rfl
  · next word isKeyword =>
    exact .advance isKeyword (by simp)
      fun _ _ => .pure ⟨word, rfl, rfl⟩
  · exact .unexpected

/-- The value of an argument is read from a path or from a literal. -/
theorem argumentSource_reads :
    argumentSource.Reads ArgumentSource.spelling := by
  intro cursor
  refine .peek ?_
  split
  · exact (path_reads cursor).bind fun _ _ _ spells => .pure spells
  · next notName =>
    exact (literal_reads notName).bind fun _ _ _ spells => .pure spells

/-- An argument is read from a key, a sign and a value. -/
theorem argument_reads :
    argument.Reads Argument.spelling := by
  intro cursor
  refine (anyName_reads cursor).bind fun key keyKinds _ spellsKey => ?_
  refine (separator_reads _).bind fun sign signKinds _ spellsSign => ?_
  refine (argumentSource_reads _).bind fun value valueKinds _ spellsValue => ?_
  refine .spanFrom fun span => .pure ?_
  exact Language.append_mem_mul
    (Language.append_mem_mul spellsKey spellsSign) spellsValue

/-! ## Declarations and statements -/

/-- An edge operator is read from its token. -/
theorem edgeOperator_reads :
    edgeOperator.Reads fun sign => (Token.Kind.operator sign).alone := by
  intro cursor
  refine .peek ?_
  split
  · next sign isOperator =>
    exact .advance (Token.Kind.eq_operator isOperator) (by simp)
      fun _ _ => .pure rfl
  · exact .unexpected

/-- An edge is read from what stands behind its left end. -/
theorem edgeAfter_reads
    {left : Identifier}
    {leftKinds : List Token.Kind}
    (spellsLeft : leftKinds ∈ left.spelling)
    (cursor : Cursor) :
    (edgeAfter left).ReadsFrom cursor leftKinds EdgeStatement.spelling := by
  refine (edgeOperator_reads cursor).bind fun sign _ _ spellsSign => ?_
  refine (identifier_reads _).bind fun right _ _ spellsRight => ?_
  refine (attributes?_reads _).bind fun attributes _ _ spellsAttributes => ?_
  refine .spanFrom fun span => .pure ?_
  exact Language.append_mem_mul
    (Language.append_mem_mul
      (Language.append_mem_mul spellsLeft spellsSign) spellsRight)
    spellsAttributes

/-- An edge is read from a spelling of it. -/
theorem edge_reads :
    edge.Reads EdgeStatement.spelling := by
  intro cursor
  exact (identifier_reads cursor).bind
    fun left kinds next spells => edgeAfter_reads spells next

/-- A type is read from its word. -/
theorem variableType_reads :
    variableType.Reads VariableType.spelling := by
  intro cursor
  refine .peek ?_
  split
  · next isKeyword =>
    exact .advance isKeyword (by simp) fun _ _ => .pure rfl
  · next isKeyword =>
    exact .advance isKeyword (by simp) fun _ _ => .pure rfl
  · next isKeyword =>
    exact .advance isKeyword (by simp) fun _ _ => .pure rfl
  · exact .unexpected

/-- Nodes or edges are read from what stands behind the first name. -/
theorem namesAfter_reads
    {first : Identifier}
    {firstKinds : List Token.Kind}
    (spellsFirst : firstKinds ∈ first.spelling)
    (cursor : Cursor) :
    (namesAfter first).ReadsFrom cursor firstKinds
      VariableSource.spelling := by
  refine .peek ?_
  split
  · refine (edgeAfter_reads spellsFirst cursor).bindWhole
      fun firstEdge _ next spellsEdge => ?_
    refine (further_reads_untrailed edge_reads next).bind
      fun others _ _ spellsOthers => ?_
    exact .pure (Language.append_mem_mul spellsEdge spellsOthers)
  · refine (further_reads_untrailed identifier_reads cursor).bind
      fun others _ _ spellsOthers => ?_
    exact .pure (Language.append_mem_mul spellsFirst spellsOthers)

/-- A right-hand side is read from a spelling of it. -/
theorem variableSource_reads :
    variableSource.Reads VariableSource.spelling := by
  intro cursor
  refine .peek ?_
  split
  · next isDollar =>
    refine .advance isDollar (by simp) fun dollar next => ?_
    exact (referenceAfter_reads dollar next).bindAfter
      fun _ _ _ spells => .pure spells
  · exact (attributeList_reads cursor).bind fun _ _ _ spells => .pure spells
  · exact (identifier_reads cursor).bind
      fun first kinds next spells => namesAfter_reads spells next
  · exact .unexpected

/-- A variable declaration is read from what stands behind its first word. -/
theorem variableAfter_reads
    (start : Span)
    (cursor : Cursor) :
    (variableAfter start).ReadsFrom cursor [.keyword .var]
      VariableDeclaration.spelling := by
  refine (variableType_reads cursor).bind fun type _ _ spellsType => ?_
  refine (identifier_reads _).bind fun name _ _ spellsName => ?_
  refine (mark_reads .equals _).bind fun _ _ _ spellsEquals => ?_
  refine (variableSource_reads _).bind fun source _ _ spellsSource => ?_
  refine .spanFrom fun span => .pure ?_
  exact Language.append_mem_mul
    (Language.append_mem_mul
      (Language.append_mem_mul
        (Language.append_mem_mul rfl spellsType) spellsName) spellsEquals)
    spellsSource

/-- A default declaration is read from the attributes behind its word. -/
theorem defaultsAfter_reads
    {target : DefaultTarget}
    {targetKinds : List Token.Kind}
    (spellsTarget : targetKinds ∈ target.spelling)
    (start : Span)
    (cursor : Cursor) :
    (defaultsAfter start target).ReadsFrom cursor targetKinds
      DefaultDeclaration.spelling := by
  refine (attributes?_reads cursor).bind fun source? _ _ spells => ?_
  cases source? with
  | some source =>
      exact .spanFrom fun span =>
        .pure (Language.append_mem_mul spellsTarget spells)
  | none =>
      exact .unexpected

/-- A node statement is read from what stands behind its target. -/
theorem nodeAfter_reads
    (target : NodeTarget)
    {targetKinds : List Token.Kind}
    (spellsTarget : targetKinds ∈ target.spelling)
    (start : Span)
    (cursor : Cursor) :
    (nodeAfter start target).ReadsFrom cursor targetKinds
      NodeStatement.spelling := by
  refine (attributes?_reads cursor).bind fun attributes _ _ spells => ?_
  exact .spanFrom fun span =>
    .pure (Language.append_mem_mul spellsTarget spells)

/-- A statement is read from what stands behind its first name. -/
theorem statementAfter_reads
    {first : Identifier}
    {firstKinds : List Token.Kind}
    (spellsFirst : firstKinds ∈ first.spelling)
    (cursor : Cursor) :
    (statementAfter first).ReadsFrom cursor firstKinds
      Statement.spelling := by
  refine .peek ?_
  split
  · exact (edgeAfter_reads spellsFirst cursor).bindWhole
      fun _ _ _ spells => .pure spells
  · refine (further_reads_untrailed identifier_reads cursor).bind
      fun others _ next spellsOthers => ?_
    have spellsTarget :=
      Language.append_mem_mul spellsFirst spellsOthers
    exact (nodeAfter_reads (.list (first :: others)) spellsTarget
      first.span next).bindWhole
      fun _ _ _ spells => .pure spells

/-- A statement about a variable is read from what stands behind the dollar sign. -/
theorem referenceStatementAfter_reads
    (dollar : Span)
    (cursor : Cursor) :
    (referenceStatementAfter dollar).ReadsFrom cursor [.mark .dollar]
      Statement.spelling := by
  refine (referenceAfter_reads dollar cursor).bindWhole
    fun name _ next spellsName => ?_
  exact (nodeAfter_reads (.reference name) spellsName dollar
    next).bindWhole
    fun _ _ _ spells => .pure spells

end Reader

end GraphScript
