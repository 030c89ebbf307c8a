import GraphScript.Proofs.Program.StatementSoundness

namespace GraphScript

/-!
# What is read is what is written

A program that is read without a fault is spelled by exactly the tokens before
the end of the text. Every way of reading that skips tokens has reported a
fault.
-/

open Spellings

namespace Reader

variable {α β : Type}

/-! ## Bodies of graphs -/

theorem semicolonAfter_reads
    (construct : String)
    (cursor : Cursor) :
    (semicolonAfter construct).ReadsOrReports cursor []
      fun _ => Mark.semicolon.spelling := by
  unfold ReadsOrReports semicolonAfter
  dsimp only
  split
  · next isSemicolon =>
    have kind := Token.Kind.eq_mark isSemicolon
    exact .inr ⟨[.mark .semicolon],
      kind ▸ Cursor.takes_advance (by simp [kind]), (), rfl, rfl⟩
  · exact .inl (cursor.faulted_report _)

/-- A tree before a semicolon becomes an item. -/
theorem beforeSemicolon_reads
    {reader : Reader α}
    {wrap : α → β}
    {construct : String}
    {cursor : Cursor}
    {taken : List Token.Kind}
    {spelled : α → Spellings}
    {finished : β → Spellings}
    (reads : reader.ReadsFrom cursor taken spelled)
    (finishes :
      ∀ value kinds,
        kinds ∈ spelled value * Mark.semicolon.spelling →
        kinds ∈ finished (wrap value)) :
    (do
      let value ← reader
      semicolonAfter construct
      return wrap value).ReadsOrReports cursor taken finished := by
  refine reads.bindReports [] rfl fun value kinds next spells => ?_
  refine (semicolonAfter_reads construct next).bind kinds (by simp)
    fun _ more last => ReadsFrom.readsOrReports (.pure ?_)
  intro isSemicolon
  exact finishes value _ (Language.append_mem_mul spells isSemicolon)

/-- An item is of the kind that its first token tells. -/
structure BegunBy
    (item : BodyItem)
    (kind : Token.Kind) :
    Prop where
  mentions : item.mentionsNodes = true → startsStatement kind = true
  defaults :
    item.defaults? = none ∨
      ∃ word, kind = .keyword word ∧ (defaultTarget? word).isSome

theorem defaultTarget?_spelling
    {word : Keyword}
    {target : DefaultTarget}
    (isTarget : defaultTarget? word = some target) :
    [.keyword word] ∈ target.spelling := by
  cases word <;> cases isTarget
  case node => rfl
  case edge => rfl
  case attributes => exact .inr rfl
  case graph => exact .inl rfl

theorem bodyItemAfter?_reads
    {token : Token}
    {reader : Reader BodyItem}
    (starts : bodyItemAfter? token = some reader)
    (cursor : Cursor) :
    reader.ReadsOrReports cursor [token.kind] fun item =>
      {kinds |
        kinds ∈ item.spelling * Mark.semicolon.spelling ∧
          BegunBy item token.kind} := by
  unfold bodyItemAfter? at starts
  split at starts
  · next isVar =>
    cases starts
    rw [isVar]
    refine beforeSemicolon_reads (variableAfter_reads token.span cursor) ?_
    exact fun declaration kinds spells => ⟨spells, by simp [BodyItem.mentionsNodes], .inl rfl⟩
  · next word _ isKeyword =>
    obtain ⟨target, isTarget, rfl⟩ := Option.map_eq_some_iff.1 starts
    rw [isKeyword]
    refine beforeSemicolon_reads
      (defaultsAfter_reads (defaultTarget?_spelling isTarget) token.span
        cursor) ?_
    exact fun declaration kinds spells => ⟨spells, by simp [BodyItem.mentionsNodes],
      .inr ⟨word, rfl, by simp [isTarget]⟩⟩
  · next isDollar =>
    cases starts
    rw [isDollar]
    refine beforeSemicolon_reads
      (referenceStatementAfter_reads token.span cursor) ?_
    exact fun statement kinds spells => ⟨spells, fun _ => rfl, .inl rfl⟩
  · next name isName =>
    cases starts
    rw [isName]
    refine beforeSemicolon_reads (statementAfter_reads rfl cursor) ?_
    exact fun statement kinds spells => ⟨spells, fun _ => rfl, .inl rfl⟩
  · cases starts

/-- Whether a token may start a body item behind what was seen. -/
def InTime
    (seenStatement : Bool)
    (kind : Token.Kind) :
    Prop :=
  seenStatement = true →
    ∀ word, kind = .keyword word → defaultTarget? word = none

/-- A default declaration behind a statement is reported. -/
theorem checkDefaults_passes
    (seenStatement : Bool)
    (cursor : Cursor) :
    cursor.Passes (checkDefaults seenStatement cursor) fun kinds =>
      kinds = [] ∧ InTime seenStatement cursor.kind := by
  unfold checkDefaults
  split
  · next word isKeyword =>
    split
    · exact .inl (cursor.faulted_report _)
    · next unreported =>
      refine .inr ⟨[], .refl cursor, rfl, fun seen other isOther => ?_⟩
      cases isKeyword.symm.trans isOther
      simpa [seen] using unreported
  · next notKeyword =>
    exact .inr ⟨[], .refl cursor, rfl,
      fun _ word isKeyword => (notKeyword word isKeyword).elim⟩

/-- The first token of a body item is taken, or a fault was reported. -/
theorem checkDefaults_advance_passes
    (seenStatement : Bool)
    {cursor : Cursor}
    {token : Token}
    {rest : List Token}
    (ahead : cursor.pending = token :: rest) :
    cursor.Passes (checkDefaults seenStatement cursor).advance fun kinds =>
      kinds = [token.kind] ∧ InTime seenStatement token.kind := by
  have kind : cursor.kind = token.kind := by
    simp [Cursor.kind, ahead]
  have still :
      (checkDefaults seenStatement cursor).pending = token :: rest :=
    (pending_checkDefaults seenStatement cursor).trans ahead
  have takesFirst :
      (checkDefaults seenStatement cursor).Passes
        (checkDefaults seenStatement cursor).advance
        fun kinds => kinds = [token.kind] :=
    .inr ⟨_, Cursor.takes_token still, rfl⟩
  refine (checkDefaults_passes seenStatement cursor).trans takesFirst ?_
  rintro _ _ ⟨rfl, inTime⟩ rfl
  exact ⟨rfl, kind ▸ inTime⟩

/-- Items that were read, in an order that is right behind what was seen. -/
def BodyRead
    (seenStatement : Bool)
    (items : List BodyItem)
    (kinds : List Token.Kind) :
    Prop :=
  kinds ∈ terminated (items.map BodyItem.spelling) ∧
    BodyItem.InOrder items ∧
    (seenStatement = true → ∀ item ∈ items, item.defaults? = none)

theorem BodyRead.nil
    (seenStatement : Bool) :
    BodyRead seenStatement [] [] :=
  ⟨rfl, .nil, by simp⟩

/-- One more item in front, of the kind that its first token tells. -/
theorem BodyRead.cons
    {seenStatement : Bool}
    {item : BodyItem}
    {items : List BodyItem}
    {kind : Token.Kind}
    {kinds more : List Token.Kind}
    (spells : kinds ∈ item.spelling * Mark.semicolon.spelling)
    (begun : BegunBy item kind)
    (inTime : InTime seenStatement kind)
    (later :
      BodyRead (seenStatement || startsStatement kind) items more) :
    BodyRead seenStatement (item :: items) (kinds ++ more) := by
  obtain ⟨spellsLater, inOrder, seenLater⟩ := later
  refine ⟨?_, List.pairwise_cons.2 ⟨?_, inOrder⟩, ?_⟩
  · rw [List.map_cons, terminated_cons]
    exact Language.append_mem_mul spells spellsLater
  · intro other member mentions
    exact seenLater (by simp [begun.mentions mentions]) other member
  · intro seen other member
    rcases List.mem_cons.1 member with rfl | member
    · rcases begun.defaults with none | ⟨word, isKeyword, isTarget⟩
      · exact none
      · simp [inTime seen word isKeyword] at isTarget
    · exact seenLater (by simp [seen]) other member

/-- The items of a body are spelled by what was read, or a fault was reported. -/
theorem bodyRun_passes
    (seenStatement : Bool)
    (cursor : Cursor) :
    cursor.Passes (bodyRun seenStatement cursor).2
      (BodyRead seenStatement (bodyRun seenStatement cursor).1) := by
  fun_induction bodyRun seenStatement cursor with
  | case1 seenStatement cursor =>
      exact .inr ⟨[], .refl cursor, .nil seenStatement⟩
  | case2 seenStatement cursor =>
      exact .inr ⟨[], .refl cursor, .nil seenStatement⟩
  | case3 seenStatement cursor token rest ahead _ seen started shorter reader
      starts item next ran _ later last more inductionHypothesis =>
      have starting := checkDefaults_advance_passes seenStatement ahead
      have reading := (bodyItemAfter?_reads starts started).of_some ran
      rw [more] at inductionHypothesis
      have goingOn :
          started.Passes last fun kinds =>
            InTime seenStatement token.kind →
            BodyRead seenStatement (item :: later)
              (token.kind :: kinds) := by
        refine reading.trans inductionHypothesis ?_
        rintro kinds moreKinds ⟨spells, begun⟩ readLater inTime
        exact .cons spells begun inTime readLater
      refine starting.trans goingOn ?_
      rintro _ kinds ⟨rfl, inTime⟩ readItems
      exact readItems inTime
  | case4 seenStatement cursor token rest ahead _ seen started shorter reader
      starts next ran _ inductionHypothesis =>
      have starting := checkDefaults_advance_passes seenStatement ahead
      have faulted := (bodyItemAfter?_reads starts started).of_none ran
      have grows := inductionHypothesis.faults_grow
      rw [Cursor.faults_synchronize] at grows
      exact .inl ((starting.trans_faulted faulted).trans_extends grows)
  | case5 seenStatement cursor =>
      exact .inr ⟨[], .refl cursor, .nil seenStatement⟩
  | case6 seenStatement cursor token rest ahead _ seen started shorter noReader
      notItem fault _ inductionHypothesis =>
      exact .inl ((cursor.faulted_skipItem fault).trans_extends
        inductionHypothesis.faults_grow)

/-- The body of a graph is read with its items in order. -/
theorem body_reads
    (cursor : Cursor) :
    body.ReadsOrReports cursor [] fun items =>
      {kinds |
        kinds ∈ terminated (items.map BodyItem.spelling) ∧
          BodyItem.InOrder items} := by
  rcases bodyRun_passes false cursor with
      faulted | ⟨kinds, takes, spells, inOrder, _⟩
  · exact .inl faulted
  · exact .inr ⟨kinds, takes, _, rfl, spells, inOrder⟩

/-! ## Programs -/

theorem graphAfter_reads
    {direction : Direction}
    {directionKinds : List Token.Kind}
    (spellsDirection : directionKinds ∈ direction.spelling)
    (start : Span)
    (cursor : Cursor) :
    (graphAfter start direction).ReadsOrReports cursor directionKinds
      GraphDeclaration.spelling := by
  refine (keyword_reads .graph cursor).bindReports directionKinds (by simp)
    fun _ graphKinds _ spellsGraph => ?_
  refine (identifier_reads _).bindReports
    (directionKinds ++ graphKinds) (by simp)
    fun name nameKinds _ spellsName => ?_
  refine (mark_reads .leftBrace _).bindReports
    (directionKinds ++ graphKinds ++ nameKinds) (by simp)
    fun opening openKinds _ opens => ?_
  refine (body_reads _).bind
    (directionKinds ++ graphKinds ++ nameKinds ++ openKinds) (by simp)
    fun items itemKinds next => ?_
  refine ReadsFrom.readsOrReports
    ((closing_reads .rightBrace opening next).bind
      fun _ closeKinds _ closes => .spanFrom fun span => .pure ?_)
  rintro ⟨spellsItems, inOrder⟩
  refine ⟨inOrder, ?_⟩
  exact Language.append_mem_mul
    (Language.append_mem_mul
      (Language.append_mem_mul
        (Language.append_mem_mul
          (Language.append_mem_mul spellsDirection spellsGraph) spellsName)
        opens) spellsItems) closes

theorem arguments_reads :
    arguments.Reads Argument.listSpelling := by
  intro cursor
  refine .peek ?_
  split
  · exact .pure rfl
  · unfold separated
    refine (argument_reads cursor).bind fun first kinds next spells => ?_
    refine (further_reads_untrailed argument_reads next).bind
      fun others more _ spellsOthers => ?_
    exact .pure (Language.append_mem_mul spells spellsOthers)

theorem commandAfter_reads
    (start : Span)
    (cursor : Cursor) :
    (commandAfter start).ReadsFrom cursor [.keyword .run]
      Command.spelling := by
  refine (identifier_reads cursor).bind fun name _ _ spellsName => ?_
  refine (keyword_reads .withArguments _).bind fun _ _ _ spellsWith => ?_
  refine (mark_reads .leftParenthesis _).bind fun opening _ _ opens => ?_
  refine (arguments_reads _).bind fun given _ _ spellsArguments => ?_
  refine (closing_reads .rightParenthesis opening _).bind
    fun _ _ _ closes => ?_
  refine .spanFrom fun span => .pure ?_
  exact Language.append_mem_mul
    (Language.append_mem_mul
      (Language.append_mem_mul
        (Language.append_mem_mul
          (Language.append_mem_mul rfl spellsName) spellsWith) opens)
      spellsArguments) closes

theorem optionalMark_reads
    (sign : Mark) :
    (optionalMark sign).Reads fun _ => 1 + sign.spelling := by
  intro cursor
  refine .peek ?_
  split
  · next isMark =>
    exact .advance (Token.Kind.eq_mark isMark) (by simp)
      fun _ _ => .pure (.inr rfl)
  · exact .pure (.inl rfl)

/-- A graph becomes an item with or without a semicolon. -/
theorem graphItemAfter_reads
    (direction : Direction)
    {directionKinds : List Token.Kind}
    (spellsDirection : directionKinds ∈ direction.spelling)
    (start : Span)
    (cursor : Cursor) :
    (graphItemAfter start direction).ReadsOrReports cursor directionKinds
      fun item =>
        {kinds |
          kinds ∈ item.spelling ∧ item.kind = ItemKind.graphDeclaration} := by
  refine (graphAfter_reads spellsDirection start cursor).bind [] rfl
    fun declaration kinds next => ReadsFrom.readsOrReports ?_
  refine (optionalMark_reads .semicolon next).bind fun _ more _ ends => ?_
  exact .pure fun spells => ⟨Language.append_mem_mul spells ends, rfl⟩

theorem itemAfter?_reads
    {token : Token}
    {kind : ItemKind}
    {reader : Reader Item}
    (starts : itemAfter? token = some (kind, reader))
    (cursor : Cursor) :
    reader.ReadsOrReports cursor [token.kind] fun item =>
      {kinds | kinds ∈ item.spelling ∧ item.kind = kind} := by
  unfold itemAfter? at starts
  split at starts
  · next isVar =>
    cases starts
    rw [isVar]
    refine beforeSemicolon_reads (variableAfter_reads token.span cursor) ?_
    exact fun declaration kinds spells => ⟨spells, rfl⟩
  · next isDirected =>
    cases starts
    rw [isDirected]
    exact graphItemAfter_reads .directed rfl token.span cursor
  · next isUndirected =>
    cases starts
    rw [isUndirected]
    exact graphItemAfter_reads .undirected rfl token.span cursor
  · next isRun =>
    cases starts
    rw [isRun]
    refine beforeSemicolon_reads (commandAfter_reads token.span cursor) ?_
    exact fun command kinds spells => ⟨spells, rfl⟩
  · cases starts

/-- An item that is out of order is reported, and its first token is taken. -/
theorem checkOrder_advance_passes
    (latest : Option ItemKind)
    (kind : ItemKind)
    {cursor : Cursor}
    {token : Token}
    {rest : List Token}
    (ahead : cursor.pending = token :: rest) :
    cursor.Passes (checkOrder latest kind cursor).advance fun kinds =>
      kinds = [token.kind] ∧ Follows latest kind := by
  have checked :
      cursor.Passes (checkOrder latest kind cursor) fun kinds =>
        kinds = [] ∧ Follows latest kind := by
    unfold checkOrder
    split
    · next earlier =>
      split
      · exact .inl (cursor.faulted_report _)
      · next inOrder =>
        exact .inr ⟨[], .refl cursor, rfl, by
          simpa [Follows] using inOrder⟩
    · exact .inr ⟨[], .refl cursor, rfl, by simp [Follows]⟩
  have still : (checkOrder latest kind cursor).pending = token :: rest :=
    (pending_checkOrder latest kind cursor).trans ahead
  have takesFirst :
      (checkOrder latest kind cursor).Passes
        (checkOrder latest kind cursor).advance
        fun kinds => kinds = [token.kind] :=
    .inr ⟨_, Cursor.takes_token still, rfl⟩
  refine checked.trans takesFirst ?_
  rintro _ _ ⟨rfl, follows⟩ rfl
  exact ⟨rfl, follows⟩

/-- Items that were read, in an order that is right behind the latest kind. -/
def ItemsRead
    (latest : Option ItemKind)
    (items : List Item)
    (kinds : List Token.Kind) :
    Prop :=
  kinds ∈ (items.map Item.spelling).prod ∧
    Item.InOrder items ∧
    ∀ item ∈ items, Follows latest item.kind

theorem ItemsRead.nil
    (latest : Option ItemKind) :
    ItemsRead latest [] [] :=
  ⟨rfl, .nil, by simp⟩

/-- One more item in front. -/
theorem ItemsRead.cons
    {latest : Option ItemKind}
    {item : Item}
    {items : List Item}
    {kinds more : List Token.Kind}
    (spells : kinds ∈ item.spelling)
    (follows : Follows latest item.kind)
    (later : ItemsRead (laterKind latest item.kind) items more) :
    ItemsRead latest (item :: items) (kinds ++ more) := by
  obtain ⟨spellsLater, inOrder, followsLater⟩ := later
  have latestIs := laterKind_of_follows follows
  refine ⟨?_, List.pairwise_cons.2 ⟨?_, inOrder⟩, ?_⟩
  · rw [List.map_cons, List.prod_cons]
    exact Language.append_mem_mul spells spellsLater
  · intro other member
    exact followsLater other member item.kind (by rw [latestIs]; rfl)
  · intro other member
    rcases List.mem_cons.1 member with rfl | member
    · exact follows
    · intro earlier isEarlier
      exact Nat.le_trans (follows earlier isEarlier)
        (followsLater other member item.kind (by rw [latestIs]; rfl))

/-- The items of a program are spelled by what was read, or a fault was reported. -/
theorem itemsRun_passes
    (latest : Option ItemKind)
    (cursor : Cursor) :
    cursor.Passes (itemsRun latest cursor).2
      (ItemsRead latest (itemsRun latest cursor).1) := by
  fun_induction itemsRun latest cursor with
  | case1 latest cursor =>
      exact .inr ⟨[], .refl cursor, .nil latest⟩
  | case2 latest cursor =>
      exact .inr ⟨[], .refl cursor, .nil latest⟩
  | case3 latest cursor token rest ahead _ kind reader starts started shorter
      item next ran _ later last more inductionHypothesis =>
      have starting := checkOrder_advance_passes latest kind ahead
      have reading := (itemAfter?_reads starts started).of_some ran
      rw [more] at inductionHypothesis
      have goingOn :
          started.Passes last fun kinds =>
            Follows latest kind →
            ItemsRead latest (item :: later) (token.kind :: kinds) := by
        refine reading.trans inductionHypothesis ?_
        rintro kinds moreKinds ⟨spells, rfl⟩ readLater follows
        exact .cons spells follows readLater
      refine starting.trans goingOn ?_
      rintro _ kinds ⟨rfl, follows⟩ readItems
      exact readItems follows
  | case4 latest cursor token rest ahead _ kind reader starts started shorter
      next ran _ inductionHypothesis =>
      have starting := checkOrder_advance_passes latest kind ahead
      have faulted := (itemAfter?_reads starts started).of_none ran
      have grows := inductionHypothesis.faults_grow
      rw [Cursor.faults_synchronize] at grows
      exact .inl ((starting.trans_faulted faulted).trans_extends grows)
  | case5 latest cursor token rest ahead _ noReader fault _
      inductionHypothesis =>
      exact .inl ((cursor.faulted_skipItem fault).trans_extends
        inductionHypothesis.faults_grow)

/-- Reading ends at the end of the text or at the limit of errors. -/
theorem itemsRun_ends
    (latest : Option ItemKind)
    (cursor : Cursor) :
    (itemsRun latest cursor).2.pending = [] ∨
      (itemsRun latest cursor).2.isFull = true := by
  fun_induction itemsRun latest cursor with
  | case1 latest cursor ahead =>
      exact .inl ahead
  | case2 latest cursor token rest ahead full =>
      exact .inr full
  | case3 latest cursor token rest ahead _ kind reader starts started shorter
      item next ran _ later last more inductionHypothesis =>
      rwa [more] at inductionHypothesis
  | case4 latest cursor token rest ahead _ kind reader starts started shorter
      next ran _ inductionHypothesis =>
      exact inductionHypothesis
  | case5 latest cursor token rest ahead _ noReader fault _
      inductionHypothesis =>
      exact inductionHypothesis

end Reader

namespace Program

/-- Where no fault is found, all tokens before the end of the text were taken. -/
theorem kinds_mem_spelling
    {tokens : List Token}
    (faultless : (ofTokens tokens).faults = []) :
    (Cursor.ofTokens tokens).kinds ∈ (ofTokens tokens).program.spelling := by
  set start := Cursor.ofTokens tokens
  have silent : (Reader.itemsRun none start).2.faults = [] := faultless
  obtain ⟨kinds, takes, spells, inOrder, _⟩ :=
    (Reader.itemsRun_passes none start).of_faults_nil silent
  have finished : (Reader.itemsRun none start).2.pending = [] := by
    refine (Reader.itemsRun_ends none start).resolve_right ?_
    simp [Cursor.isFull, silent, Diagnostic.errorLimit]
  have whole : start.kinds = kinds := by
    simpa [Cursor.kinds, finished] using takes.split
  rw [whole]
  exact (Item.prod_spelling inOrder _) ▸ spells

/--
A program that is read without a fault is spelled by exactly the tokens before
the end of the text, so none is skipped, taken twice or moved.
-/
theorem faultless_reading_is_spelled
    {tokens : List Token}
    {finish : Token}
    (unfinished : ∀ token ∈ tokens, token.kind.isEndOfFile = false)
    (finished : finish.kind.isEndOfFile = true)
    (faultless : (ofTokens (tokens ++ [finish])).faults = []) :
    tokens.map (·.kind) ∈
      (ofTokens (tokens ++ [finish])).program.spelling := by
  have kinds := Cursor.kinds_ofTokens unfinished finished
  exact kinds ▸ kinds_mem_spelling faultless

/-- A graph and a command with reserved words as names. -/
theorem faultless_reading_is_spelled_of_graph :
    let kinds : List Token.Kind :=
      [.keyword .directed, .keyword .graph, .identifier "g",
        .mark .leftBrace, .keyword .edge, .mark .leftBracket,
        .keyword .run, .mark .colon, .keyword .withArguments, .mark .comma,
        .mark .rightBracket, .mark .semicolon, .identifier "a",
        .operator .backward, .identifier "b", .mark .semicolon,
        .mark .rightBrace, .keyword .run, .identifier "bfs",
        .keyword .withArguments, .mark .leftParenthesis, .keyword .graph,
        .mark .equals, .identifier "g", .mark .dot, .keyword .node,
        .mark .rightParenthesis, .mark .semicolon]
    let tokens := kinds.map fun kind => (⟨kind, default⟩ : Token)
    let reading := ofTokens (tokens ++ [⟨.endOfFile, default⟩])
    reading.faults = [] ∧
      tokens.map (·.kind) ∈ reading.program.spelling := by
  intro kinds tokens reading
  have faultless : reading.faults = [] := by
    decide +kernel
  exact ⟨faultless,
    faultless_reading_is_spelled (by decide) rfl faultless⟩

end Program

end GraphScript
