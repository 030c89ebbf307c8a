import GraphScript.Proofs.Program.Accepting
import GraphScript.Proofs.Program.WithoutPlaces

namespace GraphScript

/-!
# Written statements are read

Every spelling of a statement or declaration is read as it was written, up to
the places of its parts. One token tells apart what may follow a name, so the
readers never take what belongs to the next construct.
-/

open Spellings Token.Kind

namespace Reader

variable {α β : Type}

/-! ## Attributes, paths and arguments -/

/-- Either spelling of a separator is read. -/
theorem separator_accepts
    {sign : Separator}
    {kinds rest : List Token.Kind}
    {cursor : Cursor}
    (spelled : kinds ∈ sign.spelling)
    (ahead : cursor.kinds = kinds ++ rest) :
    separator.Accepts cursor rest fun read => read = sign := by
  cases sign with
  | assign =>
      cases spelled
      exact .peek (Cursor.kind_of_kinds ahead) (.token ahead fun _ => rfl)
  | typed =>
      cases spelled
      exact .peek (Cursor.kind_of_kinds ahead) (.token ahead fun _ => rfl)

/-- A spelled scalar is read as the scalar itself. -/
theorem scalar_accepts
    {value : Scalar}
    {kinds rest : List Token.Kind}
    {cursor : Cursor}
    (spelled : kinds ∈ value.spelling)
    (ahead : cursor.kinds = kinds ++ rest) :
    scalar.Accepts cursor rest fun read => read = value := by
  cases value with
  | word name =>
      rcases spelled with rfl | ⟨word, rfl, rfl⟩
      · exact .peek (Cursor.kind_of_kinds ahead) (.token ahead fun _ => rfl)
      · exact .peek (Cursor.kind_of_kinds ahead) (.token ahead fun _ => rfl)
  | number value =>
      cases spelled
      exact .peek (Cursor.kind_of_kinds ahead) (.token ahead fun _ => rfl)
  | string contents =>
      cases spelled
      exact .peek (Cursor.kind_of_kinds ahead) (.token ahead fun _ => rfl)

/-- A spelled pair is read as that pair. -/
theorem attributePair_accepts
    {pair : Attribute}
    {kinds rest : List Token.Kind}
    {cursor : Cursor}
    (spelled : kinds ∈ pair.spelling)
    (ahead : cursor.kinds = kinds ++ rest) :
    attributePair.Accepts cursor rest fun read =>
      read.withoutPlaces = pair.withoutPlaces := by
  obtain ⟨_, ⟨key, spellsKey, sign, spellsSign, rfl⟩,
    value, spellsValue, rfl⟩ := spelled
  simp only [List.append_assoc] at ahead
  refine (anyName_accepts spellsKey ahead).bind
    fun readKey _ sameKey ahead _ => ?_
  refine (separator_accepts spellsSign ahead).bind
    fun readSign _ sameSign ahead _ => ?_
  refine (scalar_accepts spellsValue ahead).bind
    fun readValue _ sameValue ahead _ => ?_
  refine .spanFrom fun span => .pure ahead ?_
  simp [Attribute.withoutPlaces, Identifier.withoutPlace, sameKey, sameSign,
    sameValue]

/-- No spelled pair starts with a mark. -/
theorem front_attribute
    {pair : Attribute}
    {kinds : List Token.Kind}
    (spelled : kinds ∈ pair.spelling)
    (rest : List Token.Kind)
    (sign : Mark) :
    (front (kinds ++ rest)).isMark sign = false := by
  obtain ⟨_, ⟨key, spellsKey, _, _, rfl⟩, _, _, rfl⟩ := spelled
  simpa only [List.append_assoc] using front_anyName spellsKey _ sign

/-- A spelled attribute list starts with its bracket. -/
theorem kinds_of_attributeList
    {list : AttributeList}
    {kinds : List Token.Kind}
    (spelled : kinds ∈ list.spelling) :
    ∃ more, kinds = .mark .leftBracket :: more := by
  obtain ⟨_, ⟨_, ⟨_, rfl, _, _, rfl⟩, _, _, rfl⟩, _, _, rfl⟩ := spelled
  exact ⟨_, rfl⟩

/-- A spelled attribute list is read with its pairs in their order. -/
theorem attributeList_accepts
    {list : AttributeList}
    {kinds rest : List Token.Kind}
    {cursor : Cursor}
    (spelled : kinds ∈ list.spelling)
    (ahead : cursor.kinds = kinds ++ rest) :
    attributeList.Accepts cursor rest fun read =>
      read.withoutPlaces = list.withoutPlaces := by
  rcases list with ⟨attributes, span⟩
  cases attributes with
  | nil =>
      simp [AttributeList.spelling, Spellings.separated] at spelled
  | cons first others =>
      obtain ⟨_, ⟨_, ⟨_, rfl, _, ⟨firstKinds, spellsFirst, otherKinds,
        spellsOthers, rfl⟩, rfl⟩, tail, spellsTail, rfl⟩, _, rfl, rfl⟩ :=
        spelled
      simp only [List.cons_append, List.nil_append,
        List.append_assoc] at ahead
      refine (mark_accepts ahead).bind fun opening _ _ ahead _ => ?_
      have notEmpty := front_attribute spellsFirst
        (otherKinds ++ (tail ++ .mark .rightBracket :: rest)) .rightBracket
      refine .peek (Cursor.kind_of_kinds ahead) ?_
      rw [if_neg (by simp [notEmpty])]
      refine (attributePair_accepts spellsFirst ahead).bind
        fun readFirst _ sameFirst ahead _ => ?_
      have ends :
          tail = [] ∧ True ∧
              (front (.mark .rightBracket :: rest)).isMark .comma = false ∨
            tail = [.mark .comma] ∧
              (front (.mark .rightBracket :: rest)).isMark
                .rightBracket = true := by
        rcases spellsTail with rfl | rfl
        · exact .inl ⟨rfl, trivial, rfl⟩
        · exact .inr ⟨rfl, rfl⟩
      refine (further_accepts (fun _ => True) tail
        (fun spells _ ahead => attributePair_accepts spells ahead)
        (fun rest spells => front_attribute spells rest .rightBracket)
        (fun _ => trivial) spellsOthers ends ahead).bind
        fun readOthers _ sameOthers ahead _ => ?_
      refine (closing_accepts ahead).bind fun _ _ _ ahead _ => ?_
      refine .spanFrom fun span => .pure ahead ?_
      simp [AttributeList.withoutPlaces, sameFirst, sameOthers]

/-- The name after a dollar sign is read as the name of a variable. -/
theorem referenceAfter_accepts
    {variableName : Identifier}
    {dollar : Span}
    {rest : List Token.Kind}
    {cursor : Cursor}
    (ahead : cursor.kinds = .identifier variableName.name :: rest) :
    (referenceAfter dollar).Accepts cursor rest fun read =>
      read.withoutPlace = variableName.withoutPlace := by
  refine (identifier_accepts ahead).bind fun name _ same ahead _ => ?_
  exact .pure ahead (by simp [Identifier.withoutPlace, same])

/-- Whether what is ahead cannot go on with attributes. -/
def EndsStatement
    (rest : List Token.Kind) :
    Prop :=
  (front rest).isMark .leftBracket = false ∧
    (front rest).isMark .dollar = false

/-- Attributes that may be left out are read as they are spelled, or as left out. -/
theorem attributes?_accepts
    {source : Option AttributeSource}
    {kinds rest : List Token.Kind}
    {cursor : Cursor}
    (spelled : kinds ∈ AttributeSource.optionalSpelling source)
    (ends : EndsStatement rest)
    (ahead : cursor.kinds = kinds ++ rest) :
    attributes?.Accepts cursor rest fun read =>
      read.map AttributeSource.withoutPlaces =
        source.map AttributeSource.withoutPlaces := by
  cases source with
  | none =>
      cases spelled
      rw [List.nil_append] at ahead
      refine .peek (Cursor.kind_of_kinds ahead) ?_
      split
      · next isBracket =>
        simp [EndsStatement, isBracket] at ends
      · next isDollar =>
        simp [EndsStatement, isDollar] at ends
      · exact .pure ahead rfl
  | some source =>
      cases source with
      | list attributes =>
          obtain ⟨more, rfl⟩ := kinds_of_attributeList spelled
          refine .peek (Cursor.kind_of_kinds ahead) ?_
          refine (attributeList_accepts spelled ahead).bind
            fun list _ same ahead _ => .pure ahead ?_
          simp [AttributeSource.withoutPlaces, same]
      | reference variableName =>
          obtain ⟨_, rfl, _, rfl, rfl⟩ := spelled
          refine .peek (Cursor.kind_of_kinds ahead) ?_
          refine (Accepts.advance ahead).bind fun dollar _ _ ahead _ => ?_
          refine (referenceAfter_accepts ahead).bind
            fun name _ same ahead _ => .pure ahead ?_
          simp [AttributeSource.withoutPlaces, same]

/-- A spelled path is read to its last segment. -/
theorem path_accepts
    {followed : Path}
    {kinds rest : List Token.Kind}
    {cursor : Cursor}
    (spelled : kinds ∈ followed.spelling)
    (ends : (front rest).isMark .dot = false)
    (ahead : cursor.kinds = kinds ++ rest) :
    path.Accepts cursor rest fun read =>
      read.withoutPlaces = followed.withoutPlaces := by
  rcases followed with ⟨segments, span⟩
  cases segments with
  | nil =>
      cases spelled
  | cons first others =>
      obtain ⟨_, rfl, otherKinds, spellsOthers, rfl⟩ := spelled
      refine (identifier_accepts ahead).bind fun readFirst _ sameFirst ahead _ => ?_
      have member
          {name : Identifier}
          {kinds rest : List Token.Kind}
          {cursor : Cursor}
          (spelled : kinds ∈ Spellings.anyName name.name)
          (_ : True)
          (ahead : cursor.kinds = kinds ++ rest) :
          Reader.anyName.Accepts cursor rest fun read =>
            read.withoutPlace = name.withoutPlace :=
        (anyName_accepts spelled ahead).mono fun _ same => by
          simp [Identifier.withoutPlace, same]
      refine (further_accepts (fun _ => True) [] member
        (fun _ _ => rfl) (fun _ => trivial) spellsOthers
        (.inl ⟨rfl, trivial, ends⟩) ahead).bind
        fun readOthers _ sameOthers ahead _ => ?_
      refine .spanFrom fun span => .pure ahead ?_
      simp [Path.withoutPlaces, Identifier.withoutPlace, sameFirst,
        sameOthers]

/-- A spelled source of an argument is read as that source. -/
theorem argumentSource_accepts
    {source : ArgumentSource}
    {kinds rest : List Token.Kind}
    {cursor : Cursor}
    (spelled : kinds ∈ source.spelling)
    (ends : (front rest).isMark .dot = false)
    (ahead : cursor.kinds = kinds ++ rest) :
    argumentSource.Accepts cursor rest fun read =>
      read.withoutPlaces = source.withoutPlaces := by
  cases source with
  | path followed =>
      have starts : ∃ name more, kinds = .identifier name :: more := by
        rcases followed with ⟨_ | ⟨first, others⟩, span⟩
        · cases spelled
        · obtain ⟨_, rfl, _, _, rfl⟩ := spelled
          exact ⟨_, _, rfl⟩
      obtain ⟨name, more, rfl⟩ := starts
      refine .peek (Cursor.kind_of_kinds ahead) ?_
      refine (path_accepts spelled ends ahead).bind
        fun read _ same ahead _ => .pure ahead ?_
      simp [ArgumentSource.withoutPlaces, same]
  | literal value =>
      have spelledScalar : kinds ∈ value.spelling := by
        cases value with
        | word name =>
            exact .inr spelled
        | number value =>
            exact spelled
        | string contents =>
            exact spelled
      have notName : ∀ name, front (kinds ++ rest) ≠ .identifier name := by
        cases value with
        | word name =>
            obtain ⟨word, _, rfl⟩ := spelled
            simp
        | number value =>
            cases spelled
            simp
        | string contents =>
            cases spelled
            simp
      refine .peek (Cursor.kind_of_kinds ahead) ?_
      split
      · next name isName =>
        exact (notName name isName).elim
      · refine (scalar_accepts spelledScalar ahead).bind
          fun read _ same ahead _ => .pure ahead ?_
        simp [same]

/-- A spelled argument is read with its name and its source. -/
theorem argument_accepts
    {argument : Argument}
    {kinds rest : List Token.Kind}
    {cursor : Cursor}
    (spelled : kinds ∈ argument.spelling)
    (ends : (front rest).isMark .dot = false)
    (ahead : cursor.kinds = kinds ++ rest) :
    Reader.argument.Accepts cursor rest fun read =>
      read.withoutPlaces = argument.withoutPlaces := by
  obtain ⟨_, ⟨key, spellsKey, sign, spellsSign, rfl⟩,
    source, spellsSource, rfl⟩ := spelled
  simp only [List.append_assoc] at ahead
  refine (anyName_accepts spellsKey ahead).bind
    fun readKey _ sameKey ahead _ => ?_
  refine (separator_accepts spellsSign ahead).bind
    fun readSign _ sameSign ahead _ => ?_
  refine (argumentSource_accepts spellsSource ends ahead).bind
    fun readSource _ sameSource ahead _ => ?_
  refine .spanFrom fun span => .pure ahead ?_
  simp [Argument.withoutPlaces, Identifier.withoutPlace, sameKey, sameSign,
    sameSource]

/-- Arguments spelled between parentheses are all read, in their order. -/
theorem arguments_accepts
    {given : List Argument}
    {kinds rest : List Token.Kind}
    {cursor : Cursor}
    (spelled : kinds ∈ Argument.listSpelling given)
    (ahead : cursor.kinds = kinds ++ .mark .rightParenthesis :: rest) :
    arguments.Accepts cursor (.mark .rightParenthesis :: rest) fun read =>
      read.map Argument.withoutPlaces = given.map Argument.withoutPlaces := by
  cases given with
  | nil =>
      cases spelled
      refine .peek (Cursor.kind_of_kinds ahead) ?_
      exact .pure ahead rfl
  | cons first others =>
      obtain ⟨firstKinds, spellsFirst, otherKinds, spellsOthers, rfl⟩ :=
        spelled
      simp only [List.append_assoc] at ahead
      have notEmpty :
          (front (firstKinds ++ (otherKinds ++
            .mark .rightParenthesis :: rest))).isMark
              .rightParenthesis = false := by
        obtain ⟨_, ⟨key, spellsKey, _, _, rfl⟩, _, _, rfl⟩ := spellsFirst
        simpa only [List.append_assoc] using front_anyName spellsKey _ _
      have endsFirst :
          (front (otherKinds ++ .mark .rightParenthesis :: rest)).isMark
            .dot = false := by
        rcases further_eq_nil_or_cons spellsOthers with rfl | ⟨more, rfl⟩
        · rfl
        · rfl
      refine .peek (Cursor.kind_of_kinds ahead) ?_
      rw [if_neg (by simp [notEmpty])]
      refine (argument_accepts spellsFirst endsFirst ahead).bind
        fun readFirst _ sameFirst ahead _ => ?_
      refine (further_accepts
        (fun rest => (front rest).isMark .dot = false) []
        argument_accepts (fun _ _ => rfl) (fun _ => rfl)
        spellsOthers (.inl ⟨rfl, rfl, rfl⟩) ahead).bind
        fun readOthers _ sameOthers ahead _ => .pure ahead ?_
      simp [sameFirst, sameOthers]

/-! ## Declarations and statements -/

/-- The rest of an edge is read behind its left name. -/
theorem edgeAfter_accepts
    {statement : EdgeStatement}
    {left : Identifier}
    {attributeKinds rest : List Token.Kind}
    {cursor : Cursor}
    (sameLeft : left.name = statement.left.name)
    (spelled :
      attributeKinds ∈
        AttributeSource.optionalSpelling statement.attributes)
    (ends : EndsStatement rest)
    (ahead :
      cursor.kinds =
        .operator statement.operator ::
          .identifier statement.right.name :: (attributeKinds ++ rest)) :
    (edgeAfter left).Accepts cursor rest fun read =>
      read.withoutPlaces = statement.withoutPlaces := by
  have operator :
      edgeOperator.Accepts cursor
        (.identifier statement.right.name :: (attributeKinds ++ rest))
        fun read => read = statement.operator :=
    .peek (Cursor.kind_of_kinds ahead) (.token ahead fun _ => rfl)
  refine operator.bind fun readOperator _ sameOperator ahead _ => ?_
  refine (identifier_accepts ahead).bind fun right _ sameRight ahead _ => ?_
  refine (attributes?_accepts spelled ends ahead).bind
    fun attributes _ sameAttributes ahead _ => ?_
  refine .spanFrom fun span => .pure ahead ?_
  simp [EdgeStatement.withoutPlaces, Identifier.withoutPlace, sameLeft,
    sameOperator, sameRight, sameAttributes]

/-- An edge is spelled by its two ends, its operator, and its attributes. -/
theorem kinds_of_edge
    {statement : EdgeStatement}
    {kinds : List Token.Kind}
    (spelled : kinds ∈ statement.spelling) :
    ∃ attributeKinds ∈
        AttributeSource.optionalSpelling statement.attributes,
      kinds =
        .identifier statement.left.name ::
          .operator statement.operator ::
          .identifier statement.right.name :: attributeKinds := by
  obtain ⟨_, ⟨_, ⟨_, rfl, _, rfl, rfl⟩, _, rfl, rfl⟩,
    attributeKinds, spellsAttributes, rfl⟩ := spelled
  exact ⟨attributeKinds, spellsAttributes, rfl⟩

/-- A spelled edge is read as that edge. -/
theorem edge_accepts
    {statement : EdgeStatement}
    {kinds rest : List Token.Kind}
    {cursor : Cursor}
    (spelled : kinds ∈ statement.spelling)
    (ends : EndsStatement rest)
    (ahead : cursor.kinds = kinds ++ rest) :
    edge.Accepts cursor rest fun read =>
      read.withoutPlaces = statement.withoutPlaces := by
  obtain ⟨attributeKinds, spellsAttributes, rfl⟩ := kinds_of_edge spelled
  refine (identifier_accepts ahead).bind fun left _ sameLeft ahead _ => ?_
  exact edgeAfter_accepts sameLeft spellsAttributes ends ahead

/-- Names are read up to what is neither a comma nor a name. -/
theorem furtherNames_accepts
    {names : List Identifier}
    {kinds rest : List Token.Kind}
    {cursor : Cursor}
    (spelled :
      kinds ∈ Spellings.further .comma (names.map Identifier.spelling))
    (ends : (front rest).isMark .comma = false)
    (ahead : cursor.kinds = kinds ++ rest) :
    (Reader.further .comma (fun _ => false) identifier).Accepts cursor rest
      fun read =>
        read.map Identifier.withoutPlace =
          names.map Identifier.withoutPlace := by
  have member
      {name : Identifier}
      {kinds rest : List Token.Kind}
      {cursor : Cursor}
      (spelled : kinds ∈ name.spelling)
      (_ : True)
      (ahead : cursor.kinds = kinds ++ rest) :
      identifier.Accepts cursor rest fun read =>
        read.withoutPlace = name.withoutPlace := by
    cases spelled
    exact (identifier_accepts ahead).mono fun _ same => by
      simp [Identifier.withoutPlace, same]
  exact further_accepts (fun _ => True) [] member
    (fun _ _ => rfl) (fun _ => trivial) spelled
    (.inl ⟨rfl, trivial, ends⟩) ahead

/-- Behind a name in a list comes no edge operator. -/
theorem operator?_further
    {members : List Spellings}
    {kinds rest : List Token.Kind}
    (spelled : kinds ∈ Spellings.further .comma members)
    (ends : (front rest).operator? = none) :
    (front (kinds ++ rest)).operator? = none := by
  rcases further_eq_nil_or_cons spelled with rfl | ⟨more, rfl⟩
  · exact ends
  · rfl

/-- A spelled type is read as that type. -/
theorem variableType_accepts
    {type : VariableType}
    {kinds rest : List Token.Kind}
    {cursor : Cursor}
    (spelled : kinds ∈ type.spelling)
    (ahead : cursor.kinds = kinds ++ rest) :
    variableType.Accepts cursor rest fun read => read = type := by
  cases type with
  | node =>
      cases spelled
      exact .peek (Cursor.kind_of_kinds ahead) (.token ahead fun _ => rfl)
  | edge =>
      cases spelled
      exact .peek (Cursor.kind_of_kinds ahead) (.token ahead fun _ => rfl)
  | attributes =>
      cases spelled
      exact .peek (Cursor.kind_of_kinds ahead) (.token ahead fun _ => rfl)

/-- Whatever a variable is declared as is read as it is spelled. -/
theorem variableSource_accepts
    {source : VariableSource}
    {kinds rest : List Token.Kind}
    {cursor : Cursor}
    (spelled : kinds ∈ source.spelling)
    (ahead : cursor.kinds = kinds ++ .mark .semicolon :: rest) :
    variableSource.Accepts cursor (.mark .semicolon :: rest) fun read =>
      read.withoutPlaces = source.withoutPlaces := by
  cases source with
  | reference variableName =>
      obtain ⟨_, rfl, _, rfl, rfl⟩ := spelled
      refine .peek (Cursor.kind_of_kinds ahead) ?_
      refine (Accepts.advance ahead).bind fun dollar _ _ ahead _ => ?_
      refine (referenceAfter_accepts ahead).bind
        fun name _ same ahead _ => .pure ahead ?_
      simp [VariableSource.withoutPlaces, same]
  | nodes names =>
      cases names with
      | nil =>
          cases spelled
      | cons first others =>
          obtain ⟨_, rfl, otherKinds, spellsOthers, rfl⟩ := spelled
          simp only [List.cons_append, List.nil_append] at ahead
          refine .peek (Cursor.kind_of_kinds ahead) ?_
          refine (identifier_accepts ahead).bind
            fun readFirst _ sameFirst ahead _ => ?_
          have noOperator :
              (front (otherKinds ++ .mark .semicolon :: rest)).operator? =
                none :=
            operator?_further spellsOthers rfl
          refine .peek (Cursor.kind_of_kinds ahead) ?_
          rw [noOperator]
          refine (furtherNames_accepts spellsOthers rfl ahead).bind
            fun readOthers _ sameOthers ahead _ => .pure ahead ?_
          simp [VariableSource.withoutPlaces, Identifier.withoutPlace,
            sameFirst, sameOthers]
  | edges statements =>
      cases statements with
      | nil =>
          cases spelled
      | cons first others =>
          obtain ⟨firstKinds, spellsFirst, otherKinds, spellsOthers, rfl⟩ :=
            spelled
          obtain ⟨attributeKinds, spellsAttributes, rfl⟩ :=
            kinds_of_edge spellsFirst
          simp only [List.cons_append, List.append_assoc] at ahead
          have endsFirst :
              EndsStatement (otherKinds ++ .mark .semicolon :: rest) := by
            rcases further_eq_nil_or_cons spellsOthers with
              rfl | ⟨more, rfl⟩
            · exact ⟨rfl, rfl⟩
            · exact ⟨rfl, rfl⟩
          refine .peek (Cursor.kind_of_kinds ahead) ?_
          refine (identifier_accepts ahead).bind
            fun left _ sameLeft ahead _ => ?_
          refine .peek (Cursor.kind_of_kinds ahead) ?_
          refine (edgeAfter_accepts sameLeft spellsAttributes endsFirst
            ahead).bind fun readFirst _ sameFirst ahead _ => ?_
          refine (further_accepts EndsStatement []
            edge_accepts (fun _ _ => rfl) (fun _ => ⟨rfl, rfl⟩) spellsOthers
            (.inl ⟨rfl, ⟨rfl, rfl⟩, rfl⟩) ahead).bind
            fun readOthers _ sameOthers ahead _ => .pure ahead ?_
          simp [VariableSource.withoutPlaces, sameFirst, sameOthers]
  | attributes list =>
      obtain ⟨more, rfl⟩ := kinds_of_attributeList spelled
      refine .peek (Cursor.kind_of_kinds ahead) ?_
      refine (attributeList_accepts spelled ahead).bind
        fun read _ same ahead _ => .pure ahead ?_
      simp [VariableSource.withoutPlaces, same]

/-- A variable declaration starts with its word. -/
theorem kinds_of_variable
    {declaration : VariableDeclaration}
    {kinds : List Token.Kind}
    (spelled : kinds ∈ declaration.spelling) :
    ∃ more, kinds = .keyword .var :: more := by
  obtain ⟨_, ⟨_, ⟨_, ⟨_, rfl, _, _, rfl⟩, _, _, rfl⟩, _, _, rfl⟩,
    _, _, rfl⟩ := spelled
  exact ⟨_, rfl⟩

/-- The rest of a variable declaration is read behind its keyword. -/
theorem variableAfter_accepts
    {declaration : VariableDeclaration}
    {start : Span}
    {kinds rest : List Token.Kind}
    {cursor : Cursor}
    (spelled : .keyword .var :: kinds ∈ declaration.spelling)
    (ahead : cursor.kinds = kinds ++ .mark .semicolon :: rest) :
    (variableAfter start).Accepts cursor (.mark .semicolon :: rest)
      fun read => read.withoutPlaces = declaration.withoutPlaces := by
  obtain ⟨_, ⟨_, ⟨_, ⟨_, rfl, typeKinds, spellsType, rfl⟩, _, rfl, rfl⟩,
    _, rfl, rfl⟩, sourceKinds, spellsSource, whole⟩ := spelled
  simp only [List.cons_append, List.nil_append, List.append_assoc,
    List.cons.injEq, true_and] at whole
  subst whole
  simp only [List.cons_append, List.append_assoc] at ahead
  refine (variableType_accepts spellsType ahead).bind
    fun type _ sameType ahead _ => ?_
  refine (identifier_accepts ahead).bind fun name _ sameName ahead _ => ?_
  refine (mark_accepts ahead).bind fun _ _ _ ahead _ => ?_
  refine (variableSource_accepts spellsSource ahead).bind
    fun source _ sameSource ahead _ => ?_
  refine .spanFrom fun span => .pure ahead ?_
  simp [VariableDeclaration.withoutPlaces, Identifier.withoutPlace, sameType,
    sameName, sameSource]

/-- The rest of a default declaration is read behind its keyword. -/
theorem defaultsAfter_accepts
    {declaration : DefaultDeclaration}
    {start : Span}
    {kinds rest : List Token.Kind}
    {cursor : Cursor}
    (spelled : kinds ∈ declaration.source.spelling)
    (ahead : cursor.kinds = kinds ++ .mark .semicolon :: rest) :
    (defaultsAfter start declaration.target).Accepts cursor
      (.mark .semicolon :: rest) fun read =>
        read.withoutPlaces = declaration.withoutPlaces := by
  have spelledSource :
      kinds ∈ AttributeSource.optionalSpelling (some declaration.source) :=
    spelled
  refine (attributes?_accepts spelledSource ⟨rfl, rfl⟩ ahead).bind fun source? _ same ahead _ => ?_
  cases source? with
  | none =>
      cases same
  | some source =>
      refine .spanFrom fun span => .pure ahead ?_
      simp [DefaultDeclaration.withoutPlaces, Option.some.inj same]

/-- The rest of a node statement is read behind its target. -/
theorem nodeAfter_accepts
    (statement : NodeStatement)
    {target : NodeTarget}
    {start : Span}
    {kinds rest : List Token.Kind}
    {cursor : Cursor}
    (sameTarget :
      target.withoutPlaces = statement.target.withoutPlaces)
    (spelled :
      kinds ∈ AttributeSource.optionalSpelling statement.attributes)
    (ahead : cursor.kinds = kinds ++ .mark .semicolon :: rest) :
    (nodeAfter start target).Accepts cursor (.mark .semicolon :: rest)
      fun read => read.withoutPlaces = statement.withoutPlaces := by
  refine (attributes?_accepts spelled ⟨rfl, rfl⟩ ahead).bind
    fun attributes _ same ahead _ => ?_
  refine .spanFrom fun span => .pure ahead ?_
  simp [NodeStatement.withoutPlaces, sameTarget, same]

/-- Attributes or a semicolon go on with no list of names. -/
theorem front_optionalSpelling
    {source : Option AttributeSource}
    {kinds : List Token.Kind}
    (spelled : kinds ∈ AttributeSource.optionalSpelling source)
    (rest : List Token.Kind) :
    (front (kinds ++ .mark .semicolon :: rest)).isMark .comma = false ∧
      (front (kinds ++ .mark .semicolon :: rest)).operator? = none := by
  cases source with
  | none =>
      cases spelled
      exact ⟨rfl, rfl⟩
  | some source =>
      cases source with
      | list attributes =>
          obtain ⟨more, rfl⟩ := kinds_of_attributeList spelled
          exact ⟨rfl, rfl⟩
      | reference variableName =>
          obtain ⟨_, rfl, _, rfl, rfl⟩ := spelled
          exact ⟨rfl, rfl⟩

/-- A statement that starts with a name is read behind that name. -/
theorem statementAfter_accepts
    {statement : Statement}
    (first : Identifier)
    {kinds rest : List Token.Kind}
    {cursor : Cursor}
    (notBinding : (BodyItem.statement statement).mentionsNodes = true)
    (spelled : .identifier first.name :: kinds ∈ statement.spelling)
    (ahead : cursor.kinds = kinds ++ .mark .semicolon :: rest) :
    (statementAfter first).Accepts cursor (.mark .semicolon :: rest)
      fun read => read.withoutPlaces = statement.withoutPlaces := by
  cases statement with
  | binding declared =>
      cases notBinding
  | edge written =>
      obtain ⟨attributeKinds, spellsAttributes, whole⟩ :=
        kinds_of_edge spelled
      obtain ⟨isLeft, rfl⟩ := List.cons.inj whole
      refine .peek (Cursor.kind_of_kinds ahead) ?_
      refine (edgeAfter_accepts (Token.Kind.identifier.inj isLeft)
        spellsAttributes ⟨rfl, rfl⟩ ahead).bind
        fun read _ same ahead _ => .pure ahead ?_
      simp [Statement.withoutPlaces, same]
  | node written =>
      rcases written with ⟨target, attributes, span⟩
      obtain ⟨targetKinds, spellsTarget, attributeKinds, spellsAttributes,
        whole⟩ := spelled
      cases target with
      | reference variableName =>
          obtain ⟨_, rfl, _, rfl, rfl⟩ := spellsTarget
          cases whole
      | list names =>
          cases names with
          | nil =>
              cases spellsTarget
          | cons name others =>
              obtain ⟨_, rfl, otherKinds, spellsOthers, rfl⟩ := spellsTarget
              simp only [List.cons_append, List.nil_append,
                List.cons.injEq, Token.Kind.identifier.injEq] at whole
              obtain ⟨isName, rfl⟩ := whole
              rw [List.append_assoc] at ahead
              have ends := front_optionalSpelling spellsAttributes rest
              refine .peek (Cursor.kind_of_kinds ahead) ?_
              rw [operator?_further spellsOthers ends.2]
              refine (furtherNames_accepts spellsOthers ends.1 ahead).bind
                fun readOthers _ sameOthers ahead _ => ?_
              have sameTarget :
                  (NodeTarget.list (first :: readOthers)).withoutPlaces =
                    (NodeTarget.list (name :: others)).withoutPlaces := by
                simp [NodeTarget.withoutPlaces, Identifier.withoutPlace,
                  sameOthers, isName]
              refine (nodeAfter_accepts
                ⟨.list (name :: others), attributes, span⟩
                sameTarget spellsAttributes ahead).bind
                fun read _ same ahead _ => .pure ahead ?_
              simp [Statement.withoutPlaces, same]

/-- A node statement that names a variable is read behind the dollar sign. -/
theorem referenceStatementAfter_accepts
    {variableName : Identifier}
    {attributes : Option AttributeSource}
    {dollar : Span}
    (span : Span)
    {kinds rest : List Token.Kind}
    {cursor : Cursor}
    (spelled : kinds ∈ AttributeSource.optionalSpelling attributes)
    (ahead :
      cursor.kinds =
        .identifier variableName.name ::
          (kinds ++ .mark .semicolon :: rest)) :
    (referenceStatementAfter dollar).Accepts cursor
      (.mark .semicolon :: rest) fun read =>
        read.withoutPlaces =
          (Statement.node
            ⟨.reference variableName, attributes, span⟩).withoutPlaces := by
  refine (referenceAfter_accepts ahead).bind
    fun name _ sameName ahead _ => ?_
  refine (nodeAfter_accepts
    ⟨.reference variableName, attributes, span⟩
    (by simp [NodeTarget.withoutPlaces, sameName]) spelled ahead).bind
    fun read _ same ahead _ => .pure ahead ?_
  simp [Statement.withoutPlaces, same]

end Reader

end GraphScript
