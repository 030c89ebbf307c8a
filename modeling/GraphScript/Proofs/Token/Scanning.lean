import GraphScript.Proofs.Token.Lexemes

namespace GraphScript.Token

/-!
# Scanning undoes writing

A text that is written token after token, with a gap between any two of them, is
cut into exactly these tokens. Each step of the scanner passes one gap and one
spelling, and no look-ahead reaches past the gap behind a spelling.
-/

/--
The texts that consist of spellings of the given tokens.

There is a gap between any two spellings, and there may be one at the end.
-/
inductive Written :
    List Kind →
    List Char →
    Prop where
  | nil :
      Written [] []
  | last
      {kind : Kind}
      {text : List Char}
      (spelled : Spelled kind text) :
      Written [kind] text
  | joined
      {kind : Kind}
      {kinds : List Kind}
      {text gap rest : List Char}
      (spelled : Spelled kind text)
      (isGap : Gap false gap)
      (nonempty : gap ≠ [])
      (later : Written kinds rest) :
      Written (kind :: kinds) (text ++ (gap ++ rest))

namespace Scanner

variable
  {scanner ahead next : Scanner}
  {kind : Kind}
  {gap text : List Char}

/-! ## One step of the scanner -/

theorem isFull_eq_false
    (faultless : scanner.faults = []) :
    scanner.isFull = false := by
  rw [isFull, faultless]
  rfl

theorem pass_token
    (scanner : Scanner)
    (kind : Kind)
    (length : Nat) :
    scanner.pass (Lexeme.token kind length) = scanner.skip length := by
  simp [pass, report, Lexeme.token, skip]

/-- At the end of the text there is nothing but the token that ends it. -/
theorem tokens_of_end
    (isAhead : scanner.skipSeparators = ahead)
    (atEnd : ahead.rest = []) :
    scanner.tokens = ([ahead.endToken], ahead) := by
  subst isAhead
  rw [tokens]
  split
  · rfl
  · split
    · rfl
    · next isCons =>
        rw [atEnd] at isCons
        cases isCons

/-- A token at the head of the text comes before the tokens behind it. -/
theorem tokens_of_token
    {first : Char}
    {tail : List Char}
    {length : Nat}
    (isAhead : scanner.skipSeparators = ahead)
    (faultless : ahead.faults = [])
    (isRest : ahead.rest = first :: tail)
    (isToken :
      Lexeme.ofHead first tail ahead.position = Lexeme.token kind length)
    (isNext : next = ahead.skip length) :
    scanner.tokens =
      (⟨kind, .upTo ahead.position next.position⟩ :: next.tokens.1,
        next.tokens.2) := by
  subst isAhead isNext
  rw [tokens]
  dsimp only
  rw [isFull_eq_false faultless, if_neg Bool.false_ne_true]
  split
  · next isNil =>
      rw [isRest] at isNil
      cases isNil
  · next isCons =>
      rw [isRest] at isCons
      cases isCons
      have notFull :
          (scanner.skipSeparators.skip length).isFull = false :=
        isFull_eq_false faultless
      rw [isToken, pass_token]
      dsimp only [Lexeme.token]
      rw [notFull]
      rfl

/-- One gap is passed, and then what is cut off the text behind it. -/
theorem tokens_of_cutsOff
    (passesGap : scanner.Passes gap ahead)
    (isGap : Gap false gap)
    (passesText : ahead.Passes text next)
    (isCut : Lexeme.CutsOff kind text next.rest)
    (faultless : scanner.faults = []) :
    scanner.tokens =
      (⟨kind, .upTo ahead.position next.position⟩ :: next.tokens.1,
        next.tokens.2) := by
  have isAhead : scanner.skipSeparators = ahead := by
    apply skipSeparators_of_passes passesGap isGap
    · intro isTrue
      cases isTrue
    · rw [passesText.isRest]
      exact Lexeme.startsNoGap_of_cutsOff isCut
  obtain ⟨first, tail, rfl, isToken⟩ := isCut
  apply tokens_of_token isAhead
  · rw [passesGap.faults, faultless]
  · exact passesText.isRest
  · exact isToken _
  · exact passesText.isSkip

/-- One gap is passed, and then one spelling, whatever gap comes behind it. -/
theorem tokens_of_spelled
    (passesGap : scanner.Passes gap ahead)
    (isGap : Gap false gap)
    (passesText : ahead.Passes text next)
    (spelled : Spelled kind text)
    (ends : EndsLexeme next.rest)
    (faultless : scanner.faults = []) :
    scanner.tokens =
      (⟨kind, .upTo ahead.position next.position⟩ :: next.tokens.1,
        next.tokens.2) :=
  tokens_of_cutsOff passesGap isGap passesText
    (Lexeme.cutsOff_of_spelled spelled ends) faultless

/-- A gap at the end of the text is passed, and then the text ends. -/
theorem tokens_of_gap
    (passesGap : scanner.Passes gap ahead)
    (isGap : Gap true gap)
    (atEnd : ahead.rest = []) :
    scanner.tokens = ([ahead.endToken], ahead) := by
  have isAhead : scanner.skipSeparators = ahead := by
    apply skipSeparators_of_passes passesGap isGap
    · intro _
      exact atEnd
    · rw [atEnd]
      exact startsNoGap_nil
  exact tokens_of_end isAhead atEnd

/-! ## A run of the scanner -/

/-- A written text is cut into its tokens, also where a gap stands before it. -/
theorem tokens_of_written
    {kinds : List Kind}
    (written : Written kinds text)
    (passesGap : scanner.Passes gap ahead)
    (isGap : Gap false gap)
    (isRest : ahead.rest = text)
    (faultless : scanner.faults = []) :
    scanner.tokens.2.faults = [] ∧
      scanner.tokens.1.map Token.kind = kinds ++ [.endOfFile] := by
  induction written generalizing scanner ahead gap with
  | nil =>
      rw [tokens_of_gap passesGap isGap.toEnd isRest]
      constructor
      · rw [passesGap.faults, faultless]
      · rfl
  | @last kind text spelled =>
      have isEnd : ahead.rest = text ++ [] := by
        rw [isRest, List.append_nil]
      have passesText := passes_skip isEnd
      have atEnd := rest_skip_of_append isEnd
      have ends : EndsLexeme (ahead.skip text.length).rest := by
        rw [atEnd]
        exact endsLexeme_nil
      have endsHere := tokens_of_gap (passes_nil _) .nil atEnd
      rw [tokens_of_spelled passesGap isGap passesText spelled ends faultless,
        endsHere]
      constructor
      · exact (passesText.faults.trans passesGap.faults).trans faultless
      · rfl
  | @joined kind kinds text laterGap rest spelled isLaterGap nonempty _
      inductionHypothesis =>
      have passesText := passes_skip isRest
      have isLater := rest_skip_of_append isRest
      have passesLater := passes_skip isLater
      have ends : EndsLexeme (ahead.skip text.length).rest := by
        rw [isLater]
        exact isLaterGap.endsLexeme nonempty rest
      have stillFaultless : (ahead.skip text.length).faults = [] :=
        (passesText.faults.trans passesGap.faults).trans faultless
      obtain ⟨laterFaultless, laterTokens⟩ :=
        inductionHypothesis passesLater isLaterGap
          (rest_skip_of_append isLater) stillFaultless
      rw [tokens_of_spelled passesGap isGap passesText spelled ends faultless]
      constructor
      · exact laterFaultless
      · rw [List.map_cons, laterTokens]
        rfl

end Scanner

/--
Scanning undoes writing.

Of a text that is written token after token the scanner reports no error, and it
returns exactly these tokens and the one that ends every text.
-/
theorem scanning_undoes_writing
    {kinds : List Kind}
    {text : List Char}
    (written : Written kinds text) :
    (scan text).faults = [] ∧
      (scan text).tokens.map Token.kind = kinds ++ [.endOfFile] :=
  Scanner.tokens_of_written written (Scanner.passes_nil _) .nil rfl rfl

/-- Three tokens on two lines, with a comment behind each of the first two. -/
def twoLines : String :=
  "'é\\'' /* - */\r\n-1.5 // a\nx"

theorem written_twoLines :
    Written
      [.string "é'", .number (numberValue "-1.5".toList), .identifier "x"]
      twoLines.toList := by
  have isBody : QuotedBody '\'' ['é', '\''] ['é', '\\', '\''] := by
    apply QuotedBody.plain (by decide) (by decide) (by decide)
    exact .escaped (.inl (.inr rfl)) .nil
  have isNumeral : Numeral "-1.5".toList := by
    have isWhole : Digits ['1'] := ⟨by decide, by simp [IsDigit]⟩
    have isFraction : Fraction ['.', '5'] := .point ⟨by decide, by simp [IsDigit]⟩
    exact .negative isWhole isFraction
  have isName : Spelled (.identifier "x") "x".toList := by
    apply Spelled.identifier
    · exact .of_all rfl rfl
    · intro word
      cases word
      all_goals decide
  have isComment : Gap false " /* - */\r\n".toList := by
    have closesOnce : ¬ ['*', '/'] <:+: [' ', '-', ' '] := by decide
    have isLineEnd : Gap false ['\r', '\n'] :=
      .blank (by decide) (.blank (by decide) .nil)
    exact .blank (by decide) (.blockComment closesOnce isLineEnd)
  have isLine : Gap false " // a\n".toList := by
    have oneLine : '\n' ∉ [' ', 'a'] := by decide
    exact .blank (by decide) (.lineComment oneLine .nil)
  have isNumber := Spelled.number isNumeral isNumeral.ofText?_eq_numberValue
  have isLater := Written.joined isNumber isLine (by decide) (.last isName)
  exact .joined (.string (.inr rfl) isBody) isComment (by decide) isLater

theorem scanning_undoes_writing_of_two_lines :
    Written
        [.string "é'", .number (numberValue "-1.5".toList), .identifier "x"]
        twoLines.toList ∧
      (scan twoLines.toList).faults = [] ∧
      (scan twoLines.toList).tokens.map Token.kind =
        [.string "é'", .number (numberValue "-1.5".toList), .identifier "x",
          .endOfFile] :=
  ⟨written_twoLines, scanning_undoes_writing written_twoLines⟩

end GraphScript.Token
