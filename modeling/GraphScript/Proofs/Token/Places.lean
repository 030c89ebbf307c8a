import GraphScript.Proofs.Source.Positions
import GraphScript.Proofs.Token.FaultlessLexemes

namespace GraphScript.Token

/-!
# Where the tokens of a text stand

Whether or not faults are found, the scanner only moves forward, and its
position says what it has passed. Every token is cut off the text that is ahead
and has no line feed in it, so the spans of tokens are on single lines and in
order.
-/

/-! ## Lexemes stay on their line -/

/-- A line feed is no quote. -/
theorem notLineFeed_of_isQuote
    {quote : Char}
    (isQuote : IsQuote quote) :
    '\n' ≠ quote := by
  rcases isQuote with rfl | rfl
  all_goals decide

/-- What a string takes up holds no line feed. -/
theorem notMem_take_stringTail
    {quote : Char}
    (isQuote : IsQuote quote)
    (start here : Position)
    (rest : List Char) :
    '\n' ∉ rest.take (stringTail quote start here rest).length := by
  fun_induction stringTail quote start here rest with
  | case1 =>
      simp
  | case2 =>
      simp [StringTail.after, StringTail.unterminated]
  | case3 =>
      simp [StringTail.after, StringTail.unterminated]
  | case4 here letter rest next isOther tail value isEscape
      inductionHypothesis =>
      simp only [StringTail.after, Nat.add_comm 2, List.take_succ_cons,
        List.mem_cons, not_or]
      exact ⟨by decide, Ne.symm isOther, inductionHypothesis⟩
  | case5 here letter rest next isOther tail noEscape span
      inductionHypothesis =>
      simp only [StringTail.withFault, StringTail.after, Nat.add_comm 2,
        List.take_succ_cons, List.mem_cons, not_or]
      exact ⟨by decide, Ne.symm isOther, inductionHypothesis⟩
  | case6 here rest =>
      simpa using notLineFeed_of_isQuote isQuote
  | case7 =>
      simp [StringTail.unterminated]
  | case8 here character rest notLast notEscape notQuote isOther
      inductionHypothesis =>
      simp only [StringTail.after, Nat.add_comm 1, List.take_succ_cons,
        List.mem_cons, not_or]
      exact ⟨Ne.symm isOther, inductionHypothesis⟩

namespace Lexeme

variable
  {first : Char}
  {kind : Kind}
  {rest : List Char}
  {position : Position}

/-- Only characters that form no token, and strings, are reported. -/
theorem faults_of_token
    (notQuote : ¬ IsQuote first)
    (isToken : (ofHead first rest position).kind? = some kind) :
    (ofHead first rest position).faults = [] := by
  by_cases isDigit : IsDigit first
  · rw [ofHead_of_isDigit isDigit]
    rfl
  by_cases starts : IsLetter first ∨ first = '_'
  · rw [ofHead_of_startsWord starts]
    rfl
  by_cases isHyphen : first = '-'
  · subst isHyphen
    rw [ofHead_hyphen] at isToken ⊢
    unfold hyphen at isToken ⊢
    grind [stray, token, number]
  · rw [ofHead_of_sign notQuote isDigit starts isHyphen] at isToken ⊢
    grind [stray, token]

/-- A token is cut off a text as some characters of one line. -/
structure CutsLine
    (kind : Kind)
    (length : Nat)
    (source : List Char) :
    Prop where
  inText : kind ≠ .endOfFile
  nonempty : source.take length ≠ []
  oneLine : '\n' ∉ source.take length

/-- Every token is cut off as characters of one line. -/
theorem cutsLine_of_token
    (isToken : (ofHead first rest position).kind? = some kind) :
    CutsLine kind (ofHead first rest position).length (first :: rest) := by
  by_cases isQuote : IsQuote first
  · rw [ofHead_of_isQuote isQuote] at isToken ⊢
    cases isToken
    simp only [string, Nat.add_comm 1]
    refine ⟨fun isEnd => ?_, List.cons_ne_nil _ _, ?_⟩
    · cases isEnd
    · rw [List.take_succ_cons, List.mem_cons, not_or]
      exact ⟨notLineFeed_of_isQuote isQuote,
        notMem_take_stringTail isQuote _ _ rest⟩
  · obtain ⟨found, text, after, isText, isLexeme, spelled⟩ :=
      ofHead_startsText (faults_of_token isQuote isToken)
    have stays := staysOnLine_of_spelled spelled
    rw [isLexeme] at isToken ⊢
    cases isToken
    have cut : (first :: rest).take (token kind text.length).length = text := by
      rw [isText]
      exact List.take_left
    refine ⟨?_, cut.symm ▸ stays.nonempty, cut.symm ▸ stays.oneLine⟩
    rintro rfl
    cases spelled

end Lexeme

/-! ## What a scanner passes -/

namespace Scanner

/-- A scanner stands behind a text that was ahead of another one. -/
structure MovesOver
    (scanner : Scanner)
    (text : List Char)
    (next : Scanner) :
    Prop where
  isRest : scanner.rest = text ++ next.rest
  position : next.position = scanner.position.advanceBy text

variable {scanner next : Scanner}

/-- Skipping moves over the characters that are skipped. -/
theorem movesOver_skip
    (scanner : Scanner)
    (count : Nat) :
    scanner.MovesOver (scanner.rest.take count) (scanner.skip count) :=
  ⟨(List.take_append_drop count scanner.rest).symm, rfl⟩

/-- Passing a lexeme moves over its characters. -/
theorem movesOver_pass
    (scanner : Scanner)
    (lexeme : Lexeme) :
    scanner.MovesOver (scanner.rest.take lexeme.length)
      (scanner.pass lexeme) :=
  ⟨(scanner.movesOver_skip lexeme.length).isRest, rfl⟩

/-- Moving over one text and then another moves over both. -/
theorem MovesOver.append
    {text later : List Char}
    {last : Scanner}
    (moves : scanner.MovesOver text next)
    (movesLater : next.MovesOver later last) :
    scanner.MovesOver (text ++ later) last := by
  constructor
  · rw [moves.isRest, movesLater.isRest, List.append_assoc]
  · rw [movesLater.position, moves.position, Position.advanceBy_append]

/-- Stepping over a separator moves over some text. -/
theorem movesOver_of_skipSeparator?
    (skipped : scanner.skipSeparator? = some next) :
    ∃ gap, scanner.MovesOver gap next := by
  unfold skipSeparator? at skipped
  split at skipped
  · cases skipped
  · cases skipped
    exact ⟨_, scanner.movesOver_skip _⟩
  · cases skipped
    unfold skipBlockComment
    split
    · exact ⟨_, scanner.movesOver_skip _⟩
    · exact ⟨_, (scanner.movesOver_skip _).isRest, rfl⟩
  · split at skipped
    · cases skipped
      exact ⟨_, scanner.movesOver_skip 1⟩
    · cases skipped

/-- Stepping over all separators moves over some text. -/
theorem movesOver_skipSeparators
    (scanner : Scanner) :
    ∃ gap, scanner.MovesOver gap scanner.skipSeparators := by
  fun_induction skipSeparators scanner with
  | case1 scanner next skipped shorter inductionHypothesis =>
      obtain ⟨gap, moves⟩ := movesOver_of_skipSeparator? skipped
      obtain ⟨later, movesLater⟩ := inductionHypothesis
      exact ⟨gap ++ later, moves.append movesLater⟩
  | case2 scanner =>
      exact ⟨[], rfl, rfl⟩

end Scanner

/-! ## The layout of tokens -/

/-- Tokens are cut off a text from a position on, up to a place where it ends. -/
inductive LaidOut :
    Position →
    List Char →
    List Token →
    Prop where
  | finish
      (position : Position)
      (gap rest : List Char) :
      LaidOut position (gap ++ rest)
        [⟨.endOfFile, .point (position.advanceBy gap)⟩]
  /-- Characters that are dropped stand in front of the token. -/
  | token
      {position : Position}
      {kind : Kind}
      {gap text rest : List Char}
      {later : List Token}
      (inText : kind ≠ .endOfFile)
      (nonempty : text ≠ [])
      (oneLine : '\n' ∉ text)
      (goesOn : LaidOut (position.advanceBy (gap ++ text)) rest later) :
      LaidOut position (gap ++ (text ++ rest))
        (⟨kind,
            .upTo (position.advanceBy gap)
              (position.advanceBy (gap ++ text))⟩ :: later)

namespace LaidOut

/-- More characters may be dropped in front. -/
theorem behind
    {position : Position}
    {gap rest : List Char}
    {tokens : List Token}
    (laidOut : LaidOut (position.advanceBy gap) rest tokens) :
    LaidOut position (gap ++ rest) tokens := by
  cases laidOut with
  | finish _ dropped rest =>
      rw [← Position.advanceBy_append, ← List.append_assoc]
      exact .finish position (gap ++ dropped) rest
  | token inText nonempty oneLine goesOn =>
      simp only [← Position.advanceBy_append, ← List.append_assoc] at goesOn ⊢
      rw [List.append_assoc _ _ _]
      exact .token inText nonempty oneLine goesOn

variable
  {position : Position}
  {text : List Char}
  {tokens : List Token}
  {token : Token}

/-- Every token starts behind some part of the text. -/
theorem exists_before
    (laidOut : LaidOut position text tokens)
    (member : token ∈ tokens) :
    ∃ before after,
      text = before ++ after ∧
        token.span.start = position.advanceBy before := by
  induction laidOut with
  | finish position gap rest =>
      cases List.mem_singleton.mp member
      exact ⟨gap, rest, rfl, rfl⟩
  | @token position kind gap text rest later inText nonempty oneLine goesOn
      inductionHypothesis =>
      rcases List.mem_cons.mp member with rfl | isLater
      · exact ⟨gap, text ++ rest, rfl, rfl⟩
      · obtain ⟨before, after, rfl, starts⟩ := inductionHypothesis isLater
        refine ⟨gap ++ text ++ before, after, by simp, ?_⟩
        rw [starts, ← Position.advanceBy_append]

/-- No token starts before the place where the text does. -/
theorem le_start
    (laidOut : LaidOut position text tokens)
    (member : token ∈ tokens) :
    position ≤ token.span.start := by
  obtain ⟨before, _, _, starts⟩ := laidOut.exists_before member
  exact starts ▸ position.le_advanceBy before

/-- Every token starts and ends on one line. -/
theorem onLine
    (laidOut : LaidOut position text tokens)
    (placed : 1 ≤ position.column)
    (member : token ∈ tokens) :
    token.span.OnLine := by
  induction laidOut with
  | finish position gap rest =>
      cases List.mem_singleton.mp member
      exact Span.onLine_point _
  | @token position kind gap text rest later inText nonempty oneLine goesOn
      inductionHypothesis =>
      rcases List.mem_cons.mp member with rfl | isLater
      · rw [Position.advanceBy_append]
        exact (Span.upTo_of_oneLine
          (Position.one_le_column_advanceBy placed gap) nonempty oneLine).1
      · exact inductionHypothesis
          (Position.one_le_column_advanceBy placed _) isLater

/-- Every token ends before the next ones start. -/
theorem pairwise_precedes
    (laidOut : LaidOut position text tokens)
    (placed : 1 ≤ position.column) :
    tokens.Pairwise fun earlier later => earlier.span.Precedes later.span := by
  induction laidOut with
  | finish =>
      exact List.pairwise_singleton _ _
  | @token position kind gap text rest later inText nonempty oneLine goesOn
      inductionHypothesis =>
      refine List.pairwise_cons.mpr ⟨fun other member => ?_,
        inductionHypothesis (Position.one_le_column_advanceBy placed _)⟩
      have starts := goesOn.le_start member
      rw [Position.advanceBy_append] at starts ⊢
      exact lt_of_lt_of_le
        (Span.upTo_of_oneLine
          (Position.one_le_column_advanceBy placed gap) nonempty oneLine).2
        starts

/-- Only the last token ends the text. -/
theorem exists_written
    (laidOut : LaidOut position text tokens) :
    ∃ written finish,
      tokens = written ++ [finish] ∧
        finish.kind = .endOfFile ∧
        ∀ token ∈ written, token.kind ≠ .endOfFile := by
  induction laidOut with
  | finish position gap rest =>
      exact ⟨[], _, rfl, rfl, nofun⟩
  | token inText nonempty oneLine goesOn inductionHypothesis =>
      obtain ⟨written, finish, rfl, isEnd, areInText⟩ := inductionHypothesis
      exact ⟨_ :: written, finish, rfl, isEnd,
        List.forall_mem_cons.mpr ⟨inText, areInText⟩⟩

end LaidOut

namespace Scanner

variable
  {scanner ahead next : Scanner}
  {gap : List Char}
  {lexeme : Lexeme}
  {kind : Kind}

/-- At the end of the text only the end token is laid out. -/
theorem laidOut_end
    (moves : scanner.MovesOver gap ahead) :
    LaidOut scanner.position scanner.rest [ahead.endToken] := by
  rw [endToken, moves.isRest, moves.position]
  exact .finish scanner.position gap ahead.rest

/-- A token at the head of the text is cut off it in front of later ones. -/
theorem laidOut_cons
    {later : List Token}
    (moves : scanner.MovesOver gap ahead)
    (isNext : next = ahead.pass lexeme)
    (cuts : Lexeme.CutsLine kind lexeme.length ahead.rest)
    (goesOn : LaidOut next.position next.rest later) :
    LaidOut scanner.position scanner.rest
      (⟨kind, .upTo ahead.position next.position⟩ :: later) := by
  have passes : ahead.MovesOver (ahead.rest.take lexeme.length) next :=
    isNext ▸ ahead.movesOver_pass lexeme
  have both := moves.append passes
  rw [both.position] at goesOn ⊢
  rw [moves.position, both.isRest, List.append_assoc]
  exact .token cuts.inText cuts.nonempty cuts.oneLine goesOn

/-- The scanner cuts its tokens off the text, whether or not it finds faults. -/
theorem laidOut_tokens
    (scanner : Scanner) :
    LaidOut scanner.position scanner.rest scanner.tokens.1 := by
  fun_induction tokens scanner with
  | case1 scanner ahead isFull =>
      obtain ⟨gap, moves⟩ := movesOver_skipSeparators scanner
      exact laidOut_end moves
  | case2 scanner ahead notFull atEnd =>
      obtain ⟨gap, moves⟩ := movesOver_skipSeparators scanner
      exact laidOut_end moves
  | case3 scanner ahead notFull character rest isRest lexeme next _ noToken
      inductionHypothesis =>
      -- Characters that form no token belong to the gap in front of the next one.
      obtain ⟨gap, moves⟩ := movesOver_skipSeparators scanner
      have both := moves.append (movesOver_pass scanner.skipSeparators lexeme)
      have position : next.position = _ := both.position
      rw [position] at inductionHypothesis
      rw [both.isRest]
      exact inductionHypothesis.behind
  | case4 scanner ahead notFull character rest isRest lexeme next _ kind isToken
      token isFull =>
      obtain ⟨gap, moves⟩ := movesOver_skipSeparators scanner
      have cuts := Lexeme.cutsLine_of_token isToken
      rw [← isRest] at cuts
      have stays : next.MovesOver [] next := ⟨rfl, rfl⟩
      exact laidOut_cons moves rfl cuts (laidOut_end stays)
  | case5 scanner ahead notFull character rest isRest lexeme next _ kind isToken
      token notFullLater later last isLater inductionHypothesis =>
      obtain ⟨gap, moves⟩ := movesOver_skipSeparators scanner
      have cuts := Lexeme.cutsLine_of_token isToken
      rw [← isRest] at cuts
      rw [isLater] at inductionHypothesis
      exact laidOut_cons moves rfl cuts inductionHypothesis

end Scanner

/-! ## The tokens of a text -/

/-- The tokens of a text stand on its lines, one behind another. -/
structure Placed
    (text : List Char)
    (tokens : List Token) :
    Prop where
  onLine : ∀ token ∈ tokens, token.span.OnLine
  inOrder :
    tokens.Pairwise fun earlier later => earlier.span.Precedes later.span
  inText :
    ∀ token ∈ tokens,
      ∃ before after,
        text = before ++ after ∧
          token.span.start = Position.origin.advanceBy before

/-- The scanner places its tokens where they stand in the text. -/
theorem placed_scan
    (text : List Char) :
    Placed text (scan text).tokens := by
  have laidOut : LaidOut .origin text (scan text).tokens :=
    (Scanner.ofText text).laidOut_tokens
  exact
    { onLine := fun token member => laidOut.onLine (Nat.le_refl 1) member
      inOrder := laidOut.pairwise_precedes (Nat.le_refl 1)
      inText := fun token member => laidOut.exists_before member }

/-- The scanner ends its tokens with the end of the file, and with nothing else. -/
theorem exists_written_scan
    (text : List Char) :
    ∃ written finish,
      (scan text).tokens = written ++ [finish] ∧
        finish.kind = .endOfFile ∧
        ∀ token ∈ written, token.kind ≠ .endOfFile :=
  (Scanner.ofText text).laidOut_tokens.exists_written

end GraphScript.Token
