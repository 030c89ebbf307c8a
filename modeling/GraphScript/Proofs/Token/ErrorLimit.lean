import GraphScript.Proofs.Token.StrayCharacters

namespace GraphScript.Token

/-!
# Scanning up to the limit of errors

The scanner looks at the limit of errors between tokens. A string is read to its
end whatever is reported on the way, and so are the blanks and comments behind a
stray character. Only there more errors than the limit are reported; below the
limit the whole text is read.
-/

/-! ## What can be reported -/

namespace Lexeme

/-- No lexeme is reported as a comment without an end. -/
theorem notComment_of_ofHead
    {first : Char}
    {rest : List Char}
    {position : Position}
    {report : FaultReport}
    (member : report ∈ (ofHead first rest position).faults) :
    report.fault ≠ .unterminatedComment := by
  by_cases isQuote : IsQuote first
  · rw [ofHead_of_isQuote isQuote] at member
    rcases fault_of_stringTail member with ⟨letter, isFault⟩ | isFault
    · simp [isFault]
    · simp [isFault]
  cases isToken : (ofHead first rest position).kind? with
  | some kind =>
      rw [faults_of_token isQuote isToken] at member
      cases member
  | none =>
      rw [eq_stray_of_noToken isToken] at member
      cases List.mem_singleton.mp member
      simp

end Lexeme

/-! ## Comments without an end -/

/-- Some blanks and comments, and then a comment that does not end. -/
structure OpensComment
    (text gap body : List Char) :
    Prop where
  isText : text = gap ++ '/' :: '*' :: body
  isGap : Gap false gap
  neverCloses : ¬ ['*', '/'] <:+: body

/-- More of a gap may stand in front, with its line comments ended there. -/
theorem OpensComment.behind
    {piece text gap body : List Char}
    (isPiece : GapPiece text piece)
    (opens : OpensComment text gap body) :
    OpensComment (piece ++ text) (piece ++ gap) body := by
  obtain ⟨rfl, isGap, neverCloses⟩ := opens
  refine ⟨(List.append_assoc _ _ _).symm, ?_, neverCloses⟩
  cases isPiece with
  | blank blank =>
      exact .blank blank isGap
  | blockComment closesOnce =>
      simpa using Gap.blockComment closesOnce isGap
  | lineComment oneLine lineEnds =>
      apply Gap.lineComment_append oneLine isGap
      · intro character isHead
        apply lineEnds
        rw [List.head?_append, isHead]
        rfl
      · rintro rfl
        exact absurd (lineEnds '/' rfl) (by decide)

theorem neverCloses_of_blockCommentLength?
    {body : List Char}
    (noEnd : blockCommentLength? body = none) :
    ¬ ['*', '/'] <:+: body := by
  fun_induction blockCommentLength? body with
  | case1 =>
      decide
  | case2 =>
      cases noEnd
  | case3 character rest notHere inductionHypothesis =>
      rw [Option.map_eq_none_iff] at noEnd
      rw [not_closes_cons_iff]
      refine ⟨?_, inductionHypothesis noEnd⟩
      rintro ⟨rfl, isSlash⟩
      obtain ⟨tail, rfl⟩ := List.head?_eq_some_iff.mp isSlash
      exact notHere tail rfl rfl

namespace Scanner

variable {scanner next : Scanner}

/-- A scanner at the end of its text, where it reports a comment without an end. -/
def atOpenComment
    (scanner : Scanner)
    (gap : List Char) :
    Scanner :=
  { rest := []
    position := scanner.position.advanceBy scanner.rest
    faults :=
      scanner.faults ++
        [⟨.unterminatedComment,
          .upTo (scanner.position.advanceBy gap)
            (scanner.position.advanceBy scanner.rest)⟩] }

/-- What is stepped over at once has an end, or it is the rest of the text. -/
theorem endsComments_or_open_of_skipSeparator?
    (endsComments : scanner.EndsComments)
    (skipped : scanner.skipSeparator? = some next) :
    next.EndsComments ∨
      ∃ body,
        OpensComment scanner.rest [] body ∧
          next = scanner.atOpenComment [] := by
  unfold skipSeparator? at skipped
  split at skipped
  · cases skipped
  · cases skipped
    exact .inl endsComments
  · next body isRest =>
      cases skipped
      unfold skipBlockComment
      rw [isRest]
      cases ends : blockCommentLength? (List.drop 2 ('/' :: '*' :: body)) with
      | some length =>
          exact .inl endsComments
      | none =>
          refine .inr ⟨body, ⟨rfl, .nil, ?_⟩, ?_⟩
          · exact neverCloses_of_blockCommentLength? ends
          · simp [report, skip, atOpenComment, isRest]
  · split at skipped
    · cases skipped
      exact .inl endsComments
    · cases skipped

/-- Blanks and comments are a gap, or they end in a comment without an end. -/
theorem endsComments_or_open
    (endsComments : scanner.EndsComments) :
    scanner.skipSeparators.EndsComments ∨
      ∃ gap body,
        OpensComment scanner.rest gap body ∧
          scanner.skipSeparators = scanner.atOpenComment gap := by
  fun_induction skipSeparators scanner with
  | case1 scanner next skipped _ inductionHypothesis =>
      rcases endsComments_or_open_of_skipSeparator? endsComments skipped with
        nextEnds | ⟨body, opens, rfl⟩
      · obtain ⟨piece, passes, isPiece⟩ :=
          exists_piece_of_skipSeparator? skipped nextEnds
        rcases inductionHypothesis nextEnds with
          laterEnds | ⟨gap, body, opens, isLater⟩
        · exact .inl laterEnds
        · refine .inr ⟨piece ++ gap, body, ?_, ?_⟩
          · rw [passes.isRest]
            exact opens.behind isPiece
          · rw [isLater]
            simp only [atOpenComment, passes.faults, passes.position,
              passes.isRest, ← Position.advanceBy_append]
      · refine .inr ⟨[], body, opens, skipSeparators_of_none ?_⟩
        exact skipSeparator?_of_startsNoGap startsNoGap_nil
  | case2 scanner none =>
      exact .inl endsComments

end Scanner

/-! ## More errors than the limit -/

/--
More errors than the limit are reported of a text, with some reported before it.

Either a single string is reported so often; then nothing behind it is read. Or
the limit is reached by a stray character, and a comment without an end follows.
-/
inductive Overruns
    (position : Position)
    (text : List Char)
    (count : Nat)
    (tokens : List Token)
    (reports : List FaultReport) :
    Prop where
  | string
      (front : List Token)
      (earlier : List FaultReport)
      {quote : Char}
      {before rest : List Char}
      {tail : StringTail}
      {stop : Position}
      (isQuote : IsQuote quote)
      (isText : text = before ++ quote :: rest)
      (isTail :
        tail =
          stringTail quote (position.advanceBy before)
            (position.advanceBy (before ++ [quote])) rest)
      (isStop :
        stop = position.advanceBy (before ++ quote :: rest.take tail.length))
      (below : count + earlier.length < Diagnostic.errorLimit)
      (above :
        Diagnostic.errorLimit < count + earlier.length + tail.faults.length)
      (areTokens :
        tokens =
          front ++
            [⟨.string (String.ofList tail.value),
                .upTo (position.advanceBy before) stop⟩,
              ⟨.endOfFile, .point stop⟩])
      (areReports : reports = earlier ++ tail.faults)
  | comment
      (front : List Token)
      (earlier : List FaultReport)
      {character : Char}
      {before after gap body : List Char}
      (isText : text = before ++ character :: after)
      (opens : OpensComment after gap body)
      (reaches : count + earlier.length + 1 = Diagnostic.errorLimit)
      (areTokens :
        tokens = front ++ [⟨.endOfFile, .point (position.advanceBy text)⟩])
      (areReports :
        reports =
          earlier ++
            [⟨.unexpectedCharacter character,
                .upTo (position.advanceBy before)
                  (position.advanceBy (before ++ [character]))⟩,
              ⟨.unterminatedComment,
                .upTo (position.advanceBy (before ++ character :: gap))
                  (position.advanceBy text)⟩])

namespace Overruns

variable
  {position : Position}
  {text gap : List Char}
  {count : Nat}
  {tokens : List Token}
  {reports : List FaultReport}

theorem lt_length
    (overruns : Overruns position text count tokens reports) :
    Diagnostic.errorLimit < count + reports.length := by
  cases overruns with
  | string _ _ _ _ _ _ _ above _ areReports =>
      rw [areReports, List.length_append]
      omega
  | comment _ _ _ _ reaches _ areReports =>
      rw [areReports, List.length_append, List.length_cons,
        List.length_singleton]
      omega

/-- What is read and reported in front belongs to the whole text. -/
theorem behind
    (front : List Token)
    (earlier : List FaultReport)
    (overruns :
      Overruns (position.advanceBy gap) text (count + earlier.length) tokens
        reports) :
    Overruns position (gap ++ text) count (front ++ tokens)
      (earlier ++ reports) := by
  cases overruns with
  | string between later isQuote isText isTail isStop below above areTokens
      areReports =>
      simp only [← Position.advanceBy_append, ← List.append_assoc]
        at isTail isStop areTokens
      refine .string (front ++ between) (earlier ++ later) isQuote ?_ isTail
        isStop ?_ ?_ ?_ ?_
      · rw [isText, List.append_assoc]
      · rw [List.length_append]
        omega
      · rw [List.length_append]
        omega
      · rw [areTokens, List.append_assoc]
      · rw [areReports, List.append_assoc]
  | @comment between later character before after inner body isText opens reaches
      areTokens areReports =>
      have isWhole : gap ++ text = (gap ++ before) ++ character :: after := by
        rw [isText, List.append_assoc]
      simp only [← Position.advanceBy_append, ← List.append_assoc]
        at areTokens areReports
      refine .comment (front ++ between) (earlier ++ later) isWhole opens ?_ ?_ ?_
      · rw [List.length_append]
        omega
      · rw [areTokens, List.append_assoc]
      · rw [areReports]
        exact (List.append_assoc _ _ _).symm

end Overruns

namespace Scanner

variable {scanner next : Scanner}

/-- How a run ends: what it reports, what it has read, and when it overruns. -/
structure Ends
    (scanner : Scanner)
    (run : List Token × Scanner)
    (reports : List FaultReport) :
    Prop where
  faults : run.2.faults = scanner.faults ++ reports
  wholeText :
    run.2.faults.length < Diagnostic.errorLimit → run.2.rest = []
  overruns :
    Diagnostic.errorLimit < run.2.faults.length →
    Overruns scanner.position scanner.rest scanner.faults.length run.1 reports

theorem tokens_of_isFull
    (isFull : scanner.skipSeparators.isFull = true) :
    scanner.tokens =
      ([scanner.skipSeparators.endToken], scanner.skipSeparators) := by
  rw [tokens]
  exact if_pos isFull

/-! ## One step of the scanner -/

theorem rest_atOpenComment_ne_cons
    {gap rest : List Char}
    {character : Char}
    (isOpen : scanner.skipSeparators = scanner.atOpenComment gap) :
    scanner.skipSeparators.rest ≠ character :: rest := by
  rw [isOpen]
  exact (List.cons_ne_nil _ _).symm

/-- In front of more text there is a gap, and nothing is reported of it. -/
theorem exists_gap_before
    {character : Char}
    {rest : List Char}
    (endsComments : scanner.EndsComments)
    (isRest : scanner.skipSeparators.rest = character :: rest) :
    scanner.skipSeparators.EndsComments ∧
      ∃ gap, scanner.Passes gap scanner.skipSeparators := by
  rcases endsComments_or_open endsComments with ends | ⟨_, _, _, isOpen⟩
  · obtain ⟨gap, passes, -⟩ := exists_gap ends
    exact ⟨ends, gap, passes⟩
  · exact absurd isRest (rest_atOpenComment_ne_cons isOpen)

/-- At the end of the text at most one comment is reported. -/
theorem exists_ends_at_end
    (endsComments : scanner.EndsComments)
    (below : scanner.faults.length < Diagnostic.errorLimit)
    (atEnd : scanner.skipSeparators.rest = []) :
    ∃ reports,
      scanner.Ends ([scanner.skipSeparators.endToken], scanner.skipSeparators)
        reports := by
  rcases endsComments_or_open endsComments with
    ends | ⟨gap, body, opens, isOpen⟩
  · obtain ⟨gap, passes, -⟩ := exists_gap ends
    refine ⟨[], ?_, fun _ => atEnd, fun above => ?_⟩
    · rw [List.append_nil, passes.faults]
    · rw [passes.faults] at above
      omega
  · refine ⟨_, congrArg Scanner.faults isOpen, fun _ => atEnd, fun above => ?_⟩
    simp only [isOpen, atOpenComment, List.length_append,
      List.length_singleton] at above
    omega

/-- Where the limit is reached between tokens, the text is at its end. -/
theorem atEnd_of_isFull
    (endsComments : scanner.EndsComments)
    (below : scanner.faults.length < Diagnostic.errorLimit)
    (isFull : scanner.skipSeparators.isFull = true) :
    scanner.skipSeparators.rest = [] := by
  rcases endsComments_or_open endsComments with ends | ⟨_, _, _, isOpen⟩
  · obtain ⟨gap, passes, -⟩ := exists_gap ends
    rw [isFull_iff, passes.faults] at isFull
    omega
  · rw [isOpen]
    rfl

theorem endsComments_pass
    {first : Char}
    {rest : List Char}
    (endsComments : scanner.EndsComments) :
    (scanner.pass
      (Lexeme.ofHead first rest scanner.position)).EndsComments := by
  intro report member
  rcases List.mem_append.mp member with isEarlier | isHere
  · exact endsComments report isEarlier
  · exact Lexeme.notComment_of_ofHead isHere

/-- A run that goes on ends as it does from there. -/
theorem Ends.behind
    {text : List Char}
    {earlier reports : List FaultReport}
    {run : List Token × Scanner}
    (front : List Token)
    (ends : next.Ends run reports)
    (moves : scanner.MovesOver text next)
    (areFaults : next.faults = scanner.faults ++ earlier) :
    scanner.Ends (front ++ run.1, run.2) (earlier ++ reports) where
  faults := by
    rw [← List.append_assoc, ← areFaults]
    exact ends.faults
  wholeText := ends.wholeText
  overruns above := by
    have overruns := ends.overruns above
    rw [areFaults, List.length_append, moves.position] at overruns
    rw [moves.isRest]
    exact overruns.behind front earlier

/-- A scanner behind some dropped characters and a stray one that it reports. -/
def behindStray
    (scanner : Scanner)
    (gap : List Char)
    (character : Char)
    (rest : List Char) :
    Scanner :=
  { rest
    position := scanner.position.advanceBy (gap ++ [character])
    faults :=
      scanner.faults ++
        [⟨.unexpectedCharacter character,
          .upTo (scanner.position.advanceBy gap)
            (scanner.position.advanceBy (gap ++ [character]))⟩] }

section Stray

variable
  {gap rest : List Char}
  {character : Char}

theorem pass_stray_of_passes
    (passes : scanner.Passes gap next)
    (isRest : next.rest = character :: rest) :
    next.pass (.stray character next.position) =
      scanner.behindStray gap character rest := by
  rw [pass_stray isRest, passes.faults, passes.position, behindStray,
    Position.advanceBy_append]
  rfl

theorem endsComments_behindStray
    (endsComments : scanner.EndsComments) :
    (scanner.behindStray gap character rest).EndsComments := by
  intro report member
  rcases List.mem_append.mp member with isEarlier | isHere
  · exact endsComments report isEarlier
  · cases List.mem_singleton.mp isHere
    simp

/-- A comment without an end behind the stray character that reaches the limit. -/
theorem overruns_of_open
    {inner body : List Char}
    {last : Scanner}
    (isText : scanner.rest = gap ++ character :: rest)
    (opens : OpensComment rest inner body)
    (isLast :
      last = (scanner.behindStray gap character rest).atOpenComment inner)
    (reaches : scanner.faults.length + 1 = Diagnostic.errorLimit) :
    ∃ reports,
      last.faults = scanner.faults ++ reports ∧
        Overruns scanner.position scanner.rest scanner.faults.length
          [last.endToken] reports := by
  have behind (later : List Char) :
      (scanner.position.advanceBy (gap ++ [character])).advanceBy later =
        scanner.position.advanceBy (gap ++ character :: later) := by
    rw [← Position.advanceBy_append, List.append_assoc]
    rfl
  have isEnd :
      last.position = scanner.position.advanceBy scanner.rest := by
    rw [isLast, isText]
    exact behind rest
  refine ⟨_, ?_, .comment [] [] isText opens reaches ?_ rfl⟩
  · rw [isLast, atOpenComment, behindStray]
    simp only [behind, ← isText, List.append_assoc]
    rfl
  · rw [endToken, isEnd]
    rfl

/-- A stray character reaches the limit; only a comment is reported behind it. -/
theorem exists_ends_of_stray
    (endsComments : scanner.EndsComments)
    (isText : scanner.rest = gap ++ character :: rest)
    (reaches : scanner.faults.length + 1 = Diagnostic.errorLimit) :
    ∃ reports,
      scanner.Ends (scanner.behindStray gap character rest).tokens
        reports := by
  have count :
      (scanner.behindStray gap character rest).faults.length =
        Diagnostic.errorLimit := by
    rw [behindStray, List.length_append]
    exact reaches
  rcases endsComments_or_open (endsComments_behindStray endsComments) with
    laterEnds | ⟨inner, body, opens, isOpen⟩
  · obtain ⟨later, passes, -⟩ := exists_gap laterEnds
    have sameCount := count
    rw [← passes.faults] at sameCount
    rw [tokens_of_isFull (isFull_iff.mpr sameCount.ge)]
    refine ⟨_, passes.faults, fun below => ?_, fun above => ?_⟩
    · exact absurd sameCount (Nat.ne_of_lt below)
    · exact absurd sameCount (Nat.ne_of_gt above)
  · have isFull :
        (scanner.behindStray gap character rest).skipSeparators.isFull =
          true := by
      rw [isFull_iff, isOpen, atOpenComment, List.length_append, count]
      exact Nat.le_add_right _ _
    obtain ⟨reports, areFaults, overruns⟩ :=
      overruns_of_open isText opens isOpen reaches
    rw [tokens_of_isFull isFull]
    exact ⟨reports, areFaults, fun _ => isOpen ▸ rfl, fun _ => overruns⟩

end Stray

section Quoted

variable
  {gap rest : List Char}
  {quote : Char}
  {ahead : Scanner}

/-- A string that is reported past the limit is the last thing that is read. -/
theorem overruns_of_string
    {lexeme : Lexeme}
    {tail : StringTail}
    (passes : scanner.Passes gap ahead)
    (isRest : ahead.rest = quote :: rest)
    (isQuote : IsQuote quote)
    (isLexeme : lexeme = .string quote rest ahead.position)
    (isTail :
      tail = stringTail quote ahead.position (ahead.position.advance quote) rest)
    (below : scanner.faults.length < Diagnostic.errorLimit)
    (above :
      Diagnostic.errorLimit < scanner.faults.length + tail.faults.length) :
    Overruns scanner.position scanner.rest scanner.faults.length
      [⟨.string (String.ofList tail.value),
          .upTo ahead.position (ahead.pass lexeme).position⟩,
        (ahead.pass lexeme).endToken]
      tail.faults := by
  have isAhead := passes.position
  have behindQuote :
      ahead.position.advance quote =
        scanner.position.advanceBy (gap ++ [quote]) := by
    rw [Position.advanceBy_append, isAhead]
    rfl
  have isText : scanner.rest = gap ++ quote :: rest := by
    rw [passes.isRest, isRest]
  have isLength : lexeme.length = tail.length + 1 := by
    rw [isLexeme, isTail]
    exact Nat.add_comm _ _
  have isStop :
      (ahead.pass lexeme).position =
        scanner.position.advanceBy (gap ++ quote :: rest.take tail.length) := by
    rw [(ahead.movesOver_pass lexeme).position, isRest, isLength,
      List.take_succ_cons, isAhead, Position.advanceBy_append]
  rw [behindQuote, isAhead] at isTail
  rw [endToken, isAhead]
  exact .string [] [] isQuote isText isTail isStop below above rfl rfl

/-- Only a string reaches the limit as a token. -/
theorem ends_of_full_token
    {kind : Kind}
    (passes : scanner.Passes gap ahead)
    (isRest : ahead.rest = quote :: rest)
    (isNext :
      next = ahead.pass (Lexeme.ofHead quote rest ahead.position))
    (isToken :
      (Lexeme.ofHead quote rest ahead.position).kind? = some kind)
    (below : scanner.faults.length < Diagnostic.errorLimit)
    (isFull : next.isFull = true) :
    scanner.Ends
      ([⟨kind, .upTo ahead.position next.position⟩, next.endToken], next)
      (Lexeme.ofHead quote rest ahead.position).faults := by
  have areFaults :
      next.faults =
        scanner.faults ++
          (Lexeme.ofHead quote rest ahead.position).faults := by
    rw [isNext, ← passes.faults]
    rfl
  rw [isFull_iff] at isFull
  -- No other token is reported, so none reaches the limit.
  have isQuote : IsQuote quote := by
    by_contra notQuote
    rw [areFaults, Lexeme.faults_of_token notQuote isToken, List.append_nil]
      at isFull
    omega
  refine ⟨areFaults, fun few => absurd few (Nat.not_lt_of_le isFull),
    fun above => ?_⟩
  rw [areFaults, List.length_append] at above
  have isLexeme :
      Lexeme.ofHead quote rest ahead.position =
        .string quote rest ahead.position :=
    Lexeme.ofHead_of_isQuote isQuote
  rw [isLexeme] at isToken above ⊢
  cases isToken
  rw [isNext]
  exact overruns_of_string passes isRest isQuote isLexeme rfl below above

end Quoted

/-! ## A run of the scanner -/

/-- Every run ends at the end of the text, at the limit, or past it as described. -/
theorem exists_ends_of_tokens
    (endsComments : scanner.EndsComments)
    (below : scanner.faults.length < Diagnostic.errorLimit) :
    ∃ reports, scanner.Ends scanner.tokens reports := by
  fun_induction tokens scanner with
  | case1 scanner ahead isFull =>
      exact exists_ends_at_end endsComments below
        (atEnd_of_isFull endsComments below isFull)
  | case2 scanner ahead notFull atEnd =>
      exact exists_ends_at_end endsComments below atEnd
  | case3 scanner ahead notFull character rest isRest lexeme next _ noToken
      inductionHypothesis =>
      obtain ⟨-, gap, passes⟩ := exists_gap_before endsComments isRest
      have isStray : next = scanner.behindStray gap character rest := by
        rw [← pass_stray_of_passes passes isRest]
        exact congrArg ahead.pass (Lexeme.eq_stray_of_noToken noToken)
      have isText : scanner.rest = gap ++ character :: rest := by
        rw [passes.isRest]
        exact congrArg (gap ++ ·) isRest
      have moves : scanner.MovesOver (gap ++ [character]) next := by
        rw [isStray]
        exact ⟨by rw [isText, List.append_assoc]; rfl, rfl⟩
      rw [isStray] at inductionHypothesis moves ⊢
      have count :
          (scanner.behindStray gap character rest).faults.length =
            scanner.faults.length + 1 :=
        List.length_append
      -- At the limit the run still passes the gap behind the stray character.
      by_cases stillBelow :
          (scanner.behindStray gap character rest).faults.length <
            Diagnostic.errorLimit
      · obtain ⟨reports, ends⟩ :=
          inductionHypothesis (endsComments_behindStray endsComments) stillBelow
        exact ⟨_, ends.behind [] moves rfl⟩
      · exact exists_ends_of_stray endsComments isText (by omega)
  | case4 scanner ahead notFull character rest isRest lexeme next _ kind isToken
      token isFull =>
      obtain ⟨-, gap, passes⟩ := exists_gap_before endsComments isRest
      exact ⟨_, ends_of_full_token passes isRest rfl isToken below isFull⟩
  | case5 scanner ahead notFull character rest isRest lexeme next _ kind isToken
      token notFullLater later last isLater inductionHypothesis =>
      obtain ⟨aheadEnds, gap, passes⟩ := exists_gap_before endsComments isRest
      rw [isLater] at inductionHypothesis
      have stillBelow : next.faults.length < Diagnostic.errorLimit :=
        Nat.lt_of_not_le (mt isFull_iff.mpr notFullLater)
      have moves :
          scanner.MovesOver (gap ++ ahead.rest.take lexeme.length) next :=
        MovesOver.append ⟨passes.isRest, passes.position⟩
          (ahead.movesOver_pass lexeme)
      have areFaults : next.faults = scanner.faults ++ lexeme.faults := by
        rw [← passes.faults]
        rfl
      obtain ⟨reports, ends⟩ :=
        inductionHypothesis (endsComments_pass aheadEnds) stillBelow
      exact ⟨_, ends.behind [token] moves areFaults⟩

/-- A run passes a part of the text, and its last token stands behind it. -/
theorem exists_movesOver_tokens
    (scanner : Scanner) :
    ∃ read front,
      scanner.MovesOver read scanner.tokens.2 ∧
        scanner.tokens.1 = front ++ [scanner.tokens.2.endToken] := by
  fun_induction tokens scanner with
  | case1 scanner ahead isFull =>
      obtain ⟨gap, moves⟩ := movesOver_skipSeparators scanner
      exact ⟨gap, [], moves, rfl⟩
  | case2 scanner ahead notFull atEnd =>
      obtain ⟨gap, moves⟩ := movesOver_skipSeparators scanner
      exact ⟨gap, [], moves, rfl⟩
  | case3 scanner ahead notFull character rest isRest lexeme next _ noToken
      inductionHypothesis =>
      obtain ⟨gap, moves⟩ := movesOver_skipSeparators scanner
      obtain ⟨read, front, movesLater, areTokens⟩ := inductionHypothesis
      have both := moves.append (movesOver_pass scanner.skipSeparators lexeme)
      exact ⟨_, front, both.append movesLater, areTokens⟩
  | case4 scanner ahead notFull character rest isRest lexeme next _ kind isToken
      token isFull =>
      obtain ⟨gap, moves⟩ := movesOver_skipSeparators scanner
      have both := moves.append (movesOver_pass scanner.skipSeparators lexeme)
      exact ⟨_, [token], both, rfl⟩
  | case5 scanner ahead notFull character rest isRest lexeme next _ kind isToken
      token notFullLater later last isLater inductionHypothesis =>
      rw [isLater] at inductionHypothesis
      obtain ⟨gap, moves⟩ := movesOver_skipSeparators scanner
      obtain ⟨read, front, movesLater, areTokens⟩ := inductionHypothesis
      have both := moves.append (movesOver_pass scanner.skipSeparators lexeme)
      exact ⟨_, token :: front, both.append movesLater,
        congrArg (token :: ·) areTokens⟩

end Scanner

/-! ## The reports of a text -/

theorem ends_scan
    (text : List Char) :
    (Scanner.ofText text).Ends (Scanner.ofText text).tokens
      (scan text).faults := by
  have noComments : (Scanner.ofText text).EndsComments := by
    intro report member
    exact absurd member List.not_mem_nil
  have noFaults : (Scanner.ofText text).faults.length < Diagnostic.errorLimit :=
    Nat.succ_pos 19
  obtain ⟨reports, ends⟩ := Scanner.exists_ends_of_tokens noComments noFaults
  have areFaults : (scan text).faults = reports := ends.faults
  exact areFaults ▸ ends

/-- Below the limit of errors a text is read to its end. -/
theorem reads_whole_text
    {text : List Char}
    (below : (scan text).faults.length < Diagnostic.errorLimit) :
    (Scanner.ofText text).tokens.2.rest = [] ∧
      ∃ front,
        (scan text).tokens =
          front ++ [⟨.endOfFile, .point (Position.origin.advanceBy text)⟩] := by
  have atEnd := (ends_scan text).wholeText below
  obtain ⟨read, front, moves, areTokens⟩ :=
    (Scanner.ofText text).exists_movesOver_tokens
  have isText : text = read := by
    have isRest : text = read ++ _ := moves.isRest
    rw [isRest, atEnd, List.append_nil]
  refine ⟨atEnd, front, ?_⟩
  rw [Scanner.endToken, moves.position, ← isText] at areTokens
  exact areTokens

theorem overruns_iff
    (text : List Char) :
    Diagnostic.errorLimit < (scan text).faults.length ↔
      Overruns .origin text 0 (scan text).tokens (scan text).faults := by
  constructor
  · exact (ends_scan text).overruns
  · intro overruns
    have above := overruns.lt_length
    rwa [Nat.zero_add] at above

end GraphScript.Token

namespace GraphScript.Script

/--
Scanning counts all errors, stores the first ones, and reads on below the limit.

Below the limit the whole text is read. Past the limit there are errors, which are
counted and not stored, just in case a string is reported again when the limit is
reached in it, or a comment without an end follows the stray character that
reaches the limit.
-/
theorem scanning_stops_at_error_limit
    (source : SourceFile) :
    (ofSource source).tokenLog.totalErrors =
        (ofSource source).scan.faults.length ∧
      (ofSource source).tokenLog.errors =
        ((ofSource source).scan.faults.take Diagnostic.errorLimit).map
          (·.diagnostic source) ∧
      ((ofSource source).tokenLog.totalErrors < Diagnostic.errorLimit →
        (Token.Scanner.ofText source.contents.toList).tokens.2.rest = [] ∧
          ∃ front,
            (ofSource source).scan.tokens =
              front ++
                [⟨.endOfFile,
                  .point
                    (Position.origin.advanceBy source.contents.toList)⟩]) ∧
      (Diagnostic.errorLimit < (ofSource source).tokenLog.totalErrors ↔
        Token.Overruns .origin source.contents.toList 0
          (ofSource source).scan.tokens (ofSource source).scan.faults) ∧
      ((ofSource source).tokenLog.errors.length =
          (ofSource source).tokenLog.totalErrors ↔
        ¬ Token.Overruns .origin source.contents.toList 0
          (ofSource source).scan.tokens (ofSource source).scan.faults) := by
  have isTotal :
      (ofSource source).tokenLog.totalErrors =
        (ofSource source).scan.faults.length :=
    FaultReport.totalErrors_log source _
  have areStored :
      (ofSource source).tokenLog.errors = _ :=
    FaultReport.errors_log_eq_take source (ofSource source).scan.faults
  have overruns :
      Diagnostic.errorLimit < (ofSource source).scan.faults.length ↔
        Token.Overruns .origin source.contents.toList 0
          (ofSource source).scan.tokens (ofSource source).scan.faults :=
    Token.overruns_iff source.contents.toList
  refine ⟨isTotal, areStored, ?_, ?_, ?_⟩
  · intro below
    exact Token.reads_whole_text (isTotal ▸ below)
  · rw [isTotal]
    exact overruns
  · rw [← overruns, isTotal, areStored, List.length_map, List.length_take,
      Nat.not_lt]
    omega

/-- A character that starts no token, and nothing else. -/
def questionFile : SourceFile :=
  ⟨"words", "?"⟩

/-- More escapes are unknown in one string than errors are stored. -/
def unknownEscapesFile : SourceFile :=
  ⟨"words",
    String.ofList
      ('"' :: (List.replicate 21 ['\\', 'q']).flatten ++ ['"', '?'])⟩

theorem scanning_stops_at_error_limit_of_escapes :
    (ofSource questionFile).tokenLog.totalErrors = 1 ∧
      (Token.Scanner.ofText questionFile.contents.toList).tokens.2.rest = [] ∧
      (ofSource unknownEscapesFile).tokenLog.totalErrors = 21 ∧
      (ofSource unknownEscapesFile).tokenLog.errors.length = 20 ∧
      Token.Overruns .origin unknownEscapesFile.contents.toList 0
        (ofSource unknownEscapesFile).scan.tokens
        (ofSource unknownEscapesFile).scan.faults := by
  have isOne : (ofSource questionFile).tokenLog.totalErrors = 1 := by
    decide +kernel
  have areMany : (ofSource unknownEscapesFile).tokenLog.totalErrors = 21 := by
    decide +kernel
  have areStored : (ofSource unknownEscapesFile).tokenLog.errors.length = 20 := by
    decide +kernel
  have below :
      (ofSource questionFile).tokenLog.totalErrors < Diagnostic.errorLimit := by
    rw [isOne]
    decide
  have above :
      Diagnostic.errorLimit <
        (ofSource unknownEscapesFile).tokenLog.totalErrors := by
    rw [areMany]
    decide
  obtain ⟨-, -, wholeText, -⟩ := scanning_stops_at_error_limit questionFile
  obtain ⟨-, -, -, overruns, -⟩ :=
    scanning_stops_at_error_limit unknownEscapesFile
  exact ⟨isOne, (wholeText below).1, areMany, areStored, overruns.mp above⟩

end GraphScript.Script
