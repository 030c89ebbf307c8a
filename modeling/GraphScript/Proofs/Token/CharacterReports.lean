import GraphScript.Proofs.Source.Bytes
import GraphScript.Proofs.Token.Places

namespace GraphScript.Token

/-!
# Reports about single characters

Every report of the scanner stands where the scanner has read what it is about. A
character that starts no token is covered by the span of its report as a whole.
The span of an unknown escape covers the backslash and one byte, which is all of
the escaped character only if that character has no second byte.
-/

/-- What a report is about stands in a text that is read from a position on. -/
inductive StandsIn
    (position : Position)
    (text : List Char) :
    FaultReport →
    Prop where
  | character
      (before after : List Char)
      {character : Char}
      (oneLine : '\n' ≠ character)
      (isText : text = before ++ character :: after) :
      StandsIn position text
        ⟨.unexpectedCharacter character,
          .upTo (position.advanceBy before)
            (position.advanceBy (before ++ [character]))⟩
  | escape
      (before after : List Char)
      {letter : Char}
      (oneLine : '\n' ≠ letter)
      (isText : text = before ++ '\\' :: letter :: after) :
      StandsIn position text
        ⟨.invalidEscape letter,
          .upTo (position.advanceBy before)
            ⟨(position.advanceBy before).line,
              (position.advanceBy before).column + 2⟩⟩
  | openString
      {quote : Char}
      {span : Span} :
      StandsIn position text ⟨.unterminatedString quote, span⟩
  | openComment
      {span : Span} :
      StandsIn position text ⟨.unterminatedComment, span⟩

/-- What stands behind some characters stands in the text with them in front. -/
theorem StandsIn.behind
    {position : Position}
    (gap : List Char)
    {text : List Char}
    {report : FaultReport}
    (standsIn : StandsIn (position.advanceBy gap) text report) :
    StandsIn position (gap ++ text) report := by
  cases standsIn with
  | character before after oneLine isText =>
      rw [← Position.advanceBy_append, ← Position.advanceBy_append,
        ← List.append_assoc]
      refine .character (gap ++ before) after oneLine ?_
      rw [isText, List.append_assoc]
  | escape before after oneLine isText =>
      rw [← Position.advanceBy_append]
      refine .escape (gap ++ before) after oneLine ?_
      rw [isText, List.append_assoc]
  | openString =>
      exact .openString
  | openComment =>
      exact .openComment

/-! ## The reports of a lexeme -/

variable
  {first : Char}
  {rest : List Char}
  {position : Position}
  {report : FaultReport}

/-- What is reported inside a string stands in the text behind its quote. -/
theorem standsIn_of_stringTail
    {quote : Char}
    {start here : Position}
    (member : report ∈ (stringTail quote start here rest).faults) :
    StandsIn here rest report := by
  fun_induction stringTail quote start here rest with
  | case1 =>
      cases List.mem_singleton.mp member
      exact .openString
  | case2 =>
      cases List.mem_singleton.mp member
      exact .openString
  | case3 =>
      cases List.mem_singleton.mp member
      exact .openString
  | case4 here letter rest next isOther tail value isEscape inductionHypothesis =>
      exact .behind ['\\', letter] (inductionHypothesis member)
  | case5 here letter rest next isOther tail noEscape span inductionHypothesis =>
      rcases List.mem_cons.mp member with rfl | isLater
      · exact .escape [] rest (Ne.symm isOther) rfl
      · exact .behind ['\\', letter] (inductionHypothesis isLater)
  | case6 =>
      cases member
  | case7 =>
      cases List.mem_singleton.mp member
      exact .openString
  | case8 here character rest notLast notEscape notQuote isOther
      inductionHypothesis =>
      exact .behind [character] (inductionHypothesis member)

namespace Lexeme

/-- A lexeme that is no token is a single character. -/
theorem eq_stray_of_noToken
    (noToken : (ofHead first rest position).kind? = none) :
    ofHead first rest position = stray first position := by
  by_cases isQuote : IsQuote first
  · rw [ofHead_of_isQuote isQuote] at noToken
    cases noToken
  by_cases isDigit : IsDigit first
  · rw [ofHead_of_isDigit isDigit] at noToken
    cases noToken
  by_cases starts : IsLetter first ∨ first = '_'
  · rw [ofHead_of_startsWord starts] at noToken
    cases noToken
  by_cases isHyphen : first = '-'
  · subst isHyphen
    rw [ofHead_hyphen] at noToken ⊢
    unfold hyphen at noToken ⊢
    grind [stray, token, number]
  · rw [ofHead_of_sign isQuote isDigit starts isHyphen] at noToken ⊢
    grind [stray, token]

/-- What is reported of a lexeme stands in the text that it starts. -/
theorem standsIn_of_ofHead
    (oneLine : '\n' ≠ first)
    (member : report ∈ (ofHead first rest position).faults) :
    StandsIn position (first :: rest) report := by
  by_cases isQuote : IsQuote first
  · rw [ofHead_of_isQuote isQuote] at member
    exact .behind [first] (standsIn_of_stringTail member)
  cases isToken : (ofHead first rest position).kind? with
  | some kind =>
      rw [faults_of_token isQuote isToken] at member
      cases member
  | none =>
      rw [eq_stray_of_noToken isToken] at member
      cases List.mem_singleton.mp member
      exact .character [] rest oneLine rfl

end Lexeme

/-! ## The reports of a run -/

namespace Scanner

variable {scanner next : Scanner}

/-- A block comment is reported at most for not ending. -/
theorem mem_faults_skipBlockComment
    (member : report ∈ scanner.skipBlockComment.faults) :
    report ∈ scanner.faults ∨ report.fault = .unterminatedComment := by
  unfold skipBlockComment at member
  split at member
  · exact .inl member
  · rcases List.mem_append.mp member with isEarlier | isHere
    · exact .inl isEarlier
    · cases List.mem_singleton.mp isHere
      exact .inr rfl

/-- A separator is reported at most as a comment that does not end. -/
theorem mem_faults_skipSeparator?
    (skipped : scanner.skipSeparator? = some next)
    (member : report ∈ next.faults) :
    report ∈ scanner.faults ∨ report.fault = .unterminatedComment := by
  unfold skipSeparator? at skipped
  split at skipped
  · cases skipped
  · cases skipped
    exact .inl member
  · cases skipped
    exact mem_faults_skipBlockComment member
  · split at skipped
    · cases skipped
      exact .inl member
    · cases skipped

/-- Between tokens only a comment without an end is reported. -/
theorem mem_faults_skipSeparators
    (member : report ∈ scanner.skipSeparators.faults) :
    report ∈ scanner.faults ∨ report.fault = .unterminatedComment := by
  fun_induction skipSeparators scanner with
  | case1 scanner next skipped _ inductionHypothesis =>
      rcases inductionHypothesis member with isEarlier | isComment
      · exact mem_faults_skipSeparator? skipped isEarlier
      · exact .inr isComment
  | case2 =>
      exact .inl member

/-- Behind all separators neither a blank nor a comment starts. -/
theorem startsNoGap_skipSeparators
    (scanner : Scanner) :
    StartsNoGap scanner.skipSeparators.rest := by
  fun_induction skipSeparators scanner with
  | case1 scanner next skipped _ inductionHypothesis =>
      exact inductionHypothesis
  | case2 scanner none =>
      exact startsNoGap_of_skipSeparator? none

/-- The character behind blanks and comments is no line feed. -/
theorem notLineFeed_of_skipSeparators
    (isRest : scanner.skipSeparators.rest = first :: rest) :
    '\n' ≠ first := by
  rintro rfl
  have notBlank := (startsNoGap_skipSeparators scanner _ _ isRest).1
  cases notBlank

/-- A report about what stands ahead stands in the text that was ahead before. -/
theorem MovesOver.standsIn
    {gap : List Char}
    (moves : scanner.MovesOver gap next)
    (standsIn : StandsIn next.position next.rest report) :
    StandsIn scanner.position scanner.rest report := by
  rw [moves.position] at standsIn
  rw [moves.isRest]
  exact standsIn.behind gap

/-- What is reported of separators stands in the text they are in. -/
theorem standsIn_of_skipSeparators
    (member : report ∈ scanner.skipSeparators.faults) :
    report ∈ scanner.faults ∨
      StandsIn scanner.position scanner.rest report := by
  rcases mem_faults_skipSeparators member with isEarlier | isComment
  · exact .inl isEarlier
  · rcases report with ⟨fault, span⟩
    cases isComment
    exact .inr .openComment

/-- One lexeme behind blanks and comments is reported where it stands. -/
theorem standsIn_of_pass
    (isRest : scanner.skipSeparators.rest = first :: rest)
    (member :
      report ∈
        (scanner.skipSeparators.pass
          (Lexeme.ofHead first rest scanner.skipSeparators.position)).faults) :
    report ∈ scanner.faults ∨
      StandsIn scanner.position scanner.rest report := by
  rcases List.mem_append.mp member with isEarlier | isHere
  · exact standsIn_of_skipSeparators isEarlier
  · obtain ⟨gap, moves⟩ := movesOver_skipSeparators scanner
    have oneLine := notLineFeed_of_skipSeparators isRest
    have standsIn := Lexeme.standsIn_of_ofHead oneLine isHere
    rw [← isRest] at standsIn
    exact .inr (moves.standsIn standsIn)

/-- What a run reports stands in the text that it reads. -/
theorem standsIn_of_tokens
    (member : report ∈ scanner.tokens.2.faults) :
    report ∈ scanner.faults ∨
      StandsIn scanner.position scanner.rest report := by
  -- A report of the later run is one of this lexeme, or it stands behind it.
  have ofLater
      {scanner : Scanner}
      {first : Char}
      {rest : List Char}
      (isRest : scanner.skipSeparators.rest = first :: rest)
      (later :
        let next :=
          scanner.skipSeparators.pass
            (Lexeme.ofHead first rest scanner.skipSeparators.position)
        report ∈ next.faults ∨ StandsIn next.position next.rest report) :
      report ∈ scanner.faults ∨
        StandsIn scanner.position scanner.rest report := by
    rcases later with isEarlier | standsIn
    · exact standsIn_of_pass isRest isEarlier
    · obtain ⟨gap, moves⟩ := movesOver_skipSeparators scanner
      exact .inr
        ((moves.append (movesOver_pass scanner.skipSeparators _)).standsIn
          standsIn)
  fun_induction tokens scanner with
  | case1 =>
      exact standsIn_of_skipSeparators member
  | case2 =>
      exact standsIn_of_skipSeparators member
  | case3 scanner ahead notFull character rest isRest lexeme next _ noToken
      inductionHypothesis =>
      exact ofLater isRest (inductionHypothesis member)
  | case4 scanner ahead notFull character rest isRest lexeme next _ kind isToken
      token isFull =>
      exact standsIn_of_pass isRest member
  | case5 scanner ahead notFull character rest isRest lexeme next _ kind isToken
      token notFullLater later last isLater inductionHypothesis =>
      rw [isLater] at inductionHypothesis
      exact ofLater isRest (inductionHypothesis member)

end Scanner

/-- What is reported of a text stands in it. -/
theorem standsIn_of_scan
    {text : List Char}
    (member : report ∈ (scan text).faults) :
    StandsIn .origin text report := by
  have atStart : report ∈ (Scanner.ofText text).tokens.2.faults := member
  rcases Scanner.standsIn_of_tokens atStart with isEarlier | standsIn
  · cases isEarlier
  · exact standsIn

end GraphScript.Token

namespace GraphScript

/-! ## The words of the reports -/

namespace Fault

variable {character : Char}

/-- A character of one byte is named by this byte. -/
theorem leadingByte_eq_self
    (single : character.utf8Size = 1) :
    leadingByte character = character := by
  have small : character.val.toNat ≤ 127 := Char.utf8Size_eq_one_iff.mp single
  have isByte :
      character.val.toUInt8.toUInt32.toNat = character.val.toNat := by
    rw [UInt8.toNat_toUInt32, UInt32.toNat_toUInt8]
    omega
  rw [leadingByte, String.utf8EncodeChar_eq_singleton single]
  exact Char.ext (UInt32.toNat_inj.mp isByte)

/-- The message about a stray character quotes that character. -/
theorem message_unexpectedCharacter
    (character : Char) :
    (unexpectedCharacter character).message =
      "Unexpected character '" ++ String.ofList [character] ++ "'" :=
  rfl

/-- The message about an escape quotes the first byte of its letter as a character. -/
theorem message_invalidEscape
    (letter : Char) :
    (invalidEscape letter).message =
      "Invalid escape sequence '" ++ String.ofList ['\\', leadingByte letter] ++
        "'" := by
  have opening :
      "Invalid escape sequence '\\" =
        "Invalid escape sequence '" ++ String.ofList ['\\'] := by
    decide +kernel
  have quoted :
      String.ofList ['\\', leadingByte letter] =
        String.ofList ['\\'] ++ String.ofList [leadingByte letter] := by
    rw [← String.ofList_append]
    rfl
  rw [quoted, ← String.append_assoc, ← opening]
  rfl

end Fault

/-! ## What the reports cover -/

/-- A diagnostic covers a text on one line of a file and quotes it. -/
structure Diagnostic.Covers
    (file : SourceFile)
    (preamble : String)
    (text : List Char)
    (diagnostic : Diagnostic) :
    Prop where
  oneLine : diagnostic.span.start.line = diagnostic.span.stop.line
  covered : file.bytesUnder? diagnostic.span = some (utf8Bytes text)
  quoted : diagnostic.message = preamble ++ String.ofList text ++ "'"

namespace Token

variable
  {file : SourceFile}
  {span : Span}

/-- The report of a stray character covers exactly that character and quotes it. -/
theorem covers_unexpectedCharacter
    {character : Char}
    (standsIn :
      StandsIn .origin file.contents.toList
        ⟨.unexpectedCharacter character, span⟩) :
    (FaultReport.diagnostic ⟨.unexpectedCharacter character, span⟩
        file).Covers file "Unexpected character '" [character] := by
  cases standsIn with
  | character before after oneLine isText =>
      have onLine : '\n' ∉ [character] := by
        simpa using oneLine
      refine ⟨?_, ?_, Fault.message_unexpectedCharacter character⟩
      · rw [Position.advanceBy_append, Position.advanceBy_of_oneLine onLine]
        rfl
      · exact SourceFile.bytesUnder?_upTo isText (by simp) onLine

/-- The span of an unknown escape has the backslash and one more byte. -/
theorem bytesUnder?_invalidEscape
    {letter : Char}
    (standsIn :
      StandsIn .origin file.contents.toList ⟨.invalidEscape letter, span⟩) :
    span.start.line = span.stop.line ∧
      file.bytesUnder? span = some ((utf8Bytes ['\\', letter]).take 2) := by
  cases standsIn with
  | escape before after oneLine isText =>
      have onLine : '\n' ∉ ['\\', letter] := by
        simpa using oneLine
      have within : 2 ≤ (utf8Bytes ['\\', letter]).length := by
        have backslashOne : '\\'.utf8Size = 1 := rfl
        have letterPositive := letter.utf8Size_pos
        rw [length_utf8Bytes_cons, length_utf8Bytes_cons]
        omega
      exact ⟨rfl,
        SourceFile.bytesUnder?_of_read isText onLine (by decide) within⟩

/-- The two bytes are a text exactly if the escaped character has one byte. -/
theorem exists_text_take_two_iff
    (letter : Char) :
    (∃ text, utf8Bytes text = (utf8Bytes ['\\', letter]).take 2) ↔
      letter.utf8Size = 1 := by
  obtain ⟨byte, others, isSplit, -⟩ := exists_firstByte letter
  have areTaken :
      (utf8Bytes ['\\', letter]).take 2 = '\\'.val.toUInt8 :: [byte] := by
    rw [utf8Bytes_cons, utf8Bytes_cons, isSplit]
    rfl
  rw [areTaken, ← exists_utf8Bytes_eq_firstByte_iff isSplit]
  constructor
  · rintro ⟨text, isText⟩
    exact exists_utf8Bytes_of_cons isText (by decide)
  · rintro ⟨text, isText⟩
    exact ⟨'\\' :: text, by rw [utf8Bytes_cons, isText]; rfl⟩

/--
The report of an unknown escape covers and quotes it exactly if its letter is one
byte long.
-/
theorem covers_invalidEscape_iff
    {letter : Char}
    (standsIn :
      StandsIn .origin file.contents.toList ⟨.invalidEscape letter, span⟩) :
    (FaultReport.diagnostic ⟨.invalidEscape letter, span⟩ file).Covers file
        "Invalid escape sequence '" ['\\', letter] ↔
      letter.utf8Size = 1 := by
  obtain ⟨oneLine, isCovered⟩ := bytesUnder?_invalidEscape standsIn
  constructor
  · intro covers
    have whole := isCovered.symm.trans covers.covered
    rw [Option.some.injEq] at whole
    exact (exists_text_take_two_iff letter).mp ⟨_, whole.symm⟩
  · intro single
    have isSize : (utf8Bytes ['\\', letter]).length = 2 := by
      rw [length_utf8Bytes_cons, length_utf8Bytes_cons, single]
      rfl
    refine ⟨oneLine, ?_, ?_⟩
    · rw [List.take_of_length_le (Nat.le_of_eq isSize)] at isCovered
      exact isCovered
    · have quoted := Fault.message_invalidEscape letter
      rw [Fault.leadingByte_eq_self single] at quoted
      exact quoted

/--
Reports about single characters are on one line, and this is what they cover.

A character that starts no token is covered and quoted as a whole. The bytes that
an unknown escape covers are the backslash and the first byte of the character
behind it. They are a text, and the escape is covered and quoted as a whole, just
in case that character has a single byte.
-/
theorem character_reports_cover_characters
    (file : SourceFile)
    {report : FaultReport}
    (member : report ∈ (scan file.contents.toList).faults) :
    (∀ character,
      report.fault = .unexpectedCharacter character →
      (report.diagnostic file).Covers file "Unexpected character '"
        [character]) ∧
      ∀ letter,
        report.fault = .invalidEscape letter →
        (report.diagnostic file).span.start.line =
            (report.diagnostic file).span.stop.line ∧
          ∃ bytes,
            file.bytesUnder? (report.diagnostic file).span = some bytes ∧
              bytes = (utf8Bytes ['\\', letter]).take 2 ∧
              ((∃ text, utf8Bytes text = bytes) ↔ letter.utf8Size = 1) ∧
              ((report.diagnostic file).Covers file "Invalid escape sequence '"
                  ['\\', letter] ↔
                letter.utf8Size = 1) := by
  have standsIn := standsIn_of_scan member
  rcases report with ⟨fault, span⟩
  constructor
  · rintro character ⟨⟩
    exact covers_unexpectedCharacter standsIn
  · rintro letter ⟨⟩
    obtain ⟨oneLine, isCovered⟩ := bytesUnder?_invalidEscape standsIn
    exact ⟨oneLine, _, isCovered, rfl, exists_text_take_two_iff letter,
      covers_invalidEscape_iff standsIn⟩

/-- A letter with an accent stands outside a string and behind a backslash in it. -/
def accentsFile : SourceFile :=
  ⟨"words", "é \"\\é\""⟩

theorem character_reports_cover_characters_of_accents :
    ∃ stray escape,
      (scan accentsFile.contents.toList).faults = [stray, escape] ∧
        (stray.diagnostic accentsFile).Covers accentsFile
          "Unexpected character '" ['é'] ∧
        accentsFile.bytesUnder? (escape.diagnostic accentsFile).span =
          some [0x5c, 0xc3] ∧
        ¬ (escape.diagnostic accentsFile).Covers accentsFile
          "Invalid escape sequence '" ['\\', 'é'] := by
  have areFaults :
      (scan accentsFile.contents.toList).faults =
        [⟨.unexpectedCharacter 'é', ⟨⟨1, 1⟩, ⟨1, 2⟩⟩⟩,
          ⟨.invalidEscape 'é', ⟨⟨1, 5⟩, ⟨1, 6⟩⟩⟩] := by
    decide +kernel
  have strayCovers :=
    (character_reports_cover_characters accentsFile
      (areFaults ▸ List.mem_cons_self)).1 'é' rfl
  obtain ⟨-, bytes, isCovered, rfl, -, coversIff⟩ :=
    (character_reports_cover_characters accentsFile
      (areFaults ▸ List.mem_cons_of_mem _ List.mem_cons_self)).2 'é' rfl
  have notSingle : 'é'.utf8Size ≠ 1 := by decide
  exact ⟨_, _, areFaults, strayCovers, isCovered, mt coversIff.mp notSingle⟩

end Token

end GraphScript
